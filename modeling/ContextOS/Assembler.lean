import ContextOS.Budget
import ContextOS.Lib.Greedy
import ContextOS.Lib.Outcome
import ContextOS.Scoring

/-! The context assembler: blend, diversify, pack into the soft budget, edge-load and
render. It is the only place where signals become one rank and a budget is spent. The
diversity loop moves one candidate in every round, so the length of the pool bounds it. -/
namespace ContextOS
open Lib (Dict alternate argmax)

variable {R : Type}

def mmrTopK : Nat := 128

structure Turn where
  role : Role
  content : String
  deriving DecidableEq, Repr

structure ContextSources (R : Type) where
  systemPrompt : String
  latestUserTurn : String
  candidates : List (MemoryCandidate R)
  history : List Turn

structure CandidateDecision (R : Type) where
  memoryId : String
  blended : R
  kept : Bool
  reason : String
  placement : Option Nat
  deriving DecidableEq

structure AssembledContext (R : Type) where
  messages : List ChatMessage
  usedTokens : Int
  budget : TokenBudget
  decisions : List (CandidateDecision R)

abbrev Ranked (R : Type) := MemoryCandidate R × R

structure ContextAssembler (R : Type) where
  embedder : EmbeddingProvider R

def pack (count : String → Int) (softBudget : Int) :
    Int → List (Ranked R) → List (Ranked R) × List (CandidateDecision R)
  | _, [] => ([], [])
  | used, (c, blended) :: rest =>
    if used + count c.content ≤ softBudget then
      let (survivors, decisions) := pack count softBudget (used + count c.content) rest
      ((c, blended) :: survivors, ⟨c.memoryId, blended, true, "packed", none⟩ :: decisions)
    else
      let (survivors, decisions) := pack count softBudget used rest
      (survivors, ⟨c.memoryId, blended, false, "evicted: soft budget full", none⟩ :: decisions)

def knapsack (scored selected : List (Ranked R)) (softBudget : Int) (count : String → Int) :
    List (Ranked R) × List (CandidateDecision R) :=
  let (survivors, decisions) := pack count softBudget 0 selected
  let selectedIds := selected.map (·.1.memoryId)
  let below := (scored.filter (fun cb => cb.1.memoryId ∉ selectedIds)).map
    (fun cb => ⟨cb.1.memoryId, cb.2, false, "evicted: below MMR top-K", none⟩)
  (survivors, decisions ++ below)

def memoryHeader : String := "Relevant context:\n"

def memoryMessage (placed : List (Ranked R)) : ChatMessage :=
  ⟨.system, memoryHeader ++ "\n".intercalate (placed.map (fun cb => "- " ++ cb.1.content))⟩

def render (sources : ContextSources R) (placed : List (Ranked R)) : List ChatMessage :=
  (if sources.systemPrompt.isEmpty then [] else [⟨.system, sources.systemPrompt⟩]) ++
  (if placed.isEmpty then [] else [memoryMessage placed]) ++
  sources.history.map (fun t => ⟨t.role, t.content⟩) ++
  [⟨.user, sources.latestUserTurn⟩]

variable [PyFloat R]

def sourcePrior (c : MemoryCandidate R) : R := if 1 ≤ c.importance then 1 else 0.5

def blendOne (w : RankWeights R) (maxBm : R) (c : MemoryCandidate R) : R :=
  let vec := c.vectorScore.getD 0
  let lex := if 0 < maxBm then c.bm25Score.getD 0 / maxBm else 0
  w.vector * vec + w.lexical * lex + w.recency * c.recencyFactor + w.importance * c.importance +
    w.source * sourcePrior c

def blend (candidates : List (MemoryCandidate R)) (w : RankWeights R) : List (Ranked R) :=
  let maxBm := ((candidates.map (fun c => c.bm25Score.getD 0)).max?).getD 0
  candidates.map (fun c => (c, blendOne w maxBm c))

def maxSimOf (maxSim : Dict String R) (c : MemoryCandidate R) : R := (maxSim.get c.memoryId).getD 0

def raiseSim (vecs : String → List R) (cvec : List R) (maxSim : Dict String R) (cb : Ranked R) :
    Except PyError (Dict String R) := do
  let sim ← cosine (vecs cb.1.memoryId) cvec
  if maxSimOf maxSim cb.1 < sim then return maxSim.set cb.1.memoryId sim else return maxSim

def selectLoop (lam : R) (vecs : String → List R) :
    Nat → List (Ranked R) → Dict String R → List (Ranked R) → Except PyError (List (Ranked R))
  | 0, _, _, selected => .ok selected
  | rounds + 1, pool, maxSim, selected =>
    match argmax (fun cb => lam * cb.2 - (1 - lam) * maxSimOf maxSim cb.1) pool with
    | none => .ok selected
    | some pos =>
      match pool[pos]? with
      | none => .ok selected
      | some chosen => do
        let pool := pool.eraseIdx pos
        let maxSim ← pool.foldlM (raiseSim vecs (vecs chosen.1.memoryId)) maxSim
        selectLoop lam vecs rounds pool maxSim (selected ++ [chosen])

/-- `sorted(scored, key=blended, reverse=True)[:MMR_TOPK]` -/
def topRanked (scored : List (Ranked R)) : List (Ranked R) :=
  (scored.insertionSort (fun a b => b.2 ≤ a.2)).take mmrTopK

def weaker (a b : Ranked R) : Prop := a.2 < b.2 ∨ (a.2 = b.2 ∧ a.1.memoryId ≤ b.1.memoryId)
instance : DecidableRel (weaker (R := R)) := fun a b => by unfold weaker; infer_instance

def edgeLoad (survivors : List (Ranked R)) : List (Ranked R) :=
  alternate 0 [] (survivors.insertionSort weaker)

namespace ContextAssembler

def mmr (a : ContextAssembler R) (scored : List (Ranked R)) (lam : R) : Except PyError (List (Ranked R)) :=
  let ranked := topRanked scored
  let vecs := Dict.ofList ((ranked.map (·.1.memoryId)).zip
    (a.embedder.embedMany (ranked.map (·.1.content))))
  let start := Dict.ofList (ranked.map (fun cb => (cb.1.memoryId, (0 : R))))
  selectLoop lam (fun mid => (vecs.get mid).getD []) ranked.length ranked start []

structure Packing (R : Type) where
  survivors : List (Ranked R)
  decisions : List (CandidateDecision R)

def packing (a : ContextAssembler R) (softBudget : Int) (candidates : List (MemoryCandidate R))
    (weights : RankWeights R) (count : String → Int) (mmrLambda : R) : Except PyError (Packing R) := do
  let scored := blend candidates weights
  let selected ← a.mmr scored mmrLambda
  let (survivors, decisions) := knapsack scored selected softBudget count
  return ⟨survivors, decisions⟩

def countWith (tokenizer : Option Tokenizer) (text : String) : Int :=
  match tokenizer with
  | some t => t.count text
  | none => conservativeCount none text

def assemble (a : ContextAssembler R) (budget : TokenBudget) (sources : ContextSources R)
    (weights : RankWeights R) (tokenizer : Option Tokenizer) (mmrLambda : R) :
    Except PyError (AssembledContext R) := do
  weights.validate
  checkHardReserves budget
  let count := countWith tokenizer
  let p ← a.packing budget.softBudget sources.candidates weights count mmrLambda
  let placed := edgeLoad p.survivors
  let position := Dict.ofList ((placed.map (·.1.memoryId)).zipIdx)
  let decisions := p.decisions.map
    (fun d => if d.kept then { d with placement := position.get d.memoryId } else d)
  let used := count sources.systemPrompt + count sources.latestUserTurn +
    (placed.map (fun cb => count cb.1.content)).sum + (sources.history.map (fun t => count t.content)).sum
  return ⟨render sources placed, used, budget, decisions⟩

end ContextAssembler
end ContextOS
