import ContextOS.Lib.Outcome
import ContextOS.MemoryStore
import ContextOS.Scoring

/-! The memory engine: scoped writes, and hybrid retrieval over the scanned rows.
Retrieval returns raw signals; the assembler owns the final rank. A write is given its
fresh id and three clock readings from outside. The pool of the diversity loop shrinks in
every round, so its length bounds the rounds. -/
namespace ContextOS
open Lib (Dict bindOk pureOk)

variable {R : Type} [PyFloat R]

def nDense : Nat := 200
def nSparse : Nat := 200
def maxCandidates : Nat := 512
def scanLimit : Nat := 4096
def engineMmrLambda : R := 0.7
def cosDup : R := 0.95
def wRrf : R := 0.6
def wRecency : R := 0.25
def wImportance : R := 0.15

structure MemoryEngine (R : Type) where
  embedder : EmbeddingProvider R

structure Birth where
  id : String
  createdAt : Time
  lastAccessedAt : Time
  ingestedAt : Time
  deriving DecidableEq, Repr

structure WriteRequest (R : Type) where
  content : String
  tier : MemoryTier
  importance : R
  source : String
  sourceId : Option String
  metadata : Dict String String

namespace MemoryEngine

/-- `MemoryObject(...)` with its declared bounds on `importance`. -/
def construct (birth : Birth) (ctx : SecurityContext) (w : WriteRequest R) : Except PyError (MemoryObject R) :=
  if 0 ≤ w.importance ∧ w.importance ≤ 1 then
    .ok ⟨birth.id, ctx.tenantId, ctx.namespaceId, w.tier, w.content, none, w.importance,
      birth.createdAt, birth.lastAccessedAt, ⟨w.source, w.sourceId, birth.ingestedAt⟩, w.metadata⟩
  else .error ⟨.validationError, "importance"⟩

def write (birth : Birth) (store : InMemoryStore R) (ctx : SecurityContext) (w : WriteRequest R) :
    Except PyError (MemoryObject R × InMemoryStore R) := do
  let memory ← construct birth ctx w
  let store ← store.addMemory ctx memory
  pure (memory, store)

theorem constructedScope {birth ctx} {w : WriteRequest R} {memory}
    (ok : construct birth ctx w = .ok memory) :
    memory.tenantId = ctx.tenantId ∧ memory.namespaceId = ctx.namespaceId := by
  unfold construct at ok
  split at ok <;> try contradiction
  cases Except.ok.inj ok
  exact ⟨rfl, rfl⟩

theorem constructedId {birth ctx} {w : WriteRequest R} {memory} (ok : construct birth ctx w = .ok memory) :
    memory.id = birth.id := by
  unfold construct at ok
  split at ok <;> try contradiction
  cases Except.ok.inj ok
  rfl

theorem writeCases (birth : Birth) (ctx : SecurityContext) (w : WriteRequest R) :
    (∃ e, ∀ store, write birth store ctx w = .error e) ∨
    ∃ memory, memory.tenantId = ctx.tenantId ∧ memory.namespaceId = ctx.namespaceId ∧
      construct birth ctx w = .ok memory ∧
      ∀ store, write birth store ctx w = .ok (memory, store.putAll ctx.tenantId [memory]) := by
  cases made : construct birth ctx w with
  | error e => exact .inl ⟨e, fun store => by simp only [write, made]; rfl⟩
  | ok memory =>
    obtain ⟨tenant, ns⟩ := constructedScope made
    refine .inr ⟨memory, tenant, ns, rfl, fun store => ?_⟩
    have added : store.addMemory ctx memory = .ok (store.put ctx.tenantId memory.id memory) :=
      InMemoryStore.addedIff.mpr ⟨tenant, ns, rfl⟩
    simp only [write, made, bind, Except.bind, added]
    rfl

def put (store : InMemoryStore R) (ctx : SecurityContext) (memory : MemoryObject R) :
    Except PyError (InMemoryStore R) :=
  store.addMemory ctx memory

def allMemories (store : InMemoryStore R) (ctx : SecurityContext) (limit : Nat) : List (MemoryObject R) :=
  store.listMemories ctx limit

def selectionScore (rrfNorm : Dict String R) (c : MemoryCandidate R) : R :=
  wRrf * (rrfNorm.get c.memoryId).getD 0 + wRecency * c.recencyFactor + wImportance * c.importance

/-- `max((cosine(vecs[c], vecs[s]) for s in selected), default=0.0)` -/
def maxSimilarity (vecs : String → List R) (selected : List (MemoryCandidate R)) (c : MemoryCandidate R) :
    Except PyError R := do
  let sims ← selected.mapM (fun s => cosine (vecs c.memoryId) (vecs s.memoryId))
  pure ((sims.max?).getD 0)

def bestOf (rrfNorm : Dict String R) (vecs : String → List R) (selected : List (MemoryCandidate R)) :
    Nat → R → Option (Nat × MemoryCandidate R) → List (MemoryCandidate R) →
    Except PyError (Option (Nat × MemoryCandidate R))
  | _, _, best, [] => .ok best
  | pos, bestVal, best, c :: rest => do
    let maxSim ← maxSimilarity vecs selected c
    if cosDup ≤ maxSim then bestOf rrfNorm vecs selected (pos + 1) bestVal best rest
    else
      let val := engineMmrLambda * selectionScore rrfNorm c - (1 - engineMmrLambda) * maxSim
      if bestVal < val then bestOf rrfNorm vecs selected (pos + 1) val (some (pos, c)) rest
      else bestOf rrfNorm vecs selected (pos + 1) bestVal best rest

def mmrLoop (rrfNorm : Dict String R) (vecs : String → List R) :
    Nat → List (MemoryCandidate R) → List (MemoryCandidate R) → Except PyError (List (MemoryCandidate R))
  | 0, _, selected => .ok selected
  | rounds + 1, pool, selected =>
    if pool.isEmpty ∨ maxCandidates ≤ selected.length then .ok selected
    else do
      match ← bestOf rrfNorm vecs selected 0 (-1e18) none pool with
      | none => .ok selected
      | some (pos, c) => mmrLoop rrfNorm vecs rounds (pool.eraseIdx pos) (selected ++ [c])

def mmr (cands : List (MemoryCandidate R)) (rrfNorm : Dict String R) (vecs : String → List R) :
    Except PyError (List (MemoryCandidate R)) :=
  let pool := cands.insertionSort (fun a b => selectionScore rrfNorm b ≤ selectionScore rrfNorm a)
  mmrLoop rrfNorm vecs pool.length pool []

def rankOf (order : List String) (mid : String) : Option Nat :=
  (Dict.ofList (order.zipIdx 1)).get mid

structure Scored (R : Type) where
  row : MemoryObject R
  vec : List R
  vectorScore : R
  bm25 : R

def candidate (now : Time) (denseOrder sparseOrder : List String) (rrf : Dict String R) (s : Scored R) :
    Option (MemoryCandidate R) :=
  match rrf.get s.row.id with
  | none => none
  | some score =>
    let age : R := max 0 (((now - s.row.lastAccessedAt : Int) : R) / 1e6)
    let inDense := rankOf denseOrder s.row.id
    let inSparse := rankOf sparseOrder s.row.id
    some {
      memoryId := s.row.id, tenantId := s.row.tenantId, namespaceId := s.row.namespaceId
      tier := s.row.tier, content := s.row.content
      vectorScore := if inDense.isSome then some s.vectorScore else none
      bm25Score := if inSparse.isSome then some s.bm25 else none
      rrfScore := score
      recencyFactor := recencyFactor age (halfLifeSeconds s.row.tier)
      importance := s.row.importance
      rankInDense := inDense, rankInSparse := inSparse
      ageSeconds := age, sourceRef := s.row.provenance.sourceId }

/-! Whatever the scores are, every candidate is the copy of a scanned row. -/

theorem bestOfMember {rrfNorm : Dict String R} {vecs selected pool pos val best found}
    (ok : bestOf rrfNorm vecs selected pos val best pool = .ok (some found)) :
    some found = best ∨ found.2 ∈ pool := by
  induction pool generalizing pos val best with
  | nil =>
    simp only [bestOf, Except.ok.injEq] at ok
    exact .inl ok.symm
  | cons c rest ih =>
    simp only [bestOf, bindOk] at ok
    obtain ⟨sim, _, ok⟩ := ok
    split at ok
    · exact (ih ok).imp_right (List.mem_cons_of_mem _)
    · split at ok
      · rcases ih ok with here | later
        · cases Option.some.inj here
          exact .inr List.mem_cons_self
        · exact .inr (List.mem_cons_of_mem _ later)
      · exact (ih ok).imp_right (List.mem_cons_of_mem _)

theorem mmrLoopMember {rrfNorm : Dict String R} {vecs rounds pool selected result}
    (ok : mmrLoop rrfNorm vecs rounds pool selected = .ok result) :
    ∀ c ∈ result, c ∈ selected ∨ c ∈ pool := by
  induction rounds generalizing pool selected with
  | zero =>
    simp only [mmrLoop, Except.ok.injEq] at ok
    subst ok
    exact fun c member => .inl member
  | succ rounds ih =>
    simp only [mmrLoop] at ok
    split at ok
    · cases Except.ok.inj ok
      exact fun c member => .inl member
    · obtain ⟨best, found, ok⟩ := bindOk.mp ok
      cases best with
      | none =>
        cases Except.ok.inj ok
        exact fun c member => .inl member
      | some best =>
        obtain ⟨pos, chosen⟩ := best
        have inPool : chosen ∈ pool := by simpa using bestOfMember found
        intro c member
        rcases ih ok c member with old | left
        · rcases List.mem_append.mp old with old | new
          · exact .inl old
          · rw [List.mem_singleton] at new
            exact .inr (new ▸ inPool)
        · exact .inr (List.mem_of_mem_eraseIdx left)

theorem mmrMember {cands : List (MemoryCandidate R)} {rrfNorm vecs result}
    (ok : mmr cands rrfNorm vecs = .ok result) : ∀ c ∈ result, c ∈ cands := by
  intro c member
  rcases mmrLoopMember ok c member with none | inside
  · simp at none
  · exact (List.mem_insertionSort _).mp inside

structure CopyOf (c : MemoryCandidate R) (row : MemoryObject R) : Prop where
  id : c.memoryId = row.id
  tenant : c.tenantId = row.tenantId
  ns : c.namespaceId = row.namespaceId
  content : c.content = row.content

theorem candidateCopies {now dense sparse rrf} {s : Scored R} {c}
    (made : candidate now dense sparse rrf s = some c) : CopyOf c s.row := by
  unfold candidate at made
  split at made <;> try contradiction
  cases Option.some.inj made
  exact ⟨rfl, rfl, rfl, rfl⟩

variable [Builtins]

def retrieve (e : MemoryEngine R) (now : Time) (store : InMemoryStore R) (ctx : SecurityContext)
    (query : String) (k : Int) : Except PyError (List (MemoryCandidate R)) := do
  let k := min k maxCandidates
  let rows := store.listMemories ctx scanLimit
  if rows.isEmpty then return []
  let qvec := e.embedder.embed query
  let contents := rows.map (·.content)
  let cvecs := e.embedder.embedMany contents
  let vectorScores ← cvecs.mapM (fun cv => cosine qvec cv)
  let bm25 := bm25Scores (tokenize query) (contents.map tokenize)
  let scored := (rows.zip (cvecs.zip (vectorScores.zip bm25))).map (fun x => Scored.mk x.1 x.2.1 x.2.2.1 x.2.2.2)
  let dense := (scored.insertionSort (fun a b => b.vectorScore ≤ a.vectorScore)).take nDense
  let sparse := ((scored.insertionSort (fun a b => b.bm25 ≤ a.bm25)).filter (fun s => 0 < s.bm25)).take nSparse
  let denseOrder := dense.map (·.row.id)
  let sparseOrder := sparse.map (·.row.id)
  let rrf := rrfFuse denseOrder sparseOrder rrfK
  let cands := scored.filterMap (candidate now denseOrder sparseOrder rrf)
  let vecs := Dict.ofList (scored.map (fun s => (s.row.id, s.vec)))
  let deduped ← mmr cands (minmaxNormalize rrf) (fun mid => (vecs.get mid).getD [])
  return sliceTo deduped k

theorem retrievedCopies {e : MemoryEngine R} {now store ctx query k result}
    (ok : e.retrieve now store ctx query k = .ok result) :
    ∀ c ∈ result, ∃ row ∈ store.listMemories ctx scanLimit, CopyOf c row := by
  intro c member
  simp only [retrieve] at ok
  split at ok
  · rw [pureOk] at ok
    subst ok
    simp at member
  · obtain ⟨scores, _, ok⟩ := bindOk.mp ok
    obtain ⟨deduped, selected, ok⟩ := bindOk.mp ok
    rw [pureOk] at ok
    subst ok
    have made := mmrMember selected c (sliceToMember member)
    obtain ⟨s, inside, made⟩ := List.mem_filterMap.mp made
    obtain ⟨x, zipped, rfl⟩ := List.mem_map.mp inside
    exact ⟨x.1, (List.of_mem_zip zipped).1, candidateCopies made⟩

theorem retrievedScope {e : MemoryEngine R} {now store ctx query k result}
    (ok : e.retrieve now store ctx query k = .ok result) :
    ∀ c ∈ result, c.namespaceId = ctx.namespaceId := by
  intro c member
  obtain ⟨row, listed, copy⟩ := retrievedCopies ok c member
  exact copy.ns.trans (InMemoryStore.listMember listed).2

end MemoryEngine
end ContextOS
