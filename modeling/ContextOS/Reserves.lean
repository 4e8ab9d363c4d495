import ContextOS.Accounting
import ContextOS.Endings

/-! What the soft budget is not charged for. The turns of a history are counted and take no
room from the candidates, and a negative output reserve makes room that the window does not
have. In both cases the assembly stays inside the window exactly when the room that is
really there would keep the same candidates. -/
namespace ContextOS
open Lib (toOptionOk fill fillFits fillNarrow)

variable {R : Type} [PyFloat R]

namespace ContextAssembler

def keeps (a : ContextAssembler R) (softBudget : Int) (candidates : List (MemoryCandidate R)) (weights : RankWeights R)
    (count : String → Int) (mmrLambda : R) : Except PyError (List (Ranked R)) :=
  (a.packing softBudget candidates weights count mmrLambda).map (·.survivors)

variable {a : ContextAssembler R} {candidates : List (MemoryCandidate R)} {weights : RankWeights R} {lam : R}
  {selected : List (Ranked R)}

theorem keepsFill (chosen : a.mmr (blend candidates weights) lam = .ok selected) (soft : Int) (count : String → Int) :
    a.keeps soft candidates weights count lam = .ok (fill (fun cb => count cb.1.content) soft 0 selected) := by
  simp only [keeps, packing, chosen, bind, Except.bind, pure, Except.pure, Except.map, knapsack, packSurvivors]

end ContextAssembler

section Assembled
variable {a : ContextAssembler R} {budget : TokenBudget} {sources : ContextSources R} {weights : RankWeights R}
  {count : String → Int} {lam : R} {selected survivors : List (Ranked R)} {out : AssembledContext R}

def historyTokens (count : String → Int) (sources : ContextSources R) : Int :=
  (sources.history.map (fun t => count t.content)).sum

theorem AssemblyParts.total (parts : AssemblyParts a budget sources weights count lam selected survivors out) :
    out.usedTokens = count sources.systemPrompt + count sources.latestUserTurn +
      (survivors.map (fun cb => count cb.1.content)).sum + historyTokens count sources := by
  rw [parts.used, ((edgeLoadPerm survivors).map _).sum_eq]
  rfl

theorem AssemblyParts.keeps (parts : AssemblyParts a budget sources weights count lam selected survivors out) :
    a.keeps budget.softBudget sources.candidates weights count lam = .ok survivors := by
  rw [ContextAssembler.keepsFill parts.chosen, parts.packed]

theorem AssemblyParts.sameFits (parts : AssemblyParts a budget sources weights count lam selected survivors out) (room : Int)
    (positive : 0 ≤ room) (same : a.keeps room sources.candidates weights count lam =
      a.keeps budget.softBudget sources.candidates weights count lam) :
    (survivors.map (fun cb => count cb.1.content)).sum ≤ room := by
  rw [parts.keeps, ContextAssembler.keepsFill parts.chosen] at same
  rw [← Except.ok.inj same]
  simpa using fillFits (fun cb : Ranked R => count cb.1.content) room positive selected

theorem AssemblyParts.fitsSame (parts : AssemblyParts a budget sources weights count lam selected survivors out)
    (nonneg : ∀ text, 0 ≤ count text) {room : Int} (less : room ≤ budget.softBudget) (positive : 0 ≤ room)
    (fits : (survivors.map (fun cb => count cb.1.content)).sum ≤ room) :
    a.keeps room sources.candidates weights count lam = a.keeps budget.softBudget sources.candidates weights count lam := by
  rw [parts.packed] at fits
  have weights : ∀ cb : Ranked R, 0 ≤ count cb.1.content := fun cb => nonneg cb.1.content
  rw [ContextAssembler.keepsFill parts.chosen, ContextAssembler.keepsFill parts.chosen,
    (fillNarrow budget.softBudget weights less positive selected).mpr (by simpa using fits)]

end Assembled

theorem assembleRefused (a : ContextAssembler R) {budget : TokenBudget} (sources : ContextSources R) {weights : RankWeights R}
    (tokenizer : Option Tokenizer) (lam : R) (balanced : weights.validate = .ok ())
    (exceeds : budget.windowTokens < budget.hardFloor) :
    ∃ e, a.assemble budget sources weights tokenizer lam = .error e ∧ e.kind = .contextOverflow := by
  obtain ⟨e, refused, overflow⟩ := refusedReserves exceeds
  exact ⟨e, by simp only [ContextAssembler.assemble, balanced, refused, bind, Except.bind], overflow⟩

/-! ### The history -/

/-- The turns fit the soft budget, and what they leave of it keeps the same candidates. -/
def HistoryFits (a : ContextAssembler R) (budget : TokenBudget) (sources : ContextSources R) (weights : RankWeights R)
    (count : String → Int) (lam : R) : Prop :=
  historyTokens count sources ≤ budget.softBudget ∧
    a.keeps (budget.softBudget - historyTokens count sources) sources.candidates weights count lam =
      a.keeps budget.softBudget sources.candidates weights count lam

theorem historyInside {a : ContextAssembler R} {budget : TokenBudget} {sources : ContextSources R} {weights : RankWeights R}
    {tokenizer : Option Tokenizer} {lam : R} {out : AssembledContext R}
    (system : budget.systemReserve = ContextAssembler.countWith tokenizer sources.systemPrompt)
    (user : budget.latestUserReserve = ContextAssembler.countWith tokenizer sources.latestUserTurn)
    (ok : a.assemble budget sources weights tokenizer lam = .ok out) :
    (HistoryFits a budget sources weights (ContextAssembler.countWith tokenizer) lam →
      out.usedTokens + budget.outputReserve ≤ budget.windowTokens) ∧
    ((∀ t ∈ tokenizer, t.NonNegative) → out.usedTokens + budget.outputReserve ≤ budget.windowTokens →
      HistoryFits a budget sources weights (ContextAssembler.countWith tokenizer) lam) := by
  obtain ⟨selected, survivors, parts⟩ := assembleParts ok
  obtain ⟨_, soft⟩ := checkedReserves parts.reserves
  have inside : out.usedTokens + budget.outputReserve ≤ budget.windowTokens ↔
      (survivors.map (fun cb => ContextAssembler.countWith tokenizer cb.1.content)).sum +
        historyTokens (ContextAssembler.countWith tokenizer) sources ≤ budget.softBudget := by
    rw [parts.total, soft, TokenBudget.hardFloor, system, user]
    omega
  rw [inside]
  constructor
  · rintro ⟨room, same⟩
    have := parts.sameFits _ (by omega) same
    omega
  · intro nonneg fits
    have counts := countWithNonneg nonneg
    have turns : 0 ≤ historyTokens (ContextAssembler.countWith tokenizer) sources :=
      List.sum_nonneg (List.forall_mem_map.mpr fun t _ => counts t.content)
    have kept : 0 ≤ (survivors.map (fun cb => ContextAssembler.countWith tokenizer cb.1.content)).sum :=
      List.sum_nonneg (List.forall_mem_map.mpr fun cb _ => counts cb.1.content)
    exact ⟨by omega, parts.fitsSame counts (by omega) (by omega) (by omega)⟩

def earlierBudget : TokenBudget := ⟨2, 0, 0, 1⟩

def earlierSources : ContextSources ℚ := ⟨"", "why?", [], [⟨.user, "an earlier question"⟩]⟩

def earlierAssembled : Except PyError (AssembledContext ℚ) :=
  (ContextAssembler.mk compass).assemble earlierBudget earlierSources RankWeights.default
    (some HeuristicTokenizer.default.toTokenizer) 0.7

theorem historyInsideSample : ∃ out, earlierAssembled = .ok out ∧
    (HistoryFits (.mk compass) earlierBudget earlierSources RankWeights.default HeuristicTokenizer.default.count 0.7 →
      out.usedTokens + earlierBudget.outputReserve ≤ earlierBudget.windowTokens) ∧
    (out.usedTokens + earlierBudget.outputReserve ≤ earlierBudget.windowTokens →
      HistoryFits (.mk compass) earlierBudget earlierSources RankWeights.default HeuristicTokenizer.default.count 0.7) := by
  obtain ⟨out, assembled⟩ := Option.isSome_iff_exists.mp (by decide +kernel : earlierAssembled.toOption.isSome)
  obtain ⟨fits, tight⟩ := historyInside (by decide +kernel) (by decide +kernel) (toOptionOk.mp assembled)
  exact ⟨out, toOptionOk.mp assembled, fits, tight heuristicNonneg⟩

theorem historyOutside : ∃ out, earlierAssembled = .ok out ∧ 0 ≤ earlierBudget.outputReserve ∧
    earlierBudget.systemReserve = HeuristicTokenizer.default.count earlierSources.systemPrompt ∧
    earlierBudget.latestUserReserve = HeuristicTokenizer.default.count earlierSources.latestUserTurn ∧
    ¬ out.usedTokens + earlierBudget.outputReserve ≤ earlierBudget.windowTokens := by
  have exceeded : earlierAssembled.toOption.any (fun out => decide (earlierBudget.windowTokens <
      out.usedTokens + earlierBudget.outputReserve)) := by decide +kernel
  obtain ⟨out, assembled, more⟩ := (Option.any_eq_true _ _).mp exceeded
  exact ⟨out, toOptionOk.mp assembled, by decide, by decide +kernel, by decide +kernel, not_le.mpr (of_decide_eq_true more)⟩

/-! ### The output reserve -/

section Output
variable [Builtins]

def ChatCall.unreserved (c : ChatCall) : ChatCall := { c with maxTokens := 0 }

namespace Pipeline

-- either the chat is refused with a 413, or what it assembles fits the window
def Bounded (p : Pipeline R) (env : Env) (ctx : SecurityContext) (c : ChatCall) (candidates : List (MemoryCandidate R)) : Prop :=
  match p.assembleStage env ctx c candidates with
  | .ok prepared => prepared.assembledTokens ≤ p.windowTokens
  | .error e => e.kind = .contextOverflow

/-- The reserve is not negative, or the chat is refused all the same, or with nothing
reserved the same candidates are kept. -/
def ReserveHarmless (p : Pipeline R) (a : ContextAssembler R) (c : ChatCall) (candidates : List (MemoryCandidate R)) : Prop :=
  0 ≤ c.maxTokens ∨ p.windowTokens < (p.budgetFor c).hardFloor ∨
    ((p.budgetFor c.unreserved).hardFloor ≤ p.windowTokens ∧
      a.keeps (p.budgetFor c.unreserved).softBudget candidates p.weights p.tokenizer.count defaultMmrLambda =
        a.keeps (p.budgetFor c).softBudget candidates p.weights p.tokenizer.count defaultMmrLambda)

omit [PyFloat R] [Builtins] in
theorem unreservedFloor (p : Pipeline R) (c : ChatCall) :
    (p.budgetFor c.unreserved).hardFloor = p.tokenizer.count c.systemText + p.tokenizer.count c.prompt := by
  rw [TokenBudget.hardFloor, add_assoc]
  exact zero_add _

omit [PyFloat R] [Builtins] in
theorem unreservedSoft (p : Pipeline R) (c : ChatCall) : (p.budgetFor c.unreserved).softBudget =
    max 0 (p.windowTokens - (p.tokenizer.count c.systemText + p.tokenizer.count c.prompt)) := by
  rw [← unreservedFloor]
  rfl

theorem boundedIff {p : Pipeline R} {a : ContextAssembler R} (wired : p.assembler = some a)
    (counts : p.tokenizer.NonNegative) (balanced : p.weights.validate = .ok ()) (sized : a.embedder.Sized) (env : Env)
    (ctx : SecurityContext) (c : ChatCall) (candidates : List (MemoryCandidate R)) :
    p.Bounded env ctx c candidates ↔ p.ReserveHarmless a c candidates := by
  unfold Bounded ReserveHarmless assembleStage
  simp only [wired]
  by_cases exceeds : p.windowTokens < (p.budgetFor c).hardFloor
  · obtain ⟨e, refused, overflow⟩ := assembleRefused a (sourcesOf c candidates) (some p.tokenizer)
      defaultMmrLambda balanced exceeds
    rw [sourcesOf] at refused
    simp [refused, bind, Except.bind, overflow, exceeds]
  · have within : (p.budgetFor c).hardFloor ≤ p.windowTokens := not_lt.mp exceeds
    have reserves : checkHardReserves (p.budgetFor c) = .ok () := if_neg exceeds
    obtain ⟨picks, selected⟩ := a.mmrReturns defaultMmrLambda (blend candidates p.weights) sized
    obtain ⟨out, assembled⟩ := assembleTotal (sourcesOf c candidates) (some p.tokenizer) balanced
      reserves selected
    obtain ⟨picks, survivors, parts⟩ : ∃ picks survivors, AssemblyParts a (p.budgetFor c) (sourcesOf c candidates) p.weights
      p.tokenizer.count defaultMmrLambda picks survivors out := assembleParts assembled
    have stage : out.usedTokens = p.tokenizer.count c.systemText + p.tokenizer.count c.prompt +
        (survivors.map (fun cb => p.tokenizer.count cb.1.content)).sum + 0 := parts.total
    have kept : 0 ≤ (survivors.map (fun cb => p.tokenizer.count cb.1.content)).sum :=
      List.sum_nonneg (List.forall_mem_map.mpr fun cb _ => counts cb.1.content)
    have fits := parts.sameFits (p.budgetFor c).softBudget (le_max_left 0 _) rfl
    have soft := (checkedReserves reserves).2
    rw [sourcesOf] at assembled
    simp only [assembled, bind, Except.bind, pure, Except.pure, exceeds, false_or, stage, unreservedFloor,
      unreservedSoft]
    simp only [TokenBudget.hardFloor, budgetFor] at within soft fits
    constructor
    · intro bounded
      by_cases positive : 0 ≤ c.maxTokens
      · exact .inl positive
      · refine .inr ⟨by omega, ?_⟩
        rw [max_eq_right (by omega)]
        exact parts.fitsSame counts (by simp only [budgetFor]; omega) (by omega) (by omega)
    · rintro (positive | ⟨room, same⟩)
      · omega
      · rw [max_eq_right (by omega)] at same
        have := parts.sameFits _ (by omega) same
        omega

variable [IsStrictOrderedRing R]

omit [Builtins] in
theorem defaultBalanced : (RankWeights.default : RankWeights R).validate = .ok () := by
  have balanced : (RankWeights.default : RankWeights R).total = 1 := by
    norm_num [RankWeights.default, RankWeights.total]
  rw [RankWeights.validate, balanced, sub_self, abs_zero, if_neg (by norm_num)]

theorem reserveBounded (settings : ContextOSSettings) (adapter : Adapter) (digest : BundlePayload R → String) (env : Env)
    (ctx : SecurityContext) (c : ChatCall) (candidates : List (MemoryCandidate R)) :
    (createApp settings adapter digest).pipeline.Bounded env ctx c candidates ↔
      (createApp settings adapter digest).pipeline.ReserveHarmless ⟨hashingEmbeddingProvider embeddingDim⟩ c candidates := by
  have wired : (createApp settings adapter digest).pipeline.assembler = some ⟨hashingEmbeddingProvider embeddingDim⟩ := rfl
  have sized : (hashingEmbeddingProvider embeddingDim : EmbeddingProvider R).Sized :=
    ⟨embeddingDim, hashingEmbeddingLength embeddingDim⟩
  exact boundedIff wired (heuristicNonneg _ rfl) defaultBalanced sized env ctx c candidates

end Pipeline
end Output

def tinySettings : ContextOSSettings := ⟨"default", 1⟩

def tinyPipeline [Builtins] : Pipeline ℚ := (createApp tinySettings (replying "blue" (some "stop")) (fun _ => "cid")).pipeline

def negativeCall : ChatCall := ⟨"colour", none, -1, none⟩

theorem reserveBoundedSample :
    letI := asciiBuiltins [] []
    tinyPipeline.Bounded (envAt 0 "1") (member "acme" "sales") negativeCall [] ↔
      tinyPipeline.ReserveHarmless ⟨hashingEmbeddingProvider embeddingDim⟩ negativeCall [] := by
  let _ := asciiBuiltins [] []
  exact Pipeline.reserveBounded tinySettings (replying "blue" (some "stop")) (fun _ => "cid") _ _ negativeCall []

theorem overflowBypassed :
    letI := asciiBuiltins [] []
    ¬ tinyPipeline.Bounded (envAt 0 "1") (member "acme" "sales") negativeCall [] := by
  let _ := asciiBuiltins [] []
  let stage := tinyPipeline.assembleStage (envAt 0 "1") (member "acme" "sales") negativeCall []
  have exceeded : stage.toOption.any (fun prepared => decide (tinyPipeline.windowTokens < prepared.assembledTokens)) := by
    decide +kernel
  obtain ⟨prepared, assembled, more⟩ := (Option.any_eq_true _ _).mp exceeded
  have ok : tinyPipeline.assembleStage (envAt 0 "1") (member "acme" "sales") negativeCall [] = .ok prepared :=
    toOptionOk.mp assembled
  rw [Pipeline.Bounded, ok]
  exact not_le.mpr (of_decide_eq_true more)

end ContextOS
