import ContextOS.Selection

/-! The books of an assembly. Every candidate is decided once, the kept ones fit the soft
budget and nothing refused for want of room would fit in what is left, and the decisions,
the placements, the rendered text and the token count agree on one list of kept ones. -/
namespace ContextOS
open Lib (Dict bindOk pureOk fill fillFits fillSkips fillSublist)

variable {R : Type}

section Packing
variable (count : String → Int) (soft used : Int) (selected : List (Ranked R))

theorem packIds : (pack count soft used selected).2.map (·.memoryId) = selected.map (·.1.memoryId) := by
  induction selected generalizing used with
  | nil => rfl
  | cons cb rest ih =>
    unfold pack
    split <;> exact congrArg _ (ih _)

theorem packKeptIds : ((pack count soft used selected).2.filter (·.kept)).map (·.memoryId) =
    (pack count soft used selected).1.map (·.1.memoryId) := by
  induction selected generalizing used with
  | nil => rfl
  | cons cb rest ih =>
    unfold pack
    split
    · simpa only [List.filter_cons, if_true, List.map_cons] using congrArg _ (ih _)
    · simpa only [List.filter_cons, Bool.false_eq_true, if_false] using ih _

theorem packReasons : ∀ d ∈ (pack count soft used selected).2,
    d.placement = none ∧ d.reason = if d.kept then "packed" else "evicted: soft budget full" := by
  induction selected generalizing used with
  | nil => simp [pack]
  | cons cb rest ih =>
    unfold pack
    split
    · exact List.forall_mem_cons.mpr ⟨⟨rfl, rfl⟩, ih _⟩
    · exact List.forall_mem_cons.mpr ⟨⟨rfl, rfl⟩, ih _⟩

variable {count soft used selected}

theorem packEvicted (distinct : DistinctRanked selected) {d : CandidateDecision R}
    (decided : d ∈ (pack count soft used selected).2) (evicted : d.kept = false) :
    d.memoryId ∈ selected.map (·.1.memoryId) ∧ d.memoryId ∉ (pack count soft used selected).1.map (·.1.memoryId) := by
  have ids : ((pack count soft used selected).2.map (·.memoryId)).Nodup := by
    rw [packIds]
    exact distinct
  refine ⟨packIds count soft used selected ▸ List.mem_map_of_mem decided, fun kept => ?_⟩
  rw [← packKeptIds] at kept
  obtain ⟨other, inside, same⟩ := List.mem_map.mp kept
  obtain ⟨decidedOther, keptOther⟩ := List.mem_filter.mp inside
  cases List.inj_on_of_nodup_map ids decidedOther decided same
  rw [evicted] at keptOther
  contradiction

end Packing

/-! ### The decisions of the knapsack -/

section Knapsack
variable {scored selected : List (Ranked R)} {soft : Int} {count : String → Int}

theorem mentionedOnce {scored selected : List (Ranked R)} (distinct : DistinctRanked scored) (inside : selected ⊆ scored)
    (once : DistinctRanked selected) (soft : Int) (count : String → Int) :
    ((knapsack scored selected soft count).2.map (·.memoryId)).Perm (scored.map (·.1.memoryId)) := by
  let selectedIds := selected.map (·.1.memoryId)
  have ids : (knapsack scored selected soft count).2.map (·.memoryId) =
      selectedIds ++ (scored.map (·.1.memoryId)).filter (· ∉ selectedIds) := by
    simp only [knapsack, List.map_append, packIds, List.map_map, List.filter_map]
    rfl
  rw [ids]
  have front : ((scored.map (·.1.memoryId)).filter (· ∈ selectedIds)).Perm selectedIds := by
    refine (List.perm_ext_iff_of_nodup (distinct.filter _) once).mpr fun id => ?_
    rw [List.mem_filter, decide_eq_true_eq, and_iff_right_iff_imp]
    exact fun chosen => List.map_subset _ inside chosen
  refine (front.symm.append_right _).trans ?_
  simpa using List.filter_append_perm (· ∈ selectedIds) (scored.map (·.1.memoryId))

theorem knapsackKeptIds (scored selected : List (Ranked R)) (soft : Int) (count : String → Int) :
    ((knapsack scored selected soft count).2.filter (·.kept)).map (·.memoryId) =
      (fill (fun cb => count cb.1.content) soft 0 selected).map (·.1.memoryId) := by
  have below : ∀ xs : List (Ranked R), ((xs.map (fun cb => (⟨cb.1.memoryId, cb.2, false, "evicted: below MMR top-K", none⟩ :
      CandidateDecision R))).filter (·.kept)) = [] := fun xs => by
    simp [List.filter_map, Function.comp_def]
  rw [← packSurvivors, ← packKeptIds]
  simp only [knapsack, List.filter_append, below, List.append_nil]

theorem knapsackFull {d : CandidateDecision R} (decided : d ∈ (knapsack scored selected soft count).2)
    (reason : d.reason = "evicted: soft budget full") : d ∈ (pack count soft 0 selected).2 ∧ d.kept = false := by
  simp only [knapsack, List.mem_append] at decided
  rcases decided with packed | below
  · refine ⟨packed, ?_⟩
    have given := (packReasons count soft 0 selected d packed).2
    rw [reason] at given
    cases verdict : d.kept with
    | false => rfl
    | true => simp [verdict] at given
  · obtain ⟨cb, _, rfl⟩ := List.mem_map.mp below
    simp at reason

/-- Whoever was refused for want of room would not fit in what is left at the end. -/
theorem knapsackNoRoom (nonneg : ∀ text, 0 ≤ count text) (distinct : DistinctRanked selected) {d : CandidateDecision R}
    (decided : d ∈ (knapsack scored selected soft count).2) (reason : d.reason = "evicted: soft budget full") :
    ∃ cb ∈ selected, cb.1.memoryId = d.memoryId ∧
      soft < ((fill (fun cb => count cb.1.content) soft 0 selected).map (fun cb => count cb.1.content)).sum +
        count cb.1.content := by
  obtain ⟨packed, evicted⟩ := knapsackFull decided reason
  obtain ⟨inside, outside⟩ := packEvicted distinct packed evicted
  obtain ⟨cb, member, same⟩ := List.mem_map.mp inside
  rw [packSurvivors] at outside
  refine ⟨cb, member, same, ?_⟩
  have weights : ∀ cb : Ranked R, 0 ≤ count cb.1.content := fun cb => nonneg cb.1.content
  rcases fillSkips soft weights 0 member with kept | full
  · exact absurd (List.mem_map.mpr ⟨cb, kept, same⟩) outside
  · simpa using full

end Knapsack

section Placing
variable (position : Dict String Nat) (d : CandidateDecision R)

def place : CandidateDecision R := if d.kept then { d with placement := position.get d.memoryId } else d

@[simp] theorem placeId : (place position d).memoryId = d.memoryId := by
  unfold place
  split <;> rfl

@[simp] theorem placeKept : (place position d).kept = d.kept := by
  unfold place
  split <;> rfl

@[simp] theorem placeReason : (place position d).reason = d.reason := by
  unfold place
  split <;> rfl

theorem placePosition (kept : d.kept) : (place position d).placement = position.get d.memoryId := by
  rw [place, if_pos kept]

theorem placedKept (decisions : List (CandidateDecision R)) :
    (decisions.map (place position)).filter (·.kept) = (decisions.filter (·.kept)).map (place position) := by
  rw [List.filter_map]
  simp only [Function.comp_def, placeKept]

theorem placedPlacements (decisions : List (CandidateDecision R)) : ((decisions.map (place position)).filter (·.kept)).map
    (·.placement) = ((decisions.filter (·.kept)).map (·.memoryId)).map position.get := by
  rw [placedKept, List.map_map, List.map_map]
  refine List.map_congr_left fun d member => ?_
  exact placePosition position d (List.mem_filter.mp member).2

end Placing

variable [PyFloat R]

/-! ### The parts of an assembly -/

structure AssemblyParts (a : ContextAssembler R) (budget : TokenBudget) (sources : ContextSources R)
    (weights : RankWeights R) (count : String → Int) (lam : R) (selected survivors : List (Ranked R))
    (out : AssembledContext R) : Prop where
  balanced : weights.validate = .ok ()
  reserves : checkHardReserves budget = .ok ()
  chosen : a.mmr (blend sources.candidates weights) lam = .ok selected
  packed : survivors = fill (fun cb => count cb.1.content) budget.softBudget 0 selected
  decisions : out.decisions = (knapsack (blend sources.candidates weights) selected budget.softBudget count).2.map
    (place (Dict.ofList ((edgeLoad survivors).map (·.1.memoryId)).zipIdx))
  messages : out.messages = render sources (edgeLoad survivors)
  used : out.usedTokens = count sources.systemPrompt + count sources.latestUserTurn +
    ((edgeLoad survivors).map (fun cb => count cb.1.content)).sum + (sources.history.map (fun t => count t.content)).sum

variable {a : ContextAssembler R} {budget : TokenBudget} {sources : ContextSources R} {weights : RankWeights R}
  {tokenizer : Option Tokenizer} {lam : R} {out : AssembledContext R}

theorem assembleParts (ok : a.assemble budget sources weights tokenizer lam = .ok out) :
    ∃ selected survivors,
      AssemblyParts a budget sources weights (ContextAssembler.countWith tokenizer) lam selected survivors out := by
  obtain ⟨_, balanced, ok⟩ := bindOk.mp ok
  obtain ⟨_, reserves, ok⟩ := bindOk.mp ok
  obtain ⟨p, packing, ok⟩ := bindOk.mp ok
  obtain ⟨selected, chosen, packing⟩ := bindOk.mp packing
  cases pureOk.mp packing
  cases pureOk.mp ok
  exact ⟨selected, _, balanced, reserves, chosen, packSurvivors _ _ 0 selected, rfl, rfl, rfl⟩

variable (sources tokenizer) in
theorem assembleTotal (balanced : weights.validate = .ok ()) (reserves : checkHardReserves budget = .ok ())
    {selected : List (Ranked R)} (chosen : a.mmr (blend sources.candidates weights) lam = .ok selected) :
    ∃ out, a.assemble budget sources weights tokenizer lam = .ok out := by
  simp only [ContextAssembler.assemble, ContextAssembler.packing, balanced, reserves, chosen, bind, Except.bind, pure,
    Except.pure]
  exact ⟨_, rfl⟩

theorem blendFirst (candidates : List (MemoryCandidate R)) (w : RankWeights R) :
    (blend candidates w).map Prod.fst = candidates := by
  rw [blend, List.map_map]
  exact List.map_id candidates

theorem blendDistinct {candidates : List (MemoryCandidate R)} (distinct : (candidates.map (·.memoryId)).Nodup)
    (w : RankWeights R) : DistinctRanked (blend candidates w) := by
  have ids : (blend candidates w).map (·.1.memoryId) = ((blend candidates w).map Prod.fst).map (·.memoryId) :=
    (List.map_map ..).symm
  rw [DistinctRanked, ids, blendFirst]
  exact distinct

def AssembledContext.Keeps (out : AssembledContext R) (memoryId : String) : Prop :=
  ∃ d ∈ out.decisions, d.kept ∧ d.memoryId = memoryId

section Kept
variable {count : String → Int} {selected survivors : List (Ranked R)}

theorem AssemblyParts.keptIds (parts : AssemblyParts a budget sources weights count lam selected survivors out) :
    (out.decisions.filter (·.kept)).map (·.memoryId) = survivors.map (·.1.memoryId) := by
  rw [parts.decisions, placedKept, List.map_map, parts.packed, ← knapsackKeptIds (blend sources.candidates weights)]
  simp only [Function.comp_def, placeId]

theorem AssemblyParts.keepsIff (parts : AssemblyParts a budget sources weights count lam selected survivors out)
    {memoryId : String} :
    out.Keeps memoryId ↔ memoryId ∈ survivors.map (·.1.memoryId) := by
  rw [← parts.keptIds]
  simp only [AssembledContext.Keeps, List.mem_map, List.mem_filter, and_assoc]

end Kept

/-! ### The accounts -/

structure Accounting (soft : Int) (sources : ContextSources R) (count : String → Int) (out : AssembledContext R)
    (placed : List (MemoryCandidate R)) : Prop where
  mentioned : (out.decisions.map (·.memoryId)).Perm (sources.candidates.map (·.memoryId))
  given : ∀ c ∈ placed, c ∈ sources.candidates
  kept : ((out.decisions.filter (·.kept)).map (·.memoryId)).Perm (placed.map (·.memoryId))
  fits : (placed.map (fun c => count c.content)).sum ≤ soft
  full : ∀ d ∈ out.decisions, d.reason = "evicted: soft budget full" → ∀ c ∈ sources.candidates, c.memoryId = d.memoryId →
    soft < (placed.map (fun c => count c.content)).sum + count c.content
  placements : ((out.decisions.filter (·.kept)).map (·.placement)).Perm ((List.range placed.length).map some)
  positions : ∀ d ∈ out.decisions, d.kept → ∀ i, d.placement = some i → (placed.map (·.memoryId))[i]? = some d.memoryId
  messages : out.messages = (if sources.systemPrompt.isEmpty then [] else [⟨.system, sources.systemPrompt⟩]) ++
    (if placed.isEmpty then []
      else [⟨.system, memoryHeader ++ "\n".intercalate (placed.map (fun c => "- " ++ c.content))⟩]) ++
    sources.history.map (fun t => ⟨t.role, t.content⟩) ++ [⟨.user, sources.latestUserTurn⟩]
  used : out.usedTokens = count sources.systemPrompt + count sources.latestUserTurn +
    (placed.map (fun c => count c.content)).sum + (sources.history.map (fun t => count t.content)).sum

theorem AssemblyParts.ids {count : String → Int} {selected survivors : List (Ranked R)}
    (distinct : (sources.candidates.map (·.memoryId)).Nodup)
    (parts : AssemblyParts a budget sources weights count lam selected survivors out) :
    DistinctRanked selected ∧ selected ⊆ blend sources.candidates weights ∧ survivors.Sublist selected := by
  have scored := blendDistinct distinct weights
  obtain ⟨perm, _⟩ := ContextAssembler.mmrRanking scored parts.chosen
  refine ⟨(perm.map _).nodup_iff.mpr (topRankedDistinct scored), fun cb member => ?_, ?_⟩
  · exact topRankedSubset _ (perm.subset member)
  · rw [parts.packed]
    exact fillSublist _ _ _ _

theorem blendMember {candidates : List (MemoryCandidate R)} {w : RankWeights R} {cb : Ranked R}
    (member : cb ∈ blend candidates w) :
    cb.1 ∈ candidates := by
  rw [← blendFirst candidates w]
  exact List.mem_map_of_mem member

theorem accounts {count : String → Int} {selected survivors : List (Ranked R)} (nonneg : ∀ text, 0 ≤ count text)
    (distinct : (sources.candidates.map (·.memoryId)).Nodup)
    (parts : AssemblyParts a budget sources weights count lam selected survivors out) :
    Accounting budget.softBudget sources count out ((edgeLoad survivors).map Prod.fst) := by
  obtain ⟨once, inside, sub⟩ := parts.ids distinct
  have perm := edgeLoadPerm survivors
  have placedOnce : ((edgeLoad survivors).map (·.1.memoryId)).Nodup :=
    (perm.map _).nodup_iff.mpr ((once.sublist (sub.map _)))
  have ids : ((edgeLoad survivors).map Prod.fst).map (·.memoryId) = (edgeLoad survivors).map (·.1.memoryId) := List.map_map ..
  have counts : ((edgeLoad survivors).map Prod.fst).map (fun c => count c.content) =
      (edgeLoad survivors).map (fun cb => count cb.1.content) := List.map_map ..
  have keptIds := knapsackKeptIds (blend sources.candidates weights) selected budget.softBudget count
  rw [← parts.packed] at keptIds
  have total : (((edgeLoad survivors).map Prod.fst).map (fun c => count c.content)).sum =
      (survivors.map (fun cb => count cb.1.content)).sum := by rw [counts, (perm.map _).sum_eq]
  refine ⟨?_, fun c member => ?_, ?_, ?_, fun d decided reason c given same => ?_, ?_, fun d decided kept i at_ => ?_, ?_, ?_⟩
  · rw [parts.decisions, List.map_map]
    simp only [Function.comp_def, placeId]
    have scoredIds : (blend sources.candidates weights).map (·.1.memoryId) = sources.candidates.map (·.memoryId) := by
      rw [← blendFirst sources.candidates weights, List.map_map, blendFirst]
      rfl
    rw [← scoredIds]
    exact mentionedOnce (blendDistinct distinct weights) inside once budget.softBudget count
  · obtain ⟨cb, placed, rfl⟩ := List.mem_map.mp member
    exact blendMember (inside (sub.subset (perm.subset placed)))
  · rw [ids, parts.keptIds]
    exact (perm.map _).symm
  · rw [total, parts.packed]
    simpa using fillFits (fun cb : Ranked R => count cb.1.content) budget.softBudget (le_max_left 0 _) selected
  · rw [parts.decisions] at decided
    obtain ⟨old, earlier, rfl⟩ := List.mem_map.mp decided
    rw [placeReason] at reason
    obtain ⟨cb, member, sameId, full⟩ := knapsackNoRoom nonneg once earlier reason
    have cand : cb.1 = c := List.inj_on_of_nodup_map distinct (blendMember (inside member)) given
      (sameId.trans ((placeId _ old).symm.trans same.symm))
    rw [total, parts.packed, ← cand]
    exact full
  · rw [parts.decisions, placedPlacements, keptIds, List.length_map]
    have positions := Dict.getZipIdxMap placedOnce
    rw [List.length_map] at positions
    rw [← positions]
    exact (perm.map _).symm.map _
  · rw [ids]
    rw [parts.decisions] at decided
    obtain ⟨old, earlier, rfl⟩ := List.mem_map.mp decided
    rw [placeKept] at kept
    rw [placePosition _ old kept] at at_
    rw [placeId]
    exact (Dict.getZipIdx placedOnce).mp at_
  · rw [parts.messages]
    simp only [render, memoryMessage, List.map_map, List.isEmpty_map, Function.comp_def]
  · rw [parts.used, counts]

theorem accounted (a : ContextAssembler R) (budget : TokenBudget) {sources : ContextSources R} (weights : RankWeights R)
    {tokenizer : Option Tokenizer} (lam : R) (distinct : (sources.candidates.map (·.memoryId)).Nodup)
    (nonneg : ∀ t ∈ tokenizer, t.NonNegative) :
    (∀ out, a.assemble budget sources weights tokenizer lam = .ok out →
      ∃ placed, Accounting budget.softBudget sources (ContextAssembler.countWith tokenizer) out placed) ∧
    (weights.validate = .ok () → checkHardReserves budget = .ok () → a.embedder.Sized →
      ∃ out, a.assemble budget sources weights tokenizer lam = .ok out) := by
  constructor
  · intro out ok
    obtain ⟨selected, survivors, parts⟩ := assembleParts ok
    exact ⟨_, accounts (countWithNonneg nonneg) distinct parts⟩
  · intro balanced reserves sized
    obtain ⟨selected, chosen⟩ := a.mmrReturns lam (blend sources.candidates weights) sized
    exact assembleTotal _ _ balanced reserves chosen

def regionBudget : TokenBudget := ⟨2000, 256, 10, 10⟩

def regionSources : ContextSources ℚ :=
  ⟨"You are helpful.", "which region is prod in?", [sampleCandidate "memory-1" "user's prod region is eu-west-1" (9 / 10)], []⟩

def tightBudget : TokenBudget := ⟨288, 256, 10, 10⟩

def tightSources : ContextSources ℚ :=
  ⟨"You are helpful.", "which region is prod in?",
    [sampleCandidate "memory-1" "user's prod region is eu-west-1" (9 / 10), sampleCandidate "memory-2" "north" (1 / 2),
     sampleCandidate "memory-3" "user's staging region is us-east-2" (7 / 10)],
    [⟨.user, "hello"⟩, ⟨.assistant, "hello, how can I help?"⟩]⟩

/-- One memory has no room beside the others. -/
theorem accountedSample : ∃ out placed, (ContextAssembler.mk compass).assemble tightBudget tightSources RankWeights.default
      (some HeuristicTokenizer.default.toTokenizer) 0.7 = .ok out ∧
    Accounting tightBudget.softBudget tightSources HeuristicTokenizer.default.count out placed := by
  have distinct : (tightSources.candidates.map (·.memoryId)).Nodup := by decide
  obtain ⟨every, returns⟩ := accounted (.mk compass) tightBudget RankWeights.default 0.7 distinct heuristicNonneg
  obtain ⟨out, ok⟩ := returns (by decide +kernel) (by decide) compassSized
  obtain ⟨placed, books⟩ := every out ok
  exact ⟨out, placed, ok, books⟩

end ContextOS
