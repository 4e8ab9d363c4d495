import ContextOS.EdgeLoading
import ContextOS.Accounting

/-! The order in which candidates arrive. Equal scores are broken by position at the cut
and in the diversity loop, and by id only in the edge loading. A selection with ties broken
in any way is what the code computes for some arrival, so the assembly is the same for
every arrival exactly when all these selections keep the same candidates. -/
namespace ContextOS
open Lib (Dict Ahead aheadAsymm aheadLe Beats beatsAsymm Cut cutOf cutUnique sortAhead maxPerm Ranking rankingImp
  rankingUnique fill fillSublist flooredMarginal)

variable {R : Type} [PyFloat R]

/-! ### Two assemblies -/

def AssembledContext.Places (out : AssembledContext R) (memoryId : String) (position : Nat) : Prop :=
  ∃ d ∈ out.decisions, d.memoryId = memoryId ∧ d.placement = some position

structure SameAssembly (out other : AssembledContext R) : Prop where
  messages : out.messages = other.messages
  kept : ∀ memoryId, out.Keeps memoryId ↔ other.Keeps memoryId
  placements : ∀ memoryId position, out.Places memoryId position ↔ other.Places memoryId position

def SameOutcome : Except PyError (AssembledContext R) → Except PyError (AssembledContext R) → Prop
  | .ok out, .ok other => SameAssembly out other
  | .error e, .error raised => e = raised
  | _, _ => False

def ContextAssembler.OrderFree (a : ContextAssembler R) (budget : TokenBudget) (sources : ContextSources R)
    (weights : RankWeights R) (tokenizer : Option Tokenizer) (lam : R) : Prop :=
  ∀ arrival, arrival.Perm sources.candidates → SameOutcome
    (a.assemble budget { sources with candidates := arrival } weights tokenizer lam)
    (a.assemble budget sources weights tokenizer lam)

section Placements
variable {a : ContextAssembler R} {budget : TokenBudget} {sources : ContextSources R} {weights : RankWeights R}
  {count : String → Int} {lam : R} {scored selected survivors : List (Ranked R)} {out : AssembledContext R}

omit [PyFloat R] in
theorem knapsackUnplaced {soft : Int} {d : CandidateDecision R} (decided : d ∈ (knapsack scored selected soft count).2) :
    d.placement = none := by
  simp only [knapsack, List.mem_append] at decided
  rcases decided with packed | below
  · exact (packReasons count soft 0 selected d packed).1
  · obtain ⟨cb, _, rfl⟩ := List.mem_map.mp below
    rfl

theorem AssemblyParts.placesIff (distinct : DistinctRanked survivors)
    (parts : AssemblyParts a budget sources weights count lam selected survivors out) {memoryId : String} {position : Nat} :
    out.Places memoryId position ↔ ((edgeLoad survivors).map (·.1.memoryId))[position]? = some memoryId := by
  have perm := (edgeLoadPerm survivors).map (·.1.memoryId)
  have once := perm.nodup_iff.mpr distinct
  constructor
  · rintro ⟨d, decided, same, at_⟩
    rw [parts.decisions] at decided
    obtain ⟨old, earlier, rfl⟩ := List.mem_map.mp decided
    by_cases kept : old.kept
    · rw [placePosition _ old kept, ← placeId _ old, same] at at_
      exact (Dict.getZipIdx once).mp at_
    · rw [place, if_neg kept, knapsackUnplaced earlier] at at_
      contradiction
  · intro here
    have inside := perm.mem_iff.mp (List.mem_of_getElem? here)
    rw [← parts.keptIds, parts.decisions, placedKept, List.map_map] at inside
    obtain ⟨old, earlier, same⟩ := List.mem_map.mp inside
    obtain ⟨decided, kept⟩ := List.mem_filter.mp earlier
    refine ⟨place _ old, parts.decisions ▸ List.mem_map_of_mem decided, same, ?_⟩
    rw [placePosition _ old kept, ← placeId _ old, ← (Dict.getZipIdx once).mpr here, ← same]
    rfl

theorem sameSurvivors {arrival : List (MemoryCandidate R)} {others picks : List (Ranked R)} {other : AssembledContext R}
    (distinct : DistinctRanked survivors)
    (parts : AssemblyParts a budget { sources with candidates := arrival } weights count lam selected survivors out)
    (partsOther : AssemblyParts a budget sources weights count lam picks others other) (same : survivors.Perm others) :
    SameAssembly out other := by
  have placed : edgeLoad survivors = edgeLoad others := by
    have sorted := fun xs : List (Ranked R) => List.perm_insertionSort weaker xs
    rw [edgeLoad, edgeLoad, weakerUnique (((sorted survivors).map _).nodup_iff.mpr distinct)
      ((sorted survivors).trans (same.trans (sorted others).symm)) (List.pairwise_insertionSort _ _)
      (List.pairwise_insertionSort _ _)]
  refine ⟨?_, fun memoryId => ?_, fun memoryId position => ?_⟩
  · rw [parts.messages, partsOther.messages, placed]
    rfl
  · rw [parts.keepsIff, partsOther.keepsIff]
    exact (same.map _).mem_iff
  · rw [parts.placesIff distinct, partsOther.placesIff ((same.map _).nodup_iff.mp distinct), placed]

end Placements

/-! ### Ties broken in any way -/

/-- A cut and a selection in which equal scores may fall either way. -/
structure TieRun (a : ContextAssembler R) (lam : R) (scored picks dropped : List (Ranked R)) : Prop where
  cut : Cut (fun x y => y.2 ≤ x.2) mmrTopK scored picks dropped
  order : Ranking (Beats (flooredMarginal lam Prod.snd a.similarity) (fun x y => y.2 ≤ x.2)) [] picks

def TiesAgree (a : ContextAssembler R) (lam : R) (softBudget : Int) (count : String → Int) (scored : List (Ranked R)) : Prop :=
  ∀ picks dropped others rest, TieRun a lam scored picks dropped → TieRun a lam scored others rest →
    (fill (fun cb => count cb.1.content) softBudget 0 picks).Perm (fill (fun cb => count cb.1.content) softBudget 0 others)

section Runs
variable {a : ContextAssembler R} {lam : R} {scored picks dropped selected : List (Ranked R)}

theorem runTies {base : List (Ranked R)} (distinct : DistinctRanked scored) (same : scored.Perm base)
    (ok : a.mmr scored lam = .ok picks) : ∃ dropped, TieRun a lam base picks dropped := by
  obtain ⟨perm, ranking⟩ := ContextAssembler.mmrRanking distinct ok
  have cut := cutOf mmrTopK (sortAhead Prod.snd scored)
    (List.perm_insertionSort (fun a b : Ranked R => b.2 ≤ a.2) scored)
  refine ⟨_, ⟨(perm.append_right _).trans (cut.perm.trans same), ?_, fun x inside y outside => ?_⟩, ?_⟩
  · rw [perm.length_eq, ← same.length_eq]
    exact cut.size
  · exact aheadLe (cut.ahead x (perm.subset inside) y outside)
  · exact rankingImp (fun _ _ _ _ _ _ beats => beats.imp_right fun tie => ⟨tie.1, aheadLe tie.2⟩) ranking

theorem tiesRun (distinct : DistinctRanked scored) (run : TieRun a lam scored picks dropped)
    (ok : a.mmr (picks ++ dropped) lam = .ok selected) : selected = picks := by
  have arrived : DistinctRanked (picks ++ dropped) := (run.cut.perm.map _).nodup_iff.mpr distinct
  obtain ⟨perm, ranking⟩ := ContextAssembler.mmrRanking arrived ok
  have cut : Cut (Ahead Prod.snd (picks ++ dropped)) mmrTopK (picks ++ dropped) picks dropped := by
    refine ⟨.refl _, ?_, fun x inside y outside => ?_⟩
    · rw [run.cut.perm.length_eq]
      exact run.cut.size
    · exact (run.cut.ahead x inside y outside).lt_or_eq.imp_right fun same =>
        ⟨same, (List.singleton_sublist.mpr inside).append (List.singleton_sublist.mpr outside)⟩
  have order : Ranking (Beats (flooredMarginal lam Prod.snd a.similarity) (Ahead Prod.snd (picks ++ dropped))) [] picks := by
    refine rankingImp (fun front x back split y later beats => ?_) run.order
    have before : [x, y].Sublist (picks ++ dropped) := by
      rw [split]
      exact (((List.singleton_sublist.mpr later).cons_cons x).trans (List.sublist_append_right front _)).trans
        (List.sublist_append_left _ dropped)
    exact beats.imp_right fun tie => ⟨tie.1, tie.2.lt_or_eq.imp_right fun same => ⟨same, before⟩⟩
  have asymm : ∀ x y, Ahead Prod.snd (picks ++ dropped) x y → ¬ Ahead Prod.snd (picks ++ dropped) y x :=
    fun x y => aheadAsymm arrived.nodup
  have top := cutUnique (fun x _ y _ _ => asymm x y) arrived.nodup (cutOf mmrTopK
    (sortAhead Prod.snd (picks ++ dropped)) (List.perm_insertionSort _ _)) cut
  refine rankingUnique (fun taken x _ y _ _ => ?_) (perm.trans top) ranking order
  exact beatsAsymm (asymm x y)

theorem distinctScores (different : (scored.map Prod.snd).Nodup) (lam : R) (soft : Int) (count : String → Int) :
    TiesAgree a lam soft count scored := by
  intro picks dropped others rest run other
  have asymm : ∀ x ∈ scored, ∀ y ∈ scored, x ≠ y → y.2 ≤ x.2 → ¬ x.2 ≤ y.2 := fun x inX y inY apart below above =>
    apart (List.inj_on_of_nodup_map different inX inY (le_antisymm above below))
  have same := cutUnique asymm (.of_map _ different) run.cut other.cut
  have inside : picks ⊆ scored := fun x member => run.cut.perm.subset (List.mem_append_left dropped member)
  rw [rankingUnique (fun taken x inX y inY apart => ?_) same run.order other.order]
  exact beatsAsymm (asymm x (inside inX) y (inside inY) apart)

end Runs

/-! ### Arrivals -/

theorem blendPerm {arrival candidates : List (MemoryCandidate R)} (same : arrival.Perm candidates) (w : RankWeights R) :
    (blend arrival w).Perm (blend candidates w) := by
  rw [blend, blend, maxPerm (same.map _)]
  exact same.map _

theorem blendArrived {candidates : List (MemoryCandidate R)} {w : RankWeights R} {ranked : List (Ranked R)}
    (same : ranked.Perm (blend candidates w)) : blend (ranked.map Prod.fst) w = ranked := by
  have arrived : (ranked.map Prod.fst).Perm candidates := blendFirst candidates w ▸ same.map Prod.fst
  rw [blend, maxPerm (arrived.map _), List.map_map]
  have scores : ∀ cb ∈ ranked, (fun c => (c, blendOne w (((candidates.map (fun c => c.bm25Score.getD 0)).max?).getD 0) c))
      cb.1 = id cb := fun cb member => by
    obtain ⟨c, _, rfl⟩ := List.mem_map.mp (same.subset member)
    rfl
  exact (List.map_congr_left scores).trans (List.map_id ranked)

omit [PyFloat R] in
theorem sameMembers {scored xs ys : List (Ranked R)} (distinct : DistinctRanked scored) (insideX : xs ⊆ scored)
    (insideY : ys ⊆ scored) (onceX : DistinctRanked xs) (onceY : DistinctRanked ys)
    (same : ∀ memoryId, memoryId ∈ xs.map (·.1.memoryId) ↔ memoryId ∈ ys.map (·.1.memoryId)) : xs.Perm ys := by
  have moved : ∀ {us vs : List (Ranked R)}, us ⊆ scored → vs ⊆ scored → us.map (·.1.memoryId) ⊆ vs.map (·.1.memoryId) →
      us ⊆ vs := fun insideU insideV ids cb member => by
    obtain ⟨found, there, equal⟩ := List.mem_map.mp (ids (List.mem_map_of_mem member))
    exact List.inj_on_of_nodup_map distinct (insideV there) (insideU member) equal ▸ there
  refine (List.perm_ext_iff_of_nodup onceX.nodup onceY.nodup).mpr fun cb => ⟨fun member => ?_, fun member => ?_⟩
  · exact moved insideX insideY (fun memoryId => (same memoryId).mp) member
  · exact moved insideY insideX (fun memoryId => (same memoryId).mpr) member

variable {a : ContextAssembler R} {budget : TokenBudget} {sources : ContextSources R} {weights : RankWeights R}
  {tokenizer : Option Tokenizer} {lam : R}

theorem TieRun.arrives {candidates : List (MemoryCandidate R)} {w : RankWeights R} {picks dropped : List (Ranked R)}
    (run : TieRun a lam (blend candidates w) picks dropped) : ((picks ++ dropped).map Prod.fst).Perm candidates := by
  have moved := run.cut.perm.map Prod.fst
  rwa [blendFirst] at moved

theorem TieRun.filled {scored picks dropped : List (Ranked R)} (distinct : DistinctRanked scored)
    (run : TieRun a lam scored picks dropped) (count : String → Int) (soft : Int) :
    fill (fun cb => count cb.1.content) soft 0 picks ⊆ scored ∧
      DistinctRanked (fill (fun cb => count cb.1.content) soft 0 picks) := by
  have sub := fillSublist (fun cb : Ranked R => count cb.1.content) soft 0 picks
  have all : DistinctRanked (picks ++ dropped) := (run.cut.perm.map _).nodup_iff.mpr distinct
  exact ⟨fun cb member => run.cut.perm.subset (List.mem_append_left dropped (sub.subset member)),
    all.sublist ((sub.trans (List.sublist_append_left picks dropped)).map _)⟩

variable (tokenizer) in
theorem assembledRun (distinct : (sources.candidates.map (·.memoryId)).Nodup) (sized : a.embedder.Sized)
    (balanced : weights.validate = .ok ()) (reserves : checkHardReserves budget = .ok ()) {picks dropped : List (Ranked R)}
    (run : TieRun a lam (blend sources.candidates weights) picks dropped) : ∃ out, a.assemble budget
      { sources with candidates := (picks ++ dropped).map Prod.fst } weights tokenizer lam = .ok out ∧ ∀ memoryId,
        out.Keeps memoryId ↔ memoryId ∈
          (fill (fun cb => ContextAssembler.countWith tokenizer cb.1.content) budget.softBudget 0 picks).map (·.1.memoryId) := by
  have arrived := blendArrived run.cut.perm
  obtain ⟨selected, chosen⟩ := a.mmrReturns lam (picks ++ dropped) sized
  have same := tiesRun (blendDistinct distinct weights) run chosen
  rw [← arrived] at chosen
  obtain ⟨out, assembled⟩ := assembleTotal { sources with candidates := (picks ++ dropped).map Prod.fst } tokenizer
    balanced reserves chosen
  obtain ⟨selected, survivors, parts⟩ := assembleParts assembled
  cases Except.ok.inj (chosen.symm.trans parts.chosen)
  refine ⟨out, assembled, fun memoryId => ?_⟩
  rw [parts.keepsIff, parts.packed, same]

theorem orderFreeIff (distinct : (sources.candidates.map (·.memoryId)).Nodup) (sized : a.embedder.Sized) :
    a.OrderFree budget sources weights tokenizer lam ↔ (weights.validate = .ok () → checkHardReserves budget = .ok () →
      TiesAgree a lam budget.softBudget (ContextAssembler.countWith tokenizer) (blend sources.candidates weights)) := by
  have scoredOnce := blendDistinct distinct weights
  constructor
  · intro free balanced reserves picks dropped others rest run other
    obtain ⟨base, chosen⟩ := a.mmrReturns lam (blend sources.candidates weights) sized
    obtain ⟨out, assembled⟩ := assembleTotal sources tokenizer balanced reserves chosen
    obtain ⟨first, okFirst, keepsFirst⟩ := assembledRun tokenizer distinct sized balanced reserves run
    obtain ⟨second, okSecond, keepsSecond⟩ := assembledRun tokenizer distinct sized balanced reserves other
    have one := free _ run.arrives
    have two := free _ other.arrives
    rw [okFirst, assembled] at one
    rw [okSecond, assembled] at two
    obtain ⟨insideFirst, onceFirst⟩ := run.filled scoredOnce (ContextAssembler.countWith tokenizer) budget.softBudget
    obtain ⟨insideSecond, onceSecond⟩ := other.filled scoredOnce (ContextAssembler.countWith tokenizer) budget.softBudget
    refine sameMembers scoredOnce insideFirst insideSecond onceFirst onceSecond fun memoryId => ?_
    rw [← keepsFirst, ← keepsSecond, one.kept, two.kept]
  · intro agree arrival same
    have arrivalOnce : DistinctRanked (blend arrival weights) := blendDistinct ((same.map _).nodup_iff.mpr distinct) weights
    cases balanced : weights.validate with
    | error e => simp only [ContextAssembler.assemble, balanced, bind, Except.bind, SameOutcome]
    | ok _ =>
      cases reserves : checkHardReserves budget with
      | error e => simp only [ContextAssembler.assemble, balanced, reserves, bind, Except.bind, SameOutcome]
      | ok _ =>
        obtain ⟨_, chosen⟩ := a.mmrReturns lam (blend arrival weights) sized
        obtain ⟨_, chosenBase⟩ := a.mmrReturns lam (blend sources.candidates weights) sized
        obtain ⟨out, assembled⟩ := assembleTotal { sources with candidates := arrival } tokenizer balanced
          reserves chosen
        obtain ⟨base, assembledBase⟩ := assembleTotal sources tokenizer balanced reserves chosenBase
        obtain ⟨picks, survivors, parts⟩ := assembleParts assembled
        obtain ⟨others, survivorsBase, partsBase⟩ := assembleParts assembledBase
        obtain ⟨_, run⟩ := runTies arrivalOnce (blendPerm same weights) parts.chosen
        obtain ⟨_, other⟩ := runTies scoredOnce (.refl _) partsBase.chosen
        have agreed := agree balanced reserves _ _ _ _ run other
        rw [← parts.packed, ← partsBase.packed] at agreed
        rw [assembled, assembledBase]
        exact sameSurvivors (parts.packed ▸ (run.filled scoredOnce _ _).2) parts partsBase agreed

omit [PyFloat R] in
theorem sameOutcomeMessages {x y : Except PyError (AssembledContext R)} (same : SameOutcome x y) :
    x.toOption.map (·.messages) = y.toOption.map (·.messages) := by
  cases x with
  | error e =>
    cases y with
    | error raised => rfl
    | ok other => contradiction
  | ok out =>
    cases y with
    | error raised => contradiction
    | ok other => exact congrArg some same.messages

/-- Room for one token, which either of the two needs. -/
def oneTokenBudget : TokenBudget := ⟨2, 0, 0, 1⟩

def eastWest : List (MemoryCandidate ℚ) := [sampleCandidate "memory-1" "east" (1 / 2), sampleCandidate "memory-2" "west" (1 / 2)]

def eastWestSources : ContextSources ℚ := ⟨"", "way?", eastWest, []⟩

theorem orderFreeSample : (ContextAssembler.mk compass).OrderFree oneTokenBudget eastWestSources RankWeights.default
      (some HeuristicTokenizer.default.toTokenizer) 0.7 ↔
    ((RankWeights.default : RankWeights ℚ).validate = .ok () → checkHardReserves oneTokenBudget = .ok () →
      TiesAgree (.mk compass) 0.7 oneTokenBudget.softBudget HeuristicTokenizer.default.count
        (blend eastWest RankWeights.default)) :=
  have distinct : (eastWestSources.candidates.map (·.memoryId)).Nodup := by decide
  orderFreeIff distinct compassSized

theorem orderMatters : (eastWest.map (·.memoryId)).Nodup ∧ compass.Sized ∧
    ¬ (ContextAssembler.mk compass).OrderFree oneTokenBudget eastWestSources RankWeights.default
      (some HeuristicTokenizer.default.toTokenizer) 0.7 := by
  refine ⟨by decide, compassSized, fun free => ?_⟩
  have same := sameOutcomeMessages (free eastWest.reverse (List.reverse_perm _))
  revert same
  decide +kernel

end ContextOS
