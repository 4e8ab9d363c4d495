import ContextOS.Accounting

/-! Raising a signal of a candidate that is kept. It stays ahead of everything it was ahead
of, so it is in the cut again; the diversity loop takes it no later, after the same picks
as before; and there the packing has no less room for it. -/
namespace ContextOS
open Lib (aheadAsymm aheadRaised beatsAsymm cutOf cutUnique cutRaised mapUpdate raisedEarlier sortAhead fillEarlier
  flooredMarginal nearest toOptionOk)

variable {R : Type} [PyFloat R]

/-! ### The raised score -/

structure RaisedSignal (c raised : MemoryCandidate R) : Prop where
  same : raised = { c with
    vectorScore := raised.vectorScore, recencyFactor := raised.recencyFactor, importance := raised.importance }
  vector : c.vectorScore.getD 0 ≤ raised.vectorScore.getD 0
  recency : c.recencyFactor ≤ raised.recencyFactor
  importance : c.importance ≤ raised.importance

structure RankWeights.NonNegative (w : RankWeights R) : Prop where
  vector : 0 ≤ w.vector
  lexical : 0 ≤ w.lexical
  recency : 0 ≤ w.recency
  importance : 0 ≤ w.importance
  source : 0 ≤ w.source

section Score
variable {c raised : MemoryCandidate R} {w : RankWeights R}

theorem RaisedSignal.memoryId (signal : RaisedSignal c raised) : raised.memoryId = c.memoryId := by rw [signal.same]
theorem RaisedSignal.content (signal : RaisedSignal c raised) : raised.content = c.content := by rw [signal.same]
theorem RaisedSignal.bm25Score (signal : RaisedSignal c raised) : raised.bm25Score = c.bm25Score := by rw [signal.same]

theorem blendSplit (signal : RaisedSignal c raised) (front back : List (MemoryCandidate R)) (w : RankWeights R) :
    ∃ maxBm early late, blend (front ++ c :: back) w = early ++ (c, blendOne w maxBm c) :: late ∧
      blend (front ++ raised :: back) w = early ++ (raised, blendOne w maxBm raised) :: late := by
  let maxBm := (((front ++ c :: back).map (fun c => c.bm25Score.getD 0)).max?).getD 0
  refine ⟨maxBm, front.map (fun c => (c, blendOne w maxBm c)), back.map (fun c => (c, blendOne w maxBm c)), ?_, ?_⟩
  · rw [blend, List.map_append, List.map_cons]
  · have lexical : (front ++ raised :: back).map (fun c => c.bm25Score.getD 0) =
        (front ++ c :: back).map (fun c => c.bm25Score.getD 0) := by simp [signal.bm25Score]
    rw [blend, lexical, List.map_append, List.map_cons]

variable [IsStrictOrderedRing R]

theorem sourcePriorRaised (higher : c.importance ≤ raised.importance) : (sourcePrior c : R) ≤ sourcePrior raised := by
  unfold sourcePrior
  split
  · rename_i pinned
    rw [if_pos (pinned.trans higher)]
  · split
    · norm_num
    · exact le_refl _

theorem blendOneRaised (signal : RaisedSignal c raised) (nonneg : w.NonNegative) (maxBm : R) :
    blendOne w maxBm c ≤ blendOne w maxBm raised := by
  have vector := mul_le_mul_of_nonneg_left signal.vector nonneg.vector
  have recency := mul_le_mul_of_nonneg_left signal.recency nonneg.recency
  have importance := mul_le_mul_of_nonneg_left signal.importance nonneg.importance
  have source := mul_le_mul_of_nonneg_left (sourcePriorRaised signal.importance) nonneg.source
  simp only [blendOne, signal.bm25Score]
  linarith

end Score

/-! ### The selection -/

section Selection
variable {a : ContextAssembler R} {lam : R} {scored others : List (Ranked R)} {x raised : Ranked R}

omit [PyFloat R] in
theorem updateKeeps [DecidableEq R] {β : Type} (f : MemoryCandidate R → β) (same : f raised.1 = f x.1) (y : Ranked R) :
    f (Function.update id x raised y).1 = f y.1 := by
  by_cases here : y = x
  · rw [here, Function.update_self, same]
  · rw [Function.update_of_ne here, id]

theorem raisedDistinct (distinct : DistinctRanked scored) (sameId : raised.1.memoryId = x.1.memoryId) :
    DistinctRanked (scored.map (Function.update id x raised)) := by
  rw [DistinctRanked, List.map_map]
  simpa only [DistinctRanked, Function.comp_def, updateKeeps (·.memoryId) sameId] using distinct

theorem topRaised (distinct : DistinctRanked scored) (sameId : raised.1.memoryId = x.1.memoryId) (higher : x.2 ≤ raised.2)
    (inside : x ∈ topRanked scored) : (topRanked (scored.map (Function.update id x raised))).Perm
      ((topRanked scored).map (Function.update id x raised)) := by
  have cut := fun all : List (Ranked R) => cutOf mmrTopK (sortAhead Prod.snd all)
    (List.perm_insertionSort (fun a b : Ranked R => b.2 ≤ a.2) all)
  have nodup := ((List.perm_insertionSort (fun a b : Ranked R => b.2 ≤ a.2) scored).nodup_iff.mpr distinct.nodup)
  rw [← List.take_append_drop mmrTopK (scored.insertionSort _)] at nodup
  have outside : x ∉ (scored.insertionSort (fun a b : Ranked R => b.2 ≤ a.2)).drop mmrTopK := fun dropped =>
    (List.nodup_append.mp nodup).2.2 x inside x dropped rfl
  have apart := (raisedDistinct distinct sameId).nodup
  exact cutUnique (fun _ _ _ _ _ => aheadAsymm apart) apart (cut _) (cutRaised higher outside (cut scored))

variable [IsStrictOrderedRing R]

theorem marginalRaised (positive : 0 ≤ lam) (sameContent : raised.1.content = x.1.content) (higher : x.2 ≤ raised.2)
    (taken : List (Ranked R)) :
    flooredMarginal lam Prod.snd a.similarity taken x ≤ flooredMarginal lam Prod.snd a.similarity taken raised := by
  have near : a.similarity raised = a.similarity x := funext fun s => by
    simp only [ContextAssembler.similarity, similarityOf, sameContent]
  rw [flooredMarginal, flooredMarginal, nearest, nearest, near]
  exact sub_le_sub_right (mul_le_mul_of_nonneg_left higher positive) _

theorem selectedEarlier {front later : List (Ranked R)} (distinct : DistinctRanked scored)
    (sameId : raised.1.memoryId = x.1.memoryId) (sameContent : raised.1.content = x.1.content) (higher : x.2 ≤ raised.2)
    (positive : 0 ≤ lam) (ok : a.mmr scored lam = .ok (front ++ x :: later))
    (other : a.mmr (scored.map (Function.update id x raised)) lam = .ok others) :
    ∃ ahead behind rest, front = ahead ++ behind ∧ others = ahead ++ raised :: rest := by
  obtain ⟨perm, ranking⟩ := ContextAssembler.mmrRanking distinct ok
  have apart := raisedDistinct distinct sameId
  obtain ⟨permOther, rankingOther⟩ := ContextAssembler.mmrRanking apart other
  have picked : (front ++ x :: later).Nodup := perm.nodup_iff.mpr (topRankedDistinct distinct).nodup
  have absent := (List.nodup_cons.mp (List.nodup_middle.mp picked)).1
  have different : ∀ y ∈ front ++ later, y ≠ x := fun y member same => absent (same ▸ member)
  refine raisedEarlier (fun taken y member beats => ?_) (fun taken y inside z member beats => ?_) ?_ ranking rankingOther
  · have more := marginalRaised (a := a) positive sameContent higher taken
    refine beatsAsymm (aheadAsymm apart.nodup) (beats.elim (fun above => .inl (above.trans_le more)) fun tie => ?_)
    refine more.lt_or_eq.imp (fun above => tie.1.trans_lt above) fun equal => ⟨tie.1.trans equal, ?_⟩
    have before := aheadRaised higher (different y member) tie.2
    rwa [Function.update_self] at before
  · refine beatsAsymm (aheadAsymm apart.nodup) (beats.imp_right fun tie => ⟨tie.1, ?_⟩)
    have before := aheadRaised higher (different z member) tie.2
    rwa [Function.update_of_ne (different y inside)] at before
  · rw [← mapUpdate raised picked]
    exact permOther.trans ((topRaised distinct sameId higher (perm.subset (by simp))).trans (perm.symm.map _))

variable (raised) in
theorem selectionRaised {front later : List (Ranked R)} (distinct : DistinctRanked scored)
    (sameId : raised.1.memoryId = x.1.memoryId) (sameContent : raised.1.content = x.1.content) (higher : x.2 ≤ raised.2)
    (positive : 0 ≤ lam) (ok : a.mmr scored lam = .ok (front ++ x :: later)) :
    ∃ ahead behind rest, front = ahead ++ behind ∧
      a.mmr (scored.map (Function.update id x raised)) lam = .ok (ahead ++ raised :: rest) := by
  have sized := ContextAssembler.mmrSized distinct ok
  have inside := (ContextAssembler.mmrRanking distinct ok).1.subset (List.mem_append_right front List.mem_cons_self)
  obtain ⟨others, other⟩ := a.mmrTotal lam (raisedDistinct distinct sameId) fun y inY z inZ => by
    obtain ⟨oldY, wasY, rfl⟩ := List.mem_map.mp ((topRaised distinct sameId higher inside).subset inY)
    obtain ⟨oldZ, wasZ, rfl⟩ := List.mem_map.mp ((topRaised distinct sameId higher inside).subset inZ)
    rw [updateKeeps (·.content) sameContent, updateKeeps (·.content) sameContent]
    exact sized oldY wasY oldZ wasZ
  obtain ⟨ahead, behind, rest, split, found⟩ := selectedEarlier distinct sameId sameContent higher positive ok other
  exact ⟨ahead, behind, rest, split, found ▸ other⟩

end Selection

/-! ### The packing -/

theorem stillKept {a : ContextAssembler R} {budget : TokenBudget} {sources : ContextSources R} {weights : RankWeights R}
    {tokenizer : Option Tokenizer} {lam : R} {front back : List (MemoryCandidate R)} {c raised : MemoryCandidate R}
    {out : AssembledContext R} [IsStrictOrderedRing R] (distinct : ((front ++ c :: back).map (·.memoryId)).Nodup)
    (nonneg : ∀ t ∈ tokenizer, t.NonNegative) (weighted : weights.NonNegative) (positive : 0 ≤ lam)
    (signal : RaisedSignal c raised)
    (ok : a.assemble budget { sources with candidates := front ++ c :: back } weights tokenizer lam = .ok out)
    (kept : out.Keeps c.memoryId) :
    ∃ again, a.assemble budget { sources with candidates := front ++ raised :: back } weights tokenizer lam = .ok again ∧
      again.Keeps c.memoryId := by
  obtain ⟨selected, survivors, parts⟩ := assembleParts ok
  obtain ⟨once, inside, sub⟩ := parts.ids distinct
  have scoredOnce := blendDistinct distinct weights
  obtain ⟨maxBm, early, late, before, after⟩ := blendSplit signal front back weights
  have chosen := parts.chosen
  rw [before] at scoredOnce inside chosen
  have survived : (c, blendOne weights maxBm c) ∈ survivors := by
    obtain ⟨cb, member, same⟩ := List.mem_map.mp (parts.keepsIff.mp kept)
    have here : (c, blendOne weights maxBm c) ∈ early ++ (c, blendOne weights maxBm c) :: late := by simp
    exact List.inj_on_of_nodup_map scoredOnce here (inside (sub.subset member)) same.symm ▸ member
  obtain ⟨ahead, behind, rfl⟩ := List.append_of_mem (sub.subset survived)
  have moved := mapUpdate (raised, blendOne weights maxBm raised) scoredOnce.nodup
  obtain ⟨earlier, passed, rest, split, again⟩ := selectionRaised (raised, blendOne weights maxBm raised) scoredOnce
    signal.memoryId signal.content (blendOneRaised signal weighted maxBm) positive chosen
  rw [moved, ← after] at again
  obtain ⟨out, assembled⟩ := assembleTotal { sources with candidates := front ++ raised :: back } tokenizer
    parts.balanced parts.reserves again
  refine ⟨out, assembled, ?_⟩
  obtain ⟨selected, survivors, partsAgain⟩ := assembleParts assembled
  cases Except.ok.inj (again.symm.trans partsAgain.chosen)
  have counts := countWithNonneg nonneg
  rw [parts.packed, split] at survived
  have taken := fillEarlier budget.softBudget (fun cb : Ranked R => counts cb.1.content) (split ▸ once.nodup) survived
    (y := (raised, blendOne weights maxBm raised)) (by rw [signal.content]) rest
  rw [partsAgain.keepsIff, partsAgain.packed]
  exact List.mem_map.mpr ⟨_, taken, signal.memoryId⟩

def twinSources : ContextSources ℚ := { regionSources with
  candidates := [sampleCandidate "memory-1" "east" (1 / 2), sampleCandidate "memory-2" "west" (1 / 2)] }

def twinAssembled : Except PyError (AssembledContext ℚ) :=
  (ContextAssembler.mk compass).assemble regionBudget twinSources RankWeights.default
    (some HeuristicTokenizer.default.toTokenizer) 0.7

theorem stillKeptSample : ∃ again, (ContextAssembler.mk compass).assemble regionBudget
      { twinSources with candidates := [sampleCandidate "memory-1" "east" (1 / 2), sampleCandidate "memory-2" "west" 1] }
      RankWeights.default (some HeuristicTokenizer.default.toTokenizer) 0.7 = .ok again ∧ again.Keeps "memory-2" := by
  have keeps : twinAssembled.toOption.any (fun out => out.decisions.any (fun d => d.kept && d.memoryId == "memory-2")) := by
    decide +kernel
  obtain ⟨out, assembled, kept⟩ := (Option.any_eq_true _ _).mp keeps
  obtain ⟨d, decided, verdict⟩ := List.any_eq_true.mp kept
  have distinct : (([sampleCandidate "memory-1" "east" (1 / 2)] ++ sampleCandidate "memory-2" "west" (1 / 2) :: []).map
      (·.memoryId)).Nodup := by decide
  have weighted : (RankWeights.default : RankWeights ℚ).NonNegative := by
    constructor <;> norm_num [RankWeights.default]
  have keepsWest : out.Keeps "memory-2" := ⟨d, decided, by simpa using verdict⟩
  have signal : RaisedSignal (sampleCandidate "memory-2" "west" (1 / 2)) (sampleCandidate "memory-2" "west" 1) :=
    ⟨rfl, by norm_num [sampleCandidate], le_refl _, le_refl _⟩
  have ok : (ContextAssembler.mk compass).assemble regionBudget { twinSources with
        candidates := ([sampleCandidate "memory-1" "east" (1 / 2)] ++ sampleCandidate "memory-2" "west" (1 / 2) :: []) }
      RankWeights.default (some HeuristicTokenizer.default.toTokenizer) 0.7 = .ok out := toOptionOk.mp assembled
  have still := stillKept distinct heuristicNonneg weighted (by norm_num) signal ok keepsWest
  exact still

end ContextOS
