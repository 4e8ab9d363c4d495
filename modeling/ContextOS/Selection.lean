import ContextOS.Assembly
import ContextOS.Executable
import ContextOS.Lib.Diversity

/-! What the diversity loop of the assembler selects. Its running maxima start at zero, so
it takes the greedy sequence in which a negative similarity counts as zero. That is the
sequence of the direct definition exactly when no pick of the latter owes its place to a
negative similarity. -/
namespace ContextOS
open Lib (Dict bindOk pureOk argmaxCongr greedy greedyRanking nearest marginal flooredMarginal flooredSnoc flooredBeats Beats
  beatsAsymm Ahead aheadAsymm sortAhead Ranking rankingUnique)

variable {R : Type} [PyFloat R]

section Loop
variable {vecs : String → List R} {lam : R} {maxSim raised : Dict String R} {pool : List (Ranked R)}

theorem raiseSimOk {cvec : List R} {cb : Ranked R} (ok : raiseSim vecs cvec maxSim cb = .ok raised) :
    (vecs cb.1.memoryId).length = cvec.length ∧
    maxSimOf raised cb.1 = max (maxSimOf maxSim cb.1) (cosineOf (vecs cb.1.memoryId) cvec) ∧
    ∀ id ≠ cb.1.memoryId, raised.get id = maxSim.get id := by
  obtain ⟨sim, measured, ok⟩ := bindOk.mp ok
  obtain ⟨same, rfl⟩ := cosineOk.mp measured
  refine ⟨same, ?_⟩
  split at ok
  · rename_i higher
    cases pureOk.mp ok
    refine ⟨?_, fun id other => Dict.getSetOther _ other _⟩
    rw [max_eq_right higher.le, maxSimOf, Dict.getSetSelf]
    rfl
  · rename_i lower
    cases pureOk.mp ok
    exact ⟨(max_eq_left (not_lt.mp lower)).symm, fun _ _ => rfl⟩

theorem raiseSimTotal (maxSim : Dict String R) {cvec : List R} {cb : Ranked R}
    (same : (vecs cb.1.memoryId).length = cvec.length) :
    ∃ raised, raiseSim vecs cvec maxSim cb = .ok raised := by
  have measured := cosineOk.mpr ⟨same, rfl⟩
  simp only [raiseSim, measured, bind, Except.bind]
  split <;> exact ⟨_, rfl⟩

theorem raisedAll {cvec : List R} (distinct : DistinctRanked pool) (ok : pool.foldlM (raiseSim vecs cvec) maxSim = .ok raised) :
    (∀ cb ∈ pool, (vecs cb.1.memoryId).length = cvec.length ∧
      maxSimOf raised cb.1 = max (maxSimOf maxSim cb.1) (cosineOf (vecs cb.1.memoryId) cvec)) ∧
    ∀ id ∉ pool.map (·.1.memoryId), raised.get id = maxSim.get id := by
  induction pool generalizing maxSim with
  | nil =>
    cases pureOk.mp ok
    exact ⟨by simp, fun _ _ => rfl⟩
  | cons cb rest ih =>
    rw [List.foldlM_cons] at ok
    obtain ⟨first, step, ok⟩ := bindOk.mp ok
    obtain ⟨fresh, distinct⟩ := List.nodup_cons.mp distinct
    obtain ⟨same, here, others⟩ := raiseSimOk step
    obtain ⟨later, kept⟩ := ih distinct ok
    refine ⟨List.forall_mem_cons.mpr ⟨⟨same, ?_⟩, fun y member => ⟨(later y member).1, ?_⟩⟩, fun id absent => ?_⟩
    · rw [← here, maxSimOf, maxSimOf, kept _ fresh]
    · have different : y.1.memoryId ≠ cb.1.memoryId := fun equal => fresh (List.mem_map.mpr ⟨y, member, equal⟩)
      rw [(later y member).2, maxSimOf, others _ different]
      rfl
    · obtain ⟨different, behind⟩ := not_or.mp (List.mem_cons.not.mp absent)
      rw [kept id behind, others id different]

theorem raisedTotal (maxSim : Dict String R) {cvec : List R} (sized : ∀ cb ∈ pool, (vecs cb.1.memoryId).length = cvec.length) :
    ∃ raised, pool.foldlM (raiseSim vecs cvec) maxSim = .ok raised := by
  induction pool generalizing maxSim with
  | nil => exact ⟨maxSim, rfl⟩
  | cons cb rest ih =>
    obtain ⟨here, later⟩ := List.forall_mem_cons.mp sized
    obtain ⟨first, step⟩ := raiseSimTotal maxSim here
    obtain ⟨raised, ok⟩ := ih first later
    exact ⟨raised, by rw [List.foldlM_cons, step]; exact ok⟩

/-! ### The loop -/

variable {vecOf : Ranked R → List R} {rounds : Nat} {selected result : List (Ranked R)}

def similarityOf (vecOf : Ranked R → List R) (x s : Ranked R) : R := cosineOf (vecOf x) (vecOf s)

/-- Every candidate left has the greatest similarity so far, or zero, as its maximum. -/
structure Tracks (vecs : String → List R) (vecOf : Ranked R → List R) (maxSim : Dict String R)
    (selected pool : List (Ranked R)) : Prop where
  distinct : DistinctRanked pool
  vectors : ∀ cb ∈ pool, vecs cb.1.memoryId = vecOf cb
  maxima : ∀ cb ∈ pool, maxSimOf maxSim cb.1 = max 0 (nearest (similarityOf vecOf) selected cb)

theorem Tracks.next {front back : List (Ranked R)} {chosen : Ranked R}
    (tracks : Tracks vecs vecOf maxSim selected (front ++ chosen :: back))
    (ok : (front ++ back).foldlM (raiseSim vecs (vecs chosen.1.memoryId)) maxSim = .ok raised) :
    Tracks vecs vecOf raised (selected ++ [chosen]) (front ++ back) := by
  have sub : (front ++ back).Sublist (front ++ chosen :: back) :=
    (List.Sublist.refl front).append (List.sublist_cons_self chosen back)
  have distinct : DistinctRanked (front ++ back) := tracks.distinct.sublist (sub.map _)
  refine ⟨distinct, fun cb member => tracks.vectors cb (sub.subset member), fun cb member => ?_⟩
  rw [((raisedAll distinct ok).1 cb member).2, tracks.maxima cb (sub.subset member),
    tracks.vectors cb (sub.subset member), tracks.vectors chosen (by simp), flooredSnoc]
  rfl

theorem selectLoopOk (tracks : Tracks vecs vecOf maxSim selected pool)
    (ok : selectLoop lam vecs rounds pool maxSim selected = .ok result) :
    result = selected ++ greedy (flooredMarginal lam Prod.snd (similarityOf vecOf)) rounds selected pool := by
  induction rounds generalizing pool maxSim selected with
  | zero =>
    cases Except.ok.inj ok
    simp [greedy]
  | succ rounds ih =>
    have scores : ∀ cb ∈ pool, lam * cb.2 - (1 - lam) * maxSimOf maxSim cb.1 =
        flooredMarginal lam Prod.snd (similarityOf vecOf) selected cb := fun cb member => by
      rw [tracks.maxima cb member]
      rfl
    rw [selectLoop, argmaxCongr scores] at ok
    by_cases empty : pool = []
    · subst empty
      cases Except.ok.inj ok
      simp [greedy, Lib.argmax]
    · obtain ⟨front, chosen, back, rfl, _, found, here, left⟩ := Lib.greedyStep
        (flooredMarginal lam Prod.snd (similarityOf vecOf)) empty selected
      simp only [found, here, left] at ok
      obtain ⟨raised, step, ok⟩ := bindOk.mp ok
      rw [ih (tracks.next step) ok]
      simp only [greedy, found, here, left, List.append_assoc, List.singleton_append]

theorem selectLoopTotal (lam : R) (maxSim : Dict String R) (selected : List (Ranked R))
    (sized : ∀ x ∈ pool, ∀ y ∈ pool, (vecs x.1.memoryId).length = (vecs y.1.memoryId).length) :
    ∃ result, selectLoop lam vecs rounds pool maxSim selected = .ok result := by
  induction rounds generalizing pool maxSim selected with
  | zero => exact ⟨selected, rfl⟩
  | succ rounds ih =>
    rw [selectLoop]
    by_cases empty : pool = []
    · subst empty
      exact ⟨selected, rfl⟩
    · obtain ⟨front, chosen, back, rfl, _, found, here, left⟩ := Lib.greedyStep
        (fun _ (cb : Ranked R) => lam * cb.2 - (1 - lam) * maxSimOf maxSim cb.1) empty selected
      simp only [found, here, left]
      have inside : ∀ cb ∈ front ++ back, cb ∈ front ++ chosen :: back := fun cb member => by
        simp only [List.mem_append, List.mem_cons] at member ⊢
        tauto
      obtain ⟨raised, step⟩ := raisedTotal maxSim fun cb member => sized cb (inside cb member) chosen (by simp)
      obtain ⟨result, ok⟩ := ih raised (selected ++ [chosen]) fun x inX y inY => sized x (inside x inX) y (inside y inY)
      exact ⟨result, by rw [step]; exact ok⟩

theorem selectLoopSized (distinct : DistinctRanked pool) (enough : pool.length ≤ rounds)
    (ok : selectLoop lam vecs rounds pool maxSim selected = .ok result) :
    ∀ x ∈ pool, ∀ y ∈ pool, (vecs x.1.memoryId).length = (vecs y.1.memoryId).length := by
  cases rounds with
  | zero =>
    rw [List.eq_nil_of_length_eq_zero (Nat.le_zero.mp enough)]
    simp
  | succ rounds =>
    by_cases empty : pool = []
    · simp [empty]
    · obtain ⟨front, chosen, back, rfl, _, found, here, left⟩ := Lib.greedyStep
        (fun _ (cb : Ranked R) => lam * cb.2 - (1 - lam) * maxSimOf maxSim cb.1) empty selected
      simp only [selectLoop, found, here, left] at ok
      obtain ⟨raised, step, _⟩ := bindOk.mp ok
      have sub : (front ++ back).Sublist (front ++ chosen :: back) :=
        (List.Sublist.refl front).append (List.sublist_cons_self chosen back)
      have measured := (raisedAll (distinct.sublist (sub.map _)) step).1
      -- the first round measures everything that is left against the first pick
      have same : ∀ x ∈ front ++ chosen :: back, (vecs x.1.memoryId).length = (vecs chosen.1.memoryId).length := by
        intro x member
        simp only [List.mem_append, List.mem_cons] at member
        rcases member with early | rfl | late
        · exact (measured x (List.mem_append_left _ early)).1
        · rfl
        · exact (measured x (List.mem_append_right _ late)).1
      exact fun x inX y inY => (same x inX).trans (same y inY).symm

end Loop

/-! ### The selection of the assembler -/

theorem topRankedSubset (scored : List (Ranked R)) : topRanked scored ⊆ scored := fun _ member =>
  (List.mem_insertionSort _).mp (List.mem_of_mem_take member)

theorem topRankedDistinct {scored : List (Ranked R)} (distinct : DistinctRanked scored) : DistinctRanked (topRanked scored) := by
  have sorted : DistinctRanked (scored.insertionSort fun a b => b.2 ≤ a.2) :=
    ((List.perm_insertionSort (fun a b : Ranked R => b.2 ≤ a.2) scored).map _).nodup_iff.mpr distinct
  exact sorted.sublist ((List.take_sublist _ _).map _)

theorem topRankedOrdered (scored : List (Ranked R)) : (topRanked scored).Pairwise (Ahead Prod.snd scored) :=
  (sortAhead Prod.snd scored).sublist (List.take_sublist _ _)

namespace ContextAssembler

def similarity (a : ContextAssembler R) : Ranked R → Ranked R → R := similarityOf (fun cb => a.embedder.embed cb.1.content)

def vectorOf (a : ContextAssembler R) (ranked : List (Ranked R)) (mid : String) : List R :=
  ((Dict.ofList ((ranked.map (·.1.memoryId)).zip (a.embedder.embedMany (ranked.map (·.1.content))))).get mid).getD []

variable {a : ContextAssembler R} {lam : R} {scored ranked picks : List (Ranked R)}

omit [PyFloat R] in
theorem vectorFound (a : ContextAssembler R) (distinct : DistinctRanked ranked) (cb : Ranked R) (member : cb ∈ ranked) :
    a.vectorOf ranked cb.1.memoryId = a.embedder.embed cb.1.content := by
  have entries : (ranked.map (·.1.memoryId)).zip (a.embedder.embedMany (ranked.map (·.1.content))) =
      ranked.map (fun cb => (cb.1.memoryId, a.embedder.embed cb.1.content)) := by
    rw [EmbeddingProvider.embedMany, List.map_map, List.zip_map']
    rfl
  have keys : ((ranked.map (fun cb => (cb.1.memoryId, a.embedder.embed cb.1.content))).map Prod.fst).Nodup := by
    rw [List.map_map]
    exact distinct
  rw [vectorOf, entries, Dict.getOfList keys (List.mem_map_of_mem member)]
  rfl

theorem startTracks (distinct : DistinctRanked ranked) : Tracks (a.vectorOf ranked) (fun cb => a.embedder.embed cb.1.content)
    (Dict.ofList (ranked.map (fun cb => (cb.1.memoryId, (0 : R))))) [] ranked := by
  refine ⟨distinct, fun cb member => a.vectorFound distinct cb member, fun cb member => ?_⟩
  have keys : ((ranked.map (fun cb => (cb.1.memoryId, (0 : R)))).map Prod.fst).Nodup := by
    rw [List.map_map]
    exact distinct
  rw [maxSimOf, Dict.getOfList keys (List.mem_map_of_mem member)]
  simp [nearest]

theorem mmrGreedy (distinct : DistinctRanked scored) (ok : a.mmr scored lam = .ok picks) :
    picks = greedy (flooredMarginal lam Prod.snd a.similarity) (topRanked scored).length [] (topRanked scored) :=
  (selectLoopOk (startTracks (topRankedDistinct distinct)) ok).trans (List.nil_append _)

theorem mmrRanking (distinct : DistinctRanked scored) (ok : a.mmr scored lam = .ok picks) : picks.Perm (topRanked scored) ∧
    Ranking (Beats (flooredMarginal lam Prod.snd a.similarity) (Ahead Prod.snd scored)) [] picks := by
  rw [mmrGreedy distinct ok]
  exact greedyRanking (le_refl _) (topRankedOrdered scored) []

theorem mmrTotal (a : ContextAssembler R) (lam : R) (distinct : DistinctRanked scored)
    (sized : ∀ x ∈ topRanked scored, ∀ y ∈ topRanked scored,
      (a.embedder.embed x.1.content).length = (a.embedder.embed y.1.content).length) :
    ∃ picks, a.mmr scored lam = .ok picks := by
  have found := fun cb => a.vectorFound (topRankedDistinct distinct) cb
  refine selectLoopTotal lam _ [] fun x inX y inY => ?_
  exact (congrArg List.length (found x inX)).trans ((sized x inX y inY).trans (congrArg List.length (found y inY)).symm)

omit [PyFloat R] in
theorem vectorSized {dim : Nat} (sized : ∀ text, (a.embedder.embed text).length = dim) {mid : String}
    (listed : mid ∈ ranked.map (·.1.memoryId)) : (a.vectorOf ranked mid).length = dim := by
  have keys : ((ranked.map (·.1.memoryId)).zip (a.embedder.embedMany (ranked.map (·.1.content)))).map Prod.fst =
      ranked.map (·.1.memoryId) := List.map_fst_zip (by simp [EmbeddingProvider.embedMany])
  obtain ⟨vec, inside, found⟩ := Dict.getOfListListed (keys ▸ listed)
  obtain ⟨text, _, rfl⟩ := List.mem_map.mp (List.of_mem_zip inside).2
  rw [vectorOf, found]
  exact sized text

theorem mmrReturns (lam : R) (scored : List (Ranked R)) (sized : a.embedder.Sized) : ∃ picks, a.mmr scored lam = .ok picks := by
  obtain ⟨dim, sized⟩ := sized
  have length : ∀ cb ∈ topRanked scored, (a.vectorOf (topRanked scored) cb.1.memoryId).length = dim := fun cb member =>
    vectorSized sized (List.mem_map_of_mem member)
  exact selectLoopTotal lam _ [] fun x inX y inY => (length x inX).trans (length y inY).symm

theorem mmrSized (distinct : DistinctRanked scored) (ok : a.mmr scored lam = .ok picks) :
    ∀ x ∈ topRanked scored, ∀ y ∈ topRanked scored,
      (a.embedder.embed x.1.content).length = (a.embedder.embed y.1.content).length := by
  intro x inX y inY
  have found := fun cb => a.vectorFound (topRankedDistinct distinct) cb
  have same := selectLoopSized (topRankedDistinct distinct) (le_refl _) ok x inX y inY
  exact (congrArg List.length (found x inX)).symm.trans (same.trans (congrArg List.length (found y inY)))

/-! ### The direct definition -/

-- the greedy sequence in which each maximum is taken over the whole selection
def directMmr (a : ContextAssembler R) (scored : List (Ranked R)) (lam : R) : List (Ranked R) :=
  greedy (marginal lam Prod.snd a.similarity) (topRanked scored).length [] (topRanked scored)

/-- Every pick whose similarities are all negative would also win if they counted as zero. -/
def Unaided (a : ContextAssembler R) (scored : List (Ranked R)) (lam : R) : Prop :=
  ∀ front x back, a.directMmr scored lam = front ++ x :: back → nearest a.similarity front x < 0 →
    ∀ y ∈ back, Beats (flooredMarginal lam Prod.snd a.similarity) (Ahead Prod.snd scored) front x y

theorem directRanking (a : ContextAssembler R) (scored : List (Ranked R)) (lam : R) :
    (a.directMmr scored lam).Perm (topRanked scored) ∧
      Ranking (Beats (marginal lam Prod.snd a.similarity) (Ahead Prod.snd scored)) [] (a.directMmr scored lam) :=
  greedyRanking (le_refl _) (topRankedOrdered scored) []

variable [IsStrictOrderedRing R]

theorem unaidedRanking (weight : lam ≤ 1) : a.Unaided scored lam ↔
    Ranking (Beats (flooredMarginal lam Prod.snd a.similarity) (Ahead Prod.snd scored)) [] (a.directMmr scored lam) := by
  constructor
  · intro unaided front x back split y later
    rcases lt_or_ge (nearest a.similarity front x) 0 with negative | positive
    · exact unaided front x back split negative y later
    · exact flooredBeats weight positive ((a.directRanking scored lam).2 front x back split y later)
  · exact fun ranking front x back split _ y later => ranking front x back split y later

theorem directMmrIff (distinct : DistinctRanked scored) (sized : a.embedder.Sized) (weight : lam ≤ 1) :
    a.mmr scored lam = .ok (a.directMmr scored lam) ↔ a.Unaided scored lam := by
  obtain ⟨picks, ok⟩ := a.mmrReturns lam scored sized
  obtain ⟨perm, ranking⟩ := mmrRanking distinct ok
  obtain ⟨direct, _⟩ := a.directRanking scored lam
  rw [unaidedRanking weight, ok, Except.ok.injEq]
  constructor
  · intro same
    rwa [← same]
  · intro unaided
    refine rankingUnique (fun taken x _ y _ _ => ?_) (perm.trans direct.symm) ranking unaided
    exact beatsAsymm (aheadAsymm (distinct.nodup))

end ContextAssembler

def compass : EmbeddingProvider ℚ where
  embed text := if text = "north" then [0, 1] else if text = "west" then [-1, 0] else [1, 0]

def headings : List (Ranked ℚ) :=
  [(sampleCandidate "memory-1" "east" 1, 1), (sampleCandidate "memory-2" "north" 1, 3 / 5),
   (sampleCandidate "memory-3" "west" 1, 1 / 2)]

theorem compassSized : compass.Sized := by
  refine ⟨2, fun text => ?_⟩
  simp only [compass]
  split
  · rfl
  · split <;> rfl

theorem directMmrSample :
    (ContextAssembler.mk compass).mmr headings 0.7 = .ok ((ContextAssembler.mk compass).directMmr headings 0.7) ↔
    (ContextAssembler.mk compass).Unaided headings 0.7 :=
  ContextAssembler.directMmrIff (by decide) compassSized (by norm_num)

theorem oppositeIgnored : DistinctRanked headings ∧ compass.Sized ∧
    (ContextAssembler.mk compass).mmr headings 0.7 ≠ .ok ((ContextAssembler.mk compass).directMmr headings 0.7) :=
  ⟨by decide, compassSized, by decide +kernel⟩

end ContextOS
