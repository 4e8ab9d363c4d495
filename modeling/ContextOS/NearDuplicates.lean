import ContextOS.Executable
import ContextOS.Lib.Scan
import Mathlib.Data.List.Pairwise
import Mathlib.Tactic.Linarith
import Mathlib.Tactic.NormNum

/-! Near-duplicate collapse in the memory engine. Two candidates are near where the cosine
of their vectors reaches the bound. The loop passes over what is near a kept one and leaves
it in the pool; anything else has a value above the sentinel. So no two kept ones are near,
and unless the loop is full it stops only when all that is left is near a kept one. -/
namespace ContextOS.MemoryEngine
open Lib (Dict bindOk pureOk mapMOk maxIff)

variable {R : Type} [PyFloat R]

def Near (vecs : String → List R) (c s : MemoryCandidate R) : Prop :=
  ∃ sim, cosine (vecs c.memoryId) (vecs s.memoryId) = .ok sim ∧ cosDup ≤ sim

def Apart (vecs : String → List R) (c s : MemoryCandidate R) : Prop :=
  ∃ sim, cosine (vecs c.memoryId) (vecs s.memoryId) = .ok sim ∧ sim < cosDup

structure Signals (rrfNorm : Dict String R) (c : MemoryCandidate R) : Prop where
  rrf : 0 ≤ (rrfNorm.get c.memoryId).getD 0
  recency : 0 ≤ c.recencyFactor
  importance : 0 ≤ c.importance

variable {rrfNorm : Dict String R} {vecs : String → List R} {selected pool cands result : List (MemoryCandidate R)}
  {c : MemoryCandidate R}

theorem Apart.symm {s : MemoryCandidate R} (apart : Apart vecs c s) : Apart vecs s c := by
  obtain ⟨sim, measured, below⟩ := apart
  exact ⟨sim, cosineComm measured, below⟩

instance : Std.Symm (Apart vecs) := ⟨fun _ _ => Apart.symm⟩

theorem maxSimilarityTotal (sized : ∀ s ∈ selected, (vecs c.memoryId).length = (vecs s.memoryId).length) :
    ∃ sim, maxSimilarity vecs selected c = .ok sim := by
  have measured := (mapMOk fun _ _ => cosineOk).mpr ⟨sized, rfl⟩
  exact ⟨_, bindOk.mpr ⟨_, measured, rfl⟩⟩

/-! ### One round -/

theorem bestOfKeeps {pos : Nat} {bestVal : R} {best : Option (Nat × MemoryCandidate R)}
    (ok : bestOf rrfNorm vecs selected pos bestVal best pool = .ok none) : best = none := by
  induction pool generalizing pos bestVal best with
  | nil => exact Except.ok.inj ok
  | cons c rest ih =>
    simp only [bestOf, bindOk] at ok
    obtain ⟨sim, _, ok⟩ := ok
    split at ok
    · exact ih ok
    · split at ok
      · exact absurd (ih ok) (by simp)
      · exact ih ok

theorem bestOfTotal (sized : ∀ c ∈ pool, ∀ s ∈ selected, (vecs c.memoryId).length = (vecs s.memoryId).length) (pos : Nat)
    (bestVal : R) (best : Option (Nat × MemoryCandidate R)) :
    ∃ found, bestOf rrfNorm vecs selected pos bestVal best pool = .ok found := by
  induction pool generalizing pos bestVal best with
  | nil => exact ⟨best, rfl⟩
  | cons c rest ih =>
    obtain ⟨here, later⟩ := List.forall_mem_cons.mp sized
    obtain ⟨sim, measured⟩ := maxSimilarityTotal here
    simp only [bestOf, measured, bind, Except.bind]
    split
    · exact ih later _ _ _
    · split <;> exact ih later _ _ _

section Ordered
variable [IsStrictOrderedRing R]

theorem maxSimilarityOk {sim : R} (ok : maxSimilarity vecs selected c = .ok sim) :
    (cosDup ≤ sim → ∃ s ∈ selected, Near vecs c s) ∧ (sim < cosDup → ∀ s ∈ selected, Apart vecs c s) := by
  obtain ⟨sims, measured, ok⟩ := bindOk.mp ok
  cases pureOk.mp ok
  obtain ⟨sized, rfl⟩ := (mapMOk fun _ _ => cosineOk).mp measured
  have each := fun s member => cosineOk.mpr ⟨sized s member, rfl⟩
  cases top : (selected.map fun s => cosineOf (vecs c.memoryId) (vecs s.memoryId)).max? with
  | none =>
    rw [List.max?_eq_none_iff, List.map_eq_nil_iff] at top
    subst top
    exact ⟨fun high => absurd high (by norm_num [cosDup]), fun _ => by simp⟩
  | some sim =>
    obtain ⟨inside, above⟩ := maxIff.mp top
    constructor
    · intro high
      obtain ⟨s, member, rfl⟩ := List.mem_map.mp inside
      exact ⟨s, member, _, each s member, high⟩
    · exact fun low s member => ⟨_, each s member, (above _ (List.mem_map_of_mem member)).trans_lt low⟩

theorem aboveSentinel (signals : Signals rrfNorm c) {sim : R} (low : sim < cosDup) :
    -1e18 < engineMmrLambda * selectionScore rrfNorm c - (1 - engineMmrLambda) * sim := by
  have score : 0 ≤ selectionScore rrfNorm c := by
    have rrf := mul_nonneg (by norm_num [wRrf] : (0 : R) ≤ wRrf) signals.rrf
    have recency := mul_nonneg (by norm_num [wRecency] : (0 : R) ≤ wRecency) signals.recency
    have importance := mul_nonneg (by norm_num [wImportance] : (0 : R) ≤ wImportance) signals.importance
    exact add_nonneg (add_nonneg rrf recency) importance
  have relevance := mul_nonneg (by norm_num [engineMmrLambda] : (0 : R) ≤ engineMmrLambda) score
  have penalty := mul_lt_mul_of_pos_left low (by norm_num [engineMmrLambda] : (0 : R) < 1 - engineMmrLambda)
  have bound : (1 - engineMmrLambda) * cosDup ≤ (1e18 : R) := by norm_num [engineMmrLambda, cosDup]
  linarith

theorem bestOfSome {pos : Nat} {bestVal : R} {best : Option (Nat × MemoryCandidate R)} {found : Nat × MemoryCandidate R}
    (ok : bestOf rrfNorm vecs selected pos bestVal best pool = .ok (some found)) : some found = best ∨
      ∃ front back, pool = front ++ found.2 :: back ∧ found.1 = pos + front.length ∧ ∀ s ∈ selected, Apart vecs found.2 s := by
  induction pool generalizing pos bestVal best with
  | nil => exact .inl (Except.ok.inj ok).symm
  | cons c rest ih =>
    have behind : (∃ front back, rest = front ++ found.2 :: back ∧ found.1 = pos + 1 + front.length ∧
        ∀ s ∈ selected, Apart vecs found.2 s) → ∃ front back, c :: rest = front ++ found.2 :: back ∧
        found.1 = pos + front.length ∧ ∀ s ∈ selected, Apart vecs found.2 s := by
      rintro ⟨front, back, split, at_, apart⟩
      exact ⟨c :: front, back, by rw [split]; rfl, by rw [List.length_cons]; omega, apart⟩
    simp only [bestOf, bindOk] at ok
    obtain ⟨sim, measured, ok⟩ := ok
    split at ok
    · exact (ih ok).imp_right behind
    · rename_i low
      split at ok
      · rcases ih ok with here | later
        · cases Option.some.inj here
          exact .inr ⟨[], rest, rfl, rfl, (maxSimilarityOk measured).2 (not_le.mp low)⟩
        · exact .inr (behind later)
      · exact (ih ok).imp_right behind

theorem bestOfNone {pos : Nat} {bestVal : R} {best : Option (Nat × MemoryCandidate R)}
    (higher : ∀ c ∈ pool, ∀ sim < cosDup,
      bestVal < engineMmrLambda * selectionScore rrfNorm c - (1 - engineMmrLambda) * sim)
    (ok : bestOf rrfNorm vecs selected pos bestVal best pool = .ok none) : ∀ c ∈ pool, ∃ s ∈ selected, Near vecs c s := by
  induction pool generalizing pos bestVal best with
  | nil => simp
  | cons c rest ih =>
    obtain ⟨here, later⟩ := List.forall_mem_cons.mp higher
    simp only [bestOf, bindOk] at ok
    obtain ⟨sim, measured, ok⟩ := ok
    split at ok
    · rename_i high
      exact List.forall_mem_cons.mpr ⟨(maxSimilarityOk measured).1 high, ih later ok⟩
    · rename_i low
      -- what is not near is taken, and a round that took something does not end empty
      rw [if_pos (here sim (not_le.mp low))] at ok
      exact absurd (bestOfKeeps ok) (by simp)

/-! ### The loop -/

structure Collapsing (vecs : String → List R) (cands selected pool : List (MemoryCandidate R)) : Prop where
  perm : (selected ++ pool).Perm cands
  apart : selected.Pairwise (Apart vecs)
  size : selected.length ≤ maxCandidates

omit [IsStrictOrderedRing R] in
theorem Collapsing.next {front back : List (MemoryCandidate R)} (state : Collapsing vecs cands selected (front ++ c :: back))
    (free : ¬ maxCandidates ≤ selected.length) (apart : ∀ s ∈ selected, Apart vecs c s) :
    Collapsing vecs cands (selected ++ [c]) (front ++ back) := by
  refine ⟨?_, ?_, by simp only [List.length_append, List.length_singleton]; omega⟩
  · rw [List.append_assoc, List.singleton_append]
    exact (List.Perm.append_left selected List.perm_middle.symm).trans state.perm
  · refine List.pairwise_append.mpr ⟨state.apart, List.pairwise_singleton _ _, fun s member c' same => ?_⟩
    rw [List.mem_singleton.mp same]
    exact (apart s member).symm

theorem mmrLoopOk {rounds : Nat} (state : Collapsing vecs cands selected pool) (signals : ∀ c ∈ cands, Signals rrfNorm c)
    (enough : pool.length ≤ rounds) (ok : mmrLoop rrfNorm vecs rounds pool selected = .ok result) :
    ∃ rest, Collapsing vecs cands result rest ∧ (result.length = maxCandidates ∨ ∀ c ∈ rest, ∃ s ∈ result, Near vecs c s) := by
  induction rounds generalizing pool selected with
  | zero =>
    cases Except.ok.inj ok
    rw [List.eq_nil_of_length_eq_zero (Nat.le_zero.mp enough)] at state
    exact ⟨[], state, .inr (by simp)⟩
  | succ rounds ih =>
    unfold mmrLoop at ok
    split at ok
    · rename_i stopped
      cases Except.ok.inj ok
      refine ⟨pool, state, stopped.symm.imp (fun full => le_antisymm state.size full) fun empty => ?_⟩
      rw [List.isEmpty_iff.mp empty]
      simp
    · rename_i running
      obtain ⟨_, free⟩ := not_or.mp running
      obtain ⟨best, found, ok⟩ := bindOk.mp ok
      cases best with
      | none =>
        cases Except.ok.inj ok
        have inside : ∀ c ∈ pool, c ∈ cands := fun c member => state.perm.subset (List.mem_append_right _ member)
        refine ⟨pool, state, .inr (bestOfNone (fun c member sim low => ?_) found)⟩
        exact aboveSentinel (signals c (inside c member)) low
      | some best =>
        obtain ⟨pos, chosen⟩ := best
        obtain ⟨front, back, rfl, rfl, apart⟩ := (bestOfSome found).resolve_left (by simp)
        have left : (front ++ chosen :: back).eraseIdx (0 + front.length) = front ++ back := by
          rw [Nat.zero_add, List.eraseIdx_append_of_length_le (le_refl _), Nat.sub_self]
          rfl
        simp only [left] at ok
        refine ih (state.next free apart) ?_ ok
        simp only [List.length_append, List.length_cons] at enough ⊢
        omega

omit [IsStrictOrderedRing R] in
theorem mmrLoopTotal (sized : ∀ a ∈ selected ++ pool, ∀ b ∈ selected ++ pool, (vecs a.memoryId).length = (vecs b.memoryId).length)
    (rounds : Nat) : ∃ result, mmrLoop rrfNorm vecs rounds pool selected = .ok result := by
  induction rounds generalizing pool selected with
  | zero => exact ⟨selected, rfl⟩
  | succ rounds ih =>
    unfold mmrLoop
    split
    · exact ⟨selected, rfl⟩
    · have comparable : ∀ c ∈ pool, ∀ s ∈ selected, (vecs c.memoryId).length = (vecs s.memoryId).length :=
        fun c inPool s chosen => sized c (List.mem_append_right _ inPool) s (List.mem_append_left _ chosen)
      obtain ⟨best, found⟩ : ∃ found, bestOf rrfNorm vecs selected 0 (-1e18) none pool = .ok found :=
        bestOfTotal comparable 0 (-1e18) none
      simp only [found, bind, Except.bind]
      cases best with
      | none => exact ⟨selected, rfl⟩
      | some best =>
        obtain ⟨pos, chosen⟩ := best
        have taken : chosen ∈ pool := (bestOfMember found).resolve_left (by simp)
        have inside : ∀ c ∈ selected ++ [chosen] ++ pool.eraseIdx pos, c ∈ selected ++ pool := fun c member => by
          simp only [List.mem_append, List.mem_singleton] at member ⊢
          rcases member with (old | rfl) | left
          · exact .inl old
          · exact .inr taken
          · exact .inr (List.mem_of_mem_eraseIdx left)
        exact ih fun a inA b inB => sized a (inside a inA) b (inside b inB)

/-! ### The result -/

structure Collapse (vecs : String → List R) (cands result : List (MemoryCandidate R)) : Prop where
  given : result ⊆ cands
  distinct : (result.map (·.memoryId)).Nodup
  apart : ∀ a ∈ result, ∀ b ∈ result, a.memoryId ≠ b.memoryId → Apart vecs a b
  covered : result.length = maxCandidates ∨ ∀ c ∈ cands, c ∉ result → ∃ s ∈ result, Near vecs c s
  nonempty : cands ≠ [] → result ≠ []

omit [IsStrictOrderedRing R] in
theorem Collapsing.collapse {rest : List (MemoryCandidate R)} (distinct : (cands.map (·.memoryId)).Nodup)
    (state : Collapsing vecs cands result rest)
    (stopped : result.length = maxCandidates ∨ ∀ c ∈ rest, ∃ s ∈ result, Near vecs c s) : Collapse vecs cands result := by
  have once : ((result ++ rest).map (·.memoryId)).Nodup := (state.perm.map _).nodup_iff.mpr distinct
  have covered : result.length = maxCandidates ∨ ∀ c ∈ cands, c ∉ result → ∃ s ∈ result, Near vecs c s :=
    stopped.imp_right fun near c given out =>
      near c ((List.mem_append.mp (state.perm.mem_iff.mpr given)).resolve_left out)
  refine ⟨fun c member => state.perm.subset (List.mem_append_left rest member),
    once.sublist ((List.sublist_append_left result rest).map _), fun a inA b inB different => ?_, covered, fun some none => ?_⟩
  · exact state.apart.forall inA inB fun same => different (congrArg _ same)
  · subst none
    obtain ⟨c, given⟩ := List.exists_mem_of_ne_nil cands some
    rcases covered with full | near
    · simp [maxCandidates] at full
    · simpa using near c given (by simp)

theorem mmrCollapses (distinct : (cands.map (·.memoryId)).Nodup) (signals : ∀ c ∈ cands, Signals rrfNorm c)
    (ok : mmr cands rrfNorm vecs = .ok result) : Collapse vecs cands result := by
  have sorted := List.perm_insertionSort (fun a b => selectionScore rrfNorm b ≤ selectionScore rrfNorm a) cands
  obtain ⟨rest, state, stopped⟩ := mmrLoopOk ⟨sorted, .nil, Nat.zero_le _⟩ signals (le_refl _) ok
  exact state.collapse distinct stopped

omit [IsStrictOrderedRing R] in
theorem mmrEnds (sized : ∀ a ∈ cands, ∀ b ∈ cands, (vecs a.memoryId).length = (vecs b.memoryId).length) :
    ∃ result, mmr cands rrfNorm vecs = .ok result := by
  have sorted := List.perm_insertionSort (fun a b => selectionScore rrfNorm b ≤ selectionScore rrfNorm a) cands
  exact mmrLoopTotal (fun a inA b inB => sized a (sorted.subset inA) b (sorted.subset inB)) _

theorem collapsed (distinct : (cands.map (·.memoryId)).Nodup) (signals : ∀ c ∈ cands, Signals rrfNorm c)
    (vecs : String → List R) : (∀ result, mmr cands rrfNorm vecs = .ok result → Collapse vecs cands result) ∧
    ((∀ a ∈ cands, ∀ b ∈ cands, (vecs a.memoryId).length = (vecs b.memoryId).length) →
      ∃ result, mmr cands rrfNorm vecs = .ok result) :=
  ⟨fun _ => mmrCollapses distinct signals, mmrEnds⟩

end Ordered

def rivals : List (MemoryCandidate ℚ) :=
  [sampleCandidate "memory-1" "east" 1, sampleCandidate "memory-2" "east again" 1, sampleCandidate "memory-3" "north" 1]

def bearing (memoryId : String) : List ℚ := if memoryId = "memory-3" then [0, 1] else [1, 0]

example : (mmr rivals Dict.empty bearing).toOption.map (·.map (·.memoryId)) = some ["memory-1", "memory-3"] := by decide +kernel

theorem collapsedSample : ∃ result, mmr rivals Dict.empty bearing = .ok result ∧ Collapse bearing rivals result := by
  have signals : ∀ c ∈ rivals, Signals Dict.empty c := by
    simp only [rivals, List.forall_mem_cons, List.not_mem_nil, false_implies, implies_true, and_true]
    refine ⟨?_, ?_, ?_⟩ <;> exact ⟨le_refl _, zero_le_one, by norm_num [sampleCandidate]⟩
  have sized : ∀ a ∈ rivals, ∀ b ∈ rivals, (bearing a.memoryId).length = (bearing b.memoryId).length := by decide
  obtain ⟨every, returns⟩ := collapsed (by decide) signals bearing
  obtain ⟨result, ok⟩ := returns sized
  exact ⟨result, ok, every result ok⟩

end ContextOS.MemoryEngine
