import ContextOS.Lib.Tally
import ContextOS.Recall
import Mathlib.Order.WithBot

/-! The order of selection scores. A list gives its members reciprocal ranks and nothing to
the rest, so that the fused scores fall strictly with each rank; normalising keeps their
order, and where all of them are equal no rank is better than another. -/
namespace ContextOS
open Lib
open MemoryEngine (rankOf selectionScore)

variable {R : Type} [PyFloat R]

-- the rank of an id, with every absent one below the last
def placeIn (order : List String) (mid : String) : WithTop ℕ := rankOf order mid

def rankTerm (k : Nat) : Option Nat → R
  | some rank => 1 / ((k + rank : Nat) : R)
  | none => 0

def rankTerms (k rank : Nat) (order : List String) : List (String × R) :=
  (order.zipIdx rank).map fun entry => (entry.1, 1 / ((k + entry.2 : Nat) : R))

theorem addRanksTally (k rank : Nat) (scores : Dict String R) (order : List String) :
    addRanks k rank scores order = scores.tally (rankTerms k rank order) := by
  induction order generalizing rank scores with
  | nil => rfl
  | cons mid rest ih => exact ih (rank + 1) _

theorem creditRank (k : Nat) {order : List String} (distinct : order.Nodup) (mid : String) :
    Dict.creditOf mid (rankTerms k 1 order : List (String × R)) = rankTerm k (rankOf order mid) := by
  have keys : ((order.zipIdx 1).map Prod.fst) = order := List.zipIdx_map_fst 1 order
  have apart : ((rankTerms k 1 order : List (String × R)).map Prod.fst).Nodup := by
    rw [rankTerms, List.map_map]
    exact keys.symm ▸ distinct
  rw [Dict.creditDistinct apart, rankTerms, findMap (fun rank => 1 / ((k + rank : Nat) : R)), rankOf, Dict.get,
    Dict.ofListEntries (keys.symm ▸ distinct)]
  cases find mid (order.zipIdx 1) <;> rfl

theorem fusedScore (k : Nat) {dense sparse : List String} (denseOnce : dense.Nodup) (sparseOnce : sparse.Nodup) (mid : String) :
    ((rrfFuse dense sparse k : Dict String R).get mid).getD 0 =
      rankTerm k (rankOf dense mid) + rankTerm k (rankOf sparse mid) := by
  rw [rrfFuse, addRanksTally, addRanksTally, Dict.getTally, Dict.getTally, creditRank k denseOnce, creditRank k sparseOnce,
    Dict.getEmpty, Option.getD_none, zero_add]

theorem fusedKeys (dense sparse : List String) (k : Nat) (mid : String) :
    mid ∈ (rrfFuse dense sparse k : Dict String R).keys ↔ mid ∈ dense ∨ mid ∈ sparse := by
  rw [← not_iff_not, ← Dict.getNone, fusedNone, not_or]

theorem rankPositive {order : List String} (distinct : order.Nodup) {mid : String} {rank : Nat}
    (ranked : rankOf order mid = some rank) : 0 < rank := by
  have keys : ((order.zipIdx 1).map Prod.fst) = order := List.zipIdx_map_fst 1 order
  rw [rankOf, Dict.get, Dict.ofListEntries (keys.symm ▸ distinct)] at ranked
  exact List.le_snd_of_mem_zipIdx (findMember ranked)

section Ordered
variable [IsStrictOrderedRing R]

theorem rankTermLt (k : Nat) {order : List String} (distinct : order.Nodup) {a b : String}
    (above : placeIn order a < placeIn order b) : (rankTerm k (rankOf order b) : R) < rankTerm k (rankOf order a) := by
  unfold placeIn at above
  cases ranked : rankOf order a with
  | none =>
    rw [ranked] at above
    exact absurd above not_top_lt
  | some high =>
    have positive : (0 : R) < ((k + high : Nat) : R) := Nat.cast_pos.mpr (Nat.add_pos_right k (rankPositive distinct ranked))
    cases ranked' : rankOf order b with
    | none => exact one_div_pos.mpr positive
    | some low =>
      rw [ranked, ranked'] at above
      have less : high < low := WithTop.coe_lt_coe.mp above
      exact one_div_lt_one_div_of_lt positive (Nat.cast_lt.mpr (Nat.add_lt_add_left less k))

theorem rankTermLe (k : Nat) {order : List String} (distinct : order.Nodup) {a b : String}
    (above : placeIn order a ≤ placeIn order b) : (rankTerm k (rankOf order b) : R) ≤ rankTerm k (rankOf order a) := by
  rcases above.lt_or_eq with higher | same
  · exact (rankTermLt k distinct higher).le
  · rw [show rankOf order a = rankOf order b from same]

theorem normalizedOrder {values : Dict String R} {a b : String} {x y : R} (foundA : values.get a = some x)
    (foundB : values.get b = some y) :
    (y ≤ x → ((minmaxNormalize values).get b).getD 0 ≤ ((minmaxNormalize values).get a).getD 0) ∧
      (y < x → ((minmaxNormalize values).get b).getD 0 < ((minmaxNormalize values).get a).getD 0) := by
  have inA : x ∈ values.values := Dict.memValues.mpr ⟨a, foundA⟩
  have inB : y ∈ values.values := Dict.memValues.mpr ⟨b, foundB⟩
  unfold minmaxNormalize
  split
  · rename_i lo hi least greatest
    have low := (minIff.mp least).2
    have high := (maxIff.mp greatest).2
    split
    · rename_i level
      have equal : x = y := le_antisymm (((high x inA).trans_eq level).trans (low y inB)) (((high y inB).trans_eq level).trans (low x inA))
      rw [Dict.getMapValues, Dict.getMapValues, foundA, foundB]
      exact ⟨fun _ => le_refl _, fun less => absurd equal less.ne'⟩
    · rename_i apart
      have spread : 0 < hi - lo := sub_pos.mpr (((low x inA).trans (high x inA)).lt_of_ne (Ne.symm apart))
      rw [Dict.getMapValues, Dict.getMapValues, foundA, foundB]
      exact ⟨fun le => div_le_div_of_nonneg_right (sub_le_sub_right le lo) spread.le,
        fun less => div_lt_div_of_pos_right (sub_lt_sub_right less lo) spread⟩
  · rename_i missing
    cases least : values.values.min? with
    | none => simp [List.min?_eq_none_iff.mp least] at inA
    | some lo =>
      cases greatest : values.values.max? with
      | none => simp [List.max?_eq_none_iff.mp greatest] at inA
      | some hi => exact absurd greatest (missing lo hi least)

/-- The candidate `a` is no worse than `b` in its two places, its recency and its importance. -/
structure AtLeast (dense sparse : List String) (a b : MemoryCandidate R) : Prop where
  dense : placeIn dense a.memoryId ≤ placeIn dense b.memoryId
  sparse : placeIn sparse a.memoryId ≤ placeIn sparse b.memoryId
  recency : b.recencyFactor ≤ a.recencyFactor
  importance : b.importance ≤ a.importance

def Better (dense sparse : List String) (a b : MemoryCandidate R) : Prop :=
  placeIn dense a.memoryId < placeIn dense b.memoryId ∨ placeIn sparse a.memoryId < placeIn sparse b.memoryId ∨
    b.recencyFactor < a.recencyFactor ∨ b.importance < a.importance

theorem placesOrder (k : Nat) {dense sparse : List String} (denseOnce : dense.Nodup) (sparseOnce : sparse.Nodup) {a b : String}
    (listedA : a ∈ dense ∨ a ∈ sparse) (listedB : b ∈ dense ∨ b ∈ sparse) (denseAbove : placeIn dense a ≤ placeIn dense b)
    (sparseAbove : placeIn sparse a ≤ placeIn sparse b) :
    let norm : Dict String R := minmaxNormalize (rrfFuse dense sparse k)
    (norm.get b).getD 0 ≤ (norm.get a).getD 0 ∧
      (placeIn dense a < placeIn dense b ∨ placeIn sparse a < placeIn sparse b → (norm.get b).getD 0 < (norm.get a).getD 0) := by
  intro norm
  have present : ∀ {mid}, mid ∈ dense ∨ mid ∈ sparse → ∃ x : R, (rrfFuse dense sparse k).get mid = some x ∧
      x = rankTerm k (rankOf dense mid) + rankTerm k (rankOf sparse mid) := by
    intro mid listed
    have score := fusedScore (R := R) k denseOnce sparseOnce mid
    cases found : (rrfFuse dense sparse k : Dict String R).get mid with
    | none => exact absurd listed (not_or.mpr ((fusedNone dense sparse k mid).mp found))
    | some x => exact ⟨x, rfl, by rwa [found] at score⟩
  obtain ⟨x, foundA, sumA⟩ := present listedA
  obtain ⟨y, foundB, sumB⟩ := present listedB
  have denseLe : (rankTerm k (rankOf dense b) : R) ≤ _ := rankTermLe k denseOnce denseAbove
  have sparseLe : (rankTerm k (rankOf sparse b) : R) ≤ _ := rankTermLe k sparseOnce sparseAbove
  obtain ⟨kept, raised⟩ := normalizedOrder foundA foundB
  refine ⟨kept ?_, fun better => raised ?_⟩
  · rw [sumA, sumB]
    exact add_le_add denseLe sparseLe
  · rw [sumA, sumB]
    rcases better with higher | higher
    · exact add_lt_add_of_lt_of_le (rankTermLt k denseOnce higher) sparseLe
    · exact add_lt_add_of_le_of_lt denseLe (rankTermLt k sparseOnce higher)

theorem selectionScoreDominance (k : Nat) {dense sparse : List String} (denseOnce : dense.Nodup) (sparseOnce : sparse.Nodup)
    {a b : MemoryCandidate R} (listedA : a.memoryId ∈ dense ∨ a.memoryId ∈ sparse)
    (listedB : b.memoryId ∈ dense ∨ b.memoryId ∈ sparse) (least : AtLeast dense sparse a b) :
    let rrf : Dict String R := rrfFuse dense sparse k
    selectionScore (minmaxNormalize rrf) b ≤ selectionScore (minmaxNormalize rrf) a ∧
      (Better dense sparse a b → selectionScore (minmaxNormalize rrf) b < selectionScore (minmaxNormalize rrf) a) ∧
      ∀ mid, mid ∈ rrf.keys ↔ mid ∈ dense ∨ mid ∈ sparse := by
  intro rrf
  obtain ⟨kept, raised⟩ := placesOrder (R := R) k denseOnce sparseOnce listedA listedB least.dense least.sparse
  have weights : (0 : R) < wRrf ∧ (0 : R) < wRecency ∧ (0 : R) < wImportance := by norm_num [wRrf, wRecency, wImportance]
  obtain ⟨fused, recent, important⟩ := weights
  have byRank := mul_le_mul_of_nonneg_left kept fused.le
  have byRecency := mul_le_mul_of_nonneg_left least.recency recent.le
  have byImportance := mul_le_mul_of_nonneg_left least.importance important.le
  refine ⟨add_le_add (add_le_add byRank byRecency) byImportance, fun better => ?_, fusedKeys dense sparse k⟩
  unfold selectionScore
  rcases better with higher | higher | fresher | weightier
  · linarith [mul_lt_mul_of_pos_left (raised (.inl higher)) fused]
  · linarith [mul_lt_mul_of_pos_left (raised (.inr higher)) fused]
  · linarith [mul_lt_mul_of_pos_left fresher recent]
  · linarith [mul_lt_mul_of_pos_left weightier important]

end Ordered

def listedAs (memoryId : String) : MemoryCandidate ℚ :=
  ⟨memoryId, "acme", "sales", .semantic, "", none, none, 0, 1, 0.5, none, none, 0, none⟩

/-- Equal in recency and importance, and only one of them is in the second list. -/
theorem rankedHigher :
    selectionScore (minmaxNormalize (rrfFuse ["m1", "m2"] ["m1"] 60)) (listedAs "m2") <
      selectionScore (minmaxNormalize (rrfFuse ["m1", "m2"] ["m1"] 60)) (listedAs "m1") :=
  (selectionScoreDominance 60 (by decide) (by decide) (a := listedAs "m1") (b := listedAs "m2") (.inl (by decide)) (.inl (by decide))
    ⟨by decide, by decide, le_refl _, le_refl _⟩).2.1 (.inl (by decide))

end ContextOS
