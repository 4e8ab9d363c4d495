import ContextOS.Assembly
import ContextOS.Executable
import Mathlib.Data.String.Basic

/-! Where edge loading puts the survivors. The strongest stand at both ends and the weakest
in the middle: however many of the strongest one looks at, they fill a prefix and a suffix
of almost the same length, and from the ends to the weakest the scores never rise. -/
namespace ContextOS
open Lib (alternate alternateAppend alternateEdges)

variable {R : Type} [PyFloat R]

theorem weakerTrans {a b c : Ranked R} (first : weaker a b) (second : weaker b c) : weaker a c := by
  rcases first with below | ⟨same, early⟩
  · rcases second with above | ⟨equal, _⟩
    · exact .inl (below.trans above)
    · exact .inl (below.trans_eq equal)
  · rcases second with above | ⟨equal, late⟩
    · exact .inl (same.trans_lt above)
    · exact .inr ⟨same.trans equal, early.trans late⟩

theorem weakerTotal (a b : Ranked R) : weaker a b ∨ weaker b a := by
  rcases lt_trichotomy a.2 b.2 with below | same | above
  · exact .inl (.inl below)
  · exact (le_total a.1.memoryId b.1.memoryId).imp (fun early => .inr ⟨same, early⟩) (fun late => .inr ⟨same.symm, late⟩)
  · exact .inr (.inl above)

theorem weakerAntisymm {a b : Ranked R} (first : weaker a b) (second : weaker b a) : a.1.memoryId = b.1.memoryId := by
  rcases first with below | ⟨same, early⟩
  · rcases second with above | ⟨equal, _⟩
    · exact absurd above below.asymm
    · exact absurd equal below.ne'
  · rcases second with above | ⟨_, late⟩
    · exact absurd same above.ne'
    · exact le_antisymm early late

instance : IsTrans (Ranked R) weaker := ⟨fun _ _ _ => weakerTrans⟩
instance : Std.Total (weaker (R := R)) := ⟨weakerTotal⟩

theorem weakerScore {a b : Ranked R} (below : weaker a b) : a.2 ≤ b.2 := below.elim le_of_lt fun tie => tie.1.le

def strongest (j : Nat) (survivors : List (Ranked R)) : List (Ranked R) :=
  (survivors.insertionSort (fun a b => weaker b a)).take j

theorem weakerUnique {xs ys : List (Ranked R)} (distinct : DistinctRanked xs) (same : xs.Perm ys)
    (sorted : xs.Pairwise weaker) (other : ys.Pairwise weaker) : xs = ys := by
  refine List.Perm.eq_of_pairwise (fun a b inA inB first second => ?_) sorted other same
  exact List.inj_on_of_nodup_map distinct inA (same.mem_iff.mpr inB) (weakerAntisymm first second)

theorem strongestLast {survivors : List (Ranked R)} (distinct : DistinctRanked survivors) {j : Nat}
    (enough : j ≤ survivors.length) :
    (strongest j survivors).Perm ((survivors.insertionSort weaker).drop (survivors.length - j)) := by
  have downwards : IsTrans (Ranked R) (fun a b => weaker b a) := ⟨fun _ _ _ first second => weakerTrans second first⟩
  have total : Std.Total (fun a b : Ranked R => weaker b a) := ⟨fun a b => weakerTotal b a⟩
  have falling := List.pairwise_insertionSort (fun a b : Ranked R => weaker b a) survivors
  have perm := List.perm_insertionSort (fun a b : Ranked R => weaker b a) survivors
  have reversed : (survivors.insertionSort (fun a b => weaker b a)).reverse = survivors.insertionSort weaker := by
    refine weakerUnique ?_ ?_ (List.pairwise_reverse.mpr falling) (List.pairwise_insertionSort _ _)
    · exact (((List.reverse_perm _).trans perm).map _).nodup_iff.mpr distinct
    · exact ((List.reverse_perm _).trans perm).trans (List.perm_insertionSort _ _).symm
  rw [strongest, ← reversed, List.drop_reverse, List.length_insertionSort]
  rw [show survivors.length - (survivors.length - j) = j by omega]
  exact (List.reverse_perm _).symm

structure EdgeLoaded (survivors placed : List (Ranked R)) : Prop where
  perm : placed.Perm survivors
  edges : ∀ j ≤ survivors.length, ∃ front mid back, placed = front ++ mid ++ back ∧
    (front ++ back).Perm (strongest j survivors) ∧ front.length ≤ back.length + 1 ∧ back.length ≤ front.length + 1
  ends : 2 ≤ survivors.length → ∃ first mid last, placed = first :: mid ++ [last] ∧
    [first, last].Perm (strongest 2 survivors)
  valley : survivors ≠ [] → ∃ down low up, placed = down ++ low :: up ∧
    (down ++ [low]).Pairwise (fun a b => b.2 ≤ a.2) ∧ (low :: up).Pairwise (fun a b => a.2 ≤ b.2)

theorem edgeLoadEdges {survivors : List (Ranked R)} (distinct : DistinctRanked survivors) {j : Nat}
    (enough : j ≤ survivors.length) :
    ∃ front mid back, edgeLoad survivors = front ++ mid ++ back ∧ (front ++ back).Perm (strongest j survivors) ∧
      front.length ≤ back.length + 1 ∧ back.length ≤ front.length + 1 := by
  let sorted := survivors.insertionSort weaker
  let low := sorted.take (survivors.length - j)
  obtain ⟨front, back, edges⟩ := alternateEdges (0 + low.length) (alternate 0 [] low) (sorted.drop (survivors.length - j))
  refine ⟨front, alternate 0 [] low, back, ?_, edges.perm.trans (strongestLast distinct enough).symm, ?_⟩
  · rw [← edges.placed, ← alternateAppend, List.take_append_drop]
    rfl
  · have balanced := edges.balanced
    split at balanced <;> omega

theorem edgeLoadValley {survivors : List (Ranked R)} (some : survivors ≠ []) : ∃ down low up,
    edgeLoad survivors = down ++ low :: up ∧ (down ++ [low]).Pairwise (fun a b => b.2 ≤ a.2) ∧
      (low :: up).Pairwise (fun a b => a.2 ≤ b.2) := by
  have rising : (survivors.insertionSort weaker).Pairwise (fun a b => a.2 ≤ b.2) :=
    (List.pairwise_insertionSort weaker survivors).imp weakerScore
  have same := List.perm_insertionSort weaker survivors
  unfold edgeLoad
  cases sorted : survivors.insertionSort weaker with
  | nil =>
    rw [sorted] at same
    exact absurd (List.nil_perm.mp same) some
  | cons low rest =>
    rw [sorted] at rising
    obtain ⟨down, up, edges⟩ := alternateEdges 1 [low] rest
    refine ⟨down, low, up, ?_, ?_, rising.sublist (edges.inOrder.cons_cons low)⟩
    · simpa [alternate] using edges.placed
    · have reversed := List.pairwise_reverse.mpr (rising.sublist (edges.reversed.cons_cons low))
      simpa using reversed

theorem edgeLoaded {survivors : List (Ranked R)} (distinct : DistinctRanked survivors) :
    EdgeLoaded survivors (edgeLoad survivors) := by
  refine ⟨edgeLoadPerm survivors, fun j enough => edgeLoadEdges distinct enough, fun two => ?_, edgeLoadValley⟩
  obtain ⟨front, mid, back, placed, perm, left, right⟩ := edgeLoadEdges distinct two
  have size : front.length + back.length = 2 := by
    rw [← List.length_append, perm.length_eq, strongest, List.length_take, List.length_insertionSort]
    omega
  obtain ⟨first, rfl⟩ := List.length_eq_one_iff.mp (by omega : front.length = 1)
  obtain ⟨last, rfl⟩ := List.length_eq_one_iff.mp (by omega : back.length = 1)
  exact ⟨first, mid, last, placed, perm⟩

def tiedSurvivors : List (Ranked ℚ) :=
  [(sampleCandidate "memory-2" "red" 1, 1), (sampleCandidate "memory-1" "blue" 1, 1),
   (sampleCandidate "memory-3" "green" 0, 1 / 2)]

theorem edgeLoadedTied : EdgeLoaded tiedSurvivors (edgeLoad tiedSurvivors) := edgeLoaded (by decide)

end ContextOS
