import Mathlib.Algebra.BigOperators.Group.List.Basic
import Mathlib.Algebra.Order.BigOperators.Group.List
import Mathlib.Algebra.Order.Ring.Int
import Mathlib.Algebra.Ring.Int.Defs
import Mathlib.Data.List.Perm.Basic
import Mathlib.Tactic.Common

/-! Greedy filling of a capacity in a given order, and the placement of a sequence on
alternating ends of a deque. What still fits is taken, what does not is skipped. -/
namespace ContextOS.Lib

universe u

section Fill
variable {α : Type u} (weight : α → Int) (capacity : Int)

def fill : Int → List α → List α
  | _, [] => []
  | used, x :: rest =>
    if used + weight x ≤ capacity then x :: fill (used + weight x) rest else fill used rest

theorem fillSublist (used : Int) (xs : List α) : (fill weight capacity used xs).Sublist xs := by
  induction xs generalizing used with
  | nil => exact .slnil
  | cons x rest ih =>
    unfold fill
    split
    · exact (ih _).cons_cons x
    · exact (ih _).cons x

theorem fillNone (used : Int) (xs : List α) : fill weight capacity used xs = [] ↔ ∀ x ∈ xs, ¬ used + weight x ≤ capacity := by
  induction xs with
  | nil => simp [fill]
  | cons x rest ih =>
    rw [List.forall_mem_cons, ← ih]
    by_cases room : used + weight x ≤ capacity <;> simp [fill, room]

theorem fillFits {used : Int} (fits : used ≤ capacity) (xs : List α) :
    used + ((fill weight capacity used xs).map weight).sum ≤ capacity := by
  induction xs generalizing used with
  | nil => simpa [fill] using fits
  | cons x rest ih =>
    unfold fill
    split
    · rename_i room
      have := ih room
      simp only [List.map_cons, List.sum_cons]
      omega
    · exact ih fits

theorem fillAppend (used : Int) (front back : List α) : fill weight capacity used (front ++ back) =
    fill weight capacity used front ++ fill weight capacity (used + ((fill weight capacity used front).map weight).sum) back := by
  induction front generalizing used with
  | nil => simp [fill]
  | cons x rest ih =>
    simp only [List.cons_append, fill]
    split
    · rw [ih, List.cons_append, List.map_cons, List.sum_cons, add_assoc]
    · exact ih used

variable {weight}

theorem fillWeight (nonneg : ∀ x, 0 ≤ weight x) (used : Int) (xs : List α) :
    0 ≤ ((fill weight capacity used xs).map weight).sum :=
  List.sum_nonneg (by simpa using fun x _ => nonneg x)

theorem fillSkips (nonneg : ∀ x, 0 ≤ weight x) (used : Int) {xs : List α} {x : α} (given : x ∈ xs) :
    x ∈ fill weight capacity used xs ∨ capacity < used + ((fill weight capacity used xs).map weight).sum + weight x := by
  induction xs generalizing used with
  | nil => contradiction
  | cons y rest ih =>
    unfold fill
    split
    · rcases List.mem_cons.mp given with rfl | later
      · exact .inl List.mem_cons_self
      · rw [List.map_cons, List.sum_cons, ← add_assoc]
        exact (ih _ later).imp_left (List.mem_cons_of_mem _)
    · rename_i full
      rcases List.mem_cons.mp given with rfl | later
      · have kept := fillWeight capacity nonneg used rest
        exact .inr (by omega)
      · exact ih used later

theorem fillTaken {used : Int} {front back : List α} {x : α}
    (fits : used + ((fill weight capacity used front).map weight).sum + weight x ≤ capacity) :
    x ∈ fill weight capacity used (front ++ x :: back) := by
  rw [fillAppend, fill, if_pos fits]
  exact List.mem_append_right _ List.mem_cons_self

theorem fillRefused {used : Int} {front back : List α} {x : α} (distinct : (front ++ x :: back).Nodup)
    (taken : x ∈ fill weight capacity used (front ++ x :: back)) :
    used + ((fill weight capacity used front).map weight).sum + weight x ≤ capacity := by
  by_contra full
  rw [fillAppend, fill, if_neg full] at taken
  obtain ⟨_, later, apart⟩ := List.nodup_append.mp distinct
  rcases List.mem_append.mp taken with early | late
  · exact apart x ((fillSublist weight capacity used front).subset early) x List.mem_cons_self rfl
  · exact (List.nodup_cons.mp later).1 ((fillSublist weight capacity _ back).subset late)

/-- What was taken is still taken where it comes earlier. -/
theorem fillEarlier (nonneg : ∀ x, 0 ≤ weight x) {used : Int} {ahead behind later : List α} {x : α}
    (distinct : (ahead ++ behind ++ x :: later).Nodup) (taken : x ∈ fill weight capacity used (ahead ++ behind ++ x :: later))
    {y : α} (same : weight y = weight x) (rest : List α) : y ∈ fill weight capacity used (ahead ++ y :: rest) := by
  have room := fillRefused capacity distinct taken
  rw [fillAppend, List.map_append, List.sum_append] at room
  have skipped := fillWeight capacity nonneg (used + ((fill weight capacity used ahead).map weight).sum) behind
  exact fillTaken capacity (by omega)

theorem fillNarrow (nonneg : ∀ x, 0 ≤ weight x) {smaller : Int} (less : smaller ≤ capacity) {used : Int}
    (fits : used ≤ smaller) (xs : List α) : fill weight smaller used xs = fill weight capacity used xs ↔
      used + ((fill weight capacity used xs).map weight).sum ≤ smaller := by
  constructor
  · intro same
    rw [← same]
    exact fillFits weight smaller fits xs
  · intro room
    induction xs generalizing used with
    | nil => rfl
    | cons x rest ih =>
      unfold fill at room ⊢
      by_cases wide : used + weight x ≤ capacity
      · rw [if_pos wide, List.map_cons, List.sum_cons, ← add_assoc] at room
        have kept := fillWeight capacity nonneg (used + weight x) rest
        have narrow : used + weight x ≤ smaller := by omega
        rw [if_pos narrow, if_pos wide, ih narrow room]
      · rw [if_neg wide] at room
        rw [if_neg (by omega), if_neg wide, ih fits room]

end Fill

section Deque
variable {α : Type u}

def alternate : Nat → List α → List α → List α
  | _, out, [] => out
  | i, out, item :: rest =>
    if i % 2 = 0 then alternate (i + 1) (out ++ [item]) rest else alternate (i + 1) (item :: out) rest

theorem alternatePerm (i : Nat) (out xs : List α) : (alternate i out xs).Perm (out ++ xs) := by
  induction xs generalizing i out with
  | nil => simp [alternate]
  | cons item rest ih =>
    unfold alternate
    split
    · simpa using ih (i + 1) (out ++ [item])
    · exact (ih (i + 1) (item :: out)).trans List.perm_middle.symm

theorem alternateAppend (i : Nat) (out front back : List α) :
    alternate i out (front ++ back) = alternate (i + front.length) (alternate i out front) back := by
  induction front generalizing i out with
  | nil => rfl
  | cons item rest ih =>
    simp only [List.cons_append, alternate, List.length_cons, Nat.add_comm rest.length 1, ← Nat.add_assoc]
    split <;> exact ih _ _

/-- What is pushed on the left stands in reverse, what is pushed on the right in order. -/
structure Edges (i : Nat) (out xs left right : List α) : Prop where
  placed : alternate i out xs = left ++ out ++ right
  perm : (left ++ right).Perm xs
  reversed : left.reverse.Sublist xs
  inOrder : right.Sublist xs
  balanced : if i % 2 = 0 then left.length ≤ right.length ∧ right.length ≤ left.length + 1
    else right.length ≤ left.length ∧ left.length ≤ right.length + 1

theorem alternateEdges (i : Nat) (out xs : List α) : ∃ left right, Edges i out xs left right := by
  induction xs generalizing i out with
  | nil => exact ⟨[], [], by simp [alternate], .refl _, .refl _, .refl _, by split <;> simp⟩
  | cons item rest ih =>
    by_cases even : i % 2 = 0
    · obtain ⟨left, right, edges⟩ := ih (i + 1) (out ++ [item])
      have odd : ¬ (i + 1) % 2 = 0 := by omega
      refine ⟨left, item :: right, ?_, List.perm_middle.trans (edges.perm.cons item), edges.reversed.cons item,
        edges.inOrder.cons_cons item, ?_⟩
      · simp only [alternate, even, if_true, edges.placed]
        simp
      · have balanced := edges.balanced
        simp only [odd, if_false] at balanced
        simp only [even, if_true, List.length_cons]
        omega
    · obtain ⟨left, right, edges⟩ := ih (i + 1) (item :: out)
      have next : (i + 1) % 2 = 0 := by omega
      refine ⟨left ++ [item], right, ?_, ?_, ?_, edges.inOrder.cons item, ?_⟩
      · simp only [alternate, even, if_false, edges.placed]
        simp
      · rw [List.append_assoc]
        exact List.perm_middle.trans (edges.perm.cons item)
      · rw [List.reverse_append]
        exact edges.reversed.cons_cons item
      · have balanced := edges.balanced
        simp only [next, if_true] at balanced
        simp only [even, if_false, List.length_append, List.length_singleton]
        omega

end Deque
end ContextOS.Lib
