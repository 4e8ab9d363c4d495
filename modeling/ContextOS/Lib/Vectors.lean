import Mathlib.Algebra.BigOperators.Group.List.Basic
import Mathlib.Algebra.Order.Field.Basic
import Mathlib.Tactic.LinearCombination
import Mathlib.Tactic.Linarith
import Mathlib.Tactic.Positivity
import Mathlib.Tactic.Ring

/-! Vectors as lists over an ordered field. The product of two vectors is bounded by that of
their lengths, and where it reaches the bound the two point in one direction: then they have
proportional products with every third vector. -/
namespace ContextOS.Lib

universe u
variable {R : Type u} [Field R]

def dot (a b : List R) : R := (List.zipWith (· * ·) a b).sum

@[simp] theorem dotNil (b : List R) : dot [] b = 0 := by simp [dot]

@[simp] theorem dotNilRight (a : List R) : dot a [] = 0 := by simp [dot]

@[simp] theorem dotCons (x y : R) (a b : List R) : dot (x :: a) (y :: b) = x * y + dot a b := by simp [dot]

/-- How far two vectors scaled to the same length are apart. -/
def deviation (s t : R) (a b : List R) : R := (List.zipWith (fun x y => (t * x - s * y) * (t * x - s * y)) a b).sum

@[simp] theorem deviationCons (s t x y : R) (a b : List R) :
    deviation s t (x :: a) (y :: b) = (t * x - s * y) * (t * x - s * y) + deviation s t a b := by simp [deviation]

theorem deviationExpand (s t : R) {a b : List R} (same : a.length = b.length) :
    deviation s t a b = t * t * dot a a - 2 * (t * s) * dot a b + s * s * dot b b := by
  induction a generalizing b with
  | nil =>
    rw [List.eq_nil_of_length_eq_zero same.symm]
    simp [deviation]
  | cons x a ih =>
    cases b with
    | nil => simp at same
    | cons y b =>
      simp only [deviationCons, dotCons, ih (Nat.succ.inj same)]
      ring

theorem deviationLengths {a b : List R} {p q : R} (same : a.length = b.length) (length : p * p = dot a a)
    (lengthOther : q * q = dot b b) : deviation p q a b = 2 * (p * q) * (p * q - dot a b) := by
  rw [deviationExpand p q same, ← length, ← lengthOther]
  ring

variable [LinearOrder R] [IsStrictOrderedRing R]

theorem deviationNonneg (s t : R) (a b : List R) : 0 ≤ deviation s t a b := by
  induction a generalizing b with
  | nil => simp [deviation]
  | cons x a ih =>
    cases b with
    | nil => simp [deviation]
    | cons y b =>
      rw [deviationCons]
      exact add_nonneg (mul_self_nonneg _) (ih b)

theorem dotSelfNonneg (a : List R) : 0 ≤ dot a a := by
  induction a with
  | nil => simp
  | cons x a ih =>
    rw [dotCons]
    exact add_nonneg (mul_self_nonneg x) ih

theorem dotSelfPos {a : List R} (nonzero : ∃ x ∈ a, x ≠ 0) : 0 < dot a a := by
  induction a with
  | nil => simp at nonzero
  | cons x a ih =>
    rw [dotCons]
    by_cases zero : x = 0
    · obtain ⟨y, member, other⟩ := nonzero
      have behind : y ∈ a := List.mem_of_ne_of_mem (fun same => other (same.trans zero)) member
      exact add_pos_of_nonneg_of_pos (mul_self_nonneg x) (ih ⟨y, behind, other⟩)
    · exact add_pos_of_pos_of_nonneg (mul_self_pos.mpr zero) (dotSelfNonneg a)

theorem deviationZero {s t : R} {a b : List R} (same : a.length = b.length) (zero : deviation s t a b = 0) (c : List R) :
    t * dot a c = s * dot b c := by
  induction a generalizing b c with
  | nil =>
    rw [List.eq_nil_of_length_eq_zero same.symm]
    simp
  | cons x a ih =>
    cases b with
    | nil => simp at same
    | cons y b =>
      cases c with
      | nil => simp
      | cons z c =>
        rw [deviationCons] at zero
        have first := mul_self_nonneg (t * x - s * y)
        have rest := deviationNonneg s t a b
        have here : t * x - s * y = 0 := mul_self_eq_zero.mp (by linarith)
        have later := ih (Nat.succ.inj same) (by linarith) c
        rw [dotCons, dotCons]
        linear_combination z * here + later

section Lengths
variable {a b : List R} {p q : R} (same : a.length = b.length) (pos : 0 < p) (posOther : 0 < q) (length : p * p = dot a a)
  (lengthOther : q * q = dot b b)
include same length lengthOther

theorem dotParallel (top : dot a b = p * q) (c : List R) : q * dot a c = p * dot b c := by
  refine deviationZero same ?_ c
  rw [deviationLengths same length lengthOther, top, sub_self, mul_zero]

include pos posOther

theorem dotBound : dot a b ≤ p * q := by
  have apart := deviationNonneg p q a b
  rw [deviationLengths same length lengthOther] at apart
  have scale : 0 < 2 * (p * q) := by positivity
  exact sub_nonneg.mp (nonneg_of_mul_nonneg_right apart scale)

end Lengths
end ContextOS.Lib
