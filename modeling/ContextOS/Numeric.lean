import Mathlib.Algebra.Order.Floor.Ring
import Mathlib.Algebra.Order.Field.Rat
import Mathlib.Data.Rat.Floor
import Mathlib.Tactic.Linarith
import Mathlib.Tactic.NormNum
import Mathlib.Tactic.Positivity

/-! The numbers the source computes with. A float is an element of an ordered field
with floors: its arithmetic is exact, and the four functions taken from the standard
library are given with the type: `math.sqrt`, `math.log`, `0.5 ** x` and the format
`.nf`. Results that need a law of arithmetic ask for it. Rounding takes ties to the even
neighbour, and times are microseconds since the epoch, the resolution of `datetime`, from
its least to its greatest value. -/
namespace ContextOS

class PyFloat (R : Type) extends Field R, LinearOrder R, FloorRing R where
  sqrt : R → R
  log : R → R
  halfPow : R → R
  fixed : Nat → R → String

namespace PyFloat
variable {R : Type} [PyFloat R]

def roundHalfEven (x : R) : Int :=
  let low := ⌊x⌋
  if x - low < 0.5 then low
  else if 0.5 < x - low then low + 1
  else if low % 2 = 0 then low else low + 1

def round (x : R) (digits : Nat) : R := (roundHalfEven (x * 10 ^ digits) : R) / 10 ^ digits

variable [IsStrictOrderedRing R]

theorem roundHalfEvenNear (x : R) : |(roundHalfEven x : R) - x| ≤ 1 / 2 := by
  have low := Int.floor_le x
  have high := Int.lt_floor_add_one x
  rw [abs_le]
  simp only [roundHalfEven]
  split
  · constructor <;> linarith
  · split
    · push_cast
      constructor <;> linarith
    · split
      · constructor <;> linarith
      · push_cast
        constructor <;> linarith

theorem roundHalfEvenInt (n : Int) : roundHalfEven (n : R) = n := by
  have half : (0 : R) < 0.5 := by norm_num
  simp only [roundHalfEven, Int.floor_intCast, sub_self, if_pos half]

theorem roundNear (x : R) (digits : Nat) : |round x digits - x| ≤ 1 / 2 / 10 ^ digits := by
  have positive : (0 : R) < 10 ^ digits := by positivity
  have near := roundHalfEvenNear (x * 10 ^ digits)
  have scaled : round x digits - x = ((roundHalfEven (x * 10 ^ digits) : R) - x * 10 ^ digits) / 10 ^ digits := by
    rw [round, sub_div, mul_div_cancel_right₀ _ positive.ne']
  rw [scaled, abs_div, abs_of_pos positive]
  exact (div_le_div_iff_of_pos_right positive).mpr near

theorem roundExact (n : Int) (digits : Nat) : round ((n : R) / 10 ^ digits) digits = n / 10 ^ digits := by
  have positive : (0 : R) < 10 ^ digits := by positivity
  rw [round, div_mul_cancel₀ _ positive.ne', roundHalfEvenInt]

end PyFloat

/-- Arithmetic without rounding: an ordered field with its square roots and powers. -/
class ExactFloat (R : Type) [PyFloat R] : Prop extends IsStrictOrderedRing R where
  sqrtNonneg : ∀ x : R, 0 ≤ x → 0 ≤ PyFloat.sqrt x
  sqrtSquare : ∀ x : R, 0 ≤ x → PyFloat.sqrt x * PyFloat.sqrt x = x
  halfPowNonneg : ∀ x : R, 0 ≤ PyFloat.halfPow x

abbrev Time := Int

def minTime : Time := -62135596800000000
def maxTime : Time := 253402300799999999

/-- `xs[:k]`, where a negative `k` counts from the end. -/
def sliceTo {α : Type} (xs : List α) (k : Int) : List α :=
  if 0 ≤ k then xs.take k.toNat else xs.take (xs.length - k.natAbs)

theorem sliceToMember {α : Type} {xs : List α} {k : Int} {x : α} (member : x ∈ sliceTo xs k) : x ∈ xs := by
  unfold sliceTo at member
  split at member <;> exact List.mem_of_mem_take member

end ContextOS
