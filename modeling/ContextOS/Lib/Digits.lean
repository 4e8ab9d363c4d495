import Mathlib.Data.List.Lex
import Mathlib.Algebra.Ring.Nat
import Mathlib.Order.Lattice
import Mathlib.Order.Monotone.Basic
import Mathlib.Order.Interval.Set.Defs

/-! Numbers spelled out by a fixed count of digits. With the highest digit first and symbols
that rise with the digits, spellings are ordered as the numbers are. -/
namespace ContextOS.Lib

universe u

/-- The `count` lowest digits, lowest first. -/
def lowDigits (base : ℕ) : ℕ → ℕ → List ℕ
  | 0, _ => []
  | count + 1, value => value % base :: lowDigits base count (value / base)

@[simp] theorem lowDigitsLength (base count value : ℕ) : (lowDigits base count value).length = count := by
  induction count generalizing value with
  | zero => rfl
  | succ count ih => simp [lowDigits, ih]

variable {α : Type u}

/-- The digits of `value` written with `symbol`, highest first. -/
def spelled (symbol : ℕ → α) (base count value : ℕ) : List α := ((lowDigits base count value).map symbol).reverse

@[simp] theorem spelledLength (symbol : ℕ → α) (base count value : ℕ) :
    (spelled symbol base count value).length = count := by simp [spelled]

theorem spelledSucc (symbol : ℕ → α) (base count value : ℕ) :
    spelled symbol base (count + 1) value = spelled symbol base count (value / base) ++ [symbol (value % base)] := by
  simp [spelled, lowDigits]

variable [LinearOrder α]

theorem appendLt {xs ys : List α} (same : xs.length = ys.length) (less : xs < ys) (x y : α) : xs ++ [x] < ys ++ [y] := by
  induction xs generalizing ys with
  | nil =>
    obtain rfl := List.length_eq_zero_iff.mp same.symm
    exact absurd less (lt_irrefl _)
  | cons a xs ih =>
    cases ys with
    | nil => cases same
    | cons b ys =>
      rw [List.cons_append, List.cons_append, List.cons_lt_cons_iff]
      rcases List.cons_lt_cons_iff.mp less with head | ⟨equal, tail⟩
      · exact .inl head
      · exact .inr ⟨equal, ih (Nat.succ.inj same) tail⟩

theorem spelledStrictMono {symbol : ℕ → α} {base : ℕ} (rising : StrictMonoOn symbol (Set.Iio base)) (count : ℕ) :
    StrictMonoOn (spelled symbol base count) (Set.Iio (base ^ count)) := by
  intro value fits value' fits' less
  induction count generalizing value value' with
  | zero => rw [Set.mem_Iio, pow_zero] at fits fits'; omega
  | succ count ih =>
    have positive : 0 < base := Nat.pos_of_ne_zero fun zero => by simp [zero] at fits
    rw [spelledSucc, spelledSucc]
    -- The last digit decides only where all the higher ones agree.
    rcases (Nat.div_le_div_right less.le (c := base)).lt_or_eq with higher | equal
    · refine appendLt (by simp) (ih (Nat.div_lt_of_lt_mul ?_) (Nat.div_lt_of_lt_mul ?_) higher) _ _
      · rwa [← pow_succ']
      · rwa [← pow_succ']
    · rw [equal]
      refine List.append_left_lt (List.cons_lt_cons_iff.mpr (.inl (rising (Nat.mod_lt _ positive) (Nat.mod_lt _ positive) ?_)))
      have split := Nat.div_add_mod value base
      have split' := Nat.div_add_mod value' base
      rw [equal] at split
      omega

end ContextOS.Lib
