import ContextOS.Lib.Digits
import Mathlib.Data.Char
import Mathlib.Data.String.Basic
import Mathlib.Data.Nat.Bitwise
import Mathlib.Tactic.NormNum

/-! Identifiers of `models/common.py`: 48 bits of milliseconds above 80 random bits, written
in Crockford's base 32. -/
namespace ContextOS
open Lib

def crockford : List Char := "0123456789ABCDEFGHJKMNPQRSTVWXYZ".toList

theorem crockfordIndex (value : ℕ) : value &&& 0x1F < crockford.length := Nat.and_lt_two_pow value (by decide : 0x1F < 2 ^ 5)

-- the characters in the order in which the loop appends them, the last digit first
def ulidChars : ℕ → ℕ → List Char
  | 0, _ => []
  | rounds + 1, value => crockford.get ⟨value &&& 0x1F, crockfordIndex value⟩ :: ulidChars rounds (value >>> 5)

/-- `clock` is `int(time.time() * 1000)`, `random` the big-endian number of `os.urandom(10)`. -/
def newUlid (clock : ℕ) (random : Fin (2 ^ 80)) : String :=
  let ms := clock &&& ((1 <<< 48) - 1)
  let value := (ms <<< 80) ||| random.val
  String.ofList (ulidChars 26 value).reverse

def crockfordDigit (digit : ℕ) : Char := crockford.getD digit '0'

theorem crockfordRising : StrictMonoOn crockfordDigit (Set.Iio 32) := by
  have rising : ∀ i < 32, ∀ j < 32, i < j → crockfordDigit i < crockfordDigit j := by decide
  exact fun i below j below' less => rising i below j below' less

theorem ulidCharsDigits (rounds value : ℕ) : ulidChars rounds value = (lowDigits 32 rounds value).map crockfordDigit := by
  induction rounds generalizing value with
  | zero => rfl
  | succ rounds ih =>
    have low : value &&& 0x1F = value % 32 := Nat.and_two_pow_sub_one_eq_mod value 5
    have high : value >>> 5 = value / 32 := Nat.shiftRight_eq_div_pow value 5
    have symbol : crockford.get ⟨value &&& 0x1F, crockfordIndex value⟩ = crockfordDigit (value &&& 0x1F) :=
      (List.getD_eq_getElem crockford '0' (crockfordIndex value)).symm
    rw [ulidChars, symbol, ih, low, high, lowDigits, List.map_cons]

theorem newUlidSpelled {clock : ℕ} (fits : clock < 2 ^ 48) (random : Fin (2 ^ 80)) :
    (newUlid clock random).toList = spelled crockfordDigit 32 26 (clock * 2 ^ 80 + random.val) := by
  have masked : clock &&& ((1 <<< 48) - 1) = clock := by
    rw [Nat.one_shiftLeft, Nat.and_two_pow_sub_one_eq_mod, Nat.mod_eq_of_lt fits]
  have disjoint : clock <<< 80 ||| random.val = clock * 2 ^ 80 + random.val := by
    rw [← Nat.shiftLeft_add_eq_or_of_lt random.isLt, Nat.shiftLeft_eq]
  simp only [newUlid, masked, disjoint, String.toList_ofList, ulidCharsDigits, spelled]

theorem ulidNumberFits {clock : ℕ} (fits : clock < 2 ^ 48) (random : Fin (2 ^ 80)) :
    clock * 2 ^ 80 + random.val ∈ Set.Iio (32 ^ 26) := by
  have below := random.isLt
  rw [Set.mem_Iio]
  omega

theorem ulidNumberLe (clock clock' : ℕ) (random random' : Fin (2 ^ 80)) :
    clock * 2 ^ 80 + random.val ≤ clock' * 2 ^ 80 + random'.val ↔ clock < clock' ∨ (clock = clock' ∧ random.val ≤ random'.val) := by
  have below := random.isLt
  have below' := random'.isLt
  omega

structure UlidOrdered (clock clock' : ℕ) (random random' : Fin (2 ^ 80)) : Prop where
  length : (newUlid clock random).length = 26
  ordered : newUlid clock random ≤ newUlid clock' random' ↔ clock < clock' ∨ (clock = clock' ∧ random.val ≤ random'.val)
  distinct : newUlid clock random = newUlid clock' random' ↔ clock = clock' ∧ random = random'
  earlier : clock < clock' → ¬ newUlid clock' random' ≤ newUlid clock random

theorem newUlidOrdered {clock clock' : ℕ} (fits : clock < 2 ^ 48) (fits' : clock' < 2 ^ 48) (random random' : Fin (2 ^ 80)) :
    UlidOrdered clock clock' random random' := by
  have embedded : ∀ {early late : ℕ} (r r' : Fin (2 ^ 80)), early < 2 ^ 48 → late < 2 ^ 48 →
      (newUlid early r ≤ newUlid late r' ↔ early < late ∨ (early = late ∧ r.val ≤ r'.val)) := by
    intro early late r r' small small'
    rw [String.le_iff_toList_le, newUlidSpelled small, newUlidSpelled small',
      (spelledStrictMono crockfordRising 26).le_iff_le (ulidNumberFits small r) (ulidNumberFits small' r'), ulidNumberLe]
  refine ⟨?_, embedded random random' fits fits', ⟨fun same => ?_, ?_⟩, fun sooner => ?_⟩
  · rw [← String.length_toList, newUlidSpelled fits, spelledLength]
  · have forth := (embedded random random' fits fits').mp same.le
    have back := (embedded random' random fits' fits).mp same.ge
    rcases forth with sooner | ⟨equal, less⟩
    · omega
    · rcases back with sooner | ⟨_, more⟩
      · omega
      · exact ⟨equal, Fin.ext (le_antisymm less more)⟩
  · rintro ⟨rfl, rfl⟩
    rfl
  · rw [embedded random' random fits' fits]
    omega

/-- The last millisecond of the range sorts after the first, whatever the random bits. -/
theorem newUlidExtremes : UlidOrdered 0 (2 ^ 48 - 1) ⟨2 ^ 80 - 1, by decide⟩ ⟨0, by decide⟩ :=
  newUlidOrdered (by decide) (by decide) _ _

end ContextOS
