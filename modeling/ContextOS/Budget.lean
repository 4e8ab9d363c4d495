import ContextOS.Models
import Mathlib.Algebra.Order.Ring.Rat
import Mathlib.Tactic.NormNum

/-! Token counting, the hard and soft parts of a window, and the ranking weights. A ratio
of zero characters per token is left out: counting would divide by it. -/
namespace ContextOS

structure Tokenizer where
  count : String → Int

structure HeuristicTokenizer where
  charsPerToken : Rat
  nonzero : charsPerToken ≠ 0

namespace HeuristicTokenizer

def count (t : HeuristicTokenizer) (text : String) : Int :=
  if text.isEmpty then 0 else max 1 ⌈(text.length : Rat) / t.charsPerToken⌉

def default : HeuristicTokenizer := ⟨4, by decide⟩

def toTokenizer (t : HeuristicTokenizer) : Tokenizer := ⟨t.count⟩

def countLength (t : HeuristicTokenizer) (length : Nat) : Int :=
  if length = 0 then 0 else max 1 ⌈(length : Rat) / t.charsPerToken⌉

theorem countOfLength (t : HeuristicTokenizer) (text : String) : t.count text = t.countLength text.length := by
  simp [count, countLength, String.isEmpty_iff]

theorem countNonneg (t : HeuristicTokenizer) (text : String) : 0 ≤ t.count text := by
  unfold count
  split
  · exact le_refl 0
  · exact le_trans (by decide) (le_max_left 1 _)

end HeuristicTokenizer

-- the double `1.0 + TOKENIZER_SAFETY_MARGIN`, in units of its last place, 2 ^ -52
def tokenizerSafetyFactor : Nat := 4863887597560136

-- to the 53 bits of a double, ties to the even one
def roundBits (n : Nat) : Nat :=
  let unit := 2 ^ (n.log2 - 52)
  let half := 2 * (n % unit)
  (if unit < half ∨ (half = unit ∧ n / unit % 2 = 1) then n / unit + 1 else n / unit) * unit

/-- The product is that of doubles, which can come to lie above a whole number that the exact one reaches. -/
def conservativeCount (tokenizer : Option Tokenizer) (text : String) : Int :=
  let base := (tokenizer.getD HeuristicTokenizer.default.toTokenizer).count text
  let product := roundBits (roundBits base.natAbs * tokenizerSafetyFactor)
  ⌈(base.sign * product : Rat) / 2 ^ 52⌉

def Tokenizer.NonNegative (t : Tokenizer) : Prop := ∀ text, 0 ≤ t.count text

theorem heuristicNonneg : ∀ t ∈ some HeuristicTokenizer.default.toTokenizer, t.NonNegative := by
  intro t given text
  cases Option.some.inj given
  exact HeuristicTokenizer.default.countNonneg text

theorem conservativeNonneg (text : String) : 0 ≤ conservativeCount none text := by
  have base : 0 ≤ (HeuristicTokenizer.default.count text).sign :=
    Int.sign_nonneg_iff.mpr (HeuristicTokenizer.default.countNonneg text)
  have signed : (0 : Rat) ≤ ((HeuristicTokenizer.default.count text).sign : Rat) := Int.cast_nonneg base
  exact Int.ceil_nonneg (div_nonneg (mul_nonneg signed (Nat.cast_nonneg _)) (by norm_num))

-- 225 tokens with the margin are 243, and the doubles make 244 of them
example : ⌈(roundBits (225 * tokenizerSafetyFactor) : Rat) / 2 ^ 52⌉ = 244 := by decide +kernel

structure TokenBudget where
  windowTokens : Int
  outputReserve : Int
  systemReserve : Int
  latestUserReserve : Int
  deriving DecidableEq, Repr

namespace TokenBudget

def hardFloor (b : TokenBudget) : Int := b.outputReserve + b.systemReserve + b.latestUserReserve

def softBudget (b : TokenBudget) : Int := max 0 (b.windowTokens - b.hardFloor)

end TokenBudget

def checkHardReserves (b : TokenBudget) : Except PyError Unit :=
  if b.windowTokens < b.hardFloor then
    .error ⟨.contextOverflow, s!"hard reserves ({b.hardFloor} tok) exceed window ({b.windowTokens} tok); " ++
      "cannot satisfy without truncating the system prompt or the user's turn"⟩
  else .ok ()

theorem checkedReserves {b : TokenBudget} (ok : checkHardReserves b = .ok ()) :
    b.hardFloor ≤ b.windowTokens ∧ b.softBudget = b.windowTokens - b.hardFloor := by
  unfold checkHardReserves at ok
  split at ok <;> try contradiction
  rename_i fits
  exact ⟨by omega, by unfold TokenBudget.softBudget; omega⟩

theorem refusedReserves {b : TokenBudget} (exceeds : b.windowTokens < b.hardFloor) :
    ∃ e, checkHardReserves b = .error e ∧ e.kind = .contextOverflow := ⟨_, if_pos exceeds, rfl⟩

variable {R : Type} [PyFloat R]

structure RankWeights (R : Type) where
  vector : R
  lexical : R
  recency : R
  importance : R
  source : R
  deriving DecidableEq

namespace RankWeights

def default : RankWeights R := ⟨0.4, 0.2, 0.15, 0.15, 0.1⟩

def total (w : RankWeights R) : R := w.vector + w.lexical + w.recency + w.importance + w.source

def validate (w : RankWeights R) : Except PyError Unit :=
  if 1e-6 < |w.total - 1| then
    .error ⟨.policyError, "RankWeights must sum to 1.0, got " ++ PyFloat.fixed 6 w.total⟩
  else .ok ()

end RankWeights
end ContextOS
