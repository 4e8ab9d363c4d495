import ContextOS.Lib.Ranking
import Mathlib.Algebra.Order.Field.Basic

/-! Maximal marginal relevance: relevance weighed against the greatest similarity to what is
selected. The direct definition recomputes the maximum over the whole selection. A maximum
that is raised step by step from zero is the same one with negative values read as zero. -/
namespace ContextOS.Lib

universe u v
variable {α : Type u} {R : Type v} [Field R] [LinearOrder R]

def nearest (sim : α → α → R) (taken : List α) (x : α) : R := ((taken.map (sim x)).max?).getD 0

def marginal (lam : R) (relevance : α → R) (sim : α → α → R) (taken : List α) (x : α) : R :=
  lam * relevance x - (1 - lam) * nearest sim taken x

def flooredMarginal (lam : R) (relevance : α → R) (sim : α → α → R) (taken : List α) (x : α) : R :=
  lam * relevance x - (1 - lam) * max 0 (nearest sim taken x)

variable {lam : R} {relevance : α → R} {sim : α → α → R} {taken : List α} {x y : α}

theorem nearestSnoc (some : taken ≠ []) (s : α) : nearest sim (taken ++ [s]) x = max (nearest sim taken x) (sim x s) := by
  cases taken with
  | nil => contradiction
  | cons t rest =>
    simp only [nearest, List.map_append, List.map_cons, List.map_nil, List.cons_append, List.max?_cons', List.foldl_append,
      List.foldl_cons, List.foldl_nil, Option.getD_some]

theorem flooredSnoc (s : α) : max 0 (nearest sim (taken ++ [s]) x) = max (max 0 (nearest sim taken x)) (sim x s) := by
  by_cases none : taken = []
  · subst none
    simp [nearest]
  · rw [nearestSnoc none, max_assoc]

theorem flooredSame (positive : 0 ≤ nearest sim taken x) :
    flooredMarginal lam relevance sim taken x = marginal lam relevance sim taken x := by
  rw [flooredMarginal, marginal, max_eq_right positive]

variable [IsStrictOrderedRing R]

theorem flooredMost (relevance : α → R) (sim : α → α → R) (taken : List α) (x : α)
    (weight : lam ≤ 1) : flooredMarginal lam relevance sim taken x ≤ marginal lam relevance sim taken x := by
  have penalty : (1 - lam) * nearest sim taken x ≤ (1 - lam) * max 0 (nearest sim taken x) :=
    mul_le_mul_of_nonneg_left (le_max_right 0 _) (sub_nonneg.mpr weight)
  exact sub_le_sub_left penalty _

/-- What beats with a similarity that is not negative beats with the floor as well. -/
theorem flooredBeats {ahead : α → α → Prop} (weight : lam ≤ 1) (positive : 0 ≤ nearest sim taken x)
    (beats : Beats (marginal lam relevance sim) ahead taken x y) : Beats (flooredMarginal lam relevance sim) ahead taken x y := by
  have below := flooredMost relevance sim taken y weight
  unfold Beats
  rw [flooredSame positive]
  rcases beats with higher | ⟨same, before⟩
  · exact .inl (below.trans_lt higher)
  · exact (below.trans_eq same).lt_or_eq.imp_right fun equal => ⟨equal, before⟩

end ContextOS.Lib
