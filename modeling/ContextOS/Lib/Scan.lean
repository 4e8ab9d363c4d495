import Mathlib.Order.MinMax
import Mathlib.Tactic.Common

/-! Single passes over a list: maximal runs of a class of symbols, the position of the
first maximum of a score, and the extreme elements. -/
namespace ContextOS.Lib

universe u v

section Runs
variable {α : Type u} (p : α → Bool)

def runsFrom (cur : List α) : List α → List (List α)
  | [] => if cur.isEmpty then [] else [cur.reverse]
  | c :: rest =>
    if p c then runsFrom (c :: cur) rest
    else if cur.isEmpty then runsFrom [] rest
    else cur.reverse :: runsFrom [] rest

def runs (xs : List α) : List (List α) := runsFrom p [] xs

theorem runsFromAll {cur : List α} (read : ∀ c ∈ cur, p c = true) (xs : List α) :
    ∀ run ∈ runsFrom p cur xs, ∀ c ∈ run, p c = true := by
  induction xs generalizing cur with
  | nil =>
    intro run member
    simp only [runsFrom] at member
    split at member
    · simp at member
    · rw [List.mem_singleton] at member
      subst member
      simpa using read
  | cons c rest ih =>
    intro run member
    simp only [runsFrom] at member
    split at member
    · exact ih (by simpa using ⟨by assumption, read⟩) run member
    · split at member
      · exact ih (by simp) run member
      · rcases List.mem_cons.mp member with same | later
        · subst same
          simpa using read
        · exact ih (by simp) run later

theorem runsAll (xs : List α) : ∀ run ∈ runs p xs, ∀ c ∈ run, p c = true :=
  runsFromAll p (by simp) xs

variable {p}

theorem runsFromSeparated {c : α} (outside : p c = false) (cur xs ys : List α) :
    runsFrom p cur (xs ++ c :: ys) = runsFrom p cur xs ++ runs p ys := by
  induction xs generalizing cur with
  | nil =>
    simp only [List.nil_append, runsFrom, outside, Bool.false_eq_true, if_false, runs]
    split <;> rfl
  | cons x rest ih =>
    simp only [List.cons_append, runsFrom]
    split
    · exact ih (x :: cur)
    · split
      · exact ih []
      · rw [ih [], List.cons_append]

theorem runsSeparated {c : α} (outside : p c = false) (xs ys : List α) : runs p (xs ++ c :: ys) = runs p xs ++ runs p ys :=
  runsFromSeparated outside [] xs ys

theorem runsLast {c : α} (outside : p c = false) (xs : List α) : runs p (xs ++ [c]) = runs p xs := by
  rw [runsSeparated outside]
  exact List.append_nil _

theorem runsFirst {c : α} (outside : p c = false) (ys : List α) : runs p (c :: ys) = runs p ys :=
  runsSeparated outside [] ys

/-- What is read after a common start does not depend on how the start was read. -/
theorem runsFromPrefix {ys zs : List α} (same : ∀ cur, runsFrom p cur ys = runsFrom p cur zs) (xs cur : List α) :
    runsFrom p cur (xs ++ ys) = runsFrom p cur (xs ++ zs) := by
  induction xs generalizing cur with
  | nil => exact same cur
  | cons x rest ih =>
    simp only [List.cons_append, runsFrom, ih]

theorem runsFromSome {cur : List α} (xs : List α) : ∀ run ∈ runsFrom p cur xs, run ≠ [] := by
  induction xs generalizing cur with
  | nil =>
    intro run member
    simp only [runsFrom] at member
    split at member
    · simp at member
    · rename_i some
      rw [List.mem_singleton.mp member]
      simpa using some
  | cons c rest ih =>
    intro run member
    simp only [runsFrom] at member
    split at member
    · exact ih run member
    · split at member
      · exact ih run member
      · rename_i some
        rcases List.mem_cons.mp member with rfl | later
        · simpa using some
        · exact ih run later

theorem runsFromWhole {xs : List α} (inside : ∀ c ∈ xs, p c = true) (cur : List α) (some : cur.reverse ++ xs ≠ []) :
    runsFrom p cur xs = [cur.reverse ++ xs] := by
  induction xs generalizing cur with
  | nil => simpa [runsFrom] using some
  | cons c rest ih =>
    obtain ⟨here, later⟩ := List.forall_mem_cons.mp inside
    rw [runsFrom, if_pos here, ih later (c :: cur) (by simp)]
    simp

/-- Runs that are written out again, each closed by a symbol outside the class, are read as they were. -/
theorem runsClosed {c : α} (outside : p c = false) (xs : List α) :
    runs p ((runs p xs).flatMap (fun run => run ++ [c])) = runs p xs := by
  have all := runsAll p xs
  have some : ∀ run ∈ runs p xs, run ≠ [] := runsFromSome xs
  generalize runs p xs = read at all some
  induction read with
  | nil => rfl
  | cons run rest ih =>
    obtain ⟨here, later⟩ := List.forall_mem_cons.mp all
    obtain ⟨nonempty, others⟩ := List.forall_mem_cons.mp some
    have whole : runs p run = [run] := runsFromWhole here [] (by simpa using nonempty)
    rw [List.flatMap_cons, List.append_assoc, List.singleton_append, runsSeparated outside, ih later others, whole]
    rfl

end Runs

section Argmax
variable {α : Type u} {κ : Type v} [LinearOrder κ] (score : α → κ)

def argmaxFrom (position best : Nat) (top : κ) : List α → Nat
  | [] => best
  | x :: rest =>
    if top < score x then argmaxFrom (position + 1) position (score x) rest
    else argmaxFrom (position + 1) best top rest

def argmax : List α → Option Nat
  | [] => none
  | x :: rest => some (argmaxFrom score 1 0 (score x) rest)

theorem argmaxFromCongr {score score' : α → κ} {xs : List α} (same : ∀ x ∈ xs, score x = score' x) (position best : Nat)
    (top : κ) : argmaxFrom score position best top xs = argmaxFrom score' position best top xs := by
  induction xs generalizing position best top with
  | nil => rfl
  | cons x rest ih =>
    obtain ⟨here, later⟩ := List.forall_mem_cons.mp same
    simp only [argmaxFrom, here, ih later]

theorem argmaxCongr {score score' : α → κ} {xs : List α} (same : ∀ x ∈ xs, score x = score' x) :
    argmax score xs = argmax score' xs := by
  cases xs with
  | nil => rfl
  | cons x rest =>
    obtain ⟨here, later⟩ := List.forall_mem_cons.mp same
    simp only [argmax, here, argmaxFromCongr later]

structure FirstMax (front : List α) (x : α) (back : List α) : Prop where
  earlier : ∀ y ∈ front, score y < score x
  later : ∀ y ∈ back, score y ≤ score x

theorem argmaxFromSplit (position best : Nat) (top : κ) (xs : List α) :
    ((∀ y ∈ xs, score y ≤ top) ∧ argmaxFrom score position best top xs = best) ∨
    ∃ front x back, xs = front ++ x :: back ∧ top < score x ∧ FirstMax score front x back ∧
      argmaxFrom score position best top xs = position + front.length := by
  induction xs generalizing position best top with
  | nil => exact .inl ⟨by simp, rfl⟩
  | cons x rest ih =>
    unfold argmaxFrom
    by_cases above : top < score x
    · rw [if_pos above]
      rcases ih (position + 1) position (score x) with ⟨low, same⟩ | ⟨front, y, back, rfl, higher, first, found⟩
      · exact .inr ⟨[], x, rest, rfl, above, ⟨by simp, low⟩, same⟩
      · refine .inr ⟨x :: front, y, back, rfl, above.trans higher, ⟨?_, first.later⟩, ?_⟩
        · exact List.forall_mem_cons.mpr ⟨higher, first.earlier⟩
        · rw [found, List.length_cons]
          omega
    · rw [if_neg above]
      have below : score x ≤ top := not_lt.mp above
      rcases ih (position + 1) best top with ⟨low, same⟩ | ⟨front, y, back, rfl, higher, first, found⟩
      · exact .inl ⟨List.forall_mem_cons.mpr ⟨below, low⟩, same⟩
      · refine .inr ⟨x :: front, y, back, rfl, higher, ⟨?_, first.later⟩, ?_⟩
        · exact List.forall_mem_cons.mpr ⟨below.trans_lt higher, first.earlier⟩
        · rw [found, List.length_cons]
          omega

theorem argmaxSplit {xs : List α} (some : xs ≠ []) : ∃ front x back, xs = front ++ x :: back ∧
    FirstMax score front x back ∧ argmax score xs = .some front.length := by
  cases xs with
  | nil => contradiction
  | cons x rest =>
    simp only [argmax]
    rcases argmaxFromSplit score 1 0 (score x) rest with ⟨low, same⟩ | ⟨front, y, back, rfl, higher, first, found⟩
    · exact ⟨[], x, rest, rfl, ⟨by simp, low⟩, by rw [same]; rfl⟩
    · refine ⟨x :: front, y, back, rfl, ⟨List.forall_mem_cons.mpr ⟨higher, first.earlier⟩, first.later⟩, ?_⟩
      rw [found, List.length_cons, Nat.add_comm]

end Argmax

section Extremes
variable {κ : Type v} [LinearOrder κ] {xs ys : List κ}

theorem maxIff {top : κ} : xs.max? = some top ↔ top ∈ xs ∧ ∀ x ∈ xs, x ≤ top := by
  have : Std.MaxEqOr κ := ⟨max_choice⟩
  have : Std.LawfulOrderMax κ := ⟨⟩
  exact List.max?_eq_some_iff

theorem minIff {low : κ} : xs.min? = some low ↔ low ∈ xs ∧ ∀ x ∈ xs, low ≤ x := by
  have : Std.MinEqOr κ := ⟨min_choice⟩
  have : Std.LawfulOrderMin κ := ⟨⟩
  exact List.min?_eq_some_iff

theorem maxPerm (same : xs.Perm ys) : xs.max? = ys.max? := by
  cases found : xs.max? with
  | none =>
    have empty : xs = [] := List.max?_eq_none_iff.mp found
    subst empty
    rw [List.nil_perm.mp same, List.max?_nil]
  | some top =>
    obtain ⟨inside, above⟩ := maxIff.mp found
    exact (maxIff.mpr ⟨same.mem_iff.mp inside, fun x member => above x (same.mem_iff.mpr member)⟩).symm

end Extremes
end ContextOS.Lib
