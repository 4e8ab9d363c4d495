import Mathlib.Algebra.Ring.Nat
import Mathlib.Data.List.Basic
import Mathlib.Tactic.Common

/-! Joining with a separator: what the parts must leave out for the join to determine them,
and how long it is. The last separator cuts a text in one way only. -/
namespace ContextOS.Lib

universe u

theorem lastCut {α : Type u} {sep : α} {front front' back back' : List α} (free : sep ∉ back) (free' : sep ∉ back')
    (same : front ++ sep :: back = front' ++ sep :: back') : front = front' ∧ back = back' := by
  rcases List.append_eq_append_iff.mp same with ⟨middle, rfl, rest⟩ | ⟨middle, rfl, rest⟩
  · cases middle with
    | nil => exact ⟨by simp, by simpa using rest⟩
    | cons x middle =>
      obtain ⟨rfl, rfl⟩ := List.cons.inj rest
      exact absurd (by simp) free
  · cases middle with
    | nil => exact ⟨by simp, by simpa using rest.symm⟩
    | cons x middle =>
      obtain ⟨rfl, rfl⟩ := List.cons.inj rest
      exact absurd (by simp) free'

theorem joinPair {sep : Char} {a a' b b' : String} (free : sep ∉ b.toList) (free' : sep ∉ b'.toList)
    (same : (String.singleton sep).intercalate [a, b] = (String.singleton sep).intercalate [a', b']) :
    a = a' ∧ b = b' := by
  have chars := congrArg String.toList same
  simp only [String.toList_intercalate, String.toList_singleton, List.map_cons, List.map_nil, List.intercalate,
    List.intersperse_cons_cons, List.intersperse_singleton, List.flatten_cons, List.flatten_nil, List.append_nil,
    List.singleton_append] at chars
  obtain ⟨first, second⟩ := lastCut free free' chars
  exact ⟨String.toList_inj.mp first, String.toList_inj.mp second⟩

theorem joinLength (sep : Char) (ps : List String) (some : ps ≠ []) :
    ((String.singleton sep).intercalate ps).length + 1 = (ps.map (fun p => p.length + 1)).sum := by
  simp only [← String.length_toList, String.toList_intercalate, String.toList_singleton]
  induction ps with
  | nil => contradiction
  | cons p rest ih =>
    cases rest with
    | nil => simp
    | cons q rest =>
      have later := ih (by simp)
      simp only [List.map_cons, List.intercalate, List.intersperse_cons_cons, List.flatten_cons, List.length_append,
        List.length_singleton, List.sum_cons] at later ⊢
      omega

theorem joinFree {sep c : Char} {ps : List String} (other : c ≠ sep) (free : ∀ p ∈ ps, c ∉ p.toList) :
    c ∉ ((String.singleton sep).intercalate ps).toList := by
  simp only [String.toList_intercalate, String.toList_singleton]
  induction ps with
  | nil => simp
  | cons p rest ih =>
    obtain ⟨first, free⟩ := List.forall_mem_cons.mp free
    cases rest with
    | nil => simpa using first
    | cons q rest =>
      have later := ih free
      simp only [List.map_cons, List.intercalate, List.intersperse_cons_cons, List.flatten_cons, List.mem_append,
        List.mem_singleton, not_or] at later ⊢
      exact ⟨first, other, later⟩

theorem joinParts {sep : Char} {ps qs : List String} (free : ∀ p ∈ ps, sep ∉ p.toList)
    (free' : ∀ q ∈ qs, sep ∉ q.toList) (some : ps ≠ []) (some' : qs ≠ [])
    (same : (String.singleton sep).intercalate ps = (String.singleton sep).intercalate qs) : ps = qs := by
  have chars := congrArg (fun s => s.toList.splitOn sep) same
  simp only [String.toList_intercalate, String.toList_singleton] at chars
  rw [List.splitOn_intercalate sep (by simpa using free) (by simpa using some),
    List.splitOn_intercalate sep (by simpa using free') (by simpa using some')] at chars
  exact List.map_injective_iff.mpr (fun _ _ => String.toList_inj.mp) chars

theorem joinCancel {sep m m' : String} (front back : List String)
    (same : sep.intercalate (front ++ m :: back) = sep.intercalate (front ++ m' :: back)) : m = m' := by
  have chars := congrArg String.toList same
  simp only [String.toList_intercalate, List.map_append, List.map_cons] at chars
  clear same
  induction front with
  | nil =>
    cases back with
    | nil => exact String.toList_inj.mp (by simpa [List.intercalate] using chars)
    | cons next back =>
      simp only [List.map_nil, List.nil_append, List.map_cons, List.intercalate, List.intersperse_cons_cons,
        List.flatten_cons] at chars
      exact String.toList_inj.mp (List.append_cancel_right chars)
  | cons first front ih =>
    refine ih ?_
    cases front <;> simpa [List.intercalate] using chars

section Pieces
variable {α : Type u} [BEq α] [LawfulBEq α] {sep : α}

theorem splitPrefix {front : List α} (free : sep ∉ front) (xs : List α) :
    (front ++ xs).splitOn sep = (xs.splitOn sep).modifyHead (front ++ ·) := by
  induction front with
  | nil =>
    rw [List.nil_append]
    cases xs.splitOn sep <;> rfl
  | cons x front ih =>
    obtain ⟨other, free⟩ := not_or.mp (List.mem_cons.not.mp free)
    rw [List.cons_append, List.splitOn_cons_eq_if_modifyHead, if_neg (by simpa using Ne.symm other), ih free]
    cases xs.splitOn sep <;> rfl

variable (sep) in
theorem splitPieces (xs : List α) : ∀ piece ∈ xs.splitOn sep, sep ∉ piece := by
  induction xs with
  | nil => simp
  | cons x xs ih =>
    rw [List.splitOn_cons_eq_if_modifyHead]
    split
    · simpa using ih
    · rename_i other
      obtain ⟨piece, rest, split⟩ := List.exists_cons_of_ne_nil (List.splitOn_ne_nil sep xs)
      rw [split, List.forall_mem_cons] at ih
      rw [split, List.modifyHead_cons, List.forall_mem_cons]
      refine ⟨fun member => ?_, ih.2⟩
      rcases List.mem_cons.mp member with rfl | inside
      · simp at other
      · exact ih.1 inside

variable (sep) in
theorem splitJoined (parts : List (List α)) (some : parts ≠ []) :
    ([sep].intercalate parts).splitOn sep = (parts.map (·.splitOn sep)).flatten := by
  induction parts with
  | nil => contradiction
  | cons part rest ih =>
    cases rest with
    | nil => simp [List.intercalate]
    | cons next rest =>
      have later := ih (by simp)
      rw [List.intercalate_cons_cons, List.append_assoc, List.singleton_append, List.splitOn_append_cons_self, later]
      rfl

omit [BEq α] [LawfulBEq α] in
theorem joinPrefix (front x : List α) (rest : List (List α)) :
    [sep].intercalate ((front ++ x) :: rest) = front ++ [sep].intercalate (x :: rest) := by
  cases rest with
  | nil => simp [List.intercalate]
  | cons next rest => simp [List.intercalate]

end Pieces

end ContextOS.Lib
