import Mathlib.Data.List.Basic
import Mathlib.Order.Basic
import Mathlib.Tactic.Common

/-! Cutting a list into blocks. A block starts with an opener, and the last block with a
final one; a reading of a list is a way of cutting it so. It is the only one exactly where
one final opener is all there is, with no more than one opener before it. -/
namespace ContextOS.Lib

universe u

variable {α : Type u}

def OpenedBy (opens : α → Bool) (block : List α) : Prop := ∃ x rest, block = x :: rest ∧ opens x

structure Reading (opens final : α → Bool) (l : List α) (blocks : List (List α)) : Prop where
  flatten : blocks.flatten = l
  opened : ∀ block ∈ blocks, OpenedBy opens block
  ended : ∃ init last, blocks = init ++ [last] ∧ OpenedBy final last

/-- One final element, and at most one opener before it. -/
def OneFinal (opens final : α → Bool) (l : List α) : Prop :=
  ∃ front x back, l = front ++ x :: back ∧ final x ∧ (front.filter opens).length ≤ 1 ∧
    (∀ y ∈ front, final y = false) ∧ ∀ y ∈ back, final y = false

section Only
variable {p : α → Bool}

theorem onlySplit {front back front' back' : List α} {x x' : α} (before : ∀ y ∈ front, p y = false) (after : ∀ y ∈ back, p y = false)
    (here : p x') (same : front ++ x :: back = front' ++ x' :: back') : front' = front ∧ x' = x ∧ back' = back := by
  rcases List.append_eq_append_iff.mp same with ⟨middle, rfl, rest⟩ | ⟨middle, rfl, rest⟩
  · cases middle with
    | nil =>
      obtain ⟨rfl, rfl⟩ := List.cons.inj rest
      exact ⟨by simp, rfl, rfl⟩
    | cons y middle =>
      obtain ⟨rfl, rfl⟩ := List.cons.inj rest
      simp [after x' (by simp)] at here
  · cases middle with
    | nil =>
      obtain ⟨rfl, rfl⟩ := List.cons.inj rest
      exact ⟨by simp, rfl, rfl⟩
    | cons y middle =>
      obtain ⟨rfl, rfl⟩ := List.cons.inj rest
      simp [before x' (by simp)] at here

end Only

section Readings
variable {opens final : α → Bool} {l : List α} {init : List (List α)} {block other : List α} {blocks : List (List α)}

theorem openedSome (opened : OpenedBy opens block) : block ≠ [] := by
  obtain ⟨x, rest, rfl, _⟩ := opened
  simp

theorem openedAppend (opened : OpenedBy opens block) (more : List α) : OpenedBy opens (block ++ more) := by
  obtain ⟨x, rest, rfl, first⟩ := opened
  exact ⟨x, rest ++ more, rfl, first⟩

theorem openersCounted (opened : ∀ block ∈ init, OpenedBy opens block) : init.length ≤ (init.flatten.filter opens).length := by
  induction init with
  | nil => exact Nat.le_refl 0
  | cons block init ih =>
    obtain ⟨⟨x, rest, rfl, first⟩, others⟩ := List.forall_mem_cons.mp opened
    have later := ih others
    simp only [List.flatten_cons, List.cons_append, List.filter_cons, first, if_true, List.filter_append, List.length_cons,
      List.length_append]
    omega

theorem oneBlock (opened : ∀ block ∈ init, OpenedBy opens block) (few : (init.flatten.filter opens).length ≤ 1) :
    init = if init.flatten.isEmpty then [] else [init.flatten] := by
  have count := openersCounted opened
  match init, opened, count with
  | [], _, _ => rfl
  | [block], opened, _ =>
    have some := openedSome (opened block List.mem_cons_self)
    simp [some]
  | _ :: _ :: _, _, count =>
    simp only [List.length_cons] at count
    omega

/-- The finals fix the last block, and few openers the blocks before it. -/
theorem readingUnique (one : OneFinal opens final l) {readings : List (List α)} (reading : Reading opens final l blocks)
    (again : Reading opens final l readings) : readings = blocks := by
  obtain ⟨front, x, back, rfl, _, few, before, after⟩ := one
  have fixed : ∀ blocks, Reading opens final (front ++ x :: back) blocks →
      blocks = (if front.isEmpty then [] else [front]) ++ [x :: back] := by
    intro blocks reading
    obtain ⟨init, last, rfl, y, rest, rfl, final⟩ := reading.ended
    have joined : front ++ x :: back = init.flatten ++ y :: rest := by
      rw [← reading.flatten]
      simp
    obtain ⟨same, rfl, rfl⟩ := onlySplit before after final joined
    have alone := oneBlock (fun block member => reading.opened block (List.mem_append_left _ member)) (by rwa [same])
    rw [same] at alone
    rw [alone]
  rw [fixed blocks reading, fixed readings again]

theorem mergedReading {first second : List α} {more : List (List α)} (reading : Reading opens final l (first :: second :: more))
    (ended : more ≠ [] ∨ OpenedBy final first) : Reading opens final l ((first ++ second) :: more) := by
  obtain ⟨firstOpened, later⟩ := List.forall_mem_cons.mp reading.opened
  obtain ⟨_, others⟩ := List.forall_mem_cons.mp later
  refine ⟨by rw [← reading.flatten]; simp, List.forall_mem_cons.mpr ⟨openedAppend firstOpened second, others⟩, ?_⟩
  obtain ⟨init, last, split, lastEnded⟩ := reading.ended
  rcases List.eq_nil_or_concat more with rfl | ⟨early, late, rfl⟩
  · exact ⟨[], first ++ second, rfl, openedAppend (ended.resolve_left (by simp)) second⟩
  · have same : late = last := by
      rw [List.concat_eq_append, ← List.cons_append, ← List.cons_append] at split
      exact List.singleton_inj.mp (List.append_inj' split rfl).2
    exact ⟨(first ++ second) :: early, late, by simp, same ▸ lastEnded⟩

theorem splitReading (before : List (List α)) {after : List (List α)} {x y : α} {left right : List α}
    (reading : Reading opens final l (before ++ (x :: left ++ y :: right) :: after)) (opener : opens y)
    (ended : after ≠ [] ∨ final y) : Reading opens final l (before ++ (x :: left) :: (y :: right) :: after) := by
  have opened := reading.opened
  simp only [List.forall_mem_append, List.forall_mem_cons] at opened
  obtain ⟨early, ⟨x', rest, starts, first⟩, late⟩ := opened
  obtain ⟨rfl, _⟩ := List.cons.inj starts
  refine ⟨by rw [← reading.flatten]; simp, ?_, ?_⟩
  · simp only [List.forall_mem_append, List.forall_mem_cons]
    exact ⟨early, ⟨x, left, rfl, first⟩, ⟨y, right, rfl, opener⟩, late⟩
  · obtain ⟨init, last, split, lastEnded⟩ := reading.ended
    rcases List.eq_nil_or_concat after with rfl | ⟨others, end', rfl⟩
    · exact ⟨before ++ [x :: left], y :: right, by simp, y, right, rfl, ended.resolve_left (by simp)⟩
    · have same : end' = last := by
        rw [List.concat_eq_append, ← List.cons_append, ← List.append_assoc] at split
        exact List.singleton_inj.mp (List.append_inj' split rfl).2
      exact ⟨before ++ (x :: left) :: (y :: right) :: others, end', by simp, same ▸ lastEnded⟩

theorem onlyUnsplit (before : List (List α)) {after : List (List α)} {x : α} {rest : List α}
    (reading : Reading opens final l (before ++ (x :: rest) :: after))
    (only : ∀ other, Reading opens final l other → other = before ++ (x :: rest) :: after) :
    ∀ y ∈ rest, opens y → ¬ (after ≠ [] ∨ final y) := by
  intro y member opener ended
  obtain ⟨left, right, rfl⟩ := List.append_of_mem member
  have length := congrArg List.length (only _ (splitReading before reading opener ended))
  simp at length

theorem onlyUnmerged {first second : List α} {more : List (List α)} (reading : Reading opens final l (first :: second :: more))
    (only : ∀ other, Reading opens final l other → other = first :: second :: more) :
    ¬ (more ≠ [] ∨ OpenedBy final first) := by
  intro ended
  have length := congrArg List.length (only _ (mergedReading reading ended))
  simp at length

variable (finals : ∀ x, final x → opens x)
include finals

theorem onlyFew {last : List α} (reading : Reading opens final l (init ++ [last]))
    (only : ∀ other, Reading opens final l other → other = init ++ [last]) :
    (init.flatten.filter opens).length ≤ 1 ∧ ∀ y ∈ init.flatten, final y = false := by
  match init, only, reading with
  | [], _, _ => simp
  | [first], only, reading =>
    obtain ⟨y, inside, rfl, opener⟩ := reading.opened first List.mem_cons_self
    have none : ∀ z ∈ inside, opens z = false := by
      intro z member
      by_contra again
      rw [Bool.not_eq_false] at again
      exact onlyUnsplit [] reading only z member again (.inl (by simp))
    have alone : final y = false := by
      by_contra again
      rw [Bool.not_eq_false] at again
      exact onlyUnmerged reading only (.inr ⟨y, inside, rfl, again⟩)
    have none' : ∀ z ∈ inside, final z = false := fun z member => by
      by_contra again
      rw [Bool.not_eq_false] at again
      have opener := finals z again
      simp [none z member] at opener
    refine ⟨?_, ?_⟩
    · simpa [opener] using none
    · simpa [alone] using none'
  | first :: second :: more, only, reading => exact absurd (.inl (by simp)) (onlyUnmerged reading only)

theorem onlyReading (reading : Reading opens final l blocks) (only : ∀ other, Reading opens final l other → other = blocks) :
    OneFinal opens final l := by
  obtain ⟨init, last, rfl, x, rest, rfl, here⟩ := reading.ended
  have whole : l = init.flatten ++ x :: rest := by
    rw [← reading.flatten]
    simp
  have after : ∀ y ∈ rest, final y = false := by
    intro y member
    by_contra again
    rw [Bool.not_eq_false] at again
    exact onlyUnsplit init reading only y member (finals y again) (.inr again)
  obtain ⟨few, before⟩ := onlyFew finals reading only
  exact ⟨init.flatten, x, rest, whole, here, few, before, after⟩

end Readings

end ContextOS.Lib
