import Mathlib.Data.List.Induction
import Mathlib.Tactic.Common

/-! Deterministic machines driven by a list of inputs: what a run replies, how an
invariant over the replies so far is carried along a run, what holds at every step of
one, and when the inputs of other domains can be deleted without an observer noticing. -/
namespace ContextOS.Lib

universe u v w x

structure Machine (σ : Type u) (ι : Type v) (ο : Type w) where
  step : σ → ι → σ × ο

namespace Machine
variable {σ : Type u} {ι : Type v} {ο : Type w} (m : Machine σ ι ο)

def exec (s : σ) : List ι → σ
  | [] => s
  | i :: rest => exec (m.step s i).1 rest

def replies (s : σ) : List ι → List (ι × ο)
  | [] => []
  | i :: rest => (i, (m.step s i).2) :: replies (m.step s i).1 rest

theorem execAppend (s : σ) (front back : List ι) :
    m.exec s (front ++ back) = m.exec (m.exec s front) back := by
  induction front generalizing s with
  | nil => rfl
  | cons i rest ih => exact ih (m.step s i).1

theorem repliesAppend (s : σ) (front back : List ι) :
    m.replies s (front ++ back) = m.replies s front ++ m.replies (m.exec s front) back := by
  induction front generalizing s with
  | nil => rfl
  | cons i rest ih => simp only [List.cons_append, replies, exec, ih]

theorem repliesInputs (s : σ) (inputs : List ι) : (m.replies s inputs).map Prod.fst = inputs := by
  induction inputs generalizing s with
  | nil => rfl
  | cons i rest ih => simp only [replies, List.map_cons, ih]

theorem historyInvariant {P : List (ι × ο) → σ → Prop} {s : σ} (start : P [] s)
    (advance : ∀ past t i, P past t → P (past ++ [(i, (m.step t i).2)]) (m.step t i).1)
    (inputs : List ι) : P (m.replies s inputs) (m.exec s inputs) := by
  induction inputs using List.reverseRecOn with
  | nil => exact start
  | append_singleton front i ih =>
    rw [repliesAppend, execAppend]
    exact advance _ _ i ih

theorem invariant {P : σ → Prop} (advance : ∀ t i, P t → P (m.step t i).1)
    {s : σ} (start : P s) (inputs : List ι) : P (m.exec s inputs) :=
  m.historyInvariant (P := fun _ t => P t) start (fun _ t i => advance t i) inputs

theorem replyOrigin {s : σ} {inputs : List ι} {i : ι} {o : ο} (member : (i, o) ∈ m.replies s inputs) :
    ∃ front back, inputs = front ++ i :: back ∧ o = (m.step (m.exec s front) i).2 := by
  induction inputs generalizing s with
  | nil => simp [replies] at member
  | cons head rest ih =>
    rcases List.mem_cons.mp member with here | later
    · obtain ⟨rfl, rfl⟩ := Prod.mk.inj here
      exact ⟨[], rest, rfl, rfl⟩
    · obtain ⟨front, back, rfl, reply⟩ := ih later
      exact ⟨head :: front, back, rfl, reply⟩

section Along
variable {P Q : σ → ι → Prop}

def Along (P : σ → ι → Prop) (s : σ) (inputs : List ι) : Prop :=
  ∀ front i back, inputs = front ++ i :: back → P (m.exec s front) i

theorem alongNil (s : σ) : m.Along P s [] := by
  intro front i back split
  simp at split

theorem alongCons {s : σ} {i : ι} {rest : List ι} :
    m.Along P s (i :: rest) ↔ P s i ∧ m.Along P (m.step s i).1 rest := by
  constructor
  · intro along
    refine ⟨along [] i rest rfl, ?_⟩
    intro front j back split
    exact along (i :: front) j back (by rw [split]; rfl)
  · intro given front j back split
    obtain ⟨here, later⟩ := given
    cases front with
    | nil =>
      obtain ⟨rfl, rfl⟩ := List.cons.inj split
      exact here
    | cons first front =>
      obtain ⟨rfl, rest⟩ := List.cons.inj split
      exact later front j back rest

theorem alongAppend {s : σ} {front back : List ι} :
    m.Along P s (front ++ back) ↔ m.Along P s front ∧ m.Along P (m.exec s front) back := by
  induction front generalizing s with
  | nil => exact ⟨fun along => ⟨m.alongNil s, along⟩, fun given => given.2⟩
  | cons i rest ih => rw [List.cons_append, alongCons, alongCons, ih, and_assoc]; rfl

theorem alongMono (weaker : ∀ s i, P s i → Q s i) {s : σ} {inputs : List ι} (along : m.Along P s inputs) :
    m.Along Q s inputs :=
  fun front i back split => weaker _ i (along front i back split)

theorem alongIff (same : ∀ s i, P s i ↔ Q s i) {s : σ} {inputs : List ι} :
    m.Along P s inputs ↔ m.Along Q s inputs :=
  ⟨m.alongMono fun s i => (same s i).mp, m.alongMono fun s i => (same s i).mpr⟩

theorem alongInvariant {J : σ → Prop} (advance : ∀ s i, J s → P s i → J (m.step s i).1) {s : σ} (start : J s)
    {inputs : List ι} (along : m.Along P s inputs) : J (m.exec s inputs) := by
  induction inputs generalizing s with
  | nil => exact start
  | cons i rest ih =>
    obtain ⟨here, later⟩ := m.alongCons.mp along
    exact ih (advance s i start here) later

instance decidableAlong [∀ s i, Decidable (P s i)] : ∀ (s : σ) (inputs : List ι), Decidable (m.Along P s inputs)
  | s, [] => isTrue (m.alongNil s)
  | s, i :: rest =>
    have := decidableAlong (m.step s i).1 rest
    decidable_of_iff _ m.alongCons.symm

end Along

section Unwinding
variable {δ : Type x} [DecidableEq δ] (domain : ι → δ) (observer : δ)

def purge (inputs : List ι) : List ι := inputs.filter (fun i => domain i = observer)

def observed (s : σ) (inputs : List ι) : List (ι × ο) :=
  (m.replies s inputs).filter (fun r => domain r.1 = observer)

/-- The relation may look at the inputs still to come, so that freshness of what they
bring can be part of it. -/
theorem unwinding {Q : List ι → σ → σ → Prop}
    (own : ∀ i rest s t, domain i = observer → Q (i :: rest) s t →
      (m.step s i).2 = (m.step t i).2 ∧ Q rest (m.step s i).1 (m.step t i).1)
    (foreign : ∀ i rest s t, domain i ≠ observer → Q (i :: rest) s t →
      Q rest (m.step s i).1 t)
    {inputs : List ι} {s t : σ} (start : Q inputs s t) :
    m.observed domain observer s inputs = m.replies t (purge domain observer inputs) := by
  induction inputs generalizing s t with
  | nil => rfl
  | cons i rest ih =>
    by_cases mine : domain i = observer
    · obtain ⟨reply, next⟩ := own i rest s t mine start
      have tail := ih next
      simp only [observed, purge, replies] at tail ⊢
      simp only [List.filter_cons, mine, decide_true, if_true, replies, reply, tail]
    · have tail := ih (foreign i rest s t mine start)
      simp only [observed, purge, replies] at tail ⊢
      simp only [List.filter_cons, mine, decide_false, Bool.false_eq_true, if_false, tail]

end Unwinding
end Machine
end ContextOS.Lib
