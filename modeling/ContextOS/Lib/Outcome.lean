import Mathlib.Tactic.Common

/-! Inversion of computations that may raise: a bind succeeds exactly when both parts do, and
raises what one of them raises. -/
namespace ContextOS.Lib

universe u v w
variable {ε : Type u} {α : Type v} {β : Type v}

theorem bindOk {x : Except ε α} {f : α → Except ε β} {b : β} :
    x >>= f = .ok b ↔ ∃ a, x = .ok a ∧ f a = .ok b := by
  cases x with
  | error e => simp [bind, Except.bind]
  | ok a => simp [bind, Except.bind]

theorem pureOk {a b : α} : (pure a : Except ε α) = .ok b ↔ a = b := by
  simp [pure, Except.pure]

theorem toOptionOk {x : Except ε α} {a : α} : x.toOption = some a ↔ x = .ok a := by
  cases x <;> simp [Except.toOption]

theorem mapOk {x : Except ε α} {f : α → β} {b : β} : f <$> x = .ok b ↔ ∃ a, x = .ok a ∧ f a = b := by
  cases x with
  | error e => simp [Functor.map, Except.map]
  | ok a => simp [Functor.map, Except.map]

theorem mapMOk {f : α → Except ε β} {fine : α → Prop} {g : α → β} (spec : ∀ x y, f x = .ok y ↔ fine x ∧ y = g x)
    {xs : List α} {ys : List β} : xs.mapM f = .ok ys ↔ (∀ x ∈ xs, fine x) ∧ ys = xs.map g := by
  induction xs generalizing ys with
  | nil => simp [pure, Except.pure, eq_comm]
  | cons x rest ih =>
    rw [List.mapM_cons, bindOk, List.forall_mem_cons]
    constructor
    · rintro ⟨y, here, ok⟩
      obtain ⟨tail, later, done⟩ := bindOk.mp ok
      obtain ⟨first, rfl⟩ := (spec x y).mp here
      obtain ⟨every, rfl⟩ := ih.mp later
      exact ⟨⟨first, every⟩, (pureOk.mp done).symm⟩
    · rintro ⟨⟨first, every⟩, rfl⟩
      exact ⟨g x, (spec x _).mpr ⟨first, rfl⟩, bindOk.mpr ⟨rest.map g, ih.mpr ⟨every, rfl⟩, rfl⟩⟩

/-- Whatever is raised is of this kind. -/
def Raises (kind : ε → Prop) (x : Except ε α) : Prop := ∀ e, x = .error e → kind e

section Raises
variable {kind : ε → Prop}

theorem raisesOk (a : α) : Raises kind (.ok a : Except ε α) := by
  rintro e ⟨⟩

theorem raisesError {e : ε} (given : kind e) : Raises kind (.error e : Except ε α) := by
  rintro _ ⟨⟩
  exact given

theorem raisesBind {x : Except ε α} {f : α → Except ε β} (first : Raises kind x) (later : ∀ a, Raises kind (f a)) :
    Raises kind (x >>= f) := by
  cases x with
  | error e => exact raisesError (first e rfl)
  | ok a => exact later a

theorem raisesMapM {f : α → Except ε β} (each : ∀ x, Raises kind (f x)) (xs : List α) : Raises kind (xs.mapM f) := by
  induction xs with
  | nil => exact raisesOk []
  | cons x rest ih =>
    rw [List.mapM_cons]
    exact raisesBind (each x) fun y => raisesBind ih fun ys => raisesOk (y :: ys)

theorem raisesFoldlM {f : β → α → Except ε β} (each : ∀ b x, Raises kind (f b x)) (xs : List α) (b : β) :
    Raises kind (xs.foldlM f b) := by
  induction xs generalizing b with
  | nil => exact raisesOk b
  | cons x rest ih =>
    rw [List.foldlM_cons]
    exact raisesBind (each b x) ih

end Raises
end ContextOS.Lib
