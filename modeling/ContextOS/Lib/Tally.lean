import ContextOS.Lib.Dict
import Mathlib.Algebra.BigOperators.Group.List.Basic

/-! Running sums kept in a dictionary: each entry is added to what its key holds already. -/
namespace ContextOS.Lib

universe u v

section Credit
variable {K : Type u} {V : Type v} [DecidableEq K] [AddCommMonoid V]

theorem assignCredit (key : K) (amount : V) (entries : List (K × V)) :
    ((assign key ((find key entries).getD 0 + amount) entries).map Prod.snd).sum = (entries.map Prod.snd).sum + amount := by
  induction entries with
  | nil => simp [assign, find]
  | cons head rest ih =>
    obtain ⟨k, old⟩ := head
    by_cases same : k = key
    · simp only [find, assign, if_pos same, Option.getD_some, List.map_cons, List.sum_cons]
      rw [add_assoc, add_assoc, add_comm amount]
    · simp only [find, assign, if_neg same, List.map_cons, List.sum_cons, ih, add_assoc]

namespace Dict

def credit (d : Dict K V) (entry : K × V) : Dict K V := d.set entry.1 ((d.get entry.1).getD 0 + entry.2)

def tally (d : Dict K V) (entries : List (K × V)) : Dict K V := entries.foldl credit d

@[simp] theorem tallyNil (d : Dict K V) : d.tally [] = d := rfl

@[simp] theorem tallyCons (d : Dict K V) (entry : K × V) (rest : List (K × V)) :
    d.tally (entry :: rest) = (d.credit entry).tally rest := rfl

/-- What a key was credited by the entries. -/
def creditOf (key : K) (entries : List (K × V)) : V := ((entries.filter fun entry => entry.1 = key).map Prod.snd).sum

theorem getCredit (d : Dict K V) (entry : K × V) (key : K) :
    ((d.credit entry).get key).getD 0 = (d.get key).getD 0 + creditOf key [entry] := by
  rw [credit, getSet]
  by_cases here : key = entry.1
  · subst here
    simp [creditOf]
  · simp [creditOf, here, Ne.symm here]

theorem getTally (d : Dict K V) (entries : List (K × V)) (key : K) :
    ((d.tally entries).get key).getD 0 = (d.get key).getD 0 + creditOf key entries := by
  induction entries generalizing d with
  | nil => simp [creditOf]
  | cons entry rest ih =>
    rw [tallyCons, ih, getCredit, add_assoc]
    simp only [creditOf, ← List.sum_append, ← List.map_append, ← List.filter_append, List.singleton_append]

theorem getTallyNone {d : Dict K V} {entries : List (K × V)} {key : K} :
    (d.tally entries).get key = none ↔ d.get key = none ∧ key ∉ entries.map Prod.fst := by
  induction entries generalizing d with
  | nil => simp
  | cons entry rest ih =>
    rw [tallyCons, ih, credit, getSet, List.map_cons, List.mem_cons, not_or]
    by_cases here : key = entry.1
    · simp [here]
    · simp [here]

theorem creditDistinct {entries : List (K × V)} (distinct : (entries.map Prod.fst).Nodup) (key : K) :
    creditOf key entries = (find key entries).getD 0 := by
  induction entries with
  | nil => rfl
  | cons entry rest ih =>
    obtain ⟨fresh, distinct⟩ := List.nodup_cons.mp distinct
    have later := ih distinct
    by_cases here : entry.1 = key
    · subst here
      have missing : find entry.1 rest = none := getNone (d := ⟨rest, distinct⟩).mpr fresh
      rw [missing] at later
      simp only [creditOf] at later ⊢
      simp [find, later]
    · simp only [creditOf] at later ⊢
      simp [find, here, later]

theorem valuesTally (d : Dict K V) (entries : List (K × V)) :
    (d.tally entries).values.sum = d.values.sum + (entries.map Prod.snd).sum := by
  induction entries generalizing d with
  | nil => simp
  | cons entry rest ih =>
    have credited : (d.credit entry).values.sum = d.values.sum + entry.2 := assignCredit entry.1 entry.2 d.entries
    rw [tallyCons, ih, credited, List.map_cons, List.sum_cons, add_assoc]

end Dict
end Credit
end ContextOS.Lib
