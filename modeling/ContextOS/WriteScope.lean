import ContextOS.Executable
import ContextOS.Lib.Machine
import ContextOS.MemoryStore

/-! Writes to the reference store and the scopes beside them. Rows are keyed by their id
inside a tenant, and the id is the caller's: a write leaves the reads of every other scope
alone exactly when no other namespace of the tenant holds a row under that id. -/
namespace ContextOS
open Lib (Dict Machine Parts)

variable {R : Type}

abbrev Write (R : Type) := SecurityContext × MemoryObject R

namespace InMemoryStore

def serve (s : InMemoryStore R) (w : Write R) : InMemoryStore R × Except PyError Unit :=
  match s.addMemory w.1 w.2 with
  | .error e => (s, .error e)
  | .ok s => (s, .ok ())

def machine : Machine (InMemoryStore R) (Write R) (Except PyError Unit) := ⟨serve⟩

structure SameReads (s t : InMemoryStore R) (reader : SecurityContext) : Prop where
  listed : ∀ limit, s.listMemories reader limit = t.listMemories reader limit
  fetched : ∀ id, s.getMemory reader id = t.getMemory reader id

structure WriteIntegrity (s : InMemoryStore R) (w : Write R) : Prop where
  others : ∀ reader : SecurityContext, ¬ (reader.tenantId = w.1.tenantId ∧ reader.namespaceId = w.1.namespaceId) →
    SameReads (s.serve w).1 s reader
  refused : ∀ e, (s.serve w).2 = .error e → (s.serve w).1 = s

def InScope (w : Write R) : Prop := w.2.tenantId = w.1.tenantId ∧ w.2.namespaceId = w.1.namespaceId

def OwnId (s : InMemoryStore R) (w : Write R) : Prop :=
  InScope w → ∀ row, (s.part w.1.tenantId).get w.2.id = some row → row.namespaceId = w.1.namespaceId

theorem servedOk {s : InMemoryStore R} {w : Write R} (inside : InScope w) :
    s.serve w = (s.put w.1.tenantId w.2.id w.2, .ok ()) := by
  have added : s.addMemory w.1 w.2 = .ok (s.put w.1.tenantId w.2.id w.2) := addedIff.mpr ⟨inside.1, inside.2, rfl⟩
  simp only [serve, added]

theorem servedRefused {s : InMemoryStore R} {w : Write R} (outside : ¬ InScope w) : (s.serve w).1 = s := by
  unfold serve
  split
  · rfl
  · rename_i ok
    obtain ⟨tenant, ns, _⟩ := addedIff.mp ok
    exact absurd ⟨tenant, ns⟩ outside

theorem putReads {s : InMemoryStore R} {w : Write R} (inside : InScope w)
    (own : ∀ row, (s.part w.1.tenantId).get w.2.id = some row → row.namespaceId = w.1.namespaceId)
    {reader : SecurityContext} (other : ¬ (reader.tenantId = w.1.tenantId ∧ reader.namespaceId = w.1.namespaceId)) :
    SameReads (s.put w.1.tenantId w.2.id w.2) s reader := by
  by_cases tenant : reader.tenantId = w.1.tenantId
  · have foreign : reader.namespaceId ≠ w.1.namespaceId := fun ns => other ⟨tenant, ns⟩
    constructor
    · intro limit
      unfold listMemories
      rw [tenant, Parts.partPutSelf, Dict.valuesFilter]
      · simpa [inside.2] using foreign.symm
      · intro row found
        simpa [own row found] using foreign.symm
    · intro id
      unfold getMemory
      rw [tenant, Parts.partPutSelf, Dict.getSet]
      by_cases same : id = w.2.id
      · -- the row written now and the row it replaces are both hidden from the reader
        subst same
        cases found : (s.part w.1.tenantId).get w.2.id with
        | none => simp [inside.2, foreign.symm]
        | some row => simp [inside.2, own row found, foreign.symm]
      · rw [if_neg same]
  · constructor
    · intro limit
      simp only [listMemories, Parts.partPutOther s tenant]
    · intro id
      simp only [getMemory, Parts.partPutOther s tenant]

theorem integrityIff (s : InMemoryStore R) (w : Write R) : s.WriteIntegrity w ↔ s.OwnId w := by
  constructor
  · intro integrity inside row found
    by_contra foreign
    have same := (integrity.others { w.1 with namespaceId := row.namespaceId } (fun scope => foreign scope.2)).fetched w.2.id
    rw [servedOk inside] at same
    -- before the write its owner reads the row, afterwards the row of the other namespace stands there
    simp [getMemory, found, inside.2, Ne.symm foreign] at same
  · intro own
    by_cases inside : InScope w
    · refine ⟨fun reader other => ?_, fun e refused => ?_⟩
      · rw [servedOk inside]
        exact putReads inside (own inside) other
      · rw [servedOk inside] at refused
        contradiction
    · have same := servedRefused (s := s) inside
      refine ⟨fun reader other => ?_, fun e _ => same⟩
      rw [same]
      exact ⟨fun _ => rfl, fun _ => rfl⟩

theorem writeIntegrityIff (writes : List (Write R)) :
    machine.Along WriteIntegrity (Dict.empty : InMemoryStore R) writes ↔ machine.Along OwnId Dict.empty writes :=
  machine.alongIff integrityIff

end InMemoryStore

/-! ### An id that another namespace uses -/

def noteIn (ns content : String) : Write ℚ :=
  (member "acme" ns, ⟨"memory-1", "acme", ns, .longTerm, content, none, 1 / 2, 0, 0, ⟨"chat", none, 0⟩, Dict.empty⟩)

theorem rowReplacedAcrossNamespaces :
    ¬ InMemoryStore.machine.Along InMemoryStore.WriteIntegrity (Dict.empty : InMemoryStore ℚ)
      [noteIn "sales" "blue", noteIn "legal" "red"] := by
  intro integrity
  have read := ((integrity [noteIn "sales" "blue"] _ [] rfl).others (member "acme" "sales") (by decide)).fetched "memory-1"
  exact absurd (congrArg Option.isSome read) (by decide)

end ContextOS
