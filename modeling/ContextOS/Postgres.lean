import ContextOS.MemoryStore
import Mathlib.Data.List.Sort

/-! The Postgres storage backend: the statements that the store sends, on a table under
the row policy of the first migration. What the column types do to a value is left open. -/
namespace ContextOS
open Lib (Dict)

variable {R : Type}

/-- A row of `memories`. The column `embedding` is never written, and read as absent. -/
structure SqlRow (R : Type) where
  id : String
  tenantId : String
  namespaceId : String
  tier : MemoryTier
  content : String
  importance : R
  createdAt : Time
  lastAccessedAt : Time
  provenance : Provenance
  metadata : Dict String String

/-- The conversion to `REAL`, the normal form of a `JSONB` object, and the rows whose
values the types accept at all (a text must not hold a zero character). -/
structure ColumnTypes (R : Type) where
  real : R → R
  jsonb : Dict String String → Dict String String
  accepts : SqlRow R → Bool

inductive SqlError where
  | invalidValue
  | rowSecurity
  | uniqueViolation
  deriving DecidableEq, Repr

structure Session where
  appTenantId : String
  appNamespace : String
  deriving DecidableEq, Repr

abbrev SqlTable (R : Type) := List (SqlRow R)

namespace PostgresStore

def scopedConn (ctx : SecurityContext) : Session := ⟨ctx.tenantId, ctx.namespaceId⟩

-- the policy `memories_tenant_isolation`: `USING` and `WITH CHECK` are one predicate
def tenantIsolation (session : Session) (row : SqlRow R) : Bool := row.tenantId = session.appTenantId

def toRow (types : ColumnTypes R) (m : MemoryObject R) : SqlRow R :=
  ⟨m.id, m.tenantId, m.namespaceId, m.tier, m.content, types.real m.importance, m.createdAt, m.lastAccessedAt,
    m.provenance, types.jsonb m.metadata⟩

-- `_row_to_memory`
def rowToMemory (row : SqlRow R) : MemoryObject R :=
  ⟨row.id, row.tenantId, row.namespaceId, row.tier, row.content, none, row.importance, row.createdAt,
    row.lastAccessedAt, row.provenance, row.metadata⟩

def addMemory (types : ColumnTypes R) (table : SqlTable R) (ctx : SecurityContext) (memory : MemoryObject R) :
    Except SqlError (SqlTable R) :=
  let row := toRow types memory
  if !types.accepts row then .error .invalidValue
  else if !tenantIsolation (scopedConn ctx) row then .error .rowSecurity
  -- the primary key is checked against all rows, visible or not
  else if table.any (fun old => old.id = row.id) then .error .uniqueViolation
  else .ok (table ++ [row])

def visible (table : SqlTable R) (ctx : SecurityContext) : SqlTable R :=
  table.filter (tenantIsolation (scopedConn ctx))

-- `SELECT * FROM memories ORDER BY last_accessed_at DESC LIMIT $1`
def listMemories (table : SqlTable R) (ctx : SecurityContext) (limit : Nat) : List (MemoryObject R) :=
  (((visible table ctx).insertionSort (fun a b => b.lastAccessedAt ≤ a.lastAccessedAt)).take limit).map rowToMemory

-- `SELECT * FROM memories WHERE id = $1`
def getMemory (table : SqlTable R) (ctx : SecurityContext) (memoryId : String) : Option (MemoryObject R) :=
  ((visible table ctx).find? (fun row => row.id = memoryId)).map rowToMemory

theorem addedIff {types : ColumnTypes R} {table table' : SqlTable R} {ctx memory} :
    addMemory types table ctx memory = .ok table' ↔
      types.accepts (toRow types memory) ∧ memory.tenantId = ctx.tenantId ∧ (∀ old ∈ table, old.id ≠ memory.id) ∧
      table' = table ++ [toRow types memory] := by
  have sameTenant : tenantIsolation (scopedConn ctx) (toRow types memory) = decide (memory.tenantId = ctx.tenantId) := rfl
  have sameId : (toRow types memory).id = memory.id := rfl
  unfold addMemory
  dsimp only
  rw [sameTenant, sameId]
  split
  · rename_i invalid
    have refused : types.accepts (toRow types memory) = false := by simpa using invalid
    simp [refused]
  · rename_i valid
    have accepted : types.accepts (toRow types memory) = true := by simpa using valid
    split
    · rename_i foreign
      have refused : memory.tenantId ≠ ctx.tenantId := by simpa using foreign
      simp [refused]
    · rename_i own
      have inside : memory.tenantId = ctx.tenantId := by simpa using own
      split
      · rename_i taken
        obtain ⟨old, member, same⟩ := List.any_eq_true.mp taken
        simp only [reduceCtorEq, false_iff, not_and]
        exact fun _ _ fresh => absurd (by simpa using same) (fresh old member)
      · rename_i free
        have fresh : ∀ old ∈ table, old.id ≠ memory.id := by simpa using free
        simp only [Except.ok.injEq, accepted, inside, true_and]
        exact ⟨fun same => ⟨fresh, same.symm⟩, fun h => h.2.symm⟩

/-! ### The primary key -/

def PrimaryKey (table : SqlTable R) : Prop := (table.map SqlRow.id).Nodup

theorem addedPrimaryKey {types : ColumnTypes R} {table table' : SqlTable R} {ctx memory} (key : PrimaryKey table)
    (ok : addMemory types table ctx memory = .ok table') : PrimaryKey table' := by
  obtain ⟨_, _, fresh, rfl⟩ := addedIff.mp ok
  unfold PrimaryKey
  rw [List.map_append, List.map_singleton, List.nodup_append]
  refine ⟨key, List.nodup_singleton _, ?_⟩
  intro _ member _ last equal
  subst equal
  obtain ⟨old, inside, same⟩ := List.mem_map.mp member
  exact fresh old inside (same.trans (List.mem_singleton.mp last))

theorem visibleIff {table : SqlTable R} {ctx row} :
    row ∈ visible table ctx ↔ row ∈ table ∧ row.tenantId = ctx.tenantId := by
  simp [visible, tenantIsolation, scopedConn]

theorem fetchedIff {table : SqlTable R} {ctx memoryId m} (key : PrimaryKey table) :
    getMemory table ctx memoryId = some m ↔
      ∃ row ∈ table, row.tenantId = ctx.tenantId ∧ row.id = memoryId ∧ rowToMemory row = m := by
  unfold getMemory
  rw [Option.map_eq_some_iff]
  constructor
  · intro given
    obtain ⟨row, found, rfl⟩ := given
    obtain ⟨member, own⟩ := visibleIff.mp (List.mem_of_find?_eq_some found)
    exact ⟨row, member, own, by simpa using List.find?_some found, rfl⟩
  · intro given
    obtain ⟨row, member, own, rfl, rfl⟩ := given
    obtain ⟨first, found⟩ : ∃ first, (visible table ctx).find? (fun r => r.id = row.id) = some first :=
      Option.isSome_iff_exists.mp (List.find?_isSome.mpr ⟨row, visibleIff.mpr ⟨member, own⟩, by simp⟩)
    have same : first.id = row.id := by simpa using List.find?_some found
    have inside := (visibleIff.mp (List.mem_of_find?_eq_some found)).1
    exact ⟨first, found, congrArg rowToMemory (List.inj_on_of_nodup_map key inside member same)⟩

theorem listedIff {table : SqlTable R} {ctx limit m} (key : PrimaryKey table)
    (unreached : (listMemories table ctx limit).length < limit) :
    m ∈ listMemories table ctx limit ↔ ∃ memoryId, getMemory table ctx memoryId = some m := by
  simp only [fetchedIff key]
  unfold listMemories at unreached ⊢
  rw [List.length_map, List.length_take] at unreached
  rw [List.take_of_length_le (by omega), List.mem_map]
  simp only [List.mem_insertionSort, visibleIff]
  exact ⟨fun ⟨row, ⟨member, own⟩, same⟩ => ⟨row.id, row, member, own, rfl, same⟩,
    fun ⟨_, row, member, own, _, same⟩ => ⟨row, ⟨member, own⟩, same⟩⟩

end PostgresStore
end ContextOS
