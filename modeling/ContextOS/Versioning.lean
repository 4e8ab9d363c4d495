import ContextOS.MemoryEngine
import Mathlib.Data.List.Sort

/-! Git-like memory versioning: tenant-partitioned commits and branch heads over the
memory engine. Rollback only restores what is missing, as the snapshot and the ids
present decide, and stays in scope. -/
namespace ContextOS
open Lib (Dict Parts)

variable {R : Type}

structure Commit (R : Type) where
  cid : String
  branch : String
  label : String
  createdAt : Time
  snapshot : List (MemoryObject R)

structure MemoryDiff where
  added : List String
  removed : List String
  changed : List String
  deriving DecidableEq, Repr

structure MemoryVersioning (R : Type) where
  commits : Parts String String (Commit R)
  branches : Parts String String (Option String)

namespace MemoryVersioning

def empty : MemoryVersioning R := ⟨Dict.empty, Dict.empty⟩

def versionedRows : Nat := 4096

def commit (v : MemoryVersioning R) (cid : String) (createdAt : Time) (store : InMemoryStore R)
    (ctx : SecurityContext) (label branch : String) : MemoryVersioning R :=
  let rows := MemoryEngine.allMemories store ctx versionedRows
  ⟨v.commits.put ctx.tenantId cid ⟨cid, branch, label, createdAt, rows⟩,
    v.branches.put ctx.tenantId branch (some cid)⟩

def branch (v : MemoryVersioning R) (ctx : SecurityContext) (name fromBranch : String) : MemoryVersioning R :=
  let head := ((v.branches.part ctx.tenantId).get fromBranch).getD none
  { v with branches := v.branches.put ctx.tenantId name head }

def branchHeads (v : MemoryVersioning R) (ctx : SecurityContext) : Dict String (Option String) :=
  v.branches.part ctx.tenantId

def get (v : MemoryVersioning R) (ctx : SecurityContext) (cid : String) : Option (Commit R) :=
  (v.commits.part ctx.tenantId).get cid

def unknownCommit : PyError := ⟨.unknownCommit, "unknown commit for this tenant"⟩

def contentMap (c : Commit R) : Dict String String := Dict.ofList (c.snapshot.map (fun m => (m.id, m.content)))

def diff (v : MemoryVersioning R) (ctx : SecurityContext) (aCid bCid : String) : Except PyError MemoryDiff :=
  match v.get ctx aCid, v.get ctx bCid with
  | some a, some b =>
    let aMap := contentMap a
    let bMap := contentMap b
    let sorted (ids : List String) := ids.insertionSort (· ≤ ·)
    .ok ⟨sorted (bMap.keys.filter (fun i => (aMap.get i).isNone)),
      sorted (aMap.keys.filter (fun i => (bMap.get i).isNone)),
      sorted (aMap.keys.filter (fun i => (bMap.get i).isSome ∧ aMap.get i ≠ bMap.get i))⟩
  | _, _ => .error unknownCommit

/-- The loop over the snapshot: a refused write ends it, and what was restored stays. -/
def restore (ctx : SecurityContext) (present : List String) :
    Nat → InMemoryStore R → List (MemoryObject R) → InMemoryStore R × Except PyError Nat
  | restored, store, [] => (store, .ok restored)
  | restored, store, m :: rest =>
    if m.id ∈ present then restore ctx present restored store rest
    else
      match MemoryEngine.put store ctx m with
      | .error e => (store, .error e)
      | .ok store => restore ctx present (restored + 1) store rest

theorem restoreCases (ctx : SecurityContext) (present : List String) (n : Nat) (rows : List (MemoryObject R)) :
    ∃ restored result, (∀ m ∈ restored, m.tenantId = ctx.tenantId ∧ m.namespaceId = ctx.namespaceId) ∧
      ∀ store, restore ctx present n store rows = (store.putAll ctx.tenantId restored, result) := by
  induction rows generalizing n with
  | nil => exact ⟨[], .ok n, by simp, fun store => rfl⟩
  | cons m rest ih =>
    by_cases known : m.id ∈ present
    · obtain ⟨restored, result, own, effect⟩ := ih n
      exact ⟨restored, result, own, fun store => by simp only [restore, if_pos known, effect]⟩
    · rcases InMemoryStore.addMemoryCases ctx m with ⟨e, refused⟩ | ⟨tenant, ns, admitted⟩
      · exact ⟨[], .error e, by simp, fun store => by
          simp only [restore, if_neg known, MemoryEngine.put, refused]; rfl⟩
      · obtain ⟨restored, result, own, effect⟩ := ih (n + 1)
        refine ⟨m :: restored, result, List.forall_mem_cons.mpr ⟨⟨tenant, ns⟩, own⟩, fun store => ?_⟩
        simp only [restore, if_neg known, MemoryEngine.put, admitted, effect]
        rfl

def rollback (v : MemoryVersioning R) (store : InMemoryStore R) (ctx : SecurityContext) (cid : String) :
    InMemoryStore R × Except PyError Nat :=
  match v.get ctx cid with
  | none => (store, .error unknownCommit)
  | some commit =>
    let present := (MemoryEngine.allMemories store ctx versionedRows).map (·.id)
    restore ctx present 0 store commit.snapshot

theorem rollbackCases (v : MemoryVersioning R) (ctx : SecurityContext) (cid : String) (rows : List (MemoryObject R)) :
    ∃ restored result, (∀ m ∈ restored, m.tenantId = ctx.tenantId ∧ m.namespaceId = ctx.namespaceId) ∧
      ∀ store, MemoryEngine.allMemories store ctx versionedRows = rows →
        v.rollback store ctx cid = (store.putAll ctx.tenantId restored, result) := by
  unfold rollback
  cases v.get ctx cid with
  | none => exact ⟨[], .error unknownCommit, by simp, fun store _ => rfl⟩
  | some commit =>
    obtain ⟨restored, result, own, effect⟩ := restoreCases ctx (rows.map (·.id)) 0 commit.snapshot
    exact ⟨restored, result, own, fun store same => by simp only [same, effect]⟩

end MemoryVersioning
end ContextOS
