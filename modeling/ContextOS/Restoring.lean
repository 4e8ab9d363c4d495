import ContextOS.Versioning
import ContextOS.Executable

/-! What a rollback puts back. With ids that name one memory for good, the rows absent from
the caller's scope are those absent from the tenant's rows, so that no write of a restore
lands on another row; and the restored rows are listed, so that a second one finds nothing
to do. The first missing row of another namespace is refused before anything is written. -/
namespace ContextOS
open Lib

variable {R : Type}

theorem InMemoryStore.WellScoped.scopeMember {s : InMemoryStore R} (valid : s.WellScoped) {ctx : SecurityContext}
    {row : MemoryObject R} :
    row ∈ s.scope ctx ↔ (s.part ctx.tenantId).get row.id = some row ∧ row.namespaceId = ctx.namespaceId := by
  rw [InMemoryStore.scope, List.mem_filter, decide_eq_true_eq, Dict.memValues]
  refine and_congr_left fun _ => ⟨?_, fun found => ⟨row.id, found⟩⟩
  rintro ⟨id, found⟩
  exact (valid ctx.tenantId id row found).2 ▸ found

namespace MemoryVersioning

/-- The commit's rows are what its taker saw. -/
structure TakenBy (taker : SecurityContext) (c : Commit R) : Prop where
  taken : ∃ store : InMemoryStore R, store.WellScoped ∧ c.snapshot = MemoryEngine.allMemories store taker versionedRows

theorem commitTaken (v : MemoryVersioning R) (cid : String) (createdAt : Time) {store : InMemoryStore R}
    (valid : store.WellScoped) (ctx : SecurityContext) (label branch : String) :
    ∃ c, (v.commit cid createdAt store ctx label branch).get ctx cid = some c ∧ TakenBy ctx c := by
  refine ⟨⟨cid, branch, label, createdAt, MemoryEngine.allMemories store ctx versionedRows⟩, ?_, ⟨store, valid, rfl⟩⟩
  simp only [get, commit, Parts.getPutSelf]

theorem TakenBy.owned {taker : SecurityContext} {c : Commit R} (taken : TakenBy taker c) :
    ∀ m ∈ c.snapshot, m.tenantId = taker.tenantId ∧ m.namespaceId = taker.namespaceId := by
  obtain ⟨store, valid, rows⟩ := taken.taken
  intro m member
  rw [rows] at member
  exact valid.owner (List.mem_of_mem_take member)

theorem TakenBy.distinct {taker : SecurityContext} {c : Commit R} (taken : TakenBy taker c) :
    (c.snapshot.map (·.id)).Nodup := by
  obtain ⟨store, valid, rows⟩ := taken.taken
  rw [rows]
  exact (valid.scopeDistinct taker).sublist ((List.take_sublist _ _).map _)

/-- No stored row has the id of a committed memory of another tenant or namespace. -/
def UniqueIds (store : InMemoryStore R) (c : Commit R) : Prop :=
  ∀ tenant row m, (store.part tenant).get m.id = some row → m ∈ c.snapshot →
    row.tenantId = m.tenantId ∧ row.namespaceId = m.namespaceId

-- the scope and the snapshot, a memory of both counted once
def together (store : InMemoryStore R) (ctx : SecurityContext) (c : Commit R) : Nat :=
  ((store.scope ctx).map (·.id) ++ c.snapshot.map (·.id)).dedup.length

def missing (store : InMemoryStore R) (ctx : SecurityContext) (c : Commit R) : List (MemoryObject R) :=
  c.snapshot.filter fun m => ((store.part ctx.tenantId).get m.id).isNone

/-! ### The restoring loop -/

theorem restoreOwn {ctx : SecurityContext} {present : List String} {rows : List (MemoryObject R)}
    (own : ∀ m ∈ rows, m.tenantId = ctx.tenantId ∧ m.namespaceId = ctx.namespaceId) (n : Nat) (store : InMemoryStore R) :
    restore ctx present n store rows =
      (store.putAll ctx.tenantId (rows.filter fun m => m.id ∉ present), .ok (n + (rows.filter fun m => m.id ∉ present).length)) := by
  induction rows generalizing n store with
  | nil => rfl
  | cons m rest ih =>
    obtain ⟨here, later⟩ := List.forall_mem_cons.mp own
    by_cases known : m.id ∈ present
    · have skipped : (m :: rest).filter (fun m => m.id ∉ present) = rest.filter (fun m => m.id ∉ present) :=
        List.filter_cons_of_neg (by simpa using known)
      rw [skipped, restore, if_pos known, ih later]
    · have written : (m :: rest).filter (fun m => m.id ∉ present) = m :: rest.filter (fun m => m.id ∉ present) :=
        List.filter_cons_of_pos (by simpa using known)
      have added : MemoryEngine.put store ctx m = .ok (store.put ctx.tenantId m.id m) :=
        InMemoryStore.addedIff.mpr ⟨here.1, here.2, rfl⟩
      simp only [written, restore, if_neg known, added, ih later, List.length_cons, Nat.add_right_comm n 1, ← Nat.add_assoc]
      rfl

theorem restoreForeign {ctx : SecurityContext} {present : List String} {m : MemoryObject R} (absent : m.id ∉ present)
    (tenant : m.tenantId = ctx.tenantId) (ns : m.namespaceId ≠ ctx.namespaceId) (n : Nat) (store : InMemoryStore R)
    (rest : List (MemoryObject R)) : restore ctx present n store (m :: rest) =
      (store, .error ⟨.accessDenied, "write namespace != context namespace"⟩) := by
  have refused : MemoryEngine.put store ctx m = .error ⟨.accessDenied, "write namespace != context namespace"⟩ := by
    simp only [MemoryEngine.put, InMemoryStore.addMemory, tenant, ns, ne_eq, not_true_eq_false, if_false, not_false_eq_true, if_true]
  simp only [restore, if_neg absent, refused]

/-! ### One rollback -/

section Rollback
variable {store : InMemoryStore R} {ctx taker : SecurityContext} {c : Commit R}

theorem scopeWithin (valid : store.WellScoped) (few : together store ctx c ≤ versionedRows) :
    MemoryEngine.allMemories store ctx versionedRows = store.scope ctx := by
  refine InMemoryStore.listScope ?_
  have inside : (store.scope ctx).map (·.id) ⊆ ((store.scope ctx).map (·.id) ++ c.snapshot.map (·.id)).dedup :=
    fun id member => List.mem_dedup.mpr (List.mem_append_left _ member)
  have bound := (List.subperm_of_subset (valid.scopeDistinct ctx) inside).length_le
  rw [List.length_map] at bound
  exact bound.trans few

theorem presentIff (valid : store.WellScoped) (unique : UniqueIds store c) (few : together store ctx c ≤ versionedRows)
    {m : MemoryObject R} (member : m ∈ c.snapshot) (ns : m.namespaceId = ctx.namespaceId) :
    m.id ∈ (MemoryEngine.allMemories store ctx versionedRows).map (·.id) ↔ ((store.part ctx.tenantId).get m.id).isSome := by
  rw [scopeWithin valid few, List.mem_map, Option.isSome_iff_exists]
  constructor
  · rintro ⟨row, inside, same⟩
    exact ⟨row, same ▸ (valid.scopeMember.mp inside).1⟩
  · rintro ⟨row, found⟩
    have same := (valid ctx.tenantId m.id row found).2
    exact ⟨row, valid.scopeMember.mpr ⟨same.symm ▸ found, (unique ctx.tenantId row m found member).2.trans ns⟩, same⟩

theorem rollbackOwn {v : MemoryVersioning R} {cid : String} (found : v.get ctx cid = some c) (valid : store.WellScoped)
    (unique : UniqueIds store c) (few : together store ctx c ≤ versionedRows)
    (own : ∀ m ∈ c.snapshot, m.tenantId = ctx.tenantId ∧ m.namespaceId = ctx.namespaceId) :
    v.rollback store ctx cid = (store.putAll ctx.tenantId (missing store ctx c), .ok (missing store ctx c).length) := by
  have absent : c.snapshot.filter (fun m => m.id ∉ (MemoryEngine.allMemories store ctx versionedRows).map (·.id)) =
      missing store ctx c := by
    refine List.filter_congr fun m member => ?_
    have present := presentIff valid unique few member (own m member).2
    rw [Bool.eq_iff_iff, decide_eq_true_eq, present]
    cases (store.part ctx.tenantId).get m.id <;> simp
  simp only [rollback, found, restoreOwn own, absent, Nat.zero_add]

theorem rollbackForeign {v : MemoryVersioning R} {cid : String} (found : v.get ctx cid = some c) (valid : store.WellScoped)
    (unique : UniqueIds store c) (filled : c.snapshot ≠ [])
    (foreign : ∀ m ∈ c.snapshot, m.tenantId = ctx.tenantId ∧ m.namespaceId ≠ ctx.namespaceId) :
    v.rollback store ctx cid = (store, .error ⟨.accessDenied, "write namespace != context namespace"⟩) := by
  obtain ⟨m, rest, rows⟩ := List.exists_cons_of_ne_nil filled
  have first : m ∈ c.snapshot := rows ▸ List.mem_cons_self
  have absent : m.id ∉ (MemoryEngine.allMemories store ctx versionedRows).map (·.id) := by
    intro listed
    obtain ⟨row, inside, same⟩ := List.mem_map.mp listed
    obtain ⟨stored, ns⟩ := valid.scopeMember.mp (List.mem_of_mem_take inside)
    exact (foreign m first).2 ((unique ctx.tenantId row m (same ▸ stored) first).2.symm.trans ns)
  simp only [rollback, found, rows]
  exact restoreForeign absent (foreign m first).1 (foreign m first).2 0 store rest

structure Restored (v : MemoryVersioning R) (store : InMemoryStore R) (ctx : SecurityContext) (cid : String) (c : Commit R)
    (after : InMemoryStore R) : Prop where
  returned : v.rollback store ctx cid = (after, .ok (missing store ctx c).length)
  restored : ∀ m ∈ missing store ctx c, (after.part ctx.tenantId).get m.id = some m
  kept : ∀ tenant id row, (store.part tenant).get id = some row → (after.part tenant).get id = some row
  only : ∀ tenant id row, (after.part tenant).get id = some row →
    (store.part tenant).get id = some row ∨ (tenant = ctx.tenantId ∧ row ∈ missing store ctx c ∧ row.id = id)
  again : v.rollback after ctx cid = (after, .ok 0)

theorem missingListed {m : MemoryObject R} (member : m ∈ missing store ctx c) :
    m ∈ c.snapshot ∧ (store.part ctx.tenantId).get m.id = none := by
  simpa using List.mem_filter.mp member

theorem missingKeeps {tenant id : String} {row : MemoryObject R} (stored : (store.part tenant).get id = some row) :
    ((store.putAll ctx.tenantId (missing store ctx c)).part tenant).get id = some row := by
  by_cases same : tenant = ctx.tenantId
  · subst same
    refine (InMemoryStore.putAllOther (fun member => ?_) store).trans stored
    obtain ⟨m, inside, rfl⟩ := List.mem_map.mp member
    exact absurd (stored.symm.trans (missingListed inside).2) (by simp)
  · rw [InMemoryStore.partPutAllOther same]
    exact stored

theorem missingUnique (unique : UniqueIds store c) (distinct : (c.snapshot.map (·.id)).Nodup) :
    UniqueIds (store.putAll ctx.tenantId (missing store ctx c)) c := by
  intro tenant row m stored member
  rcases InMemoryStore.putAllRow (missing store ctx c) stored with ⟨_, new, same⟩ | old
  · obtain rfl := List.inj_on_of_nodup_map distinct (missingListed new).1 member same
    exact ⟨rfl, rfl⟩
  · exact unique tenant row m old member

theorem missingTogether (valid : store.WellScoped)
    (own : ∀ m ∈ c.snapshot, m.tenantId = ctx.tenantId ∧ m.namespaceId = ctx.namespaceId) :
    together (store.putAll ctx.tenantId (missing store ctx c)) ctx c ≤ together store ctx c := by
  have valid' : (store.putAll ctx.tenantId (missing store ctx c)).WellScoped :=
    InMemoryStore.putAllWellScoped valid fun m member => (own m (missingListed member).1).1
  refine (List.subperm_of_subset (List.nodup_dedup _) fun id member => ?_).length_le
  rw [List.mem_dedup, List.mem_append] at member ⊢
  rcases member with inside | committed
  · obtain ⟨row, inScope, rfl⟩ := List.mem_map.mp inside
    obtain ⟨stored, ns⟩ := valid'.scopeMember.mp inScope
    rcases InMemoryStore.putAllRow (missing store ctx c) stored with ⟨_, new, _⟩ | old
    · exact .inr (List.mem_map_of_mem (missingListed new).1)
    · exact .inl (List.mem_map_of_mem (valid.scopeMember.mpr ⟨old, ns⟩))
  · exact .inr committed

theorem restoredOwn {v : MemoryVersioning R} {cid : String} (found : v.get ctx cid = some c) (valid : store.WellScoped)
    (unique : UniqueIds store c) (few : together store ctx c ≤ versionedRows) (distinct : (c.snapshot.map (·.id)).Nodup)
    (own : ∀ m ∈ c.snapshot, m.tenantId = ctx.tenantId ∧ m.namespaceId = ctx.namespaceId) :
    ∃ after, Restored v store ctx cid c after := by
  let after := store.putAll ctx.tenantId (missing store ctx c)
  have restored : ∀ m ∈ missing store ctx c, (after.part ctx.tenantId).get m.id = some m :=
    fun m member => InMemoryStore.putAllSelf (distinct.sublist (List.filter_sublist.map _)) member store
  have valid' : after.WellScoped := InMemoryStore.putAllWellScoped valid fun m member => (own m (missingListed member).1).1
  have nothing : missing after ctx c = [] := by
    refine List.filter_eq_nil_iff.mpr fun m member => ?_
    cases stored : (store.part ctx.tenantId).get m.id with
    | some row => simp [after, missingKeeps stored]
    | none => simp [restored m (List.mem_filter.mpr ⟨member, by simp [stored]⟩)]
  refine ⟨after, rollbackOwn found valid unique few own, restored, fun tenant id row stored => missingKeeps stored,
    fun tenant id row stored => (InMemoryStore.putAllRow (missing store ctx c) stored).symm, ?_⟩
  rw [rollbackOwn found valid' (missingUnique unique distinct) ((missingTogether valid own).trans few) own, nothing]
  rfl

end Rollback

theorem rollbackRestores {v : MemoryVersioning R} {store : InMemoryStore R} {ctx taker : SecurityContext} {cid : String}
    {c : Commit R} (found : v.get ctx cid = some c) (taken : TakenBy taker c) (tenant : taker.tenantId = ctx.tenantId)
    (valid : store.WellScoped) (unique : UniqueIds store c) (few : together store ctx c ≤ versionedRows) :
    (taker.namespaceId = ctx.namespaceId → ∃ after, Restored v store ctx cid c after) ∧
      (taker.namespaceId ≠ ctx.namespaceId → c.snapshot ≠ [] →
        v.rollback store ctx cid = (store, .error ⟨.accessDenied, "write namespace != context namespace"⟩)) := by
  have owned := taken.owned
  constructor
  · intro ns
    exact restoredOwn found valid unique few taken.distinct fun m member => ⟨(owned m member).1.trans tenant, (owned m member).2.trans ns⟩
  · intro ns filled
    exact rollbackForeign found valid unique filled fun m member =>
      ⟨(owned m member).1.trans tenant, fun same => ns ((owned m member).2.symm.trans same)⟩

def colourRow (id ns colour : String) (importance : ℚ) : MemoryObject ℚ :=
  ⟨id, "acme", ns, .longTerm, colour, none, importance, 0, 0, ⟨"chat", none, 0⟩, Dict.empty⟩

def beforeLoss : InMemoryStore ℚ := InMemoryStore.putAll Dict.empty "acme"
  [colourRow "memory-1" "sales" "blue" (1 / 2), colourRow "memory-2" "sales" "green" (1 / 2),
   colourRow "memory-3" "legal" "red" (1 / 2)]

def lostCommit : Commit ℚ :=
  ⟨"commit-1", "main", "", 0, [colourRow "memory-1" "sales" "blue" (1 / 2), colourRow "memory-2" "sales" "green" (1 / 2)]⟩

-- one of the two rows is lost, the other one changed, and a third one is new
def afterLoss : InMemoryStore ℚ := InMemoryStore.putAll Dict.empty "acme"
  [colourRow "memory-2" "sales" "dark green" 1, colourRow "memory-3" "legal" "red" (1 / 2),
   colourRow "memory-4" "sales" "black" (1 / 2)]

theorem lostRestored : ∃ after, Restored
    ((MemoryVersioning.empty : MemoryVersioning ℚ).commit "commit-1" 0 beforeLoss (member "acme" "sales") "" "main")
    afterLoss (member "acme" "sales") "commit-1" lostCommit after := by
  have before : beforeLoss.WellScoped := InMemoryStore.putAllWellScoped InMemoryStore.emptyWellScoped (by simp [colourRow])
  have valid : afterLoss.WellScoped := InMemoryStore.putAllWellScoped InMemoryStore.emptyWellScoped (by simp [colourRow])
  have taken : TakenBy (member "acme" "sales") lostCommit := ⟨beforeLoss, before, rfl⟩
  have unique : UniqueIds afterLoss lostCommit := by
    intro tenant row m stored listed
    rcases InMemoryStore.putAllRow _ stored with ⟨_, written, same⟩ | old
    · simp only [lostCommit, List.mem_cons, List.not_mem_nil, or_false] at listed written
      rcases listed with rfl | rfl <;> rcases written with rfl | rfl | rfl <;> simp [colourRow] at same ⊢
    · simp at old
  exact (rollbackRestores rfl taken rfl valid unique (by decide)).1 rfl

end MemoryVersioning
end ContextOS
