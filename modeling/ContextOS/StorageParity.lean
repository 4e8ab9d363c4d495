import ContextOS.Executable
import ContextOS.Postgres

/-! The two storage backends side by side: after the same writes, when do they refuse the
same and show a reader the same rows. The row policy leaves the namespace out, so they do
exactly when the namespace does not matter to any write of the reader's tenant. Memories
are compared as the table gives them back. -/
namespace ContextOS
open Lib (Dict Parts)

variable {R : Type}

abbrev Add (R : Type) := SecurityContext × MemoryObject R

def InScope (add : Add R) : Prop := add.2.tenantId = add.1.tenantId ∧ add.2.namespaceId = add.1.namespaceId

/-- A refused call leaves the store as it was. -/
def addAll {σ ε : Type} (add : σ → SecurityContext → MemoryObject R → Except ε σ) (s : σ) (adds : List (Add R)) : σ :=
  adds.foldl (fun s a => (add s a.1 a.2).toOption.getD s) s

theorem addAllLast {σ ε : Type} (add : σ → SecurityContext → MemoryObject R → Except ε σ) (s : σ) (front : List (Add R))
    (a : Add R) : addAll add s (front ++ [a]) = (add (addAll add s front) a.1 a.2).toOption.getD (addAll add s front) := by
  simp only [addAll, List.foldl_append, List.foldl_cons, List.foldl_nil]

def inMemory (adds : List (Add R)) : InMemoryStore R := addAll InMemoryStore.addMemory Dict.empty adds

def inPostgres (types : ColumnTypes R) (adds : List (Add R)) : SqlTable R :=
  addAll (PostgresStore.addMemory types) [] adds

structure Stored (types : ColumnTypes R) (add : Add R) : Prop where
  tenant : add.2.tenantId = add.1.tenantId
  accepted : types.accepts (PostgresStore.toRow types add.2)

/-! ### What each backend holds -/

def DistinctIds (adds : List (Add R)) : Prop := (adds.map (·.2.id)).Nodup

instance (adds : List (Add R)) : Decidable (DistinctIds adds) := inferInstanceAs (Decidable (List.Nodup _))

theorem distinctFront {front : List (Add R)} {a : Add R} (distinct : DistinctIds (front ++ [a])) :
    DistinctIds front ∧ ∀ old ∈ front, old.2.id ≠ a.2.id := by
  unfold DistinctIds at distinct
  rw [List.map_append, List.map_singleton, List.nodup_append] at distinct
  exact ⟨distinct.1, fun old member => distinct.2.2 _ (List.mem_map_of_mem member) _ (by simp)⟩

theorem memoryHolds {adds : List (Add R)} (distinct : DistinctIds adds) (tenant id : String) (m : MemoryObject R) :
    ((inMemory adds).part tenant).get id = some m ↔
      ∃ a ∈ adds, InScope a ∧ a.2 = m ∧ m.tenantId = tenant ∧ m.id = id := by
  induction adds using List.reverseRecOn with
  | nil => simp [inMemory, addAll]
  | append_singleton front a ih =>
    obtain ⟨ctx, new⟩ := a
    obtain ⟨distinct, fresh⟩ := distinctFront distinct
    simp only [List.mem_append, List.mem_singleton, or_and_right, exists_or, exists_eq_left, ← ih distinct]
    simp only [inMemory, addAllLast]
    rcases InMemoryStore.addMemoryCases ctx new with ⟨e, refused⟩ | ⟨sameTenant, sameNs, admitted⟩
    · have outside : ¬ InScope (ctx, new) := by
        intro given
        obtain ⟨tenant, ns⟩ := given
        have admitted := InMemoryStore.addedIff (s := Dict.empty).mpr ⟨tenant, ns, rfl⟩
        rw [refused] at admitted
        contradiction
      simp [refused, outside, Except.toOption]
    · simp only [admitted, Except.toOption, Option.getD_some]
      by_cases key : tenant = ctx.tenantId ∧ id = new.id
      · obtain ⟨rfl, rfl⟩ := key
        have absent : ((inMemory front).part ctx.tenantId).get new.id ≠ some m := fun found => by
          obtain ⟨old, member, _, rfl, _, same⟩ := (ih distinct).mp found
          exact fresh old member same
        rw [Parts.getPutSelf, Option.some.injEq]
        constructor
        · intro equal
          subst equal
          exact .inr ⟨⟨sameTenant, sameNs⟩, rfl, sameTenant, rfl⟩
        · exact fun found => found.elim (absurd · absent) (·.2.1)
      · rw [Parts.getPutOther key]
        refine (or_iff_left ?_).symm
        intro given
        obtain ⟨_, rfl, owner, same⟩ := given
        exact key ⟨owner.symm.trans sameTenant, same.symm⟩

def Written (types : ColumnTypes R) (adds : List (Add R)) (row : SqlRow R) : Prop :=
  ∃ a ∈ adds, Stored types a ∧ PostgresStore.toRow types a.2 = row

theorem writtenFree {types : ColumnTypes R} {front : List (Add R)} {id : String} (fresh : ∀ old ∈ front, old.2.id ≠ id)
    {row : SqlRow R} (written : Written types front row) : row.id ≠ id := by
  obtain ⟨old, member, _, rfl⟩ := written
  exact fresh old member

theorem tableHolds (types : ColumnTypes R) {adds : List (Add R)} (distinct : DistinctIds adds) (row : SqlRow R) :
    row ∈ inPostgres types adds ↔ Written types adds row := by
  induction adds using List.reverseRecOn generalizing row with
  | nil => simp [inPostgres, addAll, Written]
  | append_singleton front a ih =>
    obtain ⟨distinct, fresh⟩ := distinctFront distinct
    have free : ∀ old ∈ inPostgres types front, old.id ≠ a.2.id := fun old member =>
      writtenFree fresh ((ih distinct old).mp member)
    simp only [Written, List.mem_append, List.mem_singleton, or_and_right, exists_or, exists_eq_left]
    rw [← Written, ← ih distinct]
    simp only [inPostgres, addAllLast] at free ⊢
    by_cases stored : Stored types a
    · rw [PostgresStore.addedIff.mpr ⟨stored.accepted, stored.tenant, free, rfl⟩]
      simp [stored, Except.toOption, eq_comm]
    · cases attempt : PostgresStore.addMemory types (addAll (PostgresStore.addMemory types) [] front) a.1 a.2 with
      | error e => simp [stored, Except.toOption]
      | ok table =>
        obtain ⟨accepted, tenant, _⟩ := PostgresStore.addedIff.mp attempt
        exact absurd ⟨tenant, accepted⟩ stored

theorem tableKey (types : ColumnTypes R) (adds : List (Add R)) : PostgresStore.PrimaryKey (inPostgres types adds) := by
  induction adds using List.reverseRecOn with
  | nil => exact List.nodup_nil
  | append_singleton front a ih =>
    simp only [inPostgres, addAllLast] at ih ⊢
    cases attempt : PostgresStore.addMemory types (addAll (PostgresStore.addMemory types) [] front) a.1 a.2 with
    | error e => exact ih
    | ok table => exact PostgresStore.addedPrimaryKey ih attempt

def asStored (types : ColumnTypes R) (m : MemoryObject R) : MemoryObject R :=
  PostgresStore.rowToMemory (PostgresStore.toRow types m)

theorem memoryShows {adds : List (Add R)} (distinct : DistinctIds adds) (reader : SecurityContext) (id : String)
    (m : MemoryObject R) :
    (inMemory adds).getMemory reader id = some m ↔
      ∃ a ∈ adds, InScope a ∧ a.2 = m ∧ m.tenantId = reader.tenantId ∧ m.namespaceId = reader.namespaceId ∧ m.id = id := by
  rw [InMemoryStore.getMemoryIff, memoryHolds distinct]
  constructor
  · intro given
    obtain ⟨⟨a, member, scope, same, owner, key⟩, ns⟩ := given
    exact ⟨a, member, scope, same, owner, ns, key⟩
  · intro given
    obtain ⟨a, member, scope, same, owner, ns, key⟩ := given
    exact ⟨⟨a, member, scope, same, owner, key⟩, ns⟩

theorem tableShows (types : ColumnTypes R) {adds : List (Add R)} (distinct : DistinctIds adds) (reader : SecurityContext)
    (id : String) (m : MemoryObject R) :
    PostgresStore.getMemory (inPostgres types adds) reader id = some m ↔
      ∃ a ∈ adds, Stored types a ∧ asStored types a.2 = m ∧ a.2.tenantId = reader.tenantId ∧ a.2.id = id := by
  rw [PostgresStore.fetchedIff (tableKey types adds)]
  simp only [tableHolds types distinct]
  constructor
  · intro given
    obtain ⟨_, ⟨a, member, stored, rfl⟩, owner, key, same⟩ := given
    exact ⟨a, member, stored, same, owner, key⟩
  · intro given
    obtain ⟨a, member, stored, same, owner, key⟩ := given
    exact ⟨_, ⟨a, member, stored, rfl⟩, owner, key, same⟩

/-! ### One scope -/

structure SameScope (types : ColumnTypes R) (adds : List (Add R)) (reader : SecurityContext) : Prop where
  refused : ∀ front add back, adds = front ++ add :: back →
    (∀ s, (inMemory front).addMemory add.1 add.2 ≠ .ok s) →
    ∀ table, PostgresStore.addMemory types (inPostgres types front) add.1 add.2 ≠ .ok table
  listed : ∀ limit, ((inMemory adds).listMemories reader limit).length < limit →
    (PostgresStore.listMemories (inPostgres types adds) reader limit).length < limit →
    ∀ m, m ∈ PostgresStore.listMemories (inPostgres types adds) reader limit ↔
      ∃ row ∈ (inMemory adds).listMemories reader limit, asStored types row = m
  fetched : ∀ id, PostgresStore.getMemory (inPostgres types adds) reader id =
    ((inMemory adds).getMemory reader id).map (asStored types)

structure OneNamespace (types : ColumnTypes R) (adds : List (Add R)) (reader : SecurityContext) : Prop where
  writers : ∀ add ∈ adds, Stored types add → add.2.namespaceId = add.1.namespaceId
  readers : ∀ add ∈ adds, InScope add → add.2.tenantId = reader.tenantId →
    (Stored types add ↔ add.2.namespaceId = reader.namespaceId)

theorem writersAgree (types : ColumnTypes R) {adds : List (Add R)} (distinct : DistinctIds adds) :
    (∀ front add back, adds = front ++ add :: back →
      (∀ s, (inMemory front).addMemory add.1 add.2 ≠ .ok s) →
      ∀ table, PostgresStore.addMemory types (inPostgres types front) add.1 add.2 ≠ .ok table) ↔
    ∀ add ∈ adds, Stored types add → add.2.namespaceId = add.1.namespaceId := by
  constructor
  · intro refused add member stored
    obtain ⟨front, back, rfl⟩ := List.append_of_mem member
    by_contra foreign
    have distinct : DistinctIds (front ++ [add]) :=
      distinct.sublist (List.Sublist.map _ (List.Sublist.append_left (by simp) front))
    obtain ⟨distinct, fresh⟩ := distinctFront distinct
    refine refused front add back rfl (fun s ok => foreign (InMemoryStore.addedIff.mp ok).2.1) _
      (PostgresStore.addedIff.mpr ⟨stored.accepted, stored.tenant, ?_, rfl⟩)
    exact fun old held => writtenFree fresh ((tableHolds types distinct old).mp held)
  · intro own front add back equal refused table ok
    subst equal
    obtain ⟨accepted, tenant, _⟩ := PostgresStore.addedIff.mp ok
    have ns := own add (by simp) ⟨tenant, accepted⟩
    exact refused _ (InMemoryStore.addedIff.mpr ⟨tenant, ns, rfl⟩)

theorem listedOfFetched (types : ColumnTypes R) {adds : List (Add R)} {reader : SecurityContext}
    (fetched : ∀ id, PostgresStore.getMemory (inPostgres types adds) reader id =
      ((inMemory adds).getMemory reader id).map (asStored types))
    {limit : Nat} (memory : ((inMemory adds).listMemories reader limit).length < limit)
    (table : (PostgresStore.listMemories (inPostgres types adds) reader limit).length < limit) (m : MemoryObject R) :
    m ∈ PostgresStore.listMemories (inPostgres types adds) reader limit ↔
      ∃ row ∈ (inMemory adds).listMemories reader limit, asStored types row = m := by
  simp only [PostgresStore.listedIff (tableKey types adds) table, InMemoryStore.listedIff memory, fetched,
    Option.map_eq_some_iff]
  exact ⟨fun ⟨id, row, found, same⟩ => ⟨row, ⟨id, found⟩, same⟩, fun ⟨row, ⟨id, found⟩, same⟩ => ⟨id, row, found, same⟩⟩

theorem sameScopeIff (types : ColumnTypes R) {adds : List (Add R)} (distinct : DistinctIds adds)
    (reader : SecurityContext) : SameScope types adds reader ↔ OneNamespace types adds reader := by
  constructor
  · intro given
    obtain ⟨refused, _, fetched⟩ := given
    refine ⟨(writersAgree types distinct).mp refused, fun add member scope owner => ⟨fun stored => ?_, fun ns => ?_⟩⟩
    · have shown := (tableShows types distinct reader add.2.id _).mpr ⟨add, member, stored, rfl, owner, rfl⟩
      rw [fetched, Option.map_eq_some_iff] at shown
      obtain ⟨m, found, same⟩ := shown
      obtain ⟨_, _, _, _, _, ns, _⟩ := (memoryShows distinct reader add.2.id m).mp found
      exact (congrArg MemoryObject.namespaceId same).symm.trans ns
    · have shown := (memoryShows distinct reader add.2.id _).mpr ⟨add, member, scope, rfl, owner, ns, rfl⟩
      have fetched := (fetched add.2.id).trans (congrArg _ shown)
      obtain ⟨a, inside, stored, _, _, key⟩ := (tableShows types distinct reader add.2.id _).mp fetched
      exact List.inj_on_of_nodup_map distinct inside member key ▸ stored
  · intro given
    obtain ⟨writers, reads⟩ := given
    have fetched : ∀ id, PostgresStore.getMemory (inPostgres types adds) reader id =
        ((inMemory adds).getMemory reader id).map (asStored types) := by
      refine fun id => Option.ext fun m => ?_
      rw [tableShows types distinct, Option.map_eq_some_iff]
      simp only [memoryShows distinct]
      constructor
      · intro given
        obtain ⟨a, member, stored, same, owner, key⟩ := given
        have scope : InScope a := ⟨stored.tenant, writers a member stored⟩
        exact ⟨a.2, ⟨a, member, scope, rfl, owner, (reads a member scope owner).mp stored, key⟩, same⟩
      · intro given
        obtain ⟨_, ⟨a, member, scope, rfl, owner, ns, key⟩, same⟩ := given
        exact ⟨a, member, (reads a member scope owner).mpr ns, same, owner, key⟩
    exact ⟨(writersAgree types distinct).mpr writers, fun _ => listedOfFetched types fetched, fetched⟩

/-! ### One tenant, two namespaces -/

def plainTypes : ColumnTypes ℚ where
  real := id
  jsonb := id
  accepts row := [row.id, row.tenantId, row.namespaceId, row.content].all (fun text => !text.toList.contains (Char.ofNat 0))

def salesNote : Add ℚ :=
  (member "acme" "sales",
    ⟨"memory-1", "acme", "sales", .longTerm, "blue", none, 1 / 2, 0, 0, ⟨"chat", none, 0⟩, Dict.empty⟩)

/-- Two namespaces of a tenant, another tenant, and a write into a namespace that is not the writer's. -/
def fourNotes : List (Add ℚ) :=
  [salesNote,
   (member "acme" "legal",
    ⟨"memory-2", "acme", "legal", .longTerm, "red", none, 1 / 2, 1, 1, ⟨"chat", none, 1⟩, Dict.empty⟩),
   (member "globex" "sales",
    ⟨"memory-3", "globex", "sales", .semantic, "green", none, 1 / 4, 2, 2, ⟨"chat", none, 2⟩, Dict.empty⟩),
   (member "acme" "legal",
    ⟨"memory-4", "acme", "sales", .longTerm, "black", none, 1 / 2, 3, 3, ⟨"chat", none, 3⟩, Dict.empty⟩)]

theorem sameScopeIffSample : DistinctIds fourNotes ∧
    (SameScope plainTypes fourNotes (member "acme" "sales") ↔ OneNamespace plainTypes fourNotes (member "acme" "sales")) := by
  have distinct : DistinctIds fourNotes := by decide
  exact ⟨distinct, sameScopeIff plainTypes distinct (member "acme" "sales")⟩

theorem rowAcrossNamespaces : DistinctIds [salesNote] ∧ ¬ SameScope plainTypes [salesNote] (member "acme" "legal") := by
  refine ⟨by decide, fun same => ?_⟩
  have shown := congrArg Option.isSome (same.fetched "memory-1")
  exact absurd shown (by decide)

end ContextOS
