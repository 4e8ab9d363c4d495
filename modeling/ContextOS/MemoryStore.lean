import ContextOS.Models

/-! The in-memory storage backend: rows are partitioned by tenant, and a namespace
is a hard filter on every read and every write. The scope is all that admission looks at. -/
namespace ContextOS
open Lib (Dict Parts)

variable {R : Type}

abbrev InMemoryStore (R : Type) := Parts String String (MemoryObject R)

namespace InMemoryStore

def addMemory (s : InMemoryStore R) (ctx : SecurityContext) (memory : MemoryObject R) :
    Except PyError (InMemoryStore R) :=
  if memory.tenantId ≠ ctx.tenantId then .error ⟨.accessDenied, "write tenant != context tenant"⟩
  else if memory.namespaceId ≠ ctx.namespaceId then
    .error ⟨.accessDenied, "write namespace != context namespace"⟩
  else .ok (s.put ctx.tenantId memory.id memory)

def getMemory (s : InMemoryStore R) (ctx : SecurityContext) (memoryId : String) : Option (MemoryObject R) :=
  match (s.part ctx.tenantId).get memoryId with
  | none => none
  | some row => if row.namespaceId ≠ ctx.namespaceId then none else some row

def listMemories (s : InMemoryStore R) (ctx : SecurityContext) (limit : Nat) : List (MemoryObject R) :=
  ((s.part ctx.tenantId).values.filter (fun r => r.namespaceId = ctx.namespaceId)).take limit

theorem addedIff {s s' : InMemoryStore R} {ctx memory} :
    s.addMemory ctx memory = .ok s' ↔
      memory.tenantId = ctx.tenantId ∧ memory.namespaceId = ctx.namespaceId ∧
      s' = s.put ctx.tenantId memory.id memory := by
  unfold addMemory
  split
  · rename_i tenant
    simp [tenant]
  · rename_i tenant
    split
    · rename_i ns
      simp [ns]
    · rename_i ns
      simp only [ne_eq, Decidable.not_not] at tenant ns
      simp [tenant, ns, eq_comm]

theorem listMember {s : InMemoryStore R} {ctx limit row} (member : row ∈ s.listMemories ctx limit) :
    row ∈ (s.part ctx.tenantId).values ∧ row.namespaceId = ctx.namespaceId := by
  have inside := List.mem_filter.mp (List.mem_of_mem_take member)
  exact ⟨inside.1, by simpa using inside.2⟩

theorem getMemoryIff {s : InMemoryStore R} {ctx memoryId row} :
    s.getMemory ctx memoryId = some row ↔
      (s.part ctx.tenantId).get memoryId = some row ∧ row.namespaceId = ctx.namespaceId := by
  unfold getMemory
  cases found : (s.part ctx.tenantId).get memoryId with
  | none => simp
  | some r =>
    by_cases ns : r.namespaceId = ctx.namespaceId
    · simp only [ns, ne_eq, not_true_eq_false, if_false, Option.some.injEq]
      exact ⟨fun same => ⟨same, same ▸ ns⟩, fun h => h.1⟩
    · simp only [ns, ne_eq, not_false_eq_true, if_true, Option.some.injEq, reduceCtorEq, false_iff]
      intro given
      obtain ⟨rfl, same⟩ := given
      exact ns same

theorem listedIff {s : InMemoryStore R} {ctx limit row} (unreached : (s.listMemories ctx limit).length < limit) :
    row ∈ s.listMemories ctx limit ↔ ∃ memoryId, s.getMemory ctx memoryId = some row := by
  simp only [getMemoryIff, exists_and_right, ← Dict.memValues]
  unfold listMemories at unreached ⊢
  rw [List.length_take] at unreached
  rw [List.take_of_length_le (by omega), List.mem_filter, decide_eq_true_eq]

theorem addMemoryCases (ctx : SecurityContext) (memory : MemoryObject R) :
    (∃ e, ∀ s : InMemoryStore R, s.addMemory ctx memory = .error e) ∨
    (memory.tenantId = ctx.tenantId ∧ memory.namespaceId = ctx.namespaceId ∧
      ∀ s : InMemoryStore R, s.addMemory ctx memory = .ok (s.put ctx.tenantId memory.id memory)) := by
  unfold addMemory
  by_cases tenant : memory.tenantId = ctx.tenantId
  · by_cases ns : memory.namespaceId = ctx.namespaceId
    · exact .inr ⟨tenant, ns, fun s => by rw [if_neg (not_not.mpr tenant), if_neg (not_not.mpr ns)]⟩
    · exact .inl ⟨_, fun s => by rw [if_neg (not_not.mpr tenant), if_pos ns]⟩
  · exact .inl ⟨_, fun s => by rw [if_pos tenant]⟩

def putAll (s : InMemoryStore R) (tenant : String) (rows : List (MemoryObject R)) : InMemoryStore R :=
  rows.foldl (fun s m => s.put tenant m.id m) s

theorem partPutAllOther {tenant other : String} (different : other ≠ tenant) (rows : List (MemoryObject R))
    (s : InMemoryStore R) : (s.putAll tenant rows).part other = s.part other := by
  induction rows generalizing s with
  | nil => rfl
  | cons m rest ih => exact (ih _).trans (Parts.partPutOther s different _ _)

theorem partPutAllCongr {tenant other : String} (rows : List (MemoryObject R)) {s t : InMemoryStore R}
    (agree : s.part other = t.part other) : (s.putAll tenant rows).part other = (t.putAll tenant rows).part other := by
  induction rows generalizing s t with
  | nil => exact agree
  | cons m rest ih => exact ih (Parts.partPutCongr agree _ _ _)

theorem putAllRow {tenant other id : String} {row : MemoryObject R} (rows : List (MemoryObject R))
    {s : InMemoryStore R} (found : ((s.putAll tenant rows).part other).get id = some row) :
    (other = tenant ∧ row ∈ rows ∧ row.id = id) ∨ (s.part other).get id = some row := by
  induction rows generalizing s with
  | nil => exact .inr found
  | cons m rest ih =>
    rcases ih (s := s.put tenant m.id m) found with ⟨owner, later, same⟩ | old
    · exact .inl ⟨owner, List.mem_cons_of_mem _ later, same⟩
    · rcases Parts.getPut old with ⟨owner, same, rfl⟩ | older
      · exact .inl ⟨owner, List.mem_cons_self, same.symm⟩
      · exact .inr older

theorem putAllOther {tenant other id : String} {rows : List (MemoryObject R)} (fresh : id ∉ rows.map (·.id))
    (s : InMemoryStore R) : ((s.putAll tenant rows).part other).get id = (s.part other).get id := by
  induction rows generalizing s with
  | nil => rfl
  | cons m rest ih =>
    obtain ⟨different, later⟩ := not_or.mp (List.mem_cons.not.mp fresh)
    exact (ih later (s.put tenant m.id m)).trans (Parts.getPutOther (fun same => different same.2) m)

theorem putAllSelf {tenant : String} {rows : List (MemoryObject R)} (distinct : (rows.map (·.id)).Nodup)
    {m : MemoryObject R} (member : m ∈ rows) (s : InMemoryStore R) :
    ((s.putAll tenant rows).part tenant).get m.id = some m := by
  induction rows generalizing s with
  | nil => contradiction
  | cons first rest ih =>
    obtain ⟨fresh, distinct⟩ := List.nodup_cons.mp distinct
    rcases List.mem_cons.mp member with rfl | later
    · exact (putAllOther fresh (s.put tenant m.id m)).trans (Parts.getPutSelf s tenant m.id m)
    · exact ih distinct later (s.put tenant first.id first)

def WellScoped (s : InMemoryStore R) : Prop :=
  ∀ tenant id row, (s.part tenant).get id = some row → row.tenantId = tenant ∧ row.id = id

theorem emptyWellScoped : WellScoped (Dict.empty : InMemoryStore R) := by
  intro tenant id row found
  simp at found

theorem putAllWellScoped {s : InMemoryStore R} {tenant rows} (valid : WellScoped s)
    (own : ∀ m ∈ rows, m.tenantId = tenant) : WellScoped (s.putAll tenant rows) := by
  intro t id row found
  rcases putAllRow rows found with ⟨rfl, written, same⟩ | old
  · exact ⟨own row written, same⟩
  · exact valid t id row old

/-! ### The rows of a scope -/

/-- All rows that `list_memories` ranges over before its limit. -/
def scope (s : InMemoryStore R) (ctx : SecurityContext) : List (MemoryObject R) :=
  (s.part ctx.tenantId).values.filter (fun r => r.namespaceId = ctx.namespaceId)

theorem listScope {s : InMemoryStore R} {ctx : SecurityContext} {limit : Nat} (few : (s.scope ctx).length ≤ limit) :
    s.listMemories ctx limit = s.scope ctx := List.take_of_length_le few

theorem WellScoped.ids {s : InMemoryStore R} (valid : WellScoped s) (tenant : String) :
    (s.part tenant).values.map (·.id) = (s.part tenant).keys := by
  rw [Dict.values, List.map_map]
  refine List.map_congr_left fun entry member => ?_
  exact (valid tenant entry.1 entry.2 (Lib.memberFind (s.part tenant).distinct member)).2

theorem WellScoped.scopeDistinct {s : InMemoryStore R} (valid : WellScoped s) (ctx : SecurityContext) :
    ((s.scope ctx).map (·.id)).Nodup := by
  have once : ((s.part ctx.tenantId).values.map (·.id)).Nodup := valid.ids ctx.tenantId ▸ (s.part ctx.tenantId).distinct
  exact once.sublist (List.filter_sublist.map _)

theorem WellScoped.owner {s : InMemoryStore R} (valid : WellScoped s) {ctx : SecurityContext} {row : MemoryObject R}
    (member : row ∈ s.scope ctx) : row.tenantId = ctx.tenantId ∧ row.namespaceId = ctx.namespaceId := by
  obtain ⟨inside, ns⟩ := List.mem_filter.mp member
  obtain ⟨id, found⟩ := Dict.memValues.mp inside
  exact ⟨(valid ctx.tenantId id row found).1, by simpa using ns⟩

end InMemoryStore
end ContextOS
