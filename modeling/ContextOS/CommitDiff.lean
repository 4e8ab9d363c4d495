import ContextOS.BranchHeads

/-! The diff of two commits of one scope. Between them any contexts write, and every fresh
row goes last in the rows of its scope: the second snapshot extends the first by the rows
written in the scope. That holds as long as the listing behind a snapshot is not cut. -/
namespace ContextOS
open Lib (Dict Parts Machine)

variable {R : Type}

namespace MemoryVersioning

theorem contentEntries {c : Commit R} (distinct : (c.snapshot.map (·.id)).Nodup) :
    (contentMap c).entries = c.snapshot.map (fun m => (m.id, m.content)) :=
  Dict.ofListEntries (by rw [List.map_map]; exact distinct)

theorem contentKeys {c : Commit R} (distinct : (c.snapshot.map (·.id)).Nodup) :
    (contentMap c).keys = c.snapshot.map (·.id) := by
  rw [Dict.keys, contentEntries distinct, List.map_map]
  rfl

theorem contentOf {c : Commit R} (distinct : (c.snapshot.map (·.id)).Nodup) {m : MemoryObject R} (member : m ∈ c.snapshot) :
    (contentMap c).get m.id = some m.content :=
  Dict.getOfList (by rw [List.map_map]; exact distinct) (List.mem_map_of_mem member)

theorem diffExtended {v : MemoryVersioning R} {ctx : SecurityContext} {aCid bCid : String} {a b : Commit R}
    {old new : List (MemoryObject R)} (first : v.get ctx aCid = some a) (second : v.get ctx bCid = some b)
    (snapshot : a.snapshot = old) (extended : b.snapshot = old ++ new) (distinct : ((old ++ new).map (·.id)).Nodup) :
    v.diff ctx aCid bCid = .ok ⟨(new.map (·.id)).insertionSort (· ≤ ·), [], []⟩ := by
  have onceB : (b.snapshot.map (·.id)).Nodup := extended ▸ distinct
  have onceA : (a.snapshot.map (·.id)).Nodup :=
    snapshot ▸ distinct.sublist ((List.sublist_append_left old new).map _)
  have missing : ∀ id, (contentMap a).get id = none ↔ id ∉ old.map (·.id) := fun id => by
    rw [Dict.getNone, contentKeys onceA, snapshot]
  have same : ∀ id ∈ old.map (·.id), (contentMap b).get id = (contentMap a).get id ∧ ((contentMap a).get id).isSome := by
    intro id listed
    obtain ⟨m, member, rfl⟩ := List.mem_map.mp listed
    rw [contentOf onceB (extended ▸ List.mem_append_left new member), contentOf onceA (snapshot.symm ▸ member)]
    exact ⟨rfl, rfl⟩
  have added : (contentMap b).keys.filter (fun id => ((contentMap a).get id).isNone) = new.map (·.id) := by
    rw [List.map_append] at distinct
    obtain ⟨_, _, apart⟩ := List.nodup_append.mp distinct
    rw [contentKeys onceB, extended, List.map_append, List.filter_append, List.filter_eq_nil_iff.mpr, List.nil_append,
      List.filter_eq_self.mpr]
    · intro id listed
      rw [(missing id).mpr fun old => apart id old id listed rfl]
      rfl
    · intro id listed none
      exact (missing id).mp (Option.isNone_iff_eq_none.mp none) listed
  have removed : (contentMap a).keys.filter (fun id => ((contentMap b).get id).isNone) = [] := by
    rw [contentKeys onceA, snapshot, List.filter_eq_nil_iff]
    intro id listed none
    obtain ⟨equal, some⟩ := same id listed
    rw [← equal, Option.isNone_iff_eq_none.mp none] at some
    contradiction
  have changed : (contentMap a).keys.filter
      (fun id => ((contentMap b).get id).isSome ∧ (contentMap a).get id ≠ (contentMap b).get id) = [] := by
    rw [contentKeys onceA, snapshot, List.filter_eq_nil_iff]
    intro id listed other
    simp [(same id listed).1] at other
  simp only [diff, first, second, added, removed, changed, List.insertionSort_nil]

end MemoryVersioning

/-! ### Writes between two commits -/

-- the ids drawn for a row or a commit are new in the tenant
def FreshIds (s : AppState R) (r : Request R) : Prop :=
  match r.op with
  | .writeMemory _ _ _ => ((s.stores.memories.part r.ctx.tenantId).get r.env.birth.id).isNone
  | .consolidate => ((s.stores.memories.part r.ctx.tenantId).get r.env.birth.id).isNone
  | .memoryCommit _ _ => ((s.versioning.commits.part r.ctx.tenantId).get r.env.commitId).isNone
  | _ => True

instance (s : AppState R) (r : Request R) : Decidable (FreshIds s r) := by
  unfold FreshIds
  split <;> infer_instance

-- restoring a snapshot puts rows in a scope that no write brought
def Request.Plain (r : Request R) : Prop :=
  match r.op with
  | .memoryRollback _ => False
  | _ => True

def ScopeOf (ctx : SecurityContext) (r : Request R) : Prop :=
  r.ctx.tenantId = ctx.tenantId ∧ r.ctx.namespaceId = ctx.namespaceId

instance (ctx : SecurityContext) (r : Request R) : Decidable (ScopeOf ctx r) := inferInstanceAs (Decidable (_ ∧ _))

theorem ScopeOf.same {ctx : SecurityContext} {r : Request R} (own : ScopeOf ctx r) (s : InMemoryStore R) :
    s.scope r.ctx = s.scope ctx := by
  rw [InMemoryStore.scope, InMemoryStore.scope, own.1, own.2]

structure CommitOf (ctx : SecurityContext) (r : Request R) : Prop where
  commits : ∃ label branch, r.op = .memoryCommit label branch
  scope : ScopeOf ctx r

-- the ids of the rows written under the scope: by a write that was answered, or by a
-- consolidation that found something to consolidate
def writtenIds (ctx : SecurityContext) (replies : List (Request R × Response R)) : List String :=
  replies.filterMap (fun reply =>
    match reply.1.op, reply.2.result with
    | .writeMemory _ _ _, .ok (.memory row) => if ScopeOf ctx reply.1 then some row.id else none
    | .consolidate, .ok (.consolidated n) => if ScopeOf ctx reply.1 ∧ n ≠ 0 then some reply.1.env.birth.id else none
    | _, _ => none)

namespace InMemoryStore

theorem scopePut {s : InMemoryStore R} {r : Request R} {m : MemoryObject R}
    (own : m.tenantId = r.ctx.tenantId ∧ m.namespaceId = r.ctx.namespaceId)
    (fresh : ((s.part r.ctx.tenantId).get m.id).isNone) (ctx : SecurityContext) :
    InMemoryStore.scope (s.putAll r.ctx.tenantId [m]) ctx = s.scope ctx ++ if ScopeOf ctx r then [m] else [] := by
  obtain ⟨tenant, ns⟩ := own
  have free : (s.part m.tenantId).get m.id = none := by
    rw [tenant]
    exact Option.isNone_iff_eq_none.mp fresh
  have owned : ScopeOf ctx r ↔ m.tenantId = ctx.tenantId ∧ m.namespaceId = ctx.namespaceId := by
    rw [tenant, ns]
    rfl
  simp only [scope, owned, putAll, List.foldl_cons, List.foldl_nil, ← tenant]
  by_cases owner : m.tenantId = ctx.tenantId
  · rw [← owner, Parts.partPutSelf, Dict.values, Dict.setFresh free, List.map_append, List.filter_append]
    by_cases here : m.namespaceId = ctx.namespaceId
    · simp [here, Dict.values]
    · simp [here, Dict.values]
  · rw [Parts.partPutOther s (Ne.symm owner), if_neg (fun both => owner both.1), List.append_nil]

end InMemoryStore

namespace App
variable [PyFloat R] [Builtins] (a : App R)

theorem stepScope {s : AppState R} {r : Request R} (plain : r.Plain) (fresh : FreshIds s r) (ctx : SecurityContext) :
    ∃ rows, (a.step s r).1.stores.memories.scope ctx = s.stores.memories.scope ctx ++ rows ∧
      rows.map (·.id) = writtenIds ctx [(r, (a.step s r).2)] := by
  unfold App.step
  unfold Request.Plain at plain
  unfold FreshIds at fresh
  unfold writtenIds
  cases op : r.op with
  | chat call =>
    refine ⟨[], by rw [a.pipeline.runMemories, List.append_nil], ?_⟩
    simp only [op, List.filterMap_cons, List.filterMap_nil, List.map_nil]
  | writeMemory content tier importance =>
    simp only [op] at fresh
    rcases MemoryEngine.writeCases r.env.birth r.ctx (⟨content, tier, importance, "chat", none, Dict.empty⟩ : WriteRequest R)
      with ⟨e, refused⟩ | ⟨memory, tenant, ns, made, admitted⟩
    · simp only [refused]
      exact ⟨[], by rw [List.append_nil], by simp [op, quiet]⟩
    · simp only [admitted]
      have id := MemoryEngine.constructedId made
      rw [← id] at fresh
      refine ⟨_, InMemoryStore.scopePut ⟨tenant, ns⟩ fresh ctx, ?_⟩
      simp only [op, quiet, List.filterMap_cons, List.filterMap_nil]
      by_cases here : ScopeOf ctx r
      · rw [if_pos here, if_pos here, List.map_singleton]
      · rw [if_neg here, if_neg here, List.map_nil]
  | memoryRollback cid => simp [op] at plain
  | consolidate =>
    simp only [op] at fresh
    obtain ⟨n, written, calls, own, ids, effect⟩ :=
      a.consolidateCases r.env r.ctx (MemoryEngine.allMemories s.stores.memories r.ctx 512)
    simp only [effect _ rfl]
    split at ids
    · rename_i nothing
      rw [List.map_eq_nil_iff.mp ids]
      exact ⟨[], (List.append_nil _).symm, by simp [op, nothing]⟩
    · rename_i some
      obtain ⟨row, rfl, id⟩ := List.map_eq_singleton_iff.mp ids
      rw [← id] at fresh
      refine ⟨_, InMemoryStore.scopePut (own row (List.mem_singleton_self row)) fresh ctx, ?_⟩
      simp only [op, List.filterMap_cons, List.filterMap_nil, and_iff_left some, ← id]
      by_cases here : ScopeOf ctx r
      · rw [if_pos here, if_pos here, List.map_singleton]
      · rw [if_neg here, if_neg here, List.map_nil]
  | _ => exact ⟨[], by rw [List.append_nil], by simp only [op, List.filterMap_cons, List.filterMap_nil, List.map_nil]⟩

theorem runScope {s : AppState R} {requests : List (Request R)} (plain : ∀ r ∈ requests, r.Plain)
    (fresh : a.machine.Along FreshIds s requests) (ctx : SecurityContext) :
    ∃ rows, (a.machine.exec s requests).stores.memories.scope ctx = s.stores.memories.scope ctx ++ rows ∧
      rows.map (·.id) = writtenIds ctx (a.machine.replies s requests) := by
  induction requests generalizing s with
  | nil => exact ⟨[], (List.append_nil _).symm, rfl⟩
  | cons r rest ih =>
    obtain ⟨first, later⟩ := List.forall_mem_cons.mp plain
    obtain ⟨here, freshLater⟩ := a.machine.alongCons.mp fresh
    obtain ⟨rows, placed, ids⟩ := a.stepScope first here ctx
    obtain ⟨more, placedMore, idsMore⟩ := ih later freshLater
    refine ⟨rows ++ more, ?_, ?_⟩
    · rw [← List.append_assoc, ← placed]
      exact placedMore
    · rw [List.map_append, ids, idsMore, writtenIds, writtenIds, ← List.filterMap_append]
      rfl

theorem stepCommitted {s : AppState R} {r : Request R} {ctx : SecurityContext} (commit : CommitOf ctx r) :
    (a.step s r).1.stores = s.stores ∧ ∃ c, (a.step s r).1.versioning.get ctx r.env.commitId = some c ∧
      c.snapshot = (s.stores.memories.scope ctx).take MemoryVersioning.versionedRows := by
  obtain ⟨⟨label, branch, op⟩, own⟩ := commit
  simp only [App.step, op, MemoryVersioning.get, MemoryVersioning.commit, ← own.1, Parts.getPutSelf, true_and]
  refine ⟨_, rfl, ?_⟩
  rw [← own.same]
  rfl

theorem commitKept {s : AppState R} {requests : List (Request R)} (fresh : a.machine.Along FreshIds s requests)
    {ctx : SecurityContext} {cid : String} {c : Commit R} (stored : s.versioning.get ctx cid = some c) :
    (a.machine.exec s requests).versioning.get ctx cid = some c := by
  refine a.machine.alongInvariant (J := fun s => s.versioning.get ctx cid = some c) (fun s r kept new => ?_) stored fresh
  obtain ⟨_, stays⟩ := a.stepKeepsCommit r (.inr ⟨c, kept⟩)
  have effect := a.stepCommits s r stays
  split at effect
  · rename_i commits
    unfold commitsAs at commits
    split at commits
    · rename_i op
      simp only [Bool.and_eq_true, decide_eq_true_eq] at commits
      simp only [FreshIds, op, commits.1, commits.2] at new
      have there : (s.versioning.commits.part ctx.tenantId).get cid = some c := kept
      simp [there] at new
    · contradiction
  · exact stays.trans (effect.symm.trans kept)

end App

/-! ### Two commits of one scope -/

/-- A run with two of its requests marked. -/
structure CommitRun (R : Type) where
  before : List (Request R)
  first : Request R
  between : List (Request R)
  second : Request R
  after : List (Request R)

namespace CommitRun
variable [PyFloat R] [Builtins] (a : App R) (run : CommitRun R) (ctx : SecurityContext)

def requests (run : CommitRun R) : List (Request R) :=
  run.before ++ run.first :: (run.between ++ run.second :: run.after)

def atFirst : AppState R := a.machine.exec AppState.initial run.before

def fromFirst : AppState R := (a.step (run.atFirst a) run.first).1

def atSecond : AppState R := a.machine.exec (run.fromFirst a) run.between

def final : AppState R := a.machine.exec AppState.initial run.requests

def replies : List (Request R × Response R) := a.machine.replies (run.fromFirst a) run.between

structure Commits : Prop where
  first : CommitOf ctx run.first
  second : CommitOf ctx run.second
  plain : ∀ r ∈ run.between, r.Plain
  fresh : a.machine.Along FreshIds (run.atFirst a) (run.first :: (run.between ++ run.second :: run.after))

def Whole (rows : List (MemoryObject R)) (cid : String) : Prop :=
  ∃ c, (run.final a).versioning.get ctx cid = some c ∧ ∀ m ∈ rows, m ∈ c.snapshot

structure ExactDiff : Prop where
  firstWhole : run.Whole a ctx ((run.atFirst a).stores.memories.scope ctx) run.first.env.commitId
  secondWhole : run.Whole a ctx ((run.atSecond a).stores.memories.scope ctx) run.second.env.commitId
  exact : (run.final a).versioning.diff ctx run.first.env.commitId run.second.env.commitId =
    .ok ⟨(writtenIds ctx (run.replies a)).insertionSort (· ≤ ·), [], []⟩

theorem finalSteps : run.final a = a.machine.exec (a.step (run.atSecond a) run.second).1 run.after := by
  rw [final, requests, Machine.execAppend]
  exact a.machine.execAppend (run.fromFirst a) run.between (run.second :: run.after)

variable {a run ctx}

theorem firstStored (commits : run.Commits a ctx) :
    ∃ c, (run.final a).versioning.get ctx run.first.env.commitId = some c ∧
      c.snapshot = ((run.atFirst a).stores.memories.scope ctx).take MemoryVersioning.versionedRows := by
  obtain ⟨_, c, stored, snapshot⟩ := a.stepCommitted (s := run.atFirst a) commits.first
  have kept := a.commitKept (a.machine.alongCons.mp commits.fresh).2 stored
  rw [final, requests, Machine.execAppend]
  exact ⟨c, kept, snapshot⟩

theorem secondStored (commits : run.Commits a ctx) :
    ∃ c, (run.final a).versioning.get ctx run.second.env.commitId = some c ∧
      c.snapshot = ((run.atSecond a).stores.memories.scope ctx).take MemoryVersioning.versionedRows := by
  obtain ⟨_, c, stored, snapshot⟩ := a.stepCommitted (s := run.atSecond a) commits.second
  have later := (a.machine.alongAppend.mp (a.machine.alongCons.mp commits.fresh).2).2
  rw [finalSteps]
  exact ⟨c, a.commitKept (a.machine.alongCons.mp later).2 stored, snapshot⟩

theorem grown (commits : run.Commits a ctx) :
    ∃ rows, (run.atSecond a).stores.memories.scope ctx = (run.atFirst a).stores.memories.scope ctx ++ rows ∧
      rows.map (·.id) = writtenIds ctx (run.replies a) := by
  have fresh := (a.machine.alongAppend.mp (a.machine.alongCons.mp commits.fresh).2).1
  obtain ⟨same, _⟩ := a.stepCommitted (s := run.atFirst a) commits.first
  rw [← same]
  exact a.runScope commits.plain fresh ctx

theorem scopeDistinct : (((run.atSecond a).stores.memories.scope ctx).map (·.id)).Nodup := by
  have reached := a.reachableWellScoped (run.before ++ run.first :: run.between)
  rw [Machine.execAppend] at reached
  exact InMemoryStore.WellScoped.scopeDistinct reached ctx

theorem wholeFew (commits : run.Commits a ctx)
    (whole : run.Whole a ctx ((run.atSecond a).stores.memories.scope ctx) run.second.env.commitId) :
    ((run.atSecond a).stores.memories.scope ctx).length ≤ MemoryVersioning.versionedRows := by
  obtain ⟨c, stored, rows⟩ := whole
  obtain ⟨d, found, snapshot⟩ := secondStored commits
  cases Option.some.inj (stored.symm.trans found)
  have once : ((run.atSecond a).stores.memories.scope ctx).Nodup := List.Nodup.of_map _ scopeDistinct
  have inside := List.subperm_of_subset once rows
  calc ((run.atSecond a).stores.memories.scope ctx).length
    _ ≤ c.snapshot.length := inside.length_le
    _ ≤ MemoryVersioning.versionedRows := by rw [snapshot]; exact List.length_take_le _ _

theorem fewExact (commits : run.Commits a ctx)
    (few : ((run.atSecond a).stores.memories.scope ctx).length ≤ MemoryVersioning.versionedRows) :
    run.ExactDiff a ctx := by
  obtain ⟨c, storedC, snapshotC⟩ := firstStored commits
  obtain ⟨d, storedD, snapshotD⟩ := secondStored commits
  obtain ⟨rows, placed, ids⟩ := grown commits
  have fewFirst : ((run.atFirst a).stores.memories.scope ctx).length ≤ MemoryVersioning.versionedRows := by
    rw [placed, List.length_append] at few
    omega
  rw [List.take_of_length_le fewFirst] at snapshotC
  rw [List.take_of_length_le few] at snapshotD
  refine ⟨⟨c, storedC, fun m member => snapshotC ▸ member⟩, ⟨d, storedD, fun m member => snapshotD ▸ member⟩, ?_⟩
  rw [← ids]
  exact MemoryVersioning.diffExtended storedC storedD snapshotC (snapshotD.trans placed) (placed ▸ scopeDistinct)

theorem fullSilent (commits : run.Commits a ctx)
    (full : MemoryVersioning.versionedRows ≤ ((run.atFirst a).stores.memories.scope ctx).length) :
    (run.final a).versioning.diff ctx run.first.env.commitId run.second.env.commitId = .ok ⟨[], [], []⟩ := by
  obtain ⟨c, storedC, snapshotC⟩ := firstStored commits
  obtain ⟨d, storedD, snapshotD⟩ := secondStored commits
  obtain ⟨rows, placed, _⟩ := grown commits
  rw [placed, List.take_append_of_le_length full, ← List.append_nil (List.take _ _)] at snapshotD
  have distinct := (a.reachableWellScoped run.before).scopeDistinct ctx
  refine MemoryVersioning.diffExtended storedC storedD snapshotC snapshotD ?_
  rw [List.append_nil]
  exact distinct.sublist ((List.take_sublist _ _).map _)

end CommitRun

/-! ### Runs that fill a scope -/

def fillId (n : Nat) : String := String.ofList (List.replicate n 'x')

def fillWrite (n : Nat) : Request ℚ := ⟨member "acme" "user:1", envAt n (fillId n), .writeMemory "blue" .longTerm (1 / 2)⟩

def filling (n : Nat) : List (Request ℚ) := (List.range n).map fillWrite

def fillRow (n : Nat) : MemoryObject ℚ :=
  ⟨"memory-" ++ fillId n, "acme", "user:1", .longTerm, "blue", none, 1 / 2, n, n, ⟨"chat", none, n⟩, Dict.empty⟩

def fillCommit (n : Nat) (id : String) : Request ℚ := ⟨member "acme" "user:1", envAt n id, .memoryCommit "" "main"⟩

def filledRun (n : Nat) : CommitRun ℚ := ⟨filling n, fillCommit n "first", [fillWrite n], fillCommit n "second", []⟩

theorem fillRowDistinct {i j : Nat} (same : (fillRow i).id = (fillRow j).id) : i = j := by
  have lengths := congrArg String.length same
  simpa [fillRow, fillId] using lengths

theorem fillWritten [Builtins] (s : AppState ℚ) (n : Nat) :
    (sampleApp.step s (fillWrite n)).1 =
      { s with stores := { s.stores with memories := s.stores.memories.put "acme" (fillRow n).id (fillRow n) } } := by
  have made : MemoryEngine.construct (envAt n (fillId n)).birth (member "acme" "user:1")
      (⟨"blue", .longTerm, 1 / 2, "chat", none, Dict.empty⟩ : WriteRequest ℚ) = .ok (fillRow n) := if_pos (by norm_num)
  have added : s.stores.memories.addMemory (member "acme" "user:1") (fillRow n) =
      .ok (s.stores.memories.put "acme" (fillRow n).id (fillRow n)) := InMemoryStore.addedIff.mpr ⟨rfl, rfl, rfl⟩
  simp only [App.step, fillWrite, MemoryEngine.write, made, bind, Except.bind, added]
  rfl

theorem fillFresh [Builtins] {s : AppState ℚ} {n : Nat} (valid : s.stores.memories.WellScoped)
    (rows : (s.stores.memories.part "acme").values = (List.range n).map fillRow) :
    (s.stores.memories.part "acme").get (fillRow n).id = none := by
  rw [Dict.getNone, ← InMemoryStore.WellScoped.ids valid, rows, List.map_map, List.mem_map]
  rintro ⟨i, inside, same⟩
  rw [fillRowDistinct same] at inside
  simp at inside

theorem fillRows [Builtins] {s : AppState ℚ} {n : Nat} (valid : s.stores.memories.WellScoped)
    (rows : (s.stores.memories.part "acme").values = (List.range n).map fillRow) :
    ((sampleApp.step s (fillWrite n)).1.stores.memories.part "acme").values = (List.range (n + 1)).map fillRow := by
  have fresh := fillFresh valid rows
  rw [fillWritten]
  simp only [Parts.partPutSelf]
  rw [Dict.values, Dict.setFresh fresh, List.map_append, List.range_succ, List.map_append, ← rows]
  rfl

theorem fillScope {s : InMemoryStore ℚ} {n : Nat} (rows : (s.part "acme").values = (List.range n).map fillRow) :
    (s.scope (member "acme" "user:1")).length = n := by
  have own : (s.part "acme").values.filter (fun m => m.namespaceId = "user:1") = (List.range n).map fillRow := by
    rw [rows]
    exact List.filter_eq_self.mpr (by simp [fillRow])
  have same : s.scope (member "acme" "user:1") = (List.range n).map fillRow := own
  rw [same, List.length_map, List.length_range]

/-- What `n` writes leave behind: their rows in order, and no commit. -/
structure Filled (n : Nat) (s : AppState ℚ) : Prop where
  valid : s.stores.memories.WellScoped
  rows : (s.stores.memories.part "acme").values = (List.range n).map fillRow
  commits : s.versioning = MemoryVersioning.empty

theorem filled [Builtins] (n : Nat) : Filled n (sampleApp.machine.exec AppState.initial (filling n)) := by
  induction n with
  | zero => exact ⟨InMemoryStore.emptyWellScoped, rfl, rfl⟩
  | succ n ih =>
    have last : sampleApp.machine.exec AppState.initial (filling (n + 1)) =
        (sampleApp.step (sampleApp.machine.exec AppState.initial (filling n)) (fillWrite n)).1 := by
      rw [filling, List.range_succ, List.map_append, Machine.execAppend]
      rfl
    refine ⟨sampleApp.reachableWellScoped _, ?_, ?_⟩
    · rw [last]
      exact fillRows ih.valid ih.rows
    · rw [last, fillWritten]
      exact ih.commits

theorem filledCommits [Builtins] (n : Nat) : (filledRun n).Commits sampleApp (member "acme" "user:1") := by
  have start := filled n
  refine ⟨⟨⟨"", "main", rfl⟩, rfl, rfl⟩, ⟨⟨"", "main", rfl⟩, rfl, rfl⟩, by simp [filledRun, fillWrite, Request.Plain], ?_⟩
  have firstId : FreshIds (sampleApp.machine.exec AppState.initial (filling n)) (fillCommit n "first") := by
    simp [FreshIds, fillCommit, start.commits, MemoryVersioning.empty]
  have rowId := fillFresh start.valid start.rows
  let s := sampleApp.machine.exec AppState.initial (filling n)
  have writeId : FreshIds (sampleApp.step s (fillCommit n "first")).1 (fillWrite n) := Option.isNone_iff_eq_none.mpr rowId
  have secondId : FreshIds (sampleApp.step (sampleApp.step s (fillCommit n "first")).1 (fillWrite n)).1
      (fillCommit n "second") := by
    rw [fillWritten]
    refine Option.isNone_iff_eq_none.mpr ?_
    change ((s.versioning.commits.put "acme" "commit-first" _).part "acme").get "commit-second" = none
    rw [Parts.getPutOther (by decide), start.commits]
    rfl
  exact sampleApp.machine.alongCons.mpr ⟨firstId, sampleApp.machine.alongCons.mpr ⟨writeId,
    sampleApp.machine.alongCons.mpr ⟨secondId, sampleApp.machine.alongNil _⟩⟩⟩

theorem filledScopes [Builtins] (n : Nat) :
    (((filledRun n).atFirst sampleApp).stores.memories.scope (member "acme" "user:1")).length = n ∧
    (((filledRun n).atSecond sampleApp).stores.memories.scope (member "acme" "user:1")).length = n + 1 := by
  have start := filled n
  have more := fillRows (s := (filledRun n).fromFirst sampleApp) start.valid start.rows
  exact ⟨fillScope start.rows, fillScope more⟩

theorem writtenUnreported [Builtins] {n : Nat} (full : MemoryVersioning.versionedRows ≤ n) :
    ((filledRun n).final sampleApp).versioning.diff (member "acme" "user:1") "commit-first" "commit-second" =
      .ok ⟨[], [], []⟩ ∧
    (writtenIds (member "acme" "user:1") ((filledRun n).replies sampleApp)).length = 1 ∧
    ¬ (filledRun n).ExactDiff sampleApp (member "acme" "user:1") := by
  have commits := filledCommits n
  obtain ⟨before, after⟩ := filledScopes n
  refine ⟨CommitRun.fullSilent commits (by rwa [before]), ?_, fun exact => ?_⟩
  · obtain ⟨rows, placed, ids⟩ := CommitRun.grown commits
    have lengths := congrArg List.length placed
    rw [List.length_append, before, after] at lengths
    rw [← ids, List.length_map]
    omega
  · have few := CommitRun.wholeFew commits exact.secondWhole
    rw [after] at few
    omega

theorem exactDiffIff [PyFloat R] [Builtins] {a : App R} {run : CommitRun R} {ctx : SecurityContext}
    (commits : run.Commits a ctx) : run.ExactDiff a ctx ↔
      ((run.atSecond a).stores.memories.scope ctx).length ≤ MemoryVersioning.versionedRows :=
  ⟨fun exact => CommitRun.wholeFew commits exact.secondWhole, CommitRun.fewExact commits⟩

theorem oneAdded :
    letI := asciiBuiltins [] []
    (filledRun 1).ExactDiff sampleApp (member "acme" "user:1") ∧
    writtenIds (member "acme" "user:1") ((filledRun 1).replies sampleApp) = ["memory-x"] := by
  let _ := asciiBuiltins [] []
  refine ⟨(exactDiffIff (filledCommits 1)).mpr ?_, by decide +kernel⟩
  rw [(filledScopes 1).2]
  decide

theorem nothingReported :
    letI := asciiBuiltins [] []
    (filledRun 4096).Commits sampleApp (member "acme" "user:1") ∧
    ((filledRun 4096).final sampleApp).versioning.diff (member "acme" "user:1") "commit-first" "commit-second" =
      .ok ⟨[], [], []⟩ ∧
    (writtenIds (member "acme" "user:1") ((filledRun 4096).replies sampleApp)).length = 1 ∧
    ¬ (filledRun 4096).ExactDiff sampleApp (member "acme" "user:1") := by
  let _ := asciiBuiltins [] []
  exact ⟨filledCommits 4096, writtenUnreported (Nat.le_refl _)⟩

end ContextOS
