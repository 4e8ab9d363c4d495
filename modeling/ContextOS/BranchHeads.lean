import ContextOS.Confidentiality

/-! Whose commit a branch head names. Heads are filed by tenant and branch name: a head is
what any namespace of the tenant put there last. Rolling back to it restores the snapshot
into the caller's own namespace, which refuses the rows of every other one. -/
namespace ContextOS
open Lib (Dict Parts Machine)

variable {R : Type}

theorem InMemoryStore.addMemoryDenied {s : InMemoryStore R} {ctx : SecurityContext} {m : MemoryObject R} {e : PyError}
    (refused : s.addMemory ctx m = .error e) : e.kind = .accessDenied := by
  unfold addMemory at refused
  split at refused
  · cases Except.error.inj refused
    rfl
  · split at refused <;> cases refused
    rfl

namespace MemoryVersioning

theorem restoreIff {ctx : SecurityContext} {present : List String} {n : Nat} {store : InMemoryStore R}
    {rows : List (MemoryObject R)} : (∃ k, (restore ctx present n store rows).2 = .ok k) ↔
      ∀ m ∈ rows, m.id ∈ present ∨ (m.tenantId = ctx.tenantId ∧ m.namespaceId = ctx.namespaceId) := by
  induction rows generalizing n store with
  | nil => simp [restore]
  | cons m rest ih =>
    rw [List.forall_mem_cons]
    by_cases known : m.id ∈ present
    · simp only [restore, known, true_or, true_and]
      exact ih
    · simp only [restore, known, false_or, MemoryEngine.put]
      cases added : store.addMemory ctx m with
      | ok next =>
        obtain ⟨tenant, ns, _⟩ := InMemoryStore.addedIff.mp added
        simp only [tenant, ns, and_self, true_and]
        exact ih
      | error e =>
        refine iff_of_false (by simp) fun given => ?_
        obtain ⟨tenant, ns⟩ := given.1
        exact absurd (added.symm.trans (InMemoryStore.addedIff.mpr ⟨tenant, ns, rfl⟩)) (by simp)

theorem restoreDenied {ctx : SecurityContext} {present : List String} {n : Nat} {store : InMemoryStore R}
    {rows : List (MemoryObject R)} {e : PyError} (refused : (restore ctx present n store rows).2 = .error e) :
    e.kind = .accessDenied := by
  induction rows generalizing n store with
  | nil => contradiction
  | cons m rest ih =>
    unfold restore at refused
    split at refused
    · exact ih refused
    · split at refused
      · rename_i denied
        cases Except.error.inj refused
        exact InMemoryStore.addMemoryDenied denied
      · exact ih refused

end MemoryVersioning

/-! ### Heads of a history, the latest request first -/

def headOf (mine : Request R → Bool) : List (Request R) → String → Option (Option String)
  | [], _ => none
  | r :: past, branch =>
    match mine r, r.op with
    | true, .memoryCommit _ target =>
      if branch = target then some (some r.env.commitId) else headOf mine past branch
    | true, .memoryBranch name fromBranch =>
      if branch = name then some ((headOf mine past fromBranch).getD none) else headOf mine past branch
    | _, _ => headOf mine past branch

def ofTenant (ctx : SecurityContext) (r : Request R) : Bool := r.ctx.tenantId = ctx.tenantId

def ofNamespace (ctx : SecurityContext) (r : Request R) : Bool :=
  r.ctx.tenantId = ctx.tenantId && r.ctx.namespaceId = ctx.namespaceId

theorem headCommitted {ctx : SecurityContext} {past : List (Request R)} {branch cid : String}
    (head : headOf (ofTenant ctx) past branch = some (some cid)) : ∃ r ∈ past, App.commitsAs ctx.tenantId cid r := by
  induction past generalizing branch with
  | nil => contradiction
  | cons r past ih =>
    have earlier : ∀ name, headOf (ofTenant ctx) past name = some (some cid) →
        ∃ q ∈ r :: past, App.commitsAs ctx.tenantId cid q := fun name older => by
      obtain ⟨q, member, commits⟩ := ih older
      exact ⟨q, List.mem_cons_of_mem _ member, commits⟩
    unfold headOf at head
    split at head
    · rename_i label target mine op
      split at head
      · have same : r.env.commitId = cid := by simpa using head
        exact ⟨r, List.mem_cons_self, by simpa [App.commitsAs, op, same, ofTenant] using mine⟩
      · exact earlier _ head
    · rename_i name fromBranch mine op
      split at head
      · refine earlier fromBranch ?_
        cases older : headOf (ofTenant ctx) past fromBranch with
        | none => simp [older] at head
        | some found => simpa [older] using head
      · exact earlier _ head
    · exact earlier _ head

namespace App
variable [PyFloat R] [Builtins] (a : App R)

theorem stepHeads {past : List (Request R)} {s : AppState R} (r : Request R) (ctx : SecurityContext)
    (valid : ∀ branch, (s.versioning.branchHeads ctx).get branch = headOf (ofTenant ctx) past branch) (branch : String) :
    ((a.step s r).1.versioning.branchHeads ctx).get branch = headOf (ofTenant ctx) (r :: past) branch := by
  unfold App.step headOf
  cases op : r.op with
  | memoryCommit label target =>
    by_cases mine : r.ctx.tenantId = ctx.tenantId
    · simp only [MemoryVersioning.commit, MemoryVersioning.branchHeads, ofTenant, mine, decide_true, Parts.partPutSelf,
        Dict.getSet]
      split
      · rfl
      · exact valid branch
    · have foreign : ctx.tenantId ≠ r.ctx.tenantId := fun same => mine same.symm
      simpa [MemoryVersioning.commit, MemoryVersioning.branchHeads, ofTenant, mine, Parts.partPutOther _ foreign]
        using valid branch
  | memoryBranch name fromBranch =>
    by_cases mine : r.ctx.tenantId = ctx.tenantId
    · simp only [MemoryVersioning.branch, MemoryVersioning.branchHeads, ofTenant, mine, decide_true, Parts.partPutSelf,
        Dict.getSet]
      split
      · exact congrArg (fun head => some (head.getD none)) (valid fromBranch)
      · exact valid branch
    · have foreign : ctx.tenantId ≠ r.ctx.tenantId := fun same => mine same.symm
      simpa [MemoryVersioning.branch, MemoryVersioning.branchHeads, ofTenant, mine, Parts.partPutOther _ foreign]
        using valid branch
  | writeMemory content tier importance =>
    dsimp only
    split <;> simpa using valid branch
  | _ => simpa using valid branch

theorem runHeads (requests : List (Request R)) (ctx : SecurityContext) (branch : String) :
    ((a.machine.exec AppState.initial requests).versioning.branchHeads ctx).get branch =
      headOf (ofTenant ctx) requests.reverse branch := by
  have run := a.machine.historyInvariant
    (P := fun past s => ∀ branch, (s.versioning.branchHeads ctx).get branch =
      headOf (ofTenant ctx) (past.map Prod.fst).reverse branch) (s := AppState.initial) (fun _ => rfl)
    (fun past s r valid branch => by
      rw [List.map_append, List.reverse_append]
      exact a.stepHeads r ctx valid branch) requests
  rw [Machine.repliesInputs] at run
  exact run branch

/-! ### Commits stay, and are the tenant's -/

omit [PyFloat R] [Builtins] in
theorem commitsTenant {tenant cid : String} {r : Request R} (commits : commitsAs tenant cid r) : r.ctx.tenantId = tenant := by
  unfold commitsAs at commits
  split at commits
  · exact of_decide_eq_true (Bool.and_eq_true_iff.mp commits).1
  · contradiction

structure CommitsKept (past : List (Request R)) (s : AppState R) : Prop where
  memories : s.stores.memories.WellScoped
  stored : ∀ tenant cid, (∃ r ∈ past, commitsAs tenant cid r) → ∃ c, (s.versioning.commits.part tenant).get cid = some c
  owned : ∀ tenant cid c, (s.versioning.commits.part tenant).get cid = some c → ∀ m ∈ c.snapshot, m.tenantId = tenant

theorem stepKeepsCommit {s : AppState R} (r : Request R) {tenant cid : String}
    (given : commitsAs tenant cid r ∨ ∃ c, (s.versioning.commits.part tenant).get cid = some c) :
    ∃ c, ((a.step s r).1.versioning.commits.part tenant).get cid = some c := by
  unfold App.step
  unfold commitsAs at given
  cases op : r.op with
  | memoryCommit label branch =>
    simp only [op, Bool.and_eq_true, decide_eq_true_eq] at given
    rcases given with ⟨rfl, rfl⟩ | ⟨c, there⟩
    · exact ⟨_, Parts.getPutSelf _ _ _ _⟩
    · exact Parts.putKeeps there
  | writeMemory content tier importance =>
    simp only [op, Bool.false_eq_true, false_or] at given
    dsimp only
    split <;> exact given
  | memoryBranch name fromBranch => simpa [op, MemoryVersioning.branch] using given
  | _ => simpa [op] using given

theorem stepCommitsKept {past : List (Request R)} {s : AppState R} (r : Request R) (valid : CommitsKept past s) :
    CommitsKept (past ++ [r]) (a.step s r).1 := by
  refine ⟨a.memoriesWellScoped valid.memories [r], fun tenant cid given => ?_, fun tenant cid c stored m member => ?_⟩
  · obtain ⟨q, member, commits⟩ := given
    rcases List.mem_append.mp member with earlier | now
    · exact a.stepKeepsCommit r (.inr (valid.stored tenant cid ⟨q, earlier, commits⟩))
    · rw [List.mem_singleton] at now
      exact a.stepKeepsCommit r (.inl (now ▸ commits))
  · have effect := a.stepCommits s r stored
    split at effect
    · rename_i commits
      obtain ⟨_, snapshot⟩ := effect
      rw [snapshot] at member
      obtain ⟨id, there⟩ := Dict.memValues.mp (InMemoryStore.listMember member).1
      exact (valid.memories _ _ _ there).1.trans (commitsTenant commits)
    · exact valid.owned tenant cid c effect m member

theorem runCommitsKept (requests : List (Request R)) :
    CommitsKept requests (a.machine.exec AppState.initial requests) := by
  have run := a.machine.historyInvariant (P := fun past s => CommitsKept (past.map Prod.fst) s) (s := AppState.initial)
    ⟨InMemoryStore.emptyWellScoped, by simp, by simp [AppState.initial, MemoryVersioning.empty]⟩
    (fun past s r valid => by rw [List.map_append]; exact a.stepCommitsKept r valid) requests
  rwa [Machine.repliesInputs] at run

/-! ### Rolling back to a head -/

variable (requests : List (Request R)) (ctx : SecurityContext)

def headsAfter : Dict String (Option String) := (a.machine.exec AppState.initial requests).versioning.branchHeads ctx

def rollbackAfter (cid : String) : Except PyError Nat :=
  let s := a.machine.exec AppState.initial requests
  (s.versioning.rollback s.stores.memories ctx cid).2

def presentAfter : List String :=
  (MemoryEngine.allMemories (a.machine.exec AppState.initial requests).stores.memories ctx
    MemoryVersioning.versionedRows).map (·.id)

structure Restorable (cid : String) (c : Commit R) : Prop where
  stored : (a.machine.exec AppState.initial requests).versioning.get ctx cid = some c
  restores : (∃ n, a.rollbackAfter requests ctx cid = .ok n) ↔
    committedUnder requests ctx.tenantId cid = some ctx.namespaceId ∨ ∀ m ∈ c.snapshot, m.id ∈ a.presentAfter requests ctx
  denied : ∀ e, a.rollbackAfter requests ctx cid = .error e → e.kind = .accessDenied

variable {requests ctx}

theorem committedRestorable {cid : String} (committed : ∃ r ∈ requests, commitsAs ctx.tenantId cid r) :
    ∃ c, a.Restorable requests ctx cid c := by
  have kept := a.runCommitsKept requests
  obtain ⟨c, stored⟩ := kept.stored ctx.tenantId cid committed
  obtain ⟨_, ns, under, labels⟩ := (labelledRun a requests).commits _ _ _ stored
  have found : (a.machine.exec AppState.initial requests).versioning.get ctx cid = some c := stored
  have rollback : a.rollbackAfter requests ctx cid =
      (MemoryVersioning.restore ctx (a.presentAfter requests ctx) 0
        (a.machine.exec AppState.initial requests).stores.memories c.snapshot).2 := by
    simp only [rollbackAfter, MemoryVersioning.rollback, found]
    rfl
  refine ⟨c, found, ?_, fun e refused => MemoryVersioning.restoreDenied (rollback.symm.trans refused)⟩
  rw [rollback, MemoryVersioning.restoreIff, under, Option.some.injEq]
  constructor
  · intro restores
    by_cases own : ns = ctx.namespaceId
    · exact .inl own
    · refine .inr fun m member => (restores m member).resolve_right fun scope => own ?_
      exact (labels m.excerpt (List.mem_map_of_mem member)).symm.trans scope.2
  · intro given m member
    cases given with
    | inl own => exact .inr ⟨kept.owned _ _ _ stored m member,
        (labels m.excerpt (List.mem_map_of_mem member)).trans own⟩
    | inr present => exact .inl (present m member)

end App

structure TenantHeads [PyFloat R] [Builtins] (a : App R) (requests : List (Request R)) (ctx : SecurityContext) : Prop where
  last : ∀ branch, (a.headsAfter requests ctx).get branch = headOf (ofTenant ctx) requests.reverse branch
  committed : ∀ branch cid, (a.headsAfter requests ctx).get branch = some (some cid) →
    ∃ r ∈ requests, App.commitsAs ctx.tenantId cid r
  restorable : ∀ branch cid, (a.headsAfter requests ctx).get branch = some (some cid) →
    ∃ c, a.Restorable requests ctx cid c

theorem tenantHeads [PyFloat R] [Builtins] (a : App R) (requests : List (Request R)) (ctx : SecurityContext) :
    TenantHeads a requests ctx := by
  have last := a.runHeads requests ctx
  have committed : ∀ branch cid, (a.headsAfter requests ctx).get branch = some (some cid) →
      ∃ r ∈ requests, App.commitsAs ctx.tenantId cid r := fun branch cid head => by
    obtain ⟨r, member, commits⟩ := headCommitted ((last branch).symm.trans head)
    exact ⟨r, List.mem_reverse.mp member, commits⟩
  exact ⟨last, committed, fun branch cid head => a.committedRestorable (committed branch cid head)⟩

structure NamespaceHeads [PyFloat R] [Builtins] (a : App R) (requests : List (Request R)) (ctx : SecurityContext) : Prop where
  last : ∀ branch, ((a.headsAfter requests ctx).get branch).join = (headOf (ofNamespace ctx) requests.reverse branch).join
  restores : ∀ branch cid, (a.headsAfter requests ctx).get branch = some (some cid) →
    ∃ n, a.rollbackAfter requests ctx cid = .ok n

def committedByTwo : List (Request ℚ) :=
  [⟨member "acme" "user:1", envAt 0 "1", .memoryCommit "" "main"⟩,
   ⟨member "acme" "user:2", envAt 1 "2", .writeMemory "blue" .longTerm (1 / 2)⟩,
   ⟨member "acme" "user:2", envAt 2 "3", .memoryCommit "" "main"⟩]

theorem headOfAnother :
    letI := asciiBuiltins [] []
    (sampleApp.headsAfter committedByTwo (member "acme" "user:1")).get "main" = some (some "commit-3") ∧
    (sampleApp.rollbackAfter committedByTwo (member "acme" "user:1") "commit-3").toOption = none ∧
    ¬ NamespaceHeads sampleApp committedByTwo (member "acme" "user:1") := by
  let _ := asciiBuiltins [] []
  have head : (sampleApp.headsAfter committedByTwo (member "acme" "user:1")).get "main" = some (some "commit-3") := by
    decide +kernel
  have refused : (sampleApp.rollbackAfter committedByTwo (member "acme" "user:1") "commit-3").toOption = none := by
    decide +kernel
  refine ⟨head, refused, fun heads => ?_⟩
  obtain ⟨n, restored⟩ := heads.restores "main" "commit-3" head
  simp [restored, Except.toOption] at refused

end ContextOS
