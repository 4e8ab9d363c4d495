import ContextOS.Effects
import ContextOS.Executable

/-! Tenant isolation of the wired application. Two states agree for a tenant when
everything filed under it is the same; its own operations see nothing else, and the
operations of the others change nothing else. Deleting the operations of all other tenants
then changes no reply to this one, and no call made for it. Trace ids are used once. -/
namespace ContextOS
open Lib (Dict Parts Machine)

variable {R : Type}

def Tracer.owned (t : Tracer) (tenant traceId : String) : Option Trace :=
  (Dict.get t traceId).filter (fun trace => trace.tenantId = tenant)

theorem Tracer.getOwned (t : Tracer) (ctx : SecurityContext) (traceId : String) :
    t.get ctx traceId = t.owned ctx.tenantId traceId := by
  unfold Tracer.get Tracer.owned
  cases Dict.get t traceId with
  | none => rfl
  | some trace => by_cases own : trace.tenantId = ctx.tenantId <;> simp [Option.filter, own]

structure StoresAgree (tenant : String) (s t : Stores R) : Prop where
  memories : s.memories.part tenant = t.memories.part tenant
  cache : s.cache.part tenant = t.cache.part tenant
  bundles : s.bundles.part tenant = t.bundles.part tenant
  traces : s.tracer.owned tenant = t.tracer.owned tenant
  cost : s.cost.records tenant = t.cost.records tenant

structure VersionsAgree (tenant : String) (v w : MemoryVersioning R) : Prop where
  commits : v.commits.part tenant = w.commits.part tenant
  branches : v.branches.part tenant = w.branches.part tenant

structure StatesAgree (tenant : String) (s t : AppState R) : Prop where
  stores : StoresAgree tenant s.stores t.stores
  versions : VersionsAgree tenant s.versioning t.versioning

structure OutcomesAgree (tenant : String) (a b : Outcome R) : Prop where
  stores : StoresAgree tenant a.stores b.stores
  result : a.result = b.result
  calls : a.calls = b.calls

theorem StoresAgree.refl (tenant : String) (s : Stores R) : StoresAgree tenant s s := ⟨rfl, rfl, rfl, rfl, rfl⟩

theorem StoresAgree.symm {tenant} {s t : Stores R} (agree : StoresAgree tenant s t) : StoresAgree tenant t s :=
  ⟨agree.memories.symm, agree.cache.symm, agree.bundles.symm, agree.traces.symm, agree.cost.symm⟩

theorem StoresAgree.trans {tenant} {s t u : Stores R} (first : StoresAgree tenant s t)
    (second : StoresAgree tenant t u) : StoresAgree tenant s u :=
  ⟨first.memories.trans second.memories, first.cache.trans second.cache, first.bundles.trans second.bundles,
    first.traces.trans second.traces, first.cost.trans second.cost⟩

theorem VersionsAgree.refl (tenant : String) (v : MemoryVersioning R) : VersionsAgree tenant v v := ⟨rfl, rfl⟩

theorem VersionsAgree.symm {tenant} {v w : MemoryVersioning R} (agree : VersionsAgree tenant v w) :
    VersionsAgree tenant w v :=
  ⟨agree.commits.symm, agree.branches.symm⟩

theorem VersionsAgree.trans {tenant} {v w x : MemoryVersioning R} (first : VersionsAgree tenant v w)
    (second : VersionsAgree tenant w x) : VersionsAgree tenant v x :=
  ⟨first.commits.trans second.commits, first.branches.trans second.branches⟩

section Reads
variable {s t : Stores R} {ctx : SecurityContext} (agree : StoresAgree ctx.tenantId s t)
include agree

theorem listAgree (limit : Nat) : s.memories.listMemories ctx limit = t.memories.listMemories ctx limit := by
  simp only [InMemoryStore.listMemories, agree.memories]

theorem bundleAgree (traceId : String) : s.bundles.get ctx traceId = t.bundles.get ctx traceId := by
  simp only [InMemoryBundleStore.get, agree.bundles]

theorem attachAgree (traceId output : String) :
    (s.bundles.attachOutput ctx traceId output).part ctx.tenantId =
      (t.bundles.attachOutput ctx traceId output).part ctx.tenantId := by
  unfold InMemoryBundleStore.attachOutput
  rw [bundleAgree agree]
  split
  · exact agree.bundles
  · exact Parts.partPutCongr agree.bundles _ _ _

variable [PyFloat R] [Builtins] (p : Pipeline R) (env : Env) (c : ChatCall)

theorem retrieveAgree (e : MemoryEngine R) (now : Time) (query : String) (k : Int) :
    e.retrieve now s.memories ctx query k = e.retrieve now t.memories ctx query k := by
  simp only [MemoryEngine.retrieve, listAgree agree]

theorem lookupAgree : p.lookup env s ctx c = p.lookup env t ctx c := by
  simp only [Pipeline.lookup, SemanticCache.lookup, InMemoryCacheBackend.getExact,
    InMemoryCacheBackend.searchSemantic, agree.cache]

/-! ### A run of the tenant -/

omit [Builtins] in
theorem recordCostAgree (prices : Dict String R) (model : String) (usage : Usage) :
    (s.cost.record prices ctx model usage).records ctx.tenantId =
      (t.cost.record prices ctx model usage).records ctx.tenantId := by
  have same := agree.cost
  simp only [CostLedger.records] at same
  simp only [CostLedger.record, CostLedger.records, Dict.getSetSelf, same]

omit [PyFloat R] [Builtins] in
theorem finishAgree (spans : List TraceSpan) (result : Except PyError ChatResult) (calls : List AdapterCall) :
    OutcomesAgree ctx.tenantId (Pipeline.finish env ctx s spans result calls)
      (Pipeline.finish env ctx t spans result calls) := by
  refine ⟨⟨agree.memories, agree.cache, agree.bundles, ?_, agree.cost⟩, rfl, rfl⟩
  funext id
  have same := congrFun agree.traces id
  simp only [Tracer.owned, Tracer.record, Pipeline.finish, Dict.getSet] at same ⊢
  split
  · rfl
  · exact same

omit [PyFloat R] [Builtins] in
theorem capturedAgree (prepared : Prepared R) :
    StoresAgree ctx.tenantId (Pipeline.captured s ctx prepared) (Pipeline.captured t ctx prepared) := by
  unfold Pipeline.captured
  split
  · exact agree
  · exact ⟨agree.memories, agree.cache, Parts.partPutCongr agree.bundles _ _ _, agree.traces, agree.cost⟩

omit [PyFloat R] in
theorem storeAgree (cache : SemanticCache R) (now : Time) (query text : String) (kw : CacheKeywords)
    (nonCacheable : Bool) (ttl : Option Int) :
    (cache.store s.cache now ctx query text kw nonCacheable ttl).1 =
      (cache.store t.cache now ctx query text kw nonCacheable ttl).1 ∧
    (cache.store s.cache now ctx query text kw nonCacheable ttl).2.part ctx.tenantId =
      (cache.store t.cache now ctx query text kw nonCacheable ttl).2.part ctx.tenantId := by
  unfold SemanticCache.store
  split
  · exact ⟨rfl, agree.cache⟩
  · exact ⟨rfl, Parts.partPutCongr agree.cache _ _ _⟩

theorem writebackAgree (model : String) (injected : Nat) (resp : ChatResponse) :
    (p.writeback env s ctx c model injected resp).2 = (p.writeback env t ctx c model injected resp).2 ∧
    StoresAgree ctx.tenantId (p.writeback env s ctx c model injected resp).1
      (p.writeback env t ctx c model injected resp).1 := by
  unfold Pipeline.writeback
  split
  · exact ⟨rfl, agree⟩
  · refine ⟨?_, agree.memories, ?_, ?_, agree.traces, ?_⟩
    · cases p.cache with
      | none => rfl
      | some cache => exact (storeAgree agree cache _ _ _ _ _ _).1
    · cases p.cache with
      | none => exact agree.cache
      | some cache => exact (storeAgree agree cache _ _ _ _ _ _).2
    · cases p.replay with
      | none => exact agree.bundles
      | some _ => exact attachAgree agree _ _
    · cases p.cost with
      | none => exact agree.cost
      | some prices => exact recordCostAgree agree prices _ _

theorem completeAgree (spans : List TraceSpan) (prepared : Prepared R) (used model : String) (resp : ChatResponse)
    (calls : List AdapterCall) :
    OutcomesAgree ctx.tenantId (p.complete env s ctx c spans prepared used model resp calls)
      (p.complete env t ctx c spans prepared used model resp calls) := by
  obtain ⟨cached, stores⟩ := writebackAgree agree p env c model prepared.injected resp
  simp only [Pipeline.complete, cached]
  exact finishAgree stores env _ _ _

theorem dispatchAgree (single : p.router = none) (spans : List TraceSpan) (prepared : Prepared R) :
    OutcomesAgree ctx.tenantId (p.dispatch env s ctx c spans prepared) (p.dispatch env t ctx c spans prepared) := by
  have unrouted : ∀ u : Stores R, p.routing u = none := fun u => by simp only [Pipeline.routing, single]
  simp only [Pipeline.dispatch, unrouted]
  split
  · exact finishAgree agree env _ _ _
  · exact completeAgree agree p env c _ _ _ _ _ _

theorem runAgree (single : p.router = none) :
    OutcomesAgree ctx.tenantId (p.run env s ctx c) (p.run env t ctx c) := by
  unfold Pipeline.run
  split
  · exact finishAgree agree env _ _ _
  · rw [lookupAgree agree]
    dsimp only
    split
    · exact finishAgree agree env _ _ _
    · have found : p.retrieve env s ctx c = p.retrieve env t ctx c := by
        unfold Pipeline.retrieve
        split
        · rfl
        · exact retrieveAgree agree _ _ _ _
      simp only [Pipeline.answer, found]
      split
      · exact finishAgree agree env _ _ _
      · split
        · exact finishAgree agree env _ _ _
        · exact dispatchAgree (capturedAgree agree _) p env c single _ _

end Reads

/-! ### A run of another tenant -/

section Foreign
variable {ctx : SecurityContext} {tenant : String} (foreign : tenant ≠ ctx.tenantId)
include foreign

theorem finishForeign {env : Env} {s : Stores R} (unused : Dict.get s.tracer env.traceId = none)
    (spans : List TraceSpan) (result : Except PyError ChatResult) (calls : List AdapterCall) :
    StoresAgree tenant s (Pipeline.finish env ctx s spans result calls).stores := by
  refine ⟨rfl, rfl, rfl, ?_, rfl⟩
  funext id
  simp only [Tracer.owned, Tracer.record, Pipeline.finish, Dict.getSet]
  split
  · rename_i same
    subst same
    simp [unused, Option.filter, foreign.symm]
  · rfl

theorem capturedForeign (s : Stores R) (prepared : Prepared R) :
    StoresAgree tenant s (Pipeline.captured s ctx prepared) := by
  unfold Pipeline.captured
  split
  · exact .refl _ _
  · exact ⟨rfl, rfl, (Parts.partPutOther _ foreign _ _).symm, rfl, rfl⟩

theorem attachForeign (bundles : InMemoryBundleStore R) (traceId output : String) :
    bundles.part tenant = (bundles.attachOutput ctx traceId output).part tenant := by
  unfold InMemoryBundleStore.attachOutput
  split
  · rfl
  · exact (Parts.partPutOther _ foreign _ _).symm

variable [PyFloat R]

theorem recordCostForeign (cost : CostLedger R) (prices : Dict String R) (model : String) (usage : Usage) :
    cost.records tenant = (cost.record prices ctx model usage).records tenant := by
  simp only [CostLedger.record, CostLedger.records, Dict.getSetOther _ foreign]

variable [Builtins]

omit [PyFloat R] in
theorem storeForeign (cache : SemanticCache R) (b : InMemoryCacheBackend R) (now : Time) (query text : String)
    (kw : CacheKeywords) (nonCacheable : Bool) (ttl : Option Int) :
    b.part tenant = (cache.store b now ctx query text kw nonCacheable ttl).2.part tenant := by
  unfold SemanticCache.store
  split
  · rfl
  · rename_i stored made
    have owner : stored.entry.tenantId = ctx.tenantId := (SemanticCache.newEntryOf made).2.tenant
    exact (Parts.partPutOther _ (owner ▸ foreign) _ _).symm

theorem writebackForeign (p : Pipeline R) (env : Env) (s : Stores R) (c : ChatCall) (model : String)
    (injected : Nat) (resp : ChatResponse) :
    StoresAgree tenant s (p.writeback env s ctx c model injected resp).1 := by
  unfold Pipeline.writeback
  split
  · exact .refl _ _
  · refine ⟨rfl, ?_, ?_, rfl, ?_⟩
    · cases p.cache with
      | none => rfl
      | some cache => exact storeForeign foreign cache _ _ _ _ _ _ _
    · cases p.replay with
      | none => rfl
      | some _ => exact attachForeign foreign _ _ _
    · cases p.cost with
      | none => rfl
      | some prices => exact recordCostForeign foreign _ _ _ _

theorem runForeign (p : Pipeline R) {env : Env} {s : Stores R} (unused : Dict.get s.tracer env.traceId = none)
    (c : ChatCall) : StoresAgree tenant s (p.run env s ctx c).stores := by
  -- the registry is no part of what belongs to a tenant
  have routed : ∀ prepared backends,
      StoresAgree tenant s { Pipeline.captured s ctx prepared with backends := backends } := fun prepared _ => by
    have capture := capturedForeign foreign s prepared
    exact ⟨capture.memories, capture.cache, capture.bundles, capture.traces, capture.cost⟩
  have ended := p.runEnded env s ctx c
  generalize p.run env s ctx c = out at ended ⊢
  cases ended with
  | refused => exact finishForeign foreign unused _ _ _
  | hit => exact finishForeign foreign unused _ _ _
  | failed => exact (routed _ _).trans (finishForeign foreign (by simpa using unused) _ _ _)
  | @answered _ prepared model resp _ backends =>
    have written := (routed prepared backends).trans (writebackForeign foreign p env _ c model prepared.injected resp)
    exact written.trans (finishForeign foreign (by simpa using unused) _ _ _)

end Foreign

/-! ### One operation of the application -/

section Application
variable [PyFloat R] [Builtins] (a : App R)

structure StepsAgree (tenant : String) (x y : AppState R × Response R) : Prop where
  state : StatesAgree tenant x.1 y.1
  response : x.2 = y.2

theorem ownStep (single : a.pipeline.router = none) {s t : AppState R} {r : Request R}
    (agree : StatesAgree r.ctx.tenantId s t) : StepsAgree r.ctx.tenantId (a.step s r) (a.step t r) := by
  obtain ⟨stores, versions⟩ := agree
  have rows := listAgree stores
  unfold App.step
  cases op : r.op with
  | chat call =>
    have run := runAgree stores a.pipeline r.env call single
    exact ⟨⟨run.stores, versions⟩, by simp only [run.result, run.calls]⟩
  | writeMemory content tier importance =>
    rcases MemoryEngine.writeCases r.env.birth r.ctx (⟨content, tier, importance, "chat", none, Dict.empty⟩ : WriteRequest R)
      with ⟨e, refused⟩ | ⟨memory, _, _, _, admitted⟩
    · simp only [refused]
      exact ⟨⟨stores, versions⟩, rfl⟩
    · simp only [admitted]
      exact ⟨⟨{ stores with memories := InMemoryStore.partPutAllCongr _ stores.memories }, versions⟩, rfl⟩
  | retrieve query k => exact ⟨⟨stores, versions⟩, by simp only [retrieveAgree stores]⟩
  | getTrace traceId =>
    exact ⟨⟨stores, versions⟩, by simp only [Tracer.getOwned, stores.traces]⟩
  | replayTrace traceId mode =>
    exact ⟨⟨stores, versions⟩, by simp only [ReplayDebugger.replay, bundleAgree stores]⟩
  | getBundle traceId => exact ⟨⟨stores, versions⟩, by simp only [bundleAgree stores]⟩
  | adminCost => exact ⟨⟨stores, versions⟩, by simp only [CostLedger.summary, stores.cost]⟩
  | memoryCommit label branch =>
    refine ⟨⟨stores, ?_⟩, rfl⟩
    simp only [MemoryVersioning.commit, MemoryEngine.allMemories, rows]
    exact ⟨Parts.partPutCongr versions.commits _ _ _, Parts.partPutCongr versions.branches _ _ _⟩
  | memoryBranch name fromBranch =>
    refine ⟨⟨stores, versions.commits, ?_⟩, rfl⟩
    simp only [MemoryVersioning.branch, versions.branches]
    exact Parts.partPutCongr versions.branches _ _ _
  | memoryBranches =>
    exact ⟨⟨stores, versions⟩, by simp only [MemoryVersioning.branchHeads, versions.branches]⟩
  | getCommit cid => exact ⟨⟨stores, versions⟩, by simp only [MemoryVersioning.get, versions.commits]⟩
  | memoryDiff x y =>
    exact ⟨⟨stores, versions⟩, by simp only [MemoryVersioning.diff, MemoryVersioning.get, versions.commits]⟩
  | memoryRollback cid =>
    have rolled := MemoryVersioning.rollbackCases s.versioning r.ctx cid
      (MemoryEngine.allMemories s.stores.memories r.ctx MemoryVersioning.versionedRows)
    obtain ⟨restored, result, _, effect⟩ := rolled
    have other : t.versioning.rollback t.stores.memories r.ctx cid =
        s.versioning.rollback t.stores.memories r.ctx cid := by
      simp only [MemoryVersioning.rollback, MemoryVersioning.get, versions.commits]
    simp only [other, effect _ rfl, effect t.stores.memories (rows _).symm]
    exact ⟨⟨{ stores with memories := InMemoryStore.partPutAllCongr _ stores.memories }, versions⟩, rfl⟩
  | traceDiff x y => exact ⟨⟨stores, versions⟩, by simp only [App.traceDiff, bundleAgree stores]⟩
  | consolidate =>
    obtain ⟨n, written, calls, _, _, effect⟩ := a.consolidateCases r.env r.ctx
      (MemoryEngine.allMemories s.stores.memories r.ctx 512)
    simp only [effect _ rfl, effect t.stores.memories (rows _).symm]
    exact ⟨⟨{ stores with memories := InMemoryStore.partPutAllCongr _ stores.memories }, versions⟩, rfl⟩
  | attachOutput traceId output =>
    exact ⟨⟨{ stores with bundles := attachAgree stores _ _ }, versions⟩, by simp only [bundleAgree stores]⟩

theorem foreignStep {s : AppState R} {r : Request R} {tenant : String} (foreign : tenant ≠ r.ctx.tenantId)
    (unused : ∀ id, r.opened = some id → Dict.get s.stores.tracer id = none) :
    StatesAgree tenant s (a.step s r).1 := by
  have same : StoresAgree tenant s.stores s.stores := .refl _ _
  have versions : VersionsAgree tenant s.versioning s.versioning := .refl _ _
  unfold App.step
  cases op : r.op with
  | chat call =>
    exact ⟨runForeign foreign a.pipeline (unused _ (by simp only [Request.opened, op])) call, versions⟩
  | writeMemory content tier importance =>
    rcases MemoryEngine.writeCases r.env.birth r.ctx (⟨content, tier, importance, "chat", none, Dict.empty⟩ : WriteRequest R)
      with ⟨e, refused⟩ | ⟨memory, _, _, _, admitted⟩
    · simp only [refused]
      exact ⟨same, versions⟩
    · simp only [admitted]
      exact ⟨{ same with memories := (InMemoryStore.partPutAllOther foreign _ _).symm }, versions⟩
  | memoryCommit label branch =>
    exact ⟨same, (Parts.partPutOther _ foreign _ _).symm, (Parts.partPutOther _ foreign _ _).symm⟩
  | memoryBranch name fromBranch => exact ⟨same, rfl, (Parts.partPutOther _ foreign _ _).symm⟩
  | memoryRollback cid =>
    obtain ⟨restored, result, _, effect⟩ := MemoryVersioning.rollbackCases s.versioning r.ctx cid
      (MemoryEngine.allMemories s.stores.memories r.ctx MemoryVersioning.versionedRows)
    simp only [effect _ rfl]
    exact ⟨{ same with memories := (InMemoryStore.partPutAllOther foreign _ _).symm }, versions⟩
  | consolidate =>
    obtain ⟨n, written, calls, _, _, effect⟩ := a.consolidateCases r.env r.ctx
      (MemoryEngine.allMemories s.stores.memories r.ctx 512)
    simp only [effect _ rfl]
    exact ⟨{ same with memories := (InMemoryStore.partPutAllOther foreign _ _).symm }, versions⟩
  | attachOutput traceId output => exact ⟨{ same with bundles := attachForeign foreign _ _ _ }, versions⟩
  | _ => exact ⟨same, versions⟩

structure FreshTraces (rest : List (Request R)) (s : AppState R) : Prop where
  distinct : (openedTraces rest).Nodup
  unused : ∀ id ∈ openedTraces rest, Dict.get s.stores.tracer id = none

theorem freshStep {rest : List (Request R)} {s : AppState R} {r : Request R} (fresh : FreshTraces (r :: rest) s) :
    FreshTraces rest (a.step s r).1 := by
  obtain ⟨distinct, unused⟩ := fresh
  rcases a.stepTracer s r with ⟨kept, closed⟩ | ⟨spans, opened, recorded⟩
  · simp only [openedTraces, List.filterMap_cons, closed] at distinct unused
    exact ⟨distinct, by rw [kept]; exact unused⟩
  · simp only [openedTraces, List.filterMap_cons, opened] at distinct unused
    obtain ⟨new, distinct⟩ := List.nodup_cons.mp distinct
    refine ⟨distinct, fun id later => ?_⟩
    have different : id ≠ r.env.traceId := fun same => new (same ▸ later)
    rw [recorded, Tracer.record, Dict.getSetOther _ different]
    exact unused id (List.mem_cons_of_mem _ later)

def tenantOf (r : Request R) : String := r.ctx.tenantId

theorem isolated (single : a.pipeline.router = none) (tenant : String) {requests : List (Request R)}
    {s t : AppState R} (agree : StatesAgree tenant s t) (fresh : FreshTraces requests s) :
    a.machine.observed tenantOf tenant s requests =
      a.machine.replies t (Machine.purge tenantOf tenant requests) := by
  refine Machine.unwinding a.machine tenantOf tenant
    (Q := fun rest s t => StatesAgree tenant s t ∧ FreshTraces rest s) ?_ ?_ ⟨agree, fresh⟩
  · intro r rest s t equal given
    subst equal
    obtain ⟨agree, fresh⟩ := given
    obtain ⟨state, response⟩ := ownStep a single agree
    exact ⟨response, state, freshStep a fresh⟩
  · intro r rest s t other given
    obtain ⟨agree, fresh⟩ := given
    have foreign := foreignStep a (Ne.symm other) (s := s) (fun id opened =>
      fresh.unused id (by simp only [openedTraces, List.filterMap_cons, opened, List.mem_cons_self]))
    exact ⟨⟨foreign.stores.symm.trans agree.stores, foreign.versions.symm.trans agree.versions⟩, freshStep a fresh⟩

end Application

theorem noninterference [PyFloat R] [Builtins] (settings : ContextOSSettings) (adapter : Adapter)
    (digest : BundlePayload R → String) (tenant : String) (requests : List (Request R))
    (fresh : (openedTraces requests).Nodup) :
    (createApp settings adapter digest).machine.observed tenantOf tenant AppState.initial requests =
      (createApp settings adapter digest).machine.replies AppState.initial (Machine.purge tenantOf tenant requests) :=
  isolated _ rfl tenant ⟨.refl _ _, .refl _ _⟩ ⟨fresh, fun _ _ => rfl⟩

def twoTenants : List (Request ℚ) :=
  [⟨member "acme" "sales", envAt 0 "1", .chat (ask "colour")⟩,
   ⟨member "globex" "sales", envAt 1 "2", .writeMemory "blue" .longTerm (1 / 2)⟩,
   ⟨member "globex" "sales", envAt 2 "3", .chat (ask "colour")⟩,
   ⟨member "acme" "sales", envAt 3 "4", .getTrace "trace-3"⟩,
   ⟨member "acme" "sales", envAt 4 "5", .chat (ask "colour")⟩]

theorem noninterferenceOfTwo :
    letI := asciiBuiltins colourDigests []
    (createApp sampleSettings (replying "red" (some "stop")) (fun _ => "cid")).machine.observed
        tenantOf "acme" AppState.initial twoTenants =
      (createApp sampleSettings (replying "red" (some "stop")) (fun _ => "cid")).machine.replies
        AppState.initial (Machine.purge tenantOf "acme" twoTenants) :=
  letI := asciiBuiltins colourDigests []
  noninterference sampleSettings (replying "red" (some "stop")) (fun _ => "cid") "acme" twoTenants (by decide)

end ContextOS
