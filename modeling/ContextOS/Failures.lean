import ContextOS.BranchHeads
import ContextOS.Recall
import ContextOS.Replayable
import ContextOS.Reserves
import ContextOS.Restoring
import ContextOS.WriteBack

/-! How an operation of the application can fail. In front of the backend nothing raises but
the check of the reserves: the vectors are all of one length, the weights are balanced and
the owner may route. Behind it nothing raises either, as long as the tokens of a reply can be
priced. A bundle replays as it was made, and a refused rollback stops before its first write.
So a failure leaves nothing behind but a trace and a frozen prompt. -/
namespace ContextOS
open Lib (Dict Parts)

variable {R : Type} [PyFloat R] [Builtins]

omit [PyFloat R] [Builtins] in
theorem mapFails {ε α β : Type} {x : Except ε α} {f : α → β} {e : ε} : x.map f = .error e ↔ x = .error e := by
  cases x <;> simp [Except.map]

namespace MemoryEngine

omit [Builtins] in
theorem vectorsSized {e : MemoryEngine R} {query : String} {rows : List (MemoryObject R)} {scored : List (Scored R)}
    {dim : Nat} (scores : ScoredRows e query rows scored) (sized : ∀ text, (e.embedder.embed text).length = dim) {now : Time}
    {c : MemoryCandidate R} (member : c ∈ candidatesOf now scored) : (vectorsOf scored c.memoryId).length = dim := by
  obtain ⟨s, inside, made⟩ := List.mem_filterMap.mp member
  have listed : c.memoryId ∈ (scored.map (fun s => (s.row.id, s.vec))).map Prod.fst := by
    rw [List.map_map, (candidateCopies made).id]
    exact List.mem_map_of_mem inside
  obtain ⟨vec, entry, found⟩ := Dict.getOfListListed listed
  obtain ⟨other, there, same⟩ := List.mem_map.mp entry
  obtain ⟨_, rfl⟩ := Prod.mk.inj same
  rw [vectorsOf, found, Option.getD_some, scores.vec other there]
  exact sized other.row.content

theorem retrieveReturns {e : MemoryEngine R} (sized : e.embedder.Sized) (now : Time) (store : InMemoryStore R)
    (ctx : SecurityContext) (query : String) (k : Int) : ∃ found, e.retrieve now store ctx query k = .ok found := by
  by_cases some : store.listMemories ctx scanLimit = []
  · exact ⟨[], by simp [retrieve, some]; rfl⟩
  · obtain ⟨scored, scores, returned⟩ := retrieveScored sized some now query k
    obtain ⟨dim, sized⟩ := sized
    obtain ⟨deduped, ok⟩ : ∃ deduped, mmr (candidatesOf now scored) (minmaxNormalize (fusedOf scored)) (vectorsOf scored) =
        .ok deduped := mmrEnds fun a inA b inB => (vectorsSized scores sized inA).trans (vectorsSized scores sized inB).symm
    exact ⟨_, by rw [returned, ok]; rfl⟩

end MemoryEngine

/-! ### A chat -/

namespace Pipeline

-- what `create_app` wires, as far as a failure can come from it
structure Sound (p : Pipeline R) : Prop where
  unguarded : p.policy.policy = none
  single : p.router = none
  memory : ∀ engine, p.memory = some engine → engine.embedder.Sized
  assembler : ∃ a, p.assembler = some a ∧ a.embedder.Sized
  balanced : p.weights.validate = .ok ()

variable {p : Pipeline R} {env : Env} {s : Stores R} {ctx : SecurityContext} {c : ChatCall} {e : PyError}

omit [PyFloat R] [Builtins] in
theorem ownRoutes {policy : PolicyEngine} (unguarded : policy.policy = none) (ctx : SecurityContext) :
    policy.check ctx (modelResource ctx) .route = .ok () := by
  have tenant : (modelResource ctx).get "tenant_id" = some ctx.tenantId := by simp [modelResource, Dict.ofList]
  have unnamed : (modelResource ctx).get "namespace" = none := by simp [modelResource, Dict.ofList, Dict.getSet]
  rw [PolicyEngine.checkOk]
  simp [PolicyEngine.evaluate, tenant, PolicyEngine.evaluate.inside, unguarded, PolicyEngine.defaultFloor, unnamed]

theorem retrieveReturns (sound : p.Sound) (env : Env) (s : Stores R) (ctx : SecurityContext) (c : ChatCall) :
    ∃ found, p.retrieve env s ctx c = .ok found := by
  unfold retrieve
  cases wired : p.memory with
  | none => exact ⟨[], rfl⟩
  | some engine => exact MemoryEngine.retrieveReturns (sound.memory engine wired) _ _ _ _ _

variable (env ctx) in
theorem assembleStageReturns (sound : p.Sound) (candidates : List (MemoryCandidate R))
    (fits : checkHardReserves (p.budgetFor c) = .ok ()) : ∃ prepared, p.assembleStage env ctx c candidates = .ok prepared := by
  obtain ⟨a, wired, sized⟩ := sound.assembler
  obtain ⟨selected, chosen⟩ := ContextAssembler.mmrReturns defaultMmrLambda (blend candidates p.weights) sized
  obtain ⟨out, assembled⟩ := assembleTotal (sourcesOf c candidates) (some p.tokenizer) sound.balanced fits chosen
  simp only [sourcesOf] at assembled
  simp only [assembleStage, wired, assembled, bind, Except.bind, pure, Except.pure]
  exact ⟨_, rfl⟩

variable (env ctx) in
theorem assembleStageFails (sound : p.Sound) (candidates : List (MemoryCandidate R)) :
    p.assembleStage env ctx c candidates = .error e ↔ checkHardReserves (p.budgetFor c) = .error e := by
  cases reserves : checkHardReserves (p.budgetFor c) with
  | ok fits =>
    obtain ⟨prepared, ok⟩ := assembleStageReturns env ctx sound candidates reserves
    simp [ok]
  | error refusal =>
    obtain ⟨a, wired, _⟩ := sound.assembler
    simp only [assembleStage, wired, ContextAssembler.assemble, sound.balanced, reserves, bind, Except.bind, Except.error.injEq]

theorem reachedIff (sound : p.Sound) : (∃ found prepared, Reached p env s ctx c found prepared) ↔
    p.lookup env s ctx c = none ∧ checkHardReserves (p.budgetFor c) = .ok () := by
  constructor
  · rintro ⟨found, prepared, reached⟩
    refine ⟨reached.miss, ?_⟩
    cases reserves : checkHardReserves (p.budgetFor c) with
    | ok fits => rfl
    | error refusal =>
      have refused := (assembleStageFails env ctx sound (p.compressAll c.prompt found).1).mpr reserves
      exact absurd (reached.assembled.symm.trans refused) (by simp)
  · rintro ⟨miss, fits⟩
    obtain ⟨found, retrieved⟩ := retrieveReturns sound env s ctx c
    obtain ⟨prepared, assembled⟩ := assembleStageReturns env ctx sound (p.compressAll c.prompt found).1 fits
    exact ⟨found, prepared, ownRoutes sound.unguarded ctx, miss, retrieved, assembled⟩

theorem reachedFails (single : p.router = none) {found : List (MemoryCandidate R)} {prepared : Prepared R}
    (reached : Reached p env s ctx c found prepared) : (p.run env s ctx c).result = .error e ↔
      ∃ text, p.adapter.generate (env.callToken 0) ⟨p.chosenModel c, prepared.messages, c.maxTokens⟩ = .error text ∧
        e = ⟨.adapterError, text⟩ := by
  obtain ⟨spans, run⟩ := runReached reached
  have invoked := p.dispatchInvoked env (captured s ctx prepared) ctx c spans prepared
  have unrouted : p.routing (captured s ctx prepared) = none := by simp only [routing, single]
  simp only [answering, unrouted] at invoked
  rw [← run] at invoked
  generalize p.run env s ctx c = out at invoked ⊢
  cases generated : p.adapter.generate (env.callToken 0) ⟨p.chosenModel c, prepared.messages, c.maxTokens⟩ with
  | error text =>
    rw [generated] at invoked
    cases invoked with
    | failed => simp [finish, eq_comm]
  | ok resp =>
    rw [generated] at invoked
    cases invoked with
    | answered => simp [finish]

theorem missFails (sound : p.Sound) (miss : p.lookup env s ctx c = none) (exceeds : checkHardReserves (p.budgetFor c) = .error e) :
    (p.run env s ctx c).result = .error e := by
  obtain ⟨found, retrieved⟩ := retrieveReturns sound env s ctx c
  have refused := (assembleStageFails env ctx sound (p.compressAll c.prompt found).1).mpr exceeds
  simp only [run, ownRoutes sound.unguarded ctx, miss, answer, retrieved, refused, finish]

theorem chatFailsIff (sound : p.Sound) : (p.run env s ctx c).result = .error e ↔
    (p.lookup env s ctx c = none ∧ checkHardReserves (p.budgetFor c) = .error e) ∨
    ∃ found prepared text, Reached p env s ctx c found prepared ∧
      p.adapter.generate (env.callToken 0) ⟨p.chosenModel c, prepared.messages, c.maxTokens⟩ = .error text ∧
      e = ⟨.adapterError, text⟩ := by
  constructor
  · intro failed
    cases found : p.lookup env s ctx c with
    | some hit =>
      simp [run, ownRoutes sound.unguarded ctx, found, finish] at failed
    | none =>
      cases reserves : checkHardReserves (p.budgetFor c) with
      | error refusal =>
        cases Except.error.inj ((missFails sound found reserves).symm.trans failed)
        exact .inl ⟨rfl, rfl⟩
      | ok fits =>
        obtain ⟨found, prepared, reached⟩ := (reachedIff sound).mpr ⟨found, reserves⟩
        obtain ⟨text, raised, rfl⟩ := (reachedFails sound.single reached).mp failed
        exact .inr ⟨found, prepared, text, reached, raised, rfl⟩
  · rintro (⟨miss, exceeds⟩ | ⟨found, prepared, text, reached, raised⟩)
    · exact missFails sound miss exceeds
    · exact (reachedFails sound.single reached).mpr ⟨text, raised⟩

end Pipeline

namespace MemoryVersioning

omit [PyFloat R] [Builtins] in
theorem restoreOther {ctx : SecurityContext} {present : List String} {rows : List (MemoryObject R)}
    (other : ∀ m ∈ rows, m.tenantId = ctx.tenantId ∧ m.namespaceId ≠ ctx.namespaceId) (n : Nat) (store : InMemoryStore R) :
    restore ctx present n store rows = (store, if ∀ m ∈ rows, m.id ∈ present then .ok n
      else .error ⟨.accessDenied, "write namespace != context namespace"⟩) := by
  induction rows with
  | nil => simp [restore]
  | cons m rest ih =>
    obtain ⟨here, later⟩ := List.forall_mem_cons.mp other
    by_cases known : m.id ∈ present
    · rw [restore, if_pos known, ih later]
      simp only [List.forall_mem_cons, known, true_and]
    · rw [restoreForeign known here.1 here.2, if_neg fun all => known (all m List.mem_cons_self)]

section Rollback
variable {v : MemoryVersioning R} {store : InMemoryStore R} {ctx : SecurityContext} {cid : String} {c : Commit R} {ns : String}

omit [PyFloat R] [Builtins] in
theorem rollbackFails (found : v.get ctx cid = some c) (taken : ∀ m ∈ c.snapshot, m.tenantId = ctx.tenantId ∧ m.namespaceId = ns)
    {e : PyError} : (v.rollback store ctx cid).2 = .error e ↔ (∀ m ∈ c.snapshot, m.namespaceId ≠ ctx.namespaceId) ∧
      (∃ m ∈ c.snapshot, m.id ∉ (MemoryEngine.allMemories store ctx versionedRows).map (·.id)) ∧
      e = ⟨.accessDenied, "write namespace != context namespace"⟩ := by
  simp only [rollback, found]
  generalize (MemoryEngine.allMemories store ctx versionedRows).map (·.id) = present
  by_cases own : ns = ctx.namespaceId
  · rw [restoreOwn fun m member => ⟨(taken m member).1, (taken m member).2.trans own⟩]
    refine iff_of_false (by simp) ?_
    rintro ⟨other, ⟨m, member, _⟩, _⟩
    exact other m member ((taken m member).2.trans own)
  · have other : ∀ m ∈ c.snapshot, m.namespaceId ≠ ctx.namespaceId := fun m member => (taken m member).2 ▸ own
    rw [restoreOther fun m member => ⟨(taken m member).1, other m member⟩]
    by_cases all : ∀ m ∈ c.snapshot, m.id ∈ present
    · rw [if_pos all]
      refine iff_of_false (by simp) ?_
      rintro ⟨_, ⟨m, member, absent⟩, _⟩
      exact absent (all m member)
    · rw [if_neg all]
      push Not at all
      exact ⟨fun same => ⟨other, all, (Except.error.inj same).symm⟩, fun given => by rw [given.2.2]⟩

omit [PyFloat R] [Builtins] in
theorem rollbackKeeps (found : v.get ctx cid = some c) (taken : ∀ m ∈ c.snapshot, m.tenantId = ctx.tenantId ∧ m.namespaceId = ns)
    {e : PyError} (failed : (v.rollback store ctx cid).2 = .error e) : (v.rollback store ctx cid).1 = store := by
  obtain ⟨other, _⟩ := (rollbackFails found taken).mp failed
  simp only [rollback, found]
  rw [restoreOther fun m member => ⟨(taken m member).1, other m member⟩]

end Rollback

omit [PyFloat R] [Builtins] in
theorem diffFails {v : MemoryVersioning R} {ctx : SecurityContext} {x y : String} {e : PyError} :
    v.diff ctx x y = .error e ↔ (v.get ctx x = none ∨ v.get ctx y = none) ∧ e = unknownCommit := by
  unfold diff
  cases v.get ctx x with
  | none => exact ⟨fun same => ⟨.inl rfl, (Except.error.inj same).symm⟩, fun given => by rw [given.2]⟩
  | some first =>
    cases v.get ctx y with
    | none => exact ⟨fun same => ⟨.inr rfl, (Except.error.inj same).symm⟩, fun given => by rw [given.2]⟩
    | some second => simp

end MemoryVersioning

/-! ### Any operation -/

-- the least total that does not convert to a float is this one
def floatLimit : Int := 2 ^ 970 * (2 ^ 54 - 1)

/-- A backend whose token counts convert to a float: `CostLedger.record` raises on any other
total, when the cache and the recorded output have been written already. -/
structure PriceableAdapter where
  adapter : Adapter
  priceable : ∀ token req resp, adapter.generate token req = .ok resp → resp.finishReason.isSome →
    |resp.usage.promptTokens + resp.usage.completionTokens| < floatLimit

-- the error an operation ends with, and what brings it about
def App.Fails (a : App R) (s : AppState R) (r : Request R) (e : PyError) : Prop :=
  match r.op with
  | .chat call => (a.pipeline.lookup r.env s.stores r.ctx call = none ∧ checkHardReserves (a.pipeline.budgetFor call) = .error e) ∨
      ∃ found prepared text, Pipeline.Reached a.pipeline r.env s.stores r.ctx call found prepared ∧
        a.pipeline.adapter.generate (r.env.callToken 0) ⟨a.pipeline.chosenModel call, prepared.messages, call.maxTokens⟩ =
          .error text ∧ e = ⟨.adapterError, text⟩
  | .writeMemory _ _ importance => ¬ (0 ≤ importance ∧ importance ≤ 1) ∧ e = ⟨.validationError, "importance"⟩
  | .memoryDiff x y => (s.versioning.get r.ctx x = none ∨ s.versioning.get r.ctx y = none) ∧ e = MemoryVersioning.unknownCommit
  | .memoryRollback cid =>
    match s.versioning.get r.ctx cid with
    | none => e = MemoryVersioning.unknownCommit
    | some c => (∀ m ∈ c.snapshot, m.namespaceId ≠ r.ctx.namespaceId) ∧
        (∃ m ∈ c.snapshot, m.id ∉ (MemoryEngine.allMemories s.stores.memories r.ctx MemoryVersioning.versionedRows).map (·.id)) ∧
        e = ⟨.accessDenied, "write namespace != context namespace"⟩
  | _ => False

namespace App

structure Sound (a : App R) : Prop where
  pipeline : a.pipeline.Sound
  memory : a.memory.embedder.Sized
  wired : ReplayWired a.pipeline a.replay

theorem createAppSound [IsStrictOrderedRing R] (settings : ContextOSSettings) (adapter : Adapter) (digest : BundlePayload R → String) :
    (createApp settings adapter digest).Sound := by
  have sized : (hashingEmbeddingProvider embeddingDim : EmbeddingProvider R).Sized :=
    ⟨embeddingDim, hashingEmbeddingLength embeddingDim⟩
  refine ⟨⟨rfl, rfl, ?_, ⟨_, rfl, sized⟩, Pipeline.defaultBalanced⟩, sized, createAppWired settings adapter digest⟩
  rintro engine ⟨⟩
  exact sized

variable {a : App R}

omit [Builtins] in
theorem writeFails {birth : Birth} {store : InMemoryStore R} {ctx : SecurityContext} {w : WriteRequest R} {e : PyError} :
    MemoryEngine.write birth store ctx w = .error e ↔
      ¬ (0 ≤ w.importance ∧ w.importance ≤ 1) ∧ e = ⟨.validationError, "importance"⟩ := by
  unfold MemoryEngine.write
  by_cases inside : 0 ≤ w.importance ∧ w.importance ≤ 1
  · have added : ∀ m : MemoryObject R, m.tenantId = ctx.tenantId → m.namespaceId = ctx.namespaceId →
        store.addMemory ctx m = .ok (store.put ctx.tenantId m.id m) :=
      fun m tenant ns => InMemoryStore.addedIff.mpr ⟨tenant, ns, rfl⟩
    simp [MemoryEngine.construct, inside, added, bind, Except.bind, pure, Except.pure]
  · simp [MemoryEngine.construct, inside, bind, Except.bind, eq_comm]

theorem commitScope (requests : List (Request R)) {ctx : SecurityContext} {cid : String} {c : Commit R}
    (found : (a.machine.exec AppState.initial requests).versioning.get ctx cid = some c) :
    ∃ ns, ∀ m ∈ c.snapshot, m.tenantId = ctx.tenantId ∧ m.namespaceId = ns := by
  obtain ⟨_, ns, _, labels⟩ := (labelledRun a requests).commits _ _ _ found
  exact ⟨ns, fun m member => ⟨(a.runCommitsKept requests).owned _ _ _ found m member,
    labels m.excerpt (List.mem_map_of_mem member)⟩⟩

theorem soundFails (sound : a.Sound) (requests : List (Request R)) (r : Request R) (e : PyError) :
    (a.step (a.machine.exec AppState.initial requests) r).2.result = .error e ↔
      Fails a (a.machine.exec AppState.initial requests) r e := by
  have reproduce := a.reachableReproduce sound.wired requests
  have scope : ∀ (ctx : SecurityContext) (cid : String) (c : Commit R),
      (a.machine.exec AppState.initial requests).versioning.get ctx cid = some c →
        ∃ ns, ∀ m ∈ c.snapshot, m.tenantId = ctx.tenantId ∧ m.namespaceId = ns := fun _ _ _ found => a.commitScope requests found
  generalize a.machine.exec AppState.initial requests = s at reproduce scope ⊢
  unfold step Fails
  cases r.op with
  | chat call => exact mapFails.trans (Pipeline.chatFailsIff sound.pipeline)
  | writeMemory content tier importance =>
    have refused : MemoryEngine.write r.env.birth s.stores.memories r.ctx ⟨content, tier, importance, "chat", none, Dict.empty⟩ =
        .error e ↔ ¬ (0 ≤ importance ∧ importance ≤ 1) ∧ e = ⟨.validationError, "importance"⟩ := writeFails
    refine Iff.trans ?_ refused
    dsimp only
    split <;> simp [quiet, *]
  | retrieve query k =>
    obtain ⟨found, returned⟩ := MemoryEngine.retrieveReturns sound.memory r.env.retrieveAt s.stores.memories r.ctx query k
    simp [quiet, returned, Except.map]
  | replayTrace traceId mode =>
    cases stored : s.stores.bundles.get r.ctx traceId with
    | none => simp [quiet, ReplayDebugger.replay, stored, Except.map]
    | some b => simp [quiet, replayReproduces stored (reproduce _ _ b stored) mode, Except.map]
  | memoryDiff x y => exact mapFails.trans MemoryVersioning.diffFails
  | memoryRollback cid =>
    have rolled : (a.step s ⟨r.ctx, r.env, .memoryRollback cid⟩).2.result = .error e ↔
        (s.versioning.rollback s.stores.memories r.ctx cid).2 = .error e := mapFails
    refine rolled.trans ?_
    dsimp only
    cases found : s.versioning.get r.ctx cid with
    | none => simp [MemoryVersioning.rollback, found, eq_comm]
    | some c =>
      obtain ⟨ns, taken⟩ := scope r.ctx cid c found
      exact MemoryVersioning.rollbackFails found taken
  | traceDiff x y =>
    simp only [quiet, traceDiff]
    split <;> simp
  | _ => simp [quiet]

end App

/-! ### What a failure leaves -/

/-- All that is new is the trace of a failed chat, and its frozen prompt without an output. -/
structure Inert (r : Request R) (before after : AppState R) : Prop where
  untouched : Untouched before.stores after.stores
  bundles : ∀ tenant id, ¬ (tenant = r.ctx.tenantId ∧ id = r.env.traceId) →
    (after.stores.bundles.part tenant).get id = (before.stores.bundles.part tenant).get id
  traces : ∀ id, id ≠ r.env.traceId → Dict.get after.stores.tracer id = Dict.get before.stores.tracer id
  backends : after.stores.backends = before.stores.backends
  versioning : after.versioning = before.versioning
  unopened : r.opened = none → after = before

omit [PyFloat R] [Builtins] in
theorem Inert.none (r : Request R) (s : AppState R) : Inert r s s :=
  ⟨⟨rfl, rfl, rfl, fun _ _ _ _ stored _ => stored⟩, fun _ _ _ => rfl, fun _ _ => rfl, rfl, rfl, fun _ => rfl⟩

theorem Pipeline.failedLeaves {p : Pipeline R} {env : Env} {s : Stores R} {ctx : SecurityContext} {c : ChatCall} {e : PyError}
    (single : p.router = none) (failed : (p.run env s ctx c).result = .error e) :
    Untouched s (p.run env s ctx c).stores ∧ (p.run env s ctx c).stores.backends = s.backends := by
  have ending := p.runEnding env s ctx c
  generalize p.run env s ctx c = out at ending failed ⊢
  cases ending with
  | refused => exact ⟨⟨rfl, rfl, rfl, fun _ _ _ _ stored _ => stored⟩, rfl⟩
  | hit => simp [finish] at failed
  | @dispatched found prepared reached spans =>
    have unrouted : p.routing (captured s ctx prepared) = none := by simp only [routing, single]
    have kept : (captured s ctx prepared).backends = s.backends := by unfold captured; split <;> rfl
    have dispatched := p.dispatchEnding env (captured s ctx prepared) ctx c spans prepared
    generalize p.dispatch env (captured s ctx prepared) ctx c spans prepared = out at dispatched failed ⊢
    cases dispatched with
    | failed backends _ _ _ sole => exact ⟨(capturedUntouched reached backends).traced _, (sole unrouted).1.trans kept⟩
    | completed => simp [finish] at failed

namespace App

theorem failsInert (settings : ContextOSSettings) (backend : PriceableAdapter) (digest : BundlePayload R → String)
    (requests : List (Request R)) {r : Request R} {e : PyError} (failed : ((createApp settings backend.adapter digest).step
      ((createApp settings backend.adapter digest).machine.exec AppState.initial requests) r).2.result = .error e) :
    Inert r ((createApp settings backend.adapter digest).machine.exec AppState.initial requests)
      ((createApp settings backend.adapter digest).step
        ((createApp settings backend.adapter digest).machine.exec AppState.initial requests) r).1 := by
  have single : (createApp settings backend.adapter digest).pipeline.router = none := rfl
  have scope : ∀ cid c, ((createApp settings backend.adapter digest).machine.exec AppState.initial requests).versioning.get r.ctx cid =
      some c → ∃ ns, ∀ m ∈ c.snapshot, m.tenantId = r.ctx.tenantId ∧ m.namespaceId = ns := fun _ _ found => commitScope requests found
  generalize (createApp settings backend.adapter digest).machine.exec AppState.initial requests = s at failed scope ⊢
  generalize createApp settings backend.adapter digest = a at failed single ⊢
  cases op : r.op with
  | chat call =>
    have run : (a.pipeline.run r.env s.stores r.ctx call).result = .error e := by
      simp only [step, op] at failed
      exact mapFails.mp failed
    have stores : (a.step s r).1 = { s with stores := (a.pipeline.run r.env s.stores r.ctx call).stores } := by
      simp only [step, op]
    rw [stores]
    obtain ⟨spans, recorded⟩ := a.pipeline.runTracer r.env s.stores r.ctx call
    obtain ⟨untouched, backends⟩ := Pipeline.failedLeaves single run
    refine ⟨untouched, fun _ _ => a.pipeline.runBundlesOther r.env s.stores r.ctx call, fun id other => ?_, backends, rfl,
      fun unopened => by simp [Request.opened, op] at unopened⟩
    rw [recorded]
    exact Dict.getSetOther _ other _
  | writeMemory content tier importance =>
    simp only [step, op] at failed ⊢
    split
    · exact .none r s
    · rename_i written
      simp [written, quiet] at failed
  | memoryRollback cid =>
    have refused : (s.versioning.rollback s.stores.memories r.ctx cid).2 = .error e := by
      simp only [step, op] at failed
      exact mapFails.mp failed
    have kept : (s.versioning.rollback s.stores.memories r.ctx cid).1 = s.stores.memories := by
      cases found : s.versioning.get r.ctx cid with
      | none => simp [MemoryVersioning.rollback, found]
      | some c =>
        obtain ⟨ns, taken⟩ := scope cid c found
        exact MemoryVersioning.rollbackKeeps found taken refused
    have same : (a.step s r).1 = s := by
      simp only [step, op, kept]
    rw [same]
    exact .none r s
  | memoryCommit label branch => simp [step, op, quiet] at failed
  | memoryBranch name fromBranch => simp [step, op, quiet] at failed
  | consolidate => simp [step, op] at failed
  | attachOutput traceId output => simp [step, op, quiet] at failed
  | _ =>
    simp only [step, op]
    exact .none r s

end App

def committedInSales : List (Request ℚ) :=
  [⟨member "acme" "sales", envAt 0 "1", .writeMemory "blue" .longTerm (1 / 2)⟩,
   ⟨member "acme" "sales", envAt 1 "2", .memoryCommit "" "main"⟩]

def restoredInLegal : Request ℚ := ⟨member "acme" "legal", envAt 2 "3", .memoryRollback "commit-2"⟩

def redBackend : PriceableAdapter where
  adapter := replying "red" (some "stop")
  priceable := by
    rintro token req resp ⟨⟩ _
    have limit : (1 : Int) ≤ 2 ^ 970 := one_le_pow₀ (by decide)
    show (2 : Int) < 2 ^ 970 * (2 ^ 54 - 1)
    omega

omit [Builtins] in
theorem failsInertSample :
    letI := asciiBuiltins [] []
    ∃ e, ((createApp sampleSettings redBackend.adapter (fun _ => "cid")).step
        ((createApp sampleSettings redBackend.adapter (fun _ => "cid")).machine.exec AppState.initial committedInSales)
        restoredInLegal).2.result = .error e ∧
      Inert restoredInLegal
        ((createApp sampleSettings redBackend.adapter (fun _ => "cid")).machine.exec AppState.initial committedInSales)
        ((createApp sampleSettings redBackend.adapter (fun _ => "cid")).step
          ((createApp sampleSettings redBackend.adapter (fun _ => "cid")).machine.exec AppState.initial committedInSales)
          restoredInLegal).1 := by
  let _ := asciiBuiltins [] []
  have refused : ((createApp sampleSettings redBackend.adapter (fun _ => "cid")).step
      ((createApp sampleSettings redBackend.adapter (fun _ => "cid")).machine.exec AppState.initial committedInSales)
      restoredInLegal).2.result.toOption.isNone = true := by decide +kernel
  cases failed : ((createApp sampleSettings redBackend.adapter (fun _ => "cid")).step
      ((createApp sampleSettings redBackend.adapter (fun _ => "cid")).machine.exec AppState.initial committedInSales)
      restoredInLegal).2.result with
  | ok reply => simp [failed, Except.toOption] at refused
  | error e => exact ⟨e, rfl, App.failsInert sampleSettings redBackend (fun _ => "cid") committedInSales failed⟩

end ContextOS
