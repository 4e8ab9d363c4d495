import ContextOS.Assembly
import ContextOS.Pipeline

/-! The ways a run ends. Every later result about a run starts from one of these
cases and never unfolds the stages again. The walk over the fallback chain stops at the
first reply, so all calls before it failed; a run that returns without a call was a hit. -/
namespace ContextOS
open Lib (Dict bindOk pureOk)

variable {R : Type} [PyFloat R] [Builtins]

namespace Pipeline

structure Reached (p : Pipeline R) (env : Env) (s : Stores R) (ctx : SecurityContext) (c : ChatCall)
    (found : List (MemoryCandidate R)) (prepared : Prepared R) : Prop where
  authorized : p.policy.check ctx (modelResource ctx) .route = .ok ()
  miss : p.lookup env s ctx c = none
  retrieved : p.retrieve env s ctx c = .ok found
  assembled : p.assembleStage env ctx c (p.compressAll c.prompt found).1 = .ok prepared

inductive Ending (p : Pipeline R) (env : Env) (s : Stores R) (ctx : SecurityContext) (c : ChatCall) :
    Outcome R → Prop where
  | refused (spans : List TraceSpan) (e : PyError) : Ending p env s ctx c (finish env ctx s spans (.error e) [])
  | hit {hit : CacheHit R} (found : p.lookup env s ctx c = some hit) (spans : List TraceSpan) :
      Ending p env s ctx c
        (finish env ctx s spans (.ok ⟨hit.responseText, env.traceId, p.chosenModel c, ⟨0, 0, 0⟩⟩) [])
  | dispatched {found : List (MemoryCandidate R)} {prepared : Prepared R}
      (reached : Reached p env s ctx c found prepared) (spans : List TraceSpan) :
      Ending p env s ctx c (p.dispatch env (captured s ctx prepared) ctx c spans prepared)

theorem runEnding (p : Pipeline R) (env : Env) (s : Stores R) (ctx : SecurityContext) (c : ChatCall) :
    Ending p env s ctx c (p.run env s ctx c) := by
  unfold run
  split
  · exact .refused _ _
  · rename_i authorized
    dsimp only
    split
    · rename_i hit found
      exact .hit found _
    · rename_i miss
      unfold answer
      dsimp only
      split
      · exact .refused _ _
      · rename_i found retrieved
        split
        · exact .refused _ _
        · rename_i prepared assembled
          exact .dispatched ⟨authorized, miss, retrieved, assembled⟩ _

theorem runReached {p : Pipeline R} {env s ctx c found prepared} (reached : Reached p env s ctx c found prepared) :
    ∃ spans, p.run env s ctx c = p.dispatch env (captured s ctx prepared) ctx c spans prepared := by
  unfold run answer
  simp only [reached.authorized, reached.miss, reached.retrieved, reached.assembled]
  exact ⟨_, rfl⟩

def frozen (p : Pipeline R) (env : Env) (ctx : SecurityContext) (c : ChatCall)
    (candidates : List (MemoryCandidate R)) (messages : List ChatMessage) : Option (ContextBundle R) :=
  p.replay.map (fun d => d.newBundle env.traceId env.capturedAt ctx
    ⟨p.chosenModel c, defaultMmrLambda, p.weights, p.budgetFor c, c.systemText, c.prompt, candidates⟩
    (bundleMessages messages) (renderPromptHash messages))

def sourcesOf (c : ChatCall) (candidates : List (MemoryCandidate R)) : ContextSources R :=
  ⟨c.systemText, c.prompt, candidates, []⟩

inductive Preparation (p : Pipeline R) (env : Env) (ctx : SecurityContext) (c : ChatCall)
    (candidates : List (MemoryCandidate R)) : Prepared R → Prop where
  | passthrough (unwired : p.assembler = none) (tokens : Int) (decision : String × List (String × String)) :
      Preparation p env ctx c candidates ⟨passthrough c, 0, tokens, none, decision⟩
  | assembled {a : ContextAssembler R} {packing : ContextAssembler.Packing R} {out : AssembledContext R}
      (wired : p.assembler = some a)
      (assembled : a.assemble (p.budgetFor c) (sourcesOf c candidates) p.weights (some p.tokenizer) defaultMmrLambda =
        .ok out)
      (spec : AssemblyOf a (p.budgetFor c) (sourcesOf c candidates) p.weights p.tokenizer.count defaultMmrLambda
        packing out)
      (decision : String × List (String × String)) :
      Preparation p env ctx c candidates
        ⟨out.messages, packing.survivors.length, out.usedTokens, p.frozen env ctx c candidates out.messages, decision⟩

theorem preparation {p : Pipeline R} {env ctx c candidates prepared}
    (ok : p.assembleStage env ctx c candidates = .ok prepared) : Preparation p env ctx c candidates prepared := by
  unfold assembleStage at ok
  split at ok
  · rename_i unwired
    cases Except.ok.inj ok
    exact .passthrough unwired _ _
  · rename_i a wired
    obtain ⟨out, assembled, ok⟩ := bindOk.mp ok
    cases pureOk.mp ok
    obtain ⟨packing, spec⟩ := assembleOk assembled
    have kept := spec.kept
    unfold keptCount at kept
    simp only [kept]
    exact .assembled wired assembled spec _

omit [PyFloat R] [Builtins] in
theorem renderNone (c : ChatCall) (candidates : List (MemoryCandidate R)) :
    render (sourcesOf c candidates) [] = passthrough c := by
  simp [render, sourcesOf, passthrough]

theorem ungroundedMessages {p : Pipeline R} {env ctx c candidates prepared}
    (ok : p.assembleStage env ctx c candidates = .ok prepared) (none : prepared.injected = 0) :
    prepared.messages = passthrough c := by
  cases preparation ok with
  | passthrough => rfl
  | assembled _ _ spec =>
    have empty := List.length_eq_zero_iff.mp none
    rw [spec.messages, empty]
    exact renderNone c candidates

/-! ### Dispatch -/

structure FailedCall (messages : List ChatMessage) (maxTokens : Int) (call : AdapterCall) : Prop where
  messages : call.request.messages = messages
  maxTokens : call.request.maxTokens = maxTokens
  failed : ∃ e, call.reply = .error e

inductive Walked (messages : List ChatMessage) (maxTokens : Int) : Invocation R → Prop where
  | exhausted {backends : BackendRegistry R} {e : PyError} {calls : List AdapterCall}
      (tried : ∀ call ∈ calls, FailedCall messages maxTokens call) :
      Walked messages maxTokens ⟨backends, .error e, calls⟩
  | answered {backends : BackendRegistry R} {resp : ChatResponse} {used model : String}
      (failures : List AdapterCall) (tried : ∀ call ∈ failures, FailedCall messages maxTokens call) :
      Walked messages maxTokens
        ⟨backends, .ok (resp, used, model), failures ++ [⟨⟨model, messages, maxTokens⟩, .ok resp⟩]⟩

omit [PyFloat R] [Builtins] in
theorem Walked.afterFailure {messages maxTokens call} {walk : Invocation R}
    (failed : FailedCall messages maxTokens call) (rest : Walked messages maxTokens walk) :
    Walked messages maxTokens { walk with calls := call :: walk.calls } := by
  cases rest with
  | exhausted tried => exact .exhausted (List.forall_mem_cons.mpr ⟨failed, tried⟩)
  | answered failures tried => exact .answered (call :: failures) (List.forall_mem_cons.mpr ⟨failed, tried⟩)

omit [PyFloat R] [Builtins] in
theorem invokeRoutedWalked (env : Env) (messages : List ChatMessage) (maxTokens : Int) (hop : Nat)
    (names : List String) (reg : BackendRegistry R) :
    Walked messages maxTokens (invokeRouted env messages maxTokens hop names reg) := by
  induction names generalizing hop reg with
  | nil => exact .exhausted (by simp)
  | cons name rest ih =>
    unfold invokeRouted
    split
    · exact ih (hop + 1) reg
    · split
      · exact ih (hop + 1) reg
      · dsimp only
        split
        · exact .answered [] (by simp)
        · rename_i e _
          exact (ih (hop + 1) _).afterFailure ⟨rfl, rfl, e, rfl⟩

inductive DispatchEnding (p : Pipeline R) (env : Env) (s : Stores R) (ctx : SecurityContext) (c : ChatCall)
    (prepared : Prepared R) : Outcome R → Prop where
  | failed (backends : Option (BackendRegistry R)) (spans : List TraceSpan) (e : PyError) {calls : List AdapterCall}
      (tried : ∀ call ∈ calls, FailedCall prepared.messages c.maxTokens call)
      (single : p.routing s = none → backends = s.backends ∧ calls.length = 1) :
      DispatchEnding p env s ctx c prepared (finish env ctx { s with backends := backends } spans (.error e) calls)
  | completed (backends : Option (BackendRegistry R)) (spans : List TraceSpan) (failures : List AdapterCall)
      {model : String} {resp : ChatResponse}
      (tried : ∀ call ∈ failures, FailedCall prepared.messages c.maxTokens call)
      (single : p.routing s = none → backends = s.backends ∧ failures = []) :
      DispatchEnding p env s ctx c prepared
        (finish env ctx (p.writeback env { s with backends := backends } ctx c model prepared.injected resp).1 spans
          (.ok ⟨resp.text, env.traceId, resp.model, resp.usage⟩)
          (failures ++ [⟨⟨model, prepared.messages, c.maxTokens⟩, .ok resp⟩]))

theorem dispatchEnding (p : Pipeline R) (env : Env) (s : Stores R) (ctx : SecurityContext) (c : ChatCall)
    (spans : List TraceSpan) (prepared : Prepared R) :
    DispatchEnding p env s ctx c prepared (p.dispatch env s ctx c spans prepared) := by
  unfold dispatch
  dsimp only
  split
  · rename_i router reg routed
    split
    · exact .failed s.backends _ _ (by simp) (by simp [routed])
    · rename_i decision _
      have walked := invokeRoutedWalked env prepared.messages c.maxTokens 0
        (decision.backend :: decision.fallbackChain) reg
      generalize invokeRouted env prepared.messages c.maxTokens 0
        (decision.backend :: decision.fallbackChain) reg = walk at walked
      cases walked with
      | exhausted tried => exact .failed _ _ _ tried (by simp [routed])
      | answered failures tried => exact .completed _ _ failures tried (by simp [routed])
  · split
    · rename_i e _
      exact .failed s.backends _ _ (by simp; exact ⟨rfl, rfl, e, rfl⟩) (by simp)
    · exact .completed s.backends _ [] (by simp) (by simp)

theorem dispatchMessages {p : Pipeline R} {env : Env} {s : Stores R} {ctx : SecurityContext} {c : ChatCall}
    {spans : List TraceSpan} {prepared : Prepared R} {call : AdapterCall}
    (member : call ∈ (p.dispatch env s ctx c spans prepared).calls) : call.request.messages = prepared.messages := by
  have ending := p.dispatchEnding env s ctx c spans prepared
  generalize p.dispatch env s ctx c spans prepared = out at ending member
  cases ending with
  | failed _ _ _ tried => exact (tried call member).messages
  | completed _ _ _ tried =>
    rcases List.mem_append.mp member with failure | last
    · exact (tried call failure).messages
    · rw [List.mem_singleton] at last
      rw [last]

/-! ### Invocation -/

def answering (p : Pipeline R) (env : Env) (s : Stores R) (ctx : SecurityContext) (c : ChatCall)
    (prepared : Prepared R) : Except PyError (ChatResponse × String × String) :=
  match p.routing s with
  | some (router, reg) => do
    let decision ← router.route env.routeAt ctx c.prompt prepared.assembledTokens reg RouteFilters.none
    (invokeRouted env prepared.messages c.maxTokens 0 (decision.backend :: decision.fallbackChain) reg).result
  | none =>
    match p.adapter.generate (env.callToken 0) ⟨p.chosenModel c, prepared.messages, c.maxTokens⟩ with
    | .error e => .error ⟨.adapterError, e⟩
    | .ok resp => .ok (resp, p.adapter.name, p.chosenModel c)

inductive Invoked (p : Pipeline R) (env : Env) (s : Stores R) (ctx : SecurityContext) (c : ChatCall)
    (prepared : Prepared R) : Except PyError (ChatResponse × String × String) → Outcome R → Prop where
  | failed (backends : Option (BackendRegistry R)) (spans : List TraceSpan) (e : PyError) {calls : List AdapterCall}
      (tried : ∀ call ∈ calls, FailedCall prepared.messages c.maxTokens call) :
      Invoked p env s ctx c prepared (.error e)
        (finish env ctx { s with backends := backends } spans (.error e) calls)
  | answered {resp : ChatResponse} {used model : String} (backends : Option (BackendRegistry R))
      (spans : List TraceSpan) (failures : List AdapterCall)
      (tried : ∀ call ∈ failures, FailedCall prepared.messages c.maxTokens call) :
      Invoked p env s ctx c prepared (.ok (resp, used, model))
        (finish env ctx (p.writeback env { s with backends := backends } ctx c model prepared.injected resp).1 spans
          (.ok ⟨resp.text, env.traceId, resp.model, resp.usage⟩)
          (failures ++ [⟨⟨model, prepared.messages, c.maxTokens⟩, .ok resp⟩]))

theorem dispatchInvoked (p : Pipeline R) (env : Env) (s : Stores R) (ctx : SecurityContext) (c : ChatCall)
    (spans : List TraceSpan) (prepared : Prepared R) :
    Invoked p env s ctx c prepared (p.answering env s ctx c prepared) (p.dispatch env s ctx c spans prepared) := by
  unfold dispatch answering
  dsimp only
  cases p.routing s with
  | some routed =>
    obtain ⟨router, reg⟩ := routed
    dsimp only
    cases router.route env.routeAt ctx c.prompt prepared.assembledTokens reg RouteFilters.none with
    | error e => exact .failed s.backends _ e (by simp)
    | ok decision =>
      have walked := invokeRoutedWalked env prepared.messages c.maxTokens 0
        (decision.backend :: decision.fallbackChain) reg
      simp only [bind, Except.bind]
      generalize invokeRouted env prepared.messages c.maxTokens 0
        (decision.backend :: decision.fallbackChain) reg = walk at walked ⊢
      cases walked with
      | exhausted tried => exact .failed _ _ _ tried
      | answered failures tried => exact .answered _ _ failures tried
  | none =>
    dsimp only
    cases p.adapter.generate (env.callToken 0) ⟨p.chosenModel c, prepared.messages, c.maxTokens⟩ with
    | error e => exact .failed s.backends _ _ (by simpa using ⟨rfl, rfl, e, rfl⟩)
    | ok resp => exact .answered s.backends _ [] (by simp)

theorem capturedAnswering (p : Pipeline R) (env : Env) (s : Stores R) (ctx : SecurityContext) (c : ChatCall)
    (prepared : Prepared R) : p.answering env (captured s ctx prepared) ctx c prepared = p.answering env s ctx c prepared := by
  unfold captured
  split <;> rfl

structure Answered (p : Pipeline R) (env : Env) (s : Stores R) (ctx : SecurityContext) (c : ChatCall)
    (found : List (MemoryCandidate R)) (prepared : Prepared R) (model : String) (resp : ChatResponse) : Prop where
  reached : Reached p env s ctx c found prepared
  answer : ∃ used, p.answering env s ctx c prepared = .ok (resp, used, model)

def committed (p : Pipeline R) (env : Env) (s : Stores R) (ctx : SecurityContext) (c : ChatCall) (prepared : Prepared R)
    (backends : Option (BackendRegistry R)) (model : String) (resp : ChatResponse) : Stores R :=
  (p.writeback env { captured s ctx prepared with backends := backends } ctx c model prepared.injected resp).1

inductive Ended (p : Pipeline R) (env : Env) (s : Stores R) (ctx : SecurityContext) (c : ChatCall) : Outcome R → Prop where
  | refused (spans : List TraceSpan) (e : PyError) : Ended p env s ctx c (finish env ctx s spans (.error e) [])
  | hit {hit : CacheHit R} (found : p.lookup env s ctx c = some hit) (spans : List TraceSpan) :
      Ended p env s ctx c
        (finish env ctx s spans (.ok ⟨hit.responseText, env.traceId, p.chosenModel c, ⟨0, 0, 0⟩⟩) [])
  | failed {found : List (MemoryCandidate R)} {prepared : Prepared R} (reached : Reached p env s ctx c found prepared)
      (backends : Option (BackendRegistry R)) (spans : List TraceSpan) (e : PyError) {calls : List AdapterCall}
      (tried : ∀ call ∈ calls, FailedCall prepared.messages c.maxTokens call) :
      Ended p env s ctx c
        (finish env ctx { captured s ctx prepared with backends := backends } spans (.error e) calls)
  | answered {found : List (MemoryCandidate R)} {prepared : Prepared R} {model : String} {resp : ChatResponse}
      (answered : Answered p env s ctx c found prepared model resp) (backends : Option (BackendRegistry R))
      (spans : List TraceSpan) (failures : List AdapterCall)
      (tried : ∀ call ∈ failures, FailedCall prepared.messages c.maxTokens call) :
      Ended p env s ctx c
        (finish env ctx (p.committed env s ctx c prepared backends model resp) spans
          (.ok ⟨resp.text, env.traceId, resp.model, resp.usage⟩)
          (failures ++ [⟨⟨model, prepared.messages, c.maxTokens⟩, .ok resp⟩]))

theorem runEnded (p : Pipeline R) (env : Env) (s : Stores R) (ctx : SecurityContext) (c : ChatCall) :
    Ended p env s ctx c (p.run env s ctx c) := by
  have ending := p.runEnding env s ctx c
  generalize p.run env s ctx c = out at ending
  cases ending with
  | refused spans e => exact .refused spans e
  | hit found spans => exact .hit found spans
  | @dispatched found prepared reached spans =>
    have invoked := p.dispatchInvoked env (captured s ctx prepared) ctx c spans prepared
    rw [capturedAnswering] at invoked
    generalize p.dispatch env (captured s ctx prepared) ctx c spans prepared = out at invoked ⊢
    cases answer : p.answering env s ctx c prepared with
    | error e =>
      rw [answer] at invoked
      cases invoked with
      | failed backends spans _ tried => exact .failed reached backends spans e tried
    | ok served =>
      obtain ⟨resp, used, model⟩ := served
      rw [answer] at invoked
      cases invoked with
      | answered backends spans failures tried =>
        exact .answered ⟨reached, used, answer⟩ backends spans failures tried

theorem answeredRun {p : Pipeline R} {env s ctx c found prepared model resp}
    (answered : Answered p env s ctx c found prepared model resp) :
    ∃ backends spans failures, p.run env s ctx c = finish env ctx (p.committed env s ctx c prepared backends model resp)
      spans (.ok ⟨resp.text, env.traceId, resp.model, resp.usage⟩)
      (failures ++ [⟨⟨model, prepared.messages, c.maxTokens⟩, .ok resp⟩]) := by
  obtain ⟨spans, run⟩ := runReached answered.reached
  obtain ⟨used, answer⟩ := answered.answer
  have invoked := p.dispatchInvoked env (captured s ctx prepared) ctx c spans prepared
  rw [capturedAnswering, answer, ← run] at invoked
  generalize p.run env s ctx c = out at invoked ⊢
  cases invoked with
  | answered backends spans failures _ => exact ⟨backends, spans, failures, rfl⟩

/-! ### What a run leaves alone -/

theorem preparedTrace {p : Pipeline R} {env : Env} {ctx : SecurityContext} {c : ChatCall}
    {candidates : List (MemoryCandidate R)} {prepared : Prepared R} {b : ContextBundle R}
    (ok : p.assembleStage env ctx c candidates = .ok prepared) (bundled : prepared.bundle = some b) :
    b.traceId = env.traceId := by
  cases preparation ok with
  | passthrough => contradiction
  | assembled =>
    obtain ⟨d, _, rfl⟩ := Option.map_eq_some_iff.mp bundled
    rfl

theorem capturedBundle {p : Pipeline R} {env : Env} {s : Stores R} {ctx : SecurityContext} {c : ChatCall}
    {found : List (MemoryCandidate R)} {prepared : Prepared R}
    (reached : Reached p env s ctx c found prepared) {tenant id : String} {b : ContextBundle R}
    (stored : ((captured s ctx prepared).bundles.part tenant).get id = some b) :
    (s.bundles.part tenant).get id = some b ∨
    (tenant = ctx.tenantId ∧ id = env.traceId ∧ prepared.bundle = some b) := by
  unfold captured at stored
  split at stored
  · exact .inl stored
  · rename_i frozen bundled
    rcases Lib.Parts.getPut stored with ⟨owner, same, rfl⟩ | old
    · exact .inr ⟨owner, same.trans (preparedTrace reached.assembled bundled), bundled⟩
    · exact .inl old

theorem capturedOther {p : Pipeline R} {env : Env} {s : Stores R} {ctx : SecurityContext} {c : ChatCall}
    {found : List (MemoryCandidate R)} {prepared : Prepared R}
    (reached : Reached p env s ctx c found prepared) {tenant id : String}
    (different : ¬ (tenant = ctx.tenantId ∧ id = env.traceId)) :
    ((captured s ctx prepared).bundles.part tenant).get id = (s.bundles.part tenant).get id := by
  unfold captured
  split
  · rfl
  · rename_i frozen bundled
    rw [← preparedTrace reached.assembled bundled] at different
    exact Lib.Parts.getPutOther different _

section Frame
variable (p : Pipeline R) (env : Env) (s : Stores R) (ctx : SecurityContext) (c : ChatCall)

omit [PyFloat R] [Builtins] in
@[simp] theorem capturedMemories (prepared : Prepared R) : (captured s ctx prepared).memories = s.memories := by
  unfold captured; split <;> rfl

omit [PyFloat R] [Builtins] in
@[simp] theorem capturedCache (prepared : Prepared R) : (captured s ctx prepared).cache = s.cache := by
  unfold captured; split <;> rfl

omit [PyFloat R] [Builtins] in
@[simp] theorem capturedTracer (prepared : Prepared R) : (captured s ctx prepared).tracer = s.tracer := by
  unfold captured; split <;> rfl

@[simp] theorem writebackMemories (model : String) (injected : Nat) (resp : ChatResponse) :
    (p.writeback env s ctx c model injected resp).1.memories = s.memories := by
  unfold writeback; split <;> rfl

@[simp] theorem writebackTracer (model : String) (injected : Nat) (resp : ChatResponse) :
    (p.writeback env s ctx c model injected resp).1.tracer = s.tracer := by
  unfold writeback; split <;> rfl

theorem runMemories : (p.run env s ctx c).stores.memories = s.memories := by
  have ended := p.runEnded env s ctx c
  generalize p.run env s ctx c = out at ended ⊢
  cases ended with
  | refused => rfl
  | hit => rfl
  | failed => simp [finish]
  | answered => simp [finish, committed]

theorem runTracer : ∃ spans, (p.run env s ctx c).stores.tracer =
    s.tracer.record ⟨env.traceId, ctx.tenantId, spans⟩ := by
  have ended := p.runEnded env s ctx c
  generalize p.run env s ctx c = out at ended ⊢
  cases ended with
  | refused spans => exact ⟨spans, rfl⟩
  | hit _ spans => exact ⟨spans, rfl⟩
  | failed _ _ spans => exact ⟨spans, by simp [finish]⟩
  | answered _ _ spans => exact ⟨spans, by simp [finish, committed]⟩

theorem writebackBundle {model : String} {injected : Nat} {resp : ChatResponse} {tenant id : String}
    {b : ContextBundle R}
    (stored : ((p.writeback env s ctx c model injected resp).1.bundles.part tenant).get id = some b) :
    ∃ old, (s.bundles.part tenant).get id = some old ∧ InMemoryBundleStore.Amends b old := by
  unfold writeback at stored
  split at stored
  · exact ⟨b, stored, .refl b⟩
  · dsimp only at stored
    split at stored
    · exact ⟨b, stored, .refl b⟩
    · exact InMemoryBundleStore.attachedBundle stored

theorem runBundles {tenant id : String} {b : ContextBundle R}
    (stored : ((p.run env s ctx c).stores.bundles.part tenant).get id = some b) :
    (∃ old, (s.bundles.part tenant).get id = some old ∧ InMemoryBundleStore.Amends b old) ∨
    (tenant = ctx.tenantId ∧ id = env.traceId ∧ ∃ found prepared frozen, Reached p env s ctx c found prepared ∧
      prepared.bundle = some frozen ∧ InMemoryBundleStore.Amends b frozen) := by
  have ended := p.runEnded env s ctx c
  generalize p.run env s ctx c = out at ended stored
  cases ended with
  | refused => exact .inl ⟨b, stored, .refl b⟩
  | hit => exact .inl ⟨b, stored, .refl b⟩
  | failed reached =>
    rcases capturedBundle reached stored with old | ⟨owner, same, bundled⟩
    · exact .inl ⟨b, old, .refl b⟩
    · exact .inr ⟨owner, same, _, _, b, reached, bundled, .refl b⟩
  | answered answered =>
    obtain ⟨frozen, there, amends⟩ := writebackBundle p env _ ctx c stored
    rcases capturedBundle answered.reached there with old | ⟨owner, same, bundled⟩
    · exact .inl ⟨frozen, old, amends⟩
    · exact .inr ⟨owner, same, _, _, frozen, answered.reached, bundled, amends⟩

theorem runBundlesOther {tenant id : String} (different : ¬ (tenant = ctx.tenantId ∧ id = env.traceId)) :
    ((p.run env s ctx c).stores.bundles.part tenant).get id = (s.bundles.part tenant).get id := by
  have ended := p.runEnded env s ctx c
  generalize p.run env s ctx c = out at ended ⊢
  cases ended with
  | refused => rfl
  | hit => rfl
  | failed reached => exact capturedOther reached different
  | answered answered =>
    refine Eq.trans ?_ (capturedOther answered.reached different)
    simp only [finish, committed, writeback]
    split
    · rfl
    · dsimp only
      split
      · rfl
      · exact InMemoryBundleStore.attachedOther different _

theorem committedCache (prepared : Prepared R) (backends : Option (BackendRegistry R)) (model : String) (resp : ChatResponse) :
    (p.committed env s ctx c prepared backends model resp).cache = s.cache ∨
    ∃ cache entry, resp.finishReason.isSome ∧ p.cache = some cache ∧
      cache.newEntry env.storeAt ctx c.prompt resp.text (cacheKeywords c model) (0 < prepared.injected) none = some entry ∧
      (p.committed env s ctx c prepared backends model resp).cache = s.cache.put entry := by
  unfold committed writeback
  split
  · exact .inl (by simp)
  · rename_i finished
    have finished : resp.finishReason.isSome := by simpa [Option.isSome_iff_ne_none] using finished
    cases wired : p.cache with
    | none => exact .inl (by simp)
    | some cache =>
      simp only [SemanticCache.store, capturedCache]
      cases made : cache.newEntry env.storeAt ctx c.prompt resp.text (cacheKeywords c model) (0 < prepared.injected) none with
      | none => exact .inl (by simp)
      | some entry => exact .inr ⟨cache, entry, finished, rfl, made, rfl⟩

structure Completed (found : List (MemoryCandidate R)) (prepared : Prepared R) (model : String) (resp : ChatResponse)
    (out : Outcome R) : Prop where
  reached : Reached p env s ctx c found prepared
  finished : resp.finishReason.isSome
  result : out.result = .ok ⟨resp.text, env.traceId, resp.model, resp.usage⟩
  call : ⟨⟨model, prepared.messages, c.maxTokens⟩, .ok resp⟩ ∈ out.calls

theorem runCache {tenant key : String} {stored : StoredEntry R}
    (there : ((p.run env s ctx c).stores.cache.part tenant).get key = some stored) :
    (s.cache.part tenant).get key = some stored ∨
    ∃ found prepared model resp cache, Completed p env s ctx c found prepared model resp (p.run env s ctx c) ∧
      p.cache = some cache ∧ tenant = ctx.tenantId ∧ key = stored.entry.key ∧
      cache.newEntry env.storeAt ctx c.prompt resp.text (cacheKeywords c model) (0 < prepared.injected) none =
        some stored := by
  have ended := p.runEnded env s ctx c
  generalize p.run env s ctx c = out at ended there ⊢
  cases ended with
  | refused => exact .inl there
  | hit => exact .inl there
  | failed => exact .inl (by simpa [finish] using there)
  | @answered found prepared model resp answered backends =>
    dsimp only [finish] at there
    rcases p.committedCache env s ctx c prepared backends model resp with same | ⟨cache, entry, finished, wired, made, put⟩
    · exact .inl (same ▸ there)
    · rw [put, InMemoryCacheBackend.put] at there
      rcases Lib.Parts.getPut there with ⟨owner, key, rfl⟩ | old
      · exact .inr ⟨found, prepared, model, resp, cache, ⟨answered.reached, finished, rfl, by simp [finish]⟩, wired,
          owner.trans (SemanticCache.newEntryOf made).2.tenant, key, made⟩
      · exact .inl old

theorem quietHit {result : ChatResult} (ok : (p.run env s ctx c).result = .ok result)
    (quiet : (p.run env s ctx c).calls = []) :
    ∃ hit, p.lookup env s ctx c = some hit ∧
      result = ⟨hit.responseText, env.traceId, p.chosenModel c, ⟨0, 0, 0⟩⟩ := by
  have ended := p.runEnded env s ctx c
  generalize p.run env s ctx c = out at ended ok quiet
  cases ended with
  | refused => simp [finish] at ok
  | hit found => exact ⟨_, found, (Except.ok.inj ok).symm⟩
  | failed => simp [finish] at ok
  | answered => simp [finish] at quiet

variable {p env s ctx c} in
theorem runHit {hit : CacheHit R} (authorized : p.policy.check ctx (modelResource ctx) .route = .ok ())
    (found : p.lookup env s ctx c = some hit) :
    (p.run env s ctx c).result = .ok ⟨hit.responseText, env.traceId, p.chosenModel c, ⟨0, 0, 0⟩⟩ ∧
    (p.run env s ctx c).calls = [] := by
  simp only [run, authorized, found]
  exact ⟨rfl, rfl⟩

theorem servedFromCache {result : ChatResult} (ok : (p.run env s ctx c).result = .ok result)
    (quiet : (p.run env s ctx c).calls = []) :
    ∃ key stored, (s.cache.part ctx.tenantId).get key = some stored ∧ result.text = stored.responseText := by
  obtain ⟨hit, found, rfl⟩ := p.quietHit env s ctx c ok quiet
  obtain ⟨cache, _, found⟩ := Option.bind_eq_some_iff.mp found
  obtain ⟨stored, origin⟩ := SemanticCache.lookupHit found
  cases origin with
  | exact _ there => exact ⟨_, stored, there, rfl⟩
  | semantic member _ =>
    obtain ⟨key, there⟩ := Lib.Dict.memValues.mp member
    exact ⟨key, stored, there, rfl⟩

end Frame

end Pipeline
end ContextOS
