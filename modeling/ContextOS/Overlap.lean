import ContextOS.Effects
import ContextOS.Executable

/-! Chats that overlap. The gateway serves its requests on one event loop, and a chat that
waits for its backend lets the others in: it stops at the `await` of `generate` and goes on
with the reply, over the stores as they are then. Everything else a request does is done
before the next one starts. Served one after the other, the requests do what the
application does with them. -/
namespace ContextOS
open Lib (Dict Machine)

variable {R : Type}

structure Frame (R : Type) where
  ctx : SecurityContext
  env : Env
  call : ChatCall
  spans : List TraceSpan
  prepared : Prepared R

/-- A chat at its `await`; without a router there is no chain of backends to fall back on. -/
structure Waiting (R : Type) where
  frame : Frame R
  request : ChatRequest
  used : String
  hop : Nat
  chain : Option (List String)
  calls : List AdapterCall

inductive Segment (R : Type) where
  | waits (w : Waiting R) (s : Stores R)
  | ends (out : Outcome R)

def Segment.stores : Segment R → Stores R
  | .waits _ s => s
  | .ends out => out.stores

namespace Frame

def span (f : Frame R) (stage : Stage) (name : String) (decision : Option (String × List (String × String))) : TraceSpan :=
  f.env.spans.span f.env.traceId f.ctx.tenantId stage name decision

def noted (f : Frame R) (s : Stores R) : Stores R :=
  { s with tracer := s.tracer.record ⟨f.env.traceId, f.ctx.tenantId, f.spans⟩ }

-- the walk goes on at `names`: the next backend that lets a call through is asked
def seek (f : Frame R) (calls : List AdapterCall) (s : Stores R) : Nat → List String → Segment R
  | _, [] => .ends (Pipeline.finish f.env f.ctx s (f.spans ++ [f.span .backendInvoke "adapter.generate" none])
      (.error ⟨.backendUnavailable, "all routed backends failed or are breaker-open"⟩) calls)
  | hop, name :: rest =>
    match s.backends.bind (·.get name) with
    | none => seek f calls s (hop + 1) rest
    | some entry =>
      if !entry.breaker.allows (f.env.allowsAt hop) then seek f calls s (hop + 1) rest
      else .waits ⟨f, ⟨entry.spec.modelId, f.prepared.messages, f.call.maxTokens⟩, name, hop, some rest, calls⟩ (f.noted s)

end Frame

namespace BackendRegistry

-- an entry's breaker is told how the call ended, as the breaker is by then
def tell (reg : BackendRegistry R) (name : String) (outcome : CircuitBreaker → CircuitBreaker) : BackendRegistry R :=
  match reg.get name with
  | none => reg
  | some entry => reg.register { entry with breaker := outcome entry.breaker }

end BackendRegistry

namespace Pipeline
variable [PyFloat R] [Builtins]

-- the stages in front of the routing, where none of them ends the run
def reach (p : Pipeline R) (env : Env) (s : Stores R) (ctx : SecurityContext) (c : ChatCall) : Option (Frame R) :=
  let span := env.spans.span env.traceId ctx.tenantId
  match p.policy.check ctx (modelResource ctx) .route with
  | .error _ => none
  | .ok _ =>
    match p.lookup env s ctx c with
    | some _ => none
    | none =>
      match p.retrieve env s ctx c with
      | .error _ => none
      | .ok found =>
        let (candidates, compressDecision) := p.compressAll c.prompt found
        match p.assembleStage env ctx c candidates with
        | .error _ => none
        | .ok prepared => some ⟨ctx, env, c,
            [span .auth "resolve+authorize"
                (some ("authorized", [("tenant", ctx.tenantId), ("namespace", ctx.namespaceId)])),
              span .cache "semantic-cache-lookup" (some ("miss", [("verdict", "miss"), ("tier", "none")]))] ++
            [span .retrieve "memory-retrieve" (some (p.retrieveDecision found)),
              span .compress "context-compression" (some compressDecision)] ++
            [span .assemble "context-assembly" (some prepared.decision)], prepared⟩

def invoke (p : Pipeline R) (f : Frame R) (s : Stores R) : Segment R :=
  match p.routing s with
  | some (router, reg) =>
    match router.route f.env.routeAt f.ctx f.call.prompt f.prepared.assembledTokens reg RouteFilters.none with
    | .error e => .ends (finish f.env f.ctx s (f.spans ++ [f.span .route "model-router" none]) (.error e) [])
    | .ok decision =>
      { f with spans := f.spans ++ [f.span .route "model-router" (some (routeDecision decision))] }.seek [] s 0
        (decision.backend :: decision.fallbackChain)
  | none =>
    let model := p.chosenModel f.call
    let f := { f with spans := f.spans ++ [f.span .route "model-router"
      (some (s!"single-backend -> {p.adapter.name}", [("model", model)]))] }
    .waits ⟨f, ⟨model, f.prepared.messages, f.call.maxTokens⟩, p.adapter.name, 0, none, []⟩ (f.noted s)

-- a chat up to its first `await`. Where no backend is reached, that is the whole chat
def enter (p : Pipeline R) (env : Env) (s : Stores R) (ctx : SecurityContext) (c : ChatCall) : Segment R :=
  match p.reach env s ctx c with
  | none => .ends (p.run env s ctx c)
  | some f => p.invoke f (captured s ctx f.prepared)

def resume (p : Pipeline R) (w : Waiting R) (s : Stores R) (reply : Except String ChatResponse) : Segment R :=
  let f := w.frame
  let calls := w.calls ++ [⟨w.request, reply⟩]
  let told (outcome : CircuitBreaker → CircuitBreaker) : Stores R :=
    { s with backends := s.backends.map (·.tell w.used outcome) }
  match w.chain, reply with
  | none, .ok resp => .ends (p.complete f.env s f.ctx f.call f.spans f.prepared w.used w.request.model resp calls)
  | none, .error e => .ends (finish f.env f.ctx s (f.spans ++ [f.span .backendInvoke "adapter.generate" none])
      (.error ⟨.adapterError, e⟩) calls)
  | some _, .ok resp => .ends (p.complete f.env (told CircuitBreaker.recordSuccess) f.ctx f.call f.spans f.prepared
      w.used w.request.model resp calls)
  | some rest, .error _ => f.seek calls (told (·.recordFailure (f.env.failedAt w.hop))) (w.hop + 1) rest

-- the adapter that the chat waits for
def asked (p : Pipeline R) (w : Waiting R) (s : Stores R) : Option Adapter :=
  match w.chain with
  | none => some p.adapter
  | some _ => (s.backends.bind (·.get w.used)).map (·.adapter)

def Answers (p : Pipeline R) (w : Waiting R) (s : Stores R) (reply : Except String ChatResponse) : Prop :=
  ∃ adapter, p.asked w s = some adapter ∧ reply = adapter.generate (w.frame.env.callToken w.hop) w.request

end Pipeline

structure LoopState (R : Type) where
  app : AppState R
  waiting : String → String → Option (Waiting R)

inductive Event (R : Type) where
  | request (r : Request R)
  | reply (tenant traceId : String) (reply : Except String ChatResponse)

def eventTenant : Event R → String
  | .request r => r.ctx.tenantId
  | .reply tenant _ _ => tenant

def Event.chat : Event R → Option (String × String)
  | .request r => r.opened.map (fun traceId => (r.ctx.tenantId, traceId))
  | .reply tenant traceId _ => some (tenant, traceId)

def Request.attaches (r : Request R) : Bool :=
  match r.op with
  | .attachOutput _ _ => true
  | _ => false

theorem openedOther {r : Request R} (other : ∀ call, r.op ≠ .chat call) : r.opened = none := by
  unfold Request.opened
  split
  · rename_i call op
    exact absurd op (other call)
  · rfl

namespace LoopState

def initial : LoopState R := ⟨AppState.initial, fun _ _ => none⟩

def hold (s : LoopState R) (tenant traceId : String) (w : Option (Waiting R)) : String → String → Option (Waiting R) :=
  fun t id => if t = tenant ∧ id = traceId then w else s.waiting t id

def turned (s : LoopState R) (tenant traceId : String) : Segment R → LoopState R × Option (Response R)
  | .waits w stores => (⟨{ s.app with stores := stores }, s.hold tenant traceId (some w)⟩, none)
  | .ends out =>
    (⟨{ s.app with stores := out.stores }, s.hold tenant traceId none⟩, some ⟨out.result.map .chat, out.calls⟩)

theorem turnedStores (s : LoopState R) (tenant traceId : String) (segment : Segment R) :
    (s.turned tenant traceId segment).1.app.stores = segment.stores := by
  cases segment <;> rfl

theorem turnedWaits {s : LoopState R} {tenant traceId t id : String} {segment : Segment R} {w : Waiting R}
    (waits : (s.turned tenant traceId segment).1.waiting t id = some w) :
    ((t = tenant ∧ id = traceId) ∧ ∃ stores, segment = .waits w stores) ∨
    (¬ (t = tenant ∧ id = traceId) ∧ s.waiting t id = some w) := by
  cases segment with
  | waits v stores =>
    simp only [turned, hold] at waits
    split at waits
    · rename_i here
      exact .inl ⟨here, stores, by rw [Option.some.inj waits]⟩
    · rename_i other
      exact .inr ⟨other, waits⟩
  | ends out =>
    simp only [turned, hold] at waits
    split at waits <;> try contradiction
    rename_i other
    exact .inr ⟨other, waits⟩

end LoopState

namespace App
variable [PyFloat R] [Builtins]

def serve (a : App R) (s : LoopState R) : Event R → LoopState R × Option (Response R)
  | .request r =>
    match r.op with
    | .chat call => s.turned r.ctx.tenantId r.env.traceId (a.pipeline.enter r.env s.app.stores r.ctx call)
    | _ => (⟨(a.step s.app r).1, s.waiting⟩, some (a.step s.app r).2)
  | .reply tenant traceId reply =>
    match s.waiting tenant traceId with
    | none => (s, none)
    | some w => s.turned tenant traceId (a.pipeline.resume w s.app.stores reply)

theorem otherStores (a : App R) (s : AppState R) {r : Request R} (other : ∀ call, r.op ≠ .chat call) :
    ∃ memories bundles, (a.step s r).1.stores = { s.stores with memories := memories, bundles := bundles } ∧
      (r.attaches = false → bundles = s.stores.bundles) := by
  unfold step
  cases op : r.op with
  | chat call => exact absurd op (other call)
  | attachOutput traceId output => exact ⟨_, _, rfl, by simp [Request.attaches, op]⟩
  | writeMemory content tier importance => dsimp only; split <;> exact ⟨_, _, rfl, fun _ => rfl⟩
  | _ => exact ⟨_, _, rfl, fun _ => rfl⟩

def loop (a : App R) : Machine (LoopState R) (Event R) (Option (Response R)) := ⟨a.serve⟩

theorem serveChat {a : App R} (s : LoopState R) {r : Request R} {call : ChatCall} (op : r.op = .chat call) :
    a.serve s (.request r) =
      s.turned r.ctx.tenantId r.env.traceId (a.pipeline.enter r.env s.app.stores r.ctx call) := by
  simp only [serve, op]

theorem serveOther {a : App R} (s : LoopState R) {r : Request R} (other : ∀ call, r.op ≠ .chat call) :
    a.serve s (.request r) = (⟨(a.step s.app r).1, s.waiting⟩, some (a.step s.app r).2) := by
  cases op : r.op with
  | chat call => exact absurd op (other call)
  | _ => simp only [serve, op]

theorem serveReply {a : App R} {s : LoopState R} {tenant traceId : String} {w : Waiting R}
    (waits : s.waiting tenant traceId = some w) (reply : Except String ChatResponse) :
    a.serve s (.reply tenant traceId reply) = s.turned tenant traceId (a.pipeline.resume w s.app.stores reply) := by
  simp only [serve, waits]

theorem serveLost {a : App R} {s : LoopState R} {tenant traceId : String} (lost : s.waiting tenant traceId = none)
    (reply : Except String ChatResponse) : a.serve s (.reply tenant traceId reply) = (s, none) := by
  simp only [serve, lost]

end App

namespace Pipeline
variable [PyFloat R] [Builtins]

inductive Unreached (p : Pipeline R) (env : Env) (s : Stores R) (ctx : SecurityContext) (c : ChatCall) : Outcome R → Prop where
  | refused (spans : List TraceSpan) (e : PyError) : Unreached p env s ctx c (finish env ctx s spans (.error e) [])
  | hit {hit : CacheHit R} (found : p.lookup env s ctx c = some hit) (spans : List TraceSpan) :
      Unreached p env s ctx c
        (finish env ctx s spans (.ok ⟨hit.responseText, env.traceId, p.chosenModel c, ⟨0, 0, 0⟩⟩) [])

structure FrameOf (p : Pipeline R) (env : Env) (s : Stores R) (ctx : SecurityContext) (c : ChatCall) (f : Frame R) : Prop where
  sameCtx : f.ctx = ctx
  sameEnv : f.env = env
  sameCall : f.call = c
  reached : ∃ found, Reached p env s ctx c found f.prepared
  run : p.run env s ctx c = p.dispatch env (captured s ctx f.prepared) ctx c f.spans f.prepared

theorem reachCases (p : Pipeline R) (env : Env) (s : Stores R) (ctx : SecurityContext) (c : ChatCall) :
    (p.reach env s ctx c = none ∧ Unreached p env s ctx c (p.run env s ctx c)) ∨
    ∃ f, p.reach env s ctx c = some f ∧ FrameOf p env s ctx c f := by
  unfold reach run
  cases authorized : p.policy.check ctx (modelResource ctx) .route with
  | error e => exact .inl ⟨rfl, .refused _ e⟩
  | ok granted =>
    cases miss : p.lookup env s ctx c with
    | some hit => exact .inl ⟨rfl, .hit miss _⟩
    | none =>
      unfold answer
      cases retrieved : p.retrieve env s ctx c with
      | error e => exact .inl ⟨rfl, .refused _ e⟩
      | ok found =>
        cases assembled : p.assembleStage env ctx c (p.compressAll c.prompt found).1 with
        | error e =>
          simp only [assembled]
          exact .inl ⟨trivial, .refused _ e⟩
        | ok prepared =>
          simp only [assembled]
          refine .inr ⟨_, rfl, rfl, rfl, rfl, ⟨found, authorized, miss, retrieved, assembled⟩, ?_⟩
          unfold run answer
          simp only [authorized, miss, retrieved, assembled]

theorem reachFrame {p : Pipeline R} {env : Env} {s : Stores R} {ctx : SecurityContext} {c : ChatCall} {f : Frame R}
    (reached : p.reach env s ctx c = some f) : FrameOf p env s ctx c f := by
  rcases p.reachCases env s ctx c with ⟨none, _⟩ | ⟨found, some, frame⟩
  · simp [none] at reached
  · rw [some] at reached
    exact Option.some.inj reached ▸ frame

end Pipeline

inductive Sought (f : Frame R) (calls : List AdapterCall) (s : Stores R) : Segment R → Prop where
  | exhausted (spans : List TraceSpan) (e : PyError) : Sought f calls s (.ends (Pipeline.finish f.env f.ctx s spans (.error e) calls))
  | waits {w : Waiting R} (frame : w.frame = f) (earlier : w.calls = calls) (messages : w.request.messages = f.prepared.messages)
      (maxTokens : w.request.maxTokens = f.call.maxTokens) : Sought f calls s (.waits w (f.noted s))

theorem seekSought (f : Frame R) (calls : List AdapterCall) (s : Stores R) (hop : Nat) (names : List String) :
    Sought f calls s (f.seek calls s hop names) := by
  induction names generalizing hop with
  | nil => exact .exhausted _ _
  | cons name rest ih =>
    rw [Frame.seek]
    split
    · exact ih (hop + 1)
    · split
      · exact ih (hop + 1)
      · exact .waits rfl rfl rfl rfl

namespace Pipeline
variable [PyFloat R] [Builtins]

inductive Entered (p : Pipeline R) (env : Env) (s : Stores R) (ctx : SecurityContext) (c : ChatCall) : Segment R → Prop where
  | unreached {out : Outcome R} (unreached : Unreached p env s ctx c out) : Entered p env s ctx c (.ends out)
  | invoked {f : Frame R} (frame : FrameOf p env s ctx c f) (spans : List TraceSpan) {segment : Segment R}
      (sought : Sought { f with spans := spans } [] (captured s ctx f.prepared) segment) : Entered p env s ctx c segment

theorem enterEntered (p : Pipeline R) (env : Env) (s : Stores R) (ctx : SecurityContext) (c : ChatCall) :
    Entered p env s ctx c (p.enter env s ctx c) := by
  unfold enter
  rcases p.reachCases env s ctx c with ⟨none, unreached⟩ | ⟨f, some, frame⟩
  · rw [none]
    exact .unreached unreached
  · rw [some]
    dsimp only
    unfold invoke
    split
    · split
      · exact .invoked frame f.spans (.exhausted _ _)
      · exact .invoked frame _ (seekSought _ _ _ _ _)
    · exact .invoked frame _ (.waits rfl rfl rfl rfl)

inductive Resumed (p : Pipeline R) (w : Waiting R) (s : Stores R) : Except String ChatResponse → Segment R → Prop where
  | completed (resp : ChatResponse) (backends : Option (BackendRegistry R)) :
      Resumed p w s (.ok resp) (.ends (p.complete w.frame.env { s with backends := backends } w.frame.ctx w.frame.call w.frame.spans
        w.frame.prepared w.used w.request.model resp (w.calls ++ [⟨w.request, .ok resp⟩])))
  | failed (e : String) (backends : Option (BackendRegistry R)) {segment : Segment R}
      (sought : Sought w.frame (w.calls ++ [⟨w.request, .error e⟩]) { s with backends := backends } segment) :
      Resumed p w s (.error e) segment

theorem resumeResumed (p : Pipeline R) (w : Waiting R) (s : Stores R) (reply : Except String ChatResponse) :
    Resumed p w s reply (p.resume w s reply) := by
  unfold resume
  cases w.chain with
  | none =>
    cases reply with
    | ok resp => exact .completed resp s.backends
    | error e => exact .failed e s.backends (.exhausted _ _)
  | some rest =>
    cases reply with
    | ok resp => exact .completed resp _
    | error e => exact .failed e _ (seekSought _ _ _ _ _)

end Pipeline

namespace Pipeline
variable [PyFloat R] [Builtins] {p : Pipeline R}

-- the chat is left to itself: every backend that it waits for replies next
inductive Alone (p : Pipeline R) : Segment R → List (Except String ChatResponse) → Outcome R → Prop where
  | ends (out : Outcome R) : Alone p (.ends out) [] out
  | replied {w : Waiting R} {s : Stores R} {reply : Except String ChatResponse} {later : List (Except String ChatResponse)}
      {out : Outcome R} (answers : p.Answers w s reply) (rest : Alone p (p.resume w s reply) later out) :
      Alone p (.waits w s) (reply :: later) out

theorem Alone.ended {turn : Segment R} {out : Outcome R} (ended : turn = .ends out) : Alone p turn [] out := by
  rw [ended]
  exact .ends out

omit [PyFloat R] [Builtins] in
theorem finishNoted (f : Frame R) (s : Stores R) (spans : List TraceSpan) (result : Except PyError ChatResult)
    (calls : List AdapterCall) : finish f.env f.ctx (f.noted s) spans result calls = finish f.env f.ctx s spans result calls := by
  simp only [finish, Frame.noted, Tracer.record, Dict.setSet]

theorem completeNoted (p : Pipeline R) (f : Frame R) (s : Stores R) (used model : String) (resp : ChatResponse)
    (calls : List AdapterCall) : p.complete f.env (f.noted s) f.ctx f.call f.spans f.prepared used model resp calls =
      p.complete f.env s f.ctx f.call f.spans f.prepared used model resp calls := by
  have same : p.writeback f.env (f.noted s) f.ctx f.call model f.prepared.injected resp =
      (f.noted (p.writeback f.env s f.ctx f.call model f.prepared.injected resp).1,
        (p.writeback f.env s f.ctx f.call model f.prepared.injected resp).2) := by
    unfold writeback
    split <;> rfl
  simp only [complete, same]
  exact finishNoted f _ _ _ _

def conclude (p : Pipeline R) (f : Frame R) (s : Stores R) (calls : List AdapterCall) (walk : Invocation R) : Outcome R :=
  match walk.result with
  | .error e => finish f.env f.ctx { s with backends := some walk.backends }
      (f.spans ++ [f.span .backendInvoke "adapter.generate" none]) (.error e) (calls ++ walk.calls)
  | .ok (resp, used, model) => p.complete f.env { s with backends := some walk.backends } f.ctx f.call f.spans f.prepared
      used model resp (calls ++ walk.calls)

theorem concludeNoted (p : Pipeline R) (f : Frame R) (s : Stores R) (calls : List AdapterCall) (walk : Invocation R) :
    p.conclude f (f.noted s) calls walk = p.conclude f s calls walk := by
  unfold conclude
  split
  · exact finishNoted f { s with backends := some walk.backends } _ _ _
  · exact completeNoted p f { s with backends := some walk.backends } _ _ _ _

omit [PyFloat R] [Builtins] in
theorem toldEntry {reg : BackendRegistry R} {name : String} {entry : RegistryEntry R} (there : reg.get name = some entry)
    (outcome : CircuitBreaker → CircuitBreaker) :
    reg.tell name outcome = reg.register { entry with breaker := outcome entry.breaker } := by
  simp only [BackendRegistry.tell, there]

theorem seekAlone (f : Frame R) (calls : List AdapterCall) (s : Stores R) {reg : BackendRegistry R}
    (backends : s.backends = some reg) (hop : Nat) (names : List String) :
    ∃ replies, Alone p (f.seek calls s hop names) replies
      (p.conclude f s calls (invokeRouted f.env f.prepared.messages f.call.maxTokens hop names reg)) := by
  induction names generalizing hop calls s reg with
  | nil =>
    refine ⟨[], ?_⟩
    have same : { s with backends := some reg } = s := by rw [← backends]
    simp only [Frame.seek, conclude, invokeRouted, same, List.append_nil]
    exact .ends _
  | cons name rest ih =>
    rw [Frame.seek, invokeRouted, backends, Option.bind_some]
    cases there : reg.get name with
    | none => exact ih calls s backends (hop + 1)
    | some entry =>
      dsimp only
      split
      · exact ih calls s backends (hop + 1)
      · generalize request : ChatRequest.mk entry.spec.modelId f.prepared.messages f.call.maxTokens = req
        have asked : p.asked ⟨f, req, name, hop, some rest, calls⟩ (f.noted s) = some entry.adapter := by
          simp [asked, Frame.noted, backends, there]
        cases reply : entry.adapter.generate (f.env.callToken hop) req with
        | ok resp =>
          refine ⟨[.ok resp], .replied ⟨entry.adapter, asked, reply.symm⟩ ?_⟩
          have resumed : p.resume ⟨f, req, name, hop, some rest, calls⟩ (f.noted s) (.ok resp) =
              .ends (p.conclude f s calls ⟨reg.register { entry with breaker := entry.breaker.recordSuccess },
                .ok (resp, name, entry.spec.modelId), [⟨req, .ok resp⟩]⟩) := by
            rw [← concludeNoted, ← request]
            simp only [resume, conclude, Frame.noted, backends, Option.map_some, toldEntry there]
          exact .ended resumed
        | error e =>
          obtain ⟨later, alone⟩ := ih (calls ++ [⟨req, .error e⟩])
            (f.noted { s with backends := some (reg.register { entry with breaker := entry.breaker.recordFailure (f.env.failedAt hop) }) })
            rfl (hop + 1)
          refine ⟨.error e :: later, .replied ⟨entry.adapter, asked, reply.symm⟩ ?_⟩
          have resumed : p.resume ⟨f, req, name, hop, some rest, calls⟩ (f.noted s) (.error e) =
              f.seek (calls ++ [⟨req, .error e⟩])
                (f.noted { s with backends := some (reg.register
                  { entry with breaker := entry.breaker.recordFailure (f.env.failedAt hop) }) }) (hop + 1) rest := by
            simp only [resume, Frame.noted, backends, Option.map_some, toldEntry there]
          rw [resumed]
          rw [concludeNoted] at alone
          simpa only [conclude, List.append_assoc, List.singleton_append] using alone

omit [PyFloat R] [Builtins] in
theorem routedBackends {s : Stores R} {router : ModelRouter} {reg : BackendRegistry R}
    (routed : p.routing s = some (router, reg)) : p.router = some router ∧ s.backends = some reg := by
  unfold routing at routed
  split at routed <;> try contradiction
  rename_i wired there
  split at routed <;> try contradiction
  cases Option.some.inj routed
  exact ⟨wired, there⟩

theorem invokeAlone (p : Pipeline R) (f : Frame R) (s : Stores R) :
    ∃ replies, Alone p (p.invoke f s) replies (p.dispatch f.env s f.ctx f.call f.spans f.prepared) := by
  unfold invoke dispatch
  cases routed : p.routing s with
  | none =>
    dsimp only
    let g : Frame R := { f with spans := f.spans ++ [f.span .route "model-router"
      (some (s!"single-backend -> {p.adapter.name}", [("model", p.chosenModel f.call)]))] }
    cases reply : p.adapter.generate (f.env.callToken 0) ⟨p.chosenModel f.call, f.prepared.messages, f.call.maxTokens⟩ with
    | error e =>
      refine ⟨[.error e], .replied ⟨p.adapter, rfl, reply.symm⟩ ?_⟩
      exact .ended (congrArg Segment.ends (finishNoted g s _ _ _))
    | ok resp =>
      refine ⟨[.ok resp], .replied ⟨p.adapter, rfl, reply.symm⟩ ?_⟩
      exact .ended (congrArg Segment.ends (completeNoted p g s _ _ _ _))
  | some wired =>
    obtain ⟨router, reg⟩ := wired
    dsimp only
    cases router.route f.env.routeAt f.ctx f.call.prompt f.prepared.assembledTokens reg RouteFilters.none with
    | error e => exact ⟨[], .ends _⟩
    | ok decision =>
      have backends := (routedBackends routed).2
      exact seekAlone { f with spans := f.spans ++ [f.span .route "model-router" (some (routeDecision decision))] } [] s backends 0 _

theorem enterAlone (p : Pipeline R) (env : Env) (s : Stores R) (ctx : SecurityContext) (c : ChatCall) :
    ∃ replies, Alone p (p.enter env s ctx c) replies (p.run env s ctx c) := by
  unfold enter
  rcases p.reachCases env s ctx c with ⟨none, _⟩ | ⟨f, some, frame⟩
  · rw [none]
    exact ⟨[], .ends _⟩
  · rw [some, frame.run]
    obtain ⟨replies, alone⟩ := p.invokeAlone f (captured s ctx f.prepared)
    rw [frame.sameCtx, frame.sameEnv, frame.sameCall] at alone
    exact ⟨replies, alone⟩

end Pipeline

def Event.opened : Event R → Option (Request R)
  | .request r => some r
  | .reply _ _ _ => none

def LoopState.idle (s : AppState R) : LoopState R := ⟨s, fun _ _ => none⟩

namespace App
variable [PyFloat R] [Builtins] (a : App R)

def Answering (s : LoopState R) : Event R → Prop
  | .request _ => True
  | .reply tenant traceId reply => ∃ w, s.waiting tenant traceId = some w ∧ a.pipeline.Answers w s.app.stores reply

-- one after the other: a request is followed by the replies to its own calls, and then by the next request
inductive InTurn : List (Request R) → List (Event R) → Prop where
  | none : InTurn [] []
  | next (r : Request R) (replies : List (Except String ChatResponse)) {rest : List (Request R)} {events : List (Event R)}
      (later : InTurn rest events) :
      InTurn (r :: rest) (.request r :: replies.map (Event.reply r.ctx.tenantId r.env.traceId) ++ events)

/-- The loop serves the requests as the application does, and is idle again. -/
structure ServedAlone (s : AppState R) (requests : List (Request R)) (events : List (Event R)) : Prop where
  inTurn : InTurn requests events
  opened : events.filterMap Event.opened = requests
  answering : a.loop.Along a.Answering (.idle s) events
  state : a.loop.exec (.idle s) events = .idle (a.machine.exec s requests)
  responses : (a.loop.replies (.idle s) events).filterMap Prod.snd = (a.machine.replies s requests).map Prod.snd

omit [PyFloat R] [Builtins] in
theorem holdAgain (s : LoopState R) (tenant traceId : String) (first second : Option (Waiting R)) (app : AppState R) :
    LoopState.hold ⟨app, s.hold tenant traceId first⟩ tenant traceId second = s.hold tenant traceId second := by
  funext t id
  simp only [LoopState.hold]
  split <;> rfl

omit [PyFloat R] [Builtins] in
theorem holdIdle (s app : AppState R) (tenant traceId : String) :
    (⟨app, (LoopState.idle s).hold tenant traceId none⟩ : LoopState R) = .idle app := by
  have none : (LoopState.idle s).hold tenant traceId none = fun _ _ => none := by
    funext t id
    simp [LoopState.hold, LoopState.idle]
  rw [none]
  rfl

omit [PyFloat R] [Builtins] in
theorem turnedAgain (s : LoopState R) (tenant traceId : String) (first : Option (Waiting R)) (stores : Stores R)
    (segment : Segment R) : LoopState.turned ⟨{ s.app with stores := stores }, s.hold tenant traceId first⟩ tenant traceId segment =
      s.turned tenant traceId segment := by
  cases segment <;> simp only [LoopState.turned, holdAgain]

omit [PyFloat R] [Builtins] in
theorem emitted (e : Event R) (response : Option (Response R)) (later : List (Event R × Option (Response R))) :
    ((e, response) :: later).filterMap Prod.snd = response.toList ++ later.filterMap Prod.snd := by
  cases response <;> rfl

theorem aloneTurned {segment : Segment R} {replies : List (Except String ChatResponse)} {out : Outcome R}
    (alone : Pipeline.Alone a.pipeline segment replies out) (s : LoopState R) (tenant traceId : String) :
    let first := s.turned tenant traceId segment
    let events := replies.map (Event.reply tenant traceId)
    a.loop.Along a.Answering first.1 events ∧ a.loop.exec first.1 events = (s.turned tenant traceId (.ends out)).1 ∧
      (first.2.toList ++ (a.loop.replies first.1 events).filterMap Prod.snd) = (s.turned tenant traceId (.ends out)).2.toList := by
  induction alone with
  | ends out => exact ⟨a.loop.alongNil _, rfl, by simp [Machine.replies]⟩
  | @replied w stores reply later out answers rest ih =>
    have held : (s.turned tenant traceId (.waits w stores)).1.waiting tenant traceId = some w := by
      simp [LoopState.turned, LoopState.hold]
    have served : a.loop.step (s.turned tenant traceId (.waits w stores)).1 (.reply tenant traceId reply) =
        s.turned tenant traceId (a.pipeline.resume w stores reply) :=
      (serveReply held reply).trans (turnedAgain s tenant traceId _ _ _)
    obtain ⟨along, state, responses⟩ := ih
    simp only [List.map_cons, Machine.exec, Machine.replies, served]
    refine ⟨a.loop.alongCons.mpr ⟨⟨w, held, answers⟩, served ▸ along⟩, state, ?_⟩
    rw [← responses, emitted]
    rfl

theorem requestAlone (s : AppState R) (r : Request R) : ∃ replies : List (Except String ChatResponse),
    a.ServedAlone s [r] (.request r :: replies.map (Event.reply r.ctx.tenantId r.env.traceId)) := by
  have opened : ∀ replies : List (Except String ChatResponse),
      (Event.request r :: replies.map (Event.reply r.ctx.tenantId r.env.traceId)).filterMap Event.opened = [r] := fun replies => by
    simp [Event.opened]
  have inTurn : ∀ replies : List (Except String ChatResponse),
      InTurn [r] (Event.request r :: replies.map (Event.reply r.ctx.tenantId r.env.traceId)) := fun replies => by
    simpa using InTurn.next r replies .none
  cases op : r.op with
  | chat call =>
    obtain ⟨replies, alone⟩ := a.pipeline.enterAlone r.env s.stores r.ctx call
    have served : a.loop.step (.idle s) (.request r) = (LoopState.idle s).turned r.ctx.tenantId r.env.traceId
        (a.pipeline.enter r.env s.stores r.ctx call) := serveChat _ op
    obtain ⟨along, state, responses⟩ := a.aloneTurned alone (.idle s) r.ctx.tenantId r.env.traceId
    refine ⟨replies, inTurn _, opened _, a.loop.alongCons.mpr ⟨trivial, served ▸ along⟩, ?_, ?_⟩
    · rw [Machine.exec, served, state]
      refine (holdIdle s _ _ _).trans ?_
      simp only [Machine.exec, machine, step, op]
      rfl
    · rw [Machine.replies, served, emitted, responses]
      simp only [Machine.replies, machine, step, op]
      rfl
  | _ =>
    have served : a.loop.step (.idle s) (.request r) = (.idle (a.step s r).1, some (a.step s r).2) :=
      serveOther (.idle s) (by simp [op])
    refine ⟨[], inTurn _, opened _, a.loop.alongCons.mpr ⟨trivial, a.loop.alongNil _⟩, ?_, ?_⟩
    · rw [List.map_nil, Machine.exec, served]
      rfl
    · rw [List.map_nil, Machine.replies, served, emitted]
      rfl

theorem servedAlone (s : AppState R) (requests : List (Request R)) : ∃ events, a.ServedAlone s requests events := by
  induction requests generalizing s with
  | nil => exact ⟨[], .none, rfl, a.loop.alongNil _, rfl, rfl⟩
  | cons r rest ih =>
    obtain ⟨replies, first⟩ := a.requestAlone s r
    obtain ⟨events, later⟩ := ih (a.step s r).1
    have between : a.loop.exec (.idle s) (.request r :: replies.map (Event.reply r.ctx.tenantId r.env.traceId)) = .idle (a.step s r).1 :=
      first.state
    refine ⟨(.request r :: replies.map (Event.reply r.ctx.tenantId r.env.traceId)) ++ events, .next r replies later.inTurn,
      ?_, ?_, ?_, ?_⟩
    · rw [List.filterMap_append, first.opened, later.opened]
      rfl
    · exact a.loop.alongAppend.mpr ⟨first.answering, between ▸ later.answering⟩
    · rw [Machine.execAppend, between, later.state]
      rfl
    · rw [Machine.repliesAppend, List.filterMap_append, first.responses, between, later.responses]
      rfl

end App

def overlapping : List (Event ℚ) :=
  [.request ⟨member "acme" "sales", envAt 0 "1", .chat (ask "colour")⟩,
   .request ⟨member "globex" "sales", envAt 1 "2", .chat (ask "colour")⟩,
   .reply "globex" "trace-2" (.ok ⟨"blue", "default", some "stop", ⟨1, 1, 2⟩⟩),
   .request ⟨member "acme" "sales", envAt 2 "3", .getTrace "trace-2"⟩,
   .reply "acme" "trace-1" (.ok ⟨"red", "default", some "stop", ⟨1, 1, 2⟩⟩)]

def repeated : Event ℚ := .request ⟨member "acme" "sales", envAt 3 "4", .chat (ask "colour")⟩

end ContextOS
