import ContextOS.Isolation
import ContextOS.Overlap

/-! Tenant isolation on the event loop. However the chats of the tenants overlap, and
whatever the backends reply to the others, a tenant sees what it would see alone: the
coroutine of a chat carries its own context, and its second half reads and writes under
that context only. -/
namespace ContextOS
open Lib (Dict Parts Machine)

variable {R : Type} [PyFloat R] [Builtins]

inductive SegmentsAgree (tenant : String) : Segment R → Segment R → Prop where
  | waits {s t : Stores R} (w : Waiting R) (stores : StoresAgree tenant s t) : SegmentsAgree tenant (.waits w s) (.waits w t)
  | ends {a b : Outcome R} (outcomes : OutcomesAgree tenant a b) : SegmentsAgree tenant (.ends a) (.ends b)

section Own
variable {s t : Stores R}

theorem reachAgree {ctx : SecurityContext} (agree : StoresAgree ctx.tenantId s t) (p : Pipeline R) (env : Env) (c : ChatCall) :
    p.reach env s ctx c = p.reach env t ctx c := by
  have found : p.retrieve env s ctx c = p.retrieve env t ctx c := by
    unfold Pipeline.retrieve
    split
    · rfl
    · exact retrieveAgree agree _ _ _ _
  simp only [Pipeline.reach, lookupAgree agree, found]

omit [PyFloat R] [Builtins] in
theorem notedAgree {ctx : SecurityContext} (agree : StoresAgree ctx.tenantId s t) (f : Frame R) (own : f.ctx = ctx) :
    StoresAgree ctx.tenantId (f.noted s) (f.noted t) := by
  subst own
  exact (finishAgree agree f.env f.spans (.error ⟨.adapterError, ""⟩) []).stores

theorem enterAgree {ctx : SecurityContext} (agree : StoresAgree ctx.tenantId s t) {p : Pipeline R} (single : p.router = none)
    (env : Env) (c : ChatCall) : SegmentsAgree ctx.tenantId (p.enter env s ctx c) (p.enter env t ctx c) := by
  unfold Pipeline.enter
  rw [reachAgree agree p env c]
  cases reached : p.reach env t ctx c with
  | none => exact .ends (runAgree agree p env c single)
  | some f =>
    have own := (Pipeline.reachFrame reached).sameCtx
    subst own
    have unrouted : ∀ u : Stores R, p.routing u = none := fun u => by simp only [Pipeline.routing, single]
    simp only [Pipeline.invoke, unrouted]
    exact .waits _ (notedAgree (capturedAgree agree f.prepared) _ rfl)

theorem resumeAgree {w : Waiting R} (agree : StoresAgree w.frame.ctx.tenantId s t) (p : Pipeline R) (unchained : w.chain = none)
    (reply : Except String ChatResponse) : SegmentsAgree w.frame.ctx.tenantId (p.resume w s reply) (p.resume w t reply) := by
  simp only [Pipeline.resume, unchained]
  cases reply with
  | ok resp => exact .ends (completeAgree agree p _ _ _ _ _ _ _ _)
  | error e => exact .ends (finishAgree agree _ _ _ _)

end Own

/-! ### One segment of another tenant -/

section Foreign
variable {tenant : String}

omit [PyFloat R] [Builtins] in
theorem finishClear {ctx : SecurityContext} (foreign : tenant ≠ ctx.tenantId) {env : Env} {s : Stores R}
    (clear : s.tracer.owned tenant env.traceId = none) (spans : List TraceSpan) (result : Except PyError ChatResult)
    (calls : List AdapterCall) : StoresAgree tenant s (Pipeline.finish env ctx s spans result calls).stores := by
  refine ⟨rfl, rfl, rfl, ?_, rfl⟩
  funext id
  by_cases same : id = env.traceId
  · subst same
    rw [clear]
    simp [Tracer.owned, Tracer.record, Pipeline.finish, Option.filter, foreign.symm]
  · simp [Tracer.owned, Tracer.record, Pipeline.finish, Dict.getSetOther _ same]

omit [PyFloat R] [Builtins] in
theorem soughtForeign {f : Frame R} {calls : List AdapterCall} {s : Stores R} {segment : Segment R}
    (sought : Sought f calls s segment) (foreign : tenant ≠ f.ctx.tenantId)
    (clear : s.tracer.owned tenant f.env.traceId = none) : StoresAgree tenant s segment.stores := by
  cases sought with
  | exhausted spans e => exact finishClear foreign clear _ _ _
  | waits => exact finishClear foreign clear f.spans (.error ⟨.adapterError, ""⟩) []

theorem enterForeign (p : Pipeline R) {ctx : SecurityContext} (foreign : tenant ≠ ctx.tenantId) {env : Env} {s : Stores R}
    (clear : s.tracer.owned tenant env.traceId = none) (c : ChatCall) : StoresAgree tenant s (p.enter env s ctx c).stores := by
  have entered := p.enterEntered env s ctx c
  generalize p.enter env s ctx c = segment at entered
  cases entered with
  | unreached unreached =>
    cases unreached with
    | refused => exact finishClear foreign clear _ _ _
    | hit => exact finishClear foreign clear _ _ _
  | invoked frame spans sought =>
    obtain ⟨rfl, rfl, -⟩ := frame
    exact (capturedForeign foreign s _).trans (soughtForeign sought foreign (by simpa using clear))

theorem resumeForeign (p : Pipeline R) {w : Waiting R} (foreign : tenant ≠ w.frame.ctx.tenantId) {s : Stores R}
    (clear : s.tracer.owned tenant w.frame.env.traceId = none) (reply : Except String ChatResponse) :
    StoresAgree tenant s (p.resume w s reply).stores := by
  have resumed := p.resumeResumed w s reply
  generalize p.resume w s reply = segment at resumed
  have registry : ∀ backends, StoresAgree tenant s { s with backends := backends } := fun _ => ⟨rfl, rfl, rfl, rfl, rfl⟩
  cases resumed with
  | completed resp backends =>
    have written := (registry backends).trans (writebackForeign foreign p w.frame.env _ w.frame.call w.request.model
      w.frame.prepared.injected resp)
    exact written.trans (finishClear foreign (by simpa using clear) _ _ _)
  | failed e backends sought => exact (registry backends).trans (soughtForeign sought foreign clear)

end Foreign

/-! ### What waits -/

/-- The traces that the requests to come will open are new, each of them. -/
structure FreshLoop (rest : List (Event R)) (s : LoopState R) : Prop where
  distinct : (openedTraces (rest.filterMap Event.opened)).Nodup
  unused : ∀ id ∈ openedTraces (rest.filterMap Event.opened), Dict.get s.app.stores.tracer id = none

structure HeldBy (s : LoopState R) (tenant traceId : String) (w : Waiting R) : Prop where
  owner : w.frame.ctx.tenantId = tenant
  trace : w.frame.env.traceId = traceId
  unchained : w.chain = none
  traced : ∃ trace, Dict.get s.app.stores.tracer traceId = some trace ∧ trace.tenantId = tenant

-- every waiting chat is filed under its own tenant and has its trace there
def Held (s : LoopState R) : Prop := ∀ tenant traceId w, s.waiting tenant traceId = some w → HeldBy s tenant traceId w

-- what a segment of a chat leaves to be held
structure Kept (s : LoopState R) (tenant traceId : String) (segment : Segment R) : Prop where
  tracer : ∃ spans, segment.stores.tracer = s.app.stores.tracer.record ⟨traceId, tenant, spans⟩
  waits : ∀ w stores, segment = .waits w stores → w.frame.ctx.tenantId = tenant ∧ w.frame.env.traceId = traceId ∧ w.chain = none

omit [PyFloat R] [Builtins] in
theorem turnedHeld {s : LoopState R} {tenant traceId : String} {segment : Segment R} (held : Held s)
    (kept : Kept s tenant traceId segment)
    (owner : ∀ trace, Dict.get s.app.stores.tracer traceId = some trace → trace.tenantId = tenant) :
    Held (s.turned tenant traceId segment).1 := by
  obtain ⟨spans, recorded⟩ := kept.tracer
  intro t id w there
  rcases LoopState.turnedWaits there with ⟨⟨rfl, rfl⟩, stores, waits⟩ | ⟨other, old⟩
  · obtain ⟨own, same, unchained⟩ := kept.waits _ _ waits
    refine ⟨own, same, unchained, ⟨id, t, spans⟩, ?_, rfl⟩
    rw [LoopState.turnedStores, recorded, Tracer.record, Dict.getSetSelf]
  · -- another chat keeps its trace, which is not this one
    obtain ⟨own, same, unchained, trace, found, opened⟩ := held t id w old
    have different : id ≠ traceId := by
      rintro rfl
      exact other ⟨opened ▸ owner trace found, rfl⟩
    refine ⟨own, same, unchained, trace, ?_, opened⟩
    rw [LoopState.turnedStores, recorded, Tracer.record, Dict.getSetOther _ different]
    exact found

omit [PyFloat R] [Builtins] in
theorem soughtTracer {f : Frame R} {calls : List AdapterCall} {s : Stores R} {segment : Segment R}
    (sought : Sought f calls s segment) :
    ∃ spans, segment.stores.tracer = s.tracer.record ⟨f.env.traceId, f.ctx.tenantId, spans⟩ := by
  cases sought with
  | exhausted spans => exact ⟨spans, rfl⟩
  | waits => exact ⟨f.spans, rfl⟩

theorem Pipeline.enterTracer (p : Pipeline R) (env : Env) (s : Stores R) (ctx : SecurityContext) (c : ChatCall) :
    ∃ spans, (p.enter env s ctx c).stores.tracer = s.tracer.record ⟨env.traceId, ctx.tenantId, spans⟩ := by
  have entered := p.enterEntered env s ctx c
  generalize p.enter env s ctx c = segment at entered
  cases entered with
  | unreached unreached =>
    cases unreached with
    | refused spans => exact ⟨spans, rfl⟩
    | hit _ spans => exact ⟨spans, rfl⟩
  | invoked frame spans sought =>
    obtain ⟨rfl, rfl, -⟩ := frame
    obtain ⟨spans, recorded⟩ := soughtTracer sought
    exact ⟨spans, recorded.trans (by simp)⟩

theorem Pipeline.resumeTracer (p : Pipeline R) (w : Waiting R) (s : Stores R) (reply : Except String ChatResponse) :
    ∃ spans, (p.resume w s reply).stores.tracer = s.tracer.record ⟨w.frame.env.traceId, w.frame.ctx.tenantId, spans⟩ := by
  have resumed := p.resumeResumed w s reply
  generalize p.resume w s reply = segment at resumed
  cases resumed with
  | completed resp backends => exact ⟨_, congrArg (fun t : Tracer => t.record _) (Pipeline.writebackTracer _ _ _ _ _ _ _ _)⟩
  | failed e backends sought =>
    obtain ⟨spans, recorded⟩ := soughtTracer sought
    exact ⟨spans, recorded⟩

theorem enterKept {p : Pipeline R} (single : p.router = none) (s : LoopState R) (env : Env) (ctx : SecurityContext) (c : ChatCall) :
    Kept s ctx.tenantId env.traceId (p.enter env s.app.stores ctx c) := by
  refine ⟨p.enterTracer env s.app.stores ctx c, fun w stores waits => ?_⟩
  unfold Pipeline.enter at waits
  cases reached : p.reach env s.app.stores ctx c with
  | none => simp [reached] at waits
  | some f =>
    obtain ⟨rfl, rfl, -⟩ := Pipeline.reachFrame reached
    have unrouted : ∀ u : Stores R, p.routing u = none := fun u => by simp only [Pipeline.routing, single]
    simp only [reached, Pipeline.invoke, unrouted, Segment.waits.injEq] at waits
    obtain ⟨rfl, _⟩ := waits
    exact ⟨rfl, rfl, rfl⟩

theorem resumeKept (p : Pipeline R) (s : LoopState R) {w : Waiting R} (unchained : w.chain = none) (reply : Except String ChatResponse) :
    Kept s w.frame.ctx.tenantId w.frame.env.traceId (p.resume w s.app.stores reply) := by
  refine ⟨p.resumeTracer w s.app.stores reply, fun v stores waits => ?_⟩
  simp only [Pipeline.resume, unchained] at waits
  cases reply <;> simp at waits

/-! ### One event -/

structure LoopsAgree (tenant : String) (s t : LoopState R) : Prop where
  app : StatesAgree tenant s.app t.app
  waiting : s.waiting tenant = t.waiting tenant

structure ServesAgree (tenant : String) (x y : LoopState R × Option (Response R)) : Prop where
  state : LoopsAgree tenant x.1 y.1
  response : x.2 = y.2

omit [PyFloat R] [Builtins] in
theorem turnedAgree {tenant : String} {s t : LoopState R} {x y : Segment R} (agree : LoopsAgree tenant s t)
    (segments : SegmentsAgree tenant x y) (traceId : String) :
    ServesAgree tenant (s.turned tenant traceId x) (t.turned tenant traceId y) := by
  have held : ∀ w, s.hold tenant traceId w tenant = t.hold tenant traceId w tenant := fun w => by
    funext id
    simp only [LoopState.hold, agree.waiting]
  cases segments with
  | waits w stores => exact ⟨⟨⟨stores, agree.app.versions⟩, held _⟩, rfl⟩
  | ends outcomes => exact ⟨⟨⟨outcomes.stores, agree.app.versions⟩, held _⟩, by
      simp only [LoopState.turned, outcomes.result, outcomes.calls]⟩

section Serving
variable (a : App R)

theorem ownEvent (single : a.pipeline.router = none) {s t : LoopState R} {e : Event R} (held : Held s)
    (agree : LoopsAgree (eventTenant e) s t) : ServesAgree (eventTenant e) (a.serve s e) (a.serve t e) := by
  cases e with
  | request r =>
    by_cases chat : ∃ call, r.op = .chat call
    · obtain ⟨call, op⟩ := chat
      rw [App.serveChat s op, App.serveChat t op]
      exact turnedAgree agree (enterAgree agree.app.stores single r.env call) _
    · have other := not_exists.mp chat
      obtain ⟨state, response⟩ := ownStep a single agree.app
      rw [App.serveOther s other, App.serveOther t other]
      exact ⟨⟨state, agree.waiting⟩, congrArg some response⟩
  | reply tenant traceId reply =>
    have same : t.waiting tenant traceId = s.waiting tenant traceId := (congrFun agree.waiting traceId).symm
    cases waits : s.waiting tenant traceId with
    | none =>
      rw [App.serveLost waits, App.serveLost (same.trans waits)]
      exact ⟨agree, rfl⟩
    | some w =>
      obtain ⟨rfl, _, unchained, _⟩ := held tenant traceId w waits
      rw [App.serveReply waits, App.serveReply (same.trans waits)]
      exact turnedAgree agree (resumeAgree agree.app.stores a.pipeline unchained reply) _

omit [PyFloat R] [Builtins] in
theorem turnedForeign {tenant owner : String} (foreign : tenant ≠ owner) {s : LoopState R} {segment : Segment R}
    (stores : StoresAgree tenant s.app.stores segment.stores) (traceId : String) :
    LoopsAgree tenant s (s.turned owner traceId segment).1 := by
  have held : ∀ w, s.waiting tenant = s.hold owner traceId w tenant := fun w => by
    funext id
    simp [LoopState.hold, foreign]
  cases segment with
  | waits w t => exact ⟨⟨stores, .refl _ _⟩, held _⟩
  | ends out => exact ⟨⟨stores, .refl _ _⟩, held _⟩

theorem foreignEvent {s : LoopState R} {e : Event R} {rest : List (Event R)} (held : Held s) (fresh : FreshLoop (e :: rest) s)
    {tenant : String} (foreign : tenant ≠ eventTenant e) : LoopsAgree tenant s (a.serve s e).1 := by
  cases e with
  | request r =>
    have unused : ∀ id, r.opened = some id → Dict.get s.app.stores.tracer id = none := fun id opened =>
      fresh.unused id (by simp [openedTraces, Event.opened, opened])
    by_cases chat : ∃ call, r.op = .chat call
    · obtain ⟨call, op⟩ := chat
      have new := unused r.env.traceId (by simp only [Request.opened, op])
      rw [App.serveChat s op]
      exact turnedForeign foreign (enterForeign a.pipeline foreign (by simp [Tracer.owned, new]) call) _
    · rw [App.serveOther s (not_exists.mp chat)]
      exact ⟨foreignStep a foreign unused, rfl⟩
  | reply owner traceId reply =>
    cases waits : s.waiting owner traceId with
    | none =>
      rw [App.serveLost waits]
      exact ⟨⟨.refl _ _, .refl _ _⟩, rfl⟩
    | some w =>
      obtain ⟨rfl, rfl, _, trace, there, owned⟩ := held owner traceId w waits
      rw [App.serveReply waits]
      refine turnedForeign foreign (resumeForeign a.pipeline foreign ?_ reply) _
      have other : w.frame.ctx.tenantId ≠ tenant := Ne.symm foreign
      simp [Tracer.owned, there, Option.filter, owned, other]

theorem serveHeld (single : a.pipeline.router = none) {s : LoopState R} {e : Event R} {rest : List (Event R)} (held : Held s)
    (fresh : FreshLoop (e :: rest) s) : Held (a.serve s e).1 := by
  cases e with
  | request r =>
    by_cases chat : ∃ call, r.op = .chat call
    · obtain ⟨call, op⟩ := chat
      have new := fresh.unused r.env.traceId (by simp [openedTraces, Event.opened, Request.opened, op])
      rw [App.serveChat s op]
      exact turnedHeld held (enterKept single s r.env r.ctx call) (by simp [new])
    · have other := not_exists.mp chat
      rw [App.serveOther s other]
      intro tenant traceId w waits
      obtain ⟨own, same, unchained, traced⟩ := held tenant traceId w waits
      refine ⟨own, same, unchained, ?_⟩
      obtain ⟨_, _, stores, _⟩ := a.otherStores s.app other
      rwa [stores]
  | reply tenant traceId reply =>
    cases waits : s.waiting tenant traceId with
    | none =>
      rw [App.serveLost waits]
      exact held
    | some w =>
      obtain ⟨rfl, rfl, unchained, trace, there, owned⟩ := held tenant traceId w waits
      rw [App.serveReply waits]
      refine turnedHeld held (resumeKept a.pipeline s unchained reply) fun found same => ?_
      cases Option.some.inj (there.symm.trans same)
      exact owned

theorem serveFresh {s : LoopState R} {e : Event R} {rest : List (Event R)} (held : Held s) (fresh : FreshLoop (e :: rest) s) :
    FreshLoop rest (a.serve s e).1 := by
  obtain ⟨distinct, unused⟩ := fresh
  cases e with
  | request r =>
    by_cases chat : ∃ call, r.op = .chat call
    · obtain ⟨call, op⟩ := chat
      simp only [openedTraces, List.filterMap_cons, Event.opened, Request.opened, op] at distinct unused
      obtain ⟨new, distinct⟩ := List.nodup_cons.mp distinct
      refine ⟨distinct, fun id later => ?_⟩
      have different : id ≠ r.env.traceId := fun same => new (same ▸ later)
      obtain ⟨spans, recorded⟩ := a.pipeline.enterTracer r.env s.app.stores r.ctx call
      rw [App.serveChat s op, LoopState.turnedStores, recorded, Tracer.record, Dict.getSetOther _ different]
      exact unused id (List.mem_cons_of_mem _ later)
    · have other := not_exists.mp chat
      simp only [openedTraces, List.filterMap_cons, Event.opened, openedOther other] at distinct unused
      obtain ⟨_, _, stores, _⟩ := a.otherStores s.app other
      rw [App.serveOther s other]
      exact ⟨distinct, fun id later => by rw [stores]; exact unused id later⟩
  | reply tenant traceId reply =>
    simp only [openedTraces, List.filterMap_cons, Event.opened] at distinct unused
    cases waits : s.waiting tenant traceId with
    | none =>
      rw [App.serveLost waits]
      exact ⟨distinct, unused⟩
    | some w =>
      obtain ⟨_, rfl, _, trace, there, _⟩ := held tenant traceId w waits
      refine ⟨distinct, fun id later => ?_⟩
      have different : id ≠ w.frame.env.traceId := by
        rintro rfl
        simp [unused _ later] at there
      obtain ⟨spans, recorded⟩ := a.pipeline.resumeTracer w s.app.stores reply
      rw [App.serveReply waits, LoopState.turnedStores, recorded, Tracer.record, Dict.getSetOther _ different]
      exact unused id later

end Serving

structure LoopsRelate (tenant : String) (rest : List (Event R)) (s t : LoopState R) : Prop where
  agree : LoopsAgree tenant s t
  fresh : FreshLoop rest s
  held : Held s

theorem overlapIsolated (a : App R) (single : a.pipeline.router = none) (tenant : String) {events : List (Event R)}
    {s t : LoopState R} (related : LoopsRelate tenant events s t) :
    a.loop.observed eventTenant tenant s events = a.loop.replies t (Machine.purge eventTenant tenant events) := by
  refine Machine.unwinding a.loop eventTenant tenant (Q := LoopsRelate tenant) ?_ ?_ related
  · intro e rest s t own given
    subst own
    obtain ⟨state, response⟩ := ownEvent a single given.held given.agree
    exact ⟨response, state, serveFresh a given.held given.fresh, serveHeld a single given.held given.fresh⟩
  · intro e rest s t other given
    have foreign := foreignEvent a given.held given.fresh (Ne.symm other)
    exact ⟨⟨⟨foreign.app.stores.symm.trans given.agree.app.stores, foreign.app.versions.symm.trans given.agree.app.versions⟩,
      foreign.waiting.symm.trans given.agree.waiting⟩, serveFresh a given.held given.fresh, serveHeld a single given.held given.fresh⟩

/-- Whatever the other tenants send, and however their chats and the backends' replies fall in between. -/
theorem overlapNoninterference (settings : ContextOSSettings) (adapter : Adapter) (digest : BundlePayload R → String)
    (tenant : String) (events : List (Event R)) (fresh : (openedTraces (events.filterMap Event.opened)).Nodup) :
    (createApp settings adapter digest).loop.observed eventTenant tenant .initial events =
      (createApp settings adapter digest).loop.replies .initial (Machine.purge eventTenant tenant events) :=
  overlapIsolated _ rfl tenant ⟨⟨⟨.refl _ _, .refl _ _⟩, rfl⟩, ⟨fresh, fun _ _ => rfl⟩, fun _ _ _ waits => by
    simp [LoopState.initial] at waits⟩

omit [Builtins] in
theorem overlapNoninterferenceSample :
    letI := asciiBuiltins colourDigests []
    (openedTraces (overlapping.filterMap Event.opened)).Nodup ∧
      (createApp sampleSettings (replying "red" (some "stop")) (fun _ => "cid")).loop.observed eventTenant "acme" .initial overlapping =
        (createApp sampleSettings (replying "red" (some "stop")) (fun _ => "cid")).loop.replies .initial
          (Machine.purge eventTenant "acme" overlapping) :=
  letI := asciiBuiltins colourDigests []
  ⟨by decide, overlapNoninterference sampleSettings (replying "red" (some "stop")) (fun _ => "cid") "acme" overlapping (by decide)⟩

end ContextOS
