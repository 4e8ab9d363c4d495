import ContextOS.Overlap
import ContextOS.Stages

/-! Traces of overlapping chats. A trace can be read while its chat waits: it has the
stages up to the routing then, each with its decision, and the rest of them when the chat
has ended, whatever other chats did in between. -/
namespace ContextOS
open Lib (Dict Machine)

variable {R : Type} [PyFloat R] [Builtins]

def routedStages : List Stage := [.auth, .cache, .retrieve, .compress, .assemble, .route]

-- all stages in front of the call have passed
def Frame.Routed (f : Frame R) : Prop := List.Forall₂ (Passed f.env.traceId f.ctx.tenantId) routedStages f.spans

/-! ### One segment -/

-- the trace that a segment leaves: that of a waiting chat, or of one that ended
inductive Leaves (env : Env) (s : Stores R) (ctx : SecurityContext) : Segment R → Prop where
  | waits {w : Waiting R} {stores : Stores R} (sameCtx : w.frame.ctx = ctx) (sameEnv : w.frame.env = env) (routed : w.frame.Routed)
      (recorded : stores.tracer = s.tracer.record ⟨env.traceId, ctx.tenantId, w.frame.spans⟩) : Leaves env s ctx (.waits w stores)
  | ends {out : Outcome R} (traced : Pipeline.Traced env s ctx out) : Leaves env s ctx (.ends out)

omit [PyFloat R] [Builtins] in
theorem Leaves.before {env : Env} {s t : Stores R} {ctx : SecurityContext} {segment : Segment R} (leaves : Leaves env s ctx segment)
    (same : s.tracer = t.tracer) : Leaves env t ctx segment := by
  cases leaves with
  | waits sameCtx sameEnv routed recorded => exact .waits sameCtx sameEnv routed (same ▸ recorded)
  | ends traced =>
    obtain ⟨spans, recorded, told⟩ := traced
    exact .ends ⟨spans, same ▸ recorded, told⟩

omit [PyFloat R] [Builtins] in
theorem seekLeaves {f : Frame R} (routed : f.Routed) (calls : List AdapterCall) (s : Stores R) (hop : Nat) (names : List String) :
    Leaves f.env s f.ctx (f.seek calls s hop names) := by
  induction names generalizing hop with
  | nil => exact .ends (Pipeline.tracedFailure f.env s f.ctx rfl routed _ (by decide) (fun _ => rfl))
  | cons name rest ih =>
    rw [Frame.seek]
    split
    · exact ih (hop + 1)
    · split
      · exact ih (hop + 1)
      · exact .waits rfl rfl routed rfl

namespace Pipeline

theorem reachPath {p : Pipeline R} {env : Env} {s : Stores R} {ctx : SecurityContext} {c : ChatCall} {f : Frame R}
    (reached : p.reach env s ctx c = some f) :
    List.Forall₂ (Passed env.traceId ctx.tenantId) [.auth, .cache, .retrieve, .compress, .assemble] f.spans := by
  unfold reach at reached
  dsimp only at reached
  repeat' split at reached <;> try contradiction
  cases Option.some.inj reached
  exact .cons (spanPassed _ _ _ _) (.cons (spanPassed _ _ _ _) (.cons (spanPassed _ _ _ _) (.cons (spanPassed _ _ _ _)
    (.cons (spanPassed _ _ _ _) .nil))))

theorem invokeLeaves (p : Pipeline R) (f : Frame R) (s : Stores R)
    (path : List.Forall₂ (Passed f.env.traceId f.ctx.tenantId) [.auth, .cache, .retrieve, .compress, .assemble] f.spans) :
    Leaves f.env s f.ctx (p.invoke f s) := by
  unfold invoke
  split
  · split
    · rename_i failed
      have raised := routeRaises _ _ _ _ _ _ _ _ failed
      exact .ends (tracedFailure f.env s f.ctx rfl path _ (by rw [raised]; decide) (by simp))
    · rename_i decision _
      exact seekLeaves (f := { f with spans := f.spans ++ [f.span .route "model-router" (some (routeDecision decision))] })
        (passedNext f.env.spans path .route "model-router" (routeDecision decision)) [] s 0 _
  · exact .waits rfl rfl (passedNext f.env.spans path .route "model-router" _) rfl

theorem enterLeaves (p : Pipeline R) (env : Env) (s : Stores R) (ctx : SecurityContext) (c : ChatCall) :
    Leaves env s ctx (p.enter env s ctx c) := by
  unfold enter
  cases reached : p.reach env s ctx c with
  | none => exact .ends (p.runTraced env s ctx c)
  | some f =>
    obtain ⟨rfl, rfl, -⟩ := reachFrame reached
    have leaves := p.invokeLeaves f (captured s f.ctx f.prepared) (reachPath reached)
    exact leaves.before (by simp)

theorem resumeLeaves (p : Pipeline R) {w : Waiting R} (routed : w.frame.Routed) (s : Stores R) (reply : Except String ChatResponse) :
    Leaves w.frame.env s w.frame.ctx (p.resume w s reply) := by
  unfold resume
  cases w.chain with
  | none =>
    cases reply with
    | ok resp => exact .ends (p.completeTraced _ s _ _ routed _ _ _ _ (by simp))
    | error e => exact .ends (tracedFailure _ s _ rfl routed _ (by simp [Stage.raises]) (fun _ => rfl))
  | some rest =>
    cases reply with
    | ok resp =>
      have traced := p.completeTraced w.frame.env { s with backends := s.backends.map (·.tell w.used CircuitBreaker.recordSuccess) }
        w.frame.ctx w.frame.call routed w.frame.prepared w.used w.request.model resp
        (by simp : w.calls ++ [⟨w.request, .ok resp⟩] ≠ [])
      exact (Leaves.ends traced).before rfl
    | error e => exact (seekLeaves routed _ _ _ rest).before rfl

end Pipeline

/-! ### Every event -/

section Loop
variable (a : App R)

-- the event ended the chat of the trace, and this is what the trace tells
structure EndedBy (trace : Trace) (served : Event R × Option (Response R)) : Prop where
  chat : served.1.chat = some (trace.tenantId, trace.traceId)
  told : ∃ response, served.2 = some response ∧ Told trace.traceId trace.tenantId trace.spans response.result response.calls

-- a stored trace is that of a chat in flight, up to its call, or that of a chat that has ended,
-- to its end
inductive Telling (past : List (Event R × Option (Response R))) (s : LoopState R) (trace : Trace) : Prop where
  | waiting {w : Waiting R} (held : s.waiting trace.tenantId trace.traceId = some w) (spans : trace.spans = w.frame.spans)
      (path : List.Forall₂ (Passed trace.traceId trace.tenantId) routedStages trace.spans) : Telling past s trace
  | ended {served : Event R × Option (Response R)} (member : served ∈ past) (ended : EndedBy trace served) : Telling past s trace

structure Tells (past : List (Event R × Option (Response R))) (s : LoopState R) : Prop where
  stored : ∀ id trace, Dict.get s.app.stores.tracer id = some trace → trace.traceId = id ∧ Telling past s trace
  waiting : ∀ tenant id w, s.waiting tenant id = some w →
    w.frame.ctx.tenantId = tenant ∧ w.frame.env.traceId = id ∧ w.frame.Routed

omit [PyFloat R] [Builtins] in
theorem Telling.kept {past : List (Event R × Option (Response R))} {s t : LoopState R} {trace : Trace} (telling : Telling past s trace)
    (same : t.waiting trace.tenantId trace.traceId = s.waiting trace.tenantId trace.traceId) (next : Event R × Option (Response R)) :
    Telling (past ++ [next]) t trace := by
  cases telling with
  | waiting held spans path => exact .waiting (same.trans held) spans path
  | ended member ended => exact .ended (List.mem_append_left _ member) ended

omit [PyFloat R] [Builtins] in
theorem turnedTells {past : List (Event R × Option (Response R))} {s : LoopState R} (tells : Tells past s) {env : Env}
    {ctx : SecurityContext} {segment : Segment R} (leaves : Leaves env s.app.stores ctx segment) {e : Event R}
    (about : e.chat = some (ctx.tenantId, env.traceId)) :
    Tells (past ++ [(e, (s.turned ctx.tenantId env.traceId segment).2)]) (s.turned ctx.tenantId env.traceId segment).1 := by
  -- the traces of the other chats, and the chats that wait, are the same
  have others : ∀ id trace, Dict.get s.app.stores.tracer id = some trace → id ≠ env.traceId →
      trace.traceId = id ∧ Telling (past ++ [(e, (s.turned ctx.tenantId env.traceId segment).2)])
        (s.turned ctx.tenantId env.traceId segment).1 trace := by
    intro id trace there different
    obtain ⟨same, telling⟩ := tells.stored id trace there
    refine ⟨same, telling.kept ?_ _⟩
    cases segment <;> simp [LoopState.turned, LoopState.hold, same, different]
  refine ⟨fun id trace there => ?_, fun tenant id w waits => ?_⟩
  · rw [LoopState.turnedStores] at there
    cases leaves with
    | @waits w stores sameCtx sameEnv routed recorded =>
      rw [Segment.stores, recorded, Tracer.record, Dict.getSet] at there
      split at there
      · rename_i here
        cases Option.some.inj there
        refine ⟨here.symm, .waiting (w := w) (by simp [LoopState.turned, LoopState.hold]) rfl ?_⟩
        rw [Frame.Routed, sameCtx, sameEnv] at routed
        exact routed
      · rename_i different
        exact others id trace there different
    | @ends out traced =>
      obtain ⟨spans, recorded, told⟩ := traced
      rw [Segment.stores, recorded, Tracer.record, Dict.getSet] at there
      split at there
      · rename_i here
        cases Option.some.inj there
        exact ⟨here.symm, .ended (List.mem_append_right _ List.mem_cons_self) ⟨about, _, rfl, told.map Reply.chat⟩⟩
      · rename_i different
        exact others id trace there different
  · rcases LoopState.turnedWaits waits with ⟨⟨rfl, rfl⟩, stores, rfl⟩ | ⟨_, old⟩
    · cases leaves with
      | waits sameCtx sameEnv routed recorded => exact ⟨by rw [sameCtx], by rw [sameEnv], routed⟩
    · exact tells.waiting tenant id w old

omit [PyFloat R] [Builtins] in
theorem Tells.quiet {past : List (Event R × Option (Response R))} {s t : LoopState R} (tells : Tells past s)
    (tracer : t.app.stores.tracer = s.app.stores.tracer) (waiting : t.waiting = s.waiting) (next : Event R × Option (Response R)) :
    Tells (past ++ [next]) t := by
  refine ⟨fun id trace there => ?_, fun tenant id w waits => tells.waiting tenant id w (waiting ▸ waits)⟩
  obtain ⟨same, telling⟩ := tells.stored id trace (tracer ▸ there)
  exact ⟨same, telling.kept (by rw [waiting]) next⟩

theorem serveTells {past : List (Event R × Option (Response R))} {s : LoopState R} (tells : Tells past s) (e : Event R) :
    Tells (past ++ [(e, (a.serve s e).2)]) (a.serve s e).1 := by
  cases e with
  | request r =>
    by_cases chat : ∃ call, r.op = .chat call
    · obtain ⟨call, op⟩ := chat
      rw [App.serveChat s op]
      exact turnedTells tells (a.pipeline.enterLeaves r.env s.app.stores r.ctx call) (by simp [Event.chat, Request.opened, op])
    · have other := not_exists.mp chat
      refine tells.quiet ?_ (by rw [App.serveOther s other]) _
      rw [App.serveOther s other]
      obtain ⟨_, _, stores, _⟩ := a.otherStores s.app other
      rw [stores]
  | reply tenant traceId reply =>
    cases held : s.waiting tenant traceId with
    | none =>
      rw [App.serveLost held]
      exact tells.quiet rfl rfl _
    | some w =>
      obtain ⟨rfl, rfl, routed⟩ := tells.waiting tenant traceId w held
      rw [App.serveReply held]
      exact turnedTells tells (a.pipeline.resumeLeaves routed s.app.stores reply) rfl

/-- Whatever overlaps, a trace that can be looked up is that of a chat of the tenant, and tells how far it is or how it ended. -/
theorem overlapTells (events : List (Event R)) {ctx : SecurityContext} {id : String} {trace : Trace}
    (there : (a.loop.exec .initial events).app.stores.tracer.get ctx id = some trace) :
    trace.traceId = id ∧ trace.tenantId = ctx.tenantId ∧
      Telling (a.loop.replies .initial events) (a.loop.exec .initial events) trace := by
  have run := a.loop.historyInvariant (P := Tells) (s := .initial)
    ⟨fun id trace there => by simp [LoopState.initial, AppState.initial] at there, fun _ _ _ waits => by
      simp [LoopState.initial] at waits⟩ (fun past s e tells => serveTells a tells e) events
  unfold Tracer.get at there
  cases found : Dict.get (a.loop.exec .initial events).app.stores.tracer id with
  | none => simp [found] at there
  | some stored =>
    simp only [found] at there
    split at there <;> try contradiction
    rename_i owner
    cases Option.some.inj there
    obtain ⟨same, telling⟩ := run.stored id _ found
    exact ⟨same, not_not.mp owner, telling⟩

end Loop

omit [Builtins] in
/-- A trace that is read while its chat waits. -/
theorem overlapTellsSample :
    letI := asciiBuiltins [] []
    ∃ trace, (sampleApp.loop.exec .initial (overlapping.take 4)).app.stores.tracer.get (member "acme" "sales") "trace-1" = some trace ∧
      trace.traceId = "trace-1" ∧ trace.tenantId = "acme" ∧
      Telling (sampleApp.loop.replies .initial (overlapping.take 4)) (sampleApp.loop.exec .initial (overlapping.take 4)) trace := by
  let _ := asciiBuiltins [] []
  have kept : ((sampleApp.loop.exec .initial (overlapping.take 4)).app.stores.tracer.get (member "acme" "sales") "trace-1").isSome := by
    decide +kernel
  obtain ⟨trace, there⟩ := Option.isSome_iff_exists.mp kept
  exact ⟨trace, there, overlapTells sampleApp (overlapping.take 4) there⟩

end ContextOS
