import ContextOS.Effects
import ContextOS.Executable
import Mathlib.Data.List.Forall2

/-! What a trace tells. Its spans are the stages in the order of the pipeline, each with
its decision, up to the stage that failed, which has none: from the stored spans alone one
reads how the run ended, with which kinds of errors, and whether a backend was called. -/
namespace ContextOS
open Lib (Dict Machine Raises raisesOk raisesError raisesBind raisesMapM raisesFoldlM)

variable {R : Type}

def servedStages : List Stage := [.auth, .cache, .writeback]

def generatedStages : List Stage := [.auth, .cache, .retrieve, .compress, .assemble, .route, .backendInvoke, .writeback]

-- what a stage may raise; the other stages raise nothing
def Stage.raises : Stage → List ErrorKind
  | .auth => [.accessDenied]
  | .retrieve => [.valueError]
  | .assemble => [.policyError, .contextOverflow, .valueError]
  | .route => [.noEligibleBackend]
  | .backendInvoke => [.adapterError, .backendUnavailable]
  | _ => []

structure Owned (traceId tenantId : String) (stage : Stage) (span : TraceSpan) : Prop where
  trace : span.traceId = traceId
  tenant : span.tenantId = tenantId
  stage : span.stage = stage.value

structure Passed (traceId tenantId : String) (stage : Stage) (span : TraceSpan) : Prop extends
    Owned traceId tenantId stage span where
  decision : ∃ d, span.decision = some d ∧ d.stage = span.stage

structure Broken (traceId tenantId : String) (stage : Stage) (span : TraceSpan) : Prop extends
    Owned traceId tenantId stage span where
  undecided : span.decision = none

inductive Told (traceId tenantId : String) {α : Type} : List TraceSpan → Except PyError α → List AdapterCall → Prop where
  | served {spans : List TraceSpan} (path : List.Forall₂ (Passed traceId tenantId) servedStages spans) (result : α) :
      Told traceId tenantId spans (.ok result) []
  | generated {spans : List TraceSpan} (path : List.Forall₂ (Passed traceId tenantId) generatedStages spans) (result : α)
      {calls : List AdapterCall} (called : calls ≠ []) : Told traceId tenantId spans (.ok result) calls
  | failed {before after : List Stage} {stage : Stage} {front : List TraceSpan} {last : TraceSpan}
      (order : generatedStages = before ++ stage :: after)
      (path : List.Forall₂ (Passed traceId tenantId) before front) (broken : Broken traceId tenantId stage last) (e : PyError)
      (raised : e.kind ∈ stage.raises) {calls : List AdapterCall} (called : calls ≠ [] → stage = .backendInvoke) :
      Told traceId tenantId (front ++ [last]) (.error e) calls

theorem Told.map {traceId tenantId : String} {α β : Type} {spans : List TraceSpan} {result : Except PyError α}
    {calls : List AdapterCall} (told : Told traceId tenantId spans result calls) (f : α → β) :
    Told traceId tenantId spans (result.map f) calls := by
  cases told with
  | served path result => exact .served path (f result)
  | generated path result called => exact .generated path (f result) called
  | failed order path broken e raised called => exact .failed order path broken e raised called

section Spans
variable (clock : SpanClock) {traceId tenantId : String}

theorem spanPassed (stage : Stage) (name : String) (decision : String × List (String × String)) :
    Passed traceId tenantId stage (clock.span traceId tenantId stage name (some decision)) :=
  ⟨⟨rfl, rfl, rfl⟩, _, rfl, rfl⟩

theorem spanBroken (stage : Stage) (name : String) :
    Broken traceId tenantId stage (clock.span traceId tenantId stage name none) :=
  ⟨⟨rfl, rfl, rfl⟩, rfl⟩

theorem passedNext {stages : List Stage} {spans : List TraceSpan} (path : List.Forall₂ (Passed traceId tenantId) stages spans)
    (stage : Stage) (name : String) (decision : String × List (String × String)) :
    List.Forall₂ (Passed traceId tenantId) (stages ++ [stage])
      (spans ++ [clock.span traceId tenantId stage name (some decision)]) :=
  List.rel_append path (.cons (spanPassed clock stage name decision) .nil)

end Spans

/-! ### What the stages raise -/

section Raised
variable [PyFloat R]

theorem checkRaises (engine : PolicyEngine) (ctx : SecurityContext) (resource : Dict String String) (action : Action) :
    Raises (fun e => e.kind = .accessDenied) (engine.check ctx resource action) := by
  unfold PolicyEngine.check
  dsimp only
  split
  · exact raisesError rfl
  · exact raisesOk ()

theorem cosineRaises (a b : List R) : Raises (fun e => e.kind = .valueError) (cosine a b) := by
  unfold cosine
  split
  · exact raisesError rfl
  split
  · exact raisesError rfl
  split <;> exact raisesOk _

namespace MemoryEngine
variable (rrfNorm : Dict String R) (vecs : String → List R)

theorem bestRaises (selected pool : List (MemoryCandidate R)) (pos : Nat) (bestVal : R)
    (best : Option (Nat × MemoryCandidate R)) :
    Raises (fun e => e.kind = .valueError) (bestOf rrfNorm vecs selected pos bestVal best pool) := by
  induction pool generalizing pos bestVal best with
  | nil => exact raisesOk best
  | cons c rest ih =>
    have measured : Raises (fun e => e.kind = .valueError) (maxSimilarity vecs selected c) :=
      raisesBind (raisesMapM (fun s => cosineRaises _ _) selected) fun sims => raisesOk _
    refine raisesBind measured fun maxSim => ?_
    split
    · exact ih _ _ _
    dsimp only
    split <;> exact ih _ _ _

theorem mmrRaises (cands : List (MemoryCandidate R)) :
    Raises (fun e => e.kind = .valueError) (mmr cands rrfNorm vecs) := by
  unfold mmr
  generalize (cands.insertionSort (fun a b => selectionScore rrfNorm b ≤ selectionScore rrfNorm a)) = pool
  dsimp only
  generalize pool.length = rounds, ([] : List (MemoryCandidate R)) = selected
  induction rounds generalizing pool selected with
  | zero => exact raisesOk selected
  | succ rounds ih =>
    rw [mmrLoop]
    split
    · exact raisesOk selected
    refine raisesBind (bestRaises _ _ _ _ _ _ _) fun best => ?_
    split
    · exact raisesOk selected
    · exact ih _ _

theorem retrieveRaises [Builtins] (engine : MemoryEngine R) (now : Time) (store : InMemoryStore R) (ctx : SecurityContext)
    (query : String) (k : Int) : Raises (fun e => e.kind = .valueError) (engine.retrieve now store ctx query k) := by
  unfold retrieve
  dsimp only
  split
  · exact raisesOk []
  refine raisesBind (raisesMapM (fun cv => cosineRaises _ _) _) fun vectorScores => ?_
  exact raisesBind (mmrRaises _ _ _) fun deduped => raisesOk _

end MemoryEngine

namespace ContextAssembler

theorem selectRaises (lam : R) (vecs : String → List R) (rounds : Nat) (pool selected : List (Ranked R))
    (maxSim : Dict String R) : Raises (fun e => e.kind = .valueError) (selectLoop lam vecs rounds pool maxSim selected) := by
  induction rounds generalizing pool maxSim selected with
  | zero => exact raisesOk selected
  | succ rounds ih =>
    rw [selectLoop]
    split
    · exact raisesOk selected
    split
    · exact raisesOk selected
    have measured (maxSim : Dict String R) (cvec : List R) (cb : Ranked R) :
        Raises (fun e => e.kind = .valueError) (raiseSim vecs cvec maxSim cb) := by
      refine raisesBind (cosineRaises _ _) fun sim => ?_
      split <;> exact raisesOk _
    exact raisesBind (raisesFoldlM (fun maxSim cb => measured maxSim _ cb) _ _) fun maxSim => ih _ _ _

theorem assembleRaises (a : ContextAssembler R) (budget : TokenBudget) (sources : ContextSources R) (weights : RankWeights R)
    (tokenizer : Option Tokenizer) (lam : R) :
    Raises (fun e => e.kind ∈ Stage.assemble.raises) (a.assemble budget sources weights tokenizer lam) := by
  have balanced : Raises (fun e => e.kind ∈ Stage.assemble.raises) weights.validate := by
    unfold RankWeights.validate
    split
    · exact raisesError (by simp [Stage.raises])
    · exact raisesOk ()
  have reserves : Raises (fun e => e.kind ∈ Stage.assemble.raises) (checkHardReserves budget) := by
    unfold checkHardReserves
    split
    · exact raisesError (by simp [Stage.raises])
    · exact raisesOk ()
  refine raisesBind balanced fun _ => raisesBind reserves fun _ => raisesBind ?_ fun packing => raisesOk _
  refine raisesBind (fun e failed => ?_) fun selected => raisesOk _
  rw [selectRaises _ _ _ _ _ _ e failed]
  decide

end ContextAssembler

theorem routeRaises [Builtins] (router : ModelRouter) (now : Time) (ctx : SecurityContext) (query : String) (tokens : Int)
    (reg : BackendRegistry R) (f : RouteFilters R) :
    Raises (fun e => e.kind = .noEligibleBackend) (router.route now ctx query tokens reg f) := by
  unfold ModelRouter.route
  dsimp only
  split
  · exact raisesError rfl
  split
  · exact raisesError rfl
  · exact raisesOk _

end Raised

/-! ### One run -/

namespace Pipeline
variable [PyFloat R] [Builtins]

-- the trace that a run left behind
def Traced (env : Env) (s : Stores R) (ctx : SecurityContext) (out : Outcome R) : Prop :=
  ∃ spans, out.stores.tracer = s.tracer.record ⟨env.traceId, ctx.tenantId, spans⟩ ∧
    Told env.traceId ctx.tenantId spans out.result out.calls

variable (p : Pipeline R) (env : Env) (s : Stores R) (ctx : SecurityContext) (c : ChatCall)

omit [PyFloat R] [Builtins] in
theorem tracedFailure {before after : List Stage} {stage : Stage} {front : List TraceSpan}
    (order : generatedStages = before ++ stage :: after)
    (path : List.Forall₂ (Passed env.traceId ctx.tenantId) before front) (name : String) {e : PyError}
    (raised : e.kind ∈ stage.raises) {calls : List AdapterCall} (called : calls ≠ [] → stage = .backendInvoke) :
    Traced env s ctx (finish env ctx s (front ++ [env.spans.span env.traceId ctx.tenantId stage name none]) (.error e) calls) :=
  ⟨_, rfl, .failed order path (spanBroken _ stage name) e raised called⟩

theorem completeTraced {spans : List TraceSpan}
    (path : List.Forall₂ (Passed env.traceId ctx.tenantId) [.auth, .cache, .retrieve, .compress, .assemble, .route] spans)
    (prepared : Prepared R) (used model : String) (resp : ChatResponse) {calls : List AdapterCall} (called : calls ≠ []) :
    Traced env s ctx (p.complete env s ctx c spans prepared used model resp calls) := by
  have kept : (p.writeback env s ctx c model prepared.injected resp).1.tracer = s.tracer := by
    unfold writeback
    split <;> rfl
  unfold complete
  refine ⟨_, congrArg (fun tracer : Tracer => tracer.record ⟨env.traceId, ctx.tenantId, _⟩) kept, ?_⟩
  exact .generated (List.rel_append path (.cons (spanPassed _ _ _ _) (.cons (spanPassed _ _ _ _) .nil))) _ called

omit [PyFloat R] [Builtins] in
theorem routedCalled {env : Env} {messages : List ChatMessage} {maxTokens : Int} {hop : Nat} {names : List String}
    {reg : BackendRegistry R} {answer : ChatResponse × String × String}
    (ok : (invokeRouted env messages maxTokens hop names reg).result = .ok answer) :
    (invokeRouted env messages maxTokens hop names reg).calls ≠ [] := by
  have walked := invokeRoutedWalked env messages maxTokens hop names reg
  generalize invokeRouted env messages maxTokens hop names reg = walk at walked ok ⊢
  cases walked with
  | exhausted => simp at ok
  | answered failures => simp

omit [PyFloat R] [Builtins] in
theorem routedRaises (messages : List ChatMessage) (maxTokens : Int) (hop : Nat) (names : List String) (reg : BackendRegistry R) :
    Raises (fun e => e.kind = .backendUnavailable) (invokeRouted env messages maxTokens hop names reg).result := by
  induction names generalizing hop reg with
  | nil => exact raisesError rfl
  | cons name rest ih =>
    rw [invokeRouted]
    split
    · exact ih _ _
    split
    · exact ih _ _
    dsimp only
    split
    · exact raisesOk _
    · exact ih _ _

theorem retrieveRaises : Raises (fun e => e.kind = .valueError) (p.retrieve env s ctx c) := by
  unfold retrieve
  split
  · exact raisesOk []
  · exact MemoryEngine.retrieveRaises _ _ _ _ _ _

theorem assembleStageRaises (candidates : List (MemoryCandidate R)) :
    Raises (fun e => e.kind ∈ Stage.assemble.raises) (p.assembleStage env ctx c candidates) := by
  unfold assembleStage
  split
  · exact raisesOk _
  · exact raisesBind (ContextAssembler.assembleRaises _ _ _ _ _ _) fun assembled => raisesOk _

theorem dispatchTraced {spans : List TraceSpan}
    (path : List.Forall₂ (Passed env.traceId ctx.tenantId) [.auth, .cache, .retrieve, .compress, .assemble] spans)
    (prepared : Prepared R) : Traced env s ctx (p.dispatch env s ctx c spans prepared) := by
  unfold dispatch
  split
  · rename_i router reg _
    split
    · rename_i failed
      have raised := routeRaises _ _ _ _ _ _ _ _ failed
      exact tracedFailure env s ctx rfl path _ (by rw [raised]; decide) (by simp)
    · rename_i decision _
      have routed := passedNext env.spans path .route "model-router" (routeDecision decision)
      dsimp only
      split
      · rename_i failed
        have raised := routedRaises _ _ _ _ _ _ _ failed
        exact tracedFailure env _ ctx rfl routed _ (by rw [raised]; decide) (fun _ => rfl)
      · rename_i ok
        exact p.completeTraced env _ ctx c routed prepared _ _ _ (routedCalled ok)
  · have routed := passedNext env.spans path .route "model-router"
      (s!"single-backend -> {p.adapter.name}", [("model", p.chosenModel c)])
    dsimp only
    split
    · exact tracedFailure env s ctx rfl routed _ (by simp [Stage.raises]) (fun _ => rfl)
    · exact p.completeTraced env s ctx c routed prepared _ _ _ (by simp)

theorem answerTraced {spans : List TraceSpan} (path : List.Forall₂ (Passed env.traceId ctx.tenantId) [.auth, .cache] spans) :
    Traced env s ctx (p.answer env s ctx c spans) := by
  unfold answer
  split
  · rename_i failed
    have raised := p.retrieveRaises env s ctx c _ failed
    exact tracedFailure env s ctx rfl path _ (by rw [raised]; decide) (by simp)
  · rename_i found _
    have fetched := List.rel_append path (.cons (spanPassed env.spans .retrieve "memory-retrieve"
      (p.retrieveDecision found)) (.cons (spanPassed env.spans .compress "context-compression" (p.compressAll c.prompt found).2) .nil))
    dsimp only
    split
    · rename_i failed
      exact tracedFailure env s ctx rfl fetched _ (p.assembleStageRaises env ctx c _ _ failed) (by simp)
    · rename_i prepared _
      have traced := p.dispatchTraced env (captured s ctx prepared) ctx c
        (passedNext env.spans fetched .assemble "context-assembly" prepared.decision) prepared
      obtain ⟨spans, recorded, told⟩ := traced
      exact ⟨spans, recorded.trans (by simp), told⟩

theorem runTraced : Traced env s ctx (p.run env s ctx c) := by
  unfold run
  split
  · rename_i failed
    have first : generatedStages = [] ++ .auth :: generatedStages.tail := rfl
    have raised := checkRaises _ _ _ _ _ failed
    exact tracedFailure env s ctx first .nil _ (by rw [raised]; decide) (by simp)
  · dsimp only
    split
    · exact ⟨_, rfl, .served (.cons (spanPassed _ _ _ _) (.cons (spanPassed _ _ _ _) (.cons (spanPassed _ _ _ _) .nil))) _⟩
    · exact p.answerTraced env s ctx c (.cons (spanPassed _ _ _ _) (.cons (spanPassed _ _ _ _) .nil))

end Pipeline

/-! ### Every stored trace -/

section Stored
variable [PyFloat R] [Builtins] (a : App R)

/-- The trace is the one of this very chat. -/
structure TellsOf (trace : Trace) (served : Request R × Response R) : Prop where
  opened : served.1.opened = some trace.traceId
  tenant : served.1.ctx.tenantId = trace.tenantId
  told : Told trace.traceId trace.tenantId trace.spans served.2.result served.2.calls

theorem App.stepTells (s : AppState R) (r : Request R) {id : String} {trace : Trace}
    (there : Dict.get (a.step s r).1.stores.tracer id = some trace) :
    Dict.get s.stores.tracer id = some trace ∨ (trace.traceId = id ∧ TellsOf trace (r, (a.step s r).2)) := by
  cases op : r.op with
  | chat call =>
    obtain ⟨spans, recorded, told⟩ := a.pipeline.runTraced r.env s.stores r.ctx call
    rw [App.chatStores op, recorded, Tracer.record, Dict.getSet] at there
    split at there
    · rename_i same
      cases Option.some.inj there
      refine .inr ⟨same.symm, ?_, rfl, ?_⟩
      · simp only [Request.opened, op]
      · rw [App.chatReply op]
        exact told.map Reply.chat
    · exact .inl there
  | writeMemory content tier importance =>
    simp only [App.step, op] at there
    split at there <;> exact .inl there
  | _ =>
    simp only [App.step, op] at there
    exact .inl there

/-- Every trace that can be looked up tells of a chat of the tenant that looks. -/
theorem tracesTell (requests : List (Request R)) {ctx : SecurityContext} {id : String} {trace : Trace}
    (there : (a.machine.exec AppState.initial requests).stores.tracer.get ctx id = some trace) :
    trace.traceId = id ∧ ∃ served ∈ a.machine.replies AppState.initial requests,
      served.1.ctx.tenantId = ctx.tenantId ∧ TellsOf trace served := by
  have run := a.machine.historyInvariant
    (P := fun past s => ∀ id trace, Dict.get s.stores.tracer id = some trace →
      trace.traceId = id ∧ ∃ served ∈ past, TellsOf trace served)
    (s := AppState.initial) (by simp [AppState.initial]) (fun past s r valid id trace there => by
      rcases a.stepTells s r there with old | ⟨same, tells⟩
      · obtain ⟨same, served, member, tells⟩ := valid id trace old
        exact ⟨same, served, List.mem_append_left _ member, tells⟩
      · exact ⟨same, _, List.mem_append_right _ List.mem_cons_self, tells⟩) requests
  unfold Tracer.get at there
  cases found : Dict.get (a.machine.exec AppState.initial requests).stores.tracer id with
  | none => simp [found] at there
  | some stored =>
    simp only [found] at there
    split at there <;> try contradiction
    rename_i owner
    cases Option.some.inj there
    obtain ⟨same, served, member, tells⟩ := run id _ found
    exact ⟨same, served, member, tells.tenant.trans (not_not.mp owner), tells⟩

end Stored

def oversized : Request ℚ := ⟨member "acme" "sales", envAt 0 "1", .chat ⟨"colour", none, 6000, none⟩⟩

theorem tracesTellSample :
    letI := asciiBuiltins [] []
    ∃ trace, (sampleApp.machine.exec AppState.initial [oversized]).stores.tracer.get (member "acme" "legal") "trace-1" =
        some trace ∧ trace.traceId = "trace-1" ∧ ∃ served ∈ sampleApp.machine.replies AppState.initial [oversized],
          served.1.ctx.tenantId = "acme" ∧ TellsOf trace served := by
  let _ := asciiBuiltins [] []
  have kept : ((sampleApp.machine.exec AppState.initial [oversized]).stores.tracer.get (member "acme" "legal") "trace-1").isSome := by
    decide +kernel
  obtain ⟨trace, there⟩ := Option.isSome_iff_exists.mp kept
  exact ⟨trace, there, tracesTell sampleApp [oversized] there⟩

end ContextOS
