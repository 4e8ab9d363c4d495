import ContextOS.Cache
import ContextOS.Compressor
import ContextOS.MemoryEngine
import ContextOS.Observability
import ContextOS.Replay
import ContextOS.Router

/-! The request pipeline: authorize, cache lookup, retrieve, compress, assemble with
capture, route, invoke, write back. A stage that raises ends the run; what the earlier
stages wrote stays, and the trace keeps their spans. What an operation reads from outside
comes as one `Env`: fresh ids, clock readings, and a number for each adapter call. -/
namespace ContextOS
open Lib (Dict)

variable {R : Type}

structure Env where
  traceId : String
  commitId : String
  birth : Birth
  spans : SpanClock
  lookupAt : Time
  retrieveAt : Time
  capturedAt : Time
  routeAt : Time
  allowsAt : Nat → Time
  failedAt : Nat → Time
  storeAt : Time
  committedAt : Time
  callToken : Nat → Nat

structure Stores (R : Type) where
  memories : InMemoryStore R
  cache : InMemoryCacheBackend R
  bundles : InMemoryBundleStore R
  tracer : Tracer
  cost : CostLedger R
  backends : Option (BackendRegistry R)

/-- The configuration; `none` is a component that was not wired. -/
structure Pipeline (R : Type) where
  adapter : Adapter
  policy : PolicyEngine
  memory : Option (MemoryEngine R)
  assembler : Option (ContextAssembler R)
  cache : Option (SemanticCache R)
  compressor : Option ContextCompressor
  replay : Option (ReplayDebugger R)
  router : Option ModelRouter
  cost : Option (Dict String R)
  defaultModel : String
  windowTokens : Int
  compressTarget : Int
  weights : RankWeights R
  tokenizer : Tokenizer

structure ChatCall where
  prompt : String
  model : Option String
  maxTokens : Int
  system : Option String
  deriving DecidableEq, Repr

structure ChatResult where
  text : String
  traceId : String
  model : String
  usage : Usage
  deriving DecidableEq, Repr

structure AdapterCall where
  request : ChatRequest
  reply : Except String ChatResponse

structure Outcome (R : Type) where
  stores : Stores R
  result : Except PyError ChatResult
  calls : List AdapterCall

structure Prepared (R : Type) where
  messages : List ChatMessage
  injected : Nat
  assembledTokens : Int
  bundle : Option (ContextBundle R)
  decision : String × List (String × String)

structure Invocation (R : Type) where
  backends : BackendRegistry R
  result : Except PyError (ChatResponse × String × String)
  calls : List AdapterCall

namespace ChatCall

def systemText (c : ChatCall) : String := c.system.getD ""

end ChatCall

def showBool (b : Bool) : String := if b then "True" else "False"

def showFinish (finish : Option String) : String := finish.getD "None"

namespace Pipeline
variable [PyFloat R] [Builtins]

def defaultMmrLambda : R := 0.7

def chosenModel (p : Pipeline R) (c : ChatCall) : String := orElse c.model p.defaultModel

-- `hashlib.sha256((system or "").encode()).hexdigest()[:12]`
def systemVersion (c : ChatCall) : String := String.ofList ((Builtins.sha256 c.systemText).toList.take 12)

/-- The stable-facts version is left at its default on both sides. -/
def cacheKeywords (c : ChatCall) (model : String) : CacheKeywords := ⟨model, systemVersion c, "v0"⟩

def lookup (p : Pipeline R) (env : Env) (s : Stores R) (ctx : SecurityContext) (c : ChatCall) :
    Option (CacheHit R) :=
  p.cache.bind (fun cache =>
    cache.lookup s.cache env.lookupAt ctx c.prompt (cacheKeywords c (p.chosenModel c)))

def retrieve (p : Pipeline R) (env : Env) (s : Stores R) (ctx : SecurityContext) (c : ChatCall) :
    Except PyError (List (MemoryCandidate R)) :=
  match p.memory with
  | none => .ok []
  | some engine => engine.retrieve env.retrieveAt s.memories ctx c.prompt 12

def retrieveDecision (p : Pipeline R) (candidates : List (MemoryCandidate R)) : String × List (String × String) :=
  match p.memory with
  | none => ("no memory engine configured", [("candidates", "0")])
  | some _ => (s!"retrieved {candidates.length} candidate(s) (raw scores)",
      [("candidates", toString candidates.length),
       ("top_memory_ids", ",".intercalate ((candidates.take 5).map (·.memoryId)))])

def compressOne (p : Pipeline R) (prompt : String) (c : MemoryCandidate R) : MemoryCandidate R × Int :=
  let block := compress c.content p.compressTarget p.tokenizer (some prompt) none
  if block.compressedTokens < block.originalTokens then
    ({ c with content := block.text }, block.originalTokens - block.compressedTokens)
  else (c, 0)

def compressAll (p : Pipeline R) (prompt : String) (candidates : List (MemoryCandidate R)) :
    List (MemoryCandidate R) × (String × List (String × String)) :=
  match p.compressor with
  | some _ =>
    if candidates.isEmpty then (candidates, ("skipped (no compressor or no candidates)", []))
    else
      let blocks := candidates.map (p.compressOne prompt)
      let saved := (blocks.map Prod.snd).sum
      (blocks.map Prod.fst, (s!"compressed candidates; saved ~{saved} tok", [("saved_tokens", toString saved)]))
  | none => (candidates, ("skipped (no compressor or no candidates)", []))

def budgetFor (p : Pipeline R) (c : ChatCall) : TokenBudget :=
  ⟨p.windowTokens, c.maxTokens, p.tokenizer.count c.systemText, p.tokenizer.count c.prompt⟩

def passthrough (c : ChatCall) : List ChatMessage :=
  (if c.systemText.isEmpty then [] else [⟨.system, c.systemText⟩]) ++ [⟨.user, c.prompt⟩]

def bundleMessages (messages : List ChatMessage) : List BundleMessage :=
  messages.map (fun m => ⟨m.role.value, m.content⟩)

def assembleStage (p : Pipeline R) (env : Env) (ctx : SecurityContext) (c : ChatCall)
    (candidates : List (MemoryCandidate R)) : Except PyError (Prepared R) :=
  match p.assembler with
  | none =>
    .ok ⟨passthrough c, 0, p.tokenizer.count c.prompt + p.tokenizer.count c.systemText, none,
      ("passthrough (no assembler configured)", [])⟩
  | some assembler => do
    let budget := p.budgetFor c
    let assembled ← assembler.assemble budget ⟨c.systemText, c.prompt, candidates, []⟩ p.weights
      (some p.tokenizer) defaultMmrLambda
    let injected := (assembled.decisions.filter (·.kept)).length
    let bundle := p.replay.map (fun d => d.newBundle env.traceId env.capturedAt ctx
      ⟨p.chosenModel c, defaultMmrLambda, p.weights, budget, c.systemText, c.prompt, candidates⟩
      (bundleMessages assembled.messages) (renderPromptHash assembled.messages))
    return ⟨assembled.messages, injected, assembled.usedTokens, bundle,
      (s!"assembled {assembled.messages.length} msg(s); {injected} memory block(s) injected",
        [("used_tokens", toString assembled.usedTokens), ("soft_budget", toString budget.softBudget),
         ("injected", toString injected), ("bundle_cid", (bundle.map (·.bundleCid)).getD "-")])⟩

def captured (s : Stores R) (ctx : SecurityContext) (prepared : Prepared R) : Stores R :=
  match prepared.bundle with
  | none => s
  | some bundle => { s with bundles := s.bundles.put ctx bundle }

def routing (p : Pipeline R) (s : Stores R) : Option (ModelRouter × BackendRegistry R) :=
  match p.router, s.backends with
  | some router, some reg => if reg.all.isEmpty then none else some (router, reg)
  | _, _ => none

def routeDecision (decision : RouteDecision R) : String × List (String × String) :=
  (s!"routed -> {decision.backend} ({decision.modelId})",
    [("backend", decision.backend), ("model", decision.modelId),
     ("utility", PyFloat.fixed 4 decision.utility), ("difficulty", PyFloat.fixed 2 decision.difficulty),
     ("from_safe_default", showBool decision.fromSafeDefault),
     ("fallback", ",".intercalate decision.fallbackChain)])

def invokeRouted (env : Env) (messages : List ChatMessage) (maxTokens : Int) :
    Nat → List String → BackendRegistry R → Invocation R
  | _, [], reg => ⟨reg, .error ⟨.backendUnavailable, "all routed backends failed or are breaker-open"⟩, []⟩
  | hop, name :: rest, reg =>
    match reg.get name with
    | none => invokeRouted env messages maxTokens (hop + 1) rest reg
    | some entry =>
      if !entry.breaker.allows (env.allowsAt hop) then invokeRouted env messages maxTokens (hop + 1) rest reg
      else
        let request : ChatRequest := ⟨entry.spec.modelId, messages, maxTokens⟩
        match entry.adapter.generate (env.callToken hop) request with
        | .ok resp =>
          ⟨reg.register { entry with breaker := entry.breaker.recordSuccess },
            .ok (resp, name, entry.spec.modelId), [⟨request, .ok resp⟩]⟩
        | .error e =>
          let tripped := { entry with breaker := entry.breaker.recordFailure (env.failedAt hop) }
          let later := invokeRouted env messages maxTokens (hop + 1) rest (reg.register tripped)
          { later with calls := ⟨request, .error e⟩ :: later.calls }

def writeback (p : Pipeline R) (env : Env) (s : Stores R) (ctx : SecurityContext) (c : ChatCall)
    (model : String) (injected : Nat) (resp : ChatResponse) : Stores R × Bool :=
  if resp.finishReason.isNone then (s, false)
  else
    let (cached, cache) := match p.cache with
      | none => (false, s.cache)
      | some cache => cache.store s.cache env.storeAt ctx c.prompt resp.text (cacheKeywords c model)
          (0 < injected) none
    let bundles := match p.replay with
      | none => s.bundles
      | some _ => s.bundles.attachOutput ctx env.traceId resp.text
    let cost := match p.cost with
      | none => s.cost
      | some prices => s.cost.record prices ctx model resp.usage
    ({ s with cache := cache, bundles := bundles, cost := cost }, cached)

def finish (env : Env) (ctx : SecurityContext) (s : Stores R) (spans : List TraceSpan)
    (result : Except PyError ChatResult) (calls : List AdapterCall) : Outcome R :=
  ⟨{ s with tracer := s.tracer.record ⟨env.traceId, ctx.tenantId, spans⟩ }, result, calls⟩

def complete (p : Pipeline R) (env : Env) (s : Stores R) (ctx : SecurityContext) (c : ChatCall)
    (spans : List TraceSpan) (prepared : Prepared R) (used model : String) (resp : ChatResponse)
    (calls : List AdapterCall) : Outcome R :=
  let span := env.spans.span env.traceId ctx.tenantId
  let (s, cached) := p.writeback env s ctx c model prepared.injected resp
  finish env ctx s
    (spans ++
      [span .backendInvoke "adapter.generate" (some (s!"generated via {used}",
        [("finish_reason", showFinish resp.finishReason),
         ("prompt_tokens", toString resp.usage.promptTokens),
         ("completion_tokens", toString resp.usage.completionTokens)])),
       span .writeback "enqueue-async" (some
        (if resp.finishReason.isSome then "committed" else "discarded (no terminal event)",
         [("cached", showBool cached), ("non_cacheable", showBool (0 < prepared.injected))]))])
    (.ok ⟨resp.text, env.traceId, resp.model, resp.usage⟩) calls

def dispatch (p : Pipeline R) (env : Env) (s : Stores R) (ctx : SecurityContext) (c : ChatCall)
    (spans : List TraceSpan) (prepared : Prepared R) : Outcome R :=
  let span := env.spans.span env.traceId ctx.tenantId
  match p.routing s with
  | some (router, reg) =>
    match router.route env.routeAt ctx c.prompt prepared.assembledTokens reg RouteFilters.none with
    | .error e => finish env ctx s (spans ++ [span .route "model-router" none]) (.error e) []
    | .ok decision =>
      let spans := spans ++ [span .route "model-router" (some (routeDecision decision))]
      let walk := invokeRouted env prepared.messages c.maxTokens 0
        (decision.backend :: decision.fallbackChain) reg
      let s := { s with backends := some walk.backends }
      match walk.result with
      | .error e => finish env ctx s (spans ++ [span .backendInvoke "adapter.generate" none]) (.error e) walk.calls
      | .ok (resp, used, model) => p.complete env s ctx c spans prepared used model resp walk.calls
  | none =>
    let model := p.chosenModel c
    let spans := spans ++ [span .route "model-router"
      (some (s!"single-backend -> {p.adapter.name}", [("model", model)]))]
    let request : ChatRequest := ⟨model, prepared.messages, c.maxTokens⟩
    match p.adapter.generate (env.callToken 0) request with
    | .error e =>
      finish env ctx s (spans ++ [span .backendInvoke "adapter.generate" none]) (.error ⟨.adapterError, e⟩)
        [⟨request, .error e⟩]
    | .ok resp => p.complete env s ctx c spans prepared p.adapter.name model resp [⟨request, .ok resp⟩]

def answer (p : Pipeline R) (env : Env) (s : Stores R) (ctx : SecurityContext) (c : ChatCall)
    (spans : List TraceSpan) : Outcome R :=
  let span := env.spans.span env.traceId ctx.tenantId
  match p.retrieve env s ctx c with
  | .error e => finish env ctx s (spans ++ [span .retrieve "memory-retrieve" none]) (.error e) []
  | .ok found =>
    let (candidates, compressDecision) := p.compressAll c.prompt found
    let spans := spans ++
      [span .retrieve "memory-retrieve" (some (p.retrieveDecision found)),
       span .compress "context-compression" (some compressDecision)]
    match p.assembleStage env ctx c candidates with
    | .error e => finish env ctx s (spans ++ [span .assemble "context-assembly" none]) (.error e) []
    | .ok prepared =>
      p.dispatch env (captured s ctx prepared) ctx c
        (spans ++ [span .assemble "context-assembly" (some prepared.decision)]) prepared

def hitDecision (hit : CacheHit R) : String × List (String × String) :=
  (s!"hit ({hit.tier.value})",
    [("verdict", "hit"), ("tier", hit.tier.value), ("similarity", PyFloat.fixed 3 hit.similarity)])

def run (p : Pipeline R) (env : Env) (s : Stores R) (ctx : SecurityContext) (c : ChatCall) : Outcome R :=
  let span := env.spans.span env.traceId ctx.tenantId
  match p.policy.check ctx (modelResource ctx) .route with
  | .error e => finish env ctx s [span .auth "resolve+authorize" none] (.error e) []
  | .ok _ =>
    let auth := span .auth "resolve+authorize"
      (some ("authorized", [("tenant", ctx.tenantId), ("namespace", ctx.namespaceId)]))
    match p.lookup env s ctx c with
    | some hit =>
      finish env ctx s
        [auth, span .cache "semantic-cache-lookup" (some (hitDecision hit)),
         span .writeback "served-from-cache" (some ("served from cache; no model call", [("source", "cache")]))]
        (.ok ⟨hit.responseText, env.traceId, p.chosenModel c, ⟨0, 0, 0⟩⟩) []
    | none =>
      p.answer env s ctx c
        [auth, span .cache "semantic-cache-lookup" (some ("miss", [("verdict", "miss"), ("tier", "none")]))]

end Pipeline
end ContextOS
