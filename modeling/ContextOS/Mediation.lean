import ContextOS.Accounting
import ContextOS.Allowlist
import ContextOS.Grounding
import ContextOS.Walk

/-! Who asks the policy before data is read. The pipeline asks about the route alone: it
retrieves memories and answers from the cache whether or not the policy lets the caller
read either. The reads of a context that is denied them are mediated as long as the stores
hold nothing to read: no row that would be packed, and no entry that would answer. -/
namespace ContextOS
open Lib (Dict toOptionOk bindOk pureOk fillNone)

variable {R : Type}

def memoryResource (ctx : SecurityContext) : Dict String String :=
  Dict.ofList [("type", "memory"), ("tenant_id", ctx.tenantId), ("namespace", ctx.namespaceId)]

def cacheResource (ctx : SecurityContext) : Dict String String :=
  Dict.ofList [("type", "cache"), ("tenant_id", ctx.tenantId), ("namespace", ctx.namespaceId)]

namespace Pipeline

/-! ### What is sent -/

def anyAllowed (env : Env) (reg : BackendRegistry R) : Nat → List String → Bool
  | _, [] => false
  | hop, name :: rest =>
    (reg.get name).any (fun entry => entry.breaker.allows (env.allowsAt hop)) || anyAllowed env reg (hop + 1) rest

theorem invokeRoutedSends (env : Env) (messages : List ChatMessage) (maxTokens : Int) (hop : Nat) (names : List String)
    (reg : BackendRegistry R) :
    (invokeRouted env messages maxTokens hop names reg).calls ≠ [] ↔ anyAllowed env reg hop names := by
  induction names generalizing hop with
  | nil => simp [invokeRouted, anyAllowed]
  | cons name rest ih =>
    unfold invokeRouted anyAllowed
    cases reg.get name with
    | none => simpa using ih (hop + 1)
    | some entry =>
      cases allowed : entry.breaker.allows (env.allowsAt hop) with
      | false => simpa [allowed] using ih (hop + 1)
      | true =>
        simp only [allowed, Bool.not_true, Bool.false_eq_true, if_false, Option.any_some, Bool.true_or, iff_true]
        split <;> simp

variable [PyFloat R] [Builtins]

def sends (p : Pipeline R) (env : Env) (s : Stores R) (ctx : SecurityContext) (c : ChatCall) (prepared : Prepared R) : Bool :=
  match p.routing s with
  | none => true
  | some (router, reg) =>
    match router.route env.routeAt ctx c.prompt prepared.assembledTokens reg RouteFilters.none with
    | .error _ => false
    | .ok decision => anyAllowed env reg 0 (decision.backend :: decision.fallbackChain)

theorem dispatchSends (p : Pipeline R) (env : Env) (s : Stores R) (ctx : SecurityContext) (c : ChatCall)
    (spans : List TraceSpan) (prepared : Prepared R) :
    (p.dispatch env s ctx c spans prepared).calls ≠ [] ↔ p.sends env s ctx c prepared := by
  unfold dispatch sends
  cases p.routing s with
  | none =>
    dsimp only
    split <;> simp [finish, complete]
  | some routed =>
    obtain ⟨router, reg⟩ := routed
    dsimp only
    cases router.route env.routeAt ctx c.prompt prepared.assembledTokens reg RouteFilters.none with
    | error e => simp [finish]
    | ok decision =>
      dsimp only
      rw [← invokeRoutedSends env prepared.messages c.maxTokens]
      split <;> rfl

theorem capturedSends (p : Pipeline R) (env : Env) (s : Stores R) (ctx : SecurityContext) (c : ChatCall)
    (prepared : Prepared R) : p.sends env (captured s ctx prepared) ctx c prepared = p.sends env s ctx c prepared := by
  unfold sends
  rw [capturedRouting]

theorem groundedMessages {p : Pipeline R} {env : Env} {ctx : SecurityContext} {c : ChatCall}
    {candidates : List (MemoryCandidate R)} {prepared : Prepared R}
    (ok : p.assembleStage env ctx c candidates = .ok prepared) (plain : prepared.messages = passthrough c) :
    prepared.injected = 0 := by
  cases preparation ok with
  | passthrough => rfl
  | @assembled a packing out wired assembled spec decision =>
    have rendered := congrArg List.length (spec.messages.symm.trans plain)
    rw [← renderNone c candidates] at rendered
    have unplaced : edgeLoad packing.survivors = [] := by
      by_contra placed
      simp [render, placed] at rendered
    have same := (edgeLoadPerm packing.survivors).length_eq
    rw [unplaced] at same
    exact same.symm

/-! ### What there is to read -/

/-- Some row that retrieval and the diversity pass of the assembler leave fits the soft budget alone. -/
def Placeable (p : Pipeline R) (env : Env) (s : Stores R) (ctx : SecurityContext) (c : ChatCall) : Prop :=
  ∃ found a selected, p.retrieve env s ctx c = .ok found ∧ p.assembler = some a ∧
    a.mmr (blend (p.compressAll c.prompt found).1 p.weights) defaultMmrLambda = .ok selected ∧
    ∃ cb ∈ selected, p.tokenizer.count cb.1.content ≤ (p.budgetFor c).softBudget

def Callable (p : Pipeline R) (env : Env) (s : Stores R) (ctx : SecurityContext) : Prop :=
  ∀ router reg, p.routing s = some (router, reg) →
    ∃ e ∈ router.eligible ctx RouteFilters.none reg, ∃ hop, e.breaker.allows (env.allowsAt hop)

-- a live entry under the exact key of the chat, or one of its fingerprint that is similar enough
def Answerable (p : Pipeline R) (env : Env) (s : Stores R) (ctx : SecurityContext) (c : ChatCall) : Prop :=
  ∃ cache stored hit, p.cache = some cache ∧
    cache.HitFrom s.cache env.lookupAt ctx c.prompt (cacheKeywords c (p.chosenModel c)) stored hit

omit [Builtins] in
theorem packingPlaces {a : ContextAssembler R} {soft : Int} {candidates : List (MemoryCandidate R)} {w : RankWeights R}
    {count : String → Int} {lam : R} {packing : ContextAssembler.Packing R}
    (packed : a.packing soft candidates w count lam = .ok packing) :
    ∃ selected, a.mmr (blend candidates w) lam = .ok selected ∧
      (packing.survivors = [] ↔ ∀ cb ∈ selected, soft < count cb.1.content) := by
  obtain ⟨selected, chosen, made⟩ := bindOk.mp packed
  cases pureOk.mp made
  refine ⟨selected, chosen, ?_⟩
  have survivors := packSurvivors count soft 0 selected
  dsimp only
  rw [survivors, fillNone]
  simp only [Int.zero_add, not_le]

theorem injectedPlaceable {p : Pipeline R} {env : Env} {s : Stores R} {ctx : SecurityContext} {c : ChatCall}
    {found : List (MemoryCandidate R)} {prepared : Prepared R} (reached : Reached p env s ctx c found prepared) :
    prepared.injected ≠ 0 ↔ p.Placeable env s ctx c := by
  have assembled := reached.assembled
  cases preparation assembled with
  | passthrough unwired =>
    refine iff_of_false (by simp) ?_
    rintro ⟨_, a, _, _, wired, _⟩
    rw [unwired] at wired
    contradiction
  | @assembled a packing out wired _ spec =>
    obtain ⟨selected, chosen, none⟩ := packingPlaces spec.packing
    simp only [ne_eq, List.length_eq_zero_iff, none]
    push Not
    constructor
    · intro placed
      exact ⟨found, a, selected, reached.retrieved, wired, chosen, placed⟩
    · rintro ⟨other, b, picked, retrieved, same, picks, placed⟩
      cases Except.ok.inj (reached.retrieved.symm.trans retrieved)
      cases Option.some.inj (wired.symm.trans same)
      cases Except.ok.inj (chosen.symm.trans picks)
      exact placed

omit [PyFloat R] [Builtins] in
theorem anyAllowedMember {env : Env} {reg : BackendRegistry R} {hop : Nat} {names : List String}
    (any : anyAllowed env reg hop names) :
    ∃ name ∈ names, ∃ entry, reg.get name = some entry ∧ ∃ hop, entry.breaker.allows (env.allowsAt hop) := by
  induction names generalizing hop with
  | nil => simp [anyAllowed] at any
  | cons name rest ih =>
    simp only [anyAllowed, Bool.or_eq_true, Option.any_eq_true] at any
    rcases any with ⟨entry, found, allowed⟩ | later
    · exact ⟨name, List.mem_cons_self, entry, found, hop, allowed⟩
    · obtain ⟨name, member, rest⟩ := ih later
      exact ⟨name, List.mem_cons_of_mem _ member, rest⟩

theorem sendsCallable {p : Pipeline R} {env : Env} {s : Stores R} {ctx : SecurityContext} {c : ChatCall} {prepared : Prepared R}
    (sends : p.sends env s ctx c prepared) : p.Callable env s ctx := by
  intro router reg routed
  simp only [Pipeline.sends, routed] at sends
  split at sends <;> try contradiction
  rename_i decision ok
  obtain ⟨name, chained, entry, found, allowed⟩ := anyAllowedMember sends
  obtain ⟨e, registered, rfl, passed⟩ := ModelRouter.routeEligible ok name chained
  cases Option.some.inj ((BackendRegistry.getMember registered).symm.trans found)
  exact ⟨entry, List.mem_filter.mpr ⟨registered, by simp [passed]⟩, allowed⟩

/-! ### Mediated requests -/

variable (p : Pipeline R) (cacheOf : SecurityContext → Dict String String)

def ReadMediated (env : Env) (s : Stores R) (ctx : SecurityContext) (c : ChatCall) : Prop :=
  (p.policy.evaluate ctx (memoryResource ctx) .read).allowed = false →
    ∀ sent ∈ (p.run env s ctx c).calls, sent.request.messages = passthrough c

def CacheMediated (env : Env) (s : Stores R) (ctx : SecurityContext) (c : ChatCall) : Prop :=
  (p.policy.evaluate ctx (cacheOf ctx) .cacheRead).allowed = false →
    ∀ result, (p.run env s ctx c).result = .ok result → (p.run env s ctx c).calls ≠ []

def Mediated (s : Stores R) (r : PipelineRequest R) : Prop :=
  ∀ call, r.op = .run call → p.ReadMediated r.env s r.ctx call ∧ p.CacheMediated cacheOf r.env s r.ctx call

/-- A chat that would put memory into a prompt. -/
structure Grounds (env : Env) (s : Stores R) (ctx : SecurityContext) (c : ChatCall) : Prop where
  routes : p.policy.check ctx (modelResource ctx) .route = .ok ()
  unanswered : p.lookup env s ctx c = none
  balanced : p.weights.validate = .ok ()
  reserves : checkHardReserves (p.budgetFor c) = .ok ()
  placeable : p.Placeable env s ctx c
  callable : p.Callable env s ctx

def ReadGuarded (env : Env) (s : Stores R) (ctx : SecurityContext) (c : ChatCall) : Prop :=
  (p.policy.evaluate ctx (memoryResource ctx) .read).allowed = false → ¬ p.Grounds env s ctx c

def CacheGuarded (env : Env) (s : Stores R) (ctx : SecurityContext) (c : ChatCall) : Prop :=
  (p.policy.evaluate ctx (cacheOf ctx) .cacheRead).allowed = false →
    p.policy.check ctx (modelResource ctx) .route = .ok () → ¬ p.Answerable env s ctx c

def Guarded (s : Stores R) (r : PipelineRequest R) : Prop :=
  ∀ call, r.op = .run call → p.ReadGuarded r.env s r.ctx call ∧ p.CacheGuarded cacheOf r.env s r.ctx call

variable {p cacheOf} {env : Env} {s : Stores R} {ctx : SecurityContext} {c : ChatCall}

theorem groundsReached (grounds : p.Grounds env s ctx c) : ∃ found prepared, Reached p env s ctx c found prepared := by
  obtain ⟨found, a, selected, retrieved, wired, chosen, _⟩ := grounds.placeable
  obtain ⟨out, assembled⟩ := assembleTotal (sourcesOf c (p.compressAll c.prompt found).1) (some p.tokenizer)
    grounds.balanced grounds.reserves chosen
  refine ⟨found, ?_⟩
  simp only [sourcesOf] at assembled
  exact ⟨_, grounds.routes, grounds.unanswered, retrieved, by
    simp only [assembleStage, wired, assembled, bind, Except.bind, pure, Except.pure]; rfl⟩

theorem readGuards (guarded : p.ReadGuarded env s ctx c) : p.ReadMediated env s ctx c := by
  intro denied sent member
  by_contra other
  have ending := p.runEnding env s ctx c
  generalize p.run env s ctx c = out at ending member
  cases ending with
  | refused => contradiction
  | hit => contradiction
  | @dispatched found prepared reached spans =>
    have sends := (dispatchSends p env _ ctx c spans prepared).mp (List.ne_nil_of_mem member)
    rw [capturedSends] at sends
    rw [dispatchMessages member] at other
    have injected : prepared.injected ≠ 0 := fun none => other (ungroundedMessages reached.assembled none)
    have placeable := (injectedPlaceable reached).mp injected
    have assembled := reached.assembled
    cases preparation assembled with
    | passthrough => exact injected rfl
    | assembled _ _ spec =>
      exact guarded denied
        ⟨reached.authorized, reached.miss, spec.balanced, spec.reserves, placeable, sendsCallable sends⟩

theorem readGuarded (single : p.router = none) (mediated : p.ReadMediated env s ctx c) : p.ReadGuarded env s ctx c := by
  intro denied grounds
  obtain ⟨found, prepared, reached⟩ := groundsReached grounds
  obtain ⟨spans, run⟩ := runReached reached
  have unrouted : p.routing (captured s ctx prepared) = none := by simp only [routing, single]
  obtain ⟨reply, calls⟩ := dispatchSingle p env ctx c spans prepared unrouted
  have plain := mediated denied ⟨_, reply⟩ (by rw [run, calls]; exact List.mem_singleton_self _)
  exact (injectedPlaceable reached).mpr grounds.placeable (groundedMessages reached.assembled plain)

theorem cacheGuards (guarded : p.CacheGuarded cacheOf env s ctx c) : p.CacheMediated cacheOf env s ctx c := by
  intro denied result ok quiet
  obtain ⟨hit, found, _⟩ := p.quietHit env s ctx c ok quiet
  have authorized : p.policy.check ctx (modelResource ctx) .route = .ok () := by
    cases checked : p.policy.check ctx (modelResource ctx) .route with
    | ok => rfl
    | error e => simp [run, checked, finish] at ok
  obtain ⟨cache, wired, looked⟩ := Option.bind_eq_some_iff.mp found
  obtain ⟨stored, origin⟩ := SemanticCache.lookupHit looked
  exact guarded denied authorized ⟨cache, stored, hit, wired, origin⟩

theorem mediatedIfGuarded (p : Pipeline R) (cacheOf : SecurityContext → Dict String String) (s : Stores R)
    (requests : List (PipelineRequest R)) :
    (p.machine.Along (p.Guarded cacheOf) s requests → p.machine.Along (p.Mediated cacheOf) s requests) ∧
    (p.router = none → p.machine.Along (p.Mediated cacheOf) s requests →
      p.machine.Along (fun t r => ∀ call, r.op = .run call → p.ReadGuarded r.env t r.ctx call) s requests) := by
  constructor
  · exact p.machine.alongMono fun t r guarded call op =>
      ⟨readGuards (guarded call op).1, cacheGuards (guarded call op).2⟩
  · exact fun single => p.machine.alongMono fun t r mediated call op => readGuarded single (mediated call op).1

end Pipeline

def routeOnly : PolicyEngine :=
  ⟨some ⟨"route-only", "acme", "", [⟨[], [], [.route], .allow⟩], .deny⟩⟩

def routeOnlyPipeline [Builtins] : Pipeline ℚ :=
  { sampleApp.pipeline with policy := routeOnly }

def writtenThenAsked : List (PipelineRequest ℚ) :=
  [⟨member "acme" "sales", envAt 0 "1", .write ⟨"blue", .longTerm, 1 / 2, "chat", none, Dict.empty⟩⟩,
   ⟨member "acme" "sales", envAt 1 "2", .run (ask "colour")⟩]

def askedOnceMore : List (PipelineRequest ℚ) :=
  [⟨member "acme" "sales", envAt 0 "1", .run (ask "colour")⟩, ⟨member "acme" "sales", envAt 1 "2", .run (ask "colour")⟩]

theorem readsUnmediated :
    letI := asciiBuiltins colourDigests []
    ¬ routeOnlyPipeline.machine.Along (routeOnlyPipeline.Mediated cacheResource) emptyStores writtenThenAsked ∧
    ¬ routeOnlyPipeline.machine.Along (routeOnlyPipeline.Mediated cacheResource) emptyStores askedOnceMore := by
  let _ := asciiBuiltins colourDigests []
  let p := routeOnlyPipeline
  constructor
  · intro mediated
    have denied : (p.policy.evaluate (member "acme" "sales") (memoryResource (member "acme" "sales")) .read).allowed = false := by
      decide
    have grounded : (p.run (envAt 1 "2") (p.machine.exec emptyStores (writtenThenAsked.take 1)) (member "acme" "sales")
        (ask "colour")).calls.any (fun sent => sent.request.messages ≠ Pipeline.passthrough (ask "colour")) := by
      decide +kernel
    obtain ⟨sent, member, other⟩ := List.any_eq_true.mp grounded
    exact of_decide_eq_true other ((mediated (writtenThenAsked.take 1) _ [] rfl _ rfl).1 denied sent member)
  · intro mediated
    have denied : (p.policy.evaluate (member "acme" "sales") (cacheResource (member "acme" "sales")) .cacheRead).allowed = false := by
      decide
    have served : (p.run (envAt 1 "2") (p.machine.exec emptyStores (askedOnceMore.take 1)) (member "acme" "sales")
        (ask "colour")).result.toOption.isSome := by
      decide +kernel
    have quiet : (p.run (envAt 1 "2") (p.machine.exec emptyStores (askedOnceMore.take 1)) (member "acme" "sales")
        (ask "colour")).calls.isEmpty := by
      decide +kernel
    obtain ⟨result, ok⟩ := Option.isSome_iff_exists.mp served
    exact (mediated (askedOnceMore.take 1) _ [] rfl _ rfl).2 denied result (toOptionOk.mp ok) (List.isEmpty_iff.mp quiet)

end ContextOS
