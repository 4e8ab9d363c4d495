import ContextOS.Endings
import ContextOS.Executable

/-! The model allowlist on every way to an adapter. The router asks the policy about each
model that it may dispatch to; the single adapter is called with whatever was chosen. A
configuration is governed when the chosen model is not denied on the single path, unless
the run ends before the call, and the router's policy denies what the pipeline's does. -/
namespace ContextOS

variable {R : Type}

def Denies (policy : PolicyEngine) (ctx : SecurityContext) (model : String) : Prop :=
  (policy.evaluate ctx (namedModelResource ctx model) .route).effect = .deny

instance (policy ctx model) : Decidable (Denies policy ctx model) := inferInstanceAs (Decidable (_ = _))

theorem checkedNotDenied {policy ctx model} (ok : PolicyEngine.check policy ctx (namedModelResource ctx model) .route = .ok ()) :
    ¬ Denies policy ctx model := by
  rw [Denies, PolicyEngine.checkOk.mp ok]
  decide

namespace Pipeline

/-! ### The models that are called -/

theorem invokeRoutedModels {P : String → Prop} (env : Env) (messages : List ChatMessage) (maxTokens : Int) (hop : Nat)
    (names : List String) (reg : BackendRegistry R)
    (valid : ∀ name ∈ names, ∀ e, reg.get name = some e → P e.spec.modelId) :
    ∀ call ∈ (invokeRouted env messages maxTokens hop names reg).calls, P call.request.model := by
  induction names generalizing hop reg with
  | nil => simp [invokeRouted]
  | cons name rest ih =>
    obtain ⟨here, later⟩ := List.forall_mem_cons.mp valid
    unfold invokeRouted
    split
    · exact ih (hop + 1) reg later
    · rename_i entry found
      have allowed := here entry found
      split
      · exact ih (hop + 1) reg later
      · dsimp only
        split
        · simpa using allowed
        · refine List.forall_mem_cons.mpr ⟨allowed, ih (hop + 1) _ fun name member e there => ?_⟩
          -- tripping a breaker changes no model
          rcases BackendRegistry.registeredEntry there with rfl | old
          · exact allowed
          · exact later name member e old

variable [PyFloat R] [Builtins]

theorem dispatchSingle (p : Pipeline R) (env : Env) {s : Stores R} (ctx : SecurityContext) (c : ChatCall)
    (spans : List TraceSpan) (prepared : Prepared R) (single : p.routing s = none) :
    ∃ reply, (p.dispatch env s ctx c spans prepared).calls = [⟨⟨p.chosenModel c, prepared.messages, c.maxTokens⟩, reply⟩] := by
  unfold dispatch
  simp only [single]
  split
  · exact ⟨_, rfl⟩
  · exact ⟨_, rfl⟩

theorem dispatchRouted {p : Pipeline R} {env : Env} {s : Stores R} {ctx : SecurityContext} {c : ChatCall}
    {spans : List TraceSpan} {prepared : Prepared R} {router : ModelRouter} {reg : BackendRegistry R}
    (routed : p.routing s = some (router, reg)) :
    ∀ call ∈ (p.dispatch env s ctx c spans prepared).calls,
      ∃ entry ∈ reg.all, entry.spec.modelId = call.request.model ∧ ¬ Denies router.policy ctx entry.spec.modelId := by
  unfold dispatch
  simp only [routed]
  split
  · simp [finish]
  · rename_i decision ok
    have walked := invokeRoutedModels (P := fun model =>
      ∃ entry ∈ reg.all, entry.spec.modelId = model ∧ ¬ Denies router.policy ctx entry.spec.modelId) env
      prepared.messages c.maxTokens 0 (decision.backend :: decision.fallbackChain) reg fun name member e there => by
        obtain ⟨entry, registered, rfl, passed⟩ := ModelRouter.routeEligible ok name member
        cases Option.some.inj ((BackendRegistry.getMember registered).symm.trans there)
        exact ⟨_, registered, rfl, checkedNotDenied (ModelRouter.refusalPolicy passed)⟩
    split <;> exact walked

/-! ### The allowlist -/

def Enforced (p : Pipeline R) (env : Env) (s : Stores R) (ctx : SecurityContext) (c : ChatCall) : Prop :=
  ∀ model, Denies p.policy ctx model → ∀ call ∈ (p.run env s ctx c).calls, call.request.model ≠ model

structure Governed (p : Pipeline R) (env : Env) (s : Stores R) (ctx : SecurityContext) (c : ChatCall) : Prop where
  single : p.routing s = none → ∀ found prepared, Reached p env s ctx c found prepared →
    ¬ Denies p.policy ctx (p.chosenModel c)
  routed : ∀ router reg, p.routing s = some (router, reg) → ∀ entry ∈ reg.all,
    Denies p.policy ctx entry.spec.modelId → Denies router.policy ctx entry.spec.modelId

omit [PyFloat R] [Builtins] in
theorem capturedRouting (p : Pipeline R) (s : Stores R) (ctx : SecurityContext) (prepared : Prepared R) :
    p.routing (captured s ctx prepared) = p.routing s := by
  unfold captured
  split <;> rfl

omit [PyFloat R] [Builtins] in
theorem routingRouter {p : Pipeline R} {s : Stores R} {router : ModelRouter} {reg : BackendRegistry R}
    (routed : p.routing s = some (router, reg)) : p.router = some router := by
  unfold routing at routed
  split at routed <;> try contradiction
  rename_i wired _
  split at routed <;> try contradiction
  obtain ⟨rfl, rfl⟩ := Prod.mk.inj (Option.some.inj routed)
  exact wired

theorem governedEnforced {p : Pipeline R} {env s ctx c} (governed : p.Governed env s ctx c) : p.Enforced env s ctx c := by
  intro model denied call member same
  have ending := p.runEnding env s ctx c
  generalize p.run env s ctx c = out at ending member
  cases ending with
  | refused => simp [finish] at member
  | hit => simp [finish] at member
  | @dispatched found prepared reached spans =>
    cases routing : p.routing s with
    | none =>
      obtain ⟨reply, calls⟩ := p.dispatchSingle env ctx c spans prepared
        ((p.capturedRouting s ctx prepared).trans routing)
      rw [calls, List.mem_singleton] at member
      have chosen : p.chosenModel c = model := by rw [← same, member]
      exact governed.single routing found prepared reached (chosen ▸ denied)
    | some routed =>
      obtain ⟨router, reg⟩ := routed
      obtain ⟨entry, registered, model, passed⟩ :=
        p.dispatchRouted ((p.capturedRouting s ctx prepared).trans routing) call member
      exact passed (governed.routed router reg routing entry registered (model.trans same ▸ denied))

theorem allowlistIff (p : Pipeline R) (env : Env) (s : Stores R) (ctx : SecurityContext) (c : ChatCall) :
    (p.Governed env s ctx c → p.Enforced env s ctx c) ∧
    ((∀ router, p.router = some router → router.policy = p.policy) →
      (p.Enforced env s ctx c ↔ p.Governed env s ctx c)) := by
  refine ⟨governedEnforced, fun one => ⟨fun enforced => ⟨fun single found prepared reached denied => ?_, ?_⟩,
    governedEnforced⟩⟩
  · obtain ⟨spans, run⟩ := runReached reached
    obtain ⟨reply, calls⟩ := p.dispatchSingle env ctx c spans prepared
      ((p.capturedRouting s ctx prepared).trans single)
    exact enforced _ denied _ (by rw [run, calls]; exact List.mem_singleton_self _) rfl
  · intro router reg routing entry _ denied
    rwa [one router (routingRouter routing)]

end Pipeline
/-! ### A denied model on the single path -/

def denyLarge : PolicyEngine :=
  ⟨some ⟨"policy-1", "acme", "", [⟨[], [("type", "model")], [.route], .allow⟩, ⟨[], [("model", "large")], [.route], .deny⟩],
    .deny⟩⟩

def singleBackend : Pipeline ℚ where
  adapter := replying "blue" (some "stop")
  policy := denyLarge
  memory := none
  assembler := none
  cache := none
  compressor := none
  replay := none
  router := none
  cost := none
  defaultModel := "default"
  windowTokens := 6000
  compressTarget := 256
  weights := RankWeights.default
  tokenizer := HeuristicTokenizer.default.toTokenizer

def askLarge : ChatCall := ⟨"colour", some "large", 512, none⟩

theorem allowlistIffSample :
    letI := asciiBuiltins [] []
    singleBackend.Enforced (envAt 0 "1") emptyStores (member "acme" "sales") (ask "colour") ↔
      singleBackend.Governed (envAt 0 "1") emptyStores (member "acme" "sales") (ask "colour") :=
  letI := asciiBuiltins [] []
  (singleBackend.allowlistIff (envAt 0 "1") emptyStores (member "acme" "sales") (ask "colour")).2 (by simp [singleBackend])

theorem deniedModelCalled :
    letI := asciiBuiltins [] []
    Denies singleBackend.policy (member "acme" "sales") "large" ∧
      ¬ singleBackend.Enforced (envAt 0 "1") emptyStores (member "acme" "sales") askLarge := by
  let _ := asciiBuiltins [] []
  have denied : Denies singleBackend.policy (member "acme" "sales") "large" := by decide +kernel
  have called : (singleBackend.run (envAt 0 "1") emptyStores (member "acme" "sales") askLarge).calls.any
      (fun call => call.request.model = "large") := by decide +kernel
  obtain ⟨call, sent, same⟩ := List.any_eq_true.mp called
  exact ⟨denied, fun enforced => enforced "large" denied call sent (of_decide_eq_true same)⟩

end ContextOS
