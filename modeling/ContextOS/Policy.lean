import ContextOS.Models

/-! The policy engine: deny-overrides over a default-deny floor, behind an absolute
tenant boundary. The first matching deny decides at once. With no rules loaded the owner
may act in its own namespace, and nothing else. The resource of the authorization stage
names the tenant, that of the router's filter the model too. -/
namespace ContextOS
open Lib (Dict)

structure PolicyRule where
  principalMatch : List (String × String)
  resourceMatch : List (String × String)
  actions : List Action
  effect : Effect
  deriving DecidableEq, Repr

structure RBACPolicy where
  id : String
  tenantId : String
  description : String
  rules : List PolicyRule
  defaultEffect : Effect
  deriving DecidableEq, Repr

structure Decision where
  effect : Effect
  reason : String
  deriving DecidableEq, Repr

def Decision.allowed (d : Decision) : Bool := d.effect = .allow

def Action.show : Action → String
  | .read => "Action.READ"
  | .write => "Action.WRITE"
  | .delete => "Action.DELETE"
  | .admin => "Action.ADMIN"
  | .route => "Action.ROUTE"
  | .cacheRead => "Action.CACHE_READ"

def attrsMatch (required : List (String × String)) (attrs : Dict String String) : Bool :=
  required.all (fun kv => kv.2 = "*" || attrs.get kv.1 = some kv.2)

structure PolicyEngine where
  policy : Option RBACPolicy

namespace PolicyEngine

def principalAttrs (ctx : SecurityContext) : Dict String String :=
  (ctx.principal.attributes.set "tenant_id" ctx.tenantId).set "namespace" ctx.namespaceId

def resourceAttrs (ctx : SecurityContext) (resource : Dict String String) : Dict String String :=
  resource.set "namespace" (orElse (resource.get "namespace") ctx.namespaceId)

def ruleMatches (ctx : SecurityContext) (resource : Dict String String) (action : Action)
    (rule : PolicyRule) : Bool :=
  action ∈ rule.actions && attrsMatch rule.principalMatch (principalAttrs ctx) &&
    attrsMatch rule.resourceMatch (resourceAttrs ctx resource)

def walkRules (ctx : SecurityContext) (resource : Dict String String) (action : Action) (defaultEffect : Effect) :
    Bool → List PolicyRule → Decision
  | allowHit, [] =>
    if allowHit then ⟨.allow, "matched allow rule, no deny override"⟩
    else ⟨defaultEffect, "no matching rule; default effect applied"⟩
  | allowHit, rule :: rest =>
    if !ruleMatches ctx resource action rule then walkRules ctx resource action defaultEffect allowHit rest
    else if rule.effect = .deny then ⟨.deny, "explicit deny rule (deny-overrides)"⟩
    else walkRules ctx resource action defaultEffect true rest

def defaultFloor (ctx : SecurityContext) (resource : Dict String String) (action : Action) : Decision :=
  if (resource.get "namespace").any (· ≠ ctx.namespaceId) then
    ⟨.deny, "namespace mismatch under default-deny floor"⟩
  else if action ∈ [Action.read, .write, .cacheRead, .route] then
    ⟨.allow, "default floor: owner, same tenant+namespace"⟩
  else ⟨.deny, s!"default-deny: {action.show} requires an explicit policy"⟩

def evaluate (e : PolicyEngine) (ctx : SecurityContext) (resource : Dict String String) (action : Action) :
    Decision :=
  match resource.get "tenant_id" with
  | some tenant =>
    if tenant ≠ ctx.tenantId then
      ⟨.deny, s!"cross-tenant access denied ({tenant} != {ctx.tenantId})"⟩
    else inside
  | none => inside
where
  inside : Decision :=
    match e.policy with
    | none => defaultFloor ctx resource action
    | some policy =>
      if policy.rules.isEmpty then defaultFloor ctx resource action
      else walkRules ctx resource action policy.defaultEffect false policy.rules

def check (e : PolicyEngine) (ctx : SecurityContext) (resource : Dict String String) (action : Action) :
    Except PyError Unit :=
  let decision := e.evaluate ctx resource action
  if !decision.allowed then .error ⟨.accessDenied, decision.reason⟩ else .ok ()

theorem checkOk {e : PolicyEngine} {ctx resource action} :
    e.check ctx resource action = .ok () ↔ (e.evaluate ctx resource action).effect = .allow := by
  by_cases allowed : (e.evaluate ctx resource action).effect = .allow <;>
    simp [check, Decision.allowed, allowed]

end PolicyEngine

def modelResource (ctx : SecurityContext) : Dict String String :=
  Dict.ofList [("type", "model"), ("tenant_id", ctx.tenantId)]

def namedModelResource (ctx : SecurityContext) (modelId : String) : Dict String String :=
  Dict.ofList [("type", "model"), ("tenant_id", ctx.tenantId), ("model", modelId)]

end ContextOS
