import ContextOS.Executable

/-! What a rule list decides, whatever its order. The walk stops at the first matching deny
and remembers that something allowed; the effect only asks whether there is a matching deny
and whether there is a matching allow. Tenant and namespace of the principal are written over its attributes. -/
namespace ContextOS
open Lib (Dict)

def SecurityContext.withAttributes (ctx : SecurityContext) (attributes : Dict String String) : SecurityContext :=
  { ctx with principal := { ctx.principal with attributes := attributes } }

namespace PolicyEngine

/-- The effect without the walk: deny before allow before the default. -/
def overriding (ctx : SecurityContext) (resource : Dict String String) (action : Action) (policy : RBACPolicy) : Effect :=
  if ∃ rule ∈ policy.rules, ruleMatches ctx resource action rule ∧ rule.effect = .deny then .deny
  else if ∃ rule ∈ policy.rules, ruleMatches ctx resource action rule ∧ rule.effect = .allow then .allow
  else policy.defaultEffect

/-- The maps differ at most in the two names that the engine writes itself. -/
def SameButScope (attributes others : Dict String String) : Prop :=
  ∀ name, name ≠ "tenant_id" → name ≠ "namespace" → attributes.get name = others.get name

def OwnTenant (ctx : SecurityContext) (resource : Dict String String) : Prop :=
  ∀ tenant, resource.get "tenant_id" = some tenant → tenant = ctx.tenantId

theorem evaluateInside {e : PolicyEngine} {ctx : SecurityContext} {resource : Dict String String} (own : OwnTenant ctx resource)
    (action : Action) : e.evaluate ctx resource action = evaluate.inside e ctx resource action := by
  unfold evaluate
  split
  · rename_i tenant found
    rw [if_neg (not_not.mpr (own tenant found))]
  · rfl

/-! ### The walk -/

section Walk
variable {ctx : SecurityContext} {resource : Dict String String} {action : Action} {default : Effect}

theorem walkDenied {rules : List PolicyRule} (denied : ∃ rule ∈ rules, ruleMatches ctx resource action rule ∧ rule.effect = .deny)
    (allowHit : Bool) : (walkRules ctx resource action default allowHit rules).effect = .deny := by
  induction rules generalizing allowHit with
  | nil => simp at denied
  | cons first rest ih =>
    obtain ⟨rule, member, applies, deny⟩ := denied
    unfold walkRules
    rcases List.mem_cons.mp member with rfl | later
    · rw [applies, deny]
      rfl
    · split
      · exact ih ⟨rule, later, applies, deny⟩ allowHit
      · split
        · rfl
        · exact ih ⟨rule, later, applies, deny⟩ true

theorem walkUndenied {rules : List PolicyRule} (undenied : ¬ ∃ rule ∈ rules, ruleMatches ctx resource action rule ∧ rule.effect = .deny)
    (allowHit : Bool) : (walkRules ctx resource action default allowHit rules).effect =
      if allowHit ∨ ∃ rule ∈ rules, ruleMatches ctx resource action rule ∧ rule.effect = .allow then .allow else default := by
  induction rules generalizing allowHit with
  | nil =>
    unfold walkRules
    split <;> simp_all
  | cons first rest ih =>
    have later : ¬ ∃ rule ∈ rest, ruleMatches ctx resource action rule ∧ rule.effect = .deny := fun ⟨rule, member, found⟩ =>
      undenied ⟨rule, List.mem_cons_of_mem _ member, found⟩
    unfold walkRules
    split
    · rename_i skipped
      rw [ih later]
      simp_all
    · rename_i applies
      split
      · rename_i deny
        exact absurd ⟨first, List.mem_cons_self, by simpa using applies, deny⟩ undenied
      · rename_i notDeny
        have allow : first.effect = .allow := by
          cases effect : first.effect with
          | allow => rfl
          | deny => exact absurd effect notDeny
        rw [ih later, if_pos (.inl rfl), if_pos (.inr ⟨first, List.mem_cons_self, by simpa using applies, allow⟩)]

end Walk

theorem overridden {ctx : SecurityContext} {resource : Dict String String} (own : OwnTenant ctx resource) {policy : RBACPolicy}
    (some : policy.rules ≠ []) (action : Action) :
    ((mk (.some policy)).evaluate ctx resource action).effect = overriding ctx resource action policy := by
  rw [evaluateInside own]
  simp only [evaluate.inside, List.isEmpty_eq_false_iff.mpr some, Bool.false_eq_true, if_false, overriding]
  split
  · rename_i denied
    exact walkDenied denied false
  · rename_i undenied
    rw [walkUndenied undenied]
    simp

/-! ### What the effect does not depend on -/

theorem overridingMembers (ctx : SecurityContext) (resource : Dict String String) (action : Action) {policy : RBACPolicy}
    {rules : List PolicyRule} (same : ∀ rule, rule ∈ rules ↔ rule ∈ policy.rules) :
    overriding ctx resource action { policy with rules := rules } = overriding ctx resource action policy := by
  simp only [overriding, same]

theorem matchesScope {ctx : SecurityContext} {others : Dict String String} (same : SameButScope ctx.principal.attributes others)
    (resource : Dict String String) (action : Action) (rule : PolicyRule) :
    ruleMatches (ctx.withAttributes others) resource action rule = ruleMatches ctx resource action rule := by
  have read : ∀ name, (principalAttrs (ctx.withAttributes others)).get name = (principalAttrs ctx).get name := fun name => by
    simp only [principalAttrs, SecurityContext.withAttributes, Dict.getSet]
    split
    · rfl
    · rename_i otherThanNamespace
      split
      · rfl
      · rename_i otherThanTenant
        exact (same name otherThanTenant otherThanNamespace).symm
  simp only [ruleMatches, attrsMatch, read]
  rfl

theorem overridingScope {ctx : SecurityContext} {others : Dict String String} (same : SameButScope ctx.principal.attributes others)
    (resource : Dict String String) (action : Action) (policy : RBACPolicy) :
    overriding (ctx.withAttributes others) resource action policy = overriding ctx resource action policy := by
  simp only [overriding, matchesScope same]

/-! ### The decision -/

structure DenyOverrides (ctx : SecurityContext) (resource : Dict String String) (action : Action) (policy : RBACPolicy) : Prop where
  effect : ((mk (.some policy)).evaluate ctx resource action).effect = overriding ctx resource action policy
  rules : ∀ rules, (∀ rule, rule ∈ rules ↔ rule ∈ policy.rules) →
    ((mk (.some { policy with rules := rules })).evaluate ctx resource action).effect =
      ((mk (.some policy)).evaluate ctx resource action).effect
  principal : ∀ others, SameButScope ctx.principal.attributes others →
    ((mk (.some policy)).evaluate (ctx.withAttributes others) resource action).effect =
      ((mk (.some policy)).evaluate ctx resource action).effect

theorem denyOverrides {ctx : SecurityContext} {resource : Dict String String} {policy : RBACPolicy}
    (own : OwnTenant ctx resource) (some : policy.rules ≠ []) (action : Action) : DenyOverrides ctx resource action policy := by
  have effect := overridden own some action
  refine ⟨effect, fun rules same => ?_, fun others same => ?_⟩
  · have listed : rules ≠ [] := by
      obtain ⟨rule, member⟩ := List.exists_mem_of_ne_nil _ some
      exact List.ne_nil_of_mem ((same rule).mpr member)
    rw [effect, ← overridingMembers ctx resource action same]
    exact overridden own listed action
  · have ownAgain : OwnTenant (ctx.withAttributes others) resource := own
    rw [effect, overridden ownAgain some action, overridingScope same]

def teamPolicy : RBACPolicy := ⟨"policy", "acme", "",
  [⟨[("team", "red")], [("type", "memory")], [.read], .allow⟩, ⟨[("namespace", "sales")], [], [.read], .deny⟩], .deny⟩

theorem denyOverridesSample :
    DenyOverrides (member "acme" "sales") (Dict.ofList [("type", "memory"), ("tenant_id", "acme")]) .read teamPolicy := by
  have tenant : (Dict.ofList [("type", "memory"), ("tenant_id", "acme")]).get "tenant_id" = some "acme" := by decide
  exact denyOverrides (fun _ found => Option.some.inj (found.symm.trans tenant)) (by decide) .read

end PolicyEngine
end ContextOS
