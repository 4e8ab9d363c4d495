import ContextOS.DenyOverrides

/-! What a loaded policy can allow. With rules the floor is not consulted, so whether a
resource lies in another namespace or the policy is another tenant's plays no part any
more; an empty rule list means the floor, whatever the default effect is. -/
namespace ContextOS
open Lib (Dict)

-- a key with the wildcard for its value matches anything
def PolicyRule.ConstrainsSharing (rule : PolicyRule) : Prop :=
  ∃ kv ∈ rule.resourceMatch, (kv.1 = "namespace" ∨ kv.1 = "visibility") ∧ kv.2 ≠ "*"

namespace PolicyEngine

section Deciding
variable (ctx : SecurityContext) (resource : Dict String String) (action : Action) (policy : RBACPolicy)

def Denies : Prop := ∃ rule ∈ policy.rules, ruleMatches ctx resource action rule ∧ rule.effect = .deny

def Grants : Prop := ∃ rule ∈ policy.rules, ruleMatches ctx resource action rule ∧ rule.effect = .allow

instance : Decidable (Denies ctx resource action policy) := inferInstanceAs (Decidable (∃ rule ∈ policy.rules, _))

instance : Decidable (Grants ctx resource action policy) := inferInstanceAs (Decidable (∃ rule ∈ policy.rules, _))

-- the rules do not come to an ALLOW, neither by one of them nor by default
def Withholds : Prop := Denies ctx resource action policy ∨ ¬ Grants ctx resource action policy ∧ policy.defaultEffect = .deny

def floorAllows : Prop := ((mk none).evaluate ctx resource action).effect = .allow

end Deciding

variable {ctx : SecurityContext} {resource : Dict String String} {action : Action} {policy : RBACPolicy}

theorem foreignDenied (e : PolicyEngine) (foreign : ¬ OwnTenant ctx resource) : (e.evaluate ctx resource action).effect = .deny := by
  unfold evaluate
  split
  · rename_i tenant found
    rw [if_pos]
    intro same
    refine foreign fun other found' => ?_
    rw [found] at found'
    exact (Option.some.inj found').symm.trans same
  · rename_i missing
    exact absurd (fun tenant found => by rw [missing] at found; contradiction) foreign

theorem emptyFloor (empty : policy.rules = []) : (mk (some policy)).evaluate ctx resource action = (mk none).evaluate ctx resource action := by
  simp [evaluate, evaluate.inside, empty]

theorem allowedIff (own : OwnTenant ctx resource) (some : policy.rules ≠ []) :
    ((mk (.some policy)).evaluate ctx resource action).effect = .allow ↔ ¬ Withholds ctx resource action policy := by
  rw [overridden own some, overriding]
  change (if Denies ctx resource action policy then Effect.deny else if Grants ctx resource action policy then .allow
    else policy.defaultEffect) = .allow ↔ _
  unfold Withholds
  split
  · rename_i denied
    simp [denied]
  · rename_i undenied
    split
    · rename_i granted
      simp [undenied, granted]
    · rename_i ungranted
      cases effect : policy.defaultEffect <;> simp [undenied, ungranted]

theorem floorOtherNamespace {ns : String} (named : resource.get "namespace" = some ns) (other : ns ≠ ctx.namespaceId) :
    ¬ floorAllows ctx resource action := by
  unfold floorAllows
  by_cases own : OwnTenant ctx resource
  · rw [evaluateInside own]
    simp [evaluate.inside, defaultFloor, named, other]
  · rw [foreignDenied _ own]
    simp

/-! ### Other namespaces -/

def ExplicitlyGranted (ctx : SecurityContext) (resource : Dict String String) (action : Action) (policy : RBACPolicy) : Prop :=
  ((mk (some policy)).evaluate ctx resource action).effect = .allow →
    ∃ rule ∈ policy.rules, ruleMatches ctx resource action rule ∧ rule.effect = .allow ∧ rule.ConstrainsSharing

theorem explicitlyGrantedIff {ns : String} (own : OwnTenant ctx resource) (named : resource.get "namespace" = some ns)
    (other : ns ≠ ctx.namespaceId) : ExplicitlyGranted ctx resource action policy ↔
      policy.rules = [] ∨ Withholds ctx resource action policy ∨
        ∃ rule ∈ policy.rules, ruleMatches ctx resource action rule ∧ rule.effect = .allow ∧ rule.ConstrainsSharing := by
  unfold ExplicitlyGranted
  by_cases empty : policy.rules = []
  · have floor : ¬ floorAllows ctx resource action := floorOtherNamespace named other
    rw [emptyFloor empty]
    exact iff_of_true (fun allowed => absurd allowed floor) (.inl empty)
  · rw [allowedIff own empty, or_iff_right empty]
    exact or_iff_not_imp_left.symm

def loosePolicy (tenant : String) : RBACPolicy := ⟨"policy", tenant, "", [⟨[], [], [.read, .delete], .allow⟩], .deny⟩

theorem readAcross : ¬ ExplicitlyGranted (member "acme" "sales") (Dict.ofList [("tenant_id", "acme"), ("namespace", "legal")]) .read
    (loosePolicy "acme") := by
  intro granted
  obtain ⟨rule, member, _, _, kv, constrained, _⟩ := granted (by decide)
  rw [loosePolicy, List.mem_singleton] at member
  subst member
  simp at constrained

theorem explicitlyGrantedSample :
    ExplicitlyGranted (member "acme" "sales") (Dict.ofList [("tenant_id", "acme"), ("namespace", "legal")]) .read teamPolicy ↔
      teamPolicy.rules = [] ∨
        Withholds (member "acme" "sales") (Dict.ofList [("tenant_id", "acme"), ("namespace", "legal")]) .read teamPolicy ∨
        ∃ rule ∈ teamPolicy.rules,
          ruleMatches (member "acme" "sales") (Dict.ofList [("tenant_id", "acme"), ("namespace", "legal")]) .read rule ∧
            rule.effect = .allow ∧ rule.ConstrainsSharing := by
  have tenant : (Dict.ofList [("tenant_id", "acme"), ("namespace", "legal")]).get "tenant_id" = some "acme" := by decide
  exact explicitlyGrantedIff (fun _ found => Option.some.inj (found.symm.trans tenant)) (by decide) (by decide : "legal" ≠ "sales")

/-! ### Other tenants -/

/-- Outside its own tenant the policy allows nothing that no policy would allow. -/
def PowerlessOutside (ctx : SecurityContext) (resource : Dict String String) (action : Action) (policy : RBACPolicy) : Prop :=
  policy.tenantId ≠ ctx.tenantId ∨ ¬ OwnTenant ctx resource →
    ((mk (some policy)).evaluate ctx resource action).effect = .allow → floorAllows ctx resource action

theorem powerlessOutsideIff (ctx : SecurityContext) (resource : Dict String String) (action : Action) (policy : RBACPolicy) :
    PowerlessOutside ctx resource action policy ↔
      policy.tenantId = ctx.tenantId ∨ ¬ OwnTenant ctx resource ∨ policy.rules = [] ∨ Withholds ctx resource action policy ∨
        floorAllows ctx resource action := by
  unfold PowerlessOutside
  by_cases own : OwnTenant ctx resource
  · by_cases empty : policy.rules = []
    · rw [emptyFloor empty]
      exact iff_of_true (fun _ allowed => allowed) (.inr (.inr (.inl empty)))
    · rw [allowedIff own empty]
      simp only [own, empty, not_true_eq_false, or_false, false_or]
      rw [or_iff_not_imp_left, or_iff_not_imp_left]
  · rw [foreignDenied _ own]
    simp [own]

theorem deletesElsewhere : ¬ PowerlessOutside (member "acme" "sales") (Dict.ofList [("namespace", "sales")]) .delete (loosePolicy "evil") := by
  intro powerless
  have floor := powerless (.inl (by decide)) (by decide)
  unfold floorAllows at floor
  revert floor
  decide

/-! ### Added denies -/

theorem deniesMore {rules : List PolicyRule} (more : policy.rules ⊆ rules) (denied : Denies ctx resource action policy) :
    Denies ctx resource action { policy with rules := rules } := by
  obtain ⟨rule, member, found⟩ := denied
  exact ⟨rule, more member, found⟩

section Added
variable {front back : List PolicyRule} {rule : PolicyRule} (split : policy.rules = front ++ back) (deny : rule.effect = .deny)
include split deny

theorem grantsAdded : Grants ctx resource action { policy with rules := front ++ rule :: back } ↔ Grants ctx resource action policy := by
  constructor
  · rintro ⟨found, member, applies, allow⟩
    refine ⟨found, ?_, applies, allow⟩
    rw [split]
    rcases List.mem_append.mp member with early | later
    · exact List.mem_append_left _ early
    · rcases List.mem_cons.mp later with rfl | late
      · rw [deny] at allow
        contradiction
      · exact List.mem_append_right _ late
  · rintro ⟨found, member, applies, allow⟩
    rw [split] at member
    refine ⟨found, ?_, applies, allow⟩
    exact (List.mem_append.mp member).elim (List.mem_append_left _) fun late => List.mem_append_right _ (List.mem_cons_of_mem _ late)

/-- The first rule of a policy replaces the floor by the default effect. -/
theorem addedDenyAllows (denied : ((mk (some policy)).evaluate ctx resource action).effect = .deny) :
    ((mk (some { policy with rules := front ++ rule :: back })).evaluate ctx resource action).effect = .allow ↔
      OwnTenant ctx resource ∧ policy.rules = [] ∧ policy.defaultEffect = .allow ∧ ruleMatches ctx resource action rule = false := by
  by_cases own : OwnTenant ctx resource
  · have added : (front ++ rule :: back) ≠ [] := by simp
    rw [allowedIff own added]
    by_cases empty : policy.rules = []
    · obtain ⟨rfl, rfl⟩ := List.append_eq_nil_iff.mp (split.symm.trans empty)
      have ungranted : ¬ Grants ctx resource action policy := by simp [Grants, empty]
      rw [Withholds, grantsAdded split deny]
      cases applies : ruleMatches ctx resource action rule <;> cases effect : policy.defaultEffect <;>
        simp [Denies, own, empty, ungranted, deny, applies]
    · have withheld : Withholds ctx resource action policy := by
        by_contra allows
        rw [(allowedIff own empty).mpr allows] at denied
        contradiction
      have still : Withholds ctx resource action { policy with rules := front ++ rule :: back } := by
        unfold Withholds at withheld ⊢
        rw [grantsAdded split deny]
        refine withheld.imp_left (deniesMore ?_)
        rw [split]
        exact List.append_subset.mpr ⟨List.subset_append_left _ _, fun x late => List.mem_append_right _ (List.mem_cons_of_mem _ late)⟩
      simp [still, empty]
  · rw [foreignDenied _ own]
    simp [own]

end Added

theorem denyAllows :
    let closed : PolicyRule := ⟨[], [("type", "secret")], [.read], .deny⟩
    let open_ : RBACPolicy := ⟨"policy", "acme", "", [], .allow⟩
    let resource := Dict.ofList [("tenant_id", "acme"), ("namespace", "sales")]
    ((mk (some open_)).evaluate (member "acme" "sales") resource .delete).effect = .deny ∧
      ((mk (some { open_ with rules := [closed] })).evaluate (member "acme" "sales") resource .delete).effect = .allow := by
  decide

theorem addedDenySample :
    let closed : PolicyRule := ⟨[], [], [.delete], .deny⟩
    let open_ : RBACPolicy := ⟨"policy", "acme", "", [], .allow⟩
    let resource := Dict.ofList [("namespace", "sales")]
    ((mk (some { open_ with rules := [closed] })).evaluate (member "acme" "sales") resource .delete).effect = .allow ↔
      OwnTenant (member "acme" "sales") resource ∧ open_.rules = [] ∧ open_.defaultEffect = .allow ∧
        ruleMatches (member "acme" "sales") resource .delete closed = false := by
  intro closed open_ resource
  have split : open_.rules = [] ++ [] := rfl
  have deny : closed.effect = .deny := rfl
  exact addedDenyAllows split deny (by decide)

end PolicyEngine
end ContextOS
