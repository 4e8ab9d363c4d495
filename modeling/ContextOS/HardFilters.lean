import ContextOS.Walk

/-! The hard routing filters, from the registry to the call. A backend passes when the
policy allows its model and its residency, cost and capabilities fit the request; health
plays no part. Routing fails exactly when no registered backend passes, and whoever the
walk visits afterwards is a backend that passed. -/
namespace ContextOS

variable {R : Type} [PyFloat R]

namespace ModelRouter

structure Passes (r : ModelRouter) (ctx : SecurityContext) (f : RouteFilters R) (entry : RegistryEntry R) : Prop where
  allowed : (r.policy.evaluate ctx (namedModelResource ctx entry.spec.modelId) .route).effect = .allow
  residency : ∀ required, f.residency = some required → required ≠ "" → entry.spec.residency = required
  affordable : ∀ ceiling, f.maxCostPer1k = some ceiling → entry.spec.costPer1k ≤ ceiling
  capable : ∀ cap ∈ f.requiredCapabilities, cap ∈ entry.spec.capabilities

theorem refusalIff {r : ModelRouter} {ctx : SecurityContext} {f : RouteFilters R} {entry : RegistryEntry R} :
    r.refusal ctx f entry = none ↔ r.Passes ctx f entry := by
  constructor
  · intro passed
    have allowed := PolicyEngine.checkOk.mp (refusalPolicy passed)
    unfold refusal at passed
    split at passed <;> try contradiction
    dsimp only at passed
    split at passed <;> try contradiction
    rename_i resident
    split at passed <;> try contradiction
    rename_i cheap
    split at passed <;> try contradiction
    rename_i able
    refine ⟨allowed, fun required asked nonempty => ?_, fun ceiling asked => ?_, fun cap asked => ?_⟩
    · simpa [orElse, asked, nonempty] using resident
    · simpa [asked] using cheap
    · have all : ∀ cap ∈ f.requiredCapabilities, cap ∈ entry.spec.capabilities := by simpa using able
      exact all cap asked
  · intro passes
    have resident : ¬ (!(orElse f.residency "").isEmpty ∧ entry.spec.residency ≠ orElse f.residency "") := by
      intro given
      obtain ⟨asked, different⟩ := given
      cases required : f.residency with
      | none => simp [required, orElse] at asked
      | some required' =>
        by_cases empty : required' = ""
        · simp [required, orElse, empty] at asked
        · simp only [required, orElse, String.isEmpty_iff, empty, if_false] at different
          exact different (passes.residency _ required empty)
    have cheap : ¬ f.maxCostPer1k.any (fun ceiling => ceiling < entry.spec.costPer1k) := by
      cases ceiling : f.maxCostPer1k with
      | none => simp
      | some c => simpa using passes.affordable c ceiling
    have able : ¬ f.requiredCapabilities.any (fun cap => cap ∉ entry.spec.capabilities) := by
      simpa using passes.capable
    simp only [refusal, PolicyEngine.checkOk.mpr passes.allowed]
    rw [if_neg resident, if_neg cheap, if_neg able]

theorem eligibleIff {r : ModelRouter} {ctx : SecurityContext} {f : RouteFilters R} {reg : BackendRegistry R}
    {entry : RegistryEntry R} : entry ∈ r.eligible ctx f reg ↔ entry ∈ reg.all ∧ r.Passes ctx f entry := by
  simp only [eligible, List.mem_filter, Option.isNone_iff_eq_none, refusalIff]

variable [Builtins]

theorem routeError {r : ModelRouter} {now ctx query tokens f} {reg : BackendRegistry R} {e : PyError}
    (failed : r.route now ctx query tokens reg f = .error e) :
    e.kind = .noEligibleBackend ∧ ∀ entry ∈ reg.all, ¬ r.Passes ctx f entry := by
  unfold route at failed
  dsimp only at failed
  split at failed
  · rename_i empty
    cases Except.error.inj failed
    refine ⟨rfl, fun entry registered passes => ?_⟩
    have member := eligibleIff.mpr ⟨registered, passes⟩
    rw [List.isEmpty_iff.mp empty] at member
    contradiction
  · rename_i some
    split at failed <;> try contradiction
    rename_i ranked
    -- a pool that is not empty has a first after sorting
    have pool := congrArg List.length ranked
    simp only [rank, List.length_insertionSort, List.length_nil] at pool
    split at pool
    · exact absurd (by simpa using List.length_eq_zero_iff.mp pool) some
    · rename_i healthy
      exact absurd (by simpa using List.length_eq_zero_iff.mp pool) healthy

theorem routeFails {r : ModelRouter} {now ctx query tokens f} {reg : BackendRegistry R}
    (none : ∀ entry ∈ reg.all, ¬ r.Passes ctx f entry) :
    ∃ e, r.route now ctx query tokens reg f = .error e := by
  cases routed : r.route now ctx query tokens reg f with
  | error e => exact ⟨e, rfl⟩
  | ok decision =>
    obtain ⟨entry, registered, _, passed⟩ := routeEligible routed decision.backend List.mem_cons_self
    exact absurd (refusalIff.mp passed) (none entry registered)

theorem routeNamed {r : ModelRouter} {now ctx query tokens f} {reg : BackendRegistry R} {decision}
    (ok : r.route now ctx query tokens reg f = .ok decision) :
    ∀ name ∈ decision.backend :: decision.fallbackChain,
      ∃ entry, reg.get name = some entry ∧ r.Passes ctx f entry := by
  intro name member
  obtain ⟨entry, registered, rfl, passed⟩ := routeEligible ok name member
  exact ⟨entry, BackendRegistry.getMember registered, refusalIff.mp passed⟩

theorem hardFiltersHold (r : ModelRouter) (now : Time) (ctx : SecurityContext) (query : String) (tokens : Int)
    (reg : BackendRegistry R) (f : RouteFilters R) :
    ((∃ e, r.route now ctx query tokens reg f = .error e ∧ e.kind = .noEligibleBackend) ↔
      ∀ entry ∈ reg.all, ¬ r.Passes ctx f entry) ∧
    ((∃ entry ∈ reg.all, r.Passes ctx f entry) → ∃ decision, r.route now ctx query tokens reg f = .ok decision) ∧
    ∀ decision, r.route now ctx query tokens reg f = .ok decision →
      (∀ name ∈ decision.backend :: decision.fallbackChain,
        ∃ entry, reg.get name = some entry ∧ r.Passes ctx f entry) ∧
      ∀ (env : Env) (messages : List ChatMessage) (maxTokens : Int),
        let chain := decision.backend :: decision.fallbackChain
        let visited := Pipeline.visits env messages maxTokens 0 chain reg
        (Pipeline.invokeRouted env messages maxTokens 0 chain reg).calls =
          visited.filterMap (Visit.call messages maxTokens) ∧
        ∀ v ∈ visited, ∃ entry, Pipeline.VisitOf env messages maxTokens chain reg v entry ∧ r.Passes ctx f entry := by
  refine ⟨⟨?_, fun none => ?_⟩, ?_, fun decision ok => ⟨routeNamed ok, fun env messages maxTokens => ?_⟩⟩
  · intro failed
    obtain ⟨e, failed, _⟩ := failed
    exact (routeError failed).2
  · obtain ⟨e, failed⟩ : ∃ e, r.route now ctx query tokens reg f = .error e := routeFails none
    exact ⟨e, failed, (routeError failed).1⟩
  · intro given
    obtain ⟨entry, registered, passes⟩ := given
    cases routed : r.route now ctx query tokens reg f with
    | error e => exact absurd passes ((routeError routed).2 entry registered)
    | ok decision => exact ⟨decision, rfl⟩
  · refine ⟨Pipeline.invokeRoutedCalls env messages maxTokens 0 _ reg, fun v member => ?_⟩
    obtain ⟨entry, visit⟩ := Pipeline.visitRegistered v member
    obtain ⟨found, registered, passes⟩ := routeNamed ok _ visit.named
    cases Option.some.inj (visit.registered.symm.trans registered)
    exact ⟨entry, visit, passes⟩

end ModelRouter
end ContextOS
