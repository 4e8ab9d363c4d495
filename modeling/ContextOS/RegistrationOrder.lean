import ContextOS.Executable
import ContextOS.HardFilters
import ContextOS.Lib.Ranking

/-! Routing does not depend on the order of registration. The registry lists its entries in
that order and the ranking sorts them; where the names differ no two entries tie, so the
sorted pool is one and the same list. Only the reasons keep the order of the registry. -/
namespace ContextOS
open Lib (Dict assignFresh maxPerm sortUnique)

variable {R : Type}

namespace BackendRegistry

def registered (entries : List (RegistryEntry R)) : BackendRegistry R := entries.foldl register empty

theorem registeredFresh {reg : BackendRegistry R} {entry : RegistryEntry R} (fresh : entry.spec.name ∉ reg.byName.keys) :
    (reg.register entry).all = reg.all ++ [entry] ∧ (reg.register entry).byName.keys = reg.byName.keys ++ [entry.spec.name] := by
  have last : (reg.register entry).byName.entries = reg.byName.entries ++ [(entry.spec.name, entry)] :=
    assignFresh fresh entry
  constructor
  · rw [all, Dict.values, last, List.map_append]
    rfl
  · rw [Dict.keys, last, List.map_append]
    rfl

theorem registeredOnto {reg : BackendRegistry R} {entries : List (RegistryEntry R)} (distinct : (entries.map (·.spec.name)).Nodup)
    (fresh : ∀ entry ∈ entries, entry.spec.name ∉ reg.byName.keys) : (entries.foldl register reg).all = reg.all ++ entries := by
  induction entries generalizing reg with
  | nil => simp
  | cons entry rest ih =>
    obtain ⟨different, distinct⟩ := List.nodup_cons.mp distinct
    obtain ⟨all, keys⟩ := registeredFresh (fresh entry List.mem_cons_self)
    rw [List.foldl_cons, ih distinct, all, List.append_assoc, List.singleton_append]
    intro later member
    rw [keys, List.mem_append, List.mem_singleton]
    rintro (taken | same)
    · exact fresh later (List.mem_cons_of_mem _ member) taken
    · exact different (List.mem_map.mpr ⟨later, member, same⟩)

theorem registeredAll {entries : List (RegistryEntry R)} (distinct : (entries.map (·.spec.name)).Nodup) :
    (registered entries).all = entries :=
  registeredOnto distinct fun _ _ member => by simp [empty, Dict.empty, Dict.keys] at member

/-- An entry is listed under its own name, and names are keys. -/
theorem namesDistinct (reg : BackendRegistry R) : (reg.all.map (·.spec.name)).Nodup := by
  have names : reg.all.map (·.spec.name) = reg.byName.keys := by
    rw [all, Dict.values, Dict.keys, List.map_map]
    refine List.map_congr_left fun pair member => ?_
    exact reg.named pair.1 pair.2 (Lib.memberFind reg.byName.distinct member)
  rw [names]
  exact reg.byName.distinct

end BackendRegistry

variable [PyFloat R]

structure SameDecision (decision other : RouteDecision R) : Prop where
  backend : decision.backend = other.backend
  modelId : decision.modelId = other.modelId
  utility : decision.utility = other.utility
  difficulty : decision.difficulty = other.difficulty
  fallbackChain : decision.fallbackChain = other.fallbackChain
  fromSafeDefault : decision.fromSafeDefault = other.fromSafeDefault

inductive SameRouting : Except PyError (RouteDecision R) → Except PyError (RouteDecision R) → Prop
  | refused {e e' : PyError} (first : e.kind = .noEligibleBackend) (second : e'.kind = .noEligibleBackend) :
      SameRouting (.error e) (.error e')
  | routed {decision other : RouteDecision R} (same : SameDecision decision other) : SameRouting (.ok decision) (.ok other)

namespace ModelRouter

instance (score : RegistryEntry R → R) : Std.Total (stronger score) where
  total a b := by
    rcases lt_trichotomy (score a) (score b) with lower | same | higher
    · exact .inr (.inl lower)
    · exact (String.le_total b.spec.name a.spec.name).imp (fun le => .inr ⟨same, le⟩) fun le => .inr ⟨same.symm, le⟩
    · exact .inl (.inl higher)

instance (score : RegistryEntry R → R) : IsTrans (RegistryEntry R) (stronger score) where
  trans a b c first second := by
    rcases first with higher | ⟨same, name⟩
    · rcases second with next | ⟨equal, _⟩
      · exact .inl (next.trans higher)
      · exact .inl (equal ▸ higher)
    · rcases second with next | ⟨equal, rest⟩
      · exact .inl (same ▸ next)
      · exact .inr ⟨same.trans equal, String.le_trans rest name⟩

theorem strongerName {score : RegistryEntry R → R} {a b : RegistryEntry R} (first : stronger score a b)
    (second : stronger score b a) : a.spec.name = b.spec.name := by
  rcases first with higher | ⟨same, name⟩
  · rcases second with lower | ⟨equal, _⟩
    · exact absurd higher lower.not_gt
    · exact absurd equal higher.ne
  · rcases second with lower | ⟨_, rest⟩
    · exact absurd same lower.ne
    · exact String.le_antisymm rest name

theorem rankPerm (difficulty : R) {pool other : List (RegistryEntry R)} (distinct : (pool.map (·.spec.name)).Nodup)
    (same : pool.Perm other) : rank difficulty pool = rank difficulty other := by
  unfold rank
  rw [maxPerm (same.map (·.spec.costPer1k)), maxPerm (same.map (·.spec.p50LatencyMs))]
  refine Prod.ext (sortUnique same fun a inA b inB first second => ?_) rfl
  exact List.inj_on_of_nodup_map distinct inA inB (strongerName first second)

section Pool
variable {r : ModelRouter} {now : Time} {ctx : SecurityContext} {f : RouteFilters R} {reg other : BackendRegistry R}

theorem poolSublist : (r.pool now ctx f reg).Sublist reg.all := poolEligible.trans List.filter_sublist

theorem poolDistinct : ((r.pool now ctx f reg).map (·.spec.name)).Nodup :=
  reg.namesDistinct.sublist (poolSublist.map _)

theorem poolPerm (same : reg.all.Perm other.all) : (r.pool now ctx f reg).Perm (r.pool now ctx f other) := by
  have eligible : (r.eligible ctx f reg).Perm (r.eligible ctx f other) := same.filter _
  have healthy := eligible.filter (fun e => e.breaker.allows now)
  unfold pool
  dsimp only
  rw [← healthy.isEmpty_eq]
  split
  · exact eligible
  · exact healthy

end Pool

variable [Builtins]

theorem routePerm (r : ModelRouter) (now : Time) (ctx : SecurityContext) (query : String) (assembledTokens : Int)
    {reg other : BackendRegistry R} (f : RouteFilters R) (same : reg.all.Perm other.all) :
    SameRouting (r.route now ctx query assembledTokens reg f) (r.route now ctx query assembledTokens other f) := by
  have eligible : (r.eligible ctx f reg).Perm (r.eligible ctx f other) := same.filter _
  have healthy := eligible.filter (fun e => e.breaker.allows now)
  have ranked : rank (estimateDifficulty query assembledTokens) (r.pool now ctx f reg) =
      rank (estimateDifficulty query assembledTokens) (r.pool now ctx f other) :=
    rankPerm _ poolDistinct (poolPerm same)
  unfold pool at ranked
  dsimp only at ranked
  unfold route
  dsimp only
  rw [ranked, eligible.isEmpty_eq, healthy.isEmpty_eq]
  split
  · exact .refused rfl rfl
  · split
    · exact .refused rfl rfl
    · exact .routed ⟨rfl, rfl, rfl, rfl, rfl, rfl⟩

theorem registrationOrder (r : ModelRouter) (now : Time) (ctx : SecurityContext) (query : String) (assembledTokens : Int)
    (f : RouteFilters R) {entries others : List (RegistryEntry R)} (distinct : (entries.map (·.spec.name)).Nodup)
    (same : entries.Perm others) : SameRouting (r.route now ctx query assembledTokens (.registered entries) f)
      (r.route now ctx query assembledTokens (.registered others) f) := by
  refine r.routePerm now ctx query assembledTokens f ?_
  rw [BackendRegistry.registeredAll distinct, BackendRegistry.registeredAll ((same.map _).nodup_iff.mp distinct)]
  exact same

omit [PyFloat R] [Builtins] in
theorem routedAs {α : Type} {r : Except PyError (RouteDecision R)} {view : RouteDecision R → α} {seen : α}
    (routed : r.toOption.map view = some seen) : ∃ decision, r = .ok decision ∧ view decision = seen := by
  cases r with
  | error e => contradiction
  | ok decision => exact ⟨decision, rfl, Option.some.inj routed⟩

omit [Builtins] in
theorem registrationOrderSample : letI := asciiBuiltins [] []
    let small : RegistryEntry ℚ := { opusBackend with spec := { opusBackend.spec with name := "small", costPer1k := 0.001 } }
    ([opusBackend, small].map (·.spec.name)).Nodup ∧ [opusBackend, small].Perm [small, opusBackend] ∧
    SameRouting (route ⟨⟨none⟩⟩ 0 (member "acme" "sales") "hi" 40 (.registered [opusBackend, small]) .none)
      (route ⟨⟨none⟩⟩ 0 (member "acme" "sales") "hi" 40 (.registered [small, opusBackend]) .none) := by
  let _ := asciiBuiltins [] []
  exact ⟨by decide, .swap _ _ _, registrationOrder _ _ _ _ _ _ (by decide) (.swap _ _ _)⟩

end ModelRouter
end ContextOS
