import ContextOS.Policy
import ContextOS.Text
import Mathlib.Data.List.Sort

/-! Circuit breakers, the difficulty heuristic and the model router: hard filters that
fail closed, then a ranking that fails open. Whatever the breakers say, only entries that
passed every hard filter are in the chain. An entry is registered under its own name. -/
namespace ContextOS
open Lib (Dict)

/-! ### Circuit breaker -/

inductive BreakerState where
  | closed
  | open_
  | halfOpen
  deriving DecidableEq, Repr

structure CircuitBreaker where
  threshold : Int
  /-- `timedelta(seconds=cooldown)`, in microseconds. -/
  cooldown : Int
  failures : Int
  openedAt : Option Time
  deriving DecidableEq, Repr

namespace CircuitBreaker

def new (threshold cooldown : Int) : CircuitBreaker := ⟨threshold, cooldown, 0, none⟩

def default : CircuitBreaker := new 3 30000000

def state (b : CircuitBreaker) (now : Time) : BreakerState :=
  match b.openedAt with
  | none => .closed
  | some openedAt => if b.cooldown ≤ now - openedAt then .halfOpen else .open_

def allows (b : CircuitBreaker) (now : Time) : Bool := b.state now ≠ .open_

def recordSuccess (b : CircuitBreaker) : CircuitBreaker := { b with failures := 0, openedAt := none }

def recordFailure (b : CircuitBreaker) (now : Time) : CircuitBreaker :=
  let failures := b.failures + 1
  { b with failures := failures, openedAt := if b.threshold ≤ failures then some now else b.openedAt }

end CircuitBreaker

/-- The alternatives of the keyword pattern, with its optional parts written out. -/
def hardKeywords : List String :=
  ["prove", "derive", "analyz", "debug", "optimise", "optimize", "architect", "design", "refactor",
   "reason", "explain why", "step by step", "tradeoff", "trade-off"]

section Difficulty
variable [Builtins]

def prefixFolded : List Char → List Char → Bool
  | [], _ => true
  | _ :: _, [] => false
  | k :: ks, c :: cs => Builtins.foldCase c == k && prefixFolded ks cs

-- `_HARD.search(query)`: a keyword at a word boundary
def hardFrom (afterWord : Bool) : List Char → Bool
  | [] => false
  | c :: rest =>
    (!afterWord && hardKeywords.any (fun k => prefixFolded k.toList (c :: rest))) ||
      hardFrom (Builtins.isWord c) rest

variable {R : Type} [PyFloat R]

def estimateDifficulty (query : String) (assembledTokens : Int) : R :=
  let words : R := (splitWords query).length
  let lengthSignal : R := min 1 (words / 60.0)
  let tokenSignal : R := min 1 ((assembledTokens : R) / 4000.0)
  let keywordSignal : R := if hardFrom false query.toList then 0.3 else 0
  min 1 (0.45 * lengthSignal + 0.35 * tokenSignal + keywordSignal)

end Difficulty

/-! ### Registry -/

structure BackendSpec (R : Type) where
  name : String
  modelId : String
  costPer1k : R
  quality : R
  p50LatencyMs : R
  residency : String
  capabilities : List String
  tags : List String
  deriving DecidableEq

structure RegistryEntry (R : Type) where
  spec : BackendSpec R
  adapter : Adapter
  breaker : CircuitBreaker

structure BackendRegistry (R : Type) where
  byName : Dict String (RegistryEntry R)
  named : ∀ name entry, byName.get name = some entry → entry.spec.name = name

namespace BackendRegistry
variable {R : Type}

def empty : BackendRegistry R := ⟨Dict.empty, by simp⟩

def register (reg : BackendRegistry R) (entry : RegistryEntry R) : BackendRegistry R where
  byName := reg.byName.set entry.spec.name entry
  named name found there := by
    by_cases same : name = entry.spec.name
    · subst same
      rw [Dict.getSetSelf] at there
      cases Option.some.inj there
      rfl
    · exact reg.named name found ((Dict.getSetOther _ same _).symm.trans there)

def get (reg : BackendRegistry R) (name : String) : Option (RegistryEntry R) := reg.byName.get name

def all (reg : BackendRegistry R) : List (RegistryEntry R) := reg.byName.values

theorem getMember {reg : BackendRegistry R} {entry : RegistryEntry R} (member : entry ∈ reg.all) :
    reg.get entry.spec.name = some entry := by
  obtain ⟨name, there⟩ := Dict.memValues.mp member
  rw [reg.named name entry there]
  exact there

theorem registeredSelf (reg : BackendRegistry R) (entry : RegistryEntry R) :
    (reg.register entry).get entry.spec.name = some entry :=
  Dict.getSetSelf _ _ _

theorem registeredOther (reg : BackendRegistry R) {entry : RegistryEntry R} {name : String}
    (different : name ≠ entry.spec.name) : (reg.register entry).get name = reg.get name :=
  Dict.getSetOther _ different _

theorem registeredEntry {reg : BackendRegistry R} {entry found : RegistryEntry R} {name : String}
    (there : (reg.register entry).get name = some found) : found = entry ∨ reg.get name = some found := by
  by_cases same : name = entry.spec.name
  · subst same
    exact .inl (Option.some.inj ((reg.registeredSelf entry).symm.trans there)).symm
  · exact .inr ((reg.registeredOther same).symm.trans there)

end BackendRegistry

structure RouteDecision (R : Type) where
  backend : String
  modelId : String
  utility : R
  difficulty : R
  fallbackChain : List String
  reasons : List String
  fromSafeDefault : Bool
  deriving DecidableEq

/-! ### Router -/

variable {R : Type} [PyFloat R]

def costWeight : R := 0.6
def latencyWeight : R := 0.05

structure ModelRouter where
  policy : PolicyEngine

structure RouteFilters (R : Type) where
  maxCostPer1k : Option R
  residency : Option String
  requiredCapabilities : List String

def RouteFilters.none : RouteFilters R := ⟨.none, .none, []⟩

namespace ModelRouter

def refusal (r : ModelRouter) (ctx : SecurityContext) (f : RouteFilters R) (e : RegistryEntry R) : Option String :=
  match r.policy.check ctx (namedModelResource ctx e.spec.modelId) .route with
  | .error _ => some (e.spec.name ++ ": policy-denied")
  | .ok _ =>
    let residency := orElse f.residency ""
    if !residency.isEmpty ∧ e.spec.residency ≠ residency then
      some s!"{e.spec.name}: residency {e.spec.residency}!={residency}"
    else if f.maxCostPer1k.any (fun ceiling => ceiling < e.spec.costPer1k) then
      some (e.spec.name ++ ": over-budget")
    else if f.requiredCapabilities.any (fun cap => cap ∉ e.spec.capabilities) then
      some (e.spec.name ++ ": missing-capability")
    else none

def eligible (r : ModelRouter) (ctx : SecurityContext) (f : RouteFilters R) (reg : BackendRegistry R) :
    List (RegistryEntry R) :=
  reg.all.filter (fun e => (r.refusal ctx f e).isNone)

def score (difficulty maxCost maxLat : R) (e : RegistryEntry R) : R :=
  let nc := if 0 < maxCost then e.spec.costPer1k / maxCost else 0
  let nl := if 0 < maxLat then e.spec.p50LatencyMs / maxLat else 0
  difficulty * e.spec.quality - costWeight * (1 - difficulty) * nc - latencyWeight * nl

-- `(score, name)` as a tuple, strongest first
def stronger (score : RegistryEntry R → R) (a b : RegistryEntry R) : Prop :=
  score b < score a ∨ (score a = score b ∧ b.spec.name ≤ a.spec.name)
instance (score : RegistryEntry R → R) : DecidableRel (stronger score) := fun a b => by
  unfold stronger; infer_instance

def rank (difficulty : R) (pool : List (RegistryEntry R)) : List (RegistryEntry R) × (RegistryEntry R → R) :=
  let maxCost := ((pool.map (·.spec.costPer1k)).max?).getD 0
  let maxLat := ((pool.map (·.spec.p50LatencyMs)).max?).getD 0
  let score := score difficulty maxCost maxLat
  (pool.insertionSort (stronger score), score)

variable [Builtins]

def route (r : ModelRouter) (now : Time) (ctx : SecurityContext) (query : String) (assembledTokens : Int)
    (reg : BackendRegistry R) (f : RouteFilters R) : Except PyError (RouteDecision R) :=
  let difficulty : R := estimateDifficulty query assembledTokens
  let refused := reg.all.filterMap (r.refusal ctx f)
  let eligible := r.eligible ctx f reg
  if eligible.isEmpty then .error ⟨.noEligibleBackend, "no backend satisfies the hard policy filters"⟩
  else
    let healthy := eligible.filter (fun e => e.breaker.allows now)
    let fromSafeDefault := healthy.isEmpty
    let pool := if fromSafeDefault then eligible else healthy
    let (ranked, score) := rank difficulty pool
    let reasons := ["difficulty=" ++ PyFloat.fixed 2 difficulty] ++ refused ++
      (if fromSafeDefault then ["all-breakers-open: safe-default ranking (hard filters still hold)"] else [])
    match ranked with
    | [] => .error ⟨.noEligibleBackend, "no backend satisfies the hard policy filters"⟩
    | chosen :: rest =>
      .ok ⟨chosen.spec.name, chosen.spec.modelId, PyFloat.round (score chosen) 6, PyFloat.round difficulty 4,
        rest.map (·.spec.name), reasons, fromSafeDefault⟩

/-- The healthy survivors, or all of them where none is healthy. -/
def pool (r : ModelRouter) (now : Time) (ctx : SecurityContext) (f : RouteFilters R) (reg : BackendRegistry R) :
    List (RegistryEntry R) :=
  let eligible := r.eligible ctx f reg
  let healthy := eligible.filter (fun e => e.breaker.allows now)
  if healthy.isEmpty then eligible else healthy

omit [Builtins]

theorem poolEligible {r : ModelRouter} {now ctx f} {reg : BackendRegistry R} :
    (r.pool now ctx f reg).Sublist (r.eligible ctx f reg) := by
  unfold pool
  dsimp only
  split
  · exact List.Sublist.refl _
  · exact List.filter_sublist

theorem refusalPolicy {r : ModelRouter} {ctx f} {e : RegistryEntry R} (passed : r.refusal ctx f e = none) :
    r.policy.check ctx (namedModelResource ctx e.spec.modelId) .route = .ok () := by
  unfold refusal at passed
  split at passed <;> try contradiction
  assumption

variable [Builtins]

theorem routeRanked {r : ModelRouter} {now ctx query tokens f} {reg : BackendRegistry R} {decision}
    (ok : r.route now ctx query tokens reg f = .ok decision) :
    ∃ chosen rest, (rank (estimateDifficulty query tokens) (r.pool now ctx f reg)).1 = chosen :: rest ∧
      decision.backend = chosen.spec.name ∧ decision.fallbackChain = rest.map (·.spec.name) := by
  unfold route at ok
  dsimp only at ok
  split at ok <;> try contradiction
  split at ok <;> try contradiction
  rename_i chosen rest ranked
  cases Except.ok.inj ok
  exact ⟨chosen, rest, ranked, rfl, rfl⟩

theorem routeEligible {r : ModelRouter} {now ctx query tokens f} {reg : BackendRegistry R} {decision}
    (ok : r.route now ctx query tokens reg f = .ok decision) :
    ∀ name ∈ decision.backend :: decision.fallbackChain,
      ∃ e ∈ reg.all, e.spec.name = name ∧ r.refusal ctx f e = none := by
  obtain ⟨chosen, rest, ranked, backend, chain⟩ := routeRanked ok
  intro name member
  have listed : name ∈ (chosen :: rest).map (·.spec.name) := by rwa [backend, chain] at member
  rw [← ranked] at listed
  obtain ⟨e, sorted, rfl⟩ := List.mem_map.mp listed
  have pooled := (List.mem_insertionSort _).mp sorted
  obtain ⟨registered, unrefused⟩ := List.mem_filter.mp (poolEligible.subset pooled)
  exact ⟨e, registered, rfl, Option.isNone_iff_eq_none.mp unrefused⟩

end ModelRouter
end ContextOS
