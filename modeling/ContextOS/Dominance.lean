import ContextOS.RegistrationOrder
import Mathlib.Tactic.Linarith

/-! Dominated choices. A score adds three shares with weights that depend on the difficulty;
strictly between 0 and 1 all three count, and what dominates another scores higher. At 0
the quality does not count and at 1 the cost does not, and then the name decides. -/
namespace ContextOS

variable {R : Type} [PyFloat R]

-- no worse in cost, quality and latency, and better in one of them
structure BackendSpec.Dominates (spec other : BackendSpec R) : Prop where
  cost : spec.costPer1k ≤ other.costPer1k
  quality : other.quality ≤ spec.quality
  latency : spec.p50LatencyMs ≤ other.p50LatencyMs
  better : spec.costPer1k < other.costPer1k ∨ other.quality < spec.quality ∨ spec.p50LatencyMs < other.p50LatencyMs

instance (spec other : BackendSpec R) : Decidable (spec.Dominates other) :=
  decidable_of_iff (spec.costPer1k ≤ other.costPer1k ∧ other.quality ≤ spec.quality ∧ spec.p50LatencyMs ≤ other.p50LatencyMs ∧
      (spec.costPer1k < other.costPer1k ∨ other.quality < spec.quality ∨ spec.p50LatencyMs < other.p50LatencyMs))
    ⟨fun given => ⟨given.1, given.2.1, given.2.2.1, given.2.2.2⟩, fun given => ⟨given.cost, given.quality, given.latency, given.better⟩⟩

def BackendRegistry.NonNegative (reg : BackendRegistry R) : Prop :=
  ∀ entry ∈ reg.all, 0 ≤ entry.spec.costPer1k ∧ 0 ≤ entry.spec.p50LatencyMs
instance (reg : BackendRegistry R) : Decidable reg.NonNegative := by unfold BackendRegistry.NonNegative; infer_instance

-- the ways in which `e` can dominate the chosen one all the same
inductive Untold (tokens : Int) (difficulty : R) (chosen e : BackendSpec R) : Prop
  | easy (difficulty : difficulty = 0) (quality : chosen.quality < e.quality) (cost : e.costPer1k = chosen.costPer1k)
      (latency : e.p50LatencyMs = chosen.p50LatencyMs) (name : e.name ≤ chosen.name)
  | hard (difficulty : difficulty = 1) (cost : e.costPer1k < chosen.costPer1k) (quality : e.quality = chosen.quality)
      (latency : e.p50LatencyMs = chosen.p50LatencyMs) (name : e.name ≤ chosen.name)
  | negative (tokens : tokens < 0) (difficulty : difficulty < 0) (quality : chosen.quality < e.quality)

namespace ModelRouter

/-! ### Shares of a maximum -/

section Shares

def share (top x : R) : R := if 0 < top then x / top else 0

theorem scoreShares (difficulty maxCost maxLat : R) (e : RegistryEntry R) : score difficulty maxCost maxLat e =
    difficulty * e.spec.quality - costWeight * (1 - difficulty) * share maxCost e.spec.costPer1k -
      latencyWeight * share maxLat e.spec.p50LatencyMs := rfl

theorem maxBound {values : List R} {x : R} (member : x ∈ values) : x ≤ values.max?.getD 0 := by
  cases found : values.max? with
  | none =>
    rw [List.max?_eq_none_iff.mp found] at member
    contradiction
  | some top => exact (Lib.maxIff.mp found).2 x member

variable [IsStrictOrderedRing R]

theorem shareMono (top : R) {x y : R} (le : x ≤ y) : share top x ≤ share top y := by
  unfold share
  split
  · rename_i positive
    exact div_le_div_of_nonneg_right le positive.le
  · exact le_refl 0

theorem shareStrict {top x y : R} (nonneg : 0 ≤ x) (bound : y ≤ top) (lt : x < y) : share top x < share top y := by
  have positive : 0 < top := (nonneg.trans_lt lt).trans_le bound
  rw [share, share, if_pos positive, if_pos positive]
  exact div_lt_div_of_pos_right lt positive

end Shares

section Difficulty
variable [Builtins]

theorem difficultyLeOne (query : String) (tokens : Int) : (estimateDifficulty query tokens : R) ≤ 1 := min_le_left _ _

variable [IsStrictOrderedRing R]

theorem difficultyNonneg (query : String) {tokens : Int} (nonneg : 0 ≤ tokens) : (0 : R) ≤ estimateDifficulty query tokens := by
  have counted : (0 : R) ≤ tokens := by exact_mod_cast nonneg
  have words : (0 : R) ≤ min 1 (((splitWords query).length : R) / 60.0) :=
    le_min zero_le_one (div_nonneg (Nat.cast_nonneg _) (by norm_num))
  have share : (0 : R) ≤ min 1 ((tokens : R) / 4000.0) := le_min zero_le_one (div_nonneg counted (by norm_num))
  have keyword : (0 : R) ≤ if hardFrom false query.toList then 0.3 else 0 := by
    split
    · norm_num
    · exact le_refl 0
  unfold estimateDifficulty
  exact le_min zero_le_one (add_nonneg (add_nonneg (mul_nonneg (by norm_num) words) (mul_nonneg (by norm_num) share)) keyword)

end Difficulty

/-! ### The choice -/

section Choice
variable {difficulty : R} {pool : List (RegistryEntry R)} {chosen e : RegistryEntry R}

theorem chosenStrongest {rest : List (RegistryEntry R)} (ranked : (rank difficulty pool).1 = chosen :: rest) (member : e ∈ pool)
    (other : e ≠ chosen) : stronger (rank difficulty pool).2 chosen e := by
  have sorted : (chosen :: rest).Pairwise (stronger (rank difficulty pool).2) := by
    rw [← ranked]
    exact List.pairwise_insertionSort _ _
  have listed : e ∈ chosen :: rest := by
    rw [← ranked]
    exact (List.mem_insertionSort _).mpr member
  exact (List.pairwise_cons.mp sorted).1 e (List.mem_of_ne_of_mem other listed)

/-- What the dominating entry gains in each of the three, before the weights. -/
structure Gain (difficulty : R) (pool : List (RegistryEntry R)) (chosen e : RegistryEntry R) (quality cost latency : R) : Prop where
  total : (rank difficulty pool).2 e - (rank difficulty pool).2 chosen =
    difficulty * quality + 0.6 * (1 - difficulty) * cost + 0.05 * latency
  quality : 0 ≤ quality ∧ (quality = 0 ↔ e.spec.quality = chosen.spec.quality)
  cost : 0 ≤ cost ∧ (cost = 0 ↔ e.spec.costPer1k = chosen.spec.costPer1k)
  latency : 0 ≤ latency ∧ (latency = 0 ↔ e.spec.p50LatencyMs = chosen.spec.p50LatencyMs)

variable [IsStrictOrderedRing R]

theorem shareGain {top x y : R} (nonneg : 0 ≤ x) (bound : y ≤ top) (le : x ≤ y) :
    0 ≤ share top y - share top x ∧ (share top y - share top x = 0 ↔ x = y) := by
  refine ⟨sub_nonneg.mpr (shareMono top le), fun none => ?_, fun same => sub_eq_zero.mpr (by rw [same])⟩
  by_contra different
  exact (shareStrict nonneg bound (lt_of_le_of_ne le different)).ne (sub_eq_zero.mp none).symm

variable (difficulty) in
theorem dominatingGain (nonneg : 0 ≤ e.spec.costPer1k ∧ 0 ≤ e.spec.p50LatencyMs) (inChosen : chosen ∈ pool)
    (dominates : e.spec.Dominates chosen.spec) : ∃ quality cost latency, Gain difficulty pool chosen e quality cost latency := by
  have cheapest : chosen.spec.costPer1k ≤ (pool.map (·.spec.costPer1k)).max?.getD 0 :=
    maxBound (List.mem_map.mpr ⟨chosen, inChosen, rfl⟩)
  have fastest : chosen.spec.p50LatencyMs ≤ (pool.map (·.spec.p50LatencyMs)).max?.getD 0 :=
    maxBound (List.mem_map.mpr ⟨chosen, inChosen, rfl⟩)
  refine ⟨e.spec.quality - chosen.spec.quality, _, _, ?_, ⟨sub_nonneg.mpr dominates.quality, sub_eq_zero⟩,
    shareGain nonneg.1 cheapest dominates.cost, shareGain nonneg.2 fastest dominates.latency⟩
  simp only [rank, scoreShares, costWeight, latencyWeight]
  ring

theorem gainNothing {quality cost latency : R} (gain : Gain difficulty pool chosen e quality cost latency)
    (strong : stronger (rank difficulty pool).2 chosen e) (first : 0 ≤ difficulty * quality) (high : difficulty ≤ 1) :
    difficulty * quality = 0 ∧ (1 - difficulty) * cost = 0 ∧ latency = 0 ∧ e.spec.name ≤ chosen.spec.name := by
  have total := gain.total
  have second : 0 ≤ (1 - difficulty) * cost := mul_nonneg (sub_nonneg.mpr high) gain.cost.1
  have third := gain.latency.1
  have nothing : (rank difficulty pool).2 e - (rank difficulty pool).2 chosen ≤ 0 := by
    rcases strong with higher | ⟨same, _⟩
    · exact (sub_neg.mpr higher).le
    · exact (sub_eq_zero.mpr same.symm).le
  refine ⟨by linarith, by linarith, by linarith, ?_⟩
  rcases strong with higher | ⟨_, name⟩
  · linarith
  · exact name

variable [Builtins]

theorem dominatedUntold {query : String} {tokens : Int} {rest : List (RegistryEntry R)}
    (ranked : (rank (estimateDifficulty query tokens) pool).1 = chosen :: rest) (inPool : e ∈ pool)
    (nonneg : 0 ≤ e.spec.costPer1k ∧ 0 ≤ e.spec.p50LatencyMs) (dominates : e.spec.Dominates chosen.spec) :
    Untold tokens (estimateDifficulty query tokens : R) chosen.spec e.spec := by
  have inChosen : chosen ∈ pool := by
    have listed : chosen ∈ (rank (estimateDifficulty query tokens) pool).1 := ranked ▸ List.mem_cons_self
    exact (List.mem_insertionSort _).mp listed
  have other : e ≠ chosen := by
    rintro rfl
    exact dominates.better.elim (lt_irrefl _) fun better => better.elim (lt_irrefl _) (lt_irrefl _)
  have strong := chosenStrongest ranked inPool other
  have high : (estimateDifficulty query tokens : R) ≤ 1 := difficultyLeOne query tokens
  obtain ⟨quality, cost, latency, gain⟩ := dominatingGain (estimateDifficulty query tokens) nonneg inChosen dominates
  by_cases negative : (estimateDifficulty query tokens : R) < 0
  · refine .negative ?_ negative (lt_of_le_of_ne dominates.quality fun same => ?_)
    · by_contra positive
      exact absurd (difficultyNonneg query (not_lt.mp positive)) negative.not_ge
    · have none := gain.quality.2.mpr same.symm
      obtain ⟨_, noCost, noLatency, _⟩ := gainNothing gain strong (by simp [none]) high
      have sameCost := gain.cost.2.mp ((mul_eq_zero.mp noCost).resolve_left (by linarith))
      have sameLatency := gain.latency.2.mp noLatency
      have better := dominates.better
      simp [same, sameCost, sameLatency] at better
  · obtain ⟨noQuality, noCost, noLatency, name⟩ := gainNothing gain strong (mul_nonneg (not_lt.mp negative) gain.quality.1) high
    have sameLatency := gain.latency.2.mp noLatency
    by_cases zero : (estimateDifficulty query tokens : R) = 0
    · have sameCost := gain.cost.2.mp (by simpa [zero] using noCost)
      refine .easy zero ?_ sameCost sameLatency name
      exact (dominates.better.resolve_left (by simp [sameCost])).resolve_right (by simp [sameLatency])
    · have sameQuality := gain.quality.2.mp ((mul_eq_zero.mp noQuality).resolve_left zero)
      have cheaper : e.spec.costPer1k < chosen.spec.costPer1k :=
        dominates.better.resolve_right (by simp [sameQuality, sameLatency])
      refine .hard ?_ cheaper sameQuality sameLatency name
      refine (sub_eq_zero.mp ((mul_eq_zero.mp noCost).resolve_right fun none => ?_)).symm
      exact cheaper.ne (gain.cost.2.mp none)

/-- A dominated backend is chosen at the two ends of the difficulty only, by its name. -/
theorem dominatedAtEnds (r : ModelRouter) (now : Time) (ctx : SecurityContext) (query : String) (tokens : Int)
    (f : RouteFilters R) {reg : BackendRegistry R} (nonneg : reg.NonNegative) {decision : RouteDecision R}
    (ok : r.route now ctx query tokens reg f = .ok decision) :
    ∃ chosen ∈ r.pool now ctx f reg, chosen.spec.name = decision.backend ∧ ∀ e ∈ r.pool now ctx f reg,
      e.spec.Dominates chosen.spec → Untold tokens (estimateDifficulty query tokens : R) chosen.spec e.spec := by
  obtain ⟨chosen, rest, ranked, named, _⟩ := routeRanked ok
  have listed : chosen ∈ (rank (estimateDifficulty query tokens) (r.pool now ctx f reg)).1 := ranked ▸ List.mem_cons_self
  refine ⟨chosen, (List.mem_insertionSort _).mp listed, named.symm, fun e inPool dominates => ?_⟩
  exact dominatedUntold ranked inPool (nonneg e (poolSublist.subset inPool)) dominates

end Choice

/-! ### A query without words or context -/

def rivals : BackendRegistry ℚ :=
  .registered [{ opusBackend with spec := { opusBackend.spec with name := "fine" } },
    { opusBackend with spec := { opusBackend.spec with name := "poor", quality := 0.5 } }]

theorem dominatedChosen : letI := asciiBuiltins [] []
    rivals.NonNegative ∧ ∃ decision, route ⟨⟨none⟩⟩ 0 (member "acme" "sales") "" 0 rivals .none = .ok decision ∧
      ∃ chosen ∈ pool ⟨⟨none⟩⟩ 0 (member "acme" "sales") .none rivals, chosen.spec.name = decision.backend ∧
        ∃ e ∈ pool ⟨⟨none⟩⟩ 0 (member "acme" "sales") .none rivals, e.spec.Dominates chosen.spec := by
  let _ := asciiBuiltins [] []
  obtain ⟨decision, ok, named⟩ := routedAs (show (route ⟨⟨none⟩⟩ 0 (member "acme" "sales") "" 0 rivals
    .none).toOption.map (·.backend) = some "poor" by decide +kernel)
  refine ⟨by decide +kernel, decision, ok, ?_⟩
  rw [named]
  decide +kernel

theorem dominatedAtEndsSample : letI := asciiBuiltins [] []
    rivals.NonNegative ∧ ∃ decision, route ⟨⟨none⟩⟩ 0 (member "acme" "sales") "prove it" 40 rivals .none = .ok decision ∧
      ∃ chosen ∈ pool ⟨⟨none⟩⟩ 0 (member "acme" "sales") .none rivals, chosen.spec.name = decision.backend ∧
        ∀ e ∈ pool ⟨⟨none⟩⟩ 0 (member "acme" "sales") .none rivals, e.spec.Dominates chosen.spec →
          Untold 40 (estimateDifficulty "prove it" 40 : ℚ) chosen.spec e.spec := by
  let _ := asciiBuiltins [] []
  obtain ⟨decision, ok, _⟩ := routedAs (show (route ⟨⟨none⟩⟩ 0 (member "acme" "sales") "prove it" 40 rivals
    .none).toOption.map (·.backend) = some "fine" by decide +kernel)
  have nonneg : rivals.NonNegative := by decide +kernel
  exact ⟨nonneg, decision, ok, dominatedAtEnds _ _ _ _ _ _ nonneg ok⟩

end ModelRouter
end ContextOS
