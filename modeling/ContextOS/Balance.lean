import ContextOS.Lib.Tally
import ContextOS.Observability
import ContextOS.Executable
import Mathlib.Algebra.Order.BigOperators.Group.List
import Mathlib.Tactic.Ring

/-! The cost ledger's books over any sequence of `record` calls. Recorded costs are whole
millionths, so that rounding a sum of them changes nothing and the summary's two ways of
adding up meet; only the rounding of each row separates it from the unrounded cost. -/
namespace ContextOS.CostLedger
open Lib

structure Call where
  ctx : SecurityContext
  modelId : String
  usage : Usage

variable {R : Type} [PyFloat R]

def recordCalls (prices : Dict String R) (l : CostLedger R) (calls : List Call) : CostLedger R :=
  calls.foldl (fun l call => l.record prices call.ctx call.modelId call.usage) l

def ownCalls (ctx : SecurityContext) (calls : List Call) : List Call :=
  calls.filter fun call => call.ctx.tenantId = ctx.tenantId

def Call.row (prices : Dict String R) (call : Call) : CostRecord R := newRecord prices call.ctx call.modelId call.usage

def Call.tokens (call : Call) : Int := call.usage.promptTokens + call.usage.completionTokens

def Call.unrounded (prices : Dict String R) (call : Call) : R := pricePer1k prices call.modelId * (call.tokens : R) / 1000

theorem recordsRecord (prices : Dict String R) (l : CostLedger R) (call : Call) (ctx : SecurityContext) :
    (l.record prices call.ctx call.modelId call.usage).records ctx.tenantId =
      l.records ctx.tenantId ++ (ownCalls ctx [call]).map (Call.row prices) := by
  rw [records, record, Dict.getSet]
  by_cases own : call.ctx.tenantId = ctx.tenantId
  · simp [own, ownCalls, Call.row]
  · simp [Ne.symm own, own, ownCalls, records]

theorem recordsAfter (prices : Dict String R) (l : CostLedger R) (calls : List Call) (ctx : SecurityContext) :
    (recordCalls prices l calls).records ctx.tenantId =
      l.records ctx.tenantId ++ (ownCalls ctx calls).map (Call.row prices) := by
  induction calls generalizing l with
  | nil => simp [recordCalls, ownCalls]
  | cons call rest ih =>
    have later := ih (l.record prices call.ctx call.modelId call.usage)
    rw [recordsRecord, List.append_assoc, ← List.map_append] at later
    simpa only [recordCalls, List.foldl_cons, ownCalls, ← List.filter_append, List.singleton_append] using later

/-- Whole millionths. -/
inductive InMicros : R → Prop where
  | of (n : Int) : InMicros ((n : R) / 10 ^ 6)

theorem microsZero : InMicros (0 : R) := by
  have zero : ((0 : Int) : R) / 10 ^ 6 = 0 := by rw [Int.cast_zero, zero_div]
  exact zero ▸ .of 0

theorem microsAdd {x y : R} (whole : InMicros x) (whole' : InMicros y) : InMicros (x + y) := by
  obtain ⟨n⟩ := whole
  obtain ⟨m⟩ := whole'
  rw [← add_div, ← Int.cast_add]
  exact .of (n + m)

theorem microsSum {xs : List R} (whole : ∀ x ∈ xs, InMicros x) : InMicros xs.sum := by
  induction xs with
  | nil => exact microsZero
  | cons x rest ih =>
    rw [List.sum_cons]
    exact microsAdd (whole x List.mem_cons_self) (ih fun y later => whole y (List.mem_cons_of_mem _ later))

theorem rowMicros (prices : Dict String R) (call : Call) : InMicros (call.row prices).costUsd := .of _

section Rounded
variable [IsStrictOrderedRing R]

theorem roundMicros {x : R} (whole : InMicros x) : PyFloat.round x 6 = x := by
  obtain ⟨n⟩ := whole
  exact PyFloat.roundExact n 6

theorem rollupTally {recs : List (CostRecord R)} (priced : ∀ r ∈ recs, InMicros r.costUsd) (d : Dict String R)
    (whole : ∀ modelId, InMicros ((d.get modelId).getD 0)) :
    recs.foldl (fun (d : Dict String R) r =>
        d.set r.modelId (PyFloat.round ((d.get r.modelId).getD 0 + r.costUsd) 6)) d =
      d.tally (recs.map fun r => (r.modelId, r.costUsd)) := by
  induction recs generalizing d with
  | nil => rfl
  | cons r rest ih =>
    have added := microsAdd (whole r.modelId) (priced r List.mem_cons_self)
    rw [List.foldl_cons, List.map_cons, Dict.tallyCons, roundMicros added]
    refine ih (fun r' later => priced r' (List.mem_cons_of_mem _ later)) _ fun modelId => ?_
    rw [Dict.getSet]
    split
    · exact added
    · exact whole modelId

theorem rowError (prices : Dict String R) (call : Call) :
    |(call.row prices).costUsd - call.unrounded prices| ≤ 0.0000005 := by
  have near := PyFloat.roundNear (call.unrounded prices) 6
  have half : (1 : R) / 2 / 10 ^ 6 = 0.0000005 := by norm_num
  have point : (1000.0 : R) = 1000 := by norm_num
  rw [half] at near
  simpa only [Call.row, newRecord, Call.unrounded, Call.tokens, point] using near

theorem sumError (prices : Dict String R) (calls : List Call) :
    |(calls.map fun call => (call.row prices).costUsd).sum - (calls.map (Call.unrounded prices)).sum| ≤
      calls.length * 0.0000005 := by
  induction calls with
  | nil => simp
  | cons call rest ih =>
    have here := abs_le.mp (rowError prices call)
    have later := abs_le.mp ih
    rw [List.map_cons, List.map_cons, List.sum_cons, List.sum_cons, List.length_cons, abs_le]
    push_cast
    constructor <;> linarith

end Rounded

/-- The summary of `ctx` after `calls`, against the calls themselves. -/
structure Balanced (prices : Dict String R) (calls : List Call) (ctx : SecurityContext) (s : CostSummary R) : Prop where
  models : s.totalCostUsd = s.byModel.values.sum
  recorded : s.totalCostUsd = ((ownCalls ctx calls).map fun call => (call.row prices).costUsd).sum
  keys : ∀ modelId, modelId ∈ s.byModel.keys ↔ modelId ∈ (ownCalls ctx calls).map Call.modelId
  shares : ∀ modelId, (s.byModel.get modelId).getD 0 =
    (((ownCalls ctx calls).filter fun call => call.modelId = modelId).map fun call => (call.row prices).costUsd).sum
  requests : s.requests = (ownCalls ctx calls).length
  tokens : s.totalTokens = ((ownCalls ctx calls).map Call.tokens).sum
  error : |s.totalCostUsd - ((ownCalls ctx calls).map (Call.unrounded prices)).sum| ≤ s.requests * 0.0000005

theorem recordsBalanced [IsStrictOrderedRing R] {prices : Dict String R} {ledger : CostLedger R} {calls : List Call}
    {ctx : SecurityContext} (rows : ledger.records ctx.tenantId = (ownCalls ctx calls).map (Call.row prices)) :
    Balanced prices calls ctx (ledger.summary ctx) := by
  have priced : ∀ r ∈ (ownCalls ctx calls).map (Call.row prices), InMicros r.costUsd := by
    intro r member
    obtain ⟨call, _, rfl⟩ := List.mem_map.mp member
    exact rowMicros prices call
  have total : PyFloat.round (((ownCalls ctx calls).map (Call.row prices)).map (·.costUsd)).sum 6 =
      ((ownCalls ctx calls).map fun call => (call.row prices).costUsd).sum := by
    rw [roundMicros (microsSum fun x member => ?_), List.map_map]
    · rfl
    · obtain ⟨r, inside, rfl⟩ := List.mem_map.mp member
      exact priced r inside
  have rollup := rollupTally priced Dict.empty fun modelId => microsZero
  rw [List.map_map] at rollup
  simp only [summary, rows]
  rw [total, rollup]
  refine ⟨?_, rfl, fun modelId => ?_, fun modelId => ?_, List.length_map _, ?_, ?_⟩
  · rw [Dict.valuesTally, Dict.valuesEmpty, List.sum_nil, zero_add]
    have costs := List.map_map (l := ownCalls ctx calls) (g := Prod.snd)
      (f := (fun r : CostRecord R => (r.modelId, r.costUsd)) ∘ Call.row prices)
    exact congrArg List.sum costs.symm
  · rw [← not_iff_not, ← Dict.getNone, Dict.getTallyNone, List.map_map]
    simp [Function.comp_def, Call.row, newRecord]
  · rw [Dict.getTally, Dict.getEmpty, Option.getD_none, zero_add, Dict.creditOf, List.filter_map, List.map_map]
    rfl
  · rw [List.map_map]
    rfl
  · rw [List.length_map]
    exact sumError prices (ownCalls ctx calls)

theorem summaryBalanced [IsStrictOrderedRing R] (prices : Dict String R) (calls : List Call) (ctx : SecurityContext) :
    Balanced prices calls ctx ((recordCalls prices Dict.empty calls).summary ctx) :=
  recordsBalanced (recordsAfter prices Dict.empty calls ctx)

-- two tenants, of which one uses a model that no price is listed for
def spending : List Call :=
  [⟨member "acme" "sales", "opus", ⟨1000, 7, 1007⟩⟩, ⟨member "globex" "sales", "opus", ⟨5, 5, 10⟩⟩,
    ⟨member "acme" "sales", "haiku", ⟨3, 0, 3⟩⟩, ⟨member "acme" "sales", "unlisted", ⟨40, 2, 42⟩⟩]

theorem spendingBalanced : Balanced (defaultPrices : Dict String ℚ) spending (member "acme" "sales")
    ((recordCalls defaultPrices Dict.empty spending).summary (member "acme" "sales")) :=
  summaryBalanced defaultPrices spending (member "acme" "sales")

end ContextOS.CostLedger
