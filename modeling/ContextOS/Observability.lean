import ContextOS.Models

/-! Traces with their decision records, and the cost ledger. A stage that ended leaves a
summary and pointers, a failed one none. Prices are blended, per thousand tokens. -/
namespace ContextOS
open Lib (Dict)

/-! ### Tracer -/

inductive Stage where
  | auth
  | cache
  | retrieve
  | compress
  | assemble
  | route
  | backendInvoke
  | writeback
  deriving DecidableEq, Repr

def Stage.value : Stage → String
  | .auth => "auth"
  | .cache => "cache"
  | .retrieve => "retrieve"
  | .compress => "compress"
  | .assemble => "assemble"
  | .route => "route"
  | .backendInvoke => "backend.invoke"
  | .writeback => "writeback"

structure DecisionRecord where
  stage : String
  summary : String
  pointers : List (String × String)
  deriving DecidableEq, Repr

structure TraceSpan where
  traceId : String
  spanId : String
  tenantId : String
  stage : String
  name : String
  start : Time
  stop : Time
  decision : Option DecisionRecord
  deriving DecidableEq, Repr

structure Trace where
  traceId : String
  tenantId : String
  spans : List TraceSpan
  deriving DecidableEq, Repr

/-- One dictionary for all tenants, keyed by the trace id alone. -/
abbrev Tracer := Dict String Trace

namespace Tracer

def record (t : Tracer) (trace : Trace) : Tracer := t.set trace.traceId trace

def get (t : Tracer) (ctx : SecurityContext) (traceId : String) : Option Trace :=
  match Dict.get t traceId with
  | none => none
  | some trace => if trace.tenantId ≠ ctx.tenantId then none else some trace

end Tracer

structure SpanClock where
  spanId : Stage → String
  start : Stage → Time
  stop : Stage → Time

def SpanClock.span (clock : SpanClock) (traceId tenantId : String) (stage : Stage) (name : String)
    (decision : Option (String × List (String × String))) : TraceSpan :=
  ⟨traceId, clock.spanId stage, tenantId, stage.value, name, clock.start stage, clock.stop stage,
    decision.map (fun d => ⟨stage.value, d.1, d.2⟩)⟩

/-! ### Cost ledger -/

structure CostRecord (R : Type) where
  tenantId : String
  modelId : String
  promptTokens : Int
  completionTokens : Int
  costUsd : R
  deriving DecidableEq

structure CostSummary (R : Type) where
  tenantId : String
  requests : Nat
  totalTokens : Int
  totalCostUsd : R
  byModel : Dict String R

abbrev CostLedger (R : Type) := Dict String (List (CostRecord R))

variable {R : Type} [PyFloat R]

def defaultPrices : Dict String R :=
  Dict.ofList [("default", 0), ("haiku", 0.001), ("opus", 0.02), ("gpt-4o-mini", 0.0006),
    ("meta-llama/Llama-3.1-8B-Instruct", 0.0002)]

namespace CostLedger

omit [PyFloat R] in
def records (l : CostLedger R) (tenant : String) : List (CostRecord R) := (l.get tenant).getD []

def pricePer1k (prices : Dict String R) (modelId : String) : R :=
  match prices.get modelId with
  | some price => price
  | none => (prices.get "default").getD 0

-- a total from 2 ^ 1024 - 2 ^ 970 on does not convert to a double, and `record` raises there
def newRecord (prices : Dict String R) (ctx : SecurityContext) (modelId : String) (usage : Usage) : CostRecord R :=
  let total : R := (usage.promptTokens + usage.completionTokens : Int)
  ⟨ctx.tenantId, modelId, usage.promptTokens, usage.completionTokens,
    PyFloat.round (pricePer1k prices modelId * total / 1000.0) 6⟩

def record (l : CostLedger R) (prices : Dict String R) (ctx : SecurityContext) (modelId : String) (usage : Usage) :
    CostLedger R :=
  l.set ctx.tenantId (l.records ctx.tenantId ++ [newRecord prices ctx modelId usage])

def summary (l : CostLedger R) (ctx : SecurityContext) : CostSummary R :=
  let recs := l.records ctx.tenantId
  let byModel := recs.foldl (fun (d : Dict String R) r =>
    d.set r.modelId (PyFloat.round ((d.get r.modelId).getD 0 + r.costUsd) 6)) Dict.empty
  ⟨ctx.tenantId, recs.length, (recs.map (fun r => r.promptTokens + r.completionTokens)).sum,
    PyFloat.round (recs.map (·.costUsd)).sum 6, byModel⟩

end CostLedger
end ContextOS
