import ContextOS.Balance
import ContextOS.Effects
import ContextOS.WriteBack

/-! What the application bills. The ledger holds the finished answers of the traffic and
nothing else: a chat that was refused, failed, cut off or served from the cache is free,
and so is the model call of a consolidation. The cost report is their balance. -/
namespace ContextOS
open Lib (Dict Machine)

variable {R : Type}

def billedCall (ctx : SecurityContext) (sent : AdapterCall) : Option CostLedger.Call :=
  match sent.reply with
  | .ok resp => if resp.finishReason.isSome then some ⟨ctx, sent.request.model, resp.usage⟩ else none
  | .error _ => none

/-- The bill of one operation, read off its traffic: the last call of a chat, if it finished. -/
def billed (served : Request R × Response R) : Option CostLedger.Call :=
  match served.1.op with
  | .chat _ => served.2.calls.getLast?.bind (billedCall served.1.ctx)
  | _ => none

variable [PyFloat R] [Builtins]

omit [PyFloat R] [Builtins] in
@[simp] theorem Pipeline.capturedCost (s : Stores R) (ctx : SecurityContext) (prepared : Prepared R) :
    (captured s ctx prepared).cost = s.cost := by
  unfold captured
  split <;> rfl

theorem Pipeline.committedCost {p : Pipeline R} {prices : Dict String R} (priced : p.cost = some prices) (env : Env)
    (s : Stores R) (ctx : SecurityContext) (c : ChatCall) (prepared : Prepared R) (backends : Option (BackendRegistry R))
    (model : String) (resp : ChatResponse) :
    (p.committed env s ctx c prepared backends model resp).cost =
      if resp.finishReason.isSome then s.cost.record prices ctx model resp.usage else s.cost := by
  simp only [committed, writeback, priced]
  cases resp.finishReason <;> simp

theorem Pipeline.runCost {p : Pipeline R} {prices : Dict String R} (priced : p.cost = some prices) (env : Env)
    (s : Stores R) (ctx : SecurityContext) (c : ChatCall) :
    (p.run env s ctx c).stores.cost =
      CostLedger.recordCalls prices s.cost ((p.run env s ctx c).calls.getLast?.bind (billedCall ctx)).toList := by
  have ended := p.runEnded env s ctx c
  generalize p.run env s ctx c = out at ended
  cases ended with
  | refused => rfl
  | hit => rfl
  | @failed found prepared reached backends spans e calls tried =>
    have free : calls.getLast?.bind (billedCall ctx) = none := by
      refine Option.bind_eq_none_iff.mpr fun sent last => ?_
      obtain ⟨e, failed⟩ := (tried sent (List.mem_of_getLast? last)).failed
      rw [billedCall, failed]
    simp [finish, free, CostLedger.recordCalls]
  | @answered found prepared model resp answered backends spans failures tried =>
    simp only [finish, committedCost priced, List.getLast?_concat, Option.bind_some, billedCall]
    split <;> rfl

namespace App
variable {a : App R} {prices : Dict String R}

theorem stepCost (priced : a.pipeline.cost = some prices) (s : AppState R) (r : Request R) :
    (a.step s r).1.stores.cost = CostLedger.recordCalls prices s.stores.cost (billed (r, (a.step s r).2)).toList := by
  cases op : r.op with
  | chat call =>
    simp only [billed, op, chatStores op, chatReply op]
    exact Pipeline.runCost priced r.env s.stores r.ctx call
  | writeMemory content tier importance =>
    simp only [App.step, billed, op]
    split <;> rfl
  | _ =>
    simp only [App.step, billed, op]
    rfl

theorem ledgerBilled (priced : a.pipeline.cost = some prices) (requests : List (Request R)) :
    (a.machine.exec AppState.initial requests).stores.cost =
      CostLedger.recordCalls prices Dict.empty ((a.machine.replies AppState.initial requests).filterMap billed) := by
  refine a.machine.historyInvariant
    (P := fun past s => s.stores.cost = CostLedger.recordCalls prices Dict.empty (past.filterMap billed))
    rfl (fun past s r same => ?_) requests
  change (a.step s r).1.stores.cost = _
  rw [stepCost priced, same, List.filterMap_append, CostLedger.recordCalls, CostLedger.recordCalls, CostLedger.recordCalls,
    List.foldl_append]
  cases billed (r, (a.machine.step s r).2) <;> rfl

end App

/-- The report balances with the finished answers that the tenant was given. -/
theorem costReported [IsStrictOrderedRing R] (settings : ContextOSSettings) (adapter : Adapter)
    (digest : BundlePayload R → String) (requests : List (Request R)) (ctx : SecurityContext) (env : Env) :
    ∃ summary, ((createApp settings adapter digest).step
        ((createApp settings adapter digest).machine.exec AppState.initial requests) ⟨ctx, env, .adminCost⟩).2.result =
      .ok (.cost summary) ∧ CostLedger.Balanced defaultPrices
        (((createApp settings adapter digest).machine.replies AppState.initial requests).filterMap billed) ctx summary := by
  refine ⟨_, rfl, ?_⟩
  rw [App.ledgerBilled (a := createApp settings adapter digest) rfl]
  exact CostLedger.recordsBalanced (CostLedger.recordsAfter defaultPrices Dict.empty _ ctx)

-- one paid answer, and the same from the cache
def paidOnce : List (Request ℚ) :=
  [⟨member "acme" "sales", envAt 0 "1", .chat (ask "colour")⟩, ⟨member "acme" "sales", envAt 1 "2", .chat (ask "colour")⟩]

omit [Builtins] in
theorem costReportedSample :
    letI := asciiBuiltins [] []
    ∃ summary, ((createApp sampleSettings (replying "red" (some "stop")) (fun _ => "cid")).step
        ((createApp sampleSettings (replying "red" (some "stop")) (fun _ => "cid")).machine.exec AppState.initial paidOnce)
        ⟨member "acme" "sales", envAt 2 "3", .adminCost⟩).2.result = .ok (.cost summary) ∧
      CostLedger.Balanced defaultPrices (((createApp sampleSettings (replying "red" (some "stop")) (fun _ => "cid")).machine.replies
        AppState.initial paidOnce).filterMap billed) (member "acme" "sales") summary :=
  letI := asciiBuiltins [] []
  costReported sampleSettings (replying "red" (some "stop")) (fun _ => "cid") paidOnce (member "acme" "sales") (envAt 2 "3")

end ContextOS
