import ContextOS.ReplayFaithful
import ContextOS.Walk

/-! Which answers can be replayed. A run that reaches the assembler freezes a bundle that
replays in every later state, as no operation removes a bundle or touches its payload. An
answer from the cache returns a fresh trace id that no bundle was ever stored under. -/
namespace ContextOS
open Lib (Parts Machine)

variable {R : Type}

/-! ### Bundles stay -/

theorem InMemoryBundleStore.attachedKeeps {s : InMemoryBundleStore R} {ctx : SecurityContext}
    {traceId output tenant id : String} {b : ContextBundle R} (found : (s.part tenant).get id = some b) :
    ∃ b', ((s.attachOutput ctx traceId output).part tenant).get id = some b' := by
  unfold attachOutput
  split
  · exact ⟨b, found⟩
  · exact Parts.putKeeps found

namespace Pipeline

theorem capturedKeeps {s : Stores R} (ctx : SecurityContext) (prepared : Prepared R) {tenant id : String}
    {b : ContextBundle R} (found : (s.bundles.part tenant).get id = some b) :
    ∃ b', ((captured s ctx prepared).bundles.part tenant).get id = some b' := by
  unfold captured
  split
  · exact ⟨b, found⟩
  · exact Parts.putKeeps found

variable [PyFloat R] [Builtins]

theorem writebackKeeps {p : Pipeline R} {env : Env} {s : Stores R} {ctx : SecurityContext} {c : ChatCall}
    {model : String} {injected : Nat} {resp : ChatResponse} {tenant id : String} {b : ContextBundle R}
    (found : (s.bundles.part tenant).get id = some b) :
    ∃ b', ((p.writeback env s ctx c model injected resp).1.bundles.part tenant).get id = some b' := by
  unfold writeback
  split
  · exact ⟨b, found⟩
  · dsimp only
    split
    · exact ⟨b, found⟩
    · exact InMemoryBundleStore.attachedKeeps found

theorem runKeepsBundle (p : Pipeline R) (env : Env) {s : Stores R} (ctx : SecurityContext) (c : ChatCall)
    {tenant id : String} {b : ContextBundle R} (found : (s.bundles.part tenant).get id = some b) :
    ∃ b', ((p.run env s ctx c).stores.bundles.part tenant).get id = some b' := by
  have ended := p.runEnded env s ctx c
  generalize p.run env s ctx c = out at ended ⊢
  cases ended with
  | refused => exact ⟨b, found⟩
  | hit => exact ⟨b, found⟩
  | @failed _ prepared => exact capturedKeeps ctx prepared found
  | @answered _ prepared model resp answered backends =>
    obtain ⟨frozen, there⟩ := capturedKeeps ctx prepared found
    exact writebackKeeps (s := { captured s ctx prepared with backends := backends }) there

theorem runTraceId {p : Pipeline R} {env : Env} {s : Stores R} {ctx : SecurityContext} {c : ChatCall} {result : ChatResult}
    (ok : (p.run env s ctx c).result = .ok result) : result.traceId = env.traceId := by
  have ended := p.runEnded env s ctx c
  generalize p.run env s ctx c = out at ended ok
  cases ended with
  | refused => simp [finish] at ok
  | hit => rw [← Except.ok.inj ok]
  | failed => simp [finish] at ok
  | answered => rw [← Except.ok.inj ok]

theorem hitBundles {p : Pipeline R} {env : Env} {s : Stores R} {ctx : SecurityContext} {c : ChatCall} {hit : CacheHit R}
    (found : p.lookup env s ctx c = some hit) : (p.run env s ctx c).stores.bundles = s.bundles := by
  have ending := p.runEnding env s ctx c
  generalize p.run env s ctx c = out at ending ⊢
  cases ending with
  | refused => rfl
  | hit => rfl
  | dispatched reached =>
    rw [reached.miss] at found
    contradiction

end Pipeline

namespace App
variable [PyFloat R] [Builtins] (a : App R)

theorem stepKeepsBundle {s : AppState R} (r : Request R) {tenant id : String} {b : ContextBundle R}
    (found : (s.stores.bundles.part tenant).get id = some b) :
    ∃ b', ((a.step s r).1.stores.bundles.part tenant).get id = some b' := by
  unfold App.step
  cases r.op with
  | chat call => exact a.pipeline.runKeepsBundle r.env r.ctx call found
  | writeMemory content tier importance => dsimp only; split <;> exact ⟨b, found⟩
  | attachOutput traceId output => exact InMemoryBundleStore.attachedKeeps found
  | _ => exact ⟨b, found⟩

theorem keepsBundle {s : AppState R} (requests : List (Request R)) {tenant id : String} {b : ContextBundle R}
    (found : (s.stores.bundles.part tenant).get id = some b) :
    ∃ b', ((a.machine.exec s requests).stores.bundles.part tenant).get id = some b' :=
  a.machine.invariant (P := fun t => ∃ b', (t.stores.bundles.part tenant).get id = some b')
    (fun _ r kept => a.stepKeepsBundle r kept.choose_spec) ⟨b, found⟩ requests

/-! ### Bundles reproduce -/

def AllReproduce (s : AppState R) : Prop :=
  ∀ tenant id b, (s.stores.bundles.part tenant).get id = some b → Reproduces a.replay b

omit a in
theorem amendedReproduces {d : ReplayDebugger R} {b old : ContextBundle R} (amends : InMemoryBundleStore.Amends b old)
    (same : Reproduces d old) : Reproduces d b := by
  obtain ⟨output, rfl⟩ := amends
  exact same

theorem stepReproduces (wired : ReplayWired a.pipeline a.replay) {s : AppState R} (r : Request R)
    (valid : a.AllReproduce s) : a.AllReproduce (a.step s r).1 := by
  intro tenant id b stored
  rcases a.stepBundles s r stored with ⟨old, there, amends⟩ | ⟨_, _, call, found, prepared, frozen, _, reached, bundled, amends⟩
  · exact amendedReproduces amends (valid tenant id old there)
  · exact amendedReproduces amends (frozenReproduces wired.debugs reached.assembled bundled).1

theorem reachableReproduce (wired : ReplayWired a.pipeline a.replay) (requests : List (Request R)) :
    a.AllReproduce (a.machine.exec AppState.initial requests) :=
  a.machine.invariant (P := a.AllReproduce) (fun _ r valid => a.stepReproduces wired r valid)
    (by intro tenant id b stored; simp [AppState.initial] at stored) requests

/-! ### Answers that replay -/

def Replayable (s : AppState R) (tenant traceId : String) : Prop :=
  ∀ ctx mode, ctx.tenantId = tenant → ∃ result, a.replay.replay s.stores.bundles ctx traceId mode = .ok (some result)

theorem replayableStored (wired : ReplayWired a.pipeline a.replay) (requests : List (Request R)) {ctx : SecurityContext}
    {traceId : String} : a.Replayable (a.machine.exec AppState.initial requests) ctx.tenantId traceId ↔
      ∃ b, (a.machine.exec AppState.initial requests).stores.bundles.get ctx traceId = some b := by
  constructor
  · intro replayable
    obtain ⟨result, replayed⟩ := replayable ctx .recordedOutput rfl
    unfold ReplayDebugger.replay at replayed
    split at replayed
    · cases Except.ok.inj replayed
    · rename_i b stored
      exact ⟨b, stored⟩
  · intro present other mode owner
    obtain ⟨b, stored⟩ := present
    refine ⟨_, replayReproduces (b := b) ?_ (a.reachableReproduce wired requests _ _ b stored) mode⟩
    simpa only [InMemoryBundleStore.get, owner] using stored

theorem missStored (wired : ReplayWired a.pipeline a.replay) {s : AppState R} {r : Request R} {call : ChatCall}
    (chat : r.op = .chat call) {result : ChatResult} (answered : (a.step s r).2.result = .ok (.chat result))
    (miss : a.pipeline.lookup r.env s.stores r.ctx call = none) :
    ∃ b, (a.step s r).1.stores.bundles.get r.ctx r.env.traceId = some b := by
  rw [chatStores chat]
  rcases runCaptured wired r.env s.stores r.ctx call with ⟨quiet, _⟩ | ⟨b, stored, _⟩
  · obtain ⟨hit, found, _⟩ := a.pipeline.quietHit r.env s.stores r.ctx call (chatAnswered chat answered) quiet
    rw [miss] at found
    contradiction
  · exact ⟨b, stored⟩

end App

theorem replayableIff [PyFloat R] [Builtins] (settings : ContextOSSettings) (adapter : Adapter)
    (digest : BundlePayload R → String) {front : List (Request R)} {r : Request R} {call : ChatCall}
    (chat : r.op = .chat call) (fresh : r.env.traceId ∉ openedTraces front) {result : ChatResult}
    (answered : ((createApp settings adapter digest).step
      ((createApp settings adapter digest).machine.exec AppState.initial front) r).2.result = .ok (.chat result)) :
    (∀ back, (createApp settings adapter digest).Replayable
      ((createApp settings adapter digest).machine.exec AppState.initial (front ++ r :: back)) r.ctx.tenantId result.traceId) ↔
    (createApp settings adapter digest).pipeline.lookup r.env
      ((createApp settings adapter digest).machine.exec AppState.initial front).stores r.ctx call = none := by
  have wired := createAppWired settings adapter digest
  generalize createApp settings adapter digest = a at wired answered ⊢
  have trace : result.traceId = r.env.traceId := Pipeline.runTraceId (App.chatAnswered chat answered)
  rw [trace]
  constructor
  · intro replayable
    obtain ⟨b, stored⟩ := (a.replayableStored wired _).mp (replayable [])
    rw [Machine.execAppend] at stored
    cases found : a.pipeline.lookup r.env (a.machine.exec AppState.initial front).stores r.ctx call with
    | none => rfl
    | some hit =>
      change (a.step (a.machine.exec AppState.initial front) r).1.stores.bundles.get r.ctx r.env.traceId = some b at stored
      rw [App.chatStores chat, Pipeline.hitBundles found] at stored
      exact absurd (bundleOpened a stored) fresh
  · intro miss back
    refine (a.replayableStored wired _).mpr ?_
    obtain ⟨b, stored⟩ := a.missStored wired chat answered miss
    rw [Machine.execAppend]
    exact a.keepsBundle back stored

def askedFirst : Request ℚ := ⟨member "acme" "sales", envAt 0 "1", .chat (ask "colour")⟩
def askedNext : Request ℚ := ⟨member "acme" "sales", envAt 1 "2", .chat (ask "colour")⟩

theorem repliedChat {x : Except PyError (Reply ℚ)} (replied : x.toOption.any (fun reply => reply matches .chat _) = true) :
    ∃ result, x = .ok (.chat result) := by
  obtain ⟨reply, ok, chat⟩ := Option.any_eq_true _ _ |>.mp replied
  cases reply with
  | chat result => exact ⟨result, Lib.toOptionOk.mp ok⟩
  | _ => contradiction

theorem replayableIffSample :
    letI := asciiBuiltins colourDigests []
    ∃ result, (sampleApp.step AppState.initial askedFirst).2.result = .ok (.chat result) ∧
      ∀ back, sampleApp.Replayable (sampleApp.machine.exec AppState.initial (askedFirst :: back)) "acme" result.traceId := by
  let _ := asciiBuiltins colourDigests []
  obtain ⟨result, answered⟩ := repliedChat
    (x := (sampleApp.step AppState.initial askedFirst).2.result) (by decide +kernel)
  have fresh : askedFirst.env.traceId ∉ openedTraces ([] : List (Request ℚ)) := by simp [openedTraces]
  refine ⟨result, answered, (replayableIff sampleSettings _ _ rfl fresh answered).mpr ?_⟩
  decide +kernel

theorem hitNotReplayable :
    letI := asciiBuiltins colourDigests []
    ∃ result, (sampleApp.step (sampleApp.machine.exec AppState.initial [askedFirst]) askedNext).2.result =
        .ok (.chat result) ∧
      ¬ sampleApp.Replayable (sampleApp.machine.exec AppState.initial [askedFirst, askedNext]) "acme" result.traceId := by
  let _ := asciiBuiltins colourDigests []
  obtain ⟨result, answered⟩ := repliedChat
    (x := (sampleApp.step (sampleApp.machine.exec AppState.initial [askedFirst]) askedNext).2.result) (by decide +kernel)
  refine ⟨result, answered, fun replayable => ?_⟩
  rw [Pipeline.runTraceId (App.chatAnswered rfl answered)] at replayable
  obtain ⟨found, replayed⟩ := replayable (member "acme" "sales") .recordedOutput rfl
  have absent : (sampleApp.replay.replay (sampleApp.machine.exec AppState.initial [askedFirst, askedNext]).stores.bundles
      (member "acme" "sales") askedNext.env.traceId .recordedOutput).toOption = some none := by decide +kernel
  cases (Lib.toOptionOk.mpr replayed).symm.trans absent

end ContextOS
