import ContextOS.Effects
import ContextOS.Executable

/-! Replay of captured decisions. The frozen payload is all that the assembly reads, so a
bundle rebuilds the prompt it was captured with in every later state; its recorded output
is the completion of its run, and is missing when the run was discarded or failed. Only
its own run and an attachment to it can change the bundle of a trace. The verdict on the
output can be trusted for a trace exactly when its run was not cut off. -/
namespace ContextOS
open Lib (Parts Machine)

variable {R : Type} [PyFloat R] [Builtins]

def completion : Except String ChatResponse → Option String
  | .ok resp => if resp.finishReason.isSome then some resp.text else none
  | .error _ => none

def Reproduces (d : ReplayDebugger R) (b : ContextBundle R) : Prop :=
  ∃ out, d.reassemble b.payload = .ok out ∧ renderPromptHash out.messages = b.promptHash

def reproduced (b : ContextBundle R) (traceId : String) (mode : ReplayMode) : ReplayResult :=
  ⟨traceId, b.bundleCid, mode, true, b.promptHash, b.promptHash, if mode = .recordedOutput then some true else none,
    b.recordedOutput,
    if mode = .liveBackend then some "live re-generation not compared (non-deterministic backend)" else none⟩

theorem replayReproduces {d : ReplayDebugger R} {store : InMemoryBundleStore R} {ctx traceId b}
    (stored : store.get ctx traceId = some b) (same : Reproduces d b) (mode : ReplayMode) :
    d.replay store ctx traceId mode = .ok (some (reproduced b traceId mode)) := by
  obtain ⟨out, assembled, hash⟩ := same
  simp only [ReplayDebugger.replay, stored, assembled, bind, Except.bind, hash, beq_self_eq_true, reproduced]
  rfl

/-! ### Capture -/

structure Debugs (d : ReplayDebugger R) (p : Pipeline R) : Prop where
  replay : p.replay = some d
  assembler : ∀ a, p.assembler = some a → a = d.assembler
  tokenizer : d.tokenizer = p.tokenizer

structure ReplayWired (p : Pipeline R) (d : ReplayDebugger R) : Prop where
  single : p.router = none
  replay : p.replay = some d
  assembler : p.assembler = some d.assembler
  tokenizer : d.tokenizer = p.tokenizer

omit [PyFloat R] [Builtins] in
theorem ReplayWired.debugs {p : Pipeline R} {d : ReplayDebugger R} (wired : ReplayWired p d) : Debugs d p :=
  ⟨wired.replay, fun _ given => (Option.some.inj (wired.assembler.symm.trans given)).symm, wired.tokenizer⟩

theorem frozenBundle {p : Pipeline R} {d : ReplayDebugger R} (wired : ReplayWired p d) {env ctx c candidates prepared}
    (ok : p.assembleStage env ctx c candidates = .ok prepared) : ∃ b, prepared.bundle = some b := by
  cases Pipeline.preparation ok with
  | passthrough unwired => simp [wired.assembler] at unwired
  | assembled => exact Option.isSome_iff_exists.mp (by simp [Pipeline.frozen, wired.replay])

theorem frozenReproduces {p : Pipeline R} {d : ReplayDebugger R} (wired : Debugs d p) {env ctx c candidates prepared}
    {b : ContextBundle R} (ok : p.assembleStage env ctx c candidates = .ok prepared) (bundled : prepared.bundle = some b) :
    Reproduces d b ∧ b.promptHash = renderPromptHash prepared.messages ∧ b.recordedOutput = none := by
  cases Pipeline.preparation ok with
  | passthrough => contradiction
  | @assembled a packing out wiredTo assembled spec decision =>
    cases wired.assembler a wiredTo
    simp only [Pipeline.frozen, wired.replay, Option.map_some, Option.some.injEq] at bundled
    subst bundled
    refine ⟨⟨out, ?_, rfl⟩, rfl, rfl⟩
    simpa only [ReplayDebugger.reassemble, ReplayDebugger.newBundle, wired.tokenizer, Pipeline.sourcesOf] using assembled

/-- The reply that ended the calls of a run, if it was finished. -/
def completed (calls : List AdapterCall) : Option String := calls.findSome? (fun sent => completion sent.reply)

omit [PyFloat R] [Builtins] in
theorem failedIncomplete {messages : List ChatMessage} {maxTokens : Int} {calls : List AdapterCall}
    (tried : ∀ call ∈ calls, Pipeline.FailedCall messages maxTokens call) : completed calls = none := by
  refine List.findSome?_eq_none_iff.mpr fun call member => ?_
  obtain ⟨e, raised⟩ := (tried call member).failed
  rw [raised, completion]

structure RecordedIn (d : ReplayDebugger R) (b : ContextBundle R) (response : Response R) : Prop where
  reproduces : Reproduces d b
  output : b.recordedOutput = completed response.calls
  returned : ∀ text, b.recordedOutput = some text → ∃ chat, response.result = .ok (.chat chat) ∧ chat.text = text

structure CapturedIn (d : ReplayDebugger R) (b : ContextBundle R) (response : Response R) : Prop where
  reproduces : Reproduces d b
  sent : ∃ sent, response.calls = [sent] ∧ b.promptHash = renderPromptHash sent.request.messages ∧
    b.recordedOutput = completion sent.reply
  returned : ∀ text, b.recordedOutput = some text → ∃ chat, response.result = .ok (.chat chat) ∧ chat.text = text

section Runs
variable {p : Pipeline R} {d : ReplayDebugger R} {env : Env} {s : Stores R} {ctx : SecurityContext} {c : ChatCall}
  {found : List (MemoryCandidate R)} {prepared : Prepared R}

theorem runRecorded (wired : Debugs d p) {frozen : ContextBundle R} (reached : Pipeline.Reached p env s ctx c found prepared)
    (bundled : prepared.bundle = some frozen) :
    ∃ b, (p.run env s ctx c).stores.bundles.get ctx env.traceId = some b ∧
      b.promptHash = renderPromptHash prepared.messages ∧
      RecordedIn d b ⟨(p.run env s ctx c).result.map .chat, (p.run env s ctx c).calls⟩ := by
  obtain ⟨reproduces, hash, empty⟩ := frozenReproduces wired reached.assembled bundled
  have stored : (Pipeline.captured s ctx prepared).bundles.get ctx env.traceId = some frozen := by
    simp only [Pipeline.captured, bundled, InMemoryBundleStore.put, InMemoryBundleStore.get,
      Pipeline.preparedTrace reached.assembled bundled, Parts.getPutSelf]
  obtain ⟨spans, run⟩ := Pipeline.runReached reached
  have ending := p.dispatchEnding env (Pipeline.captured s ctx prepared) ctx c spans prepared
  rw [← run] at ending
  generalize p.run env s ctx c = out at ending ⊢
  cases ending with
  | failed backends spans e tried =>
    refine ⟨frozen, stored, hash, reproduces, ?_, fun text recorded => ?_⟩
    · exact empty.trans (failedIncomplete tried).symm
    · rw [empty] at recorded
      contradiction
  | @completed backends spans failures model resp tried =>
    have last : completed (failures ++ [⟨⟨model, prepared.messages, c.maxTokens⟩, .ok resp⟩]) = completion (.ok resp) := by
      have before := failedIncomplete tried
      simp only [completed] at before ⊢
      rw [List.findSome?_append, before, Option.none_or]
      cases finish : completion (.ok resp) <;> simp [finish]
    cases finish : resp.finishReason with
    | none =>
      refine ⟨frozen, ?_, hash, reproduces, ?_, fun text recorded => ?_⟩
      · simpa [Pipeline.finish, Pipeline.writeback, finish] using stored
      · simp [Pipeline.finish, last, empty, completion, finish]
      · rw [empty] at recorded
        contradiction
    | some reason =>
      refine ⟨{ frozen with recordedOutput := some resp.text }, ?_, hash, reproduces, ?_, fun text recorded => ?_⟩
      · simpa [Pipeline.finish, Pipeline.writeback, finish, wired.replay] using
          InMemoryBundleStore.attachedSelf stored resp.text
      · simp [Pipeline.finish, last, completion, finish]
      · exact ⟨_, rfl, Option.some.inj recorded⟩

theorem singleCall (single : p.router = none) (reached : Pipeline.Reached p env s ctx c found prepared) :
    ∃ sent, (p.run env s ctx c).calls = [sent] ∧ sent.request.messages = prepared.messages := by
  have unrouted : p.routing (Pipeline.captured s ctx prepared) = none := by simp only [Pipeline.routing, single]
  obtain ⟨spans, run⟩ := Pipeline.runReached reached
  have ending := p.dispatchEnding env (Pipeline.captured s ctx prepared) ctx c spans prepared
  rw [← run] at ending
  generalize p.run env s ctx c = out at ending ⊢
  cases ending with
  | failed backends spans e tried alone =>
    obtain ⟨sent, calls⟩ := List.length_eq_one_iff.mp (alone unrouted).2
    exact ⟨sent, calls, (tried sent (by simp [calls])).messages⟩
  | completed backends spans failures tried alone =>
    obtain ⟨_, rfl⟩ := alone unrouted
    exact ⟨_, rfl, rfl⟩

theorem unreachedRun (unreached : ¬ ∃ found prepared, Pipeline.Reached p env s ctx c found prepared) :
    (p.run env s ctx c).calls = [] ∧ (p.run env s ctx c).stores.bundles = s.bundles := by
  have ending := p.runEnding env s ctx c
  generalize p.run env s ctx c = out at ending ⊢
  cases ending with
  | refused => exact ⟨rfl, rfl⟩
  | hit => exact ⟨rfl, rfl⟩
  | dispatched reached => exact absurd ⟨_, _, reached⟩ unreached

theorem runCaptured (wired : ReplayWired p d) (env : Env) (s : Stores R) (ctx : SecurityContext) (c : ChatCall) :
    ((p.run env s ctx c).calls = [] ∧ (p.run env s ctx c).stores.bundles = s.bundles) ∨
    ∃ b, (p.run env s ctx c).stores.bundles.get ctx env.traceId = some b ∧
      CapturedIn d b ⟨(p.run env s ctx c).result.map .chat, (p.run env s ctx c).calls⟩ := by
  by_cases reached : ∃ found prepared, Pipeline.Reached p env s ctx c found prepared
  · obtain ⟨found, prepared, reached⟩ := reached
    obtain ⟨frozen, bundled⟩ := frozenBundle wired reached.assembled
    obtain ⟨b, stored, hash, recorded⟩ := runRecorded wired.debugs reached bundled
    obtain ⟨sent, calls, messages⟩ := singleCall wired.single reached
    have output := recorded.output
    simp only [calls, completed, List.findSome?_cons, List.findSome?_nil] at output
    refine .inr ⟨b, stored, recorded.reproduces, ⟨sent, calls, by rw [hash, messages], ?_⟩, recorded.returned⟩
    rw [output]
    cases completion sent.reply <;> rfl
  · exact .inl (unreachedRun reached)

end Runs

def touches (tenant traceId : String) (r : Request R) : Prop :=
  r.ctx.tenantId = tenant ∧
    match r.op with
    | .chat _ => r.env.traceId = traceId
    | .attachOutput id _ => id = traceId
    | _ => False

variable (a : App R)

theorem stepUntouched (s : AppState R) {r : Request R} {tenant traceId : String} (other : ¬ touches tenant traceId r) :
    ((a.step s r).1.stores.bundles.part tenant).get traceId = (s.stores.bundles.part tenant).get traceId := by
  unfold App.step
  unfold touches at other
  cases op : r.op with
  | chat call =>
    simp only [op] at other
    exact a.pipeline.runBundlesOther r.env s.stores r.ctx call (fun same => other ⟨same.1.symm, same.2.symm⟩)
  | writeMemory content tier importance => dsimp only; split <;> rfl
  | attachOutput id output =>
    simp only [op] at other
    exact InMemoryBundleStore.attachedOther (fun same => other ⟨same.1.symm, same.2.symm⟩) output
  | _ => rfl

theorem keptAlong {tenant traceId : String} {back : List (Request R)} (others : ∀ r ∈ back, ¬ touches tenant traceId r)
    (s : AppState R) :
    ((a.machine.exec s back).stores.bundles.part tenant).get traceId = (s.stores.bundles.part tenant).get traceId := by
  induction back generalizing s with
  | nil => rfl
  | cons r rest ih =>
    obtain ⟨first, others⟩ := List.forall_mem_cons.mp others
    exact (ih others (a.step s r).1).trans (stepUntouched a s first)

theorem bundleOpened {requests : List (Request R)} {tenant traceId : String} {b : ContextBundle R}
    (stored : ((a.machine.exec AppState.initial requests).stores.bundles.part tenant).get traceId = some b) :
    traceId ∈ openedTraces requests := by
  have run := a.machine.historyInvariant
    (P := fun past s => ∀ b, (s.stores.bundles.part tenant).get traceId = some b → traceId ∈ openedTraces (past.map Prod.fst))
    (s := AppState.initial) (by simp [AppState.initial]) (fun past s r valid b stored => by
      rw [openedTraces, List.map_append, List.filterMap_append, List.mem_append]
      rcases a.stepBundles s r stored with ⟨old, there, _⟩ | ⟨_, rfl, call, _, _, _, op, _⟩
      · exact .inl (valid old there)
      · exact .inr (by simp [Request.opened, op])) requests
  rw [Machine.repliesInputs] at run
  exact run b stored

/-! ### Every later replay -/

structure Replays (response : Response R) (result : ReplayResult) : Prop where
  promptEqual : result.promptEqual = true
  sent : ∃ sent, response.calls = [sent] ∧
    result.promptHashExpected = renderPromptHash sent.request.messages ∧
    result.promptHashActual = renderPromptHash sent.request.messages ∧
    result.recordedOutput = completion sent.reply
  returned : ∀ text, result.recordedOutput = some text → ∃ chat, response.result = .ok (.chat chat) ∧ chat.text = text

omit [PyFloat R] [Builtins] in
theorem touchedOnce {front back : List (Request R)} {r : Request R} {call : ChatCall} (chat : r.op = .chat call)
    (distinct : (openedTraces (front ++ r :: back)).Nodup)
    (unattached : ∀ q ∈ back, q.ctx.tenantId = r.ctx.tenantId → ∀ output, q.op ≠ .attachOutput r.env.traceId output) :
    ∀ q ∈ back, ¬ touches r.ctx.tenantId r.env.traceId q := by
  have opened : r.opened = some r.env.traceId := by simp only [Request.opened, chat]
  simp only [openedTraces, List.filterMap_append, List.filterMap_cons, opened] at distinct
  have unused := (List.nodup_cons.mp (List.nodup_append.mp distinct).2.1).1
  intro q member given
  obtain ⟨tenant, effect⟩ := given
  split at effect
  · rename_i op
    exact unused (List.mem_filterMap.mpr ⟨q, member, by simp only [Request.opened, op, effect]⟩)
  · rename_i id output op
    exact unattached q member tenant output (by rw [op, effect])
  · exact effect

theorem replayKept {s : AppState R} {r : Request R} {b : ContextBundle R}
    (stored : (a.step s r).1.stores.bundles.get r.ctx r.env.traceId = some b) (same : Reproduces a.replay b)
    {back : List (Request R)} (others : ∀ q ∈ back, ¬ touches r.ctx.tenantId r.env.traceId q) {ctx : SecurityContext}
    (tenant : ctx.tenantId = r.ctx.tenantId) (mode : ReplayMode) :
    a.replay.replay (a.machine.exec s (r :: back)).stores.bundles ctx r.env.traceId mode =
      .ok (some (reproduced b r.env.traceId mode)) := by
  refine replayReproduces ?_ same mode
  have kept := keptAlong a others (a.step s r).1
  simp only [InMemoryBundleStore.get, tenant] at stored ⊢
  exact kept.trans stored

theorem replayAfter (wired : ReplayWired a.pipeline a.replay) {s : AppState R} {r : Request R} {call : ChatCall}
    (chat : r.op = .chat call) (called : (a.step s r).2.calls ≠ []) {back : List (Request R)}
    (others : ∀ q ∈ back, ¬ touches r.ctx.tenantId r.env.traceId q) {ctx : SecurityContext}
    (tenant : ctx.tenantId = r.ctx.tenantId) (mode : ReplayMode) :
    ∃ b, CapturedIn a.replay b (a.step s r).2 ∧
      a.replay.replay (a.machine.exec s (r :: back)).stores.bundles ctx r.env.traceId mode =
        .ok (some (reproduced b r.env.traceId mode)) := by
  rw [App.chatReply chat] at called ⊢
  rcases runCaptured wired r.env s.stores r.ctx call with ⟨quiet, _⟩ | ⟨b, stored, captured⟩
  · exact absurd quiet called
  · exact ⟨b, captured, replayKept a (by rw [App.chatStores chat]; exact stored) captured.reproduces others tenant mode⟩

theorem capturedCalls (wired : ReplayWired a.pipeline a.replay) {front : List (Request R)} {r : Request R}
    {call : ChatCall} (chat : r.op = .chat call) (distinct : (openedTraces (front ++ [r])).Nodup)
    (captured : ((a.machine.exec AppState.initial (front ++ [r])).stores.bundles.get r.ctx r.env.traceId).isSome) :
    (a.step (a.machine.exec AppState.initial front) r).2.calls ≠ [] := by
  have opened : r.opened = some r.env.traceId := by simp only [Request.opened, chat]
  have fresh : r.env.traceId ∉ openedTraces front := by
    simp only [openedTraces, List.filterMap_append, List.filterMap_cons, opened, List.filterMap_nil] at distinct
    intro used
    exact (List.nodup_append.mp distinct).2.2 _ used _ (by simp) rfl
  intro quiet
  simp only [App.step, chat] at quiet
  rcases runCaptured wired r.env (a.machine.exec AppState.initial front).stores r.ctx call with ⟨_, same⟩ | ⟨b, _, done⟩
  · have before : ((a.machine.exec AppState.initial front).stores.bundles.get r.ctx r.env.traceId).isSome := by
      have after : a.machine.exec AppState.initial (front ++ [r]) =
          (a.step (a.machine.exec AppState.initial front) r).1 := by rw [Machine.execAppend]; rfl
      simpa only [after, App.step, chat, same] using captured
    obtain ⟨b, stored⟩ := Option.isSome_iff_exists.mp before
    exact fresh (bundleOpened a stored)
  · obtain ⟨sent, alone, _⟩ := done.sent
    simp [quiet] at alone

omit a in
theorem createAppWired (settings : ContextOSSettings) (adapter : Adapter) (digest : BundlePayload R → String) :
    ReplayWired (createApp settings adapter digest).pipeline (createApp settings adapter digest).replay :=
  ⟨rfl, rfl, rfl, rfl⟩

omit a in
theorem replayFaithful (settings : ContextOSSettings) (adapter : Adapter) (digest : BundlePayload R → String)
    {front back : List (Request R)} {r : Request R} {call : ChatCall} (chat : r.op = .chat call)
    (distinct : (openedTraces (front ++ r :: back)).Nodup)
    (unattached : ∀ q ∈ back, q.ctx.tenantId = r.ctx.tenantId → ∀ output, q.op ≠ .attachOutput r.env.traceId output)
    (captured : (((createApp settings adapter digest).machine.exec AppState.initial (front ++ [r])).stores.bundles.get
      r.ctx r.env.traceId).isSome)
    {ctx : SecurityContext} (tenant : ctx.tenantId = r.ctx.tenantId) (mode : ReplayMode) :
    ∃ result, (createApp settings adapter digest).replay.replay
        ((createApp settings adapter digest).machine.exec AppState.initial (front ++ r :: back)).stores.bundles
        ctx r.env.traceId mode = .ok (some result) ∧
      Replays ((createApp settings adapter digest).step
        ((createApp settings adapter digest).machine.exec AppState.initial front) r).2 result := by
  have wired := createAppWired settings adapter digest
  have first : (openedTraces (front ++ [r])).Nodup := by
    refine distinct.sublist (List.Sublist.filterMap _ ?_)
    exact List.Sublist.append_left (by simp) front
  have called := capturedCalls _ wired chat first captured
  obtain ⟨b, done, replayed⟩ := replayAfter _ wired chat called (touchedOnce chat distinct unattached) tenant mode
  rw [Machine.execAppend]
  refine ⟨_, replayed, rfl, ?_, done.returned⟩
  obtain ⟨sent, alone, hash, output⟩ := done.sent
  exact ⟨sent, alone, hash, hash, output⟩

def remembered : List (Request ℚ) := [⟨member "acme" "sales", envAt 0 "1", .writeMemory "blue" .longTerm (1 / 2)⟩]
def groundedRun : Request ℚ := ⟨member "acme" "sales", envAt 1 "2", .chat (ask "colour")⟩
def laterOperations : List (Request ℚ) :=
  [⟨member "acme" "sales", envAt 2 "3", .writeMemory "green" .longTerm (1 / 2)⟩,
   ⟨member "acme" "sales", envAt 3 "4", .memoryCommit "later" "main"⟩,
   ⟨member "globex" "sales", envAt 4 "5", .chat (ask "colour")⟩]

omit [PyFloat R] [Builtins] a in
theorem replayFaithfulSample :
    letI := asciiBuiltins colourDigests []
    ∃ result, (createApp sampleSettings (replying "blue" (some "stop")) (fun _ => "cid")).replay.replay
        ((createApp sampleSettings (replying "blue" (some "stop")) (fun _ => "cid")).machine.exec AppState.initial
          (remembered ++ groundedRun :: laterOperations)).stores.bundles
        (member "acme" "legal") "trace-2" .recordedOutput = .ok (some result) ∧
      Replays ((createApp sampleSettings (replying "blue" (some "stop")) (fun _ => "cid")).step
        ((createApp sampleSettings (replying "blue" (some "stop")) (fun _ => "cid")).machine.exec AppState.initial
          remembered) groundedRun).2 result :=
  letI := asciiBuiltins colourDigests []
  replayFaithful sampleSettings (replying "blue" (some "stop")) (fun _ => "cid") rfl (by decide)
    (by simp [laterOperations]) (by decide +kernel) rfl .recordedOutput

/-! ### The output verdict -/

def AppState.serving (backends : Option (BackendRegistry R)) : AppState R :=
  { AppState.initial with stores := { AppState.initial.stores with backends := backends } }

def runsTrace (tenant traceId : String) (r : Request R) : Prop := r.ctx.tenantId = tenant ∧ r.opened = some traceId

def App.captures (s : AppState R) (r : Request R) : Prop :=
  ∃ call found prepared, r.op = .chat call ∧ Pipeline.Reached a.pipeline r.env s.stores r.ctx call found prepared ∧
    prepared.bundle.isSome

variable {a}

theorem capturesAssembler {s : AppState R} {r : Request R} (captures : a.captures s r) : a.pipeline.assembler ≠ none := by
  obtain ⟨call, found, prepared, _, reached, bundled⟩ := captures
  cases Pipeline.preparation reached.assembled with
  | passthrough => contradiction
  | assembled wired => simp [wired]

theorem capturesRecorded (wired : Debugs a.replay a.pipeline) {s : AppState R} {r : Request R} (captures : a.captures s r) :
    ∃ b, (a.step s r).1.stores.bundles.get r.ctx r.env.traceId = some b ∧ RecordedIn a.replay b (a.step s r).2 := by
  obtain ⟨call, found, prepared, chat, reached, bundled⟩ := captures
  obtain ⟨frozen, bundled⟩ := Option.isSome_iff_exists.mp bundled
  obtain ⟨b, stored, _, recorded⟩ := runRecorded wired reached bundled
  rw [App.chatReply chat, App.chatStores chat]
  exact ⟨b, stored, recorded⟩

/-- Without an assembler nothing is captured, but an answer would still be attached to a bundle there was. -/
theorem stepRecorded (wired : Debugs a.replay a.pipeline) {s : AppState R} {r : Request R} {tenant traceId : String}
    (unattached : r.ctx.tenantId = tenant → ∀ output, r.op ≠ .attachOutput traceId output) {b : ContextBundle R}
    (stored : ((a.step s r).1.stores.bundles.part tenant).get traceId = some b) :
    (s.stores.bundles.part tenant).get traceId = some b ∨
    (runsTrace tenant traceId r ∧ a.captures s r ∧ RecordedIn a.replay b (a.step s r).2) ∨
    (a.pipeline.assembler = none ∧ ∃ old, (s.stores.bundles.part tenant).get traceId = some old) := by
  by_cases touched : touches tenant traceId r
  · obtain ⟨owner, effect⟩ := touched
    split at effect
    · rename_i call op
      subst owner effect
      by_cases captures : a.captures s r
      · obtain ⟨new, there, recorded⟩ := capturesRecorded wired captures
        cases Option.some.inj (there.symm.trans stored)
        exact .inr (.inl ⟨⟨rfl, by simp only [Request.opened, op]⟩, captures, recorded⟩)
      · rcases a.stepBundles s r stored with ⟨old, there, _⟩ | ⟨_, _, call, found, prepared, frozen, chat, reached, bundled, _⟩
        · by_cases reached : ∃ found prepared, Pipeline.Reached a.pipeline r.env s.stores r.ctx call found prepared
          · obtain ⟨found, prepared, reached⟩ := reached
            refine .inr (.inr ⟨?_, old, there⟩)
            by_contra some
            obtain ⟨engine, given⟩ := Option.ne_none_iff_exists'.mp some
            refine captures ⟨call, found, prepared, op, reached, ?_⟩
            cases Pipeline.preparation reached.assembled with
            | passthrough unwired => exact absurd unwired some
            | assembled => simp [Pipeline.frozen, wired.replay]
          · rw [App.chatStores op, (unreachedRun reached).2] at stored
            exact .inl stored
        · exact absurd ⟨call, found, prepared, chat, reached, by simp [bundled]⟩ captures
    · rename_i id output op
      exact absurd (by rw [op, effect]) (unattached owner output)
    · exact effect.elim
  · exact .inl ((stepUntouched a s touched).symm.trans stored)

theorem storedRecorded (wired : Debugs a.replay a.pipeline) {backends : Option (BackendRegistry R)}
    {requests : List (Request R)} {tenant traceId : String}
    (unattached : ∀ q ∈ requests, q.ctx.tenantId = tenant → ∀ output, q.op ≠ .attachOutput traceId output)
    {b : ContextBundle R}
    (stored : ((a.machine.exec (AppState.serving backends) requests).stores.bundles.part tenant).get traceId = some b) :
    ∃ front r back, requests = front ++ r :: back ∧ runsTrace tenant traceId r ∧
      a.captures (a.machine.exec (AppState.serving backends) front) r ∧
      RecordedIn a.replay b (a.step (a.machine.exec (AppState.serving backends) front) r).2 := by
  induction requests using List.reverseRecOn generalizing b with
  | nil => simp [Machine.exec, AppState.serving, AppState.initial] at stored
  | append_singleton before last ih =>
    rw [List.forall_mem_append] at unattached
    have earlier : ∀ {old}, ((a.machine.exec (AppState.serving backends) before).stores.bundles.part tenant).get traceId =
        some old → ∃ front r back, before ++ [last] = front ++ r :: back ∧ runsTrace tenant traceId r ∧
          a.captures (a.machine.exec (AppState.serving backends) front) r ∧
          RecordedIn a.replay old (a.step (a.machine.exec (AppState.serving backends) front) r).2 := fun there => by
      obtain ⟨front, r, back, rfl, rest⟩ := ih unattached.1 there
      exact ⟨front, r, back ++ [last], by simp, rest⟩
    rw [Machine.execAppend] at stored
    rcases stepRecorded wired (unattached.2 last (by simp)) stored with old | new | ⟨unwired, old, there⟩
    · exact earlier old
    · exact ⟨before, last, [], by simp, new⟩
    · obtain ⟨_, _, _, _, _, captures, _⟩ := earlier there
      exact absurd unwired (capturesAssembler captures)

variable (a)

def VerdictSound (backends : Option (BackendRegistry R)) (requests : List (Request R)) (ctx : SecurityContext)
    (traceId : String) : Prop :=
  ∀ result, a.replay.replay (a.machine.exec (AppState.serving backends) requests).stores.bundles ctx traceId
      .recordedOutput = .ok (some result) → result.outputEqual = some true →
    ∃ text, result.recordedOutput = some text ∧ ∃ served ∈ a.machine.replies (AppState.serving backends) requests,
      runsTrace ctx.tenantId traceId served.1 ∧ completed served.2.calls = some text

def RunsFinished (backends : Option (BackendRegistry R)) (requests : List (Request R)) (tenant traceId : String) : Prop :=
  a.machine.Along (fun s r => runsTrace tenant traceId r → a.captures s r → (completed (a.step s r).2.calls).isSome)
    (AppState.serving backends) requests

omit [PyFloat R] [Builtins] a in
theorem runsTraceChat {tenant traceId : String} {r : Request R} (runs : runsTrace tenant traceId r) :
    r.ctx.tenantId = tenant ∧ r.env.traceId = traceId ∧ ∃ call, r.op = .chat call := by
  obtain ⟨owner, opened⟩ := runs
  unfold Request.opened at opened
  split at opened <;> try contradiction
  rename_i call op
  exact ⟨owner, Option.some.inj opened, call, op⟩

theorem verdictSoundIff (wired : Debugs a.replay a.pipeline) (backends : Option (BackendRegistry R))
    {requests : List (Request R)} (distinct : (openedTraces requests).Nodup) {ctx : SecurityContext} {traceId : String}
    (unattached : ∀ q ∈ requests, q.ctx.tenantId = ctx.tenantId → ∀ output, q.op ≠ .attachOutput traceId output) :
    VerdictSound a backends requests ctx traceId ↔ RunsFinished a backends requests ctx.tenantId traceId := by
  constructor
  · intro sound front r back split runs captures
    subst split
    obtain ⟨owner, rfl, call, chat⟩ := runsTraceChat runs
    rw [List.forall_mem_append, List.forall_mem_cons] at unattached
    have others := touchedOnce chat distinct (fun q later tenant => unattached.2.2 q later (tenant.trans owner))
    obtain ⟨b, stored, recorded⟩ := capturesRecorded wired captures
    have replayed := replayKept a stored recorded.reproduces others owner.symm .recordedOutput
    rw [← Machine.execAppend] at replayed
    obtain ⟨text, output, _⟩ := sound _ replayed rfl
    exact Option.isSome_iff_exists.mpr ⟨text, recorded.output.symm.trans output⟩
  · intro finished result replayed _
    cases stored : (a.machine.exec (AppState.serving backends) requests).stores.bundles.get ctx traceId with
    | none => simp [ReplayDebugger.replay, stored] at replayed
    | some b =>
      obtain ⟨front, r, back, rfl, runs, captures, recorded⟩ := storedRecorded wired unattached stored
      obtain ⟨text, complete⟩ := Option.isSome_iff_exists.mp (finished front r back rfl runs captures)
      cases Option.some.inj (Except.ok.inj ((replayReproduces stored recorded.reproduces .recordedOutput).symm.trans replayed))
      refine ⟨text, recorded.output.trans complete, (r, _), ?_, runs, complete⟩
      rw [Machine.repliesAppend]
      exact List.mem_append_right _ List.mem_cons_self

def routedApp (guard : PolicyEngine) : App ℚ :=
  let app : App ℚ := createApp sampleSettings (replying "blue" (some "stop")) (fun _ => "cid")
  { app with pipeline := { app.pipeline with router := some ⟨guard⟩ } }

omit [PyFloat R] a in
theorem routedDebugs (guard : PolicyEngine) : Debugs (routedApp guard).replay (routedApp guard).pipeline := by
  refine ⟨rfl, ?_, rfl⟩
  rintro engine ⟨⟩
  rfl

def opusAlone : Option (BackendRegistry ℚ) := some (BackendRegistry.empty.register opusBackend)

omit [PyFloat R] [Builtins] a in
theorem verdictSoundIffSample :
    letI := asciiBuiltins colourDigests []
    VerdictSound (routedApp ⟨none⟩) opusAlone (remembered ++ [groundedRun]) (member "acme" "sales") "trace-2" ↔
      RunsFinished (routedApp ⟨none⟩) opusAlone (remembered ++ [groundedRun]) "acme" "trace-2" :=
  letI := asciiBuiltins colourDigests []
  verdictSoundIff _ (routedDebugs ⟨none⟩) opusAlone (by decide) (by simp [remembered, groundedRun])

def verdict (backends : Option (BackendRegistry R)) (requests : List (Request R)) (ctx : SecurityContext) (traceId : String) :
    Option (Option Bool × Option String) :=
  (a.replay.replay (a.machine.exec (AppState.serving backends) requests).stores.bundles ctx traceId
    .recordedOutput).toOption.join.map (fun result => (result.outputEqual, result.recordedOutput))

variable {a} in
theorem equalToNothing {backends : Option (BackendRegistry R)} {requests : List (Request R)} {ctx : SecurityContext}
    {traceId : String} (given : verdict a backends requests ctx traceId = some (some true, none)) :
    ¬ VerdictSound a backends requests ctx traceId := by
  intro sound
  obtain ⟨result, replayed, equal⟩ := Option.map_eq_some_iff.mp given
  obtain ⟨outputEqual, missing⟩ := Prod.mk.inj equal
  cases run : a.replay.replay (a.machine.exec (AppState.serving backends) requests).stores.bundles ctx traceId
      .recordedOutput with
  | error e => simp [run, Except.toOption] at replayed
  | ok found =>
    have same : found = some result := by simpa [run, Except.toOption] using replayed
    obtain ⟨text, recorded, _⟩ := sound result (run.trans (congrArg _ same)) outputEqual
    rw [missing] at recorded
    contradiction

def closedRouter : PolicyEngine := ⟨some ⟨"closed", "acme", "", [⟨[], [], [.route], .deny⟩], .deny⟩⟩

omit [PyFloat R] [Builtins] a in
theorem discardedReportedEqual :
    letI := asciiBuiltins colourDigests []
    -- a stream that was cut off, and a run that no backend was eligible for
    ¬ VerdictSound (createApp sampleSettings (replying "bl" none) (fun _ => "cid") : App ℚ) none [groundedRun]
        (member "acme" "sales") "trace-2" ∧
      ¬ VerdictSound (routedApp closedRouter) opusAlone [groundedRun] (member "acme" "sales") "trace-2" :=
  letI := asciiBuiltins colourDigests []
  ⟨equalToNothing (by decide +kernel), equalToNothing (by decide +kernel)⟩

end ContextOS
