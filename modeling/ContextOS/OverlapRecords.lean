import ContextOS.Billing
import ContextOS.Overlap

/-! What overlapping chats leave behind. A reply goes to the chat that waits for it and
ends that chat only: its text is the answer, the recorded output of the chat's own bundle,
and one row of the ledger. No reply is lost on the way, and none counts twice. -/
namespace ContextOS
open Lib (Dict Parts Machine)

variable {R : Type}

abbrev History (R : Type) := List (Event R × Option (Response R))

-- the reply that a chat is answered with
structure Delivers (tenant traceId : String) (resp : ChatResponse) (served : Event R × Option (Response R)) : Prop where
  event : served.1 = .reply tenant traceId (.ok resp)
  answered : ∃ calls, served.2 = some ⟨.ok (.chat ⟨resp.text, traceId, resp.model, resp.usage⟩), calls⟩

-- the chat that waits was opened by a request of its tenant, and got no answer then
structure OpenedBy (past : History R) (tenant traceId : String) (w : Waiting R) : Prop where
  request : ∃ r : Request R, (Event.request r, none) ∈ past ∧ r.op = .chat w.frame.call ∧ r.ctx = w.frame.ctx ∧ r.env = w.frame.env
  tenant : w.frame.ctx.tenantId = tenant
  traceId : w.frame.env.traceId = traceId

theorem OpenedBy.later {past : History R} {tenant traceId : String} {w : Waiting R} (opened : OpenedBy past tenant traceId w)
    (next : Event R × Option (Response R)) : OpenedBy (past ++ [next]) tenant traceId w := by
  obtain ⟨r, member, same⟩ := opened.request
  exact ⟨⟨r, List.mem_append_left _ member, same⟩, opened.tenant, opened.traceId⟩

section Segments
variable [PyFloat R] [Builtins] {p : Pipeline R}

namespace Pipeline

theorem enterWaits {env : Env} {s stores : Stores R} {ctx : SecurityContext} {c : ChatCall} {w : Waiting R}
    (waits : p.enter env s ctx c = .waits w stores) : w.frame.ctx = ctx ∧ w.frame.env = env ∧ w.frame.call = c := by
  have entered := p.enterEntered env s ctx c
  rw [waits] at entered
  cases entered with
  | invoked frame spans sought =>
    cases sought with
    | waits same => exact ⟨same ▸ frame.sameCtx, same ▸ frame.sameEnv, same ▸ frame.sameCall⟩

theorem resumeWaits {w v : Waiting R} {s stores : Stores R} {reply : Except String ChatResponse}
    (waits : p.resume w s reply = .waits v stores) : v.frame = w.frame := by
  have resumed := p.resumeResumed w s reply
  rw [waits] at resumed
  cases resumed with
  | failed e backends sought =>
    cases sought with
    | waits same => exact same

theorem resumeAnswered (p : Pipeline R) (w : Waiting R) (s : Stores R) (resp : ChatResponse) :
    ∃ out, p.resume w s (.ok resp) = .ends out ∧ out.result = .ok ⟨resp.text, w.frame.env.traceId, resp.model, resp.usage⟩ ∧
      out.calls = w.calls ++ [⟨w.request, .ok resp⟩] := by
  have resumed := p.resumeResumed w s (.ok resp)
  generalize p.resume w s (.ok resp) = segment at resumed
  cases resumed with
  | completed => exact ⟨_, rfl, rfl, rfl⟩

theorem enterCache (p : Pipeline R) (env : Env) (s : Stores R) (ctx : SecurityContext) (c : ChatCall) :
    (p.enter env s ctx c).stores.cache = s.cache := by
  have entered := p.enterEntered env s ctx c
  generalize p.enter env s ctx c = segment at entered
  cases entered with
  | unreached unreached => cases unreached <;> rfl
  | invoked frame spans sought => cases sought <;> exact capturedCache _ _ _

theorem writebackCache (p : Pipeline R) (env : Env) (s : Stores R) (ctx : SecurityContext) (c : ChatCall) (model : String)
    (injected : Nat) (resp : ChatResponse) {tenant key : String} {stored : StoredEntry R}
    (there : ((p.writeback env s ctx c model injected resp).1.cache.part tenant).get key = some stored) :
    (s.cache.part tenant).get key = some stored ∨
    (resp.finishReason.isSome ∧ tenant = ctx.tenantId ∧ stored.responseText = resp.text) := by
  -- nothing is captured without a bundle
  have written := p.committedCache env s ctx c ⟨[], injected, 0, none, ("", [])⟩ s.backends model resp
  rcases written with same | ⟨cache, entry, finished, _, made, put⟩
  · exact .inl (same ▸ there)
  · change ((p.committed env s ctx c ⟨[], injected, 0, none, ("", [])⟩ s.backends model resp).cache.part tenant).get key = _ at there
    rw [put, InMemoryCacheBackend.put] at there
    obtain ⟨_, entryOf⟩ := SemanticCache.newEntryOf made
    rcases Parts.getPut there with ⟨owner, _, rfl⟩ | old
    · exact .inr ⟨finished, owner.trans entryOf.tenant, entryOf.text⟩
    · exact .inl old

theorem resumeCache {w : Waiting R} {s : Stores R} {reply : Except String ChatResponse} {tenant key : String} {stored : StoredEntry R}
    (there : ((p.resume w s reply).stores.cache.part tenant).get key = some stored) :
    (s.cache.part tenant).get key = some stored ∨
    ∃ resp, reply = .ok resp ∧ resp.finishReason.isSome ∧ tenant = w.frame.ctx.tenantId ∧ stored.responseText = resp.text := by
  have resumed := p.resumeResumed w s reply
  generalize p.resume w s reply = segment at resumed there
  cases resumed with
  | completed resp backends =>
    rcases p.writebackCache _ _ _ _ _ _ resp there with old | ⟨finished, owner, text⟩
    · exact .inl old
    · exact .inr ⟨resp, rfl, finished, owner, text⟩
  | failed e backends sought => cases sought <;> exact .inl there

end Pipeline
end Segments

section Answers
variable [PyFloat R] [Builtins] {a : App R}

def AllOpened (past : History R) (s : LoopState R) : Prop :=
  ∀ tenant traceId w, s.waiting tenant traceId = some w → OpenedBy past tenant traceId w

theorem serveOpened {past : History R} {s : LoopState R} (opened : AllOpened past s) (e : Event R) :
    AllOpened (past ++ [(e, (a.serve s e).2)]) (a.serve s e).1 := by
  intro tenant traceId w waits
  cases e with
  | request r =>
    by_cases chat : ∃ call, r.op = .chat call
    · obtain ⟨call, op⟩ := chat
      rw [App.serveChat s op] at waits ⊢
      rcases LoopState.turnedWaits waits with ⟨⟨rfl, rfl⟩, stores, entered⟩ | ⟨_, old⟩
      · obtain ⟨sameCtx, sameEnv, sameCall⟩ := Pipeline.enterWaits entered
        rw [entered]
        exact ⟨⟨r, by simp [LoopState.turned], sameCall ▸ op, sameCtx.symm, sameEnv.symm⟩, by rw [sameCtx], by rw [sameEnv]⟩
      · exact (opened tenant traceId w old).later _
    · rw [App.serveOther s (not_exists.mp chat)] at waits
      exact (opened tenant traceId w waits).later _
  | reply owner id reply =>
    cases held : s.waiting owner id with
    | none =>
      rw [App.serveLost held] at waits
      exact (opened tenant traceId w waits).later _
    | some before =>
      rw [App.serveReply held] at waits
      rcases LoopState.turnedWaits waits with ⟨⟨rfl, rfl⟩, stores, resumed⟩ | ⟨_, old⟩
      · obtain ⟨request, same, trace⟩ := (opened tenant traceId before held).later (.reply tenant traceId reply, _)
        rw [← Pipeline.resumeWaits resumed] at request same trace
        exact ⟨request, same, trace⟩
      · exact (opened tenant traceId w old).later _

theorem replyDelivers {past : History R} {s : LoopState R} {tenant traceId : String} {w : Waiting R}
    (waits : s.waiting tenant traceId = some w) (opened : OpenedBy past tenant traceId w) (resp : ChatResponse) :
    Delivers tenant traceId resp (.reply tenant traceId (.ok resp), (a.serve s (.reply tenant traceId (.ok resp))).2) := by
  obtain ⟨out, resumed, result, _⟩ := a.pipeline.resumeAnswered w s.app.stores resp
  refine ⟨rfl, out.calls, ?_⟩
  rw [App.serveReply waits, resumed]
  simp only [LoopState.turned, result, opened.traceId]
  rfl

def AllDelivered (past : History R) (s : Stores R) : Prop :=
  ∀ tenant key stored, (s.cache.part tenant).get key = some stored → ∃ served ∈ past, ∃ traceId resp,
    Delivers tenant traceId resp served ∧ resp.finishReason.isSome ∧ stored.responseText = resp.text

omit [PyFloat R] [Builtins] in
theorem AllDelivered.later {past : History R} {s t : Stores R} (delivered : AllDelivered past s) (same : t.cache = s.cache)
    (next : Event R × Option (Response R)) : AllDelivered (past ++ [next]) t := by
  intro tenant key stored there
  obtain ⟨served, member, given⟩ := delivered tenant key stored (same ▸ there)
  exact ⟨served, List.mem_append_left _ member, given⟩

theorem serveDelivered {past : History R} {s : LoopState R} (opened : AllOpened past s) (delivered : AllDelivered past s.app.stores)
    (e : Event R) : AllDelivered (past ++ [(e, (a.serve s e).2)]) (a.serve s e).1.app.stores := by
  cases e with
  | request r =>
    by_cases chat : ∃ call, r.op = .chat call
    · obtain ⟨call, op⟩ := chat
      refine delivered.later ?_ _
      rw [App.serveChat s op, LoopState.turnedStores]
      exact a.pipeline.enterCache _ _ _ _
    · refine delivered.later ?_ _
      obtain ⟨_, _, stores, _⟩ := a.otherStores s.app (not_exists.mp chat)
      rw [App.serveOther s (not_exists.mp chat), stores]
  | reply tenant traceId reply =>
    cases held : s.waiting tenant traceId with
    | none =>
      refine delivered.later ?_ _
      rw [App.serveLost held]
    | some w =>
      intro owner key stored there
      rw [App.serveReply held, LoopState.turnedStores] at there
      rcases Pipeline.resumeCache there with old | ⟨resp, rfl, finished, rfl, text⟩
      · exact delivered.later rfl _ owner key stored old
      · have asked := opened tenant traceId w held
        rw [asked.tenant]
        exact ⟨_, List.mem_append_right _ List.mem_cons_self, traceId, resp, replyDelivers held asked resp, finished, text⟩

/-- The answer was delivered to the very chat that gives it, or before to one of the same tenant. -/
inductive Sound (past : History R) : Event R → ChatResult → Prop where
  | delivered {tenant traceId : String} (resp : ChatResponse)
      (asked : ∃ (r : Request R) (call : ChatCall), (Event.request r, none) ∈ past ∧ r.op = .chat call ∧
        r.ctx.tenantId = tenant ∧ r.env.traceId = traceId) :
      Sound past (.reply tenant traceId (.ok resp)) ⟨resp.text, traceId, resp.model, resp.usage⟩
  | cached {r : Request R} {call : ChatCall} (chat : r.op = .chat call) {served : Event R × Option (Response R)}
      (member : served ∈ past) {traceId : String} {resp : ChatResponse} (delivers : Delivers r.ctx.tenantId traceId resp served)
      (finished : resp.finishReason.isSome) (model : String) : Sound past (.request r) ⟨resp.text, r.env.traceId, model, ⟨0, 0, 0⟩⟩

theorem lookupStored {p : Pipeline R} {env : Env} {s : Stores R} {ctx : SecurityContext} {c : ChatCall} {hit : CacheHit R}
    (found : p.lookup env s ctx c = some hit) :
    ∃ key stored, (s.cache.part ctx.tenantId).get key = some stored ∧ hit.responseText = stored.responseText := by
  obtain ⟨cache, _, found⟩ := Option.bind_eq_some_iff.mp found
  obtain ⟨stored, origin⟩ := SemanticCache.lookupHit found
  cases origin with
  | exact _ there => exact ⟨_, stored, there, rfl⟩
  | semantic member _ =>
    obtain ⟨key, there⟩ := Dict.memValues.mp member
    exact ⟨key, stored, there, rfl⟩

omit [PyFloat R] [Builtins] in
theorem mapReply {α : Type} {f : α → Reply R} {result : ChatResult} (other : ∀ value, f value ≠ .chat result)
    (x : Except PyError α) : x.map f ≠ .ok (.chat result) := by
  cases x with
  | error e => simp [Except.map]
  | ok value => simpa [Except.map] using other value

theorem otherReply (s : AppState R) {r : Request R} (other : ∀ call, r.op ≠ .chat call) (result : ChatResult) :
    (a.step s r).2.result ≠ .ok (.chat result) := by
  unfold App.step
  cases op : r.op with
  | chat call => exact absurd op (other call)
  | writeMemory content tier importance => dsimp only; split <;> simp [App.quiet]
  | retrieve query k => exact mapReply (by simp) _
  | getTrace traceId => dsimp only [App.quiet]; split <;> simp
  | replayTrace traceId mode => exact mapReply (fun value => by cases value <;> simp) _
  | getBundle traceId => dsimp only [App.quiet]; split <;> simp
  | memoryDiff x y => exact mapReply (by simp) _
  | memoryRollback cid => exact mapReply (by simp) _
  | traceDiff x y =>
    dsimp only [App.quiet, App.traceDiff]
    split <;> simp
  | _ => simp [App.quiet]

theorem overlapAnswers (front : List (Event R)) {e : Event R} {result : ChatResult} {calls : List AdapterCall}
    (answered : (a.loop.step (a.loop.exec .initial front) e).2 = some ⟨.ok (.chat result), calls⟩) :
    Sound (a.loop.replies .initial front) e result := by
  obtain ⟨opened, delivered⟩ : AllOpened (a.loop.replies .initial front) (a.loop.exec .initial front) ∧
      AllDelivered (a.loop.replies .initial front) (a.loop.exec .initial front).app.stores := by
    refine a.loop.historyInvariant (P := fun past s => AllOpened past s ∧ AllDelivered past s.app.stores) ?_ ?_ front
    · exact ⟨fun _ _ _ waits => by simp [LoopState.initial] at waits, fun _ _ _ there => by
        simp [LoopState.initial, AppState.initial] at there⟩
    · intro past s e given
      exact ⟨serveOpened given.1 e, serveDelivered given.1 given.2 e⟩
  generalize a.loop.exec .initial front = s at answered opened delivered
  generalize a.loop.replies .initial front = past at opened delivered ⊢
  change (a.serve s e).2 = _ at answered
  cases e with
  | request r =>
    by_cases chat : ∃ call, r.op = .chat call
    · obtain ⟨call, op⟩ := chat
      rw [App.serveChat s op] at answered
      have entered := a.pipeline.enterEntered r.env s.app.stores r.ctx call
      generalize a.pipeline.enter r.env s.app.stores r.ctx call = segment at entered answered
      cases entered with
      | unreached unreached =>
        cases unreached with
        | refused spans e => simp [LoopState.turned, Pipeline.finish, Except.map] at answered
        | hit found spans =>
          obtain ⟨key, stored, there, same⟩ := lookupStored found
          obtain ⟨served, member, id, resp, delivers, finished, text⟩ := delivered _ key stored there
          simp only [LoopState.turned, Pipeline.finish, Except.map, Option.some.injEq, Response.mk.injEq, Except.ok.injEq,
            Reply.chat.injEq] at answered
          rw [← answered.1, same, text]
          exact .cached op member delivers finished _
      | invoked frame spans sought => cases sought <;> simp [LoopState.turned, Pipeline.finish, Except.map] at answered
    · rw [App.serveOther s (not_exists.mp chat)] at answered
      have reply := congrArg Response.result (Option.some.inj answered)
      exact absurd reply (otherReply s.app (not_exists.mp chat) result)
  | reply tenant traceId reply =>
    cases held : s.waiting tenant traceId with
    | none => simp [App.serveLost held] at answered
    | some w =>
      rw [App.serveReply held] at answered
      cases reply with
      | error e =>
        have resumed := a.pipeline.resumeResumed w s.app.stores (.error e)
        generalize a.pipeline.resume w s.app.stores (.error e) = segment at resumed answered
        cases resumed with
        | failed e backends sought => cases sought <;> simp [LoopState.turned, Pipeline.finish, Except.map] at answered
      | ok resp =>
        obtain ⟨out, resumed, ended, _⟩ := a.pipeline.resumeAnswered w s.app.stores resp
        obtain ⟨r, member, op, sameCtx, sameEnv⟩ := (opened tenant traceId w held).request
        have own := (opened tenant traceId w held).tenant
        have trace := (opened tenant traceId w held).traceId
        rw [resumed] at answered
        simp only [LoopState.turned, ended, Except.map, Option.some.injEq, Response.mk.injEq, Except.ok.injEq,
          Reply.chat.injEq] at answered
        rw [← answered.1, trace]
        exact .delivered resp ⟨r, w.frame.call, member, op, by rw [sameCtx, own], by rw [sameEnv, trace]⟩

end Answers

theorem overlapAnswersSample :
    letI := asciiBuiltins colourDigests []
    ∃ result calls, (sampleApp.loop.step (sampleApp.loop.exec .initial overlapping) repeated).2 = some ⟨.ok (.chat result), calls⟩ ∧
      Sound (sampleApp.loop.replies .initial overlapping) repeated result := by
  let _ := asciiBuiltins colourDigests []
  have answered : ((sampleApp.loop.step (sampleApp.loop.exec .initial overlapping) repeated).2.bind chatResult?).isSome := by
    decide +kernel
  obtain ⟨result, given⟩ := Option.isSome_iff_exists.mp answered
  obtain ⟨response, replied, given⟩ := Option.bind_eq_some_iff.mp given
  have served : (sampleApp.loop.step (sampleApp.loop.exec .initial overlapping) repeated).2 =
      some ⟨.ok (.chat result), response.calls⟩ := by
    rw [replied, ← chatResultSome given]
  exact ⟨result, response.calls, served, overlapAnswers overlapping served⟩

section Recorded
variable [PyFloat R] [Builtins] {a : App R}

def openedIn (past : History R) : List String := openedTraces ((past.map Prod.fst).filterMap Event.opened)

def Event.attaches : Event R → Bool
  | .request r => r.attaches
  | .reply _ _ _ => false

structure Recorded (past : History R) (s : LoopState R) : Prop where
  waiting : ∀ tenant traceId w, s.waiting tenant traceId = some w →
    traceId ∈ openedIn past ∧ ∀ served ∈ past, ∀ resp, ¬ Delivers tenant traceId resp served
  bundles : ∀ tenant traceId b, (s.app.stores.bundles.part tenant).get traceId = some b →
    traceId ∈ openedIn past ∧ ∀ text, b.recordedOutput = some text ↔
      ∃ served ∈ past, ∃ resp, Delivers tenant traceId resp served ∧ resp.finishReason.isSome ∧ resp.text = text
  delivered : ∀ served ∈ past, ∀ tenant traceId resp, Delivers tenant traceId resp served → traceId ∈ openedIn past

namespace Pipeline
variable {p : Pipeline R}

theorem preparedUnrecorded {env : Env} {ctx : SecurityContext} {c : ChatCall} {candidates : List (MemoryCandidate R)}
    {prepared : Prepared R} {b : ContextBundle R} (ok : p.assembleStage env ctx c candidates = .ok prepared)
    (bundled : prepared.bundle = some b) : b.recordedOutput = none := by
  cases preparation ok with
  | passthrough => contradiction
  | assembled =>
    obtain ⟨d, _, rfl⟩ := Option.map_eq_some_iff.mp bundled
    rfl

theorem enterBundles {env : Env} {s : Stores R} {ctx : SecurityContext} {c : ChatCall} {tenant id : String} {b : ContextBundle R}
    (there : ((p.enter env s ctx c).stores.bundles.part tenant).get id = some b) :
    (s.bundles.part tenant).get id = some b ∨ (tenant = ctx.tenantId ∧ id = env.traceId ∧ b.recordedOutput = none) := by
  have entered := p.enterEntered env s ctx c
  generalize p.enter env s ctx c = segment at entered there
  cases entered with
  | unreached unreached => cases unreached <;> exact .inl there
  | @invoked f frame spans segment sought =>
    obtain ⟨found, reached⟩ := frame.reached
    have captured : ((captured s ctx f.prepared).bundles.part tenant).get id = some b := by
      cases sought <;> exact there
    rcases capturedBundle reached captured with old | ⟨owner, same, bundled⟩
    · exact .inl old
    · exact .inr ⟨owner, same, preparedUnrecorded reached.assembled bundled⟩

theorem resumeBundles (recording : p.replay.isSome) {w : Waiting R} {s : Stores R} {reply : Except String ChatResponse}
    {tenant id : String} {b : ContextBundle R} (there : ((p.resume w s reply).stores.bundles.part tenant).get id = some b) :
    (∃ resp, reply = .ok resp ∧ resp.finishReason.isSome ∧ tenant = w.frame.ctx.tenantId ∧ id = w.frame.env.traceId ∧
      b.recordedOutput = some resp.text) ∨
    ((s.bundles.part tenant).get id = some b ∧ ∀ resp, reply = .ok resp → resp.finishReason.isSome →
      ¬ (tenant = w.frame.ctx.tenantId ∧ id = w.frame.env.traceId)) := by
  have resumed := p.resumeResumed w s reply
  generalize p.resume w s reply = segment at resumed there
  cases resumed with
  | failed e backends sought => cases sought <;> exact .inr ⟨there, by simp⟩
  | completed resp backends =>
    simp only [Segment.stores, complete, finish, writeback] at there
    split at there
    · rename_i unfinished
      refine .inr ⟨there, ?_⟩
      rintro _ ⟨rfl⟩ finished
      simp [Option.isSome_iff_ne_none] at unfinished finished
      contradiction
    · rename_i finished
      obtain ⟨d, wired⟩ := Option.isSome_iff_exists.mp recording
      simp only [wired] at there
      by_cases own : tenant = w.frame.ctx.tenantId ∧ id = w.frame.env.traceId
      · obtain ⟨rfl, rfl⟩ := own
        obtain ⟨old, stored, _⟩ := InMemoryBundleStore.attachedBundle there
        refine .inl ⟨resp, rfl, by simpa [Option.isSome_iff_ne_none] using finished, rfl, rfl, ?_⟩
        cases Option.some.inj (there.symm.trans (InMemoryBundleStore.attachedSelf stored resp.text))
        rfl
      · rw [InMemoryBundleStore.attachedOther own] at there
        exact .inr ⟨there, fun _ _ _ => own⟩

end Pipeline

omit [PyFloat R] [Builtins] in
theorem openedNext (past : History R) (e : Event R) (response : Option (Response R)) :
    openedIn (past ++ [(e, response)]) = openedIn past ++ (e.opened.bind Request.opened).toList := by
  cases e with
  | request r => cases opened : r.opened <;> simp [openedIn, openedTraces, Event.opened, opened]
  | reply tenant traceId reply => simp [openedIn, openedTraces, Event.opened]

omit [PyFloat R] [Builtins] in
theorem requestUndelivered {tenant traceId : String} {resp : ChatResponse} {r : Request R} {response : Option (Response R)} :
    ¬ Delivers tenant traceId resp (.request r, response) := fun delivers => by simpa using delivers.event

omit [PyFloat R] [Builtins] in
theorem Recorded.quiet {past : History R} {s t : LoopState R} (recorded : Recorded past s)
    (waiting : ∀ tenant traceId w, t.waiting tenant traceId = some w → s.waiting tenant traceId = some w)
    (bundles : t.app.stores.bundles = s.app.stores.bundles) {next : Event R × Option (Response R)}
    (silent : ∀ tenant traceId resp, ¬ Delivers tenant traceId resp next) : Recorded (past ++ [next]) t := by
  have still : ∀ {id}, id ∈ openedIn past → id ∈ openedIn (past ++ [next]) := fun member => by
    rw [openedNext]
    exact List.mem_append_left _ member
  have former : ∀ {served tenant traceId resp}, served ∈ past ++ [next] → Delivers tenant traceId resp served → served ∈ past :=
    fun member delivers => (List.mem_append.mp member).resolve_right fun here =>
      silent _ _ _ (List.mem_singleton.mp here ▸ delivers)
  refine ⟨fun tenant id w waits => ?_, fun tenant id b there => ?_, fun served member tenant id resp delivers => ?_⟩
  · obtain ⟨opened, undelivered⟩ := recorded.waiting tenant id w (waiting tenant id w waits)
    exact ⟨still opened, fun served member resp delivers => undelivered served (former member delivers) resp delivers⟩
  · obtain ⟨opened, outputs⟩ := recorded.bundles tenant id b (bundles ▸ there)
    refine ⟨still opened, fun text => (outputs text).trans ⟨?_, ?_⟩⟩
    · rintro ⟨served, member, given⟩
      exact ⟨served, List.mem_append_left _ member, given⟩
    · rintro ⟨served, member, resp, delivers, given⟩
      exact ⟨served, former member delivers, resp, delivers, given⟩
  · exact still (recorded.delivered served (former member delivers) tenant id resp delivers)

theorem requestRecorded {past : History R} {s : LoopState R} (recorded : Recorded past s) {r : Request R}
    (fresh : (openedIn (past ++ [(.request r, (a.serve s (.request r)).2)])).Nodup) (untouched : (Event.request r).attaches = false) :
    Recorded (past ++ [(.request r, (a.serve s (.request r)).2)]) (a.serve s (.request r)).1 := by
  by_cases chat : ∃ call, r.op = .chat call
  · obtain ⟨call, op⟩ := chat
    have opened : (Event.request r).opened.bind Request.opened = some r.env.traceId := by
      simp [Event.opened, Request.opened, op]
    rw [openedNext, opened] at fresh
    have new : r.env.traceId ∉ openedIn past := fun member => by
      have apart := (List.nodup_append.mp fresh).2.2
      exact apart _ member _ (by simp) rfl
    -- the chat that is opened is the only one that can differ from before
    have before : Recorded (past ++ [(.request r, (a.serve s (.request r)).2)]) s :=
      recorded.quiet (fun _ _ _ => id) rfl fun _ _ _ => requestUndelivered
    have undelivered : ∀ served ∈ past ++ [(.request r, (a.serve s (.request r)).2)], ∀ tenant resp,
        ¬ Delivers tenant r.env.traceId resp served := by
      intro served member tenant resp delivers
      rcases List.mem_append.mp member with old | here
      · exact new (recorded.delivered served old tenant _ resp delivers)
      · exact requestUndelivered (List.mem_singleton.mp here ▸ delivers)
    have listed : r.env.traceId ∈ openedIn (past ++ [(.request r, (a.serve s (.request r)).2)]) := by
      rw [openedNext, opened]
      simp
    refine ⟨fun tenant id w waits => ?_, fun tenant id b there => ?_, before.delivered⟩
    · rw [App.serveChat s op] at waits
      rcases LoopState.turnedWaits waits with ⟨⟨rfl, rfl⟩, _⟩ | ⟨_, old⟩
      · exact ⟨listed, fun served member resp => undelivered served member _ resp⟩
      · exact before.waiting tenant id w old
    · have stored := there
      rw [App.serveChat s op, LoopState.turnedStores] at stored
      rcases Pipeline.enterBundles stored with old | ⟨rfl, rfl, unrecorded⟩
      · exact before.bundles tenant id b old
      · refine ⟨listed, fun text => ?_⟩
        rw [unrecorded]
        refine iff_of_false (by simp) ?_
        rintro ⟨served, member, resp, delivers, _⟩
        exact undelivered served member _ resp delivers
  · have other := not_exists.mp chat
    refine recorded.quiet ?_ ?_ fun _ _ _ => requestUndelivered
    · rw [App.serveOther s other]
      exact fun _ _ _ => id
    · obtain ⟨_, _, stores, kept⟩ := a.otherStores s.app other
      rw [App.serveOther s other, stores]
      exact kept untouched

theorem replyRecorded (recording : a.pipeline.replay.isSome) {past : History R} {s : LoopState R} (recorded : Recorded past s)
    (opened : AllOpened past s) (tenant traceId : String) (reply : Except String ChatResponse) :
    Recorded (past ++ [(.reply tenant traceId reply, (a.serve s (.reply tenant traceId reply)).2)])
      (a.serve s (.reply tenant traceId reply)).1 := by
  cases held : s.waiting tenant traceId with
  | none =>
    rw [App.serveLost held]
    refine recorded.quiet (fun _ _ _ => id) rfl fun _ _ _ delivers => ?_
    obtain ⟨calls, answered⟩ := delivers.answered
    simp at answered
  | some w =>
    obtain ⟨_, own, trace⟩ := opened tenant traceId w held
    obtain ⟨listed, undelivered⟩ := recorded.waiting tenant traceId w held
    have still : ∀ {id}, id ∈ openedIn past →
        id ∈ openedIn (past ++ [(.reply tenant traceId reply, (a.serve s (.reply tenant traceId reply)).2)]) := fun member => by
      rw [openedNext]
      exact List.mem_append_left _ member
    -- what the new event can deliver
    have here : ∀ {t id resp}, Delivers t id resp (.reply tenant traceId reply, (a.serve s (.reply tenant traceId reply)).2) →
        t = tenant ∧ id = traceId ∧ reply = .ok resp := fun delivers => by
      have event := delivers.event
      simp only [Event.reply.injEq] at event
      exact ⟨event.1.symm, event.2.1.symm, event.2.2⟩
    refine ⟨fun t id v waits => ?_, fun t id b there => ?_, fun served member t id resp delivers => ?_⟩
    · rw [App.serveReply held] at waits
      rcases LoopState.turnedWaits waits with ⟨⟨rfl, rfl⟩, stores, resumed⟩ | ⟨other, old⟩
      · refine ⟨still listed, fun served member resp delivers => ?_⟩
        rcases List.mem_append.mp member with old | new
        · exact undelivered served old resp delivers
        · obtain ⟨_, _, rfl⟩ := here (List.mem_singleton.mp new ▸ delivers)
          obtain ⟨out, ended, _⟩ := a.pipeline.resumeAnswered w s.app.stores resp
          rw [ended] at resumed
          contradiction
      · obtain ⟨listed, undelivered⟩ := recorded.waiting t id v old
        refine ⟨still listed, fun served member resp delivers => ?_⟩
        rcases List.mem_append.mp member with old | new
        · exact undelivered served old resp delivers
        · obtain ⟨rfl, rfl, _⟩ := here (List.mem_singleton.mp new ▸ delivers)
          exact other ⟨rfl, rfl⟩
    · have stored := there
      rw [App.serveReply held, LoopState.turnedStores] at stored
      rcases Pipeline.resumeBundles recording stored with ⟨resp, rfl, finished, rfl, rfl, output⟩ | ⟨before, apart⟩
      · subst own trace
        refine ⟨still listed, fun text => ?_⟩
        rw [output]
        constructor
        · rintro ⟨rfl⟩
          exact ⟨_, List.mem_append_right _ List.mem_cons_self, resp, replyDelivers held (opened _ _ w held) resp, finished, rfl⟩
        · rintro ⟨served, member, other, delivers, _, rfl⟩
          rcases List.mem_append.mp member with old | new
          · exact absurd delivers (undelivered served old other)
          · obtain ⟨_, _, ⟨rfl⟩⟩ := here (List.mem_singleton.mp new ▸ delivers)
            rfl
      · obtain ⟨listed, outputs⟩ := recorded.bundles t id b before
        refine ⟨still listed, fun text => (outputs text).trans ⟨?_, ?_⟩⟩
        · rintro ⟨served, member, given⟩
          exact ⟨served, List.mem_append_left _ member, given⟩
        · rintro ⟨served, member, resp, delivers, finished, given⟩
          rcases List.mem_append.mp member with old | new
          · exact ⟨served, old, resp, delivers, finished, given⟩
          · obtain ⟨rfl, rfl, replied⟩ := here (List.mem_singleton.mp new ▸ delivers)
            exact absurd ⟨own.symm, trace.symm⟩ (apart resp replied finished)
    · rcases List.mem_append.mp member with old | new
      · exact still (recorded.delivered served old t id resp delivers)
      · obtain ⟨rfl, rfl, _⟩ := here (List.mem_singleton.mp new ▸ delivers)
        exact still listed

-- a bundle holds the text of the reply that its own chat was answered with, and holds it as soon as there is one
theorem overlapRecorded (recording : a.pipeline.replay.isSome) {events : List (Event R)}
    (fresh : (openedTraces (events.filterMap Event.opened)).Nodup) (untouched : ∀ e ∈ events, e.attaches = false)
    {ctx : SecurityContext} {traceId : String} {b : ContextBundle R}
    (stored : (a.loop.exec .initial events).app.stores.bundles.get ctx traceId = some b) (text : String) :
    b.recordedOutput = some text ↔ ∃ served ∈ a.loop.replies .initial events, ∃ resp,
      Delivers ctx.tenantId traceId resp served ∧ resp.finishReason.isSome ∧ resp.text = text := by
  have run := a.loop.historyInvariant (s := .initial)
    (P := fun past s => AllOpened past s ∧ ((openedIn past).Nodup → (∀ served ∈ past, served.1.attaches = false) → Recorded past s))
    ⟨fun _ _ _ waits => by simp [LoopState.initial] at waits, fun _ _ =>
      ⟨fun _ _ _ waits => by simp [LoopState.initial] at waits, fun _ _ _ there => by simp [LoopState.initial, AppState.initial] at there,
        by simp⟩⟩
    (fun past s e given => by
      refine ⟨serveOpened given.1 e, fun fresh untouched => ?_⟩
      have earlier : (openedIn past).Nodup := by
        rw [openedNext] at fresh
        exact fresh.of_append_left
      have recorded := given.2 earlier fun served member => untouched served (List.mem_append_left _ member)
      have here := untouched _ (List.mem_append_right _ List.mem_cons_self)
      cases e with
      | request r => exact requestRecorded recorded fresh here
      | reply tenant id reply => exact replyRecorded recording recorded given.1 tenant id reply) events
  have inputs := a.loop.repliesInputs .initial events
  refine ((run.2 ?_ ?_).bundles _ _ b stored).2 text
  · rw [openedIn, inputs]
    exact fresh
  · intro served member
    exact untouched _ (inputs ▸ List.mem_map_of_mem member)

end Recorded

theorem overlapRecordedSample :
    letI := asciiBuiltins colourDigests []
    ∃ b, (sampleApp.loop.exec .initial overlapping).app.stores.bundles.get (member "acme" "sales") "trace-1" = some b ∧
      (b.recordedOutput = some "red" ↔ ∃ served ∈ sampleApp.loop.replies .initial overlapping, ∃ resp,
        Delivers "acme" "trace-1" resp served ∧ resp.finishReason.isSome ∧ resp.text = "red") := by
  let _ := asciiBuiltins colourDigests []
  have kept : ((sampleApp.loop.exec .initial overlapping).app.stores.bundles.get (member "acme" "sales") "trace-1").isSome := by
    decide +kernel
  obtain ⟨b, stored⟩ := Option.isSome_iff_exists.mp kept
  exact ⟨b, stored, overlapRecorded rfl (by decide) (by decide) stored "red"⟩

section Bills
variable [PyFloat R] [Builtins] {a : App R}

def finishes : Event R × Option (Response R) → Bool
  | (.reply _ _ (.ok resp), some _) => resp.finishReason.isSome
  | _ => false

-- the row is that of the delivered reply, under the model that was asked for it
structure Bills (call : CostLedger.Call) (served : Event R × Option (Response R)) : Prop where
  delivers : ∃ traceId resp, Delivers call.ctx.tenantId traceId resp served ∧ call.usage = resp.usage
  model : ∃ response sent, served.2 = some response ∧ response.calls.getLast? = some sent ∧ sent.request.model = call.modelId

namespace Pipeline

theorem enterCost (p : Pipeline R) (env : Env) (s : Stores R) (ctx : SecurityContext) (c : ChatCall) :
    (p.enter env s ctx c).stores.cost = s.cost := by
  have entered := p.enterEntered env s ctx c
  generalize p.enter env s ctx c = segment at entered
  cases entered with
  | unreached unreached => cases unreached <;> rfl
  | invoked frame spans sought => cases sought <;> exact capturedCost _ _ _

theorem resumeCost {p : Pipeline R} {prices : Dict String R} (priced : p.cost = some prices) (w : Waiting R) (s : Stores R)
    (reply : Except String ChatResponse) : (p.resume w s reply).stores.cost =
      match reply with
      | .ok resp => if resp.finishReason.isSome then s.cost.record prices w.frame.ctx w.request.model resp.usage else s.cost
      | .error _ => s.cost := by
  have resumed := p.resumeResumed w s reply
  generalize p.resume w s reply = segment at resumed
  cases resumed with
  | failed e backends sought => cases sought <;> rfl
  | completed resp backends =>
    simp only [Segment.stores, complete, finish, writeback, priced]
    cases resp.finishReason <;> rfl

end Pipeline

def Billed (prices : Dict String R) (past : History R) (s : Stores R) : Prop :=
  ∃ calls, s.cost = CostLedger.recordCalls prices Dict.empty calls ∧ List.Forall₂ Bills calls (past.filter finishes)

omit [Builtins] in
theorem Billed.free {prices : Dict String R} {past : History R} {s t : Stores R} (billed : Billed prices past s)
    (same : t.cost = s.cost) {next : Event R × Option (Response R)} (free : finishes next = false) : Billed prices (past ++ [next]) t := by
  obtain ⟨calls, ledger, bills⟩ := billed
  exact ⟨calls, same.trans ledger, by simpa [free] using bills⟩

theorem serveBilled {prices : Dict String R} (priced : a.pipeline.cost = some prices) {past : History R} {s : LoopState R}
    (opened : AllOpened past s) (billed : Billed prices past s.app.stores) (e : Event R) :
    Billed prices (past ++ [(e, (a.serve s e).2)]) (a.serve s e).1.app.stores := by
  cases e with
  | request r =>
    by_cases chat : ∃ call, r.op = .chat call
    · obtain ⟨call, op⟩ := chat
      refine billed.free ?_ rfl
      rw [App.serveChat s op, LoopState.turnedStores]
      exact a.pipeline.enterCost _ _ _ _
    · refine billed.free ?_ rfl
      obtain ⟨_, _, stores, _⟩ := a.otherStores s.app (not_exists.mp chat)
      rw [App.serveOther s (not_exists.mp chat), stores]
  | reply tenant traceId reply =>
    cases held : s.waiting tenant traceId with
    | none =>
      rw [App.serveLost held]
      exact billed.free rfl (by cases reply <;> rfl)
    | some w =>
      have cost := Pipeline.resumeCost priced w s.app.stores reply
      have stores : (a.serve s (.reply tenant traceId reply)).1.app.stores = (a.pipeline.resume w s.app.stores reply).stores := by
        rw [App.serveReply held, LoopState.turnedStores]
      rw [← stores] at cost
      cases reply with
      | error e => exact billed.free cost rfl
      | ok resp =>
        obtain ⟨_, own, _⟩ := opened tenant traceId w held
        have delivers := replyDelivers (a := a) held (opened tenant traceId w held) resp
        obtain ⟨out, resumed, _, called⟩ := a.pipeline.resumeAnswered w s.app.stores resp
        have response : (a.serve s (.reply tenant traceId (.ok resp))).2 = some ⟨out.result.map .chat, out.calls⟩ := by
          rw [App.serveReply held, resumed]
          rfl
        by_cases finished : resp.finishReason.isSome
        · obtain ⟨calls, ledger, bills⟩ := billed
          have row : Bills ⟨w.frame.ctx, w.request.model, resp.usage⟩
              (.reply tenant traceId (.ok resp), (a.serve s (.reply tenant traceId (.ok resp))).2) :=
            ⟨⟨traceId, resp, own ▸ delivers, rfl⟩, _, ⟨w.request, .ok resp⟩, response, by simp [called], rfl⟩
          have kept : finishes (.reply tenant traceId (.ok resp), (a.serve s (.reply tenant traceId (.ok resp))).2) = true := by
            rw [response]
            exact finished
          refine ⟨calls ++ [⟨w.frame.ctx, w.request.model, resp.usage⟩], ?_, ?_⟩
          · rw [cost, ledger, CostLedger.recordCalls, CostLedger.recordCalls, List.foldl_append]
            simp [finished]
          · rw [List.filter_append, List.filter_cons, if_pos kept]
            exact List.rel_append bills (.cons row .nil)
        · refine billed.free (cost.trans (if_neg finished)) ?_
          rw [response]
          exact Bool.eq_false_iff.mpr finished

/-- However the chats overlap, the ledger holds one row for each reply that finished one, and the cost report balances. -/
theorem overlapBilled [IsStrictOrderedRing R] (settings : ContextOSSettings) (adapter : Adapter)
    (digest : BundlePayload R → String) (events : List (Event R)) (ctx : SecurityContext) (env : Env) :
    ∃ calls summary, List.Forall₂ Bills calls (((createApp settings adapter digest).loop.replies .initial events).filter finishes) ∧
      ((createApp settings adapter digest).loop.exec .initial events).app.stores.cost =
        CostLedger.recordCalls defaultPrices Dict.empty calls ∧
      ((createApp settings adapter digest).loop.step ((createApp settings adapter digest).loop.exec .initial events)
        (.request ⟨ctx, env, .adminCost⟩)).2 = some ⟨.ok (.cost summary), []⟩ ∧ CostLedger.Balanced defaultPrices calls ctx summary := by
  have run := (createApp settings adapter digest).loop.historyInvariant (s := .initial)
    (P := fun past s => AllOpened past s ∧ Billed defaultPrices past s.app.stores)
    ⟨fun _ _ _ waits => by simp [LoopState.initial] at waits, [], rfl, .nil⟩
    (fun past s e given => ⟨serveOpened given.1 e, serveBilled rfl given.1 given.2 e⟩) events
  obtain ⟨calls, ledger, bills⟩ := run.2
  refine ⟨calls, _, bills, ledger, rfl, ?_⟩
  rw [ledger]
  exact CostLedger.recordsBalanced (CostLedger.recordsAfter defaultPrices Dict.empty calls ctx)

end Bills

theorem overlapBilledSample :
    letI := asciiBuiltins colourDigests []
    ∃ calls summary, List.Forall₂ Bills calls
        (((createApp sampleSettings (replying "red" (some "stop")) (fun _ => "cid")).loop.replies .initial overlapping).filter finishes) ∧
      ((createApp sampleSettings (replying "red" (some "stop")) (fun _ => "cid")).loop.exec .initial overlapping).app.stores.cost =
        CostLedger.recordCalls (defaultPrices : Dict String ℚ) Dict.empty calls ∧
      ((createApp sampleSettings (replying "red" (some "stop")) (fun _ => "cid")).loop.step
        ((createApp sampleSettings (replying "red" (some "stop")) (fun _ => "cid")).loop.exec .initial overlapping)
        (.request ⟨member "acme" "sales", envAt 5 "6", .adminCost⟩)).2 = some ⟨.ok (.cost summary), []⟩ ∧
      CostLedger.Balanced (defaultPrices : Dict String ℚ) calls (member "acme" "sales") summary :=
  letI := asciiBuiltins colourDigests []
  overlapBilled sampleSettings (replying "red" (some "stop")) (fun _ => "cid") overlapping (member "acme" "sales") (envAt 5 "6")

end ContextOS
