import ContextOS.Walk

/-! Write-back is all or nothing. A run that fails, or whose response was cut off, leaves
memories, cache and ledger as they were and records no output; a finished response adds
one cost record and is recorded on the bundle of its own run. -/
namespace ContextOS
open Lib (Dict Parts)

variable {R : Type}

structure Untouched (before after : Stores R) : Prop where
  memories : after.memories = before.memories
  cache : after.cache = before.cache
  cost : after.cost = before.cost
  outputs : ∀ tenant id b output, (after.bundles.part tenant).get id = some b → b.recordedOutput = some output →
    (before.bundles.part tenant).get id = some b

theorem Untouched.traced {before after : Stores R} (same : Untouched before after) (trace : Trace) :
    Untouched before { after with tracer := after.tracer.record trace } :=
  ⟨same.memories, same.cache, same.cost, same.outputs⟩

structure OutputRecorded (env : Env) (ctx : SecurityContext) (captured : Option (ContextBundle R)) (text : String)
    (before after : InMemoryBundleStore R) : Prop where
  own : ∀ frozen, captured = some frozen →
    after.get ctx env.traceId = some { frozen with recordedOutput := some text }
  uncaptured : captured = none → before.get ctx env.traceId = none → after = before
  others : ∀ tenant id, ¬ (tenant = ctx.tenantId ∧ id = env.traceId) →
    (after.part tenant).get id = (before.part tenant).get id

variable [PyFloat R]

structure CostRecorded (prices : Option (Dict String R)) (ctx : SecurityContext) (model : String) (usage : Usage)
    (before after : CostLedger R) : Prop where
  unpriced : prices = none → after = before
  own : ∀ table, prices = some table → after.records ctx.tenantId =
    before.records ctx.tenantId ++ [CostLedger.newRecord table ctx model usage]
  others : ∀ tenant, tenant ≠ ctx.tenantId → after.records tenant = before.records tenant

namespace Pipeline
variable [Builtins] {p : Pipeline R} {env : Env} {s : Stores R} {ctx : SecurityContext} {c : ChatCall}

theorem preparedOutput {candidates : List (MemoryCandidate R)} {prepared : Prepared R} {b : ContextBundle R}
    (ok : p.assembleStage env ctx c candidates = .ok prepared) (bundled : prepared.bundle = some b) :
    b.recordedOutput = none ∧ p.replay.isSome := by
  cases preparation ok with
  | passthrough => contradiction
  | assembled =>
    obtain ⟨d, wired, rfl⟩ := Option.map_eq_some_iff.mp bundled
    exact ⟨rfl, by rw [wired]; rfl⟩

theorem capturedUntouched {found : List (MemoryCandidate R)} {prepared : Prepared R}
    (reached : Reached p env s ctx c found prepared) (backends : Option (BackendRegistry R)) :
    Untouched s { captured s ctx prepared with backends := backends } := by
  refine ⟨by simp, by simp, by unfold captured; split <;> rfl, ?_⟩
  intro tenant id b output stored recorded
  rcases capturedBundle reached stored with old | ⟨_, _, bundled⟩
  · exact old
  · rw [(preparedOutput reached.assembled bundled).1] at recorded
    contradiction

theorem writtenCost {prepared : Prepared R} {model : String} {resp : ChatResponse} (finished : resp.finishReason.isSome)
    (backends : Option (BackendRegistry R)) :
    CostRecorded p.cost ctx model resp.usage (captured s ctx prepared).cost
      (p.committed env s ctx c prepared backends model resp).cost := by
  have ended : resp.finishReason.isNone = false := Option.isNone_eq_false_iff.mpr finished
  simp only [committed, writeback, ended, Bool.false_eq_true, if_false]
  cases p.cost with
  | none => exact ⟨fun _ => rfl, by simp, fun _ _ => rfl⟩
  | some table =>
    refine ⟨by simp, fun prices same => ?_, fun tenant foreign => ?_⟩
    · cases same
      simp only [CostLedger.record, CostLedger.records, Dict.getSetSelf, Option.getD_some]
    · simp only [CostLedger.record, CostLedger.records, Dict.getSetOther _ foreign]

theorem writtenOutput {found : List (MemoryCandidate R)} {prepared : Prepared R} {model : String} {resp : ChatResponse}
    (reached : Reached p env s ctx c found prepared) (finished : resp.finishReason.isSome)
    (backends : Option (BackendRegistry R)) :
    OutputRecorded env ctx prepared.bundle resp.text s.bundles
      (p.committed env s ctx c prepared backends model resp).bundles := by
  have ended : resp.finishReason.isNone = false := Option.isNone_eq_false_iff.mpr finished
  have outside : ∀ tenant id, ¬ (tenant = ctx.tenantId ∧ id = env.traceId) →
      ((captured s ctx prepared).bundles.part tenant).get id = (s.bundles.part tenant).get id :=
    fun tenant id different => capturedOther reached different
  simp only [committed, writeback, ended, Bool.false_eq_true, if_false]
  cases wired : p.replay with
  | none =>
    have unbundled : ∀ frozen, prepared.bundle ≠ some frozen := fun frozen bundled => by
      simpa [wired] using (preparedOutput reached.assembled bundled).2
    exact ⟨fun frozen bundled => absurd bundled (unbundled frozen), fun none _ => by simp only [captured, none], outside⟩
  | some d =>
    refine ⟨fun frozen bundled => ?_, fun none fresh => ?_, fun tenant id different => ?_⟩
    · refine InMemoryBundleStore.attachedSelf ?_ resp.text
      simp only [captured, bundled, ← preparedTrace reached.assembled bundled]
      exact Parts.getPutSelf _ _ _ _
    · simp only [captured, none, InMemoryBundleStore.attachOutput, fresh]
    · exact (InMemoryBundleStore.attachedOther different _).trans (outside tenant id different)

theorem cutOff {prepared : Prepared R} {model : String} {resp : ChatResponse} (cut : resp.finishReason = none)
    (backends : Option (BackendRegistry R)) :
    p.committed env s ctx c prepared backends model resp = { captured s ctx prepared with backends := backends } := by
  simp only [committed, writeback, cut, Option.isNone_none, if_true]

structure Served (p : Pipeline R) (env : Env) (s : Stores R) (ctx : SecurityContext) (c : ChatCall)
    (result : ChatResult) : Prop where
  answer : ∃ hit, p.lookup env s ctx c = some hit ∧ result.text = hit.responseText
  quiet : (p.run env s ctx c).calls = []
  untouched : Untouched s (p.run env s ctx c).stores
  bundles : (p.run env s ctx c).stores.bundles = s.bundles

structure Generated (p : Pipeline R) (env : Env) (s : Stores R) (ctx : SecurityContext) (c : ChatCall)
    (result : ChatResult) (prepared : Prepared R) (model : String) (resp : ChatResponse) : Prop where
  answered : ∃ found, Answered p env s ctx c found prepared model resp
  last : (p.run env s ctx c).calls.getLast? = some ⟨⟨model, prepared.messages, c.maxTokens⟩, .ok resp⟩
  text : result.text = resp.text
  discarded : resp.finishReason = none → Untouched s (p.run env s ctx c).stores
  memories : (p.run env s ctx c).stores.memories = s.memories
  cost : resp.finishReason.isSome → CostRecorded p.cost ctx model resp.usage s.cost (p.run env s ctx c).stores.cost
  output : resp.finishReason.isSome →
    OutputRecorded env ctx prepared.bundle resp.text s.bundles (p.run env s ctx c).stores.bundles

theorem allOrNothing (p : Pipeline R) (env : Env) (s : Stores R) (ctx : SecurityContext) (c : ChatCall) :
    (∀ e, (p.run env s ctx c).result = .error e → Untouched s (p.run env s ctx c).stores) ∧
    ∀ result, (p.run env s ctx c).result = .ok result →
      p.Served env s ctx c result ∨ ∃ prepared model resp, p.Generated env s ctx c result prepared model resp := by
  have memories := p.runMemories env s ctx c
  have ended := p.runEnded env s ctx c
  generalize run : p.run env s ctx c = out at memories ended
  cases ended with
  | refused spans e => exact ⟨fun _ _ => ⟨rfl, rfl, rfl, fun _ _ _ _ stored _ => stored⟩, by simp [finish]⟩
  | @hit hit found spans =>
    refine ⟨by simp [finish], fun result ok => .inl ?_⟩
    cases Except.ok.inj ok
    exact ⟨⟨hit, found, rfl⟩, by rw [run]; rfl, by rw [run]; exact ⟨rfl, rfl, rfl, fun _ _ _ _ stored _ => stored⟩,
      by rw [run]; rfl⟩
  | failed reached backends spans e tried =>
    exact ⟨fun _ _ => (capturedUntouched reached backends).traced _, by simp [finish]⟩
  | @answered found prepared model resp answered backends spans failures tried =>
    refine ⟨by simp [finish], fun result ok => .inr ⟨prepared, model, resp, ?_⟩⟩
    cases Except.ok.inj ok
    refine ⟨⟨found, answered⟩, by rw [run]; simp [finish], rfl, fun cut => ?_, by rw [run]; exact memories,
      fun finished => ?_, fun finished => ?_⟩
    · rw [run]
      simp only [finish, cutOff cut]
      exact (capturedUntouched answered.reached backends).traced _
    · have cost : CostRecorded p.cost ctx model resp.usage (captured s ctx prepared).cost
          (p.committed env s ctx c prepared backends model resp).cost := writtenCost finished backends
      rw [(capturedUntouched answered.reached backends).cost] at cost
      rw [run]
      exact cost
    · rw [run]
      exact writtenOutput answered.reached finished backends

end Pipeline
end ContextOS
