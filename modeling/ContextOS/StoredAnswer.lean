import ContextOS.CacheSoundness
import ContextOS.Grounding
import ContextOS.Walk

/-! Finding a stored answer again. The lookup key names the model that was asked for, the
store key the model that answered: what write-back stored is found by the same request
exactly when the two are one model. An entry stays until its key is stored to again. -/
namespace ContextOS
open Lib (Parts toOptionOk)

variable {R : Type}

namespace Pipeline
variable [PyFloat R] [Builtins] {p : Pipeline R}

/-! ### What a run stores -/

structure StoresEntry (p : Pipeline R) (env : Env) (s : Stores R) (ctx : SecurityContext) (c : ChatCall)
    (entry : StoredEntry R) : Prop where
  answered : ∃ found prepared model resp cache, Answered p env s ctx c found prepared model resp ∧
    resp.finishReason.isSome ∧ p.cache = some cache ∧
    cache.newEntry env.storeAt ctx c.prompt resp.text (cacheKeywords c model) (0 < prepared.injected) none = some entry

theorem runKeepsEntry {env : Env} {s : Stores R} {ctx : SecurityContext} {c : ChatCall} {tenant key : String}
    (unstored : ∀ entry, p.StoresEntry env s ctx c entry → ¬ (tenant = entry.entry.tenantId ∧ key = entry.entry.key)) :
    ((p.run env s ctx c).stores.cache.part tenant).get key = (s.cache.part tenant).get key := by
  have ended := p.runEnded env s ctx c
  generalize p.run env s ctx c = out at ended ⊢
  cases ended with
  | refused => rfl
  | hit => rfl
  | failed => simp [finish]
  | @answered found prepared model resp answered backends spans failures tried =>
    dsimp only [finish]
    rcases p.committedCache env s ctx c prepared backends model resp with
      same | ⟨cache, entry, finished, wired, made, put⟩
    · rw [same]
    · rw [put, InMemoryCacheBackend.put]
      exact Parts.getPutOther (unstored entry ⟨found, prepared, model, resp, cache, answered, finished, wired, made⟩) _

theorem serveKeepsEntry {s : Stores R} {r : PipelineRequest R} {tenant key : String}
    (unstored : ∀ call entry, r.op = .run call → p.StoresEntry r.env s r.ctx call entry →
      ¬ (tenant = entry.entry.tenantId ∧ key = entry.entry.key)) :
    ((p.serve s r).1.cache.part tenant).get key = (s.cache.part tenant).get key := by
  unfold serve
  split
  · split <;> rfl
  · split <;> rfl
  · rename_i call op
    exact runKeepsEntry fun entry => unstored call entry op

end Pipeline

/-! ### Stored runs -/

structure StoredRun [PyFloat R] [Builtins] (p : Pipeline R) extends AnsweredRun p where
  cache : SemanticCache R
  entry : StoredEntry R
  finished : resp.finishReason.isSome
  wired : p.cache = some cache
  stored : cache.newEntry env.storeAt ctx call.prompt resp.text (Pipeline.cacheKeywords call model)
    (0 < prepared.injected) none = some entry

namespace StoredRun
variable [PyFloat R] [Builtins] {p : Pipeline R} (x : StoredRun p)

/-- The output limit is no part of the key. -/
def again (maxTokens : Int) : ChatCall := { x.call with maxTokens := maxTokens }

def FoundIn (s : Stores R) (env : Env) (maxTokens : Int) : Prop :=
  (∃ hit, p.lookup env s x.ctx (x.again maxTokens) = some hit ∧ hit.tier = .exact ∧ hit.responseText = x.resp.text) ∧
  (∃ result, (p.run env s x.ctx (x.again maxTokens)).result = .ok result ∧ result.text = x.resp.text) ∧
  (p.run env s x.ctx (x.again maxTokens)).calls = []

def Unstored (s : Stores R) (r : PipelineRequest R) : Prop :=
  ∀ call entry, r.op = .run call → p.StoresEntry r.env s r.ctx call entry →
    ¬ (x.entry.entry.tenantId = entry.entry.tenantId ∧ x.entry.entry.key = entry.entry.key)

def FoundAgain : Prop :=
  ∀ later, p.machine.Along x.Unstored x.out.stores later → ∀ env maxTokens, x.env.lookupAt ≤ env.lookupAt →
    env.lookupAt < x.entry.expiresAt → x.FoundIn (p.machine.exec x.out.stores later) env maxTokens

def lookupKey : String :=
  exactSig ((Pipeline.cacheKeywords x.call (p.chosenModel x.call)).fingerprint x.ctx) x.call.prompt

theorem entryOf : SemanticCache.EntryOf x.cache x.ctx x.call.prompt x.resp.text (Pipeline.cacheKeywords x.call x.model)
    x.entry :=
  (SemanticCache.newEntryOf x.stored).2

theorem storedCache : x.out.stores.cache = x.stores.cache.put x.entry := by
  obtain ⟨backends, spans, failures, run⟩ := Pipeline.answeredRun x.answered
  have ended : x.resp.finishReason.isNone = false := Option.isNone_eq_false_iff.mpr x.finished
  simp only [AnsweredRun.out, run, Pipeline.finish, Pipeline.committed, Pipeline.writeback, ended, Bool.false_eq_true, if_false,
    x.wired, SemanticCache.store, x.stored, Pipeline.capturedCache]

theorem entryStays {later : List (PipelineRequest R)} (unstored : p.machine.Along x.Unstored x.out.stores later) :
    ((p.machine.exec x.out.stores later).cache.part x.ctx.tenantId).get x.entry.entry.key = some x.entry := by
  rw [← x.entryOf.tenant]
  refine p.machine.alongInvariant
    (J := fun s : Stores R => (s.cache.part x.entry.entry.tenantId).get x.entry.entry.key = some x.entry) ?_ ?_ unstored
  · intro s r there kept
    exact (Pipeline.serveKeepsEntry kept).trans there
  · rw [x.storedCache]
    exact Parts.getPutSelf _ _ _ _

theorem foundIfKept (keeps : x.KeepsModel) : x.FoundAgain := by
  have same : x.model = p.chosenModel x.call := x.keepsIff.mp keeps
  intro later unstored env maxTokens _ live
  have key : x.entry.entry.key = x.lookupKey := by
    rw [x.entryOf.key, same]
    rfl
  have there := x.entryStays unstored
  rw [key] at there
  have found : p.lookup env (p.machine.exec x.out.stores later) x.ctx (x.again maxTokens) =
      some ⟨x.entry.responseText, .exact, 1, x.lookupKey⟩ := by
    simp only [Pipeline.lookup, x.wired, Option.bind_some]
    exact SemanticCache.lookupExact (by simpa [InMemoryCacheBackend.live] using live) there
  obtain ⟨result, quiet⟩ := Pipeline.runHit x.answered.reached.authorized found
  exact ⟨⟨_, found, rfl, x.entryOf.text⟩, ⟨_, result, x.entryOf.text⟩, quiet⟩

theorem keyModel (collisionFree : Function.Injective Builtins.sha256) (same : x.entry.entry.key = x.lookupKey) :
    x.model = p.chosenModel x.call := by
  obtain ⟨digest, _⟩ := exactDetermines collisionFree (x.entryOf.key.symm.trans same)
  have joined := prefilterDetermines collisionFree digest
  simp only [Pipeline.cacheKeywords, CacheKeywords.fingerprint, Fingerprint.parts] at joined
  generalize "v0" = facts at joined
  exact Lib.joinCancel [x.ctx.tenantId, x.ctx.namespaceId] [Pipeline.systemVersion x.call, facts] joined

theorem keptIfFound (collisionFree : Function.Injective Builtins.sha256) (again : x.FoundAgain)
    (live : x.env.lookupAt < x.entry.expiresAt) : x.KeepsModel := by
  obtain ⟨⟨hit, found, exact, _⟩, _⟩ :=
    again [] (p.machine.alongNil _) x.env x.call.maxTokens (Int.le_refl _) live
  simp only [Pipeline.lookup, x.wired, Option.bind_some] at found
  obtain ⟨stored, origin⟩ := SemanticCache.lookupHit found
  cases origin with
  | semantic => contradiction
  | exact unexpired there =>
    change (x.out.stores.cache.part x.ctx.tenantId).get x.lookupKey = some stored at there
    rw [x.storedCache] at there
    rcases Parts.getPut there with ⟨_, key, _⟩ | old
    · exact x.keepsIff.mpr (x.keyModel collisionFree key.symm)
    · -- an entry that was there before the run would have answered the run itself
      have miss := x.answered.reached.miss
      simp only [Pipeline.lookup, x.wired, Option.bind_some, SemanticCache.lookupExact unexpired old] at miss
      contradiction

theorem foundAgainIff (collisionFree : Function.Injective Builtins.sha256) :
    x.FoundAgain ↔ x.KeepsModel ∨ x.entry.expiresAt ≤ x.env.lookupAt := by
  constructor
  · intro again
    rcases Int.lt_or_le x.env.lookupAt x.entry.expiresAt with live | expired
    · exact .inl (x.keptIfFound collisionFree again live)
    · exact .inr expired
  · intro condition
    cases condition with
    | inl keeps => exact x.foundIfKept keeps
    | inr expired =>
      intro _ _ env _ later live
      exact absurd (Int.lt_of_le_of_lt (Int.le_trans expired later) live) (Int.lt_irrefl _)

end StoredRun

/-! ### A run that is routed elsewhere -/

theorem storedColour [Builtins] (s : Stores ℚ) (model : String)
    (miss : routedPipeline.lookup (envAt 0 "1") s (member "acme" "sales") (ask "colour") = none)
    (run : (routedPipeline.assembleStage (envAt 0 "1") (member "acme" "sales") (ask "colour") []).toOption.any (fun prepared =>
      (routedPipeline.answering (envAt 0 "1") s (member "acme" "sales") (ask "colour") prepared).toOption.any (fun answer =>
        answer.2.2 = model && answer.1.finishReason.isSome && routedPipeline.cache.any (fun cache =>
          (cache.newEntry 0 (member "acme" "sales") (ask "colour").prompt answer.1.text
            (Pipeline.cacheKeywords (ask "colour") answer.2.2) (0 < prepared.injected) none).any (fun entry =>
              (0 : Time) < entry.expiresAt))))) :
    ∃ x : StoredRun routedPipeline, x.model = model ∧ x.call = ask "colour" ∧ x.env.lookupAt < x.entry.expiresAt := by
  obtain ⟨prepared, assembled, run⟩ := Option.any_eq_true _ _ |>.mp run
  obtain ⟨⟨resp, used, replied⟩, answer, run⟩ := Option.any_eq_true _ _ |>.mp run
  obtain ⟨run, stored⟩ := Bool.and_eq_true_iff.mp run
  obtain ⟨same, finished⟩ := Bool.and_eq_true_iff.mp run
  obtain ⟨cache, wired, stored⟩ := Option.any_eq_true _ _ |>.mp stored
  obtain ⟨entry, made, live⟩ := Option.any_eq_true _ _ |>.mp stored
  let x : AnsweredRun routedPipeline := ⟨envAt 0 "1", s, member "acme" "sales", ask "colour", [], prepared, replied, resp,
    ⟨rfl, miss, rfl, toOptionOk.mp assembled⟩, used, toOptionOk.mp answer⟩
  exact ⟨⟨x, cache, entry, finished, wired, made⟩, of_decide_eq_true same, rfl, of_decide_eq_true live⟩

theorem foundAgainSample :
    letI := asciiBuiltins colourDigests []
    ∃ x : StoredRun routedPipeline, x.env.lookupAt < x.entry.expiresAt ∧ x.FoundAgain := by
  let _ := asciiBuiltins colourDigests []
  obtain ⟨x, answering, asked, live⟩ := storedColour emptyStores "default" (by decide +kernel) (by decide +kernel)
  refine ⟨x, live, (x.foundAgainIff colourCollisionFree).mpr (.inl (x.keepsIff.mpr ?_))⟩
  rw [answering, asked]
  rfl

theorem storedUnderRouted :
    letI := asciiBuiltins colourDigests []
    Function.Injective Builtins.sha256 ∧
    ∃ x : StoredRun routedPipeline, x.env.lookupAt < x.entry.expiresAt ∧ ¬ x.FoundAgain := by
  let _ := asciiBuiltins colourDigests []
  obtain ⟨x, answering, asked, live⟩ := storedColour routedStores "opus" (by decide +kernel) (by decide +kernel)
  refine ⟨colourCollisionFree, x, live, fun again => ?_⟩
  have same := x.keepsIff.mp (x.keptIfFound colourCollisionFree again live)
  rw [answering, asked] at same
  exact absurd same (by decide)

end ContextOS
