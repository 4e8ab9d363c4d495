import ContextOS.Effects
import ContextOS.Executable

/-! A remembered fact and the answers cached before it. The cache is asked before the
memory is read, and no write of a memory changes a fingerprint. A chat after a write is
fresh when no older entry matches the question, and, where no newer entry does, only then. -/
namespace ContextOS
open Lib (bindOk mapOk toOptionOk)

variable {R : Type} [PyFloat R] [Builtins]

/-! ### What a run would inject -/

namespace Pipeline

def injectedIds (p : Pipeline R) (env : Env) (s : Stores R) (ctx : SecurityContext) (c : ChatCall) :
    Except PyError (List String) := do
  p.policy.check ctx (modelResource ctx) .route
  let found ← p.retrieve env s ctx c
  match p.assembler with
  | none => return []
  | some assembler =>
    let assembled ← assembler.assemble (p.budgetFor c) (sourcesOf c (p.compressAll c.prompt found).1) p.weights
      (some p.tokenizer) defaultMmrLambda
    return (assembled.decisions.filter (·.kept)).map (·.memoryId)

end Pipeline

theorem cacheFormed (settings : ContextOSSettings) (adapter : Adapter) (digest : BundlePayload R → String)
    (cache : SemanticCache R) (wired : (createApp settings adapter digest).pipeline.cache = some cache)
    (requests : List (Request R)) :
    cache.Formed ((createApp settings adapter digest).machine.exec AppState.initial requests).stores.cache := by
  generalize createApp settings adapter digest = a at wired
  refine a.machine.invariant (P := fun s => cache.Formed s.stores.cache) (fun s r formed => ?_) ?_ requests
  · intro tenant key stored there
    rcases a.stepCache s r there with old | ⟨_, same, _, _, _, _, _, also, entry⟩
    · exact formed tenant key stored old
    · cases Option.some.inj (wired.symm.trans also)
      exact ⟨same.symm, _, entry.embedding⟩
  · intro tenant key stored there
    simp [AppState.initial] at there

/-! ### A chat after a write -/

def rememberedId (response : Response R) : Option String :=
  match response.result with
  | .ok (.memory row) => some row.id
  | _ => none

structure LaterChat (a : App R) where
  before : List (Request R)
  remember : Request R
  between : List (Request R)
  chat : Request R
  content : String
  tier : MemoryTier
  importance : R
  id : String
  call : ChatCall
  writes : remember.op = .writeMemory content tier importance
  completes : rememberedId (a.step (a.machine.exec AppState.initial before) remember).2 = some id
  asks : chat.op = .chat call
  context : chat.ctx = remember.ctx

namespace LaterChat
variable {a : App R} (x : LaterChat a)

def atRemember : AppState R := a.machine.exec AppState.initial x.before

def atChat : AppState R := a.machine.exec AppState.initial (x.before ++ x.remember :: x.between)

def Injects : Prop :=
  ∃ ids, a.pipeline.injectedIds x.chat.env x.atChat.stores x.chat.ctx x.call = .ok ids ∧ x.id ∈ ids

def Old (stored : StoredEntry R) : Prop :=
  (x.atRemember.stores.cache.part x.chat.ctx.tenantId).get stored.entry.key = some stored

def Answers (stored : StoredEntry R) : Prop :=
  (x.atChat.stores.cache.part x.chat.ctx.tenantId).get stored.entry.key = some stored ∧
  ∃ cache, a.pipeline.cache = some cache ∧
    cache.Matches x.chat.env.lookupAt x.chat.ctx x.call.prompt
      (Pipeline.cacheKeywords x.call (a.pipeline.chosenModel x.call)) stored

def ServedOld : Prop :=
  ∃ stored hit cache, x.Old stored ∧ a.pipeline.cache = some cache ∧
    cache.HitFrom x.atChat.stores.cache x.chat.env.lookupAt x.chat.ctx x.call.prompt
      (Pipeline.cacheKeywords x.call (a.pipeline.chosenModel x.call)) stored hit ∧
    a.pipeline.lookup x.chat.env x.atChat.stores x.chat.ctx x.call = some hit ∧
    (a.step x.atChat x.chat).2.result =
      .ok (.chat ⟨stored.responseText, x.chat.env.traceId, a.pipeline.chosenModel x.call, ⟨0, 0, 0⟩⟩)

def Fresh : Prop := x.Injects → ¬ x.ServedOld

end LaterChat

theorem hitText {c : SemanticCache R} {b now ctx query kw stored hit} (origin : c.HitFrom b now ctx query kw stored hit) :
    hit.responseText = stored.responseText := by
  cases origin <;> rfl

theorem matchedServed {settings : ContextOSSettings} {adapter : Adapter} {digest : BundlePayload R → String}
    {x : LaterChat (createApp settings adapter digest)} (injects : x.Injects) {stored : StoredEntry R}
    (answers : x.Answers stored) (onlyOld : ∀ stored, x.Answers stored → x.Old stored)
    (tau : (-1 : R) < defaultTau) : x.ServedOld := by
  obtain ⟨ids, run, _⟩ := injects
  obtain ⟨_, authorized, _⟩ := bindOk.mp run
  obtain ⟨there, cache, wired, matching⟩ := answers
  have formed := cacheFormed settings adapter digest cache wired (x.before ++ x.remember :: x.between)
  have positive : -1 < cache.threshold := by cases Option.some.inj wired; exact tau
  have sized : ∀ t u, (cache.embedder.embed t).length = (cache.embedder.embed u).length := by
    cases Option.some.inj wired
    exact fun t u => (hashingEmbeddingLength _ t).trans (hashingEmbeddingLength _ u).symm
  obtain ⟨hit, found⟩ := SemanticCache.lookupAnswers formed positive sized there matching
  obtain ⟨served, origin⟩ := SemanticCache.lookupHit found
  obtain ⟨inside, matching⟩ := SemanticCache.hitMatches formed origin
  have lookup : (createApp settings adapter digest).pipeline.lookup x.chat.env x.atChat.stores x.chat.ctx x.call = some hit :=
    Option.bind_eq_some_iff.mpr ⟨cache, wired, found⟩
  refine ⟨served, hit, cache, onlyOld served ⟨inside, cache, wired, matching⟩, wired, origin, lookup, ?_⟩
  rw [App.chatReply x.asks, (Pipeline.runHit authorized lookup).1, hitText origin]
  rfl

theorem rememberedReaches (tau : (-1 : R) < defaultTau) (settings : ContextOSSettings) (adapter : Adapter)
    (digest : BundlePayload R → String) (x : LaterChat (createApp settings adapter digest)) :
    ((∀ stored, x.Old stored → ¬ x.Answers stored) → x.Fresh) ∧
    ((∀ stored, x.Answers stored → x.Old stored) → x.Injects →
      (x.Fresh ↔ ∀ stored, x.Old stored → ¬ x.Answers stored)) := by
  have sound : (∀ stored, x.Old stored → ¬ x.Answers stored) → x.Fresh := by
    intro none _ given
    obtain ⟨stored, hit, cache, old, wired, origin, _⟩ := given
    obtain ⟨there, matching⟩ := SemanticCache.hitMatches (cacheFormed settings adapter digest cache wired _) origin
    exact none stored old ⟨there, cache, wired, matching⟩
  exact ⟨sound, fun onlyOld injects =>
    ⟨fun fresh stored _ answers => fresh injects (matchedServed injects answers onlyOld tau), sound⟩⟩

/-! ### An answer from before -/

theorem writeCache {a : App R} {s : AppState R} {r : Request R} {content tier importance}
    (writes : r.op = .writeMemory content tier importance) : (a.step s r).1.stores.cache = s.stores.cache := by
  unfold App.step
  simp only [writes]
  split <;> rfl

theorem quietAnswerOld {settings : ContextOSSettings} {adapter : Adapter} {digest : BundlePayload R → String}
    (x : LaterChat (createApp settings adapter digest)) (next : x.between = [])
    (injects : ((createApp settings adapter digest).pipeline.injectedIds x.chat.env x.atChat.stores x.chat.ctx
      x.call).toOption.any (fun ids => x.id ∈ ids))
    (answered : ((createApp settings adapter digest).step x.atChat x.chat).2.result.toOption.isSome)
    (quiet : ((createApp settings adapter digest).step x.atChat x.chat).2.calls.isEmpty) : ¬ x.Fresh := by
  intro fresh
  obtain ⟨ids, kept, member⟩ := (Option.any_eq_true _ _).mp injects
  refine fresh ⟨ids, toOptionOk.mp kept, by simpa using member⟩ ?_
  have same : x.atChat.stores.cache = x.atRemember.stores.cache := by
    unfold LaterChat.atChat
    rw [next, Lib.Machine.execAppend]
    exact writeCache x.writes
  obtain ⟨reply, answered⟩ := Option.isSome_iff_exists.mp answered
  have ran := toOptionOk.mp answered
  rw [App.chatReply x.asks] at ran quiet
  obtain ⟨result, ok, rfl⟩ := mapOk.mp ran
  obtain ⟨hit, found, rfl⟩ := Pipeline.quietHit _ _ _ _ _ ok (List.isEmpty_iff.mp quiet)
  obtain ⟨cache, wired, looked⟩ := Option.bind_eq_some_iff.mp found
  obtain ⟨stored, origin⟩ := SemanticCache.lookupHit looked
  have formed := cacheFormed settings adapter digest cache wired (x.before ++ x.remember :: x.between)
  have there := (SemanticCache.hitMatches formed origin).1
  refine ⟨stored, hit, cache, ?_, wired, origin, found, ?_⟩
  · rw [LaterChat.Old, ← same]
    exact there
  · rw [App.chatReply x.asks, ← hitText origin]
    exact ran

omit [PyFloat R] [Builtins]

def askedAgain :
    letI := asciiBuiltins colourDigests []
    LaterChat (createApp sampleSettings (replying "nothing yet" (some "stop")) (fun _ => "cid") : App ℚ) :=
  letI := asciiBuiltins colourDigests []
  { before := [⟨member "acme" "sales", envAt 0 "1", .chat (ask "colour")⟩]
    remember := ⟨member "acme" "sales", envAt 1 "2", .writeMemory "blue" .semantic (1 / 2)⟩
    between := []
    chat := ⟨member "acme" "sales", envAt 2 "3", .chat (ask "colour")⟩
    content := "blue"
    tier := .semantic
    importance := 1 / 2
    id := "memory-2"
    call := ask "colour"
    writes := rfl
    completes := by decide +kernel
    asks := rfl
    context := rfl }

theorem rememberedReachesSample :
    letI := asciiBuiltins colourDigests []
    ((∀ stored, askedAgain.Old stored → ¬ askedAgain.Answers stored) → askedAgain.Fresh) ∧
    ((∀ stored, askedAgain.Answers stored → askedAgain.Old stored) → askedAgain.Injects →
      (askedAgain.Fresh ↔ ∀ stored, askedAgain.Old stored → ¬ askedAgain.Answers stored)) :=
  letI := asciiBuiltins colourDigests []
  rememberedReaches (by decide +kernel) sampleSettings (replying "nothing yet" (some "stop")) (fun _ => "cid") askedAgain

theorem answeredFromBefore :
    letI := asciiBuiltins colourDigests []
    ¬ askedAgain.Fresh :=
  letI := asciiBuiltins colourDigests []
  quietAnswerOld askedAgain rfl (by decide +kernel) (by decide +kernel) (by decide +kernel)

end ContextOS
