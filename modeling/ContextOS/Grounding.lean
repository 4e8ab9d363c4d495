import ContextOS.Endings
import ContextOS.Executable
import ContextOS.Lib.Machine

/-! Responses grounded in memory are never cached. A pipeline serves runs and memory
writes of any contexts in any order; whatever its cache holds was generated from a prompt
of nothing but the two texts of the caller. -/
namespace ContextOS
open Lib (Dict Machine)

variable {R : Type}

inductive PipelineOp (R : Type) where
  | write (w : WriteRequest R)
  | put (memory : MemoryObject R)
  | run (call : ChatCall)

structure PipelineRequest (R : Type) where
  ctx : SecurityContext
  env : Env
  op : PipelineOp R

inductive PipelineReply where
  | wrote (result : Except PyError Unit)
  | ran (result : Except PyError ChatResult) (calls : List AdapterCall)

namespace Pipeline
variable [PyFloat R] [Builtins] (p : Pipeline R)

def serve (s : Stores R) (r : PipelineRequest R) : Stores R × PipelineReply :=
  match r.op with
  | .write w =>
    match MemoryEngine.write r.env.birth s.memories r.ctx w with
    | .error e => (s, .wrote (.error e))
    | .ok (_, memories) => ({ s with memories := memories }, .wrote (.ok ()))
  | .put memory =>
    match MemoryEngine.put s.memories r.ctx memory with
    | .error e => (s, .wrote (.error e))
    | .ok memories => ({ s with memories := memories }, .wrote (.ok ()))
  | .run call =>
    let out := p.run r.env s r.ctx call
    (out.stores, .ran out.result out.calls)

def machine : Machine (Stores R) (PipelineRequest R) PipelineReply := ⟨p.serve⟩

structure StoredBy (served : PipelineRequest R × PipelineReply) (call : ChatCall) (sent : AdapterCall)
    (resp : ChatResponse) (stored : StoredEntry R) : Prop where
  run : served.1.op = .run call
  completed : ∃ result calls, served.2 = .ran (.ok result) calls ∧ sent ∈ calls
  answered : sent.reply = .ok resp
  finished : resp.finishReason.isSome
  ungrounded : sent.request.messages = passthrough call
  text : stored.responseText = resp.text
  entry : ∃ cache, p.cache = some cache ∧
    cache.newEntry served.1.env.storeAt served.1.ctx call.prompt resp.text (cacheKeywords call sent.request.model) false
      none = some stored

def Ungrounded (past : List (PipelineRequest R × PipelineReply)) (tenant : String) (stored : StoredEntry R) : Prop :=
  ∃ served ∈ past, served.1.ctx.tenantId = tenant ∧ ∃ call sent resp, p.StoredBy served call sent resp stored

def CacheUngrounded (past : List (PipelineRequest R × PipelineReply)) (s : Stores R) : Prop :=
  ∀ tenant key stored, (s.cache.part tenant).get key = some stored → p.Ungrounded past tenant stored

theorem ungroundedStep {past : List (PipelineRequest R × PipelineReply)} {s : Stores R} (r : PipelineRequest R)
    (valid : p.CacheUngrounded past s) :
    p.CacheUngrounded (past ++ [(r, (p.serve s r).2)]) (p.serve s r).1 := by
  intro tenant key stored there
  have kept : (s.cache.part tenant).get key = some stored →
      p.Ungrounded (past ++ [(r, (p.serve s r).2)]) tenant stored := fun old => by
    obtain ⟨served, member, rest⟩ := valid tenant key stored old
    exact ⟨served, List.mem_append_left _ member, rest⟩
  cases op : r.op with
  | write w =>
    refine kept ?_
    simp only [serve, op] at there
    split at there <;> exact there
  | put memory =>
    refine kept ?_
    simp only [serve, op] at there
    split at there <;> exact there
  | run call =>
    have served : (p.serve s r).2 = .ran (p.run r.env s r.ctx call).result (p.run r.env s r.ctx call).calls := by
      simp only [serve, op]
    simp only [serve, op] at there
    rcases p.runCache r.env s r.ctx call there with old | ⟨found, prepared, model, resp, cache, done, wired, owner, _, made⟩
    · exact kept old
    · obtain ⟨cacheable, entry⟩ := SemanticCache.newEntryOf made
      have noneInjected : prepared.injected = 0 := by simpa using cacheable
      refine ⟨_, List.mem_append_right _ List.mem_cons_self, owner.symm, call,
        ⟨⟨model, prepared.messages, call.maxTokens⟩, .ok resp⟩, resp, op, ?_, rfl, done.finished, ?_, entry.text, cache,
        wired, ?_⟩
      · exact ⟨_, _, by rw [served, done.result], done.call⟩
      · exact ungroundedMessages done.reached.assembled noneInjected
      · rwa [cacheable] at made

theorem ungroundedRun {s : Stores R} (start : s.cache = Dict.empty) (requests : List (PipelineRequest R)) :
    p.CacheUngrounded (p.machine.replies s requests) (p.machine.exec s requests) :=
  p.machine.historyInvariant (P := p.CacheUngrounded)
    (by intro tenant key stored there; simp [start] at there) (fun _ _ r valid => p.ungroundedStep r valid) requests

theorem neverGrounded {s : Stores R} (start : s.cache = Dict.empty) (requests : List (PipelineRequest R)) :
    p.CacheUngrounded (p.machine.replies s requests) (p.machine.exec s requests) ∧
    ∀ front r back call result, requests = front ++ r :: back → r.op = .run call →
      (p.run r.env (p.machine.exec s front) r.ctx call).result = .ok result →
      (p.run r.env (p.machine.exec s front) r.ctx call).calls = [] →
      ∃ stored, p.Ungrounded (p.machine.replies s front) r.ctx.tenantId stored ∧ result.text = stored.responseText := by
  refine ⟨p.ungroundedRun start requests, fun front r back call result _ _ ok quiet => ?_⟩
  obtain ⟨key, stored, there, text⟩ := p.servedFromCache r.env _ r.ctx call ok quiet
  exact ⟨stored, p.ungroundedRun start front _ key stored there, text⟩

end Pipeline

def samplePipeline [Builtins] : Pipeline ℚ :=
  (createApp sampleSettings (replying "red" (some "stop")) (fun _ => "cid")).pipeline

def askedTwice : List (PipelineRequest ℚ) :=
  [⟨member "acme" "sales", envAt 0 "1", .run (ask "colour")⟩,
   ⟨member "acme" "sales", envAt 1 "2", .write ⟨"blue", .longTerm, 1 / 2, "chat", none, Dict.empty⟩⟩,
   ⟨member "acme" "sales", envAt 2 "3", .run (ask "shape")⟩,
   ⟨member "acme" "sales", envAt 3 "4", .run (ask "colour")⟩]

theorem neverGroundedSample :
    letI := asciiBuiltins colourDigests []
    samplePipeline.CacheUngrounded (samplePipeline.machine.replies emptyStores askedTwice)
      (samplePipeline.machine.exec emptyStores askedTwice) :=
  letI := asciiBuiltins colourDigests []
  (samplePipeline.neverGrounded rfl askedTwice).1

end ContextOS
