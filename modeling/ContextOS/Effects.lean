import ContextOS.App
import ContextOS.Endings

/-! What one operation of the application does to each of the shared stores. -/
namespace ContextOS
open Lib (Dict Parts)

variable {R : Type} [PyFloat R] [Builtins]

namespace App
variable (a : App R) (s : AppState R) (r : Request R)

theorem chatReply {a : App R} {s : AppState R} {r : Request R} {call : ChatCall} (chat : r.op = .chat call) :
    (a.step s r).2 = ⟨(a.pipeline.run r.env s.stores r.ctx call).result.map .chat,
      (a.pipeline.run r.env s.stores r.ctx call).calls⟩ := by
  simp only [App.step, chat]

theorem chatStores {a : App R} {s : AppState R} {r : Request R} {call : ChatCall} (chat : r.op = .chat call) :
    (a.step s r).1.stores = (a.pipeline.run r.env s.stores r.ctx call).stores := by
  simp only [App.step, chat]

theorem chatAnswered {a : App R} {s : AppState R} {r : Request R} {call : ChatCall} (chat : r.op = .chat call)
    {result : ChatResult} (answered : (a.step s r).2.result = .ok (.chat result)) :
    (a.pipeline.run r.env s.stores r.ctx call).result = .ok result := by
  rw [chatReply chat] at answered
  cases ran : (a.pipeline.run r.env s.stores r.ctx call).result with
  | error e => simp [ran, Except.map] at answered
  | ok result => simpa [ran, Except.map] using answered

theorem stepTracer (s : AppState R) (r : Request R) :
    ((a.step s r).1.stores.tracer = s.stores.tracer ∧ r.opened = none) ∨
    ∃ spans, r.opened = some r.env.traceId ∧
      (a.step s r).1.stores.tracer = s.stores.tracer.record ⟨r.env.traceId, r.ctx.tenantId, spans⟩ := by
  unfold App.step Request.opened
  cases r.op with
  | chat call =>
    obtain ⟨spans, recorded⟩ := a.pipeline.runTracer r.env s.stores r.ctx call
    exact .inr ⟨spans, rfl, recorded⟩
  | writeMemory content tier importance => exact .inl ⟨by dsimp only; split <;> rfl, rfl⟩
  | _ => exact .inl ⟨rfl, rfl⟩

theorem stepMemories : ∃ written : List (MemoryObject R),
    (∀ m ∈ written, m.tenantId = r.ctx.tenantId ∧ m.namespaceId = r.ctx.namespaceId) ∧
    (a.step s r).1.stores.memories = s.stores.memories.putAll r.ctx.tenantId written := by
  unfold App.step
  cases r.op with
  | chat call => exact ⟨[], by simp, a.pipeline.runMemories r.env s.stores r.ctx call⟩
  | writeMemory content tier importance =>
    rcases MemoryEngine.writeCases r.env.birth r.ctx (⟨content, tier, importance, "chat", none, Dict.empty⟩ : WriteRequest R)
      with ⟨e, refused⟩ | ⟨memory, tenant, ns, _, admitted⟩
    · exact ⟨[], by simp, by simp only [refused]; rfl⟩
    · exact ⟨[memory], by simpa using ⟨tenant, ns⟩, by simp only [admitted]⟩
  | memoryRollback cid =>
    obtain ⟨restored, result, own, effect⟩ := MemoryVersioning.rollbackCases s.versioning r.ctx cid
      (MemoryEngine.allMemories s.stores.memories r.ctx MemoryVersioning.versionedRows)
    exact ⟨restored, own, by simp only [effect _ rfl]⟩
  | consolidate =>
    obtain ⟨n, written, calls, own, _, effect⟩ := a.consolidateCases r.env r.ctx
      (MemoryEngine.allMemories s.stores.memories r.ctx 512)
    exact ⟨written, own, by simp only [effect _ rfl]⟩
  | _ => exact ⟨[], by simp, rfl⟩

theorem memoriesWellScoped {s : AppState R} (start : s.stores.memories.WellScoped) (requests : List (Request R)) :
    (a.machine.exec s requests).stores.memories.WellScoped := by
  refine a.machine.invariant (P := fun t => t.stores.memories.WellScoped) (fun t r valid => ?_) start requests
  obtain ⟨written, own, stored⟩ := a.stepMemories t r
  change (a.step t r).1.stores.memories.WellScoped
  rw [stored]
  exact InMemoryStore.putAllWellScoped valid fun m member => (own m member).1

theorem reachableWellScoped (requests : List (Request R)) :
    (a.machine.exec AppState.initial requests).stores.memories.WellScoped :=
  a.memoriesWellScoped InMemoryStore.emptyWellScoped requests

theorem stepCache {tenant key : String} {stored : StoredEntry R}
    (there : ((a.step s r).1.stores.cache.part tenant).get key = some stored) :
    (s.stores.cache.part tenant).get key = some stored ∨
    (tenant = r.ctx.tenantId ∧ key = stored.entry.key ∧ ∃ call cache text kw, r.op = .chat call ∧
      a.pipeline.cache = some cache ∧ SemanticCache.EntryOf cache r.ctx call.prompt text kw stored) := by
  unfold App.step at there
  cases op : r.op with
  | chat call =>
    simp only [op] at there
    rcases a.pipeline.runCache r.env s.stores r.ctx call there with old | ⟨_, _, _, _, cache, _, wired, owner, same, made⟩
    · exact .inl old
    · exact .inr ⟨owner, same, call, cache, _, _, rfl, wired, (SemanticCache.newEntryOf made).2⟩
  | writeMemory content tier importance =>
    simp only [op] at there
    split at there <;> exact .inl there
  | _ =>
    simp only [op] at there
    exact .inl there

theorem stepBundles {tenant id : String} {b : ContextBundle R}
    (stored : ((a.step s r).1.stores.bundles.part tenant).get id = some b) :
    (∃ old, (s.stores.bundles.part tenant).get id = some old ∧ InMemoryBundleStore.Amends b old) ∨
    (tenant = r.ctx.tenantId ∧ id = r.env.traceId ∧ ∃ call found prepared frozen, r.op = .chat call ∧
      Pipeline.Reached a.pipeline r.env s.stores r.ctx call found prepared ∧
      prepared.bundle = some frozen ∧ InMemoryBundleStore.Amends b frozen) := by
  unfold App.step at stored
  cases op : r.op with
  | chat call =>
    simp only [op] at stored
    rcases a.pipeline.runBundles r.env s.stores r.ctx call stored with old | ⟨owner, same, found, prepared, frozen, new⟩
    · exact .inl old
    · exact .inr ⟨owner, same, call, found, prepared, frozen, rfl, new⟩
  | writeMemory content tier importance =>
    simp only [op] at stored
    split at stored <;> exact .inl ⟨b, stored, .refl b⟩
  | attachOutput traceId output =>
    simp only [op] at stored
    exact .inl (InMemoryBundleStore.attachedBundle stored)
  | _ =>
    simp only [op] at stored
    exact .inl ⟨b, stored, .refl b⟩

def commitsAs (tenant cid : String) (r : Request R) : Bool :=
  match r.op with
  | .memoryCommit _ _ => r.ctx.tenantId = tenant && r.env.commitId = cid
  | _ => false

theorem stepCommits {tenant cid : String} {commit : Commit R}
    (stored : ((a.step s r).1.versioning.commits.part tenant).get cid = some commit) :
    if commitsAs tenant cid r then
      commit.cid = cid ∧ commit.snapshot = MemoryEngine.allMemories s.stores.memories r.ctx MemoryVersioning.versionedRows
    else (s.versioning.commits.part tenant).get cid = some commit := by
  unfold App.step at stored
  unfold commitsAs
  cases op : r.op with
  | memoryCommit label branch =>
    simp only [op, MemoryVersioning.commit] at stored
    rcases Parts.getPut stored with ⟨rfl, rfl, rfl⟩ | kept
    · simp
    · by_cases here : r.ctx.tenantId = tenant ∧ r.env.commitId = cid
      · obtain ⟨rfl, rfl⟩ := here
        simp only [Parts.partPutSelf, Dict.getSetSelf] at stored
        cases Option.some.inj stored
        simp
      · simpa [here] using kept
  | writeMemory content tier importance =>
    simp only [op] at stored
    split at stored <;> simpa using stored
  | memoryBranch name fromBranch =>
    simp only [op, MemoryVersioning.branch] at stored
    simpa using stored
  | _ =>
    simp only [op] at stored
    simpa using stored

end App
end ContextOS
