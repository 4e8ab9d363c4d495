import ContextOS.Lib.Machine
import ContextOS.Pipeline
import ContextOS.Versioning

/-! The wired application: one pipeline over shared stores, with the operations that the
gateway routes and the in-process client offer under a security context. A missing row is
answered with the message and the trace id of its 404, another error with its kind and text. -/
namespace ContextOS
open Lib (Dict Machine)

variable {R : Type}

structure ContextOSSettings where
  defaultModel : String
  defaultTokenBudget : Int
  deriving DecidableEq, Repr

structure App (R : Type) where
  pipeline : Pipeline R
  memory : MemoryEngine R
  replay : ReplayDebugger R
  adapter : Adapter

structure AppState (R : Type) where
  stores : Stores R
  versioning : MemoryVersioning R

def AppState.initial : AppState R :=
  ⟨⟨Dict.empty, Dict.empty, Dict.empty, Dict.empty, Dict.empty, none⟩, MemoryVersioning.empty⟩

def embeddingDim : Nat := 384
instance : NeZero embeddingDim := ⟨by decide⟩

section Wiring
variable [PyFloat R] [Builtins]

/-- `create_app`, and the constructor of the client: both wire the same machinery. The
engine, the cache and the assembler embed with the same deterministic hashing. -/
def createApp (settings : ContextOSSettings) (adapter : Adapter) (digest : BundlePayload R → String) : App R :=
  let embedder : EmbeddingProvider R := hashingEmbeddingProvider embeddingDim
  let memory : MemoryEngine R := ⟨embedder⟩
  let assembler : ContextAssembler R := ⟨embedder⟩
  let replay : ReplayDebugger R := ⟨assembler, HeuristicTokenizer.default.toTokenizer, digest⟩
  { pipeline := {
      adapter := adapter
      policy := ⟨none⟩
      memory := some memory
      assembler := some assembler
      cache := some ⟨embedder, defaultTau, defaultTtlSeconds⟩
      compressor := some ⟨⟩
      replay := some replay
      router := none
      cost := some defaultPrices
      defaultModel := orElse (some settings.defaultModel) "default"
      windowTokens := settings.defaultTokenBudget
      compressTarget := 256
      weights := RankWeights.default
      tokenizer := HeuristicTokenizer.default.toTokenizer }
    memory := memory
    replay := replay
    adapter := adapter }

end Wiring

/-! ### Operations -/

inductive Op (R : Type) where
  | chat (call : ChatCall)
  | writeMemory (content : String) (tier : MemoryTier) (importance : R)
  | retrieve (query : String) (k : Int)
  | getTrace (traceId : String)
  | replayTrace (traceId : String) (mode : ReplayMode)
  | getBundle (traceId : String)
  | adminCost
  | memoryCommit (label branch : String)
  | memoryBranch (name fromBranch : String)
  | memoryBranches
  | getCommit (cid : String)
  | memoryDiff (a b : String)
  | memoryRollback (cid : String)
  | traceDiff (a b : String)
  | consolidate
  | attachOutput (traceId output : String)

structure Request (R : Type) where
  ctx : SecurityContext
  env : Env
  op : Op R

def Request.opened (r : Request R) : Option String :=
  match r.op with
  | .chat _ => some r.env.traceId
  | _ => none

def openedTraces (requests : List (Request R)) : List String := requests.filterMap Request.opened

inductive Reply (R : Type) where
  | chat (result : ChatResult)
  | memory (row : MemoryObject R)
  | candidates (found : List (MemoryCandidate R))
  | trace (trace : Trace)
  | replay (result : ReplayResult)
  | bundle (bundle : ContextBundle R)
  | cost (summary : CostSummary R)
  | committed (cid branch : String)
  | branches (heads : Dict String (Option String))
  | commit (commit : Option (Commit R))
  | memoryDiff (diff : MemoryDiff)
  | restored (count : Nat)
  | contextDiff (diff : ContextDiff)
  | consolidated (sources : Nat)
  | attached (found : Bool)
  | done
  | notFound (message : String) (traceId : Option String)

structure Response (R : Type) where
  result : Except PyError (Reply R)
  calls : List AdapterCall

namespace App
variable [PyFloat R] [Builtins]

def quiet (result : Except PyError (Reply R)) : Response R := ⟨result, []⟩

/-! ### Consolidation -/

def consolidationPrompt (rows : List (MemoryObject R)) : String :=
  "Consolidate these memories into a few durable facts. Preserve every number, identifier, " ++
  "and named entity verbatim; do not invent anything.\n" ++
  "\n".intercalate (rows.map (fun r => "- " ++ r.content))

def consolidateNamespace (a : App R) (env : Env) (attempt : Nat) (s : InMemoryStore R) (ctx : SecurityContext) :
    Except PyError (Nat × InMemoryStore R) × List AdapterCall :=
  let rows := MemoryEngine.allMemories s ctx 512
  if rows.length < 2 then (.ok (0, s), [])
  else
    let request : ChatRequest := ⟨"consolidation", [⟨.user, consolidationPrompt rows⟩], 256⟩
    match a.adapter.generate (env.callToken attempt) request with
    | .error e => (.error ⟨.adapterError, e⟩, [⟨request, .error e⟩])
    | .ok resp =>
      match MemoryEngine.write env.birth s ctx
          ⟨strip resp.text, .semantic, 0.7, "consolidation", none, Dict.empty⟩ with
      | .error e => (.error e, [⟨request, .ok resp⟩])
      | .ok (_, s) => (.ok (rows.length, s), [⟨request, .ok resp⟩])

/-- The runner drains the job with one retry and swallows its exceptions. -/
def consolidate (a : App R) (env : Env) (s : InMemoryStore R) (ctx : SecurityContext) :
    Nat × InMemoryStore R × List AdapterCall :=
  match a.consolidateNamespace env 0 s ctx with
  | (.ok (n, s), calls) => (n, s, calls)
  | (.error _, calls) =>
    match a.consolidateNamespace env 1 s ctx with
    | (.ok (n, s), more) => (n, s, calls ++ more)
    | (.error _, more) => (0, s, calls ++ more)

omit [Builtins] in
theorem consolidateNamespaceCases (a : App R) (env : Env) (attempt : Nat) (ctx : SecurityContext)
    (rows : List (MemoryObject R)) :
    ∃ (written : List (MemoryObject R)) (result : Except PyError Nat) (calls : List AdapterCall),
      (∀ m ∈ written, m.tenantId = ctx.tenantId ∧ m.namespaceId = ctx.namespaceId) ∧
      (∀ n, result = .ok n → written.map (·.id) = if n = 0 then [] else [env.birth.id]) ∧
      ∀ s : InMemoryStore R, MemoryEngine.allMemories s ctx 512 = rows →
        a.consolidateNamespace env attempt s ctx =
          (result.map (fun n => (n, s.putAll ctx.tenantId written)), calls) := by
  unfold consolidateNamespace
  by_cases few : rows.length < 2
  · refine ⟨[], .ok 0, [], by simp, by simp, fun s same => ?_⟩
    simp only [same, few, if_true]
    rfl
  · generalize request : ChatRequest.mk "consolidation" [⟨.user, consolidationPrompt rows⟩] 256 = req
    cases generated : a.adapter.generate (env.callToken attempt) req with
    | error e =>
      refine ⟨[], .error ⟨.adapterError, e⟩, [⟨req, .error e⟩], by simp, by simp, fun s same => ?_⟩
      simp only [same, few, if_false, request, generated]
      rfl
    | ok resp =>
      rcases MemoryEngine.writeCases env.birth ctx
        (⟨strip resp.text, .semantic, 0.7, "consolidation", none, Dict.empty⟩ : WriteRequest R)
        with ⟨e, refused⟩ | ⟨memory, tenant, ns, made, admitted⟩
      · refine ⟨[], .error e, [⟨req, .ok resp⟩], by simp, by simp, fun s same => ?_⟩
        simp only [same, few, if_false, request, generated, refused]
        rfl
      · have some : rows.length ≠ 0 := by omega
        refine ⟨[memory], .ok rows.length, [⟨req, .ok resp⟩], by simpa using ⟨tenant, ns⟩, ?_, fun s same => ?_⟩
        · rintro n ⟨⟩
          rw [if_neg some, List.map_singleton, MemoryEngine.constructedId made]
        · simp only [same, few, if_false, request, generated, admitted]
          rfl

omit [Builtins] in
theorem consolidateCases (a : App R) (env : Env) (ctx : SecurityContext) (rows : List (MemoryObject R)) :
    ∃ (n : Nat) (written : List (MemoryObject R)) (calls : List AdapterCall),
      (∀ m ∈ written, m.tenantId = ctx.tenantId ∧ m.namespaceId = ctx.namespaceId) ∧
      written.map (·.id) = (if n = 0 then [] else [env.birth.id]) ∧
      ∀ s : InMemoryStore R, MemoryEngine.allMemories s ctx 512 = rows →
        a.consolidate env s ctx = (n, s.putAll ctx.tenantId written, calls) := by
  unfold consolidate
  obtain ⟨first, result, calls, own, ids, attempted⟩ := a.consolidateNamespaceCases env 0 ctx rows
  cases result with
  | ok n => exact ⟨n, first, calls, own, ids n rfl, fun s same => by rw [attempted s same]; rfl⟩
  | error e =>
    obtain ⟨second, result, more, own, ids, retried⟩ := a.consolidateNamespaceCases env 1 ctx rows
    cases result with
    | ok n => exact ⟨n, second, calls ++ more, own, ids n rfl, fun s same => by rw [attempted s same, retried s same]; rfl⟩
    | error e => exact ⟨0, [], calls ++ more, by simp, rfl, fun s same => by
        rw [attempted s same, retried s same]; rfl⟩

/-! ### One operation -/

def traceDiff (s : AppState R) (ctx : SecurityContext) (a b : String) : Except PyError (Reply R) :=
  match s.stores.bundles.get ctx a, s.stores.bundles.get ctx b with
  | some ba, some bb => .ok (.contextDiff (diffBundles ba bb))
  | _, _ => .ok (.notFound "unknown trace bundle" none)

def step (a : App R) (s : AppState R) (r : Request R) : AppState R × Response R :=
  match r.op with
  | .chat call =>
    let out := a.pipeline.run r.env s.stores r.ctx call
    ({ s with stores := out.stores }, ⟨out.result.map .chat, out.calls⟩)
  | .writeMemory content tier importance =>
    match MemoryEngine.write r.env.birth s.stores.memories r.ctx
        ⟨content, tier, importance, "chat", none, Dict.empty⟩ with
    | .error e => (s, quiet (.error e))
    | .ok (row, memories) => ({ s with stores := { s.stores with memories := memories } }, quiet (.ok (.memory row)))
  | .retrieve query k =>
    (s, quiet ((a.memory.retrieve r.env.retrieveAt s.stores.memories r.ctx query k).map .candidates))
  | .getTrace traceId =>
    (s, quiet (.ok (match s.stores.tracer.get r.ctx traceId with
      | some trace => .trace trace
      | none => .notFound "trace not found" (some traceId))))
  | .replayTrace traceId mode =>
    (s, quiet ((a.replay.replay s.stores.bundles r.ctx traceId mode).map (fun result =>
      match result with
      | some result => .replay result
      | none => .notFound "no replay bundle for trace" (some traceId))))
  | .getBundle traceId =>
    (s, quiet (.ok (match s.stores.bundles.get r.ctx traceId with
      | some bundle => .bundle bundle
      | none => .notFound "no bundle for trace" (some traceId))))
  | .adminCost => (s, quiet (.ok (.cost (s.stores.cost.summary r.ctx))))
  | .memoryCommit label branch =>
    ({ s with versioning := s.versioning.commit r.env.commitId r.env.committedAt s.stores.memories r.ctx label branch },
      quiet (.ok (.committed r.env.commitId branch)))
  | .memoryBranch name fromBranch =>
    ({ s with versioning := s.versioning.branch r.ctx name fromBranch }, quiet (.ok .done))
  | .memoryBranches => (s, quiet (.ok (.branches (s.versioning.branchHeads r.ctx))))
  | .getCommit cid => (s, quiet (.ok (.commit (s.versioning.get r.ctx cid))))
  | .memoryDiff a b => (s, quiet ((s.versioning.diff r.ctx a b).map .memoryDiff))
  | .memoryRollback cid =>
    let (memories, result) := s.versioning.rollback s.stores.memories r.ctx cid
    ({ s with stores := { s.stores with memories := memories } }, quiet (result.map .restored))
  | .traceDiff a b => (s, quiet (traceDiff s r.ctx a b))
  | .consolidate =>
    let (n, memories, calls) := a.consolidate r.env s.stores.memories r.ctx
    ({ s with stores := { s.stores with memories := memories } }, ⟨.ok (.consolidated n), calls⟩)
  | .attachOutput traceId output =>
    ({ s with stores := { s.stores with bundles := s.stores.bundles.attachOutput r.ctx traceId output } },
      quiet (.ok (.attached (s.stores.bundles.get r.ctx traceId).isSome)))

def machine (a : App R) : Machine (AppState R) (Request R) (Response R) := ⟨a.step⟩

end App
end ContextOS
