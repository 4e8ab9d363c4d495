import ContextOS.Assembler

/-! The context bundle, its tenant-partitioned store, the replay debugger and the
difference of two bundles. The payload holds the deterministic inputs of one assembly,
and is what the bundle id is a digest of. -/
namespace ContextOS
open Lib (Parts)

variable {R : Type}

structure BundleMessage where
  role : String
  content : String
  deriving DecidableEq, Repr

def renderPromptHash [Builtins] (messages : List ChatMessage) : String :=
  Builtins.sha256 ("\n".intercalate (messages.map (fun m => m.role.value ++ "\x1f" ++ m.content)))

structure BundlePayload (R : Type) where
  modelId : String
  mmrLambda : R
  weights : RankWeights R
  budget : TokenBudget
  systemPrompt : String
  latestUserTurn : String
  candidates : List (MemoryCandidate R)
  deriving DecidableEq

structure ContextBundle (R : Type) where
  bundleCid : String
  traceId : String
  tenantId : String
  namespaceId : String
  createdAt : Time
  payload : BundlePayload R
  renderedMessages : List BundleMessage
  promptHash : String
  recordedOutput : Option String
  deriving DecidableEq

abbrev InMemoryBundleStore (R : Type) := Parts String String (ContextBundle R)

namespace InMemoryBundleStore

def put (s : InMemoryBundleStore R) (ctx : SecurityContext) (bundle : ContextBundle R) : InMemoryBundleStore R :=
  Parts.put s ctx.tenantId bundle.traceId bundle

def get (s : InMemoryBundleStore R) (ctx : SecurityContext) (traceId : String) : Option (ContextBundle R) :=
  (s.part ctx.tenantId).get traceId

/-- The bundle object is mutated in place; an absent one is left absent. -/
def attachOutput (s : InMemoryBundleStore R) (ctx : SecurityContext) (traceId output : String) :
    InMemoryBundleStore R :=
  match s.get ctx traceId with
  | none => s
  | some bundle => Parts.put s ctx.tenantId traceId { bundle with recordedOutput := some output }

def Amends (b old : ContextBundle R) : Prop := ∃ output, b = { old with recordedOutput := output }

theorem Amends.refl (b : ContextBundle R) : Amends b b := ⟨b.recordedOutput, rfl⟩

theorem Amends.trans {a b c : ContextBundle R} (first : Amends a b) (second : Amends b c) : Amends a c := by
  obtain ⟨x, rfl⟩ := first
  obtain ⟨y, rfl⟩ := second
  exact ⟨x, rfl⟩

theorem attachedBundle {s : InMemoryBundleStore R} {ctx traceId output tenant id b}
    (found : ((s.attachOutput ctx traceId output).part tenant).get id = some b) :
    ∃ old, (s.part tenant).get id = some old ∧ Amends b old := by
  unfold attachOutput at found
  split at found
  · exact ⟨b, found, .refl b⟩
  · rename_i old there
    rcases Parts.getPut found with ⟨rfl, rfl, rfl⟩ | kept
    · exact ⟨old, there, some output, rfl⟩
    · exact ⟨b, kept, .refl b⟩

theorem attachedSelf {s : InMemoryBundleStore R} {ctx : SecurityContext} {traceId : String} {b : ContextBundle R}
    (stored : s.get ctx traceId = some b) (output : String) :
    (s.attachOutput ctx traceId output).get ctx traceId = some { b with recordedOutput := some output } := by
  simp only [attachOutput, stored]
  exact Parts.getPutSelf _ _ _ _

theorem attachedOther {s : InMemoryBundleStore R} {ctx : SecurityContext} {traceId tenant id : String}
    (different : ¬ (tenant = ctx.tenantId ∧ id = traceId)) (output : String) :
    ((s.attachOutput ctx traceId output).part tenant).get id = (s.part tenant).get id := by
  unfold attachOutput
  split
  · rfl
  · exact Parts.getPutOther different _

end InMemoryBundleStore

/-! ### Replay -/

inductive ReplayMode where
  | recordedOutput
  | liveBackend
  deriving DecidableEq, Repr

structure ReplayResult where
  traceId : String
  bundleCid : String
  mode : ReplayMode
  promptEqual : Bool
  promptHashExpected : String
  promptHashActual : String
  outputEqual : Option Bool
  recordedOutput : Option String
  diff : Option String
  deriving DecidableEq, Repr

def mismatchFrom : Nat → List BundleMessage → List ChatMessage → String
  | i, e :: es, a :: as =>
    if e.role ≠ a.role.value ∨ e.content ≠ a.content then s!"message[{i}] differs (role/content mismatch)"
    else mismatchFrom (i + 1) es as
  | _, _, _ => "hash differs but messages compare equal (encoding drift)"

-- `_first_diff`
def firstDiff (expected : List BundleMessage) (actual : List ChatMessage) : String :=
  if expected.length ≠ actual.length then
    s!"message count differs: expected {expected.length}, got {actual.length}"
  else mismatchFrom 0 expected actual

/-- `digest` is `json.dumps` followed by BLAKE2b: the content address of a payload. -/
structure ReplayDebugger (R : Type) where
  assembler : ContextAssembler R
  tokenizer : Tokenizer
  digest : BundlePayload R → String

namespace ReplayDebugger

def newBundle (d : ReplayDebugger R) (traceId : String) (createdAt : Time) (ctx : SecurityContext)
    (payload : BundlePayload R) (renderedMessages : List BundleMessage) (promptHash : String) :
    ContextBundle R :=
  ⟨d.digest payload, traceId, ctx.tenantId, ctx.namespaceId, createdAt, payload, renderedMessages,
    promptHash, none⟩

variable [PyFloat R] [Builtins]

def reassemble (d : ReplayDebugger R) (payload : BundlePayload R) : Except PyError (AssembledContext R) :=
  d.assembler.assemble payload.budget
    ⟨payload.systemPrompt, payload.latestUserTurn, payload.candidates, []⟩ payload.weights
    (some d.tokenizer) payload.mmrLambda

def replay (d : ReplayDebugger R) (store : InMemoryBundleStore R) (ctx : SecurityContext) (traceId : String)
    (mode : ReplayMode) : Except PyError (Option ReplayResult) :=
  match store.get ctx traceId with
  | none => .ok none
  | some bundle => do
    let assembled ← d.reassemble bundle.payload
    let actualHash := renderPromptHash assembled.messages
    let promptEqual := actualHash == bundle.promptHash
    let diff :=
      if !promptEqual then some (firstDiff bundle.renderedMessages assembled.messages)
      else if mode = .liveBackend then some "live re-generation not compared (non-deterministic backend)"
      else none
    return some ⟨traceId, bundle.bundleCid, mode, promptEqual, bundle.promptHash, actualHash,
      if mode = .recordedOutput then some promptEqual else none, bundle.recordedOutput, diff⟩

end ReplayDebugger

/-! ### Context diff -/

structure ContextDiff where
  candidatesAdded : List String
  candidatesRemoved : List String
  modelChanged : Option (String × String)
  promptChanged : Bool
  promptA : String
  promptB : String
  deriving DecidableEq, Repr

def sortedIds (ids : List String) : List String := ids.dedup.insertionSort (· ≤ ·)

def renderBundle (b : ContextBundle R) : String :=
  "\n".intercalate (b.renderedMessages.map (fun m => m.role ++ ": " ++ m.content))

def diffBundles (a b : ContextBundle R) : ContextDiff :=
  let aIds := a.payload.candidates.map (·.memoryId)
  let bIds := b.payload.candidates.map (·.memoryId)
  ⟨sortedIds (bIds.filter (· ∉ aIds)), sortedIds (aIds.filter (· ∉ bIds)),
    if a.payload.modelId ≠ b.payload.modelId then some (a.payload.modelId, b.payload.modelId) else none,
    a.promptHash ≠ b.promptHash, renderBundle a, renderBundle b⟩

end ContextOS
