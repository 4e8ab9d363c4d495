import ContextOS.Lib.Dict
import ContextOS.Numeric

/-! The value types that cross module boundaries: errors, principals, memories,
candidates, and the adapter protocol. A raised exception is its class and its text, and
an optional string that is absent counts as empty where the source tests its truth. -/
namespace ContextOS
open Lib (Dict)

inductive ErrorKind where
  | accessDenied
  | missingTenant
  | missingNamespace
  | policyError
  | contextOverflow
  | noEligibleBackend
  | backendUnavailable
  | adapterError
  | valueError
  | validationError
  | unknownCommit
  deriving DecidableEq, Repr

structure PyError where
  kind : ErrorKind
  message : String
  deriving DecidableEq, Repr

inductive Action where
  | read
  | write
  | delete
  | admin
  | route
  | cacheRead
  deriving DecidableEq, Repr

inductive Effect where
  | allow
  | deny
  deriving DecidableEq, Repr

inductive MemoryTier where
  | working
  | shortTerm
  | longTerm
  | episodic
  | semantic
  deriving DecidableEq, Repr

/-! ### The security context -/

structure Principal where
  id : String
  tenantId : String
  roles : List String
  attributes : Dict String String

structure SecurityContext where
  tenantId : String
  principal : Principal
  namespaceId : String
  requestId : String

def orElse (value : Option String) (default : String) : String :=
  match value with
  | some text => if text.isEmpty then default else text
  | none => default

def userNamespace (userId : Option String) : String :=
  let user := orElse userId ""
  if user.isEmpty then "" else "user:" ++ user

def SecurityContext.resolve (requestId : String) (tenantId userId namespaceId : Option String)
    (roles : List String) : Except PyError SecurityContext :=
  let tenant := orElse tenantId ""
  if tenant.isEmpty then .error ⟨.missingTenant, "no tenant on request"⟩
  else
    let ns := orElse namespaceId (userNamespace userId)
    if ns.isEmpty then
      .error ⟨.missingNamespace, "no namespace and no user to derive one from"⟩
    else
      .ok ⟨tenant, ⟨orElse userId "anonymous", tenant, roles, Dict.ofList [("namespace", ns)]⟩, ns, requestId⟩

/-! ### Memories -/

structure Provenance where
  source : String
  sourceId : Option String
  ingestedAt : Time
  deriving DecidableEq, Repr

structure EmbeddingRef where
  store : String
  collection : String
  vectorId : String
  dim : Nat
  dekId : Option String
  deriving DecidableEq, Repr

structure MemoryObject (R : Type) where
  id : String
  tenantId : String
  namespaceId : String
  tier : MemoryTier
  content : String
  embeddingRef : Option EmbeddingRef
  importance : R
  createdAt : Time
  lastAccessedAt : Time
  provenance : Provenance
  metadata : Dict String String

structure MemoryCandidate (R : Type) where
  memoryId : String
  tenantId : String
  namespaceId : String
  tier : MemoryTier
  content : String
  vectorScore : Option R
  bm25Score : Option R
  rrfScore : R
  recencyFactor : R
  importance : R
  rankInDense : Option Nat
  rankInSparse : Option Nat
  ageSeconds : R
  sourceRef : Option String
  deriving DecidableEq, Repr

/-! ### The adapter protocol -/

inductive Role where
  | system
  | user
  | assistant
  deriving DecidableEq, Repr

def Role.value : Role → String
  | .system => "system"
  | .user => "user"
  | .assistant => "assistant"

structure ChatMessage where
  role : Role
  content : String
  deriving DecidableEq, Repr

structure ChatRequest where
  model : String
  messages : List ChatMessage
  maxTokens : Int
  deriving DecidableEq, Repr

structure Usage where
  promptTokens : Int
  completionTokens : Int
  totalTokens : Int
  deriving DecidableEq, Repr

structure ChatResponse where
  text : String
  model : String
  finishReason : Option String
  usage : Usage
  deriving DecidableEq, Repr

/-- A backend. The number given to `generate` tells one call from another: a backend
whose reply depends on the request alone ignores it, a sampling one does not. -/
structure Adapter where
  name : String
  generate : Nat → ChatRequest → Except String ChatResponse

def fakeAdapter (wordCount : String → Nat) (reply : String) : Adapter where
  name := "fake"
  generate _ req :=
    let prompt := (req.messages.map (fun m => wordCount m.content)).sum
    let completion := wordCount reply
    .ok ⟨reply, orElse (some req.model) "fake-1", some "stop", ⟨prompt, completion, prompt + completion⟩⟩

end ContextOS
