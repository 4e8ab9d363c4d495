import ContextOS.Lib.JsonText
import ContextOS.Lib.Outcome
import ContextOS.Effects
import ContextOS.Executable

/-! The adapter for endpoints that speak the OpenAI wire format. Given are the HTTP client,
which answers a request or raises, the JSON reader with the limits of the interpreter it
runs on, and what the validation library and the interpreter make of a JSON number. A body
is accepted exactly when it states a response, and nothing is kept in the cache that no
finished exchange on the wire has stated. -/
namespace ContextOS
open Lib (Json Machine bindOk)
open Lib.Json (field dumps Writable fieldIff loadsDumps)

structure HttpRequest where
  url : String
  headers : List (String × String)
  json : Json

structure HttpReply where
  status : Nat
  body : String

-- the client, or the exception text of a connection that failed; calls are told apart by a number
abbrev Transport := Nat → HttpRequest → Except String HttpReply

/-- What `json.loads` reads in a text, none where it raises: where it stops at long numbers or
deep nesting is the interpreter's. The value for a field of type `int`, and which floats are zero. -/
structure Validation where
  loads : String → Option Json
  toInt : Json → Option Int
  whole : ∀ n, toInt (.int n) = some n
  isZero : String → Bool

-- what `generate` and `stream` raise; a validation error names the model and the fields
inductive WireError where
  | unreachable (text : String)
  | badStatus (status : Nat)
  | notJson
  | keyError (key : String)
  | indexError
  | typeError
  | attributeError
  | invalid (model : String) (fields : List String)
  deriving DecidableEq, Repr

namespace WireError

-- `value[key]`
def item (key : String) : Json → Except WireError Json
  | .obj fields =>
    match field key (.obj fields) with
    | some value => .ok value
    | none => .error (.keyError ("'" ++ key ++ "'"))
  | _ => .error .typeError

-- `value[0]`
def first : Json → Except WireError Json
  | .arr (value :: _) => .ok value
  | .arr [] => .error .indexError
  | .str text =>
    match text.toList with
    | c :: _ => .ok (.str (String.singleton c))
    | [] => .error .indexError
  | .obj _ => .error (.keyError "0")
  | _ => .error .typeError

-- `value.get(key)`
def get (key : String) : Json → Except WireError (Option Json)
  | .obj fields => .ok (field key (.obj fields))
  | _ => .error .attributeError

def parse (v : Validation) (text : String) : Except WireError Json :=
  match v.loads text with
  | some value => .ok value
  | none => .error .notJson

theorem itemOk {key : String} {value found : Json} : item key value = .ok found ↔ field key value = some found := by
  cases value with
  | obj fields =>
    simp only [item]
    cases field key (.obj fields) <;> simp
  | _ => simp [item, field]

theorem getOk {key : String} {value : Json} {found : Option Json} :
    get key value = .ok found ↔ (∃ fields, value = .obj fields) ∧ field key value = found := by
  cases value <;> simp [get]

theorem fieldObject {key : String} {value found : Json} (there : field key value = some found) :
    ∃ fields, value = .obj fields := by
  cases value with
  | obj fields => exact ⟨fields, rfl⟩
  | _ => simp [field] at there

theorem parseOk {v : Validation} {text : String} {value : Json} : parse v text = .ok value ↔ v.loads text = some value := by
  unfold parse
  cases v.loads text <;> simp

end WireError

structure Capabilities where
  streaming : Bool
  maxContextTokens : Int
  supportsSystemPrompt : Bool
  prefixCache : Bool
  deriving DecidableEq, Repr

structure OpenAICompatibleAdapter where
  name : String
  baseUrl : String
  model : String
  apiKey : Option String
  prefixCache : Bool
  deriving DecidableEq, Repr

-- `text.rstrip("/")`
def rstripSlash (text : String) : String := String.ofList (text.toList.reverse.dropWhile (· == '/')).reverse

-- the temperature of `ChatRequest`, which no caller changes
def defaultTemperature : String := "0.7"

namespace OpenAICompatibleAdapter
open WireError (item first get parse)

def new (baseUrl model : String) (apiKey : Option String) (name : String) (prefixCache : Bool) : OpenAICompatibleAdapter :=
  ⟨name, rstripSlash baseUrl, model, apiKey, prefixCache⟩

def capabilities (a : OpenAICompatibleAdapter) : Capabilities := ⟨true, 8192, true, a.prefixCache⟩

def headers (a : OpenAICompatibleAdapter) : List (String × String) :=
  ("Content-Type", "application/json") ::
    (if (orElse a.apiKey "").isEmpty then [] else [("Authorization", "Bearer " ++ orElse a.apiKey "")])

def messageJson (m : ChatMessage) : Json := .obj [("role", .str m.role.value), ("content", .str m.content)]

def payload (a : OpenAICompatibleAdapter) (req : ChatRequest) (stream : Bool) : Json :=
  .obj [("model", .str (orElse (some req.model) a.model)), ("messages", .arr (req.messages.map messageJson)),
    ("max_tokens", .int req.maxTokens), ("temperature", .real defaultTemperature), ("stream", .bool stream)]

def request (a : OpenAICompatibleAdapter) (req : ChatRequest) (stream : Bool) : HttpRequest :=
  ⟨a.baseUrl ++ "/v1/chat/completions", a.headers, a.payload req stream⟩

def raiseForStatus (r : HttpReply) : Except WireError Unit :=
  if 200 ≤ r.status ∧ r.status < 300 then .ok () else .error (.badStatus r.status)

def failing (checks : List (String × Bool)) : List String := (checks.filter (fun c => !c.2)).map Prod.fst

def readUsage (v : Validation) (usage : Json) : Except WireError Usage := do
  let prompt ← get "prompt_tokens" usage
  let completion ← get "completion_tokens" usage
  let total ← get "total_tokens" usage
  let prompt := v.toInt (prompt.getD (.int 0))
  let completion := v.toInt (completion.getD (.int 0))
  let total := v.toInt (total.getD (.int 0))
  match prompt, completion, total with
  | some prompt, some completion, some total => .ok ⟨prompt, completion, total⟩
  | _, _, _ => .error (.invalid "Usage" (failing [("prompt_tokens", prompt.isSome),
      ("completion_tokens", completion.isSome), ("total_tokens", total.isSome)]))

def asText : Json → Option String
  | .str text => some text
  | _ => none

def asOptionalText : Option Json → Option (Option String)
  | none => some none
  | some .null => some none
  | some (.str text) => some (some text)
  | some _ => none

def readResponse (v : Validation) (req : ChatRequest) (body : Json) : Except WireError ChatResponse := do
  let choice ← first (← item "choices" body)
  let usage ← get "usage" body
  let text ← item "content" (← item "message" choice)
  let model ← get "model" body
  let finish ← get "finish_reason" choice
  let usage ← readUsage v (usage.getD (.obj []))
  let text := asText text
  let model := asText (model.getD (.str req.model))
  let finish := asOptionalText finish
  match text, model, finish with
  | some text, some model, some finish => .ok ⟨text, model, finish, usage⟩
  | _, _, _ => .error (.invalid "ChatResponse" (failing [("text", text.isSome), ("model", model.isSome),
      ("finish_reason", finish.isSome)]))

def generate (a : OpenAICompatibleAdapter) (v : Validation) (t : Transport) (token : Nat) (req : ChatRequest) :
    Except WireError ChatResponse := do
  let r ← (t token (a.request req false)).mapError .unreachable
  raiseForStatus r
  let body ← parse v r.body
  readResponse v req body

-- as the pipeline sees it; `describe` gives the text of an exception
def adapter (a : OpenAICompatibleAdapter) (v : Validation) (describe : WireError → String) (t : Transport) : Adapter where
  name := a.name
  generate token req := (a.generate v t token req).mapError describe

end OpenAICompatibleAdapter

def vllmAdapter (baseUrl model : String) (apiKey : Option String) : OpenAICompatibleAdapter :=
  .new baseUrl model apiKey "vllm" true

def wordCount (text : String) : Nat := (splitWords text).length

structure Chosen (resp : ChatResponse) (choice : Json) : Prop where
  message : ∃ message, field "message" choice = some message ∧ field "content" message = some (.str resp.text)
  finish : OpenAICompatibleAdapter.asOptionalText (field "finish_reason" choice) = some resp.finishReason

structure Counts (v : Validation) (usage : Usage) (value : Json) : Prop where
  object : ∃ fields, value = .obj fields
  prompt : v.toInt ((field "prompt_tokens" value).getD (.int 0)) = some usage.promptTokens
  completion : v.toInt ((field "completion_tokens" value).getD (.int 0)) = some usage.completionTokens
  total : v.toInt ((field "total_tokens" value).getD (.int 0)) = some usage.totalTokens

structure Stated (v : Validation) (req : ChatRequest) (resp : ChatResponse) (body : Json) : Prop where
  choice : ∃ choice others, field "choices" body = some (.arr (choice :: others)) ∧ Chosen resp choice
  model : (field "model" body).getD (.str req.model) = .str resp.model
  usage : Counts v resp.usage ((field "usage" body).getD (.obj []))

-- a finished exchange: the reply to the posted request succeeded and its body states the response
structure Exchanged (a : OpenAICompatibleAdapter) (v : Validation) (t : Transport) (token : Nat) (req : ChatRequest)
    (resp : ChatResponse) (r : HttpReply) (body : Json) : Prop where
  answered : t token (a.request req false) = .ok r
  success : 200 ≤ r.status ∧ r.status < 300
  parsed : v.loads r.body = some body
  stated : Stated v req resp body

namespace OpenAICompatibleAdapter
open WireError (item first get parse itemOk getOk parseOk fieldObject)

theorem asTextSome {value : Json} {text : String} : asText value = some text ↔ value = .str text := by
  cases value <;> simp [asText]

theorem usageOk {v : Validation} {value : Json} {usage : Usage} :
    readUsage v value = .ok usage ↔ Counts v usage value := by
  constructor
  · intro ok
    simp only [readUsage, bindOk, getOk] at ok
    obtain ⟨prompt, ⟨object, rfl⟩, completion, ⟨_, rfl⟩, total, ⟨_, rfl⟩, ok⟩ := ok
    split at ok <;> try contradiction
    rename_i prompt completion total
    cases Except.ok.inj ok
    exact ⟨object, prompt, completion, total⟩
  · intro counts
    obtain ⟨object, prompt, completion, total⟩ := counts
    simp only [readUsage, bindOk, getOk]
    exact ⟨_, ⟨object, rfl⟩, _, ⟨object, rfl⟩, _, ⟨object, rfl⟩, by simp only [prompt, completion, total]⟩

theorem firstOk {value choice : Json} (ok : first value = .ok choice) {key : String} {found : Json}
    (there : field key choice = some found) : ∃ others, value = .arr (choice :: others) := by
  unfold first at ok
  split at ok <;> try contradiction
  · cases Except.ok.inj ok
    exact ⟨_, rfl⟩
  · split at ok <;> try contradiction
    cases Except.ok.inj ok
    simp [field] at there

theorem responseOk {v : Validation} {req : ChatRequest} {body : Json} {resp : ChatResponse} :
    readResponse v req body = .ok resp ↔ Stated v req resp body := by
  constructor
  · intro ok
    simp only [readResponse, bindOk, itemOk, getOk, usageOk] at ok
    obtain ⟨choices, offered, choice, chosen, _, ⟨_, rfl⟩, message, there, text, content, _, ⟨_, rfl⟩, _, ⟨_, rfl⟩,
      usage, counts, ok⟩ := ok
    split at ok <;> try contradiction
    rename_i text model finish
    cases Except.ok.inj ok
    obtain ⟨others, rfl⟩ := firstOk chosen there
    cases asTextSome.mp text
    exact ⟨⟨choice, others, offered, ⟨message, there, content⟩, finish⟩, asTextSome.mp model, counts⟩
  · intro stated
    obtain ⟨⟨choice, others, offered, ⟨message, there, content⟩, finish⟩, model, counts⟩ := stated
    have object := fieldObject offered
    have chosen := fieldObject there
    simp only [readResponse, bindOk, itemOk, getOk, usageOk]
    exact ⟨_, offered, choice, rfl, _, ⟨object, rfl⟩, message, there, _, content, _, ⟨object, rfl⟩, _, ⟨chosen, rfl⟩,
      _, counts, by simp only [asText, model, finish]⟩

theorem statusOk {r : HttpReply} {u : Unit} : raiseForStatus r = .ok u ↔ 200 ≤ r.status ∧ r.status < 300 := by
  unfold raiseForStatus
  split <;> simp_all

theorem mapErrorOk {ε ε' α : Type} {x : Except ε α} {f : ε → ε'} {value : α} : x.mapError f = .ok value ↔ x = .ok value := by
  cases x <;> simp [Except.mapError]

section Exchange
variable {a : OpenAICompatibleAdapter} {v : Validation} {t : Transport} {token : Nat} {req : ChatRequest} {resp : ChatResponse}

theorem generatedExchanged (generated : a.generate v t token req = .ok resp) : ∃ r body, Exchanged a v t token req resp r body := by
  simp only [generate, bindOk, statusOk, parseOk, responseOk, mapErrorOk] at generated
  obtain ⟨r, answered, _, success, body, parsed, stated⟩ := generated
  exact ⟨r, body, answered, success, parsed, stated⟩

theorem exchangedGenerates {r : HttpReply} {body : Json} (exchanged : Exchanged a v t token req resp r body) :
    a.generate v t token req = .ok resp := by
  simp only [generate, bindOk, statusOk, parseOk, responseOk, mapErrorOk]
  exact ⟨r, exchanged.answered, (), exchanged.success, body, exchanged.parsed, exchanged.stated⟩

end Exchange

theorem generateIff (a : OpenAICompatibleAdapter) (v : Validation) (t : Transport) (token : Nat) (req : ChatRequest)
    (resp : ChatResponse) : a.generate v t token req = .ok resp ↔ ∃ r body, Exchanged a v t token req resp r body := by
  constructor
  · exact generatedExchanged
  · rintro ⟨r, body, exchanged⟩
    exact exchangedGenerates exchanged

def finishJson (finish : Option String) : Json := finish.elim .null .str

def completionJson (resp : ChatResponse) : Json :=
  .obj [("model", .str resp.model),
    ("choices", .arr [.obj [("message", .obj [("content", .str resp.text)]), ("finish_reason", finishJson resp.finishReason)]]),
    ("usage", .obj [("prompt_tokens", .int resp.usage.promptTokens), ("completion_tokens", .int resp.usage.completionTokens),
      ("total_tokens", .int resp.usage.totalTokens)])]

theorem completionWritable (resp : ChatResponse) : Writable (completionJson resp) := by
  have finish : Writable (finishJson resp.finishReason) := by
    cases resp.finishReason with
    | none => exact .null
    | some reason => exact .str reason
  have message : Writable (.obj [("content", .str resp.text)]) := .obj (by simpa using Writable.str resp.text)
  have choice : Writable (.obj [("message", .obj [("content", .str resp.text)]), ("finish_reason", finishJson resp.finishReason)]) :=
    .obj (by simpa using ⟨message, finish⟩)
  have usage : Writable (.obj [("prompt_tokens", .int resp.usage.promptTokens),
      ("completion_tokens", .int resp.usage.completionTokens), ("total_tokens", .int resp.usage.totalTokens)]) :=
    .obj (by simpa using ⟨Writable.int _, Writable.int _, Writable.int _⟩)
  refine .obj ?_
  simp only [List.forall_mem_cons, List.not_mem_nil, false_implies, implies_true, and_true]
  exact ⟨.str _, .arr (by simpa using choice), usage⟩

theorem completionStated (v : Validation) (req : ChatRequest) (resp : ChatResponse) : Stated v req resp (completionJson resp) := by
  refine ⟨⟨_, [], rfl, ⟨_, rfl, rfl⟩, ?_⟩, rfl, ⟨_, rfl⟩, v.whole _, v.whole _, v.whole _⟩
  cases finish : resp.finishReason <;> simp [field, finishJson, asOptionalText]

theorem generateDecodes (a : OpenAICompatibleAdapter) (v : Validation) {t : Transport} {token : Nat} {req : ChatRequest}
    {resp : ChatResponse} (answered : t token (a.request req false) = .ok ⟨200, dumps (completionJson resp)⟩)
    (read : v.loads (dumps (completionJson resp)) = some (completionJson resp)) : a.generate v t token req = .ok resp :=
  exchangedGenerates ⟨answered, by simp, read, completionStated v req resp⟩

end OpenAICompatibleAdapter

section Served
variable {R : Type} [PyFloat R] [Builtins]

theorem Pipeline.soleCall {p : Pipeline R} {env s ctx c} (single : p.router = none) {sent : AdapterCall}
    (member : sent ∈ (p.run env s ctx c).calls) : sent.reply = p.adapter.generate (env.callToken 0) sent.request := by
  have ending := p.runEnding env s ctx c
  generalize p.run env s ctx c = out at ending member
  cases ending with
  | refused => simp [finish] at member
  | hit => simp [finish] at member
  | @dispatched found prepared reached spans =>
    have unrouted : p.routing (captured s ctx prepared) = none := by simp [routing, single]
    simp only [dispatch, unrouted] at member
    split at member
    · rename_i e failed
      simp only [finish, List.mem_singleton] at member
      rw [member, failed]
    · rename_i resp generated
      simp only [complete, finish, List.mem_singleton] at member
      rw [member, generated]

-- an earlier operation of the tenant that was answered with the text by an exchange with a terminal event
structure FinishedExchange (a : OpenAICompatibleAdapter) (v : Validation) (t : Transport) (tenant text : String)
    (served : Request R × Response R) : Prop where
  tenant : served.1.ctx.tenantId = tenant
  exchange : ∃ sent ∈ served.2.calls, ∃ resp r body, sent.reply = .ok resp ∧ resp.finishReason.isSome ∧ resp.text = text ∧
    Exchanged a v t (served.1.env.callToken 0) sent.request resp r body

variable (settings : ContextOSSettings) (a : OpenAICompatibleAdapter) (v : Validation) (describe : WireError → String)
  (t : Transport) (digest : BundlePayload R → String)

def wiredApp : App R := createApp settings (a.adapter v describe t) digest

omit [Builtins] in
theorem adapterExchanged {token : Nat} {req : ChatRequest} {resp : ChatResponse}
    (generated : (a.adapter v describe t).generate token req = .ok resp) :
    ∃ r body, Exchanged a v t token req resp r body :=
  OpenAICompatibleAdapter.generatedExchanged (OpenAICompatibleAdapter.mapErrorOk.mp generated)

theorem cachedStep (s : AppState R) (r : Request R) {tenant key : String} {stored : StoredEntry R}
    (there : (((wiredApp settings a v describe t digest).step s r).1.stores.cache.part tenant).get key = some stored) :
    (s.stores.cache.part tenant).get key = some stored ∨
    FinishedExchange a v t tenant stored.responseText (r, ((wiredApp settings a v describe t digest).step s r).2) := by
  rcases (wiredApp settings a v describe t digest).stepCache s r there with old | ⟨_, _, call, _, _, _, chat, _⟩
  · exact .inl old
  · rw [App.chatStores chat] at there
    rcases Pipeline.runCache _ _ _ _ _ there with old | ⟨found, prepared, model, resp, cache, done, _, owner, _, made⟩
    · exact .inl old
    · have generated := Pipeline.soleCall rfl done.call
      obtain ⟨body, reply, exchanged⟩ := adapterExchanged a v describe t generated.symm
      rw [App.chatReply chat]
      exact .inr ⟨owner.symm, _, done.call, resp, body, reply, rfl, done.finished, (SemanticCache.newEntryOf made).2.text.symm,
        exchanged⟩

theorem cachedFromWire (requests : List (Request R)) {tenant key : String} {stored : StoredEntry R}
    (there : (((wiredApp settings a v describe t digest).machine.exec AppState.initial requests).stores.cache.part tenant).get
      key = some stored) :
    ∃ served ∈ (wiredApp settings a v describe t digest).machine.replies AppState.initial requests,
      FinishedExchange a v t tenant stored.responseText served := by
  have run := (wiredApp settings a v describe t digest).machine.historyInvariant
    (P := fun past s => ∀ tenant key stored, (s.stores.cache.part tenant).get key = some stored →
      ∃ served ∈ past, FinishedExchange a v t tenant stored.responseText served)
    (s := AppState.initial) (by simp [AppState.initial]) (fun past s r valid tenant key stored there => by
      rcases cachedStep settings a v describe t digest s r there with old | new
      · obtain ⟨served, member, finished⟩ := valid tenant key stored old
        exact ⟨served, List.mem_append_left _ member, finished⟩
      · exact ⟨_, List.mem_append_right _ List.mem_cons_self, new⟩) requests
  exact run tenant key stored there

-- the exchange of this very operation, its text, model and token counts handed on as they were stated
def AnsweredNow (result : ChatResult) (served : Request R × Response R) : Prop :=
  ∃ sent ∈ served.2.calls, ∃ resp r body, sent.reply = .ok resp ∧
    result = ⟨resp.text, served.1.env.traceId, resp.model, resp.usage⟩ ∧
    Exchanged a v t (served.1.env.callToken 0) sent.request resp r body

/-- No answer is made up: the text of every reply was stated by the endpoint, now or to the same tenant before. -/
theorem answersFromWire {front : List (Request R)} {r : Request R} {call : ChatCall} (chat : r.op = .chat call)
    {result : ChatResult}
    (answered : ((wiredApp settings a v describe t digest).step
      ((wiredApp settings a v describe t digest).machine.exec AppState.initial front) r).2.result = .ok (.chat result)) :
    AnsweredNow a v t result (r, ((wiredApp settings a v describe t digest).step
      ((wiredApp settings a v describe t digest).machine.exec AppState.initial front) r).2) ∨
    ∃ served ∈ (wiredApp settings a v describe t digest).machine.replies AppState.initial front,
      FinishedExchange a v t r.ctx.tenantId result.text served := by
  have ok := App.chatAnswered chat answered
  rw [AnsweredNow, App.chatReply chat]
  generalize state : (wiredApp settings a v describe t digest).machine.exec AppState.initial front = s at ok ⊢
  by_cases quiet : ((wiredApp settings a v describe t digest).pipeline.run r.env s.stores r.ctx call).calls = []
  · obtain ⟨key, stored, there, same⟩ := Pipeline.servedFromCache _ _ _ _ _ ok quiet
    rw [same]
    exact .inr (cachedFromWire settings a v describe t digest front (state ▸ there))
  · have ended := (wiredApp settings a v describe t digest).pipeline.runEnded r.env s.stores r.ctx call
    have sole : ∀ sent ∈ ((wiredApp settings a v describe t digest).pipeline.run r.env s.stores r.ctx call).calls, _ :=
      fun sent member => Pipeline.soleCall rfl member
    generalize (wiredApp settings a v describe t digest).pipeline.run r.env s.stores r.ctx call = out at ok quiet ended sole
    cases ended with
    | refused => simp [Pipeline.finish] at ok
    | hit => simp [Pipeline.finish] at quiet
    | failed => simp [Pipeline.finish] at ok
    | @answered found prepared model resp done backends spans failures =>
      have member : (⟨⟨model, prepared.messages, call.maxTokens⟩, .ok resp⟩ : AdapterCall) ∈
        failures ++ [⟨⟨model, prepared.messages, call.maxTokens⟩, .ok resp⟩] := by simp
      obtain ⟨body, reply, exchanged⟩ := adapterExchanged a v describe t (sole _ member).symm
      exact .inl ⟨_, member, resp, body, reply, rfl, (Except.ok.inj ok).symm, exchanged⟩

end Served

def plainValidation : Validation where
  loads := Json.loads
  toInt value :=
    match value with
    | .int n => some n
    | _ => none
  whole _ := rfl
  isZero literal := literal == "0.0" || literal == "-0.0"

def redResponse : ChatResponse := ⟨"red", "default", some "stop", ⟨1, 1, 2⟩⟩

def redEndpoint : Transport := fun _ _ => .ok ⟨200, dumps (OpenAICompatibleAdapter.completionJson redResponse)⟩

def sampleVllm : OpenAICompatibleAdapter := vllmAdapter "http://localhost:8000/" "default" none

theorem redAdapter (describe : WireError → String) :
    sampleVllm.adapter plainValidation describe redEndpoint = ⟨"vllm", fun _ _ => .ok redResponse⟩ := by
  rw [OpenAICompatibleAdapter.adapter, Adapter.mk.injEq]
  refine ⟨rfl, funext fun token => funext fun req => ?_⟩
  have decoded : sampleVllm.generate plainValidation redEndpoint token req = .ok redResponse :=
    sampleVllm.generateDecodes plainValidation rfl (loadsDumps (OpenAICompatibleAdapter.completionWritable redResponse))
  rw [decoded]
  rfl

def colourFirst : Request ℚ := ⟨member "acme" "sales", envAt 0 "1", .chat (ask "colour")⟩
def colourAgain : Request ℚ := ⟨member "acme" "sales", envAt 1 "2", .chat (ask "colour")⟩

def redApp [Builtins] : App ℚ :=
  wiredApp sampleSettings sampleVllm plainValidation (fun _ => "") redEndpoint (fun _ => "cid")

theorem redAppPlain [Builtins] :
    redApp = createApp sampleSettings ⟨"vllm", fun _ _ => .ok redResponse⟩ (fun _ => "cid") := by
  rw [redApp, wiredApp, redAdapter]

theorem answersFromWireSample :
    letI := asciiBuiltins [] []
    ∃ result, AnsweredNow sampleVllm plainValidation redEndpoint result
        (colourAgain, (redApp.step (redApp.machine.exec AppState.initial [colourFirst]) colourAgain).2) ∨
      ∃ served ∈ redApp.machine.replies AppState.initial [colourFirst],
        FinishedExchange sampleVllm plainValidation redEndpoint "acme" result.text served := by
  let _ := asciiBuiltins [] []
  have answered : (chatResult? (redApp.step (redApp.machine.exec AppState.initial [colourFirst]) colourAgain).2).isSome := by
    rw [redAppPlain]
    decide +kernel
  obtain ⟨result, answered⟩ := Option.isSome_iff_exists.mp answered
  exact ⟨result, answersFromWire sampleSettings sampleVllm plainValidation (fun _ => "") redEndpoint (fun _ => "cid") rfl
    (chatResultSome answered)⟩

end ContextOS
