import ContextOS.Completions
import ContextOS.Sentences

/-! The streamed form of a completion: one event for each data line that brings text, and
one terminal event. A stream that was cut off yields a part of what it would have yielded
and never the terminal event, and what a well-formed stream carries arrives in order. -/
namespace ContextOS
open Lib (Json bindOk runsClosed)
open Lib.Json (field dumps Writable loadsDumps)

inductive StreamEventType where
  | token
  | usage
  | done
  | error
  deriving DecidableEq, Repr

structure StreamEvent where
  type : StreamEventType
  data : String
  finishReason : Option String
  deriving DecidableEq, Repr

namespace StreamEvent

def token (data : String) : StreamEvent := ⟨.token, data, none⟩

def done : StreamEvent := ⟨.done, "", some "stop"⟩

end StreamEvent

-- a reply that is read line by line, and the exception of a connection that broke after the lines
structure LineReply where
  status : Nat
  lines : List String
  cut : Option String

structure Streamed where
  events : List StreamEvent
  raised : Option WireError
  deriving DecidableEq, Repr

namespace OpenAICompatibleAdapter
open WireError (item first get parse itemOk getOk parseOk fieldObject)

-- what follows `data: ` on a line that starts so
def dataOf (line : String) : Option String :=
  if "data: ".toList.isPrefixOf line.toList then some (String.ofList (line.toList.drop 6)) else none

def chunkContent (v : Validation) (chunk : String) : Except WireError (Option Json) := do
  let body ← parse v chunk
  let delta ← first (← item "choices" body)
  let inner ← get "delta" delta
  get "content" (inner.getD (.obj []))

def truthy (v : Validation) : Json → Bool
  | .null => false
  | .bool value => value
  | .int n => n != 0
  | .real literal => !v.isZero literal
  | .str text => !text.isEmpty
  | .arr items => !items.isEmpty
  | .obj fields => !fields.isEmpty

inductive LineStep where
  | skip
  | emit (text : String)
  | stop
  | raised (e : WireError)
  deriving DecidableEq, Repr

def contentStep (v : Validation) (content : Json) : LineStep :=
  if truthy v content then
    match content with
    | .str text => .emit text
    | _ => .raised (.invalid "StreamEvent" ["data"])
  else .skip

def lineStep (v : Validation) (line : String) : LineStep :=
  match dataOf line with
  | none => .skip
  | some chunk =>
    if strip chunk = "[DONE]" then .stop
    else match chunkContent v chunk with
      | .error e => .raised e
      | .ok none => .skip
      | .ok (some content) => contentStep v content

def readLines (v : Validation) (cut : Option String) : List String → Streamed
  | [] => ⟨[], cut.map .unreachable⟩
  | line :: rest =>
    match lineStep v line with
    | .skip => readLines v cut rest
    | .emit text => { readLines v cut rest with events := .token text :: (readLines v cut rest).events }
    | .stop => ⟨[.done], none⟩
    | .raised e => ⟨[], some e⟩

def stream (a : OpenAICompatibleAdapter) (v : Validation) (t : Nat → HttpRequest → Except String LineReply) (token : Nat)
    (req : ChatRequest) : Streamed :=
  match t token (a.request req true) with
  | .error e => ⟨[], some (.unreachable e)⟩
  | .ok r => if 200 ≤ r.status ∧ r.status < 300 then readLines v r.cut r.lines else ⟨[], some (.badStatus r.status)⟩

end OpenAICompatibleAdapter

-- the stream of the deterministic adapter
def fakeStream (reply : String) : List StreamEvent := (splitWords reply).map (fun word => .token (word ++ " ")) ++ [.done]

namespace OpenAICompatibleAdapter
open WireError (itemOk getOk parseOk)
variable (v : Validation)

def emitted (line : String) : Option String :=
  match lineStep v line with
  | .emit text => some text
  | _ => none

structure Passes (line : String) : Prop where
  running : lineStep v line ≠ .stop
  sound : ∀ e, lineStep v line ≠ .raised e

def tokens (lines : List String) : List StreamEvent := (lines.filterMap (emitted v)).map .token

variable {v}

theorem readPassing {front : List String} (passing : ∀ line ∈ front, Passes v line) (cut : Option String) (back : List String) :
    readLines v cut (front ++ back) = ⟨tokens v front ++ (readLines v cut back).events, (readLines v cut back).raised⟩ := by
  induction front with
  | nil => rfl
  | cons line rest ih =>
    obtain ⟨here, later⟩ := List.forall_mem_cons.mp passing
    have ih := ih later
    rw [List.cons_append, readLines]
    cases step : lineStep v line with
    | skip => simpa only [tokens, List.filterMap_cons, emitted, step] using ih
    | emit text => simp [ih, tokens, emitted, step]
    | stop => exact absurd step here.running
    | raised e => exact absurd step (here.sound e)

inductive Course (v : Validation) (lines : List String) : Prop where
  | open (passing : ∀ line ∈ lines, Passes v line)
  | stopped (front : List String) (line : String) (back : List String) (split : lines = front ++ line :: back)
      (passing : ∀ line ∈ front, Passes v line) (stop : lineStep v line = .stop)
  | failed (front : List String) (line : String) (back : List String) (split : lines = front ++ line :: back)
      (passing : ∀ line ∈ front, Passes v line) (e : WireError) (raised : lineStep v line = .raised e)

theorem course (v : Validation) (lines : List String) : Course v lines := by
  induction lines with
  | nil => exact .open (by simp)
  | cons line rest ih =>
    by_cases passes : Passes v line
    · have both : ∀ {front : List String}, (∀ l ∈ front, Passes v l) → ∀ l ∈ line :: front, Passes v l :=
        fun given => List.forall_mem_cons.mpr ⟨passes, given⟩
      cases ih with
      | «open» passing => exact .open (both passing)
      | stopped front last back split passing stop =>
        exact .stopped (line :: front) last back (by rw [split]; rfl) (both passing) stop
      | failed front last back split passing e raised =>
        exact .failed (line :: front) last back (by rw [split]; rfl) (both passing) e raised
    · cases step : lineStep v line with
      | stop => exact .stopped [] line rest rfl (by simp) step
      | raised e => exact .failed [] line rest rfl (by simp) e step
      | skip => exact absurd ⟨by simp [step], by simp [step]⟩ passes
      | emit text => exact absurd ⟨by simp [step], by simp [step]⟩ passes

theorem readOpen {lines : List String} (passing : ∀ line ∈ lines, Passes v line) (cut : Option String) :
    readLines v cut lines = ⟨tokens v lines, cut.map .unreachable⟩ := by
  simpa [readLines] using readPassing passing cut []

theorem readStopped {front : List String} (passing : ∀ line ∈ front, Passes v line) {line : String}
    (stop : lineStep v line = .stop) (back : List String) (cut : Option String) :
    readLines v cut (front ++ line :: back) = ⟨tokens v front ++ [.done], none⟩ := by
  simp [readPassing passing, readLines, stop]

theorem readFailed {front : List String} (passing : ∀ line ∈ front, Passes v line) {line : String} {e : WireError}
    (raised : lineStep v line = .raised e) (back : List String) (cut : Option String) :
    readLines v cut (front ++ line :: back) = ⟨tokens v front, some e⟩ := by
  simp [readPassing passing, readLines, raised]

theorem tokensType (lines : List String) : ∀ event ∈ tokens v lines, event.type = .token := by
  intro event member
  obtain ⟨text, _, rfl⟩ := List.mem_map.mp member
  rfl

theorem doneNotToken (lines : List String) : StreamEvent.done ∉ tokens v lines :=
  fun member => absurd (tokensType lines _ member) (by decide)

theorem contentEmits {content : Json} {text : String} (step : contentStep v content = .emit text) : text ≠ "" := by
  unfold contentStep at step
  split at step <;> try contradiction
  rename_i shown
  cases content with
  | str other =>
    cases LineStep.emit.inj step
    simpa [truthy] using shown
  | _ => contradiction

theorem lineEmits {line text : String} (step : lineStep v line = .emit text) : text ≠ "" := by
  unfold lineStep at step
  cases data : dataOf line with
  | none => simp [data] at step
  | some chunk =>
    simp only [data] at step
    by_cases terminal : strip chunk = "[DONE]"
    · simp [terminal] at step
    · rw [if_neg terminal] at step
      cases content : chunkContent v chunk with
      | error e => simp [content] at step
      | ok content' =>
        cases content' with
        | none => simp [content] at step
        | some content' => exact contentEmits (by simpa only [content] using step)

theorem emittedSome {line text : String} (given : emitted v line = some text) : text ≠ "" := by
  unfold emitted at given
  cases step : lineStep v line with
  | emit other =>
    rw [step] at given
    cases Option.some.inj given
    exact lineEmits step
  | _ => simp [step] at given

theorem tokensText (lines : List String) : ∃ texts : List String, "" ∉ texts ∧ tokens v lines = texts.map .token := by
  refine ⟨lines.filterMap (emitted v), fun empty => ?_, rfl⟩
  obtain ⟨line, _, given⟩ := List.mem_filterMap.mp empty
  exact emittedSome given rfl

def Terminal (line : String) : Prop := ∃ chunk, dataOf line = some chunk ∧ strip chunk = "[DONE]"

theorem contentRuns (content : Json) : contentStep v content ≠ .stop := by
  unfold contentStep
  split
  · cases content <;> simp
  · simp

theorem stopIff {line : String} : lineStep v line = .stop ↔ Terminal line := by
  unfold lineStep Terminal
  cases dataOf line with
  | none => simp
  | some chunk =>
    by_cases terminal : strip chunk = "[DONE]"
    · simp [terminal]
    · simp only [terminal, if_false, Option.some.injEq, exists_eq_left', iff_false]
      cases chunkContent v chunk with
      | error e => simp
      | ok content =>
        cases content with
        | none => simp
        | some content => exact contentRuns content

def Reaches (v : Validation) (lines : List String) : Prop :=
  ∃ front line back, lines = front ++ line :: back ∧ Terminal line ∧ ∀ l ∈ front, Passes v l

-- the connection is lost while the stream is open, or a line is the first that cannot be read
inductive Raised (v : Validation) (cut : Option String) (lines : List String) : WireError → Prop where
  | lost {text : String} (broke : cut = some text) (passing : ∀ l ∈ lines, Passes v l) : Raised v cut lines (.unreachable text)
  | unread {front back : List String} {line : String} {e : WireError} (split : lines = front ++ line :: back)
      (passing : ∀ l ∈ front, Passes v l) (raised : lineStep v line = .raised e) : Raised v cut lines e

-- what a consumer may rely on: the text comes first, each event has some, the terminal event is
-- the last, comes once, and only when the endpoint sent its terminal line
structure WellEnded (v : Validation) (cut : Option String) (lines : List String) (out : Streamed) : Prop where
  shape : ∃ texts : List String, "" ∉ texts ∧ (out.events = texts.map .token ∨ out.events = texts.map .token ++ [.done])
  terminal : .done ∈ out.events ↔ Reaches v lines
  raised : ∀ e, out.raised = some e ↔ Raised v cut lines e

theorem splitUnique {front front' back back' : List String} {line line' : String}
    (same : front ++ line :: back = front' ++ line' :: back') (passing : ∀ l ∈ front, Passes v l)
    (passing' : ∀ l ∈ front', Passes v l) (halts : ¬ Passes v line) (halts' : ¬ Passes v line') : line = line' := by
  rcases List.append_eq_append_iff.mp same with ⟨more, rfl, rest⟩ | ⟨more, rfl, rest⟩
  · cases more with
    | nil => exact (List.cons.inj rest).1
    | cons first more =>
      obtain ⟨rfl, _⟩ := List.cons.inj rest
      exact absurd (passing' _ (by simp)) halts
  · cases more with
    | nil => exact (List.cons.inj rest).1.symm
    | cons first more =>
      obtain ⟨rfl, _⟩ := List.cons.inj rest
      exact absurd (passing _ (by simp)) halts'

theorem stopHalts {line : String} (stop : lineStep v line = .stop) : ¬ Passes v line := fun passes => passes.running stop

theorem raisedHalts {line : String} {e : WireError} (raised : lineStep v line = .raised e) : ¬ Passes v line :=
  fun passes => passes.sound e raised

theorem raisedHere {front back : List String} {line : String} (passing : ∀ l ∈ front, Passes v l) (halts : ¬ Passes v line)
    (cut : Option String) (e : WireError) : Raised v cut (front ++ line :: back) e ↔ lineStep v line = .raised e := by
  constructor
  · intro raised
    generalize all : front ++ line :: back = lines at raised
    cases raised with
    | lost broke given => exact absurd (given line (by simp [← all])) halts
    | @unread front' back' line' e split passing' raised =>
      rwa [splitUnique (all.trans split) passing passing' halts (raisedHalts raised)]
  · exact .unread rfl passing

theorem raisedOpen {lines : List String} (passing : ∀ l ∈ lines, Passes v l) (cut : Option String) (e : WireError) :
    Raised v cut lines e ↔ cut.map .unreachable = some e := by
  constructor
  · intro raised
    cases raised with
    | lost broke _ => rw [broke]; rfl
    | @unread front back line e split _ raised =>
      exact absurd (passing line (by simp [split])) (raisedHalts raised)
  · intro given
    obtain ⟨text, broke, rfl⟩ := Option.map_eq_some_iff.mp given
    exact .lost broke passing

theorem readWellEnded (v : Validation) (cut : Option String) (lines : List String) :
    WellEnded v cut lines (readLines v cut lines) := by
  cases course v lines with
  | «open» passing =>
    rw [readOpen passing]
    obtain ⟨texts, shown, same⟩ := tokensText (v := v) lines
    refine ⟨⟨texts, shown, .inl same⟩, iff_of_false (doneNotToken lines) ?_, fun e => (raisedOpen passing cut e).symm⟩
    rintro ⟨front, line, back, rfl, terminal, _⟩
    exact stopHalts (stopIff.mpr terminal) (passing line (by simp))
  | stopped front line back split passing stop =>
    obtain ⟨texts, shown, same⟩ := tokensText (v := v) front
    rw [split, readStopped passing stop]
    refine ⟨⟨texts, shown, .inr (by rw [same])⟩, iff_of_true (by simp) ⟨front, line, back, rfl, stopIff.mp stop, passing⟩, fun e => ?_⟩
    rw [raisedHere passing (stopHalts stop), stop]
    simp
  | failed front line back split passing e raised =>
    obtain ⟨texts, shown, same⟩ := tokensText (v := v) front
    rw [split, readFailed passing raised]
    refine ⟨⟨texts, shown, .inl same⟩, iff_of_false (doneNotToken front) ?_, fun other => ?_⟩
    · rintro ⟨front', line', back', same, terminal, passing'⟩
      have stop := stopIff (v := v).mpr terminal
      rw [splitUnique same passing passing' (raisedHalts raised) (stopHalts stop), stop] at raised
      contradiction
    · rw [raisedHere passing (raisedHalts raised), raised]
      simp

/-- Whatever ends a stream early takes nothing back, and leaves no terminal event that was not sent. -/
theorem streamCut (v : Validation) (front back : List String) (cut cut' : Option String) :
    WellEnded v cut front (readLines v cut front) ∧
    (readLines v cut front).events <+: (readLines v cut' (front ++ back)).events ∧
    (.done ∈ (readLines v cut front).events → readLines v cut' (front ++ back) = readLines v cut front) := by
  refine ⟨readWellEnded v cut front, ?_⟩
  cases course v front with
  | «open» passing =>
    rw [readOpen passing, readPassing passing]
    exact ⟨List.prefix_append _ _, fun done => absurd done (doneNotToken front)⟩
  | stopped first line rest split passing stop =>
    rw [split, List.append_assoc, List.cons_append, readStopped passing stop, readStopped passing stop]
    exact ⟨List.prefix_refl _, fun _ => rfl⟩
  | failed first line rest split passing e raised =>
    rw [split, List.append_assoc, List.cons_append, readFailed passing raised, readFailed passing raised]
    exact ⟨List.prefix_refl _, fun _ => rfl⟩

-- the text that one chunk adds; a chunk with the role alone adds none
inductive Content : Option Json → String → Prop where
  | absent : Content none ""
  | null : Content (some .null) ""
  | text (text : String) : Content (some (.str text)) text

structure Carries (body : Json) (text : String) : Prop where
  choice : ∃ choice others fields inner, field "choices" body = some (.arr (choice :: others)) ∧ choice = .obj fields ∧
    (field "delta" choice).getD (.obj []) = .obj inner ∧ Content (field "content" (.obj inner)) text

-- the lines of a stream and the texts of its chunks, which may be written in any way that the
-- reader reads. Lines without data may stand anywhere
inductive Framed (v : Validation) : List String → List String → Prop where
  | done {line : String} (terminal : Terminal line) (back : List String) : Framed v (line :: back) []
  | ignored {line : String} (plain : dataOf line = none) {lines texts : List String} (rest : Framed v lines texts) :
      Framed v (line :: lines) texts
  | chunk {line chunk : String} {body : Json} {text : String} (data : dataOf line = some chunk) (running : strip chunk ≠ "[DONE]")
      (read : v.loads chunk = some body) (carries : Carries body text) {lines texts : List String}
      (rest : Framed v lines texts) : Framed v (line :: lines) (text :: texts)

theorem dataAppend (chunk : String) : dataOf ("data: " ++ chunk) = some chunk := by
  simp [dataOf, String.toList_append, List.isPrefixOf]

theorem objectOpens {body : Json} (object : ∃ fields, body = .obj fields) : ∃ rest, (dumps body).toList = '\x7b' :: rest := by
  obtain ⟨fields, rfl⟩ := object
  exact ⟨_, by rw [dumps, String.toList_ofList, Json.write, List.cons_append]⟩

theorem chunkRuns {text : String} {rest : List Char} (opens : text.toList = '\x7b' :: rest) : strip text ≠ "[DONE]" := by
  intro terminal
  obtain ⟨front, back, parts, blank, _⟩ := stripParts text
  rw [opens, terminal] at parts
  cases front with
  | nil => exact absurd (List.cons.inj parts).1 (by decide)
  | cons c front =>
    obtain ⟨rfl, _⟩ := List.cons.inj parts
    exact absurd (blank _ List.mem_cons_self) (by decide)

theorem carriesContent {v : Validation} {chunk : String} {body : Json} {text : String} (read : v.loads chunk = some body)
    (carries : Carries body text) : ∃ content, chunkContent v chunk = .ok content ∧ Content content text := by
  obtain ⟨choice, others, fields, inner, offered, chosen, delta, content⟩ := carries.choice
  refine ⟨_, ?_, content⟩
  simp only [chunkContent, bindOk, parseOk, itemOk, getOk]
  exact ⟨body, read, _, offered, choice, rfl, _, ⟨⟨fields, chosen⟩, rfl⟩, ⟨inner, delta⟩, by rw [delta]⟩

theorem chunkStep {v : Validation} {line chunk : String} {body : Json} {text : String} (data : dataOf line = some chunk)
    (running : strip chunk ≠ "[DONE]") (read : v.loads chunk = some body) (carries : Carries body text) :
    lineStep v line = if text = "" then .skip else .emit text := by
  obtain ⟨content, found, added⟩ := carriesContent read carries
  simp only [lineStep, data, if_neg running, found]
  cases added with
  | absent => rfl
  | null => rfl
  | text text => simp [contentStep, truthy]

theorem streamDecodes {v : Validation} {lines texts : List String} (framed : Framed v lines texts) (cut : Option String) :
    readLines v cut lines = ⟨(texts.filter (· ≠ "")).map .token ++ [.done], none⟩ := by
  induction framed with
  | @done line terminal back =>
    have first : ∀ l ∈ ([] : List String), Passes v l := by simp
    exact readStopped first (stopIff.mpr terminal) back cut
  | @ignored line plain lines texts rest ih =>
    have step : lineStep v line = .skip := by simp only [lineStep, plain]
    rw [readLines, step]
    exact ih
  | @chunk line chunk body text data running read carries lines texts rest ih =>
    have step := chunkStep data running read carries
    rw [readLines, step]
    by_cases empty : text = ""
    · simpa [empty] using ih
    · simp [empty, ih]

end OpenAICompatibleAdapter

def streamedText (events : List StreamEvent) : String := String.join (events.map (·.data))

theorem streamedTokens (texts : List String) : streamedText (texts.map .token ++ [.done]) = String.join texts := by
  induction texts with
  | nil => rfl
  | cons text rest ih =>
    have ih : String.join ((rest.map StreamEvent.token ++ [StreamEvent.done]).map StreamEvent.data) = String.join rest := ih
    rw [streamedText, List.map_cons, List.cons_append, List.map_cons, String.join_cons, ih, String.join_cons]
    rfl

theorem joinShown (texts : List String) : String.join (texts.filter (· ≠ "")) = String.join texts := by
  induction texts with
  | nil => rfl
  | cons text rest ih =>
    rw [String.join_cons, List.filter_cons]
    split
    · rw [String.join_cons, ih]
    · rename_i hidden
      have empty : text = "" := by simpa using hidden
      rw [ih, empty, String.empty_append]

theorem OpenAICompatibleAdapter.streamDelivers (a : OpenAICompatibleAdapter) (v : Validation)
    {t : Nat → HttpRequest → Except String LineReply} {token : Nat} {req : ChatRequest} {r : LineReply} {texts : List String}
    (answered : t token (a.request req true) = .ok r) (success : 200 ≤ r.status ∧ r.status < 300)
    (framed : Framed v r.lines texts) :
    a.stream v t token req = ⟨(texts.filter (· ≠ "")).map .token ++ [.done], none⟩ ∧
    streamedText (a.stream v t token req).events = String.join texts := by
  have out : a.stream v t token req = ⟨(texts.filter (· ≠ "")).map .token ++ [.done], none⟩ := by
    simp only [stream, answered, if_pos success, streamDecodes framed]
  exact ⟨out, by rw [out, streamedTokens, joinShown]⟩

theorem joinClosed (read : List (List Char)) : (String.join ((read.map String.ofList).map (· ++ " "))).toList =
    read.flatMap (fun run => run ++ [' ']) := by
  simp [List.flatMap_map]

theorem wordsClosed (text : String) : splitWords (String.join ((splitWords text).map (· ++ " "))) = splitWords text := by
  have space : (!isSpace ' ') = false := by decide
  conv_lhs => rw [splitWords, findRuns]
  rw [splitWords, findRuns, joinClosed, runsClosed (p := fun c => !isSpace c) space]

def deltaJson (text : String) : Json := .obj [("choices", .arr [.obj [("delta", .obj [("content", .str text)])]])]

-- what an endpoint writes for the pieces of its answer: each event on its line, a blank one after it
def sseLines (texts : List String) : List String :=
  texts.flatMap (fun text => ["data: " ++ dumps (deltaJson text), ""]) ++ ["data: [DONE]", ""]

theorem deltaWritable (text : String) : Writable (deltaJson text) := by
  have inner : Writable (.obj [("content", .str text)]) := .obj (by simpa using Writable.str text)
  have delta : Writable (.obj [("delta", .obj [("content", .str text)])]) := .obj (by simpa using inner)
  have choices : Writable (.arr [.obj [("delta", .obj [("content", .str text)])]]) := .arr (by simpa using delta)
  exact .obj (by simpa using choices)

theorem sseFramed (texts : List String) : OpenAICompatibleAdapter.Framed plainValidation (sseLines texts) texts := by
  induction texts with
  | nil => exact .done ⟨"[DONE]", by decide, by decide⟩ [""]
  | cons text rest ih =>
    have object : ∃ fields, deltaJson text = .obj fields := ⟨_, rfl⟩
    obtain ⟨more, opens⟩ := OpenAICompatibleAdapter.objectOpens object
    have read : plainValidation.loads (dumps (deltaJson text)) = some (deltaJson text) := loadsDumps (deltaWritable text)
    have carries : OpenAICompatibleAdapter.Carries (deltaJson text) text := ⟨_, [], _, _, rfl, rfl, rfl, .text text⟩
    exact .chunk (OpenAICompatibleAdapter.dataAppend _) (OpenAICompatibleAdapter.chunkRuns opens) read carries
      (.ignored (by decide) ih)

def helloEndpoint : Nat → HttpRequest → Except String LineReply := fun _ _ => .ok ⟨200, sseLines ["Hel", "", "lo"], none⟩

theorem streamDeliversSample : sampleVllm.stream plainValidation helloEndpoint 0 ⟨"m", [⟨.user, "hi"⟩], 512⟩ =
      ⟨[.token "Hel", .token "lo", .done], none⟩ ∧
    streamedText (sampleVllm.stream plainValidation helloEndpoint 0 ⟨"m", [⟨.user, "hi"⟩], 512⟩).events = "Hello" := by
  have answered : helloEndpoint 0 (sampleVllm.request ⟨"m", [⟨.user, "hi"⟩], 512⟩ true) = .ok ⟨200, sseLines ["Hel", "", "lo"], none⟩ :=
    rfl
  exact sampleVllm.streamDelivers plainValidation answered (by decide) (sseFramed ["Hel", "", "lo"])

/-- The deterministic adapter says the same words on both of its paths, and charges one token for each of its events. -/
theorem fakeAgrees (reply : String) (token : Nat) (req : ChatRequest) :
    ∃ (resp : ChatResponse) (words : List String), (fakeAdapter wordCount reply).generate token req = .ok resp ∧
      fakeStream reply = words.map .token ++ [⟨.done, "", resp.finishReason⟩] ∧ "" ∉ words ∧
      splitWords (streamedText (fakeStream reply)) = splitWords resp.text ∧
      resp.usage.completionTokens = words.length ∧
      resp.usage.totalTokens = resp.usage.promptTokens + resp.usage.completionTokens := by
  refine ⟨_, (splitWords reply).map (· ++ " "), rfl, by simp [fakeStream, StreamEvent.done], ?_, ?_, ?_, ?_⟩
  · simp
  · have events : fakeStream reply = ((splitWords reply).map (· ++ " ")).map .token ++ [.done] := by simp [fakeStream]
    rw [events, streamedTokens, wordsClosed]
  · simp [wordCount]
  · simp

end ContextOS
