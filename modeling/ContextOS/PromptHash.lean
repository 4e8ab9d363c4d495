import ContextOS.Endings
import ContextOS.Executable
import ContextOS.Lib.Blocks
import ContextOS.Lib.Join
import Mathlib.Data.Set.List

/-! What the prompt hash identifies. The canonical text is read line by line: a line that
starts with a role and the unit separator may open a message, or may be part of one. A
prompt is told by its hash exactly when it has no line that could be taken for a header
and is none, and at most one message before the last one. -/
namespace ContextOS
open Lib (OpenedBy Reading OneFinal)

def messageText (m : ChatMessage) : String := m.role.value ++ "\x1f" ++ m.content

def canonicalText (messages : List ChatMessage) : String := "\n".intercalate (messages.map messageText)

theorem hashCanonical [Builtins] (messages : List ChatMessage) :
    renderPromptHash messages = Builtins.sha256 (canonicalText messages) := rfl

/-! ### Lines -/

def messageHeader (role : Role) : List Char := (role.value ++ "\x1f").toList

def readsAs (role : Role) (line : List Char) : Bool := (messageHeader role).isPrefixOf line

def readsHeader (line : List Char) : Bool := readsAs .system line || readsAs .user line || readsAs .assistant line

def messageLines (m : ChatMessage) : List (List Char) := (messageText m).toList.splitOn '\n'

/-- The first line of a content stands behind the header of its message. -/
def laterLines (m : ChatMessage) : List (List Char) := (m.content.toList.splitOn '\n').tail

theorem readsHeaderIff {line : List Char} : readsHeader line ↔ ∃ role, readsAs role line := by
  simp only [readsHeader, Bool.or_eq_true]
  constructor
  · rintro ((system | user) | assistant)
    · exact ⟨.system, system⟩
    · exact ⟨.user, user⟩
    · exact ⟨.assistant, assistant⟩
  · rintro ⟨role, reads⟩
    cases role with
    | system => exact .inl (.inl reads)
    | user => exact .inl (.inr reads)
    | assistant => exact .inr reads

theorem readsOwn (role other : Role) (x : List Char) : readsAs other (messageHeader role ++ x) = decide (role = other) := by
  cases role <;> cases other <;> simp [readsAs, messageHeader, Role.value, List.isPrefixOf]

theorem headerUnbroken (role : Role) : '\n' ∉ messageHeader role := by
  cases role <;> simp [messageHeader, Role.value]

theorem messageChars (m : ChatMessage) : (messageText m).toList = messageHeader m.role ++ m.content.toList := by
  simp [messageText, messageHeader]

theorem messageLinesHead (m : ChatMessage) : ∃ x, messageLines m = (messageHeader m.role ++ x) :: laterLines m := by
  obtain ⟨x, rest, split⟩ := List.exists_cons_of_ne_nil (List.splitOn_ne_nil '\n' m.content.toList)
  refine ⟨x, ?_⟩
  rw [messageLines, messageChars, Lib.splitPrefix (headerUnbroken m.role), laterLines, split]
  rfl

theorem messageOpened (m : ChatMessage) : OpenedBy (readsAs m.role) (messageLines m) := by
  obtain ⟨x, lines⟩ := messageLinesHead m
  exact ⟨_, _, lines, by simp [readsOwn]⟩

theorem openedHeader {role : Role} {block : List (List Char)} (opened : OpenedBy (readsAs role) block) :
    OpenedBy readsHeader block := by
  obtain ⟨x, rest, rfl, first⟩ := opened
  exact ⟨x, rest, rfl, readsHeaderIff.mpr ⟨role, first⟩⟩

theorem messageOf {role : Role} {block : List (List Char)} (unbroken : ∀ line ∈ block, '\n' ∉ line)
    (opened : OpenedBy (readsAs role) block) : ∃ content, messageLines ⟨role, content⟩ = block := by
  obtain ⟨line, rest, rfl, first⟩ := opened
  obtain ⟨x, rfl⟩ := List.isPrefixOf_iff_prefix.mp first
  refine ⟨String.ofList (['\n'].intercalate (x :: rest)), ?_⟩
  rw [messageLines, messageChars, String.toList_ofList, ← Lib.joinPrefix, List.splitOn_intercalate '\n' unbroken (by simp)]

theorem messageLinesInjective : Function.Injective messageLines := by
  intro m m' same
  have chars := congrArg (['\n'].intercalate ·) same
  simp only [messageLines, List.intercalate_splitOn, messageChars] at chars
  have role : m.role = m'.role := by
    have own := readsOwn m.role m'.role m.content.toList
    rw [chars, readsOwn, decide_eq_true rfl] at own
    exact of_decide_eq_true own.symm
  rw [role] at chars
  have content := String.toList_inj.mp (List.append_cancel_left chars)
  obtain ⟨_, _⟩ := m
  obtain ⟨_, _⟩ := m'
  simp_all

/-! ### The canonical text -/

theorem canonicalLines {messages : List ChatMessage} (some : messages ≠ []) :
    (canonicalText messages).toList.splitOn '\n' = (messages.map messageLines).flatten := by
  have joined := Lib.splitJoined '\n' (messages.map (fun m => (messageText m).toList)) (by simpa using some)
  rw [List.map_map] at joined
  rw [canonicalText, String.toList_intercalate, List.map_map]
  exact joined

theorem sameCanonicalIff {messages others : List ChatMessage} (some : messages ≠ []) (some' : others ≠ []) :
    canonicalText messages = canonicalText others ↔ (messages.map messageLines).flatten = (others.map messageLines).flatten := by
  rw [← canonicalLines some, ← canonicalLines some']
  constructor
  · exact fun same => by rw [same]
  · intro same
    have joined := congrArg (['\n'].intercalate ·) same
    simp only [List.intercalate_splitOn] at joined
    exact String.toList_inj.mp joined

variable {R : Type}

variable (R) in
-- what `_render` makes of some sources and some placed memories
def Renderable (messages : List ChatMessage) : Prop :=
  ∃ (sources : ContextSources R) (placed : List (Ranked R)), messages = render sources placed

theorem renderableIff {messages : List ChatMessage} :
    Renderable R messages ↔ ∃ front content, messages = front ++ [⟨.user, content⟩] := by
  constructor
  · rintro ⟨sources, placed, rfl⟩
    exact ⟨_, sources.latestUserTurn, rfl⟩
  · rintro ⟨front, content, rfl⟩
    refine ⟨⟨"", content, [], front.map (fun m => ⟨m.role, m.content⟩)⟩, [], ?_⟩
    rw [render, List.map_map]
    exact congrArg (· ++ _) (List.map_id front).symm

theorem renderableSome {messages : List ChatMessage} (rendered : Renderable R messages) : messages ≠ [] := by
  obtain ⟨front, content, rfl⟩ := renderableIff.mp rendered
  simp

theorem renderedReading {messages : List ChatMessage} (rendered : Renderable R messages) :
    Reading readsHeader (readsAs .user) (messages.map messageLines).flatten (messages.map messageLines) := by
  obtain ⟨front, content, rfl⟩ := renderableIff.mp rendered
  refine ⟨rfl, ?_, front.map messageLines, messageLines ⟨.user, content⟩, by simp, messageOpened ⟨.user, content⟩⟩
  intro block member
  obtain ⟨m, _, rfl⟩ := List.mem_map.mp member
  exact openedHeader (messageOpened m)

theorem readingRendered {l : List (List Char)} {blocks : List (List (List Char))} (unbroken : ∀ line ∈ l, '\n' ∉ line)
    (reading : Reading readsHeader (readsAs .user) l blocks) :
    ∃ messages, Renderable R messages ∧ messages.map messageLines = blocks := by
  have inBlocks : ∀ block ∈ blocks, ∀ line ∈ block, '\n' ∉ line := fun block member line inside =>
    unbroken line (reading.flatten ▸ List.mem_flatten_of_mem member inside)
  obtain ⟨init, last, rfl, ended⟩ := reading.ended
  obtain ⟨content, lastLines⟩ := messageOf (inBlocks last (by simp)) ended
  have each : ∀ block ∈ init, ∃ m, messageLines m = block := by
    intro block member
    obtain ⟨x, rest, rfl, first⟩ := reading.opened block (List.mem_append_left _ member)
    obtain ⟨role, own⟩ := readsHeaderIff.mp first
    obtain ⟨text, lines⟩ := messageOf (inBlocks _ (List.mem_append_left _ member)) ⟨x, rest, rfl, own⟩
    exact ⟨⟨role, text⟩, lines⟩
  obtain ⟨front, rfl⟩ : init ∈ Set.range (List.map messageLines) := by
    rw [Set.range_list_map]
    exact each
  exact ⟨front ++ [⟨.user, content⟩], renderableIff.mpr ⟨front, content, rfl⟩, by simp [lastLines]⟩

/-- One message, or two, and no later line that could be the header of the last one, nor
before it of any message. -/
def Unforged : List ChatMessage → Prop
  | [last] => ∀ line ∈ laterLines last, readsAs .user line = false
  | [first, last] =>
    first.role ≠ .user ∧ (∀ line ∈ laterLines first, readsHeader line = false) ∧
      ∀ line ∈ laterLines last, readsAs .user line = false
  | _ => False

theorem headersCounted (front : List ChatMessage) :
    front.length ≤ ((front.map messageLines).flatten.filter readsHeader).length := by
  have opened : ∀ block ∈ front.map messageLines, OpenedBy readsHeader block := fun block member => by
    obtain ⟨m, _, rfl⟩ := List.mem_map.mp member
    exact openedHeader (messageOpened m)
  simpa using Lib.openersCounted opened

theorem unforgedOf {front : List ChatMessage} {content : String}
    (one : OneFinal readsHeader (readsAs .user) (List.map messageLines (front ++ [⟨.user, content⟩])).flatten) :
    Unforged (front ++ [⟨.user, content⟩]) := by
  obtain ⟨before, y, back, split, _, few, early, late⟩ := one
  obtain ⟨x, lastLines⟩ := messageLinesHead ⟨.user, content⟩
  simp only [List.map_append, List.map_cons, List.map_nil, List.flatten_append, List.flatten_singleton, lastLines] at split
  obtain ⟨same, rfl, rfl⟩ := Lib.onlySplit early late (by simp [readsOwn]) split.symm
  rw [← same] at few early
  match front, few, early with
  | [], _, _ => exact late
  | [first], few, early =>
    obtain ⟨z, firstLines⟩ := messageLinesHead first
    have opener : readsHeader (messageHeader first.role ++ z) := readsHeaderIff.mpr ⟨first.role, by simp [readsOwn]⟩
    simp only [List.map_cons, List.map_nil, List.flatten_singleton, firstLines, List.filter_cons, opener, if_true,
      List.length_cons, List.forall_mem_cons, readsOwn, decide_eq_false_iff_not] at few early
    refine ⟨early.1, fun line member => ?_, late⟩
    have none : (laterLines first).filter readsHeader = [] := List.length_eq_zero_iff.mp (by omega)
    simpa using List.filter_eq_nil_iff.mp none line member
  | first :: second :: rest, few, _ =>
    have counted := (headersCounted (first :: second :: rest)).trans few
    simp only [List.length_cons] at counted
    omega

theorem oneFinalOf {front : List ChatMessage} {content : String} (unforged : Unforged (front ++ [⟨.user, content⟩])) :
    OneFinal readsHeader (readsAs .user) (List.map messageLines (front ++ [⟨.user, content⟩])).flatten := by
  obtain ⟨x, lastLines⟩ := messageLinesHead ⟨.user, content⟩
  have own : readsAs .user (messageHeader .user ++ x) := by simp [readsOwn]
  match front, unforged with
  | [], late => exact ⟨[], _, _, by simp [lastLines], own, by simp, by simp, late⟩
  | [first], ⟨other, plain, late⟩ =>
    obtain ⟨z, firstLines⟩ := messageLinesHead first
    have few : (laterLines first).filter readsHeader = [] := List.filter_eq_nil_iff.mpr (by simpa using plain)
    refine ⟨messageLines first, _, _, by simp [lastLines], own, ?_, ?_, late⟩
    · rw [firstLines, List.filter_cons]
      split <;> simp [few]
    · rw [firstLines, List.forall_mem_cons, readsOwn]
      refine ⟨by simpa using other, fun line member => ?_⟩
      by_contra reads
      rw [Bool.not_eq_false] at reads
      have header := readsHeaderIff.mpr ⟨.user, reads⟩
      simp [plain line member] at header
  | _ :: _ :: rest, unforged => cases rest <;> simp [Unforged] at unforged

/-! ### The hash, replay and diff -/

section Identified
variable [Builtins]

def Records (b : ContextBundle R) (messages : List ChatMessage) : Prop :=
  b.renderedMessages = Pipeline.bundleMessages messages ∧ b.promptHash = renderPromptHash messages

variable (R) in
def ToldByHash (messages : List ChatMessage) : Prop :=
  ∀ other, Renderable R other → renderPromptHash other = renderPromptHash messages → other = messages

theorem toldIff (collisionFree : Function.Injective Builtins.sha256) {messages : List ChatMessage}
    (rendered : Renderable R messages) : ToldByHash R messages ↔ Unforged messages := by
  have lines : ∀ other, Renderable R other → (renderPromptHash other = renderPromptHash messages ↔
      (other.map messageLines).flatten = (messages.map messageLines).flatten) := fun other rendered' => by
    rw [hashCanonical, hashCanonical, collisionFree.eq_iff, sameCanonicalIff (renderableSome rendered') (renderableSome rendered)]
  have reading := renderedReading rendered
  constructor
  · intro told
    obtain ⟨front, content, rfl⟩ := renderableIff.mp rendered
    refine unforgedOf (Lib.onlyReading (fun line reads => readsHeaderIff.mpr ⟨.user, reads⟩) reading fun blocks again => ?_)
    have unbroken : ∀ line ∈ (List.map messageLines (front ++ [⟨.user, content⟩])).flatten, '\n' ∉ line := by
      rw [← canonicalLines (by simp)]
      exact Lib.splitPieces '\n' _
    obtain ⟨other, rendered', rfl⟩ := readingRendered (R := R) unbroken again
    rw [told other rendered' ((lines other rendered').mpr again.flatten)]
  · intro unforged other rendered' same
    obtain ⟨front, content, rfl⟩ := renderableIff.mp rendered
    have again := renderedReading rendered'
    rw [(lines other rendered').mp same] at again
    exact messageLinesInjective.list_map (Lib.readingUnique (oneFinalOf unforged) reading again)

variable [PyFloat R]

theorem replayRebuilds {d : ReplayDebugger R} {store : InMemoryBundleStore R} {ctx traceId mode b result}
    (stored : store.get ctx traceId = some b) (replayed : d.replay store ctx traceId mode = .ok (some result)) :
    ∃ out, d.reassemble b.payload = .ok out ∧ Renderable R out.messages ∧
      result.promptEqual = (renderPromptHash out.messages == b.promptHash) := by
  simp only [ReplayDebugger.replay, stored] at replayed
  obtain ⟨out, assembled, replayed⟩ := Lib.bindOk.mp replayed
  cases Lib.pureOk.mp replayed
  obtain ⟨packing, spec⟩ := assembleOk assembled
  exact ⟨out, assembled, ⟨_, _, spec.messages⟩, rfl⟩

variable (R) in
structure IdentifiesPrompt (messages : List ChatMessage) : Prop where
  told : ToldByHash R messages
  replayed : ∀ (d : ReplayDebugger R) store ctx traceId mode b result, store.get ctx traceId = some b → Records b messages →
    d.replay store ctx traceId mode = .ok (some result) → result.promptEqual →
      ∃ out, d.reassemble b.payload = .ok out ∧ out.messages = messages
  unchanged : ∀ (a b : ContextBundle R) other, Records a messages → Records b other → Renderable R other →
    (diffBundles a b).promptChanged = false →
      a.renderedMessages = b.renderedMessages ∧ (diffBundles a b).promptA = (diffBundles a b).promptB

theorem identifiesIff (collisionFree : Function.Injective Builtins.sha256) {messages : List ChatMessage}
    (rendered : Renderable R messages) : IdentifiesPrompt R messages ↔ Unforged messages := by
  constructor
  · exact fun identifies => (toldIff collisionFree rendered).mp identifies.told
  · intro unforged
    have told := (toldIff collisionFree rendered).mpr unforged
    refine ⟨told, fun d store ctx traceId mode b result stored records replayed equal => ?_,
      fun a b other first second rendered' same => ?_⟩
    · obtain ⟨out, assembled, rebuilt, verdict⟩ := replayRebuilds stored replayed
      rw [verdict, beq_iff_eq, records.2] at equal
      exact ⟨out, assembled, told out.messages rebuilt equal⟩
    · have hashes : a.promptHash = b.promptHash := by simpa [diffBundles] using same
      rw [first.2, second.2] at hashes
      have equal := told other rendered' hashes.symm
      have messages : a.renderedMessages = b.renderedMessages := by rw [first.1, second.1, equal]
      exact ⟨messages, by simp only [diffBundles, renderBundle, messages]⟩

end Identified

def promptDigests : List (String × String) :=
  [("system\x1fBe brief.\nStay polite.\nuser\x1fHi", "a13d0e943581c2fb2b333754208b906e346c4c7e8d14d5e8dc497f84ae7e2622"),
   ("system\x1fBe brief.\nsystem\x1fRelevant context:\n- Blue.\nuser\x1fHi",
    "3c2a3352f6b0fb6292faabf5f0c4ac9911110df13d1402ebbefb9353d41e4586")]

theorem identifiesSample :
    letI := asciiBuiltins promptDigests []
    IdentifiesPrompt ℚ [⟨.system, "Be brief.\nStay polite."⟩, ⟨.user, "Hi"⟩] ↔
      Unforged [⟨.system, "Be brief.\nStay polite."⟩, ⟨.user, "Hi"⟩] :=
  letI := asciiBuiltins promptDigests []
  identifiesIff (asciiCollisionFree (by decide) (by decide)) ⟨⟨"Be brief.\nStay polite.", "Hi", [], []⟩, [], rfl⟩

theorem promptsCollide :
    letI := asciiBuiltins promptDigests []
    let remembered := render ⟨"Be brief.", "Hi", [], []⟩ [(sampleCandidate "memory-1" "Blue." (1 / 2), 1)]
    let forged := render ⟨"Be brief.\nsystem\x1fRelevant context:\n- Blue.", "Hi", [], []⟩ ([] : List (Ranked ℚ))
    Function.Injective Builtins.sha256 ∧ renderPromptHash remembered = renderPromptHash forged ∧ remembered ≠ forged :=
  letI := asciiBuiltins promptDigests []
  ⟨asciiCollisionFree (by decide) (by decide), by decide +kernel, by decide +kernel⟩

end ContextOS
