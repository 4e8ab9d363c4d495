import ContextOS.Executable
import ContextOS.Sentences

/-! No new facts. The guard reads a text as runs of word characters and hyphens in lower
case; whitespace and sentence ends are in none, so squeezing, cutting and joining leave the
runs whole. What a backend writes instead has passed the guard. -/
namespace ContextOS
open Lib (runs)

variable [Builtins]

/-- `str.lower` character by character, with whitespace and sentence ends left as they are. -/
structure LowersByChar (f : Char → List Char) : Prop where
  lower : ∀ text, (Builtins.lower text).toList = text.toList.flatMap f
  separator : ∀ c, isSpace c ∨ isTerminator c → f c = [c]

/-- No whitespace and no sentence end is a word character. -/
def WordsUnbroken : Prop := ∀ c, isSpace c ∨ isTerminator c → Builtins.isWord c = false

structure NoNewFacts (text : String) (targetTokens : Int) (tokenizer : Tokenizer) (query : Option String)
    (llm : Option (ChatRequest → Except String ChatResponse)) : Prop where
  facts : ∀ fact ∈ facts (compress text targetTokens tokenizer query llm).text, fact ∈ facts text
  extractive : factRetentionOk text (extractive (structural text) targetTokens tokenizer query)
  guardPassed : (compress text targetTokens tokenizer query llm).guardPassed

section Facts
variable {f : Char → List Char} (lowers : LowersByChar f) (unbroken : WordsUnbroken)

def factChar (c : Char) : Bool := Builtins.isWord c || c == '-'

include unbroken in
theorem factSeparates (lowers : LowersByChar f) {c : Char} (separator : isSpace c ∨ isTerminator c) : Separates factChar f c := by
  have hyphen : c ≠ '-' := by
    rintro rfl
    revert separator
    decide
  exact ⟨lowers.separator c separator, by simp [factChar, unbroken c separator, hyphen]⟩

include lowers

theorem factRuns (text : String) : facts text = ((runs factChar (text.toList.flatMap f)).map String.ofList).filter
    (fun tok => tok.toList.any Builtins.isDigit) := by
  rw [facts, findRuns, lowers.lower]
  rfl

include unbroken

theorem structuralFacts (text : String) : facts (structural text) = facts text := by
  have spaces : ∀ c, isSpace c → Separates factChar f c := fun c space => factSeparates unbroken lowers (.inl space)
  rw [factRuns lowers, factRuns lowers, structuralRuns spaces]

theorem extractiveFacts (text : String) (targetTokens : Int) (tokenizer : Tokenizer) (query : Option String) :
    ∀ fact ∈ facts (extractive text targetTokens tokenizer query), fact ∈ facts text := by
  have spaces : ∀ c, isSpace c → Separates factChar f c := fun c space => factSeparates unbroken lowers (.inl space)
  have ends : ∀ c, isTerminator c → Separates factChar f c := fun c stop => factSeparates unbroken lowers (.inr stop)
  by_cases some : sentences text = []
  · rw [extractiveEmpty some]
    exact fun _ member => member
  · rw [extractiveKept some, factRuns lowers, factRuns lowers, joinedRuns (spaces ' ' (by decide)), ← sentencesRuns ends spaces]
    intro fact member
    obtain ⟨listed, digits⟩ := List.mem_filter.mp member
    obtain ⟨run, inside, rfl⟩ := List.mem_map.mp listed
    obtain ⟨s, kept, here⟩ := List.mem_flatMap.mp inside
    refine List.mem_filter.mpr ⟨List.mem_map.mpr ⟨run, List.mem_flatMap.mpr ⟨s, ?_, here⟩, rfl⟩, digits⟩
    exact (keptSublist _ _ _ _).subset kept

theorem extractiveRetained (text : String) (targetTokens : Int) (tokenizer : Tokenizer) (query : Option String) :
    factRetentionOk text (extractive (structural text) targetTokens tokenizer query) := by
  rw [factRetentionOk, List.all_eq_true]
  intro fact member
  have kept := extractiveFacts lowers unbroken (structural text) targetTokens tokenizer query fact member
  rw [structuralFacts lowers unbroken] at kept
  simpa using kept

theorem returnedFacts (text : String) (targetTokens : Int) (tokenizer : Tokenizer) (query : Option String)
    (llm : Option (ChatRequest → Except String ChatResponse)) :
    ∀ fact ∈ facts (returnedText text targetTokens tokenizer query llm), fact ∈ facts text := by
  have retained := extractiveRetained lowers unbroken text targetTokens tokenizer query
  unfold returnedText
  dsimp only
  split
  · rw [structuralFacts lowers unbroken]
    exact fun _ member => member
  · rw [retained, if_neg (by simp)]
    cases accepted : acceptedReply text targetTokens tokenizer query llm with
    | none =>
      rw [Option.getD_none]
      simpa [factRetentionOk] using retained
    | some summary =>
      rw [Option.getD_some]
      simpa [factRetentionOk] using acceptedFacts accepted

theorem noNewFacts (text : String) (targetTokens : Int) (tokenizer : Tokenizer) (query : Option String)
    (llm : Option (ChatRequest → Except String ChatResponse)) : NoNewFacts text targetTokens tokenizer query llm := by
  have block := compressReturned text targetTokens tokenizer query llm
  have retained := extractiveRetained lowers unbroken text targetTokens tokenizer query
  refine ⟨?_, retained, block.guarded.mpr (.inr retained)⟩
  rw [block.returned]
  exact returnedFacts lowers unbroken text targetTokens tokenizer query llm

end Facts

/-! ### ASCII -/

omit [Builtins] in
theorem separatorCode {c : Char} (separator : isSpace c ∨ isTerminator c) :
    ¬ (48 ≤ c.toNat ∧ c.toNat ≤ 57) ∧ ¬ (65 ≤ c.toNat ∧ c.toNat ≤ 90) ∧ ¬ (97 ≤ c.toNat ∧ c.toNat ≤ 122) ∧ c ≠ '_' := by
  rcases separator with space | stop
  · refine ⟨?_, ?_, ?_, fun underscore => by subst underscore; revert space; decide⟩ <;>
      (simp only [isSpace, Bool.or_eq_true, Bool.and_eq_true, decide_eq_true_eq, beq_iff_eq] at space; omega)
  · simp only [isTerminator, Bool.or_eq_true, beq_iff_eq] at stop
    rcases stop with (rfl | rfl) | rfl <;> decide

omit [Builtins] in
theorem asciiLowers : letI := asciiBuiltins [] []
    LowersByChar (fun c => [c.toLower]) := by
  let _ := asciiBuiltins [] []
  refine ⟨fun text => ?_, fun c separator => ?_⟩
  · show (String.ofList (text.toList.map Char.toLower)).toList = _
    rw [String.toList_ofList, List.map_eq_flatMap]
  · obtain ⟨_, upper, _⟩ := separatorCode separator
    have outside : ¬ (c.val ≥ 'A'.val ∧ c.val ≤ 'Z'.val) := fun given =>
      upper ⟨UInt32.le_iff_toNat_le.mp given.1, UInt32.le_iff_toNat_le.mp given.2⟩
    have kept : c.toLower = c := dif_neg outside
    rw [kept]

omit [Builtins] in
theorem asciiUnbroken : letI := asciiBuiltins [] []
    WordsUnbroken := by
  let _ := asciiBuiltins [] []
  intro c separator
  obtain ⟨digit, upper, lower, underscore⟩ := separatorCode separator
  show (c.isUpper || c.isLower || c.isDigit || c == '_') = false
  have within : ∀ low high : Char, ¬ (low.toNat ≤ c.toNat ∧ c.toNat ≤ high.toNat) → (low.val ≤ c.val && c.val ≤ high.val : Bool) = false := by
    intro low high outside
    simpa [UInt32.le_iff_toNat_le] using outside
  have noDigit : c.isDigit = false := within '0' '9' digit
  have noUpper : c.isUpper = false := decide_eq_false fun given =>
    upper ⟨UInt32.le_iff_toNat_le.mp given.1, UInt32.le_iff_toNat_le.mp given.2⟩
  have noLower : c.isLower = false := within 'a' 'z' lower
  simp [noDigit, noUpper, noLower, underscore]

omit [Builtins] in
theorem noNewFactsSample : letI := asciiBuiltins [] []
    LowersByChar (fun c => [c.toLower]) ∧ WordsUnbroken ∧
      NoNewFacts "Nodes: 12 in EU-WEST-1. None spare." 4 HeuristicTokenizer.default.toTokenizer (some "spare") none := by
  let _ := asciiBuiltins [] []
  exact ⟨asciiLowers, asciiUnbroken, noNewFacts asciiLowers asciiUnbroken _ _ _ _ _⟩

end ContextOS
