import ContextOS.CompressedFacts

/-! Numbers of a compressed text. A number is read as far as it goes; no character outside
it can be in it, so a text has the numbers of its parts on both sides of such a character.
The splitter takes the point of a decimal for the end of a sentence. -/
namespace ContextOS
open Lib (runs runsFrom)

variable [Builtins]

inductive NumberLiteral : List Char → Prop
  | whole {digits : List Char} (some : digits ≠ []) (all : ∀ c ∈ digits, Builtins.isDigit c) : NumberLiteral digits
  | decimal {digits fraction : List Char} (some : digits ≠ []) (all : ∀ c ∈ digits, Builtins.isDigit c)
      (some' : fraction ≠ []) (all' : ∀ c ∈ fraction, Builtins.isDigit c) : NumberLiteral (digits ++ '.' :: fraction)

/-- The number stands between `front` and `back`, and no longer one stands around it. -/
structure NumberAt (front number back : List Char) : Prop where
  literal : NumberLiteral number
  maximal : ∀ front' before after back', front = front' ++ before → back = after ++ back' →
    NumberLiteral (before ++ number ++ after) → before = [] ∧ after = []

def NumberIn (text number : List Char) : Prop := ∃ front back, text = front ++ number ++ back ∧ NumberAt front number back

def WholeNumbers (text result : String) : Prop := ∀ number, NumberIn result.toList number → NumberIn text.toList number

def numeric (c : Char) : Prop := Builtins.isDigit c ∨ c = '.'

def DigitsUnbroken : Prop := ∀ c, isSpace c ∨ isTerminator c → Builtins.isDigit c = false

theorem literalNumeric {number : List Char} (literal : NumberLiteral number) : number ≠ [] ∧ ∀ c ∈ number, numeric c := by
  cases literal with
  | whole some all => exact ⟨some, fun c member => .inl (all c member)⟩
  | decimal some all some' all' =>
    refine ⟨by simp, fun c member => ?_⟩
    rcases List.mem_append.mp member with inWhole | rest
    · exact .inl (all c inWhole)
    · rcases List.mem_cons.mp rest with rfl | inFraction
      · exact .inr rfl
      · exact .inl (all' c inFraction)

theorem numberSome {number : List Char} (there : NumberIn [] number) : False := by
  obtain ⟨front, back, split, at'⟩ := there
  have empty : number = [] := by
    have none := (List.append_eq_nil_iff.mp (List.append_eq_nil_iff.mp split.symm).1).2
    exact none
  exact (literalNumeric at'.literal).1 empty

theorem numberWhole {digits : List Char} (some : digits ≠ []) (all : ∀ c ∈ digits, Builtins.isDigit c) : NumberIn digits digits := by
  refine ⟨[], [], by simp, .whole some all, fun front' before after back' none none' _ => ?_⟩
  exact ⟨(List.append_eq_nil_iff.mp none.symm).2, (List.append_eq_nil_iff.mp none'.symm).1⟩

section Separated
variable {c : Char} {number xs ys : List Char} (outside : ¬ numeric c)
include outside

theorem numberLeft (there : NumberIn xs number) : NumberIn (xs ++ c :: ys) number := by
  obtain ⟨front, back, rfl, at'⟩ := there
  refine ⟨front, back ++ c :: ys, by simp, at'.literal, fun front' before after back' split split' literal => ?_⟩
  rcases List.append_eq_append_iff.mp split' with ⟨middle, rfl, rest⟩ | ⟨middle, rfl, rest⟩
  · cases middle with
    | nil => exact at'.maximal front' before _ [] split (by simp) literal
    | cons d middle =>
      obtain ⟨rfl, _⟩ := List.cons.inj rest
      exact absurd ((literalNumeric literal).2 c (by simp)) outside
  · exact at'.maximal front' before after middle split rfl literal

theorem numberRight (there : NumberIn ys number) : NumberIn (xs ++ c :: ys) number := by
  obtain ⟨front, back, rfl, at'⟩ := there
  refine ⟨xs ++ c :: front, back, by simp, at'.literal, fun front' before after back' split split' literal => ?_⟩
  rcases List.append_eq_append_iff.mp split with ⟨middle, rfl, rest⟩ | ⟨middle, rfl, rest⟩
  · cases middle with
    | nil =>
      subst rest
      exact absurd ((literalNumeric literal).2 c (by simp)) outside
    | cons d middle =>
      obtain ⟨rfl, tail⟩ := List.cons.inj rest
      exact at'.maximal middle before after back' tail split' literal
  · have inside : c ∈ middle ++ c :: front := by simp
    exact absurd ((literalNumeric literal).2 c (by rw [rest]; simp)) outside

theorem numberSeparated : NumberIn (xs ++ c :: ys) number ↔ NumberIn xs number ∨ NumberIn ys number := by
  refine ⟨fun there => ?_, fun given => given.elim (numberLeft outside) (numberRight outside)⟩
  obtain ⟨front, back, split, at'⟩ := there
  obtain ⟨some, inner⟩ := literalNumeric at'.literal
  have absent : c ∉ number := fun member => outside (inner c member)
  rcases List.append_eq_append_iff.mp split with ⟨middle, joined, rest⟩ | ⟨middle, rfl, rfl⟩
  · cases middle with
    | nil =>
      refine .inl ⟨front, [], by simpa using joined.symm, at'.literal, fun front' before after back' before' after' literal => ?_⟩
      have none : after = [] := (List.append_eq_nil_iff.mp after'.symm).1
      subst none
      exact at'.maximal front' before [] back before' rfl literal
    | cons d middle =>
      obtain ⟨rfl, tail⟩ := List.cons.inj rest
      -- the symbol is before the number, since the number does not have it
      rcases List.append_eq_append_iff.mp joined with ⟨inner, rfl, rest⟩ | ⟨inner, rfl, rest⟩
      · exact absurd (by rw [rest]; simp) absent
      · cases inner with
        | nil => exact absurd (by rw [← show c :: middle = number from rest]; simp) absent
        | cons d inner =>
          obtain ⟨rfl, behind⟩ := List.cons.inj rest
          have split : ys = inner ++ number ++ back := by rw [tail, behind]; rfl
          refine .inr ⟨inner, back, split, at'.literal, fun front' before after back' before' after' literal => ?_⟩
          exact at'.maximal (xs ++ c :: front') before after back' (by rw [before']; simp) after' literal
  · refine .inl ⟨front, middle, rfl, at'.literal, fun front' before after back' before' after' literal => ?_⟩
    exact at'.maximal front' before after (back' ++ c :: ys) before' (by rw [after']; simp) literal

end Separated
section Parts
variable {number : List Char}

variable (number) in
theorem numberRuns {p : Char → Bool} (outside : ∀ c, p c = false → ¬ numeric c) (cur xs : List Char) :
    NumberIn (cur.reverse ++ xs) number ↔ ∃ run ∈ runsFrom p cur xs, NumberIn run number := by
  induction xs generalizing cur with
  | nil =>
    rw [runsFrom, List.append_nil]
    split
    · rename_i empty
      rw [List.isEmpty_iff.mp empty]
      exact iff_of_false numberSome (by simp)
    · simp
  | cons c rest ih =>
    have onward := ih []
    rw [List.reverse_nil, List.nil_append] at onward
    rw [runsFrom]
    split
    · rw [← ih (c :: cur), List.reverse_cons, List.append_assoc, List.singleton_append]
    · rename_i excluded
      rw [numberSeparated (outside c (by simpa using excluded)), onward]
      split
      · rename_i empty
        rw [List.isEmpty_iff.mp empty]
        exact or_iff_right numberSome
      · simp

variable (unbroken : DigitsUnbroken)
include unbroken

theorem spaceOutside {c : Char} (space : isSpace c) : ¬ numeric c := by
  rintro (digit | rfl)
  · simp [unbroken c (.inl space)] at digit
  · revert space
    decide

theorem structuralNumbers (text : String) : NumberIn (structural text).toList number ↔ NumberIn text.toList number := by
  have outside : ∀ c, (!isSpace c) = false → ¬ numeric c := fun c space => spaceOutside unbroken (by simpa using space)
  have spaces : ∀ c, isSpace c → Separates (fun c => !isSpace c) (fun c => [c]) c := fun c space => ⟨rfl, by simp [space]⟩
  have same := structuralRuns spaces text
  simp only [List.flatMap_singleton'] at same
  have squeezed := numberRuns number outside [] (structural text).toList
  have whole := numberRuns number outside [] text.toList
  rw [List.reverse_nil, List.nil_append] at squeezed whole
  unfold runs at same
  rw [squeezed, whole, same]

theorem joinedNumbers (ss : List String) : NumberIn (" ".intercalate ss).toList number ↔ ∃ s ∈ ss, NumberIn s.toList number := by
  induction ss with
  | nil => exact iff_of_false numberSome (by simp)
  | cons s rest ih =>
    cases rest with
    | nil => simp
    | cons next rest =>
      have cut : (" ".intercalate (s :: next :: rest)).toList = s.toList ++ ' ' :: (" ".intercalate (next :: rest)).toList := by
        rw [String.intercalate_cons_cons, String.toList_append, String.toList_append, List.append_assoc]
        rfl
      rw [cut, numberSeparated (spaceOutside unbroken (c := ' ') (by decide)), ih]
      simp

end Parts

def OpensWith (s digits : List Char) : Prop :=
  digits ≠ [] ∧ (∀ c ∈ digits, Builtins.isDigit c) ∧ ∃ back, s = digits ++ back ∧ ∀ c, back.head? = some c → Builtins.isDigit c = false

def ClosesWith (s digits : List Char) : Prop :=
  digits ≠ [] ∧ (∀ c ∈ digits, Builtins.isDigit c) ∧
    ∃ front, s = front ++ digits ++ ['.'] ∧ ∀ c, front.getLast? = some c → Builtins.isDigit c = false

-- in a sentence the point can only be the last character, so there are no decimals in it
theorem sentenceLiteral {s front number back : List Char} (inner : ∀ c ∈ s.dropLast, isTerminator c = false)
    (split : s = front ++ number ++ back) (literal : NumberLiteral number) : ∀ c ∈ number, Builtins.isDigit c := by
  cases literal with
  | whole some all => exact all
  | @decimal digits fraction some all some' all' =>
    obtain ⟨first, rest, rfl⟩ := List.exists_cons_of_ne_nil some'
    have point := inner '.' (by
      rw [split, List.append_assoc, List.dropLast_append_of_ne_nil (by simp), List.append_assoc,
        List.dropLast_append_of_ne_nil (by simp), List.cons_append, List.cons_append,
        List.dropLast_cons_of_ne_nil (by simp)]
      simp)
    contradiction

theorem digitsAt {s front digits back : List Char} (inner : ∀ c ∈ s.dropLast, isTerminator c = false)
    (split : s = front ++ digits ++ back) (some : digits ≠ []) (all : ∀ c ∈ digits, Builtins.isDigit c)
    (before : ∀ c, front.getLast? = .some c → Builtins.isDigit c = false)
    (after : ∀ c, back.head? = .some c → Builtins.isDigit c = false) : NumberAt front digits back := by
  refine ⟨.whole some all, fun front' more more' back' split' split'' literal => ?_⟩
  have longer : s = front' ++ (more ++ digits ++ more') ++ back' := by
    rw [split, split', split'']
    simp
  have digit := sentenceLiteral inner longer literal
  constructor
  · rcases List.eq_nil_or_concat more with none | ⟨init, c, rfl⟩
    · exact none
    · have last := before c (by rw [split']; simp)
      simp [digit c (by simp)] at last
  · cases more' with
    | nil => rfl
    | cons c rest =>
      have first := after c (by rw [split'']; rfl)
      simp [digit c (by simp)] at first

theorem opensNumber {s digits : List Char} (inner : ∀ c ∈ s.dropLast, isTerminator c = false) (opens : OpensWith s digits) :
    NumberIn s digits := by
  obtain ⟨some, all, back, split, after⟩ := opens
  exact ⟨[], back, split, digitsAt inner split some all (by simp) after⟩

theorem closesNumber (unbroken : DigitsUnbroken) {s digits : List Char} (inner : ∀ c ∈ s.dropLast, isTerminator c = false) (closes : ClosesWith s digits) :
    NumberIn s digits := by
  obtain ⟨some, all, front, split, before⟩ := closes
  refine ⟨front, ['.'], split, digitsAt inner split some all before fun c first => ?_⟩
  cases Option.some.inj first
  exact unbroken '.' (.inr rfl)

theorem numberAlone {front number back : List Char} (at' : NumberAt front number back) (all : ∀ c ∈ number, Builtins.isDigit c) :
    (∀ c, front.getLast? = some c → Builtins.isDigit c = false) ∧ ∀ c, back.head? = some c → Builtins.isDigit c = false := by
  have some := (literalNumeric at'.literal).1
  constructor
  · intro c last
    by_contra digit
    obtain ⟨init, rfl⟩ := List.getLast?_eq_some_iff.mp last
    have longer : NumberLiteral ([c] ++ number ++ []) := .whole (by simp) (by simpa using ⟨by simpa using digit, all⟩)
    have none := (at'.maximal init [c] [] back rfl rfl longer).1
    contradiction
  · intro c first
    by_contra digit
    obtain ⟨rest, rfl⟩ := List.head?_eq_some_iff.mp first
    have longer : NumberLiteral ([] ++ number ++ [c]) := .whole (by simp) (by
      intro d member
      rcases List.mem_append.mp member with inside | here
      · exact all d inside
      · rw [List.mem_singleton.mp here]
        simpa using digit)
    have none := (at'.maximal front [] [c] rest (by simp) rfl longer).2
    contradiction

theorem beforeDigits {s front digits back : List Char} {x : Char} (inner : ∀ c ∈ s.dropLast, isTerminator c = false)
    (split : s = front ++ x :: digits ++ back) (some : digits ≠ []) (noDigit : Builtins.isDigit x = false) : ¬ numeric x := by
  rintro (digit | rfl)
  · simp [noDigit] at digit
  · have point := inner '.' (by
      rw [split, List.append_assoc, List.dropLast_append_of_ne_nil (by simp), List.cons_append,
        List.dropLast_cons_of_ne_nil (by simp [some])]
      simp)
    contradiction

theorem afterDigits {s front back : List Char} {y : Char} (inner : ∀ c ∈ s.dropLast, isTerminator c = false)
    (split : s = front ++ y :: back) (some : back ≠ []) (noDigit : Builtins.isDigit y = false) : ¬ numeric y := by
  rintro (digit | rfl)
  · simp [noDigit] at digit
  · have point := inner '.' (by
      rw [split, List.dropLast_append_of_ne_nil (by simp), List.dropLast_cons_of_ne_nil some]
      simp)
    contradiction

theorem lastDigits (unbroken : DigitsUnbroken) {text s front back init digits : List Char} (stands : StandsIn text s front back)
    (split : s = init ++ digits) (some : digits ≠ []) (all : ∀ c ∈ digits, Builtins.isDigit c) : NumberIn (digits ++ back) digits := by
  have own : NumberIn digits digits := numberWhole some all
  rcases stands.tail with ⟨start, stop, closed, ends⟩ | ⟨_, blank⟩
  · obtain ⟨early, last, rfl⟩ := (List.eq_nil_or_concat digits).resolve_left some
    have ended : (init ++ early) ++ [last] = start ++ [stop] := by
      rw [← closed, split]
      simp
    have same : last = stop := List.singleton_inj.mp (List.append_inj' ended rfl).2
    have digit := all last (by simp)
    rw [same, unbroken stop (.inr ends)] at digit
    contradiction
  · cases back with
    | nil => simpa using own
    | cons c back => exact numberLeft (spaceOutside unbroken (blank c List.mem_cons_self)) own

-- away from its ends a sentence has the numbers of the text
theorem sentenceNumber (unbroken : DigitsUnbroken) {text s front back number : List Char} (stands : StandsIn text s front back) (there : NumberIn s number) :
    OpensWith s number ∨ ClosesWith s number ∨ NumberIn text number := by
  obtain ⟨before, after, split, at'⟩ := there
  have all := sentenceLiteral stands.inner split at'.literal
  have some := (literalNumeric at'.literal).1
  obtain ⟨noneBefore, noneAfter⟩ := numberAlone at' all
  rcases List.eq_nil_or_concat before with rfl | ⟨init, x, rfl⟩
  · exact .inl ⟨some, all, after, split, noneAfter⟩
  · rw [List.concat_eq_append] at split noneBefore
    have cut : s = init ++ x :: number ++ after := by simpa using split
    have plainBefore := beforeDigits stands.inner cut some (noneBefore x (by simp))
    have placed : NumberIn (number ++ (after ++ back)) number → NumberIn text number := fun behind => by
      have cut : text = (front ++ init) ++ x :: (number ++ (after ++ back)) := by rw [stands.split, split]; simp
      rw [cut]
      exact numberRight plainBefore behind
    cases after with
    | nil =>
      rw [List.append_nil] at split
      exact .inr (.inr (placed (lastDigits unbroken stands split some all)))
    | cons y after =>
      by_cases closing : y = '.' ∧ after = []
      · obtain ⟨rfl, rfl⟩ := closing
        exact .inr (.inl ⟨some, all, init ++ [x], split, noneBefore⟩)
      · refine .inr (.inr (placed (numberLeft ?_ (numberWhole some all))))
        by_cases last : after = []
        · rintro (digit | point)
          · simp [noneAfter y rfl] at digit
          · exact closing ⟨point, last⟩
        · exact afterDigits stands.inner split last (noneAfter y rfl)

/-- Whatever edge of a kept sentence was cut off in the middle of a decimal stands alone in the text as well. -/
def EdgesStandAlone (text : String) (kept : List String) : Prop :=
  ∀ s ∈ kept, ∀ digits, OpensWith s.toList digits ∨ ClosesWith s.toList digits → NumberIn text.toList digits

-- either nothing was cut, or the cuts left no half of a decimal
def DecimalsWhole (text : String) (targetTokens : Int) (tokenizer : Tokenizer) (query : Option String)
    (llm : Option (ChatRequest → Except String ChatResponse)) : Prop :=
  let structured := structural text
  tokenizer.count structured ≤ targetTokens ∨
    factRetentionOk text (extractive structured targetTokens tokenizer query) = false ∨
    match acceptedReply text targetTokens tokenizer query llm with
    | some summary => WholeNumbers text summary
    | none => EdgesStandAlone text (keptSentences structured targetTokens tokenizer query)

theorem extractiveNumbers (unbroken : DigitsUnbroken) (text : String) (targetTokens : Int) (tokenizer : Tokenizer) (query : Option String) :
    WholeNumbers text (extractive (structural text) targetTokens tokenizer query) ↔
      EdgesStandAlone text (keptSentences (structural text) targetTokens tokenizer query) := by
  have inside := (keptSublist (structural text) targetTokens tokenizer query).subset
  by_cases some : sentences (structural text) = []
  · rw [extractiveEmpty some]
    rw [some] at inside
    refine iff_of_true (fun number there => (structuralNumbers unbroken text).mp there) fun s kept => ?_
    simpa using inside kept
  · rw [extractiveKept some]
    constructor
    · intro whole s kept digits edge
      obtain ⟨_, front, back, stands⟩ := sentenceStands (inside kept)
      refine whole digits ((joinedNumbers unbroken _).mpr ⟨s, kept, ?_⟩)
      exact edge.elim (opensNumber stands.inner) (closesNumber unbroken stands.inner)
    · intro edges number there
      obtain ⟨s, kept, here⟩ := (joinedNumbers unbroken _).mp there
      obtain ⟨_, front, back, stands⟩ := sentenceStands (inside kept)
      rcases sentenceNumber unbroken stands here with opens | closes | within
      · exact edges s kept number (.inl opens)
      · exact edges s kept number (.inr closes)
      · exact (structuralNumbers unbroken text).mp within

theorem wholeNumbersIff (unbroken : DigitsUnbroken) (text : String) (targetTokens : Int) (tokenizer : Tokenizer) (query : Option String)
    (llm : Option (ChatRequest → Except String ChatResponse)) :
    WholeNumbers text (compress text targetTokens tokenizer query llm).text ↔ DecimalsWhole text targetTokens tokenizer query llm := by
  rw [(compressReturned text targetTokens tokenizer query llm).returned]
  have lossless : WholeNumbers text (structural text) := fun number there => (structuralNumbers unbroken text).mp there
  simp only [returnedText, DecimalsWhole]
  by_cases fits : tokenizer.count (structural text) ≤ targetTokens
  · simp [fits, lossless]
  · cases passed : factRetentionOk text (extractive (structural text) targetTokens tokenizer query) with
    | false => simp [fits, lossless]
    | true =>
      simp only [fits, if_false, Bool.not_true, Bool.false_eq_true, false_or, Bool.true_eq_false]
      cases acceptedReply text targetTokens tokenizer query llm with
      | none =>
        rw [Option.getD_none]
        exact extractiveNumbers unbroken text targetTokens tokenizer query
      | some summary => rw [Option.getD_some]

omit [Builtins] in
theorem asciiDigits : letI := asciiBuiltins [] []
    DigitsUnbroken := by
  let _ := asciiBuiltins [] []
  intro c separator
  have outside := (separatorCode separator).1
  show (decide ('0'.val ≤ c.val) && decide (c.val ≤ '9'.val)) = false
  simpa [UInt32.le_iff_toNat_le] using outside

omit [Builtins] in
theorem halfAbsent : letI := asciiBuiltins [] []
    ¬ NumberIn "3.14 is pi.".toList ['3'] := by
  let _ := asciiBuiltins [] []
  rintro ⟨front, back, split, at'⟩
  have chars : "3.14 is pi.".toList = ['3', '.', '1', '4', ' ', 'i', 's', ' ', 'p', 'i', '.'] := by rfl
  rw [chars, List.append_assoc] at split
  cases front with
  | nil =>
    have rest : back = ['.', '1', '4'] ++ [' ', 'i', 's', ' ', 'p', 'i', '.'] := (List.cons.inj split).2.symm
    have digits : ∀ c ∈ ['3'], Builtins.isDigit c := List.forall_mem_singleton.mpr rfl
    have fraction : ∀ c ∈ ['1', '4'], Builtins.isDigit c := List.forall_mem_cons.mpr ⟨rfl, List.forall_mem_singleton.mpr rfl⟩
    have longer : NumberLiteral ([] ++ ['3'] ++ ['.', '1', '4']) := .decimal (by simp) digits (by simp) fraction
    have none := (at'.maximal [] [] _ _ rfl rest longer).2
    contradiction
  | cons c front =>
    have again : '3' ∈ ['.', '1', '4', ' ', 'i', 's', ' ', 'p', 'i', '.'] := by
      rw [(List.cons.inj split).2]
      simp
    revert again
    decide

omit [Builtins] in
theorem decimalCut : letI := asciiBuiltins [] []
    let block := compress "3.14 is pi." 1 HeuristicTokenizer.default.toTokenizer none none
    block.text = "3." ∧ ¬ WholeNumbers "3.14 is pi." block.text := by
  intro block
  have cut : block.text = "3." := by decide +kernel
  refine ⟨cut, fun whole => ?_⟩
  rw [cut] at whole
  let _ := asciiBuiltins [] []
  have inner : ∀ c ∈ ['3'], isTerminator c = false := List.forall_mem_singleton.mpr rfl
  have digits : ∀ c ∈ ['3'], Builtins.isDigit c := List.forall_mem_singleton.mpr rfl
  have opens : OpensWith "3.".toList ['3'] := ⟨by simp, digits, ['.'], rfl, fun c first => by cases Option.some.inj first; rfl⟩
  exact halfAbsent (whole ['3'] (opensNumber inner opens))

omit [Builtins] in
theorem wholeNumbersSample : letI := asciiBuiltins [] []
    DigitsUnbroken ∧ (WholeNumbers "It is 1.5 now. Or 2." (compress "It is 1.5 now. Or 2." 2 HeuristicTokenizer.default.toTokenizer none none).text ↔
      DecimalsWhole "It is 1.5 now. Or 2." 2 HeuristicTokenizer.default.toTokenizer none none) := by
  let _ := asciiBuiltins [] []
  exact ⟨asciiDigits, wholeNumbersIff asciiDigits _ _ _ _ _⟩

end ContextOS
