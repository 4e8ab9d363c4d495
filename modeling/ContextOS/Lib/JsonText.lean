import ContextOS.Lib.Json
import Mathlib.Data.List.TakeWhile

/-! Reading back what was written. An escape gives back the units of its character, a number
stops where a delimiter follows, and a value is read with two steps of fuel for each of its
characters; so the text determines the value. -/
namespace ContextOS.Lib.Json

theorem hexDigitValue : ∀ d < 16, hexValue (hexDigit d) = some d := by decide

theorem hex4Value {unit : Nat} (small : unit < 0x10000) :
    hexUnit (hexDigit (unit / 4096 % 16)) (hexDigit (unit / 256 % 16)) (hexDigit (unit / 16 % 16)) (hexDigit (unit % 16)) =
      some unit := by
  have digit (n : Nat) : hexValue (hexDigit (n % 16)) = some (n % 16) := hexDigitValue _ (Nat.mod_lt _ (by decide))
  simp only [hexUnit, digit, bind, Option.bind, pure]
  congr 1
  omega

theorem readEscape {unit : Nat} (small : unit < 0x10000) {rest tail : List Char} {later : List Nat}
    (read : readUnits rest = some (later, tail)) : readUnits (unicodeEscape unit ++ rest) = some (unit :: later, tail) := by
  simp only [unicodeEscape, hex4, List.cons_append, List.nil_append, readUnits, hex4Value small, read, bind, Option.bind, pure]

theorem readEscapes {list : List Nat} (small : ∀ unit ∈ list, unit < 0x10000) {rest tail : List Char} {later : List Nat}
    (read : readUnits rest = some (later, tail)) :
    readUnits (list.flatMap unicodeEscape ++ rest) = some (list ++ later, tail) := by
  induction list with
  | nil => exact read
  | cons unit list ih =>
    obtain ⟨here, more⟩ := List.forall_mem_cons.mp small
    rw [List.flatMap_cons, List.append_assoc, List.cons_append]
    exact readEscape here (ih more)

theorem unitsSmall (c : Char) : ∀ unit ∈ units c, unit < 0x10000 := by
  have valid : c.toNat < 0x110000 := by
    have := c.valid
    simp only [UInt32.isValidChar, Nat.isValidChar] at this
    change c.val.toNat < _
    omega
  intro unit member
  unfold units at member
  split at member
  · rw [List.mem_singleton.mp member]
    assumption
  · simp only [List.mem_cons, List.not_mem_nil, or_false] at member
    omega

theorem readEscaped (c : Char) {rest tail : List Char} {later : List Nat} (read : readUnits rest = some (later, tail)) :
    readUnits (escapeChar c ++ rest) = some (units c ++ later, tail) := by
  unfold escapeChar
  split
  · rename_i e found
    have listed := List.mem_of_find?_eq_some found
    have same : e.2 = c := by simpa using List.find?_some found
    subst same
    simp only [shortEscapes, List.mem_cons, List.not_mem_nil, or_false] at listed
    rcases listed with rfl | rfl | rfl | rfl | rfl | rfl | rfl <;>
      simp [readUnits, read, shortEscapes, units]
  · rename_i absent
    split
    · rename_i plain
      have code : c.toNat < 0x7f ∧ 0x20 ≤ c.toNat := ⟨Nat.lt_succ_of_le plain.2, plain.1⟩
      have quote : c ≠ '"' := fun same => by simp [same, shortEscapes] at absent
      have slash : c ≠ '\\' := fun same => by simp [same, shortEscapes] at absent
      have single : units c = [c.toNat] := by unfold units; rw [if_pos (by omega)]
      rw [single, List.singleton_append, List.singleton_append, readUnits, if_neg (not_or.mpr ⟨slash, by omega⟩)]
      · simp only [read, bind, Option.bind, pure]
      · exact quote
      · exact fun _ _ _ _ _ same => absurd same slash
      · exact fun _ _ same => absurd same slash
    · exact readEscapes (unitsSmall c) read

theorem readBody (cs tail : List Char) : readUnits (cs.flatMap escapeChar ++ '"' :: tail) = some (cs.flatMap units, tail) := by
  induction cs with
  | nil => rfl
  | cons c cs ih =>
    rw [List.flatMap_cons, List.flatMap_cons, List.append_assoc]
    exact readEscaped c ih

theorem fromSingle {unit : Nat} (high : highSurrogate unit = false) (low : lowSurrogate unit = false) (later : List Nat) :
    fromUnits (unit :: later) = (fromUnits later).map (Char.ofNat unit :: ·) := by
  cases later with
  | nil => simp [fromUnits, high, low]
  | cons next rest => simp [fromUnits, high, low]

theorem fromCharacter (c : Char) (later : List Nat) : fromUnits (units c ++ later) = (fromUnits later).map (c :: ·) := by
  have valid : c.toNat < 0xd800 ∨ 0xdfff < c.toNat ∧ c.toNat < 0x110000 := c.valid
  unfold units
  split
  · rw [List.singleton_append, fromSingle, Char.ofNat_toNat]
    · simp only [highSurrogate, Bool.and_eq_false_iff, decide_eq_false_iff_not]
      omega
    · simp only [lowSurrogate, Bool.and_eq_false_iff, decide_eq_false_iff_not]
      omega
  · have first : highSurrogate (0xd800 + (c.toNat - 0x10000) / 1024) = true := by
      simp only [highSurrogate, Bool.and_eq_true, decide_eq_true_eq]
      omega
    have second : lowSurrogate (0xdc00 + (c.toNat - 0x10000) % 1024) = true := by
      simp only [lowSurrogate, Bool.and_eq_true, decide_eq_true_eq]
      omega
    have joined : 0x10000 + (0xd800 + (c.toNat - 0x10000) / 1024 - 0xd800) * 1024 +
        (0xdc00 + (c.toNat - 0x10000) % 1024 - 0xdc00) = c.toNat := by omega
    simp only [List.cons_append, List.nil_append, fromUnits, first, second, if_true, joined, Char.ofNat_toNat]

theorem fromCharacters (cs : List Char) : fromUnits (cs.flatMap units) = some cs := by
  induction cs with
  | nil => rfl
  | cons c cs ih => rw [List.flatMap_cons, fromCharacter, ih, Option.map_some]

theorem readWritten (text : String) (tail : List Char) :
    readString (text.toList.flatMap escapeChar ++ '"' :: tail) = some (text, tail) := by
  simp only [readString, readBody, fromCharacters, bind, Option.bind, pure, String.ofList_toList]

/-! ### Numbers -/

-- what may follow a value in compact text
def Delimited (tail : List Char) : Prop := ∀ c ∈ tail.head?, c = ',' ∨ c = ']' ∨ c = '}'

theorem delimitedNil : Delimited [] := by simp [Delimited]

theorem delimitedCons {c : Char} (delimiter : c = ',' ∨ c = ']' ∨ c = '}') (rest : List Char) : Delimited (c :: rest) := by
  simpa [Delimited] using delimiter

structure Plain (c : Char) : Prop where
  digit : c.isDigit = false
  point : c ≠ '.'
  lower : c ≠ 'e'
  upper : c ≠ 'E'
  plus : c ≠ '+'
  minus : c ≠ '-'
  blank : isBlank c = false

theorem delimiterPlain {c : Char} {rest : List Char} (stop : Delimited (c :: rest)) : Plain c := by
  rcases stop c rfl with rfl | rfl | rfl <;> exact ⟨by decide, by decide, by decide, by decide, by decide, by decide, by decide⟩

theorem delimiterDigit {tail : List Char} (stop : Delimited tail) : ∀ c ∈ tail.head?, c.isDigit = false := by
  intro c first
  cases tail with
  | nil => simp at first
  | cons head rest =>
    obtain rfl : head = c := by simpa using first
    exact (delimiterPlain stop).digit

theorem digitsAppend {tail : List Char} (stop : ∀ c ∈ tail.head?, c.isDigit = false) (cs : List Char) :
    digitsOf (cs ++ tail) = ((digitsOf cs).1, (digitsOf cs).2 ++ tail) := by
  induction cs with
  | nil =>
    cases tail with
    | nil => rfl
    | cons c rest => simp [digitsOf, stop c rfl]
  | cons c cs ih =>
    simp only [digitsOf, Prod.mk.injEq] at ih ⊢
    cases digit : c.isDigit <;> simp [digit, ih.1, ih.2]

theorem naturalAppend {tail : List Char} (stop : ∀ c ∈ tail.head?, c.isDigit = false) {cs whole rest : List Char}
    (read : readNatural cs = some (whole, rest)) : readNatural (cs ++ tail) = some (whole, rest ++ tail) := by
  unfold readNatural at read
  split at read
  · contradiction
  · cases Option.some.inj read
    rfl
  · rename_i c more nonzero
    split at read <;> try contradiction
    rename_i digit
    have split := digitsAppend stop (c :: more)
    rw [Option.some.inj read] at split
    rw [List.cons_append, readNatural, if_pos digit, ← List.cons_append, split]
    exact nonzero

theorem wholeAppend {tail : List Char} (stop : ∀ c ∈ tail.head?, c.isDigit = false) {cs whole rest : List Char}
    (read : readWhole cs = some (whole, rest)) : readWhole (cs ++ tail) = some (whole, rest ++ tail) := by
  unfold readWhole at read
  split at read
  · obtain ⟨⟨digits, left⟩, natural, same⟩ := Option.map_eq_some_iff.mp read
    cases same
    rw [List.cons_append, readWhole, naturalAppend stop natural, Option.map_some]
  · rename_i unsigned
    rw [readWhole, naturalAppend stop read]
    intro digits same
    cases cs with
    | nil => simp [readNatural] at read
    | cons c more =>
      obtain ⟨rfl, rfl⟩ := List.cons.inj same
      exact unsigned _ rfl

theorem fractionStop {tail : List Char} (stop : Delimited tail) : readFraction tail = ([], tail) := by
  unfold readFraction
  split
  · exact absurd rfl (delimiterPlain stop).point
  · rfl

theorem fractionAppend {tail : List Char} (stop : Delimited tail) (cs : List Char) :
    readFraction (cs ++ tail) = ((readFraction cs).1, (readFraction cs).2 ++ tail) := by
  cases cs with
  | nil => exact fractionStop stop
  | cons c cs =>
    by_cases point : c = '.'
    · subst point
      simp only [List.cons_append, readFraction, digitsAppend (delimiterDigit stop)]
      split <;> rfl
    · have other (rest : List Char) : readFraction (c :: rest) = ([], c :: rest) := by
        rw [readFraction]
        exact fun _ same => absurd (List.cons.inj same).1 point
      rw [List.cons_append, other, other]
      rfl

theorem unsigned {cs : List Char} (plus : ∀ rest, cs ≠ '+' :: rest) (minus : ∀ rest, cs ≠ '-' :: rest) :
    readSign cs = ([], cs) := by
  rw [readSign]
  · exact plus
  · exact minus

theorem signAppend {tail : List Char} (stop : Delimited tail) (cs : List Char) :
    readSign (cs ++ tail) = ((readSign cs).1, (readSign cs).2 ++ tail) := by
  cases cs with
  | nil =>
    refine unsigned (fun rest same => ?_) (fun rest same => ?_)
    · obtain rfl : tail = '+' :: rest := same
      exact (delimiterPlain stop).plus rfl
    · obtain rfl : tail = '-' :: rest := same
      exact (delimiterPlain stop).minus rfl
  | cons c cs =>
    by_cases plus : c = '+'
    · subst plus; rfl
    by_cases minus : c = '-'
    · subst minus; rfl
    · rw [List.cons_append, unsigned (by simp [plus]) (by simp [minus]), unsigned (by simp [plus]) (by simp [minus])]
      rfl

theorem exponentAppend {tail : List Char} (stop : Delimited tail) (cs : List Char) :
    readExponent (cs ++ tail) = ((readExponent cs).1, (readExponent cs).2 ++ tail) := by
  cases cs with
  | nil =>
    cases tail with
    | nil => rfl
    | cons c rest => simp [readExponent, (delimiterPlain stop).lower, (delimiterPlain stop).upper]
  | cons e cs =>
    simp only [List.cons_append, readExponent, signAppend stop, digitsAppend (delimiterDigit stop)]
    split <;> rfl

theorem numberAppend {tail : List Char} (stop : Delimited tail) {cs rest : List Char} {value : Json}
    (read : readNumber cs = some (value, rest)) : readNumber (cs ++ tail) = some (value, rest ++ tail) := by
  simp only [readNumber, bind, Option.bind_eq_some_iff, pure, Option.some.injEq] at read ⊢
  obtain ⟨⟨whole, more⟩, first, same⟩ := read
  refine ⟨(whole, more ++ tail), wholeAppend (delimiterDigit stop) first, ?_⟩
  simp only [fractionAppend stop, exponentAppend stop]
  cases same
  rfl

-- the literal of a finite float
def isReal (literal : String) : Bool :=
  match readNumber literal.toList with
  | some (.real read, []) => read = literal
  | _ => false

theorem realRead {literal : String} (real : isReal literal) : readNumber literal.toList = some (.real literal, []) := by
  unfold isReal at real
  split at real <;> try contradiction
  rename_i read found
  rw [found, decide_eq_true_eq.mp real]

theorem toDigitsHead (n : Nat) : ∃ c rest, Nat.toDigits 10 n = c :: rest ∧ (c = '0' → rest = []) := by
  induction n using Nat.strongRecOn with
  | ind n ih =>
    by_cases small : n < 10
    · exact ⟨n.digitChar, [], Nat.toDigits_of_lt_base small, fun _ => rfl⟩
    · obtain ⟨c, rest, spelled, zero⟩ := ih (n / 10) (by omega)
      have nonzero : c ≠ '0' := by
        rintro rfl
        rw [zero rfl] at spelled
        have value := congrArg (fun digits => Nat.ofDigitChars 10 digits 0) spelled
        simp only [Nat.ofDigitChars_ten_toDigits] at value
        have : Nat.ofDigitChars 10 ['0'] 0 = 0 := rfl
        omega
      refine ⟨c, rest ++ [(n % 10).digitChar], ?_, fun same => absurd same nonzero⟩
      rw [Nat.toDigits_of_base_le (by decide) (by omega), spelled, List.cons_append]

theorem toDigitsDigits (n : Nat) : digitsOf (Nat.toDigits 10 n) = (Nat.toDigits 10 n, []) := by
  have digits : ∀ c ∈ Nat.toDigits 10 n, c.isDigit = true :=
    fun c member => Nat.isDigit_of_mem_toDigits (by decide) (by decide) member
  rw [digitsOf, List.takeWhile_eq_self_iff.mpr digits, List.dropWhile_eq_nil_iff.mpr digits]

theorem readDigits (n : Nat) : readNatural (Nat.toDigits 10 n) = some (Nat.toDigits 10 n, []) := by
  obtain ⟨c, rest, spelled, zero⟩ := toDigitsHead n
  by_cases first : c = '0'
  · rw [spelled, zero first, first]
    rfl
  · have digit : c.isDigit = true := Nat.isDigit_of_mem_toDigits (b := 10) (n := n) (by decide) (by decide) (by simp [spelled])
    rw [spelled, readNatural, if_pos digit, ← spelled, toDigitsDigits]
    exact first

theorem digitsUnsigned (n : Nat) : ∀ rest, Nat.toDigits 10 n ≠ '-' :: rest := by
  intro rest same
  have digit : '-'.isDigit = true := Nat.isDigit_of_mem_toDigits (b := 10) (n := n) (by decide) (by decide) (by simp [same])
  cases digit

theorem readInteger (n : Int) : readWhole (writeInt n) = some (writeInt n, []) ∧ wholeValue (writeInt n) = n := by
  cases n with
  | ofNat n =>
    constructor
    · rw [writeInt, readWhole, readDigits]
      exact digitsUnsigned n
    · rw [writeInt, wholeValue, Nat.ofDigitChars_ten_toDigits]
      · rfl
      · exact digitsUnsigned n
  | negSucc n =>
    constructor
    · simp only [writeInt, readWhole, readDigits, Option.map_some]
    · rw [writeInt, wholeValue, Nat.ofDigitChars_ten_toDigits]
      rfl

theorem readInt (n : Int) : readNumber (writeInt n) = some (.int n, []) := by
  obtain ⟨whole, value⟩ := readInteger n
  simp only [readNumber, whole, bind, Option.bind, pure, readFraction, readExponent, value]
  rfl

theorem naturalDigit {cs whole rest : List Char} (read : readNatural cs = some (whole, rest)) :
    ∃ c more, cs = c :: more ∧ c.isDigit = true := by
  unfold readNatural at read
  split at read
  · contradiction
  · exact ⟨'0', _, rfl, rfl⟩
  · split at read <;> try contradiction
    rename_i digit
    exact ⟨_, _, rfl, digit⟩

theorem numberHead {cs rest : List Char} {value : Json} (read : readNumber cs = some (value, rest)) :
    (∃ c more, cs = c :: more ∧ c.isDigit = true) ∨ ∃ c more, cs = '-' :: c :: more ∧ c.isDigit = true := by
  obtain ⟨⟨whole, more⟩, first, _⟩ := Option.bind_eq_some_iff.mp read
  unfold readWhole at first
  split at first
  · obtain ⟨⟨digits, left⟩, natural, _⟩ := Option.map_eq_some_iff.mp first
    obtain ⟨c, more, rfl, digit⟩ := naturalDigit natural
    exact .inr ⟨c, more, rfl, digit⟩
  · exact .inl (naturalDigit first)

theorem scalarNumber {cs rest : List Char} {value : Json} (read : readNumber cs = some (value, rest)) :
    readScalar cs = some (value, rest) := by
  have none : constants.find? (fun k => k.1.toList.isPrefixOf cs) = none := by
    rw [List.find?_eq_none]
    intro k listed start
    simp only [constants, List.mem_cons, List.not_mem_nil, or_false] at listed
    rcases numberHead read with ⟨c, more, rfl, digit⟩ | ⟨c, more, rfl, digit⟩ <;>
      rcases listed with rfl | rfl | rfl | rfl | rfl | rfl <;>
      simp [List.isPrefixOf] at start
    all_goals
      rw [← start.1] at digit
      contradiction
  rw [readScalar, none, read]

/-! ### Values -/

/-- Floats are given by literals of finite ones. -/
inductive Writable : Json → Prop where
  | null : Writable .null
  | bool (b : Bool) : Writable (.bool b)
  | int (n : Int) : Writable (.int n)
  | real {literal : String} (real : isReal literal) : Writable (.real literal)
  | str (text : String) : Writable (.str text)
  | arr {items : List Json} (each : ∀ item ∈ items, Writable item) : Writable (.arr items)
  | obj {fields : List (String × Json)} (each : ∀ f ∈ fields, Writable f.2) : Writable (.obj fields)

/-- A value starts with a character that neither is skipped nor closes a bracket. -/
def Starts (cs : List Char) : Prop := ∃ c rest, cs = c :: rest ∧ isBlank c = false ∧ c ≠ ']' ∧ c ≠ '}'

theorem Starts.append {cs : List Char} (starts : Starts cs) (tail : List Char) : Starts (cs ++ tail) := by
  obtain ⟨c, rest, rfl, shown⟩ := starts
  exact ⟨c, rest ++ tail, rfl, shown⟩

theorem digitStarts {c : Char} (digit : c.isDigit = true ∨ c = '-') (rest : List Char) : Starts (c :: rest) := by
  refine ⟨c, rest, rfl, ?_, ?_, ?_⟩
  · cases blank : isBlank c with
    | false => rfl
    | true =>
      simp only [isBlank, Bool.or_eq_true, beq_iff_eq, or_assoc] at blank
      rcases blank with rfl | rfl | rfl | rfl <;> simp at digit
  · rintro rfl
    simp at digit
  · rintro rfl
    simp at digit

theorem numberStarts {cs rest : List Char} {value : Json} (read : readNumber cs = some (value, rest)) : Starts cs := by
  rcases numberHead read with ⟨c, more, rfl, digit⟩ | ⟨c, more, rfl, _⟩
  · exact digitStarts (.inl digit) more
  · exact digitStarts (.inr rfl) (c :: more)

theorem writtenStarts {value : Json} (writable : Writable value) : Starts (write value) := by
  cases writable with
  | null => exact ⟨'n', _, rfl, by decide, by decide, by decide⟩
  | bool b => cases b <;> exact ⟨_, _, rfl, by decide, by decide, by decide⟩
  | int n => exact numberStarts (readInt n)
  | real real => exact numberStarts (realRead real)
  | str text => exact ⟨'"', _, rfl, by decide, by decide, by decide⟩
  | arr _ => exact ⟨'[', _, rfl, by decide, by decide, by decide⟩
  | obj _ => exact ⟨'{', _, rfl, by decide, by decide, by decide⟩

theorem skipStarts {cs : List Char} (starts : Starts cs) : skipBlanks cs = cs := by
  obtain ⟨c, rest, rfl, blank, _⟩ := starts
  simp [skipBlanks, blank]

theorem skipStop {tail : List Char} (stop : Delimited tail) : skipBlanks tail = tail := by
  cases tail with
  | nil => rfl
  | cons c rest => simp [skipBlanks, (delimiterPlain stop).blank]

theorem readNumeral {cs rest : List Char} {value : Json} (read : readNumber cs = some (value, rest)) (fuel : Nat) :
    readValue (fuel + 1) cs = some (value, rest) := by
  rw [readValue, scalarNumber read]
  all_goals
    rintro more rfl
    rcases numberHead read with ⟨c, _, same, digit⟩ | ⟨_, _, same, _⟩
    · obtain ⟨rfl, _⟩ := List.cons.inj same
      contradiction
    · exact absurd (List.cons.inj same).1 (by decide)

/-! Two steps of fuel for each character are enough. -/

theorem itemsStart {item : Json} (starts : Starts (write item)) (rest : List Json) : Starts (writeItems (item :: rest)) := by
  cases rest with
  | nil => exact starts
  | cons next rest => exact starts.append _

theorem fieldsStart (field : String × Json) (rest : List (String × Json)) :
    ∃ more, writeFields (field :: rest) = '"' :: more := by
  cases rest <;> exact ⟨_, rfl⟩

theorem readItemsWritten {items : List Json} (some : items ≠ []) {tail : List Char}
    (each : ∀ item ∈ items, ∀ fuel rest, 2 * (write item).length ≤ fuel → Delimited rest →
      readValue fuel (write item ++ rest) = .some (item, rest))
    (starts : ∀ item ∈ items, Starts (write item)) (fuel : Nat) (enough : 2 * (writeItems items).length + 1 ≤ fuel) :
    readItems fuel (writeItems items ++ ']' :: tail) = .some (items, tail) := by
  induction items generalizing fuel with
  | nil => contradiction
  | cons item rest ih =>
    obtain ⟨fuel, rfl⟩ : ∃ more, fuel = more + 1 := ⟨fuel - 1, by omega⟩
    obtain ⟨here, later⟩ := List.forall_mem_cons.mp each
    obtain ⟨_, startsLater⟩ := List.forall_mem_cons.mp starts
    cases rest with
    | nil =>
      simp only [writeItems] at enough ⊢
      rw [readItems, here fuel _ (by omega) (delimitedCons (by simp) tail)]
      simp [skipBlanks, isBlank]
    | cons next rest =>
      simp only [writeItems, List.length_append, List.length_cons] at enough ⊢
      have continued := ih (by simp) later startsLater fuel (by omega)
      have shown : Starts (writeItems (next :: rest)) := itemsStart (startsLater next List.mem_cons_self) rest
      rw [List.append_assoc, List.cons_append, readItems, here fuel _ (by omega) (delimitedCons (by simp) _)]
      simp only [bind, Option.bind]
      rw [skipStop (delimitedCons (by simp) _)]
      simp only [skipStarts (shown.append _), continued, Option.map_some]

theorem readFieldsWritten {fields : List (String × Json)} (some : fields ≠ []) {tail : List Char}
    (each : ∀ f ∈ fields, ∀ fuel rest, 2 * (write f.2).length ≤ fuel → Delimited rest →
      readValue fuel (write f.2 ++ rest) = .some (f.2, rest))
    (starts : ∀ f ∈ fields, Starts (write f.2)) (fuel : Nat) (enough : 2 * (writeFields fields).length + 1 ≤ fuel) :
    readFields fuel (writeFields fields ++ '}' :: tail) = .some (fields, tail) := by
  induction fields generalizing fuel with
  | nil => contradiction
  | cons f rest ih =>
    obtain ⟨fuel, rfl⟩ : ∃ more, fuel = more + 1 := ⟨fuel - 1, by omega⟩
    obtain ⟨key, value⟩ := f
    obtain ⟨here, later⟩ := List.forall_mem_cons.mp each
    obtain ⟨shownHere, startsLater⟩ := List.forall_mem_cons.mp starts
    dsimp only at here shownHere
    have colon (more : List Char) : skipBlanks (':' :: more) = ':' :: more := by simp [skipBlanks, isBlank]
    cases rest with
    | nil =>
      simp only [writeFields, writeString, List.length_append, List.length_cons, List.length_nil] at enough ⊢
      have read := here fuel ('}' :: tail) (by omega) (delimitedCons (by simp) tail)
      simp only [List.cons_append, List.append_assoc, List.nil_append, readFields, readWritten, bind, Option.bind, colon,
        skipStarts (shownHere.append _), read]
      rw [skipStop (delimitedCons (by simp) _)]
      rfl
    | cons next rest =>
      simp only [writeFields, writeString, List.length_append, List.length_cons, List.length_nil] at enough ⊢
      have read := here fuel (',' :: (writeFields (next :: rest) ++ '}' :: tail)) (by omega) (delimitedCons (by simp) _)
      have continued := ih (by simp) later startsLater fuel (by omega)
      have shown : skipBlanks (writeFields (next :: rest) ++ '}' :: tail) = writeFields (next :: rest) ++ '}' :: tail := by
        obtain ⟨more, first⟩ := fieldsStart next rest
        rw [first]
        simp [skipBlanks, isBlank]
      simp only [List.cons_append, List.append_assoc, List.nil_append, readFields, readWritten, bind, Option.bind, colon,
        skipStarts (shownHere.append _), read]
      rw [skipStop (delimitedCons (by simp) _)]
      simp only [shown, continued, Option.map_some]

theorem keywordWritten {k : String × Json} (listed : k ∈ constants) (written : write k.2 = k.1.toList)
    (fuel : Nat) (tail : List Char) (enough : 2 * (write k.2).length ≤ fuel) :
    readValue fuel (write k.2 ++ tail) = some (k.2, tail) := by
  simp only [constants, List.mem_cons, List.not_mem_nil, or_false] at listed
  obtain ⟨fuel, rfl⟩ : ∃ more, fuel = more + 1 := by
    refine ⟨fuel - 1, ?_⟩
    rcases listed with rfl | rfl | rfl | rfl | rfl | rfl <;> simp [write] at enough <;> omega
  rcases listed with rfl | rfl | rfl | rfl | rfl | rfl <;> simp [write, readValue, readScalar, constants, List.isPrefixOf]

theorem numeralWritten (value : Json) (read : readNumber (write value) = some (value, [])) (fuel : Nat) {tail : List Char}
    (enough : 2 * (write value).length ≤ fuel) (stop : Delimited tail) :
    readValue fuel (write value ++ tail) = some (value, tail) := by
  obtain ⟨c, rest, head, _⟩ := numberStarts read
  obtain ⟨fuel, rfl⟩ : ∃ more, fuel = more + 1 := ⟨fuel - 1, by rw [head, List.length_cons] at enough; omega⟩
  exact readNumeral (numberAppend stop read) fuel

theorem readValueWritten {value : Json} (writable : Writable value) : ∀ fuel tail, 2 * (write value).length ≤ fuel →
    Delimited tail → readValue fuel (write value ++ tail) = some (value, tail) := by
  induction writable with
  | null => exact fun fuel tail enough _ => keywordWritten (k := ("null", .null)) (by simp [constants]) rfl fuel tail enough
  | bool b =>
    intro fuel tail enough _
    cases b with
    | true => exact keywordWritten (k := ("true", .bool true)) (by simp [constants]) rfl fuel tail enough
    | false => exact keywordWritten (k := ("false", .bool false)) (by simp [constants]) rfl fuel tail enough
  | int n => exact fun fuel tail => numeralWritten (.int n) (readInt n) fuel
  | @real literal real => exact fun fuel tail => numeralWritten (.real literal) (realRead real) fuel
  | str text =>
    intro fuel tail enough stop
    simp only [write, writeString, List.length_append, List.length_cons, List.length_nil] at enough ⊢
    obtain ⟨fuel, rfl⟩ : ∃ more, fuel = more + 1 := ⟨fuel - 1, by omega⟩
    simp only [List.cons_append, List.append_assoc, List.nil_append, readValue, readWritten, Option.map_some]
  | @arr items each ih =>
    intro fuel tail enough stop
    simp only [write, List.length_append, List.length_cons, List.length_nil] at enough ⊢
    obtain ⟨fuel, rfl⟩ : ∃ more, fuel = more + 1 := ⟨fuel - 1, by omega⟩
    simp only [List.cons_append, List.append_assoc, List.nil_append]
    rw [readValue]
    cases items with
    | nil => simp [writeItems, skipBlanks, isBlank]
    | cons first rest =>
      have starts : ∀ item ∈ first :: rest, Starts (write item) := fun item member => writtenStarts (each item member)
      have read : readItems fuel (writeItems (first :: rest) ++ ']' :: tail) = some (first :: rest, tail) :=
        readItemsWritten (by simp) ih starts fuel (by omega)
      have shown := (itemsStart (starts first List.mem_cons_self) rest).append (']' :: tail)
      rw [skipStarts shown]
      obtain ⟨c, more, head, _, open_, _⟩ := shown
      rw [head] at read ⊢
      split
      · rename_i same
        exact absurd (List.cons.inj same).1 open_
      · rw [read, Option.map_some]
  | @obj fields each ih =>
    intro fuel tail enough stop
    simp only [write, List.length_append, List.length_cons, List.length_nil] at enough ⊢
    obtain ⟨fuel, rfl⟩ : ∃ more, fuel = more + 1 := ⟨fuel - 1, by omega⟩
    simp only [List.cons_append, List.append_assoc, List.nil_append]
    rw [readValue]
    cases fields with
    | nil => simp [writeFields, skipBlanks, isBlank]
    | cons first rest =>
      have starts : ∀ f ∈ first :: rest, Starts (write f.2) := fun f member => writtenStarts (each f member)
      have read : readFields fuel (writeFields (first :: rest) ++ '}' :: tail) = some (first :: rest, tail) :=
        readFieldsWritten (by simp) ih starts fuel (by omega)
      obtain ⟨more, head⟩ := fieldsStart first rest
      rw [head, List.cons_append] at read ⊢
      have shown : skipBlanks ('"' :: (more ++ '}' :: tail)) = '"' :: (more ++ '}' :: tail) := by simp [skipBlanks, isBlank]
      rw [shown]
      split
      · rename_i same
        exact absurd (List.cons.inj same).1 (by decide)
      · rw [read, Option.map_some]

theorem loadsDumps {value : Json} (writable : Writable value) : loads (dumps value) = some value := by
  have starts := writtenStarts writable
  have read := readValueWritten writable (2 * (write value).length) [] le_rfl delimitedNil
  rw [List.append_nil] at read
  simp only [loads, dumps, String.toList_ofList, skipStarts starts, read, bind, Option.bind]
  rfl

theorem dumpsInjective {value other : Json} (writable : Writable value) (writable' : Writable other)
    (same : dumps value = dumps other) : value = other := by
  have read := loadsDumps writable
  rw [same, loadsDumps writable'] at read
  exact (Option.some.inj read).symm

/-! ### Enough fuel -/

-- what a reader leaves is shorter than what it was given
def Shrinks {α : Type} (reader : List Char → Option (α × List Char)) : Prop :=
  ∀ cs value rest, reader cs = some (value, rest) → rest.length < cs.length

theorem skipShorter (cs : List Char) : (skipBlanks cs).length ≤ cs.length := (List.dropWhile_sublist _).length_le

theorem unitsShrink : Shrinks readUnits := by
  intro cs
  fun_induction readUnits cs with
  | case1 => simp
  | case2 rest => rintro value left ⟨⟩; simp
  | case3 a b c d rest ih =>
    intro value left read
    simp only [bind, Option.bind_eq_some_iff, pure, Option.some.injEq] at read
    obtain ⟨_, _, ⟨later, more⟩, inner, same⟩ := read
    cases same
    have := ih later more inner
    simp only [List.length_cons]
    omega
  | case4 e rest _ ih =>
    intro value left read
    simp only [bind, Option.bind_eq_some_iff, pure, Option.some.injEq] at read
    obtain ⟨_, _, ⟨later, more⟩, inner, same⟩ := read
    cases same
    have := ih later more inner
    simp only [List.length_cons]
    omega
  | case5 => simp
  | case6 c rest _ _ _ _ ih =>
    intro value left read
    simp only [bind, Option.bind_eq_some_iff, pure, Option.some.injEq] at read
    obtain ⟨⟨later, more⟩, inner, same⟩ := read
    cases same
    have := ih later more inner
    simp only [List.length_cons]
    omega

theorem stringShrinks : Shrinks readString := by
  intro cs text rest read
  simp only [readString, bind, Option.bind_eq_some_iff, pure, Option.some.injEq] at read
  obtain ⟨⟨later, more⟩, inner, _, _, same⟩ := read
  cases same
  exact unitsShrink cs later more inner

theorem digitsShorter (cs : List Char) : (digitsOf cs).2.length ≤ cs.length := (List.dropWhile_sublist _).length_le

theorem naturalShrinks : Shrinks readNatural := by
  intro cs whole rest read
  unfold readNatural at read
  split at read
  · contradiction
  · cases Option.some.inj read
    simp
  · rename_i c more _
    split at read <;> try contradiction
    rename_i digit
    have shorter := digitsShorter more
    cases Option.some.inj read
    simp only [digitsOf, List.dropWhile_cons_of_pos digit, List.length_cons] at shorter ⊢
    omega

theorem wholeShrinks : Shrinks readWhole := by
  intro cs whole rest read
  unfold readWhole at read
  split at read
  · obtain ⟨⟨digits, left⟩, natural, same⟩ := Option.map_eq_some_iff.mp read
    cases same
    have := naturalShrinks _ _ _ natural
    simp only [List.length_cons]
    omega
  · exact naturalShrinks _ _ _ read

theorem fractionShorter (cs : List Char) : (readFraction cs).2.length ≤ cs.length := by
  unfold readFraction
  split
  · rename_i rest
    have := digitsShorter rest
    dsimp only
    split
    · exact le_rfl
    · rw [List.length_cons]
      exact this.trans (Nat.le_succ _)
  · exact le_rfl

theorem exponentShorter (cs : List Char) : (readExponent cs).2.length ≤ cs.length := by
  have sign (cs : List Char) : (readSign cs).2.length ≤ cs.length := by
    unfold readSign
    split <;> simp
  unfold readExponent
  split
  · exact le_rfl
  · rename_i e rest
    dsimp only
    split
    · exact ((digitsShorter _).trans (sign rest)).trans (Nat.le_succ _)
    · exact le_rfl

theorem scalarShrinks : Shrinks readScalar := by
  intro cs value rest read
  unfold readScalar at read
  split at read
  · rename_i k found
    have start : k.1.toList <+: cs := List.isPrefixOf_iff_prefix.mp (by simpa using List.find?_some found)
    have some : 0 < k.1.toList.length := by
      have listed := List.mem_of_find?_eq_some found
      simp only [constants, List.mem_cons, List.not_mem_nil, or_false] at listed
      rcases listed with rfl | rfl | rfl | rfl | rfl | rfl <;> decide
    cases Option.some.inj read
    rw [List.length_drop]
    have := start.length_le
    omega
  · simp only [readNumber, bind, Option.bind_eq_some_iff, pure, Option.some.injEq] at read
    obtain ⟨⟨whole, more⟩, first, same⟩ := read
    have shorter := wholeShrinks _ _ _ first
    cases same
    exact ((exponentShorter _).trans (fractionShorter more)).trans_lt shorter

theorem readersShrink (fuel : Nat) : Shrinks (readValue fuel) ∧ Shrinks (readItems fuel) ∧ Shrinks (readFields fuel) := by
  induction fuel with
  | zero => exact ⟨fun _ _ _ read => by simp [readValue] at read, fun _ _ _ read => by simp [readItems] at read,
      fun _ _ _ read => by simp [readFields] at read⟩
  | succ fuel ih =>
    obtain ⟨values, items, fields⟩ := ih
    refine ⟨fun cs value rest read => ?_, fun cs value rest read => ?_, fun cs value rest read => ?_⟩
    · rw [readValue.eq_def] at read
      dsimp only at read
      split at read
      · obtain ⟨⟨text, left⟩, inner, same⟩ := Option.map_eq_some_iff.mp read
        cases same
        exact (stringShrinks _ _ _ inner).trans (Nat.lt_succ_self _)
      · rename_i more
        have blanks := skipShorter more
        split at read
        · rename_i empty
          cases Option.some.inj read
          rw [empty] at blanks
          simp only [List.length_cons] at blanks ⊢
          omega
        · obtain ⟨⟨list, left⟩, inner, same⟩ := Option.map_eq_some_iff.mp read
          cases same
          have := items _ _ _ inner
          simp only [List.length_cons]
          omega
      · rename_i more
        have blanks := skipShorter more
        split at read
        · rename_i empty
          cases Option.some.inj read
          rw [empty] at blanks
          simp only [List.length_cons] at blanks ⊢
          omega
        · obtain ⟨⟨list, left⟩, inner, same⟩ := Option.map_eq_some_iff.mp read
          cases same
          have := fields _ _ _ inner
          simp only [List.length_cons]
          omega
      · exact scalarShrinks _ _ _ read
    · rw [readItems] at read
      obtain ⟨⟨item, left⟩, first, read⟩ := Option.bind_eq_some_iff.mp read
      have shorter := values _ _ _ first
      have blanks := skipShorter left
      dsimp only at read
      split at read <;> try contradiction
      · rename_i closed
        cases Option.some.inj read
        rw [closed] at blanks
        simp only [List.length_cons] at blanks
        omega
      · rename_i more separated
        obtain ⟨⟨list, left⟩, inner, same⟩ := Option.map_eq_some_iff.mp read
        cases same
        have := items _ _ _ inner
        have := skipShorter more
        rw [separated] at blanks
        simp only [List.length_cons] at blanks ⊢
        omega
    · rw [readFields.eq_def] at read
      dsimp only at read
      split at read <;> try contradiction
      rename_i more
      obtain ⟨⟨key, left⟩, named, read⟩ := Option.bind_eq_some_iff.mp read
      have shorter := stringShrinks _ _ _ named
      have blanks := skipShorter left
      dsimp only at read
      split at read <;> try contradiction
      rename_i after colon
      rw [colon] at blanks
      obtain ⟨⟨value, left⟩, valued, read⟩ := Option.bind_eq_some_iff.mp read
      have shorter' := values _ _ _ valued
      have blanks' := skipShorter after
      have blanks'' := skipShorter left
      dsimp only at read
      split at read <;> try contradiction
      · rename_i closed
        cases Option.some.inj read
        rw [closed] at blanks''
        simp only [List.length_cons] at blanks blanks'' ⊢
        omega
      · rename_i next separated
        obtain ⟨⟨list, left⟩, inner, same⟩ := Option.map_eq_some_iff.mp read
        cases same
        have := fields _ _ _ inner
        have := skipShorter next
        rw [separated] at blanks''
        simp only [List.length_cons] at blanks blanks'' ⊢
        omega

theorem readersSettle (fuel : Nat) :
    (∀ cs, 2 * cs.length ≤ fuel → readValue (fuel + 1) cs = readValue fuel cs) ∧
    (∀ cs, 2 * cs.length + 1 ≤ fuel → readItems (fuel + 1) cs = readItems fuel cs) ∧
    (∀ cs, 2 * cs.length + 1 ≤ fuel → readFields (fuel + 1) cs = readFields fuel cs) := by
  induction fuel with
  | zero =>
    refine ⟨fun cs enough => ?_, fun cs enough => absurd enough (by omega), fun cs enough => absurd enough (by omega)⟩
    obtain rfl := List.length_eq_zero_iff.mp (by omega : cs.length = 0)
    simp [readValue, readScalar, constants, readNumber, readWhole, readNatural]
  | succ fuel ih =>
    obtain ⟨values, items, fields⟩ := ih
    refine ⟨fun cs enough => ?_, fun cs enough => ?_, fun cs enough => ?_⟩
    · rw [readValue.eq_def, readValue.eq_def (fuel + 1)]
      dsimp only
      split
      · rfl
      · rename_i more
        have blanks := skipShorter more
        rw [List.length_cons] at enough
        have settled := items (skipBlanks more) (by omega)
        split
        · rfl
        · rw [settled]
      · rename_i more
        have blanks := skipShorter more
        rw [List.length_cons] at enough
        have settled := fields (skipBlanks more) (by omega)
        split
        · rfl
        · rw [settled]
      · rfl
    · rw [readItems, readItems, values _ (by omega)]
      refine Option.bind_congr fun first read => ?_
      have shorter := (readersShrink fuel).1 _ _ _ read
      have blanks := skipShorter first.2
      dsimp only
      split
      · rfl
      · rename_i more separated
        have := skipShorter more
        rw [separated, List.length_cons] at blanks
        rw [items _ (by omega)]
      · rfl
    · rw [readFields.eq_def, readFields.eq_def (fuel + 1)]
      dsimp only
      split
      · rename_i more
        refine Option.bind_congr fun named read => ?_
        have shorter := stringShrinks _ _ _ read
        have blanks := skipShorter named.2
        rw [List.length_cons] at enough
        split
        · rename_i after colon
          rw [colon, List.length_cons] at blanks
          have blanks' := skipShorter after
          rw [values _ (by omega)]
          refine Option.bind_congr fun valued read => ?_
          have shorter' := (readersShrink fuel).1 _ _ _ read
          have blanks'' := skipShorter valued.2
          split
          · rfl
          · rename_i next separated
            have := skipShorter next
            rw [separated, List.length_cons] at blanks''
            rw [fields _ (by omega)]
          · rfl
        · rfl
      · rfl

theorem loadsEnough (text : String) (fuel : Nat) (more : 2 * text.toList.length ≤ fuel) :
    loads text = (do
      let (value, rest) ← readValue fuel (skipBlanks text.toList)
      if (skipBlanks rest).isEmpty then some value else none) := by
  have blanks := skipShorter text.toList
  induction fuel, more using Nat.le_induction with
  | base => rfl
  | succ fuel more ih => rw [ih, (readersSettle fuel).1 _ (by omega)]

theorem fieldIff {fields : List (String × Json)} (distinct : (fields.map Prod.fst).Nodup) {key : String} {value : Json} :
    (Json.obj fields).field key = some value ↔ (key, value) ∈ fields := by
  simp only [field, Option.map_eq_some_iff]
  constructor
  · rintro ⟨⟨k, v⟩, found, rfl⟩
    obtain rfl : k = key := by simpa using List.find?_some found
    exact List.mem_reverse.mp (List.mem_of_find?_eq_some found)
  · intro member
    cases found : fields.reverse.find? (fun f => f.1 = key) with
    | none => simpa using List.find?_eq_none.mp found (key, value) (List.mem_reverse.mpr member)
    | some f =>
      have listed := List.mem_reverse.mp (List.mem_of_find?_eq_some found)
      have named : f.1 = key := by simpa using List.find?_some found
      exact ⟨f, rfl, congrArg Prod.snd (List.inj_on_of_nodup_map distinct listed member named)⟩

theorem sortFieldsMap (fields : List (String × Json)) : sortFields fields = fields.map (fun f => (f.1, sortKeys f.2)) := by
  induction fields with
  | nil => rfl
  | cons f rest ih => rw [sortFields, ih, List.map_cons]

theorem sortItemsMap (items : List Json) : sortItems items = items.map sortKeys := by
  induction items with
  | nil => rfl
  | cons item rest ih => rw [sortItems, ih, List.map_cons]

theorem sortFieldsKeys (fields : List (String × Json)) : (sortFields fields).map Prod.fst = fields.map Prod.fst := by
  rw [sortFieldsMap, List.map_map]
  rfl

theorem fieldSorted {fields : List (String × Json)} (distinct : (fields.map Prod.fst).Nodup) {key : String} {value : Json}
    (found : (Json.obj fields).field key = some value) : (sortKeys (.obj fields)).field key = some (sortKeys value) := by
  have sorted := List.perm_insertionSort (fun a b : String × Json => a.1 ≤ b.1) (sortFields fields)
  have distinct' : ((sortFields fields).map Prod.fst).Nodup := (sortFieldsKeys fields).symm ▸ distinct
  rw [sortKeys, fieldIff ((sorted.map Prod.fst).nodup_iff.mpr distinct'), sorted.mem_iff, sortFieldsMap]
  exact List.mem_map_of_mem ((fieldIff distinct).mp found)

theorem sortedValues {fields fields' : List (String × Json)} (same : sortKeys (.obj fields) = sortKeys (.obj fields'))
    (names : fields'.map Prod.fst = fields.map Prod.fst) (distinct : (fields.map Prod.fst).Nodup) :
    fields.map (fun f => sortKeys f.2) = fields'.map (fun f => sortKeys f.2) := by
  have length : fields'.length = fields.length := by simpa using congrArg List.length names
  refine List.ext_getElem (by simp [length]) fun i inside inside' => ?_
  simp only [List.length_map] at inside inside'
  have name : fields'[i].1 = fields[i].1 := by
    have at_ := List.getElem_of_eq names (i := i) (by simpa using inside')
    simpa only [List.getElem_map] using at_
  have found : (sortKeys (.obj fields)).field fields[i].1 = some (sortKeys fields[i].2) :=
    fieldSorted distinct ((fieldIff distinct).mpr (List.getElem_mem inside))
  have found' : (sortKeys (.obj fields')).field fields'[i].1 = some (sortKeys fields'[i].2) :=
    fieldSorted (names ▸ distinct) ((fieldIff (names ▸ distinct)).mpr (List.getElem_mem inside'))
  rw [name, ← same, found] at found'
  rw [List.getElem_map, List.getElem_map]
  exact Option.some.inj found'

theorem sortedWritable {value : Json} (writable : Writable value) : Writable (sortKeys value) := by
  induction writable with
  | null => exact .null
  | bool b => exact .bool b
  | int n => exact .int n
  | real real => exact .real real
  | str text => exact .str text
  | arr _ ih =>
    rw [sortKeys, sortItemsMap]
    exact .arr (by simpa using ih)
  | obj _ ih =>
    rw [sortKeys, sortFieldsMap]
    refine .obj fun f member => ?_
    obtain ⟨g, listed, rfl⟩ := List.mem_map.mp ((List.mem_insertionSort _).mp member)
    exact ih g listed

end ContextOS.Lib.Json
