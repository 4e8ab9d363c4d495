import ContextOS.Compressor
import Mathlib.Data.List.TakeWhile

/-! What the lossless tier and the sentence splitter leave of a text. Squeezed and stripped,
a text has the same runs of any class of characters that has no whitespace in it; cut into
sentences, also of any class without the sentence ends. -/
namespace ContextOS
open Lib (runs runsFrom runsFromPrefix runsFromSeparated runsFirst runsLast runsSeparated)

section Runs
variable {p : Char → Bool} {f : Char → List Char}

-- the map leaves the character alone, and what it stands for is outside the class
def Separates (p : Char → Bool) (f : Char → List Char) (c : Char) : Prop := f c = [c] ∧ p c = false

theorem separatedRuns {c : Char} (separates : Separates p f c) (cur xs ys : List Char) :
    runsFrom p cur ((xs ++ c :: ys).flatMap f) = runsFrom p cur (xs.flatMap f) ++ runs p (ys.flatMap f) := by
  rw [List.flatMap_append, List.flatMap_cons, separates.1, List.singleton_append, runsFromSeparated separates.2]

theorem separatedFront {front : List Char} (separates : ∀ c ∈ front, Separates p f c) (xs : List Char) :
    runs p ((front ++ xs).flatMap f) = runs p (xs.flatMap f) := by
  induction front with
  | nil => rfl
  | cons c front ih =>
    obtain ⟨here, later⟩ := List.forall_mem_cons.mp separates
    rw [List.cons_append, List.flatMap_cons, here.1, List.singleton_append, runsFirst here.2, ih later]

theorem separatedBack {back : List Char} (separates : ∀ c ∈ back, Separates p f c) (xs : List Char) :
    runs p ((xs ++ back).flatMap f) = runs p (xs.flatMap f) := by
  cases back with
  | nil => rw [List.append_nil]
  | cons c back =>
    obtain ⟨here, later⟩ := List.forall_mem_cons.mp separates
    have none : runs p (back.flatMap f) = [] := by
      simpa [runs, runsFrom] using separatedFront later []
    exact (separatedRuns here [] xs back).trans (by rw [none, List.append_nil]; rfl)

/-! ### The structural tier -/

variable (spaces : ∀ c, isSpace c → Separates p f c)
include spaces

theorem squeezedBlanks (xs : List Char) {inRun : Bool} {cur : List Char} (fresh : inRun = true → cur = []) :
    runsFrom p cur ((squeezeBlanks inRun xs).flatMap f) = runsFrom p cur (xs.flatMap f) := by
  induction xs generalizing inRun cur with
  | nil => rfl
  | cons c rest ih =>
    unfold squeezeBlanks
    split
    · rename_i blank
      have here : Separates p f c := spaces c (by rcases blank with rfl | rfl <;> decide)
      have written : Separates p f ' ' := spaces ' ' (by decide)
      have rewritten := separatedRuns here cur [] rest
      split
      · rename_i running
        subst running
        rw [fresh rfl] at rewritten ⊢
        exact (ih fun _ => rfl).trans rewritten.symm
      · refine (separatedRuns written cur [] _).trans (Eq.trans ?_ rewritten.symm)
        exact congrArg _ (ih fun _ => rfl)
    · rw [List.flatMap_cons, List.flatMap_cons]
      exact runsFromPrefix (fun cur => ih (by simp)) (f c) cur

theorem squeezedNewlines (xs : List Char) {seen : Nat} {cur : List Char} (fresh : 0 < seen → cur = []) :
    runsFrom p cur ((squeezeNewlines seen xs).flatMap f) = runsFrom p cur (xs.flatMap f) := by
  induction xs generalizing seen cur with
  | nil => rfl
  | cons c rest ih =>
    unfold squeezeNewlines
    split
    · rename_i newline
      have here : Separates p f c := spaces c (by subst newline; decide)
      have rewritten := separatedRuns here cur [] rest
      split
      · rename_i many
        rw [fresh (by omega)] at rewritten ⊢
        exact (ih fun _ => rfl).trans rewritten.symm
      · refine (separatedRuns here cur [] _).trans (Eq.trans ?_ rewritten.symm)
        exact congrArg _ (ih fun _ => rfl)
    · rw [List.flatMap_cons, List.flatMap_cons]
      exact runsFromPrefix (fun cur => ih (by simp)) (f c) cur

end Runs

theorem stripParts (text : String) : ∃ front back, text.toList = front ++ (strip text).toList ++ back ∧
    (∀ c ∈ front, isSpace c) ∧ (∀ c ∈ back, isSpace c) := by
  have first := List.takeWhile_append_dropWhile (p := isSpace) (l := text.toList)
  have last := List.takeWhile_append_dropWhile (p := isSpace) (l := (text.toList.dropWhile isSpace).reverse)
  refine ⟨text.toList.takeWhile isSpace, ((text.toList.dropWhile isSpace).reverse.takeWhile isSpace).reverse, ?_,
    fun c member => List.mem_takeWhile_imp member, fun c member => List.mem_takeWhile_imp (List.mem_reverse.mp member)⟩
  have rebuilt := congrArg List.reverse last
  rw [List.reverse_append, List.reverse_reverse] at rebuilt
  rw [strip, String.toList_ofList, List.append_assoc, rebuilt, first]

/-- Neither end of the text is whitespace. -/
structure Edged (s : List Char) : Prop where
  first : ∀ c, s.head? = some c → isSpace c = false
  last : ∀ c, s.getLast? = some c → isSpace c = false

theorem dropWhileFirst (xs : List Char) {c : Char} (first : (xs.dropWhile isSpace).head? = some c) : isSpace c = false := by
  have outside := List.head?_dropWhile_not isSpace xs
  rwa [first] at outside

theorem stripEdged (text : String) : Edged (strip text).toList := by
  rw [strip, String.toList_ofList]
  constructor
  · intro c first
    -- the end is dropped from a list that starts as the result does
    have front : ((text.toList.dropWhile isSpace).reverse.dropWhile isSpace).reverse <+: text.toList.dropWhile isSpace :=
      List.reverse_suffix.mp (by rw [List.reverse_reverse]; exact List.dropWhile_suffix isSpace)
    obtain ⟨rest, split⟩ := front
    refine dropWhileFirst text.toList ?_
    rw [← split, List.head?_append, first]
    rfl
  · intro c last
    rw [List.getLast?_reverse] at last
    exact dropWhileFirst _ last

section Structural
variable {p : Char → Bool} {f : Char → List Char} (spaces : ∀ c, isSpace c → Separates p f c)
include spaces

theorem strippedRuns (text : String) : runs p ((strip text).toList.flatMap f) = runs p (text.toList.flatMap f) := by
  obtain ⟨front, back, parts, blank, blank'⟩ := stripParts text
  rw [parts, separatedBack fun c member => spaces c (blank' c member), separatedFront fun c member => spaces c (blank c member)]

theorem structuralRuns (text : String) : runs p ((structural text).toList.flatMap f) = runs p (text.toList.flatMap f) := by
  rw [structural, strippedRuns spaces, String.toList_ofList]
  exact (squeezedNewlines spaces _ (by simp)).trans (squeezedBlanks spaces _ (by simp))

end Structural

/-! ### Sentences -/

def Closed (s : List Char) : Prop := ∃ front c, s = front ++ [c] ∧ isTerminator c

/-- Where a sentence stands in a text: ends are only at its own end, and what follows a
sentence without one is whitespace. -/
structure StandsIn (text s front back : List Char) : Prop where
  split : text = front ++ s ++ back
  inner : ∀ c ∈ s.dropLast, isTerminator c = false
  tail : Closed s ∨ (∀ c ∈ s, isTerminator c = false) ∧ ∀ c ∈ back, isSpace c

theorem terminatorSpace {c : Char} (ends : isTerminator c) : isSpace c = false := by
  simp only [isTerminator, Bool.or_eq_true, beq_iff_eq] at ends
  rcases ends with (rfl | rfl) | rfl <;> decide

theorem sentencesFromStand {cur : List Char} (unended : ∀ c ∈ cur, isTerminator c = false) (xs : List Char) :
    ∀ raw ∈ sentencesFrom cur xs, ∃ front back, StandsIn (cur.reverse ++ xs) raw front back := by
  induction xs generalizing cur with
  | nil =>
    intro raw member
    simp only [sentencesFrom] at member
    split at member
    · simp at member
    · rw [List.mem_singleton] at member
      subst member
      have plain : ∀ c ∈ cur.reverse, isTerminator c = false := fun c member => unended c (List.mem_reverse.mp member)
      exact ⟨[], [], by simp, fun c member => plain c ((List.dropLast_sublist _).subset member), .inr ⟨plain, by simp⟩⟩
  | cons c rest ih =>
    intro raw member
    simp only [sentencesFrom] at member
    have onward : ∀ front back, StandsIn ([].reverse ++ rest) raw front back →
        ∃ front back, StandsIn (cur.reverse ++ c :: rest) raw front back := fun front back stands =>
      ⟨cur.reverse ++ c :: front, back, by simpa using stands.split, stands.inner, stands.tail⟩
    split at member
    · rename_i ends
      split at member
      · obtain ⟨front, back, stands⟩ := ih (by simp) raw member
        exact onward front back stands
      · rcases List.mem_cons.mp member with rfl | later
        · refine ⟨[], rest, by simp, fun x member => ?_, .inl ⟨cur.reverse, c, by simp, ends⟩⟩
          rw [List.reverse_cons, List.dropLast_concat] at member
          exact unended x (List.mem_reverse.mp member)
        · obtain ⟨front, back, stands⟩ := ih (by simp) raw later
          exact onward front back stands
    · rename_i goes
      obtain ⟨front, back, stands⟩ := ih (by simpa using ⟨by simpa using goes, unended⟩) raw member
      exact ⟨front, back, by simpa using stands.split, stands.inner, stands.tail⟩

theorem sentenceRaw {text s : String} (member : s ∈ sentences text) :
    ∃ raw ∈ sentencesFrom [] text.toList, s = strip (String.ofList raw) ∧ s.toList ≠ [] := by
  obtain ⟨listed, some⟩ := List.mem_filter.mp member
  obtain ⟨raw, inside, rfl⟩ := List.mem_map.mp listed
  exact ⟨raw, inside, rfl, by simpa using some⟩

theorem dropLastInside {α : Type} {front s back : List α} {x : α} (member : x ∈ s.dropLast) : x ∈ (front ++ s ++ back).dropLast := by
  have some : s ≠ [] := by
    rintro rfl
    simp at member
  rw [← List.dropLast_append_getLast some, List.append_assoc, List.append_assoc,
    List.dropLast_append_of_ne_nil (by simp), List.dropLast_append_of_ne_nil (by simp)]
  exact List.mem_append_right _ (List.mem_append_left _ member)

theorem strippedClosed {raw : List Char} (closed : Closed raw) : ∃ front, raw = front ++ (strip (String.ofList raw)).toList ∧
    Closed (strip (String.ofList raw)).toList := by
  obtain ⟨start, c, rfl, ends⟩ := closed
  obtain ⟨front, back, parts, blank, blank'⟩ := stripParts (String.ofList (start ++ [c]))
  rw [String.toList_ofList] at parts
  generalize (strip (String.ofList (start ++ [c]))).toList = s at parts ⊢
  have visible : isSpace c = false := terminatorSpace ends
  have bare : back = [] := by
    rcases List.eq_nil_or_concat back with none | ⟨init, last, rfl⟩
    · exact none
    · have same : c = last := by simpa using congrArg List.getLast? parts
      have blankLast := blank' last (by simp)
      simp [← same, visible] at blankLast
  subst bare
  rw [List.append_nil] at parts
  rcases List.eq_nil_or_concat s with none | ⟨init, last, rfl⟩
  · subst none
    rw [List.append_nil] at parts
    have blankLast := blank c (by rw [← parts]; simp)
    simp [visible] at blankLast
  · have same : c = last := by simpa using congrArg List.getLast? parts
    exact ⟨front, parts, init, last, List.concat_eq_append, same ▸ ends⟩

theorem sentenceStands {text s : String} (member : s ∈ sentences text) :
    s.toList ≠ [] ∧ ∃ front back, StandsIn text.toList s.toList front back := by
  obtain ⟨raw, inside, rfl, some⟩ := sentenceRaw member
  refine ⟨some, ?_⟩
  obtain ⟨before, after, split, inner, tail⟩ := sentencesFromStand (by simp) text.toList raw inside
  rw [List.reverse_nil, List.nil_append] at split
  rcases tail with closed | ⟨plain, blankAfter⟩
  · obtain ⟨front, parts, still⟩ := strippedClosed closed
    generalize (strip (String.ofList raw)).toList = s at parts still some ⊢
    subst parts
    refine ⟨before ++ front, after, by simp [split], fun c member => inner c ?_, .inl still⟩
    rw [← List.append_nil (front ++ s)]
    exact dropLastInside member
  · obtain ⟨front, back, parts, _, blank⟩ := stripParts (String.ofList raw)
    rw [String.toList_ofList] at parts
    generalize (strip (String.ofList raw)).toList = s at parts some ⊢
    subst parts
    refine ⟨before ++ front, back ++ after, by simp [split], fun c member => inner c (dropLastInside member),
      .inr ⟨fun c member => plain c (by simp [member]), fun c member => ?_⟩⟩
    exact (List.mem_append.mp member).elim (blank c) (blankAfter c)

theorem sentencesFromClosed (cur xs : List Char) : (sentencesFrom cur xs).Pairwise (fun a _ => Closed a) := by
  induction xs generalizing cur with
  | nil =>
    simp only [sentencesFrom]
    split <;> simp
  | cons c rest ih =>
    simp only [sentencesFrom]
    split
    · rename_i ends
      split
      · exact ih []
      · exact List.pairwise_cons.mpr ⟨fun _ _ => ⟨cur.reverse, c, List.reverse_cons, ends⟩, ih []⟩
    · exact ih (c :: cur)

theorem sentencesClosed (text : String) : (sentences text).Pairwise (fun a _ => Closed a.toList) := by
  refine List.Pairwise.filter _ (List.pairwise_map.mpr ((sentencesFromClosed [] text.toList).imp fun closed => ?_))
  obtain ⟨_, _, still⟩ := strippedClosed closed
  exact still

section SentenceRuns
variable {p : Char → Bool} {f : Char → List Char} (ends : ∀ c, isTerminator c → Separates p f c)
include ends

theorem sentencesFromRuns (cur xs : List Char) :
    (sentencesFrom cur xs).flatMap (fun raw => runs p (raw.flatMap f)) = runs p ((cur.reverse ++ xs).flatMap f) := by
  induction xs generalizing cur with
  | nil =>
    simp only [sentencesFrom]
    split
    · rename_i empty
      rw [List.isEmpty_iff.mp empty]
      rfl
    · simp
  | cons c rest ih =>
    have onward := ih []
    rw [List.reverse_nil, List.nil_append] at onward
    simp only [sentencesFrom]
    split
    · rename_i stop
      have cut : runs p ((cur.reverse ++ c :: rest).flatMap f) = runs p (cur.reverse.flatMap f) ++ runs p (rest.flatMap f) :=
        separatedRuns (ends c stop) [] _ _
      split
      · rename_i empty
        rw [onward, cut, List.isEmpty_iff.mp empty]
        rfl
      · rw [List.flatMap_cons, onward, cut, List.reverse_cons, separatedBack (by simpa using ends c stop)]
    · rw [ih (c :: cur), List.reverse_cons, List.append_assoc, List.singleton_append]

theorem sentencesRuns (spaces : ∀ c, isSpace c → Separates p f c) (text : String) :
    (sentences text).flatMap (fun s => runs p (s.toList.flatMap f)) = runs p (text.toList.flatMap f) := by
  have cut := sentencesFromRuns ends [] text.toList
  rw [List.reverse_nil, List.nil_append] at cut
  rw [← cut, sentences]
  induction sentencesFrom [] text.toList with
  | nil => rfl
  | cons raw rest ih =>
    have same : runs p ((strip (String.ofList raw)).toList.flatMap f) = runs p (raw.flatMap f) := by
      simpa using strippedRuns spaces (String.ofList raw)
    rw [List.map_cons, List.filter_cons, List.flatMap_cons, ← same]
    split
    · rw [List.flatMap_cons, ih]
    · rename_i empty
      have none : strip (String.ofList raw) = "" := by simpa using empty
      rw [ih, none]
      rfl

end SentenceRuns

theorem joinedRuns {p : Char → Bool} {f : Char → List Char} (blank : Separates p f ' ') (ss : List String) :
    runs p ((" ".intercalate ss).toList.flatMap f) = ss.flatMap (fun s => runs p (s.toList.flatMap f)) := by
  have joined : ∀ l : List (List Char), runs p ([' '].intercalate l |>.flatMap f) = l.flatMap (fun s => runs p (s.flatMap f)) := by
    intro l
    induction l with
    | nil => rfl
    | cons s rest ih =>
      cases rest with
      | nil => simp [List.intercalate]
      | cons next rest =>
        have cut := separatedRuns blank [] s ([' '].intercalate (next :: rest))
        rw [List.flatMap_cons, ← ih]
        simpa [List.intercalate, runs] using cut
  rw [String.toList_intercalate, show " ".toList = [' '] from rfl, joined, List.flatMap_map]

section Selection
variable [Builtins]

-- the sentences that the greedy pass selects, in the order of the text
def keptSentences (text : String) (targetTokens : Int) (tokenizer : Tokenizer) (query : Option String) : List String :=
  let q := match query with
    | some query => tokenize query
    | none => []
  let scored := (sentences text).zipIdx.map (fun si => (si.2, si.1, sentenceScore q si.2 si.1))
  let kept := keepLoop targetTokens tokenizer.count [] 0 (scored.insertionSort (fun a b => b.2.2 ≤ a.2.2))
  (scored.filter (fun s => s.1 ∈ kept)).map (fun s => s.2.1)

variable {text : String} {targetTokens : Int} {tokenizer : Tokenizer} {query : Option String}

theorem extractiveEmpty (none : sentences text = []) : extractive text targetTokens tokenizer query = text := by
  simp [extractive, none]

theorem extractiveKept (some : sentences text ≠ []) :
    extractive text targetTokens tokenizer query = " ".intercalate (keptSentences text targetTokens tokenizer query) := by
  unfold extractive
  dsimp only
  rw [if_neg (by simpa using some)]
  cases query <;> rfl

variable (text targetTokens tokenizer query) in
theorem keptSublist : (keptSentences text targetTokens tokenizer query).Sublist (sentences text) := by
  have all : ((sentences text).zipIdx.map Prod.fst) = sentences text := List.zipIdx_map_fst 0 _
  refine (List.filter_sublist.map _).trans ?_
  rw [List.map_map]
  show ((sentences text).zipIdx.map Prod.fst).Sublist (sentences text)
  rw [all]

omit [Builtins] in
theorem keepLoopKeeps {target : Int} {count : String → Int} {i : Nat} {l : List (Nat × String × Rat)} {kept : List Nat} {used : Int}
    (member : i ∈ kept) : i ∈ keepLoop target count kept used l := by
  induction l generalizing kept used with
  | nil => exact member
  | cons entry rest ih =>
    obtain ⟨j, s, score⟩ := entry
    simp only [keepLoop]
    split
    · exact ih member
    · split
      · exact List.mem_append_left _ member
      · exact ih (List.mem_append_left _ member)

omit [Builtins] in
theorem keepLoopFirst (target : Int) (count : String → Int) (entry : Nat × String × Rat) (rest : List (Nat × String × Rat)) :
    entry.1 ∈ keepLoop target count [] 0 (entry :: rest) := by
  obtain ⟨i, s, score⟩ := entry
  simp only [keepLoop, List.isEmpty_nil, not_true, and_false, if_false, List.nil_append]
  split
  · exact List.mem_singleton_self i
  · exact keepLoopKeeps (List.mem_singleton_self i)

theorem keptSome (some : sentences text ≠ []) : keptSentences text targetTokens tokenizer query ≠ [] := by
  unfold keptSentences
  dsimp only
  generalize (match query with | .some query => tokenize query | none => []) = q
  generalize scoredIs : (sentences text).zipIdx.map (fun si => (si.2, si.1, sentenceScore q si.2 si.1)) = scored
  have filled : scored.insertionSort (fun a b => b.2.2 ≤ a.2.2) ≠ [] := by
    intro empty
    have none := congrArg List.length empty
    rw [List.length_insertionSort, ← scoredIs] at none
    simp [some] at none
  obtain ⟨first, rest, sorted⟩ := List.exists_cons_of_ne_nil filled
  have inside : first ∈ scored := (List.mem_insertionSort _).mp (sorted ▸ List.mem_cons_self)
  have kept := keepLoopFirst targetTokens tokenizer.count first rest
  rw [sorted]
  refine List.ne_nil_of_mem (List.mem_map.mpr ⟨first, List.mem_filter.mpr ⟨inside, ?_⟩, rfl⟩)
  exact decide_eq_true kept

end Selection

/-! ### The returned text -/

section Returned
variable [Builtins]

-- the backend's reply, where the compressor returns it
def acceptedReply (text : String) (targetTokens : Int) (tokenizer : Tokenizer) (query : Option String)
    (llm : Option (ChatRequest → Except String ChatResponse)) : Option String :=
  let structured := structural text
  let extracted := extractive structured targetTokens tokenizer query
  match llm with
  | none => none
  | some generate =>
    if targetTokens < tokenizer.count extracted then
      (abstractive structured targetTokens generate).filter (fun summary =>
        !summary.isEmpty && factRetentionOk text summary && tokenizer.count summary ≤ tokenizer.count extracted)
    else none

theorem acceptedFacts {text : String} {targetTokens : Int} {tokenizer : Tokenizer} {query : Option String}
    {llm : Option (ChatRequest → Except String ChatResponse)} {summary : String}
    (accepted : acceptedReply text targetTokens tokenizer query llm = some summary) : factRetentionOk text summary := by
  unfold acceptedReply at accepted
  dsimp only at accepted
  split at accepted <;> try contradiction
  split at accepted <;> try contradiction
  have passed := (Option.filter_eq_some_iff.mp accepted).2
  simp only [Bool.and_eq_true] at passed
  exact passed.1.2

-- which of the tiers' texts is returned
def returnedText (text : String) (targetTokens : Int) (tokenizer : Tokenizer) (query : Option String)
    (llm : Option (ChatRequest → Except String ChatResponse)) : String :=
  let structured := structural text
  let extracted := extractive structured targetTokens tokenizer query
  if tokenizer.count structured ≤ targetTokens then structured
  else if !factRetentionOk text extracted then structured
  else (acceptedReply text targetTokens tokenizer query llm).getD extracted

structure Returned (text : String) (targetTokens : Int) (tokenizer : Tokenizer) (query : Option String)
    (llm : Option (ChatRequest → Except String ChatResponse)) (block : CompressedBlock) : Prop where
  returned : block.text = returnedText text targetTokens tokenizer query llm
  original : block.originalTokens = tokenizer.count text
  counted : block.compressedTokens = tokenizer.count block.text
  guarded : block.guardPassed = true ↔ tokenizer.count (structural text) ≤ targetTokens ∨
    factRetentionOk text (extractive (structural text) targetTokens tokenizer query)

theorem returnedBlock {text result tier : String} {targetTokens : Int} {tokenizer : Tokenizer} {query : Option String}
    {llm : Option (ChatRequest → Except String ChatResponse)} {guard : Bool}
    (returned : returnedText text targetTokens tokenizer query llm = result)
    (guarded : guard = true ↔ tokenizer.count (structural text) ≤ targetTokens ∨
      factRetentionOk text (extractive (structural text) targetTokens tokenizer query)) :
    Returned text targetTokens tokenizer query llm ⟨result, tokenizer.count text, tokenizer.count result, tier, guard⟩ :=
  ⟨returned.symm, rfl, rfl, guarded⟩

theorem compressReturned (text : String) (targetTokens : Int) (tokenizer : Tokenizer) (query : Option String)
    (llm : Option (ChatRequest → Except String ChatResponse)) :
    Returned text targetTokens tokenizer query llm (compress text targetTokens tokenizer query llm) := by
  unfold compress
  dsimp only
  split
  · rename_i fits
    exact returnedBlock (by simp [returnedText, fits]) (by simp [fits])
  · rename_i large
    split
    · rename_i refused
      exact returnedBlock (by simp [returnedText, large, refused]) (by simpa [large] using refused)
    · rename_i passed
      have ok : factRetentionOk text (extractive (structural text) targetTokens tokenizer query) = true := by simpa using passed
      -- the extract is returned wherever no reply is
      have fallback {tier : String} (unused : acceptedReply text targetTokens tokenizer query llm = none) :
          Returned text targetTokens tokenizer query llm ⟨extractive (structural text) targetTokens tokenizer query,
            tokenizer.count text, tokenizer.count (extractive (structural text) targetTokens tokenizer query), tier, true⟩ :=
        returnedBlock (by simp [returnedText, large, ok, unused]) (by simp [ok])
      split
      · exact fallback rfl
      · rename_i generate
        split
        · rename_i excess
          split
          · rename_i failed
            exact fallback (by simp [acceptedReply, excess, failed])
          · rename_i summary replied
            split
            · rename_i good
              split
              · rename_i short
                have accepted : acceptedReply text targetTokens tokenizer query (some generate) = some summary := by
                  simp only [acceptedReply, excess, if_true, replied, Option.filter_some, good, short, decide_true, Bool.and_self]
                exact returnedBlock (by simp [returnedText, large, ok, accepted]) (by simp [ok])
              · rename_i long
                exact fallback (by simp [acceptedReply, excess, replied, Option.filter, long])
            · rename_i bad
              exact fallback (by simp [acceptedReply, excess, replied, Option.filter, bad])
        · rename_i enough
          exact fallback (by simp [acceptedReply, enough])

end Returned
end ContextOS
