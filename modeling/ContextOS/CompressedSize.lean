import ContextOS.Executable
import ContextOS.Lib.Join
import ContextOS.Sentences
import Mathlib.Algebra.Order.Floor.Ring

/-! The size of a compressed text. Squeezing and selecting only take away, but the greedy
pass charges each sentence alone and the join puts a blank between two: the selection can
be larger than the target, and larger than the text. -/
namespace ContextOS
open Lib (joinLength)

namespace HeuristicTokenizer

theorem countMono (t : HeuristicTokenizer) {short long : String} (le : short.length ≤ long.length) : t.count short ≤ t.count long := by
  rw [countOfLength, countOfLength]
  unfold countLength
  split
  · split
    · exact le_refl 0
    · exact le_trans (by decide) (le_max_left 1 _)
  · rename_i some
    rw [if_neg (by omega)]
    have cast : (short.length : Rat) ≤ long.length := by exact_mod_cast le
    rcases lt_or_gt_of_ne t.nonzero with negative | positive
    · have none : ⌈(short.length : Rat) / t.charsPerToken⌉ ≤ 1 :=
        Int.ceil_le.mpr ((div_nonpos_of_nonneg_of_nonpos (Nat.cast_nonneg _) negative.le).trans (by norm_num))
      rw [max_eq_left none]
      exact le_max_left 1 _
    · exact max_le_max_left 1 (Int.ceil_mono (div_le_div_of_nonneg_right cast positive.le))

@[simp] theorem toTokenizerCount (t : HeuristicTokenizer) (text : String) : t.toTokenizer.count text = t.count text := rfl

/-- The characters that a number of tokens has room for; with a negative ratio every text is one token. -/
def Room (t : HeuristicTokenizer) (targetTokens : Int) (length : Nat) : Prop :=
  t.charsPerToken < 0 ∨ (length : Rat) ≤ t.charsPerToken * targetTokens

theorem countRoom (t : HeuristicTokenizer) {targetTokens : Int} (positive : 1 ≤ targetTokens) (text : String) :
    t.count text ≤ targetTokens ↔ t.Room targetTokens text.length := by
  have target : (0 : Rat) < targetTokens := by exact_mod_cast positive
  rw [countOfLength, countLength, Room]
  rcases lt_or_gt_of_ne t.nonzero with negative | ratio
  · have none : ⌈(text.length : Rat) / t.charsPerToken⌉ ≤ 1 :=
      Int.ceil_le.mpr ((div_nonpos_of_nonneg_of_nonpos (Nat.cast_nonneg _) negative.le).trans (by norm_num))
    refine iff_of_true ?_ (.inl negative)
    split
    · omega
    · exact (max_le (le_refl 1) none).trans positive
  · have room : (text.length : Rat) ≤ t.charsPerToken * targetTokens ↔ ⌈(text.length : Rat) / t.charsPerToken⌉ ≤ targetTokens := by
      rw [Int.ceil_le, div_le_iff₀ ratio, mul_comm]
    rw [or_iff_right (not_lt.mpr ratio.le), room]
    split
    · rename_i empty
      simp only [empty, Nat.cast_zero, zero_div, Int.ceil_zero]
    · exact ⟨fun fits => (le_max_right _ _).trans fits, fun fits => max_le positive fits⟩

end HeuristicTokenizer

/-! ### Taking away -/

theorem squeezeBlanksLength (inRun : Bool) (xs : List Char) : (squeezeBlanks inRun xs).length ≤ xs.length := by
  induction xs generalizing inRun with
  | nil => exact le_refl _
  | cons c rest ih =>
    unfold squeezeBlanks
    split
    · split
      · exact (ih true).trans (by simp)
      · simpa using ih true
    · simpa using ih false

theorem squeezeNewlinesLength (seen : Nat) (xs : List Char) : (squeezeNewlines seen xs).length ≤ xs.length := by
  induction xs generalizing seen with
  | nil => exact le_refl _
  | cons c rest ih =>
    unfold squeezeNewlines
    split
    · split
      · exact (ih seen).trans (by simp)
      · simpa using ih (seen + 1)
    · simpa using ih 0

theorem stripLength (text : String) : (strip text).length ≤ text.length := by
  obtain ⟨front, back, parts, _⟩ := stripParts text
  rw [← String.length_toList, ← String.length_toList, parts]
  simp
  omega

theorem structuralLength (text : String) : (structural text).length ≤ text.length := by
  refine (stripLength _).trans ?_
  rw [String.length_ofList, ← String.length_toList]
  exact (squeezeNewlinesLength _ _).trans (squeezeBlanksLength _ _)

theorem sentencesFromLength (cur xs : List Char) : ((sentencesFrom cur xs).map List.length).sum ≤ cur.length + xs.length := by
  induction xs generalizing cur with
  | nil =>
    rw [sentencesFrom]
    split <;> simp
  | cons c rest ih =>
    have onward := ih []
    rw [sentencesFrom]
    split
    · split
      · simp only [List.length_nil, List.length_cons] at onward ⊢
        omega
      · simp only [List.map_cons, List.sum_cons, List.length_reverse, List.length_cons, List.length_nil] at onward ⊢
        omega
    · have pushed := ih (c :: cur)
      simp only [List.length_cons] at pushed ⊢
      omega

theorem sentencesLength (text : String) : ((sentences text).map String.length).sum ≤ text.length := by
  have raw := sentencesFromLength [] text.toList
  rw [List.length_nil, Nat.zero_add, String.length_toList] at raw
  refine le_trans ?_ raw
  rw [sentences]
  induction sentencesFrom [] text.toList with
  | nil => exact le_refl _
  | cons first rest ih =>
    have shorter := stripLength (String.ofList first)
    rw [String.length_ofList] at shorter
    rw [List.map_cons, List.filter_cons]
    split
    · simp only [List.map_cons, List.sum_cons]
      omega
    · simp only [List.map_cons, List.sum_cons]
      omega

theorem sentenceLength {text s : String} (member : s ∈ sentences text) : s.length ≤ text.length :=
  (List.single_le_sum (fun _ _ => Nat.zero_le _) _ (List.mem_map.mpr ⟨s, member, rfl⟩)).trans (sentencesLength text)

-- the splitter finds no other sentence in the text than the text
def Unsplit (text : String) : Prop := ∀ s ∈ sentences text, s = text

theorem sentencesFromPlain {xs : List Char} (plain : ∀ c ∈ xs, isTerminator c = false) (cur ys : List Char) :
    sentencesFrom cur (xs ++ ys) = sentencesFrom (xs.reverse ++ cur) ys := by
  induction xs generalizing cur with
  | nil => rfl
  | cons c rest ih =>
    obtain ⟨here, later⟩ := List.forall_mem_cons.mp plain
    rw [List.cons_append, sentencesFrom, if_neg (by simp [here]), ih later]
    simp

theorem edgedStrip {s : String} (edged : Edged s.toList) : strip s = s := by
  obtain ⟨front, back, parts, blank, blank'⟩ := stripParts s
  have bare : front = [] := by
    cases front with
    | nil => rfl
    | cons c front =>
      have visible := edged.first c (by rw [parts]; rfl)
      simp [blank c List.mem_cons_self] at visible
  have bare' : back = [] := by
    rcases List.eq_nil_or_concat back with none | ⟨init, c, rfl⟩
    · exact none
    · have visible := edged.last c (by rw [parts]; simp)
      simp [blank' c (by simp)] at visible
  subst bare bare'
  exact String.toList_inj.mp (by simpa using parts.symm)

theorem sentenceUnsplit {text s : String} (member : s ∈ sentences text) : Unsplit s := by
  obtain ⟨raw, _, stripped, _⟩ := sentenceRaw member
  obtain ⟨_, front, back, stands⟩ := sentenceStands member
  intro found inside
  obtain ⟨whole, read, rfl, _⟩ := sentenceRaw inside
  have same : whole = s.toList := by
    rcases stands.tail with ⟨start, c, split, ends⟩ | ⟨plain, _⟩
    · have plain : ∀ x ∈ start, isTerminator x = false := by simpa [split] using stands.inner
      rw [split, sentencesFromPlain plain] at read
      simp only [sentencesFrom, ends, if_true] at read
      split at read
      · simp at read
      · rw [split]
        simpa using read
    · rw [← List.append_nil s.toList, sentencesFromPlain plain, sentencesFrom] at read
      split at read
      · simp at read
      · simpa using read
  rw [same, String.ofList_toList]
  refine edgedStrip ?_
  rw [stripped]
  exact stripEdged _

/-! ### Several sentences -/

theorem sentencesFromHolds {cur xs : List Char} {x : Char} (member : x ∈ cur) : ∃ raw ∈ sentencesFrom cur xs, x ∈ raw := by
  induction xs generalizing cur with
  | nil =>
    rw [sentencesFrom, if_neg (by simpa using List.ne_nil_of_mem member)]
    exact ⟨_, List.mem_singleton_self _, List.mem_reverse.mpr member⟩
  | cons c rest ih =>
    rw [sentencesFrom]
    split
    · rw [if_neg (by simpa using List.ne_nil_of_mem member)]
      exact ⟨_, List.mem_cons_self, List.mem_reverse.mpr (List.mem_cons_of_mem _ member)⟩
    · exact ih (List.mem_cons_of_mem _ member)

theorem sentencesFromAfterBlank (xs cur : List Char) (c : Char) (ys : List Char) :
    ∃ raw ∈ sentencesFrom cur (xs ++ ' ' :: c :: ys), c ∈ raw := by
  induction xs generalizing cur with
  | nil =>
    rw [List.nil_append, sentencesFrom, if_neg (by decide), sentencesFrom]
    split
    · exact ⟨_, List.mem_cons_self, by simp⟩
    · exact sentencesFromHolds List.mem_cons_self
  | cons x rest ih =>
    rw [List.cons_append, sentencesFrom]
    split
    · split
      · exact ih []
      · obtain ⟨raw, later, inside⟩ := ih []
        exact ⟨raw, List.mem_cons_of_mem _ later, inside⟩
    · exact ih (x :: cur)

theorem stripHolds {raw : List Char} {c : Char} (member : c ∈ raw) (visible : isSpace c = false) :
    c ∈ (strip (String.ofList raw)).toList := by
  obtain ⟨front, back, parts, blank, blank'⟩ := stripParts (String.ofList raw)
  rw [String.toList_ofList] at parts
  rw [parts, List.mem_append, List.mem_append] at member
  rcases member with (inFront | inside) | inBack
  · simp [blank c inFront] at visible
  · exact inside
  · simp [blank' c inBack] at visible

theorem splitAfterBlank {text : String} {front : List Char} {stop c : Char} (ends : isTerminator stop)
    (visible : isSpace c = false) (split : ∃ back, text.toList = front ++ stop :: ' ' :: c :: back) : ¬ Unsplit text := by
  intro unsplit
  obtain ⟨back, split⟩ := split
  obtain ⟨raw, member, inside⟩ := sentencesFromAfterBlank (front ++ [stop]) [] c back
  rw [List.append_assoc, List.singleton_append, ← split] at member
  have some : strip (String.ofList raw) ≠ "" := fun empty => by
    have held := stripHolds inside visible
    rw [empty] at held
    simp at held
  have listed : strip (String.ofList raw) ∈ sentences text :=
    List.mem_filter.mpr ⟨List.mem_map.mpr ⟨raw, member, rfl⟩, by simpa using some⟩
  obtain ⟨_, before, after, stands⟩ := sentenceStands listed
  have whole := congrArg String.toList (unsplit _ listed)
  have inner := stands.inner stop (by rw [whole, split, List.dropLast_append_of_ne_nil (by simp)]; simp)
  simp [ends] at inner

section Kept
variable [Builtins] {text : String} {targetTokens : Int} {tokenizer : Tokenizer} {query : Option String}

theorem keptSplit {first second : String} {rest : List String}
    (kept : keptSentences text targetTokens tokenizer query = first :: second :: rest) :
    ¬ Unsplit (" ".intercalate (keptSentences text targetTokens tokenizer query)) := by
  have inside := (keptSublist text targetTokens tokenizer query).subset
  have closed := (sentencesClosed text).sublist (keptSublist text targetTokens tokenizer query)
  rw [kept] at inside closed ⊢
  obtain ⟨front, stop, cut, ends⟩ := (List.pairwise_cons.mp closed).1 second List.mem_cons_self
  obtain ⟨raw, _, stripped, some⟩ := sentenceRaw (inside (List.mem_cons_of_mem _ List.mem_cons_self))
  obtain ⟨c, word, starts⟩ := List.exists_cons_of_ne_nil some
  have edged : Edged second.toList := stripped ▸ stripEdged _
  have visible := edged.first c (by rw [starts]; rfl)
  obtain ⟨more, joined⟩ : ∃ more, (" ".intercalate (second :: rest)).toList = c :: word ++ more := by
    cases rest with
    | nil => exact ⟨[], by simp [starts]⟩
    | cons third rest => exact ⟨_, by rw [String.intercalate_cons_cons, String.toList_append, String.toList_append, starts, List.append_assoc]⟩
  have split : ∃ back, (" ".intercalate (first :: second :: rest)).toList = front ++ stop :: ' ' :: c :: back := by
    refine ⟨word ++ more, ?_⟩
    rw [String.intercalate_cons_cons, String.toList_append, String.toList_append, cut, joined]
    simp
  exact splitAfterBlank ends visible split

theorem joinedLength (some : sentences text ≠ []) : (" ".intercalate (keptSentences text targetTokens tokenizer query)).length =
    ((keptSentences text targetTokens tokenizer query).map String.length).sum +
      ((keptSentences text targetTokens tokenizer query).length - 1) := by
  have kept : keptSentences text targetTokens tokenizer query ≠ [] := keptSome some
  have length := joinLength ' ' _ kept
  have counted : ∀ l : List String, (l.map (fun s => s.length + 1)).sum = (l.map String.length).sum + l.length := by
    intro l
    induction l with
    | nil => rfl
    | cons s rest ih =>
      simp only [List.map_cons, List.sum_cons, ih, List.length_cons]
      omega
  have least := List.length_pos_iff.mpr kept
  rw [counted] at length
  change (" ".intercalate _).length + 1 = _ at length
  omega

theorem keptLength : ((keptSentences text targetTokens tokenizer query).map String.length).sum ≤ text.length :=
  (((keptSublist text targetTokens tokenizer query).map String.length).sum_le_sum fun _ _ => Nat.zero_le _).trans (sentencesLength text)

theorem keptUnsplit (some : sentences text ≠ []) (unsplit : Unsplit text) :
    (keptSentences text targetTokens tokenizer query).length = 1 := by
  have length : ((keptSentences text targetTokens tokenizer query).map String.length).sum ≤ text.length := keptLength
  have inside := (keptSublist text targetTokens tokenizer query).subset
  have filled : keptSentences text targetTokens tokenizer query ≠ [] := keptSome some
  match keptSentences text targetTokens tokenizer query, inside, length, filled with
  | [], _, _, filled => exact absurd rfl filled
  | [_], _, _, _ => rfl
  | first :: second :: rest, inside, length, _ =>
    have whole := unsplit first (inside List.mem_cons_self)
    have whole' := unsplit second (inside (List.mem_cons_of_mem _ List.mem_cons_self))
    obtain ⟨visible, _⟩ := sentenceStands (inside List.mem_cons_self)
    have positive := List.length_pos_iff.mpr visible
    rw [String.length_toList, whole] at positive
    simp only [List.map_cons, List.sum_cons, whole, whole'] at length
    omega

end Kept

/-! ### The size -/

section Size
variable [Builtins]

/-- The block is no larger than the text, and as small as asked unless nothing could be left out. -/
structure Shrinks (targetTokens : Int) (block : CompressedBlock) : Prop where
  grown : block.compressedTokens ≤ block.originalTokens
  ratio : 1 ≤ block.ratio
  met : block.compressedTokens ≤ targetTokens ∨ Unsplit block.text

-- the blanks between the kept sentences fit into what the target leaves of them
def BlanksFit (t : HeuristicTokenizer) (text : String) (targetTokens : Int) (query : Option String) : Prop :=
  let structured := structural text
  let kept := keptSentences structured targetTokens t.toTokenizer query
  t.count structured ≤ targetTokens ∨ Unsplit structured ∨
    factRetentionOk text (extractive structured targetTokens t.toTokenizer query) ∧
      (kept.length = 1 ∨ t.Room targetTokens ((kept.map String.length).sum + (kept.length - 1)))

omit [Builtins] in
theorem shrinksReturned {t : HeuristicTokenizer} {text : String} {targetTokens : Int} {block : CompressedBlock}
    (original : block.originalTokens = t.count text) (counted : block.compressedTokens = t.count block.text) :
    Shrinks targetTokens block ↔
      t.count block.text ≤ t.count text ∧ (t.count block.text ≤ targetTokens ∨ Unsplit block.text) := by
  constructor
  · intro shrinks
    exact ⟨by rw [← original, ← counted]; exact shrinks.grown, by rw [← counted]; exact shrinks.met⟩
  · intro given
    obtain ⟨grown, met⟩ := given
    refine ⟨by rw [original, counted]; exact grown, ?_, by rw [counted]; exact met⟩
    rw [CompressedBlock.ratio, original, counted]
    split
    · exact le_refl 1
    · rename_i some
      have positive : (0 : Rat) < t.count block.text := by
        exact_mod_cast lt_of_le_of_ne (t.countNonneg block.text) (Ne.symm some)
      rw [le_div_iff₀ positive, one_mul]
      exact_mod_cast grown

theorem selectionShrinks (t : HeuristicTokenizer) {text structured : String} {targetTokens : Int} (positive : 1 ≤ targetTokens)
    (query : Option String) (some : sentences structured ≠ []) (large : ¬ t.count structured ≤ targetTokens)
    (smaller : t.count structured ≤ t.count text) :
    let kept := keptSentences structured targetTokens t.toTokenizer query
    t.count (" ".intercalate kept) ≤ t.count text ∧ (t.count (" ".intercalate kept) ≤ targetTokens ∨ Unsplit (" ".intercalate kept)) ↔
      kept.length = 1 ∨ t.Room targetTokens ((kept.map String.length).sum + (kept.length - 1)) := by
  intro kept
  have filled : kept ≠ [] := keptSome some
  have inside : kept ⊆ sentences structured := (keptSublist structured targetTokens t.toTokenizer query).subset
  have room : t.count (" ".intercalate kept) ≤ targetTokens ↔ t.Room targetTokens ((kept.map String.length).sum + (kept.length - 1)) := by
    rw [t.countRoom positive, joinedLength some]
  have split : ∀ first second rest, kept = first :: second :: rest → ¬ Unsplit (" ".intercalate kept) :=
    fun first second rest cut => keptSplit cut
  clear_value kept
  match kept, filled with
  | [s], _ =>
    have member := inside List.mem_cons_self
    rw [String.intercalate_singleton]
    exact iff_of_true ⟨(t.countMono (sentenceLength member)).trans smaller, .inr (sentenceUnsplit member)⟩ (.inl rfl)
  | first :: second :: rest, _ =>
    rw [← room]
    constructor
    · intro given
      exact .inr (given.2.resolve_right (split _ _ _ rfl))
    · intro given
      have fits := given.resolve_left (by simp)
      exact ⟨(fits.trans (not_le.mp large).le).trans smaller, .inl fits⟩

end Size

end ContextOS
