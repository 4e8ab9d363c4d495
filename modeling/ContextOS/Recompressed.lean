import ContextOS.CompressedSize
import ContextOS.Executable

/-! Compressing again changes nothing, but for a sentence end that stands alone in front. The
structural tier's texts are its own fixed points, and the extractive tier's are such texts
too: their sentences are the ones that were kept, and what was kept once fits again. -/
namespace ContextOS

-- single spaces and no tabs; the flag says that the text before ends in a space
def spaced : Bool → List Char → Bool
  | _, [] => true
  | inRun, c :: rest => if c = ' ' ∨ c = '\t' then c = ' ' && !inRun && spaced true rest else spaced false rest

-- at most two newlines in a row; the number is that of newlines before
def lined : Nat → List Char → Bool
  | _, [] => true
  | seen, c :: rest => if c = '\n' then seen < 2 && lined (seen + 1) rest else lined 0 rest

structure Neat (s : List Char) : Prop where
  spaced : spaced false s
  lined : lined 0 s
  edged : Edged s

theorem squeezedSpaced (inRun : Bool) (xs : List Char) : spaced inRun (squeezeBlanks inRun xs) := by
  induction xs generalizing inRun with
  | nil => rfl
  | cons c rest ih =>
    rw [squeezeBlanks]
    by_cases blank : c = ' ' ∨ c = '\t'
    · cases inRun with
      | true => simpa [blank] using ih true
      | false => simpa [blank, spaced] using ih true
    · simpa [blank, spaced] using ih false

theorem spacedFixed {inRun : Bool} {xs : List Char} (neat : spaced inRun xs) : squeezeBlanks inRun xs = xs := by
  induction xs generalizing inRun with
  | nil => rfl
  | cons c rest ih =>
    rw [spaced] at neat
    rw [squeezeBlanks]
    by_cases blank : c = ' ' ∨ c = '\t'
    · rw [if_pos blank] at neat ⊢
      simp only [Bool.and_eq_true, decide_eq_true_eq, Bool.not_eq_true'] at neat
      obtain ⟨⟨rfl, fresh⟩, later⟩ := neat
      rw [fresh, ih later]
      rfl
    · rw [if_neg blank] at neat ⊢
      rw [ih neat]

theorem squeezedLined (seen : Nat) (xs : List Char) : lined seen (squeezeNewlines seen xs) := by
  induction xs generalizing seen with
  | nil => rfl
  | cons c rest ih =>
    rw [squeezeNewlines]
    by_cases newline : c = '\n'
    · by_cases full : 2 ≤ seen
      · simpa [newline, full] using ih seen
      · have room : seen < 2 := by omega
        simpa [newline, full, lined, room] using ih (seen + 1)
    · simpa [newline, lined] using ih 0

theorem linedFixed {seen : Nat} {xs : List Char} (neat : lined seen xs) : squeezeNewlines seen xs = xs := by
  induction xs generalizing seen with
  | nil => rfl
  | cons c rest ih =>
    rw [lined] at neat
    rw [squeezeNewlines]
    by_cases newline : c = '\n'
    · rw [if_pos newline] at neat ⊢
      simp only [Bool.and_eq_true, decide_eq_true_eq] at neat
      rw [if_neg (by omega), ih neat.2]
    · rw [if_neg newline] at neat ⊢
      rw [ih neat]

theorem spacedWeaken {xs : List Char} (neat : spaced true xs) : spaced false xs := by
  cases xs with
  | nil => rfl
  | cons c rest =>
    rw [spaced] at neat ⊢
    split <;> simp_all

theorem linedWeaken {seen : Nat} {xs : List Char} (neat : lined seen xs) : lined 0 xs := by
  induction seen generalizing xs with
  | zero => exact neat
  | succ seen ih =>
    refine ih ?_
    clear ih
    induction xs generalizing seen with
    | nil => rfl
    | cons c rest step =>
      rw [lined] at neat ⊢
      split
      · rename_i newline
        rw [if_pos newline] at neat
        simp only [Bool.and_eq_true, decide_eq_true_eq] at neat ⊢
        exact ⟨by omega, step (seen + 1) neat.2⟩
      · rename_i other
        rwa [if_neg other] at neat

-- a newline is dropped only behind another, where no space can be next to the one that follows
theorem linedSpaced {seen : Nat} {inRun : Bool} {xs : List Char} (neat : spaced inRun xs) (fresh : 0 < seen → inRun = false) :
    spaced inRun (squeezeNewlines seen xs) := by
  induction xs generalizing seen inRun with
  | nil => rfl
  | cons c rest ih =>
    rw [spaced] at neat
    rw [squeezeNewlines]
    by_cases newline : c = '\n'
    · subst newline
      rw [if_neg (by decide)] at neat
      rw [if_pos rfl]
      split
      · rename_i full
        rw [fresh (by omega)]
        exact ih neat (fun _ => rfl)
      · rw [spaced, if_neg (by decide)]
        exact ih neat (fun _ => rfl)
    · rw [if_neg newline, spaced]
      by_cases blank : c = ' ' ∨ c = '\t'
      · rw [if_pos blank] at neat ⊢
        simp only [Bool.and_eq_true, decide_eq_true_eq, Bool.not_eq_true'] at neat ⊢
        exact ⟨neat.1, ih neat.2 (by omega)⟩
      · rw [if_neg blank] at neat ⊢
        exact ih neat (by omega)

theorem spacedParts {inRun : Bool} {xs ys : List Char} (neat : spaced inRun (xs ++ ys)) : spaced inRun xs ∧ spaced false ys := by
  induction xs generalizing inRun with
  | nil =>
    cases inRun with
    | true => exact ⟨rfl, spacedWeaken neat⟩
    | false => exact ⟨rfl, neat⟩
  | cons c rest ih =>
    rw [List.cons_append, spaced] at neat
    rw [spaced]
    by_cases blank : c = ' ' ∨ c = '\t'
    · rw [if_pos blank] at neat ⊢
      simp only [Bool.and_eq_true] at neat ⊢
      exact ⟨⟨neat.1, (ih neat.2).1⟩, (ih neat.2).2⟩
    · rw [if_neg blank] at neat ⊢
      exact ih neat

theorem linedParts {seen : Nat} {xs ys : List Char} (neat : lined seen (xs ++ ys)) : lined seen xs ∧ lined 0 ys := by
  induction xs generalizing seen with
  | nil => exact ⟨rfl, linedWeaken neat⟩
  | cons c rest ih =>
    rw [List.cons_append, lined] at neat
    rw [lined]
    by_cases newline : c = '\n'
    · rw [if_pos newline] at neat ⊢
      simp only [Bool.and_eq_true] at neat ⊢
      exact ⟨⟨neat.1, (ih neat.2).1⟩, (ih neat.2).2⟩
    · rw [if_neg newline] at neat ⊢
      exact ih neat

theorem neatInside {front s back : List Char} (spaces : spaced false (front ++ s ++ back)) (lines : lined 0 (front ++ s ++ back))
    (edged : Edged s) : Neat s :=
  ⟨(spacedParts (spacedParts spaces).1).2, (linedParts (linedParts lines).1).2, edged⟩

theorem structuralNeat (text : String) : Neat (structural text).toList := by
  obtain ⟨front, back, parts, _, _⟩ := stripParts (String.ofList (squeezeNewlines 0 (squeezeBlanks false text.toList)))
  rw [String.toList_ofList] at parts
  have spaces := linedSpaced (squeezedSpaced false text.toList) (fun _ : 0 < 0 => rfl)
  have lines := squeezedLined 0 (squeezeBlanks false text.toList)
  rw [parts] at spaces lines
  exact neatInside spaces lines (stripEdged _)

theorem structuralFixed {text : String} (neat : Neat text.toList) : structural text = text := by
  rw [structural, spacedFixed neat.spaced, linedFixed neat.lined, String.ofList_toList]
  exact edgedStrip neat.edged

theorem sentenceNeat {text s : String} (neat : Neat text.toList) (member : s ∈ sentences text) : Neat s.toList := by
  obtain ⟨_, front, back, stands⟩ := sentenceStands member
  obtain ⟨_, _, stripped, _⟩ := sentenceRaw member
  have split := stands.split
  exact neatInside (split ▸ neat.spaced) (split ▸ neat.lined) (stripped ▸ stripEdged _)

theorem joinedTail (s : String) (rest : List String) :
    (" ".intercalate (s :: rest)).toList = s.toList ++ rest.flatMap (fun r => ' ' :: r.toList) := by
  induction rest generalizing s with
  | nil => simp
  | cons next rest ih =>
    rw [String.intercalate_cons_cons, String.toList_append, String.toList_append, ih, List.flatMap_cons]
    simp

theorem spacedJoin {inRun : Bool} {xs ys : List Char} (first : spaced inRun xs) (filled : xs ≠ [])
    (last : ∀ c, xs.getLast? = some c → isSpace c = false) (second : spaced true ys) : spaced inRun (xs ++ ' ' :: ys) := by
  induction xs generalizing inRun with
  | nil => contradiction
  | cons c rest ih =>
    rw [spaced] at first
    rw [List.cons_append, spaced]
    cases rest with
    | nil =>
      have visible := last c rfl
      have plain : ¬ (c = ' ' ∨ c = '\t') := by
        rintro (rfl | rfl) <;> revert visible <;> decide
      rw [if_neg plain]
      simpa [spaced] using second
    | cons d rest =>
      have later : ∀ inRun, spaced inRun (d :: rest) → spaced inRun (d :: rest ++ ' ' :: ys) :=
        fun inRun given => ih given (List.cons_ne_nil _ _) last
      split
      · rename_i blank
        rw [if_pos blank] at first
        simp only [Bool.and_eq_true] at first ⊢
        exact ⟨first.1, later true first.2⟩
      · rename_i plain
        rw [if_neg plain] at first
        exact later false first

theorem linedJoin {seen : Nat} {xs ys : List Char} (first : lined seen xs) (second : lined 0 ys) :
    lined seen (xs ++ ' ' :: ys) := by
  induction xs generalizing seen with
  | nil => simpa [lined] using second
  | cons c rest ih =>
    rw [lined] at first
    rw [List.cons_append, lined]
    split
    · rename_i newline
      rw [if_pos newline] at first
      simp only [Bool.and_eq_true] at first ⊢
      exact ⟨first.1, ih first.2⟩
    · rename_i other
      rw [if_neg other] at first
      exact ih first

theorem spacedFirst {s : List Char} (neat : Neat s) : spaced true s := by
  cases s with
  | nil => rfl
  | cons c rest =>
    have visible := neat.edged.first c rfl
    have plain : ¬ (c = ' ' ∨ c = '\t') := by
      rintro (rfl | rfl) <;> revert visible <;> decide
    have spaces := neat.spaced
    rw [spaced, if_neg plain] at spaces ⊢
    exact spaces

theorem neatPair {xs ys : List Char} (first : Neat xs) (second : Neat ys) (some : xs ≠ []) (some' : ys ≠ []) :
    Neat (xs ++ ' ' :: ys) := by
  refine ⟨spacedJoin first.spaced some first.edged.last (spacedFirst second), linedJoin first.lined second.lined, ?_⟩
  constructor
  · intro c given
    rw [List.head?_append_of_ne_nil _ some] at given
    exact first.edged.first c given
  · intro c given
    rw [List.getLast?_append_of_ne_nil _ (by simp), List.getLast?_cons_of_ne_nil some'] at given
    exact second.edged.last c given

theorem joinedNeat {ss : List String} (neat : ∀ s ∈ ss, Neat s.toList ∧ s.toList ≠ []) (some : ss ≠ []) :
    Neat (" ".intercalate ss).toList ∧ (" ".intercalate ss).toList ≠ [] := by
  induction ss with
  | nil => contradiction
  | cons s rest ih =>
    obtain ⟨here, later⟩ := List.forall_mem_cons.mp neat
    cases rest with
    | nil => simpa using here
    | cons next rest =>
      obtain ⟨joined, filled⟩ := ih later (by simp)
      have split : (" ".intercalate (s :: next :: rest)).toList = s.toList ++ ' ' :: (" ".intercalate (next :: rest)).toList := by
        rw [String.intercalate_cons_cons, String.toList_append, String.toList_append]
        simp
      rw [split]
      exact ⟨neatPair here.1 joined here.2 filled, by simp⟩

structure Sentence (s : String) : Prop where
  edged : Edged s.toList
  some : s.toList ≠ []
  inner : ∀ c ∈ s.toList.dropLast, isTerminator c = false

theorem sentenceFound {text s : String} (member : s ∈ sentences text) : Sentence s := by
  obtain ⟨some, front, back, stands⟩ := sentenceStands member
  obtain ⟨_, _, stripped, _⟩ := sentenceRaw member
  exact ⟨stripped ▸ stripEdged _, some, stands.inner⟩

theorem readClosed {cur s : List Char} (closed : Closed s) (inner : ∀ c ∈ s.dropLast, isTerminator c = false)
    (started : cur ≠ [] ∨ s.dropLast ≠ []) (ys : List Char) :
    sentencesFrom cur (s ++ ys) = (cur.reverse ++ s) :: sentencesFrom [] ys := by
  obtain ⟨front, c, rfl, ends⟩ := closed
  rw [List.dropLast_concat] at inner started
  have some : (front.reverse ++ cur).isEmpty = false := by
    rcases started with given | given <;> simp [given]
  rw [List.append_assoc, sentencesFromPlain inner, List.singleton_append, sentencesFrom, if_pos ends, some]
  simp

theorem readLast {cur s : List Char} (inner : ∀ c ∈ s.dropLast, isTerminator c = false) (some : s ≠ [])
    (started : cur ≠ [] ∨ s.dropLast ≠ [] ∨ ¬ Closed s) : sentencesFrom cur s = [cur.reverse ++ s] := by
  by_cases closed : Closed s
  · have read := readClosed closed inner (by simpa [closed] using started) []
    rw [List.append_nil] at read
    rw [read]
    rfl
  · have plain : ∀ c ∈ s, isTerminator c = false := by
      intro c member
      rw [← List.dropLast_append_getLast some, List.mem_append, List.mem_singleton] at member
      rcases member with inside | rfl
      · exact inner c inside
      · cases ends : isTerminator (s.getLast some) with
        | false => rfl
        | true => exact absurd ⟨s.dropLast, _, (List.dropLast_append_getLast some).symm, ends⟩ closed
    have read := sentencesFromPlain plain cur []
    rw [List.append_nil] at read
    rw [read, sentencesFrom, if_neg (by simp [some])]
    simp

theorem readTail {ss : List String} (found : ∀ s ∈ ss, Sentence s) (closed : ss.Pairwise (fun a _ => Closed a.toList)) :
    sentencesFrom [] (ss.flatMap (fun s => ' ' :: s.toList)) = ss.map (fun s => ' ' :: s.toList) := by
  induction ss with
  | nil => rfl
  | cons s rest ih =>
    obtain ⟨here, later⟩ := List.forall_mem_cons.mp found
    obtain ⟨ended, closed⟩ := List.pairwise_cons.mp closed
    rw [List.flatMap_cons, List.map_cons, List.cons_append, sentencesFrom, if_neg (by decide)]
    cases rest with
    | nil =>
      rw [List.flatMap_nil, List.append_nil, readLast here.inner here.some (.inl (by simp))]
      rfl
    | cons next rest =>
      rw [readClosed (ended next List.mem_cons_self) here.inner (.inl (by simp)), ih later closed]
      rfl

theorem stripLed {s : String} (edged : Edged s.toList) : strip (String.ofList (' ' :: s.toList)) = s := by
  have led : strip (String.ofList (' ' :: s.toList)) = strip s := by
    simp [strip, show isSpace ' ' = true from rfl]
  rw [led, edgedStrip edged]

def Bare (s : String) : Prop := s = "." ∨ s = "!" ∨ s = "?"

instance (s : String) : Decidable (Bare s) := inferInstanceAs (Decidable (_ ∨ _))

theorem bareChar {s : String} (bare : Bare s) : ∃ c, s.toList = [c] ∧ isTerminator c := by
  rcases bare with rfl | rfl | rfl
  · exact ⟨'.', rfl, rfl⟩
  · exact ⟨'!', rfl, rfl⟩
  · exact ⟨'?', rfl, rfl⟩

theorem bareIff {s : String} : Bare s ↔ s.toList.dropLast = [] ∧ Closed s.toList := by
  constructor
  · intro bare
    obtain ⟨c, alone, ends⟩ := bareChar bare
    exact ⟨by rw [alone]; rfl, [], c, alone, ends⟩
  · rintro ⟨none, front, c, split, ends⟩
    rw [split, List.dropLast_concat] at none
    have alone : s = String.ofList [c] := by rw [← String.toList_inj, split, none, String.toList_ofList]; rfl
    simp only [isTerminator, Bool.or_eq_true, beq_iff_eq] at ends
    rcases ends with (rfl | rfl) | rfl <;> simp [Bare, alone]

theorem stripsBack {ss : List String} (found : ∀ s ∈ ss, Sentence s) :
    ((ss.map (fun s => ' ' :: s.toList)).map (fun s => strip (String.ofList s))).filter (fun s => !s.isEmpty) = ss := by
  have stripped : (ss.map (fun s => ' ' :: s.toList)).map (fun s => strip (String.ofList s)) = ss := by
    rw [List.map_map]
    refine (List.map_congr_left fun s member => ?_).trans (List.map_id ss)
    exact stripLed (found s member).edged
  rw [stripped, List.filter_eq_self]
  intro s member
  simpa using (found s member).some

theorem joinedSentences {s : String} {rest : List String} (found : ∀ r ∈ s :: rest, Sentence r)
    (closed : (s :: rest).Pairwise (fun a _ => Closed a.toList)) :
    sentences (" ".intercalate (s :: rest)) = if Bare s then rest else s :: rest := by
  obtain ⟨here, later⟩ := List.forall_mem_cons.mp found
  obtain ⟨ended, closed⟩ := List.pairwise_cons.mp closed
  have visible : (!s.isEmpty) = true := by simpa using here.some
  have own : strip (String.ofList s.toList) = s := by rw [String.ofList_toList, edgedStrip here.edged]
  rw [sentences, joinedTail]
  split
  · rename_i bare
    obtain ⟨c, alone, ends⟩ := bareChar bare
    rw [alone, List.singleton_append, sentencesFrom, if_pos ends, if_pos List.isEmpty_nil, readTail later closed]
    exact stripsBack later
  · rename_i worded
    have started : s.toList.dropLast ≠ [] ∨ ¬ Closed s.toList := by
      rw [bareIff] at worded
      tauto
    cases rest with
    | nil =>
      rw [List.flatMap_nil, List.append_nil, readLast here.inner here.some (.inr started), List.reverse_nil, List.nil_append,
        List.map_singleton, own, List.filter_cons, if_pos visible, List.filter_nil]
    | cons next rest =>
      have ends := ended next List.mem_cons_self
      rw [readClosed ends here.inner (.inr (started.resolve_right (not_not.mpr ends))), readTail later closed,
        List.map_cons, List.reverse_nil, List.nil_append, own, List.filter_cons, if_pos visible, stripsBack later]

section Greedy
variable {target : Int} {count : String → Int}

variable (target count) in
theorem keepLoopTaken (kept : List Nat) (used : Int) (l : List (Nat × String × Rat)) :
    ∃ taken : List (Nat × String × Rat), taken.Sublist l ∧ keepLoop target count kept used l = kept ++ taken.map (·.1) ∧
      (used ≤ target ∨ kept = [] →
        used + (taken.map (fun entry => count entry.2.1)).sum ≤ target ∨ kept = [] ∧ taken.length ≤ 1) := by
  induction l generalizing kept used with
  | nil => exact ⟨[], .slnil, by simp [keepLoop], fun fits => by simpa using fits⟩
  | cons entry rest ih =>
    obtain ⟨i, s, score⟩ := entry
    rw [keepLoop]
    split
    · obtain ⟨taken, inside, same, fits⟩ := ih kept used
      exact ⟨taken, inside.cons _, same, fits⟩
    · rename_i room
      split
      · refine ⟨[(i, s, score)], (List.nil_sublist rest).cons_cons _, rfl, fun _ => ?_⟩
        rcases lt_or_ge target (used + count s) with beyond | within
        · have first : kept = [] := by simpa [beyond] using room
          exact .inr ⟨first, le_refl 1⟩
        · exact .inl (by simpa using within)
      · rename_i below
        obtain ⟨taken, inside, same, fits⟩ := ih (kept ++ [i]) (used + count s)
        refine ⟨(i, s, score) :: taken, inside.cons_cons _, by simp [same], fun _ => .inl ?_⟩
        rcases fits (.inl (by omega)) with within | ⟨filled, _⟩
        · simp only [List.map_cons, List.sum_cons]
          omega
        · simp at filled

theorem countsNonneg {l : List (Nat × String × Rat)} (positive : ∀ entry ∈ l, 1 ≤ count entry.2.1) :
    0 ≤ (l.map (fun entry => count entry.2.1)).sum := by
  refine List.sum_nonneg fun n member => ?_
  obtain ⟨entry, inside, rfl⟩ := List.mem_map.mp member
  have least := positive entry inside
  omega

theorem keepLoopAll {l : List (Nat × String × Rat)} (positive : ∀ entry ∈ l, 1 ≤ count entry.2.1) {kept : List Nat} {used : Int}
    (fits : used + (l.map (fun entry => count entry.2.1)).sum ≤ target) :
    keepLoop target count kept used l = kept ++ l.map (·.1) := by
  induction l generalizing kept used with
  | nil => simp [keepLoop]
  | cons entry rest ih =>
    obtain ⟨i, s, score⟩ := entry
    obtain ⟨here, later⟩ := List.forall_mem_cons.mp positive
    simp only [List.map_cons, List.sum_cons] at fits
    have onward := countsNonneg later
    rw [keepLoop, if_neg (by omega)]
    split
    · cases rest with
      | nil => rfl
      | cons next rest =>
        -- another entry has a token of its own, which the target has no room for
        have more := later next List.mem_cons_self
        have others := countsNonneg fun entry member => later entry (List.mem_cons_of_mem next member)
        simp only [List.map_cons, List.sum_cons] at fits
        omega
    · rw [ih later (by omega)]
      simp

end Greedy

theorem HeuristicTokenizer.countPositive (t : HeuristicTokenizer) {text : String} (some : text.toList ≠ []) : 1 ≤ t.count text := by
  have filled : text.isEmpty = false := by simpa using some
  simp [count, filled]

theorem takenPerm {l sorted taken : List (Nat × String × Rat)} (distinct : (l.map (·.1)).Nodup) (perm : sorted.Perm l)
    (inside : taken.Sublist sorted) : (l.filter (fun entry => entry.1 ∈ taken.map (·.1))).Perm taken := by
  have whole : l.Nodup := List.Nodup.of_map _ distinct
  refine (List.perm_ext_iff_of_nodup (whole.filter _) ((perm.nodup_iff.mpr whole).sublist inside)).mpr fun entry => ?_
  rw [List.mem_filter, decide_eq_true_eq]
  constructor
  · rintro ⟨listed, member⟩
    obtain ⟨other, taken, same⟩ := List.mem_map.mp member
    exact List.inj_on_of_nodup_map distinct (perm.subset (inside.subset taken)) listed same ▸ taken
  · intro taken
    exact ⟨perm.subset (inside.subset taken), List.mem_map.mpr ⟨entry, taken, rfl⟩⟩

section Kept
variable [Builtins] (t : HeuristicTokenizer) {text : String} {targetTokens : Int} {query : Option String}

def scored (q ss : List String) : List (Nat × String × Rat) := ss.zipIdx.map (fun si => (si.2, si.1, sentenceScore q si.2 si.1))

theorem scoredPlaces (q ss : List String) : (scored q ss).map (·.1) = List.range ss.length := by
  rw [scored, List.map_map, List.range_eq_range']
  exact List.zipIdx_map_snd 0 ss

theorem scoredSentences (q ss : List String) : (scored q ss).map (·.2.1) = ss := by
  rw [scored, List.map_map]
  exact List.zipIdx_map_fst 0 ss

variable (text targetTokens query) in
theorem keptScored : ∃ q, keptSentences text targetTokens t.toTokenizer query =
      ((scored q (sentences text)).filter (fun s => s.1 ∈ keepLoop targetTokens t.count [] 0
        ((scored q (sentences text)).insertionSort (fun a b => b.2.2 ≤ a.2.2)))).map (·.2.1) := ⟨_, rfl⟩

variable (text targetTokens query) in
theorem keptFits : ((keptSentences text targetTokens t.toTokenizer query).map t.count).sum ≤ targetTokens ∨
    (keptSentences text targetTokens t.toTokenizer query).length ≤ 1 := by
  obtain ⟨q, kept⟩ := keptScored t text targetTokens query
  have distinct : ((scored q (sentences text)).map (·.1)).Nodup := scoredPlaces q (sentences text) ▸ List.nodup_range
  obtain ⟨taken, inside, same, fits⟩ := keepLoopTaken targetTokens t.count [] 0
    ((scored q (sentences text)).insertionSort (fun a b => b.2.2 ≤ a.2.2))
  have perm := takenPerm distinct (List.perm_insertionSort _ _) inside
  rw [List.nil_append] at same
  rw [zero_add] at fits
  rw [kept, same, List.map_map, List.length_map]
  refine (fits (.inr rfl)).imp (fun within => ?_) fun single => perm.length_eq ▸ single.2
  exact ((perm.map _).sum_eq).trans_le within

theorem keptAll (fits : ((sentences text).map t.count).sum ≤ targetTokens ∨ (sentences text).length ≤ 1) :
    keptSentences text targetTokens t.toTokenizer query = sentences text := by
  rcases fits with within | single
  · obtain ⟨q, kept⟩ := keptScored t text targetTokens query
    have perm := List.perm_insertionSort (fun a b : Nat × String × Rat => b.2.2 ≤ a.2.2) (scored q (sentences text))
    have total : ((scored q (sentences text)).map (fun entry => t.count entry.2.1)).sum = ((sentences text).map t.count).sum := by
      rw [← scoredSentences q (sentences text), List.map_map, scoredSentences]
      rfl
    have positive : ∀ entry ∈ (scored q (sentences text)).insertionSort (fun a b => b.2.2 ≤ a.2.2), 1 ≤ t.count entry.2.1 := by
      intro entry member
      have listed := List.mem_map_of_mem (f := (·.2.1)) (perm.subset member)
      rw [scoredSentences] at listed
      exact t.countPositive (sentenceFound listed).some
    rw [kept, keepLoopAll positive, List.nil_append, List.filter_eq_self.mpr, scoredSentences]
    · intro entry member
      exact decide_eq_true (List.mem_map_of_mem (perm.symm.subset member))
    · rw [zero_add]
      exact ((perm.map _).sum_eq.trans total).trans_le within
  · have inside := keptSublist text targetTokens t.toTokenizer query
    refine inside.eq_of_length ?_
    have bound := inside.length_le
    by_cases none : sentences text = []
    · rw [none] at bound ⊢
      simpa using bound
    · have filled : keptSentences text targetTokens t.toTokenizer query ≠ [] := keptSome none
      have least := List.length_pos_iff.mpr filled
      omega

end Kept

section Again
variable [Builtins] (t : HeuristicTokenizer) {text : String} {targetTokens : Int} {query : Option String}

omit [Builtins] in
theorem joinedShorter {kept ss : List String} (inside : kept.Sublist ss) (some : kept ≠ []) :
    (" ".intercalate kept).length ≤ (" ".intercalate ss).length := by
  have filled : ss ≠ [] := by
    rintro rfl
    exact some (List.sublist_nil.mp inside)
  have length := Lib.joinLength ' ' kept some
  have length' := Lib.joinLength ' ' ss filled
  have fewer := (inside.map (fun s : String => s.length + 1)).sum_le_sum fun _ _ => Nat.zero_le _
  change (" ".intercalate kept).length + 1 = _ at length
  change (" ".intercalate ss).length + 1 = _ at length'
  omega

/-- The result is small enough, or the guard refuses the new selection from it, or it is one
sentence, or more than a sentence end stands in front of it. -/
def Refits (t : HeuristicTokenizer) (text : String) (targetTokens : Int) (query : Option String) (later : Int)
    (query' : Option String) : Prop :=
  let kept := keptSentences (structural text) targetTokens t.toTokenizer query
  let first := compress text targetTokens t.toTokenizer query none
  first.compressedTokens ≤ later ∨
    factRetentionOk first.text (extractive (structural first.text) later t.toTokenizer query') = false ∨
    kept.length ≤ 1 ∨ ∀ s ∈ kept.head?, ¬ Bare s

theorem keptFound : ∀ s ∈ keptSentences text targetTokens t.toTokenizer query, Sentence s :=
  fun _ member => sentenceFound ((keptSublist _ _ _ _).subset member)

theorem keptClosed : (keptSentences text targetTokens t.toTokenizer query).Pairwise (fun a _ => Closed a.toList) :=
  (sentencesClosed text).sublist (keptSublist _ _ _ _)

theorem keptNeat (neat : Neat text.toList) (some : sentences text ≠ []) :
    Neat (" ".intercalate (keptSentences text targetTokens t.toTokenizer query)).toList := by
  refine (joinedNeat (fun s member => ?_) (keptSome some)).1
  have listed : s ∈ sentences text := (keptSublist _ _ _ _).subset member
  exact ⟨sentenceNeat neat listed, (sentenceFound listed).some⟩

theorem extractiveNeat (neat : Neat text.toList) : Neat (extractive text targetTokens t.toTokenizer query).toList := by
  by_cases some : sentences text = []
  · rwa [extractiveEmpty some]
  · rw [extractiveKept some]
    exact keptNeat t neat some

theorem extractedAgain {kept : List String} (found : ∀ s ∈ kept, Sentence s) (closed : kept.Pairwise (fun a _ => Closed a.toList))
    (fits : (kept.map t.count).sum ≤ targetTokens ∨ kept.length ≤ 1) (some : kept ≠ []) :
    extractive (" ".intercalate kept) targetTokens t.toTokenizer query = " ".intercalate kept ↔
      kept.length ≤ 1 ∨ ∀ s ∈ kept.head?, ¬ Bare s := by
  cases kept with
  | nil => contradiction
  | cons s rest =>
    have read := joinedSentences found closed
    by_cases bare : Bare s
    · rw [if_pos bare] at read
      cases rest with
      | nil => exact iff_of_true (extractiveEmpty read) (.inl (le_refl 1))
      | cons next rest =>
        refine iff_of_false (fun same => ?_) (by simp [bare])
        -- the end in front is lost, so what is selected now is shorter
        have filled : sentences (" ".intercalate (s :: next :: rest)) ≠ [] := by rw [read]; simp
        rw [extractiveKept filled] at same
        have inside := keptSublist (" ".intercalate (s :: next :: rest)) targetTokens t.toTokenizer query
        rw [read] at inside
        have shorter := joinedShorter inside (keptSome filled)
        rw [same, String.intercalate_cons_cons, String.length_append, String.length_append] at shorter
        change _ + 1 + _ ≤ _ at shorter
        omega
    · rw [if_neg bare] at read
      refine iff_of_true ?_ (.inr (by simpa using bare))
      rw [extractiveKept (by simp [read]), keptAll t (by rwa [read]), read]

theorem plainText (text : String) (targetTokens : Int) (query : Option String) :
    (compress text targetTokens t.toTokenizer query none).text =
      if t.count (structural text) ≤ targetTokens then structural text
      else if factRetentionOk text (extractive (structural text) targetTokens t.toTokenizer query) then
        extractive (structural text) targetTokens t.toTokenizer query
      else structural text := by
  rw [(compressReturned text targetTokens t.toTokenizer query none).returned, returnedText]
  cases retained : factRetentionOk text (extractive (structural text) targetTokens t.toTokenizer query) <;>
    simp [acceptedReply]

/-- Compressing the result again, to the same target or a larger one and whatever is asked then, gives it back. -/
theorem compressedAgain (text : String) {targetTokens later : Int} (query query' : Option String) (le : targetTokens ≤ later)
    (passed : (compress text targetTokens t.toTokenizer query none).guardPassed) :
    (compress (compress text targetTokens t.toTokenizer query none).text later t.toTokenizer query' none).text =
      (compress text targetTokens t.toTokenizer query none).text ↔ Refits t text targetTokens query later query' := by
  have guarded := (compressReturned text targetTokens t.toTokenizer query none).guarded.mp passed
  have counted := (compressReturned text targetTokens t.toTokenizer query none).counted
  rw [HeuristicTokenizer.toTokenizerCount] at counted guarded
  simp only [Refits, counted]
  have neat := structuralNeat text
  by_cases fits : t.count (structural text) ≤ targetTokens
  · rw [plainText t, plainText t, if_pos fits, structuralFixed neat, if_pos (fits.trans le)]
    exact iff_of_true rfl (.inl (fits.trans le))
  have first : (compress text targetTokens t.toTokenizer query none).text =
      extractive (structural text) targetTokens t.toTokenizer query := by
    rw [plainText t, if_neg fits, if_pos (guarded.resolve_left fits)]
  rw [first, plainText t, structuralFixed (extractiveNeat t neat)]
  by_cases again : t.count (extractive (structural text) targetTokens t.toTokenizer query) ≤ later
  · simp [again]
  cases retained : factRetentionOk (extractive (structural text) targetTokens t.toTokenizer query)
      (extractive (extractive (structural text) targetTokens t.toTokenizer query) later t.toTokenizer query') with
  | false => simp
  | true =>
    rw [if_neg again, if_pos rfl]
    simp only [again, false_or, Bool.true_eq_false]
    by_cases some : sentences (structural text) = []
    · rw [extractiveEmpty some, extractiveEmpty some]
      have bare := (keptSublist (structural text) targetTokens t.toTokenizer query).length_le
      rw [some] at bare
      exact iff_of_true rfl (.inl (bare.trans (Nat.zero_le 1)))
    · rw [extractiveKept some]
      refine extractedAgain t (keptFound t) (keptClosed t) ?_ (keptSome some)
      exact (keptFits t _ _ _).imp_left le.trans'

end Again

theorem compressedAgainSample : letI := asciiBuiltins [] []
    (compress "Nodes: 12 in EU-WEST-1. None spare." 4 HeuristicTokenizer.default.toTokenizer (some "spare") none).guardPassed ∧
      ((compress (compress "Nodes: 12 in EU-WEST-1. None spare." 4 HeuristicTokenizer.default.toTokenizer (some "spare") none).text 6
          HeuristicTokenizer.default.toTokenizer none none).text =
          (compress "Nodes: 12 in EU-WEST-1. None spare." 4 HeuristicTokenizer.default.toTokenizer (some "spare") none).text ↔
        Refits .default "Nodes: 12 in EU-WEST-1. None spare." 4 (some "spare") 6 none) := by
  let _ := asciiBuiltins [] []
  have passed : (compress "Nodes: 12 in EU-WEST-1. None spare." 4 HeuristicTokenizer.default.toTokenizer (some "spare") none).guardPassed :=
    by decide +kernel
  exact ⟨passed, compressedAgain .default _ _ _ (by decide) passed⟩

-- a sentence end that stands alone in front is lost the next time
example : letI := asciiBuiltins [] []
    (compress "! . abc. abc. abc. abc." 5 HeuristicTokenizer.default.toTokenizer none none).text = ". abc. abc. abc. abc." ∧
      (compress ". abc. abc. abc. abc." 5 HeuristicTokenizer.default.toTokenizer none none).text = "abc. abc. abc. abc." := by
  decide +kernel

end ContextOS
