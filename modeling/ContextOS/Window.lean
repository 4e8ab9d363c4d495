import ContextOS.Endings
import ContextOS.Executable
import ContextOS.Lib.Join

/-! The prompt against the window. The budget is spent on the bare contents, and the
memory message adds its header, its bullets and its line breaks to them. The prompt fits
the window exactly when these fit into what the packing leaves over: the tokens it did
not spend, and the characters that rounding the counts up has paid for twice. -/
namespace ContextOS
open Lib (joinLength toOptionOk)

variable {R : Type}

/-! ### The length of the memory message -/

/-- A bullet of two characters and a line break for each content, the header, and no line
break after the last. Without contents there is no message. -/
def renderedLength (survivors : List (Ranked R)) : Nat :=
  if survivors.isEmpty then 0 else memoryHeader.length + (survivors.map (fun cb => cb.1.content.length + 3)).sum - 1

theorem renderedPerm {placed survivors : List (Ranked R)} (same : placed.Perm survivors) :
    renderedLength placed = renderedLength survivors := by
  have empty : placed.isEmpty = survivors.isEmpty := by
    rw [Bool.eq_iff_iff, List.isEmpty_iff, List.isEmpty_iff]
    exact ⟨fun none => List.nil_perm.mp (none ▸ same), fun none => List.perm_nil.mp (none ▸ same)⟩
  unfold renderedLength
  rw [empty, (same.map _).sum_eq]

theorem memoryLength {placed : List (Ranked R)} (some : placed ≠ []) :
    (memoryMessage placed).content.length = renderedLength placed := by
  have bullets : ∀ cb ∈ placed, ("- " ++ cb.1.content).length + 1 = cb.1.content.length + 3 := fun cb _ => by
    rw [String.length_append, show "- ".length = 2 from rfl]
    omega
  have joined := joinLength '\n' (placed.map (fun cb => "- " ++ cb.1.content)) (by simpa using some)
  rw [List.map_map] at joined
  simp only [Function.comp_def, List.map_congr_left bullets] at joined
  have newline : String.singleton '\n' = "\n" := rfl
  rw [newline] at joined
  simp only [memoryMessage, renderedLength, String.length_append, List.isEmpty_iff, some, if_false]
  omega

theorem textCount (tok : HeuristicTokenizer) (text : String) :
    ((if text.isEmpty then [] else [⟨.system, text⟩] : List ChatMessage).map (fun m => tok.count m.content)).sum =
      tok.count text := by
  by_cases empty : text.isEmpty
  · simp [empty, HeuristicTokenizer.count]
  · simp [empty]

theorem memoryCount (tok : HeuristicTokenizer) (placed : List (Ranked R)) :
    ((if placed.isEmpty then [] else [memoryMessage placed]).map (fun m => tok.count m.content)).sum =
      tok.countLength (renderedLength placed) := by
  by_cases none : placed = []
  · simp [none, renderedLength, HeuristicTokenizer.countLength]
  · simp [none, HeuristicTokenizer.countOfLength, memoryLength none]

theorem renderCount (tok : HeuristicTokenizer) (c : ChatCall) (candidates : List (MemoryCandidate R))
    (placed : List (Ranked R)) :
    ((render (Pipeline.sourcesOf c candidates) placed).map (fun m => tok.count m.content)).sum =
      tok.count c.systemText + tok.countLength (renderedLength placed) + tok.count c.prompt := by
  have rendered : render (Pipeline.sourcesOf c candidates) placed =
      (if c.systemText.isEmpty then [] else [⟨.system, c.systemText⟩]) ++
        (if placed.isEmpty then [] else [memoryMessage placed]) ++ [⟨.user, c.prompt⟩] := by
    simp [render, Pipeline.sourcesOf]
  simp only [rendered, List.map_append, List.sum_append, textCount, memoryCount, List.map_cons, List.map_nil,
    List.sum_cons, List.sum_nil, add_zero]

/-! ### What the packing leaves -/

def unspent (tok : HeuristicTokenizer) (soft : Int) (survivors : List (Ranked R)) : Int :=
  soft - (survivors.map (fun cb => tok.count cb.1.content)).sum

-- the characters that the count of a content stands for beyond its own
def roundedUp (tok : HeuristicTokenizer) (cb : Ranked R) : Rat :=
  tok.count cb.1.content * tok.charsPerToken - cb.1.content.length

/-- The header, and for each content a bullet and, but for the last, a line break. -/
def uncharged (survivors : List (Ranked R)) : Nat := memoryHeader.length + 3 * survivors.length - 1

-- under a negative ratio every text counts one token
def LeavesRoom (tok : HeuristicTokenizer) (soft : Int) (survivors : List (Ranked R)) : Prop :=
  survivors = [] ∨
    if 0 < tok.charsPerToken then
      (uncharged survivors : Rat) ≤ unspent tok soft survivors * tok.charsPerToken + (survivors.map (roundedUp tok)).sum
    else 1 ≤ soft

theorem roundedUpNonneg (tok : HeuristicTokenizer) (positive : 0 < tok.charsPerToken) (cb : Ranked R) :
    0 ≤ roundedUp tok cb := by
  unfold roundedUp
  rw [tok.countOfLength, sub_nonneg, ← div_le_iff₀ positive]
  unfold HeuristicTokenizer.countLength
  split
  · rename_i empty
    simp [empty]
  · exact le_trans (Int.le_ceil _) (by exact_mod_cast le_max_right _ _)

theorem renderedSplit {survivors : List (Ranked R)} (some : survivors ≠ []) :
    renderedLength survivors = uncharged survivors + (survivors.map (fun cb => cb.1.content.length)).sum := by
  have header : memoryHeader.length = 18 := rfl
  have each : (survivors.map (fun cb => cb.1.content.length + 3)).sum =
      (survivors.map (fun cb => cb.1.content.length)).sum + 3 * survivors.length := by
    simp [List.sum_map_add, Nat.mul_comm]
  simp only [renderedLength, List.isEmpty_iff, some, if_false, uncharged, each]
  omega

theorem spentAndRounded (tok : HeuristicTokenizer) (soft : Int) (survivors : List (Ranked R)) :
    unspent tok soft survivors * tok.charsPerToken + (survivors.map (roundedUp tok)).sum =
      soft * tok.charsPerToken - ((survivors.map (fun cb => cb.1.content.length)).sum : Nat) := by
  induction survivors with
  | nil => simp [unspent]
  | cons cb rest ih =>
    simp only [unspent, roundedUp, List.map_cons, List.sum_cons] at ih ⊢
    push_cast at ih ⊢
    linarith

theorem countLengthFits (tok : HeuristicTokenizer) {length : Nat} (some : 0 < length) (soft : Int) :
    tok.countLength length ≤ soft ↔
      if 0 < tok.charsPerToken then (length : Rat) ≤ soft * tok.charsPerToken else 1 ≤ soft := by
  have long : (0 : Rat) < length := by exact_mod_cast some
  simp only [HeuristicTokenizer.countLength, some.ne', if_false, max_le_iff, Int.ceil_le]
  split
  · rename_i positive
    rw [div_le_iff₀ positive, and_iff_right_of_imp]
    intro fits
    have tokens : (0 : Rat) < soft := pos_of_mul_pos_left (lt_of_lt_of_le long fits) positive.le
    exact_mod_cast tokens
  · rename_i negative
    refine and_iff_left_of_imp fun one => le_trans (div_nonpos_of_nonneg_of_nonpos long.le (not_lt.mp negative)) ?_
    exact_mod_cast le_trans (by decide : (0 : Int) ≤ 1) one

theorem leavesRoomIff (tok : HeuristicTokenizer) {soft : Int} (room : 0 ≤ soft) (survivors : List (Ranked R)) :
    tok.countLength (renderedLength survivors) ≤ soft ↔ LeavesRoom tok soft survivors := by
  unfold LeavesRoom
  by_cases none : survivors = []
  · simpa [none, renderedLength, HeuristicTokenizer.countLength] using room
  · have header : memoryHeader.length = 18 := rfl
    have long : 0 < renderedLength survivors := by
      rw [renderedSplit none, uncharged]
      omega
    rw [countLengthFits tok long, spentAndRounded, renderedSplit none, or_iff_right none]
    push_cast
    split
    · exact le_sub_iff_add_le.symm
    · exact Iff.rfl

variable [PyFloat R]

omit [PyFloat R]

def narrow [Builtins] : Pipeline ℚ :=
  { (createApp sampleSettings (replying "blue" (some "stop")) (fun _ => "cid")).pipeline with windowTokens := 4 }

def narrowAssembler [Builtins] : ContextAssembler ℚ := ⟨hashingEmbeddingProvider embeddingDim⟩

def shortCall : ChatCall := ⟨"colour", none, 1, none⟩

def blueCandidate : MemoryCandidate ℚ :=
  ⟨"memory-1", "acme", "sales", .semantic, "blue", some 1, none, 1 / 61, 1, 1 / 2, some 1, none, 0, none⟩

def narrowAssembled [Builtins] : Except PyError (AssembledContext ℚ) :=
  narrowAssembler.assemble (narrow.budgetFor shortCall) (Pipeline.sourcesOf shortCall [blueCandidate]) narrow.weights
    (some narrow.tokenizer) Pipeline.defaultMmrLambda

def narrowPacked [Builtins] : Except PyError (ContextAssembler.Packing ℚ) :=
  narrowAssembler.packing (narrow.budgetFor shortCall).softBudget [blueCandidate] narrow.weights narrow.tokenizer.count
    Pipeline.defaultMmrLambda

end ContextOS
