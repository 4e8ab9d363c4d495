import ContextOS.Budget
import ContextOS.Text
import Mathlib.Data.List.Sort

/-! The context compressor: structural, extractive and abstractive tiers behind the
fact-retention guard. -/
namespace ContextOS

/-! ### The guard -/

section Guard
variable [Builtins]

def facts (text : String) : List String :=
  (findRuns (fun c => Builtins.isWord c || c == '-') (Builtins.lower text)).filter
    (fun tok => tok.toList.any Builtins.isDigit)

def factRetentionOk (original compressed : String) : Bool :=
  (facts compressed).all (fun fact => fact ∈ facts original)

end Guard

structure CompressedBlock where
  text : String
  originalTokens : Int
  compressedTokens : Int
  tier : String
  guardPassed : Bool
  deriving DecidableEq, Repr

def CompressedBlock.ratio (b : CompressedBlock) : Rat :=
  if b.compressedTokens = 0 then 1 else (b.originalTokens : Rat) / b.compressedTokens

-- `re.sub(r"[ \t]+", " ", text)`; the flag says that a blank was just written
def squeezeBlanks : Bool → List Char → List Char
  | _, [] => []
  | inRun, c :: rest =>
    if c = ' ' ∨ c = '\t' then
      if inRun then squeezeBlanks true rest else ' ' :: squeezeBlanks true rest
    else c :: squeezeBlanks false rest

-- `re.sub(r"\n{3,}", "\n\n", text)`; the number is that of newlines just written
def squeezeNewlines : Nat → List Char → List Char
  | _, [] => []
  | seen, c :: rest =>
    if c = '\n' then
      if 2 ≤ seen then squeezeNewlines seen rest else c :: squeezeNewlines (seen + 1) rest
    else c :: squeezeNewlines 0 rest

def structural (text : String) : String :=
  strip (String.ofList (squeezeNewlines 0 (squeezeBlanks false text.toList)))

/-! ### Extractive tier -/

def isTerminator (c : Char) : Bool := c == '.' || c == '!' || c == '?'

/-- `re.findall(r"[^.!?]+[.!?]?", text)`; `cur` is the sentence being read, newest first. -/
def sentencesFrom (cur : List Char) : List Char → List (List Char)
  | [] => if cur.isEmpty then [] else [cur.reverse]
  | c :: rest =>
    if isTerminator c then
      if cur.isEmpty then sentencesFrom [] rest else (c :: cur).reverse :: sentencesFrom [] rest
    else sentencesFrom (c :: cur) rest

def sentences (text : String) : List String :=
  ((sentencesFrom [] text.toList).map (fun s => strip (String.ofList s))).filter (fun s => !s.isEmpty)

/-- The greedy pass over the sentences, best first: it stops at the target and always
keeps one. -/
def keepLoop (targetTokens : Int) (count : String → Int) :
    List Nat → Int → List (Nat × String × Rat) → List Nat
  | kept, _, [] => kept
  | kept, used, (i, s, _) :: rest =>
    if targetTokens < used + count s ∧ ¬ kept.isEmpty then keepLoop targetTokens count kept used rest
    else if targetTokens ≤ used + count s then kept ++ [i]
    else keepLoop targetTokens count (kept ++ [i]) (used + count s) rest

structure ContextCompressor where
  deriving DecidableEq, Repr

section Tiers
variable [Builtins]

def sentenceScore (query : List String) (i : Nat) (s : String) : Rat :=
  let toks := (tokenize s).dedup
  let overlap : Rat := if query.isEmpty then 0 else (toks.filter (· ∈ query)).length
  overlap + 1 / 10 / (i + 1)

def extractive (text : String) (targetTokens : Int) (tokenizer : Tokenizer) (query : Option String) : String :=
  let found := sentences text
  if found.isEmpty then text
  else
    let q := match query with
      | some query => tokenize query
      | none => []
    let scored := found.zipIdx.map (fun si => (si.2, si.1, sentenceScore q si.2 si.1))
    let kept := keepLoop targetTokens tokenizer.count [] 0
      (scored.insertionSort (fun a b => b.2.2 ≤ a.2.2))
    " ".intercalate ((scored.filter (fun s => s.1 ∈ kept)).map (fun s => s.2.1))

/-! ### The three tiers -/

def abstractivePrompt (text : String) (targetTokens : Int) : String :=
  s!"Summarize the context below in at most {max 1 targetTokens} tokens. Preserve every " ++
  "number, identifier, and named entity verbatim; do not invent facts.\n\n" ++ text

def abstractive (text : String) (targetTokens : Int)
    (llm : ChatRequest → Except String ChatResponse) : Option String :=
  match llm ⟨"compressor", [⟨.user, abstractivePrompt text targetTokens⟩], max 64 (targetTokens * 2)⟩ with
  | .ok resp => some (strip resp.text)
  | .error _ => none

def compress (text : String) (targetTokens : Int) (tokenizer : Tokenizer) (query : Option String)
    (llm : Option (ChatRequest → Except String ChatResponse)) : CompressedBlock :=
  let originalTokens := tokenizer.count text
  let structured := structural text
  let sTok := tokenizer.count structured
  if sTok ≤ targetTokens then
    ⟨structured, originalTokens, sTok, if structured ≠ text then "structural" else "none", true⟩
  else
    let extracted := extractive structured targetTokens tokenizer query
    if !factRetentionOk text extracted then ⟨structured, originalTokens, sTok, "structural", false⟩
    else
      let eTok := tokenizer.count extracted
      let fallback : CompressedBlock := ⟨extracted, originalTokens, eTok, "extractive", true⟩
      match llm with
      | none => fallback
      | some generate =>
        if targetTokens < eTok then
          match abstractive structured targetTokens generate with
          | none => fallback
          | some summary =>
            if !summary.isEmpty && factRetentionOk text summary then
              let aTok := tokenizer.count summary
              if aTok ≤ eTok then ⟨summary, originalTokens, aTok, "abstractive", true⟩ else fallback
            else fallback
        else fallback

end Tiers
end ContextOS
