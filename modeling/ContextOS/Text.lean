import ContextOS.Lib.Scan

/-! Text primitives of the source: the interpreter's string and hash functions, the
whitespace rules of `split` and `strip`, and its regular expressions as scanners. Given
are `str.lower`, the letter that a character stands for under `re.IGNORECASE`, the class
`\w`, `str.isdigit` of one character, the hexadecimal SHA-256 of the UTF-8 bytes, and
their BLAKE2b of eight bytes as a big-endian number. -/
namespace ContextOS
open Lib (runs)

class Builtins where
  lower : String → String
  foldCase : Char → Char
  isWord : Char → Bool
  isDigit : Char → Bool
  sha256 : String → String
  blake2b : String → Nat

def isSpace (c : Char) : Bool :=
  let n := c.toNat
  (9 ≤ n && n ≤ 13) || (28 ≤ n && n ≤ 32) || n == 0x85 || n == 0xa0 || n == 0x1680 ||
    (0x2000 ≤ n && n ≤ 0x200a) || n == 0x2028 || n == 0x2029 || n == 0x202f || n == 0x205f ||
    n == 0x3000

/-- `re.findall("[class]+", text)` -/
def findRuns (p : Char → Bool) (text : String) : List String :=
  (runs p text.toList).map String.ofList

-- `text.split()`
def splitWords (text : String) : List String := findRuns (fun c => !isSpace c) text

def strip (text : String) : String :=
  String.ofList ((text.toList.dropWhile isSpace).reverse.dropWhile isSpace).reverse

def isAlnum (c : Char) : Bool := ('a' ≤ c && c ≤ 'z') || ('0' ≤ c && c ≤ '9')


/-- `re.compile(r"[a-z0-9]+").findall(text.lower())` -/
def tokenize [Builtins] (text : String) : List String := findRuns isAlnum (Builtins.lower text)

theorem splitWordsNoSpace {text word : String} (member : word ∈ splitWords text) :
    ∀ c ∈ word.toList, isSpace c = false := by
  obtain ⟨run, inside, rfl⟩ := List.mem_map.mp member
  intro c hc
  have := Lib.runsAll _ _ run inside c (by simpa using hc)
  simpa using this

end ContextOS
