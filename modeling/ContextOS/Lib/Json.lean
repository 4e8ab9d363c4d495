import Mathlib.Data.List.Sort
import Mathlib.Order.Lattice
import Mathlib.Tactic.Common

/-! JSON as Python's `json` module writes and reads it: compact separators, everything
outside printable ASCII escaped in UTF-16 units, one blank or none between tokens. A float
is kept as its literal. The reader is the strict scanner of the module, with its three
constants beyond the standard, but it is not bounded as the module is in the digits of an
integer and in the nesting, and it refuses a string with a lone surrogate, which has no text. -/
namespace ContextOS.Lib

inductive Json where
  | null
  | bool (value : Bool)
  | int (value : Int)
  | real (literal : String)
  | str (text : String)
  | arr (items : List Json)
  | obj (fields : List (String × Json))
  deriving Repr

namespace Json

/-! ### Writing -/

def hexDigit (n : Nat) : Char := if n < 10 then Char.ofNat (48 + n) else Char.ofNat (87 + n)

def hex4 (n : Nat) : List Char :=
  [hexDigit (n / 4096 % 16), hexDigit (n / 256 % 16), hexDigit (n / 16 % 16), hexDigit (n % 16)]

def unicodeEscape (unit : Nat) : List Char := '\\' :: 'u' :: hex4 unit

-- the units of a character: itself, or a surrogate pair
def units (c : Char) : List Nat :=
  if c.toNat < 0x10000 then [c.toNat]
  else [0xd800 + (c.toNat - 0x10000) / 1024, 0xdc00 + (c.toNat - 0x10000) % 1024]

def shortEscapes : List (Char × Char) :=
  [('"', '"'), ('\\', '\\'), ('n', '\n'), ('r', '\r'), ('t', '\t'), ('f', '\x0c'), ('b', '\x08')]

def escapeChar (c : Char) : List Char :=
  match shortEscapes.find? (fun e => e.2 = c) with
  | some e => ['\\', e.1]
  | none => if ' ' ≤ c ∧ c ≤ '~' then [c] else (units c).flatMap unicodeEscape

def writeString (text : String) : List Char := '"' :: text.toList.flatMap escapeChar ++ ['"']

def writeInt : Int → List Char
  | .ofNat n => Nat.toDigits 10 n
  | .negSucc n => '-' :: Nat.toDigits 10 (n + 1)

mutual

def write : Json → List Char
  | .null => "null".toList
  | .bool true => "true".toList
  | .bool false => "false".toList
  | .int n => writeInt n
  | .real literal => literal.toList
  | .str text => writeString text
  | .arr items => '[' :: writeItems items ++ [']']
  | .obj fields => '{' :: writeFields fields ++ ['}']

def writeItems : List Json → List Char
  | [] => []
  | [item] => write item
  | item :: next :: rest => write item ++ ',' :: writeItems (next :: rest)

def writeFields : List (String × Json) → List Char
  | [] => []
  | [(key, value)] => writeString key ++ ':' :: write value
  | (key, value) :: next :: rest => writeString key ++ ':' :: write value ++ ',' :: writeFields (next :: rest)

end

-- `json.dumps(value, separators=(",", ":"))`
def dumps (value : Json) : String := String.ofList (write value)

mutual

-- what `sort_keys=True` makes of the dictionaries
def sortKeys : Json → Json
  | .arr items => .arr (sortItems items)
  | .obj fields => .obj ((sortFields fields).insertionSort (fun a b => a.1 ≤ b.1))
  | value => value

def sortItems : List Json → List Json
  | [] => []
  | item :: rest => sortKeys item :: sortItems rest

def sortFields : List (String × Json) → List (String × Json)
  | [] => []
  | (key, value) :: rest => (key, sortKeys value) :: sortFields rest

end

/-! ### Reading -/

def isBlank (c : Char) : Bool := c == ' ' || c == '\t' || c == '\n' || c == '\r'

def skipBlanks (cs : List Char) : List Char := cs.dropWhile isBlank

def hexValue (c : Char) : Option Nat :=
  if c.isDigit then some (c.toNat - 48)
  else if 'a' ≤ c ∧ c ≤ 'f' then some (c.toNat - 87)
  else if 'A' ≤ c ∧ c ≤ 'F' then some (c.toNat - 55)
  else none

def hexUnit (a b c d : Char) : Option Nat := do
  let a ← hexValue a
  let b ← hexValue b
  let c ← hexValue c
  let d ← hexValue d
  return a * 4096 + b * 256 + c * 16 + d

-- the units of a string up to its closing quote
def readUnits : List Char → Option (List Nat × List Char)
  | [] => none
  | '"' :: rest => some ([], rest)
  | '\\' :: 'u' :: a :: b :: c :: d :: rest => do
    let unit ← hexUnit a b c d
    let (later, rest) ← readUnits rest
    return (unit :: later, rest)
  | '\\' :: e :: rest => do
    let short ← (('/', '/') :: shortEscapes).find? (fun s => s.1 = e)
    let (later, rest) ← readUnits rest
    return (short.2.toNat :: later, rest)
  | c :: rest =>
    if c = '\\' ∨ c.toNat < 0x20 then none
    else do
      let (later, rest) ← readUnits rest
      return (c.toNat :: later, rest)

def highSurrogate (unit : Nat) : Bool := 0xd800 ≤ unit && unit < 0xdc00

def lowSurrogate (unit : Nat) : Bool := 0xdc00 ≤ unit && unit < 0xe000

def fromUnits : List Nat → Option (List Char)
  | [] => some []
  | high :: low :: rest =>
    if highSurrogate high then
      if lowSurrogate low then
        (fromUnits rest).map (Char.ofNat (0x10000 + (high - 0xd800) * 1024 + (low - 0xdc00)) :: ·)
      else none
    else if lowSurrogate high then none
    else (fromUnits (low :: rest)).map (Char.ofNat high :: ·)
  | [unit] => if highSurrogate unit || lowSurrogate unit then none else some [Char.ofNat unit]

def readString (cs : List Char) : Option (String × List Char) := do
  let (read, rest) ← readUnits cs
  let text ← fromUnits read
  return (String.ofList text, rest)

def digitsOf (cs : List Char) : List Char × List Char := (cs.takeWhile Char.isDigit, cs.dropWhile Char.isDigit)

def readNatural : List Char → Option (List Char × List Char)
  | [] => none
  | '0' :: rest => some (['0'], rest)
  | c :: rest => if c.isDigit then some (digitsOf (c :: rest)) else none

def readWhole : List Char → Option (List Char × List Char)
  | '-' :: rest => (readNatural rest).map (fun read => ('-' :: read.1, read.2))
  | cs => readNatural cs

def readFraction : List Char → List Char × List Char
  | '.' :: rest =>
    let (digits, more) := digitsOf rest
    if digits.isEmpty then ([], '.' :: rest) else ('.' :: digits, more)
  | cs => ([], cs)

def readSign : List Char → List Char × List Char
  | '+' :: rest => (['+'], rest)
  | '-' :: rest => (['-'], rest)
  | cs => ([], cs)

def readExponent : List Char → List Char × List Char
  | [] => ([], [])
  | e :: rest =>
    let (sign, more) := readSign rest
    let (digits, more) := digitsOf more
    if (e = 'e' ∨ e = 'E') ∧ !digits.isEmpty then (e :: sign ++ digits, more) else ([], e :: rest)

def wholeValue : List Char → Int
  | '-' :: digits => -(Nat.ofDigitChars 10 digits 0 : Int)
  | digits => Nat.ofDigitChars 10 digits 0

def readNumber (cs : List Char) : Option (Json × List Char) := do
  let (whole, rest) ← readWhole cs
  let (fraction, rest) := readFraction rest
  let (exponent, rest) := readExponent rest
  return (if fraction.isEmpty && exponent.isEmpty then .int (wholeValue whole)
    else .real (String.ofList (whole ++ fraction ++ exponent)), rest)

def constants : List (String × Json) :=
  [("null", .null), ("true", .bool true), ("false", .bool false), ("NaN", .real "NaN"),
   ("Infinity", .real "Infinity"), ("-Infinity", .real "-Infinity")]

def readScalar (cs : List Char) : Option (Json × List Char) :=
  match constants.find? (fun k => k.1.toList.isPrefixOf cs) with
  | some k => some (k.2, cs.drop k.1.toList.length)
  | none => readNumber cs

mutual

def readValue : Nat → List Char → Option (Json × List Char)
  | 0, _ => none
  | fuel + 1, cs =>
    match cs with
    | '"' :: rest => (readString rest).map (fun read => (.str read.1, read.2))
    | '[' :: rest =>
      match skipBlanks rest with
      | ']' :: rest => some (.arr [], rest)
      | rest => (readItems fuel rest).map (fun read => (.arr read.1, read.2))
    | '{' :: rest =>
      match skipBlanks rest with
      | '}' :: rest => some (.obj [], rest)
      | rest => (readFields fuel rest).map (fun read => (.obj read.1, read.2))
    | cs => readScalar cs

def readItems : Nat → List Char → Option (List Json × List Char)
  | 0, _ => none
  | fuel + 1, cs => do
    let (item, rest) ← readValue fuel cs
    match skipBlanks rest with
    | ']' :: rest => some ([item], rest)
    | ',' :: rest => (readItems fuel (skipBlanks rest)).map (fun read => (item :: read.1, read.2))
    | _ => none

def readFields : Nat → List Char → Option (List (String × Json) × List Char)
  | 0, _ => none
  | fuel + 1, cs =>
    match cs with
    | '"' :: rest => do
      let (key, rest) ← readString rest
      match skipBlanks rest with
      | ':' :: rest => do
        let (value, rest) ← readValue fuel (skipBlanks rest)
        match skipBlanks rest with
        | '}' :: rest => some ([(key, value)], rest)
        | ',' :: rest => (readFields fuel (skipBlanks rest)).map (fun read => ((key, value) :: read.1, read.2))
        | _ => none
      | _ => none
    | _ => none

end

/-- What `json.loads` reads in a text without lone surrogates, inside its bounds; no value is nested
deeper than half of its characters. -/
def loads (text : String) : Option Json := do
  let (value, rest) ← readValue (2 * text.toList.length) (skipBlanks text.toList)
  if (skipBlanks rest).isEmpty then some value else none

/-! ### Fields -/

/-- The last of several entries under one key is the one a dictionary keeps. -/
def field (key : String) : Json → Option Json
  | .obj fields => (fields.reverse.find? (fun f => f.1 = key)).map Prod.snd
  | _ => none

end Json
end ContextOS.Lib
