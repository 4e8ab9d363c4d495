import ContextOS.Models
import ContextOS.Text
import Mathlib.Data.List.Sort

/-! The pure scoring functions of hybrid retrieval and the feature-hashing embedding. The
embedding of many texts is that of each: both are one fixed function of the text. -/
namespace ContextOS
open Lib (Dict)

variable {R : Type} [PyFloat R]

def rrfK : Nat := 60

def halfLifeSeconds : MemoryTier → R
  | .working => (30 * 60 : Nat)
  | .shortTerm => (12 * 3600 : Nat)
  | .longTerm => (30 * 86400 : Nat)
  | .episodic => (7 * 86400 : Nat)
  | .semantic => (90 * 86400 : Nat)

def dotProduct (a b : List R) : R := (List.zipWith (· * ·) a b).sum
def norm (a : List R) : R := PyFloat.sqrt (a.map (fun x => x * x)).sum

/-- `zip(strict=True)` refuses vectors of different length. -/
def cosine (a b : List R) : Except PyError R :=
  if a.length < b.length then .error ⟨.valueError, "zip() argument 2 is longer than argument 1"⟩
  else if b.length < a.length then .error ⟨.valueError, "zip() argument 2 is shorter than argument 1"⟩
  else if norm a = 0 ∨ norm b = 0 then .ok 0
  else .ok (dotProduct a b / (norm a * norm b))

def cosineOf (a b : List R) : R := if norm a = 0 ∨ norm b = 0 then 0 else dotProduct a b / (norm a * norm b)

theorem cosineOk {a b : List R} {sim : R} : cosine a b = .ok sim ↔ a.length = b.length ∧ sim = cosineOf a b := by
  unfold cosine cosineOf
  by_cases shorter : a.length < b.length
  · simp [shorter, shorter.ne]
  by_cases longer : b.length < a.length
  · simp [longer, longer.ne', longer.asymm]
  have same : a.length = b.length := by omega
  simp only [same, lt_irrefl, if_false, true_and]
  split <;> simp [eq_comm]

theorem cosineTotal {a b : List R} (same : a.length = b.length) : ∃ sim, cosine a b = .ok sim :=
  ⟨cosineOf a b, cosineOk.mpr ⟨same, rfl⟩⟩

theorem dotProductComm (a b : List R) : dotProduct a b = dotProduct b a := by
  rw [dotProduct, List.zipWith_comm]
  simp only [dotProduct, mul_comm]

theorem cosineComm {a b : List R} {sim : R} (ok : cosine a b = .ok sim) : cosine b a = .ok sim := by
  obtain ⟨same, rfl⟩ := cosineOk.mp ok
  refine cosineOk.mpr ⟨same.symm, ?_⟩
  exact if_congr or_comm rfl (by rw [dotProductComm, mul_comm (norm a)])

def recencyFactor (ageSeconds halfLife : R) : R :=
  if halfLife ≤ 0 then 1 else PyFloat.halfPow (max 0 ageSeconds / halfLife)

/-! ### Rank fusion -/

def addRanks (k rank : Nat) (scores : Dict String R) : List String → Dict String R
  | [] => scores
  | mid :: rest =>
    addRanks k (rank + 1) (scores.set mid ((scores.get mid).getD 0 + 1 / ((k + rank : Nat) : R))) rest

def rrfFuse (denseOrder sparseOrder : List String) (k : Nat) : Dict String R :=
  addRanks k 1 (addRanks k 1 Dict.empty denseOrder) sparseOrder

def minmaxNormalize (values : Dict String R) : Dict String R :=
  match values.values.min?, values.values.max? with
  | some lo, some hi =>
    if hi = lo then values.mapValues (fun _ => 1) else values.mapValues (fun v => (v - lo) / (hi - lo))
  | _, _ => Dict.empty

/-! ### BM25 -/

def documentFrequency (docs : List (List String)) (term : String) : Nat :=
  docs.countP (fun d => term ∈ d)

def inverseFrequency (docs : List (List String)) (term : String) : R :=
  let df : R := documentFrequency docs term
  PyFloat.log (1 + ((docs.length : R) - df + 0.5) / (df + 0.5))

def termScore (docs : List (List String)) (k1 b avgdl : R) (doc : List String) (term : String) : R :=
  let f : R := doc.count term
  let ratio : R := if avgdl = 0 then 0 else (doc.length : R) / avgdl
  if doc.count term = 0 then 0
  else inverseFrequency docs term * (f * (k1 + 1)) / (f + k1 * (1 - b + b * ratio))

def bm25Scores (queryTokens : List String) (docs : List (List String)) : List R :=
  let avgdl : R := ((docs.map List.length).sum : R) / (docs.length : R)
  docs.map (fun doc => (queryTokens.dedup.map (termScore docs 1.5 0.75 avgdl doc)).sum)

/-! ### Embeddings -/

structure EmbeddingProvider (R : Type) where
  embed : String → List R

/-- The `dim` of the provider: every vector has that many entries. -/
def EmbeddingProvider.Sized (p : EmbeddingProvider R) : Prop := ∃ dim, ∀ text, (p.embed text).length = dim

def EmbeddingProvider.embedMany (p : EmbeddingProvider R) (texts : List String) : List (List R) :=
  texts.map p.embed

variable [Builtins]

def hashSign (h : Nat) : R := if (h / 2 ^ 63) % 2 = 1 then 1 else -1

def hashTokens (dim : Nat) (tokens : List String) : List R :=
  tokens.foldl (fun vec tok =>
      let h := Builtins.blake2b tok
      vec.modify (h % dim) (· + hashSign h))
    (List.replicate dim 0)

def hashingEmbeddingProvider (dim : Nat) [NeZero dim] : EmbeddingProvider R where
  embed text :=
    let vec := hashTokens dim (tokenize text)
    if norm vec = 0 then vec else vec.map (· / norm vec)

theorem hashTokensLength (dim : Nat) (tokens : List String) :
    (hashTokens dim tokens : List R).length = dim := by
  unfold hashTokens
  suffices ∀ start : List R, start.length = dim →
      (tokens.foldl (fun vec tok => vec.modify (Builtins.blake2b tok % dim)
        (· + hashSign (Builtins.blake2b tok))) start).length = dim from this _ (by simp)
  induction tokens with
  | nil => exact fun start size => size
  | cons tok rest ih => exact fun start size => ih _ (by simpa using size)

theorem hashingEmbeddingLength (dim : Nat) [NeZero dim] (text : String) :
    ((hashingEmbeddingProvider dim : EmbeddingProvider R).embed text).length = dim := by
  simp only [hashingEmbeddingProvider]
  split
  · exact hashTokensLength dim _
  · simpa using hashTokensLength (R := R) dim _

end ContextOS
