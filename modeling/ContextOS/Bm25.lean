import ContextOS.Recall
import Mathlib.Algebra.Order.BigOperators.Group.List
import Mathlib.Data.List.Dedup

/-! BM25 with arithmetic that may raise. Every divisor and every argument of the logarithm is
in range whatever the corpus, since no term is counted in more documents than there are; a
term adds a positive share to the documents that have it and nothing to the rest. -/
namespace ContextOS
open Lib

variable {R : Type} [PyFloat R]

/-! ### Arithmetic that raises -/

inductive ArithmeticError where
  | zeroDivision
  | mathDomain
  | missingKey
  deriving DecidableEq, Repr

def divide (x y : R) : Except ArithmeticError R := if y = 0 then .error .zeroDivision else .ok (x / y)

def mathLog (x : R) : Except ArithmeticError R := if x ≤ 0 then .error .mathDomain else .ok (PyFloat.log x)

def item (d : Dict String R) (key : String) : Except ArithmeticError R :=
  match d.get key with
  | some value => .ok value
  | none => .error .missingKey

theorem divideOk {y : R} (nonzero : y ≠ 0) (x : R) : divide x y = .ok (x / y) := if_neg nonzero

def raisingFrequency (docs : List (List String)) (term : String) : Except ArithmeticError (String × R) := do
  let df : R := documentFrequency docs term
  let odds ← divide ((docs.length : R) - df + 0.5) (df + 0.5)
  let value ← mathLog (1 + odds)
  pure (term, value)

-- `dl / avgdl if avgdl else 0.0`
def lengthRatio (avgdl : R) (doc : List String) : Except ArithmeticError R :=
  if avgdl = 0 then .ok 0 else divide (doc.length : R) avgdl

def raisingTerm (idf : Dict String R) (k1 b avgdl : R) (doc : List String) (score : R) (term : String) :
    Except ArithmeticError R :=
  if doc.count term = 0 then pure score
  else do
    let f : R := doc.count term
    let ratio ← lengthRatio avgdl doc
    let weight ← item idf term
    let share ← divide (weight * (f * (k1 + 1))) (f + k1 * (1 - b + b * ratio))
    pure (score + share)

-- `bm25_scores` as `bm25Scores` translates it, with each operation that can raise made to
def raisingScores (queryTokens : List String) (docs : List (List String)) : Except ArithmeticError (List R) :=
  if docs.length = 0 then .ok []
  else do
    let avgdl ← divide ((docs.map List.length).sum : R) (docs.length : R)
    let idf ← queryTokens.dedup.mapM (raisingFrequency docs)
    docs.mapM fun doc => queryTokens.dedup.foldlM (raisingTerm (Dict.ofList idf) 1.5 0.75 avgdl doc) 0

theorem documentFrequencyLe (docs : List (List String)) (term : String) : documentFrequency docs term ≤ docs.length :=
  List.countP_le_length

section Ranges
variable [IsStrictOrderedRing R]

theorem oddsPositive (docs : List (List String)) (term : String) :
    (0 : R) < (documentFrequency docs term : R) + 0.5 ∧
      0 < ((docs.length : R) - (documentFrequency docs term : R) + 0.5) / ((documentFrequency docs term : R) + 0.5) := by
  have counted : (documentFrequency docs term : R) ≤ docs.length := Nat.cast_le.mpr (documentFrequencyLe docs term)
  have some : (0 : R) ≤ documentFrequency docs term := Nat.cast_nonneg _
  have half : (0 : R) < 0.5 := by norm_num
  have divisor : (0 : R) < (documentFrequency docs term : R) + 0.5 := by linarith
  exact ⟨divisor, div_pos (by linarith) divisor⟩

theorem inverseFrequencyPositive (logPositive : ∀ x : R, 1 < x → 0 < PyFloat.log x) (docs : List (List String)) (term : String) :
    (0 : R) < inverseFrequency docs term :=
  logPositive _ (by linarith [(oddsPositive (R := R) docs term).2])

theorem averageNonneg (docs : List (List String)) : (0 : R) ≤ ((docs.map List.length).sum : R) / (docs.length : R) :=
  div_nonneg (Nat.cast_nonneg _) (Nat.cast_nonneg _)

theorem ratioNonneg {avgdl : R} (average : 0 ≤ avgdl) (doc : List String) :
    0 ≤ (if avgdl = 0 then 0 else (doc.length : R) / avgdl) := by
  split
  · exact le_refl 0
  · exact div_nonneg (Nat.cast_nonneg _) average

theorem denominatorPositive {ratio : R} (nonneg : 0 ≤ ratio) {f : Nat} (present : f ≠ 0) :
    0 < (f : R) + 1.5 * (1 - 0.75 + 0.75 * ratio) := by
  have counted : (0 : R) < f := Nat.cast_pos.mpr (Nat.pos_of_ne_zero present)
  have length : (0 : R) ≤ 1.5 * (1 - 0.75 + 0.75 * ratio) := by
    have quarter : (0 : R) ≤ 1 - 0.75 := by norm_num
    have scaled : (0 : R) ≤ 0.75 * ratio := mul_nonneg (by norm_num) nonneg
    exact mul_nonneg (by norm_num) (add_nonneg quarter scaled)
  exact add_pos_of_pos_of_nonneg counted length

/-! ### Nothing raises -/

theorem raisingFrequencyOk (docs : List (List String)) (term : String) :
    raisingFrequency docs term = .ok (term, (inverseFrequency docs term : R)) := by
  obtain ⟨divisor, odds⟩ := oddsPositive (R := R) docs term
  have argument : ¬ 1 + ((docs.length : R) - (documentFrequency docs term : R) + 0.5) / ((documentFrequency docs term : R) + 0.5) ≤ 0 := by
    linarith
  simp only [raisingFrequency, divideOk divisor.ne', bind, Except.bind, mathLog, if_neg argument]
  rfl

theorem raisingTermOk {avgdl : R} (average : 0 ≤ avgdl) {docs : List (List String)} {idf : Dict String R} {term : String}
    (weighed : idf.get term = some (inverseFrequency docs term)) (doc : List String) (score : R) :
    raisingTerm idf 1.5 0.75 avgdl doc score term = .ok (score + termScore docs 1.5 0.75 avgdl doc term) := by
  unfold raisingTerm termScore
  split
  · rw [add_zero]
    rfl
  · rename_i present
    have denominator := denominatorPositive (ratioNonneg average doc) present
    have ratio : lengthRatio avgdl doc = .ok (if avgdl = 0 then 0 else (doc.length : R) / avgdl) := by
      unfold lengthRatio
      split
      · rfl
      · rename_i nonzero
        exact divideOk nonzero _
    simp only [ratio, bind, Except.bind, item, weighed, divideOk denominator.ne']
    rfl

theorem raisingFoldOk {avgdl : R} (average : 0 ≤ avgdl) {docs : List (List String)} {idf : Dict String R} (doc : List String)
    {terms : List String} (weighed : ∀ term ∈ terms, idf.get term = some (inverseFrequency docs term)) (score : R) :
    terms.foldlM (raisingTerm idf 1.5 0.75 avgdl doc) score =
      .ok (score + (terms.map (termScore docs 1.5 0.75 avgdl doc)).sum) := by
  induction terms generalizing score with
  | nil => simp [pure, Except.pure]
  | cons term rest ih =>
    rw [List.foldlM_cons, raisingTermOk average (weighed term List.mem_cons_self), List.map_cons, List.sum_cons, ← add_assoc]
    exact ih (fun later member => weighed later (List.mem_cons_of_mem _ member)) _

theorem raisingScoresOk (queryTokens : List String) (docs : List (List String)) :
    raisingScores queryTokens docs = .ok (bm25Scores queryTokens docs : List R) := by
  unfold raisingScores
  split
  · rename_i empty
    obtain rfl := List.length_eq_zero_iff.mp empty
    rfl
  · rename_i filled
    have frequency : ∀ term entry, raisingFrequency docs term = .ok entry ↔
        True ∧ entry = (term, (inverseFrequency docs term : R)) := fun term entry => by simp [raisingFrequencyOk, eq_comm]
    have idf : queryTokens.dedup.mapM (raisingFrequency docs) =
        .ok (queryTokens.dedup.map fun term => (term, (inverseFrequency docs term : R))) :=
      (mapMOk frequency).mpr ⟨fun _ _ => trivial, rfl⟩
    have keys : ((queryTokens.dedup.map fun term => (term, (inverseFrequency docs term : R))).map Prod.fst).Nodup := by
      rw [List.map_map]
      exact (List.map_id _).symm ▸ queryTokens.nodup_dedup
    have weighed : ∀ term ∈ queryTokens.dedup, (Dict.ofList (queryTokens.dedup.map fun term =>
        (term, (inverseFrequency docs term : R)))).get term = some (inverseFrequency docs term) :=
      fun term member => Dict.getOfList keys (List.mem_map_of_mem member)
    let avgdl : R := ((docs.map List.length).sum : R) / (docs.length : R)
    let idf' := Dict.ofList (queryTokens.dedup.map fun term => (term, (inverseFrequency docs term : R)))
    have score : ∀ doc value, queryTokens.dedup.foldlM (raisingTerm idf' 1.5 0.75 avgdl doc) 0 = .ok value ↔
        True ∧ value = (queryTokens.dedup.map (termScore docs 1.5 0.75 avgdl doc)).sum := fun doc value => by
      rw [raisingFoldOk (averageNonneg docs) doc weighed 0, zero_add]
      exact ⟨fun ok => ⟨trivial, (Except.ok.inj ok).symm⟩, fun same => same.2 ▸ rfl⟩
    have average : divide ((docs.map List.length).sum : R) (docs.length : R) = .ok avgdl :=
      divideOk (Nat.cast_ne_zero.mpr filled) _
    simp only [average, idf, bind, Except.bind]
    exact (mapMOk score).mpr ⟨fun _ _ => trivial, rfl⟩

theorem termScoreSign (logPositive : ∀ x : R, 1 < x → 0 < PyFloat.log x) {avgdl : R} (average : 0 ≤ avgdl)
    (docs : List (List String)) (doc : List String) (term : String) :
    0 ≤ termScore docs 1.5 0.75 avgdl doc term ∧ (0 < termScore docs 1.5 0.75 avgdl doc term ↔ term ∈ doc) := by
  by_cases absent : doc.count term = 0
  · have zero : (termScore docs 1.5 0.75 avgdl doc term : R) = 0 := if_pos absent
    rw [zero]
    exact ⟨le_refl 0, fun less => absurd less (lt_irrefl 0), fun member => absurd absent (List.count_pos_iff.mpr member).ne'⟩
  · have member : term ∈ doc := List.count_pos_iff.mp (Nat.pos_of_ne_zero absent)
    have counted : (0 : R) < doc.count term := Nat.cast_pos.mpr (Nat.pos_of_ne_zero absent)
    have saturation : (0 : R) < 1.5 + 1 := by norm_num
    have numerator := mul_pos (inverseFrequencyPositive logPositive docs term) (mul_pos counted saturation)
    have positive := div_pos numerator (denominatorPositive (ratioNonneg average doc) absent)
    have value : (termScore docs 1.5 0.75 avgdl doc term : R) = _ := if_neg absent
    rw [value]
    exact ⟨positive.le, fun _ => member, fun _ => positive⟩

def docScore (queryTokens : List String) (docs : List (List String)) (doc : List String) : R :=
  (queryTokens.dedup.map (termScore docs 1.5 0.75 (((docs.map List.length).sum : R) / (docs.length : R)) doc)).sum

theorem docScoreSign (logPositive : ∀ x : R, 1 < x → 0 < PyFloat.log x) (queryTokens : List String) (docs : List (List String))
    (doc : List String) : (0 : R) ≤ docScore queryTokens docs doc ∧
      ((0 : R) < docScore queryTokens docs doc ↔ ∃ term ∈ queryTokens, term ∈ doc) := by
  have sign := termScoreSign logPositive (averageNonneg docs) docs doc
  have nonneg : ∀ x ∈ queryTokens.dedup.map (termScore docs 1.5 0.75 (((docs.map List.length).sum : R) / (docs.length : R)) doc),
      0 ≤ x := List.forall_mem_map.mpr fun term _ => (sign term).1
  refine ⟨List.sum_nonneg nonneg, fun positive => ?_, fun shared => ?_⟩
  · by_contra apart
    push Not at apart
    refine positive.ne' (List.sum_eq_zero (List.forall_mem_map.mpr fun term member => ?_))
    have absent := mt (sign term).2.mp (apart term (List.mem_dedup.mp member))
    exact le_antisymm (not_lt.mp absent) (sign term).1
  · obtain ⟨term, asked, member⟩ := shared
    have share := (sign term).2.mpr member
    exact share.trans_le (List.single_le_sum nonneg _ (List.mem_map_of_mem (List.mem_dedup.mpr asked)))

structure Bm25Sound (R : Type) [PyFloat R] (queryTokens : List String) (docs : List (List String)) : Prop where
  defined : raisingScores queryTokens docs = .ok (bm25Scores queryTokens docs : List R)
  idf : ∀ term, (0 : R) < inverseFrequency docs term
  nonneg : ∀ score ∈ (bm25Scores queryTokens docs : List R), 0 ≤ score
  length : (bm25Scores queryTokens docs : List R).length = docs.length
  support : ∀ (i : Nat) (score : R) (doc : List String), (bm25Scores queryTokens docs)[i]? = some score → docs[i]? = some doc →
    (0 < score ↔ ∃ term ∈ queryTokens, term ∈ doc)

theorem bm25Sound (logPositive : ∀ x : R, 1 < x → 0 < PyFloat.log x) (queryTokens : List String) (docs : List (List String)) :
    Bm25Sound R queryTokens docs := by
  have entries : (bm25Scores queryTokens docs : List R) = docs.map (docScore queryTokens docs) := rfl
  refine ⟨raisingScoresOk queryTokens docs, inverseFrequencyPositive logPositive docs, ?_, ?_, fun i score doc scored listed => ?_⟩
  · rw [entries]
    exact List.forall_mem_map.mpr fun doc _ => (docScoreSign logPositive queryTokens docs doc).1
  · rw [entries, List.length_map]
  · rw [entries, List.getElem?_map, listed] at scored
    cases Option.some.inj scored
    exact (docScoreSign logPositive queryTokens docs doc).2

end Ranges

/-! ### The sparse ranking -/

theorem zippedLast {α β γ δ : Type} (h : α → δ) {rows : List α} {xs : List β} {ys : List γ} (same : xs.length = rows.length)
    (same' : ys.length = rows.length) : (rows.zip (xs.zip (ys.zip (rows.map h)))).map Prod.fst = rows ∧
      ∀ x ∈ rows.zip (xs.zip (ys.zip (rows.map h))), x.2.2.2 = h x.1 := by
  induction rows generalizing xs ys with
  | nil => simp
  | cons row rest ih =>
    cases xs with
    | nil => cases same
    | cons x xs =>
      cases ys with
      | nil => cases same'
      | cons y ys =>
        obtain ⟨kept, each⟩ := ih (Nat.succ.inj same) (Nat.succ.inj same')
        simp only [List.map_cons, List.zip_cons_cons, kept, List.forall_mem_cons, true_and]
        exact each

namespace MemoryEngine
section Sparse
variable [Builtins]

def SharesToken (query : String) (row : MemoryObject R) : Prop := ∃ term ∈ tokenize query, term ∈ tokenize row.content
instance (query : String) (row : MemoryObject R) : Decidable (SharesToken query row) := by unfold SharesToken; infer_instance

/-- The sparse list holds the rows that share a token with the query, best first and cut at `nSparse`. -/
structure SparseExact (query : String) (rows : List (MemoryObject R)) (scored : List (Scored R)) : Prop where
  kept : scored.map (·.row) = rows
  ranked : ∃ ranked : List (Scored R), ranked.Perm (scored.filter fun s => SharesToken query s.row) ∧
    ranked.Pairwise (fun s t => t.bm25 ≤ s.bm25) ∧ sparseOf scored = (ranked.take nSparse).map (·.row.id)
  uncut : (rows.filter fun row => SharesToken query row).length ≤ nSparse →
    ∀ mid, mid ∈ sparseOf scored ↔ ∃ row ∈ rows, row.id = mid ∧ SharesToken query row

theorem scoredBm25 (e : MemoryEngine R) (query : String) {rows : List (MemoryObject R)} {vectorScores : List R}
    (same : vectorScores.length = rows.length) :
    (scoredOf e query rows vectorScores).map (·.row) = rows ∧ ∀ s ∈ scoredOf e query rows vectorScores,
      s.bm25 = docScore (tokenize query) ((rows.map (·.content)).map tokenize) (tokenize s.row.content) := by
  let docs := (rows.map (·.content)).map tokenize
  let bm25 : MemoryObject R → R := fun row => docScore (tokenize query) docs (tokenize row.content)
  have vectors : (e.embedder.embedMany (rows.map (·.content))).length = rows.length := by simp [EmbeddingProvider.embedMany]
  have scores : bm25Scores (tokenize query) docs = rows.map bm25 := by
    change docs.map (docScore (tokenize query) docs) = rows.map bm25
    exact (List.map_map ..).trans (List.map_map ..)
  obtain ⟨kept, last⟩ := zippedLast bm25 vectors same
  rw [scoredOf, scores, List.map_map]
  exact ⟨kept, List.forall_mem_map.mpr last⟩

theorem sparseExact [IsStrictOrderedRing R] (logPositive : ∀ x : R, 1 < x → 0 < PyFloat.log x) (e : MemoryEngine R)
    (query : String) {rows : List (MemoryObject R)} {vectorScores : List R} (same : vectorScores.length = rows.length) :
    SparseExact query rows (scoredOf e query rows vectorScores) := by
  obtain ⟨rowsKept, scores⟩ := scoredBm25 e query same
  generalize scoredOf e query rows vectorScores = scored at rowsKept scores
  have shared : ∀ s ∈ scored, (0 < s.bm25 ↔ SharesToken query s.row) := fun s member => by
    rw [scores s member]
    exact (docScoreSign logPositive (tokenize query) _ (tokenize s.row.content)).2
  obtain ⟨sorted, arranged⟩ : ∃ sorted, scored.insertionSort (fun a b => b.bm25 ≤ a.bm25) = sorted := ⟨_, rfl⟩
  have perm : sorted.Perm scored := arranged ▸ List.perm_insertionSort _ scored
  have descending : sorted.Pairwise (fun s t => t.bm25 ≤ s.bm25) := by
    rw [← arranged]
    exact List.pairwise_insertionSort (fun s t : Scored R => t.bm25 ≤ s.bm25) scored
  have positive : sorted.filter (fun s => 0 < s.bm25) = sorted.filter (fun s => SharesToken query s.row) :=
    List.filter_congr fun s member => decide_eq_decide.mpr (shared s (perm.mem_iff.mp member))
  have sparse : sparseOf scored = ((sorted.filter fun s => SharesToken query s.row).take nSparse).map (·.row.id) := by
    rw [sparseOf, arranged, positive]
  refine ⟨rowsKept, ⟨_, perm.filter _, descending.filter _, sparse⟩, fun few mid => ?_⟩
  have counted : (sorted.filter fun s => SharesToken query s.row).length ≤ nSparse := by
    rw [(perm.filter _).length_eq]
    rw [← rowsKept, List.filter_map, List.length_map] at few
    exact few
  rw [sparse, List.take_of_length_le counted, List.mem_map]
  constructor
  · rintro ⟨s, member, rfl⟩
    obtain ⟨inside, token⟩ := List.mem_filter.mp member
    exact ⟨s.row, rowsKept ▸ List.mem_map_of_mem (perm.mem_iff.mp inside), rfl, of_decide_eq_true token⟩
  · rintro ⟨row, inside, rfl, token⟩
    obtain ⟨s, member, rfl⟩ := List.mem_map.mp (rowsKept ▸ inside)
    exact ⟨s, List.mem_filter.mpr ⟨perm.mem_iff.mpr member, decide_eq_true token⟩, rfl⟩

/-- What `retrieve` does once the cosines are there: nothing but `scored` decides its candidates. -/
structure SparseRetrieved (e : MemoryEngine R) (store : InMemoryStore R) (ctx : SecurityContext) (query : String)
    (scored : List (Scored R)) : Prop where
  sparse : SparseExact query (store.listMemories ctx scanLimit) scored
  retrieved : ∀ now k, e.retrieve now store ctx query k =
    (mmr (candidatesOf now scored) (minmaxNormalize (fusedOf scored)) (vectorsOf scored)).map
      (fun deduped => sliceTo deduped (min k maxCandidates))

theorem bm25Exact [IsStrictOrderedRing R] (logPositive : ∀ x : R, 1 < x → 0 < PyFloat.log x) :
    (∀ queryTokens docs, Bm25Sound R queryTokens docs) ∧
      ∀ (e : MemoryEngine R) (store : InMemoryStore R) (ctx : SecurityContext) (query : String) (rows : List (MemoryObject R))
        (vectorScores : List R), store.listMemories ctx scanLimit = rows → rows ≠ [] →
        (e.embedder.embedMany (rows.map (·.content))).mapM (fun cv => cosine (e.embedder.embed query) cv) = .ok vectorScores →
        SparseRetrieved e store ctx query (scoredOf e query rows vectorScores) := by
  refine ⟨fun queryTokens docs => bm25Sound logPositive queryTokens docs, ?_⟩
  rintro e store ctx query rows vectorScores rfl some measured
  have same : vectorScores.length = (store.listMemories ctx scanLimit).length := by
    rw [((mapMOk fun _ _ => cosineOk).mp measured).2]
    simp [EmbeddingProvider.embedMany]
  refine ⟨sparseExact logPositive e query same, fun now k => ?_⟩
  rw [retrieveSteps e rfl some, measured]
  rfl

end Sparse
end MemoryEngine

theorem ratLogPositive (x : ℚ) (above : 1 < x) : 0 < PyFloat.log x :=
  div_pos (mul_pos two_pos (sub_pos.mpr above)) (by linarith)

def drinkNote (id ns content : String) : MemoryObject ℚ :=
  ⟨id, "acme", ns, .semantic, content, none, 1 / 2, 0, 0, ⟨"chat", none, 0⟩, Dict.empty⟩

def drinkStore : InMemoryStore ℚ :=
  InMemoryStore.putAll Dict.empty "acme"
    [drinkNote "memory-1" "sales" "green tea", drinkNote "memory-2" "legal" "tea", drinkNote "memory-3" "sales" "coffee",
     drinkNote "memory-4" "sales" "a pot of tea"]

def drinkRows : List (MemoryObject ℚ) :=
  [drinkNote "memory-1" "sales" "green tea", drinkNote "memory-3" "sales" "coffee", drinkNote "memory-4" "sales" "a pot of tea"]

def drinkEngine : MemoryEngine ℚ := ⟨⟨fun text => if text = "coffee" then [0, 1] else [1, 0]⟩⟩

theorem bm25ExactTea :
    letI := asciiBuiltins [] []
    Bm25Sound ℚ ["green", "tea"] [["tea"], [], ["tea", "pot"]] ∧ ∃ vectorScores,
      MemoryEngine.SparseRetrieved drinkEngine drinkStore (member "acme" "sales") "tea"
        (MemoryEngine.scoredOf drinkEngine "tea" drinkRows vectorScores) := by
  let _ := asciiBuiltins [] []
  obtain ⟨near, measured⟩ := cosineTotal (R := ℚ) (a := [1, 0]) (b := [1, 0]) rfl
  obtain ⟨far, measured'⟩ := cosineTotal (R := ℚ) (a := [1, 0]) (b := [0, 1]) rfl
  obtain ⟨sound, sparse⟩ := MemoryEngine.bm25Exact ratLogPositive
  refine ⟨sound _ _, [near, far, near], sparse drinkEngine drinkStore (member "acme" "sales") "tea" drinkRows
    [near, far, near] rfl (by simp [drinkRows]) ?_⟩
  change List.mapM (fun cv => cosine [1, 0] cv) [[1, 0], [0, 1], [1, 0]] = .ok [near, far, near]
  simp only [List.mapM_cons, List.mapM_nil, measured, measured', bind, Except.bind, pure, Except.pure]

end ContextOS
