import ContextOS.Lib.Vectors
import ContextOS.NearDuplicates
import Mathlib.Analysis.SpecialFunctions.Pow.Real

/-! Recall of a memory by its own words. A memory has cosine one with the query that is its
content, and no row has more, so some row of cosine one heads the dense ranking. Its vector
points in the same direction, and it is a candidate: it is returned or collapsed into a near
one, which is then near the memory as well. -/
namespace ContextOS
open Lib (Dict mapMOk maxIff minIff dot dotBound dotParallel dotSelfNonneg dotSelfPos)

variable {R : Type} [PyFloat R]

/-! ### Directions -/

section Directions
variable [ExactFloat R] {a b : List R}

theorem normSquare (a : List R) : norm a * norm a = dot a a := by
  have squares : (a.map (fun x => x * x)).sum = dot a a := by rw [dot, List.zipWith_self]
  rw [norm, squares]
  exact ExactFloat.sqrtSquare _ (dotSelfNonneg a)

theorem normNonneg (a : List R) : 0 ≤ norm a := by
  have squares : (a.map (fun x => x * x)).sum = dot a a := by rw [dot, List.zipWith_self]
  rw [norm, squares]
  exact ExactFloat.sqrtNonneg _ (dotSelfNonneg a)

theorem normNonzero (nonzero : ∃ x ∈ a, x ≠ 0) : norm a ≠ 0 := by
  intro zero
  have square := normSquare a
  rw [zero, mul_zero] at square
  exact (dotSelfPos nonzero).ne square

theorem cosineOfSelf (nonzero : norm a ≠ 0) : cosineOf a a = 1 := by
  rw [cosineOf, if_neg (by simpa using nonzero)]
  exact (div_eq_one_iff_eq (mul_ne_zero nonzero nonzero)).mpr (normSquare a).symm

theorem cosineOfLeOne (same : a.length = b.length) : cosineOf a b ≤ 1 := by
  unfold cosineOf
  split
  · exact zero_le_one
  · rename_i nonzero
    obtain ⟨left, right⟩ := not_or.mp nonzero
    have pos := (normNonneg a).lt_of_ne' left
    have posOther := (normNonneg b).lt_of_ne' right
    rw [div_le_one (mul_pos pos posOther)]
    exact dotBound same pos posOther (normSquare a) (normSquare b)

theorem cosineOfParallel (same : a.length = b.length) (one : cosineOf a b = 1) (c : List R) : cosineOf b c = cosineOf a c := by
  by_cases nonzero : norm a = 0 ∨ norm b = 0
  · rw [cosineOf, if_pos nonzero] at one
    exact absurd one zero_ne_one
  · obtain ⟨left, right⟩ := not_or.mp nonzero
    rw [cosineOf, if_neg nonzero, div_eq_one_iff_eq (mul_ne_zero left right)] at one
    have parallel := dotParallel same (normSquare a) (normSquare b) one c
    simp only [cosineOf, left, right, false_or]
    split
    · rfl
    · rename_i third
      rw [div_eq_div_iff (mul_ne_zero right third) (mul_ne_zero left third)]
      change dot b c * _ = dot a c * _
      linear_combination -(norm c) * parallel

end Directions

theorem addRanksNone (k rank : Nat) (scores : Dict String R) (order : List String) (id : String) :
    (addRanks k rank scores order).get id = none ↔ scores.get id = none ∧ id ∉ order := by
  induction order generalizing rank scores with
  | nil => simp [addRanks]
  | cons mid rest ih =>
    rw [addRanks, ih, Dict.getSet, List.mem_cons, not_or]
    by_cases here : id = mid
    · simp [here]
    · simp [here]

theorem fusedNone (denseOrder sparseOrder : List String) (k : Nat) (id : String) :
    (rrfFuse denseOrder sparseOrder k : Dict String R).get id = none ↔ id ∉ denseOrder ∧ id ∉ sparseOrder := by
  rw [rrfFuse, addRanksNone, addRanksNone]
  simp

theorem normalizedNonneg [IsStrictOrderedRing R] (values : Dict String R) (id : String) :
    0 ≤ ((minmaxNormalize values).get id).getD 0 := by
  unfold minmaxNormalize
  split
  · rename_i lo hi least greatest
    split
    · rw [Dict.getMapValues]
      cases values.get id with
      | none => exact le_refl 0
      | some value => exact zero_le_one
    · rw [Dict.getMapValues]
      cases found : values.get id with
      | none => exact le_refl 0
      | some value =>
        have low := (minIff.mp least).2 value (Dict.memValues.mpr ⟨id, found⟩)
        have high := (maxIff.mp greatest).2 value (Dict.memValues.mpr ⟨id, found⟩)
        exact div_nonneg (sub_nonneg.mpr low) (sub_nonneg.mpr (low.trans high))
  · exact le_refl 0

namespace MemoryEngine

/-- Every row with its own vector and its cosine with the query. -/
structure ScoredRows (e : MemoryEngine R) (query : String) (rows : List (MemoryObject R)) (scored : List (Scored R)) : Prop where
  rows : scored.map (·.row) = rows
  vec : ∀ s ∈ scored, s.vec = e.embedder.embed s.row.content
  score : ∀ s ∈ scored, s.vectorScore = cosineOf (e.embedder.embed query) s.vec

omit [PyFloat R] in
theorem zippedRows {β γ δ : Type} (f : β → γ) (g : γ → R) (rows : List β) (extra : List δ) (same : extra.length = rows.length) :
    (rows.zip ((rows.map f).zip (((rows.map f).map g).zip extra))).map Prod.fst = rows ∧
    ∀ x ∈ rows.zip ((rows.map f).zip (((rows.map f).map g).zip extra)), x.2.1 = f x.1 ∧ x.2.2.1 = g (f x.1) := by
  induction rows generalizing extra with
  | nil => simp
  | cons row rest ih =>
    cases extra with
    | nil => simp at same
    | cons first extra =>
      obtain ⟨rows, each⟩ := ih extra (Nat.succ.inj same)
      simp only [List.map_cons, List.zip_cons_cons, rows, List.forall_mem_cons, true_and]
      exact each

def denseOf (scored : List (Scored R)) : List String :=
  ((scored.insertionSort (fun a b => b.vectorScore ≤ a.vectorScore)).take nDense).map (·.row.id)

def sparseOf (scored : List (Scored R)) : List String :=
  (((scored.insertionSort (fun a b => b.bm25 ≤ a.bm25)).filter (fun s => 0 < s.bm25)).take nSparse).map (·.row.id)

def fusedOf (scored : List (Scored R)) : Dict String R := rrfFuse (denseOf scored) (sparseOf scored) rrfK

def candidatesOf (now : Time) (scored : List (Scored R)) : List (MemoryCandidate R) :=
  scored.filterMap (candidate now (denseOf scored) (sparseOf scored) (fusedOf scored))

def vectorsOf (scored : List (Scored R)) (mid : String) : List R :=
  ((Dict.ofList (scored.map (fun s => (s.row.id, s.vec)))).get mid).getD []

-- the rows with their vectors, cosines and BM25 scores, as `retrieve` pairs them up
def scoredOf [Builtins] (e : MemoryEngine R) (query : String) (rows : List (MemoryObject R)) (vectorScores : List R) :
    List (Scored R) :=
  let bm25 := bm25Scores (tokenize query) ((rows.map (·.content)).map tokenize)
  (rows.zip ((e.embedder.embedMany (rows.map (·.content))).zip (vectorScores.zip bm25))).map
    (fun x => Scored.mk x.1 x.2.1 x.2.2.1 x.2.2.2)

theorem retrieveSteps [Builtins] (e : MemoryEngine R) {store : InMemoryStore R} {ctx : SecurityContext}
    {rows : List (MemoryObject R)} (listed : store.listMemories ctx scanLimit = rows) (some : rows ≠ []) (now : Time)
    (query : String) (k : Int) : e.retrieve now store ctx query k = (do
      let vectorScores ← (e.embedder.embedMany (rows.map (·.content))).mapM (fun cv => cosine (e.embedder.embed query) cv)
      let scored := scoredOf e query rows vectorScores
      (mmr (candidatesOf now scored) (minmaxNormalize (fusedOf scored)) (vectorsOf scored)).map
        (fun deduped => sliceTo deduped (min k maxCandidates))) := by
  have filled : rows.isEmpty = false := List.isEmpty_eq_false_iff.mpr some
  simp only [retrieve, listed, filled, Bool.false_eq_true, if_false]
  rfl

theorem retrieveScored [Builtins] {e : MemoryEngine R} {store : InMemoryStore R} {ctx : SecurityContext}
    (sized : e.embedder.Sized) (some : store.listMemories ctx scanLimit ≠ []) (now : Time) (query : String) (k : Int) :
    ∃ scored, ScoredRows e query (store.listMemories ctx scanLimit) scored ∧ e.retrieve now store ctx query k =
      (mmr (candidatesOf now scored) (minmaxNormalize (fusedOf scored)) (vectorsOf scored)).map
        (fun deduped => sliceTo deduped (min k maxCandidates)) := by
  obtain ⟨dim, sized⟩ := sized
  obtain ⟨rows, listed⟩ : ∃ rows, store.listMemories ctx scanLimit = rows := ⟨_, rfl⟩
  rw [listed] at some ⊢
  let f := fun row : MemoryObject R => e.embedder.embed row.content
  let g := fun cv => cosineOf (e.embedder.embed query) cv
  let bm25 : List R := bm25Scores (tokenize query) ((rows.map (·.content)).map tokenize)
  have vectors : e.embedder.embedMany (rows.map (·.content)) = rows.map f := List.map_map ..
  have measured : (rows.map f).mapM (fun cv => cosine (e.embedder.embed query) cv) = .ok ((rows.map f).map g) := by
    refine (mapMOk fun _ _ => cosineOk).mpr ⟨fun cv member => ?_, rfl⟩
    obtain ⟨row, _, rfl⟩ := List.mem_map.mp member
    exact (sized query).trans (sized row.content).symm
  have paired : scoredOf e query rows ((rows.map f).map g) =
      (rows.zip ((rows.map f).zip (((rows.map f).map g).zip bm25))).map (fun x => Scored.mk x.1 x.2.1 x.2.2.1 x.2.2.2) := by
    rw [scoredOf, vectors]
  obtain ⟨kept, each⟩ := zippedRows f g rows bm25 (by simp [bm25, bm25Scores])
  refine ⟨scoredOf e query rows ((rows.map f).map g), ?_, ?_⟩
  · rw [paired]
    refine ⟨?_, List.forall_mem_map.mpr fun x member => (each x member).1, List.forall_mem_map.mpr fun x member => ?_⟩
    · rw [List.map_map]
      exact kept
    · obtain ⟨vec, score⟩ := each x member
      change x.2.2.1 = g x.2.1
      rw [score, vec]
  · rw [retrieveSteps e listed some, vectors, measured]
    rfl

/-! ### Candidates -/

section Candidates
variable {now : Time} {scored : List (Scored R)}

theorem denseHead (some : scored ≠ []) : ∃ top ∈ scored, top.row.id ∈ denseOf scored ∧
    ∀ s ∈ scored, s.vectorScore ≤ top.vectorScore := by
  have falling := List.pairwise_insertionSort (fun a b : Scored R => b.vectorScore ≤ a.vectorScore) scored
  have perm := List.perm_insertionSort (fun a b : Scored R => b.vectorScore ≤ a.vectorScore) scored
  cases sorted : scored.insertionSort (fun a b => b.vectorScore ≤ a.vectorScore) with
  | nil => exact absurd (List.nil_perm.mp (sorted ▸ perm)) some
  | cons top rest =>
    rw [sorted] at falling perm
    refine ⟨top, perm.subset List.mem_cons_self, ?_, fun s member => ?_⟩
    · simp [denseOf, sorted, nDense]
    · rcases List.mem_cons.mp (perm.mem_iff.mpr member) with rfl | later
      · exact le_refl _
      · exact (List.pairwise_cons.mp falling).1 s later

variable (now) in
theorem candidateFound {s : Scored R} (member : s ∈ scored) (listed : s.row.id ∈ denseOf scored) :
    ∃ c ∈ candidatesOf now scored, CopyOf c s.row := by
  cases found : (fusedOf scored).get s.row.id with
  | none => exact absurd listed ((fusedNone _ _ _ _).mp found).1
  | some score =>
    have made : ∃ c, candidate now (denseOf scored) (sparseOf scored) (fusedOf scored) s = some c := by
      simp only [candidate, found]
      exact ⟨_, rfl⟩
    obtain ⟨c, made⟩ := made
    exact ⟨c, List.mem_filterMap.mpr ⟨s, member, made⟩, candidateCopies made⟩

theorem candidatesSublist (now : Time) (scored : List (Scored R)) :
    ((candidatesOf now scored).map (·.memoryId)).Sublist (scored.map (·.row.id)) := by
  unfold candidatesOf
  generalize denseOf scored = dense, sparseOf scored = sparse, fusedOf scored = fused
  induction scored with
  | nil => exact .slnil
  | cons s rest ih =>
    cases made : candidate now dense sparse fused s with
    | none =>
      rw [List.filterMap_cons_none made]
      exact ih.cons _
    | some c =>
      rw [List.filterMap_cons_some made, List.map_cons, List.map_cons, (candidateCopies made).id]
      exact ih.cons_cons _

theorem candidatesFew (distinct : (scored.map (·.row.id)).Nodup) : (candidatesOf now scored).length ≤ nDense + nSparse := by
  have once := distinct.sublist (candidatesSublist now scored)
  have ranked : (candidatesOf now scored).map (·.memoryId) ⊆ denseOf scored ++ sparseOf scored := by
    intro id listed
    obtain ⟨c, member, rfl⟩ := List.mem_map.mp listed
    obtain ⟨s, _, made⟩ := List.mem_filterMap.mp member
    rw [(candidateCopies made).id]
    by_contra missing
    rw [List.mem_append, not_or] at missing
    simp [candidate, (fusedNone _ _ rrfK _).mpr missing, fusedOf] at made
  have few := (List.subperm_of_subset once ranked).length_le
  simp only [List.length_map, List.length_append, denseOf, sparseOf, List.length_take] at few
  omega

theorem candidateSignals [ExactFloat R] (valued : ∀ s ∈ scored, 0 ≤ s.row.importance) {c : MemoryCandidate R}
    (member : c ∈ candidatesOf now scored) : Signals (minmaxNormalize (fusedOf scored)) c := by
  obtain ⟨s, inside, made⟩ := List.mem_filterMap.mp member
  refine ⟨normalizedNonneg _ _, ?_, ?_⟩
  · unfold candidate at made
    split at made <;> try contradiction
    cases Option.some.inj made
    simp only [recencyFactor]
    split
    · exact zero_le_one
    · exact ExactFloat.halfPowNonneg _
  · unfold candidate at made
    split at made <;> try contradiction
    cases Option.some.inj made
    exact valued s inside

variable (now) in
theorem vectorsFound {e : MemoryEngine R} {query : String} {rows : List (MemoryObject R)}
    (scores : ScoredRows e query rows scored) (distinct : (scored.map (·.row.id)).Nodup) {c : MemoryCandidate R}
    (member : c ∈ candidatesOf now scored) : vectorsOf scored c.memoryId = e.embedder.embed c.content := by
  obtain ⟨s, inside, made⟩ := List.mem_filterMap.mp member
  have keys : ((scored.map (fun s => (s.row.id, s.vec))).map Prod.fst).Nodup := by
    rw [List.map_map]
    exact distinct
  rw [vectorsOf, (candidateCopies made).id, (candidateCopies made).content, ← scores.vec s inside,
    Dict.getOfList keys (List.mem_map_of_mem inside)]
  rfl

end Candidates

/-! ### Recall -/

omit [PyFloat R] in
theorem slicedWhole {deduped : List (MemoryCandidate R)} {k : Int} (few : deduped.length ≤ nDense + nSparse)
    (enough : nDense + nSparse ≤ k) : sliceTo deduped (min k maxCandidates) = deduped := by
  simp only [nDense, nSparse, maxCandidates] at *
  rw [sliceTo, if_pos (by omega), List.take_of_length_le (by omega)]

theorem collapsedNear {vecs : String → List R} {cands deduped : List (MemoryCandidate R)} {c : MemoryCandidate R}
    (collapse : Collapse vecs cands deduped) (few : deduped.length ≤ nDense + nSparse) (member : c ∈ cands)
    (itself : cosDup ≤ cosineOf (vecs c.memoryId) (vecs c.memoryId)) :
    ∃ s ∈ deduped, cosDup ≤ cosineOf (vecs c.memoryId) (vecs s.memoryId) := by
  by_cases kept : c ∈ deduped
  · exact ⟨c, kept, itself⟩
  · rcases collapse.covered with full | near
    · simp only [nDense, nSparse, maxCandidates] at few full
      omega
    · obtain ⟨s, inside, sim, measured, high⟩ := near c member kept
      obtain ⟨_, rfl⟩ := cosineOk.mp measured
      exact ⟨s, inside, high⟩

theorem denseParallel [ExactFloat R] {e : MemoryEngine R} {rows : List (MemoryObject R)} {scored : List (Scored R)}
    {own : Scored R} {dim : Nat} (scores : ScoredRows e own.row.content rows scored)
    (sized : ∀ text, (e.embedder.embed text).length = dim) (ownIn : own ∈ scored)
    (nonzero : ∃ x ∈ e.embedder.embed own.row.content, x ≠ 0) :
    ∃ top ∈ scored, top.row.id ∈ denseOf scored ∧ cosineOf (e.embedder.embed own.row.content) top.vec = 1 ∧
      ∀ vec, cosineOf top.vec vec = cosineOf (e.embedder.embed own.row.content) vec := by
  obtain ⟨top, topIn, ranked, best⟩ := denseHead (List.ne_nil_of_mem ownIn)
  have same : (e.embedder.embed own.row.content).length = top.vec.length := by rw [scores.vec top topIn, sized, sized]
  have one : cosineOf (e.embedder.embed own.row.content) top.vec = 1 := by
    refine le_antisymm (cosineOfLeOne same) ?_
    rw [← scores.score top topIn, ← cosineOfSelf (normNonzero nonzero)]
    exact (scores.vec own ownIn ▸ scores.score own ownIn).symm.trans_le (best own ownIn)
  exact ⟨top, topIn, ranked, one, cosineOfParallel same one⟩

theorem recalled [ExactFloat R] [Builtins] {e : MemoryEngine R} {store : InMemoryStore R} {ctx : SecurityContext}
    {m : MemoryObject R} {k : Int} (valid : store.WellScoped) (few : (store.scope ctx).length ≤ scanLimit)
    (valued : ∀ row ∈ store.scope ctx, 0 ≤ row.importance) (sized : e.embedder.Sized) (inScope : m ∈ store.scope ctx)
    (nonzero : ∃ x ∈ e.embedder.embed m.content, x ≠ 0) (enough : 400 ≤ k) (now : Time) :
    ∃ result, e.retrieve now store ctx m.content k = .ok result ∧
      ∃ c ∈ result, c.tenantId = ctx.tenantId ∧ c.namespaceId = ctx.namespaceId ∧
        ∃ sim, cosine (e.embedder.embed c.content) (e.embedder.embed m.content) = .ok sim ∧ cosDup ≤ sim := by
  have listed := InMemoryStore.listScope few
  obtain ⟨scored, scores, returned⟩ := retrieveScored sized (listed ▸ List.ne_nil_of_mem inScope) now m.content k
  obtain ⟨dim, sized⟩ := sized
  rw [listed] at scores
  have rowOf : ∀ s ∈ scored, s.row ∈ store.scope ctx := fun s member => scores.rows ▸ List.mem_map_of_mem member
  have distinct : (scored.map (·.row.id)).Nodup := by
    have once := valid.scopeDistinct ctx
    rwa [← scores.rows, List.map_map] at once
  have vectors := fun c member => vectorsFound now (c := c) scores distinct member
  obtain ⟨own, ownIn, rfl⟩ := List.mem_map.mp (scores.rows.symm ▸ inScope)
  obtain ⟨top, topIn, ranked, one, direction⟩ := denseParallel scores sized ownIn nonzero
  obtain ⟨c, member, copy⟩ := candidateFound now topIn ranked
  have here : vectorsOf scored c.memoryId = top.vec := by rw [vectors c member, copy.content, scores.vec top topIn]
  -- the loop keeps it or something near
  have once := distinct.sublist (candidatesSublist now scored)
  obtain ⟨deduped, ok⟩ : ∃ deduped, mmr (candidatesOf now scored) (minmaxNormalize (fusedOf scored)) (vectorsOf scored) =
      .ok deduped := mmrEnds fun a inA b inB => by rw [vectors a inA, vectors b inB, sized, sized]
  have collapse := mmrCollapses once
    (fun c member => candidateSignals (fun s inside => valued s.row (rowOf s inside)) member) ok
  have small : deduped.length ≤ nDense + nSparse :=
    (List.subperm_of_subset (.of_map _ collapse.distinct) collapse.given).length_le.trans (candidatesFew distinct)
  obtain ⟨s, kept, near⟩ := collapsedNear collapse small member (by
    rw [here, direction, one]
    norm_num [cosDup])
  refine ⟨deduped, ?_, s, kept, ?_⟩
  · rw [returned, ok]
    exact congrArg Except.ok (slicedWhole small enough)
  · obtain ⟨origin, inside, made⟩ := List.mem_filterMap.mp (collapse.given kept)
    obtain ⟨tenant, ns⟩ := valid.owner (rowOf origin inside)
    rw [here, direction, vectors s (collapse.given kept)] at near
    have measured := cosineComm (cosineOk.mpr ⟨(sized own.row.content).trans (sized s.content).symm, rfl⟩)
    exact ⟨(candidateCopies made).tenant.trans tenant, (candidateCopies made).ns.trans ns, _, measured, near⟩

end MemoryEngine

noncomputable instance : PyFloat ℝ where
  sqrt := Real.sqrt
  log := Real.log
  halfPow x := (1 / 2) ^ x
  fixed digits x := ratFixed digits ((⌊x * (10 ^ digits : ℕ) + 1 / 2⌋ : ℚ) / 10 ^ digits)

instance : ExactFloat ℝ where
  __ := (inferInstance : IsStrictOrderedRing ℝ)
  sqrtNonneg x _ := Real.sqrt_nonneg x
  sqrtSquare _ positive := Real.mul_self_sqrt positive
  halfPowNonneg x := Real.rpow_nonneg (by norm_num) x

noncomputable def colourNote (id tenant ns colour : String) : MemoryObject ℝ :=
  ⟨id, tenant, ns, .semantic, colour, none, 1 / 2, 0, 0, ⟨"chat", none, 0⟩, Dict.empty⟩

/-- Two colours in the reader's scope, and the one that is asked for in two other scopes. -/
noncomputable def colourStore : InMemoryStore ℝ :=
  InMemoryStore.putAll (InMemoryStore.putAll Dict.empty "acme"
      [colourNote "memory-1" "acme" "sales" "red", colourNote "memory-2" "acme" "sales" "blue",
       colourNote "memory-3" "acme" "legal" "blue"])
    "globex" [colourNote "memory-4" "globex" "sales" "blue"]

noncomputable def twoWays : EmbeddingProvider ℝ := ⟨fun text => if text = "blue" then [1, 0] else [0, 1]⟩

theorem recalledBlue :
    letI := asciiBuiltins [] []
    ∃ result, (MemoryEngine.mk twoWays).retrieve 0 colourStore (member "acme" "sales") "blue" 400 = .ok result ∧
      ∃ c ∈ result, c.tenantId = "acme" ∧ c.namespaceId = "sales" ∧
        ∃ sim, cosine (twoWays.embed c.content) (twoWays.embed "blue") = .ok sim ∧ cosDup ≤ sim := by
  let _ := asciiBuiltins [] []
  have scope : colourStore.scope (member "acme" "sales") =
      [colourNote "memory-1" "acme" "sales" "red", colourNote "memory-2" "acme" "sales" "blue"] := rfl
  have valid : colourStore.WellScoped := InMemoryStore.putAllWellScoped
    (InMemoryStore.putAllWellScoped InMemoryStore.emptyWellScoped (by simp [colourNote])) (by simp [colourNote])
  have few : (colourStore.scope (member "acme" "sales")).length ≤ scanLimit := by simp [scope, scanLimit]
  have valued : ∀ row ∈ colourStore.scope (member "acme" "sales"), 0 ≤ row.importance := by simp [scope, colourNote]
  have sized : twoWays.Sized := by
    refine ⟨2, fun text => ?_⟩
    simp only [twoWays]
    split <;> rfl
  have inScope : colourNote "memory-2" "acme" "sales" "blue" ∈ colourStore.scope (member "acme" "sales") := by simp [scope]
  have nonzero : ∃ x ∈ twoWays.embed "blue", x ≠ 0 := ⟨1, by simp [twoWays], one_ne_zero⟩
  exact MemoryEngine.recalled (e := ⟨twoWays⟩) valid few valued sized inScope nonzero (le_refl _) 0

end ContextOS
