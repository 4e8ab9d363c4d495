import ContextOS.Assembler

/-! What an assembled context consists of: the kept candidates are some of the given
ones, they are counted exactly by the decisions, they fit the soft budget, and the
rendered messages contain a memory message exactly when there is one. Candidates below
the top are all recorded as evicted. -/
namespace ContextOS
open Lib (bindOk pureOk fill fillSublist fillFits alternatePerm)

variable {R : Type}

def DistinctRanked (ranked : List (Ranked R)) : Prop := (ranked.map (·.1.memoryId)).Nodup

instance (ranked : List (Ranked R)) : Decidable (DistinctRanked ranked) := inferInstanceAs (Decidable (List.Nodup _))

theorem DistinctRanked.nodup {ranked : List (Ranked R)} (distinct : DistinctRanked ranked) : ranked.Nodup := .of_map _ distinct

def keptCount (decisions : List (CandidateDecision R)) : Nat := (decisions.filter (·.kept)).length

theorem countWithNonneg {tokenizer : Option Tokenizer} (nonneg : ∀ t ∈ tokenizer, t.NonNegative) (text : String) :
    0 ≤ ContextAssembler.countWith tokenizer text := by
  cases tokenizer with
  | none => exact conservativeNonneg text
  | some t => exact nonneg t rfl text

/-! ### Packing -/

theorem packSurvivors (count : String → Int) (soft used : Int) (selected : List (Ranked R)) :
    (pack count soft used selected).1 = fill (fun cb => count cb.1.content) soft used selected := by
  induction selected generalizing used with
  | nil => rfl
  | cons cb rest ih =>
    obtain ⟨c, blended⟩ := cb
    unfold pack fill
    split
    · simp only [ih]
    · simp only [ih]

theorem packKept (count : String → Int) (soft used : Int) (selected : List (Ranked R)) :
    keptCount (pack count soft used selected).2 = (pack count soft used selected).1.length := by
  induction selected generalizing used with
  | nil => rfl
  | cons cb rest ih =>
    obtain ⟨c, blended⟩ := cb
    simp only [keptCount] at ih ⊢
    unfold pack
    split
    · simp only [List.filter_cons, if_true, List.length_cons, ih]
    · simp only [List.filter_cons, Bool.false_eq_true, if_false, ih]

theorem knapsackKept (scored selected : List (Ranked R)) (soft : Int) (count : String → Int) :
    keptCount (knapsack scored selected soft count).2 = (knapsack scored selected soft count).1.length := by
  have kept := packKept count soft 0 selected
  simp only [keptCount, knapsack, List.filter_append, List.length_append] at kept ⊢
  rw [kept, Nat.add_eq_left, List.length_eq_zero_iff, List.filter_eq_nil_iff]
  intro d member
  obtain ⟨cb, _, rfl⟩ := List.mem_map.mp member
  simp

variable [PyFloat R]

/-! ### Selection -/

theorem selectLoopMember {lam : R} {vecs rounds pool maxSim selected result}
    (ok : selectLoop lam vecs rounds pool maxSim selected = .ok result) :
    ∀ cb ∈ result, cb ∈ selected ∨ cb ∈ pool := by
  induction rounds generalizing pool maxSim selected with
  | zero =>
    cases Except.ok.inj ok
    exact fun cb member => .inl member
  | succ rounds ih =>
    unfold selectLoop at ok
    split at ok
    · cases Except.ok.inj ok
      exact fun cb member => .inl member
    · rename_i pos _
      split at ok
      · cases Except.ok.inj ok
        exact fun cb member => .inl member
      · rename_i chosen found
        obtain ⟨raised, _, ok⟩ := bindOk.mp ok
        intro cb member
        rcases ih ok cb member with old | left
        · rcases List.mem_append.mp old with old | new
          · exact .inl old
          · rw [List.mem_singleton] at new
            exact .inr (new ▸ List.mem_of_getElem? found)
        · exact .inr (List.mem_of_mem_eraseIdx left)

theorem edgeLoadPerm (survivors : List (Ranked R)) : (edgeLoad survivors).Perm survivors :=
  (alternatePerm 0 [] _).trans (List.perm_insertionSort _ survivors)

structure PackingOf (soft : Int) (candidates : List (MemoryCandidate R)) (count : String → Int)
    (p : ContextAssembler.Packing R) : Prop where
  given : ∀ cb ∈ p.survivors, cb.1 ∈ candidates
  kept : keptCount p.decisions = p.survivors.length
  fits : 0 ≤ soft → (p.survivors.map (fun cb => count cb.1.content)).sum ≤ soft

theorem packingOk {a : ContextAssembler R} {soft candidates weights count lam p}
    (ok : a.packing soft candidates weights count lam = .ok p) : PackingOf soft candidates count p := by
  obtain ⟨selected, chosen, ok⟩ := bindOk.mp ok
  cases pureOk.mp ok
  have survivors := packSurvivors count soft 0 selected
  have inPool := fun cb member => (selectLoopMember chosen cb member).resolve_left (by simp)
  refine ⟨fun cb member => ?_, knapsackKept _ selected soft count, fun room => ?_⟩
  · have picked : cb ∈ selected := (fillSublist _ soft 0 selected).subset (survivors ▸ member)
    have ranked := List.mem_of_mem_take (inPool cb picked)
    obtain ⟨c, given, rfl⟩ := List.mem_map.mp ((List.mem_insertionSort _).mp ranked)
    exact given
  · have := fillFits (fun cb : Ranked R => count cb.1.content) soft room selected
    simpa [knapsack, survivors] using this

/-! ### The assembled context -/

structure AssemblyOf (a : ContextAssembler R) (budget : TokenBudget) (sources : ContextSources R)
    (weights : RankWeights R) (count : String → Int) (lam : R) (p : ContextAssembler.Packing R)
    (out : AssembledContext R) : Prop where
  balanced : weights.validate = .ok ()
  reserves : checkHardReserves budget = .ok ()
  packing : a.packing budget.softBudget sources.candidates weights count lam = .ok p
  messages : out.messages = render sources (edgeLoad p.survivors)
  kept : keptCount out.decisions = p.survivors.length

theorem assembleOk {a : ContextAssembler R} {budget sources weights tokenizer lam out}
    (ok : a.assemble budget sources weights tokenizer lam = .ok out) :
    ∃ p, AssemblyOf a budget sources weights (ContextAssembler.countWith tokenizer) lam p out := by
  obtain ⟨_, valid, ok⟩ := bindOk.mp ok
  obtain ⟨_, reserves, ok⟩ := bindOk.mp ok
  obtain ⟨p, packing, ok⟩ := bindOk.mp ok
  cases pureOk.mp ok
  refine ⟨p, valid, reserves, packing, rfl, ?_⟩
  -- placing the survivors changes no verdict
  rw [← (packingOk packing).kept]
  unfold keptCount
  rw [List.filter_map, List.length_map]
  congr 2
  funext d
  simp only [Function.comp_apply]
  split <;> simp_all

end ContextOS
