import ContextOS.Lib.Scan
import Mathlib.Data.List.Perm.Subperm
import Mathlib.Data.List.Sort

/-! Selections that take one element after another. A ranking is a list in which every
element beats all later ones, given what was taken before it: where beating is asymmetric
it is the only one of its elements. A cut keeps the first of an order and drops the rest. -/
namespace ContextOS.Lib

universe u v

section Arrival
variable {α : Type u}

theorem arrivalAsymm {l : List α} (distinct : l.Nodup) {x y : α} (before : [x, y].Sublist l) : ¬ [y, x].Sublist l := by
  induction l with
  | nil => simp at before
  | cons a rest ih =>
    obtain ⟨fresh, distinct⟩ := List.nodup_cons.mp distinct
    intro after
    rcases List.sublist_cons_iff.mp before with inside | ⟨_, same, behind⟩
    · rcases List.sublist_cons_iff.mp after with swapped | ⟨_, same, _⟩
      · exact ih distinct inside swapped
      · obtain ⟨rfl, rfl⟩ := List.cons.inj same
        exact fresh (inside.subset (List.mem_cons_of_mem _ List.mem_cons_self))
    · obtain ⟨rfl, rfl⟩ := List.cons.inj same
      rcases List.sublist_cons_iff.mp after with swapped | ⟨_, same, _⟩
      · exact fresh (swapped.subset (List.mem_cons_of_mem _ List.mem_cons_self))
      · obtain ⟨rfl, rfl⟩ := List.cons.inj same
        exact fresh (behind.subset List.mem_cons_self)

variable {κ : Type v} [LinearOrder κ] (key : α → κ)

/-- The order of a stable sort by descending key: equal keys stay in order of arrival. -/
def Ahead (arrival : List α) (x y : α) : Prop := key y < key x ∨ (key y = key x ∧ [x, y].Sublist arrival)

variable {key}

theorem aheadLe {l : List α} {x y : α} (ahead : Ahead key l x y) : key y ≤ key x := ahead.elim le_of_lt fun tie => tie.1.le

theorem aheadAsymm {l : List α} (distinct : l.Nodup) {x y : α} (ahead : Ahead key l x y) : ¬ Ahead key l y x := by
  rintro (lower | ⟨same, after⟩)
  · rcases ahead with higher | ⟨equal, _⟩
    · exact lt_asymm lower higher
    · exact absurd equal lower.ne'
  · rcases ahead with higher | ⟨_, before⟩
    · exact absurd same higher.ne'
    · exact arrivalAsymm distinct before after

variable (key) in
theorem sortAhead (l : List α) : (l.insertionSort (fun a b => key b ≤ key a)).Pairwise (Ahead key l) := by
  induction l with
  | nil => exact .nil
  | cons a rest ih =>
    have older : ∀ {x y}, Ahead key rest x y → Ahead key (a :: rest) x y :=
      fun ahead => ahead.imp_right fun tie => ⟨tie.1, tie.2.cons a⟩
    have sorted := List.pairwise_insertionSort (fun x y : α => key y ≤ key x) rest
    have inside := fun x => (List.mem_insertionSort (fun x y : α => key y ≤ key x) (l := rest) (x := x)).mp
    rw [List.insertionSort_cons]
    generalize rest.insertionSort (fun x y => key y ≤ key x) = placed at ih sorted inside
    induction placed with
    | nil => simp
    | cons b tail insert =>
      obtain ⟨first, ih⟩ := List.pairwise_cons.mp ih
      obtain ⟨top, sorted⟩ := List.pairwise_cons.mp sorted
      rw [List.orderedInsert_cons]
      split
      · rename_i low
        refine List.pairwise_cons.mpr ⟨fun y member => ?_,
          List.pairwise_cons.mpr ⟨fun y member => older (first y member), ih.imp older⟩⟩
        have bound : key y ≤ key a := by
          rcases List.mem_cons.mp member with rfl | later
          · exact low
          · exact (top y later).trans low
        exact bound.lt_or_eq.imp_right fun same =>
          ⟨same, List.cons_sublist_cons.mpr (List.singleton_sublist.mpr (inside y member))⟩
      · rename_i high
        refine List.pairwise_cons.mpr ⟨fun y member => ?_,
          insert ih sorted fun x later => inside x (List.mem_cons_of_mem _ later)⟩
        rcases List.mem_orderedInsert _ |>.mp member with rfl | later
        · exact .inl (not_le.mp high)
        · exact older (first y later)

end Arrival

section Sorted
variable {α : Type u} {r : α → α → Prop} [DecidableRel r] [Std.Total r] [IsTrans α r]

theorem sortUnique {l other : List α} (same : l.Perm other) (antisymm : ∀ x ∈ l, ∀ y ∈ l, r x y → r y x → x = y) :
    l.insertionSort r = other.insertionSort r := by
  refine List.Perm.eq_of_pairwise (fun x y inX inY => ?_) (List.pairwise_insertionSort r l) (List.pairwise_insertionSort r other)
    ((List.perm_insertionSort r l).trans (same.trans (List.perm_insertionSort r other).symm))
  exact antisymm x ((List.mem_insertionSort r).mp inX) y (same.mem_iff.mpr ((List.mem_insertionSort r).mp inY))

end Sorted

section Ranking
variable {α : Type u} {beats beats' : List α → α → α → Prop}

def Ranking (beats : List α → α → α → Prop) (taken picks : List α) : Prop :=
  ∀ front x back, picks = front ++ x :: back → ∀ y ∈ back, beats (taken ++ front) x y

theorem rankingNil (taken : List α) : Ranking beats taken [] := by
  intro front x back split
  simp at split

theorem rankingCons {taken later : List α} {x : α} :
    Ranking beats taken (x :: later) ↔ (∀ y ∈ later, beats taken x y) ∧ Ranking beats (taken ++ [x]) later := by
  constructor
  · intro ranking
    refine ⟨by simpa using ranking [] x later rfl, fun front y back split => ?_⟩
    subst split
    simpa using ranking (x :: front) y back rfl
  · intro given front y back split
    obtain ⟨best, rest⟩ := given
    cases front with
    | nil =>
      obtain ⟨rfl, rfl⟩ := List.cons.inj split
      simpa using best
    | cons first front =>
      obtain ⟨rfl, rfl⟩ := List.cons.inj split
      simpa using rest front y back rfl

theorem rankingUnique {taken picks others : List α}
    (asymm : ∀ taken, ∀ x ∈ picks, ∀ y ∈ picks, x ≠ y → beats taken x y → ¬ beats taken y x) (same : picks.Perm others)
    (ranking : Ranking beats taken picks) (other : Ranking beats taken others) : picks = others := by
  induction picks generalizing taken others with
  | nil => exact (List.nil_perm.mp same).symm
  | cons x later ih =>
    cases others with
    | nil => simp at same
    | cons z tail =>
      obtain ⟨best, rest⟩ := rankingCons.mp ranking
      obtain ⟨bestOther, restOther⟩ := rankingCons.mp other
      have heads : x = z := by
        by_contra different
        have behind : z ∈ later := List.mem_of_ne_of_mem (Ne.symm different) (same.mem_iff.mpr List.mem_cons_self)
        have ahead : x ∈ tail := List.mem_of_ne_of_mem different (same.mem_iff.mp List.mem_cons_self)
        exact asymm taken x List.mem_cons_self z (List.mem_cons_of_mem _ behind) different (best z behind) (bestOther x ahead)
      subst heads
      rw [ih (fun taken a inA b inB => asymm taken a (List.mem_cons_of_mem _ inA) b (List.mem_cons_of_mem _ inB))
        (List.perm_cons _ |>.mp same) rest restOther]

theorem rankingImp {taken picks : List α} (weaken : ∀ front x back, picks = front ++ x :: back → ∀ y ∈ back,
    beats (taken ++ front) x y → beats' (taken ++ front) x y) (ranking : Ranking beats taken picks) : Ranking beats' taken picks :=
  fun front x back split y later => weaken front x back split y later (ranking front x back split y later)

theorem raisedEarlier {taken front later others : List α} {c raised : α}
    (clash : ∀ taken, ∀ y ∈ front ++ later, beats taken c y → ¬ beats' taken y raised)
    (agree : ∀ taken, ∀ x ∈ front ++ later, ∀ y ∈ front ++ later, beats taken x y → ¬ beats' taken y x)
    (same : others.Perm (front ++ raised :: later)) (ranking : Ranking beats taken (front ++ c :: later))
    (other : Ranking beats' taken others) : ∃ ahead behind rest, front = ahead ++ behind ∧ others = ahead ++ raised :: rest := by
  induction front generalizing taken others with
  | nil =>
    cases others with
    | nil => simp at same
    | cons z tail =>
      refine ⟨[], [], tail, rfl, ?_⟩
      obtain ⟨best, _⟩ := rankingCons.mp ranking
      obtain ⟨bestOther, _⟩ := rankingCons.mp other
      by_cases first : z = raised
      · rw [first]
        rfl
      · have inside : z ∈ later := List.mem_of_ne_of_mem first (same.mem_iff.mp List.mem_cons_self)
        have ahead : raised ∈ tail := List.mem_of_ne_of_mem (Ne.symm first) (same.mem_iff.mpr List.mem_cons_self)
        exact absurd (bestOther raised ahead) (clash taken z inside (best z inside))
  | cons x front ih =>
    cases others with
    | nil => simp at same
    | cons z tail =>
      obtain ⟨best, rest⟩ := rankingCons.mp ranking
      obtain ⟨bestOther, restOther⟩ := rankingCons.mp other
      by_cases first : z = raised
      · exact ⟨[], x :: front, tail, rfl, by rw [first]; rfl⟩
      by_cases heads : z = x
      · subst heads
        obtain ⟨ahead, behind, rest, split, found⟩ := ih
          (fun taken y member => clash taken y (List.mem_cons_of_mem _ member))
          (fun taken a inA b inB => agree taken a (List.mem_cons_of_mem _ inA) b (List.mem_cons_of_mem _ inB))
          (List.perm_cons _ |>.mp same) rest restOther
        exact ⟨z :: ahead, behind, rest, by rw [split]; rfl, by rw [found]; rfl⟩
      · have inside : z ∈ front ++ later := by
          have member := same.mem_iff.mp List.mem_cons_self
          simp only [List.cons_append, List.mem_cons, heads, List.mem_append, first, false_or] at member
          exact List.mem_append.mpr member
        have ahead : x ∈ tail := List.mem_of_ne_of_mem (Ne.symm heads) (same.mem_iff.mpr List.mem_cons_self)
        have beaten : beats taken x z := best z (by
          rcases List.mem_append.mp inside with early | late
          · exact List.mem_append_left _ early
          · exact List.mem_append_right _ (List.mem_cons_of_mem _ late))
        exact absurd (bestOther x ahead) (agree taken x List.mem_cons_self z (List.mem_cons_of_mem _ inside) beaten)

end Ranking

section Greedy
variable {α : Type u} {κ : Type v} [LinearOrder κ] {score : List α → α → κ} {ahead : α → α → Prop}

/-- A higher score beats a lower one, and equal scores are told apart by the order. -/
def Beats (score : List α → α → κ) (ahead : α → α → Prop) (taken : List α) (x y : α) : Prop :=
  score taken y < score taken x ∨ (score taken y = score taken x ∧ ahead x y)

theorem beatsAsymm {taken : List α} {x y : α} (asymm : ahead x y → ¬ ahead y x) (beats : Beats score ahead taken x y) :
    ¬ Beats score ahead taken y x := by
  rintro (lower | ⟨same, after⟩)
  · rcases beats with higher | ⟨equal, _⟩
    · exact lt_asymm lower higher
    · exact absurd equal lower.ne'
  · rcases beats with higher | ⟨_, before⟩
    · exact absurd same higher.ne'
    · exact asymm before after

def greedy (score : List α → α → κ) : Nat → List α → List α → List α
  | 0, _, _ => []
  | rounds + 1, taken, pool =>
    match argmax (score taken) pool with
    | none => []
    | some pos =>
      match pool[pos]? with
      | none => []
      | some x => x :: greedy score rounds (taken ++ [x]) (pool.eraseIdx pos)

theorem greedyStep (score : List α → α → κ) {pool : List α} (some : pool ≠ []) (taken : List α) :
    ∃ front x back, pool = front ++ x :: back ∧
    FirstMax (score taken) front x back ∧ argmax (score taken) pool = .some front.length ∧
    pool[front.length]? = .some x ∧ pool.eraseIdx front.length = front ++ back := by
  obtain ⟨front, x, back, rfl, first, found⟩ := argmaxSplit (score taken) some
  refine ⟨front, x, back, rfl, first, found, by simp, ?_⟩
  rw [List.eraseIdx_append_of_length_le (le_refl _), Nat.sub_self]
  rfl

theorem greedyRanking {rounds : Nat} {pool : List α} (enough : pool.length ≤ rounds) (ordered : pool.Pairwise ahead)
    (taken : List α) :
    (greedy score rounds taken pool).Perm pool ∧ Ranking (Beats score ahead) taken (greedy score rounds taken pool) := by
  induction rounds generalizing pool taken with
  | zero =>
    rw [List.eq_nil_of_length_eq_zero (Nat.le_zero.mp enough)]
    exact ⟨.refl _, rankingNil taken⟩
  | succ rounds ih =>
    by_cases empty : pool = []
    · subst empty
      exact ⟨.refl _, rankingNil taken⟩
    · obtain ⟨front, x, back, rfl, first, found, here, left⟩ := greedyStep score empty taken
      simp only [greedy, found, here, left]
      have shorter : (front ++ back).length ≤ rounds := by simp at enough ⊢; omega
      have sub : (front ++ back).Sublist (front ++ x :: back) := (List.Sublist.refl front).append (List.sublist_cons_self x back)
      obtain ⟨perm, rest⟩ := ih shorter (ordered.sublist sub) (taken ++ [x])
      refine ⟨(perm.cons x).trans List.perm_middle.symm, rankingCons.mpr ⟨fun y later => ?_, rest⟩⟩
      have behind := (List.pairwise_cons.mp (List.pairwise_append.mp ordered).2.1).1
      rcases List.mem_append.mp (perm.mem_iff.mp later) with early | late
      · exact .inl (first.earlier y early)
      · exact (first.later y late).lt_or_eq.imp_right fun same => ⟨same, behind y late⟩

end Greedy

section Cut
variable {α : Type u} {ahead : α → α → Prop} {size : Nat} {all kept dropped kept' dropped' : List α}

structure Cut (ahead : α → α → Prop) (size : Nat) (all kept dropped : List α) : Prop where
  perm : (kept ++ dropped).Perm all
  size : kept.length = min size all.length
  ahead : ∀ x ∈ kept, ∀ y ∈ dropped, ahead x y

variable (size) in
theorem cutOf (sorted : all.Pairwise ahead) (same : all.Perm kept) : Cut ahead size kept (all.take size) (all.drop size) := by
  refine ⟨by rwa [List.take_append_drop], by rw [List.length_take, same.length_eq], ?_⟩
  rw [← List.take_append_drop size all, List.pairwise_append] at sorted
  exact sorted.2.2

theorem cutSubset (asymm : ∀ x ∈ all, ∀ y ∈ all, x ≠ y → ahead x y → ¬ ahead y x) (distinct : all.Nodup)
    (cut : Cut ahead size all kept dropped) (other : Cut ahead size all kept' dropped') : kept ⊆ kept' := by
  intro x inside
  by_contra outside
  have nodup := cut.perm.nodup_iff.mpr distinct
  have nodup' := other.perm.nodup_iff.mpr distinct
  have member := cut.perm.mem_iff.mp (List.mem_append_left dropped inside)
  have out : x ∈ dropped' := (List.mem_append.mp (other.perm.mem_iff.mpr member)).resolve_left outside
  -- of two sets of one size, each has an element that the other has not
  obtain ⟨y, keptOther, missing⟩ : ∃ y ∈ kept', y ∉ kept := by
    by_contra none
    have subset : kept' ⊆ kept := fun y keptOther => by_contra fun missing => none ⟨y, keptOther, missing⟩
    have perm := (List.subperm_of_subset (List.Nodup.of_append_left nodup') subset).perm_of_length_le
      (by rw [cut.size, other.size])
    exact outside (perm.mem_iff.mpr inside)
  have memberY := other.perm.mem_iff.mp (List.mem_append_left dropped' keptOther)
  have outY : y ∈ dropped := (List.mem_append.mp (cut.perm.mem_iff.mpr memberY)).resolve_left missing
  have different : x ≠ y := fun same => missing (same ▸ inside)
  exact asymm x member y memberY different (cut.ahead x inside y outY) (other.ahead y keptOther x out)

theorem cutUnique (asymm : ∀ x ∈ all, ∀ y ∈ all, x ≠ y → ahead x y → ¬ ahead y x) (distinct : all.Nodup)
    (cut : Cut ahead size all kept dropped) (other : Cut ahead size all kept' dropped') : kept.Perm kept' :=
  (List.subperm_of_subset (List.Nodup.of_append_left (cut.perm.nodup_iff.mpr distinct))
    (cutSubset asymm distinct cut other)).perm_of_length_le (by rw [cut.size, other.size])

end Cut

section Raise
variable {α : Type u} [DecidableEq α] {κ : Type v} [LinearOrder κ] {key : α → κ} {x raised : α}

variable (raised) in
theorem mapUpdateOther {xs : List α} (absent : x ∉ xs) : xs.map (Function.update id x raised) = xs := by
  have same : ∀ y ∈ xs, Function.update id x raised y = id y := fun y member => by
    have different : y ≠ x := fun here => absent (here ▸ member)
    rw [Function.update_of_ne different]
  rw [List.map_congr_left same, List.map_id]

variable (raised) in
theorem mapUpdate {front back : List α} (distinct : (front ++ x :: back).Nodup) :
    (front ++ x :: back).map (Function.update id x raised) = front ++ raised :: back := by
  have absent := (List.nodup_cons.mp (List.nodup_middle.mp distinct)).1
  rw [List.mem_append, not_or] at absent
  rw [List.map_append, List.map_cons, Function.update_self, mapUpdateOther raised absent.1, mapUpdateOther raised absent.2]

theorem aheadRaised {all : List α} (raise : key x ≤ key raised) {y z : α} (other : z ≠ x) (ahead : Ahead key all y z) :
    Ahead key (all.map (Function.update id x raised)) (Function.update id x raised y) z := by
  have grows : key y ≤ key (Function.update id x raised y) := by
    by_cases here : y = x
    · rw [here, Function.update_self]
      exact raise
    · rw [Function.update_of_ne here, id]
  rcases ahead with higher | ⟨tie, before⟩
  · exact .inl (higher.trans_le grows)
  · refine grows.lt_or_eq.imp (fun higher => tie.trans_lt higher) fun equal => ⟨tie.trans equal, ?_⟩
    simpa [Function.update_of_ne other] using before.map (Function.update id x raised)

theorem cutRaised {size : Nat} {all kept dropped : List α} (raise : key x ≤ key raised) (outside : x ∉ dropped)
    (cut : Cut (Ahead key all) size all kept dropped) : Cut (Ahead key (all.map (Function.update id x raised))) size
      (all.map (Function.update id x raised)) (kept.map (Function.update id x raised)) dropped := by
  refine ⟨?_, by simpa using cut.size, fun y inside z member => ?_⟩
  · rw [← mapUpdateOther raised outside, ← List.map_append]
    exact cut.perm.map _
  · obtain ⟨old, before, rfl⟩ := List.mem_map.mp inside
    exact aheadRaised raise (fun same => outside (same ▸ member)) (cut.ahead old before z member)

end Raise

end ContextOS.Lib
