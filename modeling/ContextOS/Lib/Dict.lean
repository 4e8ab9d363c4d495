import Mathlib.Data.List.Induction
import Mathlib.Data.List.Nodup
import Mathlib.Tactic.Common

/-! Insertion-ordered dictionaries. Assignment to a present key keeps its
position, a new key goes last, and the keys are distinct by construction.
A partitioned dictionary is a dictionary of dictionaries with a default row. -/
namespace ContextOS.Lib

universe u v w

section Entries
variable {K : Type u} {V : Type v} [DecidableEq K]

def find (key : K) : List (K × V) → Option V
  | [] => none
  | (k, value) :: rest => if k = key then some value else find key rest

def assign (key : K) (value : V) : List (K × V) → List (K × V)
  | [] => [(key, value)]
  | (k, old) :: rest => if k = key then (key, value) :: rest else (k, old) :: assign key value rest

@[simp] theorem findAssignSelf (key : K) (value : V) (entries : List (K × V)) :
    find key (assign key value entries) = some value := by
  induction entries with
  | nil => simp [assign, find]
  | cons head rest ih =>
    obtain ⟨k, old⟩ := head
    by_cases same : k = key <;> simp [assign, find, same, ih]

theorem findAssignOther {key other : K} (different : other ≠ key) (value : V) (entries : List (K × V)) :
    find other (assign key value entries) = find other entries := by
  induction entries with
  | nil => simp [assign, find, different.symm]
  | cons head rest ih =>
    obtain ⟨k, old⟩ := head
    by_cases same : k = key
    · subst same
      simp [assign, find, different.symm]
    · simp only [assign, if_neg same, find, ih]

theorem assignAssign (key : K) (old value : V) (entries : List (K × V)) :
    assign key value (assign key old entries) = assign key value entries := by
  induction entries with
  | nil => simp [assign]
  | cons head rest ih =>
    obtain ⟨k, first⟩ := head
    by_cases same : k = key <;> simp [assign, same, ih]

theorem findMember {key : K} {value : V} {entries : List (K × V)} (found : find key entries = some value) :
    (key, value) ∈ entries := by
  induction entries with
  | nil => simp [find] at found
  | cons head rest ih =>
    obtain ⟨k, old⟩ := head
    by_cases same : k = key
    · simp only [find, if_pos same, Option.some.injEq] at found
      subst same found
      exact List.mem_cons_self
    · simp only [find, if_neg same] at found
      exact List.mem_cons_of_mem _ (ih found)

theorem memberFind {key : K} {value : V} {entries : List (K × V)}
    (distinct : (entries.map Prod.fst).Nodup) (member : (key, value) ∈ entries) :
    find key entries = some value := by
  induction entries with
  | nil => simp at member
  | cons head rest ih =>
    obtain ⟨k, old⟩ := head
    obtain ⟨fresh, distinct⟩ := List.nodup_cons.mp distinct
    rcases List.mem_cons.mp member with same | inside
    · obtain ⟨rfl, rfl⟩ := Prod.mk.inj same
      simp [find]
    · have different : k ≠ key := by
        intro equal
        subst equal
        exact fresh (List.mem_map.mpr ⟨_, inside, rfl⟩)
      simp [find, different, ih distinct inside]

theorem findMap {W : Type w} (f : V → W) (key : K) (entries : List (K × V)) :
    find key (entries.map fun entry => (entry.1, f entry.2)) = (find key entries).map f := by
  induction entries with
  | nil => rfl
  | cons entry rest ih =>
    rw [List.map_cons, find, find]
    split
    · rfl
    · exact ih

theorem assignKey {key k : K} {value : V} {entries : List (K × V)}
    (member : k ∈ (assign key value entries).map Prod.fst) :
    k = key ∨ k ∈ entries.map Prod.fst := by
  induction entries with
  | nil => simpa [assign] using member
  | cons head rest ih =>
    obtain ⟨k', old⟩ := head
    by_cases same : k' = key
    · simp only [assign, if_pos same, List.map_cons, List.mem_cons] at member ⊢
      tauto
    · simp only [assign, if_neg same, List.map_cons, List.mem_cons] at member ⊢
      rcases member with here | inside
      · exact .inr (.inl here)
      · exact (ih inside).imp_right .inr

theorem assignDistinct (key : K) (value : V) {entries : List (K × V)}
    (distinct : (entries.map Prod.fst).Nodup) :
    ((assign key value entries).map Prod.fst).Nodup := by
  induction entries with
  | nil => simp [assign]
  | cons head rest ih =>
    obtain ⟨k, old⟩ := head
    obtain ⟨fresh, distinct⟩ := List.nodup_cons.mp distinct
    by_cases same : k = key
    · subst same
      simpa [assign] using ⟨by simpa using fresh, distinct⟩
    · simp only [assign, if_neg same, List.map_cons, List.nodup_cons]
      exact ⟨fun member => (assignKey member).elim same fresh, ih distinct⟩

theorem assignFilter {p : V → Bool} {key : K} {value : V} {entries : List (K × V)} (fresh : p value = false)
    (hidden : ∀ old, find key entries = some old → p old = false) :
    ((assign key value entries).map Prod.snd).filter p = (entries.map Prod.snd).filter p := by
  induction entries with
  | nil => simp [assign, fresh]
  | cons head rest ih =>
    obtain ⟨k, old⟩ := head
    by_cases same : k = key
    · have out := hidden old (by simp [find, same])
      simp [assign, same, fresh, out]
    · have later := ih (fun old found => hidden old (by simp [find, same, found]))
      simp only [assign, if_neg same, List.map_cons, List.filter_cons, later]

theorem assignFresh {key : K} {entries : List (K × V)} (fresh : key ∉ entries.map Prod.fst) (value : V) :
    assign key value entries = entries ++ [(key, value)] := by
  induction entries with
  | nil => rfl
  | cons head rest ih =>
    obtain ⟨k, old⟩ := head
    obtain ⟨different, later⟩ := not_or.mp (List.mem_cons.not.mp fresh)
    simp only [assign, if_neg (Ne.symm different), ih later, List.cons_append]

end Entries

structure Dict (K : Type u) (V : Type v) where
  entries : List (K × V)
  distinct : (entries.map Prod.fst).Nodup

namespace Dict
variable {K : Type u} {V : Type v}

def empty : Dict K V := ⟨[], List.nodup_nil⟩

instance : Inhabited (Dict K V) := ⟨empty⟩

def keys (d : Dict K V) : List K := d.entries.map Prod.fst
def values (d : Dict K V) : List V := d.entries.map Prod.snd

@[simp] theorem valuesEmpty : (empty : Dict K V).values = [] := rfl

def mapValues (f : V → V) (d : Dict K V) : Dict K V :=
  ⟨d.entries.map (fun entry => (entry.1, f entry.2)), by simpa [Function.comp_def] using d.distinct⟩

variable [DecidableEq K]

def get (d : Dict K V) (key : K) : Option V := find key d.entries
def set (d : Dict K V) (key : K) (value : V) : Dict K V :=
  ⟨assign key value d.entries, assignDistinct key value d.distinct⟩

def ofList (entries : List (K × V)) : Dict K V :=
  entries.foldl (fun d entry => d.set entry.1 entry.2) empty

@[simp] theorem getEmpty (key : K) : (empty : Dict K V).get key = none := rfl

@[simp] theorem getSetSelf (d : Dict K V) (key : K) (value : V) : (d.set key value).get key = some value :=
  findAssignSelf key value d.entries

theorem getSetOther (d : Dict K V) {key other : K} (different : other ≠ key) (value : V) :
    (d.set key value).get other = d.get other :=
  findAssignOther different value d.entries

theorem getSet (d : Dict K V) (key other : K) (value : V) :
    (d.set key value).get other = if other = key then some value else d.get other := by
  by_cases same : other = key
  · subst same; simp
  · simp [same, getSetOther d same]

theorem setSet (d : Dict K V) (key : K) (old value : V) : (d.set key old).set key value = d.set key value := by
  simp only [set, assignAssign]

theorem memValues {d : Dict K V} {value : V} : value ∈ d.values ↔ ∃ key, d.get key = some value := by
  constructor
  · intro member
    obtain ⟨⟨key, _⟩, inside, rfl⟩ := List.mem_map.mp member
    exact ⟨key, memberFind d.distinct inside⟩
  · intro given
    obtain ⟨key, found⟩ := given
    exact List.mem_map.mpr ⟨_, findMember found, rfl⟩

theorem getMapValues (f : V → V) (d : Dict K V) (key : K) : (d.mapValues f).get key = (d.get key).map f :=
  findMap f key d.entries

theorem valuesFilter {d : Dict K V} {p : V → Bool} {key : K} {value : V} (fresh : p value = false)
    (hidden : ∀ old, d.get key = some old → p old = false) : (d.set key value).values.filter p = d.values.filter p :=
  assignFilter fresh hidden

theorem getNone {d : Dict K V} {key : K} : d.get key = none ↔ key ∉ d.keys := by
  constructor
  · intro missing member
    obtain ⟨⟨_, value⟩, inside, rfl⟩ := List.mem_map.mp member
    rw [get, memberFind d.distinct inside] at missing
    contradiction
  · intro missing
    cases found : d.get key with
    | none => rfl
    | some value => exact absurd (List.mem_map_of_mem (findMember found)) missing

theorem setFresh {d : Dict K V} {key : K} (fresh : d.get key = none) (value : V) :
    (d.set key value).entries = d.entries ++ [(key, value)] :=
  assignFresh (getNone.mp fresh) value

theorem ofListEntries {entries : List (K × V)} (distinct : (entries.map Prod.fst).Nodup) :
    (ofList entries).entries = entries := by
  suffices ∀ d : Dict K V, ((d.entries ++ entries).map Prod.fst).Nodup →
      (entries.foldl (fun d entry => d.set entry.1 entry.2) d).entries = d.entries ++ entries from this empty distinct
  induction entries with
  | nil => simp
  | cons entry rest ih =>
    intro d apart
    have fresh : d.get entry.1 = none := by
      rw [getNone]
      rw [List.map_append, List.map_cons, List.nodup_middle] at apart
      exact fun member => (List.nodup_cons.mp apart).1 (List.mem_append_left _ member)
    have placed := setFresh fresh entry.2
    have later := ih (List.nodup_cons.mp distinct).2 (d.set entry.1 entry.2) (by rw [placed]; simpa using apart)
    rw [List.foldl_cons, later, placed, List.append_assoc, List.singleton_append]

theorem getOfList {entries : List (K × V)} (distinct : (entries.map Prod.fst).Nodup) {key : K} {value : V}
    (member : (key, value) ∈ entries) : (ofList entries).get key = some value := by
  rw [get, ofListEntries distinct]
  exact memberFind distinct member

theorem getOfListListed {entries : List (K × V)} {key : K} (listed : key ∈ entries.map Prod.fst) :
    ∃ value, (key, value) ∈ entries ∧ (ofList entries).get key = some value := by
  induction entries using List.reverseRecOn with
  | nil => simp at listed
  | append_singleton front last ih =>
    have built : ofList (front ++ [last]) = (ofList front).set last.1 last.2 := by
      simp only [ofList, List.foldl_append, List.foldl_cons, List.foldl_nil]
    rw [built]
    by_cases here : key = last.1
    · subst here
      exact ⟨last.2, by simp, getSetSelf _ _ _⟩
    · have earlier : key ∈ front.map Prod.fst := by simpa [here] using listed
      obtain ⟨value, member, found⟩ := ih earlier
      exact ⟨value, List.mem_append_left _ member, by rw [getSetOther _ here, found]⟩

theorem getZipIdx {keys : List K} (distinct : keys.Nodup) {i : Nat} {key : K} :
    (ofList keys.zipIdx).get key = some i ↔ keys[i]? = some key := by
  have apart : (keys.zipIdx.map Prod.fst).Nodup := by rwa [List.zipIdx_map_fst]
  constructor
  · intro found
    rw [get, ofListEntries apart] at found
    exact List.mem_zipIdx_iff_getElem?.mp (findMember found)
  · exact fun here => getOfList apart (List.mem_zipIdx_iff_getElem?.mpr here)

theorem getZipIdxMap {keys : List K} (distinct : keys.Nodup) :
    keys.map (ofList keys.zipIdx).get = (List.range keys.length).map some := by
  refine List.ext_getElem? fun i => ?_
  rw [List.getElem?_map, List.getElem?_map]
  cases found : keys[i]? with
  | none => rw [List.getElem?_eq_none (by simpa using found)]; rfl
  | some key =>
    obtain ⟨inside, _⟩ := List.getElem?_eq_some_iff.mp found
    rw [List.getElem?_range inside, Option.map_some, Option.map_some, (getZipIdx distinct).mpr found]

end Dict

/-! A dictionary partitioned by an owner. A missing row reads as empty. -/
abbrev Parts (T : Type u) (K : Type v) (V : Type w) := Dict T (Dict K V)

namespace Parts
variable {T : Type u} {K : Type v} {V : Type w} [DecidableEq T]

def part (p : Parts T K V) (owner : T) : Dict K V := (p.get owner).getD Dict.empty

@[simp] theorem partEmpty (owner : T) : part (Dict.empty : Parts T K V) owner = Dict.empty := rfl

variable [DecidableEq K]

def put (p : Parts T K V) (owner : T) (key : K) (value : V) : Parts T K V :=
  p.set owner ((p.part owner).set key value)

@[simp] theorem partPutSelf (p : Parts T K V) (owner : T) (key : K) (value : V) :
    (p.put owner key value).part owner = (p.part owner).set key value := by
  simp [part, put]

theorem partPutOther (p : Parts T K V) {owner other : T} (different : other ≠ owner) (key : K) (value : V) :
    (p.put owner key value).part other = p.part other := by
  simp [part, put, Dict.getSetOther _ different]

theorem partPut (p : Parts T K V) (owner other : T) (key : K) (value : V) :
    (p.put owner key value).part other =
      if other = owner then (p.part owner).set key value else p.part other := by
  by_cases same : other = owner
  · subst same; simp
  · simp [same, partPutOther p same]

theorem getPut {p : Parts T K V} {owner other : T} {key k : K} {value v : V}
    (found : ((p.put owner key value).part other).get k = some v) :
    (other = owner ∧ k = key ∧ v = value) ∨ (p.part other).get k = some v := by
  rw [partPut] at found
  split at found
  · rename_i same
    rw [Dict.getSet] at found
    split at found
    · rename_i sameKey
      exact .inl ⟨same, sameKey, (Option.some.inj found).symm⟩
    · exact .inr (same ▸ found)
  · exact .inr found

theorem getPutSelf (p : Parts T K V) (owner : T) (key : K) (value : V) :
    ((p.put owner key value).part owner).get key = some value := by simp

theorem getPutOther {p : Parts T K V} {owner other : T} {key k : K} (different : ¬ (other = owner ∧ k = key)) (value : V) :
    ((p.put owner key value).part other).get k = (p.part other).get k := by
  by_cases same : other = owner
  · subst same
    rw [partPutSelf, Dict.getSetOther _ (fun sameKey => different ⟨rfl, sameKey⟩)]
  · rw [partPutOther _ same]

theorem putKeeps {p : Parts T K V} {owner other : T} {key k : K} {value v : V} (found : (p.part other).get k = some v) :
    ∃ w, ((p.put owner key value).part other).get k = some w := by
  by_cases same : other = owner ∧ k = key
  · obtain ⟨rfl, rfl⟩ := same
    exact ⟨value, p.getPutSelf other k value⟩
  · exact ⟨v, (getPutOther same value).trans found⟩

theorem partPutCongr {p q : Parts T K V} {part : T} (agree : p.part part = q.part part) (owner : T) (key : K)
    (value : V) : (p.put owner key value).part part = (q.put owner key value).part part := by
  by_cases same : part = owner
  · subst same
    simp [agree]
  · simp [partPutOther _ same, agree]

end Parts
end ContextOS.Lib
