import ContextOS.Cache
import ContextOS.Executable
import ContextOS.Lib.Join
import ContextOS.Lib.Machine

/-! What a cache hit can be trusted for. An entry is found again through the digest of its
joined fingerprint, so a hit has the fingerprint it was asked for exactly when no two
fingerprints in use join to the same text. Without the separator in the caller's strings
no two of them do; with it, an answer moves to another namespace and another model. -/
namespace ContextOS
open Lib (Dict Parts Machine)

variable {R : Type}

theorem separatorChar : fingerprintSep = String.singleton '\x1f' := by decide

section Digests
variable [Builtins]

/-- A normalized query has no separator: it is white space, and was split away. -/
theorem normalizedFree (query : String) : '\x1f' ∉ (normalizeQuery query).toList := by
  have blank : " " = String.singleton ' ' := by decide
  unfold normalizeQuery
  rw [blank]
  refine Lib.joinFree (by decide) (fun word member inside => ?_)
  exact absurd (splitWordsNoSpace member _ inside) (by decide)

variable (collisionFree : Function.Injective Builtins.sha256)
include collisionFree

theorem prefilterDetermines {f g : Fingerprint} (same : prefilterSig f = prefilterSig g) :
    fingerprintSep.intercalate f.parts = fingerprintSep.intercalate g.parts :=
  collisionFree same

theorem exactDetermines {f g : Fingerprint} {query other : String} (same : exactSig f query = exactSig g other) :
    prefilterSig f = prefilterSig g ∧ normalizeQuery query = normalizeQuery other := by
  have joined := collisionFree same
  rw [separatorChar] at joined
  exact Lib.joinPair (normalizedFree query) (normalizedFree other) joined

end Digests

/-! ### Calls -/

inductive CacheOp where
  | store (query responseText : String) (kw : CacheKeywords) (nonCacheable : Bool) (ttlSeconds : Option Int)
  | lookup (query : String) (kw : CacheKeywords)

structure CacheCall where
  ctx : SecurityContext
  now : Time
  op : CacheOp

def CacheOp.keywords : CacheOp → CacheKeywords
  | .store _ _ kw _ _ => kw
  | .lookup _ kw => kw

def CacheCall.fingerprint (call : CacheCall) : Fingerprint := call.op.keywords.fingerprint call.ctx

inductive CacheReply (R : Type) where
  | stored (ok : Bool)
  | found (hit : Option (CacheHit R))

namespace SemanticCache
variable [PyFloat R] [Builtins] (c : SemanticCache R)

def step (b : InMemoryCacheBackend R) (call : CacheCall) : InMemoryCacheBackend R × CacheReply R :=
  match call.op with
  | .store query text kw nonCacheable ttl =>
    let (ok, b) := c.store b call.now call.ctx query text kw nonCacheable ttl
    (b, .stored ok)
  | .lookup query kw => (b, .found (c.lookup b call.now call.ctx query kw))

def machine : Machine (InMemoryCacheBackend R) CacheCall (CacheReply R) := ⟨c.step⟩

def QueryMatches (asked stored : String) : CacheTier → Prop
  | .exact => normalizeQuery asked = normalizeQuery stored
  | .semantic => ∃ sim, cosine (c.embedder.embed (normalizeQuery asked)) (c.embedder.embed (normalizeQuery stored)) = .ok sim ∧
      c.threshold ≤ sim

def Served (past : List (CacheCall × CacheReply R)) (ctx : SecurityContext) (query : String) (kw : CacheKeywords)
    (hit : CacheHit R) : Prop :=
  ∃ earlier ∈ past, ∃ stored kw' nonCacheable ttl,
    earlier.1.op = .store stored hit.responseText kw' nonCacheable ttl ∧ earlier.2 = .stored true ∧
    kw'.fingerprint earlier.1.ctx = kw.fingerprint ctx ∧ c.QueryMatches query stored hit.tier

def HitsSound (calls : List CacheCall) : Prop :=
  ∀ front call back query kw, calls = front ++ call :: back → call.op = .lookup query kw →
    ∀ hit, c.lookup (c.machine.exec Dict.empty front) call.now call.ctx query kw = some hit →
      c.Served (c.machine.replies Dict.empty front) call.ctx query kw hit

def Filed (past : List (CacheCall × CacheReply R)) (b : InMemoryCacheBackend R) : Prop :=
  ∀ tenant key stored, (b.part tenant).get key = some stored → ∃ earlier ∈ past, ∃ query text kw nonCacheable ttl,
    earlier.1.op = .store query text kw nonCacheable ttl ∧ earlier.2 = .stored true ∧
    EntryOf c earlier.1.ctx query text kw stored ∧ stored.entry.tenantId = tenant ∧ stored.entry.key = key

theorem filedStep {past : List (CacheCall × CacheReply R)} {b : InMemoryCacheBackend R} (call : CacheCall)
    (valid : c.Filed past b) : c.Filed (past ++ [(call, (c.step b call).2)]) (c.step b call).1 := by
  intro tenant key stored there
  unfold step at there ⊢
  cases op : call.op with
  | lookup query kw =>
    simp only [op] at there
    obtain ⟨earlier, member, rest⟩ := valid tenant key stored there
    exact ⟨earlier, List.mem_append_left _ member, rest⟩
  | store query text kw nonCacheable ttl =>
    simp only [op, SemanticCache.store] at there ⊢
    cases made : c.newEntry call.now call.ctx query text kw nonCacheable ttl with
    | none =>
      simp only [made] at there
      obtain ⟨earlier, member, rest⟩ := valid tenant key stored there
      exact ⟨earlier, List.mem_append_left _ member, rest⟩
    | some entry =>
      simp only [made, InMemoryCacheBackend.put] at there
      rcases Parts.getPut there with ⟨owner, same, rfl⟩ | old
      · exact ⟨_, List.mem_append_right _ List.mem_cons_self, query, text, kw, nonCacheable, ttl, op, rfl,
          (newEntryOf made).2, owner.symm, same.symm⟩
      · obtain ⟨earlier, member, rest⟩ := valid tenant key stored old
        exact ⟨earlier, List.mem_append_left _ member, rest⟩

theorem filedRun (calls : List CacheCall) :
    c.Filed (c.machine.replies Dict.empty calls) (c.machine.exec Dict.empty calls) :=
  c.machine.historyInvariant (P := c.Filed) (by intro tenant key stored there; simp at there)
    (fun _ _ call valid => c.filedStep call valid) calls

/-! ### Which fingerprints are safe -/

def Unambiguous (admitted : Set Fingerprint) : Prop :=
  ∀ f ∈ admitted, ∀ g ∈ admitted, f.tenantId = g.tenantId →
    fingerprintSep.intercalate f.parts = fingerprintSep.intercalate g.parts → f = g

omit [PyFloat R] [Builtins] in
theorem separatorFree : Unambiguous {f | ∀ part ∈ f.parts, '\x1f' ∉ part.toList} := by
  intro f free g free' _ same
  rw [separatorChar] at same
  have parts := Lib.joinParts free free' (by simp [Fingerprint.parts]) (by simp [Fingerprint.parts]) same
  simp only [Fingerprint.parts, List.cons.injEq, and_true] at parts
  obtain ⟨tenant, ns, model, system, facts⟩ := parts
  cases f
  cases g
  simp_all

theorem soundWithin (collisionFree : Function.Injective Builtins.sha256) {admitted : Set Fingerprint}
    (unambiguous : Unambiguous admitted) {calls : List CacheCall}
    (within : ∀ call ∈ calls, call.fingerprint ∈ admitted) : c.HitsSound calls := by
  intro front call back query kw equal op hit found
  subst equal
  have asked : kw.fingerprint call.ctx ∈ admitted := by
    have := within call (by simp)
    simpa only [CacheCall.fingerprint, op, CacheOp.keywords] using this
  have stores : ∀ earlier ∈ c.machine.replies Dict.empty front, earlier.1.fingerprint ∈ admitted := by
    intro earlier member
    have input := List.mem_map_of_mem (f := Prod.fst) member
    rw [Machine.repliesInputs] at input
    exact within _ (List.mem_append_left _ input)
  have filed := c.filedRun front
  obtain ⟨stored, origin⟩ := lookupHit found
  cases origin with
  | exact live there =>
    obtain ⟨earlier, member, q, text, kw', nonCacheable, ttl, store, ok, entry, tenant, key⟩ := filed _ _ _ there
    obtain ⟨digest, queries⟩ := exactDetermines collisionFree (entry.key.symm.trans key)
    have used : kw'.fingerprint earlier.1.ctx ∈ admitted := by
      have := stores earlier member
      simpa only [CacheCall.fingerprint, store, CacheOp.keywords] using this
    have same := unambiguous _ used _ asked (entry.tenant.symm.trans tenant) (prefilterDetermines collisionFree digest)
    exact ⟨earlier, member, q, kw', nonCacheable, ttl, by rw [entry.text]; exact store, ok, same, queries.symm⟩
  | @semantic sim member similar =>
    obtain ⟨key, there⟩ := Dict.memValues.mp member
    obtain ⟨earlier, member, q, text, kw', nonCacheable, ttl, store, ok, entry, tenant, _⟩ := filed _ _ _ there
    have used : kw'.fingerprint earlier.1.ctx ∈ admitted := by
      have := stores earlier member
      simpa only [CacheCall.fingerprint, store, CacheOp.keywords] using this
    have same := unambiguous _ used _ asked (entry.tenant.symm.trans tenant)
      (prefilterDetermines collisionFree (entry.fingerprint.symm.trans similar.fingerprint))
    have cosine := similar.similar
    rw [entry.embedding] at cosine
    exact ⟨earlier, member, q, kw', nonCacheable, ttl, by rw [entry.text]; exact store, ok, same, sim, cosine,
      similar.enough⟩

/-! ### Ambiguous fingerprints are confused -/

def contextOf (f : Fingerprint) : SecurityContext :=
  ⟨f.tenantId, ⟨"anonymous", f.tenantId, ["user"], Dict.empty⟩, f.namespaceId, "request"⟩

def keywordsOf (f : Fingerprint) : CacheKeywords := ⟨f.modelId, f.systemPromptVersion, f.stableFactsVersion⟩

def storeUnder (f : Fingerprint) : CacheCall := ⟨contextOf f, 0, .store "" "answer" (keywordsOf f) false (some 60)⟩
def lookupUnder (f : Fingerprint) : CacheCall := ⟨contextOf f, 0, .lookup "" (keywordsOf f)⟩

omit [PyFloat R] in
theorem storedUnder (f : Fingerprint) : c.newEntry 0 (contextOf f) "" "answer" (keywordsOf f) false (some 60) =
    some ⟨⟨exactSig f "", f.tenantId, prefilterSig f, exactSig f "", f.modelId, 60, false⟩,
      c.embedder.embed (normalizeQuery ""), "answer", 60000000⟩ := by
  have lasts : expiryAt 0 60 = some 60000000 := by decide
  simp only [newEntry, effectiveTtl, Bool.false_eq_true, if_false, OfNat.ofNat_ne_zero, lasts]
  rfl

theorem confused {f g : Fingerprint} (tenant : f.tenantId = g.tenantId)
    (same : fingerprintSep.intercalate f.parts = fingerprintSep.intercalate g.parts)
    (sound : c.HitsSound [storeUnder f, lookupUnder g]) : f = g := by
  have digest : prefilterSig f = prefilterSig g := congrArg Builtins.sha256 same
  have key : exactSig f "" = exactSig g "" := by simp only [exactSig, digest]
  have there : ((c.machine.exec Dict.empty [storeUnder f]).part g.tenantId).get (exactSig g "") =
      some ⟨⟨exactSig f "", f.tenantId, prefilterSig f, exactSig f "", f.modelId, 60, false⟩,
        c.embedder.embed (normalizeQuery ""), "answer", 60000000⟩ := by
    simp only [machine, Machine.exec, step, storeUnder, SemanticCache.store, storedUnder, InMemoryCacheBackend.put,
      ← tenant, ← key, Parts.partPutSelf, Dict.getSetSelf]
  obtain ⟨earlier, member, q, kw, nonCacheable, ttl, store, _, fingerprint, _⟩ :=
    sound [storeUnder f] (lookupUnder g) [] "" (keywordsOf g) rfl rfl _ (lookupExact (by rfl) there)
  cases List.mem_singleton.mp member
  cases store
  exact fingerprint

end SemanticCache

theorem hitsSoundIff [PyFloat R] [Builtins] (c : SemanticCache R)
    (collisionFree : Function.Injective Builtins.sha256) (admitted : Set Fingerprint) :
    (∀ calls : List CacheCall, (∀ call ∈ calls, call.fingerprint ∈ admitted) → c.HitsSound calls) ↔
      SemanticCache.Unambiguous admitted := by
  constructor
  · intro sound f admittedF g admittedG tenant same
    refine c.confused tenant same (sound _ (fun call member => ?_))
    rcases List.mem_pair.mp member with rfl | rfl
    · exact admittedF
    · exact admittedG
  · intro unambiguous calls within
    exact c.soundWithin collisionFree unambiguous within

def sampleDigests : List (String × String) :=
  [("acme\x1fsales\x1fdefault\x1fv1\x1fv0", "fd47521169d915d92ab83ca46ab2971e26f3f9f414ced1679ba6a161bf8ae0d4"),
   ("fd47521169d915d92ab83ca46ab2971e26f3f9f414ced1679ba6a161bf8ae0d4\x1fcolour",
    "4bd38afc76ae05dc3b8ebcd75eccc9fea3ab2a46d01b45aa063f41f11eb4c0ee")]

def sampleCache [Builtins] : SemanticCache ℚ :=
  ⟨hashingEmbeddingProvider embeddingDim, defaultTau, defaultTtlSeconds⟩

theorem hitsSoundIffSample :
    letI := asciiBuiltins sampleDigests []
    (∀ calls : List CacheCall, (∀ call ∈ calls, call.fingerprint ∈ ({⟨"acme", "sales", "default", "v1", "v0"⟩} : Set Fingerprint)) →
      sampleCache.HitsSound calls) ↔ SemanticCache.Unambiguous {⟨"acme", "sales", "default", "v1", "v0"⟩} :=
  letI := asciiBuiltins sampleDigests []
  hitsSoundIff sampleCache (asciiCollisionFree (by decide) (by decide)) _

def movedSeparator : List CacheCall :=
  [SemanticCache.storeUnder ⟨"acme", "a", "b\x1fm", "v1", "v0"⟩, SemanticCache.lookupUnder ⟨"acme", "a\x1fb", "m", "v1", "v0"⟩]

theorem separatorConfuses :
    letI := asciiBuiltins sampleDigests []
    Function.Injective Builtins.sha256 ∧ ¬ sampleCache.HitsSound movedSeparator := by
  refine ⟨asciiCollisionFree (by decide) (by decide), fun sound => ?_⟩
  let _ := asciiBuiltins sampleDigests []
  exact absurd (sampleCache.confused (f := ⟨"acme", "a", "b\x1fm", "v1", "v0"⟩) (g := ⟨"acme", "a\x1fb", "m", "v1", "v0"⟩)
    rfl (by decide) sound) (by decide)

end ContextOS
