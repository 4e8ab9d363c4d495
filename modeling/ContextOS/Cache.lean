import ContextOS.Lib.Outcome
import ContextOS.Scoring

/-! The semantic cache: fingerprint construction, the in-memory backend with its two
tiers and lazy expiry, and the fail-open engine over it. The scan of the semantic tier
keeps the first of the best entries, and raises on a vector of another length. -/
namespace ContextOS
open Lib (Dict Parts bindOk)

variable {R : Type}

def fingerprintSep : String := "\x1f"

section Keys
variable [Builtins]

def normalizeQuery (query : String) : String :=
  " ".intercalate (splitWords (Builtins.lower query))

-- `_sha`
def shaParts (parts : List String) : String := Builtins.sha256 (fingerprintSep.intercalate parts)

structure Fingerprint where
  tenantId : String
  namespaceId : String
  modelId : String
  systemPromptVersion : String
  stableFactsVersion : String
  deriving DecidableEq, Repr

def Fingerprint.parts (f : Fingerprint) : List String :=
  [f.tenantId, f.namespaceId, f.modelId, f.systemPromptVersion, f.stableFactsVersion]

def prefilterSig (f : Fingerprint) : String := shaParts f.parts

def exactSig (f : Fingerprint) (query : String) : String :=
  shaParts [prefilterSig f, normalizeQuery query]

end Keys

/-! ### Backend -/

structure CacheEntry where
  key : String
  tenantId : String
  fingerprint : String
  responseRef : String
  modelId : String
  ttlSeconds : Int
  nonCacheable : Bool
  deriving DecidableEq, Repr

structure StoredEntry (R : Type) where
  entry : CacheEntry
  embedding : List R
  responseText : String
  expiresAt : Time
  deriving DecidableEq

abbrev InMemoryCacheBackend (R : Type) := Parts String String (StoredEntry R)

namespace InMemoryCacheBackend

def live (now : Time) (s : StoredEntry R) : Bool := now < s.expiresAt

def getExact (b : InMemoryCacheBackend R) (now : Time) (tenantId key : String) : Option (StoredEntry R) :=
  match (b.part tenantId).get key with
  | some s => if live now s then some s else none
  | none => none

variable [PyFloat R]

def bestSemantic (now : Time) (prefilter : String) (embedding : List R) (threshold : R) :
    Option (StoredEntry R) → R → List (StoredEntry R) → Except PyError (Option (StoredEntry R × R))
  | best, bestSim, [] => .ok (best.map (·, bestSim))
  | best, bestSim, s :: rest =>
    if !live now s || s.entry.fingerprint ≠ prefilter then
      bestSemantic now prefilter embedding threshold best bestSim rest
    else do
      let sim ← cosine embedding s.embedding
      if threshold ≤ sim ∧ bestSim < sim then bestSemantic now prefilter embedding threshold (some s) sim rest
      else bestSemantic now prefilter embedding threshold best bestSim rest

def searchSemantic (b : InMemoryCacheBackend R) (now : Time) (tenantId prefilter : String)
    (embedding : List R) (threshold : R) : Except PyError (Option (StoredEntry R × R)) :=
  bestSemantic now prefilter embedding threshold none (-1) (b.part tenantId).values

structure Similar (now : Time) (prefilter : String) (embedding : List R) (threshold : R) (s : StoredEntry R)
    (sim : R) : Prop where
  live : live now s
  fingerprint : s.entry.fingerprint = prefilter
  similar : cosine embedding s.embedding = .ok sim
  enough : threshold ≤ sim

theorem bestSemanticFound {now prefilter threshold s sim} {embedding : List R} {entries : List (StoredEntry R)}
    {best bestSim} (searched : bestSemantic now prefilter embedding threshold best bestSim entries = .ok (some (s, sim))) :
    (best = some s ∧ bestSim = sim) ∨ (s ∈ entries ∧ Similar now prefilter embedding threshold s sim) := by
  induction entries generalizing best bestSim with
  | nil =>
    cases best with
    | none => simp [bestSemantic] at searched
    | some b => simpa [bestSemantic] using searched
  | cons entry rest ih =>
    unfold bestSemantic at searched
    split at searched
    · exact (ih searched).imp_right (fun later => ⟨List.mem_cons_of_mem _ later.1, later.2⟩)
    · rename_i candidate
      simp only [Bool.or_eq_true, Bool.not_eq_true', decide_eq_true_eq, not_or, Bool.not_eq_false,
        Decidable.not_not] at candidate
      obtain ⟨found, similar, searched⟩ := bindOk.mp searched
      split at searched
      · rename_i better
        rcases ih searched with ⟨here, same⟩ | later
        · cases Option.some.inj here
          subst same
          exact .inr ⟨List.mem_cons_self, candidate.1, candidate.2, similar, better.1⟩
        · exact .inr ⟨List.mem_cons_of_mem _ later.1, later.2⟩
      · exact (ih searched).imp_right (fun later => ⟨List.mem_cons_of_mem _ later.1, later.2⟩)

theorem bestSemanticAnswers {now prefilter threshold} {embedding : List R} {entries : List (StoredEntry R)} {b bestSim}
    (total : ∀ s ∈ entries, ∃ sim, cosine embedding s.embedding = .ok sim)
    (enough : b.isSome ∨ (bestSim < threshold ∧ ∃ s ∈ entries, ∃ sim, Similar now prefilter embedding threshold s sim)) :
    ∃ found, bestSemantic now prefilter embedding threshold b bestSim entries = .ok (some found) := by
  induction entries generalizing b bestSim with
  | nil =>
    obtain ⟨best, rfl⟩ := Option.isSome_iff_exists.mp (enough.resolve_right (by simp))
    exact ⟨(best, bestSim), rfl⟩
  | cons entry rest ih =>
    obtain ⟨⟨here, compared⟩, total⟩ := List.forall_mem_cons.mp total
    have later (other : ∀ sim, bestSim < threshold → ¬ Similar now prefilter embedding threshold entry sim) :
        b.isSome ∨ (bestSim < threshold ∧ ∃ s ∈ rest, ∃ sim, Similar now prefilter embedding threshold s sim) := by
      refine enough.imp_right fun ⟨below, s, member, sim, similar⟩ => ⟨below, s, ?_, sim, similar⟩
      exact (List.mem_cons.mp member).resolve_left fun same => other sim below (same ▸ similar)
    unfold bestSemantic
    split
    · rename_i skipped
      exact ih total (later fun sim _ similar => by simp [similar.live, similar.fingerprint] at skipped)
    · simp only [compared, bind, Except.bind]
      split
      · exact ih total (.inl rfl)
      · rename_i worse
        refine ih total (later fun sim below similar => worse ?_)
        cases Except.ok.inj (compared.symm.trans similar.similar)
        exact ⟨similar.enough, below.trans_le similar.enough⟩

theorem searchFound {b : InMemoryCacheBackend R} {now tenantId prefilter embedding threshold s sim}
    (searched : b.searchSemantic now tenantId prefilter embedding threshold = .ok (some (s, sim))) :
    s ∈ (b.part tenantId).values ∧ Similar now prefilter embedding threshold s sim :=
  (bestSemanticFound searched).resolve_left (by simp)

omit [PyFloat R] in
def put (b : InMemoryCacheBackend R) (stored : StoredEntry R) : InMemoryCacheBackend R :=
  Parts.put b stored.entry.tenantId stored.entry.key stored

end InMemoryCacheBackend

/-! ### Engine -/

inductive CacheTier where
  | exact
  | semantic
  deriving DecidableEq, Repr

def CacheTier.value : CacheTier → String
  | .exact => "exact"
  | .semantic => "semantic"

structure CacheHit (R : Type) where
  responseText : String
  tier : CacheTier
  similarity : R
  key : String
  deriving DecidableEq

def defaultTau {R : Type} [PyFloat R] : R := 0.92
def defaultTtlSeconds : Int := 86400

structure SemanticCache (R : Type) where
  embedder : EmbeddingProvider R
  threshold : R
  defaultTtl : Int

/-- `now + timedelta(seconds=ttl)`, which raises `OverflowError` outside the range of dates. -/
def expiryAt (now : Time) (ttlSeconds : Int) : Option Time :=
  let at_ := now + ttlSeconds * 1000000
  if minTime ≤ at_ ∧ at_ ≤ maxTime then some at_ else none

structure CacheKeywords where
  modelId : String
  systemPromptVersion : String
  stableFactsVersion : String
  deriving DecidableEq, Repr

def CacheKeywords.fingerprint (kw : CacheKeywords) (ctx : SecurityContext) : Fingerprint :=
  ⟨ctx.tenantId, ctx.namespaceId, kw.modelId, kw.systemPromptVersion, kw.stableFactsVersion⟩

namespace SemanticCache
variable [PyFloat R] [Builtins]

/-- Any exception is a miss. -/
def lookup (c : SemanticCache R) (b : InMemoryCacheBackend R) (now : Time) (ctx : SecurityContext)
    (query : String) (kw : CacheKeywords) : Option (CacheHit R) :=
  let pre := prefilterSig (kw.fingerprint ctx)
  let ekey := exactSig (kw.fingerprint ctx) query
  match b.getExact now ctx.tenantId ekey with
  | some exact => some ⟨exact.responseText, .exact, 1, ekey⟩
  | none =>
    match b.searchSemantic now ctx.tenantId pre (c.embedder.embed (normalizeQuery query)) c.threshold with
    | .ok (some (stored, sim)) => some ⟨stored.responseText, .semantic, sim, stored.entry.key⟩
    | .ok none => none
    | .error _ => none

def effectiveTtl (c : SemanticCache R) (ttlSeconds : Option Int) : Int :=
  match ttlSeconds with
  | some t => if t = 0 then c.defaultTtl else t
  | none => c.defaultTtl

def newEntry (c : SemanticCache R) (now : Time) (ctx : SecurityContext) (query responseText : String)
    (kw : CacheKeywords) (nonCacheable : Bool) (ttlSeconds : Option Int) : Option (StoredEntry R) :=
  if nonCacheable then none
  else
    let pre := prefilterSig (kw.fingerprint ctx)
    let ekey := exactSig (kw.fingerprint ctx) query
    let ttl := c.effectiveTtl ttlSeconds
    match expiryAt now ttl with
    | none => none
    | some expiresAt =>
      some ⟨⟨ekey, ctx.tenantId, pre, ekey, kw.modelId, ttl, false⟩,
        c.embedder.embed (normalizeQuery query), responseText, expiresAt⟩

structure EntryOf (c : SemanticCache R) (ctx : SecurityContext) (query text : String) (kw : CacheKeywords)
    (stored : StoredEntry R) : Prop where
  tenant : stored.entry.tenantId = ctx.tenantId
  key : stored.entry.key = exactSig (kw.fingerprint ctx) query
  fingerprint : stored.entry.fingerprint = prefilterSig (kw.fingerprint ctx)
  embedding : stored.embedding = c.embedder.embed (normalizeQuery query)
  text : stored.responseText = text

omit [PyFloat R] in
theorem newEntryOf {c : SemanticCache R} {now ctx query text kw nonCacheable ttl stored}
    (made : c.newEntry now ctx query text kw nonCacheable ttl = some stored) :
    nonCacheable = false ∧ EntryOf c ctx query text kw stored := by
  unfold newEntry at made
  split at made <;> try contradiction
  rename_i cacheable
  dsimp only at made
  split at made <;> try contradiction
  cases Option.some.inj made
  exact ⟨by simpa using cacheable, rfl, rfl, rfl, rfl, rfl⟩

def store (c : SemanticCache R) (b : InMemoryCacheBackend R) (now : Time) (ctx : SecurityContext)
    (query responseText : String) (kw : CacheKeywords) (nonCacheable : Bool) (ttlSeconds : Option Int) :
    Bool × InMemoryCacheBackend R :=
  match c.newEntry now ctx query responseText kw nonCacheable ttlSeconds with
  | none => (false, b)
  | some stored => (true, b.put stored)

inductive HitFrom (c : SemanticCache R) (b : InMemoryCacheBackend R) (now : Time) (ctx : SecurityContext)
    (query : String) (kw : CacheKeywords) (stored : StoredEntry R) : CacheHit R → Prop where
  | exact (live : InMemoryCacheBackend.live now stored)
      (found : (b.part ctx.tenantId).get (exactSig (kw.fingerprint ctx) query) = some stored) :
      HitFrom c b now ctx query kw stored
        ⟨stored.responseText, .exact, 1, exactSig (kw.fingerprint ctx) query⟩
  | semantic {sim : R} (member : stored ∈ (b.part ctx.tenantId).values)
      (similar : InMemoryCacheBackend.Similar now (prefilterSig (kw.fingerprint ctx))
        (c.embedder.embed (normalizeQuery query)) c.threshold stored sim) :
      HitFrom c b now ctx query kw stored ⟨stored.responseText, .semantic, sim, stored.entry.key⟩

theorem lookupHit {c : SemanticCache R} {b now ctx query kw hit} (found : c.lookup b now ctx query kw = some hit) :
    ∃ stored, HitFrom c b now ctx query kw stored hit := by
  unfold lookup at found
  dsimp only at found
  split at found
  · rename_i stored exact
    cases Option.some.inj found
    unfold InMemoryCacheBackend.getExact at exact
    split at exact <;> try contradiction
    rename_i entry there
    split at exact <;> try contradiction
    rename_i live
    cases Option.some.inj exact
    exact ⟨stored, .exact live there⟩
  · split at found <;> try contradiction
    rename_i stored sim searched
    cases Option.some.inj found
    obtain ⟨member, spec⟩ := InMemoryCacheBackend.searchFound searched
    exact ⟨stored, .semantic member spec⟩

theorem lookupExact {c : SemanticCache R} {b now ctx query kw} {stored : StoredEntry R}
    (live : InMemoryCacheBackend.live now stored)
    (found : (b.part ctx.tenantId).get (exactSig (kw.fingerprint ctx) query) = some stored) :
    c.lookup b now ctx query kw = some ⟨stored.responseText, .exact, 1, exactSig (kw.fingerprint ctx) query⟩ := by
  have exact : b.getExact now ctx.tenantId (exactSig (kw.fingerprint ctx) query) = some stored := by
    simp only [InMemoryCacheBackend.getExact, found, live, if_true]
  simp only [lookup, exact]

/-! ### Entries that answer a query -/

inductive Matches (c : SemanticCache R) (now : Time) (ctx : SecurityContext) (query : String) (kw : CacheKeywords)
    (stored : StoredEntry R) : Prop where
  | exact (live : InMemoryCacheBackend.live now stored) (key : stored.entry.key = exactSig (kw.fingerprint ctx) query)
  | semantic {sim : R}
      (similar : InMemoryCacheBackend.Similar now (prefilterSig (kw.fingerprint ctx))
        (c.embedder.embed (normalizeQuery query)) c.threshold stored sim)

def Formed (c : SemanticCache R) (b : InMemoryCacheBackend R) : Prop :=
  ∀ tenant key stored, (b.part tenant).get key = some stored →
    stored.entry.key = key ∧ ∃ query, stored.embedding = c.embedder.embed (normalizeQuery query)

theorem hitMatches {c : SemanticCache R} {b now ctx query kw stored hit} (formed : c.Formed b)
    (origin : HitFrom c b now ctx query kw stored hit) :
    (b.part ctx.tenantId).get stored.entry.key = some stored ∧ c.Matches now ctx query kw stored := by
  cases origin with
  | exact live found =>
    have key := (formed _ _ _ found).1
    exact ⟨key ▸ found, .exact live key⟩
  | semantic member similar =>
    obtain ⟨key, there⟩ := Dict.memValues.mp member
    exact ⟨(formed _ _ _ there).1 ▸ there, .semantic similar⟩

theorem lookupAnswers {c : SemanticCache R} {b now ctx query kw stored} (formed : c.Formed b) (positive : -1 < c.threshold)
    (sized : ∀ x y, (c.embedder.embed x).length = (c.embedder.embed y).length)
    (there : (b.part ctx.tenantId).get stored.entry.key = some stored) (matching : c.Matches now ctx query kw stored) :
    ∃ hit, c.lookup b now ctx query kw = some hit := by
  cases matching with
  | exact live key => exact ⟨_, lookupExact live (key ▸ there)⟩
  | semantic similar =>
    have total : ∀ s ∈ (b.part ctx.tenantId).values,
        ∃ sim, cosine (c.embedder.embed (normalizeQuery query)) s.embedding = .ok sim := fun s member => by
      obtain ⟨key, there⟩ := Dict.memValues.mp member
      obtain ⟨_, text, made⟩ := formed _ _ _ there
      exact cosineTotal (made ▸ sized _ _)
    have member : stored ∈ (b.part ctx.tenantId).values := Dict.memValues.mpr ⟨_, there⟩
    obtain ⟨found, searched⟩ :=
      InMemoryCacheBackend.bestSemanticAnswers total (b := none) (.inr ⟨positive, stored, member, _, similar⟩)
    unfold lookup
    dsimp only
    split
    · exact ⟨_, rfl⟩
    · rw [InMemoryCacheBackend.searchSemantic, searched]
      exact ⟨_, rfl⟩

end SemanticCache
end ContextOS
