import ContextOS.CacheSoundness

/-! How long a stored answer is served. An entry is answered only before the expiry that its
writing set, in both tiers and whatever else was written since, so that only the lifetime
set can differ from the one asked for: an explicit 0 is read as no lifetime given. -/
namespace ContextOS
open Lib (Dict Parts Machine)

variable {R : Type}

theorem expiryAtIff {now expiresAt : Time} {ttlSeconds : Int} : expiryAt now ttlSeconds = some expiresAt ↔
    expiresAt = now + ttlSeconds * 1000000 ∧ minTime ≤ expiresAt ∧ expiresAt ≤ maxTime := by
  simp only [expiryAt]
  split
  · rename_i inRange
    rw [Option.some.injEq]
    exact ⟨fun same => same ▸ ⟨rfl, inRange⟩, fun given => given.1.symm⟩
  · rename_i outside
    refine iff_of_false (by simp) ?_
    rintro ⟨rfl, inRange⟩
    exact outside inRange

-- the lookup that asks at once for what a call stored
def CacheCall.lookedUp : CacheCall → CacheCall
  | ⟨ctx, now, .store query _ kw _ _⟩ => ⟨ctx, now, .lookup query kw⟩
  | call => call

namespace SemanticCache
section Calls
variable [PyFloat R] [Builtins] (c : SemanticCache R)

/-! ### Writers -/

omit [PyFloat R] in
def writes (tenant key : String) : CacheCall × CacheReply R → Bool
  | (⟨ctx, _, .store query _ kw _ _⟩, .stored true) => ctx.tenantId = tenant ∧ exactSig (kw.fingerprint ctx) query = key
  | _ => false

omit [PyFloat R] in
-- the call that wrote what is stored under the key, the last of those that did
def writerOf (past : List (CacheCall × CacheReply R)) (tenant key : String) : Option CacheCall :=
  (past.reverse.find? (writes tenant key)).map Prod.fst

omit [PyFloat R] in
theorem writerAfter (past : List (CacheCall × CacheReply R)) (r : CacheCall × CacheReply R) (tenant key : String) :
    writerOf (past ++ [r]) tenant key = if writes tenant key r then some r.1 else writerOf past tenant key := by
  rw [writerOf, List.reverse_append, List.reverse_singleton, List.singleton_append, List.find?_cons]
  cases writes tenant key r <;> rfl

def askedTtl (call : CacheCall) : Int :=
  match call.op with
  | .store _ _ _ _ (some t) => t
  | _ => c.defaultTtl

def TtlHonoured (calls : List CacheCall) : Prop :=
  ∀ front call back query kw hit, calls = front ++ call :: back → call.op = .lookup query kw →
    c.lookup (c.machine.exec Dict.empty front) call.now call.ctx query kw = some hit →
    ∃ writer, writerOf (c.machine.replies Dict.empty front) call.ctx.tenantId hit.key = some writer ∧
      call.now < writer.now + c.askedTtl writer * 1000000

/-- A call that is stored for the default lifetime though it asks for none at all. -/
structure ZeroTtl (call : CacheCall) : Prop where
  store : ∃ query text kw, call.op = .store query text kw false (some 0)
  positive : 0 < c.defaultTtl
  inRange : (expiryAt call.now c.defaultTtl).isSome

/-! ### Entries and their writers -/

structure WrittenBy (past : List (CacheCall × CacheReply R)) (tenant key : String) (stored : StoredEntry R) (writer : CacheCall) :
    Prop where
  last : writerOf past tenant key = some writer
  called : writer ∈ past.map Prod.fst
  key : stored.entry.key = key
  made : ∃ query text kw ttl, writer.op = .store query text kw false ttl ∧
    expiryAt writer.now (c.effectiveTtl ttl) = some stored.expiresAt

def Written (past : List (CacheCall × CacheReply R)) (b : InMemoryCacheBackend R) : Prop :=
  ∀ tenant key stored, (b.part tenant).get key = some stored → ∃ writer, c.WrittenBy past tenant key stored writer

omit [PyFloat R] in
theorem newEntryExpiry {c : SemanticCache R} {now ctx query text kw nonCacheable ttl stored}
    (made : c.newEntry now ctx query text kw nonCacheable ttl = some stored) :
    expiryAt now (c.effectiveTtl ttl) = some stored.expiresAt := by
  unfold newEntry at made
  split at made <;> try contradiction
  dsimp only at made
  split at made <;> try contradiction
  rename_i expiresAt lasts
  cases Option.some.inj made
  exact lasts

omit [PyFloat R] in
variable {c} in
theorem WrittenBy.later {past : List (CacheCall × CacheReply R)} {tenant key : String} {stored : StoredEntry R}
    {writer : CacheCall} (given : c.WrittenBy past tenant key stored writer) {r : CacheCall × CacheReply R}
    (other : writes tenant key r = false) : c.WrittenBy (past ++ [r]) tenant key stored writer :=
  ⟨by rw [writerAfter, other]; exact given.last, by rw [List.map_append]; exact List.mem_append_left _ given.called,
    given.key, given.made⟩

theorem writtenStep {past : List (CacheCall × CacheReply R)} {b : InMemoryCacheBackend R} (call : CacheCall)
    (valid : c.Written past b) : c.Written (past ++ [(call, (c.step b call).2)]) (c.step b call).1 := by
  intro tenant key stored there
  obtain ⟨ctx, now, op⟩ := call
  unfold step at there ⊢
  cases op with
  | lookup query kw =>
    obtain ⟨writer, given⟩ := valid tenant key stored there
    exact ⟨writer, given.later rfl⟩
  | store query text kw nonCacheable ttl =>
    simp only [SemanticCache.store] at there ⊢
    cases made : c.newEntry now ctx query text kw nonCacheable ttl with
    | none =>
      simp only [made] at there
      obtain ⟨writer, given⟩ := valid tenant key stored there
      exact ⟨writer, given.later rfl⟩
    | some entry =>
      obtain ⟨rfl, written⟩ := newEntryOf made
      simp only [made, InMemoryCacheBackend.put] at there
      by_cases same : tenant = ctx.tenantId ∧ key = exactSig (kw.fingerprint ctx) query
      · obtain ⟨rfl, rfl⟩ := same
        rw [written.tenant, written.key, Parts.getPutSelf] at there
        cases Option.some.inj there
        refine ⟨⟨ctx, now, .store query text kw false ttl⟩, ?_, ?_, written.key, query, text, kw, ttl, rfl, newEntryExpiry made⟩
        · rw [writerAfter, if_pos (by simp [writes])]
        · rw [List.map_append]
          exact List.mem_append_right _ List.mem_cons_self
      · rw [written.tenant, written.key, Parts.getPutOther same] at there
        obtain ⟨writer, given⟩ := valid tenant key stored there
        refine ⟨writer, given.later ?_⟩
        rw [writes, decide_eq_false_iff_not]
        exact fun equal => same ⟨equal.1.symm, equal.2.symm⟩

theorem writtenRun (calls : List CacheCall) :
    c.Written (c.machine.replies Dict.empty calls) (c.machine.exec Dict.empty calls) :=
  c.machine.historyInvariant (P := c.Written) (by intro tenant key stored there; simp at there)
    (fun _ _ call valid => c.writtenStep call valid) calls

theorem hitLive {past : List (CacheCall × CacheReply R)} {b : InMemoryCacheBackend R} (valid : c.Written past b) {now : Time}
    {ctx : SecurityContext} {query : String} {kw : CacheKeywords} {hit : CacheHit R}
    (found : c.lookup b now ctx query kw = some hit) :
    ∃ stored writer, c.WrittenBy past ctx.tenantId hit.key stored writer ∧ now < stored.expiresAt := by
  obtain ⟨stored, origin⟩ := lookupHit found
  cases origin with
  | exact live there =>
    obtain ⟨writer, given⟩ := valid _ _ _ there
    exact ⟨stored, writer, given, of_decide_eq_true live⟩
  | semantic member similar =>
    obtain ⟨key, there⟩ := Dict.memValues.mp member
    obtain ⟨writer, given⟩ := valid _ _ _ there
    exact ⟨stored, writer, given.key ▸ given, of_decide_eq_true similar.live⟩

omit [PyFloat R] [Builtins] in
theorem effectiveAsked {call : CacheCall} (kept : ¬ c.ZeroTtl call) {query text : String} {kw : CacheKeywords}
    {ttl : Option Int} (op : call.op = .store query text kw false ttl) {expiresAt : Time}
    (lasts : expiryAt call.now (c.effectiveTtl ttl) = some expiresAt) : c.effectiveTtl ttl ≤ c.askedTtl call := by
  have asked : c.askedTtl call = ttl.getD c.defaultTtl := by
    rw [askedTtl, op]
    cases ttl <;> rfl
  rw [asked]
  cases ttl with
  | none => exact le_refl _
  | some t =>
    by_cases zero : t = 0
    · subst zero
      by_contra longer
      refine kept ⟨⟨query, text, kw, op⟩, not_le.mp longer, ?_⟩
      exact Option.isSome_iff_exists.mpr ⟨expiresAt, lasts⟩
    · exact le_of_eq (if_neg zero)

theorem keptHonoured {calls : List CacheCall} (kept : ∀ call ∈ calls, ¬ c.ZeroTtl call) : c.TtlHonoured calls := by
  rintro front call back query kw hit rfl op found
  obtain ⟨stored, writer, given, live⟩ := c.hitLive (c.writtenRun front) found
  obtain ⟨query', text, kw', ttl, store, lasts⟩ := given.made
  have called : writer ∈ front := by
    have listed := given.called
    rwa [Machine.repliesInputs] at listed
  have shorter := c.effectiveAsked (kept writer (List.mem_append_left _ called)) store lasts
  refine ⟨writer, given.last, ?_⟩
  calc call.now
    _ < stored.expiresAt := live
    _ = writer.now + c.effectiveTtl ttl * 1000000 := (expiryAtIff.mp lasts).1
    _ ≤ writer.now + c.askedTtl writer * 1000000 := Int.add_le_add_left (Int.mul_le_mul_of_nonneg_right shorter (by decide)) _

theorem zeroServed {call : CacheCall} (zero : c.ZeroTtl call) (front : List CacheCall) :
    ¬ c.TtlHonoured (front ++ [call, call.lookedUp]) := by
  obtain ⟨⟨query, text, kw, op⟩, positive, inRange⟩ := zero
  obtain ⟨expiresAt, lasts⟩ := Option.isSome_iff_exists.mp inRange
  obtain ⟨ctx, now, rfl⟩ : ∃ ctx now, call = ⟨ctx, now, .store query text kw false (some 0)⟩ := ⟨call.ctx, call.now, by rw [← op]⟩
  intro honoured
  let call : CacheCall := ⟨ctx, now, .store query text kw false (some 0)⟩
  let b := c.machine.exec Dict.empty front
  let key := exactSig (kw.fingerprint ctx) query
  let stored : StoredEntry R := ⟨⟨key, ctx.tenantId, prefilterSig (kw.fingerprint ctx), key, kw.modelId, c.defaultTtl, false⟩,
    c.embedder.embed (normalizeQuery query), text, expiresAt⟩
  have effective : c.effectiveTtl (some 0) = c.defaultTtl := rfl
  have made : c.newEntry now ctx query text kw false (some 0) = some stored := by
    simp only [newEntry, Bool.false_eq_true, if_false, effective, lasts]
    rfl
  have step : c.step b call = (b.put stored, .stored true) := by simp only [call, SemanticCache.step, SemanticCache.store, made]
  have after : c.machine.exec Dict.empty (front ++ [call]) = b.put stored := by
    rw [Machine.execAppend]
    exact congrArg Prod.fst step
  have past : c.machine.replies Dict.empty (front ++ [call]) = c.machine.replies Dict.empty front ++ [(call, .stored true)] := by
    rw [Machine.repliesAppend]
    exact congrArg (fun r => c.machine.replies Dict.empty front ++ [(call, r)]) (congrArg Prod.snd step)
  have live : InMemoryCacheBackend.live now stored := by
    have lasting : 0 < c.defaultTtl * 1000000 := Int.mul_pos positive (by decide)
    refine decide_eq_true (lt_of_lt_of_eq ?_ (expiryAtIff.mp lasts).1.symm)
    exact Int.lt_add_of_pos_right now lasting
  have there : ((b.put stored).part ctx.tenantId).get key = some stored := Parts.getPutSelf b ctx.tenantId key stored
  obtain ⟨writer, last, sooner⟩ := honoured (front ++ [call]) ⟨ctx, now, .lookup query kw⟩ [] query kw _
    (List.append_assoc front [call] [_]).symm rfl
    (after ▸ lookupExact live there)
  rw [past, writerAfter, if_pos (by simp [writes, call])] at last
  cases Option.some.inj last
  have asked : c.askedTtl call = 0 := rfl
  rw [asked] at sooner
  have zero : (now : Int) + 0 * 1000000 = now := by rw [Int.zero_mul, Int.add_zero]
  exact lt_irrefl now (sooner.trans_eq zero)

end Calls

/-- The condition leaves out only calls after which the answer is served too long. -/
theorem ttlHonoured [PyFloat R] [Builtins] (c : SemanticCache R) :
    (∀ calls : List CacheCall, (∀ call ∈ calls, ¬ c.ZeroTtl call) → c.TtlHonoured calls) ∧
      ∀ call : CacheCall, c.ZeroTtl call → ∀ front, ¬ c.TtlHonoured (front ++ [call, call.lookedUp]) :=
  ⟨fun _ kept => c.keptHonoured kept, fun _ zero front => c.zeroServed zero front⟩

end SemanticCache

def forNoTime : CacheCall := ⟨member "acme" "sales", 0, .store "colour" "blue" ⟨"default", "v1", "v0"⟩ false (some 0)⟩

theorem forNoTimeServed :
    letI := asciiBuiltins sampleDigests []
    ¬ sampleCache.TtlHonoured [forNoTime, forNoTime.lookedUp] := by
  let _ := asciiBuiltins sampleDigests []
  have zero : sampleCache.ZeroTtl forNoTime := ⟨⟨"colour", "blue", ⟨"default", "v1", "v0"⟩, rfl⟩, by decide, by decide⟩
  exact sampleCache.zeroServed zero []

end ContextOS
