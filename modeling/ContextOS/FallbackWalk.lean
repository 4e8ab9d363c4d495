import ContextOS.RegistrationOrder

/-! The walk over a fallback chain, told without the walk. The names of a chain differ, so
no report on the way changes what a later name finds: each attempt is read off the registry
as it was. The walk makes the attempts in order, up to the first success. -/
namespace ContextOS

variable {R : Type}

-- what the walk returns where it ends at this visit
def Visit.answer (v : Visit R) : Option (ChatResponse × String × String) :=
  match v.outcome with
  | .replied resp => some (resp, v.entry.spec.name, v.entry.spec.modelId)
  | _ => none

-- the entry after the report on the visit, if it got one
def Visit.reported (env : Env) (v : Visit R) : RegistryEntry R :=
  match v.outcome with
  | .skipped => v.entry
  | .replied _ => { v.entry with breaker := v.entry.breaker.recordSuccess }
  | .raised _ => { v.entry with breaker := v.entry.breaker.recordFailure (env.failedAt v.hop) }

namespace Pipeline

def attempt (env : Env) (messages : List ChatMessage) (maxTokens : Int) (hop : Nat) (entry : RegistryEntry R) : Visit R :=
  ⟨hop, entry,
    if entry.breaker.allows (env.allowsAt hop) then
      match entry.adapter.generate (env.callToken hop) ⟨entry.spec.modelId, messages, maxTokens⟩ with
      | .ok resp => .replied resp
      | .error e => .raised e
    else .skipped⟩

def attempts (env : Env) (messages : List ChatMessage) (maxTokens : Int) : Nat → List String → BackendRegistry R → List (Visit R)
  | _, [], _ => []
  | hop, name :: rest, reg =>
    ((reg.get name).map (attempt env messages maxTokens hop)).toList ++ attempts env messages maxTokens (hop + 1) rest reg

-- the attempts up to the first success
def reached (l : List (Visit R)) : List (Visit R) :=
  l.takeWhile (fun v => v.answer.isNone) ++ (l.find? (fun v => v.answer.isSome)).toList

def unavailable : PyError := ⟨.backendUnavailable, "all routed backends failed or are breaker-open"⟩

-- what the walk does, given the attempts it could make
structure Onward (env : Env) (messages : List ChatMessage) (maxTokens : Int) (reg : BackendRegistry R)
    (tries : List (Visit R)) (walk : Invocation R) : Prop where
  calls : walk.calls = (reached tries).filterMap (Visit.call messages maxTokens)
  result : walk.result = (tries.findSome? Visit.answer).elim (.error unavailable) .ok
  backends : ∀ name, walk.backends.get name =
    ((reached tries).find? (fun v => v.entry.spec.name = name)).elim (reg.get name) fun v => some (v.reported env)

structure FallsBack (env : Env) (messages : List ChatMessage) (maxTokens : Int) (chain : List String) (reg : BackendRegistry R)
    (tries : List (Visit R)) (walk : Invocation R) : Prop extends Onward env messages maxTokens reg tries walk where
  once : (tries.map (·.entry.spec.name)).Nodup
  order : (tries.map (·.entry.spec.name)).Sublist chain
  registered : ∀ v ∈ tries, reg.get v.entry.spec.name = some v.entry
  allowed : ∀ v ∈ tries, ∀ call, v.call messages maxTokens = some call →
    v.entry.breaker.allows (env.allowsAt v.hop) ∧ call.reply = v.entry.adapter.generate (env.callToken v.hop) call.request
  failure : walk.result = .error unavailable ↔ ∀ v ∈ tries, v.outcome = .skipped ∨ ∃ e, v.outcome = .raised e

theorem reachedCons (v : Visit R) (l : List (Visit R)) :
    reached (v :: l) = v :: if v.answer.isSome then [] else reached l := by
  unfold reached
  cases answered : v.answer with
  | none => simp [answered]
  | some _ => simp [answered]

theorem reachedSublist (l : List (Visit R)) : (reached l).Sublist l := by
  induction l with
  | nil => exact List.Sublist.refl _
  | cons v rest ih =>
    rw [reachedCons]
    split
    · exact (List.nil_sublist rest).cons_cons v
    · exact ih.cons_cons v

section Attempts
variable {env : Env} {messages : List ChatMessage} {maxTokens : Int} {hop : Nat} {names : List String} {reg : BackendRegistry R}

theorem attemptsRegistered {entry : RegistryEntry R} (fresh : entry.spec.name ∉ names) :
    attempts env messages maxTokens hop names (reg.register entry) = attempts env messages maxTokens hop names reg := by
  induction names generalizing hop with
  | nil => rfl
  | cons name rest ih =>
    obtain ⟨different, fresh⟩ := not_or.mp (List.mem_cons.not.mp fresh)
    rw [attempts, attempts, ih fresh, BackendRegistry.registeredOther reg (Ne.symm different)]

theorem attemptOf {v : Visit R} (member : v ∈ attempts env messages maxTokens hop names reg) :
    ∃ entry later, v = attempt env messages maxTokens later entry ∧ entry.spec.name ∈ names ∧
      reg.get entry.spec.name = some entry := by
  induction names generalizing hop with
  | nil => simp [attempts] at member
  | cons name rest ih =>
    rw [attempts, List.mem_append] at member
    rcases member with here | later
    · obtain ⟨entry, found, rfl⟩ := Option.map_eq_some_iff.mp (Option.mem_toList.mp here)
      have own := reg.named name entry found
      subst own
      exact ⟨entry, hop, rfl, List.mem_cons_self, found⟩
    · obtain ⟨entry, hop, same, named, found⟩ := ih later
      exact ⟨entry, hop, same, List.mem_cons_of_mem _ named, found⟩

theorem attemptMember {name : String} {entry : RegistryEntry R} (named : name ∈ names) (found : reg.get name = some entry) :
    ∃ later, attempt env messages maxTokens later entry ∈ attempts env messages maxTokens hop names reg := by
  induction names generalizing hop with
  | nil => simp at named
  | cons first rest ih =>
    rw [attempts]
    rcases List.mem_cons.mp named with rfl | behind
    · exact ⟨hop, List.mem_append_left _ (by simp [found])⟩
    · obtain ⟨later, member⟩ := ih behind
      exact ⟨later, List.mem_append_right _ member⟩

theorem attemptsOrder : ((attempts env messages maxTokens hop names reg).map (·.entry.spec.name)).Sublist names := by
  induction names generalizing hop with
  | nil => exact List.Sublist.refl _
  | cons name rest ih =>
    rw [attempts]
    cases found : reg.get name with
    | none => exact ih.cons name
    | some entry =>
      have own : entry.spec.name = name := reg.named name entry found
      simpa [attempt, own] using ih

section Steps
variable {tries : List (Visit R)} {walk : Invocation R} {v : Visit R} (fresh : ∀ u ∈ tries, u.entry.spec.name ≠ v.entry.spec.name)
include fresh

theorem reachedFresh : (reached tries).find? (fun u => u.entry.spec.name = v.entry.spec.name) = none := by
  rw [List.find?_eq_none]
  intro u member
  simpa using fresh u ((reachedSublist tries).subset member)

theorem onwardSkipped (skipped : v.outcome = .skipped) (registered : reg.get v.entry.spec.name = some v.entry)
    (later : Onward env messages maxTokens reg tries walk) : Onward env messages maxTokens reg (v :: tries) walk := by
  have answer : v.answer = none := by rw [Visit.answer, skipped]
  refine ⟨?_, ?_, fun name => ?_⟩
  · rw [reachedCons, later.calls, answer, List.filterMap_cons, Visit.call, skipped]
    rfl
  · rw [later.result, List.findSome?_cons, answer]
  · rw [reachedCons, later.backends, answer, List.find?_cons]
    by_cases same : v.entry.spec.name = name
    · subst same
      rw [reachedFresh fresh]
      simp [Visit.reported, skipped, registered]
    · simp [same]

theorem onwardRaised {e : String} (raised : v.outcome = .raised e)
    (later : Onward env messages maxTokens (reg.register (v.reported env)) tries walk) :
    Onward env messages maxTokens reg (v :: tries)
      { walk with calls := ⟨v.request messages maxTokens, .error e⟩ :: walk.calls } := by
  have answer : v.answer = none := by rw [Visit.answer, raised]
  have own : (v.reported env).spec.name = v.entry.spec.name := by rw [Visit.reported, raised]
  refine ⟨?_, ?_, fun name => ?_⟩
  · rw [reachedCons, later.calls, answer, List.filterMap_cons, Visit.call, raised]
    rfl
  · rw [List.findSome?_cons, answer]
    exact later.result
  · rw [reachedCons, answer, List.find?_cons]
    refine (later.backends name).trans ?_
    by_cases same : v.entry.spec.name = name
    · subst same
      have registered := reg.registeredSelf (v.reported env)
      rw [own] at registered
      rw [reachedFresh fresh, Option.elim_none, registered]
      simp
    · rw [reg.registeredOther (by rw [own]; exact Ne.symm same)]
      simp [same]

omit fresh in
theorem onwardReplied {resp : ChatResponse} (replied : v.outcome = .replied resp) :
    Onward env messages maxTokens reg (v :: tries) ⟨reg.register (v.reported env),
      .ok (resp, v.entry.spec.name, v.entry.spec.modelId), [⟨v.request messages maxTokens, .ok resp⟩]⟩ := by
  have answer : v.answer = some (resp, v.entry.spec.name, v.entry.spec.modelId) := by rw [Visit.answer, replied]
  have own : (v.reported env).spec.name = v.entry.spec.name := by rw [Visit.reported, replied]
  refine ⟨?_, ?_, fun name => ?_⟩
  · rw [reachedCons, answer, List.filterMap_cons, Visit.call, replied]
    rfl
  · rw [List.findSome?_cons, answer]
    rfl
  · rw [reachedCons, answer, List.find?_cons]
    by_cases same : v.entry.spec.name = name
    · subst same
      have registered := reg.registeredSelf (v.reported env)
      rw [own] at registered
      simpa using registered
    · rw [reg.registeredOther (by rw [own]; exact Ne.symm same)]
      simp [same]

end Steps

theorem walkOnward (distinct : names.Nodup) : Onward env messages maxTokens reg
    (attempts env messages maxTokens hop names reg) (invokeRouted env messages maxTokens hop names reg) := by
  induction names generalizing hop reg with
  | nil => exact ⟨rfl, rfl, fun _ => rfl⟩
  | cons first rest ih =>
    obtain ⟨absent, others⟩ := List.nodup_cons.mp distinct
    rw [invokeRouted, attempts]
    cases found : reg.get first with
    | none => exact ih others
    | some entry =>
      have own : entry.spec.name = first := reg.named first entry found
      subst own
      have fresh : ∀ u ∈ attempts env messages maxTokens (hop + 1) rest reg, u.entry.spec.name ≠ entry.spec.name := by
        intro u member same
        exact absent (attemptsOrder.subset (List.mem_map.mpr ⟨u, member, same⟩))
      rw [Option.map_some, Option.toList_some, List.singleton_append]
      dsimp only
      cases allowed : entry.breaker.allows (env.allowsAt hop) with
      | false => exact onwardSkipped fresh (by simp [attempt, allowed]) found (ih others)
      | true =>
        cases generated : entry.adapter.generate (env.callToken hop) ⟨entry.spec.modelId, messages, maxTokens⟩ with
        | ok resp =>
          have replied : (attempt env messages maxTokens hop entry).outcome = .replied resp := by simp [attempt, allowed, generated]
          have walked : Onward env messages maxTokens reg (attempt env messages maxTokens hop entry ::
              attempts env messages maxTokens (hop + 1) rest reg) _ := onwardReplied replied
          rw [Visit.reported, replied] at walked
          exact walked
        | error e =>
          have raised : (attempt env messages maxTokens hop entry).outcome = .raised e := by simp [attempt, allowed, generated]
          have reported : (attempt env messages maxTokens hop entry).reported env =
              { entry with breaker := entry.breaker.recordFailure (env.failedAt hop) } := by rw [Visit.reported, raised]; rfl
          have later : Onward env messages maxTokens (reg.register ((attempt env messages maxTokens hop entry).reported env))
              (attempts env messages maxTokens (hop + 1) rest (reg.register ((attempt env messages maxTokens hop entry).reported env)))
              _ := ih others
          rw [attemptsRegistered (by rwa [reported])] at later
          have walked := onwardRaised fresh raised later
          rw [reported] at walked
          exact walked

end Attempts

theorem callsNone {messages : List ChatMessage} {maxTokens : Int} {l : List (Visit R)} :
    (reached l).filterMap (Visit.call messages maxTokens) = [] ↔ ∀ v ∈ l, v.outcome = .skipped := by
  induction l with
  | nil => simp [reached]
  | cons v rest ih =>
    rw [reachedCons, List.filterMap_cons, List.forall_mem_cons]
    cases outcome : v.outcome with
    | skipped => simpa [Visit.call, Visit.answer, outcome] using ih
    | replied resp => simp [Visit.call, outcome]
    | raised e => simp [Visit.call, outcome]

theorem attemptSkipped {env : Env} {messages : List ChatMessage} {maxTokens : Int} {hop : Nat} {entry : RegistryEntry R} :
    (attempt env messages maxTokens hop entry).outcome = .skipped ↔ ¬ entry.breaker.allows (env.allowsAt hop) := by
  unfold attempt
  dsimp only
  split
  · rename_i allowed
    split <;> simp [allowed]
  · rename_i refused
    simp [refused]

theorem attemptOutcome {env : Env} {messages : List ChatMessage} {maxTokens : Int} {hop : Nat} {entry : RegistryEntry R}
    {call : AdapterCall} (made : (attempt env messages maxTokens hop entry).call messages maxTokens = some call) :
    entry.breaker.allows (env.allowsAt hop) ∧ call.reply = entry.adapter.generate (env.callToken hop) call.request := by
  cases allowed : entry.breaker.allows (env.allowsAt hop) with
  | false => simp [attempt, Visit.call, allowed] at made
  | true =>
    refine ⟨rfl, ?_⟩
    cases generated : entry.adapter.generate (env.callToken hop) ⟨entry.spec.modelId, messages, maxTokens⟩ with
    | ok resp =>
      simp only [attempt, Visit.call, allowed, generated, if_true, Option.some.injEq] at made
      subst made
      exact generated.symm
    | error e =>
      simp only [attempt, Visit.call, allowed, generated, if_true, Option.some.injEq] at made
      subst made
      exact generated.symm

theorem answerNone {v : Visit R} : v.answer = none ↔ v.outcome = .skipped ∨ ∃ e, v.outcome = .raised e := by
  unfold Visit.answer
  cases v.outcome <;> simp

theorem fallsBack (env : Env) (messages : List ChatMessage) (maxTokens : Int) (reg : BackendRegistry R) {chain : List String}
    (distinct : chain.Nodup) : FallsBack env messages maxTokens chain reg (attempts env messages maxTokens 0 chain reg)
      (invokeRouted env messages maxTokens 0 chain reg) := by
  have onward : Onward env messages maxTokens reg (attempts env messages maxTokens 0 chain reg)
    (invokeRouted env messages maxTokens 0 chain reg) := walkOnward distinct
  refine { onward with
    once := distinct.sublist attemptsOrder
    order := attemptsOrder
    registered := fun v member => ?_
    allowed := fun v member call made => ?_
    failure := ?_ }
  · obtain ⟨entry, hop, rfl, _, found⟩ := attemptOf member
    exact found
  · obtain ⟨entry, hop, rfl, _, _⟩ := attemptOf member
    exact attemptOutcome made
  · rw [onward.result]
    cases answered : (attempts env messages maxTokens 0 chain reg).findSome? Visit.answer with
    | none => simpa [← answerNone] using List.findSome?_eq_none_iff.mp answered
    | some answer =>
      obtain ⟨v, member, replied⟩ := List.exists_of_findSome?_eq_some answered
      refine ⟨fun failed => by contradiction, fun none => ?_⟩
      rw [answerNone.mpr (none v member)] at replied
      contradiction

end Pipeline

namespace ModelRouter
variable [PyFloat R] [Builtins] {r : ModelRouter} {now : Time} {ctx : SecurityContext} {query : String} {tokens : Int}
  {f : RouteFilters R} {reg : BackendRegistry R} {decision : RouteDecision R}

theorem routeChain (ok : r.route now ctx query tokens reg f = .ok decision) :
    (decision.backend :: decision.fallbackChain).Perm ((r.pool now ctx f reg).map (·.spec.name)) := by
  obtain ⟨chosen, rest, ranked, backend, chain⟩ := routeRanked ok
  have sorted : (chosen :: rest).Perm (r.pool now ctx f reg) := by
    rw [← ranked]
    exact List.perm_insertionSort _ _
  rw [backend, chain]
  exact sorted.map (·.spec.name)

theorem routeChainEntry (ok : r.route now ctx query tokens reg f = .ok decision) {entry : RegistryEntry R} :
    (∃ name ∈ decision.backend :: decision.fallbackChain, reg.get name = some entry) ↔ entry ∈ r.pool now ctx f reg := by
  constructor
  · intro given
    obtain ⟨name, chained, found⟩ := given
    obtain ⟨other, pooled, rfl⟩ := List.mem_map.mp ((routeChain ok).mem_iff.mp chained)
    have same := (BackendRegistry.getMember (poolSublist.subset pooled)).symm.trans found
    rwa [← Option.some.inj same]
  · intro pooled
    refine ⟨entry.spec.name, (routeChain ok).mem_iff.mpr (List.mem_map.mpr ⟨entry, pooled, rfl⟩), ?_⟩
    exact BackendRegistry.getMember (poolSublist.subset pooled)

omit [Builtins] in
theorem poolAllows : (∃ e ∈ r.pool now ctx f reg, e.breaker.allows now) ↔ ∃ e ∈ r.eligible ctx f reg, e.breaker.allows now := by
  unfold pool
  dsimp only
  split
  · exact Iff.rfl
  · simp only [List.mem_filter]
    exact ⟨fun ⟨e, member, allowed⟩ => ⟨e, member.1, allowed⟩, fun ⟨e, member, allowed⟩ => ⟨e, ⟨member, allowed⟩, allowed⟩⟩

/-- A decision's chain is walked in its order, whatever became of the registry since. -/
theorem fallbackWalk (ok : r.route now ctx query tokens reg f = .ok decision) (env : Env) (messages : List ChatMessage)
    (maxTokens : Int) (backends : BackendRegistry R) :
    let chain := decision.backend :: decision.fallbackChain
    Pipeline.FallsBack env messages maxTokens chain backends (Pipeline.attempts env messages maxTokens 0 chain backends)
      (Pipeline.invokeRouted env messages maxTokens 0 chain backends) :=
  Pipeline.fallsBack env messages maxTokens backends ((routeChain ok).nodup_iff.mpr poolDistinct)

def failover : BackendRegistry ℚ :=
  .registered [{ opusBackend with adapter := ⟨"failing", fun _ _ => .error "backend down"⟩ },
    { opusBackend with spec := { opusBackend.spec with name := "quality", costPer1k := 0.03 } }]

omit [PyFloat R] [Builtins] in
theorem fallbackWalkSample : letI := asciiBuiltins [] []
    ∃ decision, route ⟨⟨none⟩⟩ 0 (member "acme" "sales") "hi" 40 failover .none = .ok decision ∧
      decision.backend :: decision.fallbackChain = ["large", "quality"] ∧
      Pipeline.FallsBack (envAt 0 "1") [] 512 (decision.backend :: decision.fallbackChain) failover
        (Pipeline.attempts (envAt 0 "1") [] 512 0 (decision.backend :: decision.fallbackChain) failover)
        (Pipeline.invokeRouted (envAt 0 "1") [] 512 0 (decision.backend :: decision.fallbackChain) failover) := by
  let _ := asciiBuiltins [] []
  obtain ⟨decision, ok, chain⟩ := routedAs (show (route ⟨⟨none⟩⟩ 0 (member "acme" "sales") "hi" 40 failover
    .none).toOption.map (fun d => d.backend :: d.fallbackChain) = some ["large", "quality"] by decide +kernel)
  exact ⟨decision, ok, chain, fallbackWalk ok _ _ _ _⟩

/-- Asked again at the instant of the decision, the breakers let something be called just
where one of a backend that passed the hard filters does. -/
theorem attemptedIff (ok : r.route now ctx query tokens reg f = .ok decision) {env : Env} (instant : ∀ hop, env.allowsAt hop = now)
    (messages : List ChatMessage) (maxTokens : Int) :
    (Pipeline.invokeRouted env messages maxTokens 0 (decision.backend :: decision.fallbackChain) reg).calls ≠ [] ↔
      ∃ e ∈ r.eligible ctx f reg, e.breaker.allows now := by
  have falls := Pipeline.fallsBack env messages maxTokens reg ((routeChain ok).nodup_iff.mpr poolDistinct)
  rw [falls.calls, ne_eq, Pipeline.callsNone, ← poolAllows]
  constructor
  · intro some
    push Not at some
    obtain ⟨v, member, called⟩ := some
    obtain ⟨entry, hop, rfl, named, found⟩ := Pipeline.attemptOf member
    rw [ne_eq, Pipeline.attemptSkipped, not_not, instant] at called
    exact ⟨entry, (routeChainEntry ok).mp ⟨_, named, found⟩, called⟩
  · intro given none
    obtain ⟨entry, pooled, allowed⟩ := given
    obtain ⟨name, chained, found⟩ := (routeChainEntry ok).mpr pooled
    obtain ⟨hop, member⟩ := Pipeline.attemptMember chained found
    have refused := Pipeline.attemptSkipped.mp (none _ member)
    rw [instant] at refused
    exact refused allowed

omit [PyFloat R] [Builtins] in
theorem attemptedIffSample : letI := asciiBuiltins [] []
    ∃ decision, route ⟨⟨none⟩⟩ 0 (member "acme" "sales") "hi" 40 failover .none = .ok decision ∧
      ((Pipeline.invokeRouted (envAt 0 "1") [] 512 0 (decision.backend :: decision.fallbackChain) failover).calls ≠ [] ↔
        ∃ e ∈ eligible ⟨⟨none⟩⟩ (member "acme" "sales") .none failover, e.breaker.allows 0) := by
  let _ := asciiBuiltins [] []
  obtain ⟨decision, ok, _⟩ := routedAs (show (route ⟨⟨none⟩⟩ 0 (member "acme" "sales") "hi" 40 failover
    .none).toOption.map (·.backend) = some "large" by decide +kernel)
  exact ⟨decision, ok, attemptedIff ok (fun _ => rfl) _ _⟩

-- every breaker is open: the safe default is returned, and nothing is called
def tripped : BackendRegistry ℚ := .registered [{ opusBackend with breaker := ⟨3, 30000000, 3, some 0⟩ }]

omit [PyFloat R] [Builtins] in
theorem safeDefaultUncalled : letI := asciiBuiltins [] []
    ∃ decision, route ⟨⟨none⟩⟩ 5 (member "acme" "sales") "hi" 40 tripped .none = .ok decision ∧ decision.fromSafeDefault ∧
      let walk := Pipeline.invokeRouted (envAt 5 "1") [] 512 0 (decision.backend :: decision.fallbackChain) tripped
      walk.calls = [] ∧ walk.result = .error Pipeline.unavailable := by
  let _ := asciiBuiltins [] []
  obtain ⟨decision, ok, seen⟩ := routedAs (show (route ⟨⟨none⟩⟩ 5 (member "acme" "sales") "hi" 40 tripped
    .none).toOption.map (fun d => (d.backend :: d.fallbackChain, d.fromSafeDefault)) = some (["large"], true) by decide +kernel)
  obtain ⟨chain, safe⟩ := Prod.mk.inj seen
  refine ⟨decision, ok, safe, ?_⟩
  rw [chain]
  exact ⟨rfl, rfl⟩

end ModelRouter
end ContextOS
