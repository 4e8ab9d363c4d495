import ContextOS.Lib.Machine
import ContextOS.Walk
import Mathlib.Logic.Relation

/-! One circuit breaker under concurrent requests. Each request asks for admission and, when
admitted, reports once, in any order with the others; the clock moves in between. The
documented graph is followed exactly when no success arrives at an open breaker, and a
recovering backend gets one probe exactly when one request asks. -/
namespace ContextOS
open Lib (Machine)

structure Traffic where
  breaker : CircuitBreaker
  now : Time
  inFlight : List Nat

inductive BreakerStep where
  | wait (later : Time)
  | ask (request : Nat)
  | succeed (request : Nat)
  | fail (request : Nat)
  deriving DecidableEq, Repr

def BreakerStep.reports : BreakerStep → Bool
  | .succeed _ | .fail _ => true
  | .wait _ | .ask _ => false

def BreakerStep.asks : BreakerStep → Bool
  | .ask _ => true
  | _ => false

namespace Traffic
variable {R : Type}

def start (threshold cooldown : Int) (now : Time) : Traffic := ⟨.new threshold cooldown, now, []⟩

def observed (s : Traffic) : BreakerState := s.breaker.state s.now

def serve (s : Traffic) : BreakerStep → Traffic × Bool
  | .wait later => ({ s with now := later }, false)
  | .ask request =>
    if s.breaker.allows s.now then ({ s with inFlight := request :: s.inFlight }, true) else (s, false)
  | .succeed request =>
    ({ s with breaker := s.breaker.recordSuccess, inFlight := s.inFlight.erase request }, false)
  | .fail request =>
    ({ s with breaker := s.breaker.recordFailure s.now, inFlight := s.inFlight.erase request }, false)

def machine : Machine Traffic BreakerStep Bool := ⟨serve⟩

def Enabled (s : Traffic) : BreakerStep → Prop
  | .wait later => s.now ≤ later
  | .ask request => request ∉ s.inFlight
  | .succeed request => request ∈ s.inFlight
  | .fail request => request ∈ s.inFlight

instance (s : Traffic) (step : BreakerStep) : Decidable (s.Enabled step) :=
  match step with
  | .wait _ => inferInstanceAs (Decidable (_ ≤ _))
  | .ask _ => inferInstanceAs (Decidable (_ ∉ _))
  | .succeed _ => inferInstanceAs (Decidable (_ ∈ _))
  | .fail _ => inferInstanceAs (Decidable (_ ∈ _))

/-! ### The documented graph -/

inductive Move (s t : Traffic) : BreakerStep → BreakerState → BreakerState → Prop where
  | trip {request : Nat} (reached : s.breaker.threshold ≤ s.breaker.failures + 1) :
      Move s t (.fail request) .closed .open_
  | recover {step : BreakerStep} {tripped : Time} (since : t.breaker.openedAt = some tripped)
      (elapsed : t.breaker.cooldown ≤ t.now - tripped) : Move s t step .open_ .halfOpen
  | close {request : Nat} : Move s t (.succeed request) .halfOpen .closed
  | reopen {request : Nat} : Move s t (.fail request) .halfOpen .open_

def Documented (s : Traffic) (step : BreakerStep) : Prop :=
  Relation.ReflTransGen (Move s (s.serve step).1 step) s.observed (s.serve step).1.observed

def LateSuccess (s : Traffic) (step : BreakerStep) : Prop :=
  (∃ request, step = .succeed request) ∧ s.observed = .open_

theorem observedClosed {s : Traffic} (idle : s.breaker.openedAt = none) : s.observed = .closed := by
  simp only [observed, CircuitBreaker.state, idle]

theorem observedOpened {s : Traffic} {tripped : Time} (opened : s.breaker.openedAt = some tripped) :
    s.observed = if s.breaker.cooldown ≤ s.now - tripped then .halfOpen else .open_ := by
  simp only [observed, CircuitBreaker.state, opened]

theorem recovers {s t : Traffic} {step : BreakerStep} {tripped : Time} (opened : t.breaker.openedAt = some tripped) :
    Relation.ReflTransGen (Move s t step) .open_ t.observed := by
  rw [observedOpened opened]
  split
  · rename_i elapsed
    exact .single (.recover opened elapsed)
  · exact .refl

theorem waitDocumented {s : Traffic} {later : Time} (enabled : s.now ≤ later) : s.Documented (.wait later) := by
  unfold Documented
  cases opened : s.breaker.openedAt with
  | none =>
    rw [observedClosed opened, observedClosed (s := (s.serve (.wait later)).1) opened]
  | some tripped =>
    have after : (s.serve (.wait later)).1.breaker.openedAt = some tripped := opened
    by_cases elapsed : s.breaker.cooldown ≤ s.now - tripped
    · have still : (s.serve (.wait later)).1.breaker.cooldown ≤ (s.serve (.wait later)).1.now - tripped :=
        le_trans elapsed (Int.sub_le_sub_right enabled tripped)
      rw [observedOpened opened, observedOpened after, if_pos elapsed, if_pos still]
    · rw [observedOpened opened, if_neg elapsed]
      exact recovers after

theorem failDocumented (s : Traffic) (request : Nat) : s.Documented (.fail request) := by
  unfold Documented
  by_cases reached : s.breaker.threshold ≤ s.breaker.failures + 1
  · have after : (s.serve (.fail request)).1.breaker.openedAt = some s.now := by
      simp only [serve, CircuitBreaker.recordFailure, reached, if_true]
    refine Relation.ReflTransGen.trans ?_ (recovers after)
    cases observed s with
    | closed => exact .single (.trip reached)
    | open_ => exact .refl
    | halfOpen => exact .single .reopen
  · have same : (s.serve (.fail request)).1.observed = s.observed := by
      simp only [observed, serve, CircuitBreaker.recordFailure, reached, if_false, CircuitBreaker.state]
    rw [same]

theorem documentedIff {s : Traffic} {step : BreakerStep} (enabled : s.Enabled step) :
    s.Documented step ↔ ¬ s.LateSuccess step := by
  cases step with
  | wait later => simpa [LateSuccess] using waitDocumented enabled
  | ask request =>
    have same : (s.serve (.ask request)).1.observed = s.observed := by
      simp only [serve]
      split <;> rfl
    simp only [LateSuccess, Documented, same, reduceCtorEq, exists_false, false_and, not_false_eq_true, iff_true]
    exact .refl
  | fail request => simpa [LateSuccess] using failDocumented s request
  | succeed request =>
    have idle : (s.serve (.succeed request)).1.breaker.openedAt = none := rfl
    simp only [Documented, LateSuccess, observedClosed idle, BreakerStep.succeed.injEq, exists_eq', true_and]
    constructor
    · intro path late
      rw [late] at path
      -- the success has cleared the trip, so nothing leads out of the open state
      rcases Relation.ReflTransGen.cases_head path with same | ⟨next, first, _⟩
      · contradiction
      · cases first with
        | recover since _ => simp [idle] at since
    · intro timely
      cases state : observed s with
      | closed => exact .refl
      | open_ => exact absurd state timely
      | halfOpen => exact .single .close

/-! ### Runs -/

def Interleaving (s : Traffic) (steps : List BreakerStep) : Prop := machine.Along Enabled s steps

instance (s : Traffic) (steps : List BreakerStep) : Decidable (Interleaving s steps) :=
  inferInstanceAs (Decidable (machine.Along Enabled s steps))

def InTime (s : Traffic) (step : BreakerStep) : Prop := ¬ s.LateSuccess step

structure FollowsGraph (s : Traffic) (steps : List BreakerStep) : Prop where
  moves : machine.Along Documented s steps
  cooled : ∀ front mid back tripped, steps = front ++ mid ++ back →
    (machine.exec s front).observed = .open_ → (machine.exec s front).breaker.openedAt = some tripped →
    (machine.exec s (front ++ mid)).observed = .closed →
    tripped + s.breaker.cooldown ≤ (machine.exec s (front ++ mid)).now

structure Cooling (cooldown : Int) (tripped : Time) (s : Traffic) : Prop where
  unchanged : s.breaker.cooldown = cooldown
  past : tripped ≤ s.now
  cooling : (∃ later, s.breaker.openedAt = some later ∧ tripped ≤ later) ∨ tripped + cooldown ≤ s.now

theorem coolingStep {cooldown : Int} {tripped : Time} {s : Traffic} {step : BreakerStep}
    (valid : Cooling cooldown tripped s) (enabled : s.Enabled step) (inTime : s.InTime step) :
    Cooling cooldown tripped (s.serve step).1 := by
  obtain ⟨same, past, cooling⟩ := valid
  cases step with
  | wait later =>
    have advanced : s.now ≤ later := enabled
    exact ⟨same, le_trans past advanced, cooling.imp_right fun cooled => le_trans cooled advanced⟩
  | ask request =>
    simp only [serve]
    split <;> exact ⟨same, past, cooling⟩
  | fail request =>
    refine ⟨same, past, ?_⟩
    by_cases reached : s.breaker.threshold ≤ s.breaker.failures + 1
    · exact .inl ⟨s.now, by simp only [serve, CircuitBreaker.recordFailure, reached, if_true], past⟩
    · simpa only [serve, CircuitBreaker.recordFailure, reached, if_false] using cooling
  | succeed request =>
    refine ⟨same, past, .inr ?_⟩
    rcases cooling with ⟨later, opened, stamped⟩ | cooled
    · have elapsed : s.breaker.cooldown ≤ s.now - later := by
        by_contra waiting
        exact inTime ⟨⟨request, rfl⟩, by rw [observedOpened opened, if_neg waiting]⟩
      rw [same] at elapsed
      exact le_trans (Int.add_le_add_right stamped cooldown) (by linarith : later + cooldown ≤ s.now)
    · exact cooled

theorem closedIdle {s : Traffic} (closed : s.observed = .closed) : s.breaker.openedAt = none := by
  cases opened : s.breaker.openedAt with
  | none => rfl
  | some tripped =>
    rw [observedOpened opened] at closed
    split at closed <;> contradiction

structure Sane (cooldown : Int) (s : Traffic) : Prop where
  unchanged : s.breaker.cooldown = cooldown
  past : ∀ tripped, s.breaker.openedAt = some tripped → tripped ≤ s.now

theorem saneStep {cooldown : Int} {s : Traffic} {step : BreakerStep} (valid : Sane cooldown s)
    (enabled : s.Enabled step) : Sane cooldown (s.serve step).1 := by
  obtain ⟨same, past⟩ := valid
  cases step with
  | wait later => exact ⟨same, fun tripped opened => le_trans (past tripped opened) enabled⟩
  | ask request =>
    simp only [serve]
    split <;> exact ⟨same, past⟩
  | succeed request => exact ⟨same, by simp [serve, CircuitBreaker.recordSuccess]⟩
  | fail request =>
    refine ⟨same, ?_⟩
    by_cases reached : s.breaker.threshold ≤ s.breaker.failures + 1
    · simp [serve, CircuitBreaker.recordFailure, reached]
    · simpa only [serve, CircuitBreaker.recordFailure, reached, if_false] using past

theorem followsGraphIff (threshold cooldown : Int) (now : Time) {steps : List BreakerStep}
    (interleaving : Interleaving (start threshold cooldown now) steps) :
    FollowsGraph (start threshold cooldown now) steps ↔ machine.Along InTime (start threshold cooldown now) steps := by
  have stepIff : machine.Along Documented (start threshold cooldown now) steps ↔
      machine.Along InTime (start threshold cooldown now) steps := by
    constructor
    · intro moves front step back split
      exact (documentedIff (interleaving front step back split)).mp (moves front step back split)
    · intro inTime front step back split
      exact (documentedIff (interleaving front step back split)).mpr (inTime front step back split)
  refine ⟨fun follows => stepIff.mp follows.moves, fun inTime => ⟨stepIff.mpr inTime, ?_⟩⟩
  intro front mid back tripped split _ opened closed
  subst split
  have both : machine.Along (fun s step => s.Enabled step ∧ s.InTime step) (start threshold cooldown now)
      (front ++ mid ++ back) := fun front step back split => ⟨interleaving front step back split, inTime front step back split⟩
  obtain ⟨before, between⟩ := machine.alongAppend.mp (machine.alongAppend.mp both).1
  have sane := machine.alongInvariant (J := Sane cooldown) (fun s step valid given => saneStep valid given.1)
    ⟨rfl, by simp [start, CircuitBreaker.new]⟩ before
  have cooled := machine.alongInvariant (J := Cooling cooldown tripped)
    (fun s step valid given => coolingStep valid given.1 given.2)
    ⟨sane.unchanged, sane.past tripped opened, .inl ⟨tripped, opened, le_refl _⟩⟩ between
  rw [← Machine.execAppend] at cooled
  rcases cooled.cooling with ⟨later, still, _⟩ | done
  · simp [closedIdle closed] at still
  · exact done

def recovery : List BreakerStep := [.ask 1, .fail 1, .wait 10, .ask 2, .succeed 2]
def lateReply : List BreakerStep := [.ask 1, .ask 2, .fail 1, .succeed 2]

theorem followsGraphSample :
    FollowsGraph (start 1 10 0) recovery ↔ machine.Along InTime (start 1 10 0) recovery :=
  followsGraphIff 1 10 0 (by decide)

theorem openClosedEarly : Interleaving (start 1 10 0) lateReply ∧ ¬ FollowsGraph (start 1 10 0) lateReply := by
  refine ⟨by decide, fun follows => ?_⟩
  have last := follows.moves [.ask 1, .ask 2, .fail 1] (.succeed 2) [] rfl
  exact (documentedIff (by decide)).mp last ⟨⟨2, rfl⟩, by decide⟩

def SingleProbe (s : Traffic) (steps : List BreakerStep) : Prop :=
  ∀ front window back, steps = front ++ window ++ back → (machine.exec s front).observed = .halfOpen →
    (∀ step ∈ window, step.reports = false) → (machine.replies (machine.exec s front) window).countP (·.2) ≤ 1

def SingleCaller (s : Traffic) (steps : List BreakerStep) : Prop :=
  ∀ front window back, steps = front ++ window ++ back → (machine.exec s front).observed = .halfOpen →
    (∀ step ∈ window, step.reports = false) → window.countP BreakerStep.asks ≤ 1

theorem halfOpenStep {s : Traffic} {step : BreakerStep} (half : s.observed = .halfOpen) (enabled : s.Enabled step)
    (quiet : step.reports = false) : (s.serve step).1.observed = .halfOpen ∧ (s.serve step).2 = step.asks := by
  cases step with
  | wait later =>
    refine ⟨?_, rfl⟩
    cases opened : s.breaker.openedAt with
    | none => rw [observedClosed opened] at half; contradiction
    | some tripped =>
      rw [observedOpened opened] at half
      split at half <;> try contradiction
      rename_i elapsed
      have after : (s.serve (.wait later)).1.breaker.openedAt = some tripped := opened
      rw [observedOpened after]
      exact if_pos (le_trans elapsed (Int.sub_le_sub_right enabled tripped))
  | ask request =>
    have admitted : s.breaker.allows s.now = true := by
      simp only [CircuitBreaker.allows, observed] at half ⊢
      rw [half]
      rfl
    simp only [serve, admitted, if_true]
    exact ⟨half, rfl⟩
  | succeed request => contradiction
  | fail request => contradiction

theorem everyCallerProbes {s : Traffic} {window : List BreakerStep} (half : s.observed = .halfOpen)
    (interleaving : Interleaving s window) (quiet : ∀ step ∈ window, step.reports = false) :
    (machine.replies s window).countP (·.2) = window.countP BreakerStep.asks := by
  induction window generalizing s with
  | nil => rfl
  | cons step rest ih =>
    obtain ⟨enabled, later⟩ := machine.alongCons.mp interleaving
    obtain ⟨here, quiet⟩ := List.forall_mem_cons.mp quiet
    obtain ⟨still, admitted⟩ := halfOpenStep half enabled here
    have rest := ih still later quiet
    simp only [Machine.replies, List.countP_cons]
    rw [← admitted]
    exact congrArg (· + _) rest

theorem singleProbeIff {s : Traffic} {steps : List BreakerStep} (interleaving : Interleaving s steps) :
    SingleProbe s steps ↔ SingleCaller s steps := by
  have same : ∀ front window back, steps = front ++ window ++ back → (machine.exec s front).observed = .halfOpen →
      (∀ step ∈ window, step.reports = false) →
      (machine.replies (machine.exec s front) window).countP (·.2) = window.countP BreakerStep.asks := by
    intro front window back split half quiet
    subst split
    exact everyCallerProbes half (machine.alongAppend.mp (machine.alongAppend.mp interleaving).1).2 quiet
  constructor
  · intro single front window back split half quiet
    rw [← same front window back split half quiet]
    exact single front window back split half quiet
  · intro single front window back split half quiet
    rw [same front window back split half quiet]
    exact single front window back split half quiet

def herd : List BreakerStep := [.ask 1, .fail 1, .wait 10, .ask 2, .ask 3]

theorem singleProbeSample : SingleProbe (start 1 10 0) recovery ↔ SingleCaller (start 1 10 0) recovery :=
  singleProbeIff (by decide)

theorem twoProbesAdmitted : Interleaving (start 1 10 0) herd ∧ ¬ SingleProbe (start 1 10 0) herd := by
  refine ⟨by decide, fun single => ?_⟩
  have window := single [.ask 1, .fail 1, .wait 10] [.ask 2, .ask 3] [] rfl (by decide) (by decide)
  exact absurd window (by decide)

/-! ### The walk as traffic -/

def ofVisit (env : Env) (v : Visit R) : List BreakerStep :=
  .wait (env.allowsAt v.hop) :: .ask v.hop ::
    match v.outcome with
    | .skipped => []
    | .replied _ => [.succeed v.hop]
    | .raised _ => [.wait (env.failedAt v.hop), .fail v.hop]

def ofVisits (env : Env) (name : String) (visits : List (Visit R)) : List BreakerStep :=
  (visits.filter (fun v => v.entry.spec.name = name)).flatMap (ofVisit env)

structure ClockForward (env : Env) : Prop where
  within : ∀ hop, env.allowsAt hop ≤ env.failedAt hop
  between : ∀ hop, env.failedAt hop ≤ env.allowsAt (hop + 1)

structure Carries (s : Traffic) (steps : List BreakerStep) (name : String) (reg : BackendRegistry R) : Prop where
  interleaving : Interleaving s steps
  breaker : ∃ after, reg.get name = some after ∧ after.breaker = (machine.exec s steps).breaker

theorem Carries.after {s : Traffic} {front back : List BreakerStep} {name : String} {reg : BackendRegistry R}
    (interleaving : Interleaving s front) (rest : Carries (machine.exec s front) back name reg) :
    Carries s (front ++ back) name reg := by
  refine ⟨machine.alongAppend.mpr ⟨interleaving, rest.interleaving⟩, ?_⟩
  rw [Machine.execAppend]
  exact rest.breaker

section OneVisit
variable {b : CircuitBreaker} {now asked : Time} (request : Nat) (later : now ≤ asked)
include later

theorem skippedAlone (refused : b.allows asked = false) :
    Interleaving ⟨b, now, []⟩ [.wait asked, .ask request] ∧
      machine.exec ⟨b, now, []⟩ [.wait asked, .ask request] = ⟨b, asked, []⟩ := by
  refine ⟨machine.alongCons.mpr ⟨later, machine.alongCons.mpr ⟨List.not_mem_nil, machine.alongNil _⟩⟩, ?_⟩
  simp [machine, Machine.exec, serve, refused]

theorem admittedAlone (allowed : b.allows asked = true) :
    Interleaving ⟨b, now, []⟩ [.wait asked, .ask request] ∧
      machine.exec ⟨b, now, []⟩ [.wait asked, .ask request] = ⟨b, asked, [request]⟩ := by
  refine ⟨machine.alongCons.mpr ⟨later, machine.alongCons.mpr ⟨List.not_mem_nil, machine.alongNil _⟩⟩, ?_⟩
  simp [machine, Machine.exec, serve, allowed]

theorem repliedAlone (allowed : b.allows asked = true) :
    Interleaving ⟨b, now, []⟩ [.wait asked, .ask request, .succeed request] ∧
      machine.exec ⟨b, now, []⟩ [.wait asked, .ask request, .succeed request] = ⟨b.recordSuccess, asked, []⟩ := by
  obtain ⟨interleaving, admitted⟩ := admittedAlone request later allowed
  have split : [.wait asked, .ask request, .succeed request] =
      [.wait asked, .ask request] ++ [BreakerStep.succeed request] := rfl
  rw [split]
  refine ⟨machine.alongAppend.mpr ⟨interleaving, ?_⟩, ?_⟩
  · rw [admitted]
    exact machine.alongCons.mpr ⟨List.mem_cons_self, machine.alongNil _⟩
  · rw [Machine.execAppend, admitted]
    simp [machine, Machine.exec, serve]

theorem raisedAlone (allowed : b.allows asked = true) {failed : Time} (within : asked ≤ failed) :
    Interleaving ⟨b, now, []⟩ [.wait asked, .ask request, .wait failed, .fail request] ∧
      machine.exec ⟨b, now, []⟩ [.wait asked, .ask request, .wait failed, .fail request] =
        ⟨b.recordFailure failed, failed, []⟩ := by
  obtain ⟨interleaving, admitted⟩ := admittedAlone request later allowed
  have split : [.wait asked, .ask request, .wait failed, .fail request] =
      [.wait asked, .ask request] ++ [BreakerStep.wait failed, .fail request] := rfl
  rw [split]
  refine ⟨machine.alongAppend.mpr ⟨interleaving, ?_⟩, ?_⟩
  · rw [admitted]
    exact machine.alongCons.mpr ⟨within, machine.alongCons.mpr ⟨List.mem_cons_self, machine.alongNil _⟩⟩
  · rw [Machine.execAppend, admitted]
    simp [machine, Machine.exec, serve]

end OneVisit

theorem walkTraffic {env : Env} (forward : ClockForward env) (messages : List ChatMessage) (maxTokens : Int)
    (name : String) (names : List String) {hop : Nat} {reg : BackendRegistry R} {entry : RegistryEntry R}
    (found : reg.get name = some entry) {now : Time} (later : now ≤ env.allowsAt hop) :
    Carries ⟨entry.breaker, now, []⟩ (ofVisits env name (Pipeline.visits env messages maxTokens hop names reg)) name
      (Pipeline.invokeRouted env messages maxTokens hop names reg).backends := by
  induction names generalizing hop reg entry now with
  | nil => exact ⟨machine.alongNil _, entry, found, rfl⟩
  | cons first rest ih =>
    have onward : env.allowsAt hop ≤ env.allowsAt (hop + 1) := le_trans (forward.within hop) (forward.between hop)
    simp only [Pipeline.visits, Pipeline.invokeRouted]
    cases visited : reg.get first with
    | none => exact ih found (le_trans later onward)
    | some e =>
      have own := reg.named first e visited
      dsimp only
      by_cases here : first = name
      · subst here
        cases Option.some.inj (found.symm.trans visited)
        cases allowed : entry.breaker.allows (env.allowsAt hop) with
        | false =>
          obtain ⟨interleaving, passed⟩ := skippedAlone hop later allowed
          simp only [Bool.not_false, if_true, ofVisits, List.filter_cons, own, decide_true, List.flatMap_cons, ofVisit]
          refine Carries.after interleaving ?_
          rw [passed]
          exact ih found onward
        | true =>
          simp only [Bool.not_true, Bool.false_eq_true, if_false]
          cases entry.adapter.generate (env.callToken hop) ⟨entry.spec.modelId, messages, maxTokens⟩ with
          | ok resp =>
            obtain ⟨interleaving, answered⟩ := repliedAlone hop later allowed
            have closed := reg.registeredSelf { entry with breaker := entry.breaker.recordSuccess }
            simp only [own] at closed
            simp only [ofVisits, List.filter_cons, own, decide_true, if_true, List.filter_nil, List.flatMap_cons,
              List.flatMap_nil, ofVisit, List.append_nil]
            exact ⟨interleaving, _, closed, by rw [answered]⟩
          | error raised =>
            obtain ⟨interleaving, failed⟩ := raisedAlone hop later allowed (forward.within hop)
            have tripped := reg.registeredSelf { entry with breaker := entry.breaker.recordFailure (env.failedAt hop) }
            simp only [own] at tripped
            simp only [ofVisits, List.filter_cons, own, decide_true, if_true, List.flatMap_cons, ofVisit]
            refine Carries.after interleaving ?_
            rw [failed]
            exact ih tripped (forward.between hop)
      · have elsewhere : e.spec.name ≠ name := fun same => here (own.symm.trans same)
        have unseen : ∀ outcome visits, ofVisits env name (⟨hop, e, outcome⟩ :: visits) = ofVisits env name visits := by
          intro outcome visits
          simp [ofVisits, elsewhere]
        split
        · rw [unseen]
          exact ih found (le_trans later onward)
        · cases e.adapter.generate (env.callToken hop) ⟨e.spec.modelId, messages, maxTokens⟩ with
          | ok resp =>
            have kept : (reg.register { e with breaker := e.breaker.recordSuccess }).get name = reg.get name :=
              reg.registeredOther elsewhere.symm
            rw [unseen]
            exact ⟨machine.alongNil _, entry, kept.trans found, rfl⟩
          | error raised =>
            have kept : (reg.register { e with breaker := e.breaker.recordFailure (env.failedAt hop) }).get name =
                reg.get name :=
              reg.registeredOther elsewhere.symm
            rw [unseen]
            exact ih (kept.trans found) (le_trans later onward)

end Traffic
end ContextOS
