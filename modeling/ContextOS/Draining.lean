import ContextOS.Workers
import Mathlib.Algebra.Order.BigOperators.Group.List
import Mathlib.Algebra.Order.Group.Nat
import Mathlib.Data.List.Perm.Basic

/-! Overlapping drains come to an end. Every attempt uses up one of the few that a job has,
and a drain leaves only when it finds the queue empty: however the attempts of the running
drains interleave, they are soon all over, and then every job has been processed or has
failed as often as it may. -/
namespace ContextOS
open Lib (Machine)

namespace Workers

def attemptsLeft (maxRetries attempt : Int) : Nat := (maxRetries + 1 - attempt).toNat

-- the attempts that the waiting and the awaited jobs may still take
def remaining (s : Workers) : Nat :=
  (s.runner.queue.map (fun e => attemptsLeft s.runner.maxRetries e.2)).sum +
    (s.running.map (fun d => attemptsLeft s.runner.maxRetries d.attempt)).sum

def Settles (s : Workers) (event : WorkerEvent) : Prop :=
  ∃ d ∈ s.running, ∃ outcome, outcome ≠ .cancelled ∧ event = .settle d.id outcome

theorem settlesCases {s : Workers} {event : WorkerEvent} :
    s.Settles event ↔ ∃ d ∈ s.running, event = .settle d.id .success ∨ event = .settle d.id .exception := by
  constructor
  · rintro ⟨d, member, outcome, ended, rfl⟩
    cases outcome with
    | success => exact ⟨d, member, .inl rfl⟩
    | exception => exact ⟨d, member, .inr rfl⟩
    | cancelled => contradiction
  · rintro ⟨d, member, rfl | rfl⟩
    · exact ⟨d, member, .success, by decide, rfl⟩
    · exact ⟨d, member, .exception, by decide, rfl⟩

instance (s : Workers) (event : WorkerEvent) : Decidable (s.Settles event) := decidable_of_iff _ settlesCases.symm

-- somebody is there to take what waits
def Staffed (s : Workers) : Prop := s.running ≠ [] ∨ s.runner.queue = []

theorem resumeRemaining (s : Workers) (id count : Nat) : (s.resume id count).1.remaining = s.remaining := by
  unfold resume
  cases waiting : s.runner.queue with
  | nil => rfl
  | cons first rest =>
    simp only [remaining, waiting, List.map_append, List.map_cons, List.map_nil, List.sum_append, List.sum_cons, List.sum_nil]
    omega

theorem resumeStaffed (s : Workers) (id count : Nat) : (s.resume id count).1.Staffed := by
  unfold resume
  cases waiting : s.runner.queue with
  | nil => exact .inr waiting
  | cons first rest => exact .inl (by simp)

theorem settleStaffed (s : Workers) (d : Drain) {outcome : JobOutcome} (ended : outcome ≠ .cancelled) :
    (s.settle d outcome).1.Staffed := by
  cases outcome with
  | success => exact resumeStaffed _ _ _
  | exception =>
    simp only [settle]
    split <;> exact resumeStaffed _ _ _
  | cancelled => contradiction

theorem settleRemaining (s : Workers) {d : Drain} (allowed : d.attempt ≤ s.runner.maxRetries) {outcome : JobOutcome}
    (ended : outcome ≠ .cancelled) :
    (s.settle d outcome).1.remaining + 1 ≤ s.remaining + attemptsLeft s.runner.maxRetries d.attempt := by
  have last : 1 ≤ attemptsLeft s.runner.maxRetries d.attempt := by
    unfold attemptsLeft
    omega
  cases outcome with
  | success =>
    simp only [settle, resumeRemaining]
    exact Nat.add_le_add_left last _
  | exception =>
    simp only [settle]
    split
    · have used : attemptsLeft s.runner.maxRetries (d.attempt + 1) + 1 = attemptsLeft s.runner.maxRetries d.attempt := by
        unfold attemptsLeft
        omega
      rw [resumeRemaining]
      simp only [remaining, BackgroundRunner.put, List.map_append, List.map_cons, List.map_nil, List.sum_append,
        List.sum_cons, List.sum_nil]
      omega
    · simp only [resumeRemaining]
      exact Nat.add_le_add_left last _
  | cancelled => contradiction

theorem settlesFound {s : Workers} {event : WorkerEvent} (settles : s.Settles event) :
    ∃ d ∈ s.running, ∃ outcome, outcome ≠ .cancelled ∧
      (s.serve event).1 = ({ s with running := s.running.erase d }.settle d outcome).1 := by
  obtain ⟨named, member, outcome, ended, rfl⟩ := settles
  simp only [serve]
  cases found : s.running.find? (fun d => d.id = named.id) with
  | none => exact absurd (decide_eq_true rfl) (List.find?_eq_none.mp found named member)
  | some d => exact ⟨d, List.mem_of_find?_eq_some found, outcome, ended, rfl⟩

theorem settlesStaffed {s : Workers} {event : WorkerEvent} (settles : s.Settles event) : (s.serve event).1.Staffed := by
  obtain ⟨d, _, outcome, ended, same⟩ := settlesFound settles
  rw [same]
  exact settleStaffed _ d ended

theorem settlesRemaining {s : Workers} {event : WorkerEvent} (allowed : ∀ d ∈ s.running, d.attempt ≤ s.runner.maxRetries)
    (settles : s.Settles event) : (s.serve event).1.remaining + 1 ≤ s.remaining := by
  obtain ⟨d, member, outcome, ended, same⟩ := settlesFound settles
  have step := settleRemaining { s with running := s.running.erase d } (allowed d member) ended
  have erased := ((List.perm_cons_erase member).map (fun d => attemptsLeft s.runner.maxRetries d.attempt)).sum_eq
  rw [List.map_cons, List.sum_cons] at erased
  rw [same]
  simp only [remaining] at step ⊢
  omega

theorem settlesUncancelled {s : Workers} {event : WorkerEvent} (settles : s.Settles event) : s.Uncancelled event := by
  obtain ⟨_, _, outcome, ended, rfl⟩ := settles
  intro d _ same
  exact ended (WorkerEvent.settle.inj same).2

/-- What a run of the events comes to, once no drain is running: every job is in one of the two counts, once. -/
structure Finished (maxRetries : Int) (past : List (WorkerEvent × WorkerReply)) (s : Workers) : Prop where
  emptied : s.runner.queue = []
  placed : ∀ job, (processedJobs (endings past)).count job + (failedJobs (endings past)).count job =
    if job < s.enqueued then 1 else 0
  processed : s.runner.processed = (processedJobs (endings past)).length
  failed : s.runner.failed = (failedJobs (endings past)).length
  complete : s.runner.processed + s.runner.failed = s.enqueued
  exhausted : ∀ job ∈ failedJobs (endings past), (exceptions (endings past) job : Int) = maxRetries + 1

theorem countedOnce {jobs : List Nat} {n : Nat} (counted : ∀ job, jobs.count job = if job < n then 1 else 0) :
    jobs.length = n := by
  have same : jobs.Perm (List.range n) := by
    refine List.perm_iff_count.mpr fun job => ?_
    rw [counted job, List.nodup_range.count]
    simp only [List.mem_range]
  rw [same.length_eq, List.length_range]

theorem conservedFinished {maxRetries : Int} {past : List (WorkerEvent × WorkerReply)} {s : Workers}
    (conserved : Conserved maxRetries past s) (idle : s.running = []) (staffed : s.Staffed) : Finished maxRetries past s := by
  have emptied : s.runner.queue = [] := staffed.resolve_left (fun busy => busy idle)
  have placed : ∀ job, (processedJobs (endings past)).count job + (failedJobs (endings past)).count job =
      if job < s.enqueued then 1 else 0 := by
    intro job
    have places := conserved.placed job
    simpa only [Workers.places, pendingJobs, jobsInFlight, emptied, idle, List.map_nil, List.count_nil, Nat.zero_add]
      using places
  have total := countedOnce (fun job => (List.count_append (a := job)).trans (placed job))
  rw [List.length_append, ← conserved.processed, ← conserved.failed] at total
  exact ⟨emptied, placed, conserved.processed, conserved.failed, total, conserved.exhausted⟩

section Runs
variable {maxRetries : Int} (positive : 0 ≤ maxRetries)
include positive

theorem allowedAlong (events : List WorkerEvent) : ∀ d ∈ (machine.exec (start maxRetries) events).running,
    d.attempt ≤ (machine.exec (start maxRetries) events).runner.maxRetries := by
  have valid := runAccounted positive events
  intro d member
  rw [valid.retries]
  exact (valid.awaited d member).2

omit positive in
theorem execNext (events : List WorkerEvent) (event : WorkerEvent) : machine.exec (start maxRetries) (events ++ [event]) =
    ((machine.exec (start maxRetries) events).serve event).1 := by
  rw [Machine.execAppend]
  rfl

theorem settlingRemaining (events : List WorkerEvent) {later : List WorkerEvent}
    (settling : machine.Along Settles (machine.exec (start maxRetries) events) later) :
    (machine.exec (start maxRetries) (events ++ later)).remaining + later.length ≤
      (machine.exec (start maxRetries) events).remaining := by
  induction later using List.reverseRecOn with
  | nil => simp
  | append_singleton front event ih =>
    obtain ⟨before, last⟩ := machine.alongAppend.mp settling
    have used := ih before
    rw [← Machine.execAppend] at last
    have step := settlesRemaining (allowedAlong positive (events ++ front)) (last [] event [] rfl)
    rw [← List.append_assoc, execNext, List.length_append, List.length_singleton]
    omega

omit positive in
theorem settlingStaffed {events later : List WorkerEvent} (staffed : (machine.exec (start maxRetries) events).Staffed)
    (settling : machine.Along Settles (machine.exec (start maxRetries) events) later) :
    (machine.exec (start maxRetries) (events ++ later)).Staffed := by
  rcases List.eq_nil_or_concat later with rfl | ⟨front, event, rfl⟩
  · rwa [List.append_nil]
  · rw [List.concat_eq_append] at settling ⊢
    obtain ⟨_, last⟩ := machine.alongAppend.mp settling
    rw [← Machine.execAppend] at last
    rw [← List.append_assoc, execNext]
    exact settlesStaffed (last [] event [] rfl)

theorem remainingBounded (events : List WorkerEvent) : (machine.exec (start maxRetries) events).remaining ≤
    ((machine.exec (start maxRetries) events).pendingJobs.length + (machine.exec (start maxRetries) events).jobsInFlight.length) *
      (maxRetries + 1).toNat := by
  have valid := runAccounted positive events
  have few : ∀ attempt : Int, 0 ≤ attempt → attemptsLeft (machine.exec (start maxRetries) events).runner.maxRetries attempt ≤
      (maxRetries + 1).toNat := by
    intro attempt nonneg
    rw [valid.retries, attemptsLeft]
    omega
  rw [remaining, Nat.add_mul, pendingJobs, jobsInFlight, List.length_map, List.length_map]
  refine Nat.add_le_add ?_ ?_
  · refine (List.sum_le_card_nsmul _ _ (List.forall_mem_map.mpr fun e member => few _ ?_)).trans_eq (by rw [List.length_map]; rfl)
    rw [(valid.queued e member).1]
    exact Int.natCast_nonneg _
  · refine (List.sum_le_card_nsmul _ _ (List.forall_mem_map.mpr fun d member => few _ ?_)).trans_eq (by rw [List.length_map]; rfl)
    rw [(valid.awaited d member).1]
    exact Int.natCast_nonneg _

theorem drainsEnd {events later : List WorkerEvent} (uncancelled : machine.Along Uncancelled (start maxRetries) events)
    (staffed : (machine.exec (start maxRetries) events).Staffed)
    (settling : machine.Along Settles (machine.exec (start maxRetries) events) later) :
    later.length ≤ ((machine.exec (start maxRetries) events).pendingJobs.length +
        (machine.exec (start maxRetries) events).jobsInFlight.length) * (maxRetries + 1).toNat ∧
    ((machine.exec (start maxRetries) (events ++ later)).running = [] →
      Finished maxRetries (machine.replies (start maxRetries) (events ++ later))
        (machine.exec (start maxRetries) (events ++ later))) := by
  have spent := settlingRemaining positive events settling
  have bounded := remainingBounded positive events
  refine ⟨by omega, fun idle => ?_⟩
  have all : machine.Along Uncancelled (start maxRetries) (events ++ later) :=
    machine.alongAppend.mpr ⟨uncancelled, machine.alongMono (fun _ _ => settlesUncancelled) settling⟩
  have conserved := ((accountedConserved (runAccounted positive (events ++ later))).trans (runCancelled (start maxRetries) _)).mpr all
  exact conservedFinished conserved idle (settlingStaffed staffed settling)

end Runs

def twoDrains : List WorkerEvent := [.enqueue, .enqueue, .drain, .drain]

def theirEnd : List WorkerEvent := [.settle 1 .exception, .settle 0 .exception, .settle 1 .success, .settle 0 .exception]

theorem drainsEndSample : 4 ≤ 2 * (1 + 1 : Int).toNat ∧
    (machine.exec (start 1) (twoDrains ++ theirEnd)).running = [] ∧
    Finished 1 (machine.replies (start 1) (twoDrains ++ theirEnd)) (machine.exec (start 1) (twoDrains ++ theirEnd)) := by
  have idle : (machine.exec (start 1) (twoDrains ++ theirEnd)).running = [] := by decide
  have uncancelled : machine.Along Uncancelled (start 1) twoDrains := by decide
  have staffed : (machine.exec (start 1) twoDrains).Staffed := .inl (by decide)
  have settling : machine.Along Settles (machine.exec (start 1) twoDrains) theirEnd := by decide
  obtain ⟨few, finished⟩ := drainsEnd (by decide) uncancelled staffed settling
  exact ⟨few, idle, finished idle⟩

end Workers

structure Drained (σ : Type) where
  outcomes : List JobOutcome
  processed : Nat
  failed : Nat
  state : σ

-- the loop of `drain`. A job changes the state, whether it ends or raises
def drainAlone {σ : Type} (run : Nat → σ → Bool × σ) (maxRetries : Int) : List (Nat × Int) → σ → Drained σ
  | [], s => ⟨[], 0, 0, s⟩
  | (job, attempt) :: rest, s =>
    if (run job s).1 then
      let out := drainAlone run maxRetries rest (run job s).2
      { out with outcomes := .success :: out.outcomes, processed := out.processed + 1 }
    else if attempt < maxRetries then
      let out := drainAlone run maxRetries (rest ++ [(job, attempt + 1)]) (run job s).2
      { out with outcomes := .exception :: out.outcomes }
    else
      let out := drainAlone run maxRetries rest (run job s).2
      { out with outcomes := .exception :: out.outcomes, failed := out.failed + 1 }
termination_by queue => (queue.map (fun e => (maxRetries - e.2).toNat + 1)).sum
decreasing_by
  all_goals simp only [List.map_append, List.map_cons, List.map_nil, List.sum_append, List.sum_cons, List.sum_nil]
  all_goals omega

namespace Workers
variable {σ : Type} (run : Nat → σ → Bool × σ)

def after (t : Workers) (out : Drained σ) : Workers :=
  { t with runner := { t.runner with
      queue := [], processed := t.runner.processed + out.processed, failed := t.runner.failed + out.failed } }

theorem settleAlone {t : Workers} (idle : t.running = []) {job : Nat} {attempt : Int} {rest : List (Nat × Int)}
    (waiting : t.runner.queue = (job, attempt) :: rest) (id count : Nat) (outcome : JobOutcome) :
    (t.resume id count).1.serve (.settle id outcome) =
      { t with runner := { t.runner with queue := rest } }.settle ⟨id, job, attempt, count⟩ outcome := by
  simp [resume, waiting, idle, serve]

/-- The loop is a run of the interleaved machine: the drain starts, and its attempts end one after the other. -/
theorem aloneRuns (queue : List (Nat × Int)) (s : σ) {t : Workers} (idle : t.running = []) (waiting : t.runner.queue = queue)
    (id count : Nat) :
    machine.exec (t.resume id count).1 ((drainAlone run t.runner.maxRetries queue s).outcomes.map (.settle id)) =
      t.after (drainAlone run t.runner.maxRetries queue s) := by
  generalize retries : t.runner.maxRetries = maxRetries
  induction queue, s using drainAlone.induct run maxRetries generalizing t count with
  | case1 s =>
    have same : (t.resume id count).1 = t := by simp only [resume, waiting]
    rw [drainAlone, List.map_nil, Machine.exec, same, after, ← waiting]
    rfl
  | case2 job attempt rest s ended ih =>
    let u : Workers := { t with runner := { t.runner with queue := rest, processed := t.runner.processed + 1 } }
    have step : ((t.resume id count).1.serve (.settle id .success)).1 = (u.resume id (count + 1)).1 := by
      rw [settleAlone idle waiting]
      rfl
    have next := @ih u idle rfl (count + 1) retries
    rw [drainAlone, if_pos ended, List.map_cons, Machine.exec]
    refine (congrArg (machine.exec · _) step).trans (next.trans ?_)
    simp only [after, u, Nat.add_assoc, Nat.add_comm 1]
  | case3 job attempt rest s raised again ih =>
    let u : Workers := { t with runner := { t.runner with queue := rest ++ [(job, attempt + 1)] } }
    have step : ((t.resume id count).1.serve (.settle id .exception)).1 = (u.resume id count).1 := by
      rw [settleAlone idle waiting, settle, if_pos (retries ▸ again)]
      rfl
    have next := @ih u idle rfl count retries
    rw [drainAlone, if_neg raised, if_pos again, List.map_cons, Machine.exec]
    exact (congrArg (machine.exec · _) step).trans next
  | case4 job attempt rest s raised last ih =>
    let u : Workers := { t with runner := { t.runner with queue := rest, failed := t.runner.failed + 1 } }
    have step : ((t.resume id count).1.serve (.settle id .exception)).1 = (u.resume id count).1 := by
      rw [settleAlone idle waiting, settle, if_neg (retries ▸ last)]
    have next := @ih u idle rfl count retries
    rw [drainAlone, if_neg raised, if_neg last, List.map_cons, Machine.exec]
    refine (congrArg (machine.exec · _) step).trans (next.trans ?_)
    simp only [after, u, Nat.add_assoc, Nat.add_comm 1]

omit run in
theorem aloneCounts (run : Nat → σ → Bool × σ) (maxRetries : Int) (queue : List (Nat × Int)) (s : σ) :
    (drainAlone run maxRetries queue s).processed + (drainAlone run maxRetries queue s).failed = queue.length := by
  induction queue, s using drainAlone.induct run maxRetries with
  | case1 s => rw [drainAlone]; rfl
  | case2 job attempt rest s ended ih =>
    rw [drainAlone, if_pos ended, List.length_cons, ← ih]
    exact Nat.add_right_comm _ _ _
  | case3 job attempt rest s raised again ih =>
    rw [drainAlone, if_neg raised, if_pos again, List.length_cons, ih, List.length_append, List.length_singleton]
  | case4 job attempt rest s raised last ih =>
    rw [drainAlone, if_neg raised, if_neg last, List.length_cons, ← ih]
    rfl

theorem aloneDrains (s : σ) {t : Workers} (idle : t.running = []) :
    machine.exec t (.drain :: (drainAlone run t.runner.maxRetries t.runner.queue s).outcomes.map (.settle t.drains)) =
      { t with drains := t.drains + 1 }.after (drainAlone run t.runner.maxRetries t.runner.queue s) ∧
    (drainAlone run t.runner.maxRetries t.runner.queue s).processed +
      (drainAlone run t.runner.maxRetries t.runner.queue s).failed = t.runner.queue.length := by
  let u : Workers := { t with drains := t.drains + 1 }
  exact ⟨aloneRuns run t.runner.queue s (show u.running = [] from idle) rfl t.drains 0, aloneCounts run _ _ s⟩

end Workers
end ContextOS
