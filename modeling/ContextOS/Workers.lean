import ContextOS.Lib.Machine
import Mathlib.Algebra.BigOperators.Group.List.Basic
import Mathlib.Algebra.Ring.Nat
import Mathlib.Data.List.Nodup

/-! The background runner of `workers/runner.py` under overlapping drains. A drain takes a job
off the queue before it awaits it, and its except clause does not see a cancellation: the
job of a cancelled drain is in none of the runner's books. A job stands for the enqueue call
that brought it, numbered from 0, and a drain for the call of `drain`. -/
namespace ContextOS
open Lib (Machine)

structure BackgroundRunner where
  queue : List (Nat × Int)
  maxRetries : Int
  processed : Nat
  failed : Nat
  deriving DecidableEq, Repr

namespace BackgroundRunner

def new (maxRetries : Int) : BackgroundRunner := ⟨[], maxRetries, 0, 0⟩

def put (r : BackgroundRunner) (job : Nat) (attempt : Int) : BackgroundRunner :=
  { r with queue := r.queue ++ [(job, attempt)] }

def enqueue (r : BackgroundRunner) (job : Nat) : BackgroundRunner := r.put job 0

end BackgroundRunner

/-- How the awaited job ends. Cancellation reaches the drain as `asyncio.CancelledError`, which is no `Exception`. -/
inductive JobOutcome where
  | success
  | exception
  | cancelled
  deriving DecidableEq, Repr

structure Drain where
  id : Nat
  job : Nat
  attempt : Int
  count : Nat
  deriving DecidableEq, Repr

inductive WorkerEvent where
  | enqueue
  | drain
  | settle (id : Nat) (outcome : JobOutcome)
  deriving DecidableEq, Repr

-- what became of a job whose attempt ended; a cancelled drain takes its count along
inductive JobEnding where
  | processed
  | retried
  | failed
  | cancelled (count : Nat)
  deriving DecidableEq, Repr

structure WorkerReply where
  ended : Option (Nat × JobEnding)
  returned : Option Nat
  deriving DecidableEq, Repr

structure Workers where
  runner : BackgroundRunner
  enqueued : Nat
  drains : Nat
  running : List Drain
  deriving DecidableEq, Repr

namespace Workers

def start (maxRetries : Int) : Workers := ⟨.new maxRetries, 0, 0, []⟩

-- the head of the loop: take the next job and await it, or leave with the count
def resume (s : Workers) (id count : Nat) : Workers × Option Nat :=
  match s.runner.queue with
  | [] => (s, some count)
  | (job, attempt) :: rest =>
    ({ s with runner := { s.runner with queue := rest }, running := s.running ++ [⟨id, job, attempt, count⟩] }, none)

-- the end of `d`'s attempt, `s` being without `d`
def settle (s : Workers) (d : Drain) : JobOutcome → Workers × WorkerReply
  | .success =>
    let (s, returned) := { s with runner := { s.runner with processed := s.runner.processed + 1 } }.resume d.id (d.count + 1)
    (s, ⟨some (d.job, .processed), returned⟩)
  | .exception =>
    if d.attempt < s.runner.maxRetries then
      let (s, returned) := { s with runner := s.runner.put d.job (d.attempt + 1) }.resume d.id d.count
      (s, ⟨some (d.job, .retried), returned⟩)
    else
      let (s, returned) := { s with runner := { s.runner with failed := s.runner.failed + 1 } }.resume d.id d.count
      (s, ⟨some (d.job, .failed), returned⟩)
  | .cancelled => (s, ⟨some (d.job, .cancelled d.count), none⟩)

def serve (s : Workers) : WorkerEvent → Workers × WorkerReply
  | .enqueue => ({ s with runner := s.runner.enqueue s.enqueued, enqueued := s.enqueued + 1 }, ⟨none, none⟩)
  | .drain =>
    let (s, returned) := { s with drains := s.drains + 1 }.resume s.drains 0
    (s, ⟨none, returned⟩)
  | .settle id outcome =>
    match s.running.find? (fun d => d.id = id) with
    | none => (s, ⟨none, none⟩)
    | some d => { s with running := s.running.erase d }.settle d outcome

def machine : Machine Workers WorkerEvent WorkerReply := ⟨serve⟩

def endings (past : List (WorkerEvent × WorkerReply)) : List (Nat × JobEnding) := past.filterMap (fun r => r.2.ended)

def returns (past : List (WorkerEvent × WorkerReply)) : List Nat := past.filterMap (fun r => r.2.returned)

end Workers

def JobEnding.raised : JobEnding → Bool
  | .retried | .failed => true
  | .processed | .cancelled _ => false

def JobEnding.lost : JobEnding → Nat
  | .cancelled count => count
  | _ => 0

def JobEnding.isCancelled : JobEnding → Bool
  | .cancelled _ => true
  | _ => false

namespace Workers

def jobsEnded (as : JobEnding → Bool) (ends : List (Nat × JobEnding)) : List Nat := (ends.filter (fun e => as e.2)).map Prod.fst

def processedJobs (ends : List (Nat × JobEnding)) : List Nat := jobsEnded (· = .processed) ends

def failedJobs (ends : List (Nat × JobEnding)) : List Nat := jobsEnded (· = .failed) ends

def cancelledJobs (ends : List (Nat × JobEnding)) : List Nat := jobsEnded JobEnding.isCancelled ends

def exceptions (ends : List (Nat × JobEnding)) (job : Nat) : Nat := (jobsEnded JobEnding.raised ends).count job

def pendingJobs (s : Workers) : List Nat := s.runner.queue.map Prod.fst

def jobsInFlight (s : Workers) : List Nat := s.running.map (·.job)

-- in how many of the four places a job is, each with its multiplicity
def places (s : Workers) (ends : List (Nat × JobEnding)) (job : Nat) : Nat :=
  s.pendingJobs.count job + s.jobsInFlight.count job + (processedJobs ends).count job + (failedJobs ends).count job

-- nothing is lost: the state reached agrees with what the replies of the run so far say
structure Conserved (maxRetries : Int) (past : List (WorkerEvent × WorkerReply)) (s : Workers) : Prop where
  placed : ∀ job, s.places (endings past) job = if job < s.enqueued then 1 else 0
  processed : s.runner.processed = (processedJobs (endings past)).length
  failed : s.runner.failed = (failedJobs (endings past)).length
  exhausted : ∀ job ∈ failedJobs (endings past), (exceptions (endings past) job : Int) = maxRetries + 1
  once : (processedJobs (endings past)).Nodup
  counted : (returns past).sum + (s.running.map (·.count)).sum = s.runner.processed

structure Accounted (maxRetries : Int) (ends : List (Nat × JobEnding)) (returned : List Nat) (held : Nat) (s : Workers) : Prop where
  retries : s.runner.maxRetries = maxRetries
  placed : ∀ job, s.places ends job + (cancelledJobs ends).count job = if job < s.enqueued then 1 else 0
  processed : s.runner.processed = (processedJobs ends).length
  failed : s.runner.failed = (failedJobs ends).length
  counted : returned.sum + (s.running.map (·.count)).sum + (ends.map (·.2.lost)).sum + held = s.runner.processed
  queued : ∀ e ∈ s.runner.queue, e.2 = exceptions ends e.1 ∧ e.2 ≤ maxRetries
  awaited : ∀ d ∈ s.running, d.attempt = exceptions ends d.job ∧ d.attempt ≤ maxRetries
  exhausted : ∀ job ∈ failedJobs ends, (exceptions ends job : Int) = maxRetries + 1
  fresh : ∀ job, s.enqueued ≤ job → exceptions ends job = 0

section Books
variable {maxRetries : Int} {ends : List (Nat × JobEnding)} {returned : List Nat} {held : Nat} {s : Workers}

theorem resumeAccounted (valid : Accounted maxRetries ends returned held s) (id : Nat) :
    Accounted maxRetries ends (returned ++ (s.resume id held).2.toList) 0 (s.resume id held).1 := by
  obtain ⟨retries, placed, processed, failed, counted, queued, awaited, exhausted, fresh⟩ := valid
  cases waiting : s.runner.queue with
  | nil =>
    simp only [resume, waiting]
    refine ⟨retries, placed, processed, failed, ?_, queued, awaited, exhausted, fresh⟩
    rw [Option.toList_some, List.sum_append, List.sum_singleton]
    omega
  | cons first rest =>
    obtain ⟨job, attempt⟩ := first
    rw [waiting] at queued
    obtain ⟨here, later⟩ := List.forall_mem_cons.mp queued
    simp only [resume, waiting]
    refine ⟨retries, fun other => ?_, processed, failed, ?_, later, ?_, exhausted, fresh⟩
    · rw [← placed other]
      simp only [places, pendingJobs, jobsInFlight, waiting, List.map_append, List.map_cons, List.map_nil, List.count_append,
        List.count_cons, List.count_nil]
      omega
    · simp only [Option.toList_none, List.append_nil, List.map_append, List.map_cons, List.map_nil, List.sum_append,
        List.sum_singleton]
      omega
    · intro d member
      rcases List.mem_append.mp member with old | new
      · exact awaited d old
      · rw [List.mem_singleton.mp new]
        exact here

theorem jobsEndedAfter (as : JobEnding → Bool) (ends : List (Nat × JobEnding)) (job : Nat) (ending : JobEnding) :
    jobsEnded as (ends ++ [(job, ending)]) = jobsEnded as ends ++ if as ending then [job] else [] := by
  rw [jobsEnded, List.filter_append, List.map_append]
  cases named : as ending <;> simp [jobsEnded, named]

theorem exceptionsAfter (ends : List (Nat × JobEnding)) (job other : Nat) (ending : JobEnding) :
    exceptions (ends ++ [(job, ending)]) other = exceptions ends other + if ending.raised ∧ job = other then 1 else 0 := by
  rw [exceptions, jobsEndedAfter, List.count_append]
  cases ending.raised <;> simp [exceptions, List.count_cons]

theorem processedAfter (ends : List (Nat × JobEnding)) (job : Nat) (ending : JobEnding) :
    processedJobs (ends ++ [(job, ending)]) = processedJobs ends ++ if ending = .processed then [job] else [] := by
  simpa only [processedJobs, decide_eq_true_eq] using jobsEndedAfter (· = .processed) ends job ending

theorem failedAfter (ends : List (Nat × JobEnding)) (job : Nat) (ending : JobEnding) :
    failedJobs (ends ++ [(job, ending)]) = failedJobs ends ++ if ending = .failed then [job] else [] := by
  simpa only [failedJobs, decide_eq_true_eq] using jobsEndedAfter (· = .failed) ends job ending

theorem exceptionsElsewhere (ends : List (Nat × JobEnding)) {job other : Nat} (different : other ≠ job) (ending : JobEnding) :
    exceptions (ends ++ [(job, ending)]) other = exceptions ends other := by
  rw [exceptionsAfter, if_neg fun same => different same.2.symm, Nat.add_zero]

structure Alone (ends : List (Nat × JobEnding)) (s : Workers) (d : Drain) : Prop where
  inFlight : ∀ job, s.jobsInFlight.count job = ((s.running.erase d).map (·.job)).count job + if d.job = job then 1 else 0
  counts : (s.running.map (·.count)).sum = ((s.running.erase d).map (·.count)).sum + d.count
  enqueued : d.job < s.enqueued
  queue : ∀ e ∈ s.runner.queue, e.1 ≠ d.job
  others : ∀ o ∈ s.running.erase d, o.job ≠ d.job
  failed : ∀ job ∈ failedJobs ends, job ≠ d.job

theorem alone (valid : Accounted maxRetries ends returned held s) {d : Drain} (member : d ∈ s.running) : Alone ends s d := by
  have perm := List.perm_cons_erase member
  have inFlight : ∀ job, s.jobsInFlight.count job = ((s.running.erase d).map (·.job)).count job + if d.job = job then 1 else 0 := by
    intro job
    rw [jobsInFlight, (perm.map _).count_eq, List.map_cons, List.count_cons]
    simp
  have only := valid.placed d.job
  have here := inFlight d.job
  rw [if_pos rfl] at here
  have enqueued : d.job < s.enqueued := by
    by_contra beyond
    rw [if_neg beyond, places] at only
    omega
  rw [if_pos enqueued, places] at only
  have queue : s.pendingJobs.count d.job = 0 := by omega
  have others : ((s.running.erase d).map (·.job)).count d.job = 0 := by omega
  have failed : (failedJobs ends).count d.job = 0 := by omega
  refine ⟨inFlight, ?_, enqueued, fun e inside same => ?_, fun o inside same => ?_, fun job inside same => ?_⟩
  · rw [(perm.map _).sum_eq, List.map_cons, List.sum_cons, Nat.add_comm]
  · exact List.count_eq_zero.mp queue (same ▸ List.mem_map_of_mem inside)
  · exact List.count_eq_zero.mp others (same ▸ List.mem_map_of_mem inside)
  · exact List.count_eq_zero.mp failed (same ▸ inside)

structure Booked (s : Workers) (d : Drain) (ending : JobEnding) (runner : BackgroundRunner) (held : Nat) : Prop where
  retries : runner.maxRetries = s.runner.maxRetries
  queue : runner.queue = s.runner.queue ++ if ending = .retried then [(d.job, d.attempt + 1)] else []
  processed : runner.processed = s.runner.processed + if ending = .processed then 1 else 0
  failed : runner.failed = s.runner.failed + if ending = .failed then 1 else 0
  held : held + ending.lost = d.count + if ending = .processed then 1 else 0
  again : ending = .retried → d.attempt < s.runner.maxRetries
  last : ending = .failed → s.runner.maxRetries ≤ d.attempt

section Ended
variable {d : Drain} {ending : JobEnding} {runner : BackgroundRunner}

theorem endedPlaced (apart : Alone ends s d) (booked : Booked s d ending runner held) (job : Nat) :
    ({ s with runner := runner, running := s.running.erase d } : Workers).places (ends ++ [(d.job, ending)]) job +
        (cancelledJobs (ends ++ [(d.job, ending)])).count job =
      s.places ends job + (cancelledJobs ends).count job := by
  have flight := apart.inFlight job
  rw [places, places, flight, pendingJobs, booked.queue, processedAfter, failedAfter, cancelledJobs, jobsEndedAfter, pendingJobs]
  cases ending <;>
    simp only [jobsInFlight, cancelledJobs, JobEnding.isCancelled, reduceCtorEq, if_true, if_false, List.append_nil,
      List.map_append, List.map_cons, List.map_nil, List.count_append, List.count_singleton, Bool.false_eq_true] <;>
    simp only [beq_iff_eq] <;> omega

theorem endedQueue (apart : Alone ends s d) (booked : Booked s d ending runner held)
    (queued : ∀ e ∈ s.runner.queue, e.2 = exceptions ends e.1 ∧ e.2 ≤ s.runner.maxRetries)
    (attempts : (exceptions (ends ++ [(d.job, ending)]) d.job : Int) = d.attempt + if ending.raised then 1 else 0) :
    ∀ e ∈ runner.queue, e.2 = exceptions (ends ++ [(d.job, ending)]) e.1 ∧ e.2 ≤ s.runner.maxRetries := by
  intro e inside
  rw [booked.queue] at inside
  rcases List.mem_append.mp inside with old | new
  · rw [exceptionsElsewhere ends (apart.queue e old)]
    exact queued e old
  · split at new
    · rename_i retried
      subst retried
      have below := booked.again rfl
      rw [List.mem_singleton.mp new]
      exact ⟨attempts.symm, by omega⟩
    · contradiction

theorem endedExhausted (apart : Alone ends s d) (booked : Booked s d ending runner held) (allowed : d.attempt ≤ s.runner.maxRetries)
    (exhausted : ∀ job ∈ failedJobs ends, (exceptions ends job : Int) = s.runner.maxRetries + 1)
    (attempts : (exceptions (ends ++ [(d.job, ending)]) d.job : Int) = d.attempt + if ending.raised then 1 else 0) :
    ∀ job ∈ failedJobs (ends ++ [(d.job, ending)]), (exceptions (ends ++ [(d.job, ending)]) job : Int) = s.runner.maxRetries + 1 := by
  intro job inside
  rw [failedAfter] at inside
  rcases List.mem_append.mp inside with old | new
  · rw [exceptionsElsewhere ends (apart.failed job old)]
    exact exhausted job old
  · split at new
    · rename_i named
      subst named
      have reached := booked.last rfl
      rw [List.mem_singleton.mp new, attempts, JobEnding.raised, if_pos rfl]
      omega
    · contradiction

theorem endedAccounted (valid : Accounted maxRetries ends returned 0 s) (member : d ∈ s.running)
    (booked : Booked s d ending runner held) :
    Accounted maxRetries (ends ++ [(d.job, ending)]) returned held { s with runner := runner, running := s.running.erase d } := by
  have apart := alone valid member
  obtain ⟨rfl, placed, processed, failed, counted, queued, awaited, exhausted, fresh⟩ := valid
  obtain ⟨before, allowed⟩ := awaited d member
  have attempts : (exceptions (ends ++ [(d.job, ending)]) d.job : Int) = d.attempt + if ending.raised then 1 else 0 := by
    rw [exceptionsAfter, before]
    cases ending.raised <;> simp
  refine ⟨booked.retries, fun job => (endedPlaced apart booked job).trans (placed job), ?_, ?_, ?_,
    endedQueue apart booked queued attempts, fun o inside => ?_, endedExhausted apart booked allowed exhausted attempts,
    fun job beyond => ?_⟩
  · rw [booked.processed, processed, processedAfter]
    split <;> simp
  · rw [booked.failed, failed, failedAfter]
    split <;> simp
  · have share := booked.held
    rw [booked.processed, List.map_append, List.sum_append, ← counted, apart.counts]
    simp only [List.map_cons, List.map_nil, List.sum_singleton]
    omega
  · rw [exceptionsElsewhere ends (apart.others o inside)]
    exact awaited o (List.mem_of_mem_erase inside)
  · rw [exceptionsElsewhere ends (Nat.ne_of_gt (Nat.lt_of_lt_of_le apart.enqueued beyond))]
    exact fresh job beyond

end Ended

theorem settleAccounted (valid : Accounted maxRetries ends returned 0 s) {d : Drain} (member : d ∈ s.running)
    (outcome : JobOutcome) :
    let r := { s with running := s.running.erase d }.settle d outcome
    Accounted maxRetries (ends ++ r.2.ended.toList) (returned ++ r.2.returned.toList) 0 r.1 := by
  cases outcome with
  | success =>
    have booked : Booked s d .processed { s.runner with processed := s.runner.processed + 1 } (d.count + 1) := by
      constructor <;> simp [JobEnding.lost]
    exact resumeAccounted (endedAccounted valid member booked) d.id
  | exception =>
    simp only [settle]
    split
    · rename_i below
      have booked : Booked s d .retried (s.runner.put d.job (d.attempt + 1)) d.count := by
        constructor <;> simp [JobEnding.lost, BackgroundRunner.put, below]
      exact resumeAccounted (endedAccounted valid member booked) d.id
    · rename_i reached
      have booked : Booked s d .failed { s.runner with failed := s.runner.failed + 1 } d.count := by
        constructor <;> simp [JobEnding.lost]
        omega
      exact resumeAccounted (endedAccounted valid member booked) d.id
  | cancelled =>
    have booked : Booked s d (.cancelled d.count) s.runner 0 := by constructor <;> simp [JobEnding.lost]
    simpa [settle] using endedAccounted valid member booked

theorem enqueueAccounted (valid : Accounted maxRetries ends returned 0 s) (positive : 0 ≤ maxRetries) :
    Accounted maxRetries ends returned 0 { s with runner := s.runner.enqueue s.enqueued, enqueued := s.enqueued + 1 } := by
  obtain ⟨retries, placed, processed, failed, counted, queued, awaited, exhausted, fresh⟩ := valid
  refine ⟨retries, fun job => ?_, processed, failed, counted, fun e inside => ?_, awaited, exhausted,
    fun job beyond => fresh job (Nat.le_of_succ_le beyond)⟩
  · have before := placed job
    simp only [places, pendingJobs, jobsInFlight, BackgroundRunner.enqueue, BackgroundRunner.put, List.map_append,
      List.map_cons, List.map_nil, List.count_append, List.count_singleton, beq_iff_eq] at before ⊢
    split at before <;> split <;> split <;> omega
  · rcases List.mem_append.mp inside with old | new
    · exact queued e old
    · rw [List.mem_singleton.mp new]
      exact ⟨by rw [fresh s.enqueued (Nat.le_refl _)]; rfl, positive⟩

theorem serveAccounted (valid : Accounted maxRetries ends returned 0 s) (positive : 0 ≤ maxRetries) (event : WorkerEvent) :
    Accounted maxRetries (ends ++ (s.serve event).2.ended.toList) (returned ++ (s.serve event).2.returned.toList) 0
      (s.serve event).1 := by
  cases event with
  | enqueue => simpa [serve] using enqueueAccounted valid positive
  | drain =>
    have started : Accounted maxRetries ends returned 0 { s with drains := s.drains + 1 } :=
      ⟨valid.retries, valid.placed, valid.processed, valid.failed, valid.counted, valid.queued, valid.awaited, valid.exhausted, valid.fresh⟩
    simpa [serve] using resumeAccounted started s.drains
  | settle id outcome =>
    simp only [serve]
    cases found : s.running.find? (fun d => d.id = id) with
    | none => simpa using valid
    | some d => exact settleAccounted valid (List.mem_of_find?_eq_some found) outcome

end Books

theorem endingsCons (r : WorkerEvent × WorkerReply) (past : List (WorkerEvent × WorkerReply)) :
    endings (r :: past) = r.2.ended.toList ++ endings past := by
  cases ended : r.2.ended <;> simp [endings, ended]

theorem endingsAfter (past : List (WorkerEvent × WorkerReply)) (event : WorkerEvent) (reply : WorkerReply) :
    endings (past ++ [(event, reply)]) = endings past ++ reply.ended.toList := by
  rw [endings, List.filterMap_append]
  cases ended : reply.ended <;> simp [endings, ended]

theorem returnsAfter (past : List (WorkerEvent × WorkerReply)) (event : WorkerEvent) (reply : WorkerReply) :
    returns (past ++ [(event, reply)]) = returns past ++ reply.returned.toList := by
  rw [returns, List.filterMap_append]
  cases returned : reply.returned <;> simp [returns, returned]

theorem runAccounted {maxRetries : Int} (positive : 0 ≤ maxRetries) (events : List WorkerEvent) :
    Accounted maxRetries (endings (machine.replies (start maxRetries) events))
      (returns (machine.replies (start maxRetries) events)) 0 (machine.exec (start maxRetries) events) := by
  have empty : Accounted maxRetries (endings []) (returns []) 0 (start maxRetries) := by
    constructor <;> simp [endings, returns, start, BackgroundRunner.new, places, pendingJobs, jobsInFlight, processedJobs,
      failedJobs, cancelledJobs, exceptions, jobsEnded]
  refine machine.historyInvariant (P := fun past s => Accounted maxRetries (endings past) (returns past) 0 s) empty
    (fun past s event valid => ?_) events
  rw [endingsAfter, returnsAfter]
  exact serveAccounted valid positive event

def Uncancelled (s : Workers) (event : WorkerEvent) : Prop :=
  ∀ d ∈ s.running, event ≠ .settle d.id .cancelled

instance (s : Workers) (event : WorkerEvent) : Decidable (s.Uncancelled event) := by unfold Uncancelled; infer_instance

theorem settleCancelled (s : Workers) (d : Drain) (outcome : JobOutcome) :
    cancelledJobs (s.settle d outcome).2.ended.toList = [] ↔ outcome ≠ .cancelled := by
  cases outcome with
  | success => simp [settle, cancelledJobs, jobsEnded, JobEnding.isCancelled]
  | exception =>
    simp only [settle]
    split <;> simp [cancelledJobs, jobsEnded, JobEnding.isCancelled]
  | cancelled => simp [settle, cancelledJobs, jobsEnded, JobEnding.isCancelled]

theorem serveCancelled (s : Workers) (event : WorkerEvent) :
    cancelledJobs (s.serve event).2.ended.toList = [] ↔ s.Uncancelled event := by
  cases event with
  | enqueue => simp [serve, cancelledJobs, jobsEnded, Uncancelled]
  | drain => simp [serve, cancelledJobs, jobsEnded, Uncancelled]
  | settle id outcome =>
    simp only [serve]
    cases found : s.running.find? (fun d => d.id = id) with
    | none =>
      refine iff_of_true rfl fun d member same => ?_
      have other := List.find?_eq_none.mp found d member
      exact other (decide_eq_true (WorkerEvent.settle.inj same).1.symm)
    | some d =>
      have named : d.id = id := by simpa using List.find?_some found
      rw [settleCancelled]
      constructor
      · rintro other _ _ same
        exact other (WorkerEvent.settle.inj same).2
      · intro uncancelled same
        exact uncancelled d (List.mem_of_find?_eq_some found) (by rw [named, same])

theorem runCancelled (s : Workers) (events : List WorkerEvent) :
    cancelledJobs (endings (machine.replies s events)) = [] ↔ machine.Along Uncancelled s events := by
  induction events generalizing s with
  | nil => exact iff_of_true rfl (machine.alongNil s)
  | cons event rest ih =>
    rw [machine.alongCons, ← ih, ← serveCancelled]
    rw [Machine.replies, endingsCons, cancelledJobs, jobsEnded, List.filter_append, List.map_append, List.append_eq_nil_iff]
    rfl

theorem accountedConserved {maxRetries : Int} {past : List (WorkerEvent × WorkerReply)} {s : Workers}
    (valid : Accounted maxRetries (endings past) (returns past) 0 s) :
    Conserved maxRetries past s ↔ cancelledJobs (endings past) = [] := by
  constructor
  · intro conserved
    refine List.eq_nil_iff_forall_not_mem.mpr fun job member => ?_
    have total := valid.placed job
    rw [conserved.placed job] at total
    have counted := List.count_pos_iff.mpr member
    omega
  · intro none
    have placed : ∀ job, s.places (endings past) job = if job < s.enqueued then 1 else 0 := by
      intro job
      rw [← valid.placed job, none]
      rfl
    have unlost : ((endings past).map (·.2.lost)).sum = 0 := by
      refine List.sum_eq_zero (List.forall_mem_map.mpr fun e member => ?_)
      have kept := List.filter_eq_nil_iff.mp (List.map_eq_nil_iff.mp none) e member
      cases named : e.2 with
      | cancelled count => exact absurd (by rw [named]; rfl) kept
      | _ => rfl
    refine ⟨placed, valid.processed, valid.failed, valid.exhausted, List.nodup_iff_count_le_one.mpr fun job => ?_, ?_⟩
    · have total := placed job
      rw [places] at total
      split at total <;> omega
    · have total := valid.counted
      omega

/-- Every job is accounted for throughout a run exactly when the run cancels no drain at its await. -/
theorem conservedIff {maxRetries : Int} (positive : 0 ≤ maxRetries) (events : List WorkerEvent) :
    (∀ front back, events = front ++ back →
        Conserved maxRetries (machine.replies (start maxRetries) front) (machine.exec (start maxRetries) front)) ↔
      machine.Along Uncancelled (start maxRetries) events := by
  have conserved := fun front => (accountedConserved (runAccounted positive front)).trans (runCancelled (start maxRetries) front)
  constructor
  · intro every
    exact (conserved events).mp (every events [] (List.append_nil events).symm)
  · rintro along front back rfl
    exact (conserved front).mpr (machine.alongAppend.mp along).1

def overlapping : List WorkerEvent :=
  [.enqueue, .enqueue, .drain, .drain, .settle 1 .success, .settle 0 .exception, .settle 0 .success]

theorem overlappingConserved :
    Conserved 1 (machine.replies (start 1) overlapping) (machine.exec (start 1) overlapping) :=
  (conservedIff (by decide) overlapping).mpr (by decide) overlapping [] (List.append_nil overlapping).symm

theorem jobLost : ¬ Conserved 1 (machine.replies (start 1) [.enqueue, .drain, .settle 0 .cancelled])
    (machine.exec (start 1) [.enqueue, .drain, .settle 0 .cancelled]) :=
  fun conserved => absurd (conserved.placed 0) (by decide)

end Workers
end ContextOS
