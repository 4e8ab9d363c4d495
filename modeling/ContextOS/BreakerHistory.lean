import ContextOS.Lib.Machine
import ContextOS.Router

/-! A circuit breaker read from its history: the failures since the last success are all
that its state depends on, with the time of the last of them. -/
namespace ContextOS
open Lib (Machine)

inductive BreakerOp where
  | recordSuccess
  | recordFailure
  | state
  deriving DecidableEq, Repr

/-- A call and what the clock shows when it is made. -/
structure BreakerCall where
  op : BreakerOp
  now : Time
  deriving DecidableEq, Repr

namespace CircuitBreaker

def serve (b : CircuitBreaker) (call : BreakerCall) : CircuitBreaker × Option BreakerState :=
  match call.op with
  | .recordSuccess => (b.recordSuccess, none)
  | .recordFailure => (b.recordFailure call.now, none)
  | .state => (b, some (b.state call.now))

def machine : Machine CircuitBreaker BreakerCall (Option BreakerState) := ⟨serve⟩

-- the times of the failures after the last success, the latest first
def failuresSince (calls : List BreakerCall) : List Time :=
  ((calls.reverse.takeWhile (fun call => call.op ≠ .recordSuccess)).filter (fun call => call.op = .recordFailure)).map (·.now)

theorem failuresAfter (calls : List BreakerCall) (call : BreakerCall) : failuresSince (calls ++ [call]) =
    match call.op with
    | .recordSuccess => []
    | .recordFailure => call.now :: failuresSince calls
    | .state => failuresSince calls := by
  unfold failuresSince
  rw [List.reverse_append, List.reverse_singleton, List.singleton_append, List.takeWhile_cons]
  cases op : call.op <;> simp [op]

structure Remembers (threshold cooldown : Int) (calls : List BreakerCall) (b : CircuitBreaker) : Prop where
  thresholdKept : b.threshold = threshold
  cooldownKept : b.cooldown = cooldown
  failures : b.failures = (failuresSince calls).length
  openedAt : b.openedAt = if threshold ≤ (failuresSince calls).length then (failuresSince calls).head? else none

theorem servedRemembers {threshold cooldown : Int} (positive : 1 ≤ threshold) {calls : List BreakerCall} {b : CircuitBreaker}
    (valid : Remembers threshold cooldown calls b) (call : BreakerCall) :
    Remembers threshold cooldown (calls ++ [call]) (b.serve call).1 := by
  obtain ⟨thresholdKept, cooldownKept, failures, openedAt⟩ := valid
  have after := failuresAfter calls call
  unfold serve
  cases op : call.op with
  | recordSuccess =>
    simp only [op] at after
    refine ⟨thresholdKept, cooldownKept, by rw [after]; rfl, ?_⟩
    rw [after, if_neg (by simp; omega)]
    rfl
  | recordFailure =>
    simp only [op] at after
    refine ⟨thresholdKept, cooldownKept, by rw [after, recordFailure, failures]; simp, ?_⟩
    simp only [recordFailure, after, thresholdKept, failures, List.length_cons, Nat.cast_succ, List.head?_cons]
    split
    · rfl
    · rename_i below
      rw [openedAt, if_neg (by omega)]
  | state =>
    simp only [op] at after
    exact ⟨thresholdKept, cooldownKept, by rw [after]; exact failures, by rw [after]; exact openedAt⟩

theorem runRemembers {threshold : Int} (positive : 1 ≤ threshold) (cooldown : Int) (calls : List BreakerCall) :
    Remembers threshold cooldown calls (machine.exec (new threshold cooldown) calls) := by
  have start : Remembers threshold cooldown [] (new threshold cooldown) := by
    refine ⟨rfl, rfl, rfl, ?_⟩
    rw [if_neg (by simp [failuresSince]; omega)]
    rfl
  have run := machine.historyInvariant (P := fun past b => Remembers threshold cooldown (past.map Prod.fst) b) start
    (fun past b call valid => by
      rw [List.map_append]
      exact servedRemembers positive valid call) calls
  rwa [Machine.repliesInputs] at run

-- the state at `now` that the history tells
structure Told (threshold cooldown : Int) (calls : List BreakerCall) (now : Time) (state : BreakerState) : Prop where
  closed : state = .closed ↔ ((failuresSince calls).length : Int) < threshold
  opened : state = .open_ ↔ ¬ ((failuresSince calls).length : Int) < threshold ∧
    ∃ last, (failuresSince calls).head? = some last ∧ now < last + cooldown
  halfOpen : state = .halfOpen ↔ ¬ ((failuresSince calls).length : Int) < threshold ∧
    ∃ last, (failuresSince calls).head? = some last ∧ last + cooldown ≤ now

theorem rememberedTold {threshold cooldown : Int} (positive : 1 ≤ threshold) {calls : List BreakerCall} {b : CircuitBreaker}
    (valid : Remembers threshold cooldown calls b) (now : Time) : Told threshold cooldown calls now (b.state now) := by
  obtain ⟨_, cooldownKept, _, openedAt⟩ := valid
  unfold state
  rw [openedAt, cooldownKept]
  by_cases below : ((failuresSince calls).length : Int) < threshold
  · rw [if_neg (by omega)]
    exact ⟨by simp [below], by simp [below], by simp [below]⟩
  · rw [if_pos (by omega)]
    obtain ⟨last, failed⟩ : ∃ last, (failuresSince calls).head? = some last := by
      cases failed : failuresSince calls with
      | nil =>
        rw [failed] at below
        simp at below
        omega
      | cons last rest => exact ⟨last, rfl⟩
    rw [failed]
    dsimp only
    have tripped : threshold ≤ ((failuresSince calls).length : Int) := not_lt.mp below
    by_cases elapsed : cooldown ≤ now - last
    · have due : last + cooldown ≤ now := Int.add_le_of_le_sub_left elapsed
      rw [if_pos elapsed]
      exact ⟨by simp [tripped], by simp [failed, due], by simp [failed, due, tripped]⟩
    · have early : now < last + cooldown := Int.lt_add_of_sub_left_lt (not_le.mp elapsed)
      rw [if_neg elapsed]
      exact ⟨by simp [tripped], by simp [failed, early, tripped], by simp [failed, early]⟩

/-- Whatever was reported to a breaker, at any times, its state at `now` is what the failures
since the last success tell. -/
theorem stateTold {threshold : Int} (positive : 1 ≤ threshold) (cooldown : Int) (calls : List BreakerCall) (now : Time) :
    Told threshold cooldown calls now ((machine.exec (new threshold cooldown) calls).state now) :=
  rememberedTold positive (runRemembers positive cooldown calls) now

theorem stateToldSample : (1 : Int) ≤ 2 ∧
    Told 2 30 [⟨.recordFailure, 0⟩, ⟨.recordFailure, 5⟩, ⟨.recordFailure, 20⟩] 49
      ((machine.exec (new 2 30) [⟨.recordFailure, 0⟩, ⟨.recordFailure, 5⟩, ⟨.recordFailure, 20⟩]).state 49) :=
  ⟨by decide, stateTold (by decide) 30 _ 49⟩

example : (machine.exec (new 2 30) [⟨.recordFailure, 0⟩, ⟨.recordFailure, 5⟩, ⟨.recordFailure, 20⟩]).state 49 = .open_ := by decide

end CircuitBreaker
end ContextOS
