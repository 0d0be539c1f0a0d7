import Mathlib.Data.List.Basic

/-! A timer: a coroutine that arms it, waits for it and invokes its task. Between
two suspensions the coroutine runs without interruption, except that the task
may do anything, so that its invocation is a place of its own. Time points and
durations are in milliseconds. -/
namespace Uranus

/-- Where the coroutine that `Start` spawns stands. A wait that is over is no
longer pending, before the coroutine goes on. -/
inductive TimerRoutine where
  | absent
  | scheduled
  | invoking
  | waiting
  | fired
  | aborted
  | leaving
  | finished
deriving DecidableEq, Repr

/-- `point` and `delta` are variables of the coroutine; `delta` has no value
before its first assignment. `invocations` is a history that no function reads:
the arguments of the task, entered when its invocation begins. -/
structure UTimer where
  id : Int
  manager : Bool
  delay : Int32
  rate : Int32
  routine : TimerRoutine
  expiry : Int
  point : Int
  delta : Option Int
  invocations : List (Int × Option Int)
deriving DecidableEq

namespace UTimer

/-- A timer with its id and its parameters. -/
def setUp (id : Int) (delay rate : Int32) : UTimer where
  id := id
  manager := true
  delay := delay
  rate := rate
  routine := .absent
  expiry := 0
  point := 0
  delta := none
  invocations := []

/-- The product is one of `int`, which wraps where it overflows. -/
def milliseconds (units : Int32) : Int := (units * 100).toInt

def start (timer : UTimer) : UTimer :=
  if timer.routine = .absent then { timer with routine := .scheduled } else timer

/-- The head of the loop: the coroutine waits, or the loop is over. -/
def loop (timer : UTimer) : UTimer :=
  { timer with routine := if timer.rate > 0 then .waiting else .leaving }

/-- Sets the timer a duration after the last time point. -/
def arm (delta : Int) (timer : UTimer) : UTimer :=
  { timer with
    delta := some delta
    point := timer.point + delta
    expiry := timer.point + delta }

def invoke (timer : UTimer) : UTimer :=
  { timer with
    routine := .invoking
    invocations := timer.invocations ++ [(timer.point, timer.delta)] }

/-- The coroutine goes on, up to an invocation of the task or to its next wait. -/
def resume (now : Int) (timer : UTimer) : UTimer :=
  match timer.routine with
  | .scheduled =>
    let timer : UTimer := { timer with point := now }
    if timer.delay > 0 then (timer.arm (milliseconds timer.delay)).loop else timer.invoke
  | .fired => timer.invoke
  | .aborted => { timer with routine := .leaving }
  | .absent | .invoking | .waiting | .leaving | .finished => timer

/-- The task comes back. An exception of it ends the loop. -/
def complete (threw : Bool) (timer : UTimer) : UTimer :=
  match timer.routine with
  | .invoking =>
    if threw then { timer with routine := .leaving }
    else (timer.arm (milliseconds timer.rate)).loop
  | .absent | .scheduled | .waiting | .fired | .aborted | .leaving | .finished => timer

/-- A pending wait ends once the timer has expired. -/
def expire (now : Int) (timer : UTimer) : UTimer :=
  if timer.routine = .waiting ∧ timer.expiry ≤ now then { timer with routine := .fired } else timer

/-- `Cancel` ends a pending wait with an error. -/
def cancel (timer : UTimer) : UTimer :=
  if timer.routine = .waiting then { timer with routine := .aborted } else timer

def cleanUpManager (timer : UTimer) : UTimer := { timer with manager := false }

/-- The end of the coroutine, after its timer has been removed from the manager. -/
def finish (timer : UTimer) : UTimer :=
  if timer.routine = .leaving then { timer with routine := .finished } else timer

/-- What can happen to a timer. -/
inductive Turn (timer : UTimer) : UTimer → Prop where
  | kept : Turn timer timer
  | started : Turn timer timer.start
  | resumed (now : Int) : Turn timer (timer.resume now)
  | completed (threw : Bool) : Turn timer (timer.complete threw)
  | expired (now : Int) : Turn timer (timer.expire now)
  | cancelled : Turn timer timer.cancel
  | orphaned : Turn timer timer.cleanUpManager.cancel
  | left : Turn timer timer.finish

variable {timer : UTimer} {now : Int}

theorem start_absent (place : timer.routine = .absent) :
    timer.start = { timer with routine := .scheduled } := if_pos place

/-- With a delay the first wait comes before any invocation. -/
theorem resume_delayed (now : Int) (place : timer.routine = .scheduled)
    (delayed : timer.delay > 0) : timer.resume now =
      ({ timer with point := now }.arm (milliseconds timer.delay)).loop := by
  simp only [resume, place, if_pos delayed]

theorem resume_undelayed (now : Int) (place : timer.routine = .scheduled)
    (undelayed : ¬ timer.delay > 0) : timer.resume now = { timer with point := now }.invoke := by
  simp only [resume, place, if_neg undelayed]

theorem resume_fired (now : Int) (place : timer.routine = .fired) :
    timer.resume now = timer.invoke := by
  simp only [resume, place]

theorem complete_returned (place : timer.routine = .invoking) :
    timer.complete false = (timer.arm (milliseconds timer.rate)).loop := by
  simp only [complete, place, Bool.false_eq_true, if_false]

theorem complete_threw (place : timer.routine = .invoking) :
    timer.complete true = { timer with routine := .leaving } := by
  simp only [complete, place, if_true]

theorem expire_due (place : timer.routine = .waiting) (due : timer.expiry ≤ now) :
    timer.expire now = { timer with routine := .fired } := if_pos ⟨place, due⟩

theorem finish_leaving (place : timer.routine = .leaving) :
    timer.finish = { timer with routine := .finished } := if_pos place

end UTimer
end Uranus
