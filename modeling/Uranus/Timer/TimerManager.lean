import Uranus.Base.IdentAllocator
import Uranus.Foundation.Interleaving
import Uranus.Foundation.Table
import Uranus.Timer.Timer

/-! The timers of an agent. Calls go section by section, each of them under the
mutex of the manager; what a call does without the mutex is part of the section
before it, but for the cancellation of a timer that it has found. -/
namespace Uranus
open Foundation Program Interleaving

/-- `timers` are all the timers that were ever made, those of the map by their
position there. -/
structure UTimerManager where
  allocator : TIdentAllocator
  timerMap : Table Int Nat
  timers : List UTimer
  clock : Int

abbrev TimerM := Program UTimerManager

def UTimerManager.new : UTimerManager := ⟨.new, ∅, [], 0⟩

def editTimer (timer : Nat) (update : UTimer → UTimer) : TimerM Unit :=
  modify fun m => { m with timers := m.timers.modify timer update }

namespace UTimerManager

/-- The section of `AllocateTS` under the mutex of the allocator. -/
def allocateLocked (first : Int) : TimerM (Option Int) := do
  match (← get).allocator.allocateLocked first with
  | none => pure none
  | some (tid, allocator) => do
    modify fun m => { m with allocator := allocator }
    pure (some tid)

def allocateFresh : TimerM Int := do
  let (tid, allocator) := (← get).allocator.allocateFresh
  modify fun m => { m with allocator := allocator }
  pure tid

/-- `CreateTimer` once it has its id. -/
def createTimer (tid : Int) (delay rate : Int32) : TimerM Unit := do
  let m ← get
  if (m.timerMap.lookup tid).isSome then pure ()
  else
    modify fun m => { m with
      timerMap := m.timerMap.insert tid m.timers.length
      timers := m.timers ++ [.setUp tid delay rate] }

/-- The timer of an id, if the handle is valid. -/
def findTimer (tid : Int) : TimerM (Option Nat) := do
  pure (((← get).timerMap.lookup tid).filter fun _ => tid > 0)

def cancelAll : TimerM Unit :=
  modify fun m => { m with
    timers := m.timerMap.entries.foldl (fun timers entry =>
      timers.modify entry.2 fun timer => timer.cleanUpManager.cancel) m.timers }

def removeTimer (tid : Int) : TimerM Unit := do
  let m ← get
  if (m.timerMap.lookup tid).isSome then
    modify fun m => { m with
      timerMap := m.timerMap.erase tid
      allocator := m.allocator.recycleTS tid }
  else pure ()

/-- The end of the coroutine of a timer. -/
def leave (timer : Nat) : TimerM Unit := do
  match (← get).timers[timer]? with
  | none => pure ()
  | some state =>
    if state.routine ≠ .leaving then pure ()
    else do
      if state.manager then removeTimer state.id else pure ()
      editTimer timer UTimer.finish

end UTimerManager

/-- The calls of the manager, and the turns of the coroutines of its timers. -/
inductive TimerCall where
  | create (delay rate : Int32) (first : Int)
  | createFresh (delay rate : Int32)
  | createInsert (tid : Int) (delay rate : Int32)
  | start (timer : Nat)
  | cancelTimer (tid : Int)
  | cancel (timer : Nat)
  | cancelAll
  | resume (timer : Nat)
  | complete (timer : Nat) (threw : Bool)
  | expire (timer : Nat)
  | leave (timer : Nat)
  | elapse (duration : Nat)
deriving DecidableEq

namespace TimerCall

def starts : TimerCall → Bool
  | .createFresh .. | .createInsert .. | .cancel _ => false
  | _ => true

def part : TimerCall → TimerM (Option TimerCall)
  | .create delay rate first => do
    match ← UTimerManager.allocateLocked first with
    | none => pure (some (.createFresh delay rate))
    | some tid => pure (some (.createInsert tid delay rate))
  | .createFresh delay rate => do
    let tid ← UTimerManager.allocateFresh
    pure (some (.createInsert tid delay rate))
  | .createInsert tid delay rate => do
    UTimerManager.createTimer tid delay rate
    pure none
  | .start timer => do
    editTimer timer UTimer.start
    pure none
  | .cancelTimer tid => do
    match ← UTimerManager.findTimer tid with
    | none => pure none
    | some timer => pure (some (.cancel timer))
  | .cancel timer => do
    editTimer timer UTimer.cancel
    pure none
  | .cancelAll => do
    UTimerManager.cancelAll
    pure none
  | .resume timer => do
    let m ← get
    editTimer timer (UTimer.resume m.clock)
    pure none
  | .complete timer threw => do
    editTimer timer (UTimer.complete threw)
    pure none
  | .expire timer => do
    let m ← get
    editTimer timer (UTimer.expire m.clock)
    pure none
  | .leave timer => do
    UTimerManager.leave timer
    pure none
  | .elapse duration => do
    modify fun m => { m with clock := m.clock + duration }
    pure none

end TimerCall

abbrev Timers := Config UTimerManager TimerCall

def Timers.step : Timers → Move TimerCall → Timers → Prop :=
  Interleaving.Step TimerCall.part fun call => call.starts

def Timers.runs (config : Timers) (moves : List (Move TimerCall)) :
    List (Move TimerCall × Timers) :=
  Transition.trace (following TimerCall.part fun call => call.starts) config moves

theorem Timers.runs_path (config : Timers) (moves : List (Move TimerCall)) :
    Transition.Path Timers.step config (config.runs moves) :=
  Transition.trace_path following_step moves

/-- A call that is made and run. -/
def Timers.turnRun (call : TimerCall) (m m' : UTimerManager) (calls : Multiset TimerCall) :
    List (Move TimerCall × Timers) :=
  [(.invoke call, ⟨m, call ::ₘ calls⟩), (.advance call, ⟨m', calls⟩)]

theorem Timers.turnRun_path {call : TimerCall} {m m' : UTimerManager}
    (calls : Multiset TimerCall) (starts : call.starts) (ran : call.part m = .ok none m') :
    Transition.Path Timers.step ⟨m, calls⟩ (turnRun call m m' calls) := by
  have moved : Timers.step ⟨m, call ::ₘ calls⟩ (.advance call)
      ⟨m', resume none ((call ::ₘ calls).erase call)⟩ :=
    .advance (Multiset.mem_cons_self call calls) (.inl ran)
  rw [Multiset.erase_cons_head] at moved
  exact ⟨.invoke starts, moved, trivial⟩

namespace UTimerManager
variable {m t : UTimerManager} {tid : Int} {timer : Nat}

theorem findTimer_apply : findTimer tid m =
    .ok ((m.timerMap.lookup tid).filter fun _ => tid > 0) m := rfl

/-- `CancelTimer` only finds the timer that it goes on to cancel. -/
theorem cancelTimer_ok (m : UTimerManager) (tid : Int) : (TimerCall.cancelTimer tid).part m =
    .ok (((m.timerMap.lookup tid).filter fun _ => tid > 0).map .cancel) m := by
  rw [TimerCall.part, bind_ok findTimer_apply]
  cases (m.timerMap.lookup tid).filter fun _ => tid > 0 with
  | none | some => rfl

theorem allocateLocked_ok (m : UTimerManager) (first : Int) :
    ∃ found allocator, allocateLocked first m = .ok found { m with allocator } := by
  simp only [allocateLocked, get_bind]
  cases m.allocator.allocateLocked first with
  | none => exact ⟨none, m.allocator, rfl⟩
  | some found => exact ⟨_, _, rfl⟩

/-- The timers that were there before stay at their positions. -/
theorem createTimer_ok (m : UTimerManager) (tid : Int) (delay rate : Int32) :
    ∃ timerMap later, createTimer tid delay rate m =
      .ok () { m with timerMap, timers := m.timers ++ later } := by
  simp only [createTimer, get_bind]
  split
  · exact ⟨m.timerMap, [], by rw [List.append_nil]; rfl⟩
  · exact ⟨_, _, rfl⟩

theorem removeTimer_ok (m : UTimerManager) (tid : Int) :
    ∃ timerMap allocator, removeTimer tid m = .ok () { m with timerMap, allocator } := by
  simp only [removeTimer, get_bind]
  split
  · exact ⟨_, _, rfl⟩
  · exact ⟨m.timerMap, m.allocator, rfl⟩

/-- A coroutine that is not at its end stays where it is. -/
theorem finish_modify (absent : ∀ state, m.timers[timer]? = some state → state.routine ≠ .leaving) :
    m.timers.modify timer UTimer.finish = m.timers := by
  apply List.ext_getElem?
  intro j
  rw [List.getElem?_modify]
  by_cases same : timer = j
  · subst same
    cases present : m.timers[timer]? with
    | none => rfl
    | some state =>
      have kept : state.finish = state := if_neg (absent state present)
      simp [kept]
  · simp [same]

theorem leave_ok (m : UTimerManager) (timer : Nat) : ∃ timerMap allocator,
    leave timer m =
      .ok () { m with timerMap, allocator, timers := m.timers.modify timer UTimer.finish } := by
  simp only [leave, get_bind]
  cases present : m.timers[timer]? with
  | none =>
    have kept : m.timers.modify timer UTimer.finish = m.timers := finish_modify (by simp [present])
    exact ⟨m.timerMap, m.allocator, by rw [kept]; rfl⟩
  | some state =>
    by_cases leaving : state.routine = .leaving
    · simp only [leaving, ne_eq, not_true, if_false]
      cases state.manager with
      | false => exact ⟨_, _, rfl⟩
      | true =>
        obtain ⟨timerMap, allocator, ran⟩ := removeTimer_ok m state.id
        exact ⟨timerMap, allocator, bind_ok ran _⟩
    · have kept : m.timers.modify timer UTimer.finish = m.timers :=
        finish_modify (by simp [present, leaving])
      simp only [leaving, ne_eq, not_false_iff, if_true]
      exact ⟨m.timerMap, m.allocator, by rw [kept]; rfl⟩

end UTimerManager
end Uranus
