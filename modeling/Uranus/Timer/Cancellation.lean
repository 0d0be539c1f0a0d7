import Mathlib.Algebra.Order.Group.Int
import Uranus.Timer.TimerManager

/-! What a cancellation is worth. `Cancel` ends a pending wait and does nothing
anywhere else, so a timer falls silent only if it waits, or if its coroutine
would not come to another invocation anyway. -/
namespace Uranus
open Foundation Program Interleaving
variable {m m' : UTimerManager} {call : TimerCall} {rest : Option TimerCall}
  {calls : Multiset TimerCall} {i : Nat} {timer : UTimer}

/-- A cancellation here keeps the task from being invoked again. -/
def UTimer.Silenceable (timer : UTimer) : Prop :=
  match timer.routine with
  | .absent | .scheduled => timer.delay > 0 ∧ timer.rate ≤ 0
  | .invoking => timer.rate ≤ 0
  | .fired => False
  | .waiting | .aborted | .leaving | .finished => True

/-- The call ends a pending wait of the timer, if there is one. -/
def UTimerManager.Cancels (m : UTimerManager) (i : Nat) : TimerCall → Prop
  | .cancel timer => timer = i
  | .cancelAll => ∃ tid, m.timerMap.lookup tid = some i
  | _ => False

def UTimerManager.invocations (m : UTimerManager) (i : Nat) : Option (List (Int × Option Int)) :=
  (m.timers[i]?).map UTimer.invocations

/-- The coroutine will not come to an invocation, whatever happens. -/
def UTimer.Silent (timer : UTimer) : Prop := timer.Silenceable ∧ timer.routine ≠ .waiting

namespace UTimer

theorem loop_silent (spent : timer.rate ≤ 0) : timer.loop.Silent := by
  have rate : ¬ timer.rate > 0 := Int32.not_lt.mpr spent
  constructor <;> simp [Silenceable, loop, rate]

theorem cancel_silent (silenceable : timer.Silenceable) : timer.cancel.Silent := by
  unfold cancel
  split
  next => constructor <;> simp [Silenceable]
  next quiet => exact ⟨silenceable, quiet⟩

theorem cancel_invocations (timer : UTimer) : timer.cancel.invocations = timer.invocations := by
  unfold cancel
  split <;> rfl

theorem resume_silent (silent : timer.Silent) (now : Int) :
    (timer.resume now).Silent ∧ (timer.resume now).invocations = timer.invocations := by
  have silenceable := silent.1
  unfold resume
  split
  next place =>
    simp only [Silenceable, place] at silenceable
    dsimp only
    rw [if_pos silenceable.1]
    exact ⟨loop_silent silenceable.2, rfl⟩
  next place =>
    simp only [Silenceable, place] at silenceable
  next => exact ⟨⟨trivial, nofun⟩, rfl⟩
  all_goals exact ⟨silent, rfl⟩

theorem complete_silent (silent : timer.Silent) (threw : Bool) :
    (timer.complete threw).Silent ∧ (timer.complete threw).invocations = timer.invocations := by
  have silenceable := silent.1
  unfold complete
  split
  next place =>
    simp only [Silenceable, place] at silenceable
    split
    · exact ⟨⟨trivial, nofun⟩, rfl⟩
    · exact ⟨loop_silent silenceable, rfl⟩
  all_goals exact ⟨silent, rfl⟩

/-- Nothing that happens to a silent timer makes it invoke its task. -/
theorem Turn.silent {later : UTimer} (turn : Turn timer later) (silent : timer.Silent) :
    later.Silent ∧ later.invocations = timer.invocations := by
  cases turn with
  | kept => exact ⟨silent, rfl⟩
  | started =>
    unfold start
    split
    next place =>
      have silenceable := silent.1
      simp only [Silenceable, place] at silenceable
      exact ⟨⟨silenceable, nofun⟩, rfl⟩
    next => exact ⟨silent, rfl⟩
  | resumed now => exact resume_silent silent now
  | completed threw => exact complete_silent silent threw
  | expired now =>
    have same : timer.expire now = timer := by simp [expire, silent.2]
    rw [same]
    exact ⟨silent, rfl⟩
  | cancelled => exact ⟨cancel_silent silent.1, cancel_invocations timer⟩
  | orphaned =>
    have orphaned : timer.cleanUpManager.Silenceable := silent.1
    exact ⟨cancel_silent orphaned, cancel_invocations _⟩
  | left =>
    unfold finish
    split
    next => exact ⟨⟨trivial, nofun⟩, rfl⟩
    next => exact ⟨silent, rfl⟩

end UTimer

theorem getElem?_modify_ite (update : UTimer → UTimer) (j : Nat)
    (present : m.timers[i]? = some timer) :
    (m.timers.modify j update)[i]? = some (if j = i then update timer else timer) := by
  rw [List.getElem?_modify, present]
  by_cases same : j = i
  · simp [same]
  · simp [same]

/-- A loop that updates the timers of all entries, for an update that changes
nothing the second time. -/
theorem getElem?_foldl_modify (update : UTimer → UTimer)
    (idempotent : ∀ timer, update (update timer) = update timer)
    (entries : List (Sigma fun _ : Int => Nat)) (timers : List UTimer) :
    (entries.foldl (fun timers entry => timers.modify entry.2 update) timers)[i]? =
      if ∃ entry ∈ entries, entry.2 = i then (timers[i]?).map update else timers[i]? := by
  induction entries generalizing timers with
  | nil => simp
  | cons entry rest ih =>
    rw [List.foldl_cons, ih, List.getElem?_modify]
    by_cases same : entry.2 = i
    · by_cases again : ∃ other ∈ rest, other.2 = i
      · simp [same, again, Function.comp_def, idempotent]
      · simp [same, again]
    · have others : (∃ other ∈ entry :: rest, other.2 = i) ↔ ∃ other ∈ rest, other.2 = i := by
        simp [same]
      by_cases again : ∃ other ∈ rest, other.2 = i
      · rw [if_pos again, if_pos (others.mpr again)]
        simp [same]
      · rw [if_neg again, if_neg (fun found => again (others.mp found))]
        simp [same]

theorem cancel_idempotent (timer : UTimer) :
    timer.cleanUpManager.cancel.cleanUpManager.cancel = timer.cleanUpManager.cancel := by
  unfold UTimer.cancel UTimer.cleanUpManager
  by_cases waits : timer.routine = .waiting
  · simp [waits]
  · simp [waits]

/-- What a section does to the timer `i`. -/
def TimerCall.act (m : UTimerManager) (i : Nat) (timer : UTimer) : TimerCall → UTimer
  | .start j => if j = i then timer.start else timer
  | .cancel j => if j = i then timer.cancel else timer
  | .cancelAll =>
    if ∃ entry ∈ m.timerMap.entries, entry.2 = i then timer.cleanUpManager.cancel else timer
  | .resume j => if j = i then timer.resume m.clock else timer
  | .complete j threw => if j = i then timer.complete threw else timer
  | .expire j => if j = i then timer.expire m.clock else timer
  | .leave j => if j = i then timer.finish else timer
  | .create .. | .createFresh .. | .createInsert .. | .cancelTimer _ | .elapse _ => timer

/-- The time after a section. -/
def TimerCall.tick (clock : Int) : TimerCall → Int
  | .elapse duration => clock + duration
  | .create .. | .createFresh .. | .createInsert .. | .start _ | .cancelTimer _ | .cancel _
  | .cancelAll | .resume _ | .complete .. | .expire _ | .leave _ => clock

/-- What a section does to the time and to the timers that are there. -/
theorem part_acts (reaches : Reaches call.part m rest m') : m'.clock = call.tick m.clock ∧
    ∀ {i timer}, m.timers[i]? = some timer → m'.timers[i]? = some (call.act m i timer) := by
  cases call with
  | create delay rate first =>
    obtain ⟨found, allocator, ran⟩ := m.allocateLocked_ok first
    have reaches := reaches.congr (bind_ok ran _)
    cases found with
    | none | some =>
      obtain ⟨-, rfl⟩ := reaches.of_ok rfl
      exact ⟨rfl, fun present => present⟩
  | createFresh =>
    obtain ⟨-, rfl⟩ := reaches.of_ok rfl
    exact ⟨rfl, fun present => present⟩
  | createInsert tid delay rate =>
    obtain ⟨timerMap, later, ran⟩ := m.createTimer_ok tid delay rate
    obtain ⟨-, rfl⟩ := reaches.of_ok (bind_ok ran _)
    refine ⟨rfl, fun present => ?_⟩
    have bound := (List.getElem?_eq_some_iff.mp present).1
    exact (List.getElem?_append_left bound).trans present
  | cancelTimer tid =>
    obtain ⟨-, rfl⟩ := reaches.of_ok (m.cancelTimer_ok tid)
    exact ⟨rfl, fun present => present⟩
  | start j | cancel j | resume j | complete j | expire j =>
    obtain ⟨-, rfl⟩ := reaches.of_ok rfl
    exact ⟨rfl, getElem?_modify_ite _ j⟩
  | cancelAll =>
    obtain ⟨-, rfl⟩ := reaches.of_ok rfl
    refine ⟨rfl, fun {i timer} present => ?_⟩
    have updated := getElem?_foldl_modify (i := i)
      (fun timer => timer.cleanUpManager.cancel) cancel_idempotent m.timerMap.entries m.timers
    rw [present] at updated
    refine updated.trans ?_
    simp only [TimerCall.act]
    split <;> rfl
  | leave j =>
    obtain ⟨timerMap, allocator, ran⟩ := m.leave_ok j
    obtain ⟨-, rfl⟩ := reaches.of_ok (bind_ok ran _)
    exact ⟨rfl, getElem?_modify_ite _ j⟩
  | elapse duration =>
    obtain ⟨-, rfl⟩ := reaches.of_ok rfl
    exact ⟨rfl, fun present => present⟩

theorem part_act (present : m.timers[i]? = some timer) (reaches : Reaches call.part m rest m') :
    m'.timers[i]? = some (call.act m i timer) :=
  (part_acts reaches).2 present

theorem act_turn (m : UTimerManager) (i : Nat) (timer : UTimer) (call : TimerCall) :
    UTimer.Turn timer (call.act m i timer) := by
  have own {applies : Prop} [Decidable applies] {next : UTimer} (turn : UTimer.Turn timer next) :
      UTimer.Turn timer (if applies then next else timer) := by
    split
    · exact turn
    · exact .kept
  cases call with
  | start => exact own .started
  | cancel => exact own .cancelled
  | resume => exact own (.resumed _)
  | complete => exact own (.completed _)
  | expire => exact own (.expired _)
  | leave => exact own .left
  | cancelAll => exact own .orphaned
  | create | createFresh | createInsert | cancelTimer | elapse => exact .kept

/-- What happens to a timer in every section. -/
theorem part_turn (present : m.timers[i]? = some timer) (reaches : Reaches call.part m rest m') :
    ∃ later, m'.timers[i]? = some later ∧ UTimer.Turn timer later :=
  ⟨_, part_act present reaches, act_turn m i timer call⟩

/-- The timer is silent, with these invocations behind it. -/
def Timers.Quiet (i : Nat) (invocations : List (Int × Option Int)) (config : Timers) : Prop :=
  ∃ timer, config.shared.timers[i]? = some timer ∧ timer.Silent ∧ timer.invocations = invocations

theorem Timers.Quiet.step {invocations : List (Int × Option Int)} {config later : Timers}
    {move : Move TimerCall} (quiet : Timers.Quiet i invocations config)
    (moved : Timers.step config move later) : Timers.Quiet i invocations later := by
  obtain ⟨timer, present, silent, same⟩ := quiet
  cases moved with
  | invoke => exact ⟨timer, present, silent, same⟩
  | advance pending reaches =>
    obtain ⟨next, present, turn⟩ := part_turn present reaches
    obtain ⟨silent, kept⟩ := turn.silent silent
    exact ⟨next, present, silent, kept.trans same⟩

/-- The section that cancels leaves the timer where it is, unless it waits. -/
theorem cancels_timer (present : m.timers[i]? = some timer) (cancels : m.Cancels i call)
    (reaches : Reaches call.part m rest m') : ∃ orphan, (orphan = timer ∨
      orphan = timer.cleanUpManager) ∧ m'.timers[i]? = some orphan.cancel := by
  cases call with
  | cancel j =>
    cases cancels
    obtain ⟨-, rfl⟩ := reaches.of_ok rfl
    refine ⟨timer, .inl rfl, ?_⟩
    simp [present]
  | cancelAll =>
    obtain ⟨-, rfl⟩ := reaches.of_ok rfl
    obtain ⟨tid, mapped⟩ := cancels
    have updated := getElem?_foldl_modify (i := i)
      (fun timer => timer.cleanUpManager.cancel) cancel_idempotent m.timerMap.entries m.timers
    have entry := List.of_mem_dlookup (Option.mem_def.mpr mapped)
    rw [if_pos ⟨⟨tid, i⟩, entry, rfl⟩, present] at updated
    exact ⟨timer.cleanUpManager, .inr rfl, updated⟩
  | _ => exact absurd cancels id

/-- Some run leads to more than `count` invocations of the timer. -/
def Timers.Loud (i count : Nat) (config : Timers) : Prop :=
  ∃ path, Transition.Path Timers.step config path ∧
    ∃ timer, (Transition.last config path).shared.timers[i]? = some timer ∧
      count < timer.invocations.length

theorem Timers.Loud.turn {count : Nat} (call : TimerCall) (starts : call.starts)
    (ran : call.part m = .ok none m') (loud : Timers.Loud i count ⟨m', calls⟩) :
    Timers.Loud i count ⟨m, calls⟩ := by
  obtain ⟨path, run, timer, present, more⟩ := loud
  exact ⟨Timers.turnRun call m m' calls ++ path,
    Transition.path_append.mpr ⟨Timers.turnRun_path calls starts ran, run⟩, timer, present, more⟩

theorem modify_present (update : UTimer → UTimer) (present : m.timers[i]? = some timer) :
    (m.timers.modify i update)[i]? = some (update timer) := by
  simp [present]

theorem fired_loud {count : Nat} (present : m.timers[i]? = some timer)
    (place : timer.routine = .fired) (same : timer.invocations.length = count) :
    Timers.Loud i count ⟨m, calls⟩ := by
  refine .turn (.resume i) rfl rfl ⟨[], trivial, _, modify_present _ present, ?_⟩
  simp [UTimer.resume_fired _ place, UTimer.invoke, same]

theorem waiting_loud {count : Nat} (present : m.timers[i]? = some timer)
    (place : timer.routine = .waiting) (same : timer.invocations.length = count) :
    Timers.Loud i count ⟨m, calls⟩ := by
  refine .turn (.elapse (timer.expiry - m.clock).toNat) rfl rfl ?_
  refine .turn (.expire i) rfl rfl ?_
  have due : timer.expiry ≤ m.clock + (timer.expiry - m.clock).toNat := by omega
  have fired := congrArg some (UTimer.expire_due place due)
  exact fired_loud ((modify_present _ present).trans fired) rfl same

theorem loop_waits (repeats : timer.rate > 0) : timer.loop.routine = .waiting := by
  simp [UTimer.loop, repeats]

theorem invoking_loud {count : Nat} (present : m.timers[i]? = some timer)
    (place : timer.routine = .invoking) (repeats : timer.rate > 0)
    (same : timer.invocations.length = count) : Timers.Loud i count ⟨m, calls⟩ := by
  refine .turn (.complete i false) rfl rfl ?_
  have completed := congrArg some (UTimer.complete_returned place)
  exact waiting_loud ((modify_present _ present).trans completed) (loop_waits repeats) same

theorem scheduled_loud {count : Nat} (present : m.timers[i]? = some timer)
    (place : timer.routine = .scheduled) (loud : ¬ (timer.delay > 0 ∧ timer.rate ≤ 0))
    (same : timer.invocations.length = count) : Timers.Loud i count ⟨m, calls⟩ := by
  by_cases delayed : timer.delay > 0
  · have repeats : timer.rate > 0 := Int32.not_le.mp fun spent => loud ⟨delayed, spent⟩
    refine .turn (.resume i) rfl rfl ?_
    have armed := congrArg some (UTimer.resume_delayed m.clock place delayed)
    exact waiting_loud ((modify_present _ present).trans armed) (loop_waits repeats) same
  · refine .turn (.resume i) rfl rfl ⟨[], trivial, _, modify_present _ present, ?_⟩
    simp [UTimer.resume_undelayed _ place delayed, UTimer.invoke, same]

/-- A timer that a cancellation does not silence still has a run to another
invocation. -/
theorem not_silenceable_loud (present : m.timers[i]? = some timer) (loud : ¬ timer.Silenceable) :
    Timers.Loud i timer.invocations.length ⟨m, calls⟩ := by
  unfold UTimer.Silenceable at loud
  split at loud
  next place =>
    refine .turn (.start i) rfl rfl ?_
    have started := congrArg some (UTimer.start_absent place)
    exact scheduled_loud ((modify_present _ present).trans started) rfl loud rfl
  next place => exact scheduled_loud present place loud rfl
  next place => exact invoking_loud present place (Int32.not_le.mp loud) rfl
  next place => exact fired_loud present place rfl
  all_goals exact absurd trivial loud

theorem cancel_loud {orphan : UTimer} (loud : ¬ orphan.Silenceable) : orphan.cancel = orphan := by
  unfold UTimer.cancel
  split
  next waits =>
    refine absurd ?_ loud
    simp [UTimer.Silenceable, waits]
  next => rfl

open Transition in
/-- After a cancellation no run invokes the task again if and only if the timer
was waiting, or would not have come to another invocation anyway. -/
theorem silenced_iff_silenceable {config later : Timers}
    (present : config.shared.timers[i]? = some timer)
    (cancels : config.shared.Cancels i call) (moved : Timers.step config (.advance call) later) :
    (∀ path, Path Timers.step later path →
      Always (fun next => next.shared.invocations i = later.shared.invocations i) later path) ↔
      timer.Silenceable := by
  cases moved with
  | @advance m m' calls call rest pending reaches =>
    obtain ⟨orphan, from', updated⟩ := cancels_timer present cancels reaches
    have same : orphan.Silenceable ↔ timer.Silenceable := by
      rcases from' with rfl | rfl <;> exact Iff.rfl
    constructor
    · intro silenced
      rw [← same]
      by_contra loud
      rw [cancel_loud loud] at updated
      obtain ⟨path, run, next, there, more⟩ := not_silenceable_loud updated loud
      have kept := (silenced path run).last
      simp only [UTimerManager.invocations, there, updated, Option.map_some,
        Option.some.injEq] at kept
      rw [kept] at more
      exact lt_irrefl _ more
    · intro silenceable path run
      have quiet : Timers.Quiet i orphan.cancel.invocations
          ⟨m', resume rest (calls.erase call)⟩ :=
        ⟨_, updated, UTimer.cancel_silent (same.mpr silenceable), rfl⟩
      have always := run.invariant (fun quiet moved => Timers.Quiet.step quiet moved) quiet
      refine always.imp fun next quiet => ?_
      obtain ⟨timer, there, -, invocations⟩ := quiet
      simp only [UTimerManager.invocations, there, updated, Option.map_some, invocations]

/-- The task of a timer with the rate 1 cancels its timer: the call has found it. -/
def selfCancelling : List (Move TimerCall × Timers) :=
  Timers.runs ⟨.new, 0⟩
    [.invoke (.create 0 1 0), .advance (.create 0 1 0), .advance (.createFresh 0 1),
      .advance (.createInsert 1 0 1), .invoke (.start 0), .advance (.start 0),
      .invoke (.resume 0), .advance (.resume 0), .invoke (.cancelTimer 1),
      .advance (.cancelTimer 1)]

def selfCancelled : List (Move TimerCall × Timers) :=
  Timers.runs (Transition.last ⟨.new, 0⟩ selfCancelling) [.advance (.cancel 0)]

/-- Its coroutine arms the timer again, and the task is invoked once more. -/
def invokedAgain : List (Move TimerCall × Timers) :=
  Timers.runs (Transition.last (Transition.last ⟨.new, 0⟩ selfCancelling) selfCancelled)
    [.invoke (.complete 0 false), .advance (.complete 0 false), .invoke (.elapse 100),
      .advance (.elapse 100), .invoke (.expire 0), .advance (.expire 0), .invoke (.resume 0),
      .advance (.resume 0)]

theorem selfCancelled_invoked :
    Transition.Path Timers.step ⟨.new, 0⟩ selfCancelling ∧
      (Transition.last ⟨.new, 0⟩ selfCancelling).shared.Cancels 0 (.cancel 0) ∧
      Timers.step (Transition.last ⟨.new, 0⟩ selfCancelling) (.advance (.cancel 0))
        (Transition.last (Transition.last ⟨.new, 0⟩ selfCancelling) selfCancelled) ∧
      ¬ ∀ path, Transition.Path Timers.step
          (Transition.last (Transition.last ⟨.new, 0⟩ selfCancelling) selfCancelled) path →
        Transition.Always (fun next => next.shared.invocations 0 =
            (Transition.last (Transition.last ⟨.new, 0⟩ selfCancelling)
              selfCancelled).shared.invocations 0)
          (Transition.last (Transition.last ⟨.new, 0⟩ selfCancelling) selfCancelled) path := by
  refine ⟨Timers.runs_path _ _, rfl, following_step rfl, fun silenced => ?_⟩
  have kept := (silenced invokedAgain (Timers.runs_path _ _)).last
  revert kept
  decide +kernel

/-- A timer with the delay 5 and the rate 1 waits for its first expiry, and a
cancellation has found it. -/
def waitingTimer : List (Move TimerCall × Timers) :=
  Timers.runs ⟨.new, 0⟩
    [.invoke (.create 5 1 0), .advance (.create 5 1 0), .advance (.createFresh 5 1),
      .advance (.createInsert 1 5 1), .invoke (.start 0), .advance (.start 0),
      .invoke (.resume 0), .advance (.resume 0), .invoke (.cancelTimer 1),
      .advance (.cancelTimer 1)]

def waitingCancelled : List (Move TimerCall × Timers) :=
  Timers.runs (Transition.last ⟨.new, 0⟩ waitingTimer) [.advance (.cancel 0)]

theorem silenced_iff_silenceable_waiting :
    Transition.Path Timers.step ⟨.new, 0⟩ waitingTimer ∧
      (Transition.last ⟨.new, 0⟩ waitingTimer).shared.timerMap.lookup 1 = some 0 ∧
      ((UTimer.setUp 1 5 1).start.resume 0).routine = .waiting ∧
      ((∀ path, Transition.Path Timers.step
          (Transition.last (Transition.last ⟨.new, 0⟩ waitingTimer) waitingCancelled) path →
        Transition.Always (fun next => next.shared.invocations 0 =
            (Transition.last (Transition.last ⟨.new, 0⟩ waitingTimer)
              waitingCancelled).shared.invocations 0)
          (Transition.last (Transition.last ⟨.new, 0⟩ waitingTimer) waitingCancelled) path) ↔
        ((UTimer.setUp 1 5 1).start.resume 0).Silenceable) := by
  have present : (Transition.last ⟨.new, 0⟩ waitingTimer).shared.timers[0]? =
      some ((UTimer.setUp 1 5 1).start.resume 0) := by decide +kernel
  have cancels : (Transition.last ⟨.new, 0⟩ waitingTimer).shared.Cancels 0 (.cancel 0) := rfl
  refine ⟨Timers.runs_path _ _, by decide +kernel, by decide +kernel, ?_⟩
  exact silenced_iff_silenceable present cancels (following_step rfl)

end Uranus
