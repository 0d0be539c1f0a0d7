import Uranus.Timer.StaleIds

/-! What `CancelAll` leaves behind. It takes their manager from the timers that it
cancels, and a coroutine without a manager does not remove its timer at its end:
what was in the map then stays there, and its id is never given out again. -/
namespace Uranus
open Foundation Program Interleaving
variable {m m' : UTimerManager} {call : TimerCall} {rest : Option TimerCall} {i : Nat}
  {timer next : UTimer} {tid : Int} {config later : Timers} {move : Move TimerCall}
  {calls : Multiset TimerCall}

namespace Timers

/-- The id has been given to a timer that is newer than the state `before`. -/
def GivenAnew (config : Timers) (before : UTimerManager) (tid : Int) : Prop :=
  config.Creating tid ∨
    ∃ j, config.shared.timerMap.lookup tid = some j ∧ before.timers.length ≤ j

/-- The coroutine of the timer has finished. -/
def Ended (i : Nat) (config : Timers) : Prop :=
  (config.shared.timers[i]?).map UTimer.routine = some .finished

/-- The coroutines of the timers that were in the map have finished. -/
def Over (config : Timers) (before : UTimerManager) : Prop :=
  ∀ tid i, before.timerMap.lookup tid = some i → Ended i config

/-- The timers that were in the map are gone, and their ids are free or given to
other timers. -/
structure Emptied (config : Timers) (before : UTimerManager) : Prop where
  removed : ∀ tid i, before.timerMap.lookup tid = some i →
    ∀ other, config.shared.timerMap.lookup other ≠ some i
  unfound : ∀ tid i, before.timerMap.lookup tid = some i → config.GivenAnew before tid ∨
    UTimerManager.findTimer tid config.shared = .ok none config.shared
  free : ∀ tid i, before.timerMap.lookup tid = some i → config.GivenAnew before tid ∨
    tid ∈ config.shared.allocator.hashSet

/-- The timer is in the map and has no manager. -/
structure Orphaned (tid : Int) (i : Nat) (config : Timers) : Prop where
  sound : config.Sound
  keyed : config.shared.timerMap.lookup tid = some i
  orphan : ∃ timer, config.shared.timers[i]? = some timer ∧ timer.manager = false

end Timers

/-- A coroutine without a manager leaves the map as it is. -/
theorem leave_orphan (present : m.timers[i]? = some timer) (orphan : timer.manager = false)
    (reaches : Reaches (TimerCall.part (.leave i)) m rest m') : m'.timerMap = m.timerMap := by
  have ran : ∃ timers, UTimerManager.leave i m = .ok () { m with timers } := by
    simp only [UTimerManager.leave, get_bind, present]
    by_cases leaving : timer.routine = .leaving
    · simp only [leaving, ne_eq, not_true, if_false, orphan, Bool.false_eq_true]
      exact ⟨_, rfl⟩
    · simp only [leaving, ne_eq, not_false_iff, if_true]
      exact ⟨m.timers, rfl⟩
  obtain ⟨timers, ran⟩ := ran
  obtain ⟨-, rfl⟩ := reaches.of_ok (bind_ok ran _)
  rfl

namespace Timers

theorem Orphaned.kept (orphaned : Orphaned tid i ⟨m, calls⟩) (pending : call ∈ calls)
    (reaches : Reaches call.part m rest m') : m'.timerMap.lookup tid = some i := by
  obtain ⟨sound, keyed, timer, present, orphan⟩ := orphaned
  cases timer_effect reaches with
  | took | fresh | refused | turned => exact keyed
  | @inserted _ _ fresh absent =>
    have other : tid ≠ fresh := by
      rintro rfl
      cases absent.symm.trans keyed
    rwa [Table.lookup_insert_ite, if_neg other]
  | @removed j _ before leaving =>
    by_cases same : j = i
    · subst same
      rwa [← leave_orphan present orphan reaches] at keyed
    · have unmistaken := sound.unmistaken (.advance pending reaches)
      exact unmistaken.own j rfl tid i keyed fun own => same own.symm

theorem Orphaned.step (orphaned : Orphaned tid i config) (moved : Timers.step config move later) :
    Orphaned tid i later := by
  have sound := orphaned.sound.step moved
  cases moved with
  | invoke => exact ⟨sound, orphaned.keyed, orphaned.orphan⟩
  | @advance m m' calls call rest pending reaches =>
    obtain ⟨timer, present, orphan⟩ := orphaned.orphan
    obtain ⟨next, found, turn⟩ := part_turn present reaches
    exact ⟨sound, orphaned.kept pending reaches, next, found, (turn_stays turn).orphan orphan⟩

/-- `CancelAll` orphans every timer of the map. -/
theorem Sound.orphaned (sound : config.Sound)
    (moved : Timers.step config (.advance .cancelAll) later)
    (keyed : config.shared.timerMap.lookup tid = some i) : Orphaned tid i later := by
  have after := sound.step moved
  obtain ⟨timer, present, -⟩ := sound.created keyed
  cases moved with
  | @advance m m' calls call rest pending reaches =>
    have acted := part_act present reaches
    obtain ⟨-, rfl⟩ := reaches.of_ok rfl
    refine ⟨after, keyed, _, acted, ?_⟩
    have entry : ∃ entry ∈ m.timerMap.entries, entry.2 = i :=
      ⟨⟨tid, i⟩, List.of_mem_dlookup keyed, rfl⟩
    have orphan : timer.cleanUpManager.manager = false := rfl
    rw [TimerCall.act, if_pos entry]
    exact (turn_stays .cancelled).orphan orphan

open Transition in
/-- Some run leads to the end of the coroutine. -/
def Finishes (i : Nat) (config : Timers) : Prop :=
  ∃ path, Path Timers.step config path ∧ Ended i (last config path)

theorem Finishes.turn (call : TimerCall) (starts : call.starts) (ran : call.part m = .ok none m')
    (finishes : Finishes i ⟨m', calls⟩) : Finishes i ⟨m, calls⟩ := by
  obtain ⟨path, run, ended⟩ := finishes
  exact ⟨turnRun call m m' calls ++ path,
    Transition.path_append.mpr ⟨turnRun_path calls starts ran, run⟩, ended⟩

theorem leaving_finishes (present : m.timers[i]? = some timer) (place : timer.routine = .leaving) :
    Finishes i ⟨m, calls⟩ := by
  obtain ⟨timerMap, allocator, ran⟩ := m.leave_ok i
  refine .turn (.leave i) rfl (bind_ok ran _) ⟨[], trivial, ?_⟩
  change ((m.timers.modify i UTimer.finish)[i]?).map UTimer.routine = _
  rw [modify_present _ present, UTimer.finish_leaving place]
  rfl

theorem invoking_finishes (present : m.timers[i]? = some timer)
    (place : timer.routine = .invoking) : Finishes i ⟨m, calls⟩ := by
  refine .turn (.complete i true) rfl rfl (leaving_finishes (modify_present _ present) ?_)
  rw [UTimer.complete_threw place]

theorem fired_finishes (present : m.timers[i]? = some timer) (place : timer.routine = .fired) :
    Finishes i ⟨m, calls⟩ := by
  refine .turn (.resume i) rfl rfl (invoking_finishes (modify_present _ present) ?_)
  rw [UTimer.resume_fired _ place]
  rfl

theorem waiting_finishes (present : m.timers[i]? = some timer) (place : timer.routine = .waiting) :
    Finishes i ⟨m, calls⟩ := by
  refine .turn (.elapse (timer.expiry - m.clock).toNat) rfl rfl ?_
  refine .turn (.expire i) rfl rfl (fired_finishes (modify_present _ present) ?_)
  have due : timer.expiry ≤ m.clock + (timer.expiry - m.clock).toNat := by omega
  rw [UTimer.expire_due place due]

theorem loop_finishes (present : m.timers[i]? = some timer.loop) : Finishes i ⟨m, calls⟩ := by
  by_cases repeats : timer.rate > 0
  · exact waiting_finishes present (if_pos repeats)
  · exact leaving_finishes present (if_neg repeats)

theorem scheduled_finishes (present : m.timers[i]? = some timer)
    (place : timer.routine = .scheduled) : Finishes i ⟨m, calls⟩ := by
  refine .turn (.resume i) rfl rfl ?_
  have resumed := modify_present (UTimer.resume m.clock) present
  by_cases delayed : timer.delay > 0
  · rw [UTimer.resume_delayed _ place delayed] at resumed
    exact loop_finishes resumed
  · rw [UTimer.resume_undelayed _ place delayed] at resumed
    exact invoking_finishes resumed rfl

theorem Finishes.of_present (present : m.timers[i]? = some timer) : Finishes i ⟨m, calls⟩ := by
  cases place : timer.routine with
  | absent =>
    refine .turn (.start i) rfl rfl (scheduled_finishes (modify_present _ present) ?_)
    rw [UTimer.start_absent place]
  | scheduled => exact scheduled_finishes present place
  | invoking => exact invoking_finishes present place
  | waiting => exact waiting_finishes present place
  | fired => exact fired_finishes present place
  | aborted =>
    refine .turn (.resume i) rfl rfl (leaving_finishes (modify_present _ present) ?_)
    simp only [UTimer.resume, place]
  | leaving => exact leaving_finishes present place
  | finished =>
    refine ⟨[], trivial, ?_⟩
    change (m.timers[i]?).map UTimer.routine = _
    rw [present, Option.map_some, place]

theorem Ended.step (ended : Ended i config) (moved : Timers.step config move later) :
    Ended i later := by
  cases moved with
  | invoke => exact ended
  | advance pending reaches =>
    obtain ⟨timer, present, place⟩ := Option.map_eq_some_iff.mp ended
    obtain ⟨next, found, turn⟩ := part_turn present reaches
    exact Option.map_eq_some_iff.mpr ⟨next, found, turn_finished turn place⟩

/-- A timer that was made stays at its position. -/
def Made (i : Nat) (config : Timers) : Prop := ∃ timer, config.shared.timers[i]? = some timer

theorem Made.step (made : Made i config) (moved : Timers.step config move later) :
    Made i later := by
  obtain ⟨timer, present⟩ := made
  cases moved with
  | invoke => exact ⟨timer, present⟩
  | advance pending reaches => exact ⟨_, part_act present reaches⟩

open Transition in
/-- All the timers of a list can come to their ends, one after another. -/
theorem finish_all (entries : List (Sigma fun _ : Int => Nat))
    (made : ∀ entry ∈ entries, Made entry.2 config) :
    ∃ path, Path Timers.step config path ∧ ∀ entry ∈ entries, Ended entry.2 (last config path) := by
  induction entries with
  | nil => exact ⟨[], trivial, nofun⟩
  | cons entry rest ih =>
    obtain ⟨first, run, others⟩ := ih fun entry member => made entry (List.mem_cons_of_mem _ member)
    have still : Made entry.2 (last config first) :=
      (run.invariant (fun made moved => made.step moved) (made entry List.mem_cons_self)).last
    obtain ⟨timer, present⟩ := still
    obtain ⟨second, onward, ended⟩ : Finishes entry.2 (last config first) := .of_present present
    refine ⟨first ++ second, path_append.mpr ⟨run, onward⟩, ?_⟩
    rw [last_append]
    intro other member
    rcases List.mem_cons.mp member with rfl | earlier
    · exact ended
    · exact (onward.invariant (fun ended moved => ended.step moved) (others other earlier)).last

open Transition in
/-- The timers that were in the map can all come to their ends after `CancelAll`. -/
theorem Sound.comes_over (sound : config.Sound)
    (moved : Timers.step config (.advance .cancelAll) later) :
    ∃ path, Path Timers.step later path ∧ (last later path).Over config.shared := by
  have made : ∀ entry ∈ config.shared.timerMap.entries, Made entry.2 later := by
    intro entry member
    have keyed := List.mem_dlookup config.shared.timerMap.nodupKeys member
    obtain ⟨timer, present, -⟩ := sound.created keyed
    exact Made.step ⟨timer, present⟩ moved
  obtain ⟨path, run, ended⟩ := finish_all _ made
  exact ⟨path, run, fun tid i keyed => ended ⟨tid, i⟩ (List.of_mem_dlookup keyed)⟩

end Timers

open Transition in
/-- `CancelAll` empties the map in the end if and only if the map was empty before. -/
theorem emptied_iff_nothingMapped {path : List (Move TimerCall × Timers)}
    (run : Path Timers.step ⟨.new, 0⟩ path)
    (moved : Timers.step (last ⟨.new, 0⟩ path) (.advance .cancelAll) later) :
    (∀ rest, Path Timers.step later rest → (last later rest).Over (last ⟨.new, 0⟩ path).shared →
      (last later rest).Emptied (last ⟨.new, 0⟩ path).shared) ↔
        (last ⟨.new, 0⟩ path).shared.timerMap = ∅ := by
  have sound : (last ⟨.new, 0⟩ path).Sound :=
    (Timers.Sound.of_run run).last
  constructor
  · intro emptied
    obtain ⟨rest, onward, finished⟩ := sound.comes_over moved
    by_contra nonempty
    obtain ⟨tid, i, member⟩ := Table.entry_of_nonempty nonempty
    have keyed := List.mem_dlookup (last ⟨.new, 0⟩ path).shared.timerMap.nodupKeys member
    have orphaned : Timers.Orphaned tid i (last later rest) :=
      (onward.invariant (fun orphaned moved => orphaned.step moved)
        (sound.orphaned moved keyed)).last
    exact (emptied rest onward finished).removed tid i keyed tid orphaned.keyed
  · intro empty rest onward _
    have unkeyed (tid : Int) (i : Nat) :
        (last ⟨.new, 0⟩ path).shared.timerMap.lookup tid ≠ some i := by
      rw [empty]
      exact nofun
    exact ⟨fun tid i keyed => absurd keyed (unkeyed tid i),
      fun tid i keyed => absurd keyed (unkeyed tid i),
      fun tid i keyed => absurd keyed (unkeyed tid i)⟩

/-- A repeated timer waits, and `CancelAll` is called. -/
def oneWaiting : List (Move TimerCall × Timers) :=
  Timers.runs ⟨.new, 0⟩
    [.invoke (.create 5 1 0), .advance (.create 5 1 0), .advance (.createFresh 5 1),
      .advance (.createInsert 1 5 1), .invoke (.start 0), .advance (.start 0),
      .invoke (.resume 0), .advance (.resume 0), .invoke .cancelAll]

/-- The state after `CancelAll`. -/
def waitAborted : Timers where
  shared := {
    allocator := (TIdentAllocator.allocateFresh .new).2
    timerMap := (∅ : Table Int Nat).insert 1 0
    timers := [{ UTimer.setUp 1 5 1 with
      manager := false
      routine := .aborted
      delta := some 500
      point := 500
      expiry := 500 }]
    clock := 0 }
  calls := 0

theorem oneWaiting_cancelled :
    Timers.step (Transition.last ⟨.new, 0⟩ oneWaiting) (.advance .cancelAll) waitAborted :=
  following_step (by rfl)

theorem oneWaiting_map :
    (Transition.last ⟨.new, 0⟩ oneWaiting).shared.timerMap = (∅ : Table Int Nat).insert 1 0 := by
  rfl

/-- The coroutine of the timer comes to its end. -/
def abortedEnds : List (Move TimerCall × Timers) :=
  waitAborted.runs [.invoke (.resume 0), .advance (.resume 0), .invoke (.leave 0),
    .advance (.leave 0)]

/-- Its entry stays, with its id in use. -/
theorem abortedEnds_mapped :
    Transition.Path Timers.step ⟨.new, 0⟩ oneWaiting ∧
      Timers.step (Transition.last ⟨.new, 0⟩ oneWaiting) (.advance .cancelAll) waitAborted ∧
      Transition.Path Timers.step waitAborted abortedEnds ∧
      (Transition.last waitAborted abortedEnds).Over
        (Transition.last ⟨.new, 0⟩ oneWaiting).shared ∧
      ¬ (Transition.last waitAborted abortedEnds).Emptied
        (Transition.last ⟨.new, 0⟩ oneWaiting).shared := by
  refine ⟨Timers.runs_path _ _, oneWaiting_cancelled, Timers.runs_path _ _, ?_, ?_⟩
  · intro tid i keyed
    rw [oneWaiting_map, Table.lookup_insert_ite] at keyed
    split at keyed
    · cases keyed
      unfold Timers.Ended
      decide +kernel
    · cases keyed
  · intro emptied
    have keyed : (Transition.last ⟨.new, 0⟩ oneWaiting).shared.timerMap.lookup 1 = some 0 := by
      decide +kernel
    exact emptied.removed 1 0 keyed 1 (by decide +kernel)

theorem emptied_iff_nothingMapped_one :
    (∀ rest, Transition.Path Timers.step waitAborted rest →
      (Transition.last waitAborted rest).Over
          (Transition.last ⟨.new, 0⟩ oneWaiting).shared →
        (Transition.last waitAborted rest).Emptied
          (Transition.last ⟨.new, 0⟩ oneWaiting).shared) ↔
      (Transition.last ⟨.new, 0⟩ oneWaiting).shared.timerMap = ∅ :=
  emptied_iff_nothingMapped (Timers.runs_path _ _) oneWaiting_cancelled

end Uranus
