import Uranus.Timer.Schedule

/-! The course of a timer whose plan can be kept: where its coroutine stands, it has
the invocations up to the present behind it and the next one before it. -/
namespace Uranus
open Foundation Program Interleaving
variable {m m' : UTimerManager} {call : TimerCall} {rest : Option TimerCall} {i : Nat}
  {timer : UTimer} {units : Int32}

namespace TimerPlan
variable {plan : TimerPlan} {start : Int}

/-- Where the timer stands in its schedule. -/
def Place (plan : TimerPlan) (start : Int) (i : Nat) (m : UTimerManager) (timer : UTimer) : Prop :=
  match timer.routine with
  | .scheduled => timer.invocations.length = 0 ∧ m.clock = start
  | .waiting => plan.rate > 0 ∧ timer.point = plan.point start timer.invocations.length ∧
      timer.expiry = timer.point ∧ m.clock ≤ timer.point
  | .fired => plan.rate > 0 ∧ timer.point = plan.point start timer.invocations.length ∧
      m.clock = timer.point
  | .invoking => ∃ k, timer.invocations.length = k + 1 ∧ timer.point = plan.point start k ∧
      (plan.rate > 0 → m.clock ≤ plan.point start (k + 1)) ∧ (plan.rate ≤ 0 → k = 0)
  | .leaving => plan.rate ≤ 0 ∧ timer.invocations.length = 1
  | .finished => plan.rate ≤ 0 ∧ timer.invocations.length = 1 ∧
      ∀ tid, m.timerMap.lookup tid ≠ some i
  | .absent | .aborted => False

/-- What holds of the timer in all its runs. -/
structure Course (plan : TimerPlan) (start : Int) (i : Nat) (m : UTimerManager)
    (timer : UTimer) : Prop where
  delay : timer.delay = plan.delay
  rate : timer.rate = plan.rate
  manager : timer.manager = true
  points : timer.invocations.map Prod.fst =
    (List.range timer.invocations.length).map (plan.point start)
  place : plan.Place start i m timer

theorem not_repeats : plan.rate ≤ 0 ↔ ¬ plan.rate > 0 := Int32.not_lt.symm

theorem start_le_point (plan : TimerPlan) (start : Int) {k : Nat}
    (counts : k = 0 ∨ plan.rate > 0) : start ≤ plan.point start k := by
  rcases counts with rfl | repeats
  · rw [point_zero]
    omega
  · have positive : 0 < plan.rate.toInt := Int32.lt_iff_toInt_lt.mp repeats
    have later : 0 ≤ (k : Int) * (plan.rate.toInt * 100) := Int.mul_nonneg (by omega) (by omega)
    rw [point]
    omega

theorem Course.due (course : plan.Course start i m timer) {k : Nat}
    (counts : k = 0 ∨ plan.rate > 0) (past : plan.point start k < m.clock) :
    k < timer.invocations.length := by
  have place := course.place
  cases routine : timer.routine with
  | absent | aborted =>
    simp only [Place, routine] at place
  | scheduled =>
    simp only [Place, routine] at place
    have begun := start_le_point plan start counts
    omega
  | waiting =>
    simp only [Place, routine] at place
    obtain ⟨repeats, point, -, clock⟩ := place
    exact (point_lt_iff repeats start).mp (by omega)
  | fired =>
    simp only [Place, routine] at place
    obtain ⟨repeats, point, clock⟩ := place
    exact (point_lt_iff repeats start).mp (by omega)
  | invoking =>
    simp only [Place, routine] at place
    obtain ⟨last, count, -, clock, -⟩ := place
    rw [count]
    rcases counts with rfl | repeats
    · exact Nat.succ_pos last
    · exact (point_lt_iff repeats start).mp (past.trans_le (clock repeats))
  | leaving | finished =>
    simp only [Place, routine] at place
    have only := counts.resolve_right (not_repeats.mp place.1)
    omega

/-- A timer in its course is on its schedule. -/
theorem Course.onSchedule (course : plan.Course start i m timer) :
    plan.OnSchedule start i m timer := by
  have place := course.place
  refine ⟨course.points, fun k => course.due, fun repeats => ?_, fun single => ?_, fun ended => ?_⟩
  · have repeated : ¬ plan.rate ≤ 0 := fun single => not_repeats.mp single repeats
    refine ⟨fun routine => ?_, fun routine => ?_, fun routine => ?_⟩
    · simp only [Place, routine] at place
    · simp only [Place, routine] at place
      exact repeated place.1
    · simp only [Place, routine] at place
      exact repeated place.1
  · have spent := not_repeats.mp single
    cases routine : timer.routine with
    | absent | aborted =>
      simp only [Place, routine] at place
    | scheduled =>
      simp only [Place, routine] at place
      exact ⟨by omega, nofun⟩
    | waiting | fired =>
      simp only [Place, routine] at place
      exact absurd place.1 spent
    | invoking =>
      simp only [Place, routine] at place
      obtain ⟨last, count, -, -, only⟩ := place
      have first := only single
      exact ⟨by omega, nofun⟩
    | leaving =>
      simp only [Place, routine] at place
      exact ⟨by omega, fun _ => place.2⟩
    | finished =>
      simp only [Place, routine] at place
      exact ⟨by omega, fun _ => place.2.1⟩
  · simp only [Place, ended] at place
    exact place.2.2

/-- The time and the map may be other ones, if the time is the same and the timer is
not entered again. -/
theorem Course.carry (course : plan.Course start i m timer) (clock : m'.clock = m.clock)
    (kept : (∀ tid, m.timerMap.lookup tid ≠ some i) → ∀ tid, m'.timerMap.lookup tid ≠ some i) :
    plan.Course start i m' timer := by
  refine ⟨course.delay, course.rate, course.manager, course.points, ?_⟩
  have place := course.place
  cases routine : timer.routine with
  | finished =>
    simp only [Place, routine] at place ⊢
    exact ⟨place.1, place.2.1, kept place.2.2⟩
  | absent | aborted => simp only [Place, routine] at place
  | scheduled | waiting | fired | invoking | leaving =>
    simp only [Place, routine, clock] at place ⊢
    exact place

/-- One more invocation at the time point of the schedule. -/
theorem points_invoke {invocations : List (Int × Option Int)} (delta : Option Int)
    (points : invocations.map Prod.fst = (List.range invocations.length).map (plan.point start)) :
    (invocations ++ [(plan.point start invocations.length, delta)]).map Prod.fst =
      (List.range (invocations.length + 1)).map (plan.point start) := by
  rw [List.map_append, points, List.range_succ, List.map_append]
  rfl

/-- The next wait of a repeated timer. -/
theorem loop_arm (repeats : timer.rate > 0) (delta : Int) : (timer.arm delta).loop =
    { timer with
      routine := .waiting
      delta := some delta
      point := timer.point + delta
      expiry := timer.point + delta } := by
  have again : (timer.arm delta).rate > 0 := repeats
  rw [UTimer.loop, if_pos again]
  rfl

theorem loop_leaving (single : timer.rate ≤ 0) (delta : Int) :
    (timer.arm delta).loop.routine = .leaving := by
  have spent : ¬ (timer.arm delta).rate > 0 := Int32.not_lt.mpr single
  simp only [UTimer.loop, if_neg spent]

/-- The return of the task touches neither the parameters nor the history. -/
theorem complete_parameters (timer : UTimer) (threw : Bool) :
    (timer.complete threw).delay = timer.delay ∧ (timer.complete threw).rate = timer.rate ∧
      (timer.complete threw).manager = timer.manager ∧
        (timer.complete threw).invocations = timer.invocations := by
  unfold UTimer.complete
  split
  next =>
    split
    · exact ⟨rfl, rfl, rfl, rfl⟩
    · exact ⟨rfl, rfl, rfl, rfl⟩
  all_goals exact ⟨rfl, rfl, rfl, rfl⟩

theorem Course.resume (course : plan.Course start i m timer) (keepable : plan.Keepable) :
    plan.Course start i m (timer.resume m.clock) := by
  have place := course.place
  have points := course.points
  cases routine : timer.routine with
  | scheduled =>
    simp only [Place, routine] at place
    obtain ⟨none, clock⟩ := place
    by_cases delayed : plan.delay > 0
    · obtain ⟨repeats, -, fits, -⟩ | ⟨-, undelayed, -⟩ := keepable
      · have positive : 0 < plan.delay.toInt := Int32.lt_iff_toInt_lt.mp delayed
        have first : plan.point start 0 = m.clock + plan.delay.toInt * 100 := by
          rw [point_zero, max_eq_left positive.le, clock]
        have delta : UTimer.milliseconds timer.delay = plan.delay.toInt * 100 := by
          rw [course.delay, milliseconds_fits (fits delayed)]
        rw [UTimer.resume_delayed _ routine (course.delay ▸ delayed),
          loop_arm (course.rate ▸ repeats), delta]
        refine ⟨course.delay, course.rate, course.manager, points, ?_⟩
        simp only [Place, none, first]
        exact ⟨repeats, trivial, trivial, by omega⟩
      · exact absurd delayed (Int32.not_lt.mpr undelayed)
    · have undelayed : plan.delay.toInt ≤ 0 := Int32.le_iff_toInt_le.mp (Int32.not_lt.mp delayed)
      have first : plan.point start 0 = m.clock := by
        rw [point_zero]
        omega
      have entered := points_invoke timer.delta points
      rw [none, first] at entered
      rw [UTimer.resume_undelayed _ routine (course.delay ▸ delayed)]
      refine ⟨course.delay, course.rate, course.manager, ?_, ?_⟩
      · simpa [UTimer.invoke, none] using entered
      · simp only [Place, UTimer.invoke]
        refine ⟨0, by simp [none], first.symm, fun repeats => ?_, fun _ => rfl⟩
        have ordered : plan.point start 0 < plan.point start (0 + 1) :=
          (point_lt_iff repeats start).mpr (Nat.lt_succ_self 0)
        omega
  | fired =>
    simp only [Place, routine] at place
    obtain ⟨repeats, point, clock⟩ := place
    have entered := points_invoke timer.delta points
    rw [← point] at entered
    rw [UTimer.resume_fired _ routine]
    refine ⟨course.delay, course.rate, course.manager, ?_, ?_⟩
    · simpa [UTimer.invoke] using entered
    · simp only [Place, UTimer.invoke]
      refine ⟨timer.invocations.length, by simp, point, fun repeats => ?_, fun single => ?_⟩
      · have ordered : plan.point start timer.invocations.length <
            plan.point start (timer.invocations.length + 1) :=
          (point_lt_iff repeats start).mpr (Nat.lt_succ_self _)
        omega
      · exact absurd repeats (not_repeats.mp single)
  | absent | aborted => simp only [Place, routine] at place
  | waiting | invoking | leaving | finished =>
    have same : timer.resume m.clock = timer := by simp only [UTimer.resume, routine]
    rw [same]
    exact course

theorem Course.complete (course : plan.Course start i m timer) (keepable : plan.Keepable)
    {threw : Bool} (planned : timer.routine = .invoking →
      threw = plan.throws (timer.invocations.length - 1)) :
    plan.Course start i m (timer.complete threw) := by
  have place := course.place
  cases routine : timer.routine with
  | invoking =>
    simp only [Place, routine] at place
    obtain ⟨k, count, point, clock, single⟩ := place
    have outcome := planned routine
    rw [count, Nat.add_sub_cancel] at outcome
    obtain ⟨repeats, fits, -, returns⟩ | ⟨spent, -, -⟩ := keepable
    · have returned := outcome.trans (returns k)
      subst returned
      have before := clock repeats
      have next := point_succ plan start k
      have delta : UTimer.milliseconds timer.rate = plan.rate.toInt * 100 := by
        rw [course.rate, milliseconds_fits fits]
      rw [UTimer.complete_returned routine, loop_arm (course.rate ▸ repeats), delta]
      refine ⟨course.delay, course.rate, course.manager, course.points, ?_⟩
      simp only [Place, count, next, point]
      exact ⟨repeats, trivial, trivial, by omega⟩
    · have only := single spent
      have left : (timer.complete threw).routine = .leaving := by
        simp only [UTimer.complete, routine]
        split
        · rfl
        · exact loop_leaving (course.rate ▸ spent) _
      obtain ⟨delay, rate, manager, invocations⟩ := complete_parameters timer threw
      refine ⟨delay.trans course.delay, rate.trans course.rate, manager.trans course.manager,
        by rw [invocations]; exact course.points, ?_⟩
      simp only [Place, left, invocations]
      exact ⟨spent, by omega⟩
  | absent | aborted => simp only [Place, routine] at place
  | scheduled | waiting | fired | leaving | finished =>
    have same : timer.complete threw = timer := by simp only [UTimer.complete, routine]
    rw [same]
    exact course

theorem Course.expire (course : plan.Course start i m timer) :
    plan.Course start i m (timer.expire m.clock) := by
  unfold UTimer.expire
  split
  next due =>
    have place := course.place
    simp only [Place, due.1] at place
    obtain ⟨repeats, point, expiry, clock⟩ := place
    refine ⟨course.delay, course.rate, course.manager, course.points, repeats, point, ?_⟩
    have passed := due.2
    change m.clock = timer.point
    omega
  next => exact course

theorem Course.started (course : plan.Course start i m timer) :
    plan.Course start i m timer.start := by
  have place := course.place
  unfold UTimer.start
  split
  next absent => simp only [Place, absent] at place
  next => exact course

/-- Time passes as long as the timer may stay where it is. -/
theorem Course.elapse (course : plan.Course start i m timer) {clock : Int}
    (awaits : timer.Awaits clock) : plan.Course start i { m with clock } timer := by
  refine ⟨course.delay, course.rate, course.manager, course.points, ?_⟩
  have place := course.place
  cases routine : timer.routine with
  | absent | aborted => simp only [Place, routine] at place
  | scheduled | fired => simp only [UTimer.Awaits, routine] at awaits
  | waiting =>
    simp only [Place, UTimer.Awaits, routine] at place awaits ⊢
    obtain ⟨repeats, point, expiry, -⟩ := place
    exact ⟨repeats, point, expiry, by omega⟩
  | invoking =>
    simp only [Place, UTimer.Awaits, routine, course.rate] at place awaits ⊢
    obtain ⟨k, count, point, -, single⟩ := place
    refine ⟨k, count, point, fun repeats => ?_, single⟩
    rw [point_succ, ← point]
    exact awaits repeats
  | leaving | finished =>
    simp only [Place, routine] at place ⊢
    exact place

/-- An ended timer is not entered in the map again. -/
theorem part_unmapped (present : m.timers[i]? = some timer) (reaches : Reaches call.part m rest m')
    (unmapped : ∀ tid, m.timerMap.lookup tid ≠ some i) (tid : Int) :
    m'.timerMap.lookup tid ≠ some i := by
  cases timer_effect reaches with
  | took | fresh | refused | turned => exact unmapped tid
  | inserted =>
    have bound := (List.getElem?_eq_some_iff.mp present).1
    rw [Table.lookup_insert_ite]
    split
    · intro same
      have last := Option.some.inj same
      omega
    · exact unmapped tid
  | removed =>
    rw [Table.lookup_erase_ite]
    split
    · exact nofun
    · exact unmapped tid

theorem part_clock (reaches : Reaches call.part m rest m')
    (still : ∀ duration, call ≠ .elapse duration) : m'.clock = m.clock := by
  rw [(part_acts reaches).1]
  cases call with
  | elapse duration => exact absurd rfl (still duration)
  | _ => rfl

/-- The end of a coroutine takes its timer out of the map. -/
theorem leave_removes {calls : Multiset TimerCall} (sound : Timers.Sound ⟨m, calls⟩)
    (present : m.timers[i]? = some timer) (leaving : timer.routine = .leaving)
    (manager : timer.manager = true) (reaches : Reaches (TimerCall.part (.leave i)) m rest m')
    (tid : Int) : m'.timerMap.lookup tid ≠ some i := by
  have keyed : m.timerMap.lookup timer.id = some i := sound.keyed present (by simp [leaving])
  have removed := @removeTimer_present m timer.id (by simp [keyed])
  have ran : UTimerManager.leave i m = .ok () { m with
      timerMap := m.timerMap.erase timer.id
      allocator := m.allocator.recycleTS timer.id
      timers := m.timers.modify i UTimer.finish } := by
    simp only [UTimerManager.leave, get_bind, present, leaving, ne_eq, not_true, if_false, manager,
      if_true]
    rw [bind_ok removed]
    rfl
  obtain ⟨-, rfl⟩ := reaches.of_ok (bind_ok ran _)
  rw [Table.lookup_erase_ite]
  split
  · intro mapped
    cases mapped
  next other =>
    intro mapped
    obtain ⟨same, there, id⟩ := sound.created mapped
    cases present.symm.trans there
    exact other id.symm

theorem Course.part {calls : Multiset TimerCall} (sound : Timers.Sound ⟨m, calls⟩)
    (keepable : plan.Keepable) (present : m.timers[i]? = some timer)
    (course : plan.Course start i m timer)
    (undisturbed : plan.Undisturbed i ⟨m, calls⟩ (.advance call))
    (reaches : Reaches call.part m rest m') : plan.Course start i m' (call.act m i timer) := by
  have carried {next : UTimer} (course : plan.Course start i m next)
      (still : ∀ duration, call ≠ .elapse duration) : plan.Course start i m' next :=
    course.carry (part_clock reaches still) fun unmapped tid =>
      part_unmapped present reaches unmapped tid
  have own {applies : Prop} [Decidable applies] {next : UTimer}
      (applied : applies → plan.Course start i m next)
      (still : ∀ duration, call ≠ .elapse duration) :
      plan.Course start i m' (if applies then next else timer) := by
    split
    next holds => exact carried (applied holds) still
    next => exact carried course still
  cases call with
  | create | createFresh | createInsert | cancelTimer => exact carried course nofun
  | start j => exact own (fun _ => course.started) nofun
  | cancel j => exact own (fun same => absurd same undisturbed) nofun
  | cancelAll =>
    refine own (fun mapped => ?_) nofun
    obtain ⟨⟨tid, j⟩, member, rfl⟩ := mapped
    exact absurd ⟨tid, List.mem_dlookup m.timerMap.nodupKeys member⟩ undisturbed
  | resume j => exact own (fun _ => course.resume keepable) nofun
  | complete j threw =>
    exact own (fun same => course.complete keepable (undisturbed same timer present)) nofun
  | expire j => exact own (fun _ => course.expire) nofun
  | leave j =>
    by_cases same : j = i
    · subst same
      have left : TimerCall.act m j timer (.leave j) = timer.finish := if_pos rfl
      rw [left]
      by_cases leaving : timer.routine = .leaving
      · have place := course.place
        simp only [Place, leaving] at place
        have removed := leave_removes sound present leaving course.manager reaches
        rw [UTimer.finish_leaving leaving]
        exact ⟨course.delay, course.rate, course.manager, course.points, place.1, place.2, removed⟩
      · have kept : timer.finish = timer := if_neg leaving
        rw [kept]
        exact carried course nofun
    · exact own (fun wrong => absurd wrong same) nofun
  | elapse duration =>
    obtain ⟨-, rfl⟩ := reaches.of_ok rfl
    exact course.elapse (undisturbed timer present)

/-- A turn of the timer adds at most one invocation, which is due now. -/
theorem Course.onTime (course : plan.Course start i m timer) (call : TimerCall) :
    (call.act m i timer).invocations = timer.invocations ∨
      ∃ delta, (call.act m i timer).invocations = timer.invocations ++ [(m.clock, delta)] := by
  have own {applies : Prop} [Decidable applies] {next : UTimer}
      (same : next.invocations = timer.invocations) :
      (if applies then next else timer).invocations = timer.invocations := by
    split
    · exact same
    · rfl
  cases call with
  | create | createFresh | createInsert | cancelTimer | elapse => exact .inl rfl
  | start j =>
    refine .inl (own ?_)
    unfold UTimer.start
    split <;> rfl
  | cancel j => exact .inl (own (UTimer.cancel_invocations timer))
  | cancelAll => exact .inl (own (UTimer.cancel_invocations _))
  | complete j threw => exact .inl (own (complete_parameters timer threw).2.2.2)
  | expire j =>
    refine .inl (own ?_)
    unfold UTimer.expire
    split <;> rfl
  | leave j =>
    refine .inl (own ?_)
    unfold UTimer.finish
    split <;> rfl
  | resume j =>
    by_cases same : j = i
    · have acted : TimerCall.act m i timer (.resume j) = timer.resume m.clock := if_pos same
      have place := course.place
      rw [acted]
      cases routine : timer.routine with
      | scheduled =>
        simp only [UTimer.resume, routine]
        split
        · exact .inl rfl
        · exact .inr ⟨timer.delta, rfl⟩
      | fired =>
        simp only [Place, routine] at place
        refine .inr ⟨timer.delta, ?_⟩
        simp only [UTimer.resume, routine, UTimer.invoke, place.2.2]
      | absent | invoking | waiting | aborted | leaving | finished =>
        simp only [UTimer.resume, routine]
        exact .inl trivial
    · exact .inl (congrArg UTimer.invocations (if_neg same))

theorem Course.fits {calls : Multiset TimerCall} (course : plan.Course start i m timer)
    (keepable : plan.Keepable) (present : m.timers[i]? = some timer)
    (undisturbed : plan.Undisturbed i ⟨m, calls⟩ (.advance call)) (target : call.target = some i)
    (computed : timer.product call = some units) : Fits units := by
  cases call with
  | resume j =>
    simp only [UTimer.product] at computed
    split at computed
    next begins =>
      cases computed
      rw [course.delay] at begins ⊢
      rcases keepable with ⟨-, -, fits, -⟩ | ⟨-, undelayed, -⟩
      · exact fits begins.2
      · exact absurd begins.2 (Int32.not_lt.mpr undelayed)
    next => cases computed
  | complete j threw =>
    cases threw with
    | true => cases computed
    | false =>
      simp only [UTimer.product] at computed
      split at computed
      next invoking =>
        cases computed
        have place := course.place
        simp only [Place, invoking] at place
        obtain ⟨k, count, -, -, single⟩ := place
        have returned := undisturbed (Option.some.inj target) timer present invoking
        rw [course.rate]
        rcases keepable with ⟨-, fits, -⟩ | ⟨spent, -, fits⟩
        · exact fits
        · rw [count, single spent] at returned
          exact fits returned.symm
      next => cases computed
  | _ => cases computed

/-- The timer of the plan in a manager that any run has led to. -/
def Runs (plan : TimerPlan) (start : Int) (i : Nat) (config : Timers) : Prop :=
  config.Sound ∧ ∃ timer, config.shared.timers[i]? = some timer ∧
    plan.Course start i config.shared timer

theorem Runs.step {config later : Timers} {move : Move TimerCall} (keepable : plan.Keepable)
    (runs : plan.Runs start i config) (undisturbed : plan.Undisturbed i config move)
    (moved : Timers.step config move later) :
    plan.Runs start i later ∧ Punctual i config move later := by
  obtain ⟨sound, timer, present, course⟩ := runs
  have after := sound.step moved
  cases moved with
  | @invoke m calls call starts =>
    refine ⟨⟨after, timer, present, course⟩, fun before there after found => ?_, nofun⟩
    cases there.symm.trans found
    exact .inl rfl
  | @advance m m' calls call rest pending reaches =>
    have acted := part_act present reaches
    refine ⟨⟨after, _, acted, course.part sound keepable present undisturbed reaches⟩, ?_, ?_⟩
    · intro before there after found
      cases present.symm.trans there
      cases acted.symm.trans found
      exact course.onTime call
    · intro other same target timer there units computed
      cases same
      cases present.symm.trans there
      exact course.fits keepable present undisturbed target computed

theorem Starts.runs {config : Timers} (starts : plan.Starts i config) :
    plan.Runs config.shared.clock i config := by
  obtain ⟨path, run, reached⟩ := starts.reached
  have sound : (Transition.last ⟨.new, 0⟩ path).Sound := (Timers.Sound.of_run run).last
  obtain ⟨tid, present⟩ := starts.set
  refine ⟨reached ▸ sound, _, present, rfl, rfl, rfl, rfl, ?_⟩
  exact ⟨rfl, rfl⟩

/-- A plan that can be kept is kept in every undisturbed run. -/
theorem Keepable.always (keepable : plan.Keepable) {config : Timers}
    (starts : plan.Starts i config) {path : List (Move TimerCall × Timers)}
    (run : Transition.Path Timers.step config path)
    (undisturbed : Transition.Every (plan.Undisturbed i) config path) :
    Transition.Always (fun next => ∃ timer, next.shared.timers[i]? = some timer ∧
        plan.OnSchedule config.shared.clock i next.shared timer) config path ∧
      Transition.Path (Punctual i) config path := by
  have runs : Transition.Always (plan.Runs config.shared.clock i) config path :=
    run.always (fun runs steady moved => (runs.step keepable steady moved).1) starts.runs
      undisturbed
  constructor
  · refine runs.imp fun next runs => ?_
    obtain ⟨-, timer, present, course⟩ := runs
    exact ⟨timer, present, course.onSchedule⟩
  · apply (run.guarded undisturbed).steps _ runs
    exact fun runs moved => (runs.step keepable moved.1 moved.2).2

end TimerPlan
end Uranus
