import Uranus.Timer.Course

/-! How far a timer comes in undisturbed runs. From its start it comes to every
invocation of its schedule, and to its end; where its plan cannot be kept, it comes
to a place where the schedule is missed. -/
namespace Uranus
open Foundation Program Interleaving
variable {m m' : UTimerManager} {call : TimerCall} {rest : Option TimerCall} {i : Nat}
  {timer : UTimer} {units : Int32}

namespace TimerPlan
variable {plan : TimerPlan} {start : Int}

/-- An undisturbed run leads from the one state to the other. -/
def Comes (plan : TimerPlan) (i : Nat) (config later : Timers) : Prop :=
  ∃ path, Transition.Path Timers.step config path ∧
    Transition.Every (plan.Undisturbed i) config path ∧ Transition.last config path = later

theorem Comes.turn {config : Timers} {calls : Multiset TimerCall}
    (comes : plan.Comes i config ⟨m, calls⟩) (call : TimerCall) (starts : call.starts)
    (undisturbed : plan.Undisturbed i ⟨m, calls⟩ (.advance call))
    (ran : call.part m = .ok none m') :
    plan.Comes i config ⟨m', calls⟩ := by
  obtain ⟨path, run, steady, came⟩ := comes
  refine ⟨path ++ Timers.turnRun call m m' calls,
    Transition.path_append.mpr ⟨run, ?_⟩, Transition.every_append.mpr ⟨steady, ?_⟩, ?_⟩
  · rw [came]
    exact Timers.turnRun_path calls starts ran
  · rw [came]
    exact ⟨trivial, undisturbed, trivial⟩
  · rw [Transition.last_append]
    rfl

/-- The place of the coroutine and the number of invocations so far. -/
structure At (plan : TimerPlan) (routine : TimerRoutine) (count : Nat) (timer : UTimer) :
    Prop where
  routine : timer.routine = routine
  count : timer.invocations.length = count
  delay : timer.delay = plan.delay
  rate : timer.rate = plan.rate

section Progress
variable {config : Timers} {count : Nat}

theorem Starts.scheduled (starts : plan.Starts i config) :
    plan.Leads i (plan.At .scheduled 0) config := by
  obtain ⟨tid, present⟩ := starts.set
  exact ⟨[], trivial, trivial, _, present, rfl, rfl, rfl, rfl⟩

/-- A turn of the timer that nobody cancels. -/
theorem Leads.turn {P Q : UTimer → Prop} (leads : plan.Leads i P config)
    (turns : ∀ {m timer}, m.timers[i]? = some timer → P timer → ∃ call m' next,
      call.starts ∧ call.part m = .ok none m' ∧ plan.Undisturbed i ⟨m, 0⟩ (.advance call) ∧
        m'.timers[i]? = some next ∧ Q next) :
    plan.Leads i Q config := by
  obtain ⟨path, run, steady, timer, present, holds⟩ := leads
  obtain ⟨call, m', next, starts, ran, undisturbed, found, after⟩ := turns present holds
  have comes : plan.Comes i config (Transition.last config path) := ⟨path, run, steady, rfl⟩
  obtain ⟨path, run, steady, came⟩ := comes.turn call starts undisturbed ran
  exact ⟨path, run, steady, next, by rw [came]; exact found, after⟩

theorem Leads.resume {P Q : UTimer → Prop} (leads : plan.Leads i P config)
    (gives : ∀ {timer : UTimer} now, P timer → Q (timer.resume now)) : plan.Leads i Q config :=
  leads.turn fun {m _} present holds =>
    ⟨.resume i, _, _, rfl, rfl, id, modify_present _ present, gives m.clock holds⟩

theorem Leads.complete {P Q : UTimer → Prop} (leads : plan.Leads i P config) (threw : Bool)
    (planned : ∀ {timer}, P timer → threw = plan.throws (timer.invocations.length - 1))
    (gives : ∀ {timer : UTimer}, P timer → Q (timer.complete threw)) : plan.Leads i Q config := by
  refine leads.turn fun {m timer} present holds => ?_
  refine ⟨.complete i threw, _, _, rfl, rfl, fun _ other found _ => ?_,
    modify_present _ present, gives holds⟩
  cases present.symm.trans found
  exact planned holds

/-- A wait comes to its end, at its expiry or at once where that is over. -/
theorem Leads.fire (leads : plan.Leads i (plan.At .waiting count) config) :
    plan.Leads i (plan.At .fired count) config := by
  obtain ⟨path, run, steady, timer, present, waits⟩ := leads
  have comes : plan.Comes i config (Transition.last config path) := ⟨path, run, steady, rfl⟩
  generalize Transition.last config path = later at comes present
  obtain ⟨m, calls⟩ := later
  have due : ∃ m', plan.Comes i config ⟨m', calls⟩ ∧ m'.timers[i]? = some timer ∧
      timer.expiry ≤ m'.clock := by
    by_cases passed : timer.expiry ≤ m.clock
    · exact ⟨m, comes, present, passed⟩
    · refine ⟨_, comes.turn (.elapse (timer.expiry - m.clock).toNat) rfl ?_ rfl,
        present, ?_⟩
      · intro other found
        cases present.symm.trans found
        simp only [UTimer.Awaits, waits.routine]
        omega
      · change timer.expiry ≤ m.clock + (timer.expiry - m.clock).toNat
        omega
  obtain ⟨m', comes, present, passed⟩ := due
  have fired : timer.expire m'.clock = { timer with routine := .fired } :=
    UTimer.expire_due waits.routine passed
  obtain ⟨path, run, steady, came⟩ := comes.turn (.expire i) rfl id rfl
  refine ⟨path, run, steady, { timer with routine := .fired }, ?_, rfl, waits.count, waits.delay,
    waits.rate⟩
  rw [came, ← fired]
  exact modify_present _ present

theorem Leads.leave (leads : plan.Leads i (plan.At .leaving count) config) :
    plan.Leads i (plan.At .finished count) config := by
  refine leads.turn fun {m timer} present leaving => ?_
  obtain ⟨timerMap, allocator, ran⟩ := m.leave_ok i
  refine ⟨.leave i, _, _, rfl, bind_ok ran _, id, modify_present _ present, ?_⟩
  rw [UTimer.finish_leaving leaving.routine]
  exact ⟨rfl, leaving.count, leaving.delay, leaving.rate⟩

/-- Where the loop goes on to. -/
def next (plan : TimerPlan) : TimerRoutine := if plan.rate > 0 then .waiting else .leaving

theorem Leads.delayed (leads : plan.Leads i (plan.At .scheduled 0) config)
    (delayed : plan.delay > 0) : plan.Leads i (plan.At plan.next 0) config := by
  refine leads.resume fun {timer} now here => ?_
  have armed := UTimer.resume_delayed now here.routine (here.delay ▸ delayed)
  have place : (timer.resume now).routine = if timer.rate > 0 then .waiting else .leaving := by
    rw [armed]
    rfl
  rw [here.rate] at place
  refine ⟨place, ?_, ?_, ?_⟩
  · exact armed ▸ here.count
  · exact armed ▸ here.delay
  · exact armed ▸ here.rate

theorem Leads.undelayed (leads : plan.Leads i (plan.At .scheduled 0) config)
    (undelayed : ¬ plan.delay > 0) : plan.Leads i (plan.At .invoking 1) config := by
  refine leads.resume fun {timer} now here => ?_
  rw [UTimer.resume_undelayed _ here.routine (here.delay ▸ undelayed)]
  exact ⟨rfl, by simp [UTimer.invoke, here.count], here.delay, here.rate⟩

theorem Leads.invoke (leads : plan.Leads i (plan.At .waiting count) config) :
    plan.Leads i (plan.At .invoking (count + 1)) config := by
  refine leads.fire.resume fun {timer} now here => ?_
  rw [UTimer.resume_fired _ here.routine]
  exact ⟨rfl, by simp [UTimer.invoke, here.count], here.delay, here.rate⟩

theorem Leads.returned {k : Nat} (leads : plan.Leads i (plan.At .invoking (k + 1)) config)
    (returns : plan.throws k = false) : plan.Leads i (plan.At plan.next (k + 1)) config := by
  apply leads.complete false
  · intro timer here
    rw [here.count, Nat.add_sub_cancel, returns]
  · intro timer here
    have armed := UTimer.complete_returned here.routine
    have place : (timer.complete false).routine =
        if timer.rate > 0 then .waiting else .leaving := by
      rw [armed]
      rfl
    rw [here.rate] at place
    obtain ⟨delay, rate, -, invocations⟩ := complete_parameters timer false
    exact ⟨place, invocations ▸ here.count, delay.trans here.delay, rate.trans here.rate⟩

theorem Leads.threw {k : Nat} (leads : plan.Leads i (plan.At .invoking (k + 1)) config)
    (throws : plan.throws k = true) : plan.Leads i (plan.At .leaving (k + 1)) config := by
  apply leads.complete true
  · intro timer here
    rw [here.count, Nat.add_sub_cancel, throws]
  · intro timer here
    have left : (timer.complete true).routine = .leaving := by
      rw [UTimer.complete_threw here.routine]
    obtain ⟨delay, rate, -, invocations⟩ := complete_parameters timer true
    exact ⟨left, invocations ▸ here.count, delay.trans here.delay, rate.trans here.rate⟩

/-- Every invocation comes whose predecessors return, unless the timer is delayed
and has no repetition. -/
theorem Starts.invoked (starts : plan.Starts i config) (invokes : plan.delay > 0 → plan.rate > 0)
    {k : Nat} (counts : k = 0 ∨ plan.rate > 0) (returns : ∀ j < k, plan.throws j = false) :
    plan.Leads i (plan.At .invoking (k + 1)) config := by
  induction k with
  | zero =>
    by_cases delayed : plan.delay > 0
    · have waits := starts.scheduled.delayed delayed
      rw [next, if_pos (invokes delayed)] at waits
      exact waits.invoke
    · exact starts.scheduled.undelayed delayed
  | succ k ih =>
    have repeats := counts.resolve_left (Nat.succ_ne_zero k)
    have invoking := ih (.inr repeats) fun j before => returns j (Nat.lt_succ_of_lt before)
    have waits := invoking.returned (returns k (Nat.lt_succ_self k))
    rw [next, if_pos repeats] at waits
    exact waits.invoke

theorem Keepable.comes (keepable : plan.Keepable) (starts : plan.Starts i config) {k : Nat}
    (counts : k = 0 ∨ plan.rate > 0) :
    plan.Leads i (fun timer => timer.invocations.length = k + 1) config := by
  have invoked : plan.Leads i (plan.At .invoking (k + 1)) config := by
    obtain ⟨repeats, -, -, returns⟩ | ⟨single, undelayed, -⟩ := keepable
    · exact starts.invoked (fun _ => repeats) counts fun j _ => returns j
    · have first := counts.resolve_right (not_repeats.mp single)
      subst first
      exact starts.invoked (fun delayed => absurd delayed (Int32.not_lt.mpr undelayed)) counts
        fun j before => absurd before (Nat.not_lt_zero j)
  obtain ⟨path, run, steady, timer, present, here⟩ := invoked
  exact ⟨path, run, steady, timer, present, here.count⟩

theorem Keepable.ends (keepable : plan.Keepable) (starts : plan.Starts i config)
    (single : plan.rate ≤ 0) : plan.Leads i (fun timer => timer.routine = .finished) config := by
  have spent := not_repeats.mp single
  have undelayed : plan.delay ≤ 0 := by
    rcases keepable with ⟨repeats, -⟩ | ⟨-, undelayed, -⟩
    · exact absurd repeats spent
    · exact undelayed
  have invoked : plan.Leads i (plan.At .invoking (0 + 1)) config :=
    starts.invoked (fun delayed => absurd delayed (Int32.not_lt.mpr undelayed)) (.inl rfl)
      fun j before => absurd before (Nat.not_lt_zero j)
  have leaving : plan.Leads i (plan.At .leaving (0 + 1)) config := by
    cases outcome : plan.throws 0 with
    | true => exact invoked.threw outcome
    | false =>
      have left := invoked.returned outcome
      rwa [next, if_neg spent] at left
  obtain ⟨path, run, steady, timer, present, here⟩ := leaving.leave
  exact ⟨path, run, steady, timer, present, here.routine⟩

/-- Wherever a kept timer comes, it is on its schedule. -/
theorem Kept.onSchedule {P : UTimer → Prop} (kept : plan.Kept) (starts : plan.Starts i config)
    (leads : plan.Leads i P config) :
    ∃ m timer, P timer ∧ plan.OnSchedule config.shared.clock i m timer := by
  obtain ⟨path, run, steady, timer, present, holds⟩ := leads
  obtain ⟨other, found, onSchedule⟩ := (kept.always starts path run steady).1.last
  cases present.symm.trans found
  exact ⟨_, timer, holds, onSchedule⟩

/-- Where a kept timer comes, the product of its next turn does not overflow. -/
theorem Kept.fits {P : UTimer → Prop} (kept : plan.Kept) (starts : plan.Starts i config)
    (leads : plan.Leads i P config) (call : TimerCall) (startable : call.starts)
    (target : call.target = some i) (runs : ∀ m, ∃ m', call.part m = .ok none m')
    (computes : ∀ {m timer}, m.timers[i]? = some timer → P timer →
      plan.Undisturbed i ⟨m, 0⟩ (.advance call) ∧ timer.product call = some units) :
    Fits units := by
  obtain ⟨path, run, steady, timer, present, holds⟩ := leads
  obtain ⟨undisturbed, computed⟩ := computes present holds
  obtain ⟨m', ran⟩ := runs (Transition.last config path).shared
  have turn := Timers.turnRun_path (Transition.last config path).calls startable ran
  have longer := kept.always starts _ (Transition.path_append.mpr ⟨run, turn⟩)
    (Transition.every_append.mpr ⟨steady, trivial, undisturbed, trivial⟩)
  obtain ⟨-, punctual, -⟩ := (Transition.path_append.mp longer.2).2
  exact punctual.fits call rfl target timer present units computed

theorem Kept.delay_fits (kept : plan.Kept) (starts : plan.Starts i config)
    (delayed : plan.delay > 0) : Fits plan.delay := by
  refine kept.fits starts starts.scheduled (.resume i) rfl rfl (fun m => ⟨_, rfl⟩) ?_
  intro m timer present here
  refine ⟨id, ?_⟩
  rw [← here.delay] at delayed ⊢
  exact if_pos ⟨here.routine, delayed⟩

theorem Kept.rate_fits (kept : plan.Kept) (starts : plan.Starts i config)
    (invokes : plan.delay > 0 → plan.rate > 0) (returns : plan.throws 0 = false) :
    Fits plan.rate := by
  have invoked : plan.Leads i (plan.At .invoking (0 + 1)) config :=
    starts.invoked invokes (.inl rfl) fun j before => absurd before (Nat.not_lt_zero j)
  refine kept.fits starts invoked (.complete i false) rfl rfl (fun m => ⟨_, rfl⟩) ?_
  intro m timer present here
  constructor
  · intro _ other found _
    cases present.symm.trans found
    rw [here.count, Nat.add_sub_cancel, returns]
  · rw [← here.rate]
    exact if_pos here.routine

/-- The task of a kept repeated timer never throws. -/
theorem Kept.returns (kept : plan.Kept) (starts : plan.Starts i config)
    (repeats : plan.rate > 0) (k : Nat) : plan.throws k = false := by
  induction k using Nat.strong_induction_on with
  | h k returned =>
    by_contra throws
    have left := (starts.invoked (fun _ => repeats) (.inr repeats) returned).threw
      (Bool.not_eq_false _ ▸ throws)
    obtain ⟨m, timer, here, onSchedule⟩ := kept.onSchedule starts left
    exact (onSchedule.repeats repeats).2.1 here.routine

/-- A kept timer without repetition has no delay. -/
theorem Kept.undelayed (kept : plan.Kept) (starts : plan.Starts i config)
    (single : plan.rate ≤ 0) : plan.delay ≤ 0 := by
  by_contra delayed
  have left := starts.scheduled.delayed (Int32.not_le.mp delayed)
  rw [next, if_neg (not_repeats.mp single)] at left
  obtain ⟨m, timer, here, onSchedule⟩ := kept.onSchedule starts left
  have invoked := (onSchedule.once single).2 (.inl here.routine)
  rw [here.count] at invoked
  cases invoked

end Progress

/-- A manager with only this timer. -/
def onlyTimer (plan : TimerPlan) (routine : TimerRoutine) : UTimerManager where
  allocator := (TIdentAllocator.allocateFresh .new).2
  timerMap := (∅ : Table Int Nat).insert 1 0
  timers := [{ UTimer.setUp 1 plan.delay plan.rate with routine }]
  clock := 0

theorem advance_alone (reaches : Reaches call.part m rest m') :
    Timers.step ⟨m, call ::ₘ 0⟩ (.advance call) ⟨m', resume rest 0⟩ := by
  have moved : Timers.step ⟨m, call ::ₘ 0⟩ (.advance call)
      ⟨m', resume rest ((call ::ₘ 0).erase call)⟩ :=
    .advance (Multiset.mem_cons_self call 0) reaches
  rwa [Multiset.erase_cons_head] at moved

/-- Every timer can be made and started. -/
theorem starts_onlyTimer (plan : TimerPlan) : plan.Starts 0 ⟨plan.onlyTimer .scheduled, 0⟩ := by
  let create : TimerCall := .create plan.delay plan.rate 0
  let fresh : TimerCall := .createFresh plan.delay plan.rate
  let insert : TimerCall := .createInsert 1 plan.delay plan.rate
  let made : UTimerManager := { UTimerManager.new with
    allocator := (TIdentAllocator.allocateFresh .new).2 }
  have created : Reaches create.part .new (some fresh) .new := .inl rfl
  have allocated : Reaches fresh.part .new (some insert) made := .inl rfl
  have inserted : Reaches insert.part made none (plan.onlyTimer .absent) := .inl rfl
  have started : Reaches (TimerCall.part (.start 0)) (plan.onlyTimer .absent) none
      (plan.onlyTimer .scheduled) := .inl rfl
  refine ⟨⟨[(.invoke create, ⟨.new, create ::ₘ 0⟩), (.advance create, ⟨.new, fresh ::ₘ 0⟩),
    (.advance fresh, ⟨made, insert ::ₘ 0⟩), (.advance insert, ⟨plan.onlyTimer .absent, 0⟩),
    (.invoke (.start 0), ⟨plan.onlyTimer .absent, .start 0 ::ₘ 0⟩),
    (.advance (.start 0), ⟨plan.onlyTimer .scheduled, 0⟩)], ?_, rfl⟩, 1, rfl⟩
  exact ⟨.invoke rfl, advance_alone created, advance_alone allocated, advance_alone inserted,
    .invoke rfl, advance_alone started, trivial⟩

/-- A timer keeps to its schedule in all its runs if and only if it is repeated and
its task never throws, or it has neither a repetition nor a delay, and in both cases
the products with 100 that are computed do not overflow. -/
theorem kept_iff_keepable (plan : TimerPlan) : plan.Kept ↔ plan.Keepable := by
  have starts := plan.starts_onlyTimer
  constructor
  · intro kept
    by_cases repeats : plan.rate > 0
    · have returns := kept.returns starts repeats
      exact .inl ⟨repeats, kept.rate_fits starts (fun _ => repeats) (returns 0),
        kept.delay_fits starts, returns⟩
    · have single := not_repeats.mpr repeats
      have undelayed := kept.undelayed starts single
      refine .inr ⟨single, undelayed, kept.rate_fits starts fun delayed => ?_⟩
      exact absurd delayed (Int32.not_lt.mpr undelayed)
  · intro keepable
    exact {
      always := fun starts path run steady => keepable.always starts run steady
      comes := fun starts k counts => keepable.comes starts counts
      ends := fun starts single => keepable.ends starts single }

/-- A task that is to be executed once, half a second from now, is never executed. -/
theorem delayedOnce_not_kept : ¬ Kept ⟨5, -1, fun _ => false⟩ := by
  intro kept
  have undelayed : (5 : Int32) ≤ 0 := kept.undelayed (starts_onlyTimer _) (by decide)
  revert undelayed
  decide

end TimerPlan
end Uranus
