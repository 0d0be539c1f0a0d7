import Mathlib.Tactic.Ring
import Uranus.Timer.Registry

/-! The schedule of a timer. Its time points are computed from each other and not
from the clock, so they do not drift; but a delayed timer without repetition is
never invoked, the products with 100 are ones of `int`, and a task that throws
ends a repeated timer. -/
namespace Uranus
open Foundation Program Interleaving
/-- The product with 100 is an `int`. -/
def Fits (units : Int32) : Prop := -2 ^ 31 ≤ units.toInt * 100 ∧ units.toInt * 100 < 2 ^ 31

instance (units : Int32) : Decidable (Fits units) := inferInstanceAs (Decidable (_ ∧ _))

theorem milliseconds_fits {units : Int32} (fits : Fits units) :
    UTimer.milliseconds units = units.toInt * 100 := by
  obtain ⟨lower, upper⟩ := fits
  have hundred : (100 : Int32).toInt = 100 := by decide
  rw [UTimer.milliseconds, Int32.toInt_mul, hundred]
  exact Int.bmod_eq_of_le (by omega) (by omega)

/-- The parameters of a timer, and at which of its invocations the task throws. -/
structure TimerPlan where
  delay : Int32
  rate : Int32
  throws : Nat → Bool

/-- The factor 100 is computed for the argument. -/
def UTimer.product (timer : UTimer) : TimerCall → Option Int32
  | .resume _ => if timer.routine = .scheduled ∧ timer.delay > 0 then some timer.delay else none
  | .complete _ false => if timer.routine = .invoking then some timer.rate else none
  | _ => none

/-- The coroutine may stay where it is up to this time: it goes on at once where it
can, a wait completes at its expiry, and the task is done by the next one. -/
def UTimer.Awaits (timer : UTimer) (now : Int) : Prop :=
  match timer.routine with
  | .scheduled | .fired => False
  | .waiting => now ≤ timer.expiry
  | .invoking => timer.rate > 0 → now ≤ timer.point + timer.rate.toInt * 100
  | .absent | .aborted | .leaving | .finished => True

/-- The timer whose coroutine or handle the call is about. -/
def TimerCall.target : TimerCall → Option Nat
  | .start j | .cancel j | .resume j | .complete j _ | .expire j | .leave j => some j
  | _ => none

namespace TimerPlan
variable {plan : TimerPlan}

/-- The scheduled time points, in milliseconds. -/
def point (plan : TimerPlan) (start : Int) (k : Nat) : Int :=
  start + max plan.delay.toInt 0 * 100 + k * (plan.rate.toInt * 100)

/-- Nobody cancels the timer `i`, time does not pass it over, and its task throws
where it is planned. -/
def Undisturbed (plan : TimerPlan) (i : Nat) (config : Timers) : Move TimerCall → Prop
  | .invoke _ => True
  | .advance (.elapse duration) => ∀ timer ∈ config.shared.timers[i]?,
      timer.Awaits (config.shared.clock + duration)
  | .advance (.complete j threw) => j = i → ∀ timer ∈ config.shared.timers[i]?,
      timer.routine = .invoking → threw = plan.throws (timer.invocations.length - 1)
  | .advance call => ¬ config.shared.Cancels i call

/-- The invocations so far are those of the schedule up to the present. A repeated
timer goes on, and any other one ends after one invocation and leaves the manager. -/
structure OnSchedule (plan : TimerPlan) (start : Int) (i : Nat) (m : UTimerManager)
    (timer : UTimer) : Prop where
  points : timer.invocations.map Prod.fst =
    (List.range timer.invocations.length).map (plan.point start)
  due : ∀ k, k = 0 ∨ plan.rate > 0 → plan.point start k < m.clock → k < timer.invocations.length
  repeats : plan.rate > 0 →
    timer.routine ≠ .aborted ∧ timer.routine ≠ .leaving ∧ timer.routine ≠ .finished
  once : plan.rate ≤ 0 → timer.invocations.length ≤ 1 ∧
    (timer.routine = .leaving ∨ timer.routine = .finished → timer.invocations.length = 1)
  removed : timer.routine = .finished → ∀ tid, m.timerMap.lookup tid ≠ some i

/-- An invocation happens at the time point that the task is given, and no product
overflows. -/
structure Punctual (i : Nat) (config : Timers) (move : Move TimerCall) (later : Timers) :
    Prop where
  onTime : ∀ before ∈ config.shared.timers[i]?, ∀ after ∈ later.shared.timers[i]?,
    after.invocations = before.invocations ∨
      ∃ delta, after.invocations = before.invocations ++ [(config.shared.clock, delta)]
  fits : ∀ call, move = .advance call → call.target = some i →
    ∀ timer ∈ config.shared.timers[i]?, ∀ units ∈ timer.product call, Fits units

/-- The timer has been started in a run of its manager. -/
structure Starts (plan : TimerPlan) (i : Nat) (config : Timers) : Prop where
  reached : ∃ path, Transition.Path Timers.step ⟨.new, 0⟩ path ∧
    Transition.last ⟨.new, 0⟩ path = config
  set : ∃ tid, config.shared.timers[i]? =
    some { UTimer.setUp tid plan.delay plan.rate with routine := .scheduled }

/-- Some undisturbed run leads to a state where the timer meets `P`. -/
def Leads (plan : TimerPlan) (i : Nat) (P : UTimer → Prop) (config : Timers) : Prop :=
  ∃ path, Transition.Path Timers.step config path ∧
    Transition.Every (plan.Undisturbed i) config path ∧
      ∃ timer, (Transition.last config path).shared.timers[i]? = some timer ∧ P timer

/-- The timer keeps to its schedule in every undisturbed run, and there are such
runs to every invocation and, without repetition, to its end. -/
structure Kept (plan : TimerPlan) : Prop where
  always : ∀ {i : Nat} {config : Timers}, plan.Starts i config →
    ∀ path, Transition.Path Timers.step config path →
      Transition.Every (plan.Undisturbed i) config path →
        Transition.Always (fun next => ∃ timer, next.shared.timers[i]? = some timer ∧
            plan.OnSchedule config.shared.clock i next.shared timer) config path ∧
          Transition.Path (Punctual i) config path
  comes : ∀ {i : Nat} {config : Timers}, plan.Starts i config → ∀ k, k = 0 ∨ plan.rate > 0 →
    plan.Leads i (fun timer => timer.invocations.length = k + 1) config
  ends : ∀ {i : Nat} {config : Timers}, plan.Starts i config → plan.rate ≤ 0 →
    plan.Leads i (fun timer => timer.routine = .finished) config

/-- What a timer needs to keep to its schedule. -/
def Keepable (plan : TimerPlan) : Prop :=
  (plan.rate > 0 ∧ Fits plan.rate ∧ (plan.delay > 0 → Fits plan.delay) ∧
      ∀ k, plan.throws k = false) ∨
    (plan.rate ≤ 0 ∧ plan.delay ≤ 0 ∧ (plan.throws 0 = false → Fits plan.rate))

theorem point_zero (plan : TimerPlan) (start : Int) :
    plan.point start 0 = start + max plan.delay.toInt 0 * 100 := by
  simp [point]

theorem point_succ (plan : TimerPlan) (start : Int) (k : Nat) :
    plan.point start (k + 1) = plan.point start k + plan.rate.toInt * 100 := by
  simp only [point, Nat.cast_succ]
  ring

/-- The points of a repeated timer are in order. -/
theorem point_lt_iff (repeats : plan.rate > 0) (start : Int) {j k : Nat} :
    plan.point start j < plan.point start k ↔ j < k := by
  have positive : 0 < plan.rate.toInt := Int32.lt_iff_toInt_lt.mp repeats
  have period : 0 < plan.rate.toInt * 100 := by omega
  rw [point, point, add_lt_add_iff_left, Int.mul_lt_mul_right period]
  exact Int.ofNat_lt

end TimerPlan
end Uranus
