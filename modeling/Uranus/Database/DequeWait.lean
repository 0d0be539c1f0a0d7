import Uranus.Database.DataAccess

/-! The consumer that waits on a notifying deque. It holds the lock from the test of its
condition until it sleeps, but `Quit` writes and notifies without that lock. -/
namespace Uranus
open Foundation

namespace TConcurrentDeque
variable {T : Type}

def pushFront (data : T) (d : TConcurrentDeque T) : TConcurrentDeque T :=
  { d with deque := data :: d.deque }

/-- Undefined on an empty deque. -/
def popBack (d : TConcurrentDeque T) : Option (T × TConcurrentDeque T) :=
  d.deque.getLast?.map fun data => (data, { d with deque := d.deque.dropLast })

end TConcurrentDeque

/-- Where the consumer is. In `deciding` it has the lock, and has found nothing to do. -/
inductive ConsumerPlace where
  | outside
  | deciding
  | asleep
  | woken
deriving DecidableEq, Repr

/-- A deque with its consumer and its producers. `notifying` and `notifyingAll` count the
calls that have yet to notify, after what they pushed or after the write of `Quit`. -/
structure DequeThreads (T : Type) where
  deque : TConcurrentDeque T
  consumer : ConsumerPlace
  notifying : Nat
  notifyingAll : Nat
deriving DecidableEq, Repr

inductive DequeMove (T : Type) where
  | pushBack (data : T)
  | pushFront (data : T)
  | notifyOne
  | quit
  | notifyAll
  | wait
  | sleep
  | wakeSpuriously
  | retest
  | popFront
  | popBack
  | clear
deriving DecidableEq, Repr

namespace DequeThreads
variable {T : Type}

def new : DequeThreads T := ⟨.new, .outside, 0, 0⟩

/-- The test of the condition that `Wait` waits for. -/
def test (s : DequeThreads T) : DequeThreads T :=
  { s with consumer := if s.deque.Ready then .outside else .deciding }

/-- The locked section of a push; the call has yet to notify. -/
def push (deque : TConcurrentDeque T) (s : DequeThreads T) : Option (DequeThreads T) :=
  if s.consumer = .deciding then none
  else some { s with deque, notifying := s.notifying + 1 }

/-- A notification reaches the consumer where it sleeps, and nobody otherwise. -/
def wake (s : DequeThreads T) : DequeThreads T :=
  { s with consumer := if s.consumer = .asleep then .woken else s.consumer }

/-- A section of the consumer beside `Wait`. -/
def consume (deque : TConcurrentDeque T) (s : DequeThreads T) : Option (DequeThreads T) :=
  if s.consumer = .outside then some { s with deque } else none

def next (s : DequeThreads T) : DequeMove T → Option (DequeThreads T)
  | .pushBack data => s.push (s.deque.pushBack data)
  | .pushFront data => s.push (s.deque.pushFront data)
  | .notifyOne =>
    if 0 < s.notifying then some { s with notifying := s.notifying - 1 }.wake else none
  | .quit => some { s with deque := s.deque.setQuit, notifyingAll := s.notifyingAll + 1 }
  | .notifyAll =>
    if 0 < s.notifyingAll then some { s with notifyingAll := s.notifyingAll - 1 }.wake else none
  | .wait => if s.consumer = .outside then some s.test else none
  | .sleep => if s.consumer = .deciding then some { s with consumer := .asleep } else none
  | .wakeSpuriously => if s.consumer = .asleep then some s.wake else none
  | .retest => if s.consumer = .woken then some s.test else none
  | .popFront => s.deque.popFront.bind fun popped => s.consume popped.2
  | .popBack => s.deque.popBack.bind fun popped => s.consume popped.2
  | .clear => s.consume s.deque.clear

def Step (s : DequeThreads T) (move : DequeMove T) (later : DequeThreads T) : Prop :=
  s.next move = some later

def runs (s : DequeThreads T) (moves : List (DequeMove T)) :
    List (DequeMove T × DequeThreads T) :=
  Transition.trace next s moves

theorem runs_path (s : DequeThreads T) (moves : List (DequeMove T)) :
    Transition.Path Step s (s.runs moves) :=
  Transition.trace_path id moves

/-- A notification is still to come. -/
def Notifies (s : DequeThreads T) : Prop := 0 < s.notifying ∨ 0 < s.notifyingAll

/-- The consumer does not sleep over work, or over the end, with nobody to wake it. -/
def Awake (s : DequeThreads T) : Prop :=
  s.consumer = .asleep → s.deque.Ready → s.Notifies

/-- While the consumer decides, nothing comes into the deque. -/
def Still (s : DequeThreads T) : Prop := s.consumer = .deciding → s.deque.deque = []

/-- When the consumer goes to sleep, `Quit` has not come since the test, or a call that
has yet to notify will wake it. -/
def Noticed (s : DequeThreads T) : DequeMove T → Prop
  | .sleep => s.deque.quit = false ∨ s.Notifies
  | _ => True

variable {s later : DequeThreads T} {move : DequeMove T} {deque : TConcurrentDeque T}

theorem awake_of_ne (place : s.consumer ≠ .asleep) : s.Awake := fun asleep => absurd asleep place

theorem test_consumer (s : DequeThreads T) :
    s.test.consumer ≠ .asleep ∧ (s.test.consumer = .deciding → s.deque.deque = []) := by
  unfold test
  split
  next => simp
  next idle =>
    refine ⟨by simp, fun _ => ?_⟩
    by_contra work
    exact idle (.inl work)

theorem wake_consumer (s : DequeThreads T) :
    s.wake.consumer ≠ .asleep ∧ (s.wake.consumer = .deciding → s.consumer = .deciding) := by
  unfold wake
  split
  next => simp
  next other => exact ⟨other, id⟩

theorem push_spec (pushed : s.push deque = some later) : s.consumer ≠ .deciding ∧
    later.consumer = s.consumer ∧ later.Notifies := by
  obtain ⟨free, taken⟩ := Option.ite_none_left_eq_some.mp pushed
  cases taken
  exact ⟨free, rfl, .inl (Nat.succ_pos _)⟩

theorem consume_spec (consumed : s.consume deque = some later) : later.consumer = .outside := by
  obtain ⟨outside, taken⟩ := Option.ite_none_right_eq_some.mp consumed
  cases taken
  exact outside

theorem Still.step (still : s.Still) (moved : Step s move later) : later.Still := by
  cases move with
  | pushBack data | pushFront data =>
    obtain ⟨free, same, _⟩ := push_spec moved
    exact fun deciding => absurd (same ▸ deciding) free
  | notifyOne | notifyAll =>
    obtain ⟨_, taken⟩ := Option.ite_none_right_eq_some.mp moved
    cases taken
    exact fun deciding => still ((wake_consumer _).2 deciding)
  | quit =>
    cases moved
    exact still
  | wait | retest =>
    obtain ⟨_, taken⟩ := Option.ite_none_right_eq_some.mp moved
    cases taken
    exact (test_consumer s).2
  | sleep =>
    obtain ⟨_, taken⟩ := Option.ite_none_right_eq_some.mp moved
    cases taken
    intro deciding
    cases deciding
  | wakeSpuriously =>
    obtain ⟨_, taken⟩ := Option.ite_none_right_eq_some.mp moved
    cases taken
    exact fun deciding => still ((wake_consumer _).2 deciding)
  | popFront | popBack =>
    obtain ⟨_, _, consumed⟩ := Option.bind_eq_some_iff.mp moved
    intro deciding
    cases (consume_spec consumed).symm.trans deciding
  | clear =>
    intro deciding
    cases (consume_spec moved).symm.trans deciding

/-- A step leaves the consumer awake if and only if it does not go to sleep unnoticed. -/
theorem step_awake (still : s.Still) (moved : Step s move later) :
    later.Awake ↔ s.Noticed move := by
  cases move with
  | pushBack data | pushFront data =>
    exact iff_of_true (fun _ _ => (push_spec moved).2.2) trivial
  | notifyOne | notifyAll | wakeSpuriously =>
    obtain ⟨_, taken⟩ := Option.ite_none_right_eq_some.mp moved
    cases taken
    exact iff_of_true (awake_of_ne (wake_consumer _).1) trivial
  | quit =>
    cases moved
    exact iff_of_true (fun _ _ => .inr (Nat.succ_pos _)) trivial
  | wait | retest =>
    obtain ⟨_, taken⟩ := Option.ite_none_right_eq_some.mp moved
    cases taken
    exact iff_of_true (awake_of_ne (test_consumer s).1) trivial
  | sleep =>
    obtain ⟨deciding, taken⟩ := Option.ite_none_right_eq_some.mp moved
    cases taken
    have nothing := still deciding
    constructor
    · intro later
      cases quit : s.deque.quit with
      | false => exact .inl quit
      | true => exact .inr (later rfl (.inr quit))
    · intro noticed _ ready
      rcases noticed with running | notifies
      · rcases ready with work | quit
        · exact absurd nothing work
        · cases running.symm.trans quit
      · exact notifies
  | popFront | popBack =>
    obtain ⟨_, _, consumed⟩ := Option.bind_eq_some_iff.mp moved
    exact iff_of_true (awake_of_ne (by simp [consume_spec consumed])) trivial
  | clear => exact iff_of_true (awake_of_ne (by simp [consume_spec moved])) trivial

/-- Along every run, the consumer never sleeps over work or the end with no notification
to come, if and only if it never goes to sleep after an unnoticed `Quit`. -/
theorem awake_iff_noticed {path : List (DequeMove T × DequeThreads T)}
    (run : Transition.Path Step new path) :
    Transition.Always Awake new path ↔ Transition.Every Noticed new path := by
  have still : (new : DequeThreads T).Still := fun deciding => by cases deciding
  have awake : (new : DequeThreads T).Awake := fun asleep => by cases asleep
  apply run.always_iff_every (fun still moved => Still.step still moved) _ _ still awake
  · intro s move later still _ noticed moved
    exact (step_awake still moved).mpr noticed
  · intro s move later still _ unnoticed moved kept
    exact unnoticed ((step_awake still moved).mp kept)

/-- `Quit` writes and notifies after the consumer has tested, and before it sleeps. -/
def unnoticed : List (DequeMove Nat × DequeThreads Nat) :=
  new.runs [.wait, .quit, .notifyAll, .sleep]

theorem unnoticed_asleep : ¬ ∀ path : List (DequeMove Nat × DequeThreads Nat),
    Transition.Path Step new path → Transition.Always Awake new path := by
  intro all
  have notifies := (all unnoticed (runs_path _ _)).last rfl (.inr rfl)
  revert notifies
  unfold Notifies
  decide

/-- The same, where a push that came first has yet to notify. -/
theorem awake_iff_noticed_push :
    let path := (new : DequeThreads Nat).runs [.pushBack 1, .popFront, .wait, .quit, .notifyAll,
      .sleep, .notifyOne, .retest]
    Transition.Always Awake new path ↔ Transition.Every Noticed new path :=
  awake_iff_noticed (runs_path _ _)

end DequeThreads
end Uranus
