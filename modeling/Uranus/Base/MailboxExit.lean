import Uranus.Base.AgentBase

/-! How the coroutine of a mailbox ends. The call of `CleanUp` stands after the
loop, in the block whose handler catches what the execution of a node throws. -/
namespace Uranus.Mailbox
open Foundation
variable {m t : Mailbox} {event : Event}

/-- No execution of a node comes back by an exception. -/
def Returns (m : Mailbox) : Event → Prop
  | .complete true => ∀ post, m.process ≠ .executing post
  | _ => True

/-- What an event has to do with the end of the coroutine. -/
inductive Exit (m : Mailbox) : Event → Mailbox → Prop where
  | goes {event : Event} {t : Mailbox} (other : event ≠ .cleanUp) (returns : m.Returns event)
      (before : m.process ≠ .finished) (after : t.process ≠ .finished)
      (same : t.cleanUps = m.cleanUps) : Exit m event t
  | ended {event : Event} {t : Mailbox} (other : event ≠ .cleanUp) (returns : m.Returns event)
      (before : m.process = .finished) (after : t.process = .finished)
      (same : t.cleanUps = m.cleanUps) : Exit m event t
  | threw {t : Mailbox} {post : Post} (executing : m.process = .executing post)
      (after : t.process = .finished) (same : t.cleanUps = m.cleanUps) : Exit m (.complete true) t
  | cleaned {t : Mailbox} (cleaning : m.process = .cleaning) (after : t.process = .finished)
      (counted : t.cleanUps = m.cleanUps + 1) : Exit m .cleanUp t

/-- What leaves the coroutine alone. -/
theorem Exit.of_same (other : event ≠ .cleanUp) (returns : m.Returns event)
    (process : t.process = m.process) (cleanUps : t.cleanUps = m.cleanUps) : m.Exit event t := by
  by_cases before : m.process = .finished
  · exact .ended other returns before (process.trans before) cleanUps
  · exact .goes other returns before (process ▸ before) cleanUps

theorem push_cleanUps (node : Option IChannelNode) (m : Mailbox) :
    (m.push node).cleanUps = m.cleanUps := by
  unfold push
  split
  · rfl
  · cases node with
    | none => rfl
    | some node =>
      dsimp only
      split <;> rfl

theorem loop_goes (m : Mailbox) : m.loop.process ≠ .finished ∧ m.loop.cleanUps = m.cleanUps := by
  unfold loop
  split
  · exact ⟨by simp, rfl⟩
  · exact ⟨by simp, rfl⟩

/-- A resumed coroutine is not over, and has not been cleaned up. -/
theorem resume_goes {actor : Bool} (resumed : m.resume actor = some t) :
    (m.process = .starting ∨ m.process = .receiving) ∧ t.process ≠ .finished ∧
      t.cleanUps = m.cleanUps := by
  unfold resume at resumed
  split at resumed
  next starting =>
    cases resumed
    exact ⟨.inl starting, loop_goes m⟩
  next receiving =>
    refine ⟨.inr receiving, ?_⟩
    split at resumed
    · cases resumed
    · cases resumed
      exact ⟨by simp, rfl⟩
    next post channel taken =>
      dsimp only at resumed
      split at resumed
      · cases resumed
        exact ⟨by simp, rfl⟩
      · split at resumed
        · cases resumed
          exact ⟨by simp, rfl⟩
        · cases resumed
          exact loop_goes { m with channel }
  all_goals cases resumed

theorem resume_exit {actor : Bool} (resumed : m.resume actor = some t) (asked : Bool) :
    m.Exit (.resume asked) t := by
  obtain ⟨waits, after, same⟩ := resume_goes resumed
  refine .goes (by simp) trivial ?_ after same
  rcases waits with starting | receiving
  · simp [starting]
  · simp [receiving]

theorem Step.exit (moved : m.Step event t) : m.Exit event t := by
  cases event with
  | push node =>
    cases moved
    exact .of_same (by simp) trivial (push_process node m) (push_cleanUps node m)
  | deliver post =>
    simp only [Step, step, deliver] at moved
    split at moved
    · cases moved
      exact .of_same (by simp) trivial rfl rfl
    · cases moved
  | resume actor => exact resume_exit moved actor
  | complete threw =>
    simp only [Step, step, complete] at moved
    split at moved
    next post executing =>
      cases threw with
      | true =>
        cases moved
        exact .threw executing rfl rfl
      | false =>
        cases moved
        obtain ⟨after, same⟩ := loop_goes m
        exact .goes (by simp) trivial (by simp [executing]) after same
    all_goals cases moved
  | cleanUp =>
    simp only [Step, step, cleanUp] at moved
    split at moved
    next cleaning =>
      cases moved
      exact .cleaned cleaning rfl rfl
    all_goals cases moved
  | close =>
    cases moved
    exact .of_same (by simp) trivial rfl rfl

/-- `CleanUp` is not called before the end. -/
def Pending (m : Mailbox) : Prop := m.process ≠ .finished → m.cleanUps = 0

theorem Exit.pending (exit : m.Exit event t) (pending : m.Pending) : t.Pending := by
  intro unfinished
  cases exit with
  | goes _ _ before _ same => exact same.trans (pending before)
  | ended _ _ _ after _ | threw _ after _ | cleaned _ after _ => exact absurd after unfinished

end Uranus.Mailbox
