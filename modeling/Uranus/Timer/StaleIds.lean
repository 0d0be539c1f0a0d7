import Uranus.Timer.Registry

/-! What an id of a timer is worth. `CancelTimer` knows a timer by its id alone,
and the id of a timer that has finished is given to a later one. -/
namespace Uranus
open Foundation Program Interleaving
variable {m : UTimerManager} {config later : Timers} {move : Move TimerCall} {tid : Int}

/-- `CreateTimer` has returned a handle with this id, which was for timer `i`. -/
def UTimerManager.Handed (m : UTimerManager) (tid : Int) (i : Nat) : Prop :=
  (m.timers[i]?).map UTimer.id = some tid

/-- `CancelTimer` with the id of a handle cancels no timer but the one of the handle. -/
def Timers.Spares (config : Timers) (move : Move TimerCall) (_ : Timers) : Prop :=
  ∀ tid i, move = .advance (.cancelTimer tid) → config.shared.Handed tid i →
    ∀ j, UTimerManager.findTimer tid config.shared = .ok (some j) config.shared → j = i

/-- An id that is a key was given to one timer only, when `CancelTimer` is called with it. -/
def Timers.GivenOnce (config : Timers) (move : Move TimerCall) : Prop :=
  ∀ tid, move = .advance (.cancelTimer tid) → (config.shared.timerMap.lookup tid).isSome →
    ∀ i j, config.shared.Handed tid i → config.shared.Handed tid j → i = j

theorem findTimer_found {j : Nat} (found : UTimerManager.findTimer tid m = .ok (some j) m) :
    m.timerMap.lookup tid = some j := by
  rw [UTimerManager.findTimer_apply] at found
  exact (Option.filter_eq_some_iff.mp (EStateM.Result.ok.inj found).1).1

theorem Timers.Sound.finds (sound : config.Sound) {j : Nat}
    (keyed : config.shared.timerMap.lookup tid = some j) :
    UTimerManager.findTimer tid config.shared = .ok (some j) config.shared := by
  have known : tid ∈ config.shared.allocator.outstanding :=
    (sound.registered.outstanding tid).mpr (.inl (by rw [keyed]; rfl))
  have valid : (config.shared.timerMap.lookup tid).filter (fun _ => tid > 0) = some j := by
    simp [keyed, known.1.1]
  rw [UTimerManager.findTimer_apply, valid]

theorem Timers.Sound.spares_iff (sound : config.Sound) :
    Timers.Spares config move later ↔ config.GivenOnce move := by
  constructor
  · intro spares tid asked keyed i j first second
    obtain ⟨k, keyed⟩ := Option.isSome_iff_exists.mp keyed
    have found := sound.finds keyed
    exact (spares tid i asked first k found).symm.trans (spares tid j asked second k found)
  · intro once tid i asked handed j found
    have keyed := findTimer_found found
    have mine := Option.map_eq_some_iff.mpr (sound.created keyed)
    exact once tid asked (by rw [keyed]; rfl) j i mine handed

open Transition in
/-- The cancellations of a run hit the timers of their handles only, if and only
if no id is used for one that was given to two timers, while one of them has it. -/
theorem spares_iff_givenOnce {path : List (Move TimerCall × Timers)}
    (run : Path Timers.step ⟨.new, 0⟩ path) :
    Path Timers.Spares ⟨.new, 0⟩ path ↔ Every Timers.GivenOnce ⟨.new, 0⟩ path := by
  apply run.steps_iff_every (J := Timers.Sound) _ _ Timers.Sound.new
  · exact fun sound moved => sound.step moved
  · intro config move later sound moved
    exact sound.spares_iff

/-- A timer without repetition finishes, and the next one gets its id. -/
def reissued : List (Move TimerCall × Timers) :=
  Timers.runs ⟨.new, 0⟩
    [.invoke (.create 0 (-1) 0), .advance (.create 0 (-1) 0), .advance (.createFresh 0 (-1)),
      .advance (.createInsert 1 0 (-1)), .invoke (.start 0), .advance (.start 0),
      .invoke (.resume 0), .advance (.resume 0), .invoke (.complete 0 false),
      .advance (.complete 0 false), .invoke (.leave 0), .advance (.leave 0),
      .invoke (.create 5 1 1), .advance (.create 5 1 1), .advance (.createInsert 1 5 1),
      .invoke (.start 1), .advance (.start 1), .invoke (.resume 1), .advance (.resume 1),
      .invoke (.cancelTimer 1)]

/-- The handle of the first timer is used. -/
def staleCancel : List (Move TimerCall × Timers) :=
  Timers.runs (Transition.last ⟨.new, 0⟩ reissued) [.advance (.cancelTimer 1), .advance (.cancel 1)]

/-- It ends the wait of the second one. -/
theorem staleCancel_hits :
    Transition.Path Timers.step ⟨.new, 0⟩ (reissued ++ staleCancel) ∧
      (Transition.last (Transition.last ⟨.new, 0⟩ reissued) staleCancel).shared.timers.map
        (fun timer => (timer.id, timer.routine)) = [(1, .finished), (1, .aborted)] ∧
      ¬ Transition.Path Timers.Spares ⟨.new, 0⟩ (reissued ++ staleCancel) := by
  refine ⟨Transition.path_append.mpr ⟨Timers.runs_path _ _, Timers.runs_path _ _⟩,
    by decide +kernel, fun spares => ?_⟩
  have spared := (Transition.path_append.mp spares).2.1
  have handed : (Transition.last ⟨.new, 0⟩ reissued).shared.Handed 1 0 := by
    unfold UTimerManager.Handed
    decide +kernel
  have keyed : ((Transition.last ⟨.new, 0⟩ reissued).shared.timerMap.lookup 1).filter
      (fun _ => (1 : Int) > 0) = some 1 := by decide +kernel
  have hit := spared 1 0 rfl handed 1 (UTimerManager.findTimer_apply.trans (by rw [keyed]))
  cases hit

/-- A timer is created and cancelled through its own handle. -/
def ownCancel : List (Move TimerCall × Timers) :=
  Timers.runs ⟨.new, 0⟩
    [.invoke (.create 5 1 0), .advance (.create 5 1 0), .advance (.createFresh 5 1),
      .advance (.createInsert 1 5 1), .invoke (.cancelTimer 1), .advance (.cancelTimer 1),
      .advance (.cancel 0)]

theorem spares_iff_givenOnce_own :
    Transition.Path Timers.Spares ⟨.new, 0⟩ ownCancel ↔
      Transition.Every Timers.GivenOnce ⟨.new, 0⟩ ownCancel :=
  spares_iff_givenOnce (Timers.runs_path _ _)

end Uranus
