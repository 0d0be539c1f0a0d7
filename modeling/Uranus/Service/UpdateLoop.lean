import Uranus.Service.Lifecycle

/-! The update loop over the life of the module. `Initial` spawns it and starts
the threads that run it before the module is RUNNING, which is what the test of
the loop asks for. -/
namespace Uranus
open Foundation Program Interleaving

/-- The loop is not over before the module is stopped, and it is there while the
module is INITIALIZED or RUNNING. -/
structure Phase.Alive (p : Phase) : Prop where
  outlives : p.loop = .finished → p.state = .stopped
  present : p.state = .initialized ∨ p.state = .running → p.loop ≠ .absent

/-- The loop is not tested before the module runs. -/
def TestedRunning (config : Life) : Move Activity → Prop
  | .advance (.loop ..) => config.shared.updateLoop = .testing →
      config.shared.state = .running ∨ config.shared.state = .stopped
  | _ => True

/-- The main thread is in a function whose state the module has, and only `Stop`
cancels a wait. -/
structure Phase.Orderly (p : Phase) : Prop where
  cancelled : p.loop = .elapsed true → p.state = .stopped
  creating : ∀ cores, p.main = .creating cores → p.state = .created
  opening : p.main = .opening ∨ p.main = .initialised → p.state = .created ∧ p.loop ≠ .absent
  booting : ∀ services, p.main = .booting services → p.state = .initialized
  stopping : p.main = .cancelling → p.state = .stopped
  present : p.state = .initialized ∨ p.state = .running → p.loop ≠ .absent

namespace Phase
variable {p q : Phase} {activity : Activity}

theorem Turn.orderly (turn : Turn p activity q) (orderly : p.Orderly) : q.Orderly := by
  obtain ⟨cancelled, creating, opening, booting, stopping, present⟩ := orderly
  cases turn with
  | quiet => exact ⟨cancelled, creating, opening, booting, stopping, present⟩
  | begins idle created => exact ⟨cancelled, fun _ _ => created, by simp, by simp, by simp, present⟩
  | creates at' next =>
    have created := creating _ at'
    rcases next with rfl | rfl
    · exact ⟨cancelled, by simp, by simp, by simp, by simp, present⟩
    · exact ⟨cancelled, fun _ _ => created, by simp, by simp, by simp, present⟩
  | spawns at' =>
    have created := creating _ at'
    exact ⟨by simp, by simp, fun _ => ⟨created, by simp⟩, by simp, by simp, by simp⟩
  | opens at' =>
    have before := opening (.inl at')
    exact ⟨cancelled, by simp, fun _ => before, by simp, by simp, present⟩
  | initialises at' =>
    have before := opening (.inr at')
    refine ⟨fun ended => ?_, by simp, by simp, by simp, by simp, fun _ => before.2⟩
    cases before.1.symm.trans (cancelled ended)
  | starts idle initialized =>
    exact ⟨cancelled, by simp, by simp, fun _ _ => initialized, by simp, present⟩
  | boots at' next =>
    have initialized := booting _ at'
    rcases next with rfl | rfl
    · exact ⟨cancelled, by simp, by simp, by simp, by simp, present⟩
    · exact ⟨cancelled, by simp, by simp, fun _ _ => initialized, by simp, present⟩
  | runs at' =>
    have initialized := booting _ at'
    refine ⟨fun ended => ?_, by simp, by simp, by simp, by simp,
      fun _ => present (.inl initialized)⟩
    cases initialized.symm.trans (cancelled ended)
  | stops idle => exact ⟨fun _ => rfl, by simp, by simp, by simp, fun _ => rfl, by simp⟩
  | cancels at' =>
    have stopped := stopping at'
    exact ⟨fun _ => stopped, by simp, by simp, by simp, by simp, by simp [stopped]⟩
  | closes | halts | clears => exact ⟨cancelled, by simp, by simp, by simp, by simp, present⟩
  | enters | passes | expires =>
    refine ⟨by simp, creating, fun at' => ⟨(opening at').1, by simp⟩, booting, stopping, by simp⟩
  | tests =>
    refine ⟨?_, creating, fun at' => ⟨(opening at').1, ?_⟩, booting, stopping, fun _ => ?_⟩
    all_goals
      dsimp only
      split <;> simp
  | @resumes _ _ ended =>
    cases ended
    all_goals
      exact ⟨by simp, creating, fun at' => ⟨(opening at').1, by simp⟩, booting, stopping, by simp⟩
  | signals => exact ⟨cancelled, creating, opening, booting, stopping, present⟩

/-- The loop ends early only at a test before the module runs. -/
theorem Turn.outlives (turn : Turn p activity q) (orderly : p.Orderly)
    (outlives : p.loop = .finished → p.state = .stopped)
    (tested : ∀ timepoint delta, activity = .loop timepoint delta → p.loop = .testing →
      p.state = .running ∨ p.state = .stopped) : q.loop = .finished → q.state = .stopped := by
  cases turn with
  | spawns => exact nofun
  | initialises at' =>
    intro ended
    cases (orderly.opening (.inr at')).1.symm.trans (outlives ended)
  | runs at' =>
    intro ended
    cases (orderly.booting _ at').symm.trans (outlives ended)
  | stops => exact fun _ => rfl
  | cancels at' => exact fun _ => orderly.stopping at'
  | enters | passes | expires => exact nofun
  | tests at' =>
    intro ended
    dsimp only at ended
    split at ended
    · cases ended
    next before => exact (tested _ _ rfl at').resolve_left before
  | @resumes _ _ cancelled at' =>
    cases cancelled with
    | false => exact nofun
    | true => exact fun _ => orderly.cancelled at'
  | _ => exact outlives

end Phase

section
variable {config later : Life} {move : Move Activity}

/-- A property of the phase that every turn keeps, the steps of the module keep. -/
theorem Life.phase_step {P : Phase → Prop}
    (keeps : ∀ {p q activity}, P p → Phase.Turn p activity q → P q)
    (holds : P config.shared.phase) (moved : Life.step config move later) :
    P later.shared.phase := by
  cases moved with
  | invoke => exact holds
  | advance pending reaches => exact keeps holds (part_phase reaches)

theorem Life.orderly_step (orderly : config.shared.phase.Orderly)
    (moved : Life.step config move later) : later.shared.phase.Orderly :=
  Life.phase_step (fun orderly turn => turn.orderly orderly) orderly moved

theorem Life.alive_step (orderly : config.shared.phase.Orderly)
    (alive : config.shared.phase.Alive) (tested : TestedRunning config move)
    (moved : Life.step config move later) : later.shared.phase.Alive := by
  refine ⟨?_, (Life.orderly_step orderly moved).present⟩
  cases moved with
  | invoke => exact alive.outlives
  | advance pending reaches =>
    refine (part_phase reaches).outlives orderly alive.outlives ?_
    rintro timepoint delta rfl
    exact tested

/-- A test before the module runs ends the loop. -/
theorem Life.early_step (early : ¬ TestedRunning config move)
    (moved : Life.step config move later) : ¬ later.shared.phase.Alive := by
  cases moved with
  | invoke => exact absurd trivial early
  | @advance s t calls activity rest pending reaches =>
    cases activity with
    | loop timepoint delta =>
      obtain ⟨testing, before⟩ := Classical.not_imp.mp early
      obtain ⟨running, stopped⟩ := not_or.mp before
      cases loopNext_cases reaches.last.2 with
      | tests _ same =>
        subst same
        exact fun alive => stopped (alive.outlives (if_neg running))
      | stays other _ => exact absurd testing other
      | enters at' _ _ | resumes at' _ _ | passes at' _ _ => cases testing.symm.trans at'
    | _ => exact absurd trivial early

open Transition in
/-- From its construction on, the loop outlives the start of the module if and
only if it is never tested before the module runs. -/
theorem alive_iff_testedRunning (factory : IServiceFactory) {path : List (Move Activity × Life)}
    (run : Path Life.step ⟨.new factory, 0⟩ path) :
    Always (fun config => config.shared.phase.Alive) ⟨.new factory, 0⟩ path ↔
      Every TestedRunning ⟨.new factory, 0⟩ path := by
  have orderly : (UServiceModule.new factory).phase.Orderly := by
    constructor <;> simp [UServiceModule.phase, UServiceModule.new]
  have alive : (UServiceModule.new factory).phase.Alive := by
    constructor <;> simp [UServiceModule.phase, UServiceModule.new]
  apply run.always_iff_every (J := fun config => config.shared.phase.Orderly) _ _ _ orderly alive
  · exact fun orderly moved => Life.orderly_step orderly moved
  · exact fun orderly alive tested moved => Life.alive_step orderly alive tested moved
  · exact fun _ _ early moved => Life.early_step early moved

end

/-- A worker thread runs the loop before `Initial` has set the state. -/
def testedEarly : List (Move Activity × Life) :=
  Life.runs ⟨.new (.only mailService), 0⟩
    [.invoke (.initial []), .advance (.initial []), .invoke .main, .advance .main, .invoke .main,
      .advance .main, .invoke (.loop 0 0), .advance (.loop 0 0), .invoke (.loop 0 0),
      .advance (.loop 0 0), .invoke .main, .advance .main]

/-- The module is INITIALIZED and will start without its update loop. -/
theorem testedEarly_finished :
    Transition.Path Life.step ⟨.new (.only mailService), 0⟩ testedEarly ∧
      (Transition.last ⟨.new (.only mailService), 0⟩ testedEarly).shared.state = .initialized ∧
      ¬ Transition.Always (fun config => config.shared.phase.Alive)
        ⟨.new (.only mailService), 0⟩ testedEarly := by
  refine ⟨Life.runs_path _ _, by decide +kernel, fun always => ?_⟩
  have finished : (Transition.last ⟨.new (.only mailService), 0⟩
      testedEarly).shared.phase.loop = .finished := by decide +kernel
  have stopped := always.last.outlives finished
  revert stopped
  decide +kernel

theorem alive_iff_testedRunning_early :
    Transition.Always (fun config => config.shared.phase.Alive)
        ⟨.new (.only mailService), 0⟩ (Life.runs ⟨.new (.only mailService), 0⟩
          [.invoke (.initial []), .advance (.initial []), .invoke .main, .advance .main]) ↔
      Transition.Every TestedRunning ⟨.new (.only mailService), 0⟩
        (Life.runs ⟨.new (.only mailService), 0⟩
          [.invoke (.initial []), .advance (.initial []), .invoke .main, .advance .main]) :=
  alive_iff_testedRunning _ (Life.runs_path _ _)

end Uranus
