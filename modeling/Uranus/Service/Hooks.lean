import Uranus.Foundation.Path
import Uranus.Service.ServiceBase

/-! The order of the hooks of a service. Whatever happens to its agent, a service is
initialised first, started next, then it handles nodes one by one, and at last it is
stopped. No two hooks run at once. A service whose overrides call their base functions
is refused no function of the base class for its state while it handles nodes; whether
the function then succeeds is another matter. -/
namespace Uranus
open Foundation

namespace Mailbox
variable {m t : Mailbox} {event : Event}

/-- What an event does to the coroutine and to the nodes executed. -/
inductive Turn (m t : Mailbox) : Prop
  | still (process : t.process = m.process) (executed : t.executed = m.executed)
  | goes (live : m.process ≠ .absent ∧ m.process ≠ .cleaning ∧ m.process ≠ .finished)
      (process : t.process = .receiving ∨ t.process = .cleaning ∨ t.process = .finished)
      (executed : t.executed = m.executed)
  | executes (live : m.process ≠ .absent ∧ m.process ≠ .cleaning ∧ m.process ≠ .finished)
      (post : Post) (process : t.process = .executing post)
      (executed : t.executed = m.executed ++ [post])

theorem loop_turn (m : Mailbox) :
    (m.loop.process = .receiving ∨ m.loop.process = .cleaning ∨ m.loop.process = .finished) ∧
      m.loop.executed = m.executed := by
  unfold loop
  split
  · exact ⟨.inl rfl, rfl⟩
  · exact ⟨.inr (.inl rfl), rfl⟩

theorem push_executed (node : Option IChannelNode) (m : Mailbox) :
    (m.push node).executed = m.executed := by
  unfold push
  split
  · rfl
  · cases node with
    | none => rfl
    | some node =>
      dsimp only
      split <;> rfl

theorem resume_turn {actor : Bool} (moved : m.resume actor = some t) : Turn m t := by
  unfold resume at moved
  split at moved
  next at' =>
    cases moved
    exact .goes (by simp [at']) (loop_turn m).1 (loop_turn m).2
  next at' =>
    have live : m.process ≠ .absent ∧ m.process ≠ .cleaning ∧ m.process ≠ .finished := by
      simp [at']
    split at moved
    · cases moved
    · cases moved
      exact .goes live (.inr (.inl rfl)) rfl
    · dsimp only at moved
      split at moved
      · cases moved
        exact .goes live (.inr (.inl rfl)) rfl
      · split at moved
        · cases moved
          exact .executes live _ rfl rfl
        · cases moved
          exact .goes live (loop_turn _).1 (loop_turn _).2
  all_goals cases moved

theorem step_turn (moved : m.step event = some t) (other : event ≠ .cleanUp) : Turn m t := by
  cases event with
  | push node =>
    cases moved
    exact .still (push_process node m) (push_executed node m)
  | deliver post =>
    simp only [step, deliver] at moved
    split at moved
    · cases moved
      exact .still rfl rfl
    · cases moved
  | resume actor => exact resume_turn moved
  | complete threw =>
    simp only [step, complete] at moved
    split at moved
    next at' =>
      have live : m.process ≠ .absent ∧ m.process ≠ .cleaning ∧ m.process ≠ .finished := by
        simp [at']
      split at moved
      · cases moved
        exact .goes live (.inr (.inr rfl)) rfl
      · cases moved
        exact .goes live (loop_turn m).1 (loop_turn m).2
    all_goals cases moved
  | cleanUp => exact absurd rfl other
  | close =>
    cases moved
    exact .still rfl rfl

/-- The only way from `CleanUp` is the end. -/
theorem cleanUp_spec (moved : m.cleanUp = some t) :
    m.process = .cleaning ∧ t.process = .finished ∧ t.executed = m.executed := by
  unfold cleanUp at moved
  split at moved
  next at' =>
    cases moved
    exact ⟨at', rfl, rfl⟩
  all_goals cases moved

end Mailbox

/-- The hooks that a thread has called when it stands somewhere before its end. -/
def BootThread.hooks : BootThread → List Hook
  | .setUp => []
  | .inInitial | .ready => [.initial]
  | .inStart | .ended => [.initial, .start]

namespace ServiceLife
variable {s t : ServiceLife} {move : LifeMove}

/-- The hooks of a service that was started, up to the node it has come to. -/
def served (s : ServiceLife) : List Hook :=
  .initial :: .start :: s.mailbox.executed.map .handler

/-- How far a service has come. -/
inductive Phase (s : ServiceLife) : Prop
  | booting (boot : s.boot ≠ .ended) (process : s.mailbox.process = .absent)
      (executed : s.mailbox.executed = []) (held : s.held = true) (still : s.stopping = false)
      (called : s.called = s.boot.hooks)
  | failed (boot : s.boot = .ended) (process : s.mailbox.process = .absent)
      (executed : s.mailbox.executed = []) (held : s.held = true) (still : s.stopping = false)
      (called : s.called = [.initial] ∨ s.called = [.initial, .start])
  | serving (boot : s.boot = .ended) (process : s.mailbox.process ≠ .absent) (held : s.held = true)
      (still : s.stopping = false) (called : s.called = s.served)
      (last : ∀ post, s.mailbox.process = .executing post →
        s.mailbox.executed.getLast? = some post)
  | stopping (boot : s.boot = .ended) (process : s.mailbox.process = .cleaning)
      (held : s.held = true) (stops : s.stopping = true) (called : s.called = s.served ++ [.stop])
  | stopped (boot : s.boot = .ended) (process : s.mailbox.process = .finished)
      (still : s.stopping = false) (called : s.called = s.served ++ [.stop])

theorem Phase.new : Phase new := .booting (by decide) rfl rfl rfl rfl rfl

/-- A phase shows in the places of the threads and in the history. -/
theorem Phase.congr (phase : Phase s) (held : t.held = s.held) (boot : t.boot = s.boot)
    (process : t.mailbox.process = s.mailbox.process)
    (executed : t.mailbox.executed = s.mailbox.executed) (stopping : t.stopping = s.stopping)
    (called : t.called = s.called) : Phase t := by
  have served : t.served = s.served := by rw [ServiceLife.served, ServiceLife.served, executed]
  cases phase with
  | booting boot' process' executed' held' still called' =>
    exact .booting (boot ▸ boot') (process.trans process') (executed.trans executed')
      (held.trans held') (stopping.trans still) (by rw [called, called', boot])
  | failed boot' process' executed' held' still called' =>
    exact .failed (boot.trans boot') (process.trans process') (executed.trans executed')
      (held.trans held') (stopping.trans still) (called ▸ called')
  | serving boot' process' held' still called' last =>
    exact .serving (boot.trans boot') (process ▸ process') (held.trans held')
      (stopping.trans still) (by rw [called, called', served])
      (by rw [process, executed]; exact last)
  | stopping boot' process' held' stops called' =>
    exact .stopping (boot.trans boot') (process.trans process') (held.trans held')
      (stopping.trans stops) (by rw [called, called', served])
  | stopped boot' process' still called' =>
    exact .stopped (boot.trans boot') (process.trans process') (stopping.trans still)
      (by rw [called, called', served])

/-- Until the boot thread is over there is no coroutine. -/
theorem Phase.boots (phase : Phase s) (boot : s.boot ≠ .ended) :
    s.mailbox.process = .absent ∧ s.mailbox.executed = [] ∧ s.held = true ∧
      s.stopping = false ∧ s.called = s.boot.hooks := by
  cases phase with
  | booting _ process executed held still called => exact ⟨process, executed, held, still, called⟩
  | failed ended | serving ended | stopping ended | stopped ended => exact absurd ended boot

theorem Phase.stops (phase : Phase s) (stops : s.stopping = true) :
    s.boot = .ended ∧ s.mailbox.process = .cleaning ∧ s.called = s.served ++ [.stop] := by
  cases phase with
  | stopping boot process held _ called => exact ⟨boot, process, called⟩
  | booting _ _ _ _ still | failed _ _ _ _ still | serving _ _ _ still | stopped _ _ still =>
    rw [still] at stops
    cases stops

theorem post_spec {event : Mailbox.Event} (moved : s.post event = some t) :
    event ≠ .cleanUp ∧ ∃ mailbox, s.mailbox.step event = some mailbox ∧
      t = { s with
        mailbox, called := s.called ++
          (mailbox.executed.drop s.mailbox.executed.length).map .handler } := by
  cases event with
  | cleanUp => cases moved
  | resume actor =>
    simp only [post] at moved
    split at moved
    · obtain ⟨mailbox, stepped, rfl⟩ := Option.map_eq_some_iff.mp moved
      exact ⟨by simp, mailbox, stepped, rfl⟩
    · cases moved
  | push node | deliver waiting | complete threw | close =>
    simp only [post, Option.map_eq_some_iff] at moved
    obtain ⟨mailbox, stepped, rfl⟩ := moved
    exact ⟨by simp, mailbox, stepped, rfl⟩

/-- A node is handled in the phase of serving only. -/
theorem Phase.post (phase : Phase s) {event : Mailbox.Event} (moved : s.post event = some t) :
    Phase t := by
  obtain ⟨other, mailbox, stepped, rfl⟩ := post_spec moved
  have serves (live : s.mailbox.process ≠ .absent ∧ s.mailbox.process ≠ .cleaning ∧
      s.mailbox.process ≠ .finished) : s.boot = .ended ∧ s.held = true ∧ s.stopping = false ∧
        s.called = s.served := by
    cases phase with
    | booting _ process | failed _ process => exact absurd process live.1
    | serving boot process held still called => exact ⟨boot, held, still, called⟩
    | stopping _ process => exact absurd process live.2.1
    | stopped _ process => exact absurd process live.2.2
  cases Mailbox.step_turn stepped other with
  | still process executed =>
    have called : s.called ++
        (mailbox.executed.drop s.mailbox.executed.length).map .handler = s.called := by
      simp [executed]
    exact phase.congr (t := { s with mailbox, called := _ }) rfl rfl process executed rfl called
  | goes live process executed =>
    obtain ⟨boot, held, still, called⟩ := serves live
    refine .serving boot ?_ held still ?_ ?_
    · intro absent
      rw [absent] at process
      simp at process
    · simp [called, served, executed]
    · intro post executing
      rw [executing] at process
      simp at process
  | executes live post process executed =>
    obtain ⟨boot, held, still, called⟩ := serves live
    refine .serving boot ?_ held still ?_ ?_
    · simp [process]
    · simp [called, served, executed]
    · intro other executing
      rw [process] at executing
      cases executing
      simp [executed]

theorem Phase.step (phase : Phase s) (moved : Step s move t) : Phase t := by
  cases move with
  | initial =>
    simp only [Step, next] at moved
    split at moved
    next at' =>
      cases moved
      obtain ⟨process, executed, held, still, called⟩ := phase.boots (by simp [at'])
      exact .booting (by simp) process executed held still (by simp [called, at', BootThread.hooks])
    next => cases moved
  | initialReturns ready =>
    simp only [Step, next] at moved
    split at moved
    next at' =>
      cases moved
      obtain ⟨process, executed, held, still, called⟩ := phase.boots (by simp [at'])
      rw [at'] at called
      cases ready with
      | true => exact .booting (by simp) process executed held still called
      | false => exact .failed rfl process executed held still (.inl called)
    next => cases moved
  | giveUp =>
    simp only [Step, next] at moved
    split at moved
    next at' =>
      cases moved
      obtain ⟨process, executed, held, still, called⟩ := phase.boots (by simp [at'])
      rw [at'] at called
      exact .failed rfl process executed held still (.inl called)
    next => cases moved
  | bootService =>
    simp only [Step, next] at moved
    split at moved
    next at' =>
      obtain ⟨process, executed, held, still, called⟩ := phase.boots (by simp [at'])
      rw [at'] at called
      split at moved
      · cases moved
        exact .booting (by simp) process executed held still (by simp [called, BootThread.hooks])
      · cases moved
        exact .failed rfl process executed held still (.inl called)
    next => cases moved
  | startReturns started =>
    simp only [Step, next] at moved
    split at moved
    next at' =>
      cases moved
      obtain ⟨process, executed, held, still, called⟩ := phase.boots (by simp [at'])
      rw [at'] at called
      cases started with
      | true =>
        have spawned : s.mailbox.spawnProcess.process = .starting := by
          simp [Mailbox.spawnProcess, process]
        have kept : s.mailbox.spawnProcess.executed = [] := by
          simp [Mailbox.spawnProcess, process, executed]
        refine .serving rfl ?_ held still ?_ ?_
        · simp [spawned]
        · simp [called, served, kept, BootThread.hooks]
        · intro post executing
          rw [if_pos rfl, spawned] at executing
          cases executing
      | false => exact .failed rfl process executed held still (.inr called)
    next => cases moved
  | throws =>
    simp only [Step, next] at moved
    split at moved
    next at' =>
      cases moved
      rcases at' with at' | at'
      · obtain ⟨process, executed, held, still, called⟩ := phase.boots (by simp [at'])
        rw [at'] at called
        exact .failed rfl process executed held still (.inl called)
      · obtain ⟨process, executed, held, still, called⟩ := phase.boots (by simp [at'])
        rw [at'] at called
        exact .failed rfl process executed held still (.inr called)
    next => cases moved
  | base hook function =>
    simp only [Step, next] at moved
    split at moved
    · cases moved
      exact phase.congr rfl rfl rfl rfl rfl rfl
    · cases moved
  | use hook function beyond =>
    simp only [Step, next] at moved
    split at moved
    · cases moved
      exact phase.congr rfl rfl rfl rfl rfl rfl
    · cases moved
  | mailbox event => exact phase.post moved
  | cleanUp =>
    simp only [Step, next] at moved
    split at moved
    next at' =>
      cases phase with
      | booting _ process | failed _ process =>
        rw [process] at at'
        cases at'.1
      | stopped _ process =>
        rw [process] at at'
        cases at'.1
      | stopping _ _ _ stops =>
        rw [stops] at at'
        cases at'.2
      | serving boot process held still called =>
        rw [if_pos held] at moved
        cases moved
        exact .stopping boot at'.1 held rfl (by rw [called]; rfl)
    next => cases moved
  | stopReturns =>
    simp only [Step, next] at moved
    split at moved
    next stops =>
      obtain ⟨boot, process, called⟩ := phase.stops stops
      obtain ⟨mailbox, cleaned, rfl⟩ := Option.map_eq_some_iff.mp moved
      obtain ⟨-, finished, executed⟩ := Mailbox.cleanUp_spec cleaned
      exact .stopped boot finished rfl (by simp [called, served, executed])
    next => cases moved
  | stopThrows =>
    simp only [Step, next] at moved
    split at moved
    next stops =>
      obtain ⟨boot, process, called⟩ := phase.stops stops
      obtain ⟨mailbox, cleaned, rfl⟩ := Option.map_eq_some_iff.mp moved
      obtain ⟨-, finished, executed⟩ := Mailbox.cleanUp_spec cleaned
      exact .stopped boot finished rfl (by simp [called, served, executed])
    next => cases moved

/-- The hooks come in order, each node that was executed has been handled once, and the
hook that runs, if one does, is the last that was called. A service that was released
has been stopped and is not called again. -/
structure Regular (s : ServiceLife) : Prop where
  order : s.called <+: [.initial, .start] ∨ s.called = s.served ∨ s.called = s.served ++ [.stop]
  alone : s.runs.length ≤ 1
  latest : ∀ hook ∈ s.runs, s.called.getLast? = some hook
  released : s.held = false → s.runs = [] ∧ s.mailbox.process = .finished ∧
    s.called = s.served ++ [.stop]

theorem runs_boot (process : s.mailbox.process = .absent) (still : s.stopping = false) :
    s.runs = s.boot.runs := by
  simp [runs, ProcessChannel.runs, process, still]

theorem runs_process (boot : s.boot = .ended) (still : s.stopping = false) :
    s.runs = s.mailbox.process.runs := by
  simp [runs, BootThread.runs, boot, still]

theorem runs_stop (boot : s.boot = .ended) (process : s.mailbox.process = .cleaning)
    (stops : s.stopping = true) : s.runs = [.stop] := by
  simp [runs, BootThread.runs, ProcessChannel.runs, boot, process, stops]

theorem Phase.regular (phase : Phase s) : Regular s := by
  cases phase with
  | booting boot process executed held still called =>
    have runs := runs_boot process still
    constructor
    · left
      rw [called]
      cases s.boot <;> simp [BootThread.hooks]
    · rw [runs]
      cases s.boot <;> simp [BootThread.runs]
    · rw [runs, called]
      cases s.boot <;> simp [BootThread.runs, BootThread.hooks]
    · simp [held]
  | failed boot process executed held still called =>
    have runs : s.runs = [] := by rw [runs_boot process still, boot, BootThread.runs]
    constructor
    · left
      rcases called with called | called <;> simp [called]
    · simp [runs]
    · simp [runs]
    · simp [held]
  | serving boot process held still called last =>
    have runs := runs_process boot still
    constructor
    · exact .inr (.inl called)
    · rw [runs]
      cases s.mailbox.process <;> simp [ProcessChannel.runs]
    · rw [runs]
      cases at' : s.mailbox.process with
      | executing post =>
        intro hook member
        obtain rfl : hook = .handler post := List.mem_singleton.mp member
        rw [called, served, List.getLast?_cons_cons, List.getLast?_cons, List.getLast?_map,
          last post at']
        rfl
      | absent | starting | receiving | cleaning | finished => simp [ProcessChannel.runs]
    · simp [held]
  | stopping boot process held stops called =>
    have runs := runs_stop boot process stops
    constructor
    · exact .inr (.inr called)
    · simp [runs]
    · simp [runs, called]
    · simp [held]
  | stopped boot process still called =>
    have runs : s.runs = [] := by rw [runs_process boot still, process, ProcessChannel.runs]
    constructor
    · exact .inr (.inr called)
    · simp [runs]
    · simp [runs]
    · exact fun _ => ⟨runs, process, called⟩

theorem phase_always {path : List (LifeMove × ServiceLife)} (run : Transition.Path Step new path) :
    Transition.Always Phase new path :=
  run.invariant (fun phase moved => phase.step moved) Phase.new

/-- In every run of an agent, whatever its service does in its hooks and whoever pushes,
closes or throws, the hooks of the service are called in order and one at a time. -/
theorem hooks_always_regular {path : List (LifeMove × ServiceLife)}
    (run : Transition.Path Step new path) : Transition.Always Regular new path :=
  (phase_always run).imp fun _ phase => phase.regular

/-- A service that listens, asks for a timer too early and for a logger that is there
already, handles one task and is stopped. -/
def wholeLife : List LifeMove :=
  [.initial, .base .initial .initial, .use .initial .listenEvent none,
    .use .initial .createTimer none, .initialReturns true, .bootService, .base .start .start,
    .use .start .tryCreateLogger (some "logger with name 'mail' already exists"),
    .startReturns true, .mailbox (.push (some (.task 7))), .mailbox (.resume true),
    .mailbox (.resume true), .use (.handler ⟨0, .task 7⟩) .buildPackage none, .mailbox .close,
    .mailbox (.complete false), .cleanUp, .base .stop .stop, .use .stop .dispatchEvent none,
    .stopReturns]

theorem hooks_always_regular_wholeLife :
    Transition.Always Regular new (new.moves wholeLife) ∧
      (Transition.last new (new.moves wholeLife)).called =
        [.initial, .start, .handler ⟨0, .task 7⟩, .stop] :=
  ⟨hooks_always_regular (moves_path new wholeLife), by decide⟩

/-- The overrides of the service call their base functions and nobody else does, and
`Initial` and `Start` return true only after theirs. -/
def Cooperates (s : ServiceLife) : LifeMove → Prop
  | .base hook .initial => hook = .initial
  | .base hook .start => hook = .start
  | .base hook .stop => hook = .stop
  | .initialReturns true => s.state = .initialized
  | .startReturns true => s.state = .running
  | .initial | .initialReturns false | .giveUp | .bootService | .startReturns false | .throws
  | .use .. | .mailbox _ | .cleanUp | .stopReturns | .stopThrows => True

end ServiceLife

/-- The states in which a hook of such a service runs. -/
def Hook.states : Hook → List EServiceState
  | .initial => [.created, .initialized]
  | .start => [.initialized, .running]
  | .handler _ => [.running]
  | .stop => [.running, .terminated]

namespace ServiceLife
variable {s t : ServiceLife} {move : LifeMove}

/-- The state of the service fits to how far it has come, and so do the answers. -/
structure Level (s : ServiceLife) : Prop where
  setUp : s.boot = .setUp → s.state = .created
  inInitial : s.boot = .inInitial → s.state ∈ Hook.initial.states
  ready : s.boot = .ready → s.state = .initialized
  inStart : s.boot = .inStart → s.state ∈ Hook.start.states
  serving : s.mailbox.process ≠ .absent → .stop ∉ s.called → s.state = .running
  stopping : s.stopping = true → s.state ∈ Hook.stop.states
  answers : ∀ entry ∈ s.answers, ∃ state ∈ entry.1.states, ∃ opened beyond,
    entry.2.2 = entry.2.1.answer state true opened beyond

theorem Level.new : Level new where
  setUp _ := rfl
  inInitial wrong := by cases wrong
  ready wrong := by cases wrong
  inStart wrong := by cases wrong
  serving wrong := absurd rfl wrong
  stopping wrong := by cases wrong
  answers entry member := by cases member

/-- Who runs a hook has its service. -/
theorem Phase.holds (phase : Phase s) {hook : Hook} (runs : hook ∈ s.runs) : s.held = true := by
  by_contra gone
  rw [(phase.regular.released (by simpa using gone)).1] at runs
  cases runs

theorem stop_unserved (s : ServiceLife) : Hook.stop ∉ s.served := by simp [served]

theorem mem_runs {hook : Hook} (runs : hook ∈ s.runs) :
    s.boot = .inInitial ∧ hook = .initial ∨ s.boot = .inStart ∧ hook = .start ∨
      (∃ post, s.mailbox.process = .executing post ∧ hook = .handler post) ∨
      s.stopping = true ∧ hook = .stop := by
  simp only [ServiceLife.runs, List.mem_append] at runs
  rcases runs with runs | runs | runs
  · cases at' : s.boot <;> simp [BootThread.runs, at'] at runs <;> simp [runs]
  · cases at' : s.mailbox.process <;> simp [ProcessChannel.runs, at'] at runs
    simp [runs]
  · split at runs
    next stops => simpa [stops] using Or.inr (Or.inr (Or.inr (List.mem_singleton.mp runs)))
    next => cases runs

/-- A hook that runs finds the service in one of its states. -/
theorem Level.running (level : Level s) (phase : Phase s) {hook : Hook} (runs : hook ∈ s.runs) :
    s.state ∈ hook.states := by
  rcases mem_runs runs with ⟨at', rfl⟩ | ⟨at', rfl⟩ | ⟨post, at', rfl⟩ | ⟨stops, rfl⟩
  · exact level.inInitial at'
  · exact level.inStart at'
  · have last := phase.regular.latest _ runs
    have unstopped : Hook.stop ∉ s.called := by
      rcases phase.regular.order with early | called | called
      · intro stopped
        have := early.subset stopped
        simp at this
      · rw [called]
        exact stop_unserved s
      · rw [called] at last
        simp at last
    rw [level.serving (by simp [at']) unstopped]
    exact List.mem_singleton_self _
  · exact level.stopping stops

/-- The boot thread is over. -/
theorem Level.leave (level : Level s) (boot : t.boot = .ended) (still : t.stopping = false)
    (serving : t.mailbox.process ≠ .absent → .stop ∉ t.called → t.state = .running)
    (answers : t.answers = s.answers) : Level t where
  setUp at' := by simp [boot] at at'
  inInitial at' := by simp [boot] at at'
  ready at' := by simp [boot] at at'
  inStart at' := by simp [boot] at at'
  serving := serving
  stopping stops := by simp [still] at stops
  answers := answers ▸ level.answers

/-- The boot thread goes to one of its other places. -/
theorem Level.stay (level : Level s) (phase : Phase s) (boot : s.boot ≠ .ended)
    (mailbox : t.mailbox = s.mailbox) (stopping : t.stopping = s.stopping)
    (answers : t.answers = s.answers) (setUp : t.boot ≠ .setUp)
    (inInitial : t.boot = .inInitial → t.state ∈ Hook.initial.states)
    (ready : t.boot = .ready → t.state = .initialized)
    (inStart : t.boot = .inStart → t.state ∈ Hook.start.states) : Level t where
  setUp at' := absurd at' setUp
  inInitial := inInitial
  ready := ready
  inStart := inStart
  serving live := absurd (mailbox ▸ (phase.boots boot).1) live
  stopping stops := by
    rw [stopping, (phase.boots boot).2.2.2.1] at stops
    cases stops
  answers := answers ▸ level.answers

theorem Level.base (level : Level s) (phase : Phase s) {hook : Hook} {function : BaseFunction}
    (runs : hook ∈ s.runs) (cooperates : s.Cooperates (.base hook function)) :
    Level { s with state := function.apply s.state } := by
  have now := level.running phase runs
  rcases mem_runs runs with ⟨at', rfl⟩ | ⟨at', rfl⟩ | ⟨post, at', rfl⟩ | ⟨stops, rfl⟩
  · cases function with
    | initial =>
      refine level.stay phase (by simp [at']) rfl rfl rfl ?_ ?_ ?_ ?_ <;> simp [at']
      rcases List.mem_pair.mp now with now | now <;> rw [now] <;> decide
    | start | stop => cases cooperates
  · cases function with
    | start =>
      refine level.stay phase (by simp [at']) rfl rfl rfl ?_ ?_ ?_ ?_ <;> simp [at']
      rcases List.mem_pair.mp now with now | now <;> rw [now] <;> decide
    | initial | stop => cases cooperates
  · cases function <;> cases cooperates
  · obtain ⟨boot, process, called⟩ := phase.stops stops
    cases function with
    | stop =>
      have ended : (BaseFunction.apply s.state .stop) = .terminated := by
        rcases List.mem_pair.mp now with now | now <;> rw [now] <;> decide
      constructor
      · simp [boot]
      · simp [boot]
      · simp [boot]
      · simp [boot]
      · simp [called]
      · simp [ended, Hook.states]
      · exact level.answers
    | initial | start => cases cooperates

theorem Level.post (level : Level s) {event : Mailbox.Event} (moved : s.post event = some t) :
    Level t := by
  obtain ⟨other, mailbox, stepped, rfl⟩ := post_spec moved
  refine ⟨level.setUp, level.inInitial, level.ready, level.inStart, ?_, level.stopping,
    level.answers⟩
  intro live unstopped
  have live : s.mailbox.process ≠ .absent := by
    cases Mailbox.step_turn stepped other with
    | still process executed => rwa [← process]
    | goes live | executes live => exact live.1
  exact level.serving live fun stopped => unstopped (List.mem_append_left _ stopped)

theorem Level.step (level : Level s) (phase : Phase s) (cooperates : s.Cooperates move)
    (moved : Step s move t) : Level t := by
  have later := phase.step moved
  cases move with
  | initial =>
    simp only [Step, next] at moved
    split at moved
    next at' =>
      cases moved
      refine level.stay phase (by simp [at']) rfl rfl rfl ?_ ?_ ?_ ?_ <;> simp
      rw [level.setUp at']
      decide
    next => cases moved
  | initialReturns ready =>
    simp only [Step, next] at moved
    split at moved
    next at' =>
      cases moved
      cases ready with
      | true =>
        refine level.stay phase (by simp [at']) rfl rfl rfl ?_ ?_ ?_ ?_ <;> simp
        exact cooperates
      | false =>
        refine level.stay phase (by simp [at']) rfl rfl rfl ?_ ?_ ?_ ?_ <;> simp
    next => cases moved
  | giveUp =>
    simp only [Step, next] at moved
    split at moved
    next at' =>
      cases moved
      refine level.stay phase (by simp [at']) rfl rfl rfl ?_ ?_ ?_ ?_ <;> simp
    next => cases moved
  | bootService =>
    simp only [Step, next] at moved
    split at moved
    next at' =>
      split at moved
      · cases moved
        refine level.stay phase (by simp [at']) rfl rfl rfl ?_ ?_ ?_ ?_ <;> simp
        rw [level.ready at']
        decide
      · cases moved
        refine level.stay phase (by simp [at']) rfl rfl rfl ?_ ?_ ?_ ?_ <;> simp
    next => cases moved
  | startReturns started =>
    simp only [Step, next] at moved
    split at moved
    next at' =>
      cases moved
      obtain ⟨process, -, -, still, -⟩ := phase.boots (by simp [at'])
      cases started with
      | true => exact level.leave rfl still (fun _ _ => cooperates) rfl
      | false => exact level.leave rfl still (fun live => absurd process live) rfl
    next => cases moved
  | throws =>
    simp only [Step, next] at moved
    split at moved
    next at' =>
      cases moved
      have before : s.boot ≠ .ended := by rcases at' with at' | at' <;> simp [at']
      refine level.stay phase before rfl rfl rfl ?_ ?_ ?_ ?_ <;> simp
    next => cases moved
  | base hook function =>
    simp only [Step, next] at moved
    split at moved
    next runs =>
      cases moved
      exact level.base phase runs cooperates
    next => cases moved
  | use hook function beyond =>
    simp only [Step, next] at moved
    split at moved
    next runs =>
      cases moved
      refine ⟨level.setUp, level.inInitial, level.ready, level.inStart, level.serving,
        level.stopping, ?_⟩
      intro entry member
      rcases List.mem_append.mp member with old | new
      · exact level.answers entry old
      · cases List.mem_singleton.mp new
        exact ⟨s.state, level.running phase runs, _, _, by rw [phase.holds runs]⟩
    next => cases moved
  | mailbox event => exact level.post moved
  | cleanUp =>
    simp only [Step, next] at moved
    split at moved
    next at' =>
      split at moved
      next held =>
        cases moved
        obtain ⟨ended, -, called⟩ := later.stops rfl
        have boot : s.boot = .ended := ended
        have unstopped : Hook.stop ∉ s.called := by
          have same : s.called = s.served := (List.append_inj' called rfl).1
          rw [same]
          exact stop_unserved s
        constructor
        · simp [boot]
        · simp [boot]
        · simp [boot]
        · simp [boot]
        · simp
        · intro _
          rw [level.serving (by simp [at'.1]) unstopped]
          decide
        · exact level.answers
      next gone =>
        obtain ⟨mailbox, cleaned, rfl⟩ := Option.map_eq_some_iff.mp moved
        cases phase with
        | booting _ _ _ held | failed _ _ _ held | serving _ _ held | stopping _ _ held =>
          exact absurd held gone
        | stopped _ process => simp [process] at at'
    next => cases moved
  | stopReturns =>
    simp only [Step, next] at moved
    split at moved
    next stops =>
      obtain ⟨boot, process, called⟩ := phase.stops stops
      obtain ⟨mailbox, cleaned, rfl⟩ := Option.map_eq_some_iff.mp moved
      exact level.leave boot rfl (by simp [called]) rfl
    next => cases moved
  | stopThrows =>
    simp only [Step, next] at moved
    split at moved
    next stops =>
      obtain ⟨boot, process, called⟩ := phase.stops stops
      obtain ⟨mailbox, cleaned, rfl⟩ := Option.map_eq_some_iff.mp moved
      exact level.leave boot rfl (by simp [called]) rfl
    next => cases moved

theorem level_always {path : List (LifeMove × ServiceLife)} (run : Transition.Path Step new path)
    (cooperates : Transition.Every Cooperates new path) :
    Transition.Always (fun s => Phase s ∧ Level s) new path :=
  run.always (fun both cooperates moved =>
    ⟨both.1.step moved, both.2.step both.1 cooperates moved⟩) ⟨Phase.new, Level.new⟩ cooperates

/-- What a service can rely on from the guards of its base class. No function that looks
at the state is refused in a handler; packages, events to dispatch and timers always are
in `Initial`, listeners and loggers never are in `Start`, nor are events in `Stop`. What
the agent throws behind a guard is no refusal. -/
structure Dependable (s : ServiceLife) : Prop where
  handler : ∀ post function what, (.handler post, function, .refused what) ∉ s.answers
  initial : ∀ function answer, (.initial, function, answer) ∈ s.answers →
    function = .buildPackage ∨ function = .dispatchEvent ∨ function = .createTimer →
    ∃ what, answer = .refused what
  start : ∀ function what, (.start, function, .refused what) ∈ s.answers →
    function ≠ .listenEvent ∧ function ≠ .tryCreateLogger
  stop : ∀ function what, (.stop, function, .refused what) ∈ s.answers → function ≠ .dispatchEvent

/-- A function is refused if and only if its state is the wrong one. -/
theorem answer_refused {function : ServiceFunction} {state : EServiceState} {held opened : Bool}
    {beyond : Option String} {what : String} :
    function.answer state held opened beyond = .refused what ↔
      function.refusal state = some what := by
  unfold ServiceFunction.answer
  cases function.refusal state with
  | none =>
    dsimp only
    split
    · simp
    · cases beyond <;> simp
  | some text => simp

theorem Level.dependable (level : Level s) : Dependable s where
  handler post function what member := by
    obtain ⟨state, among, opened, beyond, same⟩ := level.answers _ member
    have refused := answer_refused.mp same.symm
    rw [List.mem_singleton.mp among] at refused
    cases function <;> cases refused
  initial function answer member which := by
    obtain ⟨state, among, opened, beyond, same⟩ := level.answers _ member
    have same : answer = function.answer state true opened beyond := same
    rw [same]
    rcases List.mem_pair.mp among with rfl | rfl <;> rcases which with rfl | rfl | rfl <;>
      exact ⟨_, rfl⟩
  start function what member := by
    obtain ⟨state, among, opened, beyond, same⟩ := level.answers _ member
    have refused := answer_refused.mp same.symm
    constructor
    · rintro rfl
      rcases List.mem_pair.mp among with rfl | rfl <;> cases refused
    · rintro rfl
      rcases List.mem_pair.mp among with rfl | rfl <;> cases refused
  stop function what member := by
    obtain ⟨state, among, opened, beyond, same⟩ := level.answers _ member
    have refused := answer_refused.mp same.symm
    rintro rfl
    rcases List.mem_pair.mp among with rfl | rfl <;> cases refused

/-- The agent as the module sees it, to which a service is whatever its functions answer. -/
def context (sid : Int) (service : IServiceBase) (s : ServiceLife) : ServiceContext where
  serviceID := if s.held then sid else invalidServiceId
  service := if s.held then some service else none
  mailbox := s.mailbox
  stops := if s.mailbox.process = .finished then s.called.count .stop else 0

/-- The moves of a service whose `Stop` answers as `service` says. -/
def Answers (service : IServiceBase) : LifeMove → Prop
  | .stopReturns => service.stop = none
  | .stopThrows => service.stop ≠ none
  | _ => True

theorem context_congr {sid : Int} {service : IServiceBase} (held : t.held = s.held)
    (mailbox : t.mailbox = s.mailbox) (live : s.mailbox.process ≠ .finished) :
    t.context sid service = s.context sid service := by
  simp only [context, held, mailbox, if_neg live]

theorem count_stop_served (s : ServiceLife) : s.served.count .stop = 0 :=
  List.count_eq_zero.mpr (stop_unserved s)

/-- An event at the mailbox of the service is that event at its context. -/
theorem post_context {sid : Int} {service : IServiceBase} {event : Mailbox.Event}
    (phase : Phase s) (moved : s.post event = some t) :
    (s.context sid service).step event = some (t.context sid service) := by
  have actor : (s.context sid service).service.isSome = s.held := by
    cases held : s.held <;> simp [context, held]
  have stays {mailbox : Mailbox} (stepped : s.mailbox.step event = some mailbox)
      (other : event ≠ .cleanUp) (same : t = { s with
        mailbox, called := s.called ++
          (mailbox.executed.drop s.mailbox.executed.length).map .handler }) :
      t.context sid service = { s.context sid service with mailbox } := by
    have count : t.called.count .stop = s.called.count .stop := by
      rw [same, List.count_append, Nat.add_eq_left, List.count_eq_zero]
      intro member
      obtain ⟨post, -, wrong⟩ := List.mem_map.mp member
      cases wrong
    have stops : (if mailbox.process = .finished then s.called.count .stop else 0) =
        if s.mailbox.process = .finished then s.called.count .stop else 0 := by
      cases Mailbox.step_turn stepped other with
      | still process executed => rw [process]
      | goes live | executes live =>
        cases phase with
        | booting _ process | failed _ process => exact absurd process live.1
        | stopping _ process => exact absurd process live.2.1
        | stopped _ process => exact absurd process live.2.2
        | serving _ _ _ _ called => simp [called, count_stop_served]
    rw [context, count, same]
    simp only [context, stops]
  obtain ⟨other, mailbox, stepped, same⟩ := post_spec moved
  rw [stays stepped other same]
  cases event with
  | cleanUp => exact absurd rfl other
  | resume asked =>
    have held : asked = s.held := by
      by_contra differs
      simp [post, differs] at moved
    rw [held] at stepped
    simp only [ServiceContext.step, actor]
    exact Option.map_eq_some_iff.mpr ⟨mailbox, stepped, rfl⟩
  | push node | deliver waiting | complete threw | close =>
    simp only [ServiceContext.step, Option.map_eq_some_iff]
    exact ⟨mailbox, stepped, rfl⟩

/-- The end of `Stop` is the call of `CleanUp` as its context sees it. -/
theorem stop_context {sid : Int} {service : IServiceBase} {mailbox : Mailbox} {released : Bool}
    (phase : Phase s) (stops : s.stopping = true) (cleaned : s.mailbox.cleanUp = some mailbox)
    (held : s.held = true) (answers : released = service.stop.isNone) :
    (s.context sid service).step .cleanUp = some
      (({ s with mailbox, stopping := false, held := !released } : ServiceLife).context
        sid service) := by
  obtain ⟨boot, process, called⟩ := phase.stops stops
  obtain ⟨-, finished, -⟩ := Mailbox.cleanUp_spec cleaned
  apply Option.map_eq_some_iff.mpr
  refine ⟨mailbox, cleaned, ?_⟩
  have count : s.called.count .stop = 1 := by
    rw [called, List.count_append, count_stop_served]
    rfl
  cases answer : service.stop with
  | none => simp [ServiceContext.release, context, held, process, finished, count, answers, answer]
  | some what =>
    simp [ServiceContext.release, context, held, process, finished, count, answers, answer]

/-- Seen from the module, a move starts the coroutine, is an event at the mailbox, or
shows nothing. -/
theorem step_context (sid : Int) (service : IServiceBase) (phase : Phase s)
    (answers : Answers service move) (moved : Step s move t) :
    t.context sid service = s.context sid service ∨
    t.context sid service = (s.context sid service).post Mailbox.spawnProcess ∨
    ∃ event, (s.context sid service).step event = some (t.context sid service) := by
  have boots (boot : s.boot ≠ .ended) : s.mailbox.process ≠ .finished := by
    simp [(phase.boots boot).1]
  cases move with
  | initial =>
    simp only [Step, next] at moved
    split at moved
    next at' =>
      cases moved
      exact .inl (context_congr rfl rfl (boots (by simp [at'])))
    next => cases moved
  | initialReturns ready =>
    simp only [Step, next] at moved
    split at moved
    next at' =>
      cases moved
      exact .inl (context_congr rfl rfl (boots (by simp [at'])))
    next => cases moved
  | giveUp =>
    simp only [Step, next] at moved
    split at moved
    next at' =>
      cases moved
      exact .inl (context_congr rfl rfl (boots (by simp [at'])))
    next => cases moved
  | bootService =>
    simp only [Step, next] at moved
    split at moved
    next at' =>
      split at moved <;> cases moved <;>
        exact .inl (context_congr rfl rfl (boots (by simp [at'])))
    next => cases moved
  | startReturns started =>
    simp only [Step, next] at moved
    split at moved
    next at' =>
      cases moved
      obtain ⟨process, -⟩ := phase.boots (by simp [at'])
      cases started with
      | true =>
        right; left
        simp [context, ServiceContext.post, Mailbox.spawnProcess, process]
      | false => exact .inl (context_congr rfl rfl (boots (by simp [at'])))
    next => cases moved
  | throws =>
    simp only [Step, next] at moved
    split at moved
    next at' =>
      cases moved
      have before : s.boot ≠ .ended := by rcases at' with at' | at' <;> simp [at']
      exact .inl (context_congr rfl rfl (boots before))
    next => cases moved
  | base hook function =>
    simp only [Step, next] at moved
    split at moved
    · cases moved
      exact .inl rfl
    · cases moved
  | use hook function beyond =>
    simp only [Step, next] at moved
    split at moved
    · cases moved
      exact .inl rfl
    · cases moved
  | mailbox event => exact .inr (.inr ⟨event, post_context phase moved⟩)
  | cleanUp =>
    simp only [Step, next] at moved
    split at moved
    next at' =>
      split at moved
      next held =>
        cases moved
        exact .inl (context_congr rfl rfl (by simp [at'.1]))
      next gone =>
        cases phase with
        | booting _ _ _ held | failed _ _ _ held | serving _ _ held | stopping _ _ held =>
          exact absurd held gone
        | stopped _ process => simp [process] at at'
    next => cases moved
  | stopReturns =>
    simp only [Step, next] at moved
    split at moved
    next stops =>
      obtain ⟨mailbox, cleaned, rfl⟩ := Option.map_eq_some_iff.mp moved
      have answer : service.stop = none := answers
      have held := phase.holds (by simp [runs, stops] : Hook.stop ∈ s.runs)
      exact .inr (.inr ⟨.cleanUp, stop_context phase stops cleaned held (by rw [answer])⟩)
    next => cases moved
  | stopThrows =>
    simp only [Step, next] at moved
    split at moved
    next stops =>
      obtain ⟨mailbox, cleaned, rfl⟩ := Option.map_eq_some_iff.mp moved
      obtain ⟨what, answer⟩ := Option.ne_none_iff_exists'.mp answers
      have held := phase.holds (by simp [runs, stops] : Hook.stop ∈ s.runs)
      have released : false = service.stop.isNone := by rw [answer]; rfl
      have came : (s.context sid service).step .cleanUp = _ :=
        stop_context phase stops cleaned held released
      rw [Bool.not_false, ← held] at came
      exact .inr (.inr ⟨.cleanUp, came⟩)
    next => cases moved

/-- Where the overrides of a service cooperate with their base class, no guard fails the
service, in every run. -/
theorem cooperative_always_dependable {path : List (LifeMove × ServiceLife)}
    (run : Transition.Path Step new path) (cooperates : Transition.Every Cooperates new path) :
    Transition.Always Dependable new path :=
  (level_always run cooperates).imp fun _ both => both.2.dependable

instance (s : ServiceLife) : (move : LifeMove) → Decidable (s.Cooperates move)
  | .base hook .initial => inferInstanceAs (Decidable (hook = .initial))
  | .base hook .start => inferInstanceAs (Decidable (hook = .start))
  | .base hook .stop => inferInstanceAs (Decidable (hook = .stop))
  | .initialReturns true => inferInstanceAs (Decidable (s.state = .initialized))
  | .startReturns true => inferInstanceAs (Decidable (s.state = .running))
  | .initial | .initialReturns false | .giveUp | .bootService | .startReturns false | .throws
  | .use .. | .mailbox _ | .cleanUp | .stopReturns | .stopThrows => .isTrue trivial

theorem cooperative_always_dependable_wholeLife :
    Transition.Always Dependable new (new.moves wholeLife) ∧
      (Transition.last new (new.moves wholeLife)).answers.map (fun entry => entry.2.2) =
        [.passed, .refused "CreateTimer - In Error State: [1]",
          .threw "logger with name 'mail' already exists", .passed, .ignored] :=
  ⟨cooperative_always_dependable (moves_path new wholeLife) (by decide), by decide⟩

end ServiceLife
end Uranus
