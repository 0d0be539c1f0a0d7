import Uranus.Service.ServiceCall

/-! The life of the service module: the main thread in `Initial`, `Start` and
`Stop`, and the handlers that the threads of the worker pool run. A thread takes
no new handler once the pool is stopped, and a handler that runs goes on. -/
namespace Uranus
open Foundation Program Interleaving

/-- The `Allocate` of the allocator. -/
def allocate (first : Int) : ServiceM Int := do
  let (sid, allocator) := (← get).allocator.allocate first
  modify fun s => { s with allocator := allocator }
  pure sid

/-- `Initial` for one core service. Without a factory it has none to ask. -/
def coreService (core : CoreService) : ServiceM Unit := do
  let s ← get
  match s.serviceFactory with
  | none => throw .undefined
  | some factory =>
    match factory.createInstance ("core." ++ core.name) core.occasion with
    | none => pure ()
    | some service => do
      let sid ← allocate core.first
      throwIf (s.serviceMap.lookup sid).isSome s!"Allocate Same Service ID[{sid}]"
      let agent ← makeAgent sid service
      if !(← agentInitial agent) then do
        modify fun s => { s with allocator := s.allocator.recycle sid }
        agentStop agent
      else if (s.serviceNameMap.lookup agent.name).isSome then agentStop agent
      else bootRegister sid agent

/-- `Initial` up to its loop over the core services. -/
def mainInitial (cores : List CoreService) : ServiceM Unit := do
  throwIf ((← get).state ≠ .created) "Initial - Module[Service Module] Not In CREATED State"
  modify fun s => { s with main := .creating cores }

def UServiceModule.services (s : UServiceModule) : List (Int × UServiceAgent) :=
  s.serviceMap.entries.map fun entry => (entry.1, entry.2)

/-- `Start` up to its loop over the services. -/
def mainStart : ServiceM Unit := do
  throwIf ((← get).state ≠ .initialized) "Start - Module[Service Module] Not In INITIALIZED State"
  modify fun s => { s with main := .booting s.services }

/-- `Stop` up to the end of the timer. -/
def mainStop : ServiceM Unit := do
  if (← get).state = .stopped then pure ()
  else modify fun s => { s with state := .stopped, main := .cancelling }

/-- What `cancel` of the timer does to the wait of `UpdateLoop`. -/
def UpdateLoop.cancel : UpdateLoop → UpdateLoop
  | .waiting => .elapsed true
  | loop => loop

/-- `Start` for one service. -/
def coreBoot (service : Int × UServiceAgent) : ServiceM Unit := do
  let _ ← agentBootService service.1 service.2
  pure ()

/-- What the main thread does next. Where it is left by an exception, it is idle. -/
def mainNext : ServiceM Unit := do
  match (← get).main with
  | .idle => pure ()
  | .creating (core :: cores) => do
    modify fun s => { s with main := .idle }
    coreService core
    modify fun s => { s with main := .creating cores }
  | .creating [] => modify fun s => { s with updateLoop := .spawned, main := .opening }
  | .opening => modify fun s => { s with workerPool := s.workerPool.start, main := .initialised }
  | .initialised => modify fun s => { s with state := .initialized, main := .idle }
  | .booting (service :: services) => do
    modify fun s => { s with main := .idle }
    coreBoot service
    modify fun s => { s with main := .booting services }
  | .booting [] => modify fun s => { s with state := .running, main := .idle }
  | .cancelling => modify fun s => { s with
      updateLoop := s.updateLoop.cancel, main := .closing s.services }
  | .closing ((_, agent) :: services) => do
    agentStop agent
    modify fun s => { s with main := .closing services }
  | .closing [] => modify fun s => { s with workerPool := s.workerPool.stop, main := .clearing }
  | .clearing => modify fun s => { s with serviceMap := ∅, serviceNameMap := ∅, main := .idle }

/-- `UpdateLoop` goes on. The handlers at its start and after its wait begin only
while the pool runs. -/
def loopNext (timepoint delta : Int) : ServiceM Unit := do
  let s ← get
  match s.updateLoop with
  | .absent | .waiting | .finished => pure ()
  | .spawned =>
    if s.workerPool.running then modify fun s => { s with updateLoop := .testing } else pure ()
  | .testing => modify fun s => { s with
      updateLoop := if s.state = .running then .waiting else .finished }
  | .elapsed cancelled =>
    if s.workerPool.running then modify fun s => { s with
      updateLoop := if cancelled then .finished else .passing }
    else pure ()
  | .passing => do
    updatePass timepoint delta
    modify fun s => { s with updateLoop := .testing }

/-- The timer of `UpdateLoop` expires. -/
def loopExpire : ServiceM Unit :=
  modify fun s => { s with
    updateLoop := if s.updateLoop = .waiting then .elapsed false else s.updateLoop }

/-- The handler of the destroyed signal set, which stops the pool. -/
def poolSignal : ServiceM Unit :=
  modify fun s => { s with
    workerPool := if s.workerPool.running && s.workerPool.signalled then s.workerPool.stop
      else s.workerPool }

/-- The event begins with a handler of its own. -/
def Mailbox.Event.queued : Mailbox.Event → Bool
  | .deliver _ | .resume _ => true
  | .push _ | .complete _ | .cleanUp | .close => false

/-- An event at the mailbox of an agent. -/
def agentEvent (serial : Nat) (event : Mailbox.Event) : ServiceM Unit := do
  if event.queued && !(← get).workerPool.running then pure ()
  else editContext serial fun context => (context.step event).getD context

/-- What goes on around the module: calls of its functions, the main thread, and
handlers. -/
inductive Activity where
  | service (call : ServiceCall)
  | initial (cores : List CoreService)
  | start
  | stop
  | main
  | loop (timepoint delta : Int)
  | expire
  | signal
  | agent (serial : Nat) (event : Mailbox.Event)
deriving DecidableEq

namespace Activity

def starts : Activity → Bool
  | .service call => call.starts
  | _ => true

/-- The main thread begins a function when it is in none. -/
def mainBegin (head : ServiceM Unit) : ServiceM Unit := do
  if (← get).main = .idle then head else pure ()

def part : Activity → ServiceM (Option Activity)
  | .service call => do
    let rest ← call.part
    pure (rest.map .service)
  | .initial cores => do
    mainBegin (mainInitial cores)
    pure none
  | .start => do
    mainBegin mainStart
    pure none
  | .stop => do
    mainBegin mainStop
    pure none
  | .main => do
    mainNext
    pure none
  | .loop timepoint delta => do
    loopNext timepoint delta
    pure none
  | .expire => do
    loopExpire
    pure none
  | .signal => do
    poolSignal
    pure none
  | .agent serial event => do
    agentEvent serial event
    pure none

end Activity

abbrev Life := Config UServiceModule Activity

def Life.step : Life → Move Activity → Life → Prop :=
  Interleaving.Step Activity.part fun activity => activity.starts

def Life.runs (config : Life) (moves : List (Move Activity)) : List (Move Activity × Life) :=
  Transition.trace (following Activity.part fun activity => activity.starts) config moves

theorem Life.runs_path (config : Life) (moves : List (Move Activity)) :
    Transition.Path Life.step config (config.runs moves) :=
  Transition.trace_path following_step moves

/-- What the start and the end of the module turn on. -/
structure Phase where
  main : MainThread
  state : EModuleState
  loop : UpdateLoop
  pool : USingleIOContextPool

def UServiceModule.phase (s : UServiceModule) : Phase :=
  ⟨s.main, s.state, s.updateLoop, s.workerPool⟩

/-- How an activity moves the module on. -/
inductive Phase.Turn (p : Phase) : Activity → Phase → Prop where
  | quiet {activity : Activity} : Turn p activity p
  | begins {cores : List CoreService} (idle : p.main = .idle) (created : p.state = .created) :
      Turn p (.initial cores) { p with main := .creating cores }
  | creates {core : CoreService} {cores : List CoreService} {main : MainThread}
      (at' : p.main = .creating (core :: cores)) (next : main = .idle ∨ main = .creating cores) :
      Turn p .main { p with main }
  | spawns (at' : p.main = .creating []) :
      Turn p .main { p with loop := .spawned, main := .opening }
  | opens (at' : p.main = .opening) :
      Turn p .main { p with pool := p.pool.start, main := .initialised }
  | initialises (at' : p.main = .initialised) :
      Turn p .main { p with state := .initialized, main := .idle }
  | starts {services : List (Int × UServiceAgent)} (idle : p.main = .idle)
      (initialized : p.state = .initialized) : Turn p .start { p with main := .booting services }
  | boots {service : Int × UServiceAgent} {services : List (Int × UServiceAgent)}
      {main : MainThread} (at' : p.main = .booting (service :: services))
      (next : main = .idle ∨ main = .booting services) : Turn p .main { p with main }
  | runs (at' : p.main = .booting []) : Turn p .main { p with state := .running, main := .idle }
  | stops (idle : p.main = .idle) : Turn p .stop { p with state := .stopped, main := .cancelling }
  | cancels {services : List (Int × UServiceAgent)} (at' : p.main = .cancelling) :
      Turn p .main { p with loop := p.loop.cancel, main := .closing services }
  | closes {service : Int × UServiceAgent} {services : List (Int × UServiceAgent)}
      (at' : p.main = .closing (service :: services)) :
      Turn p .main { p with main := .closing services }
  | halts (at' : p.main = .closing []) :
      Turn p .main { p with pool := p.pool.stop, main := .clearing }
  | clears (at' : p.main = .clearing) : Turn p .main { p with main := .idle }
  | enters {timepoint delta : Int} (at' : p.loop = .spawned) (running : p.pool.running) :
      Turn p (.loop timepoint delta) { p with loop := .testing }
  | tests {timepoint delta : Int} (at' : p.loop = .testing) :
      Turn p (.loop timepoint delta)
        { p with loop := if p.state = .running then .waiting else .finished }
  | resumes {timepoint delta : Int} {cancelled : Bool} (at' : p.loop = .elapsed cancelled)
      (running : p.pool.running) :
      Turn p (.loop timepoint delta)
        { p with loop := if cancelled then .finished else .passing }
  | passes {timepoint delta : Int} (at' : p.loop = .passing) :
      Turn p (.loop timepoint delta) { p with loop := .testing }
  | expires (at' : p.loop = .waiting) : Turn p .expire { p with loop := .elapsed false }
  | signals (running : p.pool.running) (signalled : p.pool.signalled) :
      Turn p .signal { p with pool := p.pool.stop }

variable {s t : UServiceModule} {call : ServiceCall} {activity : Activity} {rest : Option Activity}

/-- The phase is as before. -/
def SamePhase (s t : UServiceModule) : Prop := t.phase = s.phase

instance : IsPreorder UServiceModule SamePhase where
  refl _ := rfl
  trans _ _ _ first second := Eq.trans second first

theorem CallEffect.phase {rest : Option ServiceCall} (effect : CallEffect s call rest t) :
    SamePhase s t := by
  cases effect <;> rfl

theorem agentInitial_same (agent : UServiceAgent) : Within SamePhase (agentInitial agent) := by
  unfold agentInitial
  split
  · exact .throw _
  · exact .pure _

theorem insertTicker_same (sid : Int) : Within SamePhase (insertTicker sid) := by
  intro s t ends
  cases ends.of_ok insertTicker_apply
  rfl

theorem editContext_same (serial : Nat) (update : ServiceContext → ServiceContext) :
    Within SamePhase (editContext serial update) := .modify fun _ => rfl

theorem agentBootService_same (sid : Int) (agent : UServiceAgent) :
    Within SamePhase (agentBootService sid agent) := by
  unfold agentBootService
  apply Within.bind (R := SamePhase) .get
  intro s
  apply Within.bind (R := SamePhase) (.throwIf _ _)
  intro _
  cases agent.service.start with
  | error what => exact .throw _
  | ok started =>
    cases started with
    | false => exact .pure _
    | true =>
      have launched : Within SamePhase (editContext agent.serial
          (ServiceContext.post Mailbox.spawnProcess) >>= fun _ => pure true) :=
        Within.bind (editContext_same _ _) fun _ => .pure _
      dsimp only
      split
      · exact Within.bind (insertTicker_same _) fun _ => launched
      · exact launched

theorem allocate_same (first : Int) : Within SamePhase (allocate first) := by
  intro s t ends
  cases ends.of_ok (u := { s with allocator := (s.allocator.allocate first).2 }) rfl
  rfl

theorem makeAgent_same (sid : Int) (service : IServiceBase) :
    Within SamePhase (makeAgent sid service) := by
  intro s t ends
  cases ends.of_ok (u := s.make sid service) rfl
  rfl

theorem coreService_same (core : CoreService) : Within SamePhase (coreService core) := by
  unfold coreService
  apply Within.bind (R := SamePhase) .get
  intro s
  split
  · exact .throw _
  · split
    · exact .pure _
    · apply Within.bind (allocate_same core.first)
      intro sid
      apply Within.bind (R := SamePhase) (.throwIf _ _)
      intro _
      apply Within.bind (makeAgent_same _ _)
      intro agent
      apply Within.bind (agentInitial_same agent)
      intro ready
      split
      · exact Within.bind (R := SamePhase) (.modify fun _ => rfl) fun _ => editContext_same _ _
      · split
        · exact editContext_same _ _
        · exact .modify fun _ => rfl

theorem serviceCall_same (call : ServiceCall) : Within SamePhase call.part := by
  rintro s t (⟨rest, ran⟩ | threw)
  · exact (part_effect (.inl ran)).phase
  · exact (part_effect (.inr ⟨rfl, threw⟩)).phase

/-- What the main thread has done. In a body of its own it is idle, and so it is
left where the body throws. -/
inductive MainMove (s t : UServiceModule) : Prop where
  | idle (at' : s.main = .idle) (same : t = s)
  | creates {core : CoreService} {cores : List CoreService} {u : UServiceModule}
      (at' : s.main = .creating (core :: cores))
      (ends : Ends (coreService core) { s with main := .idle } u)
      (next : t = u ∨ t = { u with main := .creating cores })
  | spawns (at' : s.main = .creating [])
      (same : t = { s with updateLoop := .spawned, main := .opening })
  | opens (at' : s.main = .opening)
      (same : t = { s with workerPool := s.workerPool.start, main := .initialised })
  | initialises (at' : s.main = .initialised)
      (same : t = { s with state := .initialized, main := .idle })
  | boots {service : Int × UServiceAgent} {services : List (Int × UServiceAgent)}
      {u : UServiceModule} (at' : s.main = .booting (service :: services))
      (ends : Ends (agentBootService service.1 service.2) { s with main := .idle } u)
      (next : t = u ∨ t = { u with main := .booting services })
  | runs (at' : s.main = .booting []) (same : t = { s with state := .running, main := .idle })
  | cancels (at' : s.main = .cancelling)
      (same : t = { s with updateLoop := s.updateLoop.cancel, main := .closing s.services })
  | closes {service : Int × UServiceAgent} {services : List (Int × UServiceAgent)}
      (at' : s.main = .closing (service :: services))
      (same : t = { s.edit service.2.serial ServiceContext.stop with main := .closing services })
  | halts (at' : s.main = .closing [])
      (same : t = { s with workerPool := s.workerPool.stop, main := .clearing })
  | clears (at' : s.main = .clearing)
      (same : t = { s with serviceMap := ∅, serviceNameMap := ∅, main := .idle })

theorem mainBody_ends {body : ServiceM Unit} {main : MainThread} (ends : Ends (do
      modify fun s : UServiceModule => { s with main := .idle }
      body
      modify fun s => { s with main }) s t) :
    ∃ u, Ends body { s with main := .idle } u ∧ (t = u ∨ t = { u with main }) := by
  have ends := ends.congr (modify_bind _ _ s)
  rcases ends.of_bind with ⟨_, u, ran, ends⟩ | ⟨what, threw⟩
  · exact ⟨u, .inl ⟨_, ran⟩, .inr (ends.of_ok (u := { u with main }) rfl)⟩
  · exact ⟨t, .inr ⟨what, threw⟩, .inl rfl⟩

theorem mainNext_cases (ends : Ends mainNext s t) : MainMove s t := by
  unfold mainNext at ends
  have ends := ends.congr (get_bind _ s)
  cases main : s.main with
  | idle =>
    rw [main] at ends
    exact .idle main (ends.of_ok (u := s) rfl)
  | creating cores =>
    cases cores with
    | nil =>
      rw [main] at ends
      exact .spawns main (ends.of_ok rfl)
    | cons core cores =>
      rw [main] at ends
      obtain ⟨u, ran, next⟩ := mainBody_ends ends
      exact .creates main ran next
  | opening =>
    rw [main] at ends
    exact .opens main (ends.of_ok rfl)
  | initialised =>
    rw [main] at ends
    exact .initialises main (ends.of_ok rfl)
  | booting services =>
    cases services with
    | nil =>
      rw [main] at ends
      exact .runs main (ends.of_ok rfl)
    | cons service services =>
      rw [main] at ends
      obtain ⟨u, ran, next⟩ := mainBody_ends ends
      have booted : Ends (agentBootService service.1 service.2) { s with main := .idle } u := by
        rcases ran.of_bind with ⟨came, v, booted, ends⟩ | threw
        · cases ends.of_ok (u := v) rfl
          exact .inl ⟨came, booted⟩
        · exact .inr threw
      exact .boots main booted next
  | cancelling =>
    rw [main] at ends
    exact .cancels main (ends.of_ok rfl)
  | closing services =>
    cases services with
    | nil =>
      rw [main] at ends
      exact .halts main (ends.of_ok rfl)
    | cons service services =>
      rw [main] at ends
      exact .closes main (ends.of_ok rfl)
  | clearing =>
    rw [main] at ends
    exact .clears main (ends.of_ok rfl)

theorem mainNext_turn (ends : Ends mainNext s t) : Phase.Turn s.phase .main t.phase := by
  cases mainNext_cases ends with
  | idle _ same =>
    subst same
    exact .quiet
  | @creates core cores u at' ends next =>
    have same : u.phase = { s.phase with main := .idle } := coreService_same core _ _ ends
    rcases next with rfl | rfl
    · rw [same]
      exact .creates at' (.inl rfl)
    · have turn : Phase.Turn s.phase .main { u.phase with main := .creating cores } := by
        rw [same]
        exact .creates at' (.inr rfl)
      exact turn
  | @boots service services u at' ends next =>
    have same : u.phase = { s.phase with main := .idle } := agentBootService_same _ _ _ _ ends
    rcases next with rfl | rfl
    · rw [same]
      exact .boots at' (.inl rfl)
    · have turn : Phase.Turn s.phase .main { u.phase with main := .booting services } := by
        rw [same]
        exact .boots at' (.inr rfl)
      exact turn
  | spawns at' same =>
    subst same
    exact .spawns at'
  | opens at' same =>
    subst same
    exact .opens at'
  | initialises at' same =>
    subst same
    exact .initialises at'
  | runs at' same =>
    subst same
    exact .runs at'
  | cancels at' same =>
    subst same
    exact .cancels at'
  | closes at' same =>
    subst same
    exact .closes at'
  | halts at' same =>
    subst same
    exact .halts at'
  | clears at' same =>
    subst same
    exact .clears at'

theorem mainBegin_idle {head : ServiceM Unit} (ends : Ends (Activity.mainBegin head) s t) :
    t = s ∨ s.main = .idle ∧ Ends head s t := by
  unfold Activity.mainBegin at ends
  have ends := ends.congr (get_bind _ s)
  by_cases idle : s.main = .idle
  · rw [if_pos idle] at ends
    exact .inr ⟨idle, ends⟩
  · rw [if_neg idle] at ends
    exact .inl (ends.of_ok (u := s) rfl)

/-- A function that is not ready to begin throws. -/
theorem guarded_ends {fails : Prop} [Decidable fails] {what : String}
    {update : UServiceModule → UServiceModule}
    (ends : Ends (throwIf fails what >>= fun _ => modify update) s t) :
    t = s ∨ ¬ fails ∧ t = update s := by
  by_cases refused : fails
  · have ends := ends.congr (congrFun (throwIf_throw_bind refused what _) s)
    exact .inl (ends.of_exception (u := s) rfl)
  · have ends := ends.congr (congrFun (throwIf_bind refused what _) s)
    exact .inr ⟨refused, ends.of_ok (u := update s) rfl⟩

/-- What `UpdateLoop` has done when it went on. -/
inductive LoopMove (s t : UServiceModule) (timepoint delta : Int) : Prop where
  | stays (other : s.updateLoop ≠ .testing) (same : t = s)
  | enters (at' : s.updateLoop = .spawned) (running : s.workerPool.running)
      (same : t = { s with updateLoop := .testing })
  | tests (at' : s.updateLoop = .testing)
      (same : t = { s with updateLoop := if s.state = .running then .waiting else .finished })
  | resumes {cancelled : Bool} (at' : s.updateLoop = .elapsed cancelled)
      (running : s.workerPool.running)
      (same : t = { s with updateLoop := if cancelled then .finished else .passing })
  | passes {u : UServiceModule} (at' : s.updateLoop = .passing)
      (passed : updatePass timepoint delta s = .ok () u)
      (same : t = { u with updateLoop := .testing })

theorem loopNext_cases {timepoint delta : Int} (ends : Ends (loopNext timepoint delta) s t) :
    LoopMove s t timepoint delta := by
  unfold loopNext at ends
  have ends := ends.congr (get_bind _ s)
  cases loop : s.updateLoop with
  | absent | waiting | finished =>
    rw [loop] at ends
    exact .stays (by simp [loop]) (ends.of_ok (u := s) rfl)
  | spawned =>
    rw [loop] at ends
    cases running : s.workerPool.running with
    | false =>
      rw [running] at ends
      exact .stays (by simp [loop]) (ends.of_ok (u := s) rfl)
    | true =>
      rw [running] at ends
      exact .enters loop running (ends.of_ok rfl)
  | testing =>
    rw [loop] at ends
    exact .tests loop (ends.of_ok rfl)
  | elapsed cancelled =>
    rw [loop] at ends
    cases running : s.workerPool.running with
    | false =>
      rw [running] at ends
      exact .stays (by simp [loop]) (ends.of_ok (u := s) rfl)
    | true =>
      rw [running] at ends
      exact .resumes loop running (ends.of_ok rfl)
  | passing =>
    rw [loop] at ends
    exact .passes loop rfl (ends.of_ok rfl)

theorem loopNext_turn {timepoint delta : Int} (ends : Ends (loopNext timepoint delta) s t) :
    Phase.Turn s.phase (.loop timepoint delta) t.phase := by
  cases loopNext_cases ends with
  | stays _ same =>
    subst same
    exact .quiet
  | enters at' running same =>
    subst same
    exact .enters at' running
  | tests at' same =>
    subst same
    exact .tests at'
  | resumes at' running same =>
    subst same
    exact .resumes at' running
  | passes at' passed same =>
    cases passed
    subst same
    exact .passes at'

/-- What every activity does to the phase. -/
theorem part_phase (reaches : Reaches activity.part s rest t) :
    Phase.Turn s.phase activity t.phase := by
  cases activity with
  | service call =>
    have same := serviceCall_same call
    have within : Within SamePhase (Activity.part (.service call)) :=
      Within.bind same fun _ => .pure _
    rw [within s t reaches.ends]
    exact .quiet
  | initial cores =>
    rcases mainBegin_idle reaches.last.2 with rfl | ⟨idle, ends⟩
    · exact .quiet
    · rcases guarded_ends (ends.congr (get_bind _ s)) with rfl | ⟨created, rfl⟩
      · exact .quiet
      · exact .begins idle (not_not.mp created)
  | start =>
    rcases mainBegin_idle reaches.last.2 with rfl | ⟨idle, ends⟩
    · exact .quiet
    · rcases guarded_ends (ends.congr (get_bind _ s)) with rfl | ⟨initialized, rfl⟩
      · exact .quiet
      · exact .starts idle (not_not.mp initialized)
  | stop =>
    rcases mainBegin_idle reaches.last.2 with rfl | ⟨idle, ends⟩
    · exact .quiet
    · have ends := ends.congr (get_bind _ s)
      by_cases stopped : s.state = .stopped
      · rw [if_pos stopped] at ends
        cases ends.of_ok (u := s) rfl
        exact .quiet
      · rw [if_neg stopped] at ends
        cases ends.of_ok (u := { s with state := .stopped, main := .cancelling }) rfl
        exact .stops idle
  | main => exact mainNext_turn reaches.last.2
  | loop timepoint delta => exact loopNext_turn reaches.last.2
  | expire =>
    cases reaches.last.2.of_ok (u := { s with
      updateLoop := if s.updateLoop = .waiting then .elapsed false else s.updateLoop }) rfl
    by_cases waits : s.updateLoop = .waiting
    · simp only [UServiceModule.phase, waits, if_true]
      exact .expires (p := ⟨_, _, .waiting, _⟩) rfl
    · simp only [UServiceModule.phase, waits, if_false]
      exact .quiet
  | signal =>
    cases reaches.last.2.of_ok (u := { s with
      workerPool := if s.workerPool.running && s.workerPool.signalled then s.workerPool.stop
        else s.workerPool }) rfl
    by_cases handled : s.workerPool.running && s.workerPool.signalled
    · simp only [UServiceModule.phase, handled, if_true]
      have both := Bool.and_eq_true_iff.mp handled
      exact .signals (p := s.phase) both.1 both.2
    · simp only [UServiceModule.phase, handled]
      exact .quiet
  | agent serial event =>
    have within : Within SamePhase (agentEvent serial event) := by
      apply Within.bind (R := SamePhase) .get
      intro s
      split
      · exact .pure _
      · exact editContext_same _ _
    rw [within s t reaches.last.2]
    exact .quiet

end Uranus
