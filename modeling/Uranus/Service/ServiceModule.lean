import Uranus.Service.ServiceAgent

/-! The functions of the service module on a running server, each the sequence
of the sections in which it holds a mutex. What a call does without a mutex
touches nothing shared and is part of the section before it. -/
namespace Uranus
open Foundation Program

/-- `BootService` up to the new instance. -/
def bootCreate (name : String) (occasion : Nat) : ServiceM (Option IServiceBase) := do
  let s ← get
  if s.state ≠ .running then pure none
  else
    match s.serviceFactory with
    | none => pure none
    | some factory => pure (factory.createInstance ("extend." ++ name) occasion)

/-- The section of `AllocateTS` under the mutex of the allocator. -/
def allocateLocked (first : Int) : ServiceM (Option Int) := do
  match (← get).allocator.allocateLocked first with
  | none => pure none
  | some (sid, allocator) => do
    modify fun s => { s with allocator := allocator }
    pure (some sid)

/-- The end of `AllocateTS`, where no id was free. -/
def allocateFresh : ServiceM Int := do
  let (sid, allocator) := (← get).allocator.allocateFresh
  modify fun s => { s with allocator := allocator }
  pure sid

def recycleTS (sid : Int) : ServiceM Unit :=
  modify fun s => { s with allocator := s.allocator.recycleTS sid }

/-- A new agent, which has been set up with its id and its service. -/
def makeAgent (sid : Int) (service : IServiceBase) : ServiceM UServiceAgent := do
  let s ← get
  let agent : UServiceAgent := ⟨s.nextAgent, service⟩
  modify fun s => { s with
    contexts := s.contexts.insert s.nextAgent (ServiceContext.new sid service)
    nextAgent := s.nextAgent + 1 }
  pure agent

/-- The name that a service must not have. -/
def undefinedName (name : String) : Bool := name = "" || name = "UNKNOWN"

/-- The initialised agent, and whether it may go on. Nothing comes out where the
id is already in use. -/
def bootCheck (sid : Int) (service : IServiceBase) : ServiceM (Option (UServiceAgent × Bool)) := do
  let s ← get
  if (s.serviceMap.lookup sid).isSome then pure none
  else
    let agent ← makeAgent sid service
    let ready ← agentInitial agent
    pure (some (agent, ready && !undefinedName agent.name))

/-- The test whether the name is in use, under the mutex of the names. -/
def bootName (agent : UServiceAgent) : ServiceM Bool := do
  pure ((← get).serviceNameMap.lookup agent.name).isNone

/-- The exit of `BootService` for a service that is not registered. -/
def bootRefuse (sid : Int) (agent : UServiceAgent) : ServiceM Unit := do
  agentStop agent
  recycleTS sid

/-- The section of `BootService` under the mutexes of services and names. -/
def bootRegister (sid : Int) (agent : UServiceAgent) : ServiceM Unit :=
  modify fun s => { s with
    serviceMap := s.serviceMap.insert sid agent
    serviceNameMap := s.serviceNameMap.insert agent.name sid }

/-- `BootService` once it has its id. -/
def bootRest (sid : Int) (service : IServiceBase) : ServiceM Unit := do
  match ← bootCheck sid service with
  | none => pure ()
  | some (agent, false) => bootRefuse sid agent
  | some (agent, true) => do
    if ← bootName agent then
      if ← agentBootService sid agent then bootRegister sid agent
      else bootRefuse sid agent
    else bootRefuse sid agent

/-- `BootService`; `first` is the id that the hash set of free ids iterates first. -/
def bootService (name : String) (occasion : Nat) (first : Int) : ServiceM Unit := do
  match ← bootCreate name occasion with
  | none => pure ()
  | some service => do
    match ← allocateLocked first with
    | some sid => bootRest sid service
    | none => do
      let sid ← allocateFresh
      bootRest sid service

/-- The first section of `ShutdownService(sid)`, and of the last half of
`ShutdownService(name)`. -/
def removeService (sid : Int) : ServiceM (Option UServiceAgent) := do
  match (← get).serviceMap.lookup sid with
  | none => pure none
  | some agent => do
    modify fun s => { s with
      serviceMap := s.serviceMap.erase sid
      removals := (sid, agent) ::ₘ s.removals }
    pure (some agent)

def shutdownEntry (sid : Int) : ServiceM (Option UServiceAgent) := do
  let s ← get
  if s.state ≠ .running then pure none else removeService sid

def eraseName (name : String) : ServiceM Unit :=
  modify fun s => { s with serviceNameMap := s.serviceNameMap.erase name }

def eraseTicker (sid : Int) : ServiceM Unit :=
  modify fun s => { s with tickerSet := s.tickerSet.erase sid }

/-- `RecycleTS` as `ShutdownService` calls it. -/
def recycleService (sid : Int) (agent : UServiceAgent) : ServiceM Unit := do
  recycleTS sid
  modify fun s => { s with recyclings := (sid, agent) ::ₘ s.recyclings }

/-- The last statement of `ShutdownService`. -/
def haltService (sid : Int) (agent : UServiceAgent) : ServiceM Unit := do
  agentStop agent
  modify fun s => { s with halts := (sid, agent) ::ₘ s.halts }

/-- What both functions do to a service that has been removed. -/
def shutdownRest (sid : Int) (agent : UServiceAgent) : ServiceM Unit := do
  eraseTicker sid
  recycleService sid agent
  haltService sid agent

/-- `ShutdownService(sid)`. -/
def shutdownService (sid : Int) : ServiceM Unit := do
  match ← shutdownEntry sid with
  | none => pure ()
  | some agent => do
    eraseName agent.name
    shutdownRest sid agent

/-- The first section of `ShutdownService(name)`: the id that it goes on with. -/
def shutdownNamed (name : String) : ServiceM (Option Int) := do
  let s ← get
  if s.state ≠ .running then pure none
  else
    match s.serviceNameMap.lookup name with
    | none => pure none
    | some sid => do
      eraseName name
      pure (if sid < 0 then none else some sid)

/-- `ShutdownService(name)`. Where the service has another name this is logged only. -/
def shutdownServiceByName (name : String) : ServiceM Unit := do
  match ← shutdownNamed name with
  | none => pure ()
  | some sid =>
    match ← removeService sid with
    | none => pure ()
    | some agent => shutdownRest sid agent

/-- `FindService(sid)`. -/
def findService (sid : Int) : ServiceM (Option UServiceAgent) := do
  let s ← get
  if s.state ≠ .running then pure none else pure (s.serviceMap.lookup sid)

/-- The first section of `FindService(name)`. -/
def findServiceId (name : String) : ServiceM (Option Int) := do
  let s ← get
  if s.state ≠ .running then pure none
  else pure ((s.serviceNameMap.lookup name).filter fun sid => 0 ≤ sid)

/-- The section of `UpdateLoop` under the mutexes of tickers and services. -/
def updatePass (timepoint delta : Int) : ServiceM Unit :=
  modify fun s =>
    let ticked := s.serviceMap.entries.filter fun entry => entry.1 ∈ s.tickerSet
    { s with
      contexts := ticked.foldl (fun contexts entry =>
        Table.modify entry.2.serial (ServiceContext.pushTicker timepoint delta) contexts) s.contexts
      tickerSet := s.tickerSet.filter fun sid => (s.serviceMap.lookup sid).isSome }

/-- What is to be done with a service found by its name. -/
inductive Purpose where
  | find
  | postPackage (pkg : FPacket)
  | postTask (task : Nat)
deriving DecidableEq

/-- The tests of `URouteModule` before it asks for a service; a search by name
alone has none. -/
def Purpose.admitted (name : String) (s : UServiceModule) : Purpose → Bool
  | .find => true
  | .postPackage _ | .postTask _ => s.routeState = .running && name ≠ ""

/-- What `URouteModule` does with the agent it has found. -/
def Purpose.serve (agent : UServiceAgent) : Purpose → ServiceM Unit
  | .find => pure ()
  | .postPackage pkg => editContext agent.serial fun context =>
      context.post (Mailbox.pushPackage (some (pkg.setTarget (Int32.ofInt context.serviceID))))
  | .postTask task => editContext agent.serial (ServiceContext.post (Mailbox.pushTask (some task)))

section
variable {s : UServiceModule} {sid first : Int} {service : IServiceBase} {agent : UServiceAgent}
  {name : String} {occasion : Nat} {what : String}

/-- The instance that `BootService` makes, if it makes one. -/
def UServiceModule.created (s : UServiceModule) (name : String) (occasion : Nat) :
    Option IServiceBase :=
  if s.state ≠ .running then none
  else s.serviceFactory.bind fun factory => factory.createInstance ("extend." ++ name) occasion

/-- The module with a new agent. -/
def UServiceModule.make (s : UServiceModule) (sid : Int) (service : IServiceBase) :
    UServiceModule :=
  { s with
    contexts := s.contexts.insert s.nextAgent (ServiceContext.new sid service)
    nextAgent := s.nextAgent + 1 }

/-- The tickers after an id has been inserted. -/
def UServiceModule.ticking (s : UServiceModule) (sid : Int) : Finset Int :=
  if s.state = .running ∧ 0 ≤ sid then insert sid s.tickerSet else s.tickerSet

/-- The module after a service has started. -/
def UServiceModule.launch (s : UServiceModule) (sid : Int) (agent : UServiceAgent) :
    UServiceModule :=
  { s with
    tickerSet := if agent.service.updatePerTick then s.ticking sid else s.tickerSet
    contexts := Table.modify agent.serial (ServiceContext.post Mailbox.spawnProcess) s.contexts }

theorem bootCreate_apply : bootCreate name occasion s = .ok (s.created name occasion) s := by
  simp only [bootCreate, get_bind]
  unfold UServiceModule.created
  split
  · rfl
  · cases s.serviceFactory <;> rfl

theorem allocateLocked_none (none : s.allocator.allocateLocked first = none) :
    allocateLocked first s = .ok .none s := by
  simp only [allocateLocked, get_bind, none, pure_apply]

theorem allocateLocked_some {allocator : TIdentAllocator}
    (took : s.allocator.allocateLocked first = some (sid, allocator)) :
    allocateLocked first s = .ok (some sid) { s with allocator := allocator } := by
  simp only [allocateLocked, get_bind, took, modify_bind, pure_apply]

theorem bootCheck_present (present : (s.serviceMap.lookup sid).isSome) :
    bootCheck sid service s = .ok none s := by
  simp only [bootCheck, get_bind, present, if_true, pure_apply]

theorem bootCheck_absent (absent : s.serviceMap.lookup sid = none) : bootCheck sid service s =
    (agentInitial ⟨s.nextAgent, service⟩ >>= fun ready =>
      pure (some (⟨s.nextAgent, service⟩, ready && !undefinedName service.name)))
        (s.make sid service) := by
  simp only [bootCheck, get_bind, absent, Option.isSome_none, Bool.false_eq_true, if_false]
  rfl

theorem bootCheck_threw (absent : s.serviceMap.lookup sid = none)
    (threw : service.initial = .error what) :
    bootCheck sid service s = .error (.exception what) (s.make sid service) := by
  rw [bootCheck_absent absent]
  exact bind_error (by simp only [agentInitial, threw, throw_apply]) _

theorem bootCheck_ok (absent : s.serviceMap.lookup sid = none) {ready : Bool}
    (came : service.initial = .ok ready) : bootCheck sid service s =
      .ok (some (⟨s.nextAgent, service⟩, ready && !undefinedName service.name))
        (s.make sid service) := by
  rw [bootCheck_absent absent]
  exact bind_ok (by simp only [agentInitial, came, pure_apply]) _

theorem bootName_apply : bootName agent s = .ok (s.serviceNameMap.lookup agent.name).isNone s := rfl

theorem agentBootService_closed (closed : s.isOpen agent = false) : agentBootService sid agent s =
    .error (.exception "BootService          - Not Initialized") s := by
  simp only [agentBootService, get_bind]
  rw [throwIf_throw_bind (by simp [closed]), throw_apply]

theorem agentBootService_threw (opened : s.isOpen agent)
    (threw : agent.service.start = .error what) :
    agentBootService sid agent s = .error (.exception what) s := by
  simp only [agentBootService, get_bind, threw]
  rw [throwIf_bind (by simp [opened]), throw_apply]

theorem agentBootService_refused (opened : s.isOpen agent)
    (refused : agent.service.start = .ok false) :
    agentBootService sid agent s = .ok false s := by
  simp only [agentBootService, get_bind, refused]
  rw [throwIf_bind (by simp [opened]), pure_apply]

theorem insertTicker_apply : insertTicker sid s = .ok () { s with tickerSet := s.ticking sid } := by
  simp only [insertTicker, get_bind]
  unfold UServiceModule.ticking
  by_cases running : s.state = .running
  · rw [if_neg (not_not.mpr running)]
    by_cases negative : sid < 0
    · rw [if_pos negative, if_neg (by omega), pure_apply]
    · rw [if_neg negative, if_pos ⟨running, by omega⟩, modify_apply]
  · rw [if_pos running, if_neg (fun holds => running holds.1), pure_apply]

theorem agentBootService_started (opened : s.isOpen agent)
    (started : agent.service.start = .ok true) :
    agentBootService sid agent s = .ok true (s.launch sid agent) := by
  simp only [agentBootService, get_bind, started]
  rw [throwIf_bind (by simp [opened])]
  cases ticks : agent.service.updatePerTick with
  | true =>
    simp only [if_true]
    rw [bind_ok insertTicker_apply]
    simp only [UServiceModule.launch, ticks, if_true]
    rfl
  | false =>
    simp only [UServiceModule.launch, ticks, Bool.false_eq_true, if_false]
    rfl

theorem removeService_none (absent : s.serviceMap.lookup sid = none) :
    removeService sid s = .ok none s := by
  simp only [removeService, get_bind, absent, pure_apply]

theorem removeService_some (present : s.serviceMap.lookup sid = some agent) :
    removeService sid s = .ok (some agent) { s with
      serviceMap := s.serviceMap.erase sid
      removals := (sid, agent) ::ₘ s.removals } := by
  simp only [removeService, get_bind, present, modify_bind, pure_apply]

theorem shutdownEntry_running (running : s.state = .running) (sid : Int) :
    shutdownEntry sid s = removeService sid s := by
  simp only [shutdownEntry, get_bind]
  rw [if_neg (not_not.mpr running)]

theorem shutdownEntry_idle (idle : s.state ≠ .running) : shutdownEntry sid s = .ok none s := by
  simp only [shutdownEntry, get_bind]
  rw [if_pos idle, pure_apply]

/-- The id of a name, for a function that goes on with it. -/
def UServiceModule.named (s : UServiceModule) (name : String) : Option Int :=
  if s.state ≠ .running then none else s.serviceNameMap.lookup name

theorem UServiceModule.named_lookup (known : s.named name = some sid) :
    s.serviceNameMap.lookup name = some sid := by
  unfold UServiceModule.named at known
  split at known
  · cases known
  · exact known

theorem shutdownNamed_none (unknown : s.named name = none) :
    shutdownNamed name s = .ok none s := by
  unfold UServiceModule.named at unknown
  simp only [shutdownNamed, get_bind]
  split
  · rfl
  next running =>
    rw [if_neg running] at unknown
    rw [unknown]
    rfl

theorem shutdownNamed_some (known : s.named name = some sid) : shutdownNamed name s =
    .ok (if sid < 0 then none else some sid)
      { s with serviceNameMap := s.serviceNameMap.erase name } := by
  unfold UServiceModule.named at known
  simp only [shutdownNamed, get_bind]
  split at known
  · cases known
  next running =>
    rw [if_neg running, known]
    rfl

end
end Uranus
