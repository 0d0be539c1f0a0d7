import Uranus.Base.Module
import Uranus.Foundation.Program
import Uranus.Foundation.Path

/-! The server and its modules, from their registration to the end of the process.
Of a module there are its state and the members that its functions test or use;
what other modules of code do in them is whether they come back or throw. -/
namespace Uranus
open Foundation Program

inductive EServerState where
  | created
  | initialized
  | running
  | terminated
deriving DecidableEq, Repr

/-- The class of a module. The route module has the functions of the base class. -/
inductive ModuleClass where
  | config
  | loginAuth
  | event
  | route
  | logger
  | monitor
  | dataAccess
  | service
  | gateway
deriving DecidableEq, Repr

/-- The pointers that a constructor leaves null. -/
inductive Member where
  | cacheTimer
  | serviceTimer
  | playerTimer
  | tickTimer
  | adapter
  | loginHandler
deriving DecidableEq, Repr

structure IModuleBase where
  cls : ModuleClass
  state : EModuleState
  members : List Member
deriving DecidableEq, Repr

/-- Whether the calls that a function makes into other code throw. -/
structure ForeignCalls where
  first : Bool
  second : Bool
deriving DecidableEq, Repr

def ModuleClass.name : ModuleClass → String
  | .config => "Config"
  | .loginAuth => "Login Module"
  | .event => "Event Module"
  | .route => "Route Module"
  | .logger => "Logger Module"
  | .monitor => "UMonitor"
  | .dataAccess => "Data Access"
  | .service => "Service Module"
  | .gateway => "Gateway"

namespace IModuleBase

def new (cls : ModuleClass) : IModuleBase := ⟨cls, .created, []⟩

def setState (state : EModuleState) : Program IModuleBase Unit :=
  modify fun m => { m with state }

def create (member : Member) : Program IModuleBase Unit :=
  modify fun m => { m with members := member :: m.members }

/-- A null pointer must not be used. -/
def use (member : Member) : Program IModuleBase Unit := do
  if member ∈ (← get).members then pure () else throw .undefined

/-- The process ends where an assertion fails. -/
def assertMember (member : Member) : Program IModuleBase Unit := do
  if member ∈ (← get).members then pure () else throw .terminated

/-- The check at the head of `Initial` or `Start`, where the function throws. -/
def required (function state : String) (expected : EModuleState) (body : Program IModuleBase Unit) :
    Program IModuleBase Unit := do
  let m ← get
  if m.state = expected then body
  else throw (.exception s!"{function} - Module[{m.cls.name}] Not In {state} State")

/-- The check at the head of a function that returns without a word. -/
def onlyIn (expected : EModuleState) (body : Program IModuleBase Unit) :
    Program IModuleBase Unit := do
  if (← get).state = expected then body else pure ()

/-- The check at the head of `Stop`. -/
def unlessStopped (body : Program IModuleBase Unit) : Program IModuleBase Unit := do
  if (← get).state = .stopped then pure () else body

/-- The members that a setter provides before `Initial`. It does nothing later. -/
def provide (member : Member) (m : IModuleBase) : IModuleBase :=
  if m.state = .created then
    match m.cls, member with
    | .dataAccess, .adapter | .loginAuth, .loginHandler => { m with members := member :: m.members }
    | _, _ => m
  else m

/-- `Initial`. Its calls are those of the file reader and the parser, of the
adapter, of the service factory and the pool, and of the player factory and the pool. -/
def initial (calls : ForeignCalls) : ModuleClass → Program IModuleBase Unit
  | .config => onlyIn .created do
    throwIf calls.first "bad file"
    throwIf calls.second "parse error"
    setState .initialized
  | .loginAuth | .monitor => onlyIn .created (setState .initialized)
  | .route | .logger => required "Initial" "CREATED" .created (setState .initialized)
  | .event => required "Initial" "CREATED" .created do
    create .serviceTimer
    create .playerTimer
    setState .initialized
  | .dataAccess => onlyIn .created do
    assertMember .adapter
    throwIf calls.first "Initial"
    throwIf calls.second "thread"
    setState .initialized
  | .service => required "Initial" "CREATED" .created do
    throwIf calls.first "LoadService"
    create .tickTimer
    throwIf calls.second "thread"
    setState .initialized
  | .gateway => required "Initial" "CREATED" .created do
    create .cacheTimer
    throwIf calls.first "Initial"
    throwIf calls.second "thread"
    setState .initialized

/-- `Start`. Its calls read the port from the configuration and boot the services. -/
def start (calls : ForeignCalls) : ModuleClass → Program IModuleBase Unit
  | .loginAuth | .monitor => onlyIn .initialized (setState .running)
  | .service | .gateway => required "Start" "INITIALIZED" .initialized do
    throwIf calls.first "Start"
    setState .running
  | .config | .route | .logger | .event | .dataAccess =>
    required "Start" "INITIALIZED" .initialized (setState .running)

/-- `Stop`. Only the service module asks whether its timer is there. -/
def stop : ModuleClass → Program IModuleBase Unit
  | .config | .route | .logger => setState .stopped
  | .monitor => unlessStopped (setState .stopped)
  | .loginAuth => unlessStopped do
    assertMember .loginHandler
    setState .stopped
  | .event => unlessStopped do
    setState .stopped
    use .serviceTimer
    use .playerTimer
  | .dataAccess => unlessStopped do
    setState .stopped
    use .adapter
  | .service => unlessStopped do
    setState .stopped
    if .tickTimer ∈ (← get).members then use .tickTimer else pure ()
  | .gateway => unlessStopped do
    setState .stopped
    use .cacheTimer

/-- The destructor, as far as it calls `Stop` again. -/
def destruct : ModuleClass → Program IModuleBase Unit
  | .loginAuth | .monitor | .service | .gateway => do stop (← get).cls
  | .config | .event | .route | .logger | .dataAccess => pure ()

end IModuleBase

/-- `order` records which modules became STOPPED, one after the other. -/
structure UServer where
  state : EServerState
  moduleOrder : List IModuleBase
  order : List Nat
deriving DecidableEq, Repr

namespace UServer

def new (classes : List ModuleClass) : UServer :=
  ⟨.created, classes.map IModuleBase.new, []⟩

/-- A function of a module has left the module as it is now. -/
def put (index : Nat) (before now : IModuleBase) (s : UServer) : UServer :=
  { s with
    moduleOrder := s.moduleOrder.set index now
    order := if before.state ≠ .stopped ∧ now.state = .stopped then s.order ++ [index]
      else s.order }

/-- Calls a function of one module, as its class has it. -/
def call (index : Nat) (function : ModuleClass → Program IModuleBase Unit) :
    Program UServer Unit := fun s =>
  match s.moduleOrder[index]? with
  | none => .ok () s
  | some m =>
    match function m.cls m with
    | .ok _ now => .ok () (s.put index m now)
    | .error fault now => .error fault (s.put index m now)

/-- The loop over the modules before an index, from the last to the first. -/
def stopModules : Nat → Program UServer Unit
  | 0 => pure ()
  | index + 1 => do
    call index IModuleBase.stop
    stopModules index

def shutdown : Program UServer Unit := do
  let s ← get
  if s.state = .terminated then pure ()
  else do
    modify fun s => { s with state := .terminated }
    stopModules s.moduleOrder.length

/-- The modules are destroyed in the order of a hash map. -/
def destroyModules : List Nat → Program UServer Unit
  | [] => pure ()
  | index :: rest => do
    call index IModuleBase.destruct
    destroyModules rest

def destruct (modules : List Nat) : Program UServer Unit := do
  shutdown
  destroyModules modules

end UServer

/-- Where the main thread is: in no loop, or in that of `Initial` or of `Start`. -/
inductive StartUp where
  | idle
  | initialising (index : Nat)
  | starting (index : Nat)
deriving DecidableEq, Repr

/-- A process with a server. It is `aborted` where an assertion of the start-up
failed, and `broken` where a shutdown did not come back. -/
inductive Process where
  | alive (server : UServer) (startUp : StartUp)
  | exited (server : UServer)
  | aborted (server : UServer)
  | broken (server : UServer)
deriving DecidableEq, Repr

/-- The directories are there, or can be created. A shutdown may come at any
point, also of the start-up; where the start-up goes on, the modules check. -/
inductive ServerMove where
  | provide (index : Nat) (member : Member)
  | initial (core extend : Bool)
  | start
  | next (calls : ForeignCalls)
  | shutdown
  | destruct (modules : List Nat)
deriving DecidableEq, Repr

namespace Process

def new (classes : List ModuleClass) : Process := .alive (.new classes) .idle

/-- What is left of the process by a shutdown. -/
def ending (program : Program UServer Unit) (later : UServer → Process) (s : UServer) : Process :=
  match program s with
  | .ok _ t => later t
  | .error _ t => .broken t

/-- The next module in a loop of `Initial` or `Start`. An exception leaves it. -/
def advance (index : Nat) (function : ModuleClass → Program IModuleBase Unit)
    (onward : StartUp) (s : UServer) : Process :=
  match UServer.call index function s with
  | .ok _ t => .alive t onward
  | .error (.exception _) t => .alive t .idle
  | .error _ t => .aborted t

def next : Process → ServerMove → Option Process
  | .exited _, _ | .aborted _, _ | .broken _, _ => none
  | .alive s startUp, .provide index member =>
    match s.moduleOrder[index]? with
    | none => none
    | some m => some (.alive (s.put index m (m.provide member)) startUp)
  | .alive s .idle, .initial core extend =>
    if s.state ≠ .created then some (.alive s .idle)
    else if core && extend then some (.alive s (.initialising 0))
    else some (ending UServer.shutdown .exited s)
  | .alive s .idle, .start =>
    if s.state ≠ .initialized then some (.alive s .idle)
    else if s.moduleOrder.any (·.cls = .config) then some (.alive s (.starting 0))
    else some (.alive s .idle)
  | .alive s (.initialising index), .next calls =>
    if index < s.moduleOrder.length then
      some (advance index (IModuleBase.initial calls) (.initialising (index + 1)) s)
    else some (.alive { s with state := .initialized } .idle)
  | .alive s (.starting index), .next calls =>
    if index < s.moduleOrder.length then
      some (advance index (IModuleBase.start calls) (.starting (index + 1)) s)
    else some (.alive { s with state := .running } .idle)
  | .alive s startUp, .shutdown => some (ending UServer.shutdown (.alive · startUp) s)
  | .alive s _, .destruct modules => some (ending (UServer.destruct modules) .exited s)
  | .alive _ _, _ => none

def Step (p : Process) (move : ServerMove) (q : Process) : Prop := p.next move = some q

def runs (p : Process) (moves : List ServerMove) : List (ServerMove × Process) :=
  Transition.trace next p moves

theorem runs_path (p : Process) (moves : List ServerMove) :
    Transition.Path Step p (p.runs moves) :=
  Transition.trace_path id moves

end Process
end Uranus
