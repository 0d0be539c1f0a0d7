import Uranus.Foundation.Path
import Uranus.Service.ServiceAgent

/-! One service and its agent, from the set-up to the release, with the begin and the
end of `Initial`, `Start`, `Stop` and of the handlers of mailbox nodes. While such a hook
runs it may call the functions of the base class, which move the state of the service or
are guarded by it. Left out are the calls of `GetServiceName`, the tasks of timers, and
the destructor of the handle, which releases a service that `CleanUp` never came to. -/
namespace Uranus
open Foundation

inductive EServiceState where
  | created
  | initialized
  | running
  | terminated
deriving DecidableEq, Repr

namespace EServiceState

/-- The value of an enumerator, by which states are compared and shown. -/
def value : EServiceState → Nat
  | .created => 0
  | .initialized => 1
  | .running => 2
  | .terminated => 3

/-- `IServiceBase::Initial`. -/
def initial (state : EServiceState) : EServiceState × Bool :=
  if state ≠ .created then (state, false) else (.initialized, true)

/-- `IServiceBase::Start`. -/
def start (state : EServiceState) : EServiceState × Bool :=
  if state ≠ .initialized then (state, false) else (.running, true)

/-- `IServiceBase::Stop`. -/
def stop (state : EServiceState) : EServiceState :=
  if state = .terminated then state else .terminated

end EServiceState

/-- The functions of `IServiceBase` that an override calls on its base. -/
inductive BaseFunction where
  | initial
  | start
  | stop
deriving DecidableEq, Repr

def BaseFunction.apply (state : EServiceState) : BaseFunction → EServiceState
  | .initial => state.initial.1
  | .start => state.start.1
  | .stop => state.stop

/-- The functions of `IServiceBase` that look at its state. -/
inductive ServiceFunction where
  | buildPackage
  | listenEvent
  | dispatchEvent
  | createTimer
  | tryCreateLogger
deriving DecidableEq, Repr

namespace ServiceFunction

/-- What a function throws in the wrong state. -/
def refusal (state : EServiceState) : ServiceFunction → Option String
  | .buildPackage =>
    if state ≠ .running then some "BuildPackage While Service Not In Running" else none
  | .listenEvent =>
    if state = .created ∨ state = .terminated then
      some s!"ListenEvent - In Error State: [{state.value}]"
    else none
  | .dispatchEvent =>
    if state.value ≤ EServiceState.initialized.value then
      some "DispatchEvent - Service Not Initialized"
    else none
  | .createTimer =>
    if state.value ≤ EServiceState.initialized.value ∨ state = .terminated then
      some s!"CreateTimer - In Error State: [{state.value}]"
    else none
  | .tryCreateLogger =>
    if state = .created ∨ EServiceState.terminated.value ≤ state.value then
      some s!"TryCreateLogger - In Error State: [{state.value}]"
    else none

/-- The agent takes no notice. -/
def ignored (held opened : Bool) : ServiceFunction → Bool
  | .listenEvent | .dispatchEvent => !held || !opened
  | .createTimer => !opened
  | .buildPackage | .tryCreateLogger => false

end ServiceFunction

/-- What becomes of a call of a guarded function: its guard refuses it, the agent takes
no notice, what the agent does for it throws, or it is done. -/
inductive Answer where
  | refused (what : String)
  | ignored
  | threw (what : String)
  | passed
deriving DecidableEq, Repr

/-- `beyond` is what the agent throws behind the guard, if it throws: the package pool
or the loggers may. -/
def ServiceFunction.answer (state : EServiceState) (held opened : Bool) (beyond : Option String)
    (function : ServiceFunction) : Answer :=
  match function.refusal state with
  | some what => .refused what
  | none =>
    if function.ignored held opened then .ignored
    else
      match beyond with
      | some what => .threw what
      | none => .passed

/-- What an agent calls on its service; a handler is for one node of the mailbox. -/
inductive Hook where
  | initial
  | start
  | handler (post : Post)
  | stop
deriving DecidableEq

/-- Where the thread stands that boots the service. -/
inductive BootThread where
  | setUp
  | inInitial
  | ready
  | inStart
  | ended
deriving DecidableEq, Repr

def BootThread.runs : BootThread → List Hook
  | .inInitial => [.initial]
  | .inStart => [.start]
  | .setUp | .ready | .ended => []

def ProcessChannel.runs : ProcessChannel → List Hook
  | .executing post => [.handler post]
  | .absent | .starting | .receiving | .cleaning | .finished => []

/-- `held` tells whether the agent has a service, `stopping` whether `CleanUp` waits
for the `Stop` of the service. The hooks that were `called` and the `answers` that
the hooks got are a history. -/
structure ServiceLife where
  state : EServiceState
  held : Bool
  boot : BootThread
  mailbox : Mailbox
  stopping : Bool
  called : List Hook
  answers : List (Hook × ServiceFunction × Answer)

inductive LifeMove where
  | initial
  | initialReturns (ready : Bool)
  | giveUp
  | bootService
  | startReturns (started : Bool)
  | throws
  | base (hook : Hook) (function : BaseFunction)
  | use (hook : Hook) (function : ServiceFunction) (beyond : Option String)
  | mailbox (event : Mailbox.Event)
  | cleanUp
  | stopReturns
  | stopThrows
deriving DecidableEq

namespace ServiceLife

/-- An agent that has its id and its service. -/
def new : ServiceLife where
  state := .created
  held := true
  boot := .setUp
  mailbox := .new serviceChannelSize
  stopping := false
  called := []
  answers := []

/-- The hooks that are running. -/
def runs (s : ServiceLife) : List Hook :=
  s.boot.runs ++ (s.mailbox.process.runs ++ (if s.stopping then [.stop] else []))

/-- A step of the mailbox. The node that is taken out is executed by the service, as
long as the agent has it. -/
def post (event : Mailbox.Event) (s : ServiceLife) : Option ServiceLife :=
  let moved := (s.mailbox.step event).map fun mailbox =>
    { s with
      mailbox
      called := s.called ++ (mailbox.executed.drop s.mailbox.executed.length).map .handler }
  match event with
  | .resume actor => if actor = s.held then moved else none
  | .cleanUp => none
  | .push _ | .deliver _ | .complete _ | .close => moved

/-- `UServiceAgent::Initial` and `BootService`, as the service module calls them, the
coroutine `ProcessChannel` with `CleanUp` at its end, and what the hooks do. -/
def next (s : ServiceLife) : LifeMove → Option ServiceLife
  | .initial =>
    if s.boot = .setUp then some { s with boot := .inInitial, called := s.called ++ [.initial] }
    else none
  | .initialReturns ready =>
    if s.boot = .inInitial then some { s with boot := if ready then .ready else .ended } else none
  -- The name of the service is undefined or taken.
  | .giveUp => if s.boot = .ready then some { s with boot := .ended } else none
  | .bootService =>
    if s.boot = .ready then
      -- Only the channel can be missing here, and that throws.
      if s.mailbox.channel.isOpen then
        some { s with boot := .inStart, called := s.called ++ [.start] }
      else some { s with boot := .ended }
    else none
  | .startReturns started =>
    if s.boot = .inStart then
      some { s with
        boot := .ended, mailbox := if started then s.mailbox.spawnProcess else s.mailbox }
    else none
  | .throws =>
    if s.boot = .inInitial ∨ s.boot = .inStart then some { s with boot := .ended } else none
  | .base hook function =>
    if hook ∈ s.runs then some { s with state := function.apply s.state } else none
  | .use hook function beyond =>
    if hook ∈ s.runs then
      some { s with answers := s.answers ++
        [(hook, function, function.answer s.state s.held s.mailbox.channel.isOpen beyond)] }
    else none
  | .mailbox event => s.post event
  | .cleanUp =>
    if s.mailbox.process = .cleaning ∧ s.stopping = false then
      if s.held then some { s with stopping := true, called := s.called ++ [.stop] }
      else s.mailbox.cleanUp.map fun mailbox => { s with mailbox }
    else none
  | .stopReturns =>
    if s.stopping then
      s.mailbox.cleanUp.map fun mailbox => { s with mailbox, stopping := false, held := false }
    else none
  -- `ProcessChannel` catches the exception, and the agent keeps its service.
  | .stopThrows =>
    if s.stopping then s.mailbox.cleanUp.map fun mailbox => { s with mailbox, stopping := false }
    else none

def Step (s : ServiceLife) (move : LifeMove) (later : ServiceLife) : Prop :=
  s.next move = some later

def moves (s : ServiceLife) (labels : List LifeMove) : List (LifeMove × ServiceLife) :=
  Transition.trace next s labels

theorem moves_path (s : ServiceLife) (labels : List LifeMove) :
    Transition.Path Step s (s.moves labels) :=
  Transition.trace_path id labels

end ServiceLife
end Uranus
