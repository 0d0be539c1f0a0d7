import Uranus.Event.Delivery
import Uranus.Foundation.CallStack
import Uranus.Foundation.Program

/-! The threads of the server, with the call stacks that hold the mutexes of the
event module and of the service module. A push may go on inside the call with
what waits for it, as `try_send_via_dispatch` does where the thread that sends
runs the context of the receiver. -/
namespace Uranus
open Foundation

inductive Mutex where
  | serviceListener
  | playerListener
  | tick
  | service
deriving DecidableEq, Repr

def ListenerKind.mutex : ListenerKind → Mutex
  | .service => .serviceListener
  | .player => .playerListener

/-- What a function does under a lock. Nothing foreign is called there. -/
inductive LockedSection where
  | registration (call : Registration)
  | sweep (kind : ListenerKind)
  | insertTicker (sid : Int)
  | eraseTicker (sid : Int)
  | containsService (sid : Int)
  | insertService (sid : Int) (agent : Nat)
  | eraseService (sid : Int)
deriving DecidableEq, Repr

def LockedSection.lock : LockedSection → Mutex × LockMode
  | .registration (.listen kind ..) | .registration (.removeByEvent kind ..)
  | .registration (.remove kind _) | .sweep kind => (kind.mutex, .exclusive)
  | .insertTicker _ | .eraseTicker _ => (.tick, .exclusive)
  | .containsService _ => (.service, .shared)
  | .insertService .. | .eraseService _ => (.service, .exclusive)

/-- A call into the modules. The functions of the service module that are not
named are the same in the locks that they take. -/
inductive ModuleCall where
  | registration (call : Registration)
  | sweep (kind : ListenerKind)
  | insertTicker (sid : Int)
  | removeTicker (sid : Int)
  | bootService (sid : Int) (agent : Nat) (updatePerTick : Bool)
  | shutdownService (sid : Int)
deriving DecidableEq, Repr

inductive CallPhase where
  | between
  | requesting
  | locked
deriving DecidableEq, Repr

inductive UpdatePhase where
  | tickLock
  | serviceLock
  | pushing (sids : List Int)
deriving DecidableEq, Repr

/-- The call comes to the mutex. -/
def UEventModule.Reaches (s : UEventModule) : Registration → Prop
  | .listen kind id _ event => s.state ≠ .created ∧ kind.Accepts id ∧ 0 ≤ event
  | .removeByEvent kind id event =>
    (s.state ≠ .created ∧ s.server ≠ .terminated) ∧ kind.Accepts id ∧ 0 ≤ event
  | .remove kind id => (s.state ≠ .created ∧ s.server ≠ .terminated) ∧ kind.Accepts id

instance (s : UEventModule) : ∀ call, Decidable (s.Reaches call)
  | .listen kind id _ event =>
    inferInstanceAs (Decidable (s.state ≠ .created ∧ kind.Accepts id ∧ 0 ≤ event))
  | .removeByEvent kind id event => inferInstanceAs (Decidable
    ((s.state ≠ .created ∧ s.server ≠ .terminated) ∧ kind.Accepts id ∧ 0 ≤ event))
  | .remove kind id => inferInstanceAs (Decidable
    ((s.state ≠ .created ∧ s.server ≠ .terminated) ∧ kind.Accepts id))

/-- A function on a call stack. `handler` executes a node of an agent's channel.
`dispatch` is in the section for a kind of listeners, where `listening` is what
its loop has not come to, once it has the lock. `sections` is a call with the
locked sections that it still has to pass. -/
inductive CallFrame where
  | handler (agent : Nat)
  | dispatch (event : IEventParam) (kind : ListenerKind)
      (listening : Option (List (Sigma fun _ : Int => WeakAgent)))
  | update (timepoint delta : Int) (phase : UpdatePhase)
  | sections (phase : CallPhase) (rest : List LockedSection)

namespace CallFrame

/-- The mutex that a frame waits for. -/
def requests : CallFrame → Option (Mutex × LockMode)
  | .dispatch _ kind none => some (kind.mutex, .shared)
  | .update _ _ .tickLock => some (.tick, .exclusive)
  | .update _ _ .serviceLock => some (.service, .shared)
  | .sections .requesting (next :: _) => some next.lock
  | .handler _ | .dispatch _ _ (some _) | .update _ _ (.pushing _) | .sections .. => none

def holds : CallFrame → List (Mutex × LockMode)
  | .dispatch _ kind (some _) => [(kind.mutex, .shared)]
  | .update _ _ .serviceLock => [(.tick, .exclusive)]
  | .update _ _ (.pushing _) => [(.tick, .exclusive), (.service, .shared)]
  | .sections .locked (next :: _) => [next.lock]
  | .handler _ | .dispatch _ _ none | .update _ _ .tickLock | .sections .. => []

def isHandler : CallFrame → Bool
  | .handler _ => true
  | .dispatch .. | .update .. | .sections .. => false

def isUpdate : CallFrame → Bool
  | .update .. => true
  | .handler _ | .dispatch .. | .sections .. => false

/-- Code that may call anything runs in the frame. -/
def calls : CallFrame → Bool
  | .handler _ | .sections .between _ => true
  | .dispatch .. | .update .. | .sections .requesting _ | .sections .locked _ => false

end CallFrame

/-- A thread, with the `io_context` that it runs. -/
structure Thread where
  runs : Option Nat
  stack : List CallFrame

/-- Foreign code runs on the thread. -/
def Thread.free (t : Thread) : Bool := t.stack.head?.all CallFrame.calls

/-- `contexts` are the contexts that the agents are made with, and `actors` tells
for which of them `GetActor` returns an actor. -/
structure Runtime where
  events : UEventModule
  serviceState : EModuleState
  tickerSet : List Int
  serviceMap : Table Int Nat
  workerContext : Nat
  contexts : Nat → Nat
  actors : Nat → Bool
  threads : List Thread

namespace Runtime

def mailbox (s : Runtime) (agent : Nat) : Option Mailbox := s.events.agents.lookup agent

def editMailbox (agent : Nat) (update : Mailbox → Mailbox) (s : Runtime) : Runtime :=
  { s with events := { s.events with agents := Table.modify agent update s.events.agents } }

def setStack (i : Nat) (stack : List CallFrame) (s : Runtime) : Runtime :=
  { s with threads := s.threads.modify i fun t => { t with stack } }

/-- No other lock excludes the one that is requested. -/
def available (lock : Mutex × LockMode) (s : Runtime) : Bool :=
  s.threads.all fun t => t.stack.all fun frame => frame.holds.all fun other =>
    other.1 ≠ lock.1 ∨ other.2 = .shared ∧ lock.2 = .shared

/-- A thread goes on with the coroutine of an agent, up to the execution of a node. -/
def resume (i : Nat) (agent : Nat) (s : Runtime) : Option Runtime :=
  match s.threads[i]?, (s.mailbox agent).bind (Mailbox.resume (s.actors agent)) with
  | some t, some resumed =>
    let s := s.editMailbox agent fun _ => resumed
    match resumed.process with
    | .executing _ => some (s.setStack i (.handler agent :: t.stack))
    | .absent | .starting | .receiving | .cleaning | .finished => some s
  | _, _ => none

/-- `ProcessChannel` of an agent waits for a node, and the thread runs its context. -/
def Waits (i : Nat) (agent : Nat) (s : Runtime) : Prop :=
  (∃ m ∈ s.mailbox agent, m.channel.isOpen ∧ m.channel.receiver.isWaiting ∧
    m.process = .receiving) ∧ s.threads[i]?.bind Thread.runs = some (s.contexts agent)

instance (i agent : Nat) (s : Runtime) : Decidable (s.Waits i agent) :=
  inferInstanceAs (Decidable (_ ∧ _))

/-- A push on a thread: where the receiver waits in the thread's own context, the
receiver goes on inside the call. -/
def push (i : Nat) (agent : Nat) (send : UEventModule → UEventModule) (s : Runtime) : Runtime :=
  let sent := { s with events := send s.events }
  if s.Waits i agent then (sent.resume i agent).getD sent else sent

/-- `UServiceAgent::PushTicker`. -/
def pushTicker (i : Nat) (agent : Nat) (timepoint delta : Int) (s : Runtime) : Runtime :=
  if s.actors agent then
    s.push i agent fun events => { events with
      agents := Table.modify agent (Mailbox.push (some (.ticker timepoint delta))) events.agents }
  else s

/-- The locked sections that a call comes to. -/
def sections (s : Runtime) : ModuleCall → List LockedSection
  | .registration call => if s.events.Reaches call then [.registration call] else []
  | .sweep kind => if (s.events.listeners kind).sweeping then [.sweep kind] else []
  | .insertTicker sid => if s.serviceState ≠ .running ∨ sid < 0 then [] else [.insertTicker sid]
  | .removeTicker sid => if s.serviceState ≠ .running ∨ sid < 0 then [] else [.eraseTicker sid]
  | .bootService sid agent updatePerTick =>
    if s.serviceState ≠ .running then []
    else .containsService sid ::
      (if updatePerTick then [.insertTicker sid] else []) ++ [.insertService sid agent]
  | .shutdownService sid =>
    if s.serviceState ≠ .running then [] else [.eraseService sid, .eraseTicker sid]

/-- What happens under the lock. -/
def pass (s : Runtime) : LockedSection → Runtime
  | .registration call => { s with events :=
      { s.events.call call with history := call :: s.events.history } }
  | .sweep kind => { s with events := (s.events.sweep kind false).getD s.events }
  | .insertTicker sid => { s with tickerSet := s.tickerSet.insert sid }
  | .eraseTicker sid => { s with tickerSet := s.tickerSet.erase sid }
  | .containsService _ => s
  | .insertService sid agent => { s with serviceMap := s.serviceMap.insert sid agent }
  | .eraseService sid => { s with serviceMap := s.serviceMap.erase sid }

/-- The function returns from the section. -/
def ends (s : Runtime) : LockedSection → Bool
  | .containsService sid => (s.serviceMap.lookup sid).isSome
  | .eraseService sid => (s.serviceMap.lookup sid).isNone
  | .registration _ | .sweep _ | .insertTicker _ | .eraseTicker _ | .insertService .. => false

/-- The frame of a thread that gets the mutex it waits for. -/
def granted (s : Runtime) : CallFrame → Option CallFrame
  | .dispatch event kind none => some (.dispatch event kind
      (some ((s.events.listeners kind).map.inner event.eventType).entries))
  | .update timepoint delta .tickLock => some (.update timepoint delta .serviceLock)
  | .update timepoint delta .serviceLock => some (.update timepoint delta (.pushing s.tickerSet))
  | .sections .requesting rest => some (.sections .locked rest)
  | .handler _ | .dispatch _ _ (some _) | .update _ _ (.pushing _) | .sections .between _
  | .sections .locked _ => none

/-- The function of the innermost frame goes on. -/
def advance (i : Nat) (below : List CallFrame) (s : Runtime) : CallFrame → Option Runtime
  | .dispatch event kind (some (entry :: rest)) =>
    let s := s.setStack i (.dispatch event kind (some rest) :: below)
    match s.events.lock entry.2 with
    | none => some s
    | some agent => some (s.push i agent (UEventModule.pushEvent kind event entry.1 entry.2))
  | .dispatch event .service (some []) =>
    some (s.setStack i (.dispatch event .player none :: below))
  | .dispatch _ .player (some []) =>
    let s := s.setStack i below
    some { s with events := s.events.removeExpiredServices.removeExpiredPlayers }
  | .update timepoint delta (.pushing (sid :: rest)) =>
    let s := s.setStack i (.update timepoint delta (.pushing rest) :: below)
    match s.serviceMap.lookup sid with
    | none => some { s with tickerSet := s.tickerSet.erase sid }
    | some agent => some (s.pushTicker i agent timepoint delta)
  | .update _ _ (.pushing []) => some (s.setStack i below)
  | .sections .between [] => some (s.setStack i below)
  | .sections .between rest => some (s.setStack i (.sections .requesting rest :: below))
  | .sections .locked (next :: rest) =>
    let rest := if s.ends next then [] else rest
    some ((s.pass next).setStack i (.sections .between rest :: below))
  | .handler _ | .dispatch _ _ none | .update _ _ .tickLock | .update _ _ .serviceLock
  | .sections .requesting _ | .sections .locked [] => none

/-- What a thread does. A handler, or other foreign code, may push anything to
anyone and call any function of the modules. -/
inductive Act where
  | resume (agent : Nat)
  | complete (threw : Bool)
  | send (agent : Nat) (node : IChannelNode)
  | call (call : ModuleCall)
  | dispatch (event : Option IEventParam)
  | tick (timepoint delta : Int)
  | acquire
  | advance
deriving DecidableEq

/-- What happens to an agent on no stack that holds a mutex. `actor` tells that
`GetActor` returns an actor from now on, or none. -/
inductive AgentEvent where
  | deliver (post : Post)
  | cleanUp
  | close
  | spawn
  | destroy
  | actor (present : Bool)
deriving DecidableEq

inductive Label where
  | act (i : Nat) (act : Act)
  | agent (agent : Nat) (event : AgentEvent)
  | make (capacity : Nat)
deriving DecidableEq

/-- The mailbox of an agent takes a step of its own. -/
def stepMailbox (agent : Nat) (event : Mailbox.Event) (s : Runtime) : Option Runtime :=
  ((s.mailbox agent).bind fun m => m.step event).map fun later =>
    s.editMailbox agent fun _ => later

/-- The step of a thread with the given stack. -/
def turn (s : Runtime) (i : Nat) (t : Thread) : Act → Option Runtime
  | .resume agent =>
    if t.stack = [] ∧ t.runs = some (s.contexts agent) then s.resume i agent else none
  | .complete threw =>
    match t.stack with
    | .handler agent :: below => (s.stepMailbox agent (.complete threw)).map (setStack i below)
    | _ => none
  | .send agent node =>
    if t.free then
      some (s.push i agent fun events => { events with
        agents := Table.modify agent (Mailbox.push (some node)) events.agents })
    else none
  | .call call =>
    if t.free then some (s.setStack i (.sections .between (s.sections call) :: t.stack)) else none
  | .dispatch event =>
    if t.free then
      match s.events.dispatched event with
      | none => some s
      | some event => some (s.setStack i (.dispatch event .service none :: t.stack))
    else none
  | .tick timepoint delta =>
    if t.stack = [] ∧ t.runs = some s.workerContext ∧
        s.threads.all (fun t => t.stack.all fun frame => !frame.isUpdate) then
      some (s.setStack i [.update timepoint delta .tickLock])
    else none
  | .acquire =>
    match t.stack with
    | frame :: below =>
      if frame.requests.any fun lock => s.available lock then
        (s.granted frame).map fun frame => s.setStack i (frame :: below)
      else none
    | [] => none
  | .advance =>
    match t.stack with
    | frame :: below => s.advance i below frame
    | [] => none

/-- An agent is destroyed when its coroutine is over and the module has dropped it. -/
def stepAgent (s : Runtime) (agent : Nat) : AgentEvent → Option Runtime
  | .deliver post => s.stepMailbox agent (.deliver post)
  | .cleanUp => s.stepMailbox agent .cleanUp
  | .close => s.stepMailbox agent .close
  | .spawn => some (s.editMailbox agent Mailbox.spawnProcess)
  | .destroy =>
    if (s.mailbox agent).any (fun m => m.process = .absent ∨ m.process = .finished) ∧
        s.serviceMap.entries.all (fun entry => entry.2 ≠ agent) then
      some { s with events := { s.events with agents := s.events.agents.erase agent } }
    else none
  | .actor present => some { s with actors := Function.update s.actors agent present }

def next (s : Runtime) : Label → Option Runtime
  | .act i act => s.threads[i]?.bind fun t => s.turn i t act
  | .agent agent event => s.stepAgent agent event
  | .make capacity => (s.events.next (.make capacity)).map fun events => { s with events }

def Step (s : Runtime) (label : Label) (later : Runtime) : Prop := s.next label = some later

def runs (s : Runtime) (labels : List Label) : List (Label × Runtime) :=
  Transition.trace next s labels

theorem runs_path (s : Runtime) (labels : List Label) : Transition.Path Step s (s.runs labels) :=
  Transition.trace_path id labels

end Runtime
end Uranus
