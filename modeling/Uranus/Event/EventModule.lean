import Uranus.Base.AgentBase
import Uranus.Foundation.NestedTable
import Uranus.Foundation.Path
import Uranus.Server.Server

/-! The event module: the listeners of services and of players, the agents that
they point to, and the functions of the module. -/
namespace Uranus
open Foundation

inductive ListenerKind where
  | service
  | player
deriving DecidableEq, Repr

/-- The ids under which a listener of a kind is registered. -/
def ListenerKind.Accepts : ListenerKind → Int → Prop
  | .service, sid => 0 ≤ sid
  | .player, pid => 0 < pid

instance : ∀ (kind : ListenerKind) (id : Int), Decidable (kind.Accepts id)
  | .service, sid => inferInstanceAs (Decidable (0 ≤ sid))
  | .player, pid => inferInstanceAs (Decidable (0 < pid))

/-- A weak pointer to an agent, or an empty one. Agents are numbered as they are made. -/
abbrev WeakAgent := Option Nat

/-- The event's parameters beside its type are a number here. -/
structure IEventParam where
  eventType : Int
  param : Nat
deriving DecidableEq, Repr

/-- The listeners of a kind. `sweeping` tells that the coroutine of
`RemoveExpired` waits for its timer. -/
structure Listeners where
  map : NestedTable Int Int WeakAgent
  waiting : Bool
  sweeping : Bool

def Listeners.new : Listeners := ⟨∅, false, false⟩

/-- A call of `PushEvent`, with the listener that it was made for. -/
structure Delivery where
  kind : ListenerKind
  id : Int
  agent : Nat
  event : IEventParam
deriving DecidableEq, Repr

/-- A call that changes what is registered. -/
inductive Registration where
  | listen (kind : ListenerKind) (id : Int) (agent : WeakAgent) (event : Int)
  | removeByEvent (kind : ListenerKind) (id : Int) (event : Int)
  | remove (kind : ListenerKind) (id : Int)
deriving DecidableEq, Repr

/-- `agents` are the agents that are alive, and `made` is the number of agents
there have been. `dispatching` are the events whose `Dispatch` is between its two
locks. `pushed` and `history`, which is newest first, are a record that no
function reads. -/
structure UEventModule where
  server : EServerState
  state : EModuleState
  service : Listeners
  player : Listeners
  agents : Table Nat Mailbox
  made : Nat
  dispatching : List IEventParam
  pushed : List Delivery
  history : List Registration

namespace UEventModule

/-- A module whose `Initial` has come back. -/
def initialised (server : EServerState) : UEventModule where
  server := server
  state := .initialized
  service := .new
  player := .new
  agents := ∅
  made := 0
  dispatching := []
  pushed := []
  history := []

def listeners (s : UEventModule) : ListenerKind → Listeners
  | .service => s.service
  | .player => s.player

def edit (kind : ListenerKind) (update : Listeners → Listeners) (s : UEventModule) : UEventModule :=
  match kind with
  | .service => { s with service := update s.service }
  | .player => { s with player := update s.player }

/-- `weak.lock()`, which gives nothing once the agent is destroyed. -/
def lock (weak : WeakAgent) (s : UEventModule) : Option Nat :=
  weak.filter fun agent => (s.agents.lookup agent).isSome

/-- The common body of `RemoveExpiredServices` and `RemoveExpiredPlayers`. -/
def removeExpired (kind : ListenerKind) (s : UEventModule) : UEventModule :=
  if (s.listeners kind).waiting then s
  else s.edit kind fun l => { l with waiting := true, sweeping := true }

def removeExpiredServices : UEventModule → UEventModule := removeExpired .service

def removeExpiredPlayers : UEventModule → UEventModule := removeExpired .player

/-- The coroutine that `RemoveExpired` has spawned goes on after its wait. When
the wait was cancelled the flag stays set. -/
def sweep (kind : ListenerKind) (cancelled : Bool) (s : UEventModule) : Option UEventModule :=
  if !(s.listeners kind).sweeping then none
  else if cancelled then some (s.edit kind fun l => { l with sweeping := false })
  else some (s.edit kind fun l => { l with
    map := l.map.sweep fun weak => (s.lock weak).isNone
    waiting := false
    sweeping := false })

/-- The common body of `ServiceListenEvent` and `PlayerListenEvent`. -/
def listenEvent (kind : ListenerKind) (id : Int) (weak : WeakAgent) (event : Int)
    (s : UEventModule) : UEventModule :=
  if s.state = .created then s
  else if ¬ kind.Accepts id ∨ event < 0 then s
  else (s.edit kind fun l => { l with map := l.map.put event id weak }).removeExpired kind

/-- The common body of the functions that remove a listener from an event. -/
def removeListenerByEvent (kind : ListenerKind) (id : Int) (event : Int)
    (s : UEventModule) : UEventModule :=
  if s.state = .created ∨ s.server = .terminated then s
  else if ¬ kind.Accepts id ∨ event < 0 then s
  else
    match (s.listeners kind).map.lookup event with
    | none => s
    | some _ =>
      (s.edit kind fun l => { l with map := l.map.remove event id }).removeExpired kind

/-- The common body of the functions that remove a listener from all events. -/
def removeListener (kind : ListenerKind) (id : Int) (s : UEventModule) : UEventModule :=
  if s.state = .created ∨ s.server = .terminated then s
  else if ¬ kind.Accepts id then s
  else (s.edit kind fun l => { l with map := l.map.removeKey id }).removeExpired kind

def serviceListenEvent (sid : Int) (weak : WeakAgent) (event : Int) :
    UEventModule → UEventModule := listenEvent .service sid weak event

def removeServiceListenerByEvent (sid event : Int) : UEventModule → UEventModule :=
  removeListenerByEvent .service sid event

def removeServiceListener (sid : Int) : UEventModule → UEventModule := removeListener .service sid

def playerListenEvent (pid : Int) (weak : WeakAgent) (event : Int) :
    UEventModule → UEventModule := listenEvent .player pid weak event

def removePlayerListenerByEvent (pid event : Int) : UEventModule → UEventModule :=
  removeListenerByEvent .player pid event

def removePlayerListener (pid : Int) : UEventModule → UEventModule := removeListener .player pid

/-- The body of the loops of `Dispatch`. -/
def pushEvent (kind : ListenerKind) (event : IEventParam) (id : Int) (weak : WeakAgent)
    (s : UEventModule) : UEventModule :=
  match s.lock weak with
  | none => s
  | some agent => { s with
      agents := Table.modify agent (Mailbox.pushEvent (some event.param)) s.agents
      pushed := s.pushed ++ [⟨kind, id, agent, event⟩] }

/-- One of the two locked sections of `Dispatch`. -/
def dispatchTo (kind : ListenerKind) (event : IEventParam) (s : UEventModule) : UEventModule :=
  match (s.listeners kind).map.lookup event.eventType with
  | none => s
  | some listening =>
    listening.entries.foldl (fun s entry => s.pushEvent kind event entry.1 entry.2) s

/-- The tests at the head of `Dispatch`. -/
def dispatched (event : Option IEventParam) (s : UEventModule) : Option IEventParam :=
  if s.state ≠ .running then none else event.filter fun event => 0 ≤ event.eventType

def dispatch (event : Option IEventParam) (s : UEventModule) : UEventModule :=
  match s.dispatched event with
  | none => s
  | some event =>
    let s := (s.dispatchTo .service event).dispatchTo .player event
    s.removeExpiredServices.removeExpiredPlayers

/-- The first section of a `Dispatch` that other threads interrupt. -/
def beginDispatch (event : Option IEventParam) (s : UEventModule) : UEventModule :=
  match s.dispatched event with
  | none => s
  | some event =>
    let s := s.dispatchTo .service event
    { s with dispatching := event :: s.dispatching }

/-- The rest of an interrupted `Dispatch`. -/
def endDispatch (event : IEventParam) (s : UEventModule) : Option UEventModule :=
  if event ∈ s.dispatching then
    let s := s.dispatchTo .player event
    let s := { s with dispatching := s.dispatching.erase event }
    some s.removeExpiredServices.removeExpiredPlayers
  else none

/-- The function of the module that a registration calls. -/
def call : Registration → UEventModule → UEventModule
  | .listen .service sid weak event => serviceListenEvent sid weak event
  | .listen .player pid weak event => playerListenEvent pid weak event
  | .removeByEvent .service sid event => removeServiceListenerByEvent sid event
  | .removeByEvent .player pid event => removePlayerListenerByEvent pid event
  | .remove .service sid => removeServiceListener sid
  | .remove .player pid => removePlayerListener pid

/-- A weak pointer can only point to an agent that has been made. -/
def Made (s : UEventModule) : Registration → Prop
  | .listen _ _ (some agent) _ => agent < s.made
  | .listen _ _ none _ | .removeByEvent .. | .remove .. => True

instance (s : UEventModule) : ∀ registration, Decidable (s.Made registration)
  | .listen _ _ (some agent) _ => inferInstanceAs (Decidable (agent < s.made))
  | .listen _ _ none _ | .removeByEvent .. | .remove .. => .isTrue trivial

/-- What happens to a module after its `Initial`. Agents are made and destroyed
at any time, and a spawned coroutine goes on when its timer is done. -/
inductive Label where
  | start
  | stop
  | make (capacity : Nat)
  | destroy (agent : Nat)
  | call (registration : Registration)
  | sweep (kind : ListenerKind) (cancelled : Bool)
  | dispatch (event : Option IEventParam)
  | beginDispatch (event : Option IEventParam)
  | endDispatch (event : IEventParam)
deriving DecidableEq, Repr

def next (s : UEventModule) : Label → Option UEventModule
  | .start => if s.state = .initialized then some { s with state := .running } else none
  | .stop => some { s with state := .stopped }
  | .make capacity => some { s with
      agents := s.agents.insert s.made (.new capacity)
      made := s.made + 1 }
  | .destroy agent => some { s with agents := s.agents.erase agent }
  | .call registration =>
    if s.Made registration then
      some { s.call registration with history := registration :: s.history }
    else none
  | .sweep kind cancelled => s.sweep kind cancelled
  | .dispatch event => some (s.dispatch event)
  | .beginDispatch event => some (s.beginDispatch event)
  | .endDispatch event => s.endDispatch event

def Step (s : UEventModule) (label : Label) (later : UEventModule) : Prop :=
  s.next label = some later

def runs (s : UEventModule) (labels : List Label) : List (Label × UEventModule) :=
  Transition.trace next s labels

theorem runs_path (s : UEventModule) (labels : List Label) :
    Transition.Path Step s (s.runs labels) :=
  Transition.trace_path id labels

end UEventModule
end Uranus
