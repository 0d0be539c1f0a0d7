import Uranus.Foundation.Channel
import Uranus.Internal.Packet

/-! The mailbox of an agent: the channel of nodes that an actor executes, the
coroutines that wait with a node for a full channel, and the coroutine that
takes the nodes out. -/
namespace Uranus
open Foundation

def serviceChannelSize : Nat := 4096
def playerChannelSize : Nat := 512

/-- What is sent to an actor. Parameters of events and functions of tasks are numbers here. -/
inductive IChannelNode where
  | package (pkg : FPacket)
  | event (param : Nat)
  | task (task : Nat)
  | ticker (timepoint delta : Int)
deriving DecidableEq

/-- A node as an object, which the number of nodes pushed before tells apart. -/
structure Post where
  serial : Nat
  node : IChannelNode
deriving DecidableEq

/-- Where the coroutine `ProcessChannel` stands. -/
inductive ProcessChannel where
  | absent
  | starting
  | receiving
  | executing (post : Post)
  | cleaning
  | finished
deriving DecidableEq

/-- `deferred` are the nodes of spawned coroutines that have not started yet.
`pushed`, `executed` and `cleanUps` are a history that no function reads. -/
structure Mailbox where
  channel : Channel Post
  deferred : List Post
  process : ProcessChannel
  pushed : List Post
  executed : List Post
  cleanUps : Nat

namespace Mailbox

def new (capacity : Nat) : Mailbox where
  channel := .new capacity
  deferred := []
  process := .absent
  pushed := []
  executed := []
  cleanUps := 0

/-- The common body of the functions that push: the node is sent at once, or by
a coroutine where the channel has no room. -/
def push (node : Option IChannelNode) (m : Mailbox) : Mailbox :=
  if !m.channel.isOpen then m
  else
    match node with
    | none => m
    | some node =>
      let post := ⟨m.pushed.length, node⟩
      match m.channel.trySend post with
      | some channel => { m with channel := channel, pushed := m.pushed ++ [post] }
      | none => { m with deferred := m.deferred ++ [post], pushed := m.pushed ++ [post] }

def pushPackage (pkg : Option FPacket) (m : Mailbox) : Mailbox := m.push (pkg.map .package)

def pushEvent (event : Option Nat) (m : Mailbox) : Mailbox := m.push (event.map .event)

def pushTask (task : Option Nat) (m : Mailbox) : Mailbox := m.push (task.map .task)

/-- The spawn of `ProcessChannel`, which happens once for an agent. -/
def spawnProcess (m : Mailbox) : Mailbox :=
  if m.process = .absent then { m with process := .starting } else m

def close (m : Mailbox) : Mailbox := { m with channel := m.channel.close }

/-- A coroutine that was spawned with a node starts, and sends it. -/
def deliver (post : Post) (m : Mailbox) : Option Mailbox :=
  if post ∈ m.deferred then
    some { m with channel := m.channel.asyncSend post, deferred := m.deferred.erase post }
  else none

/-- The head of the loop of `ProcessChannel`. -/
def loop (m : Mailbox) : Mailbox :=
  if m.channel.isOpen then { m with channel := m.channel.asyncReceive, process := .receiving }
  else { m with process := .cleaning }

/-- `ProcessChannel` goes on, up to the execution of a node; `actor` tells
whether `GetActor` returns one. -/
def resume (actor : Bool) (m : Mailbox) : Option Mailbox :=
  match m.process with
  | .starting => some m.loop
  | .receiving =>
    match m.channel.take with
    | none => none
    | some (none, channel) => some { m with channel := channel, process := .cleaning }
    | some (some post, channel) =>
      let m := { m with channel := channel }
      if !m.channel.isOpen then some { m with process := .cleaning }
      else if actor then
        some { m with process := .executing post, executed := m.executed ++ [post] }
      else some m.loop
  | .absent | .executing _ | .cleaning | .finished => none

/-- The execution of a node comes back. An exception ends the coroutine in its
handler, which comes after the call of `CleanUp`. -/
def complete (threw : Bool) (m : Mailbox) : Option Mailbox :=
  match m.process with
  | .executing _ => if threw then some { m with process := .finished } else some m.loop
  | .absent | .starting | .receiving | .cleaning | .finished => none

/-- The call of `CleanUp`, which ends the coroutine in either way. -/
def cleanUp (m : Mailbox) : Option Mailbox :=
  match m.process with
  | .cleaning => some { m with process := .finished, cleanUps := m.cleanUps + 1 }
  | .absent | .starting | .receiving | .executing _ | .finished => none

theorem push_process (node : Option IChannelNode) (m : Mailbox) :
    (m.push node).process = m.process := by
  unfold push
  split
  · rfl
  · cases node with
    | none => rfl
    | some node =>
      dsimp only
      split <;> rfl

inductive Event where
  | push (node : Option IChannelNode)
  | deliver (post : Post)
  | resume (actor : Bool)
  | complete (threw : Bool)
  | cleanUp
  | close
deriving DecidableEq

def step (m : Mailbox) : Event → Option Mailbox
  | .push node => some (m.push node)
  | .deliver post => m.deliver post
  | .resume actor => m.resume actor
  | .complete threw => m.complete threw
  | .cleanUp => m.cleanUp
  | .close => some m.close

def Step (m : Mailbox) (event : Event) (later : Mailbox) : Prop := m.step event = some later

end Mailbox
end Uranus
