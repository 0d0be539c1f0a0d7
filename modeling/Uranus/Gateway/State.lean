import Uranus.Foundation.Program
import Uranus.Foundation.Table
import Uranus.Internal.Packet
import Uranus.Base.Module

/-! The data of the gateway. Agents live in a table of allocated objects and the
maps of the gateway point into it, as shared pointers do. A player has one owner
at a time, so the handle of a player is the player itself, or nothing. -/
namespace Uranus
open Foundation Program

abbrev AgentId := Nat

def playerTargetId : Int32 := -1
def clientTargetId : Int32 := -2
def serverSourceId : Int32 := -3

def heartbeatPackageId : UInt32 := 1001
def loginRequestPackageId : UInt32 := 1002
def loginResponsePackageId : UInt32 := 1003
def loginFailedPackageId : UInt32 := 1004
def loginRepeatedPackageId : UInt32 := 1005
def platformPackageId : UInt32 := 1006
def logoutRequestPackageId : UInt32 := 1007

/-- The capacity of an agent's output channel. -/
def outputCapacity : Nat := 1024

/-- A player instance; `serial` tells two instances with one id apart. -/
structure IPlayerBase where
  serial : Nat
  playerID : Int64
  agent : Option AgentId
deriving DecidableEq, Repr

abbrev FPlayerHandle := Option IPlayerBase

/-- The virtual functions of a player: the message of the exception that a call throws, if any. -/
structure PlayerHooks where
  initial : IPlayerBase → Option String
  onLogout : IPlayerBase → Option String
  save : IPlayerBase → Option String
  onReset : IPlayerBase → Option String
  onPackage : IPlayerBase → FPacket → Option String

structure IAgentHandler where
  onLoginSuccess : Int64 → Option FPacket
  onLoginFailure : Int32 → String → Option FPacket
  onRepeated : String → Option FPacket

/-- What the library of a game provides. -/
structure IPlayerFactory where
  hooks : PlayerHooks
  createAgentHandler : AgentId → IAgentHandler

/-- A library whose players define no virtual function and whose handlers answer
every event with a new package. -/
def plainFactory : IPlayerFactory where
  hooks := ⟨fun _ => none, fun _ => none, fun _ => none, fun _ => none, fun _ _ => none⟩
  createAgentHandler _ := ⟨fun _ => some .new, fun _ _ => some .new, fun _ => some .new⟩

inductive Coroutine where
  | absent
  | starting
  | looping
  | finished
deriving DecidableEq, Repr

/-- `peer` is what the socket reports as its remote address, until the peer is
gone. What `output` holds beyond the capacity of the channel belongs to senders
that wait for room. `written` and `cleaned` are a history that no function reads. -/
structure UPlayerAgent where
  key : String
  peer : Option String
  socketOpen : Bool
  channelOpen : Bool
  outputOpen : Bool
  output : List (Option FPacket)
  hasModule : Bool
  handler : Option IAgentHandler
  player : FPlayerHandle
  cachable : Bool
  repeated : Bool
  connection : Coroutine
  reading : Bool
  writing : Bool
  watching : Bool
  processing : Coroutine
  written : List FPacket
  cleaned : Bool

structure FCachedNode where
  player : FPlayerHandle
  timepoint : Int
deriving DecidableEq, Repr

structure ULoginAuth where
  state : EModuleState
  recentLoginMap : Table String Int

/-- The gateway, with the login module of its server beside it. -/
structure UGateway where
  state : EModuleState
  agentMap : Table String AgentId
  playerMap : Table Int64 AgentId
  cachedMap : Table Int64 FCachedNode
  agents : Table AgentId UPlayerAgent
  nextAgent : AgentId
  nextPlayer : Nat
  login : Option ULoginAuth

abbrev GatewayM := Program UGateway

/-- A running gateway without agents or players. -/
def UGateway.started : UGateway where
  state := .running
  agentMap := ∅
  playerMap := ∅
  cachedMap := ∅
  agents := ∅
  nextAgent := 0
  nextPlayer := 0
  login := some ⟨.running, ∅⟩

/-- An update of one agent; nothing happens where there is none. -/
def UGateway.edit (id : AgentId) (update : UPlayerAgent → UPlayerAgent) (s : UGateway) : UGateway :=
  match s.agents.lookup id with
  | some agent => { s with agents := s.agents.insert id (update agent) }
  | none => s

theorem UGateway.edit_lookup (id other : AgentId) (update : UPlayerAgent → UPlayerAgent)
    (s : UGateway) : (s.edit id update).agents.lookup other =
      if other = id then (s.agents.lookup id).map update else s.agents.lookup other := by
  unfold UGateway.edit
  split
  next agent found =>
    rw [Table.lookup_insert_ite, found]
    rfl
  next missing =>
    split
    next same => rw [same, missing, Option.map_none]
    next => rfl

/-- Updating agents leaves the rest of the gateway alone. -/
theorem UGateway.edit_frame (id : AgentId) (update : UPlayerAgent → UPlayerAgent) (s : UGateway) :
    s.edit id update = { s with agents := (s.edit id update).agents } := by
  unfold UGateway.edit
  split <;> rfl

/-- The access to an agent through a pointer. -/
def theAgent (id : AgentId) : GatewayM UPlayerAgent := do
  match (← get).agents.lookup id with
  | some agent => pure agent
  | none => throw .undefined

def editAgent (id : AgentId) (update : UPlayerAgent → UPlayerAgent) : GatewayM Unit :=
  modify (UGateway.edit id update)

/-- The call of a virtual function, which may throw. -/
def callHook (thrown : Option String) : GatewayM Unit :=
  match thrown with
  | some what => throw (.exception what)
  | none => pure ()

section
variable {s : UGateway} {id : AgentId} {agent : UPlayerAgent}

theorem theAgent_ok (alive : s.agents.lookup id = some agent) : theAgent id s = .ok agent s := by
  simp only [theAgent, get_bind, alive, pure_apply]

theorem theAgent_undefined (gone : s.agents.lookup id = none) :
    theAgent id s = .error .undefined s := by
  simp only [theAgent, get_bind, gone, throw_apply]

@[simp] theorem editAgent_apply (update : UPlayerAgent → UPlayerAgent) :
    editAgent id update s = .ok () (s.edit id update) := rfl

theorem theAgent_same : Within Eq (theAgent id) := by
  apply Within.bind (R := Eq) Within.get
  intro s
  cases s.agents.lookup id with
  | none => exact Within.throw _
  | some agent => exact Within.pure agent

theorem callHook_same (thrown : Option String) : Within Eq (callHook thrown) := by
  cases thrown with
  | none => exact Within.pure ()
  | some what => exact Within.throw _

end
end Uranus
