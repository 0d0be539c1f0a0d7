import Uranus.Gateway.State

/-! The player agent: one connection to a client, and the functions of the
agent that touch no map of the gateway. -/
namespace Uranus
open Foundation Program

namespace UPlayerAgent

/-- An agent constructed for a connection from `address` at second `unixTime`. -/
def new (address : String) (unixTime : Int) : UPlayerAgent where
  key := address ++ "-" ++ toString unixTime
  peer := some address
  socketOpen := true
  channelOpen := true
  outputOpen := true
  output := []
  hasModule := false
  handler := none
  player := none
  cachable := true
  repeated := false
  connection := .absent
  reading := false
  writing := false
  watching := false
  processing := .absent
  written := []
  cleaned := false

def initial (handler : IAgentHandler) (agent : UPlayerAgent) : UPlayerAgent :=
  { agent with hasModule := true, handler := some handler }

def connectToClient (agent : UPlayerAgent) : UPlayerAgent := { agent with connection := .starting }

def disconnect (agent : UPlayerAgent) : UPlayerAgent :=
  { agent with socketOpen := false, channelOpen := false, outputOpen := false }

/-- A package for the output channel, sent at once or by a coroutine that waits. -/
def offer (pkg : FPacket) (agent : UPlayerAgent) : UPlayerAgent :=
  if agent.outputOpen then { agent with output := agent.output ++ [some pkg] } else agent

end UPlayerAgent

def disconnect (id : AgentId) : GatewayM Unit := editAgent id UPlayerAgent.disconnect

def remoteAddress (id : AgentId) : GatewayM String := do
  let agent ← theAgent id
  if agent.socketOpen then
    match agent.peer with
    | some address => pure address
    | none => throw (.exception "remote_endpoint: Transport endpoint is not connected")
  else pure "0.0.0.0"

def sendPackage (id : AgentId) (pkg : Option FPacket) : GatewayM Unit :=
  match pkg with
  | none => pure ()
  | some pkg =>
    if pkg.header.target ≠ clientTargetId then pure ()
    else editAgent id (UPlayerAgent.offer pkg)

/-- The header that the server puts on a package of its own to the client. -/
def stamp (packageID : UInt32) (pkg : FPacket) : FPacket :=
  ((pkg.setPackageID packageID).setSource serverSourceId).setTarget clientTargetId

/-- The common body of `OnLoginFailed` and `OnRepeated`. Its check throws where
a handler is present. -/
def notify (id : AgentId) (packageID : UInt32) (answer : IAgentHandler → Option FPacket)
    (function : String) : GatewayM Unit := do
  let agent ← theAgent id
  throwIf agent.handler.isSome (function ++ " - Handler Is Null Pointer")
  editAgent id fun agent => { agent with cachable := false }
  match agent.handler with
  | none => throw .undefined
  | some handler =>
    match answer handler with
    | none => disconnect id
    | some pkg => sendPackage id (some (stamp packageID pkg))

def onLoginFailed (id : AgentId) (code : Int32) (desc : String) : GatewayM Unit :=
  notify id loginFailedPackageId (fun handler => handler.onLoginFailure code desc) "OnLoginFailed"

def onRepeated (id : AgentId) (addr : String) : GatewayM Unit :=
  notify id loginRepeatedPackageId (fun handler => handler.onRepeated addr) "OnRepeated"

/-- The check throws where the agent has no player. -/
def setUpPlayer (id : AgentId) (plr : IPlayerBase) : GatewayM Unit := do
  let agent ← theAgent id
  if !agent.socketOpen || !agent.channelOpen then pure ()
  else
    throwIf agent.player.isNone "SetUpPlayer - Other Player Already Exists"
    editAgent id fun agent =>
      { agent with player := some { plr with agent := some id }, processing := .starting }

def extractPlayer (id : AgentId) : GatewayM FPlayerHandle := do
  let agent ← theAgent id
  match agent.player with
  | none => throw .undefined
  | some player =>
    editAgent id fun agent => { agent with player := none }
    pure (some { player with agent := none })

section
variable {s : UGateway} {id : AgentId} {agent : UPlayerAgent}

theorem notify_throws (alive : s.agents.lookup id = some agent) (handled : agent.handler.isSome)
    (packageID : UInt32) (answer : IAgentHandler → Option FPacket) (function : String) :
    notify id packageID answer function s =
      .error (.exception (function ++ " - Handler Is Null Pointer")) s := by
  simp only [notify]
  rw [bind_ok (theAgent_ok alive), throwIf_throw_bind handled, throw_apply]

theorem setUpPlayer_closed (alive : s.agents.lookup id = some agent)
    (closed : (!agent.socketOpen || !agent.channelOpen) = true) (plr : IPlayerBase) :
    setUpPlayer id plr s = .ok () s := by
  simp only [setUpPlayer]
  rw [bind_ok (theAgent_ok alive), if_pos closed, pure_apply]

theorem setUpPlayer_throws (alive : s.agents.lookup id = some agent)
    (opened : (!agent.socketOpen || !agent.channelOpen) = false) (unset : agent.player = none)
    (plr : IPlayerBase) : setUpPlayer id plr s =
      .error (.exception "SetUpPlayer - Other Player Already Exists") s := by
  have failed : agent.player.isNone = true := by rw [unset]; rfl
  simp only [setUpPlayer]
  rw [bind_ok (theAgent_ok alive), opened, if_neg (by simp), throwIf_throw_bind failed, throw_apply]

theorem setUpPlayer_ok (alive : s.agents.lookup id = some agent)
    (opened : (!agent.socketOpen || !agent.channelOpen) = false) {player : IPlayerBase}
    (set : agent.player = some player) (plr : IPlayerBase) : setUpPlayer id plr s =
      .ok () (s.edit id fun agent =>
        { agent with player := some { plr with agent := some id }, processing := .starting }) := by
  have passed : ¬ agent.player.isNone = true := by simp [set]
  simp only [setUpPlayer]
  rw [bind_ok (theAgent_ok alive), opened, if_neg (by simp), throwIf_bind passed, editAgent_apply]

theorem extractPlayer_undefined (alive : s.agents.lookup id = some agent)
    (unset : agent.player = none) : extractPlayer id s = .error .undefined s := by
  simp only [extractPlayer]
  rw [bind_ok (theAgent_ok alive)]
  simp only [unset, throw_apply]

theorem extractPlayer_ok (alive : s.agents.lookup id = some agent) {player : IPlayerBase}
    (set : agent.player = some player) : extractPlayer id s =
      .ok (some { player with agent := none })
        (s.edit id fun agent => { agent with player := none }) := by
  simp only [extractPlayer]
  rw [bind_ok (theAgent_ok alive), set]
  rfl

theorem remoteAddress_same : Within Eq (remoteAddress id) := by
  apply Within.bind theAgent_same
  intro agent
  split
  · cases agent.peer with
    | none => exact Within.throw _
    | some address => exact Within.pure address
  · exact Within.pure _

/-- `OnLoginFailed` and `OnRepeated` come back by an exception only, which they
throw before they do anything. -/
theorem notify_same (packageID : UInt32) (answer : IAgentHandler → Option FPacket)
    (function : String) : Within Eq (notify id packageID answer function) := by
  intro s t ends
  cases alive : s.agents.lookup id with
  | none =>
    obtain ⟨what, wrong⟩ := ends.of_fault (bind_error (theAgent_undefined alive) _)
    cases wrong
  | some agent =>
    cases handled : agent.handler with
    | some handler =>
      exact (ends.of_exception (notify_throws alive (by rw [handled]; rfl) _ _ _)).symm
    | none =>
      have ends := ends.congr (bind_ok (theAgent_ok alive) _)
      rw [throwIf_bind (by simp [handled])] at ends
      have ends := ends.congr (bind_ok (editAgent_apply _) _)
      simp only [handled] at ends
      obtain ⟨what, wrong⟩ := ends.of_fault rfl
      cases wrong

end
end Uranus
