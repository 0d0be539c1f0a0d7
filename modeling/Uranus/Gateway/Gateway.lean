import Uranus.Gateway.Agent

/-! The gateway's functions over its three maps. `OnPlayerLogin` and
`RecyclePlayer` are written as the sections that each hold their mutexes
throughout, so that a call is the sequence of its sections. -/
namespace Uranus
open Foundation Program

def findAgent (key : String) : GatewayM (Option AgentId) := do
  let s ← get
  if s.state ≠ .running then pure none else pure (s.agentMap.lookup key)

def removePlayer (pid : Int64) : GatewayM Unit := do
  let s ← get
  if s.state ≠ .running then pure ()
  else modify fun s => { s with playerMap := s.playerMap.erase pid }

def removeAgent (key : String) : GatewayM Unit := do
  let s ← get
  if s.state ≠ .running then pure ()
  else modify fun s => { s with agentMap := s.agentMap.erase key }

/-- The head of `RecyclePlayer`: the id of the player to recycle. The player is
the one that the agent holds, which the caller passes by reference. -/
def recycleEntry (id : AgentId) : GatewayM (Option Int64) := do
  let s ← get
  if s.state ≠ .running then pure none
  else
    let agent ← theAgent id
    match agent.player with
    | none => pure none
    | some player => if player.playerID ≤ 0 then pure none else pure (some player.playerID)

/-- The section of `RecyclePlayer` under the cache mutex. -/
def recycleCache (id : AgentId) (pid : Int64) (now : Int) : GatewayM Unit := do
  let agent ← theAgent id
  editAgent id fun agent => { agent with player := none }
  modify fun s => { s with cachedMap := s.cachedMap.insert pid ⟨agent.player, now⟩ }

def recyclePlayer (id : AgentId) (now : Int) : GatewayM Unit := do
  match ← recycleEntry id with
  | none => pure ()
  | some pid => do
    removePlayer pid
    recycleCache id pid now

/-- The local variables of `OnPlayerLogin`, once it knows its agent. -/
structure LoginCall where
  pid : Int64
  agent : AgentId
  existed : Option AgentId
  player : FPlayerHandle
deriving DecidableEq, Repr

/-- The second half of the first section of `OnPlayerLogin`. -/
def enlist (key : String) (pid : Int64) (existed : Option AgentId) (player : FPlayerHandle) :
    GatewayM (Option LoginCall) := do
  match (← get).agentMap.lookup key with
  | none => pure none
  | some id =>
    modify fun s => { s with
      agentMap := s.agentMap.erase key, playerMap := s.playerMap.insert pid id }
    pure (some ⟨pid, id, existed, player⟩)

/-- The section of `OnPlayerLogin` under the mutexes of agents and players. -/
def loginRegister (key : String) (pid : Int64) : GatewayM (Option LoginCall) := do
  match (← get).playerMap.lookup pid with
  | none => enlist key pid none none
  | some id =>
    let agent ← theAgent id
    if agent.key = key then pure none
    else
      let player ← extractPlayer id
      modify fun s => { s with playerMap := s.playerMap.erase pid }
      enlist key pid (some id) player

/-- `OnPlayerLogin` up to the end of its first section. -/
def loginHead (key : String) (pid : Int64) : GatewayM (Option LoginCall) := do
  let s ← get
  if s.state ≠ .running then pure none else loginRegister key pid

/-- The section of `OnPlayerLogin` under the cache mutex. -/
def loginCache (call : LoginCall) : GatewayM LoginCall := do
  let s ← get
  modify fun s => { s with cachedMap := s.cachedMap.erase call.pid }
  match call.player with
  | some _ => pure call
  | none => pure { call with player := (s.cachedMap.lookup call.pid).bind FCachedNode.player }

/-- A new instance of the library, with the id of a constructed player. -/
def createPlayer : GatewayM IPlayerBase := do
  let s ← get
  modify fun s => { s with nextPlayer := s.nextPlayer + 1 }
  pure ⟨s.nextPlayer, -1, none⟩

/-- Tells the displaced agent that its player has logged in elsewhere. -/
def loginNotify (call : LoginCall) : GatewayM Unit :=
  match call.existed with
  | none => pure ()
  | some existed => do
    let addr ← remoteAddress call.agent
    onRepeated existed addr

/-- The old instance, reset, or a new one. -/
def loginPlayer (factory : IPlayerFactory) (player : FPlayerHandle) : GatewayM IPlayerBase :=
  match player with
  | none => createPlayer
  | some player => do
    callHook (factory.hooks.save player)
    callHook (factory.hooks.onReset player)
    pure player

/-- The rest of `OnPlayerLogin`, which holds no mutex. -/
def loginFinish (factory : IPlayerFactory) (call : LoginCall) : GatewayM Unit := do
  loginNotify call
  let player ← loginPlayer factory call.player
  setUpPlayer call.agent { player with playerID := call.pid }

/-- The sections of `OnPlayerLogin` after the first, if it found its agent. -/
def loginRest (factory : IPlayerFactory) : Option LoginCall → GatewayM Unit
  | none => pure ()
  | some call => do
    let call ← loginCache call
    loginFinish factory call

def onPlayerLogin (factory : IPlayerFactory) (key : String) (pid : Int64) : GatewayM Unit := do
  let call ← loginHead key pid
  loginRest factory call

/-- The part of `UPlayerAgent::CleanUp` about the player of the agent. -/
def cleanUpPlayer (factory : IPlayerFactory) (now : Int) (id : AgentId) (agent : UPlayerAgent) :
    GatewayM Unit :=
  match agent.player with
  | none => pure ()
  | some player => do
    callHook (factory.hooks.onLogout player)
    callHook (factory.hooks.save player)
    if agent.cachable && !agent.repeated then do
      editAgent id fun agent => { agent with player := some { player with agent := none } }
      recyclePlayer id now
    else do
      removePlayer player.playerID
      editAgent id fun agent => { agent with player := none }

/-- `UPlayerAgent::CleanUp`. -/
def cleanUp (factory : IPlayerFactory) (now : Int) (id : AgentId) : GatewayM Unit := do
  let agent ← theAgent id
  editAgent id fun agent => { agent with cleaned := true }
  if !agent.hasModule then pure ()
  else do
    cleanUpPlayer factory now id agent
    removeAgent agent.key

/-- `VerifyAddress` accepts every address so far. -/
def ULoginAuth.verifyAddress (_ : ULoginAuth) (_ : String) : Bool := true

/-- One turn of the accept loop, for a connection from `address` at second
`unixTime`. A connection that is not registered loses its agent at once. -/
def waitForClient (factory : IPlayerFactory) (address : String) (unixTime : Int) :
    GatewayM Unit := do
  let s ← get
  if s.state ≠ .running then pure ()
  else if s.login.any fun login => !login.verifyAddress address then pure ()
  else do
    let id := s.nextAgent
    let agent := UPlayerAgent.new address unixTime
    modify fun s => { s with agents := s.agents.insert id agent, nextAgent := id + 1 }
    if agent.key = "" then disconnect id
    else if (s.agentMap.lookup agent.key).isSome then disconnect id
    else do
      modify fun s => { s with agentMap := s.agentMap.insert agent.key id }
      editAgent id (UPlayerAgent.initial (factory.createAgentHandler id))
      editAgent id UPlayerAgent.connectToClient

/-- One turn of the loop that ages the cache, at time `point`. `order` is the
order in which the hash map is traversed. -/
def collectCachedPlayer (point keepSec : Int) (maxSize : Int32) (order : List Int64) :
    GatewayM Unit :=
  modify fun s =>
    let kept := Table.eraseIf (fun _ node => point - node.timepoint > keepSec * 1000000000)
      s.cachedMap
    let del := Table.size kept - maxSize.toInt64.toUInt64.toNat
    let victims := (order.filter fun pid => (kept.lookup pid).isSome).take del
    { s with cachedMap := victims.foldl (fun map pid => map.erase pid) kept }

section
variable {s : UGateway}

theorem removePlayer_running (running : s.state = .running) (pid : Int64) :
    removePlayer pid s = .ok () { s with playerMap := s.playerMap.erase pid } := by
  simp only [removePlayer, get_bind]
  rw [if_neg (not_not.mpr running), modify_apply]

theorem removeAgent_running (running : s.state = .running) (key : String) :
    removeAgent key s = .ok () { s with agentMap := s.agentMap.erase key } := by
  simp only [removeAgent, get_bind]
  rw [if_neg (not_not.mpr running), modify_apply]

theorem loginHead_running (running : s.state = .running) (key : String) (pid : Int64) :
    loginHead key pid s = loginRegister key pid s := by
  simp only [loginHead, get_bind]
  rw [if_neg (not_not.mpr running)]

theorem loginHead_stopped (stopped : s.state ≠ .running) (key : String) (pid : Int64) :
    loginHead key pid s = .ok none s := by
  simp only [loginHead, get_bind]
  rw [if_pos stopped, pure_apply]

theorem loginCache_ok (call : LoginCall) (s : UGateway) : loginCache call s =
    .ok { call with
        player := call.player.or ((s.cachedMap.lookup call.pid).bind FCachedNode.player) }
      { s with cachedMap := s.cachedMap.erase call.pid } := by
  obtain ⟨pid, agent, existed, player⟩ := call
  cases player with
  | none => rfl
  | some player => rfl

theorem findAgent_same (key : String) : Within Eq (findAgent key) := by
  apply Within.bind (R := Eq) Within.get
  intro s
  split <;> exact Within.pure _

theorem loginNotify_same (call : LoginCall) : Within Eq (loginNotify call) := by
  unfold loginNotify
  cases call.existed with
  | none => exact Within.pure ()
  | some existed =>
    exact Within.bind remoteAddress_same fun addr => notify_same _ _ _

/-- The rest of a login does what creating and setting up a player do. -/
theorem loginFinish_within {R : UGateway → UGateway → Prop} [IsPreorder UGateway R]
    (create : Within R createPlayer) (setUp : ∀ id plr, Within R (setUpPlayer id plr))
    (factory : IPlayerFactory) (call : LoginCall) : Within R (loginFinish factory call) := by
  apply Within.bind (R := R) (Within.of_same (loginNotify_same call))
  intro _
  apply Within.bind _ fun player => setUp _ _
  cases call.player with
  | none => exact create
  | some player =>
    apply Within.bind (R := R) (Within.of_same (callHook_same _))
    intro _
    exact Within.bind (Within.of_same (callHook_same _)) fun _ => Within.pure player

end
end Uranus
