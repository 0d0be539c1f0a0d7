import Uranus.Foundation.Interleaving
import Uranus.Gateway.Operation

/-! The coroutines of an agent. A turn is what a coroutine does between two
suspensions; what the network, the codec and the timers answer is part of the
turn. A login within a turn of `ReadPackage` goes section by section, so that
anything may come in between; the runs of the program are among those here. -/
namespace Uranus
open Foundation Program Interleaving

inductive ReadOutcome where
  | ended
  | failed
  | received (pkg : FPacket) (now : Int)
deriving DecidableEq

inductive WatchOutcome where
  | again
  | cancelled
  | expired
deriving DecidableEq

namespace UPlayerAgent

def endReading (agent : UPlayerAgent) : UPlayerAgent := { agent with reading := false }

/-- After this package the write loop disconnects. -/
def terminal (pkg : FPacket) : Bool :=
  pkg.header.id == loginFailedPackageId || pkg.header.id == loginRepeatedPackageId

/-- A turn of `WritePackage`; `encoded` is the answer of the codec, and absent
where the channel reports an error or something throws. -/
def writeTurn (encoded : Option Bool) (agent : UPlayerAgent) : UPlayerAgent :=
  if !agent.writing then agent
  else if !agent.socketOpen || !agent.outputOpen then { agent with writing := false }
  else
    match encoded with
    | none => { agent.disconnect with writing := false }
    | some encoded =>
      match agent.output with
      | [] => agent
      | none :: rest => { agent with output := rest }
      | some pkg :: rest =>
        if pkg.header.target ≠ clientTargetId then { agent with output := rest }
        else if !encoded then { agent.disconnect with writing := false, output := rest }
        else if terminal pkg then
          { agent.disconnect with
            writing := false, output := rest, written := agent.written ++ [pkg] }
        else { agent with output := rest, written := agent.written ++ [pkg] }

/-- A turn of `Watchdog`. -/
def watchTurn (outcome : WatchOutcome) (agent : UPlayerAgent) : UPlayerAgent :=
  if !agent.watching then agent
  else
    match outcome with
    | .again => agent
    | .cancelled => { agent with watching := false }
    | .expired =>
      if agent.socketOpen then { agent.disconnect with watching := false }
      else { agent with watching := false }

/-- The connection coroutine after `Initial` of the codec, which may also throw. -/
def handshakeTurn (initialised : Option Bool) (agent : UPlayerAgent) : UPlayerAgent :=
  if agent.connection ≠ .starting then agent
  else
    match initialised with
    | none => { agent with connection := .finished }
    | some false => { agent.disconnect with connection := .finished }
    | some true => { agent with
      connection := .looping, reading := true, writing := true, watching := true }

/-- The connection coroutine when its three loops have ended. -/
def joinTurn (agent : UPlayerAgent) : UPlayerAgent :=
  if agent.connection = .looping ∧ ¬ agent.reading ∧ ¬ agent.writing ∧ ¬ agent.watching then
    { agent with connection := .finished }
  else agent

/-- The senders that wait at a closed channel give up. -/
def cancelSenders (agent : UPlayerAgent) : UPlayerAgent :=
  if agent.outputOpen then agent else { agent with output := agent.output.take outputCapacity }

/-- The agent is the same to the registry, and so are its player and the coroutine
that was started with it. -/
structure Alike (agent other : UPlayerAgent) : Prop where
  key : other.key = agent.key
  active : other.active = agent.active
  player : other.player = agent.player
  processing : other.processing = agent.processing

theorem alike_writeTurn (encoded : Option Bool) (agent : UPlayerAgent) :
    Alike agent (agent.writeTurn encoded) := by
  unfold writeTurn
  repeat' split
  all_goals exact ⟨rfl, rfl, rfl, rfl⟩

theorem alike_watchTurn (outcome : WatchOutcome) (agent : UPlayerAgent) :
    Alike agent (agent.watchTurn outcome) := by
  unfold watchTurn
  repeat' split
  all_goals exact ⟨rfl, rfl, rfl, rfl⟩

theorem alike_handshakeTurn (initialised : Option Bool) (agent : UPlayerAgent) :
    Alike agent (agent.handshakeTurn initialised) := by
  unfold handshakeTurn
  repeat' split
  all_goals exact ⟨rfl, rfl, rfl, rfl⟩

theorem alike_joinTurn (agent : UPlayerAgent) : Alike agent agent.joinTurn := by
  unfold joinTurn
  split <;> exact ⟨rfl, rfl, rfl, rfl⟩

theorem alike_cancelSenders (agent : UPlayerAgent) : Alike agent agent.cancelSenders := by
  unfold cancelSenders
  split <;> exact ⟨rfl, rfl, rfl, rfl⟩

/-- `Disconnect` has been called and no coroutine of the agent is left. -/
structure Over (agent : UPlayerAgent) : Prop where
  closed : agent.socketOpen = false ∧ agent.channelOpen = false ∧ agent.outputOpen = false
  connection : agent.connection = .absent ∨ agent.connection = .finished
  processing : agent.processing = .absent ∨ agent.processing = .finished
  senders : agent.output.length ≤ outputCapacity

end UPlayerAgent

/-- A package for an agent with a player. One for a service leaves the gateway. -/
def receivePackage (factory : IPlayerFactory) (id : AgentId) (player : IPlayerBase)
    (pkg : FPacket) : GatewayM Unit :=
  if pkg.header.id = loginRequestPackageId ∨ pkg.header.id = heartbeatPackageId ∨
      pkg.header.id = platformPackageId then pure ()
  else if pkg.header.id = logoutRequestPackageId then
    editAgent id fun agent => { agent with cachable := false }
  else if pkg.header.target = playerTargetId then callHook (factory.hooks.onPackage player pkg)
  else pure ()

def giveUp {A : Type} (id : AgentId) : GatewayM (Option A) := do
  disconnect id
  editAgent id UPlayerAgent.endReading
  pure none

/-- The handler around the loop of `ReadPackage`. -/
def catching {A : Type} (id : AgentId) (body : GatewayM (Option A)) : GatewayM (Option A) :=
  recover body (giveUp id)

/-- A turn of `ReadPackage`, up to a login with the player id that comes out. -/
def readTurn (factory : IPlayerFactory) (parser : ILoginHandler) (id : AgentId) :
    ReadOutcome → GatewayM (Option Int64)
  | .ended => do
    editAgent id UPlayerAgent.endReading
    pure none
  | .failed => giveUp id
  | .received pkg now => do
    let agent ← theAgent id
    match agent.player with
    | none => checkRequest parser now agent.key pkg
    | some player => do
      receivePackage factory id player pkg
      pure none

/-- The coroutine that `SetUpPlayer` starts, up to its loop. -/
def processStart (factory : IPlayerFactory) (id : AgentId) : GatewayM Unit := do
  let agent ← theAgent id
  match agent.player, agent.handler with
  | some player, some handler =>
    match handler.onLoginSuccess player.playerID with
    | none => throw .undefined
    | some pkg => do
      sendPackage id (some (stamp loginResponsePackageId pkg))
      callHook (factory.hooks.initial player)
      editAgent id fun agent => { agent with processing := .looping }
  | _, _ => throw .undefined

/-- The end of the coroutine that `SetUpPlayer` starts. -/
def processFinish (id : AgentId) : GatewayM Unit :=
  editAgent id fun agent => { agent with processing := .finished }

/-- A turn of the coroutine that `SetUpPlayer` starts: it cleans the agent up
when its channel is closed or reports an error. -/
def processTurn (factory : IPlayerFactory) (now : Int) (id : AgentId) (failed : Bool) :
    GatewayM Unit := do
  let agent ← theAgent id
  match agent.processing with
  | .absent | .finished => pure ()
  | .starting => recover (processStart factory id) (processFinish id)
  | .looping =>
    if agent.channelOpen && !failed then pure ()
    else do
      recover (cleanUp factory now id) (pure ())
      processFinish id

inductive Turn where
  | accept (address : String) (unixTime : Int)
  | handshake (id : AgentId) (initialised : Option Bool)
  | read (id : AgentId) (outcome : ReadOutcome)
  | write (id : AgentId) (encoded : Option Bool)
  | watch (id : AgentId) (outcome : WatchOutcome)
  | join (id : AgentId)
  | process (id : AgentId) (now : Int) (failed : Bool)
  | cancelSenders (id : AgentId)
  | disconnect (id : AgentId)
  | losePeer (id : AgentId)
  | collect (point keepSec : Int) (maxSize : Int32) (order : List Int64)
deriving DecidableEq

/-- What runs without interruption: a turn, or a section of a login in one. -/
inductive Task where
  | turn (turn : Turn)
  | success (caller : AgentId) (key : String) (pid : Int64)
  | login (caller : AgentId) (key : String) (pid : Int64)
  | loginCache (caller : AgentId) (call : LoginCall)
  | loginFinish (caller : AgentId) (call : LoginCall)
deriving DecidableEq

def Turn.run (factory : IPlayerFactory) : Turn → GatewayM Unit
  | .accept address unixTime => waitForClient factory address unixTime
  | .handshake id initialised => editAgent id (UPlayerAgent.handshakeTurn initialised)
  | .read _ _ => pure ()
  | .write id encoded => editAgent id (UPlayerAgent.writeTurn encoded)
  | .watch id outcome => editAgent id (UPlayerAgent.watchTurn outcome)
  | .join id => editAgent id UPlayerAgent.joinTurn
  | .process id now failed => processTurn factory now id failed
  | .cancelSenders id => editAgent id UPlayerAgent.cancelSenders
  | .disconnect id => Uranus.disconnect id
  | .losePeer id => editAgent id fun agent => { agent with peer := none }
  | .collect point keepSec maxSize order => collectCachedPlayer point keepSec maxSize order

namespace Task

/-- Turns begin at any moment, and the sections of a login follow from one. -/
def Starts : Task → Prop
  | .turn _ => True
  | _ => False

instance : DecidablePred Starts := fun task =>
  match task with
  | .turn _ => .isTrue trivial
  | .success .. | .login .. | .loginCache .. | .loginFinish .. => .isFalse fun no => no

def part (factory : IPlayerFactory) (parser : ILoginHandler) : Task → GatewayM (Option Task)
  | .turn (.read id outcome) => do
    let agent ← theAgent id
    if !agent.reading then pure none
    else do
      let pid ← catching id (readTurn factory parser id outcome)
      pure (pid.map (.success id agent.key))
  | .turn event => do
    event.run factory
    pure none
  | .success caller key pid => do
    recordLogin fun recent => recent.erase key
    pure (some (.login caller key pid))
  | .login caller key pid => do
    let call ← catching caller (loginHead key pid)
    pure (call.map (.loginCache caller))
  | .loginCache caller call => do
    let call ← Uranus.loginCache call
    pure (some (.loginFinish caller call))
  | .loginFinish caller call => catching caller do
    Uranus.loginFinish factory call
    pure none

end Task

abbrev Connections := Config UGateway Task

def Connections.step (factory : IPlayerFactory) (parser : ILoginHandler) :
    Connections → Move Task → Connections → Prop :=
  Interleaving.Step (Task.part factory parser) Task.Starts

end Uranus
