import Uranus.Gateway.Connection
import Uranus.Gateway.Session
import Uranus.Service.ServiceModule

/-! The way of a package from a client: the read loop of its agent, `PostPackage`
of the agent, and the router. -/
namespace Uranus
open Foundation Program

/-- Who may get a package: a player whose agent runs it, a service, or an agent
of a player that the router finds. -/
inductive Addressee where
  | player (agent : AgentId) (player : IPlayerBase)
  | service (sid : Int) (agent : UServiceAgent)
  | playerAgent (pid : Int64) (agent : AgentId)
deriving DecidableEq

/-- The modules of a server that a package may pass. A server may lack a service
module or a router; `reached` records who got which package. -/
structure ServerModules where
  gateway : UGateway
  service : Option UServiceModule
  route : Option EModuleState
  reached : List (Addressee × FPacket)

abbrev ServerM := Program ServerModules

def onGateway {A : Type} (program : GatewayM A) : ServerM A := fun s =>
  match program s.gateway with
  | .ok value gateway => .ok value { s with gateway }
  | .error fault gateway => .error fault { s with gateway }

def onService {A : Type} (module' : UServiceModule) (program : ServiceM A) : ServerM A := fun s =>
  match program module' with
  | .ok value service => .ok value { s with service := some service }
  | .error fault service => .error fault { s with service := some service }

def reach (addressee : Addressee) (pkg : FPacket) : ServerM Unit :=
  modify fun s => { s with reached := s.reached ++ [(addressee, pkg)] }

/-- `UGateway::FindPlayer`. -/
def findPlayer (pid : Int64) : GatewayM (Option AgentId) := do
  let s ← get
  if s.state ≠ .running then pure none else pure (s.playerMap.lookup pid)

/-- The branch of the router for services. -/
def routeToService (target : Int) (pkg : FPacket) : ServerM Unit := do
  match (← get).service with
  | none => pure ()
  | some module' => do
    match ← onService module' (findService target) with
    | none => pure ()
    | some agent => do
      reach (.service target agent) pkg
      onService module' (editContext agent.serial fun context =>
        context.post (Mailbox.pushPackage (some pkg)))

/-- The branch of the router for players. -/
def routeToPlayer (target : Int) (pkg : FPacket) : ServerM Unit := do
  match ← onGateway (findPlayer (Int64.ofInt target)) with
  | none => pure ()
  | some agent => reach (.playerAgent (Int64.ofInt target) agent) pkg

/-- `URouteModule::PostPackage`. -/
def routePostPackage (pkg : FPacket) (pid : Int) : ServerM Unit := do
  if (← get).route ≠ some .running then pure ()
  else if pkg.header.target.toInt > 0 then routeToService pkg.header.target.toInt pkg
  else
    let target := if pkg.header.target = playerTargetId then pid else pkg.header.target.toInt
    if target < 0 then pure () else routeToPlayer target pkg

/-- `UPlayerAgent::PostPackage`. The router is called with its default player. -/
def agentPostPackage (pkg : FPacket) : ServerM Unit := do
  if pkg.header.target < 0 then pure ()
  else
    match (← get).route with
    | none => pure ()
    | some _ => routePostPackage (pkg.setSource playerTargetId) (-1)

/-- What the read loop does with a package of an agent that has a player. -/
def react (factory : IPlayerFactory) (id : AgentId) (player : IPlayerBase) (pkg : FPacket) :
    ServerM Unit :=
  match reaction pkg with
  | .ignored => pure ()
  | .logout => onGateway (editAgent id fun agent => { agent with cachable := false })
  | .direct => do
    reach (.player id player) pkg
    onGateway (callHook (factory.hooks.onPackage player pkg))
  | .posted => agentPostPackage pkg

/-- The body of `ReadPackage` after the read, up to a login. -/
def readPackage (factory : IPlayerFactory) (parser : ILoginHandler) (id : AgentId)
    (pkg : FPacket) (now : Int) : ServerM (Option Int64) := do
  let agent ← onGateway (theAgent id)
  match agent.player with
  | none => onGateway (checkRequest parser now agent.key pkg)
  | some player => do
    react factory id player pkg
    pure none

/-- The gateway's part of a result. -/
def gatewayResult {A : Type} : EStateM.Result Fault ServerModules A →
    EStateM.Result Fault UGateway A
  | .ok value s => .ok value s.gateway
  | .error fault s => .error fault s.gateway

section
variable {s : ServerModules} {g : UGateway} {A : Type}

theorem onGateway_ok {program : GatewayM A} {value : A} (ran : program s.gateway = .ok value g) :
    onGateway program s = .ok value { s with gateway := g } := by
  simp only [onGateway, ran]

theorem onGateway_error {program : GatewayM A} {fault : Fault}
    (failed : program s.gateway = .error fault g) :
    onGateway program s = .error fault { s with gateway := g } := by
  simp only [onGateway, failed]

theorem onService_ok {module' later : UServiceModule} {program : ServiceM A} {value : A}
    (ran : program module' = .ok value later) :
    onService module' program s = .ok value { s with service := some later } := by
  simp only [onService, ran]

end

end Uranus
