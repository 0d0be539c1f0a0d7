import Uranus.Base.AgentBase
import Uranus.Foundation.Courier
import Uranus.Foundation.Path
import Uranus.Foundation.Table
import Uranus.Gateway.State
import Uranus.Service.State

/-! What services and players send to each other: the functions of the two base
classes, of their agents and of the router. A handle is the identity of the
package it points to, so that everybody who holds one sees what others write
into the package. Between what an agent writes and what the router reads, and
between the searches of a call and the push, anything may happen. The router's
tests and the search that they decide are one step, and so is what an agent does
with the package that it is brought. -/
namespace Uranus
open Foundation

abbrev PackageId := Nat

/-- The two kinds of agents. A service agent has its id and the name of its service. -/
inductive Role where
  | service (serviceID : Int) (name : String)
  | player
deriving DecidableEq, Repr

/-- What the base classes of actors offer. A handle or a function may be null. -/
inductive Request where
  | postPackage (pkg : Option PackageId)
  | postPackageTo (name : String) (pkg : Option PackageId)
  | postTask (target : Int64) (task : Option Nat)
  | postTaskTo (name : String) (task : Option Nat)
  | sendToPlayer (pid : Int64) (pkg : Option PackageId)
  | postToPlayer (pid : Int64) (task : Option Nat)
  | sendToClient (pid : Int64) (pkg : Option PackageId)
  | sendPackage (pkg : Option PackageId)
deriving DecidableEq, Repr

/-- `IPlayerBase` does not send to players, and `IServiceBase` has no client of its own. -/
def Role.offers : Role → Request → Bool
  | .service .., .sendPackage _ => false
  | .service .., _ => true
  | .player, .postPackage _ | .player, .postPackageTo .. | .player, .postTask ..
  | .player, .postTaskTo .. | .player, .sendPackage _ => true
  | .player, .sendToPlayer .. | .player, .postToPlayer .. | .player, .sendToClient .. => false

def Role.serviceID : Role → Option Int
  | .service serviceID _ => some serviceID
  | .player => none

def Request.package : Request → Option PackageId
  | .postPackage pkg | .postPackageTo _ pkg | .sendToPlayer _ pkg | .sendToClient _ pkg
  | .sendPackage pkg => pkg
  | .postTask .. | .postTaskTo .. | .postToPlayer .. => none

/-- What the router does with an agent that it has found. -/
inductive Cargo where
  | package (pkg : PackageId)
  | named (pkg : PackageId)
  | task (task : Nat)
  | client (pkg : PackageId)
deriving DecidableEq, Repr

def Cargo.pkg : Cargo → Option PackageId
  | .package pkg | .named pkg | .client pkg => some pkg
  | .task _ => none

/-- How far a call has come. One that is `routed` has entered the router with its
package, and with the player for whom that may be. -/
inductive Posting where
  | asked (sender : AgentId) (request : Request)
  | routed (sender : AgentId) (pkg : PackageId) (pid : Int)
  | named (sender : AgentId) (sid : Int) (cargo : Cargo)
  | found (sender agent : AgentId) (cargo : Cargo)
deriving DecidableEq, Repr

namespace Posting

def sender : Posting → AgentId
  | .asked sender _ | .routed sender .. | .named sender .. | .found sender .. => sender

def package : Posting → Option PackageId
  | .asked _ request => request.package
  | .routed _ pkg _ => some pkg
  | .named _ _ cargo | .found _ _ cargo => cargo.pkg

end Posting

/-- What a call has brought to an agent, with its package if it has one. -/
abbrev Letter := Parcel AgentId (Option PackageId)

/-- Where the coroutine `WritePackage` stands. -/
inductive Writer where
  | testing
  | receiving
  | encoding (letter : Letter)
  | finished
deriving DecidableEq, Repr

/-- An agent whose coroutines have been spawned. The entry of `letters` at the
serial number of a node tells which call has brought it, if one has; the package
that a node itself shows is as it was when it was pushed. `output` holds what is
for the client, `waiting` what the coroutines send that have not started yet.
`sent` and `written` are a history. -/
structure Station where
  role : Role
  mailbox : Mailbox
  letters : List (Option Letter)
  socketOpen : Bool
  output : Channel Letter
  waiting : List Letter
  sent : List Letter
  writer : Writer
  written : List (Letter × FPacket)

namespace Station

def new (role : Role) : Station where
  role := role
  mailbox := (Mailbox.new (match role with
    | .service .. => serviceChannelSize
    | .player => playerChannelSize)).spawnProcess
  letters := []
  socketOpen := match role with
    | .service .. => false
    | .player => true
  output := .new outputCapacity
  waiting := []
  sent := []
  writer := match role with
    | .service .. => .finished
    | .player => .testing
  written := []

/-- A node comes to the mailbox, if that is open. -/
def push (letter : Option Letter) (node : IChannelNode) (station : Station) : Station :=
  if station.mailbox.channel.isOpen then
    { station with
      mailbox := station.mailbox.push (some node), letters := station.letters ++ [letter] }
  else station

/-- `UPlayerAgent::SendPackage` after its test of the target. -/
def send (letter : Letter) (station : Station) : Station :=
  match station.output.trySend letter with
  | some output => { station with output, sent := station.sent ++ [letter] }
  | none =>
    if station.output.isOpen then
      { station with
        waiting := station.waiting ++ [letter], sent := station.sent ++ [letter] }
    else station

/-- A coroutine that was spawned with a package for the client starts. -/
def deliver (letter : Letter) (station : Station) : Option Station :=
  if letter ∈ station.waiting then
    some { station with
      output := station.output.asyncSend letter, waiting := station.waiting.erase letter }
  else none

/-- `UPlayerAgent::Disconnect`, or `Stop` of a service agent. -/
def disconnect (station : Station) : Station :=
  { station with
    socketOpen := false, mailbox := station.mailbox.close, output := station.output.close }

/-- The head of the loop of `WritePackage`. -/
def writeTest (station : Station) : Option Station :=
  match station.writer with
  | .testing =>
    if station.socketOpen && station.output.isOpen then
      some { station with output := station.output.asyncReceive, writer := .receiving }
    else some { station with writer := .finished }
  | .receiving | .encoding _ | .finished => none

/-- What happens to the mailbox. `CleanUp` takes the id from a service agent. -/
def step (event : Mailbox.Event) (station : Station) : Option Station :=
  match event with
  | .push none => some station
  | .push (some (.package _)) | .push (some (.task _)) => none
  | .push (some node) => some (station.push none node)
  | .cleanUp => (station.mailbox.step .cleanUp).map fun mailbox =>
      { station with
        mailbox
        role := match station.role with
          | .service _ name => .service invalidServiceId name
          | .player => .player }
  | event => (station.mailbox.step event).map fun mailbox => { station with mailbox }

end Station

/-- A router, a service module and a gateway, each with its state where the server
has one; their maps; all packages; the agents; the calls under way. What has been
`asked` for is a history that numbers the calls. -/
structure Exchange where
  route : Option EModuleState
  service : Option EModuleState
  serviceMap : Table Int AgentId
  serviceNameMap : Table String Int
  gateway : Option EModuleState
  playerMap : Table Int64 AgentId
  packages : PackageId → FPacket
  stations : Table AgentId Station
  calls : Table Nat Posting
  asked : List (AgentId × Request)

namespace Exchange

def empty : Exchange where
  route := none
  service := none
  serviceMap := ∅
  serviceNameMap := ∅
  gateway := none
  playerMap := ∅
  packages := fun _ => .new
  stations := ∅
  calls := ∅
  asked := []

def target (s : Exchange) (pkg : PackageId) : Int := (s.packages pkg).header.target.toInt

def write (pkg : PackageId) (change : FPacket → FPacket) (s : Exchange) : Exchange :=
  { s with packages := Function.update s.packages pkg (change (s.packages pkg)) }

def setTarget (pkg : PackageId) (target : Int32) (s : Exchange) : Exchange :=
  s.write pkg fun packet => packet.setTarget target

def setSource (pkg : PackageId) (source : Int32) (s : Exchange) : Exchange :=
  s.write pkg fun packet => packet.setSource source

def edit (agent : AgentId) (change : Station → Station) (s : Exchange) : Exchange :=
  { s with stations := Table.modify agent change s.stations }

/-- `UServiceModule::FindService(sid)`. -/
def findService (s : Exchange) (sid : Int) : Option AgentId :=
  if s.service = some .running then s.serviceMap.lookup sid else none

/-- `UServiceModule::FindService(name)`, up to the search for the id it has read. -/
def findServiceId (s : Exchange) (name : String) : Option Int :=
  if s.service = some .running then (s.serviceNameMap.lookup name).filter fun sid => 0 ≤ sid
  else none

/-- `UGateway::FindPlayer`. -/
def findPlayer (s : Exchange) (pid : Int64) : Option AgentId :=
  if s.gateway = some .running then s.playerMap.lookup pid else none

section
variable (sender : AgentId) (s : Exchange)

/-- `URouteModule::PostPackage(pkg, pid)`, which reads the target that the package
has by then. -/
def routePostPackage (pkg : PackageId) (pid : Int) : Option Posting :=
  if s.route ≠ some .running then none
  else if s.target pkg > 0 then
    (s.findService (s.target pkg)).map fun agent => .found sender agent (.package pkg)
  else
    let target := if s.target pkg = playerTargetId.toInt then pid else s.target pkg
    if target < 0 then none
    else (s.findPlayer (Int64.ofInt target)).map fun agent => .found sender agent (.package pkg)

/-- `URouteModule::PostPackage(name, pkg)`. -/
def routePostPackageTo (name : String) (pkg : PackageId) : Option Posting :=
  if s.route ≠ some .running ∨ name = "" then none
  else (s.findServiceId name).map fun sid => .named sender sid (.named pkg)

/-- `URouteModule::PostTask(bToService, target, task)`. -/
def routePostTask (bToService : Bool) (target : Int64) (task : Nat) : Option Posting :=
  if s.route ≠ some .running ∨ target < 0 then none
  else if bToService then
    (s.findService target.toInt).map fun agent => .found sender agent (.task task)
  else (s.findPlayer target).map fun agent => .found sender agent (.task task)

/-- `URouteModule::PostTask(name, task)`. -/
def routePostTaskTo (name : String) (task : Nat) : Option Posting :=
  if s.route ≠ some .running ∨ name = "" then none
  else (s.findServiceId name).map fun sid => .named sender sid (.task task)

/-- `URouteModule::SendToClient`. -/
def routeSendToClient (pid : Int64) (pkg : PackageId) : Option Posting :=
  if s.route ≠ some .running ∨ pid ≤ 0 then none
  else (s.findPlayer pid).map fun agent => .found sender agent (.client pkg)

end

section
variable (serviceID : Int) (serviceName : String) (sender : AgentId) (s : Exchange)

/-- `UServiceAgent::PostPackage(pkg)`, which does not post to the service itself. -/
def servicePostPackage (pkg : PackageId) : Exchange × Option Posting :=
  (s, if s.target pkg < 0 ∨ s.target pkg = serviceID ∨ s.route = none then none
    else some (.routed sender pkg playerTargetId.toInt))

/-- `UServiceAgent::PostPackage(name, pkg)`. -/
def servicePostPackageTo (name : String) (pkg : PackageId) : Exchange × Option Posting :=
  (s, if name = "" ∨ name = serviceName then none else s.routePostPackageTo sender name pkg)

/-- `UServiceAgent::PostTask(target, task)`. -/
def servicePostTask (target : Int64) (task : Nat) : Exchange × Option Posting :=
  (s, if target < 0 ∨ target.toInt = serviceID then none
    else s.routePostTask sender true target task)

/-- `UServiceAgent::PostTask(name, task)`. -/
def servicePostTaskTo (name : String) (task : Nat) : Exchange × Option Posting :=
  (s, if name = "" ∨ name = serviceName then none else s.routePostTaskTo sender name task)

/-- `UServiceAgent::SendToPlayer`. -/
def serviceSendToPlayer (pid : Int64) (pkg : PackageId) : Exchange × Option Posting :=
  if pid < 0 ∨ s.route = none then (s, none)
  else (s.setTarget pkg playerTargetId, some (.routed sender pkg pid.toInt))

/-- `UServiceAgent::SendToClient`. -/
def serviceSendToClient (pid : Int64) (pkg : PackageId) : Exchange × Option Posting :=
  if pid ≤ 0 ∨ s.route = none then (s, none)
  else
    let s := s.setTarget pkg clientTargetId
    (s, s.routeSendToClient sender pid pkg)

/-- `UServiceAgent::PostToPlayer`. -/
def servicePostToPlayer (pid : Int64) (task : Nat) : Exchange × Option Posting :=
  (s, if pid ≤ 0 then none else s.routePostTask sender false pid task)

/-- The functions of `IServiceBase`. -/
def serviceRequest : Request → Exchange × Option Posting
  | .postPackage (some pkg) => s.servicePostPackage serviceID sender pkg
  | .postPackageTo name (some pkg) =>
    if name = "" then (s, none) else s.servicePostPackageTo serviceName sender name pkg
  | .postTask target (some task) =>
    if target < 0 then (s, none) else s.servicePostTask serviceID sender target task
  | .postTaskTo name (some task) =>
    if name = "" then (s, none) else s.servicePostTaskTo serviceName sender name task
  | .sendToPlayer pid (some pkg) =>
    if pid ≤ 0 then (s, none) else s.serviceSendToPlayer sender pid pkg
  | .postToPlayer pid (some task) =>
    if pid ≤ 0 then (s, none) else s.servicePostToPlayer sender pid task
  | .sendToClient pid (some pkg) =>
    if pid ≤ 0 then (s, none) else s.serviceSendToClient sender pid pkg
  | .postPackage none | .postPackageTo _ none | .postTask _ none | .postTaskTo _ none
  | .sendToPlayer _ none | .postToPlayer _ none | .sendToClient _ none | .sendPackage _ => (s, none)

/-- `UPlayerAgent::PostPackage(pkg)`. -/
def playerPostPackage (pkg : PackageId) : Exchange × Option Posting :=
  if s.target pkg < 0 ∨ s.route = none then (s, none)
  else (s.setSource pkg playerTargetId, some (.routed sender pkg playerTargetId.toInt))

/-- `UPlayerAgent::PostPackage(name, pkg)`. -/
def playerPostPackageTo (name : String) (pkg : PackageId) : Exchange × Option Posting :=
  if s.route = none then (s, none)
  else
    let s := s.setSource pkg playerTargetId
    (s, s.routePostPackageTo sender name pkg)

/-- `UPlayerAgent::PostTask(target, task)`. -/
def playerPostTask (target : Int64) (task : Nat) : Exchange × Option Posting :=
  (s, if target < 0 then none else s.routePostTask sender true target task)

/-- `UPlayerAgent::PostTask(name, task)`. -/
def playerPostTaskTo (name : String) (task : Nat) : Exchange × Option Posting :=
  (s, if name = "" then none else s.routePostTaskTo sender name task)

/-- `UPlayerAgent::SendPackage`. -/
def sendPackage (number : Nat) (agent : AgentId) (pkg : PackageId) : Exchange :=
  if s.target pkg ≠ clientTargetId.toInt then s
  else s.edit agent (Station.send ⟨number, sender, some pkg⟩)

/-- The functions of `IPlayerBase`. -/
def playerRequest (number : Nat) : Request → Exchange × Option Posting
  | .postPackage (some pkg) =>
    if s.target pkg < 0 then (s, none) else s.playerPostPackage sender pkg
  | .postPackageTo name (some pkg) =>
    if name = "" then (s, none) else s.playerPostPackageTo sender name pkg
  | .postTask target (some task) =>
    if target < 0 then (s, none) else s.playerPostTask sender target task
  | .postTaskTo name (some task) =>
    if name = "" then (s, none) else s.playerPostTaskTo sender name task
  | .sendPackage (some pkg) =>
    let s := (s.setSource pkg playerTargetId).setTarget pkg clientTargetId
    (s.sendPackage sender number sender pkg, none)
  | .postPackage none | .postPackageTo _ none | .postTask _ none | .postTaskTo _ none
  | .sendPackage none | .sendToPlayer .. | .postToPlayer .. | .sendToClient .. => (s, none)

end

/-- `IAgentBase::PushPackage`. -/
def pushPackage (s : Exchange) (number : Nat) (sender agent : AgentId) (pkg : PackageId) :
    Exchange :=
  s.edit agent (Station.push (some ⟨number, sender, some pkg⟩) (.package (s.packages pkg)))

/-- `IAgentBase::PushTask`. -/
def pushTask (s : Exchange) (number : Nat) (sender agent : AgentId) (task : Nat) : Exchange :=
  s.edit agent (Station.push (some ⟨number, sender, none⟩) (.task task))

/-- The end of a call that has found an agent. Only a service has a name to be found by. -/
def bring (s : Exchange) (number : Nat) (sender agent : AgentId) : Cargo → Exchange
  | .package pkg => s.pushPackage number sender agent pkg
  | .named pkg =>
    match (s.stations.lookup agent).bind fun station => station.role.serviceID with
    | some sid => (s.setTarget pkg (Int32.ofInt sid)).pushPackage number sender agent pkg
    | none => s
  | .task task => s.pushTask number sender agent task
  | .client pkg => (s.setTarget pkg clientTargetId).sendPackage sender number agent pkg

/-- The next section of a call, and what is then left of it. -/
def advance (s : Exchange) (number : Nat) : Posting → Exchange × Option Posting
  | .asked sender request =>
    match (s.stations.lookup sender).map Station.role with
    | none => (s, none)
    | some (.service sid name) => s.serviceRequest sid name sender request
    | some .player => s.playerRequest sender number request
  | .routed sender pkg pid => (s, s.routePostPackage sender pkg pid)
  | .named sender sid cargo =>
    (s, (s.findService sid).map fun agent => .found sender agent cargo)
  | .found sender agent cargo => (s.bring number sender agent cargo, none)

def keep (number : Nat) (rest : Option Posting) (s : Exchange) : Exchange :=
  match rest with
  | none => { s with calls := s.calls.erase number }
  | some posting => { s with calls := s.calls.insert number posting }

/-- `WritePackage` goes on after its receive, up to the end of its encoding or to
the head of its loop. -/
def writeResume (agent : AgentId) (station : Station) (s : Exchange) : Option Exchange :=
  match station.writer with
  | .receiving =>
    match station.output.take with
    | none => none
    | some (none, output) => some (s.edit agent fun station =>
        { ({ station with output } : Station).disconnect with writer := .finished })
    | some (some letter, output) =>
      let sends := letter.body.any fun pkg => s.target pkg = clientTargetId.toInt
      some (s.edit agent fun station =>
        { station with output, writer := if sends then .encoding letter else .testing })
  | .testing | .encoding _ | .finished => none

/-- After these packages the write loop disconnects. -/
def terminal (packet : FPacket) : Bool :=
  packet.header.id = loginFailedPackageId || packet.header.id = loginRepeatedPackageId

/-- The codec is done with a package. -/
def encoded (agent : AgentId) (station : Station) (ok : Bool) (s : Exchange) : Option Exchange :=
  match station.writer with
  | .encoding letter =>
    match letter.body with
    | none => none
    | some pkg =>
      if !ok then
        some (s.edit agent fun station => { station.disconnect with writer := .finished })
      else
        let packet := s.packages pkg
        some (s.edit agent fun station =>
          let station := { station with written := station.written ++ [(letter, packet)] }
          if terminal packet then { station.disconnect with writer := .finished }
          else { station with writer := .testing })
  | .testing | .receiving | .finished => none

/-- What can happen next. The maps of the modules change as the modules do it:
`enlist` is the end of `BootService`, the others are single writes. -/
inductive Move where
  | ask (sender : AgentId) (request : Request)
  | advance (number : Nat)
  | write (pkg : PackageId) (change : FPacket → FPacket)
  | enter (agent : AgentId) (role : Role)
  | enlist (agent : AgentId)
  | removeService (sid : Int)
  | eraseName (name : String)
  | login (pid : Int64) (agent : AgentId)
  | logout (pid : Int64)
  | modules (route service gateway : Option EModuleState)
  | mailbox (agent : AgentId) (event : Mailbox.Event)
  | deliver (agent : AgentId) (letter : Letter)
  | writeTest (agent : AgentId)
  | writeResume (agent : AgentId)
  | encoded (agent : AgentId) (ok : Bool)
  | disconnect (agent : AgentId)

/-- A move of an agent that changes nothing but itself. -/
def move (agent : AgentId) (change : Station → Option Station) (s : Exchange) : Option Exchange :=
  ((s.stations.lookup agent).bind change).map fun station => s.edit agent fun _ => station

def next (s : Exchange) : Move → Option Exchange
  | .ask sender request =>
    if (s.stations.lookup sender).any fun station => station.role.offers request then
      some { s with
        calls := s.calls.insert s.asked.length (.asked sender request)
        asked := s.asked ++ [(sender, request)] }
    else none
  | .advance number =>
    (s.calls.lookup number).map fun posting =>
      let (later, rest) := s.advance number posting
      later.keep number rest
  | .write pkg change => some (s.write pkg change)
  | .enter agent role =>
    if (s.stations.lookup agent).isNone then
      some { s with stations := s.stations.insert agent (.new role) }
    else none
  | .enlist agent =>
    match (s.stations.lookup agent).map Station.role with
    | some (.service sid name) => some { s with
        serviceMap := s.serviceMap.insert sid agent
        serviceNameMap := s.serviceNameMap.insert name sid }
    | some .player | none => none
  | .removeService sid => some { s with serviceMap := s.serviceMap.erase sid }
  | .eraseName name => some { s with serviceNameMap := s.serviceNameMap.erase name }
  | .login pid agent =>
    match (s.stations.lookup agent).map Station.role with
    | some .player => some { s with playerMap := s.playerMap.insert pid agent }
    | some (.service ..) | none => none
  | .logout pid => some { s with playerMap := s.playerMap.erase pid }
  | .modules route service gateway => some { s with route, service, gateway }
  | .mailbox agent event => s.move agent (Station.step event)
  | .deliver agent letter => s.move agent (Station.deliver letter)
  | .writeTest agent => s.move agent Station.writeTest
  | .writeResume agent =>
    (s.stations.lookup agent).bind fun station => s.writeResume agent station
  | .encoded agent ok =>
    (s.stations.lookup agent).bind fun station => s.encoded agent station ok
  | .disconnect agent => s.move agent fun station => some station.disconnect

def Step (s : Exchange) (move : Move) (later : Exchange) : Prop := s.next move = some later

def runs (s : Exchange) (moves : List Move) : List (Move × Exchange) :=
  Transition.trace next s moves

theorem runs_path (s : Exchange) (moves : List Move) :
    Transition.Path Step s (s.runs moves) :=
  Transition.trace_path id moves

end Exchange
end Uranus
