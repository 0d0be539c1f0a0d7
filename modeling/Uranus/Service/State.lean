import Uranus.Foundation.Program
import Uranus.Foundation.Table
import Uranus.Base.AgentBase
import Uranus.Base.IdentAllocator
import Uranus.Gateway.State

/-! The data of the service module. A pointer to an agent carries what never
changes of it, which agent it is and the service that it was set up with; what
changes is kept in the table of contexts. -/
namespace Uranus
open Foundation Program

def invalidServiceId : Int := -10

/-- An instance of a service: what its virtual functions answer when the module
calls them. The name is the one it has after `Initial`. -/
structure IServiceBase where
  name : String
  initial : Except String Bool
  start : Except String Bool
  stop : Option String
  updatePerTick : Bool
deriving DecidableEq

/-- What an instance does depends on more than its path; `occasion` stands for
the data asset and whatever else it is. -/
structure IServiceFactory where
  createInstance : String → Nat → Option IServiceBase

def mailService : IServiceBase := ⟨"mail", .ok true, .ok true, none, true⟩

/-- Every instance that the factory makes is `service`. -/
def IServiceFactory.only (service : IServiceBase) : IServiceFactory := ⟨fun _ _ => some service⟩

structure UServiceAgent where
  serial : Nat
  service : IServiceBase
deriving DecidableEq

def UServiceAgent.name (agent : UServiceAgent) : String := agent.service.name

/-- The changing part of an agent. `stops` counts the calls of `Stop` of the
service, a history that no function reads. -/
structure ServiceContext where
  serviceID : Int
  service : Option IServiceBase
  mailbox : Mailbox
  stops : Nat

/-- Where the coroutine `UpdateLoop` stands: before its start, at the test of its
loop, in a wait or after it (which `Stop` may have cancelled), or at a pass. -/
inductive UpdateLoop where
  | absent
  | spawned
  | testing
  | waiting
  | elapsed (cancelled : Bool)
  | passing
  | finished
deriving DecidableEq, Repr

/-- The worker pool of the module: its threads run, or its context is stopped.
`signalled` stands for the handler of the signal set that `Start` opens and, at
its end, destroys: the wait is aborted, and its handler stops the context. -/
structure USingleIOContextPool where
  started : Bool
  stopped : Bool
  signalled : Bool
deriving DecidableEq, Repr

namespace USingleIOContextPool

def new : USingleIOContextPool := ⟨false, false, false⟩

def start (pool : USingleIOContextPool) : USingleIOContextPool :=
  { pool with started := true, signalled := true }

def stop (pool : USingleIOContextPool) : USingleIOContextPool :=
  { pool with stopped := true, signalled := false }

/-- A thread takes handlers. -/
def running (pool : USingleIOContextPool) : Bool := pool.started && !pool.stopped

end USingleIOContextPool

/-- A core service of the configuration: its name, and what its instance and its
id depend on besides. -/
structure CoreService where
  name : String
  occasion : Nat
  first : Int
deriving DecidableEq

/-- Where the main thread stands in `Initial`, `Start` or `Stop`. The loops carry
what they have still to go through. -/
inductive MainThread where
  | idle
  | creating (cores : List CoreService)
  | opening
  | initialised
  | booting (services : List (Int × UServiceAgent))
  | cancelling
  | closing (services : List (Int × UServiceAgent))
  | clearing
deriving DecidableEq

/-- The service module, with the state of the route module of its server beside
it. `removals`, `recyclings` and `halts` are a history that no function reads:
what the calls of `ShutdownService` removed, recycled and stopped. -/
structure UServiceModule where
  main : MainThread
  state : EModuleState
  routeState : EModuleState
  workerPool : USingleIOContextPool
  serviceMap : Table Int UServiceAgent
  serviceNameMap : Table String Int
  serviceFactory : Option IServiceFactory
  allocator : TIdentAllocator
  tickerSet : Finset Int
  updateLoop : UpdateLoop
  contexts : Table Nat ServiceContext
  nextAgent : Nat
  removals : Multiset (Int × UServiceAgent)
  recyclings : Multiset (Int × UServiceAgent)
  halts : Multiset (Int × UServiceAgent)

abbrev ServiceM := Program UServiceModule

namespace UServiceModule

/-- A constructed module with its factory. -/
def new (factory : IServiceFactory) : UServiceModule where
  main := .idle
  state := .created
  routeState := .created
  workerPool := .new
  serviceMap := ∅
  serviceNameMap := ∅
  serviceFactory := some factory
  allocator := .new
  tickerSet := ∅
  updateLoop := .absent
  contexts := ∅
  nextAgent := 0
  removals := 0
  recyclings := 0
  halts := 0

/-- A running module without services. -/
def started (factory : IServiceFactory) : UServiceModule :=
  { new factory with
    state := .running
    routeState := .running
    workerPool := ⟨true, false, false⟩
    updateLoop := .waiting }

def edit (serial : Nat) (update : ServiceContext → ServiceContext) (s : UServiceModule) :
    UServiceModule :=
  { s with contexts := Table.modify serial update s.contexts }

end UServiceModule

/-- The name of the service that is registered under an id. -/
def serviceNames (services : Table Int UServiceAgent) (sid : Int) : Option String :=
  (services.lookup sid).map UServiceAgent.name

def editContext (serial : Nat) (update : ServiceContext → ServiceContext) : ServiceM Unit :=
  modify (UServiceModule.edit serial update)

theorem serviceNames_insert (services : Table Int UServiceAgent) (sid : Int)
    (agent : UServiceAgent) : serviceNames (services.insert sid agent) =
      Function.update (serviceNames services) sid (some agent.name) := by
  funext other
  by_cases same : other = sid
  · subst same
    simp [serviceNames]
  · simp [serviceNames, AList.lookup_insert_ne same, Function.update_of_ne same]

theorem serviceNames_erase (services : Table Int UServiceAgent) (sid : Int) :
    serviceNames (services.erase sid) = Function.update (serviceNames services) sid none := by
  funext other
  by_cases same : other = sid
  · subst same
    simp [serviceNames]
  · simp [serviceNames, AList.lookup_erase_ne same, Function.update_of_ne same]

theorem serviceNames_some {services : Table Int UServiceAgent} {sid : Int}
    {agent : UServiceAgent} (present : services.lookup sid = some agent) :
    serviceNames services sid = some agent.name := by
  rw [serviceNames, present, Option.map_some]

theorem serviceNames_none {services : Table Int UServiceAgent} {sid : Int} :
    serviceNames services sid = none ↔ services.lookup sid = none := Option.map_eq_none_iff

end Uranus
