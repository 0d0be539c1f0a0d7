import Uranus.Service.State

/-! The service agent: the functions through which the module sets up, starts
and stops a service. -/
namespace Uranus
open Foundation Program

namespace ServiceContext

/-- The context of an agent that has its id and its service. -/
def new (sid : Int) (service : IServiceBase) : ServiceContext where
  serviceID := sid
  service := some service
  mailbox := .new serviceChannelSize
  stops := 0

/-- `UServiceAgent::Stop`. -/
def stop (context : ServiceContext) : ServiceContext :=
  { context with mailbox := context.mailbox.close }

def post (send : Mailbox → Mailbox) (context : ServiceContext) : ServiceContext :=
  { context with mailbox := send context.mailbox }

def pushTicker (timepoint delta : Int) (context : ServiceContext) : ServiceContext :=
  match context.service with
  | none => context
  | some _ => context.post (Mailbox.push (some (.ticker timepoint delta)))

/-- `UServiceAgent::CleanUp`: the service is released once its `Stop` has come back. -/
def release (context : ServiceContext) : ServiceContext :=
  match context.service with
  | none => context
  | some service =>
    match service.stop with
    | some _ => { context with stops := context.stops + 1 }
    | none => { context with
        stops := context.stops + 1, service := none, serviceID := invalidServiceId }

/-- What happens to the mailbox of a service. -/
def step (context : ServiceContext) : Mailbox.Event → Option ServiceContext
  | .resume _ => (context.mailbox.resume context.service.isSome).map fun mailbox =>
      { context with mailbox }
  | .cleanUp => context.mailbox.cleanUp.map fun mailbox => { context.release with mailbox }
  | event => (context.mailbox.step event).map fun mailbox => { context with mailbox }

end ServiceContext

/-- The service of an agent that is being set up answers to `Initial`. -/
def agentInitial (agent : UServiceAgent) : ServiceM Bool :=
  match agent.service.initial with
  | .error what => throw (.exception what)
  | .ok ready => pure ready

/-- The module's registration of a service for ticks. -/
def insertTicker (sid : Int) : ServiceM Unit := do
  let s ← get
  if s.state ≠ .running then pure ()
  else if sid < 0 then pure ()
  else modify fun s => { s with tickerSet := insert sid s.tickerSet }

def removeTicker (sid : Int) : ServiceM Unit := do
  let s ← get
  if s.state ≠ .running then pure ()
  else if sid < 0 then pure ()
  else modify fun s => { s with tickerSet := s.tickerSet.erase sid }

/-- The channel of an agent is open. -/
def UServiceModule.isOpen (s : UServiceModule) (agent : UServiceAgent) : Bool :=
  (s.contexts.lookup agent.serial).any fun context => context.mailbox.channel.isOpen

/-- `UServiceAgent::BootService`: it tells whether the service has started. -/
def agentBootService (sid : Int) (agent : UServiceAgent) : ServiceM Bool := do
  throwIf (¬ (← get).isOpen agent) "BootService          - Not Initialized"
  match agent.service.start with
  | .error what => throw (.exception what)
  | .ok false => pure false
  | .ok true => do
    if agent.service.updatePerTick then insertTicker sid else pure ()
    editContext agent.serial (ServiceContext.post Mailbox.spawnProcess)
    pure true

def agentStop (agent : UServiceAgent) : ServiceM Unit :=
  editContext agent.serial ServiceContext.stop

/-- Where an agent's coroutine and its service stand, which no push changes. -/
abbrev Standing := ProcessChannel × Nat × Option IServiceBase

def ServiceContext.standing (context : ServiceContext) : Standing :=
  (context.mailbox.process, context.stops, context.service)

def UServiceModule.standing (s : UServiceModule) (serial : Nat) : Option Standing :=
  (s.contexts.lookup serial).map ServiceContext.standing

theorem post_standing {send : Mailbox → Mailbox} (keeps : ∀ m, (send m).process = m.process)
    (context : ServiceContext) : (context.post send).standing = context.standing :=
  Prod.ext (keeps context.mailbox) rfl

theorem pushTicker_standing (timepoint delta : Int) (context : ServiceContext) :
    (context.pushTicker timepoint delta).standing = context.standing := by
  unfold ServiceContext.pushTicker
  split
  · rfl
  · exact post_standing (Mailbox.push_process _) context

section
variable {update : ServiceContext → ServiceContext}

theorem standing_modify (keeps : ∀ context, (update context).standing = context.standing)
    (serial key : Nat) (contexts : Table Nat ServiceContext) :
    ((Table.modify serial update contexts).lookup key).map ServiceContext.standing =
      (contexts.lookup key).map ServiceContext.standing := by
  rw [Table.lookup_modify]
  split
  next same =>
    rw [same, Option.map_map]
    congr 1
    funext context
    exact keeps context
  next => rfl

theorem standing_edit (keeps : ∀ context, (update context).standing = context.standing)
    (serial : Nat) (s : UServiceModule) : (s.edit serial update).standing = s.standing :=
  funext fun key => standing_modify keeps serial key s.contexts

end

end Uranus
