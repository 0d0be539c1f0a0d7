import Uranus.Service.CoreStart

/-! `Start` of the service module as one call. It boots the core services while
the module is still INITIALIZED, and `InsertTicker` only takes ids while it is
RUNNING, so no core service is ever registered for ticks here. -/
namespace Uranus
open Foundation Program
variable {factory : IServiceFactory} {s t : UServiceModule} {sid : Int} {agent : UServiceAgent}
  {services : List (Int × UServiceAgent)}

/-- `UServiceModule::Start`, with its loop over the services. -/
def startModule : ServiceM Unit := do
  let services := (← get).services
  mainStart
  mainSteps (services.length + 1)

/-- The service answers true to `Start` and wants ticks. -/
def UServiceAgent.WantsTicks (agent : UServiceAgent) : Prop :=
  agent.service.start = .ok true ∧ agent.service.updatePerTick = true

instance (agent : UServiceAgent) : Decidable agent.WantsTicks := inferInstanceAs (Decidable (_ ∧ _))

namespace UServiceModule

/-- The tickers are the registered services that have started and want ticks. -/
def TickersServed (s : UServiceModule) : Prop :=
  ∀ sid, sid ∈ s.tickerSet ↔ ∃ agent, s.serviceMap.lookup sid = some agent ∧ agent.WantsTicks

/-- No `Start` of a registered service throws. -/
def StartReturns (s : UServiceModule) : Prop :=
  ∀ sid agent, s.serviceMap.lookup sid = some agent → ∀ what, agent.service.start ≠ .error what

theorem mem_services : (sid, agent) ∈ s.services ↔ s.serviceMap.lookup sid = some agent := by
  rw [← Table.mem_pairs, Table.pairs, Multiset.mem_coe]
  rfl

theorem ticking_early (early : s.state ≠ .running) (sid : Int) : s.ticking sid = s.tickerSet := by
  rw [ticking, if_neg fun holds => early holds.1]

theorem launch_tickers (early : s.state ≠ .running) (sid : Int) (agent : UServiceAgent) :
    (s.launch sid agent).tickerSet = s.tickerSet := by
  simp only [launch, ticking_early early, ite_self]

/-- A coroutine that is spawned leaves the channels alone. -/
theorem launch_isOpen (s : UServiceModule) (sid : Int) (agent other : UServiceAgent) :
    (s.launch sid agent).isOpen other = s.isOpen other := by
  have kept (context : ServiceContext) :
      (context.post Mailbox.spawnProcess).mailbox.channel = context.mailbox.channel := by
    simp only [ServiceContext.post, Mailbox.spawnProcess]
    split <;> rfl
  simp only [isOpen, launch, Table.lookup_modify]
  split
  next same =>
    rw [same]
    cases s.contexts.lookup agent.serial with
    | none => rfl
    | some context => simp only [Option.map_some, Option.any_some, kept]
  next => rfl

end UServiceModule

/-- How `Start` ends for one service of a module that does not run yet. -/
theorem coreBoot_early (opened : s.isOpen agent) :
    (∃ t, coreBoot (sid, agent) s = .ok () t ∧ (t = s ∨ t = s.launch sid agent) ∧
      ∀ what, agent.service.start ≠ .error what) ∨
    ∃ what, coreBoot (sid, agent) s = .error (.exception what) s ∧
      agent.service.start = .error what := by
  cases started : agent.service.start with
  | error what => exact .inr ⟨what, bind_error (agentBootService_threw opened started) _, rfl⟩
  | ok answer =>
    have returns (what : String) : (Except.ok answer : Except String Bool) ≠ .error what := nofun
    cases answer with
    | false =>
      exact .inl ⟨s, bind_ok (agentBootService_refused opened started) _, .inl rfl, returns⟩
    | true => exact .inl ⟨_, bind_ok (agentBootService_started opened started) _, .inr rfl, returns⟩

/-- What the loop over the services leaves alone while the module does not run. -/
structure Early (s t : UServiceModule) : Prop where
  state : t.state = s.state
  services : t.serviceMap = s.serviceMap
  tickers : t.tickerSet = s.tickerSet
  opened : ∀ agent, t.isOpen agent = s.isOpen agent

theorem Early.launch (early : s.state ≠ .running) (next : t = s ∨ t = s.launch sid agent) :
    Early s t := by
  rcases next with rfl | rfl
  · exact ⟨rfl, rfl, rfl, fun _ => rfl⟩
  · exact ⟨rfl, rfl, UServiceModule.launch_tickers early sid agent,
      UServiceModule.launch_isOpen s sid agent⟩

theorem Early.trans {u : UServiceModule} (first : Early s t) (second : Early t u) : Early s u where
  state := second.state.trans first.state
  services := second.services.trans first.services
  tickers := second.tickers.trans first.tickers
  opened agent := (second.opened agent).trans (first.opened agent)

theorem mainNext_booting {service : Int × UServiceAgent}
    (at' : s.main = .booting (service :: services)) : mainNext s =
      (coreBoot service >>= fun _ => modify fun t => { t with main := .booting services })
        { s with main := .idle } := by
  simp only [mainNext, get_bind, at', modify_bind]

theorem mainSteps_booting (at' : s.main = .booting services) (early : s.state ≠ .running)
    (opened : ∀ service ∈ services, s.isOpen service.2) :
    (∃ t, mainSteps services.length s = .ok () t ∧ t.main = .booting [] ∧ Early s t ∧
      ∀ service ∈ services, ∀ what, service.2.service.start ≠ .error what) ∨
    (∃ what t, mainSteps services.length s = .error (.exception what) t ∧
      ∃ service ∈ services, service.2.service.start = .error what) := by
  induction services generalizing s with
  | nil =>
    refine .inl ⟨s, rfl, at', ⟨rfl, rfl, rfl, fun _ => rfl⟩, fun service member => ?_⟩
    exact absurd member List.not_mem_nil
  | cons service services ih =>
    have own : UServiceModule.isOpen { s with main := .idle } service.2 :=
      opened service List.mem_cons_self
    rcases coreBoot_early own with ⟨u, ran, next, returns⟩ | ⟨what, ran, threw⟩
    · have moved : mainNext s = .ok () { u with main := .booting services } := by
        rw [mainNext_booting at', bind_ok ran]
        rfl
      have idle := Early.launch (s := { s with main := .idle }) early next
      have booted : Early s { u with main := .booting services } :=
        ⟨idle.state, idle.services, idle.tickers, idle.opened⟩
      have later := ih (s := { u with main := .booting services }) rfl
        (fun running => early (idle.state.symm.trans running))
        fun other member => (booted.opened other.2).trans (opened other (.tail _ member))
      rw [List.length_cons, mainSteps, bind_ok moved]
      rcases later with ⟨t, steps, last, after, others⟩ | ⟨what, t, steps, other, member, threw⟩
      · refine .inl ⟨t, steps, last, booted.trans after, fun other member => ?_⟩
        rcases List.mem_cons.mp member with rfl | member
        · exact returns
        · exact others other member
      · exact .inr ⟨what, t, steps, other, .tail _ member, threw⟩
    · have moved : mainNext s = .error (.exception what) { s with main := .idle } := by
        rw [mainNext_booting at', bind_error ran]
      have stopped : mainSteps (service :: services).length s =
          .error (.exception what) { s with main := .idle } := by
        rw [List.length_cons, mainSteps, bind_error moved]
      exact .inr ⟨what, _, stopped, service, List.mem_cons_self, threw⟩

/-- `Start` comes back normally unless a hook throws, and then the module is
RUNNING with the services and the tickers that it had before. -/
theorem startModule_ends (initialized : s.state = .initialized)
    (opened : ∀ sid agent, s.serviceMap.lookup sid = some agent → s.isOpen agent) :
    (∃ t, startModule s = .ok () t ∧ t.state = .running ∧ t.serviceMap = s.serviceMap ∧
      t.tickerSet = s.tickerSet ∧ s.StartReturns) ∨
    (∃ what t, startModule s = .error (.exception what) t ∧ ¬ s.StartReturns) := by
  have began : mainStart s = .ok () { s with main := .booting s.services } := by
    simp only [mainStart, get_bind]
    rw [throwIf_bind (by simp [initialized])]
    rfl
  have steps : startModule s = (mainSteps s.services.length >>= fun _ => mainSteps 1)
      { s with main := .booting s.services } := by
    simp only [startModule, get_bind]
    rw [bind_ok began, mainSteps_add]
  have early : s.state ≠ .running := by simp [initialized]
  rcases mainSteps_booting (s := { s with main := .booting s.services }) rfl early
    fun service member => opened service.1 service.2 (UServiceModule.mem_services.mp member)
    with ⟨t, ran, last, after, returns⟩ | ⟨what, t, ran, service, member, threw⟩
  · have moved : mainNext t = .ok () { t with state := .running, main := .idle } := by
      simp only [mainNext, get_bind, last]
      rfl
    have runs : mainSteps 1 t = .ok () { t with state := .running, main := .idle } := by
      rw [mainSteps, bind_ok moved]
      rfl
    refine .inl ⟨_, steps.trans ((bind_ok ran _).trans runs), rfl, after.services,
      after.tickers, ?_⟩
    exact fun sid agent present => returns (sid, agent) (UServiceModule.mem_services.mpr present)
  · refine .inr ⟨what, t, steps.trans (bind_error ran _), fun returns => ?_⟩
    exact returns service.1 service.2 (UServiceModule.mem_services.mp member) what threw

/-- `Initial` leaves the module INITIALIZED, without tickers and with open agents. -/
theorem initialModule_opened {cores : List CoreService}
    (ran : initialModule cores (UServiceModule.new factory) = .ok () s) :
    s.state = .initialized ∧ s.tickerSet = ∅ ∧
      ∀ sid agent, s.serviceMap.lookup sid = some agent → s.isOpen agent := by
  obtain ⟨result, loop, ends⟩ := initialModule_loop factory cores
  rw [ran] at ends
  cases loop with
  | throws => cases ends
  | returns more main aside hooks tallied =>
    cases ends
    exact ⟨rfl, aside.tickers, fun sid agent present => (tallied.opened sid agent present).2⟩

/-- After `Initial` and `Start` the tickers are the core services that have started
and want ticks exactly when there is no such core service. -/
theorem tickersServed_iff_nobodyTicks {cores : List CoreService}
    (initialised : initialModule cores (UServiceModule.new factory) = .ok () s) :
    ((∃ t, startModule s = .ok () t) ↔ s.StartReturns) ∧
      ∀ t, startModule s = .ok () t → (t.TickersServed ↔
        ∀ sid agent, s.serviceMap.lookup sid = some agent → ¬ agent.WantsTicks) := by
  obtain ⟨initialized, noTickers, opened⟩ := initialModule_opened initialised
  rcases startModule_ends initialized opened with
    ⟨u, ran, -, services, tickers, returns⟩ | ⟨what, u, ran, fails⟩
  · refine ⟨iff_of_true ⟨u, ran⟩ returns, fun t came => ?_⟩
    cases ran.symm.trans came
    simp only [UServiceModule.TickersServed, services, tickers, noTickers, Finset.notMem_empty,
      false_iff, not_exists, not_and]
  · refine ⟨iff_of_false ?_ fails, fun t came => ?_⟩
    · rintro ⟨t, came⟩
      cases ran.symm.trans came
    · cases ran.symm.trans came

/-- A factory whose instances are `service` under one name only. -/
def IServiceFactory.single (path : String) (service : IServiceBase) : IServiceFactory :=
  ⟨fun asked _ => if asked = path then some service else none⟩

def silentService : IServiceBase := { mailService with updatePerTick := false }

theorem tickersServed_iff_nobodyTicks_silent : ∃ s t,
    initialModule twoCores (UServiceModule.new (.single "core.first" silentService)) = .ok () s ∧
      startModule s = .ok () t ∧ t.TickersServed := by
  refine ⟨_, _, rfl, rfl, ?_⟩
  refine ((@tickersServed_iff_nobodyTicks (.single "core.first" silentService) _ twoCores
    rfl).2 _ rfl).mpr ?_
  intro sid agent present wants
  have listed : (sid, agent) ∈ [((1 : Int), (⟨0, silentService⟩ : UServiceAgent))] :=
    UServiceModule.mem_services.mpr present
  cases List.mem_singleton.mp listed
  exact absurd wants.2 (by decide)

theorem mail_unserved : ∃ s t,
    initialModule twoCores (UServiceModule.new (.single "core.first" mailService)) = .ok () s ∧
      startModule s = .ok () t ∧ t.serviceMap.lookup 1 = some ⟨0, mailService⟩ ∧
        ¬ t.TickersServed := by
  refine ⟨_, _, rfl, rfl, rfl, fun served => ?_⟩
  exact absurd ((served 1).mpr ⟨⟨0, mailService⟩, rfl, by decide⟩) (by decide)

end Uranus
