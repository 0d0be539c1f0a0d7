import Uranus.Gateway.PlayerExit
import Uranus.Service.ServiceAgent

/-! The end of an agent's coroutine, for a service as for a player. What an actor
throws while it executes a node is caught, but not before the call of `CleanUp`
has been passed over. -/
namespace Uranus
open Foundation

namespace ServiceContext
variable {context later : ServiceContext} {event : Mailbox.Event}

def Step (context : ServiceContext) (event : Mailbox.Event) (later : ServiceContext) : Prop :=
  context.step event = some later

/-- The context of a service whose coroutine has been spawned. -/
def booted (sid : Int) (service : IServiceBase) : ServiceContext :=
  (new sid service).post Mailbox.spawnProcess

/-- The service has been stopped once, and is not with its agent any more. -/
structure Released (context : ServiceContext) : Prop where
  stops : context.stops = 1
  service : context.service = none
  serviceID : context.serviceID = invalidServiceId

/-- Where the coroutine ends, `CleanUp` has been called once, and the service is
released; neither happens again. -/
def Leaves (context : ServiceContext) (_ : Mailbox.Event) (later : ServiceContext) : Prop :=
  if context.mailbox.process = .finished then
    later.mailbox.cleanUps = context.mailbox.cleanUps ∧ later.stops = context.stops
  else later.mailbox.process = .finished → later.mailbox.cleanUps = 1 ∧ later.Released

/-- No execution of a node throws, and neither does `Stop` of the service. -/
def Tidy (context : ServiceContext) (event : Mailbox.Event) : Prop :=
  context.mailbox.Returns event ∧ (event = .cleanUp → ∀ service,
    context.service = some service → service.stop = none)

/-- Before the end, the service is there and not stopped. -/
structure Waits (context : ServiceContext) : Prop where
  pending : context.mailbox.Pending
  live : context.mailbox.process ≠ .finished → context.stops = 0 ∧ context.service.isSome

theorem step_exit (moved : context.Step event later) :
    context.mailbox.Exit event later.mailbox ∧
      later = { (if event = .cleanUp then context.release else context) with
        mailbox := later.mailbox } := by
  unfold Step step at moved
  cases event with
  | resume actor =>
    obtain ⟨m, resumed, rfl⟩ := Option.map_eq_some_iff.mp moved
    exact ⟨Mailbox.resume_exit resumed actor, rfl⟩
  | cleanUp =>
    obtain ⟨m, cleaned, rfl⟩ := Option.map_eq_some_iff.mp moved
    have exit : context.mailbox.Exit .cleanUp m := Mailbox.Step.exit cleaned
    exact ⟨exit, rfl⟩
  | push | deliver | complete | close =>
    obtain ⟨m, came, rfl⟩ := Option.map_eq_some_iff.mp moved
    exact ⟨Mailbox.Step.exit came, rfl⟩

theorem waits_step (waits : context.Waits) (moved : context.Step event later) : later.Waits := by
  obtain ⟨exit, same⟩ := step_exit moved
  refine ⟨exit.pending waits.pending, fun unfinished => ?_⟩
  cases exit with
  | goes other _ before _ _ =>
    rw [same, if_neg other]
    exact waits.live before
  | ended _ _ _ after _ | threw _ after _ | cleaned _ after _ => exact absurd after unfinished

/-- `CleanUp` releases the service where its `Stop` comes back. -/
theorem release_iff {service : IServiceBase} (unstopped : context.stops = 0)
    (present : context.service = some service) :
    context.release.Released ↔ service.stop = none := by
  unfold release
  rw [present]
  dsimp only
  cases came : service.stop with
  | none => exact iff_of_true ⟨by simp [unstopped], rfl, rfl⟩ rfl
  | some what =>
    refine iff_of_false (fun released => ?_) (by simp)
    have gone : some service = none := released.service
    cases gone

/-- A step leaves as it should exactly if it is tidy. -/
theorem leaves_iff (waits : context.Waits) (moved : context.Step event later) :
    context.Leaves event later ↔ context.Tidy event := by
  obtain ⟨exit, same⟩ := step_exit moved
  unfold Leaves Tidy
  cases exit with
  | goes other returns before after _ => simp [other, returns, before, after]
  | ended other returns before _ counted =>
    rw [if_neg other] at same
    have stops : later.stops = context.stops := by rw [same]
    simp [other, returns, before, counted, stops]
  | threw executing after counted =>
    have unfinished : context.mailbox.process ≠ .finished := by simp [executing]
    simp [executing, after, counted, waits.pending unfinished, Mailbox.Returns]
  | cleaned cleaning after counted =>
    have unfinished : context.mailbox.process ≠ .finished := by simp [cleaning]
    obtain ⟨unstopped, there⟩ := waits.live unfinished
    obtain ⟨service, present⟩ := Option.isSome_iff_exists.mp there
    have released : later.Released ↔ service.stop = none := by
      rw [← release_iff unstopped present, same]
      exact ⟨fun h => ⟨h.stops, h.service, h.serviceID⟩, fun h => ⟨h.stops, h.service, h.serviceID⟩⟩
    simp [cleaning, after, counted, waits.pending unfinished, Mailbox.Returns, released, present]

theorem booted_waits (sid : Int) (service : IServiceBase) : (booted sid service).Waits :=
  ⟨fun _ => rfl, fun _ => ⟨rfl, rfl⟩⟩

end ServiceContext

open Transition in
/-- In every run of the coroutine of a service, and of a player, its end is the
one call of `CleanUp`, which has released the service, or saved the player and
taken it out of the gateway, if and only if every step is tidy. -/
theorem leaves_iff_tidy (sid : Int) (service : IServiceBase)
    {path : List (Mailbox.Event × ServiceContext)}
    (run : Path ServiceContext.Step (.booted sid service) path)
    (factory : IPlayerFactory) (id : AgentId) (gateway : UGateway)
    {path' : List (PlayerEvent × PlayerProcess)}
    (run' : Path (PlayerProcess.Step factory id) (.started gateway) path') :
    (Path ServiceContext.Leaves (.booted sid service) path ↔
      Every ServiceContext.Tidy (.booted sid service) path) ∧
    (Path (PlayerProcess.Leaves factory id) (.started gateway) path' ↔
      Every (PlayerProcess.Tidy factory id) (.started gateway) path') := by
  constructor
  · apply run.steps_iff_every (J := ServiceContext.Waits) _ _ (ServiceContext.booted_waits _ _)
    · exact fun waits moved => ServiceContext.waits_step waits moved
    · exact fun waits moved => ServiceContext.leaves_iff waits moved
  · apply run'.steps_iff_every (J := fun p : PlayerProcess => p.mailbox.Pending) _ _
      (PlayerProcess.started_pending gateway)
    · exact fun pending moved => PlayerProcess.pending_step pending moved
    · exact fun pending moved => PlayerProcess.leaves_iff pending moved

/-- A service executes a task that throws. -/
def thrownService : List (Mailbox.Event × ServiceContext) :=
  Transition.trace ServiceContext.step (.booted 1 mailService)
    [.push (some (.task 0)), .resume true, .resume true, .complete true]

/-- A gateway with player 7 online. -/
def onlineGateway : UGateway :=
  { UGateway.started with
    playerMap := (∅ : Table Int64 AgentId).insert 7 0
    agents := (∅ : Table AgentId UPlayerAgent).insert 0
      { UPlayerAgent.new "10.0.0.1" 1000 with hasModule := true, player := some ⟨0, 7, some 0⟩ }
    nextAgent := 1
    nextPlayer := 1 }

/-- A player executes a task that throws. -/
def thrownPlayer : List (PlayerEvent × PlayerProcess) :=
  Transition.trace (PlayerProcess.step plainFactory 0) (.started onlineGateway)
    [.mailbox (.push (some (.task 0))) 0, .mailbox (.resume true) 0, .mailbox (.resume true) 0,
      .mailbox (.complete true) 0]

theorem thrown_leftBehind :
    Transition.Path ServiceContext.Step (.booted 1 mailService) thrownService ∧
    ¬ Transition.Path ServiceContext.Leaves (.booted 1 mailService) thrownService ∧
    Transition.Path (PlayerProcess.Step plainFactory 0) (.started onlineGateway) thrownPlayer ∧
    ¬ Transition.Path (PlayerProcess.Leaves plainFactory 0) (.started onlineGateway)
      thrownPlayer := by
  refine ⟨Transition.trace_path id _, fun leaves => ?_, Transition.trace_path id _,
    fun leaves => ?_⟩
  · have ended := leaves.2.2.2.1
    have once := (ended rfl).1
    cases once
  · have ended := leaves.2.2.2.1
    have once := (ended rfl).1
    cases once

/-- A service executes a task, and is stopped while it waits for the next. -/
def closedService : List (Mailbox.Event × ServiceContext) :=
  Transition.trace ServiceContext.step (.booted 1 mailService)
    [.push (some (.task 0)), .resume true, .resume true, .complete false, .close, .resume true,
      .cleanUp]

/-- A player that is gone before its coroutine starts. -/
def closedPlayer : List (PlayerEvent × PlayerProcess) :=
  Transition.trace (PlayerProcess.step plainFactory 0) (.started onlineGateway)
    [.mailbox .close 0, .mailbox (.resume true) 0, .mailbox .cleanUp 5]

theorem leaves_iff_tidy_closed :
    Transition.Path ServiceContext.Leaves (.booted 1 mailService) closedService ∧
      Transition.Path (PlayerProcess.Leaves plainFactory 0) (.started onlineGateway)
        closedPlayer := by
  have serving : Transition.Path ServiceContext.Step (.booted 1 mailService) closedService :=
    Transition.trace_path id _
  have playing : Transition.Path (PlayerProcess.Step plainFactory 0) (.started onlineGateway)
      closedPlayer := Transition.trace_path id _
  obtain ⟨services, players⟩ := leaves_iff_tidy 1 mailService serving plainFactory 0 _ playing
  constructor
  · apply services.mpr
    refine ⟨⟨trivial, by simp⟩, ⟨trivial, by simp⟩, ⟨trivial, by simp⟩, ⟨trivial, by simp⟩,
      ⟨trivial, by simp⟩, ⟨trivial, by simp⟩, ⟨trivial, fun _ service present => ?_⟩, trivial⟩
    cases present
    rfl
  · apply players.mpr
    refine ⟨⟨trivial, by simp⟩, ⟨trivial, by simp⟩, ⟨trivial, fun _ agent player alive set => ?_⟩,
      trivial⟩
    cases alive
    cases set
    exact ⟨rfl, rfl, rfl, by decide +kernel⟩

end Uranus
