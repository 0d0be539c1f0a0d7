import Uranus.Foundation.Path
import Uranus.Base.MailboxExit
import Uranus.Gateway.Gateway

/-! The end of a player's coroutine. The mailbox of the agent stands beside the
gateway, which may change in any way while the coroutine goes on. -/
namespace Uranus
open Foundation Program

/-- An agent whose coroutine has been spawned, and the gateway around it. -/
structure PlayerProcess where
  mailbox : Mailbox
  gateway : UGateway

inductive PlayerEvent where
  | mailbox (event : Mailbox.Event) (now : Int)
  | gateway (later : UGateway)

namespace PlayerProcess

/-- `GetActor` returns a player. -/
def actor (id : AgentId) (p : PlayerProcess) : Bool :=
  (p.gateway.agents.lookup id).any fun agent => agent.player.isSome

def step (factory : IPlayerFactory) (id : AgentId) (p : PlayerProcess) :
    PlayerEvent → Option PlayerProcess
  | .mailbox (.resume _) _ => (p.mailbox.resume (p.actor id)).map fun mailbox =>
      { p with mailbox }
  | .mailbox .cleanUp now =>
    match p.mailbox.cleanUp, after (cleanUp factory now id) p.gateway with
    | some mailbox, some gateway => some ⟨mailbox, gateway⟩
    | _, _ => none
  | .mailbox event _ => (p.mailbox.step event).map fun mailbox => { p with mailbox }
  | .gateway later => some { p with gateway := later }

def Step (factory : IPlayerFactory) (id : AgentId) (p : PlayerProcess) (event : PlayerEvent)
    (later : PlayerProcess) : Prop := p.step factory id event = some later

/-- The mailbox before its coroutine starts. -/
def started (gateway : UGateway) : PlayerProcess :=
  ⟨(Mailbox.new playerChannelSize).spawnProcess, gateway⟩

end PlayerProcess

/-- The library with a `Save` that throws for one player. -/
def IPlayerFactory.spoilt (factory : IPlayerFactory) (player : IPlayerBase) (what : String) :
    IPlayerFactory :=
  { factory with hooks := { factory.hooks with
      save := fun other => if other = player then some what else factory.hooks.save other } }

/-- `CleanUp` calls `Save` of the player: what that threw would come out. -/
def Saves (factory : IPlayerFactory) (now : Int) (id : AgentId) (s : UGateway)
    (player : IPlayerBase) : Prop :=
  factory.hooks.save player = none ∧ ∀ what, ∃ t,
    cleanUp (factory.spoilt player what) now id s = .error (.exception what) t

/-- The player of the agent, if it has one, has been saved, and neither of them is
in the gateway any more. -/
def Departs (factory : IPlayerFactory) (now : Int) (id : AgentId) (s t : UGateway) : Prop :=
  ∀ agent player, s.agents.lookup id = some agent → agent.player = some player →
    Saves factory now id s player ∧ t.playerMap.lookup player.playerID = none ∧
      t.agentMap.lookup agent.key = none ∧
      ∀ agent', t.agents.lookup id = some agent' → agent'.player = none

/-- Nothing keeps `CleanUp` from its work: the hooks of the player come back, and
the gateway runs, with a player that can be cached if it is to be. A gateway that
does not run must have neither of them already. -/
def Departing (factory : IPlayerFactory) (id : AgentId) (s : UGateway) : Prop :=
  ∀ agent player, s.agents.lookup id = some agent → agent.player = some player →
    agent.hasModule = true ∧ factory.hooks.onLogout player = none ∧
      factory.hooks.save player = none ∧
      if agent.cachable && !agent.repeated then s.state = .running ∧ 0 < player.playerID
      else s.state = .running ∨
        s.playerMap.lookup player.playerID = none ∧ s.agentMap.lookup agent.key = none

section
variable {factory : IPlayerFactory} {now : Int} {id : AgentId} {s t : UGateway}
  {agent : UPlayerAgent} {player : IPlayerBase}

/-- The agent is marked, and nothing else happens. -/
def UGateway.mark (id : AgentId) (s : UGateway) : UGateway :=
  s.edit id fun agent => { agent with cleaned := true }

theorem mark_lookup (alive : s.agents.lookup id = some agent) :
    (s.mark id).agents.lookup id = some { agent with cleaned := true } := by
  rw [UGateway.mark, UGateway.edit_lookup, if_pos rfl, alive, Option.map_some]

theorem mark_frame (id : AgentId) (s : UGateway) : (s.mark id).state = s.state ∧
    (s.mark id).agentMap = s.agentMap ∧ (s.mark id).playerMap = s.playerMap := by
  rw [UGateway.mark, UGateway.edit_frame]
  exact ⟨rfl, rfl, rfl⟩

theorem cleanUp_apply (alive : s.agents.lookup id = some agent)
    (attached : agent.hasModule = true) : cleanUp factory now id s =
      (cleanUpPlayer factory now id agent >>= fun _ => removeAgent agent.key) (s.mark id) := by
  simp only [cleanUp]
  rw [bind_ok (theAgent_ok alive), bind_ok (editAgent_apply _), attached]
  rfl

theorem cleanUp_detached (alive : s.agents.lookup id = some agent)
    (detached : agent.hasModule = false) : cleanUp factory now id s = .ok () (s.mark id) := by
  simp only [cleanUp]
  rw [bind_ok (theAgent_ok alive), bind_ok (editAgent_apply _), detached]
  rfl

theorem cleanUpPlayer_logout (set : agent.player = some player) {what : String}
    (threw : factory.hooks.onLogout player = some what) :
    cleanUpPlayer factory now id agent s = .error (.exception what) s := by
  simp only [cleanUpPlayer, set]
  rw [threw]
  rfl

theorem cleanUpPlayer_save (set : agent.player = some player)
    (left : factory.hooks.onLogout player = none) {what : String}
    (threw : factory.hooks.save player = some what) :
    cleanUpPlayer factory now id agent s = .error (.exception what) s := by
  simp only [cleanUpPlayer, set]
  rw [left, threw]
  rfl

theorem cleanUp_saves (now : Int) (alive : s.agents.lookup id = some agent)
    (attached : agent.hasModule = true) (set : agent.player = some player)
    (left : factory.hooks.onLogout player = none) (saved : factory.hooks.save player = none) :
    Saves factory now id s player := by
  refine ⟨saved, fun what => ⟨s.mark id, ?_⟩⟩
  have left : (factory.spoilt player what).hooks.onLogout player = none := left
  have threw : (factory.spoilt player what).hooks.save player = some what := if_pos rfl
  rw [cleanUp_apply alive attached]
  exact bind_error (cleanUpPlayer_save set left threw) _

theorem removeAgent_ends {key : String} (ends : Ends (removeAgent key) s t) :
    t.agents = s.agents ∧ t.playerMap = s.playerMap ∧
      t.agentMap.lookup key = if s.state = .running then none else s.agentMap.lookup key := by
  by_cases running : s.state = .running
  · cases ends.of_ok (removeAgent_running running key)
    exact ⟨rfl, rfl, by rw [if_pos running, AList.lookup_erase]⟩
  · have ran : removeAgent key s = .ok () s := by
      simp only [removeAgent, get_bind]
      rw [if_pos running, pure_apply]
    cases ends.of_ok ran
    exact ⟨rfl, rfl, by rw [if_neg running]⟩

theorem removePlayer_apply (pid : Int64) : removePlayer pid s =
    .ok () (if s.state = .running then { s with playerMap := s.playerMap.erase pid } else s) := by
  by_cases running : s.state = .running
  · rw [removePlayer_running running, if_pos running]
  · simp only [removePlayer, get_bind]
    rw [if_pos running, if_neg running, pure_apply]

theorem recycleEntry_refused (alive : s.agents.lookup id = some agent)
    (set : agent.player = some player) (refused : ¬ (s.state = .running ∧ 0 < player.playerID)) :
    recycleEntry id s = .ok none s := by
  simp only [recycleEntry, get_bind]
  by_cases running : s.state = .running
  · rw [if_neg (not_not.mpr running), bind_ok (theAgent_ok alive), set]
    have negative : player.playerID ≤ 0 :=
      Int64.not_lt.mp fun positive => refused ⟨running, positive⟩
    exact congrFun (if_pos negative) s
  · rw [if_pos running, pure_apply]

theorem recycleEntry_ok (alive : s.agents.lookup id = some agent)
    (set : agent.player = some player) (running : s.state = .running)
    (positive : 0 < player.playerID) : recycleEntry id s = .ok (some player.playerID) s := by
  simp only [recycleEntry, get_bind]
  rw [if_neg (not_not.mpr running), bind_ok (theAgent_ok alive), set]
  exact congrFun (if_neg (Int64.not_le.mpr positive)) s

theorem recyclePlayer_refused (alive : s.agents.lookup id = some agent)
    (set : agent.player = some player) (refused : ¬ (s.state = .running ∧ 0 < player.playerID)) :
    recyclePlayer id now s = .ok () s :=
  bind_ok (recycleEntry_refused alive set refused) _

/-- The gateway with the player of an agent in its cache. -/
def UGateway.recycled (id : AgentId) (now : Int) (player : IPlayerBase) (s : UGateway) : UGateway :=
  let u := ({ s with playerMap := s.playerMap.erase player.playerID } : UGateway).edit id
    fun agent => { agent with player := none }
  { u with cachedMap := u.cachedMap.insert player.playerID ⟨some player, now⟩ }

/-- The player does not know its agent any more, which still holds it. -/
def UGateway.parted (id : AgentId) (player : IPlayerBase) (s : UGateway) : UGateway :=
  s.edit id fun agent => { agent with player := some { player with agent := none } }

theorem parted_lookup (alive : s.agents.lookup id = some agent) (player : IPlayerBase) :
    (s.parted id player).agents.lookup id =
      some { agent with player := some { player with agent := none } } := by
  rw [UGateway.parted, UGateway.edit_lookup, if_pos rfl, alive, Option.map_some]

theorem parted_frame : (s.parted id player).state = s.state ∧
    (s.parted id player).agentMap = s.agentMap := by
  rw [UGateway.parted, UGateway.edit_frame]
  exact ⟨rfl, rfl⟩

theorem recyclePlayer_ok (alive : s.agents.lookup id = some agent)
    (set : agent.player = some player) (running : s.state = .running)
    (positive : 0 < player.playerID) :
    recyclePlayer id now s = .ok () (s.recycled id now player) := by
  unfold recyclePlayer
  rw [bind_ok (recycleEntry_ok alive set running positive)]
  dsimp only
  rw [bind_ok (removePlayer_running running _)]
  unfold recycleCache
  rw [bind_ok (theAgent_ok (by exact alive)), set]
  rfl

/-- The agent is without its player, which the gateway has no more if it runs. -/
structure PlayerReleased (id : AgentId) (player : IPlayerBase) (s t : UGateway) : Prop where
  state : t.state = s.state
  waiting : t.agentMap = s.agentMap
  online : t.playerMap.lookup player.playerID =
    if s.state = .running then none else s.playerMap.lookup player.playerID
  gone : ∀ agent, t.agents.lookup id = some agent → agent.player = none

theorem released_edit (maps : UGateway) (player : IPlayerBase) (state : maps.state = s.state)
    (waiting : maps.agentMap = s.agentMap) (online : maps.playerMap.lookup player.playerID =
      if s.state = .running then none else s.playerMap.lookup player.playerID) :
    PlayerReleased id player s (maps.edit id fun agent => { agent with player := none }) := by
  constructor
  · rw [UGateway.edit_frame]
    exact state
  · rw [UGateway.edit_frame]
    exact waiting
  · rw [UGateway.edit_frame]
    exact online
  · intro agent found
    rw [UGateway.edit_lookup, if_pos rfl] at found
    obtain ⟨before, -, rfl⟩ := Option.map_eq_some_iff.mp found
    rfl

section
variable (set : agent.player = some player) (left : factory.hooks.onLogout player = none)
  (saved : factory.hooks.save player = none)
include set left saved
variable (now id)

theorem cleanUpPlayer_release (kept : (agent.cachable && !agent.repeated) = false) :
    ∃ t, cleanUpPlayer factory now id agent s = .ok () t ∧ PlayerReleased id player s t := by
  refine ⟨_, ?_, released_edit (if s.state = .running then
    { s with playerMap := s.playerMap.erase player.playerID } else s) player ?_ ?_ ?_⟩
  · simp only [cleanUpPlayer, set]
    rw [left, saved, kept]
    exact bind_ok (removePlayer_apply _) _
  · split <;> rfl
  · split <;> rfl
  · split
    · exact AList.lookup_erase _ _
    · rfl

theorem cleanUpPlayer_recycle (alive : (s.agents.lookup id).isSome)
    (shared : (agent.cachable && !agent.repeated) = true) (running : s.state = .running)
    (positive : 0 < player.playerID) :
    ∃ t, cleanUpPlayer factory now id agent s = .ok () t ∧ PlayerReleased id player s t := by
  obtain ⟨present, alive⟩ := Option.isSome_iff_exists.mp alive
  have awake : (s.parted id player).state = .running := parted_frame.1.trans running
  refine ⟨(s.parted id player).recycled id now { player with agent := none }, ?_, ?_⟩
  · simp only [cleanUpPlayer, set]
    rw [left, saved, shared]
    exact recyclePlayer_ok (parted_lookup alive player) rfl awake positive
  · have released : PlayerReleased id player s (({ s.parted id player with
        playerMap := (s.parted id player).playerMap.erase player.playerID } : UGateway).edit id
          fun agent => { agent with player := none }) := by
      refine released_edit _ player parted_frame.1 parted_frame.2 ?_
      rw [if_pos running]
      exact AList.lookup_erase _ _
    exact ⟨released.state, released.waiting, released.online, released.gone⟩

/-- `RecyclePlayer` leaves a player that it does not take with the agent. -/
theorem cleanUpPlayer_keep (alive : (s.agents.lookup id).isSome)
    (shared : (agent.cachable && !agent.repeated) = true)
    (refused : ¬ (s.state = .running ∧ 0 < player.playerID)) :
    ∃ t, cleanUpPlayer factory now id agent s = .ok () t ∧
      ∃ agent, t.agents.lookup id = some agent ∧ agent.player ≠ none := by
  obtain ⟨present, alive⟩ := Option.isSome_iff_exists.mp alive
  have still : ¬ ((s.parted id player).state = .running ∧ 0 < player.playerID) := by
    rw [parted_frame.1]
    exact refused
  refine ⟨s.parted id player, ?_, _, parted_lookup alive player, by simp⟩
  simp only [cleanUpPlayer, set]
  rw [left, saved, shared]
  exact recyclePlayer_refused (parted_lookup alive player) rfl still

end

/-- A player that stays with its agent has not departed. -/
theorem not_departs (alive : s.agents.lookup id = some agent) (set : agent.player = some player)
    {later : UPlayerAgent} (found : t.agents.lookup id = some later) (holds : later.player ≠ none) :
    ¬ Departs factory now id s t :=
  fun departs => holds ((departs agent player alive set).2.2.2 later found)

theorem departing_iff (alive : s.agents.lookup id = some agent)
    (set : agent.player = some player) : Departing factory id s ↔ agent.hasModule = true ∧
      factory.hooks.onLogout player = none ∧ factory.hooks.save player = none ∧
      if agent.cachable && !agent.repeated then s.state = .running ∧ 0 < player.playerID
      else s.state = .running ∨
        s.playerMap.lookup player.playerID = none ∧ s.agentMap.lookup agent.key = none := by
  constructor
  · exact fun departing => departing agent player alive set
  · intro holds other found alive' set'
    cases alive.symm.trans alive'
    cases set.symm.trans set'
    exact holds

theorem departs_some (alive : s.agents.lookup id = some agent)
    (set : agent.player = some player) : Departs factory now id s t ↔
      Saves factory now id s player ∧ t.playerMap.lookup player.playerID = none ∧
        t.agentMap.lookup agent.key = none ∧
        ∀ agent', t.agents.lookup id = some agent' → agent'.player = none := by
  constructor
  · exact fun departs => departs agent player alive set
  · intro holds other found alive' set'
    cases alive.symm.trans alive'
    cases set.symm.trans set'
    exact holds

/-- Once the player is released, the gateway has neither of them if it runs, or
had neither before. -/
theorem PlayerReleased.departs_iff {u : UGateway}
    (released : PlayerReleased id player (s.mark id) u)
    (alive : s.agents.lookup id = some agent) (set : agent.player = some player)
    (saves : Saves factory now id s player) (ends : Ends (removeAgent agent.key) u t) :
    Departs factory now id s t ↔ s.state = .running ∨
      s.playerMap.lookup player.playerID = none ∧ s.agentMap.lookup agent.key = none := by
  obtain ⟨state, waiting, players⟩ := mark_frame id s
  obtain ⟨agents, online, key⟩ := removeAgent_ends ends
  rw [departs_some alive set, online, released.online, key, released.state, released.waiting, state,
    waiting, players, agents]
  have gone := released.gone
  by_cases running : s.state = .running
  · simpa [running, saves] using gone
  · simpa [running, saves] using fun _ _ => gone

/-- A clean-up that comes back has done its work if nothing keeps it from that. -/
theorem departs_iff (ends : Ends (cleanUp factory now id) s t) :
    Departs factory now id s t ↔ Departing factory id s := by
  cases alive : s.agents.lookup id with
  | none =>
    obtain ⟨what, wrong⟩ := ends.of_fault (bind_error (theAgent_undefined alive) _)
    cases wrong
  | some agent =>
    cases set : agent.player with
    | none =>
      constructor
      · intro _ other player found holds
        cases alive.symm.trans found
        cases set.symm.trans holds
      · intro _ other player found holds
        cases alive.symm.trans found
        cases set.symm.trans holds
    | some player =>
      rw [departing_iff alive set]
      have unmoved (same : t = s.mark id) : ¬ Departs factory now id s t := by
        subst same
        exact not_departs alive set (mark_lookup alive) (by simp [set])
      cases attached : agent.hasModule with
      | false =>
        have same := ends.of_ok (cleanUp_detached alive attached)
        exact iff_of_false (unmoved same) (by simp)
      | true =>
        have ends := ends.congr (cleanUp_apply alive attached)
        cases left : factory.hooks.onLogout player with
        | some what =>
          have same := ends.of_exception (bind_error (cleanUpPlayer_logout set left) _)
          exact iff_of_false (unmoved same) (by simp)
        | none =>
          cases saved : factory.hooks.save player with
          | some what =>
            have same := ends.of_exception (bind_error (cleanUpPlayer_save set left saved) _)
            exact iff_of_false (unmoved same) (by simp)
          | none =>
            have saves := cleanUp_saves now alive attached set left saved
            have found : ((s.mark id).agents.lookup id).isSome := by
              rw [mark_lookup alive]
              rfl
            cases shared : agent.cachable && !agent.repeated with
            | false =>
              obtain ⟨u, ran, released⟩ := cleanUpPlayer_release now id
                (s := s.mark id) set left saved shared
              rw [released.departs_iff alive set saves (ends.congr (bind_ok ran _))]
              simp
            | true =>
              by_cases able : s.state = .running ∧ 0 < player.playerID
              · obtain ⟨u, ran, released⟩ := cleanUpPlayer_recycle now id set left saved found
                  shared ((mark_frame id s).1.trans able.1) able.2
                rw [released.departs_iff alive set saves (ends.congr (bind_ok ran _))]
                simp [able]
              · have refused : ¬ ((s.mark id).state = .running ∧ 0 < player.playerID) := by
                  rw [(mark_frame id s).1]
                  exact able
                obtain ⟨u, ran, later, stays, holds⟩ := cleanUpPlayer_keep now id set left
                  saved found shared refused
                obtain ⟨agents, -, -⟩ := removeAgent_ends (ends.congr (bind_ok ran _))
                rw [← agents] at stays
                exact iff_of_false (not_departs alive set stays holds) (by simp [able])

end

namespace PlayerProcess
variable {factory : IPlayerFactory} {id : AgentId} {p later : PlayerProcess} {event : PlayerEvent}

/-- Where the coroutine ends, `CleanUp` has been called once, and the player departs;
`CleanUp` is not called again. -/
def Leaves (factory : IPlayerFactory) (id : AgentId) (p : PlayerProcess) :
    PlayerEvent → PlayerProcess → Prop
  | .mailbox _ now, later =>
    if p.mailbox.process = .finished then later.mailbox.cleanUps = p.mailbox.cleanUps
    else later.mailbox.process = .finished → later.mailbox.cleanUps = 1 ∧
      Departs factory now id p.gateway later.gateway
  | .gateway _, later => later.mailbox = p.mailbox

/-- No execution of a node throws, and nothing keeps `CleanUp` from its work. -/
def Tidy (factory : IPlayerFactory) (id : AgentId) (p : PlayerProcess) : PlayerEvent → Prop
  | .mailbox event _ =>
    p.mailbox.Returns event ∧ (event = .cleanUp → Departing factory id p.gateway)
  | .gateway _ => True

/-- What happens at the mailbox, and `CleanUp` to the gateway. -/
theorem step_exit {event : Mailbox.Event} {now : Int}
    (moved : p.Step factory id (.mailbox event now) later) :
    p.mailbox.Exit event later.mailbox ∧
      (event = .cleanUp → Ends (cleanUp factory now id) p.gateway later.gateway) := by
  unfold Step step at moved
  cases event with
  | resume actor =>
    obtain ⟨m, resumed, rfl⟩ := Option.map_eq_some_iff.mp moved
    exact ⟨Mailbox.resume_exit resumed actor, by simp⟩
  | cleanUp =>
    dsimp only at moved
    split at moved
    next m g cleaned came =>
      cases moved
      have exit : p.mailbox.Exit .cleanUp m := Mailbox.Step.exit cleaned
      exact ⟨exit, fun _ => ends_of_after came⟩
    next => cases moved
  | push | deliver | complete | close =>
    obtain ⟨m, came, rfl⟩ := Option.map_eq_some_iff.mp moved
    exact ⟨Mailbox.Step.exit came, by simp⟩

/-- A step leaves as it should exactly if it is tidy. -/
theorem leaves_iff (pending : p.mailbox.Pending) (moved : p.Step factory id event later) :
    p.Leaves factory id event later ↔ p.Tidy factory id event := by
  cases event with
  | gateway other =>
    cases moved
    exact iff_of_true rfl trivial
  | mailbox event now =>
    obtain ⟨exit, ends⟩ := step_exit moved
    unfold Leaves Tidy
    cases exit with
    | goes other returns before after _ => simp [other, returns, before, after]
    | ended other returns before _ same => simp [other, returns, before, same]
    | threw executing after same =>
      have unfinished : p.mailbox.process ≠ .finished := by simp [executing]
      simp [executing, after, same, pending unfinished, Mailbox.Returns]
    | cleaned cleaning after counted =>
      have unfinished : p.mailbox.process ≠ .finished := by simp [cleaning]
      simp [cleaning, after, counted, pending unfinished, Mailbox.Returns, departs_iff (ends rfl)]

theorem pending_step (pending : p.mailbox.Pending) (moved : p.Step factory id event later) :
    later.mailbox.Pending := by
  cases event with
  | gateway other =>
    cases moved
    exact pending
  | mailbox event now => exact (step_exit moved).1.pending pending

theorem started_pending (gateway : UGateway) : (started gateway).mailbox.Pending := fun _ => rfl

end PlayerProcess
end Uranus
