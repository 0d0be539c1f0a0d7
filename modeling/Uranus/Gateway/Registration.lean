import Uranus.Gateway.Registry

/-! The functions of a gateway refine the registry. Their effects are stated for
every ending, so that an exception needs no separate treatment. -/
namespace Uranus
open Foundation Program
variable {factory : IPlayerFactory} {s t u : UGateway} {id : AgentId}

/-- Registered and not cleaned up yet. -/
def UPlayerAgent.active (agent : UPlayerAgent) : Bool := agent.hasModule && !agent.cleaned

/-- The registry that a gateway keeps. -/
def UGateway.registry (s : UGateway) : Registry where
  waiting := s.agentMap
  online := s.playerMap
  key id := (s.agents.lookup id).map UPlayerAgent.key
  active id := (s.agents.lookup id).any UPlayerAgent.active
  next := s.nextAgent

/-- No agent was ever given a player. -/
def NoPlayers (s : UGateway) : Prop := ∀ id agent, s.agents.lookup id = some agent →
  agent.player = none ∧ agent.processing = .absent

/-- A running gateway none of whose agents was ever given a player. -/
structure Playerless (s : UGateway) : Prop where
  running : s.state = .running
  players : NoPlayers s
  uncached : ∀ pid, s.cachedMap.lookup pid = none

structure Unplayed (s : UGateway) : Prop extends Playerless s where
  formed : s.registry.WellFormed

theorem Unplayed.started (login : Option ULoginAuth) :
    Unplayed { UGateway.started with login } := by
  refine ⟨⟨rfl, ?_, fun pid => rfl⟩, ?_⟩
  · intro id agent alive
    cases alive
  · constructor
    · intro key id waits
      cases waits
    · intro pid id online
      cases online
    · intro id key known
      cases known
    · intro id active
      cases active

/-- The registry is the same, nobody is put into the cache, and where no agent
has a player none was given one. -/
structure Quiet (s t : UGateway) : Prop where
  state : t.state = s.state
  registry : t.registry = s.registry
  uncached : ∀ {pid}, s.cachedMap.lookup pid = none → t.cachedMap.lookup pid = none
  players : NoPlayers s → NoPlayers t

theorem Quiet.refl (s : UGateway) : Quiet s s := ⟨rfl, rfl, id, id⟩

theorem Quiet.trans (first : Quiet s t) (second : Quiet t u) : Quiet s u where
  state := second.state.trans first.state
  registry := second.registry.trans first.registry
  uncached := fun absent => second.uncached (first.uncached absent)
  players := fun none => second.players (first.players none)

theorem Quiet.unplayed (quiet : Quiet s t) (unplayed : Unplayed s) : Unplayed t := by
  refine ⟨⟨quiet.state.trans unplayed.running, quiet.players unplayed.players, ?_⟩, ?_⟩
  · exact fun pid => quiet.uncached (unplayed.uncached pid)
  · rw [quiet.registry]
    exact unplayed.formed

theorem registry_active {agent : UPlayerAgent} (alive : s.agents.lookup id = some agent)
    (update : UPlayerAgent → UPlayerAgent) (key : (update agent).key = agent.key) :
    (s.edit id update).registry = { s.registry with
      active := Function.update s.registry.active id (update agent).active } := by
  have lookup := fun other => UGateway.edit_lookup id other update s
  rw [alive] at lookup
  rw [UGateway.edit_frame]
  simp only [UGateway.registry, Registry.mk.injEq, true_and, and_true, lookup]
  constructor
  · funext other
    split
    next is =>
      subst is
      simp only [alive, Option.map_some, key]
    next => rfl
  · symm
    rw [Function.update_eq_iff]
    constructor
    · simp
    · intro other different
      simp [different]

/-- An update that keeps the key and the activity of the agent. -/
theorem registry_edit {update : UPlayerAgent → UPlayerAgent}
    (same : ∀ agent, s.agents.lookup id = some agent →
      (update agent).key = agent.key ∧ (update agent).active = agent.active) :
    (s.edit id update).registry = s.registry := by
  cases alive : s.agents.lookup id with
  | none => simp only [UGateway.edit, alive]
  | some agent =>
    obtain ⟨key, active⟩ := same agent alive
    rw [registry_active alive update key, active]
    have before : agent.active = s.registry.active id :=
      (congrArg (Option.any UPlayerAgent.active) alive).symm
    rw [before, Function.update_eq_self]

/-- An update that gives the agent no player. -/
theorem NoPlayers.edit (unset : NoPlayers s) {update : UPlayerAgent → UPlayerAgent}
    (kept : ∀ agent, agent.player = none → agent.processing = .absent →
      (update agent).player = none ∧ (update agent).processing = .absent) :
    NoPlayers (s.edit id update) := by
  intro other agent alive
  rw [UGateway.edit_lookup] at alive
  split at alive
  · obtain ⟨before, found, updated⟩ := Option.map_eq_some_iff.mp alive
    obtain ⟨nobody, absent⟩ := unset id before found
    exact updated ▸ kept before nobody absent
  · exact unset other agent alive

theorem quiet_edit {update : UPlayerAgent → UPlayerAgent}
    (same : ∀ agent, s.agents.lookup id = some agent →
      (update agent).key = agent.key ∧ (update agent).active = agent.active)
    (kept : ∀ agent, agent.player = none → agent.processing = .absent →
      (update agent).player = none ∧ (update agent).processing = .absent) :
    Quiet s (s.edit id update) := by
  constructor
  · rw [UGateway.edit_frame]
  · exact registry_edit same
  · intro pid absent
    rw [UGateway.edit_frame]
    exact absent
  · exact fun unset => unset.edit kept

theorem editAgent_quiet {update : UPlayerAgent → UPlayerAgent}
    (same : ∀ agent, (update agent).key = agent.key ∧ (update agent).active = agent.active)
    (kept : ∀ agent, agent.player = none → agent.processing = .absent →
      (update agent).player = none ∧ (update agent).processing = .absent) :
    Within Quiet (editAgent id update) :=
  Within.modify fun _ => quiet_edit (fun agent _ => same agent) kept

instance : IsPreorder UGateway Quiet where
  refl := Quiet.refl
  trans _ _ _ := Quiet.trans

theorem disconnect_quiet : Within Quiet (disconnect id) :=
  editAgent_quiet (fun _ => ⟨rfl, rfl⟩) fun _ unset absent => ⟨unset, absent⟩

/-- Where no agent has a player, `SetUpPlayer` gives it none. -/
theorem setUpPlayer_quiet (plr : IPlayerBase) : Within Quiet (setUpPlayer id plr) := by
  intro s t ends
  cases alive : s.agents.lookup id with
  | none =>
    have ran : setUpPlayer id plr s = .error .undefined s := bind_error (theAgent_undefined alive) _
    obtain ⟨what, wrong⟩ := ends.of_fault ran
    cases wrong
  | some agent =>
    cases closed : (!agent.socketOpen || !agent.channelOpen) with
    | true =>
      cases ends.of_ok (setUpPlayer_closed alive closed plr)
      exact Quiet.refl s
    | false =>
      cases set : agent.player with
      | none =>
        cases ends.of_exception (setUpPlayer_throws alive closed set plr)
        exact Quiet.refl s
      | some player =>
        cases ends.of_ok (setUpPlayer_ok alive closed set plr)
        constructor
        · rw [UGateway.edit_frame]
        · exact registry_edit fun _ _ => ⟨rfl, rfl⟩
        · intro pid absent
          rw [UGateway.edit_frame]
          exact absent
        · intro unset
          cases set.symm.trans (unset id agent alive).1

theorem createPlayer_quiet : Within Quiet createPlayer := by
  apply Within.bind (R := Quiet) Within.get
  intro s
  exact Within.bind (Within.modify fun s => ⟨rfl, rfl, id, id⟩) fun _ => Within.pure _

theorem loginCache_quiet (call : LoginCall) : Within Quiet (loginCache call) := by
  intro s t ends
  cases ends.of_ok (loginCache_ok call s)
  refine ⟨rfl, rfl, fun {pid} absent => ?_, id⟩
  rw [Table.lookup_erase_ite, absent, ite_self]

theorem loginFinish_quiet (call : LoginCall) : Within Quiet (loginFinish factory call) :=
  loginFinish_within createPlayer_quiet (fun _ plr => setUpPlayer_quiet plr) factory call

theorem loginRest_quiet (call : Option LoginCall) : Within Quiet (loginRest factory call) := by
  cases call with
  | none => exact Within.pure ()
  | some call => exact Within.bind (loginCache_quiet call) fun call => loginFinish_quiet call

end Uranus
