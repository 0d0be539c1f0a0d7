import Uranus.Foundation.Path
import Uranus.Gateway.Ownership

/-! What a login leaves behind. `SetUpPlayer` refuses an agent that has no player,
so a login never binds one to the agent it is for; and a login takes the player
from the agent that is online with it before it knows its own agent. -/
namespace Uranus
open Foundation Program
variable {factory : IPlayerFactory} {s t : UGateway} {id : AgentId} {key : String} {pid : Int64}

/-- The instance that a login is to hand to its agent: that of the agent online
under the id, or else the cached one, or else a new one. -/
def UGateway.instanceOf (pid : Int64) (s : UGateway) : Nat :=
  let online := (s.playerMap.lookup pid).bind fun id =>
    (s.agents.lookup id).bind UPlayerAgent.player
  let cached := (s.cachedMap.lookup pid).bind FCachedNode.player
  ((online.or cached).map IPlayerBase.serial).getD s.nextPlayer

/-- What a successful login of the agent `id`, which waits under `key`, is for. -/
structure Binds (key : String) (pid : Int64) (id : AgentId) (s t : UGateway) : Prop where
  online : t.playerMap.lookup pid = some id
  waiting : t.agentMap.lookup key = none
  uncached : t.cachedMap.lookup pid = none
  owns : ∃ agent player, t.agents.lookup id = some agent ∧ agent.player = some player ∧
    player.playerID = pid ∧ player.serial = s.instanceOf pid
  displaced : ∀ other agent, s.playerMap.lookup pid = some other →
    t.agents.lookup other = some agent → agent.player = none
  others : ∀ pid', pid' ≠ pid → t.playerMap.lookup pid' = s.playerMap.lookup pid' ∧
    t.cachedMap.lookup pid' = s.cachedMap.lookup pid'

/-- An agent without a player, with its socket and channel open. -/
def Awaits (id : AgentId) (s : UGateway) : Prop :=
  ∃ agent, s.agents.lookup id = some agent ∧ agent.player = none ∧
    (!agent.socketOpen || !agent.channelOpen) = false

theorem Awaits.congr (awaits : Awaits id s) (same : t.agents.lookup id = s.agents.lookup id) :
    Awaits id t := by
  obtain ⟨agent, alive, unset, opened⟩ := awaits
  exact ⟨agent, same.trans alive, unset, opened⟩

theorem Awaits.refused (awaits : Awaits id s) (plr : IPlayerBase) :
    setUpPlayer id plr s ≠ .ok () t := by
  obtain ⟨agent, alive, unset, opened⟩ := awaits
  rw [setUpPlayer_throws alive opened unset]
  exact nofun

/-- `OnLoginFailed` and `OnRepeated` never return. -/
theorem notify_fails (packageID : UInt32) (answer : IAgentHandler → Option FPacket)
    (function : String) : notify id packageID answer function s ≠ .ok () t := by
  intro returned
  cases alive : s.agents.lookup id with
  | none => cases (bind_error (theAgent_undefined alive) _).symm.trans returned
  | some agent =>
    cases handled : agent.handler with
    | some handler =>
      have threw := notify_throws alive (by rw [handled]; rfl) packageID answer function
      cases threw.symm.trans returned
    | none =>
      have ran := (bind_ok (theAgent_ok alive) _).symm.trans returned
      rw [throwIf_bind (by simp [handled]), bind_ok (editAgent_apply _)] at ran
      simp only [handled] at ran
      cases ran

/-- Taking the player of another agent. -/
theorem extractPlayer_keeps {other : AgentId} {player : FPlayerHandle} (awaits : Awaits id s)
    (ran : extractPlayer other s = .ok player t) :
    t.agentMap = s.agentMap ∧ t.agents.lookup id = s.agents.lookup id := by
  cases alive : s.agents.lookup other with
  | none => cases (bind_error (theAgent_undefined alive) _).symm.trans ran
  | some holder =>
    cases set : holder.player with
    | none => cases (extractPlayer_undefined alive set).symm.trans ran
    | some held =>
      cases (extractPlayer_ok alive set).symm.trans ran
      have differs : id ≠ other := by
        rintro rfl
        obtain ⟨agent, found, unset, -⟩ := awaits
        cases alive.symm.trans found
        cases set.symm.trans unset
      constructor
      · rw [UGateway.edit_frame]
      · rw [UGateway.edit_lookup, if_neg differs]

theorem loginPlayer_agents {player : FPlayerHandle} {plr : IPlayerBase}
    (ran : loginPlayer factory player s = .ok plr t) : t.agents = s.agents := by
  cases player with
  | none =>
    cases ran
    rfl
  | some player =>
    obtain ⟨_, u, saved, ran⟩ := bind_eq_ok ran
    obtain ⟨_, v, reset, ran⟩ := bind_eq_ok ran
    cases callHook_same _ _ _ (.inl ⟨_, saved⟩)
    cases callHook_same _ _ _ (.inl ⟨_, reset⟩)
    cases ran
    rfl

/-- The end of a login does not return: either the displaced agent is told, or
the agent is refused its player. -/
theorem loginFinish_fails {call : LoginCall} (awaits : Awaits call.agent s) :
    loginFinish factory call s ≠ .ok () t := by
  intro returned
  obtain ⟨_, u, notified, returned⟩ := bind_eq_ok returned
  cases displaces : call.existed with
  | some existed =>
    simp only [loginNotify, displaces] at notified
    obtain ⟨addr, w, -, notified⟩ := bind_eq_ok notified
    exact notify_fails _ _ _ notified
  | none =>
    simp only [loginNotify, displaces] at notified
    cases notified
    obtain ⟨plr, v, ran, returned⟩ := bind_eq_ok returned
    have same : v.agents = s.agents := loginPlayer_agents ran
    exact (awaits.congr (congrArg (fun agents => agents.lookup call.agent) same)).refused _ returned

/-- The first section of a login leaves everything alone, or the agent as it was. -/
theorem loginRegister_awaits {call : Option LoginCall} (waits : s.agentMap.lookup key = some id)
    (awaits : Awaits id s) (ran : loginRegister key pid s = .ok call t) :
    call = none ∧ t = s ∨ ∃ rest, call = some rest ∧ Awaits rest.agent t := by
  simp only [loginRegister, get_bind] at ran
  cases online : s.playerMap.lookup pid with
  | none =>
    simp only [online, enlist, get_bind, waits] at ran
    cases ran
    exact .inr ⟨_, rfl, awaits.congr rfl⟩
  | some other =>
    simp only [online] at ran
    obtain ⟨holder, u, found, ran⟩ := bind_eq_ok ran
    cases theAgent_same _ _ (.inl ⟨_, found⟩)
    split at ran
    · cases ran
      exact .inl ⟨rfl, rfl⟩
    obtain ⟨player, v, extracted, ran⟩ := bind_eq_ok ran
    obtain ⟨same, others⟩ := extractPlayer_keeps awaits extracted
    simp only [modify_bind, enlist, get_bind, same, waits] at ran
    cases ran
    exact .inr ⟨_, rfl, awaits.congr others⟩

/-- A login of a waiting agent never returns with its player bound to the agent,
in whatever state the gateway is. -/
theorem login_never_binds (factory : IPlayerFactory) (pid : Int64)
    (waits : s.agentMap.lookup key = some id) (awaits : Awaits id s) :
    ¬ ∃ t, onPlayerLogin factory key pid s = .ok () t ∧ Binds key pid id s t := by
  rintro ⟨t, login, binds⟩
  obtain ⟨call, u, head, returned⟩ := bind_eq_ok login
  have moved : call = none ∧ u = s ∨ ∃ rest, call = some rest ∧ Awaits rest.agent u := by
    by_cases running : s.state = .running
    · rw [loginHead_running running] at head
      exact loginRegister_awaits waits awaits head
    · rw [loginHead_stopped running] at head
      cases head
      exact .inl ⟨rfl, rfl⟩
  rcases moved with ⟨rfl, rfl⟩ | ⟨rest, rfl, awaits⟩
  · cases returned
    cases waits.symm.trans binds.waiting
  · obtain ⟨cached, v, ran, returned⟩ := bind_eq_ok returned
    cases (loginCache_ok rest u).symm.trans ran
    refine loginFinish_fails ?_ returned
    exact awaits.congr rfl

/-- A client has connected, and its agent waits. -/
def connected : UGateway :=
  Transition.last UGateway.started
    (Transition.trace (UGateway.following plainFactory) UGateway.started [.accept "10.0.0.1" 1000])

/-- Its login as player 7 ends in an exception. -/
theorem connected_unbound :
    connected.state = .running ∧ Ownership connected ∧
    connected.agentMap.lookup "10.0.0.1-1000" = some 0 ∧ Awaits 0 connected ∧
    ¬ ∃ t, onPlayerLogin plainFactory "10.0.0.1-1000" 7 connected = .ok () t ∧
      Binds "10.0.0.1-1000" 7 0 connected t := by
  have nobody : NobodyOnline connected := fun pid => rfl
  refine ⟨rfl, nobody.ownership, by decide +kernel, ⟨_, rfl, rfl, rfl⟩, ?_⟩
  rintro ⟨t, returned, -⟩
  cases returned

theorem login_never_binds_connected :
    ¬ ∃ t, onPlayerLogin plainFactory "10.0.0.1-1000" 7 connected = .ok () t ∧
      Binds "10.0.0.1-1000" 7 0 connected t :=
  login_never_binds plainFactory 7 (by decide +kernel) ⟨_, rfl, rfl, rfl⟩

/-- The maps of the gateway and the players of its agents are as they were. -/
structure Untouched (s t : UGateway) : Prop where
  waiting : t.agentMap = s.agentMap
  online : t.playerMap = s.playerMap
  cached : t.cachedMap = s.cachedMap
  players : ∀ id, (t.agents.lookup id).bind UPlayerAgent.player =
    (s.agents.lookup id).bind UPlayerAgent.player

/-- Nobody else is online under the id: a login has no player to take. -/
def NothingToTake (key : String) (pid : Int64) (s : UGateway) : Prop :=
  s.state = .running → ∀ id, s.playerMap.lookup pid = some id →
    ∃ agent, s.agents.lookup id = some agent ∧ agent.key = key

/-- A login under an unknown key takes the player of another agent off the map. -/
theorem login_takes {agent : UPlayerAgent} (running : s.state = .running)
    (unknown : s.agentMap.lookup key = none) (online : s.playerMap.lookup pid = some id)
    (alive : s.agents.lookup id = some agent) (other : agent.key ≠ key)
    (returned : onPlayerLogin factory key pid s = .ok () t) : t.playerMap.lookup pid = none := by
  obtain ⟨call, u, head, rest⟩ := bind_eq_ok returned
  rw [loginHead_running running] at head
  simp only [loginRegister, get_bind, online] at head
  rw [bind_ok (theAgent_ok alive), if_neg other] at head
  obtain ⟨player, v, extracted, head⟩ := bind_eq_ok head
  cases set : agent.player with
  | none => cases (extractPlayer_undefined alive set).symm.trans extracted
  | some held =>
    cases (extractPlayer_ok alive set).symm.trans extracted
    rw [UGateway.edit_frame] at head
    simp only [modify_bind, enlist, get_bind, unknown] at head
    cases head
    cases rest
    exact AList.lookup_erase _ _

/-- With nothing to take, the first section of a login under an unknown key ends it. -/
theorem loginHead_nothing (unknown : s.agentMap.lookup key = none)
    (nothing : NothingToTake key pid s) : loginHead key pid s = .ok none s := by
  by_cases running : s.state = .running
  swap
  · exact loginHead_stopped running _ _
  rw [loginHead_running running]
  cases online : s.playerMap.lookup pid with
  | none => simp [loginRegister, online, enlist, unknown]
  | some id =>
    obtain ⟨agent, alive, same⟩ := nothing running id online
    simp only [loginRegister, get_bind, online]
    rw [bind_ok (theAgent_ok alive), if_pos same, pure_apply]

/-- A login under a key that no agent waits under leaves everything as it was if
and only if nobody is online under its player id, unless under the same key. -/
theorem untouched_iff_nothingToTake (factory : IPlayerFactory) (pid : Int64)
    (unknown : s.agentMap.lookup key = none) :
    (∃ t, onPlayerLogin factory key pid s = .ok () t ∧ Untouched s t) ↔
      NothingToTake key pid s := by
  constructor
  · rintro ⟨t, returned, untouched⟩ running id online
    cases alive : s.agents.lookup id with
    | none =>
      have head : loginHead key pid s = .error .undefined s := by
        rw [loginHead_running running]
        simp only [loginRegister, get_bind, online]
        exact bind_error (theAgent_undefined alive) _
      cases (bind_error head _).symm.trans returned
    | some agent =>
      refine ⟨agent, rfl, ?_⟩
      by_contra other
      have gone := login_takes running unknown online alive other returned
      rw [untouched.online, online] at gone
      cases gone
  · intro nothing
    exact ⟨s, bind_ok (loginHead_nothing unknown nothing) _, rfl, rfl, rfl, fun _ => rfl⟩

/-- The agent of a client that is online as a player. -/
def onlineAgent (pid : Int64) : UPlayerAgent :=
  { (UPlayerAgent.new "10.0.0.1" 1000).initial (plainFactory.createAgentHandler 0) with
    player := some ⟨0, pid, some 0⟩, connection := .looping, processing := .looping
    reading := true, writing := true, watching := true }

/-- The client is online alone. -/
def clientOnline (pid : Int64) : UGateway where
  state := .running
  agentMap := ∅
  playerMap := (∅ : Table Int64 AgentId).insert pid 0
  cachedMap := ∅
  agents := (∅ : Table AgentId UPlayerAgent).insert 0 (onlineAgent pid)
  nextAgent := 1
  nextPlayer := 1
  login := some ⟨.running, ∅⟩

/-- A login as player 7 under a key that is not known takes the player off the
gateway. Where the agent online has none, it dereferences a null pointer. -/
theorem clientOnline_taken :
    (clientOnline 7).agentMap.lookup "10.0.0.2-1000" = none ∧
    ¬ (∃ t, onPlayerLogin plainFactory "10.0.0.2-1000" 7 (clientOnline 7) = .ok () t ∧
      Untouched (clientOnline 7) t) ∧
    Transition.Path (UGateway.step plainFactory) UGateway.started firstLogin ∧
    (Transition.last UGateway.started firstLogin).agentMap.lookup "10.0.0.2-1000" = none ∧
    ∃ later, onPlayerLogin plainFactory "10.0.0.2-1000" 7
      (Transition.last UGateway.started firstLogin) = .error .undefined later := by
  refine ⟨rfl, ?_, firstLogin_run, by decide +kernel, _, rfl⟩
  rintro ⟨t, returned, untouched⟩
  have taken : t.playerMap.lookup 7 = none := by
    cases returned
    decide +kernel
  have kept : t.playerMap.lookup 7 = some 0 := by
    rw [untouched.online]
    decide +kernel
  cases taken.symm.trans kept

/-- The client's own second login changes nothing. -/
theorem untouched_iff_nothingToTake_own :
    (∃ t, onPlayerLogin plainFactory "10.0.0.1-1000" 7 (clientOnline 7) = .ok () t ∧
      Untouched (clientOnline 7) t) ↔ NothingToTake "10.0.0.1-1000" 7 (clientOnline 7) :=
  untouched_iff_nothingToTake plainFactory 7 rfl

end Uranus
