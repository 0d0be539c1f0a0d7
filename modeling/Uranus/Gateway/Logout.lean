import Uranus.Foundation.History
import Uranus.Gateway.LoginAuth
import Uranus.Gateway.LoginOutcome
import Uranus.Gateway.PlayerExit

/-! The logout of a player. `CleanUp` beside the history of what it does to player
instances: their virtual functions that it calls, and the factory's
`DestroyPlayer`, which runs where a handle is released or overwritten. -/
namespace Uranus
open Foundation Program

inductive PlayerCall where
  | onLogout (player : IPlayerBase)
  | save (player : IPlayerBase)
  | destroyPlayer (player : IPlayerBase)
deriving DecidableEq

abbrev WitnessedM := Program (Observed UGateway PlayerCall)

namespace Witnessed

/-- `FPlayerHandle::Release`. -/
def release : FPlayerHandle → WitnessedM Unit
  | none => pure ()
  | some player => note (.destroyPlayer player)

/-- `insert_or_assign` releases the handle that it overwrites. -/
def recycleCache (id : AgentId) (pid : Int64) (now : Int) : WitnessedM Unit := do
  let node := (← get).state.cachedMap.lookup pid
  observe (Uranus.recycleCache id pid now)
  release (node.bind FCachedNode.player)

def recyclePlayer (id : AgentId) (now : Int) : WitnessedM Unit := do
  match ← observe (recycleEntry id) with
  | none => pure ()
  | some pid => do
    observe (removePlayer pid)
    recycleCache id pid now

def cleanUpPlayer (factory : IPlayerFactory) (now : Int) (id : AgentId) (agent : UPlayerAgent) :
    WitnessedM Unit :=
  match agent.player with
  | none => pure ()
  | some player => do
    note (.onLogout player)
    observe (callHook (factory.hooks.onLogout player))
    note (.save player)
    observe (callHook (factory.hooks.save player))
    if agent.cachable && !agent.repeated then do
      observe (editAgent id fun agent =>
        { agent with player := some { player with agent := none } })
      recyclePlayer id now
    else do
      observe (removePlayer player.playerID)
      observe (editAgent id fun agent => { agent with player := none })
      release (some player)

def cleanUp (factory : IPlayerFactory) (now : Int) (id : AgentId) : WitnessedM Unit := do
  let agent ← observe (theAgent id)
  observe (editAgent id fun agent => { agent with cleaned := true })
  if !agent.hasModule then pure ()
  else do
    cleanUpPlayer factory now id agent
    observe (removeAgent agent.key)

theorem release_erases (player : FPlayerHandle) : Erases (release player) (pure ()) := by
  cases player with
  | none => exact Erases.pure ()
  | some player => exact fun _ => rfl

theorem recycleCache_erases (id : AgentId) (pid : Int64) (now : Int) :
    Erases (recycleCache id pid now) (Uranus.recycleCache id pid now) := by
  intro w
  have cached := fun node : Option FCachedNode =>
    (Erases.observe (E := PlayerCall) (Uranus.recycleCache id pid now)).followed fun _ =>
      release_erases (node.bind FCachedNode.player)
  exact cached (w.state.cachedMap.lookup pid) w

theorem recyclePlayer_erases (id : AgentId) (now : Int) :
    Erases (recyclePlayer id now) (Uranus.recyclePlayer id now) := by
  apply (Erases.observe _).bind
  intro pid
  cases pid with
  | none => exact Erases.pure ()
  | some pid => exact (Erases.observe _).bind fun _ => recycleCache_erases _ _ _

theorem cleanUpPlayer_erases (factory : IPlayerFactory) (now : Int) (id : AgentId)
    (agent : UPlayerAgent) :
    Erases (cleanUpPlayer factory now id agent) (Uranus.cleanUpPlayer factory now id agent) := by
  unfold cleanUpPlayer Uranus.cleanUpPlayer
  cases agent.player with
  | none => exact Erases.pure ()
  | some player =>
    apply Erases.note
    apply (Erases.observe _).bind
    intro _
    apply Erases.note
    apply (Erases.observe _).bind
    intro _
    apply Erases.ite
    · exact (Erases.observe _).bind fun _ => recyclePlayer_erases _ _
    · exact (Erases.observe _).bind fun _ => (Erases.observe _).bind fun _ => release_erases _

/-- Without its history this is the clean-up of the gateway. -/
theorem cleanUp_erases (factory : IPlayerFactory) (now : Int) (id : AgentId) :
    Erases (cleanUp factory now id) (Uranus.cleanUp factory now id) := by
  apply (Erases.observe _).bind
  intro agent
  apply (Erases.observe _).bind
  intro _
  apply Erases.ite
  · exact Erases.pure ()
  · exact (cleanUpPlayer_erases _ _ _ _).bind fun _ => Erases.observe _

end Witnessed

/-- The agent is online as its player, an instance that the cache does not hold too. -/
structure OnlineAs (id : AgentId) (agent : UPlayerAgent) (player : IPlayerBase) (s : UGateway) :
    Prop where
  running : s.state = .running
  online : s.playerMap.lookup player.playerID = some id
  alive : s.agents.lookup id = some agent
  owns : agent.player = some player
  sole : ∀ node other, s.cachedMap.lookup player.playerID = some node →
    node.player = some other → other.serial ≠ player.serial

/-- The instance is in the cache, under its id. -/
def Cached (player : IPlayerBase) (s : UGateway) : Prop :=
  ∃ node other, s.cachedMap.lookup player.playerID = some node ∧ node.player = some other ∧
    other.serial = player.serial

def Destroyed (player : IPlayerBase) (calls : List PlayerCall) : Prop :=
  ∃ other, .destroyPlayer other ∈ calls ∧ other.serial = player.serial

/-- What the clean-up of an agent does for its player. -/
structure LogsOut (agent : UPlayerAgent) (player : IPlayerBase) (s : UGateway)
    (t : Observed UGateway PlayerCall) : Prop where
  offline : t.state.playerMap.lookup player.playerID = none
  unregistered : t.state.agentMap.lookup agent.key = none
  called : ∃ rest, t.history = .onLogout player :: .save player :: rest ∧
    ∀ call ∈ rest, ∃ other, call = .destroyPlayer other
  settled : if agent.cachable && !agent.repeated then
      (Cached player t.state ∧ ∀ node, t.state.cachedMap.lookup player.playerID = some node →
        node.player = some { player with agent := none }) ∧ ¬ Destroyed player t.history
    else ¬ Cached player t.state ∧ Destroyed player t.history
  others : ∀ pid, pid ≠ player.playerID →
    t.state.playerMap.lookup pid = s.playerMap.lookup pid ∧
    t.state.cachedMap.lookup pid = s.cachedMap.lookup pid

/-- The functions of the player come back, and it has an id that the cache takes
if it is to be cached. -/
def Loggable (factory : IPlayerFactory) (agent : UPlayerAgent) (player : IPlayerBase) : Prop :=
  agent.hasModule = true ∧ factory.hooks.onLogout player = none ∧
    factory.hooks.save player = none ∧
    ((agent.cachable && !agent.repeated) = true → 0 < player.playerID)

namespace Witnessed
variable {factory : IPlayerFactory} {now : Int} {id : AgentId} {s : UGateway}
  {calls : List PlayerCall} {agent : UPlayerAgent} {player : IPlayerBase}

theorem cleanUp_apply (alive : s.agents.lookup id = some agent)
    (attached : agent.hasModule = true) : cleanUp factory now id ⟨s, calls⟩ =
      (cleanUpPlayer factory now id agent >>= fun _ => observe (removeAgent agent.key))
        ⟨s.mark id, calls⟩ := by
  simp only [cleanUp]
  rw [bind_ok (observe_ok (theAgent_ok alive)), bind_ok (observe_ok (editAgent_apply _)), attached]
  rfl

/-- An agent that no module has set up is only marked. -/
theorem cleanUp_detached (alive : s.agents.lookup id = some agent)
    (detached : agent.hasModule = false) :
    cleanUp factory now id ⟨s, calls⟩ = .ok () ⟨s.mark id, calls⟩ := by
  simp only [cleanUp]
  rw [bind_ok (observe_ok (theAgent_ok alive)), bind_ok (observe_ok (editAgent_apply _)), detached]
  rfl

/-- A virtual function that returns. -/
theorem callHook_returns (w : Observed UGateway PlayerCall) :
    (observe (callHook none) : WitnessedM Unit) w = .ok () w := rfl

theorem cleanUpPlayer_thrown (set : agent.player = some player)
    (threw : factory.hooks.onLogout player ≠ none ∨ factory.hooks.save player ≠ none) :
    ∃ what t, cleanUpPlayer factory now id agent ⟨s, calls⟩ = .error (.exception what) t := by
  simp only [cleanUpPlayer, set, note_bind]
  cases left : factory.hooks.onLogout player with
  | some what => exact ⟨_, _, bind_error (observe_error rfl) _⟩
  | none =>
    rw [bind_ok (callHook_returns _)]
    obtain ⟨what, failed⟩ := Option.ne_none_iff_exists'.mp (threw.resolve_left (· left))
    rw [failed, note_bind]
    exact ⟨_, _, bind_error (observe_error rfl) _⟩

/-- The virtual functions of the player have come back. -/
theorem cleanUpPlayer_called (set : agent.player = some player)
    (left : factory.hooks.onLogout player = none) (saved : factory.hooks.save player = none) :
    cleanUpPlayer factory now id agent ⟨s, calls⟩ =
      (if agent.cachable && !agent.repeated then do
        observe (editAgent id fun agent =>
          { agent with player := some { player with agent := none } })
        recyclePlayer id now
      else do
        observe (removePlayer player.playerID)
        observe (editAgent id fun agent => { agent with player := none })
        release (some player))
        ⟨s, calls ++ [PlayerCall.onLogout player] ++ [PlayerCall.save player]⟩ := by
  simp only [cleanUpPlayer, set, note_bind]
  rw [left, bind_ok (callHook_returns _), note_bind, saved, bind_ok (callHook_returns _)]

/-- The handle that the cache holds under an id. -/
def evicted (s : UGateway) (pid : Int64) : List PlayerCall :=
  (((s.cachedMap.lookup pid).bind FCachedNode.player).map PlayerCall.destroyPlayer).toList

theorem release_ok (player : FPlayerHandle) (w : Observed UGateway PlayerCall) :
    release player w =
      .ok () { w with history := w.history ++ (player.map PlayerCall.destroyPlayer).toList } := by
  cases player with
  | none => simp [release]
  | some player => rfl

section
variable (now id)

theorem recyclePlayer_refused (alive : s.agents.lookup id = some agent)
    (set : agent.player = some player) (refused : ¬ (s.state = .running ∧ 0 < player.playerID)) :
    recyclePlayer id now ⟨s, calls⟩ = .ok () ⟨s, calls⟩ :=
  bind_ok (observe_ok (recycleEntry_refused alive set refused)) _

theorem recyclePlayer_ok (alive : s.agents.lookup id = some agent)
    (set : agent.player = some player) (running : s.state = .running)
    (positive : 0 < player.playerID) : recyclePlayer id now ⟨s, calls⟩ =
      .ok () ⟨s.recycled id now player, calls ++ evicted s player.playerID⟩ := by
  have cached : Uranus.recycleCache id player.playerID now
      { s with playerMap := s.playerMap.erase player.playerID } =
        .ok () (s.recycled id now player) := by
    unfold Uranus.recycleCache
    rw [bind_ok (theAgent_ok (by exact alive)), set]
    rfl
  simp only [recyclePlayer]
  rw [bind_ok (observe_ok (recycleEntry_ok alive set running positive))]
  dsimp only
  rw [bind_ok (observe_ok (removePlayer_running running _))]
  simp only [recycleCache, get_bind]
  rw [bind_ok (observe_ok cached), release_ok]
  rfl

/-- The player is destroyed. -/
theorem cleanUpPlayer_release (running : s.state = .running) (set : agent.player = some player)
    (left : factory.hooks.onLogout player = none) (saved : factory.hooks.save player = none)
    (dropped : (agent.cachable && !agent.repeated) = false) :
    ∃ agents, cleanUpPlayer factory now id agent ⟨s, []⟩ = .ok ()
      ⟨{ s with playerMap := s.playerMap.erase player.playerID, agents },
        [.onLogout player, .save player, .destroyPlayer player]⟩ := by
  refine ⟨(({ s with playerMap := s.playerMap.erase player.playerID } : UGateway).edit id
    fun agent => { agent with player := none }).agents, ?_⟩
  rw [cleanUpPlayer_called set left saved, dropped, if_neg (by simp)]
  rw [bind_ok (observe_ok (removePlayer_running running _))]
  rw [bind_ok (observe_ok (editAgent_apply _)), release_ok, UGateway.edit_frame]
  rfl

/-- The player goes into the cache, in the place of the one there. -/
theorem cleanUpPlayer_recycle (running : s.state = .running)
    (alive : s.agents.lookup id = some { agent with cleaned := true })
    (set : agent.player = some player) (left : factory.hooks.onLogout player = none)
    (saved : factory.hooks.save player = none)
    (kept : (agent.cachable && !agent.repeated) = true) (positive : 0 < player.playerID) :
    ∃ agents, cleanUpPlayer factory now id agent ⟨s, []⟩ = .ok ()
      ⟨{ s with
          playerMap := s.playerMap.erase player.playerID
          cachedMap := s.cachedMap.insert player.playerID
            ⟨some { player with agent := none }, now⟩
          agents },
        [.onLogout player, .save player] ++ evicted s player.playerID⟩ := by
  have awake : (s.parted id player).state = .running := parted_frame.1.trans running
  refine ⟨((s.parted id player).recycled id now { player with agent := none }).agents, ?_⟩
  rw [cleanUpPlayer_called set left saved, kept, if_pos rfl]
  rw [bind_ok (observe_ok (editAgent_apply _))]
  refine (recyclePlayer_ok now id (parted_lookup alive player) rfl awake positive).trans ?_
  simp only [UGateway.recycled]
  rw [UGateway.edit_frame, UGateway.parted, UGateway.edit_frame]
  rfl

theorem cleanUpPlayer_keep (alive : s.agents.lookup id = some { agent with cleaned := true })
    (set : agent.player = some player) (left : factory.hooks.onLogout player = none)
    (saved : factory.hooks.save player = none)
    (kept : (agent.cachable && !agent.repeated) = true) (negative : ¬ 0 < player.playerID) :
    ∃ agents, cleanUpPlayer factory now id agent ⟨s, []⟩ = .ok ()
      ⟨{ s with agents }, [.onLogout player, .save player]⟩ := by
  refine ⟨(s.parted id player).agents, ?_⟩
  rw [cleanUpPlayer_called set left saved, kept, if_pos rfl]
  rw [bind_ok (observe_ok (editAgent_apply _))]
  refine (recyclePlayer_refused now id (parted_lookup alive player) rfl
    (fun able => negative able.2)).trans ?_
  rw [UGateway.parted, UGateway.edit_frame]
  rfl

end

theorem cleanUp_ok {u : UGateway} {done : List PlayerCall}
    (alive : s.agents.lookup id = some agent) (attached : agent.hasModule = true)
    (cleaned : cleanUpPlayer factory now id agent ⟨s.mark id, calls⟩ = .ok () ⟨u, done⟩)
    (running : u.state = .running) : cleanUp factory now id ⟨s, calls⟩ =
      .ok () ⟨{ u with agentMap := u.agentMap.erase agent.key }, done⟩ := by
  rw [cleanUp_apply alive attached, bind_ok cleaned]
  exact observe_ok (removeAgent_running running agent.key)

end Witnessed

section
variable {factory : IPlayerFactory} {now : Int} {id : AgentId} {s : UGateway}
  {agent : UPlayerAgent} {player : IPlayerBase} {t : Observed UGateway PlayerCall}

/-- A player that stays online has not logged out. -/
theorem OnlineAs.not_logsOut (online : OnlineAs id agent player s)
    (same : t.state.playerMap = s.playerMap) : ¬ LogsOut agent player s t := by
  intro logsOut
  have offline := logsOut.offline
  rw [same, online.online] at offline
  cases offline

theorem destroyed_evicted (online : OnlineAs id agent player s) :
    ¬ Destroyed player
      ([.onLogout player, .save player] ++ Witnessed.evicted s player.playerID) := by
  rintro ⟨other, member, same⟩
  simp only [Witnessed.evicted, List.mem_append, List.mem_cons, reduceCtorEq, List.not_mem_nil,
    or_false, false_or, Option.mem_toList, Option.map_eq_some_iff, Option.bind_eq_some_iff]
    at member
  obtain ⟨held, ⟨node, found, holds⟩, is⟩ := member
  cases is
  exact online.sole node other found holds same

/-- The player goes into the cache. -/
theorem OnlineAs.cached (online : OnlineAs id agent player s)
    (kept : (agent.cachable && !agent.repeated) = true) (agents : Table AgentId UPlayerAgent) :
    LogsOut agent player s ⟨{ s with
        playerMap := s.playerMap.erase player.playerID
        cachedMap := s.cachedMap.insert player.playerID ⟨some { player with agent := none }, now⟩
        agentMap := s.agentMap.erase agent.key, agents },
      [.onLogout player, .save player] ++ Witnessed.evicted s player.playerID⟩ := by
  constructor
  · exact AList.lookup_erase _ _
  · exact AList.lookup_erase _ _
  · refine ⟨Witnessed.evicted s player.playerID, rfl, ?_⟩
    intro call member
    obtain ⟨other, -, is⟩ := Option.map_eq_some_iff.mp (Option.mem_toList.mp member)
    exact ⟨other, is.symm⟩
  · rw [if_pos kept]
    refine ⟨⟨⟨_, _, AList.lookup_insert _, rfl, rfl⟩, ?_⟩, destroyed_evicted online⟩
    intro node found
    cases (AList.lookup_insert _).symm.trans found
    rfl
  · intro pid differs
    exact ⟨AList.lookup_erase_ne differs, AList.lookup_insert_ne differs⟩

/-- The player is destroyed. -/
theorem OnlineAs.destroyed (online : OnlineAs id agent player s)
    (dropped : (agent.cachable && !agent.repeated) = false) (agents : Table AgentId UPlayerAgent) :
    LogsOut agent player s ⟨{ s with
        playerMap := s.playerMap.erase player.playerID
        agentMap := s.agentMap.erase agent.key, agents },
      [.onLogout player, .save player, .destroyPlayer player]⟩ := by
  constructor
  · exact AList.lookup_erase _ _
  · exact AList.lookup_erase _ _
  · exact ⟨_, rfl, by simp⟩
  · rw [if_neg (by simp [dropped])]
    constructor
    · rintro ⟨node, other, found, holds, same⟩
      exact online.sole node other found holds same
    · exact ⟨player, by simp, rfl⟩
  · intro pid differs
    exact ⟨AList.lookup_erase_ne differs, rfl⟩

/-- The clean-up of an agent that is online as a player completes the logout if
and only if the functions of the player come back and the cache takes its id,
where it is to be cached. -/
theorem logsOut_iff_loggable (factory : IPlayerFactory) (now : Int)
    (online : OnlineAs id agent player s) :
    (∃ t, Witnessed.cleanUp factory now id ⟨s, []⟩ = .ok () t ∧ LogsOut agent player s t) ↔
      Loggable factory agent player := by
  have alive := mark_lookup online.alive
  have running : (s.mark id).state = .running := (mark_frame id s).1.trans online.running
  have marked : s.mark id = { s with agents := (s.mark id).agents } := UGateway.edit_frame _ _ _
  cases attached : agent.hasModule with
  | false =>
    apply iff_of_false
    · rintro ⟨t, returned, logsOut⟩
      cases (Witnessed.cleanUp_detached online.alive attached).symm.trans returned
      exact online.not_logsOut (mark_frame id s).2.2 logsOut
    · exact fun loggable => absurd (attached.symm.trans loggable.1) (by simp)
  | true =>
    by_cases threw : factory.hooks.onLogout player ≠ none ∨ factory.hooks.save player ≠ none
    · have thrown : ∃ what u, Witnessed.cleanUpPlayer factory now id agent ⟨s.mark id, []⟩ =
          .error (.exception what) u := Witnessed.cleanUpPlayer_thrown online.owns threw
      obtain ⟨what, u, failed⟩ := thrown
      apply iff_of_false
      · rintro ⟨t, returned, -⟩
        rw [Witnessed.cleanUp_apply online.alive attached, bind_error failed] at returned
        cases returned
      · rintro ⟨-, left, saved, -⟩
        exact threw.elim (· left) (· saved)
    push Not at threw
    obtain ⟨left, saved⟩ := threw
    cases kept : agent.cachable && !agent.repeated with
    | false =>
      obtain ⟨agents, cleaned⟩ := Witnessed.cleanUpPlayer_release now id running online.owns
        left saved kept
      have ran := Witnessed.cleanUp_ok online.alive attached cleaned running
      rw [marked] at ran
      exact iff_of_true ⟨_, ran, online.destroyed kept agents⟩
        ⟨attached, left, saved, by simp [kept]⟩
    | true =>
      by_cases positive : 0 < player.playerID
      · obtain ⟨agents, cleaned⟩ := Witnessed.cleanUpPlayer_recycle now id running alive
          online.owns left saved kept positive
        have ran := Witnessed.cleanUp_ok online.alive attached cleaned running
        rw [marked] at ran
        exact iff_of_true ⟨_, ran, online.cached kept agents⟩
          ⟨attached, left, saved, fun _ => positive⟩
      · obtain ⟨agents, cleaned⟩ := Witnessed.cleanUpPlayer_keep now id alive online.owns
          left saved kept positive
        have ran := Witnessed.cleanUp_ok online.alive attached cleaned running
        apply iff_of_false
        · rintro ⟨t, returned, logsOut⟩
          cases ran.symm.trans returned
          exact online.not_logsOut (mark_frame id s).2.2 logsOut
        · exact fun loggable => positive (loggable.2.2.2 kept)

end

theorem clientOnline_onlineAs (pid : Int64) :
    OnlineAs 0 (onlineAgent pid) ⟨0, pid, some 0⟩ (clientOnline pid) :=
  ⟨rfl, AList.lookup_insert _, rfl, rfl, nofun⟩

/-- A login as player -5 is let through, and the clean-up of its agent leaves the
player online. -/
theorem negative_staysOnline :
    (∃ t, checkRequest ⟨fun _ => .ok ("token", -5)⟩ 0 "10.0.0.1-1000" .new connected =
      .ok (some (-5)) t) ∧
    OnlineAs 0 (onlineAgent (-5)) ⟨0, -5, some 0⟩ (clientOnline (-5)) ∧
    ¬ ∃ t, Witnessed.cleanUp plainFactory 5 0 ⟨clientOnline (-5), []⟩ = .ok () t ∧
      LogsOut (onlineAgent (-5)) ⟨0, -5, some 0⟩ (clientOnline (-5)) t := by
  refine ⟨⟨_, rfl⟩, clientOnline_onlineAs (-5), ?_⟩
  rintro ⟨t, returned, logsOut⟩
  have offline := logsOut.offline
  cases returned
  revert offline
  decide +kernel

theorem logsOut_iff_loggable_seven :
    (∃ t, Witnessed.cleanUp plainFactory 5 0 ⟨clientOnline 7, []⟩ = .ok () t ∧
      LogsOut (onlineAgent 7) ⟨0, 7, some 0⟩ (clientOnline 7) t) ↔
      Loggable plainFactory (onlineAgent 7) ⟨0, 7, some 0⟩ :=
  logsOut_iff_loggable plainFactory 5 (clientOnline_onlineAs 7)

end Uranus
