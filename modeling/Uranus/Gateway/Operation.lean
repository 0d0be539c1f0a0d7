import Uranus.Gateway.Registration

/-! The operations of a gateway, each a step of the registry. A login finds its
agent online already, finds nobody, or takes an agent online; only where it
would take a player from an agent that has none is its effect undefined. -/
namespace Uranus
open Foundation Program
variable {factory : IPlayerFactory} {s t u : UGateway} {id : AgentId} {key : String} {pid : Int64}
  {change : Registry.Change}

/-- The step of the registry that an action took. -/
structure Refines (change : Registry.Change) (s t : UGateway) : Prop where
  step : Registry.Step s.registry change t.registry
  unplayed : Unplayed t

theorem Refines.of_step (unplayed : Unplayed s) (step : Registry.Step s.registry change t.registry)
    (playerless : Playerless t) : Refines change s t :=
  ⟨step, playerless, step.wellFormed unplayed.formed⟩

theorem Refines.quiet (unplayed : Unplayed s) (quiet : Quiet s t) : Refines .stay s t := by
  constructor
  · rw [quiet.registry]
    exact .stay
  · exact quiet.unplayed unplayed

theorem Refines.and_quiet (refines : Refines change s t) (quiet : Quiet t u) :
    Refines change s u := by
  constructor
  · rw [quiet.registry]
    exact refines.step
  · exact quiet.unplayed refines.unplayed

theorem Unplayed.agent (unplayed : Unplayed s) (known : (s.registry.key id).isSome) :
    ∃ agent, s.agents.lookup id = some agent ∧ agent.player = none := by
  obtain ⟨agent, alive⟩ := Option.isSome_iff_exists.mp (by simpa [UGateway.registry] using known)
  exact ⟨agent, alive, (unplayed.players _ _ alive).1⟩

theorem registry_key {agent : UPlayerAgent} (alive : s.agents.lookup id = some agent) :
    s.registry.key id = some agent.key := congrArg (Option.map UPlayerAgent.key) alive

/-- A change of the maps alone, when it is a step of the registry. -/
theorem Unplayed.remap (unplayed : Unplayed s) (agentMap : Table String AgentId)
    (playerMap : Table Int64 AgentId)
    (step : Registry.Step s.registry change
      { s.registry with waiting := agentMap, online := playerMap }) :
    Refines change s { s with agentMap, playerMap } :=
  .of_step unplayed step ⟨unplayed.running, unplayed.players, unplayed.uncached⟩

/-- How the first section of a login ends. -/
inductive LoginRegister (s : UGateway) (key : String) (pid : Int64) :
    EStateM.Result Fault UGateway (Option LoginCall) → Prop where
  | again {id : AgentId} (online : s.playerMap.lookup pid = some id)
      (same : s.registry.key id = some key) : LoginRegister s key pid (.ok none s)
  | displaces {id : AgentId} (online : s.playerMap.lookup pid = some id)
      (other : s.registry.key id ≠ some key) : LoginRegister s key pid (.error .undefined s)
  | unknown (free : s.playerMap.lookup pid = none) (absent : s.agentMap.lookup key = none) :
      LoginRegister s key pid (.ok none s)
  | promoted {id : AgentId} (free : s.playerMap.lookup pid = none)
      (waits : s.agentMap.lookup key = some id) :
      LoginRegister s key pid (.ok (some ⟨pid, id, none, none⟩)
        { s with agentMap := s.agentMap.erase key, playerMap := s.playerMap.insert pid id })

theorem loginRegister_cases (unplayed : Unplayed s) (key : String) (pid : Int64) :
    LoginRegister s key pid (loginRegister key pid s) := by
  simp only [loginRegister, get_bind]
  cases online : s.playerMap.lookup pid with
  | some id =>
    obtain ⟨agent, alive, unset⟩ := unplayed.agent (unplayed.formed.known online)
    have known := registry_key alive
    dsimp only
    rw [bind_ok (theAgent_ok alive)]
    split
    next same => exact .again online (same ▸ known)
    next other =>
      rw [bind_error (extractPlayer_undefined alive unset)]
      apply LoginRegister.displaces online
      rw [known]
      exact fun same => other (Option.some.inj same)
  | none =>
    simp only [enlist, get_bind]
    cases waits : s.agentMap.lookup key with
    | none => exact .unknown online waits
    | some id => exact .promoted online waits

/-- What a login that comes back did. -/
inductive Login (s : UGateway) (key : String) (pid : Int64) (t : UGateway) : Prop where
  | again {id : AgentId} (online : s.playerMap.lookup pid = some id)
      (same : s.registry.key id = some key) (kept : t = s)
  | unknown (free : s.playerMap.lookup pid = none) (absent : s.agentMap.lookup key = none)
      (kept : t = s)
  | promoted {id : AgentId} (free : s.playerMap.lookup pid = none)
      (waits : s.agentMap.lookup key = some id) (refines : Refines (.promote key pid) s t)

theorem onPlayerLogin_cases (unplayed : Unplayed s)
    (ends : Ends (onPlayerLogin factory key pid) s t) : Login s key pid t := by
  have registered := loginRegister_cases unplayed key pid
  rw [← loginHead_running unplayed.running] at registered
  generalize ran : loginHead key pid s = result at registered
  cases registered with
  | again online same => exact .again online same (ends.of_ok (bind_ok ran _))
  | unknown free absent => exact .unknown free absent (ends.of_ok (bind_ok ran _))
  | displaces online other =>
    obtain ⟨what, wrong⟩ := ends.of_fault (bind_error ran _)
    cases wrong
  | promoted free waits =>
    have moved := unplayed.remap (s.agentMap.erase key) (s.playerMap.insert pid _)
      (.promote waits free)
    have rest := loginRest_quiet _ _ _ (ends.congr (bind_ok ran _))
    exact .promoted free waits (moved.and_quiet rest)

/-- The login of an agent that would displace another one is undefined. -/
theorem onPlayerLogin_displaces (unplayed : Unplayed s) (online : s.playerMap.lookup pid = some id)
    (other : s.registry.key id ≠ some key) (factory : IPlayerFactory) :
    onPlayerLogin factory key pid s = .error .undefined s := by
  have registered := loginRegister_cases unplayed key pid
  rw [← loginHead_running unplayed.running] at registered
  generalize ran : loginHead key pid s = result at registered
  cases registered with
  | displaces _ _ => exact bind_error ran _
  | again found same =>
    cases online.symm.trans found
    exact absurd same other
  | unknown free _ | promoted free _ => cases online.symm.trans free

theorem loginRest_ends {agent : UPlayerAgent} (uncached : s.cachedMap.lookup pid = none)
    (alive : s.agents.lookup id = some agent) (unset : agent.player = none) :
    ∃ t, Ends (loginRest factory (some ⟨pid, id, none, none⟩)) s t := by
  have cached : loginCache ⟨pid, id, none, none⟩ s =
      .ok ⟨pid, id, none, none⟩ { s with cachedMap := s.cachedMap.erase pid } := by
    rw [loginCache_ok, uncached]
    rfl
  have created : createPlayer { s with cachedMap := s.cachedMap.erase pid } =
      .ok ⟨s.nextPlayer, -1, none⟩
        { s with cachedMap := s.cachedMap.erase pid, nextPlayer := s.nextPlayer + 1 } := rfl
  have finish : loginRest factory (some ⟨pid, id, none, none⟩) s =
      setUpPlayer id ⟨s.nextPlayer, pid, none⟩
        { s with cachedMap := s.cachedMap.erase pid, nextPlayer := s.nextPlayer + 1 } := by
    simp only [loginRest, loginFinish]
    rw [bind_ok cached]
    exact (bind_ok rfl _).trans (bind_ok created _)
  cases closed : (!agent.socketOpen || !agent.channelOpen) with
  | true => exact ⟨_, .inl ⟨(), finish.trans (setUpPlayer_closed (by exact alive) closed _)⟩⟩
  | false => exact ⟨_, .inr ⟨_, finish.trans (setUpPlayer_throws (by exact alive) closed unset _)⟩⟩

/-- A login that displaces nobody comes back, by return or by exception. -/
theorem onPlayerLogin_ends (unplayed : Unplayed s) (free : s.playerMap.lookup pid = none)
    (factory : IPlayerFactory) (key : String) : ∃ t, Ends (onPlayerLogin factory key pid) s t := by
  have registered := loginRegister_cases unplayed key pid
  rw [← loginHead_running unplayed.running] at registered
  generalize ran : loginHead key pid s = result at registered
  cases registered with
  | again online same => cases free.symm.trans online
  | displaces online other => cases free.symm.trans online
  | unknown free absent => exact ⟨s, .inl ⟨(), bind_ok ran _⟩⟩
  | @promoted id free waits =>
    have known : (s.registry.key id).isSome := by
      rw [unplayed.formed.waits waits]
      rfl
    obtain ⟨agent, alive, unset⟩ := unplayed.agent known
    obtain ⟨t, ends⟩ : ∃ t, Ends (loginRest factory (some ⟨pid, id, none, none⟩))
        { s with agentMap := s.agentMap.erase key, playerMap := s.playerMap.insert pid id } t :=
      loginRest_ends (by exact unplayed.uncached pid) alive unset
    exact ⟨t, ends.congr (bind_ok ran _).symm⟩

/-- `CleanUp` of an agent takes it, or whoever waits under its key, off the waiting list. -/
inductive CleansUp (s : UGateway) (id : AgentId) (t : UGateway) : Prop where
  | dropped (inactive : s.registry.active id = false) (refines : Refines .stay s t)
  | retired (refines : Refines (.retire id) s t)

theorem cleanUp_cases {now : Int} (unplayed : Unplayed s)
    (ends : Ends (cleanUp factory now id) s t) : CleansUp s id t := by
  simp only [cleanUp] at ends
  cases alive : s.agents.lookup id with
  | none =>
    obtain ⟨what, wrong⟩ := ends.of_fault (bind_error (theAgent_undefined alive) _)
    cases wrong
  | some agent =>
    have ends := ends.congr (bind_ok (theAgent_ok alive) _)
    have ends := ends.congr (bind_ok (editAgent_apply _) _)
    have unset := (unplayed.players _ _ alive).1
    have marked := registry_active alive (fun agent => { agent with cleaned := true }) rfl
    cases attached : agent.hasModule with
    | false =>
      have inactive : agent.active = false := by
        simp only [UPlayerAgent.active, attached, Bool.false_and]
      apply CleansUp.dropped ((congrArg (Option.any UPlayerAgent.active) alive).trans inactive)
      simp only [attached, Bool.not_false, if_true] at ends
      cases ends.of_ok rfl
      refine .quiet unplayed (quiet_edit ?_ fun _ unset absent => ⟨unset, absent⟩)
      intro other found
      cases alive.symm.trans found
      exact ⟨rfl, by simp [UPlayerAgent.active, attached]⟩
    | true =>
      simp only [attached, Bool.not_true, Bool.false_eq_true, if_false] at ends
      have nobody : cleanUpPlayer factory now id agent = pure () := by
        simp only [cleanUpPlayer, unset]
      rw [nobody] at ends
      have ends := ends.congr (bind_ok (pure_apply _ _) _)
      have running : (s.edit id fun agent => { agent with cleaned := true }).state = .running := by
        rw [UGateway.edit_frame]
        exact unplayed.running
      cases ends.of_ok (removeAgent_running running _)
      have flag : UPlayerAgent.active { agent with cleaned := true } = false := Bool.and_false _
      rw [flag] at marked
      have registry := congrArg (fun r : Registry => { r with
        waiting := r.waiting.erase agent.key }) marked
      have players : NoPlayers (s.edit id fun agent => { agent with cleaned := true }) :=
        unplayed.players.edit fun _ unset absent => ⟨unset, absent⟩
      refine .retired (.of_step unplayed ?_ ⟨running, players, fun pid => ?_⟩)
      · exact (Registry.Step.retire (registry_key alive)).of_eq registry
      · rw [UGateway.edit_frame]
        exact unplayed.uncached pid

/-- What a turn of the accept loop did. -/
inductive Accepts (s : UGateway) (key : String) (t : UGateway) : Prop where
  | registered (free : s.agentMap.lookup key = none) (refines : Refines (.enroll key) s t)
  | dropped (taken : (s.agentMap.lookup key).isSome) (refines : Refines (.refuse key) s t)

/-- The gateway with a further agent, which is not registered. -/
def UGateway.allocate (s : UGateway) (agent : UPlayerAgent) : UGateway :=
  { s with agents := s.agents.insert s.nextAgent agent, nextAgent := s.nextAgent + 1 }

theorem allocate_registry (s : UGateway) (agent : UPlayerAgent) :
    (s.allocate agent).registry = s.registry.allocate agent.key agent.active := by
  simp only [UGateway.allocate, UGateway.registry, Registry.allocate, Registry.mk.injEq, true_and,
    and_true]
  constructor
  · symm
    rw [Function.update_eq_iff]
    constructor
    · rw [AList.lookup_insert, Option.map_some]
    · intro other different
      rw [AList.lookup_insert_ne different]
  · symm
    rw [Function.update_eq_iff]
    constructor
    · rw [AList.lookup_insert, Option.any_some]
    · intro other different
      rw [AList.lookup_insert_ne different]

theorem Playerless.allocate (playerless : Playerless s) (address : String) (unixTime : Int) :
    Playerless (s.allocate (.new address unixTime)) := by
  constructor
  · exact playerless.running
  · intro id agent alive
    simp only [UGateway.allocate, Table.lookup_insert_ite] at alive
    split at alive
    · cases alive
      exact ⟨rfl, rfl⟩
    · exact playerless.players id agent alive
  · exact playerless.uncached

/-- The gateway with a further agent, which is registered and waits. -/
def UGateway.enter (s : UGateway) (agent : UPlayerAgent) (handler : IAgentHandler) : UGateway :=
  { s.allocate agent with agentMap := s.agentMap.insert agent.key s.nextAgent }.edit s.nextAgent
    (UPlayerAgent.initial handler)

theorem enter_registry (s : UGateway) (agent : UPlayerAgent) (unused : agent.cleaned = false)
    (handler : IAgentHandler) : (s.enter agent handler).registry =
      { s.registry.allocate agent.key true with
        waiting := s.agentMap.insert agent.key s.nextAgent } := by
  have alive : { s.allocate agent with
      agentMap := s.agentMap.insert agent.key s.nextAgent }.agents.lookup s.nextAgent =
        some agent := AList.lookup_insert _
  have allocated := congrArg (fun r : Registry => { r with
    waiting := s.agentMap.insert agent.key s.nextAgent }) (allocate_registry s agent)
  have active : UPlayerAgent.active (agent.initial handler) = true := by
    simp [UPlayerAgent.active, UPlayerAgent.initial, unused]
  rw [UGateway.enter, registry_active alive _ rfl, active]
  have marked := congrArg (fun r : Registry => { r with
    active := Function.update r.active s.nextAgent true }) allocated
  have once := congrArg (fun active => { s.registry.allocate agent.key true with
    waiting := s.agentMap.insert agent.key s.nextAgent, active })
    (Function.update_idem (a := s.nextAgent) agent.active true s.registry.active)
  exact marked.trans once

theorem Unplayed.enter (unplayed : Unplayed s) (address : String) (unixTime : Int)
    (free : s.agentMap.lookup (UPlayerAgent.new address unixTime).key = none)
    (handler : IAgentHandler) :
    Refines (.enroll (UPlayerAgent.new address unixTime).key) s
      (s.enter (.new address unixTime) handler) := by
  have allocated := unplayed.toPlayerless.allocate address unixTime
  refine .of_step unplayed ((Registry.Step.enroll free).of_eq ?_) ⟨?_, ?_, fun pid => ?_⟩
  · exact enter_registry s _ rfl handler
  · rw [UGateway.enter, UGateway.edit_frame]
    exact unplayed.running
  · rw [UGateway.enter]
    exact NoPlayers.edit (by exact allocated.players) fun _ unset absent => ⟨unset, absent⟩
  · rw [UGateway.enter, UGateway.edit_frame]
    exact unplayed.uncached pid

theorem waitForClient_cases {address : String} {unixTime : Int} (unplayed : Unplayed s)
    (ends : Ends (waitForClient factory address unixTime) s t) :
    Accepts s (UPlayerAgent.new address unixTime).key t := by
  have named : (UPlayerAgent.new address unixTime).key ≠ "" := by
    simp [UPlayerAgent.new]
  have verified : (s.login.any fun login => !login.verifyAddress address) = false := by
    cases s.login <;> rfl
  simp only [waitForClient] at ends
  have ends := ends.congr (get_bind _ _)
  simp only [unplayed.running, verified, named, ne_eq, not_true_eq_false, Bool.false_eq_true,
    if_false] at ends
  have ends := ends.congr (modify_bind _ _ _)
  cases taken : s.agentMap.lookup (UPlayerAgent.new address unixTime).key with
  | none =>
    simp only [taken, Option.isSome_none, Bool.false_eq_true, if_false] at ends
    have ends := ends.congr (modify_bind _ _ _)
    have ends := ends.congr (bind_ok (editAgent_apply _) _)
    have refines := unplayed.enter address unixTime taken (factory.createAgentHandler s.nextAgent)
    have connects : Within Quiet (editAgent s.nextAgent UPlayerAgent.connectToClient) :=
      editAgent_quiet (fun _ => ⟨rfl, rfl⟩) fun _ unset absent => ⟨unset, absent⟩
    exact .registered taken (refines.and_quiet (connects _ _ ends))
  | some holder =>
    simp only [taken, Option.isSome_some, if_true] at ends
    have refused : Refines (.refuse (UPlayerAgent.new address unixTime).key) s
        (s.allocate (.new address unixTime)) :=
      .of_step unplayed ((Registry.Step.refuse taken).of_eq (allocate_registry s _))
        (unplayed.toPlayerless.allocate address unixTime)
    exact .dropped (by rw [taken]; rfl) (refused.and_quiet (disconnect_quiet _ _ ends))

theorem collectCachedPlayer_quiet (point keepSec : Int) (maxSize : Int32) (order : List Int64) :
    Within Quiet (collectCachedPlayer point keepSec maxSize order) := by
  apply Within.modify
  intro s
  refine ⟨rfl, rfl, fun {pid} absent => ?_, id⟩
  apply Table.lookup_eraseAll
  rw [Option.eq_none_iff_forall_not_mem]
  intro node kept
  cases absent.symm.trans (Table.lookup_eraseIf kept)

/-- The complete operations of a gateway and of the network beside it. -/
inductive Action where
  | accept (address : String) (unixTime : Int)
  | login (key : String) (pid : Int64)
  | disconnect (id : AgentId)
  | losePeer (id : AgentId)
  | cleanUp (id : AgentId) (now : Int)
  | collect (point keepSec : Int) (maxSize : Int32) (order : List Int64)

def Action.run (factory : IPlayerFactory) : Action → GatewayM Unit
  | .accept address unixTime => waitForClient factory address unixTime
  | .login key pid => onPlayerLogin factory key pid
  | .disconnect id => Uranus.disconnect id
  | .losePeer id => editAgent id fun agent => { agent with peer := none }
  | .cleanUp id now => Uranus.cleanUp factory now id
  | .collect point keepSec maxSize order => collectCachedPlayer point keepSec maxSize order

def UGateway.step (factory : IPlayerFactory) (s : UGateway) (action : Action)
    (t : UGateway) : Prop := Ends (action.run factory) s t

def UGateway.following (factory : IPlayerFactory) (s : UGateway) (action : Action) :
    Option UGateway := after (action.run factory) s

theorem UGateway.following_step {action : Action}
    (came : s.following factory action = some t) : s.step factory action t :=
  ends_of_after came

/-- What an action did to the registry. -/
inductive Effect (s : UGateway) : Action → UGateway → Prop where
  | accepted {address : String} {unixTime : Int} {t : UGateway}
      (accepts : Accepts s (UPlayerAgent.new address unixTime).key t) :
      Effect s (.accept address unixTime) t
  | login {key : String} {pid : Int64} {t : UGateway} (login : Login s key pid t) :
      Effect s (.login key pid) t
  | cleaned {id : AgentId} {now : Int} {t : UGateway} (cleans : CleansUp s id t) :
      Effect s (.cleanUp id now) t
  | quiet {action : Action} {t : UGateway} (refines : Refines .stay s t) :
      Effect s action t

theorem UGateway.step_effect {action : Action} (unplayed : Unplayed s)
    (stepped : s.step factory action t) : Effect s action t := by
  cases action with
  | accept address unixTime => exact .accepted (waitForClient_cases unplayed stepped)
  | login key pid => exact .login (onPlayerLogin_cases unplayed stepped)
  | disconnect id => exact .quiet (.quiet unplayed (disconnect_quiet _ _ stepped))
  | losePeer id =>
    have lost : Within Quiet (editAgent id fun agent => { agent with peer := none }) :=
      editAgent_quiet (fun _ => ⟨rfl, rfl⟩) fun _ unset absent => ⟨unset, absent⟩
    exact .quiet (.quiet unplayed (lost _ _ stepped))
  | cleanUp id now => exact .cleaned (cleanUp_cases unplayed stepped)
  | collect point keepSec maxSize order =>
    exact .quiet (.quiet unplayed (collectCachedPlayer_quiet _ _ _ _ _ _ stepped))

theorem Effect.refines {action : Action} (unplayed : Unplayed s) (effect : Effect s action t) :
    ∃ change, Refines change s t := by
  have stays : Refines .stay s s := .quiet unplayed (Quiet.refl s)
  cases effect with
  | quiet refines => exact ⟨_, refines⟩
  | accepted accepts =>
    cases accepts with
    | registered free refines | dropped taken refines => exact ⟨_, refines⟩
  | login login =>
    cases login with
    | again online same kept | unknown free absent kept =>
      subst kept
      exact ⟨_, stays⟩
    | promoted free waits refines => exact ⟨_, refines⟩
  | cleaned cleans =>
    cases cleans with
    | dropped inactive refines | retired refines => exact ⟨_, refines⟩

end Uranus
