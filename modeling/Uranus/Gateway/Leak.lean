import Uranus.Gateway.Connection
import Uranus.Gateway.Ownership

/-! What becomes of a connection. Agents leave the maps in `CleanUp` only, which
the coroutine that `SetUpPlayer` starts calls, and which it never starts: a
connection that was registered stays registered after all its coroutines ended. -/
namespace Uranus
open Foundation Program Interleaving
variable {factory : IPlayerFactory} {parser : ILoginHandler} {s t u : UGateway} {id : AgentId}

/-- From a gateway where nobody has a player: nobody is given one, and the agents
in the maps stay there. -/
def Retains (s t : UGateway) : Prop :=
  Unplayed s → Unplayed t ∧ s.nextAgent ≤ t.nextAgent ∧
    ∀ id, id < s.nextAgent → (t.registry.Held id ↔ s.registry.Held id)

theorem Retains.trans (first : Retains s t) (second : Retains t u) : Retains s u := by
  intro unplayed
  obtain ⟨unplayed, upper, held⟩ := first unplayed
  obtain ⟨unplayed, further, still⟩ := second unplayed
  have kept (id : AgentId) (old : id < s.nextAgent) : u.registry.Held id ↔ s.registry.Held id :=
    (still id (old.trans_le upper)).trans (held id old)
  exact ⟨unplayed, upper.trans further, kept⟩

theorem Refines.retains {change : Registry.Change} (refines : Refines change s t)
    (kept : ∀ id, change ≠ .retire id) : Unplayed t ∧ s.nextAgent ≤ t.nextAgent ∧
      ∀ id, id < s.nextAgent → (t.registry.Held id ↔ s.registry.Held id) := by
  have same (id : AgentId) (old : id < s.nextAgent) : t.registry.Held id ↔ s.registry.Held id :=
    refines.step.held_iff kept (Nat.ne_of_lt old)
  exact ⟨refines.unplayed, refines.step.next_le, same⟩

theorem Quiet.retains (quiet : Quiet s t) : Retains s t := by
  intro unplayed
  exact (Refines.quiet unplayed quiet).retains (by simp)

instance : IsPreorder UGateway Retains where
  refl s := (Quiet.refl s).retains
  trans _ _ _ := Retains.trans

section
variable {A : Type} {program : GatewayM A}

theorem retains_of_quiet (quiet : Within Quiet program) : Within Retains program :=
  fun s t ends => (quiet s t ends).retains

theorem endReading_quiet : Within Quiet (editAgent id UPlayerAgent.endReading) :=
  editAgent_quiet (fun _ => ⟨rfl, rfl⟩) fun _ unset absent => ⟨unset, absent⟩

theorem giveUp_quiet : Within Quiet (giveUp id : GatewayM (Option A)) := by
  apply Within.bind disconnect_quiet
  intro _
  exact Within.bind endReading_quiet fun _ => Within.pure none

theorem catching_quiet {body : GatewayM (Option A)} (quiet : Within Quiet body) :
    Within Quiet (catching id body) :=
  Within.recover quiet giveUp_quiet

theorem catching_retains {body : GatewayM (Option A)} (retains : Within Retains body) :
    Within Retains (catching id body) :=
  Within.recover retains (retains_of_quiet giveUp_quiet)

end

theorem recordLogin_quiet (update : Table String Int → Table String Int) :
    Within Quiet (recordLogin update) := Within.modify fun _ => ⟨rfl, rfl, id, id⟩

theorem receivePackage_quiet (player : IPlayerBase) (pkg : FPacket) :
    Within Quiet (receivePackage factory id player pkg) := by
  unfold receivePackage
  split
  · exact Within.pure ()
  split
  · exact editAgent_quiet (fun _ => ⟨rfl, rfl⟩) fun _ unset absent => ⟨unset, absent⟩
  split
  · exact Within.of_same (callHook_same _)
  · exact Within.pure ()

theorem readTurn_quiet (outcome : ReadOutcome) :
    Within Quiet (readTurn factory parser id outcome) := by
  cases outcome with
  | ended =>
    exact Within.bind endReading_quiet fun _ => Within.pure none
  | failed => exact giveUp_quiet
  | received pkg now =>
    apply Within.bind (R := Quiet) (Within.of_same theAgent_same)
    intro agent
    cases agent.player with
    | none => exact checkRequest_within recordLogin_quiet parser now agent.key pkg
    | some player => exact Within.bind (receivePackage_quiet player pkg) fun _ => Within.pure none

/-- The coroutine that `SetUpPlayer` would start is never there. -/
theorem processTurn_retains (now : Int) (failed : Bool) :
    Within Retains (processTurn factory now id failed) := by
  intro s t ends unplayed
  cases alive : s.agents.lookup id with
  | none =>
    obtain ⟨what, wrong⟩ := ends.of_fault (bind_error (theAgent_undefined alive) _)
    cases wrong
  | some agent =>
    have absent := (unplayed.players id agent alive).2
    have ends := ends.congr (bind_ok (theAgent_ok alive) _)
    simp only [absent] at ends
    cases ends.of_ok rfl
    exact (Quiet.refl s).retains unplayed

theorem waitForClient_retains (address : String) (unixTime : Int) :
    Within Retains (waitForClient factory address unixTime) := by
  intro s t ends unplayed
  cases waitForClient_cases unplayed ends with
  | registered free refines | dropped taken refines => exact refines.retains (by simp)

theorem alike_retains {update : UPlayerAgent → UPlayerAgent}
    (alike : ∀ agent, UPlayerAgent.Alike agent (update agent)) :
    Within Retains (editAgent id update) := by
  apply retains_of_quiet
  apply editAgent_quiet
  · intro agent
    exact ⟨(alike agent).key, (alike agent).active⟩
  · intro agent unset absent
    exact ⟨(alike agent).player.trans unset, (alike agent).processing.trans absent⟩

theorem turn_retains (turn : Turn) : Within Retains (turn.run factory) := by
  cases turn with
  | accept address unixTime => exact waitForClient_retains address unixTime
  | handshake id initialised => exact alike_retains (UPlayerAgent.alike_handshakeTurn initialised)
  | read id outcome => exact Within.pure ()
  | write id encoded => exact alike_retains (UPlayerAgent.alike_writeTurn encoded)
  | watch id outcome => exact alike_retains (UPlayerAgent.alike_watchTurn outcome)
  | join id => exact alike_retains UPlayerAgent.alike_joinTurn
  | process id now failed => exact processTurn_retains now failed
  | cancelSenders id => exact alike_retains UPlayerAgent.alike_cancelSenders
  | disconnect id => exact retains_of_quiet disconnect_quiet
  | losePeer id => exact alike_retains fun _ => ⟨rfl, rfl, rfl, rfl⟩
  | collect point keepSec maxSize order =>
    exact retains_of_quiet (collectCachedPlayer_quiet point keepSec maxSize order)

theorem loginHead_retains (key : String) (pid : Int64) : Within Retains (loginHead key pid) := by
  intro s t ends unplayed
  have registered := loginRegister_cases unplayed key pid
  rw [← loginHead_running unplayed.running] at registered
  generalize ran : loginHead key pid s = result at registered
  cases registered with
  | again online same | unknown free absent =>
    cases ends.of_ok ran
    exact (Quiet.refl s).retains unplayed
  | displaces online other =>
    obtain ⟨what, wrong⟩ := ends.of_fault ran
    cases wrong
  | promoted free waits =>
    cases ends.of_ok ran
    exact (unplayed.remap _ _ (.promote waits free)).retains (by simp)

theorem part_retains (task : Task) : Within Retains (task.part factory parser) := by
  cases task with
  | turn event =>
    have whole : Within Retains (do
        event.run factory
        pure none : GatewayM (Option Task)) :=
      Within.bind (turn_retains event) fun _ => Within.pure none
    cases event with
    | read id outcome =>
      apply retains_of_quiet
      apply Within.bind (R := Quiet) (Within.of_same theAgent_same)
      intro agent
      split
      · exact Within.pure none
      · exact Within.bind (catching_quiet (readTurn_quiet outcome)) fun pid => Within.pure _
    | accept | handshake | write | watch | join | process | cancelSenders | disconnect | losePeer
    | collect => exact whole
  | success caller key pid =>
    exact retains_of_quiet (Within.bind (recordLogin_quiet _) fun _ => Within.pure _)
  | login caller key pid =>
    exact Within.bind (catching_retains (loginHead_retains key pid)) fun call => Within.pure _
  | loginCache caller call =>
    exact retains_of_quiet (Within.bind (loginCache_quiet call) fun _ => Within.pure _)
  | loginFinish caller call =>
    apply retains_of_quiet
    apply catching_quiet
    exact Within.bind (loginFinish_quiet call) fun _ => Within.pure none

variable {config later : Connections} {label : Move Task}

/-- Every step of the connections is a step of the gateway that retains its agents. -/
theorem Connections.step_retains (stepped : Connections.step factory parser config label later) :
    Retains config.shared later.shared := by
  cases stepped with
  | invoke fresh => exact (Quiet.refl _).retains
  | advance pending reaches => exact part_retains _ _ _ reaches.ends

/-- `Disconnect` has been called for the agent and its coroutines have finished. -/
def Over (s : UGateway) (id : AgentId) : Prop :=
  ∃ agent, s.agents.lookup id = some agent ∧ agent.Over

/-- No map holds the agent once it is over. -/
def Released (id : AgentId) (config : Connections) : Prop :=
  Over config.shared id → ¬ config.shared.registry.Held id

/-- The agent is in a map or in none, for good. -/
structure Settled (id : AgentId) (held : Prop) (config : Connections) : Prop where
  unplayed : Unplayed config.shared
  old : id < config.shared.nextAgent
  same : config.shared.registry.Held id ↔ held

theorem Settled.step {held : Prop} (settled : Settled id held config)
    (stepped : Connections.step factory parser config label later) : Settled id held later := by
  obtain ⟨unplayed, upper, same⟩ := Connections.step_retains stepped settled.unplayed
  exact ⟨unplayed, settled.old.trans_le upper, (same id settled.old).trans settled.same⟩

/-- A connection is registered when it is accepted, unless its key is taken. -/
theorem accepted_settled {address : String} {unixTime : Int} (unplayed : Unplayed config.shared)
    (stepped : Connections.step factory parser config
      (.advance (.turn (.accept address unixTime))) later) :
    Settled config.shared.nextAgent
      (config.shared.agentMap.lookup (UPlayerAgent.new address unixTime).key = none) later := by
  cases stepped with
  | advance pending reaches =>
    obtain ⟨none, ends⟩ := reaches.last
    cases waitForClient_cases unplayed ends with
    | registered free refines =>
      obtain ⟨held, old⟩ := refines.step.enroll_held
      exact ⟨refines.unplayed, old, iff_of_true held free⟩
    | dropped taken refines =>
      obtain ⟨unheld, old⟩ := refines.step.refuse_unheld unplayed.formed
      exact ⟨refines.unplayed, old, iff_of_false unheld (Option.isSome_iff_ne_none.mp taken)⟩

/-- Over every run and for every accepted connection of it whose coroutines have
finished in the end: no map holds its agent at any time when it is over if and only
if the connection was refused, because its key was taken. -/
theorem released_iff_refused (factory : IPlayerFactory) (parser : ILoginHandler)
    (login : Option ULoginAuth) {before after : List (Move Task × Connections)}
    {address : String} {unixTime : Int} {accepted : Connections}
    (run : Transition.Path (Connections.step factory parser)
      ⟨{ UGateway.started with login }, 0⟩
      (before ++ (.advance (.turn (.accept address unixTime)), accepted) :: after))
    (ended : Over (Transition.last accepted after).shared
      (Transition.last ⟨{ UGateway.started with login }, 0⟩ before).shared.nextAgent) :
    Transition.Always
        (Released (Transition.last ⟨{ UGateway.started with login }, 0⟩ before).shared.nextAgent)
        accepted after ↔
      ((Transition.last ⟨{ UGateway.started with login }, 0⟩ before).shared.agentMap.lookup
        (UPlayerAgent.new address unixTime).key).isSome := by
  obtain ⟨start, stepped, rest⟩ := Transition.path_append.mp run
  have always : Transition.Always (fun config : Connections => Unplayed config.shared)
      ⟨{ UGateway.started with login }, 0⟩ before := by
    apply start.invariant _ (Unplayed.started login)
    intro config label later unplayed stepped
    exact (Connections.step_retains stepped unplayed).1
  have settled := rest.invariant (fun settled stepped => Settled.step settled stepped)
    (accepted_settled always.last stepped)
  rw [Option.isSome_iff_ne_none]
  constructor
  · intro released free
    exact released.last ended (settled.last.same.mpr free)
  · intro taken
    exact settled.imp fun config settled _ held => taken (settled.same.mp held)

def connections (config : Connections) (labels : List (Move Task)) :
    List (Move Task × Connections) :=
  Transition.trace (following (Task.part plainFactory emptyParser) Task.Starts) config labels

theorem connections_path (config : Connections) (labels : List (Move Task)) :
    Transition.Path (Connections.step plainFactory emptyParser) config
      (connections config labels) :=
  Transition.trace_path following_step labels

def clientOffered : List (Move Task × Connections) :=
  connections ⟨UGateway.started, 0⟩ [.invoke (.turn (.accept "10.0.0.1" 1000))]

def clientAccepted : Connections :=
  Transition.last ⟨UGateway.started, 0⟩ (connections ⟨UGateway.started, 0⟩
    [.invoke (.turn (.accept "10.0.0.1" 1000)), .advance (.turn (.accept "10.0.0.1" 1000))])

/-- The handshake of the codec fails, which disconnects the client. -/
def handshakeFailed : List (Move Task × Connections) :=
  connections clientAccepted
    [.invoke (.turn (.handshake 0 (some false))), .advance (.turn (.handshake 0 (some false)))]

theorem handshakeFailed_run : Transition.Path (Connections.step plainFactory emptyParser)
    ⟨UGateway.started, 0⟩
    (clientOffered ++ (.advance (.turn (.accept "10.0.0.1" 1000)), clientAccepted) ::
      handshakeFailed) := by
  refine Transition.path_append.mpr ⟨connections_path _ _, ?_, connections_path _ _⟩
  exact following_step rfl

theorem handshakeFailed_over : Over (Transition.last clientAccepted handshakeFailed).shared
    (Transition.last ⟨UGateway.started, 0⟩ clientOffered).shared.nextAgent := by
  refine ⟨_, rfl, ⟨rfl, rfl, rfl⟩, .inr rfl, .inl rfl, ?_⟩
  decide +kernel

/-- The agent is over, and still waits in the map of agents. -/
theorem handshakeFailed_leaks :
    Transition.Path (Connections.step plainFactory emptyParser) ⟨UGateway.started, 0⟩
      (clientOffered ++ (.advance (.turn (.accept "10.0.0.1" 1000)), clientAccepted) ::
        handshakeFailed) ∧
    Over (Transition.last clientAccepted handshakeFailed).shared 0 ∧
    (Transition.last clientAccepted handshakeFailed).shared.agentMap.lookup "10.0.0.1-1000" =
      some 0 ∧
    ¬ Released 0 (Transition.last clientAccepted handshakeFailed) := by
  have waits : (Transition.last clientAccepted handshakeFailed).shared.agentMap.lookup
      "10.0.0.1-1000" = some 0 := by decide +kernel
  have ended : Over (Transition.last clientAccepted handshakeFailed).shared 0 :=
    handshakeFailed_over
  have held : (Transition.last clientAccepted handshakeFailed).shared.registry.Held 0 :=
    .inl ⟨_, waits⟩
  exact ⟨handshakeFailed_run, ended, waits, fun released => released ended held⟩

theorem released_iff_refused_handshakeFailed :
    Transition.Always
        (Released (Transition.last ⟨UGateway.started, 0⟩ clientOffered).shared.nextAgent)
        clientAccepted handshakeFailed ↔
      ((Transition.last ⟨UGateway.started, 0⟩ clientOffered).shared.agentMap.lookup
        (UPlayerAgent.new "10.0.0.1" 1000).key).isSome :=
  released_iff_refused plainFactory emptyParser (some ⟨.running, ∅⟩) handshakeFailed_run
    handshakeFailed_over

end Uranus
