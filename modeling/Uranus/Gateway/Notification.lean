import Uranus.Gateway.Connection
import Mathlib.Data.List.ReduceOption
import Mathlib.Logic.Function.Iterate

/-! Telling a client that it is rejected or displaced. The write loop does its
part: it writes up to the package that tells and disconnects. No login puts such a
package into the queue, because `OnLoginFailed` and `OnRepeated` throw for every
agent that has a handler and dereference a null pointer for every other. -/
namespace Uranus
open Foundation Program
variable {factory : IPlayerFactory} {parser : ILoginHandler} {s t u : UGateway} {id : AgentId}

/-- The packages of a queue that go to the client. -/
def clientPackages (queue : List (Option FPacket)) : List FPacket :=
  queue.reduceOption.filter fun pkg => pkg.header.target == clientTargetId

/-- The write loop with a codec that encodes whatever it is given. -/
def UPlayerAgent.writePackage (turns : Nat) (agent : UPlayerAgent) : UPlayerAgent :=
  (UPlayerAgent.writeTurn (some true))^[turns] agent

/-- The loop writes the first `packages` of its queue and then disconnects. -/
def WritesThrough (agent : UPlayerAgent) (packages : List FPacket) : Prop :=
  ∃ bound, ∀ turns, bound ≤ turns →
    (agent.writePackage turns).written = agent.written ++ packages ∧
    (agent.writePackage turns).socketOpen = false ∧ (agent.writePackage turns).writing = false

/-- A running write loop. -/
structure UPlayerAgent.Writing (agent : UPlayerAgent) : Prop where
  writing : agent.writing = true
  socket : agent.socketOpen = true
  channel : agent.outputOpen = true

namespace UPlayerAgent
variable {agent : UPlayerAgent} {rest : List (Option FPacket)} {pkg : FPacket}

theorem writePackage_ended (ended : agent.writing = false) (turns : Nat) :
    agent.writePackage turns = agent := by
  induction turns with
  | zero => rfl
  | succ turns ih =>
    have stays : agent.writeTurn (some true) = agent := by simp [writeTurn, ended]
    rw [writePackage, Function.iterate_succ_apply, stays]
    exact ih

theorem writeTurn_null (running : agent.Writing) (queue : agent.output = none :: rest) :
    agent.writeTurn (some true) =
      { agent with output := rest, written := agent.written ++ [] } := by
  simp [writeTurn, running.writing, running.socket, running.channel, queue]

theorem writeTurn_other (running : agent.Writing) (queue : agent.output = some pkg :: rest)
    (other : pkg.header.target ≠ clientTargetId) :
    agent.writeTurn (some true) =
      { agent with output := rest, written := agent.written ++ [] } := by
  simp [writeTurn, running.writing, running.socket, running.channel, queue, other]

theorem writeTurn_written (running : agent.Writing) (queue : agent.output = some pkg :: rest)
    (client : pkg.header.target = clientTargetId) (further : terminal pkg = false) :
    agent.writeTurn (some true) =
      { agent with output := rest, written := agent.written ++ [pkg] } := by
  simp [writeTurn, running.writing, running.socket, running.channel, queue, client, further]

theorem writeTurn_terminal (running : agent.Writing) (queue : agent.output = some pkg :: rest)
    (client : pkg.header.target = clientTargetId) (last : terminal pkg = true) :
    agent.writeTurn (some true) =
      { agent.disconnect with
        writing := false, output := rest, written := agent.written ++ [pkg] } := by
  simp [writeTurn, running.writing, running.socket, running.channel, queue, client, last]

/-- A turn that goes on hands the rest of the queue to the rest of the loop. -/
theorem writesThrough_turn {packages first : List FPacket}
    (turned : agent.writeTurn (some true) =
      { agent with output := rest, written := agent.written ++ first })
    (through : WritesThrough { agent with output := rest, written := agent.written ++ first }
      packages) : WritesThrough agent (first ++ packages) := by
  obtain ⟨bound, through⟩ := through
  use bound + 1
  intro turns enough
  obtain ⟨turns, rfl⟩ := Nat.exists_eq_add_of_le' (Nat.le_trans (Nat.le_add_left 1 bound) enough)
  have next : agent.writePackage (turns + 1) =
      { agent with output := rest, written := agent.written ++ first }.writePackage turns := by
    rw [writePackage, Function.iterate_succ_apply, turned]
    rfl
  rw [next]
  obtain ⟨written, ended⟩ := through turns (by omega)
  exact ⟨written.trans (List.append_assoc ..), ended⟩

/-- The loop writes the packages for the client up to the first that tells it to
go, and then disconnects; nothing behind it in the queue is written. -/
theorem writesThrough (running : agent.Writing) {before after : List (Option FPacket)}
    (queue : agent.output = before ++ some pkg :: after)
    (earlier : ∀ other ∈ clientPackages before, terminal other = false)
    (client : pkg.header.target = clientTargetId) (last : terminal pkg = true) :
    WritesThrough agent (clientPackages before ++ [pkg]) := by
  induction before generalizing agent with
  | nil =>
    use 1
    intro turns enough
    obtain ⟨turns, rfl⟩ := Nat.exists_eq_add_of_le' enough
    rw [writePackage, Function.iterate_succ_apply, writeTurn_terminal running queue client last]
    have ended : writePackage turns { agent.disconnect with
        writing := false, output := after, written := agent.written ++ [pkg] } = _ :=
      writePackage_ended rfl turns
    rw [writePackage] at ended
    rw [ended]
    exact ⟨rfl, rfl, rfl⟩
  | cons entry before ih =>
    have next (written : List FPacket) :
        Writing { agent with output := before ++ some pkg :: after, written } :=
      ⟨running.writing, running.socket, running.channel⟩
    cases entry with
    | none =>
      have through : WritesThrough agent ([] ++ (clientPackages before ++ [pkg])) :=
        writesThrough_turn (writeTurn_null running queue) (ih (next _) rfl earlier)
      exact through
    | some other =>
      by_cases target : other.header.target = clientTargetId
      · have packages : clientPackages (some other :: before) = other :: clientPackages before := by
          simp [clientPackages, List.reduceOption_cons_of_some, target]
        rw [packages] at earlier ⊢
        have further := earlier other (List.mem_cons_self ..)
        have remaining := fun other member => earlier other (List.mem_cons_of_mem _ member)
        have through : WritesThrough agent ([other] ++ (clientPackages before ++ [pkg])) :=
          writesThrough_turn (writeTurn_written running queue target further)
            (ih (next _) rfl remaining)
        exact through
      · have packages : clientPackages (some other :: before) = clientPackages before := by
          simp [clientPackages, List.reduceOption_cons_of_some, target]
        rw [packages] at earlier ⊢
        have through : WritesThrough agent ([] ++ (clientPackages before ++ [pkg])) :=
          writesThrough_turn (writeTurn_other running queue target) (ih (next _) rfl earlier)
        exact through

end UPlayerAgent

/-- The output of every agent is as it was. -/
def SameOutput (s t : UGateway) : Prop :=
  ∀ id, (t.agents.lookup id).map UPlayerAgent.output = (s.agents.lookup id).map UPlayerAgent.output

theorem SameOutput.refl (s : UGateway) : SameOutput s s := fun _ => rfl

theorem SameOutput.trans (first : SameOutput s t) (second : SameOutput t u) : SameOutput s u :=
  fun id => (second id).trans (first id)

instance : IsPreorder UGateway SameOutput where
  refl := SameOutput.refl
  trans _ _ _ := SameOutput.trans

/-- A change of the gateway beside its agents. -/
theorem output_modify {update : UGateway → UGateway} (same : ∀ s, (update s).agents = s.agents) :
    Within SameOutput (modify update : GatewayM Unit) :=
  Within.modify fun s id => by rw [same]

theorem output_edit {update : UPlayerAgent → UPlayerAgent}
    (same : ∀ agent, (update agent).output = agent.output) :
    Within SameOutput (editAgent id update) := by
  apply Within.modify
  intro s other
  rw [UGateway.edit_lookup]
  split
  next is =>
    subst is
    cases s.agents.lookup other with
    | none => rfl
    | some agent => exact congrArg some (same agent)
  next => rfl

theorem output_setUpPlayer (plr : IPlayerBase) : Within SameOutput (setUpPlayer id plr) := by
  apply Within.bind (R := SameOutput) (Within.of_same theAgent_same)
  intro agent
  split
  · exact Within.pure ()
  exact Within.bind (Within.throwIf _ _) fun _ => output_edit fun _ => rfl

theorem output_enlist (key : String) (pid : Int64) (existed : Option AgentId)
    (player : FPlayerHandle) : Within SameOutput (enlist key pid existed player) := by
  apply Within.bind (R := SameOutput) Within.get
  intro s
  cases s.agentMap.lookup key with
  | none => exact Within.pure none
  | some id => exact Within.bind (output_modify fun _ => rfl) fun _ => Within.pure _

theorem output_extractPlayer : Within SameOutput (extractPlayer id) := by
  apply Within.bind (R := SameOutput) (Within.of_same theAgent_same)
  intro agent
  cases agent.player with
  | none => exact Within.throw _
  | some player => exact Within.bind (output_edit fun _ => rfl) fun _ => Within.pure _

theorem output_loginHead (key : String) (pid : Int64) : Within SameOutput (loginHead key pid) := by
  apply Within.bind (R := SameOutput) Within.get
  intro s
  split
  · exact Within.pure none
  apply Within.bind (R := SameOutput) Within.get
  intro s
  cases s.playerMap.lookup pid with
  | none => exact output_enlist key pid none none
  | some id =>
    apply Within.bind (R := SameOutput) (Within.of_same theAgent_same)
    intro agent
    split
    · exact Within.pure none
    apply Within.bind output_extractPlayer
    intro player
    exact Within.bind (output_modify fun _ => rfl) fun _ => output_enlist key pid _ _

theorem output_createPlayer : Within SameOutput createPlayer := by
  apply Within.bind (R := SameOutput) Within.get
  intro s
  exact Within.bind (output_modify fun _ => rfl) fun _ => Within.pure _

theorem output_loginCache (call : LoginCall) : Within SameOutput (loginCache call) := by
  intro s t ends
  cases ends.of_ok (loginCache_ok call s)
  exact fun id => rfl

theorem output_onPlayerLogin (key : String) (pid : Int64) :
    Within SameOutput (onPlayerLogin factory key pid) := by
  apply Within.bind (output_loginHead key pid)
  intro call
  cases call with
  | none => exact Within.pure ()
  | some call =>
    apply Within.bind (output_loginCache call)
    exact loginFinish_within output_createPlayer (fun _ plr => output_setUpPlayer plr) factory

theorem output_recordLogin (update : Table String Int → Table String Int) :
    Within SameOutput (recordLogin update) := output_modify fun _ => rfl

theorem output_onLoginRequest (now : Int) (key : String) (pkg : FPacket) :
    Within SameOutput (onLoginRequest factory parser now key pkg) := by
  apply Within.bind (checkRequest_within output_recordLogin parser now key pkg)
  intro pid
  cases pid with
  | none => exact Within.pure ()
  | some pid => exact Within.bind (output_recordLogin _) fun _ => output_onPlayerLogin key pid

/-- The call queues exactly one package of the server, for the client of the agent. -/
def Queues (program : GatewayM Unit) (s : UGateway) (id : AgentId) (packageID : UInt32) : Prop :=
  ∃ t agent later pkg, Ends program s t ∧ s.agents.lookup id = some agent ∧
    t.agents.lookup id = some later ∧ later.output = agent.output ++ [some pkg] ∧
    pkg.header.id = packageID ∧ pkg.header.source = serverSourceId ∧
    pkg.header.target = clientTargetId

theorem not_queues {program : GatewayM Unit} (same : Within SameOutput program) (s : UGateway)
    (id : AgentId) (packageID : UInt32) : ¬ Queues program s id packageID := by
  rintro ⟨t, agent, later, pkg, ends, before, after, queued, -⟩
  have kept := same s t ends id
  rw [before, after, Option.map_some, Option.map_some, Option.some.injEq, queued] at kept
  simp at kept

/-- In every state of a gateway and for every agent of it: no login request,
whatever it contains, queues a package that tells of the failure, and no login
queues one that tells of the displacement. -/
theorem notification_never (factory : IPlayerFactory) (parser : ILoginHandler) (s : UGateway)
    (id : AgentId) :
    (∀ now key pkg,
      ¬ Queues (onLoginRequest factory parser now key pkg) s id loginFailedPackageId) ∧
    ∀ key pid, ¬ Queues (onPlayerLogin factory key pid) s id loginRepeatedPackageId := by
  constructor
  · exact fun now key pkg => not_queues (output_onLoginRequest now key pkg) s id _
  · exact fun key pid => not_queues (output_onPlayerLogin key pid) s id _

/-- A connected client, before its first request. -/
def oneConnected : UGateway :=
  match waitForClient plainFactory "10.0.0.1" 1000 UGateway.started with
  | .ok _ s | .error _ s => s

/-- The client plays player 7 already, and another client is connected. -/
def twoConnected : UGateway :=
  match waitForClient plainFactory "10.0.0.2" 1001 { oneConnected with
    agentMap := ∅, playerMap := (∅ : Table Int64 AgentId).insert 7 0 } with
  | .ok _ s | .error _ s =>
    s.edit 0 fun agent => { agent with player := some ⟨0, 7, some 0⟩, processing := .looping }

/-- A request without a token and the login of another client with player 7: both
calls throw and leave the queue of the first client empty. -/
theorem oneConnected_untold :
    (oneConnected.agents.lookup 0).any (fun agent => agent.handler.isSome && agent.socketOpen) ∧
    oneConnected.agentMap.lookup "10.0.0.1-1000" = some 0 ∧
    (∃ later, onLoginRequest plainFactory emptyParser 0 "10.0.0.1-1000" .new oneConnected =
        .error (.exception "OnLoginFailed - Handler Is Null Pointer") later ∧
      (later.agents.lookup 0).map UPlayerAgent.output = some []) ∧
    ¬ Queues (onLoginRequest plainFactory emptyParser 0 "10.0.0.1-1000" .new) oneConnected 0
      loginFailedPackageId ∧
    (∃ later, onPlayerLogin plainFactory "10.0.0.2-1001" 7 twoConnected =
        .error (.exception "OnRepeated - Handler Is Null Pointer") later ∧
      (later.agents.lookup 0).map UPlayerAgent.output = some []) ∧
    ¬ Queues (onPlayerLogin plainFactory "10.0.0.2-1001" 7) twoConnected 0
      loginRepeatedPackageId := by
  refine ⟨by decide +kernel, by decide +kernel, ⟨_, rfl, by decide +kernel⟩, ?_,
    ⟨_, rfl, by decide +kernel⟩, ?_⟩
  · exact not_queues (output_onLoginRequest _ _ _) _ _ _
  · exact not_queues (output_onPlayerLogin _ _) _ _ _

end Uranus
