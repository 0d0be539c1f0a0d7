import Uranus.Foundation.Path
import Uranus.Gateway.Operation

/-! Who owns which player. The first login that takes an agent online leaves it
there without a player, because `SetUpPlayer` gives none to an agent that has
none. Runs without such a login keep the ownership of players. -/
namespace Uranus
open Foundation Program
variable {factory : IPlayerFactory} {s t : UGateway} {action : Action}

/-- Online agents own the player they are online with, under one id and under no
key, and no such player is cached. -/
structure Ownership (s : UGateway) : Prop where
  owns : ∀ {pid id}, s.playerMap.lookup pid = some id → ∃ agent player,
    s.agents.lookup id = some agent ∧ agent.player = some player ∧ player.playerID = pid
  apart : ∀ {key pid id}, s.agentMap.lookup key = some id → s.playerMap.lookup pid ≠ some id
  single : ∀ {pid pid' id}, s.playerMap.lookup pid = some id → s.playerMap.lookup pid' = some id →
    pid = pid'
  uncached : ∀ {pid id}, s.playerMap.lookup pid = some id → s.cachedMap.lookup pid = none

/-- No login takes a player from an agent that has none. -/
def Extracts (factory : IPlayerFactory) (s : UGateway) : Prop :=
  ∀ key pid later, onPlayerLogin factory key pid s ≠ .error .undefined later

def NobodyOnline (s : UGateway) : Prop := ∀ pid, s.playerMap.lookup pid = none

/-- The action takes no agent online. -/
def Unclaimed (s : UGateway) : Action → Prop
  | .login key _ => s.agentMap.lookup key = none
  | _ => True

theorem Ownership.nobodyOnline (ownership : Ownership s) (unplayed : Unplayed s) :
    NobodyOnline s := by
  intro pid
  cases online : s.playerMap.lookup pid with
  | none => rfl
  | some id =>
    obtain ⟨agent, player, alive, set, -⟩ := ownership.owns online
    cases set.symm.trans (unplayed.players id agent alive).1

theorem NobodyOnline.ownership (nobody : NobodyOnline s) : Ownership s := by
  constructor
  · intro pid id online
    cases (nobody pid).symm.trans online
  · intro key pid id waits online
    cases (nobody pid).symm.trans online
  · intro pid pid' id online
    cases (nobody pid).symm.trans online
  · intro pid id online
    cases (nobody pid).symm.trans online

theorem NobodyOnline.extracts (nobody : NobodyOnline s) (unplayed : Unplayed s)
    (factory : IPlayerFactory) : Extracts factory s := by
  intro key pid later ran
  obtain ⟨t, ends⟩ := onPlayerLogin_ends unplayed (nobody pid) factory key
  obtain ⟨what, wrong⟩ := ends.of_fault ran
  cases wrong

theorem Refines.online {change : Registry.Change} (refines : Refines change s t)
    (other : ∀ key pid, change ≠ .promote key pid) : t.playerMap = s.playerMap := by
  have step := refines.step
  generalize after : t.registry = r at step
  have online : t.playerMap = r.online := congrArg Registry.online after
  cases step with
  | promote waits free => exact absurd rfl (other _ _)
  | stay | enroll free | refuse taken | retire known => exact online

theorem NobodyOnline.step (nobody : NobodyOnline s) (unplayed : Unplayed s)
    (unclaimed : Unclaimed s action) (stepped : s.step factory action t) : NobodyOnline t := by
  have same : t.playerMap = s.playerMap := by
    cases UGateway.step_effect unplayed stepped with
    | quiet refines => exact refines.online (by simp)
    | accepted accepts =>
      cases accepts with
      | registered free refines | dropped taken refines => exact refines.online (by simp)
    | cleaned cleans =>
      cases cleans with
      | dropped inactive refines | retired refines => exact refines.online (by simp)
    | login login =>
      cases login with
      | again online same kept | unknown free absent kept => rw [kept]
      | promoted free waits refines => cases unclaimed.symm.trans waits
  intro pid
  rw [same]
  exact nobody pid

/-- A login with the key of a waiting agent puts it online. -/
theorem NobodyOnline.claimed (nobody : NobodyOnline s) (unplayed : Unplayed s)
    (claimed : ¬ Unclaimed s action) (stepped : s.step factory action t) :
    ¬ NobodyOnline t := by
  cases action with
  | login key pid =>
    cases onPlayerLogin_cases unplayed stepped with
    | again online same kept => cases (nobody pid).symm.trans online
    | unknown free absent kept => exact absurd absent claimed
    | @promoted id free waits refines =>
      intro empty
      have step := refines.step
      generalize after : t.registry = r at step
      cases step
      next other waits' free' =>
        have online : t.playerMap.lookup pid = some other := by
          rw [show t.playerMap = _ from congrArg Registry.online after]
          exact AList.lookup_insert _
        cases (empty pid).symm.trans online
  | accept | disconnect | losePeer | cleanUp | collect => exact absurd trivial claimed

/-- Over every run of a gateway that starts without agents: players are owned as
stated, and no login extracts one from an agent without, in every state if and
only if no login of the run uses the key of a waiting agent. -/
theorem ownership_iff_unclaimed (factory : IPlayerFactory) (login : Option ULoginAuth)
    {path : List (Action × UGateway)}
    (run : Transition.Path (UGateway.step factory) { UGateway.started with login } path) :
    Transition.Always (fun s => Ownership s ∧ Extracts factory s)
        { UGateway.started with login } path ↔
      Transition.Every Unclaimed { UGateway.started with login } path := by
  have start : NobodyOnline { UGateway.started with login } := fun pid => rfl
  have unplayed : Unplayed { UGateway.started with login } := Unplayed.started login
  apply run.always_iff_every (J := Unplayed) _ _ _ unplayed
    ⟨start.ownership, start.extracts unplayed factory⟩
  · intro s action t unplayed stepped
    obtain ⟨change, refines⟩ := (UGateway.step_effect unplayed stepped).refines unplayed
    exact refines.unplayed
  · intro s action t unplayed owned unclaimed stepped
    have nobody := (owned.1.nobodyOnline unplayed).step unplayed unclaimed stepped
    obtain ⟨change, refines⟩ := (UGateway.step_effect unplayed stepped).refines unplayed
    exact ⟨nobody.ownership, nobody.extracts refines.unplayed factory⟩
  · intro s action t unplayed owned claimed stepped after
    obtain ⟨change, refines⟩ := (UGateway.step_effect unplayed stepped).refines unplayed
    exact (owned.1.nobodyOnline unplayed).claimed unplayed claimed stepped
      (after.1.nobodyOnline refines.unplayed)

/-- A client connects and logs in as player 7. -/
def firstLogin : List (Action × UGateway) :=
  Transition.trace (UGateway.following plainFactory) UGateway.started
    [.accept "10.0.0.1" 1000, .login "10.0.0.1-1000" 7]

theorem firstLogin_run : Transition.Path (UGateway.step plainFactory) UGateway.started firstLogin :=
  Transition.trace_path UGateway.following_step _

/-- The agent is online without a player, and the next login of its player
dereferences a null pointer. -/
theorem firstLogin_unowned :
    Transition.Path (UGateway.step plainFactory) UGateway.started firstLogin ∧
    firstLogin.length = 2 ∧
    ¬ Transition.Always (fun s => Ownership s ∧ Extracts plainFactory s)
      UGateway.started firstLogin ∧
    ¬ Ownership (Transition.last UGateway.started firstLogin) ∧
    ∃ later, onPlayerLogin plainFactory "10.0.0.2-1000" 7
      (Transition.last UGateway.started firstLogin) = .error .undefined later := by
  have online : (Transition.last UGateway.started firstLogin).playerMap.lookup 7 = some 0 := by
    decide +kernel
  have unset : ((Transition.last UGateway.started firstLogin).agents.lookup 0).bind
      UPlayerAgent.player = none := by decide +kernel
  have unowned : ¬ Ownership (Transition.last UGateway.started firstLogin) := by
    intro ownership
    obtain ⟨agent, player, alive, set, -⟩ := ownership.owns online
    rw [alive] at unset
    cases set.symm.trans unset
  refine ⟨firstLogin_run, by decide +kernel, fun always => unowned always.last.1, unowned, ?_⟩
  exact ⟨_, rfl⟩

theorem ownership_iff_unclaimed_firstLogin :
    Transition.Always (fun s => Ownership s ∧ Extracts plainFactory s) UGateway.started firstLogin ↔
      Transition.Every Unclaimed UGateway.started firstLogin :=
  ownership_iff_unclaimed plainFactory (some ⟨.running, ∅⟩) firstLogin_run

end Uranus
