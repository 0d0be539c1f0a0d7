import Uranus.Gateway.Ownership

/-! Keys of connections. A key is the address and the second of an accepted
connection, and the accept loop looks for it among the waiting agents only, so a
key stays unique as long as no connection comes with the key of an agent that is
online. -/
namespace Uranus
open Foundation Program
variable {factory : IPlayerFactory} {s t : UGateway} {action : Action} {id : AgentId}

namespace Registry
variable {r u : Registry} {change : Change} {id other : AgentId} {key : String}

/-- Agents of the maps have different keys, and active agents are in the maps. -/
structure Unique (r : Registry) : Prop where
  keys : ∀ {id other}, r.Held id → r.Held other → r.key id = r.key other → id = other
  held : ∀ {id}, r.active id = true → r.Held id

/-- No agent is online with the key. -/
def Offline (r : Registry) (key : String) : Prop :=
  ∀ pid id, r.online.lookup pid = some id → r.key id ≠ some key

/-- What a change must meet to keep keys unique. -/
def Change.Distinct (r : Registry) : Change → Prop
  | .enroll key => r.Offline key
  | .retire id => r.active id = true
  | _ => True

/-- With an unused key, the agent that waits or is online with it is the caller. -/
theorem Unique.waits (unique : Unique r) (formed : WellFormed r) (active : r.active id = true)
    (known : r.key id = some key) (waits : r.waiting.lookup key = some other) : other = id := by
  have held : r.Held other := .inl ⟨key, waits⟩
  exact unique.keys held (unique.held active) ((formed.waits waits).trans known.symm)

theorem Unique.allocate (unique : Unique r) (formed : WellFormed r) (key : String) :
    Unique (r.allocate key false) := by
  have keep {id : AgentId} (held : r.Held id) : (r.allocate key false).key id = r.key id :=
    allocate_key_old (formed.ne_next (formed.held_known held))
  constructor
  · intro id other held held' same
    rw [keep held, keep held'] at same
    exact unique.keys held held' same
  · intro id active
    by_cases new : id = r.next
    · subst new
      have inactive : (r.allocate key false).active r.next = false := Function.update_self ..
      cases inactive.symm.trans active
    · exact unique.held ((Function.update_of_ne new _ _).symm.trans active)

/-- An agent with a key that nobody has is another one than the new agent. -/
theorem key_unused (formed : WellFormed r) (free : r.waiting.lookup key = none)
    (offline : r.Offline key) (held : r.Held id) : r.key id ≠ some key := by
  intro same
  rcases held with ⟨key', waits⟩ | ⟨pid, online⟩
  · have own := formed.waits waits
    cases same.symm.trans own
    cases free.symm.trans waits
  · exact offline pid id online same

theorem Unique.step (unique : Unique r) (formed : WellFormed r) (step : Step r change u)
    (distinct : change.Distinct r) : Unique u := by
  cases step with
  | stay => exact unique
  | refuse taken => exact unique.allocate formed _
  | @enroll key free =>
    have old {id : AgentId} (held : r.Held id) : (r.enroll key).key id = r.key id :=
      enroll_key_old (formed.ne_next (formed.held_known held))
    have new := enroll_key_new r key
    have unused {id : AgentId} (held : r.Held id) : (r.enroll key).key id ≠ some key := by
      rw [old held]
      exact key_unused formed free distinct held
    constructor
    · intro id other held held' same
      rcases (held_enroll free).mp held with held | rfl <;>
        rcases (held_enroll free).mp held' with held' | rfl
      · rw [old held, old held'] at same
        exact unique.keys held held' same
      · exact absurd (same.trans new) (unused held)
      · exact absurd (same.symm.trans new) (unused held')
      · rfl
    · intro id active
      apply (held_enroll free).mpr
      by_cases new : id = r.next
      · exact .inr new
      · exact .inl (unique.held ((Function.update_of_ne new _ _).symm.trans active))
  | promote waits free =>
    constructor
    · intro id other held held' alike
      have before := (held_promote waits free).mp held
      have before' := (held_promote waits free).mp held'
      exact unique.keys before before' alike
    · intro id active
      exact (held_promote waits free).mpr (unique.held active)
  | @retire key id known =>
    constructor
    · intro id' other held held' alike
      exact unique.keys (held_retire held) (held_retire held') alike
    · intro other active
      have different : other ≠ id := by
        rintro rfl
        have inactive : Function.update r.active other false other = false :=
          Function.update_self ..
        cases inactive.symm.trans active
      have active : r.active other = true := (Function.update_of_ne different _ _).symm.trans active
      rcases unique.held active with ⟨key', waits⟩ | online
      · left
        have apart : key' ≠ key := by
          rintro rfl
          exact different (unique.waits formed distinct known waits)
        exact ⟨key', (AList.lookup_erase_ne apart).trans waits⟩
      · exact .inr online

/-- A new agent with the key of an agent online. -/
theorem Step.stale (step : Step r (.enroll key) u) (formed : WellFormed r) {pid : Int64}
    (online : r.online.lookup pid = some id) (same : r.key id = some key) :
    ¬ ∀ {id other}, u.Held id → u.Held other → u.key id = u.key other → id = other := by
  intro keys
  cases step with
  | enroll free =>
    have known : (r.key id).isSome := by
      rw [same]
      rfl
    have different := formed.ne_next known
    have old := (held_enroll free).mpr (.inl (.inr ⟨pid, online⟩))
    have new := (held_enroll free).mpr (.inr rfl)
    exact different (keys old new ((enroll_key_old different).trans
      (same.trans (enroll_key_new r key).symm)))

end Registry

/-- What the key of a connection is relied on for. -/
structure DistinctKeys (factory : IPlayerFactory) (s : UGateway) : Prop where
  keys : ∀ {id other}, s.registry.Held id → s.registry.Held other →
    s.registry.key id = s.registry.key other → id = other
  cleanUp_own : ∀ {id other key now t}, s.registry.active id = true →
    s.step factory (.cleanUp id now) t → other ≠ id →
      s.agentMap.lookup key = some other → t.agentMap.lookup key = some other
  login_own : ∀ {id holder key pid}, s.registry.active id = true → s.registry.key id = some key →
    s.playerMap.lookup pid = some holder → s.registry.key holder = some key → holder = id

/-- `CleanUp` runs once for each registered agent. -/
def Due (s : UGateway) : Action → Prop
  | .cleanUp id _ => s.registry.active id = true
  | _ => True

def UGateway.dueStep (factory : IPlayerFactory) (s : UGateway) (action : Action)
    (t : UGateway) : Prop := s.step factory action t ∧ Due s action

instance (s : UGateway) (action : Action) : Decidable (Due s action) :=
  match action with
  | .cleanUp id _ => inferInstanceAs (Decidable (s.registry.active id = true))
  | .accept .. | .login .. | .disconnect _ | .losePeer _ | .collect .. => .isTrue trivial

def UGateway.dueFollowing (factory : IPlayerFactory) (s : UGateway) (action : Action) :
    Option UGateway := if Due s action then s.following factory action else none

theorem UGateway.dueFollowing_step (came : s.dueFollowing factory action = some t) :
    s.dueStep factory action t := by
  unfold UGateway.dueFollowing at came
  split at came
  next due => exact ⟨UGateway.following_step came, due⟩
  next => cases came

/-- A connection comes with a key that is refused or that no agent online has. -/
def FreshKey (s : UGateway) : Action → Prop
  | .accept address unixTime =>
    (s.agentMap.lookup (UPlayerAgent.new address unixTime).key).isSome ∨
      s.registry.Offline (UPlayerAgent.new address unixTime).key
  | _ => True

theorem Refines.unique {change : Registry.Change} (refines : Refines change s t)
    (unplayed : Unplayed s) (unique : s.registry.Unique) (distinct : change.Distinct s.registry) :
    t.registry.Unique := unique.step unplayed.formed refines.step distinct

theorem unique_step (unplayed : Unplayed s) (unique : s.registry.Unique) (fresh : FreshKey s action)
    (stepped : s.dueStep factory action t) : t.registry.Unique := by
  obtain ⟨stepped, due⟩ := stepped
  cases UGateway.step_effect unplayed stepped with
  | quiet refines => exact refines.unique unplayed unique trivial
  | accepted accepts =>
    cases accepts with
    | dropped taken refines => exact refines.unique unplayed unique trivial
    | registered free refines =>
      apply refines.unique unplayed unique
      apply fresh.resolve_left
      simp [free]
  | cleaned cleans =>
    cases cleans with
    | dropped inactive refines => exact refines.unique unplayed unique trivial
    | retired refines => exact refines.unique unplayed unique due
  | login login =>
    cases login with
    | again online same kept | unknown free absent kept => exact kept ▸ unique
    | promoted free waits refines => exact refines.unique unplayed unique trivial

theorem DistinctKeys.of_unique (unplayed : Unplayed s) (unique : s.registry.Unique) :
    DistinctKeys factory s := by
  constructor
  · exact unique.keys
  · intro id other key now t active cleaned different waits
    cases cleanUp_cases unplayed cleaned with
    | dropped inactive refines => cases inactive.symm.trans active
    | retired refines =>
      have step := refines.step
      generalize after : t.registry = r at step
      cases step
      next own known =>
        have apart : key ≠ own := by
          rintro rfl
          exact different (unique.waits unplayed.formed active known waits)
        rw [show t.agentMap = _ from congrArg Registry.waiting after]
        exact (AList.lookup_erase_ne apart).trans waits
  · intro id holder key pid active known online same
    exact unique.keys (.inr ⟨pid, online⟩) (unique.held active) (same.trans known.symm)

/-- A connection with the key of an agent online is registered beside it. -/
theorem stale_key (unplayed : Unplayed s) (stale : ¬ FreshKey s action)
    (stepped : s.step factory action t) : ¬ DistinctKeys factory t := by
  intro distinct
  cases action with
  | accept address unixTime =>
    obtain ⟨free, taken⟩ := not_or.mp stale
    cases waitForClient_cases unplayed stepped with
    | dropped taken refines => exact free taken
    | registered absent refines =>
      simp only [Registry.Offline, not_forall, not_not] at taken
      obtain ⟨pid, holder, online, same⟩ := taken
      exact refines.step.stale unplayed.formed online same distinct.keys
  | login | disconnect | losePeer | cleanUp | collect => exact stale trivial

theorem dueStep_unplayed (unplayed : Unplayed s) (stepped : s.dueStep factory action t) :
    Unplayed t := by
  obtain ⟨change, refines⟩ := (UGateway.step_effect unplayed stepped.1).refines unplayed
  exact refines.unplayed

theorem started_unique (login : Option ULoginAuth) :
    ({ UGateway.started with login }).registry.Unique := by
  constructor
  · rintro id other (⟨key, waits⟩ | ⟨pid, online⟩)
    · cases waits
    · cases online
  · intro id active
    cases active

/-- Over every run of a gateway that starts without agents: keys identify agents
in every state, so that clean-ups and repeated logins concern the agent itself,
if and only if no connection is accepted with the key of an agent online. -/
theorem distinctKeys_iff_freshKey (factory : IPlayerFactory) (login : Option ULoginAuth)
    {path : List (Action × UGateway)}
    (run : Transition.Path (UGateway.dueStep factory) { UGateway.started with login } path) :
    Transition.Always (DistinctKeys factory) { UGateway.started with login } path ↔
      Transition.Every FreshKey { UGateway.started with login } path := by
  have unplayed := Unplayed.started login
  constructor
  · apply run.every_of_always (J := Unplayed) dueStep_unplayed _ unplayed
    intro s action t unplayed _ stale stepped
    exact stale_key unplayed stale stepped.1
  · intro fresh
    have always : Transition.Always (fun s => Unplayed s ∧ s.registry.Unique)
        { UGateway.started with login } path := by
      apply run.always _ ⟨unplayed, started_unique login⟩ fresh
      intro s action t holds fresh stepped
      exact ⟨dueStep_unplayed holds.1 stepped, unique_step holds.1 holds.2 fresh stepped⟩
    exact always.imp fun s holds => .of_unique holds.1 holds.2

/-- Two connections from one address within one second; the first logs in before
the second is accepted. -/
def sameSecond : List (Action × UGateway) :=
  Transition.trace (UGateway.dueFollowing plainFactory) UGateway.started
    [.accept "10.0.0.1" 1000, .login "10.0.0.1-1000" 7, .accept "10.0.0.1" 1000]

theorem sameSecond_run :
    Transition.Path (UGateway.dueStep plainFactory) UGateway.started sameSecond :=
  Transition.trace_path UGateway.dueFollowing_step _

/-- Both are in the maps, with one key. -/
theorem sameSecond_collides :
    Transition.Path (UGateway.dueStep plainFactory) UGateway.started sameSecond ∧
    sameSecond.length = 3 ∧
    ¬ Transition.Always (DistinctKeys plainFactory) UGateway.started sameSecond ∧
    (Transition.last UGateway.started sameSecond).registry.Held 0 ∧
    (Transition.last UGateway.started sameSecond).registry.Held 1 ∧
    (Transition.last UGateway.started sameSecond).registry.key 0 =
      (Transition.last UGateway.started sameSecond).registry.key 1 := by
  have online : (Transition.last UGateway.started sameSecond).registry.Held 0 :=
    .inr ⟨7, by decide +kernel⟩
  have waits : (Transition.last UGateway.started sameSecond).registry.Held 1 :=
    .inl ⟨"10.0.0.1-1000", by decide +kernel⟩
  have same : (Transition.last UGateway.started sameSecond).registry.key 0 =
      (Transition.last UGateway.started sameSecond).registry.key 1 := by decide +kernel
  refine ⟨sameSecond_run, by decide +kernel, ?_, online, waits, same⟩
  intro always
  cases always.last.keys online waits same

theorem distinctKeys_iff_freshKey_sameSecond :
    Transition.Always (DistinctKeys plainFactory) UGateway.started sameSecond ↔
      Transition.Every FreshKey UGateway.started sameSecond :=
  distinctKeys_iff_freshKey plainFactory (some ⟨.running, ∅⟩) sameSecond_run

end Uranus
