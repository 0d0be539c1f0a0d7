import Uranus.Route.Delivery

/-! What the maps of the modules lead to. An agent stays what it is, and a service
found by an id is the one that has it, until it has been closed. -/
namespace Uranus
open Foundation Transition

namespace Station
variable {station later : Station} {entry : Option Letter} {packages : PackageId → FPacket}

/-- An agent with an open mailbox has had an open one, and has kept its role. -/
structure Stays (station later : Station) : Prop where
  role : later.mailbox.channel.isOpen →
    station.mailbox.channel.isOpen ∧ later.role = station.role
  kind : later.role = .player ↔ station.role = .player

theorem Stays.of_eq (mailbox : later.mailbox = station.mailbox) (role : later.role = station.role) :
    Stays station later := by
  constructor
  · intro opened
    rw [mailbox] at opened
    exact ⟨opened, role⟩
  · rw [role]

theorem Stays.meant (stays : Stays station later) (opened : later.mailbox.channel.isOpen) :
    later.meant = station.meant := by
  unfold Station.meant
  rw [(stays.role opened).2]

theorem Stays.of_close (mailbox : later.mailbox = station.mailbox.close)
    (role : later.role = station.role) : Stays station later := by
  constructor
  · intro opened
    rw [mailbox] at opened
    cases opened
  · rw [role]

theorem close_shut (kept : Kept station) (shut : station.mailbox.Shut) :
    station.mailbox.close.Shut :=
  (shut.step kept.mailbox (show station.mailbox.Step .close station.mailbox.close from rfl)).1

theorem push_stays (shut : station.mailbox.Shut) (entry : Option Letter) (node : IChannelNode) :
    (station.push entry node).mailbox.Shut ∧ Stays station (station.push entry node) := by
  obtain ⟨after, same⟩ := Mailbox.push_shut shut (some node)
  unfold Station.push
  split
  next opened => exact ⟨after, fun _ => ⟨opened, rfl⟩, Iff.rfl⟩
  next => exact ⟨shut, .of_eq rfl rfl⟩

theorem send_stays (shut : station.mailbox.Shut) (letter : Letter) :
    (station.send letter).mailbox.Shut ∧ Stays station (station.send letter) := by
  unfold Station.send
  split
  · exact ⟨shut, .of_eq rfl rfl⟩
  · split
    · exact ⟨shut, .of_eq rfl rfl⟩
    · exact ⟨shut, .of_eq rfl rfl⟩

theorem Change.stays (kept : Kept station) (shut : station.mailbox.Shut)
    (changed : Change packages station entry later) : later.mailbox.Shut ∧ Stays station later := by
  cases changed with
  | same => exact ⟨shut, .of_eq rfl rfl⟩
  | push _ node => exact push_stays shut entry node
  | send letter => exact send_stays shut letter
  | deliver delivered =>
    unfold Station.deliver at delivered
    split at delivered
    · cases delivered
      exact ⟨shut, .of_eq rfl rfl⟩
    · cases delivered
  | event moved other role =>
    obtain ⟨after, opens⟩ := shut.step kept.mailbox moved
    rcases role with rfl | ⟨rfl, before, now⟩
    · exact ⟨after, fun opened => ⟨opens opened, rfl⟩, Iff.rfl⟩
    · refine ⟨after, fun opened => ?_, iff_of_false now before⟩
      -- Who cleans up has found its channel closed.
      simp only [Mailbox.Step, Mailbox.step, Mailbox.cleanUp] at moved
      split at moved
      next cleaning =>
        have closed := shut.cleaning cleaning
        rw [opens opened] at closed
        cases closed
      all_goals cases moved
  | tested tested =>
    unfold Station.writeTest at tested
    split at tested
    · split at tested
      · cases tested
        exact ⟨shut, .of_eq rfl rfl⟩
      · cases tested
        exact ⟨shut, .of_eq rfl rfl⟩
    all_goals cases tested
  | failed | broke | disconnect =>
    exact ⟨(close_shut kept shut : station.mailbox.close.Shut), .of_close rfl rfl⟩
  | took => exact ⟨shut, .of_eq rfl rfl⟩
  | wrote encoding carried on =>
    rcases on with rfl | rfl
    · exact ⟨shut, .of_eq rfl rfl⟩
    · exact ⟨(close_shut kept shut : station.mailbox.close.Shut), .of_close rfl rfl⟩

end Station

namespace Exchange
variable {s t : Exchange} {move : Move} {agent : AgentId} {number : Nat} {posting : Posting}
  {rest : Option Posting}

/-- No agent goes, and none takes its role from another. -/
def Stays (s t : Exchange) : Prop :=
  ∀ agent station, s.stations.lookup agent = some station →
    ∃ later, t.stations.lookup agent = some later ∧ station.Stays later

theorem Stays.of_eq (same : t.stations = s.stations) : Stays s t := by
  intro agent station present
  exact ⟨station, by rw [same, present], .of_eq rfl rfl⟩

theorem edit_stays {change : Station → Station}
    (stays : ∀ station, s.stations.lookup agent = some station → station.Stays (change station)) :
    Stays s (s.edit agent change) := by
  intro other station present
  simp only [edit, Table.lookup_modify]
  split
  next same =>
    subst same
    exact ⟨change station, by rw [present, Option.map_some], stays station present⟩
  next => exact ⟨station, present, .of_eq rfl rfl⟩

theorem Listed.frame (listed : Listed s) (stays : Stays s t)
    (services : ∀ sid agent, t.serviceMap.lookup sid = some agent →
      s.serviceMap.lookup sid = some agent)
    (players : ∀ pid agent, t.playerMap.lookup pid = some agent →
      s.playerMap.lookup pid = some agent) : Listed t := by
  constructor
  · intro sid agent found
    obtain ⟨station, present, kind, role⟩ := listed.services sid agent (services sid agent found)
    obtain ⟨later, present', stays⟩ := stays agent station present
    refine ⟨later, present', fun player => kind (stays.kind.mp player), fun opened => ?_⟩
    obtain ⟨before, same⟩ := stays.role opened
    rw [same]
    exact role before
  · intro pid agent found
    obtain ⟨station, present, role⟩ := listed.players pid agent (players pid agent found)
    obtain ⟨later, present', stays⟩ := stays agent station present
    exact ⟨later, present', stays.kind.mpr role⟩
  · cases found : t.playerMap.lookup 0 with
    | none => rfl
    | some agent => cases listed.nonzero.symm.trans (players 0 agent found)

/-- Nobody logs in with the id 0. -/
def Named : Move → Prop
  | .login pid _ => pid ≠ 0
  | _ => True

/-- The letters, the maps and the mailboxes are in order. -/
structure Grounded (s : Exchange) : Prop where
  sound : Sound s
  listed : Listed s
  shut : ∀ agent station, s.stations.lookup agent = some station → station.mailbox.Shut

theorem Advanced.remains (grounded : Grounded s) (advanced : Advanced s number posting t rest) :
    Stays s t := by
  cases advanced with
  | goes packages => exact .of_eq rfl
  | pushed packages agent node =>
    refine edit_stays fun station present => ?_
    exact (Station.push_stays (grounded.shut agent station present) _ node).2
  | sent packages agent =>
    refine edit_stays fun station present => ?_
    exact (Station.send_stays (grounded.shut agent station present) _).2

theorem Effect.stays (grounded : Grounded s) (effect : Effect s move t) : Stays s t := by
  cases effect with
  | @advanced number posting known =>
    have stays := (advance_advanced s number posting).remains grounded
    intro agent station present
    rw [keep_stations]
    exact stays agent station present
  | @entered agent role absent =>
    intro other station present
    refine ⟨station, ?_, .of_eq rfl rfl⟩
    simp only [Table.lookup_insert_ite]
    rw [if_neg, present]
    rintro rfl
    cases absent.symm.trans present
  | @moved move agent station later mover found changed =>
    refine edit_stays fun other present => ?_
    cases found.symm.trans present
    exact (changed.stays (grounded.sound.kept agent station found)
      (grounded.shut agent station found)).2
  | asked | wrote | enlisted | removed | unnamed | loggedIn | loggedOut | switched =>
    exact .of_eq rfl

/-- The maps lead to what has been enlisted or logged in. -/
theorem Effect.listed (grounded : Grounded s) (named : Named move)
    (effect : Effect s move t) : Listed t := by
  have stays := effect.stays grounded
  have kept (services : t.serviceMap = s.serviceMap) (players : t.playerMap = s.playerMap) :
      Listed t := by
    refine grounded.listed.frame stays ?_ ?_
    · rw [services]
      exact fun _ _ => id
    · rw [players]
      exact fun _ _ => id
  cases effect with
  | @advanced number posting known =>
    have advanced := advance_advanced s number posting
    have same : (s.advance number posting).1.serviceMap = s.serviceMap ∧
        (s.advance number posting).1.playerMap = s.playerMap := by
      generalize (s.advance number posting).1 = later, (s.advance number posting).2 = rest
        at advanced
      cases advanced <;> exact ⟨rfl, rfl⟩
    refine kept ?_ ?_
    · rw [← same.1]
      generalize (s.advance number posting).2 = rest
      cases rest <;> rfl
    · rw [← same.2]
      generalize (s.advance number posting).2 = rest
      cases rest <;> rfl
  | @enlisted agent station sid name found role =>
    refine ⟨fun other agent' known => ?_, grounded.listed.players, grounded.listed.nonzero⟩
    simp only [Table.lookup_insert_ite] at known
    split at known
    next same =>
      subst same
      cases known
      exact ⟨station, found, by rw [role]; exact Role.noConfusion, fun _ => ⟨name, role⟩⟩
    next => exact grounded.listed.services other agent' known
  | removed sid =>
    refine ⟨fun other agent' known => ?_, grounded.listed.players, grounded.listed.nonzero⟩
    simp only [Table.lookup_erase_ite] at known
    split at known
    · cases known
    · exact grounded.listed.services other agent' known
  | @loggedIn agent station pid found role =>
    refine ⟨grounded.listed.services, fun other agent' known => ?_, ?_⟩
    · simp only [Table.lookup_insert_ite] at known
      split at known
      · cases known
        exact ⟨station, found, role⟩
      · exact grounded.listed.players other agent' known
    · simp only [Table.lookup_insert_ite]
      rw [if_neg (fun same => named same.symm), grounded.listed.nonzero]
  | loggedOut pid =>
    refine ⟨grounded.listed.services, fun other agent' known => ?_, ?_⟩
    · simp only [Table.lookup_erase_ite] at known
      split at known
      · cases known
      · exact grounded.listed.players other agent' known
    · simp only [Table.lookup_erase_ite, grounded.listed.nonzero, ite_self]
  | asked | wrote | entered | unnamed | switched | moved => exact kept rfl rfl

theorem Grounded.step (grounded : Grounded s) (named : Named move) (moved : s.Step move t) :
    Grounded t := by
  have effect := moved.effect
  refine ⟨grounded.sound.step moved, effect.listed grounded named, ?_⟩
  intro agent later present
  rcases effect.changes present with ⟨station, found, ⟨brought, changed⟩ | rfl⟩ | ⟨role, rfl⟩
  · exact (changed.stays (grounded.sound.kept agent station found)
      (grounded.shut agent station found)).1
  · exact grounded.shut agent _ found
  · exact Mailbox.started_shut _

theorem empty_grounded : Grounded empty := by
  refine ⟨empty_sound, ⟨?_, ?_, rfl⟩, ?_⟩
  · intro sid agent found
    cases found
  · intro pid agent found
    cases found
  · intro agent station present
    cases present

end Exchange
end Uranus
