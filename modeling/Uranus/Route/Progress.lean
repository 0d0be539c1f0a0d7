import Uranus.Base.MailboxDrain
import Uranus.Route.Delivery

/-! The exchange never gets stuck. From whatever a run has led to, the calls under
way can come to their ends, and every open mailbox can be emptied. -/
namespace Uranus
open Foundation Transition

namespace Mailbox
variable {m t u : Mailbox}

/-- A mailbox that still serves, if it did, and has lost nothing. -/
structure Grows (m t : Mailbox) : Prop where
  serves : m.Serves → t.Serves
  kept : (m.executed : Multiset Post) + m.waiting ≤ (t.executed : Multiset Post) + t.waiting

theorem Grows.refl (m : Mailbox) : Grows m m := ⟨id, le_refl _⟩

theorem Grows.trans (first : Grows m t) (second : Grows t u) : Grows m u :=
  ⟨second.serves ∘ first.serves, first.kept.trans second.kept⟩

theorem push_grows (shut : m.Shut) (node : IChannelNode) : Grows m (m.push (some node)) := by
  constructor
  · rintro ⟨opened, places⟩
    refine ⟨(push_shut shut (some node)).2.trans opened, ?_⟩
    rwa [push_process]
  · rcases push_cases (m := m) node with same | ⟨-, executed, waiting, -⟩
    · rw [same]
    · rw [executed, waiting, ← add_assoc]
      exact Multiset.le_add_right _ _

end Mailbox

namespace Station
variable {station later : Station} {packages : PackageId → FPacket} {brought : Option Letter}

/-- A change of an agent is a step of its mailbox, or leaves it alone. -/
theorem Change.mailbox (changed : Change packages station brought later) :
    later.mailbox = station.mailbox ∨
      ∃ event, station.mailbox.Step event later.mailbox := by
  have closes : station.mailbox.Step .close station.mailbox.close := rfl
  cases changed with
  | same | took => exact .inl rfl
  | push _ node =>
    unfold Station.push
    split
    · exact .inr ⟨.push (some node), rfl⟩
    · exact .inl rfl
  | send letter =>
    unfold Station.send
    split
    · exact .inl rfl
    · split <;> exact .inl rfl
  | deliver delivered =>
    unfold Station.deliver at delivered
    split at delivered
    · cases delivered
      exact .inl rfl
    · cases delivered
  | event moved => exact .inr ⟨_, moved⟩
  | tested tested =>
    unfold Station.writeTest at tested
    split at tested
    · split at tested <;> cases tested <;> exact .inl rfl
    all_goals cases tested
  | failed | broke | disconnect => exact .inr ⟨.close, closes⟩
  | wrote encoding carried on =>
    rcases on with rfl | rfl
    · exact .inl rfl
    · exact .inr ⟨.close, closes⟩

end Station

/-- How many sections of a call may be left. -/
def Posting.rank : Posting → Nat
  | .asked .. => 3
  | .routed .. | .named .. => 2
  | .found .. => 1

namespace Exchange
variable {s t u : Exchange} {move : Move} {number : Nat} {posting : Posting} {agent : AgentId}
  {rest : Option Posting}

/-- What a run keeps of its mailboxes. -/
structure Lively (s : Exchange) : Prop where
  sound : Sound s
  shut : ∀ agent station, s.stations.lookup agent = some station → station.mailbox.Shut
  awake : ∀ agent station, s.stations.lookup agent = some station → station.mailbox.Awake

theorem Lively.step (lively : Lively s) (moved : s.Step move t) : Lively t := by
  refine ⟨lively.sound.step moved, fun agent later present => ?_, fun agent later present => ?_⟩
  · rcases moved.effect.changes present with
      ⟨station, found, ⟨brought, changed⟩ | rfl⟩ | ⟨role, rfl⟩
    · rcases changed.mailbox with same | ⟨event, stepped⟩
      · rw [same]
        exact lively.shut agent station found
      · exact ((lively.shut agent station found).step
          (lively.sound.kept agent station found).mailbox stepped).1
    · exact lively.shut agent _ found
    · exact Mailbox.started_shut _
  · rcases moved.effect.changes present with
      ⟨station, found, ⟨brought, changed⟩ | rfl⟩ | ⟨role, rfl⟩
    · rcases changed.mailbox with same | ⟨event, stepped⟩
      · rw [same]
        exact lively.awake agent station found
      · exact (lively.awake agent station found).step stepped
    · exact lively.awake agent _ found
    · exact Mailbox.started_awake _

theorem empty_lively : Lively empty := by
  refine ⟨empty_sound, ?_, ?_⟩
  · intro agent station present
    cases present
  · intro agent station present
    cases present

theorem Lively.ready (lively : Lively s) {station : Station}
    (present : s.stations.lookup agent = some station) (serves : station.mailbox.Serves) :
    station.mailbox.Ready :=
  ⟨(lively.sound.kept agent station present).mailbox, lively.shut agent station present,
    lively.awake agent station present, serves⟩

/-- What happens without anybody asking, closing or failing. -/
def Inner : Move → Prop
  | .advance _ => True
  | .mailbox _ event => Mailbox.Own event
  | _ => False

/-- No agent has been lost, and none has lost anything. -/
def Grows (s t : Exchange) : Prop :=
  ∀ agent station, s.stations.lookup agent = some station →
    ∃ later, t.stations.lookup agent = some later ∧ station.mailbox.Grows later.mailbox

theorem Grows.refl (s : Exchange) : Grows s s :=
  fun _ station present => ⟨station, present, .refl _⟩

theorem Grows.trans (first : Grows s t) (second : Grows t u) : Grows s u := by
  intro agent station present
  obtain ⟨later, present, grows⟩ := first agent station present
  obtain ⟨last, present, grows'⟩ := second agent later present
  exact ⟨last, present, grows.trans grows'⟩

theorem edit_grows {change : Station → Station}
    (grows : ∀ station, s.stations.lookup agent = some station →
      station.mailbox.Grows (change station).mailbox) : Grows s (s.edit agent change) := by
  intro other station present
  simp only [edit, Table.lookup_modify]
  split
  next same =>
    subst same
    exact ⟨change station, by rw [present, Option.map_some], grows station present⟩
  next => exact ⟨station, present, .refl _⟩

theorem Advanced.grows (lively : Lively s) (advanced : Advanced s number posting t rest) :
    Grows s t := by
  cases advanced with
  | goes => exact .refl s
  | pushed packages agent node =>
    refine edit_grows fun station present => ?_
    unfold Station.push
    split
    · exact Mailbox.push_grows (lively.shut agent station present) node
    · exact .refl _
  | sent packages agent =>
    refine edit_grows fun station present => ?_
    unfold Station.send
    split
    · exact .refl _
    · split <;> exact .refl _

/-- Each section brings a call nearer to its end. -/
theorem advance_rank : ∀ later ∈ (s.advance number posting).2, later.rank < posting.rank := by
  intro later led
  cases posting with
  | asked sender request =>
    have begun := advance_begun s number sender request
    generalize (s.advance number (.asked sender request)).1 = t,
      (s.advance number (.asked sender request)).2 = rest at begun led
    cases begun with
    | stops | own => cases led
    | posts | toPlayer =>
      cases led
      simp [Posting.rank]
    | postsTo =>
      obtain ⟨sid, rfl⟩ := routePostPackageTo_some led
      simp [Posting.rank]
    | task =>
      obtain ⟨agent, rfl, -⟩ := routePostTask_some led
      simp [Posting.rank]
    | taskTo =>
      obtain ⟨sid, rfl⟩ := routePostTaskTo_some led
      simp [Posting.rank]
    | taskToPlayer =>
      obtain ⟨agent, rfl, -⟩ := routePostTask_some led
      simp [Posting.rank]
    | toClient =>
      obtain ⟨agent, rfl, -⟩ := routeSendToClient_some led
      simp [Posting.rank]
  | routed sender pkg pid =>
    obtain ⟨agent, rfl, -⟩ := routePostPackage_some led
    simp [Posting.rank]
  | named sender sid cargo =>
    obtain ⟨agent, -, rfl⟩ := Option.map_eq_some_iff.mp led
    simp [Posting.rank]
  | found sender agent cargo => cases led

/-- The sections that may be left of all calls. -/
def pending (s : Exchange) : Nat := ((Table.pairs s.calls).map fun entry => entry.2.rank).sum

theorem pending_present (known : s.calls.lookup number = some posting) :
    s.pending = posting.rank +
      ((Table.pairs (s.calls.erase number)).map fun entry => entry.2.rank).sum := by
  unfold pending
  rw [Table.pairs_present known, Multiset.map_cons, Multiset.sum_cons]

theorem rank_pos (posting : Posting) : 0 < posting.rank := by
  cases posting <;> simp [Posting.rank]

theorem keep_pending (calls : t.calls = s.calls) (known : s.calls.lookup number = some posting)
    (nearer : ∀ later ∈ rest, later.rank < posting.rank) :
    (t.keep number rest).pending < s.pending := by
  have positive := rank_pos posting
  rw [pending_present known]
  cases rest with
  | none =>
    unfold pending keep
    dsimp only
    rw [calls]
    omega
  | some later =>
    have less := nearer later rfl
    have found : (t.keep number (some later)).calls.lookup number = some later := by
      rw [keep_calls, if_pos rfl]
    rw [pending_present found]
    unfold keep
    dsimp only
    rw [Table.erase_insert, calls]
    omega

theorem none_pending (none : s.pending = 0) : s.calls = ∅ := by
  by_contra nonempty
  obtain ⟨number, posting, member⟩ := Table.entry_of_nonempty nonempty
  have known : s.calls.lookup number = some posting :=
    List.mem_dlookup s.calls.nodupKeys member
  have positive := rank_pos posting
  rw [pending_present known] at none
  omega

/-- All calls can come to their ends. -/
theorem Lively.settles (lively : Lively s) :
    ∃ t, Reach Step Inner s t ∧ (Lively t ∧ Grows s t) ∧ t.calls = ∅ := by
  have less {u : Exchange} (so : Lively u ∧ Grows s u) (some : u.pending ≠ 0) :
      ∃ t, Reach Step Inner u t ∧ (Lively t ∧ Grows s t) ∧ t.pending < u.pending := by
    have nonempty : u.calls ≠ ∅ := by
      intro none
      apply some
      unfold pending
      rw [none]
      rfl
    obtain ⟨number, posting, member⟩ := Table.entry_of_nonempty nonempty
    have known : u.calls.lookup number = Option.some posting :=
      List.mem_dlookup u.calls.nodupKeys member
    have moved : u.Step (.advance number)
        ((u.advance number posting).1.keep number (u.advance number posting).2) := by
      simp only [Step, next, known, Option.map_some]
    have advanced := advance_advanced u number posting
    have calls : (u.advance number posting).1.calls = u.calls := by
      generalize (u.advance number posting).1 = later, (u.advance number posting).2 = rest
        at advanced
      cases advanced <;> rfl
    have inner : Inner (.advance number) := trivial
    refine ⟨_, .single inner moved, ⟨so.1.step moved, so.2.trans ?_⟩,
      keep_pending calls known advance_rank⟩
    intro agent station present
    rw [keep_stations]
    exact advanced.grows so.1 agent station present
  obtain ⟨t, reach, so, none⟩ := Reach.exhaust pending less ⟨lively, .refl s⟩
  exact ⟨t, reach, so, none_pending none⟩

/-- The exchange with another mailbox of one agent. -/
structure Swapped (s : Exchange) (agent : AgentId) (station : Station) (m : Mailbox)
    (t : Exchange) : Prop where
  calls : t.calls = s.calls
  own : t.stations.lookup agent = some { station with mailbox := m }
  others : ∀ other, other ≠ agent → t.stations.lookup other = s.stations.lookup other

/-- What the coroutines of a mailbox do on their own, the exchange can do. -/
theorem Swapped.follow {station : Station} {m later : Mailbox} {event : Mailbox.Event}
    (swapped : Swapped s agent station m t) (own : Mailbox.Own event)
    (stepped : m.Step event later) :
    ∃ u, Reach Step Inner t u ∧ Swapped s agent station later u := by
  have changed : Station.step event { station with mailbox := m } =
      some { station with mailbox := later } := by
    cases event with
    | deliver | resume | complete => exact congrArg (Option.map _) stepped
    | push | cleanUp | close => cases own
  have moved : t.Step (.mailbox agent event)
      (t.edit agent fun _ => { station with mailbox := later }) := by
    simp only [Step, next, move, swapped.own, Option.bind_some, changed, Option.map_some]
  have inner : Inner (.mailbox agent event) := own
  refine ⟨_, .single inner moved, swapped.calls, ?_, fun other differ => ?_⟩
  · simp only [edit, Table.lookup_modify, swapped.own, Option.map_some, if_true]
  · simp only [edit, Table.lookup_modify]
    rw [if_neg differ, swapped.others other differ]

/-- The mailbox of one agent can be emptied, and the others wait meanwhile. -/
theorem Lively.drainOne (lively : Lively s) (agent : AgentId) :
    ∃ t, Reach Step Inner s t ∧ Grows s t ∧ t.calls = s.calls ∧
      ∀ other later, t.stations.lookup other = some later → later.mailbox.Serves →
        later.mailbox.waiting = 0 ∨ other ≠ agent ∧ s.stations.lookup other = some later := by
  by_cases serving : ∃ station, s.stations.lookup agent = some station ∧ station.mailbox.Serves
  · obtain ⟨station, present, serves⟩ := serving
    obtain ⟨m, onward, empty⟩ := (lively.ready present serves).drains
    have start : Swapped s agent station station.mailbox s := ⟨rfl, present, fun _ _ => rfl⟩
    obtain ⟨t, reach, swapped⟩ := onward.reach.follow
      (fun swapped own stepped => Swapped.follow swapped own stepped) start
    refine ⟨t, reach, ?_, swapped.calls, ?_⟩
    · intro other before found
      by_cases same : other = agent
      · subst same
        cases present.symm.trans found
        exact ⟨_, swapped.own, fun _ => onward.ready.serves, le_of_eq onward.all.symm⟩
      · exact ⟨before, (swapped.others other same).trans found, .refl _⟩
    · intro other later found _
      by_cases same : other = agent
      · subst same
        cases swapped.own.symm.trans found
        exact .inl empty
      · exact .inr ⟨same, (swapped.others other same).symm.trans found⟩
  · refine ⟨s, .refl s, .refl s, rfl, fun other later found serves => .inr ⟨?_, found⟩⟩
    rintro rfl
    exact serving ⟨later, found, serves⟩

theorem Lively.reach (lively : Lively s) (reach : Reach Step Inner s t) : Lively t :=
  reach.keeps (fun lively _ moved => lively.step moved) lively

/-- One agent after the other, by induction on a list of them. -/
theorem Lively.drainAll (lively : Lively s) (agents : List AgentId) :
    ∃ t, Reach Step Inner s t ∧ Grows s t ∧ t.calls = s.calls ∧
      ∀ other later, t.stations.lookup other = some later → later.mailbox.Serves →
        later.mailbox.waiting = 0 ∨ other ∉ agents ∧ s.stations.lookup other = some later := by
  induction agents generalizing s with
  | nil =>
    exact ⟨s, .refl s, .refl s, rfl, fun other later found _ => .inr ⟨List.not_mem_nil, found⟩⟩
  | cons agent rest ih =>
    obtain ⟨t, first, grows, calls, one⟩ := lively.drainOne agent
    obtain ⟨u, second, grows', calls', others⟩ := ih (lively.reach first)
    refine ⟨u, first.trans second, grows.trans grows', calls'.trans calls, ?_⟩
    intro other later found serves
    rcases others other later found serves with empty | ⟨absent, before⟩
    · exact .inl empty
    · rcases one other later before serves with empty | ⟨differ, start⟩
      · exact .inl empty
      · refine .inr ⟨fun member => ?_, start⟩
        rcases List.mem_cons.mp member with same | member
        · exact differ same
        · exact absent member

/-- No call is under way any more, and every agent that serves its mailbox still does
and has executed everything that it had got. -/
structure Drained (s t : Exchange) : Prop where
  calls : t.calls = ∅
  agents : ∀ agent station, s.stations.lookup agent = some station → station.mailbox.Serves →
    ∃ later, t.stations.lookup agent = some later ∧ later.mailbox.Serves ∧
      later.mailbox.waiting = 0 ∧
      (station.mailbox.executed : Multiset Post) + station.mailbox.waiting ≤
        (later.mailbox.executed : Multiset Post)

theorem Lively.drains (lively : Lively s) : ∃ t, Reach Step Inner s t ∧ Drained s t := by
  obtain ⟨t, first, ⟨lively', grows⟩, none⟩ := lively.settles
  obtain ⟨u, second, grows', calls, empties⟩ := lively'.drainAll t.stations.keys
  refine ⟨u, first.trans second, calls.trans none, ?_⟩
  intro agent station present serves
  obtain ⟨later, present', grown⟩ := (grows.trans grows') agent station present
  have serves' := grown.serves serves
  have empty : later.mailbox.waiting = 0 := by
    rcases empties agent later present' serves' with empty | ⟨absent, before⟩
    · exact empty
    · rw [AList.lookup_eq_none.mpr absent] at before
      cases before
  refine ⟨later, present', serves', empty, ?_⟩
  have kept := grown.kept
  rwa [empty, add_zero] at kept

/-- From every state that a run has led to, the exchange can go on, without anybody
asking for anything, until all calls have ended and every node that waited in an open
mailbox has been executed. -/
theorem always_drainable {path : List (Move × Exchange)} (run : Path Step empty path) :
    Always (fun s => ∃ t, Reach Step Inner s t ∧ Drained s t) empty path :=
  (run.invariant (fun lively moved => lively.step moved) empty_lively).imp
    fun _ lively => lively.drains

theorem always_drainable_conversation :
    Always (fun s => ∃ t, Reach Step Inner s t ∧ Drained s t) empty (empty.runs conversation) :=
  always_drainable (runs_path empty conversation)

end Exchange
end Uranus
