import Uranus.Base.MailboxOnce
import Uranus.Route.Exchange

/-! What a move of the exchange can do to one agent, and what every such change
keeps: no letter is in two places of one agent. -/
namespace Uranus
open Foundation Transition

/-- The letter that the codec has. -/
def Writer.letter : Writer → List Letter
  | .encoding letter => [letter]
  | .testing | .receiving | .finished => []

namespace Station
variable {station later : Station} {brought : Option Letter} {packages : PackageId → FPacket}

/-- A change with the letter that comes, if one does, where packages are as given. -/
inductive Change (packages : PackageId → FPacket) (station : Station) :
    Option Letter → Station → Prop where
  | same : Change packages station none station
  | push (entry : Option Letter) (node : IChannelNode) :
      Change packages station entry (station.push entry node)
  | send (letter : Letter) : Change packages station (some letter) (station.send letter)
  | deliver {letter : Letter} {later : Station} (delivered : station.deliver letter = some later) :
      Change packages station none later
  | event {event : Mailbox.Event} {mailbox : Mailbox} {role : Role}
      (moved : station.mailbox.Step event mailbox) (other : ∀ node, event ≠ .push node)
      (kept : role = station.role ∨ event = .cleanUp ∧ station.role ≠ .player ∧ role ≠ .player) :
      Change packages station none { station with mailbox, role }
  | tested {later : Station} (tested : station.writeTest = some later) :
      Change packages station none later
  | failed {output : Channel Letter} (receiving : station.writer = .receiving)
      (taken : station.output.take = some (none, output)) :
      Change packages station none
        { ({ station with output } : Station).disconnect with writer := .finished }
  | took {letter : Letter} {output : Channel Letter} {writer : Writer}
      (receiving : station.writer = .receiving)
      (taken : station.output.take = some (some letter, output))
      (next : writer = .encoding letter ∨ writer = .testing) :
      Change packages station none { station with output, writer }
  | broke {letter : Letter} (encoding : station.writer = .encoding letter) :
      Change packages station none { station.disconnect with writer := .finished }
  | wrote {letter : Letter} {pkg : PackageId} {later : Station}
      (encoding : station.writer = .encoding letter) (carried : letter.body = some pkg)
      (on : later = { station with
          written := station.written ++ [(letter, packages pkg)], writer := .testing } ∨
        later = { station.disconnect with
          written := station.written ++ [(letter, packages pkg)], writer := .finished }) :
      Change packages station none later
  | disconnect : Change packages station none station.disconnect

/-- The letters for the client, written or on their way. -/
def onWay (station : Station) : List Letter :=
  station.written.map Prod.fst ++ station.writer.letter ++ station.output.contents

/-- Every node and every letter for the client has one place. -/
structure Kept (station : Station) : Prop where
  mailbox : station.mailbox.Conserved
  letters : station.letters.length = station.mailbox.pushed.length
  within : (station.onWay : Multiset Letter) + (station.waiting : Multiset Letter) ≤
    (station.sent : Multiset Letter)
  resting : station.writer ≠ .receiving → station.output.receiver = .idle

theorem new_kept (role : Role) : Kept (.new role) := by
  constructor
  · exact Mailbox.started_conserved _
  · rfl
  · cases role <;> exact le_refl _
  · exact fun _ => rfl

theorem idle_sent {c d : Channel Letter} {letter : Letter} (idle : c.receiver = .idle)
    (receiver : d.receiver = c.receiver ∨ c.receiver.isWaiting ∧ d.receiver = .received letter) :
    d.receiver = .idle := by
  rcases receiver with same | ⟨waiting, -⟩
  · rw [same, idle]
  · rw [idle] at waiting
    cases waiting

theorem Kept.push (kept : Kept station) (entry : Option Letter) (node : IChannelNode) :
    Kept (station.push entry node) := by
  unfold Station.push
  split
  next opened =>
    refine ⟨kept.mailbox.push node, ?_, kept.within, kept.resting⟩
    have grown : (station.mailbox.push (some node)).pushed.length =
        station.mailbox.pushed.length + 1 := by
      unfold Mailbox.push
      rw [if_neg (by rw [opened]; exact Bool.false_ne_true)]
      dsimp only
      split <;> simp
    rw [List.length_append, List.length_singleton, kept.letters, grown]
  next => exact kept

theorem sent_grows {before after : List Letter} {sent : List Letter} (letter : Letter)
    (within : (before : Multiset Letter) + (after : Multiset Letter) ≤ (sent : Multiset Letter)) :
    ((before ++ [letter] : List Letter) : Multiset Letter) + (after : Multiset Letter) ≤
      ((sent ++ [letter] : List Letter) : Multiset Letter) := by
  rw [← Multiset.coe_add, ← Multiset.coe_add, add_right_comm]
  exact add_le_add within (le_refl _)

theorem Kept.send (kept : Kept station) (letter : Letter) : Kept (station.send letter) := by
  unfold Station.send
  split
  next output tried =>
    refine ⟨kept.mailbox, kept.letters, ?_, ?_⟩
    · have grown := sent_grows letter kept.within
      unfold onWay at grown ⊢
      dsimp only
      rwa [Channel.trySend_contents tried, ← List.append_assoc]
    · exact fun elsewhere => idle_sent (kept.resting elsewhere) (Channel.trySend_receiver tried)
  next =>
    split
    · refine ⟨kept.mailbox, kept.letters, ?_, kept.resting⟩
      have grown := sent_grows letter kept.within
      rw [← Multiset.coe_add, add_right_comm, add_assoc, Multiset.coe_add] at grown
      exact grown
    · exact kept

theorem Kept.deliver (kept : Kept station) {letter : Letter}
    (delivered : station.deliver letter = some later) : Kept later := by
  unfold Station.deliver at delivered
  split at delivered
  next waits =>
    cases delivered
    refine ⟨kept.mailbox, kept.letters, ?_, ?_⟩
    · have split : (station.waiting : Multiset Letter) =
          {letter} + (station.waiting.erase letter : Multiset Letter) := by
        rw [Multiset.singleton_add, ← Multiset.coe_erase, Multiset.cons_erase (by exact waits)]
      have before := kept.within
      rw [split, ← add_assoc] at before
      refine le_trans (add_le_add ?_ (le_refl _)) before
      unfold onWay
      dsimp only
      by_cases opened : station.output.isOpen
      · rw [Channel.asyncSend_contents opened, ← List.append_assoc, ← Multiset.coe_add _ [letter],
          Multiset.coe_singleton]
      · rw [Channel.asyncSend, dif_neg opened]
        exact Multiset.le_add_right _ _
    · exact fun elsewhere =>
        idle_sent (kept.resting elsewhere) (Channel.asyncSend_receiver letter)
  next => cases delivered

theorem close_contents (c : Channel Letter) : c.close.contents = c.contents := by
  simp only [Channel.close, Channel.contents]
  split
  next waiting => rw [Receiver.item_waiting waiting]; rfl
  next => rfl

theorem close_idle {c : Channel Letter} (idle : c.receiver = .idle) : c.close.receiver = .idle := by
  simp only [Channel.close, idle]
  rfl

theorem close_kept {m : Mailbox} (kept : m.Conserved) : m.close.Conserved :=
  kept.step (show m.Step .close m.close from rfl)

theorem Kept.disconnect (kept : Kept station) : Kept station.disconnect := by
  refine ⟨close_kept kept.mailbox, kept.letters, ?_, ?_⟩
  swap
  · exact fun elsewhere => close_idle (kept.resting elsewhere)
  have before := kept.within
  unfold onWay at before ⊢
  simp only [Station.disconnect]
  rwa [close_contents]

theorem Kept.tested (kept : Kept station) (tested : station.writeTest = some later) :
    Kept later := by
  unfold Station.writeTest at tested
  split at tested
  next testing =>
    have idle := kept.resting (by rw [testing]; exact fun same => by cases same)
    have before := kept.within
    unfold onWay at before
    rw [testing] at before
    split at tested
    · cases tested
      refine ⟨kept.mailbox, kept.letters, ?_, fun elsewhere => absurd rfl elsewhere⟩
      unfold onWay
      dsimp only
      rwa [Channel.asyncReceive_contents idle]
    · cases tested
      exact ⟨kept.mailbox, kept.letters, before, fun _ => idle⟩
  all_goals cases tested

theorem Kept.took (kept : Kept station) {letter : Letter} {output : Channel Letter}
    {writer : Writer} (receiving : station.writer = .receiving)
    (taken : station.output.take = some (some letter, output))
    (next : writer = .encoding letter ∨ writer = .testing) :
    Kept { station with output, writer } := by
  refine ⟨kept.mailbox, kept.letters, ?_, fun _ => Channel.take_receiver taken⟩
  refine le_trans (add_le_add ?_ (le_refl _)) kept.within
  unfold onWay
  rw [receiving, Channel.take_contents taken]
  rcases next with rfl | rfl
  · rw [Writer.letter, Writer.letter, List.append_nil, List.append_assoc]
    exact le_refl _
  · rw [Writer.letter, Writer.letter, List.append_nil]
    exact ((List.sublist_cons_self letter _).append_left _).subperm

theorem Kept.change (kept : Kept station) (changed : Change packages station brought later) :
    Kept later := by
  cases changed with
  | same => exact kept
  | push _ node => exact kept.push brought node
  | send letter => exact kept.send letter
  | deliver delivered => exact kept.deliver delivered
  | @event event mailbox role moved other role_kept =>
    have quiet := (Mailbox.step_quiet kept.mailbox moved fun node => other (some node)).1
    exact ⟨kept.mailbox.step moved, by rw [kept.letters, quiet.pushed], kept.within, kept.resting⟩
  | tested tested => exact kept.tested tested
  | failed receiving taken =>
    have failed := Channel.take_error taken
    obtain ⟨-, rfl⟩ := Channel.take_spec taken
    refine ⟨close_kept kept.mailbox, kept.letters, ?_, fun _ => rfl⟩
    have before := kept.within
    unfold onWay at before ⊢
    simp only [Station.disconnect]
    rw [close_contents]
    simp only [receiving, Channel.contents, failed, Receiver.item, Writer.letter] at before ⊢
    exact before
  | took receiving taken next => exact kept.took receiving taken next
  | @broke letter encoding =>
    have idle := kept.resting (by rw [encoding]; exact fun same => by cases same)
    refine ⟨close_kept kept.mailbox, kept.letters, ?_, fun _ => close_idle idle⟩
    refine le_trans (add_le_add ?_ (le_refl _)) kept.within
    unfold onWay
    simp only [Station.disconnect, Writer.letter, encoding, List.append_nil]
    rw [close_contents]
    exact (((List.sublist_append_left _ [letter])).append_right _).subperm
  | @wrote letter pkg later encoding carried on =>
    have idle := kept.resting (by rw [encoding]; exact fun same => by cases same)
    have before := kept.within
    unfold onWay at before
    rw [encoding] at before
    rcases on with rfl | rfl
    · refine ⟨kept.mailbox, kept.letters, ?_, fun _ => idle⟩
      unfold onWay
      simp only [List.map_append, List.map_cons, List.map_nil, Writer.letter, List.append_nil]
        at before ⊢
      exact before
    · refine ⟨close_kept kept.mailbox, kept.letters, ?_, fun _ => close_idle idle⟩
      unfold onWay
      simp only [List.map_append, List.map_cons, List.map_nil, Writer.letter, List.append_nil,
        Station.disconnect] at before ⊢
      rwa [close_contents]
  | disconnect => exact kept.disconnect

/-- No node and no letter has to wait for room. -/
def Unhindered (station : Station) : Prop :=
  station.mailbox.deferred = [] ∧ station.waiting = []

instance : Decidable station.Unhindered := inferInstanceAs (Decidable (_ ∧ _))

/-- Nodes and letters are in the order in which they came. -/
structure InLine (station : Station) : Prop where
  mailbox : station.mailbox.InLine
  output : station.onWay.Sublist station.sent

theorem new_inLine (role : Role) : InLine (.new role) := by
  constructor
  · exact List.Sublist.refl _
  · cases role <;> exact List.Sublist.refl _

theorem close_inLine {m : Mailbox} (inLine : m.InLine) (conserved : m.Conserved)
    (room : m.deferred = []) : m.close.InLine :=
  inLine.step conserved room (by exact room) (show m.Step .close m.close from rfl)

theorem InLine.push (inLine : InLine station) (entry : Option Letter) (node : IChannelNode)
    (after : (station.push entry node).Unhindered) : InLine (station.push entry node) := by
  unfold Station.push at after ⊢
  split at after
  next opened =>
    rw [if_pos opened]
    exact ⟨inLine.mailbox.push (some node) after.1, inLine.output⟩
  next closed =>
    rw [if_neg closed]
    exact inLine

theorem InLine.send (inLine : InLine station) (letter : Letter)
    (after : (station.send letter).Unhindered) : InLine (station.send letter) := by
  unfold Station.send at after ⊢
  split
  next output tried =>
    refine ⟨inLine.mailbox, ?_⟩
    have output := inLine.output
    unfold onWay at output ⊢
    dsimp only
    rw [Channel.trySend_contents tried, ← List.append_assoc]
    exact output.append (List.Sublist.refl _)
  next refused =>
    rw [refused] at after
    split
    next opened =>
      have room := after.2
      simp [opened] at room
    next => exact inLine

theorem InLine.change (inLine : InLine station) (kept : Kept station)
    (before : station.Unhindered) (after : later.Unhindered)
    (changed : Change packages station brought later) : InLine later := by
  have output := inLine.output
  cases changed with
  | same => exact inLine
  | push _ node => exact inLine.push brought node after
  | send letter => exact inLine.send letter after
  | @deliver letter later delivered =>
    simp only [Station.deliver, before.2] at delivered
    cases delivered
  | event moved other role_kept =>
    exact ⟨inLine.mailbox.step kept.mailbox before.1 after.1 moved, inLine.output⟩
  | tested tested =>
    unfold Station.writeTest at tested
    split at tested
    next testing =>
      have idle := kept.resting (by rw [testing]; exact fun same => by cases same)
      unfold onWay at output
      rw [testing] at output
      split at tested
      · cases tested
        refine ⟨inLine.mailbox, ?_⟩
        unfold onWay
        dsimp only
        rwa [Channel.asyncReceive_contents idle]
      · cases tested
        exact ⟨inLine.mailbox, output⟩
    all_goals cases tested
  | failed receiving taken =>
    have failed := Channel.take_error taken
    obtain ⟨-, rfl⟩ := Channel.take_spec taken
    refine ⟨close_inLine inLine.mailbox kept.mailbox before.1, ?_⟩
    unfold onWay at output ⊢
    simp only [Station.disconnect]
    rw [close_contents]
    simp only [receiving, Channel.contents, failed, Receiver.item, Writer.letter] at output ⊢
    exact output
  | @took letter channel writer receiving taken next =>
    refine ⟨inLine.mailbox, List.Sublist.trans ?_ output⟩
    unfold onWay
    rw [receiving, Channel.take_contents taken]
    rcases next with rfl | rfl
    · rw [Writer.letter, Writer.letter, List.append_nil, List.append_assoc]
      exact List.Sublist.refl _
    · rw [Writer.letter, Writer.letter, List.append_nil]
      exact (List.sublist_cons_self letter _).append_left _
  | @broke letter encoding =>
    refine ⟨close_inLine inLine.mailbox kept.mailbox before.1, List.Sublist.trans ?_ output⟩
    unfold onWay
    simp only [Station.disconnect, Writer.letter, encoding, List.append_nil]
    rw [close_contents]
    exact (List.sublist_append_left _ [letter]).append_right _
  | @wrote letter pkg later encoding carried on =>
    unfold onWay at output
    rw [encoding] at output
    rcases on with rfl | rfl
    · refine ⟨inLine.mailbox, ?_⟩
      unfold onWay
      simp only [List.map_append, List.map_cons, List.map_nil, Writer.letter, List.append_nil]
        at output ⊢
      exact output
    · refine ⟨close_inLine inLine.mailbox kept.mailbox before.1, ?_⟩
      unfold onWay
      simp only [List.map_append, List.map_cons, List.map_nil, Writer.letter, List.append_nil,
        Station.disconnect] at output ⊢
      rwa [close_contents]
  | disconnect =>
    refine ⟨close_inLine inLine.mailbox kept.mailbox before.1, ?_⟩
    unfold onWay at output ⊢
    simp only [Station.disconnect]
    rwa [close_contents]

end Station

namespace Exchange
variable {s t : Exchange} {move : Move} {agent : AgentId} {station : Station}

/-- The agent that a coroutine or a channel belongs to which goes on. -/
def Move.mover : Move → Option AgentId
  | .mailbox agent _ | .deliver agent _ | .writeTest agent | .writeResume agent
  | .encoded agent _ | .disconnect agent => some agent
  | .ask .. | .advance _ | .write .. | .enter .. | .enlist _ | .removeService _ | .eraseName _
  | .login .. | .logout _ | .modules .. => none

/-- What a move does: it concerns the calls, the packages, the maps or one agent. -/
inductive Effect (s : Exchange) : Move → Exchange → Prop where
  | asked {sender : AgentId} {request : Request} {station : Station}
      (found : s.stations.lookup sender = some station) (offers : station.role.offers request) :
      Effect s (.ask sender request) { s with
        calls := s.calls.insert s.asked.length (.asked sender request)
        asked := s.asked ++ [(sender, request)] }
  | advanced {number : Nat} {posting : Posting} (known : s.calls.lookup number = some posting) :
      Effect s (.advance number)
        ((s.advance number posting).1.keep number (s.advance number posting).2)
  | wrote (pkg : PackageId) (change : FPacket → FPacket) :
      Effect s (.write pkg change) (s.write pkg change)
  | entered {agent : AgentId} (role : Role) (absent : s.stations.lookup agent = none) :
      Effect s (.enter agent role) { s with stations := s.stations.insert agent (.new role) }
  | enlisted {agent : AgentId} {station : Station} {sid : Int} {name : String}
      (found : s.stations.lookup agent = some station) (role : station.role = .service sid name) :
      Effect s (.enlist agent) { s with
        serviceMap := s.serviceMap.insert sid agent
        serviceNameMap := s.serviceNameMap.insert name sid }
  | removed (sid : Int) :
      Effect s (.removeService sid) { s with serviceMap := s.serviceMap.erase sid }
  | unnamed (name : String) :
      Effect s (.eraseName name) { s with serviceNameMap := s.serviceNameMap.erase name }
  | loggedIn {agent : AgentId} {station : Station} (pid : Int64)
      (found : s.stations.lookup agent = some station) (role : station.role = .player) :
      Effect s (.login pid agent) { s with playerMap := s.playerMap.insert pid agent }
  | loggedOut (pid : Int64) :
      Effect s (.logout pid) { s with playerMap := s.playerMap.erase pid }
  | switched (route service gateway : Option EModuleState) :
      Effect s (.modules route service gateway) { s with route, service, gateway }
  | moved {move : Move} {agent : AgentId} {station later : Station}
      (mover : move.mover = some agent)
      (found : s.stations.lookup agent = some station)
      (changed : Station.Change s.packages station none later) :
      Effect s move (s.edit agent fun _ => later)

theorem event_change {later : Station} {event : Mailbox.Event}
    (moved : station.step event = some later) : Station.Change s.packages station none later := by
  unfold Station.step at moved
  split at moved
  · cases moved
    exact .same
  · cases moved
  · cases moved
  next node _ _ =>
    cases moved
    exact .push none node
  · obtain ⟨mailbox, stepped, rfl⟩ := Option.map_eq_some_iff.mp moved
    refine .event stepped (fun node same => by cases same) ?_
    cases station.role with
    | service sid name => exact .inr ⟨rfl, Role.noConfusion, Role.noConfusion⟩
    | player => exact .inl rfl
  next event plain pkg task other cleans =>
    obtain ⟨mailbox, stepped, rfl⟩ := Option.map_eq_some_iff.mp moved
    refine .event stepped ?_ (.inl rfl)
    rintro (node | node) rfl
    · exact plain rfl
    · exact other node rfl

theorem edit_found {change : Station → Station} (found : s.stations.lookup agent = some station) :
    s.edit agent change = s.edit agent fun _ => change station := by
  unfold edit Table.modify
  rw [found]

/-- A change that a function makes to an agent that is there. -/
theorem edit_effect {change : Station → Station} (mover : move.mover = some agent)
    (found : s.stations.lookup agent = some station)
    (changed : Station.Change s.packages station none (change station)) :
    Effect s move (s.edit agent change) := by
  rw [edit_found found]
  exact .moved mover found changed

theorem move_effect {change : Station → Option Station} (mover : move.mover = some agent)
    (moved : s.move agent change = some t)
    (changes : ∀ station later, change station = some later →
      Station.Change s.packages station none later) : Effect s move t := by
  unfold Exchange.move at moved
  obtain ⟨later, changed, rfl⟩ := Option.map_eq_some_iff.mp moved
  obtain ⟨station, found, changed⟩ := Option.bind_eq_some_iff.mp changed
  exact .moved mover found (changes station later changed)

theorem writeResume_effect (found : s.stations.lookup agent = some station)
    (moved : s.writeResume agent station = some t) : Effect s (.writeResume agent) t := by
  unfold writeResume at moved
  split at moved
  next receiving =>
    split at moved
    next => cases moved
    next output taken =>
      cases moved
      exact edit_effect rfl found (.failed receiving taken)
    next letter output taken =>
      cases moved
      refine edit_effect rfl found (.took receiving taken ?_)
      split
      · exact .inl rfl
      · exact .inr rfl
  all_goals cases moved

theorem encoded_effect {ok : Bool} (found : s.stations.lookup agent = some station)
    (moved : s.encoded agent station ok = some t) : Effect s (.encoded agent ok) t := by
  unfold encoded at moved
  split at moved
  next letter encoding =>
    split at moved
    next => cases moved
    next pkg carried =>
      split at moved
      · cases moved
        exact edit_effect rfl found (.broke encoding)
      · cases moved
        refine edit_effect rfl found ?_
        dsimp only
        split
        · exact .wrote encoding carried (.inr rfl)
        · exact .wrote encoding carried (.inl rfl)
  all_goals cases moved

theorem Step.effect (moved : s.Step move t) : Effect s move t := by
  cases move with
  | ask sender request =>
    simp only [Step, next] at moved
    split at moved
    next offers =>
      cases moved
      obtain ⟨station, found, offers⟩ := (Option.any_eq_true _ _).mp offers
      exact .asked found offers
    next => cases moved
  | advance number =>
    obtain ⟨posting, known, rfl⟩ := Option.map_eq_some_iff.mp moved
    exact .advanced known
  | write pkg change =>
    cases moved
    exact .wrote pkg change
  | enter agent role =>
    simp only [Step, next] at moved
    split at moved
    next absent =>
      cases moved
      exact .entered role (Option.isNone_iff_eq_none.mp absent)
    next => cases moved
  | enlist agent =>
    simp only [Step, next] at moved
    split at moved
    next sid name role =>
      cases moved
      obtain ⟨station, found, role⟩ := Option.map_eq_some_iff.mp role
      exact .enlisted found role
    all_goals cases moved
  | removeService sid =>
    cases moved
    exact .removed sid
  | eraseName name =>
    cases moved
    exact .unnamed name
  | login pid agent =>
    simp only [Step, next] at moved
    split at moved
    next role =>
      cases moved
      obtain ⟨station, found, role⟩ := Option.map_eq_some_iff.mp role
      exact .loggedIn pid found role
    all_goals cases moved
  | logout pid =>
    cases moved
    exact .loggedOut pid
  | modules route service gateway =>
    cases moved
    exact .switched route service gateway
  | mailbox agent event => exact move_effect rfl moved fun _ _ stepped => event_change stepped
  | deliver agent letter => exact move_effect rfl moved fun _ _ delivered => .deliver delivered
  | writeTest agent => exact move_effect rfl moved fun _ _ tested => .tested tested
  | writeResume agent =>
    obtain ⟨station, found, moved⟩ := Option.bind_eq_some_iff.mp moved
    exact writeResume_effect found moved
  | encoded agent ok =>
    obtain ⟨station, found, moved⟩ := Option.bind_eq_some_iff.mp moved
    exact encoded_effect found moved
  | disconnect agent =>
    refine move_effect rfl moved ?_
    intro station later closed
    cases closed
    exact .disconnect

end Exchange
end Uranus
