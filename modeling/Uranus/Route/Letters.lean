import Uranus.Route.Advance

/-! The calls of the actors as errands: each is asked for once, and leaves one
letter in one mailbox or one output, or none. -/
namespace Uranus
open Foundation Transition

inductive Box where
  | mailbox (agent : AgentId)
  | client (agent : AgentId)
deriving DecidableEq, Repr

namespace Exchange
variable {s t : Exchange} {move : Move} {number : Nat} {sender agent : AgentId}
  {posting : Posting} {rest : Option Posting} {pkg : PackageId} {name : String}

def boxes (stations : Table AgentId Station) : Box → List (Option Letter)
  | .mailbox agent => ((stations.lookup agent).map Station.letters).getD []
  | .client agent => ((stations.lookup agent).map fun station => station.sent.map some).getD []

/-- What the exchange is to its errands. -/
def courier (s : Exchange) : Courier AgentId (Option PackageId) Box where
  asked := s.asked.map fun entry => (entry.1, entry.2.package)
  underway number := (s.calls.lookup number).map fun posting => (posting.sender, posting.package)
  boxes := boxes s.stations

/-- The errand that a move begins. -/
def Move.errand : Move → Option (AgentId × Option PackageId)
  | .ask sender request => some (sender, request.package)
  | _ => none

section
variable {stations : Table AgentId Station} {change : Station → Station} {entry : Option Letter}

theorem boxes_modify
    (letters : ∀ station, (change station).letters = station.letters)
    (sent : ∀ station, (change station).sent = station.sent) :
    boxes (Table.modify agent change stations) = boxes stations := by
  funext box
  cases box with
  | mailbox other =>
    simp only [boxes, Table.lookup_modify]
    split
    next same =>
      subst same
      cases stations.lookup other <;> simp [letters]
    next => rfl
  | client other =>
    simp only [boxes, Table.lookup_modify]
    split
    next same =>
      subst same
      cases stations.lookup other <;> simp [sent]
    next => rfl

theorem boxes_insert {station : Station} (later : Station)
    (present : stations.lookup agent = some station)
    (letters : later.letters = station.letters) (sent : later.sent = station.sent) :
    boxes (Table.modify agent (fun _ => later) stations) = boxes stations := by
  have same : boxes (Table.modify agent (fun _ => later) stations) =
      boxes (Table.modify agent (fun station => { later with
        letters := station.letters, sent := station.sent }) stations) := by
    unfold Table.modify
    rw [present]
    dsimp only
    rw [← letters, ← sent]
  rw [same]
  exact boxes_modify (fun _ => rfl) (fun _ => rfl)

theorem boxes_push (node : IChannelNode) :
    boxes (Table.modify agent (Station.push entry node) stations) = boxes stations ∨
      boxes (Table.modify agent (Station.push entry node) stations) =
        Function.update (boxes stations) (.mailbox agent)
          (boxes stations (.mailbox agent) ++ [entry]) := by
  cases present : stations.lookup agent with
  | none =>
    left
    unfold Table.modify
    rw [present]
  | some station =>
    by_cases opened : station.mailbox.channel.isOpen
    · right
      have pushed : Station.push entry node station =
          { station with
            mailbox := station.mailbox.push (some node)
            letters := station.letters ++ [entry] } := by
        rw [Station.push, if_pos opened]
      funext box
      cases box with
      | mailbox other =>
        simp only [boxes, Table.lookup_modify, Function.update_apply, Box.mailbox.injEq]
        split
        next same => simp [present, pushed]
        next => rfl
      | client other =>
        simp only [boxes, Table.lookup_modify, Function.update_apply, reduceCtorEq, if_false]
        split
        next same =>
          subst same
          simp [present, pushed]
        next => rfl
    · left
      have kept : Station.push entry node station = station := by
        rw [Station.push, if_neg opened]
      have same := boxes_insert (Station.push entry node station) present
        (by rw [kept]) (by rw [kept])
      unfold Table.modify at same ⊢
      rw [present] at same ⊢
      exact same

theorem boxes_send (letter : Letter) :
    boxes (Table.modify agent (Station.send letter) stations) = boxes stations ∨
      boxes (Table.modify agent (Station.send letter) stations) =
        Function.update (boxes stations) (.client agent)
          (boxes stations (.client agent) ++ [some letter]) := by
  cases present : stations.lookup agent with
  | none =>
    left
    unfold Table.modify
    rw [present]
  | some station =>
    have sends : Station.send letter station = station ∨
        (Station.send letter station).letters = station.letters ∧
          (Station.send letter station).sent = station.sent ++ [letter] := by
      unfold Station.send
      split
      · exact .inr ⟨rfl, rfl⟩
      · split
        · exact .inr ⟨rfl, rfl⟩
        · exact .inl rfl
    rcases sends with kept | ⟨letters, sent⟩
    · left
      have same := boxes_insert (Station.send letter station) present
        (by rw [kept]) (by rw [kept])
      unfold Table.modify at same ⊢
      rw [present] at same ⊢
      exact same
    · right
      funext box
      cases box with
      | mailbox other =>
        simp only [boxes, Table.lookup_modify, Function.update_apply, reduceCtorEq, if_false]
        split
        next same =>
          subst same
          simp [present, letters]
        next => rfl
      | client other =>
        simp only [boxes, Table.lookup_modify, Function.update_apply, Box.client.injEq]
        split
        next same => simp [present, sent]
        next => rfl

end

/-- A change of an agent that no box shows. -/
theorem edit_idle {change : Station → Station}
    (same : boxes (Table.modify agent change s.stations) = boxes s.stations) :
    Courier.Step s.courier none (s.edit agent change).courier := by
  have alike : (s.edit agent change).courier = s.courier := by
    unfold edit courier
    rw [same]
  rw [alike]
  exact .idle

/-- A call that has ended or goes on, as an errand. -/
theorem keep_courier (packages : PackageId → FPacket) (stations : Table AgentId Station)
    (known : s.calls.lookup number = some posting)
    (carries : Carries posting.sender posting.package rest) :
    (({ s with packages, stations } : Exchange).keep number rest).courier =
      match rest with
      | none => Courier.settle number { s.courier with boxes := boxes stations }
      | some _ => { s.courier with boxes := boxes stations } := by
  cases rest with
  | none =>
    apply Courier.ext
    · rfl
    · funext n
      simp only [keep, courier, Courier.settle, Function.update_apply, Table.lookup_erase_ite]
      split <;> rfl
    · rfl
  | some later =>
    obtain ⟨sender, package⟩ := carries later rfl
    apply Courier.ext
    · rfl
    · funext n
      simp only [keep, courier, Table.lookup_insert_ite]
      split
      next same =>
        subst same
        rw [known, Option.map_some, Option.map_some, sender, package]
      next => rfl
    · rfl

theorem advance_courier (known : s.calls.lookup number = some posting) :
    Courier.Step s.courier none
      ((s.advance number posting).1.keep number (s.advance number posting).2).courier := by
  have underway : s.courier.underway number = some (posting.sender, posting.package) := by
    simp only [courier, known, Option.map_some]
  have advanced := advance_advanced s number posting
  generalize (s.advance number posting).1 = later, (s.advance number posting).2 = rest at advanced ⊢
  cases advanced with
  | goes packages only carries fit =>
    rw [keep_courier packages s.stations known carries]
    split
    · exact .drop number
    · exact .idle
  | pushed packages agent node =>
    simp only [edit]
    rw [keep_courier packages _ known .none]
    rcases boxes_push node with same | added
    · rw [same]
      exact .drop number
    · rw [added]
      exact .deliver (.mailbox agent) underway
  | sent packages agent =>
    simp only [edit]
    rw [keep_courier packages _ known .none]
    rcases boxes_send _ with same | added
    · rw [same]
      exact .drop number
    · rw [added]
      exact .deliver (.client agent) underway

/-- What comes to an agent without a letter shows in no box, or as an entry that
is no letter. -/
theorem change_boxes {station later : Station}
    (changed : Station.Change s.packages station none later) :
    later.letters = station.letters ∧ later.sent = station.sent ∨
      ∃ node, later = station.push none node := by
  cases changed with
  | push _ node => exact .inr ⟨node, rfl⟩
  | same | event | failed | took | broke | disconnect => exact .inl ⟨rfl, rfl⟩
  | deliver delivered =>
    unfold Station.deliver at delivered
    split at delivered
    · cases delivered
      exact .inl ⟨rfl, rfl⟩
    · cases delivered
  | tested tested =>
    unfold Station.writeTest at tested
    split at tested
    · split at tested
      · cases tested
        exact .inl ⟨rfl, rfl⟩
      · cases tested
        exact .inl ⟨rfl, rfl⟩
    all_goals cases tested
  | wrote encoding carried on =>
    rcases on with rfl | rfl
    · exact .inl ⟨rfl, rfl⟩
    · exact .inl ⟨rfl, rfl⟩

theorem moved_courier {station later : Station} (present : s.stations.lookup agent = some station)
    (changed : Station.Change s.packages station none later) :
    Courier.Step s.courier none (s.edit agent fun _ => later).courier := by
  rcases change_boxes changed with ⟨letters, sent⟩ | ⟨node, rfl⟩
  · exact edit_idle (boxes_insert later present letters sent)
  · rw [← edit_found present]
    unfold edit courier
    rcases boxes_push node with same | added
    · rw [same]
      exact .idle
    · rw [added]
      exact Courier.Step.other (Box.mailbox agent)

theorem entered_boxes (role : Role) (absent : s.stations.lookup agent = none) :
    boxes (s.stations.insert agent (.new role)) = boxes s.stations := by
  funext box
  cases box with
  | mailbox other =>
    by_cases same : other = agent
    · subst same
      simp [boxes, absent, Station.new]
    · simp [boxes, same]
  | client other =>
    by_cases same : other = agent
    · subst same
      simp [boxes, absent, Station.new]
    · simp [boxes, same]

/-- Every move of the exchange is a step of its errands. -/
theorem Effect.courier (effect : Effect s move t) :
    Courier.Step s.courier move.errand t.courier := by
  cases effect with
  | @asked sender request station found offers =>
    have asks : Exchange.courier { s with
        calls := s.calls.insert s.asked.length (.asked sender request)
        asked := s.asked ++ [(sender, request)] } =
        { s.courier with
          asked := s.courier.asked ++ [(sender, request.package)]
          underway := Function.update s.courier.underway s.courier.asked.length
            (some (sender, request.package)) } := by
      apply Courier.ext
      · simp [Exchange.courier]
      · funext n
        simp only [Exchange.courier, Table.lookup_insert_ite, Function.update_apply,
          List.length_map]
        split <;> rfl
      · rfl
    rw [asks]
    exact .ask (sender, request.package)
  | advanced known => exact advance_courier known
  | entered role absent =>
    unfold Exchange.courier
    rw [entered_boxes role absent]
    exact .idle
  | moved mover found changed =>
    have quiet : move.errand = none := by
      cases move with
      | ask sender request => cases mover
      | _ => rfl
    rw [quiet]
    exact moved_courier found changed
  | wrote | enlisted | removed | unnamed | loggedIn | loggedOut | switched => exact .idle

end Exchange
end Uranus
