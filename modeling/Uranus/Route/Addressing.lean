import Mathlib.Data.Multiset.Bind
import Uranus.Route.Directory

/-! What a recipient finds in the header of a package. Senders write the target
into the package itself, so it is right as long as a package is in one place
only: nobody sends it again or writes to it before it has arrived. -/
namespace Uranus
open Foundation Transition

namespace Station
variable {station later : Station} {entry : Option Letter} {letter : Letter}
  {packages : PackageId → FPacket}

/-- The letters in the mailbox that are still to be executed. -/
def incoming (station : Station) : Multiset Letter :=
  station.mailbox.waiting.filterMap fun post => (station.letters[post.serial]?).join

/-- The letters for the client that are not written yet. -/
def outgoing (station : Station) : Multiset Letter :=
  ((station.writer.letter ++ station.output.contents : List Letter) : Multiset Letter) +
    (station.waiting : Multiset Letter)

/-- The packages on their way through an agent. -/
def underway (station : Station) : Multiset PackageId :=
  (station.incoming + station.outgoing).filterMap Parcel.body

/-- Nodes that wait have letters that stay theirs when further ones come. -/
theorem Kept.incoming_le (kept : Kept station) {waiting : Multiset Post}
    (more : List (Option Letter)) (fewer : waiting ≤ station.mailbox.waiting) :
    (waiting.filterMap fun post => ((station.letters ++ more)[post.serial]?).join) ≤
      station.incoming := by
  have same : (waiting.filterMap fun post => ((station.letters ++ more)[post.serial]?).join) =
      waiting.filterMap fun post => (station.letters[post.serial]?).join := by
    rw [Multiset.filterMap_eq_bind, Multiset.filterMap_eq_bind]
    refine Multiset.bind_congr fun post waits => ?_
    have numbered := kept.mailbox.numbered
      (Multiset.mem_add.mpr (.inr (Multiset.mem_of_le fewer waits)))
    obtain ⟨below, -⟩ := List.getElem?_eq_some_iff.mp numbered
    rw [List.getElem?_append_left (by rw [kept.letters]; exact below)]
  rw [same]
  exact Multiset.filterMap_le_filterMap _ fewer

theorem incoming_push (kept : Kept station) (entry : Option Letter) (node : IChannelNode) :
    (station.push entry node).incoming ≤ station.incoming + (entry.toList : Multiset Letter) := by
  unfold Station.push
  split
  next opened =>
    rcases Mailbox.push_cases (m := station.mailbox) node with same | ⟨-, -, waiting, -⟩
    · unfold incoming
      dsimp only
      rw [same]
      exact (kept.incoming_le _ (le_refl _)).trans (Multiset.le_add_right _ _)
    · unfold incoming
      dsimp only
      rw [waiting, Multiset.filterMap_add]
      refine add_le_add (kept.incoming_le _ (le_refl _)) ?_
      have last : ((station.letters ++ [entry])[station.mailbox.pushed.length]?).join = entry := by
        rw [← kept.letters]
        simp
      rw [← Multiset.cons_zero, Multiset.filterMap_cons]
      dsimp only
      rw [last]
      cases entry <;> exact le_refl _
  next => exact Multiset.le_add_right _ _

theorem outgoing_push (entry : Option Letter) (node : IChannelNode) :
    (station.push entry node).outgoing = station.outgoing := by
  unfold Station.push
  split <;> rfl

theorem incoming_send (letter : Letter) : (station.send letter).incoming = station.incoming := by
  unfold Station.send
  split
  · rfl
  · split <;> rfl

theorem outgoing_send (letter : Letter) :
    (station.send letter).outgoing ≤ station.outgoing + {letter} := by
  unfold Station.send
  split
  next output tried =>
    unfold outgoing
    dsimp only
    rw [Channel.trySend_contents tried, ← List.append_assoc, ← Multiset.coe_add _ [letter],
      Multiset.coe_singleton, add_right_comm]
  next =>
    split
    · unfold outgoing
      dsimp only
      rw [← Multiset.coe_add _ [letter], Multiset.coe_singleton, add_assoc]
    · exact Multiset.le_add_right _ _

theorem Kept.incoming_mailbox (kept : Kept station) (letters : later.letters = station.letters)
    (waiting : later.mailbox.waiting ≤ station.mailbox.waiting) :
    later.incoming ≤ station.incoming := by
  have fewer := kept.incoming_le [] waiting
  rw [List.append_nil] at fewer
  unfold incoming at fewer ⊢
  rwa [letters]

theorem Kept.incoming_closed (kept : Kept station) (letters : later.letters = station.letters)
    (mailbox : later.mailbox = station.mailbox.close) : later.incoming ≤ station.incoming := by
  refine kept.incoming_mailbox letters ?_
  rw [mailbox]
  exact (Mailbox.step_quiet kept.mailbox
    (show station.mailbox.Step .close station.mailbox.close from rfl)
    (fun node same => by cases same)).1.waiting

theorem outgoing_le {before : List Letter}
    (fewer : before.Sublist (station.writer.letter ++ station.output.contents))
    (same : later.writer.letter ++ later.output.contents = before)
    (waiting : later.waiting = station.waiting) : later.outgoing ≤ station.outgoing := by
  unfold outgoing
  rw [same, waiting]
  exact add_le_add (Multiset.coe_le.mpr fewer.subperm) (le_refl _)

theorem deliver_outgoing {letter : Letter} (delivered : station.deliver letter = some later) :
    later.outgoing ≤ station.outgoing := by
  unfold Station.deliver at delivered
  split at delivered
  next waits =>
    cases delivered
    have split : (station.waiting : Multiset Letter) =
        {letter} + (station.waiting.erase letter : Multiset Letter) := by
      rw [Multiset.singleton_add, ← Multiset.coe_erase, Multiset.cons_erase (by exact waits)]
    unfold outgoing
    dsimp only
    rw [split, ← add_assoc]
    refine add_le_add ?_ (le_refl _)
    by_cases opened : station.output.isOpen
    · rw [Channel.asyncSend_contents opened, ← List.append_assoc, ← Multiset.coe_add _ [letter],
        Multiset.coe_singleton]
    · rw [Channel.asyncSend, dif_neg opened]
      exact Multiset.le_add_right _ _
  next => cases delivered

/-- What happens to an agent without a letter brings it none. -/
theorem Change.quiet (kept : Kept station) (changed : Change packages station none later) :
    later.incoming ≤ station.incoming ∧ later.outgoing ≤ station.outgoing := by
  have whole := List.Sublist.refl (station.writer.letter ++ station.output.contents)
  cases changed with
  | same => exact ⟨le_refl _, le_refl _⟩
  | push _ node =>
    refine ⟨?_, le_of_eq (outgoing_push none node)⟩
    exact (incoming_push kept none node).trans (le_of_eq (add_zero _))
  | deliver delivered =>
    refine ⟨?_, deliver_outgoing delivered⟩
    unfold Station.deliver at delivered
    split at delivered
    · cases delivered
      exact le_refl _
    · cases delivered
  | event moved other role =>
    have quiet := (Mailbox.step_quiet kept.mailbox moved fun node => other (some node)).1
    exact ⟨kept.incoming_mailbox rfl quiet.waiting, le_refl _⟩
  | tested tested =>
    unfold Station.writeTest at tested
    split at tested
    next testing =>
      have idle := kept.resting (by rw [testing]; exact fun same => by cases same)
      split at tested
      · cases tested
        refine ⟨le_refl _, outgoing_le whole ?_ rfl⟩
        simp only [testing, Writer.letter, Channel.asyncReceive_contents idle]
      · cases tested
        refine ⟨le_refl _, outgoing_le whole ?_ rfl⟩
        simp only [testing, Writer.letter]
    all_goals cases tested
  | failed receiving taken =>
    have failed := Channel.take_error taken
    obtain ⟨-, rfl⟩ := Channel.take_spec taken
    refine ⟨kept.incoming_closed rfl rfl, outgoing_le whole ?_ rfl⟩
    simp only [Station.disconnect, close_contents, receiving, Writer.letter]
    simp only [Channel.contents, failed, Receiver.item]
  | @took letter output writer receiving taken next =>
    refine ⟨kept.incoming_mailbox rfl (le_refl _), ?_⟩
    have contents := Channel.take_contents taken
    rcases next with rfl | rfl
    · refine outgoing_le whole ?_ rfl
      simp only [receiving, Writer.letter, contents]
      rfl
    · refine outgoing_le ?_ rfl rfl
      rw [receiving, contents]
      exact List.sublist_cons_self letter _
  | @broke letter encoding =>
    refine ⟨kept.incoming_closed rfl rfl, outgoing_le ?_ rfl rfl⟩
    simp only [Station.disconnect, close_contents, encoding]
    exact List.sublist_cons_self letter _
  | @wrote letter pkg later encoding carried on =>
    rcases on with rfl | rfl
    · refine ⟨kept.incoming_mailbox rfl (le_refl _), outgoing_le ?_ rfl rfl⟩
      rw [encoding]
      exact List.sublist_cons_self letter _
    · refine ⟨kept.incoming_closed rfl rfl, outgoing_le ?_ rfl rfl⟩
      simp only [Station.disconnect, close_contents, encoding]
      exact List.sublist_cons_self letter _
  | disconnect =>
    refine ⟨kept.incoming_closed rfl rfl, outgoing_le whole ?_ rfl⟩
    simp only [Station.disconnect, close_contents]

theorem new_underway (role : Role) : (Station.new role).underway = 0 := by
  cases role <;> rfl

theorem underway_le (incoming : later.incoming ≤ station.incoming)
    (outgoing : later.outgoing ≤ station.outgoing) : later.underway ≤ station.underway :=
  Multiset.filterMap_le_filterMap _ (add_le_add incoming outgoing)

theorem underway_more (fewer : later.incoming + later.outgoing ≤
    station.incoming + station.outgoing + {letter}) :
    later.underway ≤ station.underway + (letter.body.toList : Multiset PackageId) := by
  have within := Multiset.filterMap_le_filterMap Parcel.body fewer
  rw [Multiset.filterMap_add _ _ {letter}] at within
  refine within.trans (add_le_add (le_refl _) ?_)
  rw [← Multiset.cons_zero, Multiset.filterMap_cons]
  cases letter.body <;> exact le_refl _

theorem underway_push (kept : Kept station) (letter : Letter) (node : IChannelNode) :
    (station.push (some letter) node).underway ≤
      station.underway + (letter.body.toList : Multiset PackageId) := by
  apply underway_more
  rw [outgoing_push, add_right_comm]
  exact add_le_add (incoming_push kept (some letter) node) (le_refl _)

theorem underway_send (letter : Letter) : (station.send letter).underway ≤
    station.underway + (letter.body.toList : Multiset PackageId) := by
  apply underway_more
  rw [incoming_send, add_assoc]
  exact add_le_add (le_refl _) (outgoing_send letter)

theorem mem_underway {pkg : PackageId} (held : letter ∈ station.incoming + station.outgoing)
    (carried : letter.body = some pkg) : pkg ∈ station.underway :=
  (Multiset.mem_filterMap _ _).mpr ⟨letter, held, carried⟩

/-- The packages that wait in an open mailbox have its agent as their target, those
that wait for the client or have been written to it have the client. -/
structure Addressed (packages : PackageId → FPacket) (station : Station) : Prop where
  mailbox : station.mailbox.channel.isOpen → ∀ letter ∈ station.incoming, ∀ pkg,
    letter.body = some pkg → (packages pkg).header.target = station.meant
  output : ∀ letter ∈ station.outgoing, ∀ pkg, letter.body = some pkg →
    (packages pkg).header.target = clientTargetId
  written : ∀ entry ∈ station.written, entry.2.header.target = clientTargetId

theorem new_addressed (role : Role) : Addressed packages (.new role) := by
  constructor
  · intro _ letter held
    cases role <;> cases held
  · intro letter held
    cases role <;> cases held
  · intro entry held
    cases held

/-- Only packages under way matter. -/
theorem Addressed.rewrite (addressed : Addressed packages station)
    {rewritten : PackageId → FPacket}
    (same : ∀ pkg ∈ station.underway, rewritten pkg = packages pkg) :
    Addressed rewritten station := by
  refine ⟨fun opened letter held pkg carried => ?_, fun letter held pkg carried => ?_,
    addressed.written⟩
  · rw [same pkg (mem_underway (Multiset.mem_add.mpr (.inl held)) carried)]
    exact addressed.mailbox opened letter held pkg carried
  · rw [same pkg (mem_underway (Multiset.mem_add.mpr (.inr held)) carried)]
    exact addressed.output letter held pkg carried

/-- An agent that has got no letter, with what it has written since. -/
theorem Addressed.less (addressed : Addressed packages station) (stays : Stays station later)
    (incoming : later.incoming ≤ station.incoming) (outgoing : later.outgoing ≤ station.outgoing)
    (written : ∀ entry ∈ later.written, entry ∈ station.written ∨
      entry.2.header.target = clientTargetId) : Addressed packages later := by
  constructor
  · intro opened letter held pkg carried
    rw [stays.meant opened]
    have waits := Multiset.mem_of_le incoming held
    exact addressed.mailbox (stays.role opened).1 letter waits pkg carried
  · intro letter held
    exact addressed.output letter (Multiset.mem_of_le outgoing held)
  · intro entry held
    rcases written entry held with before | target
    · exact addressed.written entry before
    · exact target

theorem Addressed.push (addressed : Addressed packages station) (kept : Kept station)
    (shut : station.mailbox.Shut) (letter : Letter) (node : IChannelNode)
    (fit : ∀ pkg, letter.body = some pkg → station.mailbox.channel.isOpen →
      (packages pkg).header.target = station.meant) :
    Addressed packages (station.push (some letter) node) := by
  have stays := (push_stays shut (some letter) node).2
  constructor
  · intro opened other held pkg carried
    obtain ⟨before, -⟩ := stays.role opened
    rw [stays.meant opened]
    have incoming := incoming_push kept (some letter) node
    rcases Multiset.mem_add.mp (Multiset.mem_of_le incoming held) with old | new
    · exact addressed.mailbox before other old pkg carried
    · obtain rfl := Multiset.mem_singleton.mp new
      exact fit pkg carried before
  · intro other held
    rw [outgoing_push] at held
    exact addressed.output other held
  · intro entry held
    refine addressed.written entry ?_
    unfold Station.push at held
    split at held <;> exact held

theorem Addressed.send (addressed : Addressed packages station) (letter : Letter)
    (fit : ∀ pkg, letter.body = some pkg → (packages pkg).header.target = clientTargetId) :
    Addressed packages (station.send letter) := by
  have sends : (station.send letter).mailbox = station.mailbox ∧
      (station.send letter).meant = station.meant ∧
      (station.send letter).written = station.written := by
    unfold Station.send
    split
    · exact ⟨rfl, rfl, rfl⟩
    · split <;> exact ⟨rfl, rfl, rfl⟩
  obtain ⟨mailbox, meant, written⟩ := sends
  constructor
  · rw [mailbox, incoming_send, meant]
    exact addressed.mailbox
  · intro other held pkg carried
    rcases Multiset.mem_add.mp (Multiset.mem_of_le (outgoing_send letter) held) with old | new
    · exact addressed.output other old pkg carried
    · obtain rfl := Multiset.mem_singleton.mp new
      exact fit pkg carried
  · rw [written]
    exact addressed.written

theorem Addressed.change (addressed : Addressed packages station) (kept : Kept station)
    (shut : station.mailbox.Shut) (changed : Change packages station none later) :
    Addressed packages later := by
  obtain ⟨incoming, outgoing⟩ := changed.quiet kept
  refine addressed.less (changed.stays kept shut).2 incoming outgoing ?_
  have before (entry : Letter × FPacket) (held : entry ∈ station.written) :
      entry ∈ station.written ∨ entry.2.header.target = clientTargetId := .inl held
  cases changed with
  | same | event | failed | took | broke | disconnect => exact before
  | push _ node =>
    unfold Station.push
    split <;> exact before
  | deliver delivered =>
    unfold Station.deliver at delivered
    split at delivered
    · cases delivered
      exact before
    · cases delivered
  | tested tested =>
    unfold Station.writeTest at tested
    split at tested
    · split at tested <;> cases tested <;> exact before
    all_goals cases tested
  | @wrote letter pkg later encoding carried on =>
    have target : (packages pkg).header.target = clientTargetId := by
      refine addressed.output letter ?_ pkg carried
      unfold Station.outgoing
      rw [encoding]
      exact Multiset.mem_add.mpr (.inl (List.mem_cons_self))
    have after (entry : Letter × FPacket)
        (held : entry ∈ station.written ++ [(letter, packages pkg)]) :
        entry ∈ station.written ∨ entry.2.header.target = clientTargetId := by
      rcases List.mem_append.mp held with old | new
      · exact .inl old
      · obtain rfl := List.mem_singleton.mp new
        exact .inr target
    rcases on with rfl | rfl
    · exact after
    · exact after

end Station
namespace Exchange
variable {s t : Exchange} {move : Move} {agent : AgentId} {station : Station} {pkg : PackageId}
  {number : Nat} {posting : Posting} {rest : Option Posting}

/-- The packages on their way through all agents. -/
def afloat (stations : Table AgentId Station) : Multiset PackageId :=
  (Table.pairs stations).bind fun entry => entry.2.underway

/-- The packages of the calls, and those on their way through agents. -/
def underway (s : Exchange) : Multiset PackageId :=
  Table.gather Posting.package s.calls + afloat s.stations

/-- Nobody sends a package or writes to it that is under way, and no player has the id 0. -/
def Undisturbed (s : Exchange) : Move → Prop
  | .ask _ request => ∀ pkg ∈ request.package, pkg ∉ s.underway
  | .write pkg _ => pkg ∉ s.underway
  | .login pid _ => pid ≠ 0
  | _ => True

theorem Undisturbed.named (undisturbed : s.Undisturbed move) : Named move := by
  cases move with
  | login => exact undisturbed
  | _ => trivial

section
variable {stations : Table AgentId Station}

theorem afloat_present (present : stations.lookup agent = some station) :
    afloat stations = station.underway + afloat (stations.erase agent) := by
  unfold afloat
  rw [Table.pairs_present present, Multiset.cons_bind]

theorem afloat_insert (stations : Table AgentId Station) (agent : AgentId) (station : Station) :
    afloat (stations.insert agent station) = station.underway + afloat (stations.erase agent) := by
  rw [afloat_present (AList.lookup_insert stations), Table.erase_insert]

theorem mem_afloat (present : stations.lookup agent = some station)
    (held : pkg ∈ station.underway) : pkg ∈ afloat stations := by
  rw [afloat_present present]
  exact Multiset.mem_add.mpr (.inl held)

/-- An agent that changes brings what comes to it, at most. -/
theorem afloat_modify_le {change : Station → Station} (more : Multiset PackageId)
    (brings : ∀ station, stations.lookup agent = some station →
      (change station).underway ≤ station.underway + more) :
    afloat (Table.modify agent change stations) ≤ afloat stations + more := by
  unfold Table.modify
  split
  next station present =>
    rw [afloat_insert, afloat_present present, add_right_comm]
    exact add_le_add (brings station present) (le_refl _)
  next => exact Multiset.le_add_right _ _

end

theorem afloat_entered (role : Role) (absent : s.stations.lookup agent = none) :
    afloat (s.stations.insert agent (.new role)) = afloat s.stations := by
  rw [afloat_insert, Station.new_underway, Table.erase_absent absent, zero_add]

/-- What everything relies on in which packages are left alone on their way. -/
structure Steady (s : Exchange) : Prop extends Grounded s where
  single : s.underway.Nodup
  fit : ∀ number posting, s.calls.lookup number = some posting → Fit s posting
  addressed : ∀ agent station, s.stations.lookup agent = some station →
    station.Addressed s.packages

/-- What a call needs of its package and of the agent that it has found. -/
theorem Fit.frame (fit : Fit s posting) (stays : Stays s t)
    (same : ∀ pkg, posting.package = some pkg → t.packages pkg = s.packages pkg) :
    Fit t posting := by
  match posting with
  | .found _ agent (.package pkg) =>
    obtain ⟨station, present, target⟩ := fit
    obtain ⟨later, present', stays⟩ := stays agent station present
    refine ⟨later, present', fun opened => ?_⟩
    rw [same pkg rfl, stays.meant opened]
    exact target (stays.role opened).1
  | .routed _ pkg _ =>
    intro player
    rw [same pkg rfl]
    exact fit player
  | .named _ _ (.package _) => exact fit
  | .asked .. | .found _ _ (.named _) | .found _ _ (.task _) | .found _ _ (.client _)
  | .named _ _ (.named _) | .named _ _ (.task _) | .named _ _ (.client _) => trivial

/-- The package of a call is with no agent. -/
theorem Steady.apart (steady : Steady s) (known : s.calls.lookup number = some posting)
    (carried : posting.package = some pkg) : pkg ∉ afloat s.stations := by
  intro held
  obtain ⟨-, -, apart⟩ := Multiset.nodup_add.mp steady.single
  exact Multiset.disjoint_left.mp apart
    (Table.mem_gather.mpr ⟨number, posting, known, carried⟩) held

/-- Two calls have two packages. -/
theorem Steady.distinct (steady : Steady s) (known : s.calls.lookup number = some posting)
    {other : Nat} {posting' : Posting} (known' : s.calls.lookup other = some posting')
    (differ : other ≠ number) (carried : posting.package = some pkg) :
    posting'.package ≠ some pkg := by
  intro carried'
  obtain ⟨nodup, -, -⟩ := Multiset.nodup_add.mp steady.single
  rw [Table.gather_present Posting.package known, carried] at nodup
  have left : (s.calls.erase number).lookup other = some posting' := by
    rw [Table.lookup_erase_ite, if_neg differ, known']
  obtain ⟨-, -, apart⟩ := Multiset.nodup_add.mp nodup
  exact Multiset.disjoint_left.mp apart (List.mem_singleton_self pkg)
    (Table.mem_gather.mpr ⟨other, posting', left, carried'⟩)

/-- What a call has written into is its own package. -/
theorem Advanced.packages (advanced : Advanced s number posting t rest)
    (other : posting.package ≠ some pkg) : t.packages pkg = s.packages pkg := by
  cases advanced with
  | goes packages only => exact only pkg other
  | pushed packages agent node brings only => exact only pkg other
  | sent packages agent sends only => exact only pkg other

/-- A call that ends hands its package over, if it does anything with it. -/
theorem Advanced.underway_le (steady : Steady s) (known : s.calls.lookup number = some posting)
    (advanced : Advanced s number posting t rest) :
    (t.keep number rest).underway ≤ s.underway := by
  have own := Table.gather_present Posting.package known
  have handed {stations : Table AgentId Station}
      (within : afloat stations ≤ afloat s.stations + (posting.package.toList : Multiset _)) :
      Table.gather Posting.package (s.calls.erase number) + afloat stations ≤ s.underway := by
    unfold underway
    rw [own, add_right_comm, add_comm]
    exact add_le_add (within.trans (le_of_eq (add_comm _ _))) (le_refl _)
  cases advanced with
  | goes packages only carries fit =>
    cases rest with
    | none => exact handed (Multiset.le_add_right _ _)
    | some later =>
      refine add_le_add (le_of_eq ?_) (le_refl _)
      change Table.gather Posting.package (s.calls.insert number later) = _
      rw [Table.gather_insert, own, (carries later rfl).2]
  | pushed packages agent node brings only fit =>
    refine handed (afloat_modify_le _ fun station present => ?_)
    exact Station.underway_push (steady.sound.kept agent station present) _ node
  | sent packages agent sends only fit =>
    exact handed (afloat_modify_le _ fun station _ => Station.underway_send _)

/-- What is left of a call fits, and the others still do. -/
theorem Advanced.fit (steady : Steady s) (known : s.calls.lookup number = some posting)
    (advanced : Advanced s number posting t rest) {other : Nat} {left : Posting}
    (known' : (t.keep number rest).calls.lookup other = some left) :
    Fit (t.keep number rest) left := by
  have frame {u : Exchange} (stations : (t.keep number rest).stations = u.stations)
      (packages : (t.keep number rest).packages = u.packages) (fit : Fit u left) :
      Fit (t.keep number rest) left :=
    fit.frame (.of_eq stations) fun pkg _ => by rw [packages]
  rw [keep_calls] at known'
  split at known'
  next same =>
    subst same
    cases advanced with
    | goes packages only carries fit =>
      exact frame (keep_stations _ _ _) (keep_packages _ _ _)
        (fit steady.listed (steady.fit other posting known) left known')
    | pushed => cases known'
    | sent => cases known'
  next differ =>
    have calls : t.calls = s.calls := by cases advanced <;> rfl
    rw [calls] at known'
    refine frame (keep_stations _ _ _) (keep_packages _ _ _) ?_
    refine (steady.fit other left known').frame (advanced.remains steady.toGrounded) ?_
    intro pkg carried
    refine advanced.packages fun carried' => ?_
    exact steady.distinct known known' differ carried' carried

/-- Agents are as before but for what a call has brought. -/
theorem Advanced.addressed (steady : Steady s) (known : s.calls.lookup number = some posting)
    (advanced : Advanced s number posting t rest)
    {later : Station} (present : t.stations.lookup agent = some later) :
    later.Addressed t.packages := by
  -- Where the call has written, no package is on its way through an agent.
  have before {other : AgentId} {station : Station} {packages : PackageId → FPacket}
      (only : ∀ pkg, posting.package ≠ some pkg → packages pkg = s.packages pkg)
      (found : s.stations.lookup other = some station) : station.Addressed packages := by
    refine (steady.addressed other station found).rewrite fun pkg held => only pkg fun carried => ?_
    exact steady.apart known carried (mem_afloat found held)
  cases advanced with
  | goes packages only => exact before only present
  | pushed packages other node brings only fit =>
    simp only [edit, Table.lookup_modify] at present
    split at present
    next same =>
      subst same
      obtain ⟨station, found, rfl⟩ := Option.map_eq_some_iff.mp present
      refine (before only found).push (steady.sound.kept _ station found)
        (steady.shut _ station found) _ node ?_
      exact fun pkg carried opened =>
        fit (steady.fit number posting known) pkg carried station found opened
    next => exact before only present
  | sent packages other sends only fit =>
    simp only [edit, Table.lookup_modify] at present
    split at present
    next same =>
      subst same
      obtain ⟨station, found, rfl⟩ := Option.map_eq_some_iff.mp present
      exact (before only found).send _ fit
    next => exact before only present

/-- A package comes under way when it is asked for, and only once. -/
theorem Effect.single (steady : Steady s) (undisturbed : s.Undisturbed move)
    (effect : Effect s move t) : t.underway.Nodup := by
  cases effect with
  | @asked sender request station found offers =>
    have fresh : s.calls.lookup s.asked.length = none := by
      cases known : s.calls.lookup s.asked.length with
      | none => rfl
      | some posting =>
        have asking := steady.sound.genuine.asking s.asked.length
          (posting.sender, posting.package)
          (by simp only [Exchange.courier, known, Option.map_some])
        simp [Exchange.courier] at asking
    change (Table.gather Posting.package (s.calls.insert _ _) + afloat s.stations).Nodup
    rw [Table.gather_insert_fresh _ _ fresh, add_assoc]
    change ((request.package.toList : Multiset PackageId) + s.underway).Nodup
    cases carried : request.package with
    | none => simpa using steady.single
    | some pkg => exact Multiset.nodup_cons.mpr ⟨undisturbed pkg carried, steady.single⟩
  | @advanced number posting known =>
    exact Multiset.nodup_of_le ((advance_advanced s number posting).underway_le steady known)
      steady.single
  | entered role absent =>
    change (Table.gather Posting.package s.calls + afloat (s.stations.insert _ _)).Nodup
    rw [afloat_entered role absent]
    exact steady.single
  | @moved move agent station later mover found changed =>
    refine Multiset.nodup_of_le (add_le_add (le_refl _) ?_) steady.single
    have quiet := changed.quiet (steady.sound.kept agent station found)
    refine (afloat_modify_le 0 fun other present => ?_).trans (le_of_eq (add_zero _))
    cases found.symm.trans present
    rw [add_zero]
    exact Station.underway_le quiet.1 quiet.2
  | wrote | enlisted | removed | unnamed | loggedIn | loggedOut | switched => exact steady.single

theorem Effect.fit (steady : Steady s) (undisturbed : s.Undisturbed move)
    (effect : Effect s move t) {other : Nat} {left : Posting}
    (known : t.calls.lookup other = some left) : Fit t left := by
  have stays := effect.stays steady.toGrounded
  have kept (calls : t.calls = s.calls) (packages : t.packages = s.packages) : Fit t left := by
    rw [calls] at known
    exact (steady.fit other left known).frame stays fun _ _ => by rw [packages]
  cases effect with
  | asked found offers =>
    simp only [Table.lookup_insert_ite] at known
    split at known
    · cases known
      trivial
    · exact (steady.fit other left known).frame stays fun _ _ => rfl
  | @advanced number posting before =>
    exact (advance_advanced s number posting).fit steady before known
  | wrote pkg change =>
    refine (steady.fit other left known).frame stays fun carried' carried => ?_
    refine Function.update_of_ne ?_ _ _
    rintro rfl
    exact undisturbed (Multiset.mem_add.mpr (.inl
      (Table.mem_gather.mpr ⟨other, left, known, carried⟩)))
  | entered | enlisted | removed | unnamed | loggedIn | loggedOut | switched | moved =>
    exact kept rfl rfl

theorem Effect.addressed (steady : Steady s) (undisturbed : s.Undisturbed move)
    (effect : Effect s move t) {later : Station} (present : t.stations.lookup agent = some later) :
    later.Addressed t.packages := by
  cases effect with
  | @advanced number posting known =>
    rw [keep_stations] at present
    rw [keep_packages]
    exact (advance_advanced s number posting).addressed steady known present
  | wrote pkg change =>
    refine (steady.addressed agent later present).rewrite fun other held => ?_
    refine Function.update_of_ne ?_ _ _
    rintro rfl
    exact undisturbed (Multiset.mem_add.mpr (.inr (mem_afloat present held)))
  | entered role absent =>
    simp only [Table.lookup_insert_ite] at present
    split at present
    · cases present
      exact Station.new_addressed role
    · exact steady.addressed agent later present
  | @moved move other station later' mover found changed =>
    simp only [edit, Table.lookup_modify] at present
    split at present
    next same =>
      subst same
      rw [found] at present
      cases present
      exact (steady.addressed _ station found).change (steady.sound.kept _ station found)
        (steady.shut _ station found) changed
    next => exact steady.addressed agent later present
  | asked | enlisted | removed | unnamed | loggedIn | loggedOut | switched =>
    exact steady.addressed agent later present

theorem Steady.step (steady : Steady s) (undisturbed : s.Undisturbed move)
    (moved : s.Step move t) : Steady t := by
  have effect := moved.effect
  exact ⟨steady.toGrounded.step undisturbed.named moved, effect.single steady undisturbed,
    fun _ _ => effect.fit steady undisturbed, fun _ _ => effect.addressed steady undisturbed⟩

theorem empty_steady : Steady empty := by
  refine ⟨empty_grounded, Multiset.nodup_zero, ?_, ?_⟩
  · intro number posting known
    cases known
  · intro agent station present
    cases present

/-- What waits has come to the right place. -/
def Addressed (s : Exchange) : Prop :=
  ∀ agent station, s.stations.lookup agent = some station → station.Addressed s.packages

/-- In every run in which nobody sends a package again or writes to it while it is
on its way, and no player has the id 0, each package that waits at an actor has
the target by which that actor is meant, and what a client is sent has the client's. -/
theorem undisturbed_always_addressed {path : List (Move × Exchange)}
    (run : Path Step empty path) (undisturbed : Every Undisturbed empty path) :
    Always Addressed empty path :=
  (run.always (fun steady undisturbed moved => steady.step undisturbed moved)
    empty_steady undisturbed).imp fun _ steady => steady.addressed

instance (s : Exchange) : (move : Move) → Decidable (s.Undisturbed move)
  | .ask _ request => inferInstanceAs (Decidable (∀ pkg ∈ request.package, pkg ∉ s.underway))
  | .write pkg _ => inferInstanceAs (Decidable (pkg ∉ s.underway))
  | .login pid _ => inferInstanceAs (Decidable (pid ≠ 0))
  | .advance _ | .enter _ _ | .enlist _ | .removeService _ | .eraseName _ | .logout _
  | .modules _ _ _ | .mailbox _ _ | .deliver _ _ | .writeTest _ | .writeResume _
  | .encoded _ _ | .disconnect _ => .isTrue trivial

/-- The target of a package that waits at the service, and of one that was written. -/
theorem undisturbed_always_addressed_conversation :
    Always Addressed empty (empty.runs conversation) ∧
      ((last empty (empty.runs conversation)).packages 3).header.target = clientTargetId :=
  ⟨undisturbed_always_addressed (runs_path empty conversation) (by decide), by decide⟩

end Exchange

end Uranus
