import Uranus.Route.Letters
import Uranus.Route.Stations

/-! Whole runs of the exchange. What an actor executes and what its client is sent
was asked for, and no call comes to two of them or to one of them twice; where
nothing has to wait for room, a recipient sees the calls of each sender in order. -/
namespace Uranus
open Foundation Transition

namespace Station
variable {station : Station}

/-- The letters of the nodes that have been executed. -/
def executed (station : Station) : List Letter :=
  station.mailbox.executed.filterMap fun post => (station.letters[post.serial]?).join

/-- The letters that have done their work: executed, or written to the client. -/
def handled (station : Station) : List Letter :=
  station.executed ++ station.written.map Prod.fst

theorem mem_executed {letter : Letter} (held : letter ∈ station.executed) :
    ∃ post ∈ station.mailbox.executed, station.letters[post.serial]? = some (some letter) := by
  obtain ⟨post, executed, found⟩ := List.mem_filterMap.mp held
  exact ⟨post, executed, Option.join_eq_some_iff.mp found⟩

theorem Kept.written (kept : Kept station) :
    (station.written.map Prod.fst : Multiset Letter) ≤ (station.sent : Multiset Letter) := by
  refine le_trans ?_ (le_trans (Multiset.le_add_right _ _) kept.within)
  unfold onWay
  rw [List.append_assoc, ← Multiset.coe_add]
  exact Multiset.le_add_right _ _

/-- In line, the letters executed are in the order in which they came. -/
theorem InLine.executed (inLine : InLine station) (kept : Kept station) :
    station.executed.Sublist (station.letters.filterMap id) := by
  have placed : station.mailbox.executed.Sublist station.mailbox.pushed :=
    (List.sublist_append_left _ _).trans inLine.mailbox
  have all : (station.mailbox.pushed.filterMap fun post => (station.letters[post.serial]?).join) =
      station.letters.filterMap id := by
    have serials :
        station.mailbox.pushed.map Post.serial = List.range station.letters.length := by
      rw [kept.letters, kept.mailbox.serials]
    have through : (fun post : Post => (station.letters[post.serial]?).join) =
        (fun i => (station.letters[i]?).join) ∘ Post.serial := rfl
    rw [through, ← List.filterMap_map, serials]
    generalize station.letters = letters
    induction letters using List.reverseRecOn with
    | nil => rfl
    | append_singleton before last ih =>
      rw [List.length_append, List.length_singleton, List.range_succ, List.filterMap_append,
        List.filterMap_append, ← ih]
      congr 1
      · apply List.filterMap_congr
        intro i below
        rw [List.getElem?_append_left (List.mem_range.mp below)]
      · cases last <;> simp
  rw [← all]
  exact placed.filterMap _

end Station

namespace Exchange
variable {s t : Exchange} {move : Move} {agent : AgentId} {station later : Station}

/-- The agent has changed by what has come, or not at all. -/
def Changes (s : Exchange) (agent : AgentId) (later : Station) : Prop :=
  ∃ station, s.stations.lookup agent = some station ∧
    ((∃ brought, Station.Change s.packages station brought later) ∨ later = station)

/-- A change of one agent, as a change of each. -/
theorem edit_changes {change : Station → Station} {other : AgentId} (brought : Option Letter)
    (changes : ∀ station, s.stations.lookup agent = some station →
      Station.Change s.packages station brought (change station))
    (present : (s.edit agent change).stations.lookup other = some later) :
    Changes s other later := by
  simp only [edit, Table.lookup_modify] at present
  split at present
  next same =>
    subst same
    obtain ⟨station, found, rfl⟩ := Option.map_eq_some_iff.mp present
    exact ⟨station, found, .inl ⟨brought, changes station found⟩⟩
  next => exact ⟨later, present, .inr rfl⟩

theorem keep_stations (s : Exchange) (number : Nat) (rest : Option Posting) :
    (s.keep number rest).stations = s.stations := by
  unfold keep
  split <;> rfl

theorem keep_calls (s : Exchange) (number : Nat) (rest : Option Posting) (other : Nat) :
    (s.keep number rest).calls.lookup other =
      if other = number then rest else s.calls.lookup other := by
  cases rest with
  | none => exact Table.lookup_erase_ite s.calls number other
  | some later => exact Table.lookup_insert_ite s.calls number other later

theorem keep_packages (s : Exchange) (number : Nat) (rest : Option Posting) :
    (s.keep number rest).packages = s.packages := by
  cases rest <;> rfl

theorem Advanced.changes {number : Nat} {posting : Posting} {rest : Option Posting}
    (advanced : Advanced s number posting t rest)
    (present : t.stations.lookup agent = some later) : Changes s agent later := by
  cases advanced with
  | goes packages => exact ⟨later, present, .inr rfl⟩
  | pushed packages other node => exact edit_changes _ (fun _ _ => .push _ node) present
  | sent packages other => exact edit_changes _ (fun _ _ => .send _) present

/-- What a move does to an agent: one of the changes, unless the agent is new. -/
theorem Effect.changes (effect : Effect s move t)
    (present : t.stations.lookup agent = some later) :
    Changes s agent later ∨ ∃ role, later = .new role := by
  cases effect with
  | @advanced number posting known =>
    rw [keep_stations] at present
    exact .inl ((advance_advanced s number posting).changes present)
  | entered role absent =>
    simp only [Table.lookup_insert_ite] at present
    split at present
    · cases present
      exact .inr ⟨role, rfl⟩
    · exact .inl ⟨later, present, .inr rfl⟩
  | moved mover found changed =>
    refine .inl (edit_changes none ?_ present)
    intro station' found'
    cases found.symm.trans found'
    exact changed
  | asked | wrote | enlisted | removed | unnamed | loggedIn | loggedOut | switched =>
    exact .inl ⟨later, present, .inr rfl⟩

/-- What every run of the exchange keeps. -/
structure Sound (s : Exchange) : Prop where
  genuine : s.courier.Genuine
  kept : ∀ agent station, s.stations.lookup agent = some station → station.Kept

theorem empty_sound : Sound empty := by
  constructor
  · have start : empty.courier = ⟨[], fun _ => none, fun _ => []⟩ := by
      apply Courier.ext
      · rfl
      · rfl
      · funext box
        cases box <;> rfl
    rw [start]
    exact .initial
  · intro agent station present
    cases present

theorem Sound.step (sound : Sound s) (moved : s.Step move t) : Sound t := by
  constructor
  · exact sound.genuine.step moved.effect.courier
  · intro agent later present
    rcases moved.effect.changes present with
      ⟨station, found, ⟨brought, changed⟩ | rfl⟩ | ⟨role, rfl⟩
    · exact (sound.kept agent station found).change changed
    · exact sound.kept agent _ found
    · exact Station.new_kept role

theorem boxes_mailbox (present : s.stations.lookup agent = some station) :
    s.courier.boxes (.mailbox agent) = station.letters := by
  simp [courier, boxes, present]

theorem boxes_client (present : s.stations.lookup agent = some station) :
    s.courier.boxes (.client agent) = station.sent.map some := by
  simp [courier, boxes, present]

/-- A letter that has been handled is in a box of its agent. -/
theorem Sound.boxed (sound : Sound s) (present : s.stations.lookup agent = some station)
    {letter : Letter} (handled : letter ∈ station.handled) :
    (∃ post ∈ station.mailbox.executed,
        (s.courier.boxes (.mailbox agent))[post.serial]? = some (some letter)) ∨
      ∃ i : Nat, (s.courier.boxes (.client agent))[i]? = some (some letter) := by
  rcases List.mem_append.mp handled with executed | written
  · obtain ⟨post, member, found⟩ := Station.mem_executed executed
    exact .inl ⟨post, member, by rw [boxes_mailbox present, found]⟩
  · have sent : letter ∈ station.sent :=
      Multiset.mem_of_le (sound.kept agent station present).written written
    obtain ⟨i, found⟩ := List.mem_iff_getElem?.mp sent
    exact .inr ⟨i, by rw [boxes_client present, List.getElem?_map, found, Option.map_some]⟩

/-- What has been handled was asked for by its sender, and no call was handled twice. -/
structure OnceHandled (s : Exchange) : Prop where
  asked : ∀ agent station letter, s.stations.lookup agent = some station →
    letter ∈ station.handled → ∃ request,
      s.asked[letter.number]? = some (letter.sender, request) ∧ request.package = letter.body
  distinct : ∀ agent station, s.stations.lookup agent = some station →
    (station.handled.map Parcel.number).Nodup
  apart : ∀ agent other station station' letter letter', s.stations.lookup agent = some station →
    s.stations.lookup other = some station' → agent ≠ other → letter ∈ station.handled →
      letter' ∈ station'.handled → letter.number ≠ letter'.number

theorem Sound.asked (sound : Sound s) (present : s.stations.lookup agent = some station)
    {letter : Letter} (handled : letter ∈ station.handled) : ∃ request,
      s.asked[letter.number]? = some (letter.sender, request) ∧ request.package = letter.body := by
  have found : ∃ box, some letter ∈ s.courier.boxes box := by
    rcases sound.boxed present handled with ⟨post, -, found⟩ | ⟨i, found⟩
    · exact ⟨_, List.mem_of_getElem? found⟩
    · exact ⟨_, List.mem_of_getElem? found⟩
  obtain ⟨box, held⟩ := found
  have asked := sound.genuine.asked box letter held
  simp only [courier, List.getElem?_map, Option.map_eq_some_iff] at asked
  obtain ⟨⟨sender, request⟩, entry, same⟩ := asked
  obtain ⟨rfl, package⟩ := Prod.mk.inj same
  exact ⟨request, entry, package⟩

theorem Sound.executed_distinct (sound : Sound s)
    (present : s.stations.lookup agent = some station) :
    (station.executed.map Parcel.number).Nodup := by
  have conserved := (sound.kept agent station present).mailbox
  unfold Station.executed
  rw [List.Nodup, List.pairwise_map, List.pairwise_filterMap]
  refine List.Pairwise.imp_of_mem ?_ conserved.executed
  intro post post' executed executed' differ letter found letter' found' same
  have held := boxes_mailbox present
  have places := sound.genuine.single (.mailbox agent) (.mailbox agent) post.serial post'.serial
    letter letter' (by rw [held]; exact Option.join_eq_some_iff.mp found)
    (by rw [held]; exact Option.join_eq_some_iff.mp found') same
  have here := conserved.numbered (Multiset.mem_add.mpr (.inl executed))
  rw [places.2, conserved.numbered (Multiset.mem_add.mpr (.inl executed'))] at here
  exact differ (Option.some.inj here).symm

theorem Sound.written_distinct (sound : Sound s)
    (present : s.stations.lookup agent = some station) :
    ((station.written.map Prod.fst).map Parcel.number).Nodup := by
  have held := boxes_client present
  have sent : (station.sent.map Parcel.number).Nodup := by
    rw [List.nodup_iff_injective_getElem]
    intro i j same
    have read (k : Fin (station.sent.map Parcel.number).length) :
        (s.courier.boxes (.client agent))[k.val]? =
          some (some (station.sent.get ⟨k.val, by simpa using k.isLt⟩)) := by
      rw [held, List.getElem?_map, List.getElem?_eq_getElem (by simpa using k.isLt),
        Option.map_some]
      rfl
    have places := sound.genuine.single _ _ i.val j.val _ _ (read i) (read j) (by simpa using same)
    exact Fin.ext places.2
  have within := Multiset.map_le_map (f := Parcel.number) (sound.kept agent station present).written
  rw [Multiset.map_coe, Multiset.map_coe] at within
  exact Multiset.coe_nodup.mp (Multiset.nodup_of_le within (Multiset.coe_nodup.mpr sent))

theorem Sound.onceHandled (sound : Sound s) : OnceHandled s := by
  constructor
  · intro agent station letter present handled
    exact sound.asked present handled
  · intro agent station present
    unfold Station.handled
    rw [List.map_append]
    refine (sound.executed_distinct present).append (sound.written_distinct present) ?_
    -- The mailbox and the output of an agent are two boxes.
    intro number executed written
    obtain ⟨letter, held, rfl⟩ := List.mem_map.mp executed
    obtain ⟨letter', held', same⟩ := List.mem_map.mp written
    obtain ⟨post, -, found⟩ := Station.mem_executed held
    have sent : letter' ∈ station.sent :=
      Multiset.mem_of_le (sound.kept agent station present).written held'
    obtain ⟨i, found'⟩ := List.mem_iff_getElem?.mp sent
    have places := sound.genuine.single (.mailbox agent) (.client agent) post.serial i
      letter letter'
      (by rw [boxes_mailbox present, found])
      (by rw [boxes_client present, List.getElem?_map, found', Option.map_some]) same.symm
    cases places.1
  · intro agent other station station' letter letter' present present' differ handled handled' same
    rcases sound.boxed present handled with ⟨post, -, found⟩ | ⟨i, found⟩
    · rcases sound.boxed present' handled' with ⟨post', -, found'⟩ | ⟨j, found'⟩
      · have places := sound.genuine.single _ _ _ _ _ _ found found' same
        exact differ (Box.mailbox.inj places.1)
      · cases (sound.genuine.single _ _ _ _ _ _ found found' same).1
    · rcases sound.boxed present' handled' with ⟨post', -, found'⟩ | ⟨j, found'⟩
      · cases (sound.genuine.single _ _ _ _ _ _ found found' same).1
      · have places := sound.genuine.single _ _ _ _ _ _ found found' same
        exact differ (Box.client.inj places.1)

theorem sound_always {path : List (Move × Exchange)} (run : Path Step empty path) :
    Always Sound empty path :=
  run.invariant (fun sound moved => sound.step moved) empty_sound

/-- In every run, whatever an actor executes or its client is sent was asked for,
and no call is handled twice, by one actor or by two. -/
theorem handled_always_once {path : List (Move × Exchange)} (run : Path Step empty path) :
    Always OnceHandled empty path :=
  (sound_always run).imp fun _ sound => sound.onceHandled

/-- A player posts to the service with id 1, which answers through the router. -/
def conversation : List Move :=
  [.modules (some .running) (some .running) (some .running), .enter 0 .player,
    .enter 1 (.service 1 "mail"), .enlist 1, .login 9 0, .write 0 (FPacket.setTarget · 1),
    .ask 0 (.postPackage (some 0)), .advance 0, .advance 0, .advance 0,
    .ask 0 (.postTaskTo "mail" (some 5)), .advance 1, .advance 1, .advance 1,
    .mailbox 1 (.resume true), .mailbox 1 (.resume true), .mailbox 1 (.complete false),
    .mailbox 1 (.resume true), .ask 1 (.sendToClient 9 (some 3)), .advance 2, .advance 2,
    .writeTest 0, .writeResume 0, .encoded 0 true]

/-- The letters that an agent has handled, with their numbers. -/
def handledBy (s : Exchange) (agent : AgentId) : List Nat :=
  ((s.stations.lookup agent).map fun station => station.handled.map Parcel.number).getD []

theorem handled_always_once_conversation :
    Always OnceHandled empty (empty.runs conversation) ∧
      (last empty (empty.runs conversation)).handledBy 1 = [0, 1] ∧
      (last empty (empty.runs conversation)).handledBy 0 = [2] :=
  ⟨handled_always_once (runs_path empty conversation), by decide, by decide⟩

/-- Who asks has no call under way. -/
def Sequential (s : Exchange) : Move → Prop
  | .ask sender _ => ∀ entry ∈ Table.pairs s.calls, entry.2.sender ≠ sender
  | _ => True

def Unhindered (s : Exchange) : Prop := ∀ entry ∈ Table.pairs s.stations, entry.2.Unhindered

/-- Every agent has handled the letters of one sender in the order of their calls. -/
def InOrder (s : Exchange) : Prop :=
  ∀ agent station, s.stations.lookup agent = some station →
    (station.executed.Pairwise fun first second =>
      first.sender = second.sender → first.number < second.number) ∧
    (station.written.map Prod.fst).Pairwise fun first second =>
      first.sender = second.sender → first.number < second.number

instance (s : Exchange) : (move : Move) → Decidable (s.Sequential move)
  | .ask sender _ =>
    inferInstanceAs (Decidable (∀ entry ∈ Table.pairs s.calls, entry.2.sender ≠ sender))
  | .advance _ | .write _ _ | .enter _ _ | .enlist _ | .removeService _ | .eraseName _
  | .login _ _ | .logout _ | .modules _ _ _ | .mailbox _ _ | .deliver _ _ | .writeTest _
  | .writeResume _ | .encoded _ _ | .disconnect _ => .isTrue trivial

instance (s : Exchange) : Decidable s.Unhindered :=
  inferInstanceAs (Decidable (∀ entry ∈ Table.pairs s.stations, _))

/-- What a run keeps in which calls do not overlap and nothing waits for room. -/
structure Prompt (s : Exchange) : Prop where
  sound : Sound s
  ordered : s.courier.Ordered
  room : s.Unhindered
  inLine : ∀ agent station, s.stations.lookup agent = some station → station.InLine

theorem empty_prompt : Prompt empty := by
  refine ⟨empty_sound, ?_, by decide, fun agent station present => by cases present⟩
  have start : empty.courier = ⟨[], fun _ => none, fun _ => []⟩ := by
    apply Courier.ext
    · rfl
    · rfl
    · funext box
      cases box <;> rfl
  rw [start]
  exact .initial

theorem Sequential.errand (sequential : s.Sequential move) :
    s.courier.Sequential move.errand := by
  cases move with
  | ask sender request =>
    intro n errand underway
    obtain ⟨posting, known, rfl⟩ := Option.map_eq_some_iff.mp underway
    exact sequential (n, posting) (Table.mem_pairs.mpr known)
  | _ => trivial

theorem Prompt.step (prompt : Prompt s) (sequential : s.Sequential move) (moved : s.Step move t)
    (room : t.Unhindered) : Prompt t := by
  refine ⟨prompt.sound.step moved, ?_, room, ?_⟩
  · exact prompt.ordered.step prompt.sound.genuine sequential.errand moved.effect.courier
  · intro agent later present
    rcases moved.effect.changes present with
      ⟨station, found, ⟨brought, changed⟩ | rfl⟩ | ⟨role, rfl⟩
    · exact (prompt.inLine agent station found).change (prompt.sound.kept agent station found)
        (prompt.room (agent, station) (Table.mem_pairs.mpr found))
        (room (agent, later) (Table.mem_pairs.mpr present)) changed
    · exact prompt.inLine agent _ found
    · exact Station.new_inLine role

theorem Prompt.inOrder (prompt : Prompt s) : InOrder s := by
  intro agent station present
  have inLine := prompt.inLine agent station present
  constructor
  · have sorted := prompt.ordered.sorted (.mailbox agent)
    rw [boxes_mailbox present] at sorted
    exact sorted.sublist (inLine.executed (prompt.sound.kept agent station present))
  · have sorted := prompt.ordered.sorted (.client agent)
    rw [boxes_client present, List.filterMap_map] at sorted
    have all : station.sent.filterMap (id ∘ some) = station.sent := List.filterMap_some
    rw [all] at sorted
    refine sorted.sublist (List.Sublist.trans ?_ inLine.output)
    unfold Station.onWay
    rw [List.append_assoc]
    exact List.sublist_append_left _ _

/-- Where no actor asks before its last call has come back and no channel is full,
every recipient handles what a sender has sent it in the order of sending. -/
theorem sequential_always_inOrder {path : List (Move × Exchange)} (run : Path Step empty path)
    (sequential : Every Sequential empty path) (room : Always Unhindered empty path) :
    Always InOrder empty path := by
  have prompt : Always Prompt empty path :=
    (run.through room).always (fun prompt sequential moved =>
      prompt.step sequential moved.1 moved.2) empty_prompt sequential
  exact prompt.imp fun _ prompt => prompt.inOrder

theorem sequential_always_inOrder_conversation :
    Always InOrder empty (empty.runs conversation) ∧
      (last empty (empty.runs conversation)).handledBy 1 = [0, 1] :=
  ⟨sequential_always_inOrder (runs_path empty conversation) (by decide) (by decide), by decide⟩

end Exchange
end Uranus
