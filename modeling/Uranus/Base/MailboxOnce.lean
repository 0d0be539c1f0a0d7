import Mathlib.Algebra.Order.Group.Multiset
import Uranus.Base.MailboxOrder

/-! No mailbox makes two nodes of one: whatever happens, also after a close or an
exception, a node that was pushed is in one place at most. -/
namespace Uranus.Mailbox
open Foundation
variable {m t : Mailbox} {event : Event}

/-- The nodes that may still be executed. -/
def waiting (m : Mailbox) : Multiset Post :=
  (m.channel.contents : Multiset Post) + (m.deferred : Multiset Post)

/-- Serials count the nodes, and every node executed or waiting is one of its own.
Only a coroutine that waits for a node has asked for one. -/
structure Conserved (m : Mailbox) : Prop where
  serials : m.pushed.map Post.serial = List.range m.pushed.length
  within : (m.executed : Multiset Post) + m.waiting ≤ (m.pushed : Multiset Post)
  resting : m.process ≠ .receiving → m.channel.receiver = .idle

/-- No node is executed or waits that did not wait before. -/
structure Quiet (m t : Mailbox) : Prop where
  pushed : t.pushed = m.pushed
  executed : (t.executed : Multiset Post) + t.waiting ≤ (m.executed : Multiset Post) + m.waiting
  waiting : t.waiting ≤ m.waiting

theorem Quiet.refl (m : Mailbox) : Quiet m m := ⟨rfl, le_refl _, le_refl _⟩

theorem Quiet.of_waiting (pushed : t.pushed = m.pushed) (executed : t.executed = m.executed)
    (waiting : t.waiting ≤ m.waiting) : Quiet m t :=
  ⟨pushed, by rw [executed]; exact add_le_add (le_refl _) waiting, waiting⟩

theorem Quiet.trans {u : Mailbox} (first : Quiet m t) (second : Quiet t u) : Quiet m u :=
  ⟨second.pushed.trans first.pushed, second.executed.trans first.executed,
    second.waiting.trans first.waiting⟩

theorem idle_sent {c d : Channel Post} {post : Post} (idle : c.receiver = .idle)
    (receiver : d.receiver = c.receiver ∨ c.receiver.isWaiting ∧ d.receiver = .received post) :
    d.receiver = .idle := by
  rcases receiver with same | ⟨waiting, -⟩
  · rw [same, idle]
  · rw [idle] at waiting
    cases waiting

/-- A node that is pushed gets the next serial, or is refused. -/
theorem push_cases (node : IChannelNode) : m.push (some node) = m ∨
    (m.push (some node)).pushed = m.pushed ++ [⟨m.pushed.length, node⟩] ∧
      (m.push (some node)).executed = m.executed ∧
      (m.push (some node)).waiting = m.waiting + {⟨m.pushed.length, node⟩} ∧
      (m.push (some node)).process = m.process ∧
      (m.channel.receiver = .idle → (m.push (some node)).channel.receiver = .idle) := by
  unfold Mailbox.push
  split
  · exact .inl rfl
  · right
    dsimp only
    split
    next channel sent =>
      refine ⟨rfl, rfl, ?_, rfl, fun idle => idle_sent idle (Channel.trySend_receiver sent)⟩
      rw [waiting, waiting, Channel.trySend_contents sent, ← Multiset.coe_add,
        Multiset.coe_singleton, add_right_comm]
    next =>
      refine ⟨rfl, rfl, ?_, rfl, id⟩
      rw [waiting, waiting, ← Multiset.coe_add, Multiset.coe_singleton, add_assoc]

theorem Conserved.push (conserved : Conserved m) (node : IChannelNode) :
    Conserved (m.push (some node)) := by
  rcases push_cases (m := m) node with same | ⟨pushed, executed, waiting, process, idle⟩
  · rwa [same]
  · constructor
    · rw [pushed, List.map_append, conserved.serials, List.length_append, List.length_singleton,
        List.range_succ]
      rfl
    · rw [pushed, executed, waiting, ← add_assoc, ← Multiset.coe_add, Multiset.coe_singleton]
      exact add_le_add conserved.within (le_refl _)
    · rw [process]
      exact fun elsewhere => idle (conserved.resting elsewhere)

theorem deliver_quiet {post : Post} (moved : m.deliver post = some t) : Quiet m t := by
  unfold Mailbox.deliver at moved
  split at moved
  next waits =>
    cases moved
    refine .of_waiting rfl rfl ?_
    have split : (m.deferred : Multiset Post) =
        {post} + (m.deferred.erase post : Multiset Post) := by
      rw [Multiset.singleton_add, ← Multiset.coe_erase, Multiset.cons_erase (by exact waits)]
    rw [waiting, waiting, split, ← add_assoc]
    refine add_le_add ?_ (le_refl _)
    dsimp only
    by_cases opened : m.channel.isOpen
    · rw [Channel.asyncSend_contents opened, ← Multiset.coe_add, Multiset.coe_singleton]
    · rw [Channel.asyncSend, dif_neg opened]
      exact Multiset.le_add_right _ _
  next => cases moved

theorem loop_quiet (idle : m.channel.receiver = .idle) : Quiet m m.loop := by
  unfold Mailbox.loop
  split
  next opened =>
    refine .of_waiting rfl rfl ?_
    rw [waiting, waiting, Channel.asyncReceive_contents idle]
  next => exact ⟨rfl, le_refl _, le_refl _⟩

theorem loop_resting (idle : m.channel.receiver = .idle) (elsewhere : m.loop.process ≠ .receiving) :
    m.loop.channel.receiver = .idle := by
  unfold Mailbox.loop at elsewhere ⊢
  split at elsewhere
  next opened => exact absurd rfl elsewhere
  next closed =>
    rw [if_neg closed]
    exact idle

/-- A step that pushes nothing brings no node. -/
theorem resume_quiet (conserved : Conserved m) {actor : Bool} (moved : m.resume actor = some t) :
    Quiet m t ∧ (t.process ≠ .receiving → t.channel.receiver = .idle) := by
  unfold Mailbox.resume at moved
  split at moved
  next starting =>
    cases moved
    have idle := conserved.resting (by rw [starting]; exact fun same => by cases same)
    exact ⟨loop_quiet idle, loop_resting idle⟩
  next receiving =>
    split at moved
    next => cases moved
    next channel taken =>
      cases moved
      have failed := Channel.take_error taken
      obtain ⟨-, rfl⟩ := Channel.take_spec taken
      refine ⟨.of_waiting rfl rfl (le_of_eq ?_), fun _ => rfl⟩
      simp only [waiting, Channel.contents, failed, Receiver.item]
    next post channel taken =>
      have contents := Channel.take_contents taken
      have idle := Channel.take_receiver taken
      have fewer : Quiet m { m with channel } := by
        refine .of_waiting rfl rfl ?_
        rw [waiting, waiting, contents, ← Multiset.cons_coe]
        exact add_le_add (Multiset.le_cons_self _ _) (le_refl _)
      dsimp only at moved
      split at moved
      next =>
        cases moved
        exact ⟨fewer.trans (.of_waiting rfl rfl (le_refl _)), fun _ => idle⟩
      next =>
        split at moved
        next =>
          cases moved
          refine ⟨⟨rfl, le_of_eq ?_, fewer.waiting⟩, fun _ => idle⟩
          simp only [waiting, contents, Multiset.coe_add, List.append_assoc, List.cons_append,
            List.nil_append]
        next =>
          cases moved
          exact ⟨fewer.trans (loop_quiet idle), loop_resting idle⟩
  all_goals cases moved

theorem complete_quiet (conserved : Conserved m) {threw : Bool}
    (moved : m.complete threw = some t) :
    Quiet m t ∧ (t.process ≠ .receiving → t.channel.receiver = .idle) := by
  unfold Mailbox.complete at moved
  split at moved
  next post executing =>
    have idle := conserved.resting (by rw [executing]; exact fun same => by cases same)
    split at moved
    · cases moved
      exact ⟨.of_waiting rfl rfl (le_refl _), fun _ => idle⟩
    · cases moved
      exact ⟨loop_quiet idle, loop_resting idle⟩
  all_goals cases moved

theorem close_contents (c : Channel Post) : c.close.contents = c.contents := by
  simp only [Channel.close, Channel.contents]
  split
  next waiting => rw [Receiver.item_waiting waiting]; rfl
  next => rfl

/-- What happens to a mailbox apart from a push brings no node. -/
theorem step_quiet (conserved : Conserved m) (moved : m.Step event t)
    (other : ∀ node, event ≠ .push (some node)) :
    Quiet m t ∧ (t.process ≠ .receiving → t.channel.receiver = .idle) := by
  cases event with
  | push node =>
    cases node with
    | none =>
      cases moved
      have same : m.push none = m := by
        unfold Mailbox.push
        split <;> rfl
      rw [same]
      exact ⟨.refl m, conserved.resting⟩
    | some node => exact absurd rfl (other node)
  | deliver post =>
    refine ⟨deliver_quiet moved, ?_⟩
    simp only [Step, Mailbox.step, Mailbox.deliver] at moved
    split at moved
    · cases moved
      exact fun elsewhere =>
        idle_sent (conserved.resting elsewhere) (Channel.asyncSend_receiver post)
    · cases moved
  | resume actor => exact resume_quiet conserved moved
  | complete threw => exact complete_quiet conserved moved
  | cleanUp =>
    simp only [Step, Mailbox.step, cleanUp] at moved
    split at moved
    next cleaning =>
      cases moved
      exact ⟨.of_waiting rfl rfl (le_refl _),
        fun _ => conserved.resting (by rw [cleaning]; exact fun same => by cases same)⟩
    all_goals cases moved
  | close =>
    cases moved
    refine ⟨.of_waiting rfl rfl (le_of_eq ?_), ?_⟩
    · rw [waiting, waiting, Mailbox.close, close_contents]
    · intro elsewhere
      have idle := conserved.resting elsewhere
      simp only [Mailbox.close, Channel.close, idle]
      rfl

theorem Conserved.step (conserved : Conserved m) (moved : m.Step event t) : Conserved t := by
  by_cases pushes : ∃ node, event = .push (some node)
  · obtain ⟨node, rfl⟩ := pushes
    cases moved
    exact conserved.push node
  · obtain ⟨quiet, resting⟩ := step_quiet conserved moved fun node same => pushes ⟨node, same⟩
    refine ⟨?_, ?_, resting⟩
    · rw [quiet.pushed]
      exact conserved.serials
    · rw [quiet.pushed]
      exact quiet.executed.trans conserved.within

theorem started_conserved (capacity : Nat) : Conserved (started capacity) := by
  constructor
  · rfl
  · exact le_refl _
  · exact fun _ => rfl

/-- A node executed or waiting is the one that its serial number says. -/
theorem Conserved.numbered (conserved : Conserved m) {post : Post}
    (held : post ∈ (m.executed : Multiset Post) + m.waiting) :
    m.pushed[post.serial]? = some post := by
  have pushed : post ∈ m.pushed := Multiset.mem_coe.mp (Multiset.mem_of_le conserved.within held)
  obtain ⟨i, found⟩ := List.mem_iff_getElem?.mp pushed
  have serial := congrArg (fun serials => serials[i]?) conserved.serials
  simp only [List.getElem?_map, found, Option.map_some] at serial
  obtain ⟨below, same⟩ := List.getElem?_eq_some_iff.mp serial.symm
  rw [List.getElem_range] at same
  rw [← same, found]

/-- No node is executed twice. -/
theorem Conserved.executed (conserved : Conserved m) : m.executed.Nodup := by
  have distinct : m.pushed.Nodup := by
    apply List.Nodup.of_map Post.serial
    rw [conserved.serials]
    exact List.nodup_range
  have within := (Multiset.le_add_right _ _).trans conserved.within
  exact Multiset.coe_nodup.mp (Multiset.nodup_of_le within (Multiset.coe_nodup.mpr distinct))

/-- An agent that cleans up has found its channel closed. -/
structure Shut (m : Mailbox) : Prop where
  failed : m.channel.receiver = .failed → m.channel.isOpen = false
  cleaning : m.process = .cleaning → m.channel.isOpen = false

/-- The loop goes on at an open channel, and ends at a closed one. -/
theorem loop_shut (idle : m.channel.receiver = .idle) :
    Shut m.loop ∧ m.loop.channel.isOpen = m.channel.isOpen := by
  unfold Mailbox.loop
  split
  next opened =>
    refine ⟨⟨fun failed => ?_, fun cleaning => by cases cleaning⟩, Channel.asyncReceive_isOpen⟩
    rcases Channel.asyncReceive_receiver opened with waiting | ⟨item, received⟩
    · cases waiting.symm.trans failed
    · cases received.symm.trans failed
  next closed =>
    refine ⟨⟨fun failed => ?_, fun _ => Bool.eq_false_iff.mpr closed⟩, rfl⟩
    cases idle.symm.trans failed

theorem sent_shut {c d : Channel Post} {post : Post}
    (failed : c.receiver = .failed → c.isOpen = false) (isOpen : d.isOpen = c.isOpen)
    (receiver : d.receiver = c.receiver ∨ c.receiver.isWaiting ∧ d.receiver = .received post) :
    d.receiver = .failed → d.isOpen = false := by
  intro fails
  rcases receiver with same | ⟨-, received⟩
  · rw [isOpen]
    exact failed (same.symm.trans fails)
  · cases received.symm.trans fails

theorem push_shut (shut : Shut m) (node : Option IChannelNode) :
    Shut (m.push node) ∧ (m.push node).channel.isOpen = m.channel.isOpen := by
  unfold Mailbox.push
  split
  · exact ⟨shut, rfl⟩
  next opened =>
    cases node with
    | none => exact ⟨shut, rfl⟩
    | some node =>
      dsimp only
      split
      next channel sent =>
        obtain ⟨before, after⟩ := Channel.trySend_isOpen sent
        have same : channel.isOpen = m.channel.isOpen := after.trans before.symm
        refine ⟨⟨sent_shut shut.failed same (Channel.trySend_receiver sent), ?_⟩, same⟩
        intro cleaning
        exact same.trans (shut.cleaning cleaning)
      next => exact ⟨⟨shut.failed, shut.cleaning⟩, rfl⟩

theorem resume_shut (shut : Shut m) (conserved : Conserved m) {actor : Bool}
    (moved : m.resume actor = some t) : Shut t ∧ t.channel.isOpen = m.channel.isOpen := by
  unfold Mailbox.resume at moved
  split at moved
  next starting =>
    cases moved
    exact loop_shut (conserved.resting (by rw [starting]; exact fun same => by cases same))
  next receiving =>
    split at moved
    next => cases moved
    next channel taken =>
      cases moved
      have closed := (Channel.take_isOpen taken).trans (shut.failed (Channel.take_error taken))
      exact ⟨⟨fun _ => closed, fun _ => closed⟩, Channel.take_isOpen taken⟩
    next post channel taken =>
      have idle := Channel.take_receiver taken
      have isOpen := Channel.take_isOpen taken
      have unfailed : channel.receiver = .failed → channel.isOpen = false :=
        fun failed => by cases idle.symm.trans failed
      dsimp only at moved
      split at moved
      next closed =>
        cases moved
        exact ⟨⟨unfailed, fun _ => by simpa using closed⟩, isOpen⟩
      next =>
        split at moved
        · cases moved
          exact ⟨⟨unfailed, fun cleaning => by cases cleaning⟩, isOpen⟩
        · cases moved
          obtain ⟨after, same⟩ := loop_shut (m := { m with channel }) idle
          exact ⟨after, same.trans isOpen⟩
  all_goals cases moved

/-- No step opens a channel. -/
theorem Shut.step (shut : Shut m) (conserved : Conserved m) (moved : m.Step event t) :
    Shut t ∧ (t.channel.isOpen → m.channel.isOpen) := by
  cases event with
  | push node =>
    cases moved
    obtain ⟨after, same⟩ := push_shut shut node
    exact ⟨after, fun opened => same.symm.trans opened⟩
  | deliver post =>
    simp only [Step, Mailbox.step, Mailbox.deliver] at moved
    split at moved
    · cases moved
      have same : (m.channel.asyncSend post).isOpen = m.channel.isOpen := Channel.asyncSend_isOpen
      refine ⟨⟨sent_shut shut.failed same (Channel.asyncSend_receiver post), ?_⟩,
        fun opened => same.symm.trans opened⟩
      intro cleaning
      exact same.trans (shut.cleaning cleaning)
    · cases moved
  | resume actor =>
    obtain ⟨after, same⟩ := resume_shut shut conserved moved
    exact ⟨after, fun opened => same.symm.trans opened⟩
  | complete threw =>
    simp only [Step, Mailbox.step, complete] at moved
    split at moved
    next post executing =>
      have idle := conserved.resting (by rw [executing]; exact fun same => by cases same)
      split at moved
      · cases moved
        exact ⟨⟨shut.failed, fun cleaning => by cases cleaning⟩, id⟩
      · cases moved
        obtain ⟨after, same⟩ := loop_shut idle
        exact ⟨after, fun opened => same.symm.trans opened⟩
    all_goals cases moved
  | cleanUp =>
    simp only [Step, Mailbox.step, cleanUp] at moved
    split at moved
    · cases moved
      exact ⟨⟨shut.failed, fun cleaning => by cases cleaning⟩, id⟩
    all_goals cases moved
  | close =>
    cases moved
    exact ⟨⟨fun _ => rfl, fun _ => rfl⟩, fun opened => by cases opened⟩

theorem started_shut (capacity : Nat) : Shut (started capacity) := by
  constructor
  · intro failed
    cases failed
  · intro cleaning
    cases cleaning

/-- What has been executed or is in the channel is in the order in which it was pushed. -/
def InLine (m : Mailbox) : Prop := m.line.Sublist m.pushed

theorem InLine.push (inLine : InLine m) (node : Option IChannelNode)
    (room : (m.push node).deferred = []) : InLine (m.push node) := by
  unfold Mailbox.push at room ⊢
  split
  · exact inLine
  next opened =>
    cases node with
    | none => exact inLine
    | some node =>
      rw [if_neg opened] at room
      dsimp only at room ⊢
      split
      next channel sent =>
        unfold InLine line
        rw [Channel.trySend_contents sent, ← List.append_assoc]
        exact List.Sublist.append inLine (List.Sublist.refl _)
      next refused =>
        rw [refused] at room
        simp at room

theorem InLine.loop (inLine : InLine m) (idle : m.channel.receiver = .idle) : InLine m.loop := by
  unfold Mailbox.loop
  split
  next opened =>
    unfold InLine line at inLine ⊢
    rwa [Channel.asyncReceive_contents idle]
  next => exact inLine

theorem InLine.resume (inLine : InLine m) (conserved : Conserved m) {actor : Bool}
    (moved : m.resume actor = some t) : InLine t := by
  unfold Mailbox.resume at moved
  split at moved
  next starting =>
    cases moved
    exact inLine.loop (conserved.resting (by rw [starting]; exact fun same => by cases same))
  next receiving =>
    split at moved
    next => cases moved
    next channel taken =>
      cases moved
      have failed := Channel.take_error taken
      obtain ⟨-, rfl⟩ := Channel.take_spec taken
      simp only [InLine, line, Channel.contents, failed, Receiver.item] at inLine ⊢
      exact inLine
    next post channel taken =>
      have contents := Channel.take_contents taken
      have idle := Channel.take_receiver taken
      unfold InLine line at inLine
      rw [contents] at inLine
      have fewer : InLine { m with channel } := by
        refine List.Sublist.trans ?_ inLine
        exact List.Sublist.append (List.Sublist.refl _) (List.sublist_cons_self post _)
      dsimp only at moved
      split at moved
      next =>
        cases moved
        exact fewer
      next =>
        split at moved
        next =>
          cases moved
          unfold InLine line
          rwa [List.append_assoc, List.singleton_append]
        next =>
          cases moved
          exact fewer.loop idle
  all_goals cases moved

/-- As long as no node has to wait for room, the nodes keep their order. -/
theorem InLine.step (inLine : InLine m) (conserved : Conserved m) (before : m.deferred = [])
    (after : t.deferred = []) (moved : m.Step event t) : InLine t := by
  cases event with
  | push node =>
    cases moved
    exact inLine.push node after
  | deliver post =>
    simp only [Step, Mailbox.step, Mailbox.deliver, before] at moved
    cases moved
  | resume actor => exact inLine.resume conserved moved
  | complete threw =>
    simp only [Step, Mailbox.step, complete] at moved
    split at moved
    next post executing =>
      split at moved
      · cases moved
        exact inLine
      · cases moved
        exact inLine.loop (conserved.resting (by rw [executing]; exact fun same => by cases same))
    all_goals cases moved
  | cleanUp =>
    simp only [Step, Mailbox.step, cleanUp] at moved
    split at moved
    · cases moved
      exact inLine
    all_goals cases moved
  | close =>
    cases moved
    simp only [InLine, line, Mailbox.close, Channel.contents, Channel.close] at inLine ⊢
    split
    next waiting =>
      rw [Receiver.item_waiting waiting] at inLine
      exact inLine
    next => exact inLine

end Uranus.Mailbox
