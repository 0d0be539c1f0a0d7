import Uranus.Base.MailboxOnce
import Uranus.Foundation.Reach

/-! An open mailbox never gets stuck: its coroutines can always go on until every
node that was pushed has been executed. -/
namespace Uranus.Mailbox
open Foundation Transition
variable {m t : Mailbox} {event : Event}

/-- A coroutine that waits for a node has asked for one. -/
def Awake (m : Mailbox) : Prop := m.process = .receiving → m.channel.receiver ≠ .idle

/-- The channel is open, and the loop goes on. -/
def Serves (m : Mailbox) : Prop :=
  m.channel.isOpen ∧ (m.process = .starting ∨ m.process = .receiving ∨
    ∃ post, m.process = .executing post)

/-- What the coroutines of the mailbox do on their own, where the actor is there and
executions come back. -/
def Own : Event → Prop
  | .deliver _ | .resume true | .complete false => True
  | .push _ | .resume false | .complete true | .cleanUp | .close => False

theorem loop_awake (opened : m.channel.isOpen) : Awake m.loop ∧ Serves m.loop := by
  unfold loop
  rw [if_pos opened]
  refine ⟨fun _ idle => ?_, by simpa using opened, .inr (.inl rfl)⟩
  dsimp only at idle
  rcases Channel.asyncReceive_receiver opened with waiting | ⟨post, received⟩
  · cases waiting.symm.trans idle
  · cases received.symm.trans idle

theorem sent_awake {c d : Channel Post} {post : Post} (awake : c.receiver ≠ .idle)
    (receiver : d.receiver = c.receiver ∨ c.receiver.isWaiting ∧ d.receiver = .received post) :
    d.receiver ≠ .idle := by
  rcases receiver with same | ⟨-, received⟩
  · rwa [same]
  · rw [received]
    exact fun same => by cases same

theorem push_awake (awake : Awake m) (node : Option IChannelNode) : Awake (m.push node) := by
  unfold Mailbox.push
  split
  · exact awake
  · cases node with
    | none => exact awake
    | some node =>
      dsimp only
      split
      next channel sent =>
        exact fun receiving => sent_awake (awake receiving) (Channel.trySend_receiver sent)
      next => exact awake

theorem Awake.step (awake : Awake m) (moved : m.Step event t) : Awake t := by
  have elsewhere {t : Mailbox} (other : t.process ≠ .receiving) : Awake t :=
    fun receiving => absurd receiving other
  have loops (m : Mailbox) : Awake m.loop := by
    by_cases opened : m.channel.isOpen
    · exact (loop_awake opened).1
    · unfold loop
      rw [if_neg opened]
      exact elsewhere (by simp)
  cases event with
  | push node =>
    cases moved
    exact push_awake awake node
  | deliver post =>
    simp only [Step, Mailbox.step, Mailbox.deliver] at moved
    split at moved
    · cases moved
      exact fun receiving => sent_awake (awake receiving) (Channel.asyncSend_receiver post)
    · cases moved
  | resume actor =>
    simp only [Step, Mailbox.step, resume] at moved
    split at moved
    · cases moved
      exact loops m
    · split at moved
      · cases moved
      · cases moved
        exact elsewhere (by simp)
      · split at moved
        · cases moved
          exact elsewhere (by simp)
        · split at moved
          · cases moved
            exact elsewhere (by simp)
          · cases moved
            exact loops _
    all_goals cases moved
  | complete threw =>
    simp only [Step, Mailbox.step, complete] at moved
    split at moved
    · split at moved
      · cases moved
        exact elsewhere (by simp)
      · cases moved
        exact loops m
    all_goals cases moved
  | cleanUp =>
    simp only [Step, Mailbox.step, cleanUp] at moved
    split at moved
    · cases moved
      exact elsewhere (by simp)
    all_goals cases moved
  | close =>
    cases moved
    intro receiving idle
    simp only [Mailbox.close, Channel.close] at idle
    split at idle
    · cases idle
    · exact awake receiving idle

theorem started_awake (capacity : Nat) : Awake (started capacity) := by
  intro receiving
  cases receiving

/-- A mailbox whose coroutines can go on. -/
structure Ready (m : Mailbox) : Prop where
  conserved : m.Conserved
  shut : m.Shut
  awake : m.Awake
  serves : m.Serves

theorem Ready.step (ready : Ready m) (moved : m.Step event t) (serves : Serves t) : Ready t :=
  ⟨ready.conserved.step moved, (ready.shut.step ready.conserved moved).1, ready.awake.step moved,
    serves⟩

/-- What its own coroutines make of a mailbox that can go on. -/
structure Onward (m t : Mailbox) : Prop where
  reach : Reach Step Own m t
  ready : Ready t
  pushed : t.pushed = m.pushed
  all : (t.executed : Multiset Post) + t.waiting = (m.executed : Multiset Post) + m.waiting

theorem Onward.trans {u : Mailbox} (first : Onward m t) (second : Onward t u) : Onward m u :=
  ⟨first.reach.trans second.reach, second.ready, second.pushed.trans first.pushed,
    second.all.trans first.all⟩

theorem Ready.refl (ready : Ready m) : Onward m m := ⟨.refl m, ready, rfl, rfl⟩

/-- A spawned coroutine sends its node. -/
theorem Ready.deliver (ready : Ready m) {post : Post} {others : List Post}
    (deferred : m.deferred = post :: others) :
    ∃ t, Onward m t ∧ t.deferred = others := by
  have moved : m.Step (.deliver post)
      { m with channel := m.channel.asyncSend post, deferred := others } := by
    simp only [Step, Mailbox.step, Mailbox.deliver]
    rw [if_pos (by rw [deferred]; exact List.mem_cons_self), deferred, List.erase_cons_head]
  have own : Own (.deliver post) := trivial
  refine ⟨_, ⟨.single own moved, ready.step moved ?_, rfl, ?_⟩, rfl⟩
  · exact ⟨Channel.asyncSend_isOpen.trans ready.serves.1, ready.serves.2⟩
  · unfold waiting
    dsimp only
    rw [Channel.asyncSend_contents ready.serves.1, deferred, ← Multiset.coe_add, add_assoc,
      Multiset.coe_singleton, Multiset.singleton_add]
    rfl

/-- The coroutine comes to its request for a node. -/
theorem Ready.receive (ready : Ready m) : ∃ t, Onward m t ∧ t.process = .receiving ∧
    t.deferred = m.deferred ∧ t.channel.contents = m.channel.contents := by
  obtain ⟨opened, places⟩ := ready.serves
  have loops (event : Event) (idle : m.channel.receiver = .idle) (own : Own event)
      (moved : m.Step event m.loop) : ∃ t, Onward m t ∧ t.process = .receiving ∧
        t.deferred = m.deferred ∧ t.channel.contents = m.channel.contents := by
    have contents : m.loop.channel.contents = m.channel.contents ∧ m.loop.process = .receiving ∧
        m.loop.deferred = m.deferred ∧ m.loop.executed = m.executed ∧
        m.loop.pushed = m.pushed := by
      unfold loop
      rw [if_pos opened]
      exact ⟨Channel.asyncReceive_contents idle, rfl, rfl, rfl, rfl⟩
    obtain ⟨contents, receiving, deferred, executed, pushed⟩ := contents
    refine ⟨m.loop, ⟨.single own moved, ready.step moved (loop_awake opened).2, pushed, ?_⟩,
      receiving, deferred, contents⟩
    unfold waiting
    rw [contents, deferred, executed]
  rcases places with starting | receiving | ⟨post, executing⟩
  · refine loops (.resume true) (ready.conserved.resting (by rw [starting]; simp)) trivial ?_
    simp only [Step, Mailbox.step, resume, starting]
  · exact ⟨m, ready.refl, receiving, rfl, rfl⟩
  · refine loops (.complete false) (ready.conserved.resting (by rw [executing]; simp)) trivial ?_
    simp only [Step, Mailbox.step, complete, executing]
    rfl

/-- What the channel holds is executed, node by node. -/
theorem Ready.serve (ready : Ready m) (receiving : m.process = .receiving) {post : Post}
    {rest : List Post} (contents : m.channel.contents = post :: rest) :
    ∃ t, Onward m t ∧ t.process = .receiving ∧ t.deferred = m.deferred ∧
      t.channel.contents = rest := by
  obtain ⟨opened, -⟩ := ready.serves
  cases taken : m.channel.take with
  | none =>
    rcases Channel.take_none taken with idle | waiting
    · exact absurd idle (ready.awake receiving)
    · rw [Channel.contents_waiting waiting] at contents
      cases contents
  | some found =>
    obtain ⟨answer, channel⟩ := found
    cases answer with
    | none =>
      rw [ready.shut.failed (Channel.take_error taken)] at opened
      cases opened
    | some first =>
      have split := Channel.take_contents taken
      obtain ⟨rfl, rfl⟩ := List.cons.inj (contents.symm.trans split)
      have stays : channel.isOpen := (Channel.take_isOpen taken).trans opened
      have moved : m.Step (.resume true)
          { m with channel, process := .executing post, executed := m.executed ++ [post] } := by
        simp only [Step, Mailbox.step, resume, receiving, taken, stays]
        rfl
      have own : Own (.resume true) := trivial
      have executing : Onward m
          { m with channel, process := .executing post, executed := m.executed ++ [post] } := by
        refine ⟨.single own moved, ready.step moved ⟨stays, .inr (.inr ⟨post, rfl⟩)⟩, rfl, ?_⟩
        unfold waiting
        rw [split, ← Multiset.coe_add, Multiset.coe_singleton, ← Multiset.cons_coe,
          ← Multiset.singleton_add, add_assoc, add_assoc]
      obtain ⟨t, onward, receiving, deferred, contents⟩ := executing.ready.receive
      exact ⟨t, executing.trans onward, receiving, deferred, contents⟩

theorem Ready.deliverAll (ready : Ready m) : ∃ t, Onward m t ∧ t.deferred = [] := by
  generalize deferred : m.deferred = posts
  induction posts generalizing m with
  | nil => exact ⟨m, ready.refl, deferred⟩
  | cons post others ih =>
    obtain ⟨t, first, deferred⟩ := ready.deliver deferred
    obtain ⟨u, second, none⟩ := ih first.ready deferred
    exact ⟨u, first.trans second, none⟩

theorem Ready.serveAll (ready : Ready m) (receiving : m.process = .receiving)
    (none : m.deferred = []) : ∃ t, Onward m t ∧ t.waiting = 0 := by
  generalize contents : m.channel.contents = posts
  induction posts generalizing m with
  | nil =>
    refine ⟨m, ready.refl, ?_⟩
    unfold waiting
    rw [contents, none]
    rfl
  | cons post rest ih =>
    obtain ⟨t, first, receiving, deferred, contents⟩ := ready.serve receiving contents
    obtain ⟨u, second, empty⟩ := ih first.ready receiving (deferred.trans none) contents
    exact ⟨u, first.trans second, empty⟩

/-- The coroutines of an open mailbox can go on until nothing waits, and all that
waited has then been executed. -/
theorem Ready.drains (ready : Ready m) : ∃ t, Onward m t ∧ t.waiting = 0 := by
  obtain ⟨t, first, none⟩ := ready.deliverAll
  obtain ⟨u, second, receiving, deferred, -⟩ := first.ready.receive
  obtain ⟨v, third, empty⟩ := second.ready.serveAll receiving (deferred.trans none)
  exact ⟨v, (first.trans second).trans third, empty⟩

end Uranus.Mailbox
