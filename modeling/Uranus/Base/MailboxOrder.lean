import Uranus.Base.AgentBase
import Uranus.Foundation.Path

/-! The order in which a mailbox executes what one producer pushes. Nodes enter
the channel in one order and are executed in that order; a node enters late when
it is left to a coroutine of its own, which later nodes may overtake. -/
namespace Uranus.Mailbox
open Foundation
variable {m t : Mailbox} {event : Event}

/-- The mailbox of an agent whose `ProcessChannel` has just been spawned. -/
def started (capacity : Nat) : Mailbox := (new capacity).spawnProcess

/-- The nodes executed or in the channel, in their order. -/
def line (m : Mailbox) : List Post := m.executed ++ m.channel.contents

/-- Every node on its way has been pushed, and the coroutines that wait to start
are in the order of their nodes. -/
structure Numbered (m : Mailbox) : Prop where
  serials : m.pushed.map Post.serial = List.range m.pushed.length
  sorted : m.deferred.Pairwise fun first second => first.serial < second.serial
  below : ∀ post ∈ m.deferred, post.serial < m.pushed.length
  within : m.line.length + m.deferred.length ≤ m.pushed.length

/-- What every run at an open channel keeps. -/
structure Working (m : Mailbox) : Prop extends Numbered m where
  opened : m.channel.isOpen
  alive : m.process ≠ .absent ∧ m.process ≠ .cleaning
  resting : m.process ≠ .receiving → m.channel.receiver = .idle
  asking : m.process = .receiving → m.channel.receiver ≠ .idle
  answered : m.channel.receiver ≠ .failed

/-- What a step at an open channel does. -/
inductive Effect (m : Mailbox) : Event → Mailbox → Prop where
  | null : Effect m (.push none) m
  | entered {node : IChannelNode} {channel : Channel Post}
      (sent : m.channel.trySend ⟨m.pushed.length, node⟩ = some channel) :
      Effect m (.push (some node))
        { m with channel := channel, pushed := m.pushed ++ [⟨m.pushed.length, node⟩] }
  | deferred {node : IChannelNode}
      (refused : m.channel.trySend ⟨m.pushed.length, node⟩ = none) :
      Effect m (.push (some node)) { m with
        deferred := m.deferred ++ [⟨m.pushed.length, node⟩]
        pushed := m.pushed ++ [⟨m.pushed.length, node⟩] }
  | delivered {post : Post} (waits : post ∈ m.deferred) :
      Effect m (.deliver post)
        { m with channel := m.channel.asyncSend post, deferred := m.deferred.erase post }
  | began {actor : Bool} (starting : m.process = .starting) : Effect m (.resume actor) m.loop
  | took {post : Post} {channel : Channel Post} (receiving : m.process = .receiving)
      (taken : m.channel.take = some (some post, channel)) :
      Effect m (.resume true) { m with
        channel := channel, process := .executing post, executed := m.executed ++ [post] }
  | lost {post : Post} {channel : Channel Post} (receiving : m.process = .receiving)
      (taken : m.channel.take = some (some post, channel)) :
      Effect m (.resume false) (loop { m with channel := channel })
  | returned {post : Post} (executing : m.process = .executing post) :
      Effect m (.complete false) m.loop
  | threw {post : Post} (executing : m.process = .executing post) :
      Effect m (.complete true) { m with process := .finished }

theorem push_effect (opened : m.channel.isOpen) (node : Option IChannelNode) :
    Effect m (.push node) (m.push node) := by
  unfold push
  rw [opened]
  cases node with
  | none => exact .null
  | some node =>
    simp only [Bool.not_true, Bool.false_eq_true, if_false]
    split
    next channel sent => exact .entered sent
    next refused => exact .deferred refused

theorem resume_effect (working : Working m) {actor : Bool} (moved : m.resume actor = some t) :
    Effect m (.resume actor) t := by
  unfold resume at moved
  cases stands : m.process with
  | starting =>
    simp only [stands, Option.some.injEq] at moved
    subst moved
    exact .began stands
  | receiving =>
    simp only [stands] at moved
    cases taken : m.channel.take with
    | none =>
      rw [taken] at moved
      cases moved
    | some found =>
      obtain ⟨answer, channel⟩ := found
      rw [taken] at moved
      have opened : channel.isOpen = true := (Channel.take_isOpen taken).trans working.opened
      cases answer with
      | none => exact absurd (Channel.take_error taken) working.answered
      | some post =>
        simp only [opened, Bool.not_true, Bool.false_eq_true, if_false] at moved
        cases actor with
        | true =>
          cases moved
          exact .took stands taken
        | false =>
          cases moved
          exact stands ▸ .lost stands taken
  | absent | executing | cleaning | finished =>
    simp only [stands] at moved
    cases moved

theorem effect (working : Working m) (moved : m.Step event t) (opened : t.channel.isOpen) :
    Effect m event t := by
  cases event with
  | push node =>
    cases moved
    exact push_effect working.opened node
  | deliver post =>
    simp only [Step, step, deliver] at moved
    split at moved
    next waits =>
      cases moved
      exact .delivered waits
    next => cases moved
  | resume actor => exact resume_effect working moved
  | complete threw =>
    simp only [Step, step, complete] at moved
    split at moved
    next post executing =>
      cases threw with
      | true =>
        cases moved
        exact .threw executing
      | false =>
        cases moved
        exact .returned executing
    all_goals cases moved
  | cleanUp =>
    simp only [Step, step, cleanUp] at moved
    split at moved
    next cleaning => exact absurd cleaning working.alive.2
    all_goals cases moved
  | close =>
    cases moved
    cases opened

/-- At an open channel the loop asks for the next node. -/
theorem loop_open (opened : m.channel.isOpen) :
    m.loop = { m with channel := m.channel.asyncReceive, process := .receiving } := by
  rw [loop, if_pos opened]

theorem loop_line (opened : m.channel.isOpen) (idle : m.channel.receiver = .idle) :
    m.loop.line = m.line := by
  rw [loop_open opened, line, line, Channel.asyncReceive_contents idle]

theorem loop_working (numbered : Numbered m) (opened : m.channel.isOpen)
    (idle : m.channel.receiver = .idle) : Working m.loop := by
  have same := loop_line opened idle
  rw [loop_open opened] at same ⊢
  have answer := Channel.asyncReceive_receiver opened
  constructor
  · constructor
    · exact numbered.serials
    · exact numbered.sorted
    · exact numbered.below
    · rw [same]
      exact numbered.within
  · exact Channel.asyncReceive_isOpen.trans opened
  · simp
  · simp
  · rintro -
    rcases answer with waits | ⟨item, received⟩
    · simp [waits]
    · simp [received]
  · rcases answer with waits | ⟨item, received⟩
    · simp [waits]
    · simp [received]

/-- A node that is sent follows everything in the channel, and leaves the coroutine where it is. -/
theorem sent_working (working : Working m) {channel : Channel Post} {post : Post}
    {deferred pushed : List Post} (opened : channel.isOpen)
    (contents : channel.contents = m.channel.contents ++ [post])
    (receiver : channel.receiver = m.channel.receiver ∨
      m.channel.receiver.isWaiting ∧ channel.receiver = .received post)
    (serials : pushed.map Post.serial = List.range pushed.length)
    (sorted : deferred.Pairwise fun first second => first.serial < second.serial)
    (below : ∀ post ∈ deferred, post.serial < pushed.length)
    (count : deferred.length + 1 + m.pushed.length = m.deferred.length + pushed.length) :
    Working { m with channel := channel, deferred := deferred, pushed := pushed } := by
  constructor
  · constructor
    · exact serials
    · exact sorted
    · exact below
    · have within := working.within
      simp only [line, contents, List.length_append, List.length_cons, List.length_nil] at within ⊢
      omega
  · exact opened
  · exact working.alive
  · intro elsewhere
    rcases receiver with same | ⟨waiting, -⟩
    · exact same.trans (working.resting elsewhere)
    · rw [working.resting elsewhere] at waiting
      cases waiting
  · intro receiving
    rcases receiver with same | ⟨-, received⟩
    · exact same ▸ working.asking receiving
    · simp [received]
  · rcases receiver with same | ⟨-, received⟩
    · exact same ▸ working.answered
    · simp [received]

theorem Numbered.next (numbered : Numbered m) (node : IChannelNode) :
    (m.pushed ++ [(⟨m.pushed.length, node⟩ : Post)]).map Post.serial =
      List.range (m.pushed ++ [(⟨m.pushed.length, node⟩ : Post)]).length := by
  rw [List.map_append, numbered.serials, List.length_append, List.length_singleton,
    List.range_succ]
  rfl

theorem Numbered.below_next (numbered : Numbered m) (last : Post) :
    ∀ post ∈ m.deferred, post.serial < (m.pushed ++ [last]).length := by
  intro post waits
  have below := numbered.below post waits
  rw [List.length_append]
  omega

theorem Working.step (working : Working m) (moved : m.Step event t) (opened : t.channel.isOpen) :
    Working t := by
  cases effect working moved opened with
  | null => exact working
  | entered sent =>
    apply sent_working working (Channel.trySend_isOpen sent).2 (Channel.trySend_contents sent)
      (Channel.trySend_receiver sent) (working.next _) working.sorted (working.below_next _)
    rw [List.length_append, List.length_singleton]
    omega
  | deferred refused =>
    refine { working with serials := working.next _, sorted := ?_, below := ?_, within := ?_ }
    · apply List.pairwise_append.mpr ⟨working.sorted, List.pairwise_singleton .., _⟩
      intro post waits last here
      rw [List.mem_singleton.mp here]
      exact working.below post waits
    · intro post waits
      rcases List.mem_append.mp waits with waits | here
      · exact working.below_next _ post waits
      · rw [List.mem_singleton.mp here, List.length_append]
        exact Nat.lt_succ_self _
    · have within := working.within
      simp only [line, List.length_append, List.length_singleton] at within ⊢
      omega
  | delivered waits =>
    apply sent_working working (Channel.asyncSend_isOpen.trans working.opened)
      (Channel.asyncSend_contents working.opened _) (Channel.asyncSend_receiver _)
      working.serials (working.sorted.sublist List.erase_sublist)
    · intro other still
      exact working.below other (List.mem_of_mem_erase still)
    · have one := List.length_erase_of_mem waits
      have some := List.length_pos_of_mem waits
      omega
  | began starting =>
    exact loop_working working.toNumbered working.opened (working.resting (by simp [starting]))
  | took receiving taken =>
    have idle := Channel.take_receiver taken
    refine { working with
      opened := (Channel.take_isOpen taken).trans working.opened
      alive := by simp
      resting := fun _ => idle
      asking := by simp
      answered := by simp [idle]
      within := ?_ }
    have within := working.within
    simp only [line, Channel.take_contents taken, List.length_append, List.length_cons,
      List.length_nil] at within ⊢
    omega
  | lost receiving taken =>
    apply loop_working _ ((Channel.take_isOpen taken).trans working.opened)
      (Channel.take_receiver taken)
    refine { working with within := ?_ }
    have within := working.within
    simp only [line, Channel.take_contents taken, List.length_append, List.length_cons]
      at within ⊢
    omega
  | returned executing =>
    exact loop_working working.toNumbered working.opened (working.resting (by simp [executing]))
  | threw executing =>
    exact { working with
      alive := by simp
      resting := fun _ => working.resting (by simp [executing])
      asking := by simp }

/-- The nodes are executed as they were pushed: no node is out of place, and a
coroutine that has ended leaves none behind. -/
def InOrder (m : Mailbox) : Prop :=
  m.line ++ m.deferred = m.pushed ∧
    (m.process = .finished → m.channel.contents = [] ∧ m.deferred = [])

/-- A node is not pushed past a coroutine that has yet to start, nor to a consumer
that has ended; these coroutines start in the order of their nodes; a node finds
an actor; and where executing it throws it is the last. -/
def InTurn (m : Mailbox) : Event → Prop
  | .push none => True
  | .push (some _) => m.process ≠ .finished ∧ (m.channel.hasRoom → m.deferred = [])
  | .deliver post => m.deferred.head? = some post
  | .resume actor => actor ∨ m.channel.receiver.item = []
  | .complete threw => threw → m.channel.contents = [] ∧ m.deferred = []
  | .cleanUp | .close => True

instance (m : Mailbox) (event : Event) : Decidable (InTurn m event) :=
  match event with
  | .push none | .cleanUp | .close => .isTrue trivial
  | .push (some _) | .deliver _ | .resume _ | .complete _ => by
    unfold InTurn
    infer_instance

theorem Numbered.pushed_sorted (numbered : Numbered m) :
    m.pushed.Pairwise fun first second => first.serial < second.serial := by
  rw [← List.pairwise_map (f := Post.serial) (R := (· < ·)), numbered.serials]
  exact List.pairwise_lt_range

theorem entered_inOrder (working : Working m) {node : IChannelNode} {channel : Channel Post}
    (sent : m.channel.trySend ⟨m.pushed.length, node⟩ = some channel) :
    InOrder { m with channel := channel, pushed := m.pushed ++ [⟨m.pushed.length, node⟩] } ↔
      InOrder m ∧ InTurn m (.push (some node)) := by
  have contents := Channel.trySend_contents sent
  constructor
  · rintro ⟨placed, ended⟩
    simp only [line, contents, ← List.append_assoc] at placed
    have unfinished : m.process ≠ .finished := by
      intro finished
      have empty := (ended finished).1
      simp [contents] at empty
    rcases List.eq_nil_or_concat m.deferred with none | ⟨others, last, deferred⟩
    · rw [none, List.append_nil] at placed
      constructor
      · constructor
        · rw [none, List.append_nil]
          exact List.append_cancel_right placed
        · exact fun finished => absurd finished unfinished
      · exact ⟨unfinished, fun _ => none⟩
    · -- the last of the coroutines that wait has an earlier node
      rw [deferred, List.concat_eq_append, ← List.append_assoc] at placed
      have same := (List.append_inj' placed rfl).2
      have below := working.below last (by simp [deferred])
      rw [List.singleton_inj.mp same] at below
      exact absurd below (Nat.lt_irrefl _)
  · rintro ⟨⟨placed, -⟩, unfinished, free⟩
    have none := free (Channel.trySend_hasRoom sent)
    rw [none, List.append_nil] at placed
    constructor
    · simp only [line, contents, none, List.append_nil, ← List.append_assoc]
      rw [← line, placed]
    · exact fun finished => absurd finished unfinished

theorem deferred_inOrder {node : IChannelNode} (opened : m.channel.isOpen)
    (refused : m.channel.trySend ⟨m.pushed.length, node⟩ = none) :
    InOrder { m with
      deferred := m.deferred ++ [⟨m.pushed.length, node⟩]
      pushed := m.pushed ++ [⟨m.pushed.length, node⟩] } ↔
        InOrder m ∧ InTurn m (.push (some node)) := by
  obtain ⟨unwaiting, full⟩ := Channel.trySend_refused opened refused
  constructor
  · rintro ⟨placed, ended⟩
    have unfinished : m.process ≠ .finished := by
      intro finished
      have empty := (ended finished).2
      simp at empty
    rw [← List.append_assoc] at placed
    constructor
    · exact ⟨List.append_cancel_right placed, fun finished => absurd finished unfinished⟩
    · constructor
      · exact unfinished
      · rintro (waiting | room)
        · exact absurd waiting unwaiting
        · exact absurd room (Nat.not_lt.mpr full)
  · rintro ⟨⟨placed, -⟩, unfinished, -⟩
    constructor
    · change m.line ++ (m.deferred ++ _) = _
      rw [← List.append_assoc, placed]
    · exact fun finished => absurd finished unfinished

theorem delivered_inOrder (working : Working m) {post : Post} (waits : post ∈ m.deferred) :
    InOrder { m with
      channel := m.channel.asyncSend post, deferred := m.deferred.erase post } ↔
        InOrder m ∧ InTurn m (.deliver post) := by
  have contents := Channel.asyncSend_contents working.opened post
  constructor
  · rintro ⟨placed, ended⟩
    simp only [line, contents, ← List.append_assoc] at placed
    have unfinished : m.process ≠ .finished := by
      intro finished
      have empty := (ended finished).1
      simp [contents] at empty
    have head : m.deferred.head? = some post := by
      cases deferred : m.deferred with
      | nil =>
        rw [deferred] at waits
        cases waits
      | cons first others =>
        by_contra other
        have other : first ≠ post := by simpa using other
        rw [deferred, List.erase_cons_tail (by simpa using other)] at placed
        rw [deferred] at waits
        have later := List.mem_of_ne_of_mem (Ne.symm other) waits
        have sorted := working.sorted
        rw [deferred] at sorted
        have after := (List.pairwise_cons.mp sorted).1 post later
        have pushed := working.pushed_sorted
        rw [← placed, List.append_assoc] at pushed
        have before := (List.pairwise_append.mp pushed).2.1
        have before := (List.pairwise_cons.mp before).1 first List.mem_cons_self
        exact absurd before (Nat.lt_asymm after)
    constructor
    · constructor
      · obtain ⟨others, deferred⟩ := List.head?_eq_some_iff.mp head
        rw [deferred, List.erase_cons_head] at placed
        rw [deferred, ← placed, ← line, List.append_assoc]
        rfl
      · exact fun finished => absurd finished unfinished
    · exact head
  · rintro ⟨⟨placed, ended⟩, head⟩
    obtain ⟨others, deferred⟩ := List.head?_eq_some_iff.mp head
    constructor
    · simp only [line, contents, deferred, List.erase_cons_head]
      rw [← List.append_assoc, ← line, List.append_assoc, ← placed, deferred]
      rfl
    · intro finished
      rw [(ended finished).2] at waits
      cases waits

/-- Where the coroutine only goes on, the nodes keep their places. -/
theorem inOrder_congr (line : t.line = m.line) (deferred : t.deferred = m.deferred)
    (pushed : t.pushed = m.pushed) (before : m.process ≠ .finished)
    (after : t.process ≠ .finished) : InOrder t ↔ InOrder m := by
  unfold InOrder
  rw [line, deferred, pushed]
  exact and_congr_right fun _ =>
    ⟨fun _ finished => absurd finished before, fun _ finished => absurd finished after⟩

theorem loop_inOrder (opened : m.channel.isOpen) (idle : m.channel.receiver = .idle)
    (unfinished : m.process ≠ .finished) : InOrder m.loop ↔ InOrder m := by
  have line := loop_line opened idle
  rw [loop_open opened] at line ⊢
  exact inOrder_congr line rfl rfl unfinished (by simp)

/-- A step ends in order exactly if it starts in order and is in turn. -/
theorem inOrder_step (working : Working m) (moved : m.Step event t) (opened : t.channel.isOpen) :
    InOrder t ↔ InOrder m ∧ InTurn m event := by
  cases effect working moved opened with
  | null => exact ⟨fun placed => ⟨placed, trivial⟩, fun placed => placed.1⟩
  | entered sent => exact entered_inOrder working sent
  | deferred refused => exact deferred_inOrder working.opened refused
  | delivered waits => exact delivered_inOrder working waits
  | began starting =>
    have idle := working.resting (by simp [starting])
    rw [loop_inOrder working.opened idle (by simp [starting]), iff_self_and]
    intro _
    exact .inr (by rw [idle]; rfl)
  | @took post channel receiving taken =>
    have line : m.executed ++ [post] ++ channel.contents = m.line := by
      simp [line, Channel.take_contents taken]
    apply Iff.trans (b := InOrder m)
    · exact inOrder_congr line rfl rfl (by simp [receiving]) (by simp)
    · exact ⟨fun placed => ⟨placed, .inl rfl⟩, fun placed => placed.1⟩
  | @lost post channel receiving taken =>
    constructor
    · intro placed
      -- a node that is neither executed nor in the channel is missing
      have opened := (Channel.take_isOpen taken).trans working.opened
      rw [loop_inOrder (m := { m with channel := channel }) opened (Channel.take_receiver taken)
        (by simp [receiving])] at placed
      have count := congrArg List.length placed.1
      have within := working.within
      simp only [line, Channel.take_contents taken, List.length_append, List.length_cons]
        at count within
      omega
    · rintro ⟨-, none | none⟩
      · cases none
      · rw [Channel.take_received taken] at none
        cases none
  | returned executing =>
    have idle := working.resting (by simp [executing])
    rw [loop_inOrder working.opened idle (by simp [executing]), iff_self_and]
    intro _ threw
    cases threw
  | threw executing =>
    constructor
    · rintro ⟨placed, ended⟩
      exact ⟨⟨placed, fun _ => ended rfl⟩, fun _ => ended rfl⟩
    · rintro ⟨⟨placed, -⟩, last⟩
      exact ⟨placed, fun _ => last rfl⟩

theorem started_working (capacity : Nat) : Working (started capacity) := by
  constructor
  · constructor
    · rfl
    · exact List.Pairwise.nil
    · simp [started, new, spawnProcess]
    · simp [started, new, spawnProcess, line, Channel.contents, Channel.new, Receiver.item]
  · rfl
  · simp [started, new, spawnProcess]
  · intro _
    rfl
  · simp [started, new, spawnProcess]
  · simp [started, new, spawnProcess, Channel.new]

theorem started_inOrder (capacity : Nat) : InOrder (started capacity) := by
  constructor
  · rfl
  · simp [started, new, spawnProcess]

/-- Nothing is left to run: no coroutine waits to start, and `ProcessChannel` cannot go on. -/
structure Settled (m : Mailbox) : Prop where
  deferred : m.deferred = []
  resume : ∀ actor, m.resume actor = none
  complete : ∀ threw, m.complete threw = none

/-- In a settled mailbox the coroutine waits for a node or has ended. -/
theorem Working.settled (working : Working m) (settled : Settled m) :
    m.channel.receiver.isWaiting ∨ m.process = .finished := by
  cases stands : m.process with
  | absent => exact absurd stands working.alive.1
  | starting =>
    have stuck := settled.resume true
    simp [resume, stands] at stuck
  | receiving =>
    left
    have stuck := settled.resume true
    cases taken : m.channel.take with
    | none =>
      rcases Channel.take_none taken with idle | waiting
      · exact absurd idle (working.asking stands)
      · exact waiting
    | some found =>
      obtain ⟨answer, channel⟩ := found
      have opened := (Channel.take_isOpen taken).trans working.opened
      cases answer with
      | none => simp [resume, stands, taken] at stuck
      | some post => simp [resume, stands, taken, opened] at stuck
  | executing post =>
    have stuck := settled.complete true
    simp [complete, stands] at stuck
  | cleaning => exact absurd stands working.alive.2
  | finished => exact .inr rfl

theorem Working.executed_iff (working : Working m) (settled : Settled m) :
    m.executed = m.pushed ↔ InOrder m := by
  have deferred := settled.deferred
  constructor
  · intro same
    have within := working.within
    simp only [line, deferred, List.length_append, List.length_nil, same] at within
    have empty : m.channel.contents = [] := List.eq_nil_of_length_eq_zero (by omega)
    constructor
    · rw [line, empty, deferred, List.append_nil, List.append_nil, same]
    · exact fun _ => ⟨empty, deferred⟩
  · rintro ⟨placed, ended⟩
    have empty : m.channel.contents = [] := by
      rcases working.settled settled with waiting | finished
      · exact Channel.contents_waiting waiting
      · exact (ended finished).1
    rw [line, empty, deferred, List.append_nil, List.append_nil] at placed
    exact placed

theorem InOrder.executed (placed : InOrder m) : m.executed <+: m.pushed := by
  rw [← placed.1, line, List.append_assoc]
  exact List.prefix_append ..

/-- What is executed is always a beginning of what has been pushed, and all of it
in the end, if and only if every step is in turn. -/
theorem executed_iff_inTurn (capacity : Nat) {path : List (Event × Mailbox)}
    (run : Transition.Path Step (started capacity) path)
    (stays : Transition.Always (fun m => m.channel.isOpen) (started capacity) path)
    (settled : Settled (Transition.last (started capacity) path)) :
    Transition.Always (fun m => m.executed <+: m.pushed) (started capacity) path ∧
        (Transition.last (started capacity) path).executed =
          (Transition.last (started capacity) path).pushed ↔
      Transition.Every InTurn (started capacity) path := by
  have run := run.through stays
  have working : Transition.Always Working (started capacity) path := by
    apply run.invariant _ (started_working capacity)
    intro m event t working moved
    exact working.step moved.1 moved.2
  have ends : InOrder (Transition.last (started capacity) path) ↔
      InOrder (started capacity) ∧ Transition.Every InTurn (started capacity) path := by
    apply run.last_iff_every (J := Working) _ _ (started_working capacity)
    · intro m event t working moved
      exact working.step moved.1 moved.2
    · intro m event t working moved
      exact inOrder_step working moved.1 moved.2
  rw [working.last.executed_iff settled, ends]
  constructor
  · exact fun holds => holds.2.2
  · intro inTurn
    constructor
    · have both : Transition.Always (fun m => Working m ∧ InOrder m) (started capacity) path := by
        apply run.always _ ⟨started_working capacity, started_inOrder capacity⟩ inTurn
        intro m event t holds inTurn moved
        constructor
        · exact holds.1.step moved.1 moved.2
        · exact (inOrder_step holds.1 moved.1 moved.2).mpr ⟨holds.2, inTurn⟩
      exact both.imp fun m holds => holds.2.executed
    · exact ⟨started_inOrder capacity, inTurn⟩

/-- The node of task `serial`, pushed as the one with that number. -/
def taskPost (serial : Nat) : Post := ⟨serial, .task serial⟩

def taskRun (events : List Event) : List (Event × Mailbox) :=
  Transition.trace step (started 1) events

theorem taskRun_path (events : List Event) : Transition.Path Step (started 1) (taskRun events) :=
  Transition.trace_path (fun moved => moved) events

/-- Task 1 finds the buffer full. Task 0 is taken out, task 2 takes its place, and
only then the coroutine with task 1 starts. -/
def overtaken : List (Event × Mailbox) := taskRun
  [.push (some (.task 0)), .push (some (.task 1)), .resume true, .push (some (.task 2)),
    .deliver (taskPost 1), .resume true, .complete false, .resume true, .complete false,
    .resume true, .complete false]

theorem overtaken_disordered :
    Transition.Path Step (started 1) overtaken ∧
    Transition.Always (fun m => m.channel.isOpen) (started 1) overtaken ∧
    Settled (Transition.last (started 1) overtaken) ∧
    (Transition.last (started 1) overtaken).pushed = [taskPost 0, taskPost 1, taskPost 2] ∧
    (Transition.last (started 1) overtaken).executed = [taskPost 0, taskPost 2, taskPost 1] ∧
    ¬ (Transition.last (started 1) overtaken).executed =
      (Transition.last (started 1) overtaken).pushed := by
  have settled : Settled (Transition.last (started 1) overtaken) := by
    constructor
    · rfl
    · intro actor
      cases actor <;> rfl
    · intro threw
      cases threw <;> rfl
  refine ⟨taskRun_path _, by decide, settled, by decide, by decide, by decide⟩

/-- The coroutine with task 1 starts before task 2 is pushed. -/
def inTurn : List (Event × Mailbox) := taskRun
  [.push (some (.task 0)), .push (some (.task 1)), .resume true, .deliver (taskPost 1),
    .push (some (.task 2)), .resume true, .complete false, .deliver (taskPost 2), .resume true,
    .complete false, .resume true, .complete false]

theorem executed_iff_inTurn_inTurn :
    Transition.Always (fun m => m.executed <+: m.pushed) (started 1) inTurn ∧
      (Transition.last (started 1) inTurn).executed =
        (Transition.last (started 1) inTurn).pushed := by
  have settled : Settled (Transition.last (started 1) inTurn) := by
    constructor
    · rfl
    · intro actor
      cases actor <;> rfl
    · intro threw
      cases threw <;> rfl
  apply (executed_iff_inTurn 1 (taskRun_path _) (by decide) settled).mpr
  decide

end Uranus.Mailbox
