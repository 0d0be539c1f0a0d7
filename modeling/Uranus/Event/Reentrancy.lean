import Uranus.Event.Runtime

/-! When a loop of `Dispatch` or of `UpdateLoop` runs a handler under its mutex.
The loops push while they hold it, and a push goes on with an agent that waits
in the context of the thread. -/
namespace Uranus
open Foundation

namespace CallFrame

/-- The frames by the mutexes that they hold, and that they request for themselves alone. -/
def locking : Locking CallFrame Mutex where
  callback frame := frame.isHandler
  holds frame := frame.holds.map Prod.fst
  wants frame := (frame.requests.filter fun lock => lock.2 = .exclusive).map Prod.fst

instance : DecidablePred locking.callback :=
  fun frame => inferInstanceAs (Decidable (frame.isHandler = true))

theorem calls_idle {frame : CallFrame} (calls : frame.calls) : locking.Idle frame := by
  cases frame with
  | handler agent => exact ⟨rfl, rfl⟩
  | dispatch => cases calls
  | update => cases calls
  | sections phase rest =>
    cases phase with
    | between => exact ⟨rfl, rfl⟩
    | requesting => cases calls
    | locked => cases calls

end CallFrame

theorem Thread.free_idle {t : Thread} (free : t.free) :
    ∀ g ∈ t.stack.head?, CallFrame.locking.Idle g := by
  intro g top
  rw [Thread.free, Option.mem_def.mp top] at free
  exact CallFrame.calls_idle free

namespace Runtime
variable {s t : Runtime} {i agent : Nat}

/-- The agent that the loop of a frame pushes to next. -/
def target (s : Runtime) : CallFrame → Option Nat
  | .dispatch _ _ (some (entry :: _)) => s.events.lock entry.2
  | .update _ _ (.pushing (sid :: _)) => s.serviceMap.lookup sid
  | .handler _ | .dispatch _ _ (some []) | .dispatch _ _ none | .update .. | .sections .. => none

/-- The next push of a loop runs a handler. -/
def Reenters (s : Runtime) (i : Nat) (frame : CallFrame) : Prop :=
  ∃ agent ∈ s.target frame, s.Waits i agent ∧ s.actors agent

/-- No loop pushes under its mutex to an actor that waits in the context of the
pushing thread. -/
def Posted (s : Runtime) : Label → Prop
  | .act i .advance => ∀ t ∈ s.threads[i]?, ∀ frame ∈ t.stack.head?, ¬ s.Reenters i frame
  | .act _ (.resume _) | .act _ (.complete _) | .act _ (.send ..) | .act _ (.call _)
  | .act _ (.dispatch _) | .act _ (.tick ..) | .act _ .acquire | .agent .. | .make _ => True

/-- No handler runs under a mutex, and no thread requests one for itself that it holds. -/
structure Unlocked (s : Runtime) : Prop where
  clear : ∀ t ∈ s.threads, CallFrame.locking.Clear t.stack
  safe : ∀ t ∈ s.threads, CallFrame.locking.Safe t.stack

def Nested (s : Runtime) : Prop := ∀ t ∈ s.threads, CallFrame.locking.Nested t.stack

/-- A thread's stack becomes another, and the other stacks are the same. -/
def restacked (i : Nat) (later : List CallFrame) (threads : List Thread) : List Thread :=
  threads.modify i fun thread => { thread with stack := later }

theorem restacked_all {P : List CallFrame → Prop} {threads : List Thread} {later : List CallFrame}
    (all : ∀ thread ∈ threads, P thread.stack) (holds : P later) :
    ∀ thread ∈ restacked i later threads, P thread.stack := by
  intro other member
  obtain ⟨j, found⟩ := List.mem_iff_getElem?.mp member
  rw [restacked, List.getElem?_modify] at found
  obtain ⟨thread, here, rfl⟩ := Option.map_eq_some_iff.mp found
  split
  · exact holds
  · exact all thread (List.mem_of_getElem? here)

theorem restacked_twice (stack later : List CallFrame) (threads : List Thread) :
    restacked i later (restacked i stack threads) = restacked i later threads := by
  rw [restacked, restacked, List.modify_modify_eq, restacked]
  rfl

/-- A node that a waiting receiver gets is executed where there is an actor. -/
theorem push_resume {m : Mailbox} (opened : m.channel.isOpen)
    (waiting : m.channel.receiver.isWaiting) (receiving : m.process = .receiving)
    (node : IChannelNode) (actor : Bool) :
    ∃ resumed, (m.push (some node)).resume actor = some resumed ∧
      ((∃ post, resumed.process = .executing post) ↔ actor) := by
  have sent : m.channel.trySend ⟨m.pushed.length, node⟩ = some { m.channel with
      receiver := .received ⟨m.pushed.length, node⟩, waits := fun still => nomatch still } := by
    simp only [Channel.trySend, opened, waiting, Bool.not_true, Bool.false_eq_true, if_false,
      dif_pos]
  have pushed : m.push (some node) = { m with
      channel := { m.channel with
        receiver := .received ⟨m.pushed.length, node⟩, waits := fun still => nomatch still }
      pushed := m.pushed ++ [⟨m.pushed.length, node⟩] } := by
    simp only [Mailbox.push, opened, sent, Bool.not_true, Bool.false_eq_true, if_false]
  rw [pushed, Mailbox.resume]
  simp only [receiving, Channel.take, opened, Bool.not_true, Bool.false_eq_true, if_false]
  cases actor with
  | true => exact ⟨_, rfl, fun _ => rfl, fun _ => ⟨_, rfl⟩⟩
  | false =>
    refine ⟨_, rfl, ?_, fun actor => by cases actor⟩
    rintro ⟨post, executing⟩
    simp only [Mailbox.loop, if_true] at executing
    cases executing

/-- A coroutine that goes on runs a handler exactly where it executes a node. -/
theorem resume_threads {thread : Thread} (here : s.threads[i]? = some thread)
    (resumed : s.resume i agent = some t) :
    ∃ m, (s.mailbox agent).bind (Mailbox.resume (s.actors agent)) = some m ∧
      ((∃ post, m.process = .executing post) ∧
          t.threads = restacked i (.handler agent :: thread.stack) s.threads ∨
        (¬ ∃ post, m.process = .executing post) ∧ t.threads = s.threads) := by
  rw [resume, here] at resumed
  cases went : (s.mailbox agent).bind (Mailbox.resume (s.actors agent)) with
  | none => rw [went] at resumed; cases resumed
  | some m =>
    rw [went] at resumed
    refine ⟨m, rfl, ?_⟩
    dsimp only at resumed
    split at resumed
    next post executing =>
      cases resumed
      exact .inl ⟨⟨post, executing⟩, rfl⟩
    all_goals
      rename_i elsewhere
      cases resumed
      refine .inr ⟨?_, rfl⟩
      rintro ⟨post, executing⟩
      cases elsewhere.symm.trans executing

/-- Something pushes a node to the mailbox of the agent. -/
def Sending (agent : Nat) (send : UEventModule → UEventModule) (events : UEventModule) : Prop :=
  ∃ node, (send events).agents.lookup agent =
    (events.agents.lookup agent).map (Mailbox.push (some node))

theorem modify_sending (agent : Nat) (node : IChannelNode) (events : UEventModule) :
    Sending agent (fun events => { events with
      agents := Table.modify agent (Mailbox.push (some node)) events.agents }) events :=
  ⟨node, by rw [Table.lookup_modify, if_pos rfl]⟩

theorem pushEvent_sending {events : UEventModule} {weak : WeakAgent}
    (locked : events.lock weak = some agent) (kind : ListenerKind) (event : IEventParam)
    (id : Int) : Sending agent (UEventModule.pushEvent kind event id weak) events := by
  refine ⟨.event event.param, ?_⟩
  rw [UEventModule.pushEvent, locked]
  dsimp only
  rw [Table.lookup_modify, if_pos rfl]
  rfl

/-- A push runs a handler exactly where the actor waits in the context of the thread. -/
theorem push_threads {thread : Thread} (here : s.threads[i]? = some thread)
    {send : UEventModule → UEventModule} (sending : Sending agent send s.events) :
    (s.push i agent send).threads =
      if s.Waits i agent ∧ s.actors agent then
        restacked i (.handler agent :: thread.stack) s.threads
      else s.threads := by
  obtain ⟨node, sending⟩ := sending
  by_cases waits : s.Waits i agent
  · obtain ⟨m, present, opened, waiting, receiving⟩ := waits.1
    obtain ⟨resumed, resumes, executes⟩ :=
      push_resume opened waiting receiving node (s.actors agent)
    have went : (mailbox { s with events := send s.events } agent).bind
        (Mailbox.resume (s.actors agent)) = some resumed := by
      rw [mailbox, sending, ← mailbox, Option.mem_def.mp present]
      exact resumes
    rw [push, if_pos waits]
    cases inside : resume i agent { s with events := send s.events } with
    | none =>
      rw [resume, here, went] at inside
      dsimp only at inside
      split at inside <;> cases inside
    | some t =>
      obtain ⟨m', went', outcome⟩ :=
        resume_threads (s := { s with events := send s.events }) here inside
      cases went.symm.trans went'
      rcases outcome with ⟨executing, handler⟩ | ⟨elsewhere, same⟩
      · rw [if_pos ⟨waits, executes.mp executing⟩]
        exact handler
      · rw [if_neg fun both => elsewhere (executes.mpr both.2)]
        exact same
  · rw [push, if_neg waits, if_neg fun both => waits both.1]

section
variable {thread : Thread}

theorem restacked_same (here : s.threads[i]? = some thread) :
    restacked i thread.stack s.threads = s.threads := by
  apply List.ext_getElem?
  intro j
  rw [restacked, List.getElem?_modify]
  by_cases same : i = j
  · subst same
    rw [here]
    simp
  · simp [same]

theorem restacked_here (here : s.threads[i]? = some thread) (later : List CallFrame) :
    (restacked i later s.threads)[i]? = some { thread with stack := later } := by
  rw [restacked, List.getElem?_modify_eq, here]
  rfl

/-- Who waits for whom does not depend on the stacks. -/
theorem waits_setStack (here : s.threads[i]? = some thread) (later : List CallFrame) :
    (s.setStack i later).Waits i agent ↔ s.Waits i agent := by
  have runs : (s.setStack i later).threads[i]?.bind Thread.runs =
      s.threads[i]?.bind Thread.runs := by
    rw [setStack, ← restacked, restacked_here here, here]
    rfl
  rw [Waits, Waits, runs]
  rfl

/-- What a step of a thread makes of its stack. Where a push is not posted, the
handler comes above the frame of the loop. -/
inductive Stacked (s : Runtime) (i : Nat) (act : Act) (stack : List CallFrame) :
    List CallFrame → Prop where
  | posted {later : List CallFrame} (posted : s.Posted (.act i act))
      (turn : CallFrame.locking.Turn stack later) : Stacked s i act stack later
  | reenters {frame : CallFrame} {below : List CallFrame} (agent : Nat)
      (inside : ¬ s.Posted (.act i act)) (turn : CallFrame.locking.Turn stack (frame :: below))
      (locked : CallFrame.locking.holds frame ≠ []) :
      Stacked s i act stack (.handler agent :: frame :: below)

/-- A push from a frame of the thread. -/
theorem push_stacked (here : s.threads[i]? = some thread) {send : UEventModule → UEventModule}
    (sending : Sending agent send s.events) (stack : List CallFrame) :
    ((s.setStack i stack).push i agent send).threads = restacked i
      (if s.Waits i agent ∧ s.actors agent then .handler agent :: stack else stack) s.threads := by
  have placed := restacked_here here stack
  have same : (s.setStack i stack).Waits i agent ∧ (s.setStack i stack).actors agent ↔
      s.Waits i agent ∧ s.actors agent := and_congr_left fun _ => waits_setStack here stack
  rw [push_threads (s := s.setStack i stack) placed sending]
  by_cases waits : s.Waits i agent ∧ s.actors agent
  · rw [if_pos waits, if_pos (same.mpr waits)]
    exact restacked_twice stack _ s.threads
  · rw [if_neg waits, if_neg fun placed => waits (same.mp placed)]
    rfl

/-- The push of a loop, from its frame as it is after the push. -/
theorem loop_stacked {frame later : CallFrame} {below : List CallFrame}
    (here : s.threads[i]? = some thread) (top : thread.stack = frame :: below)
    (target : s.target frame = some agent)
    (turn : CallFrame.locking.Turn (frame :: below) (later :: below))
    (locked : CallFrame.locking.holds later ≠ []) :
    Stacked s i .advance thread.stack
      (if s.Waits i agent ∧ s.actors agent then .handler agent :: later :: below
        else later :: below) := by
  rw [top]
  split
  next waits =>
    refine .reenters agent ?_ turn locked
    intro posted
    exact posted thread here frame (by rw [top]; rfl) ⟨agent, target, waits⟩
  next rests =>
    refine .posted ?_ turn
    intro other found first head
    cases here.symm.trans found
    rw [top] at head
    cases head
    rintro ⟨receiver, targeted, waits⟩
    cases target.symm.trans targeted
    exact rests waits

/-- A step that pushes to nobody. -/
theorem quiet_stacked {frame : CallFrame} {below later : List CallFrame}
    (here : s.threads[i]? = some thread) (top : thread.stack = frame :: below)
    (nobody : s.target frame = none) (turn : CallFrame.locking.Turn (frame :: below) later) :
    Stacked s i .advance thread.stack later := by
  refine .posted ?_ (top ▸ turn)
  intro other found first head
  cases here.symm.trans found
  rw [top] at head
  cases head
  rintro ⟨receiver, targeted, -⟩
  cases nobody.symm.trans targeted

theorem dispatch_stacked {event : IEventParam} {kind : ListenerKind} {below : List CallFrame}
    {listening : Option (List (Sigma fun _ : Int => WeakAgent))}
    (here : s.threads[i]? = some thread)
    (top : thread.stack = .dispatch event kind listening :: below)
    (advanced : s.advance i below (.dispatch event kind listening) = some t) :
    ∃ later, t.threads = restacked i later s.threads ∧
      Stacked s i .advance thread.stack later := by
  cases listening with
  | none => cases kind <;> cases advanced
  | some listening =>
    cases listening with
    | nil =>
      cases kind with
      | service =>
        cases advanced
        exact ⟨_, rfl, quiet_stacked here top rfl (.moves nofun nofun nofun)⟩
      | player =>
        cases advanced
        exact ⟨_, rfl, quiet_stacked here top rfl .returns⟩
    | cons entry rest =>
      have moves : CallFrame.locking.Turn (.dispatch event kind (some (entry :: rest)) :: below)
          (.dispatch event kind (some rest) :: below) := .moves nofun nofun nofun
      have locks : (s.setStack i (.dispatch event kind (some rest) :: below)).events.lock entry.2 =
          s.events.lock entry.2 := rfl
      simp only [advance, locks] at advanced
      cases locked : s.events.lock entry.2 with
      | none =>
        rw [locked] at advanced
        cases advanced
        exact ⟨_, rfl, quiet_stacked here top locked moves⟩
      | some agent =>
        rw [locked] at advanced
        cases advanced
        exact ⟨_, push_stacked here (pushEvent_sending locked kind event entry.1) _,
          loop_stacked here top locked moves nofun⟩

theorem update_stacked {timepoint delta : Int} {phase : UpdatePhase} {below : List CallFrame}
    (here : s.threads[i]? = some thread)
    (top : thread.stack = .update timepoint delta phase :: below)
    (advanced : s.advance i below (.update timepoint delta phase) = some t) :
    ∃ later, t.threads = restacked i later s.threads ∧
      Stacked s i .advance thread.stack later := by
  cases phase with
  | tickLock => cases advanced
  | serviceLock => cases advanced
  | pushing sids =>
    cases sids with
    | nil =>
      cases advanced
      exact ⟨_, rfl, quiet_stacked here top rfl .returns⟩
    | cons sid rest =>
      have moves : CallFrame.locking.Turn
          (.update timepoint delta (.pushing (sid :: rest)) :: below)
          (.update timepoint delta (.pushing rest) :: below) := .moves nofun nofun nofun
      have found : (s.setStack i (.update timepoint delta (.pushing rest) :: below)).serviceMap =
          s.serviceMap := rfl
      simp only [advance, found] at advanced
      cases present : s.serviceMap.lookup sid with
      | none =>
        rw [present] at advanced
        cases advanced
        exact ⟨_, rfl, quiet_stacked here top present moves⟩
      | some agent =>
        rw [present] at advanced
        cases advanced
        have stacked := loop_stacked here top present moves nofun
        refine ⟨_, ?_, stacked⟩
        have kept (stack) : (s.setStack i stack).actors agent = s.actors agent := rfl
        rw [pushTicker, kept]
        by_cases actor : s.actors agent
        · rw [if_pos actor]
          exact push_stacked here (modify_sending agent _ _) _
        · rw [if_neg actor, if_neg fun both => actor both.2]
          rfl

theorem sections_stacked {phase : CallPhase} {rest : List LockedSection} {below : List CallFrame}
    (here : s.threads[i]? = some thread) (top : thread.stack = .sections phase rest :: below)
    (advanced : s.advance i below (.sections phase rest) = some t) :
    ∃ later, t.threads = restacked i later s.threads ∧
      Stacked s i .advance thread.stack later := by
  cases phase with
  | requesting => cases advanced
  | between =>
    cases rest with
    | nil =>
      cases advanced
      exact ⟨_, rfl, quiet_stacked here top rfl .returns⟩
    | cons next rest =>
      cases advanced
      exact ⟨_, rfl, quiet_stacked here top rfl (.moves nofun nofun fun _ _ => List.not_mem_nil)⟩
  | locked =>
    cases rest with
    | nil => cases advanced
    | cons next rest =>
      cases advanced
      have passed (stack) : ((s.pass next).setStack i stack).threads =
          restacked i stack s.threads := by
        cases next <;> rfl
      exact ⟨_, passed _, quiet_stacked here top rfl (.moves nofun nofun nofun)⟩

/-- A mutex that is granted is one that its frame does not hold. -/
theorem granted_turn {frame later : CallFrame} {below : List CallFrame}
    (granted : s.granted frame = some later) :
    CallFrame.locking.Turn (frame :: below) (later :: below) := by
  cases frame with
  | handler agent => cases granted
  | dispatch event kind listening =>
    cases listening with
    | none =>
      cases granted
      exact .moves nofun nofun nofun
    | some => cases granted
  | update timepoint delta phase =>
    cases phase with
    | tickLock | serviceLock =>
      cases granted
      exact .moves nofun nofun nofun
    | pushing => cases granted
  | sections phase rest =>
    cases phase with
    | requesting =>
      cases granted
      exact .moves nofun nofun nofun
    | between | locked => cases granted

/-- Every step of a thread changes its own stack, by a turn or by a handler
that a loop runs. -/
theorem turn_stacked {act : Act} (here : s.threads[i]? = some thread)
    (turned : s.turn i thread act = some t) :
    ∃ later, t.threads = restacked i later s.threads ∧ Stacked s i act thread.stack later := by
  cases act with
  | resume agent =>
    simp only [turn, Option.ite_none_right_eq_some] at turned
    obtain ⟨⟨empty, -⟩, resumed⟩ := turned
    obtain ⟨m, -, ⟨-, handler⟩ | ⟨-, same⟩⟩ := resume_threads here resumed
    · refine ⟨_, handler, .posted trivial (.calls ?_ rfl)⟩
      rw [empty]
      exact nofun
    · exact ⟨_, same.trans (restacked_same here).symm, .posted trivial .stays⟩
  | complete threw =>
    simp only [turn] at turned
    split at turned
    next agent below top =>
      obtain ⟨u, stepped, rfl⟩ := Option.map_eq_some_iff.mp turned
      obtain ⟨m, -, rfl⟩ := Option.map_eq_some_iff.mp stepped
      exact ⟨below, rfl, .posted trivial (top ▸ .returns)⟩
    next => cases turned
  | send agent node =>
    simp only [turn, Option.ite_none_right_eq_some, Option.some.injEq] at turned
    obtain ⟨free, rfl⟩ := turned
    rw [push_threads here (modify_sending agent node s.events)]
    split
    · exact ⟨_, rfl, .posted trivial (.calls (Thread.free_idle free) rfl)⟩
    · exact ⟨_, (restacked_same here).symm, .posted trivial .stays⟩
  | call call =>
    simp only [turn, Option.ite_none_right_eq_some, Option.some.injEq] at turned
    obtain ⟨free, rfl⟩ := turned
    exact ⟨_, rfl, .posted trivial (.calls (Thread.free_idle free) rfl)⟩
  | dispatch event =>
    simp only [turn, Option.ite_none_right_eq_some] at turned
    obtain ⟨free, turned⟩ := turned
    cases given : s.events.dispatched event with
    | none =>
      rw [given] at turned
      cases turned
      exact ⟨_, (restacked_same here).symm, .posted trivial .stays⟩
    | some event =>
      rw [given] at turned
      cases turned
      exact ⟨_, rfl, .posted trivial (.calls (Thread.free_idle free) rfl)⟩
  | tick timepoint delta =>
    simp only [turn, Option.ite_none_right_eq_some, Option.some.injEq] at turned
    obtain ⟨⟨empty, -⟩, rfl⟩ := turned
    rw [empty]
    exact ⟨_, rfl, .posted trivial (.calls nofun rfl)⟩
  | acquire =>
    simp only [turn] at turned
    split at turned
    next frame below top =>
      rw [Option.ite_none_right_eq_some] at turned
      obtain ⟨later, granted, rfl⟩ := Option.map_eq_some_iff.mp turned.2
      exact ⟨_, rfl, .posted trivial (top ▸ granted_turn granted)⟩
    next => cases turned
  | advance =>
    simp only [turn] at turned
    split at turned
    next frame below top =>
      cases frame with
      | handler agent => cases turned
      | dispatch event kind listening => exact dispatch_stacked here top turned
      | update timepoint delta phase => exact update_stacked here top turned
      | sections phase rest => exact sections_stacked here top turned
    next => cases turned

/-- What happens to an agent changes no stack. -/
theorem agent_threads {event : AgentEvent} (stepped : s.stepAgent agent event = some t) :
    t.threads = s.threads := by
  have mailbox {event : Mailbox.Event} (stepped : s.stepMailbox agent event = some t) :
      t.threads = s.threads := by
    obtain ⟨m, -, rfl⟩ := Option.map_eq_some_iff.mp stepped
    rfl
  cases event with
  | deliver post => exact mailbox stepped
  | cleanUp => exact mailbox stepped
  | close => exact mailbox stepped
  | spawn =>
    cases stepped
    rfl
  | destroy =>
    simp only [stepAgent, Option.ite_none_right_eq_some, Option.some.injEq] at stepped
    obtain ⟨-, rfl⟩ := stepped
    rfl
  | actor present =>
    cases stepped
    rfl

end

section
variable {label : Label}

/-- A step takes one thread's turn, or leaves all the stacks. -/
theorem step_stacked (moved : Step s label t) :
    s.Posted label ∧ t.threads = s.threads ∨
      ∃ i act thread later, label = .act i act ∧ s.threads[i]? = some thread ∧
        t.threads = restacked i later s.threads ∧ Stacked s i act thread.stack later := by
  cases label with
  | act i act =>
    obtain ⟨thread, here, turned⟩ := Option.bind_eq_some_iff.mp moved
    obtain ⟨later, restacked, stacked⟩ := turn_stacked here turned
    exact .inr ⟨i, act, thread, later, rfl, here, restacked, stacked⟩
  | agent agent event => exact .inl ⟨trivial, agent_threads moved⟩
  | make capacity =>
    cases moved
    exact .inl ⟨trivial, rfl⟩

theorem nested_step (nested : s.Nested) (moved : Step s label t) : t.Nested := by
  obtain ⟨-, same⟩ | ⟨i, act, thread, later, rfl, here, threads, stacked⟩ := step_stacked moved
  · rw [Nested, same]
    exact nested
  · have before := nested thread (List.mem_of_getElem? here)
    rw [Nested, threads]
    apply restacked_all nested
    cases stacked with
    | posted _ turn => exact turn.nested before
    | reenters agent _ turn locked =>
      exact Locking.nested_callback (F := CallFrame) rfl locked (turn.nested before)

theorem unlocked_step (nested : s.Nested) (unlocked : s.Unlocked) (posted : s.Posted label)
    (moved : Step s label t) : t.Unlocked := by
  obtain ⟨-, same⟩ | ⟨i, act, thread, later, rfl, here, threads, stacked⟩ := step_stacked moved
  · exact ⟨same ▸ unlocked.clear, same ▸ unlocked.safe⟩
  · have member := List.mem_of_getElem? here
    cases stacked with
    | posted _ turn =>
      constructor
      · rw [threads]
        exact restacked_all unlocked.clear
          (turn.clear (nested thread member) (unlocked.clear thread member))
      · rw [threads]
        exact restacked_all unlocked.safe (turn.safe (nested thread member)
          (unlocked.clear thread member) (unlocked.safe thread member))
    | reenters _ inside => exact absurd posted inside

theorem reentrant_step (inside : ¬ s.Posted label) (moved : Step s label t) : ¬ t.Unlocked := by
  obtain ⟨posted, -⟩ | ⟨i, act, thread, later, rfl, here, threads, stacked⟩ := step_stacked moved
  · exact absurd posted inside
  · cases stacked with
    | posted posted _ => exact absurd posted inside
    | @reenters frame below agent _ _ locked =>
      intro unlocked
      have found := restacked_here here (.handler agent :: frame :: below)
      rw [← threads] at found
      exact Locking.callback_not_clear (F := CallFrame) rfl locked
        (unlocked.clear _ (List.mem_of_getElem? found))

open Transition in
/-- Over any run from threads that have called nothing, no handler runs under a
mutex if and only if no loop pushes to an actor that waits in the context of its
thread. -/
theorem unlocked_iff_posted {start : Runtime} (idle : ∀ thread ∈ start.threads, thread.stack = [])
    {path : List (Label × Runtime)} (run : Path Step start path) :
    Always Unlocked start path ↔ Every Posted start path := by
  have nested : start.Nested := by
    intro thread member
    rw [idle thread member]
    trivial
  have unlocked : start.Unlocked := by
    constructor
    · intro thread member
      rw [idle thread member]
      trivial
    · intro thread member
      rw [idle thread member]
      trivial
  apply run.always_iff_every (J := Nested) _ _ _ nested unlocked
  · exact fun nested moved => nested_step nested moved
  · exact fun nested unlocked posted moved => unlocked_step nested unlocked posted moved
  · exact fun _ _ inside moved => reentrant_step inside moved

end

/-- One worker thread, in whose context all the agents are made. -/
def oneWorker : Runtime where
  events := { UEventModule.initialised .running with state := .running }
  serviceState := .running
  tickerSet := []
  serviceMap := ∅
  workerContext := 0
  contexts _ := 0
  actors _ := true
  threads := [⟨some 0, []⟩]

/-- An agent with an actor, which waits in `ProcessChannel`. -/
def waitingAgent : List Label := [.make 4096, .agent 0 .spawn, .act 0 (.resume 0)]

/-- A call of one locked section, from its begin to its return. -/
def wholeCall (call : ModuleCall) : List Label :=
  [.act 0 (.call call), .act 0 .advance, .act 0 .acquire, .act 0 .advance, .act 0 .advance]

/-- The event that a service has listened to is dispatched on the worker thread,
and the service stops listening when it gets it. -/
def listenerLeaves : List (Label × Runtime) :=
  oneWorker.runs (waitingAgent ++
    wholeCall (.registration (.listen .service 7 (some 0) 3)) ++
    [.act 0 (.dispatch (some ⟨3, 0⟩)), .act 0 .acquire, .act 0 .advance,
      .act 0 (.call (.registration (.removeByEvent .service 7 3))), .act 0 .advance])

/-- A service removes its ticker when it is ticked. -/
def tickerLeaves : List (Label × Runtime) :=
  oneWorker.runs (waitingAgent ++
    [.act 0 (.call (.bootService 7 0 true)), .act 0 .advance, .act 0 .acquire, .act 0 .advance,
      .act 0 .advance, .act 0 .acquire, .act 0 .advance, .act 0 .advance, .act 0 .acquire,
      .act 0 .advance, .act 0 .advance] ++
    [.act 0 (.tick 10 10), .act 0 .acquire, .act 0 .acquire, .act 0 .advance,
      .act 0 (.call (.removeTicker 7)), .act 0 .advance])

open Transition in
/-- Both handlers run under the mutex of the loop, and the thread waits for good
for the mutex that it holds. -/
theorem leaves_locked :
    (Path Step oneWorker listenerLeaves ∧ ¬ Always Unlocked oneWorker listenerLeaves ∧
      ((last oneWorker listenerLeaves).next (.act 0 .acquire)).isNone) ∧
    Path Step oneWorker tickerLeaves ∧ ¬ Always Unlocked oneWorker tickerLeaves ∧
      ((last oneWorker tickerLeaves).next (.act 0 .acquire)).isNone := by
  refine ⟨⟨runs_path _ _, fun always => ?_, ?_⟩, runs_path _ _, fun always => ?_, ?_⟩
  · have clear := always.last.clear
    revert clear
    decide +kernel
  · decide +kernel
  · have clear := always.last.clear
    revert clear
    decide +kernel
  · decide +kernel

theorem unlocked_iff_posted_listener :
    Transition.Always Unlocked oneWorker listenerLeaves ↔
      Transition.Every Posted oneWorker listenerLeaves :=
  unlocked_iff_posted (by decide) (runs_path _ _)

end Runtime
end Uranus
