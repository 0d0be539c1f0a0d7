import Uranus.Database.DataAccess

/-! Which tasks the workers serve. A worker that is started in `Initial` tests a
state that only `Start` sets, and two calls of `PushTask` may take their indices
before either of them has reduced the counter. -/
namespace Uranus
open Foundation

/-- The task under execution. -/
def WorkerPlace.inHand : WorkerPlace → List IDBTaskBase
  | .executing task => [task]
  | _ => []

namespace FWorkerNode
variable {w later : FWorkerNode} {state : EModuleState}

/-- The thread is in its loop, or on the way there. -/
def Live (w : FWorkerNode) : Prop := w.place ≠ .clearing ∧ w.place ≠ .finished

/-- The next operation of the thread reads the state of the module. -/
def TestsState (w : FWorkerNode) : Prop :=
  w.place = .testingState ∨ w.place = .retestingState

instance : Decidable w.TestsState := inferInstanceAs (Decidable (_ ∨ _))

/-- Tasks are executed once and in the order they came. -/
def InOrder (w : FWorkerNode) : Prop := w.executed ++ w.place.inHand <+: w.pushed

/-- Nothing that was pushed is lost. -/
def Complete (w : FWorkerNode) : Prop :=
  w.pushed = w.executed ++ w.place.inHand ++ w.deque.deque

/-- What holds of a worker wherever its thread is. -/
structure Sound (w : FWorkerNode) : Prop where
  ready : w.place = .retesting → w.deque.Ready
  filled : w.place = .retestingState ∨ w.place = .popping → w.deque.deque ≠ []
  order : w.InOrder
  complete : w.place ≠ .finished → w.Complete

theorem Sound.new : new.Sound := by
  constructor <;> simp [FWorkerNode.new, InOrder, Complete, WorkerPlace.inHand,
    TConcurrentDeque.new]

theorem Sound.setQuit (sound : w.Sound) : w.setQuit.Sound :=
  ⟨fun _ => .inr rfl, sound.filled, sound.order, sound.complete⟩

theorem Sound.pushBack (sound : w.Sound) (task : IDBTaskBase) : (w.pushBack task).Sound := by
  constructor
  case ready => exact fun _ => .inl (by simp [FWorkerNode.pushBack, TConcurrentDeque.pushBack])
  case filled => exact fun _ => by simp [FWorkerNode.pushBack, TConcurrentDeque.pushBack]
  case order => exact sound.order.trans (List.prefix_append _ _)
  case complete =>
    intro unfinished
    have complete : w.pushed = w.executed ++ w.place.inHand ++ w.deque.deque :=
      sound.complete unfinished
    simp [Complete, FWorkerNode.pushBack, TConcurrentDeque.pushBack, complete]

/-- A thread that only goes on to another place executes nothing. -/
theorem Sound.move (sound : w.Sound) {place : WorkerPlace} (unfinished : w.place ≠ .finished)
    (before : w.place.inHand = []) (after : place.inHand = [])
    (ready : place = .retesting → w.deque.Ready)
    (filled : place = .retestingState ∨ place = .popping → w.deque.deque ≠ []) :
    ({ w with place } : FWorkerNode).Sound := by
  have order := sound.order
  have complete := sound.complete unfinished
  simp only [InOrder, Complete, before] at order complete
  refine ⟨ready, filled, ?_, fun _ => ?_⟩
  · rw [InOrder, after]
    exact order
  · rw [Complete, after]
    exact complete

theorem Sound.spawn (sound : w.Sound) (absent : w.place = .absent) : w.spawn.Sound :=
  sound.move (by simp [absent]) (by simp [absent, WorkerPlace.inHand]) rfl (by simp) (by simp)

/-- A test leads on, or out of the loop. -/
theorem Sound.test (sound : w.Sound) {place : WorkerPlace} {passes : Prop} [Decidable passes]
    (unfinished : w.place ≠ .finished) (before : w.place.inHand = []) (after : place.inHand = [])
    (ready : place ≠ .retesting)
    (filled : passes → place = .retestingState ∨ place = .popping → w.deque.deque ≠ []) :
    ({ w with place := if passes then place else .clearing } : FWorkerNode).Sound := by
  split
  next met => exact sound.move unfinished before after (absurd · ready) (filled met)
  next => exact sound.move unfinished before rfl (by simp) (by simp)

/-- What the thread of a worker does, by the kind of its next operation. -/
inductive Turn (state : EModuleState) (w : FWorkerNode) : FWorkerNode → Prop where
  | acquires (at' : w.place = .acquiring) : Turn state w { w with place := .testing }
  | tests {inside : WorkerPlace} (at' : w.place = .testing ∧ inside = .testingState ∨
      w.place = .retesting ∧ inside = .retestingState) :
      Turn state w { w with place := if w.deque.isRunning then inside else .clearing }
  | reads {inside : WorkerPlace} (at' : w.place = .testingState ∧ inside = .waiting ∨
      w.place = .retestingState ∧ inside = .popping) :
      Turn state w { w with place := if state = .running then inside else .clearing }
  | wakes (at' : w.place = .waiting) (ready : w.deque.Ready) :
      Turn state w { w with place := .retesting }
  | pops {task : IDBTaskBase} {rest : List IDBTaskBase} (at' : w.place = .popping)
      (split : w.deque.deque = task :: rest) :
      Turn state w { w with deque := { w.deque with deque := rest }, place := .executing task }
  | executes {task : IDBTaskBase} (at' : w.place = .executing task) :
      Turn state w { w with place := .testing, executed := w.executed ++ [task] }
  | clears (at' : w.place = .clearing) :
      Turn state w { w with deque := w.deque.clear, place := .finished }

theorem step_turn (moved : w.step state = some later) : Turn state w later := by
  unfold step at moved
  split at moved
  · cases moved
  · cases moved
  next at' =>
    cases moved
    exact .acquires at'
  next at' =>
    cases moved
    exact .tests (.inl ⟨at', rfl⟩)
  next at' =>
    cases moved
    exact .reads (.inl ⟨at', rfl⟩)
  next at' =>
    split at moved
    next ready =>
      cases moved
      exact .wakes at' ready
    next => cases moved
  next at' =>
    cases moved
    exact .tests (.inr ⟨at', rfl⟩)
  next at' =>
    cases moved
    exact .reads (.inr ⟨at', rfl⟩)
  next at' =>
    cases split : w.deque.deque with
    | nil => simp [TConcurrentDeque.popFront, split] at moved
    | cons task rest =>
      simp only [TConcurrentDeque.popFront, split, Option.some.injEq] at moved
      subst moved
      exact .pops at' split
  next task at' =>
    cases moved
    exact .executes at'
  next at' =>
    cases moved
    exact .clears at'

theorem Turn.sound (turn : Turn state w later) (sound : w.Sound) : later.Sound := by
  cases turn with
  | acquires at' => exact sound.move (by simp [at']) (by rw [at']; rfl) rfl (by simp) (by simp)
  | tests at' =>
    rcases at' with ⟨at', rfl⟩ | ⟨at', rfl⟩
    · exact sound.test (by simp [at']) (by rw [at']; rfl) rfl (by simp) (by simp)
    · apply sound.test (by simp [at']) (by rw [at']; rfl) rfl (by simp)
      intro running _
      refine (sound.ready at').resolve_right fun quit => ?_
      simp [TConcurrentDeque.isRunning, quit] at running
  | reads at' =>
    rcases at' with ⟨at', rfl⟩ | ⟨at', rfl⟩
    · exact sound.test (by simp [at']) (by rw [at']; rfl) rfl (by simp) (by simp)
    · have filled := sound.filled (.inl at')
      exact sound.test (by simp [at']) (by rw [at']; rfl) rfl (by simp) (fun _ _ => filled)
  | wakes at' ready =>
    exact sound.move (by simp [at']) (by rw [at']; rfl) rfl (fun _ => ready) (by simp)
  | pops at' split =>
    have complete := sound.complete (by simp [at'])
    simp only [Complete, at', WorkerPlace.inHand, List.append_nil] at complete
    constructor <;> simp [InOrder, Complete, WorkerPlace.inHand, complete, split]
  | executes at' =>
    have complete := sound.complete (by simp [at'])
    simp only [Complete, at', WorkerPlace.inHand] at complete
    constructor <;> simp [InOrder, Complete, WorkerPlace.inHand, complete]
  | clears at' =>
    have order := sound.order
    simp only [InOrder, at', WorkerPlace.inHand, List.append_nil] at order
    constructor <;> simp [InOrder, WorkerPlace.inHand, order]

/-- A thread that is sound is never stuck at the front of an empty deque. -/
theorem Sound.pops (sound : w.Sound) (at' : w.place = .popping) :
    ∃ later, w.step state = some later := by
  cases split : w.deque.deque with
  | nil => exact absurd split (sound.filled (.inr at'))
  | cons task rest =>
    simp only [step, at', TConcurrentDeque.popFront, split]
    exact ⟨_, rfl⟩

/-- A thread that was started stays so, and leaves alone what others write. -/
structure Kept (w later : FWorkerNode) : Prop where
  before : w.place ≠ .absent
  after : later.place ≠ .absent
  quit : later.deque.quit = w.deque.quit
  pushed : later.pushed = w.pushed

theorem Turn.kept (turn : Turn state w later) : w.Kept later := by
  cases turn with
  | acquires at' | wakes at' | pops at' | executes at' | clears at' =>
    exact ⟨by simp [at'], by simp, rfl, rfl⟩
  | tests at' | reads at' =>
    rcases at' with ⟨at', rfl⟩ | ⟨at', rfl⟩
    all_goals exact ⟨by simp [at'], by dsimp only; split <;> simp, rfl, rfl⟩

/-- A live thread stays in its loop unless it is told to quit or reads a state
other than RUNNING. -/
theorem Turn.live (turn : Turn state w later) (live : w.Live) (quit : w.deque.quit = false)
    (running : w.TestsState → state = .running) : later.Live := by
  cases turn with
  | acquires | wakes | pops | executes => simp [Live]
  | tests at' =>
    have isRunning : w.deque.isRunning := by simp [TConcurrentDeque.isRunning, quit]
    rcases at' with ⟨-, rfl⟩ | ⟨-, rfl⟩ <;> simp [Live, isRunning]
  | reads at' =>
    have running := running (at'.imp And.left And.left)
    rcases at' with ⟨-, rfl⟩ | ⟨-, rfl⟩ <;> simp [Live, running]
  | clears at' => exact absurd at' live.1

/-- A test of any other state ends the loop. -/
theorem Turn.leaves (turn : Turn state w later) (tests : w.TestsState)
    (other : state ≠ .running) : ¬ later.Live := by
  cases turn with
  | reads => exact fun live => live.1 (if_neg other)
  | tests at' => rcases at' with ⟨at', -⟩ | ⟨at', -⟩ <;> simp [TestsState, at'] at tests
  | acquires at' | wakes at' | pops at' | executes at' | clears at' =>
    simp [TestsState, at'] at tests

end FWorkerNode

namespace PushCall

/-- The task of an accepted call that has not been pushed. -/
def held : PushCall → Option IDBTaskBase
  | .testing _ => none
  | .indexing task | .loading _ task | .storing _ _ task | .pushing _ task => some task

/-- The index that a call has taken. -/
def index : PushCall → Option Nat
  | .testing _ | .indexing _ => none
  | .loading index _ | .storing index _ _ | .pushing index _ => some index

end PushCall

namespace UDataAccess
variable {m later : UDataAccess} {move : DataAccessMove} {call : PushCall} {index : Nat}
  {nodes : List FWorkerNode} {w changed : FWorkerNode}

def pushed (nodes : List FWorkerNode) : Multiset IDBTaskBase :=
  (nodes.flatMap FWorkerNode.pushed : List IDBTaskBase)

theorem pushed_cons (w : FWorkerNode) (nodes : List FWorkerNode) :
    pushed (w :: nodes) = w.pushed + pushed nodes := by
  simp [pushed]

theorem pushed_set (at' : nodes[index]? = some w) (same : changed.pushed = w.pushed) :
    pushed (nodes.set index changed) = pushed nodes := by
  induction nodes generalizing index with
  | nil => rfl
  | cons first rest ih =>
    cases index with
    | zero =>
      cases at'
      rw [List.set_cons_zero, pushed_cons, pushed_cons, same]
    | succ index => rw [List.set_cons_succ, pushed_cons, pushed_cons, ih at']

theorem pushed_pushBack (at' : nodes[index]? = some w) (task : IDBTaskBase) :
    pushed (nodes.set index (w.pushBack task)) = task ::ₘ pushed nodes := by
  induction nodes generalizing index with
  | nil => cases at'
  | cons first rest ih =>
    cases index with
    | zero =>
      cases at'
      rw [List.set_cons_zero, pushed_cons, pushed_cons, ← Multiset.cons_add, add_comm]
      simp [FWorkerNode.pushBack, add_comm]
    | succ index =>
      rw [List.set_cons_succ, pushed_cons, pushed_cons, ih at', Multiset.add_cons]

/-- What a step does. The main thread begins a function, or goes on in the loop
of one. -/
inductive Effect (m : UDataAccess) : DataAccessMove → UDataAccess → Prop where
  | initial (idle : m.main = .idle) : Effect m .initial m.initial
  | start (idle : m.main = .idle) : Effect m .start m.start
  | stop (idle : m.main = .idle) : Effect m .stop m.stop
  | spawns {index : Nat} {w : FWorkerNode} (at' : m.main = .spawning index)
      (present : m.workerList[index]? = some w) : Effect m .main
        { m with workerList := m.workerList.set index w.spawn, main := .spawning (index + 1) }
  | spawned {index : Nat} (at' : m.main = .spawning index)
      (complete : m.workerList[index]? = none) :
      Effect m .main { m with state := .initialized, main := .idle }
  | quits {index : Nat} {w : FWorkerNode} (at' : m.main = .quitting index)
      (present : m.workerList[index]? = some w) : Effect m .main
        { m with workerList := m.workerList.set index w.setQuit, main := .quitting (index + 1) }
  | quitted {index : Nat} (at' : m.main = .quitting index) :
      Effect m .main { m with main := .idle }
  | worker {index : Nat} {w changed : FWorkerNode} (present : m.workerList[index]? = some w)
      (turn : w.Turn m.state changed) :
      Effect m (.worker index) { m with workerList := m.workerList.set index changed }
  | pushTask (task : IDBTaskBase) : Effect m (.pushTask task) (m.goOn (.testing task))
  | advance {call : PushCall} (pending : call ∈ m.calls) :
      Effect m (.advance call) (advance { m with calls := m.calls.erase call } call)

theorem mainNext_effect (came : m.mainNext = some later) : m.Effect .main later := by
  simp only [UDataAccess.mainNext] at came
  split at came
  · cases came
  next index at' =>
    cases found : m.workerList[index]? with
    | some w =>
      rw [found] at came
      cases came
      exact .spawns at' found
    | none =>
      rw [found] at came
      cases came
      exact .spawned at' found
  next index at' =>
    cases found : m.workerList[index]? with
    | some w =>
      rw [found] at came
      cases came
      exact .quits at' found
    | none =>
      rw [found] at came
      cases came
      exact .quitted at'

theorem step_effect (moved : Step m move later) : m.Effect move later := by
  cases move with
  | initial =>
    simp only [Step, next, Option.ite_none_right_eq_some, Option.some.injEq] at moved
    obtain ⟨idle, rfl⟩ := moved
    exact .initial idle
  | start =>
    simp only [Step, next, Option.ite_none_right_eq_some, Option.some.injEq] at moved
    obtain ⟨idle, rfl⟩ := moved
    exact .start idle
  | stop =>
    simp only [Step, next, Option.ite_none_right_eq_some, Option.some.injEq] at moved
    obtain ⟨idle, rfl⟩ := moved
    exact .stop idle
  | main => exact mainNext_effect moved
  | worker index =>
    simp only [Step, next] at moved
    split at moved
    next w present =>
      split at moved
      next changed stepped =>
        cases moved
        exact .worker present (FWorkerNode.step_turn stepped)
      next => cases moved
    next => cases moved
  | pushTask task =>
    cases moved
    exact .pushTask task
  | advance call =>
    simp only [Step, next, Option.ite_none_right_eq_some, Option.some.injEq] at moved
    obtain ⟨pending, rfl⟩ := moved
    exact .advance pending

/-- What holds in every state. The main thread is in a function whose state the
module has, and each accepted task is in a call, was pushed, or went astray. -/
structure Orderly (m : UDataAccess) : Prop where
  sound : ∀ w ∈ m.workerList, w.Sound
  quits : ∀ w ∈ m.workerList, w.deque.quit = true → m.state = .stopped
  fresh : m.state = .created → m.main = .idle → m.workerList = []
  spawning : ∀ index, m.main = .spawning index → m.state = .created ∧
    ∀ i w, m.workerList[i]? = some w → (w.place = .absent ↔ index ≤ i)
  quitting : ∀ index, m.main = .quitting index → m.state = .stopped
  present : m.state = .initialized ∨ m.state = .running →
    ∀ w ∈ m.workerList, w.place ≠ .absent
  accounted : m.accepted = m.calls.filterMap PushCall.held + pushed m.workerList + m.stray

theorem Orderly.new : new.Orderly := by
  constructor <;> simp [UDataAccess.new, pushed]

/-- What one node is changed into, and what the others were. -/
theorem all_set {P : Nat → FWorkerNode → Prop} (all : ∀ i w, nodes[i]? = some w → P i w)
    (new : P index changed) (i : Nat) (v : FWorkerNode)
    (at' : (nodes.set index changed)[i]? = some v) : P i v := by
  rw [List.getElem?_set] at at'
  split at at'
  next same =>
    split at at'
    · cases at'
      exact same ▸ new
    · cases at'
  next => exact all i v at'

theorem mem_set {P : FWorkerNode → Prop} (all : ∀ w ∈ nodes, P w) (new : P changed) :
    ∀ v ∈ nodes.set index changed, P v := by
  intro v member
  rcases List.mem_or_eq_of_mem_set member with old | rfl
  · exact all v old
  · exact new

/-- What one call holds beside the others. -/
theorem held_cons (call : PushCall) (calls : Multiset PushCall) :
    (call ::ₘ calls).filterMap PushCall.held =
      (call.held.toList : Multiset IDBTaskBase) + calls.filterMap PushCall.held := by
  cases held : call.held with
  | none => simp [held]
  | some task => simp [Multiset.filterMap_cons_some PushCall.held call calls held]

/-- A thread of the module takes a step. -/
theorem Orderly.worker (orderly : m.Orderly) (at' : m.workerList[index]? = some w)
    (turn : w.Turn m.state changed) :
    ({ m with workerList := m.workerList.set index changed } : UDataAccess).Orderly := by
  have member := List.mem_of_getElem? at'
  have kept := turn.kept
  constructor
  case sound => exact mem_set orderly.sound (turn.sound (orderly.sound w member))
  case quits => exact mem_set orderly.quits (fun quit => orderly.quits w member (kept.quit ▸ quit))
  case fresh =>
    intro created idle
    rw [orderly.fresh created idle] at member
    cases member
  case spawning =>
    intro next spawning
    obtain ⟨created, places⟩ := orderly.spawning next spawning
    refine ⟨created, all_set places ?_⟩
    exact iff_of_false kept.after (fun later => kept.before ((places index w at').mpr later))
  case quitting => exact orderly.quitting
  case present => exact fun before => mem_set (orderly.present before) kept.after
  case accounted =>
    rw [pushed_set at' kept.pushed]
    exact orderly.accounted

theorem Orderly.initial (orderly : m.Orderly) (idle : m.main = .idle) : m.initial.Orderly := by
  unfold UDataAccess.initial
  split
  next created =>
    have none := orderly.fresh created idle
    have fresh : ∀ w ∈ List.replicate workers FWorkerNode.new, w = .new :=
      fun w member => (List.mem_replicate.mp member).2
    constructor
    case sound => exact fun w member => fresh w member ▸ .new
    case quits => exact fun w member quit => by rw [fresh w member] at quit; cases quit
    case fresh => exact fun _ other => by cases other
    case spawning =>
      rintro index ⟨⟩
      refine ⟨created, fun i w at' => ?_⟩
      rw [fresh w (List.mem_of_getElem? at')]
      simp [FWorkerNode.new]
    case quitting => exact fun _ other => by cases other
    case present => exact fun other => by simp [created] at other
    case accounted =>
      have accounted := orderly.accounted
      rw [none] at accounted
      rw [accounted]
      rfl
  next => exact orderly

theorem Orderly.start (orderly : m.Orderly) (idle : m.main = .idle) : m.start.Orderly := by
  unfold UDataAccess.start
  split
  next initialized =>
    have present := orderly.present (.inl initialized)
    constructor
    case sound => exact orderly.sound
    case quits =>
      intro w member quit
      cases initialized.symm.trans (orderly.quits w member quit)
    case fresh => simp
    case spawning => simp [idle]
    case quitting => simp [idle]
    case present => exact fun _ => present
    case accounted => exact orderly.accounted
  next => exact orderly

theorem Orderly.stop (orderly : m.Orderly) : m.stop.Orderly := by
  unfold UDataAccess.stop
  split
  next => exact orderly
  next =>
    constructor
    case sound => exact orderly.sound
    case quits => exact fun _ _ _ => rfl
    case fresh | spawning | present => simp
    case quitting => exact fun _ _ => rfl
    case accounted => exact orderly.accounted

theorem Orderly.spawns (orderly : m.Orderly) (at' : m.main = .spawning index)
    (found : m.workerList[index]? = some w) : ({ m with
      workerList := m.workerList.set index w.spawn
      main := .spawning (index + 1) } : UDataAccess).Orderly := by
  obtain ⟨created, places⟩ := orderly.spawning index at'
  have absent := (places index w found).mpr (le_refl index)
  have member := List.mem_of_getElem? found
  constructor
  case sound => exact mem_set orderly.sound ((orderly.sound w member).spawn absent)
  case quits => exact mem_set orderly.quits (orderly.quits w member)
  case fresh | quitting => simp
  case spawning =>
    rintro next ⟨⟩
    refine ⟨created, fun i v found => ?_⟩
    rw [List.getElem?_set] at found
    split at found
    next same =>
      split at found
      · cases found
        simp [FWorkerNode.spawn, same]
      · cases found
    next other =>
      rw [places i v found]
      omega
  case present => simp [created]
  case accounted =>
    have same : pushed (m.workerList.set index w.spawn) = pushed m.workerList :=
      pushed_set found rfl
    rw [same]
    exact orderly.accounted

/-- At the end of the loop every thread is started. -/
theorem Orderly.spawned (orderly : m.Orderly) (at' : m.main = .spawning index)
    (complete : m.workerList[index]? = none) :
    ({ m with state := .initialized, main := .idle } : UDataAccess).Orderly := by
  obtain ⟨created, places⟩ := orderly.spawning index at'
  have covered := List.getElem?_eq_none_iff.mp complete
  constructor
  case sound => exact orderly.sound
  case quits =>
    intro w member quit
    cases created.symm.trans (orderly.quits w member quit)
  case fresh | spawning | quitting => simp
  case present =>
    intro _ w member absent
    obtain ⟨i, found⟩ : ∃ i, m.workerList[i]? = some w := List.mem_iff_getElem?.mp member
    obtain ⟨below, -⟩ := List.getElem?_eq_some_iff.mp found
    have later := (places i w found).mp absent
    omega
  case accounted => exact orderly.accounted

theorem Orderly.quitNext (orderly : m.Orderly) (at' : m.main = .quitting index)
    (found : m.workerList[index]? = some w) : ({ m with
      workerList := m.workerList.set index w.setQuit
      main := .quitting (index + 1) } : UDataAccess).Orderly := by
  have stopped := orderly.quitting index at'
  have member := List.mem_of_getElem? found
  constructor
  case sound => exact mem_set orderly.sound (orderly.sound w member).setQuit
  case quits => exact fun _ _ _ => stopped
  case fresh | spawning | present => simp [stopped]
  case quitting => exact fun _ _ => stopped
  case accounted =>
    have same : pushed (m.workerList.set index w.setQuit) = pushed m.workerList :=
      pushed_set found rfl
    rw [same]
    exact orderly.accounted

theorem Orderly.quitted (orderly : m.Orderly) (at' : m.main = .quitting index) :
    ({ m with main := .idle } : UDataAccess).Orderly := by
  have stopped := orderly.quitting index at'
  constructor
  case sound => exact orderly.sound
  case quits => exact orderly.quits
  case fresh | spawning | quitting | present => simp [stopped]
  case accounted => exact orderly.accounted

/-- A section of a call: the task stays with the call, or is in a deque, or astray. -/
theorem Orderly.advance (orderly : m.Orderly) (pending : call ∈ m.calls) :
    (advance { m with calls := m.calls.erase call } call).Orderly := by
  have accounted := orderly.accounted
  rw [← Multiset.cons_erase pending, held_cons] at accounted
  cases call with
  | testing task =>
    simp only [UDataAccess.advance]
    simp only [PushCall.held, Option.toList_none, Multiset.coe_nil, zero_add] at accounted
    split
    next => exact { orderly with accounted }
    next =>
      split
      next => exact { orderly with accounted }
      next =>
        refine { orderly with accounted := ?_ }
        simp only [goOn, accounted, held_cons]
        simp [PushCall.held]
  | indexing task | loading index task | storing index value task =>
    refine { orderly with accounted := ?_ }
    simp only [UDataAccess.advance, goOn, accounted, held_cons]
    rfl
  | pushing index task =>
    simp only [UDataAccess.advance]
    simp only [PushCall.held, Option.toList_some, Multiset.coe_singleton] at accounted
    split
    next w present =>
      have member := List.mem_of_getElem? present
      constructor
      case sound => exact mem_set orderly.sound ((orderly.sound w member).pushBack task)
      case quits => exact mem_set orderly.quits (orderly.quits w member)
      case fresh =>
        intro created idle
        rw [orderly.fresh created idle] at member
        cases member
      case spawning =>
        intro next spawning
        obtain ⟨created, places⟩ := orderly.spawning next spawning
        exact ⟨created, all_set places (places index w present)⟩
      case quitting => exact orderly.quitting
      case present =>
        intro before
        have present := orderly.present before
        exact mem_set present (present w member)
      case accounted =>
        simp only [pushed_pushBack present, accounted]
        rw [Multiset.singleton_add, Multiset.cons_add, Multiset.add_cons]
    next =>
      refine { orderly with accounted := ?_ }
      simp only [accounted]
      rw [Multiset.add_cons, Multiset.singleton_add, Multiset.cons_add, Multiset.cons_add]

theorem Orderly.step (orderly : m.Orderly) (moved : Step m move later) : later.Orderly := by
  cases step_effect moved with
  | initial idle => exact orderly.initial idle
  | start idle => exact orderly.start idle
  | stop => exact orderly.stop
  | spawns at' present => exact orderly.spawns at' present
  | spawned at' complete => exact orderly.spawned at' complete
  | quits at' present => exact orderly.quitNext at' present
  | quitted at' => exact orderly.quitted at'
  | worker present turn => exact orderly.worker present turn
  | pushTask task =>
    refine { orderly with accounted := ?_ }
    simp [goOn, held_cons, orderly.accounted, PushCall.held]
  | advance pending => exact orderly.advance pending

/-- Each worker executes what it got once and in order. Until the module is
stopped the threads stay in their loops, and an accepted task is in a call that
has a worker, or with a worker that has it in its deque, or executed it. -/
structure Served (m : UDataAccess) : Prop where
  order : ∀ w ∈ m.workerList, w.InOrder
  live : m.state ≠ .stopped → ∀ w ∈ m.workerList, w.Live
  started : m.state = .running → ∀ w ∈ m.workerList, w.place ≠ .absent
  directed : m.state ≠ .stopped → ∀ call ∈ m.calls, ∀ index, call.index = some index →
    index < m.workerList.length
  kept : m.state ≠ .stopped →
    m.accepted = m.calls.filterMap PushCall.held + pushed m.workerList
  complete : m.state ≠ .stopped → ∀ w ∈ m.workerList, w.Complete

/-- A worker reads the state of the module only once it is RUNNING, and a call
takes its index only while the counter is below the number of workers. Nothing
is asked of a module that is stopped. -/
def Timely (m : UDataAccess) (move : DataAccessMove) : Prop :=
  m.state = .stopped ∨
    match move with
    | .worker index =>
      ∀ w, m.workerList[index]? = some w → w.TestsState → m.state = .running
    | .advance (.indexing _) => m.nextIndex < m.workerList.length
    | _ => True

/-- What a module needs besides its invariant to serve its tasks. -/
structure Manned (m : UDataAccess) : Prop where
  live : ∀ w ∈ m.workerList, w.Live
  directed : ∀ call ∈ m.calls, ∀ index, call.index = some index → index < m.workerList.length
  kept : m.stray = 0

theorem Orderly.served (orderly : m.Orderly) (manned : m.state ≠ .stopped → m.Manned) :
    m.Served := by
  constructor
  case order => exact fun w member => (orderly.sound w member).order
  case live => exact fun unstopped => (manned unstopped).live
  case started => exact fun running => orderly.present (.inr running)
  case directed => exact fun unstopped => (manned unstopped).directed
  case kept =>
    intro unstopped
    rw [orderly.accounted, (manned unstopped).kept, add_zero]
  case complete =>
    intro unstopped w member
    exact (orderly.sound w member).complete ((manned unstopped).live w member).2

theorem Served.manned (served : m.Served) (orderly : m.Orderly) (unstopped : m.state ≠ .stopped) :
    m.Manned := by
  refine ⟨served.live unstopped, served.directed unstopped, ?_⟩
  have accounted := orderly.accounted
  rw [served.kept unstopped] at accounted
  simpa using accounted

theorem advance_state (call : PushCall) (m : UDataAccess) : (m.advance call).state = m.state := by
  cases call with
  | testing task =>
    simp only [UDataAccess.advance]
    split
    · rfl
    · split <;> rfl
  | indexing | loading | storing => rfl
  | pushing index task =>
    simp only [UDataAccess.advance]
    split <;> rfl

theorem stopped_step (orderly : m.Orderly) (stopped : m.state = .stopped)
    (moved : Step m move later) : later.state = .stopped := by
  cases step_effect moved with
  | initial | start | stop =>
    simp [UDataAccess.initial, UDataAccess.start, UDataAccess.stop, stopped]
  | spawned at' => cases stopped.symm.trans (orderly.spawning _ at').1
  | spawns | quits | quitted | worker | pushTask => exact stopped
  | advance =>
    rw [advance_state]
    exact stopped

theorem Manned.goOn (manned : m.Manned)
    (directed : ∀ index, call.index = some index → index < m.workerList.length) :
    (m.goOn call).Manned := by
  refine ⟨manned.live, ?_, manned.kept⟩
  intro other member
  rcases Multiset.mem_cons.mp member with rfl | before
  · exact directed
  · exact manned.directed other before

/-- One node is changed, and is as live as it was. -/
theorem Manned.set (manned : m.Manned) (live : changed.Live) (main : DataAccessMain) :
    ({ m with workerList := m.workerList.set index changed, main } : UDataAccess).Manned := by
  refine ⟨mem_set manned.live live, ?_, manned.kept⟩
  rw [List.length_set]
  exact manned.directed

theorem Manned.advance (manned : m.Manned) (pending : call ∈ m.calls)
    (timely : ∀ task, call = .indexing task → m.nextIndex < m.workerList.length) :
    (advance { m with calls := m.calls.erase call } call).Manned := by
  have others : ({ m with calls := m.calls.erase call } : UDataAccess).Manned :=
    ⟨manned.live, fun other member => manned.directed other (Multiset.mem_of_mem_erase member),
      manned.kept⟩
  cases call with
  | testing task =>
    simp only [UDataAccess.advance]
    split
    next => exact others
    next =>
      split
      next => exact others
      next =>
        exact Manned.goOn ⟨others.live, others.directed, others.kept⟩ (by simp [PushCall.index])
  | indexing task =>
    refine Manned.goOn ⟨others.live, others.directed, others.kept⟩ ?_
    rintro index ⟨⟩
    exact timely task rfl
  | loading index task =>
    exact Manned.goOn ⟨others.live, others.directed, others.kept⟩
      (manned.directed (.loading index task) pending)
  | storing index value task =>
    exact Manned.goOn ⟨others.live, others.directed, others.kept⟩
      (manned.directed (.storing index value task) pending)
  | pushing index task =>
    have below := manned.directed _ pending index rfl
    have live := manned.live _ (List.getElem_mem below)
    have pushed : (m.workerList[index].pushBack task).Live := live
    simp only [UDataAccess.advance, List.getElem?_eq_getElem below]
    exact others.set pushed m.main

theorem Manned.initial (manned : m.Manned) (orderly : m.Orderly) (idle : m.main = .idle) :
    m.initial.Manned := by
  unfold UDataAccess.initial
  split
  next created =>
    have none := orderly.fresh created idle
    refine ⟨fun w member => ?_, fun call member index taken => ?_, manned.kept⟩
    · rw [(List.mem_replicate.mp member).2]
      simp [FWorkerNode.Live, FWorkerNode.new]
    · have below := manned.directed call member index taken
      simp [none] at below
  next => exact manned

theorem Manned.step (orderly : m.Orderly) (manned : m.Manned) (unstopped : m.state ≠ .stopped)
    (timely : m.Timely move) (moved : Step m move later) (after : later.state ≠ .stopped) :
    later.Manned := by
  have timely := timely.resolve_left unstopped
  cases step_effect moved with
  | initial idle => exact manned.initial orderly idle
  | start =>
    unfold UDataAccess.start
    split
    · exact ⟨manned.live, manned.directed, manned.kept⟩
    · exact manned
  | stop => simp [UDataAccess.stop, unstopped] at after
  | spawns => exact manned.set (by simp [FWorkerNode.Live, FWorkerNode.spawn]) _
  | spawned => exact ⟨manned.live, manned.directed, manned.kept⟩
  | quits at' | quitted at' => exact absurd (orderly.quitting _ at') unstopped
  | @worker index w changed present turn =>
    have member := List.mem_of_getElem? present
    have quit : w.deque.quit = false := by
      by_contra quit
      exact unstopped (orderly.quits w member (by simpa using quit))
    exact manned.set (turn.live (manned.live w member) quit (timely w present)) m.main
  | pushTask => exact manned.goOn (by simp [PushCall.index])
  | advance pending =>
    apply manned.advance pending
    rintro task rfl
    exact timely

/-- A test too early ends a loop, and an index taken too early has no worker. -/
theorem untimely_step (untimely : ¬ m.Timely move) (moved : Step m move later) :
    ¬ later.Served := by
  obtain ⟨unstopped, untimely⟩ := not_or.mp untimely
  cases step_effect moved with
  | @worker index w changed present turn =>
    simp only [not_forall] at untimely
    obtain ⟨other, found, tests, early⟩ := untimely
    cases present.symm.trans found
    obtain ⟨below, -⟩ := List.getElem?_eq_some_iff.mp present
    exact fun served =>
      turn.leaves tests early (served.live unstopped changed (List.mem_set below changed))
  | @advance call pending =>
    cases call with
    | indexing task =>
      intro served
      exact untimely (served.directed unstopped _ (Multiset.mem_cons_self _ _) _ rfl)
    | testing | loading | storing | pushing => exact absurd trivial untimely
  | initial | start | stop | spawns | spawned | quits | quitted | pushTask =>
    exact absurd trivial untimely

open Transition in
/-- In every run of the module and of the threads that use it, its workers serve
the accepted tasks if and only if no step comes too early. -/
theorem served_iff_timely {path : List (DataAccessMove × UDataAccess)} (run : Path Step new path) :
    Always Served new path ↔ Every Timely new path := by
  have manned : new.Manned := by
    constructor <;> simp [UDataAccess.new]
  apply run.always_iff_every (J := Orderly) _ _ _ .new (Orderly.new.served fun _ => manned)
  · exact fun orderly moved => orderly.step moved
  · intro s move t orderly served timely moved
    apply (orderly.step moved).served
    intro after
    have unstopped : s.state ≠ .stopped :=
      fun stopped => after (stopped_step orderly stopped moved)
    exact (served.manned orderly unstopped).step orderly unstopped timely moved after
  · exact fun _ _ untimely moved => untimely_step untimely moved

/-- The first worker tests the state in time and executes a task. -/
def servedTask : List (DataAccessMove × UDataAccess) :=
  new.runs [.initial, .main, .main, .main, .start, .worker 0, .worker 0, .worker 0, .pushTask ⟨7⟩,
    .advance (.testing ⟨7⟩), .advance (.indexing ⟨7⟩), .advance (.loading 0 ⟨7⟩),
    .advance (.storing 0 1 ⟨7⟩), .advance (.pushing 0 ⟨7⟩), .worker 0, .worker 0, .worker 0,
    .worker 0, .worker 0, .stop, .main, .main, .main, .worker 0, .worker 0]

theorem served_iff_timely_task :
    Transition.Always Served new servedTask ↔ Transition.Every Timely new servedTask :=
  served_iff_timely (runs_path _ _)

/-- The thread of the first worker is faster than the main thread. -/
def leftEarly : List (DataAccessMove × UDataAccess) :=
  new.runs [.initial, .main, .worker 0, .worker 0, .worker 0, .worker 0, .main, .main, .start,
    .pushTask ⟨7⟩, .advance (.testing ⟨7⟩), .advance (.indexing ⟨7⟩), .advance (.loading 0 ⟨7⟩),
    .advance (.storing 0 1 ⟨7⟩), .advance (.pushing 0 ⟨7⟩)]

open Transition in
/-- The module is RUNNING and the task is in the deque of a worker that is gone. -/
theorem leftEarly_finished : Path Step new leftEarly ∧
    (last new leftEarly).state = .running ∧
    (last new leftEarly).workerList[0]? = some ⟨.finished, ⟨[⟨7⟩], false⟩, [⟨7⟩], []⟩ ∧
    ¬ Always Served new leftEarly := by
  have state : (last new leftEarly).state = .running := by decide +kernel
  have gone : (last new leftEarly).workerList[0]? =
      some ⟨.finished, ⟨[⟨7⟩], false⟩, [⟨7⟩], []⟩ := by decide +kernel
  refine ⟨runs_path _ _, state, gone, fun always => ?_⟩
  have unstopped : (last new leftEarly).state ≠ .stopped := by simp [state]
  exact (always.last.live unstopped _ (List.mem_of_getElem? gone)).2 rfl

end UDataAccess
end Uranus
