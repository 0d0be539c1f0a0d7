import Uranus.Base.Module
import Uranus.Foundation.Path
import Mathlib.Algebra.Order.Group.Multiset
import Mathlib.Data.Multiset.Filter

/-! The threads of the database module: the main thread in `Initial`, `Start` or
`Stop`, a thread for each worker, and any number of calls of `PushTask`. -/
namespace Uranus
open Foundation

/-- The notified variant; its lock is held for one operation at a time. -/
structure TConcurrentDeque (T : Type) where
  deque : List T
  quit : Bool
deriving DecidableEq, Repr

namespace TConcurrentDeque
variable {T : Type}

def new : TConcurrentDeque T := ⟨[], false⟩

def pushBack (data : T) (d : TConcurrentDeque T) : TConcurrentDeque T :=
  { d with deque := d.deque ++ [data] }

/-- Undefined on an empty deque. -/
def popFront (d : TConcurrentDeque T) : Option (T × TConcurrentDeque T) :=
  match d.deque with
  | [] => none
  | data :: rest => some (data, { d with deque := rest })

def clear (d : TConcurrentDeque T) : TConcurrentDeque T := { d with deque := [] }

def setQuit (d : TConcurrentDeque T) : TConcurrentDeque T := { d with quit := true }

def isRunning (d : TConcurrentDeque T) : Bool := !d.quit

/-- What `Wait` waits for. A notification may be lost, so it may wait longer. -/
def Ready (d : TConcurrentDeque T) : Prop := d.deque ≠ [] ∨ d.quit

instance (d : TConcurrentDeque T) : Decidable d.Ready := inferInstanceAs (Decidable (_ ∨ _))

end TConcurrentDeque

/-- A task is owned by one pointer at a time; `serial` tells two tasks apart. -/
structure IDBTaskBase where
  serial : Nat
deriving DecidableEq, Repr

/-- Where the thread of a worker is. Each condition on the deque and the module
is two loads. -/
inductive WorkerPlace where
  | absent
  | acquiring
  | testing
  | testingState
  | waiting
  | retesting
  | retestingState
  | popping
  | executing (task : IDBTaskBase)
  | clearing
  | finished
deriving DecidableEq, Repr

/-- `pushed` and `executed` record what went into the deque and what came back
from `Execute`. -/
structure FWorkerNode where
  place : WorkerPlace
  deque : TConcurrentDeque IDBTaskBase
  pushed : List IDBTaskBase
  executed : List IDBTaskBase
deriving DecidableEq, Repr

namespace FWorkerNode

def new : FWorkerNode := ⟨.absent, .new, [], []⟩

def spawn (w : FWorkerNode) : FWorkerNode := { w with place := .acquiring }

def pushBack (task : IDBTaskBase) (w : FWorkerNode) : FWorkerNode :=
  { w with deque := w.deque.pushBack task, pushed := w.pushed ++ [task] }

def setQuit (w : FWorkerNode) : FWorkerNode := { w with deque := w.deque.setQuit }

/-- The thread of a worker up to its next access to what it shares. An exception
of `Execute` is caught in the loop. -/
def step (state : EModuleState) (w : FWorkerNode) : Option FWorkerNode :=
  match w.place with
  | .absent | .finished => none
  | .acquiring => some { w with place := .testing }
  | .testing =>
    some { w with place := if w.deque.isRunning then .testingState else .clearing }
  | .testingState =>
    some { w with place := if state = .running then .waiting else .clearing }
  | .waiting => if w.deque.Ready then some { w with place := .retesting } else none
  | .retesting =>
    some { w with place := if w.deque.isRunning then .retestingState else .clearing }
  | .retestingState =>
    some { w with place := if state = .running then .popping else .clearing }
  | .popping =>
    match w.deque.popFront with
    | some (task, deque) => some { w with deque, place := .executing task }
    | none => none
  | .executing task => some { w with place := .testing, executed := w.executed ++ [task] }
  | .clearing => some { w with deque := w.deque.clear, place := .finished }

end FWorkerNode

/-- What a call of `PushTask` does next. From `indexing` on the task is accepted;
the index is reduced by a load and a store after it was taken. -/
inductive PushCall where
  | testing (task : IDBTaskBase)
  | indexing (task : IDBTaskBase)
  | loading (index : Nat) (task : IDBTaskBase)
  | storing (index value : Nat) (task : IDBTaskBase)
  | pushing (index : Nat) (task : IDBTaskBase)
deriving DecidableEq, Repr

/-- Where the main thread is: in no function of the module, in the loop that
starts the threads, or in the loop that makes the deques quit. -/
inductive DataAccessMain where
  | idle
  | spawning (index : Nat)
  | quitting (index : Nat)
deriving DecidableEq, Repr

/-- `accepted` records the tasks that `PushTask` did not turn down, and `stray`
those it pushed at an index without a worker, which is undefined. -/
structure UDataAccess where
  state : EModuleState
  workerList : List FWorkerNode
  nextIndex : Nat
  main : DataAccessMain
  calls : Multiset PushCall
  accepted : Multiset IDBTaskBase
  stray : Multiset IDBTaskBase
deriving DecidableEq

inductive DataAccessMove where
  | initial
  | start
  | stop
  | main
  | worker (index : Nat)
  | pushTask (task : IDBTaskBase)
  | advance (call : PushCall)
deriving DecidableEq, Repr

namespace UDataAccess

/-- The size that `Initial` gives the list of workers. -/
def workers : Nat := 2

def new : UDataAccess where
  state := .created
  workerList := []
  nextIndex := 0
  main := .idle
  calls := 0
  accepted := 0
  stray := 0

def goOn (call : PushCall) (m : UDataAccess) : UDataAccess :=
  { m with calls := call ::ₘ m.calls }

/-- `Initial` up to the first thread. It returns in any state but CREATED. -/
def initial (m : UDataAccess) : UDataAccess :=
  if m.state = .created then
    { m with workerList := List.replicate workers .new, main := .spawning 0 }
  else m

/-- The start of the base class; in another state it throws. -/
def start (m : UDataAccess) : UDataAccess :=
  if m.state = .initialized then { m with state := .running } else m

def stop (m : UDataAccess) : UDataAccess :=
  if m.state = .stopped then m else { m with state := .stopped, main := .quitting 0 }

/-- The next turn of a loop of `Initial` or `Stop`, or what comes after it. -/
def mainNext (m : UDataAccess) : Option UDataAccess :=
  match m.main with
  | .idle => none
  | .spawning index =>
    match m.workerList[index]? with
    | some w =>
      some { m with workerList := m.workerList.set index w.spawn, main := .spawning (index + 1) }
    | none => some { m with state := .initialized, main := .idle }
  | .quitting index =>
    match m.workerList[index]? with
    | some w =>
      some { m with workerList := m.workerList.set index w.setQuit, main := .quitting (index + 1) }
    | none => some { m with main := .idle }

/-- The next section of a call of `PushTask` that is not among the calls any more. -/
def advance (m : UDataAccess) : PushCall → UDataAccess
  | .testing task =>
    if m.state ≠ .running then m
    else if m.workerList = [] then m
    else { m with accepted := task ::ₘ m.accepted }.goOn (.indexing task)
  | .indexing task => { m with nextIndex := m.nextIndex + 1 }.goOn (.loading m.nextIndex task)
  | .loading index task => m.goOn (.storing index (m.nextIndex % m.workerList.length) task)
  | .storing index value task => { m with nextIndex := value }.goOn (.pushing index task)
  | .pushing index task =>
    match m.workerList[index]? with
    | some w => { m with workerList := m.workerList.set index (w.pushBack task) }
    | none => { m with stray := task ::ₘ m.stray }

def next (m : UDataAccess) : DataAccessMove → Option UDataAccess
  | .initial => if m.main = .idle then some m.initial else none
  | .start => if m.main = .idle then some m.start else none
  | .stop => if m.main = .idle then some m.stop else none
  | .main => m.mainNext
  | .worker index =>
    match m.workerList[index]? with
    | some w =>
      match w.step m.state with
      | some later => some { m with workerList := m.workerList.set index later }
      | none => none
    | none => none
  | .pushTask task => some (m.goOn (.testing task))
  | .advance call =>
    if call ∈ m.calls then some (advance { m with calls := m.calls.erase call } call) else none

def Step (m : UDataAccess) (move : DataAccessMove) (later : UDataAccess) : Prop :=
  m.next move = some later

def runs (m : UDataAccess) (moves : List DataAccessMove) : List (DataAccessMove × UDataAccess) :=
  Transition.trace next m moves

theorem runs_path (m : UDataAccess) (moves : List DataAccessMove) :
    Transition.Path Step m (m.runs moves) :=
  Transition.trace_path id moves

end UDataAccess
end Uranus
