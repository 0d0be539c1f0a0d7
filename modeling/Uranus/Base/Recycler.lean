import Uranus.Foundation.Program
import Uranus.Foundation.Rounding
import Uranus.Foundation.Table

/-! The recycler: a queue of idle nodes, a usage counter and the lock over
both. Nodes live in a table of allocated objects, so using one after its
destruction, or through a null pointer, is undefined rather than silently
defined. Every operation follows the source statement by statement; whether a
lock request by the call that already holds the lock succeeds is a parameter. -/
namespace Uranus
open Foundation Program

abbrev NodeId := Nat

def recycledReferenceCount : Int := -10

def recyclerExpandRate : ℚ := 1
def recyclerExpandThreshold : ℚ := 3 / 4
def recyclerShrinkDelay : Int := 1
def recyclerShrinkCount : Int := 512
def recyclerShrinkRate : ℚ := 1 / 2
def recyclerMinimumCapacity : Nat := 64

/-- A recyclable type: its default object and hooks, and the static types an
object of it can be cast to. -/
structure RecycleType (E : Type) where
  construct : E
  onCreate : E → E
  initial : E → E
  clear : E → E
  isA : String → Bool

/-- How the creation of one node ends: with a node, by an exception of
`CreateNode`, or with a node whose `OnCreate` throws. -/
inductive Creation where
  | made
  | createThrows
  | onCreateThrows
deriving DecidableEq, Repr

structure FControlBlock where
  refCount : Int
  recycler : Bool
  deleted : Bool
deriving DecidableEq, Repr

structure ElementNode (E : Type) where
  refCount : Int
  element : E
deriving DecidableEq, Repr

/-- A history of what happened to nodes; no function reads it. -/
inductive NodeEvent where
  | acquired (node : NodeId)
  | increased (node : NodeId) (count : Int)
  | handedBack (node : NodeId)
  | destroyed (node : NodeId)
deriving DecidableEq, Repr

structure Recycler (E : Type) where
  queue : List (Option NodeId)
  usage : Int
  shrinkCount : Int
  shrinkDelay : Int
  shrinkThreshold : ℚ
  shrinkRate : ℚ
  shrinking : Bool
  shrinkTimers : Nat
  held : List LockMode
  control : FControlBlock
  nodes : Table NodeId (ElementNode E)
  nextNode : NodeId
  log : List NodeEvent

abbrev RecyclerM (E : Type) := Program (Recycler E)

/-- Conversion to a 64-bit `size_t`. -/
def toSize (value : Int) : Nat := (value % 2 ^ 64).toNat

namespace FControlBlock

def incRefCount (control : FControlBlock) : FControlBlock :=
  { control with refCount := control.refCount + 1 }

def decRefCount (control : FControlBlock) : FControlBlock :=
  { control with
    refCount := control.refCount - 1
    deleted := control.deleted || (control.refCount == 1 && !control.recycler) }

def release (control : FControlBlock) : FControlBlock := { control with recycler := false }

end FControlBlock

namespace Recycler
variable {E : Type}

/-- A constructed recycler that was not initialised yet. -/
def new : Recycler E where
  queue := []
  usage := -1
  shrinkCount := recyclerShrinkCount
  shrinkDelay := recyclerShrinkDelay
  shrinkThreshold := recyclerExpandThreshold
  shrinkRate := recyclerShrinkRate
  shrinking := false
  shrinkTimers := 0
  held := []
  control := ⟨1, true, false⟩
  nodes := ∅
  nextNode := 0
  log := []

def setShrinkCount (pool : Recycler E) (count : Int) : Recycler E :=
  { pool with shrinkCount := count }
def setShrinkDelay (pool : Recycler E) (sec : Int) : Recycler E := { pool with shrinkDelay := sec }
def setShrinkThreshold (pool : Recycler E) (threshold : ℚ) : Recycler E :=
  { pool with shrinkThreshold := threshold }
def setShrinkRate (pool : Recycler E) (rate : ℚ) : Recycler E := { pool with shrinkRate := rate }

def setNode (pool : Recycler E) (id : NodeId) (node : ElementNode E) : Recycler E :=
  { pool with nodes := pool.nodes.insert id node }

def record (pool : Recycler E) (event : NodeEvent) : Recycler E :=
  { pool with log := pool.log ++ [event] }

def unlock (pool : Recycler E) : Recycler E := { pool with held := pool.held.tail }

/-- A request for `mMutex`. -/
def lock (discipline : Discipline) (mode : LockMode) : RecyclerM E Unit := fun pool =>
  match discipline, pool.held with
  | .nonRecursive, _ :: _ => .error .selfLock pool
  | _, held => .ok () { pool with held := mode :: held }

def withLock {A : Type} (discipline : Discipline) (mode : LockMode) (body : RecyclerM E A) :
    RecyclerM E A :=
  Program.inScope (lock discipline mode) unlock body

/-- The object a node pointer refers to. -/
def deref (pointer : Option NodeId) : RecyclerM E (NodeId × ElementNode E) := fun pool =>
  match pointer with
  | none => .error .undefined pool
  | some id =>
    match pool.nodes.lookup id with
    | none => .error .undefined pool
    | some node => .ok (id, node) pool

def onAcquire (pointer : Option NodeId) : RecyclerM E Unit := do
  let (id, node) ← deref pointer
  throwIf (node.refCount ≠ recycledReferenceCount) "Acquire on non-recycled node"
  modify (·.setNode id { node with refCount := 1 })

def onRecycle (pointer : Option NodeId) : RecyclerM E Unit := do
  let (id, node) ← deref pointer
  modify (·.setNode id { node with refCount := recycledReferenceCount })

def incRefCount (pointer : Option NodeId) : RecyclerM E Unit := do
  let (id, node) ← deref pointer
  modify (·.record (.increased id node.refCount))
  throwIf (node.refCount < 0) "Increase While Recycled"
  modify (·.setNode id { node with refCount := node.refCount + 1 })

def decRefCount (pointer : Option NodeId) : RecyclerM E Bool := do
  let (id, node) ← deref pointer
  modify (·.setNode id { node with refCount := node.refCount - 1 })
  return node.refCount == 1

/-- A hook of the element behind a node. -/
def callHook (hook : E → E) (pointer : Option NodeId) : RecyclerM E Unit := do
  let (id, node) ← deref pointer
  modify (·.setNode id { node with element := hook node.element })

/-- `DestroyElement` followed by `Destroy`. -/
def destroyNode (pointer : Option NodeId) : RecyclerM E Unit := do
  let (id, _) ← deref pointer
  modify fun pool => { pool.record (.destroyed id) with
    nodes := pool.nodes.erase id
    control := pool.control.decRefCount }

/-- `CreateNode`: it allocates and constructs, so it never returns null. -/
def createNode (type : RecycleType E) (outcome : Creation) : RecyclerM E NodeId := fun pool =>
  match outcome with
  | .createThrows => .error (.exception "CreateNode") pool
  | _ => .ok pool.nextNode { pool with
      control := pool.control.incRefCount
      nodes := pool.nodes.insert pool.nextNode ⟨recycledReferenceCount, type.construct⟩
      nextNode := pool.nextNode + 1 }

def createElement (type : RecycleType E) (outcome : Creation) : RecyclerM E NodeId := do
  let elem ← createNode type outcome
  throwIf (outcome = .onCreateThrows) "OnCreate"
  callHook type.onCreate (some elem)
  return elem

def initialLoop (type : RecycleType E) (outcome : Nat → Creation) : Nat → Nat → RecyclerM E Unit
  | _, 0 => return
  | count, left + 1 => do
    let elem ← createElement type (outcome count)
    modify fun pool => { pool with queue := pool.queue ++ [some elem] }
    initialLoop type outcome (count + 1) left

def initial (type : RecycleType E) (outcome : Nat → Creation) (capacity : Nat) :
    RecyclerM E Unit := do
  throwIf (0 ≤ (← get).usage) "Recycler Has Already Initialized"
  initialLoop type outcome 0 capacity
  modify fun pool => { pool with usage := 0 }

/-- The loop that creates `num` nodes. It starts on a vector that already holds
`num - 1` null pointers, and picks the node created when one more is due. -/
def expandLoop (type : RecycleType E) (outcome : Nat → Creation) :
    Nat → Nat → List (Option NodeId) → Option NodeId →
      RecyclerM E (List (Option NodeId) × Option NodeId)
  | _, 0, nodes, result => return (nodes, result)
  | count, num + 1, nodes, result => do
    let elem ← createElement type (outcome count)
    if num = 1 then
      expandLoop type outcome (count + 1) num nodes (some elem)
    else
      expandLoop type outcome (count + 1) num (nodes ++ [some elem]) result

/-- The block of `AcquireNode` under the lock; none when the queue is empty. -/
def acquireFront (type : RecycleType E) : RecyclerM E (Option (Option NodeId)) := do
  match (← get).queue with
  | [] => return none
  | front :: rest =>
    modify fun pool => { pool with queue := rest, usage := pool.usage + 1 }
    onAcquire front
    callHook type.initial front
    return some front

def emplaceAll (discipline : Discipline) (nodes : List (Option NodeId)) : RecyclerM E Unit := do
  if nodes ≠ [] then
    withLock discipline .exclusive do
      modify fun pool => { pool with queue := pool.queue ++ nodes }

/-- The rest of `AcquireNode`, reached when the queue was empty. -/
def expand (fp : Rounding) (discipline : Discipline) (type : RecycleType E)
    (outcome : Nat → Creation) : RecyclerM E (Option NodeId) := do
  let num := fp.scaled (← get).usage.toNat recyclerExpandRate
  throwIf (num ≤ 0) "Recycler expand num equal zero"
  let (nodes, result) ← expandLoop type outcome 0 num (List.replicate (num - 1) none) none
  throwIf (result = none) "Create New Element Failed"
  emplaceAll discipline nodes
  modify fun pool => { pool with usage := pool.usage + 1 }
  onAcquire result
  callHook type.initial result
  return result

def acquireNode (fp : Rounding) (discipline : Discipline) (type : RecycleType E)
    (outcome : Nat → Creation) : RecyclerM E (Option NodeId) := do
  throwIf ((← get).usage < 0) "Recycler Not Initialize"
  match ← withLock discipline .exclusive (acquireFront type) with
  | some front => return front
  | none => expand fp discipline type outcome

/-- The section of `Shrink` under the shared lock: the subtractions of unsigned
sizes that it makes, and how many idle nodes it wants to destroy; zero covers its
early returns. -/
def shrinkPlan (fp : Rounding) (pool : Recycler E) : List (Nat × Nat) × Nat :=
  let usage := toSize pool.usage
  let total := toSize (pool.queue.length + usage)
  if total < toSize pool.shrinkCount then ([], 0)
  else if fp.round usage < ⌈fp.round (fp.round total * pool.shrinkThreshold)⌉ then
    let num := fp.scaled total pool.shrinkRate
    let rest := toSize (total - num)
    if rest ≤ 0 then ([(total, num)], 0)
    else if rest < recyclerMinimumCapacity then
      ([(total, num), (total, recyclerMinimumCapacity)], toSize (total - recyclerMinimumCapacity))
    else ([(total, num)], num)
  else ([], 0)

def shrinkNum (fp : Rounding) (pool : Recycler E) : Nat := (shrinkPlan fp pool).2

/-- Destroys nodes from the front of the queue, `num` of them if there are as many. -/
def popLoop : Nat → RecyclerM E Unit
  | 0 => return
  | num + 1 => do
    match (← get).queue with
    | [] => return
    | front :: rest =>
      modify fun pool => { pool with queue := rest }
      destroyNode front
      popLoop num

def shrink (fp : Rounding) (discipline : Discipline) : RecyclerM E Unit := do
  throwIf ((← get).usage < 0) "Recycler Not Initialize"
  let num ← withLock discipline .shared do
    return shrinkNum fp (← get)
  if num ≤ 0 then
    return
  withLock discipline .exclusive (popLoop num)

def getIdle (discipline : Discipline) : RecyclerM E Nat := do
  if (← get).usage < 0 then
    return 0
  withLock discipline .shared do
    return (← get).queue.length

def getCapacity (discipline : Discipline) : RecyclerM E Nat := do
  let usage := (← get).usage
  if usage < 0 then
    return 0
  withLock discipline .shared do
    return toSize ((← get).queue.length + usage)

/-- The part of `Recycle` under the outer lock, which lives to the end of the
function and so around the inner lock. -/
def enqueue (discipline : Discipline) (pointer : Option NodeId) : RecyclerM E Unit := do
  modify fun pool => { pool with queue := pool.queue ++ [pointer] }
  if (← get).shrinking then
    return
  let total ← withLock discipline .shared do
    let pool ← get
    return toSize (pool.queue.length + pool.usage)
  if total < toSize (← get).shrinkCount then
    return
  modify fun pool => { pool with shrinking := true, shrinkTimers := pool.shrinkTimers + 1 }

def recycle (discipline : Discipline) (pointer : Option NodeId) : RecyclerM E Unit := do
  throwIf ((← get).usage < 0) "Recycler Not Initialize"
  if pointer = none then
    return
  onRecycle pointer
  modify fun pool => { pool with usage := pool.usage - 1 }
  withLock discipline .exclusive (enqueue discipline pointer)

/-- The coroutine of the shrink timer: a cancelled wait leaves `bShrinking` set,
and so does an exception of `Shrink`, which the coroutine logs. -/
def onShrinkTimer (fp : Rounding) (discipline : Discipline) (cancelled : Bool) :
    RecyclerM E Unit := do
  modify fun pool => { pool with shrinkTimers := pool.shrinkTimers - 1 }
  if cancelled then
    return
  shrink fp discipline
  modify fun pool => { pool with shrinking := false }

/-- The destructor. -/
def destroy : RecyclerM E Unit := do
  popLoop (← get).queue.length
  modify fun pool => { pool with control := pool.control.release.decRefCount }

end Recycler
end Uranus
