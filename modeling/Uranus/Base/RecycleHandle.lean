import Uranus.Base.Acquisition
import Uranus.Foundation.Path

/-! Handles on recycled nodes. The world is one recycler together with every
handle that exists, temporaries included; each constructor, destructor and
swap of a handle is one step of it. -/
namespace Uranus
open Foundation Program

abbrev HandleId := Nat

/-- `mElement` points into the node it came from, so both hold a node. -/
structure FRecycleHandle where
  node : Option NodeId
  element : Option NodeId
deriving DecidableEq, Repr

structure World (E : Type) where
  pool : Recycler E
  handles : Table HandleId FRecycleHandle

abbrev WorldM (E : Type) := Program (World E)

/-- Elements without state, of every type that is asked for. -/
def unitType : RecycleType Unit := ⟨(), id, id, id, fun _ => true⟩

namespace World
variable {E A : Type}

/-- A recycler that was just constructed, and no handle. -/
def new : World E := ⟨Recycler.new, ∅⟩

/-- The nodes that handles point to, once for each handle. -/
def refs (w : World E) : Multiset NodeId := Table.gather FRecycleHandle.node w.handles

/-- A call through a node pointer. -/
def onPool (program : RecyclerM E A) : WorldM E A := fun w =>
  match program w.pool with
  | .ok value pool => .ok value { w with pool := pool }
  | .error fault pool => .error fault { w with pool := pool }

/-- A call on the recycler itself, which must not be destroyed yet. -/
def onRecycler (program : RecyclerM E A) : WorldM E A := fun w =>
  if w.pool.control.recycler then onPool program w else .error .undefined w

end World

namespace FRecycleHandle
open World
variable {E : Type}

def read (this : HandleId) : WorldM E FRecycleHandle := fun w =>
  match w.handles.lookup this with
  | none => .error .undefined w
  | some handle => .ok handle w

def write (this : HandleId) (handle : FRecycleHandle) : WorldM E Unit :=
  modify fun w => { w with handles := w.handles.insert this handle }

/-- A handle comes to life where none is. -/
def construct (this : HandleId) (handle : FRecycleHandle) : WorldM E Unit := fun w =>
  match w.handles.lookup this with
  | none => write this handle w
  | some _ => .error .undefined w

/-- `FRecycleHandle()` and `FRecycleHandle(nullptr)`. -/
def null (this : HandleId) : WorldM E Unit := construct this ⟨none, none⟩

/-- `FRecycleHandle(pNode)`. -/
def ofNode (type : RecycleType E) (this : HandleId) (target : String) (pNode : Option NodeId) :
    WorldM E Unit := do
  let (id, _) ← onPool (Recycler.deref pNode)
  throwIf (type.isA target = false) "bad_cast"
  onPool (modify (·.record (.acquired id)))
  construct this ⟨pNode, pNode⟩

def incRefCount (handle : FRecycleHandle) : WorldM E Unit := do
  if handle.node ≠ none then
    onPool (Recycler.incRefCount handle.node)

/-- The copy constructor, and the converting one. -/
def copy (this rhs : HandleId) : WorldM E Unit := do
  let handle ← read rhs
  incRefCount handle
  construct this handle

/-- The move constructor, and the converting one. -/
def move (this rhs : HandleId) : WorldM E Unit := do
  let handle ← read rhs
  construct this handle
  write rhs ⟨none, none⟩

def swap (this rhs : HandleId) : WorldM E Unit := do
  let left ← read this
  let right ← read rhs
  write this right
  write rhs left

/-- `CastTo` builds its result in place: by the private converting constructor,
or as a null handle when the `dynamic_cast` fails. -/
def castTo (type : RecycleType E) (result this : HandleId) (target : String) : WorldM E Unit := do
  let handle ← read this
  if handle.element ≠ none ∧ type.isA target then
    incRefCount handle
    construct result handle
  else
    null result

def handBack (discipline : Discipline) (id : NodeId) : WorldM E Unit := do
  if (← get).pool.control.recycler then
    onPool (Recycler.recycle discipline (some id))
  else
    onPool (Recycler.destroyNode (some id))
  onPool (modify (·.record (.handedBack id)))

def releaseNode (discipline : Discipline) : Option NodeId → WorldM E Unit
  | none => return
  | some id => do
    if ← onPool (Recycler.decRefCount (some id)) then
      handBack discipline id

def release (discipline : Discipline) (this : HandleId) : WorldM E Unit := Program.noexcept do
  let handle ← read this
  releaseNode discipline handle.node
  write this { handle with node := none }

/-- `~FRecycleHandle()`. -/
def destruct (discipline : Discipline) (this : HandleId) : WorldM E Unit := do
  release discipline this
  modify fun w => { w with handles := w.handles.erase this }

/-- A change of the element through a handle. -/
def edit (this : HandleId) (change : E → E) : WorldM E Unit := do
  let handle ← read this
  onPool (Recycler.callHook change handle.element)

end FRecycleHandle

/-- The steps of the world. -/
inductive Label (E : Type) where
  | initial (outcome : Nat → Creation) (capacity : Nat)
  | acquire (result : HandleId) (target : String) (outcome : Nat → Creation)
  | null (this : HandleId)
  | copy (this rhs : HandleId)
  | move (this rhs : HandleId)
  | castTo (result this : HandleId) (target : String)
  | swap (this rhs : HandleId)
  | destruct (this : HandleId)
  | edit (this : HandleId) (change : E → E)
  | shrink
  | onShrinkTimer (cancelled : Bool)
  | configure (count delay : Int) (threshold rate : ℚ)
  | destroy

namespace World
variable {E : Type}

def acquire (fp : Rounding) (discipline : Discipline) (type : RecycleType E) (result : HandleId)
    (target : String) (outcome : Nat → Creation) : WorldM E Unit := do
  let pNode ← onRecycler (Recycler.acquireNode fp discipline type outcome)
  FRecycleHandle.ofNode type result target pNode

def run (fp : Rounding) (discipline : Discipline) (type : RecycleType E) :
    Label E → WorldM E Unit
  | .initial outcome capacity => onRecycler (Recycler.initial type outcome capacity)
  | .acquire result target outcome => acquire fp discipline type result target outcome
  | .null this => FRecycleHandle.null this
  | .copy this rhs => FRecycleHandle.copy this rhs
  | .move this rhs => FRecycleHandle.move this rhs
  | .castTo result this target => FRecycleHandle.castTo type result this target
  | .swap this rhs => FRecycleHandle.swap this rhs
  | .destruct this => FRecycleHandle.destruct discipline this
  | .edit this change => FRecycleHandle.edit this change
  | .shrink => onRecycler (Recycler.shrink fp discipline)
  | .onShrinkTimer cancelled => onRecycler (Recycler.onShrinkTimer fp discipline cancelled)
  | .configure count delay threshold rate => onRecycler (modify fun pool =>
      (((pool.setShrinkCount count).setShrinkDelay delay).setShrinkThreshold
        threshold).setShrinkRate rate)
  | .destroy => onRecycler Recycler.destroy

/-- The timer fires only where one is pending. -/
def enabled (w : World E) : Label E → Prop
  | .onShrinkTimer _ => 0 < w.pool.shrinkTimers
  | _ => True

/-- A step is a call that comes back, by return or by exception. -/
def step (fp : Rounding) (discipline : Discipline) (type : RecycleType E) (w : World E)
    (label : Label E) (t : World E) : Prop :=
  enabled w label ∧ Program.Ends (run fp discipline type label) w t

instance (w : World E) (label : Label E) : Decidable (enabled w label) := by
  cases label <;> unfold enabled <;> infer_instance

/-- The step as a function. -/
def next (fp : Rounding) (discipline : Discipline) (type : RecycleType E) (w : World E)
    (label : Label E) : Option (World E) :=
  if enabled w label then Program.after (run fp discipline type label) w else none

theorem next_step {fp : Rounding} {discipline : Discipline} {type : RecycleType E} {w t : World E}
    {label : Label E} (stepped : next fp discipline type w label = some t) :
    step fp discipline type w label t := by
  unfold next at stepped
  split at stepped
  next enabled => exact ⟨enabled, Program.ends_of_after stepped⟩
  next => cases stepped

end World

/-- The functions of a handle, as its users call them. -/
inductive HandleCall where
  | construct (this : HandleId)
  | copyConstruct (this rhs : HandleId)
  | moveConstruct (this rhs : HandleId)
  | copyAssign (this rhs : HandleId)
  | moveAssign (this rhs : HandleId)
  | castTo (result this : HandleId) (target : String)
  | swap (this rhs : HandleId)
  | reset (this : HandleId)
  | destruct (this : HandleId)
deriving DecidableEq, Repr

/-- The steps of a call; the assignments and `Reset` swap with a temporary,
which dies at the end of the statement. -/
def HandleCall.labels {E : Type} (temporary : HandleId) : HandleCall → List (Label E)
  | .construct this => [.null this]
  | .copyConstruct this rhs => [.copy this rhs]
  | .moveConstruct this rhs => [.move this rhs]
  | .copyAssign this rhs =>
    if this ≠ rhs then [.copy temporary rhs, .swap temporary this, .destruct temporary] else []
  | .moveAssign this rhs =>
    if this ≠ rhs then [.move temporary rhs, .swap temporary this, .destruct temporary] else []
  | .castTo result this target => [.castTo result this target]
  | .swap this rhs => [.swap this rhs]
  | .reset this => [.null temporary, .swap temporary this, .destruct temporary]
  | .destruct this => [.destruct this]

/-- A single step, or a call of a handle's function with the address that its
temporary gets. -/
inductive Operation (E : Type) where
  | step (label : Label E)
  | call (temporary : HandleId) (function : HandleCall)

def Operation.labels {E : Type} : Operation E → List (Label E)
  | .step label => [label]
  | .call temporary function => function.labels temporary

end Uranus
