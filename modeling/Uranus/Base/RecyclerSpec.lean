import Uranus.Base.Recycler

/-! Handing nodes back and destroying them: what `Recycle`, `Shrink` and the
getters do to a pool whose lock is free. -/
namespace Uranus.Recycler
open Foundation Program
variable {E A : Type} {fp : Rounding} {discipline : Discipline} {mode : LockMode}
  {pool : Recycler E}

section lock

theorem lock_free (free : pool.held = []) :
    lock discipline mode pool = .ok () { pool with held := [mode] } := by
  cases discipline <;> simp [lock, free]

theorem withLock_free {body : RecyclerM E A} (free : pool.held = []) :
    withLock discipline mode body pool =
      close unlock (body { pool with held := [mode] }) :=
  inScope_ok (lock_free free)

theorem withLock_granted {body : RecyclerM E A} :
    withLock .granted mode body pool =
      close unlock (body { pool with held := mode :: pool.held }) :=
  inScope_ok rfl

theorem withLock_taken {body : RecyclerM E A} {other : LockMode} {rest : List LockMode}
    (taken : pool.held = other :: rest) :
    withLock .nonRecursive mode body pool = .error .selfLock pool :=
  inScope_error (by simp [lock, taken])

end lock

section node
variable {id : NodeId} {node : ElementNode E}

theorem deref_alive (alive : pool.nodes.lookup id = some node) :
    deref (some id) pool = .ok (id, node) pool := by
  simp [deref, alive]

theorem deref_dead (dead : pool.nodes.lookup id = none) :
    deref (some id) pool = .error .undefined pool := by
  simp [deref, dead]

theorem onAcquire_idle (alive : pool.nodes.lookup id = some node)
    (idle : node.refCount = recycledReferenceCount) :
    onAcquire (some id) pool = .ok () (pool.setNode id { node with refCount := 1 }) := by
  rw [onAcquire, bind_ok (deref_alive alive)]
  dsimp only
  rw [throwIf_bind (not_not_intro idle)]
  rfl

theorem onAcquire_used (alive : pool.nodes.lookup id = some node)
    (used : node.refCount ≠ recycledReferenceCount) :
    onAcquire (some id) pool = .error (.exception "Acquire on non-recycled node") pool := by
  rw [onAcquire, bind_ok (deref_alive alive)]
  dsimp only
  rw [throwIf_throw_bind used]
  rfl

theorem onRecycle_alive (alive : pool.nodes.lookup id = some node) :
    onRecycle (some id) pool =
      .ok () (pool.setNode id { node with refCount := recycledReferenceCount }) := by
  rw [onRecycle, bind_ok (deref_alive alive)]
  rfl

theorem incRefCount_live (alive : pool.nodes.lookup id = some node) (live : 0 ≤ node.refCount) :
    incRefCount (some id) pool = .ok () ((pool.record (.increased id node.refCount)).setNode id
      { node with refCount := node.refCount + 1 }) := by
  rw [incRefCount, bind_ok (deref_alive alive)]
  simp only [modify_bind]
  rw [throwIf_bind live.not_gt]
  rfl

theorem decRefCount_alive (alive : pool.nodes.lookup id = some node) :
    decRefCount (some id) pool = .ok (node.refCount == 1)
      (pool.setNode id { node with refCount := node.refCount - 1 }) := by
  rw [decRefCount, bind_ok (deref_alive alive)]
  rfl

theorem callHook_alive (hook : E → E) (alive : pool.nodes.lookup id = some node) :
    callHook hook (some id) pool =
      .ok () (pool.setNode id { node with element := hook node.element }) := by
  rw [callHook, bind_ok (deref_alive alive)]
  rfl

/-- The pool after `DestroyElement` and `Destroy` of a node. -/
def without (pool : Recycler E) (id : NodeId) : Recycler E :=
  { pool.record (.destroyed id) with
    nodes := pool.nodes.erase id
    control := pool.control.decRefCount }

theorem destroyNode_alive (alive : pool.nodes.lookup id = some node) :
    destroyNode (some id) pool = .ok () (without pool id) := by
  rw [destroyNode, bind_ok (deref_alive alive)]
  rfl

theorem destroyNode_dead {pointer : Option NodeId}
    (dead : ∀ id, pointer = some id → pool.nodes.lookup id = none) :
    destroyNode pointer pool = .error .undefined pool := by
  cases pointer with
  | none => rfl
  | some id => rw [destroyNode, bind_error (deref_dead (dead id rfl))]

end node

section recycle
variable {id : NodeId} {node : ElementNode E}

/-- A node back in the queue, with the counters adjusted. -/
def queued (pool : Recycler E) (id : NodeId) (node : ElementNode E) : Recycler E :=
  { pool with
    queue := pool.queue ++ [some id]
    usage := pool.usage - 1
    nodes := pool.nodes.insert id { node with refCount := recycledReferenceCount } }

/-- The shrink timer is started unless it runs already or the pool is small. -/
def timed (pool : Recycler E) : Recycler E :=
  if pool.shrinking ∨ toSize (pool.queue.length + pool.usage) < toSize pool.shrinkCount then pool
  else { pool with shrinking := true, shrinkTimers := pool.shrinkTimers + 1 }

theorem enqueue_shrinking (pointer : Option NodeId) (shrinking : pool.shrinking = true) :
    enqueue discipline pointer pool = .ok () { pool with queue := pool.queue ++ [pointer] } := by
  simp [enqueue, shrinking]

theorem enqueue_granted (pointer : Option NodeId) :
    enqueue .granted pointer pool =
      .ok () (timed { pool with queue := pool.queue ++ [pointer] }) := by
  cases shrinking : pool.shrinking with
  | true => simp [enqueue_shrinking, timed, shrinking]
  | false =>
    simp only [enqueue, modify_bind, get_bind, shrinking, Bool.false_eq_true,
      if_false, timed, false_or]
    rw [bind_ok withLock_granted]
    by_cases small : toSize (pool.queue.length + 1 + pool.usage) < toSize pool.shrinkCount
    · simp [unlock, small]
    · simp [unlock, small]

theorem enqueue_locked (pointer : Option NodeId) (still : pool.shrinking = false)
    (taken : pool.held ≠ []) :
    enqueue .nonRecursive pointer pool =
      .error .selfLock { pool with queue := pool.queue ++ [pointer] } := by
  obtain ⟨other, rest, taken⟩ := List.exists_cons_of_ne_nil taken
  simp only [enqueue, modify_bind, get_bind, still, Bool.false_eq_true, if_false]
  exact bind_error (withLock_taken (by exact taken)) _

theorem recycle_uninitialised (idle : pool.usage < 0) (pointer : Option NodeId) :
    recycle discipline pointer pool =
      .error (.exception "Recycler Not Initialize") pool := by
  simp only [recycle, get_bind]
  rw [throwIf_throw_bind idle]
  rfl

theorem recycle_null (ready : 0 ≤ pool.usage) : recycle discipline none pool = .ok () pool := by
  simp only [recycle, get_bind]
  rw [throwIf_bind ready.not_gt]
  rfl

theorem recycle_dead (ready : 0 ≤ pool.usage) (dead : pool.nodes.lookup id = none) :
    recycle discipline (some id) pool = .error .undefined pool := by
  simp only [recycle, get_bind, if_false, reduceCtorEq]
  rw [throwIf_bind ready.not_gt]
  exact bind_error (bind_error (deref_dead dead) _) _

theorem recycle_alive (free : pool.held = []) (ready : 0 ≤ pool.usage)
    (alive : pool.nodes.lookup id = some node) :
    recycle discipline (some id) pool =
      close unlock (enqueue discipline (some id) { pool with
        usage := pool.usage - 1
        nodes := pool.nodes.insert id { node with refCount := recycledReferenceCount }
        held := [.exclusive] }) := by
  simp only [recycle, get_bind, if_false, reduceCtorEq]
  rw [throwIf_bind ready.not_gt]
  rw [bind_ok (onRecycle_alive alive)]
  exact withLock_free free

theorem timed_unlock (locked : pool.held = [.exclusive]) :
    unlock (timed pool) = timed { pool with held := [] } := by
  unfold timed
  split <;> simp [unlock, locked]

theorem timed_frame (pool : Recycler E) : timed pool = { pool with
    shrinking := (timed pool).shrinking, shrinkTimers := (timed pool).shrinkTimers } := by
  unfold timed
  split <;> rfl

theorem recycle_shrinking (free : pool.held = []) (ready : 0 ≤ pool.usage)
    (alive : pool.nodes.lookup id = some node) (shrinking : pool.shrinking = true) :
    recycle discipline (some id) pool = .ok () (queued pool id node) := by
  rw [recycle_alive free ready alive, enqueue_shrinking (some id) (by exact shrinking)]
  simp [unlock, queued, free]

theorem recycle_granted (free : pool.held = []) (ready : 0 ≤ pool.usage)
    (alive : pool.nodes.lookup id = some node) :
    recycle .granted (some id) pool = .ok () (timed (queued pool id node)) := by
  rw [recycle_alive free ready alive, enqueue_granted, close_ok, timed_unlock rfl]
  simp only [queued, free]

theorem recycle_nonRecursive (free : pool.held = []) (ready : 0 ≤ pool.usage)
    (alive : pool.nodes.lookup id = some node) (still : pool.shrinking = false) :
    recycle .nonRecursive (some id) pool =
      .error .selfLock { queued pool id node with held := [.exclusive] } := by
  rw [recycle_alive free ready alive, enqueue_locked (some id) (by exact still) (by simp)]
  rfl

/-- A live node is handed back, up to the timer, unless the call blocks on its own lock. -/
theorem recycle_cases (discipline : Discipline) (free : pool.held = []) (ready : 0 ≤ pool.usage)
    (alive : pool.nodes.lookup id = some node) :
    (∃ shrinking timers, recycle discipline (some id) pool = .ok () { queued pool id node with
      shrinking := shrinking, shrinkTimers := timers }) ∨
    ∃ later, recycle discipline (some id) pool = .error .selfLock later := by
  cases discipline with
  | granted =>
    have ran := recycle_granted free ready alive
    rw [timed_frame] at ran
    exact .inl ⟨_, _, ran⟩
  | nonRecursive =>
    cases shrinking : pool.shrinking with
    | true =>
      have ran : recycle .nonRecursive (some id) pool = .ok () (queued pool id node) :=
        recycle_shrinking free ready alive shrinking
      exact .inl ⟨pool.shrinking, pool.shrinkTimers, ran⟩
    | false => exact .inr ⟨_, recycle_nonRecursive free ready alive shrinking⟩

end recycle

section pop
variable {ids : List NodeId} {later : Recycler E} {id : NodeId}

/-- The nodes `ids` were popped from the queue and destroyed, in this order. -/
inductive Popped : Recycler E → List NodeId → Recycler E → Prop
  | done (pool : Recycler E) : Popped pool [] pool
  | next {pool later : Recycler E} {id : NodeId} {ids : List NodeId} {rest : List (Option NodeId)}
      {node : ElementNode E} (queue : pool.queue = some id :: rest)
      (alive : pool.nodes.lookup id = some node)
      (popped : Popped (without { pool with queue := rest } id) ids later) :
      Popped pool (id :: ids) later

/-- The queue entries are distinct nodes that exist. -/
def Destroyable (pool : Recycler E) (entries : List (Option NodeId)) : Prop :=
  ∃ ids : List NodeId, entries = ids.map some ∧ ids.Nodup ∧
    ∀ id ∈ ids, ∃ node, pool.nodes.lookup id = some node

namespace Popped

theorem frame (popped : Popped pool ids later) :
    later = { pool with
      queue := later.queue, control := later.control, nodes := later.nodes
      log := pool.log ++ ids.map .destroyed } := by
  induction popped with
  | done pool => simp
  | next queue alive popped ih =>
    rw [ih]
    simp [without, record]

theorem queue_eq (popped : Popped pool ids later) : pool.queue = ids.map some ++ later.queue := by
  induction popped with
  | done pool => rfl
  | next queue alive popped ih =>
    rw [queue]
    exact congrArg _ ih

theorem lookup_other (popped : Popped pool ids later) (other : id ∉ ids) :
    later.nodes.lookup id = pool.nodes.lookup id := by
  induction popped with
  | done pool => rfl
  | next queue alive popped ih =>
    obtain ⟨differs, other⟩ := not_or.mp (List.mem_cons.not.mp other)
    exact (ih other).trans (AList.lookup_erase_ne differs)

theorem destroyable (popped : Popped pool ids later) : Destroyable pool (ids.map some) := by
  refine ⟨ids, rfl, ?_⟩
  induction popped with
  | done pool => exact ⟨List.nodup_nil, by simp⟩
  | @next pool later first ids rest node queue alive popped ih =>
    obtain ⟨nodup, exist⟩ := ih
    have absent : first ∉ ids := by
      intro again
      obtain ⟨node, found⟩ := exist first again
      have gone : (pool.nodes.erase first).lookup first = none := AList.lookup_erase _ _
      exact absurd (gone.symm.trans found) (by simp)
    apply And.intro (List.nodup_cons.mpr ⟨absent, nodup⟩)
    intro id member
    rcases List.mem_cons.mp member with rfl | member
    · exact ⟨node, alive⟩
    · obtain ⟨node, found⟩ := exist id member
      have differs : id ≠ first := fun same => absent (same ▸ member)
      exact ⟨node, (AList.lookup_erase_ne differs).symm.trans found⟩

theorem size (popped : Popped pool ids later) :
    later.nodes.size + ids.length = pool.nodes.size := by
  induction popped with
  | done pool => rfl
  | @next pool later id ids rest node queue alive popped ih =>
    have erased := Table.size_erase alive
    simp only [without, record] at ih
    rw [List.length_cons]
    omega

theorem adjust (popped : Popped pool ids later) (held : List LockMode) (timers : Nat) :
    Popped { pool with held := held, shrinkTimers := timers } ids
      { later with held := held, shrinkTimers := timers } := by
  induction popped with
  | done pool => exact .done _
  | next queue alive popped ih => exact .next (by exact queue) (by exact alive) ih

end Popped

theorem Destroyable.tail {rest entries : List (Option NodeId)}
    (destroyable : Destroyable pool (some id :: entries)) :
    Destroyable (without { pool with queue := rest } id) entries := by
  obtain ⟨ids, split, nodup, exist⟩ := destroyable
  obtain ⟨first, ids, rfl, same, rfl⟩ := List.map_eq_cons_iff.mp split.symm
  obtain ⟨absent, nodup⟩ := List.nodup_cons.mp nodup
  refine ⟨ids, rfl, nodup, ?_⟩
  intro other member
  obtain ⟨node, found⟩ := exist other (List.mem_cons_of_mem _ member)
  have differs : other ≠ id := by
    rintro rfl
    exact absent (Option.some.inj same ▸ member)
  exact ⟨node, (AList.lookup_erase_ne differs).trans found⟩

/-- The popping loop returns exactly when what it meets are distinct nodes that exist. -/
theorem popLoop_cases (num : Nat) (pool : Recycler E) :
    (∃ ids later, popLoop num pool = .ok () later ∧ Popped pool ids later ∧
      pool.queue.take num = ids.map some) ∨
    (∃ later, popLoop num pool = .error .undefined later ∧
      ¬ Destroyable pool (pool.queue.take num)) := by
  induction num generalizing pool with
  | zero => exact .inl ⟨[], pool, rfl, .done pool, rfl⟩
  | succ num ih =>
    rcases queue : pool.queue with _ | ⟨front, rest⟩
    · exact .inl ⟨[], pool, by simp [popLoop, queue], .done pool, rfl⟩
    simp only [popLoop, get_bind, queue, modify_bind]
    by_cases dead : ∀ id, front = some id → pool.nodes.lookup id = none
    · have broken : ¬ Destroyable pool (front :: rest.take num) := by
        rintro ⟨ids, split, -, exist⟩
        obtain ⟨id, ids, rfl, rfl, -⟩ := List.map_eq_cons_iff.mp split.symm
        obtain ⟨node, found⟩ := exist id List.mem_cons_self
        exact absurd ((dead id rfl).symm.trans found) (by simp)
      exact .inr ⟨_, bind_error (destroyNode_dead (by exact dead)) _, broken⟩
    push Not at dead
    obtain ⟨id, rfl, found⟩ := dead
    obtain ⟨node, alive⟩ := Option.ne_none_iff_exists'.mp found
    rw [bind_ok (destroyNode_alive (by exact alive))]
    rcases ih (without { pool with queue := rest } id) with
      ⟨ids, later, ran, popped, split⟩ | ⟨later, ran, broken⟩
    · exact .inl ⟨id :: ids, later, ran, .next queue alive popped, congrArg _ split⟩
    · exact .inr ⟨later, ran, fun whole => broken (whole.tail)⟩

end pop

section shrink
variable {num : Nat}

/-- Every way in which `Shrink` ends on a pool whose lock is free. -/
inductive Shrinking (fp : Rounding) (pool : Recycler E) :
    EStateM.Result Fault (Recycler E) Unit → Prop
  | uninitialised (idle : pool.usage < 0) :
      Shrinking fp pool (.error (.exception "Recycler Not Initialize") pool)
  | popped {ids : List NodeId} {later : Recycler E} (ready : 0 ≤ pool.usage)
      (popped : Popped pool ids later)
      (split : pool.queue.take (shrinkNum fp pool) = ids.map some) :
      Shrinking fp pool (.ok () later)
  | broken {later : Recycler E} (ready : 0 ≤ pool.usage)
      (broken : ¬ Destroyable pool (pool.queue.take (shrinkNum fp pool))) :
      Shrinking fp pool (.error .undefined later)

theorem shrink_cases (fp : Rounding) (discipline : Discipline) (free : pool.held = []) :
    Shrinking fp pool (shrink fp discipline pool) := by
  simp only [shrink, get_bind]
  by_cases idle : pool.usage < 0
  · rw [throwIf_throw_bind idle]
    exact .uninitialised idle
  have ready : 0 ≤ pool.usage := by omega
  rw [throwIf_bind idle]
  have same : unlock { pool with held := [.shared] } = pool := by simp [unlock, ← free]
  have counted : withLock discipline .shared (do return shrinkNum fp (← get)) pool =
      .ok (shrinkNum fp pool) (unlock { pool with held := [.shared] }) :=
    withLock_free free
  rw [bind_ok counted, same]
  by_cases none : shrinkNum fp pool ≤ 0
  · rw [if_pos none]
    refine .popped ready (.done pool) ?_
    simp [Nat.le_zero.mp none]
  rw [if_neg none, withLock_free free]
  rcases popLoop_cases (shrinkNum fp pool) { pool with held := [.exclusive] } with
    ⟨ids, later, ran, popped, split⟩ | ⟨later, ran, broken⟩
  · rw [ran, close_ok]
    have held : later.held = [.exclusive] := by rw [popped.frame]
    have timers : later.shrinkTimers = pool.shrinkTimers := by rw [popped.frame]
    refine .popped ready ?_ split
    simpa [unlock, held, timers, ← free] using popped.adjust [] later.shrinkTimers
  · rw [ran, close_undefined]
    exact .broken ready broken

theorem getIdle_uninitialised (idle : pool.usage < 0) :
    getIdle discipline pool = .ok 0 pool := by
  simp [getIdle, idle]

theorem getIdle_free (free : pool.held = []) (ready : 0 ≤ pool.usage) :
    getIdle discipline pool = .ok pool.queue.length pool := by
  simp only [getIdle, get_bind, ready.not_gt, if_false]
  rw [withLock_free free]
  simp [unlock, ← free]

theorem getCapacity_uninitialised (idle : pool.usage < 0) :
    getCapacity discipline pool = .ok 0 pool := by
  simp [getCapacity, idle]

theorem getCapacity_free (free : pool.held = []) (ready : 0 ≤ pool.usage) :
    getCapacity discipline pool = .ok (toSize (pool.queue.length + pool.usage)) pool := by
  simp only [getCapacity, get_bind, ready.not_gt, if_false]
  rw [withLock_free free]
  simp [unlock, ← free]

end shrink

end Uranus.Recycler
