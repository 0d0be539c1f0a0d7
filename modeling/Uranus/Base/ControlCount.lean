import Uranus.Base.PoolConsistency

/-! What the control block counts. Every creation and every destruction of a node
passes it, and the recycler itself counts once; the last of them all deletes the
block. While the recycler exists this is kept by one function after the other,
and after its destruction by what the handles still do. -/
namespace Uranus
open Foundation Program
variable {E A : Type} {fp : Rounding} {discipline : Discipline} {type : RecycleType E}

namespace Recycler
variable {pool later : Recycler E} {id : NodeId} {node : ElementNode E}

/-- The control block counts the nodes, it is deleted when nothing is left to
count, and every node that is gone was destroyed once. -/
structure Tied (pool : Recycler E) : Prop where
  fresh : Fresh pool
  count : pool.control.refCount = pool.nodes.size + pool.control.recycler.toNat
  deleted : pool.control.deleted = true ↔ pool.control.recycler = false ∧ pool.nodes.size = 0
  once : ∀ id, pool.log.count (.destroyed id) =
    if id < pool.nextNode ∧ pool.nodes.lookup id = none then 1 else 0
  drained : pool.control.recycler = false → pool.queue = []

theorem Tied.new : Tied (Recycler.new : Recycler E) where
  fresh _ _ := rfl
  count := rfl
  deleted := by simp [Recycler.new]
  once id := by simp [Recycler.new]
  drained gone := by simp [Recycler.new] at gone

/-- What neither creates nor destroys nodes. -/
theorem Tied.same (tied : Tied pool) (control : later.control = pool.control)
    (nodes : later.nodes = pool.nodes) (nextNode : later.nextNode = pool.nextNode)
    (log : ∀ id, later.log.count (.destroyed id) = pool.log.count (.destroyed id))
    (queue : pool.control.recycler = false → later.queue = pool.queue) : Tied later where
  fresh := by
    rw [Fresh, nodes, nextNode]
    exact tied.fresh
  count := by rw [control, nodes, tied.count]
  deleted := by rw [control, nodes, tied.deleted]
  once id := by rw [log, nodes, nextNode, tied.once]
  drained gone := by
    rw [control] at gone
    exact (queue gone).trans (tied.drained gone)

theorem Tied.setNode (tied : Tied pool) (alive : pool.nodes.lookup id = some node)
    (value : ElementNode E) : Tied (pool.setNode id value) where
  fresh := tied.fresh.setNode alive value
  count := by
    rw [Recycler.setNode, Table.size_insert_present alive]
    exact tied.count
  deleted := by
    rw [Recycler.setNode, Table.size_insert_present alive]
    exact tied.deleted
  once other := by
    rw [Recycler.setNode, Table.lookup_insert_ite]
    by_cases same : other = id
    · subst same
      simpa [alive] using tied.once other
    · simpa [same] using tied.once other
  drained := tied.drained

theorem Tied.without (tied : Tied pool) (alive : pool.nodes.lookup id = some node) :
    Tied (pool.without id) where
  fresh := tied.fresh.without id
  count := by
    have size := Table.size_erase alive
    have count := tied.count
    simp only [Recycler.without, record, FControlBlock.decRefCount]
    omega
  deleted := by
    have size := Table.size_erase alive
    have count := tied.count
    have deleted := tied.deleted
    simp only [Recycler.without, record, FControlBlock.decRefCount]
    cases living : pool.control.recycler with
    | true => simp [living] at deleted ⊢; exact deleted
    | false =>
      simp only [living, Bool.toNat_false] at count
      simp only [living, true_and] at deleted
      simp [deleted]
      omega
  once other := by
    have before := tied.once other
    simp only [Recycler.without, record, List.count_append, Table.lookup_erase_ite]
    by_cases same : other = id
    · subst same
      have old := tied.fresh.below alive
      rw [if_neg (by simp [alive])] at before
      simp [before, old]
    · simp [same, before, Ne.symm same]
  drained := tied.drained

/-- A node is created by a recycler that exists. -/
theorem Tied.allocated (tied : Tied pool) (living : pool.control.recycler = true) (element : E) :
    Tied (pool.allocated element) where
  fresh := tied.fresh.allocated element
  count := by
    have size : (pool.allocated element).nodes.size = pool.nodes.size + 1 :=
      Table.size_insert_fresh (tied.fresh _ le_rfl)
    have count := tied.count
    rw [size]
    simp only [Recycler.allocated, FControlBlock.incRefCount]
    omega
  deleted := by
    have deleted := tied.deleted
    simp only [Recycler.allocated, FControlBlock.incRefCount, living, Bool.true_eq_false,
      false_and, iff_false] at deleted ⊢
    exact deleted
  once other := by
    have before := tied.once other
    simp only [Recycler.allocated, Table.lookup_insert_ite]
    by_cases same : other = pool.nextNode
    · subst same
      simpa using before
    · have below : other < pool.nextNode + 1 ↔ other < pool.nextNode :=
        Nat.lt_succ_iff_lt_or_eq.trans (or_iff_left same)
      simp [same, before, below]
  drained gone := by
    rw [Recycler.allocated, FControlBlock.incRefCount] at gone
    cases living.symm.trans gone

/-- What a step of a recycler that exists leaves to the control block. -/
structure Follows (pool later : Recycler E) : Prop where
  recycler : later.control.recycler = pool.control.recycler
  tied : pool.control.recycler = true → Tied pool → Tied later

instance : IsPreorder (Recycler E) Follows where
  refl _ := ⟨rfl, fun _ tied => tied⟩
  trans _ _ _ first second := ⟨second.recycler.trans first.recycler,
    fun living tied => second.tied (first.recycler.trans living) (first.tied living tied)⟩

theorem follows_same (control : later.control = pool.control) (nodes : later.nodes = pool.nodes)
    (nextNode : later.nextNode = pool.nextNode)
    (log : ∀ id, later.log.count (.destroyed id) = pool.log.count (.destroyed id)) :
    Follows pool later := by
  constructor
  · rw [control]
  · intro living tied
    apply tied.same control nodes nextNode log
    intro gone
    cases living.symm.trans gone

theorem follows_setNode (alive : pool.nodes.lookup id = some node) (value : ElementNode E) :
    Follows pool (pool.setNode id value) :=
  ⟨rfl, fun _ tied => tied.setNode alive value⟩

theorem follows_without (alive : pool.nodes.lookup id = some node) :
    Follows pool (pool.without id) :=
  ⟨rfl, fun _ tied => tied.without alive⟩

theorem follows_allocated (element : E) : Follows pool (pool.allocated element) :=
  ⟨rfl, fun living tied => tied.allocated living element⟩

theorem Popped.gone {ids : List NodeId} (popped : Popped pool ids later) (member : id ∈ ids) :
    later.nodes.lookup id = none := by
  induction popped with
  | done pool => cases member
  | @next pool later first ids rest node queue alive popped ih =>
    by_cases again : id ∈ ids
    · exact ih again
    · obtain rfl := (List.mem_cons.mp member).resolve_right again
      rw [popped.lookup_other again]
      exact AList.lookup_erase _ _

section follows
variable {pointer : Option NodeId} {outcome : Nat → Creation}

theorem lock_follows (discipline : Discipline) (mode : LockMode) :
    Within Follows (lock discipline mode : RecyclerM E Unit) := by
  intro pool later ends
  have locked (ran : lock discipline mode pool = .ok () { pool with held := mode :: pool.held }) :
      Follows pool later := by
    cases ends.of_ok ran
    exact follows_same rfl rfl rfl fun _ => rfl
  cases discipline with
  | granted => exact locked rfl
  | nonRecursive =>
    cases held : pool.held with
    | nil => exact locked (by rw [lock_free held, held])
    | cons other rest =>
      have ran : lock .nonRecursive mode pool = .error .selfLock pool := by simp only [lock, held]
      obtain ⟨what, wrong⟩ := ends.of_fault ran
      cases wrong

/-- The lock is nothing to the control block. -/
theorem withLock_follows {body : RecyclerM E A} (inner : Within Follows body)
    (discipline : Discipline) (mode : LockMode) :
    Within Follows (withLock discipline mode body) :=
  .inScope (lock_follows discipline mode) (fun _ => follows_same rfl rfl rfl fun _ => rfl) inner

/-- A pointer to no node goes nowhere. -/
theorem deref_follows {next : NodeId × ElementNode E → RecyclerM E A}
    (rest : ∀ id node pool later, pool.nodes.lookup id = some node →
      Ends (next (id, node)) pool later → Follows pool later) (pointer : Option NodeId) :
    Within Follows (deref pointer >>= next) := by
  intro pool later ends
  cases pointer with
  | none =>
    obtain ⟨what, wrong⟩ := ends.of_fault (bind_error rfl next)
    cases wrong
  | some id =>
    cases alive : pool.nodes.lookup id with
    | none =>
      obtain ⟨what, wrong⟩ := ends.of_fault (bind_error (deref_dead alive) next)
      cases wrong
    | some node =>
      exact rest id node pool later alive (ends.congr (bind_ok (deref_alive alive) next))

theorem onAcquire_follows (pointer : Option NodeId) :
    Within Follows (onAcquire pointer : RecyclerM E Unit) := by
  apply deref_follows
  intro id node pool later alive ends
  dsimp only at ends
  by_cases used : node.refCount ≠ recycledReferenceCount
  · rw [throwIf_throw_bind used] at ends
    cases ends.of_exception rfl
    exact refl_of Follows pool
  · rw [throwIf_bind used] at ends
    cases ends.of_ok rfl
    exact follows_setNode alive _

theorem onRecycle_follows (pointer : Option NodeId) :
    Within Follows (onRecycle pointer : RecyclerM E Unit) := by
  apply deref_follows
  intro id node pool later alive ends
  cases ends.of_ok rfl
  exact follows_setNode alive _

theorem incRefCount_follows (pointer : Option NodeId) :
    Within Follows (incRefCount pointer : RecyclerM E Unit) := by
  apply deref_follows
  intro id node pool later alive ends
  dsimp only at ends
  have recorded : Follows pool (pool.record (.increased id node.refCount)) :=
    follows_same rfl rfl rfl fun _ => by simp [record]
  simp only [Ends, modify_bind] at ends
  by_cases idle : node.refCount < 0
  · rw [throwIf_throw_bind idle] at ends
    cases Ends.of_exception ends rfl
    exact recorded
  · rw [throwIf_bind idle] at ends
    cases Ends.of_ok ends rfl
    exact trans_of Follows recorded (follows_setNode (by exact alive) _)

theorem decRefCount_follows (pointer : Option NodeId) :
    Within Follows (decRefCount pointer : RecyclerM E Bool) := by
  apply deref_follows
  intro id node pool later alive ends
  cases ends.of_ok rfl
  exact follows_setNode alive _

theorem callHook_follows (hook : E → E) (pointer : Option NodeId) :
    Within Follows (callHook hook pointer) := by
  apply deref_follows
  intro id node pool later alive ends
  cases ends.of_ok rfl
  exact follows_setNode alive _

theorem destroyNode_follows (pointer : Option NodeId) :
    Within Follows (destroyNode pointer : RecyclerM E Unit) := by
  apply deref_follows
  intro id node pool later alive ends
  cases ends.of_ok rfl
  exact follows_without alive

theorem createNode_follows (outcome : Creation) : Within Follows (createNode type outcome) := by
  intro pool later ends
  cases outcome with
  | createThrows =>
    cases ends.of_exception rfl
    exact refl_of Follows pool
  | made | onCreateThrows =>
    cases ends.of_ok rfl
    exact follows_allocated type.construct

theorem createElement_follows (outcome : Creation) :
    Within Follows (createElement type outcome) := by
  refine Within.bind (createNode_follows outcome) fun elem => ?_
  refine Within.bind (Within.throwIf _ _) fun _ => ?_
  exact Within.bind (callHook_follows _ _) fun _ => Within.pure elem

theorem initialLoop_follows (outcome : Nat → Creation) (count left : Nat) :
    Within Follows (initialLoop type outcome count left) := by
  induction left generalizing count with
  | zero => exact Within.pure ()
  | succ left ih =>
    refine Within.bind (createElement_follows _) fun elem => ?_
    refine Within.bind (Within.modify fun _ => follows_same rfl rfl rfl fun _ => rfl) fun _ => ?_
    exact ih (count + 1)

theorem initial_follows (outcome : Nat → Creation) (capacity : Nat) :
    Within Follows (initial type outcome capacity) := by
  apply Within.bind (R := Follows) Within.get
  intro pool
  refine Within.bind (Within.throwIf _ _) fun _ => ?_
  refine Within.bind (initialLoop_follows outcome 0 capacity) fun _ => ?_
  exact Within.modify fun _ => follows_same rfl rfl rfl fun _ => rfl

theorem expandLoop_follows (outcome : Nat → Creation) (count num : Nat)
    (nodes : List (Option NodeId)) (result : Option NodeId) :
    Within Follows (expandLoop type outcome count num nodes result) := by
  induction num generalizing count nodes result with
  | zero => exact Within.pure _
  | succ num ih =>
    refine Within.bind (createElement_follows _) fun elem => ?_
    split
    · exact ih _ _ _
    · exact ih _ _ _

theorem acquireFront_follows : Within Follows (acquireFront type) := by
  apply Within.bind (R := Follows) Within.get
  intro pool
  split
  · exact Within.pure none
  refine Within.bind (Within.modify fun _ => follows_same rfl rfl rfl fun _ => rfl) fun _ => ?_
  refine Within.bind (onAcquire_follows _) fun _ => ?_
  exact Within.bind (callHook_follows _ _) fun _ => Within.pure _

theorem emplaceAll_follows (nodes : List (Option NodeId)) :
    Within Follows (emplaceAll discipline nodes : RecyclerM E Unit) := by
  unfold emplaceAll
  split
  · apply withLock_follows
    exact Within.modify fun _ => follows_same rfl rfl rfl fun _ => rfl
  · exact Within.pure ()

theorem expand_follows (outcome : Nat → Creation) :
    Within Follows (expand fp discipline type outcome) := by
  apply Within.bind (R := Follows) Within.get
  intro pool
  refine Within.bind (Within.throwIf _ _) fun _ => ?_
  apply Within.bind (expandLoop_follows _ _ _ _ _)
  rintro ⟨nodes, result⟩
  refine Within.bind (Within.throwIf _ _) fun _ => ?_
  refine Within.bind (emplaceAll_follows nodes) fun _ => ?_
  refine Within.bind (Within.modify fun _ => follows_same rfl rfl rfl fun _ => rfl) fun _ => ?_
  refine Within.bind (onAcquire_follows result) fun _ => ?_
  exact Within.bind (callHook_follows _ _) fun _ => Within.pure result

theorem acquireNode_follows (outcome : Nat → Creation) :
    Within Follows (acquireNode fp discipline type outcome) := by
  apply Within.bind (R := Follows) Within.get
  intro pool
  refine Within.bind (Within.throwIf _ _) fun _ => ?_
  refine Within.bind (withLock_follows acquireFront_follows _ _) fun front => ?_
  cases front with
  | none => exact expand_follows outcome
  | some front => exact Within.pure front

theorem popLoop_follows (num : Nat) : Within Follows (popLoop num : RecyclerM E Unit) := by
  induction num with
  | zero => exact Within.pure ()
  | succ num ih =>
    apply Within.bind (R := Follows) Within.get
    intro pool
    split
    · exact Within.pure ()
    refine Within.bind (Within.modify fun _ => follows_same rfl rfl rfl fun _ => rfl) fun _ => ?_
    exact Within.bind (destroyNode_follows _) fun _ => ih

theorem shrink_follows : Within Follows (shrink fp discipline : RecyclerM E Unit) := by
  apply Within.bind (R := Follows) Within.get
  intro pool
  refine Within.bind (Within.throwIf _ _) fun _ => ?_
  refine Within.bind (withLock_follows (Within.view _) _ _) fun num => ?_
  split
  · exact Within.pure ()
  · exact withLock_follows (popLoop_follows num) _ _

theorem onShrinkTimer_follows (cancelled : Bool) :
    Within Follows (onShrinkTimer fp discipline cancelled : RecyclerM E Unit) := by
  refine Within.bind (Within.modify fun _ => follows_same rfl rfl rfl fun _ => rfl) fun _ => ?_
  split
  · exact Within.pure ()
  · apply Within.bind shrink_follows
    intro _
    exact Within.modify fun _ => follows_same rfl rfl rfl fun _ => rfl

theorem recycle_follows (pointer : Option NodeId) :
    Within Follows (recycle discipline pointer : RecyclerM E Unit) := by
  apply Within.bind (R := Follows) Within.get
  intro pool
  refine Within.bind (Within.throwIf _ _) fun _ => ?_
  split
  · exact Within.pure ()
  refine Within.bind (onRecycle_follows pointer) fun _ => ?_
  refine Within.bind (Within.modify fun _ => follows_same rfl rfl rfl fun _ => rfl) fun _ => ?_
  apply withLock_follows
  refine Within.bind (Within.modify fun _ => follows_same rfl rfl rfl fun _ => rfl) fun _ => ?_
  apply Within.bind (R := Follows) Within.get
  intro pool
  split
  · exact Within.pure ()
  refine Within.bind (withLock_follows (Within.view _) _ _) fun total => ?_
  apply Within.bind (R := Follows) Within.get
  intro pool
  split
  · exact Within.pure ()
  · exact Within.modify fun _ => follows_same rfl rfl rfl fun _ => rfl

/-- The destructor empties the queue, and then the recycler no longer counts. -/
theorem destroy_tied (living : pool.control.recycler = true) (tied : Tied pool)
    (ends : Ends destroy pool later) : Tied later ∧ later.control.recycler = false := by
  simp only [destroy, Ends, get_bind] at ends
  rcases popLoop_cases pool.queue.length pool with ⟨ids, mid, ran, popped, split⟩ | ⟨mid, ran, -⟩
  · have follows : Follows pool mid := popLoop_follows _ pool mid (.inl ⟨(), ran⟩)
    rw [bind_ok ran] at ends
    cases Ends.of_ok ends (modify_apply _ _)
    have before := follows.tied living tied
    have exists' := follows.recycler.trans living
    have empty : mid.queue = [] := by
      rw [List.take_length, popped.queue_eq] at split
      exact List.append_right_eq_self.mp split
    refine ⟨⟨before.fresh, ?_, ?_, before.once, fun _ => empty⟩, rfl⟩
    · have count := before.count
      simp only [exists', FControlBlock.release, FControlBlock.decRefCount, Bool.toNat_true,
        Bool.toNat_false] at count ⊢
      omega
    · have count := before.count
      have deleted := before.deleted
      simp only [exists', Bool.true_eq_false, false_and, iff_false, Bool.not_eq_true] at deleted
      simp only [exists', Bool.toNat_true] at count
      simp [FControlBlock.release, FControlBlock.decRefCount, deleted, count]
  · obtain ⟨what, wrong⟩ := Ends.of_fault ends (bind_error ran _)
    cases wrong

end follows

end Recycler

namespace World
variable {w t : World E} {label : Label E}

/-- The control block of a world follows its nodes. -/
def Tracks (w t : World E) : Prop := Recycler.Follows w.pool t.pool

instance : IsPreorder (World E) Tracks where
  refl w := refl_of Recycler.Follows w.pool
  trans _ _ _ first second := trans_of Recycler.Follows first second

theorem onPool_tracks {program : RecyclerM E A} (follows : Within Recycler.Follows program) :
    Within Tracks (onPool program) := by
  intro w t ends
  cases ran : program w.pool with
  | ok value pool =>
    cases ends.of_ok (onPool_ok ran)
    exact follows w.pool pool (.inl ⟨value, ran⟩)
  | error fault pool =>
    obtain ⟨what, rfl⟩ := ends.of_fault (onPool_error ran)
    cases ends.of_exception (onPool_error ran)
    exact follows w.pool pool (.inr ⟨what, ran⟩)

theorem onRecycler_tracks {program : RecyclerM E A} (follows : Within Recycler.Follows program) :
    Within Tracks (onRecycler program) := by
  intro w t ends
  exact follows w.pool t.pool (onRecycler_ends ends).2.1

theorem record_tracks {event : NodeEvent} (other : ∀ id, event ≠ .destroyed id) :
    Within Tracks (onPool (modify (Recycler.record · event)) : WorldM E PUnit) := by
  apply onPool_tracks
  apply Within.modify
  intro pool
  refine Recycler.follows_same rfl rfl rfl fun id => ?_
  simp [Recycler.record, other id]

theorem read_same (this : HandleId) : Within Eq (FRecycleHandle.read this : WorldM E _) := by
  intro w t ends
  cases live : w.handles.lookup this with
  | none =>
    obtain ⟨what, wrong⟩ := ends.of_fault (FRecycleHandle.read_dead live)
    cases wrong
  | some handle => exact (ends.of_ok (FRecycleHandle.read_live live)).symm

/-- Handles are nothing to the control block. -/
theorem handles_tracks {update : World E → Table HandleId FRecycleHandle} :
    Within Tracks (modify fun w => { w with handles := update w } : WorldM E PUnit) :=
  Within.modify fun w => refl_of Recycler.Follows w.pool

theorem construct_tracks (this : HandleId) (handle : FRecycleHandle) :
    Within Tracks (FRecycleHandle.construct this handle : WorldM E Unit) := by
  intro w t ends
  obtain ⟨-, rfl⟩ := construct_ends handle ends
  exact refl_of Recycler.Follows w.pool

theorem incRefCount_tracks (handle : FRecycleHandle) :
    Within Tracks (FRecycleHandle.incRefCount handle : WorldM E Unit) := by
  unfold FRecycleHandle.incRefCount
  split
  · exact onPool_tracks (Recycler.incRefCount_follows _)
  · exact Within.pure ()

theorem counted_tracks (this : HandleId) (handle : FRecycleHandle) :
    Within Tracks (do
      FRecycleHandle.incRefCount handle
      FRecycleHandle.construct this handle : WorldM E Unit) :=
  Within.bind (incRefCount_tracks handle) fun _ => construct_tracks this handle

theorem ofNode_tracks (this : HandleId) (target : String) (pNode : Option NodeId) :
    Within Tracks (FRecycleHandle.ofNode type this target pNode) := by
  have found : Within Recycler.Follows (Recycler.deref pNode : RecyclerM E _) := by
    rw [← bind_pure (Recycler.deref pNode)]
    apply Recycler.deref_follows
    intro id node pool later _ ends
    cases ends.of_ok rfl
    exact refl_of Recycler.Follows pool
  refine Within.bind (onPool_tracks found) fun _ => ?_
  refine Within.bind (Within.throwIf _ _) fun _ => ?_
  exact Within.bind (record_tracks (by simp)) fun _ => construct_tracks _ _

theorem release_tracks (this : HandleId) :
    Within Tracks (FRecycleHandle.release discipline this : WorldM E Unit) := by
  apply Within.noexcept
  refine Within.bind (Within.of_same (read_same this)) fun handle => ?_
  have released :
      Within Tracks (FRecycleHandle.releaseNode discipline handle.node : WorldM E _) := by
    cases handle.node with
    | none => exact Within.pure ()
    | some id =>
      refine Within.bind (onPool_tracks (Recycler.decRefCount_follows _)) fun last => ?_
      split
      · apply Within.bind (R := Tracks) Within.get
        intro w
        split
        · exact Within.bind (onPool_tracks (Recycler.recycle_follows _)) fun _ =>
            record_tracks (by simp)
        · exact Within.bind (onPool_tracks (Recycler.destroyNode_follows _)) fun _ =>
            record_tracks (by simp)
      · exact Within.pure ()
  exact Within.bind released fun _ => handles_tracks

theorem run_tracks (other : label ≠ .destroy) : Within Tracks (run fp discipline type label) := by
  cases label with
  | initial outcome capacity => exact onRecycler_tracks (Recycler.initial_follows outcome capacity)
  | acquire result target outcome =>
    exact Within.bind (onRecycler_tracks (Recycler.acquireNode_follows outcome)) fun pNode =>
      ofNode_tracks result target pNode
  | null this => exact construct_tracks this _
  | copy this rhs =>
    exact Within.bind (Within.of_same (read_same rhs)) fun handle => counted_tracks this handle
  | move this rhs =>
    refine Within.bind (Within.of_same (read_same rhs)) fun handle => ?_
    exact Within.bind (construct_tracks this handle) fun _ => handles_tracks
  | castTo result this target =>
    refine Within.bind (Within.of_same (read_same this)) fun handle => ?_
    split
    · exact counted_tracks result handle
    · exact construct_tracks result _
  | swap this rhs =>
    refine Within.bind (Within.of_same (read_same this)) fun left => ?_
    refine Within.bind (Within.of_same (read_same rhs)) fun right => ?_
    exact Within.bind handles_tracks fun _ => handles_tracks
  | destruct this => exact Within.bind (release_tracks this) fun _ => handles_tracks
  | edit this change =>
    refine Within.bind (Within.of_same (read_same this)) fun handle => ?_
    exact onPool_tracks (Recycler.callHook_follows change handle.element)
  | shrink => exact onRecycler_tracks Recycler.shrink_follows
  | onShrinkTimer cancelled => exact onRecycler_tracks (Recycler.onShrinkTimer_follows cancelled)
  | configure count delay threshold rate =>
    exact onRecycler_tracks (Within.modify fun _ => Recycler.follows_same rfl rfl rfl fun _ => rfl)
  | destroy => exact absurd rfl other

/-- What a step leaves to a world whose recycler is gone: nothing is recycled, and
a control block that is deleted is not touched. -/
structure Outlives (w t : World E) : Prop where
  tied : Recycler.Tied t.pool
  recycler : t.pool.control.recycler = false
  queue : t.pool.queue = w.pool.queue
  usage : t.pool.usage = w.pool.usage
  control : w.pool.control.deleted = true → t.pool.control = w.pool.control

theorem Effect.outlives (effect : Effect fp type w label t) (tied : Recycler.Tied w.pool)
    (gone : w.pool.control.recycler = false) : Outlives w t := by
  cases effect with
  | quiet settled refs pool =>
    constructor <;> rw [pool]
    · exact tied.same rfl rfl rfl (fun _ => rfl) fun _ => rfl
    · exact gone
    · exact fun _ => rfl
  | shared settled used alive refs pool =>
    constructor <;> rw [pool]
    · apply Recycler.Tied.setNode _ (by exact alive)
      exact tied.same rfl rfl rfl (fun _ => by simp [Recycler.record]) fun _ => rfl
    · exact gone
    · rfl
    · rfl
    · exact fun _ => rfl
  | dropped settled alive more refs pool | edited used alive refs pool =>
    constructor <;> rw [pool]
    · exact tied.setNode alive _
    · exact gone
    · rfl
    · rfl
    · exact fun _ => rfl
  | destroyed settled alive last _ refs pool =>
    constructor <;> rw [pool]
    · exact (tied.without alive).same rfl rfl rfl (fun _ => by simp [Recycler.record]) fun _ => rfl
    · exact gone
    · rfl
    · rfl
    · -- a deleted block leaves no node that could still go
      intro deleted
      have empty := (tied.deleted.mp deleted).2
      have size := Table.size_erase alive
      omega
  | recycled settled alive last exist refs pool => cases gone.symm.trans exist
  | popped settled exist popped refs pool => cases gone.symm.trans exist
  | created exist fresh grown before refs usage pool => cases gone.symm.trans exist
  | refused exist why => cases gone.symm.trans exist
  | notCreated exist ready empty some grown early refs => cases gone.symm.trans exist
  | front exist ready queue alive handed => cases gone.symm.trans exist
  | expanded exist ready empty several first grown nulls perm alive handed =>
    cases gone.symm.trans exist

theorem tied_step (sound : Sound w) (tied : Recycler.Tied w.pool)
    (stepped : step fp discipline type w label t) : Recycler.Tied t.pool := by
  cases living : w.pool.control.recycler with
  | false => exact ((step_effect sound stepped).1.outlives tied living).tied
  | true =>
    by_cases last : label = .destroy
    · subst last
      obtain ⟨-, ends, -⟩ := onRecycler_ends stepped.2
      exact (Recycler.destroy_tied living tied ends).1
    · exact (run_tracks last w t stepped.2).tied living tied

end World
end Uranus
