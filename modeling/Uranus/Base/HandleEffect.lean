import Uranus.Base.RecycleHandle

/-! Everything that one step can do to a world whose counts are in order. -/
namespace Uranus
open Foundation Program
variable {E A : Type} {fp : Rounding} {discipline : Discipline} {type : RecycleType E}

namespace World
variable {w t : World E}

theorem onPool_ok {program : RecyclerM E A} {value : A} {pool : Recycler E}
    (ran : program w.pool = .ok value pool) :
    onPool program w = .ok value { w with pool := pool } := by
  simp only [onPool, ran]

theorem onPool_error {program : RecyclerM E A} {fault : Fault} {pool : Recycler E}
    (failed : program w.pool = .error fault pool) :
    onPool program w = .error fault { w with pool := pool } := by
  simp only [onPool, failed]

theorem onRecycler_alive {program : RecyclerM E A} (exists' : w.pool.control.recycler = true) :
    onRecycler program w = onPool program w := by
  simp only [onRecycler, exists', if_true]

theorem onRecycler_gone {program : RecyclerM E A} (gone : w.pool.control.recycler = false) :
    onRecycler program w = .error .undefined w := by
  simp [onRecycler, gone]

end World

namespace FRecycleHandle
open World
variable {w t : World E} {this rhs : HandleId} {handle : FRecycleHandle}

theorem read_live (live : w.handles.lookup this = some handle) :
    (read this : WorldM E _) w = .ok handle w := by
  simp only [read, live]

theorem read_dead (dead : w.handles.lookup this = none) :
    (read this : WorldM E _) w = .error .undefined w := by
  simp only [read, dead]

theorem read_eq_ok {u : World E} (found : (read this : WorldM E _) w = .ok handle u) :
    w.handles.lookup this = some handle ∧ w = u := by
  cases live : w.handles.lookup this with
  | none => cases found.symm.trans (read_dead live)
  | some other =>
    cases found.symm.trans (read_live live)
    exact ⟨rfl, rfl⟩

theorem construct_fresh (fresh : w.handles.lookup this = none) (handle : FRecycleHandle) :
    (construct this handle : WorldM E _) w =
      .ok () { w with handles := w.handles.insert this handle } := by
  simp only [construct, fresh]
  rfl

theorem construct_live (live : w.handles.lookup this ≠ none) (handle : FRecycleHandle) :
    (construct this handle : WorldM E _) w = .error .undefined w := by
  obtain ⟨other, live⟩ := Option.ne_none_iff_exists'.mp live
  simp only [construct, live]

end FRecycleHandle

namespace World
variable {w t : World E}

/-- The element of a handle is that of its node. -/
def Aligned (handles : Table HandleId FRecycleHandle) : Prop :=
  ∀ h handle, handles.lookup h = some handle → handle.element = handle.node

theorem Aligned.insert {handles : Table HandleId FRecycleHandle} (aligned : Aligned handles)
    {handle : FRecycleHandle} (same : handle.element = handle.node) (this : HandleId) :
    Aligned (handles.insert this handle) := by
  intro h other live
  rw [Table.lookup_insert_ite] at live
  split at live
  · cases live
    exact same
  · exact aligned h other live

end World

/-- The counts of a pool are in order for the nodes `refs` that handles point to:
such a node exists and counts its handles, and the queued ones are distinct,
idle nodes besides the null pointers. -/
structure Recycler.Consistent (pool : Recycler E) (refs : Multiset NodeId) : Prop where
  free : pool.held = []
  fresh : pool.Fresh
  counted : ∀ id ∈ refs, ∃ node, pool.nodes.lookup id = some node ∧ node.refCount = refs.count id
  idle : ∀ id, some id ∈ pool.queue → ∃ node, pool.nodes.lookup id = some node ∧
    node.refCount = recycledReferenceCount
  distinct : pool.queue.reduceOption.Nodup
  used : refs ≠ 0 → (refs.toFinset.card : Int) ≤ pool.usage

namespace World
variable {w t : World E}

structure Sound (w : World E) : Prop extends Recycler.Consistent w.pool w.refs where
  aligned : Aligned w.handles

theorem Sound.new : Sound (World.new : World E) where
  free := rfl
  fresh _ _ := rfl
  counted id member := by simp [World.new, refs] at member
  idle id member := by simp [World.new, Recycler.new] at member
  distinct := by simp [World.new, Recycler.new]
  used some := by simp [World.new, refs] at some
  aligned h handle live := by simp [World.new] at live

theorem mem_refs {h : HandleId} {handle : FRecycleHandle} {id : NodeId}
    (live : w.handles.lookup h = some handle) (pointed : handle.node = some id) : id ∈ w.refs :=
  Table.mem_gather.mpr ⟨h, handle, live, pointed⟩

theorem refs_ne_zero {h : HandleId} {handle : FRecycleHandle} {id : NodeId}
    (live : w.handles.lookup h = some handle) (pointed : handle.node = some id) : w.refs ≠ 0 := by
  intro none
  simpa [none] using mem_refs live pointed

theorem Sound.node (sound : Sound w) {h : HandleId} {handle : FRecycleHandle} {id : NodeId}
    (live : w.handles.lookup h = some handle) (pointed : handle.node = some id) :
    ∃ node, w.pool.nodes.lookup id = some node ∧ node.refCount = w.refs.count id ∧
      0 < w.refs.count id := by
  obtain ⟨node, alive, count⟩ := sound.counted id (mem_refs live pointed)
  exact ⟨node, alive, count, Multiset.count_pos.mpr (mem_refs live pointed)⟩

/-- An acquired node ends up in a handle, or nowhere when it cannot be cast. -/
inductive Handed (type : RecycleType E) (target : String) (id : NodeId) (pool : Recycler E)
    (refs : Multiset NodeId) (t : World E) : Prop
  | held (castable : type.isA target = true) (now : t.refs = id ::ₘ refs)
      (same : t.pool = pool.record (.acquired id))
  | lost (badCast : type.isA target = false) (now : t.refs = refs) (same : t.pool = pool)

/-- What a step does, sorted by its effect on the nodes and on what points to them. -/
inductive Effect (fp : Rounding) (type : RecycleType E) (w : World E) : Label E → World E → Prop
  | quiet {label : Label E} {t : World E}
      (settled : ∀ h target outcome, label ≠ .acquire h target outcome)
      (refs : t.refs = w.refs)
      (pool : t.pool = { w.pool with
        shrinkCount := t.pool.shrinkCount, shrinkDelay := t.pool.shrinkDelay
        shrinkThreshold := t.pool.shrinkThreshold, shrinkRate := t.pool.shrinkRate
        shrinking := t.pool.shrinking, shrinkTimers := t.pool.shrinkTimers }) :
      Effect fp type w label t
  | shared {label : Label E} {t : World E} {id : NodeId} {node : ElementNode E}
      (settled : ∀ h target outcome, label ≠ .acquire h target outcome)
      (used : id ∈ w.refs) (alive : w.pool.nodes.lookup id = some node)
      (refs : t.refs = id ::ₘ w.refs)
      (pool : t.pool = (w.pool.record (.increased id node.refCount)).setNode id
        { node with refCount := node.refCount + 1 }) : Effect fp type w label t
  | dropped {label : Label E} {t : World E} {id : NodeId} {node : ElementNode E}
      (settled : ∀ h target outcome, label ≠ .acquire h target outcome)
      (alive : w.pool.nodes.lookup id = some node) (more : node.refCount ≠ 1)
      (refs : w.refs = id ::ₘ t.refs)
      (pool : t.pool = w.pool.setNode id { node with refCount := node.refCount - 1 }) :
      Effect fp type w label t
  | recycled {label : Label E} {t : World E} {id : NodeId} {node : ElementNode E}
      (settled : ∀ h target outcome, label ≠ .acquire h target outcome)
      (alive : w.pool.nodes.lookup id = some node) (last : node.refCount = 1)
      (exist : w.pool.control.recycler = true) (refs : w.refs = id ::ₘ t.refs)
      (pool : t.pool = { (Recycler.queued w.pool id node).record (.handedBack id) with
        shrinking := t.pool.shrinking, shrinkTimers := t.pool.shrinkTimers }) :
      Effect fp type w label t
  | destroyed {label : Label E} {t : World E} {id : NodeId} {node : ElementNode E}
      (settled : ∀ h target outcome, label ≠ .acquire h target outcome)
      (alive : w.pool.nodes.lookup id = some node) (last : node.refCount = 1)
      (gone : w.pool.control.recycler = false) (refs : w.refs = id ::ₘ t.refs)
      (pool : t.pool = (w.pool.without id).record (.handedBack id)) : Effect fp type w label t
  | edited {h : HandleId} {change : E → E} {t : World E} {id : NodeId} {node : ElementNode E}
      (used : id ∈ w.refs) (alive : w.pool.nodes.lookup id = some node) (refs : t.refs = w.refs)
      (pool : t.pool = w.pool.setNode id { node with element := change node.element }) :
      Effect fp type w (.edit h change) t
  | popped {label : Label E} {t : World E} {ids : List NodeId} {later : Recycler E}
      (settled : ∀ h target outcome, label ≠ .acquire h target outcome)
      (exist : w.pool.control.recycler = true) (popped : Recycler.Popped w.pool ids later)
      (refs : t.refs = w.refs)
      (pool : t.pool = { later with
        shrinking := t.pool.shrinking, shrinkTimers := t.pool.shrinkTimers
        control := t.pool.control }) : Effect fp type w label t
  | created {outcome : Nat → Creation} {capacity : Nat} {t : World E} {ids queued : List NodeId}
      {later : Recycler E} (exist : w.pool.control.recycler = true) (fresh : w.pool.usage < 0)
      (grown : Recycler.Grown w.pool ids later)
      (before : queued <+: ids) (refs : t.refs = w.refs)
      (usage : t.pool.usage = 0 ∧ queued = ids ∧ ids.length = capacity ∨
        t.pool.usage = w.pool.usage)
      (pool : t.pool = { later with
        queue := w.pool.queue ++ queued.map some, usage := t.pool.usage })
      (made : ∀ id ∈ queued, later.nodes.lookup id = some (Recycler.createdNode type)) :
      Effect fp type w (.initial outcome capacity) t
  | refused {h : HandleId} {target : String} {outcome : Nat → Creation}
      (exist : w.pool.control.recycler = true)
      (why : w.pool.usage < 0 ∨ w.pool.queue = [] ∧ w.pool.expandNum fp = 0) :
      Effect fp type w (.acquire h target outcome) w
  | notCreated {h : HandleId} {target : String} {outcome : Nat → Creation} {t : World E}
      {ids : List NodeId} (exist : w.pool.control.recycler = true) (ready : 0 ≤ w.pool.usage)
      (empty : w.pool.queue = [])
      (some : 0 < w.pool.expandNum fp)
      (grown : Recycler.Grown w.pool ids t.pool) (early : ids = [] ↔ outcome 0 = .createThrows)
      (refs : t.refs = w.refs) : Effect fp type w (.acquire h target outcome) t
  | front {h : HandleId} {target : String} {outcome : Nat → Creation} {t : World E} {id : NodeId}
      {rest : List (Option NodeId)} {node : ElementNode E} (exist : w.pool.control.recycler = true)
      (ready : 0 ≤ w.pool.usage)
      (queue : w.pool.queue = some id :: rest) (alive : w.pool.nodes.lookup id = some node)
      (handed : Handed type target id (Recycler.taken type w.pool rest id node) w.refs t) :
      Effect fp type w (.acquire h target outcome) t
  | expanded {h : HandleId} {target : String} {outcome : Nat → Creation} {t : World E}
      {ids : List NodeId} {later : Recycler E} {nodes : List (Option NodeId)} {id : NodeId}
      {node : ElementNode E} (exist : w.pool.control.recycler = true) (ready : 0 ≤ w.pool.usage)
      (empty : w.pool.queue = [])
      (several : 1 < w.pool.expandNum fp) (first : outcome 0 ≠ .createThrows)
      (grown : Recycler.Grown w.pool ids later)
      (nulls : List.replicate (w.pool.expandNum fp - 1) none <+: nodes)
      (perm : (nodes.reduceOption ++ [id]).Perm ids)
      (alive : later.nodes.lookup id = some node)
      (handed : Handed type target id (Recycler.taken type later nodes id node) w.refs t)
      (made : ∀ id ∈ ids, later.nodes.lookup id = some (Recycler.createdNode type)) :
      Effect fp type w (.acquire h target outcome) t

section effect
variable {h this rhs : HandleId} {handle : FRecycleHandle} {label : Label E}

/-- A new handle comes from a place where there is none. -/
theorem construct_ends (handle : FRecycleHandle)
    (ends : Program.Ends (FRecycleHandle.construct this handle) w t) :
    w.handles.lookup this = none ∧ t = { w with handles := w.handles.insert this handle } := by
  by_cases fresh : w.handles.lookup this = none
  · exact ⟨fresh, ends.of_ok (FRecycleHandle.construct_fresh fresh handle)⟩
  · obtain ⟨what, wrong⟩ := ends.of_fault (FRecycleHandle.construct_live fresh handle)
    cases wrong

theorem read_ends {A : Type} {next : FRecycleHandle → WorldM E A}
    (ends : Program.Ends (FRecycleHandle.read this >>= next) w t) :
    ∃ handle, w.handles.lookup this = some handle ∧ Program.Ends (next handle) w t := by
  cases live : w.handles.lookup this with
  | none =>
    obtain ⟨what, wrong⟩ := ends.of_fault (bind_error (FRecycleHandle.read_dead live) _)
    cases wrong
  | some handle =>
    simp only [Program.Ends, bind_ok (FRecycleHandle.read_live live)] at ends
    exact ⟨handle, rfl, ends⟩

theorem null_effect (sound : Sound w)
    (settled : ∀ h target outcome, label ≠ .acquire h target outcome)
    (ends : Program.Ends (FRecycleHandle.null this) w t) :
    Effect fp type w label t ∧ Aligned t.handles := by
  obtain ⟨fresh, rfl⟩ := construct_ends _ ends
  constructor
  · refine .quiet settled ?_ rfl
    simpa [refs] using Table.gather_insert_fresh FRecycleHandle.node ⟨none, none⟩ fresh
  · exact sound.aligned.insert rfl this

/-- A copy of a handle counts its node once more. -/
theorem copy_effect (sound : Sound w)
    (settled : ∀ h target outcome, label ≠ .acquire h target outcome)
    (live : w.handles.lookup rhs = some handle)
    (ends : Program.Ends (do
      FRecycleHandle.incRefCount handle
      FRecycleHandle.construct this handle) w t) :
    Effect fp type w label t ∧ Aligned t.handles := by
  cases pointed : handle.node with
  | none =>
    have counted : FRecycleHandle.incRefCount handle w = .ok () w := by
      simp [FRecycleHandle.incRefCount, pointed]
    simp only [Program.Ends, bind_ok counted] at ends
    obtain ⟨fresh, rfl⟩ := construct_ends handle ends
    constructor
    · refine .quiet settled ?_ rfl
      simpa [refs, pointed] using Table.gather_insert_fresh FRecycleHandle.node handle fresh
    · exact sound.aligned.insert (sound.aligned rhs handle live) this
  | some id =>
    obtain ⟨node, alive, count, positive⟩ := sound.node live pointed
    have counted : FRecycleHandle.incRefCount handle w = .ok () { w with
        pool := (w.pool.record (.increased id node.refCount)).setNode id
          { node with refCount := node.refCount + 1 } } := by
      rw [FRecycleHandle.incRefCount, if_pos (by simp [pointed]), pointed]
      exact onPool_ok (Recycler.incRefCount_live alive (by omega))
    simp only [Program.Ends, bind_ok counted] at ends
    obtain ⟨fresh, rfl⟩ := construct_ends handle ends
    constructor
    · refine .shared settled (mem_refs live pointed) alive ?_ rfl
      have now := Table.gather_insert_fresh FRecycleHandle.node handle fresh
      simpa [refs, pointed] using now
    · exact sound.aligned.insert (sound.aligned rhs handle live) this

theorem move_effect (sound : Sound w)
    (settled : ∀ h target outcome, label ≠ .acquire h target outcome)
    (ends : Program.Ends (FRecycleHandle.move this rhs) w t) :
    Effect fp type w label t ∧ Aligned t.handles := by
  obtain ⟨handle, live, ends⟩ := read_ends ends
  by_cases fresh : w.handles.lookup this = none
  swap
  · have occupied := FRecycleHandle.construct_live fresh handle
    obtain ⟨what, wrong⟩ := ends.of_fault (bind_error occupied _)
    cases wrong
  simp only [Program.Ends, bind_ok (FRecycleHandle.construct_fresh fresh handle)] at ends
  cases Program.Ends.of_ok ends (modify_apply _ _)
  have aligned := sound.aligned.insert (sound.aligned rhs handle live) this
  refine ⟨.quiet settled ?_ rfl, aligned.insert rfl rhs⟩
  have differs : rhs ≠ this := by
    rintro rfl
    exact absurd (fresh.symm.trans live) (by simp)
  have present : (w.handles.insert this handle).lookup rhs = some handle :=
    (AList.lookup_insert_ne differs).trans live
  have both := Table.gather_overwrite FRecycleHandle.node present ⟨none, none⟩
  rw [Table.gather_insert_fresh _ handle fresh] at both
  simpa [refs] using both

theorem swap_effect (sound : Sound w)
    (settled : ∀ h target outcome, label ≠ .acquire h target outcome)
    (ends : Program.Ends (FRecycleHandle.swap this rhs) w t) :
    Effect fp type w label t ∧ Aligned t.handles := by
  obtain ⟨left, leftLive, ends⟩ := read_ends ends
  obtain ⟨right, rightLive, ends⟩ := read_ends ends
  have ran : (do FRecycleHandle.write this right; FRecycleHandle.write rhs left : WorldM E Unit) w =
      .ok () { w with handles := (w.handles.insert this right).insert rhs left } := rfl
  cases ends.of_ok ran
  have aligned := sound.aligned.insert (sound.aligned rhs right rightLive) this
  refine ⟨.quiet settled ?_ rfl, aligned.insert (sound.aligned this left leftLive) rhs⟩
  have present : (w.handles.insert this right).lookup rhs = some right := by
    rw [Table.lookup_insert_ite]
    split
    · rfl
    · exact rightLive
  have first := Table.gather_overwrite FRecycleHandle.node leftLive right
  have second := Table.gather_overwrite FRecycleHandle.node present left
  rw [first] at second
  exact add_left_cancel second

/-- The last handle that goes away hands its node back. -/
theorem handBack_effect (sound : Sound w) {id : NodeId} {node : ElementNode E} {value : Int}
    (used : w.refs ≠ 0)
    (ends : Program.Ends (FRecycleHandle.handBack discipline id)
      { w with pool := w.pool.setNode id { node with refCount := value } } t) :
    t.handles = w.handles ∧
    (w.pool.control.recycler = true ∧
      t.pool = { (Recycler.queued w.pool id node).record (.handedBack id) with
        shrinking := t.pool.shrinking, shrinkTimers := t.pool.shrinkTimers } ∨
    w.pool.control.recycler = false ∧ t.pool = (w.pool.without id).record (.handedBack id)) := by
  have found : (w.pool.setNode id { node with refCount := value }).nodes.lookup id =
      some { node with refCount := value } := AList.lookup_insert _
  have ready : 0 ≤ w.pool.usage := by
    have bound := sound.used used
    omega
  simp only [FRecycleHandle.handBack, Program.Ends, get_bind] at ends
  cases exist : w.pool.control.recycler with
  | true =>
    rw [if_pos (by exact exist)] at ends
    rcases Recycler.recycle_cases discipline (by exact sound.free)
        (by exact ready) found with ⟨shrinking, timers, ran⟩ | ⟨later, ran⟩
    · rw [bind_ok (onPool_ok (by exact ran))] at ends
      cases Program.Ends.of_ok ends rfl
      refine ⟨rfl, .inl ⟨rfl, ?_⟩⟩
      simp [Recycler.queued, Recycler.setNode, Recycler.record, AList.insert_insert]
    · obtain ⟨what, wrong⟩ :=
        Program.Ends.of_fault ends (bind_error (onPool_error (by exact ran)) _)
      cases wrong
  | false =>
    rw [if_neg (by simp [Recycler.setNode, exist])] at ends
    rw [bind_ok (onPool_ok (Recycler.destroyNode_alive (by exact found)))] at ends
    cases Program.Ends.of_ok ends rfl
    refine ⟨rfl, .inr ⟨rfl, ?_⟩⟩
    simp [Recycler.without, Recycler.setNode, Recycler.record, Table.erase_insert]

theorem destruct_effect (sound : Sound w)
    (settled : ∀ h target outcome, label ≠ .acquire h target outcome)
    (ends : Program.Ends (FRecycleHandle.destruct discipline this) w t) :
    Effect fp type w label t ∧ Aligned t.handles := by
  obtain ⟨_, u, released, ends⟩ := Program.Ends.of_noexcept ends
  cases Program.Ends.of_ok ends (modify_apply _ _)
  obtain ⟨handle, _, found, rest⟩ := bind_eq_ok released
  obtain ⟨live, rfl⟩ := FRecycleHandle.read_eq_ok found
  obtain ⟨_, v, counted, written⟩ := bind_eq_ok rest
  cases written
  have aligned {handles : Table HandleId FRecycleHandle} (same : handles = w.handles) :
      Aligned ((handles.insert this { handle with node := none }).erase this) := by
    rw [Table.erase_insert, same]
    intro h other kept
    rw [Table.lookup_erase_ite] at kept
    split at kept
    · cases kept
    · exact sound.aligned h other kept
  have split := Table.gather_present FRecycleHandle.node live
  cases pointed : handle.node with
  | none =>
    rw [pointed] at counted split
    cases counted
    constructor
    · refine .quiet settled ?_ rfl
      simpa [refs, Table.erase_insert] using split.symm
    · exact aligned rfl
  | some id =>
    obtain ⟨node, alive, -, -⟩ := sound.node live pointed
    have used := refs_ne_zero live pointed
    rw [pointed] at counted split
    simp only [FRecycleHandle.releaseNode] at counted
    rw [bind_ok (onPool_ok (Recycler.decRefCount_alive alive))] at counted
    by_cases last : node.refCount = 1
    · rw [if_pos (by simpa using last)] at counted
      obtain ⟨same, ⟨exist, pool⟩ | ⟨gone, pool⟩⟩ :=
        handBack_effect sound used (.inl ⟨_, counted⟩)
      · constructor
        · refine .recycled settled alive last exist ?_ pool
          simpa [refs, Table.erase_insert, same] using split
        · exact aligned same
      · constructor
        · refine .destroyed settled alive last gone ?_ pool
          simpa [refs, Table.erase_insert, same] using split
        · exact aligned same
    · rw [if_neg (by simpa using last)] at counted
      cases counted
      constructor
      · refine .dropped settled alive last ?_ rfl
        simpa [refs, Table.erase_insert] using split
      · exact aligned rfl

/-- Wrapping an acquired node. -/
theorem ofNode_effect {u : World E} {target : String} {id : NodeId} {node : ElementNode E}
    (aligned : Aligned u.handles) (alive : u.pool.nodes.lookup id = some node)
    (ends : Program.Ends (FRecycleHandle.ofNode type h target (some id)) u t) :
    Handed type target id u.pool u.refs t ∧ Aligned t.handles := by
  have found : onPool (Recycler.deref (some id)) u = .ok (id, node) u :=
    onPool_ok (Recycler.deref_alive alive)
  simp only [FRecycleHandle.ofNode, Program.Ends, bind_ok found] at ends
  cases castable : type.isA target with
  | false =>
    rw [throwIf_throw_bind castable] at ends
    cases Program.Ends.of_exception ends rfl
    exact ⟨.lost castable rfl rfl, aligned⟩
  | true =>
    rw [throwIf_bind (by simp [castable]), bind_ok (onPool_ok (modify_apply _ _))] at ends
    obtain ⟨fresh, rfl⟩ := construct_ends _ ends
    constructor
    · refine .held castable ?_ rfl
      simpa [refs] using Table.gather_insert_fresh FRecycleHandle.node ⟨some id, some id⟩ fresh
    · exact aligned.insert rfl h

theorem acquire_effect {target : String} {outcome : Nat → Creation} (sound : Sound w)
    (ends : Program.Ends (acquire fp discipline type h target outcome) w t) :
    Effect fp type w (.acquire h target outcome) t ∧ Aligned t.handles := by
  have exist : w.pool.control.recycler = true := by
    by_contra gone
    obtain ⟨what, wrong⟩ := ends.of_fault (bind_error (onRecycler_gone (by simpa using gone)) _)
    cases wrong
  have acquisition := Recycler.acquireNode_cases fp discipline type outcome sound.free
  generalize ran : Recycler.acquireNode fp discipline type outcome w.pool = result at acquisition
  have called : onRecycler (Recycler.acquireNode fp discipline type outcome) w = _ :=
    onRecycler_alive exist
  cases acquisition with
  | uninitialised idle =>
    rw [onPool_error ran] at called
    cases ends.of_exception (bind_error called _)
    exact ⟨.refused exist (.inl idle), sound.aligned⟩
  | front ready queue alive idle =>
    rw [onPool_ok ran] at called
    simp only [acquire, Program.Ends, bind_ok called] at ends
    obtain ⟨handed, aligned⟩ := ofNode_effect (by exact sound.aligned) (AList.lookup_insert _) ends
    exact ⟨.front exist ready queue alive handed, aligned⟩
  | @used id rest node ready queue alive used =>
    obtain ⟨other, found, idle⟩ := sound.idle id (by simp [queue])
    cases alive.symm.trans found
    exact absurd idle used
  | broken ready queue dead =>
    rw [onPool_error ran] at called
    obtain ⟨what, wrong⟩ := ends.of_fault (bind_error called _)
    cases wrong
  | unused ready empty none =>
    rw [onPool_error ran] at called
    cases ends.of_exception (bind_error called _)
    exact ⟨.refused exist (.inr ⟨empty, none⟩), sound.aligned⟩
  | notCreated what ready empty some grown early =>
    rw [onPool_error ran] at called
    cases ends.of_exception (bind_error called _)
    exact ⟨.notCreated exist ready empty some grown early rfl, sound.aligned⟩
  | expanded ready empty several first grown nulls perm alive made =>
    rw [onPool_ok ran] at called
    simp only [acquire, Program.Ends, bind_ok called] at ends
    obtain ⟨handed, aligned⟩ := ofNode_effect (by exact sound.aligned) (AList.lookup_insert _) ends
    exact ⟨.expanded exist ready empty several first grown nulls perm alive handed made, aligned⟩

theorem edit_effect {change : E → E} (sound : Sound w)
    (ends : Program.Ends (FRecycleHandle.edit this change) w t) :
    Effect fp type w (.edit this change) t ∧ Aligned t.handles := by
  obtain ⟨handle, live, ends⟩ := read_ends ends
  rw [sound.aligned this handle live] at ends
  cases pointed : handle.node with
  | none =>
    rw [pointed] at ends
    obtain ⟨what, wrong⟩ := Program.Ends.of_fault ends (onPool_error rfl)
    cases wrong
  | some id =>
    obtain ⟨node, alive, -, -⟩ := sound.node live pointed
    rw [pointed] at ends
    cases Program.Ends.of_ok ends (onPool_ok (Recycler.callHook_alive change alive))
    exact ⟨.edited (mem_refs live pointed) alive rfl rfl, sound.aligned⟩

/-- A call on the recycler comes back as it does on the pool. -/
theorem onRecycler_ends {A : Type} {program : RecyclerM E A}
    (ends : Program.Ends (onRecycler program) w t) :
    w.pool.control.recycler = true ∧ Program.Ends program w.pool t.pool ∧
      t.handles = w.handles := by
  cases exist : w.pool.control.recycler with
  | false =>
    obtain ⟨what, wrong⟩ := ends.of_fault (onRecycler_gone exist)
    cases wrong
  | true =>
    simp only [Program.Ends, onRecycler_alive exist] at ends
    cases ran : program w.pool with
    | ok value pool =>
      cases Program.Ends.of_ok ends (onPool_ok ran)
      exact ⟨rfl, .inl ⟨value, ran⟩, rfl⟩
    | error fault pool =>
      obtain ⟨what, rfl⟩ := Program.Ends.of_fault ends (onPool_error ran)
      cases Program.Ends.of_exception ends (onPool_error ran)
      exact ⟨rfl, .inr ⟨what, ran⟩, rfl⟩

theorem refs_eq (same : t.handles = w.handles) : t.refs = w.refs :=
  congrArg (Table.gather FRecycleHandle.node) same

theorem shrink_ends {pool later : Recycler E} (free : pool.held = [])
    (ends : Program.Ends (Recycler.shrink fp discipline) pool later) :
    ∃ ids, Recycler.Popped pool ids later := by
  have shrinking := Recycler.shrink_cases fp discipline free
  generalize ran : Recycler.shrink fp discipline pool = result at shrinking
  cases shrinking with
  | uninitialised idle =>
    cases ends.of_exception ran
    exact ⟨[], .done pool⟩
  | popped ready popped split =>
    cases ends.of_ok ran
    exact ⟨_, popped⟩
  | broken ready broken =>
    obtain ⟨what, wrong⟩ := ends.of_fault ran
    cases wrong

/-- The timer pops nodes as `Shrink` does, and changes its own fields. -/
theorem onShrinkTimer_ends {pool later : Recycler E} {cancelled : Bool} (free : pool.held = [])
    (ends : Program.Ends (Recycler.onShrinkTimer fp discipline cancelled) pool later) :
    ∃ ids mid, Recycler.Popped pool ids mid ∧
      later = { mid with shrinking := later.shrinking, shrinkTimers := later.shrinkTimers } := by
  simp only [Recycler.onShrinkTimer, Program.Ends, modify_bind] at ends
  cases cancelled with
  | true =>
    cases Program.Ends.of_ok ends rfl
    exact ⟨[], pool, .done pool, rfl⟩
  | false =>
    have popped : ∃ ids mid,
        Recycler.Popped { pool with shrinkTimers := pool.shrinkTimers - 1 } ids mid ∧
        later = { mid with shrinking := later.shrinking } := by
      rcases Program.Ends.of_bind ends with ⟨_, mid, ran, ends⟩ | ⟨what, ran⟩
      · obtain ⟨ids, popped⟩ := shrink_ends (by exact free) (.inl ⟨_, ran⟩)
        cases Program.Ends.of_ok ends (modify_apply _ _)
        exact ⟨ids, mid, popped, rfl⟩
      · obtain ⟨ids, popped⟩ := shrink_ends (by exact free) (.inr ⟨what, ran⟩)
        exact ⟨ids, later, popped, rfl⟩
    obtain ⟨ids, mid, popped, same⟩ := popped
    have held : mid.held = pool.held := by rw [popped.frame]
    refine ⟨ids, _, popped.adjust pool.held pool.shrinkTimers, ?_⟩
    rw [same, ← held]

theorem destroy_ends {pool later : Recycler E} (ends : Program.Ends Recycler.destroy pool later) :
    ∃ ids mid, Recycler.Popped pool ids mid ∧ later = { mid with control := later.control } := by
  simp only [Recycler.destroy, Program.Ends, get_bind] at ends
  rcases Recycler.popLoop_cases pool.queue.length pool with
    ⟨ids, mid, ran, popped, -⟩ | ⟨mid, ran, -⟩
  · rw [bind_ok ran] at ends
    cases Program.Ends.of_ok ends (modify_apply _ _)
    exact ⟨ids, mid, popped, rfl⟩
  · obtain ⟨what, wrong⟩ := Program.Ends.of_fault ends (bind_error ran _)
    cases wrong

theorem initial_effect {outcome : Nat → Creation} {capacity : Nat} (sound : Sound w)
    (ends : Program.Ends (onRecycler (Recycler.initial type outcome capacity)) w t) :
    Effect fp type w (.initial outcome capacity) t ∧ Aligned t.handles := by
  obtain ⟨exist, ends, same⟩ := onRecycler_ends ends
  apply And.intro _ (same ▸ sound.aligned)
  simp only [Recycler.initial, Program.Ends, get_bind] at ends
  by_cases ready : 0 ≤ w.pool.usage
  · rw [throwIf_throw_bind ready] at ends
    have pool := Program.Ends.of_exception ends rfl
    apply Effect.quiet (by simp) (refs_eq same)
    rw [pool]
  rw [throwIf_bind ready] at ends
  obtain ⟨ids, created, later, grown, before, made, ⟨ran, all, length⟩ | ⟨what, ran⟩⟩ :=
    Recycler.initialLoop_cases type outcome 0 capacity w.pool
  · rw [bind_ok ran] at ends
    have pool := Program.Ends.of_ok ends (modify_apply _ _)
    have usage : t.pool.usage = 0 := by rw [pool]
    apply Effect.created exist (not_le.mp ready) grown before (refs_eq same)
      (.inl ⟨usage, all, length⟩) _ made
    rw [pool]
  · have pool := Program.Ends.of_exception ends (bind_error ran _)
    have usage : t.pool.usage = w.pool.usage := by rw [pool, grown.frame]
    apply Effect.created exist (not_le.mp ready) grown before (refs_eq same) (.inr usage) _ made
    rw [pool]

/-- The inversion lemma of a step. -/
theorem step_effect (sound : Sound w) (stepped : step fp discipline type w label t) :
    Effect fp type w label t ∧ Aligned t.handles := by
  obtain ⟨-, ends⟩ := stepped
  cases label with
  | initial outcome capacity => exact initial_effect sound ends
  | acquire result target outcome => exact acquire_effect sound ends
  | null this => exact null_effect sound (by simp) ends
  | copy this rhs =>
    obtain ⟨handle, live, ends⟩ := read_ends ends
    exact copy_effect sound (by simp) live ends
  | move this rhs => exact move_effect sound (by simp) ends
  | castTo result this target =>
    obtain ⟨handle, live, ends⟩ := read_ends ends
    split at ends
    · exact copy_effect sound (by simp) live ends
    · exact null_effect sound (by simp) ends
  | swap this rhs => exact swap_effect sound (by simp) ends
  | destruct this => exact destruct_effect sound (by simp) ends
  | edit this change => exact edit_effect sound ends
  | shrink =>
    obtain ⟨exist, ends, same⟩ := onRecycler_ends ends
    obtain ⟨ids, popped⟩ := shrink_ends sound.free ends
    exact ⟨.popped (by simp) exist popped (refs_eq same) rfl, same ▸ sound.aligned⟩
  | onShrinkTimer cancelled =>
    obtain ⟨exist, ends, same⟩ := onRecycler_ends ends
    obtain ⟨ids, mid, popped, pool⟩ := onShrinkTimer_ends sound.free ends
    refine ⟨.popped (by simp) exist popped (refs_eq same) ?_, same ▸ sound.aligned⟩
    rw [pool]
  | configure count delay threshold rate =>
    obtain ⟨exist, ends, same⟩ := onRecycler_ends ends
    have pool := Program.Ends.of_ok ends (modify_apply _ _)
    refine ⟨.quiet (by simp) (refs_eq same) ?_, same ▸ sound.aligned⟩
    rw [pool]
    rfl
  | destroy =>
    obtain ⟨exist, ends, same⟩ := onRecycler_ends ends
    obtain ⟨ids, mid, popped, pool⟩ := destroy_ends ends
    refine ⟨.popped (by simp) exist popped (refs_eq same) ?_, same ▸ sound.aligned⟩
    rw [pool]

end effect
end World
end Uranus
