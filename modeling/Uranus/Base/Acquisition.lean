import Mathlib.Data.List.ReduceOption
import Uranus.Base.RecyclerSpec

/-! Creating nodes and acquiring them: every way in which `Initial` and
`AcquireNode` end. -/
namespace Uranus.Recycler
open Foundation Program
variable {E : Type} {fp : Rounding} {discipline : Discipline} {type : RecycleType E}
  {pool : Recycler E}

section creation

/-- The pool with one more node allocated, around `element`. -/
def allocated (pool : Recycler E) (element : E) : Recycler E :=
  { pool with
    control := pool.control.incRefCount
    nodes := pool.nodes.insert pool.nextNode ⟨recycledReferenceCount, element⟩
    nextNode := pool.nextNode + 1 }

/-- The node that `CreateElement` returns. -/
def createdNode (type : RecycleType E) : ElementNode E :=
  ⟨recycledReferenceCount, type.onCreate type.construct⟩

theorem createElement_made : createElement type .made pool =
    .ok pool.nextNode (allocated pool (type.onCreate type.construct)) := by
  have alive : (allocated pool type.construct).nodes.lookup pool.nextNode =
      some ⟨recycledReferenceCount, type.construct⟩ := AList.lookup_insert _
  have made : createNode type .made pool = .ok pool.nextNode (allocated pool type.construct) := rfl
  rw [createElement, bind_ok made]
  rw [throwIf_bind (by simp), bind_ok (callHook_alive type.onCreate alive)]
  simp [allocated, setNode, AList.insert_insert]

theorem createElement_createThrows : createElement type .createThrows pool =
    .error (.exception "CreateNode") pool := rfl

theorem createElement_onCreateThrows : createElement type .onCreateThrows pool =
    .error (.exception "OnCreate") (allocated pool type.construct) := rfl

/-- The nodes `ids` were allocated, in this order, and nothing else changed. -/
inductive Grown : Recycler E → List NodeId → Recycler E → Prop
  | same (pool : Recycler E) : Grown pool [] pool
  | more {pool later : Recycler E} {ids : List NodeId} (element : E)
      (grown : Grown (allocated pool element) ids later) : Grown pool (pool.nextNode :: ids) later

namespace Grown
variable {later : Recycler E} {ids : List NodeId} {id : NodeId}

theorem frame (grown : Grown pool ids later) :
    later = { pool with
      control := later.control, nodes := later.nodes, nextNode := later.nextNode } := by
  induction grown with
  | same pool => rfl
  | more element grown ih => rw [ih]; rfl

theorem held (grown : Grown pool ids later) : later.held = pool.held := by
  rw [grown.frame]

theorem none_created (grown : Grown pool [] later) : later = pool := by
  cases grown
  rfl

theorem recycler (grown : Grown pool ids later) :
    later.control.recycler = pool.control.recycler := by
  induction grown with
  | same pool => rfl
  | more element grown ih => rw [ih]; rfl

theorem next (grown : Grown pool ids later) : later.nextNode = pool.nextNode + ids.length := by
  induction grown with
  | same pool => rfl
  | more element grown ih =>
    rw [ih, List.length_cons]
    exact Nat.add_right_comm _ 1 _

theorem lookup_old (grown : Grown pool ids later) (old : id < pool.nextNode) :
    later.nodes.lookup id = pool.nodes.lookup id := by
  induction grown with
  | same pool => rfl
  | more element grown ih =>
    rw [ih (Nat.lt_succ_of_lt old)]
    exact AList.lookup_insert_ne old.ne

theorem lookup_first {element : E} (grown : Grown (allocated pool element) ids later) :
    later.nodes.lookup pool.nextNode = some ⟨recycledReferenceCount, element⟩ := by
  rw [grown.lookup_old (Nat.lt_succ_self _)]
  exact AList.lookup_insert _

theorem created (grown : Grown pool ids later) (new : id ∈ ids) :
    pool.nextNode ≤ id ∧
      ∃ element, later.nodes.lookup id = some ⟨recycledReferenceCount, element⟩ := by
  induction grown with
  | same pool => cases new
  | more element grown ih =>
    rcases List.mem_cons.mp new with rfl | new
    · exact ⟨le_rfl, element, grown.lookup_first⟩
    · obtain ⟨above, found⟩ := ih new
      exact ⟨Nat.le_of_succ_le above, found⟩

theorem nodup (grown : Grown pool ids later) : ids.Nodup := by
  induction grown with
  | same pool => exact List.nodup_nil
  | more element grown ih =>
    apply List.Nodup.cons _ ih
    intro again
    exact absurd (grown.created again).1 (Nat.not_succ_le_self _)

end Grown

/-- Node addresses are handed out in order. -/
def Fresh (pool : Recycler E) : Prop := ∀ id, pool.nextNode ≤ id → pool.nodes.lookup id = none

theorem Fresh.allocated (fresh : Fresh pool) (element : E) : Fresh (allocated pool element) := by
  intro id above
  exact (AList.lookup_insert_ne (Nat.lt_of_succ_le above).ne').trans
    (fresh id (Nat.le_of_succ_le above))

theorem Grown.fresh {later : Recycler E} {ids : List NodeId} (grown : Grown pool ids later)
    (fresh : Fresh pool) : Fresh later := by
  induction grown with
  | same pool => exact fresh
  | more element grown ih => exact ih (fresh.allocated element)

theorem Grown.size {later : Recycler E} {ids : List NodeId} (grown : Grown pool ids later)
    (fresh : Fresh pool) : later.nodes.size = pool.nodes.size + ids.length := by
  induction grown with
  | same pool => rfl
  | @more pool later ids element grown ih =>
    have one : (pool.allocated element).nodes.size = pool.nodes.size + 1 :=
      Table.size_insert_fresh (fresh _ le_rfl)
    rw [ih (fresh.allocated element), one, List.length_cons]
    omega

end creation

section expand
variable {outcome : Nat → Creation}

/-- One more node that came out of `CreateElement`. -/
theorem Grown.forall_created {later : Recycler E} {ids : List NodeId}
    (grown : Grown (allocated pool (type.onCreate type.construct)) ids later) {among : List NodeId}
    (made : ∀ id ∈ among, later.nodes.lookup id = some (createdNode type)) :
    ∀ id ∈ pool.nextNode :: among, later.nodes.lookup id = some (createdNode type) :=
  List.forall_mem_cons.mpr ⟨grown.lookup_first, made⟩

/-- Every way in which the creation loop ends: it returns with the new nodes
behind those of the vector, but for the one picked, or a creation throws. -/
theorem expandLoop_cases (type : RecycleType E) (outcome : Nat → Creation) (count num : Nat)
    (nodes : List (Option NodeId)) (result : Option NodeId) (pool : Recycler E) :
    (∃ ids nodes' result' later,
      expandLoop type outcome count num nodes result pool = .ok (nodes', result') later ∧
      Grown pool ids later ∧ ids.length = num ∧ (0 < num → outcome count ≠ .createThrows) ∧
      nodes <+: nodes' ∧
      (num ≤ 1 ∨ result = none → (nodes'.reduceOption ++ result'.toList).Perm
        (nodes.reduceOption ++ result.toList ++ ids)) ∧
      ∀ id ∈ ids, later.nodes.lookup id = some (createdNode type)) ∨
    (∃ ids what later,
      expandLoop type outcome count num nodes result pool = .error (.exception what) later ∧
      Grown pool ids later ∧ 0 < num ∧ (ids = [] ↔ outcome count = .createThrows)) := by
  induction num generalizing count nodes result pool with
  | zero =>
    exact .inl ⟨[], nodes, result, pool, rfl, .same pool, rfl, by simp, List.prefix_refl _, by simp⟩
  | succ num ih =>
    cases created : outcome count with
    | createThrows =>
      refine .inr ⟨[], "CreateNode", pool, ?_, .same pool, Nat.succ_pos _, by simp⟩
      rw [expandLoop, created, bind_error createElement_createThrows]
    | onCreateThrows =>
      refine .inr ⟨[pool.nextNode], "OnCreate", _, ?_, .more type.construct (.same _),
        Nat.succ_pos _, by simp⟩
      rw [expandLoop, created, bind_error createElement_onCreateThrows]
    | made =>
      rw [expandLoop, created, bind_ok createElement_made]
      by_cases last : num = 1
      · rw [if_pos last]
        rcases ih (count + 1) nodes (some pool.nextNode)
            (allocated pool (type.onCreate type.construct)) with
          ⟨ids, nodes', result', later, ran, grown, length, -, before, perm, made⟩ |
          ⟨ids, what, later, ran, grown, -, -⟩
        · refine .inl ⟨_, nodes', result', later, ran, .more _ grown, by simp [length],
            by simp, before, ?_, grown.forall_created made⟩
          rintro (small | rfl)
          · omega
          · simpa using perm (.inl last.le)
        · exact .inr ⟨_, what, later, ran, .more _ grown, Nat.succ_pos _, by simp⟩
      · rw [if_neg last]
        rcases ih (count + 1) (nodes ++ [some pool.nextNode]) result
            (allocated pool (type.onCreate type.construct)) with
          ⟨ids, nodes', result', later, ran, grown, length, -, before, perm, made⟩ |
          ⟨ids, what, later, ran, grown, -, -⟩
        · refine .inl ⟨_, nodes', result', later, ran, .more _ grown, by simp [length],
            by simp, (List.prefix_append _ _).trans before, ?_, grown.forall_created made⟩
          intro early
          apply (perm (early.imp_left fun small => by omega)).trans
          rw [List.reduceOption_append]
          cases result with
          | none => simp
          | some first =>
            simp only [List.reduceOption_singleton, Option.toList_some, List.append_assoc,
              List.singleton_append]
            apply List.Perm.append_left
            exact List.Perm.swap _ _ _
        · exact .inr ⟨_, what, later, ran, .more _ grown, Nat.succ_pos _, by simp⟩

theorem expandLoop_one (count : Nat) (nodes : List (Option NodeId)) (result : Option NodeId)
    {picked : List (Option NodeId) × Option NodeId} {later : Recycler E}
    (ran : expandLoop type outcome count 1 nodes result pool = .ok picked later) :
    picked.2 = result := by
  cases created : outcome count with
  | createThrows => simp [expandLoop, created, bind_error createElement_createThrows] at ran
  | onCreateThrows => simp [expandLoop, created, bind_error createElement_onCreateThrows] at ran
  | made =>
    simp [expandLoop, created, bind_ok createElement_made] at ran
    rw [← ran.1]

end expand

section acquire
variable {outcome : Nat → Creation} {id : NodeId} {node : ElementNode E}
  {rest : List (Option NodeId)}

/-- The node `id` was acquired, and `rest` is what the queue still holds. -/
def taken (type : RecycleType E) (pool : Recycler E) (rest : List (Option NodeId)) (id : NodeId)
    (node : ElementNode E) : Recycler E :=
  { pool with
    queue := rest
    usage := pool.usage + 1
    nodes := pool.nodes.insert id ⟨1, type.initial node.element⟩ }

/-- How many nodes the expansion creates. -/
def expandNum (fp : Rounding) (pool : Recycler E) : Nat :=
  fp.scaled pool.usage.toNat recyclerExpandRate

/-- Every way in which `AcquireNode` ends on a pool whose lock is free. -/
inductive Acquisition (fp : Rounding) (type : RecycleType E) (outcome : Nat → Creation)
    (pool : Recycler E) : EStateM.Result Fault (Recycler E) (Option NodeId) → Prop
  | uninitialised (idle : pool.usage < 0) :
      Acquisition fp type outcome pool (.error (.exception "Recycler Not Initialize") pool)
  | front {id : NodeId} {rest : List (Option NodeId)} {node : ElementNode E}
      (ready : 0 ≤ pool.usage) (queue : pool.queue = some id :: rest)
      (alive : pool.nodes.lookup id = some node) (idle : node.refCount = recycledReferenceCount) :
      Acquisition fp type outcome pool (.ok (some id) (taken type pool rest id node))
  | used {id : NodeId} {rest : List (Option NodeId)} {node : ElementNode E}
      (ready : 0 ≤ pool.usage) (queue : pool.queue = some id :: rest)
      (alive : pool.nodes.lookup id = some node) (used : node.refCount ≠ recycledReferenceCount) :
      Acquisition fp type outcome pool (.error (.exception "Acquire on non-recycled node")
        { pool with queue := rest, usage := pool.usage + 1 })
  | broken {pointer : Option NodeId} {rest : List (Option NodeId)}
      (ready : 0 ≤ pool.usage) (queue : pool.queue = pointer :: rest)
      (dead : ∀ id, pointer = some id → pool.nodes.lookup id = none) :
      Acquisition fp type outcome pool (.error .undefined
        { pool with queue := rest, usage := pool.usage + 1, held := [.exclusive] })
  | unused (ready : 0 ≤ pool.usage) (empty : pool.queue = []) (none : expandNum fp pool = 0) :
      Acquisition fp type outcome pool
        (.error (.exception "Recycler expand num equal zero") pool)
  | notCreated {ids : List NodeId} {later : Recycler E} (what : String)
      (ready : 0 ≤ pool.usage) (empty : pool.queue = []) (some : 0 < expandNum fp pool)
      (grown : Grown pool ids later) (early : ids = [] ↔ outcome 0 = .createThrows) :
      Acquisition fp type outcome pool (.error (.exception what) later)
  | expanded {ids : List NodeId} {later : Recycler E} {nodes : List (Option NodeId)} {id : NodeId}
      {node : ElementNode E} (ready : 0 ≤ pool.usage) (empty : pool.queue = [])
      (some : 1 < expandNum fp pool) (first : outcome 0 ≠ .createThrows)
      (grown : Grown pool ids later)
      (nulls : List.replicate (expandNum fp pool - 1) none <+: nodes)
      (perm : (nodes.reduceOption ++ [id]).Perm ids)
      (alive : later.nodes.lookup id = Option.some node)
      (made : ∀ id ∈ ids, later.nodes.lookup id = Option.some (createdNode type)) :
      Acquisition fp type outcome pool (.ok (Option.some id) (taken type later nodes id node))

theorem acquireFront_live (queue : pool.queue = some id :: rest)
    (alive : pool.nodes.lookup id = some node) (idle : node.refCount = recycledReferenceCount) :
    acquireFront type pool = .ok (some (some id)) (taken type pool rest id node) := by
  simp only [acquireFront, get_bind, queue, modify_bind]
  rw [bind_ok (onAcquire_idle (by exact alive) idle)]
  rw [bind_ok (callHook_alive type.initial (AList.lookup_insert _))]
  simp [setNode, taken, AList.insert_insert]

theorem acquireFront_used (queue : pool.queue = some id :: rest)
    (alive : pool.nodes.lookup id = some node) (used : node.refCount ≠ recycledReferenceCount) :
    acquireFront type pool = .error (.exception "Acquire on non-recycled node")
      { pool with queue := rest, usage := pool.usage + 1 } := by
  simp only [acquireFront, get_bind, queue, modify_bind]
  exact bind_error (onAcquire_used (by exact alive) used) _

theorem acquireFront_dead {pointer : Option NodeId} (queue : pool.queue = pointer :: rest)
    (dead : ∀ id, pointer = some id → pool.nodes.lookup id = none) :
    acquireFront type pool = .error .undefined
      { pool with queue := rest, usage := pool.usage + 1 } := by
  simp only [acquireFront, get_bind, queue, modify_bind]
  cases pointer with
  | none => rfl
  | some id =>
    exact bind_error (bind_error (deref_dead (by exact dead id rfl)) _) _

theorem emplaceAll_free (free : pool.held = []) (nodes : List (Option NodeId)) :
    emplaceAll discipline nodes pool = .ok () { pool with queue := pool.queue ++ nodes } := by
  by_cases none : nodes = []
  · simp [emplaceAll, none]
  · rw [emplaceAll, if_pos none, withLock_free free]
    simp [unlock, free]

theorem expand_cases (free : pool.held = []) (ready : 0 ≤ pool.usage) (empty : pool.queue = []) :
    Acquisition fp type outcome pool (expand fp discipline type outcome pool) := by
  simp only [expand, get_bind]
  change Acquisition fp type outcome pool ((throwIf (expandNum fp pool ≤ 0) _ >>= fun _ => _) pool)
  by_cases positive : 0 < expandNum fp pool
  swap
  · rw [throwIf_throw_bind (Nat.le_of_not_lt positive)]
    exact .unused ready empty (Nat.eq_zero_of_not_pos positive)
  rw [throwIf_bind positive.not_ge]
  rcases expandLoop_cases type outcome 0 (expandNum fp pool)
      (List.replicate (expandNum fp pool - 1) none) none pool with
    ⟨ids, nodes, result, later, ran, grown, length, first, nulls, perm, made⟩ |
    ⟨ids, what, later, ran, grown, -, early⟩
  swap
  · erw [bind_error ran]
    exact .notCreated what ready empty positive grown early
  erw [bind_ok ran]
  cases result with
  | none =>
    rw [throwIf_throw_bind rfl]
    have early : ids = [] ↔ outcome 0 = .createThrows := by
      constructor
      · intro none
        rw [none, List.length_nil] at length
        exact absurd length positive.ne
      · intro threw
        exact absurd threw (first positive)
    exact .notCreated _ ready empty positive grown early
  | some id =>
    have several : 1 < expandNum fp pool := by
      by_contra one
      have one : expandNum fp pool = 1 := by omega
      rw [one] at ran
      exact absurd (expandLoop_one _ _ _ ran) (by simp)
    have perm : (nodes.reduceOption ++ [id]).Perm ids := by
      simpa [List.reduceOption] using perm (.inr rfl)
    obtain ⟨-, element, alive⟩ := grown.created (perm.mem_iff.mp (by simp : id ∈ _))
    rw [throwIf_bind (by simp), bind_ok (emplaceAll_free (by rw [grown.frame]; exact free) nodes)]
    simp only [modify_bind]
    rw [bind_ok (onAcquire_idle (by exact alive) rfl),
      bind_ok (callHook_alive type.initial (AList.lookup_insert _))]
    have empty' : later.queue = [] := by rw [grown.frame]; exact empty
    simpa [setNode, taken, AList.insert_insert, empty'] using
      Acquisition.expanded ready empty several (first positive) grown nulls perm alive made

/-- The inversion lemma of `AcquireNode`. -/
theorem acquireNode_cases (fp : Rounding) (discipline : Discipline) (type : RecycleType E)
    (outcome : Nat → Creation) (free : pool.held = []) :
    Acquisition fp type outcome pool (acquireNode fp discipline type outcome pool) := by
  simp only [acquireNode, get_bind]
  by_cases idle : pool.usage < 0
  · rw [throwIf_throw_bind idle]
    exact .uninitialised idle
  have ready : 0 ≤ pool.usage := by omega
  rw [throwIf_bind idle]
  have start : withLock discipline .exclusive (acquireFront type) pool = _ := withLock_free free
  rcases queue : pool.queue with _ | ⟨pointer, rest⟩
  · have front : acquireFront type { pool with held := [.exclusive] } =
      .ok none { pool with held := [.exclusive] } := by simp [acquireFront, queue]
    rw [front, close_ok] at start
    rw [bind_ok start]
    have same : unlock { pool with held := [.exclusive] } = pool := by simp [unlock, ← free]
    rw [same]
    exact expand_cases free ready queue
  by_cases dead : ∀ id, pointer = some id → pool.nodes.lookup id = none
  · rw [acquireFront_dead (by exact queue) (by exact dead), close_undefined] at start
    rw [bind_error start]
    exact .broken ready queue dead
  push Not at dead
  obtain ⟨id, rfl, found⟩ := dead
  obtain ⟨node, alive⟩ := Option.ne_none_iff_exists'.mp found
  by_cases idle : node.refCount = recycledReferenceCount
  · rw [acquireFront_live (by exact queue) (by exact alive) idle, close_ok] at start
    rw [bind_ok start]
    simpa [taken, unlock, free] using Acquisition.front ready queue alive idle
  · rw [acquireFront_used (by exact queue) (by exact alive) idle, close_exception] at start
    rw [bind_error start]
    simpa [unlock, free] using Acquisition.used ready queue alive idle

end acquire

section initial
variable {outcome : Nat → Creation}

theorem Grown.requeue {ids : List NodeId} {later : Recycler E} (grown : Grown pool ids later)
    (queue : List (Option NodeId)) :
    Grown { pool with queue := queue } ids { later with queue := queue } := by
  induction grown with
  | same pool => exact .same _
  | more element grown ih => exact .more element ih

/-- The loop of `Initial` queues every node it creates, up to one whose
`OnCreate` throws. -/
theorem initialLoop_cases (type : RecycleType E) (outcome : Nat → Creation) (count left : Nat)
    (pool : Recycler E) :
    ∃ ids created later, Grown pool ids later ∧ created <+: ids ∧
      (∀ id ∈ created, later.nodes.lookup id = some (createdNode type)) ∧
      (initialLoop type outcome count left pool =
          .ok () { later with queue := pool.queue ++ created.map some } ∧
        created = ids ∧ ids.length = left ∨
      ∃ what, initialLoop type outcome count left pool = .error (.exception what)
        { later with queue := pool.queue ++ created.map some }) := by
  induction left generalizing count pool with
  | zero =>
    exact ⟨[], [], pool, .same pool, List.prefix_refl _, by simp, .inl (by simp [initialLoop])⟩
  | succ left ih =>
    cases made : outcome count with
    | createThrows =>
      refine ⟨[], [], pool, .same pool, List.prefix_refl _, by simp, .inr ⟨"CreateNode", ?_⟩⟩
      rw [initialLoop, made, bind_error createElement_createThrows]
      simp
    | onCreateThrows =>
      refine ⟨[pool.nextNode], [], _, .more type.construct (.same _), List.nil_prefix, by simp,
        .inr ⟨"OnCreate", ?_⟩⟩
      rw [initialLoop, made, bind_error createElement_onCreateThrows]
      simp [allocated]
    | made =>
      rw [initialLoop, made, bind_ok createElement_made]
      simp only [modify_bind]
      obtain ⟨ids, created, later, grown, before, made, ended⟩ := ih (count + 1)
        { allocated pool (type.onCreate type.construct) with
          queue := pool.queue ++ [some pool.nextNode] }
      have grown := grown.requeue pool.queue
      refine ⟨pool.nextNode :: ids, pool.nextNode :: created, _,
        .more (type.onCreate type.construct) grown, List.prefix_cons_inj _ |>.mpr before,
        grown.forall_created made, ?_⟩
      rcases ended with ⟨ran, rfl, length⟩ | ⟨what, ran⟩
      · left
        constructor
        · simpa [allocated] using ran
        · exact ⟨rfl, by simp [length]⟩
      · right
        exact ⟨what, by simpa [allocated] using ran⟩

end initial

end Uranus.Recycler
