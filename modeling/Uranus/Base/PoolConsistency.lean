import Uranus.Base.HandleEffect

/-! Each effect of a step keeps the counts of the pool in order. -/
namespace Uranus
open Foundation Program
variable {E : Type} {fp : Rounding} {discipline : Discipline} {type : RecycleType E}

namespace Recycler
variable {pool later : Recycler E} {refs rest : Multiset NodeId} {id : NodeId}
  {node other : ElementNode E}

theorem Fresh.below (fresh : Fresh pool) (alive : pool.nodes.lookup id = some node) :
    id < pool.nextNode := by
  by_contra above
  exact absurd ((fresh id (Nat.le_of_not_lt above)).symm.trans alive) (by simp)

theorem Fresh.setNode (fresh : Fresh pool) (alive : pool.nodes.lookup id = some node)
    (value : ElementNode E) : Fresh (pool.setNode id value) := by
  intro above bound
  have below := fresh.below alive
  have differs : above ≠ id := by
    rintro rfl
    exact absurd bound (Nat.not_le_of_lt below)
  exact (AList.lookup_insert_ne differs).trans (fresh above bound)

theorem Fresh.without (fresh : Fresh pool) (id : NodeId) : Fresh (pool.without id) := by
  intro above bound
  have gone := fresh above bound
  rw [Recycler.without, Table.lookup_erase_ite]
  split
  · rfl
  · exact gone

theorem Popped.fresh {ids : List NodeId} (popped : Popped pool ids later) (fresh : Fresh pool) :
    Fresh later := by
  induction popped with
  | done pool => exact fresh
  | next queue alive popped ih => exact ih (fresh.without _)

theorem reduceOption_map_some (ids : List NodeId) : (ids.map some).reduceOption = ids := by
  simp [List.reduceOption, List.filterMap_map]

theorem Popped.reduceOption {ids : List NodeId} (popped : Popped pool ids later) :
    pool.queue.reduceOption = ids ++ later.queue.reduceOption := by
  rw [popped.queue_eq, List.reduceOption_append, reduceOption_map_some]

namespace Consistent

/-- A node in use is not in the queue. -/
theorem absent (consistent : Consistent pool refs) (used : id ∈ refs) : some id ∉ pool.queue := by
  intro queued
  obtain ⟨node, alive, count⟩ := consistent.counted id used
  obtain ⟨other, found, idle⟩ := consistent.idle id queued
  cases alive.symm.trans found
  rw [count, recycledReferenceCount] at idle
  omega

/-- Giving a node in use another count and another element. -/
theorem setNode (consistent : Consistent pool refs) {refs' : Multiset NodeId}
    (used : id ∈ refs) (value : ElementNode E) (event : List NodeEvent)
    (count : id ∈ refs' → value.refCount = refs'.count id)
    (others : ∀ id', id' ≠ id → refs'.count id' = refs.count id')
    (card : refs'.toFinset.card ≤ refs.toFinset.card) :
    Consistent { pool with nodes := pool.nodes.insert id value, log := event } refs' where
  free := consistent.free
  fresh := by
    obtain ⟨node, alive, -⟩ := consistent.counted id used
    exact consistent.fresh.setNode alive value
  counted id' member := by
    rw [Table.lookup_insert_ite]
    split
    next same =>
      subst same
      exact ⟨value, rfl, count member⟩
    next differs =>
      have same := others id' differs
      obtain ⟨node, alive, counts⟩ := consistent.counted id' (by
        rw [← Multiset.count_pos, ← same]
        exact Multiset.count_pos.mpr member)
      exact ⟨node, alive, by rw [counts, same]⟩
  idle id' queued := by
    have differs : id' ≠ id := by
      rintro rfl
      exact consistent.absent used queued
    obtain ⟨node, alive, idle⟩ := consistent.idle id' queued
    exact ⟨node, (AList.lookup_insert_ne differs).trans alive, idle⟩
  distinct := consistent.distinct
  used some := by
    have bound := consistent.used (by
      rintro rfl
      simp at used)
    change _ ≤ pool.usage
    omega

theorem shared (consistent : Consistent pool refs) (used : id ∈ refs)
    (alive : pool.nodes.lookup id = some node) :
    Consistent ((pool.record (.increased id node.refCount)).setNode id
      { node with refCount := node.refCount + 1 }) (id ::ₘ refs) := by
  apply consistent.setNode used
  · intro _
    obtain ⟨other, found, count⟩ := consistent.counted id used
    cases alive.symm.trans found
    simp [count]
  · intro id' differs
    exact Multiset.count_cons_of_ne differs refs
  · rw [Multiset.toFinset_cons, Finset.insert_eq_self.mpr (Multiset.mem_toFinset.mpr used)]

theorem dropped (consistent : Consistent pool (id ::ₘ rest))
    (alive : pool.nodes.lookup id = some node) :
    Consistent (pool.setNode id { node with refCount := node.refCount - 1 }) rest := by
  apply consistent.setNode (Multiset.mem_cons_self id rest)
  · intro _
    obtain ⟨other, found, count⟩ := consistent.counted id (Multiset.mem_cons_self id rest)
    cases alive.symm.trans found
    simp [count]
  · intro id' differs
    exact (Multiset.count_cons_of_ne differs rest).symm
  · exact Finset.card_le_card (by rw [Multiset.toFinset_cons]; exact Finset.subset_insert _ _)

theorem edited (consistent : Consistent pool refs) (used : id ∈ refs)
    (alive : pool.nodes.lookup id = some node) (element : E) :
    Consistent (pool.setNode id { node with element := element }) refs := by
  apply consistent.setNode used _ _ _ (fun _ _ => rfl) le_rfl
  intro _
  obtain ⟨other, found, count⟩ := consistent.counted id used
  cases alive.symm.trans found
  exact count

/-- A count of one belongs to the only handle. -/
theorem last (consistent : Consistent pool (id ::ₘ rest))
    (alive : pool.nodes.lookup id = some node) (one : node.refCount = 1) : id ∉ rest := by
  obtain ⟨other, found, count⟩ := consistent.counted id (Multiset.mem_cons_self id rest)
  cases alive.symm.trans found
  rw [Multiset.count_cons_self] at count
  rw [← Multiset.count_eq_zero]
  omega

theorem still (consistent : Consistent pool (id ::ₘ rest))
    (alive : pool.nodes.lookup id = some node) (more : node.refCount ≠ 1) : id ∈ rest := by
  obtain ⟨other, found, count⟩ := consistent.counted id (Multiset.mem_cons_self id rest)
  cases alive.symm.trans found
  rw [Multiset.count_cons_self] at count
  rw [← Multiset.count_pos]
  omega

theorem used_last (consistent : Consistent pool (id ::ₘ rest)) (absent : id ∉ rest) :
    (rest.toFinset.card : Int) + 1 ≤ pool.usage := by
  have bound := consistent.used (by simp)
  rw [Multiset.toFinset_cons,
    Finset.card_insert_of_notMem (by rwa [Multiset.mem_toFinset])] at bound
  exact_mod_cast bound

theorem counted_rest (consistent : Consistent pool (id ::ₘ rest)) (absent : id ∉ rest)
    {id' : NodeId} (member : id' ∈ rest) : id' ≠ id ∧
      ∃ node, pool.nodes.lookup id' = some node ∧ node.refCount = rest.count id' := by
  have differs : id' ≠ id := by
    rintro rfl
    exact absent member
  obtain ⟨node, alive, count⟩ := consistent.counted id' (Multiset.mem_cons_of_mem member)
  exact ⟨differs, node, alive, by rw [count, Multiset.count_cons_of_ne differs]⟩

theorem recycled (consistent : Consistent pool (id ::ₘ rest))
    (alive : pool.nodes.lookup id = some node) (one : node.refCount = 1) :
    Consistent (queued pool id node) rest := by
  have absent := consistent.last alive one
  have unqueued := consistent.absent (Multiset.mem_cons_self id rest)
  refine ⟨consistent.free, consistent.fresh.setNode alive _, ?_, ?_, ?_, ?_⟩
  · intro id' member
    obtain ⟨differs, node, alive, count⟩ := consistent.counted_rest absent member
    exact ⟨node, (AList.lookup_insert_ne differs).trans alive, count⟩
  · intro id' member
    by_cases same : id' = id
    · subst same
      exact ⟨_, AList.lookup_insert _, rfl⟩
    · have member : some id' ∈ pool.queue := by simpa [queued, same] using member
      obtain ⟨node, alive, idle⟩ := consistent.idle id' member
      exact ⟨node, (AList.lookup_insert_ne same).trans alive, idle⟩
  · rw [queued, List.reduceOption_append]
    apply List.Nodup.append consistent.distinct (List.nodup_singleton id)
    intro id' member same
    cases List.mem_singleton.mp same
    exact unqueued (List.reduceOption_mem_iff.mp member)
  · intro _
    have bound := consistent.used_last absent
    simp only [queued]
    omega

theorem destroyed (consistent : Consistent pool (id ::ₘ rest))
    (alive : pool.nodes.lookup id = some node) (one : node.refCount = 1) :
    Consistent (pool.without id) rest := by
  have absent := consistent.last alive one
  have unqueued := consistent.absent (Multiset.mem_cons_self id rest)
  refine ⟨consistent.free, consistent.fresh.without id, ?_, ?_, consistent.distinct, ?_⟩
  · intro id' member
    obtain ⟨differs, node, alive, count⟩ := consistent.counted_rest absent member
    exact ⟨node, (AList.lookup_erase_ne differs).trans alive, count⟩
  · intro id' member
    have differs : id' ≠ id := by
      rintro rfl
      exact unqueued member
    obtain ⟨node, alive, idle⟩ := consistent.idle id' member
    exact ⟨node, (AList.lookup_erase_ne differs).trans alive, idle⟩
  · intro _
    have bound := consistent.used_last absent
    simp only [without, record]
    omega

theorem popped {ids : List NodeId} (consistent : Consistent pool refs)
    (popped : Popped pool ids later) : Consistent later refs := by
  have split := popped.queue_eq
  have distinct := consistent.distinct
  rw [popped.reduceOption] at distinct
  have queue {id : NodeId} (member : id ∈ ids) : some id ∈ pool.queue := by
    rw [split]
    exact List.mem_append_left _ (List.mem_map_of_mem member)
  refine ⟨by rw [popped.frame]; exact consistent.free, ?_, ?_, ?_, ?_, ?_⟩
  · exact popped.fresh consistent.fresh
  · intro id used
    obtain ⟨node, alive, count⟩ := consistent.counted id used
    have kept := popped.lookup_other fun member => consistent.absent used (queue member)
    exact ⟨node, kept.trans alive, count⟩
  · intro id member
    obtain ⟨node, alive, idle⟩ := consistent.idle id (by simp [split, member])
    have other : id ∉ ids := by
      intro gone
      exact List.disjoint_of_nodup_append distinct gone (List.reduceOption_mem_iff.mpr member)
    exact ⟨node, (popped.lookup_other other).trans alive, idle⟩
  · exact distinct.of_append_right
  · rw [popped.frame]
    exact consistent.used

theorem grown {ids : List NodeId} {queue : List (Option NodeId)} {usage : Int}
    (consistent : Consistent pool refs) (grown : Grown pool ids later)
    (known : ∀ id, some id ∈ queue → some id ∈ pool.queue ∨ id ∈ ids)
    (distinct : queue.reduceOption.Nodup)
    (used : refs ≠ 0 → (refs.toFinset.card : Int) ≤ usage) :
    Consistent { later with queue := queue, usage := usage } refs := by
  refine ⟨?_, grown.fresh consistent.fresh, ?_, ?_, distinct, used⟩
  · rw [grown.frame]
    exact consistent.free
  · intro id member
    obtain ⟨node, alive, count⟩ := consistent.counted id member
    exact ⟨node, (grown.lookup_old (consistent.fresh.below alive)).trans alive, count⟩
  · intro id member
    rcases known id member with old | new
    · obtain ⟨node, alive, idle⟩ := consistent.idle id old
      exact ⟨node, (grown.lookup_old (consistent.fresh.below alive)).trans alive, idle⟩
    · obtain ⟨-, element, alive⟩ := grown.created new
      exact ⟨_, alive, rfl⟩

theorem grown_only {ids : List NodeId} (consistent : Consistent pool refs)
    (grown : Grown pool ids later) : Consistent later refs := by
  have queue : later.queue = pool.queue := by rw [grown.frame]
  have usage : later.usage = pool.usage := by rw [grown.frame]
  apply consistent.grown grown fun id member => .inl (queue ▸ member)
  · rw [queue]
    exact consistent.distinct
  · rw [usage]
    exact consistent.used

/-- The node at the front of the queue becomes the node of one more handle, or of none. -/
theorem taken (type : RecycleType E) {queue : List (Option NodeId)}
    (consistent : Consistent pool refs)
    (ready : 0 ≤ pool.usage) (front : pool.queue = some id :: queue)
    (alive : pool.nodes.lookup id = some node) :
    Consistent (Recycler.taken type pool queue id node) refs ∧
    ∀ event, Consistent ((Recycler.taken type pool queue id node).record event) (id ::ₘ refs) := by
  have unused : id ∉ refs := fun used => consistent.absent used (by simp [front])
  have distinct := consistent.distinct
  rw [front, List.reduceOption_cons_of_some, List.nodup_cons] at distinct
  have fresh := consistent.fresh.setNode alive ⟨1, type.initial node.element⟩
  have counted (id' : NodeId) (member : id' ∈ refs) : id' ≠ id ∧ ∃ other,
      (Recycler.taken type pool queue id node).nodes.lookup id' = some other ∧
        other.refCount = refs.count id' := by
    have differs : id' ≠ id := by
      rintro rfl
      exact unused member
    obtain ⟨node, alive, count⟩ := consistent.counted id' member
    exact ⟨differs, node, (AList.lookup_insert_ne differs).trans alive, count⟩
  have idle (id' : NodeId) (member : some id' ∈ queue) : ∃ other,
      (Recycler.taken type pool queue id node).nodes.lookup id' = some other ∧
        other.refCount = recycledReferenceCount := by
    have differs : id' ≠ id := by
      rintro rfl
      exact distinct.1 (List.reduceOption_mem_iff.mpr member)
    obtain ⟨node, alive, idle⟩ := consistent.idle id' (by simp [front, member])
    exact ⟨node, (AList.lookup_insert_ne differs).trans alive, idle⟩
  have room : (refs.toFinset.card : Int) ≤ pool.usage := by
    by_cases none : refs = 0
    · simpa [none] using ready
    · exact consistent.used none
  refine ⟨⟨consistent.free, fresh, fun id' member => (counted id' member).2, idle, distinct.2, ?_⟩,
    fun event => ⟨consistent.free, fresh, ?_, idle, distinct.2, ?_⟩⟩
  · intro _
    simp only [Recycler.taken]
    omega
  · intro id' member
    rcases Multiset.mem_cons.mp member with rfl | member
    · exact ⟨_, AList.lookup_insert _, by simp [Multiset.count_eq_zero.mpr unused]⟩
    · obtain ⟨differs, node, found, count⟩ := counted id' member
      exact ⟨node, found, by rw [count, Multiset.count_cons_of_ne differs]⟩
  · intro _
    rw [Multiset.toFinset_cons, Finset.card_insert_of_notMem (by rwa [Multiset.mem_toFinset])]
    simp only [Recycler.taken, record]
    push_cast
    omega

end Consistent

theorem Consistent.congr {later : Recycler E} (consistent : Consistent pool refs)
    (held : later.held = pool.held) (queue : later.queue = pool.queue)
    (usage : later.usage = pool.usage) (nodes : later.nodes = pool.nodes)
    (next : later.nextNode = pool.nextNode) : Consistent later refs where
  free := held ▸ consistent.free
  fresh id above := by rw [nodes]; exact consistent.fresh id (next ▸ above)
  counted := by rw [nodes]; exact consistent.counted
  idle := by rw [nodes, queue]; exact consistent.idle
  distinct := by rw [queue]; exact consistent.distinct
  used := by rw [usage]; exact consistent.used

end Recycler

namespace World
variable {w t : World E} {label : Label E} {id : NodeId}

theorem Handed.keeps {target : String} {pool : Recycler E} {refs : Multiset NodeId} {other : NodeId}
    (handed : Handed type target id pool refs t) (used : other ∈ refs) : other ∈ t.refs := by
  cases handed with
  | held castable now same =>
    rw [now]
    exact Multiset.mem_cons_of_mem used
  | lost badCast now same => rwa [now]

theorem Handed.consistent {target : String} {node : ElementNode E} {pool : Recycler E}
    {rest : List (Option NodeId)}
    (handed : Handed type target id (Recycler.taken type pool rest id node) w.refs t)
    (consistent : Recycler.Consistent pool w.refs) (ready : 0 ≤ pool.usage)
    (front : pool.queue = some id :: rest) (alive : pool.nodes.lookup id = some node) :
    Recycler.Consistent t.pool t.refs := by
  obtain ⟨lost, held⟩ := consistent.taken type ready front alive
  cases handed with
  | held castable now same =>
    rw [now, same]
    exact held _
  | lost badCast now same =>
    rw [now, same]
    exact lost

/-- The pool that `expand` takes its result from, as if it were queued with the others. -/
theorem expanded_consistent {pool later : Recycler E} {refs : Multiset NodeId} {ids : List NodeId}
    {nodes : List (Option NodeId)} (consistent : Recycler.Consistent pool refs)
    (grown : Recycler.Grown pool ids later) (perm : (nodes.reduceOption ++ [id]).Perm ids) :
    Recycler.Consistent { later with queue := some id :: nodes } refs := by
  refine (consistent.grown grown ?_ ?_ ?_).congr rfl rfl rfl rfl rfl
  · intro id' member
    right
    apply perm.mem_iff.mp
    rcases List.mem_cons.mp member with same | member
    · cases same
      simp
    · exact List.mem_append_left _ (List.reduceOption_mem_iff.mpr member)
  · rw [List.reduceOption_cons_of_some]
    exact (List.perm_append_singleton id nodes.reduceOption).nodup_iff.mp
      (perm.nodup_iff.mpr grown.nodup)
  · rw [grown.frame]
    exact consistent.used

theorem Effect.consistent (effect : Effect fp type w label t)
    (consistent : Recycler.Consistent w.pool w.refs) : Recycler.Consistent t.pool t.refs := by
  cases effect with
  | quiet settled refs pool =>
    rw [refs]
    apply consistent.congr <;> rw [pool]
  | shared settled used alive refs pool =>
    rw [refs, pool]
    exact consistent.shared used alive
  | dropped settled alive more refs pool =>
    rw [refs] at consistent
    rw [pool]
    exact consistent.dropped alive
  | recycled settled alive last exist refs pool =>
    rw [refs] at consistent
    apply (consistent.recycled alive last).congr <;> rw [pool] <;> rfl
  | destroyed settled alive last gone refs pool =>
    rw [refs] at consistent
    rw [pool]
    exact (consistent.destroyed alive last).congr rfl rfl rfl rfl rfl
  | edited used alive refs pool =>
    rw [refs, pool]
    exact consistent.edited used alive _
  | popped settled exist popped refs pool =>
    rw [refs]
    apply (consistent.popped popped).congr <;> rw [pool]
  | created exist fresh grown before refs usage pool =>
    rw [refs, pool]
    apply consistent.grown grown
    · intro id member
      rcases List.mem_append.mp member with old | new
      · exact .inl old
      · obtain ⟨other, member, same⟩ := List.mem_map.mp new
        cases same
        exact .inr (before.subset member)
    · rw [List.reduceOption_append, Recycler.reduceOption_map_some]
      apply consistent.distinct.append (grown.nodup.sublist before.sublist)
      intro id old new
      obtain ⟨node, alive, -⟩ := consistent.idle id (List.reduceOption_mem_iff.mp old)
      have above := (grown.created (before.subset new)).1
      exact absurd (consistent.fresh.below alive) (Nat.not_lt_of_le above)
    · intro some
      have bound := consistent.used some
      omega
  | refused exist why => exact consistent
  | notCreated exist ready empty some grown early refs =>
    rw [refs]
    exact consistent.grown_only grown
  | front exist ready queue alive handed => exact handed.consistent consistent ready queue alive
  | expanded exist ready empty several first grown nulls perm alive handed =>
    refine Handed.consistent (by exact handed) (expanded_consistent consistent grown perm) ?_ rfl
      (by exact alive)
    rw [grown.frame]
    exact ready

/-- Where the last handle of a node goes away, the node is queued again, or deleted
once the recycler is gone. -/
theorem Effect.released (effect : Effect fp type w label t)
    (consistent : Recycler.Consistent w.pool w.refs) {id : NodeId} (used : id ∈ w.refs)
    (unused : id ∉ t.refs) : ∃ node, w.pool.nodes.lookup id = some node ∧
      (w.pool.control.recycler = true ∧
          t.pool = { (Recycler.queued w.pool id node).record (.handedBack id) with
            shrinking := t.pool.shrinking, shrinkTimers := t.pool.shrinkTimers } ∨
        w.pool.control.recycler = false ∧
          t.pool = (w.pool.without id).record (.handedBack id)) := by
  have lost : w.refs ≠ t.refs := fun same => unused (same ▸ used)
  cases effect with
  | quiet settled refs pool => exact absurd refs.symm lost
  | shared settled also alive refs pool =>
    rw [refs] at unused
    exact absurd (Multiset.mem_cons_of_mem used) unused
  | dropped settled alive more refs pool =>
    rw [refs] at used consistent
    cases (Multiset.mem_cons.mp used).resolve_right unused
    exact absurd (consistent.still alive more) unused
  | recycled settled alive last exist refs pool =>
    rw [refs] at used
    cases (Multiset.mem_cons.mp used).resolve_right unused
    exact ⟨_, alive, .inl ⟨exist, pool⟩⟩
  | destroyed settled alive last gone refs pool =>
    rw [refs] at used
    cases (Multiset.mem_cons.mp used).resolve_right unused
    exact ⟨_, alive, .inr ⟨gone, pool⟩⟩
  | edited used alive refs pool => exact absurd refs.symm lost
  | popped settled exist popped refs pool => exact absurd refs.symm lost
  | created exist fresh grown before refs usage pool => exact absurd refs.symm lost
  | refused exist why => exact absurd rfl lost
  | notCreated exist ready empty some grown early refs => exact absurd refs.symm lost
  | front exist ready queue alive handed => exact absurd (handed.keeps used) unused
  | expanded exist ready empty several first grown nulls perm alive handed =>
    exact absurd (handed.keeps used) unused

theorem Sound.step (sound : Sound w) (stepped : step fp discipline type w label t) : Sound t := by
  obtain ⟨effect, aligned⟩ := step_effect sound stepped
  exact ⟨effect.consistent sound.toConsistent, aligned⟩

/-- `Initial` on a new recycler, as a step. -/
theorem step_initial (fp : Rounding) (discipline : Discipline) {outcome : Nat → Creation} {c : Nat}
    {pool : Recycler E} (initial : Recycler.initial type outcome c Recycler.new = .ok () pool) :
    World.step fp discipline type World.new (.initial outcome c) ⟨pool, ∅⟩ := by
  have ran := (onRecycler_alive (w := World.new) rfl).trans (onPool_ok initial)
  exact ⟨trivial, .inl ⟨(), ran⟩⟩

end World
end Uranus
