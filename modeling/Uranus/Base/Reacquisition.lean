import Uranus.Base.PoolConsistency

/-! The element of an idle node. From the release of its last handle to its next
acquisition nothing touches it, so the new owner meets what the old one left,
as `Initial` changes it. -/
namespace Uranus
open Foundation Program
variable {E : Type} {fp : Rounding} {discipline : Discipline} {type : RecycleType E}

namespace World
variable {w t : World E} {label : Label E} {id : NodeId} {element : E}

/-- A node that nobody uses and that, if it is queued, holds `element`. -/
structure Idle (id : NodeId) (element : E) (w : World E) : Prop where
  old : id < w.pool.nextNode
  unused : id ∉ w.refs
  queued : some id ∈ w.pool.queue →
    ∃ node, w.pool.nodes.lookup id = some node ∧ node.element = element

/-- Releasing the last handle leaves the element as it is. -/
theorem Effect.idle (effect : Effect fp type w label t)
    (consistent : Recycler.Consistent w.pool w.refs) {node : ElementNode E}
    (alive : w.pool.nodes.lookup id = some node) (used : id ∈ w.refs) (unused : id ∉ t.refs) :
    Idle id node.element t := by
  have old := consistent.fresh.below alive
  have absent := consistent.absent used
  obtain ⟨other, found, ⟨exist, pool⟩ | ⟨gone, pool⟩⟩ := effect.released consistent used unused
  · cases alive.symm.trans found
    constructor
    · rw [pool]
      exact old
    · exact unused
    · intro _
      rw [pool]
      exact ⟨_, AList.lookup_insert _, rfl⟩
  · constructor
    · rw [pool]
      exact old
    · exact unused
    · intro queued
      rw [pool] at queued
      exact absurd queued absent

theorem Idle.keep (idle : Idle id element w) (unused : id ∉ t.refs)
    (next : w.pool.nextNode ≤ t.pool.nextNode)
    (same : some id ∈ t.pool.queue →
      some id ∈ w.pool.queue ∧ t.pool.nodes.lookup id = w.pool.nodes.lookup id) :
    Idle id element t := by
  constructor
  · exact Nat.lt_of_lt_of_le idle.old next
  · exact unused
  · intro queued
    obtain ⟨before, lookup⟩ := same queued
    rw [lookup]
    exact idle.queued before

/-- Steps that do not acquire the node leave it alone. -/
theorem Idle.step (idle : Idle id element w) (effect : Effect fp type w label t)
    (consistent : Recycler.Consistent w.pool w.refs) (unused : id ∉ t.refs) :
    Idle id element t := by
  have differs {id' : NodeId} (used : id' ∈ w.refs) : id ≠ id' := by
    rintro rfl
    exact idle.unused used
  cases effect with
  | quiet settled refs pool =>
    apply idle.keep unused <;> rw [pool]
    exact fun queued => ⟨queued, rfl⟩
  | shared settled used alive refs pool =>
    apply idle.keep unused <;> rw [pool]
    · rfl
    · exact fun queued => ⟨queued, AList.lookup_insert_ne (differs used)⟩
  | dropped settled alive more refs pool =>
    have other := differs (refs ▸ Multiset.mem_cons_self _ _)
    apply idle.keep unused <;> rw [pool]
    · rfl
    · exact fun queued => ⟨queued, AList.lookup_insert_ne other⟩
  | recycled settled alive last exist refs pool =>
    have other := differs (refs ▸ Multiset.mem_cons_self _ _)
    apply idle.keep unused <;> rw [pool]
    · rfl
    · intro queued
      constructor
      · simpa [Recycler.queued, Recycler.record, other] using queued
      · exact AList.lookup_insert_ne other
  | destroyed settled alive last gone refs pool =>
    have other := differs (refs ▸ Multiset.mem_cons_self _ _)
    apply idle.keep unused <;> rw [pool]
    · rfl
    · exact fun queued => ⟨queued, AList.lookup_erase_ne other⟩
  | edited used alive refs pool =>
    apply idle.keep unused <;> rw [pool]
    · rfl
    · exact fun queued => ⟨queued, AList.lookup_insert_ne (differs used)⟩
  | @popped _ _ ids later settled exist popped refs pool =>
    have distinct := consistent.distinct
    rw [popped.reduceOption] at distinct
    apply idle.keep unused <;> rw [pool]
    · rw [popped.frame]
    · intro queued
      constructor
      · rw [popped.queue_eq]
        exact List.mem_append_right _ queued
      · apply popped.lookup_other
        intro gone
        exact List.disjoint_of_nodup_append distinct gone (List.reduceOption_mem_iff.mpr queued)
  | created exist fresh grown before refs usage pool =>
    apply idle.keep unused <;> rw [pool]
    · exact grown.next ▸ Nat.le_add_right _ _
    · intro queued
      apply And.intro _ (grown.lookup_old idle.old)
      rcases List.mem_append.mp queued with old | new
      · exact old
      · obtain ⟨other, member, same⟩ := List.mem_map.mp new
        cases same
        have above := (grown.created (before.subset member)).1
        exact absurd idle.old (Nat.not_lt_of_le above)
  | refused exist why => exact idle
  | notCreated exist ready empty some grown early refs =>
    apply idle.keep unused (grown.next ▸ Nat.le_add_right _ _)
    intro queued
    have queue : t.pool.queue = w.pool.queue := by rw [grown.frame]
    exact ⟨queue ▸ queued, grown.lookup_old idle.old⟩
  | @front _ _ _ _ first rest node exist ready queue alive handed =>
    have distinct := consistent.distinct
    rw [queue, List.reduceOption_cons_of_some, List.nodup_cons] at distinct
    have kept (queued : some id ∈ rest) : some id ∈ w.pool.queue ∧
        (w.pool.nodes.insert first ⟨1, type.initial node.element⟩).lookup id =
          w.pool.nodes.lookup id := by
      have other : id ≠ first := by
        rintro rfl
        exact distinct.1 (List.reduceOption_mem_iff.mpr queued)
      exact ⟨by simp [queue, queued], AList.lookup_insert_ne other⟩
    cases handed with
    | held castable now same | lost badCast now same =>
      apply idle.keep unused <;> rw [same]
      · rfl
      · exact kept
  | @expanded _ _ _ _ ids later nodes first node exist ready empty several early grown nulls perm
      alive handed =>
    have next : w.pool.nextNode ≤ later.nextNode := grown.next ▸ Nat.le_add_right _ _
    have absent : some id ∉ nodes := by
      intro queued
      have member := List.mem_append_left [first] (List.reduceOption_mem_iff.mpr queued)
      exact absurd idle.old (Nat.not_lt_of_le (grown.created (perm.mem_iff.mp member)).1)
    cases handed with
    | held castable now same | lost badCast now same =>
      apply idle.keep unused <;> rw [same]
      · exact next
      · exact fun queued => absurd queued absent

/-- The step that takes an idle node into use hands out its element, initialised. -/
theorem Idle.acquired (idle : Idle id element w) (effect : Effect fp type w label t)
    (used : id ∈ t.refs) : t.pool.nodes.lookup id = some ⟨1, type.initial element⟩ := by
  have gained : w.refs ≠ t.refs := fun same => idle.unused (same ▸ used)
  cases effect with
  | quiet settled refs pool => exact absurd refs.symm gained
  | shared settled also alive refs pool =>
    rw [refs] at used
    rcases Multiset.mem_cons.mp used with rfl | used
    · exact absurd also idle.unused
    · exact absurd used idle.unused
  | dropped settled alive more refs pool | recycled settled alive last exist refs pool
  | destroyed settled alive last gone refs pool =>
    exact absurd (refs ▸ Multiset.mem_cons_of_mem used) idle.unused
  | edited used alive refs pool => exact absurd refs.symm gained
  | popped settled exist popped refs pool => exact absurd refs.symm gained
  | created exist fresh grown before refs usage pool => exact absurd refs.symm gained
  | refused exist why => exact absurd rfl gained
  | notCreated exist ready empty some grown early refs => exact absurd refs.symm gained
  | front exist ready queue alive handed =>
    cases handed with
    | lost badCast now same => exact absurd now.symm gained
    | held castable now same =>
      rw [now] at used
      cases (Multiset.mem_cons.mp used).resolve_right idle.unused
      obtain ⟨node, found, holds⟩ := idle.queued (by simp [queue])
      cases alive.symm.trans found
      rw [same, ← holds]
      exact AList.lookup_insert _
  | expanded exist ready empty several early grown nulls perm alive handed =>
    cases handed with
    | lost badCast now same => exact absurd now.symm gained
    | held castable now same =>
      rw [now] at used
      cases (Multiset.mem_cons.mp used).resolve_right idle.unused
      have member := perm.mem_iff.mp (List.mem_append_right _ (List.mem_singleton_self id))
      exact absurd idle.old (Nat.not_lt_of_le (grown.created member).1)

/-- From the release of a node to its next acquisition, along any run. -/
theorem reacquired_element {before between : List (Label E × World E)} {release acquire : Label E}
    {u : World E} {node : ElementNode E}
    (run : Transition.Path (World.step fp discipline type) World.new
      (before ++ (release, u) :: (between ++ [(acquire, t)])))
    (alive : (Transition.last World.new before).pool.nodes.lookup id = some node)
    (used : id ∈ (Transition.last World.new before).refs) (released : id ∉ u.refs)
    (idle : Transition.Always (fun v => id ∉ v.refs) u between) (reacquired : id ∈ t.refs) :
    t.pool.nodes.lookup id = some ⟨1, type.initial node.element⟩ := by
  obtain ⟨start, moved, rest⟩ := Transition.path_append.mp run
  obtain ⟨middle, final, -⟩ := Transition.path_append.mp rest
  have sound : Sound (Transition.last World.new before) := by
    apply Transition.Always.last
    apply start.invariant _ Sound.new
    intro w label t sound stepped
    exact sound.step stepped
  have left := (step_effect sound moved).1.idle sound.toConsistent alive used released
  have kept : Transition.Always (fun v => Sound v ∧ Idle id node.element v) u between := by
    apply middle.always_through _ ⟨sound.step moved, left⟩ idle
    intro w label t holds stepped unused
    have effect := (step_effect holds.1 stepped).1
    exact ⟨holds.1.step stepped, holds.2.step effect holds.1.toConsistent unused⟩
  obtain ⟨sound, idle⟩ := kept.last
  exact idle.acquired (step_effect sound final).1 reacquired

end World
end Uranus
