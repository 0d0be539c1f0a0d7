import Uranus.Base.ControlCount
import Uranus.Base.FailedAcquire
import Uranus.Base.HandleCount
import Uranus.Foundation.Reach

/-! The lifetime of the control block, over every order in which handles are
released and the recycler is destroyed. A node that is lost stays lost, and then
the block is never deleted. -/
namespace Uranus
open Foundation Program
variable {E : Type} {fp : Rounding} {discipline : Discipline} {type : RecycleType E}

namespace World
variable {w t : World E} {label : Label E}

/-- The steps that create no node. -/
def Releases : Label E → Prop
  | .initial .. | .acquire .. => False
  | _ => True

instance : DecidablePred (Releases (E := E)) := fun label =>
  match label with
  | .initial .. | .acquire .. => .isFalse fun no => no
  | .null _ | .copy .. | .move .. | .castTo .. | .swap .. | .destruct _ | .edit .. | .shrink
  | .onShrinkTimer _ | .configure .. | .destroy => .isTrue trivial

/-- The node is owned, or it does not exist. -/
def Accounted (w : World E) (id : NodeId) : Prop :=
  w.Owned id ∨ w.pool.nodes.lookup id = none

theorem unlost_iff_accounted : Unlost w ↔ ∀ id, w.Accounted id :=
  forall_congr' fun _ => or_iff_not_imp_right.symm

/-- What a step that creates no node leaves: what was lost stays lost and nothing
else becomes so, and no null pointer is queued. -/
structure Keeps (w t : World E) : Prop where
  nextNode : t.pool.nextNode = w.pool.nextNode
  accounted : ∀ id, t.Accounted id ↔ w.Accounted id
  nonNull : none ∉ w.pool.queue → none ∉ t.pool.queue

theorem Keeps.refl (w : World E) : Keeps w w := ⟨rfl, fun _ => Iff.rfl, fun nonNull => nonNull⟩

theorem Keeps.trans {u : World E} (first : Keeps w t) (second : Keeps t u) : Keeps w u :=
  ⟨second.nextNode.trans first.nextNode,
    fun id => (second.accounted id).trans (first.accounted id),
    fun nonNull => second.nonNull (first.nonNull nonNull)⟩

/-- One node changes, and what is idle or in use is what was. -/
theorem Keeps.insert {id : NodeId} {node value : ElementNode E}
    (alive : w.pool.nodes.lookup id = some node) (nextNode : t.pool.nextNode = w.pool.nextNode)
    (nodes : t.pool.nodes = w.pool.nodes.insert id value)
    (owned : ∀ other, t.Owned other ↔ w.Owned other)
    (nonNull : none ∉ w.pool.queue → none ∉ t.pool.queue) : Keeps w t := by
  refine ⟨nextNode, ?_, nonNull⟩
  intro other
  apply or_congr (owned other)
  rw [nodes, Table.lookup_insert_ite]
  split
  next same =>
    subst same
    simp [alive]
  next => exact Iff.rfl

/-- One node changes in its place, and the nodes that have a handle are those that had one. -/
theorem Keeps.inPlace {id : NodeId} {node value : ElementNode E}
    (alive : w.pool.nodes.lookup id = some node)
    (pool : t.pool.nextNode = w.pool.nextNode ∧ t.pool.queue = w.pool.queue ∧
      t.pool.nodes = w.pool.nodes.insert id value)
    (refs : ∀ other, other ∈ t.refs ↔ other ∈ w.refs) : Keeps w t := by
  obtain ⟨nextNode, queue, nodes⟩ := pool
  apply Keeps.insert alive nextNode nodes
  · intro other
    unfold Owned
    rw [queue]
    exact or_congr_right (refs other)
  · rw [queue]
    exact fun nonNull => nonNull

theorem mem_cons_of_used {refs : Multiset NodeId} {id other : NodeId} (used : id ∈ refs) :
    other ∈ id ::ₘ refs ↔ other ∈ refs := by
  rw [Multiset.mem_cons, or_iff_right_iff_imp]
  rintro rfl
  exact used

theorem Effect.keeps (effect : Effect fp type w label t)
    (consistent : Recycler.Consistent w.pool w.refs) (releases : Releases label) : Keeps w t := by
  cases effect with
  | quiet settled refs pool =>
    constructor
    · rw [pool]
    · intro id
      unfold Accounted Owned
      rw [refs, pool]
    · rw [pool]
      exact fun nonNull => nonNull
  | shared settled used alive refs pool =>
    apply Keeps.inPlace alive (by rw [pool]; exact ⟨rfl, rfl, rfl⟩)
    intro other
    rw [refs]
    exact mem_cons_of_used used
  | dropped settled alive more refs pool =>
    rw [refs] at consistent
    apply Keeps.inPlace alive (by rw [pool]; exact ⟨rfl, rfl, rfl⟩)
    intro other
    rw [refs]
    exact (mem_cons_of_used (consistent.still alive more)).symm
  | @recycled _ _ id _ settled alive last exist refs pool =>
    apply Keeps.insert alive (by rw [pool]; rfl) (by rw [pool]; rfl)
    · intro other
      unfold Owned
      rw [refs, pool]
      simp only [Recycler.record, Recycler.queued, List.mem_append, List.mem_singleton,
        Option.some.injEq, Multiset.mem_cons, or_assoc]
    · rw [pool]
      simp [Recycler.record, Recycler.queued]
  | @destroyed _ _ id _ settled alive last gone refs pool =>
    constructor
    · rw [pool]
      rfl
    · intro other
      unfold Accounted Owned
      rw [refs, pool]
      simp only [Recycler.record, Recycler.without, Table.lookup_erase_ite, Multiset.mem_cons]
      by_cases same : other = id
      · simp [same]
      · simp [same]
    · rw [pool]
      exact fun nonNull => nonNull
  | edited used alive refs pool =>
    apply Keeps.inPlace alive (by rw [pool]; exact ⟨rfl, rfl, rfl⟩)
    intro other
    rw [refs]
  | @popped _ _ ids later settled exist popped refs pool =>
    have queue := popped.queue_eq
    constructor
    · rw [pool, popped.frame]
    · intro other
      unfold Accounted Owned
      rw [refs, pool, queue]
      simp only [List.mem_append, List.mem_map, Option.some.injEq, exists_eq_right]
      by_cases member : other ∈ ids
      · simp [member, popped.gone member]
      · simp only [member, false_or]
        rw [popped.lookup_other member]
    · rw [pool, queue]
      exact fun nonNull null => nonNull (List.mem_append_right _ null)
  | created | refused | notCreated | front | expanded => exact releases.elim

theorem map_some_reduceOption {queue : List (Option NodeId)} (nonNull : none ∉ queue) :
    queue.reduceOption.map some = queue := by
  induction queue with
  | nil => rfl
  | cons pointer queue ih =>
    cases pointer with
    | none => exact absurd List.mem_cons_self nonNull
    | some id =>
      rw [List.reduceOption_cons_of_some, List.map_cons,
        ih fun null => nonNull (List.mem_cons_of_mem _ null)]

/-- Without a null pointer in its queue the recycler can be destroyed. -/
theorem destroy_returns (sound : Sound w) (living : w.pool.control.recycler = true)
    (nonNull : none ∉ w.pool.queue) :
    ∃ t, step fp discipline type w .destroy t ∧ t.pool.control.recycler = false := by
  have queue := (map_some_reduceOption nonNull).symm
  have whole : Recycler.Destroyable w.pool (w.pool.queue.take w.pool.queue.length) := by
    rw [List.take_length]
    refine ⟨_, queue, sound.distinct, fun id member => ?_⟩
    obtain ⟨node, alive, -⟩ := sound.idle id (List.reduceOption_mem_iff.mp member)
    exact ⟨node, alive⟩
  rcases Recycler.popLoop_cases w.pool.queue.length w.pool with
    ⟨ids, mid, ran, -, -⟩ | ⟨mid, -, broken⟩
  · have destroyed : Recycler.destroy w.pool =
        .ok () { mid with control := mid.control.release.decRefCount } := by
      simp only [Recycler.destroy, get_bind]
      exact bind_ok ran _
    exact ⟨_, ⟨trivial, .inl ⟨(), (onRecycler_alive living).trans (onPool_ok destroyed)⟩⟩, rfl⟩
  · exact absurd whole broken

/-- Once the recycler is gone, every handle can be released. -/
theorem release_all (sound : Sound w) (tied : Recycler.Tied w.pool)
    (gone : w.pool.control.recycler = false) :
    ∃ t, Transition.Reach (step fp discipline type) Releases w t ∧
      (Sound t ∧ Recycler.Tied t.pool ∧ t.pool.control.recycler = false) ∧
      Table.size t.handles = 0 := by
  refine Transition.Reach.exhaust (P := fun w : World E =>
    Sound w ∧ Recycler.Tied w.pool ∧ w.pool.control.recycler = false)
    (fun w => Table.size w.handles) ?_ ⟨sound, tied, gone⟩
  intro u holds filled
  obtain ⟨sound, tied, gone⟩ := holds
  obtain ⟨h, handle, live⟩ := Table.exists_of_size filled
  obtain ⟨pool, ran⟩ : ∃ pool, FRecycleHandle.destruct discipline h u =
      .ok () { u with pool := pool, handles := u.handles.erase h } :=
    destruct_returns sound live fun living => by cases gone.symm.trans living
  have stepped : step fp discipline type u (.destruct h)
      { u with pool := pool, handles := u.handles.erase h } := ⟨trivial, .inl ⟨_, ran⟩⟩
  have allowed : Releases (.destruct h : Label E) := trivial
  have outlives := (step_effect sound stepped).1.outlives tied gone
  refine ⟨_, .single allowed stepped, ⟨sound.step stepped, outlives.tied, outlives.recycler⟩, ?_⟩
  exact Nat.lt_of_succ_le (Table.size_erase live).le

/-- The control block in every state: it counts the nodes that exist and the
recycler, it is deleted when none of them is left, and no node was destroyed twice. -/
structure Lifetime (w : World E) : Prop where
  count : w.pool.control.refCount = w.pool.nodes.size + w.pool.control.recycler.toNat
  deleted : w.pool.control.deleted = true ↔
    w.pool.control.recycler = false ∧ w.pool.nodes.size = 0
  once : ∀ id, w.pool.log.count (.destroyed id) ≤ 1

/-- After the destruction of the recycler nothing is recycled, and once the
control block is deleted nothing touches it. -/
def Retires (w : World E) (_ : Label E) (t : World E) : Prop :=
  w.pool.control.recycler = false → t.pool.queue = w.pool.queue ∧ t.pool.usage = w.pool.usage ∧
    (w.pool.control.deleted = true → t.pool.control = w.pool.control)

/-- When the recycler is gone and no handle points anywhere, every node was
destroyed once, and the control block is deleted. -/
structure Released (w t : World E) : Prop where
  destroyed : ∀ id, w.pool.nodes.lookup id ≠ none → t.pool.nodes.lookup id = none ∧
    t.pool.log.count (.destroyed id) = 1
  deleted : t.pool.control.deleted = true

/-- A run from `w` on that creates no node manages the lifetime of the control block. -/
structure Managed (fp : Rounding) (discipline : Discipline) (type : RecycleType E) (w : World E)
    (path : List (Label E × World E)) : Prop where
  lifetime : Transition.Always Lifetime w path
  retires : Transition.Path Retires w path
  returns : Transition.Always (fun u =>
    (u.pool.control.recycler = true → ∃ t, step fp discipline type u .destroy t) ∧
    ∀ label, Usable u label → ∃ t, step fp .granted type u label t) w path
  released : (Transition.last w path).pool.control.recycler = false →
    (Transition.last w path).refs = 0 → Released w (Transition.last w path)

theorem lifetime_of_tied (tied : Recycler.Tied w.pool) : Lifetime w := by
  refine ⟨tied.count, tied.deleted, fun id => ?_⟩
  rw [tied.once]
  split <;> omega

/-- What holds along a run that creates no node, from a world `w` on. -/
structure Since (w t : World E) : Prop where
  sound : Sound t
  tied : Recycler.Tied t.pool
  keeps : Keeps w t

theorem Since.step {u : World E} (since : Since w t) (releases : Releases label)
    (stepped : World.step fp discipline type t label u) : Since w u := by
  have effect := (step_effect since.sound stepped).1
  exact ⟨since.sound.step stepped, tied_step since.sound since.tied stepped,
    since.keeps.trans (effect.keeps since.sound.toConsistent releases)⟩

/-- At the end, exactly the nodes that were accounted for are gone. -/
theorem Since.dead_iff (since : Since w t) (gone : t.pool.control.recycler = false)
    (unused : t.refs = 0) (id : NodeId) : t.pool.nodes.lookup id = none ↔ w.Accounted id := by
  have unowned : ¬ t.Owned id := by
    rintro (queued | held)
    · rw [since.tied.drained gone] at queued
      cases queued
    · rw [unused] at held
      cases Multiset.notMem_zero _ held
  rw [← since.keeps.accounted id]
  exact (or_iff_right unowned).symm

theorem Since.released_iff (since : Since w t) (sound : Sound w)
    (gone : t.pool.control.recycler = false) (unused : t.refs = 0) :
    Released w t ↔ Unlost w := by
  have dead := since.dead_iff gone unused
  rw [unlost_iff_accounted]
  constructor
  · intro released id
    by_cases before : w.pool.nodes.lookup id = none
    · exact .inr before
    · exact (dead id).mp (released.destroyed id before).1
  · intro accounted
    constructor
    · intro id before
      obtain ⟨node, alive⟩ := Option.ne_none_iff_exists'.mp before
      have destroyed := (dead id).mpr (accounted id)
      refine ⟨destroyed, ?_⟩
      rw [since.tied.once, if_pos]
      exact ⟨since.keeps.nextNode ▸ sound.fresh.below alive, destroyed⟩
    · apply since.tied.deleted.mpr
      refine ⟨gone, ?_⟩
      by_contra filled
      obtain ⟨id, node, alive⟩ := Table.exists_of_size filled
      cases ((dead id).mpr (accounted id)).symm.trans alive

/-- The recycler can be destroyed and all handles can be released. -/
theorem Since.winds_up (since : Since w t) (nonNull : none ∉ w.pool.queue) :
    ∃ u, Transition.Reach (World.step fp discipline type) Releases t u ∧
      u.pool.control.recycler = false ∧ u.refs = 0 := by
  have destroyed : ∃ u, Transition.Reach (World.step fp discipline type) Releases t u ∧
      Since w u ∧ u.pool.control.recycler = false := by
    cases living : t.pool.control.recycler with
    | false => exact ⟨t, .refl t, since, living⟩
    | true =>
      obtain ⟨u, stepped, gone⟩ :=
        destroy_returns since.sound living (since.keeps.nonNull nonNull)
      have allowed : Releases (.destroy : Label E) := trivial
      exact ⟨u, .single allowed stepped, since.step allowed stepped, gone⟩
  obtain ⟨u, first, since, gone⟩ := destroyed
  obtain ⟨v, second, ⟨-, -, gone⟩, none⟩ := release_all since.sound since.tied gone
  refine ⟨v, first.trans second, gone, ?_⟩
  rw [Multiset.eq_zero_iff_forall_notMem]
  intro id held
  obtain ⟨h, handle, live, -⟩ := Table.mem_gather.mp held
  have size := Table.size_erase live
  omega

/-- From any state that a run leads to, with no null pointer in the queue: along
every order of releases, with the destruction at any point, the lifetime is
managed, exactly if no node is lost. -/
theorem managed_iff_unlost (fp : Rounding) (discipline : Discipline) (type : RecycleType E)
    {before : List (Label E × World E)}
    (start : Transition.Path (step fp discipline type) World.new before)
    (nonNull : none ∉ (Transition.last World.new before).pool.queue) :
    (∀ path, Transition.Path (step fp discipline type) (Transition.last World.new before) path →
      Transition.Every (fun _ => Releases) (Transition.last World.new before) path →
      Managed fp discipline type (Transition.last World.new before) path) ↔
    Unlost (Transition.last World.new before) := by
  have reached : Transition.Always (fun w : World E => Sound w ∧ Recycler.Tied w.pool) World.new
      before := by
    apply start.invariant _ ⟨Sound.new, Recycler.Tied.new⟩
    intro w label t holds stepped
    exact ⟨holds.1.step stepped, tied_step holds.1 holds.2 stepped⟩
  obtain ⟨sound, tied⟩ := reached.last
  have initial : Since (Transition.last World.new before) (Transition.last World.new before) :=
    ⟨sound, tied, .refl _⟩
  constructor
  · -- one run that comes to its end is enough
    intro managed
    obtain ⟨t, ⟨path, run, releases, rfl⟩, gone, unused⟩ := initial.winds_up nonNull
    have since := (run.always (fun since releases stepped => since.step releases stepped)
      initial releases).last
    exact (since.released_iff sound gone unused).mp
      ((managed path run releases).released gone unused)
  · intro unlost path run releases
    have since := run.always (fun since releases stepped => since.step releases stepped)
      initial releases
    constructor
    · exact since.imp fun w since => lifetime_of_tied since.tied
    · apply run.steps _ since
      intro w label t since stepped gone
      have outlives := (step_effect since.sound stepped).1.outlives since.tied gone
      exact ⟨outlives.queue, outlives.usage, outlives.control⟩
    · apply since.imp
      intro w since
      constructor
      · intro living
        obtain ⟨t, stepped, -⟩ :=
          destroy_returns since.sound living (since.keeps.nonNull nonNull)
        exact ⟨t, stepped⟩
      · exact fun label usable => since.sound.returns usable
    · exact fun gone unused => (since.last.released_iff sound gone unused).mpr unlost

/-- A pool of one node, whose expansion created another one and lost it. -/
def strayed : List (Label Unit × World Unit) :=
  Transition.trace (World.next .exact .granted unitType) World.new
    [.initial (fun _ => .made) 1, .acquire 0 "" (fun _ => .made), .acquire 1 "" (fun _ => .made)]

/-- The only handle goes, and then the recycler. -/
def abandoned : List (Label Unit × World Unit) :=
  Transition.trace (World.next .exact .granted unitType) (Transition.last World.new strayed)
    [.destruct 0, .destroy]

/-- The queue holds no null pointer, and still the lost node is never destroyed
and the control block never deleted. -/
theorem strayed_unmanaged :
    Transition.Path (step .exact .granted unitType) World.new strayed ∧
    none ∉ (Transition.last World.new strayed).pool.queue ∧
    Transition.Path (step .exact .granted unitType) (Transition.last World.new strayed)
      abandoned ∧
    Transition.Every (fun _ => Releases) (Transition.last World.new strayed) abandoned ∧
    (Transition.last (Transition.last World.new strayed) abandoned).pool.nodes.lookup 1 ≠ none ∧
    ¬ Managed .exact .granted unitType (Transition.last World.new strayed) abandoned := by
  refine ⟨Transition.trace_path World.next_step _, by decide +kernel,
    Transition.trace_path World.next_step _, by decide +kernel, by decide +kernel, ?_⟩
  intro managed
  have deleted := (managed.released (by decide +kernel) (by decide +kernel)).deleted
  revert deleted
  decide +kernel

/-- A pool of two nodes, one of them shared by two handles. -/
def shared : List (Label Unit × World Unit) :=
  Transition.trace (World.next .exact .granted unitType) World.new
    [.initial (fun _ => .made) 2, .acquire 0 "" (fun _ => .made), .copy 1 0]

/-- The recycler is destroyed before the last handle goes. -/
def retired : List (Label Unit × World Unit) :=
  Transition.trace (World.next .exact .granted unitType) (Transition.last World.new shared)
    [.destruct 0, .destroy, .destruct 1]

theorem managed_iff_unlost_shared :
    Transition.Always Lifetime (Transition.last World.new shared) retired ∧
    Released (Transition.last World.new shared)
      (Transition.last (Transition.last World.new shared) retired) := by
  have start : Transition.Path (step .exact .granted unitType) World.new shared :=
    Transition.trace_path World.next_step _
  have managed := (managed_iff_unlost .exact .granted unitType start (by decide +kernel)).mpr
    (by decide +kernel) retired (Transition.trace_path World.next_step _) (by decide +kernel)
  exact ⟨managed.lifetime, managed.released (by decide +kernel) (by decide +kernel)⟩

end World
end Uranus
