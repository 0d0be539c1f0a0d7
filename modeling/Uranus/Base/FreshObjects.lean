import Uranus.Base.HandleCount
import Uranus.Foundation.Reach
import Uranus.Foundation.Sharing
import Uranus.Internal.PacketRecycling

/-! What the owners of handles see of a pool. The nodes that they write to are
recycled, shrunk and deleted behind their backs, and yet no run can be told from
one in which every acquisition makes an object of its own. What such an object
starts from may be what an abandoned one was left with, since nothing clears a node. -/
namespace Uranus
open Foundation Program
variable {E : Type} {fp : Rounding} {discipline : Discipline} {type : RecycleType E}

/-- The pool works on its own nodes only. -/
def Label.inner : Label E → Bool
  | .initial .. | .shrink | .onShrinkTimer _ | .configure .. | .destroy => true
  | .acquire .. | .null _ | .copy .. | .move .. | .castTo .. | .swap .. | .destruct _ | .edit .. =>
    false

/-- What `Initial` is given for a new object: a new element, or what an object was
left with that nobody owns any more. -/
def Origin (type : RecycleType E) (s : Sharing HandleId E) (element : E) : Prop :=
  element = type.onCreate type.construct ∨ s.Abandoned element

/-- The steps of handles on objects that are never used again. An acquisition may
throw; the object that it makes has been through `Initial`. -/
inductive ObjectStep (type : RecycleType E) (s : Sharing HandleId E) :
    Label E → Sharing HandleId E → Prop
  | acquire {result : HandleId} {target : String} {outcome : Nat → Creation} {element : E}
      (origin : Origin type s element) :
      ObjectStep type s (.acquire result target outcome) (s.make result (type.initial element))
  | refuse {result : HandleId} {target : String} {outcome : Nat → Creation} :
      ObjectStep type s (.acquire result target outcome) s
  | null {this : HandleId} : ObjectStep type s (.null this) (s.drop this)
  | copy {this rhs : HandleId} : ObjectStep type s (.copy this rhs) (s.share this rhs)
  | move {this rhs : HandleId} : ObjectStep type s (.move this rhs) (s.move this rhs)
  | castTo {result this : HandleId} {target : String} (castable : type.isA target = true) :
      ObjectStep type s (.castTo result this target) (s.share result this)
  | castFails {result this : HandleId} {target : String} (badCast : type.isA target = false) :
      ObjectStep type s (.castTo result this target) (s.drop result)
  | swap {this rhs : HandleId} : ObjectStep type s (.swap this rhs) (s.swap this rhs)
  | destruct {this : HandleId} : ObjectStep type s (.destruct this) (s.drop this)
  | edit {this : HandleId} {change : E → E} :
      ObjectStep type s (.edit this change) (s.edit this change)
  | inner {label : Label E} (inner : label.inner) : ObjectStep type s label s

namespace World
variable {w t : World E} {label : Label E} {id : NodeId}

/-- The node of a handle. -/
def points (w : World E) (h : HandleId) : Option NodeId :=
  (w.handles.lookup h).bind FRecycleHandle.node

def holds (w : World E) (id : NodeId) : Option E :=
  (w.pool.nodes.lookup id).map ElementNode.element

/-- What `operator->` of a handle leads to. -/
def seen (w : World E) (h : HandleId) : Option E :=
  ((w.handles.lookup h).bind FRecycleHandle.element).bind w.holds

theorem Sound.element (sound : Sound w) (h : HandleId) :
    (w.handles.lookup h).bind FRecycleHandle.element = w.points h := by
  unfold points
  cases live : w.handles.lookup h with
  | none => rfl
  | some handle => exact sound.aligned h handle live

theorem mem_refs_iff : id ∈ w.refs ↔ ∃ h, w.points h = some id := by
  simp only [refs, points, Table.mem_gather, Option.bind_eq_some_iff]

theorem points_eq (same : t.handles = w.handles) : t.points = w.points := by
  funext h
  rw [points, points, same]

theorem points_insert (handles : Table HandleId FRecycleHandle) (this : HandleId)
    (handle : FRecycleHandle) (pool : Recycler E) :
    (⟨pool, handles.insert this handle⟩ : World E).points =
      Function.update (⟨pool, handles⟩ : World E).points this handle.node := by
  funext h
  simp only [points, Table.lookup_insert_ite, Function.update_apply]
  split <;> rfl

theorem points_erase (handles : Table HandleId FRecycleHandle) (this : HandleId)
    (pool : Recycler E) :
    (⟨pool, handles.erase this⟩ : World E).points =
      Function.update (⟨pool, handles⟩ : World E).points this none := by
  funext h
  simp only [points, Table.lookup_erase_ite, Function.update_apply]
  split <;> rfl

theorem holds_alive {node : ElementNode E} (alive : w.pool.nodes.lookup id = some node) :
    w.holds id = some node.element := by
  rw [holds, alive, Option.map_some]

/-- A node in use is not in a queue, so what is done to queued nodes and to new ones
does not concern it. -/
theorem Effect.holds_kept (effect : Effect fp type w label t)
    (consistent : Recycler.Consistent w.pool w.refs) (used : id ∈ w.refs) (still : id ∈ t.refs)
    (reads : ∀ h change, label ≠ .edit h change) : t.holds id = w.holds id := by
  obtain ⟨own, found, -⟩ := consistent.counted id used
  have old := consistent.fresh.below found
  have absent := consistent.absent used
  cases effect with
  | quiet settled refs pool => rw [holds, holds, pool]
  | @shared _ _ other node settled used' alive refs pool =>
    simp only [holds, pool, Recycler.setNode, Recycler.record, Table.lookup_insert_ite]
    split
    next same => rw [same, alive]; rfl
    next => rfl
  | @dropped _ _ other node settled alive more refs pool =>
    simp only [holds, pool, Recycler.setNode, Table.lookup_insert_ite]
    split
    next same => rw [same, alive]; rfl
    next => rfl
  | @recycled _ _ other node settled alive last exist refs pool =>
    rw [holds, holds, pool]
    simp only [Recycler.queued, Recycler.record, Table.lookup_insert_ite]
    split
    next same => rw [same, alive]; rfl
    next => rfl
  | @destroyed _ _ other node settled alive last gone refs pool =>
    have differs : id ≠ other := by
      rintro rfl
      rw [refs] at consistent
      exact consistent.last alive last still
    simp only [holds, pool, Recycler.without, Recycler.record]
    rw [AList.lookup_erase_ne differs]
  | edited used' alive refs pool => exact absurd rfl (reads _ _)
  | @popped _ _ ids later settled exist popped refs pool =>
    have outside : id ∉ ids := fun member =>
      absent (by rw [popped.queue_eq]; simp [member])
    rw [holds, holds, pool]
    exact congrArg _ (popped.lookup_other outside)
  | created exist fresh grown before refs usage pool =>
    rw [holds, holds, pool]
    exact congrArg _ (grown.lookup_old old)
  | refused exist why => rfl
  | notCreated exist ready empty some grown early refs =>
    rw [holds, holds, grown.lookup_old old]
  | @front _ _ _ _ first rest node exist ready queue alive handed =>
    have differs : id ≠ first := by
      rintro rfl
      exact absent (by simp [queue])
    cases handed with
    | held castable now same | lost badCast now same =>
      rw [holds, holds, same]
      exact congrArg _ (AList.lookup_insert_ne differs)
  | @expanded _ _ _ _ ids later nodes first node exist ready empty several early grown nulls perm
      alive handed =>
    have differs : id ≠ first := by
      rintro rfl
      have new : id ∈ ids := perm.mem_iff.mp (by simp)
      exact absurd old (Nat.not_lt_of_le (grown.created new).1)
    cases handed with
    | held castable now same | lost badCast now same =>
      rw [holds, holds, same]
      exact congrArg _ ((AList.lookup_insert_ne differs).trans (grown.lookup_old old))

/-- The handles are the same. -/
def SameHandles (w t : World E) : Prop := t.handles = w.handles

instance : IsPreorder (World E) SameHandles where
  refl _ := rfl
  trans _ _ _ first second := second.trans first

theorem onPool_within {A : Type} (program : RecyclerM E A) :
    Within SameHandles (onPool program) := by
  intro w t ends
  cases ran : program w.pool with
  | ok value pool =>
    cases ends.of_ok (onPool_ok ran)
    rfl
  | error fault pool =>
    obtain ⟨what, rfl⟩ := ends.of_fault (onPool_error ran)
    cases ends.of_exception (onPool_error ran)
    rfl

theorem handBack_within (discipline : Discipline) (id : NodeId) :
    Within SameHandles (FRecycleHandle.handBack discipline id : WorldM E Unit) := by
  refine Within.bind Within.get fun w => ?_
  dsimp only
  split
  · exact Within.bind (onPool_within _) fun _ => onPool_within _
  · exact Within.bind (onPool_within _) fun _ => onPool_within _

theorem releaseNode_within (discipline : Discipline) (node : Option NodeId) :
    Within SameHandles (FRecycleHandle.releaseNode discipline node : WorldM E Unit) := by
  cases node with
  | none => exact Within.pure ()
  | some id =>
    refine Within.bind (onPool_within _) fun last => ?_
    split
    · exact handBack_within discipline id
    · exact Within.pure ()

/-- A count goes up without an exception, since it belongs to a node in use. -/
theorem incRefCount_live {h : HandleId} {handle : FRecycleHandle} (sound : Sound w)
    (live : w.handles.lookup h = some handle) :
    ∃ pool, FRecycleHandle.incRefCount handle w = .ok () { w with pool } := by
  cases pointed : handle.node with
  | none => exact ⟨w.pool, by simp [FRecycleHandle.incRefCount, pointed]⟩
  | some id =>
    obtain ⟨node, alive, count, positive⟩ := sound.node live pointed
    rw [FRecycleHandle.incRefCount, if_pos (by simp [pointed]), pointed]
    exact ⟨_, onPool_ok (Recycler.incRefCount_live alive (by omega))⟩

section Pointers
variable {this rhs : HandleId}

theorem null_points (ends : Program.Ends (FRecycleHandle.null this) w t) :
    t.points = Function.update w.points this none := by
  obtain ⟨fresh, rfl⟩ := construct_ends _ ends
  exact points_insert _ _ _ _

theorem copy_points {handle : FRecycleHandle} (sound : Sound w)
    (live : w.handles.lookup rhs = some handle)
    (ends : Program.Ends (do
      FRecycleHandle.incRefCount handle
      FRecycleHandle.construct this handle) w t) :
    t.points = Function.update w.points this (w.points rhs) := by
  obtain ⟨pool, counted⟩ := incRefCount_live sound live
  simp only [Program.Ends, bind_ok counted] at ends
  obtain ⟨fresh, rfl⟩ := construct_ends _ ends
  rw [points_insert, points, live]
  rfl

theorem move_points (ends : Program.Ends (FRecycleHandle.move this rhs) w t) :
    t.points = Function.update (Function.update w.points this (w.points rhs)) rhs none := by
  obtain ⟨handle, live, ends⟩ := read_ends ends
  by_cases fresh : w.handles.lookup this = none
  · simp only [Program.Ends, bind_ok (FRecycleHandle.construct_fresh fresh handle)] at ends
    cases Program.Ends.of_ok ends (modify_apply _ _)
    rw [points_insert, points_insert, points, live]
    rfl
  · obtain ⟨what, wrong⟩ :=
      ends.of_fault (bind_error (FRecycleHandle.construct_live fresh handle) _)
    cases wrong

theorem swap_points (ends : Program.Ends (FRecycleHandle.swap this rhs) w t) :
    t.points =
      Function.update (Function.update w.points this (w.points rhs)) rhs (w.points this) := by
  obtain ⟨left, leftLive, ends⟩ := read_ends ends
  obtain ⟨right, rightLive, ends⟩ := read_ends ends
  have ran : (do FRecycleHandle.write this right; FRecycleHandle.write rhs left : WorldM E Unit) w =
      .ok () { w with handles := (w.handles.insert this right).insert rhs left } := rfl
  cases ends.of_ok ran
  rw [points_insert, points_insert, points, points, leftLive, rightLive]
  rfl

theorem destruct_points (ends : Program.Ends (FRecycleHandle.destruct discipline this) w t) :
    t.points = Function.update w.points this none := by
  obtain ⟨_, u, released, ends⟩ := Program.Ends.of_noexcept ends
  cases Program.Ends.of_ok ends (modify_apply _ _)
  obtain ⟨handle, _, found, rest⟩ := bind_eq_ok released
  obtain ⟨live, rfl⟩ := FRecycleHandle.read_eq_ok found
  obtain ⟨_, v, counted, written⟩ := bind_eq_ok rest
  cases written
  have same := releaseNode_within discipline handle.node _ v (.inl ⟨_, counted⟩)
  rw [Table.erase_insert, points_erase]
  exact congrArg (Function.update · this none) (points_eq (t := ⟨v.pool, v.handles⟩) same)

/-- An edit changes what one node in use holds. -/
theorem edit_spec {change : E → E} (sound : Sound w)
    (ends : Program.Ends (FRecycleHandle.edit this change) w t) :
    ∃ id, w.points this = some id ∧ t.points = w.points ∧
      t.holds = Function.update w.holds id ((w.holds id).map change) := by
  obtain ⟨handle, live, ends⟩ := read_ends ends
  have points : w.points this = handle.node := by
    rw [World.points, live]
    rfl
  rw [sound.aligned this handle live] at ends
  cases pointed : handle.node with
  | none =>
    rw [pointed] at ends
    obtain ⟨what, wrong⟩ := Program.Ends.of_fault ends (onPool_error rfl)
    cases wrong
  | some id =>
    obtain ⟨node, alive, -, -⟩ := sound.node live pointed
    rw [pointed] at ends points
    cases Program.Ends.of_ok ends (onPool_ok (Recycler.callHook_alive change alive))
    refine ⟨id, points, rfl, ?_⟩
    funext other
    simp only [holds, Recycler.setNode, Table.lookup_insert_ite, Function.update_apply, alive]
    split <;> rfl

theorem castTo_points {target : String} {result : HandleId} (sound : Sound w)
    (ends : Program.Ends (FRecycleHandle.castTo type result this target) w t) :
    t.points = Function.update w.points result
      (if type.isA target then w.points this else none) := by
  obtain ⟨handle, live, ends⟩ := read_ends ends
  have points : w.points this = handle.node := by
    rw [points, live]
    rfl
  split at ends
  next held =>
    rw [if_pos held.2]
    exact copy_points sound live ends
  next missing =>
    rw [null_points ends]
    split
    next castable =>
      have null : handle.element = none := by
        by_contra some
        exact missing ⟨some, castable⟩
      rw [points, ← sound.aligned this handle live, null]
    next => rfl

/-- A handle on an acquired node appears, or nothing does. -/
theorem acquire_points {target : String} {outcome : Nat → Creation} {result : HandleId}
    (ends : Program.Ends (acquire fp discipline type result target outcome) w t) :
    t.points = w.points ∧ t.refs = w.refs ∨
      ∃ id, t.points = Function.update w.points result (some id) ∧ t.refs = id ::ₘ w.refs := by
  rcases Program.Ends.of_bind ends with ⟨pNode, u, ran, ends⟩ | ⟨what, ran⟩
  swap
  · obtain ⟨-, -, same⟩ := onRecycler_ends (.inr ⟨what, ran⟩)
    exact .inl ⟨points_eq same, refs_eq same⟩
  obtain ⟨-, -, same⟩ := onRecycler_ends (.inl ⟨pNode, ran⟩)
  rw [← points_eq same, ← refs_eq same]
  cases pNode with
  | none =>
    obtain ⟨what, wrong⟩ := ends.of_fault (bind_error (onPool_error rfl) _)
    cases wrong
  | some id =>
    cases found : u.pool.nodes.lookup id with
    | none =>
      obtain ⟨what, wrong⟩ :=
        ends.of_fault (bind_error (onPool_error (Recycler.deref_dead found)) _)
      cases wrong
    | some node =>
      simp only [FRecycleHandle.ofNode, Program.Ends,
        bind_ok (onPool_ok (Recycler.deref_alive found))] at ends
      by_cases castable : type.isA target = false
      · rw [throwIf_throw_bind castable] at ends
        cases Program.Ends.of_exception ends rfl
        exact .inl ⟨rfl, rfl⟩
      · rw [throwIf_bind castable, bind_ok (onPool_ok (modify_apply _ _))] at ends
        obtain ⟨fresh, rfl⟩ := construct_ends _ ends
        refine .inr ⟨id, points_insert _ _ _ _, ?_⟩
        simpa [refs] using Table.gather_insert_fresh FRecycleHandle.node ⟨some id, some id⟩ fresh

end Pointers

/-- Only an acquisition brings a node that was not in use. -/
theorem Effect.refs_old (effect : Effect fp type w label t)
    (settled : ∀ h target outcome, label ≠ .acquire h target outcome) (now : id ∈ t.refs) :
    id ∈ w.refs := by
  cases effect with
  | quiet _ refs pool => rwa [← refs]
  | shared _ used alive refs pool =>
    rw [refs, Multiset.mem_cons] at now
    rcases now with rfl | now
    · exact used
    · exact now
  | dropped _ alive more refs pool => exact refs ▸ Multiset.mem_cons_of_mem now
  | recycled _ alive last exist refs pool => exact refs ▸ Multiset.mem_cons_of_mem now
  | destroyed _ alive last gone refs pool => exact refs ▸ Multiset.mem_cons_of_mem now
  | edited used alive refs pool => rwa [← refs]
  | popped _ exist popped refs pool => rwa [← refs]
  | created exist fresh grown before refs usage pool => rwa [← refs]
  | refused exist why => exact now
  | notCreated exist ready empty some grown early refs => rwa [← refs]
  | front exist ready queue alive handed => exact absurd rfl (settled _ _ _)
  | expanded exist ready empty several first grown nulls perm alive handed =>
    exact absurd rfl (settled _ _ _)

/-- Where nothing is acquired or edited, the memory stays as it is for those who use it. -/
theorem Effect.keepsObjects (effect : Effect fp type w label t)
    (consistent : Recycler.Consistent w.pool w.refs)
    (settled : ∀ h target outcome, label ≠ .acquire h target outcome)
    (reads : ∀ h change, label ≠ .edit h change) {place : Nat → NodeId} {s : Sharing HandleId E}
    (represents : Represents place t.points w.holds s) : Represents place t.points t.holds s := by
  apply represents.keep
  intro h id at'
  have still : id ∈ t.refs := mem_refs_iff.mpr ⟨h, at'⟩
  exact effect.holds_kept consistent (effect.refs_old settled still) still reads

/-- An acquired node was not in use. It was idle, or it is new. -/
theorem Effect.acquired {result : HandleId} {target : String} {outcome : Nat → Creation}
    (effect : Effect fp type w (.acquire result target outcome) t)
    (consistent : Recycler.Consistent w.pool w.refs) (refs : t.refs = id ::ₘ w.refs) :
    id ∉ w.refs ∧ ∃ element, t.holds id = some (type.initial element) ∧
      (some id ∈ w.pool.queue ∧ w.holds id = some element ∨
        element = type.onCreate type.construct) := by
  have more : t.refs ≠ w.refs := by
    intro same
    have card := congrArg Multiset.card (refs.symm.trans same)
    simp at card
  have settle {other : NodeId} {pool : Recycler E} {element : E}
      (handed : Handed type target other pool w.refs t)
      (holds : (pool.nodes.lookup other).map ElementNode.element = some (type.initial element))
      (unused : other ∉ w.refs)
      (origin : some other ∈ w.pool.queue ∧ w.holds other = some element ∨
        element = type.onCreate type.construct) :
      id ∉ w.refs ∧ ∃ element, t.holds id = some (type.initial element) ∧
        (some id ∈ w.pool.queue ∧ w.holds id = some element ∨
          element = type.onCreate type.construct) := by
    cases handed with
    | held castable now same =>
      obtain rfl : id = other := (Multiset.cons_inj_left _).mp (refs.symm.trans now)
      refine ⟨unused, element, ?_, origin⟩
      rw [World.holds, same]
      exact holds
    | lost badCast now same => exact absurd now more
  cases effect with
  | quiet settled refs pool => exact absurd rfl (settled _ _ _)
  | shared settled used alive refs pool => exact absurd rfl (settled _ _ _)
  | dropped settled alive more refs pool => exact absurd rfl (settled _ _ _)
  | recycled settled alive last exist refs pool => exact absurd rfl (settled _ _ _)
  | destroyed settled alive last gone refs pool => exact absurd rfl (settled _ _ _)
  | popped settled exist popped refs pool => exact absurd rfl (settled _ _ _)
  | refused exist why => exact absurd rfl more
  | notCreated exist ready empty some grown early refs => exact absurd refs more
  | @front _ _ _ _ first rest node exist ready queue alive handed =>
    have queued : some first ∈ w.pool.queue := by simp [queue]
    apply settle handed
    · exact congrArg _ (AList.lookup_insert _)
    · exact fun used => consistent.absent used queued
    · exact .inl ⟨queued, holds_alive alive⟩
  | @expanded _ _ _ _ ids later nodes first node exist ready empty several early grown nulls perm
      alive handed made =>
    have new : first ∈ ids := perm.mem_iff.mp (by simp)
    apply settle handed
    · exact congrArg _ (AList.lookup_insert _)
    · intro used
      obtain ⟨own, found, -⟩ := consistent.counted _ used
      exact absurd (consistent.fresh.below found) (Nat.not_lt_of_le (grown.created new).1)
    · right
      cases alive.symm.trans (made first new)
      rfl

/-- A node that was not there before and is queued now is a new one. -/
theorem Effect.queued_new (effect : Effect fp type w label t)
    (consistent : Recycler.Consistent w.pool w.refs) (above : w.pool.nextNode ≤ id)
    (queued : some id ∈ t.pool.queue) : t.holds id = some (type.onCreate type.construct) := by
  have fresh := consistent.fresh id above
  have outside : some id ∉ w.pool.queue := by
    intro before
    obtain ⟨node, alive, -⟩ := consistent.idle id before
    cases fresh.symm.trans alive
  cases effect with
  | quiet settled refs pool | shared settled used alive refs pool
  | dropped settled alive more refs pool | destroyed settled alive last gone refs pool
  | edited used alive refs pool =>
    rw [pool] at queued
    exact absurd queued outside
  | refused exist why => exact absurd queued outside
  | recycled settled alive last exist refs pool =>
    rw [pool] at queued
    rcases List.mem_append.mp queued with before | now
    · exact absurd before outside
    · cases List.mem_singleton.mp now
      cases fresh.symm.trans alive
  | popped settled exist popped refs pool =>
    rw [pool] at queued
    rw [popped.queue_eq] at outside
    exact absurd (List.mem_append_right _ queued) outside
  | @created _ _ _ ids among later exist ready grown before refs usage pool made =>
    rw [pool] at queued
    rcases List.mem_append.mp queued with old | new
    · exact absurd old outside
    · obtain ⟨other, member, same⟩ := List.mem_map.mp new
      cases same
      rw [holds, pool]
      exact congrArg (Option.map ElementNode.element) (made id member)
  | notCreated exist ready empty some grown early refs =>
    rw [grown.frame] at queued
    exact absurd queued outside
  | @front _ _ _ _ first rest node exist ready queue alive handed =>
    have left : some id ∈ rest := by
      cases handed with
      | held castable now same | lost badCast now same =>
        rw [same] at queued
        exact queued
    exact absurd (queue ▸ List.mem_cons_of_mem _ left) outside
  | @expanded _ _ _ _ ids later nodes first node exist ready empty several early grown nulls perm
      alive handed made =>
    have distinct := perm.nodup_iff.mpr grown.nodup
    have settle (left : some id ∈ nodes)
        (now : t.pool.nodes = later.nodes.insert first ⟨1, type.initial node.element⟩) :
        t.holds id = some (type.onCreate type.construct) := by
      have member := List.reduceOption_mem_iff.mpr left
      have differs : id ≠ first := by
        rintro rfl
        exact List.disjoint_of_nodup_append distinct member (List.mem_singleton_self id)
      rw [holds, now, AList.lookup_insert_ne differs,
        made id (perm.mem_iff.mp (List.mem_append_left _ member))]
      rfl
    cases handed with
    | held castable now same | lost badCast now same =>
      rw [same] at queued
      exact settle queued (by rw [same]; rfl)

/-- What a queued node holds: what it held when it was queued before, what it held
when it was in use, or a new element. -/
theorem Effect.queued_origin (effect : Effect fp type w label t)
    (consistent : Recycler.Consistent w.pool w.refs)
    (consistent' : Recycler.Consistent t.pool t.refs) (queued : some id ∈ t.pool.queue) :
    ∃ element, t.holds id = some element ∧
      (some id ∈ w.pool.queue ∧ w.holds id = some element ∨
        id ∈ w.refs ∧ id ∉ t.refs ∧ w.holds id = some element ∨
        element = type.onCreate type.construct) := by
  have unused : id ∉ t.refs := fun used => consistent'.absent used queued
  have held {element : E} (idle : Idle id element t) : t.holds id = some element := by
    obtain ⟨node, alive, rfl⟩ := idle.queued queued
    exact holds_alive alive
  by_cases old : id < w.pool.nextNode
  swap
  · exact ⟨_, effect.queued_new consistent (not_lt.mp old) queued, .inr (.inr rfl)⟩
  by_cases used : id ∈ w.refs
  · obtain ⟨node, alive, -⟩ := consistent.counted id used
    have idle := effect.idle consistent alive used unused
    exact ⟨_, held idle, .inr (.inl ⟨used, unused, holds_alive alive⟩)⟩
  by_cases before : some id ∈ w.pool.queue
  · obtain ⟨node, alive, -⟩ := consistent.idle id before
    have idle : Idle id node.element w := ⟨old, used, fun _ => ⟨node, alive, rfl⟩⟩
    exact ⟨_, held (idle.step effect consistent unused), .inl ⟨before, holds_alive alive⟩⟩
  · -- Lost nodes do not come back to the queue.
    have idle : Idle id (type.onCreate type.construct) w :=
      ⟨old, used, fun queued => absurd queued before⟩
    exact ⟨_, held (idle.step effect consistent unused), .inr (.inr rfl)⟩

/-- The pool as objects: their places are nodes in use, and an idle node holds what
a new object may start from. -/
structure Shadowed (type : RecycleType E) (place : Nat → NodeId) (w : World E)
    (s : Sharing HandleId E) : Prop where
  represents : Represents place w.points w.holds s
  spare : ∀ id element, some id ∈ w.pool.queue → w.holds id = some element → Origin type s element

def Shadows (type : RecycleType E) (w : World E) (s : Sharing HandleId E) : Prop :=
  ∃ place, Shadowed type place w s

theorem Shadows.new : Shadows type (World.new : World E) Sharing.empty := by
  refine ⟨fun k => k, Represents.empty _ _, ?_⟩
  intro id element queued
  cases queued

section Simulation
variable {s later : Sharing HandleId E} {this rhs : HandleId} {place : Nat → NodeId}

/-- Idle nodes after a step, where what was abandoned stays so and what goes out of
use is abandoned. -/
theorem Shadowed.spare_step (shadowed : Shadowed type place w s) (sound : Sound w)
    (stepped : step fp discipline type w label t)
    (keeps : ∀ element, s.Abandoned element → later.Abandoned element)
    (leaves : ∀ id element, id ∈ w.refs → id ∉ t.refs → w.holds id = some element →
      later.Abandoned element) {element : E} (queued : some id ∈ t.pool.queue)
    (held : t.holds id = some element) : Origin type later element := by
  have effect := (step_effect sound stepped).1
  obtain ⟨other, found, origin⟩ :=
    effect.queued_origin sound.toConsistent (sound.step stepped).toConsistent queued
  cases held.symm.trans found
  rcases origin with ⟨before, held⟩ | ⟨used, unused, held⟩ | new
  · exact (shadowed.spare id element before held).imp_right (keeps element)
  · exact .inr (leaves id element used unused held)
  · exact .inl new

/-- A step after which the owners own objects that had owners. -/
theorem Shadowed.repoint (shadowed : Shadowed type place w s) (sound : Sound w)
    (stepped : step fp discipline type w label t)
    (settled : ∀ h target outcome, label ≠ .acquire h target outcome)
    (reads : ∀ h change, label ≠ .edit h change) {points : HandleId → Option NodeId}
    (now : t.points = points) (repointed : Sharing.Repointed s later)
    (represents : Represents place points w.holds later) : Shadows type t later := by
  rw [← now] at represents
  have effect := (step_effect sound stepped).1
  have after := effect.keepsObjects sound.toConsistent settled reads represents
  refine ⟨place, after, fun id element queued held => ?_⟩
  apply shadowed.spare_step sound stepped (fun _ abandoned => abandoned.repoint repointed) _ queued
    held
  intro id element used unused held
  obtain ⟨h, at'⟩ := mem_refs_iff.mp used
  apply shadowed.represents.abandons repointed after at' _ held
  exact fun p still => unused (mem_refs_iff.mpr ⟨p, still⟩)

theorem Shadowed.acquire {target : String} {outcome : Nat → Creation}
    (shadowed : Shadowed type place w s) (sound : Sound w)
    (stepped : step fp discipline type w (.acquire this target outcome) t) :
    ∃ later, ObjectStep type s (.acquire this target outcome) later ∧ Shadows type t later := by
  have effect := (step_effect sound stepped).1
  have kept {h : HandleId} {n : NodeId} (before : w.points h = some n) (still : n ∈ t.refs) :
      t.holds n = w.holds n :=
    effect.holds_kept sound.toConsistent (mem_refs_iff.mpr ⟨h, before⟩) still (by simp)
  rcases acquire_points stepped.2 with ⟨points, refs⟩ | ⟨id, points, refs⟩
  · have represents : Represents place t.points t.holds s := by
      rw [points]
      apply shadowed.represents.keep
      intro h n at'
      exact kept at' (refs ▸ mem_refs_iff.mpr ⟨h, at'⟩)
    refine ⟨s, .refuse, place, represents, fun id element queued held => ?_⟩
    exact shadowed.spare_step sound stepped (fun _ abandoned => abandoned)
      (fun id element used unused => absurd (refs ▸ used) unused) queued held
  · obtain ⟨unused, element, holds, origin⟩ := effect.acquired sound.toConsistent refs
    have origin : Origin type s element := by
      rcases origin with ⟨queued, held⟩ | new
      · exact shadowed.spare id element queued held
      · exact .inl new
    have represents : Represents (Function.update place s.made id) t.points t.holds
        (s.make this (type.initial element)) := by
      rw [points]
      apply shadowed.represents.make this _ holds
      · intro h n at'
        exact kept at' (refs ▸ Multiset.mem_cons_of_mem (mem_refs_iff.mpr ⟨h, at'⟩))
      · intro h at'
        exact unused (mem_refs_iff.mpr ⟨h, at'⟩)
    refine ⟨_, .acquire origin, _, represents, fun other element queued held => ?_⟩
    exact shadowed.spare_step sound stepped (fun _ abandoned => abandoned.make this _)
      (fun other element used unused =>
        absurd (refs ▸ Multiset.mem_cons_of_mem used) unused) queued held

theorem Shadowed.edit {change : E → E} (shadowed : Shadowed type place w s) (sound : Sound w)
    (stepped : step fp discipline type w (.edit this change) t) :
    Shadows type t (s.edit this change) := by
  obtain ⟨id, at', points, holds⟩ := edit_spec sound stepped.2
  have represents : Represents place t.points t.holds (s.edit this change) := by
    rw [points, holds]
    apply shadowed.represents.edit at' (Function.update_self _ _ _)
    intro h n _ differs
    exact Function.update_of_ne differs _ _
  refine ⟨place, represents, fun other element queued held => ?_⟩
  apply shadowed.spare_step sound stepped (fun _ abandoned => abandoned.edit this change) _ queued
    held
  intro n element used unused
  rw [mem_refs_iff, ← points, ← mem_refs_iff] at used
  exact absurd used unused

/-- Every step of the pool is a step on the objects. -/
theorem Shadows.step (shadows : Shadows type w s) (sound : Sound w)
    (stepped : step fp discipline type w label t) :
    ∃ later, ObjectStep type s label later ∧ Shadows type t later := by
  obtain ⟨place, shadowed⟩ := shadows
  have represents := shadowed.represents
  have follow (settled : ∀ h target outcome, label ≠ .acquire h target outcome)
      (reads : ∀ h change, label ≠ .edit h change) {later : Sharing HandleId E}
      {points : HandleId → Option NodeId} (now : t.points = points)
      (repointed : Sharing.Repointed s later)
      (represents : Represents place points w.holds later) : Shadows type t later :=
    shadowed.repoint sound stepped settled reads now repointed represents
  have inner {A : Type} {program : RecyclerM E A} (inner : label.inner)
      (ends : Program.Ends (onRecycler program) w t)
      (settled : ∀ h target outcome, label ≠ .acquire h target outcome)
      (reads : ∀ h change, label ≠ .edit h change) :
      ∃ later, ObjectStep type s label later ∧ Shadows type t later := by
    obtain ⟨-, -, same⟩ := onRecycler_ends ends
    exact ⟨s, .inner inner, follow settled reads (points_eq same) (.refl s) represents⟩
  have ends := stepped.2
  cases label with
  | acquire result target outcome => exact shadowed.acquire sound stepped
  | edit this change => exact ⟨_, .edit, shadowed.edit sound stepped⟩
  | null this =>
    exact ⟨_, .null, follow (by simp) (by simp) (null_points ends) (Sharing.drop_repointed this)
      (represents.drop this)⟩
  | copy this rhs =>
    obtain ⟨handle, live, ends⟩ := read_ends ends
    exact ⟨_, .copy, follow (by simp) (by simp) (copy_points sound live ends)
      (Sharing.share_repointed this rhs) (represents.share this rhs)⟩
  | move this rhs =>
    exact ⟨_, .move, follow (by simp) (by simp) (move_points ends)
      (Sharing.move_repointed this rhs) (represents.move this rhs)⟩
  | castTo result this target =>
    have points := castTo_points sound ends
    cases castable : type.isA target with
    | true =>
      rw [if_pos castable] at points
      exact ⟨_, .castTo castable, follow (by simp) (by simp) points
        (Sharing.share_repointed result this) (represents.share result this)⟩
    | false =>
      rw [if_neg (by simp [castable])] at points
      exact ⟨_, .castFails castable, follow (by simp) (by simp) points
        (Sharing.drop_repointed result) (represents.drop result)⟩
  | swap this rhs =>
    exact ⟨_, .swap, follow (by simp) (by simp) (swap_points ends)
      (Sharing.swap_repointed this rhs) (represents.swap this rhs)⟩
  | destruct this =>
    exact ⟨_, .destruct, follow (by simp) (by simp) (destruct_points ends)
      (Sharing.drop_repointed this) (represents.drop this)⟩
  | initial outcome capacity => exact inner rfl ends (by simp) (by simp)
  | shrink => exact inner rfl ends (by simp) (by simp)
  | onShrinkTimer cancelled => exact inner rfl ends (by simp) (by simp)
  | configure count delay threshold rate => exact inner rfl ends (by simp) (by simp)
  | destroy => exact inner rfl ends (by simp) (by simp)

/-- What is read through a handle is what its owner reads of the object. -/
theorem Shadows.seen (shadows : Shadows type w s) (sound : Sound w) (h : HandleId) :
    w.seen h = s.read h := by
  obtain ⟨place, shadowed⟩ := shadows
  rw [World.seen, sound.element, shadowed.represents.read]

end Simulation

/-- In every run the handles show what they would show if each acquisition made an
object that is never used again, from a new element or from what an abandoned
object was left with. -/
theorem pool_refines_objects (fp : Rounding) (discipline : Discipline) (type : RecycleType E)
    {path : List (Label E × World E)}
    (run : Transition.Path (World.step fp discipline type) World.new path) :
    ∃ shadow, Transition.Path (ObjectStep type) Sharing.empty shadow ∧
      List.Forall₂ (fun entry entry' => entry.1 = entry'.1 ∧ ∀ h, entry.2.seen h = entry'.2.read h)
        path shadow := by
  obtain ⟨shadow, run', matched⟩ := run.matched
    (R := fun w (s : Sharing HandleId E) => Sound w ∧ Shadows type w s)
    (fun related stepped =>
      (related.2.step related.1 stepped).imp fun _ both =>
        ⟨both.1, related.1.step stepped, both.2⟩)
    ⟨Sound.new, Shadows.new⟩
  exact ⟨shadow, run', matched.imp fun entry entry' both =>
    ⟨both.1, both.2.2.seen both.2.1⟩⟩

/-- Two packets. One of them has two handles, of which one writes to it; when both
are gone, the packet is acquired again. -/
def twoPackets : List (Label FPacket × World FPacket) :=
  Transition.trace (World.next .exact .granted packetType) World.new
    [.initial (fun _ => .made) 2, .acquire 0 "FPacket" fun _ => .made, .copy 1 0,
      .acquire 2 "FPacket" fun _ => .made, usePacket 0 (.rawRef fun _ => [42]), .destruct 0,
      .destruct 1, .acquire 3 "FPacket" fun _ => .made]

/-- The other packet is not touched, and the new object starts with the old payload. -/
theorem pool_refines_objects_twoPackets :
    (∃ shadow, Transition.Path (ObjectStep packetType) Sharing.empty shadow ∧
      List.Forall₂ (fun entry entry' => entry.1 = entry'.1 ∧ ∀ h, entry.2.seen h = entry'.2.read h)
        twoPackets shadow) ∧
    (Transition.last World.new twoPackets).seen 2 = some FPacket.neverUsed ∧
    (Transition.last World.new twoPackets).seen 3 =
      some { FPacket.neverUsed with payload := ⟨[42]⟩ } :=
  ⟨pool_refines_objects .exact .granted packetType (Transition.trace_path World.next_step _),
    by decide +kernel, by decide +kernel⟩

end World
end Uranus
