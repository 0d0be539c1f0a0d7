import Uranus.Base.PoolConsistency

/-! Reference counts over whole runs: along every run the count of a node is
the number of handles on it, and a node is handed back once for each time it
was acquired, when the last handle goes away. -/
namespace Uranus
open Foundation Program
variable {E : Type} {fp : Rounding} {discipline : Discipline} {type : RecycleType E}

namespace World
variable {w t : World E} {label : Label E} {id : NodeId}

/-- The history of a world agrees with its references: every acquisition was
handed back once, but for that of a node still in use, and no count was raised
on a node that was not in use. -/
structure Recorded (log : List NodeEvent) (refs : Multiset NodeId) : Prop where
  handedBack : ∀ id, log.count (.acquired id) =
    log.count (.handedBack id) + if id ∈ refs then 1 else 0
  increased : ∀ id count, .increased id count ∈ log → 0 < count

namespace Recorded
variable {log : List NodeEvent} {refs rest : Multiset NodeId}

/-- Events that hand out or take back no node. -/
theorem other (recorded : Recorded log refs) {events : List NodeEvent}
    (members : ∀ id, id ∈ rest ↔ id ∈ refs)
    (neither : ∀ event ∈ events, (∃ id, event = .destroyed id) ∨
      ∃ id count, event = .increased id count ∧ 0 < count) : Recorded (log ++ events) rest where
  handedBack id := by
    have acquired : NodeEvent.acquired id ∉ events := by
      intro member
      rcases neither _ member with ⟨id, wrong⟩ | ⟨id, count, wrong, -⟩ <;> cases wrong
    have handed : NodeEvent.handedBack id ∉ events := by
      intro member
      rcases neither _ member with ⟨id, wrong⟩ | ⟨id, count, wrong, -⟩ <;> cases wrong
    simp only [List.count_append, List.count_eq_zero.mpr acquired, List.count_eq_zero.mpr handed,
      Nat.add_zero, members]
    exact recorded.handedBack id
  increased id count member := by
    rcases List.mem_append.mp member with old | new
    · exact recorded.increased id count old
    · rcases neither _ new with ⟨id, wrong⟩ | ⟨id, count, same, positive⟩
      · cases wrong
      · cases same
        exact positive

theorem same (recorded : Recorded log refs) (members : ∀ id, id ∈ rest ↔ id ∈ refs) :
    Recorded log rest := by
  simpa using recorded.other members (List.forall_mem_nil _)

theorem acquire (recorded : Recorded log refs) (unused : id ∉ refs) :
    Recorded (log ++ [.acquired id]) (id ::ₘ refs) where
  handedBack id' := by
    have before := recorded.handedBack id'
    by_cases same : id' = id
    · subst same
      simp_all [List.count_append]
    · simp_all [List.count_append, eq_comm]
  increased id' count member := recorded.increased id' count (by simpa using member)

theorem handBack (recorded : Recorded log (id ::ₘ rest)) (last : id ∉ rest) :
    Recorded (log ++ [.handedBack id]) rest where
  handedBack id' := by
    have before := recorded.handedBack id'
    by_cases same : id' = id
    · subst same
      simp_all [List.count_append]
    · simp_all [List.count_append, eq_comm]
  increased id' count member := recorded.increased id' count (by simpa using member)

end Recorded

theorem Handed.recorded {target : String} {pool : Recycler E}
    (handed : Handed type target id pool w.refs t) (recorded : Recorded pool.log w.refs)
    (unused : id ∉ w.refs) : Recorded t.pool.log t.refs := by
  cases handed with
  | held castable now same =>
    rw [now, same]
    exact recorded.acquire unused
  | lost badCast now same =>
    rw [now, same]
    exact recorded

theorem Effect.recorded (effect : Effect fp type w label t)
    (consistent : Recycler.Consistent w.pool w.refs) (recorded : Recorded w.pool.log w.refs) :
    Recorded t.pool.log t.refs := by
  cases effect with
  | quiet settled refs pool =>
    rw [refs, pool]
    exact recorded
  | shared settled used alive refs pool =>
    rw [refs, pool]
    obtain ⟨other, found, count⟩ := consistent.counted _ used
    cases alive.symm.trans found
    apply recorded.other
    · intro id
      simp only [Multiset.mem_cons, or_iff_right_iff_imp]
      rintro rfl
      exact used
    · intro event member
      cases List.mem_singleton.mp member
      have positive := Multiset.count_pos.mpr used
      exact .inr ⟨_, _, rfl, by omega⟩
  | dropped settled alive more refs pool =>
    rw [refs] at consistent recorded
    have still := consistent.still alive more
    rw [pool]
    apply recorded.same
    intro id'
    simp only [Multiset.mem_cons, iff_or_self]
    rintro rfl
    exact still
  | recycled settled alive last exist refs pool =>
    rw [refs] at consistent recorded
    rw [pool]
    exact recorded.handBack (consistent.last alive last)
  | @destroyed _ _ id _ settled alive last gone refs pool =>
    rw [refs] at consistent recorded
    have destroyed : Recorded (w.pool.log ++ [.destroyed id]) (id ::ₘ t.refs) :=
      recorded.other (fun _ => Iff.rfl) (by simp)
    rw [pool]
    exact destroyed.handBack (consistent.last alive last)
  | edited used alive refs pool =>
    rw [refs, pool]
    exact recorded
  | popped settled exist popped refs pool =>
    rw [refs, pool, popped.frame]
    refine recorded.other (fun _ => Iff.rfl) ?_
    intro event member
    obtain ⟨id, -, same⟩ := List.mem_map.mp member
    exact .inl ⟨id, same.symm⟩
  | created exist fresh grown before refs usage pool =>
    rw [refs, pool, grown.frame]
    exact recorded
  | refused exist why => exact recorded
  | notCreated exist ready empty some grown early refs =>
    rw [refs, grown.frame]
    exact recorded
  | @front _ _ _ _ id _ _ exist ready queue alive handed =>
    exact handed.recorded recorded fun used => consistent.absent used (by simp [queue])
  | @expanded _ _ _ _ ids _ _ id _ exist ready empty several first grown nulls perm alive handed =>
    apply handed.recorded (by rw [Recycler.taken, grown.frame]; exact recorded)
    intro used
    obtain ⟨node, alive, -⟩ := consistent.counted _ used
    have member : id ∈ ids :=
      perm.mem_iff.mp (List.mem_append_right _ (List.mem_singleton_self _))
    have above := (grown.created member).1
    exact absurd (consistent.fresh.below alive) (Nat.not_lt_of_le above)

/-- What every reachable world satisfies. -/
structure Kept (w : World E) : Prop extends Sound w where
  recorded : Recorded w.pool.log w.refs

theorem Kept.new : Kept (World.new : World E) where
  toSound := Sound.new
  recorded := ⟨by simp [World.new, Recycler.new, refs], by simp [World.new, Recycler.new]⟩

theorem Kept.step (kept : Kept w) (stepped : step fp discipline type w label t) : Kept t := by
  constructor
  · exact kept.toSound.step stepped
  · exact (step_effect kept.toSound stepped).1.recorded kept.toConsistent kept.recorded

/-- The counts of a world: each node in use counts the handles on it, and its
history is in order. -/
structure Counted (w : World E) : Prop extends Recorded w.pool.log w.refs where
  refCount : ∀ id ∈ w.refs, ∃ node, w.pool.nodes.lookup id = some node ∧
    node.refCount = w.refs.count id

/-- Where the last handle of a node goes away the node is handed back: to the
queue, or to its destruction once the recycler is gone. -/
def HandsBack (w : World E) (_ : Label E) (t : World E) : Prop :=
  ∀ id, id ∈ w.refs → id ∉ t.refs →
    if w.pool.control.recycler then
      t.pool.queue = w.pool.queue ++ [some id] ∧
        ∃ node, t.pool.nodes.lookup id = some node ∧ node.refCount = recycledReferenceCount
    else t.pool.nodes.lookup id = none

theorem Effect.handsBack (effect : Effect fp type w label t)
    (consistent : Recycler.Consistent w.pool w.refs) : HandsBack w label t := by
  intro id used unused
  obtain ⟨node, alive, ⟨exist, pool⟩ | ⟨gone, pool⟩⟩ := effect.released consistent used unused
  · rw [if_pos exist, pool]
    exact ⟨rfl, _, AList.lookup_insert _, rfl⟩
  · rw [if_neg (by simp [gone]), pool]
    exact AList.lookup_erase _ _

/-- The calls that handles admit: a new handle comes where there is none, and
the others exist. -/
def Usable (w : World E) : Label E → Prop
  | .null this => w.handles.lookup this = none
  | .copy this rhs | .move this rhs | .castTo this rhs _ =>
    w.handles.lookup this = none ∧ w.handles.lookup rhs ≠ none
  | .swap this rhs => w.handles.lookup this ≠ none ∧ w.handles.lookup rhs ≠ none
  | .destruct this => w.handles.lookup this ≠ none
  | _ => False

theorem construct_returns {this : HandleId} (fresh : w.handles.lookup this = none)
    (handle : FRecycleHandle) : ∃ t, Program.Ends (FRecycleHandle.construct this handle) w t :=
  ⟨_, .inl ⟨_, FRecycleHandle.construct_fresh fresh handle⟩⟩

theorem copy_returns {this h : HandleId} {handle : FRecycleHandle} (sound : Sound w)
    (fresh : w.handles.lookup this = none) (live : w.handles.lookup h = some handle) :
    ∃ t, Program.Ends (do FRecycleHandle.incRefCount handle; FRecycleHandle.construct this handle)
      w t := by
  have counted : ∃ pool, FRecycleHandle.incRefCount handle w = .ok () { w with pool := pool } := by
    cases pointed : handle.node with
    | none => exact ⟨w.pool, by simp [FRecycleHandle.incRefCount, pointed]⟩
    | some id =>
      obtain ⟨node, alive, count, positive⟩ := sound.node live pointed
      rw [FRecycleHandle.incRefCount, if_pos (by simp [pointed]), pointed]
      exact ⟨_, onPool_ok (Recycler.incRefCount_live alive (by omega))⟩
  obtain ⟨pool, counted⟩ := counted
  simp only [Program.Ends, bind_ok counted]
  exact construct_returns (by exact fresh) handle

/-- A handle is released where a request for the lock is granted, or not made. -/
theorem release_returns {h : HandleId} {handle : FRecycleHandle} (sound : Sound w)
    (live : w.handles.lookup h = some handle)
    (free : w.pool.control.recycler = true → discipline = .granted) :
    ∃ pool, FRecycleHandle.releaseNode discipline handle.node w =
      .ok () { w with pool := pool } := by
  cases pointed : handle.node with
  | none => exact ⟨w.pool, rfl⟩
  | some id =>
    obtain ⟨node, alive, -, -⟩ := sound.node live pointed
    simp only [FRecycleHandle.releaseNode]
    rw [bind_ok (onPool_ok (Recycler.decRefCount_alive alive))]
    by_cases last : node.refCount = 1
    swap
    · rw [if_neg (by simpa using last)]
      exact ⟨_, rfl⟩
    rw [if_pos (by simpa using last)]
    simp only [FRecycleHandle.handBack, get_bind]
    have found : (w.pool.setNode id { node with refCount := node.refCount - 1 }).nodes.lookup id =
      some { node with refCount := node.refCount - 1 } := AList.lookup_insert _
    split
    next living =>
      obtain rfl := free living
      have ready : 0 ≤ w.pool.usage := by
        have bound := sound.used (refs_ne_zero live pointed)
        omega
      have ran := Recycler.recycle_granted (by exact sound.free) (by exact ready) found
      rw [bind_ok (onPool_ok ran)]
      exact ⟨_, rfl⟩
    next =>
      rw [bind_ok (onPool_ok (Recycler.destroyNode_alive (by exact found)))]
      exact ⟨_, rfl⟩

theorem destruct_returns {h : HandleId} {handle : FRecycleHandle} (sound : Sound w)
    (live : w.handles.lookup h = some handle)
    (free : w.pool.control.recycler = true → discipline = .granted) :
    ∃ pool, FRecycleHandle.destruct discipline h w =
      .ok () { w with pool := pool, handles := w.handles.erase h } := by
  obtain ⟨pool, released⟩ := release_returns sound live free
  have ran : FRecycleHandle.release discipline h w = .ok () { w with
      pool := pool, handles := w.handles.insert h { handle with node := none } } := by
    rw [FRecycleHandle.release, Program.noexcept, bind_ok (FRecycleHandle.read_live live),
      bind_ok released]
    rfl
  refine ⟨pool, (bind_ok ran _).trans ?_⟩
  rw [modify_apply, Table.erase_insert]

/-- Where a request for the lock is granted, every call of a handle returns. -/
theorem Sound.returns (sound : Sound w) (usable : Usable w label) :
    ∃ t, World.step fp .granted type w label t := by
  cases label with
  | null this =>
    obtain ⟨t, ends⟩ := construct_returns usable ⟨none, none⟩
    exact ⟨t, trivial, ends⟩
  | copy this rhs =>
    obtain ⟨handle, live⟩ := Option.ne_none_iff_exists'.mp usable.2
    obtain ⟨t, ends⟩ := copy_returns sound usable.1 live
    refine ⟨t, trivial, ?_⟩
    simpa only [World.run, FRecycleHandle.copy, Program.Ends,
      bind_ok (FRecycleHandle.read_live live)] using ends
  | move this rhs =>
    obtain ⟨handle, live⟩ := Option.ne_none_iff_exists'.mp usable.2
    exact ⟨_, trivial, .inl ⟨_, (bind_ok (FRecycleHandle.read_live live) _).trans
      (bind_ok (FRecycleHandle.construct_fresh usable.1 handle) _)⟩⟩
  | castTo result this target =>
    obtain ⟨handle, live⟩ := Option.ne_none_iff_exists'.mp usable.2
    simp only [World.step, World.run, FRecycleHandle.castTo, Program.Ends,
      bind_ok (FRecycleHandle.read_live live)]
    split
    · obtain ⟨t, ends⟩ := copy_returns sound usable.1 live
      exact ⟨t, trivial, ends⟩
    · obtain ⟨t, ends⟩ := construct_returns usable.1 ⟨none, none⟩
      exact ⟨t, trivial, ends⟩
  | swap this rhs =>
    obtain ⟨left, leftLive⟩ := Option.ne_none_iff_exists'.mp usable.1
    obtain ⟨right, rightLive⟩ := Option.ne_none_iff_exists'.mp usable.2
    exact ⟨_, trivial, .inl ⟨_, (bind_ok (FRecycleHandle.read_live leftLive) _).trans
      (bind_ok (FRecycleHandle.read_live rightLive) _)⟩⟩
  | destruct this =>
    obtain ⟨handle, live⟩ := Option.ne_none_iff_exists'.mp usable
    obtain ⟨pool, ran⟩ := destruct_returns sound live fun _ => rfl
    exact ⟨_, trivial, .inl ⟨_, ran⟩⟩
  | _ => exact usable.elim

theorem Kept.always {path : List (Label E × World E)}
    (run : Transition.Path (World.step fp discipline type) World.new path) :
    Transition.Always Kept World.new path := by
  apply run.invariant _ Kept.new
  intro w label t kept stepped
  exact kept.step stepped

/-- A run that performs the operations, one step after the other. -/
structure Performs (fp : Rounding) (discipline : Discipline) (type : RecycleType E)
    (operations : List (Operation E)) (path : List (Label E × World E)) : Prop where
  labels : path.map Prod.fst = operations.flatMap Operation.labels
  run : Transition.Path (World.step fp discipline type) World.new path

/-- Reference counts equal live handles, along every run and after each of its
steps, inside an operation as well; the last handle hands its node back; and the
next call of a handle comes back. -/
theorem refCount_counts_handles (fp : Rounding) (discipline : Discipline) (type : RecycleType E)
    {operations : List (Operation E)} {path : List (Label E × World E)}
    (performed : Performs fp discipline type operations path) :
    Transition.Always Counted World.new path ∧
    Transition.Path HandsBack World.new path ∧
    ∀ label, Usable (Transition.last World.new path) label →
      ∃ t, World.step fp .granted type (Transition.last World.new path) label t := by
  have always := Kept.always performed.run
  refine ⟨?_, ?_, ?_⟩
  · exact always.imp fun w kept => ⟨kept.recorded, kept.counted⟩
  · apply performed.run.steps _ always
    intro w label t kept stepped
    exact (step_effect kept.toSound stepped).1.handsBack kept.toConsistent
  · intro label usable
    exact always.last.toSound.returns usable

def sharing : List (Operation Unit) :=
  [.step (.initial (fun _ => .made) 1), .step (.acquire 0 "" fun _ => .made),
    .call 9 (.copyConstruct 1 0), .call 9 (.copyAssign 1 1), .call 9 (.moveAssign 0 1),
    .call 9 (.castTo 2 0 ""), .call 9 (.reset 0), .call 9 (.destruct 2)]

/-- Two handles share a node; assignments, a cast and a reset go by until the
last of them hands it back. -/
theorem refCount_counts_handles_sharing :
    let path := Transition.trace (World.next .exact .granted unitType) World.new
      (sharing.flatMap Operation.labels)
    path.length = 11 ∧ Transition.Always Counted World.new path := by
  have performed : Performs .exact .granted unitType sharing (Transition.trace
      (World.next .exact .granted unitType) World.new (sharing.flatMap Operation.labels)) :=
    ⟨rfl, Transition.trace_path World.next_step _⟩
  exact ⟨rfl, (refCount_counts_handles .exact .granted unitType performed).1⟩

end World
end Uranus
