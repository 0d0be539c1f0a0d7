import Uranus.Base.PoolConservation

/-! Acquisition from a pool in any state that a run leads to. A queued node is
handed out; an empty queue is no reason to hand out one, and where it is, null
pointers take the place of nodes in the queue. -/
namespace Uranus
open Foundation Program
variable {E : Type} {fp : Rounding} {discipline : Discipline} {type : RecycleType E}

namespace World
variable {w t : World E} {label : Label E} {id : NodeId}

/-- What an expansion is to leave: as many new nodes as are in use, one of them
acquired, the others queued and ready to be acquired. -/
structure Expands (before : Recycler E) (id : NodeId) (after : Recycler E) (ids : List NodeId) :
    Prop where
  number : (ids.length : Int) = before.usage
  size : after.nodes.size = before.nodes.size + ids.length
  distinct : ids.Nodup
  new : ∀ other ∈ ids, before.nodes.lookup other = none
  picked : id ∈ ids
  queue : after.queue.Perm ((ids.erase id).map some)
  idle : ∀ other ∈ ids.erase id, ∃ node, after.nodes.lookup other = some node ∧
    node.refCount = recycledReferenceCount

/-- The acquisition returns a node that no handle points to, with a count of one,
and expands the pool where the queue is empty. -/
def Acquires (fp : Rounding) (discipline : Discipline) (type : RecycleType E) (w : World E) :
    Prop :=
  ∃ id after,
    Recycler.acquireNode fp discipline type (fun _ => .made) w.pool = .ok (some id) after ∧
    id ∉ w.refs ∧
    (∃ node, after.nodes.lookup id = some node ∧ node.refCount = 1) ∧
    (w.pool.queue = [] → 1 ≤ w.pool.usage → ∃ ids, Expands w.pool id after ids)

/-- An initialised recycler stays so. -/
theorem Effect.ready (effect : Effect fp type w label t)
    (consistent : Recycler.Consistent w.pool w.refs) (ready : 0 ≤ w.pool.usage) :
    0 ≤ t.pool.usage := by
  cases effect with
  | quiet settled refs pool | shared settled used alive refs pool
  | dropped settled alive more refs pool | destroyed settled alive last gone refs pool
  | edited used alive refs pool =>
    rw [pool]
    exact ready
  | recycled settled alive last exist refs pool =>
    rw [refs] at consistent
    have bound := consistent.used_last (consistent.last alive last)
    rw [pool]
    simp only [Recycler.queued, Recycler.record]
    omega
  | popped settled exist popped refs pool =>
    rw [pool, popped.frame]
    exact ready
  | created exist fresh grown before refs usage pool => omega
  | refused exist why => exact ready
  | notCreated exist _ empty some grown early refs =>
    rw [grown.frame]
    exact ready
  | front exist _ queue alive handed =>
    cases handed with
    | held castable now same | lost badCast now same =>
      rw [same]
      simp only [Recycler.taken, Recycler.record]
      omega
  | expanded exist _ empty several first grown nulls perm alive handed =>
    cases handed with
    | held castable now same | lost badCast now same =>
      rw [same, Recycler.taken, grown.frame]
      simp only [Recycler.record]
      omega

/-- An expansion that returns has put a null pointer into the queue. -/
theorem not_expands {later : Recycler E} {nodes : List (Option NodeId)} {node : ElementNode E}
    {ids : List NodeId} {num : Nat} (several : 1 < num)
    (nulls : List.replicate (num - 1) none <+: nodes) :
    ¬ Expands w.pool id (Recycler.taken type later nodes id node) ids := by
  intro expands
  have null : none ∈ nodes := nulls.subset (List.mem_replicate.mpr ⟨by omega, rfl⟩)
  have wrong := expands.queue.subset null
  simp at wrong

/-- Where the recycler is initialised, it hands out a node as it should exactly if
the front of the queue is one. -/
theorem acquires_iff (sound : Sound w) (ready : 0 ≤ w.pool.usage) :
    Acquires fp discipline type w ↔ ∃ id rest, w.pool.queue = some id :: rest := by
  have acquisition := Recycler.acquireNode_cases fp discipline type (fun _ => .made) sound.free
  constructor
  · rintro ⟨id, after, ran, -, -, expands⟩
    rw [ran] at acquisition
    cases acquisition with
    | front ready queue alive idle => exact ⟨id, _, queue⟩
    | expanded ready empty several first grown nulls perm alive =>
      have used : 0 < w.pool.usage := expandNum_pos.mp (Nat.zero_lt_of_lt several)
      obtain ⟨ids, expands⟩ := expands empty used
      exact absurd expands (not_expands several nulls)
  · rintro ⟨id, rest, queue⟩
    obtain ⟨node, alive, idle⟩ := sound.idle id (by simp [queue])
    have unused : id ∉ w.refs := fun used => sound.absent used (by simp [queue])
    have nonempty : w.pool.queue ≠ [] := by simp [queue]
    generalize ran : Recycler.acquireNode fp discipline type (fun _ => .made) w.pool = result
      at acquisition
    cases acquisition with
    | uninitialised idle => omega
    | front ready first alive idle =>
      cases queue.symm.trans first
      refine ⟨id, _, ran, unused, ⟨_, AList.lookup_insert _, rfl⟩, ?_⟩
      exact fun empty => absurd empty nonempty
    | used ready first found used =>
      cases queue.symm.trans first
      cases alive.symm.trans found
      exact absurd idle used
    | broken ready first dead =>
      cases queue.symm.trans first
      cases alive.symm.trans (dead id rfl)
    | unused ready empty none => exact absurd empty nonempty
    | notCreated what ready empty some grown early => exact absurd empty nonempty
    | expanded ready empty several first grown nulls perm alive => exact absurd empty nonempty

/-- In every state that a run from an initialised recycler leads to, with exact
conversions, an acquisition is as it should be exactly if a node is queued in front. -/
theorem acquires_iff_front (discipline : Discipline) (type : RecycleType E)
    (outcome : Nat → Creation) (c : Nat) {pool : Recycler E}
    (initial : Recycler.initial type outcome c Recycler.new = .ok () pool)
    {path : List (Label E × World E)}
    (run : Transition.Path (World.step .exact discipline type) ⟨pool, ∅⟩ path) :
    Transition.Always (fun w => w.pool.control.recycler = true →
      (Acquires .exact discipline type w ↔ ∃ id rest, w.pool.queue = some id :: rest))
      ⟨pool, ∅⟩ path := by
  have sound : Sound ⟨pool, ∅⟩ := Sound.new.step (step_initial .exact discipline initial)
  have ready : 0 ≤ pool.usage := by
    have none := (initial_balanced initial).usage
    rw [none]
    exact Int.natCast_nonneg _
  have always : Transition.Always (fun w : World E => Sound w ∧ 0 ≤ w.pool.usage) ⟨pool, ∅⟩
      path := by
    apply run.invariant _ ⟨sound, ready⟩
    intro w label t holds stepped
    have effect := (step_effect holds.1 stepped).1
    exact ⟨holds.1.step stepped, effect.ready holds.1.toConsistent holds.2⟩
  exact always.imp fun w holds _ => acquires_iff holds.1 holds.2

/-- The node of a pool of capacity one is handed out. -/
theorem acquires_iff_front_first : Acquires .exact .granted unitType ⟨initialised, ∅⟩ :=
  ((acquires_iff_front .granted unitType (fun _ => .made) 1 rfl
    (Transition.trace_path World.next_step [.acquire 0 "" fun _ => .made])).first rfl).mpr
    ⟨0, [], rfl⟩

def acquireOnce : List (Label Unit × World Unit) :=
  Transition.trace (World.next .exact .granted unitType) ⟨initialised, ∅⟩
    [.acquire 0 "" fun _ => .made]

/-- With its only node in use, the pool creates another one and throws. -/
theorem acquireOnce_throws :
    Recycler.initial unitType (fun _ => .made) 1 Recycler.new = .ok () initialised ∧
    Transition.Path (World.step .exact .granted unitType) ⟨initialised, ∅⟩ acquireOnce ∧
    (Transition.last ⟨initialised, ∅⟩ acquireOnce).pool.control.recycler = true ∧
    (Transition.last ⟨initialised, ∅⟩ acquireOnce).pool.queue = [] ∧
    (Transition.last ⟨initialised, ∅⟩ acquireOnce).pool.usage = 1 ∧
    ¬ Acquires .exact .granted unitType (Transition.last ⟨initialised, ∅⟩ acquireOnce) := by
  refine ⟨rfl, Transition.trace_path World.next_step _, by decide +kernel, by decide +kernel,
    by decide +kernel, ?_⟩
  rintro ⟨id, after, ran, -⟩
  have threw : (match Recycler.acquireNode .exact .granted unitType (fun _ => .made)
      (Transition.last ⟨initialised, ∅⟩ acquireOnce).pool with
    | .ok _ _ => true
    | .error _ _ => false) = false := by decide +kernel
  rw [ran] at threw
  cases threw

end World
end Uranus
