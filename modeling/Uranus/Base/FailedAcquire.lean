import Uranus.Base.PoolConservation

/-! Acquisitions that throw. A refusal at the head leaves the pool as it was, and
so does the first creation when it gives no node; whatever fails later loses the
nodes it has in hand. -/
namespace Uranus
open Foundation Program
variable {E : Type} {fp : Rounding} {discipline : Discipline} {type : RecycleType E}

namespace World
variable {w t u : World E} {h : HandleId} {target what : String} {outcome : Nat → Creation}

/-- The node is idle in the queue, or a handle points to it. -/
def Owned (w : World E) (id : NodeId) : Prop := some id ∈ w.pool.queue ∨ id ∈ w.refs

instance (w : World E) (id : NodeId) : Decidable (w.Owned id) :=
  inferInstanceAs (Decidable (_ ∨ _))

/-- No node is lost: every node that was created and not destroyed is owned. -/
def Unlost (w : World E) : Prop := ∀ id, w.pool.nodes.lookup id ≠ none → w.Owned id

theorem unlost_iff_keys : Unlost w ↔ ∀ id ∈ w.pool.nodes.keys, w.Owned id := by
  apply forall_congr'
  intro id
  rw [← Option.isSome_iff_ne_none, AList.lookup_isSome]
  exact Iff.rfl

instance (w : World E) : Decidable (Unlost w) := decidable_of_iff' _ unlost_iff_keys

theorem unlost_congr (pool : t.pool = w.pool) (refs : t.refs = w.refs) :
    Unlost t ↔ Unlost w := by
  unfold Unlost Owned
  rw [pool, refs]

/-- The pool is as it was, but for new nodes that became idle, and no node is lost. -/
structure Intact (w t : World E) : Prop where
  usage : t.pool.usage = w.pool.usage
  idle : ∃ ids : List NodeId, t.pool.queue.Perm (w.pool.queue ++ ids.map some) ∧
    ∀ id ∈ ids, w.pool.nodes.lookup id = none
  unlost : Unlost t

/-- What an acquisition leaves that changes nothing is as good as what it found. -/
theorem intact_same (pool : t.pool = w.pool) (refs : t.refs = w.refs) :
    Intact w t ↔ Unlost w := by
  rw [← unlost_congr pool refs]
  constructor
  · exact Intact.unlost
  · exact fun unlost => ⟨by rw [pool], ⟨[], by simp [pool], by simp⟩, unlost⟩

theorem ofNode_threw {pNode : Option NodeId}
    (threw : FRecycleHandle.ofNode type h target pNode u = .error (.exception what) t) :
    t.handles = u.handles := by
  cases pNode with
  | none =>
    have ran : FRecycleHandle.ofNode type h target none u = .error .undefined u := rfl
    cases ran.symm.trans threw
  | some id =>
    cases alive : u.pool.nodes.lookup id with
    | none =>
      have ran : FRecycleHandle.ofNode type h target (some id) u = .error .undefined u :=
        bind_error (onPool_error (Recycler.deref_dead alive)) _
      cases ran.symm.trans threw
    | some node =>
      have found : onPool (Recycler.deref (some id)) u = .ok (id, node) u :=
        onPool_ok (Recycler.deref_alive alive)
      simp only [FRecycleHandle.ofNode, bind_ok found] at threw
      cases castable : type.isA target with
      | false =>
        rw [throwIf_throw_bind castable] at threw
        cases threw
        rfl
      | true =>
        rw [throwIf_bind (by simp [castable]), bind_ok (onPool_ok (modify_apply _ _))] at threw
        by_cases fresh : u.handles.lookup h = none
        · cases (FRecycleHandle.construct_fresh (by exact fresh) _).symm.trans threw
        · cases (FRecycleHandle.construct_live (by exact fresh) _).symm.trans threw

/-- No handle comes of an acquisition that throws. -/
theorem acquire_threw (threw : acquire fp discipline type h target outcome w =
    .error (.exception what) t) : t.refs = w.refs := by
  apply refs_eq
  rw [acquire, bind_apply] at threw
  cases ran : onRecycler (Recycler.acquireNode fp discipline type outcome) w with
  | error fault u =>
    rw [ran] at threw
    cases threw
    exact (onRecycler_ends (.inr ⟨what, ran⟩)).2.2
  | ok pNode u =>
    rw [ran] at threw
    exact (ofNode_threw threw).trans (onRecycler_ends (.inl ⟨pNode, ran⟩)).2.2

/-- Nothing was changed before the exception. -/
def Untouched (w : World E) (outcome : Nat → Creation) : Prop :=
  w.pool.usage < 0 ∨ w.pool.queue = [] ∧ (w.pool.usage = 0 ∨ outcome 0 = .createThrows)

theorem Handed.usage {id : NodeId} {pool : Recycler E} {refs : Multiset NodeId}
    (handed : Handed type target id pool refs t) : t.pool.usage = pool.usage := by
  cases handed with
  | held castable now same => rw [same, Recycler.record]
  | lost badCast now same => rw [same]

theorem Effect.intact_iff (effect : Effect fp type w (.acquire h target outcome) t)
    (consistent : Recycler.Consistent w.pool w.refs) (refs : t.refs = w.refs) :
    Intact w t ↔ Unlost w ∧ Untouched w outcome := by
  cases effect with
  | quiet settled | shared settled | dropped settled | recycled settled | destroyed settled
  | popped settled => exact absurd rfl (settled h target outcome)
  | refused exist why =>
    rw [intact_same rfl rfl, iff_self_and]
    intro _
    rcases why with idle | ⟨empty, none⟩
    · exact .inl idle
    · have unused : ¬ 0 < w.pool.usage := fun used => (expandNum_pos.mpr used).ne' none
      by_cases idle : w.pool.usage < 0
      · exact .inl idle
      · exact .inr ⟨empty, .inl (by omega)⟩
  | @notCreated _ _ _ _ ids exist ready empty some grown early =>
    have used : 0 < w.pool.usage := expandNum_pos.mp some
    have condition : Untouched w outcome ↔ ids = [] := by
      rw [early, Untouched]
      constructor
      · rintro (idle | ⟨-, unused | threw⟩)
        · omega
        · omega
        · exact threw
      · exact fun threw => .inr ⟨empty, .inr threw⟩
    rw [condition]
    constructor
    · intro intact
      have none_created : ids = [] := by
        -- a new node is neither queued nor in use
        rw [List.eq_nil_iff_forall_not_mem]
        intro id member
        obtain ⟨above, element, alive⟩ := grown.created member
        rcases intact.unlost id (by simp [alive]) with queued | held
        · rw [grown.frame] at queued
          simp [empty] at queued
        · rw [refs] at held
          obtain ⟨node, found, -⟩ := consistent.counted id held
          cases (consistent.fresh id above).symm.trans found
      obtain rfl := none_created
      exact ⟨(intact_same grown.none_created refs).mp intact, rfl⟩
    · rintro ⟨unlost, rfl⟩
      exact (intact_same grown.none_created refs).mpr unlost
  | front exist ready queue alive handed =>
    apply iff_of_false
    · intro intact
      have counted := handed.usage.symm.trans intact.usage
      simp only [Recycler.taken] at counted
      omega
    · rintro ⟨-, idle | ⟨empty, -⟩⟩
      · omega
      · cases queue.symm.trans empty
  | expanded exist ready empty several first grown nulls perm alive handed =>
    apply iff_of_false
    · intro intact
      have counted := handed.usage.symm.trans intact.usage
      rw [Recycler.taken, grown.frame] at counted
      simp only at counted
      omega
    · have used : 0 < w.pool.usage := expandNum_pos.mp (Nat.zero_lt_of_lt several)
      rintro ⟨-, idle | ⟨-, unused | threw⟩⟩
      · omega
      · omega
      · exact first threw

/-- An acquisition that throws, in any state that a run leads to, leaves the pool
intact exactly if no node was lost before and it throws before it has changed anything. -/
theorem intact_iff_untouched (fp : Rounding) (discipline : Discipline) (type : RecycleType E)
    {path : List (Label E × World E)}
    (run : Transition.Path (World.step fp discipline type) World.new path)
    (threw : World.run fp discipline type (.acquire h target outcome)
      (Transition.last World.new path) = .error (.exception what) t) :
    Intact (Transition.last World.new path) t ↔
      Unlost (Transition.last World.new path) ∧
        Untouched (Transition.last World.new path) outcome := by
  have always : Transition.Always Sound World.new path := by
    apply run.invariant _ Sound.new
    intro w label t sound stepped
    exact sound.step stepped
  have sound := always.last
  have effect := (acquire_effect sound (.inr ⟨what, threw⟩)).1
  exact effect.intact_iff sound.toConsistent (acquire_threw threw)

/-- Elements that are of no type that is asked for. -/
def foreignType : RecycleType Unit := { unitType with isA := fun _ => false }

/-- A pool of capacity one after its `Initial`. -/
def filled : List (Label Unit × World Unit) :=
  Transition.trace (World.next .exact .granted foreignType) World.new [.initial (fun _ => .made) 1]

/-- The only node is dequeued and counted as used, and then its element cannot be cast. -/
theorem badCast_loses :
    Transition.Path (World.step .exact .granted foreignType) World.new filled ∧
    ∃ t, World.run .exact .granted foreignType (.acquire 0 "" fun _ => .made)
        (Transition.last World.new filled) = .error (.exception "bad_cast") t ∧
      t.pool.nodes.lookup 0 ≠ none ∧ ¬ t.Owned 0 ∧
      ¬ Intact (Transition.last World.new filled) t := by
  refine ⟨Transition.trace_path World.next_step _, _, rfl, by decide +kernel, ?_, ?_⟩
  · rintro (queued | held)
    · revert queued
      decide +kernel
    · revert held
      decide +kernel
  · intro intact
    have usage := intact.usage
    revert usage
    decide +kernel

/-- A pool of capacity one whose node is in use. -/
def inUse : List (Label Unit × World Unit) :=
  Transition.trace (World.next .exact .granted unitType) World.new
    [.initial (fun _ => .made) 1, .acquire 0 "" fun _ => .made]

/-- The queue is empty, and the first node that should be created is not. -/
theorem intact_iff_untouched_inUse :
    (Transition.last World.new inUse).pool.usage = 1 ∧
    Intact (Transition.last World.new inUse) (Transition.last World.new inUse) := by
  have run : Transition.Path (World.step .exact .granted unitType) World.new inUse :=
    Transition.trace_path World.next_step _
  have threw : World.run .exact .granted unitType (.acquire 1 "" fun _ => .createThrows)
      (Transition.last World.new inUse) =
    .error (.exception "CreateNode") (Transition.last World.new inUse) := by
    with_unfolding_all rfl
  have untouched : Untouched (Transition.last World.new inUse) fun _ => .createThrows :=
    .inr ⟨by decide +kernel, .inr rfl⟩
  refine ⟨by decide +kernel, ?_⟩
  exact (intact_iff_untouched .exact .granted unitType run threw).mpr
    ⟨by decide +kernel, untouched⟩

end World
end Uranus
