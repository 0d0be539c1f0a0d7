import Uranus.Base.PoolConsistency

/-! Conservation of the nodes of a pool. It holds along a run exactly as long
as every acquisition takes a node that is already queued: the expansion queues
null pointers, or loses the nodes it created. -/
namespace Uranus
open Foundation Program
variable {E : Type} {fp : Rounding} {discipline : Discipline} {type : RecycleType E}

namespace World
variable {w t : World E} {label : Label E}

/-- Each node is idle in the queue or in use, and the counters say how many are. -/
structure Conserved (w : World E) : Prop where
  idle : ∀ pointer ∈ w.pool.queue, ∃ id node, pointer = some id ∧
    w.pool.nodes.lookup id = some node ∧ node.refCount = recycledReferenceCount
  distinct : w.pool.queue.Nodup
  unreferenced : ∀ id, some id ∈ w.pool.queue → id ∉ w.refs
  usage : w.pool.usage = w.refs.toFinset.card
  capacity : w.pool.queue.length + w.pool.usage = w.pool.nodes.size
  getCapacity : ∀ discipline, Recycler.getCapacity discipline w.pool =
    .ok (toSize w.pool.nodes.size) w.pool

/-- What conservation adds to the order that every reachable world keeps. -/
structure Balanced (w : World E) : Prop where
  nonNull : none ∉ w.pool.queue
  usage : w.pool.usage = w.refs.toFinset.card
  capacity : w.pool.queue.length + w.pool.usage = w.pool.nodes.size

theorem nodup_of_reduceOption {queue : List (Option NodeId)} (nonNull : none ∉ queue)
    (distinct : queue.reduceOption.Nodup) : queue.Nodup := by
  induction queue with
  | nil => exact List.nodup_nil
  | cons pointer queue ih =>
    cases pointer with
    | none => exact absurd List.mem_cons_self nonNull
    | some id =>
      rw [List.reduceOption_cons_of_some, List.nodup_cons] at distinct
      have first : some id ∉ queue := fun again =>
        distinct.1 (List.reduceOption_mem_iff.mpr again)
      have others := ih (fun null => nonNull (List.mem_cons_of_mem _ null)) distinct.2
      exact List.nodup_cons.mpr ⟨first, others⟩

theorem conserved_iff (consistent : Recycler.Consistent w.pool w.refs) :
    Conserved w ↔ Balanced w := by
  constructor
  · intro conserved
    have nonNull : none ∉ w.pool.queue := by
      intro null
      obtain ⟨id, node, wrong, -⟩ := conserved.idle none null
      cases wrong
    exact ⟨nonNull, conserved.usage, conserved.capacity⟩
  · intro balanced
    have ready : 0 ≤ w.pool.usage := by
      rw [balanced.usage]
      exact Int.natCast_nonneg _
    refine ⟨?_, nodup_of_reduceOption balanced.nonNull consistent.distinct, ?_, balanced.usage,
      balanced.capacity, ?_⟩
    · intro pointer member
      cases pointer with
      | none => exact absurd member balanced.nonNull
      | some id =>
        obtain ⟨node, alive, idle⟩ := consistent.idle id member
        exact ⟨id, node, rfl, alive, idle⟩
    · intro id queued used
      exact consistent.absent used queued
    · intro discipline
      rw [Recycler.getCapacity_free consistent.free ready, balanced.capacity]

/-- What a step needs to conserve the nodes: an acquisition finds a queued node
of the type it asks for, or stops before it creates any. -/
def Conserves (type : RecycleType E) (w : World E) : Label E → Prop
  | .acquire _ target outcome =>
    match w.pool.queue with
    | [] => w.pool.usage = 0 ∨ outcome 0 = .createThrows
    | _ :: _ => type.isA target = true
  | _ => True

theorem expandNum_pos {pool : Recycler E} : 0 < pool.expandNum fp ↔ 0 < pool.usage := by
  rw [Recycler.expandNum, recyclerExpandRate]
  constructor
  · intro some
    by_contra none
    have zero : pool.usage.toNat = 0 := by omega
    rw [zero, fp.scaled_one_small (Nat.zero_le _)] at some
    exact absurd some (Nat.lt_irrefl 0)
  · intro some
    exact fp.le_scaled_one (by norm_num) (by omega)

theorem card_cons_used {refs : Multiset NodeId} {id : NodeId} (used : id ∈ refs) :
    (id ::ₘ refs).toFinset.card = refs.toFinset.card := by
  rw [Multiset.toFinset_cons, Finset.insert_eq_self.mpr (Multiset.mem_toFinset.mpr used)]

theorem card_cons_unused {refs : Multiset NodeId} {id : NodeId} (unused : id ∉ refs) :
    (id ::ₘ refs).toFinset.card = refs.toFinset.card + 1 := by
  rw [Multiset.toFinset_cons, Finset.card_insert_of_notMem (by rwa [Multiset.mem_toFinset])]

/-- The balance is about the queue, the usage and how many nodes there are and in use. -/
theorem Balanced.keep (balanced : Balanced w) (queue : t.pool.queue = w.pool.queue)
    (usage : t.pool.usage = w.pool.usage) (size : t.pool.nodes.size = w.pool.nodes.size)
    (used : t.refs.toFinset.card = w.refs.toFinset.card) : Balanced t where
  nonNull := by
    rw [queue]
    exact balanced.nonNull
  usage := by
    rw [usage, used]
    exact balanced.usage
  capacity := by
    rw [queue, usage, size]
    exact balanced.capacity

/-- A step that meets its condition keeps the balance, as long as the recycler exists. -/
theorem Effect.balanced (effect : Effect fp type w label t)
    (consistent : Recycler.Consistent w.pool w.refs)
    (balanced : w.pool.control.recycler = true → Balanced w) (conserves : Conserves type w label)
    (exist : t.pool.control.recycler = true) : Balanced t := by
  cases effect with
  | quiet settled refs pool =>
    rw [pool] at exist
    apply (balanced exist).keep
    · rw [pool]
    · rw [pool]
    · rw [pool]
    · rw [refs]
  | shared settled used alive refs pool =>
    rw [pool] at exist
    apply (balanced exist).keep
    · rw [pool]
      rfl
    · rw [pool]
      rfl
    · rw [pool]
      exact Table.size_insert_present alive
    · rw [refs, card_cons_used used]
  | dropped settled alive more refs pool =>
    rw [pool] at exist
    apply (balanced exist).keep
    · rw [pool]
      rfl
    · rw [pool]
      rfl
    · rw [pool]
      exact Table.size_insert_present alive
    · rw [refs] at consistent
      rw [refs, card_cons_used (consistent.still alive more)]
  | recycled settled alive last exist refs pool =>
    obtain ⟨nonNull, usage, capacity⟩ := balanced exist
    rw [refs] at consistent usage
    have absent := consistent.last alive last
    rw [card_cons_unused absent] at usage
    constructor <;> rw [pool] <;> simp only [Recycler.queued, Recycler.record]
    · simp [nonNull]
    · omega
    · simp only [Table.size_insert_present alive, List.length_append, List.length_singleton]
      omega
  | destroyed settled alive last gone refs pool =>
    rw [pool] at exist
    exact absurd (gone.symm.trans exist) (by simp)
  | edited used alive refs pool =>
    rw [pool] at exist
    apply (balanced exist).keep
    · rw [pool]
      rfl
    · rw [pool]
      rfl
    · rw [pool]
      exact Table.size_insert_present alive
    · rw [refs]
  | popped settled exist popped refs pool =>
    obtain ⟨nonNull, usage, capacity⟩ := balanced exist
    have size := popped.size
    have split := popped.queue_eq
    rw [split, List.mem_append, not_or] at nonNull
    rw [split, List.length_append, List.length_map] at capacity
    constructor <;> rw [pool]
    · exact nonNull.2
    · rw [refs, popped.frame]
      exact usage
    · rw [popped.frame]
      simp only
      omega
  | created exist fresh grown before refs usage pool =>
    have used := (balanced exist).usage
    omega
  | refused exist why => exact balanced exist
  | notCreated exist ready empty some grown early refs =>
    have used : w.pool.usage ≠ 0 := (expandNum_pos.mp some).ne'
    rw [Conserves, empty] at conserves
    obtain rfl := early.mpr (conserves.resolve_left used)
    have same := grown.none_created
    obtain ⟨nonNull, usage, capacity⟩ := balanced exist
    constructor <;> rw [same]
    · exact nonNull
    · rw [refs]
      exact usage
    · exact capacity
  | @front h target outcome t id rest node exist ready queue alive handed =>
    obtain ⟨nonNull, usage, capacity⟩ := balanced exist
    rw [Conserves, queue] at conserves
    have unused : id ∉ w.refs := fun used => consistent.absent used (by simp [queue])
    cases handed with
    | lost badCast now same => exact absurd (conserves.symm.trans badCast) (by simp)
    | held castable now same =>
      rw [queue] at nonNull capacity
      constructor <;> rw [same] <;> simp only [Recycler.taken, Recycler.record]
      · exact fun null => nonNull (List.mem_cons_of_mem _ null)
      · rw [now, card_cons_unused unused, usage]
        push_cast
        rfl
      · rw [Table.size_insert_present alive, ← capacity]
        simp only [List.length_cons]
        push_cast
        omega
  | expanded exist ready empty several first grown nulls perm alive handed =>
    have used : w.pool.usage ≠ 0 := (expandNum_pos.mp (Nat.zero_lt_of_lt several)).ne'
    rw [Conserves, empty] at conserves
    exact absurd (conserves.resolve_left used) first

/-- A step that does not meet its condition loses the balance. -/
theorem Effect.unbalanced (effect : Effect fp type w label t)
    (consistent : Recycler.Consistent w.pool w.refs)
    (balanced : w.pool.control.recycler = true → Balanced w) (violates : ¬ Conserves type w label) :
    t.pool.control.recycler = true ∧ ¬ Balanced t := by
  cases label with
  | acquire h target outcome =>
    cases effect with
    | quiet settled | shared settled | dropped settled | recycled settled | destroyed settled
    | popped settled => exact absurd rfl (settled h target outcome)
    | refused exist why =>
      have usage := (balanced exist).usage
      rcases why with idle | ⟨empty, none⟩
      · omega
      · rw [Conserves, empty, not_or] at violates
        have some : 0 < w.pool.expandNum fp := expandNum_pos.mpr (by omega)
        exact absurd none some.ne'
    | @notCreated _ _ _ _ ids exist ready empty some grown early refs =>
      obtain ⟨-, -, capacity⟩ := balanced exist
      rw [Conserves, empty, not_or] at violates
      have created : ids ≠ [] := fun none => violates.2 (early.mp none)
      have positive := List.length_pos_iff.mpr created
      apply And.intro (grown.recycler.trans exist)
      intro after
      have later := after.capacity
      rw [grown.size consistent.fresh, grown.frame] at later
      simp only at later
      push_cast at later
      omega
    | @front _ _ _ _ id rest node exist ready queue alive handed =>
      obtain ⟨-, usage, -⟩ := balanced exist
      rw [Conserves, queue] at violates
      cases handed with
      | held castable now same => exact absurd castable violates
      | lost badCast now same =>
        rw [same]
        apply And.intro exist
        intro after
        have later := after.usage
        rw [now, same, Recycler.taken] at later
        simp only at later
        omega
    | @expanded _ _ _ _ ids later nodes id node exist ready empty several first grown nulls perm
        alive handed =>
      have null : none ∈ nodes := by
        apply nulls.subset
        rw [List.mem_replicate]
        exact ⟨by omega, rfl⟩
      cases handed with
      | held castable now same | lost badCast now same =>
        constructor
        · rw [same]
          exact grown.recycler.trans exist
        · intro after
          have nonNull := after.nonNull
          rw [same] at nonNull
          exact nonNull null
  | _ => exact absurd trivial violates

theorem initial_balanced {outcome : Nat → Creation} {c : Nat} {pool : Recycler E}
    (initial : Recycler.initial type outcome c Recycler.new = .ok () pool) :
    Balanced (⟨pool, ∅⟩ : World E) := by
  simp only [Recycler.initial, get_bind] at initial
  rw [throwIf_bind (by simp [Recycler.new])] at initial
  obtain ⟨ids, created, later, grown, before, -, ⟨ran, all, length⟩ | ⟨what, ran⟩⟩ :=
    Recycler.initialLoop_cases type outcome 0 c (Recycler.new : Recycler E)
  swap
  · cases initial.symm.trans (bind_error ran _)
  cases initial.symm.trans (bind_ok ran _)
  have size := grown.size (fun _ _ => rfl)
  refine ⟨?_, rfl, ?_⟩
  · simp [Recycler.new]
  · simp only [Recycler.new, List.nil_append, List.length_map, all]
    simp [size, Recycler.new]

/-- Conservation after `Initial`, along every run and as long as the recycler
exists: it holds throughout if and only if every acquisition meets its
condition. -/
theorem conserved_iff_conserves (fp : Rounding) (discipline : Discipline) (type : RecycleType E)
    (outcome : Nat → Creation) (c : Nat) {pool : Recycler E}
    (initial : Recycler.initial type outcome c Recycler.new = .ok () pool)
    {path : List (Label E × World E)}
    (run : Transition.Path (World.step fp discipline type) ⟨pool, ∅⟩ path) :
    Transition.Always (fun w => w.pool.control.recycler = true → Conserved w) ⟨pool, ∅⟩ path ↔
      Transition.Every (Conserves type) ⟨pool, ∅⟩ path := by
  have sound : Sound ⟨pool, ∅⟩ := Sound.new.step (step_initial fp discipline initial)
  have started := (conserved_iff sound.toConsistent).mpr (initial_balanced initial)
  refine run.always_iff_every (fun sound stepped => sound.step stepped) ?_ ?_ sound
    fun _ => started
  · intro w label t sound conserved conserves stepped exist
    have effect := (step_effect sound stepped).1
    apply (conserved_iff (effect.consistent sound.toConsistent)).mpr
    apply effect.balanced sound.toConsistent _ conserves exist
    intro exist
    exact (conserved_iff sound.toConsistent).mp (conserved exist)
  · intro w label t sound conserved violates stepped after
    have effect := (step_effect sound stepped).1
    obtain ⟨exist, unbalanced⟩ := effect.unbalanced sound.toConsistent
      (fun exist => (conserved_iff sound.toConsistent).mp (conserved exist)) violates
    exact unbalanced ((conserved_iff (effect.consistent sound.toConsistent)).mp (after exist))

/-- The nodes of a recycler of capacity one, its handles and the run of two acquisitions. -/
def initialised : Recycler Unit :=
  match Recycler.initial unitType (fun _ => .made) 1 Recycler.new with
  | .ok _ pool | .error _ pool => pool

def acquireTwice : List (Label Unit × World Unit) :=
  Transition.trace (World.next .exact .granted unitType) ⟨initialised, ∅⟩
    [.acquire 0 "" fun _ => .made, .acquire 1 "" fun _ => .made]

/-- The second acquisition finds no queued node: it creates one and loses it. -/
theorem acquireTwice_loses :
    Recycler.initial unitType (fun _ => .made) 1 Recycler.new = .ok () initialised ∧
    Transition.Path (World.step .exact .granted unitType) ⟨initialised, ∅⟩ acquireTwice ∧
    ¬ Transition.Always (fun w => w.pool.control.recycler = true → Conserved w)
      ⟨initialised, ∅⟩ acquireTwice := by
  refine ⟨rfl, Transition.trace_path World.next_step _, fun always => ?_⟩
  have capacity := (always.last (by decide +kernel)).capacity
  revert capacity
  decide +kernel

theorem conserved_iff_conserves_twice :
    Transition.Always (fun w => w.pool.control.recycler = true → Conserved w)
      ⟨initialised, ∅⟩ acquireTwice ↔
      Transition.Every (Conserves unitType) ⟨initialised, ∅⟩ acquireTwice :=
  conserved_iff_conserves .exact .granted unitType (fun _ => .made) 1 rfl
    (Transition.trace_path World.next_step _)

end World
end Uranus
