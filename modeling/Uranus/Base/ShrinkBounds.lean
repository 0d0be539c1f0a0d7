import Mathlib.Tactic.Linarith
import Uranus.Base.RecyclerSpec

/-! The bounds of `Shrink`. With less than the minimum in a pool that it takes for
too large, the difference to the minimum wraps, and every idle node goes. -/
namespace Uranus.Recycler
open Foundation Program
variable {E : Type} {discipline : Discipline} {pool : Recycler E}

/-- The nodes of a pool, in use and idle. -/
def total (pool : Recycler E) : Nat := pool.queue.length + pool.usage.toNat

/-- What `mShrinkRate` makes of the total. -/
def shrinkShare (pool : Recycler E) : Nat := ⌊(pool.total : ℚ) * pool.shrinkRate⌋.toNat

/-- The subtractions of unsigned sizes that `Shrink` makes on the way to its count. -/
def shrinkSubtractions (fp : Rounding) (pool : Recycler E) : List (Nat × Nat) :=
  (shrinkPlan fp pool).1

/-- An initialised pool whose queue holds idle nodes, with sizes that fit and
settings in their ranges. -/
structure Shrinkable (pool : Recycler E) : Prop where
  free : pool.held = []
  ready : 0 ≤ pool.usage
  idle : Destroyable pool pool.queue
  fits : pool.queue.length + pool.usage < 2 ^ 64
  count : 0 ≤ pool.shrinkCount ∧ pool.shrinkCount < 2 ^ 31
  rate : 0 ≤ pool.shrinkRate ∧ pool.shrinkRate ≤ 1

/-- `Shrink` destroys idle nodes, no more than its share, it leaves the minimum
capacity, and no subtraction wraps. -/
def Bounded (discipline : Discipline) (pool : Recycler E) : Prop :=
  ∃ ids later, shrink .exact discipline pool = .ok () later ∧ Popped pool ids later ∧
    ids.length ≤ pool.shrinkShare ∧ min pool.total recyclerMinimumCapacity ≤ later.total ∧
    ∀ sizes ∈ shrinkSubtractions .exact pool, sizes.2 ≤ sizes.1

/-- The pool has the minimum capacity, or `Shrink` returns early. -/
def Spared (pool : Recycler E) : Prop :=
  recyclerMinimumCapacity ≤ pool.total ∨ pool.total < pool.shrinkCount ∨
    ⌈(pool.total : ℚ) * pool.shrinkThreshold⌉ ≤ pool.usage ∨ pool.shrinkShare = pool.total

theorem toSize_eq {value : Int} {n : Nat} (same : value = n) (fits : n < 2 ^ 64) :
    toSize value = n := by
  rw [toSize, same]
  omega

namespace Shrinkable

theorem usage_eq (shrinkable : Shrinkable pool) : toSize pool.usage = pool.usage.toNat := by
  have ready := shrinkable.ready
  have fits := shrinkable.fits
  exact toSize_eq (by omega) (by omega)

theorem total_eq (shrinkable : Shrinkable pool) :
    toSize (pool.queue.length + (pool.usage.toNat : Int)) = pool.total := by
  have ready := shrinkable.ready
  have fits := shrinkable.fits
  apply toSize_eq
  · rw [total]
    push_cast
    rfl
  · rw [total]
    omega

theorem count_eq (shrinkable : Shrinkable pool) :
    toSize pool.shrinkCount = pool.shrinkCount.toNat := by
  have count := shrinkable.count
  exact toSize_eq (by omega) (by omega)

theorem share_le (shrinkable : Shrinkable pool) : pool.shrinkShare ≤ pool.total := by
  have most : (pool.total : ℚ) * pool.shrinkRate ≤ pool.total :=
    mul_le_of_le_one_right (Nat.cast_nonneg _) shrinkable.rate.2
  have floor : ⌊(pool.total : ℚ) * pool.shrinkRate⌋ ≤ pool.total := by
    exact_mod_cast (Int.floor_le _).trans most
  rw [shrinkShare]
  omega

end Shrinkable

/-- The ways in which `Shrink` comes to its count, with the subtractions on each. -/
inductive Plan (pool : Recycler E) : Nat → List (Nat × Nat) → Prop
  | early (enough : pool.total < pool.shrinkCount ∨
      ⌈(pool.total : ℚ) * pool.shrinkThreshold⌉ ≤ pool.usage) : Plan pool 0 []
  | whole (late : ¬ (pool.total < pool.shrinkCount ∨
      ⌈(pool.total : ℚ) * pool.shrinkThreshold⌉ ≤ pool.usage))
      (all : pool.shrinkShare = pool.total) : Plan pool 0 [(pool.total, pool.shrinkShare)]
  | share (large : recyclerMinimumCapacity ≤ pool.total - pool.shrinkShare) :
      Plan pool pool.shrinkShare [(pool.total, pool.shrinkShare)]
  | minimum (late : ¬ (pool.total < pool.shrinkCount ∨
      ⌈(pool.total : ℚ) * pool.shrinkThreshold⌉ ≤ pool.usage))
      (some : pool.shrinkShare < pool.total)
      (small : pool.total - pool.shrinkShare < recyclerMinimumCapacity) :
      Plan pool (toSize (pool.total - recyclerMinimumCapacity))
        [(pool.total, pool.shrinkShare), (pool.total, recyclerMinimumCapacity)]

theorem Shrinkable.plan (shrinkable : Shrinkable pool) :
    Plan pool (shrinkNum .exact pool) (shrinkSubtractions .exact pool) := by
  have ready := shrinkable.ready
  have fits := shrinkable.fits
  have count := shrinkable.count
  have least := shrinkable.share_le
  have bound : pool.total < 2 ^ 64 := by
    rw [total]
    omega
  have rest : toSize ((pool.total : Int) - pool.shrinkShare) = pool.total - pool.shrinkShare :=
    toSize_eq (by omega) (by omega)
  have share : Rounding.exact.scaled pool.total pool.shrinkRate = pool.shrinkShare := rfl
  have settings : Rounding.exact.round pool.usage.toNat < ⌈Rounding.exact.round
      (Rounding.exact.round pool.total * pool.shrinkThreshold)⌉ ↔
      pool.usage < ⌈(pool.total : ℚ) * pool.shrinkThreshold⌉ := by
    have usage : ((pool.usage.toNat : ℕ) : ℚ) = ((pool.usage : ℤ) : ℚ) := by
      exact_mod_cast Int.toNat_of_nonneg ready
    simp only [Rounding.exact, id_eq, usage]
    exact Int.cast_lt
  simp only [shrinkNum, shrinkSubtractions, shrinkPlan, shrinkable.usage_eq, shrinkable.total_eq,
    shrinkable.count_eq, share, rest, settings]
  by_cases few : pool.total < pool.shrinkCount.toNat
  · rw [if_pos few]
    exact .early (.inl (by omega))
  rw [if_neg few]
  by_cases low : pool.usage < ⌈(pool.total : ℚ) * pool.shrinkThreshold⌉
  swap
  · rw [if_neg low]
    exact .early (.inr (Int.not_lt.mp low))
  rw [if_pos low]
  have late : ¬ (pool.total < pool.shrinkCount ∨
      ⌈(pool.total : ℚ) * pool.shrinkThreshold⌉ ≤ pool.usage) := by omega
  by_cases all : pool.total - pool.shrinkShare ≤ 0
  · rw [if_pos all]
    exact .whole late (by omega)
  rw [if_neg all]
  by_cases small : pool.total - pool.shrinkShare < recyclerMinimumCapacity
  · rw [if_pos small]
    exact .minimum late (by omega) small
  · rw [if_neg small]
    exact .share (Nat.le_of_not_lt small)

/-- Where no subtraction wraps, the pool is spared. -/
theorem Plan.spared {num : Nat} {subtractions : List (Nat × Nat)}
    (plan : Plan pool num subtractions) (unwrapped : ∀ sizes ∈ subtractions, sizes.2 ≤ sizes.1) :
    Spared pool := by
  cases plan with
  | early enough => exact .inr (enough.imp_right .inl)
  | whole late all => exact .inr (.inr (.inr all))
  | share large => exact .inl (large.trans (Nat.sub_le _ _))
  | minimum late some small =>
    exact .inl (unwrapped (pool.total, recyclerMinimumCapacity) (by simp))

/-- In a pool that is spared no subtraction wraps, and the count is at most the
share and leaves the minimum. -/
theorem Plan.bounded {num : Nat} {subtractions : List (Nat × Nat)}
    (plan : Plan pool num subtractions) (shrinkable : Shrinkable pool) (spared : Spared pool) :
    num ≤ pool.shrinkShare ∧ num + min pool.total recyclerMinimumCapacity ≤ pool.total ∧
      ∀ sizes ∈ subtractions, sizes.2 ≤ sizes.1 := by
  have least := shrinkable.share_le
  cases plan with
  | early enough => exact ⟨Nat.zero_le _, by omega, by simp⟩
  | whole late all => exact ⟨Nat.zero_le _, by omega, by simpa using least⟩
  | share large => exact ⟨le_refl _, by omega, by simpa using least⟩
  | minimum late some small =>
    have most : recyclerMinimumCapacity ≤ pool.total := by
      rcases spared with most | few | idle | all
      · exact most
      · exact absurd (.inl few) late
      · exact absurd (.inr idle) late
      · omega
    have bound : pool.total < 2 ^ 64 := by
      have ready := shrinkable.ready
      have fits := shrinkable.fits
      rw [total]
      omega
    have difference : toSize ((pool.total : Int) - recyclerMinimumCapacity) =
        pool.total - recyclerMinimumCapacity := toSize_eq (by omega) (by omega)
    rw [difference]
    exact ⟨by omega, by omega, by simpa using ⟨least, most⟩⟩

/-- A prefix of a destroyable queue. -/
theorem Destroyable.take {entries : List (Option NodeId)} (destroyable : Destroyable pool entries)
    (num : Nat) : Destroyable pool (entries.take num) := by
  obtain ⟨ids, rfl, nodup, exist⟩ := destroyable
  refine ⟨ids.take num, by rw [List.map_take], nodup.sublist (List.take_sublist num ids), ?_⟩
  exact fun id member => exist id (List.mem_of_mem_take member)

/-- On idle nodes `Shrink` returns, and what it destroyed is as many as it counted,
or all. -/
theorem Shrinkable.shrinks (shrinkable : Shrinkable pool) (discipline : Discipline) :
    ∃ ids later, shrink .exact discipline pool = .ok () later ∧ Popped pool ids later ∧
      ids.length = min (shrinkNum .exact pool) pool.queue.length := by
  have shrinking := shrink_cases .exact discipline shrinkable.free
  generalize ran : shrink .exact discipline pool = result at shrinking
  cases shrinking with
  | uninitialised idle =>
    have ready := shrinkable.ready
    omega
  | popped ready popped split =>
    refine ⟨_, _, rfl, popped, ?_⟩
    have length := congrArg List.length split
    rw [List.length_take, List.length_map] at length
    exact length.symm
  | broken ready broken => exact absurd (shrinkable.idle.take _) broken

theorem Popped.total {ids : List NodeId} {later : Recycler E} (popped : Popped pool ids later) :
    later.total + ids.length = pool.total := by
  have queue := congrArg List.length popped.queue_eq
  have usage : later.usage = pool.usage := by rw [popped.frame]
  rw [List.length_append, List.length_map] at queue
  rw [Recycler.total, Recycler.total, usage]
  omega

/-- `Shrink` keeps its bounds exactly where the pool has the minimum capacity, or
where it returns early. -/
theorem bounded_iff_spared (discipline : Discipline) (shrinkable : Shrinkable pool) :
    Bounded discipline pool ↔ Spared pool := by
  constructor
  · rintro ⟨ids, later, -, -, -, -, unwrapped⟩
    exact shrinkable.plan.spared unwrapped
  · intro spared
    obtain ⟨ids, later, ran, popped, length⟩ := shrinkable.shrinks discipline
    obtain ⟨share, minimum, unwrapped⟩ := shrinkable.plan.bounded shrinkable spared
    have most : ids.length ≤ shrinkNum .exact pool := length ▸ min_le_left _ _
    have rest := popped.total
    exact ⟨ids, later, ran, popped, most.trans share, by omega, unwrapped⟩

/-- A pool of capacity two after its `Initial`. -/
def twoIdle : Recycler Unit :=
  match initial ⟨(), id, id, id, fun _ => true⟩ (fun _ => .made) 2 new with
  | .ok _ pool | .error _ pool => pool

theorem twoIdle_shrinkable : Shrinkable twoIdle where
  free := rfl
  ready := by decide +kernel
  idle := by
    refine ⟨[0, 1], rfl, by decide, fun id member => ?_⟩
    rw [← Option.isSome_iff_exists]
    revert id
    decide +kernel
  fits := by decide +kernel
  count := by decide +kernel
  rate := by decide +kernel

/-- With the default shrink count so small a pool is not shrunk. -/
theorem bounded_iff_spared_two : Bounded .granted twoIdle :=
  (bounded_iff_spared .granted twoIdle_shrinkable).mpr (.inr (.inl (by decide +kernel)))

/-- With a shrink count of zero one of the two nodes is to go, and both go. -/
theorem twoIdle_drained :
    Shrinkable (twoIdle.setShrinkCount 0) ∧ (twoIdle.setShrinkCount 0).shrinkShare = 1 ∧
    (Program.after (shrink .exact .granted) (twoIdle.setShrinkCount 0)).map total = some 0 ∧
    ¬ Bounded .granted (twoIdle.setShrinkCount 0) := by
  obtain ⟨free, ready, idle, fits, -, rate⟩ := twoIdle_shrinkable
  refine ⟨⟨free, ready, idle, fits, by decide +kernel, rate⟩, by decide +kernel,
    by decide +kernel, ?_⟩
  rintro ⟨ids, later, -, -, -, -, unwrapped⟩
  have wraps : (2, 64) ∈ shrinkSubtractions .exact (twoIdle.setShrinkCount 0) := by decide +kernel
  exact absurd (unwrapped _ wraps) (by decide)

end Uranus.Recycler
