import Mathlib.Algebra.Ring.Int.Defs
import Uranus.Foundation.Weighted

/-! The draw from a pool of weights. The distribution that `RandomDraw` asks for a
number is one over a closed range, so it delivers one number too many, for which
nothing is drawn. -/
namespace Uranus
open Foundation

/-- `std::map<int, int>`, with its entries in the order of iteration. -/
structure Pool where
  entries : List (Int32 × Int32)
  sorted : (entries.map Prod.fst).Pairwise (· < ·)

/-- The numbers that `std::uniform_int_distribution(first, last)` delivers, each of
them as often as any other. -/
def uniformIntDistribution (first last : Int32) : List Int32 :=
  (List.range (last.toInt - first.toInt + 1).toNat).map fun n => first + Int32.ofNat n

namespace Pool
variable {pool : Pool} {entries : List (Int32 × Int32)} {hit : Int32}

/-- The sum that `RandomDraw` computes. -/
def weight (pool : Pool) : Int32 :=
  pool.entries.foldl (fun weight entry => weight + entry.2) 0

/-- The loop of `RandomDraw`. -/
def draw : List (Int32 × Int32) → Int32 → Int32
  | [], _ => -1
  | (key, weight) :: rest, hit => if hit - weight < 0 then key else draw rest (hit - weight)

/-- `RandomDraw`, where the distribution delivers `hit`. -/
def randomDraw (pool : Pool) (hit : Int32) : Int32 :=
  if pool.weight = 0 then -1 else draw pool.entries hit

/-- The numbers that can be delivered. -/
def delivered (pool : Pool) : List Int32 := uniformIntDistribution 0 pool.weight

/-- The weights are not negative, and their sum is a positive `int`. -/
structure Admissible (pool : Pool) : Prop where
  nonnegative : ∀ entry ∈ pool.entries, 0 ≤ entry.2.toInt
  positive : 0 < (pool.entries.map fun entry => entry.2.toInt).sum
  fits : (pool.entries.map fun entry => entry.2.toInt).sum < 2 ^ 31

/-- A key of positive weight is drawn for every number, and never -1. -/
def Total (pool : Pool) : Prop :=
  ∀ hit ∈ pool.delivered, pool.randomDraw hit ≠ -1 ∧
    ∃ weight > 0, (pool.randomDraw hit, weight) ∈ pool.entries

/-- The key is drawn for the part of the numbers that its weight is of the sum. -/
def Proportional (pool : Pool) (entry : Int32 × Int32) : Prop :=
  (pool.delivered.countP fun hit => pool.randomDraw hit = entry.1 : Int) * pool.weight.toInt =
    entry.2.toInt * pool.delivered.length

/-- The entries, with their weights as natural numbers. -/
def weights (entries : List (Int32 × Int32)) : List (Int32 × Nat) :=
  entries.map fun entry => (entry.1, entry.2.toInt.toNat)

theorem toInt_sub_nonnegative {weight : Int32} (left : 0 ≤ hit.toInt)
    (right : 0 ≤ weight.toInt) : (hit - weight).toInt = hit.toInt - weight.toInt := by
  have below := hit.toInt_lt
  have above := weight.toInt_lt
  rw [Int32.toInt_sub]
  exact Int.bmod_eq_of_le (by omega) (by omega)

/-- The loop draws what the numbers of the intervals pick. -/
theorem draw_eq_pick (nonnegative : ∀ entry ∈ entries, 0 ≤ entry.2.toInt)
    (positive : 0 ≤ hit.toInt) :
    draw entries hit = (Weighted.pick (weights entries) hit.toInt.toNat).getD (-1) := by
  induction entries generalizing hit with
  | nil => rfl
  | cons entry rest ih =>
    have head := nonnegative entry List.mem_cons_self
    have left := toInt_sub_nonnegative positive head
    have within : hit - entry.2 < 0 ↔ hit.toInt.toNat < entry.2.toInt.toNat := by
      rw [Int32.lt_iff_toInt_lt, left, Int32.toInt_zero]
      omega
    rw [draw, weights, List.map_cons, Weighted.pick]
    by_cases inside : hit - entry.2 < 0
    · rw [if_pos inside, if_pos (within.mp inside)]
      rfl
    · rw [if_neg inside, if_neg (inside ∘ within.mpr)]
      have outside : 0 ≤ (hit - entry.2).toInt := by
        have least := mt Int32.lt_iff_toInt_lt.mpr inside
        rw [Int32.toInt_zero] at least
        omega
      rw [ih (fun entry member => nonnegative entry (List.mem_cons_of_mem _ member)) outside, left]
      congr
      omega

theorem total_weights (nonnegative : ∀ entry ∈ entries, 0 ≤ entry.2.toInt) :
    (Weighted.total (weights entries) : Int) = (entries.map fun entry => entry.2.toInt).sum := by
  induction entries with
  | nil => rfl
  | cons entry rest ih =>
    have head := nonnegative entry List.mem_cons_self
    have tail := ih fun entry member => nonnegative entry (List.mem_cons_of_mem _ member)
    rw [weights, List.map_cons, Weighted.total_cons, List.map_cons, List.sum_cons, ← tail]
    simp only [weights]
    omega

/-- The sum is the one of the integers, as long as that is an `int`. -/
theorem foldl_weight (nonnegative : ∀ entry ∈ entries, 0 ≤ entry.2.toInt) {start : Int32}
    (positive : 0 ≤ start.toInt)
    (fits : start.toInt + (entries.map fun entry => entry.2.toInt).sum < 2 ^ 31) :
    (entries.foldl (fun weight entry => weight + entry.2) start).toInt =
      start.toInt + (entries.map fun entry => entry.2.toInt).sum := by
  induction entries generalizing start with
  | nil => simp
  | cons entry rest ih =>
    have head := nonnegative entry List.mem_cons_self
    have tail : ∀ entry ∈ rest, 0 ≤ entry.2.toInt := fun entry member =>
      nonnegative entry (List.mem_cons_of_mem _ member)
    have others := total_weights tail
    rw [List.map_cons, List.sum_cons] at fits ⊢
    have added : (start + entry.2).toInt = start.toInt + entry.2.toInt := by
      rw [Int32.toInt_add]
      exact Int.bmod_eq_of_le (by omega) (by omega)
    rw [List.foldl_cons, ih tail (by omega) (by omega), added]
    omega

theorem Admissible.weight_eq (admissible : pool.Admissible) :
    pool.weight.toInt = Weighted.total (weights pool.entries) := by
  have zero : 0 ≤ (0 : Int32).toInt := by decide
  have sum := foldl_weight admissible.nonnegative zero (by simpa using admissible.fits)
  rw [total_weights admissible.nonnegative, weight, sum]
  simp

/-- Every number that is delivered picks a key, but for the last one. -/
theorem Admissible.randomDraw_eq (admissible : pool.Admissible) {n : Nat}
    (within : n ≤ Weighted.total (weights pool.entries)) :
    pool.randomDraw (Int32.ofNat n) = (Weighted.pick (weights pool.entries) n).getD (-1) := by
  have total := total_weights admissible.nonnegative
  have fits := admissible.fits
  have value : (Int32.ofNat n).toInt = n := Int32.toInt_ofNat_of_lt (by omega)
  have weighs : pool.weight ≠ 0 := by
    intro none
    have positive := admissible.positive
    have weight := admissible.weight_eq
    rw [none, Int32.toInt_zero] at weight
    omega
  rw [randomDraw, if_neg weighs, draw_eq_pick admissible.nonnegative (by omega), value,
    Int.toNat_natCast]

theorem Admissible.delivered_eq (admissible : pool.Admissible) : pool.delivered =
    (List.range (Weighted.total (weights pool.entries) + 1)).map Int32.ofNat := by
  have count : (pool.weight.toInt - (0 : Int32).toInt + 1).toNat =
      Weighted.total (weights pool.entries) + 1 := by
    rw [admissible.weight_eq, Int32.toInt_zero]
    omega
  simp only [delivered, uniformIntDistribution, count, Int32.zero_add]

theorem Admissible.not_total (admissible : pool.Admissible) : ¬ pool.Total := by
  intro total
  have last : Int32.ofNat (Weighted.total (weights pool.entries)) ∈ pool.delivered := by
    rw [admissible.delivered_eq]
    exact List.mem_map_of_mem (List.mem_range.mpr (Nat.lt_succ_self _))
  have nothing := admissible.randomDraw_eq (Nat.le_refl _)
  rw [Weighted.pick_none_iff.mpr (Nat.le_refl _)] at nothing
  exact (total _ last).1 nothing

/-- A key is drawn for as many numbers as it weighs. -/
theorem Admissible.drawn (admissible : pool.Admissible) {entry : Int32 × Int32}
    (member : entry ∈ pool.entries) (other : entry.1 ≠ -1) :
    (pool.delivered.countP fun hit => pool.randomDraw hit = entry.1) = entry.2.toInt.toNat := by
  have distinct : ((weights pool.entries).map Prod.fst).Nodup := by
    rw [weights, List.map_map]
    exact pool.sorted.imp fun before => Int32.ne_of_lt before
  have weighed : (entry.1, entry.2.toInt.toNat) ∈ weights pool.entries :=
    List.mem_map_of_mem member
  rw [admissible.delivered_eq, List.countP_map, ← Weighted.hits_total distinct weighed,
    ← Weighted.hits_total_succ, Weighted.hits]
  apply List.countP_congr
  intro n below
  have within := Nat.le_of_lt_succ (List.mem_range.mp below)
  simp only [Function.comp_apply, decide_eq_true_eq, admissible.randomDraw_eq within]
  cases Weighted.pick (weights pool.entries) n with
  | none => simp [other.symm]
  | some key => simp

/-- For no pool is the draw total; and the part of the numbers for which a key is
drawn is too small, unless it is to be zero. -/
theorem unfair_of_admissible (admissible : pool.Admissible) : ¬ pool.Total ∧
    ∀ entry ∈ pool.entries, entry.1 ≠ -1 → (pool.Proportional entry ↔ entry.2 = 0) := by
  refine ⟨admissible.not_total, fun entry member other => ?_⟩
  have length : pool.delivered.length = Weighted.total (weights pool.entries) + 1 := by
    rw [admissible.delivered_eq, List.length_map, List.length_range]
  have nonnegative := admissible.nonnegative entry member
  have zero : entry.2 = 0 ↔ entry.2.toInt = 0 := Int32.toInt_inj.symm
  rw [Proportional, admissible.drawn member other, Int.toNat_of_nonneg nonnegative, length,
    admissible.weight_eq, zero, Int.natCast_succ, Int.mul_add, Int.mul_one]
  omega

/-- One key, of weight one. -/
def single : Pool := ⟨[(7, 1)], List.pairwise_singleton _ _⟩

theorem single_unfair : ¬ (single.Total ∧ ∀ entry ∈ single.entries, single.Proportional entry) := by
  rintro ⟨-, proportional⟩
  have half := proportional (7, 1) (List.mem_singleton_self _)
  revert half
  unfold Proportional
  decide

/-- A key without weight, between two others. -/
def several : Pool := ⟨[(1, 2), (3, 0), (5, 4)], by decide⟩

theorem several_admissible : several.Admissible :=
  ⟨by simp [several], by decide, by decide⟩

theorem unfair_of_admissible_several : ¬ several.Total ∧
    ∀ entry ∈ several.entries, entry.1 ≠ -1 → (several.Proportional entry ↔ entry.2 = 0) :=
  unfair_of_admissible several_admissible

end Pool
end Uranus
