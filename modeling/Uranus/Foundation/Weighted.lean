import Mathlib.Algebra.BigOperators.Group.List.Basic
import Mathlib.Algebra.GroupWithZero.Nat

/-! Drawing from weighted keys: a number picks the key in whose interval it lies,
where the intervals follow one another and are as long as the weights. -/
namespace Foundation.Weighted
variable {K : Type*} {entries : List (K × Nat)} {key : K} {n weight : Nat}

def total (entries : List (K × Nat)) : Nat := (entries.map Prod.snd).sum

def pick : List (K × Nat) → Nat → Option K
  | [], _ => none
  | (key, weight) :: rest, n => if n < weight then some key else pick rest (n - weight)

@[simp] theorem total_nil : total ([] : List (K × Nat)) = 0 := rfl

@[simp] theorem total_cons (entry : K × Nat) (rest : List (K × Nat)) :
    total (entry :: rest) = entry.2 + total rest := by
  simp [total]

/-- Nothing is picked by the numbers from the total weight on, and by them only. -/
theorem pick_none_iff : pick entries n = none ↔ total entries ≤ n := by
  induction entries generalizing n with
  | nil => simp [pick]
  | cons entry rest ih =>
    rw [pick, total_cons]
    split
    next within => exact ⟨nofun, fun beyond => by omega⟩
    next beyond =>
      rw [ih]
      omega

theorem pick_mem (picked : pick entries n = some key) :
    ∃ weight, 0 < weight ∧ (key, weight) ∈ entries := by
  induction entries generalizing n with
  | nil => cases picked
  | cons entry rest ih =>
    rw [pick] at picked
    split at picked
    next within =>
      cases picked
      exact ⟨entry.2, by omega, List.mem_cons_self⟩
    next =>
      obtain ⟨weight, positive, member⟩ := ih picked
      exact ⟨weight, positive, List.mem_cons_of_mem _ member⟩

/-- A number beyond the first interval picks as if it were not there. -/
theorem pick_beyond (entry : K × Nat) (rest : List (K × Nat)) (n : Nat) :
    pick (entry :: rest) (entry.2 + n) = pick rest n := by
  rw [pick, if_neg (by omega), Nat.add_sub_cancel_left]

section Counting
variable [DecidableEq K]

/-- How many numbers below a bound pick the key. -/
def hits (entries : List (K × Nat)) (key : K) (bound : Nat) : Nat :=
  (List.range bound).countP fun n => pick entries n = some key

/-- The numbers of the first interval pick the first key. -/
theorem hits_within (entry : K × Nat) (rest : List (K × Nat)) (key : K) :
    hits (entry :: rest) key entry.2 = if entry.1 = key then entry.2 else 0 := by
  have picked : ∀ n ∈ List.range entry.2, pick (entry :: rest) n = some entry.1 := by
    intro n below
    rw [pick, if_pos (List.mem_range.mp below)]
  unfold hits
  split
  next same =>
    rw [List.countP_eq_length.mpr, List.length_range]
    intro n below
    simpa [picked n below] using same
  next other =>
    rw [List.countP_eq_zero]
    intro n below
    simpa [picked n below] using other

theorem hits_cons (entry : K × Nat) (rest : List (K × Nat)) (key : K) :
    hits (entry :: rest) key (total (entry :: rest)) =
      (if entry.1 = key then entry.2 else 0) + hits rest key (total rest) := by
  rw [← hits_within entry rest key, total_cons]
  simp only [hits, List.range_add, List.countP_append, List.countP_map, Function.comp_def,
    pick_beyond]

theorem hits_absent (absent : ∀ weight, (key, weight) ∉ entries) (bound : Nat) :
    hits entries key bound = 0 := by
  unfold hits
  rw [List.countP_eq_zero]
  intro n below picked
  obtain ⟨weight, -, member⟩ := pick_mem (of_decide_eq_true picked)
  exact absent weight member

/-- Each key is picked by as many numbers below the total weight as it weighs. -/
theorem hits_total (distinct : (entries.map Prod.fst).Nodup) (member : (key, weight) ∈ entries) :
    hits entries key (total entries) = weight := by
  induction entries with
  | nil => cases member
  | cons entry rest ih =>
    rw [List.map_cons, List.nodup_cons] at distinct
    rw [hits_cons]
    rcases List.mem_cons.mp member with rfl | later
    · have absent (other : Nat) : (key, other) ∉ rest := fun again =>
        distinct.1 (List.mem_map.mpr ⟨_, again, rfl⟩)
      rw [if_pos rfl, hits_absent absent, Nat.add_zero]
    · have other : entry.1 ≠ key := by
        rintro rfl
        exact distinct.1 (List.mem_map.mpr ⟨_, later, rfl⟩)
      rw [if_neg other, ih distinct.2 later, Nat.zero_add]

/-- The first number beyond all intervals picks no key. -/
theorem hits_total_succ (entries : List (K × Nat)) (key : K) :
    hits entries key (total entries + 1) = hits entries key (total entries) := by
  have none : pick entries (total entries) = none := pick_none_iff.mpr (Nat.le_refl _)
  simp [hits, List.range_succ, none]

end Counting
end Foundation.Weighted
