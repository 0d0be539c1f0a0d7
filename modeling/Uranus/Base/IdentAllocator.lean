import Mathlib.Data.Finset.Max
import Mathlib.Data.Int.ConditionallyCompleteOrder
import Mathlib.Data.Int.Interval
import Mathlib.Data.Set.Insert
import Mathlib.Data.Set.Operations
import Mathlib.Order.ConditionallyCompleteLattice.Basic

/-! Ids that are given out, taken back and given out again. The abstract view of
an allocator is the set of ids that are outstanding: allocating adds an id that
was not in it, and recycling removes one. -/
namespace Uranus

/-- `TIdentAllocator<int64_t, true>`. The counter of new ids does not wrap: it
grows only when every id below it is in use. -/
structure TIdentAllocator where
  hashSet : Finset Int
  next : Int
  usage : Int
deriving DecidableEq

namespace TIdentAllocator
variable {a b : TIdentAllocator} {first id : Int}

def new : TIdentAllocator := ⟨∅, 0, 0⟩

/-- `mHashSet.begin()`. Which id a hash set iterates first depends on its layout:
it is `first`, if that is in the set. -/
def begin (first : Int) (hashSet : Finset Int) : Option Int :=
  if first ∈ hashSet then some first
  else if nonempty : hashSet.Nonempty then some (hashSet.min' nonempty)
  else none

/-- The section of `AllocateTS` under the mutex. -/
def allocateLocked (first : Int) (a : TIdentAllocator) : Option (Int × TIdentAllocator) :=
  match begin first a.hashSet with
  | none => none
  | some id => some (id, { a with hashSet := a.hashSet.erase id, usage := a.usage + 1 })

/-- The end of `AllocateTS`, where the section under the mutex found no id. -/
def allocateFresh (a : TIdentAllocator) : Int × TIdentAllocator :=
  (a.next + 1, { a with next := a.next + 1, usage := a.usage + 1 })

def allocateTS (first : Int) (a : TIdentAllocator) : Int × TIdentAllocator :=
  (a.allocateLocked first).getD a.allocateFresh

/-- The same without the mutex. -/
def allocate (first : Int) (a : TIdentAllocator) : Int × TIdentAllocator := a.allocateTS first

def recycleTS (id : Int) (a : TIdentAllocator) : TIdentAllocator :=
  let usage := a.usage - 1
  { a with hashSet := insert id a.hashSet, usage := if usage > 0 then usage else 0 }

/-- The same without the mutex. -/
def recycle (id : Int) (a : TIdentAllocator) : TIdentAllocator := a.recycleTS id

/-- Every id that has come back was given out before. -/
structure Sound (a : TIdentAllocator) : Prop where
  counted : 0 ≤ a.next
  given : ∀ id ∈ a.hashSet, 0 < id ∧ id ≤ a.next

/-- The ids that can still be given out. -/
def free (a : TIdentAllocator) : Set Int := {id | id ∈ a.hashSet ∨ a.next < id}

/-- The ids given out and not taken back. -/
def outstanding (a : TIdentAllocator) : Set Int :=
  {id | (0 < id ∧ id ≤ a.next) ∧ id ∉ a.hashSet}

theorem begin_mem {hashSet : Finset Int} (found : begin first hashSet = some id) :
    id ∈ hashSet := by
  unfold begin at found
  split at found
  next held =>
    cases found
    exact held
  next =>
    split at found
    next nonempty =>
      cases found
      exact Finset.min'_mem hashSet nonempty
    next => cases found

theorem allocateLocked_some (took : a.allocateLocked first = some (id, b)) :
    id ∈ a.hashSet ∧ b = { a with hashSet := a.hashSet.erase id, usage := a.usage + 1 } := by
  unfold allocateLocked at took
  split at took
  · cases took
  next id' found =>
    cases took
    exact ⟨begin_mem found, rfl⟩

theorem Sound.new : Sound new where
  counted := le_refl 0
  given := fun id held => absurd held (Finset.notMem_empty id)

theorem outstanding_new : new.outstanding = ∅ := by
  ext id
  simp only [outstanding, new, Set.mem_ofPred_eq, Set.mem_empty_iff_false, iff_false]
  omega

theorem Sound.allocateLocked (sound : Sound a) (took : a.allocateLocked first = some (id, b)) :
    Sound b ∧ id ∉ a.outstanding ∧ b.outstanding = insert id a.outstanding := by
  obtain ⟨held, rfl⟩ := allocateLocked_some took
  have given := sound.given id held
  refine ⟨⟨sound.counted, ?_⟩, fun out => out.2 held, ?_⟩
  · intro other still
    exact sound.given other (Finset.mem_of_mem_erase still)
  · ext other
    simp only [outstanding, Finset.mem_erase, Set.mem_ofPred_eq, Set.mem_insert_iff, not_and_or,
      not_not]
    constructor
    · rintro ⟨range, same | free⟩
      · exact .inl same
      · exact .inr ⟨range, free⟩
    · rintro (rfl | ⟨range, free⟩)
      · exact ⟨given, .inl rfl⟩
      · exact ⟨range, .inr free⟩

theorem Sound.allocateFresh (sound : Sound a) :
    Sound a.allocateFresh.2 ∧ a.allocateFresh.1 ∉ a.outstanding ∧
      a.allocateFresh.2.outstanding = insert a.allocateFresh.1 a.outstanding := by
  have counted := sound.counted
  refine ⟨⟨?_, ?_⟩, ?_, ?_⟩
  · simp only [TIdentAllocator.allocateFresh]
    omega
  · intro other held
    have given := sound.given other held
    simp only [TIdentAllocator.allocateFresh]
    omega
  · intro out
    have below := out.1.2
    simp only [TIdentAllocator.allocateFresh] at below
    omega
  · ext other
    simp only [outstanding, TIdentAllocator.allocateFresh, Set.mem_ofPred_eq, Set.mem_insert_iff]
    constructor
    · rintro ⟨range, free⟩
      by_cases same : other = a.next + 1
      · exact .inl same
      · exact .inr ⟨⟨range.1, by omega⟩, free⟩
    · rintro (rfl | ⟨range, free⟩)
      · refine ⟨⟨by omega, le_refl _⟩, fun held => ?_⟩
        have given := sound.given _ held
        omega
      · exact ⟨⟨range.1, by omega⟩, free⟩

theorem Sound.recycleTS (sound : Sound a) (out : id ∈ a.outstanding) :
    Sound (a.recycleTS id) ∧ (a.recycleTS id).outstanding = a.outstanding \ {id} := by
  refine ⟨⟨sound.counted, ?_⟩, ?_⟩
  · intro other held
    rcases Finset.mem_insert.mp held with rfl | held
    · exact out.1
    · exact sound.given other held
  · ext other
    simp only [outstanding, TIdentAllocator.recycleTS, Finset.mem_insert, not_or, Set.mem_ofPred_eq,
      Set.mem_sdiff, Set.mem_singleton_iff]
    constructor
    · rintro ⟨range, differs, free⟩
      exact ⟨⟨range, free⟩, differs⟩
    · rintro ⟨⟨range, free⟩, differs⟩
      exact ⟨range, differs, free⟩

/-- Every id counted so far is in one place: free, or in the hands of somebody. -/
structure Divides (a : TIdentAllocator) (held : Multiset Int) : Prop where
  counted : 0 ≤ a.next
  ids : a.hashSet.val + held = (Finset.Icc 1 a.next).val

section
variable {held : Multiset Int}

theorem Divides.new : Divides new 0 where
  counted := le_refl 0
  ids := rfl

theorem Divides.nodup (divides : Divides a held) : held.Nodup := by
  have nodup := (Finset.Icc 1 a.next).nodup
  rw [← divides.ids] at nodup
  exact (Multiset.nodup_add.mp nodup).2.1

theorem Divides.mem_iff (divides : Divides a held) : id ∈ held ↔ id ∈ a.outstanding := by
  have nodup := (Finset.Icc 1 a.next).nodup
  rw [← divides.ids] at nodup
  have apart (free : id ∈ a.hashSet) : id ∉ held :=
    Multiset.disjoint_left.mp (Multiset.nodup_add.mp nodup).2.2 free
  have everywhere : id ∈ a.hashSet.val + held ↔ 0 < id ∧ id ≤ a.next := by
    rw [divides.ids, Finset.mem_val, Finset.mem_Icc]
    exact Iff.rfl
  rw [Multiset.mem_add] at everywhere
  constructor
  · intro present
    exact ⟨everywhere.mp (.inr present), fun free => apart free present⟩
  · intro out
    exact (everywhere.mpr out.1).resolve_left out.2

theorem Divides.take (divides : Divides a held) (free : id ∈ a.hashSet) (usage : Int) :
    Divides { a with hashSet := a.hashSet.erase id, usage } (id ::ₘ held) where
  counted := divides.counted
  ids := by
    rw [← divides.ids, Finset.erase_val, Multiset.add_cons, ← Multiset.cons_add,
      Multiset.cons_erase (Finset.mem_val.mpr free)]

theorem Divides.allocateFresh (divides : Divides a held) :
    Divides a.allocateFresh.2 (a.allocateFresh.1 ::ₘ held) where
  counted := Int.le_add_one divides.counted
  ids := by
    have fresh : a.next + 1 ∉ Finset.Icc 1 a.next := by simp
    have grown : Finset.Icc 1 (a.next + 1) =
        Finset.cons (a.next + 1) (Finset.Icc 1 a.next) fresh := by
      ext other
      have counted := divides.counted
      simp only [Finset.mem_Icc, Finset.mem_cons]
      omega
    simp only [TIdentAllocator.allocateFresh, grown, Finset.cons_val, Multiset.add_cons,
      divides.ids]

theorem Divides.recycle (divides : Divides a (id ::ₘ held)) (usage : Int) :
    Divides { a with hashSet := insert id a.hashSet, usage } held where
  counted := divides.counted
  ids := by
    have out := divides.mem_iff.mp (Multiset.mem_cons_self id held)
    rw [Finset.insert_val_of_notMem out.2, Multiset.cons_add, ← Multiset.add_cons, divides.ids]

end
end TIdentAllocator
end Uranus
