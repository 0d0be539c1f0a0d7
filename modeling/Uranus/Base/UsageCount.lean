import Mathlib.Algebra.BigOperators.Group.Multiset.Basic
import Uranus.Base.IdentUniqueness

/-! The count of the ids in use, while callers share an allocator. `RecycleTS`
tests and loads `mUsage` and then stores what it has found, all outside of the
mutex: what others count in between is lost with that store. -/
namespace Uranus
open Foundation
namespace IdentCallers
variable {s later : IdentCallers} {call : IdentCall} {move : IdentMove}

/-- `GetUsage`. -/
def getUsage (s : IdentCallers) : Int := s.allocator.usage

/-- The last operation of `AllocateTS`. -/
def allocates : IdentMove → Bool
  | .advance (.reusing _) | .advance .numbering => true
  | _ => false

/-- The last operation of `RecycleTS`. -/
def recycles : IdentMove → Bool
  | .advance (.storing _) => true
  | _ => false

/-- How many calls have returned in a run. -/
def returned (ends : IdentMove → Bool) (path : List (IdentMove × IdentCallers)) : Nat :=
  path.countP fun entry => ends entry.1

/-- A count over the outstanding ids and the calls. -/
def tally (weight : IdentCall → Int) (s : IdentCallers) : Int :=
  s.outstanding.card + (s.calls.map weight).sum

/-- The call has an id that is to be in the count. -/
def counted : IdentCall → Int
  | .numbering | .recycle _ | .discounting => 1
  | .allocate _ | .reusing _ | .counting | .testing | .loading | .storing _ => 0

/-- The call is one of `RecycleTS`. -/
def recycling : IdentCall → Int
  | .recycle _ | .discounting | .testing | .loading | .storing _ => 1
  | .allocate _ | .reusing _ | .counting | .numbering => 0

/-- Every id that was counted, and not yet discounted, is in the count. -/
def Accounted (s : IdentCallers) : Prop := s.getUsage = s.tally counted

/-- The store of `RecycleTS` finds what it stores: nobody has counted since. -/
def Untouched (s : IdentCallers) : IdentMove → Prop
  | .advance (.storing usage) => s.getUsage = usage
  | _ => True

/-- What a store adds to the count, or takes from it. -/
def overwritten (s : IdentCallers) : IdentMove → Int
  | .advance (.storing usage) => usage - s.getUsage
  | _ => 0

theorem untouched_iff : s.Untouched move ↔ s.overwritten move = 0 := by
  unfold Untouched overwritten
  split
  next usage => exact eq_comm.trans sub_eq_zero.symm
  next => exact ⟨fun _ => rfl, fun _ => trivial⟩

section Tally
variable (weight : IdentCall → Int)

@[simp] theorem tally_goOn (call : IdentCall) (s : IdentCallers) :
    (s.goOn call).tally weight = s.tally weight + weight call := by
  simp only [tally, goOn, Multiset.map_cons, Multiset.sum_cons]
  omega

@[simp] theorem tally_giveOut (id : Int) (s : IdentCallers) :
    (s.giveOut id).tally weight = s.tally weight + 1 := by
  simp only [tally, giveOut, Multiset.card_cons]
  omega

/-- A call that is taken out does not count any more. -/
theorem tally_pending (pending : call ∈ s.calls) : s.tally weight =
    ({ s with calls := s.calls.erase call }).tally weight + weight call := by
  have whole := tally_goOn weight call { s with calls := s.calls.erase call }
  simp only [goOn, Multiset.cons_erase pending] at whole
  exact whole

/-- An id that is handed back does not count any more. -/
theorem tally_handed {id : Int} (out : id ∈ s.outstanding) : s.tally weight =
    ({ s with outstanding := s.outstanding.erase id }).tally weight + 1 := by
  have card := Multiset.card_erase_add_one out
  simp only [tally]
  omega

end Tally

@[simp] theorem tally_allocator (weight : IdentCall → Int) (s : IdentCallers)
    (allocator : TIdentAllocator) (locked : Bool) :
    ({ s with allocator, locked }).tally weight = s.tally weight := rfl

@[simp] theorem getUsage_goOn (call : IdentCall) (s : IdentCallers) :
    (s.goOn call).getUsage = s.getUsage := rfl

@[simp] theorem getUsage_giveOut (id : Int) (s : IdentCallers) :
    (s.giveOut id).getUsage = s.getUsage := rfl

@[simp] theorem getUsage_allocator (s : IdentCallers) (allocator : TIdentAllocator)
    (locked : Bool) : ({ s with allocator, locked }).getUsage = allocator.usage := rfl

theorem allocator_usage (s : IdentCallers) : s.allocator.usage = s.getUsage := rfl

/-- Besides a store, an operation counts and discounts what it has to. -/
theorem advance_usage (came : s.advance call = some later) :
    later.getUsage - later.tally counted =
      s.getUsage - (s.tally counted + counted call) + s.overwritten (.advance call) := by
  cases call with
  | allocate first =>
    simp only [advance] at came
    split at came
    · cases came
    split at came
    · cases came
      simp [TIdentAllocator.take, counted, overwritten, allocator_usage]
    · cases came
      simp [counted, overwritten]
  | recycle id =>
    simp only [advance] at came
    split at came
    · cases came
    cases came
    simp [TIdentAllocator.emplace, counted, overwritten, allocator_usage]
  | reusing | counting | discounting =>
    cases came
    simp only [tally_goOn, tally_giveOut, tally_allocator, getUsage_goOn, getUsage_giveOut,
      getUsage_allocator, TIdentAllocator.setUsage, counted, overwritten, allocator_usage]
    omega
  | numbering =>
    cases came
    simp [TIdentAllocator.countNext, counted, overwritten, allocator_usage]
  | testing =>
    cases came
    split <;> simp [counted, overwritten]
  | loading =>
    cases came
    simp [counted, overwritten]
  | storing usage =>
    cases came
    simp only [tally_allocator, getUsage_allocator, TIdentAllocator.setUsage, counted, overwritten]
    omega

/-- Of the calls that are not over, those of `RecycleTS` have their ids still to be
given back. -/
theorem advance_balance (came : s.advance call = some later) :
    later.tally recycling = s.tally recycling + recycling call +
      (if allocates (.advance call) then 1 else 0) -
        (if recycles (.advance call) then 1 else 0) := by
  cases call with
  | allocate first =>
    simp only [advance] at came
    split at came
    · cases came
    split at came
    · cases came
      simp [recycling, allocates, recycles]
    · cases came
      simp [recycling, allocates, recycles]
  | recycle id =>
    simp only [advance] at came
    split at came
    · cases came
    cases came
    simp [recycling, allocates, recycles]
  | testing =>
    cases came
    split <;> simp [recycling, allocates, recycles]
  | reusing | counting | numbering | discounting | loading | storing =>
    cases came
    simp [recycling, allocates, recycles]

theorem step_usage (moved : Step s move later) :
    later.getUsage - later.tally counted =
      s.getUsage - s.tally counted + s.overwritten move := by
  cases move with
  | allocate first =>
    cases moved
    simp [counted, overwritten]
  | recycle id =>
    simp only [Step, next] at moved
    split at moved
    next out =>
      cases moved
      rw [tally_goOn, tally_handed counted out]
      simp only [counted, overwritten, add_zero]
      rfl
    next => cases moved
  | advance call =>
    simp only [Step, next] at moved
    split at moved
    next pending =>
      rw [tally_pending counted pending]
      exact advance_usage moved
    next => cases moved

theorem step_balance (moved : Step s move later) :
    later.tally recycling = s.tally recycling +
      (if allocates move then 1 else 0) - (if recycles move then 1 else 0) := by
  cases move with
  | allocate first =>
    cases moved
    simp [recycling, allocates, recycles]
  | recycle id =>
    simp only [Step, next] at moved
    split at moved
    next out =>
      cases moved
      rw [tally_goOn, tally_handed recycling out]
      simp [recycling, allocates, recycles]
    next => cases moved
  | advance call =>
    simp only [Step, next] at moved
    split at moved
    next pending =>
      rw [tally_pending recycling pending]
      exact advance_balance moved
    next => cases moved

/-- A step keeps the count right if and only if it is not a store of something else. -/
theorem step_accounted (accounted : s.Accounted) (moved : Step s move later) :
    later.Accounted ↔ s.Untouched move := by
  have law := step_usage moved
  unfold Accounted at accounted ⊢
  rw [untouched_iff]
  omega

open Transition in
/-- The calls that have returned in a run, as its last state has them. -/
theorem path_balance {path : List (IdentMove × IdentCallers)} (run : Path Step s path) :
    (last s path).tally recycling =
      s.tally recycling + returned allocates path - returned recycles path := by
  induction path generalizing s with
  | nil => simp [last, returned]
  | cons entry rest ih =>
    have law := step_balance run.1
    have onward := ih run.2
    have allocated : (returned allocates (entry :: rest) : Int) =
        returned allocates rest + if allocates entry.1 then 1 else 0 := by
      simp [returned, List.countP_cons]
    have recycled : (returned recycles (entry :: rest) : Int) =
        returned recycles rest + if recycles entry.1 then 1 else 0 := by
      simp [returned, List.countP_cons]
    change (last entry.2 rest).tally recycling = _
    omega

/-- Between calls, both counts are the number of the outstanding ids. -/
theorem tally_idle (idle : s.calls = 0) (weight : IdentCall → Int) :
    s.tally weight = s.outstanding.card := by
  simp [tally, idle]

open Transition in
/-- Every state of a run has its ids counted if and only if no store of `RecycleTS`
overwrites another value than its own; and then `GetUsage` is exact between calls. -/
theorem accounted_iff_untouched {path : List (IdentMove × IdentCallers)}
    (run : Path Step new path) :
    (Always Accounted new path ↔ Every Untouched new path) ∧
      (Every Untouched new path → (last new path).calls = 0 →
        (last new path).getUsage = returned allocates path - returned recycles path) := by
  have exact : Always Accounted new path ↔ Every Untouched new path := by
    have initial : new.Accounted := rfl
    apply run.always_iff_every (J := fun _ => True) (fun _ _ => trivial) _ _ trivial initial
    · intro s move later _ accounted untouched moved
      exact (step_accounted accounted moved).mpr untouched
    · intro s move later _ accounted touched moved kept
      exact touched ((step_accounted accounted moved).mp kept)
  refine ⟨exact, fun untouched idle => ?_⟩
  have accounted : (last new path).Accounted := (exact.mpr untouched).last
  have balance := path_balance run
  have before : new.tally recycling = 0 := rfl
  unfold Accounted at accounted
  rw [tally_idle idle] at accounted balance
  omega

/-- A call gives its id back while another one gets it. -/
def lostCount : List (IdentMove × IdentCallers) :=
  new.runs [.allocate 0, .advance (.allocate 0), .advance .counting, .advance .numbering,
    .recycle 1, .advance (.recycle 1), .advance .discounting, .advance .testing,
    .allocate 1, .advance (.allocate 1), .advance (.reusing 1), .advance (.storing 0)]

/-- Two ids were given out and one came back, but no id is counted. -/
theorem lostCount_inexact :
    Transition.Path Step new lostCount ∧ (Transition.last new lostCount).calls = 0 ∧
      (Transition.last new lostCount).getUsage = 0 ∧
        (returned allocates lostCount - returned recycles lostCount : Int) = 1 :=
  ⟨runs_path _ _, by decide, by decide, by decide⟩

/-- Two calls overlap, and the store of the one comes before the other counts. -/
theorem accounted_iff_untouched_apart :
    let path := new.runs [.allocate 0, .advance (.allocate 0), .advance .counting,
      .advance .numbering, .recycle 1, .allocate 0, .advance (.recycle 1), .advance .discounting,
      .advance .testing, .advance (.storing 0), .advance (.allocate 0), .advance (.reusing 1)]
    (Transition.Always Accounted new path ↔ Transition.Every Untouched new path) ∧
      (Transition.Every Untouched new path → (Transition.last new path).calls = 0 →
        (Transition.last new path).getUsage = returned allocates path - returned recycles path) :=
  accounted_iff_untouched (runs_path _ _)

end IdentCallers
end Uranus
