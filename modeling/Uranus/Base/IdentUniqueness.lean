import Uranus.Base.IdentAllocator
import Uranus.Foundation.Path
import Mathlib.Algebra.Order.Group.Multiset
import Mathlib.Data.Multiset.Filter

/-! Callers that share an allocator. A call gives way between its section under
the mutex and each of its operations on an atomic, so an id may be out of the
set of free ids before anybody has it. -/
namespace Uranus
open Foundation

namespace TIdentAllocator

def take (id : Int) (a : TIdentAllocator) : TIdentAllocator :=
  { a with hashSet := a.hashSet.erase id }

def emplace (id : Int) (a : TIdentAllocator) : TIdentAllocator :=
  { a with hashSet := insert id a.hashSet }

def setUsage (usage : Int) (a : TIdentAllocator) : TIdentAllocator := { a with usage }

def countNext (a : TIdentAllocator) : TIdentAllocator := { a with next := a.next + 1 }

end TIdentAllocator

/-- What a call of `AllocateTS` or `RecycleTS` does next. From `reusing` on it
holds the mutex. The last three places are the two loads and the store of the
assignment to `mUsage`. -/
inductive IdentCall where
  | allocate (first : Int)
  | reusing (id : Int)
  | counting
  | numbering
  | recycle (id : Int)
  | discounting
  | testing
  | loading
  | storing (usage : Int)
deriving DecidableEq

/-- An allocator among its callers. `outstanding` are the ids that calls have
returned and that were not handed back since. -/
structure IdentCallers where
  allocator : TIdentAllocator
  locked : Bool
  calls : Multiset IdentCall
  outstanding : Multiset Int
deriving DecidableEq

inductive IdentMove where
  | allocate (first : Int)
  | recycle (id : Int)
  | advance (call : IdentCall)
deriving DecidableEq

namespace IdentCallers

def new : IdentCallers := ⟨.new, false, 0, 0⟩

def goOn (call : IdentCall) (s : IdentCallers) : IdentCallers :=
  { s with calls := call ::ₘ s.calls }

/-- The call returns an id. -/
def giveOut (id : Int) (s : IdentCallers) : IdentCallers :=
  { s with outstanding := id ::ₘ s.outstanding }

/-- One operation of a call that is not among the calls any more. -/
def advance (s : IdentCallers) : IdentCall → Option IdentCallers
  | .allocate first =>
    if s.locked then none
    else
      match TIdentAllocator.begin first s.allocator.hashSet with
      | some id => some ({ s with allocator := s.allocator.take id, locked := true }.goOn
          (.reusing id))
      | none => some (s.goOn .counting)
  | .reusing id =>
    some ({ s with
      allocator := s.allocator.setUsage (s.allocator.usage + 1), locked := false }.giveOut id)
  | .counting =>
    some ({ s with allocator := s.allocator.setUsage (s.allocator.usage + 1) }.goOn .numbering)
  | .numbering =>
    let s := { s with allocator := s.allocator.countNext }
    some (s.giveOut s.allocator.next)
  | .recycle id =>
    if s.locked then none
    else some ({ s with allocator := s.allocator.emplace id }.goOn .discounting)
  | .discounting =>
    some ({ s with allocator := s.allocator.setUsage (s.allocator.usage - 1) }.goOn .testing)
  | .testing => some (s.goOn (if s.allocator.usage > 0 then .loading else .storing 0))
  | .loading => some (s.goOn (.storing s.allocator.usage))
  | .storing usage => some { s with allocator := s.allocator.setUsage usage }

/-- An id is handed back by who has it, and is then no longer outstanding. -/
def next (s : IdentCallers) : IdentMove → Option IdentCallers
  | .allocate first => some (s.goOn (.allocate first))
  | .recycle id =>
    if id ∈ s.outstanding then
      some ({ s with outstanding := s.outstanding.erase id }.goOn (.recycle id))
    else none
  | .advance call =>
    if call ∈ s.calls then advance { s with calls := s.calls.erase call } call else none

def Step (s : IdentCallers) (move : IdentMove) (later : IdentCallers) : Prop :=
  s.next move = some later

def runs (s : IdentCallers) (moves : List IdentMove) : List (IdentMove × IdentCallers) :=
  Transition.trace next s moves

theorem runs_path (s : IdentCallers) (moves : List IdentMove) :
    Transition.Path Step s (s.runs moves) :=
  Transition.trace_path id moves

/-- The id that a call has in hand: it is to be returned, or to go to the free ids. -/
def inHand : IdentCall → Option Int
  | .reusing id | .recycle id => some id
  | _ => none

def Allocating (s : IdentCallers) (id : Int) : Prop := .reusing id ∈ s.calls

def Recycling (s : IdentCallers) (id : Int) : Prop := .recycle id ∈ s.calls

/-- Every id up to the counter is in one place: free, outstanding or in a call. -/
structure Partitioned (s : IdentCallers) : Prop where
  distinct : s.outstanding.Nodup
  range : ∀ id ∈ s.outstanding, 1 ≤ id ∧ id ≤ s.allocator.next
  disjoint : ∀ id ∈ s.outstanding, id ∉ s.allocator.hashSet
  covered : ∀ id, 1 ≤ id → id ≤ s.allocator.next → ¬ s.Allocating id → ¬ s.Recycling id →
    id ∈ s.allocator.hashSet ∨ id ∈ s.outstanding

/-- What is not free: ids that are outstanding or in the hands of a call. -/
def held (s : IdentCallers) : Multiset Int := s.outstanding + s.calls.filterMap inHand

def Divided (s : IdentCallers) : Prop := s.allocator.Divides s.held

variable {s later : IdentCallers} {call : IdentCall} {move : IdentMove} {id first : Int}

theorem held_goOn (call : IdentCall) (s : IdentCallers) :
    (s.goOn call).held = (inHand call).elim s.held (· ::ₘ s.held) := by
  unfold held goOn
  cases hand : inHand call with
  | none => simp [hand]
  | some id => simp [Multiset.filterMap_cons_some inHand call s.calls hand]

theorem held_giveOut (id : Int) (s : IdentCallers) : (s.giveOut id).held = id ::ₘ s.held :=
  Multiset.cons_add id _ _

/-- A call that is taken out leaves what the others have. -/
theorem held_pending (pending : call ∈ s.calls) :
    s.held = (inHand call).elim ({ s with calls := s.calls.erase call }).held
      (· ::ₘ ({ s with calls := s.calls.erase call }).held) := by
  have whole := held_goOn call { s with calls := s.calls.erase call }
  simp only [goOn, Multiset.cons_erase pending] at whole
  exact whole

/-- Each operation moves an id from one place to another, or counts a new one. -/
theorem Divided.advance
    (divided : s.allocator.Divides ((inHand call).elim s.held (· ::ₘ s.held)))
    (came : s.advance call = some later) : later.Divided := by
  cases call with
  | allocate first =>
    simp only [IdentCallers.advance] at came
    split at came
    · cases came
    split at came
    next id found =>
      cases came
      have free := TIdentAllocator.begin_mem found
      have taken := divided.take free s.allocator.usage
      unfold Divided
      rw [held_goOn]
      exact taken
    next =>
      cases came
      unfold Divided
      rw [held_goOn]
      exact divided
  | reusing id =>
    cases came
    unfold Divided
    rw [held_giveOut]
    exact ⟨divided.counted, divided.ids⟩
  | numbering =>
    cases came
    unfold Divided
    rw [held_giveOut]
    have grown := divided.allocateFresh
    exact ⟨grown.counted, grown.ids⟩
  | recycle id =>
    simp only [IdentCallers.advance] at came
    split at came
    · cases came
    cases came
    unfold Divided
    rw [held_goOn]
    exact divided.recycle s.allocator.usage
  | counting | discounting | loading =>
    cases came
    unfold Divided
    rw [held_goOn]
    exact ⟨divided.counted, divided.ids⟩
  | testing =>
    cases came
    unfold Divided
    rw [held_goOn]
    split <;> exact ⟨divided.counted, divided.ids⟩
  | storing usage =>
    cases came
    exact ⟨divided.counted, divided.ids⟩

theorem Divided.step (divided : s.Divided) (moved : Step s move later) : later.Divided := by
  unfold Divided at divided
  cases move with
  | allocate first =>
    cases moved
    unfold Divided
    rw [held_goOn]
    exact divided
  | recycle id =>
    simp only [Step, next] at moved
    split at moved
    next out =>
      cases moved
      unfold Divided
      rw [held_goOn]
      have handed : id ::ₘ ({ s with outstanding := s.outstanding.erase id }).held = s.held := by
        unfold held
        rw [← Multiset.cons_add, Multiset.cons_erase out]
      rw [← handed] at divided
      exact divided
    next => cases moved
  | advance call =>
    simp only [Step, next] at moved
    split at moved
    next pending =>
      rw [held_pending pending] at divided
      exact Divided.advance divided moved
    next => cases moved

theorem Divided.partitioned (divided : s.Divided) : s.Partitioned := by
  have nodup := divided.nodup
  have known (id : Int) (out : id ∈ s.outstanding) : id ∈ s.allocator.outstanding :=
    divided.mem_iff.mp (Multiset.mem_add.mpr (.inl out))
  constructor
  case distinct => exact (Multiset.nodup_add.mp nodup).1
  case range => exact fun id out => (known id out).1
  case disjoint => exact fun id out => (known id out).2
  case covered =>
    intro id positive counted allocating recycling
    by_cases free : id ∈ s.allocator.hashSet
    · exact .inl free
    · have present : id ∈ s.held := divided.mem_iff.mpr ⟨⟨positive, counted⟩, free⟩
      rcases Multiset.mem_add.mp present with out | busy
      · exact .inr out
      · obtain ⟨call, pending, hand⟩ := (Multiset.mem_filterMap inHand _).mp busy
        cases call with
        | reusing other =>
          cases hand
          exact absurd pending allocating
        | recycle other =>
          cases hand
          exact absurd pending recycling
        | _ => cases hand

/-- The call that was begun last takes its turn. -/
theorem goOn_step (came : s.advance call = some later) :
    Step (s.goOn call) (.advance call) later := by
  simp only [Step, next, goOn, Multiset.mem_cons_self, if_true, Multiset.erase_cons_head]
  exact came

open Transition in
/-- Uninterrupted, the operations of `AllocateTS` do what the whole call does. -/
theorem allocate_alone (unlocked : s.locked = false) (first : Int) : ∃ path, Path Step s path ∧
    last s path = { s with
      allocator := (s.allocator.allocateTS first).2
      outstanding := (s.allocator.allocateTS first).1 ::ₘ s.outstanding } := by
  cases found : TIdentAllocator.begin first s.allocator.hashSet with
  | some id =>
    let taken : IdentCallers := { s with allocator := s.allocator.take id, locked := true }
    let given : IdentCallers := ({ taken with
      allocator := taken.allocator.setUsage (s.allocator.usage + 1), locked := false }).giveOut id
    have took : s.advance (.allocate first) = some (taken.goOn (.reusing id)) := by
      simp only [advance, unlocked, found]
      rfl
    have gave : taken.advance (.reusing id) = some given := rfl
    refine ⟨[(.allocate first, s.goOn (.allocate first)), (.advance (.allocate first),
      taken.goOn (.reusing id)), (.advance (.reusing id), given)],
      ⟨rfl, goOn_step took, goOn_step gave, trivial⟩, ?_⟩
    simp only [last, TIdentAllocator.allocateTS, TIdentAllocator.allocateLocked, found]
    simp only [given, taken, giveOut, unlocked]
    rfl
  | none =>
    let counted : IdentCallers :=
      { s with allocator := s.allocator.setUsage (s.allocator.usage + 1) }
    let numbered : IdentCallers := { counted with allocator := counted.allocator.countNext }
    have missed : s.advance (.allocate first) = some (s.goOn .counting) := by
      simp only [advance, unlocked, found]
      rfl
    have counts : s.advance .counting = some (counted.goOn .numbering) := rfl
    have numbers : counted.advance .numbering =
        some (numbered.giveOut numbered.allocator.next) := rfl
    refine ⟨[(.allocate first, s.goOn (.allocate first)), (.advance (.allocate first),
      s.goOn .counting), (.advance .counting, counted.goOn .numbering),
      (.advance .numbering, numbered.giveOut numbered.allocator.next)],
      ⟨rfl, goOn_step missed, goOn_step counts, goOn_step numbers, trivial⟩, ?_⟩
    simp only [last, TIdentAllocator.allocateTS, TIdentAllocator.allocateLocked, found]
    rfl

open Transition in
/-- The same for `RecycleTS`, with an id that is outstanding. -/
theorem recycle_alone (unlocked : s.locked = false) (out : id ∈ s.outstanding) :
    ∃ path, Path Step s path ∧ last s path = { s with
      allocator := s.allocator.recycleTS id
      outstanding := s.outstanding.erase id } := by
  let handed : IdentCallers := { s with outstanding := s.outstanding.erase id }
  let emplaced : IdentCallers := { handed with allocator := s.allocator.emplace id }
  let counted : IdentCallers :=
    { emplaced with allocator := emplaced.allocator.setUsage (s.allocator.usage - 1) }
  have hands : s.next (.recycle id) = some (handed.goOn (.recycle id)) := if_pos out
  have emplaces : handed.advance (.recycle id) = some (emplaced.goOn .discounting) :=
    if_neg (by simp [handed, unlocked])
  have counts : emplaced.advance .discounting = some (counted.goOn .testing) := rfl
  by_cases positive : s.allocator.usage - 1 > 0
  · have tests : counted.advance .testing = some (counted.goOn .loading) :=
      congrArg (fun place => some (counted.goOn place)) (if_pos positive)
    refine ⟨[(.recycle id, handed.goOn (.recycle id)), (.advance (.recycle id),
      emplaced.goOn .discounting), (.advance .discounting, counted.goOn .testing),
      (.advance .testing, counted.goOn .loading), (.advance .loading,
      counted.goOn (.storing (s.allocator.usage - 1))),
      (.advance (.storing (s.allocator.usage - 1)), counted)],
      ⟨hands, goOn_step emplaces, goOn_step counts, goOn_step tests, goOn_step rfl,
        goOn_step rfl, trivial⟩, ?_⟩
    simp only [last, TIdentAllocator.recycleTS, if_pos positive]
    rfl
  · have tests : counted.advance .testing = some (counted.goOn (.storing 0)) :=
      congrArg (fun place => some (counted.goOn place)) (if_neg positive)
    let stored : IdentCallers := { counted with allocator := counted.allocator.setUsage 0 }
    refine ⟨[(.recycle id, handed.goOn (.recycle id)), (.advance (.recycle id),
      emplaced.goOn .discounting), (.advance .discounting, counted.goOn .testing),
      (.advance .testing, counted.goOn (.storing 0)), (.advance (.storing 0), stored)],
      ⟨hands, goOn_step emplaces, goOn_step counts, goOn_step tests, goOn_step rfl, trivial⟩, ?_⟩
    simp only [last, TIdentAllocator.recycleTS, if_neg positive]
    rfl

open Transition in
/-- In every run of calls that hand back what they got, each id up to the counter
is free, outstanding, or on its way in a call, and in one of these places only. -/
theorem always_partitioned {path : List (IdentMove × IdentCallers)} (run : Path Step new path) :
    Always Partitioned new path := by
  have initial : new.Divided := TIdentAllocator.Divides.new
  have always := run.invariant (fun divided moved => Divided.step divided moved) initial
  exact always.imp fun _ divided => divided.partitioned

/-- Two calls count their ids, and one id comes back while a third call begins. -/
theorem always_partitioned_shared : Transition.Always Partitioned new (new.runs
    [.allocate 0, .allocate 0, .advance (.allocate 0), .advance (.allocate 0), .advance .counting,
      .advance .counting, .advance .numbering, .advance .numbering, .recycle 1, .allocate 1,
      .advance (.recycle 1), .advance (.allocate 1), .advance (.reusing 1)]) :=
  always_partitioned (runs_path _ _)

end IdentCallers
end Uranus
