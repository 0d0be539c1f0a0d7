import Uranus.Foundation.RoundRobin

/-! The pool of IO contexts, whose callers take its nodes in turns. -/
namespace Uranus
open Foundation RoundRobin

/-- What a call of `GetIOContext` does next. -/
inductive ContextCall where
  | testing
  | indexing
  | loading (index : Nat)
  | storing (index value : Nat)
  | returning (index : Nat)
deriving DecidableEq, Repr

/-- `nodeList` has the contexts of the nodes. `returned` are the contexts that calls came
back with, where a node outside of the list is undefined, and `thrown` the calls that
found no node. -/
structure UMultiIOContextPool where
  nodeList : List Nat
  nextIndex : Nat
  calls : Multiset ContextCall
  returned : Multiset (Option Nat)
  thrown : Nat

inductive ContextMove where
  | getIOContext
  | advance (call : ContextCall)
deriving DecidableEq, Repr

namespace UMultiIOContextPool

/-- The pool after `Start`. -/
def started (nodeList : List Nat) : UMultiIOContextPool := ⟨nodeList, 0, 0, 0, 0⟩

def goOn (call : ContextCall) (s : UMultiIOContextPool) : UMultiIOContextPool :=
  { s with calls := call ::ₘ s.calls }

/-- The next operation of a call of `GetIOContext`. -/
def advance (s : UMultiIOContextPool) : ContextCall → UMultiIOContextPool
  | .testing => if s.nodeList = [] then { s with thrown := s.thrown + 1 } else s.goOn .indexing
  | .indexing => { s with nextIndex := s.nextIndex + 1 }.goOn (.loading s.nextIndex)
  | .loading index => s.goOn (.storing index (s.nextIndex % s.nodeList.length))
  | .storing index value => { s with nextIndex := value }.goOn (.returning index)
  | .returning index => { s with returned := s.nodeList[index]? ::ₘ s.returned }

def next (s : UMultiIOContextPool) : ContextMove → Option UMultiIOContextPool
  | .getIOContext => some (s.goOn .testing)
  | .advance call =>
    if call ∈ s.calls then some ({ s with calls := s.calls.erase call }.advance call) else none

def Step (s : UMultiIOContextPool) (move : ContextMove) (later : UMultiIOContextPool) : Prop :=
  s.next move = some later

/-- The turn of a call that has its index. -/
def turn : ContextCall → Option Turn
  | .testing | .indexing => none
  | .loading index => some (.loading index)
  | .storing index value => some (.storing index value)
  | .returning index => some (.holding index)

def turns (s : UMultiIOContextPool) : Counter := ⟨s.nextIndex, s.calls.filterMap turn⟩

variable {size : Nat} {s later : UMultiIOContextPool} {call : ContextCall}

theorem goOn_turns (shows : turn call = none) : (s.goOn call).turns = s.turns := by
  simp only [turns, goOn, Multiset.filterMap_cons_none _ _ shows]

theorem goOn_turn {shown : Turn} (shows : turn call = some shown) :
    (s.goOn call).turns = ⟨s.nextIndex, shown ::ₘ s.turns.turns⟩ := by
  simp only [turns, goOn, Multiset.filterMap_cons_some _ _ _ shows]

theorem step_goOn (s : UMultiIOContextPool) (call : ContextCall) :
    Step (s.goOn call) (.advance call) (s.advance call) := by
  simp only [Step, next, goOn, Multiset.mem_cons_self, if_true, Multiset.erase_cons_head]

theorem exists_goOn (moved : Step s (.advance call) later) :
    ∃ before : UMultiIOContextPool, s = before.goOn call ∧ later = before.advance call := by
  obtain ⟨pending, taken⟩ := Option.ite_none_right_eq_some.mp moved
  cases taken
  refine ⟨{ s with calls := s.calls.erase call }, ?_, rfl⟩
  simp only [goOn, Multiset.cons_erase pending]

theorem nodeList_advance : (s.advance call).nodeList = s.nodeList := by
  cases call with
  | testing =>
    simp only [advance]
    split <;> rfl
  | indexing | loading | storing | returning => rfl

/-- A turn that is shown is that of one call. -/
theorem exists_shown {shown : Turn} {c : Counter} (whole : s.turns = ⟨c.next, shown ::ₘ c.turns⟩) :
    ∃ call, ∃ before : UMultiIOContextPool,
      s = before.goOn call ∧ turn call = some shown ∧ before.turns = c := by
  obtain ⟨same, shows⟩ := Counter.mk.inj whole
  obtain ⟨call, rest, pending, own, others⟩ := exists_call shows
  refine ⟨call, { s with calls := rest }, ?_, own, ?_⟩
  · simp only [goOn, ← pending]
  · simp only [turns, others, same]

/-- A call that has its index goes on as its turn does. -/
theorem advance_turn {shown : Turn} (shows : turn call = some shown) (s : UMultiIOContextPool) :
    (s.advance call).turns = s.turns.after s.nodeList.length shown := by
  cases call with
  | testing | indexing => cases shows
  | loading index =>
    cases shows
    exact goOn_turn rfl
  | storing index value =>
    cases shows
    exact goOn_turn rfl
  | returning index =>
    cases shows
    rfl

theorem advance_indexing (s : UMultiIOContextPool) : (s.advance .indexing).turns =
    ⟨s.turns.next + 1, .loading s.turns.next ::ₘ s.turns.turns⟩ :=
  goOn_turn rfl

/-- The calls of `GetIOContext` take turns. -/
theorem realizes (positive : 0 < size) : Realizes Step size (fun s => s.nodeList.length = size)
    (fun s => s.nodeList.length = size) turns where
  keeps {s move later} sized moved := by
    cases move with
    | getIOContext =>
      cases moved
      exact sized
    | advance call =>
      obtain ⟨before, rfl, rfl⟩ := exists_goOn moved
      rw [nodeList_advance]
      exact sized
  forth {s move later} sized moved := by
    cases move with
    | getIOContext =>
      cases moved
      exact .inl (goOn_turns rfl)
    | advance call =>
      obtain ⟨before, rfl, rfl⟩ := exists_goOn moved
      have same : before.nodeList.length = size := sized
      cases shows : turn call with
      | some shown =>
        rw [goOn_turn shows, advance_turn shows, same]
        exact .inr (.go before.turns shown)
      | none =>
        rw [goOn_turns shows]
        cases call with
        | testing =>
          simp only [advance]
          split
          · exact .inl rfl
          · exact .inl (goOn_turns rfl)
        | indexing =>
          rw [advance_indexing]
          exact .inr (.take before.turns)
        | loading | storing | returning => cases shows
  back {s d} sized step := by
    generalize whole : s.turns = c at step
    cases step with
    | take c =>
      subst whole
      have some : s.nodeList ≠ [] := by
        rintro none
        rw [none, List.length_nil] at sized
        omega
      have test := step_goOn s .testing
      simp only [advance, if_neg some] at test
      have tested : (s.goOn .indexing).turns = (s.goOn .testing).turns :=
        (goOn_turns rfl).trans (goOn_turns rfl).symm
      have start : Step s .getIOContext (s.goOn .testing) := rfl
      have take := Leads.single (R := fun s => s.nodeList.length = size) (step_goOn s .indexing)
        (advance_indexing s) sized
      exact ⟨_, (take.before test tested).before start (goOn_turns rfl)⟩
    | go c shown =>
      obtain ⟨call, before, rfl, own, rfl⟩ := exists_shown whole
      have same : before.nodeList.length = size := sized
      refine ⟨_, .single (step_goOn before call) ?_ ?_⟩
      · rw [advance_turn own, same]
      · rw [nodeList_advance]
        exact same

end UMultiIOContextPool
end Uranus
