import Uranus.Base.MultiIOContextPool
import Uranus.Database.DataAccess

/-! The indices of the callers of `PushTask`, who take the workers in turns as the
callers of `GetIOContext` take its nodes. -/
namespace Uranus
open Foundation RoundRobin
namespace UDataAccess

/-- The turn of a call that has its index. -/
def turn : PushCall → Option Turn
  | .testing _ | .indexing _ => none
  | .loading index _ => some (.loading index)
  | .storing index value _ => some (.storing index value)
  | .pushing index _ => some (.holding index)

def turns (m : UDataAccess) : Counter := ⟨m.nextIndex, m.calls.filterMap turn⟩

variable {size : Nat} {m later : UDataAccess} {call : PushCall} {move : DataAccessMove}

theorem goOn_turns (shows : turn call = none) : (m.goOn call).turns = m.turns := by
  simp only [turns, goOn, Multiset.filterMap_cons_none _ _ shows]

theorem goOn_turn {shown : Turn} (shows : turn call = some shown) :
    (m.goOn call).turns = ⟨m.nextIndex, shown ::ₘ m.turns.turns⟩ := by
  simp only [turns, goOn, Multiset.filterMap_cons_some _ _ _ shows]

theorem step_goOn (m : UDataAccess) (call : PushCall) :
    Step (m.goOn call) (.advance call) (m.advance call) := by
  simp only [Step, next, goOn, Multiset.mem_cons_self, if_true, Multiset.erase_cons_head]

theorem exists_goOn (moved : Step m (.advance call) later) :
    ∃ before : UDataAccess, m = before.goOn call ∧ later = before.advance call := by
  obtain ⟨pending, taken⟩ := Option.ite_none_right_eq_some.mp moved
  cases taken
  refine ⟨{ m with calls := m.calls.erase call }, ?_, rfl⟩
  simp only [goOn, Multiset.cons_erase pending]

/-- A turn that is shown is that of one call. -/
theorem exists_shown {shown : Turn} {c : Counter} (whole : m.turns = ⟨c.next, shown ::ₘ c.turns⟩) :
    ∃ call, ∃ before : UDataAccess,
      m = before.goOn call ∧ turn call = some shown ∧ before.turns = c := by
  obtain ⟨same, shows⟩ := Counter.mk.inj whole
  obtain ⟨call, rest, pending, own, others⟩ := exists_call shows
  refine ⟨call, { m with calls := rest }, ?_, own, ?_⟩
  · simp only [goOn, ← pending]
  · simp only [turns, others, same]

/-- A call that has its index goes on as its turn does. -/
theorem advance_turn {shown : Turn} (shows : turn call = some shown) (m : UDataAccess) :
    (m.advance call).turns = m.turns.after m.workerList.length shown := by
  cases call with
  | testing | indexing => cases shows
  | loading index task =>
    cases shows
    exact goOn_turn rfl
  | storing index value task =>
    cases shows
    exact goOn_turn rfl
  | pushing index task =>
    cases shows
    simp only [advance]
    split <;> rfl

theorem advance_indexing (m : UDataAccess) (task : IDBTaskBase) :
    (m.advance (.indexing task)).turns =
      ⟨m.turns.next + 1, .loading m.turns.next ::ₘ m.turns.turns⟩ :=
  goOn_turn rfl

/-- The module has its workers, of which there are as many as `size`. -/
structure Staffed (size : Nat) (m : UDataAccess) : Prop where
  initialized : m.state ≠ .created
  sized : m.workerList.length = size

/-- The module takes tasks. -/
structure Serving (size : Nat) (m : UDataAccess) : Prop where
  running : m.state = .running
  sized : m.workerList.length = size

theorem advance_frame (m : UDataAccess) (call : PushCall) :
    (m.advance call).state = m.state ∧
      (m.advance call).workerList.length = m.workerList.length := by
  cases call with
  | testing task =>
    simp only [advance]
    split_ifs <;> exact ⟨rfl, rfl⟩
  | indexing | loading | storing => exact ⟨rfl, rfl⟩
  | pushing index task =>
    simp only [advance]
    split
    · exact ⟨rfl, List.length_set⟩
    · exact ⟨rfl, rfl⟩

theorem mainNext_frame (staffed : m.Staffed size) (moved : m.mainNext = some later) :
    later.Staffed size ∧ later.turns = m.turns := by
  obtain ⟨initialized, sized⟩ := staffed
  unfold mainNext at moved
  split at moved
  · cases moved
  · split at moved
    · cases moved
      exact ⟨⟨initialized, List.length_set.trans sized⟩, rfl⟩
    · cases moved
      exact ⟨⟨by simp, sized⟩, rfl⟩
  · split at moved
    · cases moved
      exact ⟨⟨initialized, List.length_set.trans sized⟩, rfl⟩
    · cases moved
      exact ⟨⟨initialized, sized⟩, rfl⟩

/-- The other threads show nothing of the turns, and leave the workers their number. -/
theorem step_frame (staffed : m.Staffed size) (other : ∀ call, move ≠ .advance call)
    (moved : Step m move later) : later.Staffed size ∧ later.turns = m.turns := by
  obtain ⟨initialized, sized⟩ := staffed
  cases move with
  | initial =>
    obtain ⟨idle, taken⟩ := Option.ite_none_right_eq_some.mp moved
    cases taken
    rw [initial, if_neg initialized]
    exact ⟨⟨initialized, sized⟩, rfl⟩
  | start =>
    obtain ⟨idle, taken⟩ := Option.ite_none_right_eq_some.mp moved
    cases taken
    unfold start
    split
    · exact ⟨⟨by simp, sized⟩, rfl⟩
    · exact ⟨⟨initialized, sized⟩, rfl⟩
  | stop =>
    obtain ⟨idle, taken⟩ := Option.ite_none_right_eq_some.mp moved
    cases taken
    unfold stop
    split
    · exact ⟨⟨initialized, sized⟩, rfl⟩
    · exact ⟨⟨by simp, sized⟩, rfl⟩
  | main => exact mainNext_frame ⟨initialized, sized⟩ moved
  | worker index =>
    simp only [Step, next] at moved
    split at moved
    · split at moved
      · cases moved
        exact ⟨⟨initialized, List.length_set.trans sized⟩, rfl⟩
      · cases moved
    · cases moved
  | pushTask task =>
    cases moved
    exact ⟨⟨initialized, sized⟩, goOn_turns rfl⟩
  | advance call => exact absurd rfl (other call)

/-- The calls of `PushTask` take turns, as long as the module runs. -/
theorem realizes (positive : 0 < size) :
    Realizes Step size (Staffed size) (Serving size) turns where
  keeps {m move later} staffed moved := by
    cases move with
    | advance call =>
      obtain ⟨before, rfl, rfl⟩ := exists_goOn moved
      obtain ⟨state, length⟩ := advance_frame before call
      exact ⟨state ▸ staffed.initialized, length.trans staffed.sized⟩
    | initial | start | stop | main | worker | pushTask =>
      exact (step_frame staffed (fun _ same => by cases same) moved).1
  forth {m move later} staffed moved := by
    cases move with
    | advance call =>
      obtain ⟨before, rfl, rfl⟩ := exists_goOn moved
      have same : before.workerList.length = size := staffed.sized
      cases shows : turn call with
      | some shown =>
        rw [goOn_turn shows, advance_turn shows, same]
        exact .inr (.go before.turns shown)
      | none =>
        rw [goOn_turns shows]
        cases call with
        | testing task =>
          simp only [advance]
          split_ifs
          · exact .inl rfl
          · exact .inl rfl
          · exact .inl (goOn_turns rfl)
        | indexing task =>
          rw [advance_indexing]
          exact .inr (.take before.turns)
        | loading | storing | pushing => cases shows
    | initial | start | stop | main | worker | pushTask =>
      exact .inl (step_frame staffed (fun _ same => by cases same) moved).2
  back {m d} serving step := by
    generalize whole : m.turns = c at step
    cases step with
    | take c =>
      subst whole
      have some : m.workerList ≠ [] := by
        rintro none
        have sized := serving.sized
        rw [none, List.length_nil] at sized
        omega
      let task : IDBTaskBase := ⟨0⟩
      let accepting : UDataAccess := { m with accepted := task ::ₘ m.accepted }
      have test : Step (m.goOn (.testing task)) (.advance (.testing task))
          (accepting.goOn (.indexing task)) := by
        have ran := step_goOn m (.testing task)
        rwa [advance, if_neg (by simp [serving.running]), if_neg some] at ran
      have tested : (accepting.goOn (.indexing task)).turns = (m.goOn (.testing task)).turns :=
        (goOn_turns rfl).trans (goOn_turns rfl).symm
      have start : Step m (.pushTask task) (m.goOn (.testing task)) := rfl
      have take := Leads.single (R := Serving size) (step_goOn accepting (.indexing task))
        (advance_indexing accepting task) ⟨serving.running, serving.sized⟩
      exact ⟨_, (take.before test tested).before start (goOn_turns rfl)⟩
    | go c shown =>
      obtain ⟨call, before, rfl, own, rfl⟩ := exists_shown whole
      have same : before.workerList.length = size := serving.sized
      obtain ⟨state, length⟩ := advance_frame before call
      refine ⟨_, .single (step_goOn before call) ?_ ?_⟩
      · rw [advance_turn own, same]
      · exact ⟨state.trans serving.running, length.trans same⟩

end UDataAccess

/-- With any number of callers of which at most `bound` are at once between their
increment and their store, all indices of `PushTask` are in range, and all of
`GetIOContext`, if and only if no two are there at once. -/
theorem indices_inRange_iff {size bound : Nat} (positive : 0 < size) :
    ((∀ m : UDataAccess, m.Serving size → m.nextIndex = 0 → m.calls = 0 →
      ∀ path, Transition.Path UDataAccess.Step m path →
        Transition.Always (fun t => overlap t.turns ≤ bound) m path →
        Transition.Always (fun t => InRange size t.turns) m path) ↔ bound ≤ 1) ∧
    ((∀ nodeList : List Nat, nodeList.length = size →
      ∀ path, Transition.Path UMultiIOContextPool.Step (.started nodeList) path →
        Transition.Always (fun t => overlap t.turns ≤ bound) (.started nodeList) path →
        Transition.Always (fun t => InRange size t.turns) (.started nodeList) path) ↔
      bound ≤ 1) := by
  constructor
  · have realizes := UDataAccess.realizes positive
    constructor
    · intro all
      by_contra several
      let m : UDataAccess :=
        { UDataAccess.new with state := .running, workerList := List.replicate size .new }
      have serving : m.Serving size := ⟨rfl, List.length_replicate⟩
      have two : 2 ≤ bound := by omega
      obtain ⟨path, run, few, out⟩ := realizes.exists_out positive serving rfl two
      exact out (all m serving rfl rfl path run few)
    · intro single m serving fresh idle path run few
      have shown : m.turns = ⟨0, 0⟩ := by simp [UDataAccess.turns, fresh, idle]
      have staffed : m.Staffed size := ⟨by simp [serving.running], serving.sized⟩
      exact realizes.inRange positive staffed shown run (few.imp fun _ most => most.trans single)
  · have realizes := UMultiIOContextPool.realizes positive
    constructor
    · intro all
      by_contra several
      have two : 2 ≤ bound := by omega
      let fresh : UMultiIOContextPool := .started (List.replicate size 0)
      have sized : fresh.nodeList.length = size := List.length_replicate
      obtain ⟨path, run, few, out⟩ := realizes.exists_out positive sized rfl two
      exact out (all _ sized path run few)
    · intro single nodeList sized path run few
      exact realizes.inRange positive sized rfl run (few.imp fun _ most => most.trans single)

namespace UDataAccess

/-- The module in service, with the two workers it makes. -/
def twoWorkers : UDataAccess :=
  { new with state := .running, workerList := List.replicate workers .new }

/-- Three calls take their indices before one of them has reduced the counter. -/
def threeCalls : List (DataAccessMove × UDataAccess) :=
  twoWorkers.runs [.pushTask ⟨1⟩, .pushTask ⟨2⟩, .pushTask ⟨3⟩, .advance (.testing ⟨1⟩),
    .advance (.testing ⟨2⟩), .advance (.testing ⟨3⟩), .advance (.indexing ⟨1⟩),
    .advance (.indexing ⟨2⟩), .advance (.indexing ⟨3⟩)]

theorem threeCalls_out_of_range : ¬ ∀ size, 0 < size → ∀ m : UDataAccess, m.Serving size →
    m.nextIndex = 0 → m.calls = 0 → ∀ path, Transition.Path Step m path →
      Transition.Always (fun t => InRange size t.turns) m path := by
  intro all
  have inRange := (all 2 (by decide) twoWorkers ⟨rfl, rfl⟩ rfl rfl threeCalls (runs_path _ _)).last
  have below := inRange (.loading 2) (by decide)
  simp only [Turn.index] at below
  omega

theorem indices_inRange_two :
    ((∀ m : UDataAccess, m.Serving 2 → m.nextIndex = 0 → m.calls = 0 →
      ∀ path, Transition.Path Step m path →
        Transition.Always (fun t => overlap t.turns ≤ 2) m path →
        Transition.Always (fun t => InRange 2 t.turns) m path) ↔ 2 ≤ 1) :=
  (indices_inRange_iff (by decide)).1

end UDataAccess
end Uranus
