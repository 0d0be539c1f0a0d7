import Mathlib.Algebra.Order.Group.Multiset
import Uranus.Base.Module
import Uranus.Foundation.Path
import Uranus.Foundation.Table

/-! Callers of the logger module. The test for a name, the creation of its logger and
the count of its uses are three sections of `TryCreateLogger`, and `TryDestroyLogger`
drops a logger after the lock. -/
namespace Uranus
open Foundation

/-- How far a call has come. `count` remembers whether the call made the logger. -/
inductive LoggerCall where
  | create (name : String)
  | make (name : String)
  | count (name : String) (made : Bool)
  | destroy (name : String)
  | drop (name : String)
deriving DecidableEq

namespace LoggerCall

def name : LoggerCall → String
  | create name | make name | count name _ | destroy name | drop name => name

end LoggerCall

inductive LoggerMove where
  | tryCreateLogger (name : String)
  | tryDestroyLogger (name : String)
  | advance (call : LoggerCall)
deriving DecidableEq

/-- `ULoggerModule` with the registry of spdlog and the calls under way. `created` and
`destroyed` have the names of the completed calls, those of `TryDestroyLogger` only where
there was a use; `threw` the names for which a logger was there already. -/
structure ULoggerModule where
  state : EModuleState
  configured : Bool
  useCount : Table String Int
  registry : Table String Unit
  calls : Multiset LoggerCall
  created : Multiset String
  destroyed : Multiset String
  threw : List String

namespace ULoggerModule

def new : ULoggerModule := ⟨.running, true, ∅, ∅, 0, 0, 0, []⟩

/-- `GetLoggerUseCount`. -/
def getLoggerUseCount (s : ULoggerModule) (name : String) : Int := (s.useCount.lookup name).getD 0

def goOn (call : LoggerCall) (s : ULoggerModule) : ULoggerModule :=
  { s with calls := call ::ₘ s.calls }

/-- The next section of a call. -/
def advance (s : ULoggerModule) : LoggerCall → ULoggerModule
  | .create name =>
    if s.state = .stopped then s
    else if (s.useCount.lookup name).isSome then s.goOn (.count name false)
    else if !s.configured then s
    else s.goOn (.make name)
  | .make name =>
    if (s.registry.lookup name).isSome then { s with threw := s.threw ++ [name] }
    else { s with registry := s.registry.insert name () }.goOn (.count name true)
  | .count name _ =>
    { s with useCount := s.useCount.insert name (s.getLoggerUseCount name + 1)
             created := name ::ₘ s.created }
  | .destroy name =>
    match s.useCount.lookup name with
    | none => s
    | some count =>
      if count - 1 > 0 then
        { s with useCount := s.useCount.insert name (count - 1)
                 destroyed := name ::ₘ s.destroyed }
      else { s with useCount := s.useCount.erase name }.goOn (.drop name)
  | .drop name =>
    { s with registry := s.registry.erase name, destroyed := name ::ₘ s.destroyed }

def next (s : ULoggerModule) : LoggerMove → Option ULoggerModule
  | .tryCreateLogger name => some (s.goOn (.create name))
  | .tryDestroyLogger name => some (s.goOn (.destroy name))
  | .advance call =>
    if call ∈ s.calls then some ({ s with calls := s.calls.erase call }.advance call) else none

def Step (s : ULoggerModule) (move : LoggerMove) (later : ULoggerModule) : Prop :=
  s.next move = some later

def runs (s : ULoggerModule) (moves : List LoggerMove) : List (LoggerMove × ULoggerModule) :=
  Transition.trace next s moves

theorem runs_path (s : ULoggerModule) (moves : List LoggerMove) :
    Transition.Path Step s (s.runs moves) :=
  Transition.trace_path id moves

/-- The calls that have made the logger of a name and not yet counted it. -/
def making (s : ULoggerModule) (name : String) : Nat := s.calls.count (.count name true)

/-- The calls that have erased the count of a name and not yet dropped its logger. -/
def dropping (s : ULoggerModule) (name : String) : Nat := s.calls.count (.drop name)

/-- What belongs to one name. -/
structure View where
  uses : Int
  registered : Bool
  making : Nat
  dropping : Nat
  created : Nat
  destroyed : Nat
deriving DecidableEq

def view (s : ULoggerModule) (name : String) : View where
  uses := s.getLoggerUseCount name
  registered := (s.registry.lookup name).isSome
  making := s.making name
  dropping := s.dropping name
  created := s.created.count name
  destroyed := s.destroyed.count name

namespace View

/-- What a section of a call does to what belongs to its name. -/
def after (v : View) : LoggerCall → View
  | .create _ => v
  | .make _ => if v.registered then v else { v with registered := true, making := v.making + 1 }
  | .count _ made => { v with
      uses := v.uses + 1
      making := if made then v.making - 1 else v.making
      created := v.created + 1 }
  | .destroy _ =>
    if v.uses = 0 then v
    else if v.uses - 1 > 0 then { v with uses := v.uses - 1, destroyed := v.destroyed + 1 }
    else { v with uses := 0, dropping := v.dropping + 1 }
  | .drop _ => { v with
      registered := false
      dropping := v.dropping - 1
      destroyed := v.destroyed + 1 }

/-- What is known of the call that goes on, which is among those of its name. -/
def Pending (v : View) : LoggerCall → Prop
  | .count _ true => 0 < v.making
  | .drop _ => 0 < v.dropping
  | _ => True

/-- The uses are what the completed calls make, but for those about to drop a logger. -/
structure Ledger (v : View) : Prop where
  nonnegative : 0 ≤ v.uses
  uses : v.uses = v.created - v.destroyed - v.dropping

/-- A logger is registered where its name is in use, or is to be, or was until a call
that is about to drop it. -/
structure Accounted (v : View) : Prop where
  registered : v.registered = true ↔ 0 < v.uses ∨ 0 < v.making ∨ 0 < v.dropping
  dropping : 0 < v.dropping → v.uses = 0 ∧ v.making = 0 ∧ v.dropping = 1

/-- The call finds its name as it left it: no other call has made or used the logger
since the test, the logger was not erased since, and no use is still to be counted. -/
def Undisturbed (v : View) : LoggerCall → Prop
  | .make _ => v.uses = 0 ∧ v.making = 0 ∧ v.dropping = 0
  | .count _ false => 0 < v.uses ∨ 0 < v.making
  | .destroy _ => v.uses = 1 → v.making = 0
  | _ => True

/-- The call finds a logger where it makes one. -/
def Throws (v : View) : LoggerCall → Prop
  | .make _ => v.registered = true
  | _ => False

variable {v : View} {call : LoggerCall}

theorem Ledger.after (ledger : v.Ledger) (pending : v.Pending call) : (v.after call).Ledger := by
  obtain ⟨nonnegative, uses⟩ := ledger
  cases call with
  | create name => exact ⟨nonnegative, uses⟩
  | make name =>
    simp only [View.after]
    split_ifs <;> exact ⟨nonnegative, uses⟩
  | count name made =>
    constructor <;> simp only [View.after] <;> omega
  | destroy name =>
    simp only [View.after]
    split_ifs with unused more
    · exact ⟨nonnegative, uses⟩
    · constructor <;> simp only <;> omega
    · constructor <;> simp only <;> omega
  | drop name =>
    have one : 0 < v.dropping := pending
    constructor <;> simp only [View.after] <;> omega

/-- A section keeps the account of its name, and throws nothing, if and only if it is
undisturbed. -/
theorem Accounted.after_iff (accounted : v.Accounted) (ledger : v.Ledger)
    (pending : v.Pending call) :
    ((v.after call).Accounted ∧ ¬ v.Throws call) ↔ v.Undisturbed call := by
  obtain ⟨nonnegative, _⟩ := ledger
  have registered := accounted.registered
  have alone := accounted.dropping
  cases call with
  | create name => exact iff_of_true ⟨accounted, not_false⟩ trivial
  | make name =>
    by_cases there : v.registered = true
    · apply iff_of_false (fun both => both.2 there)
      rintro ⟨unused, unmade, undropped⟩
      have some := registered.mp there
      omega
    · have none := mt registered.mpr there
      refine iff_of_true ⟨?_, there⟩ ⟨?_, ?_, ?_⟩
      · simp only [View.after, if_neg there]
        refine ⟨iff_of_true rfl (.inr (.inl (Nat.succ_pos _))), fun dropping => ?_⟩
        simp only at dropping
        omega
      · omega
      · omega
      · omega
  | count name made =>
    cases made with
    | true =>
      have one : 0 < v.making := pending
      refine iff_of_true ⟨⟨?_, ?_⟩, not_false⟩ trivial
      · simp only [View.after, registered]
        omega
      · intro dropping
        simp only [View.after] at dropping ⊢
        have none := alone dropping
        omega
    | false =>
      simp only [Undisturbed]
      constructor
      · rintro ⟨later, _⟩
        have counted := later.registered
        have apart := later.dropping
        simp only [View.after] at counted apart
        have there := registered.mp (counted.mpr (.inl (by omega)))
        by_contra none
        have dropping : 0 < v.dropping := by omega
        have zero := (apart dropping).1
        omega
      · intro some
        have kept : ¬ 0 < v.dropping := fun dropping => by
          have none := alone dropping
          omega
        refine ⟨⟨?_, fun dropping => absurd dropping kept⟩, not_false⟩
        simp only [View.after, registered]
        omega
  | destroy name =>
    simp only [Undisturbed]
    by_cases last : v.uses = 1
    · have erased : v.after (.destroy name) = { v with uses := 0, dropping := v.dropping + 1 } := by
        rw [View.after, if_neg (by omega), if_neg (by omega)]
      have none : ¬ 0 < v.dropping := fun dropping => by
        have unused := (alone dropping).1
        omega
      rw [erased]
      constructor
      · intro later _
        exact (later.1.dropping (Nat.succ_pos _)).2.1
      · intro unmade
        refine ⟨⟨?_, ?_⟩, not_false⟩
        · simp only [registered]
          omega
        · intro _
          exact ⟨rfl, unmade last, by simp only; omega⟩
    · refine iff_of_true ⟨?_, not_false⟩ fun one => absurd one last
      simp only [View.after]
      split_ifs with unused more
      · exact accounted
      · refine ⟨?_, fun dropping => ?_⟩
        · simp only [registered]
          omega
        · have none := (alone dropping).1
          omega
      · omega
  | drop name =>
    have one : 0 < v.dropping := pending
    obtain ⟨unused, unmade, single⟩ := alone one
    refine iff_of_true ⟨⟨?_, ?_⟩, not_false⟩ trivial
    · simp only [View.after, Bool.false_eq_true, false_iff]
      omega
    · intro dropping
      simp only [View.after] at dropping
      omega

end View

/-- What holds in every state: the module runs with its configuration, and the names
with a count are in use. -/
structure Running (s : ULoggerModule) : Prop where
  state : s.state = .running
  configured : s.configured = true
  positive : ∀ name count, s.useCount.lookup name = some count → 0 < count
  ledger : ∀ name, (s.view name).Ledger

variable {s later : ULoggerModule} {call : LoggerCall} {move : LoggerMove} {name : String}

@[simp] theorem view_goOn_create (first : String) :
    (s.goOn (.create first)).view name = s.view name := by
  simp [view, making, dropping, goOn, getLoggerUseCount]

@[simp] theorem view_goOn_destroy (first : String) :
    (s.goOn (.destroy first)).view name = s.view name := by
  simp [view, making, dropping, goOn, getLoggerUseCount]

/-- A section changes nothing of the other names. -/
theorem view_other (other : name ≠ call.name) : (s.advance call).view name = s.view name := by
  cases call with
  | create first =>
    simp only [advance]
    split_ifs <;> simp [view, making, dropping, goOn, getLoggerUseCount]
  | make first =>
    simp only [LoggerCall.name] at other
    simp only [advance]
    split_ifs
    · rfl
    · simp [view, making, dropping, goOn, getLoggerUseCount, AList.lookup_insert_ne other, other]
  | count first made =>
    simp only [LoggerCall.name] at other
    simp [advance, view, making, dropping, getLoggerUseCount, AList.lookup_insert_ne other,
      Multiset.count_cons_of_ne other]
  | destroy first =>
    simp only [LoggerCall.name] at other
    simp only [advance]
    split
    · rfl
    · split_ifs
      · simp [view, making, dropping, getLoggerUseCount, AList.lookup_insert_ne other,
          Multiset.count_cons_of_ne other]
      · simp [view, making, dropping, goOn, getLoggerUseCount, AList.lookup_erase_ne other, other]
  | drop first =>
    simp only [LoggerCall.name] at other
    simp [view, making, dropping, advance, getLoggerUseCount, AList.lookup_erase_ne other,
      Multiset.count_cons_of_ne other]

/-- The calls without one of them. -/
def without (s : ULoggerModule) (call : LoggerCall) : ULoggerModule :=
  { s with calls := s.calls.erase call }

theorem view_without_other (other : name ≠ call.name) :
    (s.without call).view name = s.view name := by
  have made : LoggerCall.count name true ≠ call := by
    rintro rfl
    exact other rfl
  have dropped : LoggerCall.drop name ≠ call := by
    rintro rfl
    exact other rfl
  simp only [view, making, dropping, getLoggerUseCount, without, Multiset.count_erase_of_ne made,
    Multiset.count_erase_of_ne dropped]

/-- What belongs to the name of a call, when the call has gone on. -/
theorem view_own (running : s.Running) :
    ((s.without call).advance call).view call.name = (s.view call.name).after call := by
  cases call with
  | create name =>
    have now : (s.without (.create name)).state ≠ .stopped := by
      rw [without, running.state]
      decide
    simp only [advance, if_neg now]
    split_ifs <;>
      simp [view, making, dropping, goOn, getLoggerUseCount, without, LoggerCall.name, View.after]
  | make name =>
    simp only [advance, without]
    split_ifs with registered
    · simp [view, making, dropping, getLoggerUseCount, LoggerCall.name, View.after, registered]
    · simp [view, making, dropping, goOn, getLoggerUseCount, LoggerCall.name, View.after,
        registered]
  | count name made =>
    cases made with
    | false =>
      simp [advance, view, making, dropping, getLoggerUseCount, without, LoggerCall.name,
        View.after]
    | true =>
      simp [advance, view, making, dropping, getLoggerUseCount, without, LoggerCall.name,
        View.after]
  | destroy name =>
    simp only [advance, without]
    cases found : s.useCount.lookup name with
    | none =>
      simp [view, making, dropping, getLoggerUseCount, LoggerCall.name, View.after, found]
    | some count =>
      have positive := running.positive name count found
      have used : ¬ count = 0 := by omega
      simp only
      split_ifs with more
      · simp [view, making, dropping, getLoggerUseCount, LoggerCall.name, View.after, found, used]
        omega
      · simp [view, making, dropping, goOn, getLoggerUseCount, LoggerCall.name, View.after, found,
          used]
        omega
  | drop name =>
    simp [advance, view, making, dropping, getLoggerUseCount, without, LoggerCall.name, View.after]

theorem pending_view (pending : call ∈ s.calls) : (s.view call.name).Pending call := by
  cases call with
  | count name made =>
    cases made with
    | false => trivial
    | true => exact Multiset.count_pos.mpr pending
  | drop name => exact Multiset.count_pos.mpr pending
  | create | make | destroy => trivial

theorem view_advance (running : s.Running) (name : String) :
    ((s.without call).advance call).view name =
      if name = call.name then (s.view call.name).after call else s.view name := by
  split
  next same =>
    rw [same]
    exact view_own running
  next other => rw [view_other other, view_without_other other]

/-- The call is not disturbed by others. -/
def Undisturbed (s : ULoggerModule) : LoggerMove → Prop
  | .advance call => (s.view call.name).Undisturbed call
  | _ => True

/-- All names are accounted for, and no call found a logger where it made one. -/
structure Sound (s : ULoggerModule) : Prop where
  accounted : ∀ name, (s.view name).Accounted
  quiet : s.threw = []

theorem threw_advance : ((s.without call).advance call).threw = [] ↔
    s.threw = [] ∧ ¬ (s.view call.name).Throws call := by
  cases call with
  | create name =>
    simp only [advance]
    split_ifs <;> simp [without, goOn, View.Throws]
  | make name =>
    simp only [advance, View.Throws, view, LoggerCall.name]
    split_ifs with there
    · simp [show (s.registry.lookup name).isSome = true from there]
    · simp [goOn, without, show ¬ (s.registry.lookup name).isSome = true from there]
  | count name made => simp [advance, without, View.Throws]
  | destroy name =>
    simp only [advance]
    split
    · simp [without, View.Throws]
    · split_ifs <;> simp [without, goOn, View.Throws]
  | drop name => simp [advance, without, View.Throws]

theorem state_advance (s : ULoggerModule) (call : LoggerCall) :
    ((s.without call).advance call).state = s.state ∧
      ((s.without call).advance call).configured = s.configured := by
  cases call with
  | create name =>
    simp only [advance]
    split_ifs <;> exact ⟨rfl, rfl⟩
  | make name =>
    simp only [advance]
    split_ifs <;> exact ⟨rfl, rfl⟩
  | count | drop => exact ⟨rfl, rfl⟩
  | destroy name =>
    simp only [advance]
    split
    · exact ⟨rfl, rfl⟩
    · split_ifs <;> exact ⟨rfl, rfl⟩

theorem Running.positive_advance (running : s.Running) {name : String} {count : Int}
    (found : ((s.without call).advance call).useCount.lookup name = some count) : 0 < count := by
  have before := running.positive name
  cases call with
  | create first =>
    simp only [advance] at found
    split_ifs at found <;> exact before count found
  | make first =>
    simp only [advance] at found
    split_ifs at found <;> exact before count found
  | count first made =>
    have least := (running.ledger first).nonnegative
    simp only [advance, Table.lookup_insert_ite] at found
    split at found
    · cases found
      change 0 ≤ s.getLoggerUseCount first at least
      change 0 < s.getLoggerUseCount first + 1
      omega
    · exact before count found
  | destroy first =>
    simp only [advance] at found
    split at found
    · exact before count found
    · split_ifs at found with more
      · simp only [Table.lookup_insert_ite] at found
        split at found
        · cases found
          exact more
        · exact before count found
      · simp only [goOn, Table.lookup_erase_ite] at found
        split at found
        · cases found
        · exact before count found
  | drop first => exact before count found

theorem Running.step (running : s.Running) (moved : Step s move later) : later.Running := by
  cases move with
  | tryCreateLogger name =>
    cases moved
    exact ⟨running.state, running.configured, running.positive, fun other => by
      rw [view_goOn_create]
      exact running.ledger other⟩
  | tryDestroyLogger name =>
    cases moved
    exact ⟨running.state, running.configured, running.positive, fun other => by
      rw [view_goOn_destroy]
      exact running.ledger other⟩
  | advance call =>
    obtain ⟨pending, taken⟩ := Option.ite_none_right_eq_some.mp moved
    cases taken
    obtain ⟨state, configured⟩ := state_advance s call
    refine ⟨state.trans running.state, configured.trans running.configured,
      fun _ _ => running.positive_advance, fun name => ?_⟩
    change (((s.without call).advance call).view name).Ledger
    rw [view_advance running]
    split
    · exact (running.ledger _).after (pending_view pending)
    · exact running.ledger name

/-- A step keeps the accounts if and only if its call is not disturbed. -/
theorem Sound.step_iff (sound : s.Sound) (running : s.Running) (moved : Step s move later) :
    later.Sound ↔ s.Undisturbed move := by
  cases move with
  | tryCreateLogger name =>
    cases moved
    refine iff_of_true ⟨fun other => ?_, sound.quiet⟩ trivial
    rw [view_goOn_create]
    exact sound.accounted other
  | tryDestroyLogger name =>
    cases moved
    refine iff_of_true ⟨fun other => ?_, sound.quiet⟩ trivial
    rw [view_goOn_destroy]
    exact sound.accounted other
  | advance call =>
    obtain ⟨pending, taken⟩ := Option.ite_none_right_eq_some.mp moved
    cases taken
    rw [Undisturbed, ← (sound.accounted _).after_iff (running.ledger _) (pending_view pending)]
    constructor
    · intro kept
      have own := kept.accounted call.name
      change (((s.without call).advance call).view call.name).Accounted at own
      rw [view_own running] at own
      exact ⟨own, (threw_advance.mp kept.quiet).2⟩
    · rintro ⟨own, quiet⟩
      refine ⟨fun name => ?_, threw_advance.mpr ⟨sound.quiet, quiet⟩⟩
      change (((s.without call).advance call).view name).Accounted
      rw [view_advance running]
      split
      · exact own
      · exact sound.accounted name

/-- Between calls, a logger is registered where its name has uses, which are those of the
completed calls. -/
def Matched (s : ULoggerModule) : Prop :=
  s.calls = 0 → ∀ name, ((s.registry.lookup name).isSome = true ↔ 0 < s.getLoggerUseCount name) ∧
    s.getLoggerUseCount name = s.created.count name - s.destroyed.count name

theorem Sound.matched (sound : s.Sound) (running : s.Running) : s.Matched := by
  intro idle name
  have unmade : s.making name = 0 := by simp [making, idle]
  have undropped : s.dropping name = 0 := by simp [dropping, idle]
  have registered := (sound.accounted name).registered
  have uses := (running.ledger name).uses
  simp only [view, unmade, undropped] at registered uses
  constructor
  · rw [registered]
    omega
  · omega

theorem Running.fresh : new.Running where
  state := rfl
  configured := rfl
  positive name count found := by cases found
  ledger name := ⟨Int.le_refl 0, rfl⟩

theorem Sound.fresh : new.Sound where
  accounted name := ⟨by simp [view, new, getLoggerUseCount, making, dropping],
    fun some => absurd some (by simp [view, new, dropping])⟩
  quiet := rfl

open Transition in
/-- The accounts are kept along a run if and only if no call is disturbed. Then no call
finds a logger where it makes one, and between calls the loggers are those in use. -/
theorem sound_iff_undisturbed {path : List (LoggerMove × ULoggerModule)}
    (run : Path Step new path) :
    (Always Sound new path ↔ Every Undisturbed new path) ∧
      (Every Undisturbed new path → Always (fun s => s.threw = [] ∧ s.Matched) new path) := by
  have exact : Always Sound new path ↔ Every Undisturbed new path := by
    apply run.always_iff_every (fun running moved => Running.step running moved) _ _ .fresh .fresh
    · intro s move later running sound undisturbed moved
      exact (sound.step_iff running moved).mpr undisturbed
    · intro s move later running sound disturbed moved kept
      exact disturbed ((sound.step_iff running moved).mp kept)
  refine ⟨exact, fun undisturbed => ?_⟩
  have both : Always (fun s => s.Running ∧ s.Sound) new path := by
    apply run.always _ ⟨.fresh, .fresh⟩ undisturbed
    intro s move later holds meets moved
    exact ⟨holds.1.step moved, (holds.2.step_iff holds.1 moved).mpr meets⟩
  exact both.imp fun s holds => ⟨holds.2.quiet, holds.2.matched holds.1⟩

/-- Two calls find no use of a name, and one that came after both of them. -/
def crossing : List (LoggerMove × ULoggerModule) :=
  new.runs [.tryCreateLogger "chat", .tryCreateLogger "chat", .advance (.create "chat"),
    .advance (.create "chat"), .advance (.make "chat"), .advance (.make "chat"),
    .advance (.count "chat" true)]

/-- The second of them throws. -/
theorem crossing_throws : ¬ ∀ path, Transition.Path Step new path →
    Transition.Always (fun s => s.threw = [] ∧ s.Matched) new path := by
  intro all
  have holds := (all crossing (runs_path _ _)).last.1
  revert holds
  decide

/-- A use is counted between the test and the count of another one. -/
theorem sound_iff_undisturbed_shared :
    let path := new.runs [.tryCreateLogger "chat", .advance (.create "chat"),
      .advance (.make "chat"), .advance (.count "chat" true), .tryCreateLogger "chat",
      .tryDestroyLogger "chat", .advance (.create "chat"), .advance (.count "chat" false),
      .advance (.destroy "chat")]
    (Transition.Always Sound new path ↔ Transition.Every Undisturbed new path) ∧
      (Transition.Every Undisturbed new path →
        Transition.Always (fun s => s.threw = [] ∧ s.Matched) new path) :=
  sound_iff_undisturbed (runs_path _ _)

end ULoggerModule
end Uranus
