import Uranus.Foundation.Program
import Uranus.Foundation.Path
import Mathlib.Algebra.Order.Group.Multiset
import Mathlib.Data.Multiset.Filter

/-! Calls that interleave over a shared state. A call is a value that says how
far it has come; its next section runs without interruption and leaves the rest
of the call, or nothing where the call returns or throws. -/
namespace Foundation.Interleaving
open Program
variable {S C : Type}

structure Config (S C : Type) where
  shared : S
  calls : Multiset C

inductive Move (C : Type) where
  | invoke (call : C)
  | advance (call : C)

/-- The section came back in state `t` with `rest` of the call left to do. -/
def Reaches (program : Program S (Option C)) (s : S) (rest : Option C) (t : S) : Prop :=
  program s = .ok rest t ∨ rest = none ∧ ∃ what, program s = .error (.exception what) t

/-- What is left of a call, beside the other calls. -/
def resume (rest : Option C) (others : Multiset C) : Multiset C :=
  match rest with
  | none => others
  | some call => call ::ₘ others

theorem mem_resume {rest : Option C} {others : Multiset C} {call : C} :
    call ∈ resume rest others ↔ rest = some call ∨ call ∈ others := by
  cases rest with
  | none => simp [resume]
  | some other => simp [resume, eq_comm]

theorem Reaches.of_ok {program : Program S (Option C)} {s t u : S} {rest value : Option C}
    (reaches : Reaches program s rest t) (ran : program s = .ok value u) :
    rest = value ∧ t = u := by
  rcases reaches with returned | ⟨-, what, threw⟩
  · cases ran.symm.trans returned
    exact ⟨rfl, rfl⟩
  · cases ran.symm.trans threw

theorem Reaches.congr {program other : Program S (Option C)} {s t u : S} {rest : Option C}
    (reaches : Reaches program s rest t) (same : program s = other u) : Reaches other u rest t := by
  unfold Reaches at reaches ⊢
  rwa [← same]

theorem Reaches.ends {program : Program S (Option C)} {s t : S} {rest : Option C}
    (reaches : Reaches program s rest t) : Ends program s t := by
  rcases reaches with returned | ⟨-, threw⟩
  · exact .inl ⟨rest, returned⟩
  · exact .inr threw

/-- A section that ends with a return of nothing left. -/
theorem Reaches.last {program : Program S Unit} {s t : S} {rest : Option C}
    (reaches : Reaches (program >>= fun _ => pure none) s rest t) :
    rest = none ∧ Ends program s t := by
  rcases reaches with returned | ⟨none, what, threw⟩
  · obtain ⟨value, u, ran, rest⟩ := bind_eq_ok returned
    cases rest
    exact ⟨rfl, .inl ⟨value, ran⟩⟩
  · constructor
    · exact none
    · rcases Ends.of_bind (.inr ⟨what, threw⟩) with ⟨value, u, ran, ends⟩ | stopped
      · cases ends.of_ok (u := u) rfl
        exact .inl ⟨value, ran⟩
      · exact .inr stopped

/-- A section that passes on what is left of another call. -/
theorem Reaches.of_map {D : Type} {program : Program S (Option D)} {wrap : D → C} {s t : S}
    {rest : Option C} (reaches : Reaches (program >>= fun rest => pure (rest.map wrap)) s rest t) :
    ∃ inner, rest = inner.map wrap ∧ Reaches program s inner t := by
  rcases reaches with returned | ⟨none, what, threw⟩
  · obtain ⟨inner, u, ran, rest⟩ := bind_eq_ok returned
    cases rest
    exact ⟨inner, rfl, .inl ran⟩
  · rcases Ends.of_bind (.inr ⟨what, threw⟩) with ⟨inner, u, ran, -⟩ | stopped
    · cases (bind_ok ran _).symm.trans threw
    · exact ⟨.none, none, .inr ⟨rfl, stopped⟩⟩

/-- The sections of a call one after another, as many as there is fuel for. -/
def alone (part : C → Program S (Option C)) : Nat → Option C → Program S Unit
  | _, none => pure ()
  | 0, some _ => pure ()
  | fuel + 1, some call => do
    let rest ← part call
    alone part fuel rest

variable [DecidableEq C]

inductive Step (part : C → Program S (Option C)) (starts : C → Prop) :
    Config S C → Move C → Config S C → Prop where
  | invoke {s : S} {calls : Multiset C} {call : C} (fresh : starts call) :
      Step part starts ⟨s, calls⟩ (.invoke call) ⟨s, call ::ₘ calls⟩
  | advance {s t : S} {calls : Multiset C} {call : C} {rest : Option C} (pending : call ∈ calls)
      (reaches : Reaches (part call) s rest t) :
      Step part starts ⟨s, calls⟩ (.advance call) ⟨t, resume rest (calls.erase call)⟩

/-- The step with a label, computed. -/
def following (part : C → Program S (Option C)) (starts : C → Prop) [DecidablePred starts]
    (config : Config S C) : Move C → Option (Config S C)
  | .invoke call => if starts call then some ⟨config.shared, call ::ₘ config.calls⟩ else none
  | .advance call =>
    if call ∈ config.calls then
      match part call config.shared with
      | .ok rest t => some ⟨t, resume rest (config.calls.erase call)⟩
      | .error (.exception _) t => some ⟨t, config.calls.erase call⟩
      | .error _ _ => none
    else none

theorem following_step {part : C → Program S (Option C)} {starts : C → Prop}
    [DecidablePred starts] {config later : Config S C} {label : Move C}
    (came : following part starts config label = some later) :
    Step part starts config label later := by
  obtain ⟨s, calls⟩ := config
  cases label with
  | invoke call =>
    simp only [following] at came
    split at came
    next fresh =>
      cases came
      exact .invoke fresh
    next => cases came
  | advance call =>
    simp only [following] at came
    split at came
    next pending =>
      split at came
      next rest t ran =>
        cases came
        exact .advance pending (.inl ran)
      next what t ran =>
        cases came
        exact .advance pending (.inr ⟨rfl, what, ran⟩)
      next => cases came
    next => cases came

section
variable {B : Type} (own : S → Multiset B) (held : C → Option B)

/-- What the state owns together with the calls under way. -/
def total (config : Config S C) : Multiset B :=
  own config.shared + config.calls.filterMap held

/-- What the state owns together with one call. -/
def share (s : S) (call : Option C) : Multiset B :=
  own s + ((call.bind held).toList : Multiset B)

omit [DecidableEq C] in
theorem total_cons (s : S) (call : C) (calls : Multiset C) :
    total own held ⟨s, call ::ₘ calls⟩ = share own held s (some call) + calls.filterMap held := by
  unfold total share
  rw [add_assoc]
  cases holds : held call with
  | none => simp [holds]
  | some b => simp [Multiset.filterMap_cons_some held call calls holds, holds]

omit [DecidableEq C] in
theorem total_resume (s : S) (rest : Option C) (others : Multiset C) :
    total own held ⟨s, resume rest others⟩ = share own held s rest + others.filterMap held := by
  cases rest with
  | none => simp [resume, total, share]
  | some call => exact total_cons own held s call others

theorem total_pending (s : S) {call : C} {calls : Multiset C} (pending : call ∈ calls) :
    total own held ⟨s, calls⟩ =
      share own held s (some call) + (calls.erase call).filterMap held := by
  rw [← total_cons, Multiset.cons_erase pending]

omit [DecidableEq C] in
theorem share_none_le (s : S) (call : Option C) : share own held s none ≤ share own held s call :=
  add_le_add (le_refl _) (Multiset.zero_le _)

variable {own held}

omit [DecidableEq C] in
theorem mem_total {config : Config S C} {call : C} {b : B} (pending : call ∈ config.calls)
    (holds : held call = some b) : b ∈ total own held config :=
  Multiset.mem_add.mpr (.inr ((Multiset.mem_filterMap held _).mpr ⟨call, pending, holds⟩))

end

end Foundation.Interleaving
