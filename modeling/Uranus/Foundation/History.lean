import Uranus.Foundation.Program

/-! Programs beside a history of events. The history is for those who reason about
the program: what it records changes nothing, so a program that records is the
plain one once the history is forgotten. -/
namespace Foundation

structure Observed (S E : Type) where
  state : S
  history : List E

namespace Program
variable {S E A B : Type}

/-- A program that records nothing. -/
def observe (program : Program S A) : Program (Observed S E) A := fun w =>
  match program w.state with
  | .ok value s => .ok value { w with state := s }
  | .error fault s => .error fault { w with state := s }

def note (event : E) : Program (Observed S E) Unit :=
  modify fun w => { w with history := w.history ++ [event] }

def forget : EStateM.Result Fault (Observed S E) A → EStateM.Result Fault S A
  | .ok value w => .ok value w.state
  | .error fault w => .error fault w.state

/-- Without its history the program is the plain one. -/
def Erases (program : Program (Observed S E) A) (plain : Program S A) : Prop :=
  ∀ w, forget (program w) = plain w.state

section
variable {w : Observed S E} {program : Program S A} {value : A} {fault : Fault} {s : S}

theorem observe_ok (ran : program w.state = .ok value s) :
    observe program w = .ok value { w with state := s } := by
  simp only [observe, ran]

theorem observe_error (failed : program w.state = .error fault s) :
    observe program w = .error fault { w with state := s } := by
  simp only [observe, failed]

@[simp] theorem note_bind (event : E) (next : Unit → Program (Observed S E) B) :
    (note event >>= next) w = next () { w with history := w.history ++ [event] } := rfl

end

/-- What is only observed leaves the history alone. -/
theorem Ends.of_observe {program : Program S A} {finish : A → B} {w v : Observed S E}
    (ends : Ends (Program.observe program >>= fun value => pure (finish value)) w v) :
    Ends program w.state v.state ∧ v.history = w.history := by
  cases ran : program w.state with
  | ok value s =>
    have same := ends.of_ok (bind_ok (observe_ok ran) _)
    subst same
    exact ⟨.inl ⟨value, ran⟩, rfl⟩
  | error fault s =>
    have failed := bind_error (observe_error (w := w) ran) fun value => pure (finish value)
    obtain ⟨what, rfl⟩ := ends.of_fault failed
    cases ends.of_exception failed
    exact ⟨.inr ⟨what, ran⟩, rfl⟩

theorem Erases.observe (program : Program S A) :
    Erases (observe program : Program (Observed S E) A) program := by
  intro w
  cases ran : program w.state with
  | ok value s => rw [observe_ok ran, forget]
  | error fault s => rw [observe_error ran, forget]

theorem Erases.pure (value : A) :
    Erases (pure value : Program (Observed S E) A) (pure value) := fun _ => rfl

theorem Erases.bind {program : Program (Observed S E) A} {plain : Program S A}
    {next : A → Program (Observed S E) B} {plainNext : A → Program S B}
    (first : Erases program plain) (rest : ∀ value, Erases (next value) (plainNext value)) :
    Erases (program >>= next) (plain >>= plainNext) := by
  intro w
  have before := first w
  cases ran : program w with
  | ok value t =>
    rw [ran, forget] at before
    rw [bind_ok ran, bind_ok before.symm]
    exact rest value t
  | error fault t =>
    rw [ran, forget] at before
    rw [bind_error ran, bind_error before.symm, forget]

/-- What comes after the end of the plain program only returns its value. -/
theorem Erases.followed {program : Program (Observed S E) A} {plain : Program S A}
    {next : A → Program (Observed S E) A} (first : Erases program plain)
    (rest : ∀ value, Erases (next value) (Pure.pure value)) : Erases (program >>= next) plain := by
  rw [← bind_pure plain]
  exact first.bind rest

/-- An event on the way changes nothing. -/
theorem Erases.note {event : E} {next : Unit → Program (Observed S E) B} {plain : Program S B}
    (rest : Erases (next ()) plain) : Erases (Program.note event >>= next) plain :=
  fun w => rest { w with history := w.history ++ [event] }

theorem Erases.ite {fails : Prop} [Decidable fails] {program other : Program (Observed S E) A}
    {plain plainOther : Program S A} (first : Erases program plain)
    (second : Erases other plainOther) :
    Erases (if fails then program else other) (if fails then plain else plainOther) := by
  split
  · exact first
  · exact second

end Program
end Foundation
