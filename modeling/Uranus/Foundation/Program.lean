import Mathlib.Order.Defs.Unbundled

/-! Imperative programs over an explicit state, in Lean's own state-and-error
monad: a thrown exception keeps the state reached so far. Besides exceptions a
program may end in ways no caller can catch. Locks are recorded by the modes in
which the running call holds them. -/
namespace Foundation

inductive Fault where
  | exception (what : String)
  | selfLock
  | undefined
  | terminated
deriving DecidableEq, Repr

abbrev Program (S A : Type) := EStateM Fault S A

inductive LockMode where
  | shared
  | exclusive
deriving DecidableEq, Repr

/-- What becomes of a request for a lock that the caller itself holds: it is
`granted` where acquisition is assumed to succeed, and never returns on a
non-recursive lock. -/
inductive Discipline where
  | granted
  | nonRecursive
deriving DecidableEq, Repr

namespace Program
variable {S A B : Type}

/-- A call that came back to its caller, by return or by exception. -/
def Ends (program : Program S A) (s t : S) : Prop :=
  (∃ value, program s = .ok value t) ∨ ∃ what, program s = .error (.exception what) t

theorem Ends.of_ok {program : Program S A} {s t u : S} {value : A} (ends : Ends program s t)
    (ran : program s = .ok value u) : t = u := by
  rcases ends with ⟨other, returned⟩ | ⟨what, threw⟩
  · cases ran.symm.trans returned
    rfl
  · cases ran.symm.trans threw

theorem Ends.of_exception {program : Program S A} {s t u : S} {what : String}
    (ends : Ends program s t) (ran : program s = .error (.exception what) u) : t = u := by
  rcases ends with ⟨value, returned⟩ | ⟨other, threw⟩
  · cases ran.symm.trans returned
  · cases ran.symm.trans threw
    rfl

theorem Ends.congr {program other : Program S A} {s t u : S} (ends : Ends program s t)
    (same : program s = other u) : Ends other u t := by
  unfold Ends at ends ⊢
  rwa [← same]

/-- What is no exception does not come back. -/
theorem Ends.of_fault {program : Program S A} {s t u : S} {fault : Fault}
    (ends : Ends program s t) (ran : program s = .error fault u) :
    ∃ what, fault = .exception what := by
  rcases ends with ⟨value, returned⟩ | ⟨other, threw⟩
  · cases ran.symm.trans returned
  · cases ran.symm.trans threw
    exact ⟨other, rfl⟩

/-- The state in which a call comes back, if it does. -/
def after (program : Program S A) (s : S) : Option S :=
  match program s with
  | .ok _ t => some t
  | .error (.exception _) t => some t
  | .error _ _ => none

theorem ends_of_after {program : Program S A} {s t : S} (came : after program s = some t) :
    Ends program s t := by
  unfold after at came
  split at came
  next value u ran =>
    cases came
    exact .inl ⟨value, ran⟩
  next what u ran =>
    cases came
    exact .inr ⟨what, ran⟩
  next => cases came

/-- What leaving a scope does to a result: the destructor `leave` runs on a
return and on an exception that passes through. -/
def close (leave : S → S) : EStateM.Result Fault S A → EStateM.Result Fault S A
  | .ok value s => .ok value (leave s)
  | .error (.exception what) s => .error (.exception what) (leave s)
  | .error fault s => .error fault s

/-- Runs `body` in a scope that `enter` opens and `leave` closes. -/
def inScope (enter : Program S Unit) (leave : S → S) (body : Program S A) : Program S A :=
  fun s =>
    match enter s with
    | .ok _ s => close leave (body s)
    | .error fault s => .error fault s

/-- A `noexcept` function: an exception that reaches its boundary ends the process. -/
def noexcept (body : Program S A) : Program S A := fun s =>
  match body s with
  | .error (.exception _) s => .error .terminated s
  | result => result

/-- Runs `handler` on an exception of `body`. -/
def recover (body handler : Program S A) : Program S A := fun s =>
  match body s with
  | .error (.exception _) t => handler t
  | result => result

/-- A check at the head of a function: it throws when `fails` holds. -/
def throwIf (fails : Prop) [Decidable fails] (what : String) : Program S Unit :=
  if fails then throw (.exception what) else pure ()

@[simp] theorem close_ok (leave : S → S) (value : A) (s : S) :
    close leave (.ok value s) = .ok value (leave s) := rfl

@[simp] theorem close_exception (leave : S → S) (what : String) (s : S) :
    close leave (.error (.exception what) s : EStateM.Result Fault S A) =
      .error (.exception what) (leave s) := rfl

@[simp] theorem close_selfLock (leave : S → S) (s : S) :
    close leave (.error .selfLock s : EStateM.Result Fault S A) = .error .selfLock s := rfl

@[simp] theorem close_undefined (leave : S → S) (s : S) :
    close leave (.error .undefined s : EStateM.Result Fault S A) = .error .undefined s := rfl

theorem inScope_ok {enter : Program S Unit} {leave : S → S} {body : Program S A} {s t : S}
    (entered : enter s = .ok () t) : inScope enter leave body s = close leave (body t) := by
  simp only [inScope, entered]

theorem inScope_error {enter : Program S Unit} {leave : S → S} {body : Program S A} {s t : S}
    {fault : Fault} (refused : enter s = .error fault t) :
    inScope enter leave body s = .error fault t := by
  simp only [inScope, refused]

theorem bind_apply (program : Program S A) (next : A → Program S B) (s : S) :
    (program >>= next) s = match program s with
      | .ok value t => next value t
      | .error fault t => .error fault t := by
  change EStateM.bind program next s = _
  unfold EStateM.bind
  cases program s <;> rfl

theorem bind_ok {program : Program S A} {s t : S} {value : A} (ran : program s = .ok value t)
    (next : A → Program S B) : (program >>= next) s = next value t := by
  rw [bind_apply, ran]

theorem bind_error {program : Program S A} {s t : S} {fault : Fault}
    (failed : program s = .error fault t) (next : A → Program S B) :
    (program >>= next) s = .error fault t := by
  rw [bind_apply, failed]

theorem bind_eq_ok {program : Program S A} {next : A → Program S B} {s t : S} {value : B}
    (ran : (program >>= next) s = .ok value t) :
    ∃ mid u, program s = .ok mid u ∧ next mid u = .ok value t := by
  rw [bind_apply] at ran
  cases first : program s with
  | ok mid u =>
    rw [first] at ran
    exact ⟨mid, u, rfl, ran⟩
  | error fault u =>
    rw [first] at ran
    cases ran

/-- A sequence comes back from its second part, or by an exception from its first. -/
theorem Ends.of_bind {program : Program S A} {next : A → Program S B} {s t : S}
    (ends : Ends (program >>= next) s t) :
    (∃ value u, program s = .ok value u ∧ Ends (next value) u t) ∨
      ∃ what, program s = .error (.exception what) t := by
  unfold Ends at ends
  rw [bind_apply] at ends
  cases first : program s with
  | ok value u =>
    rw [first] at ends
    exact .inl ⟨value, u, rfl, ends⟩
  | error fault u =>
    rw [first] at ends
    rcases ends with ⟨value, wrong⟩ | ⟨what, threw⟩
    · cases wrong
    · cases threw
      exact .inr ⟨what, rfl⟩

/-- A `noexcept` function comes back only by return. -/
theorem Ends.of_noexcept {body : Program S A} {next : A → Program S B} {s t : S}
    (ends : Ends (noexcept body >>= next) s t) :
    ∃ value u, body s = .ok value u ∧ Ends (next value) u t := by
  rcases ends.of_bind with ⟨value, u, returned, ends⟩ | ⟨what, threw⟩
  · refine ⟨value, u, ?_, ends⟩
    unfold noexcept at returned
    split at returned
    · cases returned
    · exact returned
  · unfold noexcept at threw
    split at threw
    · cases threw
    · next kept => exact (kept what t threw).elim

@[simp] theorem pure_apply (value : A) (s : S) : (pure value : Program S A) s = .ok value s := rfl

@[simp] theorem throw_apply (fault : Fault) (s : S) :
    (throw fault : Program S A) s = .error fault s := rfl

@[simp] theorem get_apply (s : S) : (get : Program S S) s = .ok s s := rfl

@[simp] theorem modify_apply (update : S → S) (s : S) :
    (modify update : Program S PUnit) s = .ok ⟨⟩ (update s) := rfl

@[simp] theorem throw_bind (fault : Fault) (next : A → Program S B) :
    ((throw fault : Program S A) >>= next) = throw fault := rfl

@[simp] theorem get_bind (next : S → Program S B) (s : S) : (get >>= next) s = next s s := rfl

@[simp] theorem modify_bind (update : S → S) (next : PUnit → Program S B) (s : S) :
    (modify update >>= next) s = next ⟨⟩ (update s) := rfl

theorem throwIf_throw_bind {fails : Prop} [Decidable fails] (failed : fails) (what : String)
    (next : Unit → Program S B) : (throwIf fails what >>= next) = throw (.exception what) := by
  simp [throwIf, failed]

theorem throwIf_bind {fails : Prop} [Decidable fails] (passed : ¬ fails) (what : String)
    (next : Unit → Program S B) : (throwIf fails what >>= next) = next () := by
  rw [throwIf, if_neg passed]
  rfl

/-- Wherever the program comes back, the states before and after are related. -/
def Within (R : S → S → Prop) (program : Program S A) : Prop :=
  ∀ s t, Ends program s t → R s t

section
variable {R : S → S → Prop} [IsPreorder S R]

theorem Within.pure (value : A) : Within R (pure value : Program S A) := by
  intro s t ends
  cases ends.of_ok (u := s) rfl
  exact refl_of R s

theorem Within.throw (fault : Fault) : Within R (throw fault : Program S A) := by
  intro s t ends
  obtain ⟨what, same⟩ := ends.of_fault (u := s) rfl
  subst same
  cases ends.of_exception (u := s) rfl
  exact refl_of R s

theorem Within.get : Within R (get : Program S S) := by
  intro s t ends
  cases ends.of_ok (u := s) rfl
  exact refl_of R s

omit [IsPreorder S R] in
theorem Within.modify {update : S → S} (moves : ∀ s, R s (update s)) :
    Within R (modify update : Program S PUnit) := by
  intro s t ends
  cases ends.of_ok (u := update s) rfl
  exact moves s

theorem Within.bind {program : Program S A} {next : A → Program S B}
    (first : Within R program) (rest : ∀ value, Within R (next value)) :
    Within R (program >>= next) := by
  intro s t ends
  rcases ends.of_bind with ⟨value, u, returned, ends⟩ | ⟨what, threw⟩
  · exact trans_of R (first s u (.inl ⟨value, returned⟩)) (rest value u t ends)
  · exact first s t (.inr ⟨what, threw⟩)

theorem Within.view (view : S → A) :
    Within R (MonadState.get >>= fun s => Pure.pure (view s) : Program S A) :=
  Within.bind Within.get fun s => Within.pure (view s)

theorem Within.recover {body handler : Program S A} (first : Within R body)
    (second : Within R handler) : Within R (recover body handler) := by
  intro s t ends
  cases ran : body s with
  | ok value u =>
    have same : Program.recover body handler s = body s := by simp only [Program.recover, ran]
    exact first s t (ends.congr same)
  | error fault u =>
    cases fault with
    | exception what =>
      have same : Program.recover body handler s = handler u := by simp only [Program.recover, ran]
      exact trans_of R (first s u (.inr ⟨what, ran⟩)) (second u t (ends.congr same))
    | selfLock | undefined | terminated =>
      have same : Program.recover body handler s = body s := by simp only [Program.recover, ran]
      exact first s t (ends.congr same)

theorem Within.throwIf (fails : Prop) [Decidable fails] (what : String) :
    Within R (throwIf fails what : Program S Unit) := by
  unfold Program.throwIf
  split
  · exact Within.throw _
  · exact Within.pure ()

theorem Within.inScope {enter : Program S Unit} {leave : S → S} {body : Program S A}
    (opens : Within R enter) (closes : ∀ s, R s (leave s)) (inner : Within R body) :
    Within R (inScope enter leave body) := by
  intro s t ends
  cases entered : enter s with
  | error fault u =>
    have ran : Program.inScope enter leave body s = .error fault u := inScope_error entered
    obtain ⟨what, rfl⟩ := ends.of_fault ran
    cases ends.of_exception ran
    exact opens s t (.inr ⟨what, entered⟩)
  | ok value u =>
    have first := opens s u (.inl ⟨value, entered⟩)
    have same : Program.inScope enter leave body s = close leave (body u) := inScope_ok entered
    cases ran : body u with
    | ok value v =>
      cases ends.of_ok (same.trans (by rw [ran, close_ok]))
      exact trans_of R first (trans_of R (inner u v (.inl ⟨value, ran⟩)) (closes v))
    | error fault v =>
      cases fault with
      | exception what =>
        cases ends.of_exception (same.trans (by rw [ran, close_exception]))
        exact trans_of R first (trans_of R (inner u v (.inr ⟨what, ran⟩)) (closes v))
      | selfLock | undefined | terminated =>
        obtain ⟨what, wrong⟩ := ends.of_fault (same.trans (by rw [ran]; rfl))
        cases wrong

omit [IsPreorder S R] in
theorem Within.noexcept {body : Program S A} (inner : Within R body) :
    Within R (noexcept body) := by
  intro s t ends
  have ends : Ends (Program.noexcept body >>= Pure.pure) s t := by rwa [bind_pure]
  obtain ⟨value, u, returned, ends⟩ := ends.of_noexcept
  cases ends.of_ok (pure_apply value u)
  exact inner s t (.inl ⟨value, returned⟩)

/-- A program that leaves the state alone is within every preorder. -/
theorem Within.of_same {program : Program S A} (same : Within Eq program) : Within R program := by
  intro s t ends
  rw [same s t ends]
  exact refl_of R t

end

end Program
end Foundation
