import Mathlib.Data.List.Basic

/-! Finite runs of a labelled transition relation, recorded step by step. The
relation may be nondeterministic, and a state without successors ends a run.
A run records every state it visits, so a property of a whole run and a
condition on each of its steps are both statements about one list. -/
namespace Foundation.Transition
variable {S A : Type*} {step : S → A → S → Prop} {s t : S}

/-- Each entry of a run is the label of a step and the state it led to. -/
def Path (step : S → A → S → Prop) : S → List (A × S) → Prop
  | _, [] => True
  | s, (a, t) :: rest => step s a t ∧ Path step t rest

def last : S → List (A × S) → S
  | s, [] => s
  | _, (_, t) :: rest => last t rest

/-- `P` holds in the first state of the run and in every state it visits. -/
def Always (P : S → Prop) : S → List (A × S) → Prop
  | s, [] => P s
  | s, (_, t) :: rest => P s ∧ Always P t rest

/-- Every step of the run is taken from a state in which its label meets `ok`. -/
def Every (ok : S → A → Prop) : S → List (A × S) → Prop
  | _, [] => True
  | s, (a, t) :: rest => ok s a ∧ Every ok t rest

/-- `P` holds from the first state of the run up to a step that meets `ends`. -/
def Until (P : S → Prop) (ends : S → A → Prop) : S → List (A × S) → Prop
  | s, [] => P s
  | s, (a, t) :: rest => P s ∧ (ends s a ∨ Until P ends t rest)

/-- Each step of the run is related to what comes after it. -/
def Onward (R : S → A → S → List (A × S) → Prop) : S → List (A × S) → Prop
  | _, [] => True
  | s, (a, t) :: rest => R s a t rest ∧ Onward R t rest

instance Always.decidable {P : S → Prop} [DecidablePred P] :
    (s : S) → (path : List (A × S)) → Decidable (Always P s path)
  | s, [] => inferInstanceAs (Decidable (P s))
  | s, (_, t) :: rest =>
    have := Always.decidable (P := P) t rest
    inferInstanceAs (Decidable (P s ∧ Always P t rest))

instance Every.decidable {ok : S → A → Prop} [∀ s a, Decidable (ok s a)] :
    (s : S) → (path : List (A × S)) → Decidable (Every ok s path)
  | _, [] => .isTrue trivial
  | s, (a, t) :: rest =>
    have : Decidable (Every ok t rest) := Every.decidable t rest
    inferInstanceAs (Decidable (ok s a ∧ Every ok t rest))

theorem Always.first {P : S → Prop} {path : List (A × S)} (h : Always P s path) : P s := by
  cases path with
  | nil => exact h
  | cons entry rest => exact h.1

theorem Always.last {P : S → Prop} {path : List (A × S)} (h : Always P s path) :
    P (last s path) := by
  induction path generalizing s with
  | nil => exact h
  | cons entry rest ih => exact ih h.2

theorem Always.imp {P Q : S → Prop} (weaken : ∀ s, P s → Q s) {path : List (A × S)}
    (h : Always P s path) : Always Q s path := by
  induction path generalizing s with
  | nil => exact weaken s h
  | cons entry rest ih => exact ⟨weaken s h.1, ih h.2⟩

theorem path_append {first second : List (A × S)} : Path step s (first ++ second) ↔
    Path step s first ∧ Path step (last s first) second := by
  induction first generalizing s with
  | nil => exact ⟨fun run => ⟨trivial, run⟩, fun runs => runs.2⟩
  | cons entry rest ih => exact (and_congr_right fun _ => ih).trans and_assoc.symm

theorem last_append {first second : List (A × S)} :
    last s (first ++ second) = last (last s first) second := by
  induction first generalizing s with
  | nil => rfl
  | cons entry rest ih => exact ih

theorem always_append {P : S → Prop} {first second : List (A × S)} :
    Always P s (first ++ second) ↔ Always P s first ∧ Always P (last s first) second := by
  induction first generalizing s with
  | nil => exact ⟨fun always => ⟨always.first, always⟩, fun both => both.2⟩
  | cons entry rest ih => exact (and_congr_right fun _ => ih).trans and_assoc.symm

theorem every_append {ok : S → A → Prop} {first second : List (A × S)} :
    Every ok s (first ++ second) ↔ Every ok s first ∧ Every ok (last s first) second := by
  induction first generalizing s with
  | nil => exact ⟨fun every => ⟨trivial, every⟩, fun both => both.2⟩
  | cons entry rest ih => exact (and_congr_right fun _ => ih).trans and_assoc.symm

/-- The run of a transition function, as far as it can follow the labels. -/
def trace (next : S → A → Option S) : S → List A → List (A × S)
  | _, [] => []
  | s, a :: rest =>
    match next s a with
    | none => []
    | some t => (a, t) :: trace next t rest

theorem trace_path {next : S → A → Option S} (sound : ∀ {s a t}, next s a = some t → step s a t)
    (labels : List A) : Path step s (trace next s labels) := by
  induction labels generalizing s with
  | nil => trivial
  | cons a rest ih =>
    unfold trace
    split
    · trivial
    next t moved => exact ⟨sound moved, ih⟩

/-- Steps taken in states that satisfy an invariant have what it gives them. -/
theorem Path.steps {P : S → Prop} {R : S → A → S → Prop}
    (gives : ∀ {s a t}, P s → step s a t → R s a t) {path : List (A × S)}
    (run : Path step s path) (always : Always P s path) : Path R s path := by
  induction path generalizing s with
  | nil => trivial
  | cons entry rest ih => exact ⟨gives always.1 run.1, ih run.2 always.2⟩

/-- An invariant kept by every step that meets `ok` holds along each run whose
steps all meet it. -/
theorem Path.always {P : S → Prop} {ok : S → A → Prop}
    (keeps : ∀ {s a t}, P s → ok s a → step s a t → P t) {path : List (A × S)}
    (run : Path step s path) (initial : P s) (guarded : Every ok s path) : Always P s path := by
  induction path generalizing s with
  | nil => exact initial
  | cons entry rest ih =>
    exact ⟨initial, ih run.2 (keeps initial guarded.1 run.1) guarded.2⟩

/-- The steps of a run through states with `Q` lead to states with `Q`. -/
theorem Path.through {Q : S → Prop} {path : List (A × S)} (run : Path step s path)
    (through : Always Q s path) : Path (fun s a t => step s a t ∧ Q t) s path := by
  induction path generalizing s with
  | nil => trivial
  | cons entry rest ih => exact ⟨⟨run.1, through.2.first⟩, ih run.2 through.2⟩

/-- The steps of a run that all meet `ok`, each with what it meets. -/
theorem Path.guarded {ok : S → A → Prop} {path : List (A × S)} (run : Path step s path)
    (guarded : Every ok s path) : Path (fun s a t => ok s a ∧ step s a t) s path := by
  induction path generalizing s with
  | nil => trivial
  | cons entry rest ih => exact ⟨⟨guarded.1, run.1⟩, ih run.2 guarded.2⟩

/-- When a step ends in `P` exactly if it starts there and meets `ok`, so does a
whole run. The auxiliary invariant `J` is what every run satisfies. -/
theorem Path.last_iff_every {J P : S → Prop} {ok : S → A → Prop}
    (auxiliary : ∀ {s a t}, J s → step s a t → J t)
    (exact : ∀ {s a t}, J s → step s a t → (P t ↔ P s ∧ ok s a)) {path : List (A × S)}
    (run : Path step s path) (base : J s) : P (last s path) ↔ P s ∧ Every ok s path := by
  induction path generalizing s with
  | nil => exact ⟨fun holds => ⟨holds, trivial⟩, fun holds => holds.1⟩
  | cons entry rest ih =>
    rw [last, ih run.2 (auxiliary base run.1), exact base run.1, and_assoc]
    rfl

/-- A run whose steps are all related as `R` asks, where that is what `ok` says. -/
theorem Path.steps_iff_every {J : S → Prop} {R : S → A → S → Prop} {ok : S → A → Prop}
    (auxiliary : ∀ {s a t}, J s → step s a t → J t)
    (exact : ∀ {s a t}, J s → step s a t → (R s a t ↔ ok s a)) {path : List (A × S)}
    (run : Path step s path) (base : J s) : Path R s path ↔ Every ok s path := by
  induction path generalizing s with
  | nil => exact Iff.rfl
  | cons entry rest ih =>
    exact and_congr (exact base run.1) (ih run.2 (auxiliary base run.1))

theorem every_true (path : List (A × S)) : Every (fun _ _ => True) s path := by
  induction path generalizing s with
  | nil => trivial
  | cons entry rest ih => exact ⟨trivial, ih⟩

/-- The unconditional form, for an invariant that every step keeps. -/
theorem Path.invariant {P : S → Prop} (keeps : ∀ {s a t}, P s → step s a t → P t)
    {path : List (A × S)} (run : Path step s path) (initial : P s) : Always P s path := by
  apply run.always _ initial (every_true path)
  intro s a t holds _ moved
  exact keeps holds moved

/-- An invariant that a step keeps where it leads to a state with `Q` holds along
each run through such states. -/
theorem Path.always_through {P Q : S → Prop} (keeps : ∀ {s a t}, P s → step s a t → Q t → P t)
    {path : List (A × S)} (run : Path step s path) (initial : P s) (through : Always Q s path) :
    Always P s path := by
  induction path generalizing s with
  | nil => exact initial
  | cons entry rest ih =>
    exact ⟨initial, ih run.2 (keeps initial run.1 through.2.first) through.2⟩

/-- Where a step that misses `ok` breaks `P`, a run that keeps `P` takes no such
step. The auxiliary invariant `J` is what every run satisfies. -/
theorem Path.every_of_always {J P : S → Prop} {ok : S → A → Prop}
    (auxiliary : ∀ {s a t}, J s → step s a t → J t)
    (breaks : ∀ {s a t}, J s → P s → ¬ ok s a → step s a t → ¬ P t)
    {path : List (A × S)} (run : Path step s path) (base : J s) (always : Always P s path) :
    Every ok s path := by
  induction path generalizing s with
  | nil => trivial
  | cons entry rest ih =>
    constructor
    · by_contra violated
      exact breaks base always.1 violated run.1 always.2.first
    · exact ih run.2 (auxiliary base run.1) always.2

/-- When `ok` is exactly what a step needs to keep `P`, a run satisfies `P`
throughout if and only if all its steps meet `ok`. -/
theorem Path.always_iff_every {J P : S → Prop} {ok : S → A → Prop}
    (auxiliary : ∀ {s a t}, J s → step s a t → J t)
    (keeps : ∀ {s a t}, J s → P s → ok s a → step s a t → P t)
    (breaks : ∀ {s a t}, J s → P s → ¬ ok s a → step s a t → ¬ P t)
    {path : List (A × S)} (run : Path step s path) (base : J s) (initial : P s) :
    Always P s path ↔ Every ok s path := by
  constructor
  · exact run.every_of_always (fun base moved => auxiliary base moved) breaks base
  · intro guarded
    have both : Always (fun s => J s ∧ P s) s path := by
      apply run.always _ ⟨base, initial⟩ guarded
      intro s a t holds meets moved
      exact ⟨auxiliary holds.1 moved, keeps holds.1 holds.2 meets moved⟩
    exact both.imp fun _ h => h.2

theorem Until.imp {P Q : S → Prop} {ends : S → A → Prop} (weaken : ∀ s, P s → Q s)
    {path : List (A × S)} (h : Until P ends s path) : Until Q ends s path := by
  induction path generalizing s with
  | nil => exact weaken s h
  | cons entry rest ih => exact ⟨weaken s h.1, h.2.imp_right ih⟩

/-- What every step keeps that does not meet `ends` holds until such a step. -/
theorem Path.holds_until {P : S → Prop} {ends : S → A → Prop}
    (keeps : ∀ {s a t}, P s → ¬ ends s a → step s a t → P t) {path : List (A × S)}
    (run : Path step s path) (initial : P s) : Until P ends s path := by
  induction path generalizing s with
  | nil => exact initial
  | cons entry rest ih =>
    refine ⟨initial, ?_⟩
    by_cases met : ends s entry.1
    · exact .inl met
    · exact .inr (ih run.2 (keeps initial met run.1))

/-- What a step in `P` gives for every run after it, the steps of a run have. -/
theorem Path.onward {P : S → Prop} {R : S → A → S → List (A × S) → Prop}
    (gives : ∀ {s a t rest}, P s → step s a t → Path step t rest → R s a t rest)
    {path : List (A × S)} (run : Path step s path) (always : Always P s path) :
    Onward R s path := by
  induction path generalizing s with
  | nil => trivial
  | cons entry rest ih => exact ⟨gives always.1 run.1 run.2, ih run.2 always.2⟩

end Foundation.Transition
