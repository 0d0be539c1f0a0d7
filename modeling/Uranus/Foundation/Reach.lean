import Uranus.Foundation.Path

/-! What can come: a state is within reach of another one if a run of allowed
labels leads there. Reach is carried along a simulation, and so are runs. -/
namespace Foundation.Transition
variable {S A S' A' : Type*} {step : S → A → S → Prop} {step' : S' → A' → S' → Prop}
  {ok : A → Prop} {ok' : A' → Prop} {s t u : S}

/-- A run of allowed labels leads from one state to the other. -/
def Reach (step : S → A → S → Prop) (ok : A → Prop) (s t : S) : Prop :=
  ∃ path, Path step s path ∧ Every (fun _ a => ok a) s path ∧ last s path = t

theorem Reach.refl (s : S) : Reach step ok s s := ⟨[], trivial, trivial, rfl⟩

theorem Reach.single {a : A} (allowed : ok a) (moved : step s a t) : Reach step ok s t :=
  ⟨[(a, t)], ⟨moved, trivial⟩, ⟨allowed, trivial⟩, rfl⟩

theorem Reach.trans (first : Reach step ok s t) (second : Reach step ok t u) :
    Reach step ok s u := by
  obtain ⟨path, run, allowed, rfl⟩ := first
  obtain ⟨onward, run', allowed', rfl⟩ := second
  exact ⟨path ++ onward, path_append.mpr ⟨run, run'⟩, every_append.mpr ⟨allowed, allowed'⟩,
    last_append⟩

/-- What every allowed step keeps holds of all that is within reach. -/
theorem Reach.keeps {P : S → Prop} (keeps : ∀ {s a t}, P s → ok a → step s a t → P t)
    (reach : Reach step ok s t) (holds : P s) : P t := by
  obtain ⟨path, run, allowed, rfl⟩ := reach
  exact (run.always (fun holds allowed moved => keeps holds allowed moved) holds allowed).last

/-- Steps that another system can follow lead it along. -/
theorem Reach.follow {R : S → S' → Prop}
    (follows : ∀ {s a t s'}, R s s' → ok a → step s a t → ∃ t', Reach step' ok' s' t' ∧ R t t')
    {s' : S'} (reach : Reach step ok s t) (related : R s s') :
    ∃ t', Reach step' ok' s' t' ∧ R t t' := by
  obtain ⟨path, run, allowed, rfl⟩ := reach
  induction path generalizing s s' with
  | nil => exact ⟨s', .refl s', related⟩
  | cons entry rest ih =>
    obtain ⟨t', first, related⟩ := follows related allowed.1 run.1
    obtain ⟨u', second, related⟩ := ih related run.2 allowed.2
    exact ⟨u', first.trans second, related⟩

/-- A system that can match every step can match every run, state by state. -/
theorem Path.matched {step' : S' → A → S' → Prop} {R : S → S' → Prop}
    (follows : ∀ {s a t s'}, R s s' → step s a t → ∃ t', step' s' a t' ∧ R t t')
    {path : List (A × S)} {s' : S'} (run : Path step s path) (related : R s s') :
    ∃ shadow, Path step' s' shadow ∧
      List.Forall₂ (fun entry entry' => entry.1 = entry'.1 ∧ R entry.2 entry'.2) path shadow := by
  induction path generalizing s s' with
  | nil => exact ⟨[], trivial, .nil⟩
  | cons entry rest ih =>
    obtain ⟨t', moved, related⟩ := follows related run.1
    obtain ⟨shadow, run', matched⟩ := ih run.2 related
    exact ⟨(entry.1, t') :: shadow, ⟨moved, run'⟩, .cons ⟨rfl, related⟩ matched⟩

/-- Where a measure is not zero, something within reach has less of it; then something
has none. -/
theorem Reach.exhaust {P : S → Prop} (measure : S → Nat)
    (less : ∀ {s}, P s → measure s ≠ 0 → ∃ t, Reach step ok s t ∧ P t ∧ measure t < measure s)
    (holds : P s) : ∃ t, Reach step ok s t ∧ P t ∧ measure t = 0 := by
  generalize bound : measure s = n
  induction n using Nat.strongRecOn generalizing s with
  | ind n ih =>
    by_cases zero : measure s = 0
    · exact ⟨s, .refl s, holds, zero⟩
    · obtain ⟨t, first, holds, smaller⟩ := less holds zero
      obtain ⟨u, second, holds, none⟩ := ih (measure t) (by omega) holds rfl
      exact ⟨u, first.trans second, holds, none⟩

end Foundation.Transition
