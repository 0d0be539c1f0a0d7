import Mathlib.Logic.Function.Basic

/-! Two partial maps that record one relation, each from its own end. While an
update has reached one of them only, the pairs under way are known to that map
alone; the maps are mutually inverse again when no pair is under way. -/
namespace Foundation
variable {A B : Type*} {f : A → Option B} {g : B → Option A} {P Q P' Q' : A → B → Prop}

def Inverse (f : A → Option B) (g : B → Option A) : Prop :=
  ∀ a b, f a = some b ↔ g b = some a

/-- The pairs that `f` alone knows are in `P`, and those of `g` alone in `Q`. -/
structure InverseUpTo (P Q : A → B → Prop) (f : A → Option B) (g : B → Option A) : Prop where
  forward : ∀ {a b}, f a = some b → g b = some a ∨ P a b
  backward : ∀ {a b}, g b = some a → f a = some b ∨ Q a b

theorem Inverse.injective (inverse : Inverse f g) {a a' : A} {b : B} (first : f a = some b)
    (second : f a' = some b) : a = a' :=
  Option.some.inj (((inverse a b).mp first).symm.trans ((inverse a' b).mp second))

theorem Inverse.symm (inverse : Inverse f g) : Inverse g f := fun b a => (inverse a b).symm

theorem Inverse.upTo (inverse : Inverse f g) : InverseUpTo P Q f g where
  forward known := .inl ((inverse _ _).mp known)
  backward known := .inl ((inverse _ _).mpr known)

namespace InverseUpTo

theorem inverse (upTo : InverseUpTo P Q f g) (left : ∀ a b, ¬ P a b) (right : ∀ a b, ¬ Q a b) :
    Inverse f g := by
  intro a b
  constructor
  · intro known
    exact (upTo.forward known).resolve_right (left a b)
  · intro known
    exact (upTo.backward known).resolve_right (right a b)

theorem weaken (upTo : InverseUpTo P Q f g) (left : ∀ {a b}, P a b → P' a b)
    (right : ∀ {a b}, g b = some a → Q a b → Q' a b) : InverseUpTo P' Q' f g where
  forward known := (upTo.forward known).imp_right left
  backward known := (upTo.backward known).imp_right (right known)

theorem swap (upTo : InverseUpTo P Q f g) :
    InverseUpTo (fun b a => Q a b) (fun b a => P a b) g f where
  forward known := upTo.backward known
  backward known := upTo.forward known

/-- A new pair enters both maps at once. -/
theorem insert [DecidableEq A] [DecidableEq B] (upTo : InverseUpTo P Q f g) {a : A} {b : B}
    (fresh : f a = none) (unused : g b = none) :
    InverseUpTo P Q (Function.update f a (some b)) (Function.update g b (some a)) := by
  constructor
  · intro a' b' known
    by_cases same : a' = a
    · subst same
      rw [Function.update_self] at known
      cases known
      exact .inl (Function.update_self ..)
    · rw [Function.update_of_ne same] at known
      rcases upTo.forward known with back | pending
      · have other : b' ≠ b := by
          intro same
          rw [same, unused] at back
          cases back
        exact .inl ((Function.update_of_ne other _ _).trans back)
      · exact .inr pending
  · intro a' b' known
    by_cases same : b' = b
    · subst same
      rw [Function.update_self] at known
      cases known
      exact .inl (Function.update_self ..)
    · rw [Function.update_of_ne same] at known
      rcases upTo.backward known with back | pending
      · have other : a' ≠ a := by
          intro same
          rw [same, fresh] at back
          cases back
        exact .inl ((Function.update_of_ne other _ _).trans back)
      · exact .inr pending

/-- `a` leaves the first map. Whatever the second still holds for it is to be
under way there; what was under way about `a` in the first map is settled. -/
theorem forget [DecidableEq A] (upTo : InverseUpTo P Q f g) {a : A}
    (left : ∀ {a' b}, a' ≠ a → P a' b → P' a' b) (right : ∀ {a' b}, Q a' b → Q' a' b)
    (held : ∀ {b}, g b = some a → Q' a b) : InverseUpTo P' Q' (Function.update f a none) g := by
  constructor
  · intro a' b known
    by_cases same : a' = a
    · subst same
      rw [Function.update_self] at known
      cases known
    · rw [Function.update_of_ne same] at known
      exact (upTo.forward known).imp_right (left same)
  · intro a' b known
    by_cases same : a' = a
    · subst same
      exact .inr (held known)
    · rcases upTo.backward known with forth | pending
      · exact .inl ((Function.update_of_ne same _ _).trans forth)
      · exact .inr (right pending)

/-- `b` leaves the second map. -/
theorem forgetBack [DecidableEq B] (upTo : InverseUpTo P Q f g) {b : B}
    (left : ∀ {a b'}, P a b' → P' a b') (right : ∀ {a b'}, b' ≠ b → Q a b' → Q' a b')
    (held : ∀ {a}, f a = some b → P' a b) : InverseUpTo P' Q' f (Function.update g b none) := by
  have turned : InverseUpTo (fun b a => Q' a b) (fun b a => P' a b) (Function.update g b none) f :=
    upTo.swap.forget right left held
  exact turned.swap

end InverseUpTo
end Foundation
