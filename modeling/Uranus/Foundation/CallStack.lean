import Mathlib.Data.List.Basic

/-! Call stacks whose frames hold and request locks, innermost frame first. A
callback is a frame of foreign code, which may call anything. -/
namespace Foundation

/-- What the frames of a program do. `wants` is the lock that a frame requests for itself alone. -/
structure Locking (F L : Type*) where
  callback : F → Prop
  holds : F → List L
  wants : F → Option L

namespace Locking
variable {F L : Type*} {d : Locking F L}

def Idle (d : Locking F L) (f : F) : Prop := d.holds f = [] ∧ d.wants f = none

/-- No callback runs above a frame that holds a lock. -/
def Clear (d : Locking F L) : List F → Prop
  | [] => True
  | f :: below => (d.callback f → ∀ g ∈ below, d.holds g = []) ∧ d.Clear below

/-- No frame requests for itself a lock that the stack holds. -/
def Safe (d : Locking F L) : List F → Prop
  | [] => True
  | f :: below => (∀ lock ∈ d.wants f, ∀ g ∈ f :: below, lock ∉ d.holds g) ∧ d.Safe below

/-- A frame that has called something is idle, or it runs a callback above its locks. -/
def Nested (d : Locking F L) : List F → Prop
  | [] => True
  | f :: below => (∀ g ∈ below.head?, d.Idle g ∨ d.callback f ∧ d.holds g ≠ []) ∧ d.Nested below

instance decidableClear (d : Locking F L) [DecidablePred d.callback] [DecidableEq L] :
    (stack : List F) → Decidable (d.Clear stack)
  | [] => .isTrue trivial
  | f :: below =>
    have := decidableClear d below
    inferInstanceAs (Decidable ((d.callback f → ∀ g ∈ below, d.holds g = []) ∧ d.Clear below))

/-- The turns of a stack in which a frame that holds a lock runs no callback. -/
inductive Turn (d : Locking F L) : List F → List F → Prop where
  | stays {stack : List F} : Turn d stack stack
  | calls {f : F} {stack : List F} (free : ∀ g ∈ stack.head?, d.Idle g) (fresh : d.holds f = []) :
      Turn d stack (f :: stack)
  | moves {f g : F} {below : List F} (before : ¬ d.callback f) (after : ¬ d.callback g)
      (other : ∀ lock ∈ d.wants g, lock ∉ d.holds g) : Turn d (f :: below) (g :: below)
  | returns {f : F} {below : List F} : Turn d (f :: below) below

/-- Where no callback runs above a lock, whatever has called something is idle. -/
theorem Nested.idle {f : F} {below : List F} (nested : d.Nested (f :: below))
    (clear : d.Clear (f :: below)) : ∀ g ∈ below, d.Idle g := by
  induction below generalizing f with
  | nil => exact nofun
  | cons next rest ih =>
    have idle : d.Idle next := by
      rcases nested.1 next rfl with idle | ⟨callback, locked⟩
      · exact idle
      · exact absurd (clear.1 callback next List.mem_cons_self) locked
    intro g member
    cases member with
    | head => exact idle
    | tail _ member => exact ih nested.2 clear.2 g member

/-- A frame that is called finds no lock held below it. -/
theorem Nested.unlocked {stack : List F} (nested : d.Nested stack) (clear : d.Clear stack)
    (free : ∀ g ∈ stack.head?, d.Idle g) : ∀ g ∈ stack, d.holds g = [] := by
  cases stack with
  | nil => exact nofun
  | cons top below =>
    intro g member
    cases member with
    | head => exact (free top rfl).1
    | tail _ member => exact (nested.idle clear g member).1

theorem Turn.nested {stack later : List F} (turn : d.Turn stack later) (nested : d.Nested stack) :
    d.Nested later := by
  cases turn with
  | stays => exact nested
  | calls free fresh => exact ⟨fun g top => .inl (free g top), nested⟩
  | moves before after other =>
    refine ⟨fun g top => ?_, nested.2⟩
    rcases nested.1 g top with idle | ⟨callback, locked⟩
    · exact .inl idle
    · exact absurd callback before
  | returns => exact nested.2

theorem Turn.clear {stack later : List F} (turn : d.Turn stack later) (nested : d.Nested stack)
    (clear : d.Clear stack) : d.Clear later := by
  cases turn with
  | stays => exact clear
  | calls free fresh => exact ⟨fun _ => nested.unlocked clear free, clear⟩
  | moves before after other => exact ⟨fun callback => absurd callback after, clear.2⟩
  | returns => exact clear.2

theorem Turn.safe {stack later : List F} (turn : d.Turn stack later) (nested : d.Nested stack)
    (clear : d.Clear stack) (safe : d.Safe stack) : d.Safe later := by
  cases turn with
  | stays => exact safe
  | calls free fresh =>
    refine ⟨fun lock _ g member => ?_, safe⟩
    have unlocked : d.holds g = [] := by
      cases member with
      | head => exact fresh
      | tail _ member => exact nested.unlocked clear free g member
    rw [unlocked]
    exact List.not_mem_nil
  | moves before after other =>
    refine ⟨fun lock wanted g member => ?_, safe.2⟩
    cases member with
    | head => exact other lock wanted
    | tail _ member =>
      rw [(nested.idle clear g member).1]
      exact List.not_mem_nil
  | returns => exact safe.2

/-- A callback that a frame runs above its locks. -/
theorem nested_callback {f g : F} {below : List F} (callback : d.callback f)
    (locked : d.holds g ≠ []) (nested : d.Nested (g :: below)) : d.Nested (f :: g :: below) :=
  ⟨fun _ top => .inr ⟨callback, Option.mem_some_iff.mp top ▸ locked⟩, nested⟩

theorem callback_not_clear {f g : F} {below : List F} (callback : d.callback f)
    (locked : d.holds g ≠ []) : ¬ d.Clear (f :: g :: below) :=
  fun clear => locked (clear.1 callback g List.mem_cons_self)

end Locking
end Foundation
