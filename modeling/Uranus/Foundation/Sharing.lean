import Mathlib.Data.Option.Basic
import Mathlib.Logic.Function.Basic

/-! Objects with several owners. Every object that is made has a number of its own,
which no later object gets, so an owner meets nobody but the owners of the same
object. Pointers into a memory that is used again and again represent such objects
as long as different objects with owners are at different places. What a place
holds after its object has lost the last owner is the content of an abandoned object. -/
namespace Foundation
variable {O N V : Type*}

structure Sharing (O V : Type*) where
  owner : O → Option Nat
  content : Nat → Option V
  made : Nat

namespace Sharing

def empty : Sharing O V where
  owner := fun _ => none
  content := fun _ => none
  made := 0

/-- What an owner reads. -/
def read (o : O) (s : Sharing O V) : Option V := (s.owner o).bind s.content

section Operations
variable [DecidableEq O]

def point (o : O) (object : Option Nat) (s : Sharing O V) : Sharing O V :=
  { s with owner := Function.update s.owner o object }

def make (o : O) (value : V) (s : Sharing O V) : Sharing O V where
  owner := Function.update s.owner o (some s.made)
  content := Function.update s.content s.made (some value)
  made := s.made + 1

def share (o p : O) (s : Sharing O V) : Sharing O V := s.point o (s.owner p)

def drop (o : O) (s : Sharing O V) : Sharing O V := s.point o none

def move (o p : O) (s : Sharing O V) : Sharing O V := (s.share o p).drop p

def swap (o p : O) (s : Sharing O V) : Sharing O V := (s.share o p).point p (s.owner o)

end Operations

def edit (o : O) (change : V → V) (s : Sharing O V) : Sharing O V :=
  match s.owner o with
  | none => s
  | some k => { s with content := Function.update s.content k ((s.content k).map change) }

theorem edit_owned {o : O} {k : Nat} {change : V → V} {s : Sharing O V}
    (owned : s.owner o = some k) : s.edit o change =
      { s with content := Function.update s.content k ((s.content k).map change) } := by
  simp only [edit, owned]

/-- The same objects, and who owns one now, owns one that had an owner before. -/
structure Repointed (s t : Sharing O V) : Prop where
  content : t.content = s.content
  made : t.made = s.made
  owned : ∀ o k, t.owner o = some k → ∃ p, s.owner p = some k

theorem Repointed.refl (s : Sharing O V) : Repointed s s := ⟨rfl, rfl, fun o _ now => ⟨o, now⟩⟩

theorem Repointed.trans {s t u : Sharing O V} (first : Repointed s t) (second : Repointed t u) :
    Repointed s u := by
  refine ⟨second.content.trans first.content, second.made.trans first.made, ?_⟩
  intro o k now
  obtain ⟨p, before⟩ := second.owned o k now
  exact first.owned p k before

section Operations
variable [DecidableEq O] {s : Sharing O V}

theorem drop_repointed (o : O) : Repointed s (s.drop o) := by
  refine ⟨rfl, rfl, ?_⟩
  intro p k now
  simp only [drop, point, Function.update_apply] at now
  split at now
  · cases now
  · exact ⟨p, now⟩

theorem share_repointed (o p : O) : Repointed s (s.share o p) := by
  refine ⟨rfl, rfl, ?_⟩
  intro q k now
  simp only [share, point, Function.update_apply] at now
  split at now
  · exact ⟨p, now⟩
  · exact ⟨q, now⟩

theorem move_repointed (o p : O) : Repointed s (s.move o p) :=
  (share_repointed o p).trans (drop_repointed p)

theorem swap_repointed (o p : O) : Repointed s (s.swap o p) := by
  refine ⟨rfl, rfl, ?_⟩
  intro q k now
  simp only [swap, share, point, Function.update_apply] at now
  split at now
  · exact ⟨o, now⟩
  · split at now
    · exact ⟨p, now⟩
    · exact ⟨q, now⟩

end Operations

/-- An object that nobody owns any more was left with this content. -/
def Abandoned (value : V) (s : Sharing O V) : Prop :=
  ∃ k < s.made, (∀ o, s.owner o ≠ some k) ∧ s.content k = some value

namespace Abandoned
variable {value : V} {s t : Sharing O V}

theorem repoint (abandoned : Abandoned value s) (repointed : Repointed s t) :
    Abandoned value t := by
  obtain ⟨k, old, free, content⟩ := abandoned
  refine ⟨k, repointed.made ▸ old, ?_, by rw [repointed.content, content]⟩
  intro o now
  obtain ⟨p, before⟩ := repointed.owned o k now
  exact free p before

theorem make [DecidableEq O] (abandoned : Abandoned value s) (o : O) (other : V) :
    Abandoned value (s.make o other) := by
  obtain ⟨k, old, free, content⟩ := abandoned
  have differs : k ≠ s.made := Nat.ne_of_lt old
  refine ⟨k, Nat.lt_succ_of_lt old, ?_, (Function.update_of_ne differs _ _).trans content⟩
  intro p now
  simp only [Sharing.make, Function.update_apply] at now
  split at now
  · exact differs (Option.some.inj now).symm
  · exact free p now

theorem edit (abandoned : Abandoned value s) (o : O) (change : V → V) :
    Abandoned value (s.edit o change) := by
  obtain ⟨k, old, free, content⟩ := abandoned
  unfold Sharing.edit
  split
  · exact ⟨k, old, free, content⟩
  next l owned =>
    have differs : k ≠ l := by
      rintro rfl
      exact free o owned
    exact ⟨k, old, free, (Function.update_of_ne differs _ _).trans content⟩

end Abandoned
end Sharing

/-- The objects are at their places: pointers point to where the objects of their
owners are, and the memory holds there what the objects hold. -/
structure Represents (place : Nat → N) (points : O → Option N) (holds : N → Option V)
    (s : Sharing O V) : Prop where
  points : ∀ o, points o = (s.owner o).map place
  apart : ∀ o p k l, s.owner o = some k → s.owner p = some l → place k = place l → k = l
  holds : ∀ o k, s.owner o = some k → holds (place k) = s.content k
  made : ∀ o k, s.owner o = some k → k < s.made

namespace Represents
variable {place : Nat → N} {points : O → Option N} {holds later : N → Option V}
  {s : Sharing O V} {o p : O}

theorem empty (place : Nat → N) (holds : N → Option V) :
    Represents place (fun _ : O => none) holds Sharing.empty where
  points _ := rfl
  apart _ _ _ _ owned := by cases owned
  holds _ _ owned := by cases owned
  made _ _ owned := by cases owned

/-- What is read through a pointer is what its owner reads. -/
theorem read (represents : Represents place points holds s) (o : O) :
    (points o).bind holds = s.read o := by
  rw [represents.points o, Sharing.read]
  cases owned : s.owner o with
  | none => rfl
  | some k => exact represents.holds o k owned

theorem pointed (represents : Represents place points holds s) {n : N}
    (at' : points o = some n) : ∃ k, s.owner o = some k ∧ place k = n := by
  rw [represents.points o] at at'
  exact Option.map_eq_some_iff.mp at'

/-- A memory that is left alone wherever somebody points to. -/
theorem keep (represents : Represents place points holds s)
    (same : ∀ o n, points o = some n → later n = holds n) :
    Represents place points later s where
  points := represents.points
  apart := represents.apart
  holds o k owned := by
    have at' : points o = some (place k) := by rw [represents.points o, owned, Option.map_some]
    rw [same o _ at', represents.holds o k owned]
  made := represents.made

/-- Owners get objects that had owners. -/
theorem repoint (represents : Represents place points holds s) {t : Sharing O V}
    {pointers : O → Option N} (repointed : Sharing.Repointed s t)
    (follow : ∀ o, pointers o = (t.owner o).map place) :
    Represents place pointers holds t where
  points := follow
  apart o p k l first second := by
    obtain ⟨o, first⟩ := repointed.owned o k first
    obtain ⟨p, second⟩ := repointed.owned p l second
    exact represents.apart o p k l first second
  holds o k now := by
    obtain ⟨p, before⟩ := repointed.owned o k now
    rw [repointed.content]
    exact represents.holds p k before
  made o k now := by
    obtain ⟨p, before⟩ := repointed.owned o k now
    rw [repointed.made]
    exact represents.made p k before

/-- Where the last pointer goes away, an object is left with what the memory held. -/
theorem abandons (represents : Represents place points holds s) {t : Sharing O V}
    {pointers : O → Option N} (repointed : Sharing.Repointed s t)
    (after : Represents place pointers later t) {n : N} (at' : points o = some n)
    (gone : ∀ p, pointers p ≠ some n) {value : V} (held : holds n = some value) :
    Sharing.Abandoned value t := by
  obtain ⟨k, owned, rfl⟩ := represents.pointed at'
  refine ⟨k, ?_, ?_, ?_⟩
  · rw [repointed.made]
    exact represents.made o k owned
  · intro p still
    exact gone p (by rw [after.points p, still, Option.map_some])
  · rw [repointed.content, ← represents.holds o k owned, held]

section Operations
variable [DecidableEq O]

theorem drop (represents : Represents place points holds s) (o : O) :
    Represents place (Function.update points o none) holds (s.drop o) := by
  apply represents.repoint (Sharing.drop_repointed o)
  intro p
  simp only [Sharing.drop, Sharing.point, Function.update_apply]
  split
  · rfl
  · exact represents.points p

theorem share (represents : Represents place points holds s) (o p : O) :
    Represents place (Function.update points o (points p)) holds (s.share o p) := by
  apply represents.repoint (Sharing.share_repointed o p)
  intro q
  simp only [Sharing.share, Sharing.point, Function.update_apply]
  split
  · exact represents.points p
  · exact represents.points q

theorem move (represents : Represents place points holds s) (o p : O) :
    Represents place (Function.update (Function.update points o (points p)) p none) holds
      (s.move o p) :=
  (represents.share o p).drop p

theorem swap (represents : Represents place points holds s) (o p : O) :
    Represents place (Function.update (Function.update points o (points p)) p (points o)) holds
      (s.swap o p) := by
  apply represents.repoint (Sharing.swap_repointed o p)
  intro q
  simp only [Sharing.swap, Sharing.share, Sharing.point, Function.update_apply]
  split
  · exact represents.points o
  · split
    · exact represents.points p
    · exact represents.points q

/-- A new object is put where nobody points to. -/
theorem make [DecidableEq N] (represents : Represents place points holds s) (o : O) {n : N}
    {value : V} (free : ∀ p, points p ≠ some n) (now : later n = some value)
    (same : ∀ p m, points p = some m → later m = holds m) :
    Represents (Function.update place s.made n) (Function.update points o (some n)) later
      (s.make o value) := by
  have kept := represents.keep same
  have old {p : O} {k : Nat} (owned : s.owner p = some k) :
      Function.update place s.made n k = place k :=
    Function.update_of_ne (Nat.ne_of_lt (represents.made p k owned)) _ _
  have elsewhere {p : O} {k : Nat} (owned : s.owner p = some k) : place k ≠ n := by
    rintro rfl
    exact free p (by rw [represents.points p, owned, Option.map_some])
  have cases' {p : O} {k : Nat} (owned : (s.make o value).owner p = some k) :
      k = s.made ∨ s.owner p = some k := by
    simp only [Sharing.make, Function.update_apply] at owned
    split at owned
    · exact .inl (Option.some.inj owned).symm
    · exact .inr owned
  constructor
  · intro p
    simp only [Sharing.make, Function.update_apply]
    split
    · simp
    · rw [represents.points p]
      cases owned : s.owner p with
      | none => rfl
      | some k => rw [Option.map_some, Option.map_some, old owned]
  · intro p q k l first second alike
    rcases cases' first with rfl | first
    · rcases cases' second with rfl | second
      · rfl
      · rw [Function.update_self, old second] at alike
        exact absurd alike.symm (elsewhere second)
    · rcases cases' second with rfl | second
      · rw [Function.update_self, old first] at alike
        exact absurd alike (elsewhere first)
      · rw [old first, old second] at alike
        exact represents.apart p q k l first second alike
  · intro p k owned
    rcases cases' owned with rfl | owned
    · simp [Sharing.make, now]
    · rw [old owned, kept.holds p k owned]
      exact (Function.update_of_ne (Nat.ne_of_lt (represents.made p k owned)) _ _).symm
  · intro p k owned
    rcases cases' owned with rfl | owned
    · exact Nat.lt_succ_self _
    · exact Nat.lt_succ_of_lt (represents.made p k owned)

end Operations

/-- A change where a pointer points to is an edit of its owner's object. -/
theorem edit (represents : Represents place points holds s) {n : N} {change : V → V}
    (at' : points o = some n) (now : later n = (holds n).map change)
    (same : ∀ p m, points p = some m → m ≠ n → later m = holds m) :
    Represents place points later (s.edit o change) := by
  obtain ⟨k, owned, rfl⟩ := represents.pointed at'
  rw [Sharing.edit_owned owned]
  refine ⟨represents.points, represents.apart, ?_, represents.made⟩
  intro p l other
  simp only [Function.update_apply]
  split
  next same' =>
    rw [same', now, represents.holds o k owned]
  next differs =>
    have at'' : points p = some (place l) := by rw [represents.points p, other, Option.map_some]
    have elsewhere : place l ≠ place k := fun alike =>
      differs (represents.apart p o l k other owned alike)
    rw [same p _ at'' elsewhere, represents.holds p l other]

end Represents
end Foundation
