import Uranus.Internal.ServiceFactory

/-! The paths that lead to a loaded library. `SplitString` drops a delimiter at the
end, and a name with a delimiter in it takes more than two items. -/
namespace Uranus
open Foundation Program

section Split
variable {delimiter : Char} {item chars rest : List Char} {first name : String}

/-- Up to the next delimiter there is one item. -/
theorem splitItems_append (plain : delimiter ∉ chars) :
    splitItems delimiter item (chars ++ delimiter :: rest) =
      String.ofList (item ++ chars) :: splitItems delimiter [] rest := by
  induction chars generalizing item with
  | nil => simp [splitItems]
  | cons c chars ih =>
    have other : c ≠ delimiter := fun same => plain (by simp [same])
    rw [List.cons_append, splitItems, if_neg other, ih fun inside => plain (by simp [inside])]
    simp

theorem splitItems_plain (plain : delimiter ∉ chars) :
    splitItems delimiter item chars =
      if (item ++ chars).isEmpty then [] else [String.ofList (item ++ chars)] := by
  induction chars generalizing item with
  | nil => simp [splitItems]
  | cons c chars ih =>
    have other : c ≠ delimiter := fun same => plain (by simp [same])
    rw [splitItems, if_neg other, ih fun inside => plain (by simp [inside])]
    simp

/-- Characters are one item, or go on after the first delimiter. -/
theorem splitItems_cases (delimiter : Char) (chars : List Char) :
    (delimiter ∉ chars ∧ splitItems delimiter [] chars =
        if chars.isEmpty then [] else [String.ofList chars]) ∨
      ∃ before after, delimiter ∉ before ∧ chars = before ++ delimiter :: after ∧
        splitItems delimiter [] chars =
          String.ofList before :: splitItems delimiter [] after := by
  by_cases inside : delimiter ∈ chars
  · obtain ⟨before, after, rfl, free⟩ := List.eq_append_cons_of_mem inside
    exact .inr ⟨before, after, free, rfl, splitItems_append free⟩
  · exact .inl ⟨inside, splitItems_plain inside⟩

/-- Nothing is left of a string only where there is none. -/
theorem splitItems_eq_nil : splitItems delimiter [] chars = [] ↔ chars = [] := by
  constructor
  · intro none
    rcases splitItems_cases delimiter chars with ⟨_, items⟩ | ⟨_, _, _, _, items⟩
    · rw [items] at none
      simpa using none
    · rw [items] at none
      cases none
  · rintro rfl
    rfl

theorem splitItems_eq_cons {others : List String} (more : others ≠ []) :
    splitItems delimiter [] chars = first :: others ↔ delimiter ∉ first.toList ∧
      ∃ rest, chars = first.toList ++ delimiter :: rest ∧
        splitItems delimiter [] rest = others := by
  constructor
  · intro pieces
    rcases splitItems_cases delimiter chars with ⟨_, items⟩ | ⟨before, after, free, whole, items⟩
    · rw [items] at pieces
      split at pieces
      · cases pieces
      · cases pieces
        exact absurd rfl more
    · rw [items] at pieces
      cases pieces
      exact ⟨by simpa using free, after, by simpa using whole, rfl⟩
  · rintro ⟨free, rest, rfl, pieces⟩
    rw [splitItems_append free, pieces]
    simp

/-- One item is left by a string without a delimiter, and by the same string with one
at its end. -/
theorem splitItems_eq_singleton (named : name ≠ "") :
    splitItems delimiter [] chars = [name] ↔ delimiter ∉ name.toList ∧
      (chars = name.toList ∨ chars = name.toList ++ [delimiter]) := by
  constructor
  · intro pieces
    rcases splitItems_cases delimiter chars with
      ⟨plain, items⟩ | ⟨before, after, free, whole, items⟩
    · rw [items] at pieces
      split at pieces
      · cases pieces
      · cases pieces
        exact ⟨by simpa using plain, .inl (by simp)⟩
    · rw [items, List.cons.injEq, splitItems_eq_nil] at pieces
      obtain ⟨rfl, rfl⟩ := pieces
      exact ⟨by simpa using free, .inr (by simpa using whole)⟩
  · rintro ⟨free, rfl | rfl⟩
    · rw [splitItems_plain free]
      simpa using named
    · rw [splitItems_append free]
      simp [splitItems]

theorem splitString_eq_pair {src : String} (named : name ≠ "") :
    splitString src delimiter = [first, name] ↔
      (delimiter ∉ first.toList ∧ delimiter ∉ name.toList) ∧
      (src = first ++ String.singleton delimiter ++ name ∨
        src = first ++ String.singleton delimiter ++ name ++ String.singleton delimiter) := by
  simp only [splitString, splitItems_eq_cons (List.cons_ne_nil _ _),
    splitItems_eq_singleton named, ← String.toList_inj, String.toList_append,
    String.toList_singleton]
  constructor
  · rintro ⟨free, rest, whole, plain, rfl | rfl⟩
    · exact ⟨⟨free, plain⟩, .inl (by simp [whole])⟩
    · exact ⟨⟨free, plain⟩, .inr (by simp [whole])⟩
  · rintro ⟨⟨free, plain⟩, whole | whole⟩
    · exact ⟨free, _, by simpa using whole, plain, .inl rfl⟩
    · exact ⟨free, _, by simpa using whole, plain, .inr rfl⟩

end Split

namespace LibraryPlace

/-- The file stem under which a library is stored. -/
def name : LibraryPlace → String
  | .core name => name
  | .extend name => name

def kind : LibraryPlace → String
  | .core _ => "core"
  | .extend _ => "extend"

/-- The path that `UServiceModule` makes for the name of a library. -/
def path : LibraryPlace → String
  | .core name => "core." ++ name
  | .extend name => "extend." ++ name

theorem path_eq (place : LibraryPlace) : place.path = place.kind ++ "." ++ place.name := by
  cases place with
  | core name => rfl
  | extend name => rfl

theorem kind_plain (place : LibraryPlace) : '.' ∉ place.kind.toList := by
  cases place with
  | core name => simp [kind]
  | extend name => simp [kind]

end LibraryPlace

namespace UServiceFactory
variable {factory : UServiceFactory} {place : LibraryPlace} {path : String}
  {creator : AServiceCreator}

theorem creatorOf_place {other : LibraryPlace}
    (found : factory.creatorOf other = some (place, creator)) : other = place := by
  obtain ⟨made, _, same⟩ := Option.map_eq_some_iff.mp found
  cases same
  rfl

/-- A creator is found by two items, the kind of its library and the name. -/
theorem findCreator_eq_some : factory.findCreator path = some (place, creator) ↔
    splitString path '.' = [place.kind, place.name] ∧
      factory.creatorOf place = some (place, creator) := by
  unfold findCreator
  constructor
  · intro found
    split at found
    next kind name pieces =>
      by_cases core : kind = "core"
      · have other : ¬ kind = "extend" := by simp [core]
        rw [if_pos core, if_neg other, Option.or_none] at found
        cases creatorOf_place found
        exact ⟨by rw [pieces, core]; rfl, found⟩
      · by_cases extend : kind = "extend"
        · rw [if_neg core, if_pos extend, Option.none_or] at found
          cases creatorOf_place found
          exact ⟨by rw [pieces, extend]; rfl, found⟩
        · rw [if_neg core, if_neg extend] at found
          cases found
    next => cases found
  · rintro ⟨pieces, found⟩
    rw [pieces]
    cases place with
    | core name => simpa [LibraryPlace.kind, LibraryPlace.name] using found
    | extend name => simpa [LibraryPlace.kind, LibraryPlace.name] using found

/-- The paths that lead to a library. -/
theorem findCreator_iff (named : place.name ≠ "") :
    factory.findCreator path = some (place, creator) ↔
      factory.creatorOf place = some (place, creator) ∧ '.' ∉ place.name.toList ∧
      (path = place.path ∨ path = place.path ++ ".") := by
  rw [findCreator_eq_some, splitString_eq_pair named, place.path_eq]
  constructor
  · rintro ⟨⟨⟨_, plain⟩, leads⟩, stored⟩
    exact ⟨stored, plain, leads⟩
  · rintro ⟨stored, plain, leads⟩
    exact ⟨⟨⟨place.kind_plain, plain⟩, leads⟩, stored⟩

/-- The path of a library leads to its creator, and no other path does. -/
structure Addressable (factory : UServiceFactory) (place : LibraryPlace) : Prop where
  instantiated : factory.findCreator place.path = factory.creatorOf place
  exclusive : ∀ path, factory.findCreator path = factory.creatorOf place → path = place.path

/-- No library is addressed by its path alone. It is not reached at all where its name
has a delimiter, and otherwise by one more path, which has a delimiter at the end. -/
theorem not_addressable (stored : factory.creatorOf place = some (place, creator))
    (named : place.name ≠ "") : ¬ factory.Addressable place ∧
      (factory.findCreator place.path = factory.creatorOf place ↔ '.' ∉ place.name.toList) ∧
      ∀ path, factory.findCreator path = factory.creatorOf place ↔ '.' ∉ place.name.toList ∧
        (path = place.path ∨ path = place.path ++ ".") := by
  have reached (path : String) : factory.findCreator path = factory.creatorOf place ↔
      '.' ∉ place.name.toList ∧ (path = place.path ∨ path = place.path ++ ".") := by
    rw [stored, findCreator_iff named, stored]
    simp
  refine ⟨?_, ?_, reached⟩
  · rintro ⟨instantiated, exclusive⟩
    have plain := ((reached _).mp instantiated).1
    have longer := exclusive _ ((reached _).mpr ⟨plain, .inr rfl⟩)
    have lengths := congrArg String.length longer
    rw [String.length_append] at lengths
    exact absurd lengths (by simp)
  · rw [reached]
    simp

/-- A library with a version in its name. -/
def versionedLibrary : List LibraryEntry :=
  [⟨true, ".dll", "mail.v2", .ok ⟨1, true, some fun _ => true, some ⟨1⟩⟩⟩]

def versionedFactory : UServiceFactory :=
  new.insertNode (.core "mail.v2")
    ⟨⟨1, true, some fun _ => true, some ⟨1⟩⟩, some fun _ => true, some ⟨1⟩⟩

theorem not_addressable_versioned :
    ¬ versionedFactory.Addressable (.core "mail.v2") ∧
      versionedFactory.findCreator "core.mail.v2" = none := by
  have stored : versionedFactory.creatorOf (.core "mail.v2") =
      some (.core "mail.v2", fun _ => true) := rfl
  exact ⟨(not_addressable stored (by decide)).1, rfl⟩

/-- The versioned library is loaded, and its path leads nowhere. -/
theorem loaded_not_addressable : ¬ ∀ core extend factory,
    Ends (loadService core extend) new factory → ∀ place creator,
      factory.creatorOf place = some (place, creator) → place.name ≠ "" →
      factory.Addressable place := by
  intro all
  have loaded : Ends (loadService versionedLibrary []) new versionedFactory := .inl ⟨(), rfl⟩
  have addressable := all _ _ _ loaded (.core "mail.v2") (fun _ => true) rfl (by decide)
  have found := addressable.instantiated
  cases found

end UServiceFactory
end Uranus
