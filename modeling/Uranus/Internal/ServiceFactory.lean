import Uranus.Foundation.Program
import Uranus.Foundation.Table

/-! The libraries of services. An instance is made by the library that its path
names, and is destroyed by the library that the same path names then: the path
is all that a handle keeps of where its instance came from. -/
namespace Uranus
open Foundation Program

/-- The loop of `std::getline` in `SplitString`; `item` is what it has of the next
item. A delimiter ends an item, which may be empty, and the end of the string
ends one that has a character. -/
def splitItems (delimiter : Char) (item : List Char) : List Char → List String
  | [] => if item.isEmpty then [] else [String.ofList item]
  | c :: rest =>
    if c = delimiter then String.ofList item :: splitItems delimiter [] rest
    else splitItems delimiter (item ++ [c]) rest

def splitString (src : String) (delimiter : Char) : List String :=
  splitItems delimiter [] src.toList

/-- A delimiter at the end makes no item of its own. -/
example : splitString "core.mail." '.' = ["core", "mail"] := by decide

/-- The function `CreateInstance` of a library. Whether it returns an instance may
be different at each `occasion`. -/
abbrev AServiceCreator := Nat → Bool

/-- The function `DestroyInstance` of a library. -/
structure AServiceDestroyer where
  library : Nat
deriving DecidableEq

/-- A library and the symbols that are found in it. -/
structure FSharedLibrary where
  handle : Nat
  isValid : Bool
  creator : Option AServiceCreator
  destroyer : Option AServiceDestroyer

structure FLibraryNode where
  library : FSharedLibrary
  creator : Option AServiceCreator
  destroyer : Option AServiceDestroyer

/-- A directory entry. Where its library cannot be opened, there is an exception. -/
structure LibraryEntry where
  isRegularFile : Bool
  extension : String
  stem : String
  library : Except String FSharedLibrary

structure UServiceFactory where
  coreMap : Table String FLibraryNode
  extendMap : Table String FLibraryNode

/-- Which map has a node, and under which name. -/
inductive LibraryPlace where
  | core (name : String)
  | extend (name : String)
deriving DecidableEq, Repr

/-- How an instance comes to its end. -/
inductive Destruction where
  | library (place : LibraryPlace)
  | plainDelete
deriving DecidableEq, Repr

namespace UServiceFactory

def new : UServiceFactory := ⟨∅, ∅⟩

def node (factory : UServiceFactory) : LibraryPlace → Option FLibraryNode
  | .core name => factory.coreMap.lookup name
  | .extend name => factory.extendMap.lookup name

def insertNode (place : LibraryPlace) (node : FLibraryNode) (factory : UServiceFactory) :
    UServiceFactory :=
  match place with
  | .core name => { factory with coreMap := factory.coreMap.insert name node }
  | .extend name => { factory with extendMap := factory.extendMap.insert name node }

/-- The body of both loops of `LoadService`. -/
def loadLibrary (place : String → LibraryPlace) (entry : LibraryEntry) :
    Program UServiceFactory Unit :=
  if entry.isRegularFile && entry.extension = ".dll" then
    match entry.library with
    | .error what => throw (.exception what)
    | .ok library =>
      if !library.isValid then pure ()
      else if library.creator.isNone || library.destroyer.isNone then pure ()
      else modify (insertNode (place entry.stem) ⟨library, library.creator, library.destroyer⟩)
  else pure ()

def loadLibraries (place : String → LibraryPlace) : List LibraryEntry → Program UServiceFactory Unit
  | [] => pure ()
  | entry :: rest => do
    loadLibrary place entry
    loadLibraries place rest

/-- `LoadService`, for the entries of the two directories. -/
def loadService (core extend : List LibraryEntry) : Program UServiceFactory Unit := do
  loadLibraries .core core
  loadLibraries .extend extend

/-- The node in which `CreateInstance` finds a creator. -/
def creatorOf (factory : UServiceFactory) (place : LibraryPlace) :
    Option (LibraryPlace × AServiceCreator) :=
  ((factory.node place).bind FLibraryNode.creator).map fun creator => (place, creator)

/-- The creator that `CreateInstance` calls. -/
def findCreator (path : String) (factory : UServiceFactory) :
    Option (LibraryPlace × AServiceCreator) :=
  match splitString path '.' with
  | [kind, name] =>
    (if kind = "core" then factory.creatorOf (.core name) else none).or
      (if kind = "extend" then factory.creatorOf (.extend name) else none)
  | _ => none

def destroyerOf (factory : UServiceFactory) (place : LibraryPlace) : Option LibraryPlace :=
  ((factory.node place).bind FLibraryNode.destroyer).map fun _ => place

/-- What `DestroyInstance` does to an instance. -/
def destroyInstance (path : String) (factory : UServiceFactory) : Destruction :=
  match splitString path '.' with
  | [kind, name] =>
    match (if kind = "core" then factory.destroyerOf (.core name) else none).or
        (if kind = "extend" then factory.destroyerOf (.extend name) else none) with
    | some place => .library place
    | none => .plainDelete
  | _ => .plainDelete

/-- Every node has both symbols. -/
def Complete (factory : UServiceFactory) : Prop :=
  ∀ place node, factory.node place = some node → node.creator.isSome ∧ node.destroyer.isSome

variable {factory later : UServiceFactory} {place : LibraryPlace} {path : String}

theorem Complete.fresh : new.Complete := by
  intro place node found
  cases place <;> cases found

theorem node_insertNode (place other : LibraryPlace) (node : FLibraryNode)
    (factory : UServiceFactory) : (factory.insertNode place node).node other =
      if other = place then some node else factory.node other := by
  cases place <;> cases other <;> simp [insertNode, UServiceFactory.node, Table.lookup_insert_ite]

theorem Complete.loadLibrary (complete : factory.Complete) (place : String → LibraryPlace)
    (entry : LibraryEntry) (ends : Ends (loadLibrary place entry) factory later) :
    later.Complete := by
  simp only [UServiceFactory.loadLibrary] at ends
  split at ends
  next =>
    split at ends
    next what failed =>
      cases ends.of_exception (u := factory) rfl
      exact complete
    next library opened =>
      split at ends
      · cases ends.of_ok (u := factory) rfl
        exact complete
      split at ends
      next =>
        cases ends.of_ok (u := factory) rfl
        exact complete
      next both =>
        cases ends.of_ok (modify_apply _ _)
        intro other node found
        rw [node_insertNode] at found
        split at found
        · cases found
          simpa [Option.isSome_iff_ne_none] using both
        · exact complete other node found
  next =>
    cases ends.of_ok (u := factory) rfl
    exact complete

theorem Complete.loadLibraries (place : String → LibraryPlace) (entries : List LibraryEntry)
    (complete : factory.Complete) (ends : Ends (loadLibraries place entries) factory later) :
    later.Complete := by
  induction entries generalizing factory with
  | nil =>
    cases ends.of_ok (u := factory) rfl
    exact complete
  | cons entry rest ih =>
    rcases ends.of_bind with ⟨_, mid, loaded, ends⟩ | failed
    · exact ih (complete.loadLibrary place entry (.inl ⟨_, loaded⟩)) ends
    · exact complete.loadLibrary place entry (.inr failed)

/-- Only libraries with both symbols are loaded. -/
theorem Complete.loadService (core extend : List LibraryEntry)
    (ends : Ends (loadService core extend) new later) : later.Complete := by
  rcases ends.of_bind with ⟨_, mid, loaded, ends⟩ | failed
  · have complete := Complete.fresh.loadLibraries .core core (.inl ⟨_, loaded⟩)
    exact complete.loadLibraries .extend extend ends
  · exact Complete.fresh.loadLibraries .core core (.inr failed)

/-- Where the creator was found, the destroyer will be found. -/
theorem Complete.destroys (complete : factory.Complete) {creator : AServiceCreator}
    (found : factory.findCreator path = some (place, creator)) :
    path ≠ "" ∧ factory.destroyInstance path = .library place := by
  have named : path ≠ "" := by
    rintro rfl
    cases found
  refine ⟨named, ?_⟩
  have both (here : LibraryPlace) (made : factory.creatorOf here = some (place, creator)) :
      factory.destroyerOf here = some place := by
    obtain ⟨creator, has, same⟩ := Option.map_eq_some_iff.mp made
    cases same
    obtain ⟨node, stored, has⟩ := Option.bind_eq_some_iff.mp has
    obtain ⟨destroyer, has⟩ := Option.isSome_iff_exists.mp (complete place node stored).2
    simp only [destroyerOf, stored, Option.bind_some, has, Option.map_some]
  simp only [findCreator] at found
  simp only [destroyInstance]
  split at found
  next kind name pieces =>
    by_cases core : kind = "core"
    · have other : ¬ kind = "extend" := by simp [core]
      rw [if_pos core, if_neg other, Option.or_none] at found
      simp only [if_pos core, if_neg other, Option.or_none, both _ found]
    · by_cases extend : kind = "extend"
      · rw [if_neg core, if_pos extend, Option.none_or] at found
        simp only [if_neg core, if_pos extend, Option.none_or, both _ found]
      · rw [if_neg core, if_neg extend] at found
        cases found
  next => cases found

end UServiceFactory
end Uranus
