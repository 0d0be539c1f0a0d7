import Uranus.Foundation.Path
import Uranus.Internal.ServiceFactory
import Mathlib.Data.Multiset.Range

/-! Handles of service instances. A handle can be moved and not copied, and its
instance goes back to the library of its path when the handle is released. -/
namespace Uranus
open Foundation

/-- Instances are numbered in the order in which they are made. There is one
factory, and `factory` tells whether the handle points to it. -/
structure FServiceHandle where
  service : Option Nat
  factory : Bool
  path : String
deriving DecidableEq, Repr

namespace FServiceHandle

def null : FServiceHandle := ⟨none, false, ""⟩

/-- What a move leaves of its source. The string that it leaves is unspecified. -/
def moved (left : String) : FServiceHandle := ⟨none, false, left⟩

/-- The handle after `Release`. -/
def released (handle : FServiceHandle) : FServiceHandle :=
  if handle.service.isNone then handle else null

theorem released_service (handle : FServiceHandle) : handle.released.service = none := by
  simp only [released]
  split
  next none => exact Option.isNone_iff_eq_none.mp none
  next => rfl

/-- What `Release` does to an instance of the handle. -/
def destruction (factory : UServiceFactory) (handle : FServiceHandle) : Destruction :=
  if handle.factory && handle.path ≠ "" then factory.destroyInstance handle.path
  else .plainDelete

end FServiceHandle

/-- The handles of a program. `made` are the libraries of all instances so far, and
`destroyed` what was done to which instance. -/
structure ServiceHandles where
  factory : UServiceFactory
  handles : Table Nat FServiceHandle
  made : List LibraryPlace
  destroyed : List (Nat × Destruction)

inductive ServiceHandleCall where
  | construct (slot : Nat)
  | createInstance (slot : Nat) (path : String) (occasion : Nat)
  | moveConstruct (slot source : Nat) (left : String)
  | moveAssign (slot source : Nat) (left : String)
  | release (slot : Nat)
  | destruct (slot : Nat)
deriving DecidableEq

namespace ServiceHandles

def new (factory : UServiceFactory) : ServiceHandles := ⟨factory, ∅, [], []⟩

def setHandle (slot : Nat) (handle : FServiceHandle) (s : ServiceHandles) : ServiceHandles :=
  { s with handles := s.handles.insert slot handle }

/-- The instance of the handle is destroyed, if it has one. -/
def destroy (handle : FServiceHandle) (s : ServiceHandles) : ServiceHandles :=
  { s with destroyed :=
      s.destroyed ++ handle.service.toList.map fun id => (id, handle.destruction s.factory) }

def release (slot : Nat) (handle : FServiceHandle) (s : ServiceHandles) : ServiceHandles :=
  (s.destroy handle).setHandle slot handle.released

/-- What both move operations do last. -/
def transfer (slot source : Nat) (handle : FServiceHandle) (left : String) (s : ServiceHandles) :
    ServiceHandles :=
  (s.setHandle slot handle).setHandle source (.moved left)

/-- The handle that `CreateInstance` returns. -/
def createInstance (slot : Nat) (path : String) (occasion : Nat) (s : ServiceHandles) :
    ServiceHandles :=
  match s.factory.findCreator path with
  | none => s.setHandle slot .null
  | some (place, creator) =>
    if creator occasion then
      { s with made := s.made ++ [place] }.setHandle slot ⟨some s.made.length, true, path⟩
    else s.setHandle slot ⟨none, true, path⟩

/-- A new handle comes into a free slot, and other calls are about handles there are. -/
def next (s : ServiceHandles) : ServiceHandleCall → Option ServiceHandles
  | .construct slot =>
    if (s.handles.lookup slot).isSome then none else some (s.setHandle slot .null)
  | .createInstance slot path occasion =>
    if (s.handles.lookup slot).isSome then none else some (s.createInstance slot path occasion)
  | .moveConstruct slot source left =>
    if (s.handles.lookup slot).isSome then none
    else (s.handles.lookup source).map fun rhs => s.transfer slot source rhs left
  | .moveAssign slot source left =>
    (s.handles.lookup slot).bind fun handle => (s.handles.lookup source).map fun rhs =>
      if slot = source then s else (s.release slot handle).transfer slot source rhs left
  | .release slot => (s.handles.lookup slot).map fun handle => s.release slot handle
  | .destruct slot => (s.handles.lookup slot).map fun handle =>
      let s := s.release slot handle
      { s with handles := s.handles.erase slot }

def Step (s : ServiceHandles) (call : ServiceHandleCall) (later : ServiceHandles) : Prop :=
  s.next call = some later

def runs (s : ServiceHandles) (calls : List ServiceHandleCall) :
    List (ServiceHandleCall × ServiceHandles) :=
  Transition.trace next s calls

theorem runs_path (s : ServiceHandles) (calls : List ServiceHandleCall) :
    Transition.Path Step s (s.runs calls) :=
  Transition.trace_path id calls

/-- The instances that handles own, once for each handle. -/
def owned (s : ServiceHandles) : Multiset Nat := Table.gather FServiceHandle.service s.handles

/-- The instances that were destroyed, once for each time. -/
def gone (s : ServiceHandles) : Multiset Nat := (s.destroyed.map Prod.fst : List Nat)

/-- Each instance has one handle or is destroyed, and that by its own library. -/
structure Linear (s : ServiceHandles) : Prop where
  once : ∀ id < s.made.length, s.owned.count id + s.gone.count id = 1
  own : ∀ entry ∈ s.destroyed, ∃ place, s.made[entry.1]? = some place ∧ entry.2 = .library place

/-- The path of the handle leads its instance back to the library that made it. -/
def Backed (s : ServiceHandles) (handle : FServiceHandle) : Prop :=
  ∀ id, handle.service = some id → ∃ place, s.made[id]? = some place ∧
    handle.destruction s.factory = .library place

structure Sound (s : ServiceHandles) : Prop where
  complete : s.factory.Complete
  numbered : s.owned + s.gone = Multiset.range s.made.length
  backed : ∀ slot handle, s.handles.lookup slot = some handle → s.Backed handle
  own : ∀ entry ∈ s.destroyed, ∃ place, s.made[entry.1]? = some place ∧ entry.2 = .library place

variable {s later : ServiceHandles} {handle rhs : FServiceHandle} {slot source : Nat}
  {call : ServiceHandleCall}

theorem gone_destroy (handle : FServiceHandle) (s : ServiceHandles) :
    (s.destroy handle).gone = (handle.service.toList : Multiset Nat) + s.gone := by
  cases service : handle.service with
  | none => simp [gone, destroy, service]
  | some id => simp [gone, destroy, service, Multiset.add_comm, ← Multiset.coe_add]

/-- A slot without a handle, or with one that has no instance. -/
def Vacant (s : ServiceHandles) (slot : Nat) : Prop :=
  ∀ handle, s.handles.lookup slot = some handle → handle.service = none

theorem owned_set (vacant : s.Vacant slot) (handle : FServiceHandle) :
    (s.setHandle slot handle).owned = (handle.service.toList : Multiset Nat) + s.owned := by
  cases present : s.handles.lookup slot with
  | none => exact Table.gather_insert_fresh _ handle present
  | some old =>
    have overwritten := Table.gather_overwrite FServiceHandle.service present handle
    rw [vacant old present] at overwritten
    exact (zero_add _).symm.trans overwritten

theorem backed_set (backed : ∀ slot handle, s.handles.lookup slot = some handle → s.Backed handle)
    (new : s.Backed handle) : ∀ other found,
      (s.setHandle slot handle).handles.lookup other = some found → s.Backed found := by
  intro other found present
  simp only [setHandle, Table.lookup_insert_ite] at present
  split at present
  · cases present
    exact new
  · exact backed other found present

/-- A handle without an instance may be put into any vacant slot. -/
theorem Sound.set (sound : s.Sound) (vacant : s.Vacant slot) (empty : handle.service = none) :
    (s.setHandle slot handle).Sound where
  complete := sound.complete
  numbered := by
    rw [owned_set vacant, empty]
    exact (congrArg (· + _) (zero_add _)).trans sound.numbered
  backed := backed_set sound.backed fun id holds => nomatch empty.symm.trans holds
  own := sound.own

theorem Sound.release (sound : s.Sound) (present : s.handles.lookup slot = some handle) :
    (s.release slot handle).Sound := by
  have freed := handle.released_service
  have backed := sound.backed slot handle present
  constructor
  case complete => exact sound.complete
  case numbered =>
    have overwritten := Table.gather_overwrite FServiceHandle.service present handle.released
    rw [freed] at overwritten
    have remaining : (handle.service.toList : Multiset Nat) + (s.release slot handle).owned =
        s.owned := overwritten.trans (zero_add _)
    have gone : (s.release slot handle).gone = handle.service.toList + s.gone :=
      gone_destroy handle s
    rw [gone, ← Multiset.add_assoc, Multiset.add_comm _ (handle.service.toList : Multiset Nat),
      remaining]
    exact sound.numbered
  case backed => exact backed_set sound.backed fun id holds => nomatch freed.symm.trans holds
  case own =>
    intro entry listed
    rcases List.mem_append.mp listed with before | now
    · exact sound.own entry before
    · obtain ⟨id, holds, same⟩ := List.mem_map.mp now
      subst same
      exact backed id (Option.mem_toList.mp holds)

/-- A move passes the instance on. -/
theorem Sound.transfer (sound : s.Sound) (vacant : s.Vacant slot) (other : slot ≠ source)
    (present : s.handles.lookup source = some rhs) (left : String) :
    (s.transfer slot source rhs left).Sound := by
  have still : (s.setHandle slot rhs).handles.lookup source = some rhs := by
    simp only [setHandle, Table.lookup_insert_ite, if_neg (Ne.symm other), present]
  constructor
  case complete => exact sound.complete
  case numbered =>
    have overwritten := Table.gather_overwrite FServiceHandle.service still (.moved left)
    have same : (s.transfer slot source rhs left).owned = s.owned := by
      apply add_left_cancel (a := (rhs.service.toList : Multiset Nat))
      rw [← owned_set vacant rhs]
      exact overwritten.trans (zero_add _)
    rw [same]
    exact sound.numbered
  case backed =>
    have first : ∀ other found, (s.setHandle slot rhs).handles.lookup other = some found →
        s.Backed found := backed_set sound.backed (sound.backed source rhs present)
    exact backed_set (s := s.setHandle slot rhs) first fun id holds => nomatch holds
  case own => exact sound.own

theorem Sound.createInstance (sound : s.Sound) (vacant : s.Vacant slot) (path : String)
    (occasion : Nat) : (s.createInstance slot path occasion).Sound := by
  simp only [ServiceHandles.createInstance]
  split
  next => exact sound.set vacant rfl
  next place creator found =>
    split
    next =>
      obtain ⟨named, destroys⟩ := sound.complete.destroys found
      have old {id : Nat} {place other : LibraryPlace} (known : s.made[id]? = some place) :
          (s.made ++ [other])[id]? = some place :=
        (List.getElem?_append_left (List.getElem?_eq_some_iff.mp known).1).trans known
      constructor
      case complete => exact sound.complete
      case numbered =>
        have given := owned_set (s := { s with made := s.made ++ [place] }) vacant
          ⟨some s.made.length, true, path⟩
        have count : Multiset.range (s.made ++ [place]).length =
            s.made.length ::ₘ Multiset.range s.made.length := by
          rw [List.length_append, List.length_singleton, Multiset.range_succ]
        rw [given]
        refine Eq.trans ?_ count.symm
        rw [← sound.numbered, ← Multiset.cons_add]
        rfl
      case backed =>
        apply backed_set (s := { s with made := s.made ++ [place] })
        · intro slot handle present id holds
          obtain ⟨place, known, back⟩ := sound.backed slot handle present id holds
          exact ⟨place, old known, back⟩
        · intro id holds
          cases holds
          refine ⟨place, List.getElem?_concat_length .., ?_⟩
          simp [FServiceHandle.destruction, named, destroys]
      case own =>
        intro entry listed
        obtain ⟨place, known, back⟩ := sound.own entry listed
        exact ⟨place, old known, back⟩
    next => exact sound.set vacant rfl

theorem vacant_absent (absent : ¬ (s.handles.lookup slot).isSome) : s.Vacant slot := by
  intro handle present
  simp [present] at absent

theorem vacant_release (slot : Nat) (handle : FServiceHandle) (s : ServiceHandles) :
    (s.release slot handle).Vacant slot := by
  intro other present
  simp only [release, setHandle, Table.lookup_insert_ite, if_true] at present
  cases present
  exact handle.released_service

/-- The destructor of a handle, once it is released. -/
theorem Sound.erase (sound : s.Sound) (vacant : s.Vacant slot)
    (present : s.handles.lookup slot = some handle) :
    ({ s with handles := s.handles.erase slot } : ServiceHandles).Sound where
  complete := sound.complete
  numbered := by
    have before := Table.gather_present FServiceHandle.service present
    rw [vacant handle present] at before
    have same : ({ s with handles := s.handles.erase slot } : ServiceHandles).owned = s.owned :=
      (before.trans (zero_add _)).symm
    rw [same]
    exact sound.numbered
  backed other found still := by
    rw [Table.lookup_erase_ite] at still
    split at still
    · cases still
    · exact sound.backed other found still
  own := sound.own

theorem Sound.step (sound : s.Sound) (moved : Step s call later) : later.Sound := by
  cases call with
  | construct slot =>
    simp only [Step, next] at moved
    split at moved
    · cases moved
    next absent =>
      cases moved
      exact sound.set (vacant_absent absent) rfl
  | createInstance slot path occasion =>
    simp only [Step, next] at moved
    split at moved
    · cases moved
    next absent =>
      cases moved
      exact sound.createInstance (vacant_absent absent) path occasion
  | moveConstruct slot source left =>
    simp only [Step, next] at moved
    split at moved
    · cases moved
    next absent =>
      obtain ⟨rhs, present, came⟩ := Option.map_eq_some_iff.mp moved
      subst came
      have other : slot ≠ source := by
        rintro rfl
        simp [present] at absent
      exact sound.transfer (vacant_absent absent) other present left
  | moveAssign slot source left =>
    obtain ⟨handle, held, moved⟩ := Option.bind_eq_some_iff.mp moved
    obtain ⟨rhs, present, came⟩ := Option.map_eq_some_iff.mp moved
    subst came
    split
    next => exact sound
    next other =>
      have still : (s.release slot handle).handles.lookup source = some rhs := by
        simp only [ServiceHandles.release, setHandle, Table.lookup_insert_ite,
          if_neg (Ne.symm other)]
        exact present
      exact (sound.release held).transfer (vacant_release slot handle s) other still left
  | release slot =>
    obtain ⟨handle, held, came⟩ := Option.map_eq_some_iff.mp moved
    subst came
    exact sound.release held
  | destruct slot =>
    obtain ⟨handle, held, came⟩ := Option.map_eq_some_iff.mp moved
    subst came
    have released : (s.release slot handle).handles.lookup slot = some handle.released := by
      simp only [ServiceHandles.release, setHandle, Table.lookup_insert_ite, if_true]
    exact (sound.release held).erase (vacant_release slot handle s) released

theorem Sound.linear (sound : s.Sound) : s.Linear where
  once id bound := by
    rw [← Multiset.count_add, sound.numbered]
    exact Multiset.count_eq_one_of_mem (Multiset.nodup_range _) (Multiset.mem_range.mpr bound)
  own := sound.own

open Transition in
/-- Whatever a program does with its handles, each instance is owned by one of them
until it is destroyed, once and by the library that made it. -/
theorem instances_always_linear {core extend : List LibraryEntry} {factory : UServiceFactory}
    (loaded : Program.Ends (UServiceFactory.loadService core extend) .new factory)
    {path : List (ServiceHandleCall × ServiceHandles)} (run : Path Step (.new factory) path) :
    Always Linear (.new factory) path := by
  have initial : (new factory).Sound := by
    constructor
    case complete => exact UServiceFactory.Complete.loadService core extend loaded
    case numbered => rfl
    case backed => exact fun slot handle present => nomatch present
    case own => exact fun entry listed => nomatch listed
  have sound := run.invariant (fun sound moved => Sound.step sound moved) initial
  exact sound.imp fun _ sound => sound.linear

/-- A directory with one library. -/
def mailLibrary : List LibraryEntry :=
  [⟨true, ".dll", "mail", .ok ⟨1, true, some fun _ => true, some ⟨1⟩⟩⟩]

def mailFactory : UServiceFactory :=
  UServiceFactory.new.insertNode (.core "mail")
    ⟨⟨1, true, some fun _ => true, some ⟨1⟩⟩, some fun _ => true, some ⟨1⟩⟩

/-- An instance is made from a path with a separator at its end, moved over another
one and released; the moved handles are destroyed. -/
theorem instances_always_linear_mail : Transition.Always Linear (.new mailFactory)
    ((new mailFactory).runs [.createInstance 0 "core.mail." 0, .createInstance 1 "core.mail" 1,
      .moveAssign 0 0 "", .moveConstruct 2 0 "core.mail.", .moveAssign 2 1 "", .release 2,
      .destruct 0, .destruct 1, .destruct 2]) := by
  have loaded : Program.Ends (UServiceFactory.loadService mailLibrary []) .new mailFactory :=
    .inl ⟨(), rfl⟩
  exact instances_always_linear loaded (runs_path _ _)

end ServiceHandles
end Uranus
