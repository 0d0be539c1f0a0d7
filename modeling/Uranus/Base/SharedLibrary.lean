import Uranus.Foundation.Path
import Uranus.Foundation.Table

/-! Handles of dynamic libraries, which share a control block. The block counts its
handles, and the library is closed with the last of them. -/
namespace Uranus
open Foundation

/-- `FSharedLibrary::FControlBlock`. -/
structure LibraryControl where
  handle : Nat
  refCount : Nat
deriving DecidableEq

/-- `FSharedLibrary`. Control blocks are numbered in the order they are made. -/
structure SharedLibrary where
  control : Option Nat
  handle : Option Nat
deriving DecidableEq

namespace SharedLibrary

def null : SharedLibrary := ⟨none, none⟩

def isValid (library : SharedLibrary) : Bool := library.control.isSome && library.handle.isSome

end SharedLibrary

/-- The control blocks that are not deleted. `opened` has the modules of all blocks,
`closed` the blocks whose module was closed, with that module. An access to a deleted
block is `dangling`. -/
structure LibraryControls where
  controls : Table Nat LibraryControl
  opened : List Nat
  closed : List (Nat × Nat)
  dangling : Bool

namespace LibraryControls

def new : LibraryControls := ⟨∅, [], [], false⟩

/-- The constructor with a path, where the module is loaded. -/
def load (module : Nat) (s : LibraryControls) : LibraryControls :=
  { s with
    controls := s.controls.insert s.opened.length ⟨module, 1⟩
    opened := s.opened ++ [module] }

/-- The increment in the copy operations. -/
def share : Option Nat → LibraryControls → LibraryControls
  | none, s => s
  | some block, s =>
    match s.controls.lookup block with
    | none => { s with dangling := true }
    | some control =>
      { s with controls :=
          s.controls.insert block { control with refCount := control.refCount + 1 } }

/-- What `Release` does to the control block. -/
def release : Option Nat → LibraryControls → LibraryControls
  | none, s => s
  | some block, s =>
    match s.controls.lookup block with
    | none => { s with dangling := true }
    | some control =>
      if control.refCount - 1 = 0 then
        { s with
          controls := s.controls.erase block
          closed := s.closed ++ [(block, control.handle)] }
      else
        { s with controls :=
            s.controls.insert block { control with refCount := control.refCount - 1 } }

/-- The blocks are counted by the handles that point to them, and there are those that
have a handle. -/
structure Counted (s : LibraryControls) (refs : Multiset Nat) : Prop where
  counted : ∀ block, (s.controls.lookup block).elim 0 LibraryControl.refCount = refs.count block
  positive : ∀ block control, s.controls.lookup block = some control → 0 < control.refCount
  own : ∀ block control, s.controls.lookup block = some control →
    s.opened[block]? = some control.handle
  closedOnce : (s.closed.map Prod.fst).Nodup
  ended : ∀ block, block ∈ s.closed.map Prod.fst ↔
    block < s.opened.length ∧ s.controls.lookup block = none
  closedOwn : ∀ entry ∈ s.closed, s.opened[entry.1]? = some entry.2
  safe : s.dangling = false

namespace Counted
variable {s : LibraryControls} {refs : Multiset Nat} {block : Nat} {control : LibraryControl}

theorem fresh : Counted new 0 where
  counted block := rfl
  positive block control found := by cases found
  own block control found := by cases found
  closedOnce := List.nodup_nil
  ended block := by simp [new]
  closedOwn entry member := by cases member
  safe := rfl

theorem present (counted : Counted s refs) (pointed : block ∈ refs) :
    ∃ control, s.controls.lookup block = some control ∧ control.refCount = refs.count block := by
  have count := counted.counted block
  have some := Multiset.count_pos.mpr pointed
  cases found : s.controls.lookup block with
  | none =>
    rw [found, Option.elim_none] at count
    omega
  | some control =>
    rw [found, Option.elim_some] at count
    exact ⟨control, rfl, count⟩

theorem within (counted : Counted s refs) (found : s.controls.lookup block = some control) :
    block < s.opened.length :=
  (List.getElem?_eq_some_iff.mp (counted.own block control found)).1

theorem within_of_pointed (counted : Counted s refs) (pointed : block ∈ refs) :
    block < s.opened.length := by
  obtain ⟨control, found, _⟩ := counted.present pointed
  exact counted.within found

/-- A block that no handle points to is deleted, and the others are not. -/
theorem absent_iff (counted : Counted s refs) : s.controls.lookup block = none ↔ block ∉ refs := by
  constructor
  · intro absent pointed
    obtain ⟨control, found, _⟩ := counted.present pointed
    cases absent.symm.trans found
  · intro alone
    by_contra found
    obtain ⟨control, found⟩ := Option.ne_none_iff_exists'.mp found
    have count := counted.counted block
    have positive := counted.positive block control found
    rw [found, Option.elim_some, Multiset.count_eq_zero.mpr alone] at count
    omega

/-- Another count for a block that there is. -/
theorem recount (counted : Counted s refs) (found : s.controls.lookup block = some control)
    {count : Nat} {later : Multiset Nat} (positive : 0 < count) (own : later.count block = count)
    (others : ∀ other, other ≠ block → later.count other = refs.count other) :
    Counted { s with controls := s.controls.insert block { control with refCount := count } }
      later where
  counted other := by
    by_cases same : other = block
    · subst same
      rw [Table.lookup_insert_ite, if_pos rfl]
      exact own.symm
    · rw [Table.lookup_insert_ite, if_neg same, others other same]
      exact counted.counted other
  positive other stored lookup := by
    rw [Table.lookup_insert_ite] at lookup
    split at lookup
    · cases lookup
      exact positive
    · exact counted.positive other stored lookup
  own other stored lookup := by
    rw [Table.lookup_insert_ite] at lookup
    split at lookup
    next same =>
      cases lookup
      rw [same]
      exact counted.own block control found
    next => exact counted.own other stored lookup
  closedOnce := counted.closedOnce
  ended other := by
    rw [counted.ended other, Table.lookup_insert_ite]
    split
    next same =>
      subst same
      simp only [found, reduceCtorEq]
    next => rfl
  closedOwn := counted.closedOwn
  safe := counted.safe

theorem share (counted : Counted s refs) (pointed : block ∈ refs) :
    Counted (s.share (some block)) (block ::ₘ refs) := by
  obtain ⟨control, found, count⟩ := counted.present pointed
  simp only [LibraryControls.share, found]
  apply counted.recount found (Nat.succ_pos _)
  · rw [Multiset.count_cons_self, count]
  · intro other different
    rw [Multiset.count_cons_of_ne different]

/-- The library is closed with its last handle. -/
theorem close (counted : Counted s (block ::ₘ refs))
    (found : s.controls.lookup block = some control) (alone : block ∉ refs) :
    Counted { s with
      controls := s.controls.erase block
      closed := s.closed ++ [(block, control.handle)] } refs where
  counted other := by
    by_cases same : other = block
    · rw [same, Table.lookup_erase_ite, if_pos rfl, Multiset.count_eq_zero.mpr alone]
      rfl
    · rw [Table.lookup_erase_ite, if_neg same, ← Multiset.count_cons_of_ne same refs]
      exact counted.counted other
  positive other stored lookup := by
    rw [Table.lookup_erase_ite] at lookup
    split at lookup
    · cases lookup
    · exact counted.positive other stored lookup
  own other stored lookup := by
    rw [Table.lookup_erase_ite] at lookup
    split at lookup
    · cases lookup
    · exact counted.own other stored lookup
  closedOnce := by
    rw [List.map_append]
    refine List.nodup_append.mpr ⟨counted.closedOnce, List.nodup_singleton _, ?_⟩
    intro earlier member other last same
    cases List.mem_singleton.mp last
    have gone := ((counted.ended earlier).mp member).2
    rw [same] at gone
    cases gone.symm.trans found
  ended other := by
    have within := counted.within found
    rw [List.map_append, List.mem_append, counted.ended other, Table.lookup_erase_ite]
    by_cases same : other = block
    · simp [same, within]
    · simp [same]
  closedOwn entry member := by
    rcases List.mem_append.mp member with earlier | last
    · exact counted.closedOwn entry earlier
    · cases List.mem_singleton.mp last
      exact counted.own block control found
  safe := counted.safe

theorem release (counted : Counted s (block ::ₘ refs)) :
    Counted (s.release (some block)) refs := by
  obtain ⟨control, found, count⟩ := counted.present (Multiset.mem_cons_self block refs)
  rw [Multiset.count_cons_self] at count
  simp only [LibraryControls.release, found]
  split
  next last => exact counted.close found (Multiset.count_eq_zero.mp (by omega))
  next more =>
    apply counted.recount found (by omega)
    · omega
    · intro other different
      rw [Multiset.count_cons_of_ne different]

/-- No block has the next number. -/
theorem unused (counted : Counted s refs) (above : s.opened.length ≤ block) :
    s.controls.lookup block = none := by
  by_contra some
  obtain ⟨control, found⟩ := Option.ne_none_iff_exists'.mp some
  have within := counted.within found
  omega

theorem load (counted : Counted s refs) (module : Nat) :
    Counted (s.load module) (s.opened.length ::ₘ refs) where
  counted block := by
    by_cases same : block = s.opened.length
    · have alone := counted.absent_iff.mp (counted.unused (Nat.le_of_eq same.symm))
      rw [LibraryControls.load, Table.lookup_insert_ite, if_pos same, same,
        Multiset.count_cons_self, ← same, Multiset.count_eq_zero.mpr alone]
      rfl
    · rw [LibraryControls.load, Table.lookup_insert_ite, if_neg same,
        Multiset.count_cons_of_ne same]
      exact counted.counted block
  positive block control lookup := by
    rw [LibraryControls.load, Table.lookup_insert_ite] at lookup
    split at lookup
    · cases lookup
      exact Nat.one_pos
    · exact counted.positive block control lookup
  own block control lookup := by
    rw [LibraryControls.load, Table.lookup_insert_ite] at lookup
    split at lookup
    next same =>
      cases lookup
      rw [same]
      exact List.getElem?_concat_length
    next =>
      rw [LibraryControls.load, List.getElem?_append_left (counted.within lookup)]
      exact counted.own block control lookup
  closedOnce := counted.closedOnce
  ended block := by
    simp only [LibraryControls.load, counted.ended block, List.length_append,
      List.length_singleton, Table.lookup_insert_ite]
    by_cases same : block = s.opened.length
    · simp [same]
    · simp only [if_neg same, and_congr_left_iff]
      omega
  closedOwn entry member := by
    have stored := counted.closedOwn entry member
    have within := (List.getElem?_eq_some_iff.mp stored).1
    rw [LibraryControls.load, List.getElem?_append_left within]
    exact stored
  safe := counted.safe

/-- The copy of a handle, which may be empty. -/
theorem share_control (counted : Counted s refs) {control : Option Nat}
    (pointed : ∀ block, control = some block → block ∈ refs) :
    Counted (s.share control) ((control.toList : Multiset Nat) + refs) := by
  cases control with
  | none => simpa [LibraryControls.share] using counted
  | some block => simpa using counted.share (pointed block rfl)

theorem release_control {control : Option Nat}
    (counted : Counted s ((control.toList : Multiset Nat) + refs)) :
    Counted (s.release control) refs := by
  cases control with
  | none => simpa [LibraryControls.release] using counted
  | some block => exact Counted.release (by simpa using counted)

end Counted

@[simp] theorem opened_share (control : Option Nat) (s : LibraryControls) :
    (s.share control).opened = s.opened := by
  unfold share
  split
  · rfl
  · split <;> rfl

@[simp] theorem opened_release (control : Option Nat) (s : LibraryControls) :
    (s.release control).opened = s.opened := by
  unfold release
  split
  · rfl
  · split
    · rfl
    · split <;> rfl

end LibraryControls

/-- The handles of a program, with the control blocks they share. -/
structure SharedLibraries where
  blocks : LibraryControls
  handles : Table Nat SharedLibrary

inductive SharedLibraryCall where
  | construct (slot : Nat)
  | load (slot module : Nat)
  | copyConstruct (slot rhs : Nat)
  | copyAssign (slot rhs : Nat)
  | moveConstruct (slot rhs : Nat)
  | moveAssign (slot rhs : Nat)
  | swap (slot rhs : Nat)
  | reset (slot : Nat)
  | destruct (slot : Nat)
deriving DecidableEq

namespace SharedLibraries

def new : SharedLibraries := ⟨.new, ∅⟩

def setHandle (slot : Nat) (library : SharedLibrary) (s : SharedLibraries) : SharedLibraries :=
  { s with handles := s.handles.insert slot library }

/-- `Release` of a handle. -/
def release (slot : Nat) (library : SharedLibrary) (s : SharedLibraries) : SharedLibraries :=
  { s with blocks := s.blocks.release library.control }.setHandle slot .null

/-- What both copy operations do last. -/
def copy (slot : Nat) (library : SharedLibrary) (s : SharedLibraries) : SharedLibraries :=
  { s.setHandle slot library with blocks := s.blocks.share library.control }

/-- What both move operations do last. -/
def move (slot rhs : Nat) (library : SharedLibrary) (s : SharedLibraries) : SharedLibraries :=
  (s.setHandle slot library).setHandle rhs .null

/-- A new handle comes into a free slot, and other calls are about handles there are.
`Reset` swaps the handle with an empty one, which releases what it took over. -/
def next (s : SharedLibraries) : SharedLibraryCall → Option SharedLibraries
  | .construct slot =>
    if (s.handles.lookup slot).isSome then none else some (s.setHandle slot .null)
  | .load slot module =>
    if (s.handles.lookup slot).isSome then none
    else some ({ s with blocks := s.blocks.load module }.setHandle slot
      ⟨some s.blocks.opened.length, some module⟩)
  | .copyConstruct slot rhs =>
    if (s.handles.lookup slot).isSome then none
    else (s.handles.lookup rhs).map fun library => s.copy slot library
  | .copyAssign slot rhs =>
    (s.handles.lookup slot).bind fun own => (s.handles.lookup rhs).map fun library =>
      if slot = rhs then s else (s.release slot own).copy slot library
  | .moveConstruct slot rhs =>
    if (s.handles.lookup slot).isSome then none
    else (s.handles.lookup rhs).map fun library => s.move slot rhs library
  | .moveAssign slot rhs =>
    (s.handles.lookup slot).bind fun own => (s.handles.lookup rhs).map fun library =>
      if slot = rhs then s else (s.release slot own).move slot rhs library
  | .swap slot rhs =>
    (s.handles.lookup slot).bind fun own => (s.handles.lookup rhs).map fun library =>
      (s.setHandle slot library).setHandle rhs own
  | .reset slot => (s.handles.lookup slot).map fun own => s.release slot own
  | .destruct slot => (s.handles.lookup slot).map fun own =>
      { s.release slot own with handles := s.handles.erase slot }

def Step (s : SharedLibraries) (call : SharedLibraryCall) (later : SharedLibraries) : Prop :=
  s.next call = some later

/-- The blocks that handles point to, once for each handle. -/
def pointers (s : SharedLibraries) : Multiset Nat := Table.gather SharedLibrary.control s.handles

/-- Block `block` was closed. -/
def Closed (s : SharedLibraries) (block : Nat) : Prop := block ∈ s.blocks.closed.map Prod.fst

/-- The block counts its handles. Its library is closed once, when it has none, and
until then the handles on it are the valid ones. -/
structure Shared (s : SharedLibraries) : Prop where
  counted : ∀ block control, s.blocks.controls.lookup block = some control →
    control.refCount = s.pointers.count block
  closedOnce : (s.blocks.closed.map Prod.fst).Nodup
  closedLast : ∀ block < s.blocks.opened.length, s.Closed block ↔ block ∉ s.pointers
  closedOwn : ∀ entry ∈ s.blocks.closed, s.blocks.opened[entry.1]? = some entry.2
  valid : ∀ slot library, s.handles.lookup slot = some library →
    (library.isValid = true ↔ ∃ block < s.blocks.opened.length,
      library.control = some block ∧ ¬ s.Closed block)
  safe : s.blocks.dangling = false

/-- A handle has the module of its block. -/
structure Sound (s : SharedLibraries) : Prop where
  counted : s.blocks.Counted s.pointers
  handle : ∀ slot library, s.handles.lookup slot = some library →
    library.handle = library.control.bind (s.blocks.opened[·]?)

variable {s later : SharedLibraries} {library own : SharedLibrary} {slot rhs module : Nat}
  {call : SharedLibraryCall}

theorem Sound.shared (sound : s.Sound) : s.Shared where
  counted block control found := by
    have count := sound.counted.counted block
    rw [found, Option.elim_some] at count
    exact count
  closedOnce := sound.counted.closedOnce
  closedLast block within := by
    rw [Closed, sound.counted.ended block, sound.counted.absent_iff]
    simp [within]
  closedOwn := sound.counted.closedOwn
  valid slot library present := by
    have handle := sound.handle slot library present
    constructor
    · intro valid
      obtain ⟨block, points⟩ := Option.isSome_iff_exists.mp (Bool.and_eq_true_iff.mp valid).1
      have pointed : block ∈ s.pointers := Table.mem_gather.mpr ⟨slot, library, present, points⟩
      refine ⟨block, sound.counted.within_of_pointed pointed, points, ?_⟩
      rw [Closed, sound.counted.ended block, sound.counted.absent_iff]
      exact fun closed => closed.2 pointed
    · rintro ⟨block, within, points, _⟩
      rw [SharedLibrary.isValid, handle, points]
      simp [within]
  safe := sound.counted.safe

theorem pointers_setHandle (s : SharedLibraries) (slot : Nat) (library : SharedLibrary) :
    (s.setHandle slot library).pointers = (library.control.toList : Multiset Nat) +
      Table.gather SharedLibrary.control (s.handles.erase slot) :=
  Table.gather_insert _ _ _ _

theorem pointers_present (present : s.handles.lookup slot = some own) :
    s.pointers = (own.control.toList : Multiset Nat) +
      Table.gather SharedLibrary.control (s.handles.erase slot) :=
  Table.gather_present _ present

/-- In place of a handle without a block, another adds what it points to. -/
theorem pointers_setHandle_unpointed
    (free : (s.handles.lookup slot).bind SharedLibrary.control = none) (library : SharedLibrary) :
    (s.setHandle slot library).pointers = (library.control.toList : Multiset Nat) + s.pointers := by
  rw [pointers_setHandle]
  cases present : s.handles.lookup slot with
  | none => rw [Table.erase_absent present]; rfl
  | some own =>
    rw [present, Option.bind_some] at free
    rw [pointers_present present, free]
    simp

theorem pointers_exchange (present : s.handles.lookup slot = some own) (library : SharedLibrary) :
    (own.control.toList : Multiset Nat) + (s.setHandle slot library).pointers =
      (library.control.toList : Multiset Nat) + s.pointers :=
  Table.gather_overwrite _ present library

theorem lookup_setHandle (s : SharedLibraries) (slot other : Nat) (library : SharedLibrary) :
    (s.setHandle slot library).handles.lookup other =
      if other = slot then some library else s.handles.lookup other :=
  Table.lookup_insert_ite _ _ _ _

/-- A move passes the block on. -/
theorem pointers_move (free : (s.handles.lookup slot).bind SharedLibrary.control = none)
    (different : slot ≠ rhs) (present : s.handles.lookup rhs = some library) :
    (s.move slot rhs library).pointers = s.pointers := by
  have kept : (s.setHandle slot library).handles.lookup rhs = some library := by
    rw [lookup_setHandle, if_neg different.symm, present]
  have taken := pointers_exchange kept .null
  rw [pointers_setHandle_unpointed free] at taken
  have passed := add_left_cancel (taken.trans (add_left_comm _ _ _))
  simpa [move, SharedLibrary.null] using passed

theorem pointers_swap (first : s.handles.lookup slot = some own)
    (second : s.handles.lookup rhs = some library) :
    ((s.setHandle slot library).setHandle rhs own).pointers = s.pointers := by
  have kept : (s.setHandle slot library).handles.lookup rhs = some library := by
    rw [lookup_setHandle, second]
    split <;> rfl
  have taken := pointers_exchange kept own
  rw [pointers_exchange first library] at taken
  exact add_left_cancel taken

namespace Sound

theorem fresh : new.Sound where
  counted := .fresh
  handle slot library present := by cases present

/-- The handles stay what they were, but for one that has the module of its block. -/
theorem setHandle (sound : s.Sound) (blocks : LibraryControls)
    (counted : blocks.Counted (s.setHandle slot library).pointers)
    (kept : ∀ block < s.blocks.opened.length, blocks.opened[block]? = s.blocks.opened[block]?)
    (own : library.handle = library.control.bind (blocks.opened[·]?)) :
    Sound { s.setHandle slot library with blocks := blocks } where
  counted := counted
  handle other stored present := by
    rw [lookup_setHandle] at present
    split at present
    · cases present
      exact own
    · have handle := sound.handle other stored present
      rw [handle]
      cases points : stored.control with
      | none => rfl
      | some block =>
        have pointed : block ∈ s.pointers := Table.mem_gather.mpr ⟨other, stored, present, points⟩
        exact (kept block (sound.counted.within_of_pointed pointed)).symm

theorem release (sound : s.Sound) (present : s.handles.lookup slot = some own) :
    (s.release slot own).Sound := by
  refine sound.setHandle _ ?_ (fun block _ => by rw [LibraryControls.opened_release]) rfl
  have counted := sound.counted
  rw [pointers_present present] at counted
  simpa [pointers_setHandle, SharedLibrary.null] using counted.release_control

theorem copy (sound : s.Sound)
    (free : (s.handles.lookup slot).bind SharedLibrary.control = none)
    (present : s.handles.lookup rhs = some library) : (s.copy slot library).Sound := by
  refine sound.setHandle _ ?_ (fun block _ => by rw [LibraryControls.opened_share]) ?_
  · rw [pointers_setHandle_unpointed free]
    apply sound.counted.share_control
    intro block points
    exact Table.mem_gather.mpr ⟨rhs, library, present, points⟩
  · rw [LibraryControls.opened_share]
    exact sound.handle rhs library present

theorem moved (sound : s.Sound)
    (free : (s.handles.lookup slot).bind SharedLibrary.control = none) (different : slot ≠ rhs)
    (present : s.handles.lookup rhs = some library) : (s.move slot rhs library).Sound where
  counted := by
    rw [pointers_move free different present]
    exact sound.counted
  handle other stored found := by
    rw [move, lookup_setHandle, lookup_setHandle] at found
    split at found
    · cases found
      rfl
    · split at found
      · cases found
        exact sound.handle rhs _ present
      · exact sound.handle other stored found

theorem unpointed_of_absent (free : ¬ (s.handles.lookup slot).isSome = true) :
    (s.handles.lookup slot).bind SharedLibrary.control = none := by
  rw [Option.not_isSome_iff_eq_none.mp free]
  rfl

/-- A released handle points to no block, and the others stay. -/
theorem release_frame (own : SharedLibrary) (different : slot ≠ rhs)
    (present : s.handles.lookup rhs = some library) :
    ((s.release slot own).handles.lookup slot).bind SharedLibrary.control = none ∧
      (s.release slot own).handles.lookup rhs = some library := by
  rw [SharedLibraries.release, lookup_setHandle, lookup_setHandle, if_pos rfl,
    if_neg different.symm]
  exact ⟨rfl, present⟩

theorem construct (sound : s.Sound) (free : ¬ (s.handles.lookup slot).isSome = true) :
    (s.setHandle slot .null).Sound := by
  refine sound.setHandle s.blocks ?_ (fun _ _ => rfl) rfl
  rw [pointers_setHandle_unpointed (unpointed_of_absent free)]
  simpa [SharedLibrary.null] using sound.counted

theorem load (sound : s.Sound) (free : ¬ (s.handles.lookup slot).isSome = true) (module : Nat) :
    ({ s with blocks := s.blocks.load module }.setHandle slot
      ⟨some s.blocks.opened.length, some module⟩).Sound := by
  refine sound.setHandle (s.blocks.load module) ?_ ?_ ?_
  · rw [pointers_setHandle_unpointed (unpointed_of_absent free)]
    exact sound.counted.load module
  · intro block within
    rw [LibraryControls.load, List.getElem?_append_left within]
  · exact List.getElem?_concat_length.symm

theorem swap (sound : s.Sound) (first : s.handles.lookup slot = some own)
    (second : s.handles.lookup rhs = some library) :
    ((s.setHandle slot library).setHandle rhs own).Sound where
  counted := by
    rw [pointers_swap first second]
    exact sound.counted
  handle other stored found := by
    rw [lookup_setHandle, lookup_setHandle] at found
    split at found
    · cases found
      exact sound.handle slot _ first
    · split at found
      · cases found
        exact sound.handle rhs _ second
      · exact sound.handle other stored found

theorem destruct (sound : s.Sound) (present : s.handles.lookup slot = some own) :
    Sound { s.release slot own with handles := s.handles.erase slot } where
  counted := by
    have counted := sound.counted
    rw [pointers_present present] at counted
    exact counted.release_control
  handle other stored found := by
    rw [Table.lookup_erase_ite] at found
    split at found
    · cases found
    · have handle := sound.handle other stored found
      rwa [← LibraryControls.opened_release own.control s.blocks] at handle

theorem step (sound : s.Sound) (moved : Step s call later) : later.Sound := by
  cases call with
  | construct slot =>
    obtain ⟨free, taken⟩ := Option.ite_none_left_eq_some.mp moved
    cases taken
    exact sound.construct free
  | load slot module =>
    obtain ⟨free, taken⟩ := Option.ite_none_left_eq_some.mp moved
    cases taken
    exact sound.load free module
  | copyConstruct slot rhs =>
    obtain ⟨free, taken⟩ := Option.ite_none_left_eq_some.mp moved
    obtain ⟨library, present, rfl⟩ := Option.map_eq_some_iff.mp taken
    exact sound.copy (unpointed_of_absent free) present
  | copyAssign slot rhs =>
    obtain ⟨own, first, taken⟩ := Option.bind_eq_some_iff.mp moved
    obtain ⟨library, second, rfl⟩ := Option.map_eq_some_iff.mp taken
    split
    · exact sound
    next different =>
      obtain ⟨free, present⟩ := release_frame own different second
      exact (sound.release first).copy free present
  | moveConstruct slot rhs =>
    obtain ⟨free, taken⟩ := Option.ite_none_left_eq_some.mp moved
    obtain ⟨library, present, rfl⟩ := Option.map_eq_some_iff.mp taken
    refine sound.moved (unpointed_of_absent free) ?_ present
    rintro rfl
    exact free (by simp [present])
  | moveAssign slot rhs =>
    obtain ⟨own, first, taken⟩ := Option.bind_eq_some_iff.mp moved
    obtain ⟨library, second, rfl⟩ := Option.map_eq_some_iff.mp taken
    split
    · exact sound
    next different =>
      obtain ⟨free, present⟩ := release_frame own different second
      exact (sound.release first).moved free different present
  | swap slot rhs =>
    obtain ⟨own, first, taken⟩ := Option.bind_eq_some_iff.mp moved
    obtain ⟨library, second, rfl⟩ := Option.map_eq_some_iff.mp taken
    exact sound.swap first second
  | reset slot =>
    obtain ⟨own, present, rfl⟩ := Option.map_eq_some_iff.mp moved
    exact sound.release present
  | destruct slot =>
    obtain ⟨own, present, rfl⟩ := Option.map_eq_some_iff.mp moved
    exact sound.destruct present

end Sound

/-- Along every run of calls on handles, the blocks count their handles, and a library
is closed once, in the step that takes its last handle away. -/
theorem always_shared {path : List (SharedLibraryCall × SharedLibraries)}
    (run : Transition.Path Step new path) : Transition.Always Shared new path := by
  have sound := run.invariant (fun sound moved => Sound.step sound moved) Sound.fresh
  exact sound.imp fun _ sound => sound.shared

def runs (s : SharedLibraries) (calls : List SharedLibraryCall) :
    List (SharedLibraryCall × SharedLibraries) :=
  Transition.trace next s calls

/-- Two handles of one library, of which one is assigned to the other and to itself. -/
theorem always_shared_aliases : Transition.Always Shared new
    (new.runs [.load 0 7, .copyConstruct 1 0, .copyAssign 0 1, .copyAssign 0 0, .moveAssign 0 1,
      .load 2 8, .swap 0 2, .reset 0, .destruct 2]) :=
  always_shared (Transition.trace_path id _)

end SharedLibraries
end Uranus
