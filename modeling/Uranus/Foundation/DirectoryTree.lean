import Mathlib.Data.List.Nodup

/-! Directory trees, with the entries of each directory in the order they are listed. -/
namespace Foundation

/-- The entries of a directory. -/
inductive Directory (N C : Type) where
  | empty
  | file (name : N) (content : C) (rest : Directory N C)
  | folder (name : N) (inner rest : Directory N C)

namespace Directory
variable {N C : Type} {directory : Directory N C} {place : List N} {content : C}

def names : Directory N C → List N
  | empty => []
  | file name _ rest => name :: rest.names
  | folder name _ rest => name :: rest.names

/-- The entries of one directory have different names, which meet `good`. -/
def Named (good : N → Prop) : Directory N C → Prop
  | empty => True
  | file name _ rest => good name ∧ name ∉ rest.names ∧ rest.Named good
  | folder name inner rest => good name ∧ name ∉ rest.names ∧ inner.Named good ∧ rest.Named good

/-- A file is found by the names of the folders down to it and its own. -/
inductive HasFile : Directory N C → List N → C → Prop
  | here (name : N) (content : C) (rest : Directory N C) :
      HasFile (file name content rest) [name] content
  | afterFile {rest : Directory N C} {place : List N} {content : C} (name : N) (first : C)
      (later : HasFile rest place content) : HasFile (file name first rest) place content
  | within {inner : Directory N C} {place : List N} {content : C} (name : N)
      (rest : Directory N C) (inside : HasFile inner place content) :
      HasFile (folder name inner rest) (name :: place) content
  | afterFolder {rest : Directory N C} {place : List N} {content : C} (name : N)
      (inner : Directory N C) (later : HasFile rest place content) :
      HasFile (folder name inner rest) place content

/-- The files in the order of a walk that enters a folder where it is listed. -/
def files : Directory N C → List (List N × C)
  | empty => []
  | file name content rest => ([name], content) :: rest.files
  | folder name inner rest => inner.files.map (Prod.map (name :: ·) id) ++ rest.files

theorem mem_files : (place, content) ∈ directory.files ↔ directory.HasFile place content := by
  constructor
  · intro member
    induction directory generalizing place with
    | empty => cases member
    | file name first rest ih =>
      rcases List.mem_cons.mp member with same | later
      · cases same
        exact .here name content rest
      · exact .afterFile name first (ih later)
    | folder name inner rest innerIh ih =>
      rcases List.mem_append.mp member with inside | later
      · obtain ⟨⟨below, stored⟩, listed, same⟩ := List.mem_map.mp inside
        cases same
        exact .within name rest (innerIh listed)
      · exact .afterFolder name inner (ih later)
  · intro has
    induction has with
    | here name content rest => exact List.mem_cons_self
    | afterFile name first later ih => exact List.mem_cons_of_mem _ ih
    | within name rest inside ih => exact List.mem_append_left _ (List.mem_map_of_mem ih)
    | afterFolder name inner later ih => exact List.mem_append_right _ ih

/-- The place of a file begins with an entry of the directory. -/
theorem HasFile.head (has : directory.HasFile place content) :
    ∃ name ∈ directory.names, ∃ rest, place = name :: rest := by
  induction has with
  | here name content rest => exact ⟨name, List.mem_cons_self, [], rfl⟩
  | afterFile name first later ih =>
    obtain ⟨head, member, rest, same⟩ := ih
    exact ⟨head, List.mem_cons_of_mem _ member, rest, same⟩
  | within name rest inside ih => exact ⟨name, List.mem_cons_self, _, rfl⟩
  | afterFolder name inner later ih =>
    obtain ⟨head, member, rest, same⟩ := ih
    exact ⟨head, List.mem_cons_of_mem _ member, rest, same⟩

/-- Where the names differ, no file is listed twice. -/
theorem files_nodup {good : N → Prop} (named : directory.Named good) :
    (directory.files.map Prod.fst).Nodup := by
  induction directory with
  | empty => exact List.nodup_nil
  | file name first rest ih =>
    obtain ⟨_, absent, named⟩ := named
    refine List.nodup_cons.mpr ⟨?_, ih named⟩
    intro member
    obtain ⟨⟨_, stored⟩, listed, rfl⟩ := List.mem_map.mp member
    obtain ⟨head, among, _, same⟩ := (mem_files.mp listed).head
    cases same
    exact absent among
  | folder name inner rest innerIh ih =>
    obtain ⟨_, absent, inside, named⟩ := named
    rw [files, List.map_append, List.map_map]
    refine List.nodup_append.mpr ⟨?_, ih named, ?_⟩
    · have deeper : ((inner.files.map Prod.fst).map (name :: ·)).Nodup :=
        (innerIh inside).map fun _ _ same => (List.cons.inj same).2
      rwa [List.map_map] at deeper
    · intro first member second other same
      obtain ⟨_, _, rfl⟩ := List.mem_map.mp member
      obtain ⟨⟨_, stored⟩, listed, rfl⟩ := List.mem_map.mp other
      obtain ⟨head, among, _, begins⟩ := (mem_files.mp listed).head
      cases same.trans begins
      exact absent among

/-- The names on the way to a file are good. -/
theorem HasFile.good {good : N → Prop} (has : directory.HasFile place content)
    (named : directory.Named good) : ∀ name ∈ place, good name := by
  induction has with
  | here name content rest =>
    intro other member
    cases List.mem_singleton.mp member
    exact named.1
  | afterFile name first later ih => exact ih named.2.2
  | within name rest inside ih =>
    exact List.forall_mem_cons.mpr ⟨named.1, ih named.2.2.1⟩
  | afterFolder name inner later ih => exact ih named.2.2.2

end Directory
end Foundation
