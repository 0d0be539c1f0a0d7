import Uranus.Foundation.Table

/-! Tables of tables, read by two keys. Whether an inner table is absent or empty
makes no difference to a reader. -/
namespace Foundation
variable {E K V : Type*} [DecidableEq E] [DecidableEq K]

abbrev NestedTable (E K V : Type*) := Table E (Table K V)

namespace Table

/-- Changes every entry of a table. -/
def mapValues (update : V → V) (m : Table K V) : Table K V where
  entries := m.entries.map fun entry => ⟨entry.1, update entry.2⟩
  nodupKeys := by
    have same : (m.entries.map fun entry => (⟨entry.1, update entry.2⟩ : Sigma fun _ : K => V)).keys
        = m.entries.keys := by
      simp [List.keys]
    rw [List.NodupKeys, same]
    exact m.nodupKeys

theorem lookup_mapValues (update : V → V) (m : Table K V) (k : K) :
    (mapValues update m).lookup k = (m.lookup k).map update := by
  apply Option.ext
  intro v
  rw [Option.map_eq_some_iff]
  constructor
  · intro present
    have member := List.of_mem_dlookup (Option.mem_def.mpr present)
    obtain ⟨entry, before, same⟩ := List.mem_map.mp member
    cases same
    exact ⟨entry.2, List.mem_dlookup m.nodupKeys before, rfl⟩
  · rintro ⟨w, present, rfl⟩
    have member := List.of_mem_dlookup (Option.mem_def.mpr present)
    exact List.mem_dlookup (mapValues update m).nodupKeys (List.mem_map.mpr ⟨⟨k, w⟩, member, rfl⟩)

theorem lookup_eraseIf_filter (drop : K → V → Bool) (m : Table K V) (k : K) :
    (eraseIf drop m).lookup k = (m.lookup k).filter fun v => !drop k v := by
  apply Option.ext
  intro v
  rw [Option.filter_eq_some_iff]
  constructor
  · intro present
    have member := List.of_mem_dlookup (Option.mem_def.mpr present)
    exact ⟨lookup_eraseIf present, (List.mem_filter.mp member).2⟩
  · rintro ⟨present, kept⟩
    have member := List.of_mem_dlookup (Option.mem_def.mpr present)
    exact List.mem_dlookup (eraseIf drop m).nodupKeys (List.mem_filter.mpr ⟨member, kept⟩)

end Table

namespace NestedTable
variable {n : NestedTable E K V} {e e' : E} {k k' : K}

def find (n : NestedTable E K V) (e : E) (k : K) : Option V := (n.lookup e).bind fun m => m.lookup k

/-- The inner table of a key, which is empty where there is none. -/
def inner (n : NestedTable E K V) (e : E) : Table K V := (n.lookup e).getD ∅

def put (e : E) (k : K) (v : V) (n : NestedTable E K V) : NestedTable E K V :=
  n.insert e ((n.inner e).insert k v)

/-- Removes an entry, and its inner table where nothing is left in it. -/
def remove (e : E) (k : K) (n : NestedTable E K V) : NestedTable E K V :=
  match n.lookup e with
  | none => n
  | some m => if (m.erase k).entries = [] then n.erase e else n.insert e (m.erase k)

/-- Removes a key from every inner table. -/
def removeKey (k : K) (n : NestedTable E K V) : NestedTable E K V :=
  Table.mapValues (fun m => m.erase k) n

/-- Drops the values that meet `drop` from every inner table. -/
def sweep (drop : V → Bool) (n : NestedTable E K V) : NestedTable E K V :=
  Table.mapValues (Table.eraseIf fun _ v => drop v) n

theorem inner_lookup (n : NestedTable E K V) (e : E) (k : K) :
    (n.inner e).lookup k = n.find e k := by
  rw [inner, find]
  cases n.lookup e with
  | none => rfl
  | some m => rfl

theorem find_put (n : NestedTable E K V) (e e' : E) (k k' : K) (v : V) :
    (n.put e k v).find e' k' = if e' = e ∧ k' = k then some v else n.find e' k' := by
  rw [find, put, Table.lookup_insert_ite]
  by_cases same : e' = e
  · subst same
    simp only [if_true, Option.bind_some, true_and, Table.lookup_insert_ite, inner_lookup]
  · simp only [same, if_false, false_and, find]

theorem find_remove (n : NestedTable E K V) (e e' : E) (k k' : K) :
    (n.remove e k).find e' k' = if e' = e ∧ k' = k then none else n.find e' k' := by
  rw [remove]
  cases present : n.lookup e with
  | none =>
    by_cases same : e' = e
    · subst same
      simp [find, present]
    · simp [same]
  | some m =>
    have erased : (m.erase k).lookup k' = if k' = k then none else m.lookup k' :=
      Table.lookup_erase_ite m k k'
    by_cases same : e' = e
    · subst same
      simp only [true_and, find, present, Option.bind_some]
      rw [← erased]
      split
      next none =>
        have empty : m.erase k = ∅ := AList.ext none
        rw [Table.lookup_erase_ite, if_pos rfl, empty]
        rfl
      next => rw [Table.lookup_insert_ite, if_pos rfl, Option.bind_some]
    · simp only [same, false_and, if_false, find]
      split
      · rw [Table.lookup_erase_ite, if_neg same]
      · rw [Table.lookup_insert_ite, if_neg same]

theorem find_removeKey (n : NestedTable E K V) (e : E) (k k' : K) :
    (n.removeKey k).find e k' = if k' = k then none else n.find e k' := by
  rw [find, removeKey, Table.lookup_mapValues, find]
  cases n.lookup e with
  | none => simp
  | some m => exact Table.lookup_erase_ite m k k'

theorem find_sweep (n : NestedTable E K V) (drop : V → Bool) (e : E) (k : K) :
    (n.sweep drop).find e k = (n.find e k).filter fun v => !drop v := by
  rw [find, sweep, Table.lookup_mapValues, find]
  cases n.lookup e with
  | none => rfl
  | some m => exact Table.lookup_eraseIf_filter _ m k

end NestedTable
end Foundation
