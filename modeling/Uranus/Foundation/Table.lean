import Mathlib.Data.List.AList
import Mathlib.Algebra.Order.Group.Multiset
import Mathlib.Data.Finset.Card

/-! Finite tables with unique keys, on Mathlib's association lists. `gather`
is the multiset of what the entries of a table point to, so that counting
references to an object is a matter of one insertion or one erasure. -/
namespace Foundation
variable {K V B : Type*} [DecidableEq K]

abbrev Table (K V : Type*) := AList fun _ : K => V

namespace Table

def size (m : Table K V) : Nat := m.entries.length

omit [DecidableEq K] in
@[simp] theorem size_empty : size (∅ : Table K V) = 0 := rfl

theorem lookup_insert_ite (m : Table K V) (k k' : K) (v : V) :
    (m.insert k v).lookup k' = if k' = k then some v else m.lookup k' := by
  by_cases same : k' = k
  · subst same
    simp
  · simp [same, AList.lookup_insert_ne same]

theorem lookup_erase_ite (m : Table K V) (k k' : K) :
    (m.erase k).lookup k' = if k' = k then none else m.lookup k' := by
  by_cases same : k' = k
  · subst same
    simp
  · simp [same, AList.lookup_erase_ne same]

theorem lookup_insert_update (m : Table K V) (k : K) (v : V) :
    (m.insert k v).lookup = Function.update m.lookup k (some v) := by
  funext k'
  rw [lookup_insert_ite, Function.update_apply]

theorem lookup_erase_update (m : Table K V) (k : K) :
    (m.erase k).lookup = Function.update m.lookup k none := by
  funext k'
  rw [lookup_erase_ite, Function.update_apply]

/-- A present key splits the entries into its own and the others. -/
theorem entries_perm {m : Table K V} {k : K} {v : V} (present : m.lookup k = some v) :
    m.entries.Perm (⟨k, v⟩ :: (m.erase k).entries) := by
  have member : (⟨k, v⟩ : Sigma fun _ : K => V) ∈ m.entries :=
    List.of_mem_dlookup (Option.mem_def.mpr present)
  obtain ⟨v', before, after, absent, split, erased⟩ :=
    List.exists_of_kerase (List.mem_keys_of_mem member)
  have same : v = v' := by
    apply m.nodupKeys.eq_of_mk_mem member
    simp [split]
  subst same
  change m.entries.Perm (⟨k, v⟩ :: List.kerase k m.entries)
  rw [erased, split]
  exact List.perm_middle

omit [DecidableEq K] in
theorem entry_of_nonempty {m : Table K V} (nonempty : m ≠ ∅) : ∃ k v, ⟨k, v⟩ ∈ m.entries := by
  cases entries : m.entries with
  | nil => exact absurd (AList.ext entries) nonempty
  | cons entry rest => exact ⟨entry.1, entry.2, List.mem_cons_self⟩

theorem exists_of_size {m : Table K V} (filled : size m ≠ 0) : ∃ k v, m.lookup k = some v := by
  have nonempty : m ≠ ∅ := by
    rintro rfl
    exact filled size_empty
  obtain ⟨k, v, member⟩ := entry_of_nonempty nonempty
  exact ⟨k, v, AList.mem_lookup_iff.mpr member⟩

theorem size_erase {m : Table K V} {k : K} {v : V} (present : m.lookup k = some v) :
    size (m.erase k) + 1 = size m := by
  simpa [size] using (entries_perm present).length_eq.symm

theorem erase_insert (m : Table K V) (k : K) (v : V) : (m.insert k v).erase k = m.erase k :=
  AList.ext (List.kerase_cons_eq rfl)

theorem erase_absent {m : Table K V} {k : K} (absent : m.lookup k = none) : m.erase k = m :=
  AList.ext (List.kerase_of_notMem_keys (AList.lookup_eq_none.mp absent))

theorem size_insert_fresh {m : Table K V} {k : K} {v : V} (absent : m.lookup k = none) :
    size (m.insert k v) = size m + 1 := by
  rw [size, AList.entries_insert_of_notMem (AList.lookup_eq_none.mp absent)]
  rfl

theorem size_insert_present {m : Table K V} {k : K} {v w : V} (present : m.lookup k = some w) :
    size (m.insert k v) = size m := by
  have erased := size_erase present
  simp only [size, AList.entries_insert, List.length_cons] at erased ⊢
  exact erased

def gather (f : V → Option B) (m : Table K V) : Multiset B :=
  (m.entries.filterMap fun entry => f entry.2 : List B)

omit [DecidableEq K] in
@[simp] theorem gather_empty (f : V → Option B) : gather f (∅ : Table K V) = 0 := rfl

theorem gather_insert (f : V → Option B) (m : Table K V) (k : K) (v : V) :
    gather f (m.insert k v) = ((f v).toList : Multiset B) + gather f (m.erase k) := by
  change ((List.filterMap _ (⟨k, v⟩ :: (m.erase k).entries) : List B) : Multiset B) = _
  cases pointed : f v with
  | none => simp [gather, pointed]
  | some b => simp [gather, pointed]

theorem gather_present (f : V → Option B) {m : Table K V} {k : K} {v : V}
    (present : m.lookup k = some v) :
    gather f m = ((f v).toList : Multiset B) + gather f (m.erase k) := by
  have perm := (entries_perm present).filterMap fun entry => f entry.2
  rw [gather, Multiset.coe_eq_coe.mpr perm]
  cases pointed : f v with
  | none => simp [gather, pointed]
  | some b => simp [gather, pointed]

theorem gather_insert_fresh (f : V → Option B) {m : Table K V} {k : K} (v : V)
    (absent : m.lookup k = none) :
    gather f (m.insert k v) = ((f v).toList : Multiset B) + gather f m := by
  rw [gather_insert, erase_absent absent]

/-- Overwriting an entry exchanges what it points to. -/
theorem gather_overwrite (f : V → Option B) {m : Table K V} {k : K} {v : V}
    (present : m.lookup k = some v) (w : V) :
    ((f v).toList : Multiset B) + gather f (m.insert k w) =
      ((f w).toList : Multiset B) + gather f m := by
  rw [gather_insert, gather_present f present, add_left_comm]

theorem mem_gather {f : V → Option B} {m : Table K V} {b : B} :
    b ∈ gather f m ↔ ∃ k v, m.lookup k = some v ∧ f v = some b := by
  simp only [gather, Multiset.mem_coe, List.mem_filterMap]
  constructor
  · rintro ⟨⟨k, v⟩, member, pointed⟩
    exact ⟨k, v, List.mem_dlookup m.nodupKeys member, pointed⟩
  · rintro ⟨k, v, present, pointed⟩
    exact ⟨⟨k, v⟩, List.of_mem_dlookup (Option.mem_def.mpr present), pointed⟩

/-- The entries as a multiset. -/
def pairs (m : Table K V) : Multiset (K × V) :=
  (m.entries.map fun entry => (entry.1, entry.2) : List (K × V))

omit [DecidableEq K] in
@[simp] theorem pairs_empty : pairs (∅ : Table K V) = 0 := rfl

theorem pairs_present {m : Table K V} {k : K} {v : V} (present : m.lookup k = some v) :
    pairs m = (k, v) ::ₘ pairs (m.erase k) := by
  have perm := (entries_perm present).map fun entry => (entry.1, entry.2)
  rw [pairs, Multiset.coe_eq_coe.mpr perm]
  rfl

theorem pairs_erase_le (m : Table K V) (k : K) : pairs (m.erase k) ≤ pairs m :=
  Multiset.coe_le.mpr (((List.kerase_sublist k m.entries).map _).subperm)

theorem pairs_insert_le (m : Table K V) (k : K) (v : V) :
    pairs (m.insert k v) ≤ (k, v) ::ₘ pairs m :=
  (Multiset.cons_le_cons_iff (k, v)).mpr (pairs_erase_le m k)

theorem mem_pairs {m : Table K V} {k : K} {v : V} : (k, v) ∈ pairs m ↔ m.lookup k = some v := by
  simp only [pairs, Multiset.mem_coe, List.mem_map]
  constructor
  · rintro ⟨entry, member, same⟩
    cases same
    exact List.mem_dlookup m.nodupKeys member
  · intro present
    exact ⟨⟨k, v⟩, List.of_mem_dlookup (Option.mem_def.mpr present), rfl⟩

omit [DecidableEq K] in
/-- No key stands twice. -/
theorem pairs_keys_nodup (m : Table K V) : ((pairs m).map Prod.fst).Nodup := by
  have same : (pairs m).map Prod.fst = (m.keys : Multiset K) := by
    simp only [pairs, Multiset.map_coe, List.map_map]
    rfl
  rw [same]
  exact Multiset.coe_nodup.mpr (AList.keys_nodup m)

/-- Changes the entry of a key, where there is one. -/
def modify (k : K) (update : V → V) (m : Table K V) : Table K V :=
  match m.lookup k with
  | some v => m.insert k (update v)
  | none => m

theorem lookup_modify (m : Table K V) (k k' : K) (update : V → V) :
    (modify k update m).lookup k' = if k' = k then (m.lookup k).map update else m.lookup k' := by
  unfold modify
  split
  next v present =>
    rw [lookup_insert_ite, present]
    rfl
  next absent =>
    split
    next same => rw [same, absent, Option.map_none]
    next => rfl

/-- Drops the entries that meet `drop`. -/
def eraseIf (drop : K → V → Bool) (m : Table K V) : Table K V where
  entries := m.entries.filter fun entry => !drop entry.1 entry.2
  nodupKeys := m.nodupKeys.sublist List.filter_sublist

/-- What is kept is what was there and is not dropped. -/
theorem lookup_eraseIf_iff {drop : K → V → Bool} {m : Table K V} {k : K} {v : V} :
    (eraseIf drop m).lookup k = some v ↔ m.lookup k = some v ∧ drop k v = false := by
  have member : (⟨k, v⟩ : Sigma fun _ : K => V) ∈ (eraseIf drop m).entries ↔
      ⟨k, v⟩ ∈ m.entries ∧ drop k v = false := by
    simp [eraseIf]
  rwa [← AList.mem_lookup_iff, ← AList.mem_lookup_iff, Option.mem_def, Option.mem_def] at member

theorem lookup_eraseIf {drop : K → V → Bool} {m : Table K V} {k : K} {v : V}
    (kept : (eraseIf drop m).lookup k = some v) : m.lookup k = some v :=
  (lookup_eraseIf_iff.mp kept).1

/-- Erasing keys leaves the other ones alone. -/
theorem lookup_eraseAll_ite (victims : List K) (m : Table K V) (k : K) :
    (victims.foldl (fun map victim => map.erase victim) m).lookup k =
      if k ∈ victims then none else m.lookup k := by
  induction victims generalizing m with
  | nil => simp
  | cons victim rest ih =>
    rw [List.foldl_cons, ih, lookup_erase_ite]
    by_cases same : k = victim
    · simp [same]
    · simp [same]

/-- Distinct keys of the table are erased one by one. -/
theorem size_eraseAll {victims : List K} {m : Table K V} (distinct : victims.Nodup)
    (present : ∀ k ∈ victims, m.lookup k ≠ none) :
    (victims.foldl (fun map victim => map.erase victim) m).size = m.size - victims.length := by
  induction victims generalizing m with
  | nil => rfl
  | cons victim rest ih =>
    obtain ⟨other, distinct⟩ := List.nodup_cons.mp distinct
    obtain ⟨v, found⟩ := Option.ne_none_iff_exists'.mp (present victim List.mem_cons_self)
    have left := size_erase found
    rw [List.foldl_cons, ih distinct, List.length_cons]
    · omega
    · intro k member
      rw [lookup_erase_ite, if_neg (ne_of_mem_of_not_mem member other)]
      exact present k (List.mem_cons_of_mem victim member)

/-- Erasing keys adds none. -/
theorem lookup_eraseAll (victims : List K) {m : Table K V} {k : K} (absent : m.lookup k = none) :
    (victims.foldl (fun map victim => map.erase victim) m).lookup k = none := by
  rw [lookup_eraseAll_ite, absent, ite_self]

end Table
end Foundation
