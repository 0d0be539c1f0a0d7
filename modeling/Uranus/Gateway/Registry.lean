import Uranus.Gateway.LoginAuth

/-! What the gateway is a registry of: every agent waits under its key or is
online under a player id, and leaves when it is cleaned up. The functions of a
gateway none of whose agents has a player change this registry in five ways. -/
namespace Uranus
open Foundation Program

/-- `active` agents have been registered and not been cleaned up yet. -/
structure Registry where
  waiting : Table String AgentId
  online : Table Int64 AgentId
  key : AgentId → Option String
  active : AgentId → Bool
  next : AgentId

namespace Registry

inductive Change where
  | stay
  | enroll (key : String)
  | refuse (key : String)
  | promote (key : String) (pid : Int64)
  | retire (id : AgentId)

/-- The registry with a further agent. -/
def allocate (r : Registry) (key : String) (active : Bool) : Registry :=
  { r with
    key := Function.update r.key r.next (some key)
    active := Function.update r.active r.next active
    next := r.next + 1 }

/-- The registry with a further agent that waits. -/
def enroll (r : Registry) (key : String) : Registry :=
  { r.allocate key true with waiting := r.waiting.insert key r.next }

inductive Step (r : Registry) : Change → Registry → Prop where
  | stay : Step r .stay r
  | enroll {key : String} (free : r.waiting.lookup key = none) :
    Step r (.enroll key) (r.enroll key)
  | refuse {key : String} {holder : AgentId} (taken : r.waiting.lookup key = some holder) :
    Step r (.refuse key) (r.allocate key false)
  | promote {key : String} {pid : Int64} {id : AgentId} (waits : r.waiting.lookup key = some id)
      (free : r.online.lookup pid = none) :
    Step r (.promote key pid)
      { r with waiting := r.waiting.erase key, online := r.online.insert pid id }
  | retire {key : String} {id : AgentId} (known : r.key id = some key) :
    Step r (.retire id)
      { r with
        waiting := r.waiting.erase key
        active := Function.update r.active id false }

/-- The entries point to agents that exist, under their own keys. -/
structure WellFormed (r : Registry) : Prop where
  waits : ∀ {key id}, r.waiting.lookup key = some id → r.key id = some key
  known : ∀ {pid id}, r.online.lookup pid = some id → (r.key id).isSome
  below : ∀ {id key}, r.key id = some key → id < r.next
  active : ∀ {id}, r.active id = true → (r.key id).isSome

/-- The agent is in one of the two maps. -/
def Held (r : Registry) (id : AgentId) : Prop :=
  (∃ key, r.waiting.lookup key = some id) ∨ ∃ pid, r.online.lookup pid = some id

theorem allocate_key_old {r : Registry} {key : String} {active : Bool} {id : AgentId}
    (old : id ≠ r.next) : (r.allocate key active).key id = r.key id :=
  Function.update_of_ne old _ _

theorem allocate_key_new (r : Registry) (key : String) (active : Bool) :
    (r.allocate key active).key r.next = some key :=
  Function.update_self ..

theorem enroll_key_old {r : Registry} {key : String} {id : AgentId} (old : id ≠ r.next) :
    (r.enroll key).key id = r.key id := Function.update_of_ne old _ _

theorem enroll_key_new (r : Registry) (key : String) : (r.enroll key).key r.next = some key :=
  allocate_key_new r key true

variable {r t : Registry} {change : Change} {id : AgentId} {key : String}

theorem WellFormed.next_unknown (formed : WellFormed r) : r.key r.next = none := by
  cases known : r.key r.next with
  | none => rfl
  | some key => exact absurd (formed.below known) (Nat.lt_irrefl _)

/-- A known agent is another one than the next. -/
theorem WellFormed.ne_next (formed : WellFormed r) (known : (r.key id).isSome) : id ≠ r.next := by
  rintro rfl
  rw [formed.next_unknown] at known
  cases known

theorem WellFormed.held_known (formed : WellFormed r) (held : r.Held id) : (r.key id).isSome := by
  rcases held with ⟨key, waits⟩ | ⟨pid, online⟩
  · rw [formed.waits waits]
    rfl
  · exact formed.known online

theorem WellFormed.allocate (formed : WellFormed r) (key : String) (active : Bool) :
    WellFormed (r.allocate key active) := by
  have keep {id : AgentId} (known : (r.key id).isSome) :
      (r.allocate key active).key id = r.key id := allocate_key_old (formed.ne_next known)
  constructor
  · intro key' id waits
    have known := formed.waits waits
    rw [keep (by rw [known]; rfl), known]
  · intro pid id online
    have known := formed.known online
    rw [keep known]
    exact known
  · intro id key' known
    by_cases new : id = r.next
    · exact new ▸ Nat.lt_succ_self _
    · rw [allocate_key_old new] at known
      exact Nat.lt_succ_of_lt (formed.below known)
  · intro id live
    by_cases new : id = r.next
    · rw [new, allocate_key_new]
      rfl
    · rw [allocate_key_old new]
      exact formed.active ((Function.update_of_ne new _ _).symm.trans live)

theorem Step.of_eq {u : Registry} (step : Step r change t) (same : u = t) : Step r change u :=
  same ▸ step

theorem Step.wellFormed (step : Step r change t) (formed : WellFormed r) : WellFormed t := by
  cases step with
  | stay => exact formed
  | refuse taken => exact formed.allocate _ _
  | @enroll key free =>
    have allocated := formed.allocate key true
    refine { allocated with waits := ?_ }
    intro key' id waits
    rw [Registry.enroll, Table.lookup_insert_ite] at waits
    split at waits
    next same =>
      cases waits
      exact same ▸ allocate_key_new r key true
    next other => exact allocated.waits waits
  | @promote key pid id waits free =>
    refine { formed with waits := ?_, known := ?_ }
    · intro key' id' waits'
      rw [Table.lookup_erase_ite] at waits'
      split at waits'
      · cases waits'
      · exact formed.waits waits'
    · intro pid' id' online
      rw [Table.lookup_insert_ite] at online
      split at online
      · cases online
        rw [formed.waits waits]
        rfl
      · exact formed.known online
  | @retire key id known =>
    refine { formed with waits := ?_, active := ?_ }
    · intro key' id' waits
      rw [Table.lookup_erase_ite] at waits
      split at waits
      · cases waits
      · exact formed.waits waits
    · intro other live
      by_cases same : other = id
      · subst same
        cases (Function.update_self other false r.active).symm.trans live
      · exact formed.active ((Function.update_of_ne same _ _).symm.trans live)

/-- Who is in the maps after an admission. -/
theorem held_enroll (free : r.waiting.lookup key = none) :
    (r.enroll key).Held id ↔ r.Held id ∨ id = r.next := by
  constructor
  · rintro (⟨key', waits⟩ | online)
    · rw [Registry.enroll, Table.lookup_insert_ite] at waits
      split at waits
      · exact .inr (Option.some.inj waits).symm
      · exact .inl (.inl ⟨key', waits⟩)
    · exact .inl (.inr online)
  · rintro ((⟨key', waits⟩ | online) | rfl)
    · have different : key' ≠ key := by
        rintro rfl
        cases free.symm.trans waits
      exact .inl ⟨key', (AList.lookup_insert_ne different).trans waits⟩
    · exact .inr online
    · exact .inl ⟨key, AList.lookup_insert _⟩

/-- An agent that goes online stays in one of the maps. -/
theorem held_promote {pid : Int64} {agent : AgentId} (waits : r.waiting.lookup key = some agent)
    (free : r.online.lookup pid = none) :
    ({ r with waiting := r.waiting.erase key, online := r.online.insert pid agent } : Registry).Held
      id ↔ r.Held id := by
  constructor
  · rintro (⟨key', waits'⟩ | ⟨pid', online⟩)
    · rw [Table.lookup_erase_ite] at waits'
      split at waits'
      · cases waits'
      · exact .inl ⟨key', waits'⟩
    · rw [Table.lookup_insert_ite] at online
      split at online
      · exact .inl ⟨key, Option.some.inj online ▸ waits⟩
      · exact .inr ⟨pid', online⟩
  · rintro (⟨key', waits'⟩ | ⟨pid', online⟩)
    · by_cases same : key' = key
      · subst same
        cases waits.symm.trans waits'
        exact .inr ⟨pid, AList.lookup_insert _⟩
      · exact .inl ⟨key', (AList.lookup_erase_ne same).trans waits'⟩
    · have different : pid' ≠ pid := by
        rintro rfl
        cases free.symm.trans online
      exact .inr ⟨pid', (AList.lookup_insert_ne different).trans online⟩

theorem held_retire {active : AgentId → Bool}
    (held : ({ r with waiting := r.waiting.erase key, active } : Registry).Held id) :
    r.Held id := by
  rcases held with ⟨key', waits⟩ | online
  · rw [Table.lookup_erase_ite] at waits
    split at waits
    · cases waits
    · exact .inl ⟨key', waits⟩
  · exact .inr online

/-- Only a new agent comes into the maps, and only a clean-up takes one out. -/
theorem Step.held_iff (step : Step r change t) (kept : ∀ other, change ≠ .retire other)
    (old : id ≠ r.next) : t.Held id ↔ r.Held id := by
  cases step with
  | stay | refuse taken => exact Iff.rfl
  | enroll free => exact (held_enroll free).trans (or_iff_left old)
  | promote waits free => exact held_promote waits free
  | retire known => exact absurd rfl (kept _)

theorem WellFormed.next_unheld (formed : WellFormed r) : ¬ r.Held r.next :=
  fun held => formed.ne_next (formed.held_known held) rfl

/-- The new agent is in the maps after an enrollment, and not after a refusal. -/
theorem Step.enroll_held (step : Step r (.enroll key) t) : t.Held r.next ∧ r.next < t.next := by
  cases step with
  | enroll free => exact ⟨(held_enroll free).mpr (.inr rfl), Nat.lt_succ_self _⟩

theorem Step.refuse_unheld (step : Step r (.refuse key) t) (formed : WellFormed r) :
    ¬ t.Held r.next ∧ r.next < t.next := by
  cases step with
  | refuse taken => exact ⟨formed.next_unheld, Nat.lt_succ_self _⟩

theorem Step.next_le (step : Step r change t) : r.next ≤ t.next := by
  cases step with
  | stay | promote waits free | retire known => exact Nat.le_refl _
  | enroll free | refuse taken => exact Nat.le_succ _

end Registry
end Uranus
