import Uranus.Service.Consistency

/-! The lookup of a service by its name, whose two sections read the id and then
the agent. In between the id may come to another service, and so may one that a
name was left to point to. -/
namespace Uranus
open Foundation Program Interleaving
variable {s t : UServiceModule} {call : ServiceCall} {rest : Option ServiceCall}
  {calls : Multiset ServiceCall}

namespace ServiceCall

/-- The name and the id with which a lookup goes on. -/
def seeks : ServiceCall → Option (String × Int)
  | .findAgent _ name sid => some (name, sid)
  | _ => none

/-- The agent that a lookup has found, with the name asked for. -/
def finds : ServiceCall → Option (String × UServiceAgent)
  | .found _ name agent => some (name, agent)
  | _ => none

end ServiceCall

def UServiceModule.names (s : UServiceModule) : Multiset (String × Int) :=
  Table.pairs s.serviceNameMap

/-- The pairs of a name and an id that the map of names or a lookup holds. -/
abbrev Services.references : Services → Multiset (String × Int) :=
  total UServiceModule.names ServiceCall.seeks

/-- Every agent that a lookup has found, and goes on to post to, has the name. -/
def Faithful (config : Services) : Prop :=
  ∀ call ∈ config.calls, ∀ found ∈ call.finds, found.2.name = found.1

/-- Nothing refers by another name to an id that a service is registered with. -/
def Unreferred (config : Services) : Move ServiceCall → Prop
  | .advance (.bootRegister sid agent) =>
    ∀ entry ∈ config.references, entry.2 = sid → entry.1 = agent.name
  | _ => True

instance (config : Services) : Decidable (Faithful config) :=
  inferInstanceAs (Decidable (∀ call ∈ config.calls, ∀ found ∈ call.finds, _))

instance (config : Services) : (move : Move ServiceCall) → Decidable (Unreferred config move)
  | .invoke _ => .isTrue trivial
  | .advance call => match call with
    | .bootRegister .. => inferInstanceAs (Decidable (∀ entry ∈ config.references, _))
    | .boot .. | .bootFresh _ | .bootCheck .. | .bootName .. | .bootStart .. | .bootRefuse ..
    | .shutdown _ | .shutdownName .. | .shutdownNamed _ | .shutdownFound .. | .eraseTicker ..
    | .recycle .. | .halt .. | .find .. | .findAgent .. | .found .. | .updatePass ..
    | .insertTicker _ | .removeTicker _ => .isTrue trivial

/-- Whatever refers to an id does so by the name of its service. -/
structure Referring (s : UServiceModule) (calls : Multiset ServiceCall) : Prop where
  named : ∀ entry ∈ Services.references ⟨s, calls⟩, ∀ agent ∈ s.serviceMap.lookup entry.2,
    agent.name = entry.1
  faithful : Faithful ⟨s, calls⟩

/-- A section other than a registration brings no new reference and no new agent. -/
theorem CallEffect.refers (effect : CallEffect s call rest t) (other : ∀ sid agent,
    call ≠ .bootRegister sid agent) :
    (∀ entry ∈ share UServiceModule.names ServiceCall.seeks t rest,
      entry ∈ share UServiceModule.names ServiceCall.seeks s (some call)) ∧
      ∀ sid, ∀ agent ∈ t.serviceMap.lookup sid, agent ∈ s.serviceMap.lookup sid := by
  have erased (name : String) :
      ∀ entry ∈ Table.pairs (s.serviceNameMap.erase name) + 0, entry ∈ s.names + 0 :=
    fun entry => Multiset.mem_of_le (add_le_add (Table.pairs_erase_le _ _) (le_refl 0))
  have removed (id sid : Int) :
      ∀ agent ∈ (s.serviceMap.erase id).lookup sid, agent ∈ s.serviceMap.lookup sid := by
    intro agent held
    rw [Table.lookup_erase_ite] at held
    split at held
    · cases held
    · exact held
  cases effect with
  | registered => exact absurd rfl (other _ _)
  | removed | removedNamed => exact ⟨fun _ held => held, removed _⟩
  | unnamed | negative | named => exact ⟨erased _, fun _ _ held => held⟩
  | sought known =>
    refine ⟨fun entry held => ?_, fun _ _ held => held⟩
    rcases Multiset.mem_add.mp held with held | same
    · exact Multiset.mem_add.mpr (.inl held)
    · cases Multiset.mem_singleton.mp same
      exact Multiset.mem_add.mpr (.inl (Table.mem_pairs.mpr known))
  | gone | found =>
    exact ⟨fun _ => Multiset.mem_of_le (share_none_le _ _ s _), fun _ _ held => held⟩
  | _ => exact ⟨fun _ held => held, fun _ _ held => held⟩

theorem mem_references_before {entry : String × Int} (pending : call ∈ calls)
    (grows : entry ∈ share UServiceModule.names ServiceCall.seeks t rest →
      entry ∈ share UServiceModule.names ServiceCall.seeks s (some call))
    (held : entry ∈ Services.references ⟨t, resume rest (calls.erase call)⟩) :
    entry ∈ Services.references ⟨s, calls⟩ := by
  unfold Services.references at held ⊢
  rw [total_resume, Multiset.mem_add] at held
  rw [total_pending _ _ s pending, Multiset.mem_add]
  exact held.imp_left grows

/-- The agent that a lookup finds is that of the pair it holds. -/
theorem Referring.found (referring : Referring s calls) (pending : call ∈ calls)
    (effect : CallEffect s call rest t) {next : ServiceCall} (left : rest = some next)
    {found : String × UServiceAgent} (finds : next.finds = some found) :
    found.2.name = found.1 := by
  cases effect with
  | found present =>
    cases left
    cases finds
    exact referring.named _ (mem_total pending rfl) _ present
  | _ =>
    cases left <;> cases finds

theorem Referring.advance (referring : Referring s calls) (pending : call ∈ calls)
    (unreferred : Unreferred ⟨s, calls⟩ (.advance call)) (effect : CallEffect s call rest t) :
    Referring t (resume rest (calls.erase call)) := by
  constructor
  · by_cases registers : ∃ sid agent, call = .bootRegister sid agent
    · obtain ⟨sid, agent, rfl⟩ := registers
      cases effect
      intro entry held next found
      rw [Table.lookup_insert_ite] at found
      have before : entry = (agent.name, sid) ∨ entry ∈ Services.references ⟨s, calls⟩ := by
        rcases Multiset.mem_add.mp held with held | sought
        · rcases Multiset.mem_cons.mp (Multiset.mem_of_le (Table.pairs_insert_le _ _ _) held) with
            same | held
          · exact .inl same
          · exact .inr (Multiset.mem_add.mpr (.inl held))
        · have sublist := Multiset.filterMap_le_filterMap ServiceCall.seeks
            (Multiset.erase_le (.bootRegister sid agent) calls)
          exact .inr (Multiset.mem_add.mpr (.inr (Multiset.mem_of_le sublist sought)))
      split at found
      next same =>
        cases found
        rcases before with rfl | before
        · rfl
        · exact (unreferred entry before same).symm
      next other =>
        rcases before with rfl | before
        · exact absurd rfl other
        · exact referring.named entry before next found
    · obtain ⟨names, agents⟩ := effect.refers fun sid agent same => registers ⟨sid, agent, same⟩
      intro entry held agent found
      exact referring.named entry (mem_references_before pending (names entry) held) agent
        (agents _ _ found)
  · intro next held found finds
    rcases mem_resume.mp held with left | held
    · exact referring.found pending effect left finds
    · exact referring.faithful next (Multiset.mem_of_mem_erase held) found finds

theorem Referring.step {config later : Services} {move : Move ServiceCall}
    (referring : Referring config.shared config.calls) (unreferred : Unreferred config move)
    (moved : Services.step config move later) : Referring later.shared later.calls := by
  cases moved with
  | @invoke s calls call starts =>
    have seeks : call.seeks = none := by cases call <;> first | rfl | cases starts
    have finds : call.finds = none := by cases call <;> first | rfl | cases starts
    constructor
    · intro entry held
      rw [Services.references, total, Multiset.filterMap_cons_none _ _ seeks] at held
      exact referring.named entry held
    · intro next held found found'
      rcases Multiset.mem_cons.mp held with rfl | held
      · cases finds.symm.trans found'
      · exact referring.faithful next held found found'
  | advance pending reaches => exact referring.advance pending unreferred (part_effect reaches)

open Transition in
/-- From names that point to services of that name, lookups find services of the
name asked for, as long as no id is given to a service to which another name
still refers. -/
theorem unreferred_always_faithful
    (named : ∀ name sid agent, s.serviceNameMap.lookup name = some sid →
      s.serviceMap.lookup sid = some agent → agent.name = name)
    {path : List (Move ServiceCall × Services)} (run : Path Services.step ⟨s, 0⟩ path)
    (unreferred : Every Unreferred ⟨s, 0⟩ path) : Always Faithful ⟨s, 0⟩ path := by
  have initial : Referring s 0 := by
    refine ⟨fun entry held agent found => ?_, fun call pending => ?_⟩
    · rw [Services.references, total, Multiset.filterMap_zero, add_zero] at held
      exact named _ _ _ (Table.mem_pairs.mp held) found
    · exact absurd pending (Multiset.notMem_zero call)
  have always : Always (fun config => Referring config.shared config.calls) ⟨s, 0⟩ path :=
    run.always (fun referring unreferred moved => referring.step unreferred moved) initial
      unreferred
  exact always.imp fun config referring => referring.faithful

def chatService : IServiceBase := { mailService with name := "chat" }

/-- The factory makes the mail service, and then the chat service. -/
def mailThenChat : IServiceFactory :=
  ⟨fun _ occasion => some (if occasion = 0 then mailService else chatService)⟩

/-- A lookup of the mail service has read its id when that service is shut down
and the chat service is booted. -/
def lookedUpLate : List (Move ServiceCall × Services) :=
  Services.runs ⟨.started mailThenChat, 0⟩
    (mailBoot 0 1 0 ++ [.advance (.bootRegister 1 (mailAgent 0)),
      .invoke (.find (.postTask 7) "mail"), .advance (.find (.postTask 7) "mail"),
      .invoke (.shutdown 1), .advance (.shutdown 1),
      .advance (.shutdownName 1 (mailAgent 0)), .advance (.eraseTicker none 1 (mailAgent 0)),
      .advance (.recycle none 1 (mailAgent 0)), .invoke (.boot "chat" 1 1),
      .advance (.boot "chat" 1 1), .advance (.bootCheck 1 chatService),
      .advance (.bootName 1 ⟨1, chatService⟩), .advance (.bootStart 1 ⟨1, chatService⟩),
      .advance (.bootRegister 1 ⟨1, chatService⟩), .advance (.findAgent (.postTask 7) "mail" 1)])

theorem lookedUpLate_unfaithful :
    Transition.Path Services.step ⟨.started mailThenChat, 0⟩ lookedUpLate ∧
      ¬ Transition.Always Faithful ⟨.started mailThenChat, 0⟩ lookedUpLate := by
  refine ⟨Services.runs_path _ _, fun always => ?_⟩
  have found : .found (.postTask 7) "mail" ⟨1, chatService⟩ ∈
      (Transition.last ⟨.started mailThenChat, 0⟩ lookedUpLate).calls := by decide +kernel
  exact absurd (always.last _ found _ rfl) (by decide)

theorem unreferred_always_faithful_mail :
    Transition.Always Faithful ⟨.started mailThenChat, 0⟩
      (Services.runs ⟨.started mailThenChat, 0⟩
        (mailBoot 0 1 0 ++ [.advance (.bootRegister 1 (mailAgent 0)),
          .invoke (.find (.postTask 7) "mail"), .advance (.find (.postTask 7) "mail"),
          .advance (.findAgent (.postTask 7) "mail" 1)])) :=
  unreferred_always_faithful (fun _ _ _ known => by cases known) (Services.runs_path _ _)
    (by decide +kernel)

end Uranus
