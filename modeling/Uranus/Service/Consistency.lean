import Uranus.Foundation.Inverse
import Uranus.Service.Registry
import Uranus.Service.ServiceCall

/-! The maps of ids and names while calls interleave. Each call changes one map
in one section and the other map in a later one, so the maps mirror each other
up to the calls between the two. They stay so as long as no call acts on a name
or an id that has changed hands since it has read it. -/
namespace Uranus
open Foundation Program Interleaving
variable {s t : UServiceModule} {call : ServiceCall} {rest : Option ServiceCall}
  {calls : Multiset ServiceCall}

/-- A `ShutdownService` has removed the service of the id and will erase its name. -/
def Unnaming (calls : Multiset ServiceCall) (name : String) (sid : Int) : Prop :=
  ∃ agent, .shutdownName sid agent ∈ calls ∧ agent.name = name

/-- A `ShutdownService` has erased the name and will remove the service of its id. -/
def Unmapping (calls : Multiset ServiceCall) (name : String) (sid : Int) : Prop :=
  .shutdownFound name sid ∈ calls

/-- The call has changed one of the maps and not yet the other. -/
def ServiceCall.between : ServiceCall → Bool
  | .shutdownName .. | .shutdownFound .. => true
  | _ => false

/-- The service that a `ShutdownService(name)` has removed, with the name asked for. -/
def ServiceCall.asks : ServiceCall → Option (String × UServiceAgent)
  | .eraseTicker asked _ agent | .recycle asked _ agent
  | .halt asked _ agent => asked.map fun name => (name, agent)
  | _ => none

/-- With no call under way the maps are mutually inverse. Hence no two services
have one name, and every name is that of a service; a `ShutdownService(name)`
stops the service of that name. -/
structure Consistent (config : Services) : Prop where
  inverse : config.calls = 0 →
    Inverse config.shared.serviceNameMap.lookup (serviceNames config.shared.serviceMap)
  distinct : config.calls = 0 → ∀ sid other agent twin,
    config.shared.serviceMap.lookup sid = some agent →
    config.shared.serviceMap.lookup other = some twin → agent.name = twin.name → sid = other
  present : config.calls = 0 → ∀ name sid, config.shared.serviceNameMap.lookup name = some sid →
    ∃ agent, config.shared.serviceMap.lookup sid = some agent ∧ agent.name = name
  rightful : ∀ call ∈ config.calls, ∀ name agent, call.asks = some (name, agent) →
    agent.name = name

/-- The section acts on a name or an id that is still what the call takes it for. -/
def ServiceCall.Current (s : UServiceModule) : ServiceCall → Prop
  | .bootRegister sid agent =>
    s.serviceMap.lookup sid = none ∧ s.serviceNameMap.lookup agent.name = none
  | .shutdownName _ agent => ∀ id ∈ s.serviceNameMap.lookup agent.name,
      serviceNames s.serviceMap id ≠ some agent.name
  | .shutdownNamed name => ∀ sid ∈ s.serviceNameMap.lookup name, 0 ≤ sid
  | .shutdownFound name sid => ∀ agent ∈ s.serviceMap.lookup sid,
      agent.name = name ∧ s.serviceNameMap.lookup name ≠ some sid
  | _ => True

def Current (config : Services) : Move ServiceCall → Prop
  | .invoke _ => True
  | .advance call => call.Current config.shared

instance (s : UServiceModule) : (call : ServiceCall) → Decidable (call.Current s)
  | .bootRegister .. => inferInstanceAs (Decidable (_ ∧ _))
  | .shutdownName _ agent =>
    inferInstanceAs (Decidable (∀ id ∈ s.serviceNameMap.lookup agent.name, _))
  | .shutdownNamed name => inferInstanceAs (Decidable (∀ sid ∈ s.serviceNameMap.lookup name, _))
  | .shutdownFound _ sid => inferInstanceAs (Decidable (∀ agent ∈ s.serviceMap.lookup sid, _))
  | .boot .. | .bootFresh _ | .bootCheck .. | .bootName .. | .bootStart .. | .bootRefuse ..
  | .shutdown _ | .eraseTicker .. | .recycle .. | .halt .. | .find .. | .findAgent .. | .found ..
  | .updatePass .. | .insertTicker _ | .removeTicker _ => .isTrue trivial

instance (config : Services) : (move : Move ServiceCall) → Decidable (Current config move)
  | .invoke _ => .isTrue trivial
  | .advance call => inferInstanceAs (Decidable (call.Current config.shared))

/-- The maps mirror each other up to the calls under way. -/
structure Mirrored (s : UServiceModule) (calls : Multiset ServiceCall) : Prop where
  maps : InverseUpTo (Unnaming calls) (Unmapping calls) s.serviceNameMap.lookup
    (serviceNames s.serviceMap)
  rightful : ∀ call ∈ calls, ∀ name agent, call.asks = some (name, agent) →
    agent.name = name

theorem Mirrored.consistent {config : Services} (mirrored : Mirrored config.shared config.calls) :
    Consistent config := by
  have inverse (idle : config.calls = 0) :
      Inverse config.shared.serviceNameMap.lookup (serviceNames config.shared.serviceMap) := by
    apply mirrored.maps.inverse
    · rintro name sid ⟨agent, pending, -⟩
      exact Multiset.notMem_zero _ (idle ▸ pending)
    · intro name sid pending
      exact Multiset.notMem_zero _ (idle ▸ pending)
  refine ⟨inverse, ?_, ?_, mirrored.rightful⟩
  · intro idle sid other agent twin first second same
    have named := serviceNames_some second
    rw [← same] at named
    exact (inverse idle).symm.injective (serviceNames_some first) named
  · intro idle name sid known
    exact Option.map_eq_some_iff.mp ((inverse idle name sid).mp known)

theorem still_pending {other : ServiceCall} (pending : other ∈ calls) (differs : other ≠ call) :
    other ∈ resume rest (calls.erase call) :=
  mem_resume.mpr (.inr ((Multiset.mem_erase_of_ne differs).mpr pending))

theorem Unnaming.kept {name : String} {sid : Int} (pending : Unnaming calls name sid)
    (differs : ∀ agent, agent.name = name → .shutdownName sid agent ≠ call) :
    Unnaming (resume rest (calls.erase call)) name sid := by
  obtain ⟨agent, pending, named⟩ := pending
  exact ⟨agent, still_pending pending (differs agent named), named⟩

theorem Unmapping.kept {name : String} {sid : Int} (pending : Unmapping calls name sid)
    (differs : .shutdownFound name sid ≠ call) :
    Unmapping (resume rest (calls.erase call)) name sid :=
  still_pending pending differs

theorem Mirrored.still_rightful (mirrored : Mirrored s calls)
    (asks : ∀ name agent, rest.bind ServiceCall.asks = some (name, agent) →
      call.asks = some (name, agent) ∨ agent.name = name) (pending : call ∈ calls) :
    ∀ next ∈ resume rest (calls.erase call), ∀ name agent, next.asks = some (name, agent) →
      agent.name = name := by
  intro next held name agent asked
  rcases mem_resume.mp held with rfl | held
  · rcases asks name agent asked with before | rightful
    · exact mirrored.rightful call pending name agent before
    · exact rightful
  · exact mirrored.rightful next (Multiset.mem_of_mem_erase held) name agent asked

/-- A section that leaves the maps alone. -/
theorem Mirrored.quiet (mirrored : Mirrored s calls) (pending : call ∈ calls)
    (services : t.serviceMap = s.serviceMap) (names : t.serviceNameMap = s.serviceNameMap)
    (outside : call.between = false)
    (asks : rest.bind ServiceCall.asks = call.asks ∨ rest.bind ServiceCall.asks = none) :
    Mirrored t (resume rest (calls.erase call)) := by
  constructor
  · rw [services, names]
    refine mirrored.maps.weaken (fun unnaming => ?_) fun _ unmapping => ?_
    · apply unnaming.kept
      rintro agent - rfl
      cases outside
    · apply unmapping.kept
      rintro rfl
      cases outside
  · refine mirrored.still_rightful (fun name agent asked => ?_) pending
    rcases asks with same | none
    · exact .inl (same ▸ asked)
    · cases none.symm.trans asked

section
variable {sid : Int} {agent : UServiceAgent} {name : String}

theorem Mirrored.register (mirrored : Mirrored s calls)
    (pending : .bootRegister sid agent ∈ calls)
    (current : ServiceCall.Current s (.bootRegister sid agent))
    (services : t.serviceMap = s.serviceMap.insert sid agent)
    (names : t.serviceNameMap = s.serviceNameMap.insert agent.name sid) :
    Mirrored t (resume none (calls.erase (.bootRegister sid agent))) := by
  constructor
  · rw [services, names, serviceNames_insert, Table.lookup_insert_update]
    refine (mirrored.maps.insert current.2 (serviceNames_none.mpr current.1)).weaken ?_ ?_
    · exact fun unnaming => unnaming.kept (by simp)
    · exact fun _ unmapping => unmapping.kept (by simp)
  · exact mirrored.still_rightful (by simp [ServiceCall.asks]) pending

/-- A service is removed while its name still points to it. -/
theorem Mirrored.remove (mirrored : Mirrored s calls) (pending : .shutdown sid ∈ calls)
    (present : s.serviceMap.lookup sid = some agent)
    (services : t.serviceMap = s.serviceMap.erase sid)
    (names : t.serviceNameMap = s.serviceNameMap) :
    Mirrored t (resume (some (.shutdownName sid agent)) (calls.erase (.shutdown sid))) := by
  constructor
  · rw [services, names, serviceNames_erase]
    refine mirrored.maps.forgetBack (fun unnaming => unnaming.kept (by simp))
      (fun _ unmapping => unmapping.kept (by simp)) fun known => ?_
    rcases mirrored.maps.forward known with back | unnaming
    · cases (serviceNames_some present).symm.trans back
      exact ⟨agent, mem_resume.mpr (.inl rfl), rfl⟩
    · exact unnaming.kept (by simp)
  · exact mirrored.still_rightful (by simp [ServiceCall.asks]) pending

theorem Mirrored.unname (mirrored : Mirrored s calls)
    (pending : .shutdownName sid agent ∈ calls)
    (current : ServiceCall.Current s (.shutdownName sid agent))
    (services : t.serviceMap = s.serviceMap)
    (names : t.serviceNameMap = s.serviceNameMap.erase agent.name) :
    Mirrored t (resume (some (.eraseTicker none sid agent))
      (calls.erase (.shutdownName sid agent))) := by
  constructor
  · rw [services, names, Table.lookup_erase_update]
    refine mirrored.maps.forget (fun other unnaming => ?_)
      (fun unmapping => unmapping.kept (by simp)) fun named => ?_
    · apply unnaming.kept
      rintro _ named ⟨⟩
      exact other named.symm
    · rcases mirrored.maps.backward named with known | unmapping
      · exact absurd named (current _ known)
      · exact unmapping.kept (by simp)
  · exact mirrored.still_rightful (by simp [ServiceCall.asks]) pending

/-- A name is erased whose service is still there. -/
theorem Mirrored.forgetName (mirrored : Mirrored s calls) (pending : .shutdownNamed name ∈ calls)
    (known : s.serviceNameMap.lookup name = some sid) (services : t.serviceMap = s.serviceMap)
    (names : t.serviceNameMap = s.serviceNameMap.erase name) :
    Mirrored t (resume (some (.shutdownFound name sid)) (calls.erase (.shutdownNamed name))) := by
  constructor
  · rw [services, names, Table.lookup_erase_update]
    refine mirrored.maps.forget (fun _ unnaming => unnaming.kept (by simp))
      (fun unmapping => unmapping.kept (by simp)) fun named => ?_
    rcases mirrored.maps.backward named with mapped | unmapping
    · cases known.symm.trans mapped
      exact mem_resume.mpr (.inl rfl)
    · exact unmapping.kept (by simp)
  · exact mirrored.still_rightful (by simp [ServiceCall.asks]) pending

theorem Mirrored.miss (mirrored : Mirrored s calls) (pending : .shutdownFound name sid ∈ calls)
    (absent : s.serviceMap.lookup sid = none) :
    Mirrored s (resume none (calls.erase (.shutdownFound name sid))) := by
  constructor
  · refine mirrored.maps.weaken (fun unnaming => unnaming.kept (by simp)) fun named unmapping => ?_
    apply unmapping.kept
    rintro ⟨⟩
    cases (serviceNames_none.mpr absent).symm.trans named
  · exact mirrored.still_rightful (by simp [ServiceCall.asks]) pending

/-- A service is removed whose name has been erased. -/
theorem Mirrored.removeNamed (mirrored : Mirrored s calls)
    (pending : .shutdownFound name sid ∈ calls)
    (current : ServiceCall.Current s (.shutdownFound name sid))
    (present : s.serviceMap.lookup sid = some agent)
    (services : t.serviceMap = s.serviceMap.erase sid)
    (names : t.serviceNameMap = s.serviceNameMap) :
    Mirrored t (resume (some (.eraseTicker (some name) sid agent))
      (calls.erase (.shutdownFound name sid))) := by
  obtain ⟨named, renamed⟩ := current agent present
  constructor
  · rw [services, names, serviceNames_erase]
    refine mirrored.maps.forgetBack (fun unnaming => unnaming.kept (by simp))
      (fun other unmapping => ?_) fun known => ?_
    · apply unmapping.kept
      rintro ⟨⟩
      exact other rfl
    · rcases mirrored.maps.forward known with back | unnaming
      · cases (serviceNames_some present).symm.trans back
        exact absurd (named ▸ known) renamed
      · exact unnaming.kept (by simp)
  · refine mirrored.still_rightful (fun asked other asks => ?_) pending
    cases asks
    exact .inr named

end

theorem Mirrored.advance (mirrored : Mirrored s calls) (pending : call ∈ calls)
    (current : call.Current s) (effect : CallEffect s call rest t) :
    Mirrored t (resume rest (calls.erase call)) := by
  cases effect with
  | registered => exact mirrored.register pending current rfl rfl
  | removed present => exact mirrored.remove pending present rfl rfl
  | unnamed => exact mirrored.unname pending current rfl rfl
  | negative known negative => exact absurd negative (not_lt.mpr (current _ known))
  | named known => exact mirrored.forgetName pending known rfl rfl
  | missing absent => exact mirrored.miss pending absent
  | removedNamed present => exact mirrored.removeNamed pending current present rfl rfl
  | unticked | recycled => exact mirrored.quiet pending rfl rfl rfl (.inl rfl)
  | _ => exact mirrored.quiet pending rfl rfl rfl (.inr rfl)

theorem Mirrored.step {config later : Services} {move : Move ServiceCall}
    (mirrored : Mirrored config.shared config.calls) (current : Current config move)
    (moved : Services.step config move later) : Mirrored later.shared later.calls := by
  cases moved with
  | @invoke s calls call starts =>
    constructor
    · refine mirrored.maps.weaken ?_ fun _ unmapping => Multiset.mem_cons_of_mem unmapping
      rintro name sid ⟨agent, pending, named⟩
      exact ⟨agent, Multiset.mem_cons_of_mem pending, named⟩
    · intro next held name agent asks
      rcases Multiset.mem_cons.mp held with rfl | held
      · cases next <;> first | cases asks | cases starts
      · exact mirrored.rightful next held name agent asks
  | advance pending reaches => exact mirrored.advance pending current (part_effect reaches)

open Transition in
/-- From mutually inverse maps, calls that act on current names and ids alone
keep the registry consistent. -/
theorem current_always_consistent
    (inverse : Inverse s.serviceNameMap.lookup (serviceNames s.serviceMap))
    {path : List (Move ServiceCall × Services)} (run : Path Services.step ⟨s, 0⟩ path)
    (current : Every Current ⟨s, 0⟩ path) : Always Consistent ⟨s, 0⟩ path := by
  have always : Always (fun config => Mirrored config.shared config.calls) ⟨s, 0⟩ path := by
    refine run.always (fun mirrored current moved => mirrored.step current moved)
      ⟨inverse.upTo, fun call pending => ?_⟩ current
    exact absurd pending (Multiset.notMem_zero call)
  exact always.imp fun config mirrored => mirrored.consistent

def mailAgent (serial : Nat) : UServiceAgent := ⟨serial, mailService⟩

/-- A `BootService` of the mail service up to the start of its new agent. -/
def mailBoot (occasion : Nat) (sid : Int) (serial : Nat) : List (Move ServiceCall) :=
  [.invoke (.boot "mail" occasion 0), .advance (.boot "mail" occasion 0),
    .advance (.bootFresh mailService), .advance (.bootCheck sid mailService),
    .advance (.bootName sid (mailAgent serial)), .advance (.bootStart sid (mailAgent serial))]

/-- Both calls have found the name free before one of them registers it. -/
def bootedTwice : List (Move ServiceCall × Services) :=
  Services.runs ⟨.started (.only mailService), 0⟩
    (mailBoot 0 1 0 ++ mailBoot 1 2 1 ++
      [.advance (.bootRegister 1 (mailAgent 0)), .advance (.bootRegister 2 (mailAgent 1))])

theorem bootedTwice_inconsistent :
    Inverse (UServiceModule.started (.only mailService)).serviceNameMap.lookup
        (serviceNames (UServiceModule.started (.only mailService)).serviceMap) ∧
      Transition.Path Services.step ⟨.started (.only mailService), 0⟩ bootedTwice ∧
      ¬ Transition.Always Consistent ⟨.started (.only mailService), 0⟩ bootedTwice := by
  refine ⟨(Registered.started _).inverse, Services.runs_path _ _, fun always => ?_⟩
  have first : (Transition.last ⟨.started (.only mailService), 0⟩
      bootedTwice).shared.serviceMap.lookup 1 = some (mailAgent 0) := by decide +kernel
  have second : (Transition.last ⟨.started (.only mailService), 0⟩
      bootedTwice).shared.serviceMap.lookup 2 = some (mailAgent 1) := by decide +kernel
  cases always.last.distinct (by decide +kernel) 1 2 _ _ first second rfl

theorem current_always_consistent_mailBoot :
    Transition.Always Consistent ⟨.started (.only mailService), 0⟩
      (Services.runs ⟨.started (.only mailService), 0⟩
        (mailBoot 0 1 0 ++ [.advance (.bootRegister 1 (mailAgent 0)), .invoke (.shutdown 1),
          .advance (.shutdown 1), .advance (.shutdownName 1 (mailAgent 0))])) :=
  current_always_consistent (Registered.started _).inverse (Services.runs_path _ _)
    (by decide +kernel)

end Uranus
