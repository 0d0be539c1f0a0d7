import Uranus.Foundation.Interleaving
import Uranus.Service.ServiceModule

/-! Calls of the service module that interleave, one section at a time, with each
other and with the passes of its update loop. A call that has given way carries
what its function still has in hand. -/
namespace Uranus
open Foundation Program Interleaving

inductive ServiceCall where
  | boot (name : String) (occasion : Nat) (first : Int)
  | bootFresh (service : IServiceBase)
  | bootCheck (sid : Int) (service : IServiceBase)
  | bootName (sid : Int) (agent : UServiceAgent)
  | bootStart (sid : Int) (agent : UServiceAgent)
  | bootRegister (sid : Int) (agent : UServiceAgent)
  | bootRefuse (sid : Int) (agent : UServiceAgent)
  | shutdown (sid : Int)
  | shutdownName (sid : Int) (agent : UServiceAgent)
  | shutdownNamed (name : String)
  | shutdownFound (name : String) (sid : Int)
  | eraseTicker (asked : Option String) (sid : Int) (agent : UServiceAgent)
  | recycle (asked : Option String) (sid : Int) (agent : UServiceAgent)
  | halt (asked : Option String) (sid : Int) (agent : UServiceAgent)
  | find (purpose : Purpose) (name : String)
  | findAgent (purpose : Purpose) (name : String) (sid : Int)
  | found (purpose : Purpose) (name : String) (agent : UServiceAgent)
  | updatePass (timepoint delta : Int)
  | insertTicker (sid : Int)
  | removeTicker (sid : Int)
deriving DecidableEq

namespace ServiceCall

/-- Calls begin with the head of their function. -/
def starts : ServiceCall → Bool
  | .boot .. | .shutdown _ | .shutdownNamed _ | .find .. | .updatePass .. | .insertTicker _
  | .removeTicker _ => true
  | _ => false

/-- The next section of a call. -/
def part : ServiceCall → ServiceM (Option ServiceCall)
  | .boot name occasion first => do
    match ← bootCreate name occasion with
    | none => pure none
    | some service => do
      match ← allocateLocked first with
      | some sid => pure (some (.bootCheck sid service))
      | none => pure (some (.bootFresh service))
  | .bootFresh service => do
    let sid ← allocateFresh
    pure (some (.bootCheck sid service))
  | .bootCheck sid service => do
    match ← Uranus.bootCheck sid service with
    | none => pure none
    | some (agent, false) => pure (some (.bootRefuse sid agent))
    | some (agent, true) => pure (some (.bootName sid agent))
  | .bootName sid agent => do
    if ← Uranus.bootName agent then pure (some (.bootStart sid agent))
    else pure (some (.bootRefuse sid agent))
  | .bootStart sid agent => do
    if ← agentBootService sid agent then pure (some (.bootRegister sid agent))
    else pure (some (.bootRefuse sid agent))
  | .bootRegister sid agent => do
    Uranus.bootRegister sid agent
    pure none
  | .bootRefuse sid agent => do
    Uranus.bootRefuse sid agent
    pure none
  | .shutdown sid => do
    match ← shutdownEntry sid with
    | none => pure none
    | some agent => pure (some (.shutdownName sid agent))
  | .shutdownName sid agent => do
    eraseName agent.name
    pure (some (.eraseTicker none sid agent))
  | .shutdownNamed name => do
    match ← Uranus.shutdownNamed name with
    | none => pure none
    | some sid => pure (some (.shutdownFound name sid))
  | .shutdownFound name sid => do
    match ← removeService sid with
    | none => pure none
    | some agent => pure (some (.eraseTicker (some name) sid agent))
  | .eraseTicker asked sid agent => do
    Uranus.eraseTicker sid
    pure (some (.recycle asked sid agent))
  | .recycle asked sid agent => do
    recycleService sid agent
    pure (some (.halt asked sid agent))
  | .halt _ sid agent => do
    haltService sid agent
    pure none
  | .find purpose name => do
    let s ← get
    if !purpose.admitted name s then pure none
    else
      match ← findServiceId name with
      | none => pure none
      | some sid => pure (some (.findAgent purpose name sid))
  | .findAgent purpose name sid => do
    match ← findService sid with
    | none => pure none
    | some agent => pure (some (.found purpose name agent))
  | .found purpose _ agent => do
    purpose.serve agent
    pure none
  | .updatePass timepoint delta => do
    Uranus.updatePass timepoint delta
    pure none
  | .insertTicker sid => do
    Uranus.insertTicker sid
    pure none
  | .removeTicker sid => do
    Uranus.removeTicker sid
    pure none

end ServiceCall

abbrev Services := Config UServiceModule ServiceCall

def Services.step : Services → Move ServiceCall → Services → Prop :=
  Interleaving.Step ServiceCall.part fun call => call.starts

def Services.runs (config : Services) (moves : List (Move ServiceCall)) :
    List (Move ServiceCall × Services) :=
  Transition.trace (following ServiceCall.part fun call => call.starts) config moves

theorem Services.runs_path (config : Services) (moves : List (Move ServiceCall)) :
    Transition.Path Services.step config (config.runs moves) :=
  Transition.trace_path following_step moves

/-- What a section does, and where it leaves its call. -/
inductive CallEffect (s : UServiceModule) :
    ServiceCall → Option ServiceCall → UServiceModule → Prop where
  | unmade {name : String} {occasion : Nat} {first : Int} (none : s.created name occasion = none) :
      CallEffect s (.boot name occasion first) .none s
  | took {name : String} {occasion : Nat} {first sid : Int} {service : IServiceBase}
      {allocator : TIdentAllocator} (made : s.created name occasion = some service)
      (took : s.allocator.allocateLocked first = some (sid, allocator)) :
      CallEffect s (.boot name occasion first) (some (.bootCheck sid service)) { s with allocator }
  | empty {name : String} {occasion : Nat} {first : Int} {service : IServiceBase}
      (made : s.created name occasion = some service)
      (none : s.allocator.allocateLocked first = none) :
      CallEffect s (.boot name occasion first) (some (.bootFresh service)) s
  | fresh {service : IServiceBase} :
      CallEffect s (.bootFresh service) (some (.bootCheck s.allocator.allocateFresh.1 service))
        { s with allocator := s.allocator.allocateFresh.2 }
  | repeated {sid : Int} {service : IServiceBase} (present : (s.serviceMap.lookup sid).isSome) :
      CallEffect s (.bootCheck sid service) none s
  | initialThrew {sid : Int} {service : IServiceBase} {what : String}
      (absent : s.serviceMap.lookup sid = none) (threw : service.initial = .error what) :
      CallEffect s (.bootCheck sid service) none (s.make sid service)
  | invalid {sid : Int} {service : IServiceBase} (absent : s.serviceMap.lookup sid = none) :
      CallEffect s (.bootCheck sid service) (some (.bootRefuse sid ⟨s.nextAgent, service⟩))
        (s.make sid service)
  | valid {sid : Int} {service : IServiceBase} (absent : s.serviceMap.lookup sid = none) :
      CallEffect s (.bootCheck sid service) (some (.bootName sid ⟨s.nextAgent, service⟩))
        (s.make sid service)
  | taken {sid : Int} {agent : UServiceAgent} (used : (s.serviceNameMap.lookup agent.name).isSome) :
      CallEffect s (.bootName sid agent) (some (.bootRefuse sid agent)) s
  | free {sid : Int} {agent : UServiceAgent} (unused : s.serviceNameMap.lookup agent.name = none) :
      CallEffect s (.bootName sid agent) (some (.bootStart sid agent)) s
  | startThrew {sid : Int} {agent : UServiceAgent} : CallEffect s (.bootStart sid agent) none s
  | unstarted {sid : Int} {agent : UServiceAgent} (refused : agent.service.start = .ok false) :
      CallEffect s (.bootStart sid agent) (some (.bootRefuse sid agent)) s
  | started {sid : Int} {agent : UServiceAgent} (came : agent.service.start = .ok true) :
      CallEffect s (.bootStart sid agent) (some (.bootRegister sid agent)) (s.launch sid agent)
  | registered {sid : Int} {agent : UServiceAgent} :
      CallEffect s (.bootRegister sid agent) none { s with
        serviceMap := s.serviceMap.insert sid agent
        serviceNameMap := s.serviceNameMap.insert agent.name sid }
  | refused {sid : Int} {agent : UServiceAgent} :
      CallEffect s (.bootRefuse sid agent) none { s.edit agent.serial ServiceContext.stop with
        allocator := s.allocator.recycleTS sid }
  | absent {sid : Int} : CallEffect s (.shutdown sid) none s
  | removed {sid : Int} {agent : UServiceAgent} (present : s.serviceMap.lookup sid = some agent) :
      CallEffect s (.shutdown sid) (some (.shutdownName sid agent)) { s with
        serviceMap := s.serviceMap.erase sid
        removals := (sid, agent) ::ₘ s.removals }
  | unnamed {sid : Int} {agent : UServiceAgent} :
      CallEffect s (.shutdownName sid agent) (some (.eraseTicker none sid agent))
        { s with serviceNameMap := s.serviceNameMap.erase agent.name }
  | unknown {name : String} (none : s.named name = none) :
      CallEffect s (.shutdownNamed name) .none s
  | negative {name : String} {sid : Int} (known : s.serviceNameMap.lookup name = some sid)
      (negative : sid < 0) :
      CallEffect s (.shutdownNamed name) none
        { s with serviceNameMap := s.serviceNameMap.erase name }
  | named {name : String} {sid : Int} (known : s.serviceNameMap.lookup name = some sid)
      (valid : 0 ≤ sid) :
      CallEffect s (.shutdownNamed name) (some (.shutdownFound name sid))
        { s with serviceNameMap := s.serviceNameMap.erase name }
  | missing {name : String} {sid : Int} (absent : s.serviceMap.lookup sid = none) :
      CallEffect s (.shutdownFound name sid) none s
  | removedNamed {name : String} {sid : Int} {agent : UServiceAgent}
      (present : s.serviceMap.lookup sid = some agent) :
      CallEffect s (.shutdownFound name sid) (some (.eraseTicker (some name) sid agent)) { s with
        serviceMap := s.serviceMap.erase sid
        removals := (sid, agent) ::ₘ s.removals }
  | unticked {asked : Option String} {sid : Int} {agent : UServiceAgent} :
      CallEffect s (.eraseTicker asked sid agent) (some (.recycle asked sid agent))
        { s with tickerSet := s.tickerSet.erase sid }
  | recycled {asked : Option String} {sid : Int} {agent : UServiceAgent} :
      CallEffect s (.recycle asked sid agent) (some (.halt asked sid agent)) { s with
        allocator := s.allocator.recycleTS sid
        recyclings := (sid, agent) ::ₘ s.recyclings }
  | halted {asked : Option String} {sid : Int} {agent : UServiceAgent} :
      CallEffect s (.halt asked sid agent) none { s.edit agent.serial ServiceContext.stop with
        halts := (sid, agent) ::ₘ s.halts }
  | unfound {purpose : Purpose} {name : String} : CallEffect s (.find purpose name) none s
  | sought {purpose : Purpose} {name : String} {sid : Int}
      (known : s.serviceNameMap.lookup name = some sid) :
      CallEffect s (.find purpose name) (some (.findAgent purpose name sid)) s
  | gone {purpose : Purpose} {name : String} {sid : Int} :
      CallEffect s (.findAgent purpose name sid) none s
  | found {purpose : Purpose} {name : String} {sid : Int} {agent : UServiceAgent}
      (present : s.serviceMap.lookup sid = some agent) :
      CallEffect s (.findAgent purpose name sid) (some (.found purpose name agent)) s
  | served {purpose : Purpose} {name : String} {agent : UServiceAgent}
      {contexts : Table Nat ServiceContext}
      (standing : ({ s with contexts } : UServiceModule).standing = s.standing) :
      CallEffect s (.found purpose name agent) none { s with contexts }
  | passed {timepoint delta : Int} {contexts : Table Nat ServiceContext}
      (standing : ({ s with contexts } : UServiceModule).standing = s.standing) :
      CallEffect s (.updatePass timepoint delta) none { s with
        contexts
        tickerSet := s.tickerSet.filter fun sid => (s.serviceMap.lookup sid).isSome }
  | ticking {sid : Int} :
      CallEffect s (.insertTicker sid) none { s with tickerSet := s.ticking sid }
  | untickered {sid : Int} {tickerSet : Finset Int}
      (others : ∀ {other}, other ≠ sid → other ∈ s.tickerSet → other ∈ tickerSet) :
      CallEffect s (.removeTicker sid) none { s with tickerSet }

variable {s t : UServiceModule} {call : ServiceCall} {rest : Option ServiceCall}

theorem updatePass_standing (timepoint delta : Int) (ticked : List (Sigma fun _ : Int =>
    UServiceAgent)) (s : UServiceModule) : ({ s with
      contexts := ticked.foldl (fun contexts entry => Table.modify entry.2.serial
        (ServiceContext.pushTicker timepoint delta) contexts) s.contexts } :
      UServiceModule).standing = s.standing := by
  induction ticked generalizing s with
  | nil => rfl
  | cons entry rest ih =>
    have kept := standing_edit (pushTicker_standing timepoint delta) entry.2.serial s
    exact (ih (s.edit entry.2.serial (ServiceContext.pushTicker timepoint delta))).trans kept

theorem boot_effect {name : String} {occasion : Nat} {first : Int}
    (reaches : Reaches (ServiceCall.part (.boot name occasion first)) s rest t) :
    CallEffect s (.boot name occasion first) rest t := by
  unfold ServiceCall.part at reaches
  have reaches := reaches.congr (bind_ok bootCreate_apply _)
  cases made : s.created name occasion with
  | none =>
    rw [made] at reaches
    obtain ⟨rfl, rfl⟩ := reaches.of_ok (u := s) rfl
    exact .unmade made
  | some service =>
    rw [made] at reaches
    cases taken : s.allocator.allocateLocked first with
    | none =>
      obtain ⟨rfl, rfl⟩ := reaches.of_ok (bind_ok (allocateLocked_none taken) _)
      exact .empty made taken
    | some found =>
      obtain ⟨rfl, rfl⟩ := reaches.of_ok (bind_ok (allocateLocked_some taken) _)
      exact .took made taken

theorem bootCheck_effect {sid : Int} {service : IServiceBase}
    (reaches : Reaches (ServiceCall.part (.bootCheck sid service)) s rest t) :
    CallEffect s (.bootCheck sid service) rest t := by
  unfold ServiceCall.part at reaches
  cases held : s.serviceMap.lookup sid with
  | some other =>
    have present : (s.serviceMap.lookup sid).isSome := by rw [held]; rfl
    obtain ⟨rfl, rfl⟩ := reaches.of_ok (bind_ok (bootCheck_present present) _)
    exact .repeated present
  | none =>
    cases initial : service.initial with
    | error what =>
      rcases reaches with returned | ⟨rfl, other, threw⟩
      · cases (bind_error (bootCheck_threw held initial) _).symm.trans returned
      · cases (bind_error (bootCheck_threw held initial) _).symm.trans threw
        exact .initialThrew held initial
    | ok ready =>
      have reaches := reaches.congr (bind_ok (bootCheck_ok held initial) _)
      cases valid : ready && !undefinedName service.name with
      | false =>
        rw [valid] at reaches
        obtain ⟨rfl, rfl⟩ := reaches.of_ok (u := s.make sid service) rfl
        exact .invalid held
      | true =>
        rw [valid] at reaches
        obtain ⟨rfl, rfl⟩ := reaches.of_ok (u := s.make sid service) rfl
        exact .valid held

theorem bootName_effect {sid : Int} {agent : UServiceAgent}
    (reaches : Reaches (ServiceCall.part (.bootName sid agent)) s rest t) :
    CallEffect s (.bootName sid agent) rest t := by
  unfold ServiceCall.part at reaches
  have reaches := reaches.congr (bind_ok bootName_apply _)
  cases known : s.serviceNameMap.lookup agent.name with
  | none =>
    rw [known] at reaches
    obtain ⟨rfl, rfl⟩ := reaches.of_ok (u := s) rfl
    exact .free known
  | some other =>
    rw [known] at reaches
    obtain ⟨rfl, rfl⟩ := reaches.of_ok (u := s) rfl
    exact .taken (by rw [known]; rfl)

theorem bootStart_effect {sid : Int} {agent : UServiceAgent}
    (reaches : Reaches (ServiceCall.part (.bootStart sid agent)) s rest t) :
    CallEffect s (.bootStart sid agent) rest t := by
  unfold ServiceCall.part at reaches
  cases opened : s.isOpen agent with
  | false =>
    rcases reaches with returned | ⟨rfl, what, threw⟩
    · cases (bind_error (agentBootService_closed opened) _).symm.trans returned
    · cases (bind_error (agentBootService_closed opened) _).symm.trans threw
      exact .startThrew
  | true =>
    cases start : agent.service.start with
    | error what =>
      rcases reaches with returned | ⟨rfl, other, threw⟩
      · cases (bind_error (agentBootService_threw opened start) _).symm.trans returned
      · cases (bind_error (agentBootService_threw opened start) _).symm.trans threw
        exact .startThrew
    | ok came =>
      cases came with
      | false =>
        obtain ⟨rfl, rfl⟩ := reaches.of_ok (bind_ok (agentBootService_refused opened start) _)
        exact .unstarted start
      | true =>
        obtain ⟨rfl, rfl⟩ := reaches.of_ok (bind_ok (agentBootService_started opened start) _)
        exact .started start

theorem shutdown_effect {sid : Int}
    (reaches : Reaches (ServiceCall.part (.shutdown sid)) s rest t) :
    CallEffect s (.shutdown sid) rest t := by
  unfold ServiceCall.part at reaches
  by_cases running : s.state = .running
  · have entered := shutdownEntry_running running sid
    cases held : s.serviceMap.lookup sid with
    | none =>
      rw [removeService_none held] at entered
      obtain ⟨rfl, rfl⟩ := reaches.of_ok (bind_ok entered _)
      exact .absent
    | some agent =>
      rw [removeService_some held] at entered
      obtain ⟨rfl, rfl⟩ := reaches.of_ok (bind_ok entered _)
      exact .removed held
  · obtain ⟨rfl, rfl⟩ := reaches.of_ok (bind_ok (shutdownEntry_idle running) _)
    exact .absent

theorem shutdownNamed_effect {name : String}
    (reaches : Reaches (ServiceCall.part (.shutdownNamed name)) s rest t) :
    CallEffect s (.shutdownNamed name) rest t := by
  unfold ServiceCall.part at reaches
  cases known : s.named name with
  | none =>
    obtain ⟨rfl, rfl⟩ := reaches.of_ok (bind_ok (shutdownNamed_none known) _)
    exact .unknown known
  | some sid =>
    have reaches := reaches.congr (bind_ok (shutdownNamed_some known) _)
    have known := UServiceModule.named_lookup known
    by_cases negative : sid < 0
    · rw [if_pos negative] at reaches
      obtain ⟨rfl, rfl⟩ := reaches.of_ok (u := { s with
        serviceNameMap := s.serviceNameMap.erase name }) rfl
      exact .negative known negative
    · rw [if_neg negative] at reaches
      obtain ⟨rfl, rfl⟩ := reaches.of_ok (u := { s with
        serviceNameMap := s.serviceNameMap.erase name }) rfl
      exact .named known (by omega)

theorem shutdownFound_effect {name : String} {sid : Int}
    (reaches : Reaches (ServiceCall.part (.shutdownFound name sid)) s rest t) :
    CallEffect s (.shutdownFound name sid) rest t := by
  unfold ServiceCall.part at reaches
  cases held : s.serviceMap.lookup sid with
  | none =>
    obtain ⟨rfl, rfl⟩ := reaches.of_ok (bind_ok (removeService_none held) _)
    exact .missing held
  | some agent =>
    obtain ⟨rfl, rfl⟩ := reaches.of_ok (bind_ok (removeService_some held) _)
    exact .removedNamed held

theorem find_effect {purpose : Purpose} {name : String}
    (reaches : Reaches (ServiceCall.part (.find purpose name)) s rest t) :
    CallEffect s (.find purpose name) rest t := by
  unfold ServiceCall.part at reaches
  have reaches := reaches.congr (get_bind _ _)
  cases admitted : purpose.admitted name s with
  | false =>
    rw [admitted] at reaches
    obtain ⟨rfl, rfl⟩ := reaches.of_ok (u := s) rfl
    exact .unfound
  | true =>
    rw [admitted] at reaches
    by_cases running : s.state = .running
    · cases known : (s.serviceNameMap.lookup name).filter fun sid => 0 ≤ sid with
      | none =>
        have ran : findServiceId name s = .ok none s := by
          simp only [findServiceId, get_bind]
          rw [if_neg (not_not.mpr running), known, pure_apply]
        obtain ⟨rfl, rfl⟩ := reaches.of_ok (bind_ok ran _)
        exact .unfound
      | some sid =>
        have ran : findServiceId name s = .ok (some sid) s := by
          simp only [findServiceId, get_bind]
          rw [if_neg (not_not.mpr running), known, pure_apply]
        obtain ⟨rfl, rfl⟩ := reaches.of_ok (bind_ok ran _)
        exact .sought (Option.filter_eq_some_iff.mp known).1
    · have ran : findServiceId name s = .ok none s := by
        simp only [findServiceId, get_bind]
        rw [if_pos running, pure_apply]
      obtain ⟨rfl, rfl⟩ := reaches.of_ok (bind_ok ran _)
      exact .unfound

theorem findAgent_effect {purpose : Purpose} {name : String} {sid : Int}
    (reaches : Reaches (ServiceCall.part (.findAgent purpose name sid)) s rest t) :
    CallEffect s (.findAgent purpose name sid) rest t := by
  unfold ServiceCall.part at reaches
  by_cases running : s.state = .running
  · have ran : findService sid s = .ok (s.serviceMap.lookup sid) s := by
      simp only [findService, get_bind]
      rw [if_neg (not_not.mpr running), pure_apply]
    have reaches := reaches.congr (bind_ok ran _)
    cases held : s.serviceMap.lookup sid with
    | none =>
      rw [held] at reaches
      obtain ⟨rfl, rfl⟩ := reaches.of_ok (u := s) rfl
      exact .gone
    | some agent =>
      rw [held] at reaches
      obtain ⟨rfl, rfl⟩ := reaches.of_ok (u := s) rfl
      exact .found held
  · have ran : findService sid s = .ok none s := by
      simp only [findService, get_bind]
      rw [if_pos running, pure_apply]
    obtain ⟨rfl, rfl⟩ := reaches.of_ok (bind_ok ran _)
    exact .gone

theorem removeTicker_effect {sid : Int}
    (reaches : Reaches (ServiceCall.part (.removeTicker sid)) s rest t) :
    CallEffect s (.removeTicker sid) rest t := by
  unfold ServiceCall.part at reaches
  by_cases active : s.state = .running ∧ 0 ≤ sid
  · have ran : Uranus.removeTicker sid s =
        .ok () { s with tickerSet := s.tickerSet.erase sid } := by
      simp only [Uranus.removeTicker, get_bind]
      rw [if_neg (not_not.mpr active.1), if_neg (by omega), modify_apply]
    obtain ⟨rfl, rfl⟩ := reaches.of_ok (bind_ok ran _)
    exact .untickered fun other held => Finset.mem_erase.mpr ⟨other, held⟩
  · have ran : Uranus.removeTicker sid s = .ok () s := by
      simp only [Uranus.removeTicker, get_bind]
      by_cases running : s.state = .running
      · rw [if_neg (not_not.mpr running), if_pos (by simpa [running] using active), pure_apply]
      · rw [if_pos running, pure_apply]
    obtain ⟨rfl, rfl⟩ := reaches.of_ok (bind_ok ran _)
    exact .untickered fun _ held => held

/-- What every section does. -/
theorem part_effect (reaches : Reaches call.part s rest t) : CallEffect s call rest t := by
  cases call with
  | boot => exact boot_effect reaches
  | bootFresh service =>
    obtain ⟨rfl, rfl⟩ := reaches.of_ok (u := { s with
      allocator := s.allocator.allocateFresh.2 }) rfl
    exact .fresh
  | bootCheck => exact bootCheck_effect reaches
  | bootName => exact bootName_effect reaches
  | bootStart => exact bootStart_effect reaches
  | bootRegister sid agent =>
    obtain ⟨rfl, rfl⟩ := reaches.of_ok (u := { s with
      serviceMap := s.serviceMap.insert sid agent
      serviceNameMap := s.serviceNameMap.insert agent.name sid }) rfl
    exact .registered
  | bootRefuse sid agent =>
    obtain ⟨rfl, rfl⟩ := reaches.of_ok (u := { s.edit agent.serial ServiceContext.stop with
      allocator := s.allocator.recycleTS sid }) rfl
    exact .refused
  | shutdown => exact shutdown_effect reaches
  | shutdownName sid agent =>
    obtain ⟨rfl, rfl⟩ := reaches.of_ok (u := { s with
      serviceNameMap := s.serviceNameMap.erase agent.name }) rfl
    exact .unnamed
  | shutdownNamed => exact shutdownNamed_effect reaches
  | shutdownFound => exact shutdownFound_effect reaches
  | eraseTicker asked sid agent =>
    obtain ⟨rfl, rfl⟩ := reaches.of_ok (u := { s with tickerSet := s.tickerSet.erase sid }) rfl
    exact .unticked
  | recycle asked sid agent =>
    obtain ⟨rfl, rfl⟩ := reaches.of_ok (u := { s with
      allocator := s.allocator.recycleTS sid
      recyclings := (sid, agent) ::ₘ s.recyclings }) rfl
    exact .recycled
  | halt asked sid agent =>
    obtain ⟨rfl, rfl⟩ := reaches.of_ok (u := { s.edit agent.serial ServiceContext.stop with
      halts := (sid, agent) ::ₘ s.halts }) rfl
    exact .halted
  | find => exact find_effect reaches
  | findAgent => exact findAgent_effect reaches
  | found purpose name agent =>
    cases purpose with
    | find =>
      obtain ⟨rfl, rfl⟩ := reaches.of_ok (u := s) rfl
      exact .served rfl
    | postPackage pkg | postTask task =>
      obtain ⟨rfl, rfl⟩ := reaches.of_ok (u := s.edit agent.serial _) rfl
      refine .served (standing_edit (fun context => ?_) agent.serial s)
      exact post_standing (fun m => Mailbox.push_process _ m) context
  | updatePass timepoint delta =>
    obtain ⟨rfl, rfl⟩ := reaches.of_ok rfl
    exact .passed (updatePass_standing _ _ _ s)
  | insertTicker sid =>
    obtain ⟨rfl, rfl⟩ := reaches.of_ok (bind_ok insertTicker_apply _)
    exact .ticking
  | removeTicker => exact removeTicker_effect reaches

end Uranus
