import Uranus.Foundation.Inverse
import Uranus.Foundation.Path
import Uranus.Service.ServiceModule

/-! Complete calls of the service module, one after the other. The maps of ids
and names mirror each other, and the ids in use are those that the allocator has
given out, as long as no hook of a service throws: `BootService` recycles its id
at every exit except an exception. -/
namespace Uranus
open Foundation Program
variable {s t : UServiceModule} {sid first : Int} {service : IServiceBase}
  {agent : UServiceAgent} {name : String} {occasion : Nat}

inductive ServiceOp where
  | boot (name : String) (occasion : Nat) (first : Int)
  | shutdown (sid : Int)
  | shutdownNamed (name : String)
deriving DecidableEq

def ServiceOp.run : ServiceOp → ServiceM Unit
  | .boot name occasion first => bootService name occasion first
  | .shutdown sid => shutdownService sid
  | .shutdownNamed name => shutdownServiceByName name

/-- A complete call, which may also come back by an exception. -/
def UServiceModule.step (s : UServiceModule) (op : ServiceOp) (t : UServiceModule) : Prop :=
  Ends op.run s t

/-- The maps mirror each other, and their ids are the outstanding ones. -/
structure Registered (s : UServiceModule) : Prop where
  inverse : Inverse s.serviceNameMap.lookup (serviceNames s.serviceMap)
  sound : s.allocator.Sound
  outstanding : ∀ sid, (s.serviceMap.lookup sid).isSome ↔ sid ∈ s.allocator.outstanding

/-- Both maps, the tickers and the outstanding ids are as before. -/
structure Unchanged (s t : UServiceModule) : Prop where
  services : t.serviceMap = s.serviceMap
  names : t.serviceNameMap = s.serviceNameMap
  tickers : t.tickerSet = s.tickerSet
  outstanding : t.allocator.outstanding = s.allocator.outstanding

/-- A service has been registered, under an id of its own. -/
def Enlists (s t : UServiceModule) : Prop :=
  ∃ sid agent, s.serviceMap.lookup sid = none ∧
    t.serviceMap = s.serviceMap.insert sid agent ∧
    t.serviceNameMap = s.serviceNameMap.insert agent.name sid

/-- A `BootService` that does not register a service changes nothing. -/
def LeavesNoTrace (s : UServiceModule) : ServiceOp → UServiceModule → Prop
  | .boot .., t => Enlists s t ∨ Unchanged s t
  | .shutdown _, _ | .shutdownNamed _, _ => True

/-- A hook throws that `BootService` calls for the service. -/
def Throws (s : UServiceModule) (service : IServiceBase) : Prop :=
  (∃ what, service.initial = .error what) ∨
    service.initial = .ok true ∧ undefinedName service.name = false ∧
      s.serviceNameMap.lookup service.name = none ∧ ∃ what, service.start = .error what

/-- No hook that the call reaches throws. -/
def HooksReturn (s : UServiceModule) : ServiceOp → Prop
  | .boot name occasion _ => ∀ service, s.created name occasion = some service → ¬ Throws s service
  | .shutdown _ | .shutdownNamed _ => True

theorem bootService_unmade (unmade : s.created name occasion = none) :
    bootService name occasion first s = .ok () s := by
  simp only [bootService]
  rw [bind_ok (bootCreate_apply), unmade]
  rfl

/-- `BootService` goes on with the id that the allocator gives it. -/
theorem bootService_made
    (made : s.created name occasion = some service) :
    bootService name occasion first s =
      bootRest (s.allocator.allocateTS first).1 service
        { s with allocator := (s.allocator.allocateTS first).2 } := by
  simp only [bootService]
  rw [bind_ok (bootCreate_apply), made]
  unfold TIdentAllocator.allocateTS
  cases taken : s.allocator.allocateLocked first with
  | none =>
    dsimp only
    rw [bind_ok (allocateLocked_none taken)]
    rfl
  | some found =>
    dsimp only
    rw [bind_ok (allocateLocked_some taken)]
    rfl

theorem allocateTS_sound {a : TIdentAllocator} (sound : a.Sound) (first : Int) :
    (a.allocateTS first).2.Sound ∧ (a.allocateTS first).1 ∉ a.outstanding ∧
      (a.allocateTS first).2.outstanding = insert (a.allocateTS first).1 a.outstanding := by
  unfold TIdentAllocator.allocateTS
  cases taken : a.allocateLocked first with
  | none => exact sound.allocateFresh
  | some found => exact sound.allocateLocked taken

theorem make_isOpen (s : UServiceModule) (sid : Int) (service : IServiceBase) :
    (s.make sid service).isOpen ⟨s.nextAgent, service⟩ = true := by
  simp [UServiceModule.isOpen, UServiceModule.make, ServiceContext.new, Mailbox.new, Channel.new]

/-- How `BootService` ends once it has an id that is not in use. -/
inductive Booted (s : UServiceModule) (sid : Int) (service : IServiceBase) (t : UServiceModule) :
    Prop where
  | threw (throws : Throws s service)
      (services : t.serviceMap = s.serviceMap) (allocator : t.allocator = s.allocator)
  | refused (returns : ¬ Throws s service)
      (services : t.serviceMap = s.serviceMap) (names : t.serviceNameMap = s.serviceNameMap)
      (tickers : t.tickerSet = s.tickerSet) (allocator : t.allocator = s.allocator.recycleTS sid)
  | registered {agent : UServiceAgent} (returns : ¬ Throws s service)
      (free : s.serviceNameMap.lookup agent.name = none)
      (services : t.serviceMap = s.serviceMap.insert sid agent)
      (names : t.serviceNameMap = s.serviceNameMap.insert agent.name sid)
      (allocator : t.allocator = s.allocator)

theorem bootRefuse_ends {u : UServiceModule} (ends : Ends (bootRefuse sid agent) u t) :
    t.serviceMap = u.serviceMap ∧ t.serviceNameMap = u.serviceNameMap ∧
      t.tickerSet = u.tickerSet ∧ t.allocator = u.allocator.recycleTS sid := by
  cases ends.of_ok (u := { u.edit agent.serial ServiceContext.stop with
    allocator := u.allocator.recycleTS sid }) rfl
  exact ⟨rfl, rfl, rfl, rfl⟩

/-- The last part of `BootService`, for a service with a name of its own. -/
theorem bootStart_booted
    (free : s.serviceNameMap.lookup service.name = none)
    (defined : undefinedName service.name = false) (initial : service.initial = .ok true)
    (ends : Ends (do
      if ← agentBootService sid ⟨s.nextAgent, service⟩ then bootRegister sid ⟨s.nextAgent, service⟩
      else bootRefuse sid ⟨s.nextAgent, service⟩) (s.make sid service) t) :
    Booted s sid service t := by
  have opened := make_isOpen s sid service
  cases start : service.start with
  | error what =>
    cases ends.of_exception (bind_error (agentBootService_threw opened start) _)
    exact .threw (.inr ⟨initial, defined, free, what, start⟩) rfl rfl
  | ok started =>
    have returns : ¬ Throws s service := by
      rintro (⟨what, threw⟩ | ⟨-, -, -, what, threw⟩)
      · cases initial.symm.trans threw
      · cases start.symm.trans threw
    cases started with
    | false =>
      have ends := ends.congr (bind_ok (agentBootService_refused opened start) _)
      obtain ⟨services, names, tickers, allocator⟩ := bootRefuse_ends ends
      exact .refused returns services names tickers allocator
    | true =>
      cases ends.of_ok (bind_ok (agentBootService_started opened start) _)
      exact @Booted.registered _ _ _ _ ⟨s.nextAgent, service⟩ returns free rfl rfl rfl

theorem bootRest_booted (absent : s.serviceMap.lookup sid = none)
    (ends : Ends (bootRest sid service) s t) : Booted s sid service t := by
  unfold bootRest at ends
  cases initial : service.initial with
  | error what =>
    cases ends.of_exception (bind_error (bootCheck_threw absent initial) _)
    exact .threw (.inl ⟨what, initial⟩) rfl rfl
  | ok ready =>
    have ends := ends.congr (bind_ok (bootCheck_ok absent initial) _)
    cases valid : ready && !undefinedName service.name with
    | false =>
      rw [valid] at ends
      have returns : ¬ Throws s service := by
        rintro (⟨what, threw⟩ | ⟨initial', defined, -⟩)
        · cases initial.symm.trans threw
        · cases initial.symm.trans initial'
          simp [defined] at valid
      obtain ⟨services, names, tickers, allocator⟩ := bootRefuse_ends ends
      exact .refused returns services names tickers allocator
    | true =>
      rw [valid] at ends
      obtain ⟨rfl, defined⟩ : ready = true ∧ undefinedName service.name = false := by
        simpa using valid
      have ends := ends.congr (bind_ok bootName_apply _)
      cases named : s.serviceNameMap.lookup service.name with
      | some holder =>
        have returns : ¬ Throws s service := by
          rintro (⟨what, threw⟩ | ⟨-, -, free, -⟩)
          · cases initial.symm.trans threw
          · cases named.symm.trans free
        have taken : ((s.make sid service).serviceNameMap.lookup
            (⟨s.nextAgent, service⟩ : UServiceAgent).name).isNone = false := by
          simp [UServiceModule.make, UServiceAgent.name, named]
        rw [taken] at ends
        obtain ⟨services, names, tickers, allocator⟩ := bootRefuse_ends ends
        exact .refused returns services names tickers allocator
      | none =>
        have free : ((s.make sid service).serviceNameMap.lookup
            (⟨s.nextAgent, service⟩ : UServiceAgent).name).isNone = true := by
          simp [UServiceModule.make, UServiceAgent.name, named]
        rw [free] at ends
        exact bootStart_booted named defined initial ends

/-- A service has been shut down, and its name is free. -/
structure ShutDown (s : UServiceModule) (sid : Int) (name : String) (t : UServiceModule) :
    Prop where
  services : t.serviceMap = s.serviceMap.erase sid
  names : t.serviceNameMap = s.serviceNameMap.erase name
  allocator : t.allocator = s.allocator.recycleTS sid

theorem shutdownService_ends (ends : Ends (shutdownService sid) s t) :
    t = s ∨ ∃ agent, s.serviceMap.lookup sid = some agent ∧ ShutDown s sid agent.name t := by
  by_cases running : s.state = .running
  · have entered := shutdownEntry_running running sid
    cases found : s.serviceMap.lookup sid with
    | none =>
      rw [removeService_none found] at entered
      exact .inl (ends.of_ok (bind_ok entered _))
    | some agent =>
      rw [removeService_some found] at entered
      cases ends.of_ok (bind_ok entered _)
      exact .inr ⟨agent, rfl, ⟨rfl, rfl, rfl⟩⟩
  · exact .inl (ends.of_ok (bind_ok (shutdownEntry_idle running) _))

/-- A name that is in use is that of a service, which has an id from the allocator. -/
theorem Registered.named (registered : Registered s)
    (known : s.serviceNameMap.lookup name = some sid) :
    0 < sid ∧ ∃ agent, s.serviceMap.lookup sid = some agent ∧ agent.name = name := by
  have named := (registered.inverse name sid).mp known
  obtain ⟨agent, present, same⟩ := Option.map_eq_some_iff.mp named
  have out := (registered.outstanding sid).mp (by rw [present]; rfl)
  exact ⟨out.1.1, agent, present, same⟩

theorem shutdownServiceByName_ends (registered : Registered s)
    (ends : Ends (shutdownServiceByName name) s t) :
    t = s ∨ ∃ sid agent, s.serviceMap.lookup sid = some agent ∧ ShutDown s sid agent.name t := by
  cases known : s.named name with
  | none => exact .inl (ends.of_ok (bind_ok (shutdownNamed_none known) _))
  | some sid =>
    obtain ⟨positive, agent, present, rfl⟩ := registered.named (UServiceModule.named_lookup known)
    have ends := ends.congr (bind_ok (shutdownNamed_some known) _)
    rw [if_neg (by omega)] at ends
    have removed := removeService_some (s := { s with
      serviceNameMap := s.serviceNameMap.erase agent.name }) present
    cases ends.of_ok (bind_ok removed _)
    exact .inr ⟨sid, agent, present, ⟨rfl, rfl, rfl⟩⟩

theorem Registered.shutDown (registered : Registered s)
    (present : s.serviceMap.lookup sid = some agent) (down : ShutDown s sid agent.name t) :
    Registered t := by
  have out := (registered.outstanding sid).mp (by rw [present]; rfl)
  have named := (registered.inverse agent.name sid).mpr (serviceNames_some present)
  obtain ⟨sound, outstanding⟩ := registered.sound.recycleTS out
  constructor
  · rw [down.services, down.names, serviceNames_erase, Table.lookup_erase_update]
    -- the id leaves first, so that its name points to it alone
    have upTo : InverseUpTo (fun name id => name = agent.name ∧ id = sid) (fun _ _ => False)
        s.serviceNameMap.lookup (Function.update (serviceNames s.serviceMap) sid none) := by
      refine (registered.inverse.upTo (P := fun _ _ => False) (Q := fun _ _ => False)).forgetBack
        False.elim (fun _ wrong => wrong) fun known => ?_
      exact ⟨registered.inverse.injective known named, rfl⟩
    have both : InverseUpTo (fun _ _ => False) (fun _ _ => False)
        (Function.update s.serviceNameMap.lookup agent.name none)
        (Function.update (serviceNames s.serviceMap) sid none) := by
      refine upTo.forget (fun other pending => other pending.1) (fun wrong => wrong) ?_
      intro id still
      by_cases same : id = sid
      · subst same
        rw [Function.update_self] at still
        cases still
      · rw [Function.update_of_ne same] at still
        exact same (registered.inverse.symm.injective still (serviceNames_some present))
    exact both.inverse (fun _ _ => not_false) fun _ _ => not_false
  · rw [down.allocator]
    exact sound
  · intro id
    rw [down.services, down.allocator, outstanding, Table.lookup_erase_ite]
    by_cases same : id = sid
    · simp [same]
    · simp [same, registered.outstanding id]

/-- What a `BootService` on a consistent module comes to. -/
theorem bootService_ends (registered : Registered s)
    (ends : Ends (bootService name occasion first) s t) :
    s.created name occasion = none ∧ t = s ∨ ∃ service, s.created name occasion = some service ∧
      Booted { s with allocator := (s.allocator.allocateTS first).2 }
        (s.allocator.allocateTS first).1 service t := by
  cases made : s.created name occasion with
  | none => exact .inl ⟨rfl, ends.of_ok (bootService_unmade made)⟩
  | some service =>
    have fresh := (allocateTS_sound registered.sound first).2.1
    have absent : s.serviceMap.lookup (s.allocator.allocateTS first).1 = none := by
      by_contra present
      exact fresh ((registered.outstanding _).mp (Option.isSome_iff_ne_none.mpr present))
    have ends := ends.congr (bootService_made made)
    exact .inr ⟨service, rfl, bootRest_booted absent ends⟩

theorem not_hooksReturn (created : s.created name occasion = some service) :
    ¬ HooksReturn s (.boot name occasion first) ↔ Throws s service := by
  constructor
  · intro fails
    by_contra returns
    apply fails
    intro other made
    cases created.symm.trans made
    exact returns
  · exact fun throws returns => returns service created throws

/-- A `BootService` without an exception keeps the registry, and one that
registers nothing leaves no trace. -/
theorem Registered.booted (registered : Registered s)
    (booted : Booted { s with allocator := (s.allocator.allocateTS first).2 }
      (s.allocator.allocateTS first).1 service t) (returns : ¬ Throws s service) :
    Registered t ∧ (Enlists s t ∨ Unchanged s t) := by
  obtain ⟨sound, fresh, outstanding⟩ := allocateTS_sound registered.sound first
  have out : (s.allocator.allocateTS first).1 ∈ (s.allocator.allocateTS first).2.outstanding := by
    rw [outstanding]
    exact Set.mem_insert _ _
  cases booted with
  | threw throws => exact absurd throws returns
  | refused _ services names tickers allocator =>
    obtain ⟨kept, back⟩ := sound.recycleTS out
    rw [outstanding, Set.insert_sdiff_self_of_notMem fresh, ← allocator] at back
    refine ⟨⟨?_, ?_, ?_⟩, .inr ⟨services, names, tickers, back⟩⟩
    · rw [services, names]
      exact registered.inverse
    · rw [allocator]
      exact kept
    · intro id
      rw [services, back]
      exact registered.outstanding id
  | @registered agent _ free services names allocator =>
    have absent : s.serviceMap.lookup (s.allocator.allocateTS first).1 = none := by
      by_contra present
      exact fresh ((registered.outstanding _).mp (Option.isSome_iff_ne_none.mpr present))
    refine ⟨⟨?_, ?_, ?_⟩, .inl ⟨_, agent, absent, services, names⟩⟩
    · rw [services, names, serviceNames_insert, Table.lookup_insert_update]
      have upTo := registered.inverse.upTo (P := fun _ _ => False) (Q := fun _ _ => False)
      exact (upTo.insert free (serviceNames_none.mpr absent)).inverse (fun _ _ => not_false)
        fun _ _ => not_false
    · rw [allocator]
      exact sound
    · intro id
      rw [services, allocator, outstanding, Table.lookup_insert_ite, Set.mem_insert_iff]
      by_cases same : id = (s.allocator.allocateTS first).1
      · simp [same]
      · simp [same, registered.outstanding id]

/-- A hook that throws leaves an id outstanding that no service has. -/
theorem not_registered_threw (registered : Registered s)
    (booted : Booted { s with allocator := (s.allocator.allocateTS first).2 }
      (s.allocator.allocateTS first).1 service t) (throws : Throws s service) :
    ¬ Registered t := by
  obtain ⟨-, fresh, outstanding⟩ := allocateTS_sound registered.sound first
  intro still
  cases booted with
  | refused returns => exact returns throws
  | registered returns => exact returns throws
  | threw _ services allocator =>
    have lost := (still.outstanding (s.allocator.allocateTS first).1).mpr (by
      rw [allocator, outstanding]
      exact Set.mem_insert _ _)
    rw [services] at lost
    exact fresh ((registered.outstanding _).mp lost)

theorem step_keeps (registered : Registered s) {op : ServiceOp} (returns : HooksReturn s op)
    (moved : s.step op t) : Registered t ∧ LeavesNoTrace s op t := by
  cases op with
  | boot name occasion first =>
    rcases bootService_ends registered moved with ⟨-, rfl⟩ | ⟨service, created, booted⟩
    · exact ⟨registered, .inr ⟨rfl, rfl, rfl, rfl⟩⟩
    · exact registered.booted booted (returns service created)
  | shutdown sid =>
    rcases shutdownService_ends moved with rfl | ⟨agent, present, down⟩
    · exact ⟨registered, trivial⟩
    · exact ⟨registered.shutDown present down, trivial⟩
  | shutdownNamed name =>
    rcases shutdownServiceByName_ends registered moved with rfl | ⟨sid, agent, present, down⟩
    · exact ⟨registered, trivial⟩
    · exact ⟨registered.shutDown present down, trivial⟩

theorem step_breaks (registered : Registered s) {op : ServiceOp} (fails : ¬ HooksReturn s op)
    (moved : s.step op t) : ¬ Registered t := by
  cases op with
  | boot name occasion first =>
    rcases bootService_ends registered moved with ⟨none, -⟩ | ⟨service, created, booted⟩
    · refine absurd (fun service made => ?_) fails
      cases none.symm.trans made
    · exact not_registered_threw registered booted ((not_hooksReturn created).mp fails)
  | shutdown | shutdownNamed => exact absurd trivial fails

open Transition in
/-- Whatever the calls, the registry stays consistent and failed boots leave no
trace if and only if no hook throws that a `BootService` reaches. -/
theorem registered_iff_hooksReturn (registered : Registered s)
    {path : List (ServiceOp × UServiceModule)} (run : Path UServiceModule.step s path) :
    Always Registered s path ∧ Path LeavesNoTrace s path ↔ Every HooksReturn s path := by
  constructor
  · rintro ⟨always, -⟩
    apply run.every_of_always (J := fun _ => True) (fun _ _ => trivial) _ trivial always
    exact fun _ registered fails moved => step_breaks registered fails moved
  · intro returns
    have always : Always Registered s path := by
      apply run.always _ registered returns
      exact fun registered returns moved => (step_keeps registered returns moved).1
    refine ⟨always, (run.guarded returns).steps ?_ always⟩
    exact fun registered moved => (step_keeps registered moved.1 moved.2).2

theorem Registered.started (factory : IServiceFactory) : Registered (.started factory) where
  inverse := by
    intro name sid
    constructor <;> (intro known; cases known)
  sound := .new
  outstanding := by
    intro sid
    simp [UServiceModule.started, UServiceModule.new, TIdentAllocator.outstanding_new]

def UServiceModule.runs (s : UServiceModule) (ops : List ServiceOp) :
    List (ServiceOp × UServiceModule) :=
  Transition.trace (fun s op => after op.run s) s ops

theorem UServiceModule.runs_path (s : UServiceModule) (ops : List ServiceOp) :
    Transition.Path UServiceModule.step s (s.runs ops) :=
  Transition.trace_path ends_of_after ops

def brittleModule : UServiceModule :=
  .started (.only { mailService with initial := .error "no such table" })

/-- The id of a service whose `Initial` throws is lost. -/
theorem brittleModule_leaks :
    brittleModule.state = .running ∧ Registered brittleModule ∧
      Transition.Path UServiceModule.step brittleModule
        (brittleModule.runs [.boot "mail" 0 0]) ∧
      ¬ (Transition.Always Registered brittleModule (brittleModule.runs [.boot "mail" 0 0]) ∧
        Transition.Path LeavesNoTrace brittleModule (brittleModule.runs [.boot "mail" 0 0])) := by
  refine ⟨rfl, .started _, brittleModule.runs_path _, fun kept => ?_⟩
  have lost := (kept.1.last.outstanding 1).mpr ⟨by decide +kernel, by decide +kernel⟩
  cases lost

theorem registered_iff_hooksReturn_mail :
    Transition.Always Registered (.started (.only mailService))
        (UServiceModule.runs (.started (.only mailService)) [.boot "mail" 0 0, .shutdown 1]) ∧
      Transition.Path LeavesNoTrace (.started (.only mailService))
        (UServiceModule.runs (.started (.only mailService)) [.boot "mail" 0 0, .shutdown 1]) ↔
    Transition.Every HooksReturn (.started (.only mailService))
      (UServiceModule.runs (.started (.only mailService)) [.boot "mail" 0 0, .shutdown 1]) :=
  registered_iff_hooksReturn (.started _) (UServiceModule.runs_path _ _)

end Uranus
