import Uranus.Service.Lifecycle
import Uranus.Service.Registry

/-! `Initial` of the service module as one call. Every id that the loop over the
core services has taken is the key of a service, free again or lost, and it is
lost where a name is in use already, or where a hook throws. -/
namespace Uranus
open Foundation Program

/-- So many sections of the main thread, one after the other. -/
def mainSteps : Nat → ServiceM Unit
  | 0 => pure ()
  | count + 1 => do
    mainNext
    mainSteps count

/-- `UServiceModule::Initial`, with the core services of the configuration. -/
def initialModule (cores : List CoreService) : ServiceM Unit := do
  mainInitial cores
  mainSteps (cores.length + 3)

namespace IServiceFactory
variable (factory : IServiceFactory)

def coreInstance (core : CoreService) : Option IServiceBase :=
  factory.createInstance ("core." ++ core.name) core.occasion

/-- The instances of the core services whose `Initial` answers true. -/
def ready (cores : List CoreService) : List IServiceBase :=
  (cores.filterMap factory.coreInstance).filter fun service => service.initial = .ok true

def readyNames (cores : List CoreService) : List String := (factory.ready cores).map (·.name)

/-- No `Initial` of a core service throws. -/
def InitialReturns (cores : List CoreService) : Prop :=
  ∀ core ∈ cores, ∀ service ∈ factory.coreInstance core, ∀ what, service.initial ≠ .error what

end IServiceFactory

namespace UServiceModule

/-- The ids of the registered services. -/
def keys (s : UServiceModule) : Multiset Int := (Table.pairs s.serviceMap).map Prod.fst

/-- The maps mirror each other, every name is a proper one, and the ids given out,
which are those up to the counter, are all in use or free. -/
structure IdsAccounted (s : UServiceModule) : Prop where
  inverse : Inverse s.serviceNameMap.lookup (serviceNames s.serviceMap)
  named : ∀ name sid, s.serviceNameMap.lookup name = some sid → undefinedName name = false
  placed : ∀ id, 0 < id ∧ id ≤ s.allocator.next →
    (s.serviceMap.lookup id).isSome ∨ id ∈ s.allocator.hashSet
  counted : s.allocator.usage = s.serviceMap.size

/-- What holds all through the loop, with the ids that are lost. -/
structure Tallied (s : UServiceModule) (lost : Multiset Int) : Prop where
  inverse : Inverse s.serviceNameMap.lookup (serviceNames s.serviceMap)
  divides : s.allocator.Divides (s.keys + lost)
  usage : s.allocator.usage = s.keys.card + lost.card
  opened : ∀ sid agent, s.serviceMap.lookup sid = some agent →
    agent.serial < s.nextAgent ∧ s.isOpen agent

end UServiceModule

section
variable {a : TIdentAllocator} {held : Multiset Int}

theorem TIdentAllocator.Divides.allocate (divides : a.Divides held) (first : Int) :
    (a.allocate first).2.Divides ((a.allocate first).1 ::ₘ held) ∧
      (a.allocate first).2.usage = a.usage + 1 := by
  unfold TIdentAllocator.allocate TIdentAllocator.allocateTS
  cases taken : a.allocateLocked first with
  | none => exact ⟨divides.allocateFresh, rfl⟩
  | some found =>
    obtain ⟨id, b⟩ := found
    obtain ⟨free, rfl⟩ := TIdentAllocator.allocateLocked_some taken
    exact ⟨divides.take free _, rfl⟩

end

namespace UServiceModule

/-- The id that the next core service gets. -/
def coreId (s : UServiceModule) (core : CoreService) : Int := (s.allocator.allocate core.first).1

/-- The module with an agent for a core service. -/
def prepared (s : UServiceModule) (core : CoreService) (service : IServiceBase) : UServiceModule :=
  UServiceModule.make { s with allocator := (s.allocator.allocate core.first).2 } (s.coreId core)
    service

/-- The module once the agent made last has been stopped. -/
def discarded (s : UServiceModule) (core : CoreService) (service : IServiceBase) :
    UServiceModule :=
  (s.prepared core service).edit s.nextAgent ServiceContext.stop

/-- The module with its id back. -/
def recycled (s : UServiceModule) (core : CoreService) (service : IServiceBase) :
    UServiceModule :=
  { s.discarded core service with
    allocator := (s.allocator.allocate core.first).2.recycle (s.coreId core) }

def enlisted (s : UServiceModule) (core : CoreService) (service : IServiceBase) :
    UServiceModule :=
  { s.prepared core service with
    serviceMap := s.serviceMap.insert (s.coreId core) ⟨s.nextAgent, service⟩
    serviceNameMap := s.serviceNameMap.insert service.name (s.coreId core) }

end UServiceModule

/-- How `Initial` ends for one core service. -/
inductive CoreOutcome (factory : IServiceFactory) (s : UServiceModule) (core : CoreService) :
    EStateM.Result Fault UServiceModule Unit → Prop where
  | missing (none : factory.coreInstance core = none) : CoreOutcome factory s core (.ok () s)
  | threw {service : IServiceBase} {what : String}
      (made : factory.coreInstance core = some service) (initial : service.initial = .error what) :
      CoreOutcome factory s core (.error (.exception what) (s.prepared core service))
  | refused {service : IServiceBase} (made : factory.coreInstance core = some service)
      (initial : service.initial = .ok false) :
      CoreOutcome factory s core (.ok () (s.recycled core service))
  | repeated {service : IServiceBase} (made : factory.coreInstance core = some service)
      (initial : service.initial = .ok true)
      (known : s.serviceNameMap.lookup service.name ≠ none) :
      CoreOutcome factory s core (.ok () (s.discarded core service))
  | registered {service : IServiceBase} (made : factory.coreInstance core = some service)
      (initial : service.initial = .ok true)
      (fresh : s.serviceNameMap.lookup service.name = none) :
      CoreOutcome factory s core (.ok () (s.enlisted core service))

variable {factory : IServiceFactory} {s t : UServiceModule} {core : CoreService}
  {cores : List CoreService} {lost : Multiset Int}

theorem UServiceModule.mem_keys {id : Int} : id ∈ s.keys ↔ (s.serviceMap.lookup id).isSome := by
  simp only [UServiceModule.keys, Multiset.mem_map, Prod.exists, Table.mem_pairs]
  rw [Option.isSome_iff_exists]
  constructor
  · rintro ⟨id, agent, present, rfl⟩
    exact ⟨agent, present⟩
  · rintro ⟨agent, present⟩
    exact ⟨id, agent, present, rfl⟩

/-- The id of a new service is not in use. -/
theorem UServiceModule.Tallied.unused (tallied : s.Tallied lost) (first : Int) :
    s.serviceMap.lookup (s.allocator.allocate first).1 = none := by
  have nodup := (tallied.divides.allocate first).1.nodup
  have fresh := (Multiset.nodup_cons.mp nodup).1
  rw [Multiset.mem_add, not_or, UServiceModule.mem_keys] at fresh
  simpa using fresh.1

theorem coreService_made {service : IServiceBase} (loaded : s.serviceFactory = some factory)
    (made : factory.coreInstance core = some service)
    (unused : s.serviceMap.lookup (s.coreId core) = none) : coreService core s =
      (agentInitial ⟨s.nextAgent, service⟩ >>= fun ready =>
        if !ready then do
          modify fun t => { t with allocator := t.allocator.recycle (s.coreId core) }
          agentStop ⟨s.nextAgent, service⟩
        else if (s.serviceNameMap.lookup service.name).isSome then agentStop ⟨s.nextAgent, service⟩
        else bootRegister (s.coreId core) ⟨s.nextAgent, service⟩) (s.prepared core service) := by
  simp only [coreService, get_bind, loaded]
  rw [IServiceFactory.coreInstance] at made
  rw [made]
  have taken : allocate core.first s =
      .ok (s.coreId core) { s with allocator := (s.allocator.allocate core.first).2 } := rfl
  dsimp only
  rw [bind_ok taken, unused, throwIf_bind (by simp)]
  rfl

theorem coreService_outcome (loaded : s.serviceFactory = some factory)
    (tallied : s.Tallied lost) : CoreOutcome factory s core (coreService core s) := by
  cases made : factory.coreInstance core with
  | none =>
    have same : coreService core s = .ok () s := by
      rw [IServiceFactory.coreInstance] at made
      simp only [coreService, get_bind, loaded, made, pure_apply]
    rw [same]
    exact .missing made
  | some service =>
    rw [coreService_made loaded made (tallied.unused core.first)]
    cases initial : service.initial with
    | error what =>
      have threw : agentInitial ⟨s.nextAgent, service⟩ (s.prepared core service) =
          .error (.exception what) (s.prepared core service) := by
        simp only [agentInitial, initial, throw_apply]
      rw [bind_error threw]
      exact .threw made initial
    | ok ready =>
      have came : agentInitial ⟨s.nextAgent, service⟩ (s.prepared core service) =
          .ok ready (s.prepared core service) := by
        simp only [agentInitial, initial, pure_apply]
      rw [bind_ok came]
      cases ready with
      | false =>
        simp only [Bool.not_false, if_true]
        exact .refused made initial
      | true =>
        by_cases known : s.serviceNameMap.lookup service.name = none
        · simp only [known, Bool.not_true, Bool.false_eq_true, if_false, Option.isSome_none]
          exact .registered made initial known
        · have used := Option.isSome_iff_ne_none.mpr known
          simp only [used, Bool.not_true, Bool.false_eq_true, if_false, if_true]
          exact .repeated made initial known

section
variable {service : IServiceBase}

theorem UServiceModule.keys_insert (sid : Int) (agent : UServiceAgent)
    (unused : s.serviceMap.lookup sid = none) :
    (Table.pairs (s.serviceMap.insert sid agent)).map Prod.fst = sid ::ₘ s.keys := by
  have present : (s.serviceMap.insert sid agent).lookup sid = some agent := AList.lookup_insert _
  rw [Table.pairs_present present, Table.erase_insert, Table.erase_absent unused,
    Multiset.map_cons]
  rfl

/-- A new agent leaves the channels of the others alone. -/
theorem prepared_isOpen (core : CoreService) (service : IServiceBase) {agent : UServiceAgent}
    (older : agent.serial < s.nextAgent) :
    (s.prepared core service).isOpen agent = s.isOpen agent := by
  simp only [UServiceModule.isOpen, UServiceModule.prepared, UServiceModule.make,
    AList.lookup_insert_ne older.ne]

theorem discarded_isOpen (core : CoreService) (service : IServiceBase) {agent : UServiceAgent}
    (older : agent.serial < s.nextAgent) :
    (s.discarded core service).isOpen agent = s.isOpen agent := by
  rw [← prepared_isOpen core service older]
  simp only [UServiceModule.isOpen, UServiceModule.discarded, UServiceModule.edit,
    Table.lookup_modify, if_neg older.ne]

/-- The id of an agent that is not registered is lost. -/
theorem UServiceModule.Tallied.lose {t : UServiceModule} (tallied : s.Tallied lost)
    (core : CoreService) (names : t.serviceNameMap = s.serviceNameMap)
    (services : t.serviceMap = s.serviceMap)
    (taken : t.allocator = (s.allocator.allocate core.first).2)
    (grown : t.nextAgent = s.nextAgent + 1)
    (kept : ∀ {agent : UServiceAgent}, agent.serial < s.nextAgent →
      t.isOpen agent = s.isOpen agent) : t.Tallied (s.coreId core ::ₘ lost) := by
  obtain ⟨divides, usage⟩ := tallied.divides.allocate core.first
  have keys : t.keys = s.keys := by rw [UServiceModule.keys, services, ← UServiceModule.keys]
  constructor
  · rw [names, services]
    exact tallied.inverse
  · rw [keys, taken, Multiset.add_cons]
    exact divides
  · have counted := tallied.usage
    rw [keys, taken, Multiset.card_cons]
    push_cast
    omega
  · intro sid agent present
    rw [services] at present
    obtain ⟨older, opened⟩ := tallied.opened sid agent present
    rw [grown]
    exact ⟨Nat.lt_succ_of_lt older, (kept older).trans opened⟩

theorem UServiceModule.Tallied.prepared (tallied : s.Tallied lost) (core : CoreService)
    (service : IServiceBase) : (s.prepared core service).Tallied (s.coreId core ::ₘ lost) :=
  tallied.lose core rfl rfl rfl rfl (prepared_isOpen core service)

theorem UServiceModule.Tallied.discarded (tallied : s.Tallied lost) (core : CoreService)
    (service : IServiceBase) : (s.discarded core service).Tallied (s.coreId core ::ₘ lost) :=
  tallied.lose core rfl rfl rfl rfl (discarded_isOpen core service)

theorem UServiceModule.Tallied.recycled (tallied : s.Tallied lost) (core : CoreService)
    (service : IServiceBase) :
    (s.recycled core service).Tallied lost where
  inverse := tallied.inverse
  divides := (tallied.divides.allocate core.first).1.recycle _
  usage := by
    have counted := tallied.usage
    have usage := (tallied.divides.allocate core.first).2
    have kept : (s.recycled core service).keys = s.keys := rfl
    simp only [UServiceModule.recycled, TIdentAllocator.recycle, TIdentAllocator.recycleTS, usage]
      at kept ⊢
    rw [kept]
    split <;> omega
  opened := (tallied.discarded core service).opened

theorem UServiceModule.Tallied.enlisted (tallied : s.Tallied lost) (core : CoreService)
    (fresh : s.serviceNameMap.lookup service.name = none) :
    (s.enlisted core service).Tallied lost := by
  have unused := tallied.unused core.first
  have keys : (s.enlisted core service).keys = s.coreId core ::ₘ s.keys :=
    UServiceModule.keys_insert _ _ unused
  obtain ⟨divides, usage⟩ := tallied.divides.allocate core.first
  have counted := tallied.usage
  constructor
  · simp only [UServiceModule.enlisted, serviceNames_insert, Table.lookup_insert_update]
    have upTo := tallied.inverse.upTo (P := fun _ _ => False) (Q := fun _ _ => False)
    exact (upTo.insert fresh (serviceNames_none.mpr unused)).inverse (fun _ _ => not_false)
      fun _ _ => not_false
  · rw [keys, Multiset.cons_add]
    exact divides
  · rw [keys, Multiset.card_cons]
    change (s.allocator.allocate core.first).2.usage = _
    push_cast
    omega
  · intro sid agent present
    simp only [UServiceModule.enlisted, Table.lookup_insert_ite] at present
    split at present
    · cases present
      exact ⟨Nat.lt_succ_self _, make_isOpen _ _ _⟩
    · obtain ⟨older, opened⟩ := tallied.opened sid agent present
      exact ⟨Nat.lt_succ_of_lt older, (prepared_isOpen core service older).trans opened⟩

end

namespace IServiceFactory

theorem readyNames_absent (absent : factory.coreInstance core = none) :
    factory.readyNames (core :: cores) = factory.readyNames cores := by
  simp only [readyNames, ready, List.filterMap_cons, absent]

theorem readyNames_refused {service : IServiceBase}
    (made : factory.coreInstance core = some service) (refused : service.initial ≠ .ok true) :
    factory.readyNames (core :: cores) = factory.readyNames cores := by
  simp only [readyNames, ready, List.filterMap_cons, made, List.filter_cons, refused,
    decide_false, Bool.false_eq_true, if_false]

theorem readyNames_ready {service : IServiceBase}
    (made : factory.coreInstance core = some service) (initial : service.initial = .ok true) :
    factory.readyNames (core :: cores) = service.name :: factory.readyNames cores := by
  simp only [readyNames, ready, List.filterMap_cons, made, List.filter_cons, initial,
    decide_true, if_true, List.map_cons]

theorem initialReturns_cons : factory.InitialReturns (core :: cores) ↔
    (∀ service ∈ factory.coreInstance core, ∀ what, service.initial ≠ .error what) ∧
      factory.InitialReturns cores :=
  List.forall_mem_cons

end IServiceFactory

/-- What the loop over the core services leaves alone. -/
structure Aside (s t : UServiceModule) : Prop where
  state : t.state = s.state
  factory : t.serviceFactory = s.serviceFactory
  tickers : t.tickerSet = s.tickerSet

/-- How the loop over the core services ends. It loses an id for each name that
was in use when it came, and one for a hook that throws. -/
inductive CoreLoop (factory : IServiceFactory) (s : UServiceModule) (cores : List CoreService)
    (lost : Multiset Int) : EStateM.Result Fault UServiceModule Unit → Prop where
  | returns {t : UServiceModule} (more : Multiset Int) (main : t.main = .creating [])
      (aside : Aside s t) (hooks : factory.InitialReturns cores) (tallied : t.Tallied (more + lost))
      (fits : more = 0 ↔ (factory.readyNames cores).Nodup ∧
        ∀ name ∈ factory.readyNames cores, s.serviceNameMap.lookup name = none)
      (names : ∀ name, t.serviceNameMap.lookup name = none ↔
        s.serviceNameMap.lookup name = none ∧ name ∉ factory.readyNames cores) :
      CoreLoop factory s cores lost (.ok () t)
  | throws {t : UServiceModule} {what : String} (more : Multiset Int)
      (hooks : ¬ factory.InitialReturns cores) (tallied : t.Tallied (more + lost))
      (some : more ≠ 0) : CoreLoop factory s cores lost (.error (.exception what) t)

theorem none_lost {first second : Multiset Int} :
    first + second = 0 ↔ first = 0 ∧ second = 0 := by
  simp only [← Multiset.card_eq_zero, Multiset.card_add, Nat.add_eq_zero_iff]

/-- One more core service before the others: the names that it adds and the ids
that it loses. -/
theorem CoreLoop.cons {u : UServiceModule} {new : Multiset Int} {gained : List String}
    {result : EStateM.Result Fault UServiceModule Unit}
    (rest : CoreLoop factory u cores (new + lost) result) (aside : Aside s u)
    (hooks : ∀ service ∈ factory.coreInstance core, ∀ what, service.initial ≠ .error what)
    (ready : factory.readyNames (core :: cores) = gained ++ factory.readyNames cores)
    (names : ∀ name, u.serviceNameMap.lookup name = none ↔
      s.serviceNameMap.lookup name = none ∧ name ∉ gained)
    (fits : new = 0 ↔ gained.Nodup ∧ ∀ name ∈ gained, s.serviceNameMap.lookup name = none) :
    CoreLoop factory s (core :: cores) lost result := by
  cases rest with
  | @returns t more main next returned tallied fitting known =>
    refine .returns (more + new) main ?_ ?_ ?_ ?_ ?_
    · exact ⟨next.state.trans aside.state, next.factory.trans aside.factory,
        next.tickers.trans aside.tickers⟩
    · exact IServiceFactory.initialReturns_cons.mpr ⟨hooks, returned⟩
    · rwa [add_assoc]
    · rw [none_lost, fitting, fits, ready, List.nodup_append']
      simp only [names, List.mem_append, List.disjoint_left]
      constructor
      · rintro ⟨⟨distinct, unused⟩, distinctNew, unusedNew⟩
        refine ⟨⟨distinctNew, distinct, fun name first second => ?_⟩, fun name member => ?_⟩
        · exact (unused name second).2 first
        · rcases member with first | second
          · exact unusedNew name first
          · exact (unused name second).1
      · rintro ⟨⟨distinctNew, distinct, apart⟩, unused⟩
        refine ⟨⟨distinct, fun name member => ?_⟩, distinctNew, fun name member => ?_⟩
        · exact ⟨unused name (.inr member), fun first => apart first member⟩
        · exact unused name (.inl member)
    · intro name
      rw [known name, names name, ready, List.mem_append, not_or, and_assoc]
  | throws more failed tallied some =>
    rw [← add_assoc] at tallied
    refine .throws (more + new) (fun all => ?_) tallied fun none => some (none_lost.mp none).1
    exact failed (IServiceFactory.initialReturns_cons.mp all).2

theorem mainNext_creating (at' : s.main = .creating (core :: cores)) : mainNext s =
    (coreService core >>= fun _ => modify fun t => { t with main := .creating cores })
      { s with main := .idle } := by
  simp only [mainNext, get_bind, at', modify_bind]

theorem mainSteps_core_ok {u : UServiceModule} (at' : s.main = .creating (core :: cores))
    (ran : coreService core { s with main := .idle } = .ok () u) :
    mainSteps (core :: cores).length s =
      mainSteps cores.length { u with main := .creating cores } := by
  have next : mainNext s = .ok () { u with main := .creating cores } := by
    rw [mainNext_creating at', bind_ok ran]
    rfl
  rw [List.length_cons, mainSteps, bind_ok next]

theorem mainSteps_core_error {u : UServiceModule} {fault : Fault}
    (at' : s.main = .creating (core :: cores))
    (ran : coreService core { s with main := .idle } = .error fault u) :
    mainSteps (core :: cores).length s = .error fault u := by
  have next : mainNext s = .error fault u := by
    rw [mainNext_creating at', bind_error ran]
  rw [List.length_cons, mainSteps, bind_error next]

theorem UServiceModule.Tallied.at (tallied : s.Tallied lost) (main : MainThread) :
    UServiceModule.Tallied { s with main } lost :=
  ⟨tallied.inverse, tallied.divides, tallied.usage, tallied.opened⟩

theorem mainSteps_creating (at' : s.main = .creating cores)
    (loaded : s.serviceFactory = some factory) (tallied : s.Tallied lost) :
    CoreLoop factory s cores lost (mainSteps cores.length s) := by
  induction cores generalizing s lost with
  | nil =>
    refine .returns 0 at' ⟨rfl, rfl, rfl⟩ ?_ ?_ ?_ ?_
    · exact fun core member => absurd member List.not_mem_nil
    · rwa [zero_add]
    · simp [IServiceFactory.readyNames, IServiceFactory.ready]
    · simp [IServiceFactory.readyNames, IServiceFactory.ready]
  | cons core cores ih =>
    have idle := tallied.at MainThread.idle
    -- what follows a core service that has not thrown
    have goesOn {u : UServiceModule} (new : Multiset Int) (gained : List String)
        (ran : coreService core { s with main := .idle } = .ok () u) (aside : Aside s u)
        (after : u.Tallied (new + lost))
        (hooks : ∀ service ∈ factory.coreInstance core, ∀ what, service.initial ≠ .error what)
        (ready : factory.readyNames (core :: cores) = gained ++ factory.readyNames cores)
        (names : ∀ name, u.serviceNameMap.lookup name = none ↔
          s.serviceNameMap.lookup name = none ∧ name ∉ gained)
        (fits : new = 0 ↔ gained.Nodup ∧ ∀ name ∈ gained, s.serviceNameMap.lookup name = none) :
        CoreLoop factory s (core :: cores) lost (mainSteps (core :: cores).length s) := by
      rw [mainSteps_core_ok at' ran]
      have rest := ih (s := { u with main := .creating cores }) rfl (aside.factory.trans loaded)
        (after.at (.creating cores))
      exact rest.cons ⟨aside.state, aside.factory, aside.tickers⟩ hooks ready names fits
    have outcome : CoreOutcome factory { s with main := .idle } core _ :=
      coreService_outcome loaded idle
    generalize ran : coreService core { s with main := .idle } = result at outcome
    cases outcome with
    | missing absent =>
      refine goesOn 0 [] ran ⟨rfl, rfl, rfl⟩ ?_ ?_ ?_ ?_ ?_
      · rwa [zero_add]
      · simp [absent]
      · rw [IServiceFactory.readyNames_absent absent, List.nil_append]
      · simp
      · simp
    | @threw service what made initial =>
      rw [mainSteps_core_error at' ran]
      refine .throws {s.coreId core} (fun all => ?_) ?_
        (Multiset.singleton_ne_zero _)
      · exact (IServiceFactory.initialReturns_cons.mp all).1 service made what initial
      · rw [Multiset.singleton_add]
        exact idle.prepared core service
    | @refused service made initial =>
      refine goesOn 0 [] ran ⟨rfl, rfl, rfl⟩ ?_ ?_ ?_ ?_ ?_
      · rw [zero_add]
        exact idle.recycled core service
      · simp [made, initial]
      · rw [IServiceFactory.readyNames_refused made (by simp [initial]), List.nil_append]
      · exact fun name => (and_iff_left List.not_mem_nil).symm
      · simp
    | @repeated service made initial known =>
      refine goesOn {s.coreId core} [service.name] ran
        ⟨rfl, rfl, rfl⟩ ?_ ?_ ?_ ?_ ?_
      · rw [Multiset.singleton_add]
        exact idle.discarded core service
      · simp [made, initial]
      · exact IServiceFactory.readyNames_ready made initial
      · intro name
        have unused (free : s.serviceNameMap.lookup name = none) : name ∉ [service.name] := by
          rintro member
          cases List.mem_singleton.mp member
          exact known free
        exact (and_iff_left_of_imp unused).symm
      · simpa using known
    | @registered service made initial fresh =>
      refine goesOn 0 [service.name] ran ⟨rfl, rfl, rfl⟩ ?_ ?_ ?_ ?_ ?_
      · rw [zero_add]
        exact idle.enlisted core fresh
      · simp [made, initial]
      · exact IServiceFactory.readyNames_ready made initial
      · intro name
        have inserted := Table.lookup_insert_ite s.serviceNameMap service.name name
          (s.coreId core)
        change (s.serviceNameMap.insert service.name (s.coreId core)).lookup name =
          none ↔ _
        rw [inserted, List.mem_singleton]
        split
        next same => simp [same]
        next differs => simp [differs]
      · simpa using fresh

theorem mainSteps_add (first second : Nat) :
    mainSteps (first + second) = (mainSteps first >>= fun _ => mainSteps second) := by
  induction first with
  | zero => rw [Nat.zero_add, mainSteps, pure_bind]
  | succ first ih =>
    rw [Nat.add_right_comm, mainSteps, ih, mainSteps, bind_assoc]

/-- The module at the end of `Initial`. -/
def UServiceModule.initialised (s : UServiceModule) : UServiceModule :=
  { s with
    main := .idle
    state := .initialized
    workerPool := s.workerPool.start
    updateLoop := .spawned }

theorem mainSteps_spawns (at' : s.main = .creating []) : mainSteps 3 s = .ok () s.initialised := by
  have first : mainNext s = .ok () { s with updateLoop := .spawned, main := .opening } := by
    simp only [mainNext, get_bind, at']
    rfl
  rw [mainSteps, bind_ok first]
  rfl

theorem initialModule_loop (factory : IServiceFactory) (cores : List CoreService) :
    ∃ result, CoreLoop factory { UServiceModule.new factory with main := .creating cores } cores 0
        result ∧
      initialModule cores (UServiceModule.new factory) =
        match result with
        | .ok _ t => .ok () t.initialised
        | .error fault t => .error fault t := by
  have empty : UServiceModule.Tallied { UServiceModule.new factory with main := .creating cores }
      0 := by
    refine ⟨fun name sid => ?_, TIdentAllocator.Divides.new, rfl, fun sid agent present => ?_⟩
    · simp [UServiceModule.new, serviceNames]
    · simp [UServiceModule.new] at present
  have loop := mainSteps_creating (s := { UServiceModule.new factory with main := .creating cores })
    rfl rfl empty
  refine ⟨_, loop, ?_⟩
  have began : mainInitial cores (UServiceModule.new factory) =
      .ok () { UServiceModule.new factory with main := .creating cores } := rfl
  rw [initialModule, bind_ok began, mainSteps_add]
  generalize ran : mainSteps cores.length
    { UServiceModule.new factory with main := .creating cores } = result at loop
  cases loop with
  | returns more main => rw [bind_ok ran, mainSteps_spawns main]
  | throws => rw [bind_error ran]

namespace UServiceModule

theorem keys_card (s : UServiceModule) : s.keys.card = s.serviceMap.size := by
  rw [keys, Multiset.card_map, Table.pairs, Multiset.coe_card, List.length_map, Table.size]

theorem Tallied.counted_iff (tallied : s.Tallied lost) :
    s.allocator.usage = s.serviceMap.size ↔ lost = 0 := by
  have usage := tallied.usage
  rw [keys_card] at usage
  rw [← Multiset.card_eq_zero]
  omega

/-- With no id lost, only a name can be wrong. -/
theorem Tallied.idsAccounted_iff (tallied : s.Tallied lost) : s.IdsAccounted ↔ lost = 0 ∧
    ∀ name sid, s.serviceNameMap.lookup name = some sid → undefinedName name = false := by
  constructor
  · exact fun accounted => ⟨tallied.counted_iff.mp accounted.counted, accounted.named⟩
  · rintro ⟨rfl, named⟩
    refine ⟨tallied.inverse, named, fun id range => ?_, tallied.counted_iff.mpr rfl⟩
    rw [← mem_keys]
    by_contra nowhere
    rw [not_or] at nowhere
    have held := tallied.divides.mem_iff.mpr ⟨range, nowhere.2⟩
    rw [add_zero] at held
    exact nowhere.1 held

end UServiceModule

/-- `Initial` comes back normally exactly when no hook throws. However it ends, the
ids and names are accounted for exactly when it has come back and the services that
are ready have distinct, proper names. -/
theorem initialModule_accounted_iff_distinct (factory : IServiceFactory)
    (cores : List CoreService) :
    ∃ s, Ends (initialModule cores) (UServiceModule.new factory) s ∧
      (initialModule cores (UServiceModule.new factory) = .ok () s ↔
        factory.InitialReturns cores) ∧
      (s.IdsAccounted ↔ factory.InitialReturns cores ∧ (factory.readyNames cores).Nodup ∧
        ∀ name ∈ factory.readyNames cores, undefinedName name = false) := by
  obtain ⟨result, loop, ran⟩ := initialModule_loop factory cores
  cases loop with
  | @returns t more main aside hooks tallied fits names =>
    have final : t.initialised.Tallied (more + 0) :=
      ⟨tallied.inverse, tallied.divides, tallied.usage, tallied.opened⟩
    refine ⟨t.initialised, .inl ⟨(), ran⟩, iff_of_true ran hooks, ?_⟩
    have fresh (name : String) : (UServiceModule.new factory).serviceNameMap.lookup name = none :=
      AList.lookup_empty name
    have known (name : String) : t.serviceNameMap.lookup name ≠ none ↔
        name ∈ factory.readyNames cores := by
      rw [Ne, names name, and_iff_right (fresh name), not_not]
    have distinct : more + 0 = 0 ↔ (factory.readyNames cores).Nodup := by
      rw [add_zero, fits]
      exact and_iff_left fun name _ => fresh name
    rw [final.idsAccounted_iff, distinct, and_iff_right hooks]
    refine and_congr_right fun _ => ?_
    constructor
    · intro named name member
      obtain ⟨sid, registered⟩ := Option.ne_none_iff_exists'.mp ((known name).mpr member)
      exact named name sid registered
    · intro proper name sid registered
      have registered : t.serviceNameMap.lookup name = some sid := registered
      exact proper name ((known name).mp (by simp [registered]))
  | @throws t what more hooks tallied some =>
    refine ⟨t, .inr ⟨what, ran⟩, iff_of_false ?_ hooks, iff_of_false ?_ fun all => hooks all.1⟩
    · intro returned
      cases ran.symm.trans returned
    · intro accounted
      have none := (tallied.idsAccounted_iff.mp accounted).1
      rw [add_zero] at none
      exact some none

/-- Two core services of the configuration, of one library or of two. -/
def twoCores : List CoreService := [⟨"first", 0, 0⟩, ⟨"second", 1, 0⟩]

theorem twins_unaccounted : ∃ s, initialModule twoCores
    (UServiceModule.new (IServiceFactory.only mailService)) = .ok () s ∧ ¬ s.IdsAccounted := by
  refine ⟨_, rfl, fun accounted => ?_⟩
  exact absurd accounted.counted (by decide)

end Uranus
