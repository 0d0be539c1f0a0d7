import Uranus.Service.ServiceCall

/-! The ids of services while calls interleave. An id is in one place only: free,
the key of a service, or in the hands of one call; the same goes for a
registration, from the new agent to its removal. -/
namespace Uranus
open Foundation Program Interleaving
variable {s t : UServiceModule} {call : ServiceCall} {rest : Option ServiceCall}

namespace ServiceCall

/-- The id that a `BootService` has got from `AllocateTS`. -/
def allocated : ServiceCall → Option Int
  | .bootCheck sid _ | .bootName sid _ | .bootStart sid _ | .bootRegister sid _
  | .bootRefuse sid _ => some sid
  | _ => none

/-- The id that a call is to register or to recycle. -/
def heldId : ServiceCall → Option Int
  | .bootCheck sid _ | .bootName sid _ | .bootStart sid _ | .bootRegister sid _
  | .bootRefuse sid _ | .shutdownName sid _ | .eraseTicker _ sid _ | .recycle _ sid _ => some sid
  | _ => none

/-- The registration that a `BootService` is about to make. -/
def booting : ServiceCall → Option (Int × UServiceAgent)
  | .bootName sid agent | .bootStart sid agent | .bootRegister sid agent => some (sid, agent)
  | _ => none

/-- The registration whose id is to be recycled. -/
def recycleDue : ServiceCall → Option (Int × UServiceAgent)
  | .shutdownName sid agent | .eraseTicker _ sid agent | .recycle _ sid agent => some (sid, agent)
  | _ => none

/-- The registration whose agent is to be stopped. -/
def haltDue : ServiceCall → Option (Int × UServiceAgent)
  | .shutdownName sid agent | .eraseTicker _ sid agent | .recycle _ sid agent
  | .halt _ sid agent => some (sid, agent)
  | _ => none

theorem heldId_of_allocated {sid : Int} (holds : call.allocated = some sid) :
    call.heldId = some sid := by
  cases call <;> first | exact holds | cases holds

theorem holds_nothing (starts : call.starts) : call.heldId = none ∧ call.booting = none ∧
    call.recycleDue = none ∧ call.haltDue = none := by
  cases call <;> first | exact ⟨rfl, rfl, rfl, rfl⟩ | cases starts

end ServiceCall

namespace UServiceModule

def ids (s : UServiceModule) : Multiset Int :=
  s.allocator.hashSet.val + (Table.pairs s.serviceMap).map Prod.fst

/-- The registrations that stand, and those that have been removed. -/
def registrations (s : UServiceModule) : Multiset (Int × UServiceAgent) :=
  Table.pairs s.serviceMap + s.removals

end UServiceModule

abbrev Services.ids : Services → Multiset Int := total UServiceModule.ids ServiceCall.heldId

abbrev Services.registrations : Services → Multiset (Int × UServiceAgent) :=
  total UServiceModule.registrations ServiceCall.booting

/-- A share of ids gains at most the next one that the allocator counts. -/
inductive IdsMove (s : UServiceModule) (call : ServiceCall) (rest : Option ServiceCall)
    (t : UServiceModule) : Prop where
  | kept (next : t.allocator.next = s.allocator.next)
      (fewer : share UServiceModule.ids ServiceCall.heldId t rest ≤
        share UServiceModule.ids ServiceCall.heldId s (some call))
  | counted (next : t.allocator.next = s.allocator.next + 1)
      (more : share UServiceModule.ids ServiceCall.heldId t rest = t.allocator.next ::ₘ
        share UServiceModule.ids ServiceCall.heldId s (some call))

theorem insert_val_le (sid : Int) (ids : Finset Int) : (insert sid ids).val ≤ sid ::ₘ ids.val := by
  rw [Finset.insert_val, Multiset.ndinsert_le]
  exact ⟨Multiset.le_cons_self _ _, Multiset.mem_cons_self _ _⟩

theorem cons_add_eq (sid : Int) (first second : Multiset Int) :
    sid ::ₘ first + second = first + second + {sid} := by
  rw [Multiset.cons_add, ← Multiset.singleton_add, Multiset.add_comm]

/-- An id that is taken back leaves the hands of the call. -/
theorem ids_recycle_le (sid : Int) (others : Multiset Int) : (insert sid s.allocator.hashSet).val +
    others ≤ s.allocator.hashSet.val + others + {sid} := by
  rw [← cons_add_eq]
  exact add_le_add (insert_val_le sid s.allocator.hashSet) (le_refl others)

theorem ids_take {sid : Int} (held : sid ∈ s.allocator.hashSet) (others : Multiset Int) :
    (s.allocator.hashSet.erase sid).val + others + {sid} = s.allocator.hashSet.val + others := by
  rw [← cons_add_eq, Finset.erase_val, Multiset.cons_erase (Finset.mem_val.mpr held)]

/-- A service that is removed leaves its id to the call. -/
theorem ids_remove {sid : Int} {agent : UServiceAgent}
    (present : s.serviceMap.lookup sid = some agent) :
    s.allocator.hashSet.val + (Table.pairs (s.serviceMap.erase sid)).map Prod.fst + {sid} =
      s.ids := by
  rw [← cons_add_eq, UServiceModule.ids, Table.pairs_present present, Multiset.map_cons,
    Multiset.cons_add, Multiset.add_cons]

theorem ids_register_le (sid : Int) (agent : UServiceAgent) : s.allocator.hashSet.val +
    (Table.pairs (s.serviceMap.insert sid agent)).map Prod.fst ≤ s.ids + {sid} := by
  have keys := Multiset.map_le_map (f := Prod.fst) (Table.pairs_insert_le s.serviceMap sid agent)
  rw [UServiceModule.ids, ← cons_add_eq, Multiset.cons_add, ← Multiset.add_cons]
  exact add_le_add (le_refl _) (by simpa using keys)

theorem CallEffect.ids (effect : CallEffect s call rest t) : IdsMove s call rest t := by
  cases effect with
  | took made took =>
    obtain ⟨held, rfl⟩ := TIdentAllocator.allocateLocked_some took
    exact .kept rfl (le_of_eq ((ids_take held _).trans (add_zero _).symm))
  | fresh =>
    refine .counted rfl ?_
    change s.ids + {s.allocator.next + 1} = (s.allocator.next + 1) ::ₘ (s.ids + 0)
    rw [add_zero, Multiset.add_comm, Multiset.singleton_add]
  | repeated | startThrew => exact .kept rfl (share_none_le _ _ _ _)
  | initialThrew => exact .kept rfl (share_none_le _ _ s _)
  | registered => exact .kept rfl ((add_zero _).trans_le (ids_register_le _ _))
  | refused | recycled => exact .kept rfl ((add_zero _).trans_le (ids_recycle_le _ _))
  | removed present | removedNamed present =>
    exact .kept rfl (le_of_eq ((ids_remove present).trans (add_zero _).symm))
  | _ => exact .kept rfl (le_refl _)

/-- A share of registrations gains at most that of a new agent. -/
inductive RegistrationsMove (s : UServiceModule) (call : ServiceCall) (rest : Option ServiceCall)
    (t : UServiceModule) : Prop where
  | kept (next : s.nextAgent ≤ t.nextAgent)
      (fewer : share UServiceModule.registrations ServiceCall.booting t rest ≤
        share UServiceModule.registrations ServiceCall.booting s (some call))
  | made {sid : Int} {service : IServiceBase} (next : t.nextAgent = s.nextAgent + 1)
      (more : share UServiceModule.registrations ServiceCall.booting t rest =
        (sid, ⟨s.nextAgent, service⟩) ::ₘ
          share UServiceModule.registrations ServiceCall.booting s (some call))

theorem registrations_remove {sid : Int} {agent : UServiceAgent}
    (present : s.serviceMap.lookup sid = some agent) :
    Table.pairs (s.serviceMap.erase sid) + (sid, agent) ::ₘ s.removals = s.registrations := by
  rw [UServiceModule.registrations, Table.pairs_present present, Multiset.cons_add,
    Multiset.add_cons]

theorem registrations_register_le (sid : Int) (agent : UServiceAgent) :
    Table.pairs (s.serviceMap.insert sid agent) + s.removals ≤
      s.registrations + {(sid, agent)} := by
  rw [UServiceModule.registrations, Multiset.add_comm (_ + _), Multiset.singleton_add,
    ← Multiset.cons_add]
  exact add_le_add (Table.pairs_insert_le _ _ _) (le_refl _)

theorem CallEffect.registrations (effect : CallEffect s call rest t) :
    RegistrationsMove s call rest t := by
  cases effect with
  | initialThrew | invalid => exact .kept (Nat.le_succ _) (le_refl _)
  | @valid sid service =>
    refine @RegistrationsMove.made _ _ _ _ sid service rfl ?_
    change s.registrations + {(sid, ⟨s.nextAgent, service⟩)} = _ ::ₘ (s.registrations + 0)
    rw [add_zero, Multiset.add_comm, Multiset.singleton_add]
  | taken | startThrew | unstarted => exact .kept (le_refl _) (share_none_le _ _ _ _)
  | registered => exact .kept (le_refl _) ((add_zero _).trans_le (registrations_register_le _ _))
  | removed present | removedNamed present =>
    have same := congrArg (· + 0) (registrations_remove present)
    exact .kept (le_refl _) (le_of_eq same)
  | _ => exact .kept (le_refl _) (le_refl _)

/-- What a call removes it has to recycle, and it does so once. -/
theorem CallEffect.recyclings (effect : CallEffect s call rest t) :
    share UServiceModule.recyclings ServiceCall.recycleDue t rest + s.removals =
      share UServiceModule.recyclings ServiceCall.recycleDue s (some call) + t.removals := by
  cases effect with
  | removed | removedNamed =>
    change s.recyclings + {_} + s.removals = s.recyclings + 0 + _ ::ₘ s.removals
    rw [add_zero, Multiset.add_cons, Multiset.add_assoc, Multiset.singleton_add, Multiset.add_cons]
  | recycled =>
    change _ ::ₘ s.recyclings + 0 + s.removals = s.recyclings + {_} + s.removals
    rw [add_zero, Multiset.add_comm s.recyclings, Multiset.singleton_add]
  | _ => rfl

theorem CallEffect.halts (effect : CallEffect s call rest t) :
    share UServiceModule.halts ServiceCall.haltDue t rest + s.removals =
      share UServiceModule.halts ServiceCall.haltDue s (some call) + t.removals := by
  cases effect with
  | removed | removedNamed =>
    change s.halts + {_} + s.removals = s.halts + 0 + _ ::ₘ s.removals
    rw [add_zero, Multiset.add_cons, Multiset.add_assoc, Multiset.singleton_add, Multiset.add_cons]
  | halted =>
    change _ ::ₘ s.halts + 0 + s.removals = s.halts + {_} + s.removals
    rw [add_zero, Multiset.add_comm s.halts, Multiset.singleton_add]
  | _ => rfl

/-- Every id and every registration is in one place, and what has been removed is
recycled and halted, or will be by a call under way. -/
structure Accounted (config : Services) : Prop where
  ids : config.ids.Nodup
  counted : ∀ id ∈ config.ids, id ≤ config.shared.allocator.next
  registrations : config.registrations.Nodup
  known : ∀ entry ∈ config.registrations, entry.2.serial < config.shared.nextAgent
  recyclings : total UServiceModule.recyclings ServiceCall.recycleDue config =
    config.shared.removals
  halts : total UServiceModule.halts ServiceCall.haltDue config = config.shared.removals

section
variable {calls : Multiset ServiceCall}

theorem IdsMove.advance (move : IdsMove s call rest t) (pending : call ∈ calls)
    (once : Services.ids ⟨s, calls⟩ |>.Nodup)
    (counted : ∀ id ∈ Services.ids ⟨s, calls⟩, id ≤ s.allocator.next) :
    (Services.ids ⟨t, resume rest (calls.erase call)⟩).Nodup ∧
      ∀ id ∈ Services.ids ⟨t, resume rest (calls.erase call)⟩, id ≤ t.allocator.next := by
  unfold Services.ids at once counted ⊢
  rw [total_pending _ _ s pending] at once counted
  rw [total_resume]
  cases move with
  | kept next fewer =>
    have below := add_le_add fewer (le_refl ((calls.erase call).filterMap ServiceCall.heldId))
    refine ⟨Multiset.nodup_of_le below once, fun id held => ?_⟩
    rw [next]
    exact counted id (Multiset.mem_of_le below held)
  | counted next more =>
    rw [more, Multiset.cons_add, next, Multiset.nodup_cons]
    refine ⟨⟨fun held => ?_, once⟩, fun id held => ?_⟩
    · have bound := counted _ held
      omega
    · rcases Multiset.mem_cons.mp held with rfl | held
      · exact le_refl _
      · have bound := counted id held
        omega

theorem RegistrationsMove.advance (move : RegistrationsMove s call rest t) (pending : call ∈ calls)
    (once : Services.registrations ⟨s, calls⟩ |>.Nodup)
    (known : ∀ entry ∈ Services.registrations ⟨s, calls⟩, entry.2.serial < s.nextAgent) :
    (Services.registrations ⟨t, resume rest (calls.erase call)⟩).Nodup ∧
      ∀ entry ∈ Services.registrations ⟨t, resume rest (calls.erase call)⟩,
        entry.2.serial < t.nextAgent := by
  unfold Services.registrations at once known ⊢
  rw [total_pending _ _ s pending] at once known
  rw [total_resume]
  cases move with
  | kept next fewer =>
    have below := add_le_add fewer (le_refl ((calls.erase call).filterMap ServiceCall.booting))
    refine ⟨Multiset.nodup_of_le below once, fun entry held => ?_⟩
    exact (known entry (Multiset.mem_of_le below held)).trans_le next
  | made next more =>
    rw [more, Multiset.cons_add, next, Multiset.nodup_cons]
    refine ⟨⟨fun held => ?_, once⟩, fun entry held => ?_⟩
    · exact (known _ held).ne rfl
    · rcases Multiset.mem_cons.mp held with rfl | held
      · exact Nat.lt_succ_self _
      · exact Nat.lt_succ_of_lt (known entry held)

/-- What is due for a removal stays in balance along a section. -/
theorem total_balanced {own : UServiceModule → Multiset (Int × UServiceAgent)}
    {due : ServiceCall → Option (Int × UServiceAgent)} (pending : call ∈ calls)
    (balanced : total own due ⟨s, calls⟩ = s.removals)
    (moved : share own due t rest + s.removals = share own due s (some call) + t.removals) :
    total own due ⟨t, resume rest (calls.erase call)⟩ = t.removals := by
  rw [total_pending _ _ s pending] at balanced
  rw [total_resume]
  apply add_left_cancel (a := share own due s (some call))
  rw [← moved, add_left_comm, balanced]

end

theorem Accounted.step {config later : Services} {move : Move ServiceCall}
    (accounted : Accounted config) (moved : Services.step config move later) : Accounted later := by
  cases moved with
  | @invoke s calls call starts =>
    obtain ⟨id, booting, recycle, halt⟩ := ServiceCall.holds_nothing starts
    obtain ⟨ids, counted, registrations, known, recyclings, halts⟩ := accounted
    constructor <;> simpa only [Services.ids, Services.registrations, total,
      Multiset.filterMap_cons_none _ _ id, Multiset.filterMap_cons_none _ _ booting,
      Multiset.filterMap_cons_none _ _ recycle, Multiset.filterMap_cons_none _ _ halt]
  | advance pending reaches =>
    have effect := part_effect reaches
    obtain ⟨ids, counted⟩ := effect.ids.advance pending accounted.ids accounted.counted
    obtain ⟨registrations, known⟩ :=
      effect.registrations.advance pending accounted.registrations accounted.known
    exact ⟨ids, counted, registrations, known,
      total_balanced pending accounted.recyclings effect.recyclings,
      total_balanced pending accounted.halts effect.halts⟩

/-- No registration is removed, recycled or halted twice, and none comes again
once it has been removed. An id from `AllocateTS` is that of no service, whether
`BootService` checks it or registers it, and no other `BootService` has it. -/
structure Exclusive (config : Services) : Prop where
  removals : (Table.pairs config.shared.serviceMap + config.shared.removals).Nodup
  recyclings : config.shared.recyclings.Nodup
  halts : config.shared.halts.Nodup
  unregistered : ∀ call ∈ config.calls, ∀ sid, call.allocated = some sid →
    config.shared.serviceMap.lookup sid = none
  unshared : (config.calls.filterMap ServiceCall.allocated).Nodup

theorem allocated_le (calls : Multiset ServiceCall) :
    calls.filterMap ServiceCall.allocated ≤ calls.filterMap ServiceCall.heldId := by
  induction calls using Multiset.induction_on with
  | empty => exact le_refl _
  | cons call calls ih =>
    cases allocated : call.allocated with
    | none =>
      rw [Multiset.filterMap_cons_none _ _ allocated]
      exact ih.trans (Multiset.filterMap_le_filterMap _ (Multiset.le_cons_self _ _))
    | some sid =>
      rw [Multiset.filterMap_cons_some _ _ _ allocated,
        Multiset.filterMap_cons_some _ _ _ (ServiceCall.heldId_of_allocated allocated)]
      exact (Multiset.cons_le_cons_iff sid).mpr ih

/-- A call holds no id that is the key of a service. -/
theorem Accounted.lookup_none {config : Services} (accounted : Accounted config) {sid : Int}
    (pending : call ∈ config.calls) (holds : call.heldId = some sid) :
    config.shared.serviceMap.lookup sid = none := by
  by_contra taken
  obtain ⟨agent, present⟩ := Option.ne_none_iff_exists'.mp taken
  have key : sid ∈ config.shared.ids := Multiset.mem_add.mpr
    (.inr (Multiset.mem_map_of_mem Prod.fst (Table.mem_pairs.mpr present)))
  have held : sid ∈ config.calls.filterMap ServiceCall.heldId :=
    (Multiset.mem_filterMap _ _).mpr ⟨call, pending, holds⟩
  exact Multiset.disjoint_left.mp (Multiset.nodup_add.mp accounted.ids).2.2 key held

theorem Accounted.exclusive {config : Services} (accounted : Accounted config) :
    Exclusive config := by
  have removals := Multiset.nodup_of_le (Multiset.le_add_right _ _) accounted.registrations
  have removed : config.shared.removals.Nodup :=
    Multiset.nodup_of_le (Multiset.le_add_left _ _) removals
  have recycled : config.shared.recyclings ≤ config.shared.removals := by
    rw [← accounted.recyclings]
    exact Multiset.le_add_right _ _
  have halted : config.shared.halts ≤ config.shared.removals := by
    rw [← accounted.halts]
    exact Multiset.le_add_right _ _
  refine ⟨removals, Multiset.nodup_of_le recycled removed, Multiset.nodup_of_le halted removed,
    ?_, ?_⟩
  · intro call pending sid allocated
    exact accounted.lookup_none pending (ServiceCall.heldId_of_allocated allocated)
  · have held := Multiset.nodup_of_le (Multiset.le_add_left _ _) accounted.ids
    exact Multiset.nodup_of_le (allocated_le config.calls) held

/-- The state before any call: its ids are those that the allocator has given
out, and its agents are objects that exist. -/
structure Idle (s : UServiceModule) : Prop where
  sound : s.allocator.Sound
  disjoint : ∀ sid, (s.serviceMap.lookup sid).isSome → sid ∉ s.allocator.free
  known : ∀ sid agent, s.serviceMap.lookup sid = some agent → agent.serial < s.nextAgent
  removals : s.removals = 0
  recyclings : s.recyclings = 0
  halts : s.halts = 0

theorem Idle.accounted (idle : Idle s) : Accounted ⟨s, 0⟩ := by
  have ids : Services.ids ⟨s, 0⟩ = s.ids := add_zero _
  have registrations : Services.registrations ⟨s, 0⟩ = Table.pairs s.serviceMap := by
    change Table.pairs s.serviceMap + s.removals + 0 = _
    rw [idle.removals, add_zero, add_zero]
  have apart : ∀ id ∈ (Table.pairs s.serviceMap).map Prod.fst, id ∉ s.allocator.free := by
    intro id key
    obtain ⟨⟨sid, agent⟩, entry, rfl⟩ := Multiset.mem_map.mp key
    exact idle.disjoint sid (by rw [Table.mem_pairs.mp entry]; rfl)
  constructor
  · rw [ids, UServiceModule.ids, Multiset.nodup_add, Multiset.disjoint_left]
    exact ⟨s.allocator.hashSet.nodup, Table.pairs_keys_nodup _,
      fun free key => apart _ key (.inl free)⟩
  · intro id held
    rw [ids] at held
    rcases Multiset.mem_add.mp held with free | key
    · exact (idle.sound.given id free).2
    · exact Int.not_lt.mp fun above => apart id key (.inr above)
  · rw [registrations]
    exact Multiset.Nodup.of_map Prod.fst (Table.pairs_keys_nodup _)
  · intro entry held
    rw [registrations] at held
    exact idle.known entry.1 entry.2 (Table.mem_pairs.mp held)
  · exact (add_zero _).trans (idle.recyclings.trans idle.removals.symm)
  · exact (add_zero _).trans (idle.halts.trans idle.removals.symm)

open Transition in
theorem idle_always_exclusive (idle : Idle s) {path : List (Move ServiceCall × Services)}
    (run : Path Services.step ⟨s, 0⟩ path) : Always Exclusive ⟨s, 0⟩ path := by
  have always : Always Accounted ⟨s, 0⟩ path :=
    run.invariant (fun accounted moved => accounted.step moved) idle.accounted
  exact always.imp fun config accounted => accounted.exclusive

theorem Idle.started (factory : IServiceFactory) : Idle (.started factory) where
  sound := .new
  disjoint := by
    intro sid present
    cases present
  known := by
    intro sid agent present
    cases present
  removals := rfl
  recyclings := rfl
  halts := rfl

/-- Every instance has the name of its path. -/
def pathFactory : IServiceFactory := ⟨fun path _ => some { mailService with name := path }⟩

def mailByPath : UServiceAgent := ⟨0, { mailService with name := "extend.mail" }⟩

def auctionByPath : UServiceAgent := ⟨1, { mailService with name := "extend.auction" }⟩

/-- Two services are booted at once, and one is shut down by its id and by its name. -/
def twoBoots : List (Move ServiceCall × Services) := Services.runs ⟨.started pathFactory, 0⟩
  [.invoke (.boot "mail" 0 0), .invoke (.boot "auction" 0 0), .advance (.boot "mail" 0 0),
    .advance (.boot "auction" 0 0), .advance (.bootFresh mailByPath.service),
    .advance (.bootFresh auctionByPath.service), .advance (.bootCheck 1 mailByPath.service),
    .advance (.bootCheck 2 auctionByPath.service), .advance (.bootName 1 mailByPath),
    .advance (.bootName 2 auctionByPath), .advance (.bootStart 1 mailByPath),
    .advance (.bootStart 2 auctionByPath), .advance (.bootRegister 1 mailByPath),
    .advance (.bootRegister 2 auctionByPath), .invoke (.shutdown 1),
    .invoke (.shutdownNamed "extend.mail"), .advance (.shutdownNamed "extend.mail"),
    .advance (.shutdown 1), .advance (.shutdownFound "extend.mail" 1),
    .advance (.shutdownName 1 mailByPath), .advance (.eraseTicker none 1 mailByPath),
    .advance (.recycle none 1 mailByPath), .advance (.halt none 1 mailByPath)]

/-- All calls have ended: the second service stands, and the first was removed,
recycled and stopped once. -/
theorem idle_always_exclusive_twoBoots :
    (Transition.last ⟨.started pathFactory, 0⟩ twoBoots).calls = 0 ∧
    Table.pairs (Transition.last ⟨.started pathFactory, 0⟩ twoBoots).shared.serviceMap =
      {(2, auctionByPath)} ∧
    (Transition.last ⟨.started pathFactory, 0⟩ twoBoots).shared.removals = {(1, mailByPath)} ∧
    (Transition.last ⟨.started pathFactory, 0⟩ twoBoots).shared.recyclings = {(1, mailByPath)} ∧
    (Transition.last ⟨.started pathFactory, 0⟩ twoBoots).shared.halts = {(1, mailByPath)} ∧
    Transition.Always Exclusive ⟨.started pathFactory, 0⟩ twoBoots := by
  refine ⟨by decide +kernel, by decide +kernel, by decide +kernel, by decide +kernel,
    by decide +kernel, ?_⟩
  exact idle_always_exclusive (.started _) (Services.runs_path _ _)

end Uranus
