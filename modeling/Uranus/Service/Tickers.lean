import Uranus.Service.ServiceIds
import Uranus.Service.Consistency

/-! The set of tickers while calls interleave with the passes of the update
loop. A boot enters its id before the service stands in the map of services,
and a pass drops the ids that it does not find there. -/
namespace Uranus
open Foundation Program Interleaving
variable {s t : UServiceModule} {call : ServiceCall} {rest : Option ServiceCall}
  {calls : Multiset ServiceCall} {sid : Int}

/-- The id of a service with ticks whose registration comes next. -/
def ServiceCall.ticking : ServiceCall → Option Int
  | .bootRegister sid agent => if agent.service.updatePerTick then some sid else none
  | _ => none

/-- The ticks of the service are taken back, or the service is shut down. -/
def Unticks (sid : Int) (_ : Services) : Move ServiceCall → Prop
  | .advance (.removeTicker other) | .advance (.shutdown other)
  | .advance (.shutdownFound _ other) => other = sid
  | _ => False

/-- A service with ticks is among the tickers from its registration on. -/
def Ticks (_ : Services) (move : Move ServiceCall) (later : Services)
    (rest : List (Move ServiceCall × Services)) : Prop :=
  ∀ call, move = .advance call → ∀ sid ∈ call.ticking,
    Transition.Until (fun config => sid ∈ config.shared.tickerSet) (Unticks sid) later rest

/-- No pass, and no `RemoveTicker` of its id, comes between the entry of a
service among the tickers and its registration. -/
def Unpruned (config : Services) : Move ServiceCall → Prop
  | .advance (.updatePass ..) => ∀ call ∈ config.calls, call.ticking = none
  | .advance (.removeTicker sid) => ∀ call ∈ config.calls, call.ticking ≠ some sid
  | _ => True

instance (config : Services) : (move : Move ServiceCall) → Decidable (Unpruned config move)
  | .invoke _ => .isTrue trivial
  | .advance call => match call with
    | .updatePass .. => inferInstanceAs (Decidable (∀ call ∈ config.calls, _))
    | .removeTicker _ => inferInstanceAs (Decidable (∀ call ∈ config.calls, _))
    | .boot .. | .bootFresh _ | .bootCheck .. | .bootName .. | .bootStart .. | .bootRegister ..
    | .bootRefuse .. | .shutdown _ | .shutdownName .. | .shutdownNamed _ | .shutdownFound ..
    | .eraseTicker .. | .recycle .. | .halt .. | .find .. | .findAgent .. | .found ..
    | .insertTicker _ => .isTrue trivial

/-- The section takes an id out of the set of tickers. -/
def Drops (s : UServiceModule) (sid : Int) : ServiceCall → Prop
  | .updatePass .. => s.serviceMap.lookup sid = none
  | .removeTicker other | .eraseTicker _ other _ => other = sid
  | _ => False

theorem CallEffect.tickers (effect : CallEffect s call rest t) (kept : ¬ Drops s sid call)
    (held : sid ∈ s.tickerSet) : sid ∈ t.tickerSet := by
  have entered (id : Int) : sid ∈ s.ticking id := by
    unfold UServiceModule.ticking
    split
    · exact Finset.mem_insert_of_mem held
    · exact held
  cases effect with
  | started =>
    unfold UServiceModule.launch
    dsimp only
    split
    · exact entered _
    · exact held
  | ticking => exact entered _
  | unticked => exact Finset.mem_erase.mpr ⟨fun same => kept same.symm, held⟩
  | passed => exact Finset.mem_filter.mpr ⟨held, Option.isSome_iff_ne_none.mpr kept⟩
  | untickered others => exact others (fun same => kept same.symm) held
  | _ => exact held

/-- A service stays until it is shut down. -/
theorem CallEffect.stays (effect : CallEffect s call rest t) (first : call ≠ .shutdown sid)
    (second : ∀ name, call ≠ .shutdownFound name sid) (held : (s.serviceMap.lookup sid).isSome) :
    (t.serviceMap.lookup sid).isSome := by
  have kept {other : Int} (differs : sid ≠ other) :
      ((s.serviceMap.erase other).lookup sid).isSome := by
    rwa [AList.lookup_erase_ne differs]
  cases effect with
  | registered =>
    rw [Table.lookup_insert_ite]
    split
    · rfl
    · exact held
  | removed =>
    apply kept
    rintro rfl
    exact first rfl
  | removedNamed =>
    apply kept
    rintro rfl
    exact second _ rfl
  | _ => exact held

theorem CallEffect.state (effect : CallEffect s call rest t) : t.state = s.state := by
  cases effect <;> rfl

/-- Two calls have no id in common. -/
theorem Accounted.apart (accounted : Accounted ⟨s, calls⟩) (pending : call ∈ calls)
    {other : ServiceCall} (beside : other ∈ calls.erase call) (holds : call.heldId = some sid) :
    other.heldId ≠ some sid := by
  intro same
  have held := Multiset.nodup_of_le (Multiset.le_add_left _ _) accounted.ids
  rw [← Multiset.cons_erase pending, Multiset.filterMap_cons_some _ _ _ holds,
    Multiset.nodup_cons] at held
  exact held.1 ((Multiset.mem_filterMap _ _).mpr ⟨other, beside, same⟩)

/-- A running module whose ids are those of its allocator. -/
structure Ticking (config : Services) : Prop where
  accounted : Accounted config
  running : config.shared.state = .running
  counted : 0 ≤ config.shared.allocator.next
  positive : ∀ id ∈ config.ids, 0 < id

/-- A service that comes to be registered next has its id among the tickers. -/
def Entered (config : Services) : Prop :=
  ∀ call ∈ config.calls, ∀ sid ∈ call.ticking, sid ∈ config.shared.tickerSet

theorem Ticking.step {config later : Services} {move : Move ServiceCall} (ticking : Ticking config)
    (moved : Services.step config move later) : Ticking later := by
  have accounted := ticking.accounted.step moved
  cases moved with
  | @invoke s calls call starts =>
    refine ⟨accounted, ticking.running, ticking.counted, ?_⟩
    intro id held
    rw [Services.ids, total, Multiset.filterMap_cons_none _ _
      (ServiceCall.holds_nothing starts).1] at held
    exact ticking.positive id held
  | @advance s t calls call rest pending reaches =>
    have effect := part_effect reaches
    have positive := ticking.positive
    have counted := ticking.counted
    unfold Services.ids at positive
    rw [total_pending _ _ s pending] at positive
    cases effect.ids with
    | kept next fewer =>
      refine ⟨accounted, effect.state.trans ticking.running, next ▸ counted, fun id held => ?_⟩
      rw [Services.ids, total_resume] at held
      exact positive id (Multiset.mem_of_le (add_le_add fewer (le_refl _)) held)
    | counted next more =>
      dsimp only at counted
      refine ⟨accounted, effect.state.trans ticking.running, ?_, fun id held => ?_⟩
      · dsimp only
        omega
      · rw [Services.ids, total_resume, more, Multiset.cons_add, Multiset.mem_cons] at held
        rcases held with rfl | held
        · omega
        · exact positive id held

theorem heldId_of_ticking (ticks : sid ∈ call.ticking) : call.heldId = some sid := by
  cases call with
  | bootRegister other agent =>
    simp only [ServiceCall.ticking] at ticks
    split at ticks
    · exact ticks
    · cases ticks
  | _ => cases ticks

/-- The start of a service with ticks enters its id. -/
theorem CallEffect.enters (effect : CallEffect s call rest t) (running : s.state = .running)
    (positive : ∀ id, call.heldId = some id → 0 < id) {next : ServiceCall} (left : rest = some next)
    (ticks : sid ∈ next.ticking) : sid ∈ t.tickerSet := by
  cases effect with
  | @started other agent =>
    cases left
    simp only [ServiceCall.ticking] at ticks
    split at ticks
    next updates =>
      cases ticks
      have valid := positive sid rfl
      unfold UServiceModule.launch UServiceModule.ticking
      rw [if_pos updates, if_pos ⟨running, valid.le⟩]
      exact Finset.mem_insert_self _ _
    next => cases ticks
  | _ => cases left <;> cases ticks

theorem Entered.step {config later : Services} {move : Move ServiceCall} (ticking : Ticking config)
    (entered : Entered config) (unpruned : Unpruned config move)
    (moved : Services.step config move later) : Entered later := by
  cases moved with
  | @invoke s calls call starts =>
    intro next held sid ticks
    rcases Multiset.mem_cons.mp held with rfl | held
    · cases next <;> first | cases ticks | cases starts
    · exact entered next held sid ticks
  | @advance s t calls call rest pending reaches =>
    have effect := part_effect reaches
    intro next held sid ticks
    rcases mem_resume.mp held with left | beside
    · refine effect.enters ticking.running (fun id holds => ?_) left ticks
      exact ticking.positive id (mem_total pending holds)
    · have before := Multiset.mem_of_mem_erase beside
      refine effect.tickers (fun drops => ?_) (entered next before sid ticks)
      cases call with
      | updatePass => cases (unpruned next before).symm.trans ticks
      | removeTicker other =>
        cases drops
        exact unpruned next before ticks
      | eraseTicker =>
        cases drops
        exact ticking.accounted.apart pending beside rfl (heldId_of_ticking ticks)
      | _ => cases drops

/-- A registered ticker stays one until its ticks are taken back. -/
theorem Ticking.keeps {config later : Services} {move : Move ServiceCall} (ticking : Ticking config)
    (registered : (config.shared.serviceMap.lookup sid).isSome)
    (held : sid ∈ config.shared.tickerSet) (stays : ¬ Unticks sid config move)
    (moved : Services.step config move later) :
    (later.shared.serviceMap.lookup sid).isSome ∧ sid ∈ later.shared.tickerSet := by
  cases moved with
  | invoke => exact ⟨registered, held⟩
  | @advance s t calls call rest pending reaches =>
    have effect := part_effect reaches
    constructor
    · apply effect.stays _ _ registered
      · rintro rfl
        exact stays rfl
      · rintro name rfl
        exact stays rfl
    · refine effect.tickers (fun drops => ?_) held
      cases call with
      | updatePass => exact Option.isSome_iff_ne_none.mp registered drops
      | removeTicker other => exact stays drops
      | eraseTicker =>
        cases drops
        have absent := ticking.accounted.lookup_none pending rfl
        exact Option.isSome_iff_ne_none.mp registered absent
      | _ => cases drops

/-- From its registration on a service with ticks is among the tickers. -/
theorem Ticking.ticks {config later : Services} {move : Move ServiceCall} (ticking : Ticking config)
    (entered : Entered config) (moved : Services.step config move later)
    {rest : List (Move ServiceCall × Services)} (run : Transition.Path Services.step later rest) :
    Ticks config move later rest := by
  intro call advanced sid ticks
  subst advanced
  have still := ticking.step moved
  have initial : (later.shared.serviceMap.lookup sid).isSome ∧ sid ∈ later.shared.tickerSet := by
    cases moved with
    | advance pending reaches =>
      have held := entered call pending sid ticks
      have effect := part_effect reaches
      cases call with
      | bootRegister other agent =>
        cases heldId_of_ticking ticks
        cases effect
        refine ⟨?_, held⟩
        rw [AList.lookup_insert]
        rfl
      | _ => cases ticks
  have always : Transition.Until (fun config => Ticking config ∧
      (config.shared.serviceMap.lookup sid).isSome ∧ sid ∈ config.shared.tickerSet)
      (Unticks sid) later rest := by
    refine run.holds_until (fun holds stays moved => ?_) ⟨still, initial⟩
    exact ⟨holds.1.step moved, holds.1.keeps holds.2.1 holds.2.2 stays moved⟩
  exact always.imp fun config holds => holds.2.2

open Transition in
/-- Whatever else interleaves, a boot keeps its tick registration if no pass and
no `RemoveTicker` comes between the entry of its id and its registration. -/
theorem unpruned_onward_ticks (idle : Idle s) (running : s.state = .running)
    (positive : ∀ sid, (s.serviceMap.lookup sid).isSome → 0 < sid)
    {path : List (Move ServiceCall × Services)} (run : Path Services.step ⟨s, 0⟩ path)
    (unpruned : Every Unpruned ⟨s, 0⟩ path) : Onward Ticks ⟨s, 0⟩ path := by
  have ticking : Ticking ⟨s, 0⟩ := by
    refine ⟨idle.accounted, running, idle.sound.counted, fun id held => ?_⟩
    rw [Services.ids, total, Multiset.filterMap_zero, add_zero] at held
    rcases Multiset.mem_add.mp held with free | key
    · exact (idle.sound.given id free).1
    · obtain ⟨⟨sid, agent⟩, entry, rfl⟩ := Multiset.mem_map.mp key
      exact positive sid (by rw [Table.mem_pairs.mp entry]; rfl)
  have entered : Entered ⟨s, 0⟩ := fun call pending => absurd pending (Multiset.notMem_zero call)
  have always : Always (fun config => Ticking config ∧ Entered config) ⟨s, 0⟩ path := by
    refine run.always (fun holds unpruned moved => ?_) ⟨ticking, entered⟩ unpruned
    exact ⟨holds.1.step moved, Entered.step holds.1 holds.2 unpruned moved⟩
  exact run.onward (fun holds moved rest => holds.1.ticks holds.2 moved rest) always

/-- A pass of the update loop comes between the start of a service and its
registration. -/
def prunedBoot : List (Move ServiceCall × Services) :=
  Services.runs ⟨.started (.only mailService), 0⟩
    (mailBoot 0 1 0 ++ [.invoke (.updatePass 10 10), .advance (.updatePass 10 10),
      .advance (.bootRegister 1 (mailAgent 0))])

/-- The service is registered, and no tick will reach it. -/
theorem prunedBoot_unticked :
    Transition.Path Services.step ⟨.started (.only mailService), 0⟩ prunedBoot ∧
      ¬ Transition.Onward Ticks ⟨.started (.only mailService), 0⟩ prunedBoot := by
  refine ⟨Services.runs_path _ _, fun onward => ?_⟩
  have unticked : 1 ∉ (Transition.last ⟨.started (.only mailService), 0⟩
      prunedBoot).shared.tickerSet := by decide +kernel
  obtain ⟨-, -, -, -, -, -, -, -, last, -⟩ := onward
  exact unticked (last _ rfl 1 rfl)

theorem unpruned_onward_ticks_mail :
    Transition.Onward Ticks ⟨.started (.only mailService), 0⟩
      (Services.runs ⟨.started (.only mailService), 0⟩
        (mailBoot 0 1 0 ++ [.advance (.bootRegister 1 (mailAgent 0)),
          .invoke (.updatePass 10 10), .advance (.updatePass 10 10)])) :=
  unpruned_onward_ticks (.started _) rfl (fun _ present => by cases present)
    (Services.runs_path _ _) (by decide +kernel)

end Uranus
