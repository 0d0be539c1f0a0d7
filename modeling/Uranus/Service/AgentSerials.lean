import Uranus.Service.Lifecycle

/-! Agents over the life of the module. An agent stands under one id, or is in the
hands of the one boot that made it; and what happens to its mailbox is what may
happen to any mailbox, but for the ticks of `UpdateLoop`. -/
namespace Uranus
open Foundation Program Interleaving
variable {s t : UServiceModule} {call : ServiceCall} {activity : Activity}

/-- The agents that stand in the map of services. -/
def UServiceModule.serials (s : UServiceModule) : Multiset Nat :=
  (Table.pairs s.serviceMap).map fun entry => entry.2.serial

/-- The agent that a boot is to register. -/
def ServiceCall.launching : ServiceCall → Option Nat
  | .bootName _ agent | .bootStart _ agent | .bootRegister _ agent => some agent.serial
  | _ => none

def Activity.launching : Activity → Option Nat
  | .service call => call.launching
  | _ => none

abbrev Life.serials : Life → Multiset Nat := total UServiceModule.serials Activity.launching

/-- Every agent is in one place, and has been made. -/
structure Life.Distinct (config : Life) : Prop where
  nodup : config.serials.Nodup
  below : ∀ serial ∈ config.serials, serial < config.shared.nextAgent

/-- A step keeps the agents in their places, or brings the one that it makes. -/
inductive Recruits (s : UServiceModule) (before : Option Activity) (t : UServiceModule)
    (after : Option Activity) : Prop where
  | kept (next : s.nextAgent ≤ t.nextAgent)
      (fewer : share UServiceModule.serials Activity.launching t after ≤
        share UServiceModule.serials Activity.launching s before)
  | made (next : s.nextAgent < t.nextAgent)
      (more : share UServiceModule.serials Activity.launching t after ≤
        s.nextAgent ::ₘ share UServiceModule.serials Activity.launching s before)

theorem serials_erase_le (sid : Int) :
    (Table.pairs (s.serviceMap.erase sid)).map (fun entry => entry.2.serial) ≤ s.serials :=
  Multiset.map_le_map (Table.pairs_erase_le s.serviceMap sid)

theorem serials_insert_le (sid : Int) (agent : UServiceAgent) :
    (Table.pairs (s.serviceMap.insert sid agent)).map (fun entry => entry.2.serial) ≤
      agent.serial ::ₘ s.serials := by
  have entries := Table.pairs_insert_le s.serviceMap sid agent
  have mapped :=
    Multiset.map_le_map (f := fun entry : Int × UServiceAgent => entry.2.serial) entries
  rwa [Multiset.map_cons] at mapped

theorem Recruits.of_same {before after : Option Activity} (map : t.serviceMap = s.serviceMap)
    (next : s.nextAgent ≤ t.nextAgent)
    (gone : after.bind Activity.launching = none ∨
      after.bind Activity.launching = before.bind Activity.launching) :
    Recruits s before t after := by
  refine .kept next ?_
  unfold share UServiceModule.serials
  rw [map]
  rcases gone with gone | same
  · rw [gone]
    exact add_le_add (le_refl _) (Multiset.zero_le _)
  · rw [same]

/-- Only a boot registers an agent, and it is the one that the boot has made. -/
theorem CallEffect.recruits {rest : Option ServiceCall} (effect : CallEffect s call rest t) :
    Recruits s (some (.service call)) t (rest.map .service) := by
  cases effect with
  | initialThrew | invalid => exact .of_same rfl (Nat.le_succ _) (.inl rfl)
  | @valid sid service =>
    refine .made (Nat.lt_succ_self _) ?_
    change s.serials + {s.nextAgent} ≤ s.nextAgent ::ₘ (s.serials + 0)
    rw [add_zero, Multiset.add_comm, Multiset.singleton_add]
  | free | started => exact .of_same rfl (le_refl _) (.inr rfl)
  | @registered sid agent =>
    refine .kept (le_refl _) ?_
    change (Table.pairs (s.serviceMap.insert sid agent)).map (fun entry => entry.2.serial) + 0 ≤
      s.serials + {agent.serial}
    rw [add_zero, Multiset.add_comm, Multiset.singleton_add]
    exact serials_insert_le sid agent
  | @removed sid | @removedNamed _ sid =>
    refine .kept (le_refl _) ?_
    exact add_le_add (serials_erase_le sid) (Multiset.zero_le _)
  | _ => exact .of_same rfl (le_refl _) (.inl rfl)

/-- The services as they are, and more agents at most. -/
structure Unregistered (s t : UServiceModule) : Prop where
  map : t.serviceMap = s.serviceMap
  next : s.nextAgent ≤ t.nextAgent

instance : IsPreorder UServiceModule Unregistered where
  refl _ := ⟨rfl, le_refl _⟩
  trans _ _ _ first second := ⟨second.map.trans first.map, first.next.trans second.next⟩

theorem agentInitial_same_state (agent : UServiceAgent) : Within Eq (agentInitial agent) := by
  unfold agentInitial
  split
  · exact .throw _
  · exact .pure _

theorem editContext_unregistered (serial : Nat) (update : ServiceContext → ServiceContext) :
    Within Unregistered (editContext serial update) := .modify fun _ => ⟨rfl, le_refl _⟩

theorem insertTicker_unregistered (sid : Int) : Within Unregistered (insertTicker sid) := by
  intro s t ends
  cases ends.of_ok insertTicker_apply
  exact ⟨rfl, le_refl _⟩

theorem agentBootService_unregistered (sid : Int) (agent : UServiceAgent) :
    Within Unregistered (agentBootService sid agent) := by
  unfold agentBootService
  apply Within.bind (R := Unregistered) .get
  intro s
  apply Within.bind (R := Unregistered) (.throwIf _ _)
  intro _
  cases agent.service.start with
  | error what => exact .throw _
  | ok started =>
    cases started with
    | false => exact .pure _
    | true =>
      have launched : Within Unregistered (editContext agent.serial
          (ServiceContext.post Mailbox.spawnProcess) >>= fun _ => pure true) :=
        Within.bind (editContext_unregistered _ _) fun _ => .pure _
      dsimp only
      split
      · exact Within.bind (insertTicker_unregistered _) fun _ => launched
      · exact launched

/-- `Initial` registers a core service with the agent that it has just made, or not at all. -/
inductive CoreEnd (s t : UServiceModule) : Prop where
  | without (same : Unregistered s t)
  | registered {sid : Int} {service : IServiceBase}
      (map : t.serviceMap = s.serviceMap.insert sid ⟨s.nextAgent, service⟩)
      (next : t.nextAgent = s.nextAgent + 1)

/-- What `Initial` does with a core service once its agent is made. -/
theorem enlist_ends {sid : Int} {agent : UServiceAgent} {names : Table String Int}
    (ends : Ends (do
      if !(← agentInitial agent) then do
        modify fun s : UServiceModule => { s with allocator := s.allocator.recycle sid }
        agentStop agent
      else if (names.lookup agent.name).isSome then agentStop agent
      else bootRegister sid agent) s t) :
    Unregistered s t ∨ t.serviceMap = s.serviceMap.insert sid agent ∧
      t.nextAgent = s.nextAgent := by
  rcases ends.of_bind with ⟨ready, u, answered, ends⟩ | threw
  · cases agentInitial_same_state _ _ _ (.inl ⟨ready, answered⟩)
    split at ends
    · have stopped : Within Unregistered (agentStop agent) := editContext_unregistered _ _
      have recycled : Within Unregistered (modify fun s : UServiceModule =>
          { s with allocator := s.allocator.recycle sid }) := .modify fun _ => ⟨rfl, le_refl _⟩
      exact .inl (Within.bind recycled (fun _ => stopped) _ _ ends)
    · split at ends
      · exact .inl (editContext_unregistered _ _ _ _ ends)
      · cases ends.of_ok rfl
        exact .inr ⟨rfl, rfl⟩
  · cases agentInitial_same_state _ _ _ (.inr threw)
    exact .inl (refl_of Unregistered s)

theorem coreService_ends {core : CoreService} (ends : Ends (coreService core) s t) :
    CoreEnd s t := by
  unfold coreService at ends
  have ends := ends.congr (get_bind _ s)
  cases loaded : s.serviceFactory with
  | none =>
    rw [loaded] at ends
    have undefined : (throw .undefined : ServiceM Unit) s = .error .undefined s := rfl
    obtain ⟨what, wrong⟩ := ends.of_fault undefined
    cases wrong
  | some factory =>
    rw [loaded] at ends
    dsimp only at ends
    cases made : factory.createInstance ("core." ++ core.name) core.occasion with
    | none =>
      rw [made] at ends
      cases ends.of_ok (u := s) rfl
      exact .without (refl_of Unregistered s)
    | some service =>
      rw [made] at ends
      rcases ends.of_bind with ⟨sid, u, took, ends⟩ | ⟨what, threw⟩
      · cases took
        rcases ends.of_bind with ⟨_, u, passed, ends⟩ | threw
        · cases Within.throwIf (R := Eq) _ _ _ _ (.inl ⟨_, passed⟩)
          rcases ends.of_bind with ⟨agent, v, made, ends⟩ | ⟨what, threw⟩
          · cases made
            rcases enlist_ends ends with same | ⟨map, next⟩
            · exact .without ⟨same.map, (Nat.le_succ _).trans same.next⟩
            · exact .registered map next
          · cases threw
        · cases Within.throwIf (R := Eq) _ _ _ _ (.inr threw)
          exact .without ⟨rfl, le_refl _⟩
      · cases threw

/-- What every activity does to the agents. -/
theorem part_recruits {rest : Option Activity} (reaches : Reaches activity.part s rest t) :
    Recruits s (some activity) t rest := by
  have quiet {other : Activity} (same : Unregistered s t) : Recruits s (some other) t none :=
    .of_same same.map same.next (.inl rfl)
  cases activity with
  | service call =>
    obtain ⟨inner, rfl, reached⟩ := Reaches.of_map reaches
    exact (part_effect reached).recruits
  | initial cores =>
    obtain ⟨rfl, ends⟩ := reaches.last
    rcases mainBegin_idle ends with rfl | ⟨-, ends⟩
    · exact quiet (refl_of Unregistered _)
    · rcases guarded_ends (ends.congr (get_bind _ s)) with rfl | ⟨-, rfl⟩
      · exact quiet (refl_of Unregistered _)
      · exact quiet ⟨rfl, le_refl _⟩
  | start =>
    obtain ⟨rfl, ends⟩ := reaches.last
    rcases mainBegin_idle ends with rfl | ⟨-, ends⟩
    · exact quiet (refl_of Unregistered _)
    · rcases guarded_ends (ends.congr (get_bind _ s)) with rfl | ⟨-, rfl⟩
      · exact quiet (refl_of Unregistered _)
      · exact quiet ⟨rfl, le_refl _⟩
  | stop =>
    obtain ⟨rfl, ends⟩ := reaches.last
    rcases mainBegin_idle ends with rfl | ⟨-, ends⟩
    · exact quiet (refl_of Unregistered _)
    · have ends := ends.congr (get_bind _ s)
      split at ends
      · cases ends.of_ok (u := s) rfl
        exact quiet (refl_of Unregistered _)
      · cases ends.of_ok (u := { s with state := .stopped, main := .cancelling }) rfl
        exact quiet ⟨rfl, le_refl _⟩
  | main =>
    obtain ⟨rfl, ends⟩ := reaches.last
    cases mainNext_cases ends with
    | idle _ same | spawns _ same | opens _ same | initialises _ same | runs _ same
    | cancels _ same | closes _ same | halts _ same =>
      subst same
      exact quiet ⟨rfl, le_refl _⟩
    | clears _ same =>
      subst same
      refine .kept (le_refl _) ?_
      exact Multiset.zero_le _
    | @creates core cores u at' ends next =>
      have map : t.serviceMap = u.serviceMap := by rcases next with rfl | rfl <;> rfl
      have later : t.nextAgent = u.nextAgent := by rcases next with rfl | rfl <;> rfl
      cases coreService_ends ends with
      | without same => exact quiet ⟨map.trans same.map, same.next.trans (ge_of_eq later)⟩
      | @registered sid service entered made =>
        refine .made (by rw [later, made]; exact Nat.lt_succ_self _) ?_
        unfold share UServiceModule.serials
        rw [map, entered]
        exact add_le_add (serials_insert_le (s := s) sid ⟨s.nextAgent, service⟩) (le_refl _)
    | @boots service services u at' ends next =>
      have same := agentBootService_unregistered _ _ _ _ ends
      rcases next with rfl | rfl
      · exact quiet ⟨same.map, same.next⟩
      · exact quiet ⟨same.map, same.next⟩
  | loop timepoint delta =>
    obtain ⟨rfl, ends⟩ := reaches.last
    cases loopNext_cases ends with
    | stays _ same | enters _ _ same | tests _ same | resumes _ _ same =>
      subst same
      exact quiet ⟨rfl, le_refl _⟩
    | passes _ passed same =>
      cases passed
      subst same
      exact quiet ⟨rfl, le_refl _⟩
  | expire =>
    obtain ⟨rfl, ends⟩ := reaches.last
    cases ends.of_ok rfl
    exact quiet ⟨rfl, le_refl _⟩
  | signal =>
    obtain ⟨rfl, ends⟩ := reaches.last
    cases ends.of_ok rfl
    exact quiet ⟨rfl, le_refl _⟩
  | agent serial event =>
    obtain ⟨rfl, ends⟩ := reaches.last
    have within : Within Unregistered (agentEvent serial event) := by
      apply Within.bind (R := Unregistered) .get
      intro s
      split
      · exact .pure _
      · exact editContext_unregistered _ _
    exact quiet (within s t ends)

theorem Life.Distinct.step {config later : Life} {move : Move Activity}
    (distinct : config.Distinct) (moved : Life.step config move later) : later.Distinct := by
  obtain ⟨nodup, below⟩ := distinct
  cases moved with
  | @invoke s calls activity starts =>
    have same : Life.serials ⟨s, activity ::ₘ calls⟩ = Life.serials ⟨s, calls⟩ := by
      have nothing : activity.launching = none := by
        cases activity with
        | service call => cases call <;> first | rfl | cases starts
        | _ => rfl
      unfold Life.serials total
      rw [Multiset.filterMap_cons_none _ _ nothing]
    exact ⟨same ▸ nodup, same ▸ below⟩
  | @advance s t calls activity rest pending reaches =>
    unfold Life.serials at nodup below
    rw [total_pending _ _ s pending] at nodup below
    cases part_recruits reaches with
    | kept next fewer =>
      have less := add_le_add fewer
        (le_refl ((calls.erase activity).filterMap Activity.launching))
      rw [← total_resume] at less
      exact ⟨Multiset.nodup_of_le less nodup, fun serial held =>
        lt_of_lt_of_le (below serial (Multiset.mem_of_le less held)) next⟩
    | made next more =>
      have less := add_le_add more
        (le_refl ((calls.erase activity).filterMap Activity.launching))
      rw [← total_resume, Multiset.cons_add] at less
      have fresh := fun held => lt_irrefl _ (below s.nextAgent held)
      refine ⟨Multiset.nodup_of_le less (Multiset.nodup_cons.mpr ⟨fresh, nodup⟩), ?_⟩
      intro serial held
      rcases Multiset.mem_cons.mp (Multiset.mem_of_le less held) with rfl | before
      · exact next
      · exact lt_trans (below serial before) next

theorem Life.Distinct.new (factory : IServiceFactory) : Life.Distinct ⟨.new factory, 0⟩ :=
  ⟨Multiset.nodup_zero, fun _ held => absurd held (Multiset.notMem_zero _)⟩

/-- No agent stands under two ids. -/
theorem Life.Distinct.inj {config : Life} (distinct : config.Distinct) {sid other : Int}
    {agent agent' : UServiceAgent} (first : config.shared.serviceMap.lookup sid = some agent)
    (second : config.shared.serviceMap.lookup other = some agent')
    (same : agent.serial = agent'.serial) : sid = other := by
  by_contra apart
  have nodup : config.shared.serials.Nodup :=
    Multiset.nodup_of_le (Multiset.le_add_right _ _) distinct.nodup
  have still : (config.shared.serviceMap.erase sid).lookup other = some agent' :=
    (AList.lookup_erase_ne (Ne.symm apart)).trans second
  unfold UServiceModule.serials at nodup
  rw [Table.pairs_present first, Multiset.map_cons, Multiset.nodup_cons] at nodup
  exact nodup.1 (Multiset.mem_map.mpr ⟨(other, agent'), Table.mem_pairs.mpr still, same.symm⟩)

end Uranus
