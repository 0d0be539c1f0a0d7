import Uranus.Server.Server

/-! What a shutdown does at each point of the life of a server. The functions
that stop a module rely on members that only `Initial` or a setter creates. -/
namespace Uranus
open Foundation Program

/-- The members that `Stop` relies on without a test. -/
def ModuleClass.needs : ModuleClass → List Member
  | .config | .route | .logger | .monitor | .service => []
  | .loginAuth => [.loginHandler]
  | .event => [.serviceTimer, .playerTimer]
  | .dataAccess => [.adapter]
  | .gateway => [.cacheTimer]

/-- The members that a completed `Initial` has made sure of. -/
def ModuleClass.made : ModuleClass → List Member
  | .config | .loginAuth | .route | .logger | .monitor => []
  | .event => [.serviceTimer, .playerTimer]
  | .dataAccess => [.adapter]
  | .service => [.tickTimer]
  | .gateway => [.cacheTimer]

namespace IModuleBase
variable {m t : IModuleBase} {calls : ForeignCalls}

/-- `Stop` finds the members it needs, or the module is stopped already. -/
def Equipped (m : IModuleBase) : Prop :=
  m.state = .stopped ∨ ∀ member ∈ m.cls.needs, member ∈ m.members

instance : Decidable m.Equipped := inferInstanceAs (Decidable (_ ∨ _))

theorem use_present {member : Member} (present : member ∈ m.members) :
    use member m = .ok () m := by
  simp [use, present]

theorem use_missing {member : Member} (missing : member ∉ m.members) :
    use member m = .error .undefined m := by
  simp [use, missing]

theorem assertMember_present {member : Member} (present : member ∈ m.members) :
    assertMember member m = .ok () m := by
  simp [assertMember, present]

theorem assertMember_missing {member : Member} (missing : member ∉ m.members) :
    assertMember member m = .error .terminated m := by
  simp [assertMember, missing]

theorem unlessStopped_running {body : Program IModuleBase Unit} (running : m.state ≠ .stopped) :
    unlessStopped body m = body m := by
  simp [unlessStopped, running]

theorem stop_stopped (stopped : m.state = .stopped) : stop m.cls m = .ok () m := by
  obtain ⟨cls, state, members⟩ := m
  cases stopped
  cases cls <;> rfl

/-- `Stop` of a module that is not stopped is its body. -/
theorem stop_equipped (equipped : m.Equipped) :
    stop m.cls m = .ok () { m with state := .stopped } := by
  by_cases stopped : m.state = .stopped
  · rw [stop_stopped stopped, ← stopped]
  · have found := equipped.resolve_left stopped
    obtain ⟨cls, state, members⟩ := m
    cases cls with
    | config | route | logger => rfl
    | monitor => exact unlessStopped_running stopped
    | service =>
      simp only [stop, unlessStopped_running stopped, setState, modify_bind, get_bind]
      split
      next present => exact use_present present
      next => rfl
    | loginAuth =>
      have handler : Member.loginHandler ∈ members := found _ (by simp [ModuleClass.needs])
      simp only [stop, unlessStopped_running stopped]
      rw [bind_ok (assertMember_present handler)]
      rfl
    | dataAccess | gateway =>
      simp only [stop, unlessStopped_running stopped, setState, modify_bind]
      exact use_present (found _ (List.mem_singleton_self _))
    | event =>
      have service : Member.serviceTimer ∈ members := found _ (by simp [ModuleClass.needs])
      have player : Member.playerTimer ∈ members := found _ (by simp [ModuleClass.needs])
      simp only [stop, unlessStopped_running stopped, setState, modify_bind]
      rw [bind_ok (use_present service)]
      exact use_present player

/-- Without one of them it does not come back. -/
theorem stop_unequipped (unequipped : ¬ m.Equipped) :
    ∃ fault now, stop m.cls m = .error fault now := by
  obtain ⟨running, missing⟩ := not_or.mp unequipped
  obtain ⟨cls, state, members⟩ := m
  cases cls with
  | config | route | logger | monitor | service => simp [ModuleClass.needs] at missing
  | loginAuth =>
    simp only [ModuleClass.needs, List.forall_mem_singleton] at missing
    simp only [stop, unlessStopped_running running]
    rw [bind_error (assertMember_missing missing)]
    exact ⟨_, _, rfl⟩
  | dataAccess | gateway =>
    simp only [ModuleClass.needs, List.forall_mem_singleton] at missing
    simp only [stop, unlessStopped_running running, setState, modify_bind]
    exact ⟨_, _, use_missing missing⟩
  | event =>
    simp only [stop, unlessStopped_running running, setState, modify_bind]
    by_cases service : Member.serviceTimer ∈ members
    · rw [bind_ok (use_present service)]
      have player : Member.playerTimer ∉ members := by
        simpa [ModuleClass.needs, service] using missing
      exact ⟨_, _, use_missing player⟩
    · rw [bind_error (use_missing service)]
      exact ⟨_, _, rfl⟩

/-- An initialised module has the members that `Initial` makes. -/
def Built (m : IModuleBase) : Prop :=
  m.state = .initialized ∨ m.state = .running → m.cls.made ⊆ m.members

/-- Past its `Initial` a module has what `Stop` needs, but for a handler. -/
theorem Built.equipped (built : m.Built) (past : m.state ≠ .created)
    (handler : m.cls = .loginAuth → .loginHandler ∈ m.members) : m.Equipped := by
  cases state : m.state with
  | created => exact absurd state past
  | stopped => exact .inl state
  | initialized | running =>
    have made := built (by simp [state])
    refine .inr ?_
    cases cls : m.cls with
    | config | route | logger | monitor | service => simp [ModuleClass.needs]
    | loginAuth => simpa [ModuleClass.needs] using handler cls
    | event | dataAccess | gateway =>
      rw [cls] at made
      exact fun member needed => made needed

/-- What a function other than `Stop` leaves behind: a module that is stopped as
much as before, and has what its state promises if it had so before. -/
structure Grown (m t : IModuleBase) : Prop where
  stopped : t.state = .stopped ↔ m.state = .stopped
  built : m.Built → t.Built

theorem Grown.refl (m : IModuleBase) : m.Grown m := ⟨Iff.rfl, id⟩

theorem provide_grown (member : Member) (m : IModuleBase) : m.Grown (m.provide member) := by
  unfold provide
  split
  next created =>
    split
    · exact ⟨Iff.rfl, fun _ => by simp [Built, created]⟩
    · exact ⟨Iff.rfl, fun _ => by simp [Built, created]⟩
    · exact .refl m
  next => exact .refl m

theorem ends_required {function state : String} {expected : EModuleState}
    {body : Program IModuleBase Unit} (ends : Ends (required function state expected body) m t) :
    t = m ∨ m.state = expected ∧ Ends body m t := by
  by_cases met : m.state = expected
  · exact .inr ⟨met, ends.congr (by simp [required, met])⟩
  · exact .inl (ends.of_exception (u := m) (by simp [required, met]; rfl))

theorem ends_onlyIn {expected : EModuleState} {body : Program IModuleBase Unit}
    (ends : Ends (onlyIn expected body) m t) : t = m ∨ m.state = expected ∧ Ends body m t := by
  by_cases met : m.state = expected
  · exact .inr ⟨met, ends.congr (by simp [onlyIn, met])⟩
  · exact .inl (ends.of_ok (u := m) (by simp [onlyIn, met]; rfl))

theorem ends_throwIf {fails : Prop} [Decidable fails] {what : String}
    {next : Unit → Program IModuleBase Unit} (ends : Ends (throwIf fails what >>= next) m t) :
    t = m ∨ Ends (next ()) m t := by
  by_cases failed : fails
  · rw [throwIf_throw_bind failed] at ends
    exact .inl (ends.of_exception rfl)
  · rw [throwIf_bind failed] at ends
    exact .inr ends

/-- What `Initial` does to a module, also where it throws. -/
inductive Initialised (m : IModuleBase) : IModuleBase → Prop where
  | same : Initialised m m
  | cut {members : List Member} (created : m.state = .created) : Initialised m { m with members }
  | whole {members : List Member} (created : m.state = .created) (made : m.cls.made ⊆ members) :
      Initialised m { m with state := .initialized, members }

theorem initial_initialised (ends : Ends (initial calls m.cls) m t) : m.Initialised t := by
  obtain ⟨cls, state, members⟩ := m
  cases cls with
  | config =>
    rcases ends_onlyIn ends with rfl | ⟨created, ends⟩
    · exact .same
    rcases ends_throwIf ends with rfl | ends
    · exact .same
    rcases ends_throwIf ends with rfl | ends
    · exact .same
    cases ends.of_ok rfl
    exact .whole created (List.nil_subset _)
  | loginAuth | monitor =>
    rcases ends_onlyIn ends with rfl | ⟨created, ends⟩
    · exact .same
    cases ends.of_ok rfl
    exact .whole created (List.nil_subset _)
  | route | logger =>
    rcases ends_required ends with rfl | ⟨created, ends⟩
    · exact .same
    cases ends.of_ok rfl
    exact .whole created (List.nil_subset _)
  | event =>
    rcases ends_required ends with rfl | ⟨created, ends⟩
    · exact .same
    cases ends.of_ok rfl
    exact .whole created (by simp [ModuleClass.made])
  | dataAccess =>
    rcases ends_onlyIn ends with rfl | ⟨created, ends⟩
    · exact .same
    by_cases adapter : Member.adapter ∈ members
    · replace ends := ends.congr (bind_ok (assertMember_present adapter) _)
      rcases ends_throwIf ends with rfl | ends
      · exact .same
      rcases ends_throwIf ends with rfl | ends
      · exact .same
      cases ends.of_ok rfl
      exact .whole created (by simpa [ModuleClass.made] using adapter)
    · obtain ⟨what, wrong⟩ := ends.of_fault (bind_error (assertMember_missing adapter) _)
      cases wrong
  | service =>
    rcases ends_required ends with rfl | ⟨created, ends⟩
    · exact .same
    rcases ends_throwIf ends with rfl | ends
    · exact .same
    replace ends := ends.congr (modify_bind _ _ _)
    rcases ends_throwIf ends with rfl | ends
    · exact .cut created
    cases ends.of_ok rfl
    exact .whole created (by simp [ModuleClass.made])
  | gateway =>
    rcases ends_required ends with rfl | ⟨created, ends⟩
    · exact .same
    replace ends := ends.congr (modify_bind _ _ _)
    rcases ends_throwIf ends with rfl | ends
    · exact .cut created
    rcases ends_throwIf ends with rfl | ends
    · exact .cut created
    cases ends.of_ok rfl
    exact .whole created (by simp [ModuleClass.made])

theorem Initialised.grown (initialised : m.Initialised t) : m.Grown t := by
  cases initialised with
  | same => exact .refl m
  | cut created => exact ⟨Iff.rfl, fun _ => by simp [Built, created]⟩
  | whole created made => exact ⟨by simp [created], fun _ _ => made⟩

/-- What `Start` does: it makes an initialised module RUNNING, or nothing. -/
theorem start_ends (ends : Ends (start calls m.cls) m t) :
    t = m ∨ m.state = .initialized ∧ t = { m with state := .running } := by
  obtain ⟨cls, state, members⟩ := m
  cases cls with
  | loginAuth | monitor =>
    rcases ends_onlyIn ends with rfl | ⟨initialized, ends⟩
    · exact .inl rfl
    · exact .inr ⟨initialized, ends.of_ok rfl⟩
  | config | route | logger | event | dataAccess =>
    rcases ends_required ends with rfl | ⟨initialized, ends⟩
    · exact .inl rfl
    · exact .inr ⟨initialized, ends.of_ok rfl⟩
  | service | gateway =>
    rcases ends_required ends with rfl | ⟨initialized, ends⟩
    · exact .inl rfl
    rcases ends_throwIf ends with rfl | ends
    · exact .inl rfl
    · exact .inr ⟨initialized, ends.of_ok rfl⟩

end IModuleBase

namespace UServer
variable {s t : UServer} {index : Nat} {m now : IModuleBase}

/-- Each module is STOPPED, and became so once, the last registered first. -/
structure Down (s : UServer) : Prop where
  all : ∀ m ∈ s.moduleOrder, m.state = .stopped
  order : s.order = (List.range s.moduleOrder.length).reverse

/-- No module has been stopped, and each has what its state promises. -/
structure Up (s : UServer) : Prop where
  none : ∀ m ∈ s.moduleOrder, m.state ≠ .stopped
  built : ∀ m ∈ s.moduleOrder, m.Built
  order : s.order = []
  unended : s.state ≠ .terminated

def Equipped (s : UServer) : Prop := ∀ m ∈ s.moduleOrder, m.Equipped

instance : Decidable s.Equipped := inferInstanceAs (Decidable (∀ m ∈ s.moduleOrder, m.Equipped))

/-- The modules from an index on are STOPPED, in this order. -/
structure Halfway (index : Nat) (s : UServer) : Prop where
  stopped : ∀ i m, s.moduleOrder[i]? = some m → (m.state = .stopped ↔ index ≤ i)
  order : s.order = (List.range' index (s.moduleOrder.length - index)).reverse

theorem Up.halfway (up : s.Up) : s.Halfway s.moduleOrder.length := by
  constructor
  · intro i m found
    obtain ⟨below, -⟩ := List.getElem?_eq_some_iff.mp found
    exact iff_of_false (up.none m (List.mem_of_getElem? found)) (Nat.not_le.mpr below)
  · simp [up.order]

theorem Halfway.down (halfway : s.Halfway 0) : s.Down := by
  constructor
  · intro m member
    obtain ⟨i, below, rfl⟩ := List.getElem_of_mem member
    exact (halfway.stopped i _ (List.getElem?_eq_getElem below)).mpr (Nat.zero_le i)
  · rw [halfway.order, List.range_eq_range', Nat.sub_zero]

theorem call_stop (found : s.moduleOrder[index]? = some m) (equipped : m.Equipped) :
    call index IModuleBase.stop s = .ok () (s.put index m { m with state := .stopped }) := by
  simp only [call, found, IModuleBase.stop_equipped equipped]

theorem call_stop_error (found : s.moduleOrder[index]? = some m) (unequipped : ¬ m.Equipped) :
    ∃ fault t, call index IModuleBase.stop s = .error fault t := by
  obtain ⟨fault, now, failed⟩ := IModuleBase.stop_unequipped unequipped
  simp only [call, found, failed]
  exact ⟨_, _, rfl⟩

/-- A stopped module is left as it is. -/
theorem put_same (found : s.moduleOrder[index]? = some m) : s.put index m m = s := by
  obtain ⟨below, rfl⟩ := List.getElem?_eq_some_iff.mp found
  simp [put]

theorem Halfway.put (halfway : s.Halfway (index + 1)) (found : s.moduleOrder[index]? = some m) :
    (s.put index m { m with state := .stopped }).Halfway index := by
  obtain ⟨below, -⟩ := List.getElem?_eq_some_iff.mp found
  have running : m.state ≠ .stopped := by
    intro stopped
    have early := (halfway.stopped index m found).mp stopped
    omega
  constructor
  · intro i other found'
    simp only [UServer.put, List.getElem?_set] at found'
    split at found'
    next same =>
      subst same
      cases found'
      simp
    next different =>
      rw [halfway.stopped i other found']
      omega
  · have one : s.moduleOrder.length - index = s.moduleOrder.length - (index + 1) + 1 := by omega
    simp only [UServer.put, List.length_set, one, List.range'_succ, List.reverse_cons]
    simp [running, halfway.order]

theorem stopModules_ok (halfway : s.Halfway index) (bound : index ≤ s.moduleOrder.length)
    (equipped : s.Equipped) : ∃ t, stopModules index s = .ok () t ∧ t.Down := by
  induction index generalizing s with
  | zero => exact ⟨s, rfl, halfway.down⟩
  | succ index ih =>
    have below : index < s.moduleOrder.length := bound
    have found := List.getElem?_eq_getElem below
    have ready := equipped _ (List.getElem_mem below)
    have later := ih (halfway.put found) (by simpa [put] using Nat.le_of_lt below) ?_
    · simpa only [stopModules, bind_ok (call_stop found ready)] using later
    · intro m member
      rcases List.mem_or_eq_of_mem_set member with old | rfl
      · exact equipped m old
      · exact .inl rfl

theorem stopModules_error (missing : ∃ i < index, ∃ m, s.moduleOrder[i]? = some m ∧ ¬ m.Equipped)
    (bound : index ≤ s.moduleOrder.length) :
    ∃ fault t, stopModules index s = .error fault t := by
  induction index generalizing s with
  | zero =>
    obtain ⟨i, below, -⟩ := missing
    cases below
  | succ index ih =>
    have below : index < s.moduleOrder.length := bound
    have found := List.getElem?_eq_getElem below
    by_cases ready : s.moduleOrder[index].Equipped
    · have later := ih (s := s.put index s.moduleOrder[index]
        { s.moduleOrder[index] with state := .stopped }) ?_
        (by simpa [put] using Nat.le_of_lt below)
      · simpa only [stopModules, bind_ok (call_stop found ready)] using later
      · obtain ⟨i, early, m, at', unready⟩ := missing
        have other : i ≠ index := by
          rintro rfl
          cases found.symm.trans at'
          exact unready ready
        refine ⟨i, by omega, m, ?_, unready⟩
        simpa only [put, List.getElem?_set_ne other.symm] using at'
    · obtain ⟨fault, t, failed⟩ := call_stop_error found ready
      exact ⟨fault, t, bind_error failed _⟩

/-- Functions that leave stopped modules alone. -/
theorem stopModules_stopped (all : ∀ m ∈ s.moduleOrder, m.state = .stopped) (index : Nat) :
    stopModules index s = .ok () s := by
  induction index with
  | zero => rfl
  | succ index ih =>
    have called : call index IModuleBase.stop s = .ok () s := by
      cases found : s.moduleOrder[index]? with
      | none => simp only [call, found]
      | some m =>
        have stopped := all m (List.mem_of_getElem? found)
        simp only [call, found, IModuleBase.stop_stopped stopped, put_same found]
    simp only [stopModules, bind_ok called, ih]

theorem destroyModules_stopped (all : ∀ m ∈ s.moduleOrder, m.state = .stopped)
    (modules : List Nat) : destroyModules modules s = .ok () s := by
  induction modules with
  | nil => rfl
  | cons index rest ih =>
    have called : call index IModuleBase.destruct s = .ok () s := by
      cases found : s.moduleOrder[index]? with
      | none => simp only [call, found]
      | some m =>
        have stopped := all m (List.mem_of_getElem? found)
        have kept : IModuleBase.destruct m.cls m = .ok () m := by
          obtain ⟨cls, state, members⟩ := m
          cases stopped
          cases cls <;> rfl
        simp only [call, found, kept, put_same found]
    simp only [destroyModules, bind_ok called, ih]

theorem shutdown_up (up : s.Up) (equipped : s.Equipped) :
    ∃ t, shutdown s = .ok () t ∧ t.Down := by
  have before : ({ s with state := .terminated } : UServer).Halfway s.moduleOrder.length :=
    ⟨up.halfway.stopped, up.halfway.order⟩
  simpa [shutdown, up.unended] using stopModules_ok before (Nat.le_refl _) equipped

theorem shutdown_error (up : s.Up) (unequipped : ¬ s.Equipped) :
    ∃ fault t, shutdown s = .error fault t := by
  simp only [Equipped, not_forall] at unequipped
  obtain ⟨m, member, unready⟩ := unequipped
  obtain ⟨i, below, rfl⟩ := List.getElem_of_mem member
  have missing := stopModules_error (s := { s with state := .terminated })
    ⟨i, below, _, List.getElem?_eq_getElem below, unready⟩ (Nat.le_refl _)
  simpa [shutdown, up.unended] using missing

/-- A second shutdown stops nothing again. -/
theorem shutdown_down (down : s.Down) :
    ∃ t, shutdown s = .ok () t ∧ t.Down := by
  by_cases ended : s.state = .terminated
  · exact ⟨s, by simp [shutdown, ended], down⟩
  · refine ⟨{ s with state := .terminated }, ?_, down.all, down.order⟩
    have stops := stopModules_stopped (s := { s with state := .terminated }) down.all
      s.moduleOrder.length
    simpa [shutdown, ended] using stops

theorem put_grown (grown : m.Grown now) (index : Nat) :
    s.put index m now = { s with moduleOrder := s.moduleOrder.set index now } := by
  have same : ¬ (m.state ≠ .stopped ∧ now.state = .stopped) :=
    fun stops => stops.1 (grown.stopped.mp stops.2)
  simp only [put, if_neg same]

theorem Up.grown (up : s.Up) (found : s.moduleOrder[index]? = some m) (grown : m.Grown now) :
    (s.put index m now).Up := by
  have before := List.mem_of_getElem? found
  rw [put_grown grown]
  refine ⟨fun other member => ?_, fun other member => ?_, up.order, up.unended⟩
  · rcases List.mem_or_eq_of_mem_set member with old | rfl
    · exact up.none other old
    · exact fun stopped => up.none m before (grown.stopped.mp stopped)
  · rcases List.mem_or_eq_of_mem_set member with old | rfl
    · exact up.built other old
    · exact grown.built (up.built m before)

theorem Down.grown (down : s.Down) (found : s.moduleOrder[index]? = some m) (grown : m.Grown now) :
    (s.put index m now).Down := by
  rw [put_grown grown]
  constructor
  · intro other member
    rcases List.mem_or_eq_of_mem_set member with old | rfl
    · exact down.all other old
    · exact grown.stopped.mpr (down.all m (List.mem_of_getElem? found))
  · rw [List.length_set]
    exact down.order

/-- What a shutdown asks for is there once the modules are stopped. -/
theorem Down.equipped (down : s.Down) : s.Equipped := fun m member => .inl (down.all m member)

end UServer

namespace Process
variable {p q : Process} {move : ServerMove}

/-- Every shutdown so far came back, and stopped every module once, in the reverse
of the order of registration. -/
def Safe : Process → Prop
  | .alive s _ | .exited s =>
    (s.state = .terminated → s.Down) ∧ (s.order = [] ∨ s.Down)
  | .aborted _ => True
  | .broken _ => False

/-- A shutdown, also that of the destructor or of an error exit of `Initial`, finds
in each module that is not stopped what its `Stop` relies on. -/
def Prepared : Process → ServerMove → Prop
  | .alive s _, .shutdown | .alive s _, .destruct _ => s.Equipped
  | .alive s .idle, .initial core extend =>
    s.state = .created → (core && extend) = false → s.Equipped
  | _, _ => True

/-- Either no module was stopped, or all were. -/
def Whole : Process → Prop
  | .alive s _ | .exited s => s.Up ∨ s.Down
  | .aborted _ | .broken _ => True

theorem Whole.safe {s : UServer} (whole : s.Up ∨ s.Down) :
    (s.state = .terminated → s.Down) ∧ (s.order = [] ∨ s.Down) := by
  rcases whole with up | down
  · exact ⟨fun ended => absurd ended up.unended, .inl up.order⟩
  · exact ⟨fun _ => down, .inr down⟩

theorem whole_grown {s : UServer} {index : Nat} {m now : IModuleBase} (whole : s.Up ∨ s.Down)
    (found : s.moduleOrder[index]? = some m) (grown : m.Grown now) :
    (s.put index m now).Up ∨ (s.put index m now).Down :=
  whole.imp (·.grown found grown) (·.grown found grown)

/-- A loop of the start-up takes its next module, and comes back or aborts. -/
theorem advance_cases (index : Nat) (function : ModuleClass → Program IModuleBase Unit)
    (onward : StartUp) (s : UServer) :
    (∃ t startUp, advance index function onward s = .alive t startUp ∧
      (t = s ∨ ∃ m now, s.moduleOrder[index]? = some m ∧ Ends (function m.cls) m now ∧
        t = s.put index m now)) ∨ ∃ t, advance index function onward s = .aborted t := by
  cases found : s.moduleOrder[index]? with
  | none =>
    left
    refine ⟨s, onward, ?_, .inl rfl⟩
    simp only [advance, UServer.call, found]
  | some m =>
    cases ran : function m.cls m with
    | ok value now =>
      left
      refine ⟨s.put index m now, onward, ?_, .inr ⟨m, now, rfl, .inl ⟨value, ran⟩, rfl⟩⟩
      simp only [advance, UServer.call, found, ran]
    | error fault now =>
      cases fault with
      | exception what =>
        left
        refine ⟨s.put index m now, .idle, ?_, .inr ⟨m, now, rfl, .inr ⟨what, ran⟩, rfl⟩⟩
        simp only [advance, UServer.call, found, ran]
      | selfLock | undefined | terminated =>
        right
        refine ⟨s.put index m now, ?_⟩
        simp only [advance, UServer.call, found, ran]

theorem whole_advance {s : UServer} {index : Nat} {onward : StartUp}
    {function : ModuleClass → Program IModuleBase Unit}
    (grows : ∀ m now, Ends (function m.cls) m now → m.Grown now) (whole : s.Up ∨ s.Down) :
    (advance index function onward s).Whole := by
  rcases advance_cases index function onward s with ⟨t, startUp, same, came⟩ | ⟨t, same⟩
  · rw [same]
    rcases came with rfl | ⟨m, now, found, ends, rfl⟩
    · exact whole
    · exact whole_grown whole found (grows m now ends)
  · rw [same]
    trivial

theorem start_grown {calls : ForeignCalls} {m now : IModuleBase}
    (ends : Ends (IModuleBase.start calls m.cls) m now) : m.Grown now := by
  rcases IModuleBase.start_ends ends with rfl | ⟨initialized, rfl⟩
  · exact .refl now
  · exact ⟨by simp [initialized], fun built _ => built (.inl initialized)⟩

/-- A shutdown from a server that is up or down. -/
theorem shutdown_whole {s : UServer} (whole : s.Up ∨ s.Down) :
    s.Equipped ∧ (∃ t, UServer.shutdown s = .ok () t ∧ t.Down) ∨
      ¬ s.Equipped ∧ ∃ fault t, UServer.shutdown s = .error fault t := by
  rcases whole with up | down
  · by_cases equipped : s.Equipped
    · exact .inl ⟨equipped, UServer.shutdown_up up equipped⟩
    · exact .inr ⟨equipped, UServer.shutdown_error up equipped⟩
  · exact .inl ⟨down.equipped, UServer.shutdown_down down⟩

theorem destruct_whole {s : UServer} (modules : List Nat) (whole : s.Up ∨ s.Down) :
    s.Equipped ∧ (∃ t, UServer.destruct modules s = .ok () t ∧ t.Down) ∨
      ¬ s.Equipped ∧ ∃ fault t, UServer.destruct modules s = .error fault t := by
  rcases shutdown_whole whole with ⟨equipped, t, ran, down⟩ | ⟨unequipped, fault, t, failed⟩
  · refine .inl ⟨equipped, t, ?_, down⟩
    exact (bind_ok ran _).trans (UServer.destroyModules_stopped down.all modules)
  · exact .inr ⟨unequipped, fault, t, bind_error failed _⟩

/-- What the end of a program of shutdown makes of a process, if it comes back. -/
theorem ending_ok {program : Program UServer Unit} {later : UServer → Process} {s t : UServer}
    (ran : program s = .ok () t) : ending program later s = later t := by
  simp only [ending, ran]

theorem ending_error {program : Program UServer Unit} {later : UServer → Process} {s t : UServer}
    {fault : Fault} (failed : program s = .error fault t) :
    ending program later s = .broken t := by
  simp only [ending, failed]

/-- The kinds of a step: a shutdown that finds what it needs, one that does not, or
anything else. -/
inductive Turn (p : Process) (move : ServerMove) : Process → Prop where
  | onward {q : Process} (prepared : p.Prepared move) (whole : q.Whole) (safe : q.Safe) :
      Turn p move q
  | breaks {t : UServer} (unprepared : ¬ p.Prepared move) : Turn p move (.broken t)

theorem Turn.of_shutdown {s : UServer} {program : Program UServer Unit} {later : UServer → Process}
    (outcome : s.Equipped ∧ (∃ t, program s = .ok () t ∧ t.Down) ∨
      ¬ s.Equipped ∧ ∃ fault t, program s = .error fault t)
    (prepared : p.Prepared move ↔ s.Equipped)
    (whole : ∀ t : UServer, t.Down → (later t).Whole ∧ (later t).Safe) :
    Turn p move (ending program later s) := by
  rcases outcome with ⟨equipped, t, ran, down⟩ | ⟨unequipped, fault, t, failed⟩
  · rw [ending_ok ran]
    exact .onward (prepared.mpr equipped) (whole t down).1 (whole t down).2
  · rw [ending_error failed]
    exact .breaks fun ready => unequipped (prepared.mp ready)

theorem whole_down {t : UServer} (startUp : StartUp) (down : t.Down) :
    (Process.alive t startUp).Whole ∧ (Process.alive t startUp).Safe :=
  ⟨.inr down, Whole.safe (.inr down)⟩

theorem exited_down {t : UServer} (down : t.Down) :
    (Process.exited t).Whole ∧ (Process.exited t).Safe :=
  ⟨.inr down, Whole.safe (.inr down)⟩

/-- A process that is left whole by what is no shutdown. -/
theorem Turn.of_whole (prepared : p.Prepared move) {s : UServer} {startUp : StartUp}
    (whole : s.Up ∨ s.Down) : Turn p move (.alive s startUp) :=
  .onward prepared whole (Whole.safe whole)

theorem Turn.of_advance (prepared : p.Prepared move) {s : UServer} {index : Nat}
    {onward : StartUp} {function : ModuleClass → Program IModuleBase Unit}
    (grows : ∀ m now, Ends (function m.cls) m now → m.Grown now) (whole : s.Up ∨ s.Down) :
    Turn p move (advance index function onward s) := by
  have kept : (advance index function onward s).Whole := whole_advance grows whole
  rcases advance_cases index function onward s with ⟨t, startUp, same, -⟩ | ⟨t, same⟩
  · rw [same] at kept ⊢
    exact .of_whole prepared kept
  · rw [same]
    exact .onward prepared trivial trivial

/-- The states of the server that a loop sets at its end. -/
theorem whole_state {s : UServer} {state : EServerState} (whole : s.Up ∨ s.Down)
    (unended : state ≠ .terminated) :
    ({ s with state } : UServer).Up ∨ ({ s with state } : UServer).Down :=
  whole.imp (fun up => ⟨up.none, up.built, up.order, unended⟩) (fun down => ⟨down.all, down.order⟩)

theorem step_turn (whole : p.Whole) (moved : p.Step move q) : Turn p move q := by
  unfold Step next at moved
  split at moved
  · cases moved
  · cases moved
  · cases moved
  next s startUp index member =>
    split at moved
    · cases moved
    next m found =>
      cases moved
      have grown := IModuleBase.provide_grown member m
      exact .of_whole (by trivial) (whole_grown whole found grown)
  next s core extend =>
    split at moved
    next other =>
      cases moved
      exact .of_whole (by exact fun created => absurd created other) whole
    next created =>
      have created := not_not.mp created
      split at moved
      next ready =>
        cases moved
        refine .of_whole ?_ whole
        intro _ fails
        simp [ready] at fails
      next fails =>
        cases moved
        have fails : (core && extend) = false := by simpa using fails
        refine .of_shutdown (shutdown_whole whole) ?_ fun t => exited_down
        exact ⟨fun ready => ready created fails, fun equipped _ _ => equipped⟩
  next s =>
    split at moved
    · cases moved
      exact .of_whole (by trivial) whole
    · split at moved
      all_goals
        cases moved
        exact .of_whole (by trivial) whole
  next s index calls =>
    split at moved
    · cases moved
      refine .of_advance (by trivial) (fun m now ends => ?_) whole
      exact (IModuleBase.initial_initialised ends).grown
    · cases moved
      exact .of_whole (by trivial) (whole_state whole (by simp))
  next s index calls =>
    split at moved
    · cases moved
      exact .of_advance (by trivial) (fun m now ends => start_grown ends) whole
    · cases moved
      exact .of_whole (by trivial) (whole_state whole (by simp))
  next s startUp =>
    cases moved
    exact .of_shutdown (shutdown_whole whole) Iff.rfl fun t => whole_down startUp
  next s startUp modules =>
    cases moved
    exact .of_shutdown (destruct_whole modules whole) Iff.rfl fun t => exited_down
  · cases moved

theorem new_whole (classes : List ModuleClass) :
    (UServer.new classes).Up ∨ (UServer.new classes).Down := by
  refine .inl ⟨fun m member => ?_, fun m member => ?_, rfl, by simp [UServer.new]⟩
  all_goals
    obtain ⟨cls, -, rfl⟩ := List.mem_map.mp member
    simp [IModuleBase.new, IModuleBase.Built]

theorem Turn.whole (turn : Turn p move q) : q.Whole := by
  cases turn with
  | onward _ whole => exact whole
  | breaks => trivial

open Transition in
/-- For every list of modules and every course of their start-up, the shutdowns
are safe if and only if each of them finds the members it relies on. -/
theorem safe_iff_prepared (classes : List ModuleClass) {path : List (ServerMove × Process)}
    (run : Path Step (.new classes) path) :
    Always Safe (.new classes) path ↔ Every Prepared (.new classes) path := by
  have whole := new_whole classes
  apply run.always_iff_every (J := Whole) _ _ _ whole (Whole.safe whole)
  · exact fun whole moved => (step_turn whole moved).whole
  · intro s move t whole _ prepared moved
    cases step_turn whole moved with
    | onward _ _ safe => exact safe
    | breaks unprepared => exact absurd prepared unprepared
  · intro s move t whole _ unprepared moved
    cases step_turn whole moved with
    | onward prepared => exact absurd prepared unprepared
    | breaks => exact id

open Transition in
/-- Wherever every module is past its `Initial`, a shutdown finds what it needs if
the login modules have their handlers. -/
theorem equipped_of_initialised {classes : List ModuleClass}
    {path : List (ServerMove × Process)} {s : UServer} {startUp : StartUp}
    (run : Path Step (.new classes) path) (ends : last (.new classes) path = .alive s startUp)
    (past : ∀ m ∈ s.moduleOrder, m.state ≠ .created)
    (handlers : ∀ m ∈ s.moduleOrder, m.cls = .loginAuth → .loginHandler ∈ m.members) :
    s.Equipped := by
  have always := run.invariant (P := Whole)
    (fun whole moved => (step_turn whole moved).whole) (new_whole classes)
  have whole := always.last
  rw [ends] at whole
  rcases whole with up | down
  · exact fun m member => (up.built m member).equipped (past m member) (handlers m member)
  · exact down.equipped

/-- The modules of a server, in the order of their registration. -/
def registered : List ModuleClass :=
  [.config, .loginAuth, .event, .route, .logger, .monitor, .service, .gateway]

/-- The server starts, runs, is shut down by a signal and destroyed. -/
theorem safe_iff_prepared_served :
    let moves := [.provide 1 .loginHandler, .initial true true] ++
      List.replicate 9 (.next ⟨false, false⟩) ++ [.start] ++
      List.replicate 9 (.next ⟨false, false⟩) ++ [.shutdown, .destruct [7, 6, 1, 5]]
    Transition.Always Safe (.new registered) ((new registered).runs moves) ↔
      Transition.Every Prepared (.new registered) ((new registered).runs moves) :=
  safe_iff_prepared registered (runs_path _ _)

/-- The directory of the core services cannot be created. -/
def exitEarly : List (ServerMove × Process) :=
  (new registered).runs [.provide 1 .loginHandler, .initial false true]

open Transition in
/-- The error exit of `Initial` stops a gateway that has no timer. -/
theorem exitEarly_broken : Path Step (new registered) exitEarly ∧
    ¬ Always Safe (new registered) exitEarly := by
  refine ⟨runs_path _ _, fun always => ?_⟩
  have broken : ∃ s, last (new registered) exitEarly = .broken s := by
    exact ⟨_, rfl⟩
  obtain ⟨s, ends⟩ := broken
  have safe := always.last
  rw [ends] at safe
  exact safe

end Process
end Uranus
