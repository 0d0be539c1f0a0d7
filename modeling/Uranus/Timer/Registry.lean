import Uranus.Timer.Cancellation

/-! The registry of an agent's timers while calls interleave. An id is in one
place only: free, the key of a timer, or in the hands of a creation; and a timer
keeps its key until its coroutine has left. -/
namespace Uranus
open Foundation Program Interleaving
variable {m m' : UTimerManager} {call : TimerCall} {rest : Option TimerCall} {i : Nat}
  {config later : Timers} {move : Move TimerCall}

/-- The id that a creation has got from `AllocateTS`. -/
def TimerCall.allocated : TimerCall → Option Int
  | .createInsert tid _ _ => some tid
  | _ => none

def UTimerManager.keys (m : UTimerManager) : Multiset Int := (Table.pairs m.timerMap).map Prod.fst

/-- What a section does to the registry, and where it leaves its call. What it
does to the timers besides is a turn of each of them. -/
inductive TimerEffect (m : UTimerManager) :
    TimerCall → Option TimerCall → UTimerManager → Prop where
  | took {delay rate : Int32} {first tid : Int} {allocator : TIdentAllocator}
      (took : m.allocator.allocateLocked first = some (tid, allocator)) :
      TimerEffect m (.create delay rate first) (some (.createInsert tid delay rate))
        { m with allocator }
  | fresh {delay rate : Int32} :
      TimerEffect m (.createFresh delay rate)
        (some (.createInsert m.allocator.allocateFresh.1 delay rate))
        { m with allocator := m.allocator.allocateFresh.2 }
  | refused {delay rate : Int32} {tid : Int} (present : (m.timerMap.lookup tid).isSome) :
      TimerEffect m (.createInsert tid delay rate) none m
  | inserted {delay rate : Int32} {tid : Int} (absent : m.timerMap.lookup tid = none) :
      TimerEffect m (.createInsert tid delay rate) none { m with
        timerMap := m.timerMap.insert tid m.timers.length
        timers := m.timers ++ [.setUp tid delay rate] }
  | removed {i : Nat} {timer : UTimer} (present : m.timers[i]? = some timer)
      (leaving : timer.routine = .leaving) (keyed : (m.timerMap.lookup timer.id).isSome) :
      TimerEffect m (.leave i) none { m with
        timerMap := m.timerMap.erase timer.id
        allocator := m.allocator.recycleTS timer.id
        timers := m.timers.modify i UTimer.finish }
  | turned {call : TimerCall} {rest : Option TimerCall} {timers : List UTimer} {clock : Int}
      (nothing : call.allocated = none) (none : rest.bind TimerCall.allocated = none)
      (same : timers.length = m.timers.length) :
      TimerEffect m call rest { m with timers, clock }

theorem length_foldl_modify (update : UTimer → UTimer)
    (entries : List (Sigma fun _ : Int => Nat)) (timers : List UTimer) :
    (entries.foldl (fun timers entry => timers.modify entry.2 update) timers).length =
      timers.length := by
  induction entries generalizing timers with
  | nil => rfl
  | cons entry rest ih => exact (ih _).trans (List.length_modify ..)

theorem removeTimer_present {tid : Int} (keyed : (m.timerMap.lookup tid).isSome) :
    UTimerManager.removeTimer tid m = .ok () { m with
      timerMap := m.timerMap.erase tid
      allocator := m.allocator.recycleTS tid } := by
  simp only [UTimerManager.removeTimer, get_bind, keyed, if_true, modify_apply]

theorem removeTimer_absent {tid : Int} (absent : ¬ (m.timerMap.lookup tid).isSome) :
    UTimerManager.removeTimer tid m = .ok () m := by
  simp only [UTimerManager.removeTimer, get_bind]
  rw [if_neg absent, pure_apply]

theorem leave_effect (reaches : Reaches (TimerCall.part (.leave i)) m rest m') :
    TimerEffect m (.leave i) rest m' := by
  unfold TimerCall.part at reaches
  cases found : m.timers[i]? with
  | none =>
    have ran : UTimerManager.leave i m = .ok () m := by
      simp only [UTimerManager.leave, get_bind, found, pure_apply]
    obtain ⟨rfl, rfl⟩ := reaches.of_ok (bind_ok ran _)
    exact .turned rfl rfl rfl
  | some timer =>
    by_cases leaving : timer.routine = .leaving
    · have entered : UTimerManager.leave i m = ((if timer.manager then
          UTimerManager.removeTimer timer.id else pure ()) >>= fun _ =>
            editTimer i UTimer.finish) m := by
        simp only [UTimerManager.leave, get_bind, found, leaving, ne_eq, not_true, if_false]
        split <;> rfl
      by_cases keyed : timer.manager ∧ (m.timerMap.lookup timer.id).isSome
      · rw [if_pos keyed.1, bind_ok (removeTimer_present keyed.2)] at entered
        obtain ⟨rfl, rfl⟩ := reaches.of_ok (bind_ok entered _)
        exact .removed found leaving keyed.2
      · have kept : (if timer.manager then UTimerManager.removeTimer timer.id else pure ()) m =
            .ok () m := by
          split
          next managed => exact removeTimer_absent fun present => keyed ⟨managed, present⟩
          next => rfl
        rw [bind_ok kept] at entered
        obtain ⟨rfl, rfl⟩ := reaches.of_ok (bind_ok entered _)
        exact .turned rfl rfl (List.length_modify ..)
    · have ran : UTimerManager.leave i m = .ok () m := by
        simp only [UTimerManager.leave, get_bind, found, leaving, ne_eq, not_false_iff, if_true,
          pure_apply]
      obtain ⟨rfl, rfl⟩ := reaches.of_ok (bind_ok ran _)
      exact .turned rfl rfl rfl

theorem timer_effect (reaches : Reaches call.part m rest m') : TimerEffect m call rest m' := by
  cases call with
  | create delay rate first =>
    unfold TimerCall.part at reaches
    cases taken : m.allocator.allocateLocked first with
    | none =>
      have ran : UTimerManager.allocateLocked first m = .ok none m := by
        simp only [UTimerManager.allocateLocked, get_bind, taken, pure_apply]
      obtain ⟨rfl, rfl⟩ := reaches.of_ok (bind_ok ran _)
      exact .turned rfl rfl rfl
    | some pair =>
      have ran : UTimerManager.allocateLocked first m =
          .ok (some pair.1) { m with allocator := pair.2 } := by
        simp only [UTimerManager.allocateLocked, get_bind, taken, modify_bind, pure_apply]
      obtain ⟨rfl, rfl⟩ := reaches.of_ok (bind_ok ran _)
      exact .took taken
  | createFresh delay rate =>
    obtain ⟨rfl, rfl⟩ :=
      reaches.of_ok (u := { m with allocator := m.allocator.allocateFresh.2 }) rfl
    exact .fresh
  | createInsert tid delay rate =>
    unfold TimerCall.part at reaches
    cases present : m.timerMap.lookup tid with
    | some j =>
      have keyed : (m.timerMap.lookup tid).isSome := by rw [present]; rfl
      have ran : UTimerManager.createTimer tid delay rate m = .ok () m := by
        simp only [UTimerManager.createTimer, get_bind, keyed, if_true, pure_apply]
      obtain ⟨rfl, rfl⟩ := reaches.of_ok (bind_ok ran _)
      exact .refused keyed
    | none =>
      have ran : UTimerManager.createTimer tid delay rate m = .ok () { m with
          timerMap := m.timerMap.insert tid m.timers.length
          timers := m.timers ++ [.setUp tid delay rate] } := by
        simp only [UTimerManager.createTimer, get_bind, present, Option.isSome_none,
          Bool.false_eq_true, if_false, modify_apply]
      obtain ⟨rfl, rfl⟩ := reaches.of_ok (bind_ok ran _)
      exact .inserted present
  | cancelTimer tid =>
    obtain ⟨rfl, rfl⟩ := reaches.of_ok (m.cancelTimer_ok tid)
    refine .turned rfl ?_ rfl
    cases (m'.timerMap.lookup tid).filter fun _ => tid > 0 with
    | none | some => rfl
  | leave j => exact leave_effect reaches
  | cancelAll =>
    obtain ⟨rfl, rfl⟩ := reaches.of_ok rfl
    exact .turned rfl rfl (length_foldl_modify _ _ _)
  | start | cancel | resume | complete | expire =>
    obtain ⟨rfl, rfl⟩ := reaches.of_ok rfl
    exact .turned rfl rfl (List.length_modify ..)
  | elapse =>
    obtain ⟨rfl, rfl⟩ := reaches.of_ok rfl
    exact .turned rfl rfl rfl

section
variable {timer next : UTimer}

/-- What no turn changes of a timer: its id and its parameters. And a manager that
has gone does not come back. -/
structure UTimer.Stays (timer next : UTimer) : Prop where
  id : next.id = timer.id
  delay : next.delay = timer.delay
  rate : next.rate = timer.rate
  orphan : timer.manager = false → next.manager = false

theorem turn_stays (turn : UTimer.Turn timer next) : timer.Stays next := by
  cases turn with
  | kept => exact ⟨rfl, rfl, rfl, fun orphan => orphan⟩
  | started =>
    unfold UTimer.start
    split <;> exact ⟨rfl, rfl, rfl, fun orphan => orphan⟩
  | resumed now =>
    unfold UTimer.resume
    split
    next =>
      dsimp only
      split <;> exact ⟨rfl, rfl, rfl, fun orphan => orphan⟩
    all_goals exact ⟨rfl, rfl, rfl, fun orphan => orphan⟩
  | completed threw =>
    unfold UTimer.complete
    split
    next => split <;> exact ⟨rfl, rfl, rfl, fun orphan => orphan⟩
    all_goals exact ⟨rfl, rfl, rfl, fun orphan => orphan⟩
  | expired now =>
    unfold UTimer.expire
    split <;> exact ⟨rfl, rfl, rfl, fun orphan => orphan⟩
  | cancelled =>
    unfold UTimer.cancel
    split <;> exact ⟨rfl, rfl, rfl, fun orphan => orphan⟩
  | orphaned =>
    unfold UTimer.cancel
    split <;> exact ⟨rfl, rfl, rfl, fun _ => rfl⟩
  | left =>
    unfold UTimer.finish
    split <;> exact ⟨rfl, rfl, rfl, fun orphan => orphan⟩

/-- No turn revives a coroutine. -/
theorem turn_finished (turn : UTimer.Turn timer next) (ended : timer.routine = .finished) :
    next.routine = .finished := by
  cases turn with
  | kept => exact ended
  | started => simp [UTimer.start, ended]
  | resumed => simp [UTimer.resume, ended]
  | completed => simp [UTimer.complete, ended]
  | expired => simp [UTimer.expire, ended]
  | cancelled | orphaned => simp [UTimer.cancel, UTimer.cleanUpManager, ended]
  | left => simp [UTimer.finish, ended]

end

theorem keys_insert {tid : Int} (absent : m.timerMap.lookup tid = none) (j : Nat) :
    (Table.pairs (m.timerMap.insert tid j)).map Prod.fst = tid ::ₘ m.keys := by
  have present : (m.timerMap.insert tid j).lookup tid = some j := by
    simp
  rw [Table.pairs_present present, Table.erase_insert, Table.erase_absent absent, Multiset.map_cons]
  rfl

theorem keys_erase {tid : Int} {j : Nat} (present : m.timerMap.lookup tid = some j) :
    tid ::ₘ (Table.pairs (m.timerMap.erase tid)).map Prod.fst = m.keys := by
  rw [UTimerManager.keys, Table.pairs_present present, Multiset.map_cons]

theorem mem_keys {tid : Int} : tid ∈ m.keys ↔ (m.timerMap.lookup tid).isSome := by
  simp only [UTimerManager.keys, Multiset.mem_map, Prod.exists, exists_and_right, exists_eq_right,
    Table.mem_pairs, Option.isSome_iff_exists]

/-- The ids that are keys, or in the hands of a creation. -/
abbrev Timers.ids : Timers → Multiset Int := total UTimerManager.keys TimerCall.allocated

/-- No id is in two places, so the one of a creation is not a key. -/
theorem unkeyed {tid : Int} {delay rate : Int32} {others : Multiset Int}
    (divides : m.allocator.Divides (share UTimerManager.keys TimerCall.allocated m
      (some (.createInsert tid delay rate)) + others)) : m.timerMap.lookup tid = none := by
  have apart := (Multiset.nodup_add.mp (Multiset.nodup_add.mp divides.nodup).1).2.2
  have absent : tid ∉ m.keys := fun present =>
    Multiset.disjoint_left.mp apart present (Multiset.mem_singleton_self tid)
  rw [mem_keys] at absent
  exact Option.not_isSome_iff_eq_none.mp absent

theorem TimerEffect.divides {others : Multiset Int} (effect : TimerEffect m call rest m')
    (divides : m.allocator.Divides
      (share UTimerManager.keys TimerCall.allocated m (some call) + others)) :
    m'.allocator.Divides (share UTimerManager.keys TimerCall.allocated m' rest + others) := by
  cases effect with
  | @took delay rate first tid allocator took =>
    obtain ⟨free, rfl⟩ := TIdentAllocator.allocateLocked_some took
    have taken := divides.take free (m.allocator.usage + 1)
    have moves : tid ::ₘ (m.keys + 0 + others) = m.keys + {tid} + others := by
      rw [add_zero, ← Multiset.cons_add, ← Multiset.singleton_add, Multiset.add_comm {tid}]
    exact moves ▸ taken
  | fresh =>
    have moves : m.allocator.allocateFresh.1 ::ₘ (m.keys + 0 + others) =
        m.keys + {m.allocator.allocateFresh.1} + others := by
      rw [add_zero, ← Multiset.cons_add, ← Multiset.singleton_add, Multiset.add_comm {_}]
    exact moves ▸ divides.allocateFresh
  | refused present => simp [unkeyed divides] at present
  | @inserted delay rate tid absent =>
    have moves : m.keys + {tid} + others = tid ::ₘ m.keys + 0 + others := by
      rw [add_zero, ← Multiset.singleton_add, Multiset.add_comm {tid}]
    have inserted := moves ▸ divides
    rw [← keys_insert absent m.timers.length] at inserted
    exact inserted
  | @removed j timer present leaving keyed =>
    obtain ⟨k, keyed⟩ := Option.isSome_iff_exists.mp keyed
    have split : share UTimerManager.keys TimerCall.allocated m (some (.leave j)) + others =
        timer.id ::ₘ ((Table.pairs (m.timerMap.erase timer.id)).map Prod.fst + 0 + others) := by
      rw [← Multiset.cons_add, ← Multiset.cons_add, keys_erase keyed]
      rfl
    rw [split] at divides
    exact divides.recycle _
  | turned nothing none same =>
    have kept (timers : List UTimer) (clock : Int) :
        share UTimerManager.keys TimerCall.allocated { m with timers, clock } rest =
          share UTimerManager.keys TimerCall.allocated m (some call) := by
      unfold share
      rw [none, Option.bind_some, nothing]
      rfl
    rw [kept]
    exact divides

/-- Every id in use is in one place, every key is that of its timer, and the
timers whose coroutines have not left have their keys. -/
structure Timers.Sound (config : Timers) : Prop where
  ids : config.shared.allocator.Divides config.ids
  created : ∀ {tid : Int} {j : Nat}, config.shared.timerMap.lookup tid = some j →
    ∃ timer, config.shared.timers[j]? = some timer ∧ timer.id = tid
  keyed : ∀ {j : Nat} {timer : UTimer}, config.shared.timers[j]? = some timer →
    timer.routine ≠ .finished → config.shared.timerMap.lookup timer.id = some j

section
variable {calls : Multiset TimerCall} {j : Nat} {next : UTimer}

/-- A section that makes no timer: each timer after it has come by a turn. -/
theorem part_turn_back (reaches : Reaches call.part m rest m')
    (same : m'.timers.length = m.timers.length) (present : m'.timers[j]? = some next) :
    ∃ timer, m.timers[j]? = some timer ∧ UTimer.Turn timer next := by
  have bound := (List.getElem?_eq_some_iff.mp present).1
  have before := List.getElem?_eq_getElem (same ▸ bound)
  obtain ⟨other, found, turn⟩ := part_turn before reaches
  cases found.symm.trans present
  exact ⟨_, before, turn⟩

theorem Timers.Sound.created_step (sound : Timers.Sound ⟨m, calls⟩)
    (reaches : Reaches call.part m rest m') {tid : Int}
    (found : m'.timerMap.lookup tid = some j) :
    ∃ timer, m'.timers[j]? = some timer ∧ timer.id = tid := by
  have old (found : m.timerMap.lookup tid = some j) :
      ∃ timer, m'.timers[j]? = some timer ∧ timer.id = tid := by
    obtain ⟨timer, present, same⟩ := sound.created found
    obtain ⟨next, present, turn⟩ := part_turn present reaches
    exact ⟨next, present, (turn_stays turn).id.trans same⟩
  cases timer_effect reaches with
  | took | fresh | refused | turned => exact old found
  | inserted absent =>
    rw [Table.lookup_insert_ite] at found
    split at found
    next same =>
      cases found
      exact ⟨_, List.getElem?_concat_length .., same.symm⟩
    next => exact old found
  | removed =>
    rw [Table.lookup_erase_ite] at found
    split at found
    · cases found
    · exact old found

theorem Timers.Sound.keyed_step (sound : Timers.Sound ⟨m, calls⟩)
    (reaches : Reaches call.part m rest m') (present : m'.timers[j]? = some next)
    (stays : next.routine ≠ .finished) : m'.timerMap.lookup next.id = some j := by
  have old (same : m'.timers.length = m.timers.length) :
      m.timerMap.lookup next.id = some j := by
    obtain ⟨timer, present, turn⟩ := part_turn_back reaches same present
    have keyed := sound.keyed present fun ended => stays (turn_finished turn ended)
    rwa [(turn_stays turn).id]
  cases timer_effect reaches with
  | took | fresh | refused => exact old rfl
  | turned nothing none same => exact old same
  | @inserted delay rate tid absent =>
    by_cases bound : j < m.timers.length
    · have before : m.timers[j]? = some next := (List.getElem?_append_left bound).symm.trans present
      have keyed := sound.keyed before stays
      have other : next.id ≠ tid := by
        rintro rfl
        cases absent.symm.trans keyed
      rwa [Table.lookup_insert_ite, if_neg other]
    · have last : j = m.timers.length := by
        have upper := (List.getElem?_eq_some_iff.mp present).1
        simp only [List.length_append, List.length_singleton] at upper
        omega
      subst last
      rw [List.getElem?_concat_length] at present
      cases present
      simp [UTimer.setUp]
  | @removed i timer before leaving keyed =>
    have keyed := old (List.length_modify ..)
    have mine := sound.keyed before (by simp [leaving])
    have other : next.id ≠ timer.id := by
      intro same
      rw [same, mine] at keyed
      cases keyed
      cases present.symm.trans (modify_present UTimer.finish before)
      exact stays (by simp [UTimer.finish, leaving])
    rwa [Table.lookup_erase_ite, if_neg other]

end

theorem Timers.Sound.step (sound : config.Sound) (moved : Timers.step config move later) :
    later.Sound := by
  cases moved with
  | @invoke m calls call starts =>
    refine ⟨?_, sound.created, sound.keyed⟩
    have nothing : call.allocated = none := by cases call <;> first | rfl | cases starts
    have kept : Timers.ids ⟨m, call ::ₘ calls⟩ = Timers.ids ⟨m, calls⟩ := by
      rw [Timers.ids, total_cons, share, Option.bind_some, nothing]
      exact congrArg (· + _) (add_zero _)
    exact kept.symm ▸ sound.ids
  | @advance m m' calls call rest pending reaches =>
    have divides := sound.ids
    rw [Timers.ids, total_pending _ _ m pending] at divides
    constructor
    case ids =>
      rw [Timers.ids, total_resume]
      exact (timer_effect reaches).divides divides
    case created => exact fun found => sound.created_step reaches found
    case keyed => exact fun present stays => sound.keyed_step reaches present stays

theorem Timers.Sound.new : Timers.Sound ⟨.new, 0⟩ where
  ids := TIdentAllocator.Divides.new
  created := nofun
  keyed := nofun

theorem Timers.Sound.of_run {path : List (Move TimerCall × Timers)}
    (run : Transition.Path Timers.step ⟨.new, 0⟩ path) :
    Transition.Always Timers.Sound ⟨.new, 0⟩ path :=
  run.invariant (fun sound moved => sound.step moved) Timers.Sound.new

/-- A creation has its id, and not yet its entry. -/
def Timers.Creating (config : Timers) (tid : Int) : Prop :=
  ∃ delay rate, .createInsert tid delay rate ∈ config.calls

/-- What is registered: the ids in use are the keys and those of creations under
way, and the timer of a key was made with it. -/
structure Timers.Registered (config : Timers) : Prop where
  outstanding : ∀ tid, tid ∈ config.shared.allocator.outstanding ↔
    (config.shared.timerMap.lookup tid).isSome ∨ config.Creating tid
  created : ∀ tid j, config.shared.timerMap.lookup tid = some j →
    ∃ timer, config.shared.timers[j]? = some timer ∧ timer.id = tid

/-- A timer that finishes removes no entry but its own, and a creation finds its
id free. -/
structure Timers.Unmistaken (config : Timers) (move : Move TimerCall) (later : Timers) : Prop where
  own : ∀ i, move = .advance (.leave i) → ∀ tid j, config.shared.timerMap.lookup tid = some j →
    j ≠ i → later.shared.timerMap.lookup tid = some j
  free : ∀ tid delay rate, move = .advance (.createInsert tid delay rate) →
    config.shared.timerMap.lookup tid = none

theorem Timers.Sound.registered (sound : config.Sound) : config.Registered where
  outstanding tid := by
    rw [← sound.ids.mem_iff, Timers.ids, total, Multiset.mem_add, mem_keys]
    refine or_congr_right ⟨fun held => ?_, fun creating => ?_⟩
    · obtain ⟨call, pending, holds⟩ := (Multiset.mem_filterMap TimerCall.allocated _).mp held
      cases call with
      | createInsert other delay rate =>
        cases holds
        exact ⟨delay, rate, pending⟩
      | _ => cases holds
    · obtain ⟨delay, rate, pending⟩ := creating
      exact (Multiset.mem_filterMap TimerCall.allocated _).mpr ⟨_, pending, rfl⟩
  created tid j found := sound.created found

theorem Timers.Sound.unmistaken (sound : config.Sound) (moved : Timers.step config move later) :
    Timers.Unmistaken config move later := by
  cases moved with
  | invoke => exact ⟨nofun, nofun⟩
  | @advance m m' calls call rest pending reaches =>
    constructor
    case own =>
      rintro i same tid j found other
      cases same
      cases timer_effect reaches with
      | turned => exact found
      | @removed _ timer before leaving =>
        have mine := sound.keyed before (by simp [leaving])
        have different : tid ≠ timer.id := by
          rintro rfl
          exact other (Option.some.inj (found.symm.trans mine))
        exact (Table.lookup_erase_ite ..).trans ((if_neg different).trans found)
    case free =>
      rintro tid delay rate same
      cases same
      have divides := sound.ids
      rw [Timers.ids, total_pending _ _ m pending] at divides
      exact unkeyed divides

open Transition in
/-- However calls and finishing timers interleave, the registry and the allocator
agree, and nobody takes an entry that belongs to another timer. -/
theorem registry_always_consistent {path : List (Move TimerCall × Timers)}
    (run : Path Timers.step ⟨.new, 0⟩ path) : Always Timers.Registered ⟨.new, 0⟩ path ∧
      Path Timers.Unmistaken ⟨.new, 0⟩ path := by
  have sound := Timers.Sound.of_run run
  constructor
  · exact sound.imp fun _ sound => sound.registered
  · exact run.steps (fun sound moved => sound.unmistaken moved) sound

/-- Two creations overlap, and the first timer finishes before the second is registered. -/
def overlappingCreations : List (Move TimerCall × Timers) :=
  Timers.runs ⟨.new, 0⟩
    [.invoke (.create 0 (-1) 0), .invoke (.create 5 1 0), .advance (.create 0 (-1) 0),
      .advance (.create 5 1 0), .advance (.createFresh 0 (-1)), .advance (.createFresh 5 1),
      .advance (.createInsert 1 0 (-1)), .invoke (.start 0), .advance (.start 0),
      .invoke (.resume 0), .advance (.resume 0), .invoke (.complete 0 false),
      .advance (.complete 0 false), .invoke (.leave 0), .advance (.leave 0),
      .advance (.createInsert 2 5 1)]

theorem registry_always_consistent_overlapping :
    Transition.Always Timers.Registered ⟨.new, 0⟩ overlappingCreations ∧
      Transition.Path Timers.Unmistaken ⟨.new, 0⟩ overlappingCreations :=
  registry_always_consistent (Timers.runs_path _ _)

end Uranus
