import Uranus.Base.MailboxExit
import Uranus.Service.Lifecycle

/-! What becomes of the booted services when the module stops. `Stop` only closes
the channels: the hook of a service is called by its own coroutine, for which
there may be no thread any more. -/
namespace Uranus
open Foundation Program Interleaving

/-- The service has been booted, and its `Stop` will not be called any more:
no thread goes on with the coroutine, or the coroutine is over. -/
def Standing.Abandoned (halted : Bool) (standing : Standing) : Prop :=
  halted = true ∧ (standing.1 = .starting ∨ standing.1 = .receiving) ∨
    standing.1 = .finished ∧ standing.2.1 = 0

/-- The service is there, and not stopped, until its coroutine is over. -/
def Standing.Sound (standing : Standing) : Prop :=
  standing.1 = .finished ∨ standing.2.1 = 0 ∧ standing.2.2.isSome

/-- The execution of a node comes back without an exception, to a closed channel
if no thread is left to go on with the next node. -/
def ServiceContext.Returns (halted : Bool) (context : ServiceContext) : Mailbox.Event → Prop
  | .complete threw => ∀ post, context.mailbox.process = .executing post →
      threw = false ∧ (halted = true → context.mailbox.channel.isOpen = false)
  | _ => True

namespace UServiceModule

/-- No service has been abandoned. -/
def Attended (s : UServiceModule) : Prop :=
  ∀ serial standing, s.standing serial = some standing →
    ¬ standing.Abandoned s.workerPool.stopped

/-- No coroutine is about to start, or waits for a node. -/
def Settled (s : UServiceModule) : Prop :=
  ∀ serial standing, s.standing serial = some standing →
    standing.1 ≠ .starting ∧ standing.1 ≠ .receiving

/-- `BootService` would spawn the coroutine of the agent. -/
def Spawns (s : UServiceModule) (agent : UServiceAgent) : Prop :=
  s.isOpen agent ∧ agent.service.start = .ok true ∧
    ∃ standing, s.standing agent.serial = some standing ∧ standing.1 = .absent

/-- Every booted service has been stopped. -/
def AllStopped (s : UServiceModule) : Prop :=
  ∀ serial standing, s.standing serial = some standing → standing.1 ≠ .absent →
    standing.2.1 ≠ 0

/-- Agents have the numbers that have been given out. -/
structure Accounted (s : UServiceModule) : Prop where
  fresh : ∀ serial, s.nextAgent ≤ serial → s.standing serial = none
  sound : ∀ serial standing, s.standing serial = some standing → standing.Sound

end UServiceModule

/-- The activity leaves no service behind: nothing is booted on a stopped pool,
the pool is stopped only when no coroutine has still to be resumed, and nodes
come back. -/
def Activity.Attends (s : UServiceModule) : Activity → Prop
  | .service (.bootStart _ booted) => s.Spawns booted → s.workerPool.stopped = false
  | .main =>
    match s.main with
    | .booting (entry :: _) => s.Spawns entry.2 → s.workerPool.stopped = false
    | .closing [] => s.Settled
    | _ => True
  | .signal => s.workerPool.running ∧ s.workerPool.signalled → s.Settled
  | .agent serial event => ∀ context, s.contexts.lookup serial = some context →
      context.Returns s.workerPool.stopped event
  | _ => True

def Attends (config : Life) : Move Activity → Prop
  | .invoke _ => True
  | .advance activity => activity.Attends config.shared

/-- A thread is in the coroutine. -/
def ProcessChannel.running : ProcessChannel → Bool
  | .executing _ | .cleaning => true
  | .absent | .starting | .receiving | .finished => false

/-- `Stop` has come back, the pool is stopped, and nothing is left that runs. -/
structure Life.Final (config : Life) : Prop where
  stopped : config.shared.state = .stopped
  returned : config.shared.main = .idle
  halted : config.shared.workerPool.stopped = true
  loop : config.shared.updateLoop ≠ .testing ∧ config.shared.updateLoop ≠ .passing
  agents : ∀ serial standing, config.shared.standing serial = some standing →
    standing.1.running = false
  calls : config.calls = 0

section
variable {context later : ServiceContext} {event : Mailbox.Event} {halted : Bool}

theorem Mailbox.loop_process (m : Mailbox) :
    m.loop.process = if m.channel.isOpen then .receiving else .cleaning := by
  unfold Mailbox.loop
  split <;> rfl

/-- What an event at the mailbox means for the service. -/
theorem ServiceContext.step_standing (came : context.step event = some later)
    (handled : event.queued → halted = false) (sound : context.standing.Sound) :
    later.standing.Sound ∧ (later.standing.Abandoned halted ↔
      context.standing.Abandoned halted ∨ ¬ context.Returns halted event) := by
  cases event with
  | push node =>
    cases came
    have same : ({ context with mailbox := context.mailbox.push node } :
        ServiceContext).standing = context.standing :=
      post_standing (Mailbox.push_process node) context
    rw [same]
    simp [sound, Returns]
  | close =>
    cases came
    exact ⟨sound, by simp [Returns, standing, Mailbox.close]⟩
  | deliver post =>
    obtain ⟨m, delivered, rfl⟩ := Option.map_eq_some_iff.mp came
    simp only [Mailbox.step, Mailbox.deliver] at delivered
    split at delivered
    · cases delivered
      exact ⟨sound, by simp [Returns, standing]⟩
    · cases delivered
  | resume actor =>
    obtain ⟨m, resumed, rfl⟩ := Option.map_eq_some_iff.mp came
    obtain ⟨before, after, -⟩ := Mailbox.resume_goes resumed
    have running := handled rfl
    have live : context.stops = 0 ∧ context.service.isSome := by
      apply sound.resolve_left
      rcases before with starting | receiving
      · simp [standing, starting]
      · simp [standing, receiving]
    refine ⟨.inr live, ?_⟩
    have unfinished : context.mailbox.process ≠ .finished := by
      rcases before with starting | receiving
      · simp [starting]
      · simp [receiving]
    simp [Standing.Abandoned, running, Returns, standing, after, unfinished]
  | complete threw =>
    obtain ⟨m, completed, rfl⟩ := Option.map_eq_some_iff.mp came
    simp only [Mailbox.step, Mailbox.complete] at completed
    split at completed
    next post executing =>
      have live : context.stops = 0 ∧ context.service.isSome := by
        apply sound.resolve_left
        simp [standing, executing]
      cases threw with
      | true =>
        cases completed
        exact ⟨.inl rfl, by simp [Standing.Abandoned, Returns, standing, executing, live.1]⟩
      | false =>
        cases completed
        refine ⟨.inr live, ?_⟩
        cases isOpen : context.mailbox.channel.isOpen with
        | true => simp [Standing.Abandoned, Returns, standing, executing, isOpen,
            Mailbox.loop_process]
        | false => simp [Standing.Abandoned, Returns, standing, executing, isOpen,
            Mailbox.loop_process]
    all_goals cases completed
  | cleanUp =>
    obtain ⟨m, cleaned, rfl⟩ := Option.map_eq_some_iff.mp came
    unfold Mailbox.cleanUp at cleaned
    split at cleaned
    next cleaning =>
      cases cleaned
      have live : context.stops = 0 ∧ context.service.isSome := by
        apply sound.resolve_left
        simp [standing, cleaning]
      obtain ⟨service, present⟩ := Option.isSome_iff_exists.mp live.2
      have stopped : context.release.stops = 1 := by
        unfold release
        simp only [present]
        split <;> simp [live.1]
      exact ⟨.inl rfl, by simp [Standing.Abandoned, Returns, standing, cleaning, stopped]⟩
    all_goals cases cleaned

end

/-- Agents keep their standing, and new ones have not been booted. -/
structure Grows (s t : UServiceModule) : Prop where
  next : s.nextAgent ≤ t.nextAgent
  standing : ∀ serial, t.standing serial = s.standing serial ∨
    s.nextAgent ≤ serial ∧ serial < t.nextAgent ∧
      ∃ service, t.standing serial = some (.absent, 0, some service)

instance : IsPreorder UServiceModule Grows where
  refl _ := ⟨le_refl _, fun _ => .inl rfl⟩
  trans s t u first second := by
    refine ⟨le_trans first.next second.next, fun serial => ?_⟩
    rcases second.standing serial with same | ⟨above, below, made⟩
    · rw [same]
      refine (first.standing serial).imp_right ?_
      rintro ⟨above, below, made⟩
      exact ⟨above, lt_of_lt_of_le below second.next, made⟩
    · exact .inr ⟨le_trans first.next above, below, made⟩

/-- What an activity does to the services, where `ok` says that it leaves none behind. -/
inductive Shift (s : UServiceModule) (ok : Prop) (t : UServiceModule) : Prop where
  | grows (meets : ok) (pool : t.workerPool.stopped = s.workerPool.stopped) (grown : Grows s t)
  | moves {serial : Nat} {before after : Standing}
      (pool : t.workerPool.stopped = s.workerPool.stopped) (next : t.nextAgent = s.nextAgent)
      (present : s.standing serial = some before)
      (changed : t.standing = Function.update s.standing serial (some after))
      (sound : before.Sound → after.Sound)
      (exact : before.Sound → (after.Abandoned s.workerPool.stopped ↔
        before.Abandoned s.workerPool.stopped ∨ ¬ ok))
  | halts (stopped : t.workerPool.stopped = true) (next : t.nextAgent = s.nextAgent)
      (same : t.standing = s.standing) (settled : ok ↔ s.Settled)

section
variable {s t : UServiceModule} {ok : Prop}

theorem Grows.of_same (next : t.nextAgent = s.nextAgent) (same : t.standing = s.standing) :
    Grows s t := ⟨ge_of_eq next, fun serial => .inl (congrFun same serial)⟩

theorem Shift.accounted (shift : Shift s ok t) (accounted : s.Accounted) : t.Accounted := by
  obtain ⟨fresh, sound⟩ := accounted
  cases shift with
  | grows _ _ grown =>
    constructor
    · intro serial above
      rcases grown.standing serial with same | ⟨_, below, _⟩
      · rw [same]
        exact fresh serial (le_trans grown.next above)
      · omega
    · intro serial standing present
      rcases grown.standing serial with same | ⟨_, _, service, made⟩
      · exact sound serial standing (same ▸ present)
      · cases made.symm.trans present
        exact .inr ⟨rfl, rfl⟩
  | @moves serial _ _ _ next held changed keeps =>
    constructor
    · intro other above
      rw [next] at above
      have apart : other ≠ serial := by
        rintro rfl
        cases (fresh other above).symm.trans held
      rw [changed, Function.update_of_ne apart]
      exact fresh other above
    · intro other standing present
      rw [changed] at present
      by_cases same : other = serial
      · subst same
        rw [Function.update_self] at present
        cases present
        exact keeps (sound other _ held)
      · rw [Function.update_of_ne same] at present
        exact sound other standing present
  | halts _ next same => exact ⟨by rw [next, same]; exact fresh, by rw [same]; exact sound⟩

/-- Services are left behind by the activities that do not meet `ok`, and by no other. -/
theorem Shift.attended (shift : Shift s ok t) (accounted : s.Accounted) :
    t.Attended ↔ s.Attended ∧ ok := by
  cases shift with
  | grows meets pool grown =>
    unfold UServiceModule.Attended
    rw [pool]
    constructor
    · intro attended
      refine ⟨fun serial standing present => ?_, meets⟩
      rcases grown.standing serial with same | ⟨above, _, _⟩
      · exact attended serial standing (same.trans present)
      · cases (accounted.fresh serial above).symm.trans present
    · rintro ⟨attended, -⟩ serial standing present
      rcases grown.standing serial with same | ⟨_, _, service, made⟩
      · exact attended serial standing (same.symm.trans present)
      · cases made.symm.trans present
        simp [Standing.Abandoned]
  | @moves moved before after pool _ held changed _ exact =>
    have abandoned := exact (accounted.sound moved before held)
    unfold UServiceModule.Attended
    rw [pool, changed]
    constructor
    · intro attended
      have kept := attended moved after (Function.update_self ..)
      rw [abandoned, not_or, not_not] at kept
      refine ⟨fun serial standing present => ?_, kept.2⟩
      by_cases same : serial = moved
      · subst same
        cases held.symm.trans present
        exact kept.1
      · exact attended serial standing (by rwa [Function.update_of_ne same])
    · rintro ⟨attended, meets⟩ serial standing present
      by_cases same : serial = moved
      · subst same
        rw [Function.update_self] at present
        cases present
        rw [abandoned, not_or, not_not]
        exact ⟨attended serial before held, meets⟩
      · rw [Function.update_of_ne same] at present
        exact attended serial standing present
  | halts stopped _ same settled =>
    rw [settled]
    unfold UServiceModule.Attended UServiceModule.Settled
    rw [stopped, same]
    constructor
    · intro attended
      constructor
      · rintro serial standing present (⟨_, waits⟩ | ended)
        · exact attended serial standing present (.inl ⟨rfl, waits⟩)
        · exact attended serial standing present (.inr ended)
      · intro serial standing present
        have kept := attended serial standing present
        exact ⟨fun starting => kept (.inl ⟨rfl, .inl starting⟩),
          fun receiving => kept (.inl ⟨rfl, .inr receiving⟩)⟩
    · rintro ⟨attended, settled⟩ serial standing present (⟨_, starting | receiving⟩ | ended)
      · exact (settled serial standing present).1 starting
      · exact (settled serial standing present).2 receiving
      · exact attended serial standing present (.inr ended)

/-- Where the main thread stands does not matter. -/
theorem Shift.main {first : MainThread} (shift : Shift { s with main := first } ok t)
    (last : MainThread) : Shift s ok { t with main := last } := by
  cases shift with
  | grows meets pool grown => exact .grows meets pool ⟨grown.next, grown.standing⟩
  | moves pool next present changed sound exact =>
    exact .moves pool next present changed sound exact
  | halts stopped next same settled => exact .halts stopped next same settled

theorem edit_standing (serial : Nat) (update : ServiceContext → ServiceContext) :
    (s.edit serial update).standing = Function.update s.standing serial
      ((s.contexts.lookup serial).map fun context => (update context).standing) := by
  funext key
  unfold UServiceModule.standing UServiceModule.edit
  rw [Function.update_apply, Table.lookup_modify]
  split
  · rw [Option.map_map]
    rfl
  · rfl

theorem stop_standing (serial : Nat) (s : UServiceModule) :
    (s.edit serial ServiceContext.stop).standing = s.standing := by
  have keeps : ∀ context : ServiceContext, context.stop.standing = context.standing := fun _ => rfl
  exact standing_edit keeps serial s

theorem make_grows (sid : Int) (service : IServiceBase) : Grows s (s.make sid service) := by
  constructor
  · exact Nat.le_succ s.nextAgent
  · intro serial
    by_cases same : serial = s.nextAgent
    · refine .inr ⟨ge_of_eq same, same ▸ Nat.lt_succ_self _, service, ?_⟩
      simp only [UServiceModule.standing, UServiceModule.make, Table.lookup_insert_ite, same,
        if_true]
      rfl
    · left
      simp only [UServiceModule.standing, UServiceModule.make, Table.lookup_insert_ite, same,
        if_false]

theorem CallEffect.grows {call : ServiceCall} {rest : Option ServiceCall}
    (effect : CallEffect s call rest t) (other : ∀ sid agent, call ≠ .bootStart sid agent) :
    Grows s t := by
  cases effect with
  | initialThrew | invalid | valid => exact make_grows _ _
  | started => exact absurd rfl (other _ _)
  | refused | halted => exact .of_same rfl (stop_standing _ s)
  | served standing => exact .of_same rfl standing
  | passed standing => exact .of_same rfl standing
  | _ => exact .of_same rfl rfl

theorem agentInitial_grows (agent : UServiceAgent) : Within Grows (agentInitial agent) := by
  unfold agentInitial
  split
  · exact .throw _
  · exact .pure _

theorem agentStop_grows (agent : UServiceAgent) : Within Grows (agentStop agent) :=
  .modify fun s => .of_same rfl (stop_standing agent.serial s)

theorem coreService_grows (core : CoreService) : Within Grows (coreService core) := by
  unfold coreService
  apply Within.bind (R := Grows) .get
  intro s
  split
  · exact .throw _
  · split
    · exact .pure _
    · have allocated : Within Grows (allocate core.first) := by
        intro s t ends
        cases ends.of_ok (u := { s with allocator := (s.allocator.allocate core.first).2 }) rfl
        exact .of_same rfl rfl
      apply Within.bind allocated
      intro sid
      apply Within.bind (R := Grows) (.throwIf _ _)
      intro _
      have made (service : IServiceBase) : Within Grows (makeAgent sid service) := by
        intro s t ends
        cases ends.of_ok (u := s.make sid service) rfl
        exact make_grows sid service
      apply Within.bind (made _)
      intro agent
      apply Within.bind (agentInitial_grows agent)
      intro ready
      split
      · exact Within.bind (R := Grows) (.modify fun _ => .of_same rfl rfl) fun _ =>
          agentStop_grows agent
      · split
        · exact agentStop_grows agent
        · exact .modify fun _ => .of_same rfl rfl

/-- What `BootService` of an agent does to its coroutine. -/
theorem agentBootService_shift {sid : Int} {agent : UServiceAgent}
    (ends : Ends (agentBootService sid agent) s t) :
    Shift s (s.Spawns agent → s.workerPool.stopped = false) t := by
  have unchanged (idle : ¬ s.Spawns agent) (same : t = s) :
      Shift s (s.Spawns agent → s.workerPool.stopped = false) t := by
    subst same
    exact .grows (fun spawns => absurd spawns idle) rfl (refl_of Grows t)
  cases opened : s.isOpen agent with
  | false =>
    refine unchanged (fun spawns => ?_) (ends.of_exception (agentBootService_closed opened))
    cases opened.symm.trans spawns.1
  | true =>
    cases start : agent.service.start with
    | error what =>
      refine unchanged (fun spawns => ?_) (ends.of_exception (agentBootService_threw opened start))
      cases start.symm.trans spawns.2.1
    | ok started =>
      cases started with
      | false =>
        refine unchanged (fun spawns => ?_) (ends.of_ok (agentBootService_refused opened start))
        cases start.symm.trans spawns.2.1
      | true =>
        cases ends.of_ok (agentBootService_started opened start)
        obtain ⟨context, held, -⟩ := (Option.any_eq_true _ _).mp opened
        have present : s.standing agent.serial = some context.standing := by
          rw [UServiceModule.standing, held, Option.map_some]
        have changed := edit_standing (s := s) agent.serial
          (ServiceContext.post Mailbox.spawnProcess)
        rw [held, Option.map_some] at changed
        by_cases absent : context.mailbox.process = .absent
        · have spawned : (context.post Mailbox.spawnProcess).standing =
              (.starting, context.stops, context.service) := by
            simp only [ServiceContext.standing, ServiceContext.post, Mailbox.spawnProcess, absent,
              if_true]
          rw [spawned] at changed
          have spawns : s.Spawns agent := ⟨opened, start, _, present, absent⟩
          refine .moves rfl rfl present changed ?_ ?_
          · intro sound
            refine .inr (sound.resolve_left ?_)
            simp [ServiceContext.standing, absent]
          · intro _
            simp [Standing.Abandoned, ServiceContext.standing, absent, spawns]
        · refine .grows (fun spawns => ?_) rfl (.of_same rfl ?_)
          · obtain ⟨-, -, standing, found, idle⟩ := spawns
            cases present.symm.trans found
            exact absurd idle absent
          · have kept : (context.post Mailbox.spawnProcess).standing = context.standing := by
              simp only [ServiceContext.standing, ServiceContext.post, Mailbox.spawnProcess,
                if_neg absent]
            rw [kept, ← present, Function.update_eq_self] at changed
            exact changed

theorem mainNext_shift (ends : Ends mainNext s t) : Shift s (Activity.Attends s .main) t := by
  unfold Activity.Attends
  cases mainNext_cases ends with
  | idle at' same =>
    rw [at', same]
    exact .grows trivial rfl (refl_of Grows s)
  | @creates core cores u at' ends next =>
    have pool : u.workerPool.stopped = s.workerPool.stopped :=
      congrArg (fun phase : Phase => phase.pool.stopped) (coreService_same core _ _ ends)
    have shift : Shift { s with main := .idle } True u :=
      .grows trivial pool (coreService_grows core _ _ ends)
    rw [at']
    rcases next with rfl | rfl
    · exact shift.main t.main
    · exact shift.main _
  | @boots service services u at' ends next =>
    have shift := agentBootService_shift ends
    rw [at']
    rcases next with rfl | rfl
    · exact shift.main t.main
    · exact shift.main _
  | spawns at' same | opens at' same | initialises at' same | runs at' same | cancels at' same
  | clears at' same =>
    rw [at', same]
    exact .grows trivial rfl (.of_same rfl rfl)
  | @closes service services at' same =>
    rw [at', same]
    exact .grows trivial rfl (.of_same rfl (stop_standing service.2.serial s))
  | halts at' same =>
    rw [at', same]
    exact .halts rfl rfl rfl Iff.rfl

theorem loopNext_grows {timepoint delta : Int} (ends : Ends (loopNext timepoint delta) s t) :
    Grows s t := by
  cases loopNext_cases ends with
  | stays _ same =>
    rw [same]
    exact refl_of Grows s
  | enters _ _ same | tests _ same | resumes _ _ same =>
    rw [same]
    exact .of_same rfl rfl
  | passes _ passed same =>
    cases passed
    rw [same]
    exact .of_same rfl (updatePass_standing _ _ _ s)

theorem agentEvent_shift {serial : Nat} {event : Mailbox.Event}
    (ends : Ends (agentEvent serial event) s t) :
    Shift s (Activity.Attends s (.agent serial event)) t := by
  unfold agentEvent at ends
  have ends := ends.congr (get_bind _ s)
  split at ends
  next unhandled =>
    cases ends.of_ok (u := s) rfl
    refine .grows (fun context _ => ?_) rfl (refl_of Grows s)
    cases event with
    | complete threw => simp [Mailbox.Event.queued] at unhandled
    | _ => trivial
  next handled =>
    cases ends.of_ok (u := s.edit serial fun context => (context.step event).getD context) rfl
    have changed := edit_standing (s := s) serial fun context => (context.step event).getD context
    have awake : event.queued → s.workerPool.stopped = false := by
      intro queued
      simp only [queued, Bool.true_and, Bool.not_eq_true', Bool.not_eq_false] at handled
      simpa using (Bool.and_eq_true_iff.mp handled).2
    cases held : s.contexts.lookup serial with
    | none =>
      refine .grows (fun context present => ?_) rfl (.of_same rfl ?_)
      · cases held.symm.trans present
      · rw [held, Option.map_none] at changed
        rw [changed]
        apply Function.update_eq_self_iff.mpr
        rw [UServiceModule.standing, held, Option.map_none]
    | some context =>
      have present : s.standing serial = some context.standing := by
        rw [UServiceModule.standing, held, Option.map_some]
      have meets : Activity.Attends s (.agent serial event) ↔
          context.Returns s.workerPool.stopped event := by
        simp only [Activity.Attends, held, Option.some.injEq, forall_eq']
      rw [held, Option.map_some] at changed
      cases came : context.step event with
      | some later =>
        rw [came, Option.getD_some] at changed
        refine .moves rfl rfl present changed ?_ ?_
        · exact fun sound => (ServiceContext.step_standing came awake sound).1
        · intro sound
          rw [meets]
          exact (ServiceContext.step_standing came awake sound).2
      | none =>
        rw [came, Option.getD_none, ← present, Function.update_eq_self] at changed
        refine .grows (meets.mpr ?_) rfl (.of_same rfl changed)
        cases event with
        | complete threw =>
          intro post executing
          cases threw <;>
            simp [ServiceContext.step, Mailbox.step, Mailbox.complete, executing] at came
        | _ => trivial

theorem serviceCall_shift {call : ServiceCall} {rest : Option ServiceCall}
    (reaches : Reaches call.part s rest t) :
    Shift s (Activity.Attends s (.service call)) t := by
  have effect := part_effect reaches
  have pool := congrArg (fun phase : Phase => phase.pool.stopped) effect.phase
  cases call with
  | bootStart sid agent =>
    rcases reaches.ends.of_bind with ⟨came, u, booted, ends⟩ | threw
    · have same : t = u := by
        cases came with
        | false => exact ends.of_ok rfl
        | true => exact ends.of_ok rfl
      subst same
      exact agentBootService_shift (.inl ⟨came, booted⟩)
    · exact agentBootService_shift (.inr threw)
  | _ => exact .grows trivial pool (effect.grows (by simp))

theorem Phase.Turn.loop_pool {p q : Phase} {timepoint delta : Int}
    (turn : Phase.Turn p (.loop timepoint delta) q) : q.pool = p.pool := by
  cases turn <;> rfl

/-- What every activity does to the services. -/
theorem part_shift {activity : Activity} {rest : Option Activity}
    (reaches : Reaches activity.part s rest t) : Shift s (activity.Attends s) t := by
  cases activity with
  | service call =>
    obtain ⟨inner, -, reaches⟩ := reaches.of_map
    exact serviceCall_shift reaches
  | initial cores =>
    rcases mainBegin_idle reaches.last.2 with rfl | ⟨-, ends⟩
    · exact .grows trivial rfl (refl_of Grows _)
    · rcases guarded_ends (ends.congr (get_bind _ s)) with rfl | ⟨-, rfl⟩
      · exact .grows trivial rfl (refl_of Grows _)
      · exact .grows trivial rfl (.of_same rfl rfl)
  | start =>
    rcases mainBegin_idle reaches.last.2 with rfl | ⟨-, ends⟩
    · exact .grows trivial rfl (refl_of Grows _)
    · rcases guarded_ends (ends.congr (get_bind _ s)) with rfl | ⟨-, rfl⟩
      · exact .grows trivial rfl (refl_of Grows _)
      · exact .grows trivial rfl (.of_same rfl rfl)
  | stop =>
    rcases mainBegin_idle reaches.last.2 with rfl | ⟨-, ends⟩
    · exact .grows trivial rfl (refl_of Grows _)
    · have ends := ends.congr (get_bind _ s)
      split at ends
      · cases ends.of_ok (u := s) rfl
        exact .grows trivial rfl (refl_of Grows s)
      · cases ends.of_ok (u := { s with state := .stopped, main := .cancelling }) rfl
        exact .grows trivial rfl (.of_same rfl rfl)
  | main => exact mainNext_shift reaches.last.2
  | loop timepoint delta =>
    have ends : Ends (loopNext timepoint delta) s t := reaches.last.2
    have pool : t.workerPool = s.workerPool := (loopNext_turn ends).loop_pool
    exact .grows trivial (congrArg _ pool) (loopNext_grows ends)
  | expire =>
    cases reaches.last.2.of_ok rfl
    exact .grows trivial rfl (.of_same rfl rfl)
  | signal =>
    cases reaches.last.2.of_ok (u := { s with
      workerPool := if s.workerPool.running && s.workerPool.signalled then s.workerPool.stop
        else s.workerPool }) rfl
    by_cases handled : s.workerPool.running && s.workerPool.signalled
    · refine .halts ?_ rfl rfl ?_
      · simp only [handled, if_true]
        rfl
      · exact ⟨fun settles => settles (Bool.and_eq_true_iff.mp handled), fun settled _ => settled⟩
    · refine .grows ?_ ?_ (.of_same rfl rfl)
      · exact fun both => absurd (Bool.and_eq_true_iff.mpr both) handled
      · simp only [handled]
        rfl
  | agent serial event => exact agentEvent_shift reaches.last.2

end

section
variable {config later : Life} {move : Move Activity}

theorem Life.accounted_step (accounted : config.shared.Accounted)
    (moved : Life.step config move later) : later.shared.Accounted := by
  cases moved with
  | invoke => exact accounted
  | advance pending reaches => exact (part_shift reaches).accounted accounted

theorem Life.attended_step (accounted : config.shared.Accounted)
    (moved : Life.step config move later) :
    later.shared.Attended ↔ config.shared.Attended ∧ Attends config move := by
  cases moved with
  | invoke => exact (and_iff_left trivial).symm
  | advance pending reaches => exact (part_shift reaches).attended accounted

/-- In the end a booted service has either been stopped or been abandoned. -/
theorem Life.Final.attended (final : config.Final) (accounted : config.shared.Accounted) :
    config.shared.Attended ↔ config.shared.AllStopped := by
  unfold UServiceModule.Attended UServiceModule.AllStopped
  rw [final.halted]
  constructor
  · intro attended serial standing present booted unstopped
    apply attended serial standing present
    have idle := final.agents serial standing present
    cases process : standing.1 with
    | absent => exact absurd process booted
    | starting => exact .inl ⟨rfl, .inl process⟩
    | receiving => exact .inl ⟨rfl, .inr process⟩
    | executing | cleaning => simp [process, ProcessChannel.running] at idle
    | finished => exact .inr ⟨process, unstopped⟩
  · rintro allStopped serial standing present (⟨-, waits⟩ | ⟨ended, unstopped⟩)
    · have unfinished : standing.1 ≠ .finished ∧ standing.1 ≠ .absent := by
        rcases waits with starting | receiving
        · simp [starting]
        · simp [receiving]
      have live := (accounted.sound serial standing present).resolve_left unfinished.1
      exact allStopped serial standing present unfinished.2 live.1
    · exact allStopped serial standing present (by simp [ended]) unstopped

open Transition in
/-- At the end of a run every booted service has been stopped if and only if no
step of the run has left one behind. -/
theorem allStopped_iff_attends (factory : IServiceFactory) {path : List (Move Activity × Life)}
    (run : Path Life.step ⟨.new factory, 0⟩ path) (final : (last ⟨.new factory, 0⟩ path).Final) :
    (last ⟨.new factory, 0⟩ path).shared.AllStopped ↔ Every Attends ⟨.new factory, 0⟩ path := by
  have none (serial : Nat) : (UServiceModule.new factory).standing serial = none := rfl
  have accounted : (UServiceModule.new factory).Accounted := by
    constructor
    · exact fun serial _ => none serial
    · intro serial standing present
      cases (none serial).symm.trans present
  have attended : (UServiceModule.new factory).Attended := by
    intro serial standing present
    cases (none serial).symm.trans present
  have always : Always (fun config => config.shared.Accounted) ⟨.new factory, 0⟩ path :=
    run.invariant (fun accounted moved => Life.accounted_step accounted moved) accounted
  rw [← final.attended always.last]
  have counted := run.last_iff_every (P := fun config => config.shared.Attended)
    (fun accounted moved => Life.accounted_step accounted moved)
    (fun accounted moved => Life.attended_step accounted moved) accounted
  exact counted.trans (and_iff_right attended)

end

theorem UServiceModule.standing_entries {s : UServiceModule} {P : Standing → Prop}
    (holds : ∀ entry ∈ s.contexts.entries, P entry.2.standing) (serial : Nat)
    (standing : Standing) (present : s.standing serial = some standing) : P standing := by
  obtain ⟨context, held, rfl⟩ := Option.map_eq_some_iff.mp present
  exact holds ⟨serial, context⟩ (List.of_mem_dlookup (Option.mem_def.mpr held))

/-- Each activity begins, and does what it does without interruption. -/
def Life.activities (activities : List Activity) : List (Move Activity) :=
  activities.flatMap fun activity => [.invoke activity, .advance activity]

/-- `Initial` and `Start` with one core service. -/
def startMail : List Activity :=
  [.initial [⟨"mail", 0, 0⟩], .main, .main, .main, .main, .start, .main, .main]

/-- The pool is stopped before the coroutine of the service goes on with the
closed channel. -/
def stoppedEarly : List (Move Activity × Life) :=
  Life.runs ⟨.new (.only mailService), 0⟩ (Life.activities
    (startMail ++ [.agent 0 (.resume true), .stop, .main, .main, .main, .main]))

/-- The service is stopped, and then the pool. -/
def stoppedLate : List (Move Activity × Life) :=
  Life.runs ⟨.new (.only mailService), 0⟩ (Life.activities
    (startMail ++ [.agent 0 (.resume true), .stop, .main, .main, .agent 0 (.resume true),
      .agent 0 .cleanUp, .main, .main]))

theorem stoppedEarly_unstopped :
    Transition.Path Life.step ⟨.new (.only mailService), 0⟩ stoppedEarly ∧
      (Transition.last ⟨.new (.only mailService), 0⟩ stoppedEarly).Final ∧
      ¬ (Transition.last ⟨.new (.only mailService), 0⟩ stoppedEarly).shared.AllStopped := by
  refine ⟨Life.runs_path _ _, ?_, fun allStopped => ?_⟩
  · constructor
    · decide +kernel
    · decide +kernel
    · decide +kernel
    · decide +kernel
    · exact UServiceModule.standing_entries (by decide +kernel)
    · decide +kernel
  · have waits : (Transition.last ⟨.new (.only mailService), 0⟩ stoppedEarly).shared.standing 0 =
        some (.receiving, 0, some mailService) := by decide +kernel
    exact allStopped 0 _ waits (by simp) rfl

theorem allStopped_iff_attends_late :
    (Transition.last ⟨.new (.only mailService), 0⟩ stoppedLate).shared.AllStopped ∧
      Transition.Every Attends ⟨.new (.only mailService), 0⟩ stoppedLate := by
  have final : (Transition.last ⟨.new (.only mailService), 0⟩ stoppedLate).Final := by
    constructor
    · decide +kernel
    · decide +kernel
    · decide +kernel
    · decide +kernel
    · exact UServiceModule.standing_entries (by decide +kernel)
    · decide +kernel
  have stopped : (Transition.last ⟨.new (.only mailService), 0⟩ stoppedLate).shared.AllStopped :=
    UServiceModule.standing_entries (by decide +kernel)
  exact ⟨stopped, (allStopped_iff_attends _ (Life.runs_path _ _) final).mp stopped⟩

end Uranus
