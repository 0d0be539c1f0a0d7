import Uranus.Service.AgentMail
import Uranus.Service.Consistency

/-! The times of the ticks. `UpdateLoop` reads the steady clock once and from then on
adds its period, so that the passes come on a grid of times, however late a thread
is with each of them. -/
namespace Uranus
open Foundation Program Interleaving

/-- `UpdateLoop`'s period in the nanoseconds of the steady clock. -/
def tickDelta (ms : Int) : Int := 1000000 * if ms < 10 then 10 else ms

/-- The local variable of `UpdateLoop`. `start` and `passes` are a history that no
step reads: when the coroutine began, and how often it has gone through the tickers. -/
structure TickPoint where
  tickPoint : Int
  start : Int
  passes : Nat
deriving DecidableEq

/-- What the coroutine does to its variable on its way. -/
def TickPoint.follow (ms now : Int) (before after : UpdateLoop) (point : TickPoint) : TickPoint :=
  match before, after with
  | .spawned, .testing => { point with tickPoint := now, start := now }
  | .testing, .waiting => { point with tickPoint := point.tickPoint + tickDelta ms }
  | .passing, .testing => { point with passes := point.passes + 1 }
  | _, _ => point

/-- The tick of a pass. -/
def TickPoint.tick (ms : Int) (point : TickPoint) (pass : Nat) : Int × Int :=
  (point.start + pass * tickDelta ms, tickDelta ms)

/-- The ticks of the passes after `first`, up to the last. -/
def TickPoint.ticksFrom (ms : Int) (first : Nat) (point : TickPoint) : List (Int × Int) :=
  (List.range' (first + 1) (point.passes - first)).map (point.tick ms)

/-- The module with the steady clock beside it. -/
structure TimedLife where
  life : Life
  now : Int
  point : TickPoint

inductive TimedMove where
  | elapse (time : Nat)
  | move (move : Move Activity)

namespace TimedLife

def new (factory : IServiceFactory) (now : Int) : TimedLife :=
  ⟨⟨.new factory, 0⟩, now, ⟨now, now, 0⟩⟩

/-- A pass goes on with the variable of the coroutine, the timer expires at its time
at the earliest, and nothing else pushes ticks. -/
def Timely (ms : Int) (w : TimedLife) : Move Activity → Prop
  | .invoke _ => True
  | .advance activity =>
    match activity with
    | .loop timepoint delta => w.life.shared.updateLoop = .passing →
        timepoint = w.point.tickPoint ∧ delta = tickDelta ms
    | .expire => w.life.shared.updateLoop = .waiting → w.point.tickPoint ≤ w.now
    | activity => activity.Tickless w.life.shared

inductive Step (ms : Int) (w : TimedLife) : TimedMove → TimedLife → Prop where
  | elapse (time : Nat) : Step ms w (.elapse time) { w with now := w.now + time }
  | move {move : Move Activity} {life : Life} (timely : w.Timely ms move)
      (moved : Life.step w.life move life) :
      Step ms w (.move move) { w with
        life
        point := w.point.follow ms w.now w.life.shared.updateLoop life.shared.updateLoop }

instance (ms : Int) (w : TimedLife) : (move : Move Activity) → Decidable (w.Timely ms move)
  | .invoke _ => .isTrue trivial
  | .advance activity => match activity with
    | .loop .. => inferInstanceAs (Decidable (_ → _ ∧ _))
    | .expire => inferInstanceAs (Decidable (_ → _ ≤ _))
    | .service call => match call with
      | .updatePass .. => .isFalse id
      | .boot .. | .bootFresh _ | .bootCheck .. | .bootName .. | .bootStart .. | .bootRegister ..
      | .bootRefuse .. | .shutdown _ | .shutdownName .. | .shutdownNamed _ | .shutdownFound ..
      | .eraseTicker .. | .recycle .. | .halt .. | .find .. | .findAgent .. | .found ..
      | .insertTicker _ | .removeTicker _ => .isTrue trivial
    | .agent _ event => inferInstanceAs (Decidable (event.plain = true))
    | .initial _ | .start | .stop | .main | .signal => .isTrue trivial

/-- The step with a label, computed. -/
def next (ms : Int) (w : TimedLife) : TimedMove → Option TimedLife
  | .elapse time => some { w with now := w.now + time }
  | .move move =>
    if w.Timely ms move then
      (following Activity.part (fun activity => activity.starts) w.life move).map fun life =>
        { w with
          life
          point := w.point.follow ms w.now w.life.shared.updateLoop life.shared.updateLoop }
    else none

theorem next_step {ms : Int} {w w' : TimedLife} {move : TimedMove}
    (came : w.next ms move = some w') : Step ms w move w' := by
  cases move with
  | elapse time =>
    cases came
    exact .elapse time
  | move move =>
    simp only [next] at came
    split at came
    next timely =>
      obtain ⟨life, followed, rfl⟩ := Option.map_eq_some_iff.mp came
      exact .move timely (following_step followed)
    next => cases came

def runs (ms : Int) (w : TimedLife) (moves : List TimedMove) : List (TimedMove × TimedLife) :=
  Transition.trace (next ms) w moves

theorem runs_path (ms : Int) (w : TimedLife) (moves : List TimedMove) :
    Transition.Path (Step ms) w (w.runs ms moves) :=
  Transition.trace_path next_step moves

/-- Every agent has got ticks of some passes only, each once and in their order, none
before its time, and has executed none twice and no others. -/
def Scheduled (ms : Int) (w : TimedLife) : Prop :=
  ∀ serial context, w.life.shared.contexts.lookup serial = some context →
    ∃ passes : List Nat, passes.Pairwise (· < ·) ∧
      (∀ pass ∈ passes, 0 < pass ∧ (w.point.tick ms pass).1 ≤ w.now) ∧
      context.mailbox.ticks = passes.map (w.point.tick ms) ∧
      context.mailbox.updates.Nodup ∧
      ∀ tick ∈ context.mailbox.updates, tick ∈ context.mailbox.ticks

end TimedLife

/-- The mailbox has got ticks of the first `passes` passes. -/
structure OnGrid (start delta : Int) (passes : Nat) (m : Mailbox) : Prop where
  conserved : m.Conserved
  grid : ∃ some : List Nat, some.Pairwise (· < ·) ∧ (∀ pass ∈ some, 0 < pass ∧ pass ≤ passes) ∧
    m.ticks = some.map fun pass : Nat => (start + pass * delta, delta)

section
variable {start delta : Int} {passes : Nat} {m : Mailbox}

theorem OnGrid.stable (start delta : Int) (passes : Nat) :
    Stable 0 fun _ => OnGrid start delta passes where
  fresh _ := ⟨⟨rfl, le_refl _, fun _ => rfl⟩, [], .nil, nofun, rfl⟩
  event plain holds moved := by
    refine ⟨holds.conserved.step moved, ?_⟩
    rw [Mailbox.plain_ticks holds.conserved plain moved]
    exact holds.grid
  spawn holds := by
    refine ⟨Mailbox.spawnProcess_conserved holds.conserved, ?_⟩
    rw [Mailbox.spawnProcess_ticks]
    exact holds.grid

theorem OnGrid.later (holds : OnGrid start delta passes m) :
    OnGrid start delta (passes + 1) m := by
  obtain ⟨conserved, some, sorted, within, ticks⟩ := holds
  exact ⟨conserved, some, sorted, fun pass held =>
    ⟨(within pass held).1, (within pass held).2.trans (Nat.le_succ _)⟩, ticks⟩

/-- The tick of the next pass. -/
theorem OnGrid.push (holds : OnGrid start delta passes m) :
    OnGrid start delta (passes + 1)
      (m.push (some (.ticker (start + (passes + 1 : Nat) * delta) delta))) := by
  refine ⟨holds.conserved.push _, ?_⟩
  rw [Mailbox.push_ticks]
  split
  · obtain ⟨-, some, sorted, within, ticks⟩ := holds
    refine ⟨some ++ [passes + 1], ?_, fun pass held => ?_, ?_⟩
    · refine List.pairwise_append.mpr ⟨sorted, List.pairwise_singleton _ _, ?_⟩
      intro pass held next new
      rw [List.mem_singleton.mp new]
      exact Nat.lt_succ_of_le (within pass held).2
    · rcases List.mem_append.mp held with held | new
      · exact ⟨(within pass held).1, (within pass held).2.trans (Nat.le_succ _)⟩
      · rw [List.mem_singleton.mp new]
        exact ⟨Nat.succ_pos _, le_refl _⟩
    · rw [ticks, List.map_append]
      rfl
  · exact holds.later.grid

/-- Every entry changes what stands under its key, and no key comes twice. -/
theorem lookup_foldl_modify {E V : Type} {key : E → Nat} (update : V → V) {entries : List E}
    (distinct : (entries.map key).Nodup) (table : Table Nat V) (k : Nat) :
    (entries.foldl (fun table entry => Table.modify (key entry) update table) table).lookup k =
      if k ∈ entries.map key then (table.lookup k).map update else table.lookup k := by
  induction entries generalizing table with
  | nil => rfl
  | cons entry rest ih =>
    obtain ⟨absent, distinct⟩ := List.nodup_cons.mp distinct
    rw [List.foldl_cons, ih distinct, Table.lookup_modify, List.map_cons]
    by_cases first : k = key entry
    · subst first
      rw [if_neg absent, if_pos rfl, if_pos List.mem_cons_self]
    · rw [if_neg first]
      simp only [List.mem_cons, first, false_or]

/-- Without a pass no grid is chosen anew. -/
theorem OnGrid.restart {start' : Int} (holds : OnGrid start delta 0 m) :
    OnGrid start' delta 0 m := by
  obtain ⟨conserved, some, sorted, within, ticks⟩ := holds
  have none : some = [] := by
    refine List.eq_nil_iff_forall_not_mem.mpr fun pass held => ?_
    exact absurd (within pass held).1 (Nat.not_lt.mpr (within pass held).2)
  subst none
  exact ⟨conserved, [], .nil, nofun, ticks⟩

/-- The agents to which a pass turns. -/
def UServiceModule.ticked (s : UServiceModule) : List Nat :=
  (s.serviceMap.entries.filter fun entry => entry.1 ∈ s.tickerSet).map fun entry => entry.2.serial

theorem Life.Distinct.ticked {config : Life} (distinct : config.Distinct) :
    config.shared.ticked.Nodup := by
  have nodup : config.shared.serials.Nodup :=
    Multiset.nodup_of_le (Multiset.le_add_right _ _) distinct.nodup
  have entries : (config.shared.serviceMap.entries.map fun entry => entry.2.serial).Nodup := by
    have same : config.shared.serials =
        (config.shared.serviceMap.entries.map fun entry => entry.2.serial : List Nat) := by
      rw [UServiceModule.serials, Table.pairs, Multiset.map_coe, List.map_map]
      rfl
    exact Multiset.coe_nodup.mp (same ▸ nodup)
  exact entries.sublist (List.filter_sublist.map _)

/-- What a pass does to the contexts. -/
theorem Life.Distinct.pass {config : Life} (distinct : config.Distinct) {timepoint delta : Int}
    {t : UServiceModule} (passed : updatePass timepoint delta config.shared = .ok () t)
    (serial : Nat) : t.contexts.lookup serial =
      if serial ∈ config.shared.ticked then
        (config.shared.contexts.lookup serial).map (ServiceContext.pushTicker timepoint delta)
      else config.shared.contexts.lookup serial := by
  cases passed
  exact lookup_foldl_modify _ distinct.ticked _ _

theorem pass_onGrid {start delta : Int} {passes : Nat} {config : Life} {t : UServiceModule}
    (distinct : config.Distinct)
    (passed : updatePass (start + (passes + 1 : Nat) * delta) delta config.shared = .ok () t)
    (mailed : config.shared.Mailed fun _ => OnGrid start delta passes) :
    t.Mailed fun _ => OnGrid start delta (passes + 1) := by
  intro serial context held
  have found := (distinct.pass passed serial).symm.trans held
  split at found
  · obtain ⟨before, present, rfl⟩ := Option.map_eq_some_iff.mp found
    have onGrid := mailed serial before present
    unfold ServiceContext.pushTicker
    split
    · exact onGrid.later
    · exact onGrid.push
  · exact (mailed serial context found).later

end

theorem TickPoint.follow_same (ms now : Int) (loop : UpdateLoop) (point : TickPoint) :
    point.follow ms now loop loop = point := by
  cases loop <;> rfl

/-- `Initial` spawns the coroutine, which is not there before. -/
structure Phase.Unspawned (p : Phase) : Prop where
  created : p.state = .created →
    p.main = .idle ∨ (∃ cores, p.main = .creating cores) ∨ p.main = .opening ∨ p.main = .initialised
  creating : ∀ cores, p.main = .creating cores → p.state = .created ∧ p.loop = .absent
  idle : p.main = .idle → p.state = .created → p.loop = .absent

/-- The variable of the coroutine is where the coroutine stands on the grid. -/
structure TickPoint.Paced (ms now : Int) (loop : UpdateLoop) (point : TickPoint) : Prop where
  early : loop = .absent ∨ loop = .spawned → point.passes = 0
  testing : loop = .testing → point.tickPoint = point.start + point.passes * tickDelta ms
  ahead : loop = .waiting ∨ loop = .elapsed false ∨ loop = .passing →
    point.tickPoint = point.start + (point.passes + 1 : Nat) * tickDelta ms
  due : loop = .elapsed false ∨ loop = .passing → point.tickPoint ≤ now
  past : 0 < point.passes → point.start + point.passes * tickDelta ms ≤ now

namespace Phase
variable {p q : Phase} {activity : Activity} {ms now : Int} {point : TickPoint}

/-- Only `Initial` runs before the module has been initialised. -/
theorem Unspawned.begun (unspawned : p.Unspawned) (idle : p.main ≠ .idle)
    (creating : ∀ cores, p.main ≠ .creating cores) (opening : p.main ≠ .opening)
    (initialised : p.main ≠ .initialised) : p.state ≠ .created := by
  intro created
  rcases unspawned.created created with at' | ⟨cores, at'⟩ | at' | at'
  · exact idle at'
  · exact creating cores at'
  · exact opening at'
  · exact initialised at'

theorem Turn.unspawned (turn : Turn p activity q) (unspawned : p.Unspawned) : q.Unspawned := by
  have begun := unspawned.begun
  obtain ⟨created, creating, idle⟩ := unspawned
  cases turn with
  | quiet => exact ⟨created, creating, idle⟩
  | begins at' fresh =>
    exact ⟨fun _ => .inr (.inl ⟨_, rfl⟩), fun _ _ => ⟨fresh, idle at' fresh⟩, nofun⟩
  | creates at' next =>
    obtain ⟨fresh, absent⟩ := creating _ at'
    rcases next with rfl | rfl
    · exact ⟨fun _ => .inl rfl, nofun, fun _ _ => absent⟩
    · exact ⟨fun _ => .inr (.inl ⟨_, rfl⟩), fun _ _ => ⟨fresh, absent⟩, nofun⟩
  | spawns at' => exact ⟨fun _ => .inr (.inr (.inl rfl)), nofun, nofun⟩
  | opens at' => exact ⟨fun _ => .inr (.inr (.inr rfl)), nofun, nofun⟩
  | initialises | runs | stops => exact ⟨nofun, nofun, nofun⟩
  | starts at' initialized =>
    have later : p.state ≠ .created := by simp [initialized]
    exact ⟨fun fresh => absurd fresh later, nofun, nofun⟩
  | @boots _ _ main at' next =>
    have later : p.state ≠ .created := by apply begun <;> simp [at']
    refine ⟨fun fresh => absurd fresh later, ?_, fun _ fresh => absurd fresh later⟩
    rcases next with rfl | rfl <;> exact nofun
  | cancels at' | closes at' | halts at' | clears at' =>
    have later : p.state ≠ .created := by apply begun <;> simp [at']
    exact ⟨fun fresh => absurd fresh later, nofun, fun _ fresh => absurd fresh later⟩
  | enters at' | tests at' | resumes at' | passes at' | expires at' =>
    refine ⟨created, fun cores stands => ?_, fun stands fresh => ?_⟩
    · cases (creating cores stands).2.symm.trans at'
    · cases (idle stands fresh).symm.trans at'
  | signals => exact ⟨created, creating, idle⟩

theorem Turn.paced (turn : Turn p activity q) (unspawned : p.Unspawned)
    (paced : point.Paced ms now p.loop)
    (timely : activity = .expire → p.loop = .waiting → point.tickPoint ≤ now) :
    (point.follow ms now p.loop q.loop).Paced ms now q.loop := by
  have ⟨early, testing, ahead, due, past⟩ := paced
  cases turn with
  | spawns at' =>
    have absent := (unspawned.creating _ at').2
    rw [absent]
    exact ⟨fun _ => early (.inl absent), nofun, by simp, by simp, past⟩
  | cancels at' =>
    cases loop : p.loop with
    | waiting =>
      exact ⟨by simp [UpdateLoop.cancel], nofun, by simp [UpdateLoop.cancel],
        by simp [UpdateLoop.cancel], past⟩
    | absent | spawned | testing | elapsed | passing | finished =>
      rw [loop] at paced
      exact paced
  | enters at' =>
    rw [at']
    have none := early (.inr at')
    refine ⟨by simp, fun _ => ?_, by simp, by simp, fun some => ?_⟩
    · simp [TickPoint.follow, none]
    · simp [TickPoint.follow, none] at some
  | tests at' =>
    rw [at']
    dsimp only
    split
    · refine ⟨by simp, nofun, fun _ => ?_, by simp, past⟩
      simp only [TickPoint.follow]
      rw [testing at']
      push_cast
      ring
    · exact ⟨by simp, nofun, by simp, by simp, past⟩
  | @resumes _ _ cancelled at' =>
    rw [at']
    cases cancelled with
    | true => exact ⟨by simp, nofun, by simp, by simp, past⟩
    | false =>
      exact ⟨by simp, nofun, fun _ => ahead (.inr (.inl at')), fun _ => due (.inl at'), past⟩
  | passes at' =>
    rw [at']
    have reached := ahead (.inr (.inr at'))
    refine ⟨by simp, fun _ => reached, by simp, by simp, fun _ => ?_⟩
    exact (ge_of_eq reached).trans (due (.inr at'))
  | expires at' =>
    rw [at']
    exact ⟨by simp, nofun, fun _ => ahead (.inl at'), fun _ => timely rfl at', past⟩
  | _ =>
    rw [TickPoint.follow_same]
    exact paced

/-- Only a pass counts, and only a coroutine that has made no pass reads the clock. -/
theorem Turn.counts (turn : Turn p activity q) (paced : point.Paced ms now p.loop)
    (elsewhere : ∀ timepoint delta, activity = .loop timepoint delta → p.loop ≠ .passing) :
    (point.follow ms now p.loop q.loop).passes = point.passes ∧
      ((point.follow ms now p.loop q.loop).start = point.start ∨ point.passes = 0) := by
  cases turn with
  | spawns at' =>
    cases p.loop <;> exact ⟨rfl, .inl rfl⟩
  | cancels at' =>
    cases p.loop <;> exact ⟨rfl, .inl rfl⟩
  | enters at' =>
    rw [at']
    exact ⟨rfl, .inr (paced.early (.inr at'))⟩
  | tests at' =>
    rw [at']
    dsimp only
    split <;> exact ⟨rfl, .inl rfl⟩
  | @resumes _ _ cancelled at' =>
    rw [at']
    cases cancelled <;> exact ⟨rfl, .inl rfl⟩
  | passes at' => exact absurd at' (elsewhere _ _ rfl)
  | expires at' =>
    rw [at']
    exact ⟨rfl, .inl rfl⟩
  | _ =>
    rw [TickPoint.follow_same]
    exact ⟨rfl, .inl rfl⟩

end Phase

namespace TimedLife
variable {ms : Int} {w w' : TimedLife} {move : TimedMove}

/-- What every step keeps. -/
structure OnTime (ms : Int) (w : TimedLife) : Prop where
  distinct : w.life.Distinct
  unspawned : w.life.shared.phase.Unspawned
  paced : w.point.Paced ms w.now w.life.shared.updateLoop
  mailed : w.life.shared.Mailed fun _ => OnGrid w.point.start (tickDelta ms) w.point.passes

theorem OnTime.new (factory : IServiceFactory) (now : Int) : OnTime ms (new factory now) where
  distinct := .new factory
  unspawned := ⟨fun _ => .inl rfl, nofun, fun _ _ => rfl⟩
  paced := by
    have absent : (TimedLife.new factory now).life.shared.updateLoop = .absent := rfl
    rw [absent]
    exact ⟨fun _ => rfl, nofun, by simp, by simp, fun some => absurd some (lt_irrefl 0)⟩
  mailed _ _ held := by cases (AList.lookup_empty _).symm.trans held

/-- A pass pushes the ticks of the next time on the grid. -/
theorem OnTime.pass {s t : UServiceModule} {calls : Multiset Activity} {now : Int}
    {point : TickPoint} (onTime : OnTime ms ⟨⟨s, calls⟩, now, point⟩)
    (passing : s.updateLoop = .passing)
    (passed : updatePass point.tickPoint (tickDelta ms) s = .ok () t) :
    t.Mailed fun _ => OnGrid point.start (tickDelta ms) (point.passes + 1) := by
  have reached := onTime.paced.ahead (.inr (.inr passing))
  dsimp only at reached
  rw [reached] at passed
  exact pass_onGrid onTime.distinct passed onTime.mailed

/-- What an activity means for the ticks: a pass pushes those of its time, and
nothing else pushes any. -/
inductive Beat (ms : Int) (s t : UServiceModule) (point later : TickPoint) : Prop where
  | pass {u : UServiceModule} (passing : s.updateLoop = .passing)
      (passed : updatePass point.tickPoint (tickDelta ms) s = .ok () u)
      (same : t = { u with updateLoop := .testing })
      (counted : later = { point with passes := point.passes + 1 })
  | quiet (kept : ∀ {first P}, Stable first P → KeepsMail first P s t)
      (passes : later.passes = point.passes) (start : later.start = point.start ∨ point.passes = 0)

theorem beat {s t : UServiceModule} {calls : Multiset Activity} {activity : Activity}
    {rest : Option Activity} {now : Int} {point : TickPoint}
    (paced : point.Paced ms now s.updateLoop)
    (timely : Timely ms ⟨⟨s, calls⟩, now, point⟩ (.advance activity))
    (reaches : Reaches activity.part s rest t) :
    Beat ms s t point (point.follow ms now s.updateLoop t.updateLoop) := by
  have quiet (tickless : activity.Tickless s) :
      Beat ms s t point (point.follow ms now s.updateLoop t.updateLoop) := by
    have elsewhere (timepoint delta : Int) (same : activity = .loop timepoint delta) :
        s.phase.loop ≠ .passing := by
      subst same
      exact tickless
    have counts := (part_phase reaches).counts paced elsewhere
    exact .quiet (fun stable => part_keepsMail stable tickless reaches) counts.1 counts.2
  cases activity with
  | loop timepoint delta =>
    by_cases passing : s.updateLoop = .passing
    · obtain ⟨rfl, rfl⟩ := timely passing
      cases loopNext_cases reaches.last.2 with
      | stays _ same =>
        rw [same, TickPoint.follow_same]
        exact .quiet (fun _ => refl_of _ s) rfl (.inl rfl)
      | passes _ passed same =>
        rw [same, passing]
        exact .pass passing passed rfl rfl
      | enters at' | tests at' | resumes at' => cases passing.symm.trans at'
    · exact quiet passing
  | expire => exact quiet trivial
  | service | initial | start | stop | main | signal | agent => exact quiet timely

theorem OnTime.advance {s t : UServiceModule} {calls : Multiset Activity} {now : Int}
    {point later : TickPoint} (onTime : OnTime ms ⟨⟨s, calls⟩, now, point⟩)
    (beat : Beat ms s t point later) :
    t.Mailed fun _ => OnGrid later.start (tickDelta ms) later.passes := by
  cases beat with
  | pass passing passed same counted =>
    have pushed := onTime.pass passing passed
    rw [same, counted]
    exact pushed
  | quiet kept passes start =>
    have mailed := (kept (OnGrid.stable point.start (tickDelta ms) point.passes)).mailed
      (Nat.zero_le _) onTime.mailed
    rw [passes]
    rcases start with same | none
    · rw [same]
      exact mailed
    · rw [none] at mailed ⊢
      exact fun serial context held => (mailed serial context held).restart

theorem OnTime.step (onTime : OnTime ms w) (moved : Step ms w move w') : OnTime ms w' := by
  cases moved with
  | elapse time =>
    obtain ⟨distinct, unspawned, ⟨early, testing, ahead, due, past⟩, mailed⟩ := onTime
    refine ⟨distinct, unspawned, ⟨early, testing, ahead, fun at' => ?_, fun some => ?_⟩, mailed⟩
    · have := due at'
      dsimp only
      omega
    · have := past some
      dsimp only
      omega
  | @move move life timely moved =>
    obtain ⟨⟨s, calls⟩, now, point⟩ := w
    cases moved with
    | invoke starts =>
      rw [TickPoint.follow_same]
      exact ⟨onTime.distinct.step (.invoke starts), onTime.unspawned, onTime.paced, onTime.mailed⟩
    | @advance _ t _ activity rest pending reaches =>
      have turn := part_phase reaches
      refine ⟨onTime.distinct.step (.advance pending reaches), turn.unspawned onTime.unspawned,
        turn.paced onTime.unspawned onTime.paced ?_, ?_⟩
      · rintro rfl
        exact timely
      · exact onTime.advance (beat onTime.paced timely reaches)

/-- The passes have come, and their times are in order. -/
theorem OnTime.scheduled (onTime : OnTime ms w) : w.Scheduled ms := by
  intro serial context held
  obtain ⟨conserved, passes, sorted, within, ticks⟩ := onTime.mailed serial context held
  have positive : 0 < tickDelta ms := by
    unfold tickDelta
    split <;> omega
  have strict {first second : Nat} (before : first < second) :
      (w.point.tick ms first).1 < (w.point.tick ms second).1 := by
    have more := Int.mul_lt_mul_of_pos_right (Int.ofNat_lt.mpr before) positive
    exact Int.add_lt_add_left more w.point.start
  refine ⟨passes, sorted, fun pass member => ⟨(within pass member).1, ?_⟩, ticks, ?_, ?_⟩
  · have some := (within pass member).1.trans_le (within pass member).2
    refine le_trans ?_ (onTime.paced.past some)
    rcases (within pass member).2.eq_or_lt with same | before
    · rw [same]
      exact le_refl _
    · exact (strict before).le
  · apply conserved.updates_nodup
    rw [ticks]
    refine List.pairwise_map.mpr (sorted.imp fun before same => ?_)
    exact (strict before).ne (congrArg Prod.fst same)
  · exact fun _ => conserved.updates_subset

open Transition in
/-- In every run the agents get their ticks on the grid of the times of `UpdateLoop`. -/
theorem ticks_always_scheduled (factory : IServiceFactory) (now : Int)
    {path : List (TimedMove × TimedLife)} (run : Path (Step ms) (new factory now) path) :
    Always (Scheduled ms) (new factory now) path :=
  (run.invariant (P := OnTime ms) (fun onTime moved => onTime.step moved) (.new factory now)).imp
    fun _ onTime => onTime.scheduled

/-- The service stands under its id, asks for ticks and takes them. -/
def Subscribed (sid : Int) (agent : UServiceAgent) (w : TimedLife) : Prop :=
  sid ∈ w.life.shared.tickerSet ∧ w.life.shared.serviceMap.lookup sid = some agent ∧
    (w.life.shared.contexts.lookup agent.serial).any fun context =>
      context.mailbox.channel.isOpen && context.service.isSome

instance (sid : Int) (agent : UServiceAgent) : DecidablePred (Subscribed sid agent) := fun _ =>
  inferInstanceAs (Decidable (_ ∧ _ ∧ _))

/-- The ticks that an agent has got. -/
def agentTicks (serial : Nat) (w : TimedLife) : Option (List (Int × Int)) :=
  (w.life.shared.contexts.lookup serial).map fun context => context.mailbox.ticks

/-- The agent has got, after `base`, a tick of every pass from `first` on. -/
structure Served (ms : Int) (sid : Int) (agent : UServiceAgent) (base : List (Int × Int))
    (first : Nat) (w : TimedLife) : Prop where
  onTime : OnTime ms w
  subscribed : Subscribed sid agent w
  reached : first ≤ w.point.passes
  got : ∀ context, w.life.shared.contexts.lookup agent.serial = some context →
    context.mailbox.ticks = base ++ w.point.ticksFrom ms first

section
variable {sid : Int} {agent : UServiceAgent} {base : List (Int × Int)} {first : Nat}

theorem Subscribed.ticked (subscribed : Subscribed sid agent w) :
    agent.serial ∈ w.life.shared.ticked := by
  obtain ⟨ticker, stands, -⟩ := subscribed
  refine List.mem_map.mpr ⟨⟨sid, agent⟩, List.mem_filter.mpr ⟨?_, ?_⟩, rfl⟩
  · exact List.of_mem_dlookup (Option.mem_def.mpr stands)
  · simpa using ticker

/-- The agent is there, open and with its service. -/
theorem Subscribed.context (subscribed : Subscribed sid agent w) :
    ∃ context, w.life.shared.contexts.lookup agent.serial = some context ∧
      context.mailbox.channel.isOpen ∧ context.service.isSome := by
  obtain ⟨context, held, takes⟩ := (Option.any_eq_true _ _).mp subscribed.2.2
  exact ⟨context, held, Bool.and_eq_true_iff.mp takes⟩

theorem Subscribed.known (subscribed : Subscribed sid agent w) (onTime : OnTime ms w) :
    agent.serial < w.life.shared.nextAgent := by
  apply onTime.distinct.below
  refine Multiset.mem_add.mpr (.inl (Multiset.mem_map.mpr ⟨(sid, agent), ?_, rfl⟩))
  exact Table.mem_pairs.mpr subscribed.2.1

/-- One pass more brings one tick more. -/
theorem ticksFrom_succ {point : TickPoint} (reached : first ≤ point.passes) :
    TickPoint.ticksFrom ms first { point with passes := point.passes + 1 } =
      point.ticksFrom ms first ++ [point.tick ms (point.passes + 1)] := by
  have next : first + 1 + (point.passes - first) = point.passes + 1 := by omega
  rw [TickPoint.ticksFrom, TickPoint.ticksFrom, Nat.succ_sub reached, List.range'_1_concat,
    List.map_append, next]
  rfl

theorem ticksFrom_same {point later : TickPoint} (passes : later.passes = point.passes)
    (start : later.start = point.start ∨ point.passes = 0) :
    later.ticksFrom ms first = point.ticksFrom ms first := by
  unfold TickPoint.ticksFrom
  rw [passes]
  rcases start with same | none
  · have ticks : later.tick ms = point.tick ms := by
      funext pass
      rw [TickPoint.tick, TickPoint.tick, same]
    rw [ticks]
  · rw [none, Nat.zero_sub]
    rfl

/-- In a pass the agent gets the tick of the pass. -/
theorem Served.pass {s t : UServiceModule} {calls : Multiset Activity} {now : Int}
    {point : TickPoint} (served : Served ms sid agent base first ⟨⟨s, calls⟩, now, point⟩)
    (passing : s.updateLoop = .passing)
    (passed : updatePass point.tickPoint (tickDelta ms) s = .ok () t) {context : ServiceContext}
    (held : t.contexts.lookup agent.serial = some context) :
    context.mailbox.ticks = base ++ point.ticksFrom ms first ++
      [(point.start + (point.passes + 1 : Nat) * tickDelta ms, tickDelta ms)] := by
  have ticked := served.subscribed.ticked
  obtain ⟨before, present, opened, living⟩ := served.subscribed.context
  have found := (served.onTime.distinct.pass passed agent.serial).symm.trans held
  rw [if_pos ticked, present, Option.map_some, Option.some_inj] at found
  obtain ⟨service, living⟩ := Option.isSome_iff_exists.mp living
  have reached := served.onTime.paced.ahead (.inr (.inr passing))
  dsimp only at reached
  rw [← found, ServiceContext.pushTicker, living]
  dsimp only [ServiceContext.post]
  rw [Mailbox.push_ticks, if_pos opened, served.got before present, reached]
  rfl

/-- What pushes no ticks leaves those of the agent alone. -/
theorem Served.quiet {s t : UServiceModule} {calls : Multiset Activity} {now : Int}
    {point : TickPoint} (served : Served ms sid agent base first ⟨⟨s, calls⟩, now, point⟩)
    (kept : ∀ {first P}, Stable first P → KeepsMail first P s t) {context : ServiceContext}
    (held : t.contexts.lookup agent.serial = some context) :
    context.mailbox.ticks = base ++ point.ticksFrom ms first := by
  have known := served.subscribed.known served.onTime
  have stable : Stable s.nextAgent fun serial m => serial = agent.serial →
      m.Conserved ∧ m.ticks = base ++ point.ticksFrom ms first := by
    constructor
    · intro serial fresh same
      exact absurd known (Nat.not_lt.mpr (same ▸ fresh))
    · intro serial m later event plain holds moved same
      obtain ⟨conserved, ticks⟩ := holds same
      exact ⟨conserved.step moved, (Mailbox.plain_ticks conserved plain moved).trans ticks⟩
    · intro serial m holds same
      obtain ⟨conserved, ticks⟩ := holds same
      exact ⟨Mailbox.spawnProcess_conserved conserved,
        (Mailbox.spawnProcess_ticks m).trans ticks⟩
  refine ((kept stable).mailed (le_refl _) ?_ agent.serial context held rfl).2
  rintro serial before present rfl
  exact ⟨(served.onTime.mailed _ before present).conserved, served.got before present⟩

theorem Served.advance {s t : UServiceModule} {calls : Multiset Activity} {now : Int}
    {point later : TickPoint} (served : Served ms sid agent base first ⟨⟨s, calls⟩, now, point⟩)
    (beat : Beat ms s t point later) : first ≤ later.passes ∧
      ∀ context, t.contexts.lookup agent.serial = some context →
        context.mailbox.ticks = base ++ later.ticksFrom ms first := by
  have reached : first ≤ point.passes := served.reached
  cases beat with
  | pass passing passed same counted =>
    subst same counted
    refine ⟨reached.trans (Nat.le_succ _), fun context held => ?_⟩
    rw [served.pass passing passed held, List.append_assoc, ticksFrom_succ reached]
    rfl
  | quiet kept passes start =>
    refine ⟨passes ▸ reached, fun context held => ?_⟩
    rw [served.quiet kept held, ticksFrom_same passes start]

theorem Served.step (served : Served ms sid agent base first w) (moved : Step ms w move w')
    (asks : Subscribed sid agent w') : Served ms sid agent base first w' := by
  have onTime := served.onTime.step moved
  cases moved with
  | elapse time => exact ⟨onTime, asks, served.reached, served.got⟩
  | @move move life timely moved =>
    obtain ⟨⟨s, calls⟩, now, point⟩ := w
    cases moved with
    | invoke starts =>
      have still := TickPoint.follow_same ms now s.updateLoop point
      refine ⟨onTime, asks, ?_, ?_⟩
      · rw [still]
        exact served.reached
      · rw [still]
        exact served.got
    | @advance _ t _ activity rest pending reaches =>
      have beat := beat served.onTime.paced timely reaches
      exact ⟨onTime, asks, (served.advance beat).1, (served.advance beat).2⟩

end

open Transition in
/-- As long as a service stands under its id, asks for ticks and takes them, it gets
the tick of every pass. -/
theorem ticks_never_missed (factory : IServiceFactory) (now : Int) {sid : Int}
    {agent : UServiceAgent} {before after : List (TimedMove × TimedLife)}
    (run : Path (Step ms) (new factory now) (before ++ after))
    (subscribed : Always (Subscribed sid agent) (last (new factory now) before) after) :
    (last (new factory now) (before ++ after)).agentTicks agent.serial =
      ((last (new factory now) before).agentTicks agent.serial).map fun ticks =>
        ticks ++ (last (new factory now) (before ++ after)).point.ticksFrom ms
          (last (new factory now) before).point.passes := by
  obtain ⟨first, second⟩ := path_append.mp run
  have onTime : Always (OnTime ms) (new factory now) before :=
    first.invariant (fun onTime moved => onTime.step moved) (.new factory now)
  obtain ⟨context, held, -⟩ := subscribed.first.context
  obtain ⟨later, held', -⟩ := subscribed.last.context
  have served : Always (Served ms sid agent context.mailbox.ticks
      (last (new factory now) before).point.passes) (last (new factory now) before) after := by
    refine second.always_through (fun served moved asks => served.step moved asks) ?_ subscribed
    refine ⟨onTime.last, subscribed.first, le_refl _, fun other present => ?_⟩
    cases held.symm.trans present
    rw [TickPoint.ticksFrom, Nat.sub_self]
    exact (List.append_nil _).symm
  rw [last_append, agentTicks, agentTicks, held, held', Option.map_some, Option.map_some,
    Option.map_some, served.last.got later held']

/-- A call of which nothing is left after its first section. -/
def whole (activity : Activity) : List TimedMove :=
  [.move (.invoke activity), .move (.advance activity)]

/-- The module starts, and its loop waits for the first time. -/
def toWaiting : List TimedMove :=
  whole (.initial []) ++ whole .main ++ whole .main ++ whole .main ++ whole .start ++ whole .main ++
    whole (.loop 0 0) ++ whole (.loop 0 0)

def ofService : Move ServiceCall → TimedMove
  | .invoke call => .move (.invoke (.service call))
  | .advance call => .move (.advance (.service call))

/-- A mail service is booted. -/
def mailBooted : List TimedMove :=
  (mailBoot 0 1 0 ++ [Move.advance (ServiceCall.bootRegister 1 (mailAgent 0))]).map ofService

/-- The timer expires late, and the coroutine makes its pass and waits again. -/
def latePass (pass : Int) : List TimedMove :=
  .elapse 13000000 :: whole .expire ++ whole (.loop 0 0) ++
    whole (.loop (500 + pass * 10000000) 10000000) ++ whole (.loop 0 0)

def mailModule : TimedLife := new (.only mailService) 500

def twoPasses : List TimedMove := latePass 1 ++ latePass 2

/-- The second pass is no later for the delay of the first. -/
theorem ticks_always_scheduled_twoPasses :
    Transition.Always (Scheduled 5) mailModule
        (mailModule.runs 5 (toWaiting ++ mailBooted ++ twoPasses)) ∧
      (Transition.last mailModule
        (mailModule.runs 5 (toWaiting ++ mailBooted ++ twoPasses))).agentTicks 0 =
          some [(10000500, 10000000), (20000500, 10000000)] :=
  ⟨ticks_always_scheduled _ _ (runs_path 5 mailModule _), by decide +kernel⟩

/-- The module with its mail service. -/
def mailRunning : TimedLife :=
  Transition.last mailModule (mailModule.runs 5 (toWaiting ++ mailBooted))

theorem ticks_never_missed_twoPasses :
    (Transition.last mailModule (mailModule.runs 5 (toWaiting ++ mailBooted) ++
        mailRunning.runs 5 twoPasses)).agentTicks 0 =
      (mailRunning.agentTicks 0).map (fun ticks => ticks ++ (Transition.last mailModule
        (mailModule.runs 5 (toWaiting ++ mailBooted) ++
          mailRunning.runs 5 twoPasses)).point.ticksFrom 5 mailRunning.point.passes) ∧
    (Transition.last mailRunning (mailRunning.runs 5 twoPasses)).point.ticksFrom 5
      mailRunning.point.passes = [(10000500, 10000000), (20000500, 10000000)] := by
  have subscribed : Transition.Always (Subscribed 1 (mailAgent 0)) mailRunning
      (mailRunning.runs 5 twoPasses) := by decide +kernel
  exact ⟨ticks_never_missed _ _ (Transition.path_append.mpr
    ⟨runs_path 5 mailModule _, runs_path 5 mailRunning twoPasses⟩) subscribed, by decide +kernel⟩

end TimedLife
end Uranus
