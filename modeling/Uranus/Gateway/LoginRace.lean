import Uranus.Foundation.Interleaving
import Uranus.Gateway.Ownership

/-! Logins that interleave with the recycling of players. `RecyclePlayer` takes a
player id off the map of players in one section and puts it into the cache in
another, and a login clears the cache after it has put the id onto the map. The
id is on both sides when the cache is cleared in between. -/
namespace Uranus
open Foundation Program Interleaving
variable {factory : IPlayerFactory} {s t : UGateway} {id : AgentId} {key : String} {pid : Int64}

/-- How far a call of `OnPlayerLogin` or of `RecyclePlayer` has come. -/
inductive Call where
  | login (key : String) (pid : Int64)
  | loginCache (call : LoginCall)
  | loginFinish (call : LoginCall)
  | recycle (id : AgentId) (now : Int)
  | recycleRemove (id : AgentId) (now : Int) (pid : Int64)
  | recycleCache (id : AgentId) (now : Int) (pid : Int64)
deriving DecidableEq

namespace Call

/-- Calls begin with the head of their function. -/
def Starts : Call → Prop
  | .login .. | .recycle .. => True
  | _ => False

instance : DecidablePred Starts := fun call =>
  match call with
  | .login .. | .recycle .. => .isTrue trivial
  | .loginCache _ | .loginFinish _ | .recycleRemove .. | .recycleCache .. => .isFalse fun no => no

/-- The next section of a call. -/
def part (factory : IPlayerFactory) : Call → GatewayM (Option Call)
  | .login key pid => do
    let call ← loginHead key pid
    pure (call.map .loginCache)
  | .loginCache call => do
    let call ← Uranus.loginCache call
    pure (some (.loginFinish call))
  | .loginFinish call => do
    Uranus.loginFinish factory call
    pure none
  | .recycle id now => do
    let pid ← recycleEntry id
    pure (pid.map (.recycleRemove id now))
  | .recycleRemove id now pid => do
    removePlayer pid
    pure (some (.recycleCache id now pid))
  | .recycleCache id now pid => do
    Uranus.recycleCache id pid now
    pure none

end Call

abbrev Sessions := Config UGateway Call

def Sessions.step (factory : IPlayerFactory) : Sessions → Move Call → Sessions → Prop :=
  Interleaving.Step (Call.part factory) Call.Starts

/-- No player id is both on the map of players and in the cache. -/
def Disjoint (s : UGateway) : Prop :=
  ∀ pid, s.playerMap.lookup pid = none ∨ s.cachedMap.lookup pid = none

/-- A login of the player has yet to clear the cache. -/
def Claimed (pid : Int64) (calls : Multiset Call) : Prop :=
  ∃ call, Call.loginCache call ∈ calls ∧ call.pid = pid

/-- The player is off the map and not in the cache yet. -/
def Recycled (pid : Int64) (calls : Multiset Call) : Prop :=
  ∃ id now, Call.recycleCache id now pid ∈ calls

/-- A login does not clear the cache of an online player that is on its way into
it, unless another login of the player will. -/
def Clears (config : Sessions) : Move Call → Prop
  | .advance (.loginCache call) =>
    config.shared.playerMap.lookup call.pid = none ∨ ¬ Recycled call.pid config.calls ∨
      Claimed call.pid (config.calls.erase (.loginCache call))
  | _ => True

/-- Whatever may be on both sides is still to be cleared by a login. -/
structure Guarded (config : Sessions) : Prop where
  claimed : ∀ pid, config.shared.playerMap.lookup pid ≠ none →
    config.shared.cachedMap.lookup pid ≠ none ∨ Recycled pid config.calls →
      Claimed pid config.calls
  running : ∀ id now pid, Call.recycleRemove id now pid ∈ config.calls →
    config.shared.state = .running

/-- What the first section of a login leaves to the maps. -/
structure Registers (s : UGateway) (pid : Int64) (call : Option LoginCall) (t : UGateway) :
    Prop where
  state : t.state = s.state
  cached : t.cachedMap = s.cachedMap
  online : ∀ other, t.playerMap.lookup other ≠ none → s.playerMap.lookup other ≠ none ∨
    ∃ login, call = some login ∧ login.pid = other

theorem enlist_registers (key : String) (pid : Int64) (existed : Option AgentId)
    (player : FPlayerHandle) (s : UGateway) :
    ∃ call t, enlist key pid existed player s = .ok call t ∧ Registers s pid call t := by
  simp only [enlist, get_bind]
  cases waits : s.agentMap.lookup key with
  | none => exact ⟨none, s, rfl, rfl, rfl, fun other online => .inl online⟩
  | some id =>
    refine ⟨_, _, rfl, rfl, rfl, fun other online => ?_⟩
    rw [Table.lookup_insert_ite] at online
    split at online
    next same => exact .inr ⟨_, rfl, same.symm⟩
    next => exact .inl online

theorem loginRegister_registers (key : String) (pid : Int64) (s : UGateway) :
    (∃ call t, loginRegister key pid s = .ok call t ∧ Registers s pid call t) ∨
      ∃ t, loginRegister key pid s = .error .undefined t := by
  simp only [loginRegister, get_bind]
  cases online : s.playerMap.lookup pid with
  | none => exact .inl (enlist_registers key pid none none s)
  | some id =>
    dsimp only
    cases alive : s.agents.lookup id with
    | none => exact .inr ⟨s, bind_error (theAgent_undefined alive) _⟩
    | some agent =>
      rw [bind_ok (theAgent_ok alive)]
      by_cases same : agent.key = key
      · rw [if_pos same]
        exact .inl ⟨none, s, rfl, rfl, rfl, fun other online => .inl online⟩
      · rw [if_neg same]
        cases set : agent.player with
        | none => exact .inr ⟨s, bind_error (extractPlayer_undefined alive set) _⟩
        | some player =>
          rw [bind_ok (extractPlayer_ok alive set), modify_bind]
          obtain ⟨call, t, ran, registers⟩ :=
            enlist_registers key pid (some id) (some { player with agent := none }) _
          refine .inl ⟨call, t, ran, ?_⟩
          constructor
          · rw [registers.state, UGateway.edit_frame]
          · rw [registers.cached, UGateway.edit_frame]
          · intro other online
            rcases registers.online other online with online | claimed
            · rw [UGateway.edit_frame, Table.lookup_erase_ite] at online
              split at online
              · exact absurd rfl online
              · exact .inl online
            · exact .inr claimed

theorem recycleEntry_cases (id : AgentId) (s : UGateway) :
    (∃ entry, recycleEntry id s = .ok entry s ∧ (entry.isSome → s.state = .running)) ∨
      recycleEntry id s = .error .undefined s := by
  simp only [recycleEntry, get_bind]
  by_cases running : s.state = .running
  · rw [if_neg (not_not.mpr running)]
    cases alive : s.agents.lookup id with
    | none => exact .inr (bind_error (theAgent_undefined alive) _)
    | some agent =>
      rw [bind_ok (theAgent_ok alive)]
      cases set : agent.player with
      | none => exact .inl ⟨none, rfl, fun _ => running⟩
      | some player =>
        by_cases unset : player.playerID ≤ 0
        · exact .inl ⟨none, by simp only [unset, if_true, pure_apply], fun _ => running⟩
        · exact .inl ⟨some player.playerID, by simp only [unset, if_false, pure_apply],
            fun _ => running⟩
  · rw [if_pos running]
    exact .inl ⟨none, rfl, fun some => by cases some⟩

theorem recycleCache_cases (id : AgentId) (pid : Int64) (now : Int) (s : UGateway) :
    (∃ node, recycleCache id pid now s =
        .ok () { s.edit id (fun agent => { agent with player := none }) with
          cachedMap := s.cachedMap.insert pid node }) ∨
      recycleCache id pid now s = .error .undefined s := by
  simp only [recycleCache]
  cases alive : s.agents.lookup id with
  | none => exact .inr (bind_error (theAgent_undefined alive) _)
  | some agent =>
    left
    rw [bind_ok (theAgent_ok alive), bind_ok (editAgent_apply _), modify_apply, UGateway.edit_frame]
    exact ⟨⟨agent.player, now⟩, rfl⟩

/-- What a section leaves to the maps: whom it puts online or into the cache. -/
structure Moved (s t : UGateway) (call : Call) (rest : Option Call) : Prop where
  state : t.state = s.state
  online : ∀ pid, t.playerMap.lookup pid ≠ none → s.playerMap.lookup pid ≠ none ∨
    ∃ login, rest = some (.loginCache login) ∧ login.pid = pid
  cached : ∀ pid, t.cachedMap.lookup pid ≠ none → s.cachedMap.lookup pid ≠ none ∨
    ∃ id now, call = .recycleCache id now pid
  cleared : ∀ login, call = .loginCache login → t.cachedMap.lookup login.pid = none
  removed : ∀ id now pid, rest = some (.recycleCache id now pid) → t.playerMap.lookup pid = none
  entered : ∀ id now pid, rest = some (.recycleRemove id now pid) → s.state = .running

/-- A section that puts nobody anywhere and ends its call. -/
theorem Quiet.moved (quiet : Quiet s t) {call : Call}
    (uncleared : ∀ login, call ≠ .loginCache login) : Moved s t call none := by
  have same : t.playerMap = s.playerMap := congrArg Registry.online quiet.registry
  constructor
  · exact quiet.state
  · intro pid online
    exact .inl (same ▸ online)
  · intro pid cached
    exact .inl fun absent => cached (quiet.uncached absent)
  · intro login is
    exact absurd is (uncleared login)
  · simp
  · simp

theorem login_moved {rest : Option Call}
    (reaches : Reaches (Call.part factory (.login key pid)) s rest t) :
    Moved s t (.login key pid) rest := by
  by_cases running : s.state = .running
  · have head := loginHead_running running key pid
    rcases loginRegister_registers key pid s with ⟨call, u, ran, registers⟩ | ⟨u, ran⟩
    · obtain ⟨next, same⟩ := reaches.of_ok (bind_ok (head.trans ran) _)
      subst next same
      constructor
      · exact registers.state
      · intro other online
        exact (registers.online other online).imp_right fun ⟨login, is, own⟩ =>
          ⟨login, congrArg (Option.map Call.loginCache) is, own⟩
      · intro other cached
        exact .inl (registers.cached ▸ cached)
      · simp
      · intro id now pid next
        obtain ⟨login, -, wrong⟩ := Option.map_eq_some_iff.mp next
        cases wrong
      · intro id now pid next
        obtain ⟨login, -, wrong⟩ := Option.map_eq_some_iff.mp next
        cases wrong
    · obtain ⟨what, wrong⟩ := reaches.ends.of_fault (bind_error (head.trans ran) _)
      cases wrong
  · obtain ⟨next, same⟩ := reaches.of_ok (bind_ok (loginHead_stopped running key pid) _)
    subst next same
    exact Quiet.moved (Quiet.refl _) (by simp)

theorem loginCache_moved {login : LoginCall} {rest : Option Call}
    (reaches : Reaches (Call.part factory (.loginCache login)) s rest t) :
    Moved s t (.loginCache login) rest := by
  obtain ⟨next, same⟩ := reaches.of_ok (bind_ok (loginCache_ok login s) _)
  subst next same
  constructor
  · rfl
  · exact fun other online => .inl online
  · intro other cached
    left
    intro absent
    rw [Table.lookup_erase_ite, absent] at cached
    exact cached (ite_self none)
  · rintro _ ⟨⟩
    exact AList.lookup_erase _ _
  · simp
  · simp

theorem recycle_moved {now : Int} {rest : Option Call}
    (reaches : Reaches (Call.part factory (.recycle id now)) s rest t) :
    Moved s t (.recycle id now) rest := by
  rcases recycleEntry_cases id s with ⟨entry, ran, running⟩ | ran
  · obtain ⟨next, same⟩ := reaches.of_ok (bind_ok ran _)
    subst next same
    constructor
    · rfl
    · exact fun other online => .inl online
    · exact fun other cached => .inl cached
    · simp
    · intro id now pid next
      obtain ⟨entered, -, wrong⟩ := Option.map_eq_some_iff.mp next
      cases wrong
    · intro id now pid next
      obtain ⟨entered, some, -⟩ := Option.map_eq_some_iff.mp next
      exact running (some ▸ rfl)
  · obtain ⟨what, wrong⟩ := reaches.ends.of_fault (bind_error ran _)
    cases wrong

theorem recycleRemove_moved {now : Int} {rest : Option Call} (running : s.state = .running)
    (reaches : Reaches (Call.part factory (.recycleRemove id now pid)) s rest t) :
    Moved s t (.recycleRemove id now pid) rest := by
  obtain ⟨next, same⟩ := reaches.of_ok (bind_ok (removePlayer_running running pid) _)
  subst next same
  constructor
  · rfl
  · intro other online
    left
    intro absent
    rw [Table.lookup_erase_ite, absent] at online
    exact online (ite_self none)
  · exact fun other cached => .inl cached
  · simp
  · rintro _ _ _ ⟨⟩
    exact AList.lookup_erase _ _
  · simp

theorem recycleCache_moved {now : Int} {rest : Option Call}
    (reaches : Reaches (Call.part factory (.recycleCache id now pid)) s rest t) :
    Moved s t (.recycleCache id now pid) rest := by
  obtain ⟨none, ends⟩ := reaches.last
  subst none
  rcases recycleCache_cases id pid now s with ⟨node, ran⟩ | ran
  · cases ends.of_ok ran
    constructor
    · rw [UGateway.edit_frame]
    · intro other online
      rw [UGateway.edit_frame] at online
      exact .inl online
    · intro other cached
      rw [Table.lookup_insert_ite] at cached
      split at cached
      next same => exact .inr ⟨id, now, same ▸ rfl⟩
      next => exact .inl cached
    · simp
    · simp
    · simp
  · obtain ⟨what, wrong⟩ := ends.of_fault ran
    cases wrong

theorem part_moved {call : Call} {rest : Option Call}
    (reaches : Reaches (call.part factory) s rest t)
    (running : ∀ id now pid, call = .recycleRemove id now pid → s.state = .running) :
    Moved s t call rest := by
  cases call with
  | login key pid => exact login_moved reaches
  | loginCache login => exact loginCache_moved reaches
  | loginFinish login =>
    obtain ⟨none, ends⟩ := reaches.last
    subst none
    exact (loginFinish_quiet _ _ _ ends).moved (by simp)
  | recycle id now => exact recycle_moved reaches
  | recycleRemove id now pid => exact recycleRemove_moved (running id now pid rfl) reaches
  | recycleCache id now pid => exact recycleCache_moved reaches

section
variable {config later : Sessions} {calls : Multiset Call} {call : Call} {rest : Option Call}

theorem Claimed.resume (claimed : Claimed pid calls)
    (other : ∀ login, call = .loginCache login → login.pid ≠ pid) :
    Claimed pid (resume rest (calls.erase call)) := by
  obtain ⟨login, pending, own⟩ := claimed
  have different : Call.loginCache login ≠ call := fun same => other login same.symm own
  exact ⟨login, mem_resume.mpr (.inr ((Multiset.mem_erase_of_ne different).mpr pending)), own⟩

theorem Recycled.of_resume (recycled : Recycled pid (resume rest (calls.erase call))) :
    (∃ id now, rest = some (.recycleCache id now pid)) ∨ Recycled pid calls := by
  obtain ⟨id, now, pending⟩ := recycled
  rcases mem_resume.mp pending with next | pending
  · exact .inl ⟨id, now, next⟩
  · exact .inr ⟨id, now, Multiset.mem_of_mem_erase pending⟩

/-- One section of one call. -/
theorem Guarded.advance {s t : UGateway} (guarded : Guarded ⟨s, calls⟩) (pending : call ∈ calls)
    (clears : Clears ⟨s, calls⟩ (.advance call)) (moved : Moved s t call rest) :
    Guarded ⟨t, resume rest (calls.erase call)⟩ := by
  constructor
  · intro pid online gone
    rcases moved.online pid online with before | ⟨login, next, own⟩
    · have recycled (recycled : Recycled pid (resume rest (calls.erase call))) :
          Recycled pid calls := by
        rcases recycled.of_resume with ⟨id, now, next⟩ | recycled
        · exact absurd (moved.removed id now pid next) online
        · exact recycled
      by_cases own : ∃ login, call = .loginCache login ∧ login.pid = pid
      · obtain ⟨login, is, own⟩ := own
        subst is own
        have recycled := recycled (gone.resolve_left fun cached => cached (moved.cleared login rfl))
        rcases clears with offline | idle | ⟨other, pending, same⟩
        · exact absurd offline before
        · exact absurd recycled idle
        · exact ⟨other, mem_resume.mpr (.inr pending), same⟩
      · have claimed : Claimed pid calls := by
          apply guarded.claimed pid before
          rcases gone with cached | again
          · rcases moved.cached pid cached with cached | ⟨id, now, is⟩
            · exact .inl cached
            · exact .inr ⟨id, now, is ▸ pending⟩
          · exact .inr (recycled again)
        exact claimed.resume fun login is same => own ⟨login, is, same⟩
    · exact ⟨login, mem_resume.mpr (.inl next), own⟩
  · intro id now pid removing
    apply moved.state.trans
    rcases mem_resume.mp removing with next | before
    · exact moved.entered id now pid next
    · exact guarded.running id now pid (Multiset.mem_of_mem_erase before)

theorem Guarded.step {label : Move Call} (guarded : Guarded config) (clears : Clears config label)
    (stepped : Sessions.step factory config label later) : Guarded later := by
  cases stepped with
  | @invoke s calls call fresh =>
    constructor
    · intro pid online gone
      have gone : s.cachedMap.lookup pid ≠ none ∨ Recycled pid calls := by
        apply gone.imp_right
        rintro ⟨id, now, pending⟩
        rcases Multiset.mem_cons.mp pending with is | pending
        · subst is
          cases fresh
        · exact ⟨id, now, pending⟩
      obtain ⟨login, pending, own⟩ := guarded.claimed pid online gone
      exact ⟨login, Multiset.mem_cons_of_mem pending, own⟩
    · intro id now pid removing
      rcases Multiset.mem_cons.mp removing with is | removing
      · subst is
        cases fresh
      · exact guarded.running id now pid removing
  | @advance s t calls call rest pending reaches =>
    apply guarded.advance pending clears
    apply part_moved reaches
    intro id now pid is
    exact guarded.running id now pid (is ▸ pending)

end

/-- Over every interleaving that starts from a gateway with disjoint sides and no
call in progress: if every section that clears the cache finds nobody on the way
into it, the sides are disjoint in every state without calls in progress. -/
theorem disjoint_of_clears (factory : IPlayerFactory) {s : UGateway} (disjoint : Disjoint s)
    {path : List (Move Call × Sessions)}
    (run : Transition.Path (Sessions.step factory) ⟨s, 0⟩ path)
    (clears : Transition.Every Clears ⟨s, 0⟩ path) :
    Transition.Always (fun config => config.calls = 0 → Disjoint config.shared) ⟨s, 0⟩ path := by
  have start : Guarded ⟨s, 0⟩ := by
    constructor
    · intro pid online gone
      rcases gone with cached | ⟨id, now, pending⟩
      · exact ((disjoint pid).elim online cached).elim
      · cases Multiset.notMem_zero _ pending
    · intro id now pid pending
      cases Multiset.notMem_zero _ pending
  have guarded : Transition.Always Guarded ⟨s, 0⟩ path := by
    apply run.always _ start clears
    intro config label later guarded clears stepped
    exact guarded.step clears stepped
  apply guarded.imp
  intro config guarded quiet pid
  by_contra both
  obtain ⟨online, cached⟩ := not_or.mp both
  obtain ⟨login, pending, -⟩ := guarded.claimed pid online (.inl cached)
  rw [quiet] at pending
  cases Multiset.notMem_zero _ pending

/-- The connection of agent 0 is closed, which plays player 7; agent 1 waits. -/
def oneOnline : UGateway where
  state := .running
  agentMap := (∅ : Table String AgentId).insert "10.0.0.2-1001" 1
  playerMap := (∅ : Table Int64 AgentId).insert 7 0
  cachedMap := ∅
  agents := ((∅ : Table AgentId UPlayerAgent).insert 0
    { UPlayerAgent.new "10.0.0.1" 1000 with
      socketOpen := false, channelOpen := false, outputOpen := false, hasModule := true
      player := some ⟨0, 7, some 0⟩ }).insert 1
    { UPlayerAgent.new "10.0.0.2" 1001 with hasModule := true, connection := .looping }
  nextAgent := 2
  nextPlayer := 1
  login := some ⟨.running, ∅⟩

theorem oneOnline_disjoint : Disjoint oneOnline := fun _ => .inr rfl

def raceRun (labels : List (Move Call)) : List (Move Call × Sessions) :=
  Transition.trace (following (Call.part plainFactory) Call.Starts) ⟨oneOnline, 0⟩ labels

theorem raceRun_path (labels : List (Move Call)) :
    Transition.Path (Sessions.step plainFactory) ⟨oneOnline, 0⟩ (raceRun labels) :=
  Transition.trace_path following_step labels

/-- The player of agent 0 is recycled while agent 1 logs in with it. -/
def loginAmidRecycle : List (Move Call × Sessions) := raceRun
  [.invoke (.recycle 0 5), .advance (.recycle 0 5), .advance (.recycleRemove 0 5 7),
    .invoke (.login "10.0.0.2-1001" 7), .advance (.login "10.0.0.2-1001" 7),
    .advance (.loginCache ⟨7, 1, none, none⟩), .advance (.loginFinish ⟨7, 1, none, none⟩),
    .advance (.recycleCache 0 5 7)]

/-- All calls have ended, and player 7 is online and cached. -/
theorem loginAmidRecycle_both :
    Disjoint oneOnline ∧
    Transition.Path (Sessions.step plainFactory) ⟨oneOnline, 0⟩ loginAmidRecycle ∧
    (Transition.last ⟨oneOnline, 0⟩ loginAmidRecycle).calls = 0 ∧
    (Transition.last ⟨oneOnline, 0⟩ loginAmidRecycle).shared.playerMap.lookup 7 = some 1 ∧
    (Transition.last ⟨oneOnline, 0⟩ loginAmidRecycle).shared.cachedMap.lookup 7 =
      some ⟨some ⟨0, 7, some 0⟩, 5⟩ ∧
    ¬ Transition.Always (fun config => config.calls = 0 → Disjoint config.shared)
      ⟨oneOnline, 0⟩ loginAmidRecycle := by
  have ended : (Transition.last ⟨oneOnline, 0⟩ loginAmidRecycle).calls = 0 := by decide +kernel
  have online : (Transition.last ⟨oneOnline, 0⟩ loginAmidRecycle).shared.playerMap.lookup 7 =
      some 1 := by decide +kernel
  have cached : (Transition.last ⟨oneOnline, 0⟩ loginAmidRecycle).shared.cachedMap.lookup 7 =
      some ⟨some ⟨0, 7, some 0⟩, 5⟩ := by decide +kernel
  refine ⟨oneOnline_disjoint, raceRun_path _, ended, online, cached, fun always => ?_⟩
  rcases always.last ended 7 with offline | uncached
  · cases offline.symm.trans online
  · cases uncached.symm.trans cached

/-- Agent 1 logs in with the player while agent 0 recycles it, and clears the cache
once the player is in there. -/
def loginAfterRecycle : List (Move Call × Sessions) := raceRun
  [.invoke (.recycle 0 5), .advance (.recycle 0 5), .invoke (.login "10.0.0.2-1001" 7),
    .advance (.recycleRemove 0 5 7), .advance (.login "10.0.0.2-1001" 7),
    .advance (.recycleCache 0 5 7), .advance (.loginCache ⟨7, 1, none, none⟩),
    .advance (.loginFinish ⟨7, 1, none, some ⟨0, 7, some 0⟩⟩)]

/-- Both calls have ended, and player 7 is online and no longer in the cache. -/
theorem disjoint_of_clears_loginAfterRecycle :
    (Transition.last ⟨oneOnline, 0⟩ loginAfterRecycle).calls = 0 ∧
    (Transition.last ⟨oneOnline, 0⟩ loginAfterRecycle).shared.playerMap.lookup 7 = some 1 ∧
    (Transition.last ⟨oneOnline, 0⟩ loginAfterRecycle).shared.cachedMap.lookup 7 = none ∧
    Transition.Always (fun config => config.calls = 0 → Disjoint config.shared)
      ⟨oneOnline, 0⟩ loginAfterRecycle := by
  refine ⟨by decide +kernel, by decide +kernel, by decide +kernel, ?_⟩
  apply disjoint_of_clears plainFactory oneOnline_disjoint (raceRun_path _)
  -- The login's cache section finds the recycling ended.
  have recycled : ¬ Recycled 7 {Call.loginCache ⟨7, 1, none, none⟩} := by
    rintro ⟨id, now, pending⟩
    cases Multiset.mem_singleton.mp pending
  exact ⟨trivial, trivial, trivial, trivial, trivial, trivial, .inr (.inl recycled), trivial,
    trivial⟩

end Uranus
