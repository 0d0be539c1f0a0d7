import Uranus.Foundation.History
import Uranus.Gateway.LoginAuth
import Uranus.Gateway.LoginRace

/-! Login requests that interleave with each other and with what the gateway does
for them, cut at the mutex of the login module. Its map of recent logins holds,
for every key, the time of the last request that was handed on and has not
succeeded since. -/
namespace Uranus
open Foundation Program Interleaving
variable {factory : IPlayerFactory} {parser : ILoginHandler} {s t : UGateway} {key : String}

/-- The section of `OnLoginRequest` under its mutex, with the readings of the clock
that it compares and that it records. -/
def throttle (check record : Int) (key : String) : GatewayM Bool := do
  match (← get).login with
  | none => pure false
  | some login =>
    if login.state ≠ .running then pure false
    else if (login.recentLoginMap.lookup key).any fun last => check - last < 1000000000 then
      pure false
    else do
      recordLogin fun recent => recent.insert key record
      pure true

/-- What `OnLoginRequest` makes of a request that it hands on. -/
def parseRequest (parser : ILoginHandler) (key : String) (pkg : FPacket) :
    GatewayM (Option Int64) := do
  match parser.parseLoginRequest pkg with
  | .error what => throw (.exception what)
  | .ok (token, pid) =>
    if token = "" ∨ pid = 0 then do
      let agent ← findAgent key
      match agent with
      | none => pure none
      | some id => do
        onLoginFailed id 0 "Fail To Parse Token"
        pure none
    else pure (some pid)

/-- With one reading of the clock the two sections are the request up to its success. -/
theorem checkRequest_sections (parser : ILoginHandler) (now : Int) (key : String) (pkg : FPacket) :
    checkRequest parser now key pkg = (do
      let handed ← throttle now now key
      if handed then parseRequest parser key pkg else pure none) := by
  funext s
  simp only [checkRequest, throttle, get_bind, bind_assoc]
  cases s.login with
  | none => rfl
  | some login =>
    dsimp only
    split
    · rfl
    split
    · rfl
    simp only [bind_assoc, pure_bind, if_true]
    rfl

inductive LoginEvent where
  | dropped (key : String) (check : Int)
  | handed (key : String) (check record : Int)
  | succeeded (key : String)
deriving DecidableEq

abbrev LoginHistory := List LoginEvent

/-- How far a request has come; `enter` is what the gateway does for it. -/
inductive LoginTask where
  | request (check record : Int) (key : String) (pkg : FPacket)
  | parse (key : String) (pkg : FPacket)
  | success (key : String) (pid : Int64)
  | enter (call : Call)
deriving DecidableEq

abbrev Logins := Config (Observed UGateway LoginEvent) LoginTask

namespace LoginTask

/-- Players are recycled meanwhile. -/
def Starts : LoginTask → Prop
  | .request .. => True
  | .enter call => call.Starts
  | .parse .. | .success .. => False

instance : DecidablePred Starts := fun task =>
  match task with
  | .request .. => .isTrue trivial
  | .enter call => inferInstanceAs (Decidable call.Starts)
  | .parse .. | .success .. => .isFalse fun no => no

/-- The next section of a task, which records what it decides. -/
def part (factory : IPlayerFactory) (parser : ILoginHandler) :
    LoginTask → Program (Observed UGateway LoginEvent) (Option LoginTask)
  | .request check record key pkg => do
    let handed ← observe (throttle check record key)
    if handed then do
      note (.handed key check record)
      pure (some (.parse key pkg))
    else do
      note (.dropped key check)
      pure none
  | .parse key pkg => do
    let pid ← observe (parseRequest parser key pkg)
    pure (pid.map (.success key))
  | .success key pid => do
    observe (recordLogin fun recent => recent.erase key)
    note (.succeeded key)
    pure (some (.enter (.login key pid)))
  | .enter call => do
    let rest ← observe (Call.part factory call)
    pure (rest.map .enter)

end LoginTask

def Logins.step (factory : IPlayerFactory) (parser : ILoginHandler) :
    Logins → Move LoginTask → Logins → Prop :=
  Interleaving.Step (LoginTask.part factory parser) LoginTask.Starts

theorem login_alone (factory : IPlayerFactory) (key : String) (pid : Int64) :
    alone (Call.part factory) 3 (some (.login key pid)) = onPlayerLogin factory key pid := by
  simp only [alone, Call.part, onPlayerLogin, bind_assoc, pure_bind]
  congr 1
  funext call
  cases call with
  | none => rfl
  | some call => simp [alone, Call.part, loginRest]

/-- The gateway records nothing, by induction on the sections left. -/
theorem enter_alone (factory : IPlayerFactory) (parser : ILoginHandler) (fuel : Nat)
    (call : Option Call) :
    Erases (alone (LoginTask.part factory parser) fuel (call.map .enter))
      (alone (Call.part factory) fuel call) := by
  induction fuel generalizing call with
  | zero =>
    cases call with
    | none | some call => exact Erases.pure ()
  | succ fuel ih =>
    cases call with
    | none => exact Erases.pure ()
    | some call =>
      rw [Option.map_some, alone, alone, LoginTask.part, bind_assoc]
      apply Erases.bind (Erases.observe _)
      intro rest
      exact ih rest

/-- A request that runs alone is the request of the model with one reading. -/
theorem request_alone (factory : IPlayerFactory) (parser : ILoginHandler) (now : Int)
    (key : String) (pkg : FPacket) :
    Erases (alone (LoginTask.part factory parser) 6 (some (.request now now key pkg)))
      (onLoginRequest factory parser now key pkg) := by
  have succeeded (pid : Int64) :
      Erases (alone (LoginTask.part factory parser) 4 (some (.success key pid)))
        (onLoginSuccess factory key pid) := by
    rw [alone, LoginTask.part, onLoginSuccess, bind_assoc, ← login_alone]
    apply Erases.bind (Erases.observe _)
    intro _
    rw [bind_assoc]
    exact Erases.note (enter_alone factory parser 3 (some (.login key pid)))
  rw [alone, LoginTask.part, onLoginRequest, checkRequest_sections, bind_assoc, bind_assoc]
  apply Erases.bind (Erases.observe _)
  intro handed
  cases handed with
  | false =>
    simp only [Bool.false_eq_true, if_false, bind_assoc]
    exact Erases.note (Erases.pure ())
  | true =>
    simp only [if_true, bind_assoc]
    apply Erases.note
    rw [pure_bind, alone, LoginTask.part, bind_assoc]
    apply Erases.bind (Erases.observe _)
    intro pid
    cases pid with
    | none => exact Erases.pure ()
    | some pid => exact succeeded pid

/-! ## The history -/

/-- An earlier request for the key was handed on less than a second before `now`,
and no login for the key has succeeded since. -/
def Pending (key : String) (now : Int) (history : LoginHistory) : Prop :=
  ∃ before check record after, history = before ++ .handed key check record :: after ∧
    now - record < 1000000000 ∧ .succeeded key ∉ after

/-- What is right after a history. -/
def Rightly (history : LoginHistory) : LoginEvent → Prop
  | .dropped key check => Pending key check history
  | .handed key check _ => ¬ Pending key check history
  | .succeeded _ => True

/-- Every request was handed on exactly when nothing was pending for its key. -/
def Exact (history : LoginHistory) : Prop :=
  ∀ before event, before ++ [event] <+: history → Rightly before event

/-- The readings of the clock, in the order in which they were made. -/
def readings : LoginEvent → List Int
  | .dropped _ check => [check]
  | .handed _ check record => [check, record]
  | .succeeded _ => []

def Clocked (history : LoginHistory) : Prop := (history.flatMap readings).Pairwise (· ≤ ·)

/-- The time of the last request for a key that is recorded. -/
def lastLogin (key : String) (history : LoginHistory) : Option Int :=
  history.foldl (fun last event =>
    match event with
    | .dropped .. => last
    | .handed other _ record => if key = other then some record else last
    | .succeeded other => if key = other then none else last) none

@[simp] theorem lastLogin_snoc_dropped (key other : String) (check : Int) (history : LoginHistory) :
    lastLogin key (history ++ [.dropped other check]) = lastLogin key history := by
  simp [lastLogin]

@[simp] theorem lastLogin_snoc_handed (key other : String) (check record : Int)
    (history : LoginHistory) : lastLogin key (history ++ [.handed other check record]) =
      if key = other then some record else lastLogin key history := by
  simp [lastLogin]

@[simp] theorem lastLogin_snoc_succeeded (key other : String) (history : LoginHistory) :
    lastLogin key (history ++ [.succeeded other]) =
      if key = other then none else lastLogin key history := by
  simp [lastLogin]

theorem exact_nil : Exact [] := by
  intro before event start
  simp at start

theorem exact_snoc {history : LoginHistory} {event : LoginEvent} (exact : Exact history)
    (rightly : Rightly history event) : Exact (history ++ [event]) := by
  intro before last start
  rcases List.prefix_concat_iff.mp start with whole | start
  · obtain ⟨rfl, same⟩ := List.append_inj' whole rfl
    cases same
    exact rightly
  · exact exact before last start

theorem pending_snoc (key : String) (now : Int) (history : LoginHistory) (event : LoginEvent) :
    Pending key now (history ++ [event]) ↔
      (∃ check record, event = .handed key check record ∧ now - record < 1000000000) ∨
        event ≠ .succeeded key ∧ Pending key now history := by
  constructor
  · rintro ⟨before, check, record, after, same, recent, unsucceeded⟩
    rcases after.eq_nil_or_concat with rfl | ⟨after, last, rfl⟩
    · obtain ⟨-, event⟩ := List.append_inj' same rfl
      exact .inl ⟨check, record, List.head_eq_of_cons_eq event, recent⟩
    · rw [List.concat_eq_append] at same unsucceeded
      rw [← List.cons_append, ← List.append_assoc] at same
      obtain ⟨rfl, event⟩ := List.append_inj' same rfl
      cases event
      rw [List.mem_append, not_or] at unsucceeded
      refine .inr ⟨fun other => unsucceeded.2 (by simp [other]), ?_⟩
      exact ⟨before, check, record, after, rfl, recent, unsucceeded.1⟩
  · rintro (⟨check, record, rfl, recent⟩ | ⟨other, before, check, record, after, rfl, rest⟩)
    · exact ⟨history, check, record, [], rfl, recent, List.not_mem_nil⟩
    · obtain ⟨recent, unsucceeded⟩ := rest
      refine ⟨before, check, record, after ++ [event], by simp, recent, ?_⟩
      simp [unsucceeded, other.symm]

theorem Clocked.of_snoc {history : LoginHistory} {event : LoginEvent}
    (clocked : Clocked (history ++ [event])) : Clocked history := by
  rw [Clocked, List.flatMap_append] at clocked
  exact (List.pairwise_append.mp clocked).1

/-- What was recorded earlier is not later. -/
theorem Clocked.record_le {history : LoginHistory} {event : LoginEvent}
    (clocked : Clocked (history ++ [event])) {other : String} {check record now : Int}
    (earlier : .handed other check record ∈ history) (later : now ∈ readings event) :
    record ≤ now := by
  rw [Clocked, List.flatMap_append] at clocked
  apply (List.pairwise_append.mp clocked).2.2
  · exact List.mem_flatMap.mpr ⟨_, earlier, by simp [readings]⟩
  · simpa using later

/-- The last recorded time decides what is pending, by induction on the history. -/
theorem pending_iff {history : LoginHistory} (clocked : Clocked history) (key : String)
    (now : Int) : Pending key now history ↔
      ∃ last, lastLogin key history = some last ∧ now - last < 1000000000 := by
  induction history using List.reverseRecOn with
  | nil => simp [Pending, lastLogin]
  | append_singleton history event ih =>
    have before := ih clocked.of_snoc
    rw [pending_snoc]
    cases event with
    | dropped other check => simp [before]
    | succeeded other =>
      by_cases same : key = other
      · simp [same]
      · simp [same, before, Ne.symm same]
    | handed other check record =>
      by_cases same : key = other
      · subst same
        simp only [lastLogin_snoc_handed, if_true]
        constructor
        · rintro (⟨check', record', event, recent⟩ | ⟨-, earlier⟩)
          · cases event
            exact ⟨record, rfl, recent⟩
          · obtain ⟨first, check', record', after, rfl, recent, -⟩ := earlier
            have earlier : LoginEvent.handed key check' record' ∈
              first ++ .handed key check' record' :: after := by simp
            have sorted : record' ≤ record := clocked.record_le earlier (by simp [readings])
            exact ⟨record, rfl, by omega⟩
        · rintro ⟨last, is, recent⟩
          cases is
          exact .inl ⟨check, record, rfl, recent⟩
      · simp [same, before, Ne.symm same]

/-! ## What the sections do to the login module -/

def SameLogin (s t : UGateway) : Prop := t.login = s.login

instance : IsPreorder UGateway SameLogin where
  refl _ := rfl
  trans _ _ _ first second := second.trans first

theorem editAgent_sameLogin (id : AgentId) (update : UPlayerAgent → UPlayerAgent) :
    Within SameLogin (editAgent id update) := by
  apply Within.modify
  intro s
  rw [SameLogin, UGateway.edit_frame]

theorem extractPlayer_sameLogin (id : AgentId) : Within SameLogin (extractPlayer id) := by
  apply Within.bind (R := SameLogin) (Within.of_same theAgent_same)
  intro agent
  cases agent.player with
  | none => exact Within.throw _
  | some player => exact Within.bind (editAgent_sameLogin _ _) fun _ => Within.pure _

theorem setUpPlayer_sameLogin (id : AgentId) (plr : IPlayerBase) :
    Within SameLogin (setUpPlayer id plr) := by
  apply Within.bind (R := SameLogin) (Within.of_same theAgent_same)
  intro agent
  split
  · exact Within.pure ()
  · exact Within.bind (Within.throwIf _ _) fun _ => editAgent_sameLogin _ _

theorem createPlayer_sameLogin : Within SameLogin createPlayer := by
  apply Within.bind (R := SameLogin) Within.get
  intro s
  exact Within.bind (Within.modify fun _ => rfl) fun _ => Within.pure _

theorem enlist_sameLogin (key : String) (pid : Int64) (existed : Option AgentId)
    (player : FPlayerHandle) : Within SameLogin (enlist key pid existed player) := by
  apply Within.bind (R := SameLogin) Within.get
  intro s
  split
  · exact Within.pure none
  · exact Within.bind (Within.modify fun _ => rfl) fun _ => Within.pure _

theorem loginHead_sameLogin (key : String) (pid : Int64) :
    Within SameLogin (loginHead key pid) := by
  apply Within.bind (R := SameLogin) Within.get
  intro s
  split
  · exact Within.pure none
  apply Within.bind (R := SameLogin) Within.get
  intro s
  split
  · exact enlist_sameLogin _ _ _ _
  apply Within.bind (R := SameLogin) (Within.of_same theAgent_same)
  intro agent
  split
  · exact Within.pure none
  apply Within.bind (extractPlayer_sameLogin _)
  intro player
  exact Within.bind (Within.modify fun _ => rfl) fun _ => enlist_sameLogin _ _ _ _

theorem loginCache_sameLogin (call : LoginCall) : Within SameLogin (loginCache call) := by
  intro s t ends
  cases ends.of_ok (loginCache_ok call s)
  rfl

theorem removePlayer_sameLogin (pid : Int64) : Within SameLogin (removePlayer pid) := by
  apply Within.bind (R := SameLogin) Within.get
  intro s
  split
  · exact Within.pure ()
  · exact Within.modify fun _ => rfl

theorem recycleEntry_sameLogin (id : AgentId) : Within SameLogin (recycleEntry id) := by
  intro s t ends
  rcases recycleEntry_cases id s with ⟨entry, ran, -⟩ | ran
  · cases ends.of_ok ran
    rfl
  · obtain ⟨what, wrong⟩ := ends.of_fault ran
    cases wrong

theorem recycleCache_sameLogin (id : AgentId) (pid : Int64) (now : Int) :
    Within SameLogin (recycleCache id pid now) := by
  apply Within.bind (R := SameLogin) (Within.of_same theAgent_same)
  intro agent
  apply Within.bind (editAgent_sameLogin _ _)
  intro _
  exact Within.modify fun _ => rfl

/-- The gateway never touches the login module. -/
theorem gateway_sameLogin (factory : IPlayerFactory) (call : Call) :
    Within SameLogin (Call.part factory call) := by
  cases call with
  | login key pid => exact Within.bind (loginHead_sameLogin key pid) fun _ => Within.pure _
  | loginCache call => exact Within.bind (loginCache_sameLogin call) fun _ => Within.pure _
  | loginFinish call =>
    have finish := loginFinish_within createPlayer_sameLogin setUpPlayer_sameLogin factory call
    exact Within.bind finish fun _ => Within.pure _
  | recycle id now => exact Within.bind (recycleEntry_sameLogin id) fun _ => Within.pure _
  | recycleRemove id now pid =>
    exact Within.bind (removePlayer_sameLogin pid) fun _ => Within.pure _
  | recycleCache id now pid =>
    exact Within.bind (recycleCache_sameLogin id pid now) fun _ => Within.pure _

theorem parseRequest_same (parser : ILoginHandler) (key : String) (pkg : FPacket) :
    Within Eq (parseRequest parser key pkg) := by
  unfold parseRequest
  cases parser.parseLoginRequest pkg with
  | error what => exact Within.throw _
  | ok request =>
    dsimp only
    split
    · apply Within.bind (findAgent_same key)
      intro agent
      cases agent with
      | none => exact Within.pure none
      | some id => exact Within.bind (notify_same _ _ _) fun _ => Within.pure none
    · exact Within.pure _

theorem throttle_running {recent : Table String Int} (running : s.login = some ⟨.running, recent⟩)
    (check record : Int) (key : String) : throttle check record key s =
      if (recent.lookup key).any fun last => check - last < 1000000000 then .ok false s
      else .ok true { s with login := some ⟨.running, recent.insert key record⟩ } := by
  simp only [throttle, get_bind, running]
  split
  next stopped => simp at stopped
  next =>
    split
    · rfl
    · simp only [recordLogin, modify_bind, pure_apply, running, Option.map_some]

/-- The map of recent logins is that of the history, and the history is right. -/
structure Recorded (w : Observed UGateway LoginEvent) : Prop where
  table : ∃ recent : Table String Int, w.state.login = some ⟨.running, recent⟩ ∧
    ∀ key, recent.lookup key = lastLogin key w.history
  exact : Clocked w.history → Exact w.history

variable {w v : Observed UGateway LoginEvent} {rest : Option LoginTask}

theorem Recorded.same (recorded : Recorded w) (login : v.state.login = w.state.login)
    (history : v.history = w.history) : Recorded v := by
  constructor
  · rw [login, history]
    exact recorded.table
  · rw [history]
    exact recorded.exact

theorem Recorded.request {check record : Int} {pkg : FPacket} (recorded : Recorded w)
    (reaches : Reaches (LoginTask.part factory parser (.request check record key pkg)) w rest v) :
    Recorded v := by
  obtain ⟨recent, running, table⟩ := recorded.table
  have ran := throttle_running running check record key
  have decides (clocked : Clocked w.history) : Pending key check w.history ↔
      ((recent.lookup key).any fun last => check - last < 1000000000) = true := by
    rw [pending_iff clocked, table key]
    cases lastLogin key w.history <;> simp
  split at ran
  next recently =>
    obtain ⟨-, rfl⟩ := reaches.of_ok ((bind_ok (observe_ok ran) _).trans rfl)
    constructor
    · exact ⟨recent, running, by simpa using table⟩
    · intro clocked
      exact exact_snoc (recorded.exact clocked.of_snoc) ((decides clocked.of_snoc).mpr recently)
  next long =>
    obtain ⟨-, rfl⟩ := reaches.of_ok ((bind_ok (observe_ok ran) _).trans rfl)
    constructor
    · refine ⟨recent.insert key record, rfl, fun other => ?_⟩
      rw [Table.lookup_insert_ite, lastLogin_snoc_handed, table]
    · intro clocked
      exact exact_snoc (recorded.exact clocked.of_snoc) (long ∘ (decides clocked.of_snoc).mp)

theorem Recorded.success {pid : Int64} (recorded : Recorded w)
    (reaches : Reaches (LoginTask.part factory parser (.success key pid)) w rest v) :
    Recorded v := by
  obtain ⟨recent, running, table⟩ := recorded.table
  obtain ⟨-, rfl⟩ := reaches.of_ok rfl
  constructor
  · refine ⟨recent.erase key, by simp [running], fun other => ?_⟩
    rw [Table.lookup_erase_ite, lastLogin_snoc_succeeded, table]
  · intro clocked
    exact exact_snoc (recorded.exact clocked.of_snoc) trivial

theorem Recorded.step {config later : Logins} {move : Move LoginTask}
    (recorded : Recorded config.shared) (stepped : Logins.step factory parser config move later) :
    Recorded later.shared := by
  cases stepped with
  | invoke fresh => exact recorded
  | advance pending reaches =>
    rename_i task rest
    cases task with
    | request check record key pkg => exact recorded.request reaches
    | parse key pkg =>
      obtain ⟨ends, history⟩ := reaches.ends.of_observe
      exact recorded.same (congrArg UGateway.login (parseRequest_same parser key pkg _ _ ends).symm)
        history
    | success key pid => exact recorded.success reaches
    | enter call =>
      obtain ⟨ends, history⟩ := reaches.ends.of_observe
      exact recorded.same (gateway_sameLogin factory call _ _ ends) history

/-- On a running login module without a record, however the sections of requests
interleave, a request is handed on exactly when none of its key is pending. -/
theorem requests_exact (factory : IPlayerFactory) (parser : ILoginHandler) {s : UGateway}
    (running : s.login = some ⟨.running, ∅⟩) {path : List (Move LoginTask × Logins)}
    (run : Transition.Path (Logins.step factory parser) ⟨⟨s, []⟩, 0⟩ path) :
    Transition.Always (fun config => Clocked config.shared.history → Exact config.shared.history)
      ⟨⟨s, []⟩, 0⟩ path := by
  have initial : Recorded ⟨s, []⟩ := by
    constructor
    · exact ⟨∅, running, fun key => AList.lookup_empty key⟩
    · exact fun _ => exact_nil
  have always : Transition.Always (fun config : Logins => Recorded config.shared) ⟨⟨s, []⟩, 0⟩
      path :=
    run.invariant (fun recorded stepped => recorded.step stepped) initial
  exact always.imp fun _ recorded => recorded.exact

/-- The second request comes half a second after the first, the third a second. -/
def thrice : List (Move LoginTask × Logins) :=
  Transition.trace (following (LoginTask.part plainFactory emptyParser) LoginTask.Starts)
    ⟨⟨oneOnline, []⟩, 0⟩
    [.invoke (.request 0 0 "10.0.0.9-1" .new), .invoke (.request 500000000 0 "10.0.0.9-1" .new),
      .invoke (.request 1000000000 1000000000 "10.0.0.9-1" .new),
      .advance (.request 0 0 "10.0.0.9-1" .new), .advance (.request 500000000 0 "10.0.0.9-1" .new),
      .advance (.parse "10.0.0.9-1" .new),
      .advance (.request 1000000000 1000000000 "10.0.0.9-1" .new)]

theorem requests_exact_thrice :
    Exact [.handed "10.0.0.9-1" 0 0, .dropped "10.0.0.9-1" 500000000,
      .handed "10.0.0.9-1" 1000000000 1000000000] := by
  have run : Transition.Path (Logins.step plainFactory emptyParser) ⟨⟨oneOnline, []⟩, 0⟩ thrice :=
    Transition.trace_path following_step _
  have ends : (Transition.last ⟨⟨oneOnline, []⟩, 0⟩ thrice).shared.history =
      [.handed "10.0.0.9-1" 0 0, .dropped "10.0.0.9-1" 500000000,
        .handed "10.0.0.9-1" 1000000000 1000000000] := by decide +kernel
  have exact := (requests_exact plainFactory emptyParser rfl run).last
  rw [ends] at exact
  exact exact (by simp [Clocked, readings])

end Uranus
