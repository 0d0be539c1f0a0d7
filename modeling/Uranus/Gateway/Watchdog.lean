import Uranus.Gateway.Session

/-! The watchdog of a session whose agent has logged in. As long as nothing fails
it alone ends the session, and then no package came for the time that it allows;
but a watchdog that is switched off ends the session when it starts. -/
namespace Uranus.Session
open Foundation
variable {s t : Session} {move : SessionMove}

/-- The group of a session whose agent has a player. -/
def loggedIn (address : String) (unixTime receiveTime expiration : Int) (handler : IAgentHandler)
    (player : IPlayerBase) : Session :=
  let s := start address unixTime receiveTime expiration handler
  { s with agent := { s.agent with player := some player } }

/-- One of the coroutines has ended, which cancels the others unless it threw, or
`Disconnect` was executed. -/
def Ended (s : Session) : Prop :=
  (∃ threw, s.read = .finished threw) ∨ s.write = .finished ∨ s.watch = .finished ∨
    s.disconnects ≠ 0

/-- No read, write or handler fails, no terminal package is written, and nobody
else disconnects the agent or takes its player. -/
def Succeeds (s : Session) : SessionMove → Prop
  | .readTest built => built = .package
  | .decode result => ∃ pkg, result = .package pkg
  | .readResume _ handled => handled = ⟨false, none⟩
  | .writeResume => ∀ pkg result, s.write = .encoded pkg result →
    pkg.header.id ≠ loginFailedPackageId ∧ pkg.header.id ≠ loginRepeatedPackageId
  | .encode result => result = some true
  | .setPlayer player => player ≠ none
  | .disconnect => False
  | .writeTest | .receive _ | .watchStart | .expire _ | .watchResume _ | .watchThrow
  | .sendPackage _ => True

/-- Nothing fails before the session is ended. -/
def Calm (s : Session) (move : SessionMove) : Prop := ¬ s.Ended → s.Succeeds move

/-- The watchdog does not leave at its start, and its timer does not throw. -/
def Watched (s : Session) (move : SessionMove) : Prop :=
  ¬ s.Ended → (move = .watchStart → s.expiration ≠ 0) ∧ move ≠ .watchThrow

/-- When the last package came, after one at `time`. -/
def heard (time : Int) : SessionMove → Int
  | .readResume now _ => now
  | _ => time

/-- The step that ends the session is one of the watchdog, at a time when no
package has come for the whole expiration. -/
def EndsIdle (expiration : Int) : Int → List (SessionMove × Session) → Prop
  | _, [] => True
  | time, (move, t) :: rest =>
    (t.Ended → ∃ now, move = .watchResume now ∧ 0 < expiration ∧ time + expiration ≤ now) ∧
      (¬ t.Ended → EndsIdle expiration (heard time move) rest)

/-- One place moves on, the others stay. -/
theorem Ended.keep (ended : s.Ended)
    (read : ∀ threw, s.read = .finished threw → t.read = .finished threw)
    (write : s.write = .finished → t.write = .finished)
    (watch : s.watch = .finished → t.watch = .finished) (count : t.disconnects = s.disconnects) :
    t.Ended := by
  rcases ended with ⟨threw, place⟩ | place | place | executed
  · exact .inl ⟨threw, read threw place⟩
  · exact .inr (.inl (write place))
  · exact .inr (.inr (.inl (watch place)))
  · exact .inr (.inr (.inr (count ▸ executed)))

theorem ended_disconnect (s : Session) : s.disconnect.Ended :=
  .inr (.inr (.inr (Nat.succ_ne_zero _)))

theorem ended_endRead (threw : Bool) (s : Session) : (s.endRead threw).Ended := .inl ⟨threw, rfl⟩

theorem ended_endWrite (s : Session) : s.endWrite.Ended := .inr (.inl rfl)

theorem ended_endWatch (s : Session) : s.endWatch.Ended := .inr (.inr (.inl rfl))

theorem Ended.handle (ended : s.Ended) (handled : Handled)
    (place : ∀ threw, s.read ≠ .finished threw) : (s.handle handled).Ended := by
  rw [Session.handle]
  cases handled.thrown with
  | none =>
    cases handled.disconnects with
    | true => exact .inr (.inr (.inr (Nat.succ_ne_zero _)))
    | false => exact ended.keep (fun threw at' => absurd at' (place threw)) id id rfl
  | some thrown =>
    cases thrown with
    | standard => exact ended_endRead false _
    | other => exact ended_endRead true _

theorem Ended.receivePackage (ended : s.Ended) (pkg : FPacket) (now : Int) (handled : Handled)
    (place : ∀ threw, s.read ≠ .finished threw) : (s.receivePackage pkg now handled).Ended := by
  have onward {later : Session} (write : later.write = s.write) (watch : later.watch = s.watch)
      (count : later.disconnects = s.disconnects) : later.Ended :=
    ended.keep (fun threw at' => absurd at' (place threw)) write.trans watch.trans count
  have timed : ({ s with receiveTime := now } : Session).Ended :=
    ended.keep (fun _ => id) id id rfl
  rw [Session.receivePackage]
  split
  · exact ended.handle handled place
  · dsimp only
    split
    · exact onward rfl rfl rfl
    · exact onward rfl rfl rfl
    all_goals exact timed.handle handled place

/-- The read loop goes on from a place where it has not ended. -/
theorem Ended.reads {place : ReadPlace} (ended : s.Ended)
    (waits : ∀ threw, s.read ≠ .finished threw) : ({ s with read := place } : Session).Ended :=
  ended.keep (fun threw at' => absurd at' (waits threw)) id id rfl

theorem Ended.writes {place : WritePlace} (ended : s.Ended) (waits : s.write ≠ .finished) :
    ({ s with write := place } : Session).Ended :=
  ended.keep (fun _ => id) (fun at' => absurd at' waits) id rfl

theorem Ended.watches {place : WatchPlace} (ended : s.Ended) (waits : s.watch ≠ .finished) :
    ({ s with watch := place } : Session).Ended :=
  ended.keep (fun _ => id) id (fun at' => absurd at' waits) rfl

theorem Ended.readTest (ended : s.Ended) (built : Built)
    (waits : ∀ threw, s.read ≠ .finished threw) : (s.readTest built).Ended := by
  simp only [Session.readTest]
  split
  · exact ended_endRead false s
  · cases built with
    | package => exact ended.reads waits
    | null => exact ended_endRead false s
    | threw => exact ended_endRead false _

/-- What has ended stays so. -/
theorem Ended.step (ended : s.Ended) (moved : Step s move t) : t.Ended := by
  cases step_effect moved with
  | @readTest built place => exact ended.readTest built (by simp [place])
  | decode place => exact ended.reads (by simp [place])
  | @readPackage now handled pkg place =>
    exact ended.receivePackage pkg now handled (by simp [place])
  | readFails => exact ended_endRead false _
  | writeTest place =>
    rw [Session.writeTest]
    split
    · exact ended.writes (by simp [place])
    · exact ended_endWrite s
  | receiveFails place | encode place | encodes place => exact ended.writes (by simp [place])
  | receives place queue =>
    exact ended.keep (fun _ => id) (fun at' => by simp [place] at at') id rfl
  | writesOn place =>
    apply ended.writes
    rcases place with ⟨item, place⟩ | ⟨pkg, place⟩ <;> simp [place]
  | writeFails | writesLast => exact ended_endWrite _
  | watchStart place =>
    rw [Session.watchStart]
    split
    · exact ended_endWatch s
    · exact ended.watches (by simp [place])
  | expire place early => exact ended.watches (by simp [place])
  | watchesOn place heard => exact ended.watches (by simp [place])
  | watchCancelled | watchClosed | watchThrow | watchDisconnects => exact ended_endWatch _
  | sendPackage | setPlayer => exact ended.keep (fun _ => id) id id rfl
  | disconnect => exact ended_disconnect s

/-- A session in which nothing has failed or ended. -/
structure Live (time expiration : Int) (s : Session) : Prop where
  player : s.agent.player ≠ none
  socket : s.agent.socketOpen = true
  output : s.agent.outputOpen = true
  reading : s.read = .testing ∨ s.read = .decoding ∨ ∃ pkg, s.read = .decoded (.package pkg)
  writing : s.write = .testing ∨ s.write = .receiving ∨ (∃ item, s.write = .received (some item)) ∨
    (∃ pkg, s.write = .encoding pkg) ∨ ∃ pkg, s.write = .encoded pkg (some true)
  watching : s.watch = .starting ∨ expiration ≠ 0 ∧ (s.watch = .waiting ∨ s.watch = .elapsed false)
  uncancelled : s.cancelled = false
  connected : s.disconnects = 0
  timed : s.receiveTime = time
  expires : s.expiration = expiration

variable {time expiration : Int}

theorem Live.not_ended (live : s.Live time expiration) : ¬ s.Ended := by
  rintro (⟨threw, ended⟩ | ended | ended | ended)
  · rcases live.reading with place | place | ⟨pkg, place⟩ <;> cases place.symm.trans ended
  · rcases live.writing with place | place | ⟨item, place⟩ | ⟨pkg, place⟩ | ⟨pkg, place⟩ <;>
      cases place.symm.trans ended
  · rcases live.watching with place | ⟨-, place | place⟩ <;> cases place.symm.trans ended
  · exact ended live.connected

theorem Live.loggedIn (address : String) (unixTime receiveTime expiration : Int)
    (handler : IAgentHandler) (player : IPlayerBase) :
    (loggedIn address unixTime receiveTime expiration handler player).Live receiveTime expiration :=
  ⟨by simp [Session.loggedIn], rfl, rfl, .inl rfl, .inl rfl, .inl rfl, rfl, rfl, rfl, rfl⟩

/-- The read loop goes on to another place. -/
theorem Live.read {place : ReadPlace} (live : s.Live time expiration)
    (reading : place = .testing ∨ place = .decoding ∨ ∃ pkg, place = .decoded (.package pkg)) :
    ({ s with read := place } : Session).Live time expiration :=
  { live with reading }

/-- The write loop goes on to another place. -/
theorem Live.write {place : WritePlace} (live : s.Live time expiration)
    (writing : place = .testing ∨ place = .receiving ∨ (∃ item, place = .received (some item)) ∨
      (∃ pkg, place = .encoding pkg) ∨ ∃ pkg, place = .encoded pkg (some true)) :
    ({ s with write := place } : Session).Live time expiration :=
  { live with writing }

/-- A package that is handled without trouble only updates the time. -/
theorem Live.receivePackage (live : s.Live time expiration) (pkg : FPacket) (now : Int) :
    (s.receivePackage pkg now ⟨false, none⟩).Live now expiration := by
  have timed : ({ s with receiveTime := now, read := .testing } : Session).Live now expiration :=
    { live with reading := .inl rfl, timed := rfl }
  rw [Session.receivePackage]
  split
  next none => exact absurd none live.player
  next =>
    dsimp only
    split
    · exact timed
    · exact { timed with }
    · exact timed
    · exact timed

theorem Live.readTest (live : s.Live time expiration) :
    (s.readTest .package).Live time expiration := by
  simp only [Session.readTest, live.socket, Bool.not_true, Bool.false_eq_true, if_false]
  exact live.read (.inr (.inl rfl))

/-- A watchdog whose timer has been set runs. -/
theorem Live.running (live : s.Live time expiration) (started : s.watch ≠ .starting) :
    expiration ≠ 0 := by
  rcases live.watching with place | ⟨running, -⟩
  · exact absurd place started
  · exact running

/-- Where nothing fails and the watchdog is not switched off, only the watchdog
ends a session, and then the time is up since the last package. -/
theorem Live.step (live : s.Live time expiration) (succeeds : s.Succeeds move)
    (watched : (move = .watchStart → s.expiration ≠ 0) ∧ move ≠ .watchThrow)
    (moved : Step s move t) : t.Live (heard time move) expiration ∨
      ∃ now, move = .watchResume now ∧ expiration ≠ 0 ∧ time + expiration ≤ now ∧ t.Ended := by
  cases step_effect moved with
  | readTest place =>
    cases succeeds
    exact .inl live.readTest
  | decode place =>
    obtain ⟨pkg, rfl⟩ := succeeds
    exact .inl (live.read (.inr (.inr ⟨pkg, rfl⟩)))
  | @readPackage now handled pkg place =>
    cases succeeds
    exact .inl (live.receivePackage pkg now)
  | readFails place failed =>
    rcases live.reading with at' | at' | ⟨pkg, at'⟩
    · cases place.symm.trans at'
    · cases place.symm.trans at'
    · cases place.symm.trans at'
      exact absurd rfl (failed pkg)
  | writeTest place =>
    rw [Session.writeTest, if_pos (by simp [live.socket, live.output])]
    exact .inl (live.write (.inr (.inl rfl)))
  | receiveFails place broken => simp [live.uncancelled, live.output] at broken
  | @receives item rest place queue =>
    exact .inl { live with writing := .inr (.inr (.inl ⟨item, rfl⟩)) }
  | @encode pkg result place =>
    cases succeeds
    exact .inl (live.write (.inr (.inr (.inr (.inr ⟨pkg, rfl⟩)))))
  | @encodes pkg place => exact .inl (live.write (.inr (.inr (.inr (.inl ⟨pkg, rfl⟩)))))
  | writesOn place => exact .inl (live.write (.inl rfl))
  | writeFails place =>
    rcases place with place | ⟨pkg, result, place, failed⟩
    · simpa [place] using live.writing
    · have encoded : result = some true := by simpa [place] using live.writing
      exact absurd encoded failed
  | writesLast place terminal =>
    obtain ⟨failed, repeated⟩ := succeeds _ _ place
    exact absurd terminal (by simp [failed, repeated])
  | watchStart place =>
    have running := watched.1 rfl
    rw [Session.watchStart, if_neg running]
    exact .inl { live with watching := .inr ⟨live.expires ▸ running, .inl rfl⟩ }
  | @expire ec place early =>
    have intime : ec = false := by simpa [live.uncancelled] using early
    have running := live.running (by simp [place])
    exact .inl { live with watching := .inr ⟨running, .inr (congrArg WatchPlace.elapsed intime)⟩ }
  | watchCancelled place => simpa [place] using live.watching
  | watchesOn place heard =>
    exact .inl { live with watching := .inr ⟨live.running (by simp [place]), .inl rfl⟩ }
  | @watchDisconnects now place late socket =>
    rw [live.timed, live.expires] at late
    exact .inr ⟨now, rfl, live.running (by simp [place]), late, ended_endWatch _⟩
  | watchClosed place socket => cases live.socket.symm.trans socket
  | watchThrow => exact absurd rfl watched.2
  | @sendPackage pkg =>
    have same : (s.agent.offer pkg).player = s.agent.player ∧
        (s.agent.offer pkg).socketOpen = s.agent.socketOpen ∧
        (s.agent.offer pkg).outputOpen = s.agent.outputOpen := by
      rw [UPlayerAgent.offer]
      split <;> exact ⟨rfl, rfl, rfl⟩
    exact .inl { live with
      player := same.1 ▸ live.player
      socket := same.2.1.trans live.socket
      output := same.2.2.trans live.output }
  | setPlayer => exact .inl { live with player := succeeds }
  | disconnect => exact succeeds.elim

open Transition

/-- After the end nothing more is asked of a step. -/
theorem Ended.watched (ended : s.Ended) {path : List (SessionMove × Session)}
    (run : Path Step s path) : Every Watched s path := by
  induction path generalizing s with
  | nil => trivial
  | cons entry rest ih => exact ⟨fun going => absurd ended going, ih (ended.step run.1) run.2⟩

/-- A watchdog that is switched off, or whose timer throws, ends the session. -/
theorem ended_of_unwatched (unwatched : ¬ s.Watched move)
    (moved : Step s move t) : t.Ended ∧ ∀ now, move ≠ .watchResume now := by
  have leaves : (move = .watchStart ∧ s.expiration = 0) ∨ move = .watchThrow := by
    by_contra other
    obtain ⟨starts, throws⟩ := not_or.mp other
    exact unwatched fun _ => ⟨fun start off => starts ⟨start, off⟩, throws⟩
  have effect := step_effect moved
  rcases leaves with ⟨rfl, off⟩ | rfl
  · cases effect
    rw [Session.watchStart, if_pos off]
    exact ⟨ended_endWatch s, fun now same => by cases same⟩
  · cases effect
    exact ⟨ended_endWatch s, fun now same => by cases same⟩

/-- From a live session, by induction on the run. -/
theorem Live.endsIdle_iff (live : s.Live time expiration) (nonneg : 0 ≤ expiration)
    {path : List (SessionMove × Session)} (run : Path Step s path) (calm : Every Calm s path) :
    EndsIdle expiration time path ↔ Every Watched s path := by
  induction path generalizing s time with
  | nil => exact Iff.rfl
  | cons entry rest ih =>
    obtain ⟨move, t⟩ := entry
    obtain ⟨moved, run⟩ := run
    obtain ⟨succeeds, calm⟩ := calm
    have going := live.not_ended
    by_cases watched : s.Watched move
    · rcases live.step (succeeds going) (watched going) moved with onward | ⟨now, rfl, idle⟩
      · have same := ih onward run calm
        exact ⟨fun idle => ⟨watched, same.mp (idle.2 onward.not_ended)⟩,
          fun all => ⟨fun ended => absurd ended onward.not_ended, fun _ => same.mpr all.2⟩⟩
      · obtain ⟨running, late, ended⟩ := idle
        exact ⟨fun _ => ⟨watched, ended.watched run⟩, fun _ =>
          ⟨fun _ => ⟨now, rfl, by omega, late⟩, fun goes => absurd ended goes⟩⟩
    · obtain ⟨ended, other⟩ := ended_of_unwatched watched moved
      constructor
      · intro idle
        obtain ⟨now, same, -⟩ := idle.1 ended
        exact absurd same (other now)
      · exact fun all => absurd all.1 watched

/-- In a run of a session in which nothing fails, the session ends idle exactly if
the watchdog was not switched off when it started, and did not throw. -/
theorem endsIdle_iff_watched (address : String) (unixTime receiveTime expiration : Int)
    (handler : IAgentHandler) (player : IPlayerBase) (nonneg : 0 ≤ expiration)
    {path : List (SessionMove × Session)}
    (run : Path Step (loggedIn address unixTime receiveTime expiration handler player) path)
    (calm : Every Calm (loggedIn address unixTime receiveTime expiration handler player) path) :
    EndsIdle expiration receiveTime path ↔
      Every Watched (loggedIn address unixTime receiveTime expiration handler player) path :=
  (Live.loggedIn ..).endsIdle_iff nonneg run calm

/-- The timer runs out thirty ticks after the login, and no package has come. -/
theorem endsIdle_iff_watched_thirty :
    let s := loggedIn "127.0.0.1" 7 0 30 (plainFactory.createAgentHandler 0) ⟨0, 7, none⟩
    EndsIdle 30 0 (s.runs [.watchStart, .expire false, .watchResume 30]) := by
  apply (endsIdle_iff_watched _ _ _ _ _ _ (by decide) (runs_path _ _) ?_).mpr
  · exact .intro (fun _ => ⟨fun _ => by decide, nofun⟩) (.intro (fun _ => ⟨nofun, nofun⟩)
      (.intro (fun _ => ⟨nofun, nofun⟩) trivial))
  · exact .intro (fun _ => trivial) (.intro (fun _ => trivial) (.intro (fun _ => trivial) trivial))

/-- A watchdog that is switched off ends its session in its first step: the write
loop is cancelled and disconnects, and then the read fails. -/
theorem switchedOff_ends :
    let s := loggedIn "127.0.0.1" 7 0 0 (plainFactory.createAgentHandler 0) ⟨0, 7, none⟩
    let path := s.runs [.readTest .package, .writeTest, .watchStart, .receive true, .writeResume,
      .readResume 1 ⟨false, none⟩]
    Path Step s path ∧ Every Calm s path ∧ (last s path).Over ∧ ¬ EndsIdle 0 0 path := by
  refine ⟨runs_path _ _, ?_, ⟨⟨false, rfl⟩, rfl, rfl⟩, ?_⟩
  · have ended {t : Session} (place : t.watch = .finished) : t.Ended := .inr (.inr (.inl place))
    have calm {t : Session} {move : SessionMove} (place : t.watch = .finished) : t.Calm move :=
      fun going => absurd (ended place) going
    exact .intro (fun _ => rfl) (.intro (fun _ => trivial) (.intro (fun _ => trivial)
      (.intro (calm rfl) (.intro (calm rfl) (.intro (calm rfl) trivial)))))
  · intro idle
    have live := Live.loggedIn "127.0.0.1" 7 0 0 (plainFactory.createAgentHandler 0) ⟨0, 7, none⟩
    have decoding := live.readTest
    have receiving := decoding.write (.inr (.inl rfl))
    have last := (idle.2 decoding.not_ended).2 receiving.not_ended
    obtain ⟨now, same, -⟩ := last.1 (ended_endWatch _)
    cases same

end Uranus.Session
