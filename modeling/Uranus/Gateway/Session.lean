import Uranus.Gateway.Agent
import Uranus.Foundation.Path

/-! The session of one agent: the coroutines `ReadPackage`, `WritePackage` and
`Watchdog` as one group, cut at their waits. When one of them ends without an
exception, what the others wait for is cancelled; the group is over when all
have ended. Meanwhile others send packages, set the player or disconnect. -/
namespace Uranus
open Foundation

/-- What the read loop does with a package of an agent that has a player. -/
inductive Reaction where
  | ignored
  | logout
  | direct
  | posted
deriving DecidableEq, Repr

def reaction (pkg : FPacket) : Reaction :=
  if pkg.header.id = loginRequestPackageId ∨ pkg.header.id = heartbeatPackageId ∨
      pkg.header.id = platformPackageId then .ignored
  else if pkg.header.id = logoutRequestPackageId then .logout
  else if pkg.header.target = playerTargetId then .direct
  else if pkg.header.target > 0 then .posted
  else .ignored

/-- How `BuildPackage` comes back. -/
inductive Built where
  | package
  | null
  | threw
deriving DecidableEq, Repr

/-- What `Decode` has come to. A read that is cut off fails. -/
inductive Decoded where
  | package (pkg : FPacket)
  | failed
  | threw
deriving DecidableEq, Repr

/-- What a handler throws: something the loop catches, or something else. -/
inductive Thrown where
  | standard
  | other
deriving DecidableEq, Repr

/-- What a handler does to the session that runs it. -/
structure Handled where
  disconnects : Bool
  thrown : Option Thrown
deriving DecidableEq, Repr

inductive ReadPlace where
  | testing
  | decoding
  | decoded (result : Decoded)
  | finished (threw : Bool)
deriving DecidableEq, Repr

/-- A receive that fails has no item, and an encoding that throws has no result. -/
inductive WritePlace where
  | testing
  | receiving
  | received (item : Option (Option FPacket))
  | encoding (pkg : FPacket)
  | encoded (pkg : FPacket) (result : Option Bool)
  | finished
deriving DecidableEq, Repr

inductive WatchPlace where
  | starting
  | waiting
  | elapsed (ec : Bool)
  | finished
deriving DecidableEq, Repr

/-- `disconnects` records how often `Disconnect` was executed. -/
structure Session where
  agent : UPlayerAgent
  receiveTime : Int
  expiration : Int
  read : ReadPlace
  write : WritePlace
  watch : WatchPlace
  cancelled : Bool
  disconnects : Nat

inductive SessionMove where
  | readTest (built : Built)
  | decode (result : Decoded)
  | readResume (now : Int) (handled : Handled)
  | writeTest
  | receive (fails : Bool)
  | encode (result : Option Bool)
  | writeResume
  | watchStart
  | expire (ec : Bool)
  | watchResume (now : Int)
  | watchThrow
  | sendPackage (pkg : FPacket)
  | setPlayer (player : FPlayerHandle)
  | disconnect
deriving DecidableEq

namespace Session

/-- The group begins for an agent whose handshake succeeded. -/
def start (address : String) (unixTime receiveTime expiration : Int) (handler : IAgentHandler) :
    Session where
  agent := ((UPlayerAgent.new address unixTime).initial handler).connectToClient
  receiveTime := receiveTime
  expiration := expiration
  read := .testing
  write := .testing
  watch := .starting
  cancelled := false
  disconnects := 0

/-- The close of the socket ends a read, and `cancel` ends the wait of the timer. -/
def disconnect (s : Session) : Session :=
  { s with
    agent := s.agent.disconnect
    read := if s.read = .decoding then .decoded .failed else s.read
    watch := if s.watch = .waiting then .elapsed true else s.watch
    disconnects := s.disconnects + 1 }

/-- An exception that leaves a coroutine does not cancel the others. -/
def endRead (threw : Bool) (s : Session) : Session :=
  { s with read := .finished threw, cancelled := s.cancelled || !threw }

def endWrite (s : Session) : Session := { s with write := .finished, cancelled := true }

def endWatch (s : Session) : Session := { s with watch := .finished, cancelled := true }

/-- The head of the loop of `ReadPackage`, up to the read. -/
def readTest (built : Built) (s : Session) : Session :=
  if !s.agent.socketOpen then s.endRead false
  else
    match built with
    | .package => { s with read := .decoding }
    | .null => s.endRead false
    | .threw => s.disconnect.endRead false

/-- A handler that the loop calls, and what catches its exception. -/
def handle (handled : Handled) (s : Session) : Session :=
  let s := if handled.disconnects then s.disconnect else s
  match handled.thrown with
  | none => { s with read := .testing }
  | some .standard => s.disconnect.endRead false
  | some .other => s.endRead true

/-- Without a player the package goes to the login module. -/
def receivePackage (pkg : FPacket) (now : Int) (handled : Handled) (s : Session) : Session :=
  match s.agent.player with
  | none => s.handle handled
  | some _ =>
    let s := { s with receiveTime := now }
    match reaction pkg with
    | .ignored => { s with read := .testing }
    | .logout => { s with agent := { s.agent with cachable := false }, read := .testing }
    | .direct | .posted => s.handle handled

def readResume (now : Int) (handled : Handled) (s : Session) : Option Session :=
  match s.read with
  | .decoded (.package pkg) => some (s.receivePackage pkg now handled)
  | .decoded .failed | .decoded .threw => some (s.disconnect.endRead false)
  | .testing | .decoding | .finished _ => none

def writeTest (s : Session) : Session :=
  if s.agent.socketOpen && s.agent.outputOpen then { s with write := .receiving } else s.endWrite

/-- A receive takes the next item, or fails because it is cancelled or the channel
is closed. -/
def receive (fails : Bool) (s : Session) : Option Session :=
  if fails then
    if s.cancelled || !s.agent.outputOpen then some { s with write := .received none } else none
  else
    match s.agent.output with
    | [] => none
    | item :: rest =>
      some { s with agent := { s.agent with output := rest }, write := .received (some item) }

def writeResume (s : Session) : Option Session :=
  match s.write with
  | .received none => some s.disconnect.endWrite
  | .received (some none) => some { s with write := .testing }
  | .received (some (some pkg)) =>
    if pkg.header.target ≠ clientTargetId then some { s with write := .testing }
    else some { s with write := .encoding pkg }
  | .encoded pkg (some true) =>
    if pkg.header.id = loginFailedPackageId ∨ pkg.header.id = loginRepeatedPackageId then
      some s.disconnect.endWrite
    else some { s with write := .testing }
  | .encoded _ (some false) | .encoded _ none => some s.disconnect.endWrite
  | .testing | .receiving | .encoding _ | .finished => none

def watchStart (s : Session) : Session :=
  if s.expiration = 0 then s.endWatch else { s with watch := .waiting }

def watchResume (now : Int) (s : Session) : Option Session :=
  match s.watch with
  | .elapsed true => some s.endWatch
  | .elapsed false =>
    if s.receiveTime + s.expiration > now then some { s with watch := .waiting }
    else if s.agent.socketOpen then some s.disconnect.endWatch
    else some s.endWatch
  | .starting | .waiting | .finished => none

/-- The handler of `Watchdog` only logs. -/
def next (s : Session) : SessionMove → Option Session
  | .readTest built => if s.read = .testing then some (s.readTest built) else none
  | .decode result =>
    if s.read = .decoding then some { s with read := .decoded result } else none
  | .readResume now handled => s.readResume now handled
  | .writeTest => if s.write = .testing then some s.writeTest else none
  | .receive fails => if s.write = .receiving then s.receive fails else none
  | .encode result =>
    match s.write with
    | .encoding pkg => some { s with write := .encoded pkg result }
    | _ => none
  | .writeResume => s.writeResume
  | .watchStart => if s.watch = .starting then some s.watchStart else none
  | .expire ec =>
    if s.watch = .waiting ∧ (ec → s.cancelled) then some { s with watch := .elapsed ec } else none
  | .watchResume now => s.watchResume now
  | .watchThrow =>
    if s.watch = .finished ∨ s.expiration = 0 then none else some s.endWatch
  | .sendPackage pkg => some { s with agent := s.agent.offer pkg }
  | .setPlayer player => some { s with agent := { s.agent with player } }
  | .disconnect => some s.disconnect

def Step (s : Session) (move : SessionMove) (later : Session) : Prop := s.next move = some later

def runs (s : Session) (moves : List SessionMove) : List (SessionMove × Session) :=
  Transition.trace next s moves

theorem runs_path (s : Session) (moves : List SessionMove) :
    Transition.Path Step s (s.runs moves) :=
  Transition.trace_path id moves

/-- What a step does, with the place where it finds the coroutine that moves. -/
inductive Effect (s : Session) : SessionMove → Session → Prop
  | readTest {built : Built} (place : s.read = .testing) :
      Effect s (.readTest built) (s.readTest built)
  | decode {result : Decoded} (place : s.read = .decoding) :
      Effect s (.decode result) { s with read := .decoded result }
  | readPackage {now : Int} {handled : Handled} {pkg : FPacket}
      (place : s.read = .decoded (.package pkg)) :
      Effect s (.readResume now handled) (s.receivePackage pkg now handled)
  | readFails {now : Int} {handled : Handled} {result : Decoded}
      (place : s.read = .decoded result) (failed : ∀ pkg, result ≠ .package pkg) :
      Effect s (.readResume now handled) (s.disconnect.endRead false)
  | writeTest (place : s.write = .testing) : Effect s .writeTest s.writeTest
  | receiveFails (place : s.write = .receiving)
      (broken : (s.cancelled || !s.agent.outputOpen) = true) :
      Effect s (.receive true) { s with write := .received none }
  | receives {item : Option FPacket} {rest : List (Option FPacket)} (place : s.write = .receiving)
      (queue : s.agent.output = item :: rest) :
      Effect s (.receive false)
        { s with agent := { s.agent with output := rest }, write := .received (some item) }
  | encode {pkg : FPacket} {result : Option Bool} (place : s.write = .encoding pkg) :
      Effect s (.encode result) { s with write := .encoded pkg result }
  | encodes {pkg : FPacket} (place : s.write = .received (some (some pkg))) :
      Effect s .writeResume { s with write := .encoding pkg }
  | writesOn (place : (∃ item, s.write = .received (some item)) ∨
      ∃ pkg, s.write = .encoded pkg (some true)) :
      Effect s .writeResume { s with write := .testing }
  | writeFails (place : s.write = .received none ∨
      ∃ pkg result, s.write = .encoded pkg result ∧ result ≠ some true) :
      Effect s .writeResume s.disconnect.endWrite
  | writesLast {pkg : FPacket} (place : s.write = .encoded pkg (some true))
      (terminal : pkg.header.id = loginFailedPackageId ∨ pkg.header.id = loginRepeatedPackageId) :
      Effect s .writeResume s.disconnect.endWrite
  | watchStart (place : s.watch = .starting) : Effect s .watchStart s.watchStart
  | expire {ec : Bool} (place : s.watch = .waiting) (early : ec → s.cancelled) :
      Effect s (.expire ec) { s with watch := .elapsed ec }
  | watchCancelled {now : Int} (place : s.watch = .elapsed true) :
      Effect s (.watchResume now) s.endWatch
  | watchesOn {now : Int} (place : s.watch = .elapsed false)
      (heard : now < s.receiveTime + s.expiration) :
      Effect s (.watchResume now) { s with watch := .waiting }
  | watchDisconnects {now : Int} (place : s.watch = .elapsed false)
      (late : s.receiveTime + s.expiration ≤ now) (socket : s.agent.socketOpen = true) :
      Effect s (.watchResume now) s.disconnect.endWatch
  | watchClosed {now : Int} (place : s.watch = .elapsed false)
      (socket : s.agent.socketOpen = false) : Effect s (.watchResume now) s.endWatch
  | watchThrow (switchedOn : s.expiration ≠ 0) : Effect s .watchThrow s.endWatch
  | sendPackage {pkg : FPacket} : Effect s (.sendPackage pkg) { s with agent := s.agent.offer pkg }
  | setPlayer {player : FPlayerHandle} :
      Effect s (.setPlayer player) { s with agent := { s.agent with player } }
  | disconnect : Effect s .disconnect s.disconnect

section
variable {s t : Session} {move : SessionMove}

theorem readResume_effect {now : Int} {handled : Handled}
    (came : s.readResume now handled = some t) : Effect s (.readResume now handled) t := by
  rw [readResume] at came
  split at came
  next pkg place =>
    cases came
    exact .readPackage place
  next place =>
    cases came
    exact .readFails place nofun
  next place =>
    cases came
    exact .readFails place nofun
  all_goals cases came

theorem receive_effect {fails : Bool} (place : s.write = .receiving)
    (came : s.receive fails = some t) : Effect s (.receive fails) t := by
  cases fails with
  | true =>
    simp only [receive, if_true, Option.ite_none_right_eq_some, Option.some.injEq] at came
    obtain ⟨broken, rfl⟩ := came
    exact .receiveFails place broken
  | false =>
    simp only [receive, Bool.false_eq_true, if_false] at came
    split at came
    next => cases came
    next item rest queue =>
      cases came
      exact .receives place queue

theorem writeResume_effect (came : s.writeResume = some t) : Effect s .writeResume t := by
  rw [writeResume] at came
  split at came
  next place =>
    cases came
    exact .writeFails (.inl place)
  next place =>
    cases came
    exact .writesOn (.inl ⟨none, place⟩)
  next pkg place =>
    split at came
    · cases came
      exact .writesOn (.inl ⟨some pkg, place⟩)
    · cases came
      exact .encodes place
  next pkg place =>
    split at came
    next terminal =>
      cases came
      exact .writesLast place terminal
    next =>
      cases came
      exact .writesOn (.inr ⟨pkg, place⟩)
  next pkg place =>
    cases came
    exact .writeFails (.inr ⟨pkg, _, place, by simp⟩)
  next pkg place =>
    cases came
    exact .writeFails (.inr ⟨pkg, _, place, by simp⟩)
  all_goals cases came

theorem watchResume_effect {now : Int} (came : s.watchResume now = some t) :
    Effect s (.watchResume now) t := by
  rw [watchResume] at came
  split at came
  next place =>
    cases came
    exact .watchCancelled place
  next place =>
    split at came
    next heard =>
      cases came
      exact .watchesOn place heard
    next late =>
      cases socket : s.agent.socketOpen with
      | true =>
        rw [if_pos socket] at came
        cases came
        exact .watchDisconnects place (Int.not_lt.mp late) socket
      | false =>
        rw [if_neg (by simp [socket])] at came
        cases came
        exact .watchClosed place socket
  all_goals cases came

/-- The effects are all that a step can do. -/
theorem step_effect (moved : Step s move t) : Effect s move t := by
  cases move with
  | readTest built =>
    obtain ⟨place, is⟩ := Option.ite_none_right_eq_some.mp moved
    cases is
    exact .readTest place
  | decode result =>
    obtain ⟨place, is⟩ := Option.ite_none_right_eq_some.mp moved
    cases is
    exact .decode place
  | readResume now handled => exact readResume_effect moved
  | writeTest =>
    obtain ⟨place, is⟩ := Option.ite_none_right_eq_some.mp moved
    cases is
    exact .writeTest place
  | receive fails =>
    obtain ⟨place, came⟩ := Option.ite_none_right_eq_some.mp moved
    exact receive_effect place came
  | encode result =>
    simp only [Step, next] at moved
    split at moved
    next pkg place =>
      cases moved
      exact .encode place
    next => cases moved
  | writeResume => exact writeResume_effect moved
  | watchStart =>
    obtain ⟨place, is⟩ := Option.ite_none_right_eq_some.mp moved
    cases is
    exact .watchStart place
  | expire ec =>
    obtain ⟨⟨place, early⟩, is⟩ := Option.ite_none_right_eq_some.mp moved
    cases is
    exact .expire place early
  | watchResume now => exact watchResume_effect moved
  | watchThrow =>
    obtain ⟨on, is⟩ := Option.ite_none_left_eq_some.mp moved
    cases is
    exact .watchThrow fun off => on (.inr off)
  | sendPackage pkg =>
    cases moved
    exact .sendPackage
  | setPlayer player =>
    cases moved
    exact .setPlayer
  | disconnect =>
    cases moved
    exact .disconnect

end

/-- All three coroutines have ended. -/
def Over (s : Session) : Prop :=
  (∃ threw, s.read = .finished threw) ∧ s.write = .finished ∧ s.watch = .finished

/-- `Disconnect` was executed, and has closed the socket and both channels. -/
structure Disconnected (s : Session) : Prop where
  executed : s.disconnects ≠ 0
  socket : s.agent.socketOpen = false
  channel : s.agent.channelOpen = false
  output : s.agent.outputOpen = false

/-- Only `Disconnect` closes anything, and it closes everything; the coroutine
`WritePackage` does not end before. -/
structure Sound (s : Session) : Prop where
  channel : s.agent.channelOpen = s.agent.socketOpen
  output : s.agent.outputOpen = s.agent.socketOpen
  executed : s.agent.socketOpen = false → s.disconnects ≠ 0
  writes : s.write = .finished → s.agent.socketOpen = false

variable {s later : Session} {move : SessionMove}

theorem Sound.start (address : String) (unixTime receiveTime expiration : Int)
    (handler : IAgentHandler) :
    (start address unixTime receiveTime expiration handler).Sound :=
  ⟨rfl, rfl, nofun, nofun⟩

/-- A coroutine that goes on to another place closes nothing. -/
theorem Sound.keep (sound : s.Sound) {t : Session}
    (agent : t.agent.socketOpen = s.agent.socketOpen ∧
      t.agent.channelOpen = s.agent.channelOpen ∧ t.agent.outputOpen = s.agent.outputOpen)
    (count : t.disconnects = s.disconnects)
    (writes : t.write = .finished → s.write = .finished ∨ s.agent.socketOpen = false) :
    t.Sound := by
  obtain ⟨socket, channel, output⟩ := agent
  constructor
  · rw [channel, socket, sound.channel]
  · rw [output, socket, sound.output]
  · rw [socket, count]
    exact sound.executed
  · intro finished
    rw [socket]
    rcases writes finished with before | closed
    · exact sound.writes before
    · exact closed

theorem Sound.disconnect (s : Session) : s.disconnect.Sound :=
  ⟨rfl, rfl, fun _ => Nat.succ_ne_zero _, fun _ => rfl⟩

theorem Sound.endRead (sound : s.Sound) (threw : Bool) : (s.endRead threw).Sound :=
  sound.keep ⟨rfl, rfl, rfl⟩ rfl .inl

theorem Sound.endWatch (sound : s.Sound) : s.endWatch.Sound := sound.keep ⟨rfl, rfl, rfl⟩ rfl .inl

theorem Sound.endWrite (sound : s.Sound) (closed : s.agent.socketOpen = false) :
    s.endWrite.Sound :=
  sound.keep ⟨rfl, rfl, rfl⟩ rfl fun _ => .inr closed

theorem Sound.readTest (sound : s.Sound) (built : Built) : (s.readTest built).Sound := by
  simp only [Session.readTest]
  split
  · exact sound.endRead false
  · cases built with
    | package => exact sound.keep ⟨rfl, rfl, rfl⟩ rfl .inl
    | null => exact sound.endRead false
    | threw => exact (Sound.disconnect s).endRead false

theorem Sound.handle (sound : s.Sound) (handled : Handled) : (s.handle handled).Sound := by
  have before : (if handled.disconnects then s.disconnect else s).Sound := by
    split
    · exact .disconnect s
    · exact sound
  rw [Session.handle]
  cases handled.thrown with
  | none => exact before.keep ⟨rfl, rfl, rfl⟩ rfl .inl
  | some thrown =>
    cases thrown with
    | standard => exact (Sound.disconnect _).endRead false
    | other => exact before.endRead true

theorem Sound.receivePackage (sound : s.Sound) (pkg : FPacket) (now : Int) (handled : Handled) :
    (s.receivePackage pkg now handled).Sound := by
  have timed : ({ s with receiveTime := now } : Session).Sound :=
    sound.keep ⟨rfl, rfl, rfl⟩ rfl .inl
  rw [Session.receivePackage]
  split
  · exact sound.handle handled
  · dsimp only
    split
    · exact sound.keep ⟨rfl, rfl, rfl⟩ rfl .inl
    · exact sound.keep ⟨rfl, rfl, rfl⟩ rfl .inl
    · exact timed.handle handled
    · exact timed.handle handled

theorem Sound.writeTest (sound : s.Sound) : s.writeTest.Sound := by
  rw [Session.writeTest]
  split
  next => exact sound.keep ⟨rfl, rfl, rfl⟩ rfl nofun
  next closed =>
    apply sound.endWrite
    simpa [sound.output] using closed

theorem Sound.watchStart (sound : s.Sound) : s.watchStart.Sound := by
  rw [Session.watchStart]
  split
  · exact sound.endWatch
  · exact sound.keep ⟨rfl, rfl, rfl⟩ rfl .inl

/-- A coroutine goes on, or ends, the output coroutine after a `Disconnect` of its own. -/
theorem Sound.step (sound : s.Sound) (moved : Step s move later) : later.Sound := by
  cases step_effect moved with
  | @readTest built place => exact sound.readTest built
  | @readPackage now handled pkg place => exact sound.receivePackage pkg now handled
  | readFails place failed => exact (Sound.disconnect s).endRead false
  | writeTest place => exact sound.writeTest
  | receiveFails | receives | encode | encodes | writesOn =>
    exact sound.keep ⟨rfl, rfl, rfl⟩ rfl nofun
  | writeFails | writesLast => exact (Sound.disconnect s).endWrite rfl
  | watchStart place => exact sound.watchStart
  | watchCancelled | watchClosed | watchThrow => exact sound.endWatch
  | watchDisconnects => exact (Sound.disconnect s).endWatch
  | decode | expire | watchesOn | setPlayer => exact sound.keep ⟨rfl, rfl, rfl⟩ rfl .inl
  | @sendPackage pkg =>
    refine sound.keep ?_ rfl .inl
    simp only [UPlayerAgent.offer]
    split <;> exact ⟨rfl, rfl, rfl⟩
  | disconnect => exact .disconnect s

theorem Sound.disconnected (sound : s.Sound) (ended : s.Over) : s.Disconnected := by
  have socket := sound.writes ended.2.1
  exact ⟨sound.executed socket, socket, sound.channel.trans socket, sound.output.trans socket⟩

open Transition in
/-- However the three coroutines run and end, a session that is over is disconnected. -/
theorem over_always_disconnected (address : String) (unixTime receiveTime expiration : Int)
    (handler : IAgentHandler) {path : List (SessionMove × Session)}
    (run : Path Step (start address unixTime receiveTime expiration handler) path) :
    Always (fun s => s.Over → s.Disconnected)
      (start address unixTime receiveTime expiration handler) path := by
  have initial := Sound.start address unixTime receiveTime expiration handler
  have always := run.invariant (fun sound moved => Sound.step sound moved) initial
  exact always.imp fun s sound ended => sound.disconnected ended

/-- The pool gives no package, so the read loop ends without a word; the others
are cancelled, and the output coroutine disconnects. -/
theorem over_always_disconnected_null :
    let s := start "127.0.0.1" 7 0 30 (plainFactory.createAgentHandler 0)
    Transition.Always (fun s => s.Over → s.Disconnected) s (s.runs [.watchStart, .writeTest,
      .readTest .null, .receive true, .expire true, .writeResume, .watchResume 1]) :=
  over_always_disconnected _ _ _ _ _ (runs_path _ _)

end Session
end Uranus
