import Uranus.Internal.PacketCodec
import Uranus.Foundation.Path
import Mathlib.Logic.Function.Basic

/-! The two lengths of a packet: the one its header states and the one its vector
has. `SetData` writes only the first, `Clear` only the second, and no operation
ever gives a fresh vector a size, so the two agree just as long as nobody stores
any data. -/
namespace Uranus
open Foundation.Transition

namespace FPacket

def getPayloadLength (pkt : FPacket) : Nat := pkt.payload.size

def toString (pkt : FPacket) : List UInt8 := pkt.payload.bytes

theorem initial_payload (pkt : FPacket) : pkt.initial.payload = pkt.payload := by
  rw [initial]

theorem initial_length (pkt : FPacket) : pkt.initial.header.length = pkt.header.length := by
  have field (header : FHeader) (id : UInt32) (source target : Int32) :
      ({ header with id, source, target } : FHeader).length = header.length := rfl
  exact field pkt.header (minimumPackageId - 1) (-1) (-1)

end FPacket

inductive PacketCall where
  | onCreate
  | initial
  | clear
  | reset
  | setData (str : List UInt8)
  | copyFrom (other : Nat)
  | decodeT (stream : List UInt8)
deriving DecidableEq

/-- A packet beside the bytes that its last writer was given. -/
structure Written where
  packet : FPacket
  data : List UInt8
deriving DecidableEq

namespace Written

def constructed : Written := ⟨FPacket.new, []⟩

/-- The packets of a process by their addresses. -/
abbrev Packets := Nat → Written

def fresh : Packets := fun _ => constructed

/-- A call on the packet `i`; a `DecodeT` that fails is no step. -/
def call (packets : Packets) (i : Nat) : PacketCall → Option Written
  | .onCreate => some { packets i with packet := (packets i).packet.onCreate }
  | .initial => some { packets i with packet := (packets i).packet.initial }
  | .clear => some ⟨(packets i).packet.clear, []⟩
  | .reset => some ⟨(packets i).packet.reset, []⟩
  | .setData str => some ⟨(packets i).packet.setData str, str⟩
  | .copyFrom other =>
    if other = i then
      some { packets i with packet := ((packets i).packet.copyFrom none).1 }
    else
      some ⟨((packets i).packet.copyFrom (some (packets other).packet)).1, (packets other).data⟩
  | .decodeT stream =>
    match Uranus.decodeT (packets i).packet stream with
    | (false, _, _) => none
    | (true, packet, _) =>
      some ⟨packet, (stream.drop packageHeaderSize).take packet.header.length.toNat⟩

def next (packets : Packets) (called : Nat × PacketCall) : Option Packets :=
  (call packets called.1 called.2).map (Function.update packets called.1)

def step (packets : Packets) (called : Nat × PacketCall) (after : Packets) : Prop :=
  next packets called = some after

/-- The header states the size of the vector, and the vector holds what was written last. -/
def InStep (written : Written) : Prop :=
  written.packet.header.length.toNat = written.packet.payload.size ∧
    written.packet.header.length.toNat = written.packet.getPayloadLength ∧
    written.packet.toString = written.data

instance (written : Written) : Decidable written.InStep :=
  inferInstanceAs (Decidable (_ ∧ _ ∧ _))

def AllInStep (packets : Packets) : Prop := ∀ i, (packets i).InStep

def Unsized (packets : Packets) : Prop := ∀ i, (packets i).packet.payload.bytes = []

/-- A call that stores no data. -/
def StoresNothing (_ : Packets) (called : Nat × PacketCall) : Prop :=
  ∀ str, called.2 = .setData str → str = []

theorem constructed_inStep : constructed.InStep := by decide

variable {packets after : Packets} {called : Nat × PacketCall}

theorem step_cases (moved : step packets called after) :
    ∃ written, call packets called.1 called.2 = some written ∧
      after = Function.update packets called.1 written := by
  obtain ⟨written, ran, rfl⟩ := Option.map_eq_some_iff.mp moved
  exact ⟨written, ran, rfl⟩

/-- `DecodeT` succeeds into an unsized packet only when the header announces nothing. -/
theorem decodeT_unsized {pkg packet : FPacket} {stream rest : List UInt8}
    (unsized : pkg.payload.bytes = []) (decoded : decodeT pkg stream = (true, packet, rest)) :
    packet.header.length = 0 ∧ packet.payload.bytes = [] := by
  have empty : pkg.payload.size = 0 := by simp [FByteArray.size, unsized]
  simp only [decodeT, asyncRead, empty] at decoded
  split at decoded
  · cases decoded
  split at decoded
  next nothing =>
    cases decoded
    exact ⟨UInt64.le_zero_iff.mp nothing, unsized⟩
  next something =>
    split at decoded
    · cases decoded
    split at decoded
    · cases decoded
    split at decoded
    · cases decoded
    next enough =>
      have positive : (FHeader.ofMemory (overlay pkg.header.toMemory
          (stream.take packageHeaderSize))).toHost.length.toNat ≠ 0 := by
        intro zero
        exact something (UInt64.le_zero_iff.mpr (UInt64.toNat_inj.mp zero))
      simp only [List.take_zero, List.length_nil] at enough
      omega

theorem call_unsized (unsized : Unsized packets) {i : Nat} {action : PacketCall} {written : Written}
    (ran : call packets i action = some written) : written.packet.payload.bytes = [] := by
  cases action with
  | onCreate =>
    cases ran
    exact unsized i
  | initial =>
    cases ran
    rw [FPacket.initial_payload]
    exact unsized i
  | clear | reset =>
    cases ran
    rfl
  | setData str =>
    cases ran
    simp [FPacket.setData, FByteArray.fromString, overlay, unsized i]
  | copyFrom other =>
    simp only [call] at ran
    split at ran
    · cases ran
      exact unsized i
    · cases ran
      exact unsized other
  | decodeT stream =>
    simp only [call] at ran
    split at ran
    · cases ran
    next packet rest decoded =>
      cases ran
      exact (decodeT_unsized (unsized i) decoded).2

theorem step_unsized (unsized : Unsized packets) (moved : step packets called after) :
    Unsized after := by
  obtain ⟨written, ran, rfl⟩ := step_cases moved
  intro i
  by_cases own : i = called.1
  · subst own
    rw [Function.update_self]
    exact call_unsized unsized ran
  · rw [Function.update_of_ne own]
    exact unsized i

/-- Among unsized packets those in step state a zero length and were given no bytes. -/
theorem inStep_unsized {written : Written} (unsized : written.packet.payload.bytes = []) :
    written.InStep ↔ written.packet.header.length = 0 ∧ written.data = [] := by
  simp only [InStep, FPacket.getPayloadLength, FPacket.toString, FByteArray.size, unsized,
    List.length_nil, and_self_left, ← UInt64.toNat_inj, eq_comm (a := ([] : List UInt8))]
  rfl

theorem call_inStep (unsized : Unsized packets) (before : AllInStep packets)
    (nothing : StoresNothing packets called) {written : Written}
    (ran : call packets called.1 called.2 = some written) : written.InStep := by
  rw [inStep_unsized (call_unsized unsized ran)]
  have own := (inStep_unsized (unsized called.1)).mp (before called.1)
  obtain ⟨i, action⟩ := called
  cases action with
  | onCreate =>
    cases ran
    exact own
  | initial =>
    cases ran
    rw [FPacket.initial_length]
    exact own
  | clear =>
    cases ran
    exact ⟨own.1, rfl⟩
  | reset =>
    cases ran
    exact ⟨rfl, rfl⟩
  | setData str =>
    cases nothing str rfl
    cases ran
    exact ⟨rfl, rfl⟩
  | copyFrom other =>
    simp only [call] at ran
    split at ran
    · cases ran
      exact own
    · cases ran
      exact (inStep_unsized (unsized other)).mp (before other)
  | decodeT stream =>
    simp only [call] at ran
    split at ran
    · cases ran
    next packet rest decoded =>
      cases ran
      have length := (decodeT_unsized (unsized i) decoded).1
      exact ⟨length, by simp [length]⟩

theorem step_inStep (unsized : Unsized packets) (before : AllInStep packets)
    (nothing : StoresNothing packets called) (moved : step packets called after) :
    AllInStep after := by
  obtain ⟨written, ran, rfl⟩ := step_cases moved
  intro i
  by_cases own : i = called.1
  · subst own
    rw [Function.update_self]
    exact call_inStep unsized before nothing ran
  · rw [Function.update_of_ne own]
    exact before i

/-- What `SetData` is given to store never arrives. -/
theorem step_outOfStep (unsized : Unsized packets) (something : ¬ StoresNothing packets called)
    (moved : step packets called after) : ¬ AllInStep after := by
  intro inStep
  have empty := step_unsized unsized moved
  obtain ⟨written, ran, rfl⟩ := step_cases moved
  obtain ⟨i, action⟩ := called
  apply something
  rintro str rfl
  cases ran
  exact ((inStep_unsized (empty i)).mp (inStep i)).2 ▸ by simp

/-- In a run from construction the two lengths agree and the data can be read
back in every state exactly when `SetData` is only ever given the empty string. -/
theorem allInStep_iff_storesNothing {path : List ((Nat × PacketCall) × Packets)}
    (run : Path step fresh path) :
    Always AllInStep fresh path ↔ Every StoresNothing fresh path := by
  apply run.always_iff_every (J := Unsized)
  · exact fun unsized moved => step_unsized unsized moved
  · exact fun unsized before nothing moved => step_inStep unsized before nothing moved
  · exact fun unsized _ something moved => step_outOfStep unsized something moved
  · exact fun _ => rfl
  · exact fun _ => constructed_inStep

theorem allInStep_iff_storesNothing_copied :
    Always AllInStep fresh
      (trace next fresh [(0, .onCreate), (0, .setData []), (1, .copyFrom 0), (0, .clear)]) := by
  apply (allInStep_iff_storesNothing (trace_path (fun moved => moved) _)).mpr
  refine ⟨?_, ?_, ?_, ?_, trivial⟩
  all_goals
    rintro str stored
    cases stored
  rfl

def storedLetter : List ((Nat × PacketCall) × Packets) := trace next fresh [(0, .setData [97])]

theorem storedLetter_outOfStep :
    Path step fresh storedLetter ∧ ¬ Always AllInStep fresh storedLetter := by
  refine ⟨trace_path (fun moved => moved) _, fun inStep => ?_⟩
  have stated : (last fresh storedLetter 0).InStep := inStep.last 0
  exact absurd stated (by decide)

end Written
end Uranus
