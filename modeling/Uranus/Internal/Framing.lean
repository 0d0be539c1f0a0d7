import Uranus.Internal.PacketCodec

/-! Framing of a packet stream. A frame is read back in step with its writer
exactly when the vectors on both sides already have the length of the data:
neither `SetData` nor `DecodeT` gives a vector the size its header states. -/
namespace Uranus
open Foundation.ByteOrder

/-- A packet on its way: what the sender sets, and the objects it travels
between. Both may hold arbitrary earlier contents. -/
structure Frame where
  magic : UInt32
  id : UInt32
  source : Int32
  target : Int32
  data : List UInt8
  short : data.length ≤ 4096 * 1024
  sender : FPacket
  receiver : FPacket

namespace Frame

/-- The packet as the setters leave it. -/
def packet (frame : Frame) : FPacket :=
  ((((frame.sender.setMagic frame.magic).setPackageID frame.id).setSource frame.source).setTarget
    frame.target).setData frame.data

def contents (frame : Frame) : FPacket.Contents :=
  ⟨frame.magic, frame.id, frame.source, frame.target, frame.data⟩

def InStep (frame : Frame) : Prop :=
  frame.receiver.payload.size = frame.data.length ∧
    (frame.data = [] ∨ frame.sender.payload.size = frame.data.length)

end Frame

/-- `EncodeT` of every packet in turn; nothing when some call returns false. -/
def encodeAll : List FPacket → List UInt8 → Option (List UInt8)
  | [], stream => some stream
  | pkg :: rest, stream =>
    match encodeT pkg stream with
    | (true, stream) => encodeAll rest stream
    | (false, _) => none

/-- `DecodeT` into every packet in turn; nothing when some call returns false. -/
def decodeAll : List FPacket → List UInt8 → Option (List FPacket × List UInt8)
  | [], stream => some ([], stream)
  | pkg :: rest, stream =>
    match decodeT pkg stream with
    | (true, pkg, stream) => (decodeAll rest stream).map fun (pkgs, stream) => (pkg :: pkgs, stream)
    | (false, _, _) => none

/-- Every call succeeds, the contents come out as they went in, and the stream
is used up. -/
def RoundTrips (frames : List Frame) : Prop :=
  ∃ stream packets, encodeAll (frames.map Frame.packet) [] = some stream ∧
    decodeAll (frames.map Frame.receiver) stream = some (packets, []) ∧
    packets.map FPacket.contents = frames.map Frame.contents

theorem encodeAll_append (pkgs : List FPacket) (stream : List UInt8) :
    encodeAll pkgs stream = (encodeAll pkgs []).map (stream ++ ·) := by
  induction pkgs generalizing stream with
  | nil => simp [encodeAll]
  | cons pkg rest ih =>
    simp only [encodeAll]
    rw [encodeT_stream pkg stream, encodeT_stream pkg []]
    cases (encodeT pkg []).1 with
    | false => rfl
    | true =>
      dsimp only
      rw [ih, ih ([] ++ written pkg)]
      cases encodeAll rest [] with
      | none => rfl
      | some tail => simp [List.append_assoc]

theorem encodeAll_cons {pkg : FPacket} {rest : List FPacket} {stream : List UInt8} :
    encodeAll (pkg :: rest) [] = some stream ↔
      (encodeT pkg []).1 = true ∧ ∃ tail, encodeAll rest [] = some tail ∧
        stream = written pkg ++ tail := by
  simp only [encodeAll]
  rw [encodeT_stream pkg []]
  cases (encodeT pkg []).1 with
  | false => simp
  | true =>
    dsimp only
    rw [encodeAll_append, List.nil_append]
    simp only [Option.map_eq_some_iff, true_and]
    exact exists_congr fun tail => and_congr_right fun _ => eq_comm

theorem decodeAll_cons {pkg : FPacket} {rest packets : List FPacket} {stream : List UInt8} :
    decodeAll (pkg :: rest) stream = some (packets, []) ↔
      ∃ first tail others, decodeT pkg stream = (true, first, tail) ∧
        decodeAll rest tail = some (others, []) ∧ packets = first :: others := by
  rcases decoded : decodeT pkg stream with ⟨ok, first, tail⟩
  cases ok with
  | false => simp [decodeAll, decoded]
  | true =>
    simp only [decodeAll, decoded, Option.map_eq_some_iff, Prod.mk.injEq, true_and]
    constructor
    · rintro ⟨⟨others, left⟩, run, same, rfl⟩
      exact ⟨first, tail, others, ⟨rfl, rfl⟩, run, same.symm⟩
    · rintro ⟨_, _, others, ⟨rfl, rfl⟩, run, same⟩
      exact ⟨(others, []), run, same.symm, rfl⟩

section Packets
variable {frame : Frame} {frames : List Frame}

theorem packet_length (frame : Frame) :
    frame.packet.header.length.toNat = frame.data.length := by
  have short := frame.short
  simp only [Frame.packet, FPacket.setData, UInt64.toNat_ofNat']
  omega

theorem packet_length_zero (frame : Frame) :
    frame.packet.header.length = 0 ↔ frame.data = [] := by
  rw [← UInt64.toNat_inj, packet_length, List.eq_nil_iff_length_eq_zero]
  rfl

theorem packet_length_short (frame : Frame) :
    frame.packet.header.length ≤ maximumPayload := by
  rw [UInt64.le_iff_toNat_le, packet_length]
  exact frame.short

theorem packet_payload (frame : Frame) :
    frame.packet.payload = frame.sender.payload.fromString frame.data := rfl

/-- A single decoded frame, by cases on its data. -/
theorem decode_packet (frame : Frame) (tail : List UInt8) :
    decodeT frame.receiver (frame.packet.header.toNetwork.toMemory ++ tail) =
      if frame.data = [] then (true, ⟨frame.packet.header, frame.receiver.payload⟩, tail)
      else (decide (frame.receiver.payload.size ≤ tail.length ∧
          frame.data.length ≤ frame.receiver.payload.size),
        ⟨frame.packet.header,
          ⟨overlay frame.receiver.payload.bytes (tail.take frame.receiver.payload.size)⟩⟩,
        tail.drop frame.receiver.payload.size) := by
  have short : ¬ frame.packet.header.length > maximumPayload :=
    UInt64.not_lt.mpr (packet_length_short frame)
  simp only [decodeT_header, packet_length_zero, short, if_false, packet_length]

theorem written_in_step (inStep : frame.InStep) :
    written frame.packet = frame.packet.header.toNetwork.toMemory ++ frame.data := by
  by_cases empty : frame.data = []
  · rw [written_empty ((packet_length_zero frame).mpr empty), empty, List.append_nil]
  · rw [written_payload (mt (packet_length_zero frame).mp empty) (packet_length_short frame),
      packet_payload]
    have size := inStep.2.resolve_left empty
    exact congrArg _ (overlay_full size.symm)

theorem encode_in_step (inStep : frame.InStep) : (encodeT frame.packet []).1 = true := by
  rw [encodeT_accepts]
  by_cases empty : frame.data = []
  · exact Or.inl ((packet_length_zero frame).mpr empty)
  · right
    apply And.intro (packet_length_short frame)
    have size := inStep.2.resolve_left empty
    intro none
    have : frame.packet.payload.size = 0 := by simp [FByteArray.size, none]
    rw [packet_payload, FByteArray.fromString_size, size] at this
    exact empty (List.length_eq_zero_iff.mp this)

theorem decode_in_step (inStep : frame.InStep) (tail : List UInt8) :
    decodeT frame.receiver (written frame.packet ++ tail) =
      (true, ⟨frame.packet.header, ⟨frame.data⟩⟩, tail) := by
  rw [written_in_step inStep, List.append_assoc, decode_packet]
  have size := inStep.1
  by_cases empty : frame.data = []
  · have none : frame.receiver.payload = ⟨frame.data⟩ := by
      have : frame.receiver.payload.bytes = [] := by
        simpa [FByteArray.size, empty] using size
      cases held : frame.receiver.payload with
      | mk bytes => simpa [held, empty] using this
    simp [empty, none]
  · simp [empty, size, overlay_full size.symm]

/-- A frame in step can be taken off the front of a stream. -/
theorem roundTrips_cons (inStep : frame.InStep) :
    RoundTrips (frame :: frames) ↔ RoundTrips frames := by
  have same : FPacket.contents ⟨frame.packet.header, ⟨frame.data⟩⟩ = frame.contents := rfl
  constructor
  · rintro ⟨stream, packets, sent, received, read⟩
    obtain ⟨_, tail, encoded, rfl⟩ := encodeAll_cons.mp sent
    obtain ⟨first, left, others, step, decoded, rfl⟩ := decodeAll_cons.mp received
    rw [decode_in_step inStep] at step
    cases step
    simp only [List.map_cons, List.cons.injEq] at read
    exact ⟨tail, others, encoded, decoded, read.2⟩
  · rintro ⟨tail, others, encoded, decoded, read⟩
    refine ⟨_, _, encodeAll_cons.mpr ⟨encode_in_step inStep, tail, encoded, rfl⟩,
      decodeAll_cons.mpr ⟨_, tail, others, decode_in_step inStep tail, decoded, rfl⟩, ?_⟩
    simp only [List.map_cons, same, read]

theorem roundTrips_of_inStep (inStep : ∀ frame ∈ frames, frame.InStep) : RoundTrips frames := by
  induction frames with
  | nil => exact ⟨[], [], rfl, rfl, rfl⟩
  | cons frame rest ih =>
    exact (roundTrips_cons (inStep frame (by simp))).mpr
      (ih fun other member => inStep other (List.mem_cons_of_mem _ member))

/-- A frame that is alone on its stream round-trips only when it is in step. -/
theorem inStep_of_single (alone : RoundTrips [frame]) : frame.InStep := by
  obtain ⟨stream, packets, sent, received, read⟩ := alone
  obtain ⟨_, tail, encoded, rfl⟩ := encodeAll_cons.mp sent
  cases encoded
  obtain ⟨first, left, others, step, decoded, rfl⟩ := decodeAll_cons.mp received
  obtain ⟨rfl, rfl⟩ : [] = others ∧ left = [] := by simpa [decodeAll] using decoded
  have payload : first.payload.bytes = frame.data := by
    have := (List.cons.inj read).1
    exact congrArg FPacket.Contents.payload this
  by_cases empty : frame.data = []
  · rw [written_empty ((packet_length_zero frame).mpr empty), decode_packet, if_pos empty] at step
    cases step
    exact ⟨congrArg List.length payload, Or.inl empty⟩
  · rw [written_payload (mt (packet_length_zero frame).mp empty) (packet_length_short frame),
      List.append_nil, decode_packet, if_neg empty] at step
    simp only [Prod.mk.injEq, decide_eq_true_eq] at step
    obtain ⟨⟨available, enough⟩, rfl, used⟩ := step
    have size : frame.receiver.payload.size = frame.data.length := by
      rw [← payload]
      exact (overlay_length _ _).symm
    have consumed : frame.sender.payload.size ≤ frame.receiver.payload.size := by
      have := List.drop_eq_nil_iff.mp used
      rw [packet_payload] at this
      simpa [FByteArray.size, FByteArray.fromString] using this
    have available : frame.receiver.payload.size ≤ frame.sender.payload.size := by
      rw [packet_payload] at available
      simpa [FByteArray.size, FByteArray.fromString] using available
    exact ⟨size, Or.inr (by omega)⟩

/-- The encoder refuses non-empty data in a packet whose vector was never
given a size: only the header reaches the stream. -/
theorem encode_unsized (unsized : frame.sender.payload.bytes = [])
    (accepted : (encodeT frame.packet []).1 = true) : frame.data = [] := by
  rcases (encodeT_accepts _).mp accepted with zero | ⟨_, some⟩
  · exact (packet_length_zero frame).mp zero
  · have none : frame.packet.payload.bytes = [] := by
      rw [packet_payload]
      simp [FByteArray.fromString, overlay, unsized]
    exact absurd none some

theorem roundTrips_unsized (unsized : ∀ frame ∈ frames, frame.sender.payload.bytes = []) :
    RoundTrips frames ↔ ∀ frame ∈ frames, frame.data = [] ∧ frame.receiver.payload.bytes = [] := by
  constructor
  · intro trips
    induction frames with
    | nil => simp
    | cons frame rest ih =>
      have inStep : frame.data = [] ∧ frame.receiver.payload.bytes = [] := by
        obtain ⟨stream, packets, sent, received, read⟩ := trips
        obtain ⟨accepted, tail, encoded, rfl⟩ := encodeAll_cons.mp sent
        obtain ⟨first, left, others, step, decoded, rfl⟩ := decodeAll_cons.mp received
        have empty := encode_unsized (unsized frame (by simp)) accepted
        rw [written_empty ((packet_length_zero frame).mpr empty), decode_packet, if_pos empty]
          at step
        cases step
        exact ⟨empty, (congrArg FPacket.Contents.payload (List.cons.inj read).1).trans empty⟩
      have rest := ih (fun other member => unsized other (List.mem_cons_of_mem _ member))
        ((roundTrips_cons ⟨by simp [FByteArray.size, inStep], Or.inl inStep.1⟩).mp trips)
      simpa using ⟨inStep, rest⟩
  · intro empty
    apply roundTrips_of_inStep
    intro frame member
    obtain ⟨data, receiver⟩ := empty frame member
    exact ⟨by simp [FByteArray.size, data, receiver], Or.inl data⟩

/-- The framing stays in step over a list of packets, prefix by prefix, exactly
when every vector already has the length of its data. For packets whose vector
no one resized, that leaves the lists of empty packets read into empty ones. -/
theorem framing_round_trip_iff (frames : List Frame) :
    ((∀ count, RoundTrips (frames.take count)) ↔ ∀ frame ∈ frames, frame.InStep) ∧
    ((∀ frame ∈ frames, frame.sender.payload.bytes = []) →
      (RoundTrips frames ↔
        ∀ frame ∈ frames, frame.data = [] ∧ frame.receiver.payload.bytes = [])) := by
  refine ⟨⟨?_, ?_⟩, roundTrips_unsized⟩
  · intro trips
    induction frames with
    | nil => simp
    | cons frame rest ih =>
      have first : frame.InStep := inStep_of_single (trips 1)
      have others := ih fun count =>
        (roundTrips_cons first).mp (by simpa using trips (count + 1))
      simpa using ⟨first, others⟩
  · intro inStep count
    exact roundTrips_of_inStep fun frame member => inStep frame (List.mem_of_mem_take member)

end Packets

/-- One byte of data in a freshly constructed packet. -/
def oneByte : Frame where
  magic := packetMagic
  id := 2001
  source := -3
  target := -2
  data := [97]
  short := by decide
  sender := .new
  receiver := .new

theorem oneByte_lost : ¬ RoundTrips [oneByte] := by
  rintro ⟨stream, packets, sent, _⟩
  have refused : (encodeT oneByte.packet []).1 = false := by decide
  obtain ⟨accepted, _⟩ := encodeAll_cons.mp sent
  rw [refused] at accepted
  contradiction

end Uranus
