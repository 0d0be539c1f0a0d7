import Uranus.Internal.Packet

/-! The packet codec over a byte stream. Writes append every byte of the given
buffers; a read fills its buffer or reports the end of the stream after taking
what is left. The host is little-endian, and `FHeader` has no padding. -/
namespace Uranus
open Foundation.ByteOrder

def packageHeaderSize : Nat := 24
def maximumPayload : UInt64 := 4096 * 1024

def htonl (value : UInt32) : UInt32 := UInt32.ofNat (byteSwap 4 value.toNat)
def ntohl (value : UInt32) : UInt32 := UInt32.ofNat (byteSwap 4 value.toNat)
def htobe64 (value : UInt64) : UInt64 := UInt64.ofNat (byteSwap 8 value.toNat)
def be64toh (value : UInt64) : UInt64 := UInt64.ofNat (byteSwap 8 value.toNat)

theorem htonl_toNat (value : UInt32) : (htonl value).toNat = byteSwap 4 value.toNat := by
  have bound := byteSwap_lt 4 value.toNat
  simp only [htonl, UInt32.toNat_ofNat']
  omega

theorem htobe64_toNat (value : UInt64) : (htobe64 value).toNat = byteSwap 8 value.toNat := by
  have bound := byteSwap_lt 8 value.toNat
  simp only [htobe64, UInt64.toNat_ofNat']
  omega

@[simp] theorem ntohl_htonl (value : UInt32) : ntohl (htonl value) = value := by
  apply UInt32.toNat_inj.mp
  have bound := value.toNat_lt
  rw [ntohl, htonl_toNat, byteSwap_byteSwap (by omega), UInt32.ofNat_toNat]

@[simp] theorem be64toh_htobe64 (value : UInt64) : be64toh (htobe64 value) = value := by
  apply UInt64.toNat_inj.mp
  have bound := value.toNat_lt
  rw [be64toh, htobe64_toNat, byteSwap_byteSwap (by omega), UInt64.ofNat_toNat]

namespace FHeader

/-- The bytes of a header object in memory. -/
def toMemory (header : FHeader) : List UInt8 :=
  littleEndian 4 header.magic.toNat ++ (littleEndian 4 header.id.toNat ++
    (littleEndian 4 header.source.toUInt32.toNat ++
      (littleEndian 4 header.target.toUInt32.toNat ++ littleEndian 8 header.length.toNat)))

def word (bytes : List UInt8) : UInt32 := UInt32.ofNat (ofLittleEndian (bytes.take 4))

/-- The header object that a 24-byte memory image is read as. -/
def ofMemory (bytes : List UInt8) : FHeader where
  magic := word bytes
  id := word (bytes.drop 4)
  source := (word (bytes.drop 8)).toInt32
  target := (word (bytes.drop 12)).toInt32
  length := UInt64.ofNat (ofLittleEndian ((bytes.drop 16).take 8))

@[simp] theorem toMemory_length (header : FHeader) :
    header.toMemory.length = packageHeaderSize := by
  simp [toMemory, packageHeaderSize]

theorem word_littleEndian (value : UInt32) (tail : List UInt8) :
    word (littleEndian 4 value.toNat ++ tail) = value := by
  have fits : value.toNat < 256 ^ 4 := by
    have := value.toNat_lt
    omega
  rw [word, List.take_left' (littleEndian_length _ _), ofLittleEndian_littleEndian fits,
    UInt32.ofNat_toNat]

theorem ofMemory_toMemory (header : FHeader) : ofMemory header.toMemory = header := by
  have fits : header.length.toNat < 256 ^ 8 := by
    have := header.length.toNat_lt
    omega
  have skip (width value : Nat) (tail : List UInt8) (n : Nat) :
      (littleEndian width value ++ tail).drop (width + n) = tail.drop n := by
    rw [← List.drop_drop, List.drop_left' (littleEndian_length _ _)]
  have last : (littleEndian 8 header.length.toNat).take 8 = littleEndian 8 header.length.toNat :=
    List.take_of_length_le (by simp)
  cases header with
  | mk magic id source target length =>
    simp only [toMemory, ofMemory, skip 4 _ _ 0, skip 4 _ _ 4, skip 4 _ _ 8, skip 4 _ _ 12,
      List.drop_zero, word_littleEndian, last, ofLittleEndian_littleEndian fits,
      Int32.toInt32_toUInt32, UInt64.ofNat_toNat]

/-- Host to network order, field by field, as `EncodeT` builds the outgoing header. -/
def toNetwork (header : FHeader) : FHeader where
  magic := htonl header.magic
  id := htonl header.id
  source := (htonl header.source.toUInt32).toInt32
  target := (htonl header.target.toUInt32).toInt32
  length := htobe64 header.length

/-- Network to host order, field by field, as `DecodeT` converts the received header. -/
def toHost (header : FHeader) : FHeader where
  magic := ntohl header.magic
  id := ntohl header.id
  source := (ntohl header.source.toUInt32).toInt32
  target := (ntohl header.target.toUInt32).toInt32
  length := be64toh header.length

theorem toHost_toNetwork (header : FHeader) : header.toNetwork.toHost = header := by
  simp [toNetwork, toHost]

end FHeader

/-- `async_read` into a buffer of `size` bytes: the bytes taken, the stream that
is left, and whether the buffer was filled. -/
def asyncRead (stream : List UInt8) (size : Nat) : List UInt8 × List UInt8 × Bool :=
  (stream.take size, stream.drop size, decide (size ≤ stream.length))

/-- The result of `EncodeT` and the stream after its write. -/
def encodeT (pkg : FPacket) (stream : List UInt8) : Bool × List UInt8 :=
  let header := pkg.header.toNetwork
  if pkg.header.length ≤ 0 then
    (header.toMemory.length == packageHeaderSize, stream ++ header.toMemory)
  else if pkg.header.length > maximumPayload then
    (false, stream)
  else
    let buffers := header.toMemory ++ pkg.payload.bytes
    (!(buffers.length ≤ packageHeaderSize), stream ++ buffers)

/-- The result of `DecodeT`, the packet after it and the stream that is left. -/
def decodeT (pkg : FPacket) (stream : List UInt8) : Bool × FPacket × List UInt8 :=
  match asyncRead stream packageHeaderSize with
  | (read, rest, complete) =>
    let raw := FHeader.ofMemory (overlay pkg.header.toMemory read)
    if !complete then
      (false, { pkg with header := raw }, rest)
    else
      let header := raw.toHost
      if header.length ≤ 0 then
        (true, { pkg with header }, rest)
      else if header.length > maximumPayload then
        (false, { pkg with header }, rest)
      else
        -- `Reserve` keeps the size of the vector, so the buffer is as long as
        -- whatever the packet held before.
        match asyncRead rest pkg.payload.size with
        | (read, rest, complete) =>
          let payload : FByteArray := ⟨overlay pkg.payload.bytes read⟩
          if !complete then
            (false, { header, payload }, rest)
          else if read.length < header.length.toNat then
            (false, { header, payload }, rest)
          else
            (true, { header, payload }, rest)

/-- The bytes that `EncodeT` adds to the stream. -/
def written (pkg : FPacket) : List UInt8 := (encodeT pkg []).2

theorem encodeT_stream (pkg : FPacket) (stream : List UInt8) :
    encodeT pkg stream = ((encodeT pkg []).1, stream ++ written pkg) := by
  unfold written encodeT
  dsimp only
  split
  · simp
  · split <;> simp

theorem encodeT_accepts (pkg : FPacket) : (encodeT pkg []).1 = true ↔
    pkg.header.length = 0 ∨ pkg.header.length ≤ maximumPayload ∧ pkg.payload.bytes ≠ [] := by
  have empty : pkg.header.length ≤ 0 ↔ pkg.header.length = 0 := UInt64.le_zero_iff
  unfold encodeT
  dsimp only
  by_cases zero : pkg.header.length = 0
  · simp [zero]
  · by_cases long : pkg.header.length > maximumPayload
    · simp [empty, zero, long]
    · have short : pkg.header.length ≤ maximumPayload := UInt64.not_lt.mp long
      simp [empty, zero, long, short]

theorem written_empty {pkg : FPacket} (zero : pkg.header.length = 0) :
    written pkg = pkg.header.toNetwork.toMemory := by
  simp [written, encodeT, zero]

theorem written_payload {pkg : FPacket} (nonzero : pkg.header.length ≠ 0)
    (short : pkg.header.length ≤ maximumPayload) :
    written pkg = pkg.header.toNetwork.toMemory ++ pkg.payload.bytes := by
  have positive : ¬ pkg.header.length ≤ 0 := fun h => nonzero (UInt64.le_zero_iff.mp h)
  have bounded : ¬ pkg.header.length > maximumPayload := UInt64.not_lt.mpr short
  simp [written, encodeT, positive, bounded]

/-- Whatever the target packet held, reading an encoded header gives back the
header, and the size of its old payload decides how much is read after it. -/
theorem decodeT_header (pkg : FPacket) (header : FHeader) (tail : List UInt8) :
    decodeT pkg (header.toNetwork.toMemory ++ tail) =
      if header.length = 0 then (true, ⟨header, pkg.payload⟩, tail)
      else if header.length > maximumPayload then (false, ⟨header, pkg.payload⟩, tail)
      else (decide (pkg.payload.size ≤ tail.length ∧ header.length.toNat ≤ pkg.payload.size),
        ⟨header, ⟨overlay pkg.payload.bytes (tail.take pkg.payload.size)⟩⟩,
        tail.drop pkg.payload.size) := by
  have length := header.toNetwork.toMemory_length
  have read : asyncRead (header.toNetwork.toMemory ++ tail) packageHeaderSize =
      (header.toNetwork.toMemory, tail, true) := by
    simp [asyncRead, List.take_left' length, List.drop_left' length, length]
  have raw : (FHeader.ofMemory (overlay pkg.header.toMemory header.toNetwork.toMemory)).toHost =
      header := by
    rw [overlay_full (by simp), FHeader.ofMemory_toMemory, FHeader.toHost_toNetwork]
  have empty : header.length ≤ 0 ↔ header.length = 0 := UInt64.le_zero_iff
  simp only [decodeT, read, raw, Bool.not_true, Bool.false_eq_true, if_false, empty]
  by_cases zero : header.length = 0
  · simp only [zero, if_true]
  · by_cases long : header.length > maximumPayload
    · simp only [zero, long, if_false, if_true]
    · simp only [zero, long, if_false, asyncRead]
      by_cases filled : pkg.payload.size ≤ tail.length
      · by_cases enough : header.length.toNat ≤ pkg.payload.size
        · simp [filled, enough, Nat.not_lt.mpr enough]
        · simp [filled, enough, Nat.lt_of_not_le enough]
      · simp [filled]

end Uranus
