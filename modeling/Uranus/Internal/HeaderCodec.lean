import Uranus.Internal.PacketCodec

/-! The header on the wire: its fields one after another, each with its most
significant byte first, and the signed ones by their two's complement. Encoding
and decoding are inverse to each other on all headers and all 24-byte strings. -/
namespace Uranus
open Foundation.ByteOrder

namespace FHeader

/-- The wire format of a header. -/
def bigEndianFields (header : FHeader) : List UInt8 :=
  bigEndian 4 header.magic.toNat ++ (bigEndian 4 header.id.toNat ++
    (bigEndian 4 header.source.toUInt32.toNat ++
      (bigEndian 4 header.target.toUInt32.toNat ++ bigEndian 8 header.length.toNat)))

theorem toMemory_toNetwork (header : FHeader) :
    header.toNetwork.toMemory = header.bigEndianFields := by
  simp only [toNetwork, toMemory, bigEndianFields, UInt32.toUInt32_toInt32, htonl_toNat,
    htobe64_toNat, littleEndian_byteSwap]

theorem htonl_ntohl (value : UInt32) : htonl (ntohl value) = value := ntohl_htonl value

theorem htobe64_be64toh (value : UInt64) : htobe64 (be64toh value) = value :=
  be64toh_htobe64 value

theorem toNetwork_toHost (header : FHeader) : header.toHost.toNetwork = header := by
  simp only [toHost, toNetwork, UInt32.toUInt32_toInt32, htonl_ntohl, htobe64_be64toh,
    Int32.toInt32_toUInt32]

/-- A number read from exactly `width` bytes is stored as these bytes. -/
theorem littleEndian_read {bytes : List UInt8} {width value : Nat} (full : bytes.length = width)
    (read : value = ofLittleEndian bytes) : littleEndian width value = bytes := by
  rw [read, ← full, littleEndian_ofLittleEndian]

theorem littleEndian_word {bytes : List UInt8} (enough : 4 ≤ bytes.length) :
    littleEndian 4 (word bytes).toNat = bytes.take 4 := by
  have full : (bytes.take 4).length = 4 := by simp [enough]
  apply littleEndian_read full
  have bound := ofLittleEndian_lt (bytes.take 4)
  rw [full] at bound
  simp only [word, UInt32.toNat_ofNat']
  omega

theorem littleEndian_length_field {bytes : List UInt8} (full : bytes.length = 8) :
    littleEndian 8 (UInt64.ofNat (ofLittleEndian bytes)).toNat = bytes := by
  apply littleEndian_read full
  have bound := ofLittleEndian_lt bytes
  rw [full] at bound
  simp only [UInt64.toNat_ofNat']
  omega

/-- A header object is no more than its memory image. -/
theorem toMemory_ofMemory {bytes : List UInt8} (full : bytes.length = packageHeaderSize) :
    (ofMemory bytes).toMemory = bytes := by
  have size : bytes.length = 24 := full
  have last : (bytes.drop 16).take 8 = bytes.drop 16 :=
    List.take_of_length_le (by simp [size])
  have rest (n : Nat) : (bytes.drop n).take 4 ++ bytes.drop (n + 4) = bytes.drop n := by
    rw [← List.drop_drop, List.take_append_drop]
  simp only [ofMemory, toMemory, UInt32.toUInt32_toInt32, last]
  rw [littleEndian_word (by omega), littleEndian_word (by simp [size]),
    littleEndian_word (by simp [size]), littleEndian_word (by simp [size]),
    littleEndian_length_field (by simp [size]), rest 12, rest 8, rest 4, List.take_append_drop]

end FHeader

variable {pkg : FPacket} {header : FHeader}

theorem written_header (short : pkg.header.length ≤ maximumPayload) :
    (written pkg).take packageHeaderSize = pkg.header.bigEndianFields := by
  have size := pkg.header.toNetwork.toMemory_length
  rw [← FHeader.toMemory_toNetwork]
  by_cases zero : pkg.header.length = 0
  · rw [written_empty zero, List.take_of_length_le (by omega)]
  · rw [written_payload zero short, List.take_left' size]

/-- `DecodeT` leaves the header that was sent, whatever follows it and however it ends. -/
theorem decodeT_reads (pkg : FPacket) (header : FHeader) (tail : List UInt8) :
    (decodeT pkg (header.bigEndianFields ++ tail)).2.1.header = header := by
  rw [← FHeader.toMemory_toNetwork, decodeT_header]
  split
  · rfl
  · split <;> rfl

/-- Every string of 24 bytes is the wire format of one header. -/
theorem bigEndianFields_surjective {bytes : List UInt8} (full : bytes.length = packageHeaderSize) :
    (FHeader.ofMemory bytes).toHost.bigEndianFields = bytes := by
  rw [← FHeader.toMemory_toNetwork, FHeader.toNetwork_toHost, FHeader.toMemory_ofMemory full]

theorem decodeT_encoded (pkg : FPacket) {bytes : List UInt8}
    (full : bytes.length = packageHeaderSize) (tail : List UInt8) :
    (decodeT pkg (bytes ++ tail)).2.1.header.toNetwork.toMemory = bytes := by
  have read := decodeT_reads pkg (FHeader.ofMemory bytes).toHost tail
  rw [bigEndianFields_surjective full] at read
  rw [read, FHeader.toMemory_toNetwork, bigEndianFields_surjective full]

theorem encodeT_empty (zero : pkg.header.length = 0) (stream : List UInt8) :
    encodeT pkg stream = (true, stream ++ pkg.header.bigEndianFields) := by
  rw [encodeT_stream, (encodeT_accepts pkg).mpr (.inl zero), written_empty zero,
    FHeader.toMemory_toNetwork]

theorem decodeT_empty (zero : header.length = 0) (pkg : FPacket) (tail : List UInt8) :
    decodeT pkg (header.bigEndianFields ++ tail) = (true, ⟨header, pkg.payload⟩, tail) := by
  rw [← FHeader.toMemory_toNetwork, decodeT_header, if_pos zero]

/-- The bytes of a header are its big-endian fields in order. Decoding them into
any packet gives the header back, and decoding any 24 bytes gives a header that
is encoded as these bytes. A frame of length zero is its header on both sides. -/
theorem header_codec_bijective :
    (∀ header : FHeader, header.toNetwork.toMemory = header.bigEndianFields ∧
      header.bigEndianFields.length = packageHeaderSize) ∧
    (∀ pkg : FPacket, pkg.header.length ≤ maximumPayload →
      (written pkg).take packageHeaderSize = pkg.header.bigEndianFields) ∧
    (∀ (header : FHeader) (pkg : FPacket) (tail : List UInt8),
      (FHeader.ofMemory header.bigEndianFields).toHost = header ∧
        (decodeT pkg (header.bigEndianFields ++ tail)).2.1.header = header) ∧
    (∀ (bytes : List UInt8) (pkg : FPacket) (tail : List UInt8),
      bytes.length = packageHeaderSize →
        (FHeader.ofMemory bytes).toHost.toNetwork.toMemory = bytes ∧
          (decodeT pkg (bytes ++ tail)).2.1.header.toNetwork.toMemory = bytes) ∧
    (∀ (pkg : FPacket) (stream : List UInt8), pkg.header.length = 0 →
      encodeT pkg stream = (true, stream ++ pkg.header.bigEndianFields)) ∧
    (∀ (header : FHeader) (pkg : FPacket) (tail : List UInt8), header.length = 0 →
      decodeT pkg (header.bigEndianFields ++ tail) = (true, ⟨header, pkg.payload⟩, tail)) := by
  refine ⟨fun header => ⟨FHeader.toMemory_toNetwork header, ?_⟩, fun pkg => written_header,
    fun header pkg tail => ⟨?_, decodeT_reads pkg header tail⟩,
    fun bytes pkg tail full => ⟨?_, decodeT_encoded pkg full tail⟩,
    fun pkg stream zero => encodeT_empty zero stream,
    fun header pkg tail zero => decodeT_empty zero pkg tail⟩
  · rw [← FHeader.toMemory_toNetwork, FHeader.toMemory_length]
  · rw [← FHeader.toMemory_toNetwork, FHeader.ofMemory_toMemory, FHeader.toHost_toNetwork]
  · rw [FHeader.toNetwork_toHost, FHeader.toMemory_ofMemory full]

theorem header_codec_bijective_ones :
    (FHeader.ofMemory (List.replicate 24 255)).toHost.toNetwork.toMemory = List.replicate 24 255 ∧
      (decodeT FPacket.new (FHeader.bigEndianFields ⟨packetMagic, 1000, -1, -2147483648, 0⟩)).2.1 =
        ⟨⟨packetMagic, 1000, -1, -2147483648, 0⟩, ⟨[]⟩⟩ := by
  obtain ⟨-, -, -, backward, -, empty⟩ := header_codec_bijective
  refine ⟨(backward (List.replicate 24 255) FPacket.new [] rfl).1, ?_⟩
  have frame := empty ⟨packetMagic, 1000, -1, -2147483648, 0⟩ FPacket.new [] rfl
  rw [List.append_nil] at frame
  rw [frame]
  rfl

end Uranus
