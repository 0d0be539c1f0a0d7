import Uranus.Foundation.ByteOrder

/-! The packet exchanged with clients: a fixed header and a byte vector. The
header states a payload length of its own, which is a field like any other and
need not agree with the size of the vector. Vector capacity is not modeled:
bytes stored past the size of a vector are never read back. -/
namespace Uranus

def minimumPackageId : UInt32 := 1001
def packetMagic : UInt32 := 20250514

/-- Writes `bytes` over the beginning of a buffer; what the buffer cannot hold is lost. -/
def overlay (buffer bytes : List UInt8) : List UInt8 :=
  bytes.take buffer.length ++ buffer.drop bytes.length

@[simp] theorem overlay_length (buffer bytes : List UInt8) :
    (overlay buffer bytes).length = buffer.length := by
  simp only [overlay, List.length_append, List.length_take, List.length_drop]
  omega

theorem overlay_full {buffer bytes : List UInt8} (same : bytes.length = buffer.length) :
    overlay buffer bytes = bytes := by
  simp [overlay, ← same]

/-- The wrapper of `std::vector<uint8_t>`. -/
structure FByteArray where
  bytes : List UInt8
deriving DecidableEq, Repr

namespace FByteArray

def size (array : FByteArray) : Nat := array.bytes.length

def clear (_ : FByteArray) : FByteArray := ⟨[]⟩

def reset (_ : FByteArray) : FByteArray := ⟨[]⟩

/-- `reserve` keeps the size, so `memcpy` fills the elements the vector already
has and the rest of the string goes to memory the vector does not count. -/
def fromString (array : FByteArray) (sv : List UInt8) : FByteArray := ⟨overlay array.bytes sv⟩

@[simp] theorem fromString_size (array : FByteArray) (sv : List UInt8) :
    (array.fromString sv).size = array.size :=
  overlay_length array.bytes sv

end FByteArray

structure FHeader where
  magic : UInt32
  id : UInt32
  source : Int32
  target : Int32
  length : UInt64
deriving DecidableEq, Repr

structure FPacket where
  header : FHeader
  payload : FByteArray
deriving DecidableEq, Repr

namespace FPacket

/-- A constructed packet: the header is zeroed and the vector empty. -/
def new : FPacket := ⟨⟨0, 0, 0, 0, 0⟩, ⟨[]⟩⟩

def setMagic (pkt : FPacket) (magic : UInt32) : FPacket :=
  { pkt with header := { pkt.header with magic } }

def setPackageID (pkt : FPacket) (id : UInt32) : FPacket :=
  { pkt with header := { pkt.header with id } }

def setSource (pkt : FPacket) (source : Int32) : FPacket :=
  { pkt with header := { pkt.header with source } }

def setTarget (pkt : FPacket) (target : Int32) : FPacket :=
  { pkt with header := { pkt.header with target } }

def setData (pkt : FPacket) (str : List UInt8) : FPacket :=
  { header := { pkt.header with length := UInt64.ofNat str.length },
    payload := pkt.payload.fromString str }

def onCreate (pkt : FPacket) : FPacket := pkt.setMagic packetMagic

def initial (pkt : FPacket) : FPacket :=
  { pkt with header := { pkt.header with id := minimumPackageId - 1, source := -1, target := -1 } }

def clear (pkt : FPacket) : FPacket :=
  { header := { pkt.header with id := 0 }, payload := pkt.payload.clear }

def reset (pkt : FPacket) : FPacket :=
  { header := ⟨0, 0, 0, 0, 0⟩, payload := pkt.payload.reset }

/-- `other` is absent when the argument is null, is the packet itself or is no packet. -/
def copyFrom (pkt : FPacket) (other : Option FPacket) : FPacket × Bool :=
  match other with
  | none => (pkt, false)
  | some temp => ({ header := temp.header, payload := temp.payload }, true)

/-- An arbitrary edit of the vector through the reference that `RawRef` returns. -/
def rawRef (pkt : FPacket) (edit : List UInt8 → List UInt8) : FPacket :=
  { pkt with payload := ⟨edit pkt.payload.bytes⟩ }

/-- What the receiver of a packet can read from it. -/
structure Contents where
  magic : UInt32
  id : UInt32
  source : Int32
  target : Int32
  payload : List UInt8
deriving DecidableEq, Repr

def contents (pkt : FPacket) : Contents :=
  ⟨pkt.header.magic, pkt.header.id, pkt.header.source, pkt.header.target, pkt.payload.bytes⟩

end FPacket
end Uranus
