import Uranus.Foundation.FixedWidth
import Uranus.Foundation.Program
import Uranus.Internal.PacketCodec

/-! Conversions between byte arrays and values. Every one of them reserves memory
and copies into it, and none resizes a vector, so what arrives is decided by the
size the target had before. -/
namespace Uranus
open Foundation

/-- The bytes that `memcpy` takes from an object; past its end they are not its own. -/
def readMemory (memory : List UInt8) (size : Nat) : Except Fault (List UInt8) :=
  if memory.length < size then .error .undefined else .ok (memory.take size)

/-- `overlay` at a distance from the beginning of the buffer. -/
def overlayAt (buffer : List UInt8) (offset : Nat) (bytes : List UInt8) : List UInt8 :=
  buffer.take offset ++ overlay (buffer.drop offset) bytes

section Templates
variable {T : Type} (type : FixedWidth T)

namespace FByteArray

def castFrom (array : FByteArray) (source : T) : FByteArray :=
  ⟨overlay array.bytes (type.image source)⟩

/-- The number of bytes is the square of the width, whatever the length of `source`. -/
def castFromVector (array : FByteArray) (source : List T) : Except Fault FByteArray := do
  let bytes ← readMemory (type.flat source) (type.width * type.width)
  pure ⟨overlay array.bytes bytes⟩

/-- The loop over a vector of pointers: `source` holds what they point to, and the
bound of the index is the width. -/
def castFromPointers (array : FByteArray) (source : List T) : Nat → Except Fault FByteArray
  | 0 => pure array
  | idx + 1 => do
    let array ← castFromPointers array source idx
    match source[idx]? with
    | none => .error .undefined
    | some value => pure ⟨overlayAt array.bytes (idx * type.width) (type.image value)⟩

def castTo (array : FByteArray) : Except Fault T :=
  if type.width > array.size then
    .error (.exception "FByteArray::CastTo - Overflow.")
  else
    .ok (type.read (array.bytes.take type.width))

/-- `reserve` leaves `dist` as long as it was, and its elements are read back from
the memory that was written over. -/
def castToVector (array : FByteArray) (dist : List T) : List T :=
  let count := array.size / type.width
  let length := type.width * count
  if count = 0 then
    dist
  else
    let cleared := overlay (type.flat dist) (List.replicate length 0)
    type.elements dist.length (overlay cleared (array.bytes.take length))

end FByteArray

def dataToByteArray (data : T) : List UInt8 := overlay [] (type.image data)

def byteArrayToData (bytes : List UInt8) : Except Fault T :=
  if type.width > bytes.length then
    .error (.exception "FByteArray::CastTo - Overflow.")
  else
    .ok (type.read (bytes.take type.width))

def vectorToByteArray (list : List T) : Except Fault (List UInt8) := do
  let bytes ← readMemory (type.flat list) (type.width * type.width)
  pure (overlay [] bytes)

def byteArrayToVector (src : List UInt8) (dist : List T) : List T :=
  let count := src.length / type.width
  let length := type.width * count
  if count = 0 then
    dist
  else
    let cleared := overlay (type.flat dist) (List.replicate length 0)
    type.elements dist.length (overlay cleared (src.take length))

end Templates

theorem overlay_nil (bytes : List UInt8) : overlay [] bytes = [] := by
  simp [overlay]

theorem overlay_eq_nil {buffer bytes : List UInt8} : overlay buffer bytes = [] ↔ buffer = [] := by
  rw [← List.length_eq_zero_iff, ← List.length_eq_zero_iff, overlay_length]

theorem overlay_take {buffer bytes : List UInt8} (fits : bytes.length ≤ buffer.length) :
    (overlay buffer bytes).take bytes.length = bytes := by
  rw [overlay, List.take_of_length_le fits, List.take_left' rfl]

/-- The second of two copies of one length is all that stays. -/
theorem overlay_overlay (buffer : List UInt8) {first second : List UInt8}
    (same : first.length = second.length) :
    overlay (overlay buffer first) second = overlay buffer second := by
  have rest : (overlay buffer first).drop second.length = buffer.drop second.length := by
    simp only [overlay, List.drop_append, List.length_take, List.drop_drop, ← same]
    rw [List.drop_eq_nil_of_le (by simp), List.nil_append]
    by_cases fits : first.length ≤ buffer.length
    · simp [fits]
    · rw [List.drop_eq_nil_of_le (by omega), List.drop_eq_nil_of_le (by omega)]
  rw [overlay, overlay_length, rest, overlay]

theorem overlayAt_overlay (buffer first second : List UInt8) :
    overlayAt (overlay buffer first) first.length second = overlay buffer (first ++ second) := by
  by_cases fits : first.length ≤ buffer.length
  · have before : overlay buffer first = first ++ buffer.drop first.length := by
      rw [overlay, List.take_of_length_le fits]
    rw [overlayAt, before, List.take_left' rfl, List.drop_left' rfl, overlay, overlay,
      List.length_drop, List.drop_drop, List.take_append, List.take_of_length_le fits,
      List.length_append, List.append_assoc]
  · have short : buffer.length ≤ first.length := by omega
    have full : overlay buffer first = first.take buffer.length := by
      rw [overlay, List.drop_eq_nil_of_le short, List.append_nil]
    have within : (overlay buffer first).length ≤ first.length := by simpa using short
    have past : buffer.length ≤ first.length + second.length := by omega
    rw [overlayAt, List.take_of_length_le within, List.drop_eq_nil_of_le within, overlay_nil, full,
      List.append_nil, overlay, List.take_append, Nat.sub_eq_zero_of_le short, List.take_zero,
      List.append_nil, List.length_append, List.drop_eq_nil_of_le past, List.append_nil]

section Conversions
variable {T : Type} {type : FixedWidth T}

namespace FByteArray
variable (array : FByteArray)

theorem castFromVector_eq (source : List T) : array.castFromVector type source =
    if type.width ≤ source.length then
      .ok ⟨overlay array.bytes (type.flat (source.take type.width))⟩
    else
      .error .undefined := by
  have positive := type.width_pos
  have short : (type.flat source).length < type.width * type.width ↔
      ¬ type.width ≤ source.length := by
    rw [type.flat_length, Nat.mul_lt_mul_left positive, Nat.not_le]
  simp only [castFromVector, readMemory, short, type.flat_take]
  by_cases enough : type.width ≤ source.length
  · rw [if_neg (not_not.mpr enough), if_pos enough]
    rfl
  · rw [if_pos enough, if_neg enough]
    rfl

/-- The loop over pointers copies the same elements and fails on the same vectors. -/
theorem castFromPointers_eq (source : List T) (idx : Nat) :
    array.castFromPointers type source idx =
      if idx ≤ source.length then .ok ⟨overlay array.bytes (type.flat (source.take idx))⟩
      else .error .undefined := by
  induction idx with
  | zero =>
    rw [if_pos (Nat.zero_le _), List.take_zero, type.flat_nil]
    simp only [castFromPointers, overlay, List.take_nil, List.length_nil, List.drop_zero,
      List.nil_append]
    rfl
  | succ idx ih =>
    rw [castFromPointers, ih]
    by_cases inside : idx + 1 ≤ source.length
    · have length : idx * type.width = (type.flat (source.take idx)).length := by
        rw [type.flat_length, List.length_take, Nat.min_eq_left (by omega), Nat.mul_comm]
      have extended : type.flat (source.take idx) ++ type.image source[idx] =
          type.flat (source.take (idx + 1)) := by
        rw [List.take_add_one, List.getElem?_eq_getElem inside, type.flat_append]
        simp [FixedWidth.flat]
      rw [if_pos (by omega), if_pos inside, List.getElem?_eq_getElem inside, ← extended,
        ← overlayAt_overlay, ← length]
      rfl
    · rw [if_neg inside]
      by_cases last : idx ≤ source.length
      · rw [if_pos last, List.getElem?_eq_none (by omega)]
        rfl
      · rw [if_neg last]
        rfl

theorem castFromPointers_castFromVector (source : List T) :
    array.castFromPointers type source type.width = array.castFromVector type source := by
  rw [castFromPointers_eq, castFromVector_eq]

theorem castTo_castFrom (source : T) : (array.castFrom type source).castTo type =
    if type.width ≤ array.size then .ok source
    else .error (.exception "FByteArray::CastTo - Overflow.") := by
  have length := type.image_length source
  have size : (array.castFrom type source).size = array.size := overlay_length _ _
  rw [castTo, size]
  by_cases fits : type.width ≤ array.size
  · have taken : (overlay array.bytes (type.image source)).take (type.image source).length =
        type.image source := overlay_take (length.trans_le fits)
    rw [length] at taken
    rw [if_neg (by omega), if_pos fits, castFrom, taken, type.read_image]
  · rw [if_pos (by omega), if_neg fits]

/-- The elements of `dist` after its memory was written over. -/
theorem castToVector_eq (dist : List T) : array.castToVector type dist =
    type.elements dist.length (overlay (type.flat dist)
      (array.bytes.take (type.width * (array.size / type.width)))) := by
  have whole : type.width * (array.size / type.width) ≤ array.bytes.length := Nat.mul_div_le _ _
  unfold castToVector
  by_cases none : array.size / type.width = 0
  · have kept := type.elements_flat dist []
    rw [List.append_nil] at kept
    simp [none, overlay, kept]
  · simp only [none, if_false]
    rw [overlay_overlay]
    rw [List.length_replicate, List.length_take, Nat.min_eq_left whole]

theorem castToVector_length (dist : List T) :
    (array.castToVector type dist).length = dist.length := by
  rw [castToVector_eq, type.elements_length]

/-- Only a `dist` that already has as many elements takes up the whole array. -/
theorem castToVector_full {dist : List T} (full : array.size = type.width * dist.length) :
    array.castToVector type dist = type.elements dist.length array.bytes := by
  have count : array.size / type.width = dist.length := by
    rw [full, Nat.mul_div_cancel_left _ type.width_pos]
  have all : array.bytes.take (type.width * dist.length) = array.bytes :=
    List.take_of_length_le full.le
  rw [castToVector_eq, count, all, overlay_full]
  rw [type.flat_length]
  exact full

/-- Of the source only as many elements arrive as they have bytes. -/
theorem castToVector_castFromVector {source dist : List T} (enough : type.width ≤ source.length)
    (size : array.size = type.width * source.length) (same : dist.length = source.length) :
    castToVector type ⟨overlay array.bytes (type.flat (source.take type.width))⟩ dist =
      source.take type.width ++ (type.elements source.length array.bytes).drop type.width := by
  obtain ⟨more, count⟩ := Nat.exists_eq_add_of_le enough
  have taken : (source.take type.width).length = type.width := by
    rw [List.length_take, Nat.min_eq_left enough]
  have bytes : overlay array.bytes (type.flat (source.take type.width)) =
      type.flat (source.take type.width) ++ array.bytes.drop (type.width * type.width) := by
    rw [overlay, type.flat_length, taken, List.take_of_length_le]
    rw [type.flat_length, taken]
    exact (Nat.mul_le_mul_left _ enough).trans_eq size.symm
  have copied := type.elements_flat (source.take type.width)
    (array.bytes.drop (type.width * type.width))
  rw [taken] at copied
  have skip : (type.flat (source.take type.width)).length = type.width * type.width := by
    rw [type.flat_length, taken]
  rw [castToVector_full, same, bytes, count, type.elements_add, copied, List.drop_left' skip,
    type.elements_drop]
  rw [same]
  exact (overlay_length _ _).trans size

end FByteArray

/-- A conversion and what it is applied to. -/
inductive Conversion (T : Type) where
  | value (array : FByteArray) (source : T)
  | vector (array : FByteArray) (source dist : List T)
  | freeValue (source : T)
  | freeVector (source dist : List T)
  | count (array : FByteArray) (dist : List T)
  | sameFrom (array : FByteArray) (source : T)
  | sameTo (array : FByteArray)
  | sameFromVector (array : FByteArray) (source : List T)
  | sameToVector (array : FByteArray) (dist : List T)

namespace Conversion

/-- There and back with the right number of bytes between, a vector of the right
length, or the same result from the member and the free function; two reads past
the end of the source agree on nothing. -/
def Faithful (type : FixedWidth T) : Conversion T → Prop
  | .value array source =>
    (array.castFrom type source).castTo type = .ok source ∧
      (array.castFrom type source).size = type.width
  | .vector array source dist =>
    ∃ stored, array.castFromVector type source = .ok stored ∧
      stored.size = type.width * source.length ∧ stored.castToVector type dist = source
  | .freeValue source =>
    byteArrayToData type (dataToByteArray type source) = .ok source ∧
      (dataToByteArray type source).length = type.width
  | .freeVector source dist =>
    ∃ bytes, vectorToByteArray type source = .ok bytes ∧
      bytes.length = type.width * source.length ∧ byteArrayToVector type bytes dist = source
  | .count array dist => (array.castToVector type dist).length = array.size / type.width
  | .sameFrom array source => (array.castFrom type source).bytes = dataToByteArray type source
  | .sameTo array => array.castTo type = byteArrayToData type array.bytes
  | .sameFromVector array source =>
    ∃ stored, array.castFromVector type source = .ok stored ∧
      vectorToByteArray type source = .ok stored.bytes
  | .sameToVector array dist =>
    array.castToVector type dist = byteArrayToVector type array.bytes dist

/-- What the target holds beforehand has to have the right size, and for a vector
the elements past the first `width` have to be there already. -/
def Prepared (type : FixedWidth T) : Conversion T → Prop
  | .value array _ => array.size = type.width
  | .vector array source dist =>
    type.width ≤ source.length ∧ array.size = type.width * source.length ∧
      dist.length = source.length ∧
      (type.elements source.length array.bytes).drop type.width = source.drop type.width
  | .freeValue _ => False
  | .freeVector _ _ => False
  | .count array dist => dist.length = array.size / type.width
  | .sameFrom array _ => array.bytes = []
  | .sameTo _ => True
  | .sameFromVector array source => array.bytes = [] ∧ type.width ≤ source.length
  | .sameToVector _ _ => True

theorem value_iff (array : FByteArray) (source : T) :
    Faithful type (.value array source) ↔ array.size = type.width := by
  have size : (array.castFrom type source).size = array.size := overlay_length _ _
  simp only [Faithful, FByteArray.castTo_castFrom, size]
  constructor
  · exact fun faithful => faithful.2
  · intro same
    exact ⟨if_pos same.ge, same⟩

theorem vector_iff (array : FByteArray) (source dist : List T) :
    Faithful type (.vector array source dist) ↔ Prepared type (.vector array source dist) := by
  simp only [Faithful, Prepared, FByteArray.castFromVector_eq]
  by_cases enough : type.width ≤ source.length
  · rw [if_pos enough]
    simp only [Except.ok.injEq, exists_eq_left', enough, true_and]
    have size : (FByteArray.mk (overlay array.bytes (type.flat (source.take type.width)))).size =
        array.size := overlay_length _ _
    rw [size]
    refine and_congr_right fun full => ?_
    constructor
    · intro returned
      have same : dist.length = source.length := by
        rw [← returned, FByteArray.castToVector_length]
      refine ⟨same, ?_⟩
      rw [FByteArray.castToVector_castFromVector array enough full same] at returned
      have split := returned.trans (List.take_append_drop type.width source).symm
      exact List.append_cancel_left split
    · rintro ⟨same, held⟩
      rw [FByteArray.castToVector_castFromVector array enough full same, held,
        List.take_append_drop]
  · simp [enough]

theorem dataToByteArray_eq (source : T) : dataToByteArray type source = [] :=
  overlay_nil (type.image source)

theorem vectorToByteArray_eq (source : List T) : vectorToByteArray type source =
    ((FByteArray.mk []).castFromVector type source).map FByteArray.bytes := by
  unfold vectorToByteArray FByteArray.castFromVector
  cases readMemory (type.flat source) (type.width * type.width) with
  | error fault => rfl
  | ok bytes => rfl

theorem freeValue_fails (source : T) : ¬ Faithful type (.freeValue source) := by
  rintro ⟨-, size⟩
  rw [dataToByteArray_eq] at size
  exact type.width_pos.ne size

theorem freeVector_fails (source dist : List T) : ¬ Faithful type (.freeVector source dist) := by
  rintro ⟨bytes, stored, size, -⟩
  have positive := type.width_pos
  rw [vectorToByteArray_eq, FByteArray.castFromVector_eq] at stored
  split at stored
  next enough =>
    cases stored
    have none : 0 = type.width * source.length := by simpa [overlay] using size
    exact absurd none (Nat.mul_pos positive (by omega)).ne
  next =>
    cases stored

theorem sameFrom_iff (array : FByteArray) (source : T) :
    Faithful type (.sameFrom array source) ↔ array.bytes = [] := by
  simp only [Faithful, dataToByteArray_eq, FByteArray.castFrom, overlay_eq_nil]

theorem sameFromVector_iff (array : FByteArray) (source : List T) :
    Faithful type (.sameFromVector array source) ↔
      array.bytes = [] ∧ type.width ≤ source.length := by
  simp only [Faithful, vectorToByteArray_eq, FByteArray.castFromVector_eq]
  by_cases enough : type.width ≤ source.length
  · rw [if_pos enough, if_pos enough]
    simp only [Except.map, Except.ok.injEq, exists_eq_left', overlay_nil, enough, and_true]
    rw [eq_comm, overlay_eq_nil]
  · rw [if_neg enough]
    constructor
    · rintro ⟨stored, outside, -⟩
      cases outside
    · exact fun prepared => absurd prepared.2 enough

/-- For every element type and every conversion, nothing is lost exactly when the
target was prepared by hand. -/
theorem faithful_iff_prepared (type : FixedWidth T) (conversion : Conversion T) :
    conversion.Faithful type ↔ conversion.Prepared type := by
  cases conversion with
  | value array source => exact value_iff array source
  | vector array source dist => exact vector_iff array source dist
  | freeValue source => exact iff_false_intro (freeValue_fails source)
  | freeVector source dist => exact iff_false_intro (freeVector_fails source dist)
  | count array dist =>
    simp only [Faithful, Prepared, FByteArray.castToVector_length]
  | sameFrom array source => exact sameFrom_iff array source
  | sameTo array => exact iff_true_intro rfl
  | sameFromVector array source => exact sameFromVector_iff array source
  | sameToVector array dist => exact iff_true_intro rfl

end Conversion

/-- The 32-bit words of a little-endian host. -/
def uint32 : FixedWidth UInt32 where
  width := 4
  width_pos := by decide
  image value := ByteOrder.littleEndian 4 value.toNat
  image_length value := ByteOrder.littleEndian_length 4 value.toNat
  read := FHeader.word
  read_image value := by simpa using FHeader.word_littleEndian value []

theorem fresh_castFrom_unfaithful : ¬ Conversion.Faithful uint32 (.value ⟨[]⟩ 7) := by
  rintro ⟨-, size⟩
  exact absurd size (by decide)

end Conversions
end Uranus
