import Mathlib.Data.Nat.Basic
import Mathlib.Data.List.Basic
import Mathlib.Tactic.Ring

/-! Fixed-width unsigned numbers as byte strings. `littleEndian` is the memory
image of a number on a little-endian host; swapping the bytes of the number and
storing the result yields the big-endian image, for every width. -/
namespace Foundation.ByteOrder

/-- The `width` low-order bytes of `value`, least significant first. -/
def littleEndian : Nat → Nat → List UInt8
  | 0, _ => []
  | width + 1, value => UInt8.ofNat value :: littleEndian width (value / 256)

def ofLittleEndian : List UInt8 → Nat
  | [] => 0
  | byte :: rest => byte.toNat + 256 * ofLittleEndian rest

def bigEndian (width value : Nat) : List UInt8 := (littleEndian width value).reverse

/-- The number whose memory image is the reversed image of `value`. -/
def byteSwap (width value : Nat) : Nat := ofLittleEndian (bigEndian width value)

@[simp] theorem littleEndian_length (width value : Nat) :
    (littleEndian width value).length = width := by
  induction width generalizing value with
  | zero => rfl
  | succ width ih => simp only [littleEndian, List.length_cons, ih]

@[simp] theorem bigEndian_length (width value : Nat) : (bigEndian width value).length = width := by
  simp only [bigEndian, List.length_reverse, littleEndian_length]

theorem ofLittleEndian_lt (bytes : List UInt8) : ofLittleEndian bytes < 256 ^ bytes.length := by
  induction bytes with
  | nil => simp [ofLittleEndian]
  | cons byte rest ih =>
    have small : byte.toNat < 256 := byte.toNat_lt
    simp only [ofLittleEndian, List.length_cons, pow_succ]
    omega

theorem ofLittleEndian_littleEndian {width value : Nat} (fits : value < 256 ^ width) :
    ofLittleEndian (littleEndian width value) = value := by
  induction width generalizing value with
  | zero =>
    have : value = 0 := by simpa using fits
    simp [littleEndian, ofLittleEndian, this]
  | succ width ih =>
    have tailFits : value / 256 < 256 ^ width := by
      rw [Nat.div_lt_iff_lt_mul (by decide), ← pow_succ]
      exact fits
    have head : (UInt8.ofNat value).toNat = value % 256 := by simp
    simp only [littleEndian, ofLittleEndian, ih tailFits, head]
    omega

theorem littleEndian_ofLittleEndian (bytes : List UInt8) :
    littleEndian bytes.length (ofLittleEndian bytes) = bytes := by
  induction bytes with
  | nil => rfl
  | cons byte rest ih =>
    have small : byte.toNat < 256 := byte.toNat_lt
    have high : (byte.toNat + 256 * ofLittleEndian rest) / 256 = ofLittleEndian rest := by omega
    have low : UInt8.ofNat (byte.toNat + 256 * ofLittleEndian rest) = byte := by
      apply UInt8.toNat_inj.mp
      simp only [UInt8.toNat_ofNat']
      omega
    simp only [List.length_cons, ofLittleEndian, littleEndian, high, low, ih]

theorem byteSwap_lt (width value : Nat) : byteSwap width value < 256 ^ width := by
  simpa only [byteSwap, bigEndian_length] using ofLittleEndian_lt (bigEndian width value)

/-- Storing a swapped number writes the big-endian image of the number. -/
theorem littleEndian_byteSwap (width value : Nat) :
    littleEndian width (byteSwap width value) = bigEndian width value := by
  simpa only [byteSwap, bigEndian_length] using
    littleEndian_ofLittleEndian (bigEndian width value)

theorem byteSwap_byteSwap {width value : Nat} (fits : value < 256 ^ width) :
    byteSwap width (byteSwap width value) = value := by
  rw [byteSwap, bigEndian, littleEndian_byteSwap, bigEndian, List.reverse_reverse,
    ofLittleEndian_littleEndian fits]

end Foundation.ByteOrder
