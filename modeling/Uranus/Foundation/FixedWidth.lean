import Mathlib.Data.List.Basic
import Mathlib.Tactic.Ring

/-! Values whose memory image has one fixed, positive width, and contiguous
sequences of them. A sequence can be cut at every multiple of the width. -/
namespace Foundation

/-- A type of values that are copied by copying their bytes. -/
structure FixedWidth (T : Type*) where
  width : Nat
  width_pos : 0 < width
  image : T → List UInt8
  image_length : ∀ value, (image value).length = width
  read : List UInt8 → T
  read_image : ∀ value, read (image value) = value

namespace FixedWidth
variable {T : Type*} (type : FixedWidth T)

/-- The memory of a sequence. -/
def flat (values : List T) : List UInt8 := values.flatMap type.image

/-- The first `count` values in memory. -/
def elements : Nat → List UInt8 → List T
  | 0, _ => []
  | count + 1, bytes => type.read (bytes.take type.width) ::
      elements count (bytes.drop type.width)

variable {count : Nat} {values : List T} {bytes tail : List UInt8}

@[simp] theorem flat_nil : type.flat [] = [] := rfl

theorem flat_cons (value : T) (values : List T) :
    type.flat (value :: values) = type.image value ++ type.flat values := rfl

theorem flat_append (first second : List T) :
    type.flat (first ++ second) = type.flat first ++ type.flat second :=
  List.flatMap_append

@[simp] theorem flat_length (values : List T) :
    (type.flat values).length = type.width * values.length := by
  induction values with
  | nil => rfl
  | cons value rest ih =>
    rw [flat_cons, List.length_append, type.image_length, ih, List.length_cons]
    ring

/-- The first elements of a sequence are the first bytes of its memory. -/
theorem flat_take (values : List T) (count : Nat) :
    (type.flat values).take (type.width * count) = type.flat (values.take count) := by
  by_cases enough : count ≤ values.length
  · have cut : type.flat values =
        type.flat (values.take count) ++ type.flat (values.drop count) := by
      rw [← flat_append, List.take_append_drop]
    rw [cut, List.take_left']
    rw [flat_length, List.length_take, Nat.min_eq_left enough]
  · have long : values.length ≤ count := by omega
    rw [List.take_of_length_le long, List.take_of_length_le]
    rw [flat_length]
    exact Nat.mul_le_mul_left type.width long

@[simp] theorem elements_length (count : Nat) (bytes : List UInt8) :
    (type.elements count bytes).length = count := by
  induction count generalizing bytes with
  | zero => rfl
  | succ count ih => rw [elements, List.length_cons, ih]

theorem elements_flat (values : List T) (tail : List UInt8) :
    type.elements values.length (type.flat values ++ tail) = values := by
  induction values with
  | nil => rfl
  | cons value rest ih =>
    have size := type.image_length value
    rw [flat_cons, List.append_assoc, List.length_cons, elements, List.take_left' size,
      List.drop_left' size, type.read_image, ih]

theorem elements_add (first second : Nat) (bytes : List UInt8) :
    type.elements (first + second) bytes =
      type.elements first bytes ++ type.elements second (bytes.drop (type.width * first)) := by
  induction first generalizing bytes with
  | zero => simp [elements]
  | succ first ih =>
    have shift : type.width * (first + 1) = type.width + type.width * first := by ring
    rw [Nat.add_right_comm, elements, ih, elements, List.drop_drop, shift, List.cons_append]

theorem elements_drop (count skipped : Nat) (bytes : List UInt8) :
    (type.elements (skipped + count) bytes).drop skipped =
      type.elements count (bytes.drop (type.width * skipped)) := by
  rw [elements_add, List.drop_left' (elements_length type skipped bytes)]

end FixedWidth
end Foundation
