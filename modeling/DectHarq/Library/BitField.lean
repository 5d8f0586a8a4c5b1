/-
This file develops bit-fields packed into one machine word.

A field is an offset and a width. Two structures declared over the same storage are
two sets of fields of one word, so that a view of one structure through the other is
a question about which fields overlap. The rules say what a read returns after a
write: the truncated value for the written field, the old value for a disjoint field,
and a slice of the read for a field inside another one.
-/

import Mathlib.Algebra.Group.Nat.Defs
import Mathlib.Tactic.Common

/-- A bit-field: where it starts, counted from the least significant bit, and how many bits
it has. -/
structure BitField where
  offset : Nat
  width : Nat
  deriving DecidableEq, Repr

namespace BitField

variable {size : Nat}

/-- The unsigned value a field holds in a word. -/
def get (field : BitField) (word : BitVec size) : Nat :=
  (word.extractLsb' field.offset field.width).toNat

/-- The bits of a word a field covers. -/
def mask (field : BitField) (size : Nat) : BitVec size :=
  (BitVec.allOnes field.width).setWidth size <<< field.offset

/-- Store a value in a field: the value is truncated to the width, and no other bit of the
word changes. -/
def set (field : BitField) (value : Nat) (word : BitVec size) : BitVec size :=
  (word &&& ~~~ field.mask size) |||
    ((BitVec.ofNat field.width value).setWidth size <<< field.offset)

/-- Two fields share no bit. -/
def Disjoint (first second : BitField) : Prop :=
  first.offset + first.width ≤ second.offset ∨ second.offset + second.width ≤ first.offset

instance (first second : BitField) : Decidable (Disjoint first second) :=
  inferInstanceAs (Decidable (_ ∨ _))

theorem getLsbD_set (field : BitField) (value : Nat) (word : BitVec size) (position : Nat) :
    (field.set value word).getLsbD position =
      (decide (position < size) &&
        if field.offset ≤ position ∧ position < field.offset + field.width then
          value.testBit (position - field.offset)
        else word.getLsbD position) := by
  simp only [set, mask, BitVec.getLsbD_or, BitVec.getLsbD_and, BitVec.getLsbD_not,
    BitVec.getLsbD_shiftLeft, BitVec.getLsbD_setWidth, BitVec.getLsbD_allOnes,
    BitVec.getLsbD_ofNat]
  by_cases inside : position < size
  · by_cases low : position < field.offset
    · have outside : ¬ (field.offset ≤ position ∧ position < field.offset + field.width) := by
        omega
      simp [inside, low, outside]
    · by_cases high : position - field.offset < field.width
      · have within : field.offset ≤ position ∧ position < field.offset + field.width := by
          omega
        have below : position - field.offset < size := by omega
        simp [inside, low, high, within, below]
      · have outside : ¬ (field.offset ≤ position ∧ position < field.offset + field.width) := by
          omega
        simp [inside, low, high, outside]
  · have absent : word.getLsbD position = false := BitVec.getLsbD_of_ge word position (by omega)
    simp [inside, absent]

/-- A read of the written field returns the value, truncated to the width. -/
theorem get_set_self (field : BitField) (value : Nat) (word : BitVec size)
    (fits : field.offset + field.width ≤ size) :
    field.get (field.set value word) = value % 2 ^ field.width := by
  have bits : (field.set value word).extractLsb' field.offset field.width =
      BitVec.ofNat field.width value := by
    refine BitVec.eq_of_getLsbD_eq fun position bound => ?_
    rw [BitVec.getLsbD_extractLsb', getLsbD_set, BitVec.getLsbD_ofNat]
    have inside : field.offset + position < size := by omega
    have within : field.offset ≤ field.offset + position ∧
        field.offset + position < field.offset + field.width := by omega
    simp [bound, inside]
  rw [get, bits, BitVec.toNat_ofNat]

/-- A read of a field that shares no bit with the written one returns what it did before. -/
theorem get_set_of_disjoint (field written : BitField) (value : Nat) (word : BitVec size)
    (apart : Disjoint field written) :
    field.get (written.set value word) = field.get word := by
  have bits : (written.set value word).extractLsb' field.offset field.width =
      word.extractLsb' field.offset field.width := by
    refine BitVec.eq_of_getLsbD_eq fun position bound => ?_
    rw [BitVec.getLsbD_extractLsb', BitVec.getLsbD_extractLsb', getLsbD_set]
    have outside : ¬ (written.offset ≤ field.offset + position ∧
        field.offset + position < written.offset + written.width) := by
      rcases apart with below | above <;> omega
    rw [if_neg outside]
    by_cases inside : field.offset + position < size
    · simp [inside]
    · rw [BitVec.getLsbD_of_ge word _ (by omega)]
      simp
  rw [get, get, bits]

/-- A field inside another one holds a slice of what the other one holds. -/
theorem get_slice (field : BitField) (start width : Nat) (word : BitVec size)
    (inside : start + width ≤ field.width) :
    (BitField.mk (field.offset + start) width).get word =
      field.get word / 2 ^ start % 2 ^ width := by
  rw [get, get, BitVec.extractLsb'_toNat, BitVec.extractLsb'_toNat, Nat.shiftRight_add,
    Nat.shiftRight_eq_div_pow _ start]
  have split : 2 ^ field.width = 2 ^ start * 2 ^ (field.width - start) := by
    rw [← Nat.pow_add]
    congr 1
    omega
  rw [split, Nat.mod_mul_right_div_self, Nat.mod_mod_of_dvd]
  exact Nat.pow_dvd_pow 2 (by omega)

theorem get_lt (field : BitField) (word : BitVec size) : field.get word < 2 ^ field.width :=
  BitVec.isLt _

end BitField
