/-
This file models the packet length table and its two lookups.

The table is indexed by a modulation and coding scheme and a packet length; an entry is
a capacity in bytes, or the filler `-1`. The forward lookup compares the capacities
with the data size narrowed to a signed 16-bit value, and indexes the table without a
bound check; the inverse lookup checks both indices.
-/

import DectHarq.Types

namespace DectHarq

/-- Conversion to `int8_t`. -/
def int8 (value : Int) : Int := Int.bmod value 256

/-- Conversion to `int16_t`. -/
def int16 (value : Int) : Int := Int.bmod value 65536

/-- Conversion to `uint8_t`. -/
def uint8 (value : Int) : Nat := (value % 256).toNat

/-- Conversion to `uint16_t`. -/
def uint16 (value : Int) : Nat := (value % 65536).toNat

/-- Conversion to `uint32_t`. -/
def uint32 (value : Int) : Nat := (value % 4294967296).toNat

theorem int8_eq_self {value : Int} (low : -128 ≤ value) (high : value < 128) :
    int8 value = value := by
  unfold int8
  rw [Int.bmod_eq_of_le] <;> omega

theorem uint8_eq_self {value : Nat} (bound : value < 256) : uint8 value = value := by
  unfold uint8
  omega

def bytePerMcsAndLength : List (List Int) := [
  [0, 17, 33, 50, 67, 83, 99, 115, 133, 149, 165, 181, 197, 213, 233, 249],
  [4, 37, 69, 103, 137, 169, 201, 233, 263, 295, 327, 359, 391, 423, 463, 495],
  [7, 57, 107, 157, 205, 253, 295, 343, 399, 447, 495, 540, 596, 644, 692, -1],
  [11, 77, 141, 209, 271, 335, 399, 463, 532, 596, 660, -1, -1, -1, -1, -1],
  [18, 117, 217, 311, 407, 503, 604, 700, -1, -1, -1, -1, -1, -1, -1, -1]]

/-- The search loop over the row of one MCS. When no capacity suffices the length is left at
the number of columns. -/
def packetLengthLoop (size : Int) : List Int → Nat → ErrorCode × Nat
  | [], packetLength => (.packetTooBig, packetLength)
  | capacity :: rest, packetLength =>
    if capacity ≥ size then (.ok, packetLength)
    else packetLengthLoop size rest (packetLength + 1)

/-- `dect_mac_utils_get_packet_length`: the return code and `*packet_length`; the packet length
type is always 0. -/
def dectMacUtilsGetPacketLength (dataSize mcs : Nat) : Except Stop (ErrorCode × Nat) :=
  match bytePerMcsAndLength[mcs]? with
  | none => .error .outOfBounds
  | some row => .ok (packetLengthLoop (int16 dataSize) row 0)

/-- `dect_mac_utils_get_bytes_from_packet_length`. -/
def dectMacUtilsGetBytesFromPacketLength (packetLength mcs : Nat) : Nat :=
  if mcs > 4 ∨ packetLength > 15 then 0
  else uint16 ((bytePerMcsAndLength.getD mcs []).getD packetLength 0)

/-- Every row has a column for each four-bit packet length. -/
theorem bytePerMcsAndLength_columns : ∀ row ∈ bytePerMcsAndLength, row.length = 16 := by
  decide

/-- A search that succeeds returns the position of a capacity that suffices. -/
theorem packetLengthLoop_ok {size : Int} {row : List Int} {start found : Nat}
    (search : packetLengthLoop size row start = (.ok, found)) :
    ∃ offset, found = start + offset ∧ ∃ capacity, row[offset]? = some capacity ∧
      size ≤ capacity := by
  induction row generalizing start with
  | nil => cases search
  | cons capacity rest inductionHypothesis =>
    rw [packetLengthLoop] at search
    split at search
    · rename_i enough
      cases search
      exact ⟨0, rfl, capacity, rfl, enough⟩
    · obtain ⟨offset, position, later, same, bound⟩ := inductionHypothesis search
      exact ⟨offset + 1, by omega, later, same, bound⟩

/-- A search in a row with a sufficient capacity succeeds. -/
theorem packetLengthLoop_of_mem {size capacity : Int} {row : List Int} (start : Nat)
    (member : capacity ∈ row) (large : size ≤ capacity) :
    ∃ found, packetLengthLoop size row start = (.ok, found) := by
  induction row generalizing start with
  | nil => cases member
  | cons first rest inductionHypothesis =>
    rw [packetLengthLoop]
    split
    · exact ⟨start, rfl⟩
    · rename_i small
      rcases List.mem_cons.mp member with rfl | later
      · exact absurd large small
      · exact inductionHypothesis (start + 1) later

end DectHarq
