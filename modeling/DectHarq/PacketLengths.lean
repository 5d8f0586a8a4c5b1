/-
This file settles the search for a packet length against the capacities of the table.

The table gives a packet length a capacity at an MCS, or the filler when the length is
not valid there. The search should return the least valid length whose capacity holds
the data. It compares with the data size narrowed to sixteen signed bits: below 32768
this is the data size, and the search is exact. From there on no capacity holds the
data, and the search is exact only when the narrowed size is above all of them as well.
-/

import Mathlib.Order.Bounds.Basic
import DectHarq.Announcements

namespace DectHarq

/-! ### The capacities of the table -/

/-- A packet length has a capacity at an MCS. The filler is none. -/
def HasCapacity (mcs length capacity : Nat) : Prop :=
  ∃ row, bytePerMcsAndLength[mcs]? = some row ∧ row[length]? = some (capacity : Int)

/-- A packet length is valid at an MCS and holds the data. -/
def Holds (dataSize mcs length : Nat) : Prop :=
  ∃ capacity, HasCapacity mcs length capacity ∧ dataSize ≤ capacity

/-- The largest capacity at an MCS. -/
def largestCapacity (mcs : Nat) : Int := (bytePerMcsAndLength.getD mcs []).max?.getD 0

/-- A capacity of the row of an MCS suffices exactly when the largest one does. -/
theorem le_largestCapacity_iff {mcs : Nat} (inTable : mcs ≤ 4) (size : Int) :
    size ≤ largestCapacity mcs ↔
      ∃ capacity ∈ bytePerMcsAndLength.getD mcs [], size ≤ capacity := by
  have rows : ∀ mcs < 5, bytePerMcsAndLength.getD mcs [] ≠ [] := by decide
  have nonempty := rows mcs (Nat.lt_succ_of_le inTable)
  unfold largestCapacity
  cases largest : (bytePerMcsAndLength.getD mcs []).max? with
  | none => exact absurd (List.max?_eq_none_iff.mp largest) nonempty
  | some capacity =>
    obtain ⟨member, bound⟩ := List.max?_eq_some_iff.mp largest
    rw [Option.getD_some]
    constructor
    · intro enough
      exact ⟨capacity, member, enough⟩
    · rintro ⟨other, inRow, enough⟩
      exact le_trans enough (bound other inRow)

/-- The data fits at an MCS exactly when it is within the largest capacity. -/
theorem fits_iff_le_largestCapacity {dataSize mcs : Nat} (inTable : mcs ≤ 4) :
    Fits dataSize mcs ↔ (dataSize : Int) ≤ largestCapacity mcs :=
  (le_largestCapacity_iff inTable dataSize).symm

/-! ### The search -/

/-- The search returns the first position whose capacity suffices. -/
theorem packetLengthLoop_eq (size : Int) (row : List Int) (start : Nat) :
    packetLengthLoop size row start =
      match row.findIdx? fun capacity => decide (size ≤ capacity) with
      | some position => (.ok, start + position)
      | none => (.packetTooBig, start + row.length) := by
  induction row generalizing start with
  | nil => rfl
  | cons capacity rest inductionHypothesis =>
    rw [packetLengthLoop, List.findIdx?_cons]
    by_cases enough : size ≤ capacity
    · rw [if_pos enough, decide_eq_true enough, if_pos rfl]
      rfl
    · rw [if_neg enough, decide_eq_false enough, if_neg Bool.false_ne_true,
        inductionHypothesis]
      have shifted (count : Nat) : start + 1 + count = start + (count + 1) := by
        rw [Nat.add_assoc, Nat.add_comm 1]
      cases rest.findIdx? fun capacity => decide (size ≤ capacity) with
      | none => exact congrArg (Prod.mk ErrorCode.packetTooBig) (shifted rest.length)
      | some position => exact congrArg (Prod.mk ErrorCode.ok) (shifted position)

/-- A position of a row whose entry suffices for a size. -/
def Suffices (row : List Int) (size : Int) (position : Nat) : Prop :=
  ∃ capacity, row[position]? = some capacity ∧ size ≤ capacity

/-- A successful search returns the least position that suffices. -/
theorem packetLengthLoop_ok_iff {size : Int} {row : List Int} {length : Nat} :
    packetLengthLoop size row 0 = (.ok, length) ↔
      IsLeast {position | Suffices row size position} length := by
  have least : row.findIdx? (fun capacity => decide (size ≤ capacity)) = some length ↔
      IsLeast {position | Suffices row size position} length := by
    rw [List.findIdx?_eq_some_iff_getElem]
    constructor
    · rintro ⟨bound, enough, first⟩
      refine ⟨⟨row[length], List.getElem?_eq_getElem bound, of_decide_eq_true enough⟩, ?_⟩
      rintro position ⟨capacity, inRow, large⟩
      by_contra earlier
      obtain ⟨inBound, same⟩ := List.getElem?_eq_some_iff.mp inRow
      exact first position (Nat.not_le.mp earlier) (decide_eq_true (same.symm ▸ large))
    · rintro ⟨⟨capacity, inRow, enough⟩, lowest⟩
      obtain ⟨bound, same⟩ := List.getElem?_eq_some_iff.mp inRow
      refine ⟨bound, decide_eq_true (same.symm ▸ enough), fun position earlier large => ?_⟩
      have inBound : position < row.length := Nat.lt_trans earlier bound
      exact absurd (lowest ⟨row[position], List.getElem?_eq_getElem inBound,
        of_decide_eq_true large⟩) (Nat.not_le.mpr earlier)
  rw [packetLengthLoop_eq, ← least]
  cases row.findIdx? fun capacity => decide (size ≤ capacity) with
  | none => simp
  | some position => simp

/-- The search ends with one of two codes. -/
theorem packetLengthLoop_tooBig_iff {size : Int} {row : List Int} :
    (∃ length, packetLengthLoop size row 0 = (.packetTooBig, length)) ↔
      ∀ capacity ∈ row, ¬ size ≤ capacity := by
  rw [packetLengthLoop_eq]
  have missed : row.findIdx? (fun capacity => decide (size ≤ capacity)) = none ↔
      ∀ capacity ∈ row, ¬ size ≤ capacity := by
    simp
  rw [← missed]
  cases row.findIdx? fun capacity => decide (size ≤ capacity) with
  | none => simp
  | some position => simp

/-! ### Exact searches -/

/-- The search for a data size at an MCS is exact: it finds the least valid length that holds the
data, whose capacity the inverse lookup returns, and it finds the data too big exactly when no
valid length holds it. -/
structure ExactSearch (dataSize mcs : Nat) : Prop where
  found : ∀ length, dectMacUtilsGetPacketLength dataSize mcs = .ok (.ok, length) ↔
    IsLeast {length | Holds dataSize mcs length} length
  inverse : ∀ length, dectMacUtilsGetPacketLength dataSize mcs = .ok (.ok, length) →
    HasCapacity mcs length (dectMacUtilsGetBytesFromPacketLength length mcs)
  tooBig : (∃ length, dectMacUtilsGetPacketLength dataSize mcs = .ok (.packetTooBig, length)) ↔
    ∀ length, ¬ Holds dataSize mcs length

section Row

variable {mcs : Nat} {row : List Int}

/-- A length that holds the data is a position of the row that suffices: a filler never does. -/
theorem holds_iff (inTable : bytePerMcsAndLength[mcs]? = some row) (dataSize length : Nat) :
    Holds dataSize mcs length ↔ Suffices row dataSize length := by
  constructor
  · rintro ⟨capacity, ⟨own, same, inRow⟩, enough⟩
    rw [inTable] at same
    cases same
    exact ⟨capacity, inRow, Int.ofNat_le.mpr enough⟩
  · rintro ⟨capacity, inRow, enough⟩
    have natural : ((capacity.toNat : Nat) : Int) = capacity := Int.toNat_of_nonneg (by omega)
    exact ⟨capacity.toNat, ⟨row, inTable, natural.symm ▸ inRow⟩, by omega⟩

theorem getPacketLength_eq (inTable : bytePerMcsAndLength[mcs]? = some row) (dataSize : Nat) :
    dectMacUtilsGetPacketLength dataSize mcs =
      .ok (packetLengthLoop (int16 dataSize) row 0) := by
  unfold dectMacUtilsGetPacketLength
  rw [inTable]

theorem getPacketLength_ok_iff (inTable : bytePerMcsAndLength[mcs]? = some row)
    (dataSize length : Nat) :
    dectMacUtilsGetPacketLength dataSize mcs = .ok (.ok, length) ↔
      IsLeast {position | Suffices row (int16 dataSize) position} length := by
  rw [getPacketLength_eq inTable, ← packetLengthLoop_ok_iff]
  exact ⟨ok_inj, congrArg Except.ok⟩

theorem getPacketLength_tooBig_iff (inTable : bytePerMcsAndLength[mcs]? = some row)
    (dataSize : Nat) :
    (∃ length, dectMacUtilsGetPacketLength dataSize mcs = .ok (.packetTooBig, length)) ↔
      ∀ position, ¬ Suffices row (int16 dataSize) position := by
  rw [getPacketLength_eq inTable]
  have codes : (∃ length, (.ok (packetLengthLoop (int16 dataSize) row 0) :
      Except Stop (ErrorCode × Nat)) = .ok (.packetTooBig, length)) ↔
      ∃ length, packetLengthLoop (int16 dataSize) row 0 = (.packetTooBig, length) :=
    exists_congr fun length => ⟨ok_inj, congrArg Except.ok⟩
  rw [codes, packetLengthLoop_tooBig_iff]
  constructor
  · rintro small position ⟨capacity, inRow, enough⟩
    exact small capacity (List.mem_of_getElem? inRow) enough
  · intro small capacity member enough
    obtain ⟨position, inRow⟩ := List.mem_iff_getElem?.mp member
    exact small position ⟨capacity, inRow, enough⟩

/-- The inverse lookup returns the capacity of a valid length. -/
theorem HasCapacity.bytes {length capacity : Nat} (valid : HasCapacity mcs length capacity) :
    dectMacUtilsGetBytesFromPacketLength length mcs = capacity := by
  obtain ⟨own, inTable, inRow⟩ := valid
  have member : own ∈ bytePerMcsAndLength := List.mem_of_getElem? inTable
  have columns := bytePerMcsAndLength_columns own member
  have bound := ((bytePerMcsAndLength_rows own member).2 _ (List.mem_of_getElem? inRow)).2
  have rows : mcs < 5 := (List.getElem?_eq_some_iff.mp inTable).1
  have inside : length < 16 := columns ▸ (List.getElem?_eq_some_iff.mp inRow).1
  unfold dectMacUtilsGetBytesFromPacketLength
  rw [if_neg (by omega), List.getD_eq_getElem?_getD, List.getD_eq_getElem?_getD, inTable,
    Option.getD_some, inRow, Option.getD_some]
  unfold uint16
  unfold capacityLimit at bound
  omega

end Row

/-- A search whose narrowed size suffices where the data size does is exact. -/
theorem ExactSearch.of_same {dataSize mcs : Nat} {row : List Int}
    (inTable : bytePerMcsAndLength[mcs]? = some row)
    (same : ∀ length, Suffices row (int16 dataSize) length ↔ Holds dataSize mcs length) :
    ExactSearch dataSize mcs where
  found := fun length => by
    simp only [getPacketLength_ok_iff inTable, same]
  inverse := fun length found => by
    have least := (getPacketLength_ok_iff inTable dataSize length).mp found
    obtain ⟨capacity, valid, _⟩ := (same length).mp least.1
    rw [valid.bytes]
    exact valid
  tooBig := by
    simp only [getPacketLength_tooBig_iff inTable, same]

/-- Data of 32768 bytes and more is held by no packet length. -/
theorem not_holds_of_large {dataSize : Nat} (large : 32768 ≤ dataSize) (mcs length : Nat) :
    ¬ Holds dataSize mcs length := by
  rintro ⟨capacity, ⟨row, inTable, inRow⟩, enough⟩
  have bound := ((bytePerMcsAndLength_rows row (List.mem_of_getElem? inTable)).2 _
    (List.mem_of_getElem? inRow)).2
  unfold capacityLimit at bound
  omega

/-- The search is exact for the data sizes that sixteen signed bits hold, and otherwise exactly
when the narrowed size is above every capacity of the MCS. -/
theorem exactSearch_iff {dataSize mcs : Nat} (mcsRange : mcs ≤ 4) :
    ExactSearch dataSize mcs ↔
      dataSize < 32768 ∨ largestCapacity mcs < int16 dataSize := by
  obtain ⟨row, inTable⟩ : ∃ row, bytePerMcsAndLength[mcs]? = some row :=
    ⟨_, List.getElem?_eq_getElem (Nat.lt_succ_of_le mcsRange)⟩
  have rowOf : bytePerMcsAndLength.getD mcs [] = row := by
    rw [List.getD_eq_getElem?_getD, inTable]
    rfl
  have largest := le_largestCapacity_iff mcsRange (int16 dataSize)
  rw [rowOf] at largest
  by_cases small : dataSize < 32768
  · refine iff_of_true (ExactSearch.of_same inTable fun length => ?_) (Or.inl small)
    have kept : int16 dataSize = dataSize := by
      unfold int16
      rw [Int.bmod_eq_of_le] <;> omega
    rw [holds_iff inTable, kept]
  · have unheld := not_holds_of_large (Nat.not_lt.mp small) mcs
    rw [or_iff_right small]
    constructor
    · -- a narrowed size within the capacities makes the search succeed
      intro exactSearch
      by_contra within
      obtain ⟨capacity, member, enough⟩ := largest.mp (Int.not_lt.mp within)
      obtain ⟨position, inRow⟩ := List.mem_iff_getElem?.mp member
      have failed := (getPacketLength_tooBig_iff inTable dataSize).mp
        (exactSearch.tooBig.mpr unheld)
      exact failed position ⟨capacity, inRow, enough⟩
    · intro above
      refine ExactSearch.of_same inTable fun length => iff_of_false ?_ (unheld length)
      rintro ⟨capacity, inRow, enough⟩
      have within := largest.mpr ⟨capacity, List.mem_of_getElem? inRow, enough⟩
      omega

/-- At MCS 0 the search is exact for 65836 bytes, which are 300 in sixteen bits. -/
theorem exactSearch_above : ExactSearch 65836 0 :=
  (exactSearch_iff (by decide)).mpr (Or.inr (by decide))

/-- At MCS 0 the search finds a packet length for 65636 bytes, which are 100 in sixteen bits. -/
theorem search_wraps : ¬ ∀ dataSize mcs, mcs ≤ 4 → ExactSearch dataSize mcs := by
  intro always
  have found : dectMacUtilsGetPacketLength 65636 0 = .ok (.ok, 7) := by decide
  have least := ((always 65636 0 (by decide)).found 7).mp found
  exact not_holds_of_large (by decide) 0 7 least.1

end DectHarq
