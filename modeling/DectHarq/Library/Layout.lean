/-
This file develops words that are made of consecutive bit-fields.

A layout is a list of fields that cover a word without a gap and without an overlap. Values
are written field by field and read field by field. What is written is read back when each
value fits its field, and a word is what is written when its own values are: a layout is a
bijection between the words and the values that fit.
-/

import Mathlib.Data.List.Forall2
import DectHarq.Library.BitField

variable {size : Nat}

namespace BitField

/-- Fields that follow each other from one bit to another. -/
def Tiles : Nat → List BitField → Nat → Prop
  | start, [], finish => start = finish
  | start, field :: later, finish =>
    field.offset = start ∧ Tiles (start + field.width) later finish

instance decidableTiles : ∀ start fields finish, Decidable (Tiles start fields finish)
  | start, [], finish => inferInstanceAs (Decidable (start = finish))
  | start, field :: later, finish =>
    have := decidableTiles (start + field.width) later finish
    inferInstanceAs (Decidable (_ ∧ _))

/-- A value fits a field. -/
def Fits (field : BitField) (value : Nat) : Prop := value < 2 ^ field.width

theorem toNat_ofNat_get (field : BitField) (word : BitVec size) :
    (BitVec.ofNat field.width (field.get word)).toNat = field.get word :=
  Nat.mod_eq_of_lt (field.get_lt word)

/-- A field of the low bits is read in them. -/
theorem get_setWidth {low : Nat} (field : BitField) (word : BitVec size)
    (inside : field.offset + field.width ≤ low) :
    field.get (word.setWidth low) = field.get word := by
  unfold get
  congr 1
  refine BitVec.eq_of_getLsbD_eq fun position bound => ?_
  have below : field.offset + position < low :=
    Nat.lt_of_lt_of_le (Nat.add_lt_add_left bound _) inside
  rw [BitVec.getLsbD_extractLsb', BitVec.getLsbD_extractLsb', BitVec.getLsbD_setWidth]
  simp [below]

/-- Store values in fields, one after the other. -/
def store : List BitField → List Nat → BitVec size → BitVec size
  | field :: later, value :: values, word => store later values (field.set value word)
  | _, _, word => word

/-- Two words agree in the bits of a field in which the same is read. -/
theorem getLsbD_of_get {first second : BitVec size} {field : BitField}
    (same : field.get first = field.get second) {position : Nat}
    (low : field.offset ≤ position) (high : position < field.offset + field.width) :
    first.getLsbD position = second.getLsbD position := by
  have bits : first.extractLsb' field.offset field.width =
      second.extractLsb' field.offset field.width := BitVec.eq_of_toNat_eq same
  have bit := congrArg (fun word => word.getLsbD (position - field.offset)) bits
  have inside : position - field.offset < field.width := Nat.sub_lt_left_of_lt_add low high
  simpa [BitVec.getLsbD_extractLsb', inside, Nat.add_sub_cancel' low] using bit

/-- What is stored in later fields does not change what is read in a field before them. -/
theorem Tiles.get_store {start finish : Nat} {fields : List BitField}
    (tiles : Tiles start fields finish) {field : BitField}
    (before : field.offset + field.width ≤ start) (values : List Nat) (word : BitVec size) :
    field.get (store fields values word) = field.get word := by
  induction fields generalizing start values word with
  | nil => rfl
  | cons next later inductionHypothesis =>
    obtain ⟨offset, rest⟩ := tiles
    cases values with
    | nil => rfl
    | cons value values =>
      rw [store, inductionHypothesis rest (Nat.le_trans before (Nat.le_add_right _ _)),
        get_set_of_disjoint]
      exact Or.inl (offset ▸ before)

theorem Tiles.le {start finish : Nat} {fields : List BitField} (tiles : Tiles start fields finish) :
    start ≤ finish := by
  induction fields generalizing start with
  | nil => exact Nat.le_of_eq tiles
  | cons next later inductionHypothesis =>
    exact Nat.le_trans (Nat.le_add_right _ _) (inductionHypothesis tiles.2)

/-- What is stored in fields that follow each other is read back, when it fits. -/
theorem Tiles.map_get_store {start finish : Nat} {fields : List BitField}
    (tiles : Tiles start fields finish) (within : finish ≤ size) {values : List Nat}
    (fits : List.Forall₂ Fits fields values) (word : BitVec size) :
    fields.map (fun field => field.get (store fields values word)) = values := by
  induction fits generalizing start word with
  | nil => rfl
  | cons small _ inductionHypothesis =>
    obtain ⟨rfl, rest⟩ := tiles
    rw [List.map_cons, store, rest.get_store (Nat.le_refl _),
      get_set_self _ _ _ (Nat.le_trans rest.le within), Nat.mod_eq_of_lt small,
      inductionHypothesis rest]

/-- Two words in which the same is read in fields that follow each other agree in all their bits. -/
theorem Tiles.getLsbD {start finish : Nat} {fields : List BitField}
    (tiles : Tiles start fields finish) {first second : BitVec size}
    (same : fields.map (fun field => field.get first) = fields.map fun field => field.get second)
    {position : Nat} (low : start ≤ position) (high : position < finish) :
    first.getLsbD position = second.getLsbD position := by
  induction fields generalizing start with
  | nil => exact absurd (tiles ▸ high) (Nat.not_lt_of_le low)
  | cons field later inductionHypothesis =>
    obtain ⟨rfl, rest⟩ := tiles
    obtain ⟨here, there⟩ := List.cons_eq_cons.mp same
    by_cases inside : position < field.offset + field.width
    · exact getLsbD_of_get here low inside
    · exact inductionHypothesis rest there (Nat.le_of_not_lt inside)

end BitField

/-- The fields of a whole word. -/
structure Layout (size : Nat) where
  fields : List BitField
  tiles : BitField.Tiles 0 fields size

namespace Layout

variable (layout : Layout size)

/-- Write the values of all fields. -/
def encode (values : List Nat) : BitVec size := BitField.store layout.fields values 0

/-- Read the values of all fields. -/
def decode (word : BitVec size) : List Nat := layout.fields.map fun field => field.get word

/-- Values of the fields of a layout. -/
def Fits (values : List Nat) : Prop := List.Forall₂ BitField.Fits layout.fields values

theorem decode_encode {values : List Nat} (fits : layout.Fits values) :
    layout.decode (layout.encode values) = values :=
  layout.tiles.map_get_store (Nat.le_refl _) fits 0

theorem decode_injective : Function.Injective layout.decode := fun _ _ same =>
  BitVec.eq_of_getLsbD_eq fun _ high => layout.tiles.getLsbD same (Nat.zero_le _) high

theorem fits_decode (word : BitVec size) : layout.Fits (layout.decode word) := by
  unfold Fits decode
  rw [List.forall₂_map_right_iff, List.forall₂_same]
  exact fun field _ => field.get_lt word

theorem encode_decode (word : BitVec size) : layout.encode (layout.decode word) = word :=
  layout.decode_injective (layout.decode_encode (layout.fits_decode word))

/-- A word holds values that fit exactly when it is what is written for them. -/
theorem decode_eq_iff {values : List Nat} (fits : layout.Fits values) (word : BitVec size) :
    layout.decode word = values ↔ word = layout.encode values := by
  constructor
  · rintro rfl
    exact (layout.encode_decode word).symm
  · rintro rfl
    exact layout.decode_encode fits

end Layout
