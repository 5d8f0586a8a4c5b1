/-
This file develops slabs: a fixed number of blocks, each of which is in use or free.

The blocks in use are a list without repetitions, so a slab never has more of them than
blocks, and it has a free block exactly when it has fewer. Which free block an
allocation returns is up to the allocator. Where the blocks in use are spread over
places that are listed one after the other, a permutation between the two lists says
that no block is lost and none is in two places.
-/

import Mathlib.Data.Fintype.Card

/-- The blocks in use of a slab. -/
structure Slab (size : Nat) where
  inUse : List (Fin size)
  nodup : inUse.Nodup

namespace Slab

variable {size : Nat}

/-- All blocks are free. -/
def empty : Slab size := ⟨[], List.nodup_nil⟩

/-- A free block is taken. -/
def alloc (slab : Slab size) (block : Fin size) (free : block ∉ slab.inUse) : Slab size :=
  ⟨block :: slab.inUse, List.nodup_cons.mpr ⟨free, slab.nodup⟩⟩

/-- A block is given back. -/
def free (slab : Slab size) (block : Fin size) : Slab size :=
  ⟨slab.inUse.erase block, slab.nodup.erase block⟩

/-- There is no free block. -/
def Full (slab : Slab size) : Prop := size ≤ slab.inUse.length

instance (slab : Slab size) : Decidable slab.Full :=
  inferInstanceAs (Decidable (size ≤ slab.inUse.length))

theorem length_le (slab : Slab size) : slab.inUse.length ≤ size := by
  have bound := slab.nodup.length_le_card
  rwa [Fintype.card_fin] at bound

theorem length_alloc (slab : Slab size) {block : Fin size} (free : block ∉ slab.inUse) :
    (slab.alloc block free).inUse.length = slab.inUse.length + 1 :=
  List.length_cons

theorem length_free (slab : Slab size) {block : Fin size} (used : block ∈ slab.inUse) :
    (slab.free block).inUse.length = slab.inUse.length - 1 :=
  List.length_erase_of_mem used

/-- A slab that is not full has a free block. -/
theorem exists_free {slab : Slab size} (room : ¬ slab.Full) : ∃ block, block ∉ slab.inUse := by
  by_contra none
  push Not at none
  have all : Fintype.card (Fin size) ≤ slab.inUse.toFinset.card :=
    Finset.card_le_card fun block _ => List.mem_toFinset.mpr (none block)
  rw [Fintype.card_fin] at all
  exact room (le_trans all (List.toFinset_card_le _))

/-! ### Blocks in places -/

/-- The places hold exactly the blocks in use, each of them once. -/
def Placed (slab : Slab size) (places : List (Fin size)) : Prop :=
  places.Perm slab.inUse

variable {slab : Slab size} {places : List (Fin size)}

theorem Placed.nodup (placed : slab.Placed places) : places.Nodup :=
  placed.nodup_iff.mpr slab.nodup

theorem Placed.mem_iff (placed : slab.Placed places) {block : Fin size} :
    block ∈ places ↔ block ∈ slab.inUse :=
  List.Perm.mem_iff placed

theorem Placed.length_eq (placed : slab.Placed places) :
    places.length = slab.inUse.length :=
  List.Perm.length_eq placed

/-- A taken block is put in some place. -/
theorem Placed.alloc (placed : slab.Placed places) {block : Fin size}
    (free : block ∉ slab.inUse) {after : List (Fin size)} (put : after.Perm (block :: places)) :
    (slab.alloc block free).Placed after :=
  put.trans (placed.cons block)

/-- A block is given back by the place that holds it. -/
theorem Placed.free {block : Fin size} {before : List (Fin size)}
    (placed : slab.Placed before) (held : before.Perm (block :: places)) :
    (slab.free block).Placed places := by
  have rest := (held.symm.trans placed).erase block
  rwa [List.erase_cons_head] at rest

/-- Blocks may move between the places. -/
theorem Placed.move (placed : slab.Placed places) {after : List (Fin size)}
    (moved : after.Perm places) : slab.Placed after :=
  moved.trans placed

end Slab
