/-
This file develops heaps whose blocks have owners.

A heap maps the addresses of its blocks to their contents. An allocation takes an address
that is not in use; to free an address that is not in use is a fault, so a run of calls
without a fault frees nothing twice. The blocks are owned when every block has one holder
and every holder has at most one block. Then what is in use is exactly what is held:
nothing is leaked. A holder that gives its own block back, and takes a new one only when
it has none, keeps the blocks owned and makes no fault.
-/

import Mathlib.Data.Set.Card
import Mathlib.Data.Set.Finite.Range
import Mathlib.Logic.Function.Basic
import Mathlib.SetTheory.Cardinal.NatCard

namespace Ownership

variable {Address Content Holder : Type}

/-- The contents of the blocks in use. -/
abbrev Heap (Address Content : Type) : Type := Address → Option Content

/-! ### Owners -/

/-- Every block in use has one holder, and the holders hold what is in use. -/
structure Owned (owner : Holder → Option (Address × Content)) (heap : Heap Address Content) :
    Prop where
  exact : ∀ address content, heap address = some content ↔
    ∃ holder, owner holder = some (address, content)
  single : ∀ first second address content other, owner first = some (address, content) →
    owner second = some (address, other) → first = second

theorem owned_nothing :
    Owned (fun _ : Holder => (none : Option (Address × Content))) fun _ => none where
  exact := fun _ _ => ⟨nofun, nofun⟩
  single := nofun

variable {owner : Holder → Option (Address × Content)} {heap : Heap Address Content}

/-- The content of a block is what its holder has. -/
theorem Owned.content (owned : Owned owner heap) {holder : Holder} {address : Address}
    {content : Content} (held : owner holder = some (address, content)) :
    heap address = some content :=
  (owned.exact address content).mpr ⟨holder, held⟩

inductive Call (Address Content : Type)
  | malloc (address : Address) (content : Content)
  | free (address : Address)
  deriving DecidableEq

inductive Fault
  /-- The allocator returned a block that is in use. -/
  | inUse
  /-- A block was freed that is not in use. -/
  | doubleFree
  deriving DecidableEq

variable [DecidableEq Address]

/-- One call of the heap. -/
def call (heap : Heap Address Content) : Call Address Content → Except Fault (Heap Address Content)
  | .malloc address content =>
    if (heap address).isSome then .error .inUse
    else .ok (Function.update heap address (some content))
  | .free address =>
    if (heap address).isSome then .ok (Function.update heap address none)
    else .error .doubleFree

/-- Some calls, in order. -/
def callAll (heap : Heap Address Content) :
    List (Call Address Content) → Except Fault (Heap Address Content)
  | [] => .ok heap
  | first :: rest => do
    let next ← call heap first
    callAll next rest

/-- The calls that free a block, if there is one. -/
def freeCalls : Option (Address × Content) → List (Call Address Content)
  | some block => [.free block.1]
  | none => []

variable [DecidableEq Holder]

/-- A holder frees its block and forgets it. -/
theorem Owned.release (owned : Owned owner heap) (holder : Holder) :
    ∃ after, callAll heap (freeCalls (owner holder)) = .ok after ∧
      Owned (Function.update owner holder none) after := by
  cases held : owner holder with
  | none =>
    refine ⟨heap, rfl, ?_⟩
    rw [← held, Function.update_eq_self]
    exact owned
  | some block =>
    obtain ⟨address, content⟩ := block
    have used : (heap address).isSome = true := by
      rw [owned.content held]
      rfl
    refine ⟨Function.update heap address none, ?_, fun other value => ?_, ?_⟩
    · show callAll heap [.free address] = _
      simp only [callAll, call, if_pos used]
      rfl
    · by_cases same : other = address
      · subst same
        rw [Function.update_self]
        refine ⟨nofun, ?_⟩
        rintro ⟨third, stays⟩
        by_cases own : third = holder
        · rw [own, Function.update_self] at stays
          cases stays
        · rw [Function.update_of_ne own] at stays
          exact absurd (owned.single _ _ _ _ _ stays held) own
      · rw [Function.update_of_ne same, owned.exact]
        refine exists_congr fun third => ?_
        by_cases own : third = holder
        · subst own
          rw [Function.update_self, held]
          refine iff_of_false (fun equal => same ?_) nofun
          exact (Prod.mk.inj (Option.some.inj equal)).1.symm
        · rw [Function.update_of_ne own]
    · intro first second other value another holds holdsToo
      have apart {third : Holder} {value : Content}
          (stays : Function.update owner holder none third = some (other, value)) :
          owner third = some (other, value) := by
        by_cases own : third = holder
        · rw [own, Function.update_self] at stays
          cases stays
        · rwa [Function.update_of_ne own] at stays
      exact owned.single _ _ _ _ _ (apart holds) (apart holdsToo)

/-- A holder without a block takes one, or the allocator is at fault. -/
theorem Owned.acquire (owned : Owned owner heap) {holder : Holder} (empty : owner holder = none)
    (address : Address) (content : Content) :
    callAll heap [.malloc address content] = .error .inUse ∨
      ∃ after, callAll heap [.malloc address content] = .ok after ∧
        Owned (Function.update owner holder (some (address, content))) after := by
  by_cases used : (heap address).isSome = true
  · refine Or.inl ?_
    simp only [callAll, call, if_pos used]
    rfl
  · have unused : heap address = none := by simpa using used
    have unheld {third : Holder} {value : Content} : owner third ≠ some (address, value) := by
      intro held
      rw [owned.content held] at unused
      cases unused
    refine Or.inr ⟨Function.update heap address (some content), ?_, fun other value => ?_, ?_⟩
    · simp only [callAll, call, if_neg used]
      rfl
    · by_cases same : other = address
      · subst same
        rw [Function.update_self]
        constructor
        · intro equal
          rw [Option.some.inj equal]
          exact ⟨holder, Function.update_self _ _ _⟩
        · rintro ⟨third, held⟩
          by_cases own : third = holder
          · rw [own, Function.update_self] at held
            rw [(Prod.mk.inj (Option.some.inj held)).2]
          · rw [Function.update_of_ne own] at held
            exact absurd held unheld
      · rw [Function.update_of_ne same, owned.exact]
        refine exists_congr fun third => ?_
        by_cases own : third = holder
        · subst own
          rw [Function.update_self, empty]
          refine iff_of_false nofun fun equal => same ?_
          exact (Prod.mk.inj (Option.some.inj equal)).1.symm
        · rw [Function.update_of_ne own]
    · intro first second other value another holds holdsToo
      by_cases own : first = holder
      · by_cases ownToo : second = holder
        · rw [own, ownToo]
        · rw [own, Function.update_self] at holds
          rw [Function.update_of_ne ownToo, ← (Prod.mk.inj (Option.some.inj holds)).1] at holdsToo
          exact absurd holdsToo unheld
      · rw [Function.update_of_ne own] at holds
        by_cases ownToo : second = holder
        · rw [ownToo, Function.update_self] at holdsToo
          rw [← (Prod.mk.inj (Option.some.inj holdsToo)).1] at holds
          exact absurd holds unheld
        · rw [Function.update_of_ne ownToo] at holdsToo
          exact owned.single _ _ _ _ _ holds holdsToo

end Ownership
