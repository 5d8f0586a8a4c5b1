/-
This file models the cleaning thread among other threads.

The pass takes the mutex for its deletions only. The iterator, the test of a flag, the
read of an address and the clearing of a flag go through pointers without it, so that other
threads may work on the table between any two of them. Each of them is one step here. The
iterator is that of the hash map: it gives mapped pointers, in an order and for a time that
are not known.
-/

import DectHarq.Cleaning
import DectHarq.Library.Transition

namespace DectHarq

/-! ### The thread -/

/-- Where the cleaning thread is in `dect_mac_node_clean_unused_nodes`. What it goes on with after
an entry is the value that the iterator has moved on to, or nothing after the last entry. -/
inductive Cleaner
  /-- In `k_sleep`. -/
  | asleep
  /-- At the condition of the loop, with the value of the iterator. -/
  | iterating (value : Option Nat)
  /-- About to test the flag of the record at a value. -/
  | testing (value next : Option Nat)
  /-- The flag was clear: about to read the address of the record. -/
  | reading (pointer : Nat) (next : Option Nat)
  /-- About to call `dect_mac_node_delete_node`. -/
  | deleting (address : Nat) (next : Option Nat)
  /-- The flag was set: about to clear it. -/
  | clearing (pointer : Nat) (next : Option Nat)
  deriving DecidableEq, Repr

/-- After an entry: back to the loop, or to sleep. -/
def Cleaner.goOn : Option Nat → Cleaner
  | some value => .iterating (some value)
  | none => .asleep

/-- The steps of the cleaning thread. -/
inductive PassEvent
  /-- The iterator is created and moved to its first entry, if it has one. -/
  | start (first : Option Nat)
  /-- The iterator has a next entry: it is copied and moved on. -/
  | advance (next : Nat)
  /-- The iterator has no next entry. -/
  | finish
  | test
  | read
  | delete
  | clear
  deriving DecidableEq, Repr

/-- One step of the cleaning thread. -/
def passStep (heap : NodeHeap) : Cleaner → PassEvent → Except Stop (NodeHeap × Cleaner)
  | .asleep, .start first =>
    if ∀ pointer ∈ first, pointer ∈ heap.pointers then .ok (heap, .iterating first)
    else .error .disabled
  | .iterating value, .advance next =>
    if next ∈ heap.pointers then .ok (heap, .testing value (some next)) else .error .disabled
  | .iterating value, .finish =>
    if heap.map.keys.isEmpty then .ok (heap, .asleep) else .ok (heap, .testing value none)
  | .testing value next, .test =>
    match value with
    | none => .error .nullPointer -- the iterator was never moved
    | some pointer =>
      match heap.records pointer with
      | none => .error .outOfBounds -- the record was freed
      | some node =>
        if !node.used then .ok (heap, .reading pointer next) else .ok (heap, .clearing pointer next)
  | .reading pointer next, .read =>
    match heap.records pointer with
    | none => .error .outOfBounds
    | some node => .ok (heap, .deleting node.address next)
  | .deleting address next, .delete => .ok ((deleteSection address heap).2, .goOn next)
  | .clearing pointer next, .clear =>
    match heap.records pointer with
    | none => .error .outOfBounds
    | some node => .ok (heap.write pointer (some { node with used := false }), .goOn next)
  | _, _ => .error .disabled

/-- What a step of the cleaning thread does. -/
inductive PassMove (heap : NodeHeap) : Cleaner → PassEvent → NodeHeap → Cleaner → Prop
  | start {first : Option Nat} (mapped : ∀ pointer ∈ first, pointer ∈ heap.pointers) :
      PassMove heap .asleep (.start first) heap (.iterating first)
  | advance (value : Option Nat) {next : Nat} (mapped : next ∈ heap.pointers) :
      PassMove heap (.iterating value) (.advance next) heap (.testing value (some next))
  | leave (value : Option Nat) (empty : heap.map.keys.isEmpty = true) :
      PassMove heap (.iterating value) .finish heap .asleep
  | finish (value : Option Nat) (left : heap.map.keys.isEmpty = false) :
      PassMove heap (.iterating value) .finish heap (.testing value none)
  | unused {pointer : Nat} {node : Node} (next : Option Nat)
      (record : heap.records pointer = some node) (unused : node.used = false) :
      PassMove heap (.testing (some pointer) next) .test heap (.reading pointer next)
  | used {pointer : Nat} {node : Node} (next : Option Nat)
      (record : heap.records pointer = some node) (used : node.used = true) :
      PassMove heap (.testing (some pointer) next) .test heap (.clearing pointer next)
  | read {pointer : Nat} {node : Node} (next : Option Nat)
      (record : heap.records pointer = some node) :
      PassMove heap (.reading pointer next) .read heap (.deleting node.address next)
  | delete (address : Nat) (next : Option Nat) :
      PassMove heap (.deleting address next) .delete (deleteSection address heap).2 (.goOn next)
  | clear {pointer : Nat} {node : Node} (next : Option Nat)
      (record : heap.records pointer = some node) :
      PassMove heap (.clearing pointer next) .clear
        (heap.write pointer (some { node with used := false })) (.goOn next)

/-- The steps of the cleaning thread are its moves. -/
theorem passStep_eq_ok_iff {heap after : NodeHeap} {cleaner next : Cleaner} {event : PassEvent} :
    passStep heap cleaner event = .ok (after, next) ↔
      PassMove heap cleaner event after next := by
  constructor
  · intro stepped
    unfold passStep at stepped
    split at stepped
    · split at stepped
      · rename_i mapped
        cases stepped
        exact PassMove.start mapped
      · cases stepped
    · split at stepped
      · rename_i mapped
        cases stepped
        exact PassMove.advance _ mapped
      · cases stepped
    · split at stepped
      · rename_i empty
        cases stepped
        exact PassMove.leave _ empty
      · rename_i left
        cases stepped
        exact PassMove.finish _ (Bool.eq_false_iff.mpr left)
    · split at stepped
      · cases stepped
      · split at stepped
        · cases stepped
        · rename_i node record
          split at stepped
          · rename_i unused
            cases stepped
            exact PassMove.unused _ record (by simpa using unused)
          · rename_i used
            cases stepped
            exact PassMove.used _ record (by simpa using used)
    · split at stepped
      · cases stepped
      · rename_i node record
        cases stepped
        exact PassMove.read _ record
    · cases stepped
      exact PassMove.delete _ _
    · split at stepped
      · cases stepped
      · rename_i node record
        cases stepped
        exact PassMove.clear _ record
    · cases stepped
  · intro move
    cases move with
    | start mapped => exact if_pos mapped
    | advance _ mapped => exact if_pos mapped
    | leave _ empty => exact if_pos empty
    | finish _ left => exact if_neg (Bool.eq_false_iff.mp left)
    | unused _ record unused => simp [passStep, record, unused]
    | used _ record used => simp [passStep, record, used]
    | read _ record => simp [passStep, record]
    | delete => rfl
    | clear _ record => simp [passStep, record]

/-! ### A pass without other threads -/

/-- A run of the cleaning thread while no other thread runs. -/
abbrev PassRun (start : NodeHeap × Cleaner)
    (steps : List (Transition.Step (NodeHeap × Cleaner) PassEvent)) (final : NodeHeap × Cleaner) :
    Prop :=
  Transition.Run (Transition.stepOf fun state event => passStep state.1 state.2 event) start steps
    final

section Alone

variable {heap : NodeHeap} {order : List Nat} {pass : Cleaning}

theorem PassMove.run {after : NodeHeap} {cleaner next : Cleaner} {event : PassEvent}
    (move : PassMove heap cleaner event after next) :
    PassRun (heap, cleaner) [⟨(heap, cleaner), event, (after, next)⟩] (after, next) :=
  Transition.Run.single (passStep_eq_ok_iff.mpr move)

/-- The steps at one entry are the examination of the entry. -/
theorem examine_run {value : Option Nat} {after : Cleaning}
    (examined : examine value pass = .ok after) (next : Option Nat) :
    ∃ steps, PassRun (pass.heap, .testing value next) steps (after.heap, .goOn next) := by
  unfold examine at examined
  split at examined
  · cases examined
  · split at examined
    · cases examined
    · rename_i node record
      split at examined
      · rename_i unused
        cases examined
        exact ⟨_, ((PassMove.unused next record (by simpa using unused)).run.append
          (PassMove.read next record).run).append (PassMove.delete node.address next).run⟩
      · rename_i used
        cases examined
        exact ⟨_, (PassMove.used next record (by simpa using used)).run.append
          (PassMove.clear next record).run⟩

/-- The steps of the loop are those of `cleanWhile`: an entry that the iterator moves to is still
there, as only entries behind it were examined. -/
theorem Examined.loop_run (sound : heap.Sound) (later : List Nat) :
    ∀ {done : List Nat} {pass ended : Cleaning} {current : Nat} {value : Option Nat},
      Examined heap done pass → (∀ pointer ∈ current :: later, pointer ∈ heap.pointers) →
        (done ++ current :: later).Nodup →
          cleanWhile (some current) later pass = .ok (value, ended) →
            ∃ steps, PassRun (pass.heap, .iterating (some current)) steps
              (ended.heap, .iterating value) := by
  induction later with
  | nil =>
    intro done pass ended current value _ _ _ ran
    cases ran
    exact ⟨[], Transition.Run.nil _⟩
  | cons following later inductionHypothesis =>
    intro done pass ended current value now mapped nodup ran
    have fresh : current ∉ done ∧ following ∉ done := by
      have disjoint := List.disjoint_of_nodup_append nodup
      exact ⟨fun old => disjoint old List.mem_cons_self,
        fun old => disjoint old (List.mem_cons_of_mem _ List.mem_cons_self)⟩
    obtain ⟨same, ranEntry, after⟩ := now.step sound (mapped current List.mem_cons_self) fresh.1
    obtain ⟨examined, entry, rest⟩ := bind_ok.mp ran
    rw [ranEntry] at entry
    cases entry
    have ahead : following ∈ pass.heap.pointers := by
      obtain ⟨address, found⟩ := NodeHeap.mem_pointers_iff.mp
        (mapped following (List.mem_cons_of_mem _ List.mem_cons_self))
      exact NodeHeap.mem_pointers_iff.mpr ⟨address, now.mapped found fresh.2⟩
    obtain ⟨first, atEntry⟩ := examine_run ranEntry (some following)
    obtain ⟨others, inLoop⟩ := inductionHypothesis after
      (fun pointer member => mapped pointer (List.mem_cons_of_mem _ member))
      (by rwa [List.append_assoc]) rest
    exact ⟨_, ((PassMove.advance _ ahead).run.append atEntry).append inLoop⟩

/-- With no other thread, the thread's pass over a table is `cleanUnusedNodes`, and so it is
exact. -/
theorem cleanUnusedNodes_run (sound : heap.Sound) (iterates : order.Perm heap.pointers) :
    ∃ pass steps, cleanUnusedNodes order heap = .ok pass ∧ ExactCleaning heap order pass ∧
      PassRun (heap, .asleep) steps (pass.heap, .asleep) := by
  obtain ⟨pass, ran, cleaned⟩ := cleanUnusedNodes_exact sound iterates
  obtain ⟨⟨value, almost⟩, looped, rest⟩ := bind_ok.mp ran
  have begun : ∃ steps, PassRun (heap, .asleep) steps (almost.heap, .iterating value) := by
    cases order with
    | nil =>
      cases looped
      exact ⟨_, (PassMove.start fun pointer none => absurd none (Option.not_mem_none _)).run⟩
    | cons first later =>
      have mapped (pointer : Nat) (member : pointer ∈ first :: later) : pointer ∈ heap.pointers :=
        iterates.mem_iff.mp member
      obtain ⟨steps, inLoop⟩ := (examined_nothing heap).loop_run sound later mapped
        (iterates.nodup_iff.mpr sound.pointers_nodup) looped
      refine ⟨_, (PassMove.start fun pointer own => ?_).run.append inLoop⟩
      exact mapped pointer (Option.some.inj own ▸ List.mem_cons_self)
  have ended : ∃ steps, PassRun (almost.heap, .iterating value) steps (pass.heap, .asleep) := by
    dsimp only at rest
    split at rest
    · rename_i empty
      cases rest
      exact ⟨_, (PassMove.leave value empty).run⟩
    · rename_i left
      obtain ⟨steps, atLast⟩ := examine_run rest none
      exact ⟨_, (PassMove.finish value (Bool.eq_false_iff.mpr left)).run.append atLast⟩
  obtain ⟨early, first⟩ := begun
  obtain ⟨late, second⟩ := ended
  exact ⟨pass, _, ran, cleaned, first.append second⟩

end Alone

end DectHarq
