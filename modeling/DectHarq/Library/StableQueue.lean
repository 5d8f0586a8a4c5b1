/-
This file develops stable priority queues with permanent items.

The specification is a bag of entries. An entry carries the number of its insertion,
which never changes, and the time of its last arrival. A removal takes the entry of
the highest priority that arrived first; a permanent entry is put back at once with a
new arrival time. The implementation is a list with a sorted insertion and a removal
at the head that appends a permanent item at the tail, bypassing the insertion. The
list represents the bag at every moment, provided that permanent items have the least
priority: this is the only fact that makes the bypass sound.
-/

import Mathlib.Data.Set.Insert
import Mathlib.Order.Defs.LinearOrder
import DectHarq.Library.Transition

namespace StableQueue

open Transition

variable {Item Key : Type*} [LinearOrder Key]

/-! ### The specification -/

/-- An inserted item: the number of its insertion, the time of its last arrival, and the
item itself. -/
@[ext]
structure Entry (Item : Type*) where
  id : Nat
  arrival : Nat
  item : Item

/-- The entries present, and the number of arrivals so far. -/
structure Bag (Item : Type*) where
  entries : Set (Entry Item)
  clock : Nat

/-- The bag nothing was inserted in. -/
def Bag.empty : Bag Item := ⟨∅, 0⟩

/-- What is observed of a step: the entry inserted or the entry removed. -/
inductive Move (Item : Type*)
  | insert (entry : Entry Item)
  | remove (entry : Entry Item)

/-- One entry is served before another: it has the higher priority, or the same one and
arrived first. -/
def Before (priority : Item → Key) (first second : Entry Item) : Prop :=
  priority second.item < priority first.item ∨
    priority first.item = priority second.item ∧ first.arrival < second.arrival

/-- An entry is the one a removal must take. -/
def Foremost (priority : Item → Key) (bag : Bag Item) (entry : Entry Item) : Prop :=
  entry ∈ bag.entries ∧ ∀ other ∈ bag.entries, other ≠ entry → Before priority entry other

/-- The steps of the specification. -/
inductive BagStep (priority : Item → Key) (permanent : Item → Prop) :
    Bag Item → Move Item → Bag Item → Prop
  | insert (bag : Bag Item) (item : Item) :
      BagStep priority permanent bag (.insert ⟨bag.clock, bag.clock, item⟩)
        ⟨insert ⟨bag.clock, bag.clock, item⟩ bag.entries, bag.clock + 1⟩
  | remove (bag : Bag Item) (entry : Entry Item) (foremost : Foremost priority bag entry)
      (once : ¬ permanent entry.item) :
      BagStep priority permanent bag (.remove entry) ⟨bag.entries \ {entry}, bag.clock⟩
  | rotate (bag : Bag Item) (entry : Entry Item) (foremost : Foremost priority bag entry)
      (again : permanent entry.item) :
      BagStep priority permanent bag (.remove entry)
        ⟨insert { entry with arrival := bag.clock } (bag.entries \ {entry}), bag.clock + 1⟩

variable {priority : Item → Key} {permanent : Item → Prop}

theorem Before.priority_le {first second : Entry Item} (before : Before priority first second) :
    priority second.item ≤ priority first.item := by
  rcases before with higher | ⟨same, _⟩
  · exact le_of_lt higher
  · exact le_of_eq same.symm

/-- The stamps of a bag are in the past, and entries are told apart by their insertion
numbers. -/
structure Stamped (bag : Bag Item) : Prop where
  id_lt : ∀ entry ∈ bag.entries, entry.id < bag.clock
  arrival_lt : ∀ entry ∈ bag.entries, entry.arrival < bag.clock
  unique : ∀ first ∈ bag.entries, ∀ second ∈ bag.entries, first.id = second.id → first = second

theorem stamped_empty : Stamped (Bag.empty : Bag Item) :=
  ⟨fun _ member => absurd member (Set.notMem_empty _),
    fun _ member => absurd member (Set.notMem_empty _),
    fun _ member => absurd member (Set.notMem_empty _)⟩

theorem Stamped.step {before after : Bag Item} {move : Move Item} (stamped : Stamped before)
    (taken : BagStep priority permanent before move after) : Stamped after := by
  obtain ⟨idLt, arrivalLt, unique⟩ := stamped
  cases taken with
  | insert item =>
    refine ⟨?_, ?_, ?_⟩
    · rintro entry (rfl | member)
      · exact Nat.lt_succ_self _
      · exact Nat.lt_succ_of_lt (idLt entry member)
    · rintro entry (rfl | member)
      · exact Nat.lt_succ_self _
      · exact Nat.lt_succ_of_lt (arrivalLt entry member)
    · rintro first (rfl | firstMember) second (rfl | secondMember) same
      · rfl
      · exact absurd same (Nat.ne_of_gt (idLt second secondMember))
      · exact absurd same (Nat.ne_of_lt (idLt first firstMember))
      · exact unique first firstMember second secondMember same
  | remove entry =>
    exact ⟨fun other member => idLt other member.1, fun other member => arrivalLt other member.1,
      fun first firstMember second secondMember =>
        unique first firstMember.1 second secondMember.1⟩
  | rotate entry foremost =>
    have apart : ∀ other ∈ before.entries \ {entry}, other.id ≠ entry.id :=
      fun other member same => member.2 (unique other member.1 entry foremost.1 same)
    refine ⟨?_, ?_, ?_⟩
    · rintro other (rfl | member)
      · exact Nat.lt_succ_of_lt (idLt entry foremost.1)
      · exact Nat.lt_succ_of_lt (idLt other member.1)
    · rintro other (rfl | member)
      · exact Nat.lt_succ_self _
      · exact Nat.lt_succ_of_lt (arrivalLt other member.1)
    · rintro first (rfl | firstMember) second (rfl | secondMember) same
      · rfl
      · exact absurd same.symm (apart second secondMember)
      · exact absurd same (apart first firstMember)
      · exact unique first firstMember.1 second secondMember.1 same

/-- The stamps of every bag a run reaches are in the past. -/
theorem Stamped.run {start final : Bag Item} {steps : List (Step (Bag Item) (Move Item))}
    (stamped : Stamped start) (run : Run (BagStep priority permanent) start steps final) :
    Stamped final :=
  run.invariant Stamped (fun _ _ => True) (fun _ _ _ _ holds taken => holds.step taken)
    (fun _ _ => trivial) stamped

theorem BagStep.clock_le {before after : Bag Item} {move : Move Item}
    (taken : BagStep priority permanent before move after) : before.clock ≤ after.clock := by
  cases taken with
  | insert => exact Nat.le_succ _
  | remove => exact Nat.le_refl _
  | rotate => exact Nat.le_succ _

/-! ### What every run of the specification does with an item -/

/-- Every entry present or removed was inserted, with the item it now has. -/
theorem inserted_of_run {final : Bag Item} {steps : List (Step (Bag Item) (Move Item))}
    (run : Run (BagStep priority permanent) Bag.empty steps final) :
    (∀ entry ∈ final.entries, ∃ taken ∈ steps, ∃ origin : Entry Item,
        taken.label = .insert origin ∧ origin.id = entry.id ∧ origin.item = entry.item) ∧
      ∀ removal ∈ steps, ∀ entry, removal.label = .remove entry → ∃ taken ∈ steps,
        ∃ origin : Entry Item, taken.label = .insert origin ∧ origin.id = entry.id ∧
          origin.item = entry.item := by
  induction run with
  | nil =>
    exact ⟨fun _ member => absurd member (Set.notMem_empty _),
      fun _ member => absurd member List.not_mem_nil⟩
  | @snoc middle final steps label earlier last inductionHypothesis =>
    obtain ⟨present, removed⟩ := inductionHypothesis
    have old : ∀ entry ∈ middle.entries, ∃ taken ∈ steps ++ [⟨middle, label, final⟩],
        ∃ origin : Entry Item, taken.label = .insert origin ∧ origin.id = entry.id ∧
          origin.item = entry.item := by
      intro entry member
      obtain ⟨taken, earlierMember, origin⟩ := present entry member
      exact ⟨taken, List.mem_append_left _ earlierMember, origin⟩
    have removedNow : ∀ entry, label = .remove entry → entry ∈ middle.entries := by
      rintro entry rfl
      cases last with
      | remove _ foremost => exact foremost.1
      | rotate _ foremost => exact foremost.1
    constructor
    · intro entry member
      cases last with
      | insert item =>
        rcases member with rfl | member
        · exact ⟨_, List.mem_append_right _ List.mem_cons_self, _, rfl, rfl, rfl⟩
        · exact old entry member
      | remove _ foremost => exact old entry member.1
      | rotate moved foremost =>
        rcases member with rfl | member
        · exact old moved foremost.1
        · exact old entry member.1
    · intro removal member entry same
      rcases List.mem_append.mp member with earlierMember | lastMember
      · obtain ⟨taken, takenMember, origin⟩ := removed removal earlierMember entry same
        exact ⟨taken, List.mem_append_left _ takenMember, origin⟩
      · rw [List.mem_singleton.mp lastMember] at same
        exact old entry (removedNow entry same)

/-- An entry that a step does not remove is still present after it. -/
theorem BagStep.stays {before after : Bag Item} {move : Move Item} {entry : Entry Item}
    (taken : BagStep priority permanent before move after) (present : entry ∈ before.entries)
    (kept : move ≠ .remove entry) : entry ∈ after.entries := by
  cases taken with
  | insert => exact Or.inr present
  | remove removed => exact ⟨present, fun same => kept (congrArg Move.remove (Eq.symm same))⟩
  | rotate moved =>
    exact Or.inr ⟨present, fun same => kept (congrArg Move.remove (Eq.symm same))⟩

/-- A permanent entry is still present after any step, possibly with a new arrival time. -/
theorem BagStep.permanent_stays {before after : Bag Item} {move : Move Item}
    {entry : Entry Item} (taken : BagStep priority permanent before move after)
    (present : entry ∈ before.entries) (again : permanent entry.item) :
    ∃ later ∈ after.entries, later.id = entry.id ∧ later.item = entry.item := by
  by_cases same : move = .remove entry
  · subst same
    cases taken with
    | remove _ _ once => exact absurd again once
    | rotate => exact ⟨_, Or.inl rfl, rfl, rfl⟩
  · exact ⟨entry, taken.stays present same, rfl, rfl⟩

/-- A permanent entry stays for ever. -/
theorem permanent_stays_of_run {start final : Bag Item}
    {steps : List (Step (Bag Item) (Move Item))} {entry : Entry Item}
    (run : Run (BagStep priority permanent) start steps final) (present : entry ∈ start.entries)
    (again : permanent entry.item) :
    ∃ later ∈ final.entries, later.id = entry.id ∧ later.item = entry.item := by
  refine run.invariant
    (fun bag => ∃ later ∈ bag.entries, later.id = entry.id ∧ later.item = entry.item)
    (fun _ _ => True) ?_ (fun _ _ => trivial) ⟨entry, present, rfl, rfl⟩
  rintro before move after - ⟨held, member, sameId, sameItem⟩ taken
  obtain ⟨later, laterMember, laterId, laterItem⟩ :=
    taken.permanent_stays member (sameItem ▸ again)
  exact ⟨later, laterMember, laterId.trans sameId, laterItem.trans sameItem⟩

/-- An entry that is not permanent stays until it is removed. -/
theorem stays_until_removed {start final : Bag Item}
    {steps : List (Step (Bag Item) (Move Item))} {entry : Entry Item}
    (run : Run (BagStep priority permanent) start steps final) (present : entry ∈ start.entries) :
    entry ∈ final.entries ∨ ∃ taken ∈ steps, taken.label = .remove entry := by
  by_cases removed : ∃ taken ∈ steps, taken.label = .remove entry
  · exact Or.inr removed
  · refine Or.inl (run.invariant (fun bag => entry ∈ bag.entries)
      (fun _ move => move ≠ .remove entry)
      (fun _ _ _ kept held taken => taken.stays held kept) ?_ present)
    exact fun taken member same => removed ⟨taken, member, same⟩

/-- An insertion number that is in the past and no longer present never comes back. -/
theorem gone_for_ever {start final : Bag Item} {steps : List (Step (Bag Item) (Move Item))}
    {id : Nat} (run : Run (BagStep priority permanent) start steps final)
    (past : id < start.clock) (gone : ∀ entry ∈ start.entries, entry.id ≠ id) :
    (∀ entry ∈ final.entries, entry.id ≠ id) ∧
      ∀ taken ∈ steps, ∀ entry, taken.label = .remove entry → entry.id ≠ id := by
  have absent : ∀ (before : Bag Item) (move : Move Item) (after : Bag Item), True →
      (id < before.clock ∧ ∀ entry ∈ before.entries, entry.id ≠ id) →
      BagStep priority permanent before move after →
        id < after.clock ∧ ∀ entry ∈ after.entries, entry.id ≠ id := by
    rintro before move after - ⟨before_past, before_gone⟩ taken
    refine ⟨lt_of_lt_of_le before_past taken.clock_le, ?_⟩
    cases taken with
    | insert item =>
      rintro entry (rfl | member)
      · exact Nat.ne_of_gt before_past
      · exact before_gone entry member
    | remove => exact fun entry member => before_gone entry member.1
    | rotate moved foremost =>
      rintro entry (rfl | member)
      · exact before_gone moved foremost.1
      · exact before_gone entry member.1
  refine ⟨(run.invariant _ _ absent (fun _ _ => trivial) ⟨past, gone⟩).2, ?_⟩
  intro taken member entry same
  have before := run.invariant_before _ _ absent (fun _ _ => trivial) ⟨past, gone⟩ taken member
  have step := run.taken taken member
  rw [same] at step
  generalize taken.after = after at step
  cases step with
  | remove _ foremost => exact before.2 entry foremost.1
  | rotate _ foremost => exact before.2 entry foremost.1

/-- The bag after a removal of an entry that is not permanent holds no entry with its
insertion number. -/
theorem BagStep.removed {before after : Bag Item} {entry : Entry Item}
    (taken : BagStep priority permanent before (.remove entry) after) (stamped : Stamped before)
    (once : ¬ permanent entry.item) :
    entry.id < after.clock ∧ ∀ other ∈ after.entries, other.id ≠ entry.id := by
  cases taken with
  | remove _ foremost =>
    exact ⟨stamped.id_lt entry foremost.1, fun other member same =>
      member.2 (stamped.unique other member.1 entry foremost.1 same)⟩
  | rotate _ _ again => exact absurd again once

/-- An entry that is not permanent is removed at most once. -/
theorem removed_once {middle after final : Bag Item} {entry : Entry Item}
    {rest : List (Step (Bag Item) (Move Item))} (stamped : Stamped middle)
    (taken : BagStep priority permanent middle (.remove entry) after)
    (once : ¬ permanent entry.item) (run : Run (BagStep priority permanent) after rest final) :
    (∀ other ∈ final.entries, other.id ≠ entry.id) ∧
      ∀ later ∈ rest, ∀ other, later.label = .remove other → other.id ≠ entry.id := by
  obtain ⟨past, gone⟩ := taken.removed stamped once
  exact gone_for_ever run past gone

/-- The entry with a given insertion number is a given item that arrived no earlier than a
given time. -/
def ArrivedSince (id time : Nat) (item : Item) (bag : Bag Item) : Prop :=
  id < bag.clock ∧ time ≤ bag.clock ∧
    ∀ entry ∈ bag.entries, entry.id = id → time ≤ entry.arrival ∧ entry.item = item

theorem ArrivedSince.step {before after : Bag Item} {move : Move Item} {id time : Nat}
    {item : Item} (since : ArrivedSince id time item before)
    (taken : BagStep priority permanent before move after) :
    ArrivedSince id time item after := by
  obtain ⟨past, timeLe, arrived⟩ := since
  refine ⟨lt_of_lt_of_le past taken.clock_le, le_trans timeLe taken.clock_le, ?_⟩
  cases taken with
  | insert item =>
    rintro entry (rfl | member) same
    · exact absurd same (Nat.ne_of_gt past)
    · exact arrived entry member same
  | remove => exact fun entry member same => arrived entry member.1 same
  | rotate moved foremost =>
    rintro entry (rfl | member) same
    · exact ⟨timeLe, (arrived moved foremost.1 same).2⟩
    · exact arrived entry member.1 same

/-- Permanent items have the least priority. -/
def PermanentLeast (priority : Item → Key) (permanent : Item → Prop) : Prop :=
  ∀ item, permanent item → ∀ other, priority item ≤ priority other

/-- Between two removals of a permanent entry every other permanent entry that was present at
the first one is removed. -/
theorem permanent_fair {before after later final : Bag Item} {entry again other : Entry Item}
    {between : List (Step (Bag Item) (Move Item))} (least : PermanentLeast priority permanent)
    (stamped : Stamped before) (first : BagStep priority permanent before (.remove entry) after)
    (run : Run (BagStep priority permanent) after between later)
    (second : BagStep priority permanent later (.remove again) final)
    (same : again.id = entry.id) (permanentEntry : permanent entry.item)
    (present : other ∈ before.entries)
    (apart : other.id ≠ entry.id) :
    ∃ taken ∈ between, taken.label = .remove other := by
  have stays : other ∈ after.entries := first.stays present fun removed => by
    injection removed with equal
    exact apart (congrArg Entry.id equal).symm
  rcases stays_until_removed run stays with waiting | served
  · exfalso
    have since : ArrivedSince entry.id before.clock entry.item after := by
      cases first with
      | remove _ _ once => exact absurd permanentEntry once
      | rotate _ foremost =>
        refine ⟨Nat.lt_succ_of_lt (stamped.id_lt entry foremost.1), Nat.le_succ _, ?_⟩
        rintro held (rfl | member) sameId
        · exact ⟨Nat.le_refl _, rfl⟩
        · exact absurd (stamped.unique held member.1 entry foremost.1 sameId) member.2
    have sinceLater : ArrivedSince entry.id before.clock entry.item later :=
      run.invariant _ (fun _ _ => True) (fun _ _ _ _ held taken => held.step taken)
        (fun _ _ => trivial) since
    have foremost : Foremost priority later again := by
      cases second with
      | remove _ foremost => exact foremost
      | rotate _ foremost => exact foremost
    have distinct : other ≠ again := fun equal => apart (by rw [equal, same])
    obtain ⟨recent, sameItem⟩ := sinceLater.2.2 again foremost.1 same
    have old := stamped.arrival_lt other present
    rcases foremost.2 other waiting distinct with higher | ⟨_, earlier⟩
    · exact absurd (least again.item (sameItem ▸ permanentEntry) other.item)
        (not_le_of_gt higher)
    · omega
  · exact served

/-- What the order of service promises about the steps of a run that ends in a bag. -/
structure Served (priority : Item → Key) (permanent : Item → Prop)
    (moves : List (Step (Bag Item) (Move Item))) (bag : Bag Item) : Prop where
  /-- A removal takes the oldest entry of the highest priority. -/
  foremost : ∀ taken ∈ moves, ∀ entry, taken.label = .remove entry →
    Foremost priority taken.before entry
  /-- What is removed was inserted before, as the same item. -/
  origin : ∀ earlier removal later entry, moves = earlier ++ removal :: later →
    removal.label = .remove entry → ∃ taken ∈ earlier, ∃ inserted : Entry Item,
      taken.label = .insert inserted ∧ inserted.id = entry.id ∧ inserted.item = entry.item
  /-- An inserted entry is present until it is removed. -/
  kept : ∀ earlier insertion later entry, moves = earlier ++ insertion :: later →
    insertion.label = .insert entry →
      entry ∈ bag.entries ∨ ∃ taken ∈ later, taken.label = .remove entry
  /-- An entry that is not permanent is removed at most once. -/
  once : ∀ earlier removal later entry, moves = earlier ++ removal :: later →
    removal.label = .remove entry → ¬ permanent entry.item →
      (∀ other ∈ bag.entries, other.id ≠ entry.id) ∧
        ∀ taken ∈ later, ∀ other, taken.label = .remove other → other.id ≠ entry.id
  /-- A permanent entry is present for ever. -/
  stays : ∀ earlier insertion later entry, moves = earlier ++ insertion :: later →
    insertion.label = .insert entry → permanent entry.item →
      ∃ held ∈ bag.entries, held.id = entry.id ∧ held.item = entry.item
  /-- A permanent entry is not removed again before every other entry that was present. -/
  fair : ∀ earlier first between second later entry again,
    moves = earlier ++ first :: (between ++ second :: later) → first.label = .remove entry →
      second.label = .remove again → again.id = entry.id → permanent entry.item →
        ∀ other ∈ first.before.entries, other.id ≠ entry.id →
          ∃ taken ∈ between, taken.label = .remove other

theorem BagStep.foremost {before after : Bag Item} {entry : Entry Item}
    (taken : BagStep priority permanent before (.remove entry) after) :
    Foremost priority before entry := by
  cases taken with
  | remove _ foremost => exact foremost
  | rotate _ foremost => exact foremost

theorem BagStep.inserted {before after : Bag Item} {entry : Entry Item}
    (taken : BagStep priority permanent before (.insert entry) after) :
    entry ∈ after.entries := by
  cases taken with
  | insert => exact Set.mem_insert _ _

/-- Every run from the empty bag keeps all these promises. -/
theorem served_of_run {moves : List (Step (Bag Item) (Move Item))} {bag : Bag Item}
    (least : PermanentLeast priority permanent)
    (run : Run (BagStep priority permanent) Bag.empty moves bag) :
    Served priority permanent moves bag where
  foremost := fun taken member entry label => by
    have step := run.taken taken member
    rw [label] at step
    exact step.foremost
  origin := fun earlier removal later entry cut label => by
    obtain ⟨before, step, _⟩ := run.split_at cut
    rw [label] at step
    exact (inserted_of_run before).1 entry step.foremost.1
  kept := fun earlier insertion later entry cut label => by
    obtain ⟨_, step, after⟩ := run.split_at cut
    rw [label] at step
    exact stays_until_removed after step.inserted
  once := fun earlier removal later entry cut label once => by
    obtain ⟨before, step, after⟩ := run.split_at cut
    rw [label] at step
    exact removed_once (stamped_empty.run before) step once after
  stays := fun earlier insertion later entry cut label again => by
    obtain ⟨_, step, after⟩ := run.split_at cut
    rw [label] at step
    exact permanent_stays_of_run after step.inserted again
  fair := fun earlier first between second later entry again cut firstLabel secondLabel same
      permanentEntry other present apart => by
    obtain ⟨before, firstStep, rest⟩ := run.split_at cut
    obtain ⟨middle, secondStep, _⟩ := rest.split_at rfl
    rw [firstLabel] at firstStep
    rw [secondLabel] at secondStep
    exact permanent_fair least (stamped_empty.run before) firstStep middle secondStep same
      permanentEntry present apart

/-! ### The implementation -/

/-- Insert before the first item of a lower priority, at the end if there is none. -/
def insertStable (priority : Item → Key) (item : Item) : List Item → List Item
  | [] => [item]
  | current :: rest =>
    if priority current < priority item then item :: current :: rest
    else current :: insertStable priority item rest

/-- The list after a removal at the head: a permanent item goes to the tail. -/
def afterRemoval (permanent : Item → Prop) [DecidablePred permanent] (head : Item)
    (rest : List Item) : List Item :=
  if permanent head then rest ++ [head] else rest

theorem insertStable_perm (priority : Item → Key) (item : Item) (items : List Item) :
    (insertStable priority item items).Perm (item :: items) := by
  induction items with
  | nil => exact List.Perm.refl _
  | cons current rest inductionHypothesis =>
    rw [insertStable]
    split
    · exact List.Perm.refl _
    · exact (inductionHypothesis.cons current).trans (List.Perm.swap item current rest)

theorem insertStable_map {Source : Type*} (priority : Item → Key) (view : Source → Item)
    (item : Source) (items : List Source) :
    (insertStable (priority ∘ view) item items).map view =
      insertStable priority (view item) (items.map view) := by
  induction items with
  | nil => rfl
  | cons current rest inductionHypothesis =>
    simp only [insertStable, List.map_cons, Function.comp_apply]
    split
    · rfl
    · rw [List.map_cons, inductionHypothesis]

/-- A list represents a bag: it is the bag's entries in the order of service. -/
def Represents (priority : Item → Key) (items : List Item) (bag : Bag Item) : Prop :=
  ∃ entries : List (Entry Item), entries.map Entry.item = items ∧
    entries.Pairwise (Before priority) ∧ (∀ entry, entry ∈ entries ↔ entry ∈ bag.entries)

theorem represents_empty : Represents priority [] (Bag.empty : Bag Item) :=
  ⟨[], rfl, List.Pairwise.nil, fun entry => by simp [Bag.empty]⟩

/-- A representing list is sorted by non-increasing priority. -/
theorem Represents.sorted {items : List Item} {bag : Bag Item}
    (represents : Represents priority items bag) :
    items.Pairwise fun first second => priority second ≤ priority first := by
  obtain ⟨entries, rfl, sorted, _⟩ := represents
  exact List.pairwise_map.mpr (sorted.imp Before.priority_le)

/-- Inserting a new arrival keeps the order of service. -/
theorem insertStable_sorted (arrival : Entry Item) (entries : List (Entry Item))
    (sorted : entries.Pairwise (Before priority))
    (past : ∀ entry ∈ entries, entry.arrival < arrival.arrival) :
    (insertStable (priority ∘ Entry.item) arrival entries).Pairwise (Before priority) := by
  induction entries with
  | nil => exact List.pairwise_singleton _ _
  | cons current rest inductionHypothesis =>
    obtain ⟨first, restSorted⟩ := List.pairwise_cons.mp sorted
    rw [insertStable]
    split
    · rename_i lower
      refine List.pairwise_cons.mpr ⟨fun entry member => Or.inl ?_, sorted⟩
      rcases List.mem_cons.mp member with rfl | later
      · exact lower
      · exact lt_of_le_of_lt (first entry later).priority_le lower
    · rename_i notLower
      refine List.pairwise_cons.mpr ⟨fun entry member => ?_, inductionHypothesis restSorted
        fun entry member => past entry (List.mem_cons_of_mem _ member)⟩
      rcases List.mem_cons.mp ((insertStable_perm _ _ _).mem_iff.mp member) with rfl | later
      · rcases lt_or_eq_of_le (not_lt.mp notLower) with higher | same
        · exact Or.inl higher
        · exact Or.inr ⟨same.symm, past current List.mem_cons_self⟩
      · exact first entry later

/-- The sorted insertion implements the insertion of the specification. -/
theorem Represents.insert {items : List Item} {bag : Bag Item}
    (represents : Represents priority items bag) (stamped : Stamped bag) (item : Item) :
    Represents priority (insertStable priority item items)
      ⟨Insert.insert ⟨bag.clock, bag.clock, item⟩ bag.entries, bag.clock + 1⟩ := by
  obtain ⟨entries, rfl, sorted, same⟩ := represents
  refine ⟨insertStable (priority ∘ Entry.item) ⟨bag.clock, bag.clock, item⟩ entries,
    insertStable_map priority Entry.item _ entries, insertStable_sorted _ entries sorted
      fun entry member => stamped.arrival_lt entry ((same entry).mp member), fun entry => ?_⟩
  rw [(insertStable_perm _ _ _).mem_iff, List.mem_cons, Set.mem_insert_iff, same]

/-- The removal at the head implements the removal of the specification. -/
theorem Represents.remove [DecidablePred permanent] {head : Item} {rest : List Item}
    {bag : Bag Item} (least : PermanentLeast priority permanent)
    (represents : Represents priority (head :: rest) bag) (stamped : Stamped bag) :
    ∃ entry after, entry.item = head ∧ BagStep priority permanent bag (.remove entry) after ∧
      Represents priority (afterRemoval permanent head rest) after := by
  obtain ⟨entries, items, sorted, same⟩ := represents
  cases entries with
  | nil => cases items
  | cons entry others =>
    rw [List.map_cons, List.cons.injEq] at items
    obtain ⟨rfl, rfl⟩ := items
    obtain ⟨first, othersSorted⟩ := List.pairwise_cons.mp sorted
    have foremost : Foremost priority bag entry := by
      refine ⟨(same entry).mp List.mem_cons_self, fun other member distinct => ?_⟩
      rcases List.mem_cons.mp ((same other).mpr member) with equal | later
      · exact absurd equal distinct
      · exact first other later
    have absent : entry ∉ others := fun member => by
      rcases first entry member with higher | ⟨_, earlier⟩
      · exact lt_irrefl _ higher
      · exact Nat.lt_irrefl _ earlier
    have remaining : ∀ other, other ∈ others ↔ other ∈ bag.entries \ {entry} := by
      intro other
      rw [Set.mem_sdiff, ← same, List.mem_cons, Set.mem_singleton_iff]
      constructor
      · exact fun member => ⟨Or.inr member, fun equal => absent (equal ▸ member)⟩
      · rintro ⟨equal | member, distinct⟩
        · exact absurd equal distinct
        · exact member
    by_cases again : permanent entry.item
    · refine ⟨entry, _, rfl, BagStep.rotate bag entry foremost again, ?_⟩
      rw [afterRemoval, if_pos again]
      refine ⟨others ++ [{ entry with arrival := bag.clock }], by rw [List.map_append]; rfl, ?_,
        fun other => ?_⟩
      · refine List.pairwise_append.mpr ⟨othersSorted, List.pairwise_singleton _ _, ?_⟩
        intro other member last lastMember
        rw [List.mem_singleton.mp lastMember]
        have present : other ∈ bag.entries := ((remaining other).mp member).1
        rcases lt_or_eq_of_le (least entry.item again other.item) with higher | equal
        · exact Or.inl higher
        · exact Or.inr ⟨equal.symm, stamped.arrival_lt other present⟩
      · rw [List.mem_append, List.mem_singleton, remaining, Set.mem_insert_iff, or_comm]
    · refine ⟨entry, _, rfl, BagStep.remove bag entry foremost again, ?_⟩
      rw [afterRemoval, if_neg again]
      exact ⟨others, rfl, othersSorted, remaining⟩

end StableQueue
