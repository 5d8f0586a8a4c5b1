/-
This file proves that the operation queue is a stable priority queue.

The list under `queue_mutex` represents a bag of entries at every moment. The put
thread's insertion is an insertion in the bag, the executor's removal is a removal of
the entry to be served next, and no other action of the program touches the list. A
permanent item is appended at the tail without looking at priorities, which is the
right place because its priority is the least one.
-/

import DectHarq.QueueMoves

namespace DectHarq

open StableQueue

variable {config : Config}

/-- What is seen of the list when an item is inserted or removed. -/
inductive ListChange
  | inserted (item : QueueItem)
  | removed (item : QueueItem)
  deriving DecidableEq

/-- The change of the list that a step makes: the put thread's insertion, unless it ended, and
the executor's removal of the item it is then about to execute. -/
def listChange (taken : Transition.Step (System config) (Event config)) : Option ListChange :=
  match taken.label with
  | .putInsert =>
    match taken.before.queue.putThread, taken.after.queue.putThread with
    | .copied item, .inserted => some (.inserted item)
    | _, _ => none
  | .execRemove =>
    match taken.after.queue.execThread with
    | .executing item => some (.removed item)
    | _ => none
  | _ => none

/-- What is seen of a move of the specification. -/
def changeOf : Move QueueItem → ListChange
  | .insert entry => .inserted entry.item
  | .remove entry => .removed entry.item

/-- A move of the specification is what a step does to the list. -/
structure Matches (move : Transition.Step (Bag QueueItem) (Move QueueItem))
    (taken : Transition.Step (System config) (Event config)) : Prop where
  before : Represents priorityKey taken.before.queue.list move.before
  after : Represents priorityKey taken.after.queue.list move.after
  same : listChange taken = some (changeOf move.label)

/-- The steps that change the list. -/
def listChanges (steps : List (Transition.Step (System config) (Event config))) :
    List (Transition.Step (System config) (Event config)) :=
  steps.filter fun taken => (listChange taken).isSome

/-- Other actions than those of the threads change nothing that is seen of the list. -/
theorem listChange_outside {event : Event config} (outside : ¬ event.OfThreads)
    (system after : System config) : listChange ⟨system, event, after⟩ = none := by
  cases event with
  | putInsert => exact absurd trivial outside
  | execRemove => exact absurd trivial outside
  | _ => rfl

/-- A step inserts an item in its place, removes the head, or leaves the list alone. -/
theorem Action.list {system after : System config} {event : Event config}
    (action : Action system event after) :
    (listChange ⟨system, event, after⟩ = none ∧ after.queue.list = system.queue.list) ∨
      (∃ item, listChange ⟨system, event, after⟩ = some (.inserted item) ∧
        after.queue.list = insertNode item system.queue.list) ∨
      ∃ item rest, listChange ⟨system, event, after⟩ = some (.removed item) ∧
        system.queue.list = item :: rest ∧
        after.queue.list = afterRemoval Permanent item rest := by
  have move := action.queueMove
  generalize same : after.queue = queue at move
  cases move with
  | put outside put =>
    refine Or.inl ⟨listChange_outside outside system after, ?_⟩
    rcases dectPhyQueuePut_cases put with ⟨_, _, rfl⟩ | ⟨_, _, rfl⟩ <;> rfl
  | putInsert ran =>
    obtain ⟨item, copied, _, ⟨_, rfl⟩ | ⟨_, rfl⟩ | ⟨_, _, rfl⟩⟩ := putThreadInsert_cases ran
    · refine Or.inl ⟨?_, rfl⟩
      simp only [listChange, same, copied]
    · refine Or.inl ⟨?_, rfl⟩
      simp only [listChange, same, copied]
    · refine Or.inr (Or.inl ⟨item, ?_, rfl⟩)
      simp only [listChange, same, copied]
  | execRemove ran =>
    obtain ⟨_, item, rest, list, ⟨permanent, rfl⟩ | ⟨once, rfl⟩⟩ := execThreadRemove_cases ran
    · refine Or.inr (Or.inr ⟨item, rest, ?_, list, ?_⟩)
      · simp only [listChange, same]
      · rw [afterRemoval, if_pos permanent]
    · refine Or.inr (Or.inr ⟨item, rest, ?_, list, ?_⟩)
      · simp only [listChange, same]
      · rw [afterRemoval, if_neg once]
  | putGet ran =>
    obtain ⟨_, _, _, _, rfl⟩ := putThreadGet_cases ran
    exact Or.inl ⟨rfl, rfl⟩
  | putFree ran =>
    obtain ⟨_, _, rfl⟩ := putThreadFree_cases ran
    exact Or.inl ⟨rfl, rfl⟩
  | putGive ran =>
    obtain ⟨_, rfl⟩ := putThreadGive_cases ran
    exact Or.inl ⟨rfl, rfl⟩
  | execTakePhy ran =>
    obtain ⟨_, _, rfl⟩ := execThreadTakePhy_cases ran
    exact Or.inl ⟨rfl, rfl⟩
  | execTakeItem ran =>
    obtain ⟨_, _, rfl⟩ := execThreadTakeItem_cases ran
    exact Or.inl ⟨rfl, rfl⟩
  | execDispatch executing => exact Or.inl ⟨rfl, rfl⟩
  | elsewhere outside kept => exact Or.inl ⟨listChange_outside outside system after, kept.list⟩

/-- Only the two sections under the mutex change the list. -/
theorem Action.list_other {system after : System config} {event : Event config}
    (action : Action system event after) (notInsert : event ≠ .putInsert)
    (notRemove : event ≠ .execRemove) : after.queue.list = system.queue.list := by
  have none : listChange ⟨system, event, after⟩ = none := by
    cases event with
    | putInsert => exact absurd rfl notInsert
    | execRemove => exact absurd rfl notRemove
    | _ => rfl
  rcases action.list with ⟨_, same⟩ | ⟨item, inserted, _⟩ | ⟨item, rest, removed, _⟩
  · exact same
  · cases none.symm.trans inserted
  · cases none.symm.trans removed

theorem putInsert_action {system after : System config} (action : Action system .putInsert after) :
    putThreadInsert system.queue = .ok after.queue := by
  cases action with
  | putInsert queue ran => exact ran

theorem execRemove_action {system after : System config}
    (action : Action system .execRemove after) :
    execThreadRemove system.queue = .ok after.queue := by
  cases action with
  | execRemove queue ran => exact ran

/-- One step is matched by one move or by none. -/
theorem Action.matched {system after : System config} {event : Event config}
    (action : Action system event after) {bag : Bag QueueItem} (stamped : Stamped bag)
    (represents : Represents priorityKey system.queue.list bag) :
    (listChange ⟨system, event, after⟩ = none ∧
        Represents priorityKey after.queue.list bag) ∨
      ∃ move later, BagStep priorityKey Permanent bag move later ∧
        Matches ⟨bag, move, later⟩ ⟨system, event, after⟩ := by
  rcases action.list with ⟨none, same⟩ | ⟨item, inserted, same⟩ | ⟨item, rest, removed, list, same⟩
  · exact Or.inl ⟨none, same ▸ represents⟩
  · refine Or.inr ⟨_, _, BagStep.insert bag item, represents, ?_, inserted⟩
    show Represents priorityKey after.queue.list _
    rw [same, insertNode_eq]
    exact represents.insert stamped item
  · rw [list] at represents
    obtain ⟨entry, later, rfl, taken, represented⟩ := represents.remove permanent_least stamped
    refine Or.inr ⟨_, later, taken, ?_, ?_, removed⟩
    · show Represents priorityKey system.queue.list bag
      rw [list]
      exact represents
    · show Represents priorityKey after.queue.list later
      rw [same]
      exact represented

/-- The operation queue refines the stable priority queue: the changes of the list in any run
from boot are the moves of a run of the specification, one for one, and the list represents the
bag. So the list is always sorted, with equal priorities in the order of arrival, and the items
are served as the specification promises. -/
theorem queue_refines {start final : System config}
    {steps : List (Transition.Step (System config) (Event config))} (booted : Booted start)
    (run : Run start steps final) :
    ∃ moves bag, Transition.Run (BagStep priorityKey Permanent) Bag.empty moves bag ∧
      List.Forall₂ Matches moves (listChanges steps) ∧
      Represents priorityKey final.queue.list bag ∧
      (final.queue.list.Pairwise fun first second => second.priority ≤ first.priority) ∧
      Served priorityKey Permanent moves bag := by
  have simulated : ∃ moves bag,
      Transition.Run (BagStep priorityKey Permanent) Bag.empty moves bag ∧
        List.Forall₂ Matches moves (listChanges steps) ∧
        Represents priorityKey final.queue.list bag := by
    have actions := actions_of_run booted run
    induction run with
    | nil =>
      obtain ⟨deviceId, allocations, _, rfl⟩ := booted
      exact ⟨[], Bag.empty, Transition.Run.nil _, List.Forall₂.nil, represents_empty⟩
    | @snoc middle final steps event earlier last inductionHypothesis =>
      obtain ⟨moves, bag, specRun, matched, represents⟩ := inductionHypothesis
        fun taken member => actions taken (List.mem_append_left _ member)
      have action := (actions _ (List.mem_append_right _ List.mem_cons_self)).2
      have changes : listChanges (steps ++ [⟨middle, event, final⟩]) =
          listChanges steps ++ listChanges [⟨middle, event, final⟩] := List.filter_append _ _
      rcases action.matched (stamped_empty.run specRun) represents with
        ⟨none, represents⟩ | ⟨move, later, taken, matching⟩
      · refine ⟨moves, bag, specRun, ?_, represents⟩
        have idle : listChanges [⟨middle, event, final⟩] = [] := by
          simp [listChanges, none]
        rw [changes, idle, List.append_nil]
        exact matched
      · refine ⟨_, later, Transition.Run.snoc specRun taken, ?_, matching.after⟩
        have changed : listChanges [⟨middle, event, final⟩] = [⟨middle, event, final⟩] := by
          simp [listChanges, matching.same]
        rw [changes, changed]
        exact List.rel_append matched (List.Forall₂.cons matching List.Forall₂.nil)
  obtain ⟨moves, bag, specRun, matched, represents⟩ := simulated
  refine ⟨moves, bag, specRun, matched, represents, ?_, served_of_run permanent_least specRun⟩
  exact represents.sorted.imp fun ordered => UInt32.le_iff_toNat_le.mpr ordered

/-- The put thread carries one item from the message queue into the list. -/
def insertedNext : List (Event projectConfig) := [.putGet, .putFree, .putInsert, .putGive]

/-- The executor removes the head of the list once the PHY layer is free. -/
def removedNext : List (Event projectConfig) := [.execTakePhy, .execTakeItem, .execRemove]

/-- A permanent reception is put, and then a packet. The packet overtakes it, and the reception is
removed when both parts of the transmission have completed. -/
def receptionOvertaken : List (Event projectConfig) :=
  .queuePut (.rx ⟨0, 0, 100, 0, 0⟩) priorityPermanent :: insertedNext ++
    .transmit smallPacket (some 4096) :: insertedNext ++ removedNext ++
    [.execDispatch 0, .opComplete 0 .success, .opComplete 0 .success] ++ removedNext

/-- The item of a change. -/
def ListChange.item : ListChange → QueueItem
  | .inserted item => item
  | .removed item => item

/-- The packet is served before the reception, which is put back in the queue. -/
theorem queue_refines_reception :
    ∃ (final : System projectConfig)
      (steps : List (Transition.Step (System projectConfig) (Event projectConfig))),
      Run device steps final ∧
        (steps.filterMap listChange).map (fun change => change.item.priority) =
          [priorityPermanent, priorityHigh, priorityHigh, priorityPermanent] ∧
        ∃ moves bag, Transition.Run (BagStep priorityKey Permanent) Bag.empty moves bag ∧
          List.Forall₂ Matches moves (listChanges steps) ∧
          Represents priorityKey final.queue.list bag ∧
          (final.queue.list.Pairwise fun first second => second.priority ≤ first.priority) ∧
          Served priorityKey Permanent moves bag := by
  have run := Transition.followAll_run step device receptionOvertaken (by decide +kernel)
  exact ⟨_, _, run, by decide +kernel, queue_refines device_booted run⟩

end DectHarq
