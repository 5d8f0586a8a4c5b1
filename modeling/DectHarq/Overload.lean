/-
This file follows the put thread through an overload.

The insertion of an item fails when the node slab is exhausted, which is when the list is
full. Both failure paths leave the endless loop of the put thread, and the one that is
taken leaves `queue_mutex` locked: the item is dropped, but with it the thread, and the
executor stops at the mutex. As long as every item finds room the thread goes on, and
what waits for it is inserted as soon as there is room for it.
-/

import DectHarq.QueueBooks
import DectHarq.QueueOrder

namespace DectHarq

variable {config : Config}

/-! ### What the put thread has before it -/

/-- The item that the put thread has taken from the message queue and not inserted yet. -/
def PutThread.held : PutThread → List QueueItem
  | .fetched item => [item]
  | .copied item => [item]
  | _ => []

/-- The accepted items that are not in the list yet, in the order of arrival. -/
def Queue.unprocessed (queue : Queue) : List QueueItem := queue.putThread.held ++ queue.msgq

/-- The list once some items are inserted one after the other. -/
def insertAll (items list : List QueueItem) : List QueueItem :=
  items.foldl (fun list item => insertNode item list) list

/-- There is no block for a node, or no place in the list. -/
def Queue.CannotInsert (queue : Queue) : Prop :=
  queueMaxItems ≤ queue.nodeSlab ∨ queueMaxItems ≤ queue.list.length

instance (queue : Queue) : Decidable queue.CannotInsert :=
  inferInstanceAs (Decidable (_ ∨ _))

/-- The put thread is in its loop and the mutex is not left locked. -/
structure Queue.Alive (queue : Queue) : Prop where
  loops : queue.putThread ≠ .returned
  unlocked : queue.queueMutexLeft = false

/-- The steps of the put thread. -/
def IsPutThread : Event config → Prop
  | .putGet => True
  | .putFree => True
  | .putInsert => True
  | .putGive => True
  | _ => False

/-- The put thread goes on: of the items that wait for it, it inserts the first ones, as many as
there is room for and each in its place, and the others keep waiting. -/
def LaterInserted (system : System config) : Prop :=
  ∀ items rest, system.queue.unprocessed = items ++ rest →
    system.queue.list.length + items.length ≤ queueMaxItems →
      ∃ steps final, Run system steps final ∧ (∀ taken ∈ steps, IsPutThread taken.label) ∧
        final.queue.unprocessed = rest ∧
        final.queue.list = insertAll items system.queue.list

/-- The overload is survived: an item that cannot be inserted is dropped and nothing else is
changed, with the mutex released, and at every moment the put thread goes on. -/
structure Survived (steps : List (Transition.Step (System config) (Event config)))
    (final : System config) : Prop where
  drops : ∀ taken ∈ steps, taken.label = .putInsert → taken.before.queue.CannotInsert →
    taken.after.queue = { taken.before.queue with putThread := .waiting } ∧
      taken.after.queue.queueMutexLeft = false
  passes : ∀ taken ∈ steps, LaterInserted taken.before
  ends : LaterInserted final

/-! ### The put thread goes on -/

/-- The steps of the put thread to the end of what waits for it. -/
def Queue.remaining (queue : Queue) : Nat :=
  4 * queue.msgq.length +
    match queue.putThread with
    | .waiting => 0
    | .fetched _ => 3
    | .copied _ => 2
    | .inserted => 1
    | .returned => 0

/-- The put thread can insert the items that wait before the rest, and then the list is the
settled one. -/
structure Queue.Ready (rest settled : List QueueItem) (queue : Queue) : Prop where
  alive : queue.Alive
  agreed : queue.Agreed
  waits : ∃ items, queue.unprocessed = items ++ rest ∧
    queue.list.length + items.length ≤ queueMaxItems ∧ insertAll items queue.list = settled

/-- With the books in order the two reasons for a failure are one. -/
theorem Queue.Agreed.cannotInsert_iff {queue : Queue} (agreed : queue.Agreed) :
    queue.CannotInsert ↔ queueMaxItems ≤ queue.list.length := by
  unfold Queue.CannotInsert
  rw [agreed.blocks, or_self]

section Steps

variable {queue : Queue} {item : QueueItem} {rest settled : List QueueItem}

theorem Queue.unprocessed_of_held (held : queue.putThread.held = [item]) :
    queue.unprocessed = item :: queue.msgq := by
  unfold Queue.unprocessed
  rw [held]
  rfl

/-- A step that inserts nothing keeps the put thread ready. -/
theorem Queue.Ready.keep (ready : queue.Ready rest settled) {after : Queue} (alive : after.Alive)
    (agreed : after.Agreed) (unprocessed : after.unprocessed = queue.unprocessed)
    (list : after.list = queue.list) : after.Ready rest settled := by
  refine ⟨alive, agreed, ?_⟩
  rw [unprocessed, list]
  exact ready.waits

theorem Queue.Ready.get (ready : queue.Ready rest settled) {later : List QueueItem}
    (waiting : queue.putThread = .waiting) (messages : queue.msgq = item :: later) :
    ∃ after, putThreadGet queue = .ok after ∧ after.Ready rest settled ∧
      after.remaining < queue.remaining := by
  have got : putThreadGet queue =
      .ok { queue with putThread := .fetched item, msgq := later } := by
    unfold putThreadGet
    rw [waiting, messages]
  refine ⟨_, got, ready.keep ⟨fun ended => ?_, ready.alive.unlocked⟩ ?_ ?_ rfl, ?_⟩
  · cases ended
  · exact ready.agreed.same ⟨rfl, rfl, rfl, by rw [waiting]; rfl, rfl⟩
  · unfold Queue.unprocessed
    rw [waiting, messages]
    rfl
  · simp only [Queue.remaining, waiting, messages, List.length_cons]
    omega

theorem Queue.Ready.free (ready : queue.Ready rest settled)
    (fetched : queue.putThread = .fetched item) :
    ∃ after, putThreadFree queue = .ok after ∧ after.Ready rest settled ∧
      after.remaining < queue.remaining := by
  have freed : putThreadFree queue =
      .ok { queue with putThread := .copied item, itemSlab := queue.itemSlab - 1 } := by
    unfold putThreadFree
    rw [fetched]
  refine ⟨_, freed, ready.keep ⟨fun ended => ?_, ready.alive.unlocked⟩ ?_ ?_ rfl, ?_⟩
  · cases ended
  · exact ready.agreed.same ⟨rfl, rfl, rfl, by rw [fetched]; rfl, rfl⟩
  · unfold Queue.unprocessed
    rw [fetched]
    rfl
  · simp only [Queue.remaining, fetched]
    omega

/-- As long as an item before the rest waits, the section finds room for it. -/
theorem Queue.Ready.insert (ready : queue.Ready rest settled)
    (copied : queue.putThread = .copied item) (unfinished : queue.unprocessed ≠ rest) :
    ∃ after, putThreadInsert queue = .ok after ∧ after.Ready rest settled ∧
      after.remaining < queue.remaining := by
  obtain ⟨alive, agreed, items, waits, room, ends⟩ := ready
  have same : queue.unprocessed = item :: queue.msgq :=
    Queue.unprocessed_of_held (by rw [copied]; rfl)
  cases items with
  | nil => exact absurd waits unfinished
  | cons first more =>
    obtain ⟨rfl, later⟩ := List.cons.inj (same.symm.trans waits)
    rw [List.length_cons] at room
    have place : queue.list.length < queueMaxItems := by omega
    have inserted : putThreadInsert queue =
        .ok { queue with
          putThread := .inserted
          nodeSlab := queue.nodeSlab + 1
          list := insertNode item queue.list } := by
      unfold putThreadInsert
      rw [copied]
      dsimp only
      rw [alive.unlocked, if_neg Bool.false_ne_true, agreed.blocks,
        if_neg (Nat.not_le.mpr place), if_neg (Nat.not_le.mpr place)]
    refine ⟨_, inserted, ⟨⟨fun ended => ?_, alive.unlocked⟩, agreed.inserted inserted, more,
      later, ?_, ends⟩, ?_⟩
    · cases ended
    · show (insertNode item queue.list).length + more.length ≤ _
      rw [insertNode_length]
      omega
    · simp only [Queue.remaining, copied]
      omega

theorem Queue.Ready.give (ready : queue.Ready rest settled)
    (inserted : queue.putThread = .inserted) :
    ∃ after, putThreadGive queue = .ok after ∧ after.Ready rest settled ∧
      after.remaining < queue.remaining := by
  have gave : putThreadGive queue = .ok { queue.giveItem with putThread := .waiting } := by
    unfold putThreadGive
    rw [inserted]
  refine ⟨_, gave, ready.keep ⟨fun ended => ?_, ready.alive.unlocked⟩ (ready.agreed.given gave)
    ?_ rfl, ?_⟩
  · cases ended
  · unfold Queue.unprocessed
    rw [inserted]
    rfl
  · simp only [Queue.remaining, Queue.giveItem, inserted]
    omega

end Steps

/-- As long as an item before the rest waits, the put thread has a step that brings it closer. -/
theorem Queue.Ready.advances {system : System config} {rest settled : List QueueItem}
    (ready : system.queue.Ready rest settled) (unfinished : system.queue.unprocessed ≠ rest) :
    ∃ event after, IsPutThread event ∧ step system event = .ok after ∧
      after.queue.Ready rest settled ∧ after.queue.remaining < system.queue.remaining := by
  cases thread : system.queue.putThread with
  | waiting =>
    cases messages : system.queue.msgq with
    | nil =>
      obtain ⟨items, waits, _⟩ := ready.waits
      have none : system.queue.unprocessed = [] := by
        unfold Queue.unprocessed
        rw [thread, messages]
        rfl
      have empty := (List.append_eq_nil_iff.mp (waits.symm.trans none)).2
      exact absurd (none.trans empty.symm) unfinished
    | cons item later =>
      obtain ⟨queue, got, closer⟩ := ready.get thread messages
      exact ⟨.putGet, system.setQueue queue, trivial, bind_ok.mpr ⟨queue, got, rfl⟩, closer⟩
  | fetched item =>
    obtain ⟨queue, freed, closer⟩ := ready.free thread
    exact ⟨.putFree, system.setQueue queue, trivial, bind_ok.mpr ⟨queue, freed, rfl⟩, closer⟩
  | copied item =>
    obtain ⟨queue, inserted, closer⟩ := ready.insert thread unfinished
    exact ⟨.putInsert, system.setQueue queue, trivial, bind_ok.mpr ⟨queue, inserted, rfl⟩, closer⟩
  | inserted =>
    obtain ⟨queue, gave, closer⟩ := ready.give thread
    exact ⟨.putGive, system.setQueue queue, trivial, bind_ok.mpr ⟨queue, gave, rfl⟩, closer⟩
  | returned => exact absurd thread ready.alive.loops

/-- A put thread in its loop inserts what waits for it as soon as there is room. -/
theorem Queue.Alive.laterInserted {system : System config} (alive : system.queue.Alive)
    (agreed : system.queue.Agreed) : LaterInserted system := by
  intro items rest waits room
  have reaches : ∃ steps final, Run system steps final ∧
      (∀ taken ∈ steps, IsPutThread taken.label) ∧
      final.queue.Ready rest (insertAll items system.queue.list) ∧
      final.queue.unprocessed = rest := by
    refine Transition.Run.exists_reaching _ _ IsPutThread (fun after => after.queue.remaining) ?_
      ⟨alive, agreed, items, waits, room, rfl⟩
    exact fun before ready unfinished => ready.advances unfinished
  obtain ⟨steps, final, run, each, ⟨_, _, left, leftWaits, _, settled⟩, done⟩ := reaches
  refine ⟨steps, final, run, each, done, ?_⟩
  have none : left = [] := List.append_left_eq_self.mp (leftWaits.symm.trans done)
  rw [none] at settled
  exact settled

/-! ### The put thread ends -/

/-- Nothing that concerns the end of the put thread was changed. -/
structure Queue.SameEnd (before after : Queue) : Prop where
  loops : before.putThread ≠ .returned ↔ after.putThread ≠ .returned
  unlocked : after.queueMutexLeft = before.queueMutexLeft

/-- Only the section of the put thread can end it. -/
theorem QueueMove.sameEnd {before after : Queue} {event : Event config}
    (move : QueueMove before event after) (other : event ≠ .putInsert) :
    Queue.SameEnd before after := by
  cases move with
  | put outside put =>
    rcases dectPhyQueuePut_cases put with ⟨_, _, rfl⟩ | ⟨_, _, rfl⟩ <;> exact ⟨Iff.rfl, rfl⟩
  | putInsert ran => exact absurd rfl other
  | putGet ran =>
    obtain ⟨item, rest, waiting, _, rfl⟩ := putThreadGet_cases ran
    exact ⟨⟨nofun, fun _ => by rw [waiting]; nofun⟩, rfl⟩
  | putFree ran =>
    obtain ⟨item, fetched, rfl⟩ := putThreadFree_cases ran
    exact ⟨⟨nofun, fun _ => by rw [fetched]; nofun⟩, rfl⟩
  | putGive ran =>
    obtain ⟨inserted, rfl⟩ := putThreadGive_cases ran
    exact ⟨⟨nofun, fun _ => by rw [inserted]; nofun⟩, rfl⟩
  | execTakePhy ran =>
    obtain ⟨_, _, rfl⟩ := execThreadTakePhy_cases ran
    exact ⟨Iff.rfl, rfl⟩
  | execTakeItem ran =>
    obtain ⟨_, _, rfl⟩ := execThreadTakeItem_cases ran
    exact ⟨Iff.rfl, rfl⟩
  | execRemove ran =>
    obtain ⟨_, item, rest, _, ⟨_, rfl⟩ | ⟨_, rfl⟩⟩ := execThreadRemove_cases ran <;>
      exact ⟨Iff.rfl, rfl⟩
  | execDispatch executing => exact ⟨Iff.rfl, rfl⟩
  | elsewhere outside same =>
    refine ⟨?_, same.queueMutexLeft⟩
    rw [same.putThread]

/-- A section that finds room keeps the put thread in its loop. -/
theorem Action.alive {system after : System config} {event : Event config}
    (action : Action system event after) (agreed : system.queue.Agreed)
    (room : event = .putInsert → ¬ system.queue.CannotInsert) (alive : system.queue.Alive) :
    after.queue.Alive := by
  by_cases isInsert : event = .putInsert
  · subst isInsert
    obtain ⟨item, _, _, ⟨full, _⟩ | ⟨_, same⟩⟩ := agreed.insert_cases (putInsert_action action)
    · exact absurd (agreed.cannotInsert_iff.mpr (le_of_eq full.symm)) (room rfl)
    · rw [same]
      exact ⟨nofun, alive.unlocked⟩
  · have same := action.queueMove.sameEnd isInsert
    exact ⟨same.loops.mp alive.loops, same.unlocked.trans alive.unlocked⟩

/-- The put thread has ended with the mutex locked. -/
structure Queue.Stuck (queue : Queue) : Prop where
  ended : queue.putThread = .returned
  locked : queue.queueMutexLeft = true

/-- A section without room ends the put thread with the mutex locked. -/
theorem Action.stuck {system after : System config} (action : Action system .putInsert after)
    (agreed : system.queue.Agreed) (full : system.queue.CannotInsert) : after.queue.Stuck := by
  obtain ⟨item, _, _, ⟨_, same⟩ | ⟨room, _⟩⟩ := agreed.insert_cases (putInsert_action action)
  · rw [same]
    exact ⟨rfl, rfl⟩
  · exact absurd (agreed.cannotInsert_iff.mp full) (Nat.not_le.mpr room)

/-- Then neither section under the mutex is run any more. -/
theorem Queue.Stuck.keeps {system after : System config} {event : Event config}
    (stuck : system.queue.Stuck) (action : Action system event after) :
    after.queue.Stuck ∧ after.queue.list = system.queue.list := by
  have notInsert : event ≠ .putInsert := by
    rintro rfl
    obtain ⟨item, copied, _, _⟩ := putThreadInsert_cases (putInsert_action action)
    cases copied.symm.trans stuck.ended
  have notRemove : event ≠ .execRemove := by
    rintro rfl
    cases (execThreadRemove_unlocked (execRemove_action action)).symm.trans stuck.locked
  have same := action.queueMove.sameEnd notInsert
  refine ⟨⟨?_, same.unlocked.trans stuck.locked⟩, action.list_other notInsert notRemove⟩
  by_contra loops
  exact same.loops.mpr loops stuck.ended

/-- So the list stays as it is for ever: no later item is inserted and none is executed. -/
theorem Queue.Stuck.forever {start final : System config}
    {steps : List (Transition.Step (System config) (Event config))}
    (stuck : start.queue.Stuck) (sound : start.harq.Sound) (run : Run start steps final) :
    final.queue.list = start.queue.list := by
  have kept := run.invariant (fun system : System config => system.harq.Sound ∧
      system.queue.Stuck ∧ system.queue.list = start.queue.list) (fun _ _ => True)
    (fun before label after _ kept stepped => by
      obtain ⟨sound, stuck, same⟩ := kept
      have action := action_of_step sound stepped
      have keeps := stuck.keeps action
      exact ⟨(action.move sound).1.sound sound, keeps.1, keeps.2.trans same⟩)
    (fun _ _ => trivial) ⟨sound, stuck, rfl⟩
  exact kept.2.2

/-! ### When an overload is survived -/

variable {start final : System config}
  {steps : List (Transition.Step (System config) (Event config))}

/-- Where the overload is survived, a section that ends the put thread had room. -/
theorem Survived.room (survived : Survived steps final)
    {taken : Transition.Step (System config) (Event config)} (member : taken ∈ steps)
    (isInsert : taken.label = .putInsert) (stuck : taken.after.queue.Stuck) :
    ¬ taken.before.queue.CannotInsert := by
  intro full
  obtain ⟨dropped, _⟩ := survived.drops taken member isInsert full
  have ended := stuck.ended
  rw [dropped] at ended
  cases ended

/-- An overload is survived exactly in the runs without one: in every section of the put thread
there is a block for the node and a place in the list. -/
theorem overload_survived_iff (booted : Booted start) (run : Run start steps final) :
    Survived steps final ↔ ∀ taken ∈ steps, taken.label = .putInsert →
      ¬ taken.before.queue.CannotInsert := by
  have actions := run_invariant_before booted run (fun system => system.queue.Agreed)
    (fun _ _ => True) (boot_agreed booted)
    (fun _ _ _ _ _ agreed action => action.queueMove.agreed agreed) (fun _ _ => trivial)
  constructor
  · intro survived taken member isInsert full
    obtain ⟨_, agreed, action⟩ := actions taken member
    rw [isInsert] at action
    exact survived.room member isInsert (action.stuck agreed full) full
  · intro room
    have base : start.queue.Agreed ∧ start.queue.Alive := by
      refine ⟨boot_agreed booted, ?_⟩
      obtain ⟨deviceId, allocations, _, rfl⟩ := booted
      exact ⟨nofun, rfl⟩
    have kept : ∀ (system : System config) (event : Event config) (after : System config),
        system.harq.Sound → (event = .putInsert → ¬ system.queue.CannotInsert) →
          system.queue.Agreed ∧ system.queue.Alive → Action system event after →
            after.queue.Agreed ∧ after.queue.Alive :=
      fun _ _ _ _ room ⟨agreed, alive⟩ action =>
        ⟨action.queueMove.agreed agreed, action.alive agreed room alive⟩
    have before := run_invariant_before booted run _ _ base kept room
    have ends := run_invariant booted run _ _ base kept room
    refine ⟨fun taken member isInsert full => absurd full (room taken member isInsert), ?_, ?_⟩
    · intro taken member
      obtain ⟨_, ⟨agreed, alive⟩, _⟩ := before taken member
      exact alive.laterInserted agreed
    · exact ends.2.2.laterInserted ends.2.1

/-- An item is put, and the put thread takes it to the list. -/
def putAndInserted : List (Event projectConfig) :=
  [.queuePut .timeGet priorityLow, .putGet, .putFree, .putInsert]

/-- Eight items fill the list. -/
def listFilled : List (Event projectConfig) :=
  (List.replicate 7 (putAndInserted ++ [.putGive])).flatten ++ putAndInserted

/-- As many items as the list has places for are no overload. -/
theorem overload_survived_iff_filled :
    ∃ (final : System projectConfig)
      (steps : List (Transition.Step (System projectConfig) (Event projectConfig))),
      Run device steps final ∧ final.queue.list.length = 8 ∧ Survived steps final := by
  have run := Transition.followAll_run step device listFilled (by decide +kernel)
  have room : ∀ taken ∈ Transition.followAll step device listFilled,
      ¬ taken.before.queue.CannotInsert := by decide +kernel
  exact ⟨_, _, run, by decide +kernel,
    (overload_survived_iff device_booted run).mpr fun taken member _ => room taken member⟩

/-- The executor hands an item to the modem; while the modem is busy eight more fill the list,
and a ninth is put and copied by the put thread. -/
def overloaded : List (Event projectConfig) :=
  .queuePut .timeGet priorityLow :: carriedToModem ++ listFilled ++
    [.putGive, .queuePut .timeGet priorityLow, .putGet, .putFree]

/-- Device 5 when the put thread has copied the ninth item. -/
def overloadedDevice : System projectConfig := overloaded.foldl (Transition.follow step) device

/-- Device 5 after the section for the ninth item. -/
def endedDevice : System projectConfig := Transition.follow step overloadedDevice .putInsert

theorem endedDevice_stuck : endedDevice.queue.Stuck :=
  ⟨by decide +kernel, by decide +kernel⟩

theorem overloadedDevice_run :
    Run device (Transition.followAll step device overloaded ++
      [⟨overloadedDevice, .putInsert, endedDevice⟩]) endedDevice := by
  have filled : Run device (Transition.followAll step device overloaded) overloadedDevice :=
    Transition.followAll_run step device overloaded (by decide +kernel)
  have last : Transition.stepOf step overloadedDevice .putInsert endedDevice := by
    refine Transition.follow_step step ?_
    decide +kernel
  exact filled.snoc last

/-- The ninth item is not the only one that is lost: the put thread ends, and whatever follows
the list stays as it is. -/
theorem overload_not_survived :
    ∃ (final : System projectConfig)
      (steps : List (Transition.Step (System projectConfig) (Event projectConfig))),
      Run device steps final ∧ ¬ Survived steps final ∧
        ∀ later rest, Run final rest later → later.queue.list = final.queue.list := by
  refine ⟨_, _, overloadedDevice_run, fun survived => ?_, fun later rest more => ?_⟩
  · have full : overloadedDevice.queue.CannotInsert := by decide +kernel
    exact survived.room (List.mem_append_right _ List.mem_cons_self) rfl endedDevice_stuck full
  · have sound := (run_invariant device_booted overloadedDevice_run (fun _ => True)
      (fun _ _ => True) trivial (fun _ _ _ _ _ _ _ => trivial) (fun _ _ => trivial)).1
    exact endedDevice_stuck.forever sound more

end DectHarq
