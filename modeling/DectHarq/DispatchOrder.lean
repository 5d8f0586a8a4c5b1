/-
This file proves in which order the operations put in the queue are dispatched.

Between the put function and the handlers an item passes two queues: the message queue,
which is served in the order of the puts, and the priority list. The two together are a
waiting line before a priority queue, which breaks down when the put thread ends. So an
accepted item is dispatched after all that were accepted before it with at least its
priority, whatever threads, callbacks and timers run in between; it is dispatched once,
unless it is permanent; and as long as the put thread runs no accepted item is lost.
-/

import DectHarq.Library.ServiceLine
import DectHarq.Pipeline
import DectHarq.QueueMoves

namespace DectHarq

open ServiceLine

variable {config : Config}

/-! ### What goes in and what comes out -/

/-- The item a step put, when there was a block for it. -/
def acceptedItem (taken : Transition.Step (System config) (Event config)) : List QueueItem :=
  if taken.before.queue.itemSlab < queueMaxItems then
    taken.after.queue.putCalls.drop taken.before.queue.putCalls.length
  else []

/-- The accepted items, in the order of their puts. -/
def accepted (steps : List (Transition.Step (System config) (Event config))) : List QueueItem :=
  steps.flatMap acceptedItem

/-- The item a step dispatched. -/
def dispatchedItem (taken : Transition.Step (System config) (Event config)) : List QueueItem :=
  match taken.label with
  | .execDispatch _ => taken.before.queue.execThread.items
  | _ => []

/-- The dispatched items, in order. -/
def dispatched (steps : List (Transition.Step (System config) (Event config))) :
    List QueueItem :=
  steps.flatMap dispatchedItem

/-- The items that are not permanent. -/
def once (items : List QueueItem) : List QueueItem := items.filter fun item => ¬ Permanent item

/-- The accepted items that were not dispatched for good. A permanent item that the executor
holds is in the list as well. -/
def Queue.undispatched (queue : Queue) : List QueueItem :=
  queue.putThread.items ++ queue.msgq ++ queue.list ++ once queue.execThread.items

theorem accepted_concat (steps : List (Transition.Step (System config) (Event config)))
    (taken : Transition.Step (System config) (Event config)) :
    accepted (steps ++ [taken]) = accepted steps ++ acceptedItem taken := by
  simp [accepted]

theorem dispatched_concat (steps : List (Transition.Step (System config) (Event config)))
    (taken : Transition.Step (System config) (Event config)) :
    dispatched (steps ++ [taken]) = dispatched steps ++ dispatchedItem taken := by
  simp [dispatched]

/-- A line stands for the queue after some steps. -/
structure Staged (steps : List (Transition.Step (System config) (Event config))) (queue : Queue)
    (line : Line QueueItem) : Prop where
  arrived : line.arrived = accepted steps
  waiting : line.waiting.map Ticket.item = queue.putThread.items ++ queue.msgq
  list : line.queue.map Ticket.item = queue.list
  served : line.served.map Ticket.item = dispatched steps ++ queue.execThread.items
  lost : line.lost.length ≤ 1
  runs : queue.putThread ≠ .returned → line.lost = []

/-! ### One step -/

/-- A step that puts nothing accepts nothing. -/
theorem acceptedItem_of_quiet {system after : System config} {event : Event config}
    (quiet : after.queue.putCalls = system.queue.putCalls) :
    acceptedItem ⟨system, event, after⟩ = [] := by
  unfold acceptedItem
  rw [quiet, List.drop_length, ite_self]

theorem acceptedItem_of_put {system after : System config} {event : Event config}
    {item : QueueItem} {code : ErrorCode}
    (put : dectPhyQueuePut item system.queue = .ok (code, after.queue)) :
    acceptedItem ⟨system, event, after⟩ =
      if system.queue.itemSlab < queueMaxItems then [item] else [] := by
  unfold acceptedItem
  rw [dectPhyQueuePut_putCalls put, List.drop_left]

theorem acceptedItem_of_threads {run : Queue → Except Stop Queue} {system after : System config}
    {event : Event config} (ran : run system.queue = .ok after.queue)
    (thread : run ∈ queueThreads) : acceptedItem ⟨system, event, after⟩ = [] :=
  acceptedItem_of_quiet (sameOutside_threads ran thread).putCalls

theorem dispatchedItem_outside {event : Event config} (outside : ¬ event.OfThreads)
    (system after : System config) : dispatchedItem ⟨system, event, after⟩ = [] := by
  cases event with
  | execDispatch ret => exact absurd trivial outside
  | _ => rfl

section Step

variable {earlier : List (Transition.Step (System config) (Event config))}
  {system after : System config} {event : Event config} {line : Line QueueItem}

/-- A step that accepts and dispatches nothing, and moves no item, leaves the line as it is. -/
theorem Staged.keep (staged : Staged earlier system.queue line)
    (accepts : acceptedItem ⟨system, event, after⟩ = [])
    (dispatches : dispatchedItem ⟨system, event, after⟩ = [])
    (waiting : after.queue.putThread.items ++ after.queue.msgq =
      system.queue.putThread.items ++ system.queue.msgq)
    (list : after.queue.list = system.queue.list)
    (holds : after.queue.execThread.items = system.queue.execThread.items)
    (runs : after.queue.putThread ≠ .returned → system.queue.putThread ≠ .returned) :
    Staged (earlier ++ [⟨system, event, after⟩]) after.queue line where
  arrived := by rw [accepted_concat, accepts, List.append_nil, staged.arrived]
  waiting := by rw [waiting, staged.waiting]
  list := by rw [list, staged.list]
  served := by rw [dispatched_concat, dispatches, List.append_nil, holds, staged.served]
  lost := staged.lost
  runs := fun still => staged.runs (runs still)

/-- An accepted item arrives in the line. -/
theorem Staged.accept (staged : Staged earlier system.queue line) {item : QueueItem}
    (accepts : acceptedItem ⟨system, event, after⟩ = [item])
    (dispatches : dispatchedItem ⟨system, event, after⟩ = [])
    (queue : after.queue = system.queue.accept item) :
    Staged (earlier ++ [⟨system, event, after⟩]) after.queue { line with
      arrived := line.arrived ++ [item]
      waiting := line.waiting ++ [⟨line.arrived.length, item⟩] } where
  arrived := by rw [accepted_concat, accepts, staged.arrived]
  waiting := by
    rw [List.map_append, staged.waiting, queue, List.append_assoc]
    rfl
  list := by
    rw [queue]
    exact staged.list
  served := by
    rw [dispatched_concat, dispatches, List.append_nil, queue]
    exact staged.served
  lost := staged.lost
  runs := fun still => staged.runs (by rw [queue] at still; exact still)

/-- The message queue, the list and the executor were left alone. -/
structure Queue.SameQueues (before after : Queue) : Prop where
  msgq : after.msgq = before.msgq
  list : after.list = before.list
  execThread : after.execThread = before.execThread

/-- The put thread moves the first waiting item into the list, or loses it and ends. -/
theorem Staged.insert (staged : Staged earlier system.queue line)
    (ran : putThreadInsert system.queue = .ok after.queue) :
    ∃ later, Staged (earlier ++ [⟨system, .putInsert, after⟩]) after.queue later ∧
      LineStep priorityKey Permanent line later := by
  have accepts : acceptedItem ⟨system, .putInsert, after⟩ = [] :=
    acceptedItem_of_threads ran (by simp [queueThreads])
  have arrived : line.arrived = accepted (earlier ++ [⟨system, .putInsert, after⟩]) := by
    rw [accepted_concat, accepts, List.append_nil, staged.arrived]
  have served : line.served.map Ticket.item =
      dispatched (earlier ++ [⟨system, .putInsert, after⟩]) ++ system.queue.execThread.items := by
    rw [dispatched_concat, staged.served]
    simp [dispatchedItem]
  obtain ⟨item, copied, _, cases⟩ := putThreadInsert_cases ran
  have moves : line.lost = [] := staged.runs (by rw [copied]; simp)
  have waiting := staged.waiting
  rw [copied] at waiting
  obtain ⟨head, rest, first, rfl, others⟩ := List.map_eq_cons_iff.mp waiting
  have loses (same : Queue.SameQueues system.queue after.queue)
      (ended : after.queue.putThread = .returned) :
      Staged (earlier ++ [⟨system, .putInsert, after⟩]) after.queue
        { line with waiting := rest, lost := [head] } := by
    refine ⟨arrived, ?_, ?_, ?_, le_refl 1, fun still => absurd ended still⟩
    · rw [ended, same.msgq]
      exact others
    · rw [same.list]
      exact staged.list
    · rw [same.execThread]
      exact served
  rcases cases with ⟨_, queue⟩ | ⟨_, queue⟩ | ⟨_, _, queue⟩
  · exact ⟨_, loses (by rw [queue]; exact ⟨rfl, rfl, rfl⟩) (by rw [queue]),
      LineStep.lose line head rest first moves⟩
  · exact ⟨_, loses (by rw [queue]; exact ⟨rfl, rfl, rfl⟩) (by rw [queue]),
      LineStep.lose line head rest first moves⟩
  · refine ⟨_, ?_, LineStep.sort line head rest first moves⟩
    refine ⟨arrived, ?_, ?_, ?_, staged.lost, fun _ => moves⟩
    all_goals rw [queue]
    · exact others
    · dsimp only
      rw [insertNode_eq, StableQueue.insertStable_map, staged.list]
    · exact served

/-- The executor serves the head of the list. -/
theorem Staged.remove (staged : Staged earlier system.queue line)
    (ran : execThreadRemove system.queue = .ok after.queue) :
    ∃ later, Staged (earlier ++ [⟨system, .execRemove, after⟩]) after.queue later ∧
      LineStep priorityKey Permanent line later := by
  have accepts : acceptedItem ⟨system, .execRemove, after⟩ = [] :=
    acceptedItem_of_threads ran (by simp [queueThreads])
  obtain ⟨removing, item, rest, list, cases⟩ := execThreadRemove_cases ran
  have queued := staged.list
  rw [list] at queued
  obtain ⟨head, others, first, rfl, same⟩ := List.map_eq_cons_iff.mp queued
  have holds : system.queue.execThread.items = [] := by
    rw [removing]
    rfl
  have served : (line.served ++ [head]).map Ticket.item =
      dispatched (earlier ++ [⟨system, .execRemove, after⟩]) ++ [head.item] := by
    rw [List.map_append, staged.served, holds, dispatched_concat]
    simp [dispatchedItem]
  refine ⟨_, ?_, LineStep.serve line head others first⟩
  rcases cases with ⟨permanent, queue⟩ | ⟨one, queue⟩
  · refine ⟨?_, ?_, ?_, ?_, staged.lost, ?_⟩
    · rw [accepted_concat, accepts, List.append_nil, staged.arrived]
    all_goals rw [queue]
    · exact staged.waiting
    · dsimp only
      rw [if_pos (show Permanent head.item from permanent), List.map_append, same]
      rfl
    · exact served
    · exact staged.runs
  · refine ⟨?_, ?_, ?_, ?_, staged.lost, ?_⟩
    · rw [accepted_concat, accepts, List.append_nil, staged.arrived]
    all_goals rw [queue]
    · exact staged.waiting
    · dsimp only
      rw [if_neg (show ¬ Permanent head.item from one), same]
    · exact served
    · exact staged.runs

/-- Every action of the system is a step of the line, or none. -/
theorem Action.staged (action : Action system event after)
    (staged : Staged earlier system.queue line) :
    ∃ later, Staged (earlier ++ [⟨system, event, after⟩]) after.queue later ∧
      (later = line ∨ LineStep priorityKey Permanent line later) := by
  have calls := action.put_or_quiet
  have move := action.queueMove
  generalize same : after.queue = queue at move
  cases move with
  | @put _ item code _ outside put =>
    have dispatches := dispatchedItem_outside outside system after
    have put : dectPhyQueuePut item system.queue = .ok (code, after.queue) := same ▸ put
    have accepts : acceptedItem ⟨system, event, after⟩ =
        if system.queue.itemSlab < queueMaxItems then [item] else [] := acceptedItem_of_put put
    rw [same] at put
    rcases dectPhyQueuePut_cases put with ⟨_, full, rfl⟩ | ⟨_, room, rfl⟩
    · rw [if_neg (Nat.not_lt_of_le full)] at accepts
      exact ⟨line, same ▸ staged.keep accepts dispatches (by rw [same]; rfl) (by rw [same]; rfl)
        (by rw [same]; rfl) (by rw [same]; exact id), Or.inl rfl⟩
    · rw [if_pos room] at accepts
      exact ⟨_, same ▸ staged.accept accepts dispatches same, Or.inr (LineStep.arrive line item)⟩
  | putGet ran =>
    have accepts : acceptedItem ⟨system, .putGet, after⟩ = [] :=
      acceptedItem_of_threads (same.symm ▸ ran) (by simp [queueThreads])
    obtain ⟨first, rest, waiting, message, rfl⟩ := putThreadGet_cases ran
    refine ⟨line, same ▸ staged.keep accepts rfl ?_ (by rw [same]) (by rw [same]) ?_, Or.inl rfl⟩
    · rw [same, waiting, message]
      rfl
    · rw [waiting]
      simp
  | putFree ran =>
    have accepts : acceptedItem ⟨system, .putFree, after⟩ = [] :=
      acceptedItem_of_threads (same.symm ▸ ran) (by simp [queueThreads])
    obtain ⟨first, fetched, rfl⟩ := putThreadFree_cases ran
    refine ⟨line, same ▸ staged.keep accepts rfl ?_ (by rw [same]) (by rw [same]) ?_, Or.inl rfl⟩
    · rw [same, fetched]
      rfl
    · rw [fetched]
      simp
  | putInsert ran =>
    obtain ⟨later, stagedLater, moved⟩ := staged.insert (same.symm ▸ ran)
    exact ⟨later, same ▸ stagedLater, Or.inr moved⟩
  | putGive ran =>
    have accepts : acceptedItem ⟨system, .putGive, after⟩ = [] :=
      acceptedItem_of_threads (same.symm ▸ ran) (by simp [queueThreads])
    obtain ⟨inserted, rfl⟩ := putThreadGive_cases ran
    refine ⟨line, same ▸ staged.keep accepts rfl ?_ (by rw [same]; rfl) (by rw [same]; rfl) ?_,
      Or.inl rfl⟩
    · rw [same, inserted]
      rfl
    · rw [inserted]
      simp
  | execTakePhy ran =>
    have accepts : acceptedItem ⟨system, .execTakePhy, after⟩ = [] :=
      acceptedItem_of_threads (same.symm ▸ ran) (by simp [queueThreads])
    obtain ⟨waiting, _, rfl⟩ := execThreadTakePhy_cases ran
    exact ⟨line, same ▸ staged.keep accepts rfl (by rw [same]) (by rw [same])
      (by rw [same, waiting]; rfl) (by rw [same]; exact id), Or.inl rfl⟩
  | execTakeItem ran =>
    have accepts : acceptedItem ⟨system, .execTakeItem, after⟩ = [] :=
      acceptedItem_of_threads (same.symm ▸ ran) (by simp [queueThreads])
    obtain ⟨waiting, _, rfl⟩ := execThreadTakeItem_cases ran
    exact ⟨line, same ▸ staged.keep accepts rfl (by rw [same]) (by rw [same])
      (by rw [same, waiting]; rfl) (by rw [same]; exact id), Or.inl rfl⟩
  | execRemove ran =>
    obtain ⟨later, stagedLater, moved⟩ := staged.remove (same.symm ▸ ran)
    exact ⟨later, same ▸ stagedLater, Or.inr moved⟩
  | @execDispatch ret item executing =>
    have accepts : acceptedItem ⟨system, .execDispatch ret, after⟩ = [] :=
      acceptedItem_of_quiet (by rw [same]; rfl)
    refine ⟨line, ⟨?_, staged.waiting, staged.list, ?_, staged.lost, staged.runs⟩, Or.inl rfl⟩
    · rw [accepted_concat, accepts, List.append_nil, staged.arrived]
    · rw [staged.served, executing, dispatched_concat, dispatchedItem, executing,
        List.append_assoc]
      rfl
  | elsewhere outside kept =>
    have accepts : acceptedItem ⟨system, event, after⟩ = [] := by
      rcases calls with ⟨item, code, put⟩ | quiet
      · rw [acceptedItem_of_put put]
        rcases dectPhyQueuePut_cases put with ⟨_, full, _⟩ | ⟨_, _, accepted⟩
        · exact if_neg (Nat.not_lt_of_le full)
        · have grown : after.queue.itemSlab = system.queue.itemSlab + 1 := by
            rw [accepted]
            rfl
          rw [same, kept.itemSlab] at grown
          exact absurd grown (by omega)
      · exact acceptedItem_of_quiet quiet
    exact ⟨line, same ▸ staged.keep accepts (dispatchedItem_outside outside system after)
      (by rw [same, kept.putThread, kept.msgq]) (by rw [same, kept.list])
      (by rw [same, kept.execThread]) (by rw [same, kept.putThread]; exact id), Or.inl rfl⟩

end Step

/-! ### Runs -/

variable {start final : System config}
  {steps : List (Transition.Step (System config) (Event config))}

/-- At the end of every run a line that is in order stands for the queue. -/
theorem staged_of_run (booted : Booted start) (run : Run start steps final) :
    ∃ line, Staged steps final.queue line ∧ line.Ordered priorityKey Permanent := by
  have actions := actions_of_run booted run
  refine run.history (fun taken system => ∃ line : Line QueueItem,
      Staged taken system.queue line ∧ line.Ordered priorityKey Permanent)
    (fun _ taken => Action taken.before taken.label taken.after) ?_ ?_ ?_
  · rintro earlier ⟨system, event, after⟩ action ⟨line, staged, ordered⟩ _
    obtain ⟨later, stagedLater, rfl | moved⟩ := action.staged staged
    · exact ⟨later, stagedLater, ordered⟩
    · exact ⟨later, stagedLater, moved.ordered permanent_least ordered⟩
  · rintro earlier taken later rfl
    exact (actions taken (List.mem_append_right _ List.mem_cons_self)).2
  · obtain ⟨deviceId, allocations, _, rfl⟩ := booted
    exact ⟨Line.empty, ⟨rfl, rfl, rfl, rfl, Nat.zero_le 1, fun _ => rfl⟩, ordered_empty⟩

/-- The dispatched items carry tickets, and were served in order. -/
theorem dispatched_tickets (booted : Booted start) (run : Run start steps final) :
    ∃ tickets : List (Ticket QueueItem), tickets.map Ticket.item = dispatched steps ∧
      InOrder priorityKey Permanent (accepted steps) tickets := by
  obtain ⟨line, staged, ordered⟩ := staged_of_run booted run
  obtain ⟨tickets, holds, same, first, _⟩ := List.map_eq_append_iff.mp staged.served
  refine ⟨tickets, first, ?_⟩
  rw [← staged.arrived]
  exact InOrder.of_append (same ▸ ordered.inOrder)

/-- The accepted items are those that were dispatched for good, those on their way, and at most
the one that the put thread lost when it ended. -/
theorem accepted_conserved (booted : Booted start) (run : Run start steps final) :
    ∃ lost : List QueueItem, lost.length ≤ 1 ∧ (final.queue.putThread ≠ .returned → lost = []) ∧
      (accepted steps).Perm (once (dispatched steps) ++ final.queue.undispatched ++ lost) := by
  obtain ⟨line, staged, ordered⟩ := staged_of_run booted run
  refine ⟨line.lost.map Ticket.item, by rw [List.length_map]; exact staged.lost,
    fun runs => by rw [staged.runs runs]; rfl, ?_⟩
  have finishedItems : (ServiceLine.finished Permanent line.served).map Ticket.item =
      once (dispatched steps) ++ once final.queue.execThread.items := by
    rw [once, once, ← List.filter_append, ← staged.served, List.filter_map]
    rfl
  have items := ordered.items
  rw [staged.arrived, Line.tickets, List.map_append, List.map_append, List.map_append,
    staged.waiting, staged.list, finishedItems] at items
  refine items.symm.trans (List.Perm.append_right _ ?_)
  rw [Queue.undispatched, ← List.append_assoc, ← List.append_assoc]
  refine List.Perm.append_right _ ?_
  exact List.perm_append_comm

/-- What the dispatches of a run owe to the puts. -/
structure DispatchedInOrder (steps : List (Transition.Step (System config) (Event config)))
    (queue : Queue) : Prop where
  inOrder : ∃ tickets : List (Ticket QueueItem), tickets.map Ticket.item = dispatched steps ∧
    InOrder priorityKey Permanent (accepted steps) tickets
  conserved : ∃ lost : List QueueItem, lost.length ≤ 1 ∧
    (queue.putThread ≠ .returned → lost = []) ∧
      (accepted steps).Perm (once (dispatched steps) ++ queue.undispatched ++ lost)

/-- Items are dispatched in order: after all that were accepted before them with at least their
priority, and once unless they are permanent. While the put thread runs, every accepted item is
dispatched for good or still on its way. -/
theorem dispatch_order (booted : Booted start) (run : Run start steps final) :
    DispatchedInOrder steps final.queue :=
  ⟨dispatched_tickets booted run, accepted_conserved booted run⟩

/-- A reception of low priority is put, and then a request for the capabilities. -/
def overtaken : List (Event projectConfig) :=
  [.queuePut (.rx ⟨0, 0, 100, 0, 0⟩) priorityLow, .queuePut .capabilityGet priorityCritical,
    .putGet, .putFree, .putInsert, .putGive, .putGet, .putFree, .putInsert, .putGive,
    .execTakePhy, .execTakeItem, .execRemove, .execDispatch 0]

/-- The request was put later and is dispatched first; the reception is on its way. -/
theorem dispatch_order_overtaken :
    ∃ (final : System projectConfig)
      (steps : List (Transition.Step (System projectConfig) (Event projectConfig))),
      Run device steps final ∧ (accepted steps).length = 2 ∧
        dispatched steps = [⟨.capabilityGet, priorityCritical, .user⟩] ∧
        DispatchedInOrder steps final.queue := by
  have run := Transition.followAll_run step device overtaken (by decide +kernel)
  exact ⟨_, _, run, by decide +kernel, by decide +kernel, dispatch_order device_booted run⟩

end DectHarq
