/-
This file follows the operations that HARQ queues.

An item is at one of four places between the put function and the modem: in the
message queue, with the put thread, in the priority list, or with the executor. From
there its operation is saved as the current one and goes to the modem. Nothing enters
these places but through a put, and nothing leaves them but through a dispatch or the
end of the put thread. At every place an operation that HARQ queued keeps the form and
the handle it was queued with.
-/

import DectHarq.HarqMoves

namespace DectHarq

variable {config : Config}

/-! ### The queued items -/

/-- The item the put thread holds. -/
def PutThread.items : PutThread → List QueueItem
  | .fetched item => [item]
  | .copied item => [item]
  | _ => []

/-- The item the executor is about to execute. -/
def ExecThread.items : ExecThread → List QueueItem
  | .executing item => [item]
  | _ => []

/-- The items between the put function and the handlers. -/
def Queue.items (queue : Queue) : List QueueItem :=
  queue.msgq ++ queue.putThread.items ++ queue.list ++ queue.execThread.items

theorem Queue.mem_items {queue : Queue} {item : QueueItem} :
    item ∈ queue.items ↔ item ∈ queue.msgq ∨ item ∈ queue.putThread.items ∨
      item ∈ queue.list ∨ item ∈ queue.execThread.items := by
  simp only [Queue.items, List.mem_append, or_assoc]

theorem Queue.executing_mem {queue : Queue} {item : QueueItem}
    (executing : queue.execThread = .executing item) : item ∈ queue.items := by
  rw [Queue.mem_items, executing]
  exact Or.inr (Or.inr (Or.inr (List.mem_singleton_self item)))

/-- A step of a thread brings no item that was not queued. -/
theorem mem_items_threads {run : Queue → Except Stop Queue} {queue after : Queue}
    (ran : run queue = .ok after) (thread : run ∈ queueThreads)
    {item : QueueItem} (member : item ∈ after.items) : item ∈ queue.items := by
  rw [Queue.mem_items] at member ⊢
  rcases mem_queueThreads.mp thread with rfl | rfl | rfl | rfl | rfl | rfl | rfl
  · obtain ⟨first, rest, waiting, message, rfl⟩ := putThreadGet_cases ran
    simp only [PutThread.items, List.mem_singleton] at member
    rw [waiting, message, List.mem_cons]
    tauto
  · obtain ⟨first, fetched, rfl⟩ := putThreadFree_cases ran
    rw [fetched]
    exact member
  · obtain ⟨first, copied, _, ⟨_, rfl⟩ | ⟨_, rfl⟩ | ⟨_, _, rfl⟩⟩ := putThreadInsert_cases ran
    · simp only [PutThread.items, List.not_mem_nil, false_or] at member
      tauto
    · simp only [PutThread.items, List.not_mem_nil, false_or] at member
      tauto
    · simp only [PutThread.items, List.not_mem_nil, false_or, mem_insertNode] at member
      rw [copied, PutThread.items, List.mem_singleton]
      tauto
  · obtain ⟨inserted, rfl⟩ := putThreadGive_cases ran
    rw [inserted]
    exact member
  · obtain ⟨waiting, _, rfl⟩ := execThreadTakePhy_cases ran
    rw [waiting]
    exact member
  · obtain ⟨waiting, _, rfl⟩ := execThreadTakeItem_cases ran
    rw [waiting]
    exact member
  · obtain ⟨removing, first, rest, list, ⟨_, rfl⟩ | ⟨_, rfl⟩⟩ := execThreadRemove_cases ran
    · simp only [Queue.giveItem, ExecThread.items, List.mem_append, List.mem_singleton] at member
      rw [list, List.mem_cons]
      tauto
    · simp only [ExecThread.items, List.mem_singleton] at member
      rw [list, List.mem_cons]
      tauto

/-- A step of a thread other than the insertion loses no item. -/
theorem items_threads_keep {run : Queue → Except Stop Queue} {queue after : Queue}
    (ran : run queue = .ok after) (thread : run = putThreadGet ∨ run = putThreadFree ∨
      run = putThreadGive ∨ run = execThreadTakePhy ∨ run = execThreadTakeItem ∨
      run = execThreadRemove)
    {item : QueueItem} (member : item ∈ queue.items) : item ∈ after.items := by
  rw [Queue.mem_items] at member ⊢
  rcases thread with rfl | rfl | rfl | rfl | rfl | rfl
  · obtain ⟨first, rest, waiting, message, rfl⟩ := putThreadGet_cases ran
    rw [waiting, message, List.mem_cons] at member
    simp only [PutThread.items, List.mem_singleton, List.not_mem_nil] at member ⊢
    tauto
  · obtain ⟨first, fetched, rfl⟩ := putThreadFree_cases ran
    rw [fetched] at member
    exact member
  · obtain ⟨inserted, rfl⟩ := putThreadGive_cases ran
    rw [inserted] at member
    exact member
  · obtain ⟨waiting, _, rfl⟩ := execThreadTakePhy_cases ran
    rw [waiting] at member
    exact member
  · obtain ⟨waiting, _, rfl⟩ := execThreadTakeItem_cases ran
    rw [waiting] at member
    exact member
  · obtain ⟨removing, first, rest, list, ⟨_, rfl⟩ | ⟨_, rfl⟩⟩ := execThreadRemove_cases ran
    · rw [removing, list, List.mem_cons] at member
      simp only [Queue.giveItem, ExecThread.items, List.mem_append, List.mem_singleton,
        List.not_mem_nil] at member ⊢
      tauto
    · rw [removing, list, List.mem_cons] at member
      simp only [ExecThread.items, List.mem_singleton, List.not_mem_nil] at member ⊢
      tauto

/-- The insertion loses an item only when it finds no node block or no room in the list. -/
theorem items_insert_keep {queue after : Queue} (ran : putThreadInsert queue = .ok after)
    {item : QueueItem} (member : item ∈ queue.items) :
    item ∈ after.items ∨ (item ∈ queue.putThread.items ∧
      (queueMaxItems ≤ queue.nodeSlab ∨ queueMaxItems ≤ queue.list.length)) := by
  rw [Queue.mem_items] at member ⊢
  obtain ⟨first, copied, _, ⟨full, rfl⟩ | ⟨full, rfl⟩ | ⟨_, _, rfl⟩⟩ := putThreadInsert_cases ran
  · simp only [PutThread.items, List.not_mem_nil, false_or]
    tauto
  · simp only [PutThread.items, List.not_mem_nil, false_or]
    tauto
  · rw [copied, PutThread.items, List.mem_singleton] at member
    simp only [PutThread.items, List.not_mem_nil, false_or, mem_insertNode]
    tauto

/-- A put queues its item, if it finds a block, or nothing. -/
theorem mem_items_put {item other : QueueItem} {queue after : Queue} {code : ErrorCode}
    (put : dectPhyQueuePut item queue = .ok (code, after)) (member : other ∈ after.items) :
    (other = item ∧ queue.itemSlab < queueMaxItems) ∨ other ∈ queue.items := by
  rw [Queue.mem_items] at member ⊢
  rcases dectPhyQueuePut_cases put with ⟨_, _, rfl⟩ | ⟨_, room, rfl⟩
  · exact Or.inr member
  · simp only [Queue.accept, List.mem_append, List.mem_singleton] at member
    tauto

/-- A put loses no item, and queues its own when it finds a block. -/
theorem items_put_keep {item other : QueueItem} {queue after : Queue} {code : ErrorCode}
    (put : dectPhyQueuePut item queue = .ok (code, after))
    (member : other ∈ queue.items ∨ (other = item ∧ queue.itemSlab < queueMaxItems)) :
    other ∈ after.items := by
  rw [Queue.mem_items] at member ⊢
  rcases dectPhyQueuePut_cases put with ⟨_, full, rfl⟩ | ⟨_, _, rfl⟩
  · rcases member with queued | ⟨_, room⟩
    · exact queued
    · exact absurd room (Nat.not_lt_of_le full)
  · simp only [Queue.accept, List.mem_append, List.mem_singleton]
    tauto

theorem mem_items_dispatch {item other : QueueItem} {queue : Queue}
    (member : other ∈ (queue.dispatch item).items) : other ∈ queue.items := by
  rw [Queue.mem_items] at member ⊢
  simp only [Queue.dispatch, Queue.save, ExecThread.items, List.not_mem_nil, or_false] at member
  tauto

theorem items_dispatch_keep {item other : QueueItem} {queue : Queue}
    (executing : queue.execThread = .executing item) (member : other ∈ queue.items) :
    other ∈ (queue.dispatch item).items ∨ other = item := by
  rw [Queue.mem_items, executing, ExecThread.items, List.mem_singleton] at member
  rw [Queue.mem_items]
  simp only [Queue.dispatch, Queue.save, ExecThread.items, List.not_mem_nil, or_false]
  tauto

theorem items_failedRetry (queue : Queue) :
    (dectMacPhyHandlerQueueOperationFailedRetry queue).items = queue.items := by
  obtain ⟨counter, ⟨_, same⟩ | ⟨_, same⟩⟩ := operationFailedRetry_cases queue <;> rw [same] <;> rfl

/-! ### The start-time retry -/

/-- The retry has not been used up: the next failed start arms the timer. -/
def Queue.RetriesLeft (queue : Queue) : Prop :=
  (queue.operationFailedCounter + 1) % 4294967296 ≤ queueMaxRetry

instance (queue : Queue) : Decidable queue.RetriesLeft :=
  inferInstanceAs (Decidable (_ ≤ _))

theorem failedRetry_arms {queue : Queue} (left : queue.RetriesLeft) :
    dectMacPhyHandlerQueueOperationFailedRetry queue =
      { queue with
        operationFailedCounter := (queue.operationFailedCounter + 1) % 4294967296
        timerArmed := true } :=
  if_neg (Nat.not_lt_of_le left)

theorem failedRetry_gives {queue : Queue} (exhausted : ¬ queue.RetriesLeft) :
    dectMacPhyHandlerQueueOperationFailedRetry queue =
      { queue with
        operationFailedCounter := (queue.operationFailedCounter + 1) % 4294967296 }.givePhy :=
  if_pos (Nat.lt_of_not_le exhausted)

/-! ### One action -/

/-- An action calls the put function with one item, or leaves its log as it was. -/
theorem Action.put_or_quiet {system after : System config} {event : Event config}
    (action : Action system event after) :
    (∃ item code, dectPhyQueuePut item system.queue = .ok (code, after.queue)) ∨
      after.queue.putCalls = system.queue.putCalls := by
  have logged {run : Queue → Except Stop Queue} {queue : Queue}
      (ran : run system.queue = .ok queue) (thread : run ∈ queueThreads) :
      queue.putCalls = system.queue.putCalls :=
    (sameOutside_threads ran thread).putCalls
  cases action with
  | sent params address index code queue free took put => exact Or.inl ⟨_, code, put⟩
  | retransmitted index nodes code queue pending below put => exact Or.inl ⟨_, code, put⟩
  | queuePut operation priority code queue put => exact Or.inl ⟨_, code, put⟩
  | request status header ret harq reply request nodes code queue _ _ _ _ put =>
    exact Or.inl ⟨_, code, put⟩
  | putGet queue ran => exact Or.inr (logged ran (by simp [queueThreads]))
  | putFree queue ran => exact Or.inr (logged ran (by simp [queueThreads]))
  | putInsert queue ran => exact Or.inr (logged ran (by simp [queueThreads]))
  | putGive queue ran => exact Or.inr (logged ran (by simp [queueThreads]))
  | execTakePhy queue ran => exact Or.inr (logged ran (by simp [queueThreads]))
  | execTakeItem queue ran => exact Or.inr (logged ran (by simp [queueThreads]))
  | execRemove queue ran => exact Or.inr (logged ran (by simp [queueThreads]))
  | execDispatch _ item ret executing execution =>
    rw [execution.keeps.2]
    exact Or.inr rfl
  | retryTimer _ ret armed execution =>
    rw [execution.keeps.2]
    exact Or.inr rfl
  | completeRetry => exact Or.inr (putCalls_retry _)
  | _ => exact Or.inr rfl

/-- The attempt of a move puts the operation of a process. -/
theorem attempt_harqItem {move : HarqMove config} {harq : Harq config} {item : QueueItem}
    (attempted : move.attempt harq = some item) :
    ∃ index startTime priority,
      item = harqItem config index (harq.processes index) startTime priority ∧
        ((∃ params address, move = .sent index params address) ∨ move = .retransmitted index) := by
  cases move with
  | sent index params address =>
    exact ⟨index, _, _, (Option.some.inj attempted).symm, Or.inl ⟨params, address, rfl⟩⟩
  | retransmitted index => exact ⟨index, _, _, (Option.some.inj attempted).symm, Or.inr rfl⟩
  | _ => cases attempted

/-- Where a queued item comes from: it was queued before, or the application put it, or it is
the placeholder of a reply, or HARQ put it for a packet. -/
theorem Action.items_from {system after : System config} {event : Event config}
    (sound : system.harq.Sound) (action : Action system event after) {item : QueueItem}
    (member : item ∈ after.queue.items) :
    item ∈ system.queue.items ∨ item.provenance = .user ∨
      (item.operation = .placeholder ∧ ∃ number, item.provenance = .reply number) ∨
      ((harqMove system event).attempt after.harq = some item ∧
        system.queue.itemSlab < queueMaxItems) := by
  have calls := (action.move sound).2
  have attempted {own : QueueItem} {queue : Queue} {code : ErrorCode}
      (put : dectPhyQueuePut own system.queue = .ok (code, queue)) (same : after.queue = queue)
      (ofPacket : own.provenance.ofPacket = true) :
      (harqMove system event).attempt after.harq = some own := by
    rw [same, packetCalls_put put, List.append_cancel_left_eq, List.filter_cons,
      if_pos ofPacket] at calls
    exact Option.toList_eq_singleton_iff.mp calls.symm
  cases action with
  | sent params address index code queue free took put =>
    rcases mem_items_put put member with ⟨rfl, room⟩ | queued
    · exact Or.inr (Or.inr (Or.inr ⟨attempted put rfl rfl, room⟩))
    · exact Or.inl queued
  | retransmitted index nodes code queue pending below put =>
    rcases mem_items_put put member with ⟨rfl, room⟩ | queued
    · exact Or.inr (Or.inr (Or.inr ⟨attempted put rfl rfl, room⟩))
    · exact Or.inl queued
  | queuePut operation priority code queue put =>
    rcases mem_items_put put member with ⟨rfl, _⟩ | queued
    · exact Or.inr (Or.inl rfl)
    · exact Or.inl queued
  | request status header ret harq reply request nodes code queue _ _ _ _ put =>
    rcases mem_items_put put member with ⟨rfl, _⟩ | queued
    · exact Or.inr (Or.inr (Or.inl ⟨rfl, _, rfl⟩))
    · exact Or.inl queued
  | putGet queue ran => exact Or.inl (mem_items_threads ran (by simp [queueThreads]) member)
  | putFree queue ran => exact Or.inl (mem_items_threads ran (by simp [queueThreads]) member)
  | putInsert queue ran => exact Or.inl (mem_items_threads ran (by simp [queueThreads]) member)
  | putGive queue ran => exact Or.inl (mem_items_threads ran (by simp [queueThreads]) member)
  | execTakePhy queue ran => exact Or.inl (mem_items_threads ran (by simp [queueThreads]) member)
  | execTakeItem queue ran => exact Or.inl (mem_items_threads ran (by simp [queueThreads]) member)
  | execRemove queue ran => exact Or.inl (mem_items_threads ran (by simp [queueThreads]) member)
  | execDispatch _ executed ret executing execution =>
    rw [execution.keeps.2] at member
    exact Or.inl (mem_items_dispatch member)
  | retryTimer _ ret armed execution =>
    rw [execution.keeps.2] at member
    exact Or.inl member
  | completeRetry position op handle found completes =>
    exact Or.inl (items_failedRetry system.queue ▸ member)
  | _ => exact Or.inl member

/-- A step puts one item, and when the item is one of the application the step is its put; or it
puts nothing, and queues nothing that was not queued. -/
theorem Action.put_by_user {system after : System config} {event : Event config}
    (action : Action system event after) :
    (∃ item code, dectPhyQueuePut item system.queue = .ok (code, after.queue) ∧
      (item.provenance = .user → event = .queuePut item.operation item.priority)) ∨
      (after.queue.putCalls = system.queue.putCalls ∧
        ∀ item ∈ after.queue.items, item ∈ system.queue.items) := by
  have threads {run : Queue → Except Stop Queue} (ran : run system.queue = .ok after.queue)
      (thread : run ∈ queueThreads) : after.queue.putCalls = system.queue.putCalls ∧
        ∀ item ∈ after.queue.items, item ∈ system.queue.items :=
    ⟨(sameOutside_threads ran thread).putCalls,
      fun _ member => mem_items_threads ran thread member⟩
  cases action with
  | sent params address index code queue free took put =>
    exact Or.inl ⟨_, code, put, fun user => by cases user⟩
  | retransmitted index nodes code queue pending below put =>
    exact Or.inl ⟨_, code, put, fun user => by cases user⟩
  | request status header ret harq reply request nodes code queue _ _ _ _ put =>
    exact Or.inl ⟨_, code, put, fun user => by cases user⟩
  | queuePut operation priority code queue put => exact Or.inl ⟨_, code, put, fun _ => rfl⟩
  | putGet queue ran => exact Or.inr (threads ran (by simp [queueThreads]))
  | putFree queue ran => exact Or.inr (threads ran (by simp [queueThreads]))
  | putInsert queue ran => exact Or.inr (threads ran (by simp [queueThreads]))
  | putGive queue ran => exact Or.inr (threads ran (by simp [queueThreads]))
  | execTakePhy queue ran => exact Or.inr (threads ran (by simp [queueThreads]))
  | execTakeItem queue ran => exact Or.inr (threads ran (by simp [queueThreads]))
  | execRemove queue ran => exact Or.inr (threads ran (by simp [queueThreads]))
  | execDispatch _ item ret executing execution =>
    rw [execution.keeps.2]
    exact Or.inr ⟨rfl, fun _ member => mem_items_dispatch member⟩
  | retryTimer _ ret armed execution =>
    rw [execution.keeps.2]
    exact Or.inr ⟨rfl, fun _ member => member⟩
  | completeRetry =>
    exact Or.inr ⟨putCalls_retry _, fun _ member => items_failedRetry system.queue ▸ member⟩
  | _ => exact Or.inr ⟨rfl, fun _ member => member⟩

/-- The saved operation and the retry timer were not touched. -/
structure Queue.SameSaved (before after : Queue) : Prop where
  operation : after.currentOperation = before.currentOperation
  provenance : after.currentProvenance = before.currentProvenance
  timer : after.timerArmed = before.timerArmed

theorem sameSaved_threads {run : Queue → Except Stop Queue} {queue after : Queue}
    (ran : run queue = .ok after) (thread : run ∈ queueThreads) : Queue.SameSaved queue after :=
  have same := sameOutside_threads ran thread
  ⟨same.operation, same.provenance, same.timer⟩

theorem sameSaved_put {item : QueueItem} {queue after : Queue} {code : ErrorCode}
    (put : dectPhyQueuePut item queue = .ok (code, after)) : Queue.SameSaved queue after := by
  rcases dectPhyQueuePut_cases put with ⟨_, _, rfl⟩ | ⟨_, _, rfl⟩ <;> exact ⟨rfl, rfl, rfl⟩

/-- What an action does to the saved operation and the timer: a dispatch saves the executed
item, the timer expires on the saved operation, a failed start arms it, and nothing else
touches them. -/
theorem Action.saved {system after : System config} {event : Event config}
    (action : Action system event after) :
    Queue.SameSaved system.queue after.queue ∨
      (∃ item ret, system.queue.execThread = .executing item ∧ event = .execDispatch ret ∧
        after.queue = system.queue.dispatch item) ∨
      (∃ ret, system.queue.timerArmed = true ∧ event = .retryTimer ret ∧
        after.queue = system.queue.retry) ∨
      (∃ position, event = .opComplete position .invalidStartTime ∧
        after.queue = dectMacPhyHandlerQueueOperationFailedRetry system.queue) := by
  cases action with
  | sent params address index code queue free took put => exact Or.inl (sameSaved_put put)
  | retransmitted index nodes code queue pending below put => exact Or.inl (sameSaved_put put)
  | queuePut operation priority code queue put => exact Or.inl (sameSaved_put put)
  | request status header ret harq reply request nodes code queue _ _ _ _ put =>
    exact Or.inl (sameSaved_put put)
  | putGet queue ran => exact Or.inl (sameSaved_threads ran (by simp [queueThreads]))
  | putFree queue ran => exact Or.inl (sameSaved_threads ran (by simp [queueThreads]))
  | putInsert queue ran => exact Or.inl (sameSaved_threads ran (by simp [queueThreads]))
  | putGive queue ran => exact Or.inl (sameSaved_threads ran (by simp [queueThreads]))
  | execTakePhy queue ran => exact Or.inl (sameSaved_threads ran (by simp [queueThreads]))
  | execTakeItem queue ran => exact Or.inl (sameSaved_threads ran (by simp [queueThreads]))
  | execRemove queue ran => exact Or.inl (sameSaved_threads ran (by simp [queueThreads]))
  | execDispatch _ item ret executing execution =>
    exact Or.inr (Or.inl ⟨item, ret, executing, rfl, execution.keeps.2⟩)
  | retryTimer _ ret armed execution =>
    exact Or.inr (Or.inr (Or.inl ⟨ret, armed, rfl, execution.keeps.2⟩))
  | completeRetry position op handle found completes =>
    exact Or.inr (Or.inr (Or.inr ⟨position, rfl, rfl⟩))
  | _ => exact Or.inl ⟨rfl, rfl, rfl⟩

/-! ### The form of what HARQ queues -/

/-- An operation has the form of what is queued for a provenance: the TX_RX of a packet has the
handle of its process, up to the queue bit, and a reply has a placeholder. -/
def Provenance.Forms : Provenance → Operation → Prop
  | .packet process _, operation => process < 8 ∧ ∃ params, operation = .txRx params ∧
      withQueueBit params.handle = withQueueBit (BitVec.ofNat 28 (handleHarq + process))
  | .reply _, operation => operation = .placeholder
  | .user, _ => True

/-- A request of the modem has the form of what is called for a provenance. -/
def Provenance.Requests : Provenance → ModemRequest → Prop
  | .packet process _, request => request.isTxRx = true ∧ ∃ handle,
      request.completionHandle = some handle ∧ handleFunction handle = functionTxRx ∧
      isHarqHandle handle = true ∧ handleProcess handle = process
  | .reply _, request => ∃ params, request = .txHarq params
  | .user, _ => True

theorem withQueueBit_idem (handle : BitVec 28) :
    withQueueBit (withQueueBit handle) = withQueueBit handle := by
  unfold withQueueBit
  rw [BitVec.or_assoc, BitVec.or_self]

theorem Provenance.Forms.fromQueue {provenance : Provenance} {operation : Operation}
    (forms : provenance.Forms operation) : provenance.Forms operation.fromQueue := by
  cases provenance with
  | packet process packet =>
    obtain ⟨bound, params, rfl, handle⟩ := forms
    exact ⟨bound, _, rfl, (withQueueBit_idem _).trans handle⟩
  | reply number =>
    obtain rfl : operation = .placeholder := forms
    rfl
  | user => trivial

/-- The handle of the TX_RX of a process names the process. -/
theorem harqHandle_process {process : Nat} (bound : process < 8) :
    let handle := composeHandle functionTxRx
      (withQueueBit (BitVec.ofNat 28 (handleHarq + process)))
    isHarqHandle handle = true ∧ handleProcess handle = process := by
  have each : ∀ process : Fin 8,
      let handle := composeHandle functionTxRx
        (withQueueBit (BitVec.ofNat 28 (handleHarq + process)))
      isHarqHandle handle = true ∧ handleProcess handle = process := by
    decide
  exact each ⟨process, bound⟩

/-- An operation of the right form is called with a request of the right form. -/
theorem Provenance.Forms.requests {provenance : Provenance} {operation : Operation}
    {request : ModemRequest} (forms : provenance.Forms operation)
    (issues : Issues operation.fromQueue request) : provenance.Requests request := by
  cases provenance with
  | packet process packet =>
    obtain ⟨bound, params, rfl, handle⟩ := forms
    cases request with
    | txRx transmission reception =>
      obtain ⟨same, _⟩ := issues
      have own : transmission.handle = composeHandle functionTxRx
          (withQueueBit (BitVec.ofNat 28 (handleHarq + process))) := by
        rw [same, ← handle]
      refine ⟨rfl, transmission.handle, rfl, ?_⟩
      rw [own]
      exact ⟨handleFunction_composeHandle _ _ (by decide), harqHandle_process bound⟩
    | _ => exact absurd issues id
  | reply number =>
    obtain rfl : operation = .placeholder := forms
    exact absurd issues id
  | user => trivial

/-- Everything that HARQ queued has its form, wherever it is. -/
structure System.Formed (system : System config) : Prop where
  items : ∀ item ∈ system.queue.items, item.provenance.Forms item.operation
  current : system.queue.currentProvenance.Forms system.queue.currentOperation
  modem : ∀ op ∈ system.phy.modem, op.provenance.Requests op.request

/-! ### The operations at the modem -/

/-- A call adds its operation, if the modem accepts it. -/
theorem mem_modemAfter {modem : List ModemOp} {request : ModemRequest} {origin : Origin}
    {ret : Int} {op : ModemOp} (member : op ∈ modemAfter modem request origin ret) :
    op ∈ modem ∨ op = ⟨request, origin.provenance, origin.awaited, false, false, false⟩ := by
  unfold modemAfter at member
  split at member
  · exact (List.mem_append.mp member).imp_right List.mem_singleton.mp
  · exact Or.inl member

theorem modemAfter_keeps {modem : List ModemOp} {op : ModemOp} (member : op ∈ modem)
    (request : ModemRequest) (origin : Origin) (ret : Int) :
    op ∈ modemAfter modem request origin ret := by
  unfold modemAfter
  split
  · exact List.mem_append_left _ member
  · exact member

/-- Two operations are the same up to the marks that completions and reports leave. -/
def ModemOp.Same (first second : ModemOp) : Prop :=
  first.request = second.request ∧ first.provenance = second.provenance

/-- A completion leaves the operations of the modem, less the completed one. -/
theorem mem_completeAt {position : Nat} {op other : ModemOp} {err : PhyErr}
    {modem : List ModemOp} (found : modem[position]? = some op)
    (member : other ∈ completeAt position op err modem) :
    ∃ old ∈ modem, other.Same old ∧ other.awaited = old.awaited := by
  unfold completeAt at member
  split at member
  · rcases List.mem_or_eq_of_mem_set member with old | rfl
    · exact ⟨other, old, ⟨rfl, rfl⟩, rfl⟩
    · exact ⟨op, List.mem_of_getElem? found, ⟨rfl, rfl⟩, rfl⟩
  · exact ⟨other, List.mem_of_mem_eraseIdx member, ⟨rfl, rfl⟩, rfl⟩

/-- Every place but one keeps its operation when that one is erased. -/
theorem mem_eraseIdx_of_ne {position : Nat} {op other : ModemOp} {modem : List ModemOp}
    (found : modem[position]? = some op) (member : other ∈ modem) :
    other ∈ modem.eraseIdx position ∨ other = op := by
  obtain ⟨place, at_place⟩ := List.mem_iff_getElem?.mp member
  by_cases same : place = position
  · rw [same, found] at at_place
    exact Or.inr (Option.some.inj at_place).symm
  · exact Or.inl (List.mem_eraseIdx_iff_getElem?.mpr ⟨place, same, at_place⟩)

/-- Every place but one keeps its operation when that one is replaced. -/
theorem mem_set_of_ne {position : Nat} {op other changed : ModemOp} {modem : List ModemOp}
    (found : modem[position]? = some op) (member : other ∈ modem) :
    other ∈ modem.set position changed ∨ other = op := by
  obtain ⟨place, at_place⟩ := List.mem_iff_getElem?.mp member
  by_cases same : place = position
  · rw [same, found] at at_place
    exact Or.inr (Option.some.inj at_place).symm
  · refine Or.inl (List.mem_iff_getElem?.mpr ⟨place, ?_⟩)
    rw [List.getElem?_set_ne (Ne.symm same)]
    exact at_place

theorem completeAt_keeps {position : Nat} {op other : ModemOp} {err : PhyErr}
    {modem : List ModemOp} (found : modem[position]? = some op) (member : other ∈ modem) :
    other ∈ completeAt position op err modem ∨ other = op := by
  unfold completeAt
  split
  · exact mem_set_of_ne found member
  · exact mem_eraseIdx_of_ne found member

/-- A placeholder that gives its token away changes nothing but that mark. -/
theorem mem_awaitReply {phy : Phy} {provenance : Provenance} {op : ModemOp}
    (member : op ∈ (phy.awaitReply provenance).modem) :
    ∃ old ∈ phy.modem, op.Same old ∧ op.secondHalf = old.secondHalf := by
  unfold Phy.awaitReply at member
  split at member
  · obtain ⟨old, oldMember, rfl⟩ := List.mem_map.mp member
    refine ⟨old, oldMember, ?_⟩
    split <;> exact ⟨⟨rfl, rfl⟩, rfl⟩
  · exact ⟨op, member, ⟨rfl, rfl⟩, rfl⟩

theorem awaitReply_keeps {phy : Phy} (provenance : Provenance) {op : ModemOp}
    (member : op ∈ phy.modem) :
    ∃ kept ∈ (phy.awaitReply provenance).modem, kept.Same op ∧ kept.secondHalf = op.secondHalf ∧
      (op.awaited = true → kept.awaited = true) := by
  unfold Phy.awaitReply
  split
  · refine ⟨_, List.mem_map_of_mem member, ?_⟩
    split
    · exact ⟨⟨rfl, rfl⟩, rfl, fun _ => rfl⟩
    · exact ⟨⟨rfl, rfl⟩, rfl, id⟩
  · exact ⟨op, member, ⟨rfl, rfl⟩, rfl, id⟩

/-- Executing an operation adds at most the operation that its handler calls. -/
theorem Execution.modem_from {operation : Operation} {provenance : Provenance} {ret : Int}
    {system after : System config}
    (execution : Execution config operation provenance ret system after) {op : ModemOp}
    (member : op ∈ after.phy.modem) :
    (∃ old ∈ system.phy.modem, op.Same old) ∨
      (op.provenance = provenance ∧ Issues operation.fromQueue op.request) := by
  cases execution with
  | placeholder none =>
    obtain ⟨old, oldMember, same, _⟩ := mem_awaitReply member
    exact Or.inl ⟨old, oldMember, same⟩
  | nothing none => exact Or.inl ⟨op, member, rfl, rfl⟩
  | call request state nodes issues =>
    rcases mem_modemAfter member with old | rfl
    · exact Or.inl ⟨op, old, rfl, rfl⟩
    · exact Or.inr ⟨rfl, issues⟩

/-- Executing an operation loses none of the modem's operations. -/
theorem Execution.modem_keeps {operation : Operation} {provenance : Provenance} {ret : Int}
    {system after : System config}
    (execution : Execution config operation provenance ret system after) {op : ModemOp}
    (member : op ∈ system.phy.modem) :
    ∃ kept ∈ after.phy.modem, kept.Same op ∧ kept.secondHalf = op.secondHalf ∧
      (op.awaited = true → kept.awaited = true) := by
  cases execution with
  | placeholder none => exact awaitReply_keeps provenance member
  | nothing none => exact ⟨op, member, ⟨rfl, rfl⟩, rfl, id⟩
  | call request state nodes issues =>
    exact ⟨op, modemAfter_keeps member _ _ _, ⟨rfl, rfl⟩, rfl, id⟩

/-- Where an operation of the modem comes from: it was there before, or the application called
its handler, or it is a reply, or it is the executed or the retried operation. -/
theorem Action.modem_from {system after : System config} {event : Event config}
    (action : Action system event after) {op : ModemOp} (member : op ∈ after.phy.modem) :
    (∃ old ∈ system.phy.modem, op.Same old) ∨ op.provenance = .user ∨
      (∃ number params, op.provenance = .reply number ∧ op.request = .txHarq params) ∨
      (∃ item ∈ system.queue.items, op.provenance = item.provenance ∧
        Issues item.operation.fromQueue op.request) ∨
      (op.provenance = system.queue.currentProvenance ∧
        Issues system.queue.currentOperation.fromQueue op.request) := by
  have completed {position : Nat} {err : PhyErr} {done : ModemOp}
      (found : system.phy.modem[position]? = some done)
      (left : op ∈ completeAt position done err system.phy.modem) :
      ∃ old ∈ system.phy.modem, op.Same old := by
    obtain ⟨old, oldMember, same, _⟩ := mem_completeAt found left
    exact ⟨old, oldMember, same⟩
  cases action with
  | direct operation ret request state nodes issues =>
    rcases mem_modemAfter member with old | rfl
    · exact Or.inl ⟨op, old, rfl, rfl⟩
    · exact Or.inr (Or.inl rfl)
  | request status header ret harq reply request nodes code queue addressed processed issues =>
    rcases mem_modemAfter member with old | rfl
    · exact Or.inl ⟨op, old, rfl, rfl⟩
    · exact Or.inr (Or.inr (Or.inl ⟨_, request, rfl, rfl⟩))
  | execDispatch _ item ret executing execution =>
    rcases execution.modem_from member with old | ⟨same, issues⟩
    · exact Or.inl old
    · exact Or.inr (Or.inr (Or.inr (Or.inl ⟨item, Queue.executing_mem executing, same, issues⟩)))
  | retryTimer _ ret armed execution =>
    rcases execution.modem_from member with old | ⟨same, issues⟩
    · exact Or.inl old
    · exact Or.inr (Or.inr (Or.inr (Or.inr ⟨same, issues⟩)))
  | completeError position err done handle found => exact Or.inl (completed found member)
  | completeRetry position done handle found => exact Or.inl (completed found member)
  | turn position done handle found => exact Or.inl (completed found member)
  | turnHarq position done handle index found => exact Or.inl (completed found member)
  | completeQueued position done handle found => exact Or.inl (completed found member)
  | completeDirect position done handle found => exact Or.inl (completed found member)
  | rssiReport position done found rssi =>
    rcases List.mem_or_eq_of_mem_set member with old | rfl
    · exact Or.inl ⟨op, old, rfl, rfl⟩
    · exact Or.inl ⟨done, List.mem_of_getElem? found, rfl, rfl⟩
  | managementGive position capability capabilities done found management =>
    exact Or.inl ⟨op, List.mem_of_mem_eraseIdx member, rfl, rfl⟩
  | managementKeep position err capability done found keeps management =>
    exact Or.inl ⟨op, List.mem_of_mem_eraseIdx member, rfl, rfl⟩
  | _ => exact Or.inl ⟨op, member, rfl, rfl⟩

/-! ### What HARQ queued keeps its form -/

/-- The process that a move attempts to queue an operation of has its number. -/
theorem HarqStep.attempt_numbered {before after : Harq config} {move : HarqMove config}
    (taken : HarqStep before move after) (sound : before.Sound)
    {index : Fin config.harqProcessCount}
    (which : (∃ params address, move = .sent index params address) ∨ move = .retransmitted index) :
    (after.processes index).processNumber = (index : Nat) := by
  have soundAfter := taken.sound sound
  rcases which with ⟨params, address, rfl⟩ | rfl
  · cases taken with
    | sent capabilities index params address free =>
      exact soundAfter.numbered (initialize_initialized capabilities before) index
  · cases taken with
    | retransmitted index pending below =>
      exact soundAfter.numbered (sound.initialized_of_pending pending) index

/-- The operation a move queues has its form. -/
theorem HarqStep.attempt_forms {before after : Harq config} {move : HarqMove config}
    (taken : HarqStep before move after) (sound : before.Sound) {item : QueueItem}
    (attempted : move.attempt after = some item) : item.provenance.Forms item.operation := by
  obtain ⟨index, startTime, priority, rfl, which⟩ := attempt_harqItem attempted
  refine ⟨lt_of_lt_of_le index.isLt config.harqProcessCount_range.2, _, rfl, ?_⟩
  show withQueueBit (BitVec.ofNat 28 (handleHarq + (after.processes index).processNumber)) = _
  rw [taken.attempt_numbered sound which]

/-- Every action keeps the form of what HARQ queued. -/
theorem Action.formed {system after : System config} {event : Event config}
    (sound : system.harq.Sound) (formed : system.Formed) (action : Action system event after) :
    after.Formed where
  items := fun item member => by
    rcases action.items_from sound member with before | user | ⟨placeholder, number, reply⟩ |
      ⟨attempted, _⟩
    · exact formed.items item before
    · rw [user]
      trivial
    · rw [reply]
      exact placeholder
    · exact (action.move sound).1.attempt_forms sound attempted
  current := by
    rcases action.saved with same | ⟨item, ret, executing, _, dispatched⟩ | ⟨ret, _, _, retried⟩ |
      ⟨position, _, failed⟩
    · rw [same.provenance, same.operation]
      exact formed.current
    · rw [dispatched]
      exact formed.items item (Queue.executing_mem executing)
    · rw [retried]
      exact formed.current.fromQueue
    · rw [failed]
      obtain ⟨counter, ⟨_, same⟩ | ⟨_, same⟩⟩ := operationFailedRetry_cases system.queue <;>
        rw [same] <;> exact formed.current
  modem := fun op member => by
    rcases action.modem_from member with ⟨old, oldMember, request, provenance⟩ | user |
      ⟨number, params, reply, request⟩ | ⟨item, queued, provenance, issues⟩ | ⟨provenance, issues⟩
    · rw [request, provenance]
      exact formed.modem old oldMember
    · rw [user]
      trivial
    · rw [reply]
      exact ⟨params, request⟩
    · rw [provenance]
      exact (formed.items item queued).requests issues
    · rw [provenance]
      exact formed.current.requests issues

theorem boot_formed {start : System config} (booted : Booted start) : start.Formed := by
  obtain ⟨deviceId, allocations, _, rfl⟩ := booted
  exact ⟨fun _ member => absurd member List.not_mem_nil, trivial,
    fun _ member => absurd member List.not_mem_nil⟩

end DectHarq
