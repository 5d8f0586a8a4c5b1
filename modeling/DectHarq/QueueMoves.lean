/-
This file abstracts the program to what it does to the queue.

Every atomic action of the system is a call of the put function, a stretch of one of the
two threads, or leaves the message queue, the list and the threads alone. What is proved
of the queue in all runs is proved over these moves.
-/

import DectHarq.HarqMoves

namespace DectHarq

variable {config : Config}

/-- The stretches of the two threads. -/
def Event.OfThreads : Event config → Prop
  | .putGet => True
  | .putFree => True
  | .putInsert => True
  | .putGive => True
  | .execTakePhy => True
  | .execTakeItem => True
  | .execRemove => True
  | .execDispatch _ => True
  | _ => False

/-- Nothing was changed of the slabs, the message queue, the list, its semaphore and its mutex,
and neither thread has moved. -/
structure Queue.SameThreads (before after : Queue) : Prop where
  itemSlab : after.itemSlab = before.itemSlab
  msgq : after.msgq = before.msgq
  putThread : after.putThread = before.putThread
  nodeSlab : after.nodeSlab = before.nodeSlab
  list : after.list = before.list
  queueItemSem : after.queueItemSem = before.queueItemSem
  queueMutexLeft : after.queueMutexLeft = before.queueMutexLeft
  execThread : after.execThread = before.execThread

/-- What one action does to the queue. -/
inductive QueueMove (before : Queue) : Event config → Queue → Prop
  | put {event : Event config} {item : QueueItem} {code : ErrorCode} {after : Queue}
      (outside : ¬ event.OfThreads) (put : dectPhyQueuePut item before = .ok (code, after)) :
      QueueMove before event after
  | putGet {after : Queue} (ran : putThreadGet before = .ok after) :
      QueueMove before .putGet after
  | putFree {after : Queue} (ran : putThreadFree before = .ok after) :
      QueueMove before .putFree after
  | putInsert {after : Queue} (ran : putThreadInsert before = .ok after) :
      QueueMove before .putInsert after
  | putGive {after : Queue} (ran : putThreadGive before = .ok after) :
      QueueMove before .putGive after
  | execTakePhy {after : Queue} (ran : execThreadTakePhy before = .ok after) :
      QueueMove before .execTakePhy after
  | execTakeItem {after : Queue} (ran : execThreadTakeItem before = .ok after) :
      QueueMove before .execTakeItem after
  | execRemove {after : Queue} (ran : execThreadRemove before = .ok after) :
      QueueMove before .execRemove after
  | execDispatch {ret : Int} {item : QueueItem} (executing : before.execThread = .executing item) :
      QueueMove before (.execDispatch ret) (before.dispatch item)
  | elsewhere {event : Event config} {after : Queue} (outside : ¬ event.OfThreads)
      (same : Queue.SameThreads before after) : QueueMove before event after

theorem retry_sameThreads (queue : Queue) :
    Queue.SameThreads queue (dectMacPhyHandlerQueueOperationFailedRetry queue) := by
  obtain ⟨counter, ⟨_, same⟩ | ⟨_, same⟩⟩ := operationFailedRetry_cases queue
  · rw [same]
    exact ⟨rfl, rfl, rfl, rfl, rfl, rfl, rfl, rfl⟩
  · rw [same]
    exact ⟨rfl, rfl, rfl, rfl, rfl, rfl, rfl, rfl⟩

/-- Every action of the system makes a move on the queue. -/
theorem Action.queueMove {system after : System config} {event : Event config}
    (action : Action system event after) : QueueMove system.queue event after.queue := by
  cases action with
  | sent params address index code queue free took put => exact .put id put
  | queuePut operation priority code queue put => exact .put id put
  | retransmitted index nodes code queue pending below put => exact .put id put
  | request status header ret harq reply request nodes code queue _ _ _ _ put =>
    exact .put id put
  | putGet queue ran => exact .putGet ran
  | putFree queue ran => exact .putFree ran
  | putInsert queue ran => exact .putInsert ran
  | putGive queue ran => exact .putGive ran
  | execTakePhy queue ran => exact .execTakePhy ran
  | execTakeItem queue ran => exact .execTakeItem ran
  | execRemove queue ran => exact .execRemove ran
  | execDispatch _ item ret executing execution =>
    rw [execution.keeps.2]
    exact .execDispatch executing
  | retryTimer _ ret armed execution =>
    rw [execution.keeps.2]
    exact .elsewhere id ⟨rfl, rfl, rfl, rfl, rfl, rfl, rfl, rfl⟩
  | completeRetry => exact .elsewhere id (retry_sameThreads _)
  | _ => exact .elsewhere id ⟨rfl, rfl, rfl, rfl, rfl, rfl, rfl, rfl⟩

end DectHarq
