/-
This file models the operation queue: the put function, the put thread, the executor
thread up to the point where it executes an item, and the start-time retry.

Each thread is a program counter with its local data. A step of a thread runs to the
next point where another thread or a callback may observe it; a section under
`queue_mutex` is one step. The put thread ends when it cannot insert an item, and one
of its two exits leaves the mutex locked: both behaviours are modelled.
-/

import DectHarq.Types
import DectHarq.Library.StableQueue

namespace DectHarq

/-- `DECT_MAC_PHY_HANDLER_QUEUE_MAX_ITEMS`. -/
def queueMaxItems : Nat := 8

-- The zero is the one that the numerals of `Fin` ask for.
instance : @NeZero Nat Zero.ofOfNat0 queueMaxItems := ⟨Nat.succ_ne_zero 7⟩

/-- `DECT_MAC_PHY_HANDLER_QUEUE_MAX_RETRY`. -/
def queueMaxRetry : Nat := 10

def priorityPermanent : UInt32 := 0
def priorityLow : UInt32 := 10000
def priorityMedium : UInt32 := 20000
def priorityHigh : UInt32 := 30000
def priorityCritical : UInt32 := 4294967295

/-- `dect_mac_phy_handler_queue_item`, marked with who put it. -/
structure QueueItem where
  operation : Operation
  priority : UInt32
  provenance : Provenance
  deriving DecidableEq

/-- Where the put thread is. -/
inductive PutThread
  /-- Waiting for a message. -/
  | waiting
  /-- It got a message and has not freed the item block yet. -/
  | fetched (item : QueueItem)
  /-- It copied the item and freed the block. -/
  | copied (item : QueueItem)
  /-- It inserted the item and has not given `queue_item_sem` yet. -/
  | inserted
  /-- It returned: the thread has ended. -/
  | returned
  deriving DecidableEq

/-- Where the executor thread is. -/
inductive ExecThread
  /-- Waiting for `phy_layer_sem`. -/
  | waitPhy
  /-- It holds the PHY token and waits for `queue_item_sem`. -/
  | waitItem
  /-- It holds the token and a count of `queue_item_sem`. -/
  | removing
  /-- It removed an item and is about to execute it. -/
  | executing (item : QueueItem)
  deriving DecidableEq

/-- The state of the queue module. Slabs are counted by their blocks in use. The last field
logs the items of all calls of the put function, successful or not; nothing reads it. -/
structure Queue where
  itemSlab : Nat
  msgq : List QueueItem
  putThread : PutThread
  nodeSlab : Nat
  list : List QueueItem
  queueItemSem : Nat
  queueMutexLeft : Bool
  phyLayerSem : Nat
  execThread : ExecThread
  currentOperation : Operation
  currentProvenance : Provenance
  operationFailedCounter : Nat
  timerArmed : Bool
  putCalls : List QueueItem

/-- The queue at boot: `phy_layer_sem` is free, and `current_node` is zero. -/
def Queue.boot : Queue where
  itemSlab := 0
  msgq := []
  putThread := .waiting
  nodeSlab := 0
  list := []
  queueItemSem := 0
  queueMutexLeft := false
  phyLayerSem := 1
  execThread := .waitPhy
  currentOperation := .placeholder
  currentProvenance := .user
  operationFailedCounter := 0
  timerArmed := false
  putCalls := []

/-- `k_sem_give(&phy_layer_sem)`: the limit is 1. -/
def Queue.givePhy (queue : Queue) : Queue :=
  { queue with phyLayerSem := min (queue.phyLayerSem + 1) 1 }

/-- `dect_phy_queue_put`. -/
def dectPhyQueuePut (item : QueueItem) (queue : Queue) : Except Stop (ErrorCode × Queue) :=
  let called := { queue with putCalls := queue.putCalls ++ [item] }
  if called.itemSlab ≥ queueMaxItems then .ok (.noMemSlab, called)
  else if called.msgq.length ≥ queueMaxItems then .error .blocked
  else .ok (.ok, { called with
    itemSlab := called.itemSlab + 1
    msgq := called.msgq ++ [item] })

/-! ### The put thread -/

/-- The put thread gets a message. -/
def putThreadGet (queue : Queue) : Except Stop Queue :=
  match queue.putThread, queue.msgq with
  | .waiting, item :: rest => .ok { queue with putThread := .fetched item, msgq := rest }
  | .waiting, [] => .error .blocked
  | _, _ => .error .disabled

/-- The put thread frees the item block. -/
def putThreadFree (queue : Queue) : Except Stop Queue :=
  match queue.putThread with
  | .fetched item => .ok { queue with putThread := .copied item, itemSlab := queue.itemSlab - 1 }
  | _ => .error .disabled

/-- The insertion loop: `visited` are the nodes up to `previous_node`. The flag says whether
the node was inserted before the end of the list. -/
def insertLoop (node : QueueItem) (visited : List QueueItem) :
    List QueueItem → List QueueItem × Bool
  | [] => (visited, false)
  | current :: rest =>
    if current.priority < node.priority then (visited ++ node :: current :: rest, true)
    else insertLoop node (visited ++ [current]) rest

/-- The three insertion cases: empty list, before a lower priority, end of the list. -/
def insertNode (node : QueueItem) (list : List QueueItem) : List QueueItem :=
  if list.isEmpty then node :: list
  else
    let (inserted, nodeInserted) := insertLoop node [] list
    if nodeInserted then inserted else inserted ++ [node]

/-- The section of the put thread under `queue_mutex`. A failed node allocation returns with
the mutex locked; a full list returns with the node block still allocated. -/
def putThreadInsert (queue : Queue) : Except Stop Queue :=
  match queue.putThread with
  | .copied item =>
    if queue.queueMutexLeft then .error .blocked
    else if queue.nodeSlab ≥ queueMaxItems then
      .ok { queue with putThread := .returned, queueMutexLeft := true }
    else if queue.list.length ≥ queueMaxItems then
      .ok { queue with putThread := .returned, nodeSlab := queue.nodeSlab + 1 }
    else
      .ok { queue with
        putThread := .inserted
        nodeSlab := queue.nodeSlab + 1
        list := insertNode item queue.list }
  | _ => .error .disabled

/-- `k_sem_give(&queue_item_sem)`. -/
def Queue.giveItem (queue : Queue) : Queue :=
  { queue with queueItemSem := min (queue.queueItemSem + 1) queueMaxItems }

/-- The put thread notifies the executor thread. -/
def putThreadGive (queue : Queue) : Except Stop Queue :=
  match queue.putThread with
  | .inserted => .ok { queue.giveItem with putThread := .waiting }
  | _ => .error .disabled

/-! ### The executor thread -/

/-- The executor takes the PHY token. -/
def execThreadTakePhy (queue : Queue) : Except Stop Queue :=
  match queue.execThread with
  | .waitPhy =>
    if queue.phyLayerSem = 0 then .error .blocked
    else .ok { queue with execThread := .waitItem, phyLayerSem := queue.phyLayerSem - 1 }
  | _ => .error .disabled

/-- The executor takes a count of `queue_item_sem`. -/
def execThreadTakeItem (queue : Queue) : Except Stop Queue :=
  match queue.execThread with
  | .waitItem =>
    if queue.queueItemSem = 0 then .error .blocked
    else .ok { queue with execThread := .removing, queueItemSem := queue.queueItemSem - 1 }
  | _ => .error .disabled

/-- The section of the executor under `queue_mutex`: a permanent item goes back to the tail of
the list, the node of another one is freed. The head is not checked for `NULL`. -/
def execThreadRemove (queue : Queue) : Except Stop Queue :=
  match queue.execThread with
  | .removing =>
    if queue.queueMutexLeft then .error .blocked
    else match queue.list with
      | [] => .error .nullPointer
      | item :: rest =>
        if item.priority = priorityPermanent then
          .ok { queue.giveItem with execThread := .executing item, list := rest ++ [item] }
        else
          .ok { queue with
            execThread := .executing item
            list := rest
            nodeSlab := queue.nodeSlab - 1 }
  | _ => .error .disabled

/-! ### The start-time retry -/

/-- `dect_mac_phy_handler_queue_operation_failed_retry`. -/
def dectMacPhyHandlerQueueOperationFailedRetry (queue : Queue) : Queue :=
  let counter := (queue.operationFailedCounter + 1) % 4294967296
  let counted := { queue with operationFailedCounter := counter }
  if counter > queueMaxRetry then counted.givePhy else { counted with timerArmed := true }

/-! ### The insertion is the stable sorted insertion -/

/-- The key the list is sorted by. -/
def priorityKey (item : QueueItem) : Nat := item.priority.toNat

/-- Permanent items, by their priority. -/
def Permanent (item : QueueItem) : Prop := item.priority = priorityPermanent

instance : DecidablePred Permanent := fun item =>
  inferInstanceAs (Decidable (item.priority = priorityPermanent))

/-- `PRIORITY_PERMANENT` is the least priority. -/
theorem permanent_least : StableQueue.PermanentLeast priorityKey Permanent := by
  intro item permanent other
  unfold priorityKey
  rw [show item.priority = priorityPermanent from permanent]
  exact Nat.zero_le _

theorem insertLoop_eq (node : QueueItem) (visited list : List QueueItem) :
    (if (insertLoop node visited list).2 then (insertLoop node visited list).1
      else (insertLoop node visited list).1 ++ [node]) =
      visited ++ StableQueue.insertStable priorityKey node list := by
  induction list generalizing visited with
  | nil => rfl
  | cons current rest inductionHypothesis =>
    rw [insertLoop, StableQueue.insertStable]
    by_cases lower : current.priority < node.priority
    · rw [if_pos lower, if_pos (show priorityKey current < priorityKey node from
        UInt32.lt_iff_toNat_lt.mp lower)]
      rfl
    · rw [if_neg lower, if_neg (show ¬ priorityKey current < priorityKey node from
        fun less => lower (UInt32.lt_iff_toNat_lt.mpr less)), inductionHypothesis,
        List.append_assoc, List.singleton_append]

theorem insertNode_eq (node : QueueItem) (list : List QueueItem) :
    insertNode node list = StableQueue.insertStable priorityKey node list := by
  unfold insertNode
  cases list with
  | nil => rfl
  | cons current rest => exact insertLoop_eq node [] (current :: rest)

theorem insertNode_length (node : QueueItem) (list : List QueueItem) :
    (insertNode node list).length = list.length + 1 := by
  rw [insertNode_eq, (StableQueue.insertStable_perm _ _ _).length_eq, List.length_cons]

theorem mem_insertNode {node item : QueueItem} {list : List QueueItem} :
    item ∈ insertNode node list ↔ item = node ∨ item ∈ list := by
  rw [insertNode_eq, (StableQueue.insertStable_perm _ _ _).mem_iff, List.mem_cons]

end DectHarq
