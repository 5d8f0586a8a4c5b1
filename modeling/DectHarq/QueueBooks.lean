/-
This file keeps the books of the put message queue and of the list.

The blocks of the item slab in use are the messages waiting and the one that the put
thread is copying. The slab has as many blocks as the message queue has places, so a
call of the put function that gets a block never waits for a place. The blocks of the
node slab in use are the nodes of the list, and the counts of the item semaphore are
those nodes too, up to the one that a thread is just about to give or to remove.
-/

import DectHarq.QueueMoves

namespace DectHarq

variable {config : Config}

/-! ### The message queue -/

/-- The blocks the put thread holds. -/
def PutThread.blocks : PutThread → Nat
  | .fetched _ => 1
  | _ => 0

/-- Every block of the item slab in use is accounted for. -/
def Queue.ItemsCounted (queue : Queue) : Prop :=
  queue.itemSlab = queue.msgq.length + queue.putThread.blocks

/-- Nothing that the item books are about was changed. -/
structure Queue.SameItems (before after : Queue) : Prop where
  itemSlab : after.itemSlab = before.itemSlab
  msgq : after.msgq = before.msgq
  putThread : after.putThread.blocks = before.putThread.blocks

theorem Queue.ItemsCounted.same {before after : Queue} (counted : before.ItemsCounted)
    (same : Queue.SameItems before after) : after.ItemsCounted := by
  unfold Queue.ItemsCounted
  rw [same.itemSlab, same.msgq, same.putThread]
  exact counted

theorem Queue.ItemsCounted.put {item : QueueItem} {queue after : Queue} {code : ErrorCode}
    (counted : queue.ItemsCounted) (put : dectPhyQueuePut item queue = .ok (code, after)) :
    after.ItemsCounted := by
  rcases dectPhyQueuePut_cases put with ⟨_, _, rfl⟩ | ⟨_, _, rfl⟩
  · exact counted
  · show queue.itemSlab + 1 = (queue.msgq ++ [item]).length + queue.putThread.blocks
    rw [counted, List.length_append, List.length_singleton]
    exact Nat.add_right_comm _ _ _

/-- With the books in order the put function always returns. -/
theorem Queue.ItemsCounted.put_returns {queue : Queue} (counted : queue.ItemsCounted)
    (item : QueueItem) :
    ∃ code after, dectPhyQueuePut item queue = .ok (code, after) := by
  unfold dectPhyQueuePut
  dsimp only
  by_cases full : queue.itemSlab ≥ queueMaxItems
  · rw [if_pos full]
    exact ⟨_, _, rfl⟩
  · have places : ¬ queue.msgq.length ≥ queueMaxItems := by
      rw [counted] at full
      exact fun waiting => full (le_trans waiting (Nat.le_add_right _ _))
    rw [if_neg full, if_neg places]
    exact ⟨_, _, rfl⟩

/-- Every move keeps the books. -/
theorem QueueMove.itemsCounted {before after : Queue} {event : Event config}
    (move : QueueMove before event after) (counted : before.ItemsCounted) :
    after.ItemsCounted := by
  cases move with
  | put outside put => exact counted.put put
  | putGet ran =>
    obtain ⟨item, rest, waiting, message, rfl⟩ := putThreadGet_cases ran
    unfold Queue.ItemsCounted at counted
    rw [waiting, message] at counted
    exact counted
  | putFree ran =>
    obtain ⟨item, fetched, rfl⟩ := putThreadFree_cases ran
    unfold Queue.ItemsCounted at counted
    rw [fetched] at counted
    show before.itemSlab - 1 = before.msgq.length
    rw [counted]
    rfl
  | putInsert ran =>
    obtain ⟨item, copied, _, ⟨_, rfl⟩ | ⟨_, rfl⟩ | ⟨_, _, rfl⟩⟩ := putThreadInsert_cases ran <;>
      exact counted.same ⟨rfl, rfl, by rw [copied]; rfl⟩
  | putGive ran =>
    obtain ⟨inserted, rfl⟩ := putThreadGive_cases ran
    exact counted.same ⟨rfl, rfl, by rw [inserted]; rfl⟩
  | execTakePhy ran =>
    obtain ⟨_, _, rfl⟩ := execThreadTakePhy_cases ran
    exact counted
  | execTakeItem ran =>
    obtain ⟨_, _, rfl⟩ := execThreadTakeItem_cases ran
    exact counted
  | execRemove ran =>
    obtain ⟨_, item, rest, _, ⟨_, rfl⟩ | ⟨_, rfl⟩⟩ := execThreadRemove_cases ran <;> exact counted
  | execDispatch executing => exact counted
  | elsewhere outside same =>
    exact counted.same ⟨same.itemSlab, same.msgq, congrArg _ same.putThread⟩

theorem itemsCounted_of_run {start final : System config}
    {steps : List (Transition.Step (System config) (Event config))} (booted : Booted start)
    (run : Run start steps final) : final.queue.ItemsCounted := by
  refine (run_invariant booted run (fun system => system.queue.ItemsCounted) (fun _ _ => True) ?_
    (fun _ _ _ _ _ counted action => action.queueMove.itemsCounted counted) (fun _ _ => trivial)).2
  obtain ⟨deviceId, allocations, _, rfl⟩ := booted
  rfl

/-! ### The list -/

/-- The nodes that the put thread has inserted and not given a count for yet. -/
def PutThread.ungiven : PutThread → Nat
  | .inserted => 1
  | _ => 0

/-- The nodes that the executor has taken a count for and not removed yet. -/
def ExecThread.unremoved : ExecThread → Nat
  | .removing => 1
  | _ => 0

/-- The counts of the item semaphore, the blocks of the node slab and the nodes of the list
agree. -/
structure Queue.Agreed (queue : Queue) : Prop where
  counts : queue.queueItemSem + queue.putThread.ungiven + queue.execThread.unremoved =
    queue.list.length
  blocks : queue.nodeSlab = queue.list.length
  bound : queue.list.length ≤ queueMaxItems

/-- Nothing that the books of the list are about was changed. -/
structure Queue.SameNodes (before after : Queue) : Prop where
  queueItemSem : after.queueItemSem = before.queueItemSem
  nodeSlab : after.nodeSlab = before.nodeSlab
  list : after.list = before.list
  putThread : after.putThread.ungiven = before.putThread.ungiven
  execThread : after.execThread.unremoved = before.execThread.unremoved

theorem Queue.Agreed.same {before after : Queue} (agreed : before.Agreed)
    (same : Queue.SameNodes before after) : after.Agreed where
  counts := by
    rw [same.queueItemSem, same.putThread, same.execThread, same.list]
    exact agreed.counts
  blocks := by
    rw [same.nodeSlab, same.list]
    exact agreed.blocks
  bound := by
    rw [same.list]
    exact agreed.bound

/-- The section of the put thread on a list that agrees with its slab: without a free block the
thread returns, and with one it inserts the node. -/
theorem Queue.Agreed.insert_cases {queue after : Queue} (agreed : queue.Agreed)
    (ran : putThreadInsert queue = .ok after) :
    ∃ item, queue.putThread = .copied item ∧ queue.queueMutexLeft = false ∧
      ((queue.list.length = queueMaxItems ∧
          after = { queue with putThread := .returned, queueMutexLeft := true }) ∨
        (queue.list.length < queueMaxItems ∧
          after = { queue with
            putThread := .inserted
            nodeSlab := queue.nodeSlab + 1
            list := insertNode item queue.list })) := by
  unfold putThreadInsert at ran
  split at ran
  · rename_i item copied
    refine ⟨item, copied, ?_⟩
    split at ran
    · cases ran
    · rename_i unlocked
      refine ⟨by simpa using unlocked, ?_⟩
      rw [agreed.blocks] at ran ⊢
      split at ran
      · rename_i full
        exact Or.inl ⟨le_antisymm agreed.bound full, (ok_inj ran).symm⟩
      · rename_i room
        exact Or.inr ⟨Nat.lt_of_not_le room, (ok_inj ran).symm⟩
  · cases ran

/-- The count of an inserted node is never lost. -/
theorem Queue.Agreed.give {queue : Queue} (agreed : queue.Agreed)
    (inserted : queue.putThread = .inserted) :
    queue.giveItem.queueItemSem = queue.queueItemSem + 1 := by
  have counts := agreed.counts
  have bound := agreed.bound
  rw [inserted] at counts
  dsimp only [PutThread.ungiven] at counts
  exact Nat.min_eq_left (by omega)

/-- Neither is the count of a node that the executor puts back. -/
theorem Queue.Agreed.giveBack {queue : Queue} (agreed : queue.Agreed)
    (removing : queue.execThread = .removing) :
    queue.giveItem.queueItemSem = queue.queueItemSem + 1 := by
  have counts := agreed.counts
  have bound := agreed.bound
  rw [removing] at counts
  dsimp only [ExecThread.unremoved] at counts
  exact Nat.min_eq_left (by omega)

/-- The executor finds a node to remove. -/
theorem Queue.Agreed.nonempty {queue : Queue} (agreed : queue.Agreed)
    (removing : queue.execThread = .removing) : queue.list ≠ [] := by
  have counts := agreed.counts
  rw [removing] at counts
  dsimp only [ExecThread.unremoved] at counts
  intro empty
  rw [empty, List.length_nil] at counts
  omega

theorem Queue.Agreed.inserted {queue after : Queue} (agreed : queue.Agreed)
    (ran : putThreadInsert queue = .ok after) : after.Agreed := by
  obtain ⟨item, copied, _, ⟨_, rfl⟩ | ⟨room, rfl⟩⟩ := agreed.insert_cases ran
  · exact agreed.same ⟨rfl, rfl, rfl, by rw [copied]; rfl, rfl⟩
  · have counts := agreed.counts
    have longer := insertNode_length item queue.list
    rw [copied] at counts
    dsimp only [PutThread.ungiven] at counts
    refine ⟨?_, ?_, ?_⟩
    · show queue.queueItemSem + 1 + queue.execThread.unremoved = _
      rw [longer]
      omega
    · show queue.nodeSlab + 1 = _
      rw [longer, agreed.blocks]
    · show (insertNode item queue.list).length ≤ _
      omega

theorem Queue.Agreed.given {queue after : Queue} (agreed : queue.Agreed)
    (gave : putThreadGive queue = .ok after) : after.Agreed := by
  obtain ⟨inserted, rfl⟩ := putThreadGive_cases gave
  have counts := agreed.counts
  rw [inserted] at counts
  refine ⟨?_, agreed.blocks, agreed.bound⟩
  show queue.giveItem.queueItemSem + 0 + queue.execThread.unremoved = queue.list.length
  rw [agreed.give inserted]
  exact counts

theorem Queue.Agreed.taken {queue after : Queue} (agreed : queue.Agreed)
    (took : execThreadTakeItem queue = .ok after) : after.Agreed := by
  obtain ⟨waiting, available, rfl⟩ := execThreadTakeItem_cases took
  have counts := agreed.counts
  rw [waiting] at counts
  dsimp only [ExecThread.unremoved] at counts
  refine ⟨?_, agreed.blocks, agreed.bound⟩
  show queue.queueItemSem - 1 + queue.putThread.ungiven + 1 = queue.list.length
  omega

theorem Queue.Agreed.removed {queue after : Queue} (agreed : queue.Agreed)
    (ran : execThreadRemove queue = .ok after) : after.Agreed := by
  have counts := agreed.counts
  have blocks := agreed.blocks
  have bound := agreed.bound
  obtain ⟨removing, item, rest, list, ⟨_, rfl⟩ | ⟨_, rfl⟩⟩ := execThreadRemove_cases ran
  · have gave := agreed.giveBack removing
    rw [removing, list, List.length_cons] at counts
    rw [list, List.length_cons] at blocks bound
    dsimp only [ExecThread.unremoved] at counts
    have same : (rest ++ [item]).length = rest.length + 1 := List.length_append
    refine ⟨?_, blocks.trans same.symm, le_of_eq_of_le same bound⟩
    show queue.giveItem.queueItemSem + queue.putThread.ungiven + 0 = (rest ++ [item]).length
    rw [gave, same]
    omega
  · rw [removing, list, List.length_cons] at counts
    rw [list, List.length_cons] at blocks bound
    dsimp only [ExecThread.unremoved] at counts
    refine ⟨?_, ?_, Nat.le_of_succ_le bound⟩
    · show queue.queueItemSem + queue.putThread.ungiven + 0 = rest.length
      omega
    · show queue.nodeSlab - 1 = rest.length
      omega

theorem put_sameNodes {item : QueueItem} {queue after : Queue} {code : ErrorCode}
    (put : dectPhyQueuePut item queue = .ok (code, after)) : Queue.SameNodes queue after := by
  rcases dectPhyQueuePut_cases put with ⟨_, _, rfl⟩ | ⟨_, _, rfl⟩ <;>
    exact ⟨rfl, rfl, rfl, rfl, rfl⟩

/-- Every move keeps the books of the list. -/
theorem QueueMove.agreed {before after : Queue} {event : Event config}
    (move : QueueMove before event after) (agreed : before.Agreed) : after.Agreed := by
  cases move with
  | put outside put => exact agreed.same (put_sameNodes put)
  | putGet ran =>
    obtain ⟨item, rest, waiting, _, rfl⟩ := putThreadGet_cases ran
    exact agreed.same ⟨rfl, rfl, rfl, by rw [waiting]; rfl, rfl⟩
  | putFree ran =>
    obtain ⟨item, fetched, rfl⟩ := putThreadFree_cases ran
    exact agreed.same ⟨rfl, rfl, rfl, by rw [fetched]; rfl, rfl⟩
  | putInsert ran => exact agreed.inserted ran
  | putGive ran => exact agreed.given ran
  | execTakePhy ran =>
    obtain ⟨waiting, _, rfl⟩ := execThreadTakePhy_cases ran
    exact agreed.same ⟨rfl, rfl, rfl, rfl, by rw [waiting]; rfl⟩
  | execTakeItem ran => exact agreed.taken ran
  | execRemove ran => exact agreed.removed ran
  | execDispatch executing =>
    exact agreed.same ⟨rfl, rfl, rfl, rfl, by rw [executing]; rfl⟩
  | elsewhere outside same =>
    exact agreed.same ⟨same.queueItemSem, same.nodeSlab, same.list, congrArg _ same.putThread,
      congrArg _ same.execThread⟩

theorem boot_agreed {start : System config} (booted : Booted start) : start.queue.Agreed := by
  obtain ⟨deviceId, allocations, _, rfl⟩ := booted
  exact ⟨rfl, rfl, Nat.zero_le _⟩

end DectHarq
