/-
This file shows where the two threads come to a standstill.

Left alone, the put thread and the executor take a bounded number of steps: a message is
inserted once, and the executor needs the token of the PHY layer for every item. They wait
for each other in four places: at the message queue, at two semaphores and at
`queue_mutex`. When neither can go on, no accepted operation is left that one of them could
have brought further: the executor waits for the modem, or for an item while there is none,
or the put thread has ended in an overload, or a handler of a transmission does not return.
-/

import DectHarq.Overload
import DectHarq.PhyToken
import DectHarq.SentHeaders

namespace DectHarq

variable {config : Config}

/-! ### The work of the threads -/

/-- The steps of the executor to the end of its loop. -/
def ExecThread.remaining : ExecThread → Nat
  | .waitPhy => 0
  | .waitItem => 3
  | .removing => 2
  | .executing _ => 1

/-- The steps that the threads can take before something else happens. -/
def Queue.work (queue : Queue) : Nat :=
  queue.remaining + 4 * queue.phyLayerSem + queue.execThread.remaining

/-- Every step of a thread is work done. -/
theorem QueueMove.work_lt {before after : Queue} {event : Event config}
    (move : QueueMove before event after) (threads : event.OfThreads) :
    after.work < before.work := by
  cases move with
  | put outside put => exact absurd threads outside
  | elsewhere outside same => exact absurd threads outside
  | putGet ran =>
    obtain ⟨item, rest, waiting, message, rfl⟩ := putThreadGet_cases ran
    simp only [Queue.work, Queue.remaining, waiting, message, List.length_cons]
    omega
  | putFree ran =>
    obtain ⟨item, fetched, rfl⟩ := putThreadFree_cases ran
    simp only [Queue.work, Queue.remaining, fetched]
    omega
  | putInsert ran =>
    obtain ⟨item, copied, _, ⟨_, rfl⟩ | ⟨_, rfl⟩ | ⟨_, _, rfl⟩⟩ := putThreadInsert_cases ran <;>
      simp only [Queue.work, Queue.remaining, copied] <;> omega
  | putGive ran =>
    obtain ⟨inserted, rfl⟩ := putThreadGive_cases ran
    simp only [Queue.work, Queue.remaining, Queue.giveItem, inserted]
    omega
  | execTakePhy ran =>
    obtain ⟨waiting, token, rfl⟩ := execThreadTakePhy_cases ran
    simp only [Queue.work, Queue.remaining, ExecThread.remaining, waiting]
    omega
  | execTakeItem ran =>
    obtain ⟨waiting, available, rfl⟩ := execThreadTakeItem_cases ran
    simp only [Queue.work, Queue.remaining, ExecThread.remaining, waiting]
    omega
  | execRemove ran =>
    obtain ⟨removing, item, rest, _, ⟨_, rfl⟩ | ⟨_, rfl⟩⟩ := execThreadRemove_cases ran <;>
      simp only [Queue.work, Queue.remaining, Queue.giveItem, ExecThread.remaining, removing] <;>
      omega
  | execDispatch executing =>
    simp only [Queue.work, Queue.remaining, Queue.dispatch, Queue.save, ExecThread.remaining,
      executing]
    omega

/-! ### The books of the threads -/

/-- The books are in order, there is one token at most, and a mutex that is left locked was left by
the put thread when it ended. -/
structure Queue.Tidy (queue : Queue) : Prop where
  counted : queue.ItemsCounted
  slab : queue.itemSlab ≤ queueMaxItems
  agreed : queue.Agreed
  token : queue.phyLayerSem ≤ 1
  left : queue.queueMutexLeft = true → queue.putThread = .returned

/-- No move takes a block that the item slab does not have. -/
theorem QueueMove.slab_le {before after : Queue} {event : Event config}
    (move : QueueMove before event after) (within : before.itemSlab ≤ queueMaxItems) :
    after.itemSlab ≤ queueMaxItems := by
  cases move with
  | put outside put =>
    rcases dectPhyQueuePut_cases put with ⟨_, _, rfl⟩ | ⟨_, room, rfl⟩
    · exact within
    · exact room
  | putGet ran =>
    obtain ⟨_, _, _, _, rfl⟩ := putThreadGet_cases ran
    exact within
  | putFree ran =>
    obtain ⟨_, _, rfl⟩ := putThreadFree_cases ran
    exact (Nat.sub_le _ 1).trans within
  | putInsert ran =>
    obtain ⟨_, _, _, ⟨_, rfl⟩ | ⟨_, rfl⟩ | ⟨_, _, rfl⟩⟩ := putThreadInsert_cases ran <;>
      exact within
  | putGive ran =>
    obtain ⟨_, rfl⟩ := putThreadGive_cases ran
    exact within
  | execTakePhy ran =>
    obtain ⟨_, _, rfl⟩ := execThreadTakePhy_cases ran
    exact within
  | execTakeItem ran =>
    obtain ⟨_, _, rfl⟩ := execThreadTakeItem_cases ran
    exact within
  | execRemove ran =>
    obtain ⟨_, _, _, _, ⟨_, rfl⟩ | ⟨_, rfl⟩⟩ := execThreadRemove_cases ran <;> exact within
  | execDispatch executing => exact within
  | elsewhere outside same =>
    rw [same.itemSlab]
    exact within

/-- A given token is one, however many there were. -/
theorem givePhy_le (queue : Queue) : queue.givePhy.phyLayerSem ≤ 1 := Nat.min_le_right _ _

/-- No action makes a second token. -/
theorem Action.token_le {system after : System config} {event : Event config}
    (action : Action system event after) (single : system.queue.phyLayerSem ≤ 1) :
    after.queue.phyLayerSem ≤ 1 := by
  cases action with
  | sent params address index code queue free took put => exact (sameToken_put put).count ▸ single
  | queuePut operation priority code queue put => exact (sameToken_put put).count ▸ single
  | retransmitted index nodes code queue pending below put =>
    exact (sameToken_put put).count ▸ single
  | request status header ret harq reply request nodes code queue _ _ _ _ put =>
    exact (sameToken_put put).count ▸ single
  | putGet queue ran => exact (sameToken_threads ran (by simp)).count ▸ single
  | putFree queue ran => exact (sameToken_threads ran (by simp)).count ▸ single
  | putInsert queue ran => exact (sameToken_threads ran (by simp)).count ▸ single
  | putGive queue ran => exact (sameToken_threads ran (by simp)).count ▸ single
  | execTakeItem queue ran => exact (sameToken_threads ran (by simp)).count ▸ single
  | execRemove queue ran => exact (sameToken_threads ran (by simp)).count ▸ single
  | execTakePhy queue ran =>
    obtain ⟨_, _, rfl⟩ := execThreadTakePhy_cases ran
    exact (Nat.sub_le _ 1).trans single
  | execDispatch _ item ret executing execution =>
    rw [execution.keeps.2]
    exact single
  | retryTimer _ ret armed execution =>
    rw [execution.keeps.2]
    exact single
  | completeRetry position op handle found completes =>
    show (dectMacPhyHandlerQueueOperationFailedRetry system.queue).phyLayerSem ≤ 1
    obtain ⟨counter, ⟨_, same⟩ | ⟨_, same⟩⟩ := operationFailedRetry_cases system.queue
    · rw [same]
      exact givePhy_le _
    · rw [same]
      exact single
  | completeQueued => exact givePhy_le _
  | rssiReport => exact givePhy_le _
  | managementGive => exact givePhy_le _
  | _ => exact single

/-- The mutex is left by the end of the put thread only. -/
theorem Action.left {system after : System config} {event : Event config}
    (action : Action system event after) (agreed : system.queue.Agreed)
    (left : system.queue.queueMutexLeft = true → system.queue.putThread = .returned)
    (locked : after.queue.queueMutexLeft = true) : after.queue.putThread = .returned := by
  by_cases isInsert : event = .putInsert
  · subst isInsert
    obtain ⟨item, _, unlocked, ⟨_, same⟩ | ⟨_, same⟩⟩ :=
      agreed.insert_cases (putInsert_action action)
    · rw [same]
    · rw [same, unlocked] at locked
      cases locked
  · have same := action.queueMove.sameEnd isInsert
    rw [same.unlocked] at locked
    by_contra loops
    exact same.loops.mpr loops (left locked)

theorem boot_tidy {start : System config} (booted : Booted start) : start.queue.Tidy := by
  obtain ⟨_, _, _, rfl⟩ := booted
  exact ⟨rfl, Nat.zero_le _, ⟨rfl, rfl, Nat.zero_le _⟩, le_rfl, nofun⟩

theorem Action.tidy {system after : System config} {event : Event config}
    (action : Action system event after) (tidy : system.queue.Tidy) : after.queue.Tidy where
  counted := action.queueMove.itemsCounted tidy.counted
  slab := action.queueMove.slab_le tidy.slab
  agreed := action.queueMove.agreed tidy.agreed
  token := action.token_le tidy.token
  left := action.left tidy.agreed tidy.left

/-- The threads never have more than this before them. -/
theorem Queue.Tidy.work_le {queue : Queue} (tidy : queue.Tidy) : queue.work ≤ 41 := by
  have counted := tidy.counted
  have slab := tidy.slab
  have token := tidy.token
  unfold Queue.ItemsCounted at counted
  unfold queueMaxItems at slab
  have execThread : queue.execThread.remaining ≤ 3 := by
    cases queue.execThread <;> simp [ExecThread.remaining]
  have putThread : queue.remaining ≤ 34 := by
    unfold Queue.remaining
    cases held : queue.putThread <;> simp only [held, PutThread.blocks] at counted ⊢ <;> omega
  unfold Queue.work
  omega

/-! ### Standstill -/

/-- Where the put thread stands still: it waits for a message and there is none, or it has ended. -/
inductive PutStands (queue : Queue) : Prop
  | noMessage (waiting : queue.putThread = .waiting) (empty : queue.msgq = [])
  | ended (returned : queue.putThread = .returned)

/-- Where the executor stands still: the modem has the token, there is no item, the put thread has
ended with the mutex locked, or the handler of a transmission does not return. -/
inductive ExecStands (queue : Queue) : Prop
  | noToken (waiting : queue.execThread = .waitPhy) (taken : queue.phyLayerSem = 0)
  | noItem (waiting : queue.execThread = .waitItem) (empty : queue.list = [])
  | locked (removing : queue.execThread = .removing) (ended : queue.putThread = .returned)
  | inHandler (item : QueueItem) (input : TxParams)
      (executing : queue.execThread = .executing item)
      (transmits : item.operation.toTx = some input)

/-- A thread can take a step. -/
def System.Moves (system : System config) : Prop :=
  ∃ event after, Event.OfThreads event ∧ step system event = .ok after

/-- The put thread goes on unless it waits for a message or has ended. -/
theorem putStands_or_moves {system : System config} (tidy : system.queue.Tidy) :
    PutStands system.queue ∨ system.Moves := by
  cases putThread : system.queue.putThread with
  | waiting =>
    cases messages : system.queue.msgq with
    | nil => exact Or.inl (.noMessage putThread messages)
    | cons item later =>
      have got : putThreadGet system.queue =
          .ok { system.queue with putThread := .fetched item, msgq := later } := by
        unfold putThreadGet
        rw [putThread, messages]
      exact Or.inr ⟨.putGet, _, trivial, bind_ok.mpr ⟨_, got, rfl⟩⟩
  | fetched item =>
    have freed : putThreadFree system.queue = .ok { system.queue with
        putThread := .copied item, itemSlab := system.queue.itemSlab - 1 } := by
      unfold putThreadFree
      rw [putThread]
    exact Or.inr ⟨.putFree, _, trivial, bind_ok.mpr ⟨_, freed, rfl⟩⟩
  | copied item =>
    have unlocked : system.queue.queueMutexLeft = false := by
      by_contra left
      cases putThread.symm.trans (tidy.left (by simpa using left))
    have inserts : ∃ queue, putThreadInsert system.queue = .ok queue := by
      unfold putThreadInsert
      rw [putThread, unlocked]
      simp only [Bool.false_eq_true, if_false]
      split
      · exact ⟨_, rfl⟩
      · split <;> exact ⟨_, rfl⟩
    obtain ⟨queue, inserted⟩ := inserts
    exact Or.inr ⟨.putInsert, _, trivial, bind_ok.mpr ⟨queue, inserted, rfl⟩⟩
  | inserted =>
    have gave : putThreadGive system.queue =
        .ok { system.queue.giveItem with putThread := .waiting } := by
      unfold putThreadGive
      rw [putThread]
    exact Or.inr ⟨.putGive, _, trivial, bind_ok.mpr ⟨_, gave, rfl⟩⟩
  | returned => exact Or.inl (.ended putThread)

/-- The handler of an operation that transmits nothing returns. -/
theorem executeSwitch_returns {operation : Operation} (silent : operation.toTx = none)
    (provenance : Provenance) (ret : Int) (phy : Phy) :
    ∃ result, executeSwitch config operation provenance ret phy = .ok result := by
  cases operation with
  | tx params => cases silent
  | txHarq params => cases silent
  | txRx params => cases silent
  | _ => exact ⟨_, rfl⟩

/-- When the put thread stands still, the executor goes on unless it stands still, too. -/
theorem execStands_or_moves {system : System config} (tidy : system.queue.Tidy)
    (stands : PutStands system.queue) : ExecStands system.queue ∨ system.Moves := by
  have given : system.queue.putThread.ungiven = 0 := by
    cases stands with
    | noMessage waiting empty =>
      rw [waiting]
      rfl
    | ended returned =>
      rw [returned]
      rfl
  cases execThread : system.queue.execThread with
  | waitPhy =>
    by_cases token : system.queue.phyLayerSem = 0
    · exact Or.inl (.noToken execThread token)
    · have took : execThreadTakePhy system.queue = .ok { system.queue with
          execThread := .waitItem, phyLayerSem := system.queue.phyLayerSem - 1 } := by
        unfold execThreadTakePhy
        rw [execThread]
        exact if_neg token
      exact Or.inr ⟨.execTakePhy, _, trivial, bind_ok.mpr ⟨_, took, rfl⟩⟩
  | waitItem =>
    by_cases counts : system.queue.queueItemSem = 0
    · have agreed := tidy.agreed.counts
      rw [counts, given, execThread] at agreed
      exact Or.inl (.noItem execThread (List.length_eq_zero_iff.mp agreed.symm))
    · have took : execThreadTakeItem system.queue = .ok { system.queue with
          execThread := .removing, queueItemSem := system.queue.queueItemSem - 1 } := by
        unfold execThreadTakeItem
        rw [execThread]
        exact if_neg counts
      exact Or.inr ⟨.execTakeItem, _, trivial, bind_ok.mpr ⟨_, took, rfl⟩⟩
  | removing =>
    by_cases left : system.queue.queueMutexLeft = true
    · exact Or.inl (.locked execThread (tidy.left left))
    · obtain ⟨item, rest, list⟩ := List.exists_cons_of_ne_nil (tidy.agreed.nonempty execThread)
      have removes : ∃ queue, execThreadRemove system.queue = .ok queue := by
        unfold execThreadRemove
        rw [execThread, list]
        simp only [if_neg left]
        split <;> exact ⟨_, rfl⟩
      obtain ⟨queue, removed⟩ := removes
      exact Or.inr ⟨.execRemove, _, trivial, bind_ok.mpr ⟨queue, removed, rfl⟩⟩
  | executing item =>
    cases transmits : item.operation.toTx with
    | some input => exact Or.inl (.inHandler item input execThread transmits)
    | none =>
      obtain ⟨result, executed⟩ : ∃ result, executeSwitch config item.operation item.provenance 0
          system.phy = .ok result := executeSwitch_returns transmits item.provenance 0 system.phy
      refine Or.inr ⟨.execDispatch 0, ?_⟩
      dsimp only [step]
      rw [execThread]
      unfold execDispatchStep dectMacPhyHandlerQueueFunctionExecute
      dsimp only
      rw [executed]
      exact ⟨_, trivial, rfl⟩

/-- In every run from boot, with any interleaving of callers, callbacks, timers and threads: what
the two threads then do on their own has at most 41 steps; and when neither can take a step, the put
thread waits for a message and there is none, or has ended, and the executor waits for the token,
or for an item while the list is empty, or for the mutex of a put thread that has ended, or is in a
handler of a transmission. -/
theorem threads_stand {start final : System config}
    {steps : List (Transition.Step (System config) (Event config))} (booted : Booted start)
    (run : Run start steps final) :
    (∀ more last, Run final more last → (∀ taken ∈ more, taken.label.OfThreads) →
      more.length ≤ 41) ∧
    (¬ final.Moves → PutStands final.queue ∧ ExecStands final.queue) := by
  obtain ⟨sound, tidy⟩ := run_invariant booted run (fun system => system.queue.Tidy)
    (fun _ _ => True) (boot_tidy booted) (fun _ _ _ _ _ tidy action => action.tidy tidy)
    fun _ _ => trivial
  refine ⟨fun more last onward threads => ?_, fun still => ?_⟩
  · have actions := actions_of_run booted (run.append onward)
    have bounded := onward.length_le (fun system => system.queue.work) fun taken member =>
      (actions taken (List.mem_append_right _ member)).2.queueMove.work_lt (threads taken member)
    exact (Nat.le_of_add_right_le bounded).trans tidy.work_le
  · have put := (putStands_or_moves tidy).resolve_right still
    exact ⟨put, (execStands_or_moves tidy put).resolve_right still⟩

/-- Why the program stands still: all is done, the modem or the retry timer has the token, the put
thread ended in an overload, or the handler of a transmission does not return. -/
inductive Standstill (system : System config) : Prop
  | done (put : system.queue.putThread = .waiting) (exec : system.queue.execThread = .waitItem)
      (noMessage : system.queue.msgq = []) (noItem : system.queue.list = [])
  | outstanding (outstanding : system.Outstanding)
  | overload (ended : system.queue.putThread = .returned)
  | handler (item : QueueItem) (input : TxParams)
      (executing : system.queue.execThread = .executing item)
      (transmits : item.operation.toTx = some input)

/-- In every run from boot in which who has the token passes it on, the program never hangs by
itself: when neither thread can take a step, there is nothing left to do, or an operation is
outstanding, or the put thread ended in an overload, or a handler does not return. -/
theorem no_deadlock {start final : System config}
    {steps : List (Transition.Step (System config) (Event config))} (booted : Booted start)
    (run : Run start steps final)
    (passes : ∀ taken ∈ steps, PassesOn taken.before taken.label) (still : ¬ final.Moves) :
    Standstill final := by
  obtain ⟨_, tidy, notLost⟩ := run_invariant booted run
    (fun system => system.queue.Tidy ∧ system.NotLost) PassesOn
    ⟨boot_tidy booted, boot_notLost booted⟩
    (fun _ _ _ _ passes kept action =>
      ⟨action.tidy kept.1, (action.notLost_iff kept.2).mpr passes⟩) passes
  have put := (putStands_or_moves tidy).resolve_right still
  cases (execStands_or_moves tidy put).resolve_right still with
  | noToken waiting taken =>
    -- Nobody of the program has the token, so it is with an operation that is outstanding.
    refine .outstanding (by_contra fun none => ?_)
    rcases notLost none with available | held
    · rw [taken] at available
      cases available
    · rw [waiting] at held
      cases held
  | noItem waiting empty =>
    cases put with
    | noMessage waits noMessage => exact .done waits waiting noMessage empty
    | ended returned => exact .overload returned
  | locked removing returned => exact .overload returned
  | inHandler item input executing transmits => exact .handler item input executing transmits

/-- Threads that wait for a message and for the token stand still. -/
theorem not_moves_of_waiting {system : System config} (sound : system.harq.Sound)
    (putThread : system.queue.putThread = .waiting) (messages : system.queue.msgq = [])
    (execThread : system.queue.execThread = .waitPhy) (token : system.queue.phyLayerSem = 0) :
    ¬ system.Moves := by
  rintro ⟨event, after, threads, stepped⟩
  have move := (action_of_step sound stepped).queueMove
  generalize after.queue = next at move
  cases move with
  | put outside put => exact outside threads
  | elsewhere outside same => exact outside threads
  | putGet ran =>
    obtain ⟨item, rest, _, message, _⟩ := putThreadGet_cases ran
    cases messages.symm.trans message
  | putFree ran =>
    obtain ⟨item, fetched, _⟩ := putThreadFree_cases ran
    cases putThread.symm.trans fetched
  | putInsert ran =>
    obtain ⟨item, copied, _⟩ := putThreadInsert_cases ran
    cases putThread.symm.trans copied
  | putGive ran => cases putThread.symm.trans (putThreadGive_cases ran).1
  | execTakePhy ran => exact (execThreadTakePhy_cases ran).2.1 token
  | execTakeItem ran => cases execThread.symm.trans (execThreadTakeItem_cases ran).1
  | execRemove ran => cases execThread.symm.trans (execThreadRemove_cases ran).1
  | execDispatch executing => cases execThread.symm.trans executing

/-- Device 5 when a packet was handed to the modem. -/
def standingDevice : System projectConfig :=
  (packetToModem smallPacket).foldl (Transition.follow step) device

theorem standingDevice_run :
    Run device (Transition.followAll step device (packetToModem smallPacket)) standingDevice :=
  Transition.followAll_run step device (packetToModem smallPacket) (by decide +kernel)

theorem standingDevice_still : ¬ standingDevice.Moves := by
  have sound := (run_invariant device_booted standingDevice_run (fun _ => True) (fun _ _ => True)
    trivial (fun _ _ _ _ _ _ _ => trivial) fun _ _ => trivial).1
  exact not_moves_of_waiting sound (by decide +kernel) (by decide +kernel) (by decide +kernel)
    (by decide +kernel)

/-- When a packet was handed to the modem, the threads stand still for want of a message and of the
token. -/
theorem threads_stand_packet :
    PutStands standingDevice.queue ∧ ExecStands standingDevice.queue :=
  (threads_stand device_booted standingDevice_run).2 standingDevice_still

/-- A packet that was handed to the modem is what the program waits for. -/
theorem no_deadlock_packet : standingDevice.Outstanding := by
  have putThread : standingDevice.queue.putThread = .waiting := by decide +kernel
  have execThread : standingDevice.queue.execThread = .waitPhy := by decide +kernel
  cases no_deadlock device_booted standingDevice_run (by decide +kernel) standingDevice_still with
  | done put exec noMessage noItem => cases execThread.symm.trans exec
  | outstanding outstanding => exact outstanding
  | overload ended => cases putThread.symm.trans ended
  | handler item input executing transmits => cases execThread.symm.trans executing

end DectHarq
