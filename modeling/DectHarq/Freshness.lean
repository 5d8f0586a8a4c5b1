/-
This file settles when no stale operation of HARQ is handed to the modem.

An operation is stale when its process no longer carries the packet it was queued for.
A give-back does not look for operations of the process that still wait, the work of a
free process queues an operation, and a failed start arms the timer for whatever
operation was saved last. As long as no step does one of these, every waiting
operation is fresh, and so is every one that is handed over.
-/

import DectHarq.Pipeline

namespace DectHarq

variable {config : Config}

/-- The process that HARQ queued an operation for. -/
def Provenance.process : Provenance → Option Nat
  | .packet process _ => some process
  | _ => none

/-- An operation that HARQ queued for a packet is fresh when its process is occupied by that
packet. -/
def Harq.Fresh (harq : Harq config) : Provenance → Prop
  | .packet process packet => ∃ index : Fin config.harqProcessCount, (index : Nat) = process ∧
      harq.occupied index = true ∧ (harq.processes index).packet = packet
  | _ => True

instance (harq : Harq config) : DecidablePred harq.Fresh := fun provenance =>
  match provenance with
  | .packet _ _ => inferInstanceAs (Decidable (∃ _, _))
  | .user => inferInstanceAs (Decidable True)
  | .reply _ => inferInstanceAs (Decidable True)

/-- Who queued the operations that wait: the queued items, and the saved operation while the
timer is armed for it. -/
def Queue.waiting (queue : Queue) : List Provenance :=
  queue.items.map (fun item => item.provenance) ++
    if queue.timerArmed then [queue.currentProvenance] else []

/-- Who queued the operation that an event hands to a handler function. -/
def handedOver (system : System config) : Event config → Option Provenance
  | .execDispatch _ =>
    match system.queue.execThread with
    | .executing item => some item.provenance
    | _ => none
  | .retryTimer _ =>
    if system.queue.timerArmed then some system.queue.currentProvenance else none
  | _ => none

/-- The process a move gives back. -/
def HarqMove.givesBack : HarqMove config → Option (Fin config.harqProcessCount)
  | .acked index => some index
  | .expired index => some index
  | _ => none

/-- The process a move queues a retransmission of. -/
def HarqMove.retransmits : HarqMove config → Option (Fin config.harqProcessCount)
  | .retransmitted index => some index
  | _ => none

/-- The put thread inserts its item. -/
def Event.inserts : Event config → Bool
  | .putInsert => true
  | _ => false

/-- The executor executes its item. -/
def Event.dispatches : Event config → Bool
  | .execDispatch _ => true
  | _ => false

/-- An operation fails with an invalid start time. -/
def Event.failsStart : Event config → Bool
  | .opComplete _ .invalidStartTime => true
  | _ => false

/-- No give-back comes before an operation of the process is handed over, no work queues an
operation of a free process, and no failed start revives an operation that went stale. -/
structure Timely (system : System config) (event : Event config) : Prop where
  givesBack : ∀ index ∈ (harqMove system event).givesBack,
    ∀ provenance ∈ system.queue.waiting, provenance.process ≠ some (index : Nat)
  retransmits : ∀ index ∈ (harqMove system event).retransmits,
    system.queue.itemSlab < queueMaxItems → system.harq.occupied index = true
  revives : event.failsStart = true → system.queue.RetriesLeft →
    system.harq.Fresh system.queue.currentProvenance

instance (system : System config) (event : Event config) : Decidable (Timely system event) :=
  decidable_of_iff (_ ∧ _ ∧ _)
    ⟨fun ⟨givesBack, retransmits, revives⟩ => ⟨givesBack, retransmits, revives⟩,
      fun ⟨givesBack, retransmits, revives⟩ => ⟨givesBack, retransmits, revives⟩⟩

theorem Provenance.eq_packet {provenance : Provenance} {process : Nat}
    (own : provenance.process = some process) : ∃ packet, provenance = .packet process packet := by
  cases provenance with
  | packet process packet =>
    obtain rfl := Option.some.inj own
    exact ⟨packet, rfl⟩
  | _ => cases own

/-! ### The process table -/

/-- Every move that does not give the process back keeps a fresh operation fresh. -/
theorem HarqStep.fresh {before after : Harq config} {move : HarqMove config}
    (taken : HarqStep before move after) (sound : before.Sound) {provenance : Provenance}
    (fresh : before.Fresh provenance)
    (kept : ∀ index ∈ move.givesBack, provenance.process ≠ some (index : Nat)) :
    after.Fresh provenance := by
  cases provenance with
  | user => trivial
  | reply => trivial
  | packet process packet =>
    obtain ⟨index, rfl, occupied, same⟩ := fresh
    have initialized := sound.initialized_of_occupied occupied
    have ready (capabilities : Capabilities) : dectMacHarqInitialize capabilities before = before :=
      initialize_of_initialized initialized
    -- A process that a transmit finds free is another one.
    have other {capabilities : Capabilities} {taken : Fin config.harqProcessCount}
        (free : (dectMacHarqInitialize capabilities before).occupied taken = false) :
        index ≠ taken := by
      rintro rfl
      rw [ready, occupied] at free
      cases free
    have elsewhere {taken : Fin config.harqProcessCount}
        (given : taken ∈ move.givesBack) : index ≠ taken := fun equal =>
      kept taken given (congrArg (fun index : Fin _ => some (index : Nat)) equal)
    refine ⟨index, rfl, ?_⟩
    cases taken with
    | idle => exact ⟨occupied, same⟩
    | refused capabilities busy =>
      rw [ready]
      exact ⟨occupied, same⟩
    | dropped capabilities taken free =>
      have distinct := other free
      rw [ready, givenHarq_occupied_of_ne _ _ distinct, takenHarq_occupied_of_ne _ distinct,
        givenHarq_processes_of_ne _ _ distinct, takenHarq_processes_of_ne _ distinct]
      exact ⟨occupied, same⟩
    | sent capabilities taken params address free =>
      have distinct := other free
      rw [ready, modify_occupied, takenHarq_occupied_of_ne _ distinct,
        modify_processes_of_ne _ _ distinct, takenHarq_processes_of_ne _ distinct]
      exact ⟨occupied, same⟩
    | acked capabilities taken =>
      have distinct := elsewhere rfl
      rw [ready, givenHarq_occupied_of_ne _ _ distinct, givenHarq_processes_of_ne _ _ distinct]
      exact ⟨occupied, same⟩
    | expired capabilities taken =>
      have distinct := elsewhere rfl
      rw [ready, givenHarq_occupied_of_ne _ _ distinct, givenHarq_processes_of_ne _ _ distinct]
      exact ⟨occupied, same⟩
    | nacked named =>
      rw [scheduleWork_occupied, scheduleWork_reading (fun process => process.packet) fun _ => rfl,
        modify_reading (fun process => process.packet) _ _ _ _ rfl]
      exact ⟨occupied, same⟩
    | formatSix named =>
      rw [scheduleWork_occupied, scheduleWork_reading (fun process => process.packet) fun _ => rfl,
        modify_reading (fun process => process.packet) _ _ _ _ rfl]
      exact ⟨occupied, same⟩
    | completed named =>
      rw [scheduleWork_occupied, scheduleWork_reading (fun process => process.packet) fun _ => rfl]
      exact ⟨occupied, same⟩
    | retransmitted named =>
      rw [modify_reading (fun process => process.packet) _ _ _ _ rfl]
      exact ⟨occupied, same⟩
    | requested capabilities processed header handled =>
      obtain ⟨named, size, _, rfl⟩ := requestProcess_cases handled
      show before.occupied index = true ∧ ((before.modify named _).processes index).packet = packet
      rw [modify_reading (fun process => process.packet) _ _ _ _ rfl]
      exact ⟨occupied, same⟩

/-- What a move queues is fresh, unless it retransmits a free process. -/
theorem HarqStep.attempt_fresh {before after : Harq config} {move : HarqMove config}
    (taken : HarqStep before move after)
    (occupied : ∀ index ∈ move.retransmits, before.occupied index = true)
    {item : QueueItem} (attempted : move.attempt after = some item) :
    after.Fresh item.provenance := by
  obtain ⟨index, startTime, priority, rfl, ⟨params, address, rfl⟩ | rfl⟩ :=
    attempt_harqItem attempted
  · cases taken with
    | sent capabilities index params address free =>
      exact ⟨index, rfl, takenHarq_occupied_self _ _, rfl⟩
  · cases taken with
    | retransmitted index pending below => exact ⟨index, rfl, occupied index rfl, rfl⟩

/-- A process that a move gives back is free. -/
theorem HarqStep.givesBack_free {before after : Harq config} {move : HarqMove config}
    (taken : HarqStep before move after) {index : Fin config.harqProcessCount}
    (given : index ∈ move.givesBack) : after.occupied index = false := by
  cases taken with
  | acked capabilities named =>
    obtain rfl := Option.some.inj given
    exact givenHarq_occupied_self _ _ _
  | expired capabilities named =>
    obtain rfl := Option.some.inj given
    exact givenHarq_occupied_self _ _ _
  | _ => cases given

theorem HarqMove.eq_retransmitted {move : HarqMove config}
    {index : Fin config.harqProcessCount} (retransmits : index ∈ move.retransmits) :
    move = .retransmitted index := by
  cases move with
  | retransmitted named => rw [Option.some.inj retransmits]
  | _ => cases retransmits

/-- The events that give a process back touch neither the list nor the executor. -/
theorem events_of_givesBack {system : System config} {event : Event config}
    {index : Fin config.harqProcessCount} (given : index ∈ (harqMove system event).givesBack) :
    event.inserts = false ∧ event.dispatches = false ∧ handedOver system event = none := by
  cases event with
  | putInsert => cases given
  | execDispatch ret => cases given
  | retryTimer ret => cases given
  | _ => exact ⟨rfl, rfl, rfl⟩

/-- A failed start gives no process back. -/
theorem givesBack_failedStart (system : System config) (position : Nat) :
    (harqMove system (.opComplete position .invalidStartTime)).givesBack = none := by
  have failed : ¬ PhyErr.invalidStartTime = .success := by decide
  dsimp only [harqMove]
  split
  · rw [if_neg failed]
    rfl
  · rfl

/-! ### The waiting operations -/

theorem Queue.mem_waiting {queue : Queue} {provenance : Provenance} :
    provenance ∈ queue.waiting ↔ (∃ item ∈ queue.items, item.provenance = provenance) ∨
      (queue.timerArmed = true ∧ provenance = queue.currentProvenance) := by
  unfold Queue.waiting
  rw [List.mem_append, List.mem_map]
  cases queue.timerArmed <;> simp

/-- What an event hands over was waiting. -/
theorem handedOver_waiting {system : System config} {event : Event config}
    {provenance : Provenance} (handed : handedOver system event = some provenance) :
    provenance ∈ system.queue.waiting := by
  rw [Queue.mem_waiting]
  unfold handedOver at handed
  split at handed
  · split at handed
    · rename_i item executing
      exact Or.inl ⟨item, Queue.executing_mem executing, Option.some.inj handed⟩
    · cases handed
  · split at handed
    · rename_i armed
      exact Or.inr ⟨armed, (Option.some.inj handed).symm⟩
    · cases handed
  · cases handed

/-- A queued item stays queued, unless the put thread cannot insert it or the executor executes
it. -/
theorem Action.items_keep {system after : System config} {event : Event config}
    (action : Action system event after) {item : QueueItem}
    (member : item ∈ system.queue.items) :
    item ∈ after.queue.items ∨
      (event.inserts = true ∧ item ∈ system.queue.putThread.items ∧
        (queueMaxItems ≤ system.queue.nodeSlab ∨ queueMaxItems ≤ system.queue.list.length)) ∨
      handedOver system event = some item.provenance := by
  cases action with
  | sent params address index code queue free took put =>
    exact Or.inl (items_put_keep put (Or.inl member))
  | retransmitted index nodes code queue pending below put =>
    exact Or.inl (items_put_keep put (Or.inl member))
  | queuePut operation priority code queue put =>
    exact Or.inl (items_put_keep put (Or.inl member))
  | request status header ret harq reply request nodes code queue _ _ _ _ put =>
    exact Or.inl (items_put_keep put (Or.inl member))
  | putGet queue ran => exact Or.inl (items_threads_keep ran (by simp) member)
  | putFree queue ran => exact Or.inl (items_threads_keep ran (by simp) member)
  | putInsert queue ran =>
    rcases items_insert_keep ran member with kept | lost
    · exact Or.inl kept
    · exact Or.inr (Or.inl ⟨rfl, lost⟩)
  | putGive queue ran => exact Or.inl (items_threads_keep ran (by simp) member)
  | execTakePhy queue ran => exact Or.inl (items_threads_keep ran (by simp) member)
  | execTakeItem queue ran => exact Or.inl (items_threads_keep ran (by simp) member)
  | execRemove queue ran => exact Or.inl (items_threads_keep ran (by simp) member)
  | execDispatch _ executed ret executing execution =>
    rw [execution.keeps.2]
    rcases items_dispatch_keep executing member with kept | rfl
    · exact Or.inl kept
    · refine Or.inr (Or.inr ?_)
      simp only [handedOver, executing]
  | retryTimer _ ret armed execution =>
    rw [execution.keeps.2]
    exact Or.inl member
  | completeRetry position op handle found completes =>
    exact Or.inl (items_failedRetry system.queue ▸ member)
  | _ => exact Or.inl member

/-- A waiting operation goes on waiting, unless it cannot be inserted, it is handed over, or a
dispatch overwrites the saved operation that the timer is armed for. -/
theorem Action.waiting_keep {system after : System config} {event : Event config}
    (action : Action system event after) {provenance : Provenance}
    (waits : provenance ∈ system.queue.waiting) :
    provenance ∈ after.queue.waiting ∨
      (event.inserts = true ∧
        (∃ item ∈ system.queue.putThread.items, item.provenance = provenance) ∧
        (queueMaxItems ≤ system.queue.nodeSlab ∨ queueMaxItems ≤ system.queue.list.length)) ∨
      handedOver system event = some provenance ∨
      (event.dispatches = true ∧ system.queue.timerArmed = true ∧
        provenance = system.queue.currentProvenance) := by
  rw [Queue.mem_waiting] at waits ⊢
  rcases waits with ⟨item, queued, rfl⟩ | ⟨armed, rfl⟩
  · rcases action.items_keep queued with kept | ⟨inserts, holds, full⟩ | handed
    · exact Or.inl (Or.inl ⟨item, kept, rfl⟩)
    · exact Or.inr (Or.inl ⟨inserts, ⟨item, holds, rfl⟩, full⟩)
    · exact Or.inr (Or.inr (Or.inl handed))
  · rcases action.saved with same | ⟨item, ret, _, rfl, _⟩ | ⟨ret, _, rfl, _⟩ |
      ⟨position, _, failed⟩
    · exact Or.inl (Or.inr ⟨same.timer.trans armed, same.provenance.symm⟩)
    · exact Or.inr (Or.inr (Or.inr ⟨rfl, armed, rfl⟩))
    · exact Or.inr (Or.inr (Or.inl (if_pos armed)))
    · refine Or.inl (Or.inr ?_)
      rw [failed]
      obtain ⟨counter, ⟨_, same⟩ | ⟨_, same⟩⟩ := operationFailedRetry_cases system.queue
      · rw [same]
        exact ⟨armed, rfl⟩
      · rw [same]
        exact ⟨rfl, rfl⟩

/-- A put that finds a block queues what its move attempts. -/
theorem Action.attempt_queued {system after : System config} {event : Event config}
    (sound : system.harq.Sound) (action : Action system event after)
    (room : system.queue.itemSlab < queueMaxItems) {item : QueueItem}
    (attempted : (harqMove system event).attempt after.harq = some item) :
    item ∈ after.queue.items := by
  have calls := (action.move sound).2
  rw [attempted] at calls
  rcases action.put_or_quiet with ⟨own, code, put⟩ | quiet
  · rw [packetCalls_put put, List.append_cancel_left_eq] at calls
    have member : item ∈ [own].filter fun item => item.provenance.ofPacket :=
      calls ▸ List.mem_singleton_self item
    obtain rfl := List.mem_singleton.mp (List.mem_filter.mp member).1
    exact items_put_keep put (Or.inr ⟨rfl, room⟩)
  · rw [packetCalls, packetCalls, quiet, List.self_eq_append_right] at calls
    cases calls

/-! ### Runs -/

/-- Every waiting operation is fresh. -/
def System.Fresh (system : System config) : Prop :=
  ∀ provenance ∈ system.queue.waiting, system.harq.Fresh provenance

/-- A timely action keeps the waiting operations fresh. -/
theorem Action.fresh {system after : System config} {event : Event config}
    (sound : system.harq.Sound) (timely : Timely system event) (fresh : system.Fresh)
    (action : Action system event after) : after.Fresh := by
  have moved := (action.move sound).1
  have stays {provenance : Provenance} (waited : provenance ∈ system.queue.waiting) :
      after.harq.Fresh provenance :=
    moved.fresh sound (fresh provenance waited) fun index given =>
      timely.givesBack index given provenance waited
  intro provenance waits
  rcases Queue.mem_waiting.mp waits with ⟨item, queued, rfl⟩ | ⟨armed, rfl⟩
  · rcases action.items_from sound queued with before | user | ⟨_, number, reply⟩ |
      ⟨attempted, room⟩
    · exact stays (Queue.mem_waiting.mpr (Or.inl ⟨item, before, rfl⟩))
    · rw [user]
      trivial
    · rw [reply]
      trivial
    · exact moved.attempt_fresh (fun index retransmits =>
        timely.retransmits index retransmits room) attempted
  · rcases action.saved with same | ⟨item, ret, executing, _, dispatched⟩ | ⟨ret, _, _, retried⟩ |
      ⟨position, label, failed⟩
    · rw [same.timer] at armed
      rw [same.provenance]
      exact stays (Queue.mem_waiting.mpr (Or.inr ⟨armed, rfl⟩))
    · rw [dispatched]
      exact stays (Queue.mem_waiting.mpr (Or.inl ⟨item, Queue.executing_mem executing, rfl⟩))
    · rw [retried] at armed
      cases armed
    · by_cases left : system.queue.RetriesLeft
      · rw [failed, failedRetry_arms left]
        have idle : (harqMove system event).givesBack = none := by
          rw [label]
          exact givesBack_failedStart system position
        refine moved.fresh sound (timely.revives (by rw [label]; rfl) left) fun index given => ?_
        rw [idle] at given
        cases given
      · rw [failed, failedRetry_gives left] at armed ⊢
        exact stays (Queue.mem_waiting.mpr (Or.inr ⟨armed, rfl⟩))

/-- An action that leaves the waiting operations fresh was timely. -/
theorem Action.timely {system after : System config} {event : Event config}
    (sound : system.harq.Sound) (action : Action system event after) (fresh : after.Fresh) :
    Timely system event where
  givesBack := fun index given provenance waits own => by
    -- A give-back leaves the queue alone, so the operation still waits.
    obtain ⟨inserts, dispatches, hands⟩ := events_of_givesBack given
    have still : provenance ∈ after.queue.waiting := by
      rcases action.waiting_keep waits with still | ⟨insert, _⟩ | handed | ⟨dispatch, _⟩
      · exact still
      · rw [inserts] at insert
        cases insert
      · rw [hands] at handed
        cases handed
      · rw [dispatches] at dispatch
        cases dispatch
    obtain ⟨packet, rfl⟩ := Provenance.eq_packet own
    obtain ⟨other, same, occupied, _⟩ := fresh _ still
    rw [Fin.ext same, (action.move sound).1.givesBack_free given] at occupied
    cases occupied
  retransmits := fun index retransmits room => by
    have moved := (action.move sound).1
    obtain ⟨item, attempted, own⟩ :
        ∃ item, (harqMove system event).attempt after.harq = some item ∧
          item.provenance.process = some (index : Nat) := by
      rw [HarqMove.eq_retransmitted retransmits]
      exact ⟨_, rfl, rfl⟩
    have queued := action.attempt_queued sound room attempted
    have current := fresh _ (Queue.mem_waiting.mpr (Or.inl ⟨item, queued, rfl⟩))
    obtain ⟨packet, equal⟩ := Provenance.eq_packet own
    rw [equal] at current
    obtain ⟨other, same, occupied, _⟩ := current
    rw [HarqMove.eq_retransmitted retransmits] at moved
    rw [Fin.ext same] at occupied
    generalize after.harq = harq at moved occupied
    cases moved with
    | retransmitted index pending below => exact occupied
  revives := fun fails left => by
    cases action with
    | completeError position err op handle found completes failed noRetry =>
      cases err with
      | invalidStartTime => exact absurd rfl noRetry
      | _ => cases fails
    | completeRetry position op handle found completes =>
      refine fresh _ (Queue.mem_waiting.mpr (Or.inr ?_))
      rw [failedRetry_arms left]
      exact ⟨rfl, rfl⟩
    | _ => cases fails

theorem boot_fresh {start : System config} (booted : Booted start) : start.Fresh := by
  obtain ⟨deviceId, allocations, _, rfl⟩ := booted
  exact fun _ waits => absurd waits List.not_mem_nil

/-- In every state of a run from boot the waiting operations are fresh, exactly when every step
of the run is timely. -/
theorem waiting_fresh_iff {start final : System config}
    {steps : List (Transition.Step (System config) (Event config))} (booted : Booted start)
    (run : Run start steps final) :
    (∀ taken ∈ steps, taken.before.Fresh ∧ taken.after.Fresh) ↔
      ∀ taken ∈ steps, Timely taken.before taken.label := by
  constructor
  · intro fresh taken member
    obtain ⟨sound, action⟩ := actions_of_run booted run taken member
    exact action.timely sound (fresh taken member).2
  · intro timely taken member
    obtain ⟨sound, before, action⟩ := run_invariant_before booted run
      (fun system => system.Fresh) Timely (boot_fresh booted)
      (fun system event after sound timely fresh action => action.fresh sound timely fresh)
      timely taken member
    exact ⟨before, action.fresh sound (timely taken member) before⟩

/-- In every run from boot whose steps are timely, an operation that HARQ queued for a process is
handed over while the process is occupied by the packet it was queued for. -/
theorem handed_fresh {start final : System config}
    {steps : List (Transition.Step (System config) (Event config))} (booted : Booted start)
    (run : Run start steps final)
    (timely : ∀ taken ∈ steps, Timely taken.before taken.label) :
    ∀ taken ∈ steps, ∀ process packet,
      handedOver taken.before taken.label = some (.packet process packet) →
        ∃ index : Fin config.harqProcessCount, (index : Nat) = process ∧
          taken.before.harq.occupied index = true ∧
          (taken.before.harq.processes index).packet = packet := by
  intro taken member process packet handed
  have fresh := ((waiting_fresh_iff booted run).mpr timely taken member).1
  exact fresh _ (handedOver_waiting handed)

/-- An ACK of device 7 for process 0. -/
def ackOfSeven : Event projectConfig :=
  .pcc ⟨1, 0, -100, 40⟩ (peerFeedback 7 5
    ⟨feedbackFormat1, Format1.transmissionFeedback.set ack (format1Feedback 0 0 0).info⟩) 0

/-- A packet goes to the modem and is acknowledged before its work runs. -/
def promptAck : List (Event projectConfig) :=
  .transmit smallPacket (some 4096) :: carriedToModem ++
    [.opComplete 0 .success, ackOfSeven, .opComplete 0 .success]

/-- The packet that is acknowledged in time is handed over, and is fresh then. -/
theorem handed_fresh_promptAck :
    (∃ taken ∈ Transition.followAll step device promptAck,
      handedOver taken.before taken.label = some (.packet 0 0)) ∧
      ∀ taken ∈ Transition.followAll step device promptAck, ∀ process packet,
        handedOver taken.before taken.label = some (.packet process packet) →
          ∃ index : Fin projectConfig.harqProcessCount, (index : Nat) = process ∧
            taken.before.harq.occupied index = true ∧
            (taken.before.harq.processes index).packet = packet :=
  ⟨by decide +kernel, handed_fresh device_booted
    (Transition.followAll_run step device promptAck (by decide +kernel)) (by decide +kernel)⟩

/-- The work of process 0 runs, and the ACK arrives while the retransmission waits in the queue. -/
def lateAck : List (Event projectConfig) :=
  .transmit smallPacket (some 4096) :: carriedToModem ++
    [.opComplete 0 .success, .workExpired (processZero projectConfig), ackOfSeven,
      .opComplete 0 .success] ++ carriedToModem

/-- After the late ACK the retransmission is handed over although process 0 is free. -/
theorem handed_not_fresh :
    ¬ ∀ (start final : System projectConfig)
        (steps : List (Transition.Step (System projectConfig) (Event projectConfig))),
      Booted start → Run start steps final → ∀ taken ∈ steps, ∀ process packet,
        handedOver taken.before taken.label = some (.packet process packet) →
          ∃ index : Fin projectConfig.harqProcessCount, (index : Nat) = process ∧
            taken.before.harq.occupied index = true ∧
            (taken.before.harq.processes index).packet = packet := by
  intro fresh
  have run := Transition.followAll_run step device lateAck (by decide +kernel)
  have each := fresh _ _ _ device_booted run
  have stale : ∃ taken ∈ Transition.followAll step device lateAck,
      handedOver taken.before taken.label = some (.packet 0 0) ∧
        taken.before.harq.occupied (processZero projectConfig) = false := by
    decide +kernel
  obtain ⟨taken, member, handed, free⟩ := stale
  obtain ⟨index, zero, occupied, _⟩ := each taken member 0 0 handed
  rw [show index = processZero projectConfig from Fin.ext zero, free] at occupied
  cases occupied

end DectHarq
