/-
This file settles when no HARQ process leaks.

An occupied process depends on its pending work or on a TX_RX operation that waits in
the queue or is at the modem. The operation is lost when a put, an insertion or a modem
call fails, when the transmission fails, or when a changed state indication hides that
it completed; the program then does nothing for the process. As long as no step loses
the operation of a process without pending work, every occupied process depends on
something.
-/

import DectHarq.Freshness

namespace DectHarq

variable {config : Config}

/-- A TX_RX operation of a process waits in the queue or for the start-time retry. -/
def Queue.WaitsFor (queue : Queue) (index : Fin config.harqProcessCount) : Prop :=
  ∃ provenance ∈ queue.waiting, provenance.process = some (index : Nat)

/-- A TX_RX operation of a process is at the modem. -/
def Phy.Executes (phy : Phy) (index : Fin config.harqProcessCount) : Prop :=
  ∃ op ∈ phy.modem, op.provenance.process = some (index : Nat)

/-- No occupied process is without something that can lead to its release. -/
def System.NoLeak (system : System config) : Prop :=
  ∀ index, system.harq.occupied index = true →
    (system.harq.processes index).workPending = true ∨ system.queue.WaitsFor index ∨
      system.phy.Executes index

/-- An operation that HARQ queued is all its process has: the process is occupied, and its work
is not pending. -/
def Harq.DependsOn (harq : Harq config) (provenance : Provenance) : Prop :=
  ∃ index : Fin config.harqProcessCount, provenance.process = some (index : Nat) ∧
    harq.occupied index = true ∧ (harq.processes index).workPending = false

instance (harq : Harq config) : DecidablePred harq.DependsOn := fun _ =>
  inferInstanceAs (Decidable (∃ _, _))

/-- The process a move queues the first transmission of. -/
def HarqMove.sends : HarqMove config → Option (Fin config.harqProcessCount)
  | .sent index _ _ => some index
  | _ => none

/-- What the modem returns to the call of an event. -/
def Event.returns : Event config → Int
  | .execDispatch ret => ret
  | .retryTimer ret => ret
  | _ => 0

/-- The operation that an event completes, and the error it completes with. -/
def completed (system : System config) : Event config → Option (ModemOp × PhyErr)
  | .opComplete position err => system.phy.modem[position]?.map fun op => (op, err)
  | _ => none

/-- The step does not lose the operation of a process that depends on it: puts find a block,
the insertion finds a node and room, the modem accepts the call, no armed retry is
overwritten, and a completed transmission either succeeds while the state indication says
so, or fails with an invalid start time while its operation is the saved one and the retry
is not used up. -/
structure Careful (system : System config) (event : Event config) : Prop where
  sends : ∀ index ∈ (harqMove system event).sends,
    (system.harq.processes index).workPending = false → system.queue.itemSlab < queueMaxItems
  retransmits : ∀ index ∈ (harqMove system event).retransmits,
    system.harq.occupied index = true → system.queue.itemSlab < queueMaxItems
  inserts : event.inserts = true → ∀ item ∈ system.queue.putThread.items,
    system.harq.DependsOn item.provenance →
      system.queue.nodeSlab < queueMaxItems ∧ system.queue.list.length < queueMaxItems
  calls : ∀ provenance ∈ handedOver system event, system.harq.DependsOn provenance →
    event.returns = 0
  overwrites : event.dispatches = true → system.queue.timerArmed = true →
    ¬ system.harq.DependsOn system.queue.currentProvenance
  completes : ∀ done ∈ completed system event, done.1.secondHalf = false →
    system.harq.DependsOn done.1.provenance →
      (done.2 = .success ∧ system.phy.currentState = .transmitting) ∨
        (done.2 = .invalidStartTime ∧ system.queue.RetriesLeft ∧
          system.queue.currentProvenance.process = done.1.provenance.process)

instance (system : System config) (event : Event config) : Decidable (Careful system event) :=
  decidable_of_iff (_ ∧ _ ∧ _ ∧ _ ∧ _ ∧ _)
    ⟨fun ⟨sends, retransmits, inserts, calls, overwrites, completes⟩ =>
        ⟨sends, retransmits, inserts, calls, overwrites, completes⟩,
      fun ⟨sends, retransmits, inserts, calls, overwrites, completes⟩ =>
        ⟨sends, retransmits, inserts, calls, overwrites, completes⟩⟩

/-! ### What a step keeps -/

theorem scheduleWork_pending {harq : Harq config} {index : Fin config.harqProcessCount}
    (pending : (harq.processes index).workPending = true) (other : Fin config.harqProcessCount) :
    ((scheduleWork other harq).processes index).workPending = true := by
  unfold scheduleWork
  split
  · by_cases same : index = other
    · rw [same, modify_processes_self]
    · rw [modify_processes_of_ne _ _ same]
      exact pending
  · exact pending

/-- What a move makes of the processes: one that is occupied afterwards was just taken, or was
occupied before and, unless its work ran, keeps its pending work. -/
theorem HarqStep.occupied_cases {before after : Harq config} {move : HarqMove config}
    (taken : HarqStep before move after) (sound : before.Sound)
    {index : Fin config.harqProcessCount} (occupied : after.occupied index = true) :
    (∃ params address, move = .sent index params address) ∨
      (before.occupied index = true ∧ (move = .retransmitted index ∨
        ((before.processes index).workPending = true →
          (after.processes index).workPending = true))) := by
  -- A process that a table in use has occupied was occupied before.
  have ready {capabilities : Capabilities}
      (used : (dectMacHarqInitialize capabilities before).occupied index = true) :
      before.occupied index = true ∧ dectMacHarqInitialize capabilities before = before := by
    rw [initialize_occupied sound] at used
    exact ⟨used, initialize_of_initialized (sound.initialized_of_occupied used)⟩
  have givenBack {harq : Harq config} {capabilities : Capabilities}
      {given : Fin config.harqProcessCount}
      (used : (givenHarq capabilities given harq).occupied index = true) : index ≠ given := by
    rintro rfl
    rw [givenHarq_occupied_self] at used
    cases used
  cases taken with
  | idle => exact Or.inr ⟨occupied, Or.inr id⟩
  | refused capabilities busy =>
    obtain ⟨used, same⟩ := ready occupied
    rw [same]
    exact Or.inr ⟨used, Or.inr id⟩
  | dropped capabilities given free =>
    have distinct := givenBack occupied
    rw [givenHarq_occupied_of_ne _ _ distinct, takenHarq_occupied_of_ne _ distinct] at occupied
    obtain ⟨used, same⟩ := ready occupied
    rw [same, givenHarq_processes_of_ne _ _ distinct, takenHarq_processes_of_ne _ distinct]
    exact Or.inr ⟨used, Or.inr id⟩
  | sent capabilities given params address free =>
    by_cases own : index = given
    · exact Or.inl ⟨params, address, by rw [own]⟩
    · rw [modify_occupied, takenHarq_occupied_of_ne _ own] at occupied
      obtain ⟨used, same⟩ := ready occupied
      rw [same, modify_processes_of_ne _ _ own, takenHarq_processes_of_ne _ own]
      exact Or.inr ⟨used, Or.inr id⟩
  | acked capabilities given =>
    have distinct := givenBack occupied
    rw [givenHarq_occupied_of_ne _ _ distinct] at occupied
    obtain ⟨used, same⟩ := ready occupied
    rw [same, givenHarq_processes_of_ne _ _ distinct]
    exact Or.inr ⟨used, Or.inr id⟩
  | expired capabilities given =>
    have distinct := givenBack occupied
    rw [givenHarq_occupied_of_ne _ _ distinct] at occupied
    obtain ⟨used, same⟩ := ready occupied
    rw [same, givenHarq_processes_of_ne _ _ distinct]
    exact Or.inr ⟨used, Or.inr id⟩
  | nacked named =>
    rw [scheduleWork_occupied] at occupied
    refine Or.inr ⟨occupied, Or.inr fun pending => scheduleWork_pending ?_ named⟩
    rw [modify_reading (fun process => process.workPending) _ _ _ _ rfl]
    exact pending
  | formatSix named =>
    rw [scheduleWork_occupied] at occupied
    refine Or.inr ⟨occupied, Or.inr fun pending => scheduleWork_pending ?_ named⟩
    rw [modify_reading (fun process => process.workPending) _ _ _ _ rfl]
    exact pending
  | completed named =>
    rw [scheduleWork_occupied] at occupied
    exact Or.inr ⟨occupied, Or.inr fun pending => scheduleWork_pending pending named⟩
  | retransmitted named pending below =>
    refine Or.inr ⟨occupied, ?_⟩
    by_cases own : index = named
    · exact Or.inl (by rw [own])
    · rw [modify_processes_of_ne _ _ own]
      exact Or.inr id
  | requested capabilities processed header handled =>
    obtain ⟨named, size, _, rfl⟩ := requestProcess_cases handled
    refine Or.inr ⟨occupied, Or.inr fun pending => ?_⟩
    show ((before.modify named _).processes index).workPending = true
    rw [modify_reading (fun process => process.workPending) _ _ _ _ rfl]
    exact pending

/-- Executing the operation of a packet brings it to the modem, if the modem accepts it. -/
theorem Execution.packet_executes {operation : Operation} {provenance : Provenance} {ret : Int}
    {system after : System config} {process : Nat}
    (execution : Execution config operation provenance ret system after)
    (forms : provenance.Forms operation) (own : provenance.process = some process)
    (accepted : ret = 0) :
    ∃ op ∈ after.phy.modem, op.provenance = provenance ∧ op.secondHalf = false := by
  obtain ⟨packet, rfl⟩ := Provenance.eq_packet own
  obtain ⟨_, params, rfl, _⟩ := forms
  cases execution with
  | placeholder none => cases none
  | nothing none => rcases none with link | ⟨code, unknown⟩ <;> contradiction
  | call request state nodes issues =>
    refine ⟨⟨request, _, true, false, false, false⟩, ?_, rfl, rfl⟩
    show _ ∈ modemAfter _ _ _ _
    rw [modemAfter, if_pos accepted]
    exact List.mem_append_right _ (List.mem_singleton_self _)

/-- An operation of a packet that is handed over is at the modem, if the modem accepts it. -/
theorem Action.handed_executes {system after : System config} {event : Event config}
    (formed : system.Formed) (action : Action system event after) {provenance : Provenance}
    {process : Nat} (handed : handedOver system event = some provenance)
    (own : provenance.process = some process) (accepted : event.returns = 0) :
    ∃ op ∈ after.phy.modem, op.provenance = provenance ∧ op.secondHalf = false := by
  cases action with
  | execDispatch _ item ret executing execution =>
    simp only [handedOver, executing, Option.some.injEq] at handed
    subst handed
    exact execution.packet_executes (formed.items item (Queue.executing_mem executing)) own accepted
  | retryTimer _ ret armed execution =>
    simp only [handedOver, armed, if_true, Option.some.injEq] at handed
    subst handed
    exact execution.packet_executes formed.current own accepted
  | _ => cases handed

/-- An operation at the modem stays there, unless it completes or its kind does not complete
through `op_complete`. -/
theorem Action.modem_keeps {system after : System config} {event : Event config}
    (action : Action system event after) {op : ModemOp} (member : op ∈ system.phy.modem) :
    (∃ kept ∈ after.phy.modem, kept.Same op ∧ kept.secondHalf = op.secondHalf ∧
        (op.awaited = true → kept.awaited = true)) ∨
      (∃ err, completed system event = some (op, err)) ∨ op.request.completionHandle = none := by
  have completes {position : Nat} {err : PhyErr} {done : ModemOp}
      (found : system.phy.modem[position]? = some done)
      (same : event = .opComplete position err) :
      (∃ kept ∈ completeAt position done err system.phy.modem, kept.Same op ∧
          kept.secondHalf = op.secondHalf ∧ (op.awaited = true → kept.awaited = true)) ∨
        (∃ err, completed system event = some (op, err)) ∨
        op.request.completionHandle = none := by
    rcases completeAt_keeps found member with kept | rfl
    · exact Or.inl ⟨op, kept, ⟨rfl, rfl⟩, rfl, id⟩
    · refine Or.inr (Or.inl ⟨err, ?_⟩)
      rw [same, completed, found]
      rfl
  cases action with
  | direct operation ret request state nodes issues =>
    exact Or.inl ⟨op, modemAfter_keeps member _ _ _, ⟨rfl, rfl⟩, rfl, id⟩
  | request status header ret harq reply request nodes code queue addressed processed issues =>
    exact Or.inl ⟨op, modemAfter_keeps member _ _ _, ⟨rfl, rfl⟩, rfl, id⟩
  | execDispatch _ item ret executing execution => exact Or.inl (execution.modem_keeps member)
  | retryTimer _ ret armed execution => exact Or.inl (execution.modem_keeps member)
  | completeError position err done handle found => exact completes found rfl
  | completeRetry position done handle found => exact completes found rfl
  | turn position done handle found => exact completes found rfl
  | turnHarq position done handle index found => exact completes found rfl
  | completeQueued position done handle found => exact completes found rfl
  | completeDirect position done handle found => exact completes found rfl
  | rssiReport position done found rssi =>
    rcases mem_set_of_ne found member with kept | rfl
    · exact Or.inl ⟨op, kept, ⟨rfl, rfl⟩, rfl, id⟩
    · obtain ⟨bound, _⟩ := List.getElem?_eq_some_iff.mp found
      exact Or.inl ⟨_, List.mem_set bound _, ⟨rfl, rfl⟩, rfl, id⟩
  | managementGive position capability capabilities done found management =>
    rcases mem_eraseIdx_of_ne found member with kept | rfl
    · exact Or.inl ⟨op, kept, ⟨rfl, rfl⟩, rfl, id⟩
    · refine Or.inr (Or.inr ?_)
      rcases management with same | same | same | same <;> rw [same] <;> rfl
  | managementKeep position err capability done found keeps management =>
    rcases mem_eraseIdx_of_ne found member with kept | rfl
    · exact Or.inl ⟨op, kept, ⟨rfl, rfl⟩, rfl, id⟩
    · exact Or.inr (Or.inr management)
  | _ => exact Or.inl ⟨op, member, ⟨rfl, rfl⟩, rfl, id⟩

theorem scheduleWork_schedules {harq : Harq config} (initialized : harq.initialized = true)
    (index : Fin config.harqProcessCount) :
    ((scheduleWork index harq).processes index).workPending = true := by
  rw [scheduleWork, if_pos initialized, modify_processes_self]

/-- A transmission of a packet that completes while the state indication says so schedules the
work of its process. -/
theorem Action.completed_schedules {system after : System config} {event : Event config}
    (initialized : system.harq.initialized = true) (formed : system.Formed)
    (action : Action system event after) {op : ModemOp}
    {index : Fin config.harqProcessCount}
    (done : completed system event = some (op, .success))
    (own : op.provenance.process = some (index : Nat))
    (transmitting : system.phy.currentState = .transmitting) :
    (after.harq.processes index).workPending = true := by
  have requests {position : Nat} {found : ModemOp}
      (isOp : system.phy.modem[position]? = some found) (same : found = op) :
      ∃ handle, found.request.completionHandle = some handle ∧
        handleFunction handle = functionTxRx ∧ isHarqHandle handle = true ∧
        handleProcess handle = index := by
    subst same
    obtain ⟨packet, equal⟩ := Provenance.eq_packet own
    have form := formed.modem found (List.mem_of_getElem? isOp)
    rw [equal] at form
    exact form.2
  have same {position : Nat} {found : ModemOp} {err : PhyErr}
      (isOp : system.phy.modem[position]? = some found)
      (done : completed system (.opComplete position err) = some (op, .success)) :
      found = op ∧ err = .success := by
    rw [completed, isOp] at done
    exact Prod.mk.inj (Option.some.inj done)
  cases action with
  | completeError position err found handle isOp completes failed noRetry =>
    exact absurd (same isOp done).2 failed
  | completeRetry position found handle isOp completes => cases (same isOp done).2
  | turn position found handle isOp completes turns other =>
    obtain ⟨own, isHandle, _, harqHandle, _⟩ := requests isOp (same isOp done).1
    obtain rfl := Option.some.inj (isHandle.symm.trans completes)
    rw [other] at harqHandle
    cases harqHandle
  | turnHarq position found handle named isOp completes turns harqHandle process =>
    obtain ⟨own, isHandle, _, _, names⟩ := requests isOp (same isOp done).1
    obtain rfl := Option.some.inj (isHandle.symm.trans completes)
    obtain rfl : named = index := Fin.ext ((processIndex_ok process).trans names)
    exact scheduleWork_schedules initialized named
  | completeQueued position found handle isOp completes stays queued =>
    obtain ⟨own, isHandle, function, _, _⟩ := requests isOp (same isOp done).1
    obtain rfl := Option.some.inj (isHandle.symm.trans completes)
    simp [turnsToReception, transmitting, function] at stays
  | completeDirect position found handle isOp completes stays direct =>
    obtain ⟨own, isHandle, function, _, _⟩ := requests isOp (same isOp done).1
    obtain rfl := Option.some.inj (isHandle.symm.trans completes)
    simp [turnsToReception, transmitting, function] at stays
  | _ => cases done

/-- An operation that fails with an invalid start time arms the timer, while the retry is not
used up. -/
theorem Action.completed_arms {system after : System config} {event : Event config}
    (action : Action system event after) {op : ModemOp}
    (done : completed system event = some (op, .invalidStartTime))
    (left : system.queue.RetriesLeft) :
    after.queue.timerArmed = true ∧
      after.queue.currentProvenance = system.queue.currentProvenance := by
  have same {position : Nat} {found : ModemOp} {err : PhyErr}
      (isOp : system.phy.modem[position]? = some found)
      (done : completed system (.opComplete position err) = some (op, .invalidStartTime)) :
      err = .invalidStartTime := by
    rw [completed, isOp] at done
    exact (Prod.mk.inj (Option.some.inj done)).2
  cases action with
  | completeError position err found handle isOp completes failed noRetry =>
    exact absurd (same isOp done) noRetry
  | completeRetry position found handle isOp completes =>
    show (dectMacPhyHandlerQueueOperationFailedRetry system.queue).timerArmed = true ∧
      (dectMacPhyHandlerQueueOperationFailedRetry system.queue).currentProvenance = _
    rw [failedRetry_arms left]
    exact ⟨rfl, rfl⟩
  | turn position found handle isOp => cases same isOp done
  | turnHarq position found handle named isOp => cases same isOp done
  | completeQueued position found handle isOp => cases same isOp done
  | completeDirect position found handle isOp => cases same isOp done
  | _ => cases done

/-! ### Runs -/

/-- An occupied process has pending work, or an operation that waits, or one at the modem whose
transmission has not completed. -/
def System.Kept (system : System config) : Prop :=
  ∀ index, system.harq.occupied index = true →
    (system.harq.processes index).workPending = true ∨ system.queue.WaitsFor index ∨
      ∃ op ∈ system.phy.modem, op.provenance.process = some (index : Nat) ∧ op.secondHalf = false

theorem System.Kept.noLeak {system : System config} (kept : system.Kept) : system.NoLeak := by
  intro index occupied
  rcases kept index occupied with pending | waits | ⟨op, member, own, _⟩
  · exact Or.inl pending
  · exact Or.inr (Or.inl waits)
  · exact Or.inr (Or.inr ⟨op, member, own⟩)

/-- A step that queues an operation of a process and finds a block leaves one waiting. -/
theorem Action.queued_waits {system after : System config} {event : Event config}
    (sound : system.harq.Sound) (action : Action system event after)
    (room : system.queue.itemSlab < queueMaxItems) {index : Fin config.harqProcessCount}
    (queues : (∃ params address, harqMove system event = .sent index params address) ∨
      harqMove system event = .retransmitted index) : after.queue.WaitsFor index := by
  obtain ⟨item, attempted, own⟩ : ∃ item, (harqMove system event).attempt after.harq = some item ∧
      item.provenance.process = some (index : Nat) := by
    rcases queues with ⟨params, address, sent⟩ | retransmitted
    · rw [sent]
      exact ⟨_, rfl, rfl⟩
    · rw [retransmitted]
      exact ⟨_, rfl, rfl⟩
  exact ⟨_, Queue.mem_waiting.mpr (Or.inl
    ⟨item, action.attempt_queued sound room attempted, rfl⟩), own⟩

/-- A transmission keeps the work that is pending for the process it takes. -/
theorem HarqStep.sent_pending {before after : Harq config} {index : Fin config.harqProcessCount}
    {params : HarqTransmitParams} {address : Nat}
    (taken : HarqStep before (.sent index params address) after) (sound : before.Sound)
    (pending : (before.processes index).workPending = true) :
    (after.processes index).workPending = true := by
  have initialized := sound.initialized_of_pending pending
  cases taken with
  | sent capabilities index params address free =>
    rw [initialize_of_initialized initialized, modify_processes_self, takenHarq_processes_self]
    exact pending

/-- A careful action leaves no occupied process without anything. -/
theorem Action.kept {system after : System config} {event : Event config}
    (sound : system.harq.Sound) (careful : Careful system event) (formed : system.Formed)
    (kept : system.Kept) (action : Action system event after) : after.Kept := by
  intro index occupied
  rcases (action.move sound).1.occupied_cases sound occupied with
    ⟨params, address, sent⟩ | ⟨used, retransmitted | stays⟩
  · by_cases pending : (system.harq.processes index).workPending = true
    · have moved := (action.move sound).1
      rw [sent] at moved
      exact Or.inl (moved.sent_pending sound pending)
    · have room := careful.sends index (by rw [sent]; rfl) (by simpa using pending)
      exact Or.inr (Or.inl (action.queued_waits sound room (Or.inl ⟨params, address, sent⟩)))
  · have room := careful.retransmits index (by rw [retransmitted]; rfl) used
    exact Or.inr (Or.inl (action.queued_waits sound room (Or.inr retransmitted)))
  · by_cases pending : (system.harq.processes index).workPending = true
    · exact Or.inl (stays pending)
    · have depends {provenance : Provenance} (own : provenance.process = some (index : Nat)) :
          system.harq.DependsOn provenance := ⟨index, own, used, by simpa using pending⟩
      rcases kept index used with scheduled | ⟨provenance, waits, own⟩ | ⟨op, member, own, first⟩
      · exact absurd scheduled pending
      · rcases action.waiting_keep waits with still | ⟨inserts, ⟨item, holds, rfl⟩, full⟩ |
          handed | ⟨dispatches, armed, rfl⟩
        · exact Or.inr (Or.inl ⟨provenance, still, own⟩)
        · obtain ⟨node, room⟩ := careful.inserts inserts item holds (depends own)
          exact absurd full (by omega)
        · obtain ⟨op, atModem, rfl, first⟩ := action.handed_executes formed handed own
            (careful.calls _ handed (depends own))
          exact Or.inr (Or.inr ⟨op, atModem, own, first⟩)
        · exact absurd (depends own) (careful.overwrites dispatches armed)
      · rcases action.modem_keeps member with ⟨still, atModem, same, half, _⟩ | ⟨err, done⟩ |
          noHandle
        · exact Or.inr (Or.inr ⟨still, atModem, same.2 ▸ own, half.trans first⟩)
        · rcases careful.completes (op, err) done first (depends own) with
            ⟨rfl, transmitting⟩ | ⟨rfl, left, current⟩
          · exact Or.inl (action.completed_schedules (sound.initialized_of_occupied used) formed
              done own transmitting)
          · obtain ⟨armed, same⟩ := action.completed_arms done left
            refine Or.inr (Or.inl ⟨_, Queue.mem_waiting.mpr (Or.inr ⟨armed, rfl⟩), ?_⟩)
            rw [same]
            exact current.trans own
        · obtain ⟨packet, equal⟩ := Provenance.eq_packet own
          have form := formed.modem op member
          rw [equal] at form
          obtain ⟨_, handle, isHandle, _⟩ := form
          rw [noHandle] at isHandle
          cases isHandle

/-- In every state of a run from boot whose steps are careful no HARQ process leaks. -/
theorem noLeak_of_careful {start final : System config}
    {steps : List (Transition.Step (System config) (Event config))} (booted : Booted start)
    (run : Run start steps final)
    (careful : ∀ taken ∈ steps, Careful taken.before taken.label) :
    final.NoLeak ∧ ∀ taken ∈ steps, taken.before.NoLeak := by
  have base : start.Formed ∧ start.Kept := by
    refine ⟨boot_formed booted, ?_⟩
    obtain ⟨deviceId, allocations, _, rfl⟩ := booted
    exact fun _ occupied => by cases occupied
  have kept (system : System config) (event : Event config) (after : System config)
      (sound : system.harq.Sound) (careful : Careful system event)
      (holds : system.Formed ∧ system.Kept) (action : Action system event after) :
      after.Formed ∧ after.Kept :=
    ⟨action.formed sound holds.1, action.kept sound careful holds.1 holds.2⟩
  constructor
  · exact (run_invariant booted run _ Careful base kept careful).2.2.noLeak
  · intro taken member
    exact (run_invariant_before booted run _ Careful base kept careful taken member).2.1.2.noLeak

/-- A packet is transmitted, retransmitted by its work, and given up by a late ACK. -/
theorem noLeak_of_careful_lateAck :
    (lateAck.foldl (Transition.follow step) device).NoLeak ∧
      ∀ taken ∈ Transition.followAll step device lateAck, taken.before.NoLeak :=
  noLeak_of_careful device_booted (Transition.followAll_run step device lateAck (by decide +kernel))
    (by decide +kernel)

/-- The application fills the put queue, then transmits a packet. -/
def fullQueue : List (Event projectConfig) :=
  List.replicate 8 (.queuePut .timeGet priorityLow) ++ [.transmit smallPacket (some 4096)]

/-- The transmission finds no block, and its process stays occupied with nothing to release it. -/
theorem process_leaks :
    ¬ ∀ (start final : System projectConfig)
        (steps : List (Transition.Step (System projectConfig) (Event projectConfig))),
      Booted start → Run start steps final →
        final.NoLeak ∧ ∀ taken ∈ steps, taken.before.NoLeak := by
  intro noLeak
  have run := Transition.followAll_run step device fullQueue (by decide +kernel)
  have final := (noLeak _ _ _ device_booted run).1 (processZero projectConfig) (by decide +kernel)
  rcases final with pending | ⟨provenance, waits, own⟩ | ⟨op, member, own⟩
  · exact absurd pending (by decide +kernel)
  · have users : ∀ provenance ∈ (fullQueue.foldl (Transition.follow step) device).queue.waiting,
        provenance.process = none := by
      decide +kernel
    rw [users provenance waits] at own
    cases own
  · have idle : (fullQueue.foldl (Transition.follow step) device).phy.modem = [] := by
      decide +kernel
    rw [idle] at member
    cases member

end DectHarq
