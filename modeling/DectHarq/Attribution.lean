/-
This file settles which HARQ process the completion of an operation is attributed to.

The identity of an operation is packed into its handle: HARQ adds the number of the
process to a base, the queue sets a bit and the handler puts the function in front. The
completion callback takes the number apart again, for every combined operation whose
handle lies above the base. The handles of the application share the number space, so a
combined operation that the application queued with such a handle is taken for one of
HARQ.
-/

import DectHarq.HarqIndexes
import DectHarq.Pipeline

namespace DectHarq

variable {config : Config}

/-! ### The handles -/

/-- A handle is one of those that HARQ chooses, whatever its queue bit is. -/
def inHarqRange (handle : BitVec 28) : Bool := handle &&& 0x7FFFFF0#28 = 0xA0#28

/-- The mask of the callback leaves neither the function nor the queue bit. -/
theorem mask_composeHandle (function : Nat) (handle : BitVec 28) :
    composeHandle function handle &&& 0x07FFFFF0#32 = (handle &&& 0x7FFFFF0#28).setWidth 32 := by
  have masks : ∀ position : Fin 32,
      (0x07FFFFF0#32).getLsbD position = (0x7FFFFF0#28).getLsbD position ∧
        ((0x07FFFFF0#32).getLsbD position = true →
          (position : Nat) < 28 ∧ (0x0fffffff#32).getLsbD position = true) := by
    decide
  refine BitVec.eq_of_getLsbD_eq fun position bound => ?_
  obtain ⟨same, inside⟩ := masks ⟨position, bound⟩
  dsimp only at same inside
  simp only [composeHandle, BitVec.getLsbD_and, BitVec.getLsbD_or, BitVec.getLsbD_shiftLeft,
    BitVec.getLsbD_setWidth, ← same]
  cases masked : (0x07FFFFF0#32).getLsbD position with
  | false => simp
  | true =>
    obtain ⟨low, kept⟩ := inside masked
    simp [low, kept, bound]

theorem withQueueBit_masked (handle : BitVec 28) :
    withQueueBit handle &&& 0x7FFFFF0#28 = handle &&& 0x7FFFFF0#28 := by
  unfold withQueueBit
  rw [BitVec.and_or_distrib_right, show (1#28 <<< 27) &&& 0x7FFFFF0#28 = 0#28 by decide,
    BitVec.or_zero]

/-- The callback takes the handle of a queued operation for one of HARQ when the number that was
put in the queue is in the range of HARQ. -/
theorem isHarqHandle_composeHandle (function : Nat) (handle : BitVec 28) :
    isHarqHandle (composeHandle function (withQueueBit handle)) = inHarqRange handle := by
  unfold isHarqHandle inHarqRange
  rw [mask_composeHandle, withQueueBit_masked]
  refine decide_eq_decide.mpr ?_
  rw [← BitVec.toNat_inj, ← BitVec.toNat_inj (x := _ &&& _), BitVec.toNat_setWidth,
    Nat.mod_eq_of_lt (lt_of_lt_of_le (BitVec.isLt _) (by decide))]
  rfl

/-! ### Attribution -/

/-- An operation of the modem is the one that executing a queued item called. -/
structure Sent (item : QueueItem) (op : ModemOp) : Prop where
  provenance : op.provenance = item.provenance
  issues : Issues item.operation.fromQueue op.request

/-- An item is a combined operation that HARQ put in the queue for a process. -/
def QueueItem.OfProcess (item : QueueItem) (number : Nat) : Prop :=
  (∃ params, item.operation = .txRx params) ∧ ∃ packet, item.provenance = .packet number packet

/-- The completion of the operation at a position schedules the work of a process, whatever works
are pending. -/
def Schedules (system : System config) (position : Nat) (index : Fin config.harqProcessCount) :
    Prop :=
  ∀ harq, ∃ after, step (system.setHarq harq) (.opComplete position .success) = .ok after ∧
    after.harq = scheduleWork index harq

/-- The completion of an operation schedules the work of the process that its item was put for,
and of no process if HARQ did not put it. -/
structure Attributed (item : QueueItem) (system : System config) (position : Nat) : Prop where
  returns : ∃ after, step system (.opComplete position .success) = .ok after
  schedules : ∀ index : Fin config.harqProcessCount,
    Schedules system position index ↔ item.OfProcess index

/-- The application queued a combined operation with a handle in the range of HARQ. -/
def Masquerades (item : QueueItem) : Prop :=
  item.provenance = .user ∧ ∃ params, item.operation = .txRx params ∧
    inHarqRange params.handle = true

section Completion

variable {system : System config} {position : Nat} {op : ModemOp} {handle : BitVec 32}

/-- A table without pending works. -/
def quietTable (config : Config) : Harq config :=
  { Harq.boot config with initialized := true }

theorem scheduleWork_quietTable (index other : Fin config.harqProcessCount) :
    ((scheduleWork index (quietTable config)).processes other).workPending =
      decide (other = index) := by
  rw [scheduleWork, if_pos (show (quietTable config).initialized = true from rfl)]
  by_cases same : other = index
  · rw [same, modify_processes_self]
    simp
  · rw [modify_processes_of_ne _ _ same, decide_eq_false same]
    rfl

/-- The completion of an operation calls the callback with its handle. -/
theorem step_opComplete (found : system.phy.modem[position]? = some op)
    (completes : op.request.completionHandle = some handle) (err : PhyErr) :
    step system (.opComplete position err) = dectMacPhyOpCompleteCb err handle
      (system.setModem (completeAt position op err system.phy.modem)) := by
  dsimp only [step]
  rw [found]
  dsimp only
  rw [completes]

/-- The completion of an operation schedules the work of a process exactly when its handle, read in
the present state, names this process. -/
theorem schedules_iff (found : system.phy.modem[position]? = some op)
    (completes : op.request.completionHandle = some handle)
    (index : Fin config.harqProcessCount) :
    Schedules system position index ↔
      completionIndexes system.phy.currentState handle = [(index : Nat)] := by
  have called (harq : Harq config) : step (system.setHarq harq) (.opComplete position .success) =
      dectMacPhyOpCompleteCb .success handle ((system.setHarq harq).setModem
        (completeAt position op .success system.phy.modem)) :=
    step_opComplete (show (system.setHarq harq).phy.modem[position]? = some op from found)
      completes .success
  unfold completionIndexes
  constructor
  · intro schedules
    obtain ⟨after, stepped, scheduled⟩ := schedules (quietTable config)
    have pending : (after.harq.processes index).workPending = true := by
      rw [scheduled, scheduleWork_quietTable]
      exact decide_eq_true rfl
    have untouched (same : after.harq = quietTable config) : False := by
      rw [same] at pending
      cases pending
    rw [called] at stepped
    rcases opCompleteCb_cases stepped with ⟨failed, _⟩ | ⟨failed, _⟩ | ⟨_, _, _, rfl⟩ |
      ⟨_, turns, harqHandle, other, named, rfl⟩ | ⟨_, _, _, rfl⟩ | ⟨_, _, _, rfl⟩
    · exact absurd rfl failed
    · cases failed
    · exact (untouched rfl).elim
    · rw [if_pos ⟨turns, harqHandle⟩]
      have same : index = other :=
        of_decide_eq_true ((scheduleWork_quietTable other index).symm.trans pending)
      rw [same, processIndex_ok named]
    · exact (untouched rfl).elim
    · exact (untouched rfl).elim
  · intro named harq
    split at named
    · rename_i turns
      rw [List.singleton_inj] at named
      have process : processIndex config (handleProcess handle) = .ok index := by
        rw [named]
        exact processIndex_of_lt index.isLt
      refine ⟨_, (called harq).trans ((if_neg fun failed => failed rfl).trans
        ((if_pos turns.1).trans ((if_pos turns.2).trans (bind_ok.mpr ⟨index, process, rfl⟩)))), rfl⟩
    · cases named

end Completion

/-! ### The processes that are named -/

/-- A packet is one of a configured process. -/
def Provenance.Configured (config : Config) : Provenance → Prop
  | .packet number _ => number < config.harqProcessCount
  | _ => True

/-- Every packet that HARQ queued is one of a configured process, wherever it is. -/
structure System.Configured (system : System config) : Prop where
  items : ∀ item ∈ system.queue.items, item.provenance.Configured config
  current : system.queue.currentProvenance.Configured config
  modem : ∀ op ∈ system.phy.modem, op.provenance.Configured config

theorem Action.configured {system after : System config} {event : Event config}
    (sound : system.harq.Sound) (configured : system.Configured)
    (action : Action system event after) : after.Configured where
  items := fun item member => by
    rcases action.items_from sound member with before | user | ⟨_, number, reply⟩ | ⟨attempted, _⟩
    · exact configured.items item before
    · rw [user]
      trivial
    · rw [reply]
      trivial
    · obtain ⟨index, startTime, priority, rfl, _⟩ := attempt_harqItem attempted
      exact index.isLt
  current := by
    rcases action.saved with same | ⟨item, ret, executing, _, dispatched⟩ | ⟨ret, _, _, retried⟩ |
      ⟨position, _, failed⟩
    · rw [same.provenance]
      exact configured.current
    · rw [dispatched]
      exact configured.items item (Queue.executing_mem executing)
    · rw [retried]
      exact configured.current
    · rw [failed]
      obtain ⟨counter, ⟨_, same⟩ | ⟨_, same⟩⟩ := operationFailedRetry_cases system.queue <;>
        rw [same] <;> exact configured.current
  modem := fun op member => by
    rcases action.modem_from member with ⟨old, oldMember, _, provenance⟩ | user |
      ⟨number, params, reply, _⟩ | ⟨item, queued, provenance, _⟩ | ⟨provenance, _⟩
    · rw [provenance]
      exact configured.modem old oldMember
    · rw [user]
      trivial
    · rw [reply]
      trivial
    · rw [provenance]
      exact configured.items item queued
    · rw [provenance]
      exact configured.current

theorem boot_configured {start : System config} (booted : Booted start) : start.Configured := by
  obtain ⟨deviceId, allocations, _, rfl⟩ := booted
  exact ⟨fun _ member => absurd member List.not_mem_nil, trivial,
    fun _ member => absurd member List.not_mem_nil⟩

/-- An operation whose function is not a combined one names no process. -/
theorem completionIndexes_of_function {state : PhyState} {handle : BitVec 32}
    (other : handleFunction handle ≠ functionTxRx) : completionIndexes state handle = [] := by
  unfold completionIndexes
  rw [if_neg]
  simp [turnsToReception, other]

theorem completionIndexes_of_txRx (handle : BitVec 28) :
    completionIndexes .transmitting (composeHandle functionTxRx (withQueueBit handle)) =
      if inHarqRange handle then
        [handleProcess (composeHandle functionTxRx (withQueueBit handle))]
      else [] := by
  unfold completionIndexes turnsToReception
  rw [handleFunction_composeHandle _ _ (by decide), isHarqHandle_composeHandle]
  simp

/-- A combined request is that of a combined operation, with its handle. -/
theorem Issues.of_txRx {operation : Operation} {request : ModemRequest} {handle : BitVec 32}
    (issues : Issues operation.fromQueue request) (combined : request.isTxRx = true)
    (completes : request.completionHandle = some handle) :
    ∃ params, operation = .txRx params ∧
      handle = composeHandle functionTxRx (withQueueBit params.handle) := by
  cases request with
  | txRx transmission reception =>
    cases operation with
    | txRx params => exact ⟨params, rfl, (Option.some.inj completes).symm.trans issues.1⟩
    | _ => exact absurd issues id
  | _ => cases combined

/-- A handle without a function is one of function 0. -/
theorem handleFunction_setWidth (handle : BitVec 28) :
    handleFunction (handle.setWidth 32) = 0 := by
  unfold handleFunction
  rw [BitVec.toNat_ushiftRight, BitVec.toNat_setWidth, Nat.shiftRight_eq_div_pow]
  exact Nat.div_eq_of_lt (lt_of_le_of_lt (Nat.mod_le _ _) handle.isLt)

/-- Any other request completes with a handle of another function. -/
theorem Issues.function_ne {operation : Operation} {request : ModemRequest} {handle : BitVec 32}
    (issues : Issues operation.fromQueue request) (single : request.isTxRx = false)
    (completes : request.completionHandle = some handle) :
    handleFunction handle ≠ functionTxRx := by
  cases request with
  | rx params =>
    cases operation with
    | rx input =>
      rw [← Option.some.inj completes, issues, handleFunction_composeHandle _ _ (by decide)]
      decide
    | _ => exact absurd issues id
  | tx params =>
    cases operation with
    | tx input =>
      rw [← Option.some.inj completes, issues, handleFunction_composeHandle _ _ (by decide)]
      decide
    | _ => exact absurd issues id
  | txHarq params =>
    cases operation with
    | txHarq input =>
      rw [← Option.some.inj completes, issues, handleFunction_composeHandle _ _ (by decide)]
      decide
    | _ => exact absurd issues id
  | rssi params =>
    cases operation with
    | rssi input =>
      rw [← Option.some.inj completes, issues, handleFunction_setWidth]
      decide
    | _ => exact absurd issues id
  | txRx transmission reception => cases single
  | _ => cases completes

/-- The completion of an operation that HARQ queued for a packet names the process of the packet. -/
theorem completionIndexes_of_packet {item : QueueItem} {op : ModemOp} {handle : BitVec 32}
    {number packet : Nat} (requests : op.provenance.Requests op.request) (sent : Sent item op)
    (completes : op.request.completionHandle = some handle)
    (ofPacket : item.provenance = .packet number packet) :
    item.OfProcess number ∧ completionIndexes .transmitting handle = [number] := by
  rw [sent.provenance, ofPacket] at requests
  obtain ⟨combined, own, ownHandle, function, harqHandle, process⟩ := requests
  obtain rfl : own = handle := Option.some.inj (ownHandle.symm.trans completes)
  obtain ⟨params, operation, _⟩ := sent.issues.of_txRx combined completes
  refine ⟨⟨⟨params, operation⟩, packet, ofPacket⟩, ?_⟩
  unfold completionIndexes turnsToReception
  simp [function, harqHandle, process]

/-- The completion of any other operation names a process exactly when it masquerades as one of
HARQ. -/
theorem completionIndexes_of_other {item : QueueItem} {op : ModemOp} {handle : BitVec 32}
    (requests : op.provenance.Requests op.request) (sent : Sent item op)
    (completes : op.request.completionHandle = some handle)
    (notPacket : ∀ number packet, item.provenance ≠ .packet number packet) :
    (Masquerades item ∧ ∃ number, completionIndexes .transmitting handle = [number]) ∨
      (¬ Masquerades item ∧ completionIndexes .transmitting handle = []) := by
  cases combined : op.request.isTxRx with
  | false =>
    refine Or.inr ⟨?_, completionIndexes_of_function (sent.issues.function_ne combined completes)⟩
    rintro ⟨_, params, operation, _⟩
    have issues := sent.issues
    rw [operation] at issues
    generalize op.request = request at issues combined
    cases request with
    | txRx transmission reception => cases combined
    | _ => exact issues
  | true =>
    obtain ⟨params, operation, rfl⟩ := sent.issues.of_txRx combined completes
    rw [completionIndexes_of_txRx]
    cases range : inHarqRange params.handle with
    | true =>
      have user : item.provenance = .user := by
        cases provenance : item.provenance with
        | user => rfl
        | packet number packet => exact absurd provenance (notPacket number packet)
        | reply number =>
          rw [sent.provenance, provenance] at requests
          obtain ⟨reply, single⟩ := requests
          rw [single] at combined
          cases combined
      exact Or.inl ⟨⟨user, params, operation, range⟩, _, rfl⟩
    | false =>
      refine Or.inr ⟨?_, rfl⟩
      rintro ⟨_, own, ownOperation, inRange⟩
      rw [operation] at ownOperation
      cases ownOperation
      rw [range] at inRange
      cases inRange

/-- In every run, the completion in the state TRANSMITTING of an operation that was put in the queue
is attributed to the process it was put for, and to no other one, exactly when it is not a
combined operation of the application with a handle in the range of HARQ. -/
theorem attributed_iff {start final : System config}
    {steps : List (Transition.Step (System config) (Event config))} {item : QueueItem}
    {position : Nat} {op : ModemOp} {handle : BitVec 32} (booted : Booted start)
    (run : Run start steps final) (found : final.phy.modem[position]? = some op)
    (sent : Sent item op) (completes : op.request.completionHandle = some handle)
    (transmitting : final.phy.currentState = .transmitting) :
    Attributed item final position ↔ ¬ Masquerades item := by
  obtain ⟨_, formed, configured⟩ := run_invariant booted run
    (fun system => system.Formed ∧ system.Configured) (fun _ _ => True)
    ⟨boot_formed booted, boot_configured booted⟩
    (fun _ _ _ sound _ holds action =>
      ⟨action.formed sound holds.1, action.configured sound holds.2⟩) (fun _ _ => trivial)
  have member := List.mem_of_getElem? found
  have requests := formed.modem op member
  have returns : (∃ after, step final (.opComplete position .success) = .ok after) ↔
      InBounds config (completionIndexes .transmitting handle) := by
    rw [step_opComplete found completes, opCompleteCb_returns_iff, ← transmitting]
    rfl
  have schedules (index : Fin config.harqProcessCount) : Schedules final position index ↔
      completionIndexes .transmitting handle = [(index : Nat)] := by
    rw [schedules_iff found completes, transmitting]
  by_cases ofPacket : ∃ number packet, item.provenance = .packet number packet
  · obtain ⟨number, packet, provenance⟩ := ofPacket
    obtain ⟨own, named⟩ := completionIndexes_of_packet requests sent completes provenance
    refine iff_of_true ⟨returns.mpr ?_, fun index => ?_⟩ ?_
    · have bound := configured.modem op member
      rw [sent.provenance, provenance] at bound
      rw [named]
      exact inBounds_cons.mpr ⟨bound, inBounds_nil⟩
    · rw [schedules, named, List.singleton_inj]
      constructor
      · rintro rfl
        exact own
      · rintro ⟨_, other, same⟩
        rw [provenance] at same
        cases same
        rfl
    · rintro ⟨user, _⟩
      rw [provenance] at user
      cases user
  · have notProcess (number : Nat) : ¬ item.OfProcess number :=
      fun process => ofPacket ⟨number, process.2⟩
    push Not at ofPacket
    rcases completionIndexes_of_other requests sent completes ofPacket with
      ⟨masquerades, number, named⟩ | ⟨honest, named⟩
    · refine iff_of_false (fun attributed => ?_) (not_not.mpr masquerades)
      have bound := (inBounds_cons.mp (named ▸ returns.mp attributed.returns)).1
      exact notProcess number ((attributed.schedules ⟨number, bound⟩).mp
        ((schedules ⟨number, bound⟩).mpr named))
    · refine iff_of_true ⟨returns.mpr (named ▸ inBounds_nil), fun index => ?_⟩ honest
      rw [schedules, named]
      exact iff_of_false nofun (notProcess index)

/-! ### Two packets -/

/-- Device 5 sends a packet by HARQ. -/
def harqSending : List (Event projectConfig) :=
  .transmit smallPacket (some 4096) :: carriedToModem

/-- A combined operation of the application without HARQ, with the handle 0xA0. -/
def handledPacket : TxRxParams where
  handle := 0xA0
  txUsage := .noHarq
  lbtEnable := false
  data := none
  dataSize := 0
  receiverId := 7
  feedback := Feedback.none
  harq := HarqTxParams.none
  rxMode := 0
  rxPeriodMs := 100
  startTime := 0

/-- Device 5 sends the operation of the application. -/
def applicationSending : List (Event projectConfig) :=
  .queuePut (.txRx handledPacket) 3 :: carriedToModem

/-- The first operation of the modem is the combined operation of an item. -/
def sentFirst (provenance : Provenance) (params : TxRxParams) (system : System config) : Bool :=
  match system.phy.modem with
  | ⟨.txRx transmission _, own, _, _, _, _⟩ :: _ =>
    own = provenance ∧ transmission.data = params.data ∧
      transmission.handle = composeHandle functionTxRx (withQueueBit params.handle)
  | _ => false

theorem exists_sent {item : QueueItem} {params : TxRxParams} {system : System config}
    (operation : item.operation = .txRx params)
    (first : sentFirst item.provenance params system = true) :
    ∃ op, system.phy.modem[0]? = some op ∧ Sent item op ∧ op.request.completionHandle =
      some (composeHandle functionTxRx (withQueueBit params.handle)) := by
  unfold sentFirst at first
  split at first
  · rename_i transmission reception own awaited secondHalf retried reported rest modem
    obtain ⟨same, data, handle⟩ := of_decide_eq_true first
    refine ⟨⟨.txRx transmission reception, own, awaited, secondHalf, retried, reported⟩, ?_,
      ⟨same, ?_⟩, congrArg some handle⟩
    · rw [modem]
      rfl
    · rw [operation]
      exact ⟨handle, data⟩
  · cases first

/-- The item that HARQ puts for the packet of process 0. -/
def harqSent : QueueItem :=
  harqItem projectConfig (processZero projectConfig)
    ((harqSending.foldl (Transition.follow step) device).harq.processes
      (processZero projectConfig)) 0 0

/-- The completion of the transmission of HARQ schedules the work of process 0 and of no other
one. -/
theorem attributed_iff_harq :
    Attributed harqSent (harqSending.foldl (Transition.follow step) device) 0 := by
  obtain ⟨op, found, sent, completes⟩ := exists_sent (show harqSent.operation = _ from rfl)
    (show sentFirst _ _ (harqSending.foldl (Transition.follow step) device) = true by
      decide +kernel)
  refine (attributed_iff device_booted (Transition.followAll_run step device harqSending
    (by decide +kernel)) found sent completes (by decide +kernel)).mpr ?_
  rintro ⟨user, _⟩
  cases user

/-- The completion of the transmission of the application schedules the work of process 0. -/
theorem application_attributed :
    ¬ ∀ (start final : System projectConfig)
        (steps : List (Transition.Step (System projectConfig) (Event projectConfig)))
        (item : QueueItem) (position : Nat) (op : ModemOp) (handle : BitVec 32),
      Booted start → Run start steps final → final.phy.modem[position]? = some op →
        Sent item op → op.request.completionHandle = some handle →
          final.phy.currentState = .transmitting → Attributed item final position := by
  intro attributed
  have first : sentFirst .user handledPacket
      (applicationSending.foldl (Transition.follow step) device) = true := by decide +kernel
  obtain ⟨op, found, sent, completes⟩ :=
    exists_sent (show (⟨.txRx handledPacket, 3, .user⟩ : QueueItem).operation = _ from rfl) first
  have transmitting : (applicationSending.foldl (Transition.follow step) device).phy.currentState =
      .transmitting := by decide +kernel
  have own := (attributed device _ _ ⟨.txRx handledPacket, 3, .user⟩ 0 op _ device_booted
    (Transition.followAll_run step device applicationSending (by decide +kernel)) found sent
    completes transmitting).schedules (processZero projectConfig)
  obtain ⟨_, packet, user⟩ := own.mp ((schedules_iff found completes _).mpr (by
    rw [transmitting]
    decide))
  cases user

end DectHarq
