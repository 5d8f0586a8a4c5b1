/-
This file assembles the program and its environment into one machine.

A step is one atomic action: a call of the application, a stretch of one of the two
queue threads, a modem callback, an expiration of the retry timer or of a delayed
work, a received header, or a cleaning pass. What the environment chooses (return
codes, errors, measurements, the result of an allocation) is in the event.
-/

import DectHarq.Callback

namespace DectHarq

/-- The atomic actions of the program and its environment. -/
inductive Event (config : Config)
  /-- The application calls `dect_mac_harq_transmit`; `heap` is what `k_malloc` returns. -/
  | transmit (params : HarqTransmitParams) (heap : Option Nat)
  /-- The application calls `dect_phy_queue_put`. -/
  | queuePut (operation : Operation) (priority : UInt32)
  /-- The application calls a handler function, bypassing the queue. -/
  | direct (operation : Operation) (ret : Int)
  | putGet
  | putFree
  | putInsert
  | putGive
  | execTakePhy
  | execTakeItem
  | execRemove
  /-- The executor executes the removed item; `ret` is what the modem call returns. -/
  | execDispatch (ret : Int)
  /-- The retry timer expires. -/
  | retryTimer (ret : Int)
  /-- The delayed work of a process runs. -/
  | workExpired (index : Fin config.harqProcessCount)
  /-- The modem completes the operation at a position, or the first half of a TX_RX. -/
  | opComplete (position : Nat) (err : PhyErr)
  /-- The modem reports a measurement of the RSSI operation at a position. -/
  | rssiReport (position : Nat)
  /-- The modem calls back for an operation that does not complete through `op_complete`. -/
  | management (position : Nat) (err : PhyErr) (capability : Capabilities)
  /-- A header is received; `ret` is what the modem returns for the reply. -/
  | pcc (status : PccStatus) (header : PhyHeader) (ret : Int)
  | cleanNodes

variable {config : Config}

/-- The modem after the completion of the operation at a position: the first half of a TX_RX
leaves the operation waiting for the second one, any other completion removes it. -/
def completeAt (position : Nat) (op : ModemOp) (err : PhyErr) (modem : List ModemOp) :
    List ModemOp :=
  if op.request.isTxRx && !op.secondHalf then
    modem.set position { op with secondHalf := true, retried := err = .invalidStartTime }
  else modem.eraseIdx position

/-- The callback of an operation that does not complete through `op_complete`. -/
def managementStep (request : ModemRequest) (err : PhyErr) (capability : Capabilities)
    (system : System config) : Except Stop (System config) :=
  match request with
  | .capabilityGet => .ok (dectMacPhyCapabilityGetCb err capability system)
  | .init => .ok (managementCb err system)
  | .deinit => .ok (managementCb err system)
  | .timeGet => .ok (managementCb err system)
  | .rxStop _ => .ok (dectMacPhyRxStopCb err system)
  | _ => .error .disabled

/-- Replace the modem's list of operations. -/
def System.setModem (system : System config) (modem : List ModemOp) : System config :=
  { system with phy := { system.phy with modem := modem } }

/-- Replace the queue. -/
def System.setQueue (system : System config) (queue : Queue) : System config :=
  { system with queue := queue }

/-- The executor's step into the handler: it resets the failure counter, executes the item and
goes back to waiting for the token. -/
def execDispatchStep (item : QueueItem) (ret : Int) (system : System config) :
    Except Stop (System config) := do
  let (_, queue, phy) ← dectMacPhyHandlerQueueFunctionExecute config item.operation
    item.provenance false ret
    { system.queue with operationFailedCounter := 0, execThread := .waitPhy } system.phy
  .ok { system with queue := queue, phy := phy }

/-- `dect_mac_phy_handler_queue_timer_callback`. -/
def retryTimerStep (ret : Int) (system : System config) : Except Stop (System config) := do
  let (_, queue, phy) ← dectMacPhyHandlerQueueFunctionExecute config
    system.queue.currentOperation system.queue.currentProvenance true ret
    { system.queue with timerArmed := false } system.phy
  .ok { system with queue := queue, phy := phy }

/-- One atomic action. -/
def step (system : System config) : Event config → Except Stop (System config)
  | .transmit params heap => do
    let (_, transmitted) ← dectMacHarqTransmit params heap system
    .ok transmitted
  | .queuePut operation priority => do
    let (_, queue) ← dectPhyQueuePut ⟨operation, priority, .user⟩ system.queue
    .ok (system.setQueue queue)
  | .direct operation ret => do
    let phy ← callHandler config operation ⟨.user, false⟩ ret system.phy
    .ok { system with phy := phy }
  | .putGet => do .ok (system.setQueue (← putThreadGet system.queue))
  | .putFree => do .ok (system.setQueue (← putThreadFree system.queue))
  | .putInsert => do .ok (system.setQueue (← putThreadInsert system.queue))
  | .putGive => do .ok (system.setQueue (← putThreadGive system.queue))
  | .execTakePhy => do
    let queue ← execThreadTakePhy system.queue
    .ok { system with queue := queue, phy := { system.phy with currentState := .idling } }
  | .execTakeItem => do .ok (system.setQueue (← execThreadTakeItem system.queue))
  | .execRemove => do .ok (system.setQueue (← execThreadRemove system.queue))
  | .execDispatch ret =>
    match system.queue.execThread with
    | .executing item => execDispatchStep item ret system
    | _ => .error .disabled
  | .retryTimer ret =>
    if system.queue.timerArmed then retryTimerStep ret system else .error .disabled
  | .workExpired index =>
    if (system.harq.processes index).workPending then
      dectMacHarqRetransmissionWorkHandler index
        { system with harq := cancelWork index system.harq }
    else .error .disabled
  | .opComplete position err =>
    match system.phy.modem[position]? with
    | some op =>
      match op.request.completionHandle with
      | some handle => dectMacPhyOpCompleteCb err handle
          (system.setModem (completeAt position op err system.phy.modem))
      | none => .error .disabled
    | none => .error .disabled
  | .rssiReport position =>
    match system.phy.modem[position]? with
    | some op =>
      if op.request.isRssi then
        .ok (dectMacPhyRssiCb (system.setModem
          (system.phy.modem.set position { op with reported := true })))
      else .error .disabled
    | none => .error .disabled
  | .management position err capability =>
    match system.phy.modem[position]? with
    | some op => managementStep op.request err capability
        (system.setModem (system.phy.modem.eraseIdx position))
    | none => .error .disabled
  | .pcc status header ret => dectMacPhyPccCb status header ret system
  | .cleanNodes =>
    .ok { system with phy := { system.phy with
      nodes := dectMacNodeCleanUnusedNodes system.phy.nodes } }

/-- The system at boot. The capabilities are zero until they are read from the modem; the
device id and the allocations to come are free. -/
def boot (config : Config) (deviceId : Nat) (allocations : Nat → Allocation) : System config where
  harq := Harq.boot config
  phy := {
    currentState := .idling
    capabilities := ⟨0, 0⟩
    deviceId := deviceId
    nodes := ⟨∅, allocations⟩
    modem := []
    modemCalls := [] }
  queue := Queue.boot

/-- A system at boot, for some 16-bit device id and some allocations to come. -/
def Booted (system : System config) : Prop :=
  ∃ deviceId allocations, deviceId < 65536 ∧ system = boot config deviceId allocations

/-- The program with its environment. -/
def machine (config : Config) : Transition.Machine (System config) (Event config) where
  initial := Booted
  step := Transition.stepOf step

/-- A run of the program from boot. -/
abbrev Run (start : System config) (steps : List (Transition.Step (System config) (Event config)))
    (final : System config) : Prop :=
  Transition.Run (Transition.stepOf step) start steps final

/-- Device 5 after boot, with node records to spare. -/
def device : System projectConfig := boot projectConfig 5 fun _ => .inserted

theorem device_booted : Booted device := ⟨5, fun _ => .inserted, by decide, rfl⟩

/-- Three bytes for device 7. -/
def smallPacket : HarqTransmitParams := ⟨[1, 2, 3], 3, 0, 7⟩

/-- A header for a device: a HARQ transmission of a peer on a process. -/
def peerRequest (peer receiver process : Nat) : PhyHeader :=
  type2Header projectConfig peer
    { handle := 0, txUsage := .harq, lbtEnable := false, data := none, dataSize := 5,
      receiverId := receiver, feedback := Feedback.none,
      harq := HarqTxParams.store 0 1 process, startTime := 0 }
    ⟨13, 0, 1⟩

/-- A feedback from one device to another. -/
def peerFeedback (peer receiver : Nat) (feedback : Feedback) : PhyHeader :=
  type2Header projectConfig peer
    { handle := 0, txUsage := .noHarq, lbtEnable := false, data := none, dataSize := 0,
      receiverId := receiver, feedback := feedback, harq := HarqTxParams.none, startTime := 0 }
    ⟨13, 0, 0⟩

/-- An ACK of one device to another for a process. -/
def peerAck (peer receiver process : Nat) : PhyHeader :=
  peerFeedback peer receiver
    ⟨feedbackFormat1, Format1.transmissionFeedback.set ack (format1Feedback process 0 0).info⟩

/-- A header is received over a good channel. -/
def received (header : PhyHeader) : Event projectConfig := .pcc ⟨1, 0, -100, 40⟩ header 0

/-- The executor and the put thread carry one item from the message queue to the modem. -/
def carriedToModem : List (Event projectConfig) :=
  [.putGet, .putFree, .putInsert, .putGive, .execTakePhy, .execTakeItem, .execRemove,
    .execDispatch 0]

end DectHarq
