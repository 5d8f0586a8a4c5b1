/-
This file models the HARQ module: the process table, the sender side (transmit,
retransmit, feedback) and the receiver side (requests).

Both sides work on one array of processes. An index outside the array is undefined
behaviour and stops the call. The delayed work of a process is a flag: it is set when
the work is scheduled and cleared when it is cancelled or run, and the time at which
it runs is free. The number of the packet a process carries is a mark of the
specification, given when the process is taken.
-/

import Mathlib.Data.List.FinRange
import DectHarq.Handler

namespace DectHarq

/-- `dect_mac_harq_process`. `workPending` stands for the delayed work, and `packet` is the
number of the packet the process was last taken for. -/
structure HarqProcess where
  processNumber : Nat
  data : Option Buffer
  dataLen : Nat
  receiverId : Nat
  transmissionCount : Nat
  redundancyVersion : Nat
  newDataIndication : Bool
  workPending : Bool
  bufferSize : Nat
  packet : Nat
  deriving DecidableEq

/-- The state of the HARQ module. `packets` counts the takes and `replies` the received
requests; both are marks of the specification. -/
structure Harq (config : Config) where
  initialized : Bool
  processes : Fin config.harqProcessCount → HarqProcess
  occupied : Fin config.harqProcessCount → Bool
  packets : Nat
  replies : Nat

/-- The whole program with its modem. -/
structure System (config : Config) where
  harq : Harq config
  phy : Phy
  queue : Queue

/-- `dect_mac_harq_transmit_params`. -/
structure HarqTransmitParams where
  data : List Nat
  dataLen : Nat
  startTime : Nat
  receiverId : Nat
  deriving DecidableEq

variable {config : Config}

/-! ### The process table -/

/-- A zeroed process. -/
def HarqProcess.zero : HarqProcess := ⟨0, none, 0, 0, 0, 0, false, false, 0, 0⟩

/-- The HARQ module at boot. -/
def Harq.boot (config : Config) : Harq config :=
  ⟨false, fun _ => HarqProcess.zero, fun _ => false, 0, 0⟩

/-- The soft buffer share of one process. -/
def softBufferShare (config : Config) (capabilities : Capabilities) : Nat :=
  capabilities.harqSoftBufSize / 8 / config.harqProcessCount

/-- Process 0, which every configuration has. -/
def processZero (config : Config) : Fin config.harqProcessCount :=
  ⟨0, config.harqProcessCount_range.1⟩

/-- Change one process. -/
def Harq.modify (harq : Harq config) (index : Fin config.harqProcessCount)
    (change : HarqProcess → HarqProcess) : Harq config :=
  { harq with processes := Function.update harq.processes index (change (harq.processes index)) }

/-- An index into the process array: outside of it the behaviour is undefined. -/
def processIndex (config : Config) (number : Nat) : Except Stop (Fin config.harqProcessCount) :=
  if bound : number < config.harqProcessCount then .ok ⟨number, bound⟩ else .error .outOfBounds

/-- `dect_mac_harq_init_process`. -/
def dectMacHarqInitProcess (config : Config) (capabilities : Capabilities) (processNumber : Nat)
    (process : HarqProcess) : HarqProcess :=
  { process with
    processNumber := processNumber
    data := none
    dataLen := 0
    receiverId := 0
    transmissionCount := 0
    redundancyVersion := 0
    bufferSize := softBufferShare config capabilities }

/-- `dect_mac_harq_initialize`. -/
def dectMacHarqInitialize (capabilities : Capabilities) (harq : Harq config) : Harq config :=
  if harq.initialized then harq
  else { harq with
    initialized := true
    processes := fun index =>
      { dectMacHarqInitProcess config capabilities index (harq.processes index) with
        newDataIndication := true
        workPending := false }
    occupied := fun _ => false }

/-- `dect_mac_harq_take_process`. -/
def dectMacHarqTakeProcess (capabilities : Capabilities) (harq : Harq config) :
    Option (Fin config.harqProcessCount) × Harq config :=
  let ready := dectMacHarqInitialize capabilities harq
  match (List.finRange config.harqProcessCount).find? fun index => !ready.occupied index with
  | none => (none, ready)
  | some index =>
    (some index,
      { ready.modify index fun process =>
          { process with
            newDataIndication := !process.newDataIndication
            packet := ready.packets } with
        occupied := Function.update ready.occupied index true
        packets := ready.packets + 1 })

/-- `k_work_cancel_delayable` on the work of a process. -/
def cancelWork (index : Fin config.harqProcessCount) (harq : Harq config) : Harq config :=
  harq.modify index fun process => { process with workPending := false }

/-- `k_work_schedule_for_queue` and `k_work_reschedule_for_queue` on the work of a process: the
work becomes pending, or stays so. A work queue that was not started takes no work. -/
def scheduleWork (index : Fin config.harqProcessCount) (harq : Harq config) : Harq config :=
  if harq.initialized then harq.modify index fun process => { process with workPending := true }
  else harq

/-- `dect_mac_harq_give_process`: the occupied flag is found by the stored process number. -/
def dectMacHarqGiveProcess (capabilities : Capabilities) (index : Fin config.harqProcessCount)
    (harq : Harq config) : Except Stop (Harq config) := do
  let ready := dectMacHarqInitialize capabilities harq
  let cleared := ready.modify index fun process =>
    dectMacHarqInitProcess config capabilities process.processNumber process
  let slot ← processIndex config (cleared.processes index).processNumber
  .ok (cancelWork index { cleared with occupied := Function.update cleared.occupied slot false })

/-- `dect_mac_harq_increment_redundancy_version`. -/
def dectMacHarqIncrementRedundancyVersion : Nat → Nat
  | 0 => 2
  | 1 => 0
  | 2 => 3
  | 3 => 1
  | other => other

/-- The thresholds of `dect_mac_harq_get_buffer_status`. -/
def bufferStatus (size : Nat) : Nat :=
  if size = 0 then 0
  else if size ≤ 16 then 0x1
  else if size ≤ 32 then 0x2
  else if size ≤ 64 then 0x3
  else if size ≤ 128 then 0x4
  else if size ≤ 256 then 0x5
  else if size ≤ 512 then 0x6
  else if size ≤ 1024 then 0x7
  else if size ≤ 2048 then 0x8
  else if size ≤ 4096 then 0x9
  else if size ≤ 8192 then 0xa
  else if size ≤ 16384 then 0xb
  else if size ≤ 32768 then 0xc
  else if size ≤ 65536 then 0xd
  else if size ≤ 131072 then 0xe
  else 0xf

/-- `dect_mac_harq_get_buffer_status`. -/
def dectMacHarqGetBufferStatus (processNumber : Nat) (harq : Harq config) : Nat :=
  if bound : processNumber < config.harqProcessCount then
    bufferStatus (harq.processes ⟨processNumber, bound⟩).bufferSize
  else 0

/-- `dect_mac_harq_remove_buffer_space`. The byte count is narrowed to eight bits. -/
def dectMacHarqRemoveBufferSpace (processNumber byteCount : Nat) (harq : Harq config) :
    ErrorCode × Harq config :=
  if bound : processNumber < config.harqProcessCount then
    let index : Fin config.harqProcessCount := ⟨processNumber, bound⟩
    if (harq.processes index).bufferSize < uint8 byteCount then (.bufferTooSmall, harq)
    else (.ok, harq.modify index fun process =>
      { process with bufferSize := process.bufferSize - uint8 byteCount })
  else (.invalidProcessNumber, harq)

/-! ### The sender -/

/-- The parameters of the TX_RX of a process. -/
def harqTxRxParams (config : Config) (process : HarqProcess) (startTime : Nat) : TxRxParams where
  handle := BitVec.ofNat 28 (handleHarq + process.processNumber)
  txUsage := .harq
  lbtEnable := false
  data := process.data
  dataSize := process.dataLen
  receiverId := process.receiverId
  feedback := Feedback.none
  harq := HarqTxParams.store process.redundancyVersion process.newDataIndication.toNat
    process.processNumber
  rxMode := config.modem.rxModeSingleShot
  rxPeriodMs := config.harqRxWaitingTimeMs
  startTime := startTime

/-- The queue item of a transmission of a process. -/
def harqItem (config : Config) (index : Fin config.harqProcessCount) (process : HarqProcess)
    (startTime : Nat) (priority : UInt32) : QueueItem :=
  ⟨.txRx (harqTxRxParams config process startTime), priority, .packet index process.packet⟩

/-- `dect_mac_harq_transmit`. `heap` is what `k_malloc` returns for the data. -/
def dectMacHarqTransmit (params : HarqTransmitParams) (heap : Option Nat)
    (system : System config) : Except Stop (ErrorCode × System config) :=
  match dectMacHarqTakeProcess system.phy.capabilities system.harq with
  | (none, harq) => .ok (.noFreeHarq, { system with harq := harq })
  | (some index, harq) =>
    match heap with
    | none => do
      let given ← dectMacHarqGiveProcess system.phy.capabilities index harq
      .ok (.noMemHeap, { system with harq := given })
    | some address => do
      let filled := harq.modify index fun process =>
        { process with
          data := some ⟨address, params.data.take params.dataLen⟩
          dataLen := params.dataLen
          receiverId := params.receiverId
          transmissionCount := 1 }
      let (code, queue) ← dectPhyQueuePut
        (harqItem config index (filled.processes index) params.startTime priorityHigh) system.queue
      .ok (code, { system with harq := filled, queue := queue })

/-- `dect_mac_harq_retransmit`. -/
def dectMacHarqRetransmit (index : Fin config.harqProcessCount) (system : System config) :
    Except Stop (ErrorCode × System config) := do
  let harq := system.harq.modify index fun process =>
    { process with transmissionCount := uint8 (process.transmissionCount + 1) }
  let process := harq.processes index
  let (_, powered) := dectMacNodeAddPower config process.receiverId process.transmissionCount
    system.phy.nodes
  let (_, reduced) := dectMacNodeReduceMcs system.phy.capabilities.mcsMax process.receiverId 1
    powered
  let (code, queue) ← dectPhyQueuePut (harqItem config index process 0 priorityMedium) system.queue
  .ok (code, { harq := harq, phy := { system.phy with nodes := reduced }, queue := queue })

/-- `dect_mac_harq_retransmission_work_handler`. -/
def dectMacHarqRetransmissionWorkHandler (index : Fin config.harqProcessCount)
    (system : System config) : Except Stop (System config) := do
  if (system.harq.processes index).transmissionCount < config.harqMaxTransmissions then
    let (_, retransmitted) ← dectMacHarqRetransmit index system
    .ok retransmitted
  else
    let given ← dectMacHarqGiveProcess system.phy.capabilities index system.harq
    .ok { system with harq := given }

/-- The feedback word a header carries, read back through the byte view. -/
def headerFeedback (header : PhyHeader) : FeedbackInfo :=
  (0 : FeedbackInfo)
    |> FeedbackByte.hi.set (Type2.feedbackInfoHi.get header)
    |> FeedbackByte.lo.set (Type2.feedbackInfoLo.get header)

/-- The process number a feedback header names. Both formats have it in the same bits. -/
def feedbackProcess (header : PhyHeader) : Nat :=
  Format1.harqProcessNumber.get (headerFeedback header)

/-- `dect_mac_harq_response`. -/
def dectMacHarqResponse (capabilities : Capabilities) (header : PhyHeader) (harq : Harq config) :
    Except Stop (Harq config) := do
  if Type2.feedbackFormat.get header = feedbackFormat1 then
    let index ← processIndex config (feedbackProcess header)
    if Format1.transmissionFeedback.get (headerFeedback header) = ack then
      dectMacHarqGiveProcess capabilities index (cancelWork index harq)
    else
      .ok (scheduleWork index (harq.modify index fun process =>
        { process with
          redundancyVersion := dectMacHarqIncrementRedundancyVersion process.redundancyVersion }))
  else if Type2.feedbackFormat.get header = feedbackFormat6 then
    let index ← processIndex config (feedbackProcess header)
    .ok (scheduleWork index (harq.modify index fun process =>
      { process with redundancyVersion := 0 }))
  else .ok harq

/-! ### The receiver -/

/-- The feedback of format 6: the packet does not fit the soft buffer share. -/
def format6Feedback (processNumber cqi status : Nat) : Feedback where
  format := feedbackFormat6
  info := (0 : FeedbackInfo)
    |> Format6.harqProcessNumber.set processNumber
    |> Format6.channelQualityIndicator.set cqi
    |> Format6.bufferStatus.set status
    |> Format6.reserved.set 0

/-- The feedback of format 1, a NACK until the modem changes it. -/
def format1Feedback (processNumber cqi status : Nat) : Feedback where
  format := feedbackFormat1
  info := (0 : FeedbackInfo)
    |> Format1.channelQualityIndicator.set cqi
    |> Format1.transmissionFeedback.set nack
    |> Format1.harqProcessNumber.set processNumber
    |> Format1.bufferStatus.set status

/-- The parameters of the reply to a request. -/
def replyParams (config : Config) (header : PhyHeader) (startTime : Nat) (feedback : Feedback) :
    TxHarqParams where
  handle := BitVec.ofNat 28 (handleHarq + Type2.dfHarqProcessNr.get header) ||| (1#28 <<< 27)
  lbtEnable := false
  data := none
  dataSize := 0
  receiverId := transmitterId header
  feedback := feedback
  startTime := (startTime + (3 + Type2.packetLength.get header) * 10000 / 24 *
    config.modem.modemTimeTickRateKhz / 1000) % 2 ^ 64

/-- The part of a request that changes the process table: the process is initialized whether
or not it is in use, and its soft buffer shrinks by the announced packet. -/
def requestProcess (capabilities : Capabilities) (header : PhyHeader) (harq : Harq config) :
    Except Stop (Harq config) := do
  let number := Type2.dfHarqProcessNr.get header
  let index ← processIndex config number
  let bytes := dectMacUtilsGetBytesFromPacketLength (Type2.packetLength.get header)
    (Type2.dfMcs.get header)
  .ok (dectMacHarqRemoveBufferSpace number bytes
    (harq.modify index (dectMacHarqInitProcess config capabilities number))).2

/-- The feedback a request is answered with, for a channel quality. -/
def requestFeedback (capabilities : Capabilities) (header : PhyHeader) (cqi : Nat)
    (harq : Harq config) : Feedback :=
  let number := Type2.dfHarqProcessNr.get header
  let bytes := dectMacUtilsGetBytesFromPacketLength (Type2.packetLength.get header)
    (Type2.dfMcs.get header)
  let status := dectMacHarqGetBufferStatus number harq
  if bytes > softBufferShare config capabilities then format6Feedback number cqi status
  else format1Feedback number cqi status

/-- `dect_mac_harq_request`: the reply bypasses the queue, and a placeholder is queued for it. -/
def dectMacHarqRequest (header : PhyHeader) (startTime : Nat) (ret : Int)
    (system : System config) : Except Stop (ErrorCode × System config) := do
  let harq ← requestProcess system.phy.capabilities header system.harq
  let (cqi, nodes) ← dectMacNodeGetCqi config system.phy.capabilities.mcsMax
    (transmitterId header) system.phy.nodes
  let feedback := requestFeedback system.phy.capabilities header cqi harq
  let provenance := Provenance.reply harq.replies
  let phy ← dectMacPhyHandlerTxHarq config (replyParams config header startTime feedback)
    ⟨provenance, false⟩ ret { system.phy with nodes := nodes }
  let (code, queue) ← dectPhyQueuePut ⟨.placeholder, priorityCritical, provenance⟩ system.queue
  .ok (code, { harq := { harq with replies := harq.replies + 1 }, phy := phy, queue := queue })

end DectHarq
