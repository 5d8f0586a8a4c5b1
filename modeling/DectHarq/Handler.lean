/-
This file models the handler functions between the program and the modem.

The modem is outside the program. It is a list of accepted operations, each waiting for
its completion; a call is accepted when its return code is zero, and the return code is
chosen freely. The fields of an accepted operation after its request are marks of the
specification and of the modem; the program sees a request only through the handle and
the error that a callback carries.
-/

import DectHarq.Node
import DectHarq.Queue

namespace DectHarq

/-! ### The modem -/

/-- `nrf_modem_dect_phy_tx_params`, with the header it points to. -/
structure PhyTxParams where
  startTime : Nat
  handle : BitVec 32
  networkId : Nat
  phyType : Nat
  lbtRssiThresholdMax : Int
  lbtPeriod : Nat
  carrier : Nat
  header : PhyHeader
  bsCqi : Nat
  data : Option Buffer
  dataSize : Nat
  deriving DecidableEq

/-- `nrf_modem_dect_phy_rx_params`. -/
structure PhyRxParams where
  startTime : Nat
  handle : BitVec 32
  networkId : Nat
  mode : Nat
  rssiInterval : Nat
  linkId : Nat
  rssiLevel : Int
  carrier : Nat
  duration : Nat
  filterShortNetworkId : Nat
  filterIsShortNetworkIdUsed : Bool
  filterReceiverIdentity : Nat
  deriving DecidableEq

/-- `nrf_modem_dect_phy_rssi_params`. -/
structure PhyRssiParams where
  startTime : Nat
  handle : BitVec 32
  carrier : Nat
  duration : Nat
  reportingInterval : Nat
  deriving DecidableEq

/-- A call of the modem library. -/
inductive ModemRequest
  | capabilityGet
  | init
  | deinit
  | rx (params : PhyRxParams)
  | tx (params : PhyTxParams)
  | txHarq (params : PhyTxParams)
  | txRx (tx : PhyTxParams) (rx : PhyRxParams)
  | rssi (params : PhyRssiParams)
  | rxStop (handle : BitVec 32)
  | timeGet
  deriving DecidableEq

/-- The handle an operation completes with, for the operations that complete through
`op_complete`. -/
def ModemRequest.completionHandle : ModemRequest → Option (BitVec 32)
  | .rx params => some params.handle
  | .tx params => some params.handle
  | .txHarq params => some params.handle
  | .txRx transmission _ => some transmission.handle
  | .rssi params => some params.handle
  | _ => none

/-- Whether a request is a combined operation, which completes twice. -/
def ModemRequest.isTxRx : ModemRequest → Bool
  | .txRx _ _ => true
  | _ => false

/-- Whether a request is an RSSI measurement, which reports before it completes. -/
def ModemRequest.isRssi : ModemRequest → Bool
  | .rssi _ => true
  | _ => false

/-- Who a call is made for, and whether the PHY token is held for it. -/
structure Origin where
  provenance : Provenance
  awaited : Bool
  deriving DecidableEq

/-- An operation the modem accepted. `awaited` says that the executor gave its token to the
operation, directly or through a placeholder; `secondHalf` that the transmission of a
combined operation completed, `retried` that it failed there and the retry took over;
`reported` that an RSSI measurement was reported. -/
structure ModemOp where
  request : ModemRequest
  provenance : Provenance
  awaited : Bool
  secondHalf : Bool
  retried : Bool
  reported : Bool
  deriving DecidableEq

/-- The part of `dect_capabilities` that the program reads. -/
structure Capabilities where
  mcsMax : Nat
  harqSoftBufSize : Nat
  deriving DecidableEq

/-- The state of the handler module, the node table and the modem. The last field logs all
calls of the modem with their return codes; nothing reads it. -/
structure Phy where
  currentState : PhyState
  capabilities : Capabilities
  deviceId : Nat
  nodes : NodeTable
  modem : List ModemOp
  modemCalls : List (ModemRequest × Int)

/-- A call of the modem: it is accepted when it returns zero. -/
def Phy.call (phy : Phy) (request : ModemRequest) (origin : Origin) (ret : Int) : Phy :=
  { phy with
    modem :=
      if ret = 0 then
        phy.modem ++ [⟨request, origin.provenance, origin.awaited, false, false, false⟩]
      else phy.modem
    modemCalls := phy.modemCalls ++ [(request, ret)] }

/-! ### Handles -/

/-- `(function << 28) | (handle & 0x0fffffff)`. -/
def composeHandle (function : Nat) (handle : BitVec 28) : BitVec 32 :=
  (BitVec.ofNat 32 function <<< 28) ||| (handle.setWidth 32 &&& 0x0fffffff#32)

/-- `handle |= (1 << 27)`. -/
def withQueueBit (handle : BitVec 28) : BitVec 28 := handle ||| (1#28 <<< 27)

/-! ### The transmission parameters -/

section TxConfig

variable (config : Config) (mcsMax : Nat)

/-- What the fit search leaves in the local variables of `tx_config`. -/
structure Fit where
  txPower : Nat
  dfMcs : Nat
  packetLength : Nat
  deriving DecidableEq

/-- The loop that raises the MCS until the data fits, with a bound on its iterations. -/
def fitLoop (receiverId dataSize : Nat) : Nat → NodeTable → Except Stop (Fit × NodeTable)
  | 0, _ => .error .blocked
  | fuel + 1, nodes => do
    let (canAugmentMcs, reduced) := dectMacNodeReduceMcs mcsMax receiverId (-1) nodes
    let (_, raised) := dectMacNodeAddPower config receiverId 1 reduced
    let (mcs, readMcs) ← dectMacNodeGetMcs config mcsMax receiverId raised
    let dfMcs := uint32 mcs
    let (txPower, readPower) ← dectMacNodeGetTxPower config mcsMax receiverId readMcs
    let (foundPacketLength, packetLength) ← dectMacUtilsGetPacketLength dataSize dfMcs
    if canAugmentMcs = .ok ∧ foundPacketLength ≠ .ok then
      fitLoop receiverId dataSize fuel readPower
    else .ok (⟨txPower, dfMcs, packetLength⟩, readPower)

/-- More iterations than there are values of the MCS byte. -/
def fitFuel : Nat := 512

/-- The first half of `tx_config`: the power, the MCS and the packet length for a receiver. -/
def fitPacket (receiverId dataSize : Nat) (nodes : NodeTable) :
    Except Stop (Fit × NodeTable) := do
  let (txPower, readPower) ← dectMacNodeGetTxPower config mcsMax receiverId nodes
  let (mcs, readMcs) ← dectMacNodeGetMcs config mcsMax receiverId readPower
  let dfMcs := uint32 mcs
  let (ret, packetLength) ← dectMacUtilsGetPacketLength dataSize dfMcs
  let (fit, fitted) ←
    if ret ≠ .ok then fitLoop config mcsMax receiverId dataSize fitFuel readMcs
    else .ok (⟨txPower, dfMcs, packetLength⟩, readMcs)
  if dataSize = 0 then .ok (⟨fit.txPower, 0, 0⟩, fitted) else .ok (fit, fitted)

/-- The header of a beacon. -/
def type1Header (deviceId : Nat) (fit : Fit) : PhyHeader :=
  (0 : PhyHeader)
    |> Type1.headerFormat.set headerFormat000
    |> Type1.packetLengthType.set 0
    |> Type1.packetLength.set fit.packetLength
    |> Type1.shortNetworkId.set (config.networkId &&& 0xff)
    |> Type1.transmitterIdHi.set (deviceId >>> 8)
    |> Type1.transmitterIdLo.set (deviceId &&& 0xff)
    |> Type1.transmitPower.set fit.txPower
    |> Type1.reserved.set 0
    |> Type1.dfMcs.set fit.dfMcs

/-- The fields a type 2 header has in every usage. -/
def type2Common (deviceId : Nat) (input : TxParams) (fit : Fit) : PhyHeader :=
  (0 : PhyHeader)
    |> Type2.packetLengthType.set 0
    |> Type2.packetLength.set fit.packetLength
    |> Type2.shortNetworkId.set (config.networkId &&& 0xff)
    |> Type2.transmitterIdHi.set (deviceId >>> 8)
    |> Type2.transmitterIdLo.set (deviceId &&& 0xff)
    |> Type2.transmitPower.set fit.txPower
    |> Type2.dfMcs.set fit.dfMcs
    |> Type2.receiverIdHi.set (input.receiverId >>> 8)
    |> Type2.receiverIdLo.set (input.receiverId &&& 0xff)
    |> Type2.spatialStreams.set 0
    |> Type2.feedbackFormat.set input.feedback.format
    |> Type2.feedbackInfoHi.set (FeedbackByte.hi.get input.feedback.info)
    |> Type2.feedbackInfoLo.set (FeedbackByte.lo.get input.feedback.info)

/-- The header of a transmission that is not a beacon. -/
def type2Header (deviceId : Nat) (input : TxParams) (fit : Fit) : PhyHeader :=
  if input.txUsage = .harq then
    type2Common config deviceId input fit
      |> Type2.headerFormat.set headerFormat000
      |> Type2.dfRedVersion.set input.harq.redundancyVersion
      |> Type2.dfInd.set input.harq.newDataIndication
      |> Type2.dfHarqProcessNr.set input.harq.harqProcessNr
  else
    type2Common config deviceId input fit
      |> Type2.headerFormat.set headerFormat001
      |> Type2.dfRedVersion.set 0
      |> Type2.dfInd.set 0
      |> Type2.dfHarqProcessNr.set 0

/-- `dect_mac_phy_handler_tx_config`. -/
def dectMacPhyHandlerTxConfig (deviceId : Nat) (input : TxParams) (nodes : NodeTable) :
    Except Stop (PhyTxParams × NodeTable) := do
  let (fit, fitted) ← fitPacket config mcsMax input.receiverId input.dataSize nodes
  .ok ({
    startTime := input.startTime
    handle := composeHandle functionTx input.handle
    networkId := config.networkId
    phyType := if input.txUsage = .beacon then headerType1 else headerType2
    lbtRssiThresholdMax := config.rssiTarget
    lbtPeriod := if input.lbtEnable then config.modem.lbtPeriodMax else 0
    carrier := config.carrier
    header :=
      if input.txUsage = .beacon then type1Header config deviceId fit
      else type2Header config deviceId input fit
    bsCqi := config.modem.bsCqiNotUsed
    data := input.data
    dataSize := input.dataSize }, fitted)

end TxConfig

/-- `dect_mac_phy_handler_rx_config`. -/
def dectMacPhyHandlerRxConfig (config : Config) (input : RxParams) : PhyRxParams where
  startTime := input.startTime
  handle := composeHandle functionRx input.handle
  networkId := config.networkId
  mode := input.rxMode
  rssiInterval := config.modem.rssiIntervalOff
  linkId := config.modem.linkUnspecified
  rssiLevel := config.rssiTarget
  carrier := config.carrier
  duration := input.rxPeriodMs * 69120 % 4294967296
  filterShortNetworkId := config.networkId % 256
  filterIsShortNetworkIdUsed := true
  filterReceiverIdentity := 0

/-! ### The handler functions -/

section Handlers

variable (config : Config)

/-- The shape of the handlers without parameters of the modem call that can fail: indicate the
state, then call. -/
def simpleHandler (state : PhyState) (request : ModemRequest) (origin : Origin) (ret : Int)
    (phy : Phy) : Phy :=
  { phy with currentState := state }.call request origin ret

def dectMacPhyHandlerCapabilityGet := simpleHandler .gettingCapability .capabilityGet

def dectMacPhyHandlerInit := simpleHandler .initializing .init

def dectMacPhyHandlerDeinit := simpleHandler .deinitializing .deinit

def dectMacPhyHandlerTimeGet := simpleHandler .gettingTime .timeGet

def dectMacPhyHandlerRxStop (params : RxStopParams) :=
  simpleHandler .stoppingReception (.rxStop params.handle)

def dectMacPhyHandlerRx (params : RxParams) :=
  simpleHandler .receiving (.rx (dectMacPhyHandlerRxConfig config params))

def dectMacPhyHandlerRssi (params : RssiParams) :=
  simpleHandler .measuringRssi (.rssi {
    startTime := params.startTime
    handle := params.handle.setWidth 32
    carrier := config.carrier
    duration := params.duration
    reportingInterval := params.reportingInterval })

/-- `dect_mac_phy_handler_link_config` is not implemented. -/
def dectMacPhyHandlerLinkConfig (phy : Phy) : Phy := phy

/-- `dect_mac_phy_handler_tx`. -/
def dectMacPhyHandlerTx (params : TxParams) (origin : Origin) (ret : Int) (phy : Phy) :
    Except Stop Phy := do
  let (trueParams, nodes) ← dectMacPhyHandlerTxConfig config phy.capabilities.mcsMax
    phy.deviceId params phy.nodes
  .ok ({ phy with nodes := nodes, currentState := .transmitting }.call (.tx trueParams) origin ret)

/-- The transmission parameters a TX_HARQ is converted to. -/
def TxHarqParams.toTx (params : TxHarqParams) : TxParams where
  handle := params.handle
  txUsage := .noHarq
  lbtEnable := params.lbtEnable
  data := params.data
  dataSize := params.dataSize
  receiverId := params.receiverId
  feedback := params.feedback
  harq := HarqTxParams.none
  startTime := params.startTime

/-- `dect_mac_phy_handler_tx_harq`. It does not change the current state. -/
def dectMacPhyHandlerTxHarq (params : TxHarqParams) (origin : Origin) (ret : Int) (phy : Phy) :
    Except Stop Phy := do
  let (trueParams, nodes) ← dectMacPhyHandlerTxConfig config phy.capabilities.mcsMax
    phy.deviceId params.toTx phy.nodes
  .ok ({ phy with nodes := nodes }.call
    (.txHarq { trueParams with handle := composeHandle functionTxHarq params.handle }) origin ret)

/-- The transmission parameters of a TX_RX. -/
def TxRxParams.toTx (params : TxRxParams) : TxParams where
  handle := params.handle
  txUsage := params.txUsage
  lbtEnable := params.lbtEnable
  data := params.data
  dataSize := params.dataSize
  receiverId := params.receiverId
  feedback := params.feedback
  harq := params.harq
  startTime := params.startTime

/-- The reception parameters of a TX_RX. -/
def TxRxParams.toRx (params : TxRxParams) : RxParams where
  handle := params.handle
  rxMode := params.rxMode
  rxPeriodMs := params.rxPeriodMs
  receiverIdentity := params.receiverId % 65536
  startTime := 0

/-- `dect_mac_phy_handler_tx_rx`. -/
def dectMacPhyHandlerTxRx (params : TxRxParams) (origin : Origin) (ret : Int) (phy : Phy) :
    Except Stop Phy := do
  let (trueTxParams, nodes) ← dectMacPhyHandlerTxConfig config phy.capabilities.mcsMax
    phy.deviceId params.toTx phy.nodes
  let handle := composeHandle functionTxRx params.handle
  .ok ({ phy with nodes := nodes, currentState := .transmitting }.call
    (.txRx { trueTxParams with handle := handle }
      { dectMacPhyHandlerRxConfig config params.toRx with handle := handle }) origin ret)

/-- The handler an operation names. Neither a placeholder nor an unknown code has one. -/
def callHandler (operation : Operation) (origin : Origin) (ret : Int) (phy : Phy) :
    Except Stop Phy :=
  match operation with
  | .capabilityGet => .ok (dectMacPhyHandlerCapabilityGet origin ret phy)
  | .init => .ok (dectMacPhyHandlerInit origin ret phy)
  | .deinit => .ok (dectMacPhyHandlerDeinit origin ret phy)
  | .rx params => .ok (dectMacPhyHandlerRx config params origin ret phy)
  | .tx params => dectMacPhyHandlerTx config params origin ret phy
  | .txHarq params => dectMacPhyHandlerTxHarq config params origin ret phy
  | .txRx params => dectMacPhyHandlerTxRx config params origin ret phy
  | .rssi params => .ok (dectMacPhyHandlerRssi config params origin ret phy)
  | .rxStop params => .ok (dectMacPhyHandlerRxStop params origin ret phy)
  | .linkConfig => .ok (dectMacPhyHandlerLinkConfig phy)
  | .timeGet => .ok (dectMacPhyHandlerTimeGet origin ret phy)
  | .placeholder => .error .disabled
  | .unknown _ => .error .disabled

/-- The executor sets the queue bit in the handle of four kinds of operations. -/
def Operation.fromQueue : Operation → Operation
  | .rx params => .rx { params with handle := withQueueBit params.handle }
  | .tx params => .tx { params with handle := withQueueBit params.handle }
  | .txHarq params => .txHarq { params with handle := withQueueBit params.handle }
  | .txRx params => .txRx { params with handle := withQueueBit params.handle }
  | other => other

/-- A placeholder gives the executor's token to the reply it was put for. This is bookkeeping of
the specification: the modem and the program know nothing of it. -/
def Phy.awaitReply (phy : Phy) (provenance : Provenance) : Phy :=
  match provenance with
  | .reply number =>
    { phy with modem := phy.modem.map fun op =>
        if op.provenance = .reply number then { op with awaited := true } else op }
  | _ => phy

/-- The switch of `dect_mac_phy_handler_queue_function_execute`. -/
def executeSwitch (operation : Operation) (provenance : Provenance) (ret : Int) (phy : Phy) :
    Except Stop (ErrorCode × Phy) :=
  match operation with
  | .placeholder => .ok (.ok, { phy.awaitReply provenance with currentState := .unknown })
  | .unknown _ => .ok (.funcNotExist, phy)
  | handled => do
    let called ← callHandler config handled.fromQueue ⟨provenance, true⟩ ret phy
    .ok (.ok, called)

/-- `dect_mac_phy_handler_queue_function_execute`: save the operation as the current node, then
switch. The retry timer passes the current node's own parameters, in which the queue bit
then stays set. -/
def dectMacPhyHandlerQueueFunctionExecute (operation : Operation) (provenance : Provenance)
    (inPlace : Bool) (ret : Int) (queue : Queue) (phy : Phy) :
    Except Stop (ErrorCode × Queue × Phy) := do
  let saved := { queue with
    currentOperation := if inPlace then operation.fromQueue else operation
    currentProvenance := provenance }
  let (code, executed) ← executeSwitch config operation provenance ret phy
  .ok (code, saved, executed)

end Handlers

end DectHarq
