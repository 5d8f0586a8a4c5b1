/-
This file models the callbacks of the modem.

A callback sees an operation only through its handle and its error. The completion
callback decides from the handle and from the global state whether a combined operation
turns from transmission to reception, whose HARQ process the transmission belonged to,
and whether the PHY token is given back.
-/

import DectHarq.Harq

namespace DectHarq

/-- `nrf_modem_dect_phy_rx_pcc_status`, as far as it is read. -/
structure PccStatus where
  phyType : Nat
  stfStartTime : Nat
  rssi2 : Int
  snr : Int
  deriving DecidableEq

variable {config : Config}

/-- `handle >> 28`. -/
def handleFunction (handle : BitVec 32) : Nat := (handle >>> 28).toNat

/-- `(handle & 0x07FFFFF0) == HANDLE_HARQ`. -/
def isHarqHandle (handle : BitVec 32) : Bool :=
  handle &&& 0x07FFFFF0#32 = BitVec.ofNat 32 handleHarq

/-- `handle & 0x0000000F`. -/
def handleProcess (handle : BitVec 32) : Nat := (handle &&& 0x0000000F#32).toNat

/-- `((handle & (1 << 27)) >> 27) == 1`. -/
def isFromQueue (handle : BitVec 32) : Bool := (handle &&& (1#32 <<< 27)) >>> 27 = 1#32

/-- The completion turns a combined operation from transmission to reception. -/
def turnsToReception (state : PhyState) (handle : BitVec 32) : Bool :=
  state = .transmitting ∧ handleFunction handle = functionTxRx

/-- `dect_mac_phy_op_complete_cb`. -/
def dectMacPhyOpCompleteCb (err : PhyErr) (handle : BitVec 32) (system : System config) :
    Except Stop (System config) := do
  if err ≠ .success then
    if err = .invalidStartTime then
      .ok { system with queue := dectMacPhyHandlerQueueOperationFailedRetry system.queue }
    else .ok system
  else if turnsToReception system.phy.currentState handle then
    let receiving := { system with phy := { system.phy with currentState := .receiving } }
    if isHarqHandle handle then
      let index ← processIndex config (handleProcess handle)
      .ok { receiving with harq := scheduleWork index receiving.harq }
    else .ok receiving
  else if isFromQueue handle then .ok { system with queue := system.queue.givePhy }
  else .ok system

/-- `dect_mac_phy_rssi_cb`. -/
def dectMacPhyRssiCb (system : System config) : System config :=
  { system with queue := system.queue.givePhy }

/-- The callbacks of init, deinit, time get and link config: give the token unless there was an
error. -/
def managementCb (err : PhyErr) (system : System config) : System config :=
  if err = .success then { system with queue := system.queue.givePhy } else system

/-- `dect_mac_phy_capability_get_cb`. -/
def dectMacPhyCapabilityGetCb (err : PhyErr) (capability : Capabilities)
    (system : System config) : System config :=
  if err = .success then
    { system with
      phy := { system.phy with capabilities := capability }
      queue := system.queue.givePhy }
  else system

/-- `dect_mac_phy_rx_stop_cb`: it never gives the token. -/
def dectMacPhyRxStopCb (_err : PhyErr) (system : System config) : System config := system

/-- The receiver filter of a request: this network, and this device or the broadcast id. -/
def requestAddressed (config : Config) (deviceId : Nat) (header : PhyHeader) : Bool :=
  Type2.shortNetworkId.get header = config.networkId &&& 0xff ∧
    ((Type2.receiverIdHi.get header = deviceId >>> 8 ∧
        Type2.receiverIdLo.get header = deviceId &&& 0xff) ∨
      (Type2.receiverIdHi.get header = 0xff ∧ Type2.receiverIdLo.get header = 0xff))

/-- The receiver filter of a response. Its broadcast clause compares the high byte twice. -/
def responseAddressed (config : Config) (deviceId : Nat) (header : PhyHeader) : Bool :=
  Type2.shortNetworkId.get header = config.networkId &&& 0xff ∧
    ((Type2.receiverIdHi.get header = deviceId >>> 8 ∧
        Type2.receiverIdLo.get header = deviceId &&& 0xff) ∨
      (Type2.receiverIdHi.get header = 0xff ∧ Type2.receiverIdHi.get header = 0xff))

/-- The node update every received header makes, read through the type 1 view. The RSSI comes
in half dBm and the SNR in quarter dB. -/
def pccOptimize (config : Config) (status : PccStatus) (header : PhyHeader) (phy : Phy) :
    Except Stop Phy := do
  let (_, nodes) ← dectMacNodeOptimize config phy.capabilities.mcsMax
    (Type1.transmitterIdHi.get header <<< 8 ||| Type1.transmitterIdLo.get header)
    (status.rssi2.tdiv 2) (status.snr.tdiv 4) (Type1.transmitPower.get header) phy.nodes
  .ok { phy with nodes := nodes }

/-- `dect_mac_phy_pcc_cb`. -/
def dectMacPhyPccCb (status : PccStatus) (header : PhyHeader) (ret : Int)
    (system : System config) : Except Stop (System config) := do
  let phy ← pccOptimize config status header system.phy
  let optimized := { system with phy := phy }
  if status.phyType = headerType2 then
    if Type2.headerFormat.get header = headerFormat000 then
      if requestAddressed config phy.deviceId header then
        let (_, requested) ← dectMacHarqRequest header status.stfStartTime ret optimized
        .ok requested
      else .ok optimized
    else if Type2.headerFormat.get header = headerFormat001 then
      if responseAddressed config phy.deviceId header then
        if Type2.feedbackFormat.get header = feedbackFormat1 ∨
            Type2.feedbackFormat.get header = feedbackFormat6 then
          let harq ← dectMacHarqResponse phy.capabilities header system.harq
          .ok { optimized with harq := harq }
        else .ok optimized
      else .ok optimized
    else .ok optimized
  else .ok optimized

end DectHarq
