/-
This file proves that a HARQ transmission and its reply find their way.

The header that the sender builds for a process passes the receiver's filter and is
read back there as it was encoded; the receiver answers with exactly one TX_HARQ. The
header of the reply passes the sender's filter and reaches the response function on
the process it is about. The way back goes through the feedback word, of which the
modem changes one bit.
-/

import DectHarq.Headers
import DectHarq.NodeRecords
import DectHarq.QueueBooks

namespace DectHarq

variable {config : Config} {mcsMax : Nat}

/-! ### Serving a peer -/

/-- The table can serve a peer: it has a record, or its allocations return memory and the
modem's largest MCS is one that the length table has. -/
def NodeTable.Serves (mcsMax address : Nat) (nodes : NodeTable) : Prop :=
  (nodes.get address).isSome = true ∨ (nodes.Allocates ∧ mcsMax ≤ 4)

/-- What is read for a peer indexes the length table: the MCS of its record, or the default. -/
structure NodeTable.Usable (mcsMax address : Nat) (nodes : NodeTable) : Prop where
  record : ∀ node, nodes.get address = some node → 0 ≤ node.mcs ∧ node.mcs ≤ 4
  missing : nodes.get address = none → nodes.Allocates ∧ mcsMax ≤ 4

theorem allocated_allocates {nodes : NodeTable} (allocates : nodes.Allocates) :
    nodes.allocated.Allocates := fun later => allocates (later + 1)

/-- A creation that gets memory returns: the record is there, or the table is as before. -/
theorem createNode_returns (address txPower : Nat) (mcs : Int) {nodes : NodeTable}
    (allocates : nodes.Allocates) :
    ∃ code after, dectMacNodeCreateNode address txPower mcs nodes = .ok (code, after) ∧
      after.Allocates ∧
      (after.get address = some ⟨address, false, txPower, mcs⟩ ∨
        after.get address = nodes.get address) := by
  have later := allocated_allocates allocates
  unfold dectMacNodeCreateNode
  cases outcome : nodes.allocations 0 with
  | nullPointer => exact absurd outcome (allocates 0)
  | inserted => exact ⟨_, _, rfl, later, Or.inl (NodeTable.get_put_self _ _ _)⟩
  | noMemory => exact ⟨_, _, rfl, later, Or.inr rfl⟩
  | noSpace => exact ⟨_, _, rfl, later, Or.inr rfl⟩
  | unexpected => exact ⟨_, _, rfl, later, Or.inr rfl⟩

theorem int8_mcsMax {mcsMax : Nat} (small : mcsMax ≤ 4) : int8 mcsMax = mcsMax :=
  int8_eq_self (by omega) (by omega)

/-- A getter for a peer that is served returns what its record says, or the default, and the
peer is served afterwards. -/
theorem NodeTable.Usable.getOrCreate {Value : Type} {address : Nat} {nodes : NodeTable}
    (usable : nodes.Usable mcsMax address) (config : Config) (read : Node → Value)
    (default : Value) :
    ∃ value after, getOrCreate config mcsMax read default address nodes = .ok (value, after) ∧
      after.Usable mcsMax address ∧
      ((∃ node, 0 ≤ node.mcs ∧ node.mcs ≤ 4 ∧ value = read node) ∨
        (mcsMax ≤ 4 ∧ value = default)) := by
  unfold DectHarq.getOrCreate
  cases found : nodes.get address with
  | some node =>
    obtain ⟨low, high⟩ := usable.record node found
    refine ⟨_, _, rfl, ⟨fun other same => ?_, fun none => ?_⟩, Or.inl ⟨node, low, high, rfl⟩⟩
    · rw [NodeTable.get_put_self] at same
      rw [← Option.some.inj same]
      exact ⟨low, high⟩
    · rw [NodeTable.get_put_self] at none
      cases none
  | none =>
    obtain ⟨allocates, small⟩ := usable.missing found
    obtain ⟨code, after, created, still, outcome⟩ :=
      createNode_returns address config.txPower (int8 mcsMax) allocates
    dsimp only
    rw [created]
    refine ⟨default, after, rfl, ⟨fun node same => ?_, fun _ => ⟨still, small⟩⟩,
      Or.inr ⟨small, rfl⟩⟩
    rcases outcome with inserted | absent
    · rw [inserted] at same
      rw [← Option.some.inj same]
      dsimp only
      rw [int8_mcsMax small]
      omega
    · rw [absent, found] at same
      cases same

/-- The optimization after a received header returns when the peer has a record or gets one. -/
theorem optimize_returns (config : Config) (mcsMax address : Nat) (rssi2 snr : Int)
    (received : Nat) {nodes : NodeTable}
    (available : (nodes.get address).isSome = true ∨ nodes.Allocates) :
    ∃ code after, dectMacNodeOptimize config mcsMax address rssi2 snr received nodes =
      .ok (code, after) := by
  unfold dectMacNodeOptimize dectMacNodeContainsNode
  by_cases known : (nodes.get address).isSome = true
  · rw [if_pos known]
    exact ⟨_, _, rfl⟩
  · rw [if_neg known]
    obtain ⟨code, after, created, _⟩ := createNode_returns address config.txPower (int8 mcsMax)
      (available.resolve_left known)
    rw [created]
    exact ⟨_, _, rfl⟩

theorem wantedMcs_good {snr : Int} (good : 4 ≤ snr) : 0 ≤ wantedMcs snr ∧ wantedMcs snr ≤ 4 := by
  unfold wantedMcs
  split_ifs <;> omega

theorem updateNode_allocations (update : Node → Node × ErrorCode) (address : Nat)
    (nodes : NodeTable) :
    (updateNode update address nodes).2.allocations = nodes.allocations := by
  unfold updateNode
  split <;> rfl

/-- With a signal of at least 4 dB the peer can be served after the optimization. -/
theorem optimize_usable {address received : Nat} {rssi2 snr : Int} {nodes after : NodeTable}
    {code : ErrorCode} (serves : nodes.Serves mcsMax address) (good : 4 ≤ snr)
    (optimized : dectMacNodeOptimize config mcsMax address rssi2 snr received nodes =
      .ok (code, after)) : after.Usable mcsMax address := by
  obtain ⟨low, high⟩ := wantedMcs_good good
  have tuned {present : NodeTable} {power : Nat}
      (missing : present.get address = none → present.Allocates ∧ mcsMax ≤ 4) :
      (dectMacNodeSetMcs address (wantedMcs snr)
        (dectMacNodeSetTxPower address power present).2).2.Usable mcsMax address := by
    have final : (dectMacNodeSetMcs address (wantedMcs snr)
        (dectMacNodeSetTxPower address power present).2).2.get address =
        (present.get address).map fun node =>
          ⟨node.address, true, power, wantedMcs snr⟩ := by
      rw [get_tuned, if_pos rfl]
    refine ⟨fun node found => ?_, fun none => ?_⟩
    · rw [final] at found
      obtain ⟨old, _, rfl⟩ := Option.map_eq_some_iff.mp found
      exact ⟨low, high⟩
    · rw [final] at none
      obtain ⟨allocates, small⟩ := missing (Option.map_eq_none_iff.mp none)
      refine ⟨fun later => ?_, small⟩
      rw [dectMacNodeSetMcs, updateNode_allocations, dectMacNodeSetTxPower, updateNode_allocations]
      exact allocates later
  unfold dectMacNodeOptimize dectMacNodeContainsNode at optimized
  dsimp only at optimized
  by_cases known : (nodes.get address).isSome = true
  · rw [if_pos known] at optimized
    cases optimized
    exact tuned fun none => by rw [none] at known; cases known
  · rw [if_neg known] at optimized
    obtain ⟨allocates, small⟩ := serves.resolve_left known
    obtain ⟨created, present, same, still, _⟩ := createNode_returns address config.txPower
      (int8 mcsMax) allocates
    rw [same] at optimized
    cases optimized
    exact tuned fun _ => ⟨still, small⟩

/-- Every row of the length table starts with a capacity that holds no data. -/
theorem packetLength_zero {mcs : Nat} (small : mcs ≤ 4) :
    dectMacUtilsGetPacketLength 0 mcs = .ok (.ok, 0) := by
  match mcs, small with
  | 0, _ => decide
  | 1, _ => decide
  | 2, _ => decide
  | 3, _ => decide
  | 4, _ => decide

/-- A transmission without data to a peer that is served is sent with the MCS 0 in one packet. -/
theorem fitPacket_empty {address : Nat} {nodes : NodeTable}
    (usable : nodes.Usable mcsMax address) (config : Config) :
    ∃ txPower after, fitPacket config mcsMax address 0 nodes = .ok (⟨txPower, 0, 0⟩, after) := by
  obtain ⟨txPower, readPower, gotPower, usablePower, _⟩ :=
    usable.getOrCreate config Node.txPower config.txPower
  obtain ⟨mcs, readMcs, gotMcs, _, value⟩ :=
    usablePower.getOrCreate config Node.mcs (int8 mcsMax)
  have range : 0 ≤ mcs ∧ mcs ≤ 4 := by
    rcases value with ⟨node, low, high, same⟩ | ⟨small, same⟩
    · rw [same]
      exact ⟨low, high⟩
    · rw [same, int8_mcsMax small]
      omega
  have small : uint32 mcs ≤ 4 := by
    clear gotMcs value
    unfold uint32
    omega
  refine ⟨txPower, readMcs, bind_ok.mpr ⟨_, gotPower, bind_ok.mpr ⟨_, gotMcs,
    bind_ok.mpr ⟨_, packetLength_zero small, ?_⟩⟩⟩⟩
  dsimp only
  rw [if_neg (fun failed => failed rfl)]
  rfl

/-- The channel quality indicator of a peer that is served fits its field. -/
theorem getCqi_returns {address : Nat} {nodes : NodeTable}
    (usable : nodes.Usable mcsMax address) (config : Config) :
    ∃ cqi after, dectMacNodeGetCqi config mcsMax address nodes = .ok (cqi, after) ∧
      after.Usable mcsMax address ∧ cqi < 16 := by
  obtain ⟨cqi, after, got, usableAfter, value⟩ := usable.getOrCreate config
    (fun node => uint8 (node.mcs + 1)) (uint8 (mcsMax + 1))
  refine ⟨cqi, after, got, usableAfter, ?_⟩
  rcases value with ⟨node, low, high, same⟩ | ⟨small, same⟩
  · rw [same, uint8]
    omega
  · rw [same, uint8]
    omega

/-! ### The reply -/

/-- What a request is answered with. -/
structure Replies (config : Config) (header : PhyHeader) (ret : Int) (system after : System config)
    (cqi : Nat) (reply : PhyTxParams) : Prop where
  /-- Exactly one call of the modem is made, and it is the TX_HARQ of the reply. -/
  once : after.phy.modemCalls = system.phy.modemCalls ++ [(.txHarq reply, ret)]
  /-- The quality is the receiver's for the transmitter of the request. -/
  quality : ∃ nodes, dectMacNodeGetCqi config system.phy.capabilities.mcsMax
    (transmitterId header) system.phy.nodes = .ok (cqi, nodes)
  fits : cqi < 16
  /-- The header of the reply carries the feedback of the request to its transmitter. -/
  built : ∃ txPower startTime, reply.header = type2Header config system.phy.deviceId
    (replyParams config header startTime
      (requestFeedback system.phy.capabilities header cqi after.harq)).toTx ⟨txPower, 0, 0⟩

/-- A request for a process of the table, from a peer that is served, is answered. -/
theorem harqRequest_replies {header : PhyHeader} {system : System config}
    (number : Type2.dfHarqProcessNr.get header < config.harqProcessCount)
    (usable : system.phy.nodes.Usable system.phy.capabilities.mcsMax (transmitterId header))
    (counted : system.queue.ItemsCounted) (startTime : Nat) (ret : Int) :
    ∃ code after cqi reply, dectMacHarqRequest header startTime ret system = .ok (code, after) ∧
      Replies config header ret system after cqi reply := by
  obtain ⟨harq, processed⟩ :
      ∃ harq, requestProcess system.phy.capabilities header system.harq = .ok harq :=
    ⟨_, bind_ok.mpr ⟨_, processIndex_of_lt number, rfl⟩⟩
  obtain ⟨cqi, nodes, got, usableAfter, fits⟩ := getCqi_returns usable config
  obtain ⟨txPower, configured, fitted⟩ := fitPacket_empty usableAfter config
  obtain ⟨code, queue, put⟩ := counted.put_returns ⟨.placeholder, priorityCritical,
    .reply harq.replies⟩
  refine ⟨code, _, cqi, _, bind_ok.mpr ⟨harq, processed, bind_ok.mpr ⟨_, got, bind_ok.mpr
    ⟨_, bind_ok.mpr ⟨_, bind_ok.mpr ⟨_, fitted, rfl⟩, rfl⟩, bind_ok.mpr ⟨_, put, rfl⟩⟩⟩⟩,
    rfl, ⟨nodes, got⟩, fits, txPower, startTime, rfl⟩

/-! ### The callback -/

theorem pccOptimize_returns (config : Config) (status : PccStatus) (header : PhyHeader) (phy : Phy)
    (available : (phy.nodes.get (Type1.transmitterIdHi.get header <<< 8 |||
      Type1.transmitterIdLo.get header)).isSome = true ∨ phy.nodes.Allocates) :
    ∃ nodes, pccOptimize config status header phy = .ok { phy with nodes := nodes } := by
  obtain ⟨code, nodes, optimized⟩ := optimize_returns config phy.capabilities.mcsMax _
    (status.rssi2.tdiv 2) (status.snr.tdiv 4) (Type1.transmitPower.get header) available
  exact ⟨nodes, bind_ok.mpr ⟨_, optimized, rfl⟩⟩

theorem pccCb_of_request {status : PccStatus} {header : PhyHeader} {ret : Int}
    {system after : System config} {nodes : NodeTable} {code : ErrorCode}
    (optimized : pccOptimize config status header system.phy =
      .ok { system.phy with nodes := nodes })
    (request : IsRequest config system.phy.deviceId status header)
    (handled : dectMacHarqRequest header status.stfStartTime ret (system.setNodes nodes) =
      .ok (code, after)) :
    dectMacPhyPccCb status header ret system = .ok after := by
  refine bind_ok.mpr ⟨_, optimized, ?_⟩
  dsimp only
  rw [if_pos request.1, if_pos request.2.1, if_pos request.2.2]
  exact bind_ok.mpr ⟨_, handled, rfl⟩

theorem pccCb_of_response {status : PccStatus} {header : PhyHeader} {ret : Int}
    {system : System config} {nodes : NodeTable} {harq : Harq config}
    (optimized : pccOptimize config status header system.phy =
      .ok { system.phy with nodes := nodes })
    (response : IsResponse config system.phy.deviceId status header)
    (handled : dectMacHarqResponse system.phy.capabilities header system.harq = .ok harq) :
    dectMacPhyPccCb status header ret system = .ok ((system.setNodes nodes).setHarq harq) := by
  have notRequest : ¬ Type2.headerFormat.get header = headerFormat000 := by
    rw [response.2.1]
    decide
  refine bind_ok.mpr ⟨_, optimized, ?_⟩
  dsimp only
  rw [if_pos response.1, if_neg notRequest, if_pos response.2.1, if_pos response.2.2.1,
    if_pos response.2.2.2]
  exact bind_ok.mpr ⟨_, handled, rfl⟩

theorem bufferStatus_lt (size : Nat) : bufferStatus size < 16 := by
  have bound : bufferStatus size ≤ 15 := by
    unfold bufferStatus
    iterate 15 refine choice_le _ (by decide) ?_
    decide
  exact Nat.lt_succ_of_le bound

theorem getBufferStatus_lt (number : Nat) (harq : Harq config) :
    dectMacHarqGetBufferStatus number harq < 16 := by
  unfold dectMacHarqGetBufferStatus
  split
  · exact bufferStatus_lt _
  · decide

/-! ### There and back -/

/-- A header is read by its receiver as its sender encoded it. -/
structure Understood (sender process : Nat) (fit : Fit) (header : PhyHeader) : Prop where
  transmitter : transmitterId header = sender
  optimized : Type1.transmitterIdHi.get header <<< 8 ||| Type1.transmitterIdLo.get header = sender
  transmitPower : Type1.transmitPower.get header = fit.txPower
  dfMcs : Type2.dfMcs.get header = fit.dfMcs
  packetLength : Type2.packetLength.get header = fit.packetLength
  process : Type2.dfHarqProcessNr.get header = process

/-- A reply is handled as a response about a process, with the feedback it was sent with. -/
structure Returned (process cqi status format : Nat) (header : PhyHeader)
    (system after : System config) : Prop where
  handled : dectMacHarqResponse system.phy.capabilities header system.harq = .ok after.harq
  process : feedbackProcess header = process
  format : Type2.feedbackFormat.get header = format
  cqi : Format1.channelQualityIndicator.get (headerFeedback header) = cqi
  status : Format1.bufferStatus.get (headerFeedback header) = status

/-- The format a packet is answered in: 6 when it exceeds the soft buffer share, else 1. -/
def replyFormat (config : Config) (capabilities : Capabilities) (fit : Fit) : Nat :=
  if dectMacUtilsGetBytesFromPacketLength fit.packetLength fit.dfMcs >
      softBufferShare config capabilities then feedbackFormat6
  else feedbackFormat1

/-- A found packet length and its MCS fit their header fields. -/
theorem packetLength_range {dataSize mcs length : Nat}
    (found : dectMacUtilsGetPacketLength dataSize mcs = .ok (.ok, length)) :
    mcs < 16 ∧ length < 16 := by
  unfold dectMacUtilsGetPacketLength at found
  split at found
  · cases found
  · rename_i row inTable
    have mcsLt : mcs < bytePerMcsAndLength.length := (List.getElem?_eq_some_iff.mp inTable).1
    have columns := bytePerMcsAndLength_columns row (List.mem_of_getElem? inTable)
    obtain ⟨offset, position, capacity, inRow, _⟩ := packetLengthLoop_ok (ok_inj found)
    have offsetLt := (List.getElem?_eq_some_iff.mp inRow).1
    have five : bytePerMcsAndLength.length = 5 := rfl
    constructor
    · omega
    · omega

/-- The header of a TX_RX for a process is understood by every receiver. -/
theorem txRx_understood {deviceId : Nat} {nodes after fitted : NodeTable} {process : HarqProcess}
    {startTime : Nat} {tx : PhyTxParams} {fit : Fit} (small : deviceId < 65536)
    (number : process.processNumber < config.harqProcessCount) (powered : nodes.Powered)
    (built : dectMacPhyHandlerTxConfig config mcsMax deviceId
      (harqTxRxParams config process startTime).toTx nodes = .ok (tx, after))
    (chosen : fitPacket config mcsMax process.receiverId process.dataLen nodes = .ok (fit, fitted))
    (fits : dectMacUtilsGetPacketLength process.dataLen fit.dfMcs = .ok (.ok, fit.packetLength)) :
    tx.header = type2Header config deviceId (harqTxRxParams config process startTime).toTx fit ∧
      Understood deviceId process.processNumber fit tx.header := by
  have header : tx.header =
      type2Header config deviceId (harqTxRxParams config process startTime).toTx fit := by
    obtain ⟨⟨builtFit, builtNodes⟩, same, rest⟩ := bind_ok.mp built
    have equal : (builtFit, builtNodes) = (fit, fitted) := ok_inj (same.symm.trans chosen)
    rw [← (Prod.mk.inj equal).1]
    exact (congrArg (fun result : PhyTxParams × NodeTable => result.1.header) (ok_inj rest)).symm
  have reads := type2Header_reads config deviceId (harqTxRxParams config process startTime).toTx fit
  have harq := type2Header_harq config deviceId fit
    (show (harqTxRxParams config process startTime).toTx.txUsage = .harq from rfl)
  rw [← header] at reads harq
  obtain ⟨transmitter, optimized⟩ := reads.transmitter small
  obtain ⟨mcs, length⟩ := packetLength_range fits
  have power : fit.txPower < 16 :=
    lt_of_le_of_lt (fitPacket_powered powered chosen) (by decide)
  have count := config.harqProcessCount_range.2
  refine ⟨header, transmitter, optimized, ?_, ?_, ?_, ?_⟩
  · exact reads.transmitPower.trans (Nat.mod_eq_of_lt power)
  · exact reads.dfMcs.trans (Nat.mod_eq_of_lt mcs)
  · exact reads.packetLength.trans (Nat.mod_eq_of_lt length)
  · rw [harq.2]
    show process.processNumber % 2 ^ 3 % 2 ^ 3 = process.processNumber
    rw [Nat.mod_mod, Nat.mod_eq_of_lt (by omega)]

/-- The receiver answers a request that it understands, with one TX_HARQ. -/
theorem request_answered {system : System config} {status : PccStatus} {header : PhyHeader}
    {sender process : Nat} {fit : Fit} (understood : Understood sender process fit header)
    (request : IsRequest config system.phy.deviceId status header)
    (number : process < config.harqProcessCount) (counted : system.queue.ItemsCounted)
    (serves : system.phy.nodes.Serves system.phy.capabilities.mcsMax sender)
    (good : 16 ≤ status.snr) (ret : Int) :
    ∃ nodes after cqi reply,
      pccOptimize config status header system.phy = .ok { system.phy with nodes := nodes } ∧
      dectMacPhyPccCb status header ret system = .ok after ∧
      Replies config header ret (system.setNodes nodes) after cqi reply := by
  have available : (system.phy.nodes.get (Type1.transmitterIdHi.get header <<< 8 |||
      Type1.transmitterIdLo.get header)).isSome = true ∨ system.phy.nodes.Allocates := by
    rw [understood.optimized]
    exact serves.imp_right And.left
  obtain ⟨nodes, optimized⟩ := pccOptimize_returns config status header system.phy available
  have usable : nodes.Usable system.phy.capabilities.mcsMax (transmitterId header) := by
    obtain ⟨⟨code, tuned⟩, ran, rest⟩ := bind_ok.mp optimized
    have same : tuned = nodes := congrArg Phy.nodes (ok_inj rest)
    have decibel : 4 ≤ status.snr.tdiv 4 := by
      rw [Int.tdiv_eq_ediv_of_nonneg (by omega)]
      omega
    rw [same, understood.optimized] at ran
    rw [understood.transmitter]
    exact optimize_usable serves decibel ran
  have named : Type2.dfHarqProcessNr.get header < config.harqProcessCount := by
    rw [understood.process]
    exact number
  obtain ⟨code, after, cqi, reply, handled, replies⟩ := harqRequest_replies
    (show Type2.dfHarqProcessNr.get header < config.harqProcessCount from named)
    (show (system.setNodes nodes).phy.nodes.Usable _ _ from usable)
    (show (system.setNodes nodes).queue.ItemsCounted from counted) status.stfStartTime ret
  exact ⟨nodes, after, cqi, reply, optimized, pccCb_of_request optimized request handled, replies⟩

/-- The feedback of a request names its process, with the quality and the buffer status. -/
theorem requestFeedback_carries (config : Config) (capabilities : Capabilities)
    (header : PhyHeader) (cqi : Nat) (harq : Harq config) :
    FeedbackCarries (Type2.dfHarqProcessNr.get header) cqi
      (dectMacHarqGetBufferStatus (Type2.dfHarqProcessNr.get header) harq)
      (requestFeedback capabilities header cqi harq).info := by
  unfold requestFeedback
  dsimp only
  split
  · exact format6Feedback_carries _ _ _
  · exact format1Feedback_carries _ _ _

theorem requestFeedback_format (config : Config) (capabilities : Capabilities)
    {header : PhyHeader} {sender process : Nat} {fit : Fit}
    (understood : Understood sender process fit header) (cqi : Nat) (harq : Harq config) :
    (requestFeedback capabilities header cqi harq).format =
      replyFormat config capabilities fit := by
  unfold requestFeedback replyFormat
  dsimp only
  rw [understood.packetLength, understood.dfMcs]
  split <;> rfl

/-- The sender handles the reply as a response about the process, whatever the modem stored in
its bit. -/
theorem reply_returned {configA configB : Config} {system : System configB}
    {answered : System configA} {after : System configB} {header : PhyHeader}
    {sender process cqi : Nat} {fit : Fit} {ret : Int} {reply : PhyTxParams}
    (sameNetwork : configA.networkId = configB.networkId)
    (understood : Understood sender process fit header)
    (replies : Replies configB header ret system after cqi reply)
    (isSender : answered.phy.deviceId = sender) (sender16 : sender < 65536)
    (receiver16 : system.phy.deviceId < 65536) (sound : answered.harq.Sound)
    (number : process < configA.harqProcessCount)
    (available : (answered.phy.nodes.get system.phy.deviceId).isSome = true ∨
      answered.phy.nodes.Allocates)
    {status : PccStatus} (type2 : status.phyType = headerType2) (modem : Nat) (returned : Int) :
    ∃ final, dectMacPhyPccCb status (withTransmissionFeedback modem reply.header) returned
        answered = .ok final ∧
      Returned process cqi (dectMacHarqGetBufferStatus process after.harq)
        (replyFormat configB system.phy.capabilities fit)
        (withTransmissionFeedback modem reply.header) answered final := by
  obtain ⟨_, _, fitsField, txPower, startTime, built⟩ := replies
  generalize inputEq : (replyParams configB header startTime
    (requestFeedback system.phy.capabilities header cqi after.harq)).toTx = input at built
  have reads := type2Header_reads configB system.phy.deviceId input ⟨txPower, 0, 0⟩
  have format001 := type2Header_noHarq configB system.phy.deviceId ⟨txPower, 0, 0⟩
    (show input.txUsage ≠ .harq by
      rw [← inputEq]
      show TxUsage.noHarq ≠ .harq
      decide)
  rw [← built] at reads format001
  have receiver : input.receiverId = sender := by
    rw [← inputEq]
    exact understood.transmitter
  have feedback : input.feedback =
      requestFeedback system.phy.capabilities header cqi after.harq := by
    rw [← inputEq]
    rfl
  have keeps := fun field apart => withTransmissionFeedback_get modem reply.header field apart
  have format : Type2.feedbackFormat.get (withTransmissionFeedback modem reply.header) =
      replyFormat configB system.phy.capabilities fit := by
    rw [keeps _ (by decide), reads.feedbackFormat, feedback,
      requestFeedback_format configB system.phy.capabilities understood]
    unfold replyFormat
    split <;> rfl
  have twoFormats : replyFormat configB system.phy.capabilities fit = feedbackFormat1 ∨
      replyFormat configB system.phy.capabilities fit = feedbackFormat6 := by
    unfold replyFormat
    split
    · exact Or.inr rfl
    · exact Or.inl rfl
  have addressed : responseAddressed configA answered.phy.deviceId
      (withTransmissionFeedback modem reply.header) = true := by
    have atReply := (reads.addressed sameNetwork.symm (receiver ▸ sender16)).2
    unfold responseAddressed at atReply ⊢
    rw [keeps _ (by decide), keeps _ (by decide), keeps _ (by decide), isSender, ← receiver]
    exact atReply
  have response : IsResponse configA answered.phy.deviceId status
      (withTransmissionFeedback modem reply.header) := by
    refine ⟨type2, ?_, addressed, ?_⟩
    · rw [keeps _ (by decide)]
      exact format001
    · rw [format]
      exact twoFormats
  have carries := requestFeedback_carries configB system.phy.capabilities header cqi after.harq
  rw [understood.process, ← feedback] at carries
  obtain ⟨processBits, cqiBits, statusBits⟩ := reads.feedback modem
  have count := configA.harqProcessCount_range.2
  have process_ : feedbackProcess (withTransmissionFeedback modem reply.header) = process := by
    rw [feedbackProcess, processBits, carries.number, Nat.mod_eq_of_lt (by omega)]
  obtain ⟨nodes, optimized⟩ := pccOptimize_returns configA status
    (withTransmissionFeedback modem reply.header) answered.phy (by
      have optimizedId :
          Type1.transmitterIdHi.get (withTransmissionFeedback modem reply.header) <<< 8 |||
            Type1.transmitterIdLo.get (withTransmissionFeedback modem reply.header) =
            system.phy.deviceId := by
        rw [keeps _ (by decide), keeps _ (by decide)]
        exact (reads.transmitter receiver16).2
      rw [optimizedId]
      exact available)
  obtain ⟨harq, handled⟩ := response_returns sound (process_ ▸ number) answered.phy.capabilities
  refine ⟨_, pccCb_of_response optimized response handled, handled, process_, format, ?_, ?_⟩
  · rw [cqiBits, carries.cqi]
    exact Nat.mod_eq_of_lt fitsField
  · rw [statusBits, carries.status]
    exact Nat.mod_eq_of_lt (getBufferStatus_lt _ _)

/-- The handshake goes there and back. Device A builds the header of a TX_RX for a process; device
B, which measures at least 4 dB, understands it and answers with exactly one TX_HARQ; and when
the header of that reply, in which the modem may have changed the feedback bit, reaches A, it is
handled as a response about this process, in format 1, or in format 6 when the packet exceeds
B's soft buffer share, with B's channel quality and buffer status for A. The two devices may
differ in everything but their network, and each may be in any reachable state. -/
theorem handshake {configA configB : Config} (sameNetwork : configA.networkId = configB.networkId)
    {deviceA answered : System configA} {deviceB : System configB} {sender receiver : Nat}
    (reachableA : (machine configA).Reachable deviceA)
    (reachableAnswered : (machine configA).Reachable answered)
    (reachableB : (machine configB).Reachable deviceB)
    (sender16 : sender < 65536) (receiver16 : receiver < 65536)
    (isA : deviceA.phy.deviceId = sender) (isStillA : answered.phy.deviceId = sender)
    (isB : deviceB.phy.deviceId = receiver)
    {process : HarqProcess} (numberA : process.processNumber < configA.harqProcessCount)
    (numberB : process.processNumber < configB.harqProcessCount)
    (toB : process.receiverId = receiver) {startTime : Nat} {tx : PhyTxParams}
    {nodes fitted : NodeTable} {fit : Fit}
    (built : dectMacPhyHandlerTxConfig configA deviceA.phy.capabilities.mcsMax
      deviceA.phy.deviceId (harqTxRxParams configA process startTime).toTx deviceA.phy.nodes =
      .ok (tx, nodes))
    (chosen : fitPacket configA deviceA.phy.capabilities.mcsMax process.receiverId process.dataLen
      deviceA.phy.nodes = .ok (fit, fitted))
    (fits : dectMacUtilsGetPacketLength process.dataLen fit.dfMcs = .ok (.ok, fit.packetLength))
    (serves : deviceB.phy.nodes.Serves deviceB.phy.capabilities.mcsMax sender)
    (available : (answered.phy.nodes.get receiver).isSome = true ∨ answered.phy.nodes.Allocates)
    {measured : PccStatus} (type2 : measured.phyType = headerType2) (good : 16 ≤ measured.snr)
    (ret : Int) :
    Understood sender process.processNumber fit tx.header ∧
      ∃ tuned after cqi reply,
        pccOptimize configB measured tx.header deviceB.phy =
          .ok { deviceB.phy with nodes := tuned } ∧
        dectMacPhyPccCb measured tx.header ret deviceB = .ok after ∧
        Replies configB tx.header ret (deviceB.setNodes tuned) after cqi reply ∧
        ∀ (modem : Nat) (status : PccStatus) (returned : Int), status.phyType = headerType2 →
          ∃ final, dectMacPhyPccCb status (withTransmissionFeedback modem reply.header) returned
              answered = .ok final ∧
            Returned process.processNumber cqi
              (dectMacHarqGetBufferStatus process.processNumber after.harq)
              (replyFormat configB deviceB.phy.capabilities fit)
              (withTransmissionFeedback modem reply.header) answered final := by
  obtain ⟨_, _, bootedA, runA⟩ := reachableA
  obtain ⟨_, _, bootedAnswered, runAnswered⟩ := reachableAnswered
  obtain ⟨_, _, bootedB, runB⟩ := reachableB
  have sound : answered.harq.Sound := (run_invariant bootedAnswered runAnswered (fun _ => True)
    (fun _ _ => True) trivial (fun _ _ _ _ _ _ _ => trivial) (fun _ _ => trivial)).1
  obtain ⟨header, understood⟩ := txRx_understood (isA ▸ sender16) numberA
    (powered_of_run bootedA runA) built chosen fits
  have reads := type2Header_reads configA deviceA.phy.deviceId
    (harqTxRxParams configA process startTime).toTx fit
  have format := (type2Header_harq configA deviceA.phy.deviceId fit
    (show (harqTxRxParams configA process startTime).toTx.txUsage = .harq from rfl)).1
  rw [← header] at reads format
  have request : IsRequest configB deviceB.phy.deviceId measured tx.header := by
    refine ⟨type2, format, ?_⟩
    rw [isB, ← toB]
    exact (reads.addressed sameNetwork (show process.receiverId < 65536 by
      rw [toB]
      exact receiver16)).1
  rw [isA] at understood
  obtain ⟨tuned, after, cqi, reply, optimized, received, replies⟩ := request_answered understood
    request numberB (itemsCounted_of_run bootedB runB) serves good ret
  refine ⟨understood, tuned, after, cqi, reply, optimized, received, replies, ?_⟩
  intro modem status returned statusType2
  exact reply_returned sameNetwork understood replies isStillA sender16
    (show (deviceB.setNodes tuned).phy.deviceId < 65536 from isB ▸ receiver16) sound numberA
    (show (answered.phy.nodes.get (deviceB.setNodes tuned).phy.deviceId).isSome = true ∨ _ from
      isB ▸ available) statusType2 modem returned

/-- Process 0 with three bytes for device 9. -/
def packetForNine : HarqProcess := ⟨0, some ⟨4096, [1, 2, 3]⟩, 3, 9, 1, 0, false, false, 0, 0⟩

/-- Device 9 after boot. -/
def deviceNine : System projectConfig := boot projectConfig 9 fun _ => .inserted

/-- Devices 5 and 9, both just booted, exchange a packet of three bytes and its feedback. -/
theorem handshake_packetForNine :
    ∃ (tx : PhyTxParams) (fit : Fit) (after : System projectConfig) (reply : PhyTxParams),
      Understood 5 0 fit tx.header ∧
        dectMacPhyPccCb ⟨1, 0, -100, 40⟩ tx.header 0 deviceNine = .ok after ∧
        after.phy.modemCalls = [(.txHarq reply, 0)] ∧
        ∃ final, dectMacPhyPccCb ⟨1, 0, -100, 40⟩ (withTransmissionFeedback ack reply.header) 0
          device = .ok final := by
  obtain ⟨⟨tx, nodes⟩, built, -⟩ := Transition.exists_of_succeedsWith
    (dectMacPhyHandlerTxConfig projectConfig device.phy.capabilities.mcsMax device.phy.deviceId
      (harqTxRxParams projectConfig packetForNine 0).toTx device.phy.nodes)
    (fun _ => true) (by decide +kernel)
  obtain ⟨⟨fit, fitted⟩, chosen, fits⟩ := Transition.exists_of_succeedsWith
    (fitPacket projectConfig device.phy.capabilities.mcsMax packetForNine.receiverId
      packetForNine.dataLen device.phy.nodes)
    (fun result : Fit × NodeTable => decide (dectMacUtilsGetPacketLength packetForNine.dataLen
      result.1.dfMcs = .ok (.ok, result.1.packetLength))) (by decide +kernel)
  have five : (machine projectConfig).Reachable device :=
    Transition.Machine.Reachable.initial device_booted
  have nine : (machine projectConfig).Reachable deviceNine :=
    Transition.Machine.Reachable.initial ⟨9, fun _ => .inserted, by decide, rfl⟩
  have allocates : ∀ later : Nat, (fun _ => Allocation.inserted) later ≠ .nullPointer :=
    fun _ same => by cases same
  obtain ⟨understood, _, after, _, reply, _, received, replies, back⟩ :=
    handshake rfl five five nine (by decide) (by decide) rfl rfl rfl
      (show packetForNine.processNumber < projectConfig.harqProcessCount by decide)
      (by decide) rfl built chosen (of_decide_eq_true fits) (Or.inr ⟨allocates, by decide⟩)
      (Or.inr allocates) (show (⟨1, 0, -100, 40⟩ : PccStatus).phyType = headerType2 from rfl)
      (by decide) 0
  obtain ⟨final, returned, _⟩ := back ack ⟨1, 0, -100, 40⟩ 0 rfl
  exact ⟨tx, fit, after, reply, understood, received, replies.once, final, returned⟩

end DectHarq
