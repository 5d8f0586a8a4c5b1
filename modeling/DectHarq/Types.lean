/-
This file models the data of the program: its configuration, its enumerations, the
parameters of the handler functions and the two physical headers.

A machine integer is a natural number or an integer with its truncation written out;
a handle, a header and a feedback word are bit vectors, because different functions
read them through different bit-field structures. The two header structures are two
sets of fields of the same eighty bits, and the three feedback structures are three
sets of fields of the same sixteen bits.
-/

import DectHarq.Library.BitField

namespace DectHarq

/-! ### Configuration -/

/-- The constants of the modem library that the program reads. -/
structure ModemConstants where
  lbtPeriodMax : Nat
  bsCqiNotUsed : Nat
  rxModeSingleShot : Nat
  rssiIntervalOff : Nat
  linkUnspecified : Nat
  modemTimeTickRateKhz : Nat
  deriving DecidableEq

/-- The Kconfig options of the program, with the ranges Kconfig enforces. -/
structure Config where
  carrier : Nat
  networkId : Nat
  txPower : Nat
  txPowerMarginDbm : Int
  rssiTarget : Int
  harqMaxTransmissions : Nat
  harqRxWaitingTimeMs : Nat
  harqProcessCount : Nat
  modem : ModemConstants
  networkId_range : 1 ≤ networkId ∧ networkId ≤ 4294967295
  txPower_range : txPower ≤ 13
  txPowerMarginDbm_range : -128 ≤ txPowerMarginDbm ∧ txPowerMarginDbm ≤ 127
  rssiTarget_range : -128 ≤ rssiTarget ∧ rssiTarget ≤ 0
  harqMaxTransmissions_range : 1 ≤ harqMaxTransmissions ∧ harqMaxTransmissions ≤ 255
  harqRxWaitingTimeMs_range : harqRxWaitingTimeMs ≤ 10000
  harqProcessCount_range : 1 ≤ harqProcessCount ∧ harqProcessCount ≤ 8

/-- The configuration of `prj.conf`, with the Kconfig defaults it does not override. -/
def projectConfig : Config where
  carrier := 1677
  networkId := 91
  txPower := 13
  txPowerMarginDbm := 3
  rssiTarget := -90
  harqMaxTransmissions := 5
  harqRxWaitingTimeMs := 200
  harqProcessCount := 4
  modem := {
    lbtPeriodMax := 110
    bsCqiNotUsed := 0
    rxModeSingleShot := 1
    rssiIntervalOff := 0
    linkUnspecified := 0
    modemTimeTickRateKhz := 69120 }
  networkId_range := by decide
  txPower_range := by decide
  txPowerMarginDbm_range := by decide
  rssiTarget_range := by decide
  harqMaxTransmissions_range := by decide
  harqRxWaitingTimeMs_range := by decide
  harqProcessCount_range := by decide

/-! ### Enumerations -/

/-- The return codes of `dect_mac_error_code`. Only `ok` is zero. -/
inductive ErrorCode
  | ok
  | unknownErr
  | noFreeHarq
  | noMemHeap
  | noFreeNode
  | nodeNotFound
  | powerNotInRange
  | channelTooNoisy
  | minMcsReached
  | maxMcsReached
  | noMemSlab
  | funcNotExist
  | packetTooBig
  | invalidProcessNumber
  | bufferTooSmall
  deriving DecidableEq, Repr

/-- The error a completion callback carries. Only `success` is zero; the program tells two
of the errors apart. -/
inductive PhyErr
  | success
  | invalidStartTime
  | combinedOpFailed
  | other (code : Nat)
  deriving DecidableEq, Repr

/-- What the modem is doing, as far as the program knows. -/
inductive PhyState
  | idling
  | gettingCapability
  | initializing
  | deinitializing
  | transmitting
  | receiving
  | measuringRssi
  | stoppingReception
  | configuringLink
  | gettingTime
  | unknown
  deriving DecidableEq, Repr

/-- The usage of a transmission. -/
inductive TxUsage
  | noHarq
  | harq
  | beacon
  deriving DecidableEq, Repr

/-- What ends a call without a result. `disabled` is a step the system cannot take now and
`blocked` a call that waits for ever; the other two are undefined behaviour in C. -/
inductive Stop
  | disabled
  | blocked
  | outOfBounds
  | nullPointer
  deriving DecidableEq, Repr

/-- The values of `dect_mac_phy_function` that are a part of a handle. -/
def functionRx : Nat := 4
def functionTx : Nat := 5
def functionTxHarq : Nat := 6
def functionTxRx : Nat := 7

/-- `HANDLE_HARQ`. -/
def handleHarq : Nat := 0xA0

def headerType1 : Nat := 0
def headerType2 : Nat := 1
def headerFormat000 : Nat := 0
def headerFormat001 : Nat := 1
def noFeedback : Nat := 0
def feedbackFormat1 : Nat := 1
def feedbackFormat6 : Nat := 6

/-- The two values of the transmission feedback bit. -/
def ack : Nat := 1
def nack : Nat := 0

/-! ### Headers and feedback -/

/-- The storage of `nrf_modem_dect_phy_hdr`: ten bytes, of which a type 1 header uses five. -/
abbrev PhyHeader := BitVec 80

/-! The fields of `phy_ctrl_field_common_type1`. -/

namespace Type1

def packetLength : BitField := ⟨0, 4⟩
def packetLengthType : BitField := ⟨4, 1⟩
def headerFormat : BitField := ⟨5, 3⟩
def shortNetworkId : BitField := ⟨8, 8⟩
def transmitterIdHi : BitField := ⟨16, 8⟩
def transmitterIdLo : BitField := ⟨24, 8⟩
def dfMcs : BitField := ⟨32, 3⟩
def reserved : BitField := ⟨35, 1⟩
def transmitPower : BitField := ⟨36, 4⟩

end Type1

/-! The fields of `phy_ctrl_field_common_type2`. -/

namespace Type2

def packetLength : BitField := ⟨0, 4⟩
def packetLengthType : BitField := ⟨4, 1⟩
def headerFormat : BitField := ⟨5, 3⟩
def shortNetworkId : BitField := ⟨8, 8⟩
def transmitterIdHi : BitField := ⟨16, 8⟩
def transmitterIdLo : BitField := ⟨24, 8⟩
def dfMcs : BitField := ⟨32, 4⟩
def transmitPower : BitField := ⟨36, 4⟩
def receiverIdHi : BitField := ⟨40, 8⟩
def receiverIdLo : BitField := ⟨48, 8⟩
def dfHarqProcessNr : BitField := ⟨56, 3⟩
def dfInd : BitField := ⟨59, 1⟩
def dfRedVersion : BitField := ⟨60, 2⟩
def spatialStreams : BitField := ⟨62, 2⟩
def feedbackInfoHi : BitField := ⟨64, 4⟩
def feedbackFormat : BitField := ⟨68, 4⟩
def feedbackInfoLo : BitField := ⟨72, 8⟩

end Type2

/-- The storage of `feedback_info`. -/
abbrev FeedbackInfo := BitVec 16

/-! The fields of `mac_feedback_info_format_1`; format 6 has a reserved bit in place of the
transmission feedback and the same other fields. -/

namespace Format1

def transmissionFeedback : BitField := ⟨0, 1⟩
def harqProcessNumber : BitField := ⟨1, 3⟩
def channelQualityIndicator : BitField := ⟨8, 4⟩
def bufferStatus : BitField := ⟨12, 4⟩

end Format1

namespace Format6

def reserved : BitField := ⟨0, 1⟩
def harqProcessNumber : BitField := ⟨1, 3⟩
def channelQualityIndicator : BitField := ⟨8, 4⟩
def bufferStatus : BitField := ⟨12, 4⟩

end Format6

/-! The fields of `mac_feedback_byte`, the view that goes into a header. -/

namespace FeedbackByte

def hi : BitField := ⟨0, 4⟩
def lo : BitField := ⟨8, 8⟩

end FeedbackByte

/-- `transmitter_id_hi << 8 | transmitter_id_lo`. -/
def transmitterId (header : PhyHeader) : Nat :=
  Type2.transmitterIdHi.get header <<< 8 ||| Type2.transmitterIdLo.get header

/-! ### Parameters -/

/-- A heap buffer: its address and the bytes copied into it. -/
structure Buffer where
  address : Nat
  bytes : List Nat
  deriving DecidableEq, Repr

/-- The feedback part of the transmission parameters. -/
structure Feedback where
  format : Nat
  info : FeedbackInfo
  deriving DecidableEq

/-- `DECT_MAC_PHY_HANDLER_NO_FEEDBACK`. -/
def Feedback.none : Feedback := ⟨noFeedback, 0⟩

/-- The HARQ part of the transmission parameters, bit-fields of widths 2, 1 and 3. -/
structure HarqTxParams where
  redundancyVersion : Nat
  newDataIndication : Nat
  harqProcessNr : Nat
  deriving DecidableEq, Repr

/-- Storing into the bit-fields of `harq_tx_params` truncates. -/
def HarqTxParams.store (redundancyVersion newDataIndication harqProcessNr : Nat) :
    HarqTxParams :=
  ⟨redundancyVersion % 2 ^ 2, newDataIndication % 2 ^ 1, harqProcessNr % 2 ^ 3⟩

/-- `DECT_MAC_PHY_HANDLER_NO_HARQ`. -/
def HarqTxParams.none : HarqTxParams := ⟨0, 0, 0⟩

structure RxParams where
  handle : BitVec 28
  rxMode : Nat
  rxPeriodMs : Nat
  receiverIdentity : Nat
  startTime : Nat
  deriving DecidableEq

structure TxParams where
  handle : BitVec 28
  txUsage : TxUsage
  lbtEnable : Bool
  data : Option Buffer
  dataSize : Nat
  receiverId : Nat
  feedback : Feedback
  harq : HarqTxParams
  startTime : Nat
  deriving DecidableEq

structure TxHarqParams where
  handle : BitVec 28
  lbtEnable : Bool
  data : Option Buffer
  dataSize : Nat
  receiverId : Nat
  feedback : Feedback
  startTime : Nat
  deriving DecidableEq

structure TxRxParams where
  handle : BitVec 28
  txUsage : TxUsage
  lbtEnable : Bool
  data : Option Buffer
  dataSize : Nat
  receiverId : Nat
  feedback : Feedback
  harq : HarqTxParams
  rxMode : Nat
  rxPeriodMs : Nat
  startTime : Nat
  deriving DecidableEq

structure RssiParams where
  handle : BitVec 28
  duration : Nat
  reportingInterval : Nat
  startTime : Nat
  deriving DecidableEq

structure RxStopParams where
  handle : BitVec 32
  deriving DecidableEq

/-- A function code together with the member of the parameter union that the function reads.
A code outside the enumeration is an `unknown` operation. -/
inductive Operation
  | placeholder
  | capabilityGet
  | init
  | deinit
  | rx (params : RxParams)
  | tx (params : TxParams)
  | txHarq (params : TxHarqParams)
  | txRx (params : TxRxParams)
  | rssi (params : RssiParams)
  | rxStop (params : RxStopParams)
  | linkConfig
  | timeGet
  | unknown (code : Nat)
  deriving DecidableEq

/-- Who asked for an operation. This is a mark of the specification, which tells apart
operations whose code and parameters coincide; no function of the program reads it. -/
inductive Provenance
  /-- The application. -/
  | user
  /-- HARQ, for a packet of a process: the number of the process and of the packet. -/
  | packet (process packet : Nat)
  /-- HARQ, for the reply with this number to a received request. -/
  | reply (number : Nat)
  deriving DecidableEq, Repr

end DectHarq
