/-
This file says what a header means.

A header of type 2 is a message: who speaks to whom in which network, how the packet after
it is coded, the HARQ process it belongs to, and a feedback. The program writes a header
field by field and reads it through three bit-field structures, the feedback through a
fourth. The fields are consecutive, so a message and its header determine each other, and
what the program reads in a header it reads in the message. A beacon is the same for the
forty bits of a header of type 1.
-/

import DectHarq.AddressFilters
import DectHarq.Headers
import DectHarq.Library.Layout

namespace DectHarq

variable {config : Config}

/-! ### Messages -/

/-- The use of a packet: HARQ, with the process and the state of its packet, or another one. -/
inductive Usage
  | harq (process : BitVec 3) (newData : BitVec 1) (redundancyVersion : BitVec 2)
  | noHarq
  deriving DecidableEq

/-- The feedback of a message, in the words of format 1. -/
structure MessageFeedback where
  format : BitVec 4
  transmission : BitVec 1
  process : BitVec 3
  channelQuality : BitVec 4
  bufferStatus : BitVec 4
  deriving DecidableEq

/-- What a header of type 2 says. -/
structure Message where
  packetLength : BitVec 4
  network : BitVec 8
  transmitter : BitVec 16
  mcs : BitVec 4
  power : BitVec 4
  receiver : BitVec 16
  usage : Usage
  feedback : MessageFeedback
  deriving DecidableEq

def Usage.format : Usage → Nat
  | .harq _ _ _ => headerFormat000
  | .noHarq => headerFormat001

def Usage.process : Usage → Nat
  | .harq process _ _ => process.toNat
  | .noHarq => 0

def Usage.newData : Usage → Nat
  | .harq _ newData _ => newData.toNat
  | .noHarq => 0

def Usage.redundancyVersion : Usage → Nat
  | .harq _ _ redundancyVersion => redundancyVersion.toNat
  | .noHarq => 0

/-! The fields of the feedback where a header has them. -/

namespace HeaderFeedback

def process : BitField := ⟨65, 3⟩
def channelQuality : BitField := ⟨72, 4⟩
def bufferStatus : BitField := ⟨76, 4⟩

end HeaderFeedback

/-- The fields of a header of type 2 follow each other through all its bits. -/
def type2Layout : Layout 80 where
  fields := [Type2.packetLength, Type2.packetLengthType, Type2.headerFormat,
    Type2.shortNetworkId, Type2.transmitterIdHi, Type2.transmitterIdLo, Type2.dfMcs,
    Type2.transmitPower, Type2.receiverIdHi, Type2.receiverIdLo, Type2.dfHarqProcessNr,
    Type2.dfInd, Type2.dfRedVersion, Type2.spatialStreams, transmissionFeedbackBit,
    HeaderFeedback.process, Type2.feedbackFormat, HeaderFeedback.channelQuality,
    HeaderFeedback.bufferStatus]
  tiles := by decide

/-- The values of the fields of a message. -/
def Message.values (message : Message) : List Nat :=
  [message.packetLength.toNat, 0, message.usage.format, message.network.toNat,
    message.transmitter.toNat >>> 8, message.transmitter.toNat &&& 0xff, message.mcs.toNat,
    message.power.toNat, message.receiver.toNat >>> 8, message.receiver.toNat &&& 0xff,
    message.usage.process, message.usage.newData, message.usage.redundancyVersion, 0,
    message.feedback.transmission.toNat, message.feedback.process.toNat,
    message.feedback.format.toNat, message.feedback.channelQuality.toNat,
    message.feedback.bufferStatus.toNat]

/-- The header of a message. -/
def Message.header (message : Message) : PhyHeader := type2Layout.encode message.values

/-- A header holds a message: this is read in its fields. -/
@[mk_iff]
structure HoldsMessage (header : PhyHeader) (message : Message) : Prop where
  packetLength : Type2.packetLength.get header = message.packetLength.toNat
  packetLengthType : Type2.packetLengthType.get header = 0
  headerFormat : Type2.headerFormat.get header = message.usage.format
  shortNetworkId : Type2.shortNetworkId.get header = message.network.toNat
  transmitterIdHi : Type2.transmitterIdHi.get header = message.transmitter.toNat >>> 8
  transmitterIdLo : Type2.transmitterIdLo.get header = message.transmitter.toNat &&& 0xff
  dfMcs : Type2.dfMcs.get header = message.mcs.toNat
  transmitPower : Type2.transmitPower.get header = message.power.toNat
  receiverIdHi : Type2.receiverIdHi.get header = message.receiver.toNat >>> 8
  receiverIdLo : Type2.receiverIdLo.get header = message.receiver.toNat &&& 0xff
  dfHarqProcessNr : Type2.dfHarqProcessNr.get header = message.usage.process
  dfInd : Type2.dfInd.get header = message.usage.newData
  dfRedVersion : Type2.dfRedVersion.get header = message.usage.redundancyVersion
  spatialStreams : Type2.spatialStreams.get header = 0
  transmission : transmissionFeedbackBit.get header = message.feedback.transmission.toNat
  process : HeaderFeedback.process.get header = message.feedback.process.toNat
  feedbackFormat : Type2.feedbackFormat.get header = message.feedback.format.toNat
  channelQuality :
    HeaderFeedback.channelQuality.get header = message.feedback.channelQuality.toNat
  bufferStatus : HeaderFeedback.bufferStatus.get header = message.feedback.bufferStatus.toNat

theorem holdsMessage_iff_decode (header : PhyHeader) (message : Message) :
    HoldsMessage header message ↔ type2Layout.decode header = message.values := by
  simp only [holdsMessage_iff, Layout.decode, type2Layout, Message.values, List.map_cons,
    List.map_nil, List.cons.injEq, and_true]

/-- A byte of a 16-bit id. -/
theorem idBytes_lt (id : BitVec 16) : id.toNat >>> 8 < 2 ^ 8 ∧ id.toNat &&& 0xff < 2 ^ 8 := by
  obtain ⟨high, low, _⟩ := id_bytes id.isLt
  exact ⟨high ▸ Nat.mod_lt _ (by decide), low ▸ Nat.mod_lt _ (by decide)⟩

theorem Message.fits (message : Message) : type2Layout.Fits message.values := by
  have transmitter := idBytes_lt message.transmitter
  have receiver := idBytes_lt message.receiver
  have usage : message.usage.format < 2 ^ 3 ∧ message.usage.process < 2 ^ 3 ∧
      message.usage.newData < 2 ^ 1 ∧ message.usage.redundancyVersion < 2 ^ 2 := by
    cases message.usage with
    | harq process newData redundancyVersion =>
      exact ⟨show headerFormat000 < 2 ^ 3 by decide, process.isLt, newData.isLt,
        redundancyVersion.isLt⟩
    | noHarq => decide
  unfold Layout.Fits type2Layout Message.values
  simp only [List.forall₂_cons, List.forall₂_nil_left_iff, and_true]
  exact ⟨message.packetLength.isLt, Nat.two_pow_pos _, usage.1, message.network.isLt, transmitter.1,
    transmitter.2, message.mcs.isLt, message.power.isLt, receiver.1, receiver.2, usage.2.1,
    usage.2.2.1, usage.2.2.2, Nat.two_pow_pos _, message.feedback.transmission.isLt,
    message.feedback.process.isLt, message.feedback.format.isLt,
    message.feedback.channelQuality.isLt, message.feedback.bufferStatus.isLt⟩

/-- A header holds a message exactly when it is the header of the message. -/
theorem holdsMessage_iff_header (header : PhyHeader) (message : Message) :
    HoldsMessage header message ↔ message.header = header := by
  rw [holdsMessage_iff_decode, type2Layout.decode_eq_iff message.fits]
  exact eq_comm

/-! ### What the program writes -/

/-- The message of a transmission. -/
def Message.sent (config : Config) (deviceId : Nat) (input : TxParams) (fit : Fit) : Message where
  packetLength := BitVec.ofNat 4 fit.packetLength
  network := BitVec.ofNat 8 config.networkId
  transmitter := BitVec.ofNat 16 deviceId
  mcs := BitVec.ofNat 4 fit.dfMcs
  power := BitVec.ofNat 4 fit.txPower
  receiver := BitVec.ofNat 16 input.receiverId
  usage :=
    if input.txUsage = .harq then
      .harq (BitVec.ofNat 3 input.harq.harqProcessNr) (BitVec.ofNat 1 input.harq.newDataIndication)
        (BitVec.ofNat 2 input.harq.redundancyVersion)
    else .noHarq
  feedback := {
    format := BitVec.ofNat 4 input.feedback.format
    transmission := BitVec.ofNat 1 (Format1.transmissionFeedback.get input.feedback.info)
    process := BitVec.ofNat 3 (Format1.harqProcessNumber.get input.feedback.info)
    channelQuality := BitVec.ofNat 4 (Format1.channelQualityIndicator.get input.feedback.info)
    bufferStatus := BitVec.ofNat 4 (Format1.bufferStatus.get input.feedback.info) }

/-- The bytes of a 16-bit id are those of the number it is made of. -/
theorem ofNat_bytes (id : Nat) :
    (BitVec.ofNat 16 id).toNat >>> 8 = (id >>> 8) % 2 ^ 8 ∧
      (BitVec.ofNat 16 id).toNat &&& 0xff = (id &&& 0xff) % 2 ^ 8 := by
  rw [BitVec.toNat_ofNat, show (0xff : Nat) = 2 ^ 8 - 1 from rfl, Nat.and_two_pow_sub_one_eq_mod,
    Nat.and_two_pow_sub_one_eq_mod, Nat.shiftRight_eq_div_pow, Nat.shiftRight_eq_div_pow]
  omega

/-- A part of the high nibble of the feedback word is where the header has it. -/
theorem ReadsBack.feedbackHi {deviceId : Nat} {input : TxParams} {fit : Fit} {header : PhyHeader}
    (reads : ReadsBack config deviceId input fit header) (start width : Nat)
    (inside : start + width ≤ 4) :
    (BitField.mk (64 + start) width).get header =
      (BitField.mk (0 + start) width).get input.feedback.info := by
  have small : FeedbackByte.hi.get input.feedback.info < 2 ^ 4 := BitField.get_lt _ _
  have stored := reads.feedbackInfoHi.trans (Nat.mod_eq_of_lt small)
  have word := BitField.get_slice FeedbackByte.hi start width input.feedback.info inside
  rw [← stored] at word
  exact (BitField.get_slice Type2.feedbackInfoHi start width header inside).trans word.symm

/-- A part of the low byte of the feedback word is where the header has it. -/
theorem ReadsBack.feedbackLo {deviceId : Nat} {input : TxParams} {fit : Fit} {header : PhyHeader}
    (reads : ReadsBack config deviceId input fit header) (start width : Nat)
    (inside : start + width ≤ 8) :
    (BitField.mk (72 + start) width).get header =
      (BitField.mk (8 + start) width).get input.feedback.info := by
  have small : FeedbackByte.lo.get input.feedback.info < 2 ^ 8 := BitField.get_lt _ _
  have stored := reads.feedbackInfoLo.trans (Nat.mod_eq_of_lt small)
  have word := BitField.get_slice FeedbackByte.lo start width input.feedback.info inside
  rw [← stored] at word
  exact (BitField.get_slice Type2.feedbackInfoLo start width header inside).trans word.symm

theorem networkBits (config : Config) :
    (config.networkId &&& 0xff) % 2 ^ 8 = (BitVec.ofNat 8 config.networkId).toNat := by
  rw [networkByte, show (0xff : Nat) = 2 ^ 8 - 1 from rfl, Nat.and_two_pow_sub_one_eq_mod]
  rfl

/-- The header that is built for a transmission holds its message. -/
theorem type2Header_holds (config : Config) (deviceId : Nat) (input : TxParams) (fit : Fit) :
    HoldsMessage (type2Header config deviceId input fit)
      (Message.sent config deviceId input fit) := by
  have reads := type2Header_reads config deviceId input fit
  have fixed : Type2.packetLengthType.get (type2Header config deviceId input fit) = 0 ∧
      Type2.spatialStreams.get (type2Header config deviceId input fit) = 0 := by
    unfold type2Header type2Common
    split <;> simp (disch := decide) only [BitField.get_set_of_disjoint, BitField.get_set_self] <;>
      exact ⟨rfl, rfl⟩
  have usage : Type2.headerFormat.get (type2Header config deviceId input fit) =
        (Message.sent config deviceId input fit).usage.format ∧
      Type2.dfHarqProcessNr.get (type2Header config deviceId input fit) =
        (Message.sent config deviceId input fit).usage.process ∧
      Type2.dfInd.get (type2Header config deviceId input fit) =
        (Message.sent config deviceId input fit).usage.newData ∧
      Type2.dfRedVersion.get (type2Header config deviceId input fit) =
        (Message.sent config deviceId input fit).usage.redundancyVersion := by
    unfold type2Header Message.sent
    split <;> simp (disch := decide) only [BitField.get_set_of_disjoint, BitField.get_set_self] <;>
      exact ⟨rfl, rfl, rfl, rfl⟩
  exact {
    packetLength := reads.packetLength
    packetLengthType := fixed.1
    headerFormat := usage.1
    shortNetworkId := reads.shortNetworkId.trans (networkBits config)
    transmitterIdHi := reads.transmitterIdHi.trans (ofNat_bytes deviceId).1.symm
    transmitterIdLo := reads.transmitterIdLo.trans (ofNat_bytes deviceId).2.symm
    dfMcs := reads.dfMcs
    transmitPower := reads.transmitPower
    receiverIdHi := reads.receiverIdHi.trans (ofNat_bytes input.receiverId).1.symm
    receiverIdLo := reads.receiverIdLo.trans (ofNat_bytes input.receiverId).2.symm
    dfHarqProcessNr := usage.2.1
    dfInd := usage.2.2.1
    dfRedVersion := usage.2.2.2
    spatialStreams := fixed.2
    transmission := (reads.feedbackHi 0 1 (by decide)).trans
      (Format1.transmissionFeedback.toNat_ofNat_get input.feedback.info).symm
    process := (reads.feedbackHi 1 3 (by decide)).trans
      (Format1.harqProcessNumber.toNat_ofNat_get input.feedback.info).symm
    feedbackFormat := reads.feedbackFormat
    channelQuality := (reads.feedbackLo 0 4 (by decide)).trans
      (Format1.channelQualityIndicator.toNat_ofNat_get input.feedback.info).symm
    bufferStatus := (reads.feedbackLo 4 4 (by decide)).trans
      (Format1.bufferStatus.toNat_ofNat_get input.feedback.info).symm }

/-! ### What a header says -/

/-- The use that a header names. Without HARQ the fields of the process are zero. -/
def Usage.parse (header : PhyHeader) : Option Usage :=
  if Type2.headerFormat.get header = headerFormat000 then
    some (.harq (BitVec.ofNat 3 (Type2.dfHarqProcessNr.get header))
      (BitVec.ofNat 1 (Type2.dfInd.get header)) (BitVec.ofNat 2 (Type2.dfRedVersion.get header)))
  else if Type2.headerFormat.get header = headerFormat001 ∧
      Type2.dfHarqProcessNr.get header = 0 ∧ Type2.dfInd.get header = 0 ∧
      Type2.dfRedVersion.get header = 0 then some .noHarq
  else none

/-- The message of a header, if there is one. -/
def Message.parse (header : PhyHeader) : Option Message :=
  if Type2.packetLengthType.get header = 0 ∧ Type2.spatialStreams.get header = 0 then
    (Usage.parse header).map fun usage => {
      packetLength := BitVec.ofNat 4 (Type2.packetLength.get header)
      network := BitVec.ofNat 8 (Type2.shortNetworkId.get header)
      transmitter := BitVec.ofNat 16 (transmitterId header)
      mcs := BitVec.ofNat 4 (Type2.dfMcs.get header)
      power := BitVec.ofNat 4 (Type2.transmitPower.get header)
      receiver := BitVec.ofNat 16 (receiverId header)
      usage := usage
      feedback := {
        format := BitVec.ofNat 4 (Type2.feedbackFormat.get header)
        transmission := BitVec.ofNat 1 (transmissionFeedbackBit.get header)
        process := BitVec.ofNat 3 (HeaderFeedback.process.get header)
        channelQuality := BitVec.ofNat 4 (HeaderFeedback.channelQuality.get header)
        bufferStatus := BitVec.ofNat 4 (HeaderFeedback.bufferStatus.get header) } }
  else none

/-- Two bytes make an id. -/
theorem bytes_of_id {high low : Nat} (highByte : high < 2 ^ 8) (lowByte : low < 2 ^ 8) :
    (BitVec.ofNat 16 (high <<< 8 ||| low)).toNat >>> 8 = high ∧
      (BitVec.ofNat 16 (high <<< 8 ||| low)).toNat &&& 0xff = low := by
  rw [(ofNat_bytes _).1, (ofNat_bytes _).2, show (0xff : Nat) = 2 ^ 8 - 1 from rfl,
    Nat.and_two_pow_sub_one_eq_mod, ← Nat.shiftLeft_add_eq_or_of_lt lowByte, Nat.shiftLeft_eq,
    Nat.shiftRight_eq_div_pow]
  omega

theorem id_of_bytes (id : BitVec 16) :
    BitVec.ofNat 16 ((id.toNat >>> 8) <<< 8 ||| (id.toNat &&& 0xff)) = id := by
  rw [(id_bytes id.isLt).2.2, BitVec.ofNat_toNat, BitVec.setWidth_eq]

theorem ofNat_of_eq {width value : Nat} {bits : BitVec width} (same : value = bits.toNat) :
    BitVec.ofNat width value = bits := by
  rw [same, BitVec.ofNat_toNat, BitVec.setWidth_eq]

/-- The use that is parsed is the one that the fields of the header give. -/
theorem Usage.parse_eq_some_iff (header : PhyHeader) (usage : Usage) :
    Usage.parse header = some usage ↔
      Type2.headerFormat.get header = usage.format ∧
        Type2.dfHarqProcessNr.get header = usage.process ∧
        Type2.dfInd.get header = usage.newData ∧
        Type2.dfRedVersion.get header = usage.redundancyVersion := by
  unfold Usage.parse
  cases usage with
  | harq process newData redundancyVersion =>
    constructor
    · intro parsed
      split at parsed
      · rename_i format
        cases parsed
        exact ⟨format, (Type2.dfHarqProcessNr.toNat_ofNat_get header).symm,
          (Type2.dfInd.toNat_ofNat_get header).symm,
          (Type2.dfRedVersion.toNat_ofNat_get header).symm⟩
      · split at parsed <;> cases parsed
    · rintro ⟨format, process', newData', redundancyVersion'⟩
      have isHarq : Type2.headerFormat.get header = headerFormat000 := format
      rw [if_pos isHarq, ofNat_of_eq process', ofNat_of_eq newData',
        ofNat_of_eq redundancyVersion']
  | noHarq =>
    constructor
    · intro parsed
      split at parsed
      · cases parsed
      · split at parsed
        · rename_i fields
          exact fields
        · cases parsed
    · rintro ⟨format, fields⟩
      rw [if_neg (by rw [format]; decide), if_pos ⟨format, fields⟩]

/-- The message that is parsed is the one that the header holds. -/
theorem parse_eq_some_iff_holdsMessage (header : PhyHeader) (message : Message) :
    Message.parse header = some message ↔ HoldsMessage header message := by
  constructor
  · intro parsed
    unfold Message.parse at parsed
    split at parsed
    · rename_i fixed
      obtain ⟨usage, used, rfl⟩ := Option.map_eq_some_iff.mp parsed
      obtain ⟨format, process, newData, redundancyVersion⟩ :=
        (Usage.parse_eq_some_iff header usage).mp used
      obtain ⟨transmitterHi, transmitterLo⟩ := bytes_of_id
        (Type2.transmitterIdHi.get_lt header) (Type2.transmitterIdLo.get_lt header)
      obtain ⟨receiverHi, receiverLo⟩ := bytes_of_id
        (Type2.receiverIdHi.get_lt header) (Type2.receiverIdLo.get_lt header)
      have bits := fun field : BitField => (field.toNat_ofNat_get header).symm
      exact ⟨bits Type2.packetLength, fixed.1, format, bits Type2.shortNetworkId,
        transmitterHi.symm, transmitterLo.symm, bits Type2.dfMcs, bits Type2.transmitPower,
        receiverHi.symm, receiverLo.symm, process, newData, redundancyVersion, fixed.2,
        bits transmissionFeedbackBit, bits HeaderFeedback.process, bits Type2.feedbackFormat,
        bits HeaderFeedback.channelQuality, bits HeaderFeedback.bufferStatus⟩
    · cases parsed
  · intro holds
    have used : Usage.parse header = some message.usage :=
      (Usage.parse_eq_some_iff header message.usage).mpr
        ⟨holds.headerFormat, holds.dfHarqProcessNr, holds.dfInd, holds.dfRedVersion⟩
    have transmitter : BitVec.ofNat 16 (transmitterId header) = message.transmitter := by
      rw [transmitterId, holds.transmitterIdHi, holds.transmitterIdLo, id_of_bytes]
    have receiver : BitVec.ofNat 16 (receiverId header) = message.receiver := by
      rw [receiverId, holds.receiverIdHi, holds.receiverIdLo, id_of_bytes]
    unfold Message.parse
    rw [if_pos ⟨holds.packetLengthType, holds.spatialStreams⟩, used, Option.map_some, transmitter,
      receiver, ofNat_of_eq holds.packetLength, ofNat_of_eq holds.shortNetworkId,
      ofNat_of_eq holds.dfMcs, ofNat_of_eq holds.transmitPower, ofNat_of_eq holds.feedbackFormat,
      ofNat_of_eq holds.transmission, ofNat_of_eq holds.process,
      ofNat_of_eq holds.channelQuality, ofNat_of_eq holds.bufferStatus]

/-! ### What the program reads -/

section Reads

variable {header : PhyHeader} {message : Message}

theorem HoldsMessage.transmitterId_eq (holds : HoldsMessage header message) :
    transmitterId header = message.transmitter.toNat := by
  rw [transmitterId, holds.transmitterIdHi, holds.transmitterIdLo]
  exact (id_bytes message.transmitter.isLt).2.2

theorem HoldsMessage.receiverId_eq (holds : HoldsMessage header message) :
    receiverId header = message.receiver.toNat := by
  rw [receiverId, holds.receiverIdHi, holds.receiverIdLo]
  exact (id_bytes message.receiver.isLt).2.2

/-- The response function reads the feedback of the message. -/
theorem HoldsMessage.feedback_eq (holds : HoldsMessage header message) :
    Format1.transmissionFeedback.get (headerFeedback header) =
        message.feedback.transmission.toNat ∧
      feedbackProcess header = message.feedback.process.toNat ∧
      Format1.channelQualityIndicator.get (headerFeedback header) =
        message.feedback.channelQuality.toNat ∧
      Format1.bufferStatus.get (headerFeedback header) = message.feedback.bufferStatus.toNat :=
  ⟨(headerFeedback_hi header 0 1 (by decide)).trans holds.transmission,
    (headerFeedback_hi header 1 3 (by decide)).trans holds.process,
    (headerFeedback_lo header 0 4 (by decide)).trans holds.channelQuality,
    (headerFeedback_lo header 4 4 (by decide)).trans holds.bufferStatus⟩

/-- The modem's bit is the one that transmits the feedback. -/
def Message.answered (feedback : Nat) (message : Message) : Message :=
  { message with feedback :=
      { message.feedback with transmission := BitVec.ofNat 1 feedback } }

theorem HoldsMessage.answered (holds : HoldsMessage header message) (feedback : Nat) :
    HoldsMessage (withTransmissionFeedback feedback header) (message.answered feedback) := by
  obtain ⟨packetLength, packetLengthType, headerFormat, shortNetworkId, transmitterIdHi,
    transmitterIdLo, dfMcs, transmitPower, receiverIdHi, receiverIdLo, dfHarqProcessNr, dfInd,
    dfRedVersion, spatialStreams, _, process, feedbackFormat, channelQuality, bufferStatus⟩ := holds
  constructor
  case transmission => exact BitField.get_set_self _ _ _ (by decide)
  all_goals
    rw [withTransmissionFeedback_get _ _ _ (by decide)]
    assumption

end Reads

/-! ### Beacons -/

/-- What a header of type 1 says. -/
structure Beacon where
  packetLength : BitVec 4
  network : BitVec 8
  transmitter : BitVec 16
  mcs : BitVec 3
  power : BitVec 4
  deriving DecidableEq

/-- The fields of a header of type 1 follow each other through its forty bits. -/
def type1Layout : Layout 40 where
  fields := [Type1.packetLength, Type1.packetLengthType, Type1.headerFormat,
    Type1.shortNetworkId, Type1.transmitterIdHi, Type1.transmitterIdLo, Type1.dfMcs,
    Type1.reserved, Type1.transmitPower]
  tiles := by decide

/-- The values of the fields of a beacon. -/
def Beacon.values (beacon : Beacon) : List Nat :=
  [beacon.packetLength.toNat, 0, headerFormat000, beacon.network.toNat,
    beacon.transmitter.toNat >>> 8, beacon.transmitter.toNat &&& 0xff, beacon.mcs.toNat, 0,
    beacon.power.toNat]

/-- The five bytes of a beacon. -/
def Beacon.word (beacon : Beacon) : BitVec 40 := type1Layout.encode beacon.values

/-- A header holds a beacon: this is read in its fields. -/
@[mk_iff]
structure HoldsBeacon (header : PhyHeader) (beacon : Beacon) : Prop where
  packetLength : Type1.packetLength.get header = beacon.packetLength.toNat
  packetLengthType : Type1.packetLengthType.get header = 0
  headerFormat : Type1.headerFormat.get header = headerFormat000
  shortNetworkId : Type1.shortNetworkId.get header = beacon.network.toNat
  transmitterIdHi : Type1.transmitterIdHi.get header = beacon.transmitter.toNat >>> 8
  transmitterIdLo : Type1.transmitterIdLo.get header = beacon.transmitter.toNat &&& 0xff
  dfMcs : Type1.dfMcs.get header = beacon.mcs.toNat
  reserved : Type1.reserved.get header = 0
  transmitPower : Type1.transmitPower.get header = beacon.power.toNat

theorem Beacon.fits (beacon : Beacon) : type1Layout.Fits beacon.values := by
  have transmitter := idBytes_lt beacon.transmitter
  unfold Layout.Fits type1Layout Beacon.values
  simp only [List.forall₂_cons, List.forall₂_nil_left_iff, and_true]
  exact ⟨beacon.packetLength.isLt, Nat.two_pow_pos _, Nat.two_pow_pos _, beacon.network.isLt,
    transmitter.1, transmitter.2, beacon.mcs.isLt, Nat.two_pow_pos _, beacon.power.isLt⟩

/-- A header holds a beacon exactly when it starts with the bytes of the beacon. -/
theorem holdsBeacon_iff_word (header : PhyHeader) (beacon : Beacon) :
    HoldsBeacon header beacon ↔ beacon.word = header.setWidth 40 := by
  have read : type1Layout.decode (header.setWidth 40) =
      type1Layout.fields.map fun field => field.get header := by
    refine List.map_congr_left fun field member => BitField.get_setWidth field header ?_
    revert field
    decide
  rw [eq_comm, Beacon.word, ← type1Layout.decode_eq_iff beacon.fits, read]
  simp only [holdsBeacon_iff, type1Layout, Beacon.values, List.map_cons, List.map_nil,
    List.cons.injEq, and_true]

/-- The beacon of a transmission. -/
def Beacon.sent (config : Config) (deviceId : Nat) (fit : Fit) : Beacon where
  packetLength := BitVec.ofNat 4 fit.packetLength
  network := BitVec.ofNat 8 config.networkId
  transmitter := BitVec.ofNat 16 deviceId
  mcs := BitVec.ofNat 3 fit.dfMcs
  power := BitVec.ofNat 4 fit.txPower

/-- The beacon of a header, if there is one. -/
def Beacon.parse (header : PhyHeader) : Option Beacon :=
  if Type1.packetLengthType.get header = 0 ∧ Type1.headerFormat.get header = headerFormat000 ∧
      Type1.reserved.get header = 0 then
    some {
      packetLength := BitVec.ofNat 4 (Type1.packetLength.get header)
      network := BitVec.ofNat 8 (Type1.shortNetworkId.get header)
      transmitter := BitVec.ofNat 16 (transmitterId header)
      mcs := BitVec.ofNat 3 (Type1.dfMcs.get header)
      power := BitVec.ofNat 4 (Type1.transmitPower.get header) }
  else none

/-- The header that is built for a beacon holds it. -/
theorem type1Header_holds (config : Config) (deviceId : Nat) (fit : Fit) :
    HoldsBeacon (type1Header config deviceId fit) (Beacon.sent config deviceId fit) := by
  constructor <;> unfold type1Header <;>
    simp (disch := decide) only [BitField.get_set_of_disjoint, BitField.get_set_self]
  case shortNetworkId => exact networkBits config
  case transmitterIdHi => exact (ofNat_bytes deviceId).1.symm
  case transmitterIdLo => exact (ofNat_bytes deviceId).2.symm
  all_goals rfl

/-- The beacon that is parsed is the one that the header holds. -/
theorem parse_eq_some_iff_holdsBeacon (header : PhyHeader) (beacon : Beacon) :
    Beacon.parse header = some beacon ↔ HoldsBeacon header beacon := by
  constructor
  · intro parsed
    unfold Beacon.parse at parsed
    split at parsed
    · rename_i fixed
      cases parsed
      obtain ⟨transmitterHi, transmitterLo⟩ := bytes_of_id
        (Type2.transmitterIdHi.get_lt header) (Type2.transmitterIdLo.get_lt header)
      have bits := fun field : BitField => (field.toNat_ofNat_get header).symm
      exact ⟨bits Type1.packetLength, fixed.1, fixed.2.1, bits Type1.shortNetworkId,
        transmitterHi.symm, transmitterLo.symm, bits Type1.dfMcs, fixed.2.2,
        bits Type1.transmitPower⟩
    · cases parsed
  · intro holds
    have transmitter : BitVec.ofNat 16 (transmitterId header) = beacon.transmitter := by
      have high : Type2.transmitterIdHi.get header = _ := holds.transmitterIdHi
      have low : Type2.transmitterIdLo.get header = _ := holds.transmitterIdLo
      rw [transmitterId, high, low, id_of_bytes]
    unfold Beacon.parse
    rw [if_pos ⟨holds.packetLengthType, holds.headerFormat, holds.reserved⟩, transmitter,
      ofNat_of_eq holds.packetLength, ofNat_of_eq holds.shortNetworkId, ofNat_of_eq holds.dfMcs,
      ofNat_of_eq holds.transmitPower]

/-! ### Round trips -/

/-- The feedback word with the feedback of a message. -/
def MessageFeedback.info (feedback : MessageFeedback) : FeedbackInfo :=
  (0 : FeedbackInfo)
    |> Format1.transmissionFeedback.set feedback.transmission.toNat
    |> Format1.harqProcessNumber.set feedback.process.toNat
    |> Format1.channelQualityIndicator.set feedback.channelQuality.toNat
    |> Format1.bufferStatus.set feedback.bufferStatus.toNat

theorem MessageFeedback.info_reads (feedback : MessageFeedback) :
    Format1.transmissionFeedback.get feedback.info = feedback.transmission.toNat ∧
      Format1.harqProcessNumber.get feedback.info = feedback.process.toNat ∧
      Format1.channelQualityIndicator.get feedback.info = feedback.channelQuality.toNat ∧
      Format1.bufferStatus.get feedback.info = feedback.bufferStatus.toNat := by
  unfold info
  simp (disch := decide) only [BitField.get_set_of_disjoint, BitField.get_set_self]
  exact ⟨Nat.mod_eq_of_lt feedback.transmission.isLt, Nat.mod_eq_of_lt feedback.process.isLt,
    Nat.mod_eq_of_lt feedback.channelQuality.isLt, Nat.mod_eq_of_lt feedback.bufferStatus.isLt⟩

/-- Parameters whose message is a given one. -/
def Message.params (message : Message) : TxParams where
  handle := 0
  txUsage :=
    match message.usage with
    | .harq _ _ _ => .harq
    | .noHarq => .noHarq
  lbtEnable := false
  data := none
  dataSize := 0
  receiverId := message.receiver.toNat
  feedback := ⟨message.feedback.format.toNat, message.feedback.info⟩
  harq := ⟨message.usage.redundancyVersion, message.usage.newData, message.usage.process⟩
  startTime := 0

/-- A configuration for the network of a message. -/
def Message.networkConfig (message : Message) : Config :=
  { projectConfig with
    networkId := message.network.toNat + 256
    networkId_range := ⟨Nat.le_add_left _ _, by have := message.network.isLt; omega⟩ }

/-- Every message is that of some parameters and some fit. The fit is free here: tx_config chooses
none with an MCS above 4. -/
theorem Message.sent_params (message : Message) :
    Message.sent message.networkConfig message.transmitter.toNat message.params
      ⟨message.power.toNat, message.mcs.toNat, message.packetLength.toNat⟩ = message := by
  obtain ⟨transmission, process, channelQuality, bufferStatus⟩ := message.feedback.info_reads
  have network : BitVec.ofNat 8 (message.network.toNat + 256) = message.network :=
    BitVec.eq_of_toNat_eq (by simp [BitVec.toNat_ofNat, Nat.mod_eq_of_lt message.network.isLt])
  obtain ⟨_, _, _, _, _, _, usage, _⟩ := message
  simp only [Message.sent, Message.mk.injEq]
  refine ⟨ofNat_of_eq rfl, network, ofNat_of_eq rfl, ofNat_of_eq rfl, ofNat_of_eq rfl,
    ofNat_of_eq rfl, ?_, ?_⟩
  · cases usage with
    | harq process newData redundancyVersion =>
      show Usage.harq _ _ _ = _
      exact congr (congr (congrArg _ (ofNat_of_eq rfl)) (ofNat_of_eq rfl)) (ofNat_of_eq rfl)
    | noHarq => rfl
  · exact MessageFeedback.mk.injEq .. |>.mpr ⟨ofNat_of_eq rfl, ofNat_of_eq transmission,
      ofNat_of_eq process, ofNat_of_eq channelQuality, ofNat_of_eq bufferStatus⟩

/-- Both formats are round trips. For all parameters and fits, the header that is built for them
says their message, each number truncated to its field; a header says a message exactly when it is
the header of the message; and every message is that of some parameters and some fit, though not
always one that tx_config chooses. For every fit the header of a beacon says the beacon, and a
header says a beacon exactly when it starts with the five bytes of the beacon. -/
theorem headers_roundTrip :
    (∀ config deviceId input fit, Message.parse (type2Header config deviceId input fit) =
      some (Message.sent config deviceId input fit)) ∧
    (∀ header message, Message.parse header = some message ↔ message.header = header) ∧
    (∀ message, ∃ config deviceId input fit, deviceId < 65536 ∧ input.txUsage ≠ .beacon ∧
      Message.sent config deviceId input fit = message) ∧
    (∀ config deviceId fit, Beacon.parse (type1Header config deviceId fit) =
      some (Beacon.sent config deviceId fit)) ∧
    (∀ header beacon, Beacon.parse header = some beacon ↔ beacon.word = header.setWidth 40) := by
  refine ⟨fun config deviceId input fit => ?_, fun header message => ?_, fun message => ?_,
    fun config deviceId fit => ?_, fun header beacon => ?_⟩
  · exact (parse_eq_some_iff_holdsMessage _ _).mpr (type2Header_holds config deviceId input fit)
  · exact (parse_eq_some_iff_holdsMessage _ _).trans (holdsMessage_iff_header header message)
  · refine ⟨_, _, message.params, _, message.transmitter.isLt, ?_, message.sent_params⟩
    unfold Message.params
    cases message.usage <;> simp
  · exact (parse_eq_some_iff_holdsBeacon _ _).mpr (type1Header_holds config deviceId fit)
  · exact (parse_eq_some_iff_holdsBeacon _ _).trans (holdsBeacon_iff_word header beacon)

end DectHarq
