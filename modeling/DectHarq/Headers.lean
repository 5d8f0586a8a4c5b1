/-
This file proves what a receiver reads in a header.

Each field of a type 2 header is disjoint from the others, so a read returns what was
stored, truncated to the width of the field. The feedback word passes through two
header fields and is read back through a structure that splits it differently; a field
of the word that lies within one of the two bytes survives the trip.
-/

import DectHarq.HarqMoves

namespace DectHarq

variable {config : Config}

/-! ### The fields of a type 2 header -/

/-- What a receiver reads in every type 2 header. -/
structure ReadsBack (config : Config) (deviceId : Nat) (input : TxParams) (fit : Fit)
    (header : PhyHeader) : Prop where
  packetLength : Type2.packetLength.get header = fit.packetLength % 2 ^ 4
  shortNetworkId : Type2.shortNetworkId.get header = (config.networkId &&& 0xff) % 2 ^ 8
  transmitterIdHi : Type2.transmitterIdHi.get header = (deviceId >>> 8) % 2 ^ 8
  transmitterIdLo : Type2.transmitterIdLo.get header = (deviceId &&& 0xff) % 2 ^ 8
  transmitPower : Type2.transmitPower.get header = fit.txPower % 2 ^ 4
  dfMcs : Type2.dfMcs.get header = fit.dfMcs % 2 ^ 4
  receiverIdHi : Type2.receiverIdHi.get header = (input.receiverId >>> 8) % 2 ^ 8
  receiverIdLo : Type2.receiverIdLo.get header = (input.receiverId &&& 0xff) % 2 ^ 8
  feedbackFormat : Type2.feedbackFormat.get header = input.feedback.format % 2 ^ 4
  feedbackInfoHi : Type2.feedbackInfoHi.get header = FeedbackByte.hi.get input.feedback.info % 2 ^ 4
  feedbackInfoLo : Type2.feedbackInfoLo.get header = FeedbackByte.lo.get input.feedback.info % 2 ^ 8

theorem type2Common_reads (config : Config) (deviceId : Nat) (input : TxParams) (fit : Fit) :
    ReadsBack config deviceId input fit (type2Common config deviceId input fit) := by
  constructor <;> unfold type2Common <;>
    simp (disch := decide) only [BitField.get_set_of_disjoint, BitField.get_set_self]
  all_goals rfl

/-- Storing the four fields that depend on the usage disturbs none of the common fields. -/
theorem ReadsBack.usage {deviceId : Nat} {input : TxParams} {fit : Fit} {header : PhyHeader}
    (reads : ReadsBack config deviceId input fit header) (format version new process : Nat) :
    ReadsBack config deviceId input fit
      (header
        |> Type2.headerFormat.set format
        |> Type2.dfRedVersion.set version
        |> Type2.dfInd.set new
        |> Type2.dfHarqProcessNr.set process) := by
  obtain ⟨_, _, _, _, _, _, _, _, _, _, _⟩ := reads
  constructor <;>
    simp (disch := decide) only [BitField.get_set_of_disjoint] <;> assumption

theorem type2Header_reads (config : Config) (deviceId : Nat) (input : TxParams) (fit : Fit) :
    ReadsBack config deviceId input fit (type2Header config deviceId input fit) := by
  unfold type2Header
  split
  · exact (type2Common_reads config deviceId input fit).usage _ _ _ _
  · exact (type2Common_reads config deviceId input fit).usage _ _ _ _

/-- A HARQ transmission has the format 000 and names its process. -/
theorem type2Header_harq (config : Config) (deviceId : Nat) {input : TxParams} (fit : Fit)
    (harq : input.txUsage = .harq) :
    Type2.headerFormat.get (type2Header config deviceId input fit) = headerFormat000 ∧
      Type2.dfHarqProcessNr.get (type2Header config deviceId input fit) =
        input.harq.harqProcessNr % 2 ^ 3 := by
  unfold type2Header
  rw [if_pos harq]
  constructor
  · simp (disch := decide) only [BitField.get_set_of_disjoint, BitField.get_set_self]
    rfl
  · simp (disch := decide) only [BitField.get_set_self]
    rfl

/-- Any other transmission has the format 001. -/
theorem type2Header_noHarq (config : Config) (deviceId : Nat) {input : TxParams} (fit : Fit)
    (noHarq : input.txUsage ≠ .harq) :
    Type2.headerFormat.get (type2Header config deviceId input fit) = headerFormat001 := by
  unfold type2Header
  rw [if_neg noHarq]
  simp (disch := decide) only [BitField.get_set_of_disjoint, BitField.get_set_self]
  rfl

/-! ### Addresses -/

/-- The two bytes of a 16-bit id. -/
theorem id_bytes {id : Nat} (small : id < 65536) :
    (id >>> 8) % 2 ^ 8 = id >>> 8 ∧ (id &&& 0xff) % 2 ^ 8 = id &&& 0xff ∧
      (id >>> 8) <<< 8 ||| (id &&& 0xff) = id := by
  have high : id >>> 8 < 2 ^ 8 := by
    rw [Nat.shiftRight_eq_div_pow]
    omega
  have low : id &&& 0xff = id % 2 ^ 8 := Nat.and_two_pow_sub_one_eq_mod id 8
  refine ⟨Nat.mod_eq_of_lt high, ?_, ?_⟩
  · rw [low, Nat.mod_mod]
  · rw [low, ← Nat.shiftLeft_add_eq_or_of_lt (Nat.mod_lt id (by decide)), Nat.shiftLeft_eq,
      Nat.shiftRight_eq_div_pow]
    omega

theorem networkByte (config : Config) :
    (config.networkId &&& 0xff) % 2 ^ 8 = config.networkId &&& 0xff := by
  rw [show (0xff : Nat) = 2 ^ 8 - 1 from rfl, Nat.and_two_pow_sub_one_eq_mod, Nat.mod_mod]

/-- A header names the device that built it as its transmitter, through both views. -/
theorem ReadsBack.transmitter {deviceId : Nat} {input : TxParams} {fit : Fit} {header : PhyHeader}
    (reads : ReadsBack config deviceId input fit header) (small : deviceId < 65536) :
    transmitterId header = deviceId ∧
      Type1.transmitterIdHi.get header <<< 8 ||| Type1.transmitterIdLo.get header = deviceId := by
  obtain ⟨high, low, whole⟩ := id_bytes small
  have both : transmitterId header = deviceId := by
    rw [transmitterId, reads.transmitterIdHi, reads.transmitterIdLo, high, low, whole]
  exact ⟨both, both⟩

/-- A header passes both receiver filters of the device it is addressed to. -/
theorem ReadsBack.addressed {sender receiver : Config} {deviceId : Nat} {input : TxParams}
    {fit : Fit} {header : PhyHeader} (reads : ReadsBack sender deviceId input fit header)
    (sameNetwork : sender.networkId = receiver.networkId) (small : input.receiverId < 65536) :
    requestAddressed receiver input.receiverId header = true ∧
      responseAddressed receiver input.receiverId header = true := by
  obtain ⟨high, low, _⟩ := id_bytes small
  have network : Type2.shortNetworkId.get header = receiver.networkId &&& 0xff := by
    rw [reads.shortNetworkId, networkByte, sameNetwork]
  have highByte := reads.receiverIdHi.trans high
  have lowByte := reads.receiverIdLo.trans low
  exact ⟨decide_eq_true ⟨network, Or.inl ⟨highByte, lowByte⟩⟩,
    decide_eq_true ⟨network, Or.inl ⟨highByte, lowByte⟩⟩⟩

/-! ### The feedback word -/

/-- The one bit the modem changes in a reply. -/
def transmissionFeedbackBit : BitField := ⟨64, 1⟩

/-- A reply as the modem sends it. -/
def withTransmissionFeedback (feedback : Nat) (header : PhyHeader) : PhyHeader :=
  transmissionFeedbackBit.set feedback header

/-- The modem's bit disturbs no common field but the byte it is in. -/
theorem withTransmissionFeedback_get (feedback : Nat) (header : PhyHeader) (field : BitField)
    (apart : BitField.Disjoint field transmissionFeedbackBit) :
    field.get (withTransmissionFeedback feedback header) = field.get header :=
  BitField.get_set_of_disjoint field _ feedback header apart

/-- A field within the high nibble of the feedback word is read where the header has it. -/
theorem headerFeedback_hi (header : PhyHeader) (start width : Nat) (inside : start + width ≤ 4) :
    (BitField.mk start width).get (headerFeedback header) =
      (BitField.mk (64 + start) width).get header := by
  have word := BitField.get_slice FeedbackByte.hi start width (headerFeedback header) inside
  have stored : FeedbackByte.hi.get (headerFeedback header) =
      Type2.feedbackInfoHi.get header % 2 ^ 4 := by
    unfold headerFeedback
    simp (disch := decide) only [BitField.get_set_of_disjoint, BitField.get_set_self]
    rfl
  have small : Type2.feedbackInfoHi.get header < 2 ^ 4 := BitField.get_lt _ header
  rw [stored, Nat.mod_eq_of_lt small] at word
  have position : BitField.mk (FeedbackByte.hi.offset + start) width = BitField.mk start width := by
    rw [show FeedbackByte.hi.offset = 0 from rfl, Nat.zero_add]
  rw [position] at word
  rw [word]
  exact (BitField.get_slice Type2.feedbackInfoHi start width header inside).symm

/-- A field within the low byte of the feedback word is read where the header has it. -/
theorem headerFeedback_lo (header : PhyHeader) (start width : Nat) (inside : start + width ≤ 8) :
    (BitField.mk (8 + start) width).get (headerFeedback header) =
      (BitField.mk (72 + start) width).get header := by
  have word := BitField.get_slice FeedbackByte.lo start width (headerFeedback header) inside
  have stored : FeedbackByte.lo.get (headerFeedback header) =
      Type2.feedbackInfoLo.get header % 2 ^ 8 := by
    unfold headerFeedback
    simp (disch := decide) only [BitField.get_set_self]
    rfl
  have small : Type2.feedbackInfoLo.get header < 2 ^ 8 := BitField.get_lt _ header
  rw [stored, Nat.mod_eq_of_lt small] at word
  rw [show BitField.mk (8 + start) width = BitField.mk (FeedbackByte.lo.offset + start) width
    from rfl, word]
  exact (BitField.get_slice Type2.feedbackInfoLo start width header inside).symm

/-- The fields of the feedback word other than the modem's bit arrive as they were sent. -/
theorem ReadsBack.feedback {deviceId : Nat} {input : TxParams} {fit : Fit} {header : PhyHeader}
    (reads : ReadsBack config deviceId input fit header) (modem : Nat) :
    Format1.harqProcessNumber.get (headerFeedback (withTransmissionFeedback modem header)) =
        Format1.harqProcessNumber.get input.feedback.info ∧
      Format1.channelQualityIndicator.get (headerFeedback (withTransmissionFeedback modem header)) =
        Format1.channelQualityIndicator.get input.feedback.info ∧
      Format1.bufferStatus.get (headerFeedback (withTransmissionFeedback modem header)) =
        Format1.bufferStatus.get input.feedback.info := by
  have smallHi : FeedbackByte.hi.get input.feedback.info < 2 ^ 4 := BitField.get_lt _ _
  have smallLo : FeedbackByte.lo.get input.feedback.info < 2 ^ 8 := BitField.get_lt _ _
  have hi := reads.feedbackInfoHi.trans (Nat.mod_eq_of_lt smallHi)
  have lo := reads.feedbackInfoLo.trans (Nat.mod_eq_of_lt smallLo)
  refine ⟨?_, ?_, ?_⟩
  · show (BitField.mk 1 3).get _ = (BitField.mk (FeedbackByte.hi.offset + 1) 3).get _
    rw [headerFeedback_hi _ 1 3 (by decide),
      withTransmissionFeedback_get _ _ _ (by decide), BitField.get_slice _ 1 3 _ (by decide), ← hi]
    exact BitField.get_slice Type2.feedbackInfoHi 1 3 header (by decide)
  · show (BitField.mk (8 + 0) 4).get _ = (BitField.mk (FeedbackByte.lo.offset + 0) 4).get _
    rw [headerFeedback_lo _ 0 4 (by decide),
      withTransmissionFeedback_get _ _ _ (by decide), BitField.get_slice _ 0 4 _ (by decide), ← lo]
    exact BitField.get_slice Type2.feedbackInfoLo 0 4 header (by decide)
  · show (BitField.mk (8 + 4) 4).get _ = (BitField.mk (FeedbackByte.lo.offset + 4) 4).get _
    rw [headerFeedback_lo _ 4 4 (by decide),
      withTransmissionFeedback_get _ _ _ (by decide), BitField.get_slice _ 4 4 _ (by decide), ← lo]
    exact BitField.get_slice Type2.feedbackInfoLo 4 4 header (by decide)

/-- Both feedback formats carry the process number, the channel quality and the buffer status in
the same bits. -/
structure FeedbackCarries (number cqi status : Nat) (info : FeedbackInfo) : Prop where
  number : Format1.harqProcessNumber.get info = number % 2 ^ 3
  cqi : Format1.channelQualityIndicator.get info = cqi % 2 ^ 4
  status : Format1.bufferStatus.get info = status % 2 ^ 4

theorem format1Feedback_carries (number cqi status : Nat) :
    FeedbackCarries number cqi status (format1Feedback number cqi status).info := by
  constructor <;> unfold format1Feedback <;>
    simp (disch := decide) only [BitField.get_set_of_disjoint, BitField.get_set_self]
  all_goals rfl

theorem format6Feedback_carries (number cqi status : Nat) :
    FeedbackCarries number cqi status (format6Feedback number cqi status).info := by
  unfold format6Feedback
  rw [show Format6.harqProcessNumber = Format1.harqProcessNumber from rfl,
    show Format6.channelQualityIndicator = Format1.channelQualityIndicator from rfl,
    show Format6.bufferStatus = Format1.bufferStatus from rfl]
  constructor <;>
    simp (disch := decide) only [BitField.get_set_of_disjoint, BitField.get_set_self]
  all_goals rfl

end DectHarq
