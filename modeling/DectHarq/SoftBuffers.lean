/-
This file settles what a request makes of the soft buffer of its process.

The announced packet should take its capacity from the process's share of the soft
buffer, or leave the share alone and ask for another format when the share is too small.
The size of the packet is compared with the share in full, but the helper that takes it
away has only eight bits for it. Capacities of 256 bytes and more are therefore taken
modulo 256, and the status that is sent reports what is left after that.
-/

import DectHarq.Handshake
import DectHarq.PacketLengths

namespace DectHarq

variable {config : Config}

/-! ### The buffer status -/

/-- The largest sizes that the buffer status codes below `0xf` report. -/
def bufferThresholds : List Nat :=
  [0, 16, 32, 64, 128, 256, 512, 1024, 2048, 4096, 8192, 16384, 32768, 65536, 131072]

/-- A buffer status code reports at least a size: `0xf` has no threshold. -/
def ReportsSize (size code : Nat) : Prop :=
  code = 0xf ∨ ∃ threshold, bufferThresholds[code]? = some threshold ∧ size ≤ threshold

/-- The position of the first entry that satisfies a test is the least one, counting the end of
the list as a last one. -/
theorem findIdx_isLeast {Value : Type} (test : Value → Bool) (list : List Value) :
    IsLeast {position | position = list.length ∨
      ∃ value, list[position]? = some value ∧ test value = true} (list.findIdx test) := by
  constructor
  · rcases Nat.lt_or_ge (list.findIdx test) list.length with inside | outside
    · exact Or.inr ⟨_, List.getElem?_eq_getElem inside, List.findIdx_getElem⟩
    · exact Or.inl (le_antisymm List.findIdx_le_length outside)
  · rintro position (rfl | ⟨value, found, passed⟩)
    · exact List.findIdx_le_length
    · obtain ⟨inside, rfl⟩ := List.getElem?_eq_some_iff.mp found
      by_contra earlier
      exact absurd passed (ne_true_of_eq_false (List.not_of_lt_findIdx (Nat.not_le.mp earlier)))

/-- One step of a ladder of comparisons. -/
theorem findIdx_step (start size threshold : Nat) (rest : List Nat) :
    start + (threshold :: rest).findIdx (fun threshold => decide (size ≤ threshold)) =
      if size ≤ threshold then start
      else start + 1 + rest.findIdx fun threshold => decide (size ≤ threshold) := by
  rw [List.findIdx_cons]
  by_cases within : size ≤ threshold
  · rw [if_pos within, decide_eq_true within]
    rfl
  · rw [if_neg within, decide_eq_false within, Nat.add_assoc, Nat.add_comm 1]
    rfl

/-- The status is the position of the first threshold that the size is within. -/
theorem bufferStatus_eq (size : Nat) :
    bufferStatus size = bufferThresholds.findIdx fun threshold => decide (size ≤ threshold) := by
  rw [← Nat.zero_add (bufferThresholds.findIdx _)]
  unfold bufferThresholds bufferStatus
  simp only [findIdx_step, List.findIdx_nil, Nat.le_zero]

/-- The buffer status of a size is the smallest code that reports it. -/
theorem bufferStatus_isLeast (size : Nat) :
    IsLeast {code | ReportsSize size code} (bufferStatus size) := by
  have least := findIdx_isLeast (fun threshold => decide (size ≤ threshold)) bufferThresholds
  rw [← bufferStatus_eq] at least
  simp only [decide_eq_true_eq] at least
  exact least

/-! ### The space that is left -/

/-- The capacity of the packet that a header announces. -/
def announcedCapacity (header : PhyHeader) : Nat :=
  dectMacUtilsGetBytesFromPacketLength (Type2.packetLength.get header) (Type2.dfMcs.get header)

/-- What a packet should leave of a share of the soft buffer: a packet that exceeds it takes
nothing. -/
def spaceLeft (share capacity : Nat) : Nat :=
  if capacity ≤ share then share - capacity else share

/-- A request leaves its process the share of the soft buffer less the eight low bits of the
capacity, if they are within the share. -/
theorem requestProcess_space {capabilities : Capabilities} {header : PhyHeader}
    {harq after : Harq config}
    (requested : requestProcess capabilities header harq = .ok after) :
    ∃ index : Fin config.harqProcessCount, (index : Nat) = Type2.dfHarqProcessNr.get header ∧
      (after.processes index).bufferSize =
        spaceLeft (softBufferShare config capabilities) (uint8 (announcedCapacity header)) := by
  unfold requestProcess at requested
  obtain ⟨index, found, rest⟩ := bind_ok.mp requested
  have number := processIndex_ok found
  refine ⟨index, number, ?_⟩
  have bound : Type2.dfHarqProcessNr.get header < config.harqProcessCount := number ▸ index.isLt
  have equal : index = ⟨Type2.dfHarqProcessNr.get header, bound⟩ := Fin.ext number
  rw [← ok_inj rest]
  generalize Type2.dfHarqProcessNr.get header = processNr at bound equal
  unfold dectMacHarqRemoveBufferSpace spaceLeft
  rw [dif_pos bound, ← equal]
  dsimp only
  rw [modify_processes_self]
  split
  · rename_i small
    have exceeds : ¬ uint8 (announcedCapacity header) ≤ softBufferShare config capabilities :=
      Nat.not_le.mpr small
    rw [if_neg exceeds]
    dsimp only
    rw [modify_processes_self]
    rfl
  · rename_i large
    have within : uint8 (announcedCapacity header) ≤ softBufferShare config capabilities :=
      Nat.not_lt.mp large
    rw [if_pos within]
    dsimp only
    rw [modify_processes_self, modify_processes_self]
    rfl

/-- A packet with a capacity leaves what it should exactly when eight bits hold the capacity, or
its eight low bits already exceed the share. -/
theorem spaceLeft_narrowed_iff {mcs length capacity : Nat} (valid : HasCapacity mcs length capacity)
    (share : Nat) :
    spaceLeft share (uint8 capacity) = spaceLeft share capacity ↔
      capacity < 256 ∨ share < capacity % 256 := by
  have multiples : ∀ row ∈ bytePerMcsAndLength, ∀ entry ∈ row, entry % 256 = 0 → entry = 0 := by
    decide
  obtain ⟨row, inTable, inRow⟩ := valid
  have multiple := multiples row (List.mem_of_getElem? inTable) capacity
    (List.mem_of_getElem? inRow)
  have narrowed : uint8 capacity = capacity % 256 := by
    unfold uint8
    omega
  rw [narrowed]
  unfold spaceLeft
  split <;> split <;> omega

/-! ### The reply -/

/-- The feedback format of a reply: 6 when the packet exceeds the share, else 1. -/
def formatFor (share capacity : Nat) : Nat :=
  if capacity ≤ share then feedbackFormat1 else feedbackFormat6

/-- The reply to a request carries the feedback for its announced capacity and for the space that
is left. -/
theorem harqRequest_reply {header : PhyHeader} {startTime : Nat} {ret : Int}
    {system after : System config} {code : ErrorCode}
    (handled : dectMacHarqRequest header startTime ret system = .ok (code, after)) :
    ∃ reply, after.phy.modemCalls = system.phy.modemCalls ++ [(.txHarq reply, ret)] ∧
      Type2.feedbackFormat.get reply.header =
        formatFor (softBufferShare config system.phy.capabilities) (announcedCapacity header) ∧
      ∀ modem, Format1.bufferStatus.get
          (headerFeedback (withTransmissionFeedback modem reply.header)) =
        dectMacHarqGetBufferStatus (Type2.dfHarqProcessNr.get header) after.harq := by
  obtain ⟨harq, _, handled⟩ := bind_ok.mp handled
  obtain ⟨⟨cqi, nodes⟩, _, handled⟩ := bind_ok.mp handled
  obtain ⟨phy, sent, handled⟩ := bind_ok.mp handled
  obtain ⟨⟨putCode, queue⟩, _, handled⟩ := bind_ok.mp handled
  cases handled
  obtain ⟨⟨params, sentNodes⟩, configured, sent⟩ := bind_ok.mp sent
  cases sent
  obtain ⟨⟨fit, fitted⟩, _, built⟩ := bind_ok.mp configured
  cases built
  have reads := type2Header_reads config system.phy.deviceId (replyParams config header startTime
    (requestFeedback system.phy.capabilities header cqi harq)).toTx fit
  refine ⟨_, rfl, reads.feedbackFormat.trans ?_, fun modem => (reads.feedback modem).2.2.trans ?_⟩
  · show (requestFeedback system.phy.capabilities header cqi harq).format % 2 ^ 4 = _
    unfold requestFeedback formatFor announcedCapacity
    dsimp only
    split
    · rename_i exceeds
      rw [if_neg (Nat.not_le.mpr exceeds)]
      rfl
    · rename_i within
      rw [if_pos (Nat.not_lt.mp within)]
      rfl
  · show Format1.bufferStatus.get (requestFeedback system.phy.capabilities header cqi harq).info = _
    rw [(requestFeedback_carries config system.phy.capabilities header cqi harq).status]
    exact Nat.mod_eq_of_lt (getBufferStatus_lt _ _)

/-! ### Exact accounting -/

/-- The soft buffer accounting of a request is exact: the process it names is left with the share
less the announced capacity, or with the share when that is too small, and the reply is in
the format for that, with the smallest buffer status that reports the space left. -/
structure ExactAccounting (header : PhyHeader) (ret : Int) (system after : System config)
    (capacity : Nat) : Prop where
  bufferSize : ∃ index : Fin config.harqProcessCount,
    (index : Nat) = Type2.dfHarqProcessNr.get header ∧
      (after.harq.processes index).bufferSize =
        spaceLeft (softBufferShare config system.phy.capabilities) capacity
  reply : ∃ reply, after.phy.modemCalls = system.phy.modemCalls ++ [(.txHarq reply, ret)] ∧
    Type2.feedbackFormat.get reply.header =
      formatFor (softBufferShare config system.phy.capabilities) capacity ∧
    ∀ modem, IsLeast {code | ReportsSize
        (spaceLeft (softBufferShare config system.phy.capabilities) capacity) code}
      (Format1.bufferStatus.get (headerFeedback (withTransmissionFeedback modem reply.header)))

/-- The accounting of a request that names a valid capacity is exact when the capacity is below 256
bytes, or when its eight low bits already exceed the share, and never otherwise. -/
theorem exactAccounting_iff {header : PhyHeader} {startTime capacity : Nat} {ret : Int}
    {system after : System config} {code : ErrorCode}
    (valid : HasCapacity (Type2.dfMcs.get header) (Type2.packetLength.get header) capacity)
    (handled : dectMacHarqRequest header startTime ret system = .ok (code, after)) :
    ExactAccounting header ret system after capacity ↔
      capacity < 256 ∨ softBufferShare config system.phy.capabilities < capacity % 256 := by
  have announced : announcedCapacity header = capacity := valid.bytes
  obtain ⟨reply, calls, format, status⟩ := harqRequest_reply handled
  obtain ⟨harq, _, _, _, requested, handledHarq, _⟩ := harqRequest_cases handled
  obtain ⟨index, number, space⟩ := requestProcess_space requested
  have kept : after.harq.processes index = harq.processes index := by
    rw [handledHarq]
  rw [announced] at space format
  rw [← spaceLeft_narrowed_iff valid, ← space, ← kept]
  constructor
  · rintro ⟨⟨other, named, size⟩, _⟩
    obtain rfl : other = index := Fin.ext (named.trans number.symm)
    exact size
  · intro size
    refine ⟨⟨index, number, size⟩, reply, calls, format, fun modem => ?_⟩
    have own : dectMacHarqGetBufferStatus (Type2.dfHarqProcessNr.get header) after.harq =
        bufferStatus (after.harq.processes index).bufferSize := by
      unfold dectMacHarqGetBufferStatus
      simp only [← number, index.isLt, dif_pos]
    rw [status modem, own, ← size]
    exact bufferStatus_isLeast _

/-- A device whose processes have 2000 bytes of the soft buffer each. -/
def bufferedDevice : System projectConfig :=
  { device with phy := { device.phy with capabilities := ⟨4, 64000⟩ } }

/-- A HARQ transmission of device 7 to device 5 on process 0, with an MCS and a packet length. -/
def sizedRequest (mcs length : Nat) : PhyHeader :=
  type2Header projectConfig 7
    { handle := 0, txUsage := .harq, lbtEnable := false, data := none, dataSize := 5,
      receiverId := 5, feedback := Feedback.none, harq := HarqTxParams.store 0 1 0, startTime := 0 }
    ⟨13, mcs, length⟩

/-- A packet of 217 bytes is accounted for. -/
theorem exactAccounting_small : ∃ code after,
    dectMacHarqRequest (sizedRequest 4 2) 0 0 bufferedDevice = .ok (code, after) ∧
      ExactAccounting (sizedRequest 4 2) 0 bufferedDevice after 217 := by
  have returns : (dectMacHarqRequest (sizedRequest 4 2) 0 0 bufferedDevice).isOk = true := by
    decide +kernel
  have valid : HasCapacity (Type2.dfMcs.get (sizedRequest 4 2))
      (Type2.packetLength.get (sizedRequest 4 2)) 217 := by
    rw [show Type2.dfMcs.get (sizedRequest 4 2) = 4 by decide +kernel,
      show Type2.packetLength.get (sizedRequest 4 2) = 2 by decide +kernel]
    exact ⟨_, rfl, rfl⟩
  cases handled : dectMacHarqRequest (sizedRequest 4 2) 0 0 bufferedDevice with
  | error stop =>
    rw [handled] at returns
    cases returns
  | ok result =>
    obtain ⟨code, after⟩ := result
    exact ⟨code, after, rfl, (exactAccounting_iff valid handled).mpr (Or.inl (by decide))⟩

/-- A packet of 311 bytes leaves 1945 bytes of the 2000, not 1689. -/
theorem accounting_narrows : ¬ ∀ (header : PhyHeader) (startTime capacity : Nat) (ret : Int)
    (system after : System projectConfig) (code : ErrorCode),
    HasCapacity (Type2.dfMcs.get header) (Type2.packetLength.get header) capacity →
    dectMacHarqRequest header startTime ret system = .ok (code, after) →
      ExactAccounting header ret system after capacity := by
  intro always
  obtain ⟨⟨code, after⟩, handled, left⟩ := Transition.exists_of_succeedsWith
    (dectMacHarqRequest (sizedRequest 4 3) 0 0 bufferedDevice)
    (fun result => (result.2.harq.processes (processZero projectConfig)).bufferSize == 1945)
    (by decide +kernel)
  have number : Type2.dfHarqProcessNr.get (sizedRequest 4 3) = 0 := by decide +kernel
  have valid : HasCapacity (Type2.dfMcs.get (sizedRequest 4 3))
      (Type2.packetLength.get (sizedRequest 4 3)) 311 := by
    rw [show Type2.dfMcs.get (sizedRequest 4 3) = 4 by decide +kernel,
      show Type2.packetLength.get (sizedRequest 4 3) = 3 by decide +kernel]
    exact ⟨_, rfl, rfl⟩
  obtain ⟨index, named, size⟩ := (always _ _ 311 _ _ _ _ valid handled).bufferSize
  obtain rfl : index = processZero projectConfig := Fin.ext (named.trans number)
  rw [eq_of_beq left] at size
  exact absurd size (by decide)

end DectHarq
