/-
This file shows that the devices of a network understand each other.

Whatever the applications do, every frame on the air is the header of a message or a
beacon: it says the parameters of an operation that its sender was told to transmit, or of
a reply, with the fit that tx_config chose for them; the modem changes one bit of it. The
callback reads the transmitter and the power of every header through the view of a beacon,
and the receiver, the process and the feedback through the view of a message: both views
read the message that was sent. So a message is taken for a request or for a response for
what it says, and for nothing else.
-/

import DectHarq.Messages
import DectHarq.Network
import DectHarq.Orders

namespace DectHarq

open Airwaves

/-! ### What a receiver understands -/

/-- A message asks a device for the reception of a packet. -/
structure Message.Requests (config : Config) (deviceId : Nat) (message : Message) : Prop where
  usage : message.usage ≠ .noHarq
  network : message.network = BitVec.ofNat 8 config.networkId
  receiver : message.receiver.toNat = deviceId ∨ message.receiver.toNat = broadcastId

/-- A message tells a device about a packet it sent. The high byte of the broadcast id is enough. -/
structure Message.Responds (config : Config) (deviceId : Nat) (message : Message) : Prop where
  usage : message.usage = .noHarq
  network : message.network = BitVec.ofNat 8 config.networkId
  receiver : message.receiver.toNat = deviceId ∨ message.receiver.toNat >>> 8 = 0xff
  feedback : message.feedback.format.toNat = feedbackFormat1 ∨
    message.feedback.format.toNat = feedbackFormat6

/-- What a device reads in a header is what a message says. -/
structure ReadAs (config : Config) (deviceId : Nat) (status : PccStatus) (header : PhyHeader)
    (message : Message) : Prop where
  transmitter : Type1.transmitterIdHi.get header <<< 8 ||| Type1.transmitterIdLo.get header =
    message.transmitter.toNat
  power : Type1.transmitPower.get header = message.power.toNat
  packetLength : Type2.packetLength.get header = message.packetLength.toNat
  mcs : Type2.dfMcs.get header = message.mcs.toNat
  process : Type2.dfHarqProcessNr.get header = message.usage.process
  feedback : Format1.transmissionFeedback.get (headerFeedback header) =
      message.feedback.transmission.toNat ∧
    feedbackProcess header = message.feedback.process.toNat ∧
    Format1.channelQualityIndicator.get (headerFeedback header) =
      message.feedback.channelQuality.toNat ∧
    Format1.bufferStatus.get (headerFeedback header) = message.feedback.bufferStatus.toNat
  request : IsRequest config deviceId status header ↔ message.Requests config deviceId
  response : IsResponse config deviceId status header ↔ message.Responds config deviceId

section ReadAs

variable {config : Config} {deviceId : Nat} {status : PccStatus} {header : PhyHeader}
  {message : Message}

theorem HoldsMessage.network_iff (holds : HoldsMessage header message) :
    Type2.shortNetworkId.get header = config.networkId &&& 0xff ↔
      message.network = BitVec.ofNat 8 config.networkId := by
  rw [holds.shortNetworkId, ← networkByte, networkBits]
  exact BitVec.toNat_inj

theorem Usage.format_iff (usage : Usage) :
    (usage.format = headerFormat000 ↔ usage ≠ .noHarq) ∧
      (usage.format = headerFormat001 ↔ usage = .noHarq) := by
  cases usage with
  | harq process newData redundancyVersion =>
    show (headerFormat000 = headerFormat000 ↔ _) ∧ (headerFormat000 = headerFormat001 ↔ _)
    simp [headerFormat000, headerFormat001]
  | noHarq =>
    show (headerFormat001 = headerFormat000 ↔ _) ∧ (headerFormat001 = headerFormat001 ↔ _)
    simp [headerFormat000, headerFormat001]

theorem HoldsMessage.isRequest_iff (holds : HoldsMessage header message)
    (type2 : status.phyType = headerType2) :
    IsRequest config deviceId status header ↔ message.Requests config deviceId := by
  have receiver : (Type2.receiverIdHi.get header = 0xff ∧ Type2.receiverIdLo.get header = 0xff) ↔
      receiverId header = broadcastId := (receiverId_eq_iff header broadcastId).symm
  unfold IsRequest requestAddressed
  rw [decide_eq_true_iff, ← receiverId_eq_iff, receiver, holds.network_iff, holds.receiverId_eq,
    holds.headerFormat, (Usage.format_iff _).1]
  exact ⟨fun ⟨_, usage, network, receiver⟩ => ⟨usage, network, receiver⟩,
    fun requests => ⟨type2, requests.usage, requests.network, requests.receiver⟩⟩

theorem HoldsMessage.isResponse_iff (holds : HoldsMessage header message)
    (type2 : status.phyType = headerType2) :
    IsResponse config deviceId status header ↔ message.Responds config deviceId := by
  unfold IsResponse responseAddressed
  rw [decide_eq_true_iff, ← receiverId_eq_iff, and_self, holds.network_iff, holds.receiverId_eq,
    holds.receiverIdHi, holds.headerFormat, (Usage.format_iff _).2, holds.feedbackFormat]
  exact ⟨fun ⟨_, usage, ⟨network, receiver⟩, feedback⟩ => ⟨usage, network, receiver, feedback⟩,
    fun responds => ⟨type2, responds.usage, ⟨responds.network, responds.receiver⟩,
      responds.feedback⟩⟩

theorem HoldsMessage.readAs (holds : HoldsMessage header message)
    (type2 : status.phyType = headerType2) :
    ReadAs config deviceId status header message where
  transmitter := holds.transmitterId_eq
  power := holds.transmitPower
  packetLength := holds.packetLength
  mcs := holds.dfMcs
  process := holds.dfHarqProcessNr
  feedback := holds.feedback_eq
  request := holds.isRequest_iff type2
  response := holds.isResponse_iff type2

end ReadAs

/-! ### What is on the air -/

theorem HoldsBeacon.answered {header : PhyHeader} {beacon : Beacon}
    (holds : HoldsBeacon header beacon) (feedback : Nat) :
    HoldsBeacon (withTransmissionFeedback feedback header) beacon := by
  obtain ⟨_, _, _, _, _, _, _, _, _⟩ := holds
  constructor <;> rw [withTransmissionFeedback_get _ _ _ (by decide)] <;> assumption

/-- A frame conveys some parameters and a fit: a beacon with the fit, or the message of both, up to
the bit of the modem. -/
inductive Frame.Conveys (config : Config) (deviceId : Nat) (input : TxParams) (fit : Fit)
    (frame : Frame) : Prop
  | beacon (usage : input.txUsage = .beacon) (type1 : frame.phyType = headerType1)
      (parsed : Beacon.parse frame.header = some (Beacon.sent config deviceId fit))
  | message (message : Message) (usage : input.txUsage ≠ .beacon)
      (type2 : frame.phyType = headerType2) (parsed : Message.parse frame.header = some message)
      (same : message = Message.sent config deviceId input fit ∨
        ∃ bit, message = (Message.sent config deviceId input fit).answered bit)

/-- The frame of a call conveys what the header of the call was built for. -/
theorem HeaderOf.conveys {config : Config} {deviceId : Nat} {input : TxParams} {fit : Fit}
    {params : PhyTxParams} {frame : Frame} (headerOf : HeaderOf config deviceId input fit params)
    (phyType : frame.phyType = params.phyType)
    (header : frame.header = params.header ∨
      ∃ bit, frame.header = withTransmissionFeedback bit params.header) :
    frame.Conveys config deviceId input fit := by
  rw [headerOf.header] at header
  rw [headerOf.phyType] at phyType
  by_cases usage : input.txUsage = .beacon
  · rw [if_pos usage] at phyType header
    have holds := type1Header_holds config deviceId fit
    refine .beacon usage phyType ((parse_eq_some_iff_holdsBeacon _ _).mpr ?_)
    rcases header with same | ⟨bit, same⟩
    · rw [same]
      exact holds
    · rw [same]
      exact holds.answered bit
  · rw [if_neg usage] at phyType header
    have holds := type2Header_holds config deviceId input fit
    rcases header with same | ⟨bit, same⟩
    · refine .message _ usage phyType ((parse_eq_some_iff_holdsMessage _ _).mpr ?_) (Or.inl rfl)
      rw [same]
      exact holds
    · refine .message _ usage phyType ((parse_eq_some_iff_holdsMessage _ _).mpr ?_)
        (Or.inr ⟨bit, rfl⟩)
      rw [same]
      exact holds.answered bit

/-! ### What a device sends -/

section Device

variable {config : Config}

/-- The event of the program in what a device does. -/
def eventOf : Doing (station config) → Event config
  | .act event => event
  | .receive heard reception =>
    .pcc (heard.status reception) heard.header (Reception.ret reception)

/-- The modem decoded the data of the reception. -/
def decodedIn : Doing (station config) → Bool
  | .act _ => false
  | .receive _ reception => Reception.decoded reception

/-- The step of the program in a step of a device. -/
def stationStep (taken : Transition.Step (Device config) (Doing (station config))) :
    Transition.Step (System config) (Event config) :=
  ⟨taken.before.system, eventOf taken.label, taken.after.system⟩

/-- The frames that a device sends in a step. -/
def stepFrames (taken : Transition.Step (Device config) (Doing (station config))) : List Frame :=
  (newModemCalls (stationStep taken)).flatMap (onAir (decodedIn taken.label))

/-- A step of a device is one of its program, whose calls it sends. -/
theorem doingStep_cases {before after : Device config} {doing : Doing (station config)}
    (stepped : doingStep (station config) before doing = .ok after) :
    step before.system (eventOf doing) = .ok after.system ∧
      after.sent = before.sent ++ stepFrames ⟨before, doing, after⟩ := by
  cases doing with
  | act event => exact advance_cases (act_cases stepped).2
  | receive heard reception => exact advance_cases stepped

variable {start final : Device config}
  {steps : List (Transition.Step (Device config) (Doing (station config)))}

theorem station_run (run : Transition.Run (Transition.stepOf (doingStep (station config))) start
    steps final) : Run start.system (steps.map stationStep) final.system := by
  rw [← List.filterMap_eq_map]
  exact run.view Device.system _ fun _ _ _ stepped =>
    Or.inr ⟨_, rfl, (doingStep_cases stepped).1⟩

/-- A step of a program transmits with some parameters and a fit, and the frame is one of its calls
that the modem accepted. -/
def Frame.SentFor (steps : List (Transition.Step (System config) (Event config))) (input : TxParams)
    (fit : Fit) (frame : Frame) : Prop :=
  ∃ earlier taken later, steps = earlier ++ taken :: later ∧ Transmits earlier taken input fit ∧
    ∃ call ∈ newModemCalls taken, ∃ decoded, frame ∈ onAir decoded call

/-- Every frame of a device was sent for some parameters and a fit, and conveys them. -/
theorem frames_convey (booted : Booted start.system) (quiet : start.sent = [])
    (run : Transition.Run (Transition.stepOf (doingStep (station config))) start steps final)
    {frame : Frame} (member : frame ∈ final.sent) :
    ∃ input fit, frame.SentFor (steps.map stationStep) input fit ∧
      frame.Conveys config start.system.phy.deviceId input fit := by
  obtain ⟨taken, inside, sends⟩ : ∃ taken ∈ steps, frame ∈ stepFrames taken :=
    sent_in_step (fun _ _ _ stepped => (doingStep_cases stepped).2) run quiet member
  obtain ⟨call, called, air⟩ := List.mem_flatMap.mp sends
  obtain ⟨params, transmission, phyType, header⟩ := mem_onAir air
  obtain ⟨earlier, later, cut⟩ := List.append_of_mem inside
  have program := station_run run
  have cutProgram : steps.map stationStep =
      earlier.map stationStep ++ stationStep taken :: later.map stationStep := by
    rw [cut, List.map_append, List.map_cons]
  obtain ⟨input, fit, transmits, headerOf⟩ :=
    calls_ordered booted program cutProgram called transmission
  have own : (stationStep taken).before.phy.deviceId = start.system.phy.deviceId :=
    (run_invariant booted (program.split_at cutProgram).1
      (fun system => system.phy.deviceId = start.system.phy.deviceId) (fun _ _ => True) rfl
      (fun _ _ _ _ _ same action => action.deviceId.trans same) fun _ _ => trivial).2
  rw [own] at headerOf
  exact ⟨input, fit, ⟨_, _, _, cutProgram, transmits, call, called, _, air⟩,
    headerOf.conveys phyType header⟩

end Device

/-! ### Understanding -/

section Network

variable {Name : Type} [DecidableEq Name] {configs : Name → Config} {ids : Name → Nat}
  {start final : States (stations configs)} {steps earlier later : Steps (stations configs)}

/-- The steps of the program of a device in those of the network. -/
def stationSteps (name : Name) (steps : Steps (stations configs)) :
    List (Transition.Step (System (configs name)) (Event (configs name))) :=
  (ownSteps name steps).map stationStep

/-- A receiver understands a frame: it is of type 1 or what is read in it is what its message
says. -/
def Understands (config : Config) (deviceId : Nat) (reception : Reception) (frame : Frame) : Prop :=
  frame.phyType = headerType1 ∨ ∃ message, Message.parse frame.header = some message ∧
    ReadAs config deviceId (frame.status reception) frame.header message

/-- In every run of a network of devices, whatever their applications do and whatever the medium
loses, delays, repeats and reorders: a frame that a device receives was sent in an earlier step of
its sender, for an operation that the sender was told to transmit or for a reply to a header, and
with the fit that tx_config chose in that step. It conveys these parameters and this fit, up to the
bit of the modem, and what the receiver reads in a frame of type 2 is what the message says. -/
theorem messages_understood (deployed : Deployed configs ids start)
    (run : NetworkRun configs start steps final)
    {taken : Transition.Step (States (stations configs)) (Happening (stations configs))}
    (cut : steps = earlier ++ taken :: later) {sender receiver : Name} {frame : Frame}
    {reception : Reception} (label : taken.label = .received sender receiver frame reception) :
    (∃ input fit, frame.SentFor (stationSteps sender earlier) input fit ∧
      frame.Conveys (configs sender) (ids sender) input fit) ∧
    Understands (configs receiver) (ids receiver) reception frame := by
  obtain ⟨before, stepped, _⟩ := run.split_at cut
  have sent : frame ∈ (taken.before sender).sent := by
    have received : networkStep (stations configs) .disabled taken.before taken.label =
        .ok taken.after := stepped
    rw [label] at received
    exact (receive_of_step received).1
  obtain ⟨input, fit, sentFor, conveys⟩ := frames_convey (deployed.booted sender)
    (deployed.quiet sender) (own_run before sender) sent
  rw [deployed.deviceId sender] at conveys
  refine ⟨⟨input, fit, sentFor, conveys⟩, ?_⟩
  cases conveys with
  | beacon usage type1 parsed => exact Or.inl type1
  | message message usage type2 parsed same =>
    exact Or.inr ⟨message, parsed, ((parse_eq_some_iff_holdsMessage _ _).mp parsed).readAs type2⟩

end Network

/-- Device 5 understands the reply of device 7, which device 7 sent for the header it had heard. -/
theorem messages_understood_pair :
    (∃ input fit, (firstFrame packetHeard true).SentFor (stationSteps true
        (Transition.followAll (networkStep _ .disabled) pair packetHeard)) input fit ∧
      (firstFrame packetHeard true).Conveys projectConfig 7 input fit) ∧
    ∃ message, Message.parse (firstFrame packetHeard true).header = some message ∧
      message.transmitter = 7 ∧ message.feedback.transmission = 1 ∧
      message.Responds projectConfig 5 := by
  have type2 : (firstFrame packetHeard true).phyType = headerType2 := by decide +kernel
  have cut := Transition.followAll_append (networkStep _ .disabled) pair packetHeard
    [.received true false (firstFrame packetHeard true) ⟨0, -100, 40, false, 0⟩]
  obtain ⟨sent, understood⟩ := messages_understood pair_deployed packetAcknowledged_run cut rfl
  refine ⟨sent, ?_⟩
  rcases understood with type1 | ⟨message, parsed, reads⟩
  · rw [type2] at type1
    cases type1
  · refine ⟨message, parsed, ?_, ?_, ?_⟩
    · exact BitVec.eq_of_toNat_eq (reads.transmitter.symm.trans (by decide +kernel))
    · exact BitVec.eq_of_toNat_eq (reads.feedback.1.symm.trans (by decide +kernel))
    · exact reads.response.mp (by decide +kernel)

end DectHarq
