/-
This file puts devices that run the program into one network.

A device is the program together with the frames it has put on the air: every call that
its modem accepted is a frame, and into the header of a TX_HARQ the modem writes whether
it decoded the data that came with the header it answers. Any device may receive any
frame, late, repeated or never. Nothing in a feedback says which transmission it is
about, and the program keeps no record of what it was told: that a feedback tells the
truth about an earlier transmission of its receiver is a fact about the whole network.
-/

import DectHarq.Library.Airwaves
import DectHarq.SentHeaders

namespace DectHarq

open Airwaves

/-! ### Frames and devices -/

/-- What is on the air: a header with its type. -/
structure Frame where
  phyType : Nat
  header : PhyHeader
  deriving DecidableEq

/-- The circumstances of a reception: when and how well the header was received, whether the data
after it were decoded, and what the modem returns for the reply. -/
structure Reception where
  startTime : Nat
  rssi2 : Int
  snr : Int
  decoded : Bool
  ret : Int
  deriving DecidableEq

/-- What the callback is told about a frame. -/
def Frame.status (frame : Frame) (reception : Reception) : PccStatus :=
  ⟨frame.phyType, reception.startTime, reception.rssi2, reception.snr⟩

/-- The frame of a call that the modem accepted. In a TX_HARQ the modem answers for the data of
the reception. -/
def onAir (decoded : Bool) (call : ModemRequest × Int) : List Frame :=
  if call.2 = 0 then
    match call.1 with
    | .tx params => [⟨params.phyType, params.header⟩]
    | .txRx params _ => [⟨params.phyType, params.header⟩]
    | .txHarq params =>
      [⟨params.phyType, withTransmissionFeedback (if decoded then ack else nack) params.header⟩]
    | _ => []
  else []

/-- A device and the frames it has sent. -/
structure Device (config : Config) where
  system : System config
  sent : List Frame

/-- A step of the program of a device; what it calls is sent. -/
def Device.advance {config : Config} (device : Device config) (decoded : Bool)
    (event : Event config) : Except Stop (Device config) := do
  let system ← step device.system event
  let calls := system.phy.modemCalls.drop device.system.phy.modemCalls.length
  .ok ⟨system, device.sent ++ calls.flatMap (onAir decoded)⟩

/-- Only a reception makes the modem call back with a header. -/
def Event.isPcc {config : Config} : Event config → Bool
  | .pcc _ _ _ => true
  | _ => false

/-- A device as a station. -/
def station (config : Config) : Station Frame Stop where
  State := Device config
  Own := Event config
  Reception := Reception
  act := fun device event =>
    if event.isPcc then .error .disabled else device.advance false event
  receive := fun device frame reception =>
    device.advance reception.decoded (.pcc (frame.status reception) frame.header reception.ret)
  sent := Device.sent

/-! ### What is read in a frame -/

/-- The feedback of a frame acknowledges. -/
def Frame.acknowledges (frame : Frame) : Bool :=
  Format1.transmissionFeedback.get (headerFeedback frame.header) = ack

/-- A frame names its sender. -/
def Frame.SignedBy (deviceId : Nat) (frame : Frame) : Prop :=
  frame.phyType = headerType2 → transmitterId frame.header = deviceId

/-- A frame that is no feedback. -/
structure Frame.Plain (deviceId : Nat) (frame : Frame) : Prop where
  signed : frame.SignedBy deviceId
  silent : frame.phyType = headerType2 → Type2.feedbackFormat.get frame.header = noFeedback

/-- A frame that a device heard is answered by a feedback of the device. -/
structure Frame.AnsweredBy (config : Config) (deviceId : Nat) (heard : Frame)
    (reception : Reception) (frame : Frame) : Prop where
  signed : frame.SignedBy deviceId
  format : Type2.headerFormat.get frame.header = headerFormat001
  request : IsRequest config deviceId (heard.status reception) heard.header
  receiver : receiverId frame.header = transmitterId heard.header
  process : feedbackProcess frame.header = Type2.dfHarqProcessNr.get heard.header
  truth : frame.acknowledges = reception.decoded

theorem transmitterId_lt (header : PhyHeader) : transmitterId header < 65536 := by
  have high : Type2.transmitterIdHi.get header < 2 ^ 8 := BitField.get_lt _ header
  have low : Type2.transmitterIdLo.get header < 2 ^ 8 := BitField.get_lt _ header
  unfold transmitterId
  rw [← Nat.shiftLeft_add_eq_or_of_lt low, Nat.shiftLeft_eq]
  omega

theorem transmitterId_withTransmissionFeedback (feedback : Nat) (header : PhyHeader) :
    transmitterId (withTransmissionFeedback feedback header) = transmitterId header := by
  unfold transmitterId
  rw [withTransmissionFeedback_get _ _ _ (by decide),
    withTransmissionFeedback_get _ _ _ (by decide)]

theorem receiverId_withTransmissionFeedback (feedback : Nat) (header : PhyHeader) :
    receiverId (withTransmissionFeedback feedback header) = receiverId header := by
  unfold receiverId
  rw [withTransmissionFeedback_get _ _ _ (by decide),
    withTransmissionFeedback_get _ _ _ (by decide)]

/-- The bit of the modem is the one that is read as the feedback. -/
theorem acknowledges_withTransmissionFeedback (decoded : Bool) (header : PhyHeader) :
    Format1.transmissionFeedback.get
      (headerFeedback (withTransmissionFeedback (if decoded then ack else nack) header)) =
        if decoded then ack else nack := by
  have word := headerFeedback_hi
    (withTransmissionFeedback (if decoded then ack else nack) header) 0 1 (by decide)
  refine word.trans ?_
  show transmissionFeedbackBit.get (transmissionFeedbackBit.set _ header) = _
  rw [BitField.get_set_self _ _ _ (by decide)]
  cases decoded <;> rfl

/-- A frame of a call is one of its transmission, up to the bit of the modem. -/
theorem mem_onAir {decoded : Bool} {call : ModemRequest × Int} {frame : Frame}
    (member : frame ∈ onAir decoded call) :
    ∃ params, call.1.transmission = some params ∧ frame.phyType = params.phyType ∧
      (frame.header = params.header ∨
        ∃ bit, frame.header = withTransmissionFeedback bit params.header) := by
  obtain ⟨request, ret⟩ := call
  unfold onAir at member
  split at member
  · cases request with
    | tx params =>
      rw [List.mem_singleton.mp member]
      exact ⟨params, rfl, rfl, Or.inl rfl⟩
    | txRx params reception =>
      rw [List.mem_singleton.mp member]
      exact ⟨params, rfl, rfl, Or.inl rfl⟩
    | txHarq params =>
      rw [List.mem_singleton.mp member]
      exact ⟨params, rfl, rfl, Or.inr ⟨_, rfl⟩⟩
    | _ => cases member
  · cases member

/-- What is built without feedback is plain on the air. -/
theorem Built.plain {config : Config} {deviceId : Nat} {input : TxParams} {params : PhyTxParams}
    {frame : Frame} (built : Built config deviceId input params) (small : deviceId < 65536)
    (silent : input.feedback.format = noFeedback) (phyType : frame.phyType = params.phyType)
    (header : frame.header = params.header ∨
      ∃ bit, frame.header = withTransmissionFeedback bit params.header) : frame.Plain deviceId := by
  by_cases beacon : input.txUsage = .beacon
  · have other : frame.phyType ≠ headerType2 := by
      rw [phyType, (built.beacon beacon).1]
      decide
    exact ⟨fun type2 => absurd type2 other, fun type2 => absurd type2 other⟩
  · obtain ⟨_, fit, own⟩ := built.other beacon
    have reads := type2Header_reads config deviceId input fit
    rw [own] at header
    have transmitter := (reads.transmitter small).1
    have format :
        Type2.feedbackFormat.get (type2Header config deviceId input fit) = noFeedback := by
      rw [reads.feedbackFormat, silent]
      rfl
    rcases header with same | ⟨bit, same⟩
    · exact ⟨fun _ => by rw [same]; exact transmitter, fun _ => by rw [same]; exact format⟩
    · refine ⟨fun _ => ?_, fun _ => ?_⟩
      · rw [same, transmitterId_withTransmissionFeedback]
        exact transmitter
      · rw [same, withTransmissionFeedback_get _ _ _ (by decide)]
        exact format

/-- The reply to a request answers it on the air. -/
theorem Built.answers {config : Config} {deviceId startTime cqi : Nat} {heard frame : Frame}
    {reception : Reception} {capabilities : Capabilities} {harq : Harq config}
    {params : PhyTxParams} (small : deviceId < 65536)
    (request : IsRequest config deviceId (heard.status reception) heard.header)
    (built : Built config deviceId (replyParams config heard.header startTime
      (requestFeedback capabilities heard.header cqi harq)).toTx params)
    (member : frame ∈ onAir reception.decoded (.txHarq params, reception.ret)) :
    heard.AnsweredBy config deviceId reception frame := by
  obtain ⟨_, fit, header⟩ := built.other (by simp [TxHarqParams.toTx])
  have sent : frame.header =
      withTransmissionFeedback (if reception.decoded then ack else nack) params.header := by
    unfold onAir at member
    split at member
    · rw [List.mem_singleton.mp member]
    · cases member
  have reads := type2Header_reads config deviceId (replyParams config heard.header startTime
    (requestFeedback capabilities heard.header cqi harq)).toTx fit
  rw [header] at sent
  refine ⟨fun _ => ?_, ?_, request, ?_, ?_, ?_⟩
  · rw [sent, transmitterId_withTransmissionFeedback]
    exact (reads.transmitter small).1
  · rw [sent, withTransmissionFeedback_get _ _ _ (by decide)]
    exact type2Header_noHarq config deviceId fit (by simp [TxHarqParams.toTx])
  · obtain ⟨high, low, whole⟩ := id_bytes (transmitterId_lt heard.header)
    rw [sent, receiverId_withTransmissionFeedback, receiverId, reads.receiverIdHi,
      reads.receiverIdLo]
    show ((transmitterId heard.header >>> 8) % 2 ^ 8) <<< 8 |||
      (transmitterId heard.header &&& 0xff) % 2 ^ 8 = _
    rw [high, low, whole]
  · have number := (requestFeedback_carries config capabilities heard.header cqi harq).number
    rw [feedbackProcess, sent, (reads.feedback _).1]
    exact number.trans (Nat.mod_eq_of_lt (BitField.get_lt _ heard.header))
  · unfold Frame.acknowledges
    rw [sent, acknowledges_withTransmissionFeedback]
    cases reception.decoded <;> decide

/-! ### The reasons of a device -/

/-- What holds of a device all the time. -/
structure Device.Holds {config : Config} (deviceId : Nat) (device : Device config) : Prop where
  sound : device.system.harq.Sound
  silent : device.system.Silent
  deviceId : device.system.phy.deviceId = deviceId

/-- A device sends plain frames and answers. -/
def deviceReasons (config : Config) (deviceId : Nat) : Reasons (station config) where
  allowed := fun event => Event.Silent event
  holds := Device.Holds deviceId
  plain := Frame.Plain deviceId
  answers := Frame.AnsweredBy config deviceId

section Device

variable {config : Config} {deviceId : Nat}

theorem advance_cases {device next : Device config} {decoded : Bool} {event : Event config}
    (advanced : device.advance decoded event = .ok next) :
    step device.system event = .ok next.system ∧ next.sent = device.sent ++
      (next.system.phy.modemCalls.drop device.system.phy.modemCalls.length).flatMap
        (onAir decoded) := by
  obtain ⟨system, stepped, rest⟩ := bind_ok.mp advanced
  cases rest
  exact ⟨stepped, rfl⟩

/-- What a device does on its own is no reception. -/
theorem act_cases {device next : Device config} {event : Event config}
    (acted : (station config).act device event = .ok next) :
    event.isPcc = false ∧ device.advance false event = .ok next := by
  dsimp only [station] at acted
  split at acted
  · cases acted
  · rename_i outside
    exact ⟨by simpa using outside, acted⟩

theorem Device.Holds.advance {device next : Device config} {decoded : Bool} {event : Event config}
    (holds : device.Holds deviceId) (silent : event.Silent)
    (advanced : device.advance decoded event = .ok next) : next.Holds deviceId := by
  obtain ⟨stepped, _⟩ := advance_cases advanced
  have action := action_of_step holds.sound stepped
  exact ⟨(action.move holds.sound).1.sound holds.sound,
    action.silent holds.sound holds.silent silent, action.deviceId.trans holds.deviceId⟩

/-- Every device has its reasons. -/
theorem deviceReasons_kept (small : deviceId < 65536) :
    (deviceReasons config deviceId).Kept where
  act := fun device event next silent holds acted => by
    obtain ⟨outside, advanced⟩ := act_cases acted
    obtain ⟨stepped, sent⟩ := advance_cases advanced
    refine ⟨Device.Holds.advance holds silent advanced, fun frame member => ?_⟩
    obtain ⟨calls, log, each⟩ := step_builds holds.sound stepped holds.silent silent
      (by rintro status header ret rfl; cases outside)
    change frame ∈ next.sent at member
    rw [sent, log, List.drop_left] at member
    refine (List.mem_append.mp member).imp_right fun new => ?_
    obtain ⟨call, called, air⟩ := List.mem_flatMap.mp new
    obtain ⟨params, transmission, phyType, header⟩ := mem_onAir air
    obtain ⟨input, noFeedback, built⟩ := each call called params transmission
    rw [holds.deviceId] at built
    exact built.plain small noFeedback phyType header
  receive := fun device heard reception next holds received => by
    obtain ⟨stepped, sent⟩ := advance_cases received
    have quiet : Event.Silent (Event.pcc (heard.status reception) heard.header reception.ret :
        Event config) := trivial
    refine ⟨Device.Holds.advance holds quiet received, fun frame member => ?_⟩
    change frame ∈ next.sent at member
    rcases pcc_answers stepped with same | ⟨request, params, startTime, cqi, harq, log, built⟩
    · rw [sent, same, List.drop_length, List.flatMap_nil, List.append_nil] at member
      exact Or.inl member
    · rw [sent, log, List.drop_left, List.flatMap_singleton] at member
      refine (List.mem_append.mp member).imp_right fun new => ?_
      rw [holds.deviceId] at request built
      exact built.answers small request new

end Device

/-! ### The network -/

section Network

variable {Name : Type} [DecidableEq Name] (configs : Name → Config) (ids : Name → Nat)

/-- The devices as stations. -/
abbrev stations : Name → Station Frame Stop := fun name => station (configs name)

/-- All devices are at boot and have different ids, none of which starts with 0xff. -/
structure Deployed (start : States (stations configs)) : Prop where
  booted : ∀ name, Booted (start name).system
  deviceId : ∀ name, (start name).system.phy.deviceId = ids name
  quiet : ∀ name, (start name).sent = []
  distinct : Function.Injective ids
  regular : ∀ name, ids name < 0xff00

/-- A run of the network. -/
abbrev NetworkRun (start : States (stations configs)) (steps : Steps (stations configs))
    (final : States (stations configs)) : Prop :=
  Transition.Run (Transition.stepOf (networkStep (stations configs) .disabled)) start steps final

/-- The applications of all devices are silent. -/
def SilentSteps (steps : Steps (stations configs)) : Prop :=
  ∀ taken ∈ steps, ∀ name event, taken.label = .own name event → Event.Silent event

/-- A device has heard the transmission of a process of another one, and has decoded its data or
not. -/
def HeardRequest (steps : Steps (stations configs)) (sender receiver : Name) (process : Nat)
    (decoded : Bool) : Prop :=
  ∃ (frame : Frame) (reception : Reception), Heard steps sender receiver frame reception ∧
    IsRequest (configs receiver) (ids receiver) (frame.status reception) frame.header ∧
    Type2.dfHarqProcessNr.get frame.header = process ∧ reception.decoded = decoded

variable {configs ids} {start final : States (stations configs)} {steps : Steps (stations configs)}

/-- Before every step of a run all frames are accounted for. -/
theorem frames_accounted (deployed : Deployed configs ids start)
    (run : NetworkRun configs start steps final) (silent : SilentSteps configs steps)
    {earlier later : Steps (stations configs)}
    {taken : Transition.Step (States (stations configs)) (Happening (stations configs))}
    (cut : steps = earlier ++ taken :: later) :
    AllAccounted (fun name => deviceReasons (configs name) (ids name)) earlier taken.before := by
  refine accounted_of_run
    (fun name => deviceReasons_kept (lt_trans (deployed.regular name) (by decide))) run
    (fun name => ?_) deployed.quiet (fun taken member => ?_) cut
  · obtain ⟨deviceId, allocations, _, same⟩ := deployed.booted name
    refine ⟨?_, (programOperations_silent _).boot_awaits (deployed.booted name),
      deployed.deviceId name⟩
    rw [same]
    exact boot_sound _
  · cases label : taken.label with
    | own name event => exact silent taken member name event label
    | received => trivial

/-- A received frame names the device that sent it. -/
theorem received_signed (deployed : Deployed configs ids start)
    (run : NetworkRun configs start steps final) (silent : SilentSteps configs steps)
    {sender receiver : Name} {frame : Frame} {reception : Reception}
    (heard : Heard steps sender receiver frame reception) : frame.SignedBy (ids sender) := by
  obtain ⟨taken, member, label⟩ := heard
  obtain ⟨earlier, later, cut⟩ := List.append_of_mem member
  rcases (frames_accounted deployed run silent cut).received label (run.taken taken member) with
    plain | ⟨_, _, _, _, answers⟩
  · exact plain.signed
  · exact answers.signed

/-- A response that passes the filter of a device with a regular id, and that is sent to a regular
id, is sent to that device. -/
theorem receiverId_of_response {config : Config} {deviceId : Nat} {status : PccStatus}
    {header : PhyHeader} (response : IsResponse config deviceId status header)
    (regular : receiverId header < 0xff00) : receiverId header = deviceId := by
  obtain ⟨_, _, addressed, _⟩ := response
  by_contra other
  have high : Type2.receiverIdHi.get header = 0xff := by
    unfold responseAddressed at addressed
    rcases (of_decide_eq_true addressed).2 with own | broadcast
    · exact absurd ((receiverId_eq_iff header deviceId).mpr own) other
    · exact broadcast.1
  unfold receiverId at regular
  have low : Type2.receiverIdLo.get header < 2 ^ 8 := BitField.get_lt _ header
  rw [high, ← Nat.shiftLeft_add_eq_or_of_lt low] at regular
  omega

/-- A feedback that a device takes for its own answers a transmission of its own. -/
theorem response_answers (deployed : Deployed configs ids start)
    (run : NetworkRun configs start steps final) (silent : SilentSteps configs steps)
    {earlier later : Steps (stations configs)}
    {taken : Transition.Step (States (stations configs)) (Happening (stations configs))}
    (cut : steps = earlier ++ taken :: later) {sender receiver : Name} {frame : Frame}
    {reception : Reception} (label : taken.label = .received sender receiver frame reception)
    (response : IsResponse (configs receiver) (ids receiver) (frame.status reception)
      frame.header) :
    HeardRequest configs ids earlier receiver sender (feedbackProcess frame.header)
      frame.acknowledges := by
  have member : taken ∈ steps := by
    rw [cut]
    exact List.mem_append_right _ List.mem_cons_self
  rcases (frames_accounted deployed run silent cut).received label (run.taken taken member) with
    plain | ⟨asker, heard, asked, before, answers⟩
  · -- A plain frame carries no feedback.
    have format := plain.silent response.1
    rcases response.2.2.2 with format1 | format6
    · rw [format] at format1
      cases format1
    · rw [format] at format6
      cases format6
  · have signed := received_signed deployed run silent (before.mono fun other old => by
      rw [cut]
      exact List.mem_append_left _ old)
    have asking : transmitterId heard.header = ids asker := signed answers.request.1
    have toAsker : receiverId frame.header = ids asker := answers.receiver.trans asking
    have own := receiverId_of_response response (by rw [toAsker]; exact deployed.regular asker)
    obtain rfl : asker = receiver := deployed.distinct (toAsker.symm.trans own)
    exact ⟨heard, asked, before, answers.request, answers.process.symm, answers.truth.symm⟩

/-- The callback that is told a feedback puts no frame on the air. A NACK and a feedback of format 6
only schedule the work that retransmits, which is a later step of the device. -/
theorem feedback_unanswered (deployed : Deployed configs ids start)
    (run : NetworkRun configs start steps final) (silent : SilentSteps configs steps)
    {taken : Transition.Step (States (stations configs)) (Happening (stations configs))}
    (member : taken ∈ steps) {sender receiver : Name} {frame : Frame} {reception : Reception}
    (label : taken.label = .received sender receiver frame reception)
    (feedback : frame.phyType = headerType2 → Type2.feedbackFormat.get frame.header ≠ noFeedback) :
    (taken.after receiver).sent = (taken.before receiver).sent := by
  obtain ⟨earlier, later, cut⟩ := List.append_of_mem member
  have stepped : networkStep (stations configs) .disabled taken.before taken.label =
      .ok taken.after := run.taken taken member
  have notRequest : frame.phyType = headerType2 →
      Type2.headerFormat.get frame.header ≠ headerFormat000 := by
    intro type2
    rcases (frames_accounted deployed run silent cut).received label stepped with
      plain | ⟨_, _, _, _, answers⟩
    · exact absurd (plain.silent type2) (feedback type2)
    · rw [answers.format]
      decide
  rw [label] at stepped
  obtain ⟨_, next, received, same⟩ := receive_of_step stepped
  obtain ⟨passed, sent⟩ := advance_cases received
  rw [same, Function.update_self, sent]
  rcases pcc_answers passed with quiet | ⟨request, _⟩
  · rw [quiet, List.drop_length, List.flatMap_nil, List.append_nil]
  · exact absurd request.2.1 (notRequest request.1)

/-- What the feedbacks of a network are worth: a feedback that a device takes for its own answers
an earlier reception of a transmission of the device, for the process that the feedback names,
and tells whether the data were decoded there; and the step in which a feedback is received adds no
frame to those that its receiver has sent. -/
structure Authentic (configs : Name → Config) (ids : Name → Nat)
    (steps : Steps (stations configs)) : Prop where
  answers : ∀ earlier taken later, steps = earlier ++ taken :: later →
    ∀ sender receiver (frame : Frame) (reception : Reception),
      taken.label = .received sender receiver frame reception →
        IsResponse (configs receiver) (ids receiver) (frame.status reception) frame.header →
          HeardRequest configs ids earlier receiver sender (feedbackProcess frame.header)
            frame.acknowledges
  unanswered : ∀ taken ∈ steps, ∀ sender receiver (frame : Frame) (reception : Reception),
    taken.label = .received sender receiver frame reception →
      (frame.phyType = headerType2 → Type2.feedbackFormat.get frame.header ≠ noFeedback) →
        (taken.after receiver).sent = (taken.before receiver).sent

/-- In every run of a network of devices with regular ids, over a medium that loses, delays,
repeats and reorders, all feedback is authentic. -/
theorem feedback_authentic (deployed : Deployed configs ids start)
    (run : NetworkRun configs start steps final) (silent : SilentSteps configs steps) :
    Authentic configs ids steps where
  answers := fun _ _ _ cut _ _ _ _ label response =>
    response_answers deployed run silent cut label response
  unanswered := fun _ member _ _ _ _ label feedback =>
    feedback_unanswered deployed run silent member label feedback

end Network

/-! ### Two devices -/

/-- The ids of two devices. -/
def pairIds : Bool → Nat
  | false => 5
  | true => 7

/-- Two devices at boot. -/
def pair : States (stations fun _ : Bool => projectConfig) := fun name =>
  ⟨boot projectConfig (pairIds name) fun _ => .inserted, []⟩

theorem pair_deployed : Deployed (fun _ => projectConfig) pairIds pair where
  booted := fun name => ⟨pairIds name, fun _ => .inserted, by cases name <;> decide, rfl⟩
  deviceId := fun _ => rfl
  quiet := fun _ => rfl
  distinct := fun first second => by cases first <;> cases second <;> decide
  regular := by decide

/-- The first frame that a device sent when some things have happened. -/
def firstFrame (happened : List (Happening (stations fun _ : Bool => projectConfig)))
    (name : Bool) : Frame :=
  ((happened.foldl (Transition.follow (networkStep _ .disabled)) pair) name).sent.headD ⟨0, 0⟩

/-- An event of one of them. -/
def ownEvent (name : Bool) (event : Event projectConfig) :
    Happening (stations fun _ : Bool => projectConfig) := .own name event

/-- Device 7 asks for its capabilities. -/
def capabilitiesRead : List (Event projectConfig) :=
  [.direct .capabilityGet 0, .management 0 .success ⟨4, 65536⟩]

/-- Device 5 sends a packet to device 7. -/
def packetOnAir : List (Happening (stations fun _ : Bool => projectConfig)) :=
  capabilitiesRead.map (ownEvent true) ++ (packetToModem smallPacket).map (ownEvent false)

/-- Device 7 decodes it. -/
def packetHeard : List (Happening (stations fun _ : Bool => projectConfig)) :=
  packetOnAir ++ [.received false true (firstFrame packetOnAir false) ⟨0, -100, 40, true, 0⟩]

/-- The reply reaches device 5. -/
def packetAcknowledged : List (Happening (stations fun _ : Bool => projectConfig)) :=
  packetHeard ++ [.received true false (firstFrame packetHeard true) ⟨0, -100, 40, false, 0⟩]

/-- Both applications only transmit packets. -/
theorem packetAcknowledged_silent :
    SilentSteps _ (Transition.followAll (networkStep _ .disabled) pair packetAcknowledged) := by
  have transmits : ∀ event ∈ capabilitiesRead ++ packetToModem smallPacket, event.Silent := by
    simp [capabilitiesRead, packetToModem, carriedToModem, Event.Silent, Operation.Silent,
      Operation.toTx]
  have each : ∀ label ∈ packetAcknowledged, ∀ name event, label = .own name event →
      Event.Silent event := by
    rintro label member name event rfl
    rcases List.mem_append.mp member with before | reply
    · rcases List.mem_append.mp before with sent | heard
      · rcases List.mem_append.mp sent with asked | packet
        · obtain ⟨own, events, same⟩ := List.mem_map.mp asked
          cases same
          exact transmits own (List.mem_append_left _ events)
        · obtain ⟨own, events, same⟩ := List.mem_map.mp packet
          cases same
          exact transmits own (List.mem_append_right _ events)
      · cases List.mem_singleton.mp heard
    · cases List.mem_singleton.mp reply
  intro taken member
  exact Transition.followAll_labels _ _ _ each taken member

theorem packetAcknowledged_run :
    NetworkRun _ pair (Transition.followAll (networkStep _ .disabled) pair packetAcknowledged)
      (packetAcknowledged.foldl (Transition.follow (networkStep _ .disabled)) pair) :=
  Transition.followAll_run _ _ _ (by decide +kernel)

/-- The reply to the packet is authentic. -/
theorem feedback_authentic_pair :
    (firstFrame packetHeard true).acknowledges = true ∧ Authentic (fun _ => projectConfig) pairIds
      (Transition.followAll (networkStep _ .disabled) pair packetAcknowledged) :=
  ⟨by decide +kernel,
    feedback_authentic pair_deployed packetAcknowledged_run packetAcknowledged_silent⟩

end DectHarq
