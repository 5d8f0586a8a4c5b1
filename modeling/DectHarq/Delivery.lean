/-
This file follows the data of a packet from one application to another device.

On the air there are headers with the data that the modem read behind the pointer of the
call. A device takes every transmission with header format 000 that names it, or all
devices, for its own. When the applications send nothing but packets, the data that come
with such a transmission are those of a transmit of the sender for that very receiver; the
only other thing that may arrive is what a device sent for a packet that its process had
already lost.
-/

import DectHarq.Network
import DectHarq.PacketData

namespace DectHarq

open Airwaves

/-! ### Devices that send data -/

/-- What is on the air: a header with its type, and the data after it. -/
structure DataFrame where
  frame : Frame
  data : List Nat
  deriving DecidableEq

/-- The data that the modem reads for a transmission. Behind a pointer to a block that is no
data block it reads some stale bytes. -/
def DataSystem.read {config : Config} (withData : DataSystem config) (stale : List Nat)
    (params : PhyTxParams) : List Nat :=
  match params.data with
  | some buffer => ((withData.blocks buffer.address).getD stale).take params.dataSize
  | none => []

/-- The frame of a call with its data. -/
def DataSystem.onAir {config : Config} (withData : DataSystem config) (stale : List Nat)
    (decoded : Bool) (call : ModemRequest × Int) : List DataFrame :=
  match call.1.transmission with
  | some params =>
    (DectHarq.onAir decoded call).map fun frame => ⟨frame, withData.read stale params⟩
  | none => []

/-- A device with its data blocks, and the frames it has sent. -/
structure DataDevice (config : Config) where
  withData : DataSystem config
  sent : List DataFrame

/-- The frames of a step of the program. -/
def newFrames {config : Config} (stale : List Nat) (decoded : Bool)
    (taken : Transition.Step (DataSystem config) (Event config)) : List DataFrame :=
  (newModemCalls (programOf taken)).flatMap (taken.before.onAir stale decoded)

/-- A step of the program of a device; what it calls is sent. -/
def DataDevice.advance {config : Config} (device : DataDevice config) (stale : List Nat)
    (decoded : Bool) (event : Event config) : Except DataStop (DataDevice config) := do
  let withData ← dataStep device.withData event
  .ok ⟨withData, device.sent ++ newFrames stale decoded ⟨device.withData, event, withData⟩⟩

/-- A device as a station. With every event of its own comes what the modem may find in memory that
is no data block. -/
def dataStation (config : Config) : Station DataFrame DataStop where
  State := DataDevice config
  Own := Event config × List Nat
  Reception := Reception
  act := fun device own =>
    if own.1.isPcc then .error (.stopped .disabled) else device.advance own.2 false own.1
  receive := fun device heard reception => device.advance [] reception.decoded
    (.pcc (heard.frame.status reception) heard.frame.header reception.ret)
  sent := DataDevice.sent

/-- The event of the program in what a device does. -/
def programEvent {config : Config} : Doing (dataStation config) → Event config
  | .act own => Prod.fst own
  | .receive heard reception =>
    .pcc (heard.frame.status reception) heard.frame.header (Reception.ret reception)

/-- What an event of the application hands to the modem itself, it hands over without data. -/
def Event.PacketsOnly {config : Config} : Event config → Prop
  | .queuePut operation _ => operation.toTx = none
  | .direct operation _ => operation.toTx = none
  | _ => True

/-! ### One device -/

section Device

variable {config : Config}

/-- An operation transmits for a packet, or not at all. -/
def OnlyPackets (provenance : Provenance) (operation : Operation) : Prop :=
  operation.toTx = none ∨ ∃ process packet, provenance = .packet process packet

theorem toTx_fromQueue {operation : Operation} (silent : operation.toTx = none) :
    operation.fromQueue.toTx = none := by
  cases operation with
  | tx params => cases silent
  | txHarq params => cases silent
  | txRx params => cases silent
  | _ => rfl

theorem programOperations_onlyPackets (config : Config) : ProgramOperations config OnlyPackets where
  boot := Or.inl rfl
  reply := fun _ => Or.inl rfl
  packet := fun _ _ _ _ => Or.inr ⟨_, _, rfl⟩
  fromQueue := fun _ _ only => only.imp_left toTx_fromQueue

/-- A frame is a transmission that asks for a reply. -/
def DataFrame.Asks (sent : DataFrame) : Prop :=
  sent.frame.phyType = headerType2 ∧ Type2.headerFormat.get sent.frame.header = headerFormat000

/-- A frame with data is one of a call. -/
theorem mem_newFrames {stale : List Nat} {decoded : Bool}
    {taken : Transition.Step (DataSystem config) (Event config)} {sent : DataFrame}
    (member : sent ∈ newFrames stale decoded taken) :
    ∃ call ∈ newModemCalls (programOf taken), ∃ params,
      call.1.transmission = some params ∧ sent.frame.phyType = params.phyType ∧
        (sent.frame.header = params.header ∨
          ∃ bit, sent.frame.header = withTransmissionFeedback bit params.header) ∧
        sent.data = taken.before.read stale params := by
  obtain ⟨call, called, air⟩ := List.mem_flatMap.mp member
  unfold DataSystem.onAir at air
  split at air
  · rename_i params transmission
    obtain ⟨frame, inside, rfl⟩ := List.mem_map.mp air
    obtain ⟨same, transmitted, phyType, header⟩ := mem_onAir inside
    rw [transmission] at transmitted
    cases transmitted
    exact ⟨call, called, params, transmission, phyType, header, rfl⟩
  · cases air

/-- A frame that asks is one of a packet that is handed over. -/
theorem asks_handed {stale : List Nat} {decoded : Bool}
    {taken : Transition.Step (DataSystem config) (Event config)} {sent : DataFrame}
    (sound : taken.before.system.harq.Sound)
    (stepped : step taken.before.system taken.label = .ok taken.after.system)
    (awaits : taken.before.system.Awaits OnlyPackets) (own : taken.label.PacketsOnly)
    (member : sent ∈ newFrames stale decoded taken) (asks : sent.Asks) :
    ∃ process packet,
      handedOver taken.before.system taken.label = some (.packet process packet) := by
  obtain ⟨before, label, after⟩ := taken
  obtain ⟨call, called, params, transmission, phyType, header, _⟩ := mem_newFrames member
  dsimp only [programOf] at sound stepped awaits own called ⊢
  by_cases reception : ∃ status header ret, label = .pcc status header ret
  · -- The reply to a header has the other format.
    exfalso
    obtain ⟨status, received, ret, rfl⟩ := reception
    unfold newModemCalls at called
    rcases pcc_answers stepped with same | ⟨_, request, startTime, cqi, harq, log, built⟩
    · rw [same, List.drop_length] at called
      exact absurd called List.not_mem_nil
    · rw [log, List.drop_left] at called
      obtain rfl := List.mem_singleton.mp called
      cases transmission
      obtain ⟨_, fit, same⟩ := built.other (by simp [TxHarqParams.toTx])
      have format := type2Header_noHarq config before.system.phy.deviceId fit
        (show (replyParams config received startTime (requestFeedback
          before.system.phy.capabilities received cqi harq)).toTx.txUsage ≠ .harq by
            simp [TxHarqParams.toTx])
      rw [← same] at format
      have other : Type2.headerFormat.get sent.frame.header = headerFormat001 := by
        rcases header with equal | ⟨bit, equal⟩
        · rw [equal, format]
        · rw [equal, withTransmissionFeedback_get _ _ _ (by decide), format]
      exact absurd (other.symm.trans asks.2) (by decide)
  · have outside : ∀ status header ret, label ≠ .pcc status header ret :=
      fun status header ret same => reception ⟨status, header, ret, same⟩
    obtain ⟨calls, log, each⟩ := step_origins (programOperations_onlyPackets config) sound stepped
      awaits (by rintro operation ret rfl; exact Or.inl own) outside
    rw [newModemCalls, log, List.drop_left] at called
    obtain ⟨provenance, operation, input, sends⟩ := each call called params transmission
    rcases sends.allowed with silent | ⟨process, packet, rfl⟩
    · have parameters := sends.parameters
      rw [silent] at parameters
      cases parameters
    · rcases sends.origin with handed | user
      · exact ⟨process, packet, handed⟩
      · cases user

/-- The step of the program in a step of a device. -/
def deviceProgram (taken : Transition.Step (DataDevice config) (Doing (dataStation config))) :
    Transition.Step (DataSystem config) (Event config) :=
  ⟨taken.before.withData, programEvent taken.label, taken.after.withData⟩

/-- The frames that a device sends in a step. -/
def deviceFrames (taken : Transition.Step (DataDevice config) (Doing (dataStation config))) :
    List DataFrame :=
  match taken.label with
  | .act own => newFrames (Prod.snd own) false (deviceProgram taken)
  | .receive _ reception => newFrames [] (Reception.decoded reception) (deviceProgram taken)

theorem advance_ok {before after : DataDevice config} {stale : List Nat} {decoded : Bool}
    {event : Event config} (advanced : before.advance stale decoded event = .ok after) :
    dataStep before.withData event = .ok after.withData ∧
      after.sent =
        before.sent ++ newFrames stale decoded ⟨before.withData, event, after.withData⟩ := by
  unfold DataDevice.advance at advanced
  cases result : dataStep before.withData event with
  | error stop =>
    rw [result] at advanced
    cases advanced
  | ok withData =>
    rw [result] at advanced
    cases advanced
    exact ⟨rfl, rfl⟩

/-- A step of a device is one of its program, whose calls it sends. -/
theorem doing_cases {before after : DataDevice config} {doing : Doing (dataStation config)}
    (stepped : doingStep (dataStation config) before doing = .ok after) :
    dataStep before.withData (programEvent doing) = .ok after.withData ∧
      after.sent = before.sent ++ deviceFrames ⟨before, doing, after⟩ := by
  cases doing with
  | act own =>
    dsimp only [doingStep, dataStation] at stepped
    split at stepped
    · cases stepped
    · exact advance_ok stepped
  | receive heard reception => exact advance_ok stepped

variable {start final : DataDevice config}
  {steps : List (Transition.Step (DataDevice config) (Doing (dataStation config)))}

theorem device_run (run : Transition.Run (Transition.stepOf (doingStep (dataStation config))) start
    steps final) : DataSystemRun start.withData (steps.map deviceProgram) final.withData := by
  rw [← List.filterMap_eq_map]
  exact run.view DataDevice.withData _ fun _ _ _ stepped =>
    Or.inr ⟨_, rfl, (doing_cases stepped).1⟩

theorem frames_of_program {taken : Transition.Step (DataDevice config) (Doing (dataStation config))}
    {sent : DataFrame} (member : sent ∈ deviceFrames taken) :
    ∃ stale decoded, sent ∈ newFrames stale decoded (deviceProgram taken) := by
  unfold deviceFrames at member
  split at member
  · exact ⟨_, _, member⟩
  · exact ⟨_, _, member⟩

/-- A device whose application transmits packets only waits for nothing else to transmit. -/
theorem awaits_onlyPackets {withData after : DataSystem config}
    {moves : List (Transition.Step (DataSystem config) (Event config))}
    (booted : DataBooted withData) (run : DataSystemRun withData moves after)
    (own : ∀ taken ∈ moves, taken.label.PacketsOnly) : after.system.Awaits OnlyPackets := by
  refine (run_invariant booted.1 (dataRun_program run) (fun system => system.Awaits OnlyPackets)
    (fun _ event => event.PacketsOnly)
    ((programOperations_onlyPackets config).boot_awaits booted.1) ?_ ?_).2
  · intro system event next sound allowed awaits action
    refine (programOperations_onlyPackets config).awaits sound action awaits ?_
    rintro operation priority rfl
    exact Or.inl allowed
  · intro taken member
    obtain ⟨whole, inside, rfl⟩ := List.mem_map.mp member
    exact own whole inside

/-- The data of a packet that is handed over, when its process still holds them. -/
theorem read_of_live {withData : DataSystem config} {list : List (Take config)}
    {process packet : Nat} {payload : Payload} {params : PhyTxParams} {stale : List Nat}
    (owned : withData.Owned) (unmixed : withData.system.Unmixed list)
    (belongs : Belongs list process packet payload) (carried : payload.CarriedBy process params)
    (holds : withData.system.harq.Holds process packet) :
    withData.read stale params = match payload.data with
      | some buffer => buffer.bytes.take payload.dataLen
      | none => [] := by
  unfold DataSystem.read
  rw [carried.data, carried.dataSize]
  cases pointer : payload.data with
  | none => rfl
  | some buffer =>
    rcases owned.live_or_dangling unmixed belongs pointer with live | dangling
    · dsimp only
      rw [live.2, Option.getD_some]
    · exact absurd holds dangling.1

/-- The application gave the data to a transmit for a receiver. -/
def Event.Gives (receiver : Nat) (data : List Nat) (event : Event config) : Prop :=
  ∃ params address, event = .transmit params (some address) ∧
    data = params.data.take params.dataLen ∧ params.receiverId % 65536 = receiver

/-- An operation is handed over for a packet that its process has lost. -/
def HandsLost (withData : DataSystem config) (event : Event config) : Prop :=
  ∃ process packet, handedOver withData.system event = some (.packet process packet) ∧
    ¬ withData.system.harq.Holds process packet

/-- The data of a frame that asks come from a transmit of the device for the receiver in the frame,
unless there are none or the frame was sent for a lost packet. -/
theorem asked_data (booted : DataBooted start.withData) (quiet : start.sent = [])
    (run : Transition.Run (Transition.stepOf (doingStep (dataStation config))) start steps final)
    (own : ∀ taken ∈ steps, Event.PacketsOnly (programEvent taken.label)) {sent : DataFrame}
    (member : sent ∈ final.sent) (asks : sent.Asks) :
    sent.data = [] ∨
      (∃ taken ∈ steps,
        Event.Gives (receiverId sent.frame.header) sent.data (programEvent taken.label)) ∨
      ∃ taken ∈ steps, sent ∈ deviceFrames taken ∧
        HandsLost taken.before.withData (programEvent taken.label) := by
  obtain ⟨taken, inside, sends⟩ : ∃ taken ∈ steps, sent ∈ deviceFrames taken :=
    sent_in_step (fun _ _ _ stepped => (doing_cases stepped).2) run quiet member
  obtain ⟨stale, decoded, air⟩ := frames_of_program sends
  obtain ⟨earlier, later, cut⟩ := List.append_of_mem inside
  have withData := device_run run
  have cutHeaped : steps.map deviceProgram =
      earlier.map deviceProgram ++ deviceProgram taken :: later.map deviceProgram := by
    rw [cut, List.map_append, List.map_cons]
  obtain ⟨program, cutProgram⟩ := dataRun_cut withData cutHeaped
  have before := (withData.split_at cutHeaped).1
  have owned : taken.before.withData.Owned := dataRun_owned booted before
  have unmixed : taken.before.withData.system.Unmixed _ :=
    unmixed_before booted.1 program cutProgram
  have stepped := (program.split_at cutProgram).2.1
  have awaits : taken.before.withData.system.Awaits OnlyPackets := by
    refine awaits_onlyPackets booted before fun move old => ?_
    obtain ⟨whole, early, rfl⟩ := List.mem_map.mp old
    exact own whole (by rw [cut]; exact List.mem_append_left _ early)
  obtain ⟨process, packet, handed⟩ :=
    asks_handed owned.sound stepped awaits (own taken inside) air asks
  by_cases holds : taken.before.withData.system.harq.Holds process packet
  · obtain ⟨payload, params, reception, ret, belongs, calls, carried⟩ :=
      packets_unmixed booted.1 program cutProgram handed
    obtain ⟨call, called, sending, transmission, _, header, data⟩ := mem_newFrames air
    rw [calls] at called
    obtain rfl := List.mem_singleton.mp called
    obtain rfl : params = sending := Option.some.inj transmission
    have receiver : receiverId sent.frame.header = payload.receiverId % 65536 := by
      rcases header with same | ⟨bit, same⟩
      · rw [same, carried.receiver]
      · rw [same, receiverId_withTransmissionFeedback, carried.receiver]
    rw [show sent.data = _ from data.trans (read_of_live owned unmixed belongs carried holds)]
    rcases belongs with rfl | ⟨take, found, _, rfl⟩
    · exact Or.inl rfl
    · rcases mem_takes (List.mem_of_getElem? found) with blank | ⟨source, old, params, address,
        label, same⟩
      · rw [blank]
        exact Or.inl rfl
      · obtain ⟨_, early, rfl⟩ := List.mem_map.mp old
        obtain ⟨whole, first, rfl⟩ := List.mem_map.mp early
        rw [same] at receiver ⊢
        refine Or.inr (Or.inl ⟨whole, ?_, params, address, label, ?_, receiver.symm⟩)
        · rw [cut]
          exact List.mem_append_left _ first
        · show (params.data.take params.dataLen).take params.dataLen = _
          rw [List.take_take, Nat.min_self]
  · exact Or.inr (Or.inr ⟨taken, inside, sends, process, packet, handed, holds⟩)

end Device

/-! ### The network -/

section Network

variable {Name : Type} [DecidableEq Name] (configs : Name → Config)

/-- The devices as stations. -/
abbrev dataStations : Name → Station DataFrame DataStop := fun name => dataStation (configs name)

/-- All devices are at boot. -/
structure DataDeployed (start : States (dataStations configs)) : Prop where
  booted : ∀ name, DataBooted (start name).withData
  quiet : ∀ name, (start name).sent = []

/-- A run of the network. -/
abbrev DataRun (start : States (dataStations configs)) (steps : Steps (dataStations configs))
    (final : States (dataStations configs)) : Prop :=
  Transition.Run (Transition.stepOf (networkStep (dataStations configs) (.stopped .disabled))) start
    steps final

variable {configs}

/-- A device was given the data by its application, for a receiver. -/
def Given (steps : Steps (dataStations configs)) (sender : Name) (receiver : Nat)
    (data : List Nat) : Prop :=
  ∃ taken ∈ steps, ∃ event stale, taken.label = .own sender (event, stale) ∧
    Event.Gives receiver data event

/-- A device sent a frame for a packet that its process had lost. -/
def SentLost (steps : Steps (dataStations configs)) (sender : Name) (sent : DataFrame) : Prop :=
  ∃ taken ∈ steps, ∃ event stale, taken.label = .own sender (event, stale) ∧
    sent ∈ newFrames stale false
      ⟨(taken.before sender).withData, event, (taken.after sender).withData⟩ ∧
    HandsLost (taken.before sender).withData event

section Own

variable {steps : Steps (dataStations configs)} {sender : Name}
  {moved : Transition.Step (dataStations configs sender).State
    (Doing (dataStations configs sender))}

/-- What the program of a device was given was given by the application of the device. -/
theorem given_of_ownSteps (member : moved ∈ ownSteps sender steps) {receiver : Nat}
    {data : List Nat} (gives : Event.Gives receiver data (programEvent moved.label)) :
    Given steps sender receiver data := by
  cases did : moved.label with
  | act event =>
    obtain ⟨whole, inside, happened, _⟩ := act_of_ownSteps member did
    rw [did] at gives
    exact ⟨whole, inside, event.1, event.2, happened, gives⟩
  | receive _ _ =>
    rw [did] at gives
    obtain ⟨_, _, same, _⟩ := gives
    cases same

/-- What a device sent for a lost packet it sent on its own. -/
theorem sentLost_of_ownSteps (member : moved ∈ ownSteps sender steps) {sent : DataFrame}
    (sends : sent ∈ deviceFrames moved)
    (lost : HandsLost moved.before.withData (programEvent moved.label)) :
    SentLost steps sender sent := by
  cases did : moved.label with
  | act event =>
    obtain ⟨whole, inside, happened, first, last⟩ := act_of_ownSteps member did
    refine ⟨whole, inside, event.1, event.2, happened, ?_, ?_⟩
    · unfold deviceFrames deviceProgram at sends
      rw [did] at sends
      rw [first, last]
      exact sends
    · rw [first]
      rw [did] at lost
      exact lost
  | receive _ _ =>
    rw [did] at lost
    obtain ⟨_, _, handed, _⟩ := lost
    cases handed

/-- The program of a device whose application sends packets only is told to send packets only. -/
theorem packetsOnly_of_ownSteps
    (own : ∀ taken ∈ steps, ∀ name event stale, taken.label = .own name (event, stale) →
      Event.PacketsOnly event)
    (member : moved ∈ ownSteps sender steps) : Event.PacketsOnly (programEvent moved.label) := by
  cases did : moved.label with
  | act event =>
    obtain ⟨whole, inside, happened, _⟩ := act_of_ownSteps member did
    exact own whole inside sender event.1 event.2 happened
  | receive => trivial

end Own

/-- In every run of a network whose applications send packets only, over a medium that loses,
delays, repeats and reorders: the data that a device receives with a transmission it takes for its
own were given to the sender by its application for that device or for all, unless there are none
or the sender sent them for a packet that its process had lost. -/
theorem data_delivered {start final : States (dataStations configs)}
    {steps : Steps (dataStations configs)} (deployed : DataDeployed configs start)
    (run : DataRun configs start steps final)
    (own : ∀ taken ∈ steps, ∀ name event stale, taken.label = .own name (event, stale) →
      Event.PacketsOnly event) :
    ∀ earlier taken later, steps = earlier ++ taken :: later →
      ∀ sender receiver (heard : DataFrame) (reception : Reception),
        taken.label = .received sender receiver heard reception →
        IsRequest (configs receiver) (taken.before receiver).withData.system.phy.deviceId
          (heard.frame.status reception) heard.frame.header →
        heard.data = [] ∨ SentLost earlier sender heard ∨
          Given earlier sender (taken.before receiver).withData.system.phy.deviceId heard.data ∨
          Given earlier sender broadcastId heard.data := by
  intro earlier taken later cut sender receiver heard reception label request
  obtain ⟨before, stepped, _⟩ := run.split_at cut
  have sent : heard ∈ (taken.before sender).sent := by
    have received : networkStep (dataStations configs) (.stopped .disabled) taken.before
        taken.label = .ok taken.after := stepped
    rw [label] at received
    exact (receive_of_step received).1
  have moves := own_run before sender
  have only : ∀ moved ∈ ownSteps sender earlier, Event.PacketsOnly (programEvent moved.label) := by
    refine fun moved member => packetsOnly_of_ownSteps (fun whole inside => own whole ?_) member
    rw [cut]
    exact List.mem_append_left _ inside
  rcases asked_data (deployed.booted sender) (deployed.quiet sender) moves only sent
    ⟨request.1, request.2.1⟩ with none | ⟨moved, member, gives⟩ | ⟨moved, member, sends, lost⟩
  · exact Or.inl none
  · refine Or.inr (Or.inr ?_)
    have given := given_of_ownSteps member gives
    rcases (of_decide_eq_true request.2.2).2 with mine | everyone
    · rw [← (receiverId_eq_iff _ _).mpr mine]
      exact Or.inl given
    · rw [show broadcastId = receiverId heard.frame.header from
        ((receiverId_eq_iff _ broadcastId).mpr everyone).symm]
      exact Or.inr given
  · exact Or.inr (Or.inl (sentLost_of_ownSteps member sends lost))

end Network

/-! ### Two devices -/

/-- Two devices at boot. -/
def dataPair : States (dataStations fun _ : Bool => projectConfig) := fun name =>
  ⟨⟨boot projectConfig (pairIds name) fun _ => .inserted, fun _ => none⟩, []⟩

theorem dataPair_deployed : DataDeployed (fun _ => projectConfig) dataPair where
  booted := fun name => ⟨⟨pairIds name, fun _ => .inserted, by cases name <;> decide, rfl⟩, rfl⟩
  quiet := fun _ => rfl

/-- The step function of the two devices. -/
def dataPairStep := networkStep (dataStations fun _ : Bool => projectConfig) (.stopped .disabled)

/-- Device 5 sends a packet to device 7. -/
def dataOnAir : List (Happening (dataStations fun _ : Bool => projectConfig)) :=
  (packetToModem smallPacket).map fun event => .own false (event, [])

/-- The frame of the packet. -/
def heardData : DataFrame :=
  ((dataOnAir.foldl (Transition.follow dataPairStep) dataPair) false).sent.headD ⟨⟨0, 0⟩, []⟩

/-- Device 7 hears it. -/
def dataHeard : Happening (dataStations fun _ : Bool => projectConfig) :=
  .received false true heardData ⟨0, -100, 40, true, 0⟩

/-- The applications only transmit a packet. -/
theorem dataHeard_packetsOnly :
    ∀ taken ∈ Transition.followAll dataPairStep dataPair (dataOnAir ++ [dataHeard]),
      ∀ name event stale, taken.label = .own name (event, stale) → Event.PacketsOnly event := by
  have transmits : ∀ event ∈ packetToModem smallPacket, event.PacketsOnly := by
    simp [packetToModem, carriedToModem, Event.PacketsOnly]
  have each : ∀ label ∈ dataOnAir ++ [dataHeard], ∀ name event stale,
      label = .own name (event, stale) → Event.PacketsOnly event := by
    rintro label member name event stale rfl
    rcases List.mem_append.mp member with sent | heard
    · obtain ⟨own, inside, same⟩ := List.mem_map.mp sent
      cases same
      exact transmits own inside
    · cases List.mem_singleton.mp heard
  intro taken member
  exact Transition.followAll_labels _ _ _ each taken member

/-- The three bytes that device 7 hears are given to device 5 by its application, for device 7 or
for all, or device 5 sends them for a packet it had lost. -/
theorem data_delivered_pair :
    heardData.data = [1, 2, 3] ∧
      (SentLost (Transition.followAll dataPairStep dataPair dataOnAir) false heardData ∨
        Given (Transition.followAll dataPairStep dataPair dataOnAir) false 7 heardData.data ∨
        Given (Transition.followAll dataPairStep dataPair dataOnAir) false broadcastId
          heardData.data) := by
  have data : heardData.data = [1, 2, 3] := by decide +kernel
  have run := Transition.followAll_run dataPairStep dataPair (dataOnAir ++ [dataHeard])
    (by decide +kernel)
  have delivered := data_delivered dataPair_deployed run dataHeard_packetsOnly _ _ []
    (Transition.followAll_append dataPairStep dataPair dataOnAir [dataHeard]) false true heardData _
    rfl (by decide +kernel)
  refine ⟨data, delivered.resolve_left ?_⟩
  rw [data]
  decide

end DectHarq
