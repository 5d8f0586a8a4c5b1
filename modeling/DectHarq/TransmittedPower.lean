/-
This file carries what the power control keeps through to the headers that are sent.

The search for a packet length reads the power of a header from the record of the receiver,
after it has added to it, and a reply reads it for the sender of its request. So in every
run the power that a header of type 2 announces, which is the one it is sent with, sustains
the smallest loss that was measured to its receiver, or is at least the configured power.
The count of a retransmission is added as a signed byte, which asks for less than 128
transmissions of a packet.
-/

import DectHarq.Network
import DectHarq.Payloads
import DectHarq.PowerControl

namespace DectHarq

variable {config : Config} {mcsMax : Nat} {loss : Nat → Int}

/-! ### Tables that sustain the losses -/

/-- Every record sustains the loss to its device: an address stands for the device with its low
sixteen bits, as a header names it. -/
def NodeTable.Sustained (config : Config) (loss : Nat → Int) (nodes : NodeTable) : Prop :=
  ∀ address, ∀ node ∈ nodes.get address, node.Sustains config (loss (address % 65536))

namespace NodeTable.Sustained

variable {nodes after : NodeTable} {address : Nat}

theorem put (sustained : nodes.Sustained config loss) {node : Node}
    (new : node.Sustains config (loss (address % 65536))) :
    (nodes.put address node).Sustained config loss := by
  intro other record found
  by_cases same : other = address
  · subst same
    rw [NodeTable.get_put_self] at found
    rw [← Option.some.inj found]
    exact new
  · rw [NodeTable.get_put_of_ne _ _ same] at found
    exact sustained other record found

theorem create (sustained : nodes.Sustained config loss) {mcs : Int} {code : ErrorCode}
    (created : dectMacNodeCreateNode address config.txPower mcs nodes = .ok (code, after)) :
    after.Sustained config loss := by
  unfold dectMacNodeCreateNode at created
  split at created
  · cases created
  · cases created
    exact put (show nodes.allocated.Sustained config loss from sustained)
      ⟨config.txPower_range, sustains_configured _⟩
  · cases created
    exact sustained
  · cases created
    exact sustained
  · cases created
    exact sustained

/-- A getter keeps the losses sustained. -/
theorem getter (sustained : nodes.Sustained config loss) {Value : Type} {read : Node → Value}
    {default value : Value}
    (got : getOrCreate config mcsMax read default address nodes = .ok (value, after)) :
    after.Sustained config loss := by
  unfold getOrCreate at got
  split at got
  · rename_i node found
    cases got
    exact sustained.put (sustained address node found)
  · split at got
    · rename_i code created same
      cases got
      exact sustained.create same
    · cases got

/-- The power that is read for a device sustains the loss to it. -/
theorem power (sustained : nodes.Sustained config loss) {txPower : Nat}
    (got : dectMacNodeGetTxPower config mcsMax address nodes = .ok (txPower, after)) :
    txPower ≤ powerLimit ∧ PowerSustains config (loss (address % 65536)) txPower := by
  unfold dectMacNodeGetTxPower getOrCreate at got
  split at got
  · rename_i node found
    cases got
    exact sustained address node found
  · split at got
    · cases got
      exact ⟨config.txPower_range, sustains_configured _⟩
    · cases got

/-- An adjustment of the program keeps the losses sustained. -/
theorem adjust (sustained : nodes.Sustained config loss) {adjustment : Adjustment}
    (raises : adjustment.Raises) (address : Nat) :
    (updateNode (adjustment.update config) address nodes).2.Sustained config loss := by
  intro other node found
  by_cases same : other = address
  · subst same
    rw [get_updateNode] at found
    obtain ⟨old, present, rfl⟩ := Option.map_eq_some_iff.mp found
    exact (raises.meets _).sustains (sustained other old present)
  · rw [get_updateNode_of_ne _ _ same] at found
    exact sustained other node found

/-- An optimization that measures no less than the loss keeps it sustained. -/
theorem optimize (sustained : nodes.Sustained config loss) {rssi2 snr : Int} {received : Nat}
    {code : ErrorCode} (measured : loss (address % 65536) ≤ receivedTxPowerDbm received - rssi2)
    (optimized : dectMacNodeOptimize config mcsMax address rssi2 snr received nodes =
      .ok (code, after)) : after.Sustained config loss := by
  obtain ⟨present, known, rfl⟩ := optimize_cases optimized
  have before : present.Sustained config loss := by
    rcases known with ⟨_, rfl⟩ | ⟨_, created, same⟩
    · exact sustained
    · exact sustained.create same
  intro other node found
  rw [get_tuned] at found
  split at found
  · rename_i same
    obtain ⟨old, _, rfl⟩ := Option.map_eq_some_iff.mp found
    rw [same]
    exact ⟨wantedTxPower_le _, sustains_wanted measured⟩
  · exact before other node found

theorem cleanOne (sustained : nodes.Sustained config loss) (address : Nat) :
    (cleanNode address nodes).Sustained config loss := by
  unfold cleanNode
  split
  · exact sustained
  · rename_i node found
    split
    · unfold dectMacNodeDeleteNode
      split
      · intro other record kept
        by_cases same : other = node.address
        · rw [NodeTable.get, same, AList.lookup_erase] at kept
          cases kept
        · rw [NodeTable.get, AList.lookup_erase_ne same] at kept
          exact sustained other record kept
      · exact sustained
    · intro other record kept
      rcases mem_replace_cases (AList.mem_lookup_iff.mp kept) with replaced | old
      · cases replaced
        exact sustained address node found
      · exact sustained other record (AList.mem_lookup_iff.mpr old)

theorem clean (sustained : nodes.Sustained config loss) :
    (dectMacNodeCleanUnusedNodes nodes).Sustained config loss := by
  have loop (later : List Nat) : ∀ {nodes : NodeTable} (current : Nat),
      nodes.Sustained config loss → (cleanLoop current later nodes).2.Sustained config loss := by
    induction later with
    | nil => exact fun _ sustained => sustained
    | cons next rest inductionHypothesis =>
      exact fun current sustained => inductionHypothesis next (sustained.cleanOne current)
  unfold dectMacNodeCleanUnusedNodes
  split
  · exact sustained
  · rename_i first rest _
    dsimp only
    split
    · exact loop rest first sustained
    · exact (loop rest first sustained).cleanOne _

end NodeTable.Sustained

/-! ### Headers that sustain the losses -/

/-- The power that a header announces sustains the loss to the receiver that it names. A beacon
names none. -/
def PhyTxParams.Sustains (config : Config) (loss : Nat → Int) (params : PhyTxParams) : Prop :=
  params.phyType = headerType2 →
    PowerSustains config (loss (receiverId params.header)) (announcedPower params)

theorem fitLoop_sustains {receiver dataSize fuel : Nat} {nodes after : NodeTable} {fit : Fit}
    (sustained : nodes.Sustained config loss)
    (searched : fitLoop config mcsMax receiver dataSize fuel nodes = .ok (fit, after)) :
    after.Sustained config loss ∧ fit.txPower ≤ powerLimit ∧
      PowerSustains config (loss (receiver % 65536)) fit.txPower := by
  induction fuel generalizing nodes with
  | zero => cases searched
  | succ fuel inductionHypothesis =>
    rw [fitLoop] at searched
    have reduced : (dectMacNodeReduceMcs mcsMax receiver (-1) nodes).2.Sustained config loss :=
      sustained.adjust (show (Adjustment.reduceMcs mcsMax (-1)).Raises from trivial) receiver
    generalize dectMacNodeReduceMcs mcsMax receiver (-1) nodes = reduction at searched reduced
    obtain ⟨canAugmentMcs, reducedNodes⟩ := reduction
    have raised : (dectMacNodeAddPower config receiver 1 reducedNodes).2.Sustained config loss :=
      reduced.adjust (show (Adjustment.addPower 1).Raises by constructor <;> decide) receiver
    obtain ⟨⟨mcs, readMcs⟩, gotMcs, searched⟩ := bind_ok.mp searched
    obtain ⟨⟨txPower, readPower⟩, gotPower, searched⟩ := bind_ok.mp searched
    obtain ⟨⟨found, packetLength⟩, _, searched⟩ := bind_ok.mp searched
    have read := raised.getter gotMcs
    dsimp only at searched
    split at searched
    · exact inductionHypothesis (read.getter gotPower) searched
    · cases searched
      exact ⟨read.getter gotPower, read.power gotPower⟩

/-- The power that is chosen for a packet sustains the loss to its receiver. -/
theorem fitPacket_sustains {receiver dataSize : Nat} {nodes after : NodeTable} {fit : Fit}
    (sustained : nodes.Sustained config loss)
    (fitted : fitPacket config mcsMax receiver dataSize nodes = .ok (fit, after)) :
    after.Sustained config loss ∧ fit.txPower ≤ powerLimit ∧
      PowerSustains config (loss (receiver % 65536)) fit.txPower := by
  obtain ⟨⟨txPower, readPower⟩, gotPower, fitted⟩ := bind_ok.mp fitted
  obtain ⟨⟨mcs, readMcs⟩, gotMcs, fitted⟩ := bind_ok.mp fitted
  obtain ⟨⟨ret, packetLength⟩, _, fitted⟩ := bind_ok.mp fitted
  have read := (sustained.getter gotPower).getter gotMcs
  dsimp only at fitted
  split at fitted
  · obtain ⟨⟨found, foundNodes⟩, search, fitted⟩ := bind_ok.mp fitted
    have searched := fitLoop_sustains read search
    dsimp only at fitted
    split at fitted
    · cases fitted
      exact searched
    · cases fitted
      exact searched
  · obtain ⟨⟨found, foundNodes⟩, search, fitted⟩ := bind_ok.mp fitted
    cases search
    have chosen := sustained.power gotPower
    dsimp only at fitted
    split at fitted
    · cases fitted
      exact ⟨read, chosen⟩
    · cases fitted
      exact ⟨read, chosen⟩

theorem txConfig_sustains {deviceId : Nat} {input : TxParams} {nodes after : NodeTable}
    {params : PhyTxParams} (sustained : nodes.Sustained config loss)
    (configured : dectMacPhyHandlerTxConfig config mcsMax deviceId input nodes =
      .ok (params, after)) :
    after.Sustained config loss ∧
      ∀ handle, ({ params with handle := handle } : PhyTxParams).Sustains config loss := by
  obtain ⟨⟨fit, fitted⟩, same, rest⟩ := bind_ok.mp configured
  obtain ⟨after, nominal, enough⟩ := fitPacket_sustains sustained same
  cases rest
  refine ⟨after, fun handle type2 => ?_⟩
  have other : input.txUsage ≠ .beacon := fun beacon => by
    rw [show (if input.txUsage = .beacon then headerType1 else headerType2) = headerType1 from
      if_pos beacon] at type2
    cases type2
  have reads := type2Header_reads config deviceId input fit
  unfold announcedPower
  dsimp only
  rw [if_neg other, if_neg other, if_neg (by decide), reads.transmitPower, reads.receiver]
  rwa [Nat.mod_eq_of_lt (Nat.lt_of_le_of_lt nominal (by decide))]

/-! ### The handlers -/

/-- The records sustain the losses, and so do the headers of all transmissions so far. -/
structure Phy.Sustained (config : Config) (loss : Nat → Int) (phy : Phy) : Prop where
  nodes : phy.nodes.Sustained config loss
  calls : ∀ call ∈ phy.modemCalls, ∀ params, call.1.transmission = some params →
    params.Sustains config loss

namespace Phy.Sustained

variable {phy after : Phy}

theorem call (sustained : phy.Sustained config loss) {nodes : NodeTable} {state : PhyState}
    {request : ModemRequest} (records : nodes.Sustained config loss)
    (header : ∀ params, request.transmission = some params → params.Sustains config loss)
    (origin : Origin) (ret : Int) :
    ({ phy with nodes := nodes, currentState := state }.call request origin ret).Sustained config
      loss := by
  refine ⟨records, fun call member => ?_⟩
  rcases List.mem_append.mp member with old | new
  · exact sustained.calls call old
  · rw [List.mem_singleton.mp new]
    exact header

theorem txHarq (sustained : phy.Sustained config loss) {params : TxHarqParams} {origin : Origin}
    {ret : Int} (sent : dectMacPhyHandlerTxHarq config params origin ret phy = .ok after) :
    after.Sustained config loss := by
  obtain ⟨⟨trueParams, nodes⟩, configured, rest⟩ := bind_ok.mp sent
  obtain ⟨records, header⟩ := txConfig_sustains sustained.nodes configured
  cases rest
  refine sustained.call records (fun built same => ?_) origin ret
  cases same
  exact header _

theorem handler (sustained : phy.Sustained config loss) {operation : Operation} {origin : Origin}
    {ret : Int} (called : callHandler config operation origin ret phy = .ok after) :
    after.Sustained config loss := by
  cases operation with
  | tx params =>
    obtain ⟨⟨trueParams, nodes⟩, configured, rest⟩ := bind_ok.mp called
    obtain ⟨records, header⟩ := txConfig_sustains sustained.nodes configured
    cases rest
    refine sustained.call records (fun built same => ?_) origin ret
    cases same
    exact header _
  | txHarq params => exact sustained.txHarq called
  | txRx params =>
    obtain ⟨⟨trueParams, nodes⟩, configured, rest⟩ := bind_ok.mp called
    obtain ⟨records, header⟩ := txConfig_sustains sustained.nodes configured
    cases rest
    refine sustained.call records (fun built same => ?_) origin ret
    cases same
    exact header _
  | placeholder => cases called
  | unknown => cases called
  | linkConfig =>
    cases called
    exact sustained
  | _ =>
    cases called
    refine sustained.call sustained.nodes (fun built same => ?_) origin ret
    cases same

theorem execute (sustained : phy.Sustained config loss) {operation : Operation}
    {provenance : Provenance} {inPlace : Bool} {ret : Int} {queue queueAfter : Queue}
    {code : ErrorCode}
    (executed : dectMacPhyHandlerQueueFunctionExecute config operation provenance inPlace ret
      queue phy = .ok (code, queueAfter, after)) : after.Sustained config loss := by
  rcases executeSwitch_cases (functionExecute_cases executed).2 with
    ⟨_, rfl⟩ | ⟨_, rfl⟩ | ⟨_, called⟩
  · unfold Phy.awaitReply
    split
    · exact ⟨sustained.nodes, sustained.calls⟩
    · exact ⟨sustained.nodes, sustained.calls⟩
  · exact sustained
  · exact sustained.handler called

end Phy.Sustained

/-! ### The system -/

/-- A reception measures no less than the loss to its sender: the power that its header announces,
less its level. -/
def Event.MeasuresLoss (loss : Nat → Int) : Event config → Prop
  | .pcc status header _ =>
    loss (transmitterId header) ≤ receivedDbm header - status.rssi2.tdiv 2
  | _ => True

section System

variable {system after : System config}

/-- The count of a retransmission is added as a signed byte, and is positive below 128. -/
theorem retransmit_sustains {index : Fin config.harqProcessCount} {code : ErrorCode}
    (few : config.harqMaxTransmissions < 128)
    (below : (system.harq.processes index).transmissionCount < config.harqMaxTransmissions)
    (sustained : system.phy.Sustained config loss)
    (returned : dectMacHarqRetransmit index system = .ok (code, after)) :
    after.phy.Sustained config loss := by
  obtain ⟨⟨putCode, queue⟩, _, rest⟩ := bind_ok.mp returned
  cases rest
  refine ⟨?_, sustained.calls⟩
  have small : ((system.harq.modify index fun process => { process with
      transmissionCount := uint8 (process.transmissionCount + 1) }).processes
        index).transmissionCount < 128 := by
    rw [modify_processes_self]
    show uint8 ((system.harq.processes index).transmissionCount + 1) < 128
    unfold uint8
    omega
  generalize (system.harq.modify index _).processes index = process at small
  have raised := sustained.nodes.adjust (show (Adjustment.addPower process.transmissionCount).Raises
    from ⟨Int.natCast_nonneg _, by omega⟩) process.receiverId
  exact raised.adjust (show (Adjustment.reduceMcs _ 1).Raises from trivial) process.receiverId

theorem pccCb_sustains {status : PccStatus} {header : PhyHeader} {ret : Int}
    (measured : loss (transmitterId header) ≤ receivedDbm header - status.rssi2.tdiv 2)
    (sustained : system.phy.Sustained config loss)
    (received : dectMacPhyPccCb status header ret system = .ok after) :
    after.phy.Sustained config loss := by
  obtain ⟨nodes, optimized, outcome⟩ := pccCb_cases received
  have tuned : nodes.Sustained config loss := by
    obtain ⟨⟨code, optimizedNodes⟩, ran, rest⟩ := bind_ok.mp optimized
    have same : optimizedNodes = nodes := congrArg Phy.nodes (ok_inj rest)
    refine same ▸ sustained.nodes.optimize ?_ ran
    rw [show Type1.transmitterIdHi.get header <<< 8 ||| Type1.transmitterIdLo.get header =
      transmitterId header from rfl, Nat.mod_eq_of_lt (transmitterId_lt header)]
    exact measured
  rcases outcome with ⟨_, code, handled⟩ | ⟨_, _, harq, _, rfl⟩ | ⟨_, _, rfl⟩
  · obtain ⟨harq, _, handled⟩ := bind_ok.mp handled
    obtain ⟨⟨cqi, read⟩, got, handled⟩ := bind_ok.mp handled
    obtain ⟨phy, sent, handled⟩ := bind_ok.mp handled
    obtain ⟨⟨putCode, queue⟩, _, handled⟩ := bind_ok.mp handled
    cases handled
    have readSustained : Phy.Sustained config loss { system.phy with nodes := read } :=
      ⟨tuned.getter got, sustained.calls⟩
    exact readSustained.txHarq sent
  · exact ⟨tuned, sustained.calls⟩
  · exact ⟨tuned, sustained.calls⟩

/-- Every step keeps the losses sustained. -/
theorem step_sustains {event : Event config} (few : config.harqMaxTransmissions < 128)
    (sound : system.harq.Sound) (measured : event.MeasuresLoss loss)
    (sustained : system.phy.Sustained config loss) (stepped : step system event = .ok after) :
    after.phy.Sustained config loss := by
  cases event with
  | direct operation ret =>
    obtain ⟨phy, called, rest⟩ := bind_ok.mp stepped
    cases rest
    exact sustained.handler called
  | execDispatch ret =>
    dsimp only [step] at stepped
    split at stepped
    · obtain ⟨⟨code, queue, phy⟩, executed, rest⟩ := bind_ok.mp stepped
      cases rest
      exact sustained.execute executed
    · cases stepped
  | retryTimer ret =>
    dsimp only [step] at stepped
    split at stepped
    · obtain ⟨⟨code, queue, phy⟩, executed, rest⟩ := bind_ok.mp stepped
      cases rest
      exact sustained.execute executed
    · cases stepped
  | workExpired index =>
    dsimp only [step] at stepped
    split at stepped
    · rcases workHandler_cases stepped with ⟨below, code, returned⟩ | ⟨_, _, _, rfl⟩
      · exact retransmit_sustains few below ⟨sustained.nodes, sustained.calls⟩ returned
      · exact sustained
    · cases stepped
  | pcc status header ret => exact pccCb_sustains measured sustained stepped
  | cleanNodes =>
    cases stepped
    exact ⟨sustained.nodes.clean, sustained.calls⟩
  | _ =>
    have action := action_of_step sound stepped
    cases action <;> exact ⟨sustained.nodes, sustained.calls⟩

end System

/-- In every run from boot, with fewer than 128 transmissions of a packet, if no reception measures
less than some loss to its sender, then the power of every header of type 2 that is sent reaches
the target and the margin over the loss to its receiver, or is at least the configured power. -/
theorem power_onAir {start final : System config}
    {steps : List (Transition.Step (System config) (Event config))} (booted : Booted start)
    (run : Run start steps final) (few : config.harqMaxTransmissions < 128) (loss : Nat → Int)
    (measured : ∀ taken ∈ steps, taken.label.MeasuresLoss loss) :
    ∀ call ∈ final.phy.modemCalls, ∀ params, call.1.transmission = some params →
      params.phyType = headerType2 →
        PowerSustains config (loss (receiverId params.header)) (announcedPower params) := by
  have kept : ∀ (before : System config) (event : Event config) (after : System config),
      event.MeasuresLoss loss → before.harq.Sound ∧ before.phy.Sustained config loss →
      Transition.stepOf step before event after →
      after.harq.Sound ∧ after.phy.Sustained config loss := by
    rintro before event after measures ⟨sound, sustained⟩ stepped
    exact ⟨((action_of_step sound stepped).move sound).1.sound sound,
      step_sustains few sound measures sustained stepped⟩
  have base : start.harq.Sound ∧ start.phy.Sustained config loss := by
    obtain ⟨deviceId, allocations, _, rfl⟩ := booted
    refine ⟨boot_sound config, fun address node found => ?_, fun call member => ?_⟩
    · cases found
    · cases member
  exact (run.invariant _ (fun _ event => Event.MeasuresLoss loss event) kept measured base).2.calls

/-- A header from device 7 is received at -50 dBm, which was sent with 19 dBm, and then a packet
goes to this device. -/
def nearPacket : List (Event projectConfig) :=
  received (peerAck 7 5 0) :: packetToModem smallPacket

/-- The packet is sent with -16 dBm, which is enough for a loss of 69 dB. -/
theorem power_onAir_near :
    (∃ call ∈ (nearPacket.foldl (Transition.follow step) device).phy.modemCalls,
      ∃ params ∈ call.1.transmission, announcedPower params = 3) ∧
    ∀ call ∈ (nearPacket.foldl (Transition.follow step) device).phy.modemCalls,
      ∀ params, call.1.transmission = some params → params.phyType = headerType2 →
        PowerSustains projectConfig 69 (announcedPower params) :=
  ⟨by decide +kernel, power_onAir device_booted
    (Transition.followAll_run step device nearPacket (by decide +kernel)) (by decide) (fun _ => 69)
    (Transition.followAll_labels step device nearPacket (by
      simp [nearPacket, received, packetToModem, carriedToModem, Event.MeasuresLoss]
      decide))⟩

end DectHarq
