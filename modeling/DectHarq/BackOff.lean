/-
This file settles what a retransmission makes of the record of its receiver.

A retransmission adds the number of the transmission to the power of the receiver, and
takes one from its MCS. The number is counted in an unsigned byte and added as a signed
one: from the transmission 128 on it is negative, and the sum goes down unless it wraps
below zero, where it becomes too large and is capped. An MCS below zero, which is how a
channel without a suitable one is recorded, is raised to zero by the lower clamp.
-/

import DectHarq.NodeRecords

namespace DectHarq

variable {config : Config}

/-! ### The two adjustments -/

/-- The record of a receiver after the retransmission with a number. -/
def retransmittedRecord (config : Config) (mcsMax number : Nat) (node : Node) : Node :=
  let power := uint8 (node.txPower + int8 number)
  let mcs := int8 (node.mcs - int8 1)
  { node with
    used := true
    txPower := if power > config.txPower then config.txPower else power
    mcs := if mcs < 0 then 0 else if mcs > mcsMax then int8 mcsMax else mcs }

/-- A retransmission changes the record of its receiver by the two adjustments. -/
theorem retransmit_record {index : Fin config.harqProcessCount} {system after : System config}
    {code : ErrorCode} (returned : dectMacHarqRetransmit index system = .ok (code, after)) :
    after.phy.nodes.get (system.harq.processes index).receiverId =
      (system.phy.nodes.get (system.harq.processes index).receiverId).map
        (retransmittedRecord config system.phy.capabilities.mcsMax
          (uint8 ((system.harq.processes index).transmissionCount + 1))) := by
  obtain ⟨⟨putCode, queue⟩, _, rest⟩ := bind_ok.mp returned
  rw [modify_processes_self] at rest
  have adjusted : after.phy.nodes =
      (dectMacNodeReduceMcs system.phy.capabilities.mcsMax
        (system.harq.processes index).receiverId 1
        (dectMacNodeAddPower config (system.harq.processes index).receiverId
          (uint8 ((system.harq.processes index).transmissionCount + 1))
          system.phy.nodes).2).2 :=
    congrArg (fun result : ErrorCode × System config => result.2.phy.nodes) (ok_inj rest).symm
  rw [adjusted, dectMacNodeReduceMcs, get_updateNode, dectMacNodeAddPower, get_updateNode,
    Option.map_map]
  refine congrFun (congrArg Option.map (funext fun node => ?_)) _
  dsimp only [Function.comp_apply, retransmittedRecord]
  split
  · rfl
  · split <;> rfl

/-! ### The direction of the change -/

/-- A record changes in the direction of a retransmission: its power is not lowered within the
configured limit and not raised above it, and its MCS is not raised. -/
structure BacksOff (config : Config) (before after : Node) : Prop where
  power : before.txPower ≤ config.txPower → before.txPower ≤ after.txPower
  limit : after.txPower ≤ config.txPower
  mcs : after.mcs ≤ before.mcs

theorem int8_signed (value : Nat) (byte : value < 256) :
    int8 value = if value < 128 then (value : Int) else value - 256 := by
  unfold int8
  rw [Int.bmod_eq_emod]
  split <;> split <;> omega

/-- The power goes down exactly when it and the number of the transmission exceed a byte. -/
theorem retransmitted_power_iff {mcsMax number : Nat} {node : Node} (byte : number < 256)
    (within : node.txPower ≤ config.txPower) :
    node.txPower ≤ (retransmittedRecord config mcsMax number node).txPower ↔
      node.txPower + number < 256 := by
  have limit := config.txPower_range
  unfold retransmittedRecord uint8
  dsimp only
  rw [int8_signed number byte]
  split <;> split <;> omega

/-- The MCS goes up exactly when it is below zero. -/
theorem retransmitted_mcs_iff {mcsMax number : Nat} {node : Node} :
    (retransmittedRecord config mcsMax number node).mcs ≤ node.mcs ↔ 0 ≤ node.mcs := by
  unfold retransmittedRecord
  dsimp only
  rw [show int8 1 = 1 from rfl]
  have signed : -128 ≤ int8 (node.mcs - 1) ∧ int8 (node.mcs - 1) ≤ 127 ∧
      (0 ≤ node.mcs → int8 (node.mcs - 1) ≤ node.mcs) := by
    unfold int8
    rw [Int.bmod_eq_emod]
    split <;> omega
  generalize int8 (node.mcs - 1) = reduced at signed
  split
  · omega
  · split
    · have same : int8 mcsMax = mcsMax := int8_eq_self (by omega) (by omega)
      rw [same]
      omega
    · omega

theorem retransmitted_limit (mcsMax number : Nat) (node : Node) :
    (retransmittedRecord config mcsMax number node).txPower ≤ config.txPower := by
  unfold retransmittedRecord
  dsimp only
  split
  · exact le_rfl
  · rename_i below
    exact Nat.not_lt.mp below

/-- The record changes in the right direction exactly when its MCS is not below zero, and its power,
if it is within the configured limit, and the number of the transmission do not exceed a byte. -/
theorem retransmitted_backsOff_iff {mcsMax number : Nat} {node : Node} (byte : number < 256) :
    BacksOff config node (retransmittedRecord config mcsMax number node) ↔
      0 ≤ node.mcs ∧ (node.txPower ≤ config.txPower → node.txPower + number < 256) := by
  constructor
  · intro backsOff
    exact ⟨retransmitted_mcs_iff.mp backsOff.mcs,
      fun within => (retransmitted_power_iff byte within).mp (backsOff.power within)⟩
  · rintro ⟨low, fits⟩
    exact ⟨fun within => (retransmitted_power_iff byte within).mpr (fits within),
      retransmitted_limit _ _ node, retransmitted_mcs_iff.mpr low⟩

/-! ### The retransmissions of a run -/

/-- The record of the receiver of a process. -/
def receiverRecord (index : Fin config.harqProcessCount) (system : System config) : Option Node :=
  system.phy.nodes.get (system.harq.processes index).receiverId

/-- A step is a retransmission of the packet of a process, whose receiver has a record. -/
structure Retransmits (taken : Transition.Step (System config) (Event config))
    (index : Fin config.harqProcessCount) (node : Node) : Prop where
  label : taken.label = .workExpired index
  below : (taken.before.harq.processes index).transmissionCount < config.harqMaxTransmissions
  found : receiverRecord index taken.before = some node

/-- A step that retransmits changes the record of the receiver by the two adjustments. -/
theorem Retransmits.record {taken : Transition.Step (System config) (Event config)}
    {index : Fin config.harqProcessCount} {node : Node} (retransmits : Retransmits taken index node)
    (stepped : step taken.before taken.label = .ok taken.after) :
    taken.after.phy.nodes.get (taken.before.harq.processes index).receiverId =
      some (retransmittedRecord config taken.before.phy.capabilities.mcsMax
        ((taken.before.harq.processes index).transmissionCount + 1) node) := by
  obtain ⟨label, below, found⟩ := retransmits
  have few := config.harqMaxTransmissions_range.2
  rw [label] at stepped
  unfold step at stepped
  dsimp only at stepped
  split at stepped
  · have kept : (cancelWork index taken.before.harq).processes index =
        { taken.before.harq.processes index with workPending := false } := by
      rw [cancelWork, modify_processes_self]
    rcases workHandler_cases stepped with ⟨_, code, returned⟩ | ⟨limit, _⟩
    · have record := retransmit_record returned
      dsimp only at record
      rw [kept] at record
      dsimp only at record
      rw [record, show taken.before.phy.nodes.get _ = some node from found, Option.map_some]
      have counted : uint8 ((taken.before.harq.processes index).transmissionCount + 1) =
          (taken.before.harq.processes index).transmissionCount + 1 :=
        uint8_eq_self (Nat.lt_succ_of_le (le_trans below few))
      rw [counted]
    · dsimp only at limit
      rw [kept] at limit
      exact absurd below (Nat.not_lt.mpr limit)
  · cases stepped

/-- In every run, a retransmission changes the record of its receiver in the right direction exactly
when the MCS of the record is not below zero, and its power, if it is within the configured limit,
and the number of the transmission do not exceed a byte. -/
theorem retransmit_backsOff_iff {start final : System config}
    {steps : List (Transition.Step (System config) (Event config))} (run : Run start steps final)
    {taken : Transition.Step (System config) (Event config)} (member : taken ∈ steps)
    {index : Fin config.harqProcessCount} {node : Node}
    (retransmits : Retransmits taken index node) :
    (∃ changed, taken.after.phy.nodes.get (taken.before.harq.processes index).receiverId =
        some changed ∧ BacksOff config node changed) ↔
      0 ≤ node.mcs ∧ (node.txPower ≤ config.txPower →
        node.txPower + ((taken.before.harq.processes index).transmissionCount + 1) < 256) := by
  have few := config.harqMaxTransmissions_range.2
  have byte : (taken.before.harq.processes index).transmissionCount + 1 < 256 :=
    Nat.lt_succ_of_le (le_trans retransmits.below few)
  rw [retransmits.record (run.taken taken member),
    ← @retransmitted_backsOff_iff _ taken.before.phy.capabilities.mcsMax _ _ byte]
  simp

/-! ### A packet with many transmissions -/

/-- A configuration with as many transmissions of a packet as there can be. -/
def patientConfig : Config :=
  { projectConfig with harqMaxTransmissions := 255, harqMaxTransmissions_range := by decide }

/-- Device 5 after boot. -/
def patientDevice : System patientConfig := boot patientConfig 5 fun _ => .inserted

/-- A NACK of device 7 for process 0, received at -100 dBm, which asks for the largest power. -/
def weakNack : Event patientConfig :=
  .pcc ⟨1, 0, -200, 40⟩ (peerFeedback 7 5 (format1Feedback 0 0 0)) 0

/-- A packet for device 7 that is retransmitted after each of a number of NACKs, up to a last NACK.
Once the queue is full the retransmissions fail, but they are counted all the same. -/
def nackedTimes (rounds : Nat) : List (Event patientConfig) :=
  .transmit smallPacket (some 4096) ::
    ((List.replicate rounds [weakNack, .workExpired (processZero patientConfig)]).flatten ++
      [weakNack])

/-- The first retransmission. -/
def firstRetransmission : Transition.Step (System patientConfig) (Event patientConfig) :=
  let before := (nackedTimes 0).foldl (Transition.follow step) patientDevice
  let event := .workExpired (processZero patientConfig)
  ⟨before, event, Transition.follow step before event⟩

theorem firstRetransmission_mem : firstRetransmission ∈ Transition.followAll step patientDevice
    (nackedTimes 0 ++ [.workExpired (processZero patientConfig)]) := by
  rw [Transition.followAll_append]
  exact List.mem_append_right _ List.mem_cons_self

/-- The first retransmission leaves the power at the limit and takes one from the MCS. -/
theorem retransmit_backsOff_first :
    Retransmits firstRetransmission (processZero patientConfig) ⟨7, true, 13, 3⟩ ∧
      ∃ changed, firstRetransmission.after.phy.nodes.get (firstRetransmission.before.harq.processes
          (processZero patientConfig)).receiverId = some changed ∧
        BacksOff patientConfig ⟨7, true, 13, 3⟩ changed := by
  have retransmits : Retransmits firstRetransmission (processZero patientConfig)
      ⟨7, true, 13, 3⟩ := ⟨rfl, by decide +kernel, by decide +kernel⟩
  exact ⟨retransmits, (retransmit_backsOff_iff (Transition.followAll_run step patientDevice
    (nackedTimes 0 ++ [.workExpired (processZero patientConfig)]) (by decide +kernel))
    firstRetransmission_mem retransmits).mpr (by decide +kernel)⟩

/-- A retransmission that takes the power of its receiver from 13 to 0. -/
def lowersPower (taken : Transition.Step (System patientConfig) (Event patientConfig)) : Bool :=
  match taken.label with
  | .workExpired index =>
    (taken.before.harq.processes index).transmissionCount < 255 ∧
      (receiverRecord index taken.before).map Node.txPower = some 13 ∧
      (taken.after.phy.nodes.get (taken.before.harq.processes index).receiverId).map
        Node.txPower = some 0
  | _ => false

/-- The retransmission with the number 243 takes the power from 19 dBm to -40 dBm. -/
theorem retransmit_lowers :
    ¬ ∀ (start final : System patientConfig)
        (steps : List (Transition.Step (System patientConfig) (Event patientConfig)))
        (taken : Transition.Step (System patientConfig) (Event patientConfig))
        (index : Fin patientConfig.harqProcessCount) (node : Node),
      Booted start → Run start steps final → taken ∈ steps → Retransmits taken index node →
        ∃ changed, taken.after.phy.nodes.get (taken.before.harq.processes index).receiverId =
          some changed ∧ BacksOff patientConfig node changed := by
  intro always
  have run := Transition.followAll_run step patientDevice (nackedTimes 242) (by decide +kernel)
  have lowered : ∃ taken ∈ Transition.followAll step patientDevice (nackedTimes 242),
      lowersPower taken = true := by
    decide +kernel
  obtain ⟨taken, member, lowers⟩ := lowered
  unfold lowersPower at lowers
  split at lowers
  · rename_i index expired
    obtain ⟨below, before, after⟩ := of_decide_eq_true lowers
    obtain ⟨node, found, full⟩ := Option.map_eq_some_iff.mp before
    obtain ⟨changed, stored, backsOff⟩ := always _ _ _ taken index node ⟨5, _, by decide, rfl⟩ run
      member ⟨expired, below, found⟩
    have kept := backsOff.power (full.trans_le (by decide))
    rw [stored, Option.map_some] at after
    rw [full, Option.some.inj after] at kept
    exact absurd kept (by decide)
  · cases lowers

end DectHarq
