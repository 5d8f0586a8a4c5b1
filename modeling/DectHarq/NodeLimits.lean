/-
This file relates the records of a run to the limits of the device.

The creation of a record and the two adjustments respect the configured power and the
largest MCS of the modem. An optimization stores what the measurements of a reception
ask for, between the power codes 2 and 13 and between no usable MCS and 4, whatever the
device is configured for. The limits therefore hold in the runs whose measurements ask
for no more, and the length table is read in bounds for the receivers with a usable MCS.
-/

import Mathlib.Tactic.IntervalCases
import DectHarq.Announcements

namespace DectHarq

variable {config : Config} {mcsMax : Nat}

/-! ### The index of the length table -/

/-- The MCS values that `tx_config` looks up. -/
def txConfigLookups (config : Config) (mcsMax : Nat) (input : TxParams) (nodes : NodeTable) :
    List Nat :=
  fitPacketLookups config mcsMax input.receiverId input.dataSize nodes

/-- The configuration of a transmission stops outside the table exactly when it looks up an MCS
above 4. -/
theorem txConfig_outOfBounds_iff (deviceId : Nat) (input : TxParams) (nodes : NodeTable) :
    dectMacPhyHandlerTxConfig config mcsMax deviceId input nodes = .error .outOfBounds ↔
      ∃ mcs ∈ txConfigLookups config mcsMax input nodes, 4 < mcs := by
  unfold txConfigLookups
  rw [← fitPacket_outOfBounds_iff]
  constructor
  · intro stopped
    rcases bind_error.mp stopped with failed | ⟨_, _, failed⟩
    · exact failed
    · cases failed
  · intro stopped
    exact bind_error.mpr (Or.inl stopped)

/-- The law of the records whose MCS is in the table, or not usable. -/
theorem table_law (config : Config) {mcsMax : Nat} (small : mcsMax ≤ 4) :
    RecordLaw config mcsMax (fun _ mcs => -1 ≤ mcs ∧ mcs ≤ 4)
      (fun node => -1 ≤ node.mcs ∧ node.mcs ≤ 4) where
  created := fun _ => by
    have same : int8 mcsMax = mcsMax := int8_eq_self (by omega) (by omega)
    constructor <;> dsimp only <;> omega
  marked := fun _ _ range => range
  capped := fun _ _ _ range => range
  clamped := fun _ mcs clamped _ => by
    have same : int8 mcsMax = mcsMax := int8_eq_self (by omega) (by omega)
    constructor <;> dsimp only <;> omega
  tuned := fun _ _ _ accepted _ => accepted

/-- In every run on a modem whose largest MCS is in the table, the lookups for a transmission are
in the table exactly when the record of its receiver, if any, has a usable MCS. -/
theorem lookups_inTable_iff {start final : System config}
    {steps : List (Transition.Step (System config) (Event config))} (booted : Booted start)
    (run : Run start steps final) (small : ∀ taken ∈ steps, taken.label.Reports (· ≤ 4))
    (input : TxParams) :
    (∀ mcs ∈ txConfigLookups config final.phy.capabilities.mcsMax input final.phy.nodes,
        mcs ≤ 4) ↔
      ∀ node, final.phy.nodes.get input.receiverId = some node → node.mcs ≠ -1 := by
  obtain ⟨limit, from_⟩ := (records_of_run (fun mcsMax small => table_law config small) booted
    run (by decide) fun taken member => (small taken member).lawful fun _ snr =>
      wantedMcs_range snr).1
  obtain ⟨record, range, read⟩ :=
    startingMcs_reads (table_law config limit) from_.nodes input.receiverId
  unfold txConfigLookups
  rw [fitPacketLookups_inTable_iff limit (by omega) (by omega)]
  constructor
  · intro usable node found
    rw [startingMcs_of_get found] at usable
    omega
  · intro usable
    cases found : final.phy.nodes.get input.receiverId with
    | none =>
      rw [startingMcs_of_none found, int8_eq_self (by omega) (by omega)]
      exact Int.natCast_nonneg _
    | some node =>
      rw [startingMcs_of_get found] at read ⊢
      have negative := usable node found
      omega

/-- A transmission of three bytes to a device. -/
def threeBytesFor (receiver : Nat) : TxParams where
  handle := 0
  txUsage := .noHarq
  lbtEnable := false
  data := some ⟨4096, [1, 2, 3]⟩
  dataSize := 3
  receiverId := receiver
  feedback := Feedback.none
  harq := HarqTxParams.none
  startTime := 0

/-- A header is received over a channel with 3 dB of signal-to-noise ratio. -/
def receivedNoisy (header : PhyHeader) : Event projectConfig := .pcc ⟨1, 0, -100, 12⟩ header 0

/-- The device after a header of device 7 over a good channel. -/
def heardGood : System projectConfig :=
  [received (peerAck 7 5 0)].foldl (Transition.follow step) device

/-- The lookups of a transmission to device 7 after this header. -/
def lookupsAfterGood : List Nat :=
  txConfigLookups projectConfig heardGood.phy.capabilities.mcsMax (threeBytesFor 7)
    heardGood.phy.nodes

/-- After a header of device 7 over a good channel, a transmission to it stays in the table. -/
theorem lookups_inTable_iff_good :
    lookupsAfterGood ≠ [] ∧ ∀ mcs ∈ lookupsAfterGood, mcs ≤ 4 := by
  refine ⟨by decide +kernel, (lookups_inTable_iff device_booted
    (Transition.followAll_run step device _ (by decide +kernel))
    (Transition.followAll_labels step device _ (by simp [received, Event.Reports]))
    (threeBytesFor 7)).mpr fun node found => ?_⟩
  have usable : (heardGood.phy.nodes.get 7).all (fun node => node.mcs ≠ -1) = true := by
    decide +kernel
  rw [show heardGood.phy.nodes.get 7 = some node from found] at usable
  exact of_decide_eq_true usable

/-- After a header of device 7 over a noisy channel, a transmission to it leaves the table. -/
theorem lookup_outOfTable :
    ¬ ∀ (start final : System projectConfig)
        (steps : List (Transition.Step (System projectConfig) (Event projectConfig))),
      Booted start → Run start steps final →
        (∀ taken ∈ steps, taken.label.Reports (· ≤ 4)) → ∀ input : TxParams,
          ∀ mcs ∈ txConfigLookups projectConfig final.phy.capabilities.mcsMax input
            final.phy.nodes, mcs ≤ 4 := by
  intro inTable
  have run := Transition.followAll_run step device [receivedNoisy (peerAck 7 5 0)]
    (by decide +kernel)
  have each := inTable _ _ _ device_booted run
    (Transition.followAll_labels step device _ (by simp [receivedNoisy, Event.Reports]))
    (threeBytesFor 7)
  exact absurd each (by decide +kernel)

/-! ### The configured limits -/

/-- The least signal-to-noise ratio at which an optimization stores an MCS. -/
def snrFor : Nat → Int
  | 0 => 4
  | 1 => 6
  | 2 => 8
  | 3 => 10
  | _ => 14

/-- The wanted power of a reception does not exceed what is configured: the nominal power of the
configured code, which is one that an optimization may store, suffices. -/
def PowerWithin (config : Config) (dbm : Int) : Prop :=
  config.txPower = 13 ∨ (2 ≤ config.txPower ∧ dbm ≤ receivedTxPowerDbm config.txPower)

/-- The signal-to-noise ratio of a reception is too low for an MCS above a limit. -/
def SnrWithin (largest : Nat) (snr : Int) : Prop :=
  largest = 4 ∨ snr < snrFor (largest + 1)

theorem choice_le_iff {first second bound : Nat} (condition : Prop) [Decidable condition] :
    (if condition then first else second) ≤ bound ↔
      (condition → first ≤ bound) ∧ (¬ condition → second ≤ bound) := by
  split <;> simp_all

/-- A code that an optimization may store bounds the stored one when its nominal power suffices. -/
theorem wantedTxPower_le_nominal (dbm : Int) {code : Nat} (low : 2 ≤ code) (high : code ≤ 12) :
    wantedTxPower dbm ≤ code ↔ dbm ≤ receivedTxPowerDbm code := by
  unfold wantedTxPower
  simp only [choice_le_iff]
  interval_cases code <;> simp only [receivedTxPowerDbm] <;> omega

theorem two_le_wantedTxPower (dbm : Int) : 2 ≤ wantedTxPower dbm := by
  have above : ¬ wantedTxPower dbm ≤ 1 := by
    unfold wantedTxPower
    simp only [choice_le_iff]
    omega
  omega

theorem wantedTxPower_le_iff (config : Config) (dbm : Int) :
    wantedTxPower dbm ≤ config.txPower ↔ PowerWithin config dbm := by
  have range := config.txPower_range
  have largest : wantedTxPower dbm ≤ 13 := wantedTxPower_le dbm
  have least := two_le_wantedTxPower dbm
  unfold PowerWithin
  by_cases full : config.txPower = 13
  · exact iff_of_true (by omega) (Or.inl full)
  · by_cases low : 2 ≤ config.txPower
    · rw [wantedTxPower_le_nominal dbm low (by omega)]
      exact ⟨fun enough => Or.inr ⟨low, enough⟩, fun either => (either.resolve_left full).2⟩
    · exact iff_of_false (by omega) fun either => low (either.resolve_left full).1

theorem wantedMcs_le_iff {largest : Nat} (small : largest ≤ 4) (snr : Int) :
    wantedMcs snr ≤ largest ↔ SnrWithin largest snr := by
  have range := wantedMcs_range snr
  unfold SnrWithin
  by_cases full : largest = 4
  · exact iff_of_true (by omega) (Or.inl full)
  · have threshold : wantedMcs snr ≤ largest ↔ snr < snrFor (largest + 1) := by
      have below : largest ≤ 3 := by omega
      clear range full small
      unfold wantedMcs
      interval_cases largest <;> simp only [snrFor] <;> omega
    rw [threshold]
    exact ⟨Or.inr, fun either => either.resolve_left full⟩

/-- The measurements of a reception ask for no more than the limits, or there is no record of the
sender and none can be created. -/
def Event.Measures (largest : Nat) (system : System config) : Event config → Prop
  | .pcc status header _ =>
    system.phy.nodes.LeavesOut
      (Type1.transmitterIdHi.get header <<< 8 ||| Type1.transmitterIdLo.get header) ∨
    (PowerWithin config (wantedDbm config (status.rssi2.tdiv 2)
      (Type1.transmitPower.get header)) ∧ SnrWithin largest (status.snr.tdiv 4))
  | _ => True

/-- A record is within the configured power and an MCS. -/
def Node.Within (config : Config) (largest : Nat) (node : Node) : Prop :=
  node.txPower ≤ config.txPower ∧ node.mcs ≤ largest

/-- The law of the records within the limits, before and after the modem reported its largest
MCS. -/
theorem limits_law (config : Config) {mcsMax largest : Nat} (small : largest ≤ 4)
    (reported : mcsMax = 0 ∨ mcsMax = largest) :
    RecordLaw config mcsMax
      (fun txPower mcs => -1 ≤ mcs ∧ txPower ≤ config.txPower ∧ mcs ≤ largest)
      (fun node => -1 ≤ node.mcs ∧ node.Within config largest) where
  created := fun _ => by
    have same : int8 mcsMax = mcsMax := int8_eq_self (by omega) (by omega)
    refine ⟨?_, le_rfl, ?_⟩ <;> dsimp only <;> omega
  marked := fun _ _ within => within
  capped := fun _ _ capped within => ⟨within.1, capped, within.2.2⟩
  clamped := fun _ mcs clamped within => by
    have same : int8 mcsMax = mcsMax := int8_eq_self (by omega) (by omega)
    refine ⟨?_, within.2.1, ?_⟩ <;> dsimp only <;> omega
  tuned := fun _ _ _ accepted _ => accepted

/-- In every run on a modem whose reports agree and whose receptions ask for no more than the
limits or leave no record, the records and the headers of all transmissions are within them. -/
theorem limits_of_run {start final : System config} {largest : Nat}
    {steps : List (Transition.Step (System config) (Event config))} (booted : Booted start)
    (run : Run start steps final) (small : largest ≤ 4)
    (reports : ∀ taken ∈ steps, taken.label.Reports (· = largest))
    (measures : ∀ taken ∈ steps, taken.label.Measures largest taken.before) :
    final.phy.nodes.Every (Node.Within config largest) ∧
      ∀ call ∈ final.phy.modemCalls, ∀ params, call.1.transmission = some params →
        announcedPower params ≤ config.txPower ∧ announcedMcs params ≤ largest := by
  have lawful : ∀ taken ∈ steps, taken.label.Lawful (fun mcsMax => mcsMax = 0 ∨ mcsMax = largest)
      (fun txPower mcs => -1 ≤ mcs ∧ txPower ≤ config.txPower ∧ mcs ≤ largest) taken.before := by
    intro taken member
    have reported := reports taken member
    have measured := measures taken member
    cases label : taken.label with
    | management position err capability =>
      rw [label] at reported
      exact Or.inr reported
    | pcc status header ret =>
      rw [label] at measured
      refine measured.imp_right ?_
      rintro ⟨power, snr⟩
      exact ⟨(wantedMcs_range _).1, (wantedTxPower_le_iff config _).mpr power,
        (wantedMcs_le_iff small _).mpr snr⟩
    | _ => trivial
  obtain ⟨_, from_⟩ := (records_of_run (fun mcsMax reported => limits_law config small reported)
    booted run (Or.inl rfl) lawful).1
  refine ⟨fun address node found => (from_.nodes address node found).2, ?_⟩
  intro call member params transmission
  obtain ⟨fit, chosen, carries⟩ := from_.calls call member params transmission
  obtain ⟨_, power, mcs⟩ := carries.reads
  have inTable := chosen.inTable
  constructor
  · obtain ⟨node, within, read⟩ := chosen.txPower
    rw [power, read]
    exact le_trans (Nat.mod_le _ _) within.2.1
  · rw [mcs (by omega)]
    rcases chosen.dfMcs with zero | ⟨node, ⟨low, within⟩, read⟩
    · omega
    · have bound := within.2
      rw [read] at inTable ⊢
      have index : (uint32 node.mcs : Int) = node.mcs :=
        uint32_index (by omega) (by omega) inTable
      omega

/-- A modem reports 2 as its largest MCS, a header of device 7 is received with a given
signal-to-noise ratio in quarter dB, and three bytes are sent to it. -/
def capableOfTwo (snr : Int) : List (Event projectConfig) :=
  [.direct .capabilityGet 0, .management 0 .success ⟨2, 4096⟩,
    .pcc ⟨1, 0, -100, snr⟩ (peerAck 7 5 0) 0, .direct (.tx (threeBytesFor 7)) 0]

/-- With 9 dB the records and the headers are within the limits. -/
theorem limits_of_run_nine :
    (∃ call ∈ ((capableOfTwo 36).foldl (Transition.follow step) device).phy.modemCalls,
      call.1.transmission.isSome = true) ∧
      ((capableOfTwo 36).foldl (Transition.follow step) device).phy.nodes.Every
        (Node.Within projectConfig 2) ∧
      ∀ call ∈ ((capableOfTwo 36).foldl (Transition.follow step) device).phy.modemCalls,
        ∀ params, call.1.transmission = some params →
          announcedPower params ≤ projectConfig.txPower ∧ announcedMcs params ≤ 2 := by
  have measures : ∀ event ∈ capableOfTwo 36, ∀ system, event.Measures 2 system := by
    simp only [capableOfTwo, List.forall_mem_cons]
    exact ⟨fun _ => trivial, fun _ => trivial, fun _ => Or.inr ⟨Or.inl rfl, Or.inr (by decide)⟩,
      fun _ => trivial, by simp⟩
  exact ⟨by decide +kernel, limits_of_run device_booted
    (Transition.followAll_run step device _ (by decide +kernel)) (by decide)
    (Transition.followAll_labels step device _ (by simp [capableOfTwo, Event.Reports]))
    fun taken member => Transition.followAll_labels step device _ measures taken member _⟩

/-- With 10 dB the optimization stores the MCS 3, and it is announced. -/
theorem limits_exceeded :
    ¬ ∀ (start final : System projectConfig) (largest : Nat)
        (steps : List (Transition.Step (System projectConfig) (Event projectConfig))),
      Booted start → Run start steps final → largest ≤ 4 →
        (∀ taken ∈ steps, taken.label.Reports (· = largest)) →
          final.phy.nodes.Every (Node.Within projectConfig largest) ∧
            ∀ call ∈ final.phy.modemCalls, ∀ params, call.1.transmission = some params →
              announcedPower params ≤ projectConfig.txPower ∧ announcedMcs params ≤ largest := by
  intro within
  have run := Transition.followAll_run step device (capableOfTwo 40) (by decide +kernel)
  have each := (within _ _ 2 _ device_booted run (by decide)
    (Transition.followAll_labels step device _ (by simp [capableOfTwo, Event.Reports]))).2
  have above : ∃ call ∈ ((capableOfTwo 40).foldl (Transition.follow step) device).phy.modemCalls,
      ∃ params ∈ call.1.transmission, 2 < announcedMcs params := by
    decide +kernel
  obtain ⟨call, member, params, transmission, more⟩ := above
  exact absurd (each call member params transmission).2 (Nat.not_le.mpr more)

/-- The limits are kept by an optimization exactly when the measurements ask for no more, or no
record is there and none can be created. -/
theorem optimize_within_iff {address received largest : Nat} {rssi2 snr : Int}
    {nodes after : NodeTable} {code : ErrorCode} (small : largest ≤ 4)
    (optimized : dectMacNodeOptimize config mcsMax address rssi2 snr received nodes =
      .ok (code, after)) :
    (∀ node, after.get address = some node → node.Within config largest) ↔
      nodes.LeavesOut address ∨
        (PowerWithin config (wantedDbm config rssi2 received) ∧ SnrWithin largest snr) := by
  rw [← optimize_missing_iff optimized]
  obtain ⟨present, _, rfl⟩ := optimize_cases optimized
  rw [get_tuned, if_pos rfl]
  cases present.get address with
  | none => exact iff_of_true (fun _ found => absurd found (by simp)) (Or.inl rfl)
  | some node =>
    rw [Option.map_some, ← wantedTxPower_le_iff, ← wantedMcs_le_iff small]
    constructor
    · intro within
      exact Or.inr (within _ rfl)
    · rintro (missing | within) record found
      · cases missing
      · rw [← Option.some.inj found]
        exact within

end DectHarq
