/-
This file settles which power and which MCS a reception gives to the record of a peer.

The path loss to the peer is the nominal power of the received code less the measured
level. Over a reciprocal path the peer receives at the target level plus the margin
when it is sent to with that loss on top. The code that is stored is the least one from
2 to 13 with this power, or 13 when none has it, so it follows the measurements in the
right direction; and so does the MCS, which depends on the signal-to-noise ratio alone.
-/

import DectHarq.NodeLimits
import Mathlib.Order.Bounds.Basic

namespace DectHarq

variable {config : Config}

/-! ### The measurements -/

/-- Conversion to `int32_t`. -/
def int32 (value : Int) : Int := Int.bmod value 4294967296

/-- A measurement of sixteen bits survives the conversion to an unsigned word and back. -/
theorem int32_uint32 {value : Int} (low : -32768 ≤ value) (high : value ≤ 32767) :
    int32 (uint32 value) = value := by
  have word : ((uint32 value : Nat) : Int) = value % 4294967296 :=
    Int.toNat_of_nonneg (Int.emod_nonneg value (by decide))
  unfold int32
  rw [word, Int.bmod_eq_emod]
  split <;> omega

/-- The measured level in dBm, as the callback converts it from half dBm. -/
def measuredDbm (status : PccStatus) : Int := int32 (uint32 (status.rssi2.tdiv 2))

/-- The measured signal-to-noise ratio in dB, as the callback converts it from quarter dB. -/
def measuredSnr (status : PccStatus) : Int := int32 (uint32 (status.snr.tdiv 4))

/-- The measurements of a reception have sixteen bits. -/
structure PccStatus.Measured (status : PccStatus) : Prop where
  rssi2 : -32768 ≤ status.rssi2 ∧ status.rssi2 ≤ 32767
  snr : -32768 ≤ status.snr ∧ status.snr ≤ 32767

/-- A quotient that is rounded toward zero stays within sixteen bits. -/
theorem tdiv_range {value divisor : Int} (low : -32768 ≤ value) (high : value ≤ 32767)
    (positive : 0 < divisor) : -32768 ≤ value.tdiv divisor ∧ value.tdiv divisor ≤ 32767 := by
  rcases Int.le_total 0 value with natural | negative
  · have least := Int.tdiv_nonneg natural positive.le
    have most := Int.tdiv_le_self divisor natural
    omega
  · have opposite : 0 ≤ -value := by omega
    have least := Int.tdiv_nonneg opposite positive.le
    have most := Int.tdiv_le_self divisor opposite
    rw [Int.neg_tdiv] at least most
    omega

theorem PccStatus.Measured.dbm {status : PccStatus} (measured : status.Measured) :
    measuredDbm status = status.rssi2.tdiv 2 := by
  obtain ⟨low, high⟩ := tdiv_range measured.rssi2.1 measured.rssi2.2 (by decide : (0 : Int) < 2)
  exact int32_uint32 low high

theorem PccStatus.Measured.decibel {status : PccStatus} (measured : status.Measured) :
    measuredSnr status = status.snr.tdiv 4 := by
  obtain ⟨low, high⟩ := tdiv_range measured.snr.1 measured.snr.2 (by decide : (0 : Int) < 4)
  exact int32_uint32 low high

/-! ### The choices -/

/-- A code that an optimization may store has enough power, or is the largest one. -/
def PowerSuffices (dbm : Int) (code : Nat) : Prop :=
  (2 ≤ code ∧ code ≤ 13 ∧ dbm ≤ receivedTxPowerDbm code) ∨ code = 13

/-- The chosen code is the least one that suffices. -/
theorem wantedTxPower_isLeast (dbm : Int) :
    IsLeast {code | PowerSuffices dbm code} (wantedTxPower dbm) := by
  have low := two_le_wantedTxPower dbm
  have high : wantedTxPower dbm ≤ 13 := wantedTxPower_le dbm
  constructor
  · by_cases full : wantedTxPower dbm = 13
    · exact Or.inr full
    · exact Or.inl ⟨low, high,
        (wantedTxPower_le_nominal dbm low (by omega)).mp le_rfl⟩
  · rintro code (⟨above, below, enough⟩ | rfl)
    · by_cases full : code = 13
      · rw [full]
        exact high
      · exact (wantedTxPower_le_nominal dbm above (by omega)).mpr enough
    · exact high

/-- More wanted power never lowers the chosen code. -/
theorem wantedTxPower_mono {less more : Int} (increases : less ≤ more) :
    wantedTxPower less ≤ wantedTxPower more := by
  refine (wantedTxPower_isLeast less).2 ?_
  rcases (wantedTxPower_isLeast more).1 with ⟨low, high, enough⟩ | full
  · exact Or.inl ⟨low, high, le_trans increases enough⟩
  · exact Or.inr full

/-- A better signal-to-noise ratio never lowers the chosen MCS. -/
theorem wantedMcs_mono {worse better : Int} (increases : worse ≤ better) :
    wantedMcs worse ≤ wantedMcs better := by
  unfold wantedMcs
  split_ifs <;> omega

/-! ### What a reception stores -/

/-- The nominal power that a header announces for its packet, in dBm. -/
def receivedDbm (header : PhyHeader) : Int :=
  receivedTxPowerDbm (Type1.transmitPower.get header)

/-- The power that reaches the peer at the target level plus the margin over a reciprocal path. -/
def requiredDbm (config : Config) (status : PccStatus) (header : PhyHeader) : Int :=
  receivedDbm header - measuredDbm status + config.rssiTarget + config.txPowerMarginDbm

/-- The callback optimized the record of the peer a header names, which it found or created. -/
structure Adapted (config : Config) (status : PccStatus) (header : PhyHeader) (node : Node) :
    Prop where
  measured : status.Measured
  optimized : ∃ before after, pccOptimize config status header before = .ok after ∧
    after.nodes.get (transmitterId header) = some node

/-- An optimized record has the chosen power and the chosen MCS. -/
theorem Adapted.stored {status : PccStatus} {header : PhyHeader} {node : Node}
    (adapted : Adapted config status header node) :
    node.txPower = wantedTxPower (requiredDbm config status header) ∧
      node.mcs = wantedMcs (measuredSnr status) := by
  obtain ⟨measured, before, after, optimized, found⟩ := adapted
  obtain ⟨⟨code, nodes⟩, ran, rest⟩ := bind_ok.mp optimized
  obtain rfl := ok_inj rest
  obtain ⟨present, _, tuned⟩ := optimize_cases ran
  have margin : int8 config.txPowerMarginDbm = config.txPowerMarginDbm :=
    int8_eq_self config.txPowerMarginDbm_range.1 (Int.lt_add_one_iff.mpr
      config.txPowerMarginDbm_range.2)
  have wanted : wantedDbm config (status.rssi2.tdiv 2) (Type1.transmitPower.get header) =
      requiredDbm config status header := by
    unfold wantedDbm requiredDbm receivedDbm
    rw [margin, measured.dbm]
    omega
  have stored : nodes.get (transmitterId header) = some node := found
  rw [tuned, show transmitterId header = Type1.transmitterIdHi.get header <<< 8 |||
    Type1.transmitterIdLo.get header from rfl, get_tuned, if_pos rfl, wanted] at stored
  obtain ⟨old, _, rfl⟩ := Option.map_eq_some_iff.mp stored
  rw [measured.decibel]
  exact ⟨rfl, rfl⟩

/-- Link adaptation is sufficient and minimal. The power stored for a peer is the least code from 2
to 13 whose nominal power is what the received power, the measured level, the target and the
margin require, or 13 if there is none, so over a reciprocal path the peer receives at the
target plus the margin whenever a code from 2 to 13 allows it. Between two receptions, a
higher received power at a level that is not higher never gives a lower code, and a higher
signal-to-noise ratio never gives a lower MCS. -/
theorem linkAdaptation {status other : PccStatus} {header otherHeader : PhyHeader}
    {node otherNode : Node} (adapted : Adapted config status header node)
    (otherAdapted : Adapted config other otherHeader otherNode) :
    IsLeast {code | (2 ≤ code ∧ code ≤ 13 ∧
        receivedDbm header - measuredDbm status + config.rssiTarget + config.txPowerMarginDbm ≤
          receivedTxPowerDbm code) ∨ code = 13} node.txPower ∧
      ((∃ code, 2 ≤ code ∧ code ≤ 13 ∧ config.rssiTarget + config.txPowerMarginDbm ≤
          receivedTxPowerDbm code - (receivedDbm header - measuredDbm status)) →
        config.rssiTarget + config.txPowerMarginDbm ≤
          receivedTxPowerDbm node.txPower - (receivedDbm header - measuredDbm status)) ∧
      (receivedDbm header ≤ receivedDbm otherHeader → measuredDbm other ≤ measuredDbm status →
        node.txPower ≤ otherNode.txPower) ∧
      (measuredSnr status ≤ measuredSnr other → node.mcs ≤ otherNode.mcs) := by
  obtain ⟨power, mcs⟩ := adapted.stored
  obtain ⟨otherPower, otherMcs⟩ := otherAdapted.stored
  have least := wantedTxPower_isLeast (requiredDbm config status header)
  rw [← power] at least
  have reaches (code : Nat) : config.rssiTarget + config.txPowerMarginDbm ≤
      receivedTxPowerDbm code - (receivedDbm header - measuredDbm status) ↔
      requiredDbm config status header ≤ receivedTxPowerDbm code := by
    unfold requiredDbm
    generalize measuredDbm status = level
    omega
  refine ⟨least, ?_, ?_, ?_⟩
  · rintro ⟨code, low, high, enough⟩
    -- the stored code is at most one that is enough, and has enough itself unless it is 13
    have minimal : node.txPower ≤ code := least.2 (Or.inl ⟨low, high, (reaches code).mp enough⟩)
    rw [reaches]
    rcases least.1 with ⟨_, _, sufficient⟩ | full
    · exact sufficient
    · obtain rfl : code = 13 := le_antisymm high (full ▸ minimal)
      rw [full]
      exact (reaches 13).mp enough
  · intro louder weaker
    rw [power, otherPower]
    refine wantedTxPower_mono ?_
    unfold requiredDbm
    generalize measuredDbm status = level at *
    generalize measuredDbm other = otherLevel at *
    omega
  · intro clearer
    rw [mcs, otherMcs]
    exact wantedMcs_mono clearer

/-- A reception of device 5 from device 7, which announces 19 dBm. -/
theorem adapted_device {status : PccStatus} {node : Node} (measured : status.Measured)
    (stored : ((pccOptimize projectConfig status (peerAck 7 5 0) device.phy).toOption.bind
      fun phy => phy.nodes.get (transmitterId (peerAck 7 5 0))) = some node) :
    Adapted projectConfig status (peerAck 7 5 0) node := by
  cases optimized : pccOptimize projectConfig status (peerAck 7 5 0) device.phy with
  | error stop =>
    rw [optimized] at stored
    cases stored
  | ok after =>
    rw [optimized] at stored
    exact ⟨measured, device.phy, after, optimized, stored⟩

/-- Measured at -50 dBm the peer is sent to with -16 dBm, and at -60 dBm with at least as much. -/
theorem linkAdaptation_device :
    Adapted projectConfig ⟨1, 0, -100, 40⟩ (peerAck 7 5 0) ⟨7, true, 3, 3⟩ ∧
      Adapted projectConfig ⟨1, 0, -120, 40⟩ (peerAck 7 5 0) ⟨7, true, 5, 3⟩ ∧ 3 ≤ 5 :=
  have near := adapted_device ⟨by decide, by decide⟩ (by decide +kernel)
  have far := adapted_device ⟨by decide, by decide⟩ (by decide +kernel)
  ⟨near, far, (linkAdaptation near far).2.2.1 le_rfl (by decide)⟩

end DectHarq
