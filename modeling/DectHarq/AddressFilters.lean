/-
This file settles which headers for other devices the callback ignores.

A header is for others when it is of another network, or names a receiver that is
neither the device nor all devices. The filter of the requests drops every such header.
The filter of the responses compares the high byte of the receiver with 0xff twice and
the low byte never: a feedback to any receiver whose id starts with 0xff passes, and is
applied to a process of the device.
-/

import DectHarq.CrossTalk
import DectHarq.Handshake

namespace DectHarq

variable {config : Config}

/-! ### Receivers -/

/-- `receiver_id_hi << 8 | receiver_id_lo`. -/
def receiverId (header : PhyHeader) : Nat :=
  Type2.receiverIdHi.get header <<< 8 ||| Type2.receiverIdLo.get header

/-- The id that names all devices. -/
def broadcastId : Nat := 0xffff

/-- A header is for others: its network is not that of the device, or its receiver is neither the
device nor all devices. -/
def ForOthers (config : Config) (deviceId : Nat) (header : PhyHeader) : Prop :=
  Type2.shortNetworkId.get header ≠ config.networkId &&& 0xff ∨
    (receiverId header ≠ deviceId ∧ receiverId header ≠ broadcastId)

instance (deviceId : Nat) (header : PhyHeader) : Decidable (ForOthers config deviceId header) :=
  inferInstanceAs (Decidable (_ ∨ _))

/-- A header is ignored in a state: the callback changes the node table and nothing else. -/
def Ignored (status : PccStatus) (header : PhyHeader) (ret : Int) (system : System config) :
    Prop :=
  ∀ nodes, pccOptimize config status header system.phy = .ok { system.phy with nodes := nodes } →
    dectMacPhyPccCb status header ret system = .ok (system.setNodes nodes)

/-- The two bytes of a receiver are those of an id exactly when the receiver is the id. -/
theorem receiverId_eq_iff (header : PhyHeader) (id : Nat) :
    receiverId header = id ↔
      Type2.receiverIdHi.get header = id >>> 8 ∧ Type2.receiverIdLo.get header = id &&& 0xff := by
  have high : Type2.receiverIdHi.get header < 2 ^ 8 := BitField.get_lt _ header
  have low : Type2.receiverIdLo.get header < 2 ^ 8 := BitField.get_lt _ header
  unfold receiverId
  rw [← Nat.shiftLeft_add_eq_or_of_lt low, Nat.shiftLeft_eq, Nat.shiftRight_eq_div_pow,
    show (0xff : Nat) = 2 ^ 8 - 1 from rfl, Nat.and_two_pow_sub_one_eq_mod]
  omega

/-- The filter of the requests drops every header that is for others. -/
theorem requestAddressed_iff (config : Config) (deviceId : Nat) (header : PhyHeader) :
    requestAddressed config deviceId header = true ↔ ¬ ForOthers config deviceId header := by
  unfold requestAddressed ForOthers
  rw [decide_eq_true_iff, ← receiverId_eq_iff,
    show (Type2.receiverIdHi.get header = 0xff ∧ Type2.receiverIdLo.get header = 0xff) ↔
      receiverId header = broadcastId from (receiverId_eq_iff header broadcastId).symm]
  tauto

/-- Among the headers that are for others, the filter of the responses passes those of the network
whose receiver starts with 0xff. -/
theorem responseAddressed_iff {deviceId : Nat} {header : PhyHeader}
    (others : ForOthers config deviceId header) :
    responseAddressed config deviceId header = true ↔
      Type2.shortNetworkId.get header = config.networkId &&& 0xff ∧
        Type2.receiverIdHi.get header = 0xff := by
  unfold responseAddressed
  rw [decide_eq_true_iff, ← receiverId_eq_iff, and_self]
  unfold ForOthers at others
  tauto

/-! ### Ignored headers -/

/-- A header that is neither a request nor a response for the device is ignored. -/
theorem ignored_of_dropped {status : PccStatus} {header : PhyHeader} {system : System config}
    (notRequest : ¬ IsRequest config system.phy.deviceId status header)
    (notResponse : ¬ IsResponse config system.phy.deviceId status header) (ret : Int) :
    Ignored status header ret system := by
  intro nodes optimized
  unfold dectMacPhyPccCb
  rw [optimized, ok_bind]
  dsimp only
  by_cases type2 : status.phyType = headerType2
  · rw [if_pos type2]
    by_cases format000 : Type2.headerFormat.get header = headerFormat000
    · have dropped : ¬ requestAddressed config system.phy.deviceId header = true :=
        fun addressed => notRequest ⟨type2, format000, addressed⟩
      rw [if_pos format000, if_neg dropped]
      rfl
    · rw [if_neg format000]
      by_cases format001 : Type2.headerFormat.get header = headerFormat001
      · rw [if_pos format001]
        by_cases addressed : responseAddressed config system.phy.deviceId header = true
        · have notFeedback : ¬ (Type2.feedbackFormat.get header = feedbackFormat1 ∨
              Type2.feedbackFormat.get header = feedbackFormat6) :=
            fun feedback => notResponse ⟨type2, format001, addressed, feedback⟩
          rw [if_pos addressed, if_neg notFeedback]
          rfl
        · rw [if_neg addressed]
          rfl
      · rw [if_neg format001]
        rfl
  · rw [if_neg type2]
    rfl

/-- A header that passes the filter of the responses by its high byte only. -/
def Misdirected (config : Config) (header : PhyHeader) : Prop :=
  Type2.headerFormat.get header = headerFormat001 ∧
    Type2.shortNetworkId.get header = config.networkId &&& 0xff ∧
    Type2.receiverIdHi.get header = 0xff ∧
    (Type2.feedbackFormat.get header = feedbackFormat1 ∨
      Type2.feedbackFormat.get header = feedbackFormat6)

instance (header : PhyHeader) : Decidable (Misdirected config header) :=
  inferInstanceAs (Decidable (_ ∧ _))

/-- A device whose processes all have the redundancy version 1. -/
def versionedDevice (config : Config) (deviceId : Nat) : System config :=
  { boot config deviceId fun _ => .inserted with
    harq := { Harq.boot config with
      initialized := true
      processes := fun index =>
        { HarqProcess.zero with processNumber := index, redundancyVersion := 1 } } }

/-- Every response changes the redundancy version 1 of the process it names. -/
theorem response_changes {capabilities : Capabilities} {header : PhyHeader} {deviceId : Nat}
    (feedback : Type2.feedbackFormat.get header = feedbackFormat1 ∨
      Type2.feedbackFormat.get header = feedbackFormat6) :
    dectMacHarqResponse capabilities header (versionedDevice config deviceId).harq ≠
      .ok (versionedDevice config deviceId).harq := by
  intro handled
  have changes {harq : Harq config} (index : Fin config.harqProcessCount)
      (zero : (harq.processes index).redundancyVersion = 0) :
      (versionedDevice config deviceId).harq ≠ harq := by
    intro same
    rw [← same] at zero
    cases zero
  rcases response_cases handled with ⟨notFormat1, notFormat6, _⟩ | ⟨index, found, outcome⟩
  · exact absurd feedback (not_or.mpr ⟨notFormat1, notFormat6⟩)
  · rcases outcome with ⟨_, _, given⟩ | ⟨_, _, nacked⟩ | ⟨_, restarted⟩
    · have numbered : ((dectMacHarqInitialize capabilities (cancelWork index
          (versionedDevice config deviceId).harq)).processes index).processNumber =
            (index : Nat) := by
        rw [initialize_of_initialized rfl, cancelWork, modify_processes_self]
        rfl
      refine changes index ?_ (giveProcess_eq numbered given)
      rw [givenHarq_processes_self]
      rfl
    · refine changes index ?_ nacked
      rw [scheduleWork_reading HarqProcess.redundancyVersion (fun _ => rfl), modify_processes_self]
      rfl
    · refine changes index ?_ restarted
      rw [scheduleWork_reading HarqProcess.redundancyVersion (fun _ => rfl), modify_processes_self]
      rfl

/-- The callback ignores a header that is for others in every state of the processes, the queue and
the nodes exactly when the header is not misdirected. -/
theorem ignored_iff {status : PccStatus} {header : PhyHeader} {deviceId : Nat}
    (type2 : status.phyType = headerType2) (others : ForOthers config deviceId header) :
    (∀ (ret : Int) (system : System config), system.phy.deviceId = deviceId →
        Ignored status header ret system) ↔ ¬ Misdirected config header := by
  have notRequest : ¬ IsRequest config deviceId status header :=
    fun request => (requestAddressed_iff config deviceId header).mp request.2.2 others
  have response : IsResponse config deviceId status header ↔ Misdirected config header := by
    unfold IsResponse Misdirected
    rw [responseAddressed_iff others]
    tauto
  constructor
  · intro ignored misdirected
    obtain ⟨nodes, optimized⟩ := pccOptimize_returns config status header
      (versionedDevice config deviceId).phy (Or.inr fun _ inserted => by cases inserted)
    have handled := ignored 0 (versionedDevice config deviceId) rfl nodes optimized
    obtain ⟨_, _, ⟨request, _⟩ | ⟨_, _, harq, responded, same⟩ | ⟨_, dropped, _⟩⟩ :=
      pccCb_cases handled
    · exact notRequest request
    · have kept : (versionedDevice config deviceId).harq = harq :=
        congrArg System.harq same
      rw [← kept] at responded
      exact response_changes misdirected.2.2.2 responded
    · exact dropped (response.mpr misdirected)
  · rintro notMisdirected ret system rfl
    exact ignored_of_dropped notRequest (fun passed => notMisdirected (response.mp passed)) ret

/-- Device 5 after it sent a packet to device 7 on process 0. -/
def sentToPeer : System projectConfig :=
  Transition.follow step device (.transmit smallPacket (some 4096))

/-- Device 5 ignores the ACK of device 9 to device 6 while its own packet waits for one. -/
theorem ignored_iff_otherReceiver : Ignored ⟨1, 0, -100, 40⟩ (peerAck 9 6 0) 0 sentToPeer :=
  (ignored_iff rfl (show ForOthers projectConfig 5 (peerAck 9 6 0) by decide +kernel)).mpr
    (by decide +kernel) 0 sentToPeer (by decide +kernel)

/-- The ACK of device 7 to device 0xff06 frees the process of device 5 whose packet went to device
7. -/
theorem misdirected_acted :
    ¬ ∀ (status : PccStatus) (header : PhyHeader) (ret : Int) (system : System projectConfig),
      status.phyType = headerType2 → ForOthers projectConfig system.phy.deviceId header →
        Ignored status header ret system := by
  intro ignored
  have occupied : sentToPeer.harq.occupied (processZero projectConfig) = true := by decide +kernel
  obtain ⟨after, handled, freed⟩ := Transition.exists_of_succeedsWith
    (dectMacPhyPccCb ⟨1, 0, -100, 40⟩ (peerAck 7 0xff06 0) 0 sentToPeer)
    (fun after => !after.harq.occupied (processZero projectConfig)) (by decide +kernel)
  obtain ⟨nodes, optimized, _⟩ := pccCb_cases handled
  rw [ignored _ _ 0 sentToPeer rfl (by decide +kernel) nodes optimized] at handled
  cases handled
  rw [show (sentToPeer.setNodes nodes).harq = sentToPeer.harq from rfl, occupied] at freed
  cases freed

end DectHarq
