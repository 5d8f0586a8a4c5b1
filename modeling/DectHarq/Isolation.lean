/-
This file settles what the two sides of HARQ do to each other's processes.

The receiver initializes the process a request names whether or not a local packet
occupies it, so a request spares the local transmissions exactly when the named process
is free or already blank. The sender acquires a process, a heap copy and a queue slot
in turn; a failure leaves the process table as it was exactly when it happens at the
first of the three, since the new-data bit is toggled with the process and the failed
put gives nothing back.
-/

import DectHarq.HarqEffects

namespace DectHarq

variable {config : Config}

/-! ### A received request -/

/-- Every process occupied by a local transmission keeps its fields and its flag. -/
def Isolated (before after : Harq config) : Prop :=
  ∀ index, before.occupied index = true →
    transmissionFields (after.processes index) = transmissionFields (before.processes index) ∧
      after.occupied index = true

/-- The fields that an initialization resets are already reset. -/
def Blank (process : HarqProcess) : Prop :=
  process.data = none ∧ process.dataLen = 0 ∧ process.receiverId = 0 ∧
    process.transmissionCount = 0 ∧ process.redundancyVersion = 0

instance (process : HarqProcess) : Decidable (Blank process) :=
  inferInstanceAs (Decidable (_ ∧ _))

/-- The process a request names is free, or occupied but blank. -/
def RequestSpares (header : PhyHeader) (harq : Harq config) : Prop :=
  ∀ index : Fin config.harqProcessCount, (index : Nat) = Type2.dfHarqProcessNr.get header →
    harq.occupied index = true → Blank (harq.processes index)

/-- A request blanks the fields of the process it names, keeps those of the others, and keeps
every occupied flag. -/
theorem requestProcess_spec {capabilities : Capabilities} {header : PhyHeader}
    {harq after : Harq config}
    (requested : requestProcess capabilities header harq = .ok after) :
    ∃ named : Fin config.harqProcessCount,
      (named : Nat) = Type2.dfHarqProcessNr.get header ∧
      transmissionFields (after.processes named) =
        (none, 0, 0, 0, 0, (harq.processes named).newDataIndication) ∧
      (∀ other, other ≠ named → transmissionFields (after.processes other) =
        transmissionFields (harq.processes other)) ∧
      after.occupied = harq.occupied := by
  obtain ⟨named, size, number, rfl⟩ := requestProcess_cases requested
  refine ⟨named, number, ?_, fun other distinct => ?_, rfl⟩
  · rw [modify_processes_self]
    rfl
  · rw [modify_processes_of_ne _ _ distinct]

/-- A request, in any state whatsoever, spares the local transmissions exactly when the process
it names is free or blank. -/
theorem harqRequest_isolated_iff {header : PhyHeader} {startTime : Nat} {ret : Int}
    {system after : System config} {code : ErrorCode}
    (handled : dectMacHarqRequest header startTime ret system = .ok (code, after)) :
    Isolated system.harq after.harq ↔ RequestSpares header system.harq := by
  obtain ⟨harq, _, _, _, requested, same, _⟩ := harqRequest_cases handled
  obtain ⟨named, number, blanked, others, flags⟩ := requestProcess_spec requested
  have processes : after.harq.processes = harq.processes := by rw [same]
  have occupied : after.harq.occupied = system.harq.occupied := by rw [same]; exact flags
  constructor
  · intro isolated index names busy
    have equal : index = named := Fin.ext (names.trans number.symm)
    subst equal
    have kept := (isolated index busy).1
    rw [processes, blanked] at kept
    simp only [transmissionFields, Prod.mk.injEq] at kept
    exact ⟨kept.1.symm, kept.2.1.symm, kept.2.2.1.symm, kept.2.2.2.1.symm, kept.2.2.2.2.1.symm⟩
  · intro spares index busy
    refine ⟨?_, by rw [occupied]; exact busy⟩
    rw [processes]
    by_cases equal : index = named
    · subst equal
      obtain ⟨data, dataLen, receiver, count, version⟩ := spares index number busy
      rw [blanked, transmissionFields, data, dataLen, receiver, count, version]
    · exact others index equal

/-- Requests spare the local transmissions exactly when the named process is free or blank: in
any state whatsoever, and at every step of every run of the program that receives one. -/
theorem request_isolated_iff (config : Config) :
    (∀ (system after : System config) (header : PhyHeader) (startTime : Nat) (ret : Int)
        (code : ErrorCode), dectMacHarqRequest header startTime ret system = .ok (code, after) →
      (Isolated system.harq after.harq ↔ RequestSpares header system.harq)) ∧
    ∀ (start final : System config) (steps), Booted start → Run start steps final →
      ∀ taken ∈ steps, ∀ status header ret, taken.label = .pcc status header ret →
        IsRequest config taken.before.phy.deviceId status header →
        (Isolated taken.before.harq taken.after.harq ↔
          RequestSpares header taken.before.harq) := by
  constructor
  · intro system after header startTime ret code handled
    exact harqRequest_isolated_iff handled
  · intro start final steps _ run taken member status header ret label request
    have received : dectMacPhyPccCb status header ret taken.before = .ok taken.after := by
      have stepped := run.taken taken member
      rw [Transition.stepOf, label] at stepped
      exact stepped
    obtain ⟨nodes, _, ⟨_, code, handled⟩ | ⟨notRequest, _⟩ | ⟨notRequest, _⟩⟩ :=
      pccCb_cases received
    · have spared := harqRequest_isolated_iff handled
      exact spared
    · exact absurd request notRequest
    · exact absurd request notRequest

/-! ### A failed transmit -/

/-- What a failed transmit must leave as it was in every process. -/
def Intact (before after : Harq config) : Prop :=
  ∀ index, after.occupied index = before.occupied index ∧
    (after.processes index).data = (before.processes index).data ∧
    (after.processes index).transmissionCount = (before.processes index).transmissionCount ∧
    (after.processes index).redundancyVersion = (before.processes index).redundancyVersion ∧
    (after.processes index).newDataIndication = (before.processes index).newDataIndication

/-- Giving a process back keeps its new-data indication. -/
theorem giveProcess_newDataIndication {capabilities : Capabilities}
    {index : Fin config.harqProcessCount} {harq after : Harq config}
    (initialized : harq.initialized = true)
    (given : dectMacHarqGiveProcess capabilities index harq = .ok after) :
    (after.processes index).newDataIndication = (harq.processes index).newDataIndication := by
  unfold dectMacHarqGiveProcess at given
  have ready : dectMacHarqInitialize capabilities harq = harq := if_pos initialized
  rw [ready] at given
  obtain ⟨slot, _, rest⟩ := bind_ok.mp given
  cases rest
  simp only [cancelWork, modify_processes_self]
  rfl

/-- A transmit with a failure leaves the processes as they were exactly when every process was
occupied before it. Otherwise, a failed heap copy leaves the new-data bit toggled, and a
failed put leaves the process occupied. -/
theorem transmit_intact_iff {params : HarqTransmitParams} {heap : Option Nat}
    {system after : System config} {code : ErrorCode}
    (initialized : system.harq.initialized = true)
    (returned : dectMacHarqTransmit params heap system = .ok (code, after)) :
    (code ≠ .ok → Intact system.harq after.harq) ↔
      ((∀ index, system.harq.occupied index = true) ∨
        (heap.isSome = true ∧ system.queue.itemSlab < queueMaxItems)) := by
  have ready : dectMacHarqInitialize system.phy.capabilities system.harq = system.harq :=
    if_pos initialized
  have notBusy : ∀ index, system.harq.occupied index = false →
      ¬ ∀ index, system.harq.occupied index = true := fun index free busy => by
    rw [busy index] at free
    cases free
  have cases_ := transmit_cases returned
  rw [ready] at cases_
  rcases cases_ with ⟨_, busy, rfl⟩ | ⟨index, given, rfl, rfl, free, same, rfl⟩ |
    ⟨index, address, queue, rfl, free, put, rfl⟩
  · exact ⟨fun _ => Or.inl busy, fun _ _ _ => ⟨rfl, rfl, rfl, rfl, rfl⟩⟩
  · have toggled : (given.processes index).newDataIndication =
        ((takenHarq index system.harq).processes index).newDataIndication :=
      giveProcess_newDataIndication initialized same
    refine ⟨fun intact => ?_, fun room => ?_⟩
    · have kept := (intact (by decide) index).2.2.2.2
      rw [toggled, takenHarq_processes_self] at kept
      exact absurd kept (Bool.not_ne_self _)
    · rcases room with busy | ⟨copied, _⟩
      · exact absurd busy (notBusy index free)
      · cases copied
  · rcases dectPhyQueuePut_cases put with ⟨rfl, full, _⟩ | ⟨rfl, room, _⟩
    · refine ⟨fun intact => ?_, fun room => ?_⟩
      · have kept := (intact (by decide) index).1
        rw [modify_occupied, takenHarq_occupied_self, free] at kept
        cases kept
      · rcases room with busy | ⟨_, room⟩
        · exact absurd busy (notBusy index free)
        · exact absurd room (Nat.not_lt_of_le full)
    · exact ⟨fun _ => Or.inr ⟨rfl, room⟩, fun _ failed => absurd rfl failed⟩

/-- A packet is in flight on process 0 when a peer uses its own process 0: the packet's data is
freed and its receiver forgotten. -/
theorem request_not_isolated :
    ¬ ∀ (config : Config) (system after : System config) (header : PhyHeader) (startTime : Nat)
        (ret : Int) (code : ErrorCode), (machine config).Reachable system →
      requestAddressed config system.phy.deviceId header = true →
      Type2.headerFormat.get header = headerFormat000 →
      dectMacHarqRequest header startTime ret system = .ok (code, after) →
      Isolated system.harq after.harq := by
  intro isolated
  obtain ⟨system, transmitted, flying⟩ :=
    Transition.exists_of_succeedsWith (step device (.transmit smallPacket (some 4096)))
      (fun system : System projectConfig => decide (system.phy.deviceId = 5 ∧
        system.harq.occupied (processZero projectConfig) = true ∧
        (system.harq.processes (processZero projectConfig)).receiverId = 7 ∧
        (dectMacHarqRequest (peerRequest 9 5 0) 0 0 system).isOk)) (by decide +kernel)
  obtain ⟨device5, occupied, receiver, answered⟩ := of_decide_eq_true flying
  have reachable : (machine projectConfig).Reachable system :=
    (Transition.Machine.Reachable.initial device_booted).run (Transition.Run.single transmitted)
  cases handled : dectMacHarqRequest (peerRequest 9 5 0) 0 0 system with
  | error stop => rw [handled] at answered; cases answered
  | ok result =>
    have spared := (harqRequest_isolated_iff handled).mp
      (isolated projectConfig system result.2 _ _ _ _ reachable
        (by rw [device5]; decide +kernel) (by decide +kernel) handled)
    have blank := spared (processZero projectConfig) (by decide +kernel) occupied
    exact absurd (receiver.symm.trans blank.2.2.1) (by decide)

/-- Device 5 with the HARQ module initialized. -/
def readyDevice : System projectConfig :=
  { device with harq := dectMacHarqInitialize ⟨0, 0⟩ device.harq }

/-- Three bytes are refused for lack of heap memory, and the new-data bit of process 0 is left
toggled: the next packet carries the bit of the packet before. -/
theorem failed_transmit_not_intact :
    ¬ ∀ (config : Config) (system after : System config) (params : HarqTransmitParams)
        (heap : Option Nat) (code : ErrorCode), system.harq.initialized = true →
      dectMacHarqTransmit params heap system = .ok (code, after) → code ≠ .ok →
      Intact system.harq after.harq := by
  intro intact
  obtain ⟨⟨code, after⟩, returned, toggled⟩ :=
    Transition.exists_of_succeedsWith (dectMacHarqTransmit smallPacket none readyDevice)
      (fun result : ErrorCode × System projectConfig => decide (result.1 ≠ .ok ∧
        (result.2.harq.processes (processZero projectConfig)).newDataIndication = false))
      (by decide +kernel)
  obtain ⟨failed, bit⟩ := of_decide_eq_true toggled
  have kept := intact projectConfig readyDevice after smallPacket none code (by decide) returned
    failed (processZero projectConfig)
  exact absurd (bit.symm.trans kept.2.2.2.2) (by decide +kernel)

/-- The device with all processes occupied. -/
def busyDevice : System projectConfig :=
  { readyDevice with harq := { readyDevice.harq with occupied := fun _ => true } }

/-- A transmit that finds every process occupied fails, and leaves them as they were. -/
theorem transmit_intact_iff_smallPacket :
    ∃ after, dectMacHarqTransmit smallPacket (some 4096) busyDevice = .ok (.noFreeHarq, after) ∧
      Intact busyDevice.harq after.harq := by
  obtain ⟨⟨code, after⟩, returned, refused⟩ :=
    Transition.exists_of_succeedsWith (dectMacHarqTransmit smallPacket (some 4096) busyDevice)
      (fun result => decide (result.1 = .noFreeHarq)) (by decide +kernel)
  obtain rfl : code = .noFreeHarq := of_decide_eq_true refused
  exact ⟨after, returned,
    (transmit_intact_iff (by decide) returned).mpr (Or.inl fun _ => rfl) (by decide)⟩

end DectHarq
