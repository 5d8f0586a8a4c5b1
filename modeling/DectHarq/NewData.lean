/-
This file settles when the new-data bit tells two packets of a process apart.

The bit is one toggle per process, flipped at every take whatever the receiver, and
flipped also by a transmit that takes the process and then fails. Between two takes
nothing changes it, so all transmissions of one packet carry one bit. Two packets sent
to the same receiver therefore carry different bits exactly when the process was taken
an even number of times in between.
-/

import DectHarq.Pipeline

namespace DectHarq

variable {config : Config}

/-! ### Takes -/

/-- A move that takes a process, whether or not the transmit succeeds. -/
def HarqMove.takes (index : Fin config.harqProcessCount) : HarqMove config → Bool
  | .dropped taken => taken = index
  | .sent taken _ _ => taken = index
  | _ => false

/-- A step in which `dect_mac_harq_take_process` returns a process. -/
def takesProcess (index : Fin config.harqProcessCount)
    (taken : Transition.Step (System config) (Event config)) : Bool :=
  match taken.label with
  | .transmit _ _ =>
    (dectMacHarqTakeProcess taken.before.phy.capabilities taken.before.harq).1 = some index
  | _ => false

theorem takes_transmitMove (index : Fin config.harqProcessCount) (params : HarqTransmitParams)
    (heap : Option Nat) (system : System config) :
    (transmitMove params heap system).takes index =
      decide ((dectMacHarqTakeProcess system.phy.capabilities system.harq).1 = some index) := by
  unfold transmitMove
  cases (dectMacHarqTakeProcess system.phy.capabilities system.harq).1 with
  | none => simp [HarqMove.takes]
  | some process => cases heap <;> simp [HarqMove.takes]

/-- The takes of a step are those of its move. -/
theorem takesProcess_eq (index : Fin config.harqProcessCount)
    (taken : Transition.Step (System config) (Event config)) :
    takesProcess index taken = (harqMove taken.before taken.label).takes index := by
  obtain ⟨before, event, after⟩ := taken
  cases event with
  | transmit params heap => exact (takes_transmitMove index params heap before).symm
  | workExpired process =>
    show false = (workMove process before).takes index
    unfold workMove
    split <;> rfl
  | opComplete position err =>
    show false = (harqMove before (.opComplete position err)).takes index
    unfold harqMove completionMove
    dsimp only
    repeat' split
    all_goals rfl
  | pcc status header ret =>
    show false = (headerMove status header before).takes index
    unfold headerMove feedbackMove
    repeat' split
    all_goals rfl
  | _ => rfl

theorem scheduleWork_packets (index : Fin config.harqProcessCount) (harq : Harq config) :
    (scheduleWork index harq).packets = harq.packets := by
  unfold scheduleWork
  split <;> rfl

/-- What a move does to the bit of a process in an initialized table: a take numbers the packet
and toggles the bit, any other move keeps both. -/
theorem HarqStep.newDataIndication {before after : Harq config} {move : HarqMove config}
    (step : HarqStep before move after) (initialized : before.initialized = true)
    (index : Fin config.harqProcessCount) :
    after.initialized = true ∧ before.packets ≤ after.packets ∧
      (move.takes index = true → before.packets < after.packets) ∧
      ((after.processes index).newDataIndication, (after.processes index).packet) =
        if move.takes index then
          (!(before.processes index).newDataIndication, before.packets)
        else ((before.processes index).newDataIndication, (before.processes index).packet) := by
  have quiet (harq : Harq config) (other : Fin config.harqProcessCount)
      (change : HarqProcess → HarqProcess)
      (kept : ∀ process, ((change process).newDataIndication, (change process).packet) =
        (process.newDataIndication, process.packet)) :
      (((harq.modify other change).processes index).newDataIndication,
          ((harq.modify other change).processes index).packet) =
        ((harq.processes index).newDataIndication, (harq.processes index).packet) :=
    modify_reading (fun process => (process.newDataIndication, process.packet)) harq other index
      change (kept _)
  have scheduled (other : Fin config.harqProcessCount) (harq : Harq config) :
      (((scheduleWork other harq).processes index).newDataIndication,
          ((scheduleWork other harq).processes index).packet) =
        ((harq.processes index).newDataIndication, (harq.processes index).packet) :=
    scheduleWork_reading (fun process => (process.newDataIndication, process.packet))
      (fun _ => rfl) other index harq
  have taking (process : Fin config.harqProcessCount) (harq : Harq config) :
      (((takenHarq process harq).processes index).newDataIndication,
          ((takenHarq process harq).processes index).packet) =
        if decide (process = index) then
          (!(harq.processes index).newDataIndication, harq.packets)
        else ((harq.processes index).newDataIndication, (harq.processes index).packet) := by
    by_cases same : process = index
    · subst same
      rw [takenHarq_processes_self]
      simp [takenProcess]
    · rw [takenHarq_processes_of_ne _ (Ne.symm same)]
      simp [same]
  have none {packets : Nat} (untaken : move.takes index = false) :
      move.takes index = true → before.packets < packets := fun takes => by
    rw [untaken] at takes
    cases takes
  cases step with
  | idle => exact ⟨initialized, le_rfl, none rfl, rfl⟩
  | refused capabilities =>
    rw [initialize_of_initialized initialized]
    exact ⟨initialized, le_rfl, none rfl, rfl⟩
  | dropped capabilities process =>
    rw [initialize_of_initialized initialized]
    exact ⟨initialized, Nat.le_succ _, fun _ => Nat.lt_succ_self _,
      (quiet _ process (givenProcess config capabilities) fun _ => rfl).trans
        (taking process before)⟩
  | sent capabilities process params address =>
    rw [initialize_of_initialized initialized]
    exact ⟨initialized, Nat.le_succ _, fun _ => Nat.lt_succ_self _,
      (quiet _ process (filledProcess params address) fun _ => rfl).trans (taking process before)⟩
  | acked capabilities process =>
    rw [initialize_of_initialized initialized]
    exact ⟨initialized, le_rfl, none rfl, quiet _ process (givenProcess config capabilities)
      fun _ => rfl⟩
  | nacked process =>
    refine ⟨by simpa using initialized, le_of_eq ?_, none rfl,
      (scheduled process _).trans (quiet _ process nackedProcess fun _ => rfl)⟩
    rw [scheduleWork_packets]
    rfl
  | formatSix process =>
    refine ⟨by simpa using initialized, le_of_eq ?_, none rfl,
      (scheduled process _).trans (quiet _ process restartedProcess fun _ => rfl)⟩
    rw [scheduleWork_packets]
    rfl
  | completed process =>
    refine ⟨by simpa using initialized, le_of_eq ?_, none rfl, scheduled process _⟩
    rw [scheduleWork_packets]
  | retransmitted process =>
    exact ⟨initialized, le_rfl, none rfl, quiet _ process countedProcess fun _ => rfl⟩
  | expired capabilities process =>
    rw [initialize_of_initialized initialized]
    exact ⟨initialized, le_rfl, none rfl, quiet _ process (givenProcess config capabilities)
      fun _ => rfl⟩
  | requested capabilities processed header handled =>
    obtain ⟨named, size, _, rfl⟩ := requestProcess_cases handled
    exact ⟨initialized, le_rfl, none rfl, quiet _ named (requestedProcess named size)
      fun _ => rfl⟩

/-! ### The bit of a packet -/

/-- The operations of packets that the put function was called with between two states. -/
def callsSince (earlier later : System config) : List QueueItem :=
  (packetCalls later.queue).drop (packetCalls earlier.queue).length

/-- An operation carries a value of the new-data bit. -/
def QueueItem.Carries (item : QueueItem) (bit : Nat) : Prop :=
  ∃ sent, item.operation = .txRx sent ∧ sent.harq.newDataIndication = bit

/-- An operation queued since a transmit for the packet that it sent on a process. -/
def OfPacket (index : Fin config.harqProcessCount)
    (sent : Transition.Step (System config) (Event config)) (later : System config)
    (item : QueueItem) : Prop :=
  item ∈ callsSince sent.before later ∧
    item.provenance = .packet index sent.before.harq.packets

/-- The value of the bit in the operations of a process. -/
def bitValue (bit : Bool) : Nat := bit.toNat % 2 ^ 1

theorem bitValue_inj {first second : Bool} : bitValue first = bitValue second ↔ first = second := by
  revert first second
  decide

theorem harqItem_carries (index : Fin config.harqProcessCount) (process : HarqProcess)
    (startTime : Nat) (priority : UInt32) :
    (harqItem config index process startTime priority).Carries
      (bitValue process.newDataIndication) :=
  ⟨_, rfl, rfl⟩

theorem QueueItem.Carries.unique {item : QueueItem} {first second : Nat}
    (one : item.Carries first) (two : item.Carries second) : first = second := by
  obtain ⟨sent, operation, rfl⟩ := one
  obtain ⟨other, same, rfl⟩ := two
  rw [operation] at same
  cases same
  rfl

/-- The books of the bit of a packet, kept from the transmit that sends it on. -/
structure KeepsBit (index : Fin config.harqProcessCount) (origin : System config) (bit : Bool)
    (system : System config) : Prop where
  initialized : system.harq.initialized = true
  later : origin.harq.packets < system.harq.packets
  grown : packetCalls origin.queue <+: packetCalls system.queue
  current : (system.harq.processes index).packet = origin.harq.packets →
    (system.harq.processes index).newDataIndication = bit
  carried : ∀ item ∈ callsSince origin system,
    item.provenance = .packet index origin.harq.packets → item.Carries (bitValue bit)

/-- Every action keeps the books: a take gives the process another packet, and an operation that
is queued for the packet is formed while the process still has its bit. -/
theorem KeepsBit.step {index : Fin config.harqProcessCount} {origin system after : System config}
    {bit : Bool} {event : Event config} (keeps : KeepsBit index origin bit system)
    (sound : system.harq.Sound) (action : Action system event after) :
    KeepsBit index origin bit after := by
  obtain ⟨moved, calls⟩ := action.move sound
  obtain ⟨initialized, grew, took, process⟩ := moved.newDataIndication keeps.initialized index
  have current : (after.harq.processes index).packet = origin.harq.packets →
      (after.harq.processes index).newDataIndication = bit := by
    intro same
    split at process
    · have number := congrArg Prod.snd process
      dsimp only at number
      rw [same] at number
      exact absurd number (Nat.ne_of_lt keeps.later)
    · exact (congrArg Prod.fst process).trans
        (keeps.current ((congrArg Prod.snd process).symm.trans same))
  refine ⟨initialized, lt_of_lt_of_le keeps.later grew, ?_, current, ?_⟩
  · rw [calls]
    exact keeps.grown.trans (List.prefix_append _ _)
  · intro item member provenance
    rw [callsSince, calls, List.drop_append_of_le_length keeps.grown.length_le] at member
    rcases List.mem_append.mp member with old | new
    · exact keeps.carried item old provenance
    · obtain ⟨other, startTime, priority, rfl, _⟩ :=
        attempt_harqItem (Option.mem_toList.mp new)
      injection provenance with sameProcess samePacket
      have same : other = index := Fin.ext sameProcess
      subst same
      rw [← current samePacket]
      exact harqItem_carries _ _ _ _

/-! ### Transmits -/

/-- A successful call of `dect_mac_harq_transmit` that sends a packet to a receiver on a
process. -/
structure Sends (index : Fin config.harqProcessCount) (receiver : Nat)
    (taken : Transition.Step (System config) (Event config)) : Prop where
  takes : takesProcess index taken = true
  call : ∃ params heap, taken.label = .transmit params heap ∧ params.receiverId = receiver ∧
    dectMacHarqTransmit params heap taken.before = .ok (.ok, taken.after)

theorem initialize_packets (capabilities : Capabilities) (harq : Harq config) :
    (dectMacHarqInitialize capabilities harq).packets = harq.packets := by
  unfold dectMacHarqInitialize
  split <;> rfl

/-- What a successful transmit does: it fills the process it took and queues one operation. -/
theorem Sends.cases {index : Fin config.harqProcessCount} {receiver : Nat}
    {sent : Transition.Step (System config) (Event config)} (sends : Sends index receiver sent) :
    ∃ params address startTime queue,
      sent.after.harq = (takenHarq index (dectMacHarqInitialize sent.before.phy.capabilities
        sent.before.harq)).modify index (filledProcess params address) ∧
      sent.after.queue = queue ∧
      dectPhyQueuePut (harqItem config index (sent.after.harq.processes index) startTime
        priorityHigh) sent.before.queue = .ok (.ok, queue) := by
  obtain ⟨takes, params, heap, label, -, returned⟩ := sends
  obtain ⟨before, event, after⟩ := sent
  dsimp only at label returned ⊢
  subst label
  rcases takeProcess_cases before.phy.capabilities before.harq with
    ⟨_, took⟩ | ⟨process, _, took⟩
  · simp [takesProcess, took] at takes
  · have same : process = index := by simpa [takesProcess, took] using takes
    subst same
    unfold dectMacHarqTransmit at returned
    rw [took] at returned
    cases heap with
    | none =>
      obtain ⟨given, _, rest⟩ := bind_ok.mp returned
      cases rest
    | some address =>
      obtain ⟨⟨code, queue⟩, put, rest⟩ := bind_ok.mp returned
      cases rest
      exact ⟨params, address, params.startTime, queue, rfl, rfl, put⟩

/-- The operation that a successful transmit queues is of its packet, and the books of its bit
start there. -/
theorem Sends.starts {index : Fin config.harqProcessCount} {receiver : Nat}
    {sent : Transition.Step (System config) (Event config)} (sends : Sends index receiver sent) :
    KeepsBit index sent.before (sent.after.harq.processes index).newDataIndication sent.after ∧
      ∃ item, OfPacket index sent sent.after item := by
  obtain ⟨params, address, startTime, queue, harq, stored, put⟩ := sends.cases
  have packet : (sent.after.harq.processes index).packet = sent.before.harq.packets := by
    rw [harq, modify_processes_self, takenHarq_processes_self]
    exact initialize_packets _ _
  have calls : packetCalls sent.after.queue = packetCalls sent.before.queue ++
      [harqItem config index (sent.after.harq.processes index) startTime priorityHigh] := by
    rw [stored, packetCalls_put put]
    rfl
  have since : callsSince sent.before sent.after =
      [harqItem config index (sent.after.harq.processes index) startTime priorityHigh] := by
    rw [callsSince, calls, List.drop_left]
  refine ⟨⟨?_, ?_, ?_, fun _ => rfl, fun item member _ => ?_⟩,
    harqItem config index (sent.after.harq.processes index) startTime priorityHigh, ?_, ?_⟩
  · rw [harq]
    exact initialize_initialized _ _
  · rw [harq]
    show _ < (dectMacHarqInitialize _ _).packets + 1
    rw [initialize_packets]
    exact Nat.lt_succ_self _
  · rw [calls]
    exact List.prefix_append _ _
  · rw [since] at member
    rw [List.mem_singleton.mp member]
    exact harqItem_carries _ _ _ _
  · rw [since]
    exact List.mem_singleton_self _
  · rw [← packet]
    rfl

/-- Two packets differ in the bit: no operation of one carries what an operation of the other
does. -/
def Distinguished (index : Fin config.harqProcessCount)
    (first second : Transition.Step (System config) (Event config)) (final : System config) :
    Prop :=
  ∀ one two oneBit twoBit, OfPacket index first final one → OfPacket index second final two →
    one.Carries oneBit → two.Carries twoBit → oneBit ≠ twoBit

/-- An operation of a packet stays one. -/
theorem OfPacket.later {index : Fin config.harqProcessCount}
    {sent : Transition.Step (System config) (Event config)} {system after : System config}
    {event : Event config} {item : QueueItem} (ofPacket : OfPacket index sent system item)
    (grown : packetCalls sent.before.queue <+: packetCalls system.queue)
    (sound : system.harq.Sound) (action : Action system event after) :
    OfPacket index sent after item := by
  refine ⟨?_, ofPacket.2⟩
  rw [callsSince, (action.move sound).2, List.drop_append_of_le_length grown.length_le]
  exact List.mem_append_left _ ofPacket.1

/-- From the transmit of a packet on, the books of its bit are kept, and the operation that the
transmit queued stays. -/
theorem Sends.keeps {start final : System config}
    {before rest : List (Transition.Step (System config) (Event config))}
    {sent : Transition.Step (System config) (Event config)} (booted : Booted start)
    {index : Fin config.harqProcessCount} {receiver : Nat} (sends : Sends index receiver sent)
    (run : Run start (before ++ sent :: rest) final) :
    KeepsBit index sent.before (sent.after.harq.processes index).newDataIndication final ∧
      (∃ item, OfPacket index sent final item) ∧
      ∀ taken ∈ rest, taken.before.harq.initialized = true := by
  obtain ⟨earlier, stepped, later⟩ := run.split_at rfl
  obtain ⟨keepsSent, item, ofPacket⟩ := sends.starts
  have sound : sent.after.harq.Sound := by
    obtain ⟨soundBefore, action⟩ := actions_of_run booted run sent
      (List.mem_append_right _ List.mem_cons_self)
    exact (action.move soundBefore).1.sound soundBefore
  have kept : ∀ (system : System config) (event : Event config) (after : System config), True →
      (system.harq.Sound ∧ OfPacket index sent system item ∧ KeepsBit index sent.before
        (sent.after.harq.processes index).newDataIndication system) →
      Transition.stepOf step system event after →
      after.harq.Sound ∧ OfPacket index sent after item ∧ KeepsBit index sent.before
        (sent.after.harq.processes index).newDataIndication after := by
    rintro system event after - ⟨sound, ofPacket, keeps⟩ stepped
    have action := action_of_step sound stepped
    exact ⟨(action.move sound).1.sound sound, ofPacket.later keeps.grown sound action,
      keeps.step sound action⟩
  have base := And.intro sound (And.intro ofPacket keepsSent)
  have ends := later.invariant _ (fun _ _ => True) kept (fun _ _ => trivial) base
  have passes := later.invariant_before _ (fun _ _ => True) kept (fun _ _ => trivial) base
  exact ⟨ends.2.2, ⟨item, ends.2.1⟩, fun taken member => (passes taken member).2.2.initialized⟩

/-- Two packets sent to the same receiver on the same process, in any run from boot, differ in
the new-data bit of all their transmissions exactly when the process was taken an even number
of times between the two transmits. -/
theorem newData_differs_iff {start final : System config}
    {before between after : List (Transition.Step (System config) (Event config))}
    {first second : Transition.Step (System config) (Event config)} (booted : Booted start)
    (run : Run start (before ++ first :: (between ++ second :: after)) final)
    {index : Fin config.harqProcessCount} {receiver : Nat}
    (one : Sends index receiver first) (two : Sends index receiver second) :
    Distinguished index first second final ↔ Even (between.countP (takesProcess index)) := by
  obtain ⟨keepsOne, ⟨itemOne, ofOne⟩, initialized⟩ := one.keeps booted run
  have run' := run
  rw [← List.cons_append, ← List.append_assoc] at run'
  obtain ⟨keepsTwo, ⟨itemTwo, ofTwo⟩, -⟩ := two.keeps booted run'
  have actions := actions_of_run booted run
  have toggles : ∀ taken ∈ between ++ second :: after,
      (taken.after.harq.processes index).newDataIndication =
        if takesProcess index taken then !(taken.before.harq.processes index).newDataIndication
        else (taken.before.harq.processes index).newDataIndication := by
    intro taken member
    obtain ⟨sound, action⟩ := actions taken
      (List.mem_append_right _ (List.mem_cons_of_mem _ member))
    have process := ((action.move sound).1.newDataIndication (initialized taken member) index).2.2.2
    rw [← takesProcess_eq] at process
    split at process <;> rename_i takes
    · rw [if_pos takes]
      exact congrArg Prod.fst process
    · rw [if_neg takes]
      exact congrArg Prod.fst process
  obtain ⟨-, -, later⟩ := run.split_at rfl
  obtain ⟨middle, -, -⟩ := later.split_at rfl
  have parity := middle.parity (fun system => (system.harq.processes index).newDataIndication)
    (takesProcess index) fun taken member => toggles taken (List.mem_append_left _ member)
  have flipped := toggles second (List.mem_append_right _ List.mem_cons_self)
  rw [if_pos two.takes] at flipped
  have bits : Distinguished index first second final ↔
      bitValue (first.after.harq.processes index).newDataIndication ≠
        bitValue (second.after.harq.processes index).newDataIndication := by
    constructor
    · intro distinct
      exact distinct itemOne itemTwo _ _ ofOne ofTwo
        (keepsOne.carried itemOne ofOne.1 ofOne.2) (keepsTwo.carried itemTwo ofTwo.1 ofTwo.2)
    · intro distinct a b aBit bBit ofA ofB aCarries bCarries same
      refine distinct ?_
      rw [(keepsOne.carried a ofA.1 ofA.2).unique aCarries,
        (keepsTwo.carried b ofB.1 ofB.2).unique bCarries, same]
  rw [bits, ← parity, Ne, bitValue_inj, flipped]
  rw [Bool.eq_not, not_not]
  exact eq_comm

/-- A transmit that returns success sends a packet on the process it takes. -/
theorem sends_of_transmit {index : Fin config.harqProcessCount} {params : HarqTransmitParams}
    {heap : Option Nat} {system : System config}
    (takes : (dectMacHarqTakeProcess system.phy.capabilities system.harq).1 = some index)
    (returned : Transition.succeedsWith
      (fun result : ErrorCode × System config => decide (result.1 = .ok))
      (dectMacHarqTransmit params heap system) = true) :
    Sends index params.receiverId
      ⟨system, .transmit params heap, Transition.follow step system (.transmit params heap)⟩ := by
  obtain ⟨⟨code, after⟩, same, success⟩ := Transition.exists_of_succeedsWith _ _ returned
  have stepped : step system (.transmit params heap) = .ok after := bind_ok.mpr ⟨_, same, rfl⟩
  have success : code = .ok := of_decide_eq_true success
  subst success
  refine ⟨decide_eq_true takes, params, heap, rfl, rfl, ?_⟩
  rw [same, Transition.follow_of_ok step stepped]

/-- Three bytes for a device. -/
def packetFor (receiver : Nat) : HarqTransmitParams := ⟨[1, 2, 3], 3, 0, receiver⟩

/-- A peer acknowledges process 0 to device 5. -/
def ackFrom (peer : Nat) : Event projectConfig := received (peerAck peer 5 0)

/-- What device 5 does from one packet for device 7 to the next, both on process 0. -/
def betweenPackets (events : List (Event projectConfig)) :
    List (Transition.Step (System projectConfig) (Event projectConfig)) :=
  Transition.followAll step
    (Transition.follow step device (.transmit (packetFor 7) (some 4096))) events

/-- Where the second of the two packets starts. -/
def secondPacket (events : List (Event projectConfig)) : System projectConfig :=
  events.foldl (Transition.follow step)
    (Transition.follow step device (.transmit (packetFor 7) (some 4096)))

/-- The step of a packet for device 7. -/
def sendSeven (system : System projectConfig) :
    Transition.Step (System projectConfig) (Event projectConfig) :=
  ⟨system, .transmit (packetFor 7) (some 4096),
    Transition.follow step system (.transmit (packetFor 7) (some 4096))⟩

theorem sendSeven_sends (system : System projectConfig)
    (takes : (dectMacHarqTakeProcess system.phy.capabilities system.harq).1 =
      some (processZero projectConfig))
    (returned : Transition.succeedsWith
      (fun result : ErrorCode × System projectConfig => decide (result.1 = .ok))
      (dectMacHarqTransmit (packetFor 7) (some 4096) system) = true) :
    Sends (processZero projectConfig) 7 (sendSeven system) :=
  sends_of_transmit takes returned

theorem betweenPackets_run (events : List (Event projectConfig))
    (passed : ∀ taken ∈ Transition.followAll step device
        (.transmit (packetFor 7) (some 4096) :: (events ++ [.transmit (packetFor 7) (some 4096)])),
      Transition.succeedsWith (fun _ => true) (step taken.before taken.label) = true) :
    Run device ([] ++ sendSeven device :: (betweenPackets events ++
      sendSeven (secondPacket events) :: []))
      (Transition.follow step (secondPacket events) (.transmit (packetFor 7) (some 4096))) := by
  have run := Transition.followAll_run step device _ passed
  rw [Transition.followAll, Transition.followAll_append, List.foldl_cons, List.foldl_append] at run
  exact run

/-- Two packets for device 7, the first of which was acknowledged, differ in the bit. -/
theorem newData_differs_iff_acked :
    ∃ (final : System projectConfig)
      (steps : List (Transition.Step (System projectConfig) (Event projectConfig))),
      Run device steps final ∧
        Distinguished (processZero projectConfig) (sendSeven device)
          (sendSeven (secondPacket [ackFrom 7])) final :=
  ⟨_, _, betweenPackets_run [ackFrom 7] (by decide +kernel),
    (newData_differs_iff device_booted (betweenPackets_run _ (by decide +kernel))
      (sendSeven_sends _ (by decide +kernel) (by decide +kernel))
      (sendSeven_sends _ (by decide +kernel) (by decide +kernel))).mpr (by decide +kernel)⟩

/-- The bits that the operations of a packet carry. -/
def carriedBits (index : Fin config.harqProcessCount)
    (sent : Transition.Step (System config) (Event config)) (later : System config) : List Nat :=
  (callsSince sent.before later).filterMap fun item =>
    match item.operation with
    | .txRx params =>
      if item.provenance = .packet index sent.before.harq.packets then
        some params.harq.newDataIndication
      else none
    | _ => none

theorem exists_of_mem_bits {index : Fin config.harqProcessCount}
    {sent : Transition.Step (System config) (Event config)} {later : System config} {bit : Nat}
    (member : bit ∈ carriedBits index sent later) :
    ∃ item, OfPacket index sent later item ∧ item.Carries bit := by
  obtain ⟨item, called, carries⟩ := List.mem_filterMap.mp member
  refine ⟨item, ?_⟩
  split at carries
  · rename_i params operation
    split at carries
    · rename_i provenance
      exact ⟨⟨called, provenance⟩, params, operation, Option.some.inj carries⟩
    · cases carries
  · cases carries

/-- A packet for device 9 in between, on the same process. -/
def packetForOther : List (Event projectConfig) :=
  [ackFrom 7, .transmit (packetFor 9) (some 4096), ackFrom 9]

/-- A transmit to a receiver. -/
def Event.sendsTo (receiver : Nat) : Event projectConfig → Bool
  | .transmit params _ => params.receiverId = receiver
  | _ => false

/-- The packet for device 9 toggles the bit back: two successive packets for device 7 on process
0 carry the same bit. -/
theorem newData_not_distinguished :
    ¬ ∀ (start final : System projectConfig)
        (before between after :
          List (Transition.Step (System projectConfig) (Event projectConfig)))
        (first second : Transition.Step (System projectConfig) (Event projectConfig))
        (index : Fin projectConfig.harqProcessCount) (receiver : Nat), Booted start →
      Run start (before ++ first :: (between ++ second :: after)) final →
      Sends index receiver first → Sends index receiver second →
      (∀ taken ∈ between, ¬ Sends index receiver taken) →
      Distinguished index first second final := by
  intro distinguished
  have run := betweenPackets_run packetForOther (by decide +kernel)
  have successive : ∀ taken ∈ betweenPackets packetForOther,
      ¬ Sends (processZero projectConfig) 7 taken := by
    rintro taken member ⟨_, params, heap, label, receiver, _⟩
    have none : ∀ taken ∈ betweenPackets packetForOther, taken.label.sendsTo 7 = false := by
      decide +kernel
    have other := none taken member
    rw [label] at other
    exact absurd receiver (of_decide_eq_false other)
  have one := sendSeven_sends device (by decide +kernel) (by decide +kernel)
  have two := sendSeven_sends (secondPacket packetForOther) (by decide +kernel)
    (by decide +kernel)
  have differ := distinguished _ _ _ _ _ _ _ _ _ device_booted run one two successive
  have final (system : System projectConfig) : 0 ∈ carriedBits (processZero projectConfig)
      (sendSeven system) (Transition.follow step (secondPacket packetForOther)
        (.transmit (packetFor 7) (some 4096))) →
      ∃ item, OfPacket (processZero projectConfig) (sendSeven system) (Transition.follow step
        (secondPacket packetForOther) (.transmit (packetFor 7) (some 4096))) item ∧
        item.Carries 0 := exists_of_mem_bits
  obtain ⟨first, ofFirst, firstZero⟩ := final device (by decide +kernel)
  obtain ⟨second, ofSecond, secondZero⟩ := final (secondPacket packetForOther)
    (by decide +kernel)
  exact differ first second 0 0 ofFirst ofSecond firstZero secondZero rfl

end DectHarq
