/-
This file says once what each operation of the HARQ module and each callback can do.

As for the handlers, there is one lemma per function. A give-back and a take are
functions of the process table, so their results are named; the callbacks are
characterized by the few changes they can make.
-/

import DectHarq.Effects

namespace DectHarq

variable {config : Config}

/-! ### Reading changed processes -/

@[simp] theorem modify_processes_self (harq : Harq config)
    (index : Fin config.harqProcessCount) (change : HarqProcess → HarqProcess) :
    (harq.modify index change).processes index = change (harq.processes index) :=
  Function.update_self _ _ _

theorem modify_processes_of_ne (harq : Harq config) {index other : Fin config.harqProcessCount}
    (change : HarqProcess → HarqProcess) (distinct : other ≠ index) :
    (harq.modify index change).processes other = harq.processes other :=
  Function.update_of_ne distinct _ _

@[simp] theorem modify_occupied (harq : Harq config) (index : Fin config.harqProcessCount)
    (change : HarqProcess → HarqProcess) :
    (harq.modify index change).occupied = harq.occupied := rfl

@[simp] theorem modify_initialized (harq : Harq config) (index : Fin config.harqProcessCount)
    (change : HarqProcess → HarqProcess) :
    (harq.modify index change).initialized = harq.initialized := rfl

/-- A modification that keeps a reading of the changed process keeps it for all processes. -/
theorem modify_reading {Value : Type} (read : HarqProcess → Value) (harq : Harq config)
    (index other : Fin config.harqProcessCount) (change : HarqProcess → HarqProcess)
    (kept : read (change (harq.processes index)) = read (harq.processes index)) :
    read ((harq.modify index change).processes other) = read (harq.processes other) := by
  by_cases same : other = index
  · rw [same, modify_processes_self, kept]
  · rw [modify_processes_of_ne harq change same]

theorem processIndex_ok {number : Nat} {index : Fin config.harqProcessCount}
    (found : processIndex config number = .ok index) : (index : Nat) = number := by
  unfold processIndex at found
  split at found
  · cases found
    rfl
  · cases found

theorem processIndex_of_lt {number : Nat} (bound : number < config.harqProcessCount) :
    processIndex config number = .ok ⟨number, bound⟩ :=
  dif_pos bound

/-- What a local transmission has in its process: data, length, receiver, transmission count,
redundancy version and new-data indication. -/
def transmissionFields (process : HarqProcess) :
    Option Buffer × Nat × Nat × Nat × Nat × Bool :=
  (process.data, process.dataLen, process.receiverId, process.transmissionCount,
    process.redundancyVersion, process.newDataIndication)

/-! ### The sender -/

/-- What `dect_mac_harq_take_process` makes of the process it takes. -/
def takenProcess (packet : Nat) (process : HarqProcess) : HarqProcess :=
  { process with newDataIndication := !process.newDataIndication, packet := packet }

/-- The process table after a process was taken. -/
def takenHarq (index : Fin config.harqProcessCount) (harq : Harq config) : Harq config :=
  { harq.modify index (takenProcess harq.packets) with
    occupied := Function.update harq.occupied index true
    packets := harq.packets + 1 }

theorem takenHarq_processes_self (index : Fin config.harqProcessCount) (harq : Harq config) :
    (takenHarq index harq).processes index =
      takenProcess harq.packets (harq.processes index) :=
  modify_processes_self harq index _

theorem takenHarq_processes_of_ne (harq : Harq config) {index other : Fin config.harqProcessCount}
    (distinct : other ≠ index) :
    (takenHarq index harq).processes other = harq.processes other :=
  modify_processes_of_ne harq _ distinct

theorem takenHarq_occupied_self (index : Fin config.harqProcessCount) (harq : Harq config) :
    (takenHarq index harq).occupied index = true :=
  Function.update_self _ _ _

theorem takenHarq_occupied_of_ne (harq : Harq config) {index other : Fin config.harqProcessCount}
    (distinct : other ≠ index) :
    (takenHarq index harq).occupied other = harq.occupied other :=
  Function.update_of_ne distinct _ _

/-- What `dect_mac_harq_transmit` makes of the process it took. -/
def filledProcess (params : HarqTransmitParams) (address : Nat) (process : HarqProcess) :
    HarqProcess :=
  { process with
    data := some ⟨address, params.data.take params.dataLen⟩
    dataLen := params.dataLen
    receiverId := params.receiverId
    transmissionCount := 1 }

/-- A take fails when every process is occupied, and otherwise occupies a free process, toggles
its new-data indication and numbers the packet. -/
theorem takeProcess_cases (capabilities : Capabilities) (harq : Harq config) :
    ((∀ index, (dectMacHarqInitialize capabilities harq).occupied index = true) ∧
        dectMacHarqTakeProcess capabilities harq =
          (none, dectMacHarqInitialize capabilities harq)) ∨
      ∃ index, (dectMacHarqInitialize capabilities harq).occupied index = false ∧
        dectMacHarqTakeProcess capabilities harq =
          (some index, takenHarq index (dectMacHarqInitialize capabilities harq)) := by
  unfold dectMacHarqTakeProcess
  dsimp only
  generalize dectMacHarqInitialize capabilities harq = ready
  cases search : (List.finRange config.harqProcessCount).find?
      fun index => !ready.occupied index with
  | none =>
    refine Or.inl ⟨fun index => ?_, rfl⟩
    have busy := List.find?_eq_none.mp search index (List.mem_finRange index)
    simpa using busy
  | some index =>
    have free := List.find?_some search
    exact Or.inr ⟨index, by simpa using free, rfl⟩

/-- The three outcomes of a transmit: no free process; a taken process given back because its
data could not be copied; a filled process whose operation was put, with either result. -/
theorem transmit_cases {params : HarqTransmitParams} {heap : Option Nat}
    {system after : System config} {code : ErrorCode}
    (returned : dectMacHarqTransmit params heap system = .ok (code, after)) :
    let ready := dectMacHarqInitialize system.phy.capabilities system.harq
    (code = .noFreeHarq ∧ (∀ index, ready.occupied index = true) ∧
        after = { system with harq := ready }) ∨
      (∃ index given, code = .noMemHeap ∧ heap = none ∧ ready.occupied index = false ∧
        dectMacHarqGiveProcess system.phy.capabilities index (takenHarq index ready) = .ok given ∧
        after = { system with harq := given }) ∨
      ∃ index address queue, heap = some address ∧ ready.occupied index = false ∧
        dectPhyQueuePut (harqItem config index
          (filledProcess params address ((takenHarq index ready).processes index))
          params.startTime priorityHigh) system.queue = .ok (code, queue) ∧
        after = { system with
          harq := (takenHarq index ready).modify index (filledProcess params address)
          queue := queue } := by
  intro ready
  unfold dectMacHarqTransmit at returned
  rcases takeProcess_cases system.phy.capabilities system.harq with
    ⟨busy, took⟩ | ⟨index, free, took⟩
  · rw [took] at returned
    obtain ⟨rfl, rfl⟩ := Prod.mk.inj (ok_inj returned)
    exact Or.inl ⟨rfl, busy, rfl⟩
  · rw [took] at returned
    cases heap with
    | none =>
      obtain ⟨given, same, rest⟩ := bind_ok.mp returned
      obtain ⟨rfl, rfl⟩ := Prod.mk.inj (ok_inj rest)
      exact Or.inr (Or.inl ⟨index, given, rfl, rfl, free, same, rfl⟩)
    | some address =>
      obtain ⟨⟨putCode, queue⟩, put, rest⟩ := bind_ok.mp returned
      obtain ⟨rfl, rfl⟩ := Prod.mk.inj (ok_inj rest)
      simp only [modify_processes_self] at put
      exact Or.inr (Or.inr ⟨index, address, queue, rfl, free, put, rfl⟩)

/-- What giving a process back makes of it. -/
def givenProcess (config : Config) (capabilities : Capabilities) (process : HarqProcess) :
    HarqProcess :=
  { dectMacHarqInitProcess config capabilities process.processNumber process with
    workPending := false }

/-- The process table after a process was given back. -/
def givenHarq (capabilities : Capabilities) (index : Fin config.harqProcessCount)
    (harq : Harq config) : Harq config :=
  { harq.modify index (givenProcess config capabilities) with
    occupied := Function.update harq.occupied index false }

theorem givenHarq_processes_self (capabilities : Capabilities)
    (index : Fin config.harqProcessCount) (harq : Harq config) :
    (givenHarq capabilities index harq).processes index =
      givenProcess config capabilities (harq.processes index) :=
  modify_processes_self harq index _

theorem givenHarq_processes_of_ne (capabilities : Capabilities) (harq : Harq config)
    {index other : Fin config.harqProcessCount} (distinct : other ≠ index) :
    (givenHarq capabilities index harq).processes other = harq.processes other :=
  modify_processes_of_ne harq _ distinct

theorem givenHarq_occupied_self (capabilities : Capabilities)
    (index : Fin config.harqProcessCount) (harq : Harq config) :
    (givenHarq capabilities index harq).occupied index = false :=
  Function.update_self _ _ _

theorem givenHarq_occupied_of_ne (capabilities : Capabilities) (harq : Harq config)
    {index other : Fin config.harqProcessCount} (distinct : other ≠ index) :
    (givenHarq capabilities index harq).occupied other = harq.occupied other :=
  Function.update_of_ne distinct _ _

/-- Every process has its own number, and before the initialization no process is in use. -/
structure Harq.Sound (harq : Harq config) : Prop where
  numbered : harq.initialized = true →
    ∀ index, (harq.processes index).processNumber = (index : Nat)
  untouched : harq.initialized = false →
    ∀ index, harq.occupied index = false ∧ (harq.processes index).workPending = false

/-- In a sound table an occupied process is initialized. -/
theorem Harq.Sound.initialized_of_occupied {harq : Harq config} (sound : harq.Sound)
    {index : Fin config.harqProcessCount} (occupied : harq.occupied index = true) :
    harq.initialized = true := by
  by_contra fresh
  rw [(sound.untouched (by simpa using fresh) index).1] at occupied
  cases occupied

/-- In a sound table a process with pending work is initialized. -/
theorem Harq.Sound.initialized_of_pending {harq : Harq config} (sound : harq.Sound)
    {index : Fin config.harqProcessCount}
    (pending : (harq.processes index).workPending = true) : harq.initialized = true := by
  by_contra fresh
  rw [(sound.untouched (by simpa using fresh) index).2] at pending
  cases pending

theorem boot_sound (config : Config) : (Harq.boot config).Sound where
  numbered := fun initialized => by cases initialized
  untouched := fun _ _ => ⟨rfl, rfl⟩

theorem initialize_of_initialized {capabilities : Capabilities} {harq : Harq config}
    (initialized : harq.initialized = true) : dectMacHarqInitialize capabilities harq = harq :=
  if_pos initialized

theorem initialize_initialized (capabilities : Capabilities) (harq : Harq config) :
    (dectMacHarqInitialize capabilities harq).initialized = true := by
  unfold dectMacHarqInitialize
  split
  · assumption
  · rfl

theorem initialize_numbered {capabilities : Capabilities} {harq : Harq config}
    (sound : harq.Sound) (index : Fin config.harqProcessCount) :
    ((dectMacHarqInitialize capabilities harq).processes index).processNumber = (index : Nat) := by
  unfold dectMacHarqInitialize
  split
  · rename_i initialized
    exact sound.numbered initialized index
  · rfl

/-- The initialization changes no occupied flag of a sound table. -/
theorem initialize_occupied {capabilities : Capabilities} {harq : Harq config}
    (sound : harq.Sound) :
    (dectMacHarqInitialize capabilities harq).occupied = harq.occupied := by
  unfold dectMacHarqInitialize
  split
  · rfl
  · rename_i fresh
    have none := sound.untouched (by simpa using fresh)
    funext index
    exact (none index).1.symm

/-- A give-back in a table whose processes are numbered frees the process it is called for. -/
theorem giveProcess_eq {capabilities : Capabilities} {index : Fin config.harqProcessCount}
    {harq after : Harq config}
    (numbered : ((dectMacHarqInitialize capabilities harq).processes index).processNumber =
      (index : Nat))
    (given : dectMacHarqGiveProcess capabilities index harq = .ok after) :
    after = givenHarq capabilities index (dectMacHarqInitialize capabilities harq) := by
  unfold dectMacHarqGiveProcess at given
  obtain ⟨slot, found, rest⟩ := bind_ok.mp given
  have same : slot = index := by
    have number := processIndex_ok found
    rw [modify_processes_self] at number
    exact Fin.ext (number.trans numbered)
  subst same
  cases rest
  unfold cancelWork givenHarq
  simp only [Harq.modify, Function.update_idem, Function.update_self]
  rfl

/-- A process after its retransmission was counted. -/
def countedProcess (process : HarqProcess) : HarqProcess :=
  { process with
    transmissionCount := uint8 (process.transmissionCount + 1)
    workPending := false }

/-- A cancelled work makes no difference to a process that is given back. -/
theorem givenHarq_cancelWork (capabilities : Capabilities) (index : Fin config.harqProcessCount)
    (harq : Harq config) :
    givenHarq capabilities index (dectMacHarqInitialize capabilities (cancelWork index harq)) =
      givenHarq capabilities index (dectMacHarqInitialize capabilities harq) := by
  unfold dectMacHarqInitialize cancelWork
  by_cases initialized : harq.initialized = true
  · rw [if_pos (show (harq.modify index _).initialized = true from initialized),
      if_pos initialized]
    simp only [givenHarq, Harq.modify, Function.update_idem, Function.update_self]
    rfl
  · rw [if_neg (show ¬ (harq.modify index _).initialized = true from initialized),
      if_neg initialized]
    congr 1
    simp only [Harq.mk.injEq, true_and, Harq.modify, and_self, and_true]
    funext other
    by_cases same : other = index
    · subst same
      rw [Function.update_self]
      rfl
    · rw [Function.update_of_ne same]

theorem cancelWork_sound {index : Fin config.harqProcessCount} {harq : Harq config}
    (sound : harq.Sound) : (cancelWork index harq).Sound where
  numbered := fun initialized other => by
    rw [cancelWork, modify_reading (fun process => process.processNumber) harq index other]
    · exact sound.numbered initialized other
    · rfl
  untouched := fun fresh other => by
    refine ⟨(sound.untouched fresh other).1, ?_⟩
    rw [cancelWork, modify_reading (fun process => process.workPending) harq index other]
    · exact (sound.untouched fresh other).2
    · exact (sound.untouched fresh index).2.symm

/-- A give-back in a table whose processes are numbered returns. -/
theorem giveProcess_returns (capabilities : Capabilities) {index : Fin config.harqProcessCount}
    {harq : Harq config}
    (numbered : ((dectMacHarqInitialize capabilities harq).processes index).processNumber =
      (index : Nat)) :
    ∃ after, dectMacHarqGiveProcess capabilities index harq = .ok after := by
  unfold dectMacHarqGiveProcess
  dsimp only
  rw [modify_processes_self]
  refine ⟨_, bind_ok.mpr ⟨index, ?_, rfl⟩⟩
  show processIndex config ((dectMacHarqInitialize capabilities harq).processes
    index).processNumber = _
  rw [numbered]
  exact processIndex_of_lt index.isLt

/-- A retransmission counts, adjusts the receiver's node and puts the operation of the process,
with either result. -/
theorem retransmit_cases {index : Fin config.harqProcessCount} {system after : System config}
    {code : ErrorCode} (returned : dectMacHarqRetransmit index system = .ok (code, after)) :
    ∃ nodes, after.harq = system.harq.modify index (fun process =>
          { process with transmissionCount := uint8 (process.transmissionCount + 1) }) ∧
      after.phy = { system.phy with nodes := nodes } ∧
      dectPhyQueuePut (harqItem config index (after.harq.processes index) 0 priorityMedium)
        system.queue = .ok (code, after.queue) := by
  unfold dectMacHarqRetransmit at returned
  obtain ⟨⟨putCode, queue⟩, put, rest⟩ := bind_ok.mp returned
  cases rest
  exact ⟨_, rfl, rfl, put⟩

/-- The work handler retransmits below the limit and gives the process back at it. -/
theorem workHandler_cases {index : Fin config.harqProcessCount} {system after : System config}
    (handled : dectMacHarqRetransmissionWorkHandler index system = .ok after) :
    ((system.harq.processes index).transmissionCount < config.harqMaxTransmissions ∧
        ∃ code, dectMacHarqRetransmit index system = .ok (code, after)) ∨
      (config.harqMaxTransmissions ≤ (system.harq.processes index).transmissionCount ∧
        ∃ given, dectMacHarqGiveProcess system.phy.capabilities index system.harq = .ok given ∧
          after = { system with harq := given }) := by
  unfold dectMacHarqRetransmissionWorkHandler at handled
  split at handled
  · rename_i below
    obtain ⟨⟨code, retransmitted⟩, same, rest⟩ := bind_ok.mp handled
    cases rest
    exact Or.inl ⟨below, code, same⟩
  · rename_i limit
    obtain ⟨given, same, rest⟩ := bind_ok.mp handled
    cases rest
    exact Or.inr ⟨Nat.le_of_not_lt limit, given, same, rfl⟩

/-- What a NACK makes of a process before its work is scheduled. -/
def nackedProcess (process : HarqProcess) : HarqProcess :=
  { process with
    redundancyVersion := dectMacHarqIncrementRedundancyVersion process.redundancyVersion }

/-- What a feedback of format 6 makes of a process before its work is scheduled. -/
def restartedProcess (process : HarqProcess) : HarqProcess :=
  { process with redundancyVersion := 0 }

/-- A response gives the process it names back, or schedules its work with the next or the first
redundancy version; other formats do nothing. -/
theorem response_cases {capabilities : Capabilities} {header : PhyHeader}
    {harq after : Harq config}
    (handled : dectMacHarqResponse capabilities header harq = .ok after) :
    (Type2.feedbackFormat.get header ≠ feedbackFormat1 ∧
        Type2.feedbackFormat.get header ≠ feedbackFormat6 ∧ after = harq) ∨
      ∃ index, processIndex config (feedbackProcess header) = .ok index ∧
        ((Type2.feedbackFormat.get header = feedbackFormat1 ∧
            Format1.transmissionFeedback.get (headerFeedback header) = ack ∧
            dectMacHarqGiveProcess capabilities index (cancelWork index harq) = .ok after) ∨
          (Type2.feedbackFormat.get header = feedbackFormat1 ∧
            Format1.transmissionFeedback.get (headerFeedback header) ≠ ack ∧
            after = scheduleWork index (harq.modify index nackedProcess)) ∨
          (Type2.feedbackFormat.get header = feedbackFormat6 ∧
            after = scheduleWork index (harq.modify index restartedProcess))) := by
  unfold dectMacHarqResponse at handled
  split at handled
  · rename_i format
    obtain ⟨index, found, handled⟩ := bind_ok.mp handled
    refine Or.inr ⟨index, found, ?_⟩
    split at handled
    · rename_i acked
      exact Or.inl ⟨format, acked, handled⟩
    · rename_i nacked
      exact Or.inr (Or.inl ⟨format, nacked, (ok_inj handled).symm⟩)
  · rename_i notFormat1
    split at handled
    · rename_i format
      obtain ⟨index, found, handled⟩ := bind_ok.mp handled
      exact Or.inr ⟨index, found, Or.inr (Or.inr ⟨format, (ok_inj handled).symm⟩)⟩
    · rename_i notFormat6
      exact Or.inl ⟨notFormat1, notFormat6, (ok_inj handled).symm⟩

/-- A response for a process of the table returns. -/
theorem response_returns {header : PhyHeader} {harq : Harq config} (sound : harq.Sound)
    (number : feedbackProcess header < config.harqProcessCount) (capabilities : Capabilities) :
    ∃ after, dectMacHarqResponse capabilities header harq = .ok after := by
  obtain ⟨given, gave⟩ := giveProcess_returns capabilities
    (initialize_numbered (cancelWork_sound sound) ⟨feedbackProcess header, number⟩)
  unfold dectMacHarqResponse
  rw [processIndex_of_lt number]
  by_cases format1 : Type2.feedbackFormat.get header = feedbackFormat1
  · rw [if_pos format1]
    by_cases acked : Format1.transmissionFeedback.get (headerFeedback header) = ack
    · exact ⟨given, bind_ok.mpr ⟨_, rfl, by rw [if_pos acked]; exact gave⟩⟩
    · exact ⟨_, bind_ok.mpr ⟨_, rfl, by rw [if_neg acked]⟩⟩
  · rw [if_neg format1]
    by_cases format6 : Type2.feedbackFormat.get header = feedbackFormat6
    · rw [if_pos format6]
      exact ⟨_, bind_ok.mpr ⟨_, rfl, rfl⟩⟩
    · rw [if_neg format6]
      exact ⟨harq, rfl⟩

/-! ### Received requests -/

/-- What a request makes of the process it names: the sender's fields are reset, and only the
soft buffer depends on the request. -/
def requestedProcess (index : Fin config.harqProcessCount) (bufferSize : Nat)
    (process : HarqProcess) : HarqProcess :=
  { process with
    processNumber := index
    data := none
    dataLen := 0
    receiverId := 0
    transmissionCount := 0
    redundancyVersion := 0
    bufferSize := bufferSize }

/-- A request resets the process it names and no other. -/
theorem requestProcess_cases {capabilities : Capabilities} {header : PhyHeader}
    {harq after : Harq config}
    (requested : requestProcess capabilities header harq = .ok after) :
    ∃ (named : Fin config.harqProcessCount) (size : Nat),
      (named : Nat) = Type2.dfHarqProcessNr.get header ∧
      after = harq.modify named (requestedProcess named size) := by
  unfold requestProcess at requested
  obtain ⟨named, found, rest⟩ := bind_ok.mp requested
  have number := processIndex_ok found
  have bound : Type2.dfHarqProcessNr.get header < config.harqProcessCount := number ▸ named.isLt
  have equal : named = ⟨Type2.dfHarqProcessNr.get header, bound⟩ := Fin.ext number
  have changed := ok_inj rest
  unfold dectMacHarqRemoveBufferSpace at changed
  rw [dif_pos bound, ← equal, ← number] at changed
  dsimp only at changed
  split at changed
  · exact ⟨named, _, number, changed.symm⟩
  · refine ⟨named, softBufferShare config capabilities -
      uint8 (dectMacUtilsGetBytesFromPacketLength (Type2.packetLength.get header)
        (Type2.dfMcs.get header)), number, ?_⟩
    rw [← changed]
    simp only [Harq.modify, Function.update_idem, Function.update_self]
    rfl

/-- A request changes the process table by its process part, makes one call of the modem for the
reply and puts a placeholder for it, with either result. -/
theorem harqRequest_cases {header : PhyHeader} {startTime : Nat} {ret : Int}
    {system after : System config} {code : ErrorCode}
    (handled : dectMacHarqRequest header startTime ret system = .ok (code, after)) :
    ∃ harq reply request nodes,
      requestProcess system.phy.capabilities header system.harq = .ok harq ∧
      after.harq = { harq with replies := harq.replies + 1 } ∧
      Issues (.txHarq reply) (.txHarq request) ∧
      (reply.handle = BitVec.ofNat 28 (handleHarq + Type2.dfHarqProcessNr.get header) |||
        (1#28 <<< 27)) ∧
      after.phy = { system.phy with nodes := nodes }.call (.txHarq request)
        ⟨.reply harq.replies, false⟩ ret ∧
      dectPhyQueuePut ⟨.placeholder, priorityCritical, .reply harq.replies⟩ system.queue =
        .ok (code, after.queue) := by
  unfold dectMacHarqRequest at handled
  obtain ⟨harq, requested, handled⟩ := bind_ok.mp handled
  obtain ⟨⟨cqi, readNodes⟩, _, handled⟩ := bind_ok.mp handled
  obtain ⟨phy, sent, handled⟩ := bind_ok.mp handled
  obtain ⟨⟨putCode, queue⟩, put, handled⟩ := bind_ok.mp handled
  obtain ⟨request, nodes, issues, same⟩ := txHarq_spec sent
  cases handled
  exact ⟨harq, _, request, nodes, requested, rfl, issues, rfl, same, put⟩

/-! ### The callbacks -/

/-- The completion callback: an error arms the retry or does nothing; a success turns a combined
operation to reception, gives the token, or does nothing. -/
theorem opCompleteCb_cases {err : PhyErr} {handle : BitVec 32} {system after : System config}
    (called : dectMacPhyOpCompleteCb err handle system = .ok after) :
    (err ≠ .success ∧ err ≠ .invalidStartTime ∧ after = system) ∨
      (err = .invalidStartTime ∧
        after = system.setQueue (dectMacPhyHandlerQueueOperationFailedRetry system.queue)) ∨
      (err = .success ∧ turnsToReception system.phy.currentState handle = true ∧
        isHarqHandle handle = false ∧
        after = { system with phy := { system.phy with currentState := .receiving } }) ∨
      (err = .success ∧ turnsToReception system.phy.currentState handle = true ∧
        isHarqHandle handle = true ∧
        ∃ index, processIndex config (handleProcess handle) = .ok index ∧
          after = { system with
            phy := { system.phy with currentState := .receiving }
            harq := scheduleWork index system.harq }) ∨
      (err = .success ∧ turnsToReception system.phy.currentState handle = false ∧
        isFromQueue handle = true ∧ after = system.setQueue system.queue.givePhy) ∨
      (err = .success ∧ turnsToReception system.phy.currentState handle = false ∧
        isFromQueue handle = false ∧ after = system) := by
  unfold dectMacPhyOpCompleteCb at called
  split at called
  · rename_i failed
    split at called
    · rename_i start
      exact Or.inr (Or.inl ⟨start, (ok_inj called).symm⟩)
    · rename_i other
      exact Or.inl ⟨failed, other, (ok_inj called).symm⟩
  · rename_i notFailed
    have success : err = .success := not_not.mp notFailed
    split at called
    · rename_i turns
      dsimp only at called
      split at called
      · rename_i harqHandle
        obtain ⟨index, found, rest⟩ := bind_ok.mp called
        exact Or.inr (Or.inr (Or.inr (Or.inl
          ⟨success, turns, harqHandle, index, found, (ok_inj rest).symm⟩)))
      · rename_i notHarq
        exact Or.inr (Or.inr (Or.inl
          ⟨success, turns, by simpa using notHarq, (ok_inj called).symm⟩))
    · rename_i stays
      have stays : turnsToReception system.phy.currentState handle = false := by
        simpa using stays
      split at called
      · rename_i queued
        exact Or.inr (Or.inr (Or.inr (Or.inr (Or.inl
          ⟨success, stays, queued, (ok_inj called).symm⟩))))
      · rename_i direct
        exact Or.inr (Or.inr (Or.inr (Or.inr (Or.inr
          ⟨success, stays, by simpa using direct, (ok_inj called).symm⟩))))

/-- A received header is a request that the callback hands to the HARQ module. -/
def IsRequest (config : Config) (deviceId : Nat) (status : PccStatus) (header : PhyHeader) :
    Prop :=
  status.phyType = headerType2 ∧ Type2.headerFormat.get header = headerFormat000 ∧
    requestAddressed config deviceId header = true

instance (deviceId : Nat) (status : PccStatus) (header : PhyHeader) :
    Decidable (IsRequest config deviceId status header) :=
  inferInstanceAs (Decidable (_ ∧ _))

/-- A received header is a response that the callback hands to the HARQ module. -/
def IsResponse (config : Config) (deviceId : Nat) (status : PccStatus) (header : PhyHeader) :
    Prop :=
  status.phyType = headerType2 ∧ Type2.headerFormat.get header = headerFormat001 ∧
    responseAddressed config deviceId header = true ∧
    (Type2.feedbackFormat.get header = feedbackFormat1 ∨
      Type2.feedbackFormat.get header = feedbackFormat6)

instance (deviceId : Nat) (status : PccStatus) (header : PhyHeader) :
    Decidable (IsResponse config deviceId status header) :=
  inferInstanceAs (Decidable (_ ∧ _))

/-- A header is handed to the request or to the response function, or to neither; before that
only the node table changes. -/
theorem pccCb_cases {status : PccStatus} {header : PhyHeader} {ret : Int}
    {system after : System config}
    (received : dectMacPhyPccCb status header ret system = .ok after) :
    ∃ nodes, pccOptimize config status header system.phy =
        .ok { system.phy with nodes := nodes } ∧
      ((IsRequest config system.phy.deviceId status header ∧
          ∃ code, dectMacHarqRequest header status.stfStartTime ret
            { system with phy := { system.phy with nodes := nodes } } = .ok (code, after)) ∨
        (¬ IsRequest config system.phy.deviceId status header ∧
          IsResponse config system.phy.deviceId status header ∧
          ∃ harq, dectMacHarqResponse system.phy.capabilities header system.harq = .ok harq ∧
            after = { system with harq := harq, phy := { system.phy with nodes := nodes } }) ∨
        (¬ IsRequest config system.phy.deviceId status header ∧
          ¬ IsResponse config system.phy.deviceId status header ∧
          after = { system with phy := { system.phy with nodes := nodes } })) := by
  unfold dectMacPhyPccCb at received
  obtain ⟨phy, optimized, received⟩ := bind_ok.mp received
  obtain ⟨nodes, rfl⟩ : ∃ nodes, phy = { system.phy with nodes := nodes } := by
    unfold pccOptimize at optimized
    obtain ⟨_, _, rest⟩ := bind_ok.mp optimized
    exact ⟨_, (ok_inj rest).symm⟩
  refine ⟨nodes, optimized, ?_⟩
  dsimp only at received
  split at received
  · rename_i type2
    split at received
    · rename_i format
      have notResponse : ¬ IsResponse config system.phy.deviceId status header := by
        rintro ⟨_, other, _⟩
        rw [format] at other
        cases other
      split at received
      · rename_i addressed
        obtain ⟨⟨code, requested⟩, handled, rest⟩ := bind_ok.mp received
        cases rest
        exact Or.inl ⟨⟨type2, format, addressed⟩, code, handled⟩
      · rename_i elsewhere
        exact Or.inr (Or.inr ⟨fun request => elsewhere request.2.2, notResponse,
          (ok_inj received).symm⟩)
    · rename_i notRequest
      have notRequest : ¬ IsRequest config system.phy.deviceId status header :=
        fun request => notRequest request.2.1
      split at received
      · rename_i format
        split at received
        · rename_i addressed
          split at received
          · rename_i feedback
            obtain ⟨harq, handled, rest⟩ := bind_ok.mp received
            cases rest
            exact Or.inr (Or.inl ⟨notRequest, ⟨type2, format, addressed, feedback⟩, harq,
              handled, rfl⟩)
          · rename_i noFeedback
            exact Or.inr (Or.inr ⟨notRequest, fun response => noFeedback response.2.2.2,
              (ok_inj received).symm⟩)
        · rename_i elsewhere
          exact Or.inr (Or.inr ⟨notRequest, fun response => elsewhere response.2.2.1,
            (ok_inj received).symm⟩)
      · rename_i otherFormat
        exact Or.inr (Or.inr ⟨notRequest, fun response => otherFormat response.2.1,
          (ok_inj received).symm⟩)
  · rename_i otherType
    exact Or.inr (Or.inr ⟨fun request => otherType request.1, fun response => otherType response.1,
      (ok_inj received).symm⟩)

end DectHarq
