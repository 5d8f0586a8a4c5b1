/-
This file settles which indexes the program uses on the array of processes.

An index comes from a header field of three bits, from a field of the feedback of three
bits, from four bits of a handle, or from the number stored in a process. The stored
numbers are in bounds because every initialized process has its own index; the other
three are not checked, so they are in bounds exactly when the header or the handle
names a process that is configured. Where one is not, the functions of the model stop.
-/

import DectHarq.HarqMoves

namespace DectHarq

variable {config : Config}

/-! ### The indexes of each function -/

/-- The buffer accounting functions check their index before they use it. -/
def checkedIndexes (config : Config) (number : Nat) : List Nat :=
  if number < config.harqProcessCount then [number] else []

/-- The indexes of `dect_mac_harq_request`: the process to initialize, the removal of buffer
space and the buffer status. -/
def requestIndexes (config : Config) (header : PhyHeader) : List Nat :=
  let number := Type2.dfHarqProcessNr.get header
  number :: (checkedIndexes config number ++ checkedIndexes config number)

/-- The index of `dect_mac_harq_give_process` on the occupied flags: the stored number. -/
def giveIndexes (capabilities : Capabilities) (index : Fin config.harqProcessCount)
    (harq : Harq config) : List Nat :=
  [((dectMacHarqInitialize capabilities harq).processes index).processNumber]

/-- The indexes of `dect_mac_harq_response`: the named process, and those of giving it back. -/
def responseIndexes (capabilities : Capabilities) (header : PhyHeader) (harq : Harq config) :
    List Nat :=
  feedbackProcess header ::
    if Type2.feedbackFormat.get header = feedbackFormat1 ∧
        Format1.transmissionFeedback.get (headerFeedback header) = ack then
      match processIndex config (feedbackProcess header) with
      | .ok index => giveIndexes capabilities index (cancelWork index harq)
      | .error _ => []
    else []

/-- The index of `dect_mac_phy_op_complete_cb` for a successful completion. -/
def completionIndexes (state : PhyState) (handle : BitVec 32) : List Nat :=
  if turnsToReception state handle ∧ isHarqHandle handle then [handleProcess handle] else []

/-- The indexes of a transmit beyond the loop that takes a process: it gives the process back
when it gets no memory. -/
def transmitIndexes (heap : Option Nat) (system : System config) : List Nat :=
  match dectMacHarqTakeProcess system.phy.capabilities system.harq, heap with
  | (some index, harq), none => giveIndexes system.phy.capabilities index harq
  | _, _ => []

/-- The indexes of the work of a process: it gives the process back at the limit. -/
def workIndexes (index : Fin config.harqProcessCount) (system : System config) : List Nat :=
  (index : Nat) ::
    if (system.harq.processes index).transmissionCount < config.harqMaxTransmissions then []
    else giveIndexes system.phy.capabilities index (cancelWork index system.harq)

/-- The indexes of a received header, by what the callback hands it to. -/
def headerIndexes (status : PccStatus) (header : PhyHeader) (system : System config) : List Nat :=
  if IsRequest config system.phy.deviceId status header then requestIndexes config header
  else if IsResponse config system.phy.deviceId status header then
    responseIndexes system.phy.capabilities header system.harq
  else []

/-- The handle that a completion callback is called with. -/
def completionHandleAt (system : System config) (position : Nat) : Option (BitVec 32) :=
  system.phy.modem[position]?.bind fun op => op.request.completionHandle

/-- The indexes that an event uses on the processes and on their occupied flags. -/
def harqIndexes (system : System config) : Event config → List Nat
  | .transmit _ heap => transmitIndexes heap system
  | .workExpired index => workIndexes index system
  | .opComplete position err =>
    match completionHandleAt system position with
    | some handle =>
      if err = .success then completionIndexes system.phy.currentState handle else []
    | none => []
  | .pcc status header _ => headerIndexes status header system
  | _ => []

/-- What comes from the air or from the user names a configured process. -/
def NamesProcess (system : System config) : Event config → Prop
  | .opComplete position err =>
    ∀ handle, completionHandleAt system position = some handle → err = .success →
      turnsToReception system.phy.currentState handle = true → isHarqHandle handle = true →
        handleProcess handle < config.harqProcessCount
  | .pcc status header _ =>
    (IsRequest config system.phy.deviceId status header →
        Type2.dfHarqProcessNr.get header < config.harqProcessCount) ∧
      (¬ IsRequest config system.phy.deviceId status header →
        IsResponse config system.phy.deviceId status header →
          feedbackProcess header < config.harqProcessCount)
  | _ => True

/-! ### Where they are in bounds -/

/-- Every index of a list is one of the array. -/
def InBounds (config : Config) (indexes : List Nat) : Prop :=
  ∀ index ∈ indexes, index < config.harqProcessCount

theorem inBounds_nil : InBounds config [] := fun _ member => by cases member

theorem inBounds_cons {number : Nat} {rest : List Nat} :
    InBounds config (number :: rest) ↔ number < config.harqProcessCount ∧ InBounds config rest :=
  List.forall_mem_cons

theorem checkedIndexes_inBounds (number : Nat) :
    InBounds config (checkedIndexes config number) := by
  unfold checkedIndexes
  split
  · rename_i bound
    exact inBounds_cons.mpr ⟨bound, inBounds_nil⟩
  · exact inBounds_nil

/-- The stored number of a process is in bounds, whoever gives the process back. -/
theorem giveIndexes_inBounds {capabilities : Capabilities} {index : Fin config.harqProcessCount}
    {harq : Harq config}
    (numbered : ((dectMacHarqInitialize capabilities harq).processes index).processNumber =
      (index : Nat)) : InBounds config (giveIndexes capabilities index harq) := by
  refine inBounds_cons.mpr ⟨?_, inBounds_nil⟩
  rw [numbered]
  exact index.isLt

theorem requestIndexes_inBounds_iff (header : PhyHeader) :
    InBounds config (requestIndexes config header) ↔
      Type2.dfHarqProcessNr.get header < config.harqProcessCount := by
  refine inBounds_cons.trans (and_iff_left fun index member => ?_)
  rcases List.mem_append.mp member with one | two
  · exact checkedIndexes_inBounds _ index one
  · exact checkedIndexes_inBounds _ index two

theorem responseIndexes_inBounds_iff (capabilities : Capabilities) (header : PhyHeader)
    {harq : Harq config} (sound : harq.Sound) :
    InBounds config (responseIndexes capabilities header harq) ↔
      feedbackProcess header < config.harqProcessCount := by
  refine inBounds_cons.trans (and_iff_left ?_)
  split
  · split
    · exact giveIndexes_inBounds (initialize_numbered (cancelWork_sound sound) _)
    · exact inBounds_nil
  · exact inBounds_nil

theorem completionIndexes_inBounds_iff (state : PhyState) (handle : BitVec 32) :
    InBounds config (completionIndexes state handle) ↔
      (turnsToReception state handle = true → isHarqHandle handle = true →
        handleProcess handle < config.harqProcessCount) := by
  unfold completionIndexes
  split
  · rename_i turns
    rw [inBounds_cons]
    exact ⟨fun bound _ _ => bound.1, fun bound => ⟨bound turns.1 turns.2, inBounds_nil⟩⟩
  · rename_i stays
    exact ⟨fun _ turns harqHandle => absurd ⟨turns, harqHandle⟩ stays, fun _ => inBounds_nil⟩

theorem transmitIndexes_inBounds (heap : Option Nat) {system : System config}
    (sound : system.harq.Sound) : InBounds config (transmitIndexes heap system) := by
  unfold transmitIndexes
  rcases takeProcess_cases system.phy.capabilities system.harq with
    ⟨_, took⟩ | ⟨index, _, took⟩
  · rw [took]
    exact inBounds_nil
  · rw [took]
    cases heap with
    | some address => exact inBounds_nil
    | none =>
      refine giveIndexes_inBounds ?_
      rw [initialize_of_initialized (show (takenHarq index _).initialized = true from
        initialize_initialized system.phy.capabilities system.harq)]
      exact takenHarq_numbered (initialize_numbered sound) index

theorem workIndexes_inBounds (index : Fin config.harqProcessCount) {system : System config}
    (sound : system.harq.Sound) : InBounds config (workIndexes index system) := by
  refine inBounds_cons.mpr ⟨index.isLt, ?_⟩
  split
  · exact inBounds_nil
  · exact giveIndexes_inBounds (initialize_numbered (cancelWork_sound sound) index)

/-- The indexes of an event are in bounds exactly when it names a configured process. -/
theorem harqIndexes_inBounds_iff {system : System config} (sound : system.harq.Sound)
    (event : Event config) :
    InBounds config (harqIndexes system event) ↔ NamesProcess system event := by
  cases event with
  | transmit params heap =>
    exact iff_of_true (transmitIndexes_inBounds heap sound) trivial
  | workExpired index => exact iff_of_true (workIndexes_inBounds index sound) trivial
  | opComplete position err =>
    show InBounds config (match completionHandleAt system position with
        | some handle =>
          if err = .success then completionIndexes system.phy.currentState handle else []
        | none => []) ↔
      ∀ handle, completionHandleAt system position = some handle → err = .success →
        turnsToReception system.phy.currentState handle = true → isHarqHandle handle = true →
          handleProcess handle < config.harqProcessCount
    generalize completionHandleAt system position = found
    cases found with
    | none => exact iff_of_true inBounds_nil fun handle none => by cases none
    | some handle =>
      dsimp only
      by_cases success : err = .success
      · rw [if_pos success, completionIndexes_inBounds_iff]
        constructor
        · intro bound other same _
          rw [← Option.some.inj same]
          exact bound
        · exact fun bound => bound handle rfl success
      · rw [if_neg success]
        exact iff_of_true inBounds_nil fun _ _ succeeded => absurd succeeded success
  | pcc status header ret =>
    show InBounds config (headerIndexes status header system) ↔
      (IsRequest config system.phy.deviceId status header →
          Type2.dfHarqProcessNr.get header < config.harqProcessCount) ∧
        (¬ IsRequest config system.phy.deviceId status header →
          IsResponse config system.phy.deviceId status header →
            feedbackProcess header < config.harqProcessCount)
    unfold headerIndexes
    by_cases request : IsRequest config system.phy.deviceId status header
    · rw [if_pos request, requestIndexes_inBounds_iff]
      exact ⟨fun bound => ⟨fun _ => bound, fun other => absurd request other⟩,
        fun bound => bound.1 request⟩
    · rw [if_neg request]
      by_cases response : IsResponse config system.phy.deviceId status header
      · rw [if_pos response, responseIndexes_inBounds_iff _ _ sound]
        exact ⟨fun bound => ⟨fun other => absurd other request, fun _ _ => bound⟩,
          fun bound => bound.2 request response⟩
      · rw [if_neg response]
        exact iff_of_true inBounds_nil
          ⟨fun other => absurd other request, fun _ other => absurd other response⟩
  | _ => exact iff_of_true inBounds_nil trivial

/-! ### The model stops where an index is out of bounds -/

theorem requestProcess_returns_iff (capabilities : Capabilities) (header : PhyHeader)
    (harq : Harq config) :
    (∃ after, requestProcess capabilities header harq = .ok after) ↔
      InBounds config (requestIndexes config header) := by
  rw [requestIndexes_inBounds_iff]
  constructor
  · rintro ⟨after, requested⟩
    obtain ⟨named, _, number, _⟩ := requestProcess_cases requested
    rw [← number]
    exact named.isLt
  · exact fun bound => ⟨_, bind_ok.mpr ⟨_, processIndex_of_lt bound, rfl⟩⟩

theorem response_returns_iff (capabilities : Capabilities) {header : PhyHeader}
    {harq : Harq config} (sound : harq.Sound)
    (feedback : Type2.feedbackFormat.get header = feedbackFormat1 ∨
      Type2.feedbackFormat.get header = feedbackFormat6) :
    (∃ after, dectMacHarqResponse capabilities header harq = .ok after) ↔
      InBounds config (responseIndexes capabilities header harq) := by
  rw [responseIndexes_inBounds_iff capabilities header sound]
  constructor
  · rintro ⟨after, handled⟩
    rcases response_cases handled with ⟨notFormat1, notFormat6, _⟩ | ⟨index, found, _⟩
    · exact absurd feedback (not_or.mpr ⟨notFormat1, notFormat6⟩)
    · rw [← processIndex_ok found]
      exact index.isLt
  · exact fun bound => response_returns sound bound capabilities

theorem opCompleteCb_returns_iff (handle : BitVec 32) (system : System config) :
    (∃ after, dectMacPhyOpCompleteCb .success handle system = .ok after) ↔
      InBounds config (completionIndexes system.phy.currentState handle) := by
  rw [completionIndexes_inBounds_iff]
  unfold dectMacPhyOpCompleteCb
  rw [if_neg (fun failed => failed rfl)]
  by_cases turns : turnsToReception system.phy.currentState handle = true
  · rw [if_pos turns]
    dsimp only
    by_cases harqHandle : isHarqHandle handle = true
    · rw [if_pos harqHandle]
      constructor
      · rintro ⟨after, returned⟩ _ _
        obtain ⟨index, found, _⟩ := bind_ok.mp returned
        rw [← processIndex_ok found]
        exact index.isLt
      · exact fun bound =>
          ⟨_, bind_ok.mpr ⟨_, processIndex_of_lt (bound turns harqHandle), rfl⟩⟩
    · rw [if_neg harqHandle]
      exact iff_of_true ⟨_, rfl⟩ fun _ other => absurd other harqHandle
  · rw [if_neg turns]
    refine iff_of_true ?_ fun other => absurd other turns
    split <;> exact ⟨_, rfl⟩

/-- A function that only stops out of bounds does so exactly when it does not return. -/
theorem stops_iff_not_returns {Value : Type} {call : Except Stop Value}
    (only : ∀ stop, call = .error stop → stop = .outOfBounds) :
    call = .error .outOfBounds ↔ ¬ ∃ value, call = .ok value := by
  cases call with
  | ok value => exact iff_of_false nofun fun none => none ⟨value, rfl⟩
  | error stop =>
    rw [only stop rfl]
    exact iff_of_true rfl nofun

theorem processIndex_stop {number : Nat} {stop : Stop}
    (failed : processIndex config number = .error stop) : stop = .outOfBounds := by
  unfold processIndex at failed
  split at failed
  · cases failed
  · cases failed
    rfl

theorem giveProcess_stop {capabilities : Capabilities} {index : Fin config.harqProcessCount}
    {harq : Harq config} {stop : Stop}
    (failed : dectMacHarqGiveProcess capabilities index harq = .error stop) :
    stop = .outOfBounds := by
  rcases bind_error.mp failed with outside | ⟨_, _, impossible⟩
  · exact processIndex_stop outside
  · cases impossible

/-- A request stops exactly when an index of it is out of bounds. -/
theorem requestProcess_stops_iff (capabilities : Capabilities) (header : PhyHeader)
    (harq : Harq config) :
    requestProcess capabilities header harq = .error .outOfBounds ↔
      ¬ InBounds config (requestIndexes config header) := by
  rw [← requestProcess_returns_iff capabilities header harq]
  refine stops_iff_not_returns fun stop failed => ?_
  rcases bind_error.mp failed with outside | ⟨_, _, impossible⟩
  · exact processIndex_stop outside
  · cases impossible

/-- A response stops exactly when an index of it is out of bounds. -/
theorem response_stops_iff (capabilities : Capabilities) {header : PhyHeader} {harq : Harq config}
    (sound : harq.Sound) (feedback : Type2.feedbackFormat.get header = feedbackFormat1 ∨
      Type2.feedbackFormat.get header = feedbackFormat6) :
    dectMacHarqResponse capabilities header harq = .error .outOfBounds ↔
      ¬ InBounds config (responseIndexes capabilities header harq) := by
  rw [← response_returns_iff capabilities sound feedback]
  refine stops_iff_not_returns fun stop failed => ?_
  unfold dectMacHarqResponse at failed
  split at failed
  · rcases bind_error.mp failed with outside | ⟨_, _, failed⟩
    · exact processIndex_stop outside
    · split at failed
      · exact giveProcess_stop failed
      · cases failed
  · split at failed
    · rcases bind_error.mp failed with outside | ⟨_, _, impossible⟩
      · exact processIndex_stop outside
      · cases impossible
    · cases failed

/-- A successful completion stops exactly when its index is out of bounds. -/
theorem opCompleteCb_stops_iff (handle : BitVec 32) (system : System config) :
    dectMacPhyOpCompleteCb .success handle system = .error .outOfBounds ↔
      ¬ InBounds config (completionIndexes system.phy.currentState handle) := by
  rw [← opCompleteCb_returns_iff]
  refine stops_iff_not_returns fun stop failed => ?_
  unfold dectMacPhyOpCompleteCb at failed
  rw [if_neg (fun failed => failed rfl)] at failed
  split at failed
  · dsimp only at failed
    split at failed
    · rcases bind_error.mp failed with outside | ⟨_, _, impossible⟩
      · exact processIndex_stop outside
      · cases impossible
    · cases failed
  · split at failed <;> cases failed

/-- The put function does not index the processes. -/
theorem dectPhyQueuePut_stop {item : QueueItem} {queue : Queue} {stop : Stop}
    (failed : dectPhyQueuePut item queue = .error stop) : stop = .blocked := by
  unfold dectPhyQueuePut at failed
  dsimp only at failed
  split at failed
  · cases failed
  · split at failed
    · cases failed
      rfl
    · cases failed

/-- A transmit never stops out of bounds. -/
theorem transmit_inside (params : HarqTransmitParams) (heap : Option Nat) {system : System config}
    (sound : system.harq.Sound) :
    dectMacHarqTransmit params heap system ≠ .error .outOfBounds := by
  intro failed
  unfold dectMacHarqTransmit at failed
  rcases takeProcess_cases system.phy.capabilities system.harq with ⟨_, took⟩ | ⟨index, _, took⟩
  · rw [took] at failed
    cases failed
  · rw [took] at failed
    cases heap with
    | none =>
      obtain ⟨given, gave⟩ := giveProcess_returns system.phy.capabilities
        (show ((dectMacHarqInitialize system.phy.capabilities (takenHarq index
          (dectMacHarqInitialize system.phy.capabilities system.harq))).processes
            index).processNumber = (index : Nat) by
          rw [initialize_of_initialized (show (takenHarq index _).initialized = true from
            initialize_initialized system.phy.capabilities system.harq)]
          exact takenHarq_numbered (initialize_numbered sound) index)
      dsimp only at failed
      rw [gave] at failed
      cases failed
    | some address =>
      rcases bind_error.mp failed with refused | ⟨_, _, impossible⟩
      · cases dectPhyQueuePut_stop refused
      · cases impossible

/-- The work of a process never stops out of bounds. -/
theorem work_inside (index : Fin config.harqProcessCount) {system : System config}
    (sound : system.harq.Sound) :
    dectMacHarqRetransmissionWorkHandler index system ≠ .error .outOfBounds := by
  intro failed
  unfold dectMacHarqRetransmissionWorkHandler at failed
  split at failed
  · rcases bind_error.mp failed with refused | ⟨_, _, impossible⟩
    · rcases bind_error.mp refused with refused | ⟨_, _, impossible⟩
      · cases dectPhyQueuePut_stop refused
      · cases impossible
    · cases impossible
  · obtain ⟨given, gave⟩ :=
      giveProcess_returns system.phy.capabilities (initialize_numbered sound index)
    rw [gave] at failed
    cases failed

/-- The functions that an event runs on the process table stop at an index out of bounds. A
received header may also stop in the length table of the reply, which is not meant here. -/
def StopsAtIndex (system : System config) (event : Event config) : Prop :=
  match event with
  | .pcc status header _ =>
    (IsRequest config system.phy.deviceId status header ∧
        requestProcess system.phy.capabilities header system.harq = .error .outOfBounds) ∨
      (¬ IsRequest config system.phy.deviceId status header ∧
        IsResponse config system.phy.deviceId status header ∧
        dectMacHarqResponse system.phy.capabilities header system.harq = .error .outOfBounds)
  | .transmit _ _ => step system event = .error .outOfBounds
  | .workExpired _ => step system event = .error .outOfBounds
  | .opComplete _ _ => step system event = .error .outOfBounds
  | _ => False

/-- The program stops exactly at the indexes that are out of bounds. -/
theorem stopsAtIndex_iff {system : System config} (sound : system.harq.Sound)
    (event : Event config) :
    StopsAtIndex system event ↔ ¬ InBounds config (harqIndexes system event) := by
  cases event with
  | transmit params heap =>
    refine iff_of_false (fun stopped => ?_) (not_not_intro (transmitIndexes_inBounds heap sound))
    rcases bind_error.mp stopped with failed | ⟨_, _, impossible⟩
    · exact transmit_inside params heap sound failed
    · cases impossible
  | workExpired index =>
    refine iff_of_false (fun stopped => ?_) (not_not_intro (workIndexes_inBounds index sound))
    dsimp only [StopsAtIndex, step] at stopped
    split at stopped
    · exact work_inside index (cancelWork_sound sound) stopped
    · cases stopped
  | opComplete position err =>
    dsimp only [StopsAtIndex, step, harqIndexes, completionHandleAt]
    cases found : system.phy.modem[position]? with
    | none => exact iff_of_false nofun (not_not_intro inBounds_nil)
    | some op =>
      dsimp only [Option.bind_some]
      cases op.request.completionHandle with
      | none => exact iff_of_false nofun (not_not_intro inBounds_nil)
      | some handle =>
        dsimp only
        by_cases success : err = .success
        · rw [if_pos success, success]
          exact opCompleteCb_stops_iff handle _
        · rw [if_neg success]
          refine iff_of_false (fun stopped => ?_) (not_not_intro inBounds_nil)
          unfold dectMacPhyOpCompleteCb at stopped
          rw [if_pos success] at stopped
          split at stopped <;> cases stopped
  | pcc status header ret =>
    dsimp only [StopsAtIndex, harqIndexes, headerIndexes]
    by_cases request : IsRequest config system.phy.deviceId status header
    · rw [if_pos request, ← requestProcess_stops_iff system.phy.capabilities header system.harq]
      exact ⟨fun stopped => (stopped.resolve_right fun other => other.1 request).2,
        fun stopped => Or.inl ⟨request, stopped⟩⟩
    · rw [if_neg request]
      by_cases response : IsResponse config system.phy.deviceId status header
      · rw [if_pos response,
          ← response_stops_iff system.phy.capabilities sound response.2.2.2]
        exact ⟨fun stopped => (stopped.resolve_left fun other => request other.1).2.2,
          fun stopped => Or.inr ⟨request, response, stopped⟩⟩
      · rw [if_neg response]
        exact iff_of_false (fun stopped => stopped.elim (fun other => request other.1)
          fun other => response other.2.1) (not_not_intro inBounds_nil)
  | _ => exact iff_of_false id (not_not_intro inBounds_nil)

/-- In every state of every run from boot each process has its own number once the table is
initialized. An event uses indexes of the array only exactly when the header or the handle it
brings names a configured process, and at any other index the program stops out of bounds. -/
theorem indexes_inBounds_iff {start final : System config}
    {steps : List (Transition.Step (System config) (Event config))} (booted : Booted start)
    (run : Run start steps final) :
    (final.harq.initialized = true →
        ∀ index, (final.harq.processes index).processNumber = (index : Nat)) ∧
      ∀ event, (InBounds config (harqIndexes final event) ↔ NamesProcess final event) ∧
        (StopsAtIndex final event ↔ ¬ NamesProcess final event) := by
  have sound := (run_invariant booted run (fun _ => True) (fun _ _ => True) trivial
    (fun _ _ _ _ _ _ _ => trivial) (fun _ _ => trivial)).1
  refine ⟨sound.numbered, fun event => ?_⟩
  have indexes := harqIndexes_inBounds_iff sound event
  exact ⟨indexes, (stopsAtIndex_iff sound event).trans (not_congr indexes)⟩

/-- A packet is on process 0, and then a peer asks for process 3, which the project configures:
both stay in bounds. -/
theorem indexes_inBounds_iff_three :
    ∃ (final : System projectConfig)
      (steps : List (Transition.Step (System projectConfig) (Event projectConfig))),
      Run device steps final ∧ steps.map Transition.Step.label =
          [.transmit smallPacket (some 4096), received (peerRequest 7 5 3)] ∧
        (∀ index, (final.harq.processes index).processNumber = (index : Nat)) ∧
        ¬ StopsAtIndex final (received (peerRequest 7 5 3)) ∧
        StopsAtIndex final (received (peerRequest 7 5 5)) := by
  have run := Transition.followAll_run step device
    [.transmit smallPacket (some 4096), received (peerRequest 7 5 3)] (by decide +kernel)
  obtain ⟨numbered, exact_⟩ := indexes_inBounds_iff device_booted run
  refine ⟨_, _, run, rfl, numbered (by decide +kernel), ?_, ?_⟩
  · rw [(exact_ _).2, not_not]
    exact ⟨fun _ => by decide +kernel, fun other => absurd (by decide +kernel) other⟩
  · refine (exact_ _).2.mpr fun names => ?_
    exact absurd (names.1 (by decide +kernel)) (by decide +kernel)

/-- A request for process 5 of a device with four processes indexes outside the array. -/
theorem index_outOfBounds :
    ¬ ∀ (config : Config) (start final : System config)
        (steps : List (Transition.Step (System config) (Event config))),
      Booted start → Run start steps final →
        ∀ event, InBounds config (harqIndexes final event) := by
  intro inBounds
  have five := inBounds projectConfig device device [] device_booted (Transition.Run.nil device)
    (received (peerRequest 7 5 5)) 5 (by decide +kernel)
  exact absurd five (by decide)

end DectHarq
