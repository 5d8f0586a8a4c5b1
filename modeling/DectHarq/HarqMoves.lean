/-
This file abstracts the program to what it does to the process table.

Every atomic action of the system is one of eleven moves on the table, and the move is
decided by the event and the state before it. Two of the moves attempt to queue an
operation of a packet. Quiescence, the bound and the versions of retransmissions, the
new-data bit and the ownership of the data are proved over the moves and carried back by
the one theorem that every step of the system makes its move.
-/

import DectHarq.Steps

namespace DectHarq

variable {config : Config}

/-- What one action does to the process table. -/
inductive HarqMove (config : Config)
  /-- The table is not touched. -/
  | idle
  /-- A transmit finds no free process. -/
  | refused
  /-- A transmit takes a process and gives it back, because its data cannot be copied. -/
  | dropped (index : Fin config.harqProcessCount)
  /-- A transmit takes a process, fills it and attempts to queue its operation. -/
  | sent (index : Fin config.harqProcessCount) (params : HarqTransmitParams) (address : Nat)
  /-- An ACK arrives. -/
  | acked (index : Fin config.harqProcessCount)
  /-- A NACK arrives. -/
  | nacked (index : Fin config.harqProcessCount)
  /-- A feedback of format 6 arrives. -/
  | formatSix (index : Fin config.harqProcessCount)
  /-- The transmission of a combined operation completes. -/
  | completed (index : Fin config.harqProcessCount)
  /-- The work runs below the limit and attempts to queue a retransmission. -/
  | retransmitted (index : Fin config.harqProcessCount)
  /-- The work runs at the limit and gives the process back. -/
  | expired (index : Fin config.harqProcessCount)
  /-- A request of a peer initializes the process it names. -/
  | requested (header : PhyHeader)

/-- The move of a response. -/
def feedbackMove (config : Config) (header : PhyHeader) : HarqMove config :=
  match processIndex config (feedbackProcess header) with
  | .error _ => .idle
  | .ok index =>
    if Type2.feedbackFormat.get header = feedbackFormat1 then
      if Format1.transmissionFeedback.get (headerFeedback header) = ack then .acked index
      else .nacked index
    else .formatSix index

/-- The move of a successful completion with a handle. -/
def completionMove (config : Config) (state : PhyState) (handle : BitVec 32) : HarqMove config :=
  if turnsToReception state handle ∧ isHarqHandle handle then
    match processIndex config (handleProcess handle) with
    | .error _ => .idle
    | .ok index => .completed index
  else .idle

/-- The move of a transmit. -/
def transmitMove (params : HarqTransmitParams) (heap : Option Nat) (system : System config) :
    HarqMove config :=
  match (dectMacHarqTakeProcess system.phy.capabilities system.harq).1, heap with
  | none, _ => .refused
  | some index, none => .dropped index
  | some index, some address => .sent index params address

/-- The move of an expiration of the work of a process. -/
def workMove (index : Fin config.harqProcessCount) (system : System config) : HarqMove config :=
  if (system.harq.processes index).transmissionCount < config.harqMaxTransmissions then
    .retransmitted index
  else .expired index

/-- The move of a received header. -/
def headerMove (status : PccStatus) (header : PhyHeader) (system : System config) :
    HarqMove config :=
  if IsRequest config system.phy.deviceId status header then .requested header
  else if IsResponse config system.phy.deviceId status header then feedbackMove config header
  else .idle

/-- The move of an action, by the event and the state before it. -/
def harqMove (system : System config) : Event config → HarqMove config
  | .transmit params heap => transmitMove params heap system
  | .workExpired index => workMove index system
  | .opComplete position err =>
    match system.phy.modem[position]?.bind fun op => op.request.completionHandle with
    | some handle =>
      if err = .success then completionMove config system.phy.currentState handle else .idle
    | none => .idle
  | .pcc status header _ => headerMove status header system
  | _ => .idle

/-- The moves on the process table. -/
inductive HarqStep : Harq config → HarqMove config → Harq config → Prop
  | idle (harq : Harq config) : HarqStep harq .idle harq
  | refused (harq : Harq config) (capabilities : Capabilities)
      (busy : ∀ index, (dectMacHarqInitialize capabilities harq).occupied index = true) :
      HarqStep harq .refused (dectMacHarqInitialize capabilities harq)
  | dropped (harq : Harq config) (capabilities : Capabilities)
      (index : Fin config.harqProcessCount)
      (free : (dectMacHarqInitialize capabilities harq).occupied index = false) :
      HarqStep harq (.dropped index) (givenHarq capabilities index
        (takenHarq index (dectMacHarqInitialize capabilities harq)))
  | sent (harq : Harq config) (capabilities : Capabilities)
      (index : Fin config.harqProcessCount) (params : HarqTransmitParams) (address : Nat)
      (free : (dectMacHarqInitialize capabilities harq).occupied index = false) :
      HarqStep harq (.sent index params address)
        ((takenHarq index (dectMacHarqInitialize capabilities harq)).modify index
          (filledProcess params address))
  | acked (harq : Harq config) (capabilities : Capabilities)
      (index : Fin config.harqProcessCount) :
      HarqStep harq (.acked index)
        (givenHarq capabilities index (dectMacHarqInitialize capabilities harq))
  | nacked (harq : Harq config) (index : Fin config.harqProcessCount) :
      HarqStep harq (.nacked index) (scheduleWork index (harq.modify index nackedProcess))
  | formatSix (harq : Harq config) (index : Fin config.harqProcessCount) :
      HarqStep harq (.formatSix index) (scheduleWork index (harq.modify index restartedProcess))
  | completed (harq : Harq config) (index : Fin config.harqProcessCount) :
      HarqStep harq (.completed index) (scheduleWork index harq)
  | retransmitted (harq : Harq config) (index : Fin config.harqProcessCount)
      (pending : (harq.processes index).workPending = true)
      (below : (harq.processes index).transmissionCount < config.harqMaxTransmissions) :
      HarqStep harq (.retransmitted index) (harq.modify index countedProcess)
  | expired (harq : Harq config) (capabilities : Capabilities)
      (index : Fin config.harqProcessCount)
      (pending : (harq.processes index).workPending = true)
      (limit : config.harqMaxTransmissions ≤ (harq.processes index).transmissionCount) :
      HarqStep harq (.expired index)
        (givenHarq capabilities index (dectMacHarqInitialize capabilities harq))
  | requested (harq : Harq config) (capabilities : Capabilities) (after : Harq config)
      (header : PhyHeader)
      (handled : requestProcess capabilities header harq = .ok after) :
      HarqStep harq (.requested header) { after with replies := after.replies + 1 }

/-- The operation a move attempts to queue, read from the process table after it. -/
def HarqMove.attempt (after : Harq config) : HarqMove config → Option QueueItem
  | .sent index params _ =>
    some (harqItem config index (after.processes index) params.startTime priorityHigh)
  | .retransmitted index => some (harqItem config index (after.processes index) 0 priorityMedium)
  | _ => none

/-- An operation that HARQ queued for a packet. -/
def Provenance.ofPacket : Provenance → Bool
  | .packet _ _ => true
  | _ => false

/-- All attempts so far to queue operations of packets. -/
def packetCalls (queue : Queue) : List QueueItem :=
  queue.putCalls.filter fun item => item.provenance.ofPacket

/-! ### Every step makes its move -/

theorem packetCalls_put {item : QueueItem} {queue after : Queue} {code : ErrorCode}
    (put : dectPhyQueuePut item queue = .ok (code, after)) :
    packetCalls after =
      packetCalls queue ++ [item].filter fun item => item.provenance.ofPacket := by
  unfold packetCalls
  rw [dectPhyQueuePut_putCalls put, List.filter_append]

/-- The move of a response is what the response does. -/
theorem response_move {capabilities : Capabilities} {header : PhyHeader} {harq after : Harq config}
    (sound : harq.Sound)
    (feedback : Type2.feedbackFormat.get header = feedbackFormat1 ∨
      Type2.feedbackFormat.get header = feedbackFormat6)
    (handled : dectMacHarqResponse capabilities header harq = .ok after) :
    HarqStep harq (feedbackMove config header) after := by
  rcases response_cases handled with ⟨notFormat1, notFormat6, _⟩ | ⟨index, found, rest⟩
  · rcases feedback with format1 | format6
    · exact absurd format1 notFormat1
    · exact absurd format6 notFormat6
  · unfold feedbackMove
    rw [found]
    rcases rest with ⟨format, acked, given⟩ | ⟨format, nacked, rfl⟩ | ⟨format, rfl⟩
    · have same := giveProcess_eq (initialize_numbered (cancelWork_sound sound) index) given
      rw [givenHarq_cancelWork] at same
      simp only [format, acked, if_true]
      exact same ▸ HarqStep.acked harq capabilities index
    · simp only [format, if_true, if_neg nacked]
      exact HarqStep.nacked harq index
    · have other : ¬ feedbackFormat6 = feedbackFormat1 := by decide
      simp only [format, if_neg other]
      exact HarqStep.formatSix harq index

/-- The execution of an operation touches neither the process table nor the log of calls. -/
theorem Execution.keeps {operation : Operation} {provenance : Provenance} {ret : Int}
    {system after : System config}
    (execution : Execution config operation provenance ret system after) :
    after.harq = system.harq ∧ after.queue = system.queue := by
  cases execution with
  | placeholder => exact ⟨rfl, rfl⟩
  | nothing => exact ⟨rfl, rfl⟩
  | call => exact ⟨rfl, rfl⟩

theorem attempt_feedbackMove (header : PhyHeader) (harq : Harq config) :
    (feedbackMove config header).attempt harq = none := by
  unfold feedbackMove
  split
  · rfl
  · split
    · split <;> rfl
    · rfl

theorem putCalls_retry (queue : Queue) :
    (dectMacPhyHandlerQueueOperationFailedRetry queue).putCalls = queue.putCalls := by
  obtain ⟨counter, ⟨_, same⟩ | ⟨_, same⟩⟩ := operationFailedRetry_cases queue <;> rw [same]
  rfl

/-- The move of a completion whose operation is known. -/
theorem harqMove_complete {system : System config} {position : Nat} {op : ModemOp}
    {handle : BitVec 32} (found : system.phy.modem[position]? = some op)
    (completes : op.request.completionHandle = some handle) (err : PhyErr) :
    harqMove system (.opComplete position err) =
      if err = .success then completionMove config system.phy.currentState handle else .idle := by
  have same : (system.phy.modem[position]?.bind fun op => op.request.completionHandle) =
      some handle := by
    rw [found]
    exact completes
  simp only [harqMove, same]

/-- Every action makes its move on the process table, and attempts to queue the operation of a
packet exactly when its move does. -/
theorem Action.move {system after : System config} {event : Event config}
    (sound : system.harq.Sound) (action : Action system event after) :
    HarqStep system.harq (harqMove system event) after.harq ∧
      packetCalls after.queue =
        packetCalls system.queue ++ ((harqMove system event).attempt after.harq).toList := by
  have quiet {move : HarqMove config} {harq : Harq config} {queue : Queue}
      (none : move.attempt harq = none) (same : queue.putCalls = system.queue.putCalls) :
      packetCalls queue = packetCalls system.queue ++ (move.attempt harq).toList := by
    rw [none, packetCalls, same]
    exact (List.append_nil _).symm
  have thread {run : Queue → Except Stop Queue} {queue : Queue}
      (ran : run system.queue = .ok queue) (thread : run ∈ queueThreads) :
      packetCalls queue = packetCalls system.queue ++
        ((HarqMove.idle : HarqMove config).attempt system.harq).toList :=
    quiet rfl (sameOutside_threads ran thread).putCalls
  cases action with
  | refused params heap busy noneFree =>
    have move : harqMove system (.transmit params heap) = .refused := by
      show transmitMove params heap system = _
      simp only [transmitMove, noneFree]
    rw [move]
    exact ⟨HarqStep.refused _ _ busy, quiet rfl rfl⟩
  | dropped params index free took =>
    have move : harqMove system (.transmit params none) = .dropped index := by
      show transmitMove params none system = _
      simp only [transmitMove, took]
    rw [move]
    exact ⟨HarqStep.dropped _ _ index free, quiet rfl rfl⟩
  | sent params address index code queue free took put =>
    have move : harqMove system (.transmit params (some address)) =
        .sent index params address := by
      show transmitMove params (some address) system = _
      simp only [transmitMove, took]
    rw [move]
    refine ⟨HarqStep.sent _ _ index params address free, ?_⟩
    have logged := packetCalls_put put
    show packetCalls queue = _ ++ [harqItem config index (((takenHarq index
      system.ready).modify index (filledProcess params address)).processes index) _ _]
    rw [modify_processes_self, takenHarq_processes_self]
    exact logged
  | queuePut operation priority code queue put =>
    exact ⟨HarqStep.idle _, packetCalls_put put⟩
  | directNothing => exact ⟨HarqStep.idle _, quiet rfl rfl⟩
  | direct => exact ⟨HarqStep.idle _, quiet rfl rfl⟩
  | putGet queue ran => exact ⟨HarqStep.idle _, thread ran (by simp [queueThreads])⟩
  | putFree queue ran => exact ⟨HarqStep.idle _, thread ran (by simp [queueThreads])⟩
  | putInsert queue ran => exact ⟨HarqStep.idle _, thread ran (by simp [queueThreads])⟩
  | putGive queue ran => exact ⟨HarqStep.idle _, thread ran (by simp [queueThreads])⟩
  | execTakePhy queue ran => exact ⟨HarqStep.idle _, thread ran (by simp [queueThreads])⟩
  | execTakeItem queue ran => exact ⟨HarqStep.idle _, thread ran (by simp [queueThreads])⟩
  | execRemove queue ran => exact ⟨HarqStep.idle _, thread ran (by simp [queueThreads])⟩
  | execDispatch _ item ret executing execution =>
    obtain ⟨harq, queue⟩ := execution.keeps
    rw [harq, queue]
    exact ⟨HarqStep.idle _, quiet rfl rfl⟩
  | retryTimer _ ret armed execution =>
    obtain ⟨harq, queue⟩ := execution.keeps
    rw [harq, queue]
    exact ⟨HarqStep.idle _, quiet rfl rfl⟩
  | retransmitted index nodes code queue pending below put =>
    have move : harqMove system (.workExpired index) = .retransmitted index := if_pos below
    rw [move]
    refine ⟨HarqStep.retransmitted _ index pending below, ?_⟩
    have logged := packetCalls_put put
    show packetCalls queue = _ ++ [harqItem config index
      ((system.harq.modify index countedProcess).processes index) _ _]
    rw [modify_processes_self]
    exact logged
  | expired index pending limit =>
    have move : harqMove system (.workExpired index) = .expired index :=
      if_neg (Nat.not_lt_of_le limit)
    rw [move]
    exact ⟨HarqStep.expired _ _ index pending limit, quiet rfl rfl⟩
  | completeError position err op handle found completes failed noRetry =>
    rw [harqMove_complete found completes, if_neg failed]
    exact ⟨HarqStep.idle _, quiet rfl rfl⟩
  | completeRetry position op handle found completes =>
    rw [harqMove_complete found completes, if_neg (by decide)]
    exact ⟨HarqStep.idle _, quiet rfl (putCalls_retry _)⟩
  | turn position op handle found completes turns other =>
    rw [harqMove_complete found completes, if_pos rfl, completionMove, if_neg (by simp [other])]
    exact ⟨HarqStep.idle _, quiet rfl rfl⟩
  | turnHarq position op handle index found completes turns harqHandle process =>
    rw [harqMove_complete found completes, if_pos rfl, completionMove,
      if_pos ⟨turns, harqHandle⟩, process]
    exact ⟨HarqStep.completed _ _, quiet rfl rfl⟩
  | completeQueued position op handle found completes stays queued =>
    rw [harqMove_complete found completes, if_pos rfl, completionMove, if_neg (by simp [stays])]
    exact ⟨HarqStep.idle _, quiet rfl rfl⟩
  | completeDirect position op handle found completes stays direct =>
    rw [harqMove_complete found completes, if_pos rfl, completionMove, if_neg (by simp [stays])]
    exact ⟨HarqStep.idle _, quiet rfl rfl⟩
  | rssiReport => exact ⟨HarqStep.idle _, quiet rfl rfl⟩
  | managementGive => exact ⟨HarqStep.idle _, quiet rfl rfl⟩
  | managementKeep => exact ⟨HarqStep.idle _, quiet rfl rfl⟩
  | request status header ret harq reply request nodes code queue addressed processed _ _ put =>
    have move : harqMove system (.pcc status header ret) = .requested header := if_pos addressed
    rw [move]
    exact ⟨HarqStep.requested _ _ _ _ processed, packetCalls_put put⟩
  | response status header ret harq nodes notRequest addressed handled =>
    have move : harqMove system (.pcc status header ret) = feedbackMove config header := by
      show headerMove status header system = _
      rw [headerMove, if_neg notRequest, if_pos addressed]
    rw [move]
    exact ⟨response_move sound addressed.2.2.2 handled, quiet (attempt_feedbackMove _ _) rfl⟩
  | header status header ret nodes notRequest notResponse =>
    have move : harqMove system (.pcc status header ret) = .idle := by
      show headerMove status header system = _
      rw [headerMove, if_neg notRequest, if_neg notResponse]
    rw [move]
    exact ⟨HarqStep.idle _, quiet rfl rfl⟩
  | cleanNodes => exact ⟨HarqStep.idle _, quiet rfl rfl⟩

/-- The operations of packets that the put function was called with in a step. -/
def newCalls (taken : Transition.Step (System config) (Event config)) : List QueueItem :=
  (packetCalls taken.after.queue).drop (packetCalls taken.before.queue).length

/-- The calls of a step are those its move says. -/
theorem Action.newCalls {system after : System config} {event : Event config}
    (sound : system.harq.Sound) (action : Action system event after) :
    newCalls ⟨system, event, after⟩ = ((harqMove system event).attempt after.harq).toList := by
  rw [DectHarq.newCalls, (action.move sound).2, List.drop_left]

/-! ### Runs -/

theorem scheduleWork_reading {Value : Type} (read : HarqProcess → Value)
    (blind : ∀ process, read { process with workPending := true } = read process)
    (index other : Fin config.harqProcessCount) (harq : Harq config) :
    read ((scheduleWork index harq).processes other) = read (harq.processes other) := by
  unfold scheduleWork
  split
  · exact modify_reading read harq index other _ (blind _)
  · rfl

@[simp] theorem scheduleWork_initialized (index : Fin config.harqProcessCount)
    (harq : Harq config) : (scheduleWork index harq).initialized = harq.initialized := by
  unfold scheduleWork
  split <;> rfl

@[simp] theorem scheduleWork_occupied (index : Fin config.harqProcessCount)
    (harq : Harq config) : (scheduleWork index harq).occupied = harq.occupied := by
  unfold scheduleWork
  split <;> rfl

theorem scheduleWork_of_fresh (index : Fin config.harqProcessCount) {harq : Harq config}
    (fresh : harq.initialized = false) : scheduleWork index harq = harq := by
  unfold scheduleWork
  rw [fresh]
  rfl

/-- A change of one process that keeps its number and its work keeps a table sound. -/
theorem Harq.Sound.modify {harq : Harq config} (sound : harq.Sound)
    (index : Fin config.harqProcessCount) (change : HarqProcess → HarqProcess)
    (number : (change (harq.processes index)).processNumber = (index : Nat) ∨
      (change (harq.processes index)).processNumber = (harq.processes index).processNumber)
    (work : (change (harq.processes index)).workPending = (harq.processes index).workPending) :
    (harq.modify index change).Sound where
  numbered := fun initialized other => by
    by_cases same : other = index
    · subst same
      rw [modify_processes_self]
      exact number.elim id fun kept => kept.trans (sound.numbered initialized other)
    · rw [modify_processes_of_ne _ _ same]
      exact sound.numbered initialized other
  untouched := fun fresh other => by
    refine ⟨(sound.untouched fresh other).1, ?_⟩
    rw [modify_reading (fun process => process.workPending) harq index other change work]
    exact (sound.untouched fresh other).2

theorem Harq.Sound.scheduleWork {harq : Harq config} (sound : harq.Sound)
    (index : Fin config.harqProcessCount) : (scheduleWork index harq).Sound where
  numbered := fun initialized other => by
    rw [scheduleWork_reading (fun process => process.processNumber) (fun _ => rfl)]
    exact sound.numbered (by simpa using initialized) other
  untouched := fun fresh => by
    rw [scheduleWork_initialized] at fresh
    rw [scheduleWork_of_fresh index fresh]
    exact sound.untouched fresh

/-- An initialized table whose processes keep their numbers is sound. -/
theorem sound_of_numbered {harq : Harq config} (initialized : harq.initialized = true)
    (numbered : ∀ index, (harq.processes index).processNumber = (index : Nat)) : harq.Sound where
  numbered := fun _ => numbered
  untouched := fun fresh => by
    rw [initialized] at fresh
    cases fresh

/-- A give-back in a table that was just initialized keeps it sound. -/
theorem givenHarq_sound {capabilities : Capabilities} {index : Fin config.harqProcessCount}
    {harq : Harq config} (initialized : harq.initialized = true)
    (numbered : ∀ other, (harq.processes other).processNumber = (other : Nat)) :
    (givenHarq capabilities index harq).Sound := by
  refine sound_of_numbered initialized fun other => ?_
  by_cases same : other = index
  · subst same
    rw [givenHarq_processes_self]
    exact numbered other
  · rw [givenHarq_processes_of_ne _ _ same]
    exact numbered other

theorem takenHarq_numbered {index : Fin config.harqProcessCount} {harq : Harq config}
    (numbered : ∀ other, (harq.processes other).processNumber = (other : Nat))
    (other : Fin config.harqProcessCount) :
    ((takenHarq index harq).processes other).processNumber = (other : Nat) := by
  by_cases same : other = index
  · subst same
    rw [takenHarq_processes_self]
    exact numbered other
  · rw [takenHarq_processes_of_ne _ same]
    exact numbered other

/-- Every move keeps the table sound. -/
theorem HarqStep.sound {before after : Harq config} {move : HarqMove config}
    (taken : HarqStep before move after) (sound : before.Sound) : after.Sound := by
  cases taken with
  | idle => exact sound
  | refused capabilities =>
    exact sound_of_numbered (initialize_initialized _ _) (initialize_numbered sound)
  | dropped capabilities index =>
    exact givenHarq_sound (initialize_initialized _ _)
      (takenHarq_numbered (initialize_numbered sound))
  | sent capabilities index params address =>
    refine sound_of_numbered (initialize_initialized _ _) fun other => ?_
    rw [modify_reading (fun process => process.processNumber)]
    · exact takenHarq_numbered (initialize_numbered sound) other
    · rfl
  | acked capabilities index =>
    exact givenHarq_sound (initialize_initialized _ _) (initialize_numbered sound)
  | nacked index => exact (sound.modify index _ (Or.inr rfl) rfl).scheduleWork index
  | formatSix index => exact (sound.modify index _ (Or.inr rfl) rfl).scheduleWork index
  | completed index => exact sound.scheduleWork index
  | retransmitted index pending below =>
    have initialized := sound.initialized_of_pending pending
    refine sound_of_numbered initialized fun other => ?_
    rw [modify_reading (fun process => process.processNumber)]
    · exact sound.numbered initialized other
    · rfl
  | expired capabilities index =>
    exact givenHarq_sound (initialize_initialized _ _) (initialize_numbered sound)
  | requested capabilities processed header handled =>
    obtain ⟨named, size, _, rfl⟩ := requestProcess_cases handled
    obtain ⟨numbered, untouched⟩ :=
      sound.modify named (requestedProcess named size) (Or.inl rfl) rfl
    exact ⟨numbered, untouched⟩

variable {start final : System config}
  {steps : List (Transition.Step (System config) (Event config))}

/-- The invariant rule for runs from boot: it is enough that every allowed action on a sound
table keeps the property. -/
theorem run_invariant (booted : Booted start) (run : Run start steps final)
    (property : System config → Prop) (allowed : System config → Event config → Prop)
    (base : property start)
    (kept : ∀ system event after, system.harq.Sound → allowed system event → property system →
      Action system event after → property after)
    (each : ∀ taken ∈ steps, allowed taken.before taken.label) :
    final.harq.Sound ∧ property final := by
  refine run.invariant (fun system : System config => system.harq.Sound ∧ property system) allowed
    ?_ each ⟨?_, base⟩
  · rintro before event after permitted ⟨sound, holds⟩ stepped
    have action := action_of_step sound stepped
    exact ⟨(action.move sound).1.sound sound, kept before event after sound permitted holds action⟩
  · obtain ⟨deviceId, allocations, _, rfl⟩ := booted
    exact boot_sound config

/-- Before every step of a run from boot whose steps are allowed the property holds, the table
is sound, and the step is an action. -/
theorem run_invariant_before (booted : Booted start) (run : Run start steps final)
    (property : System config → Prop) (allowed : System config → Event config → Prop)
    (base : property start)
    (kept : ∀ system event after, system.harq.Sound → allowed system event → property system →
      Action system event after → property after)
    (each : ∀ taken ∈ steps, allowed taken.before taken.label) :
    ∀ taken ∈ steps, taken.before.harq.Sound ∧ property taken.before ∧
      Action taken.before taken.label taken.after := by
  intro taken member
  have before := run.invariant_before
    (fun system : System config => system.harq.Sound ∧ property system) allowed ?_ each ⟨?_, base⟩
    taken member
  · exact ⟨before.1, before.2, action_of_step before.1 (run.taken taken member)⟩
  · rintro before event after permitted ⟨sound, holds⟩ stepped
    have action := action_of_step sound stepped
    exact ⟨(action.move sound).1.sound sound, kept before event after sound permitted holds action⟩
  · obtain ⟨deviceId, allocations, _, rfl⟩ := booted
    exact boot_sound config

/-- Every step of a run from boot is an action on a sound table. -/
theorem actions_of_run (booted : Booted start) (run : Run start steps final) :
    ∀ taken ∈ steps, taken.before.harq.Sound ∧ Action taken.before taken.label taken.after :=
  fun taken member =>
    have before := run_invariant_before booted run (fun _ => True) (fun _ _ => True) trivial
      (fun _ _ _ _ _ _ _ => trivial) (fun _ _ => trivial) taken member
    ⟨before.1, before.2.2⟩

end DectHarq
