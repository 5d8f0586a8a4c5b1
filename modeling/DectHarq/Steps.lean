/-
This file inverts the step function of the system.

An action lists everything one step can do: its constructors are the branches of the
program that a step can take, each with the conditions of the branch and the state it
ends in. Every invariant of the system is proved by cases on it.
-/

import DectHarq.HarqEffects

namespace DectHarq

variable {config : Config}

/-- The HARQ module as a transmit finds it after the initialization. -/
def System.ready (system : System config) : Harq config :=
  dectMacHarqInitialize system.phy.capabilities system.harq

/-- Replace the process table. -/
def System.setHarq (system : System config) (harq : Harq config) : System config :=
  { system with harq := harq }

/-- Replace the node table. -/
def System.setNodes (system : System config) (nodes : NodeTable) : System config :=
  { system with phy := { system.phy with nodes := nodes } }

/-- Replace the state indication. -/
def System.setState (system : System config) (state : PhyState) : System config :=
  { system with phy := { system.phy with currentState := state } }

/-- A handler ran: it set the node table and the state indication, and called the modem. -/
def System.issue (system : System config) (nodes : NodeTable) (state : PhyState)
    (request : ModemRequest) (origin : Origin) (ret : Int) : System config :=
  { system with
    phy := { system.phy with nodes := nodes, currentState := state }.call request origin ret }

/-- The queue when an operation is saved for execution. -/
def Queue.save (queue : Queue) (operation : Operation) (provenance : Provenance) : Queue :=
  { queue with currentOperation := operation, currentProvenance := provenance }

/-- The queue when the executor dispatches an item: it goes back to waiting for the token. -/
def Queue.dispatch (queue : Queue) (item : QueueItem) : Queue :=
  { queue with operationFailedCounter := 0, execThread := .waitPhy }.save item.operation
    item.provenance

/-- The queue when the retry timer runs. -/
def Queue.retry (queue : Queue) : Queue :=
  { queue with timerArmed := false }.save queue.currentOperation.fromQueue
    queue.currentProvenance

/-- What the execution of an operation does to the system whose queue is already saved. -/
inductive Execution (config : Config) (operation : Operation) (provenance : Provenance)
    (ret : Int) (system : System config) : System config → Prop
  | placeholder (none : operation = .placeholder) :
      Execution config operation provenance ret system
        { system with
          phy := { system.phy.awaitReply provenance with currentState := .unknown } }
  | nothing (none : operation = .linkConfig ∨ ∃ code, operation = .unknown code) :
      Execution config operation provenance ret system system
  | call (request : ModemRequest) (state : PhyState) (nodes : NodeTable)
      (issues : Issues operation.fromQueue request) :
      Execution config operation provenance ret system
        (system.issue nodes state request ⟨provenance, true⟩ ret)

/-- One step of the system, by the branches of the program. -/
inductive Action : System config → Event config → System config → Prop
  | refused (system : System config) (params : HarqTransmitParams) (heap : Option Nat)
      (busy : ∀ index, system.ready.occupied index = true)
      (none : (dectMacHarqTakeProcess system.phy.capabilities system.harq).1 = none) :
      Action system (.transmit params heap) (system.setHarq system.ready)
  | dropped (system : System config) (params : HarqTransmitParams)
      (index : Fin config.harqProcessCount) (free : system.ready.occupied index = false)
      (took : (dectMacHarqTakeProcess system.phy.capabilities system.harq).1 = some index) :
      Action system (.transmit params none) (system.setHarq
        (givenHarq system.phy.capabilities index (takenHarq index system.ready)))
  | sent (system : System config) (params : HarqTransmitParams) (address : Nat)
      (index : Fin config.harqProcessCount) (code : ErrorCode) (queue : Queue)
      (free : system.ready.occupied index = false)
      (took : (dectMacHarqTakeProcess system.phy.capabilities system.harq).1 = some index)
      (put : dectPhyQueuePut (harqItem config index
        (filledProcess params address (takenProcess system.ready.packets
          (system.ready.processes index))) params.startTime priorityHigh) system.queue =
        .ok (code, queue)) :
      Action system (.transmit params (some address)) ((system.setHarq
        ((takenHarq index system.ready).modify index (filledProcess params address))).setQueue
          queue)
  | queuePut (system : System config) (operation : Operation) (priority : UInt32)
      (code : ErrorCode) (queue : Queue)
      (put : dectPhyQueuePut ⟨operation, priority, .user⟩ system.queue = .ok (code, queue)) :
      Action system (.queuePut operation priority) (system.setQueue queue)
  | directNothing (system : System config) (ret : Int) :
      Action system (.direct .linkConfig ret) system
  | direct (system : System config) (operation : Operation) (ret : Int)
      (request : ModemRequest) (state : PhyState) (nodes : NodeTable)
      (issues : Issues operation request) :
      Action system (.direct operation ret) (system.issue nodes state request ⟨.user, false⟩ ret)
  | putGet (system : System config) (queue : Queue)
      (ran : putThreadGet system.queue = .ok queue) :
      Action system .putGet (system.setQueue queue)
  | putFree (system : System config) (queue : Queue)
      (ran : putThreadFree system.queue = .ok queue) :
      Action system .putFree (system.setQueue queue)
  | putInsert (system : System config) (queue : Queue)
      (ran : putThreadInsert system.queue = .ok queue) :
      Action system .putInsert (system.setQueue queue)
  | putGive (system : System config) (queue : Queue)
      (ran : putThreadGive system.queue = .ok queue) :
      Action system .putGive (system.setQueue queue)
  | execTakePhy (system : System config) (queue : Queue)
      (ran : execThreadTakePhy system.queue = .ok queue) :
      Action system .execTakePhy ((system.setState .idling).setQueue queue)
  | execTakeItem (system : System config) (queue : Queue)
      (ran : execThreadTakeItem system.queue = .ok queue) :
      Action system .execTakeItem (system.setQueue queue)
  | execRemove (system : System config) (queue : Queue)
      (ran : execThreadRemove system.queue = .ok queue) :
      Action system .execRemove (system.setQueue queue)
  | execDispatch (system after : System config) (item : QueueItem) (ret : Int)
      (executing : system.queue.execThread = .executing item)
      (execution : Execution config item.operation item.provenance ret
        (system.setQueue (system.queue.dispatch item)) after) :
      Action system (.execDispatch ret) after
  | retryTimer (system after : System config) (ret : Int)
      (armed : system.queue.timerArmed = true)
      (execution : Execution config system.queue.currentOperation system.queue.currentProvenance
        ret (system.setQueue system.queue.retry) after) :
      Action system (.retryTimer ret) after
  | retransmitted (system : System config) (index : Fin config.harqProcessCount)
      (nodes : NodeTable) (code : ErrorCode) (queue : Queue)
      (pending : (system.harq.processes index).workPending = true)
      (below : (system.harq.processes index).transmissionCount < config.harqMaxTransmissions)
      (put : dectPhyQueuePut (harqItem config index
        (countedProcess (system.harq.processes index)) 0 priorityMedium) system.queue =
        .ok (code, queue)) :
      Action system (.workExpired index)
        (((system.setHarq (system.harq.modify index countedProcess)).setNodes nodes).setQueue
          queue)
  | expired (system : System config) (index : Fin config.harqProcessCount)
      (pending : (system.harq.processes index).workPending = true)
      (limit : config.harqMaxTransmissions ≤ (system.harq.processes index).transmissionCount) :
      Action system (.workExpired index) (system.setHarq
        (givenHarq system.phy.capabilities index system.ready))
  | completeError (system : System config) (position : Nat) (err : PhyErr) (op : ModemOp)
      (handle : BitVec 32) (found : system.phy.modem[position]? = some op)
      (completes : op.request.completionHandle = some handle)
      (failed : err ≠ .success) (noRetry : err ≠ .invalidStartTime) :
      Action system (.opComplete position err)
        (system.setModem (completeAt position op err system.phy.modem))
  | completeRetry (system : System config) (position : Nat) (op : ModemOp)
      (handle : BitVec 32) (found : system.phy.modem[position]? = some op)
      (completes : op.request.completionHandle = some handle) :
      Action system (.opComplete position .invalidStartTime)
        ((system.setModem (completeAt position op .invalidStartTime system.phy.modem)).setQueue
          (dectMacPhyHandlerQueueOperationFailedRetry system.queue))
  | turn (system : System config) (position : Nat) (op : ModemOp)
      (handle : BitVec 32) (found : system.phy.modem[position]? = some op)
      (completes : op.request.completionHandle = some handle)
      (turns : turnsToReception system.phy.currentState handle = true)
      (other : isHarqHandle handle = false) :
      Action system (.opComplete position .success)
        ((system.setModem (completeAt position op .success system.phy.modem)).setState .receiving)
  | turnHarq (system : System config) (position : Nat) (op : ModemOp)
      (handle : BitVec 32) (index : Fin config.harqProcessCount)
      (found : system.phy.modem[position]? = some op)
      (completes : op.request.completionHandle = some handle)
      (turns : turnsToReception system.phy.currentState handle = true)
      (harqHandle : isHarqHandle handle = true)
      (process : processIndex config (handleProcess handle) = .ok index) :
      Action system (.opComplete position .success)
        (((system.setModem (completeAt position op .success system.phy.modem)).setState
          .receiving).setHarq (scheduleWork index system.harq))
  | completeQueued (system : System config) (position : Nat) (op : ModemOp)
      (handle : BitVec 32) (found : system.phy.modem[position]? = some op)
      (completes : op.request.completionHandle = some handle)
      (stays : turnsToReception system.phy.currentState handle = false)
      (queued : isFromQueue handle = true) :
      Action system (.opComplete position .success)
        ((system.setModem (completeAt position op .success system.phy.modem)).setQueue
          system.queue.givePhy)
  | completeDirect (system : System config) (position : Nat) (op : ModemOp)
      (handle : BitVec 32) (found : system.phy.modem[position]? = some op)
      (completes : op.request.completionHandle = some handle)
      (stays : turnsToReception system.phy.currentState handle = false)
      (direct : isFromQueue handle = false) :
      Action system (.opComplete position .success)
        (system.setModem (completeAt position op .success system.phy.modem))
  | rssiReport (system : System config) (position : Nat) (op : ModemOp)
      (found : system.phy.modem[position]? = some op) (rssi : op.request.isRssi = true) :
      Action system (.rssiReport position) ((system.setModem
        (system.phy.modem.set position { op with reported := true })).setQueue
          system.queue.givePhy)
  | managementGive (system : System config) (position : Nat)
      (capability capabilities : Capabilities) (op : ModemOp)
      (found : system.phy.modem[position]? = some op)
      (management : op.request = .capabilityGet ∨ op.request = .init ∨ op.request = .deinit ∨
        op.request = .timeGet) :
      Action system (.management position .success capability)
        { system with
          phy := { system.phy with
            modem := system.phy.modem.eraseIdx position
            capabilities := capabilities }
          queue := system.queue.givePhy }
  | managementKeep (system : System config) (position : Nat) (err : PhyErr)
      (capability : Capabilities) (op : ModemOp)
      (found : system.phy.modem[position]? = some op)
      (keeps : (∃ handle, op.request = .rxStop handle) ∨ err ≠ .success)
      (management : op.request.completionHandle = none) :
      Action system (.management position err capability)
        (system.setModem (system.phy.modem.eraseIdx position))
  | request (system : System config) (status : PccStatus) (header : PhyHeader) (ret : Int)
      (harq : Harq config) (reply : TxHarqParams) (request : PhyTxParams) (nodes : NodeTable)
      (code : ErrorCode) (queue : Queue)
      (addressed : IsRequest config system.phy.deviceId status header)
      (processed : requestProcess system.phy.capabilities header system.harq = .ok harq)
      (issues : Issues (.txHarq reply) (.txHarq request))
      (handle : reply.handle = BitVec.ofNat 28 (handleHarq + Type2.dfHarqProcessNr.get header) |||
        (1#28 <<< 27))
      (put : dectPhyQueuePut ⟨.placeholder, priorityCritical, .reply harq.replies⟩ system.queue =
        .ok (code, queue)) :
      Action system (.pcc status header ret)
        (((system.setHarq { harq with replies := harq.replies + 1 }).issue nodes
          system.phy.currentState (.txHarq request) ⟨.reply harq.replies, false⟩ ret).setQueue
            queue)
  | response (system : System config) (status : PccStatus) (header : PhyHeader) (ret : Int)
      (harq : Harq config) (nodes : NodeTable)
      (notRequest : ¬ IsRequest config system.phy.deviceId status header)
      (addressed : IsResponse config system.phy.deviceId status header)
      (handled : dectMacHarqResponse system.phy.capabilities header system.harq = .ok harq) :
      Action system (.pcc status header ret) ((system.setHarq harq).setNodes nodes)
  | header (system : System config) (status : PccStatus) (header : PhyHeader) (ret : Int)
      (nodes : NodeTable) (notRequest : ¬ IsRequest config system.phy.deviceId status header)
      (notResponse : ¬ IsResponse config system.phy.deviceId status header) :
      Action system (.pcc status header ret) (system.setNodes nodes)
  | cleanNodes (system : System config) (nodes : NodeTable) :
      Action system .cleanNodes (system.setNodes nodes)

/-- The executions of an operation are those of the execution function. -/
theorem execution_of_switch {operation : Operation} {provenance : Provenance} {ret : Int}
    {system : System config} {phy : Phy} {code : ErrorCode}
    (executed : executeSwitch config operation provenance ret system.phy = .ok (code, phy)) :
    Execution config operation provenance ret system { system with phy := phy } := by
  rcases executeSwitch_cases executed with ⟨placeholder, rfl⟩ | ⟨unknown, rfl⟩ | ⟨_, called⟩
  · exact Execution.placeholder placeholder
  · exact Execution.nothing (Or.inr unknown)
  · rcases callHandler_cases called with ⟨link, rfl⟩ | ⟨request, state, nodes, issues, rfl⟩
    · refine Execution.nothing (Or.inl ?_)
      cases operation <;> first | rfl | cases link
    · exact Execution.call request state nodes issues

theorem transmit_action {params : HarqTransmitParams} {heap : Option Nat}
    {system after : System config} {code : ErrorCode} (sound : system.harq.Sound)
    (returned : dectMacHarqTransmit params heap system = .ok (code, after)) :
    Action system (.transmit params heap) after := by
  unfold dectMacHarqTransmit at returned
  rcases takeProcess_cases system.phy.capabilities system.harq with
    ⟨busy, took⟩ | ⟨index, free, took⟩
  · rw [took] at returned
    obtain ⟨_, rfl⟩ := Prod.mk.inj (ok_inj returned)
    exact Action.refused system params heap busy (by rw [took])
  · rw [took] at returned
    cases heap with
    | none =>
      obtain ⟨given, same, rest⟩ := bind_ok.mp returned
      obtain ⟨_, rfl⟩ := Prod.mk.inj (ok_inj rest)
      have initialized : (takenHarq index system.ready).initialized = true :=
        initialize_initialized _ _
      have ready : dectMacHarqInitialize system.phy.capabilities (takenHarq index system.ready) =
          takenHarq index system.ready := initialize_of_initialized initialized
      have equal : given = givenHarq system.phy.capabilities index
          (takenHarq index system.ready) := by
        rw [← ready]
        refine giveProcess_eq ?_ same
        show ((dectMacHarqInitialize _ (takenHarq index system.ready)).processes
          index).processNumber = _
        rw [ready, takenHarq_processes_self]
        exact initialize_numbered sound index
      rw [equal]
      exact Action.dropped system params index free (by rw [took])
    | some address =>
      obtain ⟨⟨putCode, queue⟩, put, rest⟩ := bind_ok.mp returned
      obtain ⟨_, rfl⟩ := Prod.mk.inj (ok_inj rest)
      refine Action.sent system params address index putCode queue free (by rw [took]) ?_
      rw [modify_processes_self, takenHarq_processes_self] at put
      exact put

theorem work_action {index : Fin config.harqProcessCount} {system after : System config}
    (sound : system.harq.Sound) (pending : (system.harq.processes index).workPending = true)
    (handled : dectMacHarqRetransmissionWorkHandler index
      { system with harq := cancelWork index system.harq } = .ok after) :
    Action system (.workExpired index) after := by
  have counted : ((cancelWork index system.harq).processes index).transmissionCount =
      (system.harq.processes index).transmissionCount := by
    rw [cancelWork, modify_processes_self]
  rcases workHandler_cases handled with ⟨below, code, returned⟩ | ⟨limit, given, same, rfl⟩
  · obtain ⟨nodes, harq, phy, put⟩ := retransmit_cases returned
    have changed : after.harq = system.harq.modify index countedProcess := by
      rw [harq]
      simp only [cancelWork, Harq.modify, Function.update_idem, Function.update_self]
      rfl
    rw [changed, modify_processes_self] at put
    have equal : after = ((system.setHarq (system.harq.modify index countedProcess)).setNodes
        nodes).setQueue after.queue := by
      obtain ⟨afterHarq, afterPhy, afterQueue⟩ := after
      dsimp only at changed phy
      rw [changed, phy]
      rfl
    rw [equal]
    exact Action.retransmitted system index nodes code after.queue pending (counted ▸ below) put
  · have equal := giveProcess_eq (initialize_numbered (cancelWork_sound sound) index) same
    rw [givenHarq_cancelWork] at equal
    rw [equal]
    exact Action.expired system index pending (counted ▸ limit)

theorem completion_action {position : Nat} {err : PhyErr} {op : ModemOp} {handle : BitVec 32}
    {system after : System config} (found : system.phy.modem[position]? = some op)
    (completes : op.request.completionHandle = some handle)
    (called : dectMacPhyOpCompleteCb err handle
      (system.setModem (completeAt position op err system.phy.modem)) = .ok after) :
    Action system (.opComplete position err) after := by
  rcases opCompleteCb_cases called with ⟨failed, noRetry, rfl⟩ | ⟨rfl, rfl⟩ |
    ⟨rfl, turns, other, rfl⟩ | ⟨rfl, turns, harqHandle, index, process, rfl⟩ |
    ⟨rfl, stays, queued, rfl⟩ | ⟨rfl, stays, direct, rfl⟩
  · exact Action.completeError system position err op handle found completes failed noRetry
  · exact Action.completeRetry system position op handle found completes
  · exact Action.turn system position op handle found completes turns other
  · exact Action.turnHarq system position op handle index found completes turns harqHandle process
  · exact Action.completeQueued system position op handle found completes stays queued
  · exact Action.completeDirect system position op handle found completes stays direct

theorem management_action {position : Nat} {err : PhyErr} {capability : Capabilities}
    {op : ModemOp} {system after : System config}
    (found : system.phy.modem[position]? = some op)
    (called : managementStep op.request err capability
      (system.setModem (system.phy.modem.eraseIdx position)) = .ok after) :
    Action system (.management position err capability) after := by
  have keep (management : op.request.completionHandle = none) (failed : err ≠ .success) :=
    Action.managementKeep system position err capability op found (Or.inr failed) management
  have give (capabilities : Capabilities) (management : op.request = .capabilityGet ∨
      op.request = .init ∨ op.request = .deinit ∨ op.request = .timeGet) :=
    Action.managementGive system position capability capabilities op found management
  by_cases success : err = .success
  · subst success
    cases request : op.request with
    | capabilityGet =>
      rw [request] at called
      exact ok_inj called ▸ give capability (Or.inl request)
    | init =>
      rw [request] at called
      exact ok_inj called ▸ give _ (Or.inr (Or.inl request))
    | deinit =>
      rw [request] at called
      exact ok_inj called ▸ give _ (Or.inr (Or.inr (Or.inl request)))
    | timeGet =>
      rw [request] at called
      exact ok_inj called ▸ give _ (Or.inr (Or.inr (Or.inr request)))
    | rxStop handle =>
      rw [request] at called
      exact ok_inj called ▸ Action.managementKeep system position _ capability op found
        (Or.inl ⟨handle, request⟩) (by rw [request]; rfl)
    | _ =>
      rw [request] at called
      cases called
  · cases request : op.request with
    | capabilityGet =>
      rw [request] at called
      rw [← ok_inj called, dectMacPhyCapabilityGetCb, if_neg success]
      exact keep (by rw [request]; rfl) success
    | init =>
      rw [request] at called
      rw [← ok_inj called, managementCb, if_neg success]
      exact keep (by rw [request]; rfl) success
    | deinit =>
      rw [request] at called
      rw [← ok_inj called, managementCb, if_neg success]
      exact keep (by rw [request]; rfl) success
    | timeGet =>
      rw [request] at called
      rw [← ok_inj called, managementCb, if_neg success]
      exact keep (by rw [request]; rfl) success
    | rxStop handle =>
      rw [request] at called
      rw [← ok_inj called, dectMacPhyRxStopCb]
      exact keep (by rw [request]; rfl) success
    | _ =>
      rw [request] at called
      cases called

theorem pcc_action {status : PccStatus} {header : PhyHeader} {ret : Int}
    {system after : System config}
    (received : dectMacPhyPccCb status header ret system = .ok after) :
    Action system (.pcc status header ret) after := by
  obtain ⟨nodes, _, ⟨addressed, code, handled⟩ | ⟨notRequest, addressed, harq, handled, rfl⟩ |
    ⟨notRequest, notResponse, rfl⟩⟩ := pccCb_cases received
  · obtain ⟨harq, reply, request, sentNodes, processed, harqAfter, issues, handle, phyAfter, put⟩ :=
      harqRequest_cases handled
    have equal : after = ((system.setHarq { harq with replies := harq.replies + 1 }).issue
        sentNodes system.phy.currentState (.txHarq request) ⟨.reply harq.replies, false⟩
          ret).setQueue after.queue := by
      obtain ⟨_, _, _⟩ := after
      dsimp only at harqAfter phyAfter
      rw [harqAfter, phyAfter]
      rfl
    rw [equal]
    exact Action.request system status header ret harq reply request sentNodes code after.queue
      addressed processed issues handle put
  · exact Action.response system status header ret harq nodes notRequest addressed handled
  · exact Action.header system status header ret nodes notRequest notResponse

/-- Every step of the system is one of the actions. -/
theorem action_of_step {system after : System config} {event : Event config}
    (sound : system.harq.Sound) (stepped : step system event = .ok after) :
    Action system event after := by
  cases event with
  | transmit params heap =>
    obtain ⟨⟨code, transmitted⟩, returned, rest⟩ := bind_ok.mp stepped
    cases rest
    exact transmit_action sound returned
  | queuePut operation priority =>
    obtain ⟨⟨code, queue⟩, put, rest⟩ := bind_ok.mp stepped
    cases rest
    exact Action.queuePut system operation priority code queue put
  | direct operation ret =>
    obtain ⟨phy, called, rest⟩ := bind_ok.mp stepped
    cases rest
    rcases callHandler_cases called with ⟨rfl, rfl⟩ | ⟨request, state, nodes, issues, rfl⟩
    · exact Action.directNothing system ret
    · exact Action.direct system operation ret request state nodes issues
  | putGet =>
    obtain ⟨queue, ran, rest⟩ := bind_ok.mp stepped
    cases rest
    exact Action.putGet system queue ran
  | putFree =>
    obtain ⟨queue, ran, rest⟩ := bind_ok.mp stepped
    cases rest
    exact Action.putFree system queue ran
  | putInsert =>
    obtain ⟨queue, ran, rest⟩ := bind_ok.mp stepped
    cases rest
    exact Action.putInsert system queue ran
  | putGive =>
    obtain ⟨queue, ran, rest⟩ := bind_ok.mp stepped
    cases rest
    exact Action.putGive system queue ran
  | execTakePhy =>
    obtain ⟨queue, ran, rest⟩ := bind_ok.mp stepped
    cases rest
    exact Action.execTakePhy system queue ran
  | execTakeItem =>
    obtain ⟨queue, ran, rest⟩ := bind_ok.mp stepped
    cases rest
    exact Action.execTakeItem system queue ran
  | execRemove =>
    obtain ⟨queue, ran, rest⟩ := bind_ok.mp stepped
    cases rest
    exact Action.execRemove system queue ran
  | execDispatch ret =>
    dsimp only [step] at stepped
    split at stepped
    · rename_i item executing
      obtain ⟨⟨code, queue, phy⟩, executed, rest⟩ := bind_ok.mp stepped
      obtain ⟨saved, switched⟩ := functionExecute_cases executed
      cases rest
      rw [saved]
      have execution := execution_of_switch (show executeSwitch config item.operation
        item.provenance ret (system.setQueue (system.queue.dispatch item)).phy = .ok (code, phy)
          from switched)
      exact Action.execDispatch system _ item ret executing execution
    · cases stepped
  | retryTimer ret =>
    dsimp only [step] at stepped
    split at stepped
    · rename_i armed
      obtain ⟨⟨code, queue, phy⟩, executed, rest⟩ := bind_ok.mp stepped
      obtain ⟨saved, switched⟩ := functionExecute_cases executed
      cases rest
      rw [saved]
      have execution := execution_of_switch (show executeSwitch config
        system.queue.currentOperation system.queue.currentProvenance ret
          (system.setQueue system.queue.retry).phy = .ok (code, phy) from switched)
      exact Action.retryTimer system _ ret armed execution
    · cases stepped
  | workExpired index =>
    dsimp only [step] at stepped
    split at stepped
    · rename_i pending
      exact work_action sound pending stepped
    · cases stepped
  | opComplete position err =>
    dsimp only [step] at stepped
    split at stepped
    · rename_i op found
      split at stepped
      · rename_i handle completes
        exact completion_action found completes stepped
      · cases stepped
    · cases stepped
  | rssiReport position =>
    dsimp only [step] at stepped
    split at stepped
    · rename_i op found
      split at stepped
      · rename_i rssi
        cases stepped
        exact Action.rssiReport system position op found rssi
      · cases stepped
    · cases stepped
  | management position err capability =>
    dsimp only [step] at stepped
    split at stepped
    · rename_i op found
      exact management_action found stepped
    · cases stepped
  | pcc status header ret => exact pcc_action stepped
  | cleanNodes =>
    cases stepped
    exact Action.cleanNodes system _

end DectHarq
