/-
This file says which headers a device sends.

Every transmission of a handler is built from the parameters of its operation and from the
id of the device. A device that is not told to send feedback by its application sends it
in replies only: the operations that HARQ queues carry none, and the retry repeats the
operation it saved. So a call of the modem is the reply to the header that is just being
handled, or its header is no feedback.
-/

import DectHarq.AddressFilters
import DectHarq.Announcements
import DectHarq.Freshness

namespace DectHarq

variable {config : Config}

/-! ### Built headers -/

/-- The parameters of a call carry the header that a device builds for a transmission, and its
data. -/
structure Built (config : Config) (deviceId : Nat) (input : TxParams) (params : PhyTxParams) :
    Prop where
  data : params.data = input.data
  dataSize : params.dataSize = input.dataSize
  beacon : input.txUsage = .beacon → params.phyType = headerType1 ∧
    ∃ fit, params.header = type1Header config deviceId fit
  other : input.txUsage ≠ .beacon → params.phyType = headerType2 ∧
    ∃ fit, params.header = type2Header config deviceId input fit

theorem txConfig_built {mcsMax deviceId : Nat} {input : TxParams} {nodes after : NodeTable}
    {params : PhyTxParams}
    (configured : dectMacPhyHandlerTxConfig config mcsMax deviceId input nodes =
      .ok (params, after)) : Built config deviceId input params := by
  obtain ⟨data, dataSize⟩ := txConfig_spec configured
  obtain ⟨⟨fit, fitted⟩, _, rest⟩ := bind_ok.mp configured
  cases rest
  exact ⟨data, dataSize, fun beacon => ⟨if_pos beacon, fit, if_pos beacon⟩,
    fun other => ⟨if_neg other, fit, if_neg other⟩⟩

/-- The handle is not a part of the header. -/
theorem Built.withHandle {deviceId : Nat} {input : TxParams} {params : PhyTxParams}
    (built : Built config deviceId input params) (handle : BitVec 32) :
    Built config deviceId input { params with handle := handle } :=
  ⟨built.data, built.dataSize, built.beacon, built.other⟩

/-- What is configured is built for its operation. -/
theorem Configured.built {phy : Phy} {input : TxParams} {params : PhyTxParams}
    (configured : Configured config phy input params) :
    Built config phy.deviceId input params := by
  obtain ⟨handle, nodes, built⟩ := configured
  exact (txConfig_built built).withHandle params.handle

/-- What a handler transmits is built for its operation. -/
theorem callHandler_builds {operation : Operation} {origin : Origin} {ret : Int} {phy after : Phy}
    (called : callHandler config operation origin ret phy = .ok after) :
    NewTransmissions (fun params => ∃ input, operation.toTx = some input ∧
      Built config phy.deviceId input params) phy after := by
  refine (callHandler_configures called).mono ?_
  rintro params ⟨input, same, configured⟩
  exact ⟨input, same, configured.built⟩

/-! ### What a device waits to execute -/

/-- A property of the operations in the queue and of the one saved for the retry, each with its
origin. -/
structure System.Awaits (property : Provenance → Operation → Prop) (system : System config) :
    Prop where
  items : ∀ item ∈ system.queue.items, property item.provenance item.operation
  current : property system.queue.currentProvenance system.queue.currentOperation

/-- A property that holds of all that HARQ queues, and is kept by the queue bit. -/
structure ProgramOperations (config : Config) (property : Provenance → Operation → Prop) :
    Prop where
  boot : property .user .placeholder
  reply : ∀ number, property (.reply number) .placeholder
  packet : ∀ (index : Fin config.harqProcessCount) process startTime priority,
    property (harqItem config index process startTime priority).provenance
      (harqItem config index process startTime priority).operation
  fromQueue : ∀ provenance operation, property provenance operation →
    property provenance operation.fromQueue

section Awaits

variable {property : Provenance → Operation → Prop} {system after : System config}
  {event : Event config}

theorem ProgramOperations.boot_awaits (program : ProgramOperations config property)
    {start : System config} (booted : Booted start) : start.Awaits property := by
  obtain ⟨_, _, _, rfl⟩ := booted
  exact ⟨fun _ member => absurd member List.not_mem_nil, program.boot⟩

/-- An action keeps a property of what is waited for when all that it puts has the property. -/
theorem Action.awaits (sound : system.harq.Sound) (action : Action system event after)
    (awaits : system.Awaits property)
    (reply : ∀ number, property (.reply number) .placeholder)
    (fromQueue : ∀ provenance operation, property provenance operation →
      property provenance operation.fromQueue)
    (own : ∀ operation priority, event = .queuePut operation priority → property .user operation)
    (packet : ∀ item, (harqMove system event).attempt after.harq = some item →
      property item.provenance item.operation) : after.Awaits property where
  items := fun item member => by
    rcases action.items_from sound member with before | user | ⟨placeholder, number, replied⟩ |
      ⟨attempted, _⟩
    · exact awaits.items item before
    · rcases action.put_by_user with ⟨other, code, put, byUser⟩ | ⟨_, within⟩
      · rcases mem_items_put put member with ⟨rfl, _⟩ | queued
        · rw [user]
          exact own _ _ (byUser user)
        · exact awaits.items item queued
      · exact awaits.items item (within item member)
    · rw [placeholder, replied]
      exact reply number
    · exact packet item attempted
  current := by
    rcases action.saved with same | ⟨item, ret, executing, _, dispatched⟩ | ⟨ret, _, _, retried⟩ |
      ⟨position, _, failed⟩
    · rw [same.operation, same.provenance]
      exact awaits.current
    · rw [dispatched]
      exact awaits.items item (Queue.executing_mem executing)
    · rw [retried]
      exact fromQueue _ _ awaits.current
    · rw [failed]
      obtain ⟨counter, ⟨_, same⟩ | ⟨_, same⟩⟩ := operationFailedRetry_cases system.queue <;>
        rw [same] <;> exact awaits.current

/-- What the application queues has the property, so all that is waited for has it. -/
theorem ProgramOperations.awaits (program : ProgramOperations config property)
    (sound : system.harq.Sound) (action : Action system event after)
    (awaits : system.Awaits property)
    (own : ∀ operation priority, event = .queuePut operation priority → property .user operation) :
    after.Awaits property := by
  refine action.awaits sound awaits program.reply program.fromQueue own fun item attempted => ?_
  obtain ⟨index, startTime, priority, rfl, _⟩ := attempt_harqItem attempted
  exact program.packet _ _ _ _

/-- A weaker property is had by all that is waited for. -/
theorem System.Awaits.mono {weaker : Provenance → Operation → Prop}
    (awaits : system.Awaits property)
    (weaken : ∀ provenance operation, property provenance operation →
      weaker provenance operation) : system.Awaits weaker :=
  ⟨fun item member => weaken _ _ (awaits.items item member), weaken _ _ awaits.current⟩

end Awaits

/-! ### Silence -/

/-- An operation sends no feedback. -/
def Operation.Silent (operation : Operation) : Prop :=
  ∀ input, operation.toTx = some input → input.feedback.format = noFeedback

/-- The queue bit changes no feedback. -/
theorem Operation.Silent.fromQueue {operation : Operation} (silent : operation.Silent) :
    operation.fromQueue.Silent := by
  cases operation with
  | tx params =>
    rintro _ ⟨⟩
    exact silent params rfl
  | txHarq params =>
    rintro _ ⟨⟩
    exact silent params.toTx rfl
  | txRx params =>
    rintro _ ⟨⟩
    exact silent params.toTx rfl
  | _ => exact silent

/-- The device waits to send no feedback. -/
abbrev System.Silent (system : System config) : Prop :=
  system.Awaits fun _ => Operation.Silent

theorem programOperations_silent (config : Config) :
    ProgramOperations config fun _ => Operation.Silent where
  boot := nofun
  reply := fun _ => nofun
  packet := by
    rintro index process startTime priority _ ⟨⟩
    rfl
  fromQueue := fun _ _ silent => silent.fromQueue

/-- An event of the application sends no feedback. -/
def Event.Silent : Event config → Prop
  | .queuePut operation _ => operation.Silent
  | .direct operation _ => operation.Silent
  | _ => True

/-- A silent event keeps the device silent. -/
theorem Action.silent {system after : System config} {event : Event config}
    (sound : system.harq.Sound) (action : Action system event after) (silent : system.Silent)
    (own : event.Silent) : after.Silent := by
  refine (programOperations_silent config).awaits sound action silent ?_
  rintro operation priority rfl
  exact own

/-! ### The identity of the device -/

theorem Execution.deviceId {operation : Operation} {provenance : Provenance} {ret : Int}
    {system after : System config}
    (execution : Execution config operation provenance ret system after) :
    after.phy.deviceId = system.phy.deviceId := by
  cases execution with
  | placeholder none =>
    unfold Phy.awaitReply
    split <;> rfl
  | nothing => rfl
  | call => rfl

/-- The id of a device is its own for ever. -/
theorem Action.deviceId {system after : System config} {event : Event config}
    (action : Action system event after) : after.phy.deviceId = system.phy.deviceId := by
  cases action with
  | execDispatch _ item ret executing execution => exact execution.deviceId
  | retryTimer _ ret armed execution => exact execution.deviceId
  | _ => rfl

/-! ### What a step transmits -/

/-- What the execution of an operation transmits is built for it. -/
theorem functionExecute_builds {operation : Operation} {provenance : Provenance} {inPlace : Bool}
    {ret : Int} {queue queueAfter : Queue} {phy after : Phy} {code : ErrorCode}
    (executed : dectMacPhyHandlerQueueFunctionExecute config operation provenance inPlace ret
      queue phy = .ok (code, queueAfter, after)) :
    NewTransmissions (fun params => ∃ input, operation.fromQueue.toTx = some input ∧
      Built config phy.deviceId input params) phy after := by
  refine (functionExecute_configures executed).mono ?_
  rintro params ⟨input, same, configured⟩
  exact ⟨input, same, configured.built⟩

/-- A transmission of a step is built for an operation that was waited for, or for one whose handler
was called. -/
structure TransmitsFor (config : Config) (property : Provenance → Operation → Prop)
    (system : System config) (event : Event config) (params : PhyTxParams) (provenance : Provenance)
    (operation : Operation) (input : TxParams) : Prop where
  allowed : property provenance operation
  origin : handedOver system event = some provenance ∨ provenance = .user
  parameters : operation.toTx = some input
  built : Built config system.phy.deviceId input params

/-- Outside of receptions every transmission is built for an operation with the property of those
that are waited for. -/
theorem step_origins {property : Provenance → Operation → Prop} {system after : System config}
    {event : Event config} (program : ProgramOperations config property)
    (sound : system.harq.Sound) (stepped : step system event = .ok after)
    (awaits : system.Awaits property)
    (own : ∀ operation ret, event = .direct operation ret → property .user operation)
    (outside : ∀ status header ret, event ≠ .pcc status header ret) :
    NewTransmissions (fun params => ∃ provenance operation input,
      TransmitsFor config property system event params provenance operation input)
      system.phy after.phy := by
  cases event with
  | direct operation ret =>
    obtain ⟨phy, called, rest⟩ := bind_ok.mp stepped
    cases rest
    refine (callHandler_builds called).mono ?_
    rintro params ⟨input, same, built⟩
    exact ⟨.user, operation, input, own operation ret rfl, Or.inr rfl, same, built⟩
  | execDispatch ret =>
    dsimp only [step] at stepped
    split at stepped
    · rename_i item executing
      obtain ⟨⟨code, queue, phy⟩, executed, rest⟩ := bind_ok.mp stepped
      cases rest
      refine (functionExecute_builds executed).mono ?_
      rintro params ⟨input, same, built⟩
      refine ⟨item.provenance, item.operation.fromQueue, input, ?_, Or.inl ?_, same, built⟩
      · exact program.fromQueue _ _ (awaits.items item (Queue.executing_mem executing))
      · rw [handedOver, executing]
    · cases stepped
  | retryTimer ret =>
    dsimp only [step] at stepped
    split at stepped
    · rename_i armed
      obtain ⟨⟨code, queue, phy⟩, executed, rest⟩ := bind_ok.mp stepped
      cases rest
      refine (functionExecute_builds executed).mono ?_
      rintro params ⟨input, same, built⟩
      refine ⟨_, _, input, program.fromQueue _ _ awaits.current, Or.inl ?_, same, built⟩
      rw [handedOver, if_pos armed]
    · cases stepped
  | pcc status header ret => exact absurd rfl (outside status header ret)
  | _ =>
    have action := action_of_step sound stepped
    cases action <;> exact NewTransmissions.of_same rfl

/-- Outside of receptions a silent device sends no feedback. -/
theorem step_builds {system after : System config} {event : Event config}
    (sound : system.harq.Sound) (stepped : step system event = .ok after) (silent : system.Silent)
    (own : event.Silent) (outside : ∀ status header ret, event ≠ .pcc status header ret) :
    NewTransmissions (fun params => ∃ input, input.feedback.format = noFeedback ∧
      Built config system.phy.deviceId input params) system.phy after.phy := by
  refine (step_origins (programOperations_silent config) sound stepped silent ?_ outside).mono ?_
  · rintro operation ret rfl
    exact own
  · rintro params ⟨provenance, operation, input, sends⟩
    exact ⟨input, sends.allowed input sends.parameters, sends.built⟩

/-- A request is answered by one TX_HARQ with the feedback for it, and no other header is. -/
theorem pcc_answers {status : PccStatus} {header : PhyHeader} {ret : Int}
    {system after : System config} (stepped : step system (.pcc status header ret) = .ok after) :
    after.phy.modemCalls = system.phy.modemCalls ∨
      (IsRequest config system.phy.deviceId status header ∧
        ∃ request startTime cqi harq,
          after.phy.modemCalls = system.phy.modemCalls ++ [(.txHarq request, ret)] ∧
          Built config system.phy.deviceId (replyParams config header startTime
            (requestFeedback system.phy.capabilities header cqi (harq : Harq config))).toTx
            request) := by
  rcases pcc_configures stepped with same | ⟨_, nodes, params, replies, called, configured⟩
  · exact Or.inl same
  · obtain ⟨_, _, _, _, _, _, rfl⟩ := replies.parameters
    exact Or.inr ⟨replies.request, params, _, _, _, called, configured.built⟩

end DectHarq
