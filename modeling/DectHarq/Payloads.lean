/-
This file proves that the payloads of different packets are never mixed up.

A transmit fills the process it takes with the block of its data, their length and its
receiver. The operations of the packet copy these from there, and wait in the queue and in
the saved operation of the retry, while processes are given back, taken for other packets
and emptied by requests. Whatever the interleaving, what is handed to the modem for a packet
is what the one transmit that took the process for it filled in, or nothing.
-/

import DectHarq.Freshness
import DectHarq.NewData
import DectHarq.SentHeaders

namespace DectHarq

variable {config : Config}

/-! ### Payloads -/

/-- What a process carries for a receiver. -/
structure Payload where
  data : Option Buffer
  dataLen : Nat
  receiverId : Nat
  deriving DecidableEq

/-- Nothing for nobody. -/
def Payload.blank : Payload := ⟨none, 0, 0⟩

def HarqProcess.payload (process : HarqProcess) : Payload :=
  ⟨process.data, process.dataLen, process.receiverId⟩

def TxRxParams.payload (params : TxRxParams) : Payload :=
  ⟨params.data, params.dataSize, params.receiverId⟩

/-- What a transmit copies to the heap at an address. -/
def HarqTransmitParams.payload (params : HarqTransmitParams) (address : Nat) : Payload :=
  ⟨some ⟨address, params.data.take params.dataLen⟩, params.dataLen, params.receiverId⟩

/-- A transmit took a process and filled it. -/
structure Take (config : Config) where
  process : Fin config.harqProcessCount
  payload : Payload
  deriving DecidableEq

/-- The take of a move. A process whose data could not be copied is left without. -/
def HarqMove.take : HarqMove config → Option (Take config)
  | .sent index params address => some ⟨index, params.payload address⟩
  | .dropped index => some ⟨index, .blank⟩
  | _ => none

/-- The take of a step. -/
def taking (taken : Transition.Step (System config) (Event config)) : Option (Take config) :=
  (harqMove taken.before taken.label).take

/-- The takes of a run, in order. The number of a packet is its position among them. -/
def takes (steps : List (Transition.Step (System config) (Event config))) : List (Take config) :=
  steps.filterMap taking

theorem takes_concat (steps : List (Transition.Step (System config) (Event config)))
    (taken : Transition.Step (System config) (Event config)) :
    takes (steps ++ [taken]) = takes steps ++ (taking taken).toList := by
  unfold takes
  rw [List.filterMap_append]
  cases found : taking taken with
  | none => rw [List.filterMap_cons_none found, List.filterMap_nil, Option.toList_none]
  | some take => rw [List.filterMap_cons_some found, List.filterMap_nil, Option.toList_some]

/-- Only a transmit that got a block fills a process. -/
theorem event_of_sent {system : System config} {event : Event config}
    {index : Fin config.harqProcessCount} {params : HarqTransmitParams} {address : Nat}
    (sent : harqMove system event = .sent index params address) :
    event = .transmit params (some address) := by
  cases event with
  | transmit given heap =>
    dsimp only [harqMove, transmitMove] at sent
    split at sent
    · cases sent
    · cases sent
    · cases sent
      rfl
  | workExpired other =>
    dsimp only [harqMove, workMove] at sent
    split at sent <;> cases sent
  | opComplete position err =>
    dsimp only [harqMove, completionMove] at sent
    repeat' split at sent
    all_goals cases sent
  | pcc status header ret =>
    dsimp only [harqMove, headerMove, feedbackMove] at sent
    repeat' split at sent
    all_goals cases sent
  | _ => cases sent

/-- Only the work queues the operation of a process again. -/
theorem event_of_retransmitted {system : System config} {event : Event config}
    {index : Fin config.harqProcessCount} (again : harqMove system event = .retransmitted index) :
    event = .workExpired index := by
  cases event with
  | transmit given heap =>
    dsimp only [harqMove, transmitMove] at again
    split at again <;> cases again
  | workExpired other =>
    dsimp only [harqMove, workMove] at again
    split at again
    · cases again
      rfl
    · cases again
  | opComplete position err =>
    dsimp only [harqMove, completionMove] at again
    repeat' split at again
    all_goals cases again
  | pcc status header ret =>
    dsimp only [harqMove, headerMove, feedbackMove] at again
    repeat' split at again
    all_goals cases again
  | _ => cases again

/-- A take comes from a transmit, or is blank. -/
theorem mem_takes {steps : List (Transition.Step (System config) (Event config))}
    {take : Take config} (member : take ∈ takes steps) :
    take.payload = .blank ∨ ∃ taken ∈ steps, ∃ params address,
      taken.label = .transmit params (some address) ∧ take.payload = params.payload address := by
  obtain ⟨taken, inside, took⟩ := List.mem_filterMap.mp member
  unfold taking at took
  cases move : harqMove taken.before taken.label with
  | sent index params address =>
    rw [move] at took
    cases took
    exact Or.inr ⟨taken, inside, params, address, event_of_sent move, rfl⟩
  | dropped index =>
    rw [move] at took
    cases took
    exact Or.inl rfl
  | _ =>
    rw [move] at took
    cases took

/-- A payload belongs to a packet of a process: it is that of the take of the packet, or blank. -/
def Belongs (list : List (Take config)) (process packet : Nat) (payload : Payload) : Prop :=
  payload = .blank ∨ ∃ take, list[packet]? = some take ∧ (take.process : Nat) = process ∧
    payload = take.payload

/-- Later takes do not change what belongs to a packet. -/
theorem Belongs.mono {list more : List (Take config)} {process packet : Nat} {payload : Payload}
    (belongs : Belongs list process packet payload) :
    Belongs (list ++ more) process packet payload := by
  rcases belongs with blank | ⟨take, found, same⟩
  · exact Or.inl blank
  · refine Or.inr ⟨take, ?_, same⟩
    rw [List.getElem?_append_left (List.getElem?_eq_some_iff.mp found).1, found]

/-! ### The process table -/

/-- A process is emptied, or keeps its payload and its packet. -/
def EmptiedOrKept (before after : HarqProcess) : Prop :=
  after.payload = .blank ∨ (after.payload = before.payload ∧ after.packet = before.packet)

theorem initialize_payload (capabilities : Capabilities) (harq : Harq config)
    (index : Fin config.harqProcessCount) :
    EmptiedOrKept (harq.processes index)
      ((dectMacHarqInitialize capabilities harq).processes index) := by
  unfold dectMacHarqInitialize
  split
  · exact Or.inr ⟨rfl, rfl⟩
  · exact Or.inl rfl

theorem modify_payload (harq : Harq config) (other index : Fin config.harqProcessCount)
    {change : HarqProcess → HarqProcess}
    (each : ∀ process, EmptiedOrKept process (change process)) :
    EmptiedOrKept (harq.processes index) ((harq.modify other change).processes index) := by
  by_cases same : index = other
  · rw [same, modify_processes_self]
    exact each _
  · rw [modify_processes_of_ne _ _ same]
    exact Or.inr ⟨rfl, rfl⟩

theorem EmptiedOrKept.trans {first second third : HarqProcess} (before : EmptiedOrKept first second)
    (after : EmptiedOrKept second third) : EmptiedOrKept first third := by
  rcases after with blank | ⟨payload, packet⟩
  · exact Or.inl blank
  · rcases before with blank | ⟨earlier, number⟩
    · exact Or.inl (payload.trans blank)
    · exact Or.inr ⟨payload.trans earlier, packet.trans number⟩

/-- What a move makes of the payload of a process: it empties it or keeps it with its packet, or
it is the take of the next packet. -/
theorem HarqStep.payload {before after : Harq config} {move : HarqMove config}
    (taken : HarqStep before move after) (index : Fin config.harqProcessCount) :
    EmptiedOrKept (before.processes index) (after.processes index) ∨
      (move.take = some ⟨index, (after.processes index).payload⟩ ∧
        (after.processes index).packet = before.packets) := by
  have scheduled (other : Fin config.harqProcessCount) (harq : Harq config) :
      EmptiedOrKept (harq.processes index) ((scheduleWork other harq).processes index) := by
    unfold scheduleWork
    split
    · exact modify_payload _ _ _ fun _ => Or.inr ⟨rfl, rfl⟩
    · exact Or.inr ⟨rfl, rfl⟩
  have given (capabilities : Capabilities) (other : Fin config.harqProcessCount)
      (harq : Harq config) :
      EmptiedOrKept (harq.processes index) ((givenHarq capabilities other harq).processes index) :=
    modify_payload harq other index fun _ => Or.inl rfl
  cases taken with
  | idle => exact Or.inl (Or.inr ⟨rfl, rfl⟩)
  | refused capabilities => exact Or.inl (initialize_payload _ _ _)
  | dropped capabilities other =>
    by_cases same : index = other
    · subst same
      rw [givenHarq_processes_self]
      exact Or.inl (Or.inl rfl)
    · rw [givenHarq_processes_of_ne _ _ same, takenHarq_processes_of_ne _ same]
      exact Or.inl (initialize_payload _ _ _)
  | sent capabilities other params address =>
    by_cases same : index = other
    · subst same
      rw [modify_processes_self, takenHarq_processes_self]
      exact Or.inr ⟨rfl, initialize_packets _ _⟩
    · rw [modify_processes_of_ne _ _ same, takenHarq_processes_of_ne _ same]
      exact Or.inl (initialize_payload _ _ _)
  | acked capabilities other =>
    exact Or.inl ((initialize_payload _ _ _).trans (given capabilities other _))
  | expired capabilities other =>
    exact Or.inl ((initialize_payload _ _ _).trans (given capabilities other _))
  | nacked other =>
    refine Or.inl (EmptiedOrKept.trans ?_ (scheduled other _))
    exact modify_payload _ _ _ fun _ => Or.inr ⟨rfl, rfl⟩
  | formatSix other =>
    refine Or.inl (EmptiedOrKept.trans ?_ (scheduled other _))
    exact modify_payload _ _ _ fun _ => Or.inr ⟨rfl, rfl⟩
  | completed other => exact Or.inl (scheduled other _)
  | retransmitted other => exact Or.inl (modify_payload _ _ _ fun _ => Or.inr ⟨rfl, rfl⟩)
  | requested capabilities processed header handled =>
    obtain ⟨named, size, _, rfl⟩ := requestProcess_cases handled
    exact Or.inl (modify_payload _ _ _ fun _ => Or.inl rfl)

/-- A move numbers the packets it takes. -/
theorem HarqStep.packets {before after : Harq config} {move : HarqMove config}
    (taken : HarqStep before move after) :
    after.packets = before.packets + move.take.toList.length := by
  cases taken with
  | refused => exact initialize_packets _ _
  | dropped => exact congrArg (· + 1) (initialize_packets _ _)
  | sent => exact congrArg (· + 1) (initialize_packets _ _)
  | acked => exact initialize_packets _ _
  | expired => exact initialize_packets _ _
  | nacked => exact scheduleWork_packets _ _
  | formatSix => exact scheduleWork_packets _ _
  | completed => exact scheduleWork_packets _ _
  | requested capabilities processed header handled =>
    obtain ⟨named, size, _, rfl⟩ := requestProcess_cases handled
    rfl
  | idle => rfl
  | retransmitted => rfl

/-! ### Operations -/

/-- An operation is the TX_RX of a packet of a process, with a payload that belongs to it. -/
def Operation.OfTakes (list : List (Take config)) (process packet : Nat) (operation : Operation) :
    Prop :=
  ∃ params, operation = .txRx params ∧ params.txUsage = .harq ∧
    params.harq.harqProcessNr = process ∧ process < 8 ∧ Belongs list process packet params.payload

theorem Operation.OfTakes.mono {list more : List (Take config)} {process packet : Nat}
    {operation : Operation} (ofTakes : operation.OfTakes list process packet) :
    operation.OfTakes (list ++ more) process packet := by
  obtain ⟨params, same, usage, number, bound, belongs⟩ := ofTakes
  exact ⟨params, same, usage, number, bound, belongs.mono⟩

theorem Operation.OfTakes.fromQueue {list : List (Take config)} {process packet : Nat}
    {operation : Operation} (ofTakes : operation.OfTakes list process packet) :
    operation.fromQueue.OfTakes list process packet := by
  obtain ⟨params, rfl, usage, number, bound, belongs⟩ := ofTakes
  exact ⟨_, rfl, usage, number, bound, belongs⟩

/-- No payload is in a place of another packet: not in the processes, not in the queue, and not in
the operation saved for the retry. -/
structure System.Unmixed (list : List (Take config)) (system : System config) : Prop where
  counted : system.harq.packets = list.length
  processes : ∀ index : Fin config.harqProcessCount,
    Belongs list index (system.harq.processes index).packet
      (system.harq.processes index).payload
  items : ∀ item ∈ system.queue.items, ∀ process packet, item.provenance = .packet process packet →
    item.operation.OfTakes list process packet
  current : ∀ process packet, system.queue.currentProvenance = .packet process packet →
    system.queue.currentOperation.OfTakes list process packet

theorem boot_unmixed {start : System config} (booted : Booted start) : start.Unmixed [] := by
  obtain ⟨_, _, _, rfl⟩ := booted
  exact ⟨rfl, fun _ => Or.inl rfl, fun _ member => absurd member List.not_mem_nil,
    fun _ _ same => by cases same⟩

/-- What HARQ queues for a process is the TX_RX of its packet. -/
theorem harqItem_ofTakes {list : List (Take config)} {harq : Harq config}
    {index : Fin config.harqProcessCount}
    (number : (harq.processes index).processNumber = (index : Nat))
    (belongs : Belongs list index (harq.processes index).packet (harq.processes index).payload)
    (startTime : Nat) (priority : UInt32) {process packet : Nat}
    (own : (harqItem config index (harq.processes index) startTime priority).provenance =
      .packet process packet) :
    (harqItem config index (harq.processes index) startTime priority).operation.OfTakes list
      process packet := by
  cases own
  have small : (index : Nat) < 8 := lt_of_lt_of_le index.isLt config.harqProcessCount_range.2
  refine ⟨_, rfl, rfl, ?_, small, belongs⟩
  show (harq.processes index).processNumber % 2 ^ 3 = index
  rw [number]
  exact Nat.mod_eq_of_lt small

/-- An action leaves every payload with its packet. -/
theorem Action.unmixed {system after : System config} {event : Event config}
    {list : List (Take config)} (sound : system.harq.Sound) (action : Action system event after)
    (unmixed : system.Unmixed list) :
    after.Unmixed (list ++ (harqMove system event).take.toList) := by
  have moved := (action.move sound).1
  have processes (index : Fin config.harqProcessCount) :
      Belongs (list ++ (harqMove system event).take.toList) index
        (after.harq.processes index).packet (after.harq.processes index).payload := by
    rcases moved.payload index with (blank | ⟨payload, packet⟩) | ⟨take, packet⟩
    · exact Or.inl blank
    · rw [payload, packet]
      exact (unmixed.processes index).mono
    · -- The new packet is the last of the takes.
      rw [take, Option.toList_some, packet, unmixed.counted]
      exact Or.inr ⟨_, List.getElem?_concat_length, rfl, rfl⟩
  refine ⟨?_, processes, fun item member process packet own => ?_, fun process packet own => ?_⟩
  · rw [moved.packets, unmixed.counted, List.length_append]
  · rcases action.items_from sound member with before | user | ⟨_, number, reply⟩ | ⟨attempted, _⟩
    · exact (unmixed.items item before process packet own).mono
    · rw [user] at own
      cases own
    · rw [reply] at own
      cases own
    · obtain ⟨index, startTime, priority, rfl, which⟩ := attempt_harqItem attempted
      exact harqItem_ofTakes (moved.attempt_numbered sound which) (processes index) startTime
        priority own
  · rcases action.saved with same | ⟨item, ret, executing, _, dispatched⟩ | ⟨ret, _, _, retried⟩ |
      ⟨position, _, failed⟩
    · rw [same.provenance] at own
      rw [same.operation]
      exact (unmixed.current process packet own).mono
    · rw [dispatched] at own ⊢
      exact (unmixed.items item (Queue.executing_mem executing) process packet own).mono
    · rw [retried] at own ⊢
      exact (unmixed.current process packet own).mono.fromQueue
    · rw [failed] at own ⊢
      obtain ⟨counter, ⟨_, same⟩ | ⟨_, same⟩⟩ := operationFailedRetry_cases system.queue <;>
        rw [same] at own ⊢ <;> exact (unmixed.current process packet own).mono

/-! ### What is handed to the modem -/

/-- A call carries a payload for a process: the data with their length, and in the header the
receiver and the process. -/
structure Payload.CarriedBy (process : Nat) (payload : Payload) (params : PhyTxParams) : Prop where
  data : params.data = payload.data
  dataSize : params.dataSize = payload.dataLen
  phyType : params.phyType = headerType2
  format : Type2.headerFormat.get params.header = headerFormat000
  process : Type2.dfHarqProcessNr.get params.header = process
  receiver : DectHarq.receiverId params.header = payload.receiverId % 65536

/-- The two bytes of a receiver are its id modulo 16 bits. -/
theorem ReadsBack.receiver {deviceId : Nat} {input : TxParams} {fit : Fit} {header : PhyHeader}
    (reads : ReadsBack config deviceId input fit header) :
    receiverId header = input.receiverId % 65536 := by
  have low : (input.receiverId &&& 0xff) % 2 ^ 8 = input.receiverId % 256 := by
    rw [show (0xff : Nat) = 2 ^ 8 - 1 from rfl, Nat.and_two_pow_sub_one_eq_mod, Nat.mod_mod]
  rw [receiverId, reads.receiverIdHi, reads.receiverIdLo, low,
    ← Nat.shiftLeft_add_eq_or_of_lt (Nat.mod_lt _ (by decide)), Nat.shiftLeft_eq,
    Nat.shiftRight_eq_div_pow]
  omega

/-- The execution of a TX_RX makes one call, which is built for it. -/
theorem functionExecute_txRx {params : TxRxParams} {provenance : Provenance} {inPlace : Bool}
    {ret : Int} {queue queueAfter : Queue} {phy after : Phy} {code : ErrorCode}
    (executed : dectMacPhyHandlerQueueFunctionExecute config (.txRx params) provenance inPlace ret
      queue phy = .ok (code, queueAfter, after)) :
    ∃ request reception, after.modemCalls = phy.modemCalls ++ [(.txRx request reception, ret)] ∧
      Built config phy.deviceId
        { params.toTx with handle := withQueueBit params.handle } request := by
  obtain ⟨called, same, rest⟩ := bind_ok.mp (functionExecute_cases executed).2
  cases rest
  obtain ⟨⟨built, nodes⟩, configured, rest⟩ := bind_ok.mp same
  cases rest
  exact ⟨_, _, rfl, (txConfig_built configured).withHandle _⟩

/-- What an operation of a packet hands to the modem carries a payload of the packet. -/
theorem execution_carries {list : List (Take config)} {process packet : Nat}
    {operation : Operation} {provenance : Provenance} {inPlace : Bool} {ret : Int}
    {queue queueAfter : Queue} {phy after : Phy} {code : ErrorCode}
    (ofTakes : operation.OfTakes list process packet)
    (executed : dectMacPhyHandlerQueueFunctionExecute config operation provenance inPlace ret
      queue phy = .ok (code, queueAfter, after)) :
    ∃ payload request reception, Belongs list process packet payload ∧
      after.modemCalls = phy.modemCalls ++ [(.txRx request reception, ret)] ∧
        payload.CarriedBy process request := by
  obtain ⟨params, rfl, usage, number, bound, belongs⟩ := ofTakes
  obtain ⟨request, reception, log, built⟩ := functionExecute_txRx executed
  have notBeacon : params.txUsage ≠ .beacon := by simp [usage]
  obtain ⟨phyType, fit, header⟩ := built.other notBeacon
  obtain ⟨format, named⟩ := type2Header_harq config phy.deviceId fit
    (show { params.toTx with handle := withQueueBit params.handle }.txUsage = .harq from usage)
  have reads := type2Header_reads config phy.deviceId
    { params.toTx with handle := withQueueBit params.handle } fit
  rw [← header] at format named reads
  refine ⟨params.payload, request, reception, belongs, log, ?_⟩
  refine ⟨built.data, built.dataSize, phyType, format, ?_, reads.receiver⟩
  rw [named, show params.toTx.harq.harqProcessNr = process from number]
  exact Nat.mod_eq_of_lt bound

section Runs

variable {start final : System config}
  {steps earlier later : List (Transition.Step (System config) (Event config))}
  {taken : Transition.Step (System config) (Event config)}

/-- Before every step of a run from boot the payloads are in their places. -/
theorem unmixed_before (booted : Booted start) (run : Run start steps final)
    (cut : steps = earlier ++ taken :: later) : taken.before.Unmixed (takes earlier) := by
  refine run.history_before (fun earlier system => system.Unmixed (takes earlier))
    (fun _ taken => taken.before.harq.Sound ∧ Action taken.before taken.label taken.after)
    ?_ ?_ (boot_unmixed booted) cut
  · rintro earlier taken ⟨sound, action⟩ unmixed _
    rw [takes_concat]
    exact action.unmixed sound unmixed
  · rintro earlier taken later rfl
    exact actions_of_run booted run taken (List.mem_append_right _ List.mem_cons_self)

/-- In every run from boot, what is handed to the modem for a packet of a process is one TX_RX that
names the process, with the data, the length and the receiver of the transmit that took the
process for the packet, or with none. -/
theorem packets_unmixed (booted : Booted start) (run : Run start steps final)
    (cut : steps = earlier ++ taken :: later) {process packet : Nat}
    (handed : handedOver taken.before taken.label = some (.packet process packet)) :
    ∃ payload params reception ret, Belongs (takes earlier) process packet payload ∧
      newModemCalls taken = [(.txRx params reception, ret)] ∧ payload.CarriedBy process params := by
  have unmixed := unmixed_before booted run cut
  have stepped : step taken.before taken.label = .ok taken.after := (run.split_at cut).2.1
  obtain ⟨before, label, after⟩ := taken
  dsimp only at handed unmixed stepped
  have called {calls : List (ModemRequest × Int)}
      (log : after.phy.modemCalls = before.phy.modemCalls ++ calls) :
      newModemCalls ⟨before, label, after⟩ = calls := by
    unfold newModemCalls
    dsimp only
    rw [log, List.drop_left]
  cases label with
  | execDispatch ret =>
    dsimp only [handedOver, step] at handed stepped
    split at stepped
    · rename_i item executing
      rw [executing] at handed
      obtain ⟨⟨code, queue, phy⟩, executed, rest⟩ := bind_ok.mp stepped
      cases rest
      have ofTakes := unmixed.items item (Queue.executing_mem executing) process packet
        (Option.some.inj handed)
      obtain ⟨payload, request, reception, belongs, log, carried⟩ :=
        execution_carries ofTakes executed
      exact ⟨payload, request, reception, ret, belongs, called log, carried⟩
    · cases stepped
  | retryTimer ret =>
    dsimp only [handedOver, step] at handed stepped
    split at stepped
    · rename_i armed
      rw [if_pos armed] at handed
      obtain ⟨⟨code, queue, phy⟩, executed, rest⟩ := bind_ok.mp stepped
      cases rest
      obtain ⟨payload, request, reception, belongs, log, carried⟩ :=
        execution_carries (unmixed.current process packet (Option.some.inj handed)) executed
      exact ⟨payload, request, reception, ret, belongs, called log, carried⟩
    · cases stepped
  | _ => cases handed

end Runs

end DectHarq
