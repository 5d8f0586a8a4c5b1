/-
This file traces what a device transmits back to what it was told to transmit.

The application calls the handler of an operation or queues the operation; a transmit of
the application and the work of a process queue the operation of the process. Operations
wait in the queue and in the one that is saved for the retry, and nothing else gets there
but the placeholders of replies. So every call of the modem that transmits is made for an
operation that some step has ordered, with the fit that tx_config finds in the records in
the step of the call; or it is the reply to the header that is just handled.
-/

import DectHarq.Payloads

namespace DectHarq

variable {config : Config}

/-! ### Orders -/

/-- A step calls the put function with the operation of a process, which transmits with these
parameters. -/
def PutsProcess (taken : Transition.Step (System config) (Event config))
    (index : Fin config.harqProcessCount) (input : TxParams) : Prop :=
  ∃ startTime priority,
    harqItem config index (taken.after.harq.processes index) startTime priority ∈ newCalls taken ∧
      input = (harqTxRxParams config (taken.after.harq.processes index) startTime).toTx

/-- A step orders a transmission. -/
inductive Orders (taken : Transition.Step (System config) (Event config)) (input : TxParams) : Prop
  /-- The application calls the handler of an operation. -/
  | called (operation : Operation) (ret : Int) (label : taken.label = .direct operation ret)
      (parameters : operation.toTx = some input)
  /-- The application queues an operation. -/
  | queued (operation : Operation) (priority : UInt32)
      (label : taken.label = .queuePut operation priority)
      (parameters : operation.toTx = some input)
  /-- A transmit of the application queues the operation of the process that it fills. -/
  | sent (params : HarqTransmitParams) (address : Nat) (index : Fin config.harqProcessCount)
      (label : taken.label = .transmit params (some address)) (puts : PutsProcess taken index input)
      (receiver : input.receiverId = params.receiverId)
  /-- The work of a process queues the operation of the process again. -/
  | sentAgain (index : Fin config.harqProcessCount) (label : taken.label = .workExpired index)
      (puts : PutsProcess taken index input)

/-- If an operation transmits, some step has ordered the transmission, up to the handle: the queue
sets a bit of it. -/
def Operation.OrderedIn (steps : List (Transition.Step (System config) (Event config)))
    (operation : Operation) : Prop :=
  ∀ input, operation.toTx = some input →
    ∃ taken ∈ steps, ∃ handle, Orders taken { input with handle := handle }

/-- All that a device waits to execute was ordered. -/
abbrev System.WaitsOrdered (steps : List (Transition.Step (System config) (Event config)))
    (system : System config) : Prop :=
  system.Awaits fun _ operation => operation.OrderedIn steps

section Ordered

variable {steps more : List (Transition.Step (System config) (Event config))}
  {operation : Operation}

theorem Operation.OrderedIn.mono (within : ∀ taken ∈ steps, taken ∈ more)
    (ordered : operation.OrderedIn steps) : operation.OrderedIn more := by
  intro input same
  obtain ⟨taken, member, handle, orders⟩ := ordered input same
  exact ⟨taken, within taken member, handle, orders⟩

theorem Operation.OrderedIn.fromQueue (ordered : operation.OrderedIn steps) :
    operation.fromQueue.OrderedIn steps := by
  intro input queued
  obtain ⟨handle, same⟩ := fromQueue_toTx queued
  obtain ⟨taken, member, first, orders⟩ := ordered _ same
  exact ⟨taken, member, first, orders⟩

end Ordered

/-- A transmit fills its process with its receiver. -/
theorem HarqStep.sent_receiver {before after : Harq config} {index : Fin config.harqProcessCount}
    {params : HarqTransmitParams} {address : Nat}
    (taken : HarqStep before (.sent index params address) after) :
    (after.processes index).receiverId = params.receiverId := by
  cases taken
  rw [modify_processes_self]
  rfl

section Step

variable {system after : System config} {event : Event config}

/-- What HARQ puts is ordered by the transmit that fills the process, or by the work. -/
theorem attempt_ordered {item : QueueItem} (sound : system.harq.Sound)
    (action : Action system event after)
    (attempted : (harqMove system event).attempt after.harq = some item) :
    item.operation.OrderedIn [⟨system, event, after⟩] := by
  rintro input same
  have puts := action.newCalls sound
  rw [attempted] at puts
  obtain ⟨index, startTime, priority, rfl, which⟩ := attempt_harqItem attempted
  cases same
  refine ⟨_, List.mem_singleton_self _,
    (harqTxRxParams config (after.harq.processes index) startTime).handle, ?_⟩
  have puts : PutsProcess ⟨system, event, after⟩ index
      (harqTxRxParams config (after.harq.processes index) startTime).toTx := by
    refine ⟨startTime, priority, ?_, rfl⟩
    rw [puts]
    exact List.mem_singleton_self _
  rcases which with ⟨params, address, move⟩ | move
  · have filled := (action.move sound).1
    rw [move] at filled
    exact .sent params address index (event_of_sent move) puts filled.sent_receiver
  · exact .sentAgain index (event_of_retransmitted move) puts

/-- An action keeps what is waited for ordered. -/
theorem Action.waitsOrdered {earlier : List (Transition.Step (System config) (Event config))}
    (sound : system.harq.Sound) (action : Action system event after)
    (ordered : system.WaitsOrdered earlier) :
    after.WaitsOrdered (earlier ++ [⟨system, event, after⟩]) := by
  refine action.awaits sound (ordered.mono fun _ _ old => old.mono fun _ member =>
    List.mem_append_left _ member) ?_ (fun _ _ old => old.fromQueue) ?_ ?_
  · rintro number input ⟨⟩
  · rintro operation priority rfl input same
    exact ⟨_, List.mem_append_right _ (List.mem_singleton_self _), input.handle,
      .queued operation priority rfl same⟩
  · intro item attempted
    exact (attempt_ordered sound action attempted).mono fun _ member =>
      List.mem_append_right _ member

/-! ### Transmissions -/

/-- A step transmits with some parameters and a fit: it hands over an operation that was ordered,
with the fit for its receiver and data in the records, or it replies to a header. -/
inductive Transmits (earlier : List (Transition.Step (System config) (Event config)))
    (taken : Transition.Step (System config) (Event config)) (input : TxParams) (fit : Fit) : Prop
  | ordered (ordering : Transition.Step (System config) (Event config))
      (member : ordering ∈ earlier ++ [taken]) (orders : Orders ordering input)
      (handle : BitVec 28)
      (handed : transmitted taken.before taken.label = some { input with handle := handle })
      (nodes : NodeTable)
      (fitted : fitPacket config taken.before.phy.capabilities.mcsMax input.receiverId
        input.dataSize taken.before.phy.nodes = .ok (fit, nodes))
  | replied (status : PccStatus) (header : PhyHeader) (ret : Int)
      (label : taken.label = .pcc status header ret) (read nodes : NodeTable)
      (replies : RepliesTo taken.before status header input read)
      (fitted : fitPacket config taken.before.phy.capabilities.mcsMax input.receiverId
        input.dataSize read = .ok (fit, nodes))

/-- The header of a call is the one for some parameters and a fit. -/
structure HeaderOf (config : Config) (deviceId : Nat) (input : TxParams) (fit : Fit)
    (params : PhyTxParams) : Prop where
  phyType : params.phyType = if input.txUsage = .beacon then headerType1 else headerType2
  header : params.header =
    if input.txUsage = .beacon then type1Header config deviceId fit
    else type2Header config deviceId input fit

theorem Configured.headerOf {phy : Phy} {input : TxParams} {params : PhyTxParams}
    (configured : Configured config phy input params) :
    ∃ fit nodes, fitPacket config phy.capabilities.mcsMax input.receiverId input.dataSize
      phy.nodes = .ok (fit, nodes) ∧ HeaderOf config phy.deviceId input fit params := by
  obtain ⟨handle, after, built⟩ := configured
  obtain ⟨⟨fit, nodes⟩, fitted, rest⟩ := bind_ok.mp built
  have same := congrArg Prod.fst (ok_inj rest)
  exact ⟨fit, nodes, fitted, (congrArg PhyTxParams.phyType same).symm,
    (congrArg PhyTxParams.header same).symm⟩

/-- What a step hands over was ordered in an earlier step, or in the step itself. -/
theorem transmitted_ordered {earlier : List (Transition.Step (System config) (Event config))}
    {input : TxParams} (after : System config) (ordered : system.WaitsOrdered earlier)
    (handed : transmitted system event = some input) :
    ∃ ordering ∈ earlier ++ [⟨system, event, after⟩], ∃ handle,
      Orders ordering { input with handle := handle } := by
  have waiting {operation : Operation} (old : operation.OrderedIn earlier)
      (same : operation.toTx = some input) :
      ∃ ordering ∈ earlier ++ [⟨system, event, after⟩], ∃ handle,
        Orders ordering { input with handle := handle } :=
    old.mono (fun _ member => List.mem_append_left _ member) input same
  cases event with
  | direct operation ret =>
    exact ⟨_, List.mem_append_right _ (List.mem_singleton_self _), input.handle,
      .called operation ret rfl handed⟩
  | execDispatch ret =>
    dsimp only [transmitted] at handed
    split at handed
    · rename_i item executing
      exact waiting (ordered.items item (Queue.executing_mem executing)) handed
    · cases handed
  | retryTimer ret => exact waiting ordered.current handed
  | _ => cases handed

/-- A step transmits what was ordered, and replies. -/
theorem step_orders {earlier : List (Transition.Step (System config) (Event config))}
    (sound : system.harq.Sound) (stepped : step system event = .ok after)
    (ordered : system.WaitsOrdered earlier) :
    NewTransmissions (fun params => ∃ input fit,
      Transmits earlier ⟨system, event, after⟩ input fit ∧
        HeaderOf config system.phy.deviceId input fit params) system.phy after.phy := by
  by_cases isPcc : ∃ status header ret, event = .pcc status header ret
  · obtain ⟨status, header, ret, rfl⟩ := isPcc
    rcases pcc_configures stepped with same | ⟨input, read, params, replies, called, configured⟩
    · exact NewTransmissions.of_same same
    · refine NewTransmissions.of_call called fun sending same => ?_
      cases same
      obtain ⟨fit, nodes, fitted, headerOf⟩ := configured.headerOf
      exact ⟨input, fit, .replied status header ret rfl read nodes replies fitted, headerOf⟩
  · refine (step_configures sound stepped
      fun status header ret same => isPcc ⟨status, header, ret, same⟩).mono ?_
    rintro params ⟨input, handle, handed, configured⟩
    obtain ⟨fit, nodes, fitted, headerOf⟩ := configured.headerOf
    obtain ⟨ordering, member, first, orders⟩ := transmitted_ordered after ordered handed
    exact ⟨{ input with handle := first }, fit,
      .ordered ordering member orders handle handed nodes fitted,
      headerOf.phyType, headerOf.header⟩

end Step

/-! ### Runs -/

section Runs

variable {start final : System config}
  {steps earlier later : List (Transition.Step (System config) (Event config))}
  {taken : Transition.Step (System config) (Event config)}

/-- Before every step of a run from boot all that is waited for was ordered. -/
theorem ordered_before (booted : Booted start) (run : Run start steps final)
    (cut : steps = earlier ++ taken :: later) : taken.before.WaitsOrdered earlier := by
  refine run.history_before (fun earlier system => system.WaitsOrdered earlier)
    (fun _ taken => taken.before.harq.Sound ∧ Action taken.before taken.label taken.after)
    ?_ ?_ ?_ cut
  · rintro earlier taken ⟨sound, action⟩ ordered _
    exact action.waitsOrdered sound ordered
  · rintro earlier taken later rfl
    exact actions_of_run booted run taken (List.mem_append_right _ List.mem_cons_self)
  · obtain ⟨_, _, _, rfl⟩ := booted
    exact ⟨fun _ member => absurd member List.not_mem_nil, nofun⟩

/-- Every transmission of every step of a run from boot was ordered, or is a reply. -/
theorem calls_ordered (booted : Booted start) (run : Run start steps final)
    (cut : steps = earlier ++ taken :: later) {call : ModemRequest × Int}
    (called : call ∈ newModemCalls taken) {params : PhyTxParams}
    (transmission : call.1.transmission = some params) :
    ∃ input fit, Transmits earlier taken input fit ∧
      HeaderOf config taken.before.phy.deviceId input fit params := by
  have member : taken ∈ steps := by
    rw [cut]
    exact List.mem_append_right _ List.mem_cons_self
  obtain ⟨calls, log, each⟩ := step_orders (actions_of_run booted run taken member).1
    (run.taken taken member) (ordered_before booted run cut)
  rw [newModemCalls, log, List.drop_left] at called
  exact each call called params transmission

end Runs

end DectHarq
