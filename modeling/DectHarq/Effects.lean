/-
This file says once what each operation of the program can do.

There is one lemma per function: from a successful call it lists the possible results,
with the conditions under which each occurs. Everything proved about runs uses these
lemmas and not the definitions.
-/

import DectHarq.System

namespace DectHarq

variable {config : Config}

/-! ### Sequencing -/

theorem ok_bind {First Second : Type} (value : First) (next : First → Except Stop Second) :
    (Except.ok value >>= next) = next value := rfl

theorem error_bind {First Second : Type} (stop : Stop) (next : First → Except Stop Second) :
    (Except.error stop >>= next) = .error stop := rfl

theorem bind_ok {First Second : Type} {call : Except Stop First}
    {next : First → Except Stop Second} {result : Second} :
    (call >>= next) = .ok result ↔ ∃ value, call = .ok value ∧ next value = .ok result := by
  cases call with
  | error stop =>
    constructor
    · intro same
      cases same
    · rintro ⟨_, same, _⟩
      cases same
  | ok value =>
    constructor
    · exact fun same => ⟨value, rfl, same⟩
    · rintro ⟨_, same, rest⟩
      cases same
      exact rest

theorem bind_error {First Second : Type} {call : Except Stop First}
    {next : First → Except Stop Second} {stop : Stop} :
    (call >>= next) = .error stop ↔
      call = .error stop ∨ ∃ value, call = .ok value ∧ next value = .error stop := by
  cases call with
  | error failure =>
    constructor
    · intro failed
      cases failed
      exact Or.inl rfl
    · rintro (failed | ⟨value, impossible, _⟩)
      · cases failed
        rfl
      · cases impossible
  | ok first =>
    constructor
    · intro failed
      exact Or.inr ⟨first, rfl, failed⟩
    · rintro (impossible | ⟨value, same, failed⟩)
      · cases impossible
      · cases same
        exact failed

theorem ok_inj {Value : Type} {first second : Value}
    (same : (Except.ok first : Except Stop Value) = .ok second) : first = second := by
  cases same
  rfl

/-! ### The queue -/

/-- The queue after a successful put. -/
def Queue.accept (queue : Queue) (item : QueueItem) : Queue :=
  { queue with
    itemSlab := queue.itemSlab + 1
    msgq := queue.msgq ++ [item]
    putCalls := queue.putCalls ++ [item] }

/-- The queue after a put that found no free block: only the log of calls changed. -/
def Queue.refuse (queue : Queue) (item : QueueItem) : Queue :=
  { queue with putCalls := queue.putCalls ++ [item] }

/-- A put either queues the item or finds no free block and changes nothing. -/
theorem dectPhyQueuePut_cases {item : QueueItem} {queue after : Queue} {code : ErrorCode}
    (put : dectPhyQueuePut item queue = .ok (code, after)) :
    (code = .noMemSlab ∧ queueMaxItems ≤ queue.itemSlab ∧ after = queue.refuse item) ∨
      (code = .ok ∧ queue.itemSlab < queueMaxItems ∧ after = queue.accept item) := by
  unfold dectPhyQueuePut at put
  dsimp only at put
  split at put
  · rename_i full
    cases put
    exact Or.inl ⟨rfl, full, rfl⟩
  · rename_i room
    split at put
    · cases put
    · cases put
      exact Or.inr ⟨rfl, Nat.lt_of_not_le room, rfl⟩

/-- A put that returns logs the item. -/
theorem dectPhyQueuePut_putCalls {item : QueueItem} {queue after : Queue} {code : ErrorCode}
    (put : dectPhyQueuePut item queue = .ok (code, after)) :
    after.putCalls = queue.putCalls ++ [item] := by
  rcases dectPhyQueuePut_cases put with ⟨_, _, rfl⟩ | ⟨_, _, rfl⟩ <;> rfl

/-- The retry either gives up and gives the token, or arms the timer. -/
theorem operationFailedRetry_cases (queue : Queue) :
    ∃ counter, (queueMaxRetry < counter ∧ dectMacPhyHandlerQueueOperationFailedRetry queue =
        { queue with operationFailedCounter := counter }.givePhy) ∨
      (counter ≤ queueMaxRetry ∧ dectMacPhyHandlerQueueOperationFailedRetry queue =
        { queue with operationFailedCounter := counter, timerArmed := true }) := by
  unfold dectMacPhyHandlerQueueOperationFailedRetry
  dsimp only
  split
  · rename_i exceeded
    exact ⟨_, Or.inl ⟨exceeded, rfl⟩⟩
  · rename_i within
    exact ⟨_, Or.inr ⟨Nat.le_of_not_lt within, rfl⟩⟩

/-! ### The threads -/

theorem putThreadGet_cases {queue after : Queue} (got : putThreadGet queue = .ok after) :
    ∃ item rest, queue.putThread = .waiting ∧ queue.msgq = item :: rest ∧
      after = { queue with putThread := .fetched item, msgq := rest } := by
  unfold putThreadGet at got
  split at got
  · rename_i item rest waiting message
    exact ⟨item, rest, waiting, message, (ok_inj got).symm⟩
  · cases got
  · cases got

theorem putThreadFree_cases {queue after : Queue} (freed : putThreadFree queue = .ok after) :
    ∃ item, queue.putThread = .fetched item ∧
      after = { queue with putThread := .copied item, itemSlab := queue.itemSlab - 1 } := by
  unfold putThreadFree at freed
  split at freed
  · rename_i item fetched
    exact ⟨item, fetched, (ok_inj freed).symm⟩
  · cases freed

/-- The put thread inserts the item it copied, or ends without a node block or without room in
the list. -/
theorem putThreadInsert_cases {queue after : Queue} (ran : putThreadInsert queue = .ok after) :
    ∃ item, queue.putThread = .copied item ∧ queue.queueMutexLeft = false ∧
      ((queueMaxItems ≤ queue.nodeSlab ∧
          after = { queue with putThread := .returned, queueMutexLeft := true }) ∨
        (queueMaxItems ≤ queue.list.length ∧
          after = { queue with putThread := .returned, nodeSlab := queue.nodeSlab + 1 }) ∨
        (queue.nodeSlab < queueMaxItems ∧ queue.list.length < queueMaxItems ∧
          after = { queue with
            putThread := .inserted
            nodeSlab := queue.nodeSlab + 1
            list := insertNode item queue.list })) := by
  unfold putThreadInsert at ran
  split at ran
  · rename_i item copied
    split at ran
    · cases ran
    · rename_i unlocked
      refine ⟨item, copied, by simpa using unlocked, ?_⟩
      split at ran
      · rename_i full
        exact Or.inl ⟨full, (ok_inj ran).symm⟩
      · rename_i node
        split at ran
        · rename_i full
          exact Or.inr (Or.inl ⟨full, (ok_inj ran).symm⟩)
        · rename_i room
          exact Or.inr (Or.inr ⟨Nat.lt_of_not_le node, Nat.lt_of_not_le room, (ok_inj ran).symm⟩)
  · cases ran

theorem putThreadGive_cases {queue after : Queue} (gave : putThreadGive queue = .ok after) :
    queue.putThread = .inserted ∧ after = { queue.giveItem with putThread := .waiting } := by
  unfold putThreadGive at gave
  split at gave
  · rename_i inserted
    exact ⟨inserted, (ok_inj gave).symm⟩
  · cases gave

theorem execThreadTakePhy_cases {queue after : Queue}
    (took : execThreadTakePhy queue = .ok after) :
    queue.execThread = .waitPhy ∧ queue.phyLayerSem ≠ 0 ∧
      after = { queue with execThread := .waitItem, phyLayerSem := queue.phyLayerSem - 1 } := by
  unfold execThreadTakePhy at took
  split at took
  · rename_i waiting
    split at took
    · cases took
    · rename_i available
      exact ⟨waiting, available, (ok_inj took).symm⟩
  · cases took

theorem execThreadTakeItem_cases {queue after : Queue}
    (took : execThreadTakeItem queue = .ok after) :
    queue.execThread = .waitItem ∧ queue.queueItemSem ≠ 0 ∧
      after = { queue with execThread := .removing, queueItemSem := queue.queueItemSem - 1 } := by
  unfold execThreadTakeItem at took
  split at took
  · rename_i waiting
    split at took
    · cases took
    · rename_i available
      exact ⟨waiting, available, (ok_inj took).symm⟩
  · cases took

/-- The executor removes the head of the list. A permanent item goes to the tail, the node of
another one is freed. -/
theorem execThreadRemove_cases {queue after : Queue} (ran : execThreadRemove queue = .ok after) :
    queue.execThread = .removing ∧ ∃ item rest, queue.list = item :: rest ∧
      ((Permanent item ∧
          after = { queue.giveItem with execThread := .executing item, list := rest ++ [item] }) ∨
        (¬ Permanent item ∧
          after = { queue with
            execThread := .executing item
            list := rest
            nodeSlab := queue.nodeSlab - 1 })) := by
  unfold execThreadRemove at ran
  split at ran
  · rename_i removing
    refine ⟨removing, ?_⟩
    split at ran
    · cases ran
    · split at ran
      · cases ran
      · rename_i item rest list
        refine ⟨item, rest, list, ?_⟩
        split at ran
        · rename_i permanent
          exact Or.inl ⟨permanent, (ok_inj ran).symm⟩
        · rename_i once
          exact Or.inr ⟨once, (ok_inj ran).symm⟩
  · cases ran

/-- The steps of the two threads of the queue, except for the dispatch. -/
def queueThreads : List (Queue → Except Stop Queue) :=
  [putThreadGet, putThreadFree, putThreadInsert, putThreadGive, execThreadTakePhy,
    execThreadTakeItem, execThreadRemove]

theorem mem_queueThreads {run : Queue → Except Stop Queue} :
    run ∈ queueThreads ↔ run = putThreadGet ∨ run = putThreadFree ∨ run = putThreadInsert ∨
      run = putThreadGive ∨ run = execThreadTakePhy ∨ run = execThreadTakeItem ∨
      run = execThreadRemove := by
  simp [queueThreads]

/-- What the threads leave as it is: the log of the put function, and the saved operation, the
timer and the counter of the start-time retry. -/
structure Queue.SameOutside (before after : Queue) : Prop where
  putCalls : after.putCalls = before.putCalls
  operation : after.currentOperation = before.currentOperation
  provenance : after.currentProvenance = before.currentProvenance
  timer : after.timerArmed = before.timerArmed
  counter : after.operationFailedCounter = before.operationFailedCounter

theorem sameOutside_threads {run : Queue → Except Stop Queue} {queue after : Queue}
    (ran : run queue = .ok after) (thread : run ∈ queueThreads) :
    Queue.SameOutside queue after := by
  rcases mem_queueThreads.mp thread with rfl | rfl | rfl | rfl | rfl | rfl | rfl
  · obtain ⟨_, _, _, _, rfl⟩ := putThreadGet_cases ran
    exact ⟨rfl, rfl, rfl, rfl, rfl⟩
  · obtain ⟨_, _, rfl⟩ := putThreadFree_cases ran
    exact ⟨rfl, rfl, rfl, rfl, rfl⟩
  · obtain ⟨_, _, _, ⟨_, rfl⟩ | ⟨_, rfl⟩ | ⟨_, _, rfl⟩⟩ := putThreadInsert_cases ran <;>
      exact ⟨rfl, rfl, rfl, rfl, rfl⟩
  · obtain ⟨_, rfl⟩ := putThreadGive_cases ran
    exact ⟨rfl, rfl, rfl, rfl, rfl⟩
  · obtain ⟨_, _, rfl⟩ := execThreadTakePhy_cases ran
    exact ⟨rfl, rfl, rfl, rfl, rfl⟩
  · obtain ⟨_, _, rfl⟩ := execThreadTakeItem_cases ran
    exact ⟨rfl, rfl, rfl, rfl, rfl⟩
  · obtain ⟨_, _, _, _, ⟨_, rfl⟩ | ⟨_, rfl⟩⟩ := execThreadRemove_cases ran <;>
      exact ⟨rfl, rfl, rfl, rfl, rfl⟩

/-- The executor does not pass a locked mutex. -/
theorem execThreadRemove_unlocked {queue after : Queue} (ran : execThreadRemove queue = .ok after) :
    queue.queueMutexLeft = false := by
  unfold execThreadRemove at ran
  split at ran
  · split at ran
    · cases ran
    · rename_i unlocked
      simpa using unlocked
  · cases ran

/-! ### The handlers -/

/-- A request is the one an operation's handler makes. -/
def Issues : Operation → ModemRequest → Prop
  | .capabilityGet, .capabilityGet => True
  | .init, .init => True
  | .deinit, .deinit => True
  | .timeGet, .timeGet => True
  | .rx params, .rx request => request.handle = composeHandle functionRx params.handle
  | .tx params, .tx request => request.handle = composeHandle functionTx params.handle
  | .txHarq params, .txHarq request => request.handle = composeHandle functionTxHarq params.handle
  | .txRx params, .txRx request _ =>
    request.handle = composeHandle functionTxRx params.handle ∧ request.data = params.data
  | .rssi params, .rssi request => request.handle = params.handle.setWidth 32
  | .rxStop params, .rxStop handle => handle = params.handle
  | _, _ => False

/-- The modem after a call: the operation is added when the call returned zero. -/
def modemAfter (modem : List ModemOp) (request : ModemRequest) (origin : Origin) (ret : Int) :
    List ModemOp :=
  if ret = 0 then modem ++ [⟨request, origin.provenance, origin.awaited, false, false, false⟩]
  else modem

@[simp] theorem call_modem (phy : Phy) (request : ModemRequest) (origin : Origin) (ret : Int) :
    (phy.call request origin ret).modem = modemAfter phy.modem request origin ret := rfl

@[simp] theorem call_capabilities (phy : Phy) (request : ModemRequest) (origin : Origin)
    (ret : Int) : (phy.call request origin ret).capabilities = phy.capabilities := rfl

@[simp] theorem call_deviceId (phy : Phy) (request : ModemRequest) (origin : Origin)
    (ret : Int) : (phy.call request origin ret).deviceId = phy.deviceId := rfl

theorem txConfig_spec {mcsMax deviceId : Nat} {input : TxParams} {nodes after : NodeTable}
    {params : PhyTxParams}
    (configured : dectMacPhyHandlerTxConfig config mcsMax deviceId input nodes =
      .ok (params, after)) : params.data = input.data ∧ params.dataSize = input.dataSize := by
  unfold dectMacPhyHandlerTxConfig at configured
  obtain ⟨⟨fit, fitted⟩, _, rest⟩ := bind_ok.mp configured
  cases rest
  exact ⟨rfl, rfl⟩

/-- A TX_HARQ makes one call with its own handle, and leaves the state indication as it was. -/
theorem txHarq_spec {params : TxHarqParams} {origin : Origin} {ret : Int} {phy after : Phy}
    (sent : dectMacPhyHandlerTxHarq config params origin ret phy = .ok after) :
    ∃ request nodes, Issues (.txHarq params) (.txHarq request) ∧
      after = { phy with nodes := nodes }.call (.txHarq request) origin ret := by
  unfold dectMacPhyHandlerTxHarq at sent
  obtain ⟨⟨trueParams, nodes⟩, _, rest⟩ := bind_ok.mp sent
  cases rest
  refine ⟨_, nodes, ?_, rfl⟩
  rfl

/-- A handler makes the one call its operation names, or none for a link configuration; besides
the modem it changes the state indication and the node table only. -/
theorem callHandler_cases {operation : Operation} {origin : Origin} {ret : Int} {phy after : Phy}
    (called : callHandler config operation origin ret phy = .ok after) :
    (operation = .linkConfig ∧ after = phy) ∨
      ∃ request state nodes, Issues operation request ∧
        after = { phy with nodes := nodes, currentState := state }.call request origin ret := by
  cases operation with
  | linkConfig =>
    cases called
    exact Or.inl ⟨rfl, rfl⟩
  | placeholder => cases called
  | unknown => cases called
  | capabilityGet =>
    cases called
    exact Or.inr ⟨.capabilityGet, _, phy.nodes, trivial, rfl⟩
  | init =>
    cases called
    exact Or.inr ⟨.init, _, phy.nodes, trivial, rfl⟩
  | deinit =>
    cases called
    exact Or.inr ⟨.deinit, _, phy.nodes, trivial, rfl⟩
  | timeGet =>
    cases called
    exact Or.inr ⟨.timeGet, _, phy.nodes, trivial, rfl⟩
  | rx params =>
    cases called
    refine Or.inr ⟨_, _, phy.nodes, ?_, rfl⟩
    rfl
  | rssi params =>
    cases called
    refine Or.inr ⟨_, _, phy.nodes, ?_, rfl⟩
    rfl
  | rxStop params =>
    cases called
    refine Or.inr ⟨_, _, phy.nodes, ?_, rfl⟩
    rfl
  | txHarq params =>
    obtain ⟨request, nodes, issues, same⟩ := txHarq_spec called
    exact Or.inr ⟨.txHarq request, phy.currentState, nodes, issues, same⟩
  | tx params =>
    unfold callHandler dectMacPhyHandlerTx at called
    obtain ⟨⟨trueParams, nodes⟩, configured, rest⟩ := bind_ok.mp called
    cases rest
    refine Or.inr ⟨.tx trueParams, .transmitting, nodes, ?_, rfl⟩
    unfold dectMacPhyHandlerTxConfig at configured
    obtain ⟨_, _, rest⟩ := bind_ok.mp configured
    cases rest
    rfl
  | txRx params =>
    unfold callHandler dectMacPhyHandlerTxRx at called
    obtain ⟨⟨trueParams, nodes⟩, configured, rest⟩ := bind_ok.mp called
    cases rest
    refine Or.inr ⟨_, .transmitting, nodes, ?_, rfl⟩
    exact ⟨rfl, (txConfig_spec configured).1⟩

/-- What executing an operation does: a placeholder gives the token to its reply, an unknown
code does nothing, and any other operation calls its handler with the queue bit set. -/
theorem executeSwitch_cases {operation : Operation} {provenance : Provenance} {ret : Int}
    {phy after : Phy} {code : ErrorCode}
    (executed : executeSwitch config operation provenance ret phy = .ok (code, after)) :
    (operation = .placeholder ∧
        after = { phy.awaitReply provenance with currentState := .unknown }) ∨
      ((∃ unknown, operation = .unknown unknown) ∧ after = phy) ∨
      (operation ≠ .placeholder ∧
        callHandler config operation.fromQueue ⟨provenance, true⟩ ret phy = .ok after) := by
  cases operation with
  | placeholder =>
    cases executed
    exact Or.inl ⟨rfl, rfl⟩
  | unknown unknown =>
    cases executed
    exact Or.inr (Or.inl ⟨⟨unknown, rfl⟩, rfl⟩)
  | _ =>
    obtain ⟨called, same, rest⟩ := bind_ok.mp executed
    cases rest
    exact Or.inr (Or.inr ⟨by simp, same⟩)

/-- Executing an operation saves it and runs the switch. -/
theorem functionExecute_cases {operation : Operation} {provenance : Provenance} {inPlace : Bool}
    {ret : Int} {queue queueAfter : Queue} {phy phyAfter : Phy} {code : ErrorCode}
    (executed : dectMacPhyHandlerQueueFunctionExecute config operation provenance inPlace ret
      queue phy = .ok (code, queueAfter, phyAfter)) :
    queueAfter = { queue with
        currentOperation := if inPlace then operation.fromQueue else operation
        currentProvenance := provenance } ∧
      executeSwitch config operation provenance ret phy = .ok (code, phyAfter) := by
  unfold dectMacPhyHandlerQueueFunctionExecute at executed
  obtain ⟨⟨switchCode, switched⟩, same, rest⟩ := bind_ok.mp executed
  cases rest
  exact ⟨rfl, same⟩

/-! ### Handles -/

theorem handleFunction_composeHandle (function : Nat) (handle : BitVec 28)
    (small : function < 16) : handleFunction (composeHandle function handle) = function := by
  have bits : composeHandle function handle >>> 28 = BitVec.ofNat 32 function := by
    refine BitVec.eq_of_getLsbD_eq fun position bound => ?_
    have low : (0x0fffffff#32).getLsbD (28 + position) = false := by
      rw [BitVec.getLsbD_ofNat, show 0x0fffffff = 2 ^ 28 - 1 from rfl, Nat.testBit_two_pow_sub_one]
      simp
    simp only [composeHandle, BitVec.getLsbD_ushiftRight, BitVec.getLsbD_or,
      BitVec.getLsbD_shiftLeft, BitVec.getLsbD_and, low, BitVec.getLsbD_ofNat]
    by_cases inside : 28 + position < 32
    · simp [inside, bound]
    · have high : function.testBit position = false :=
        Nat.testBit_lt_two_pow (lt_of_lt_of_le small (Nat.pow_le_pow_right (n := 2) (by decide)
          (show 4 ≤ position by omega)))
      simp [inside, high]
  rw [handleFunction, bits, BitVec.toNat_ofNat, Nat.mod_eq_of_lt (by omega)]

end DectHarq
