/-
This file follows the token of the PHY layer.

The token is the count of `phy_layer_sem`. The executor takes it, and passes it on with
the operation it dispatches: to the modem, to the reply that a placeholder was put for,
or to the start-time retry. The callbacks give it back. They decide from the handle, the
error and the state indication, and none of them knows whether the token is out; nor do
all of them give it. So the token may be doubled and it may be lost: the first part of
this file says when it is not doubled, the second when it is not lost.
-/

import DectHarq.Leaks

namespace DectHarq

variable {config : Config}

/-! ### Who has the token -/

/-- The executor has the token, waiting for an item or about to execute one. -/
def ExecThread.holds : ExecThread → Bool
  | .waitPhy => false
  | _ => true

/-- An operation that the token was given to has not had its final completion, or waits for the
start-time retry. -/
def System.Outstanding (system : System config) : Prop :=
  system.queue.timerArmed = true ∨ ∃ op ∈ system.phy.modem, op.awaited = true

instance (system : System config) : Decidable system.Outstanding :=
  inferInstanceAs (Decidable (_ ∨ _))

/-- The kinds of operations whose own callbacks give the token. -/
def ModemRequest.managed : ModemRequest → Bool
  | .capabilityGet => true
  | .init => true
  | .deinit => true
  | .timeGet => true
  | _ => false

/-- The callback of an event gives the token. -/
def givesToken (system : System config) : Event config → Bool
  | .opComplete position err =>
    match system.phy.modem[position]?.bind fun op => op.request.completionHandle with
    | some handle =>
      (err = .success && !turnsToReception system.phy.currentState handle && isFromQueue handle) ||
        (err = .invalidStartTime && !decide system.queue.RetriesLeft)
    | none => false
  | .rssiReport _ => true
  | .management position err _ =>
    err = .success && (system.phy.modem[position]?.map fun op => op.request.managed) = some true
  | _ => false

/-- The last completion of a queued operation gives the token. -/
theorem givesToken_of_queued {system : System config} {position : Nat} {op : ModemOp}
    {handle : BitVec 32} (found : system.phy.modem[position]? = some op)
    (completes : op.request.completionHandle = some handle)
    (stays : turnsToReception system.phy.currentState handle = false)
    (queued : isFromQueue handle = true) :
    givesToken system (.opComplete position .success) = true := by
  simp [givesToken, found, completes, stays, queued]

/-- The callback of a managed operation gives the token. -/
theorem givesToken_of_managed {system : System config} {position : Nat}
    {capability : Capabilities} {op : ModemOp} (found : system.phy.modem[position]? = some op)
    (management : op.request = .capabilityGet ∨ op.request = .init ∨ op.request = .deinit ∨
      op.request = .timeGet) :
    givesToken system (.management position .success capability) = true := by
  rcases management with same | same | same | same <;>
    simp [givesToken, found, same, ModemRequest.managed]

/-- The callback of an RX_STOP and that of a failed operation give nothing. -/
theorem givesToken_of_unmanaged {system : System config} {position : Nat} {err : PhyErr}
    {capability : Capabilities} {op : ModemOp} (found : system.phy.modem[position]? = some op)
    (keeps : (∃ handle, op.request = .rxStop handle) ∨ err ≠ .success) :
    givesToken system (.management position err capability) = false := by
  rcases keeps with ⟨handle, stop⟩ | failed
  · simp [givesToken, found, stop, ModemRequest.managed]
  · simp [givesToken, failed]

/-- The operations of the modem that an event does not complete. -/
def remaining (system : System config) : Event config → List ModemOp
  | .opComplete position err =>
    match system.phy.modem[position]? with
    | some op => completeAt position op err system.phy.modem
    | none => system.phy.modem
  | .management position _ _ => system.phy.modem.eraseIdx position
  | _ => system.phy.modem

/-- Neither the token nor who has it has changed in the queue. -/
structure Queue.SameToken (before after : Queue) : Prop where
  count : after.phyLayerSem = before.phyLayerSem
  holds : after.execThread.holds = before.execThread.holds
  timer : after.timerArmed = before.timerArmed

theorem Queue.SameToken.refl (queue : Queue) : Queue.SameToken queue queue := ⟨rfl, rfl, rfl⟩

theorem sameToken_put {item : QueueItem} {queue after : Queue} {code : ErrorCode}
    (put : dectPhyQueuePut item queue = .ok (code, after)) : Queue.SameToken queue after := by
  rcases dectPhyQueuePut_cases put with ⟨_, _, rfl⟩ | ⟨_, _, rfl⟩ <;> exact ⟨rfl, rfl, rfl⟩

/-- No step of a thread moves the token, but the one that takes it and the dispatch. -/
theorem sameToken_threads {run : Queue → Except Stop Queue} {queue after : Queue}
    (ran : run queue = .ok after) (thread : run = putThreadGet ∨ run = putThreadFree ∨
      run = putThreadInsert ∨ run = putThreadGive ∨ run = execThreadTakeItem ∨
      run = execThreadRemove) : Queue.SameToken queue after := by
  rcases thread with rfl | rfl | rfl | rfl | rfl | rfl
  · obtain ⟨_, _, _, _, rfl⟩ := putThreadGet_cases ran
    exact ⟨rfl, rfl, rfl⟩
  · obtain ⟨_, _, rfl⟩ := putThreadFree_cases ran
    exact ⟨rfl, rfl, rfl⟩
  · obtain ⟨_, _, _, ⟨_, rfl⟩ | ⟨_, rfl⟩ | ⟨_, _, rfl⟩⟩ := putThreadInsert_cases ran <;>
      exact ⟨rfl, rfl, rfl⟩
  · obtain ⟨_, rfl⟩ := putThreadGive_cases ran
    exact ⟨rfl, rfl, rfl⟩
  · obtain ⟨waiting, _, rfl⟩ := execThreadTakeItem_cases ran
    exact ⟨rfl, by rw [waiting]; rfl, rfl⟩
  · obtain ⟨removing, _, _, _, ⟨_, rfl⟩ | ⟨_, rfl⟩⟩ := execThreadRemove_cases ran <;>
      exact ⟨rfl, by rw [removing]; rfl, rfl⟩

/-! ### The token is not doubled -/

/-- There is one token: the executor has none while one is available, and while an operation is
outstanding there is no other. -/
structure System.Exclusive (system : System config) : Prop where
  bounded : system.queue.phyLayerSem ≤ 1
  single : system.queue.execThread.holds = true → system.queue.phyLayerSem = 0
  outstanding : system.Outstanding →
    system.queue.phyLayerSem = 0 ∧ system.queue.execThread.holds = false

/-- The token is given only when nobody else has it, and the start-time retry takes over only
when the token is neither available nor with the executor. -/
structure SingleToken (system : System config) (event : Event config) : Prop where
  gives : givesToken system event = true → system.queue.execThread.holds = false ∧
    system.queue.timerArmed = false ∧ ∀ op ∈ remaining system event, op.awaited = false
  arms : event.failsStart = true → system.queue.RetriesLeft →
    system.queue.phyLayerSem = 0 ∧ system.queue.execThread.holds = false

instance (system : System config) (event : Event config) : Decidable (SingleToken system event) :=
  decidable_of_iff (_ ∧ _)
    ⟨fun ⟨gives, arms⟩ => ⟨gives, arms⟩, fun ⟨gives, arms⟩ => ⟨gives, arms⟩⟩

/-- A step that leaves the token where it is and makes no operation wait for it. -/
theorem System.Exclusive.frame {before after : System config} (exclusive : before.Exclusive)
    (same : Queue.SameToken before.queue after.queue)
    (awaited : ∀ op ∈ after.phy.modem, op.awaited = true →
      ∃ old ∈ before.phy.modem, old.awaited = true) : after.Exclusive where
  bounded := same.count ▸ exclusive.bounded
  single := fun holds => by
    rw [same.holds] at holds
    rw [same.count]
    exact exclusive.single holds
  outstanding := fun out => by
    rw [same.count, same.holds]
    refine exclusive.outstanding ?_
    rcases out with armed | ⟨op, member, waits⟩
    · exact Or.inl (same.timer ▸ armed)
    · exact Or.inr (awaited op member waits)

/-- When nobody has the token it may be available. -/
theorem System.Exclusive.of_idle {system : System config} (bounded : system.queue.phyLayerSem ≤ 1)
    (free : system.queue.execThread.holds = false) (timer : system.queue.timerArmed = false)
    (idle : ∀ op ∈ system.phy.modem, op.awaited = false) : system.Exclusive where
  bounded := bounded
  single := fun holds => by
    rw [free] at holds
    cases holds
  outstanding := fun out => by
    rcases out with armed | ⟨op, member, waits⟩
    · rw [timer] at armed
      cases armed
    · rw [idle op member] at waits
      cases waits

/-- While the token is taken and not with the executor, operations may be outstanding. -/
theorem System.Exclusive.of_passed {system : System config}
    (count : system.queue.phyLayerSem = 0) (free : system.queue.execThread.holds = false) :
    system.Exclusive where
  bounded := count ▸ Nat.zero_le 1
  single := fun _ => count
  outstanding := fun _ => ⟨count, free⟩

/-- What an event leaves at the modem was awaited before. -/
theorem awaited_completeAt {position : Nat} {op : ModemOp} {err : PhyErr} {modem : List ModemOp}
    (found : modem[position]? = some op) :
    ∀ other ∈ completeAt position op err modem, other.awaited = true →
      ∃ old ∈ modem, old.awaited = true := by
  intro other member waits
  obtain ⟨old, oldMember, _, same⟩ := mem_completeAt found member
  exact ⟨old, oldMember, same ▸ waits⟩

/-- A call that is not made for the executor adds no awaited operation. -/
theorem awaited_modemAfter {modem : List ModemOp} {request : ModemRequest} {origin : Origin}
    {ret : Int} (direct : origin.awaited = false) :
    ∀ op ∈ modemAfter modem request origin ret, op.awaited = true →
      ∃ old ∈ modem, old.awaited = true := by
  intro op member waits
  rcases mem_modemAfter member with old | rfl
  · exact ⟨op, old, waits⟩
  · rw [direct] at waits
    cases waits

/-- A step that does not double the token keeps it single. -/
theorem Action.exclusive {system after : System config} {event : Event config}
    (once : SingleToken system event) (exclusive : system.Exclusive)
    (action : Action system event after) : after.Exclusive := by
  have still {queue : Queue} (same : Queue.SameToken system.queue queue)
      {harq : Harq config} {phy : Phy} (modem : phy.modem = system.phy.modem) :
      System.Exclusive ⟨harq, phy, queue⟩ := by
    refine exclusive.frame same fun op member waits => ⟨op, ?_, waits⟩
    rw [← modem]
    exact member
  cases action with
  | sent params address index code queue free took put => exact still (sameToken_put put) rfl
  | retransmitted index nodes code queue pending below put => exact still (sameToken_put put) rfl
  | queuePut operation priority code queue put => exact still (sameToken_put put) rfl
  | request status header ret harq reply request nodes code queue addressed _ _ _ put =>
    exact exclusive.frame (sameToken_put put) (awaited_modemAfter rfl)
  | direct operation ret request state nodes issues =>
    exact exclusive.frame (Queue.SameToken.refl _) (awaited_modemAfter rfl)
  | putGet queue ran => exact still (sameToken_threads ran (by simp)) rfl
  | putFree queue ran => exact still (sameToken_threads ran (by simp)) rfl
  | putInsert queue ran => exact still (sameToken_threads ran (by simp)) rfl
  | putGive queue ran => exact still (sameToken_threads ran (by simp)) rfl
  | execTakePhy queue ran =>
    obtain ⟨waiting, available, rfl⟩ := execThreadTakePhy_cases ran
    have idle : ¬ system.Outstanding := fun out => available (exclusive.outstanding out).1
    have taken : system.queue.phyLayerSem - 1 = 0 := Nat.sub_eq_zero_of_le exclusive.bounded
    exact ⟨taken ▸ Nat.zero_le 1, fun _ => taken, fun out => absurd out idle⟩
  | execTakeItem queue ran => exact still (sameToken_threads ran (by simp)) rfl
  | execRemove queue ran => exact still (sameToken_threads ran (by simp)) rfl
  | execDispatch _ item ret executing execution =>
    have count := exclusive.single (by rw [executing]; rfl)
    refine System.Exclusive.of_passed ?_ ?_
    · rw [execution.keeps.2]
      exact count
    · rw [execution.keeps.2]
      rfl
  | retryTimer _ ret armed execution =>
    obtain ⟨count, free⟩ := exclusive.outstanding (Or.inl armed)
    refine System.Exclusive.of_passed ?_ ?_
    · rw [execution.keeps.2]
      exact count
    · rw [execution.keeps.2]
      exact free
  | completeError position err op handle found =>
    exact exclusive.frame (Queue.SameToken.refl _) (awaited_completeAt found)
  | turn position op handle found =>
    exact exclusive.frame (Queue.SameToken.refl _) (awaited_completeAt found)
  | turnHarq position op handle index found =>
    exact exclusive.frame (Queue.SameToken.refl _) (awaited_completeAt found)
  | completeDirect position op handle found =>
    exact exclusive.frame (Queue.SameToken.refl _) (awaited_completeAt found)
  | completeRetry position op handle found completes =>
    by_cases left : system.queue.RetriesLeft
    · obtain ⟨count, free⟩ := once.arms rfl left
      rw [failedRetry_arms left]
      exact System.Exclusive.of_passed count free
    · have gives : givesToken system (.opComplete position .invalidStartTime) = true := by
        simp [givesToken, found, completes, left]
      obtain ⟨free, timer, idle⟩ := once.gives gives
      simp only [remaining, found] at idle
      rw [failedRetry_gives left]
      exact System.Exclusive.of_idle (Nat.min_le_right _ _) free timer idle
  | completeQueued position op handle found completes stays queued =>
    obtain ⟨free, timer, idle⟩ :=
      once.gives (givesToken_of_queued found completes stays queued)
    simp only [remaining, found] at idle
    exact System.Exclusive.of_idle (Nat.min_le_right _ _) free timer idle
  | rssiReport position op found rssi =>
    obtain ⟨free, timer, idle⟩ := once.gives rfl
    refine System.Exclusive.of_idle (Nat.min_le_right _ _) free timer fun other member => ?_
    rcases List.mem_or_eq_of_mem_set member with old | rfl
    · exact idle other old
    · exact idle op (List.mem_of_getElem? found)
  | managementGive position capability capabilities op found management =>
    obtain ⟨free, timer, idle⟩ := once.gives (givesToken_of_managed found management)
    exact System.Exclusive.of_idle (Nat.min_le_right _ _) free timer idle
  | managementKeep position err capability op found keeps management =>
    exact exclusive.frame (Queue.SameToken.refl _) fun other member waits =>
      ⟨other, List.mem_of_mem_eraseIdx member, waits⟩
  | _ => exact still (Queue.SameToken.refl _) rfl

/-- While the token is available nobody else has it. -/
theorem System.Exclusive.available {system : System config} (exclusive : system.Exclusive)
    (count : system.queue.phyLayerSem = 1) :
    system.queue.execThread.holds = false ∧ system.queue.timerArmed = false ∧
      ∀ op ∈ system.phy.modem, op.awaited = false := by
  have taken : ¬ system.queue.phyLayerSem = 0 := by omega
  refine ⟨?_, ?_, fun op member => ?_⟩
  · by_contra holds
    exact taken (exclusive.single (by simpa using holds))
  · by_contra armed
    exact taken (exclusive.outstanding (Or.inl (by simpa using armed))).1
  · by_contra waits
    exact taken (exclusive.outstanding (Or.inr ⟨op, member, by simpa using waits⟩)).1

theorem givePhy_count (queue : Queue) : queue.givePhy.phyLayerSem = 1 :=
  Nat.min_eq_right (Nat.le_add_left _ _)

/-- A step that keeps the token single does not double it. -/
theorem Action.singleToken {system after : System config} {event : Event config}
    (action : Action system event after) (exclusive : after.Exclusive) :
    SingleToken system event where
  gives := fun gives => by
    cases action with
    | completeError position err op handle found completes failed noRetry =>
      simp [givesToken, found, completes, failed, noRetry] at gives
    | completeRetry position op handle found completes =>
      have exhausted : ¬ system.queue.RetriesLeft := by
        simpa [givesToken, found, completes] using gives
      rw [failedRetry_gives exhausted] at exclusive
      simp only [remaining, found]
      exact exclusive.available (givePhy_count _)
    | turn position op handle found completes turns =>
      simp [givesToken, found, completes, turns] at gives
    | turnHarq position op handle index found completes turns =>
      simp [givesToken, found, completes, turns] at gives
    | completeQueued position op handle found =>
      simp only [remaining, found]
      exact exclusive.available (givePhy_count _)
    | completeDirect position op handle found completes stays direct =>
      simp [givesToken, found, completes, direct] at gives
    | rssiReport position op found rssi =>
      obtain ⟨free, timer, idle⟩ := exclusive.available (givePhy_count _)
      refine ⟨free, timer, fun other member => ?_⟩
      rcases mem_set_of_ne found member with kept | rfl
      · exact idle other kept
      · obtain ⟨bound, _⟩ := List.getElem?_eq_some_iff.mp found
        exact idle { other with reported := true } (List.mem_set bound _)
    | managementGive position capability capabilities op found management =>
      exact exclusive.available (givePhy_count _)
    | managementKeep position err capability op found keeps management =>
      rw [givesToken_of_unmanaged found keeps] at gives
      cases gives
    | _ => cases gives
  arms := fun fails left => by
    cases action with
    | completeError position err op handle found completes failed noRetry =>
      cases err with
      | invalidStartTime => exact absurd rfl noRetry
      | _ => cases fails
    | completeRetry position op handle found completes =>
      rw [failedRetry_arms left] at exclusive
      exact exclusive.outstanding (Or.inl rfl)
    | _ => cases fails

theorem Event.eq_execDispatch {event : Event config} (dispatches : event.dispatches = true) :
    ∃ ret, event = .execDispatch ret := by
  cases event with
  | execDispatch ret => exact ⟨ret, rfl⟩
  | _ => cases dispatches

theorem boot_exclusive {start : System config} (booted : Booted start) : start.Exclusive := by
  obtain ⟨deviceId, allocations, _, rfl⟩ := booted
  exact System.Exclusive.of_idle (le_refl 1) rfl rfl fun _ member => absurd member List.not_mem_nil

/-- In every state of a run from boot there is one token, exactly when no step of the run doubles
it. -/
theorem exclusive_iff {start final : System config}
    {steps : List (Transition.Step (System config) (Event config))} (booted : Booted start)
    (run : Run start steps final) :
    (∀ taken ∈ steps, taken.before.Exclusive ∧ taken.after.Exclusive) ↔
      ∀ taken ∈ steps, SingleToken taken.before taken.label := by
  constructor
  · intro exclusive taken member
    exact (actions_of_run booted run taken member).2.singleToken (exclusive taken member).2
  · intro once taken member
    obtain ⟨_, before, action⟩ := run_invariant_before booted run
      (fun system => system.Exclusive) SingleToken (boot_exclusive booted)
      (fun system event after _ once exclusive action => action.exclusive once exclusive) once
      taken member
    exact ⟨before, action.exclusive (once taken member) before⟩

/-- In every run from boot whose steps do not double the token, the executor dispatches an
operation only while no operation it dispatched earlier, and no reply that a placeholder
was dispatched for, is at the modem or waits for the start-time retry. -/
theorem dispatch_exclusive {start final : System config}
    {steps : List (Transition.Step (System config) (Event config))} (booted : Booted start)
    (run : Run start steps final)
    (once : ∀ taken ∈ steps, SingleToken taken.before taken.label) :
    ∀ taken ∈ steps, ∀ ret, taken.label = .execDispatch ret → ¬ taken.before.Outstanding := by
  intro taken member ret label out
  have exclusive := ((exclusive_iff booted run).mpr once taken member).1
  have free := (exclusive.outstanding out).2
  have action := (actions_of_run booted run taken member).2
  rw [label] at action
  cases action with
  | execDispatch item _ _ executing =>
    rw [executing] at free
    cases free

/-- The packet that is acknowledged in time, and a second operation after it. -/
def twoOperations : List (Event projectConfig) :=
  promptAck ++ .queuePut .timeGet priorityLow :: carriedToModem

/-- The executor dispatches two operations, the second one after the first has completed. -/
theorem dispatch_exclusive_twoOperations :
    ((Transition.followAll step device twoOperations).filter
        fun taken => taken.label.dispatches).length = 2 ∧
      ∀ taken ∈ Transition.followAll step device twoOperations, ∀ ret,
        taken.label = .execDispatch ret → ¬ taken.before.Outstanding :=
  ⟨by decide +kernel, dispatch_exclusive device_booted
    (Transition.followAll_run step device twoOperations (by decide +kernel)) (by decide +kernel)⟩

/-- A queued RSSI measurement reports once, and the executor goes on while it still runs. -/
def reportedMeasurement : List (Event projectConfig) :=
  .queuePut (.rssi ⟨0, 10, 1, 0⟩) priorityLow :: carriedToModem ++
    .rssiReport 0 :: .queuePut .timeGet priorityLow :: carriedToModem

/-- The first report of a measurement gives the token, and a second operation is dispatched
before the measurement completes. -/
theorem dispatch_not_exclusive :
    ¬ ∀ (start final : System projectConfig)
        (steps : List (Transition.Step (System projectConfig) (Event projectConfig))),
      Booted start → Run start steps final → ∀ taken ∈ steps, ∀ ret,
        taken.label = .execDispatch ret → ¬ taken.before.Outstanding := by
  intro exclusive
  have run := Transition.followAll_run step device reportedMeasurement (by decide +kernel)
  have each := exclusive _ _ _ device_booted run
  have second : ∃ taken ∈ Transition.followAll step device reportedMeasurement,
      taken.label.dispatches = true ∧ ∃ op ∈ taken.before.phy.modem, op.awaited = true := by
    decide +kernel
  obtain ⟨taken, member, dispatches, waits⟩ := second
  obtain ⟨ret, label⟩ := Event.eq_execDispatch dispatches
  exact each taken member ret label (Or.inr waits)

/-! ### The token is not lost -/

/-- While no operation is outstanding, the token is available or the executor has it. -/
def System.NotLost (system : System config) : Prop :=
  ¬ system.Outstanding →
    system.queue.phyLayerSem = 1 ∨ system.queue.execThread.holds = true

instance (system : System config) : Decidable system.NotLost :=
  inferInstanceAs (Decidable (_ → _))

/-- The handler of an operation calls the modem. -/
def Operation.calls : Operation → Bool
  | .placeholder => false
  | .linkConfig => false
  | .unknown _ => false
  | _ => true

/-- The reply of a provenance is at the modem. -/
def Phy.HasReply (phy : Phy) : Provenance → Prop
  | .reply number => ∃ op ∈ phy.modem, op.provenance = .reply number
  | _ => False

instance (phy : Phy) : DecidablePred phy.HasReply := fun provenance =>
  match provenance with
  | .reply _ => inferInstanceAs (Decidable (∃ _ ∈ _, _))
  | .user => inferInstanceAs (Decidable False)
  | .packet _ _ => inferInstanceAs (Decidable False)

/-- The retry timer expires. -/
def Event.expires : Event config → Bool
  | .retryTimer _ => true
  | _ => false

/-- The operation that an event executes, and who queued it. -/
def handedOperation (system : System config) : Event config → Option (Operation × Provenance)
  | .execDispatch _ =>
    match system.queue.execThread with
    | .executing item => some (item.operation, item.provenance)
    | _ => none
  | .retryTimer _ =>
    if system.queue.timerArmed then
      some (system.queue.currentOperation, system.queue.currentProvenance)
    else none
  | _ => none

/-- The operation that an event completes for the last time. -/
def finished (system : System config) : Event config → Option ModemOp
  | .opComplete position _ =>
    system.phy.modem[position]?.filter fun op => !(op.request.isTxRx && !op.secondHalf)
  | .management position _ _ => system.phy.modem[position]?
  | _ => none

/-- There is a second token that the event does not touch. -/
def System.Spare (system : System config) (event : Event config) : Prop :=
  system.queue.phyLayerSem = 1 ∨
    (system.queue.execThread.holds = true ∧ event.dispatches = false) ∨
    (system.queue.timerArmed = true ∧ event.expires = false) ∨
    ∃ op ∈ remaining system event, op.awaited = true

instance (system : System config) (event : Event config) : Decidable (system.Spare event) :=
  inferInstanceAs (Decidable (_ ∨ _ ∨ _ ∨ _))

/-- Who has the token passes it on: an executed operation is accepted by the modem, or is the
placeholder of a reply at the modem, and the last completion of an operation that has the
token gives it or starts the retry. -/
structure PassesOn (system : System config) (event : Event config) : Prop where
  executes : ∀ handed ∈ handedOperation system event,
    (event.returns = 0 ∧ handed.1.calls = true) ∨
      (handed.1 = .placeholder ∧ system.phy.HasReply handed.2) ∨ system.Spare event
  finishes : ∀ op ∈ finished system event, op.awaited = true →
    givesToken system event = true ∨ event.failsStart = true ∨ system.Spare event

instance (system : System config) (event : Event config) : Decidable (PassesOn system event) :=
  decidable_of_iff (_ ∧ _)
    ⟨fun ⟨executes, finishes⟩ => ⟨executes, finishes⟩,
      fun ⟨executes, finishes⟩ => ⟨executes, finishes⟩⟩

/-- A placeholder gives its token to its reply, if the reply is at the modem. -/
theorem awaited_awaitReply (phy : Phy) (provenance : Provenance) :
    (∃ op ∈ (phy.awaitReply provenance).modem, op.awaited = true) ↔
      phy.HasReply provenance ∨ ∃ op ∈ phy.modem, op.awaited = true := by
  cases provenance with
  | user => exact ⟨Or.inr, fun waits => waits.resolve_left id⟩
  | packet => exact ⟨Or.inr, fun waits => waits.resolve_left id⟩
  | reply number =>
    constructor
    · rintro ⟨op, member, waits⟩
      obtain ⟨old, oldMember, rfl⟩ := List.mem_map.mp member
      by_cases own : old.provenance = .reply number
      · exact Or.inl ⟨old, oldMember, own⟩
      · rw [if_neg own] at waits
        exact Or.inr ⟨old, oldMember, waits⟩
    · rintro (⟨op, member, own⟩ | ⟨op, member, waits⟩)
      · refine ⟨_, List.mem_map_of_mem member, ?_⟩
        rw [if_pos own]
      · obtain ⟨kept, keptMember, _, _, still⟩ := awaitReply_keeps (.reply number) member
        exact ⟨kept, keptMember, still waits⟩

/-- Only operations that call the modem issue requests. -/
theorem calls_of_issues {operation : Operation} {request : ModemRequest}
    (issues : Issues operation.fromQueue request) : operation.calls = true := by
  cases operation with
  | placeholder => exact absurd issues id
  | linkConfig => exact absurd issues id
  | unknown code => exact absurd issues id
  | _ => rfl

/-- After an execution an operation waits at the modem exactly when the executed one was
accepted, or was the placeholder of a reply there, or another one waited already. -/
theorem Execution.awaited_iff {operation : Operation} {provenance : Provenance} {ret : Int}
    {system after : System config}
    (execution : Execution config operation provenance ret system after) :
    (∃ op ∈ after.phy.modem, op.awaited = true) ↔
      (ret = 0 ∧ operation.calls = true) ∨
        (operation = .placeholder ∧ system.phy.HasReply provenance) ∨
        ∃ op ∈ system.phy.modem, op.awaited = true := by
  cases execution with
  | placeholder none =>
    subst none
    have silent : ¬ (ret = 0 ∧ Operation.calls .placeholder = true) := fun called => by
      cases called.2
    rw [or_iff_right silent, and_iff_right rfl]
    exact awaited_awaitReply system.phy provenance
  | nothing none =>
    have silent : operation.calls = false ∧ operation ≠ .placeholder := by
      rcases none with rfl | ⟨code, rfl⟩ <;> exact ⟨rfl, by simp⟩
    simp [silent.1, silent.2]
  | call request state nodes issues =>
    have calls := calls_of_issues issues
    have other : operation ≠ .placeholder := by
      rintro rfl
      cases calls
    simp only [calls, and_true, other, false_and, false_or]
    show (∃ op ∈ modemAfter _ _ _ _, op.awaited = true) ↔ _
    by_cases accepted : ret = 0
    · rw [modemAfter, if_pos accepted]
      exact ⟨fun _ => Or.inl accepted, fun _ =>
        ⟨_, List.mem_append_right _ (List.mem_singleton_self _), rfl⟩⟩
    · rw [modemAfter, if_neg accepted]
      exact ⟨Or.inr, fun waits => waits.resolve_left accepted⟩

/-- The token is somewhere. -/
theorem System.notLost_iff {system : System config} :
    system.NotLost ↔ system.queue.phyLayerSem = 1 ∨ system.queue.execThread.holds = true ∨
      system.queue.timerArmed = true ∨ ∃ op ∈ system.phy.modem, op.awaited = true := by
  unfold System.NotLost System.Outstanding
  rw [← or_iff_not_imp_left, or_comm, or_assoc]

/-- A callback that neither gives the token nor starts the retry keeps it somewhere exactly when
the operation it completes did not have it, or there is a spare one. -/
theorem silent_iff {system : System config} {event : Event config} (notLost : system.NotLost)
    (dispatches : event.dispatches = false) (expires : event.expires = false)
    (gives : givesToken system event = false) (fails : event.failsStart = false)
    (left : ∀ op ∈ system.phy.modem, op.awaited = true →
      (∃ kept ∈ remaining system event, kept.awaited = true) ∨
        finished system event = some op) :
    (system.queue.phyLayerSem = 1 ∨ system.queue.execThread.holds = true ∨
      system.queue.timerArmed = true ∨ ∃ op ∈ remaining system event, op.awaited = true) ↔
      PassesOn system event := by
  have spare : system.Spare event ↔
      (system.queue.phyLayerSem = 1 ∨ system.queue.execThread.holds = true ∨
        system.queue.timerArmed = true ∨ ∃ op ∈ remaining system event, op.awaited = true) := by
    simp only [System.Spare, dispatches, expires, and_true]
  rw [← spare]
  constructor
  · intro extra
    exact ⟨fun _ _ => Or.inr (Or.inr extra), fun _ _ _ => Or.inr (Or.inr extra)⟩
  · intro passes
    rcases System.notLost_iff.mp notLost with count | holds | armed | ⟨op, member, waits⟩
    · exact spare.mpr (Or.inl count)
    · exact spare.mpr (Or.inr (Or.inl holds))
    · exact spare.mpr (Or.inr (Or.inr (Or.inl armed)))
    · rcases left op member waits with still | done
      · exact spare.mpr (Or.inr (Or.inr (Or.inr still)))
      · have passed := passes.finishes op done waits
        rw [gives, fails] at passed
        simpa using passed

/-- An operation that has the token keeps it at a completion that is not its last. -/
theorem awaited_after_completion {system : System config} {position : Nat} {err : PhyErr}
    {op : ModemOp} (found : system.phy.modem[position]? = some op) :
    ∀ other ∈ system.phy.modem, other.awaited = true →
      (∃ kept ∈ remaining system (.opComplete position err), kept.awaited = true) ∨
        finished system (.opComplete position err) = some other := by
  intro other member waits
  simp only [remaining, found, finished]
  have either : other ∈ completeAt position op err system.phy.modem ∨ other = op :=
    completeAt_keeps found member
  rcases either with kept | rfl
  · exact Or.inl ⟨other, kept, waits⟩
  · by_cases firstHalf : (other.request.isTxRx && !other.secondHalf) = true
    · refine Or.inl
        ⟨{ other with secondHalf := true, retried := err = .invalidStartTime }, ?_, waits⟩
      obtain ⟨bound, _⟩ := List.getElem?_eq_some_iff.mp found
      rw [completeAt, if_pos firstHalf]
      exact List.mem_set bound _
    · refine Or.inr ?_
      simp [Option.filter, firstHalf]

/-- A completion that neither gives the token nor starts the retry keeps it somewhere exactly when
it passes it on. -/
theorem notLost_iff_of_silent {system after : System config} {position : Nat} {err : PhyErr}
    {op : ModemOp} (notLost : system.NotLost) (found : system.phy.modem[position]? = some op)
    (queue : after.queue = system.queue)
    (modem : after.phy.modem = completeAt position op err system.phy.modem)
    (silent : givesToken system (.opComplete position err) = false)
    (starts : (Event.opComplete position err : Event config).failsStart = false) :
    after.NotLost ↔ PassesOn system (.opComplete position err) := by
  rw [System.notLost_iff, queue, modem]
  refine Iff.trans ?_ (silent_iff notLost rfl rfl silent starts (awaited_after_completion found))
  simp only [remaining, found]

/-- A step that leaves the token and the awaited operations where they are loses nothing. -/
theorem System.NotLost.frame {before after : System config} (notLost : before.NotLost)
    (same : Queue.SameToken before.queue after.queue)
    (keeps : ∀ op ∈ before.phy.modem, op ∈ after.phy.modem) : after.NotLost := by
  rw [System.notLost_iff, same.count, same.holds, same.timer]
  rcases System.notLost_iff.mp notLost with count | holds | armed | ⟨op, member, waits⟩
  · exact Or.inl count
  · exact Or.inr (Or.inl holds)
  · exact Or.inr (Or.inr (Or.inl armed))
  · exact Or.inr (Or.inr (Or.inr ⟨op, keeps op member, waits⟩))

/-- After a give the token is available. -/
theorem notLost_of_give {harq : Harq config} {phy : Phy} (queue : Queue) :
    System.NotLost ⟨harq, phy, queue.givePhy⟩ := by
  rw [System.notLost_iff]
  exact Or.inl (givePhy_count queue)

theorem or_shift {first second third fourth fifth : Prop} :
    (first ∨ second ∨ third ∨ fourth ∨ fifth) ↔ third ∨ fourth ∨ first ∨ second ∨ fifth := by
  rw [← or_assoc, or_left_comm (a := first ∨ second), or_left_comm (a := first ∨ second), or_assoc]

/-- An execution passes the token on when its operation is accepted, when it is the placeholder
of a reply at the modem, or when there is a spare token. -/
theorem passesOn_executed {system : System config} {event : Event config}
    {operation : Operation} {provenance : Provenance}
    (handed : handedOperation system event = some (operation, provenance))
    (ends : finished system event = none) :
    PassesOn system event ↔ (event.returns = 0 ∧ operation.calls = true) ∨
      (operation = .placeholder ∧ system.phy.HasReply provenance) ∨ system.Spare event := by
  constructor
  · exact fun passes => passes.executes _ handed
  · refine fun passed => ⟨fun executed same => ?_, fun op done => ?_⟩
    · obtain rfl := Option.some.inj (handed.symm.trans same)
      exact passed
    · rw [ends] at done
      cases done

/-- A step leaves the token somewhere exactly when who had it passes it on. -/
theorem Action.notLost_iff {system after : System config} {event : Event config}
    (notLost : system.NotLost) (action : Action system event after) :
    after.NotLost ↔ PassesOn system event := by
  have quiet (after : System config) (kept : after.NotLost)
      (hands : handedOperation system event = none) (ends : finished system event = none) :
      after.NotLost ↔ PassesOn system event := by
    refine ⟨fun _ => ⟨fun handed executed => ?_, fun op done => ?_⟩, fun _ => kept⟩
    · rw [hands] at executed
      cases executed
    · rw [ends] at done
      cases done
  have given (after : System config) (kept : after.NotLost)
      (hands : handedOperation system event = none)
      (gives : givesToken system event = true ∨ event.failsStart = true) :
      after.NotLost ↔ PassesOn system event := by
    refine ⟨fun _ => ⟨fun handed executed => ?_, fun _ _ _ => ?_⟩, fun _ => kept⟩
    · rw [hands] at executed
      cases executed
    · exact gives.imp_right Or.inl
  have still {queue : Queue} (same : Queue.SameToken system.queue queue)
      {harq : Harq config} {phy : Phy} (modem : phy.modem = system.phy.modem) :
      System.NotLost ⟨harq, phy, queue⟩ :=
    notLost.frame same fun op member => modem ▸ member
  cases action with
  | sent params address index code queue free took put =>
    exact quiet _ (still (sameToken_put put) rfl) rfl rfl
  | retransmitted index nodes code queue pending below put =>
    exact quiet _ (still (sameToken_put put) rfl) rfl rfl
  | queuePut operation priority code queue put =>
    exact quiet _ (still (sameToken_put put) rfl) rfl rfl
  | request status header ret harq reply request nodes code queue addressed _ _ _ put =>
    exact quiet _ (notLost.frame (sameToken_put put)
      fun op member => modemAfter_keeps member _ _ _) rfl rfl
  | direct operation ret request state nodes issues =>
    exact quiet _ (notLost.frame (Queue.SameToken.refl _)
      fun op member => modemAfter_keeps member _ _ _) rfl rfl
  | putGet queue ran => exact quiet _ (still (sameToken_threads ran (by simp)) rfl) rfl rfl
  | putFree queue ran => exact quiet _ (still (sameToken_threads ran (by simp)) rfl) rfl rfl
  | putInsert queue ran => exact quiet _ (still (sameToken_threads ran (by simp)) rfl) rfl rfl
  | putGive queue ran => exact quiet _ (still (sameToken_threads ran (by simp)) rfl) rfl rfl
  | execTakePhy queue ran =>
    obtain ⟨waiting, available, rfl⟩ := execThreadTakePhy_cases ran
    exact quiet _ (System.notLost_iff.mpr (Or.inr (Or.inl rfl))) rfl rfl
  | execTakeItem queue ran => exact quiet _ (still (sameToken_threads ran (by simp)) rfl) rfl rfl
  | execRemove queue ran => exact quiet _ (still (sameToken_threads ran (by simp)) rfl) rfl rfl
  | execDispatch _ item ret executing execution =>
    have handed : handedOperation system (.execDispatch ret) =
        some (item.operation, item.provenance) := by
      simp only [handedOperation, executing]
    have spare : system.Spare (.execDispatch ret) ↔ system.queue.phyLayerSem = 1 ∨
        system.queue.timerArmed = true ∨ ∃ op ∈ system.phy.modem, op.awaited = true := by
      simp [System.Spare, Event.dispatches, Event.expires, remaining]
    rw [passesOn_executed handed rfl, spare, System.notLost_iff, execution.awaited_iff,
      execution.keeps.2]
    show (system.queue.phyLayerSem = 1 ∨ false = true ∨ system.queue.timerArmed = true ∨
      (ret = 0 ∧ _) ∨ (_ ∧ system.phy.HasReply _) ∨ ∃ op ∈ system.phy.modem, _) ↔
        (ret = 0 ∧ _) ∨ _
    rw [eq_false Bool.false_ne_true, false_or]
    exact or_shift
  | retryTimer _ ret armed execution =>
    have handed : handedOperation system (.retryTimer ret) =
        some (system.queue.currentOperation, system.queue.currentProvenance) := by
      simp only [handedOperation, armed, if_true]
    have spare : system.Spare (.retryTimer ret) ↔ system.queue.phyLayerSem = 1 ∨
        system.queue.execThread.holds = true ∨ ∃ op ∈ system.phy.modem, op.awaited = true := by
      simp [System.Spare, Event.dispatches, Event.expires, remaining]
    rw [passesOn_executed handed rfl, spare, System.notLost_iff, execution.awaited_iff,
      execution.keeps.2]
    show (system.queue.phyLayerSem = 1 ∨ system.queue.execThread.holds = true ∨ false = true ∨
      (ret = 0 ∧ _) ∨ (_ ∧ system.phy.HasReply _) ∨ ∃ op ∈ system.phy.modem, _) ↔
        (ret = 0 ∧ _) ∨ _
    rw [eq_false Bool.false_ne_true, false_or]
    exact or_shift
  | completeError position err op handle found completes failed noRetry =>
    refine notLost_iff_of_silent notLost found rfl rfl ?_ ?_
    · simp [givesToken, found, completes, failed, noRetry]
    · cases err with
      | invalidStartTime => exact absurd rfl noRetry
      | _ => rfl
  | turn position op handle found completes turns =>
    refine notLost_iff_of_silent notLost found rfl rfl ?_ rfl
    simp [givesToken, found, completes, turns]
  | turnHarq position op handle index found completes turns =>
    refine notLost_iff_of_silent notLost found rfl rfl ?_ rfl
    simp [givesToken, found, completes, turns]
  | completeDirect position op handle found completes stays direct =>
    refine notLost_iff_of_silent notLost found rfl rfl ?_ rfl
    simp [givesToken, found, completes, direct]
  | completeRetry position op handle found completes =>
    refine given _ ?_ rfl (Or.inr rfl)
    by_cases left : system.queue.RetriesLeft
    · rw [failedRetry_arms left]
      exact System.notLost_iff.mpr (Or.inr (Or.inr (Or.inl rfl)))
    · rw [failedRetry_gives left]
      exact notLost_of_give _
  | completeQueued position op handle found completes stays queued =>
    have gives := givesToken_of_queued found completes stays queued
    exact given _ (notLost_of_give _) rfl (Or.inl gives)
  | rssiReport position op found rssi => exact quiet _ (notLost_of_give _) rfl rfl
  | managementGive position capability capabilities op found management =>
    exact given _ (notLost_of_give _) rfl (Or.inl (givesToken_of_managed found management))
  | managementKeep position err capability op found keeps management =>
    rw [System.notLost_iff]
    refine silent_iff notLost rfl rfl (givesToken_of_unmanaged found keeps) rfl
      fun other member waits => ?_
    rcases mem_eraseIdx_of_ne found member with kept | rfl
    · exact Or.inl ⟨other, kept, waits⟩
    · exact Or.inr found
  | _ => exact quiet _ (still (Queue.SameToken.refl _) rfl) rfl rfl

theorem boot_notLost {start : System config} (booted : Booted start) : start.NotLost := by
  obtain ⟨deviceId, allocations, _, rfl⟩ := booted
  exact fun _ => Or.inl rfl

/-- In every state of a run from boot the token is with an outstanding operation, available, or
with the executor, exactly when in every step of the run who has it passes it on. -/
theorem token_notLost_iff {start final : System config}
    {steps : List (Transition.Step (System config) (Event config))} (booted : Booted start)
    (run : Run start steps final) :
    (start.NotLost ∧ ∀ taken ∈ steps, taken.after.NotLost) ↔
      ∀ taken ∈ steps, PassesOn taken.before taken.label := by
  constructor
  · rintro ⟨base, each⟩ taken member
    have before := (run.before_of_after (fun system : System config => system.NotLost) base
      each).2 taken member
    exact ((actions_of_run booted run taken member).2.notLost_iff before).mp (each taken member)
  · refine fun passes => ⟨boot_notLost booted, fun taken member => ?_⟩
    obtain ⟨_, before, action⟩ := run_invariant_before booted run (fun system => system.NotLost)
      PassesOn (boot_notLost booted)
      (fun system event after _ passes notLost action => (action.notLost_iff notLost).mpr passes)
      passes taken member
    exact (action.notLost_iff before).mpr (passes taken member)

/-- The token survives two operations that complete. -/
theorem token_notLost_iff_twoOperations :
    device.NotLost ∧
      ∀ taken ∈ Transition.followAll step device twoOperations, taken.after.NotLost :=
  (token_notLost_iff device_booted
    (Transition.followAll_run step device twoOperations (by decide +kernel))).mpr
      (by decide +kernel)

/-- A queued RX_STOP is executed and completes without an error. -/
def stoppedReception : List (Event projectConfig) :=
  .queuePut (.rxStop ⟨0⟩) priorityLow :: carriedToModem ++ [.management 0 .success ⟨0, 0⟩]

/-- The callback of the RX_STOP does not give the token, which nobody has afterwards. -/
theorem token_lost :
    ¬ ∀ (start final : System projectConfig)
        (steps : List (Transition.Step (System projectConfig) (Event projectConfig))),
      Booted start → Run start steps final →
        start.NotLost ∧ ∀ taken ∈ steps, taken.after.NotLost := by
  intro notLost
  have run := Transition.followAll_run step device stoppedReception (by decide +kernel)
  obtain ⟨base, each⟩ := notLost _ _ _ device_booted run
  have final := (run.before_of_after (fun system : System projectConfig => system.NotLost) base
    each).1
  exact absurd final (by decide +kernel)

end DectHarq
