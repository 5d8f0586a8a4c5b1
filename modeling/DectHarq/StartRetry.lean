/-
This file settles which operation the start-time retry executes.

The retry has one saved operation, one counter and one timer, and the completion callback
does not tell it which operation failed. So it retries the operation that was executed
last. A reply bypasses the queue, and so does an operation that the application sends
itself: when one of these fails to start, the operation that is retried is another one,
and its attempts are used up by a failure that it has no part in. The history of a run
says which operation each operation of the modem was called for, and how often the
executed one was attempted and has failed.
-/

import Mathlib.Data.List.Induction
import Mathlib.Data.List.InsertIdx
import DectHarq.PhyToken

namespace DectHarq

variable {config : Config}

/-! ### The history of a run -/

/-- A call of the modem: the operation that its handler was given, and the number of the execution
when the queue or the timer executed it. -/
structure Call where
  operation : Operation
  execution : Option Nat

/-- What is remembered of a run: the calls that the operations at the modem come from, in their
order, the number of executions, and the attempts and the failures since the last dispatch. -/
structure RetryHistory where
  calls : List Call
  executions : Nat
  attempts : Nat
  failures : Nat

/-- The operation that the handler of a reply is given. -/
def replyOperation (system : System config) (status : PccStatus) (header : PhyHeader) :
    Option Operation :=
  let reply : Except Stop Operation := do
    let phy ← pccOptimize config status header system.phy
    let harq ← requestProcess phy.capabilities header system.harq
    let (cqi, _) ← dectMacNodeGetCqi config phy.capabilities.mcsMax (transmitterId header)
      phy.nodes
    .ok (.txHarq (replyParams config header status.stfStartTime
      (requestFeedback phy.capabilities header cqi harq)))
  reply.toOption

/-- The operation that a handler is given in an event. -/
def calledOperation (system : System config) : Event config → Option Operation
  | .direct operation _ => some operation
  | .pcc status header _ => replyOperation system status header
  | event => (handedOperation system event).map fun handed => handed.1.fromQueue

/-- The executor or the timer executes an operation. -/
def Event.executes (event : Event config) : Bool := event.dispatches || event.expires

/-- The calls after a step: that of an operation the modem accepted comes last, and that of a
completed operation is gone. -/
def callsAfter (history : RetryHistory)
    (taken : Transition.Step (System config) (Event config)) : List Call :=
  match taken.label with
  | .opComplete position _ | .management position _ _ =>
    if taken.after.phy.modem.length < taken.before.phy.modem.length then
      history.calls.eraseIdx position
    else history.calls
  | event =>
    match calledOperation taken.before event with
    | some operation =>
      if taken.before.phy.modem.length < taken.after.phy.modem.length then
        history.calls ++
          [⟨operation, if event.executes then some (history.executions + 1) else none⟩]
      else history.calls
    | none => history.calls

/-- The history after one more step. -/
def RetryHistory.next (history : RetryHistory)
    (taken : Transition.Step (System config) (Event config)) : RetryHistory where
  calls := callsAfter history taken
  executions := if taken.label.executes then history.executions + 1 else history.executions
  attempts :=
    if taken.label.dispatches then 1
    else if taken.label.expires then history.attempts + 1
    else history.attempts
  failures :=
    if taken.label.dispatches then 0
    else if taken.label.failsStart then history.failures + 1
    else history.failures

/-- The history of some steps from boot. -/
def historyOf (steps : List (Transition.Step (System config) (Event config))) : RetryHistory :=
  steps.foldl RetryHistory.next ⟨[], 0, 0, 0⟩

theorem historyOf_snoc (steps : List (Transition.Step (System config) (Event config)))
    (taken : Transition.Step (System config) (Event config)) :
    historyOf (steps ++ [taken]) = (historyOf steps).next taken := by
  unfold historyOf
  rw [List.foldl_append]
  rfl

theorem mem_callsAfter {history : RetryHistory} {call : Call}
    {taken : Transition.Step (System config) (Event config)}
    (member : call ∈ callsAfter history taken) :
    call ∈ history.calls ∨ ∃ operation, calledOperation taken.before taken.label = some operation ∧
      call = ⟨operation, if taken.label.executes then some (history.executions + 1) else none⟩ := by
  unfold callsAfter at member
  split at member
  · split at member
    · exact Or.inl (List.mem_of_mem_eraseIdx member)
    · exact Or.inl member
  · split at member
    · exact Or.inl (List.mem_of_mem_eraseIdx member)
    · exact Or.inl member
  · split at member
    · rename_i operation called
      split at member
      · rcases List.mem_append.mp member with old | new
        · exact Or.inl old
        · exact Or.inr ⟨operation, called, List.mem_singleton.mp new⟩
      · exact Or.inl member
    · exact Or.inl member

theorem Operation.fromQueue_fromQueue (operation : Operation) :
    operation.fromQueue.fromQueue = operation.fromQueue := by
  cases operation <;> simp [Operation.fromQueue, withQueueBit_idem]

/-! ### Failures in turn -/

/-- The place of the operation that fails to start. -/
def Event.failedAt : Event config → Option Nat
  | .opComplete position .invalidStartTime => some position
  | _ => none

/-- A step is in turn: an operation fails to start only if it is the one executed last and has not
failed yet, and the executor dispatches nothing while a retry is due. -/
structure InTurn (earlier : List (Transition.Step (System config) (Event config)))
    (taken : Transition.Step (System config) (Event config)) : Prop where
  fails : ∀ position ∈ taken.label.failedAt,
    (∃ call ∈ (historyOf earlier).calls[position]?,
        call.execution = some (historyOf earlier).executions) ∧
      (historyOf earlier).failures < (historyOf earlier).attempts
  dispatches : taken.label.dispatches = true → taken.before.queue.timerArmed = false

instance (earlier : List (Transition.Step (System config) (Event config)))
    (taken : Transition.Step (System config) (Event config)) :
    Decidable (InTurn earlier taken) :=
  decidable_of_iff (_ ∧ _)
    ⟨fun ⟨fails, dispatches⟩ => ⟨fails, dispatches⟩, fun ⟨fails, dispatches⟩ =>
      ⟨fails, dispatches⟩⟩

/-- What holds while all steps are in turn: the counter counts the failures, a retry is due when
all attempts have failed and there are some left, and the saved operation is the one executed
last. -/
structure Retrying (earlier : List (Transition.Step (System config) (Event config)))
    (system : System config) : Prop where
  sound : system.harq.Sound
  counter : system.queue.operationFailedCounter = (historyOf earlier).failures
  bounded : (historyOf earlier).attempts ≤ queueMaxRetry + 1
  behind : (historyOf earlier).attempts ≤ (historyOf earlier).failures + 1
  armed : system.queue.timerArmed = true →
    (historyOf earlier).failures = (historyOf earlier).attempts ∧
      (historyOf earlier).attempts ≤ queueMaxRetry
  numbered : ∀ call ∈ (historyOf earlier).calls, ∀ number, call.execution = some number →
    number ≤ (historyOf earlier).executions
  current : ∀ call ∈ (historyOf earlier).calls,
    call.execution = some (historyOf earlier).executions →
      call.operation.fromQueue = system.queue.currentOperation.fromQueue

section Turns

variable {earlier : List (Transition.Step (System config) (Event config))}
  {taken : Transition.Step (System config) (Event config)}

/-- A call after a step that executes nothing was there before, or the queue did not execute it. -/
theorem mem_calls_of_idle {call : Call} (idle : taken.label.executes = false)
    (member : call ∈ (historyOf (earlier ++ [taken])).calls) {number : Nat}
    (executed : call.execution = some number) :
    call ∈ (historyOf earlier).calls ∧
      (historyOf (earlier ++ [taken])).executions = (historyOf earlier).executions := by
  rw [historyOf_snoc] at member ⊢
  refine ⟨?_, if_neg (by rw [idle]; exact Bool.false_ne_true)⟩
  rcases mem_callsAfter member with old | ⟨operation, _, rfl⟩
  · exact old
  · rw [idle] at executed
    cases executed

/-- A call after an execution was there before and has an earlier number, or is the executed
one. -/
theorem mem_calls_of_executes {call : Call} (executes : taken.label.executes = true)
    (member : call ∈ (historyOf (earlier ++ [taken])).calls) :
    (historyOf (earlier ++ [taken])).executions = (historyOf earlier).executions + 1 ∧
      (call ∈ (historyOf earlier).calls ∨
        (call.execution = some ((historyOf earlier).executions + 1) ∧
          calledOperation taken.before taken.label = some call.operation)) := by
  rw [historyOf_snoc] at member ⊢
  refine ⟨if_pos executes, ?_⟩
  rcases mem_callsAfter member with old | ⟨operation, called, rfl⟩
  · exact Or.inl old
  · exact Or.inr ⟨if_pos executes, called⟩

/-- The calls after an execution: the last number is that of the executed operation. -/
theorem Retrying.executed (now : Retrying earlier taken.before)
    (executes : taken.label.executes = true)
    (saved : ∀ operation, calledOperation taken.before taken.label = some operation →
      operation.fromQueue = taken.after.queue.currentOperation.fromQueue) :
    (∀ call ∈ (historyOf (earlier ++ [taken])).calls, ∀ number, call.execution = some number →
        number ≤ (historyOf (earlier ++ [taken])).executions) ∧
      ∀ call ∈ (historyOf (earlier ++ [taken])).calls,
        call.execution = some (historyOf (earlier ++ [taken])).executions →
          call.operation.fromQueue = taken.after.queue.currentOperation.fromQueue := by
  constructor
  · intro call member number executed
    obtain ⟨count, old | ⟨own, _⟩⟩ := mem_calls_of_executes executes member
    · exact count ▸ Nat.le_succ_of_le (now.numbered call old number executed)
    · rw [own] at executed
      exact count ▸ (Option.some.inj executed).ge
  · intro call member executed
    obtain ⟨count, old | ⟨_, called⟩⟩ := mem_calls_of_executes executes member
    · have bound := now.numbered call old _ executed
      rw [count] at bound
      exact absurd bound (Nat.not_succ_le_self _)
    · exact saved call.operation called

/-- The calls after a step that executes nothing and keeps the saved operation. -/
theorem Retrying.idle (now : Retrying earlier taken.before)
    (idle : taken.label.executes = false)
    (saved : taken.after.queue.currentOperation = taken.before.queue.currentOperation) :
    (∀ call ∈ (historyOf (earlier ++ [taken])).calls, ∀ number, call.execution = some number →
        number ≤ (historyOf (earlier ++ [taken])).executions) ∧
      ∀ call ∈ (historyOf (earlier ++ [taken])).calls,
        call.execution = some (historyOf (earlier ++ [taken])).executions →
          call.operation.fromQueue = taken.after.queue.currentOperation.fromQueue := by
  constructor
  · intro call member number executed
    obtain ⟨old, count⟩ := mem_calls_of_idle idle member executed
    exact count ▸ now.numbered call old number executed
  · intro call member executed
    obtain ⟨old, count⟩ := mem_calls_of_idle idle member executed
    rw [saved]
    exact now.current call old (count ▸ executed)

theorem historyOf_attempts (earlier : List (Transition.Step (System config) (Event config)))
    (taken : Transition.Step (System config) (Event config)) :
    (historyOf (earlier ++ [taken])).attempts = if taken.label.dispatches then 1
      else if taken.label.expires then (historyOf earlier).attempts + 1
      else (historyOf earlier).attempts := by
  rw [historyOf_snoc]
  rfl

theorem historyOf_failures (earlier : List (Transition.Step (System config) (Event config)))
    (taken : Transition.Step (System config) (Event config)) :
    (historyOf (earlier ++ [taken])).failures = if taken.label.dispatches then 0
      else if taken.label.failsStart then (historyOf earlier).failures + 1
      else (historyOf earlier).failures := by
  rw [historyOf_snoc]
  rfl

/-- A step that executes nothing and in which nothing fails to start. -/
theorem Retrying.quiet (now : Retrying earlier taken.before) (sound : taken.after.harq.Sound)
    (same : Queue.SameSaved taken.before.queue taken.after.queue)
    (counter : taken.after.queue.operationFailedCounter =
      taken.before.queue.operationFailedCounter)
    (undispatched : taken.label.dispatches = false) (unexpired : taken.label.expires = false)
    (starts : taken.label.failsStart = false) : Retrying (earlier ++ [taken]) taken.after := by
  have idle : taken.label.executes = false := by
    rw [Event.executes, undispatched, unexpired, Bool.or_self]
  have attempts : (historyOf (earlier ++ [taken])).attempts = (historyOf earlier).attempts := by
    simp [historyOf_attempts, undispatched, unexpired]
  have failures : (historyOf (earlier ++ [taken])).failures = (historyOf earlier).failures := by
    simp [historyOf_failures, undispatched, starts]
  obtain ⟨numbered, current⟩ := now.idle idle same.operation
  refine ⟨sound, ?_, ?_, ?_, ?_, numbered, current⟩
  · rw [counter, failures]
    exact now.counter
  · rw [attempts]
    exact now.bounded
  · rw [attempts, failures]
    exact now.behind
  · rw [same.timer, attempts, failures]
    exact now.armed

/-- The executor dispatches an operation when no retry is due. -/
theorem Retrying.dispatched (now : Retrying earlier taken.before)
    (sound : taken.after.harq.Sound) {item : QueueItem} {ret : Int}
    (executing : taken.before.queue.execThread = .executing item)
    (label : taken.label = .execDispatch ret)
    (queue : taken.after.queue = taken.before.queue.dispatch item)
    (free : taken.before.queue.timerArmed = false) :
    Retrying (earlier ++ [taken]) taken.after := by
  have dispatches : taken.label.dispatches = true := by rw [label]; rfl
  have attempts : (historyOf (earlier ++ [taken])).attempts = 1 := by
    simp [historyOf_attempts, dispatches]
  have failures : (historyOf (earlier ++ [taken])).failures = 0 := by
    simp [historyOf_failures, dispatches]
  obtain ⟨numbered, current⟩ := now.executed (by rw [Event.executes, dispatches, Bool.true_or])
    fun operation called => by
      rw [label] at called
      dsimp only [calledOperation, handedOperation] at called
      rw [executing] at called
      rw [← Option.some.inj called, queue]
      exact item.operation.fromQueue_fromQueue
  refine ⟨sound, ?_, ?_, ?_, ?_, numbered, current⟩
  · rw [queue, failures]
    rfl
  · rw [attempts]
    exact Nat.le_add_left _ _
  · rw [attempts, failures]
  · rw [queue]
    intro armed
    rw [show (taken.before.queue.dispatch item).timerArmed = taken.before.queue.timerArmed
      from rfl, free] at armed
    cases armed

/-- The timer executes the saved operation once more. -/
theorem Retrying.expired (now : Retrying earlier taken.before) (sound : taken.after.harq.Sound)
    {ret : Int} (armed : taken.before.queue.timerArmed = true)
    (label : taken.label = .retryTimer ret)
    (queue : taken.after.queue = taken.before.queue.retry) :
    Retrying (earlier ++ [taken]) taken.after := by
  have undispatched : taken.label.dispatches = false := by rw [label]; rfl
  have expires : taken.label.expires = true := by rw [label]; rfl
  have starts : taken.label.failsStart = false := by rw [label]; rfl
  have attempts : (historyOf (earlier ++ [taken])).attempts =
      (historyOf earlier).attempts + 1 := by
    simp [historyOf_attempts, undispatched, expires]
  have failures : (historyOf (earlier ++ [taken])).failures = (historyOf earlier).failures := by
    simp [historyOf_failures, undispatched, starts]
  obtain ⟨all, left⟩ := now.armed armed
  obtain ⟨numbered, current⟩ := now.executed (by rw [Event.executes, expires, Bool.or_true])
    fun operation called => by
      rw [label] at called
      dsimp only [calledOperation, handedOperation] at called
      rw [if_pos armed] at called
      rw [← Option.some.inj called, queue]
      rfl
  refine ⟨sound, ?_, ?_, ?_, ?_, numbered, current⟩
  · rw [queue, failures]
    exact now.counter
  · rw [attempts]
    exact Nat.succ_le_succ left
  · rw [attempts, failures, all]
  · rw [queue]
    intro still
    cases still

/-- The counter does not wrap while the failures are those of the attempts. -/
theorem Retrying.count (now : Retrying earlier taken.before)
    (turn : (historyOf earlier).failures < (historyOf earlier).attempts) :
    (taken.before.queue.operationFailedCounter + 1) % 4294967296 =
        (historyOf earlier).failures + 1 ∧
      (taken.before.queue.RetriesLeft ↔ (historyOf earlier).attempts ≤ queueMaxRetry) := by
  have all : (historyOf earlier).failures + 1 = (historyOf earlier).attempts :=
    le_antisymm turn now.behind
  have small : (historyOf earlier).failures + 1 < 4294967296 :=
    lt_of_le_of_lt (le_trans turn now.bounded)
      (show queueMaxRetry + 1 < 4294967296 by decide)
  have count := Nat.mod_eq_of_lt small
  unfold Queue.RetriesLeft
  rw [now.counter, count, all]
  exact ⟨rfl, Iff.rfl⟩

/-- No retry is due for an operation that has not failed yet. -/
theorem Retrying.undue (now : Retrying earlier taken.before)
    (turn : (historyOf earlier).failures < (historyOf earlier).attempts) :
    taken.before.queue.timerArmed = false := by
  by_contra due
  exact absurd (now.armed (by simpa using due)).1 turn.ne

theorem failedRetry_operation (queue : Queue) :
    (dectMacPhyHandlerQueueOperationFailedRetry queue).currentOperation =
      queue.currentOperation := by
  obtain ⟨counter, ⟨_, same⟩ | ⟨_, same⟩⟩ := operationFailedRetry_cases queue
  · rw [same]
    rfl
  · rw [same]

/-- The operation executed last fails to start, for the first time since. -/
theorem Retrying.failed (now : Retrying earlier taken.before) (sound : taken.after.harq.Sound)
    {position : Nat} (label : taken.label = .opComplete position .invalidStartTime)
    (queue : taken.after.queue =
      dectMacPhyHandlerQueueOperationFailedRetry taken.before.queue)
    (turn : (historyOf earlier).failures < (historyOf earlier).attempts) :
    Retrying (earlier ++ [taken]) taken.after := by
  have undispatched : taken.label.dispatches = false := by rw [label]; rfl
  have unexpired : taken.label.expires = false := by rw [label]; rfl
  have fails : taken.label.failsStart = true := by rw [label]; rfl
  have attempts : (historyOf (earlier ++ [taken])).attempts = (historyOf earlier).attempts := by
    simp [historyOf_attempts, undispatched, unexpired]
  have failures : (historyOf (earlier ++ [taken])).failures =
      (historyOf earlier).failures + 1 := by
    simp [historyOf_failures, undispatched, fails]
  have all : (historyOf earlier).failures + 1 = (historyOf earlier).attempts :=
    le_antisymm turn now.behind
  have undue := now.undue turn
  obtain ⟨count, left⟩ := now.count turn
  have saved : taken.after.queue.currentOperation = taken.before.queue.currentOperation := by
    rw [queue, failedRetry_operation]
  obtain ⟨numbered, current⟩ := now.idle
    (by rw [Event.executes, undispatched, unexpired, Bool.or_self]) saved
  refine ⟨sound, ?_, ?_, ?_, ?_, numbered, current⟩
  · rw [queue, failures, ← count]
    by_cases due : taken.before.queue.RetriesLeft
    · rw [failedRetry_arms due]
    · rw [failedRetry_gives due]
      rfl
  · rw [attempts]
    exact now.bounded
  · rw [attempts, failures, all]
    exact Nat.le_succ _
  · rw [attempts, failures, all, queue]
    intro armed
    refine ⟨rfl, ?_⟩
    by_cases due : taken.before.queue.RetriesLeft
    · exact left.mp due
    · rw [failedRetry_gives due] at armed
      exact absurd (undue.symm.trans armed) Bool.false_ne_true

/-- Only a dispatch and a failed start touch the counter. -/
theorem Action.counter {system after : System config} {event : Event config}
    (action : Action system event after) (undispatched : event.dispatches = false)
    (starts : event.failsStart = false) :
    after.queue.operationFailedCounter = system.queue.operationFailedCounter := by
  have threads {run : Queue → Except Stop Queue} {queue : Queue}
      (ran : run system.queue = .ok queue) (thread : run ∈ queueThreads) :
      queue.operationFailedCounter = system.queue.operationFailedCounter :=
    (sameOutside_threads ran thread).counter
  have puts {item : QueueItem} {queue : Queue} {code : ErrorCode}
      (put : dectPhyQueuePut item system.queue = .ok (code, queue)) :
      queue.operationFailedCounter = system.queue.operationFailedCounter := by
    rcases dectPhyQueuePut_cases put with ⟨_, _, rfl⟩ | ⟨_, _, rfl⟩ <;> rfl
  cases action with
  | sent params address index code queue free took put => exact puts put
  | retransmitted index nodes code queue pending below put => exact puts put
  | queuePut operation priority code queue put => exact puts put
  | request status header ret harq reply request nodes code queue _ _ _ _ put => exact puts put
  | putGet queue ran => exact threads ran (by simp [queueThreads])
  | putFree queue ran => exact threads ran (by simp [queueThreads])
  | putInsert queue ran => exact threads ran (by simp [queueThreads])
  | putGive queue ran => exact threads ran (by simp [queueThreads])
  | execTakePhy queue ran => exact threads ran (by simp [queueThreads])
  | execTakeItem queue ran => exact threads ran (by simp [queueThreads])
  | execRemove queue ran => exact threads ran (by simp [queueThreads])
  | execDispatch _ item ret executing execution => cases undispatched
  | retryTimer _ ret armed execution =>
    rw [execution.keeps.2]
    rfl
  | completeRetry position op handle found completes => cases starts
  | _ => rfl

/-- A step dispatches an item, or the timer expires, or an operation fails to start, or none of
these and the saved operation stays. -/
theorem Action.retries {system after : System config} {event : Event config}
    (action : Action system event after) :
    (event.dispatches = false ∧ event.expires = false ∧ event.failsStart = false ∧
        Queue.SameSaved system.queue after.queue) ∨
      (∃ item ret, system.queue.execThread = .executing item ∧ event = .execDispatch ret ∧
        after.queue = system.queue.dispatch item) ∨
      (∃ ret, system.queue.timerArmed = true ∧ event = .retryTimer ret ∧
        after.queue = system.queue.retry) ∨
      (∃ position, event = .opComplete position .invalidStartTime ∧
        after.queue = dectMacPhyHandlerQueueOperationFailedRetry system.queue) := by
  rcases action.saved with same | other
  · cases action with
    | execDispatch _ item ret executing execution =>
      exact Or.inr (Or.inl ⟨item, ret, executing, rfl, execution.keeps.2⟩)
    | retryTimer _ ret armed execution =>
      exact Or.inr (Or.inr (Or.inl ⟨ret, armed, rfl, execution.keeps.2⟩))
    | completeRetry position op handle found completes =>
      exact Or.inr (Or.inr (Or.inr ⟨position, rfl, rfl⟩))
    | completeError position err op handle found completes failed noRetry =>
      refine Or.inl ⟨rfl, rfl, ?_, same⟩
      cases err with
      | invalidStartTime => exact absurd rfl noRetry
      | _ => rfl
    | _ => exact Or.inl ⟨rfl, rfl, rfl, same⟩
  · exact Or.inr other

theorem Event.eq_opComplete {event : Event config} (fails : event.failsStart = true) :
    ∃ position, event = .opComplete position .invalidStartTime := by
  cases event with
  | opComplete position err =>
    cases err with
    | invalidStartTime => exact ⟨position, rfl⟩
    | _ => cases fails
  | _ => cases fails

/-- The completion of an operation that fails to start calls the retry. -/
theorem completeRetry_queue {position : Nat} (sound : taken.before.harq.Sound)
    (label : taken.label = .opComplete position .invalidStartTime)
    (stepped : DectHarq.step taken.before taken.label = .ok taken.after) :
    taken.after.queue =
      dectMacPhyHandlerQueueOperationFailedRetry taken.before.queue := by
  have action := action_of_step sound stepped
  rcases action.retries with ⟨_, _, starts, _⟩ | ⟨_, _, _, other, _⟩ | ⟨_, _, other, _⟩ |
    ⟨_, _, queue⟩
  · rw [label] at starts
    cases starts
  · cases label.symm.trans other
  · cases label.symm.trans other
  · exact queue

/-- Every step in turn keeps the retry in order. -/
theorem Retrying.step (now : Retrying earlier taken.before) (turn : InTurn earlier taken)
    (stepped : DectHarq.step taken.before taken.label = .ok taken.after) :
    Retrying (earlier ++ [taken]) taken.after := by
  have action := action_of_step now.sound stepped
  have sound := (action.move now.sound).1.sound now.sound
  rcases action.retries with ⟨undispatched, unexpired, starts, same⟩ |
    ⟨item, ret, executing, label, queue⟩ | ⟨ret, armed, label, queue⟩ | ⟨position, label, queue⟩
  · exact now.quiet sound same (action.counter undispatched starts) undispatched unexpired starts
  · exact now.dispatched sound executing label queue (turn.dispatches (by rw [label]; rfl))
  · exact now.expired sound armed label queue
  · exact now.failed sound label queue (turn.fails position (by rw [label]; rfl)).2

end Turns

/-! ### Runs in turn -/

/-- What the retry promises in a run. The timer executes the operation whose start failed before,
up to the queue bit. An operation is attempted at most once more than it is retried. Its last
failure gives the token, once, and every other one makes a retry due. -/
structure RetriesRight (steps : List (Transition.Step (System config) (Event config))) :
    Prop where
  same : ∀ {earlier between later : List (Transition.Step (System config) (Event config))}
    {failure expiry : Transition.Step (System config) (Event config)} {position : Nat}
    {ret : Int} {call : Call}, steps = earlier ++ failure :: (between ++ expiry :: later) →
      failure.label = .opComplete position .invalidStartTime → expiry.label = .retryTimer ret →
        (∀ taken ∈ between, taken.label.expires = false ∧ taken.label.failsStart = false) →
          (historyOf earlier).calls[position]? = some call →
            ∃ handed ∈ handedOperation expiry.before expiry.label,
              handed.1.fromQueue = call.operation.fromQueue
  attempted : ∀ {earlier since later : List (Transition.Step (System config) (Event config))}
    {dispatch : Transition.Step (System config) (Event config)},
    steps = earlier ++ dispatch :: (since ++ later) → dispatch.label.dispatches = true →
      (∀ taken ∈ since, taken.label.dispatches = false) →
        1 + since.countP (fun taken => taken.label.expires) ≤ queueMaxRetry + 1
  given : ∀ {earlier since later : List (Transition.Step (System config) (Event config))}
    {dispatch failure : Transition.Step (System config) (Event config)},
    steps = earlier ++ dispatch :: (since ++ failure :: later) →
      dispatch.label.dispatches = true → (∀ taken ∈ since, taken.label.dispatches = false) →
        failure.label.failsStart = true →
          since.countP (fun taken => taken.label.failsStart) ≤ queueMaxRetry ∧
            if since.countP (fun taken => taken.label.failsStart) = queueMaxRetry then
              failure.after.queue.phyLayerSem = min (failure.before.queue.phyLayerSem + 1) 1 ∧
                failure.after.queue.timerArmed = false
            else failure.after.queue.phyLayerSem = failure.before.queue.phyLayerSem ∧
              failure.after.queue.timerArmed = true

/-- Since a dispatch, the attempts are the dispatch and the expirations of the timer, and the
failures are those of the starts. -/
theorem historyOf_since (earlier : List (Transition.Step (System config) (Event config)))
    {dispatch : Transition.Step (System config) (Event config)}
    (dispatches : dispatch.label.dispatches = true)
    (since : List (Transition.Step (System config) (Event config)))
    (none : ∀ taken ∈ since, taken.label.dispatches = false) :
    (historyOf (earlier ++ dispatch :: since)).attempts =
        1 + since.countP (fun taken => taken.label.expires) ∧
      (historyOf (earlier ++ dispatch :: since)).failures =
        since.countP (fun taken => taken.label.failsStart) := by
  induction since using List.reverseRecOn with
  | nil => simp [historyOf_attempts, historyOf_failures, dispatches]
  | append_singleton since taken inductionHypothesis =>
    obtain ⟨attempts, failures⟩ := inductionHypothesis fun other member =>
      none other (List.mem_append_left _ member)
    have undispatched := none taken (List.mem_append_right _ List.mem_cons_self)
    rw [show earlier ++ dispatch :: (since ++ [taken]) = (earlier ++ dispatch :: since) ++ [taken]
      by rw [List.append_assoc]; rfl, historyOf_attempts, historyOf_failures, attempts, failures,
      undispatched, List.countP_append, List.countP_append, List.countP_singleton,
      List.countP_singleton]
    constructor
    · cases taken.label.expires <;> rfl
    · cases taken.label.failsStart <;> rfl

theorem boot_retrying {start : System config} (booted : Booted start) : Retrying [] start := by
  have sound : start.harq.Sound :=
    (run_invariant booted (Transition.Run.nil start) (fun _ => True) (fun _ _ => True) trivial
      (fun _ _ _ _ _ _ _ => trivial) (fun _ _ => trivial)).1
  obtain ⟨deviceId, allocations, _, rfl⟩ := booted
  exact ⟨sound, rfl, Nat.zero_le _, Nat.zero_le _, nofun,
    fun _ member => absurd member List.not_mem_nil, fun _ member => absurd member List.not_mem_nil⟩

section Runs

variable {start final : System config}
  {steps : List (Transition.Step (System config) (Event config))}

/-- After the first steps of a run in turn the retry is in order. -/
theorem retrying_after (booted : Booted start) (run : Run start steps final)
    (turns : ∀ earlier taken later, steps = earlier ++ taken :: later → InTurn earlier taken)
    {first second : List (Transition.Step (System config) (Event config))}
    (cut : steps = first ++ second) : ∃ system, Retrying first system := by
  obtain ⟨middle, before, _⟩ := run.split cut
  refine ⟨middle, before.history (fun earlier system => Retrying earlier system) InTurn
    (fun _ _ turn now stepped => now.step turn stepped) (fun earlier taken later same => ?_)
    (boot_retrying booted)⟩
  refine turns earlier taken (later ++ second) ?_
  rw [cut, same, List.append_assoc]
  rfl

/-- Before every step of a run in turn the retry is in order. -/
theorem retrying_before (booted : Booted start) (run : Run start steps final)
    (turns : ∀ earlier taken later, steps = earlier ++ taken :: later → InTurn earlier taken)
    {earlier later : List (Transition.Step (System config) (Event config))}
    {taken : Transition.Step (System config) (Event config)}
    (cut : steps = earlier ++ taken :: later) : Retrying earlier taken.before :=
  run.history_before (fun earlier system => Retrying earlier system) InTurn
    (fun _ _ turn now stepped => now.step turn stepped) turns (boot_retrying booted) cut

/-- From a failure of the operation executed last to the expiration of the timer the saved
operation stays. -/
theorem saved_until_expiry {between : List (Transition.Step (System config) (Event config))}
    {first last : System config} (run : Run first between last) (sound : first.harq.Sound)
    (quiet : ∀ taken ∈ between, taken.label.expires = false ∧ taken.label.failsStart = false)
    (turns : ∀ taken ∈ between, taken.label.dispatches = true →
      taken.before.queue.timerArmed = false)
    (armed : last.queue.timerArmed = true) :
    last.queue.currentOperation = first.queue.currentOperation := by
  refine (run.invariant (fun system : System config => system.harq.Sound ∧
      (system.queue.timerArmed = true →
        system.queue.currentOperation = first.queue.currentOperation))
    (fun system event => event.expires = false ∧ event.failsStart = false ∧
      (event.dispatches = true → system.queue.timerArmed = false)) ?_ ?_
    ⟨sound, fun _ => rfl⟩).2 armed
  · rintro before event after ⟨unexpired, starts, free⟩ ⟨sound, saved⟩ stepped
    have action := action_of_step sound stepped
    refine ⟨(action.move sound).1.sound sound, fun due => ?_⟩
    rcases action.retries with ⟨_, _, _, same⟩ | ⟨item, ret, _, rfl, queue⟩ | ⟨ret, _, rfl, _⟩ |
      ⟨position, rfl, _⟩
    · rw [same.operation]
      exact saved (same.timer ▸ due)
    · rw [queue] at due
      exact absurd ((free rfl).symm.trans due) Bool.false_ne_true
    · cases unexpired
    · cases starts
  · exact fun taken member => ⟨(quiet taken member).1, (quiet taken member).2, turns taken member⟩

/-- The timer expires on the operation whose start failed. -/
theorem expiry_same (booted : Booted start) (run : Run start steps final)
    (turns : ∀ earlier taken later, steps = earlier ++ taken :: later → InTurn earlier taken)
    {earlier between later : List (Transition.Step (System config) (Event config))}
    {failure expiry : Transition.Step (System config) (Event config)} {position : Nat}
    {ret : Int} {call : Call}
    (cut : steps = earlier ++ failure :: (between ++ expiry :: later))
    (failed : failure.label = .opComplete position .invalidStartTime)
    (expired : expiry.label = .retryTimer ret)
    (quiet : ∀ taken ∈ between, taken.label.expires = false ∧ taken.label.failsStart = false)
    (called : (historyOf earlier).calls[position]? = some call) :
    ∃ handed ∈ handedOperation expiry.before expiry.label,
      handed.1.fromQueue = call.operation.fromQueue := by
  have now := retrying_before booted run turns cut
  obtain ⟨⟨own, found, last⟩, _⟩ :=
    (turns earlier failure _ cut).fails position (by rw [failed]; rfl)
  obtain rfl : own = call := Option.some.inj (found.symm.trans called)
  have saved := now.current own (List.mem_of_getElem? called) last
  obtain ⟨_, failing, after⟩ := run.split_at cut
  obtain ⟨until_, expiring, _⟩ := after.split_at rfl
  have action := action_of_step now.sound failing
  have sound := (action.move now.sound).1.sound now.sound
  -- the timer expires, so it was due
  have armed : expiry.before.queue.timerArmed = true := by
    by_contra undue
    have stepped : step expiry.before (.retryTimer ret) = .ok expiry.after := expired ▸ expiring
    cases (if_neg undue).symm.trans stepped
  have kept := saved_until_expiry until_ sound quiet (fun taken member dispatches => by
    obtain ⟨first, rest, rfl⟩ := List.append_of_mem member
    refine (turns (earlier ++ failure :: first) taken (rest ++ expiry :: later) ?_).dispatches
      dispatches
    rw [cut]
    simp) armed
  have unchanged : failure.after.queue.currentOperation =
      failure.before.queue.currentOperation := by
    rcases action.retries with ⟨_, _, _, same⟩ | ⟨_, _, _, label, _⟩ | ⟨_, _, label, _⟩ |
      ⟨_, _, queue⟩
    · exact same.operation
    · cases failed.symm.trans label
    · cases failed.symm.trans label
    · rw [queue, failedRetry_operation]
  refine ⟨(expiry.before.queue.currentOperation, expiry.before.queue.currentProvenance), ?_, ?_⟩
  · rw [expired]
    exact if_pos armed
  · rw [saved]
    exact congrArg Operation.fromQueue (kept.trans unchanged)

/-- The failure of the operation executed last gives the token when it is the last one, and makes a
retry due otherwise. -/
theorem Retrying.token {earlier : List (Transition.Step (System config) (Event config))}
    {taken : Transition.Step (System config) (Event config)} (now : Retrying earlier taken.before)
    (turn : (historyOf earlier).failures < (historyOf earlier).attempts)
    (queue : taken.after.queue =
      dectMacPhyHandlerQueueOperationFailedRetry taken.before.queue) :
    (historyOf earlier).failures ≤ queueMaxRetry ∧
      if (historyOf earlier).failures = queueMaxRetry then
        taken.after.queue.phyLayerSem = min (taken.before.queue.phyLayerSem + 1) 1 ∧
          taken.after.queue.timerArmed = false
      else taken.after.queue.phyLayerSem = taken.before.queue.phyLayerSem ∧
        taken.after.queue.timerArmed = true := by
  obtain ⟨_, left⟩ := now.count turn
  have all : (historyOf earlier).failures + 1 = (historyOf earlier).attempts :=
    le_antisymm turn now.behind
  have bound := now.bounded
  rw [← all] at left bound
  refine ⟨Nat.le_of_succ_le_succ bound, ?_⟩
  rw [queue]
  split
  · rename_i last
    have exhausted : ¬ taken.before.queue.RetriesLeft := fun some => by
      have fewer := left.mp some
      rw [last] at fewer
      exact absurd fewer (Nat.not_succ_le_self _)
    rw [failedRetry_gives exhausted]
    refine ⟨rfl, ?_⟩
    exact now.undue turn
  · rename_i more
    rw [failedRetry_arms (left.mpr (lt_of_le_of_ne (Nat.le_of_succ_le_succ bound) more))]
    exact ⟨rfl, rfl⟩

/-- In every run in which each operation that fails to start is the one executed last, not failed
yet, and the executor dispatches nothing while a retry is due, the retry is right: it executes the
operation that failed, an operation is attempted at most eleven times, and its last failure gives
the token once. -/
theorem retries_right (booted : Booted start) (run : Run start steps final)
    (turns : ∀ earlier taken later, steps = earlier ++ taken :: later → InTurn earlier taken) :
    RetriesRight steps where
  same := fun cut failed expired quiet called =>
    expiry_same booted run turns cut failed expired quiet called
  attempted := fun {earlier since later dispatch} cut dispatches none => by
    obtain ⟨middle, now⟩ := retrying_after booted run turns
      (show steps = (earlier ++ dispatch :: since) ++ later by simp [cut])
    rw [← (historyOf_since earlier dispatches since none).1]
    exact now.bounded
  given := fun {earlier since later dispatch failure} cut dispatches none fails => by
    have here : steps = (earlier ++ dispatch :: since) ++ failure :: later := by simp [cut]
    have now := retrying_before booted run turns here
    obtain ⟨position, label⟩ := Event.eq_opComplete fails
    have turn := ((turns _ failure _ here).fails position (by rw [label]; rfl)).2
    have token := now.token turn (completeRetry_queue now.sound label (run.split_at here).2.1)
    rwa [(historyOf_since earlier dispatches since none).2] at token

end Runs

/-! ### Two operations that start too late -/

/-- A HARQ packet of device 5 starts too late, is sent again by the timer and succeeds. -/
def lateStart : List (Event projectConfig) :=
  .transmit smallPacket (some 4096) :: carriedToModem ++
    [.opComplete 0 .invalidStartTime, .retryTimer 0, .opComplete 0 .success]

/-- The retry of the packet is right, and the timer executes it. -/
theorem retries_right_lateStart :
    ((Transition.followAll step device lateStart).any fun taken => taken.label.expires) = true ∧
      RetriesRight (Transition.followAll step device lateStart) :=
  ⟨by decide +kernel, retries_right device_booted
    (Transition.followAll_run step device lateStart (by decide +kernel))
    (Transition.Run.cuts_of_indexes (by decide +kernel))⟩

/-- A time query of the queue completes, and then the reply to device 7, which bypasses the
queue. -/
def replyAtModem : List (Event projectConfig) :=
  .queuePut .timeGet priorityLow :: carriedToModem ++
    [.management 0 .success ⟨0, 0⟩, received (peerRequest 7 5 0)]

/-- Device 5 when the reply is at the modem. -/
def replyingDevice : System projectConfig := replyAtModem.foldl (Transition.follow step) device

/-- Device 5 when the reply has started too late. -/
def lateDevice : System projectConfig :=
  Transition.follow step replyingDevice (.opComplete 0 .invalidStartTime)

/-- The reply starts too late, and the timer expires. -/
theorem replyFails_cut : Transition.followAll step device
    (replyAtModem ++ [.opComplete 0 .invalidStartTime, .retryTimer 0]) =
      Transition.followAll step device replyAtModem ++
        ⟨replyingDevice, .opComplete 0 .invalidStartTime, lateDevice⟩ ::
          ([] ++ ⟨lateDevice, .retryTimer 0, Transition.follow step lateDevice (.retryTimer 0)⟩ ::
            []) :=
  Transition.followAll_append step device replyAtModem _

/-- When the reply fails to start, the timer executes the operation that the queue executed
last. -/
theorem reply_notRetried :
    ¬ ∀ (start final : System projectConfig)
        (steps : List (Transition.Step (System projectConfig) (Event projectConfig))),
      Booted start → Run start steps final → RetriesRight steps := by
  intro right
  have retried := right _ _ _ device_booted (Transition.followAll_run step device
    (replyAtModem ++ [.opComplete 0 .invalidStartTime, .retryTimer 0]) (by decide +kernel))
  have reply : ∃ call ∈ (historyOf (Transition.followAll step device replyAtModem)).calls[0]?,
      call.operation.fromQueue ≠ .timeGet := by decide +kernel
  have query : ∀ handed ∈ handedOperation lateDevice (.retryTimer 0),
      handed.1.fromQueue = .timeGet := by decide +kernel
  obtain ⟨call, called, other⟩ := reply
  obtain ⟨handed, executed, same⟩ := retried.same replyFails_cut rfl rfl
    (fun _ member => absurd member List.not_mem_nil) called
  exact other (same.symm.trans (query handed executed))

/-! ### The calls are those of the operations at the modem -/

/-- Each call is the one that the operation at its place comes from. -/
def CallsMatch (calls : List Call) (modem : List ModemOp) : Prop :=
  List.Forall₂ (fun call request => Issues call.operation request) calls
    (modem.map ModemOp.request)

/-- What a step does to the requests at the modem. -/
inductive ModemChange (system : System config) (event : Event config) (after : System config) :
    Prop
  | kept (same : after.phy.modem.map ModemOp.request = system.phy.modem.map ModemOp.request)
  | called (operation : Operation) (request : ModemRequest)
      (handed : calledOperation system event = some operation)
      (issues : Issues operation request)
      (added : after.phy.modem.map ModemOp.request =
        system.phy.modem.map ModemOp.request ++ [request])
  | removed (position : Nat)
      (label : (∃ err, event = .opComplete position err) ∨
        ∃ err capability, event = .management position err capability)
      (inside : position < system.phy.modem.length)
      (erased : after.phy.modem.map ModemOp.request =
        (system.phy.modem.map ModemOp.request).eraseIdx position)

/-- A call is at the modem when the modem accepted it. -/
theorem ModemChange.of_call {system after : System config} {event : Event config}
    {operation : Operation} {request : ModemRequest} {origin : Origin} {ret : Int}
    (handed : calledOperation system event = some operation) (issues : Issues operation request)
    (modem : after.phy.modem = modemAfter system.phy.modem request origin ret) :
    ModemChange system event after := by
  unfold modemAfter at modem
  split at modem
  · refine ModemChange.called operation request handed issues ?_
    rw [modem, List.map_append]
    rfl
  · exact ModemChange.kept (by rw [modem])

/-- An operation whose marks change keeps its request. -/
theorem requests_set {modem : List ModemOp} {position : Nat} {op changed : ModemOp}
    (found : modem[position]? = some op) (same : changed.request = op.request) :
    (modem.set position changed).map ModemOp.request = modem.map ModemOp.request := by
  obtain ⟨inside, rfl⟩ := List.getElem?_eq_some_iff.mp found
  have mapped : position < (modem.map ModemOp.request).length := by rwa [List.length_map]
  rw [List.map_set, same, show modem[position].request = (modem.map ModemOp.request)[position]
    from (List.getElem_map _).symm, List.set_getElem_self]

/-- The completion of an operation keeps its request for a second half, or removes it. -/
theorem ModemChange.of_completion {system after : System config} {position : Nat} {err : PhyErr}
    {op : ModemOp} (found : system.phy.modem[position]? = some op)
    (modem : after.phy.modem = completeAt position op err system.phy.modem) :
    ModemChange system (.opComplete position err) after := by
  obtain ⟨inside, _⟩ := List.getElem?_eq_some_iff.mp found
  unfold completeAt at modem
  split at modem
  · refine ModemChange.kept ?_
    rw [modem]
    exact requests_set found rfl
  · refine ModemChange.removed position (Or.inl ⟨err, rfl⟩) inside ?_
    rw [modem, List.eraseIdx_map]

/-- A placeholder keeps the requests. -/
theorem requests_awaitReply (phy : Phy) (provenance : Provenance) :
    (phy.awaitReply provenance).modem.map ModemOp.request = phy.modem.map ModemOp.request := by
  unfold Phy.awaitReply
  split
  · rw [List.map_map]
    refine List.map_congr_left fun op _ => ?_
    dsimp only [Function.comp_apply]
    split <;> rfl
  · rfl

/-- An execution calls its operation, if it calls any. -/
theorem ModemChange.of_execution {operation : Operation} {provenance : Provenance} {ret : Int}
    {system after : System config} {event : Event config} {queue : Queue}
    (handed : calledOperation system event = some operation.fromQueue)
    (execution : Execution config operation provenance ret (system.setQueue queue) after) :
    ModemChange system event after := by
  cases execution with
  | placeholder => exact ModemChange.kept (requests_awaitReply system.phy provenance)
  | nothing => exact ModemChange.kept rfl
  | call request state nodes issues =>
    exact ModemChange.of_call handed issues (show _ = modemAfter system.phy.modem request
      ⟨provenance, true⟩ ret from rfl)

/-- A header whose handler makes a call is a request, and the call is that of its reply. -/
theorem ModemChange.of_header {system after : System config} {status : PccStatus}
    {header : PhyHeader} {ret : Int}
    (received : dectMacPhyPccCb status header ret system = .ok after) :
    ModemChange system (.pcc status header ret) after := by
  obtain ⟨nodes, optimized, ⟨_, code, handled⟩ | ⟨_, _, harq, _, rfl⟩ | ⟨_, _, rfl⟩⟩ :=
    pccCb_cases received
  · unfold dectMacHarqRequest at handled
    obtain ⟨harq, requested, handled⟩ := bind_ok.mp handled
    obtain ⟨⟨cqi, readNodes⟩, read, handled⟩ := bind_ok.mp handled
    obtain ⟨phy, sent, handled⟩ := bind_ok.mp handled
    obtain ⟨⟨putCode, queue⟩, put, handled⟩ := bind_ok.mp handled
    obtain ⟨request, ownNodes, issues, same⟩ := txHarq_spec sent
    have reply : replyOperation system status header = some (.txHarq (replyParams config header
        status.stfStartTime (requestFeedback system.phy.capabilities header cqi harq))) := by
      unfold replyOperation
      rw [optimized, ok_bind]
      dsimp only at requested read ⊢
      rw [requested, ok_bind, read, ok_bind]
      rfl
    cases handled
    exact ModemChange.of_call reply issues (show phy.modem = modemAfter system.phy.modem
      (.txHarq request) ⟨.reply harq.replies, false⟩ ret from congrArg Phy.modem same)
  · exact ModemChange.kept rfl
  · exact ModemChange.kept rfl

/-- What every action does to the requests at the modem. -/
theorem modemChange_of_step {system after : System config} {event : Event config}
    (sound : system.harq.Sound) (stepped : step system event = .ok after) :
    ModemChange system event after := by
  have action := action_of_step sound stepped
  cases action with
  | direct operation ret request state nodes issues =>
    exact ModemChange.of_call rfl issues (show _ = modemAfter system.phy.modem request
      ⟨.user, false⟩ ret from rfl)
  | execDispatch _ item ret executing execution =>
    refine ModemChange.of_execution ?_ execution
    dsimp only [calledOperation, handedOperation]
    rw [executing]
    rfl
  | retryTimer _ ret armed execution =>
    refine ModemChange.of_execution ?_ execution
    dsimp only [calledOperation, handedOperation]
    rw [if_pos armed]
    rfl
  | completeError position err op handle found => exact ModemChange.of_completion found rfl
  | completeRetry position op handle found => exact ModemChange.of_completion found rfl
  | turn position op handle found => exact ModemChange.of_completion found rfl
  | turnHarq position op handle index found => exact ModemChange.of_completion found rfl
  | completeQueued position op handle found => exact ModemChange.of_completion found rfl
  | completeDirect position op handle found => exact ModemChange.of_completion found rfl
  | rssiReport position op found rssi => exact ModemChange.kept (requests_set found rfl)
  | managementGive position capability capabilities op found management =>
    exact ModemChange.removed position (Or.inr ⟨_, _, rfl⟩)
      (List.getElem?_eq_some_iff.mp found).1 (List.eraseIdx_map _ _ _).symm
  | managementKeep position err capability op found keeps management =>
    exact ModemChange.removed position (Or.inr ⟨_, _, rfl⟩)
      (List.getElem?_eq_some_iff.mp found).1 (List.eraseIdx_map _ _ _).symm
  | request status header ret harq reply request nodes code queue addressed processed =>
    exact ModemChange.of_header stepped
  | response status header ret harq nodes notRequest addressed handled =>
    exact ModemChange.kept rfl
  | header status header ret nodes notRequest notResponse => exact ModemChange.kept rfl
  | _ => exact ModemChange.kept rfl

theorem forall₂_eraseIdx {First Second : Type} {relation : First → Second → Prop}
    {first : List First} {second : List Second} (all : List.Forall₂ relation first second) :
    ∀ position, List.Forall₂ relation (first.eraseIdx position) (second.eraseIdx position) := by
  induction all with
  | nil => exact fun _ => List.Forall₂.nil
  | cons related rest inductionHypothesis =>
    intro position
    cases position with
    | zero => exact rest
    | succ position => exact List.Forall₂.cons related (inductionHypothesis position)

theorem callsAfter_of_kept {history : RetryHistory}
    {taken : Transition.Step (System config) (Event config)}
    (length : taken.after.phy.modem.length = taken.before.phy.modem.length) :
    callsAfter history taken = history.calls := by
  unfold callsAfter
  rw [length]
  simp only [lt_irrefl, if_false]
  split
  · rfl
  · rfl
  · split <;> rfl

theorem callsAfter_of_called {history : RetryHistory}
    {taken : Transition.Step (System config) (Event config)} {operation : Operation}
    (handed : calledOperation taken.before taken.label = some operation)
    (grown : taken.before.phy.modem.length < taken.after.phy.modem.length) :
    callsAfter history taken = history.calls ++
      [⟨operation, if taken.label.executes then some (history.executions + 1) else none⟩] := by
  unfold callsAfter
  split
  · rename_i label
    rw [label] at handed
    cases handed
  · rename_i label
    rw [label] at handed
    cases handed
  · rw [handed]
    exact if_pos grown

theorem callsAfter_of_removed {history : RetryHistory}
    {taken : Transition.Step (System config) (Event config)} {position : Nat}
    (label : (∃ err, taken.label = .opComplete position err) ∨
      ∃ err capability, taken.label = .management position err capability)
    (shrunk : taken.after.phy.modem.length < taken.before.phy.modem.length) :
    callsAfter history taken = history.calls.eraseIdx position := by
  unfold callsAfter
  rcases label with ⟨err, label⟩ | ⟨err, capability, label⟩
  · rw [label]
    exact if_pos shrunk
  · rw [label]
    exact if_pos shrunk

/-- A step keeps the calls at the places of their operations. -/
theorem CallsMatch.next {history : RetryHistory}
    {taken : Transition.Step (System config) (Event config)}
    (all : CallsMatch history.calls taken.before.phy.modem)
    (change : ModemChange taken.before taken.label taken.after) :
    CallsMatch (callsAfter history taken) taken.after.phy.modem := by
  unfold CallsMatch at all ⊢
  cases change with
  | kept same =>
    have length : taken.after.phy.modem.length = taken.before.phy.modem.length := by
      simpa using congrArg List.length same
    rw [callsAfter_of_kept length, same]
    exact all
  | called operation request handed issues added =>
    have grown : taken.before.phy.modem.length < taken.after.phy.modem.length := by
      have length := congrArg List.length added
      rw [List.length_append, List.length_map, List.length_map, List.length_singleton] at length
      exact length ▸ Nat.lt_succ_self _
    rw [callsAfter_of_called handed grown, added]
    exact List.rel_append all (List.Forall₂.cons issues List.Forall₂.nil)
  | removed position label inside erased =>
    have shrunk : taken.after.phy.modem.length < taken.before.phy.modem.length := by
      have length := congrArg List.length erased
      rw [List.length_map, List.length_eraseIdx_of_lt (by rwa [List.length_map]),
        List.length_map] at length
      rw [length]
      exact Nat.sub_one_lt_of_lt inside
    rw [callsAfter_of_removed label shrunk, erased]
    exact forall₂_eraseIdx all position

/-- In every run the history has, for each operation at the modem, the operation that its handler
was given. -/
theorem historyOf_matches {start final : System config}
    {steps : List (Transition.Step (System config) (Event config))} (booted : Booted start)
    (run : Run start steps final) : CallsMatch (historyOf steps).calls final.phy.modem := by
  have sound : start.harq.Sound := (boot_retrying booted).sound
  have none : start.phy.modem = [] := by
    obtain ⟨_, _, _, rfl⟩ := booted
    rfl
  refine (run.history (fun earlier (system : System config) => system.harq.Sound ∧
    CallsMatch (historyOf earlier).calls system.phy.modem) (fun _ _ => True) ?_
    (fun _ _ _ _ => trivial) ⟨sound, ?_⟩).2
  · rintro earlier taken - ⟨sound, all⟩ stepped
    refine ⟨((action_of_step sound stepped).move sound).1.sound sound, ?_⟩
    rw [historyOf_snoc]
    exact all.next (modemChange_of_step sound stepped)
  · rw [none]
    exact List.Forall₂.nil

end DectHarq
