/-
This file proves that retransmissions are bounded and consistent.

Between the transmit that takes a process and its next give-back, what happens to the
process is a sequence of observations: a NACK, a feedback of format 6, or an attempt to
queue its operation. The process record is at every moment determined by the first
attempt and the observations since: its count is the number of attempts, its data never
change, and its redundancy version follows the feedback. Feedback and work expirations
may come in any order and number.
-/

import Mathlib.GroupTheory.Perm.List
import DectHarq.HarqMoves

namespace DectHarq

variable {config : Config}

/-! ### Observations -/

/-- What is observed of a process while it is occupied. -/
inductive Observation
  | nack
  | formatSix
  | attempt (params : TxRxParams)

/-- The attempts among the observations. -/
def attempts (observations : List Observation) : List TxRxParams :=
  observations.filterMap fun observation =>
    match observation with
    | .attempt params => some params
    | _ => none

/-- An attempt to queue an operation of a process. -/
def attemptOf (index : Nat) (item : QueueItem) : Option Observation :=
  match item.provenance, item.operation with
  | .packet process _, .txRx params => if process = index then some (.attempt params) else none
  | _, _ => none

/-- What a step lets observe of a process: the feedback it receives for the process, and the
attempts it makes to queue an operation of the process. -/
def observe (index : Fin config.harqProcessCount)
    (taken : Transition.Step (System config) (Event config)) : List Observation :=
  (match harqMove taken.before taken.label with
    | .nacked process => if process = index then [.nack] else []
    | .formatSix process => if process = index then [.formatSix] else []
    | _ => []) ++
  (newCalls taken).filterMap (attemptOf index)

/-- What a run lets observe of a process. -/
def observations (index : Fin config.harqProcessCount)
    (steps : List (Transition.Step (System config) (Event config))) : List Observation :=
  steps.flatMap (observe index)

/-- The cycle in which the redundancy versions follow each other: 0, 2, 3, 1 and 0 again. -/
def redundancyCycle : Equiv.Perm Nat := [0, 2, 3, 1].formPerm

example : [0, 2, 3, 1].map redundancyCycle = [2, 3, 1, 0] := by decide

/-- The redundancy version after some observations: a NACK moves it on in the cycle, a feedback of
format 6 restarts it, and an attempt leaves it as it is. -/
def versionAfter (version : Nat) : List Observation → Nat
  | [] => version
  | .nack :: rest => versionAfter (redundancyCycle version) rest
  | .formatSix :: rest => versionAfter 0 rest
  | .attempt _ :: rest => versionAfter version rest

/-- Every attempt has the redundancy version of the one before it, moved on in the cycle once for
each NACK since and restarted by each feedback of format 6. -/
def VersionLaw (version : Nat) : List Observation → Prop
  | [] => True
  | .nack :: rest => VersionLaw (redundancyCycle version) rest
  | .formatSix :: rest => VersionLaw 0 rest
  | .attempt params :: rest =>
    params.harq.redundancyVersion = version ∧ VersionLaw version rest

theorem attempts_append (first second : List Observation) :
    attempts (first ++ second) = attempts first ++ attempts second :=
  List.filterMap_append ..

theorem versionAfter_append (version : Nat) (first second : List Observation) :
    versionAfter version (first ++ second) =
      versionAfter (versionAfter version first) second := by
  induction first generalizing version with
  | nil => rfl
  | cons observation rest inductionHypothesis =>
    cases observation with
    | nack => exact inductionHypothesis _
    | formatSix => exact inductionHypothesis _
    | attempt params => exact inductionHypothesis _

theorem versionLaw_append (version : Nat) (first second : List Observation) :
    VersionLaw version (first ++ second) ↔
      VersionLaw version first ∧ VersionLaw (versionAfter version first) second := by
  induction first generalizing version with
  | nil => exact (and_iff_right trivial).symm
  | cons observation rest inductionHypothesis =>
    cases observation with
    | nack => exact inductionHypothesis _
    | formatSix => exact inductionHypothesis _
    | attempt params =>
      show _ ∧ VersionLaw version (rest ++ second) ↔ (_ ∧ VersionLaw version rest) ∧ _
      rw [inductionHypothesis, and_assoc]
      exact Iff.rfl

/-! ### One move -/

/-- What a move does to an occupied process, with what is observed of it. -/
inductive ProcessChange (config : Config) (index : Fin config.harqProcessCount) :
    HarqProcess → List Observation → HarqProcess → Prop
  | kept (before after : HarqProcess)
      (same : transmissionFields after = transmissionFields before) :
      ProcessChange config index before [] after
  | nacked (before after : HarqProcess)
      (same : transmissionFields after = transmissionFields (nackedProcess before)) :
      ProcessChange config index before [.nack] after
  | restarted (before after : HarqProcess)
      (same : transmissionFields after = transmissionFields (restartedProcess before)) :
      ProcessChange config index before [.formatSix] after
  | retransmitted (before : HarqProcess)
      (below : before.transmissionCount < config.harqMaxTransmissions) :
      ProcessChange config index before
        [.attempt (harqTxRxParams config (countedProcess before) 0)] (countedProcess before)

/-- A request of a peer is received. -/
def HarqMove.isRequest : HarqMove config → Bool
  | .requested _ => true
  | _ => false

theorem attemptOf_harqItem (index other : Fin config.harqProcessCount) (process : HarqProcess)
    (startTime : Nat) (priority : UInt32) :
    attemptOf index (harqItem config other process startTime priority) =
      if other = index then some (.attempt (harqTxRxParams config process startTime))
      else none := by
  show (if (other : Nat) = (index : Nat) then _ else _) = _
  simp only [Fin.val_inj]

/-- What is observed of a process, by the move of the step. -/
def HarqMove.observations (index : Fin config.harqProcessCount) (after : Harq config)
    (move : HarqMove config) : List Observation :=
  (match move with
    | .nacked process => if process = index then [.nack] else []
    | .formatSix process => if process = index then [.formatSix] else []
    | _ => []) ++ (move.attempt after).toList.filterMap (attemptOf index)

/-- A process that is occupied before and after a move is changed as observed, unless the move
is a request. -/
theorem HarqStep.change {before after : Harq config} {move : HarqMove config}
    (taken : HarqStep before move after) (sound : before.Sound) (noRequest : move.isRequest = false)
    (index : Fin config.harqProcessCount) (occupied : before.occupied index = true)
    (still : after.occupied index = true) :
    ProcessChange config index (before.processes index) (move.observations index after)
      (after.processes index) := by
  have initialized := sound.initialized_of_occupied occupied
  have kept {observed : List Observation} {process : HarqProcess} (none : observed = [])
      (same : transmissionFields process = transmissionFields (before.processes index)) :
      ProcessChange config index (before.processes index) observed process := by
    rw [none]
    exact ProcessChange.kept _ _ same
  have apart {other : Fin config.harqProcessCount} (free : before.occupied other = false) :
      index ≠ other := fun same => by
    rw [← same, occupied] at free
    cases free
  cases taken with
  | idle => exact kept rfl rfl
  | refused capabilities =>
    rw [initialize_of_initialized initialized]
    exact kept rfl rfl
  | dropped capabilities other free =>
    rw [initialize_of_initialized initialized] at free ⊢
    rw [givenHarq_processes_of_ne _ _ (apart free), takenHarq_processes_of_ne _ (apart free)]
    exact kept rfl rfl
  | sent capabilities other params address free =>
    rw [initialize_of_initialized initialized] at free ⊢
    rw [modify_processes_of_ne _ _ (apart free), takenHarq_processes_of_ne _ (apart free)]
    refine kept ?_ rfl
    show List.filterMap _ [harqItem config other _ _ _] = []
    rw [List.filterMap_cons, attemptOf_harqItem, if_neg (Ne.symm (apart free))]
    rfl
  | acked capabilities other =>
    rw [initialize_of_initialized initialized] at still ⊢
    have distinct : index ≠ other := fun same => by
      rw [← same, givenHarq_occupied_self] at still
      cases still
    rw [givenHarq_processes_of_ne _ _ distinct]
    exact kept rfl rfl
  | expired capabilities other =>
    rw [initialize_of_initialized initialized] at still ⊢
    have distinct : index ≠ other := fun same => by
      rw [← same, givenHarq_occupied_self] at still
      cases still
    rw [givenHarq_processes_of_ne _ _ distinct]
    exact kept rfl rfl
  | nacked other =>
    have same := scheduleWork_reading transmissionFields (fun _ => rfl) other index
      (before.modify other nackedProcess)
    by_cases equal : other = index
    · subst equal
      rw [modify_processes_self] at same
      simp only [HarqMove.observations, HarqMove.attempt, if_true]
      exact ProcessChange.nacked _ _ same
    · rw [modify_processes_of_ne _ _ (Ne.symm equal)] at same
      simp only [HarqMove.observations, HarqMove.attempt, if_neg equal]
      exact ProcessChange.kept _ _ same
  | formatSix other =>
    have same := scheduleWork_reading transmissionFields (fun _ => rfl) other index
      (before.modify other restartedProcess)
    by_cases equal : other = index
    · subst equal
      rw [modify_processes_self] at same
      simp only [HarqMove.observations, HarqMove.attempt, if_true]
      exact ProcessChange.restarted _ _ same
    · rw [modify_processes_of_ne _ _ (Ne.symm equal)] at same
      simp only [HarqMove.observations, HarqMove.attempt, if_neg equal]
      exact ProcessChange.kept _ _ same
  | completed other =>
    exact kept rfl (scheduleWork_reading transmissionFields (fun _ => rfl) other index before)
  | retransmitted other pending below =>
    have observed : (HarqMove.retransmitted other).observations index
        (before.modify other countedProcess) = if other = index then
          [.attempt (harqTxRxParams config (countedProcess (before.processes other)) 0)]
        else [] := by
      show List.filterMap _ [harqItem config other
        ((before.modify other countedProcess).processes other) _ _] = _
      rw [modify_processes_self, List.filterMap_cons, attemptOf_harqItem]
      by_cases equal : other = index
      · rw [if_pos equal, if_pos equal]
        rfl
      · rw [if_neg equal, if_neg equal]
        rfl
    rw [observed]
    by_cases equal : other = index
    · subst equal
      rw [modify_processes_self, if_pos rfl]
      exact ProcessChange.retransmitted _ below
    · rw [modify_processes_of_ne _ _ (Ne.symm equal), if_neg equal]
      exact kept rfl rfl
  | requested => cases noRequest

/-! ### Redundancy versions -/

/-- All redundancy versions fit the two bits they are stored in. -/
def Harq.Versioned (harq : Harq config) : Prop :=
  ∀ index, (harq.processes index).redundancyVersion < 4

/-- `dect_mac_harq_increment_redundancy_version` goes on to the next version of the cycle. -/
theorem increment_eq_cycle (version : Nat) :
    dectMacHarqIncrementRedundancyVersion version = redundancyCycle version := by
  match version with
  | 0 => rfl
  | 1 => rfl
  | 2 => rfl
  | 3 => rfl
  | other + 4 =>
    -- no version of the cycle: the switch leaves it as it is
    show other + 4 = redundancyCycle (other + 4)
    exact (List.formPerm_apply_of_notMem (by simp)).symm

theorem increment_lt (version : Nat) (small : version < 4) :
    dectMacHarqIncrementRedundancyVersion version < 4 := by
  match version, small with
  | 0, _ => decide
  | 1, _ => decide
  | 2, _ => decide
  | 3, _ => decide

theorem Harq.Versioned.modify {harq : Harq config} (versioned : harq.Versioned)
    (index : Fin config.harqProcessCount) (change : HarqProcess → HarqProcess)
    (small : (change (harq.processes index)).redundancyVersion < 4) :
    (harq.modify index change).Versioned := by
  intro other
  by_cases same : other = index
  · subst same
    rw [modify_processes_self]
    exact small
  · rw [modify_processes_of_ne _ _ same]
    exact versioned other

theorem Harq.Versioned.scheduleWork {harq : Harq config} (versioned : harq.Versioned)
    (index : Fin config.harqProcessCount) : (scheduleWork index harq).Versioned := by
  intro other
  rw [scheduleWork_reading (fun process => process.redundancyVersion) (fun _ => rfl)]
  exact versioned other

theorem Harq.Versioned.ready {harq : Harq config} (versioned : harq.Versioned)
    (capabilities : Capabilities) : (dectMacHarqInitialize capabilities harq).Versioned := by
  unfold dectMacHarqInitialize
  split
  · exact versioned
  · exact fun _ => (by decide : (0 : Nat) < 4)

theorem HarqStep.versioned {before after : Harq config} {move : HarqMove config}
    (taken : HarqStep before move after) (versioned : before.Versioned) : after.Versioned := by
  have zero : (0 : Nat) < 4 := by decide
  cases taken with
  | idle => exact versioned
  | refused capabilities => exact versioned.ready capabilities
  | dropped capabilities index =>
    have ready := versioned.ready capabilities
    exact Harq.Versioned.modify (ready.modify index _ (ready index)) index _ zero
  | sent capabilities index =>
    have ready := versioned.ready capabilities
    have taken : (takenHarq index (dectMacHarqInitialize capabilities before)).Versioned :=
      Harq.Versioned.modify ready index _ (ready index)
    refine taken.modify index _ ?_
    rw [takenHarq_processes_self]
    exact ready index
  | acked capabilities index => exact (versioned.ready capabilities).modify index _ zero
  | nacked index =>
    exact (versioned.modify index _ (increment_lt _ (versioned index))).scheduleWork index
  | formatSix index => exact (versioned.modify index _ zero).scheduleWork index
  | completed index => exact versioned.scheduleWork index
  | retransmitted index => exact versioned.modify index _ (versioned index)
  | expired capabilities index => exact (versioned.ready capabilities).modify index _ zero
  | requested capabilities processed header handled =>
    obtain ⟨process, size, _, rfl⟩ := requestProcess_cases handled
    exact versioned.modify process _ zero

/-! ### The history of a packet -/

/-- An operation carries the packet of a process, as the process holds it. -/
structure Carries (config : Config) (index : Fin config.harqProcessCount) (process : HarqProcess)
    (sent : TxRxParams) : Prop where
  data : sent.data = process.data
  dataSize : sent.dataSize = process.dataLen
  receiverId : sent.receiverId = process.receiverId
  number : sent.harq.harqProcessNr = (index : Nat)
  newData : sent.harq.newDataIndication = process.newDataIndication.toNat

/-- A process record agrees with what was observed of the process since it was taken for a
packet. -/
structure Consistent (config : Config) (index : Fin config.harqProcessCount)
    (params : HarqTransmitParams) (address : Nat) (observed : List Observation)
    (process : HarqProcess) : Prop where
  /-- The process holds the packet. -/
  holds : process.data = some ⟨address, params.data.take params.dataLen⟩ ∧
    process.dataLen = params.dataLen ∧ process.receiverId = params.receiverId
  /-- The count is the number of attempts. -/
  count : process.transmissionCount = (attempts observed).length
  bounded : process.transmissionCount ≤ config.harqMaxTransmissions
  /-- Every attempt carried the packet, the process number and the new-data indication. -/
  same : ∀ sent ∈ attempts observed, Carries config index process sent
  /-- The versions of the attempts, and the one of the next attempt, follow the feedback. -/
  versions : ∃ first rest, observed = .attempt first :: rest ∧
    VersionLaw first.harq.redundancyVersion rest ∧
    process.redundancyVersion = versionAfter first.harq.redundancyVersion rest

theorem harqTxRxParams_carries {index : Fin config.harqProcessCount} {process : HarqProcess}
    (number : process.processNumber = (index : Nat)) (startTime : Nat) :
    Carries config index process (harqTxRxParams config process startTime) where
  data := rfl
  dataSize := rfl
  receiverId := rfl
  number := by
    show process.processNumber % 2 ^ 3 = _
    have range := config.harqProcessCount_range.2
    rw [number, Nat.mod_eq_of_lt (by omega)]
  newData := by
    exact Nat.mod_eq_of_lt (Bool.toNat_lt process.newDataIndication)

theorem Carries.of_fields {index : Fin config.harqProcessCount} {before after : HarqProcess}
    {sent : TxRxParams} (carries : Carries config index before sent)
    (data : after.data = before.data) (dataLen : after.dataLen = before.dataLen)
    (receiver : after.receiverId = before.receiverId)
    (newData : after.newDataIndication = before.newDataIndication) :
    Carries config index after sent :=
  ⟨carries.data.trans data.symm, carries.dataSize.trans dataLen.symm,
    carries.receiverId.trans receiver.symm, carries.number, by rw [newData]; exact carries.newData⟩

/-- A change of the process extends its history by what is observed of the change. -/
theorem Consistent.change {index : Fin config.harqProcessCount} {params : HarqTransmitParams}
    {address : Nat} {observed more : List Observation} {before after : HarqProcess}
    (consistent : Consistent config index params address observed before)
    (changed : ProcessChange config index before more after)
    (number : before.processNumber = (index : Nat)) (small : before.redundancyVersion < 4) :
    Consistent config index params address (observed ++ more) after := by
  obtain ⟨holds, count, bounded, same, first, rest, rfl, law, version⟩ := consistent
  have extend (record : HarqProcess)
      (fields : transmissionFields after = transmissionFields record)
      (data : record.data = before.data) (dataLen : record.dataLen = before.dataLen)
      (receiver : record.receiverId = before.receiverId)
      (newData : record.newDataIndication = before.newDataIndication)
      (counted : record.transmissionCount = before.transmissionCount)
      (silent : attempts more = [])
      (lawful : VersionLaw before.redundancyVersion more)
      (next : record.redundancyVersion = versionAfter before.redundancyVersion more) :
      Consistent config index params address (.attempt first :: rest ++ more) after := by
    simp only [transmissionFields, Prod.mk.injEq] at fields
    obtain ⟨data', dataLen', receiver', count', version', newData'⟩ := fields
    refine ⟨?_, ?_, ?_, ?_, first, rest ++ more, rfl, ?_, ?_⟩
    · rw [data', dataLen', receiver', data, dataLen, receiver]
      exact holds
    · rw [attempts_append, silent, List.append_nil, count', counted]
      exact count
    · rw [count', counted]
      exact bounded
    · rw [attempts_append, silent, List.append_nil]
      exact fun sent member => (same sent member).of_fields (data'.trans data)
        (dataLen'.trans dataLen) (receiver'.trans receiver) (newData'.trans newData)
    · rw [versionLaw_append, ← version]
      exact ⟨law, lawful⟩
    · rw [version', next, versionAfter_append, version]
  cases changed with
  | kept _ fields => exact extend before fields rfl rfl rfl rfl rfl rfl trivial rfl
  | nacked _ fields =>
    exact extend _ fields rfl rfl rfl rfl rfl rfl trivial (increment_eq_cycle _)
  | restarted _ fields => exact extend _ fields rfl rfl rfl rfl rfl rfl trivial rfl
  | retransmitted below =>
    have range := config.harqMaxTransmissions_range.2
    have byte : before.transmissionCount + 1 < 256 := by omega
    have counted : (countedProcess before).transmissionCount = before.transmissionCount + 1 :=
      uint8_eq_self byte
    refine ⟨holds, ?_, ?_, ?_, first, rest ++ _, rfl, ?_, ?_⟩
    · rw [counted, attempts_append, List.length_append, ← count]
      rfl
    · rw [counted]
      exact below
    · intro sent member
      rw [attempts_append] at member
      rcases List.mem_append.mp member with old | new
      · exact (same sent old).of_fields rfl rfl rfl rfl
      · rw [List.mem_singleton.mp new]
        exact harqTxRxParams_carries (show (countedProcess before).processNumber = _ from number) 0
    · rw [versionLaw_append, ← version]
      refine ⟨law, ?_, trivial⟩
      exact Nat.mod_eq_of_lt small
    · rw [versionAfter_append, ← version]
      rfl

/-- The process a transmit fills starts its history with the first attempt. -/
theorem HarqStep.sent_consistent {before after : Harq config} {params : HarqTransmitParams}
    {address : Nat} {index : Fin config.harqProcessCount}
    (taken : HarqStep before (.sent index params address) after) (sound : before.Sound)
    (versioned : before.Versioned) :
    Consistent config index params address
        ((HarqMove.sent index params address).observations index after) (after.processes index) ∧
      after.occupied index = true := by
  have small := taken.versioned versioned index
  cases taken with
  | sent capabilities _ _ _ free =>
    have number : ((takenHarq index (dectMacHarqInitialize capabilities before)).processes
        index).processNumber = (index : Nat) :=
      takenHarq_numbered (initialize_numbered sound) index
    have observed : (HarqMove.sent index params address).observations index
        ((takenHarq index (dectMacHarqInitialize capabilities before)).modify index
          (filledProcess params address)) =
        [.attempt (harqTxRxParams config (filledProcess params address
          ((takenHarq index (dectMacHarqInitialize capabilities before)).processes index))
            params.startTime)] := by
      show List.filterMap _ [harqItem config index (((takenHarq index
        (dectMacHarqInitialize capabilities before)).modify index
          (filledProcess params address)).processes index) _ _] = _
      rw [modify_processes_self, List.filterMap_cons, attemptOf_harqItem, if_pos rfl]
      rfl
    rw [modify_processes_self] at small
    rw [observed, modify_processes_self]
    refine ⟨⟨⟨rfl, rfl, rfl⟩, rfl, config.harqMaxTransmissions_range.1, ?_,
      _, [], rfl, trivial, ?_⟩, takenHarq_occupied_self _ _⟩
    · intro sent member
      rw [List.mem_singleton.mp member]
      exact harqTxRxParams_carries (show (filledProcess params address
        ((takenHarq index _).processes index)).processNumber = _ from number) _
    · exact (Nat.mod_eq_of_lt small).symm

/-- What is observed of a process in a step is what the move of the step lets observe. -/
theorem Action.observe {system after : System config} {event : Event config}
    (sound : system.harq.Sound) (action : Action system event after)
    (index : Fin config.harqProcessCount) :
    observe index ⟨system, event, after⟩ =
      (harqMove system event).observations index after.harq := by
  rw [DectHarq.observe, action.newCalls sound]
  rfl

/-- As long as the process stays occupied and no request arrives, its record stays consistent
with what is observed of it. -/
theorem consistent_of_segment {middle final : System config}
    {later : List (Transition.Step (System config) (Event config))}
    {index : Fin config.harqProcessCount} {params : HarqTransmitParams} {address : Nat}
    {observed : List Observation} (segment : Run middle later final)
    (each : ∀ taken ∈ later, taken.before.harq.Sound ∧ taken.before.harq.Versioned ∧
      Action taken.before taken.label taken.after ∧
      (harqMove taken.before taken.label).isRequest = false)
    (kept : ∀ taken ∈ later, taken.after.harq.occupied index = true)
    (occupied : middle.harq.occupied index = true)
    (base : Consistent config index params address observed (middle.harq.processes index)) :
    Consistent config index params address (observed ++ observations index later)
        (final.harq.processes index) ∧ final.harq.occupied index = true := by
  induction segment with
  | nil => exact ⟨(List.append_nil observed).symm ▸ base, occupied⟩
  | @snoc last final steps event earlier stepped inductionHypothesis =>
    obtain ⟨consistent, busy⟩ := inductionHypothesis
      (fun taken member => each taken (List.mem_append_left _ member))
      (fun taken member => kept taken (List.mem_append_left _ member))
    obtain ⟨sound, versioned, action, noRequest⟩ :=
      each _ (List.mem_append_right _ List.mem_cons_self)
    have still : final.harq.occupied index = true :=
      kept _ (List.mem_append_right _ List.mem_cons_self)
    have changed := (action.move sound).1.change sound noRequest index busy still
    have next := consistent.change changed
      (sound.numbered (sound.initialized_of_occupied busy) index) (versioned index)
    refine ⟨?_, still⟩
    have split : observations index (steps ++ [⟨last, event, final⟩]) =
        observations index steps ++ (harqMove last event).observations index final.harq := by
      rw [observations, List.flatMap_append, List.flatMap_singleton, action.observe sound]
      rfl
    rw [split, ← List.append_assoc]
    exact next

/-- At the limit the work gives the process back. -/
theorem work_gives_back {system : System config} (sound : system.harq.Sound)
    {index : Fin config.harqProcessCount}
    (pending : (system.harq.processes index).workPending = true)
    (limit : (system.harq.processes index).transmissionCount = config.harqMaxTransmissions) :
    ∃ after, step system (.workExpired index) = .ok after ∧ after.harq.occupied index = false := by
  have atLimit : ¬ ((cancelWork index system.harq).processes index).transmissionCount <
      config.harqMaxTransmissions := by
    rw [cancelWork, modify_processes_self]
    exact Nat.not_lt_of_le (Nat.le_of_eq limit.symm)
  cases stepped : step system (.workExpired index) with
  | ok after =>
    refine ⟨after, rfl, ?_⟩
    have moved := ((action_of_step sound stepped).move sound).1
    have move : harqMove system (.workExpired index) = .expired index :=
      if_neg (Nat.not_lt_of_le (Nat.le_of_eq limit.symm))
    rw [move] at moved
    generalize after.harq = harq at moved
    cases moved with
    | expired => exact givenHarq_occupied_self _ _ _
  | error stop =>
    exfalso
    obtain ⟨harq, given⟩ := giveProcess_returns system.phy.capabilities
      (initialize_numbered (cancelWork_sound sound) index)
    simp only [step, if_pos pending, dectMacHarqRetransmissionWorkHandler] at stepped
    rw [if_neg atLimit, given] at stepped
    cases stepped

theorem boot_versioned (config : Config) : (Harq.boot config).Versioned :=
  fun _ => (by decide : (0 : Nat) < 4)

/-- Retransmissions are bounded and consistent. In every run from boot without requests, take a
transmit that fills a process, and the steps after it up to any moment before the process is
given back. Then the count of the process is the number of attempts to queue the packet and
does not exceed the limit; the attempts carry the same packet, process number and new-data
indication; their versions follow the feedback; and if the limit is reached, the next
expiration of the work gives the process back. -/
theorem retransmission_consistent {start final : System config}
    {earlier later : List (Transition.Step (System config) (Event config))}
    {sent : Transition.Step (System config) (Event config)} {index : Fin config.harqProcessCount}
    {params : HarqTransmitParams} {address : Nat} (booted : Booted start)
    (run : Run start (earlier ++ sent :: later) final)
    (took : harqMove sent.before sent.label = .sent index params address)
    (noRequest : ∀ taken ∈ earlier ++ sent :: later,
      (harqMove taken.before taken.label).isRequest = false)
    (kept : ∀ taken ∈ later, taken.after.harq.occupied index = true) :
    Consistent config index params address (observations index (sent :: later))
        (final.harq.processes index) ∧
      ((final.harq.processes index).workPending = true →
        (final.harq.processes index).transmissionCount = config.harqMaxTransmissions →
          ∃ after, step final (.workExpired index) = .ok after ∧
            after.harq.occupied index = false) := by
  have base : start.harq.Versioned := by
    obtain ⟨deviceId, allocations, _, rfl⟩ := booted
    exact boot_versioned config
  have moved : ∀ (system : System config) (event : Event config) (after : System config),
      system.harq.Sound → True → system.harq.Versioned → Action system event after →
        after.harq.Versioned := fun system event after sound _ versioned action =>
    (action.move sound).1.versioned versioned
  have each := run_invariant_before booted run (fun system => system.harq.Versioned)
    (fun _ _ => True) base moved (fun _ _ => trivial)
  have sound := (run_invariant booted run (fun system => system.harq.Versioned)
    (fun _ _ => True) base moved (fun _ _ => trivial)).1
  obtain ⟨_, _, segment⟩ := run.split_at rfl
  obtain ⟨soundBefore, versioned, action⟩ :=
    each sent (List.mem_append_right _ List.mem_cons_self)
  have taken := (action.move soundBefore).1
  have seen := action.observe soundBefore index
  rw [took] at taken seen
  obtain ⟨first, occupied⟩ := taken.sent_consistent soundBefore versioned
  have consistent := (consistent_of_segment segment (fun taken member => by
    have inside : taken ∈ earlier ++ sent :: later :=
      List.mem_append_right _ (List.mem_cons_of_mem _ member)
    obtain ⟨sound, versioned, action⟩ := each taken inside
    exact ⟨sound, versioned, action, noRequest taken inside⟩) kept occupied first).1
  refine ⟨?_, fun pending limit => work_gives_back sound pending limit⟩
  rw [← seen] at consistent
  exact consistent

/-- The three steps of a packet that is retransmitted once. -/
def retransmissionEvents : List (Event projectConfig) :=
  [.transmit smallPacket (some 4096),
    .pcc ⟨1, 0, -100, 40⟩ (peerFeedback 7 5 (format1Feedback 0 0 0)) 0,
    .workExpired (processZero projectConfig)]

/-- Device 5 sends a packet and receives a NACK for it, and the work retransmits it. -/
theorem retransmission_consistent_nacked :
    ∃ (final : System projectConfig)
      (sent : Transition.Step (System projectConfig) (Event projectConfig))
      (later : List (Transition.Step (System projectConfig) (Event projectConfig))),
      Run device (sent :: later) final ∧
        (sent :: later).map (fun taken => taken.label) = retransmissionEvents ∧
        Consistent projectConfig (processZero projectConfig) smallPacket 4096
          (observations (processZero projectConfig) (sent :: later))
          (final.harq.processes (processZero projectConfig)) := by
  have run := Transition.followAll_run step device retransmissionEvents (by decide +kernel)
  have consistent := retransmission_consistent device_booted
    (show Run device ([] ++ _ :: _) _ from run) rfl (by decide +kernel) (by decide +kernel)
  exact ⟨_, _, _, run, rfl, consistent.1⟩

end DectHarq
