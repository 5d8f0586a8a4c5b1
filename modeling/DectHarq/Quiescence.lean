/-
This file settles when free HARQ processes are quiescent.

Three moves schedule the work of a process: a NACK, a feedback of format 6, and the
completion of a transmission. None of them looks at the occupied flag, so a free
process wakes up when one of them names it. All other moves keep the free processes
quiescent; hence they are quiescent throughout a run exactly when no such move of the
run names a free process.
-/

import DectHarq.HarqMoves

namespace DectHarq

variable {config : Config}

/-- A process without data, without transmissions, and without pending work. -/
structure HarqProcess.Quiescent (process : HarqProcess) : Prop where
  data : process.data = none
  count : process.transmissionCount = 0
  version : process.redundancyVersion = 0
  work : process.workPending = false

/-- Once the module is initialized, every process that is not occupied is quiescent. -/
def Harq.Quiescent (harq : Harq config) : Prop :=
  harq.initialized = true → ∀ index, harq.occupied index = false →
    (harq.processes index).Quiescent

/-- The process whose work a move schedules. -/
def HarqMove.awakened : HarqMove config → Option (Fin config.harqProcessCount)
  | .nacked index => some index
  | .formatSix index => some index
  | .completed index => some index
  | _ => none

/-- The event wakes up no free process of an initialized table. -/
def SparesFree (system : System config) (event : Event config) : Prop :=
  ∀ index, (harqMove system event).awakened = some index → system.harq.initialized = true →
    system.harq.occupied index = true

instance (system : System config) (event : Event config) : Decidable (SparesFree system event) :=
  inferInstanceAs (Decidable (∀ _, _ = some _ → _ → _))

/-! ### One move -/

theorem givenProcess_quiescent (capabilities : Capabilities) (process : HarqProcess) :
    (givenProcess config capabilities process).Quiescent := ⟨rfl, rfl, rfl, rfl⟩

theorem initialize_quiescent (capabilities : Capabilities) {harq : Harq config}
    (quiescent : harq.Quiescent) : (dectMacHarqInitialize capabilities harq).Quiescent := by
  unfold dectMacHarqInitialize
  split
  · exact quiescent
  · exact fun _ _ _ => ⟨rfl, rfl, rfl, rfl⟩

theorem Harq.Quiescent.given {capabilities : Capabilities} {harq : Harq config}
    (quiescent : harq.Quiescent) (index : Fin config.harqProcessCount) :
    (givenHarq capabilities index harq).Quiescent := by
  intro initialized other free
  by_cases same : other = index
  · subst same
    rw [givenHarq_processes_self]
    exact givenProcess_quiescent capabilities _
  · rw [givenHarq_occupied_of_ne _ _ same] at free
    rw [givenHarq_processes_of_ne _ _ same]
    exact quiescent initialized other free

theorem Harq.Quiescent.taken {harq : Harq config} (quiescent : harq.Quiescent)
    (index : Fin config.harqProcessCount) : (takenHarq index harq).Quiescent := by
  intro initialized other free
  by_cases same : other = index
  · subst same
    rw [takenHarq_occupied_self] at free
    cases free
  · rw [takenHarq_occupied_of_ne _ same] at free
    rw [takenHarq_processes_of_ne _ same]
    exact quiescent initialized other free

/-- A change of one process keeps the free ones quiescent if it keeps that one quiescent or that
one is occupied. -/
theorem Harq.Quiescent.modify {harq : Harq config} (quiescent : harq.Quiescent)
    (index : Fin config.harqProcessCount) (change : HarqProcess → HarqProcess)
    (kept : harq.initialized = true → harq.occupied index = false →
      (harq.processes index).Quiescent → (change (harq.processes index)).Quiescent) :
    (harq.modify index change).Quiescent := by
  intro initialized other free
  by_cases same : other = index
  · subst same
    rw [modify_processes_self]
    exact kept initialized free (quiescent initialized other free)
  · rw [modify_processes_of_ne _ _ same]
    exact quiescent initialized other free

/-- Scheduling the work of a process whose other fields a feedback may have changed keeps the
free processes quiescent exactly when the process is occupied. -/
theorem scheduleWork_quiescent_iff {harq : Harq config} (quiescent : harq.Quiescent)
    (index : Fin config.harqProcessCount) (change : HarqProcess → HarqProcess) :
    (scheduleWork index (harq.modify index change)).Quiescent ↔
      (harq.initialized = true → harq.occupied index = true) := by
  unfold scheduleWork
  by_cases initialized : harq.initialized = true
  · rw [if_pos (show (harq.modify index change).initialized = true from initialized)]
    constructor
    · intro after _
      by_contra free
      have awake := (after initialized index (by simpa using free)).work
      rw [modify_processes_self] at awake
      cases awake
    · intro occupied
      refine (quiescent.modify index change ?_).modify index _ ?_
      · intro _ free
        rw [occupied initialized] at free
        cases free
      · intro _ free
        rw [modify_occupied, occupied initialized] at free
        cases free
  · rw [if_neg (show ¬ (harq.modify index change).initialized = true from initialized)]
    exact ⟨fun _ ready => absurd ready initialized, fun _ ready => absurd ready initialized⟩

/-- A move keeps the free processes quiescent exactly when it wakes up none of them. -/
theorem HarqStep.keeps_quiescent_iff {before after : Harq config} {move : HarqMove config}
    (taken : HarqStep before move after) (quiescent : before.Quiescent) :
    after.Quiescent ↔ ∀ index, move.awakened = some index → before.initialized = true →
      before.occupied index = true := by
  have quiet (none : move.awakened = none) (kept : after.Quiescent) :
      after.Quiescent ↔ ∀ index, move.awakened = some index → before.initialized = true →
        before.occupied index = true := by
    rw [none]
    exact ⟨fun _ _ awakened => (by cases awakened), fun _ => kept⟩
  have named (index : Fin config.harqProcessCount) (some_ : move.awakened = some index)
      (schedules : after.Quiescent ↔
        (before.initialized = true → before.occupied index = true)) :
      after.Quiescent ↔ ∀ index, move.awakened = some index → before.initialized = true →
        before.occupied index = true := by
    rw [schedules, some_]
    exact ⟨fun occupied other same => Option.some.inj same ▸ occupied,
      fun each => each index rfl⟩
  cases taken with
  | idle => exact quiet rfl quiescent
  | refused capabilities => exact quiet rfl (initialize_quiescent capabilities quiescent)
  | dropped capabilities index =>
    exact quiet rfl (((initialize_quiescent capabilities quiescent).taken index).given index)
  | sent capabilities index params address =>
    refine quiet rfl (((initialize_quiescent capabilities quiescent).taken index).modify index _ ?_)
    intro _ free
    rw [takenHarq_occupied_self] at free
    cases free
  | acked capabilities index =>
    exact quiet rfl ((initialize_quiescent capabilities quiescent).given index)
  | nacked index => exact named index rfl (scheduleWork_quiescent_iff quiescent index _)
  | formatSix index => exact named index rfl (scheduleWork_quiescent_iff quiescent index _)
  | completed index =>
    refine named index rfl ?_
    have same : before = before.modify index id := by
      simp only [Harq.modify, id, Function.update_eq_self]
    have schedules := scheduleWork_quiescent_iff quiescent index id
    rw [← same] at schedules
    exact schedules
  | retransmitted index pending =>
    refine quiet rfl (quiescent.modify index _ ?_)
    intro _ _ still
    rw [still.work] at pending
    cases pending
  | expired capabilities index =>
    exact quiet rfl ((initialize_quiescent capabilities quiescent).given index)
  | requested capabilities processed header handled =>
    refine quiet rfl ?_
    obtain ⟨process, size, _, rfl⟩ := requestProcess_cases handled
    exact quiescent.modify process _ fun _ _ still => ⟨rfl, rfl, rfl, still.work⟩

/-! ### Runs -/

/-- What the quiescence of the free processes means for a step: after it they are quiescent, a
work that runs belongs to an occupied process, and the first transmission of a packet has the
redundancy version 0. -/
structure Quiet (taken : Transition.Step (System config) (Event config)) : Prop where
  free : taken.after.harq.Quiescent
  retransmits : ∀ index, taken.label = .workExpired index →
    taken.before.harq.occupied index = true
  first : ∀ params heap, taken.label = .transmit params heap → ∀ item ∈ newCalls taken,
    ∃ sent, item.operation = .txRx sent ∧ sent.harq.redundancyVersion = 0

/-- A work that runs belongs to an occupied process, if the free ones are quiescent. -/
theorem Action.occupied_of_work {system after : System config} {event : Event config}
    (sound : system.harq.Sound) (quiescent : system.harq.Quiescent)
    (action : Action system event after) (index : Fin config.harqProcessCount)
    (label : event = .workExpired index) : system.harq.occupied index = true := by
  have pending : (system.harq.processes index).workPending = true := by
    cases action with
    | retransmitted _ _ _ _ pending => cases label; exact pending
    | expired _ pending => cases label; exact pending
    | _ => cases label
  have initialized := sound.initialized_of_pending pending
  by_contra free
  rw [(quiescent initialized index (by simpa using free)).work] at pending
  cases pending

/-- The operation a transmit attempts to queue has the redundancy version 0, if the free
processes are quiescent. -/
theorem Action.first_version {system after : System config} {event : Event config}
    (sound : system.harq.Sound) (quiescent : system.harq.Quiescent)
    (action : Action system event after) (params : HarqTransmitParams) (heap : Option Nat)
    (label : event = .transmit params heap) :
    ∀ item ∈ DectHarq.newCalls ⟨system, event, after⟩,
      ∃ sent, item.operation = .txRx sent ∧ sent.harq.redundancyVersion = 0 := by
  intro item member
  rw [action.newCalls sound] at member
  have moved := (action.move sound).1
  have transmits : harqMove system event = transmitMove params heap system := by
    rw [label]
    rfl
  generalize harqMove system event = move at member moved transmits
  generalize after.harq = harq at member moved
  cases moved with
  | sent capabilities index params address free =>
    rw [HarqMove.attempt, modify_processes_self, takenHarq_processes_self] at member
    rw [List.mem_singleton.mp member]
    refine ⟨_, rfl, ?_⟩
    have version := (initialize_quiescent capabilities quiescent
      (initialize_initialized _ _) index free).version
    show ((dectMacHarqInitialize capabilities system.harq).processes index).redundancyVersion %
      2 ^ 2 = 0
    rw [version]
    rfl
  | retransmitted index pending below =>
    exfalso
    revert transmits
    unfold transmitMove
    split <;> exact fun transmits => by cases transmits
  | _ => cases member

theorem boot_quiescent (config : Config) : (Harq.boot config).Quiescent :=
  fun initialized => by cases initialized

/-- The free processes are quiescent throughout a run from boot, a retransmission is only run on
an occupied process, and every packet starts with the redundancy version 0, exactly when no
NACK, no feedback of format 6 and no completion of the run schedules the work of a process
that is free in an initialized table. -/
theorem quiescent_iff {start final : System config}
    {steps : List (Transition.Step (System config) (Event config))} (booted : Booted start)
    (run : Run start steps final) :
    (∀ taken ∈ steps, Quiet taken) ↔ ∀ taken ∈ steps, SparesFree taken.before taken.label := by
  have base : start.harq.Quiescent := by
    obtain ⟨deviceId, allocations, _, rfl⟩ := booted
    exact boot_quiescent config
  constructor
  · intro quiet taken member
    obtain ⟨sound, action⟩ := actions_of_run booted run taken member
    have before := (run.before_of_after (fun system : System config => system.harq.Quiescent)
      base fun taken member => (quiet taken member).free).2 taken member
    exact ((action.move sound).1.keeps_quiescent_iff before).mp (quiet taken member).free
  · intro spares taken member
    obtain ⟨sound, before, action⟩ := run_invariant_before booted run
      (fun system => system.harq.Quiescent) SparesFree base
      (fun system event after sound spares quiescent action =>
        ((action.move sound).1.keeps_quiescent_iff quiescent).mpr spares) spares taken member
    exact ⟨((action.move sound).1.keeps_quiescent_iff before).mpr (spares taken member),
      action.occupied_of_work sound before, action.first_version sound before⟩

/-- Device 5 sends a packet on process 0, retransmits it for a NACK of device 7, and gets an ACK. -/
def nackedPacket : List (Event projectConfig) :=
  [.transmit smallPacket (some 4096), received (peerFeedback 7 5 (format1Feedback 0 0 0)),
    .workExpired (processZero projectConfig), received (peerAck 7 5 0)]

/-- The NACK wakes up an occupied process only, so the run keeps the free ones quiescent. -/
theorem quiescent_iff_smallPacket :
    ∃ (final : System projectConfig)
      (steps : List (Transition.Step (System projectConfig) (Event projectConfig))),
      Run device steps final ∧ steps.map Transition.Step.label = nackedPacket ∧
        ∀ taken ∈ steps, Quiet taken := by
  have run := Transition.followAll_run step device nackedPacket (by decide +kernel)
  exact ⟨_, _, run, rfl, (quiescent_iff device_booted run).mpr (by decide +kernel)⟩

/-- Device 7 sends a NACK for process 1 while device 5 has one packet in flight, on process 0. -/
def strayNack : List (Event projectConfig) :=
  [.transmit smallPacket (some 4096),
    .pcc ⟨1, 0, -100, 40⟩ (peerFeedback 7 5 (format1Feedback 1 0 0)) 0]

/-- The stray NACK schedules the work of the free process 1. -/
theorem free_not_quiescent :
    ¬ ∀ (start final : System projectConfig)
        (steps : List (Transition.Step (System projectConfig) (Event projectConfig))),
      Booted start → Run start steps final → ∀ taken ∈ steps, Quiet taken := by
  intro quiet
  have run := Transition.followAll_run step device strayNack (by decide +kernel)
  have final := (run.before_of_after (fun system : System projectConfig => system.harq.Quiescent)
    (boot_quiescent projectConfig)
    fun taken member => (quiet _ _ _ device_booted run taken member).free).1
  have free := final (by decide +kernel) ⟨1, by decide⟩ (by decide +kernel)
  exact absurd free.work (by decide +kernel)

end DectHarq
