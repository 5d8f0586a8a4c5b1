/-
This file settles what a feedback does to a transmission that it does not answer.

The response function finds the process by the number in the feedback and never looks
at who sent it. A feedback that passes the filter of the callback therefore acts on the
process it names, whoever the packet of the process was sent to: it frees the process
or schedules its work. Only a feedback that the filter drops has no effect.
-/

import DectHarq.HarqMoves

namespace DectHarq

variable {config : Config}

/-- A received header is a feedback: of type 2, in the format 001, with a feedback of format 1
or 6. -/
def IsFeedback (status : PccStatus) (header : PhyHeader) : Prop :=
  status.phyType = headerType2 ∧ Type2.headerFormat.get header = headerFormat001 ∧
    (Type2.feedbackFormat.get header = feedbackFormat1 ∨
      Type2.feedbackFormat.get header = feedbackFormat6)

instance (status : PccStatus) (header : PhyHeader) : Decidable (IsFeedback status header) :=
  inferInstanceAs (Decidable (_ ∧ _))

/-- A feedback names an occupied process whose packet was sent to another device than the one
the feedback comes from. -/
def Foreign (header : PhyHeader) (harq : Harq config) (index : Fin config.harqProcessCount) :
    Prop :=
  (index : Nat) = feedbackProcess header ∧ harq.occupied index = true ∧
    (harq.processes index).receiverId ≠ transmitterId header

instance (header : PhyHeader) (harq : Harq config) (index : Fin config.harqProcessCount) :
    Decidable (Foreign header harq index) :=
  inferInstanceAs (Decidable (_ ∧ _))

/-- A call on the delayed work of a process. -/
inductive WorkCall
  | cancel
  | reschedule
  deriving DecidableEq, Repr

/-- The calls that `dect_mac_harq_response` makes on the work of the process it names. An ACK
cancels it, and gives the process back, which cancels it again. -/
def responseWorkCalls (header : PhyHeader) : List WorkCall :=
  if Type2.feedbackFormat.get header = feedbackFormat1 then
    if Format1.transmissionFeedback.get (headerFeedback header) = ack then [.cancel, .cancel]
    else [.reschedule]
  else if Type2.feedbackFormat.get header = feedbackFormat6 then [.reschedule]
  else []

/-- The calls that the callback makes through the response function. -/
def pccWorkCalls (config : Config) (deviceId : Nat) (status : PccStatus) (header : PhyHeader) :
    List WorkCall :=
  if IsResponse config deviceId status header then responseWorkCalls header else []

/-- Handling a header changed no process, and neither scheduled nor cancelled a work. -/
structure Unaffected (status : PccStatus) (header : PhyHeader)
    (before after : System config) : Prop where
  harq : after.harq = before.harq
  works : pccWorkCalls config before.phy.deviceId status header = []

/-- A feedback acted on a process: it freed the process or left its work pending. No other
process was touched. -/
structure ActedOn (index : Fin config.harqProcessCount) (before after : Harq config) : Prop where
  acted : after.occupied index = false ∨ (after.processes index).workPending = true
  others : ∀ other, other ≠ index → after.processes other = before.processes other ∧
    after.occupied other = before.occupied other

theorem responseWorkCalls_ne_nil {header : PhyHeader}
    (feedback : Type2.feedbackFormat.get header = feedbackFormat1 ∨
      Type2.feedbackFormat.get header = feedbackFormat6) : responseWorkCalls header ≠ [] := by
  unfold responseWorkCalls
  split
  · split <;> exact List.cons_ne_nil _ _
  · rename_i notFormat1
    rw [if_pos (feedback.resolve_left notFormat1)]
    exact List.cons_ne_nil _ _

/-- A scheduled work is pending, and nothing else of the table changed. -/
theorem scheduleWork_actedOn {index : Fin config.harqProcessCount} {harq : Harq config}
    (initialized : harq.initialized = true) (change : HarqProcess → HarqProcess) :
    ActedOn index harq (scheduleWork index (harq.modify index change)) := by
  unfold scheduleWork
  rw [if_pos (show (harq.modify index change).initialized = true from initialized)]
  refine ⟨Or.inr ?_, fun other distinct => ⟨?_, rfl⟩⟩
  · rw [modify_processes_self]
  · rw [modify_processes_of_ne _ _ distinct, modify_processes_of_ne _ _ distinct]

/-- A response for an occupied process acts on it, whoever sent it. -/
theorem response_actedOn {capabilities : Capabilities} {header : PhyHeader}
    {harq after : Harq config} {index : Fin config.harqProcessCount} (sound : harq.Sound)
    (feedback : Type2.feedbackFormat.get header = feedbackFormat1 ∨
      Type2.feedbackFormat.get header = feedbackFormat6)
    (named : (index : Nat) = feedbackProcess header) (occupied : harq.occupied index = true)
    (handled : dectMacHarqResponse capabilities header harq = .ok after) :
    ActedOn index harq after := by
  have initialized := sound.initialized_of_occupied occupied
  rcases response_cases handled with ⟨notFormat1, notFormat6, _⟩ | ⟨process, found, outcome⟩
  · exact absurd feedback (not_or.mpr ⟨notFormat1, notFormat6⟩)
  · have same : process = index := Fin.ext ((processIndex_ok found).trans named.symm)
    subst same
    rcases outcome with ⟨_, _, given⟩ | ⟨_, _, rfl⟩ | ⟨_, rfl⟩
    · have numbered : ((dectMacHarqInitialize capabilities (cancelWork process harq)).processes
          process).processNumber = (process : Nat) :=
        initialize_numbered (cancelWork_sound sound) process
      rw [giveProcess_eq numbered given, givenHarq_cancelWork,
        initialize_of_initialized initialized]
      exact ⟨Or.inl (givenHarq_occupied_self _ _ _), fun other distinct =>
        ⟨givenHarq_processes_of_ne _ _ distinct, givenHarq_occupied_of_ne _ _ distinct⟩⟩
    · exact scheduleWork_actedOn initialized nackedProcess
    · exact scheduleWork_actedOn initialized restartedProcess

/-- In every run from boot, a feedback for an occupied process whose packet went to another
device leaves the process table alone exactly when the filter of the callback drops it. A
feedback that passes the filter acts on the process, and only on it. -/
theorem foreign_unaffected_iff {start final : System config}
    {steps : List (Transition.Step (System config) (Event config))} (booted : Booted start)
    (run : Run start steps final) {taken : Transition.Step (System config) (Event config)}
    (member : taken ∈ steps) {status : PccStatus} {header : PhyHeader} {ret : Int}
    (label : taken.label = .pcc status header ret) (isFeedback : IsFeedback status header)
    {index : Fin config.harqProcessCount} (foreign : Foreign header taken.before.harq index) :
    (Unaffected status header taken.before taken.after ↔
        responseAddressed config taken.before.phy.deviceId header = false) ∧
      (responseAddressed config taken.before.phy.deviceId header = true →
        ActedOn index taken.before.harq taken.after.harq) := by
  obtain ⟨sound, action⟩ := actions_of_run booted run taken member
  obtain ⟨before, event, after⟩ := taken
  dsimp only at label foreign sound action ⊢
  subst label
  obtain ⟨type2, format, feedback⟩ := isFeedback
  have passes : responseAddressed config before.phy.deviceId header = true →
      IsResponse config before.phy.deviceId status header :=
    fun addressed => ⟨type2, format, addressed, feedback⟩
  cases action with
  | request status header ret harq reply request nodes code queue addressed =>
    rw [addressed.2.1] at format
    cases format
  | response status header ret harq nodes notRequest addressed handled =>
    refine ⟨⟨fun unaffected => ?_, fun dropped => ?_⟩, fun _ =>
      response_actedOn sound feedback foreign.1 foreign.2.1 handled⟩
    · have calls := unaffected.works
      rw [pccWorkCalls, if_pos addressed] at calls
      exact absurd calls (responseWorkCalls_ne_nil feedback)
    · rw [addressed.2.2.1] at dropped
      cases dropped
  | header status header ret nodes notRequest notResponse =>
    refine ⟨⟨fun _ => ?_, fun _ => ⟨rfl, if_neg notResponse⟩⟩, fun addressed =>
      absurd (passes addressed) notResponse⟩
    by_contra addressed
    exact notResponse (passes (by simpa using addressed))

/-- Device 5 sends a packet to device 7, then device 9 acknowledges process 0 to a device. -/
def foreignAck (receiver : Nat) : List (Event projectConfig) :=
  [.transmit smallPacket (some 4096), received (peerAck 9 receiver 0)]

/-- The step in which the ACK of device 9 is received. -/
def foreignAckStep (receiver : Nat) :
    Transition.Step (System projectConfig) (Event projectConfig) :=
  ⟨Transition.follow step device (.transmit smallPacket (some 4096)),
    received (peerAck 9 receiver 0), [received (peerAck 9 receiver 0)].foldl
      (Transition.follow step) (Transition.follow step device
        (.transmit smallPacket (some 4096)))⟩

/-- The ACK of device 9 to device 6 for process 0 leaves the packet of device 7 alone. -/
theorem foreign_unaffected_iff_otherReceiver :
    Foreign (peerAck 9 6 0) (foreignAckStep 6).before.harq (processZero projectConfig) ∧
      Unaffected ⟨1, 0, -100, 40⟩ (peerAck 9 6 0) (foreignAckStep 6).before
        (foreignAckStep 6).after := by
  have foreign : Foreign (peerAck 9 6 0) (foreignAckStep 6).before.harq
      (processZero projectConfig) := by decide +kernel
  have run := Transition.followAll_run step device (foreignAck 6) (by decide +kernel)
  have member : foreignAckStep 6 ∈ Transition.followAll step device (foreignAck 6) :=
    List.mem_cons_of_mem _ List.mem_cons_self
  exact ⟨foreign, (foreign_unaffected_iff device_booted run member rfl (by decide +kernel)
    foreign).1.mpr (by decide +kernel)⟩

/-- The ACK of device 9 to device 5 frees process 0, whose packet went to device 7. -/
theorem foreign_acted :
    ¬ ∀ (start final : System projectConfig)
        (steps : List (Transition.Step (System projectConfig) (Event projectConfig))),
      Booted start → Run start steps final → ∀ taken ∈ steps, ∀ status header ret,
        taken.label = .pcc status header ret → IsFeedback status header →
          ∀ index, Foreign header taken.before.harq index →
            Unaffected status header taken.before taken.after := by
  intro unaffected
  have run := Transition.followAll_run step device (foreignAck 5) (by decide +kernel)
  have member : foreignAckStep 5 ∈ Transition.followAll step device (foreignAck 5) :=
    List.mem_cons_of_mem _ List.mem_cons_self
  have same := (unaffected _ _ _ device_booted run _ member _ _ _ rfl (by decide +kernel)
    (processZero projectConfig) (by decide +kernel)).harq
  have freed : (foreignAckStep 5).after.harq.occupied (processZero projectConfig) = false := by
    decide +kernel
  rw [same] at freed
  exact absurd freed (by decide +kernel)

end DectHarq
