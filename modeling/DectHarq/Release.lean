/-
This file proves when a process of a device in a network is released.

A process is given back by an ACK or by its work when its count is at the limit. The count
is that of the attempts to queue the packet, not of the frames on the air. An ACK is a bit
in a frame that anyone could have sent; in a network where all devices run the program it
is authentic. So a packet is given up after the last attempt, or after some device decoded
a transmission of its process.
-/

import DectHarq.Network
import DectHarq.Freshness

namespace DectHarq

open Airwaves

variable {config : Config}

/-! ### The two ways to release a process -/

/-- A move that releases a process is an ACK, or an expiration at the limit. -/
theorem HarqStep.released {before after : Harq config} {move : HarqMove config}
    (taken : HarqStep before move after) (sound : before.Sound)
    {index : Fin config.harqProcessCount} (occupied : before.occupied index = true)
    (free : after.occupied index = false) :
    move = .acked index ∨ (move = .expired index ∧
      config.harqMaxTransmissions ≤ (before.processes index).transmissionCount) := by
  have ready (capabilities : Capabilities) : dectMacHarqInitialize capabilities before = before :=
    initialize_of_initialized (sound.initialized_of_occupied occupied)
  have same {given : Fin config.harqProcessCount} {capabilities : Capabilities}
      (freed : (givenHarq capabilities given before).occupied index = false) : index = given := by
    by_contra different
    rw [givenHarq_occupied_of_ne _ _ different, occupied] at freed
    cases freed
  -- A process that is not touched stays in use.
  have stays {harq : Harq config} (kept : harq.occupied index = before.occupied index)
      (freed : harq.occupied index = false) : False := by
    rw [kept, occupied] at freed
    cases freed
  have free_ne {given : Fin config.harqProcessCount} {capabilities : Capabilities}
      (unused : (dectMacHarqInitialize capabilities before).occupied given = false) :
      index ≠ given := by
    rintro rfl
    rw [ready, occupied] at unused
    cases unused
  cases taken with
  | acked capabilities given =>
    rw [ready] at free
    rw [same free]
    exact Or.inl rfl
  | expired capabilities given pending limit =>
    rw [ready] at free
    obtain rfl := same free
    exact Or.inr ⟨rfl, limit⟩
  | dropped capabilities given unused =>
    refine (stays ?_ free).elim
    rw [givenHarq_occupied_of_ne _ _ (free_ne unused), takenHarq_occupied_of_ne _ (free_ne unused),
      ready]
  | sent capabilities given params address unused =>
    refine (stays ?_ free).elim
    rw [modify_occupied, takenHarq_occupied_of_ne _ (free_ne unused), ready]
  | refused capabilities busy => exact (stays (by rw [ready]) free).elim
  | nacked named =>
    rw [scheduleWork_occupied] at free
    exact (stays rfl free).elim
  | formatSix named =>
    rw [scheduleWork_occupied] at free
    exact (stays rfl free).elim
  | completed named =>
    rw [scheduleWork_occupied] at free
    exact (stays rfl free).elim
  | requested capabilities processed header handled =>
    obtain ⟨named, size, _, rfl⟩ := requestProcess_cases handled
    exact (stays rfl free).elim
  | idle => exact (stays rfl free).elim
  | retransmitted => exact (stays rfl free).elim

/-- An ACK comes from a response of format 1 that names the process. -/
theorem feedbackMove_acked {header : PhyHeader} {index : Fin config.harqProcessCount}
    (move : feedbackMove config header = .acked index) :
    feedbackProcess header = index ∧
      Format1.transmissionFeedback.get (headerFeedback header) = ack := by
  unfold feedbackMove at move
  cases found : processIndex config (feedbackProcess header) with
  | error stop =>
    rw [found] at move
    cases move
  | ok named =>
    rw [found] at move
    dsimp only at move
    split at move
    · split at move
      · rename_i acked
        cases move
        exact ⟨(processIndex_ok found).symm, acked⟩
      · cases move
    · cases move

/-- An ACK is moved by a response only. -/
theorem acked_event {system : System config} {event : Event config}
    {index : Fin config.harqProcessCount} (move : harqMove system event = .acked index) :
    ∃ status header ret, event = .pcc status header ret ∧
      IsResponse config system.phy.deviceId status header ∧
        feedbackMove config header = .acked index := by
  cases event with
  | transmit params heap =>
    dsimp only [harqMove, transmitMove] at move
    split at move <;> cases move
  | workExpired named =>
    dsimp only [harqMove, workMove] at move
    split at move <;> cases move
  | opComplete position err =>
    dsimp only [harqMove, completionMove] at move
    split at move
    · split at move
      · split at move
        · split at move <;> cases move
        · cases move
      · cases move
    · cases move
  | pcc status header ret =>
    dsimp only [harqMove, headerMove] at move
    split at move
    · cases move
    · split at move
      · rename_i response
        exact ⟨status, header, ret, rfl, response, move⟩
      · cases move
  | _ => cases move

/-! ### Releases in a network -/

section Network

variable {Name : Type} [DecidableEq Name] {configs : Name → Config} {ids : Name → Nat}
  {start final : States (stations configs)} {steps : Steps (stations configs)}

/-- A step releases a process of a device. -/
def Releases (taken : Transition.Step (States (stations configs)) (Happening (stations configs)))
    (name : Name) (index : Fin (configs name).harqProcessCount) : Prop :=
  (taken.before name).system.harq.occupied index = true ∧
    (taken.after name).system.harq.occupied index = false

instance (taken : Transition.Step (States (stations configs)) (Happening (stations configs)))
    (name : Name) (index : Fin (configs name).harqProcessCount) :
    Decidable (Releases taken name index) :=
  inferInstanceAs (Decidable (_ ∧ _))

/-- A process is released by the event of its device. -/
theorem advance_released {device next : Device config} {decoded : Bool} {event : Event config}
    {deviceId : Nat} (holds : device.Holds deviceId)
    (advanced : device.advance decoded event = .ok next) {index : Fin config.harqProcessCount}
    (occupied : device.system.harq.occupied index = true)
    (free : next.system.harq.occupied index = false) :
    harqMove device.system event = .acked index ∨
      config.harqMaxTransmissions ≤ (device.system.harq.processes index).transmissionCount := by
  have action := action_of_step holds.sound (advance_cases advanced).1
  rcases (action.move holds.sound).1.released holds.sound occupied free with acked | ⟨_, limit⟩
  · exact Or.inl acked
  · exact Or.inr limit

/-- A process of a device is released when its count, of the attempts to queue its packet, is at the
limit, or after some device heard a transmission of the process and decoded its data. -/
theorem release_justified (deployed : Deployed configs ids start)
    (run : NetworkRun configs start steps final) (silent : SilentSteps configs steps) :
    ∀ earlier taken later, steps = earlier ++ taken :: later → ∀ name index,
      Releases taken name index →
        (configs name).harqMaxTransmissions ≤
            ((taken.before name).system.harq.processes index).transmissionCount ∨
          ∃ peer, HeardRequest configs ids earlier name peer index true := by
  intro earlier taken later cut name index ⟨occupied, free⟩
  have member : taken ∈ steps := by
    rw [cut]
    exact List.mem_append_right _ List.mem_cons_self
  have holds := (frames_accounted deployed run silent cut).holds
  have stepped : networkStep (stations configs) .disabled taken.before taken.label =
      .ok taken.after := run.taken taken member
  have moves {mover : Name} {moved : (stations configs mover).State}
      (same : taken.after = Function.update taken.before mover moved) : mover = name := by
    by_contra other
    rw [same, Function.update_of_ne (Ne.symm other), occupied] at free
    cases free
  cases label : taken.label with
  | own mover event =>
    rw [label] at stepped
    obtain ⟨moved, acted, same⟩ := act_of_step stepped
    obtain rfl := moves same
    rw [same, Function.update_self] at free
    obtain ⟨outside, advanced⟩ := act_cases acted
    rcases advance_released (holds mover) advanced occupied free with acked | limit
    · obtain ⟨status, header, ret, rfl, _⟩ := acked_event acked
      cases outside
    · exact Or.inl limit
  | received sender mover frame reception =>
    rw [label] at stepped
    obtain ⟨_, moved, received, same⟩ := receive_of_step stepped
    obtain rfl := moves same
    rw [same, Function.update_self] at free
    rcases advance_released (holds mover) received occupied free with acked | limit
    · obtain ⟨status, header, ret, event, response, move⟩ := acked_event acked
      obtain ⟨rfl, rfl, rfl⟩ := Event.pcc.inj event
      obtain ⟨process, bit⟩ := feedbackMove_acked move
      rw [(holds mover).deviceId] at response
      have heard := response_answers deployed run silent cut label response
      rw [process, show frame.acknowledges = true from decide_eq_true bit] at heard
      exact Or.inr ⟨sender, heard⟩
    · exact Or.inl limit

end Network

/-- Device 5 releases a process, and device 7 has decoded the packet. -/
theorem release_justified_pair :
    (∃ taken ∈ Transition.followAll (networkStep _ .disabled) pair packetAcknowledged,
      Releases taken false (processZero projectConfig)) ∧
      ∀ earlier taken later,
        Transition.followAll (networkStep _ .disabled) pair packetAcknowledged =
          earlier ++ taken :: later → ∀ name index, Releases taken name index →
            projectConfig.harqMaxTransmissions ≤
                ((taken.before name).system.harq.processes index).transmissionCount ∨
              ∃ peer, HeardRequest (fun _ => projectConfig) pairIds earlier name peer index true :=
  ⟨by decide +kernel,
    release_justified pair_deployed packetAcknowledged_run packetAcknowledged_silent⟩

end DectHarq
