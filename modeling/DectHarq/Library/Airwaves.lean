/-
This file develops networks of stations that send frames over a shared medium.

A station acts on its own and on frames it receives; what it has ever sent is a list that
only grows. The medium hands any frame that some station has sent to any station, at any
later time and as often as it likes, or never: frames are lost, delayed, duplicated and
reordered. So what holds of a network holds for every order of deliveries. There are two
rules. The first accounts for the frames: when every frame of every station is plain or
answers a frame that the station received, this holds along every run of the network, and
the frame that is answered was received before. The second goes back to a single station:
what one station does in a run of the network is a run of the station, so that what holds
of all its own runs holds of it in every network, and every frame of a station was sent
in a step of its own run.
-/

import Mathlib.Logic.Function.Basic
import DectHarq.Library.Transition

namespace Airwaves

/-- A party of the network: what it does on its own, what it does with a received frame, and what
it has sent. -/
structure Station (Frame Failure : Type) where
  State : Type
  Own : Type
  Reception : Type
  act : State → Own → Except Failure State
  receive : State → Frame → Reception → Except Failure State
  sent : State → List Frame

variable {Name Frame Failure : Type} (stations : Name → Station Frame Failure)

/-- The states of all stations. -/
abbrev States : Type := ∀ name, (stations name).State

/-- What happens in a network. -/
inductive Happening
  | own (name : Name) (event : (stations name).Own)
  | received (sender receiver : Name) (frame : Frame) (reception : (stations receiver).Reception)

/-- One step of a network; `silence` is the failure of a frame that was never sent. -/
def networkStep [DecidableEq Name] [DecidableEq Frame] (silence : Failure)
    (states : States stations) : Happening stations → Except Failure (States stations)
  | .own name event => do
    let next ← (stations name).act (states name) event
    .ok (Function.update states name next)
  | .received sender receiver frame reception =>
    if frame ∈ (stations sender).sent (states sender) then do
      let next ← (stations receiver).receive (states receiver) frame reception
      .ok (Function.update states receiver next)
    else .error silence

/-- The steps of a network. -/
abbrev Steps : Type _ := List (Transition.Step (States stations) (Happening stations))

variable {stations}

/-- A station has received a frame from another one in some steps. -/
def Heard (steps : Steps stations) (sender receiver : Name) (frame : Frame)
    (reception : (stations receiver).Reception) : Prop :=
  ∃ taken ∈ steps, taken.label = .received sender receiver frame reception

theorem Heard.mono {steps more : Steps stations} {sender receiver : Name} {frame : Frame}
    {reception : (stations receiver).Reception} (within : ∀ taken ∈ steps, taken ∈ more)
    (heard : Heard steps sender receiver frame reception) :
    Heard more sender receiver frame reception := by
  obtain ⟨taken, member, label⟩ := heard
  exact ⟨taken, within taken member, label⟩

/-- The reasons a station has for its frames: some are plain, the others answer a frame that it
received. Its own events are constrained, and its states keep an invariant. -/
structure Reasons (station : Station Frame Failure) where
  allowed : station.Own → Prop
  holds : station.State → Prop
  plain : Frame → Prop
  answers : Frame → station.Reception → Frame → Prop

/-- A station has its reasons: its invariant is kept, and every new frame is plain or answers the
frame that was just received. -/
structure Reasons.Kept {station : Station Frame Failure} (reasons : Reasons station) : Prop where
  act : ∀ state event next, reasons.allowed event → reasons.holds state →
    station.act state event = .ok next → reasons.holds next ∧
      ∀ frame ∈ station.sent next, frame ∈ station.sent state ∨ reasons.plain frame
  receive : ∀ state heard reception next, reasons.holds state →
    station.receive state heard reception = .ok next → reasons.holds next ∧
      ∀ frame ∈ station.sent next,
        frame ∈ station.sent state ∨ reasons.answers heard reception frame

variable (reasons : ∀ name, Reasons (stations name))

/-- The events of a step that a station takes on its own are allowed. -/
def Happening.Allowed : Happening stations → Prop
  | .own name event => (reasons name).allowed event
  | .received _ _ _ _ => True

/-- A frame of a station is accounted for by some steps. -/
def Accounted (steps : Steps stations) (name : Name) (frame : Frame) : Prop :=
  (reasons name).plain frame ∨ ∃ sender heard reception,
    Heard steps sender name heard reception ∧ (reasons name).answers heard reception frame

/-- After some steps every station keeps its invariant, and every frame is accounted for. -/
structure AllAccounted (steps : Steps stations) (states : States stations) : Prop where
  holds : ∀ name, (reasons name).holds (states name)
  frames : ∀ name, ∀ frame ∈ (stations name).sent (states name), Accounted reasons steps name frame

variable {reasons}

theorem Accounted.mono {steps more : Steps stations} {name : Name} {frame : Frame}
    (within : ∀ taken ∈ steps, taken ∈ more) (accounted : Accounted reasons steps name frame) :
    Accounted reasons more name frame := by
  rcases accounted with plain | ⟨sender, heard, reception, before, answers⟩
  · exact Or.inl plain
  · exact Or.inr ⟨sender, heard, reception, before.mono within, answers⟩

section Rule

variable [DecidableEq Name] {silence : Failure} {start final : States stations}
  {steps : Steps stations}

/-- One station moved, the others did not: the frames stay accounted for when the new ones are. -/
theorem AllAccounted.update {states : States stations} {name : Name} {next : (stations name).State}
    {taken : Transition.Step (States stations) (Happening stations)}
    (accounted : AllAccounted reasons steps states) (holds : (reasons name).holds next)
    (frames : ∀ frame ∈ (stations name).sent next, frame ∈ (stations name).sent (states name) ∨
      Accounted reasons (steps ++ [taken]) name frame) :
    AllAccounted reasons (steps ++ [taken]) (Function.update states name next) := by
  have within : ∀ other ∈ steps, other ∈ steps ++ [taken] := fun other member =>
    List.mem_append_left _ member
  refine ⟨fun other => ?_, fun other frame member => ?_⟩
  · by_cases same : other = name
    · subst same
      rw [Function.update_self]
      exact holds
    · rw [Function.update_of_ne same]
      exact accounted.holds other
  · by_cases same : other = name
    · subst same
      rw [Function.update_self] at member
      rcases frames frame member with old | new
      · exact (accounted.frames other frame old).mono within
      · exact new
    · rw [Function.update_of_ne same] at member
      exact (accounted.frames other frame member).mono within

variable [DecidableEq Frame]

/-- A station that acts on its own is the only one that moves. -/
theorem act_of_step {states next : States stations} {name : Name} {event : (stations name).Own}
    (stepped : networkStep stations silence states (.own name event) = .ok next) :
    ∃ moved, (stations name).act (states name) event = .ok moved ∧
      next = Function.update states name moved := by
  dsimp only [networkStep] at stepped
  cases acted : (stations name).act (states name) event with
  | error failure =>
    rw [acted] at stepped
    cases stepped
  | ok moved =>
    rw [acted] at stepped
    cases stepped
    exact ⟨moved, rfl, rfl⟩

/-- A received frame was sent, and its receiver is the only one that moves. -/
theorem receive_of_step {states next : States stations} {sender receiver : Name} {frame : Frame}
    {reception : (stations receiver).Reception}
    (stepped : networkStep stations silence states (.received sender receiver frame reception) =
      .ok next) :
    frame ∈ (stations sender).sent (states sender) ∧
      ∃ moved, (stations receiver).receive (states receiver) frame reception = .ok moved ∧
        next = Function.update states receiver moved := by
  dsimp only [networkStep] at stepped
  split at stepped
  · rename_i sent
    cases received : (stations receiver).receive (states receiver) frame reception with
    | error failure =>
      rw [received] at stepped
      cases stepped
    | ok moved =>
      rw [received] at stepped
      cases stepped
      exact ⟨sent, moved, rfl, rfl⟩
  · cases stepped

/-- A step of the network keeps the account. -/
theorem AllAccounted.step (kept : ∀ name, (reasons name).Kept)
    {taken : Transition.Step (States stations) (Happening stations)}
    (accounted : AllAccounted reasons steps taken.before)
    (allowed : taken.label.Allowed reasons)
    (stepped : networkStep stations silence taken.before taken.label = .ok taken.after) :
    AllAccounted reasons (steps ++ [taken]) taken.after := by
  obtain ⟨before, label, after⟩ := taken
  dsimp only at accounted allowed stepped ⊢
  cases label with
  | own name event =>
    obtain ⟨moved, acted, rfl⟩ := act_of_step stepped
    obtain ⟨holds, frames⟩ := (kept name).act _ _ _ allowed (accounted.holds name) acted
    exact accounted.update holds fun frame member => (frames frame member).imp_right Or.inl
  | received sender receiver heard reception =>
    obtain ⟨_, moved, received, rfl⟩ := receive_of_step stepped
    obtain ⟨holds, frames⟩ := (kept receiver).receive _ _ _ _ (accounted.holds receiver) received
    refine accounted.update holds fun frame member => (frames frame member).imp_right
      fun answers => Or.inr ⟨sender, heard, reception, ?_, answers⟩
    exact ⟨_, List.mem_append_right _ List.mem_cons_self, rfl⟩

/-- Before every step of a run the frames are accounted for. -/
theorem accounted_of_run (kept : ∀ name, (reasons name).Kept)
    (run : Transition.Run (Transition.stepOf (networkStep stations silence)) start steps final)
    (holds : ∀ name, (reasons name).holds (start name))
    (quiet : ∀ name, (stations name).sent (start name) = [])
    (allowed : ∀ taken ∈ steps, taken.label.Allowed reasons)
    {earlier later : Steps stations}
    {taken : Transition.Step (States stations) (Happening stations)}
    (cut : steps = earlier ++ taken :: later) : AllAccounted reasons earlier taken.before := by
  refine run.history_before (AllAccounted reasons) (fun _ taken => taken.label.Allowed reasons)
    (fun _ _ allowed accounted stepped => accounted.step kept allowed stepped) ?_ ?_ cut
  · rintro earlier taken later rfl
    exact allowed taken (List.mem_append_right _ List.mem_cons_self)
  · refine ⟨holds, fun name frame member => ?_⟩
    rw [quiet name] at member
    exact absurd member List.not_mem_nil

/-- A received frame is accounted for by the steps before its reception. -/
theorem AllAccounted.received {earlier : Steps stations} {sender receiver : Name} {frame : Frame}
    {reception : (stations receiver).Reception}
    {taken : Transition.Step (States stations) (Happening stations)}
    (accounted : AllAccounted reasons earlier taken.before)
    (label : taken.label = .received sender receiver frame reception)
    (stepped : networkStep stations silence taken.before taken.label = .ok taken.after) :
    Accounted reasons earlier sender frame := by
  rw [label] at stepped
  exact accounted.frames sender frame (receive_of_step stepped).1

end Rule

/-! ### One station in the network -/

/-- What a station does. -/
inductive Doing (station : Station Frame Failure)
  | act (event : station.Own)
  | receive (frame : Frame) (reception : station.Reception)

/-- One step of a station. -/
def doingStep (station : Station Frame Failure) (state : station.State) :
    Doing station → Except Failure station.State
  | .act event => station.act state event
  | .receive frame reception => station.receive state frame reception

/-- When each step of a station sends some frames, every frame of the station was sent in a step. -/
theorem sent_in_step {station : Station Frame Failure}
    {frames : Transition.Step station.State (Doing station) → List Frame}
    (each : ∀ before doing after, doingStep station before doing = .ok after →
      station.sent after = station.sent before ++ frames ⟨before, doing, after⟩)
    {start final : station.State} {steps : List (Transition.Step station.State (Doing station))}
    (run : Transition.Run (Transition.stepOf (doingStep station)) start steps final)
    (quiet : station.sent start = []) {frame : Frame} (member : frame ∈ station.sent final) :
    ∃ taken ∈ steps, frame ∈ frames taken := by
  induction run with
  | nil =>
    rw [quiet] at member
    exact absurd member List.not_mem_nil
  | snoc earlier last inductionHypothesis =>
    rw [each _ _ _ last] at member
    rcases List.mem_append.mp member with old | new
    · obtain ⟨taken, inside, found⟩ := inductionHypothesis old
      exact ⟨taken, List.mem_append_left _ inside, found⟩
    · exact ⟨_, List.mem_append_right _ List.mem_cons_self, new⟩

section One

variable [DecidableEq Name]

/-- What a station does when something happens. -/
def Happening.doing (name : Name) : Happening stations → Option (Doing (stations name))
  | .own other event => if same : other = name then some (.act (same ▸ event)) else none
  | .received _ receiver frame reception =>
    if same : receiver = name then some (.receive frame (same ▸ reception)) else none

/-- The step of a station in a step of the network. -/
def ownStep (name : Name) (taken : Transition.Step (States stations) (Happening stations)) :
    Option (Transition.Step (stations name).State (Doing (stations name))) :=
  (taken.label.doing name).map fun doing => ⟨taken.before name, doing, taken.after name⟩

/-- The steps of a station in those of the network. -/
def ownSteps (name : Name) (steps : Steps stations) :
    List (Transition.Step (stations name).State (Doing (stations name))) :=
  steps.filterMap (ownStep name)

variable {steps : Steps stations}

/-- A step that a station takes on its own is one of the network. -/
theorem act_of_ownSteps {name : Name}
    {taken : Transition.Step (stations name).State (Doing (stations name))}
    (member : taken ∈ ownSteps name steps) {event : (stations name).Own}
    (label : taken.label = .act event) :
    ∃ whole ∈ steps, whole.label = .own name event ∧ whole.before name = taken.before ∧
      whole.after name = taken.after := by
  obtain ⟨whole, inside, seen⟩ := List.mem_filterMap.mp member
  obtain ⟨doing, did, rfl⟩ := Option.map_eq_some_iff.mp seen
  obtain rfl : doing = .act event := label
  refine ⟨whole, inside, ?_, rfl, rfl⟩
  cases happened : whole.label with
  | own other own =>
    rw [happened, Happening.doing] at did
    split at did
    · rename_i same
      subst same
      cases did
      rfl
    · cases did
  | received sender receiver frame reception =>
    rw [happened, Happening.doing] at did
    split at did
    · cases did
    · cases did

variable [DecidableEq Frame] {silence : Failure} {start final : States stations}

/-- What one station does in a run of the network is a run of the station. -/
theorem own_run (run : Transition.Run (Transition.stepOf (networkStep stations silence)) start
      steps final) (name : Name) :
    Transition.Run (Transition.stepOf (doingStep (stations name))) (start name)
      (ownSteps name steps) (final name) := by
  refine run.view (fun states => states name) (ownStep name) fun before label after stepped => ?_
  cases label with
  | own other event =>
    obtain ⟨moved, acted, rfl⟩ := act_of_step stepped
    by_cases same : other = name
    · subst same
      rw [Function.update_self]
      refine Or.inr ⟨.act event, ?_, acted⟩
      simp [ownStep, Happening.doing]
    · exact Or.inl ⟨by simp [ownStep, Happening.doing, same],
        Function.update_of_ne (Ne.symm same) _ _⟩
  | received sender receiver frame reception =>
    obtain ⟨_, moved, received, rfl⟩ := receive_of_step stepped
    by_cases same : receiver = name
    · subst same
      rw [Function.update_self]
      refine Or.inr ⟨.receive frame reception, ?_, received⟩
      simp [ownStep, Happening.doing]
    · exact Or.inl ⟨by simp [ownStep, Happening.doing, same],
        Function.update_of_ne (Ne.symm same) _ _⟩

end One

end Airwaves
