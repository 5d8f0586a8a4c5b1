/-
This file develops runs of labelled transition systems.

A machine is a set of initial states and a step relation. A run records every step
it takes, so that a property may speak of the history as well as of the last state.
The rules below are the only way the rest of the development argues about runs: an
invariant kept by every allowed step holds at the end of every run whose steps are
allowed, and before each of its steps.
-/

import Mathlib.Algebra.Group.Nat.Even

namespace Transition

variable {State Label : Type*}

/-- One step of a run: the state before it, its label and the state after it. -/
structure Step (State Label : Type*) where
  before : State
  label : Label
  after : State

/-- A run of a step relation between two states, with its steps in order. -/
inductive Run (step : State → Label → State → Prop) :
    State → List (Step State Label) → State → Prop
  | nil (start : State) : Run step start [] start
  | snoc {start middle final : State} {steps : List (Step State Label)} {label : Label}
      (run : Run step start steps middle) (last : step middle label final) :
      Run step start (steps ++ [⟨middle, label, final⟩]) final

/-- A machine: where it may start, and what one labelled step may do. -/
structure Machine (State Label : Type*) where
  initial : State → Prop
  step : State → Label → State → Prop

namespace Run

variable {step : State → Label → State → Prop} {start middle final : State}
  {steps rest : List (Step State Label)}

theorem single {label : Label} (only : step start label final) :
    Run step start [⟨start, label, final⟩] final :=
  Run.snoc (Run.nil start) only

theorem append (first : Run step start steps middle) (second : Run step middle rest final) :
    Run step start (steps ++ rest) final := by
  induction second with
  | nil => rwa [List.append_nil]
  | snoc _ last inductionHypothesis =>
    rw [← List.append_assoc]
    exact Run.snoc inductionHypothesis last

/-- The invariant rule: what holds at the start and is kept by every allowed step holds at
the end of every run whose steps are all allowed. -/
theorem invariant (property : State → Prop) (allowed : State → Label → Prop)
    (kept : ∀ before label after, allowed before label → property before →
      step before label after → property after)
    (run : Run step start steps final)
    (each : ∀ taken ∈ steps, allowed taken.before taken.label)
    (base : property start) : property final := by
  induction run with
  | nil => exact base
  | snoc earlier last inductionHypothesis =>
    refine kept _ _ _ (each _ (List.mem_append_right _ List.mem_cons_self)) ?_ last
    exact inductionHypothesis fun taken member => each taken (List.mem_append_left _ member)

/-- The progress rule: where the goal is not reached yet, some allowed step keeps the invariant
and brings the measure down. So a run of allowed steps reaches the goal. -/
theorem exists_reaching (property goal : State → Prop) (allowed : Label → Prop)
    (measure : State → Nat)
    (progress : ∀ state, property state → ¬ goal state → ∃ label next, allowed label ∧
      step state label next ∧ property next ∧ measure next < measure state)
    (base : property start) :
    ∃ steps final, Run step start steps final ∧ (∀ taken ∈ steps, allowed taken.label) ∧
      property final ∧ goal final := by
  induction bound : measure start using Nat.strongRecOn generalizing start with
  | ind amount inductionHypothesis =>
    by_cases reached : goal start
    · exact ⟨[], start, Run.nil start, fun _ member => absurd member List.not_mem_nil, base,
        reached⟩
    · obtain ⟨label, next, fits, stepped, kept, less⟩ := progress start base reached
      obtain ⟨rest, final, run, each, ends⟩ := inductionHypothesis (measure next) (bound ▸ less)
        kept rfl
      refine ⟨_, final, (Run.single stepped).append run, fun taken member => ?_, ends⟩
      rcases List.mem_append.mp member with first | later
      · rw [List.mem_singleton.mp first]
        exact fits
      · exact each taken later

/-- The invariant rule for the states that a run passes through: the invariant also holds
before every step of the run. -/
theorem invariant_before (property : State → Prop) (allowed : State → Label → Prop)
    (kept : ∀ before label after, allowed before label → property before →
      step before label after → property after)
    (run : Run step start steps final)
    (each : ∀ taken ∈ steps, allowed taken.before taken.label)
    (base : property start) : ∀ taken ∈ steps, property taken.before := by
  induction run with
  | nil => exact fun _ member => absurd member List.not_mem_nil
  | snoc earlier last inductionHypothesis =>
    have each' := fun taken member => each taken (List.mem_append_left _ member)
    intro taken member
    rcases List.mem_append.mp member with old | new
    · exact inductionHypothesis each' taken old
    · rw [List.mem_singleton.mp new]
      exact invariant property allowed kept earlier each' base

/-- A property of the start and of the state after every step is a property of the state
before every step. -/
theorem before_of_after (property : State → Prop) (run : Run step start steps final)
    (base : property start) (each : ∀ taken ∈ steps, property taken.after) :
    property final ∧ ∀ taken ∈ steps, property taken.before := by
  induction run with
  | nil => exact ⟨base, fun _ member => absurd member List.not_mem_nil⟩
  | snoc earlier last inductionHypothesis =>
    obtain ⟨middle, before⟩ := inductionHypothesis fun taken member =>
      each taken (List.mem_append_left _ member)
    refine ⟨each _ (List.mem_append_right _ List.mem_cons_self), fun taken member => ?_⟩
    rcases List.mem_append.mp member with old | new
    · exact before taken old
    · rw [List.mem_singleton.mp new]
      exact middle

/-- Every recorded step of a run is a step of the relation. -/
theorem taken (run : Run step start steps final) :
    ∀ taken ∈ steps, step taken.before taken.label taken.after := by
  induction run with
  | nil => exact fun _ member => absurd member List.not_mem_nil
  | snoc earlier last inductionHypothesis =>
    intro taken member
    rcases List.mem_append.mp member with old | new
    · exact inductionHypothesis taken old
    · rw [List.mem_singleton.mp new]
      exact last

/-- The parity rule: a reading that some steps toggle and the others keep has changed over a
run exactly when the number of toggling steps is odd. -/
theorem parity (reading : State → Bool) (toggles : Step State Label → Bool)
    (run : Run step start steps final)
    (each : ∀ taken ∈ steps, reading taken.after =
      if toggles taken then !reading taken.before else reading taken.before) :
    reading final = reading start ↔ Even (steps.countP toggles) := by
  induction run with
  | nil => simp
  | snoc earlier last inductionHypothesis =>
    have so_far := inductionHypothesis fun taken member =>
      each taken (List.mem_append_left _ member)
    have now := each _ (List.mem_append_right _ List.mem_cons_self)
    dsimp only at now
    rw [List.countP_append, List.countP_singleton, now]
    split
    · rw [Nat.even_add_one, ← so_far]
      exact Bool.not_eq
    · rw [Nat.add_zero]
      exact so_far

/-- The last-event rule: what an event establishes in its step, and the steps without an event
keep, holds at the end for the last event of the run. -/
theorem last_event {Event : Type*} (event : Step State Label → Option Event)
    (holds : Event → State → Prop) (run : Run step start steps final)
    (each : ∀ taken ∈ steps, (∀ now, event taken = some now → holds now taken.after) ∧
      (event taken = none → ∀ old, holds old taken.before → holds old taken.after)) :
    ∀ last, (steps.filterMap event).getLast? = some last → holds last final := by
  induction run with
  | nil => exact fun _ listed => by cases listed
  | @snoc middle final steps label earlier taken inductionHypothesis =>
    have so_far := inductionHypothesis fun taken member =>
      each taken (List.mem_append_left _ member)
    obtain ⟨establishes, keeps⟩ := each _ (List.mem_append_right _ List.mem_cons_self)
    intro last listed
    rw [List.filterMap_append] at listed
    cases now : event ⟨middle, label, final⟩ with
    | none =>
      rw [List.filterMap_cons_none now, List.filterMap_nil, List.append_nil] at listed
      exact keeps now last (so_far last listed)
    | some own =>
      rw [List.filterMap_cons_some now, List.filterMap_nil, List.getLast?_concat] at listed
      exact establishes last (now.trans listed)

/-- A run without steps stays where it is. -/
theorem eq_of_nil (run : Run step start [] final) : final = start := by
  generalize list : ([] : List (Step State Label)) = none at run
  cases run with
  | nil => rfl
  | snoc earlier last => exact absurd list.symm (List.append_ne_nil_of_right_ne_nil _ (by simp))

/-- A run of one step takes that step. -/
theorem of_singleton {taken : Step State Label} (run : Run step start [taken] final) :
    start = taken.before ∧ final = taken.after ∧ step taken.before taken.label taken.after := by
  generalize list : [taken] = steps at run
  cases run with
  | nil => cases list
  | snoc earlier last =>
    obtain ⟨front, back⟩ := List.append_inj' ((List.nil_append _).trans list) rfl
    subst front
    rw [List.singleton_inj] at back
    subst back
    exact ⟨(earlier.eq_of_nil).symm, rfl, last⟩

/-- A run splits at every prefix of its steps. -/
theorem split {first second : List (Step State Label)} (run : Run step start steps final)
    (cut : steps = first ++ second) :
    ∃ middle, Run step start first middle ∧ Run step middle second final := by
  induction run generalizing second with
  | nil =>
    obtain ⟨rfl, rfl⟩ := List.append_eq_nil_iff.mp cut.symm
    exact ⟨start, Run.nil start, Run.nil start⟩
  | @snoc last final steps label earlier taken inductionHypothesis =>
    rcases List.eq_nil_or_concat second with rfl | ⟨front, back, rfl⟩
    · rw [List.append_nil] at cut
      exact ⟨final, cut ▸ Run.snoc earlier taken, Run.nil final⟩
    · rw [List.concat_eq_append, ← List.append_assoc] at cut
      obtain ⟨same, single⟩ := List.append_inj' cut rfl
      rw [List.singleton_inj] at single
      subst single
      obtain ⟨middle, before, after⟩ := inductionHypothesis same
      rw [List.concat_eq_append]
      exact ⟨middle, before, Run.snoc after taken⟩

/-- A run splits around every step it takes. -/
theorem split_at {first second : List (Step State Label)} {taken : Step State Label}
    (run : Run step start steps final) (cut : steps = first ++ taken :: second) :
    Run step start first taken.before ∧ step taken.before taken.label taken.after ∧
      Run step taken.after second final := by
  obtain ⟨middle, before, rest⟩ := run.split (show steps = first ++ (taken :: second) from cut)
  obtain ⟨next, single, after⟩ := rest.split (show taken :: second = [taken] ++ second from rfl)
  obtain ⟨rfl, rfl, stepped⟩ := single.of_singleton
  exact ⟨before, stepped, after⟩

/-- The history rule: what holds of no steps at the start, and is kept by every step that is
allowed after the steps before it, holds of all the steps of a run. -/
theorem history (property : List (Step State Label) → State → Prop)
    (allowed : List (Step State Label) → Step State Label → Prop)
    (kept : ∀ earlier taken, allowed earlier taken → property earlier taken.before →
      step taken.before taken.label taken.after → property (earlier ++ [taken]) taken.after)
    (run : Run step start steps final)
    (each : ∀ earlier taken later, steps = earlier ++ taken :: later → allowed earlier taken)
    (base : property [] start) : property steps final := by
  induction run with
  | nil => exact base
  | @snoc middle final steps label before last inductionHypothesis =>
    refine kept steps ⟨middle, label, final⟩ (each _ _ [] rfl) (inductionHypothesis ?_) last
    intro earlier taken later cut
    refine each earlier taken (later ++ [⟨middle, label, final⟩]) ?_
    rw [cut, List.append_assoc]
    rfl

/-- What the history rule gives holds before every step of the run as well. -/
theorem history_before (property : List (Step State Label) → State → Prop)
    (allowed : List (Step State Label) → Step State Label → Prop)
    (kept : ∀ earlier taken, allowed earlier taken → property earlier taken.before →
      step taken.before taken.label taken.after → property (earlier ++ [taken]) taken.after)
    (run : Run step start steps final)
    (each : ∀ earlier taken later, steps = earlier ++ taken :: later → allowed earlier taken)
    (base : property [] start) {earlier later : List (Step State Label)}
    {taken : Step State Label} (cut : steps = earlier ++ taken :: later) :
    property earlier taken.before := by
  refine (run.split_at cut).1.history property allowed kept (fun first now rest same => ?_) base
  refine each first now (rest ++ taken :: later) ?_
  rw [cut, same, List.append_assoc]
  rfl

/-- The length rule: when every step lowers a measure, a run is not longer than the measure of its
start. -/
theorem length_le (measure : State → Nat) (run : Run step start steps final)
    (each : ∀ taken ∈ steps, measure taken.after < measure taken.before) :
    steps.length + measure final ≤ measure start := by
  induction run with
  | nil => exact le_of_eq (Nat.zero_add _)
  | @snoc middle final steps label earlier last inductionHypothesis =>
    have shorter := inductionHypothesis fun taken member =>
      each taken (List.mem_append_left _ member)
    have lower : measure final < measure middle :=
      each ⟨middle, label, final⟩ (List.mem_append_right _ List.mem_cons_self)
    rw [List.length_append, List.length_singleton]
    calc steps.length + 1 + measure final
        = steps.length + (measure final + 1) := by rw [Nat.add_assoc, Nat.add_comm 1]
      _ ≤ steps.length + measure middle := Nat.add_le_add_left lower _
      _ ≤ measure start := shorter

/-- The view rule: when every step is unseen or seen as a step of another system, the steps that
are seen are a run of that system. -/
theorem view {View Event : Type*} {viewStep : View → Event → View → Prop} (read : State → View)
    (seen : Step State Label → Option (Step View Event))
    (each : ∀ before label after, step before label after →
      (seen ⟨before, label, after⟩ = none ∧ read after = read before) ∨
        ∃ event, seen ⟨before, label, after⟩ = some ⟨read before, event, read after⟩ ∧
          viewStep (read before) event (read after))
    (run : Run step start steps final) :
    Run viewStep (read start) (steps.filterMap seen) (read final) := by
  induction run with
  | nil => exact Run.nil _
  | snoc earlier last inductionHypothesis =>
    rw [List.filterMap_append]
    rcases each _ _ _ last with ⟨unseen, same⟩ | ⟨event, same, stepped⟩
    · rw [List.filterMap_cons_none unseen, List.filterMap_nil, List.append_nil, same]
      exact inductionHypothesis
    · rw [List.filterMap_cons_some same, List.filterMap_nil]
      exact inductionHypothesis.snoc stepped

/-- What is allowed at every index of the steps is allowed at every cut. -/
theorem cuts_of_indexes {allowed : List (Step State Label) → Step State Label → Prop}
    (each : ∀ index, (inside : index < steps.length) →
      allowed (steps.take index) steps[index]) :
    ∀ earlier taken later, steps = earlier ++ taken :: later → allowed earlier taken := by
  rintro earlier taken later rfl
  have here := each earlier.length (by simp)
  rwa [List.take_left, List.getElem_of_append rfl rfl] at here

end Run

namespace Machine

variable (machine : Machine State Label)

/-- A state some run from an initial state ends in. -/
def Reachable (state : State) : Prop :=
  ∃ start steps, machine.initial start ∧ Run machine.step start steps state

variable {machine}

theorem Reachable.initial {state : State} (start : machine.initial state) :
    machine.Reachable state :=
  ⟨state, [], start, Run.nil state⟩

theorem Reachable.run {state final : State} {steps : List (Step State Label)}
    (reachable : machine.Reachable state) (run : Run machine.step state steps final) :
    machine.Reachable final := by
  obtain ⟨start, earlier, initial, first⟩ := reachable
  exact ⟨start, earlier ++ steps, initial, first.append run⟩

/-- What holds initially and is kept by every step holds in every reachable state. -/
theorem Reachable.invariant (property : State → Prop)
    (base : ∀ state, machine.initial state → property state)
    (kept : ∀ before label after, property before → machine.step before label after →
      property after)
    {state : State} (reachable : machine.Reachable state) : property state := by
  obtain ⟨start, steps, initial, run⟩ := reachable
  exact run.invariant property (fun _ _ => True)
    (fun before label after _ holds taken => kept before label after holds taken)
    (fun _ _ => trivial) (base start initial)

end Machine

/-! ### Machines that are executed -/

section Execution

variable {Failure : Type*} (execute : State → Label → Except Failure State)

/-- The step relation of an executable transition function. -/
def stepOf (before : State) (label : Label) (after : State) : Prop :=
  execute before label = .ok after

/-- The state after a label, or the same state when the label fails. -/
def follow (start : State) (label : Label) : State :=
  match execute start label with
  | .ok next => next
  | .error _ => start

/-- A result is a success that passes a test. -/
def succeedsWith (check : State → Bool) : Except Failure State → Bool
  | .ok state => check state
  | .error _ => false

theorem exists_of_succeedsWith (result : Except Failure State) (check : State → Bool)
    (passed : succeedsWith check result = true) :
    ∃ state, result = .ok state ∧ check state = true := by
  cases result with
  | ok state => exact ⟨state, rfl, passed⟩
  | error failure => cases passed

/-- The steps through labels that are followed in order. -/
def followAll (start : State) : List Label → List (Step State Label)
  | [] => []
  | label :: rest =>
    ⟨start, label, follow execute start label⟩ :: followAll (follow execute start label) rest

/-- What every label of a list satisfies, the labels of the steps through them satisfy. -/
theorem followAll_labels {property : Label → Prop} (start : State) (labels : List Label)
    (each : ∀ label ∈ labels, property label) :
    ∀ taken ∈ followAll execute start labels, property taken.label := by
  induction labels generalizing start with
  | nil => exact fun _ member => absurd member List.not_mem_nil
  | cons label rest inductionHypothesis =>
    intro taken member
    rcases List.mem_cons.mp member with rfl | later
    · exact each label List.mem_cons_self
    · exact inductionHypothesis _ (fun other old => each other (List.mem_cons_of_mem _ old))
        taken later

/-- Following labels in two parts is following the second from where the first ends. -/
theorem followAll_append (start : State) (first second : List Label) :
    followAll execute start (first ++ second) =
      followAll execute start first ++
        followAll execute (first.foldl (follow execute) start) second := by
  induction first generalizing start with
  | nil => rfl
  | cons label rest inductionHypothesis =>
    rw [List.cons_append, followAll, followAll, inductionHypothesis]
    rfl

/-- A label that succeeds leads to the state that follows it. -/
theorem follow_step {start : State} {label : Label}
    (passed : succeedsWith (fun _ => true) (execute start label) = true) :
    stepOf execute start label (follow execute start label) := by
  unfold stepOf follow
  cases result : execute start label with
  | ok next => rfl
  | error failure =>
    rw [result] at passed
    cases passed

theorem follow_of_ok {start next : State} {label : Label}
    (stepped : execute start label = .ok next) : follow execute start label = next := by
  unfold follow
  rw [stepped]

/-- Labels that succeed one after the other make a run. -/
theorem followAll_run (start : State) (labels : List Label)
    (passed : ∀ taken ∈ followAll execute start labels,
      succeedsWith (fun _ => true) (execute taken.before taken.label) = true) :
    Run (stepOf execute) start (followAll execute start labels)
      (labels.foldl (follow execute) start) := by
  induction labels generalizing start with
  | nil => exact Run.nil start
  | cons label rest inductionHypothesis =>
    have first := Run.single (follow_step execute (passed _ List.mem_cons_self))
    exact first.append (inductionHypothesis _ fun taken member =>
      passed taken (List.mem_cons_of_mem _ member))

end Execution

end Transition
