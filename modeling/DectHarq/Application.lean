/-
This file models the application: the main function, the start of the modem and the buttons.

The application is two more threads. The main thread starts the modem and then puts the
permanent reception; the work of the buttons transmits a message and stops the reception.
Neither looks at what the queue returns. Everything else goes on in between, but nobody
else puts an operation or calls a handler for the application. The two error tests at the
start of the main function read a variable that was never written: what they find is free.
-/

import DectHarq.DispatchOrder
import DectHarq.System

namespace DectHarq

variable {config : Config}

/-! ### The main function -/

/-- Where the main thread is. -/
inductive MainThread
  /-- Before the modem is started. -/
  | starting
  /-- It is about to ask for the capabilities. -/
  | capability
  /-- It is about to ask for the initialization. -/
  | initialization
  /-- The modem is started, and it is about to ask for the permanent reception. -/
  | reception
  | returned
  deriving DecidableEq

/-- `dect_mac_phy_handler_start_modem` up to its first put. -/
def dectMacPhyHandlerStartModem (libInit callbackSet : Int) : MainThread :=
  if libInit ≠ 0 then .returned
  else if callbackSet ≠ 0 then .returned
  else .capability

/-- `main` up to the first put. The first two arguments are what its error variable happens to
hold at the two tests before the start of the modem. -/
def mainStart (buttonsErr ledsErr libInit callbackSet : Int) : MainThread :=
  if buttonsErr ≠ 0 then .returned
  else if ledsErr ≠ 0 then .returned
  else dectMacPhyHandlerStartModem libInit callbackSet

/-- The permanent reception of `main`. -/
def receptionParams (config : Config) : RxParams where
  handle := 0x14
  rxMode := config.modem.rxModeSingleShot
  rxPeriodMs := 10000
  receiverIdentity := 0
  startTime := 0

def capabilityItem : QueueItem := ⟨.capabilityGet, priorityCritical, .user⟩

def initItem : QueueItem := ⟨.init, priorityCritical, .user⟩

def receptionItem (config : Config) : QueueItem :=
  ⟨.rx (receptionParams config), priorityPermanent, .user⟩

/-- What the main thread puts next, and where it is then. -/
def MainThread.next (config : Config) : MainThread → Option (QueueItem × MainThread)
  | .capability => some (capabilityItem, .initialization)
  | .initialization => some (initItem, .reception)
  | .reception => some (receptionItem config, .returned)
  | _ => none

/-! ### The buttons -/

/-- The buttons that do more than to switch a light. -/
inductive Button
  | first
  | second
  deriving DecidableEq

/-- The message of a button. -/
def Button.text : Button → String
  | .first =>
    "Hello Worldi 12345678901678016789012345678901234567890123456789012345678901234567890" ++
    "123456789067890123456789012345678901234567890123456789012345678901234567890123456789" ++
    "0123dsafasdfsadfsadfasdfasdfasdfasdfasdfsadf4567890678901234567890123456789012345634" ++
    "5678901234567890123456789012345678901234567890123456789012345678901test"
  | .second => "Hello Worldo"

/-- The device that a button sends its message to. -/
def Button.receiverId : Button → Nat
  | .first => 14231
  | .second => 29054

/-- The message of a button as `button1_pressed` and `button2_pressed` transmit it. -/
def Button.params (button : Button) : HarqTransmitParams where
  data := button.text.toList.map Char.toNat
  dataLen := button.text.length
  startTime := 0
  receiverId := button.receiverId

/-- `button_handler`: the button whose function it calls. -/
def buttonHandler (buttonState hasChanged : UInt32) : Option Button :=
  if hasChanged = 1 then
    if buttonState &&& 1 ≠ 0 then some .first else none
  else if hasChanged = 2 then
    if buttonState &&& 2 ≠ 0 then some .second else none
  else none

/-- The handle of the reception that the buttons stop. -/
def stopHandle : BitVec 32 := 0x48000014

/-- Where the work of the buttons is. -/
inductive ButtonWork
  | idle
  /-- It is about to transmit the message of a button. -/
  | transmitting (button : Button)
  /-- It is about to stop the reception. -/
  | stopping
  deriving DecidableEq

/-! ### The machine -/

/-- The program with its application. -/
structure Application (config : Config) where
  system : System config
  main : MainThread
  buttons : ButtonWork

/-- The actions of the application, and those that go on around it. -/
inductive ApplicationEvent (config : Config)
  | mainStart (buttonsErr ledsErr libInit callbackSet : Int)
  | mainPut
  | button (buttonState hasChanged : UInt32)
  | buttonTransmit (heap : Option Nat)
  | buttonStop (ret : Int)
  | around (event : Event config)

/-- The actions that only the application takes. -/
def Event.byApplication : Event config → Bool
  | .transmit _ _ => true
  | .queuePut _ _ => true
  | .direct _ _ => true
  | _ => false

/-- One action of the application, or around it. -/
def applicationStep (application : Application config) :
    ApplicationEvent config → Except Stop (Application config)
  | .mainStart buttonsErr ledsErr libInit callbackSet =>
    match application.main with
    | .starting =>
      .ok { application with main := mainStart buttonsErr ledsErr libInit callbackSet }
    | _ => .error .disabled
  | .mainPut =>
    match application.main.next config with
    | some (item, next) => do
      let system ← step application.system (.queuePut item.operation item.priority)
      .ok { application with system := system, main := next }
    | none => .error .disabled
  | .button buttonState hasChanged =>
    match application.buttons, buttonHandler buttonState hasChanged with
    | .idle, some button => .ok { application with buttons := .transmitting button }
    | .idle, none => .ok application
    | _, _ => .error .disabled
  | .buttonTransmit heap =>
    match application.buttons with
    | .transmitting button => do
      let system ← step application.system (.transmit button.params heap)
      .ok { application with system := system, buttons := .stopping }
    | _ => .error .disabled
  | .buttonStop ret =>
    match application.buttons with
    | .stopping => do
      let system ← step application.system (.direct (.rxStop ⟨stopHandle⟩) ret)
      .ok { application with system := system, buttons := .idle }
    | _ => .error .disabled
  | .around event =>
    if event.byApplication then .error .disabled
    else do
      let system ← step application.system event
      .ok { application with system := system }

/-- The program at boot, with the application about to start. -/
def Started (application : Application config) : Prop :=
  Booted application.system ∧ application.main = .starting ∧ application.buttons = .idle

/-- A run of the application. -/
abbrev ApplicationRun (start : Application config)
    (steps : List (Transition.Step (Application config) (ApplicationEvent config)))
    (final : Application config) : Prop :=
  Transition.Run (Transition.stepOf applicationStep) start steps final

/-! ### The program under the application -/

/-- The action of the program that an event of the application stands for. -/
def ApplicationEvent.action (application : Application config) :
    ApplicationEvent config → Option (Event config)
  | .mainPut => (application.main.next config).map fun next =>
    .queuePut next.1.operation next.1.priority
  | .buttonTransmit heap =>
    match application.buttons with
    | .transmitting pressed => some (.transmit pressed.params heap)
    | _ => none
  | .buttonStop ret => some (.direct (.rxStop ⟨stopHandle⟩) ret)
  | .around event => some event
  | _ => none

/-- The step of the program in a step of the application. -/
def programStep (taken : Transition.Step (Application config) (ApplicationEvent config)) :
    Option (Transition.Step (System config) (Event config)) :=
  (taken.label.action taken.before).map fun event =>
    ⟨taken.before.system, event, taken.after.system⟩

/-- The steps of the program in those of the application. -/
def programSteps (steps : List (Transition.Step (Application config) (ApplicationEvent config))) :
    List (Transition.Step (System config) (Event config)) :=
  steps.filterMap programStep

/-- One action of the application, by the branches of its threads. -/
inductive ApplicationAction (before : Application config) :
    ApplicationEvent config → Application config → Prop
  | mainStart (buttonsErr ledsErr libInit callbackSet : Int) (starting : before.main = .starting) :
      ApplicationAction before (.mainStart buttonsErr ledsErr libInit callbackSet)
        { before with main := mainStart buttonsErr ledsErr libInit callbackSet }
  | mainPut (item : QueueItem) (next : MainThread) (system : System config)
      (line : before.main.next config = some (item, next))
      (stepped : step before.system (.queuePut item.operation item.priority) = .ok system) :
      ApplicationAction before .mainPut { before with system := system, main := next }
  | button (buttonState hasChanged : UInt32) (buttons : ButtonWork) :
      ApplicationAction before (.button buttonState hasChanged) { before with buttons := buttons }
  | buttonTransmit (heap : Option Nat) (pressed : Button) (system : System config)
      (transmitting : before.buttons = .transmitting pressed)
      (stepped : step before.system (.transmit pressed.params heap) = .ok system) :
      ApplicationAction before (.buttonTransmit heap)
        { before with system := system, buttons := .stopping }
  | buttonStop (ret : Int) (system : System config) (stopping : before.buttons = .stopping)
      (stepped : step before.system (.direct (.rxStop ⟨stopHandle⟩) ret) = .ok system) :
      ApplicationAction before (.buttonStop ret)
        { before with system := system, buttons := .idle }
  | around (event : Event config) (system : System config) (outside : event.byApplication = false)
      (stepped : step before.system event = .ok system) :
      ApplicationAction before (.around event) { before with system := system }

theorem applicationAction_of_step {before after : Application config}
    {label : ApplicationEvent config} (stepped : applicationStep before label = .ok after) :
    ApplicationAction before label after := by
  cases label with
  | mainStart buttonsErr ledsErr libInit callbackSet =>
    dsimp only [applicationStep] at stepped
    split at stepped
    · rename_i starting
      cases stepped
      exact .mainStart _ _ _ _ starting
    · cases stepped
  | mainPut =>
    dsimp only [applicationStep] at stepped
    split at stepped
    · rename_i item next line
      obtain ⟨system, put, rest⟩ := bind_ok.mp stepped
      cases rest
      exact .mainPut item next system line put
    · cases stepped
  | button buttonState hasChanged =>
    dsimp only [applicationStep] at stepped
    split at stepped
    · cases stepped
      exact .button _ _ _
    · cases stepped
      exact .button _ _ before.buttons
    · cases stepped
  | buttonTransmit heap =>
    dsimp only [applicationStep] at stepped
    split at stepped
    · rename_i pressed transmitting
      obtain ⟨system, sent, rest⟩ := bind_ok.mp stepped
      cases rest
      exact .buttonTransmit heap pressed system transmitting sent
    · cases stepped
  | buttonStop ret =>
    dsimp only [applicationStep] at stepped
    split at stepped
    · rename_i stopping
      obtain ⟨system, called, rest⟩ := bind_ok.mp stepped
      cases rest
      exact .buttonStop ret system stopping called
    · cases stepped
  | around event =>
    dsimp only [applicationStep] at stepped
    split at stepped
    · cases stepped
    · rename_i outside
      obtain ⟨system, taken, rest⟩ := bind_ok.mp stepped
      cases rest
      exact .around event system (by simpa using outside) taken

/-- A step of the application leaves the program alone, or takes a step of it. -/
theorem ApplicationAction.program {before after : Application config}
    {label : ApplicationEvent config} (action : ApplicationAction before label after) :
    (programStep ⟨before, label, after⟩ = none ∧ after.system = before.system) ∨
      ∃ event, programStep ⟨before, label, after⟩ = some ⟨before.system, event, after.system⟩ ∧
        step before.system event = .ok after.system := by
  cases action with
  | mainStart => exact Or.inl ⟨rfl, rfl⟩
  | button => exact Or.inl ⟨rfl, rfl⟩
  | mainPut item next system line stepped =>
    refine Or.inr ⟨_, ?_, stepped⟩
    simp only [programStep, ApplicationEvent.action, line, Option.map_some]
  | buttonTransmit heap pressed system transmitting stepped =>
    refine Or.inr ⟨_, ?_, stepped⟩
    simp only [programStep, ApplicationEvent.action, transmitting, Option.map_some]
  | buttonStop ret system stopping stepped => exact Or.inr ⟨_, rfl, stepped⟩
  | around event system outside stepped => exact Or.inr ⟨_, rfl, stepped⟩

theorem programSteps_concat
    (steps : List (Transition.Step (Application config) (ApplicationEvent config)))
    (taken : Transition.Step (Application config) (ApplicationEvent config)) :
    programSteps (steps ++ [taken]) = programSteps steps ++ (programStep taken).toList := by
  unfold programSteps
  rw [List.filterMap_append]
  cases found : programStep taken with
  | none => rw [List.filterMap_cons_none found, List.filterMap_nil, Option.toList_none]
  | some step => rw [List.filterMap_cons_some found, List.filterMap_nil, Option.toList_some]

theorem programSteps_idle
    (steps : List (Transition.Step (Application config) (ApplicationEvent config)))
    {taken : Transition.Step (Application config) (ApplicationEvent config)}
    (idle : programStep taken = none) :
    programSteps (steps ++ [taken]) = programSteps steps := by
  rw [programSteps_concat, idle, Option.toList_none, List.append_nil]

section Runs

variable {start final : Application config}
  {steps : List (Transition.Step (Application config) (ApplicationEvent config))}

/-- The steps of the program in a run of the application are a run of the program. -/
theorem program_run (run : ApplicationRun start steps final) :
    Run start.system (programSteps steps) final.system :=
  run.view Application.system programStep fun _ _ _ stepped =>
    (applicationAction_of_step stepped).program

/-- The invariant rule for the application: what holds when it starts and is kept by every one of
its actions after any of its runs holds at the end of every run. -/
theorem application_history (started : Started start) (run : ApplicationRun start steps final)
    (property : List (Transition.Step (System config) (Event config)) → Application config → Prop)
    (base : property [] start)
    (kept : ∀ earlier before label after, before.system.harq.Sound →
      property (programSteps earlier) before → ApplicationAction before label after →
        property (programSteps (earlier ++ [⟨before, label, after⟩])) after) :
    property (programSteps steps) final := by
  induction run with
  | nil => exact base
  | @snoc middle final steps label earlier last inductionHypothesis =>
    have sound := (run_invariant started.1 (program_run earlier) (fun _ => True) (fun _ _ => True)
      trivial (fun _ _ _ _ _ _ _ => trivial) fun _ _ => trivial).1
    exact kept _ _ _ _ sound inductionHypothesis (applicationAction_of_step last)

end Runs

end DectHarq
