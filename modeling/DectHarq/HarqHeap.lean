/-
This file follows the data of the packets down to the blocks of the kernel heap.

A transmit allocates a block for its data; whoever initializes a process frees the block
the process had, and the pointer is set to NULL there and nowhere else. Processes are
initialized from many places: an ACK, the last expiration, a failed allocation, and every
received request, for a process that a packet may occupy at that time. In every run the
data blocks, those that `dect_mac_harq.c` allocated and has not freed, are the data of the
occupied processes, each of them of one process: no data block is freed twice, and none is
leaked. The node records are blocks of the same heap and not among these; of them only
this is used, that the allocator returns no data block for another one.
-/

import DectHarq.Library.Ownership
import DectHarq.HarqMoves

namespace DectHarq

open Ownership

variable {config : Config}

/-! ### The calls of the heap for data -/

/-- A call of `k_malloc` for data that returned a block, with what is copied into it, or of `k_free`
for such a block. -/
abbrev DataCall : Type := Ownership.Call Nat (List Nat)

/-- The block of a process. -/
def HarqProcess.block (process : HarqProcess) : Option (Nat × List Nat) :=
  process.data.map fun buffer => (buffer.address, buffer.bytes)

/-- `dect_mac_harq_init_process` frees the data of the process. To free NULL does nothing. -/
def initProcessCalls (process : HarqProcess) : List DataCall := freeCalls process.block

/-- `dect_mac_harq_initialize` initializes all processes, the first time. -/
def initializeCalls (harq : Harq config) : List DataCall :=
  if harq.initialized then []
  else (List.finRange config.harqProcessCount).flatMap fun index =>
    initProcessCalls (harq.processes index)

/-- `dect_mac_harq_give_process`. -/
def giveProcessCalls (capabilities : Capabilities) (index : Fin config.harqProcessCount)
    (harq : Harq config) : List DataCall :=
  initializeCalls harq ++
    initProcessCalls ((dectMacHarqInitialize capabilities harq).processes index)

/-- `dect_mac_harq_transmit`. A process that gets no block is given back. -/
def transmitCalls (params : HarqTransmitParams) (heap : Option Nat) (system : System config) :
    List DataCall :=
  let (taken, harq) := dectMacHarqTakeProcess system.phy.capabilities system.harq
  initializeCalls system.harq ++
    match taken, heap with
    | none, _ => []
    | some index, none => giveProcessCalls system.phy.capabilities index harq
    | some _, some address => [.malloc address (params.data.take params.dataLen)]

/-- `dect_mac_harq_retransmission_work_handler`. -/
def workCalls (index : Fin config.harqProcessCount) (system : System config) : List DataCall :=
  if (system.harq.processes index).transmissionCount < config.harqMaxTransmissions then []
  else giveProcessCalls system.phy.capabilities index system.harq

/-- `dect_mac_harq_response`. -/
def responseCalls (capabilities : Capabilities) (header : PhyHeader) (harq : Harq config) :
    List DataCall :=
  match processIndex config (feedbackProcess header) with
  | .ok index =>
    if Type2.feedbackFormat.get header = feedbackFormat1 ∧
        Format1.transmissionFeedback.get (headerFeedback header) = ack then
      giveProcessCalls capabilities index (cancelWork index harq)
    else []
  | .error _ => []

/-- `dect_mac_harq_request`. -/
def requestCalls (header : PhyHeader) (harq : Harq config) : List DataCall :=
  match processIndex config (Type2.dfHarqProcessNr.get header) with
  | .ok index => initProcessCalls (harq.processes index)
  | .error _ => []

/-- The calls that `dect_mac_harq.c` makes in an event. -/
def dataCalls (system : System config) : Event config → List DataCall
  | .transmit params heap => transmitCalls params heap system
  | .workExpired index => workCalls index { system with harq := cancelWork index system.harq }
  | .pcc status header _ =>
    if IsRequest config system.phy.deviceId status header then requestCalls header system.harq
    else if IsResponse config system.phy.deviceId status header then
      responseCalls system.phy.capabilities header system.harq
    else []
  | _ => []

/-! ### The system with its data blocks -/

/-- The system with the data blocks: what `dect_mac_harq.c` allocated and has not freed. -/
structure DataSystem (config : Config) where
  system : System config
  blocks : Ownership.Heap Nat (List Nat)

/-- What ends a step of the system with its data blocks. -/
inductive DataStop
  | stopped (stop : Stop)
  | fault (fault : Ownership.Fault)
  deriving DecidableEq

/-- One atomic action with its calls for data. -/
def dataStep (withData : DataSystem config) (event : Event config) :
    Except DataStop (DataSystem config) :=
  match step withData.system event, callAll withData.blocks (dataCalls withData.system event) with
  | .error stop, _ => .error (.stopped stop)
  | .ok _, .error fault => .error (.fault fault)
  | .ok system, .ok blocks => .ok ⟨system, blocks⟩

/-- A run with data blocks, whose allocator returns no data block again before it is freed. -/
abbrev DataSystemRun (start : DataSystem config)
    (steps : List (Transition.Step (DataSystem config) (Event config)))
    (final : DataSystem config) : Prop :=
  Transition.Run (Transition.stepOf dataStep) start steps final

/-- The system at boot, without data blocks. -/
def DataBooted (withData : DataSystem config) : Prop :=
  Booted withData.system ∧ withData.blocks = fun _ => none

/-! ### Ownership -/

/-- The block of every process. -/
def Harq.blocks (harq : Harq config) (index : Fin config.harqProcessCount) :
    Option (Nat × List Nat) :=
  (harq.processes index).block

/-- A process that is not in use has no block. -/
def Harq.Clean (harq : Harq config) : Prop :=
  ∀ index, harq.occupied index = false → harq.blocks index = none

/-- What a move does to the blocks: it releases that of a process, fills a process that has none,
or does nothing. -/
inductive BlockMove (config : Config)
  | nothing
  | release (index : Fin config.harqProcessCount)
  | acquire (index : Fin config.harqProcessCount) (address : Nat) (bytes : List Nat)

/-- The calls of a move of the blocks. -/
def BlockMove.calls (harq : Harq config) : BlockMove config → List DataCall
  | .nothing => []
  | .release index => freeCalls (harq.blocks index)
  | .acquire _ address bytes => [.malloc address bytes]

/-- The blocks after a move of the blocks. -/
def BlockMove.after (harq : Harq config) : BlockMove config → Fin config.harqProcessCount →
    Option (Nat × List Nat)
  | .nothing => harq.blocks
  | .release index => Function.update harq.blocks index none
  | .acquire index address bytes => Function.update harq.blocks index (some (address, bytes))

/-- The calls and the blocks of a step are those of a move, which acquires only for a process that
has no block. -/
structure MovesBlocks (move : BlockMove config) (calls : List DataCall)
    (before after : Harq config) : Prop where
  calls : calls = move.calls before
  blocks : after.blocks = move.after before
  clean : after.Clean
  empty : ∀ index address bytes, move = .acquire index address bytes → before.blocks index = none

section Moves

variable {harq : Harq config} {index : Fin config.harqProcessCount}

theorem initialize_blocks (sound : harq.Sound) (clean : harq.Clean) (capabilities : Capabilities) :
    (dectMacHarqInitialize capabilities harq).blocks = harq.blocks := by
  funext index
  by_cases initialized : harq.initialized = true
  · rw [initialize_of_initialized initialized]
  · rw [clean index (sound.untouched (by simpa using initialized) index).1]
    unfold dectMacHarqInitialize
    rw [if_neg initialized]
    rfl

theorem initialize_clean (sound : harq.Sound) (clean : harq.Clean) (capabilities : Capabilities) :
    (dectMacHarqInitialize capabilities harq).Clean := by
  intro index free
  rw [initialize_occupied sound] at free
  rw [initialize_blocks sound clean]
  exact clean index free

/-- The first initialization finds no block. -/
theorem initializeCalls_clean (sound : harq.Sound) (clean : harq.Clean) :
    initializeCalls harq = [] := by
  unfold initializeCalls
  split
  · rfl
  · rename_i fresh
    refine List.flatMap_eq_nil_iff.mpr fun index _ => ?_
    have none := clean index (sound.untouched (by simpa using fresh) index).1
    rw [initProcessCalls, show (harq.processes index).block = Option.none from none]
    rfl

/-- A give-back frees the block of its process. -/
theorem giveProcessCalls_clean (sound : harq.Sound) (clean : harq.Clean)
    (capabilities : Capabilities) (index : Fin config.harqProcessCount) :
    giveProcessCalls capabilities index harq = freeCalls (harq.blocks index) := by
  rw [giveProcessCalls, initializeCalls_clean sound clean, List.nil_append, initProcessCalls,
    ← initialize_blocks sound clean capabilities]
  rfl

/-- A change that keeps the data keeps the blocks. -/
theorem modify_blocks (harq : Harq config) (index : Fin config.harqProcessCount)
    {change : HarqProcess → HarqProcess} (keeps : ∀ process, (change process).data = process.data) :
    (harq.modify index change).blocks = harq.blocks := by
  funext other
  exact modify_reading HarqProcess.block harq index other change
    (by rw [HarqProcess.block, HarqProcess.block, keeps])

/-- A change that forgets the data releases the block. -/
theorem modify_blocks_none (harq : Harq config) (index : Fin config.harqProcessCount)
    {change : HarqProcess → HarqProcess} (forgets : ∀ process, (change process).data = none) :
    (harq.modify index change).blocks = Function.update harq.blocks index none := by
  funext other
  unfold Harq.blocks
  by_cases same : other = index
  · subst same
    rw [modify_processes_self, Function.update_self, HarqProcess.block, forgets]
    rfl
  · rw [modify_processes_of_ne _ _ same, Function.update_of_ne same]

theorem cancelWork_blocks (harq : Harq config) (index : Fin config.harqProcessCount) :
    (cancelWork index harq).blocks = harq.blocks := modify_blocks harq index fun _ => rfl

theorem scheduleWork_blocks (harq : Harq config) (index : Fin config.harqProcessCount) :
    (scheduleWork index harq).blocks = harq.blocks := by
  funext other
  exact scheduleWork_reading HarqProcess.block (fun _ => rfl) index other harq

/-- Nothing happens to the blocks. -/
theorem movesBlocks_nothing {after : Harq config} (clean : harq.Clean)
    (blocks : after.blocks = harq.blocks) (occupied : after.occupied = harq.occupied) :
    MovesBlocks .nothing [] harq after where
  calls := rfl
  blocks := blocks
  clean := fun index free => by
    rw [occupied] at free
    rw [blocks]
    exact clean index free
  empty := nofun

/-- A give-back releases the block of its process. -/
theorem movesBlocks_given (sound : harq.Sound) (clean : harq.Clean) (capabilities : Capabilities)
    (index : Fin config.harqProcessCount) :
    MovesBlocks (.release index) (freeCalls (harq.blocks index)) harq
      (givenHarq capabilities index (dectMacHarqInitialize capabilities harq)) := by
  have blocks : (givenHarq capabilities index (dectMacHarqInitialize capabilities harq)).blocks =
      Function.update harq.blocks index none := by
    rw [← initialize_blocks sound clean capabilities]
    exact modify_blocks_none _ index fun _ => rfl
  refine ⟨rfl, blocks, fun other free => ?_, nofun⟩
  rw [blocks]
  by_cases same : other = index
  · rw [same, Function.update_self]
  · rw [givenHarq_occupied_of_ne _ _ same, initialize_occupied sound] at free
    rw [Function.update_of_ne same]
    exact clean other free

/-- A request releases the block of the process it names. -/
theorem movesBlocks_requested {after : Harq config} (clean : harq.Clean) {header : PhyHeader}
    {capabilities : Capabilities}
    (processed : requestProcess capabilities header harq = .ok after) :
    ∃ index, requestCalls header harq = freeCalls (harq.blocks index) ∧
      MovesBlocks (.release index) (freeCalls (harq.blocks index)) harq
        { after with replies := after.replies + 1 } := by
  obtain ⟨index, size, number, rfl⟩ := requestProcess_cases processed
  have bound : Type2.dfHarqProcessNr.get header < config.harqProcessCount := number ▸ index.isLt
  refine ⟨index, ?_, rfl, ?_, fun other free => ?_, nofun⟩
  · rw [requestCalls, processIndex_of_lt bound,
      show index = ⟨Type2.dfHarqProcessNr.get header, bound⟩ from Fin.ext number]
    rfl
  · exact modify_blocks_none harq index fun _ => rfl
  · show (harq.modify index _).blocks other = none
    rw [modify_blocks_none harq index fun _ => rfl]
    by_cases same : other = index
    · rw [same, Function.update_self]
    · rw [Function.update_of_ne same]
      exact clean other free

end Moves

/-- A take returns a process that was free, and makes it occupied. -/
theorem takeProcess_eq {capabilities : Capabilities} {harq : Harq config}
    {result : Option (Fin config.harqProcessCount)}
    (took : (dectMacHarqTakeProcess capabilities harq).1 = result) :
    dectMacHarqTakeProcess capabilities harq =
      (result, result.elim (dectMacHarqInitialize capabilities harq) fun index =>
        takenHarq index (dectMacHarqInitialize capabilities harq)) := by
  rcases takeProcess_cases capabilities harq with ⟨_, same⟩ | ⟨index, _, same⟩
  · rw [same] at took ⊢
    subst took
    rfl
  · rw [same] at took ⊢
    subst took
    rfl

/-- A transmit that takes no process makes no call. -/
theorem transmitCalls_refused {system : System config} (sound : system.harq.Sound)
    (clean : system.harq.Clean) (params : HarqTransmitParams) (heap : Option Nat)
    (refused : (dectMacHarqTakeProcess system.phy.capabilities system.harq).1 = none) :
    transmitCalls params heap system = [] := by
  rw [transmitCalls, takeProcess_eq refused]
  show initializeCalls system.harq ++ _ = _
  rw [initializeCalls_clean sound clean, List.nil_append]

/-- A transmit that gets no block gives its process back. -/
theorem transmitCalls_dropped {system : System config} (sound : system.harq.Sound)
    (clean : system.harq.Clean) (params : HarqTransmitParams)
    {index : Fin config.harqProcessCount}
    (took : (dectMacHarqTakeProcess system.phy.capabilities system.harq).1 = some index) :
    transmitCalls params none system =
      giveProcessCalls system.phy.capabilities index (takenHarq index system.ready) := by
  rw [transmitCalls, takeProcess_eq took]
  show initializeCalls system.harq ++ _ = _
  rw [initializeCalls_clean sound clean, List.nil_append]
  rfl

/-- A transmit that gets a block copies its data there. -/
theorem transmitCalls_sent {system : System config} (sound : system.harq.Sound)
    (clean : system.harq.Clean) (params : HarqTransmitParams) (address : Nat)
    {index : Fin config.harqProcessCount}
    (took : (dectMacHarqTakeProcess system.phy.capabilities system.harq).1 = some index) :
    transmitCalls params (some address) system =
      [.malloc address (params.data.take params.dataLen)] := by
  rw [transmitCalls, takeProcess_eq took]
  show initializeCalls system.harq ++ _ = _
  rw [initializeCalls_clean sound clean, List.nil_append]

/-! ### Moves of the blocks -/

/-- A move of the blocks is the same from every table with these blocks. -/
theorem MovesBlocks.of_blocks {move : BlockMove config} {calls : List DataCall}
    {before middle after : Harq config} (moves : MovesBlocks move calls middle after)
    (same : middle.blocks = before.blocks) : MovesBlocks move calls before after where
  calls := by
    rw [moves.calls]
    cases move with
    | release index => exact congrArg (fun blocks => freeCalls (blocks index)) same
    | _ => rfl
  blocks := by
    rw [moves.blocks]
    cases move with
    | nothing => exact same
    | release index => exact congrArg (fun blocks => Function.update blocks index none) same
    | acquire index address bytes =>
      exact congrArg (fun blocks => Function.update blocks index (some (address, bytes))) same
  clean := moves.clean
  empty := fun index address bytes acquires => by
    rw [← same]
    exact moves.empty index address bytes acquires

section Taken

variable {harq : Harq config} {index : Fin config.harqProcessCount}

theorem takenHarq_blocks (harq : Harq config) (index : Fin config.harqProcessCount) :
    (takenHarq index harq).blocks = harq.blocks :=
  modify_blocks harq index fun _ => rfl

theorem takenHarq_clean (clean : harq.Clean) (index : Fin config.harqProcessCount) :
    (takenHarq index harq).Clean := by
  intro other free
  rw [takenHarq_blocks]
  by_cases same : other = index
  · rw [same, takenHarq_occupied_self] at free
    cases free
  · rw [takenHarq_occupied_of_ne _ same] at free
    exact clean other free

/-- A transmit fills the process it took, which had no block. -/
theorem movesBlocks_filled (clean : harq.Clean) (free : harq.occupied index = false)
    (params : HarqTransmitParams) (address : Nat) :
    MovesBlocks (.acquire index address (params.data.take params.dataLen))
      [.malloc address (params.data.take params.dataLen)] harq
      ((takenHarq index harq).modify index (filledProcess params address)) := by
  have blocks : ((takenHarq index harq).modify index (filledProcess params address)).blocks =
      Function.update harq.blocks index (some (address, params.data.take params.dataLen)) := by
    funext other
    unfold Harq.blocks
    by_cases same : other = index
    · rw [same, modify_processes_self, Function.update_self]
      rfl
    · rw [modify_processes_of_ne _ _ same, takenHarq_processes_of_ne _ same,
        Function.update_of_ne same]
  refine ⟨rfl, blocks, fun other unused => ?_, fun other _ _ equal => ?_⟩
  · by_cases same : other = index
    · rw [modify_occupied, same, takenHarq_occupied_self] at unused
      cases unused
    · rw [modify_occupied, takenHarq_occupied_of_ne _ same] at unused
      rw [blocks, Function.update_of_ne same]
      exact clean other unused
  · cases equal
    exact clean index free

/-- An answer to a feedback gives the process back, or changes nothing of the blocks. -/
theorem movesBlocks_response {after : Harq config} {capabilities : Capabilities}
    {header : PhyHeader} (sound : harq.Sound) (clean : harq.Clean)
    (handled : dectMacHarqResponse capabilities header harq = .ok after) :
    ∃ move, MovesBlocks move (responseCalls capabilities header harq) harq after := by
  unfold responseCalls
  rcases response_cases handled with ⟨notFormatOne, notFormatSix, rfl⟩ | ⟨index, found, outcome⟩
  · refine ⟨.nothing, ?_⟩
    cases processIndex config (feedbackProcess header) with
    | ok named =>
      simp only [notFormatOne, false_and, if_false]
      exact movesBlocks_nothing clean rfl rfl
    | error stop => exact movesBlocks_nothing clean rfl rfl
  · simp only [found]
    rcases outcome with ⟨formatOne, acked, given⟩ | ⟨formatOne, nacked, rfl⟩ | ⟨formatSix, rfl⟩
    · refine ⟨.release index, ?_⟩
      have numbered : ((dectMacHarqInitialize capabilities (cancelWork index harq)).processes
          index).processNumber = (index : Nat) := initialize_numbered (cancelWork_sound sound) index
      have cleanAfter : (cancelWork index harq).Clean := fun other free => by
        rw [cancelWork_blocks]
        exact clean other free
      rw [if_pos ⟨formatOne, acked⟩, giveProcess_eq numbered given,
        giveProcessCalls_clean (cancelWork_sound sound) cleanAfter]
      exact (movesBlocks_given (cancelWork_sound sound) cleanAfter capabilities index).of_blocks
        (cancelWork_blocks harq index)
    · refine ⟨.nothing, ?_⟩
      rw [if_neg fun both => nacked both.2]
      refine movesBlocks_nothing clean ?_ (scheduleWork_occupied _ _)
      rw [scheduleWork_blocks]
      exact modify_blocks harq index fun _ => rfl
    · refine ⟨.nothing, ?_⟩
      rw [if_neg fun both => absurd (both.1.symm.trans formatSix) (by decide)]
      refine movesBlocks_nothing clean ?_ (scheduleWork_occupied _ _)
      rw [scheduleWork_blocks]
      exact modify_blocks harq index fun _ => rfl

end Taken

/-- Every action moves the blocks, with the calls of its event. -/
theorem Action.movesBlocks {system after : System config} {event : Event config}
    (sound : system.harq.Sound) (clean : system.harq.Clean) (action : Action system event after) :
    ∃ move, MovesBlocks move (dataCalls system event) system.harq after.harq := by
  have quiet : ∃ move, MovesBlocks move [] system.harq system.harq :=
    ⟨.nothing, movesBlocks_nothing clean rfl rfl⟩
  have readySound : system.ready.Sound :=
    sound_of_numbered (initialize_initialized _ _) (initialize_numbered sound)
  have readyClean : system.ready.Clean := initialize_clean sound clean _
  have readyBlocks : system.ready.blocks = system.harq.blocks := initialize_blocks sound clean _
  cases action with
  | refused params heap busy none =>
    refine ⟨.nothing, ?_⟩
    rw [dataCalls, transmitCalls_refused sound clean params heap none]
    exact movesBlocks_nothing clean readyBlocks (initialize_occupied sound)
  | dropped params index free took =>
    have takenSound : (takenHarq index system.ready).Sound :=
      sound_of_numbered (initialize_initialized _ _)
        (takenHarq_numbered (initialize_numbered sound))
    have takenClean := takenHarq_clean readyClean index
    refine ⟨.release index, ?_⟩
    rw [dataCalls, transmitCalls_dropped sound clean params took,
      giveProcessCalls_clean takenSound takenClean]
    have initialized : (takenHarq index system.ready).initialized = true :=
      initialize_initialized _ _
    have moves := movesBlocks_given takenSound takenClean system.phy.capabilities index
    rw [initialize_of_initialized initialized] at moves
    exact moves.of_blocks ((takenHarq_blocks _ _).trans readyBlocks)
  | sent params address index code queue free took put =>
    refine ⟨.acquire index address (params.data.take params.dataLen), ?_⟩
    rw [dataCalls, transmitCalls_sent sound clean params address took]
    exact (movesBlocks_filled readyClean free params address).of_blocks readyBlocks
  | retransmitted index nodes code queue pending below put =>
    refine ⟨.nothing, ?_⟩
    have calls : dataCalls system (.workExpired index) = [] := by
      rw [dataCalls, workCalls, cancelWork, modify_processes_self, if_pos below]
    rw [calls]
    exact movesBlocks_nothing clean (modify_blocks _ _ fun _ => rfl) rfl
  | expired index pending limit =>
    have cleanAfter : (cancelWork index system.harq).Clean := fun other free => by
      rw [cancelWork_blocks]
      exact clean other free
    refine ⟨.release index, ?_⟩
    have calls : dataCalls system (.workExpired index) = freeCalls (system.harq.blocks index) := by
      rw [dataCalls, workCalls, cancelWork, modify_processes_self,
        if_neg (Nat.not_lt.mpr limit)]
      rw [← cancelWork, giveProcessCalls_clean (cancelWork_sound sound) cleanAfter,
        cancelWork_blocks]
    rw [calls]
    exact movesBlocks_given sound clean _ index
  | turnHarq position op handle index =>
    exact ⟨.nothing, movesBlocks_nothing clean (scheduleWork_blocks _ _)
      (scheduleWork_occupied _ _)⟩
  | request status header ret harq reply request nodes code queue addressed processed =>
    obtain ⟨index, calls, moves⟩ := movesBlocks_requested clean processed
    refine ⟨.release index, ?_⟩
    rw [dataCalls, if_pos addressed, calls]
    exact moves
  | response status header ret harq nodes notRequest addressed handled =>
    rw [dataCalls, if_neg notRequest, if_pos addressed]
    exact movesBlocks_response sound clean handled
  | header status header ret nodes notRequest notResponse =>
    rw [dataCalls, if_neg notRequest, if_neg notResponse]
    exact quiet
  | execDispatch _ item ret executing execution =>
    rw [execution.keeps.1]
    exact quiet
  | retryTimer _ ret armed execution =>
    rw [execution.keeps.1]
    exact quiet
  | _ => exact quiet

/-- The calls of a move keep the blocks owned, or the allocator is at fault. -/
theorem MovesBlocks.owned {move : BlockMove config} {calls : List DataCall}
    {before after : Harq config} (moves : MovesBlocks move calls before after)
    {heap : Ownership.Heap Nat (List Nat)} (owned : Owned before.blocks heap) :
    callAll heap calls = .error .inUse ∨
      ∃ next, callAll heap calls = .ok next ∧ Owned after.blocks next := by
  rw [moves.calls, moves.blocks]
  cases move with
  | nothing => exact Or.inr ⟨heap, rfl, owned⟩
  | release index => exact Or.inr (owned.release index)
  | acquire index address bytes =>
    exact owned.acquire (moves.empty index address bytes rfl) address bytes

/-! ### Runs -/

/-- A step of the system with its data blocks is one of the system, with its calls. -/
theorem dataStep_ok {before after : DataSystem config} {event : Event config}
    (stepped : dataStep before event = .ok after) :
    step before.system event = .ok after.system ∧
      callAll before.blocks (dataCalls before.system event) = .ok after.blocks := by
  unfold dataStep at stepped
  split at stepped
  · cases stepped
  · cases stepped
  · rename_i system blocks taken called
    cases stepped
    exact ⟨taken, called⟩

/-- What every run keeps: a sound table, clean processes and owned blocks. -/
structure DataSystem.Owned (withData : DataSystem config) : Prop where
  sound : withData.system.harq.Sound
  clean : withData.system.harq.Clean
  owned : Ownership.Owned withData.system.harq.blocks withData.blocks

theorem DataSystem.Owned.booted {withData : DataSystem config} (booted : DataBooted withData) :
    withData.Owned := by
  obtain ⟨⟨deviceId, allocations, _, same⟩, empty⟩ := booted
  have fresh : withData.system.harq = Harq.boot config := by
    rw [same]
    rfl
  refine ⟨?_, ?_, ?_⟩
  · rw [fresh]
    exact boot_sound config
  · rw [fresh]
    exact fun _ _ => rfl
  · rw [fresh, empty]
    exact owned_nothing

/-- Each step keeps the blocks owned. -/
theorem DataSystem.Owned.step {before after : DataSystem config} {event : Event config}
    (owned : before.Owned) (stepped : dataStep before event = .ok after) : after.Owned := by
  obtain ⟨taken, called⟩ := dataStep_ok stepped
  have action := action_of_step owned.sound taken
  obtain ⟨move, moves⟩ := action.movesBlocks owned.sound owned.clean
  rcases moves.owned owned.owned with fault | ⟨next, same, kept⟩
  · rw [called] at fault
    cases fault
  · rw [called] at same
    cases same
    exact ⟨(action.move owned.sound).1.sound owned.sound, moves.clean, kept⟩

/-- The step of the program in a step of the system with its data blocks. -/
def programOf (taken : Transition.Step (DataSystem config) (Event config)) :
    Transition.Step (System config) (Event config) :=
  ⟨taken.before.system, taken.label, taken.after.system⟩

section Runs

variable {start final : DataSystem config}
  {steps : List (Transition.Step (DataSystem config) (Event config))}

/-- A run with data blocks is a run of the program. -/
theorem dataRun_program (run : DataSystemRun start steps final) :
    Run start.system (steps.map programOf) final.system := by
  rw [← List.filterMap_eq_map]
  exact run.view DataSystem.system _ fun _ _ _ stepped =>
    Or.inr ⟨_, rfl, (dataStep_ok stepped).1⟩

theorem dataRun_owned (booted : DataBooted start) (run : DataSystemRun start steps final) :
    final.Owned :=
  run.invariant DataSystem.Owned (fun _ _ => True)
    (fun _ _ _ _ owned stepped => owned.step stepped) (fun _ _ => trivial) (.booted booted)

end Runs

/-- Device 5 without data blocks. -/
def deviceWithData : DataSystem projectConfig := ⟨device, fun _ => none⟩

end DectHarq
