/-
This file models the node table in the whole of its life.

Threads go through their sections, other callers create nodes, and the cleaning thread goes
from entry to entry, in any order. The cleaning thread does not wait for the mutex to look
at a flag: a section that writes a flag once is one step also for this thread, and the
section of an optimization, which writes it up to three times, is a step for each of these,
with the mutex taken in between. The creation of a record leaves its flag clear, every other
use sets it, and the cleaning thread clears it. What one event does to the heap is said
once, and from it what the last write of a flag leaves.
-/

import DectHarq.CleaningThread

namespace DectHarq

variable {config : Config}

/-! ### The life of the table -/

/-- The first part of `dect_mac_node_optimize`: a record is created where there is none. -/
def provideSection (config : Config) (mcsMax address pointer : Nat) (outcome : Allocation)
    (heap : NodeHeap) : Except Stop (ErrorCode × NodeHeap) :=
  if (heap.get address).isSome then .ok (.ok, heap)
  else createSection pointer outcome address config.txPower (int8 mcsMax) heap

/-- An optimization is this part and its two stores. -/
theorem optimizeSection_eq (mcsMax address : Nat) (rssi2 snr : Int) (received pointer : Nat)
    (outcome : Allocation) (heap : NodeHeap) :
    optimizeSection config mcsMax address rssi2 snr received pointer outcome heap = (do
      let (created, present) ← provideSection config mcsMax address pointer outcome heap
      let (_, powered) := adjustSection config
        (.setTxPower (wantedTxPower (wantedDbm config rssi2 received))) address present
      let (_, tuned) := adjustSection config (.setMcs (wantedMcs snr)) address powered
      .ok (optimizeResult created received snr, tuned)) :=
  rfl

/-- An optimization between two steps of its section: its node, and what it has still to store. -/
structure Optimization where
  address : Nat
  stores : List Adjustment

/-- The node table, the threads that use it and the cleaning thread. Between two steps the mutex is
taken by an optimization only. -/
structure LifeState (Thread : Type) extends NodeState Thread where
  optimization : Option Optimization
  cleaner : Cleaner

/-- What happens to the table: a section of a thread, which for an optimization is the creation of a
missing record, a store of the optimization, the creation of a node by a caller of
`dect_mac_node_create_node`, or a step of the cleaning thread. -/
inductive LifeEvent (Thread : Type)
  | access (event : NodeEvent Thread)
  | store
  | create (thread : Thread) (pointer : Nat) (outcome : Allocation) (address txPower : Nat)
      (mcs : Int)
  | pass (event : PassEvent)

/-- The test of a flag by the cleaning thread. -/
def LifeEvent.isTest {Thread : Type} : LifeEvent Thread → Bool
  | .pass .test => true
  | _ => false

/-- What is done to the flag of a node: the creation of its record leaves it clear, any other use
sets it, and the cleaning thread clears it. -/
inductive FlagWrite
  | created
  | marked
  | cleared
  deriving DecidableEq, Repr

/-- The flag that is written. -/
def FlagWrite.flag : FlagWrite → Bool
  | .created => false
  | .marked => true
  | .cleared => false

/-- A use of the node. -/
def FlagWrite.isUse : FlagWrite → Bool
  | .cleared => false
  | _ => true

/-- The address whose record a pointer is that of. -/
def NodeHeap.owner (heap : NodeHeap) (pointer : Nat) : Option Nat :=
  (heap.records pointer).bind fun node =>
    if heap.map.lookup node.address = some pointer then some node.address else none

section Life

variable {Thread : Type}

/-- No record is allocated, and no thread is in an operation. -/
def lifeAtBoot : LifeState Thread where
  toNodeState := nodesAtBoot
  optimization := none
  cleaner := .asleep

/-- The node whose flag an event writes, and how: a getter, a setter or an adjustment uses the node
it finds, and so does each store of an optimization. The cleaning thread clears the flag of a node
only when its pointer is that of the node's record. -/
def writes (state : LifeState Thread) : LifeEvent Thread → Option (Nat × FlagWrite)
  | .access (.check _ address) | .access (.adjust _ _ address) =>
    if (state.heap.get address).isSome then some (address, .marked) else none
  | .access (.create thread _ _ outcome) =>
    match state.phase thread with
    | .creating address => if outcome = .inserted then some (address, .created) else none
    | .idle => none
  | .access (.optimize _ _ address _ _ _ _ outcome) =>
    if (state.heap.get address).isNone ∧ outcome = .inserted then some (address, .created)
    else none
  | .access (.delete _ _) => none
  | .store =>
    match state.optimization with
    | some ⟨address, _ :: _⟩ =>
      if (state.heap.get address).isSome then some (address, .marked) else none
    | _ => none
  | .create _ _ outcome address _ _ =>
    if outcome = .inserted then some (address, .created) else none
  | .pass .clear =>
    match state.cleaner with
    | .clearing pointer _ => (state.heap.owner pointer).map fun address => (address, .cleared)
    | _ => none
  | .pass _ => none

/-- What a step does to the flag of the node of an address, if it does. -/
def writeOf (address : Nat) (taken : Transition.Step (LifeState Thread) (LifeEvent Thread)) :
    Option FlagWrite :=
  match writes taken.before taken.label with
  | some (written, write) => if written = address then some write else none
  | none => none

/-- A step uses the node of an address. -/
def usesNode (address : Nat) (taken : Transition.Step (LifeState Thread) (LifeEvent Thread)) :
    Bool :=
  (writeOf address taken).any FlagWrite.isUse

/-- The last that some steps do to the flag of the node of an address. -/
def lastWrite (address : Nat)
    (steps : List (Transition.Step (LifeState Thread) (LifeEvent Thread))) : Option FlagWrite :=
  (steps.filterMap (writeOf address)).getLast?

theorem writeOf_eq_some_iff {address : Nat} {write : FlagWrite}
    {taken : Transition.Step (LifeState Thread) (LifeEvent Thread)} :
    writeOf address taken = some write ↔
      writes taken.before taken.label = some (address, write) := by
  unfold writeOf
  cases writes taken.before taken.label with
  | none => simp
  | some own =>
    obtain ⟨written, kind⟩ := own
    by_cases same : written = address
    · simp [same]
    · simp [same]

theorem usesNode_eq_false_iff {address : Nat}
    {taken : Transition.Step (LifeState Thread) (LifeEvent Thread)} :
    usesNode address taken = false ↔
      ∀ write, writes taken.before taken.label = some (address, write) → write.isUse = false := by
  unfold usesNode
  rw [Option.any_eq_false]
  exact forall_congr' fun write => by rw [writeOf_eq_some_iff]

/-- A node that is used has a last write of its flag. -/
theorem lastWrite_isSome_of_used {address : Nat}
    {since : List (Transition.Step (LifeState Thread) (LifeEvent Thread))}
    {taken : Transition.Step (LifeState Thread) (LifeEvent Thread)} (member : taken ∈ since)
    (used : usesNode address taken = true) : (lastWrite address since).isSome = true := by
  obtain ⟨write, written, _⟩ := (Option.any_eq_true _ _).mp used
  unfold lastWrite
  rw [List.getLast?_isSome]
  exact List.ne_nil_of_mem (List.mem_filterMap.mpr ⟨taken, member, written⟩)

/-! ### What one event does to the heap -/

/-- A change that keeps the address of a record and marks it used. -/
structure Marks (change : Node → Node) : Prop where
  address : ∀ node, (change node).address = node.address
  used : ∀ node, (change node).used = true

/-- What an event does to the heap, and what it does to the flag of a node. -/
inductive Touch (before : NodeHeap) : Option (Nat × FlagWrite) → NodeHeap → Prop
  | idle : Touch before none before
  | mark {change : Node → Node} (marks : Marks change) (address : Nat) :
      Touch before (some (address, .marked)) (before.modify change address)
  | create {pointer : Nat} {node : Node} (free : before.records pointer = none)
      (unused : node.used = false) :
      Touch before (some (node.address, .created)) (before.insert pointer node)
  | remove {address pointer : Nat} (found : before.map.lookup address = some pointer) :
      Touch before none (before.remove address pointer)
  | clear {pointer : Nat} {node : Node} (record : before.records pointer = some node) :
      Touch before ((before.owner pointer).map fun address => (address, .cleared))
        (before.write pointer (some { node with used := false }))

theorem NodeHeap.modify_of_missing {heap : NodeHeap} {address : Nat}
    (missing : heap.get address = none) (change : Node → Node) :
    heap.modify change address = heap := by
  unfold NodeHeap.get at missing
  unfold NodeHeap.modify
  cases found : heap.map.lookup address with
  | none => rfl
  | some pointer =>
    rw [found, Option.bind_some] at missing
    dsimp only
    rw [missing]

theorem Node.marked_marks : Marks Node.marked where
  address := Node.marked_address
  used := fun _ => rfl

theorem Adjustment.adjusted_marks (config : Config) (adjustment : Adjustment) :
    Marks (adjustment.adjusted config) where
  address := adjustment.adjusted_address config
  used := fun node => by
    cases adjustment with
    | reduceMcs mcsMax mcsToReduce =>
      dsimp only [Adjustment.adjusted, Adjustment.update]
      split_ifs <;> rfl
    | _ => rfl

/-- A change of the node of an address is a use of the node if there is one. -/
theorem Touch.modify {before : NodeHeap} {change : Node → Node} (marks : Marks change)
    (address : Nat) :
    Touch before (if (before.get address).isSome then some (address, .marked) else none)
      (before.modify change address) := by
  split
  · exact Touch.mark marks address
  · rename_i missing
    rw [before.modify_of_missing (by simpa using missing)]
    exact Touch.idle

theorem Touch.creation {pointer address txPower : Nat} {outcome : Allocation} {mcs : Int}
    {heap after : NodeHeap} {code : ErrorCode}
    (created : createSection pointer outcome address txPower mcs heap = .ok (code, after)) :
    Touch heap (if outcome = .inserted then some (address, .created) else none) after := by
  rcases createSection_cases created with ⟨failed, rfl⟩ | ⟨inserted, free, rfl⟩
  · rw [if_neg failed]
    exact Touch.idle
  · rw [if_pos inserted]
    exact @Touch.create _ pointer ⟨address, false, txPower, mcs⟩ free rfl

/-- The first step of an optimization creates a record where there is none. -/
theorem Touch.provided {mcsMax address pointer : Nat} {outcome : Allocation}
    {heap after : NodeHeap} {code : ErrorCode}
    (provided : provideSection config mcsMax address pointer outcome heap = .ok (code, after)) :
    Touch heap (if (heap.get address).isNone ∧ outcome = .inserted then some (address, .created)
      else none) after := by
  unfold provideSection at provided
  split at provided
  · rename_i found
    cases provided
    rw [if_neg fun both => by simp [Option.isNone_iff_eq_none.mp both.1] at found]
    exact Touch.idle
  · rename_i missing
    have touch := Touch.creation provided
    rw [show (if outcome = .inserted then some (address, FlagWrite.created) else none) =
      if (heap.get address).isNone ∧ outcome = .inserted then some (address, .created) else none
      by simp [Option.not_isSome_iff_eq_none.mp missing]] at touch
    exact touch

theorem Touch.deletion (address : Nat) (heap : NodeHeap) :
    Touch heap none (deleteSection address heap).2 := by
  rcases deleteSection_cases address heap with ⟨_, same⟩ | ⟨pointer, found, same⟩
  · rw [same]
    exact Touch.idle
  · rw [same]
    exact Touch.remove found

/-- A step of the cleaning thread deletes a node, clears a flag, or leaves the heap as it is. -/
theorem Touch.pass {before after : LifeState Thread} {event : PassEvent}
    (move : PassMove before.heap before.cleaner event after.heap after.cleaner) :
    Touch before.heap (writes before (.pass event)) after.heap := by
  obtain ⟨⟨heap, phase⟩, optimization, cleaner⟩ := before
  obtain ⟨⟨heapAfter, _⟩, _, next⟩ := after
  dsimp only at move
  cases move with
  | delete address next => exact Touch.deletion address heap
  | clear next record => exact Touch.clear record
  | _ => exact Touch.idle

/-! ### The steps -/

variable [DecidableEq Thread]

/-- A section of a thread. Of an optimization, it is the part up to the first store. -/
def accessStep (config : Config) (state : NodeState Thread) (event : NodeEvent Thread) :
    Except Stop (NodeState Thread × Option Optimization) :=
  match event with
  | .optimize thread mcsMax address rssi2 snr receivedTxPower pointer outcome =>
    if state.phase thread = .idle then do
      let (_, heap) ← provideSection config mcsMax address pointer outcome state.heap
      let wanted := wantedTxPower (wantedDbm config rssi2 receivedTxPower)
      .ok ({ state with heap := heap },
        some ⟨address, [.setTxPower wanted, .setMcs (wantedMcs snr)]⟩)
    else .error .disabled
  | event => do
    let nodes ← nodeStep config state event
    .ok (nodes, none)

/-- One event. As long as an optimization has the mutex, no other section begins, and the cleaning
thread deletes nothing. -/
def lifeStep (config : Config) (state : LifeState Thread) (event : LifeEvent Thread) :
    Except Stop (LifeState Thread) :=
  match event with
  | .access event =>
    if state.optimization.isNone then do
      let (nodes, optimization) ← accessStep config state.toNodeState event
      .ok { state with toNodeState := nodes, optimization := optimization }
    else .error .disabled
  | .store =>
    match state.optimization with
    | some ⟨address, adjustment :: stores⟩ =>
      .ok { state with
        heap := (adjustSection config adjustment address state.heap).2
        optimization := if stores.isEmpty then none else some ⟨address, stores⟩ }
    | _ => .error .disabled
  | .create thread pointer outcome address txPower mcs =>
    if state.phase thread = .idle ∧ state.optimization.isNone then do
      let (_, heap) ← createSection pointer outcome address txPower mcs state.heap
      .ok { state with heap := heap }
    else .error .disabled
  | .pass event =>
    if event = .delete ∧ state.optimization.isSome then .error .disabled
    else do
      let (heap, cleaner) ← passStep state.heap state.cleaner event
      .ok { state with heap := heap, cleaner := cleaner }

/-- A run of events from boot. -/
abbrev LifeRun (config : Config)
    (steps : List (Transition.Step (LifeState Thread) (LifeEvent Thread)))
    (final : LifeState Thread) : Prop :=
  Transition.Run (Transition.stepOf (lifeStep config)) lifeAtBoot steps final

/-- A step of the cleaning thread is one of its moves. -/
theorem lifeStep_pass {before after : LifeState Thread} {event : PassEvent}
    (stepped : lifeStep config before (.pass event) = .ok after) :
    PassMove before.heap before.cleaner event after.heap after.cleaner := by
  unfold lifeStep at stepped
  dsimp only at stepped
  split at stepped
  · cases stepped
  · obtain ⟨⟨heap, cleaner⟩, passed, rest⟩ := bind_ok.mp stepped
    cases rest
    exact passStep_eq_ok_iff.mp passed

/-- The cleaning thread is moved by its own steps only. -/
theorem lifeStep_cleaner {before after : LifeState Thread} {event : LifeEvent Thread}
    (stepped : lifeStep config before event = .ok after)
    (other : ∀ own, event ≠ .pass own) : after.cleaner = before.cleaner := by
  unfold lifeStep at stepped
  split at stepped
  · split at stepped
    · obtain ⟨nodes, _, rest⟩ := bind_ok.mp stepped
      cases rest
      rfl
    · cases stepped
  · split at stepped
    · cases stepped
      rfl
    · cases stepped
  · split at stepped
    · obtain ⟨⟨code, heap⟩, _, rest⟩ := bind_ok.mp stepped
      cases rest
      rfl
    · cases stepped
  · exact absurd rfl (other _)

/-- A section of a thread is a touch. -/
theorem accessStep_touch {before : LifeState Thread} {after : NodeState Thread}
    {optimization : Option Optimization} {event : NodeEvent Thread}
    (stepped : accessStep config before.toNodeState event = .ok (after, optimization)) :
    Touch before.heap (writes before (.access event)) after.heap := by
  unfold accessStep at stepped
  split at stepped
  · split at stepped
    · obtain ⟨⟨code, heap⟩, provided, rest⟩ := bind_ok.mp stepped
      cases rest
      exact Touch.provided provided
    · cases stepped
  · rename_i other
    obtain ⟨nodes, accessed, same⟩ := bind_ok.mp stepped
    cases same
    unfold nodeStep at accessed
    split at accessed
    · rw [checkSection_eq] at accessed
      cases accessed
      exact Touch.modify Node.marked_marks _
    · rename_i thread _ _ _ address creating
      obtain ⟨⟨code, heap⟩, created, rest⟩ := bind_ok.mp accessed
      cases rest
      dsimp only [writes]
      rw [show before.phase thread = .creating address from creating]
      exact Touch.creation created
    · cases accessed
      rw [adjustSection_heap]
      exact Touch.modify (Adjustment.adjusted_marks config _) _
    · exact absurd rfl (other _ _ _ _ _ _ _ _)
    · cases accessed
      exact Touch.deletion _ _
    · cases accessed

/-- Every event is a touch. -/
theorem lifeStep_touch {before after : LifeState Thread} {event : LifeEvent Thread}
    (stepped : lifeStep config before event = .ok after) :
    Touch before.heap (writes before event) after.heap := by
  cases event with
  | pass event => exact Touch.pass (lifeStep_pass stepped)
  | access event =>
    unfold lifeStep at stepped
    dsimp only at stepped
    split at stepped
    · obtain ⟨⟨nodes, optimization⟩, accessed, same⟩ := bind_ok.mp stepped
      cases same
      exact accessStep_touch accessed
    · cases stepped
  | store =>
    unfold lifeStep at stepped
    dsimp only at stepped
    split at stepped
    · rename_i address adjustment stores optimizing
      cases stepped
      dsimp only [writes]
      rw [optimizing, adjustSection_heap]
      exact Touch.modify (Adjustment.adjusted_marks config _) _
    · cases stepped
  | create thread pointer outcome address txPower mcs =>
    unfold lifeStep at stepped
    dsimp only at stepped
    split at stepped
    · obtain ⟨⟨code, heap⟩, created, rest⟩ := bind_ok.mp stepped
      cases rest
      exact Touch.creation created
    · cases stepped

/-- With no step of the cleaning thread in between, the steps of an optimization are its section. -/
theorem optimization_run {before : LifeState Thread} (free : before.optimization = none)
    {thread : Thread} {mcsMax address received pointer : Nat} {rssi2 snr : Int}
    {outcome : Allocation} {after : NodeState Thread}
    (stepped : nodeStep config before.toNodeState
      (.optimize thread mcsMax address rssi2 snr received pointer outcome) = .ok after) :
    ∃ steps, Transition.Run (Transition.stepOf (lifeStep config)) before steps
        { before with toNodeState := after } ∧
      steps.map Transition.Step.label =
        [.access (.optimize thread mcsMax address rssi2 snr received pointer outcome), .store,
          .store] := by
  cases phase : before.phase thread with
  | creating waited =>
    simp only [nodeStep, NodeEvent.thread, phase] at stepped
    cases stepped
  | idle =>
    simp only [nodeStep, NodeEvent.thread, phase] at stepped
    obtain ⟨⟨code, heap⟩, optimized, same⟩ := bind_ok.mp stepped
    cases same
    rw [optimizeSection_eq] at optimized
    obtain ⟨⟨created, present⟩, provided, stored⟩ := bind_ok.mp optimized
    obtain rfl := congrArg Prod.snd (ok_inj stored)
    let wanted := wantedTxPower (wantedDbm config rssi2 received)
    let begun : LifeState Thread := { before with
      heap := present
      optimization := some ⟨address, [.setTxPower wanted, .setMcs (wantedMcs snr)]⟩ }
    have first : lifeStep config before (.access (.optimize thread mcsMax address rssi2 snr received
        pointer outcome)) = .ok begun := by
      simp only [lifeStep, accessStep, free, phase, provided]
      rfl
    let powered : LifeState Thread := { begun with
      heap := (adjustSection config (.setTxPower wanted) address present).2
      optimization := some ⟨address, [.setMcs (wantedMcs snr)]⟩ }
    have second : lifeStep config begun .store = .ok powered := rfl
    have third : lifeStep config powered .store = .ok { before with
        heap := (adjustSection config (.setMcs (wantedMcs snr)) address powered.heap).2 } := by
      rw [free]
      rfl
    exact ⟨_, ((Transition.Run.single first).append (Transition.Run.single second)).append
      (Transition.Run.single third), rfl⟩

/-! ### What a touch does to the flags -/

/-- The flag of the node of an address. -/
def NodeHeap.flag (heap : NodeHeap) (address : Nat) : Option Bool :=
  (heap.get address).map Node.used

theorem NodeHeap.Sound.flag_modify {heap : NodeHeap} (sound : heap.Sound) {change : Node → Node}
    (marks : Marks change) (address other : Nat) :
    (heap.modify change address).flag other =
      if other = address then (heap.flag address).map fun _ => true else heap.flag other := by
  unfold NodeHeap.flag
  rw [sound.get_modify]
  split
  · rw [Option.map_map, Option.map_map]
    exact congrArg (Option.map · _) (funext marks.used)
  · rfl

theorem NodeHeap.Sound.flag_insert {heap : NodeHeap} (sound : heap.Sound) {pointer : Nat}
    {node : Node} (free : heap.records pointer = none) (other : Nat) :
    (heap.insert pointer node).flag other =
      if other = node.address then some node.used else heap.flag other := by
  unfold NodeHeap.flag
  split
  · rename_i same
    rw [same, NodeHeap.get_insert_self]
    rfl
  · rename_i distinct
    rw [sound.get_insert_of_ne free distinct]

/-- A pointer is that of the node's record exactly when the hash map has it for the address. -/
theorem NodeHeap.Sound.owner_eq_some_iff {heap : NodeHeap} (sound : heap.Sound)
    {pointer address : Nat} :
    heap.owner pointer = some address ↔ heap.map.lookup address = some pointer := by
  unfold NodeHeap.owner
  rw [Option.bind_eq_some_iff]
  constructor
  · rintro ⟨node, _, owns⟩
    split at owns
    · rename_i found
      cases owns
      exact found
    · cases owns
  · intro found
    obtain ⟨node, record, rfl⟩ := sound address pointer found
    exact ⟨node, record, if_pos found⟩

/-- A record that is written through its pointer is that of the address which has the pointer. -/
theorem NodeHeap.get_write {heap : NodeHeap} (pointer : Nat) (node : Node) (address : Nat) :
    (heap.write pointer (some node)).get address =
      if heap.map.lookup address = some pointer then some node else heap.get address := by
  unfold NodeHeap.get
  rw [show (heap.write pointer (some node)).map = heap.map from rfl]
  split
  · rename_i found
    rw [found, Option.bind_some, NodeHeap.write_records_self]
  · rename_i other
    cases found : heap.map.lookup address with
    | none => rfl
    | some own =>
      have apart : own ≠ pointer := fun same => other (found.trans (congrArg some same))
      rw [Option.bind_some, Option.bind_some, NodeHeap.write_records_of_ne _ _ apart]

/-- The flag of a record is cleared through its pointer. -/
theorem NodeHeap.flag_write {heap : NodeHeap} (pointer : Nat) (node : Node) (address : Nat) :
    (heap.write pointer (some { node with used := false })).flag address =
      if heap.map.lookup address = some pointer then some false else heap.flag address := by
  unfold NodeHeap.flag
  rw [NodeHeap.get_write]
  split <;> rfl

theorem NodeHeap.Sound.write {heap : NodeHeap} (sound : heap.Sound) {pointer : Nat}
    {old node : Node} (record : heap.records pointer = some old)
    (same : node.address = old.address) : (heap.write pointer (some node)).Sound := by
  intro address own found
  obtain ⟨present, stored, key⟩ := sound address own found
  by_cases equal : own = pointer
  · subst equal
    rw [record] at stored
    cases stored
    exact ⟨node, NodeHeap.write_records_self _ _ _, same.trans key⟩
  · exact ⟨present, (NodeHeap.write_records_of_ne _ _ equal).trans stored, key⟩

/-- What is written to the flag of a node is its flag, and every other node keeps its flag or is
removed. -/
theorem Touch.flag {before after : NodeHeap} {written : Option (Nat × FlagWrite)}
    (touch : Touch before written after) (sound : before.Sound) (address : Nat) :
    (∀ now, written = some (address, now) →
        after.flag address = some now.flag ∨ after.flag address = none) ∧
      ((∀ now, written ≠ some (address, now)) →
        after.flag address = before.flag address ∨ after.flag address = none) := by
  cases touch with
  | idle => exact ⟨nofun, fun _ => Or.inl rfl⟩
  | mark marks =>
    rw [sound.flag_modify marks]
    constructor
    · intro now same
      cases same
      rw [if_pos rfl]
      cases before.flag address with
      | none => exact Or.inr rfl
      | some used => exact Or.inl rfl
    · intro other
      rw [if_neg fun same => other .marked (by rw [same])]
      exact Or.inl rfl
  | create free unused =>
    rename_i pointer node
    rw [sound.flag_insert free]
    constructor
    · intro now same
      cases same
      rw [if_pos rfl, unused]
      exact Or.inl rfl
    · intro other
      rw [if_neg fun same => other .created (by rw [same])]
      exact Or.inl rfl
  | remove found =>
    rename_i own pointer
    refine ⟨nofun, fun _ => ?_⟩
    by_cases same : address = own
    · right
      rw [same, NodeHeap.flag, NodeHeap.get, NodeHeap.remove, AList.lookup_erase]
      rfl
    · left
      rw [NodeHeap.flag, sound.get_remove_of_ne found same]
      rfl
  | clear record =>
    rw [NodeHeap.flag_write]
    constructor
    · intro now cleared
      obtain ⟨own, owner, same⟩ := Option.map_eq_some_iff.mp cleared
      cases same
      rw [if_pos (sound.owner_eq_some_iff.mp owner)]
      exact Or.inl rfl
    · intro other
      rw [if_neg fun found => other .cleared (by rw [sound.owner_eq_some_iff.mpr found]; rfl)]
      exact Or.inl rfl

theorem Touch.sound {before after : NodeHeap} {written : Option (Nat × FlagWrite)}
    (touch : Touch before written after) (sound : before.Sound) : after.Sound := by
  cases touch with
  | idle => exact sound
  | mark marks address => exact sound.modify marks.address address
  | create free _ => exact sound.insert free
  | remove found => exact sound.remove found
  | clear record => exact sound.write record rfl

/-- The last write of a node's flag is its flag, as long as the node stays. -/
theorem lastWrite_flag {start final : LifeState Thread}
    {since : List (Transition.Step (LifeState Thread) (LifeEvent Thread))} {address : Nat}
    {write : FlagWrite}
    (run : Transition.Run (Transition.stepOf (lifeStep config)) start since final)
    (sound : ∀ taken ∈ since, taken.before.heap.Sound)
    (last : lastWrite address since = some write) :
    final.heap.flag address = some write.flag ∨ final.heap.flag address = none := by
  refine run.last_event (writeOf address)
    (fun write state => state.heap.flag address = some write.flag ∨ state.heap.flag address = none)
    (fun taken member => ?_) write last
  have touch := lifeStep_touch (run.taken taken member)
  obtain ⟨sets, keeps⟩ := touch.flag (sound taken member) address
  refine ⟨fun now written => sets now (writeOf_eq_some_iff.mp written), fun silent old held => ?_⟩
  have kept := keeps fun now same => by
    rw [writeOf_eq_some_iff.mpr same] at silent
    cases silent
  rcases kept with same | removed
  · rwa [same]
  · exact Or.inr removed

end Life

end DectHarq
