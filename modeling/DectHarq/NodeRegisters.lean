/-
This file reads the node table of many threads as one register for each address.

The table is a hash map of pointers to allocated records, and threads, the creations of
other callers and the cleaning thread work on it in any order. What the record of one
address is depends on none of this: it is what the operations on this address leave of a
register, one after the other, and what a getter reads or a setter returns is what the
register gives. A clearing of the cleaning thread, which goes through a pointer, is an
operation on the register whose record is at the pointer then; the pointer of a record
that was replaced is that of no register.
-/

import DectHarq.TableLife

namespace DectHarq

variable {config : Config}

/-! ### A register -/

/-- What is done to the register of an address. -/
inductive RecordOp
  | mark
  | store (node : Node)
  | adjust (adjustment : Adjustment)
  | provide (fresh : Option Node)
  | remove
  | clear

/-- The register after an operation. -/
def RecordOp.apply (config : Config) : RecordOp → Option Node → Option Node
  | .mark, record => record.map Node.marked
  | .store node, _ => some node
  | .adjust adjustment, record => record.map (adjustment.adjusted config)
  | .provide fresh, record => record.or fresh
  | .remove, _ => none
  | .clear, record => record.map fun node => { node with used := false }

/-- The register that operations leave of an empty one. -/
def recordAfter (config : Config) (operations : List RecordOp) : Option Node :=
  operations.foldl (fun record operation => operation.apply config record) none

/-- A record that is inserted with the configured power. -/
def freshRecord (config : Config) (outcome : Allocation) (address mcsMax : Nat) : Option Node :=
  if outcome = .inserted then some ⟨address, false, config.txPower, int8 mcsMax⟩ else none

/-! ### What the sections do to a register -/

variable {heap after : NodeHeap}

theorem NodeHeap.Sound.get_insert (sound : heap.Sound) {pointer : Nat} {node : Node}
    (free : heap.records pointer = none) (address : Nat) :
    (heap.insert pointer node).get address =
      if node.address = address then some node else heap.get address := by
  split
  · rename_i same
    rw [← same, NodeHeap.get_insert_self]
  · rename_i distinct
    exact sound.get_insert_of_ne free fun same => distinct same.symm

theorem NodeHeap.Sound.get_modified (sound : heap.Sound) (change : Node → Node)
    (own address : Nat) :
    (heap.modify change own).get address =
      if own = address then (heap.get address).map change else heap.get address := by
  rw [sound.get_modify]
  by_cases same : own = address
  · rw [if_pos same.symm, if_pos same, same]
  · rw [if_neg fun equal => same equal.symm, if_neg same]

theorem createSection_get (sound : heap.Sound) {pointer own txPower : Nat} {outcome : Allocation}
    {mcs : Int} {code : ErrorCode}
    (created : createSection pointer outcome own txPower mcs heap = .ok (code, after))
    (address : Nat) :
    after.get address =
      if own = address ∧ outcome = .inserted then some ⟨address, false, txPower, mcs⟩
      else heap.get address := by
  rcases createSection_cases created with ⟨failed, rfl⟩ | ⟨inserted, free, rfl⟩
  · rw [if_neg fun both => failed both.2]
  · rw [sound.get_insert free]
    by_cases same : own = address
    · subst same
      rw [if_pos rfl, if_pos ⟨rfl, inserted⟩]
    · rw [if_neg same, if_neg fun both => same both.1]

theorem provideSection_get (sound : heap.Sound) {mcsMax own pointer : Nat}
    {outcome : Allocation} {code : ErrorCode}
    (provided : provideSection config mcsMax own pointer outcome heap = .ok (code, after))
    (address : Nat) :
    after.get address =
      if own = address then (heap.get address).or (freshRecord config outcome address mcsMax)
      else heap.get address := by
  unfold provideSection at provided
  split at provided
  · rename_i found
    cases provided
    split
    · rename_i same
      subst same
      obtain ⟨node, record⟩ := Option.isSome_iff_exists.mp found
      rw [record]
      rfl
    · rfl
  · rename_i missing
    rw [createSection_get sound provided]
    by_cases same : own = address
    · subst same
      rw [Option.not_isSome_iff_eq_none.mp missing]
      unfold freshRecord
      simp
    · rw [if_neg fun both => same both.1, if_neg same]

theorem deleteSection_get (sound : heap.Sound) (own address : Nat) :
    (deleteSection own heap).2.get address = if own = address then none else heap.get address := by
  rcases deleteSection_cases own heap with ⟨missing, same⟩ | ⟨pointer, found, same⟩
  · rw [same]
    split
    · rename_i equal
      rw [← equal]
      exact sound.get_eq_none_iff.mpr missing
    · rfl
  · rw [same]
    split
    · rename_i equal
      rw [← equal, NodeHeap.get, NodeHeap.remove, AList.lookup_erase]
      rfl
    · rename_i distinct
      exact sound.get_remove_of_ne found fun equal => distinct equal.symm

/-! ### The operations of the events -/

section Registers

variable {Thread : Type}

/-- The operation of an event on the register of an address. The cleaning thread deletes by the
address that it read, and clears through its pointer. -/
def recordOp (config : Config) (address : Nat) (state : LifeState Thread) :
    LifeEvent Thread → Option RecordOp
  | .access (.check _ own) => if own = address then some .mark else none
  | .access (.create thread mcsMax _ outcome) =>
    if state.phase thread = .creating address then
      (freshRecord config outcome address mcsMax).map .store
    else none
  | .access (.adjust _ adjustment own) => if own = address then some (.adjust adjustment) else none
  | .access (.optimize _ mcsMax own _ _ _ _ outcome) =>
    if own = address then some (.provide (freshRecord config outcome address mcsMax)) else none
  | .access (.delete _ own) => if own = address then some .remove else none
  | .store =>
    match state.optimization with
    | some ⟨own, adjustment :: _⟩ => if own = address then some (.adjust adjustment) else none
    | _ => none
  | .create _ _ outcome own txPower mcs =>
    if own = address ∧ outcome = .inserted then some (.store ⟨address, false, txPower, mcs⟩)
    else none
  | .pass event =>
    match event, state.cleaner with
    | .delete, .deleting own _ => if own = address then some .remove else none
    | .clear, .clearing pointer _ =>
      if state.heap.map.lookup address = some pointer then some .clear else none
    | _, _ => none

/-- The operations of some steps on the register of an address. -/
def recordOps (config : Config) (address : Nat)
    (steps : List (Transition.Step (LifeState Thread) (LifeEvent Thread))) : List RecordOp :=
  steps.filterMap fun taken => recordOp config address taken.before taken.label

/-- The register after the operation of an event, if it has one. -/
def registerAfter (config : Config) (address : Nat) (state : LifeState Thread)
    (event : LifeEvent Thread) (record : Option Node) : Option Node :=
  (recordOp config address state event).elim record fun operation => operation.apply config record

theorem recordAfter_snoc (address : Nat)
    (earlier : List (Transition.Step (LifeState Thread) (LifeEvent Thread)))
    (taken : Transition.Step (LifeState Thread) (LifeEvent Thread)) :
    recordAfter config (recordOps config address (earlier ++ [taken])) =
      registerAfter config address taken.before taken.label
        (recordAfter config (recordOps config address earlier)) := by
  unfold recordAfter recordOps registerAfter
  rw [List.filterMap_append, List.foldl_append, List.filterMap_cons, List.filterMap_nil]
  cases recordOp config address taken.before taken.label <;> rfl

/-- A step of the cleaning thread does to the record of an address what it does to the register. -/
theorem passMove_get {before after : LifeState Thread} {event : PassEvent}
    (sound : before.heap.Sound)
    (move : PassMove before.heap before.cleaner event after.heap after.cleaner) (address : Nat) :
    after.heap.get address =
      registerAfter config address before (.pass event) (before.heap.get address) := by
  obtain ⟨⟨heap, phase⟩, optimization, cleaner⟩ := before
  obtain ⟨⟨heapAfter, phaseAfter⟩, optimizationAfter, next⟩ := after
  dsimp only at move sound ⊢
  unfold registerAfter recordOp
  cases move with
  | delete own =>
    rw [deleteSection_get sound]
    dsimp only
    split <;> rfl
  | clear _ record =>
    rw [NodeHeap.get_write]
    dsimp only
    split
    · rename_i found
      rw [NodeHeap.get, found, Option.bind_some, record]
      rfl
    · rfl
  | _ => rfl

variable [DecidableEq Thread]

/-- A section of a thread does to the record of an address what it does to the register. -/
theorem accessStep_get {before : LifeState Thread} {after : NodeState Thread}
    {optimization : Option Optimization} {event : NodeEvent Thread} (sound : before.heap.Sound)
    (stepped : accessStep config before.toNodeState event = .ok (after, optimization))
    (address : Nat) :
    after.heap.get address =
      registerAfter config address before (.access event) (before.heap.get address) := by
  unfold registerAfter recordOp
  unfold accessStep at stepped
  split at stepped
  · split at stepped
    · obtain ⟨⟨code, heap⟩, provided, rest⟩ := bind_ok.mp stepped
      cases rest
      rw [provideSection_get sound provided]
      dsimp only
      split <;> rfl
    · cases stepped
  · rename_i other
    obtain ⟨nodes, accessed, same⟩ := bind_ok.mp stepped
    cases same
    unfold nodeStep at accessed
    split at accessed
    · rw [checkSection_eq] at accessed
      cases accessed
      dsimp only
      rw [sound.get_modified]
      split <;> rfl
    · rename_i thread mcsMax pointer outcome own creating
      obtain ⟨⟨code, heap⟩, created, rest⟩ := bind_ok.mp accessed
      cases rest
      rw [createSection_get sound created address]
      dsimp only
      rw [show before.phase thread = .creating own from creating]
      unfold freshRecord
      by_cases same : own = address
      · by_cases inserted : outcome = .inserted <;> simp [same, inserted, RecordOp.apply]
      · simp [same]
    · cases accessed
      rw [adjustSection_heap, sound.get_modified]
      dsimp only
      split <;> rfl
    · exact absurd rfl (other _ _ _ _ _ _ _ _)
    · cases accessed
      rw [deleteSection_get sound]
      dsimp only
      split <;> rfl
    · cases accessed

/-- One event does to the record of an address what it does to the register. -/
theorem lifeStep_get {before after : LifeState Thread} {event : LifeEvent Thread}
    (sound : before.heap.Sound) (stepped : lifeStep config before event = .ok after)
    (address : Nat) :
    after.heap.get address =
      registerAfter config address before event (before.heap.get address) := by
  cases event with
  | pass event => exact passMove_get sound (lifeStep_pass stepped) address
  | access event =>
    unfold lifeStep at stepped
    dsimp only at stepped
    split at stepped
    · obtain ⟨⟨nodes, optimization⟩, accessed, same⟩ := bind_ok.mp stepped
      cases same
      exact accessStep_get sound accessed address
    · cases stepped
  | store =>
    unfold lifeStep at stepped
    dsimp only at stepped
    split at stepped
    · rename_i own adjustment stores optimizing
      cases stepped
      rw [adjustSection_heap, sound.get_modified]
      unfold registerAfter recordOp
      rw [optimizing]
      dsimp only
      split <;> rfl
    · cases stepped
  | create thread pointer outcome own txPower mcs =>
    unfold lifeStep at stepped
    dsimp only at stepped
    split at stepped
    · obtain ⟨⟨code, heap⟩, created, rest⟩ := bind_ok.mp stepped
      cases rest
      rw [createSection_get sound created address]
      unfold registerAfter recordOp
      dsimp only
      split <;> rfl
    · cases stepped

/-! ### Whole runs -/

/-- In every run the heap is sound, and the record of each address is its register. -/
theorem records_of_lifeRun
    {steps : List (Transition.Step (LifeState Thread) (LifeEvent Thread))}
    {final : LifeState Thread} (run : LifeRun config steps final) :
    final.heap.Sound ∧
      ∀ address, final.heap.get address = recordAfter config (recordOps config address steps) := by
  refine run.history (fun steps state => state.heap.Sound ∧
      ∀ address, state.heap.get address = recordAfter config (recordOps config address steps))
    (fun _ _ => True) (fun earlier taken _ held stepped => ?_) (fun _ _ _ _ => trivial)
    ⟨nodesAtBoot_undisturbed.sound, fun _ => rfl⟩
  refine ⟨(lifeStep_touch stepped).sound held.1, fun address => ?_⟩
  rw [recordAfter_snoc, ← held.2 address]
  exact lifeStep_get held.1 stepped address

theorem adjustSection_code (adjustment : Adjustment) (address : Nat) (heap : NodeHeap) :
    (adjustSection config adjustment address heap).1 =
      (heap.get address).elim .nodeNotFound fun node =>
        (adjustment.update config node.marked).2 := by
  unfold adjustSection NodeHeap.get
  cases heap.map.lookup address with
  | none => rfl
  | some pointer =>
    dsimp only [Option.bind_some]
    cases heap.records pointer <;> rfl

theorem deleteSection_code (sound : heap.Sound) (address : Nat) :
    (deleteSection address heap).1 =
      if (heap.get address).isSome then .ok else .nodeNotFound := by
  unfold deleteSection
  cases found : heap.map.lookup address with
  | none =>
    rw [sound.get_eq_none_iff.mpr found]
    rfl
  | some pointer =>
    obtain ⟨node, record, _⟩ := sound address pointer found
    rw [NodeHeap.get, found, Option.bind_some, record]
    rfl

/-- In every run of threads, creations and the cleaning thread, the record of each address is what
the operations on this address leave of a register, in the order in which they are made. The
record at the pointer of the address, what a getter reads and what a setter and a deletion return
are what the register gives. -/
theorem records_linearized
    {steps : List (Transition.Step (LifeState Thread) (LifeEvent Thread))}
    {final : LifeState Thread} (run : LifeRun config steps final) (address : Nat) :
    let register := recordAfter config (recordOps config address steps)
    final.heap.get address = register ∧
      (∀ pointer, final.heap.map.lookup address = some pointer →
        final.heap.records pointer = register) ∧
      (∀ (Value : Type) (read : Node → Value),
        (checkSection read address final.heap).1 = register.map read) ∧
      (∀ adjustment, (adjustSection config adjustment address final.heap).1 =
        register.elim .nodeNotFound fun node => (adjustment.update config node.marked).2) ∧
      (deleteSection address final.heap).1 =
        if register.isSome then .ok else .nodeNotFound := by
  intro register
  obtain ⟨sound, each⟩ := records_of_lifeRun run
  have same : final.heap.get address = register := each address
  refine ⟨same, fun pointer found => ?_, fun Value read => ?_, fun adjustment => ?_, ?_⟩
  · rw [← same, NodeHeap.get, found, Option.bind_some]
  · rw [checkSection_eq, same]
  · rw [adjustSection_code, same]
  · rw [deleteSection_code sound, same]

end Registers

/-! ### A creation that is late -/

/-- Two threads create node 7. The second creation replaces the record, with its setting, while the
cleaning thread is about to clear the flag of the first record. -/
def createdTwice : List (LifeEvent Bool) :=
  [.access (.check false 7), .access (.check true 7), .access (.create false 4 1 .inserted),
    .access (.adjust false (.setTxPower 3) 7), .pass (.start (some 1)), .pass .finish,
    .pass .test, .access (.create true 4 2 .inserted), .pass .clear]

/-- The second creation stores into the register, which is one register for both records, and the
clearing has no part in it. -/
theorem records_linearized_late :
    (createdTwice.foldl (Transition.follow (lifeStep projectConfig)) lifeAtBoot).heap.get 7 =
      recordAfter projectConfig [.mark, .mark, .store ⟨7, false, 13, 4⟩,
        .adjust (.setTxPower 3), .store ⟨7, false, 13, 4⟩] :=
  (records_linearized (Transition.followAll_run (lifeStep projectConfig) lifeAtBoot createdTwice
    (by decide +kernel)) 7).1

end DectHarq
