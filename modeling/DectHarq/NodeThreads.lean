/-
This file models the node operations of many threads, down to the records they allocate.

Each section under `node_mutex` is one step, and everything a thread does between two
sections is a part of the later one. An optimization checks for a record and creates it
in one section; a getter checks in one section and creates in another one. A record that
is created for an address which has one already takes its place in the hash map, and the
old record stays allocated with nothing to reach it. This happens exactly when a thread
creates a record while another one is between its check and its creation.
-/

import DectHarq.NodeRecords

namespace DectHarq

variable {config : Config}

/-! ### The records on the heap -/

/-- `node_hashmap` as a finite map from addresses to pointers, and the allocated records. -/
structure NodeHeap where
  map : AList fun _ : Nat => Nat
  records : Nat → Option Node

namespace NodeHeap

/-- The record that the hash map has for an address. -/
def get (heap : NodeHeap) (address : Nat) : Option Node :=
  (heap.map.lookup address).bind heap.records

/-- Write a record through its pointer. -/
def write (heap : NodeHeap) (pointer : Nat) (record : Option Node) : NodeHeap :=
  { heap with records := Function.update heap.records pointer record }

/-- No record is allocated. -/
def empty : NodeHeap where
  map := ∅
  records := fun _ => none

/-- Every mapped pointer is that of an allocated record with the address of its key. -/
def Sound (heap : NodeHeap) : Prop :=
  ∀ address pointer, heap.map.lookup address = some pointer →
    ∃ node, heap.records pointer = some node ∧ node.address = address

/-- Every allocated record can be reached through the hash map. -/
def Reached (heap : NodeHeap) : Prop :=
  ∀ pointer node, heap.records pointer = some node → heap.map.lookup node.address = some pointer

end NodeHeap

/-! ### The sections under the mutex -/

/-- The first section of a getter: a found node is marked used and read. -/
def checkSection {Value : Type} (read : Node → Value) (address : Nat) (heap : NodeHeap) :
    Option Value × NodeHeap :=
  match heap.map.lookup address with
  | some pointer =>
    match heap.records pointer with
    | some node => (some (read node), heap.write pointer (some { node with used := true }))
    | none => (none, heap)
  | none => (none, heap)

/-- `dect_mac_node_create_node`, which allocates before its section: `pointer` is what `k_malloc`
returns, and memory that is not in use. A record that is not inserted is freed again. -/
def createSection (pointer : Nat) (outcome : Allocation) (address txPower : Nat) (mcs : Int)
    (heap : NodeHeap) : Except Stop (ErrorCode × NodeHeap) :=
  match outcome with
  | .nullPointer => .error .nullPointer
  | .inserted =>
    if (heap.records pointer).isSome then .error .disabled
    else .ok (.ok, { heap.write pointer (some ⟨address, false, txPower, mcs⟩) with
      map := heap.map.insert address pointer })
  | .noMemory => .ok (.noMemHeap, heap)
  | .noSpace => .ok (.noFreeNode, heap)
  | .unexpected => .ok (.unknownErr, heap)

/-- The setters and adjustments. -/
inductive Adjustment
  | setTxPower (txPower : Nat)
  | setMcs (mcs : Int)
  | fullPower
  | addPower (powerToAdd : Int)
  | reduceMcs (mcsMax : Nat) (mcsToReduce : Int)

/-- What a setter or an adjustment does to a node it finds. -/
def Adjustment.update (config : Config) : Adjustment → Node → Node × ErrorCode
  | .setTxPower txPower, node => ({ node with txPower := txPower }, .ok)
  | .setMcs mcs, node => ({ node with mcs := mcs }, .ok)
  | .fullPower, node => ({ node with txPower := config.txPower }, .ok)
  | .addPower powerToAdd, node =>
    let power := uint8 (node.txPower + int8 powerToAdd)
    ({ node with txPower := if power > config.txPower then config.txPower else power }, .ok)
  | .reduceMcs mcsMax mcsToReduce, node =>
    let mcs := int8 (node.mcs - int8 mcsToReduce)
    if mcs < 0 then ({ node with mcs := 0 }, .minMcsReached)
    else if mcs > mcsMax then ({ node with mcs := int8 mcsMax }, .maxMcsReached)
    else ({ node with mcs := mcs }, .ok)

/-- The section of a setter or an adjustment. -/
def adjustSection (config : Config) (adjustment : Adjustment) (address : Nat) (heap : NodeHeap) :
    ErrorCode × NodeHeap :=
  match heap.map.lookup address with
  | some pointer =>
    match heap.records pointer with
    | some node =>
      let (updated, code) := adjustment.update config { node with used := true }
      (code, heap.write pointer (some updated))
    | none => (.nodeNotFound, heap)
  | none => (.nodeNotFound, heap)

/-- `dect_mac_node_delete_node`. -/
def deleteSection (address : Nat) (heap : NodeHeap) : ErrorCode × NodeHeap :=
  match heap.map.lookup address with
  | some pointer => (.ok, { heap.write pointer none with map := heap.map.erase address })
  | none => (.nodeNotFound, heap)

/-- `dect_mac_node_optimize`, all in one section: the mutex can be taken again by its owner. -/
def optimizeSection (config : Config) (mcsMax address : Nat) (rssi2 snr : Int)
    (receivedTxPower pointer : Nat) (outcome : Allocation) (heap : NodeHeap) :
    Except Stop (ErrorCode × NodeHeap) := do
  let create : Except Stop (ErrorCode × NodeHeap) :=
    if (heap.get address).isSome then .ok (.ok, heap)
    else createSection pointer outcome address config.txPower (int8 mcsMax) heap
  let (created, present) ← create
  let wanted := wantedTxPower (wantedDbm config rssi2 receivedTxPower)
  let (_, powered) := adjustSection config (.setTxPower wanted) address present
  let (_, tuned) := adjustSection config (.setMcs (wantedMcs snr)) address powered
  .ok (optimizeResult created receivedTxPower snr, tuned)

/-! ### What the sections do to the heap -/

namespace NodeHeap

/-- Change the record of an address, if it has one. -/
def modify (change : Node → Node) (address : Nat) (heap : NodeHeap) : NodeHeap :=
  match heap.map.lookup address with
  | some pointer =>
    match heap.records pointer with
    | some node => heap.write pointer (some (change node))
    | none => heap
  | none => heap

/-- A new record for its address. -/
def insert (pointer : Nat) (node : Node) (heap : NodeHeap) : NodeHeap :=
  { heap.write pointer (some node) with map := heap.map.insert node.address pointer }

/-- Neither the address nor its record. -/
def remove (address pointer : Nat) (heap : NodeHeap) : NodeHeap :=
  { heap.write pointer none with map := heap.map.erase address }

variable {heap : NodeHeap} {address pointer : Nat}

theorem write_records_self (heap : NodeHeap) (pointer : Nat) (record : Option Node) :
    (heap.write pointer record).records pointer = record :=
  Function.update_self _ _ _

theorem write_records_of_ne (heap : NodeHeap) {other : Nat} (record : Option Node)
    (apart : other ≠ pointer) : (heap.write pointer record).records other = heap.records other :=
  Function.update_of_ne apart _ _

theorem Sound.same_address (sound : heap.Sound) {other : Nat}
    (first : heap.map.lookup address = some pointer)
    (second : heap.map.lookup other = some pointer) : address = other := by
  obtain ⟨node, found, rfl⟩ := sound address pointer first
  obtain ⟨again, foundAgain, rfl⟩ := sound other pointer second
  rw [found] at foundAgain
  rw [Option.some.inj foundAgain]

theorem Sound.get_eq_none_iff (sound : heap.Sound) :
    heap.get address = none ↔ heap.map.lookup address = none := by
  unfold get
  cases found : heap.map.lookup address with
  | none => simp
  | some pointer =>
    obtain ⟨node, record, _⟩ := sound address pointer found
    simp [record]

theorem modify_map (change : Node → Node) (address : Nat) (heap : NodeHeap) :
    (heap.modify change address).map = heap.map := by
  unfold modify
  split
  · split <;> rfl
  · rfl

/-- The records after a change: the one of the address is changed, the others stay. -/
theorem modify_records {change : Node → Node}
    (keeps : ∀ node, (change node).address = node.address) {node : Node}
    (record : (heap.modify change address).records pointer = some node) :
    ∃ old, heap.records pointer = some old ∧ node.address = old.address := by
  unfold modify at record
  split at record
  · rename_i own found
    split at record
    · rename_i old present
      by_cases same : pointer = own
      · subst same
        rw [write_records_self] at record
        exact ⟨old, present, (Option.some.inj record) ▸ keeps old⟩
      · rw [write_records_of_ne _ _ same] at record
        exact ⟨node, record, rfl⟩
    · exact ⟨node, record, rfl⟩
  · exact ⟨node, record, rfl⟩

theorem Sound.get_modify (sound : heap.Sound) (change : Node → Node) (address other : Nat) :
    (heap.modify change address).get other =
      if other = address then (heap.get address).map change else heap.get other := by
  unfold get
  rw [modify_map]
  cases found : heap.map.lookup address with
  | none =>
    have unchanged : heap.modify change address = heap := by
      unfold modify
      rw [found]
    rw [unchanged]
    split
    · rename_i same
      rw [same, found]
      rfl
    · rfl
  | some own =>
    obtain ⟨node, present, _⟩ := sound address own found
    have changed : heap.modify change address = heap.write own (some (change node)) := by
      unfold modify
      rw [found]
      dsimp only
      rw [present]
    rw [changed]
    split
    · rename_i same
      rw [same, found, Option.bind_some, Option.bind_some, present, write_records_self]
      rfl
    · rename_i distinct
      cases elsewhere : heap.map.lookup other with
      | none => rfl
      | some pointer =>
        have apart : pointer ≠ own := by
          rintro rfl
          exact distinct (sound.same_address elsewhere found)
        rw [Option.bind_some, Option.bind_some, write_records_of_ne _ _ apart]

theorem Sound.modify (sound : heap.Sound) {change : Node → Node}
    (keeps : ∀ node, (change node).address = node.address) (address : Nat) :
    (heap.modify change address).Sound := by
  intro other pointer found
  rw [modify_map] at found
  obtain ⟨node, present, key⟩ := sound other pointer found
  have value := sound.get_modify change address other
  unfold get at value
  rw [modify_map, found, Option.bind_some] at value
  rw [value]
  split
  · rename_i same
    rw [← same, found, Option.bind_some, present]
    exact ⟨change node, rfl, (keeps node).trans key⟩
  · rw [Option.bind_some]
    exact ⟨node, present, key⟩

theorem Reached.modify (reached : heap.Reached) {change : Node → Node}
    (keeps : ∀ node, (change node).address = node.address) (address : Nat) :
    (heap.modify change address).Reached := by
  intro pointer node record
  obtain ⟨old, present, same⟩ := modify_records keeps record
  rw [modify_map, same]
  exact reached pointer old present

theorem Sound.insert (sound : heap.Sound) {node : Node} (free : heap.records pointer = none) :
    (heap.insert pointer node).Sound := by
  intro other mapped found
  by_cases same : other = node.address
  · have own : pointer = mapped := by
      rw [same] at found
      exact Option.some.inj ((AList.lookup_insert _).symm.trans found)
    subst own
    exact ⟨node, write_records_self _ _ _, same.symm⟩
  · have before : heap.map.lookup other = some mapped :=
      (AList.lookup_insert_ne same).symm.trans found
    obtain ⟨record, present, key⟩ := sound other mapped before
    have apart : mapped ≠ pointer := by
      rintro rfl
      rw [free] at present
      cases present
    exact ⟨record, (write_records_of_ne _ _ apart).trans present, key⟩

/-- A new record leaves all records reached when its address had none. -/
theorem Reached.insert (reached : heap.Reached) {node : Node}
    (missing : heap.map.lookup node.address = none) :
    (heap.insert pointer node).Reached := by
  intro other record present
  by_cases same : other = pointer
  · subst same
    have new : node = record :=
      Option.some.inj ((write_records_self _ _ _).symm.trans present)
    subst new
    exact AList.lookup_insert _
  · have before : heap.records other = some record :=
      (write_records_of_ne _ _ same).symm.trans present
    have mapped := reached other record before
    have apart : record.address ≠ node.address := by
      intro equal
      rw [equal, missing] at mapped
      cases mapped
    exact (AList.lookup_insert_ne apart).trans mapped

theorem get_insert_self (node : Node) :
    (heap.insert pointer node).get node.address = some node := by
  unfold get insert
  rw [AList.lookup_insert, Option.bind_some, write_records_self]

theorem Sound.get_insert_of_ne (sound : heap.Sound) {node : Node} {other : Nat}
    (free : heap.records pointer = none) (distinct : other ≠ node.address) :
    (heap.insert pointer node).get other = heap.get other := by
  unfold get NodeHeap.insert
  rw [AList.lookup_insert_ne distinct]
  cases found : heap.map.lookup other with
  | none => rfl
  | some mapped =>
    obtain ⟨record, present, _⟩ := sound other mapped found
    have apart : mapped ≠ pointer := by
      rintro rfl
      rw [free] at present
      cases present
    rw [Option.bind_some, Option.bind_some, write_records_of_ne _ _ apart]

theorem Sound.remove (sound : heap.Sound) (found : heap.map.lookup address = some pointer) :
    (heap.remove address pointer).Sound := by
  intro other mapped kept
  have distinct : other ≠ address := by
    rintro rfl
    rw [NodeHeap.remove, AList.lookup_erase] at kept
    cases kept
  have before : heap.map.lookup other = some mapped :=
    (AList.lookup_erase_ne distinct).symm.trans kept
  obtain ⟨record, present, key⟩ := sound other mapped before
  have apart : mapped ≠ pointer := by
    rintro rfl
    exact distinct (sound.same_address before found)
  exact ⟨record, (write_records_of_ne _ _ apart).trans present, key⟩

theorem Sound.get_remove_of_ne (sound : heap.Sound) {other : Nat}
    (found : heap.map.lookup address = some pointer) (distinct : other ≠ address) :
    (heap.remove address pointer).get other = heap.get other := by
  unfold get NodeHeap.remove
  rw [AList.lookup_erase_ne distinct]
  cases elsewhere : heap.map.lookup other with
  | none => rfl
  | some mapped =>
    have apart : mapped ≠ pointer := by
      rintro rfl
      exact distinct (sound.same_address elsewhere found)
    rw [Option.bind_some, Option.bind_some, write_records_of_ne _ _ apart]

theorem Reached.remove (reached : heap.Reached)
    (found : heap.map.lookup address = some pointer) :
    (heap.remove address pointer).Reached := by
  intro other record present
  have apart : other ≠ pointer := by
    rintro rfl
    cases (write_records_self heap other none).symm.trans present
  have before : heap.records other = some record :=
    (write_records_of_ne _ _ apart).symm.trans present
  have mapped := reached other record before
  have distinct : record.address ≠ address := by
    rintro rfl
    exact apart (Option.some.inj (mapped.symm.trans found))
  exact (AList.lookup_erase_ne distinct).trans mapped

end NodeHeap

theorem Adjustment.update_address (config : Config) (adjustment : Adjustment) (node : Node) :
    (adjustment.update config node).1.address = node.address := by
  cases adjustment with
  | reduceMcs mcsMax mcsToReduce =>
    dsimp only [update]
    split_ifs <;> rfl
  | _ => rfl

/-- What a setter or an adjustment leaves of a node: it is also marked used. -/
def Adjustment.adjusted (config : Config) (adjustment : Adjustment) (node : Node) : Node :=
  (adjustment.update config { node with used := true }).1

theorem Adjustment.adjusted_address (config : Config) (adjustment : Adjustment) (node : Node) :
    (adjustment.adjusted config node).address = node.address :=
  adjustment.update_address config { node with used := true }

/-- A node that a getter found. -/
def Node.marked (node : Node) : Node := { node with used := true }

theorem Node.marked_address (node : Node) : node.marked.address = node.address := rfl

theorem checkSection_eq {Value : Type} (read : Node → Value) (address : Nat) (heap : NodeHeap) :
    checkSection read address heap =
      ((heap.get address).map read, heap.modify Node.marked address) := by
  unfold checkSection NodeHeap.get NodeHeap.modify
  cases heap.map.lookup address with
  | none => rfl
  | some pointer =>
    dsimp only [Option.bind_some]
    cases heap.records pointer <;> rfl

theorem adjustSection_heap (config : Config) (adjustment : Adjustment) (address : Nat)
    (heap : NodeHeap) : (adjustSection config adjustment address heap).2 =
      heap.modify (adjustment.adjusted config) address := by
  unfold adjustSection NodeHeap.modify
  cases heap.map.lookup address with
  | none => rfl
  | some pointer =>
    dsimp only
    cases heap.records pointer <;> rfl

theorem createSection_cases {pointer address txPower : Nat} {outcome : Allocation} {mcs : Int}
    {heap after : NodeHeap} {code : ErrorCode}
    (created : createSection pointer outcome address txPower mcs heap = .ok (code, after)) :
    (outcome ≠ .inserted ∧ after = heap) ∨
      (outcome = .inserted ∧ heap.records pointer = none ∧
        after = heap.insert pointer ⟨address, false, txPower, mcs⟩) := by
  unfold createSection at created
  split at created
  · cases created
  · split at created
    · cases created
    · rename_i free
      cases created
      exact Or.inr ⟨rfl, by simpa using free, rfl⟩
  · cases created
    exact Or.inl ⟨nofun, rfl⟩
  · cases created
    exact Or.inl ⟨nofun, rfl⟩
  · cases created
    exact Or.inl ⟨nofun, rfl⟩

theorem deleteSection_cases (address : Nat) (heap : NodeHeap) :
    (heap.map.lookup address = none ∧ (deleteSection address heap).2 = heap) ∨
      ∃ pointer, heap.map.lookup address = some pointer ∧
        (deleteSection address heap).2 = heap.remove address pointer := by
  unfold deleteSection
  cases found : heap.map.lookup address with
  | none => exact Or.inl ⟨rfl, rfl⟩
  | some pointer => exact Or.inr ⟨pointer, rfl, rfl⟩

/-- The records after an optimization of a present record. -/
def NodeHeap.tuned (config : Config) (address txPower : Nat) (mcs : Int) (heap : NodeHeap) :
    NodeHeap :=
  (heap.modify ((Adjustment.setTxPower txPower).adjusted config) address).modify
    ((Adjustment.setMcs mcs).adjusted config) address

theorem optimizeSection_cases {mcsMax address received pointer : Nat} {rssi2 snr : Int}
    {outcome : Allocation} {heap after : NodeHeap} {code : ErrorCode}
    (optimized : optimizeSection config mcsMax address rssi2 snr received pointer outcome heap =
      .ok (code, after)) :
    ∃ present, (((heap.get address).isSome = true ∧ present = heap) ∨
        (heap.get address = none ∧ ∃ created, createSection pointer outcome address
          config.txPower (int8 mcsMax) heap = .ok (created, present))) ∧
      after = present.tuned config address (wantedTxPower (wantedDbm config rssi2 received))
        (wantedMcs snr) := by
  obtain ⟨⟨created, present⟩, known, rest⟩ := bind_ok.mp optimized
  have same : (adjustSection config (.setMcs (wantedMcs snr)) address
      (adjustSection config (.setTxPower (wantedTxPower (wantedDbm config rssi2 received))) address
        present).2).2 = after := congrArg Prod.snd (ok_inj rest)
  rw [adjustSection_heap, adjustSection_heap] at same
  refine ⟨present, ?_, same.symm⟩
  split at known
  · rename_i found
    cases known
    exact Or.inl ⟨found, rfl⟩
  · rename_i missing
    exact Or.inr ⟨by simpa using missing, created, known⟩

/-! ### The sections work on the node table -/

/-- The heap stores the records of a node table. -/
def NodeHeap.Stores (heap : NodeHeap) (nodes : NodeTable) : Prop :=
  ∀ address, heap.get address = nodes.get address

/-- The setter or the adjustment of the node table. -/
def Adjustment.operation (config : Config) (adjustment : Adjustment) (address : Nat)
    (nodes : NodeTable) : ErrorCode × NodeTable :=
  match adjustment with
  | .setTxPower txPower => dectMacNodeSetTxPower address txPower nodes
  | .setMcs mcs => dectMacNodeSetMcs address mcs nodes
  | .fullPower => dectMacNodeFullPower config address nodes
  | .addPower powerToAdd => dectMacNodeAddPower config address powerToAdd nodes
  | .reduceMcs mcsMax mcsToReduce => dectMacNodeReduceMcs mcsMax address mcsToReduce nodes

theorem Adjustment.operation_eq (config : Config) (adjustment : Adjustment) (address : Nat)
    (nodes : NodeTable) : adjustment.operation config address nodes =
      updateNode (adjustment.update config) address nodes := by
  cases adjustment <;> rfl

section Stores

variable {heap : NodeHeap} {nodes after : NodeTable} {address : Nat}

theorem NodeHeap.Stores.modify (stores : heap.Stores nodes) (sound : heap.Sound)
    {change : Node → Node} {node : Node} (present : nodes.get address = some node) :
    (heap.modify change address).Stores (nodes.put address (change node)) := by
  intro other
  rw [sound.get_modify]
  split
  · rename_i same
    rw [same, NodeTable.get_put_self, stores, present]
    rfl
  · rename_i distinct
    rw [NodeTable.get_put_of_ne _ _ distinct]
    exact stores other

/-- The section of a setter or an adjustment is the operation on the node table. -/
theorem adjustSection_stores (stores : heap.Stores nodes) (sound : heap.Sound) (config : Config)
    (adjustment : Adjustment) (address : Nat) :
    (adjustSection config adjustment address heap).1 =
        (adjustment.operation config address nodes).1 ∧
      (adjustSection config adjustment address heap).2.Stores
        (adjustment.operation config address nodes).2 := by
  rw [adjustSection_heap, adjustment.operation_eq]
  unfold updateNode
  cases present : nodes.get address with
  | none =>
    have missing : heap.map.lookup address = none :=
      sound.get_eq_none_iff.mp ((stores address).trans present)
    constructor
    · unfold adjustSection
      rw [missing]
    · unfold NodeHeap.modify
      rw [missing]
      exact stores
  | some node =>
    have found := (stores address).trans present
    obtain ⟨pointer, mapped, record⟩ := Option.bind_eq_some_iff.mp found
    refine ⟨?_, stores.modify sound present⟩
    unfold adjustSection
    rw [mapped]
    dsimp only
    rw [record]

/-- The creation of a record in the hash map is that of the node table. -/
theorem createSection_stores (stores : heap.Stores nodes) (sound : heap.Sound) {pointer : Nat}
    {txPower : Nat} {mcs : Int} {code : ErrorCode} (free : heap.records pointer = none)
    (created : dectMacNodeCreateNode address txPower mcs nodes = .ok (code, after)) :
    ∃ inserted, createSection pointer (nodes.allocations 0) address txPower mcs heap =
      .ok (code, inserted) ∧ inserted.Stores after ∧ inserted.Sound := by
  unfold dectMacNodeCreateNode at created
  unfold createSection
  generalize nodes.allocations 0 = allocation at created ⊢
  cases allocation with
  | nullPointer => cases created
  | inserted =>
    cases created
    refine ⟨heap.insert pointer ⟨address, false, txPower, mcs⟩, ?_, fun other => ?_,
      sound.insert free⟩
    · rw [free]
      rfl
    · by_cases same : other = address
      · rw [same, NodeTable.get_put_self]
        exact NodeHeap.get_insert_self _
      · rw [NodeTable.get_put_of_ne _ _ same]
        exact (sound.get_insert_of_ne free same).trans (stores other)
  | _ =>
    cases created
    exact ⟨heap, rfl, stores, sound⟩

/-- A getter whose two sections are not interrupted is the getter of the node table. -/
theorem getter_stores {Value : Type} {read : Node → Value} {default value : Value}
    {mcsMax pointer : Nat} (stores : heap.Stores nodes) (sound : heap.Sound)
    (free : heap.records pointer = none)
    (got : getOrCreate config mcsMax read default address nodes = .ok (value, after)) :
    (∃ checked, checkSection read address heap = (some value, checked) ∧
        checked.Stores after) ∨
      (checkSection read address heap = (none, heap) ∧ value = default ∧
        ∃ code created, createSection pointer (nodes.allocations 0) address config.txPower
          (int8 mcsMax) heap = .ok (code, created) ∧ created.Stores after) := by
  rw [checkSection_eq]
  unfold getOrCreate at got
  split at got
  · rename_i node present
    cases got
    rw [(stores address).trans present]
    exact Or.inl ⟨_, rfl, stores.modify sound present⟩
  · rename_i missing
    have absent := (stores address).trans missing
    split at got
    · rename_i code table created
      obtain ⟨inserted, section_, storesAfter, _⟩ :=
        createSection_stores stores sound free created
      cases got
      refine Or.inr ⟨?_, rfl, code, inserted, section_, storesAfter⟩
      unfold NodeHeap.modify
      rw [absent, sound.get_eq_none_iff.mp absent]
      rfl
    · cases got

/-- The section of an optimization is the operation on the node table. -/
theorem optimizeSection_stores {mcsMax received pointer : Nat} {rssi2 snr : Int}
    {code : ErrorCode} (stores : heap.Stores nodes) (sound : heap.Sound)
    (free : heap.records pointer = none)
    (optimized : dectMacNodeOptimize config mcsMax address rssi2 snr received nodes =
      .ok (code, after)) :
    ∃ tuned, optimizeSection config mcsMax address rssi2 snr received pointer
      (nodes.allocations 0) heap = .ok (code, tuned) ∧ tuned.Stores after := by
  unfold dectMacNodeOptimize dectMacNodeContainsNode at optimized
  dsimp only at optimized
  split at optimized
  · cases optimized
  · rename_i created present same
    cases optimized
    have creation : ∃ presentHeap, (if (heap.get address).isSome then .ok (.ok, heap)
        else createSection pointer (nodes.allocations 0) address config.txPower (int8 mcsMax)
          heap : Except Stop (ErrorCode × NodeHeap)) = .ok (created, presentHeap) ∧
        presentHeap.Stores present ∧ presentHeap.Sound := by
      rw [stores address]
      split at same
      · rename_i known
        cases same
        rw [if_pos known]
        exact ⟨heap, rfl, stores, sound⟩
      · rename_i unknown
        rw [if_neg unknown]
        exact createSection_stores stores sound free same
    obtain ⟨presentHeap, ran, presentStores, presentSound⟩ := creation
    refine ⟨_, bind_ok.mpr ⟨_, ran, rfl⟩, ?_⟩
    have powered := (adjustSection_stores presentStores presentSound config
      (.setTxPower (wantedTxPower (wantedDbm config rssi2 received))) address).2
    refine (adjustSection_stores powered ?_ config (.setMcs (wantedMcs snr)) address).2
    rw [adjustSection_heap]
    exact presentSound.modify (Adjustment.adjusted_address config _) address

/-- The section of a deletion is the operation on the node table. -/
theorem deleteSection_stores (stores : heap.Stores nodes) (sound : heap.Sound) (address : Nat) :
    (deleteSection address heap).1 = (dectMacNodeDeleteNode address nodes).1 ∧
      (deleteSection address heap).2.Stores (dectMacNodeDeleteNode address nodes).2 := by
  unfold deleteSection dectMacNodeDeleteNode
  cases present : nodes.get address with
  | none =>
    rw [sound.get_eq_none_iff.mp ((stores address).trans present)]
    exact ⟨rfl, stores⟩
  | some node =>
    obtain ⟨pointer, mapped, record⟩ :=
      Option.bind_eq_some_iff.mp ((stores address).trans present)
    rw [mapped]
    refine ⟨rfl, fun other => ?_⟩
    by_cases same : other = address
    · rw [same, NodeTable.get, AList.lookup_erase, NodeHeap.get, AList.lookup_erase]
      rfl
    · rw [NodeTable.get, AList.lookup_erase_ne same]
      exact (sound.get_remove_of_ne mapped same).trans (stores other)

end Stores

/-! ### The threads -/

/-- Where a thread is: between two operations, or in a getter that found no node. -/
inductive Phase
  | idle
  | creating (address : Nat)
  deriving DecidableEq, Repr

/-- The heap and the threads. -/
structure NodeState (Thread : Type) where
  heap : NodeHeap
  phase : Thread → Phase

/-- The sections that threads go through. -/
inductive NodeEvent (Thread : Type)
  | check (thread : Thread) (address : Nat)
  | create (thread : Thread) (mcsMax pointer : Nat) (outcome : Allocation)
  | adjust (thread : Thread) (adjustment : Adjustment) (address : Nat)
  | optimize (thread : Thread) (mcsMax address : Nat) (rssi2 snr : Int)
      (receivedTxPower pointer : Nat) (outcome : Allocation)
  | delete (thread : Thread) (address : Nat)

/-- The thread that goes through a section. -/
def NodeEvent.thread {Thread : Type} : NodeEvent Thread → Thread
  | .check thread _ => thread
  | .create thread _ _ _ => thread
  | .adjust thread _ _ => thread
  | .optimize thread _ _ _ _ _ _ _ => thread
  | .delete thread _ => thread

section Threads

variable {Thread : Type}

/-- No record is allocated, and no thread is in an operation. -/
def nodesAtBoot : NodeState Thread where
  heap := .empty
  phase := fun _ => .idle

/-- The address that `dect_mac_node_create_node` is applied to in a section. -/
def creates (state : NodeState Thread) : NodeEvent Thread → Option Nat
  | .create thread _ _ _ =>
    match state.phase thread with
    | .creating address => some address
    | .idle => none
  | .optimize _ _ address _ _ _ _ _ =>
    if (state.heap.get address).isSome then none else some address
  | _ => none

/-- A section whose creation of a record succeeds, if it creates one. -/
def NodeEvent.inserts : NodeEvent Thread → Bool
  | .create _ _ _ outcome => outcome = .inserted
  | .optimize _ _ _ _ _ _ _ outcome => outcome = .inserted
  | _ => false

/-- No other thread is between its check of an address and its creation when a section creates a
record for the address. -/
def Alone (state : NodeState Thread) (event : NodeEvent Thread) : Prop :=
  event.inserts = true → ∀ address, creates state event = some address →
    ∀ other, other ≠ event.thread → state.phase other ≠ .creating address

/-- The allocated records are exactly those that the hash map reaches, one for each address. -/
structure NodeHeap.Exact (heap : NodeHeap) : Prop where
  reached : ∀ pointer, (heap.records pointer).isSome = true ↔
    ∃ address, heap.map.lookup address = some pointer
  one : ∀ first second nodeOne nodeTwo, heap.records first = some nodeOne →
    heap.records second = some nodeTwo → nodeOne.address = nodeTwo.address → first = second

theorem NodeHeap.Reached.exact {heap : NodeHeap} (reached : heap.Reached) (sound : heap.Sound) :
    heap.Exact where
  reached := fun pointer => by
    constructor
    · intro allocated
      obtain ⟨node, record⟩ := Option.isSome_iff_exists.mp allocated
      exact ⟨node.address, reached pointer node record⟩
    · rintro ⟨address, mapped⟩
      obtain ⟨node, record, _⟩ := sound address pointer mapped
      rw [record]
      rfl
  one := fun first second nodeOne nodeTwo recordOne recordTwo same => by
    have mapped := reached first nodeOne recordOne
    rw [same, reached second nodeTwo recordTwo] at mapped
    exact (Option.some.inj mapped).symm

/-- What holds while every creation is alone: the heap is exact, and a thread that is about to
create a record still finds none. -/
structure NodeState.Undisturbed (state : NodeState Thread) : Prop where
  sound : state.heap.Sound
  reached : state.heap.Reached
  waiting : ∀ thread address, state.phase thread = .creating address →
    state.heap.get address = none

/-- In a section that creates a record its address has none, and the present records stay as they
are. -/
def CreatesFresh (taken : Transition.Step (NodeState Thread) (NodeEvent Thread)) : Prop :=
  ∀ address, creates taken.before taken.label = some address →
    taken.before.heap.get address = none ∧
      ∀ other node, taken.before.heap.get other = some node →
        taken.after.heap.get other = some node

/-- A change of a record keeps all that holds while every creation is alone. -/
theorem NodeState.Undisturbed.modify {state : NodeState Thread} (undisturbed : state.Undisturbed)
    {change : Node → Node} (keeps : ∀ node, (change node).address = node.address)
    (address : Nat) :
    ({ state with heap := state.heap.modify change address } : NodeState Thread).Undisturbed where
  sound := undisturbed.sound.modify keeps address
  reached := undisturbed.reached.modify keeps address
  waiting := fun thread other creating => by
    have missing := undisturbed.waiting thread other creating
    show (state.heap.modify change address).get other = none
    rw [undisturbed.sound.get_modify]
    split
    · rename_i same
      rw [← same, missing]
      rfl
    · exact missing

theorem NodeState.Undisturbed.insert {state : NodeState Thread} (undisturbed : state.Undisturbed)
    {pointer : Nat} {node : Node} (free : state.heap.records pointer = none)
    (missing : state.heap.get node.address = none) {phase : Thread → Phase}
    (others : ∀ thread address, phase thread = .creating address →
      state.phase thread = .creating address ∧ address ≠ node.address) :
    (⟨state.heap.insert pointer node, phase⟩ : NodeState Thread).Undisturbed where
  sound := undisturbed.sound.insert free
  reached := undisturbed.reached.insert (undisturbed.sound.get_eq_none_iff.mp missing)
  waiting := fun thread address creating => by
    obtain ⟨still, distinct⟩ := others thread address creating
    show (state.heap.insert pointer node).get address = none
    rw [undisturbed.sound.get_insert_of_ne free distinct]
    exact undisturbed.waiting thread address still

theorem NodeState.Undisturbed.remove {state : NodeState Thread} (undisturbed : state.Undisturbed)
    {address pointer : Nat} (found : state.heap.map.lookup address = some pointer) :
    ({ state with heap := state.heap.remove address pointer } : NodeState Thread).Undisturbed where
  sound := undisturbed.sound.remove found
  reached := undisturbed.reached.remove found
  waiting := fun thread other creating => by
    have missing := undisturbed.sound.get_eq_none_iff.mp
      (undisturbed.waiting thread other creating)
    have removed : (state.heap.remove address pointer).map.lookup other = none := by
      by_cases same : other = address
      · rw [same]
        exact AList.lookup_erase _ _
      · exact (AList.lookup_erase_ne same).trans missing
    show (state.heap.remove address pointer).get other = none
    rw [NodeHeap.get, removed]
    rfl

/-- The threads may move as long as none starts to wait for an address that has a record. -/
theorem NodeState.Undisturbed.phases {state : NodeState Thread} (undisturbed : state.Undisturbed)
    {phase : Thread → Phase}
    (waits : ∀ thread address, phase thread = .creating address →
      state.phase thread = .creating address ∨ state.heap.get address = none) :
    ({ state with phase := phase } : NodeState Thread).Undisturbed where
  sound := undisturbed.sound
  reached := undisturbed.reached
  waiting := fun thread address creating =>
    (waits thread address creating).elim (undisturbed.waiting thread address) id

theorem NodeState.Undisturbed.tuned {state : NodeState Thread} (undisturbed : state.Undisturbed)
    (config : Config) (address txPower : Nat) (mcs : Int) :
    ({ state with heap := state.heap.tuned config address txPower mcs } :
      NodeState Thread).Undisturbed :=
  (undisturbed.modify (Adjustment.adjusted_address config _) address).modify
    (Adjustment.adjusted_address config _) address

/-- An optimization changes the record of its own address only. -/
theorem NodeHeap.Sound.get_tuned_of_ne {heap : NodeHeap} (sound : heap.Sound) (config : Config)
    {address other : Nat} (txPower : Nat) (mcs : Int) (distinct : other ≠ address) :
    (heap.tuned config address txPower mcs).get other = heap.get other := by
  unfold NodeHeap.tuned
  rw [(sound.modify (Adjustment.adjusted_address config _) address).get_modify,
    if_neg distinct, sound.get_modify, if_neg distinct]

/-- A creation for an address without a record keeps the records of the other addresses. -/
theorem createSection_keeps {heap after : NodeHeap} (sound : heap.Sound)
    {pointer address txPower : Nat} {outcome : Allocation} {mcs : Int} {code : ErrorCode}
    (missing : heap.get address = none)
    (created : createSection pointer outcome address txPower mcs heap = .ok (code, after))
    {other : Nat} {node : Node} (present : heap.get other = some node) :
    other ≠ address ∧ after.get other = some node := by
  have distinct : other ≠ address := by
    rintro rfl
    rw [missing] at present
    cases present
  rcases createSection_cases created with ⟨_, rfl⟩ | ⟨_, free, rfl⟩
  · exact ⟨distinct, present⟩
  · exact ⟨distinct, (sound.get_insert_of_ne free distinct).trans present⟩

theorem nodesAtBoot_undisturbed : (nodesAtBoot : NodeState Thread).Undisturbed where
  sound := fun address pointer mapped => by cases mapped
  reached := fun pointer node record => by cases record
  waiting := fun thread address creating => by cases creating

/-! ### The steps of the threads -/

section Sections

variable {before : NodeState Thread} {thread : Thread} {address mcsMax pointer : Nat}
  {outcome : Allocation}

/-- An optimization that is alone: its section creates the record only when it found none. -/
theorem NodeState.Undisturbed.optimized {rssi2 snr : Int} {received : Nat}
    (undisturbed : before.Undisturbed) (idle : before.phase thread = .idle)
    (alone : Alone before (.optimize thread mcsMax address rssi2 snr received pointer outcome))
    {code : ErrorCode} {heap : NodeHeap}
    (optimized : optimizeSection config mcsMax address rssi2 snr received pointer outcome
      before.heap = .ok (code, heap)) :
    ({ before with heap := heap } : NodeState Thread).Undisturbed ∧
      CreatesFresh ⟨before, .optimize thread mcsMax address rssi2 snr received pointer outcome,
        { before with heap := heap }⟩ := by
  obtain ⟨present, known, rfl⟩ := optimizeSection_cases optimized
  rcases known with ⟨found, rfl⟩ | ⟨missing, created, same⟩
  · refine ⟨undisturbed.tuned config address _ _, fun own creation => ?_⟩
    dsimp only [creates] at creation
    rw [if_pos found] at creation
    cases creation
  · have applied : creates before (.optimize thread mcsMax address rssi2 snr received pointer
        outcome) = some address := by
      dsimp only [creates]
      rw [missing]
      rfl
    have presentUndisturbed :
        ({ before with heap := present } : NodeState Thread).Undisturbed := by
      rcases createSection_cases same with ⟨_, rfl⟩ | ⟨inserted, free, rfl⟩
      · exact undisturbed
      · refine undisturbed.insert free missing fun other waited still => ⟨still, ?_⟩
        rintro rfl
        refine alone (decide_eq_true inserted) waited applied other ?_ still
        rintro rfl
        rw [idle] at still
        cases still
    refine ⟨presentUndisturbed.tuned config address _ _, fun own creation => ?_⟩
    obtain rfl : address = own := Option.some.inj (applied.symm.trans creation)
    refine ⟨missing, fun other node known => ?_⟩
    obtain ⟨distinct, kept⟩ := createSection_keeps undisturbed.sound missing same known
    exact (presentUndisturbed.sound.get_tuned_of_ne config _ _ distinct).trans kept

/-- A removal leaves no thread with a record that it does not expect. -/
theorem NodeState.Undisturbed.deleted (undisturbed : before.Undisturbed) :
    ({ before with heap := (deleteSection address before.heap).2 } :
      NodeState Thread).Undisturbed := by
  rcases deleteSection_cases address before.heap with ⟨_, same⟩ | ⟨pointer, found, same⟩
  · rw [same]
    exact undisturbed
  · rw [same]
    exact undisturbed.remove found

variable [DecidableEq Thread]

/-- A check marks the node, or its thread goes on to create one. -/
theorem NodeState.Undisturbed.checked (undisturbed : before.Undisturbed) :
    ({ heap := before.heap.modify Node.marked address
       phase := if ((before.heap.get address).map id).isSome then before.phase
        else Function.update before.phase thread (.creating address) } :
      NodeState Thread).Undisturbed := by
  refine (undisturbed.modify Node.marked_address address).phases fun other waited creating => ?_
  split at creating
  · exact Or.inl creating
  · rename_i absent
    by_cases same : other = thread
    · rw [same, Function.update_self] at creating
      cases creating
      refine Or.inr ?_
      have missing : before.heap.get address = none := by simpa using absent
      show (before.heap.modify Node.marked address).get address = none
      rw [undisturbed.sound.get_modify, if_pos rfl, missing]
      rfl
    · rw [Function.update_of_ne same] at creating
      exact Or.inl creating

/-- The creation of a getter that is alone: its thread found no record, and none was created
since. -/
theorem NodeState.Undisturbed.created (undisturbed : before.Undisturbed)
    (creating : before.phase thread = .creating address)
    (alone : Alone before (.create thread mcsMax pointer outcome)) {code : ErrorCode}
    {heap : NodeHeap}
    (created : createSection pointer outcome address config.txPower (int8 mcsMax) before.heap =
      .ok (code, heap)) :
    ({ heap := heap, phase := Function.update before.phase thread .idle } :
        NodeState Thread).Undisturbed ∧
      CreatesFresh ⟨before, .create thread mcsMax pointer outcome,
        ⟨heap, Function.update before.phase thread .idle⟩⟩ := by
  have missing := undisturbed.waiting thread address creating
  have applied : creates before (.create thread mcsMax pointer outcome) = some address := by
    dsimp only [creates]
    rw [creating]
  have others (other : Thread) (waited : Nat)
      (later : Function.update before.phase thread .idle other = .creating waited) :
      other ≠ thread ∧ before.phase other = .creating waited := by
    by_cases same : other = thread
    · rw [same, Function.update_self] at later
      cases later
    · rw [Function.update_of_ne same] at later
      exact ⟨same, later⟩
  constructor
  · rcases createSection_cases created with ⟨_, rfl⟩ | ⟨inserted, free, rfl⟩
    · exact undisturbed.phases fun other waited later => Or.inl (others other waited later).2
    · refine undisturbed.insert free missing fun other waited later => ?_
      obtain ⟨distinct, still⟩ := others other waited later
      refine ⟨still, ?_⟩
      rintro rfl
      exact alone (decide_eq_true inserted) waited applied other distinct still
  · intro own creation
    obtain rfl : address = own := Option.some.inj (applied.symm.trans creation)
    exact ⟨missing, fun other node present =>
      (createSection_keeps undisturbed.sound missing created present).2⟩

end Sections

variable [DecidableEq Thread]

/-- One section of one thread. A thread in a getter that found no node goes on to create it; any
other thread may start any operation. -/
def nodeStep (config : Config) (state : NodeState Thread) (event : NodeEvent Thread) :
    Except Stop (NodeState Thread) :=
  match event, state.phase event.thread with
  | .check thread address, .idle =>
    let (value, heap) := checkSection id address state.heap
    .ok {
      heap := heap
      phase := if value.isSome then state.phase
        else Function.update state.phase thread (.creating address) }
  | .create thread mcsMax pointer outcome, .creating address => do
    let (_, heap) ← createSection pointer outcome address config.txPower (int8 mcsMax) state.heap
    .ok { heap := heap, phase := Function.update state.phase thread .idle }
  | .adjust _ adjustment address, .idle =>
    .ok { state with heap := (adjustSection config adjustment address state.heap).2 }
  | .optimize _ mcsMax address rssi2 snr receivedTxPower pointer outcome, .idle => do
    let (_, heap) ← optimizeSection config mcsMax address rssi2 snr receivedTxPower pointer
      outcome state.heap
    .ok { state with heap := heap }
  | .delete _ address, .idle => .ok { state with heap := (deleteSection address state.heap).2 }
  | _, _ => .error .disabled

/-- A run of the threads from boot. -/
abbrev NodeRun (config : Config)
    (steps : List (Transition.Step (NodeState Thread) (NodeEvent Thread)))
    (final : NodeState Thread) : Prop :=
  Transition.Run (Transition.stepOf (nodeStep config)) nodesAtBoot steps final

/-- Every step whose creation is alone keeps all of it, and creates fresh records only. -/
theorem nodeStep_undisturbed {before after : NodeState Thread} {event : NodeEvent Thread}
    (undisturbed : before.Undisturbed) (alone : Alone before event)
    (stepped : nodeStep config before event = .ok after) :
    after.Undisturbed ∧ CreatesFresh ⟨before, event, after⟩ := by
  unfold nodeStep at stepped
  split at stepped
  · -- a check
    rw [checkSection_eq] at stepped
    cases stepped
    exact ⟨undisturbed.checked, fun _ creation => by cases creation⟩
  · -- the creation of a getter
    rename_i creating
    obtain ⟨⟨code, heap⟩, created, rest⟩ := bind_ok.mp stepped
    cases rest
    exact undisturbed.created creating alone created
  · cases stepped
    rw [adjustSection_heap]
    exact ⟨undisturbed.modify (Adjustment.adjusted_address config _) _,
      fun _ creation => by cases creation⟩
  · -- an optimization
    rename_i idle
    obtain ⟨⟨code, heap⟩, optimized, rest⟩ := bind_ok.mp stepped
    cases rest
    exact undisturbed.optimized idle alone optimized
  · cases stepped
    exact ⟨undisturbed.deleted, fun _ creation => by cases creation⟩
  · cases stepped

/-- In every run of the threads in which each creation of a record is alone, records are created
for addresses without one only, no present record is replaced, and the allocated records are
exactly the reached ones, one for each address. -/
theorem creations_fresh {steps : List (Transition.Step (NodeState Thread) (NodeEvent Thread))}
    {final : NodeState Thread} (run : NodeRun config steps final)
    (alone : ∀ taken ∈ steps, Alone taken.before taken.label) :
    (∀ taken ∈ steps, CreatesFresh taken) ∧ final.heap.Exact := by
  have kept : ∀ (before : NodeState Thread) (event : NodeEvent Thread) (after : NodeState Thread),
      Alone before event → before.Undisturbed →
        Transition.stepOf (nodeStep config) before event after → after.Undisturbed :=
    fun _ _ _ alone undisturbed stepped => (nodeStep_undisturbed undisturbed alone stepped).1
  have ends := run.invariant _ _ kept alone nodesAtBoot_undisturbed
  have passes := run.invariant_before _ _ kept alone nodesAtBoot_undisturbed
  refine ⟨fun taken member => ?_, ends.reached.exact ends.sound⟩
  exact (nodeStep_undisturbed (passes taken member) (alone taken member)
    (run.taken taken member)).2

/-- A creation that is not alone leaves another thread about to create a record for an address
that has one now. -/
theorem overtaken_of_not_alone {before after : NodeState Thread} {event : NodeEvent Thread}
    (sound : before.heap.Sound) (stepped : nodeStep config before event = .ok after)
    (crowded : ¬ Alone before event) :
    ∃ other address, after.phase other = .creating address ∧
      (after.heap.get address).isSome = true := by
  unfold Alone at crowded
  push Not at crowded
  obtain ⟨inserts, address, creation, other, distinct, waiting⟩ := crowded
  refine ⟨other, address, ?_⟩
  unfold nodeStep at stepped
  split at stepped
  · cases creation
  · rename_i thread mcsMax pointer outcome own creating
    obtain ⟨⟨code, heap⟩, created, rest⟩ := bind_ok.mp stepped
    cases rest
    dsimp only [creates] at creation
    rw [show before.phase thread = .creating own from creating] at creation
    obtain rfl : own = address := Option.some.inj creation
    refine ⟨(Function.update_of_ne distinct _ _).trans waiting, ?_⟩
    rcases createSection_cases created with ⟨failed, _⟩ | ⟨_, _, rfl⟩
    · exact absurd (of_decide_eq_true inserts) failed
    · exact Option.isSome_iff_exists.mpr ⟨_, NodeHeap.get_insert_self _⟩
  · cases creation
  · rename_i thread mcsMax own rssi2 snr received pointer outcome idle
    obtain ⟨⟨code, heap⟩, optimized, rest⟩ := bind_ok.mp stepped
    cases rest
    refine ⟨waiting, ?_⟩
    obtain ⟨present, known, rfl⟩ := optimizeSection_cases optimized
    dsimp only [creates] at creation
    split at creation
    · cases creation
    · rename_i absent
      obtain rfl : own = address := Option.some.inj creation
      rcases known with ⟨found, _⟩ | ⟨_, created, same⟩
      · exact absurd found absent
      · rcases createSection_cases same with ⟨failed, _⟩ | ⟨_, free, rfl⟩
        · exact absurd (of_decide_eq_true inserts) failed
        · have insertSound :
              (before.heap.insert pointer ⟨own, false, config.txPower, int8 mcsMax⟩).Sound :=
            sound.insert free
          unfold NodeHeap.tuned
          rw [(insertSound.modify (Adjustment.adjusted_address config _) own).get_modify,
            if_pos rfl, insertSound.get_modify, if_pos rfl,
            show own = (Node.mk own false config.txPower (int8 mcsMax)).address from rfl,
            NodeHeap.get_insert_self]
          rfl
  · cases creation
  · cases stepped

end Threads

/-! ### Two threads -/

/-- Two threads look for the same missing record, and the first one stores a power in the record
it creates before the second one creates its own. -/
def lateCreation : List (NodeEvent Bool) :=
  [.check false 7, .check true 7, .create false 4 1 .inserted,
    .adjust false (.setTxPower 3) 7, .create true 4 2 .inserted]

/-- The second thread's creation replaces the record and its setting. -/
theorem creation_overwrites :
    ¬ ∀ (steps : List (Transition.Step (NodeState Bool) (NodeEvent Bool)))
        (final : NodeState Bool), NodeRun projectConfig steps final →
      (∀ taken ∈ steps, CreatesFresh taken) ∧ final.heap.Exact := by
  intro fresh
  have run := Transition.followAll_run (nodeStep projectConfig) nodesAtBoot lateCreation
    (by decide +kernel)
  have each := (fresh _ _ run).1
  have late : ∃ taken ∈ Transition.followAll (nodeStep projectConfig) nodesAtBoot lateCreation,
      creates taken.before taken.label = some 7 ∧
        taken.before.heap.get 7 = some ⟨7, true, 3, 4⟩ := by
    decide +kernel
  obtain ⟨taken, member, creation, present⟩ := late
  have missing := (each taken member 7 creation).1
  rw [present] at missing
  cases missing

/-- One thread creates the record before the other one looks for it. -/
def earlyCreation : List (NodeEvent Bool) :=
  [.check false 7, .create false 4 1 .inserted, .check true 7]

theorem creations_fresh_early :
    (∀ taken ∈ Transition.followAll (nodeStep projectConfig) nodesAtBoot earlyCreation,
        CreatesFresh taken) ∧
      (earlyCreation.foldl (Transition.follow (nodeStep projectConfig))
        nodesAtBoot).heap.Exact := by
  refine creations_fresh (Transition.followAll_run (nodeStep projectConfig) nodesAtBoot
    earlyCreation (by decide +kernel)) ?_
  intro taken member
  simp only [earlyCreation, Transition.followAll, List.mem_cons, List.not_mem_nil,
    or_false] at member
  rcases member with rfl | rfl | rfl
  · intro inserts
    cases inserts
  · intro _ address _ other distinct creating
    cases other with
    | false => exact absurd rfl distinct
    | true => cases creating
  · intro inserts
    cases inserts

end DectHarq
