/-
This file models the table of peer nodes and its operations.

The hash map is a finite map whose entries are listed in iteration order. Allocations
are outside the program: the outcome of each allocation still to come is a part of the
state, chosen freely. Each getter creates the node it does not find; each setter and
each adjustment works on a found node only and marks it used.
-/

import Mathlib.Data.List.AList
import DectHarq.Utils

namespace DectHarq

/-- `struct node`. -/
structure Node where
  address : Nat
  used : Bool
  txPower : Nat
  mcs : Int
  deriving DecidableEq, Repr

/-- The outcome of one attempt to allocate and insert a node record: `k_malloc` returns no
memory, or the insertion succeeds or fails with a return code. -/
inductive Allocation
  | nullPointer
  | inserted
  | noMemory
  | noSpace
  | unexpected
  deriving DecidableEq, Repr

/-- `node_hashmap`, with the outcomes of the allocations to come. -/
structure NodeTable where
  map : AList (fun _ : Nat => Node)
  allocations : Nat → Allocation

namespace NodeTable

/-- The record of an address. -/
def get (nodes : NodeTable) (address : Nat) : Option Node :=
  nodes.map.lookup address

/-- Store a record. -/
def put (nodes : NodeTable) (address : Nat) (node : Node) : NodeTable :=
  { nodes with map := nodes.map.insert address node }

/-- The table after one more allocation was attempted. -/
def allocated (nodes : NodeTable) : NodeTable :=
  { nodes with allocations := fun later => nodes.allocations (later + 1) }

/-- Allocations never return a null pointer. -/
def Allocates (nodes : NodeTable) : Prop :=
  ∀ later, nodes.allocations later ≠ .nullPointer

@[simp] theorem get_put_self (nodes : NodeTable) (address : Nat) (node : Node) :
    (nodes.put address node).get address = some node :=
  AList.lookup_insert _

theorem get_put_of_ne (nodes : NodeTable) {address other : Nat} (node : Node)
    (distinct : other ≠ address) : (nodes.put address node).get other = nodes.get other :=
  AList.lookup_insert_ne distinct

@[simp] theorem get_allocated (nodes : NodeTable) (address : Nat) :
    nodes.allocated.get address = nodes.get address := rfl

end NodeTable

section Operations

variable (config : Config) (mcsMax : Nat)

/-- `dect_mac_node_create_node`. The pointer returned by `k_malloc` is not checked. -/
def dectMacNodeCreateNode (address txPower : Nat) (mcs : Int) (nodes : NodeTable) :
    Except Stop (ErrorCode × NodeTable) :=
  match nodes.allocations 0 with
  | .nullPointer => .error .nullPointer
  | .inserted => .ok (.ok, nodes.allocated.put address ⟨address, false, txPower, mcs⟩)
  | .noMemory => .ok (.noMemHeap, nodes.allocated)
  | .noSpace => .ok (.noFreeNode, nodes.allocated)
  | .unexpected => .ok (.unknownErr, nodes.allocated)

/-- The shape of the three getters: a found node is marked used and read; a missing one is
created with the configured power and the largest MCS, and the default is returned whatever
the creation returned. -/
def getOrCreate {Value : Type} (read : Node → Value) (default : Value) (address : Nat)
    (nodes : NodeTable) : Except Stop (Value × NodeTable) :=
  match nodes.get address with
  | some node => .ok (read node, nodes.put address { node with used := true })
  | none =>
    match dectMacNodeCreateNode address config.txPower (int8 mcsMax) nodes with
    | .ok (_, created) => .ok (default, created)
    | .error stop => .error stop

/-- `dect_mac_node_get_tx_power`. -/
def dectMacNodeGetTxPower (address : Nat) (nodes : NodeTable) : Except Stop (Nat × NodeTable) :=
  getOrCreate config mcsMax Node.txPower config.txPower address nodes

/-- `dect_mac_node_get_mcs`. -/
def dectMacNodeGetMcs (address : Nat) (nodes : NodeTable) : Except Stop (Int × NodeTable) :=
  getOrCreate config mcsMax Node.mcs (int8 mcsMax) address nodes

/-- `dect_mac_node_get_cqi`. -/
def dectMacNodeGetCqi (address : Nat) (nodes : NodeTable) : Except Stop (Nat × NodeTable) :=
  getOrCreate config mcsMax (fun node => uint8 (node.mcs + 1)) (uint8 (mcsMax + 1)) address nodes

/-- The shape of the setters and adjustments: a found node is updated and marked used. -/
def updateNode (update : Node → Node × ErrorCode) (address : Nat) (nodes : NodeTable) :
    ErrorCode × NodeTable :=
  match nodes.get address with
  | some node =>
    let (updated, code) := update { node with used := true }
    (code, nodes.put address updated)
  | none => (.nodeNotFound, nodes)

/-- `dect_mac_node_set_tx_power`. -/
def dectMacNodeSetTxPower (address txPower : Nat) (nodes : NodeTable) : ErrorCode × NodeTable :=
  updateNode (fun node => ({ node with txPower := txPower }, .ok)) address nodes

/-- `dect_mac_node_set_mcs`. -/
def dectMacNodeSetMcs (address : Nat) (mcs : Int) (nodes : NodeTable) : ErrorCode × NodeTable :=
  updateNode (fun node => ({ node with mcs := mcs }, .ok)) address nodes

/-- `dect_mac_node_full_power`. -/
def dectMacNodeFullPower (address : Nat) (nodes : NodeTable) : ErrorCode × NodeTable :=
  updateNode (fun node => ({ node with txPower := config.txPower }, .ok)) address nodes

/-- `dect_mac_node_add_power`: the sum wraps to eight unsigned bits before it is compared with
the limit, so it is never negative. -/
def dectMacNodeAddPower (address : Nat) (powerToAdd : Int) (nodes : NodeTable) :
    ErrorCode × NodeTable :=
  updateNode (fun node =>
    let power := uint8 (node.txPower + int8 powerToAdd)
    ({ node with txPower := if power > config.txPower then config.txPower else power }, .ok))
    address nodes

/-- `dect_mac_node_reduce_mcs`. -/
def dectMacNodeReduceMcs (address : Nat) (mcsToReduce : Int) (nodes : NodeTable) :
    ErrorCode × NodeTable :=
  updateNode (fun node =>
    let mcs := int8 (node.mcs - int8 mcsToReduce)
    if mcs < 0 then ({ node with mcs := 0 }, .minMcsReached)
    else if mcs > mcsMax then ({ node with mcs := int8 mcsMax }, .maxMcsReached)
    else ({ node with mcs := mcs }, .ok)) address nodes

/-- `dect_mac_node_delete_node`. -/
def dectMacNodeDeleteNode (address : Nat) (nodes : NodeTable) : ErrorCode × NodeTable :=
  match nodes.get address with
  | some _ => (.ok, { nodes with map := nodes.map.erase address })
  | none => (.nodeNotFound, nodes)

/-- `dect_mac_node_contains_node`. -/
def dectMacNodeContainsNode (address : Nat) (nodes : NodeTable) : Bool :=
  (nodes.get address).isSome

/-- The nominal power of a received power code, in dBm. -/
def receivedTxPowerDbm : Nat → Int
  | 0 => -40
  | 1 => -30
  | 2 => -20
  | 3 => -16
  | 4 => -12
  | 5 => -8
  | 6 => -4
  | 7 => 0
  | 8 => 4
  | 9 => 7
  | 10 => 10
  | 11 => 13
  | 12 => 16
  | 13 => 19
  | 14 => 21
  | 15 => 23
  | _ => 20

/-- The power code chosen for a wanted power in dBm. Codes 0 and 1 are replaced by 2, and
codes 14 and 15 by 13. -/
def wantedTxPower (dbm : Int) : Nat :=
  if dbm ≤ -40 then 2
  else if dbm ≤ -30 then 2
  else if dbm ≤ -20 then 2
  else if dbm ≤ -16 then 3
  else if dbm ≤ -12 then 4
  else if dbm ≤ -8 then 5
  else if dbm ≤ -4 then 6
  else if dbm ≤ 0 then 7
  else if dbm ≤ 4 then 8
  else if dbm ≤ 7 then 9
  else if dbm ≤ 10 then 10
  else if dbm ≤ 13 then 11
  else if dbm ≤ 16 then 12
  else if dbm ≤ 19 then 13
  else if dbm ≤ 21 then 13
  else 13

/-- The MCS chosen for a signal-to-noise ratio; `-1` when none can be guaranteed. -/
def wantedMcs (snr : Int) : Int :=
  if snr ≥ 14 then 4
  else if snr ≥ 10 then 3
  else if snr ≥ 8 then 2
  else if snr ≥ 6 then 1
  else if snr ≥ 4 then 0
  else -1

/-- The return code of `dect_mac_node_optimize`: the last of its three causes wins. -/
def optimizeResult (created : ErrorCode) (receivedTxPower : Nat) (snr : Int) : ErrorCode :=
  if snr < 4 then .channelTooNoisy
  else if receivedTxPower > 15 then .powerNotInRange
  else created

/-- `dect_mac_node_optimize`. -/
def dectMacNodeOptimize (address : Nat) (rssi2 snr : Int) (receivedTxPower : Nat)
    (nodes : NodeTable) : Except Stop (ErrorCode × NodeTable) :=
  let create : Except Stop (ErrorCode × NodeTable) :=
    if dectMacNodeContainsNode address nodes then .ok (.ok, nodes)
    else dectMacNodeCreateNode address config.txPower (int8 mcsMax) nodes
  match create with
  | .error stop => .error stop
  | .ok (created, present) =>
    let powerMargin := int8 config.txPowerMarginDbm
    let wantedDbm :=
      receivedTxPowerDbm receivedTxPower - (rssi2 - config.rssiTarget - powerMargin)
    let (_, powered) := dectMacNodeSetTxPower address (wantedTxPower wantedDbm) present
    let (_, tuned) := dectMacNodeSetMcs address (wantedMcs snr) powered
    .ok (optimizeResult created receivedTxPower snr, tuned)

/-- What a cleaning pass does with the record of an address: it deletes an unused node and
clears the flag of a used one. -/
def cleanNode (address : Nat) (nodes : NodeTable) : NodeTable :=
  match nodes.get address with
  | none => nodes
  | some node =>
    if !node.used then (dectMacNodeDeleteNode node.address nodes).2
    else { nodes with map := nodes.map.replace address { node with used := false } }

/-- The iteration of a cleaning pass, one entry behind the iterator. The entry the iterator
ends at is returned, not yet examined. -/
def cleanLoop : Nat → List Nat → NodeTable → Nat × NodeTable
  | current, [], nodes => (current, nodes)
  | current, next :: rest, nodes => cleanLoop next rest (cleanNode current nodes)

/-- `dect_mac_node_clean_unused_nodes`. -/
def dectMacNodeCleanUnusedNodes (nodes : NodeTable) : NodeTable :=
  match nodes.map.keys with
  | [] => nodes
  | first :: rest =>
    let (last, cleaned) := cleanLoop first rest nodes
    if cleaned.map.keys.isEmpty then cleaned else cleanNode last cleaned

end Operations

end DectHarq
