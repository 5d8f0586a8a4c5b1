/-
This file develops the properties that every record of the node table has in every run.

A property is kept when it survives what the operations do to a record: the creation
with the configured power and the largest MCS, the used flag, the adjustments that are
capped at the configured limits, and the values that an optimization stores. One law
says so for a property, and one theorem carries it through every step of a run, to the
records and to the headers that are built from them.
-/

import DectHarq.HarqMoves

namespace DectHarq

variable {config : Config} {mcsMax : Nat}

/-! ### Properties of records -/

/-- Every record has a property. -/
def NodeTable.Every (holds : Node → Prop) (nodes : NodeTable) : Prop :=
  ∀ address node, nodes.get address = some node → holds node

/-- What a property of records must survive: the operations on a table with a largest MCS, and
the optimizations with the values that are accepted. -/
structure RecordLaw (config : Config) (mcsMax : Nat) (accepts : Nat → Int → Prop)
    (holds : Node → Prop) : Prop where
  created : ∀ address, holds ⟨address, false, config.txPower, int8 mcsMax⟩
  marked : ∀ node used, holds node → holds { node with used := used }
  capped : ∀ node txPower, txPower ≤ config.txPower → holds node →
    holds { node with txPower := txPower }
  clamped : ∀ node (mcs : Int), (0 ≤ mcs ∧ mcs ≤ mcsMax) ∨ mcs = int8 mcsMax → holds node →
    holds { node with mcs := mcs }
  tuned : ∀ node txPower (mcs : Int), accepts txPower mcs → holds node →
    holds { node with txPower := txPower, mcs := mcs }

/-- What the packet parameters of a header are read from: records with the property, or the MCS
0 of a packet without data. The MCS was looked up in the length table. -/
structure FitFrom (holds : Node → Prop) (fit : Fit) : Prop where
  txPower : ∃ node, holds node ∧ fit.txPower = node.txPower
  dfMcs : fit.dfMcs = 0 ∨ ∃ node, holds node ∧ fit.dfMcs = uint32 node.mcs
  inTable : fit.dfMcs ≤ 4

/-- The header of a transmission carries the chosen packet parameters. -/
def CarriesFit (config : Config) (fit : Fit) (params : PhyTxParams) : Prop :=
  ∃ deviceId input,
    (params.phyType = headerType1 ∧ params.header = type1Header config deviceId fit) ∨
      (params.phyType = headerType2 ∧ params.header = type2Header config deviceId input fit)

/-- The parameters of a transmission were built from records with the property. -/
def BuiltFrom (config : Config) (holds : Node → Prop) (params : PhyTxParams) : Prop :=
  ∃ fit, FitFrom holds fit ∧ CarriesFit config fit params

/-- The transmission that a call of the modem asks for. -/
def ModemRequest.transmission : ModemRequest → Option PhyTxParams
  | .tx params => some params
  | .txHarq params => some params
  | .txRx params _ => some params
  | _ => none

/-- Every transmission in a log of calls was built from records with the property. -/
def CallsFrom (config : Config) (holds : Node → Prop) (calls : List (ModemRequest × Int)) :
    Prop :=
  ∀ call ∈ calls, ∀ params, call.1.transmission = some params → BuiltFrom config holds params

/-! ### The operations of the node table -/

section Operations

variable {accepts : Nat → Int → Prop} {holds : Node → Prop}

theorem NodeTable.Every.put {nodes : NodeTable} (every : nodes.Every holds) (address : Nat)
    {node : Node} (new : holds node) : (nodes.put address node).Every holds := by
  intro other record found
  by_cases same : other = address
  · rw [same, NodeTable.get_put_self] at found
    rw [← Option.some.inj found]
    exact new
  · rw [NodeTable.get_put_of_ne _ _ same] at found
    exact every other record found

theorem createNode_every (law : RecordLaw config mcsMax accepts holds) {address : Nat}
    {nodes after : NodeTable} {code : ErrorCode} (every : nodes.Every holds)
    (created : dectMacNodeCreateNode address config.txPower (int8 mcsMax) nodes =
      .ok (code, after)) : after.Every holds := by
  have allocated : nodes.allocated.Every holds := every
  unfold dectMacNodeCreateNode at created
  split at created
  · cases created
  · cases created
    exact allocated.put address (law.created address)
  · cases created
    exact allocated
  · cases created
    exact allocated
  · cases created
    exact allocated

/-- A getter keeps the property. -/
theorem getOrCreate_keeps (law : RecordLaw config mcsMax accepts holds) {Value : Type}
    {read : Node → Value} {default value : Value} {address : Nat} {nodes after : NodeTable}
    (every : nodes.Every holds)
    (got : getOrCreate config mcsMax read default address nodes = .ok (value, after)) :
    after.Every holds := by
  unfold getOrCreate at got
  split at got
  · rename_i node found
    cases got
    exact every.put address (law.marked node true (every address node found))
  · split at got
    · rename_i code created same
      cases got
      exact createNode_every law every same
    · cases got

/-- A getter reads a record with the property: the one it finds, or the one whose values are the
defaults. -/
theorem getOrCreate_reads (law : RecordLaw config mcsMax accepts holds) {Value : Type}
    {read : Node → Value} {default value : Value} {address : Nat} {nodes after : NodeTable}
    (every : nodes.Every holds)
    (got : getOrCreate config mcsMax read default address nodes = .ok (value, after))
    (defaults : read ⟨address, false, config.txPower, int8 mcsMax⟩ = default) :
    ∃ node, holds node ∧ value = read node := by
  unfold getOrCreate at got
  split at got
  · rename_i node found
    cases got
    exact ⟨node, every address node found, rfl⟩
  · split at got
    · cases got
      exact ⟨_, law.created address, defaults.symm⟩
    · cases got

theorem updateNode_every {update : Node → Node × ErrorCode} {address : Nat} {nodes : NodeTable}
    (every : nodes.Every holds)
    (kept : ∀ node, holds node → holds (update { node with used := true }).1) :
    (updateNode update address nodes).2.Every holds := by
  unfold updateNode
  split
  · rename_i node found
    exact every.put address (kept node (every address node found))
  · exact every

theorem addPower_every (law : RecordLaw config mcsMax accepts holds) (address : Nat) (power : Int)
    {nodes : NodeTable} (every : nodes.Every holds) :
    (dectMacNodeAddPower config address power nodes).2.Every holds := by
  refine updateNode_every every fun node old => ?_
  have marked := law.marked node true old
  dsimp only
  split
  · exact law.capped _ _ le_rfl marked
  · rename_i below
    exact law.capped _ _ (Nat.le_of_not_lt below) marked

theorem reduceMcs_every (law : RecordLaw config mcsMax accepts holds) (address : Nat) (mcs : Int)
    {nodes : NodeTable} (every : nodes.Every holds) :
    (dectMacNodeReduceMcs mcsMax address mcs nodes).2.Every holds := by
  refine updateNode_every every fun node old => ?_
  have marked := law.marked node true old
  dsimp only
  split
  · exact law.clamped _ 0 (Or.inl ⟨le_rfl, Int.natCast_nonneg mcsMax⟩) marked
  · rename_i low
    split
    · exact law.clamped _ _ (Or.inr rfl) marked
    · rename_i high
      exact law.clamped _ _ (Or.inl ⟨Int.not_lt.mp low, Int.not_lt.mp high⟩) marked

/-- A setter leaves the record of its own address updated, or there is none. -/
theorem get_updateNode (update : Node → Node × ErrorCode) (address : Nat) (nodes : NodeTable) :
    (updateNode update address nodes).2.get address =
      (nodes.get address).map fun node => (update { node with used := true }).1 := by
  unfold updateNode
  cases found : nodes.get address with
  | none => exact found
  | some node => exact NodeTable.get_put_self _ _ _

theorem get_updateNode_of_ne (update : Node → Node × ErrorCode) {address other : Nat}
    (nodes : NodeTable) (distinct : other ≠ address) :
    (updateNode update address nodes).2.get other = nodes.get other := by
  unfold updateNode
  split
  · exact NodeTable.get_put_of_ne _ _ distinct
  · rfl

/-- The two setters of an optimization store both values in the record of the address. -/
theorem get_tuned (address other txPower : Nat) (mcs : Int) (nodes : NodeTable) :
    (dectMacNodeSetMcs address mcs (dectMacNodeSetTxPower address txPower nodes).2).2.get other =
      if other = address then
        (nodes.get address).map fun node =>
          { node with used := true, txPower := txPower, mcs := mcs }
      else nodes.get other := by
  split
  · rename_i same
    rw [same, dectMacNodeSetMcs, get_updateNode, dectMacNodeSetTxPower, get_updateNode,
      Option.map_map]
    rfl
  · rename_i distinct
    rw [dectMacNodeSetMcs, get_updateNode_of_ne _ _ distinct, dectMacNodeSetTxPower,
      get_updateNode_of_ne _ _ distinct]

/-- The power an optimization wants for a peer, in dBm. -/
def wantedDbm (config : Config) (rssi2 : Int) (receivedTxPower : Nat) : Int :=
  receivedTxPowerDbm receivedTxPower - (rssi2 - config.rssiTarget - int8 config.txPowerMarginDbm)

/-- What an optimization does: it creates a missing record, then stores the wanted values. -/
theorem optimize_cases {address received : Nat} {rssi2 snr : Int} {nodes after : NodeTable}
    {code : ErrorCode}
    (optimized : dectMacNodeOptimize config mcsMax address rssi2 snr received nodes =
      .ok (code, after)) :
    ∃ present, (((nodes.get address).isSome = true ∧ present = nodes) ∨
        (nodes.get address = none ∧ ∃ created, dectMacNodeCreateNode address config.txPower
          (int8 mcsMax) nodes = .ok (created, present))) ∧
      after = (dectMacNodeSetMcs address (wantedMcs snr) (dectMacNodeSetTxPower address
        (wantedTxPower (wantedDbm config rssi2 received)) present).2).2 := by
  unfold dectMacNodeOptimize dectMacNodeContainsNode at optimized
  dsimp only at optimized
  by_cases known : (nodes.get address).isSome = true
  · rw [if_pos known] at optimized
    cases optimized
    exact ⟨nodes, Or.inl ⟨known, rfl⟩, rfl⟩
  · rw [if_neg known] at optimized
    split at optimized
    · cases optimized
    · rename_i created present same
      cases optimized
      exact ⟨present, Or.inr ⟨by simpa using known, created, same⟩, rfl⟩

/-- No record of an address is there, and the next one to be created is not inserted. -/
def NodeTable.LeavesOut (nodes : NodeTable) (address : Nat) : Prop :=
  nodes.get address = none ∧ nodes.allocations 0 ≠ .inserted

theorem createNode_missing_iff {address txPower : Nat} {mcs : Int} {nodes after : NodeTable}
    {code : ErrorCode} (missing : nodes.get address = none)
    (created : dectMacNodeCreateNode address txPower mcs nodes = .ok (code, after)) :
    after.get address = none ↔ nodes.LeavesOut address := by
  unfold dectMacNodeCreateNode at created
  split at created
  · cases created
  · rename_i inserted
    cases created
    refine iff_of_false ?_ fun out => out.2 inserted
    rw [NodeTable.get_put_self]
    exact Option.some_ne_none _
  · rename_i failed
    cases created
    exact iff_of_true missing ⟨missing, by rw [failed]; decide⟩
  · rename_i failed
    cases created
    exact iff_of_true missing ⟨missing, by rw [failed]; decide⟩
  · rename_i failed
    cases created
    exact iff_of_true missing ⟨missing, by rw [failed]; decide⟩

/-- An optimization leaves no record of its address exactly when none was there and none could be
created. -/
theorem optimize_missing_iff {address received : Nat} {rssi2 snr : Int} {nodes after : NodeTable}
    {code : ErrorCode}
    (optimized : dectMacNodeOptimize config mcsMax address rssi2 snr received nodes =
      .ok (code, after)) : after.get address = none ↔ nodes.LeavesOut address := by
  obtain ⟨present, known, rfl⟩ := optimize_cases optimized
  rw [get_tuned, if_pos rfl, Option.map_eq_none_iff]
  rcases known with ⟨there, rfl⟩ | ⟨missing, created, same⟩
  · refine iff_of_false ?_ fun out => ?_
    · exact Option.ne_none_iff_isSome.mpr there
    · rw [out.1] at there
      cases there
  · exact createNode_missing_iff missing same

theorem optimize_every (law : RecordLaw config mcsMax accepts holds) {address received : Nat}
    {rssi2 snr : Int} {nodes after : NodeTable} {code : ErrorCode} (every : nodes.Every holds)
    (accepted : nodes.LeavesOut address ∨
      accepts (wantedTxPower (wantedDbm config rssi2 received)) (wantedMcs snr))
    (optimized : dectMacNodeOptimize config mcsMax address rssi2 snr received nodes =
      .ok (code, after)) : after.Every holds := by
  have without := optimize_missing_iff optimized
  obtain ⟨present, known, rfl⟩ := optimize_cases optimized
  have presentEvery : present.Every holds := by
    rcases known with ⟨_, rfl⟩ | ⟨_, created, same⟩
    · exact every
    · exact createNode_every law every same
  intro other record found
  rcases accepted with out | accepted
  · -- Without a record there is nothing to store the values in.
    have missing := without.mpr out
    rw [get_tuned] at found missing
    split at found
    · rw [if_pos rfl, found] at missing
      cases missing
    · exact presentEvery other record found
  · rw [get_tuned] at found
    split at found
    · obtain ⟨node, old, rfl⟩ := Option.map_eq_some_iff.mp found
      exact law.tuned _ _ _ accepted (law.marked node true (presentEvery address node old))
    · exact presentEvery other record found

/-- An entry of a list with a replaced value is the replacement or an entry of the list. -/
theorem mem_replace_cases {address : Nat} {node : Node} {map : AList fun _ : Nat => Node}
    {entry : Sigma fun _ : Nat => Node} (member : entry ∈ (map.replace address node).entries) :
    entry = ⟨address, node⟩ ∨ entry ∈ map.entries := by
  obtain ⟨entries, _⟩ := map
  change entry ∈ List.lookmap _ entries at member
  show entry = ⟨address, node⟩ ∨ entry ∈ entries
  clear * - member
  induction entries with
  | nil => cases member
  | cons first rest inductionHypothesis =>
    by_cases same : address = first.1
    · rw [List.lookmap_cons_some _ _ (dif_pos same)] at member
      rcases List.mem_cons.mp member with replaced | later
      · exact Or.inl replaced
      · exact Or.inr (List.mem_cons_of_mem _ later)
    · rw [List.lookmap_cons_none _ _ (dif_neg same)] at member
      rcases List.mem_cons.mp member with kept | later
      · exact Or.inr (kept ▸ List.mem_cons_self)
      · rcases inductionHypothesis later with replaced | old
        · exact Or.inl replaced
        · exact Or.inr (List.mem_cons_of_mem _ old)

theorem cleanNode_every (law : RecordLaw config mcsMax accepts holds) {nodes : NodeTable}
    (address : Nat) (every : nodes.Every holds) : (cleanNode address nodes).Every holds := by
  unfold cleanNode
  split
  · exact every
  · rename_i node found
    split
    · unfold dectMacNodeDeleteNode
      split
      · intro other record kept
        by_cases same : other = node.address
        · rw [NodeTable.get, same, AList.lookup_erase] at kept
          cases kept
        · rw [NodeTable.get, AList.lookup_erase_ne same] at kept
          exact every other record kept
      · exact every
    · intro other record kept
      rcases mem_replace_cases (AList.mem_lookup_iff.mp kept) with replaced | old
      · cases replaced
        exact law.marked node false (every address node found)
      · exact every other record (AList.mem_lookup_iff.mpr old)

theorem cleanLoop_every (law : RecordLaw config mcsMax accepts holds) (current : Nat)
    (later : List Nat) {nodes : NodeTable} (every : nodes.Every holds) :
    (cleanLoop current later nodes).2.Every holds := by
  induction later generalizing current nodes with
  | nil => exact every
  | cons next rest inductionHypothesis =>
    exact inductionHypothesis next (cleanNode_every law current every)

theorem cleanUnusedNodes_every (law : RecordLaw config mcsMax accepts holds) {nodes : NodeTable}
    (every : nodes.Every holds) : (dectMacNodeCleanUnusedNodes nodes).Every holds := by
  unfold dectMacNodeCleanUnusedNodes
  split
  · exact every
  · rename_i first rest _
    have cleaned := cleanLoop_every law first rest every
    dsimp only
    split
    · exact cleaned
    · exact cleanNode_every law _ cleaned

/-! ### The handlers -/

theorem getPacketLength_inTable {dataSize mcs : Nat} {result : ErrorCode × Nat}
    (lookup : dectMacUtilsGetPacketLength dataSize mcs = .ok result) : mcs ≤ 4 := by
  unfold dectMacUtilsGetPacketLength at lookup
  split at lookup
  · cases lookup
  · rename_i row found
    have inside : mcs < 5 := (List.getElem?_eq_some_iff.mp found).1
    omega

theorem fitLoop_every (law : RecordLaw config mcsMax accepts holds)
    {receiverId dataSize fuel : Nat} {nodes after : NodeTable} {fit : Fit}
    (every : nodes.Every holds)
    (searched : fitLoop config mcsMax receiverId dataSize fuel nodes = .ok (fit, after)) :
    after.Every holds ∧ FitFrom holds fit := by
  induction fuel generalizing nodes with
  | zero => cases searched
  | succ fuel inductionHypothesis =>
    rw [fitLoop] at searched
    have reduced := reduceMcs_every law receiverId (-1) every
    generalize dectMacNodeReduceMcs mcsMax receiverId (-1) nodes = reduction at searched reduced
    obtain ⟨canAugmentMcs, reducedNodes⟩ := reduction
    have raised := addPower_every law receiverId 1 reduced
    obtain ⟨⟨mcs, readMcs⟩, gotMcs, searched⟩ := bind_ok.mp searched
    obtain ⟨⟨txPower, readPower⟩, gotPower, searched⟩ := bind_ok.mp searched
    obtain ⟨⟨found, packetLength⟩, lookup, searched⟩ := bind_ok.mp searched
    obtain ⟨tuned, holdsMcs, mcsRead⟩ := getOrCreate_reads law raised gotMcs (by dsimp only)
    have everyMcs := getOrCreate_keeps law raised gotMcs
    have powered := getOrCreate_reads law everyMcs gotPower rfl
    have everyPower := getOrCreate_keeps law everyMcs gotPower
    have widened : uint32 mcs = uint32 tuned.mcs := by rw [mcsRead]
    dsimp only at searched
    split at searched
    · exact inductionHypothesis everyPower searched
    · cases searched
      exact ⟨everyPower, powered,
        Or.inr ⟨tuned, holdsMcs, widened⟩, getPacketLength_inTable lookup⟩

theorem fitPacket_every (law : RecordLaw config mcsMax accepts holds)
    {receiverId dataSize : Nat} {nodes after : NodeTable} {fit : Fit} (every : nodes.Every holds)
    (fitted : fitPacket config mcsMax receiverId dataSize nodes = .ok (fit, after)) :
    after.Every holds ∧ FitFrom holds fit := by
  obtain ⟨⟨txPower, readPower⟩, gotPower, fitted⟩ := bind_ok.mp fitted
  obtain ⟨⟨mcs, readMcs⟩, gotMcs, fitted⟩ := bind_ok.mp fitted
  obtain ⟨⟨ret, packetLength⟩, lookup, fitted⟩ := bind_ok.mp fitted
  have powered := getOrCreate_reads law every gotPower rfl
  have everyPower := getOrCreate_keeps law every gotPower
  obtain ⟨tuned, holdsMcs, mcsRead⟩ := getOrCreate_reads law everyPower gotMcs (by dsimp only)
  have everyMcs := getOrCreate_keeps law everyPower gotMcs
  have widened : uint32 mcs = uint32 tuned.mcs := by rw [mcsRead]
  dsimp only at fitted
  split at fitted
  · obtain ⟨⟨found, foundNodes⟩, search, fitted⟩ := bind_ok.mp fitted
    have searched := fitLoop_every law everyMcs search
    dsimp only at fitted
    split at fitted
    · cases fitted
      exact ⟨searched.1, searched.2.txPower, Or.inl rfl, Nat.zero_le 4⟩
    · cases fitted
      exact searched
  · obtain ⟨⟨found, foundNodes⟩, search, fitted⟩ := bind_ok.mp fitted
    cases search
    dsimp only at fitted
    split at fitted
    · cases fitted
      exact ⟨everyMcs, powered, Or.inl rfl, Nat.zero_le 4⟩
    · cases fitted
      exact ⟨everyMcs, powered, Or.inr ⟨tuned, holdsMcs, widened⟩, getPacketLength_inTable lookup⟩

/-- The transmission parameters are built from records with the property. -/
theorem txConfig_every (law : RecordLaw config mcsMax accepts holds) {deviceId : Nat}
    {input : TxParams} {nodes after : NodeTable} {params : PhyTxParams}
    (every : nodes.Every holds)
    (configured : dectMacPhyHandlerTxConfig config mcsMax deviceId input nodes =
      .ok (params, after)) : after.Every holds ∧ BuiltFrom config holds params := by
  obtain ⟨⟨fit, fitted⟩, same, rest⟩ := bind_ok.mp configured
  obtain ⟨everyAfter, from_⟩ := fitPacket_every law every same
  cases rest
  refine ⟨everyAfter, fit, from_, deviceId, input, ?_⟩
  dsimp only
  split
  · exact Or.inl ⟨rfl, rfl⟩
  · exact Or.inr ⟨rfl, rfl⟩

/-- The records have the property, and so had those of all transmissions so far. -/
structure Phy.From (config : Config) (holds : Node → Prop) (phy : Phy) : Prop where
  nodes : phy.nodes.Every holds
  calls : CallsFrom config holds phy.modemCalls

theorem Phy.From.call {phy : Phy} (from_ : phy.From config holds) {nodes : NodeTable}
    {state : PhyState} {request : ModemRequest} (every : nodes.Every holds)
    (built : ∀ params, request.transmission = some params → BuiltFrom config holds params)
    (origin : Origin) (ret : Int) :
    ({ phy with nodes := nodes, currentState := state }.call request origin ret).From config
      holds := by
  refine ⟨every, fun call member => ?_⟩
  rcases List.mem_append.mp member with old | new
  · exact from_.calls call old
  · rw [List.mem_singleton.mp new]
    exact built

theorem txHarq_from {phy after : Phy}
    (law : RecordLaw config phy.capabilities.mcsMax accepts holds) {params : TxHarqParams}
    {origin : Origin} {ret : Int} (from_ : phy.From config holds)
    (sent : dectMacPhyHandlerTxHarq config params origin ret phy = .ok after) :
    after.From config holds := by
  obtain ⟨⟨trueParams, nodes⟩, configured, rest⟩ := bind_ok.mp sent
  obtain ⟨every, built⟩ := txConfig_every law from_.nodes configured
  cases rest
  refine from_.call every (fun request same => ?_) origin ret
  cases same
  exact built

theorem callHandler_from {phy after : Phy}
    (law : RecordLaw config phy.capabilities.mcsMax accepts holds) {operation : Operation}
    {origin : Origin} {ret : Int} (from_ : phy.From config holds)
    (called : callHandler config operation origin ret phy = .ok after) :
    after.From config holds := by
  cases operation with
  | tx params =>
    obtain ⟨⟨trueParams, nodes⟩, configured, rest⟩ := bind_ok.mp called
    obtain ⟨every, built⟩ := txConfig_every law from_.nodes configured
    cases rest
    refine from_.call every (fun request same => ?_) origin ret
    cases same
    exact built
  | txHarq params => exact txHarq_from law from_ called
  | txRx params =>
    obtain ⟨⟨trueParams, nodes⟩, configured, rest⟩ := bind_ok.mp called
    obtain ⟨every, built⟩ := txConfig_every law from_.nodes configured
    cases rest
    refine from_.call every (fun request same => ?_) origin ret
    cases same
    exact built
  | placeholder => cases called
  | unknown => cases called
  | linkConfig =>
    cases called
    exact from_
  | _ =>
    cases called
    refine from_.call from_.nodes (fun request same => ?_) origin ret
    cases same

theorem functionExecute_from {operation : Operation} {provenance : Provenance}
    {inPlace : Bool} {ret : Int} {queue queueAfter : Queue} {phy phyAfter : Phy}
    {code : ErrorCode} (law : RecordLaw config phy.capabilities.mcsMax accepts holds)
    (from_ : phy.From config holds)
    (executed : dectMacPhyHandlerQueueFunctionExecute config operation provenance inPlace ret
      queue phy = .ok (code, queueAfter, phyAfter)) : phyAfter.From config holds := by
  rcases executeSwitch_cases (functionExecute_cases executed).2 with
    ⟨_, rfl⟩ | ⟨_, rfl⟩ | ⟨_, called⟩
  · unfold Phy.awaitReply
    split
    · exact ⟨from_.nodes, from_.calls⟩
    · exact ⟨from_.nodes, from_.calls⟩
  · exact from_
  · exact callHandler_from law from_ called

/-! ### The system -/

theorem retransmit_from {index : Fin config.harqProcessCount} {system after : System config}
    {code : ErrorCode} (law : RecordLaw config system.phy.capabilities.mcsMax accepts holds)
    (from_ : system.phy.From config holds)
    (returned : dectMacHarqRetransmit index system = .ok (code, after)) :
    after.phy.From config holds := by
  obtain ⟨⟨putCode, queue⟩, _, rest⟩ := bind_ok.mp returned
  cases rest
  exact ⟨reduceMcs_every law _ _ (addPower_every law _ _ from_.nodes), from_.calls⟩

theorem pccCb_from {status : PccStatus} {header : PhyHeader} {ret : Int}
    {system after : System config}
    (law : RecordLaw config system.phy.capabilities.mcsMax accepts holds)
    (accepted : system.phy.nodes.LeavesOut
        (Type1.transmitterIdHi.get header <<< 8 ||| Type1.transmitterIdLo.get header) ∨
      accepts (wantedTxPower (wantedDbm config (status.rssi2.tdiv 2)
        (Type1.transmitPower.get header))) (wantedMcs (status.snr.tdiv 4)))
    (from_ : system.phy.From config holds)
    (received : dectMacPhyPccCb status header ret system = .ok after) :
    after.phy.From config holds := by
  obtain ⟨nodes, optimized, outcome⟩ := pccCb_cases received
  have tuned : nodes.Every holds := by
    obtain ⟨⟨code, optimizedNodes⟩, ran, rest⟩ := bind_ok.mp optimized
    have same : optimizedNodes = nodes := congrArg Phy.nodes (ok_inj rest)
    exact same ▸ optimize_every law from_.nodes accepted ran
  rcases outcome with ⟨_, code, handled⟩ | ⟨_, _, harq, _, rfl⟩ | ⟨_, _, rfl⟩
  · obtain ⟨harq, _, handled⟩ := bind_ok.mp handled
    obtain ⟨⟨cqi, read⟩, got, handled⟩ := bind_ok.mp handled
    obtain ⟨phy, sent, handled⟩ := bind_ok.mp handled
    obtain ⟨⟨putCode, queue⟩, _, handled⟩ := bind_ok.mp handled
    cases handled
    have readFrom : Phy.From config holds { system.phy with nodes := read } :=
      ⟨getOrCreate_keeps law tuned got, from_.calls⟩
    refine txHarq_from (show RecordLaw config _ accepts holds from ?_) readFrom sent
    exact law
  · exact ⟨tuned, from_.calls⟩
  · exact ⟨tuned, from_.calls⟩

/-- A completion callback changes no record and calls no handler. -/
theorem opCompleteCb_phy {err : PhyErr} {handle : BitVec 32} {system after : System config}
    (called : dectMacPhyOpCompleteCb err handle system = .ok after) :
    after.phy.nodes = system.phy.nodes ∧ after.phy.modemCalls = system.phy.modemCalls := by
  rcases opCompleteCb_cases called with ⟨_, _, rfl⟩ | ⟨_, rfl⟩ | ⟨_, _, _, rfl⟩ |
    ⟨_, _, _, _, _, rfl⟩ | ⟨_, _, _, rfl⟩ | ⟨_, _, _, rfl⟩ <;> exact ⟨rfl, rfl⟩

/-- What an event must bring for a property to survive it: a capability within the bound, and a
reception whose wanted values are accepted, or that leaves no record of the sender. -/
def Event.Lawful (bound : Nat → Prop) (accepts : Nat → Int → Prop) (system : System config) :
    Event config → Prop
  | .management _ _ capability => bound capability.mcsMax
  | .pcc status header _ =>
    system.phy.nodes.LeavesOut
      (Type1.transmitterIdHi.get header <<< 8 ||| Type1.transmitterIdLo.get header) ∨
    accepts (wantedTxPower (wantedDbm config (status.rssi2.tdiv 2)
      (Type1.transmitPower.get header))) (wantedMcs (status.snr.tdiv 4))
  | _ => True

/-- A capability report of the modem is within a bound. -/
def Event.Reports (bound : Nat → Prop) : Event config → Prop
  | .management _ _ capability => bound capability.mcsMax
  | _ => True

/-- Where every wanted value is accepted, only the capability reports restrict the events. -/
theorem Event.Reports.lawful {bound : Nat → Prop} {system : System config} {event : Event config}
    (reports : event.Reports bound)
    (always : ∀ dbm snr, accepts (wantedTxPower dbm) (wantedMcs snr)) :
    event.Lawful bound accepts system := by
  cases event with
  | management position err capability => exact reports
  | pcc status header ret => exact Or.inr (always _ _)
  | _ => trivial

/-- Every step keeps the bound on the largest MCS, and the property of the records and of the
transmissions. -/
theorem step_from {bound : Nat → Prop}
    (law : ∀ mcsMax, bound mcsMax → RecordLaw config mcsMax accepts holds)
    {system after : System config} {event : Event config}
    (lawful : event.Lawful bound accepts system)
    (bounded : bound system.phy.capabilities.mcsMax) (from_ : system.phy.From config holds)
    (stepped : step system event = .ok after) :
    after.phy.From config holds := by
  have now := law _ bounded
  have kept {phy : Phy} (nodes : phy.nodes = system.phy.nodes)
      (calls : phy.modemCalls = system.phy.modemCalls) : phy.From config holds :=
    ⟨nodes ▸ from_.nodes, calls ▸ from_.calls⟩
  cases event with
  | transmit params heap =>
    obtain ⟨⟨code, transmitted⟩, returned, rest⟩ := bind_ok.mp stepped
    cases rest
    rcases transmit_cases returned with ⟨_, _, rfl⟩ | ⟨_, _, _, _, _, _, rfl⟩ |
      ⟨_, _, _, _, _, _, rfl⟩ <;> exact from_
  | direct operation ret =>
    obtain ⟨phy, called, rest⟩ := bind_ok.mp stepped
    cases rest
    exact callHandler_from now from_ called
  | execDispatch ret =>
    dsimp only [step] at stepped
    split at stepped
    · obtain ⟨⟨code, queue, phy⟩, executed, rest⟩ := bind_ok.mp stepped
      cases rest
      exact functionExecute_from now from_ executed
    · cases stepped
  | retryTimer ret =>
    dsimp only [step] at stepped
    split at stepped
    · obtain ⟨⟨code, queue, phy⟩, executed, rest⟩ := bind_ok.mp stepped
      cases rest
      exact functionExecute_from now from_ executed
    · cases stepped
  | workExpired index =>
    dsimp only [step] at stepped
    split at stepped
    · rcases workHandler_cases stepped with ⟨_, code, returned⟩ | ⟨_, _, _, rfl⟩
      · refine retransmit_from (show RecordLaw config _ accepts holds from ?_) ?_ returned
        · exact now
        · exact from_
      · exact from_
    · cases stepped
  | opComplete position err =>
    dsimp only [step] at stepped
    split at stepped
    · split at stepped
      · obtain ⟨nodes, calls⟩ := opCompleteCb_phy stepped
        exact kept nodes calls
      · cases stepped
    · cases stepped
  | rssiReport position =>
    dsimp only [step] at stepped
    split at stepped
    · split at stepped
      · cases stepped
        exact kept rfl rfl
      · cases stepped
    · cases stepped
  | management position err capability =>
    dsimp only [step] at stepped
    split at stepped
    · unfold managementStep dectMacPhyCapabilityGetCb managementCb dectMacPhyRxStopCb at stepped
      split at stepped
      · cases stepped
        split <;> exact kept rfl rfl
      · cases stepped
        split <;> exact kept rfl rfl
      · cases stepped
        split <;> exact kept rfl rfl
      · cases stepped
        split <;> exact kept rfl rfl
      · cases stepped
        exact kept rfl rfl
      · cases stepped
    · cases stepped
  | pcc status header ret => exact pccCb_from now lawful from_ stepped
  | cleanNodes =>
    cases stepped
    exact ⟨cleanUnusedNodes_every now from_.nodes, from_.calls⟩
  | queuePut operation priority =>
    obtain ⟨⟨code, queue⟩, _, rest⟩ := bind_ok.mp stepped
    cases rest
    exact from_
  | execTakePhy =>
    obtain ⟨queue, _, rest⟩ := bind_ok.mp stepped
    cases rest
    exact kept rfl rfl
  | _ =>
    obtain ⟨queue, _, rest⟩ := bind_ok.mp stepped
    cases rest
    exact from_

/-- Executing an operation leaves the capabilities alone. -/
theorem Execution.capabilities {operation : Operation} {provenance : Provenance} {ret : Int}
    {system after : System config}
    (execution : Execution config operation provenance ret system after) :
    after.phy.capabilities = system.phy.capabilities := by
  cases execution with
  | placeholder =>
    unfold Phy.awaitReply
    split <;> rfl
  | nothing => rfl
  | call => rfl

/-- Only a capability report changes the capabilities. -/
theorem step_capabilities {system after : System config} {event : Event config}
    (sound : system.harq.Sound) (stepped : step system event = .ok after) :
    after.phy.capabilities = system.phy.capabilities ∨
      ∃ position err, event = .management position err after.phy.capabilities := by
  have action := action_of_step sound stepped
  cases action with
  | managementGive position capability capabilities op found management =>
    dsimp only [step] at stepped
    rw [found] at stepped
    dsimp only [managementStep] at stepped
    rcases management with same | same | same | same <;> rw [same] at stepped
    · obtain rfl : capability = capabilities :=
        congrArg (fun system : System config => system.phy.capabilities) (ok_inj stepped)
      exact Or.inr ⟨position, .success, rfl⟩
    · exact Or.inl (congrArg (fun system : System config => system.phy.capabilities)
        (ok_inj stepped)).symm
    · exact Or.inl (congrArg (fun system : System config => system.phy.capabilities)
        (ok_inj stepped)).symm
    · exact Or.inl (congrArg (fun system : System config => system.phy.capabilities)
        (ok_inj stepped)).symm
  | execDispatch _ item ret executing execution => exact Or.inl execution.capabilities
  | retryTimer _ ret armed execution => exact Or.inl execution.capabilities
  | _ => exact Or.inl rfl

/-- In every run from boot whose events are lawful, the records and the transmissions have the
property, at the end and before each step. -/
theorem records_of_run {bound : Nat → Prop}
    (law : ∀ mcsMax, bound mcsMax → RecordLaw config mcsMax accepts holds)
    {start final : System config}
    {steps : List (Transition.Step (System config) (Event config))} (booted : Booted start)
    (run : Run start steps final) (zero : bound 0)
    (lawful : ∀ taken ∈ steps, taken.label.Lawful bound accepts taken.before) :
    (bound final.phy.capabilities.mcsMax ∧ final.phy.From config holds) ∧
      ∀ taken ∈ steps, bound taken.before.phy.capabilities.mcsMax ∧
        taken.before.phy.From config holds := by
  have kept : ∀ (before : System config) (event : Event config) (after : System config),
      event.Lawful bound accepts before →
      before.harq.Sound ∧ bound before.phy.capabilities.mcsMax ∧ before.phy.From config holds →
      Transition.stepOf step before event after →
      after.harq.Sound ∧ bound after.phy.capabilities.mcsMax ∧ after.phy.From config holds := by
    rintro before event after permitted ⟨sound, bounded, from_⟩ stepped
    refine ⟨((action_of_step sound stepped).move sound).1.sound sound, ?_,
      step_from law permitted bounded from_ stepped⟩
    rcases step_capabilities sound stepped with same | ⟨position, err, rfl⟩
    · rw [same]
      exact bounded
    · exact permitted
  have base : start.harq.Sound ∧ bound start.phy.capabilities.mcsMax ∧
      start.phy.From config holds := by
    obtain ⟨deviceId, allocations, _, rfl⟩ := booted
    refine ⟨boot_sound config, zero, fun address node found => ?_, fun call member => ?_⟩
    · cases found
    · cases member
  have ends := run.invariant _ (fun system event => event.Lawful bound accepts system) kept lawful
    base
  have passes := run.invariant_before _ (fun system event => event.Lawful bound accepts system)
    kept lawful base
  exact ⟨ends.2, fun taken member => (passes taken member).2⟩

end Operations

/-! ### Powers that a header can carry -/

/-- The largest power code a record is ever given. -/
def powerLimit : Nat := 13

/-- Every record has a power code within the limit. -/
def NodeTable.Powered (nodes : NodeTable) : Prop :=
  ∀ address node, nodes.get address = some node → node.txPower ≤ powerLimit

/-- A choice between two values within a bound is within the bound. -/
theorem choice_le {first second bound : Nat} (condition : Prop) [Decidable condition]
    (firstLe : first ≤ bound) (secondLe : second ≤ bound) :
    (if condition then first else second) ≤ bound := by
  split
  · exact firstLe
  · exact secondLe

theorem wantedTxPower_le (dbm : Int) : wantedTxPower dbm ≤ powerLimit := by
  unfold wantedTxPower
  iterate 15 refine choice_le _ (by decide) ?_
  decide

/-- The law of the records whose power is within the limit. -/
theorem powered_law (config : Config) (mcsMax : Nat) :
    RecordLaw config mcsMax (fun txPower _ => txPower ≤ powerLimit)
      (fun node => node.txPower ≤ powerLimit) where
  created := fun _ => config.txPower_range
  marked := fun _ _ within => within
  capped := fun _ _ capped _ => le_trans capped config.txPower_range
  clamped := fun _ _ _ within => within
  tuned := fun _ _ _ accepted _ => accepted

/-- The power read for a packet is within the limit. -/
theorem fitPacket_powered {receiverId dataSize : Nat} {nodes after : NodeTable} {fit : Fit}
    (powered : nodes.Powered)
    (fitted : fitPacket config mcsMax receiverId dataSize nodes = .ok (fit, after)) :
    fit.txPower ≤ powerLimit := by
  obtain ⟨node, within, same⟩ :=
    (fitPacket_every (powered_law config mcsMax) powered fitted).2.txPower
  rw [same]
  exact within

/-- Every record of a reachable node table has a power code within the limit. -/
theorem powered_of_run {start final : System config}
    {steps : List (Transition.Step (System config) (Event config))} (booted : Booted start)
    (run : Run start steps final) : final.phy.nodes.Powered := by
  have lawful : ∀ taken ∈ steps,
      taken.label.Lawful (fun _ => True) (fun txPower _ => txPower ≤ powerLimit)
        taken.before := by
    intro taken _
    unfold Event.Lawful
    split
    · trivial
    · exact Or.inr (wantedTxPower_le _)
    · trivial
  exact (records_of_run (fun mcsMax _ => powered_law config mcsMax) booted run trivial
    lawful).1.2.nodes

end DectHarq
