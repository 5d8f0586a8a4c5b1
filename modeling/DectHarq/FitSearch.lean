/-
This file follows the search for packet parameters that fit the data.

The search starts from the MCS of the receiver's record, or from the default when there
is none, and raises it by one until a row of the length table has a capacity that
suffices or the largest MCS of the modem is reached. What it chooses is therefore
decided by the record before the search: the data fits the chosen row exactly when it
fits some row that the search can reach.
-/

import DectHarq.NodeRecords

namespace DectHarq

variable {config : Config} {mcsMax : Nat}

/-! ### The MCS of a receiver -/

/-- The MCS that is read for a receiver: that of its record, or the default. -/
def startingMcs (mcsMax : Nat) (nodes : NodeTable) (address : Nat) : Int :=
  match nodes.get address with
  | some node => node.mcs
  | none => int8 mcsMax

theorem startingMcs_of_get {nodes : NodeTable} {address : Nat} {node : Node}
    (found : nodes.get address = some node) : startingMcs mcsMax nodes address = node.mcs := by
  unfold startingMcs
  rw [found]

theorem startingMcs_of_none {nodes : NodeTable} {address : Nat}
    (missing : nodes.get address = none) :
    startingMcs mcsMax nodes address = int8 mcsMax := by
  unfold startingMcs
  rw [missing]

/-- A getter changes the MCS of no receiver: a record it creates has the default. -/
theorem getOrCreate_startingMcs {Value : Type} {read : Node → Value} {default value : Value}
    {address : Nat} {nodes after : NodeTable}
    (got : getOrCreate config mcsMax read default address nodes = .ok (value, after)) :
    startingMcs mcsMax after address = startingMcs mcsMax nodes address := by
  unfold getOrCreate at got
  split at got
  · rename_i node found
    cases got
    unfold startingMcs
    rw [NodeTable.get_put_self, found]
  · rename_i missing
    rw [startingMcs_of_none missing]
    split at got
    · rename_i code created same
      cases got
      have failed : startingMcs mcsMax nodes.allocated address = int8 mcsMax := by
        unfold startingMcs
        rw [NodeTable.get_allocated, missing]
      unfold dectMacNodeCreateNode at same
      split at same
      · cases same
      · cases same
        unfold startingMcs
        rw [NodeTable.get_put_self]
      · cases same
        exact failed
      · cases same
        exact failed
      · cases same
        exact failed
    · cases got

theorem getOrCreate_value {Value : Type} {read : Node → Value} {default value : Value}
    {address : Nat} {nodes after : NodeTable}
    (got : getOrCreate config mcsMax read default address nodes = .ok (value, after)) :
    value = ((nodes.get address).map read).getD default := by
  unfold getOrCreate at got
  split at got
  · rename_i node found
    cases got
    rw [found]
    rfl
  · rename_i missing
    split at got
    · cases got
      rw [missing]
      rfl
    · cases got

theorem getMcs_value {mcs : Int} {address : Nat} {nodes after : NodeTable}
    (got : dectMacNodeGetMcs config mcsMax address nodes = .ok (mcs, after)) :
    mcs = startingMcs mcsMax nodes address := by
  have value : mcs = ((nodes.get address).map Node.mcs).getD (int8 mcsMax) :=
    getOrCreate_value got
  unfold startingMcs
  rw [value]
  cases nodes.get address with
  | none => exact Option.getD_none
  | some node => rfl

/-- The MCS of a receiver is that of some record with every lawful property. -/
theorem startingMcs_reads {accepts : Nat → Int → Prop} {holds : Node → Prop} {nodes : NodeTable}
    (law : RecordLaw config mcsMax accepts holds) (every : nodes.Every holds) (address : Nat) :
    ∃ node, holds node ∧ startingMcs mcsMax nodes address = node.mcs := by
  cases found : nodes.get address with
  | none =>
    refine ⟨_, law.created address, ?_⟩
    rw [startingMcs_of_none found]
  | some node => exact ⟨node, every address node found, startingMcs_of_get found⟩

theorem addPower_startingMcs (config : Config) (mcsMax address : Nat) (power : Int)
    (nodes : NodeTable) :
    startingMcs mcsMax (dectMacNodeAddPower config address power nodes).2 address =
      startingMcs mcsMax nodes address := by
  unfold startingMcs
  rw [dectMacNodeAddPower, get_updateNode]
  cases nodes.get address <;> rfl

/-- Raising the MCS by one succeeds up to the largest MCS, and otherwise leaves the largest one
or the default. -/
theorem raiseMcs_cases {address : Nat} {nodes : NodeTable}
    (low : 0 ≤ startingMcs mcsMax nodes address) (high : startingMcs mcsMax nodes address ≤ 4) :
    let raised := dectMacNodeReduceMcs mcsMax address (-1) nodes
    (raised.1 = .ok ∧ startingMcs mcsMax nodes address + 1 ≤ mcsMax ∧
        startingMcs mcsMax raised.2 address = startingMcs mcsMax nodes address + 1) ∨
      (raised.1 ≠ .ok ∧ startingMcs mcsMax raised.2 address = int8 mcsMax ∧
        ((mcsMax : Int) ≤ startingMcs mcsMax nodes address ∨
          startingMcs mcsMax nodes address = int8 mcsMax)) := by
  intro raised
  cases found : nodes.get address with
  | none =>
    have unchanged : raised = (.nodeNotFound, nodes) := by
      show updateNode _ address nodes = _
      unfold updateNode
      rw [found]
    have default : startingMcs mcsMax nodes address = int8 mcsMax := startingMcs_of_none found
    rw [unchanged]
    exact Or.inr ⟨nofun, default, Or.inr default⟩
  | some node =>
    rw [startingMcs_of_get found] at low high ⊢
    have sum : int8 (node.mcs - int8 (-1)) = node.mcs + 1 := by
      rw [show int8 (-1) = -1 from rfl, Int.sub_neg]
      exact int8_eq_self (by omega) (by omega)
    have stored : raised = updateNode (fun node =>
        if node.mcs + 1 < 0 then ({ node with mcs := 0 }, .minMcsReached)
        else if node.mcs + 1 > mcsMax then ({ node with mcs := int8 mcsMax }, .maxMcsReached)
        else ({ node with mcs := node.mcs + 1 }, .ok)) address nodes := by
      show updateNode _ address nodes = _
      unfold updateNode
      rw [found]
      dsimp only
      rw [sum]
    rw [stored]
    unfold updateNode
    rw [found]
    dsimp only
    rw [if_neg (show ¬ node.mcs + 1 < 0 by omega)]
    split
    · rename_i above
      refine Or.inr ⟨nofun, ?_, Or.inl (by omega)⟩
      unfold startingMcs
      rw [NodeTable.get_put_self]
    · rename_i within
      refine Or.inl ⟨rfl, Int.not_lt.mp within, ?_⟩
      unfold startingMcs
      rw [NodeTable.get_put_self]

/-! ### The length table -/

/-- The largest capacity of the table. -/
def capacityLimit : Nat := 700

/-- Some packet length holds the data at an MCS. -/
def Fits (dataSize mcs : Nat) : Prop :=
  ∃ capacity ∈ bytePerMcsAndLength.getD mcs [], (dataSize : Int) ≤ capacity

instance (dataSize mcs : Nat) : Decidable (Fits dataSize mcs) :=
  inferInstanceAs (Decidable (∃ capacity ∈ bytePerMcsAndLength.getD mcs [], _))

/-- Every row starts with a capacity, and holds capacities or the filler. -/
theorem bytePerMcsAndLength_rows : ∀ row ∈ bytePerMcsAndLength,
    (∃ first ∈ row.head?, (0 : Int) ≤ first) ∧
      ∀ capacity ∈ row, -1 ≤ capacity ∧ capacity ≤ capacityLimit := by
  decide

theorem Fits.le_limit {dataSize mcs : Nat} (fits : Fits dataSize mcs) :
    dataSize ≤ capacityLimit := by
  obtain ⟨capacity, member, enough⟩ := fits
  rw [List.getD_eq_getElem?_getD] at member
  cases found : bytePerMcsAndLength[mcs]? with
  | none =>
    rw [found] at member
    cases member
  | some row =>
    rw [found] at member
    have inTable : row ∈ bytePerMcsAndLength := List.mem_of_getElem? found
    have bound := ((bytePerMcsAndLength_rows row inTable).2 capacity member).2
    omega

theorem int16_eq_self {value : Nat} (small : value ≤ capacityLimit) : int16 value = value := by
  unfold int16 capacityLimit at *
  rw [Int.bmod_eq_of_le] <;> omega

/-- The lookup reads outside the table for an MCS above 4 only. -/
theorem getPacketLength_outOfBounds_iff (dataSize mcs : Nat) :
    dectMacUtilsGetPacketLength dataSize mcs = .error .outOfBounds ↔ 4 < mcs := by
  unfold dectMacUtilsGetPacketLength
  cases found : bytePerMcsAndLength[mcs]? with
  | none =>
    have outside : 5 ≤ mcs := List.getElem?_eq_none_iff.mp found
    exact iff_of_true rfl outside
  | some row =>
    have inside : mcs < 5 := (List.getElem?_eq_some_iff.mp found).1
    exact iff_of_false nofun (by omega)

/-- A search for data within the capacities succeeds exactly when they fit. -/
theorem packetLengthLoop_code_iff (size : Int) (row : List Int) (start : Nat) :
    (packetLengthLoop size row start).1 = .ok ↔ ∃ capacity ∈ row, size ≤ capacity := by
  constructor
  · intro success
    obtain ⟨offset, _, capacity, position, enough⟩ :=
      packetLengthLoop_ok (Prod.ext success rfl : packetLengthLoop size row start = (.ok, _))
    exact ⟨capacity, List.mem_of_getElem? position, enough⟩
  · rintro ⟨capacity, member, enough⟩
    obtain ⟨found, success⟩ := packetLengthLoop_of_mem start member enough
    rw [success]

/-- A search that fails leaves the position after the row. -/
theorem packetLengthLoop_failed {size : Int} {row : List Int} {start : Nat}
    (failed : (packetLengthLoop size row start).1 ≠ .ok) :
    (packetLengthLoop size row start).2 = start + row.length := by
  induction row generalizing start with
  | nil => rfl
  | cons capacity rest inductionHypothesis =>
    rw [packetLengthLoop] at failed ⊢
    split at failed
    · exact absurd rfl failed
    · rename_i small
      rw [if_neg small, inductionHypothesis failed, List.length_cons]
      omega

theorem getPacketLength_ok {dataSize mcs length : Nat} {code : ErrorCode}
    (lookup : dectMacUtilsGetPacketLength dataSize mcs = .ok (code, length)) :
    mcs ≤ 4 ∧ (dataSize ≤ capacityLimit → (code = .ok ↔ Fits dataSize mcs)) := by
  refine ⟨getPacketLength_inTable lookup, fun small => ?_⟩
  unfold dectMacUtilsGetPacketLength at lookup
  split at lookup
  · cases lookup
  · rename_i row found
    have loop := ok_inj lookup
    rw [int16_eq_self small] at loop
    have searched := packetLengthLoop_code_iff dataSize row 0
    rw [loop] at searched
    unfold Fits
    rw [List.getD_eq_getElem?_getD, found]
    exact searched

/-! ### The passes of the search -/

/-- What a pass of the search does before its lookup: whether the MCS was raised, the MCS and the
power it reads, and the table it leaves. -/
structure FitPass where
  canAugmentMcs : ErrorCode
  mcs : Int
  txPower : Nat
  nodes : NodeTable

/-- The part of a pass before its lookup. -/
def fitPass (config : Config) (mcsMax receiverId : Nat) (nodes : NodeTable) :
    Except Stop FitPass := do
  let (canAugmentMcs, reduced) := dectMacNodeReduceMcs mcsMax receiverId (-1) nodes
  let (_, raised) := dectMacNodeAddPower config receiverId 1 reduced
  let (mcs, readMcs) ← dectMacNodeGetMcs config mcsMax receiverId raised
  let (txPower, readPower) ← dectMacNodeGetTxPower config mcsMax receiverId readMcs
  .ok ⟨canAugmentMcs, mcs, txPower, readPower⟩

theorem fitLoop_succ (receiverId dataSize fuel : Nat) (nodes : NodeTable) :
    fitLoop config mcsMax receiverId dataSize (fuel + 1) nodes =
      fitPass config mcsMax receiverId nodes >>= fun pass =>
        dectMacUtilsGetPacketLength dataSize (uint32 pass.mcs) >>= fun lookup =>
          if pass.canAugmentMcs = .ok ∧ lookup.1 ≠ .ok then
            fitLoop config mcsMax receiverId dataSize fuel pass.nodes
          else .ok (⟨pass.txPower, uint32 pass.mcs, lookup.2⟩, pass.nodes) := by
  rw [fitLoop]
  unfold fitPass
  simp only [bind_assoc]
  rfl

/-- What a pass reads: one MCS more, or after a failure to raise it the largest one. -/
theorem fitPass_ok {receiverId : Nat} {nodes : NodeTable} {pass : FitPass}
    (low : 0 ≤ startingMcs mcsMax nodes receiverId)
    (high : startingMcs mcsMax nodes receiverId ≤ 4)
    (passed : fitPass config mcsMax receiverId nodes = .ok pass) :
    startingMcs mcsMax pass.nodes receiverId = pass.mcs ∧
      ((pass.canAugmentMcs = .ok ∧ startingMcs mcsMax nodes receiverId + 1 ≤ mcsMax ∧
          pass.mcs = startingMcs mcsMax nodes receiverId + 1) ∨
        (pass.canAugmentMcs ≠ .ok ∧ pass.mcs = int8 mcsMax ∧
          ((mcsMax : Int) ≤ startingMcs mcsMax nodes receiverId ∨
            startingMcs mcsMax nodes receiverId = int8 mcsMax))) := by
  have outcome := raiseMcs_cases low high
  unfold fitPass at passed
  generalize dectMacNodeReduceMcs mcsMax receiverId (-1) nodes = raised at passed outcome
  obtain ⟨code, reduced⟩ := raised
  have powered := addPower_startingMcs config mcsMax receiverId 1 reduced
  dsimp only at passed
  generalize dectMacNodeAddPower config receiverId 1 reduced = augmented at passed powered
  obtain ⟨⟨value, readMcs⟩, gotMcs, passed⟩ := bind_ok.mp passed
  obtain ⟨⟨power, readPower⟩, gotPower, passed⟩ := bind_ok.mp passed
  obtain rfl := ok_inj passed
  have read := (getMcs_value gotMcs).trans powered
  have unchanged :
      startingMcs mcsMax readPower receiverId = startingMcs mcsMax reduced receiverId := by
    rw [getOrCreate_startingMcs gotPower, getOrCreate_startingMcs gotMcs, powered]
  dsimp only at outcome ⊢
  rw [unchanged, read]
  exact ⟨rfl, outcome⟩

/-- A getter stops at an allocation without memory only. -/
theorem getOrCreate_error {Value : Type} {read : Node → Value} {default : Value} {address : Nat}
    {nodes : NodeTable} {stop : Stop}
    (failed : getOrCreate config mcsMax read default address nodes = .error stop) :
    stop = .nullPointer := by
  unfold getOrCreate dectMacNodeCreateNode at failed
  split at failed
  · cases failed
  · split at failed
    · cases failed
    · rename_i other same
      split at same
      · cases same
        exact (Except.error.inj failed).symm
      all_goals cases same

theorem fitPass_error {receiverId : Nat} {nodes : NodeTable} {stop : Stop}
    (failed : fitPass config mcsMax receiverId nodes = .error stop) : stop = .nullPointer := by
  unfold fitPass at failed
  dsimp only at failed
  rcases bind_error.mp failed with first | ⟨⟨mcs, readMcs⟩, _, rest⟩
  · exact getOrCreate_error first
  · rcases bind_error.mp rest with second | ⟨⟨txPower, readPower⟩, _, done⟩
    · exact getOrCreate_error second
    · cases done

/-! ### What the search chooses -/

/-- The MCS values that a search tries: the one it starts from, the larger ones up to the largest
of the modem, and this one. -/
def Tries (mcsMax : Nat) (start : Int) (mcs : Nat) : Prop :=
  (mcs : Int) = start ∨ (start < mcs ∧ mcs ≤ mcsMax) ∨ mcs = mcsMax

/-- The packet parameters that a search ends with: they were tried and looked up, and when the
data does not fit there, it fits nowhere that the search tries. -/
structure Chosen (mcsMax dataSize : Nat) (start : Int) (fit : Fit) : Prop where
  tried : Tries mcsMax start fit.dfMcs
  lookedUp : ∃ code, dectMacUtilsGetPacketLength dataSize fit.dfMcs = .ok (code, fit.packetLength)
  last : ¬ Fits dataSize fit.dfMcs → ∀ mcs, Tries mcsMax start mcs → ¬ Fits dataSize mcs

/-- A byte that indexes the table is not widened from a negative value. -/
theorem uint32_index {value : Int} (low : -128 ≤ value) (high : value < 256)
    (index : uint32 value ≤ 4) : (uint32 value : Int) = value := by
  unfold uint32 at *
  omega

theorem int8_byte {value : Nat} (byte : value < 256) :
    -128 ≤ int8 value ∧ int8 value < 128 ∧ (0 ≤ int8 value → int8 value = value) := by
  unfold int8
  rw [Int.bmod_eq_emod]
  split <;> omega

/-- A search that starts from an MCS where the data does not fit chooses among those it tries. -/
theorem fitLoop_chooses {receiverId dataSize fuel : Nat} {nodes after : NodeTable} {fit : Fit}
    (byte : mcsMax < 256) (low : 0 ≤ startingMcs mcsMax nodes receiverId)
    (high : startingMcs mcsMax nodes receiverId ≤ 4)
    (unfit : ∀ mcs : Nat, (mcs : Int) = startingMcs mcsMax nodes receiverId → ¬ Fits dataSize mcs)
    (searched : fitLoop config mcsMax receiverId dataSize fuel nodes = .ok (fit, after)) :
    Chosen mcsMax dataSize (startingMcs mcsMax nodes receiverId) fit := by
  induction fuel generalizing nodes with
  | zero => cases searched
  | succ fuel inductionHypothesis =>
    rw [fitLoop_succ] at searched
    obtain ⟨pass, passed, searched⟩ := bind_ok.mp searched
    obtain ⟨⟨code, length⟩, lookup, searched⟩ := bind_ok.mp searched
    obtain ⟨unchanged, outcome⟩ := fitPass_ok low high passed
    obtain ⟨inTable, codeIff⟩ := getPacketLength_ok lookup
    generalize startingMcs mcsMax nodes receiverId = start at *
    rcases outcome with ⟨raised, within, value⟩ | ⟨stuck, value, top⟩
    · -- the MCS was raised: the search may go on from there
      have index : (uint32 pass.mcs : Int) = start + 1 := by
        rw [← value]
        exact uint32_index (by omega) (by omega) inTable
      dsimp only at searched
      split at searched
      · rename_i again
        have stillUnfit (mcs : Nat) (same : (mcs : Int) = pass.mcs) : ¬ Fits dataSize mcs := by
          intro fits
          have equal : mcs = uint32 pass.mcs := by omega
          rw [equal] at fits
          exact again.2 ((codeIff fits.le_limit).mpr fits)
        have later := inductionHypothesis (by omega) (by omega)
          (fun mcs same => stillUnfit mcs (same.trans unchanged)) searched
        rw [unchanged, value] at later
        refine ⟨?_, later.lookedUp, fun failed mcs tried => ?_⟩
        · rcases later.tried with same | ⟨above, below⟩ | same
          · exact Or.inr (Or.inl ⟨by omega, by omega⟩)
          · exact Or.inr (Or.inl ⟨by omega, below⟩)
          · exact Or.inr (Or.inr same)
        · rcases tried with same | ⟨above, below⟩ | same
          · exact unfit mcs same
          · refine later.last failed mcs ?_
            by_cases next : (mcs : Int) = start + 1
            · exact Or.inl next
            · exact Or.inr (Or.inl ⟨by omega, below⟩)
          · exact later.last failed mcs (Or.inr (Or.inr same))
      · rename_i found
        obtain rfl := (Prod.mk.inj (ok_inj searched)).1
        have success : code = .ok := by
          by_contra failed
          exact found ⟨raised, failed⟩
        refine ⟨Or.inr (Or.inl ⟨by dsimp only; omega, by dsimp only; omega⟩), ⟨code, lookup⟩,
          fun failed mcs _ fits => ?_⟩
        exact failed ((codeIff fits.le_limit).mp success)
    · -- the MCS could not be raised: the search ends at the largest one
      have byteFacts := int8_byte byte
      have index : (uint32 pass.mcs : Int) = int8 mcsMax := by
        rw [← value]
        exact uint32_index (by omega) (by omega) inTable
      have largest : uint32 pass.mcs = mcsMax := by omega
      dsimp only at searched
      rw [if_neg fun again => stuck again.1] at searched
      obtain rfl := (Prod.mk.inj (ok_inj searched)).1
      refine ⟨Or.inr (Or.inr largest), ⟨code, lookup⟩, fun failed mcs tried => ?_⟩
      rcases tried with same | ⟨above, below⟩ | same
      · exact unfit mcs same
      · omega
      · rw [same, ← largest]
        exact failed

/-- The parameters of a packet with data were chosen from the MCS of its receiver. -/
theorem fitPacket_chooses {receiverId dataSize : Nat} {nodes after : NodeTable} {fit : Fit}
    (byte : mcsMax < 256) (low : -128 ≤ startingMcs mcsMax nodes receiverId)
    (high : startingMcs mcsMax nodes receiverId < 256) (payload : dataSize ≠ 0)
    (fitted : fitPacket config mcsMax receiverId dataSize nodes = .ok (fit, after)) :
    Chosen mcsMax dataSize (startingMcs mcsMax nodes receiverId) fit := by
  obtain ⟨⟨txPower, readPower⟩, gotPower, fitted⟩ := bind_ok.mp fitted
  obtain ⟨⟨mcs, readMcs⟩, gotMcs, fitted⟩ := bind_ok.mp fitted
  obtain ⟨⟨code, packetLength⟩, lookup, fitted⟩ := bind_ok.mp fitted
  have read : mcs = startingMcs mcsMax nodes receiverId := by
    rw [getMcs_value gotMcs, getOrCreate_startingMcs gotPower]
  have unchanged : startingMcs mcsMax readMcs receiverId = mcs := by
    rw [getOrCreate_startingMcs gotMcs, ← getMcs_value gotMcs]
  obtain ⟨inTable, codeIff⟩ := getPacketLength_ok lookup
  rw [← read] at low high ⊢
  have index := uint32_index low high inTable
  dsimp only at fitted
  split at fitted
  · rename_i failed
    obtain ⟨⟨found, foundNodes⟩, searched, fitted⟩ := bind_ok.mp fitted
    dsimp only at fitted
    obtain rfl := (Prod.mk.inj (ok_inj fitted)).1
    rw [← unchanged]
    refine fitLoop_chooses byte (by omega) (by omega) (fun other same fits => ?_) searched
    have equal : other = uint32 mcs := by omega
    rw [equal] at fits
    exact failed ((codeIff fits.le_limit).mpr fits)
  · rename_i success
    obtain ⟨⟨found, foundNodes⟩, searched, fitted⟩ := bind_ok.mp fitted
    cases searched
    dsimp only at fitted
    obtain rfl := (Prod.mk.inj (ok_inj fitted)).1
    refine ⟨Or.inl index, ⟨code, lookup⟩, fun unfit _ _ fits => ?_⟩
    exact unfit ((codeIff fits.le_limit).mp (not_not.mp success))

/-! ### The lookups of a search -/

/-- The MCS values that the loop of a search looks up. -/
def fitLoopLookups (config : Config) (mcsMax receiverId dataSize : Nat) :
    Nat → NodeTable → List Nat
  | 0, _ => []
  | fuel + 1, nodes =>
    match fitPass config mcsMax receiverId nodes with
    | .error _ => []
    | .ok pass =>
      uint32 pass.mcs ::
        match dectMacUtilsGetPacketLength dataSize (uint32 pass.mcs) with
        | .error _ => []
        | .ok (found, _) =>
          if pass.canAugmentMcs = .ok ∧ found ≠ .ok then
            fitLoopLookups config mcsMax receiverId dataSize fuel pass.nodes
          else []

/-- The MCS values that the choice of packet parameters looks up. -/
def fitPacketLookups (config : Config) (mcsMax receiverId dataSize : Nat) (nodes : NodeTable) :
    List Nat :=
  match dectMacNodeGetTxPower config mcsMax receiverId nodes with
  | .error _ => []
  | .ok (_, readPower) =>
    match dectMacNodeGetMcs config mcsMax receiverId readPower with
    | .error _ => []
    | .ok (mcs, readMcs) =>
      uint32 mcs ::
        match dectMacUtilsGetPacketLength dataSize (uint32 mcs) with
        | .error _ => []
        | .ok (ret, _) =>
          if ret ≠ .ok then fitLoopLookups config mcsMax receiverId dataSize fitFuel readMcs
          else []

theorem getPacketLength_error {dataSize mcs : Nat} {stop : Stop}
    (failed : dectMacUtilsGetPacketLength dataSize mcs = .error stop) : stop = .outOfBounds := by
  unfold dectMacUtilsGetPacketLength at failed
  split at failed
  · exact (Except.error.inj failed).symm
  · cases failed

/-- The loop stops outside the table exactly when it looks up an MCS above 4. -/
theorem fitLoop_outOfBounds_iff (receiverId dataSize fuel : Nat) (nodes : NodeTable) :
    fitLoop config mcsMax receiverId dataSize fuel nodes = .error .outOfBounds ↔
      ∃ mcs ∈ fitLoopLookups config mcsMax receiverId dataSize fuel nodes, 4 < mcs := by
  induction fuel generalizing nodes with
  | zero => exact iff_of_false nofun (by simp [fitLoopLookups])
  | succ fuel inductionHypothesis =>
    rw [fitLoop_succ, fitLoopLookups]
    cases passed : fitPass config mcsMax receiverId nodes with
    | error stop =>
      rw [fitPass_error passed, error_bind]
      exact iff_of_false nofun (by simp)
    | ok pass =>
      have index := getPacketLength_outOfBounds_iff dataSize (uint32 pass.mcs)
      rw [ok_bind]
      dsimp only
      rw [List.exists_mem_cons_iff, ← index]
      cases lookup : dectMacUtilsGetPacketLength dataSize (uint32 pass.mcs) with
      | error stop =>
        rw [getPacketLength_error lookup, error_bind]
        exact iff_of_true rfl (Or.inl rfl)
      | ok result =>
        rw [ok_bind]
        dsimp only
        split
        · rw [inductionHypothesis]
          exact ⟨Or.inr, fun either => either.resolve_left nofun⟩
        · exact iff_of_false nofun (by simp)

/-- The choice of packet parameters stops outside the table exactly when it looks up an MCS above
4. -/
theorem fitPacket_outOfBounds_iff (receiverId dataSize : Nat) (nodes : NodeTable) :
    fitPacket config mcsMax receiverId dataSize nodes = .error .outOfBounds ↔
      ∃ mcs ∈ fitPacketLookups config mcsMax receiverId dataSize nodes, 4 < mcs := by
  unfold fitPacket fitPacketLookups
  cases gotPower : dectMacNodeGetTxPower config mcsMax receiverId nodes with
  | error stop =>
    rw [getOrCreate_error gotPower, error_bind]
    exact iff_of_false nofun (by simp)
  | ok power =>
    obtain ⟨txPower, readPower⟩ := power
    rw [ok_bind]
    dsimp only
    cases gotMcs : dectMacNodeGetMcs config mcsMax receiverId readPower with
    | error stop =>
      rw [getOrCreate_error gotMcs, error_bind]
      exact iff_of_false nofun (by simp)
    | ok read =>
      obtain ⟨mcs, readMcs⟩ := read
      have index := getPacketLength_outOfBounds_iff dataSize (uint32 mcs)
      rw [ok_bind]
      dsimp only
      rw [List.exists_mem_cons_iff, ← index]
      cases lookup : dectMacUtilsGetPacketLength dataSize (uint32 mcs) with
      | error stop =>
        rw [getPacketLength_error lookup, error_bind]
        exact iff_of_true rfl (Or.inl rfl)
      | ok result =>
        rw [ok_bind]
        dsimp only
        have finish (search : Except Stop (Fit × NodeTable)) :
            (search >>= fun found => if dataSize = 0 then
                (.ok (⟨found.1.txPower, 0, 0⟩, found.2) : Except Stop (Fit × NodeTable))
              else .ok (found.1, found.2)) = .error .outOfBounds ↔
              search = .error .outOfBounds := by
          rw [bind_error]
          refine or_iff_left fun ⟨found, _, failed⟩ => ?_
          split at failed <;> cases failed
        split
        · rw [finish, fitLoop_outOfBounds_iff]
          exact ⟨Or.inr, fun either => either.resolve_left nofun⟩
        · rw [finish]
          exact iff_of_false nofun (by simp)

/-- A search that starts in the table of a modem whose MCS values are in the table stays there. -/
theorem fitLoopLookups_inTable {receiverId dataSize fuel : Nat} {nodes : NodeTable}
    (limit : mcsMax ≤ 4) (low : 0 ≤ startingMcs mcsMax nodes receiverId)
    (high : startingMcs mcsMax nodes receiverId ≤ 4) :
    ∀ mcs ∈ fitLoopLookups config mcsMax receiverId dataSize fuel nodes, mcs ≤ 4 := by
  induction fuel generalizing nodes with
  | zero => exact fun _ member => absurd member List.not_mem_nil
  | succ fuel inductionHypothesis =>
    rw [fitLoopLookups]
    split
    · exact fun _ member => absurd member List.not_mem_nil
    · rename_i pass passed
      obtain ⟨unchanged, outcome⟩ := fitPass_ok low high passed
      have value : (0 : Int) ≤ pass.mcs ∧ pass.mcs ≤ 4 := by
        have same : int8 mcsMax = mcsMax := int8_eq_self (by omega) (by omega)
        rcases outcome with ⟨_, _, value⟩ | ⟨_, value, _⟩
        · omega
        · omega
      intro mcs member
      rcases List.mem_cons.mp member with rfl | later
      · unfold uint32
        omega
      · split at later
        · cases later
        · split at later
          · exact inductionHypothesis (by omega) (by omega) mcs later
          · cases later

theorem getOrCreate_of_get {Value : Type} {read : Node → Value} {default : Value} {address : Nat}
    {nodes : NodeTable} {node : Node} (found : nodes.get address = some node) :
    getOrCreate config mcsMax read default address nodes =
      .ok (read node, nodes.put address { node with used := true }) := by
  unfold getOrCreate
  rw [found]

/-- On a modem whose MCS values are in the table, the lookups for a receiver are in the table
exactly when its MCS is not negative. -/
theorem fitPacketLookups_inTable_iff {receiverId dataSize : Nat} {nodes : NodeTable}
    (limit : mcsMax ≤ 4) (low : -128 ≤ startingMcs mcsMax nodes receiverId)
    (high : startingMcs mcsMax nodes receiverId ≤ 4) :
    (∀ mcs ∈ fitPacketLookups config mcsMax receiverId dataSize nodes, mcs ≤ 4) ↔
      0 ≤ startingMcs mcsMax nodes receiverId := by
  constructor
  · intro inTable
    cases found : nodes.get receiverId with
    | none =>
      rw [startingMcs_of_none found, int8_eq_self (by omega) (by omega)]
      exact Int.natCast_nonneg mcsMax
    | some node =>
      rw [startingMcs_of_get found] at low high ⊢
      have first : uint32 node.mcs ≤ 4 := by
        refine inTable _ ?_
        unfold fitPacketLookups dectMacNodeGetTxPower dectMacNodeGetMcs
        rw [getOrCreate_of_get found]
        dsimp only
        rw [getOrCreate_of_get (NodeTable.get_put_self _ _ _)]
        exact List.mem_cons_self
      unfold uint32 at first
      omega
  · intro start mcs member
    unfold fitPacketLookups at member
    split at member
    · cases member
    · rename_i txPower readPower gotPower
      split at member
      · cases member
      · rename_i read readMcs gotMcs
        have value : read = startingMcs mcsMax nodes receiverId := by
          rw [getMcs_value gotMcs, getOrCreate_startingMcs gotPower]
        have unchanged : startingMcs mcsMax readMcs receiverId = read := by
          rw [getOrCreate_startingMcs gotMcs, ← getMcs_value gotMcs]
        rcases List.mem_cons.mp member with rfl | later
        · unfold uint32
          omega
        · split at later
          · cases later
          · split at later
            · exact fitLoopLookups_inTable limit (by omega) (by omega) mcs later
            · cases later

/-! ### The end of a search -/

/-- The loop never uses up its iterations: each one raises an MCS of the table. -/
theorem fitLoop_ne_blocked {receiverId dataSize fuel : Nat} {nodes : NodeTable}
    (low : 0 ≤ startingMcs mcsMax nodes receiverId)
    (high : startingMcs mcsMax nodes receiverId ≤ 4)
    (enough : 5 ≤ fuel + startingMcs mcsMax nodes receiverId) :
    fitLoop config mcsMax receiverId dataSize fuel nodes ≠ .error .blocked := by
  induction fuel generalizing nodes with
  | zero => omega
  | succ fuel inductionHypothesis =>
    intro blocked
    rw [fitLoop_succ] at blocked
    rcases bind_error.mp blocked with failed | ⟨pass, passed, blocked⟩
    · cases fitPass_error failed
    · rcases bind_error.mp blocked with failed | ⟨⟨code, length⟩, lookup, blocked⟩
      · cases getPacketLength_error failed
      · obtain ⟨unchanged, outcome⟩ := fitPass_ok low high passed
        have inTable := (getPacketLength_ok lookup).1
        dsimp only at blocked
        split at blocked
        · rename_i again
          rcases outcome with ⟨_, _, value⟩ | ⟨stuck, _, _⟩
          · have index : (uint32 pass.mcs : Int) = pass.mcs :=
              uint32_index (by omega) (by omega) inTable
            exact inductionHypothesis (by omega) (by omega) (by omega) blocked
          · exact stuck again.1
        · cases blocked

/-- The choice of packet parameters always ends. -/
theorem fitPacket_ne_blocked {receiverId dataSize : Nat} {nodes : NodeTable}
    (low : -128 ≤ startingMcs mcsMax nodes receiverId)
    (high : startingMcs mcsMax nodes receiverId < 256) :
    fitPacket config mcsMax receiverId dataSize nodes ≠ .error .blocked := by
  intro blocked
  rcases bind_error.mp blocked with failed | ⟨⟨txPower, readPower⟩, gotPower, blocked⟩
  · cases getOrCreate_error failed
  · rcases bind_error.mp blocked with failed | ⟨⟨mcs, readMcs⟩, gotMcs, blocked⟩
    · cases getOrCreate_error failed
    · rcases bind_error.mp blocked with failed | ⟨⟨code, length⟩, lookup, blocked⟩
      · cases getPacketLength_error failed
      · have value : mcs = startingMcs mcsMax nodes receiverId := by
          rw [getMcs_value gotMcs, getOrCreate_startingMcs gotPower]
        have unchanged : startingMcs mcsMax readMcs receiverId = mcs := by
          rw [getOrCreate_startingMcs gotMcs, ← getMcs_value gotMcs]
        have inTable := (getPacketLength_ok lookup).1
        have index : (uint32 mcs : Int) = mcs := uint32_index (by omega) (by omega) inTable
        have ends (found : Fit × NodeTable) : (if dataSize = 0 then
            (.ok (⟨found.1.txPower, 0, 0⟩, found.2) : Except Stop (Fit × NodeTable))
            else .ok (found.1, found.2)) ≠ .error .blocked := by
          split <;> nofun
        dsimp only at blocked
        split at blocked
        · rcases bind_error.mp blocked with failed | ⟨found, _, failed⟩
          · refine fitLoop_ne_blocked (by omega) (by omega) ?_ failed
            unfold fitFuel
            omega
          · exact ends found failed
        · rcases bind_error.mp blocked with failed | ⟨found, _, failed⟩
          · cases failed
          · exact ends found failed

end DectHarq
