/-
This file settles when the search for packet parameters finds what the device offers.

The loop of the search climbs: it never looks at an MCS below the one of the receiver's
record. The largest capacities of the table are 249, 495, 692, 660 and 700 bytes, so a
higher MCS does not always have more room than a lower one. Data of 661 to 692 bytes fits
at MCS 2 and at MCS 4, but not at MCS 3: a device whose largest MCS is 3 misses it for a
receiver that is at MCS 3 already. There is no other miss, and the search always ends
within one iteration for each MCS it can still try.
-/

import DectHarq.PacketLengths

namespace DectHarq

variable {config : Config} {mcsMax receiverId dataSize : Nat}

/-! ### A search among present records -/

/-- `fitPacket` with a bound on the iterations of its loop. -/
def fitPacketWithin (config : Config) (mcsMax iterations receiverId dataSize : Nat)
    (nodes : NodeTable) : Except Stop (Fit × NodeTable) := do
  let (txPower, readPower) ← dectMacNodeGetTxPower config mcsMax receiverId nodes
  let (mcs, readMcs) ← dectMacNodeGetMcs config mcsMax receiverId readPower
  let dfMcs := uint32 mcs
  let (ret, packetLength) ← dectMacUtilsGetPacketLength dataSize dfMcs
  let (fit, fitted) ←
    if ret ≠ .ok then fitLoop config mcsMax receiverId dataSize iterations readMcs
    else .ok (⟨txPower, dfMcs, packetLength⟩, readMcs)
  if dataSize = 0 then .ok (⟨fit.txPower, 0, 0⟩, fitted) else .ok (fit, fitted)

theorem fitPacket_eq_within (config : Config) (mcsMax receiverId dataSize : Nat)
    (nodes : NodeTable) : fitPacket config mcsMax receiverId dataSize nodes =
      fitPacketWithin config mcsMax fitFuel receiverId dataSize nodes := rfl

/-- A setter or an adjustment leaves a record where there was one. -/
theorem updateNode_present (update : Node → Node × ErrorCode) {address : Nat}
    {nodes : NodeTable} {node : Node} (found : nodes.get address = some node) :
    ∃ updated, (updateNode update address nodes).2.get address = some updated := by
  rw [get_updateNode, found]
  exact ⟨_, rfl⟩

/-- A pass of the search returns when the receiver has a record, and leaves one. -/
theorem fitPass_present (config : Config) (mcsMax : Nat) {nodes : NodeTable} {node : Node}
    (found : nodes.get receiverId = some node) :
    ∃ pass raised, fitPass config mcsMax receiverId nodes = .ok pass ∧
      pass.nodes.get receiverId = some raised := by
  obtain ⟨reduced, foundReduced⟩ : ∃ reduced,
      (dectMacNodeReduceMcs mcsMax receiverId (-1) nodes).2.get receiverId = some reduced :=
    updateNode_present _ found
  unfold fitPass
  generalize dectMacNodeReduceMcs mcsMax receiverId (-1) nodes = reduction at foundReduced
  obtain ⟨canAugmentMcs, reducedNodes⟩ := reduction
  obtain ⟨powered, foundPowered⟩ : ∃ powered,
      (dectMacNodeAddPower config receiverId 1 reducedNodes).2.get receiverId = some powered :=
    updateNode_present _ foundReduced
  dsimp only
  generalize dectMacNodeAddPower config receiverId 1 reducedNodes = addition at foundPowered
  unfold dectMacNodeGetMcs dectMacNodeGetTxPower
  rw [getOrCreate_of_get foundPowered, ok_bind]
  dsimp only
  rw [getOrCreate_of_get (NodeTable.get_put_self _ _ _), ok_bind]
  exact ⟨_, _, rfl, NodeTable.get_put_self _ _ _⟩

/-- The lookup at an MCS of the table returns. -/
theorem getPacketLength_returns {mcs : Nat} (inTable : mcs ≤ 4) (dataSize : Nat) :
    ∃ code length, dectMacUtilsGetPacketLength dataSize mcs = .ok (code, length) :=
  ⟨_, _, getPacketLength_eq (List.getElem?_eq_getElem (Nat.lt_succ_of_le inTable)) dataSize⟩

/-! ### The iterations of a search -/

/-- The loop ends within one iteration for each MCS from the one of the record to the largest of
the modem, with a result that more iterations do not change. -/
theorem fitLoop_ends (config : Config) (limit : mcsMax ≤ 4) (dataSize : Nat) {climbs : Nat}
    {nodes : NodeTable} {node : Node} (found : nodes.get receiverId = some node)
    (low : 0 ≤ node.mcs) (left : (mcsMax : Int) - node.mcs = climbs) :
    ∃ fit after, ∀ iterations, climbs + 1 ≤ iterations →
      fitLoop config mcsMax receiverId dataSize iterations nodes = .ok (fit, after) := by
  induction climbs using Nat.strong_induction_on generalizing nodes node with
  | h climbs inductionHypothesis =>
    obtain ⟨pass, raised, passed, foundRaised⟩ := fitPass_present config mcsMax found
    have start : startingMcs mcsMax nodes receiverId = node.mcs := startingMcs_of_get found
    obtain ⟨read, outcome⟩ := fitPass_ok (by omega) (by omega) passed
    rw [startingMcs_of_get foundRaised] at read
    rw [start] at outcome
    have same : int8 mcsMax = mcsMax := int8_eq_self (by omega) (by omega)
    have inTable : uint32 pass.mcs ≤ 4 := by
      unfold uint32
      omega
    obtain ⟨code, length, lookup⟩ := getPacketLength_returns inTable dataSize
    have unfolded (fuel : Nat) : fitLoop config mcsMax receiverId dataSize (fuel + 1) nodes =
        if pass.canAugmentMcs = .ok ∧ code ≠ .ok then
          fitLoop config mcsMax receiverId dataSize fuel pass.nodes
        else .ok (⟨pass.txPower, uint32 pass.mcs, length⟩, pass.nodes) := by
      rw [fitLoop_succ, passed, ok_bind, lookup, ok_bind]
    by_cases again : pass.canAugmentMcs = .ok ∧ code ≠ .ok
    · -- the MCS was raised by one, so one climb less is left
      have climbed : pass.mcs = node.mcs + 1 ∧ node.mcs + 1 ≤ mcsMax := by
        rcases outcome with ⟨_, within, value⟩ | ⟨stuck, _, _⟩
        · exact ⟨value, within⟩
        · exact absurd again.1 stuck
      obtain ⟨fit, after, ends⟩ := inductionHypothesis (climbs - 1) (by omega) foundRaised
        (by omega) (by omega)
      refine ⟨fit, after, fun iterations enough => ?_⟩
      obtain ⟨fuel, rfl⟩ : ∃ fuel, iterations = fuel + 1 := ⟨iterations - 1, by omega⟩
      rw [unfolded, if_pos again]
      exact ends fuel (by omega)
    · refine ⟨⟨pass.txPower, uint32 pass.mcs, length⟩, pass.nodes, fun iterations enough => ?_⟩
      obtain ⟨fuel, rfl⟩ : ∃ fuel, iterations = fuel + 1 := ⟨iterations - 1, by omega⟩
      rw [unfolded, if_neg again]

/-- The search for a receiver with a record starts with a lookup at the MCS of the record. -/
theorem fitPacketWithin_of_get (config : Config) (mcsMax : Nat) {nodes : NodeTable} {node : Node}
    {code : ErrorCode} {length : Nat} (found : nodes.get receiverId = some node)
    (lookup : dectMacUtilsGetPacketLength dataSize (uint32 node.mcs) = .ok (code, length)) :
    ∃ marked, marked.get receiverId = some { node with used := true } ∧ ∀ iterations,
      fitPacketWithin config mcsMax iterations receiverId dataSize nodes =
        (if code ≠ .ok then fitLoop config mcsMax receiverId dataSize iterations marked
          else .ok (⟨node.txPower, uint32 node.mcs, length⟩, marked)) >>= fun search =>
            if dataSize = 0 then .ok (⟨search.1.txPower, 0, 0⟩, search.2) else .ok search := by
  refine ⟨_, NodeTable.get_put_self (nodes.put receiverId { node with used := true }) _ _,
    fun iterations => ?_⟩
  unfold fitPacketWithin dectMacNodeGetTxPower dectMacNodeGetMcs
  rw [getOrCreate_of_get found, ok_bind]
  dsimp only
  rw [getOrCreate_of_get (NodeTable.get_put_self _ _ _), ok_bind]
  dsimp only
  rw [lookup, ok_bind]
  dsimp only
  split <;> rfl

/-- The search ends within one iteration for each MCS from the one of the record to the largest of
the modem. -/
theorem fitPacket_ends (config : Config) (limit : mcsMax ≤ 4) (dataSize : Nat)
    {nodes : NodeTable} {node : Node} (found : nodes.get receiverId = some node)
    (low : 0 ≤ node.mcs) (high : node.mcs ≤ mcsMax) :
    ∃ fit after, ∀ iterations, (mcsMax - node.mcs).toNat + 1 ≤ iterations →
      fitPacketWithin config mcsMax iterations receiverId dataSize nodes = .ok (fit, after) := by
  have inTable : uint32 node.mcs ≤ 4 := by
    unfold uint32
    omega
  obtain ⟨code, length, lookup⟩ := getPacketLength_returns inTable dataSize
  obtain ⟨marked, foundMarked, search⟩ := fitPacketWithin_of_get config mcsMax found lookup
  have loopEnds : ∃ found, ∀ iterations, (mcsMax - node.mcs).toNat + 1 ≤ iterations →
      (if code ≠ .ok then fitLoop config mcsMax receiverId dataSize iterations marked
        else .ok (⟨node.txPower, uint32 node.mcs, length⟩, marked)) = .ok found := by
    by_cases success : code = .ok
    · exact ⟨_, fun _ _ => if_neg (not_not.mpr success)⟩
    · obtain ⟨fit, after, ends⟩ := fitLoop_ends config limit dataSize foundMarked low
        (Int.toNat_of_nonneg (Int.sub_nonneg.mpr high)).symm
      refine ⟨(fit, after), fun iterations enough => ?_⟩
      rw [if_pos success]
      exact ends iterations enough
  obtain ⟨⟨fit, after⟩, ends⟩ := loopEnds
  by_cases empty : dataSize = 0
  · refine ⟨⟨fit.txPower, 0, 0⟩, after, fun iterations enough => ?_⟩
    rw [search, ends iterations enough, ok_bind, if_pos empty]
  · refine ⟨fit, after, fun iterations enough => ?_⟩
    rw [search, ends iterations enough, ok_bind, if_neg empty]

/-! ### Complete searches -/

/-- The search for a receiver's packet is complete and ends: it ends within one iteration for each
MCS from the one of its record to the largest of the modem, and when the data fits an MCS of the
modem, it ends with a lookup that found a packet length that holds the data. -/
structure CompleteSearch (config : Config) (mcsMax receiverId dataSize : Nat) (nodes : NodeTable)
    (mcs : Int) : Prop where
  ends : ∃ fit after, fitPacket config mcsMax receiverId dataSize nodes = .ok (fit, after) ∧
    fitPacketWithin config mcsMax (mcsMax - mcs + 1).toNat receiverId dataSize nodes =
      .ok (fit, after)
  complete : (∃ mcs ≤ mcsMax, ∃ length, Holds dataSize mcs length) →
    ∃ fit after, fitPacket config mcsMax receiverId dataSize nodes = .ok (fit, after) ∧
      dectMacUtilsGetPacketLength dataSize fit.dfMcs = .ok (.ok, fit.packetLength) ∧
      Holds dataSize fit.dfMcs fit.packetLength

/-- Some packet length holds the data exactly when the data fits. -/
theorem exists_holds_iff {mcs : Nat} (inTable : mcs ≤ 4) (dataSize : Nat) :
    (∃ length, Holds dataSize mcs length) ↔ Fits dataSize mcs := by
  have row := List.getElem?_eq_getElem (l := bytePerMcsAndLength) (Nat.lt_succ_of_le inTable)
  unfold Fits
  rw [List.getD_eq_getElem?_getD, row, Option.getD_some]
  constructor
  · rintro ⟨length, holds⟩
    obtain ⟨capacity, inRow, enough⟩ := (holds_iff row dataSize length).mp holds
    exact ⟨capacity, List.mem_of_getElem? inRow, enough⟩
  · rintro ⟨capacity, member, enough⟩
    obtain ⟨length, inRow⟩ := List.mem_iff_getElem?.mp member
    exact ⟨length, (holds_iff row dataSize length).mpr ⟨capacity, inRow, enough⟩⟩

/-- The chosen parameters were found and hold the data exactly when the data fits their MCS. -/
theorem holds_of_fits {mcs length : Nat} {code : ErrorCode} (fits : Fits dataSize mcs)
    (lookup : dectMacUtilsGetPacketLength dataSize mcs = .ok (code, length)) :
    code = .ok ∧ Holds dataSize mcs length := by
  obtain ⟨inTable, codeIff⟩ := getPacketLength_ok lookup
  obtain rfl := (codeIff fits.le_limit).mpr fits
  have row := List.getElem?_eq_getElem (l := bytePerMcsAndLength) (Nat.lt_succ_of_le inTable)
  have least := (getPacketLength_ok_iff row dataSize length).mp lookup
  rw [int16_eq_self fits.le_limit] at least
  exact ⟨rfl, (holds_iff row dataSize length).mpr least.1⟩

/-- A packet without data is sent at MCS 0 in the shortest length. -/
theorem fitPacket_zero {nodes after : NodeTable} {fit : Fit}
    (fitted : fitPacket config mcsMax receiverId 0 nodes = .ok (fit, after)) :
    fit.dfMcs = 0 ∧ fit.packetLength = 0 := by
  obtain ⟨⟨txPower, readPower⟩, _, fitted⟩ := bind_ok.mp fitted
  obtain ⟨⟨mcs, readMcs⟩, _, fitted⟩ := bind_ok.mp fitted
  obtain ⟨⟨code, packetLength⟩, _, fitted⟩ := bind_ok.mp fitted
  dsimp only at fitted
  split at fitted
  · obtain ⟨⟨found, foundNodes⟩, _, fitted⟩ := bind_ok.mp fitted
    obtain ⟨rfl, _⟩ := Prod.mk.inj (ok_inj fitted)
    exact ⟨rfl, rfl⟩
  · obtain ⟨⟨found, foundNodes⟩, _, fitted⟩ := bind_ok.mp fitted
    obtain ⟨rfl, _⟩ := Prod.mk.inj (ok_inj fitted)
    exact ⟨rfl, rfl⟩

/-- The search ends with parameters that hold the data exactly when the data fits an MCS that it can
climb to. -/
theorem fitPacket_holds_iff (limit : mcsMax ≤ 4) {nodes after : NodeTable} {node : Node}
    {fit : Fit} (found : nodes.get receiverId = some node) (low : 0 ≤ node.mcs)
    (high : node.mcs ≤ mcsMax)
    (fitted : fitPacket config mcsMax receiverId dataSize nodes = .ok (fit, after)) :
    (dectMacUtilsGetPacketLength dataSize fit.dfMcs = .ok (.ok, fit.packetLength) ∧
        Holds dataSize fit.dfMcs fit.packetLength) ↔
      ∃ mcs : Nat, node.mcs ≤ mcs ∧ mcs ≤ mcsMax ∧ Fits dataSize mcs := by
  have start : startingMcs mcsMax nodes receiverId = node.mcs := startingMcs_of_get found
  by_cases empty : dataSize = 0
  · subst empty
    obtain ⟨zeroMcs, zeroLength⟩ := fitPacket_zero fitted
    rw [zeroMcs, zeroLength]
    have fits : ∀ mcs ≤ 4, Fits 0 mcs := by decide
    have lookup : dectMacUtilsGetPacketLength 0 0 = .ok (.ok, 0) := by decide
    refine iff_of_true ⟨lookup, (holds_of_fits (fits 0 (by decide)) lookup).2⟩ ?_
    exact ⟨mcsMax, high, le_rfl, fits mcsMax limit⟩
  · have chosen := fitPacket_chooses (by omega) (by omega) (by omega) empty fitted
    rw [start] at chosen
    obtain ⟨code, lookup⟩ := chosen.lookedUp
    have inTable := (getPacketLength_ok lookup).1
    constructor
    · rintro ⟨_, holds⟩
      have fits := (exists_holds_iff inTable dataSize).mp ⟨_, holds⟩
      refine ⟨fit.dfMcs, ?_, ?_, fits⟩
      · rcases chosen.tried with same | ⟨above, _⟩ | same <;> omega
      · rcases chosen.tried with same | ⟨_, below⟩ | same <;> omega
    · rintro ⟨mcs, above, below, fits⟩
      have chosenFits : Fits dataSize fit.dfMcs := by
        by_contra unfit
        refine chosen.last unfit mcs ?_ fits
        rcases above.eq_or_lt with same | above
        · exact Or.inl same.symm
        · exact Or.inr (Or.inl ⟨above, below⟩)
      obtain ⟨rfl, holds⟩ := holds_of_fits chosenFits lookup
      exact ⟨lookup, holds⟩

/-- A larger MCS has more room, but for the MCS 3 after the MCS 2. -/
theorem largestCapacity_increases : ∀ higher ≤ 4, ∀ mcs < higher,
    largestCapacity mcs ≤ largestCapacity higher ∨ (mcs = 2 ∧ higher = 3) := by
  decide

/-- Data that fits an MCS of the modem fits one from some start on, but for the data that fits MCS
2 and not MCS 3, with MCS 3 for a start and for the largest of the modem. -/
theorem climbing_misses_iff (limit : mcsMax ≤ 4) {start : Nat} (high : start ≤ mcsMax)
    (dataSize : Nat) :
    ((∃ mcs ≤ mcsMax, Fits dataSize mcs) → ∃ mcs, start ≤ mcs ∧ mcs ≤ mcsMax ∧ Fits dataSize mcs) ↔
      ¬ (mcsMax = 3 ∧ start = 3 ∧ 660 < dataSize ∧ dataSize ≤ 692) := by
  constructor
  · rintro climbs ⟨rfl, rfl, large, small⟩
    have fits : Fits dataSize 2 := (fits_iff_le_largestCapacity (by decide)).mpr
      (le_trans (Int.ofNat_le.mpr small) (by decide))
    obtain ⟨mcs, above, below, fits⟩ := climbs ⟨2, by decide, fits⟩
    obtain rfl : mcs = 3 := le_antisymm below above
    have within := (fits_iff_le_largestCapacity (by decide)).mp fits
    have value : largestCapacity 3 = 660 := by decide
    omega
  · rintro possible ⟨mcs, below, fits⟩
    by_cases reached : start ≤ mcs
    · exact ⟨mcs, reached, below, fits⟩
    · have within := (fits_iff_le_largestCapacity (le_trans below limit)).mp fits
      rcases largestCapacity_increases start (le_trans high limit) mcs (Nat.not_le.mp reached)
        with more | ⟨rfl, rfl⟩
      · exact ⟨start, le_rfl, high,
          (fits_iff_le_largestCapacity (le_trans high limit)).mpr (le_trans within more)⟩
      · -- from MCS 3 on, MCS 4 has the room that MCS 3 may lack
        have atTwo : largestCapacity 2 = 692 := by decide
        have atThree : largestCapacity 3 = 660 := by decide
        have atFour : largestCapacity 4 = 700 := by decide
        by_cases larger : mcsMax = 4
        · exact ⟨4, by decide, larger.ge, (fits_iff_le_largestCapacity le_rfl).mpr (by omega)⟩
        · refine ⟨3, le_rfl, high, (fits_iff_le_largestCapacity (by decide)).mpr ?_⟩
          omega

/-- The search is complete and ends, but for data of 661 to 692 bytes on a modem whose largest MCS
is 3, for a receiver that is at it. -/
theorem completeSearch_iff {nodes : NodeTable} {node : Node} (mcsMaxRange : mcsMax ≤ 4)
    (found : nodes.get receiverId = some node) (low : 0 ≤ node.mcs) (high : node.mcs ≤ mcsMax) :
    CompleteSearch config mcsMax receiverId dataSize nodes node.mcs ↔
      ¬ (mcsMax = 3 ∧ node.mcs = 3 ∧ 660 < dataSize ∧ dataSize ≤ 692) := by
  obtain ⟨fit, after, ends⟩ := fitPacket_ends config mcsMaxRange dataSize found low high
  have fitted : fitPacket config mcsMax receiverId dataSize nodes = .ok (fit, after) :=
    (fitPacket_eq_within config mcsMax receiverId dataSize nodes).trans
      (ends fitFuel (by unfold fitFuel; omega))
  obtain ⟨start, startMcs⟩ : ∃ start : Nat, (start : Int) = node.mcs :=
    ⟨node.mcs.toNat, Int.toNat_of_nonneg low⟩
  have succeeds := fitPacket_holds_iff mcsMaxRange found low high fitted
  have climbs := climbing_misses_iff mcsMaxRange (show start ≤ mcsMax by omega) dataSize
  have possible : (∃ mcs ≤ mcsMax, ∃ length, Holds dataSize mcs length) ↔
      ∃ mcs ≤ mcsMax, Fits dataSize mcs :=
    exists_congr fun mcs => and_congr_right fun below =>
      exists_holds_iff (le_trans below mcsMaxRange) dataSize
  rw [← startMcs] at succeeds ⊢
  simp only [Int.ofNat_le] at succeeds
  have miss : (start : Int) = 3 ↔ start = 3 := by omega
  rw [miss, ← climbs]
  constructor
  · intro search fits
    obtain ⟨other, otherAfter, again, holds⟩ := search.complete (possible.mpr fits)
    obtain ⟨rfl, rfl⟩ := Prod.mk.inj (ok_inj (fitted.symm.trans again))
    exact succeeds.mp holds
  · intro reachable
    refine ⟨⟨fit, after, fitted, ends _ (by omega)⟩, fun fits => ?_⟩
    exact ⟨fit, after, fitted, succeeds.mpr (reachable (possible.mp fits))⟩

/-- A receiver at MCS 3. -/
def receiverAtThree : NodeTable :=
  NodeTable.put ⟨∅, fun _ => .inserted⟩ 7 ⟨7, true, 5, 3⟩

/-- Where the largest MCS is 4, a packet length is found for 680 bytes. -/
theorem completeSearch_atFour : CompleteSearch projectConfig 4 7 680 receiverAtThree 3 :=
  (completeSearch_iff (by decide) (NodeTable.get_put_self _ _ _) (by decide) (by decide)).mpr
    (by decide)

/-- Where the largest MCS is 3, the search misses the packet length that holds 680 bytes. -/
theorem search_misses : ¬ ∀ (mcsMax dataSize : Nat) (nodes : NodeTable) (node : Node),
    mcsMax ≤ 4 → nodes.get 7 = some node → 0 ≤ node.mcs → node.mcs ≤ mcsMax →
      CompleteSearch projectConfig mcsMax 7 dataSize nodes node.mcs := by
  intro always
  have search := always 3 680 receiverAtThree ⟨7, true, 5, 3⟩ (by decide)
    (NodeTable.get_put_self _ _ _) (by decide) (by decide)
  have fits : ∃ mcs ≤ 3, ∃ length, Holds 680 mcs length :=
    ⟨2, by decide, (exists_holds_iff (by decide) 680).mpr (by decide)⟩
  obtain ⟨fit, after, fitted, found, _⟩ := search.complete fits
  have missed : (fitPacket projectConfig 3 7 680 receiverAtThree).toOption.map Prod.fst =
      some ⟨6, 3, 16⟩ := by
    decide +kernel
  rw [fitted] at missed
  obtain rfl := Option.some.inj missed
  exact absurd found (by decide)

end DectHarq
