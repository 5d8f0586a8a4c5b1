/-
This file compares what a header announces with the data that is sent under it.

The header carries an MCS and a packet length, from which a receiver reads the room of
the packet in the length table. A search that ends without a length that fits leaves the
number of columns, which the four bits of the field turn into the first column. So the
room suffices exactly when the data fits some row that the search tries, for every
operation that a run hands to the modem.
-/

import DectHarq.FitSearch
import DectHarq.Headers

namespace DectHarq

variable {config : Config} {mcsMax : Nat}

/-! ### What a header announces -/

/-- The MCS a header announces: the two header types store it in fields of different widths. -/
def announcedMcs (params : PhyTxParams) : Nat :=
  if params.phyType = headerType1 then Type1.dfMcs.get params.header
  else Type2.dfMcs.get params.header

/-- The packet length a header announces. -/
def announcedLength (params : PhyTxParams) : Nat :=
  if params.phyType = headerType1 then Type1.packetLength.get params.header
  else Type2.packetLength.get params.header

/-- The transmit power a header announces. -/
def announcedPower (params : PhyTxParams) : Nat :=
  if params.phyType = headerType1 then Type1.transmitPower.get params.header
  else Type2.transmitPower.get params.header

/-- The room a header announces, in bytes. -/
def announcedBytes (params : PhyTxParams) : Nat :=
  dectMacUtilsGetBytesFromPacketLength (announcedLength params) (announcedMcs params)

theorem type1Header_reads (config : Config) (deviceId : Nat) (fit : Fit) :
    Type1.packetLength.get (type1Header config deviceId fit) = fit.packetLength % 2 ^ 4 ∧
      Type1.transmitPower.get (type1Header config deviceId fit) = fit.txPower % 2 ^ 4 ∧
      Type1.dfMcs.get (type1Header config deviceId fit) = fit.dfMcs % 2 ^ 3 := by
  unfold type1Header
  refine ⟨?_, ?_, ?_⟩ <;>
    simp (disch := decide) only [BitField.get_set_of_disjoint, BitField.get_set_self]
  all_goals rfl

theorem CarriesFit.reads {fit : Fit} {params : PhyTxParams}
    (carries : CarriesFit config fit params) :
    announcedLength params = fit.packetLength % 16 ∧ announcedPower params = fit.txPower % 16 ∧
      (fit.dfMcs < 8 → announcedMcs params = fit.dfMcs) := by
  obtain ⟨deviceId, input, ⟨beacon, header⟩ | ⟨other, header⟩⟩ := carries
  · obtain ⟨length, power, mcs⟩ := type1Header_reads config deviceId fit
    unfold announcedLength announcedPower announcedMcs
    rw [if_pos beacon, if_pos beacon, if_pos beacon, header]
    exact ⟨length, power, fun small => mcs.trans (Nat.mod_eq_of_lt small)⟩
  · have reads := type2Header_reads config deviceId input fit
    have notBeacon : params.phyType ≠ headerType1 := by
      rw [other]
      decide
    unfold announcedLength announcedPower announcedMcs
    rw [if_neg notBeacon, if_neg notBeacon, if_neg notBeacon, header]
    exact ⟨reads.packetLength, reads.transmitPower,
      fun small => reads.dfMcs.trans (Nat.mod_eq_of_lt (Nat.lt_trans small (by decide)))⟩

/-- The parameters of a transmission carry what was chosen for their receiver and data. -/
theorem txConfig_carries {deviceId : Nat} {input : TxParams} {nodes after : NodeTable}
    {params : PhyTxParams}
    (configured : dectMacPhyHandlerTxConfig config mcsMax deviceId input nodes =
      .ok (params, after)) :
    params.dataSize = input.dataSize ∧ ∃ fit, CarriesFit config fit params ∧
      fitPacket config mcsMax input.receiverId input.dataSize nodes = .ok (fit, after) := by
  obtain ⟨⟨fit, fitted⟩, same, rest⟩ := bind_ok.mp configured
  cases rest
  refine ⟨rfl, fit, ⟨deviceId, input, ?_⟩, same⟩
  dsimp only
  split
  · exact Or.inl ⟨rfl, rfl⟩
  · exact Or.inr ⟨rfl, rfl⟩

/-! ### The room of a packet -/

/-- The first capacity of a row decides a search that it suffices for. -/
theorem packetLengthLoop_first {size first : Int} {rest : List Int} (start : Nat)
    (enough : size ≤ first) : packetLengthLoop size (first :: rest) start = (.ok, start) := by
  rw [packetLengthLoop, if_pos enough]

/-- A capacity that a search finds is not the filler. -/
theorem packetLengthLoop_capacity {size : Int} {row : List Int} {found : Nat}
    (first : ∃ first ∈ row.head?, (0 : Int) ≤ first)
    (search : packetLengthLoop size row 0 = (.ok, found)) :
    ∃ capacity, row[found]? = some capacity ∧ size ≤ capacity ∧ 0 ≤ capacity := by
  obtain ⟨offset, position, capacity, inRow, enough⟩ := packetLengthLoop_ok search
  rw [Nat.zero_add] at position
  subst position
  obtain ⟨head, isHead, headLow⟩ := first
  cases row with
  | nil => cases isHead
  | cons capacityZero rest =>
    obtain rfl : capacityZero = head := Option.some.inj isHead
    by_cases already : size ≤ capacityZero
    · rw [packetLengthLoop_first 0 already] at search
      cases search
      exact ⟨capacityZero, rfl, already, headLow⟩
    · exact ⟨capacity, inRow, enough, by omega⟩

/-- The room of the looked up length, as a header announces it, suffices for data exactly when
the data fits at the MCS. -/
theorem bytes_room {dataSize mcs length : Nat} {code : ErrorCode}
    (lookup : dectMacUtilsGetPacketLength dataSize mcs = .ok (code, length)) :
    dataSize ≤ dectMacUtilsGetBytesFromPacketLength (length % 16) mcs ↔ Fits dataSize mcs := by
  obtain ⟨inTable, codeIff⟩ := getPacketLength_ok lookup
  unfold dectMacUtilsGetPacketLength at lookup
  cases found : bytePerMcsAndLength[mcs]? with
  | none =>
    rw [found] at lookup
    cases lookup
  | some row =>
    rw [found] at lookup
    have search := ok_inj lookup
    have member : row ∈ bytePerMcsAndLength := List.mem_of_getElem? found
    obtain ⟨first, bounds⟩ := bytePerMcsAndLength_rows row member
    have columns := bytePerMcsAndLength_columns row member
    have rowOf : bytePerMcsAndLength.getD mcs [] = row := by
      rw [List.getD_eq_getElem?_getD, found]
      rfl
    have fitsIff : Fits dataSize mcs ↔ ∃ capacity ∈ row, (dataSize : Int) ≤ capacity := by
      unfold Fits
      rw [rowOf]
    unfold dectMacUtilsGetBytesFromPacketLength
    rw [if_neg (by omega), rowOf, List.getD_eq_getElem?_getD]
    by_cases success : code = .ok
    · rw [success] at search
      obtain ⟨capacity, inRow, enough, low⟩ := packetLengthLoop_capacity first search
      have inside : length < 16 := columns ▸ (List.getElem?_eq_some_iff.mp inRow).1
      have bound := (bounds capacity (List.mem_of_getElem? inRow)).2
      rw [Nat.mod_eq_of_lt inside, inRow, Option.getD_some]
      have value : (uint16 capacity : Int) = capacity := by
        unfold uint16
        unfold capacityLimit at bound
        omega
      constructor
      · intro room
        exact fitsIff.mpr ⟨capacity, List.mem_of_getElem? inRow, by omega⟩
      · intro fits
        rw [int16_eq_self fits.le_limit] at enough
        omega
    · have missed : (packetLengthLoop (int16 dataSize) row 0).1 ≠ .ok := by
        rw [search]
        exact success
      have position := packetLengthLoop_failed missed
      rw [search, columns] at position
      obtain rfl : length = 16 := by omega
      have unfit : ¬ Fits dataSize mcs := fun fits => success ((codeIff fits.le_limit).mpr fits)
      refine iff_of_false (fun room => ?_) unfit
      obtain ⟨head, isHead, headLow⟩ := first
      have atZero : row[0]? = some head := List.head?_eq_getElem?.symm.trans isHead
      have bound := (bounds head (List.mem_of_getElem? atZero)).2
      rw [show 16 % 16 = 0 from rfl, atZero, Option.getD_some] at room
      refine unfit (fitsIff.mpr ⟨head, List.mem_of_getElem? atZero, ?_⟩)
      unfold uint16 at room
      unfold capacityLimit at bound
      omega

/-- There is room for the data of a transmission: it has none, or they fit at some MCS that the
search tries. -/
def RoomFor (mcsMax : Nat) (nodes : NodeTable) (input : TxParams) : Prop :=
  input.dataSize = 0 ∨
    ∃ mcs, Tries mcsMax (startingMcs mcsMax nodes input.receiverId) mcs ∧ Fits input.dataSize mcs

/-- The parameters of a transmission were chosen for a receiver from a node table. -/
def ChosenFor (config : Config) (phy : Phy) (receiverId : Nat) (params : PhyTxParams) : Prop :=
  ∃ fit after, CarriesFit config fit params ∧
    fitPacket config phy.capabilities.mcsMax receiverId params.dataSize phy.nodes =
      .ok (fit, after)

/-- A header announces enough room exactly when there is room for the data. -/
theorem ChosenFor.room_iff {phy : Phy} {input : TxParams} {params : PhyTxParams}
    (byte : phy.capabilities.mcsMax < 256)
    (low : -128 ≤ startingMcs phy.capabilities.mcsMax phy.nodes input.receiverId)
    (high : startingMcs phy.capabilities.mcsMax phy.nodes input.receiverId < 256)
    (same : params.dataSize = input.dataSize)
    (chosen : ChosenFor config phy input.receiverId params) :
    params.dataSize ≤ announcedBytes params ↔
      RoomFor phy.capabilities.mcsMax phy.nodes input := by
  obtain ⟨fit, after, carries, fitted⟩ := chosen
  rw [same] at fitted ⊢
  by_cases payload : input.dataSize = 0
  · refine iff_of_true ?_ (Or.inl payload)
    omega
  · have chosen := fitPacket_chooses byte low high payload fitted
    obtain ⟨code, lookup⟩ := chosen.lookedUp
    obtain ⟨length, _, mcs⟩ := carries.reads
    have inTable := (getPacketLength_ok lookup).1
    unfold announcedBytes
    rw [length, mcs (by omega), bytes_room lookup]
    constructor
    · intro fits
      exact Or.inr ⟨fit.dfMcs, chosen.tried, fits⟩
    · rintro (empty | ⟨other, tried, fits⟩)
      · exact absurd empty payload
      · by_contra unfit
        exact chosen.last unfit other tried fits

/-! ### The transmissions of a step -/

/-- The transmission parameters of an operation that transmits. -/
def Operation.toTx : Operation → Option TxParams
  | .tx params => some params
  | .txHarq params => some params.toTx
  | .txRx params => some params.toTx
  | _ => none

/-- The transmission that an event makes a handler configure. The reply to a request is not among
them: it carries no data. -/
def transmitted (system : System config) : Event config → Option TxParams
  | .direct operation _ => operation.toTx
  | .execDispatch _ =>
    match system.queue.execThread with
    | .executing item => item.operation.toTx
    | _ => none
  | .retryTimer _ => system.queue.currentOperation.toTx
  | _ => none

/-- The calls of the modem that a step adds to the log. -/
def newModemCalls (taken : Transition.Step (System config) (Event config)) :
    List (ModemRequest × Int) :=
  taken.after.phy.modemCalls.drop taken.before.phy.modemCalls.length

/-- All transmissions among the calls between two states have a property. -/
def NewTransmissions (property : PhyTxParams → Prop) (before after : Phy) : Prop :=
  ∃ calls, after.modemCalls = before.modemCalls ++ calls ∧
    ∀ call ∈ calls, ∀ params, call.1.transmission = some params → property params

theorem NewTransmissions.of_same {property : PhyTxParams → Prop} {before after : Phy}
    (same : after.modemCalls = before.modemCalls) : NewTransmissions property before after :=
  ⟨[], by rw [same, List.append_nil], fun _ member => absurd member List.not_mem_nil⟩

theorem NewTransmissions.of_call {property : PhyTxParams → Prop} {before after : Phy}
    {request : ModemRequest} {ret : Int}
    (called : after.modemCalls = before.modemCalls ++ [(request, ret)])
    (each : ∀ params, request.transmission = some params → property params) :
    NewTransmissions property before after := by
  refine ⟨_, called, fun call member params same => each params ?_⟩
  rwa [List.mem_singleton.mp member] at same

/-- The queue bit changes nothing of a transmission but its handle. -/
theorem fromQueue_toTx {operation : Operation} {input : TxParams}
    (same : operation.fromQueue.toTx = some input) :
    ∃ handle, operation.toTx = some { input with handle := handle } := by
  cases operation with
  | tx params =>
    cases same
    exact ⟨params.handle, rfl⟩
  | txHarq params =>
    cases same
    exact ⟨params.handle, rfl⟩
  | txRx params =>
    cases same
    exact ⟨params.handle, rfl⟩
  | _ => cases same

theorem NewTransmissions.mono {property weaker : PhyTxParams → Prop} {before after : Phy}
    (new : NewTransmissions property before after) (weaken : ∀ params, property params →
      weaker params) : NewTransmissions weaker before after := by
  obtain ⟨calls, log, each⟩ := new
  exact ⟨calls, log, fun call member params same => weaken params (each call member params same)⟩

/-- tx_config makes the parameters of a call from those of an operation. A handler changes nothing
but the handle after it. -/
def Configured (config : Config) (phy : Phy) (input : TxParams) (params : PhyTxParams) : Prop :=
  ∃ handle nodes, dectMacPhyHandlerTxConfig config phy.capabilities.mcsMax phy.deviceId input
    phy.nodes = .ok ({ params with handle := handle }, nodes)

/-- What a handler transmits is configured for its operation. -/
theorem callHandler_configures {operation : Operation} {origin : Origin} {ret : Int}
    {phy after : Phy} (called : callHandler config operation origin ret phy = .ok after) :
    NewTransmissions (fun params => ∃ input, operation.toTx = some input ∧
      Configured config phy input params) phy after := by
  cases operation with
  | tx input =>
    obtain ⟨⟨built, nodes⟩, configured, rest⟩ := bind_ok.mp called
    cases rest
    refine NewTransmissions.of_call rfl fun params same => ?_
    cases same
    exact ⟨input, rfl, built.handle, nodes, configured⟩
  | txHarq input =>
    obtain ⟨⟨built, nodes⟩, configured, rest⟩ := bind_ok.mp called
    cases rest
    refine NewTransmissions.of_call rfl fun params same => ?_
    cases same
    exact ⟨input.toTx, rfl, built.handle, nodes, configured⟩
  | txRx input =>
    obtain ⟨⟨built, nodes⟩, configured, rest⟩ := bind_ok.mp called
    cases rest
    refine NewTransmissions.of_call rfl fun params same => ?_
    cases same
    exact ⟨input.toTx, rfl, built.handle, nodes, configured⟩
  | placeholder => cases called
  | unknown => cases called
  | linkConfig =>
    cases called
    exact NewTransmissions.of_same rfl
  | _ =>
    cases called
    refine NewTransmissions.of_call rfl fun params same => ?_
    cases same

/-- What is configured was chosen for the receiver. -/
theorem Configured.chosen {phy : Phy} {input : TxParams} {params : PhyTxParams}
    (configured : Configured config phy input params) :
    params.dataSize = input.dataSize ∧ ChosenFor config phy input.receiverId params := by
  obtain ⟨handle, nodes, built⟩ := configured
  obtain ⟨size, fit, carries, fitted⟩ := txConfig_carries built
  rw [← size] at fitted
  exact ⟨size, fit, nodes, carries, fitted⟩

/-- What the execution of an operation transmits is configured for it. -/
theorem functionExecute_configures {operation : Operation} {provenance : Provenance}
    {inPlace : Bool} {ret : Int} {queue queueAfter : Queue} {phy after : Phy} {code : ErrorCode}
    (executed : dectMacPhyHandlerQueueFunctionExecute config operation provenance inPlace ret
      queue phy = .ok (code, queueAfter, after)) :
    NewTransmissions (fun params => ∃ input, operation.fromQueue.toTx = some input ∧
      Configured config phy input params) phy after := by
  rcases executeSwitch_cases (functionExecute_cases executed).2 with
    ⟨_, rfl⟩ | ⟨_, rfl⟩ | ⟨_, called⟩
  · refine NewTransmissions.of_same ?_
    unfold Phy.awaitReply
    split <;> rfl
  · exact NewTransmissions.of_same rfl
  · exact callHandler_configures called

/-- Outside of receptions, what a step transmits is configured for the transmission of its event,
up to the handle. -/
theorem step_configures {system after : System config} {event : Event config}
    (sound : system.harq.Sound) (stepped : step system event = .ok after)
    (outside : ∀ status header ret, event ≠ .pcc status header ret) :
    NewTransmissions (fun params => ∃ input handle,
      transmitted system event = some { input with handle := handle } ∧
        Configured config system.phy input params) system.phy after.phy := by
  cases event with
  | direct operation ret =>
    obtain ⟨phy, called, rest⟩ := bind_ok.mp stepped
    cases rest
    refine (callHandler_configures called).mono ?_
    rintro params ⟨input, same, configured⟩
    exact ⟨input, input.handle, same, configured⟩
  | execDispatch ret =>
    dsimp only [step] at stepped
    split at stepped
    · rename_i item executing
      obtain ⟨⟨code, queue, phy⟩, executed, rest⟩ := bind_ok.mp stepped
      cases rest
      refine (functionExecute_configures executed).mono ?_
      rintro params ⟨input, queued, configured⟩
      obtain ⟨handle, same⟩ := fromQueue_toTx queued
      refine ⟨input, handle, ?_, configured⟩
      unfold transmitted
      rw [executing]
      exact same
    · cases stepped
  | retryTimer ret =>
    dsimp only [step] at stepped
    split at stepped
    · obtain ⟨⟨code, queue, phy⟩, executed, rest⟩ := bind_ok.mp stepped
      cases rest
      refine (functionExecute_configures executed).mono ?_
      rintro params ⟨input, queued, configured⟩
      obtain ⟨handle, same⟩ := fromQueue_toTx queued
      exact ⟨input, handle, same, configured⟩
    · cases stepped
  | pcc status header ret => exact absurd rfl (outside status header ret)
  | _ =>
    have action := action_of_step sound stepped
    cases action <;> exact NewTransmissions.of_same rfl

/-- A device replies to a header. The feedback is that of the process table and of the records when
the header was handled, and the records are those in which the fit of the reply is chosen. -/
structure RepliesTo (system : System config) (status : PccStatus) (header : PhyHeader)
    (input : TxParams) (nodes : NodeTable) : Prop where
  request : IsRequest config system.phy.deviceId status header
  parameters : ∃ optimized harq cqi,
    pccOptimize config status header system.phy = .ok optimized ∧
    requestProcess system.phy.capabilities header system.harq = .ok harq ∧
    dectMacNodeGetCqi config system.phy.capabilities.mcsMax (transmitterId header)
      optimized.nodes = .ok (cqi, nodes) ∧
    input = (replyParams config header status.stfStartTime
      (requestFeedback system.phy.capabilities header cqi harq)).toTx

/-- The callback of a header transmits nothing, or one TX_HARQ that is configured for the reply. -/
theorem pcc_configures {status : PccStatus} {header : PhyHeader} {ret : Int}
    {system after : System config} (stepped : step system (.pcc status header ret) = .ok after) :
    after.phy.modemCalls = system.phy.modemCalls ∨
      ∃ input nodes params, RepliesTo system status header input nodes ∧
        after.phy.modemCalls = system.phy.modemCalls ++ [(.txHarq params, ret)] ∧
        Configured config { system.phy with nodes := nodes } input params := by
  obtain ⟨optimized, updated, ⟨request, code, handled⟩ | ⟨_, _, harq, _, rfl⟩ | ⟨_, _, rfl⟩⟩ :=
    pccCb_cases stepped
  · obtain ⟨harq, processed, handled⟩ := bind_ok.mp handled
    obtain ⟨⟨cqi, nodes⟩, read, handled⟩ := bind_ok.mp handled
    obtain ⟨phy, sent, handled⟩ := bind_ok.mp handled
    obtain ⟨⟨putCode, queue⟩, _, handled⟩ := bind_ok.mp handled
    cases handled
    obtain ⟨⟨built, fitted⟩, configured, rest⟩ := bind_ok.mp sent
    cases rest
    exact Or.inr ⟨_, nodes, _, ⟨request, _, harq, cqi, updated, processed, read, rfl⟩, rfl,
      built.handle, fitted, configured⟩
  · exact Or.inl rfl
  · exact Or.inl rfl

/-- What an event transmits: a packet chosen for the receiver of its transmission, or a reply
without data. -/
def Event.Transmits (system : System config) (event : Event config) (params : PhyTxParams) :
    Prop :=
  (transmitted system event = none ∧ params.dataSize = 0) ∨
    ∃ input, transmitted system event = some input ∧ params.dataSize = input.dataSize ∧
      ChosenFor config system.phy input.receiverId params

theorem step_transmits {system after : System config} {event : Event config}
    (sound : system.harq.Sound) (stepped : step system event = .ok after) :
    NewTransmissions (event.Transmits system) system.phy after.phy := by
  by_cases isPcc : ∃ status header ret, event = .pcc status header ret
  · obtain ⟨status, header, ret, rfl⟩ := isPcc
    rcases pcc_configures stepped with same | ⟨input, nodes, params, replies, called, configured⟩
    · exact NewTransmissions.of_same same
    · refine NewTransmissions.of_call called fun sending same => Or.inl ⟨rfl, ?_⟩
      cases same
      obtain ⟨_, _, _, _, _, _, rfl⟩ := replies.parameters
      exact configured.chosen.1
  · refine (step_configures sound stepped
      fun status header ret same => isPcc ⟨status, header, ret, same⟩).mono ?_
    rintro params ⟨input, handle, same, configured⟩
    exact Or.inr ⟨_, same, configured.chosen.1, configured.chosen.2⟩

/-! ### The transmissions of a run -/

theorem wantedMcs_range (snr : Int) : -1 ≤ wantedMcs snr ∧ wantedMcs snr ≤ 4 := by
  unfold wantedMcs
  split_ifs <;> decide

/-- The law of the records whose MCS is a byte. -/
theorem byte_law (config : Config) {mcsMax : Nat} (byte : mcsMax < 256) :
    RecordLaw config mcsMax (fun _ mcs => -1 ≤ mcs ∧ mcs ≤ 4)
      (fun node => -128 ≤ node.mcs ∧ node.mcs < 256) where
  created := fun _ => by
    have range := int8_byte byte
    constructor <;> dsimp only <;> omega
  marked := fun _ _ range => range
  capped := fun _ _ _ range => range
  clamped := fun _ mcs clamped _ => by
    have range := int8_byte byte
    constructor <;> dsimp only <;> omega
  tuned := fun _ _ mcs accepted _ => by
    constructor <;> dsimp only <;> omega

/-- In every run on a modem that reports its largest MCS as a byte, a header announces enough
room for the data exactly when there is room for the transmission that its step configured. -/
theorem announced_room_iff {start final : System config}
    {steps : List (Transition.Step (System config) (Event config))} (booted : Booted start)
    (run : Run start steps final) (bytes : ∀ taken ∈ steps, taken.label.Reports (· < 256)) :
    ∀ taken ∈ steps, ∀ call ∈ newModemCalls taken, ∀ params, call.1.transmission = some params →
      (params.dataSize ≤ announcedBytes params ↔
        ∀ input, transmitted taken.before taken.label = some input →
          RoomFor taken.before.phy.capabilities.mcsMax taken.before.phy.nodes input) := by
  have passes := (records_of_run (fun mcsMax byte => byte_law config byte) booted run (by decide)
    fun taken member => (bytes taken member).lawful fun _ snr => wantedMcs_range snr).2
  intro taken member call new params transmission
  obtain ⟨byte, from_⟩ := passes taken member
  obtain ⟨calls, log, each⟩ := step_transmits (actions_of_run booted run taken member).1
    (run.taken taken member)
  unfold newModemCalls at new
  rw [log, List.drop_left] at new
  rcases each call new params transmission with ⟨reply, empty⟩ | ⟨input, same, size, chosen⟩
  · rw [reply, empty]
    exact iff_of_true (Nat.zero_le _) nofun
  · obtain ⟨node, range, read⟩ :=
      startingMcs_reads (byte_law config byte) from_.nodes input.receiverId
    have roomIff := chosen.room_iff byte (by omega) (by omega) size
    rw [roomIff, same]
    constructor
    · intro room other equal
      rw [← Option.some.inj equal]
      exact room
    · intro room
      exact room input rfl

/-- A packet of 701 bytes for device 7: more than any entry of the length table. -/
def longPacket : HarqTransmitParams := ⟨List.replicate 701 0, 701, 0, 7⟩

/-- A packet goes to the modem. -/
def packetToModem (packet : HarqTransmitParams) : List (Event projectConfig) :=
  .transmit packet (some 4096) :: carriedToModem

/-- The header of a small packet is among those that announce enough room. -/
theorem announced_room_iff_small :
    (∃ taken ∈ Transition.followAll step device (packetToModem smallPacket),
      ∃ call ∈ newModemCalls taken, call.1.transmission.isSome = true) ∧
      ∀ taken ∈ Transition.followAll step device (packetToModem smallPacket),
        ∀ call ∈ newModemCalls taken, ∀ params, call.1.transmission = some params →
          (params.dataSize ≤ announcedBytes params ↔
            ∀ input, transmitted taken.before taken.label = some input →
              RoomFor taken.before.phy.capabilities.mcsMax taken.before.phy.nodes input) :=
  ⟨by decide +kernel, announced_room_iff device_booted
    (Transition.followAll_run step device _ (by decide +kernel))
    (Transition.followAll_labels step device _ (by
      simp [packetToModem, carriedToModem, Event.Reports]))⟩

/-- The long packet is handed to the modem under a header that announces less room. -/
theorem announced_tooSmall :
    ¬ ∀ (start final : System projectConfig)
        (steps : List (Transition.Step (System projectConfig) (Event projectConfig))),
      Booted start → Run start steps final → ∀ taken ∈ steps, ∀ call ∈ newModemCalls taken,
        ∀ params, call.1.transmission = some params →
          params.dataSize ≤ announcedBytes params := by
  intro room
  have run := Transition.followAll_run step device (packetToModem longPacket) (by decide +kernel)
  have each := room _ _ _ device_booted run
  have short : ∃ taken ∈ Transition.followAll step device (packetToModem longPacket),
      ∃ call ∈ newModemCalls taken, ∃ params ∈ call.1.transmission,
        announcedBytes params < params.dataSize := by
    decide +kernel
  obtain ⟨taken, member, call, new, params, transmission, less⟩ := short
  exact absurd (each taken member call new params transmission) (Nat.not_le.mpr less)

end DectHarq
