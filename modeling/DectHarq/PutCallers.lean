/-
This file interleaves the calls of `dect_phy_queue_put` with each other and with the put
thread.

A call may be interrupted between its allocation and `k_msgq_put` by other callers and by
the put thread, any number of times. What is exchanged are pointers to blocks of the item
slab: the callers in between hold one each, the messages are the others, and the put thread
holds the one that it copies. Each block in use is in exactly one of these places, and the
message queue has as many places as the slab has blocks; so a caller that has a block finds
a place for it. The machine with atomic calls is a special case.
-/

import DectHarq.QueueBooks
import DectHarq.Library.Slab

namespace DectHarq

variable {config : Config}

/-! ### The put function and the put thread in pieces -/

/-- A block of the item slab. -/
abbrev ItemBlock := Fin queueMaxItems

/-- A call of `dect_phy_queue_put` that has got a block: its arguments, its block, and whether
it has filled the block. -/
structure PutCall where
  item : QueueItem
  block : ItemBlock
  filled : Bool

/-- Where the put thread is, with its pointer. -/
inductive PutPointer
  | waiting
  /-- It got a pointer from the message queue. -/
  | got (block : ItemBlock)
  /-- It copied the item and has not freed the block yet. -/
  | copied (block : ItemBlock) (item : QueueItem)
  | freed (item : QueueItem)
  | inserted
  | returned
  deriving DecidableEq

/-- The put function and the put thread with `dect_mac_phy_handler_queue_item_slab`, what its
blocks hold, the calls that hold a block, in the order of their allocations, and the message
queue. The last three fields log what the calls returned, the items of the successful calls
and the items that the put thread copied; nothing reads them. -/
structure PutModule where
  slab : Slab queueMaxItems
  memory : ItemBlock → QueueItem
  calls : List PutCall
  msgq : List ItemBlock
  putThread : PutPointer
  returned : List ErrorCode
  accepted : List QueueItem
  copied : List QueueItem

/-- The atomic actions of the callers and of the put thread. -/
inductive PutEvent
  /-- A call begins; `block` is the free block that the slab returns. -/
  | call (item : QueueItem) (block : ItemBlock)
  /-- The call at a position fills its block. -/
  | fill (position : Nat)
  /-- The call at a position submits its block and returns. -/
  | submit (position : Nat)
  | get
  | copy
  | free
  /-- The section of the put thread: whether it ends in it depends on the list. -/
  | insert (ended : Bool)
  | give

/-- The actions of the callers. -/
def PutEvent.OfCaller : PutEvent → Prop
  | .call _ _ => True
  | .fill _ => True
  | .submit _ => True
  | _ => False

/-- The item slab is asked for a block. -/
def beginCall (item : QueueItem) (block : ItemBlock) (state : PutModule) :
    Except Stop PutModule :=
  if state.slab.Full then .ok { state with returned := state.returned ++ [.noMemSlab] }
  else if used : block ∈ state.slab.inUse then .error .disabled
  else .ok { state with
    slab := state.slab.alloc block used
    calls := state.calls ++ [⟨item, block, false⟩] }

/-- The item is written in the block. -/
def fillBlock (position : Nat) (state : PutModule) : Except Stop PutModule :=
  match state.calls[position]? with
  | some call =>
    if call.filled then .error .disabled
    else .ok { state with
      memory := Function.update state.memory call.block call.item
      calls := state.calls.set position { call with filled := true } }
  | none => .error .disabled

/-- `k_msgq_put` with `K_FOREVER`, and the return. -/
def submitBlock (position : Nat) (state : PutModule) : Except Stop PutModule :=
  match state.calls[position]? with
  | some call =>
    if !call.filled then .error .disabled
    else if state.msgq.length ≥ queueMaxItems then .error .blocked
    else .ok { state with
      calls := state.calls.eraseIdx position
      msgq := state.msgq ++ [call.block]
      returned := state.returned ++ [.ok]
      accepted := state.accepted ++ [call.item] }
  | none => .error .disabled

/-- `k_msgq_get` of the put thread. -/
def getBlock (state : PutModule) : Except Stop PutModule :=
  match state.putThread, state.msgq with
  | .waiting, block :: rest => .ok { state with putThread := .got block, msgq := rest }
  | .waiting, [] => .error .blocked
  | _, _ => .error .disabled

/-- The put thread copies the context. -/
def copyBlock (state : PutModule) : Except Stop PutModule :=
  match state.putThread with
  | .got block => .ok { state with
      putThread := .copied block (state.memory block)
      copied := state.copied ++ [state.memory block] }
  | _ => .error .disabled

/-- The put thread frees the item. -/
def freeBlock (state : PutModule) : Except Stop PutModule :=
  match state.putThread with
  | .copied block item => .ok { state with
      putThread := .freed item
      slab := state.slab.free block }
  | _ => .error .disabled

/-- The section of the put thread. -/
def leaveSection (ended : Bool) (state : PutModule) : Except Stop PutModule :=
  match state.putThread with
  | .freed _ => .ok { state with putThread := if ended then .returned else .inserted }
  | _ => .error .disabled

/-- The put thread notifies the executor. -/
def giveCount (state : PutModule) : Except Stop PutModule :=
  match state.putThread with
  | .inserted => .ok { state with putThread := .waiting }
  | _ => .error .disabled

/-- One atomic action of a caller or of the put thread. -/
def putStep (state : PutModule) : PutEvent → Except Stop PutModule
  | .call item block => beginCall item block state
  | .fill position => fillBlock position state
  | .submit position => submitBlock position state
  | .get => getBlock state
  | .copy => copyBlock state
  | .free => freeBlock state
  | .insert ended => leaveSection ended state
  | .give => giveCount state

/-- At boot all blocks are free. -/
structure PutBooted (state : PutModule) : Prop where
  slab : state.slab = .empty
  calls : state.calls = []
  msgq : state.msgq = []
  putThread : state.putThread = .waiting
  returned : state.returned = []
  accepted : state.accepted = []
  copied : state.copied = []

/-- A run of callers and put thread. -/
abbrev PutRun (start : PutModule) (steps : List (Transition.Step PutModule PutEvent))
    (final : PutModule) : Prop :=
  Transition.Run (Transition.stepOf putStep) start steps final

/-! ### What a step does -/

/-- The outcomes of the actions. -/
inductive PutMove (state : PutModule) : PutEvent → PutModule → Prop
  | refused (item : QueueItem) (block : ItemBlock) (full : state.slab.Full) :
      PutMove state (.call item block)
        { state with returned := state.returned ++ [.noMemSlab] }
  | allocated (item : QueueItem) (block : ItemBlock) (room : ¬ state.slab.Full)
      (free : block ∉ state.slab.inUse) :
      PutMove state (.call item block) { state with
        slab := state.slab.alloc block free
        calls := state.calls ++ [⟨item, block, false⟩] }
  | filled (position : Nat) (call : PutCall) (running : state.calls[position]? = some call)
      (empty : call.filled = false) :
      PutMove state (.fill position) { state with
        memory := Function.update state.memory call.block call.item
        calls := state.calls.set position { call with filled := true } }
  | submitted (position : Nat) (call : PutCall) (running : state.calls[position]? = some call)
      (filled : call.filled = true) (place : state.msgq.length < queueMaxItems) :
      PutMove state (.submit position) { state with
        calls := state.calls.eraseIdx position
        msgq := state.msgq ++ [call.block]
        returned := state.returned ++ [.ok]
        accepted := state.accepted ++ [call.item] }
  | got (block : ItemBlock) (rest : List ItemBlock) (waiting : state.putThread = .waiting)
      (message : state.msgq = block :: rest) :
      PutMove state .get { state with putThread := .got block, msgq := rest }
  | copied (block : ItemBlock) (got : state.putThread = .got block) :
      PutMove state .copy { state with
        putThread := .copied block (state.memory block)
        copied := state.copied ++ [state.memory block] }
  | freed (block : ItemBlock) (item : QueueItem) (copied : state.putThread = .copied block item) :
      PutMove state .free { state with
        putThread := .freed item
        slab := state.slab.free block }
  | left (ended : Bool) (item : QueueItem) (freed : state.putThread = .freed item) :
      PutMove state (.insert ended)
        { state with putThread := if ended then .returned else .inserted }
  | gave (inserted : state.putThread = .inserted) :
      PutMove state .give { state with putThread := .waiting }

/-- Every step has one of the outcomes. -/
theorem putMove_of_step {state after : PutModule} {event : PutEvent}
    (stepped : putStep state event = .ok after) : PutMove state event after := by
  cases event with
  | call item block =>
    change beginCall item block state = .ok after at stepped
    unfold beginCall at stepped
    split at stepped
    · rename_i full
      exact ok_inj stepped ▸ PutMove.refused item block full
    · rename_i room
      split at stepped
      · cases stepped
      · rename_i free
        exact ok_inj stepped ▸ PutMove.allocated item block room free
  | fill position =>
    change fillBlock position state = .ok after at stepped
    unfold fillBlock at stepped
    split at stepped
    · rename_i call running
      split at stepped
      · cases stepped
      · rename_i empty
        exact ok_inj stepped ▸ PutMove.filled position call running (by simpa using empty)
    · cases stepped
  | submit position =>
    change submitBlock position state = .ok after at stepped
    unfold submitBlock at stepped
    split at stepped
    · rename_i call running
      split at stepped
      · cases stepped
      · rename_i filled
        split at stepped
        · cases stepped
        · rename_i place
          exact ok_inj stepped ▸ PutMove.submitted position call running (by simpa using filled)
            (Nat.lt_of_not_le place)
    · cases stepped
  | get =>
    change getBlock state = .ok after at stepped
    unfold getBlock at stepped
    split at stepped
    · rename_i block rest waiting message
      exact ok_inj stepped ▸ PutMove.got block rest waiting message
    · cases stepped
    · cases stepped
  | copy =>
    change copyBlock state = .ok after at stepped
    unfold copyBlock at stepped
    split at stepped
    · rename_i block got
      exact ok_inj stepped ▸ PutMove.copied block got
    · cases stepped
  | free =>
    change freeBlock state = .ok after at stepped
    unfold freeBlock at stepped
    split at stepped
    · rename_i block item copied
      exact ok_inj stepped ▸ PutMove.freed block item copied
    · cases stepped
  | insert ended =>
    change leaveSection ended state = .ok after at stepped
    unfold leaveSection at stepped
    split at stepped
    · rename_i item freed
      exact ok_inj stepped ▸ PutMove.left ended item freed
    · cases stepped
  | give =>
    change giveCount state = .ok after at stepped
    unfold giveCount at stepped
    split at stepped
    · rename_i inserted
      exact ok_inj stepped ▸ PutMove.gave inserted
    · cases stepped

/-! ### Where the blocks are -/

/-- The block that the put thread holds. -/
def PutPointer.blocks : PutPointer → List ItemBlock
  | .got block => [block]
  | .copied block _ => [block]
  | _ => []

/-- The blocks of the callers, of the messages and of the put thread. -/
def PutModule.places (state : PutModule) : List ItemBlock :=
  state.calls.map PutCall.block ++ (state.msgq ++ state.putThread.blocks)

/-- The items that are not processed yet. -/
def PutModule.unprocessed (state : PutModule) : Nat :=
  state.msgq.length + state.calls.length + state.putThread.blocks.length

theorem PutModule.unprocessed_eq (state : PutModule) :
    state.unprocessed = state.places.length := by
  unfold PutModule.unprocessed PutModule.places
  rw [List.length_append, List.length_append, List.length_map]
  omega

/-- The items that are accepted and not copied yet, in the order of their messages. -/
def PutModule.pending (state : PutModule) : List QueueItem :=
  (match state.putThread with
    | .got block => [state.memory block]
    | _ => []) ++ state.msgq.map state.memory

/-- Each block in use is in one place, a filled block holds the item of its call, and the
accepted items are copied in their order. -/
structure PutModule.Holds (state : PutModule) : Prop where
  placed : state.slab.Placed state.places
  filled : ∀ call ∈ state.calls, call.filled = true → state.memory call.block = call.item
  items : state.accepted = state.copied ++ state.pending

namespace PutModule.Holds

variable {state after : PutModule} {event : PutEvent}

/-- The books: the blocks in use are the items that are not processed yet. -/
theorem counted (holds : state.Holds) : state.unprocessed = state.slab.inUse.length :=
  state.unprocessed_eq.trans holds.placed.length_eq

/-- There is a place for every block that a caller holds. -/
theorem place (holds : state.Holds) (running : state.calls ≠ []) :
    state.msgq.length < queueMaxItems := by
  have bound := state.slab.length_le
  have calls := List.length_pos_iff.mpr running
  rw [← holds.counted] at bound
  unfold PutModule.unprocessed at bound
  omega

/-- The blocks of the calls are different. -/
theorem calls_nodup (holds : state.Holds) : (state.calls.map PutCall.block).Nodup :=
  (List.nodup_append.mp holds.placed.nodup).1

/-- Filling a block changes no message and nothing that the put thread is about to copy. -/
theorem pending_update (holds : state.Holds) {call : PutCall} (member : call ∈ state.calls)
    (item : QueueItem) :
    PutModule.pending { state with memory := Function.update state.memory call.block item } =
      state.pending := by
  have apart : ∀ other ∈ state.msgq ++ state.putThread.blocks, other ≠ call.block :=
    fun other place same => (List.nodup_append.mp holds.placed.nodup).2.2 call.block
      (List.mem_map_of_mem member) other place same.symm
  have messages : state.msgq.map (Function.update state.memory call.block item) =
      state.msgq.map state.memory :=
    List.map_congr_left fun other place =>
      Function.update_of_ne (apart other (List.mem_append_left _ place)) _ _
  unfold PutModule.pending
  dsimp only
  rw [messages]
  cases thread : state.putThread with
  | got block =>
    have other : block ≠ call.block :=
      apart block (List.mem_append_right _ (by rw [thread]; exact List.mem_cons_self))
    dsimp only
    rw [Function.update_of_ne other]
  | _ => rfl

/-- A call fills its block. -/
theorem fill (holds : state.Holds) {position : Nat} {call : PutCall}
    (running : state.calls[position]? = some call) (empty : call.filled = false) :
    PutModule.Holds { state with
      memory := Function.update state.memory call.block call.item
      calls := state.calls.set position { call with filled := true } } := by
  obtain ⟨short, same⟩ := List.getElem?_eq_some_iff.mp running
  have member : call ∈ state.calls := List.mem_of_getElem? running
  refine ⟨?_, ?_, ?_⟩
  · have blocks : (state.calls.set position { call with filled := true }).map PutCall.block =
        state.calls.map PutCall.block := by
      rw [List.map_set]
      have bound : position < (state.calls.map PutCall.block).length := by
        rw [List.length_map]
        exact short
      have block : (state.calls.map PutCall.block)[position] = call.block := by
        rw [List.getElem_map, same]
      rw [← block, List.set_getElem_self]
    refine holds.placed.move (List.Perm.of_eq ?_)
    show (state.calls.set position { call with filled := true }).map PutCall.block ++ _ = _
    rw [blocks]
    rfl
  · intro other otherMember filled
    rcases List.mem_or_eq_of_mem_set otherMember with old | rfl
    · have apart : other.block ≠ call.block := by
        intro shared
        obtain rfl := List.inj_on_of_nodup_map holds.calls_nodup old member shared
        rw [empty] at filled
        cases filled
      show Function.update state.memory call.block call.item other.block = other.item
      rw [Function.update_of_ne apart]
      exact holds.filled other old filled
    · exact Function.update_self _ _ _
  · exact holds.items.trans (congrArg (state.copied ++ ·) (holds.pending_update member _).symm)

/-- A call submits its block. -/
theorem submit (holds : state.Holds) {position : Nat} {call : PutCall}
    (running : state.calls[position]? = some call) (filled : call.filled = true) :
    PutModule.Holds { state with
      calls := state.calls.eraseIdx position
      msgq := state.msgq ++ [call.block]
      returned := state.returned ++ [.ok]
      accepted := state.accepted ++ [call.item] } := by
  obtain ⟨short, same⟩ := List.getElem?_eq_some_iff.mp running
  have member : call ∈ state.calls := List.mem_of_getElem? running
  have wrote := holds.filled call member filled
  refine ⟨?_, fun other otherMember => ?_, ?_⟩
  · have split : state.calls.Perm (call :: state.calls.eraseIdx position) := by
      rw [← same]
      exact (List.getElem_cons_eraseIdx_perm short).symm
    have moved : (state.msgq ++ [call.block] ++ state.putThread.blocks).Perm
        (call.block :: (state.msgq ++ state.putThread.blocks)) := by
      rw [List.append_assoc, List.singleton_append]
      exact List.perm_middle
    refine holds.placed.move ?_
    calc (state.calls.eraseIdx position).map PutCall.block ++
          (state.msgq ++ [call.block] ++ state.putThread.blocks)
      _ |>.Perm ((state.calls.eraseIdx position).map PutCall.block ++
          (call.block :: (state.msgq ++ state.putThread.blocks))) := moved.append_left _
      _ |>.Perm (call.block :: ((state.calls.eraseIdx position).map PutCall.block ++
          (state.msgq ++ state.putThread.blocks))) := List.perm_middle
      _ |>.Perm state.places := ((split.map PutCall.block).symm).append_right _
  · exact holds.filled other (List.mem_of_mem_eraseIdx otherMember)
  · show state.accepted ++ [call.item] = state.copied ++
      (_ ++ (state.msgq ++ [call.block]).map state.memory)
    rw [holds.items, List.map_append, List.map_singleton, wrote, List.append_assoc]
    unfold PutModule.pending
    rw [List.append_assoc]

/-- Every step keeps the blocks in their places. -/
theorem kept (holds : state.Holds) (move : PutMove state event after) : after.Holds := by
  cases move with
  | refused item block full => exact ⟨holds.placed, holds.filled, holds.items⟩
  | allocated item block room free =>
    refine ⟨?_, fun call member filled => ?_, holds.items⟩
    · refine holds.placed.alloc free ?_
      unfold PutModule.places
      rw [List.map_append, List.append_assoc]
      exact List.perm_middle
    · rcases List.mem_append.mp member with old | new
      · exact holds.filled call old filled
      · rw [List.mem_singleton.mp new] at filled
        cases filled
  | filled position call running empty => exact holds.fill running empty
  | submitted position call running filled place => exact holds.submit running filled
  | got block rest waiting message =>
    have placed := holds.placed
    have items := holds.items
    unfold PutModule.places at placed
    unfold PutModule.pending at items
    rw [waiting, message] at placed items
    refine ⟨placed.move (List.Perm.append_left _ ?_), holds.filled, items⟩
    rw [show PutPointer.waiting.blocks = [] from rfl, List.append_nil]
    exact List.perm_append_singleton block rest
  | copied block got =>
    have placed := holds.placed
    have items := holds.items
    unfold PutModule.places at placed
    unfold PutModule.pending at items
    rw [got] at placed items
    refine ⟨placed, holds.filled, ?_⟩
    show state.accepted =
      state.copied ++ [state.memory block] ++ ([] ++ state.msgq.map state.memory)
    rw [items, List.append_assoc]
    rfl
  | freed block item copied =>
    have placed := holds.placed
    have items := holds.items
    unfold PutModule.places at placed
    unfold PutModule.pending at items
    rw [copied] at placed items
    refine ⟨placed.free ?_, holds.filled, items⟩
    rw [← List.append_assoc]
    refine (List.perm_append_singleton block _).trans ?_
    unfold PutModule.places
    rw [show (PutPointer.freed item).blocks = [] from rfl, List.append_nil]
  | left ended item freed =>
    have placed := holds.placed
    have items := holds.items
    unfold PutModule.places at placed
    unfold PutModule.pending at items
    rw [freed] at placed items
    cases ended with
    | false => exact ⟨placed, holds.filled, items⟩
    | true => exact ⟨placed, holds.filled, items⟩
  | gave inserted =>
    have placed := holds.placed
    have items := holds.items
    unfold PutModule.places at placed
    unfold PutModule.pending at items
    rw [inserted] at placed items
    exact ⟨placed, holds.filled, items⟩

/-- A call that has a block never waits: every action of a caller is carried out. -/
theorem neverBlocks (holds : state.Holds) (ofCaller : event.OfCaller) :
    putStep state event ≠ .error .blocked := by
  cases event with
  | call item block =>
    show beginCall item block state ≠ _
    unfold beginCall
    split
    · nofun
    · split <;> nofun
  | fill position =>
    show fillBlock position state ≠ _
    unfold fillBlock
    split
    · split <;> nofun
    · nofun
  | submit position =>
    show submitBlock position state ≠ _
    unfold submitBlock
    split
    · rename_i call running
      have member : call ∈ state.calls := List.mem_of_getElem? running
      rw [if_neg (Nat.not_le.mpr (holds.place (List.ne_nil_of_mem member)))]
      split <;> nofun
    · nofun
  | get => exact absurd ofCaller id
  | copy => exact absurd ofCaller id
  | free => exact absurd ofCaller id
  | insert ended => exact absurd ofCaller id
  | give => exact absurd ofCaller id

/-- The slab is full exactly when its blocks hold that many items that are not processed yet. -/
theorem full_iff (holds : state.Holds) : state.slab.Full ↔ state.unprocessed = queueMaxItems := by
  rw [holds.counted]
  exact ⟨fun full => le_antisymm state.slab.length_le full, fun all => le_of_eq all.symm⟩

end PutModule.Holds

/-! ### The put function never blocks -/

/-- What holds at every moment. -/
structure PutModule.Safe (state : PutModule) : Prop where
  /-- The messages, the items of the callers and the item of the put thread are the blocks in
  use. -/
  counted : state.msgq.length + state.calls.length + state.putThread.blocks.length =
    state.slab.inUse.length
  bound : state.slab.inUse.length ≤ queueMaxItems
  /-- No block in use is out of these places, and none is in two of them. -/
  placed : state.slab.Placed state.places
  /-- The block that the put thread is about to free is in use. -/
  frees : ∀ block item, state.putThread = .copied block item → block ∈ state.slab.inUse
  /-- No caller waits. -/
  neverBlocks : ∀ event : PutEvent, event.OfCaller → putStep state event ≠ .error .blocked
  /-- The items of the successful calls are copied, each once and in their order. -/
  items : state.accepted = state.copied ++ state.pending

/-- What a step does to the calls and to the slab. -/
structure PutKept (before : PutModule) (event : PutEvent) (after : PutModule) : Prop where
  /-- A call fails exactly when all blocks hold unprocessed items. -/
  refused : after.returned = before.returned ++ [.noMemSlab] ↔
    (∃ item block, event = .call item block) ∧ before.unprocessed = queueMaxItems
  /-- And then nothing else is changed. -/
  unchanged : after.returned = before.returned ++ [.noMemSlab] →
    after = { before with returned := before.returned ++ [.noMemSlab] }
  /-- Only the put thread frees a block, and then the block is in no place any more. -/
  freed : ∀ block ∈ before.slab.inUse, block ∉ after.slab.inUse →
    event = .free ∧ block ∉ after.places

theorem PutModule.Holds.safe {state : PutModule} (holds : state.Holds) : state.Safe where
  counted := holds.counted
  bound := state.slab.length_le
  placed := holds.placed
  frees := fun block item copied => by
    refine holds.placed.mem_iff.mp (List.mem_append_right _ (List.mem_append_right _ ?_))
    rw [copied]
    exact List.mem_cons_self
  neverBlocks := fun _ ofCaller => holds.neverBlocks ofCaller
  items := holds.items

/-- Every step keeps what is promised of the calls and of the slab. -/
theorem PutMove.putKept {before after : PutModule} {event : PutEvent} (holds : before.Holds)
    (move : PutMove before event after) : PutKept before event after := by
  have quiet : ∀ code : ErrorCode, before.returned ≠ before.returned ++ [code] :=
    fun code same => by simpa using congrArg List.length same
  have freed : ∀ block ∈ before.slab.inUse, block ∉ after.slab.inUse →
      event = .free ∧ block ∉ after.places := by
    intro block used unused
    refine ⟨?_, fun place => unused ((holds.kept move).placed.mem_iff.mp place)⟩
    cases move with
    | freed other item copied => rfl
    | allocated item other room free => exact absurd (List.mem_cons_of_mem _ used) unused
    | _ => exact absurd used unused
  cases move with
  | refused item block full =>
    exact ⟨⟨fun _ => ⟨⟨item, block, rfl⟩, holds.full_iff.mp full⟩, fun _ => rfl⟩,
      fun _ => rfl, freed⟩
  | allocated item block room free =>
    refine ⟨⟨fun same => absurd same (quiet _), fun ⟨_, all⟩ => ?_⟩,
      fun same => absurd same (quiet _), freed⟩
    exact absurd (holds.full_iff.mpr all) room
  | submitted position call running filled place =>
    have other : before.returned ++ [.ok] ≠ before.returned ++ [ErrorCode.noMemSlab] :=
      fun same => by simpa using List.append_cancel_left same
    exact ⟨⟨fun same => absurd same other, fun ⟨⟨_, _, call⟩, _⟩ => nomatch call⟩,
      fun same => absurd same other, freed⟩
  | _ =>
    exact ⟨⟨fun same => absurd same (quiet _), fun ⟨⟨_, _, call⟩, _⟩ => nomatch call⟩,
      fun same => absurd same (quiet _), freed⟩

variable {start final : PutModule} {steps : List (Transition.Step PutModule PutEvent)}

theorem PutBooted.holds (booted : PutBooted start) : start.Holds := by
  refine ⟨?_, fun call member => ?_, ?_⟩
  · unfold PutModule.places Slab.Placed
    rw [booted.slab, booted.calls, booted.msgq, booted.putThread]
    exact List.Perm.refl _
  · rw [booted.calls] at member
    cases member
  · unfold PutModule.pending
    rw [booted.accepted, booted.copied, booted.msgq, booted.putThread]
    rfl

theorem holds_of_putRun (booted : PutBooted start) (run : PutRun start steps final) :
    final.Holds :=
  run.invariant PutModule.Holds (fun _ _ => True)
    (fun _ _ _ _ holds stepped => holds.kept (putMove_of_step stepped)) (fun _ _ => trivial)
    booted.holds

/-- For every interleaving of any number of callers with each other and with the put thread, the
books of the item slab are in order in every state, no caller waits, and a call fails exactly
when all blocks hold unprocessed items, without any other change. -/
theorem put_never_blocks (booted : PutBooted start) (run : PutRun start steps final) :
    final.Safe ∧ ∀ taken ∈ steps, taken.before.Safe ∧
      PutKept taken.before taken.label taken.after := by
  have passes := run.invariant_before PutModule.Holds (fun _ _ => True)
    (fun _ _ _ _ holds stepped => holds.kept (putMove_of_step stepped)) (fun _ _ => trivial)
    booted.holds
  refine ⟨(holds_of_putRun booted run).safe, fun taken member => ?_⟩
  have holds := passes taken member
  exact ⟨holds.safe, (putMove_of_step (run.taken taken member)).putKept holds⟩

/-- A filler for the blocks that were never written. -/
def emptyItem : QueueItem := ⟨.placeholder, 0, .user⟩

/-- All blocks are free, and no call was made yet. -/
def noCalls : PutModule := ⟨.empty, fun _ => emptyItem, [], [], .waiting, [], [], []⟩

/-- A second call is faster than the first, and while the put thread copies the item seven more
calls take the other blocks; the call after them fails. -/
def crowdedCalls : List PutEvent :=
  [.call ⟨.timeGet, priorityLow, .user⟩ 3, .call ⟨.init, priorityHigh, .user⟩ 5, .fill 1,
    .submit 1, .get, .fill 0] ++
  [0, 1, 2, 4, 6, 7].map (PutEvent.call ⟨.deinit, priorityLow, .user⟩) ++
  [.call ⟨.timeGet, priorityHigh, .user⟩ 0, .submit 0, .copy, .free]

/-- The failed call is the only one of them that fails. -/
theorem put_never_blocks_crowded :
    ∃ (final : PutModule) (steps : List (Transition.Step PutModule PutEvent)),
      PutRun noCalls steps final ∧ final.returned = [.ok, .noMemSlab, .ok] ∧
        final.copied = [⟨.init, priorityHigh, .user⟩] ∧ final.unprocessed = 7 ∧ final.Safe ∧
        ∀ taken ∈ steps, taken.before.Safe ∧ PutKept taken.before taken.label taken.after := by
  have run := Transition.followAll_run putStep noCalls crowdedCalls (by decide +kernel)
  exact ⟨_, _, run, by decide +kernel, by decide +kernel, by decide +kernel,
    put_never_blocks ⟨rfl, rfl, rfl, rfl, rfl, rfl, rfl⟩ run⟩

/-! ### Atomic calls -/

/-- The put thread with its pointer is the put thread with the item of the block. -/
def PutPointer.view (memory : ItemBlock → QueueItem) : PutPointer → PutThread
  | .waiting => .waiting
  | .got block => .fetched (memory block)
  | .copied _ item => .fetched item
  | .freed item => .copied item
  | .inserted => .inserted
  | .returned => .returned

/-- The queue is what the blocks hold, between the calls. -/
structure Mirrors (state : PutModule) (queue : Queue) : Prop where
  calls : state.calls = []
  itemSlab : queue.itemSlab = state.slab.inUse.length
  msgq : queue.msgq = state.msgq.map state.memory
  putThread : queue.putThread = state.putThread.view state.memory

theorem Mirrors.same {state : PutModule} {before after : Queue} (mirrors : Mirrors state before)
    (itemSlab : after.itemSlab = before.itemSlab) (msgq : after.msgq = before.msgq)
    (putThread : after.putThread = before.putThread) : Mirrors state after :=
  ⟨mirrors.calls, itemSlab.trans mirrors.itemSlab, msgq.trans mirrors.msgq,
    putThread.trans mirrors.putThread⟩

/-- The module can follow the queue: some steps bring it to a state that mirrors the queue. -/
def Follows (state : PutModule) (queue : Queue) : Prop :=
  ∃ steps final, PutRun state steps final ∧ Mirrors final queue

theorem Mirrors.follows {state : PutModule} {queue : Queue} (mirrors : Mirrors state queue) :
    Follows state queue := ⟨[], state, Transition.Run.nil state, mirrors⟩

/-- A call that finds no free block. -/
theorem Mirrors.refuse {state : PutModule} {queue : Queue} (mirrors : Mirrors state queue)
    (full : queueMaxItems ≤ queue.itemSlab) (item : QueueItem) :
    Follows state (queue.refuse item) := by
  have refused : putStep state (.call item 0) =
      .ok { state with returned := state.returned ++ [.noMemSlab] } := by
    show beginCall item 0 state = _
    unfold beginCall
    rw [if_pos (show state.slab.Full from le_of_le_of_eq full mirrors.itemSlab)]
  exact ⟨_, _, Transition.Run.single refused,
    mirrors.calls, mirrors.itemSlab, mirrors.msgq, mirrors.putThread⟩

/-- What the messages and the put thread hold is not changed by writing a free block. -/
theorem Mirrors.write {state : PutModule} {queue : Queue} (mirrors : Mirrors state queue)
    (holds : state.Holds) {block : ItemBlock} (free : block ∉ state.slab.inUse)
    (item : QueueItem) :
    queue.msgq = state.msgq.map (Function.update state.memory block item) ∧
      queue.putThread = state.putThread.view (Function.update state.memory block item) := by
  have apart : ∀ other ∈ state.msgq ++ state.putThread.blocks, other ≠ block := by
    rintro other place rfl
    exact free (holds.placed.mem_iff.mp (List.mem_append_right _ place))
  constructor
  · rw [mirrors.msgq]
    exact List.map_congr_left fun other member =>
      (Function.update_of_ne (apart other (List.mem_append_left _ member)) _ _).symm
  · rw [mirrors.putThread]
    cases thread : state.putThread with
    | got other =>
      have different := apart other
        (List.mem_append_right _ (by rw [thread]; exact List.mem_cons_self))
      exact congrArg PutThread.fetched (Function.update_of_ne different _ _).symm
    | _ => rfl

/-- A call that gets a block, fills it and submits it without interruption. -/
theorem Mirrors.accept {state : PutModule} {queue : Queue} (mirrors : Mirrors state queue)
    (holds : state.Holds) (room : queue.itemSlab < queueMaxItems) (item : QueueItem) :
    Follows state (queue.accept item) := by
  have notFull : ¬ state.slab.Full := Nat.not_le.mpr (mirrors.itemSlab ▸ room)
  obtain ⟨block, free⟩ := Slab.exists_free notFull
  obtain ⟨messages, thread⟩ := mirrors.write holds free item
  have place : state.msgq.length < queueMaxItems := by
    have counted := holds.counted
    unfold PutModule.unprocessed at counted
    rw [← mirrors.itemSlab] at counted
    omega
  have called : putStep state (.call item block) = .ok { state with
      slab := state.slab.alloc block free
      calls := [⟨item, block, false⟩] } := by
    show beginCall item block state = _
    unfold beginCall
    rw [if_neg notFull, dif_neg free, mirrors.calls]
    rfl
  have filled : putStep { state with
        slab := state.slab.alloc block free
        calls := [⟨item, block, false⟩] } (.fill 0) = .ok { state with
      slab := state.slab.alloc block free
      memory := Function.update state.memory block item
      calls := [⟨item, block, true⟩] } := rfl
  have submitted : putStep { state with
        slab := state.slab.alloc block free
        memory := Function.update state.memory block item
        calls := [⟨item, block, true⟩] } (.submit 0) = .ok { state with
      slab := state.slab.alloc block free
      memory := Function.update state.memory block item
      calls := []
      msgq := state.msgq ++ [block]
      returned := state.returned ++ [.ok]
      accepted := state.accepted ++ [item] } :=
    if_neg (Nat.not_le.mpr place)
  refine ⟨_, _, ((Transition.Run.single called).snoc filled).snoc submitted, rfl, ?_, ?_, thread⟩
  · show queue.itemSlab + 1 = (state.slab.alloc block free).inUse.length
    rw [Slab.length_alloc, mirrors.itemSlab]
  · show queue.msgq ++ [item] =
      (state.msgq ++ [block]).map (Function.update state.memory block item)
    rw [List.map_append, List.map_singleton, Function.update_self, messages]

/-- A call that is not interrupted is `dectPhyQueuePut`. -/
theorem Mirrors.put {state : PutModule} {queue after : Queue} {item : QueueItem}
    {code : ErrorCode} (mirrors : Mirrors state queue) (holds : state.Holds)
    (put : dectPhyQueuePut item queue = .ok (code, after)) : Follows state after := by
  rcases dectPhyQueuePut_cases put with ⟨_, full, rfl⟩ | ⟨_, room, rfl⟩
  · exact mirrors.refuse full item
  · exact mirrors.accept holds room item

/-- The put thread gets a block. -/
theorem Mirrors.get {state : PutModule} {queue after : Queue} (mirrors : Mirrors state queue)
    (got : putThreadGet queue = .ok after) : Follows state after := by
  obtain ⟨item, rest, waiting, message, rfl⟩ := putThreadGet_cases got
  have thread := mirrors.putThread.symm.trans waiting
  have items := mirrors.msgq.symm.trans message
  cases pointer : state.putThread with
  | waiting =>
    obtain ⟨block, blocks, blocksWaiting, rfl, rfl⟩ := List.map_eq_cons_iff.mp items
    have stepped : putStep state .get =
        .ok { state with putThread := .got block, msgq := blocks } := by
      show getBlock state = _
      unfold getBlock
      rw [pointer, blocksWaiting]
    exact ⟨_, _, Transition.Run.single stepped, mirrors.calls, mirrors.itemSlab, rfl, rfl⟩
  | _ =>
    rw [pointer] at thread
    cases thread

/-- The put thread copies the item, if it has not yet, and frees its block. -/
theorem Mirrors.free {state : PutModule} {queue after : Queue} (mirrors : Mirrors state queue)
    (holds : state.Holds) (freed : putThreadFree queue = .ok after) : Follows state after := by
  obtain ⟨item, fetched, rfl⟩ := putThreadFree_cases freed
  have thread := mirrors.putThread.symm.trans fetched
  have frees : ∀ (middle : PutModule) (block : ItemBlock), Mirrors middle queue →
      middle.putThread = .copied block item → block ∈ middle.slab.inUse →
        ∃ final, putStep middle .free = .ok final ∧ Mirrors final
          { queue with putThread := .copied item, itemSlab := queue.itemSlab - 1 } := by
    intro middle block same pointer used
    refine ⟨{ middle with putThread := .freed item, slab := middle.slab.free block }, ?_,
      same.calls, ?_, same.msgq, rfl⟩
    · show freeBlock middle = _
      unfold freeBlock
      rw [pointer]
    · show queue.itemSlab - 1 = (middle.slab.free block).inUse.length
      rw [Slab.length_free _ used, same.itemSlab]
  cases pointer : state.putThread with
  | got block =>
    rw [pointer] at thread
    obtain rfl := PutThread.fetched.inj thread
    have copied : putStep state .copy = .ok { state with
        putThread := .copied block (state.memory block)
        copied := state.copied ++ [state.memory block] } := by
      show copyBlock state = _
      unfold copyBlock
      rw [pointer]
    have used := (holds.kept (putMove_of_step copied)).safe.frees block _ rfl
    have same : Mirrors { state with
        putThread := .copied block (state.memory block)
        copied := state.copied ++ [state.memory block] } queue :=
      ⟨mirrors.calls, mirrors.itemSlab, mirrors.msgq, fetched⟩
    obtain ⟨final, stepped, same⟩ := frees _ block same rfl used
    exact ⟨_, final, (Transition.Run.single copied).snoc stepped, same⟩
  | copied block copy =>
    rw [pointer] at thread
    obtain rfl := PutThread.fetched.inj thread
    obtain ⟨final, stepped, same⟩ := frees state block mirrors pointer
      (holds.safe.frees block _ pointer)
    exact ⟨_, final, Transition.Run.single stepped, same⟩
  | _ =>
    rw [pointer] at thread
    cases thread

/-- The put thread leaves the section, wherever it goes. -/
theorem Mirrors.leave {state : PutModule} {queue after : Queue} {item : QueueItem}
    (mirrors : Mirrors state queue) (copied : queue.putThread = .copied item)
    (itemSlab : after.itemSlab = queue.itemSlab) (msgq : after.msgq = queue.msgq) (ended : Bool)
    (left : after.putThread = if ended then .returned else .inserted) : Follows state after := by
  have thread := mirrors.putThread.symm.trans copied
  cases pointer : state.putThread with
  | freed own =>
    have stepped : putStep state (.insert ended) =
        .ok { state with putThread := if ended then .returned else .inserted } := by
      show leaveSection ended state = _
      unfold leaveSection
      rw [pointer]
    refine ⟨_, _, Transition.Run.single stepped, mirrors.calls, itemSlab.trans mirrors.itemSlab,
      msgq.trans mirrors.msgq, left.trans ?_⟩
    cases ended with
    | false => rfl
    | true => rfl
  | _ =>
    rw [pointer] at thread
    cases thread

/-- The put thread goes back to waiting. -/
theorem Mirrors.give {state : PutModule} {queue after : Queue} (mirrors : Mirrors state queue)
    (gave : putThreadGive queue = .ok after) : Follows state after := by
  obtain ⟨inserted, rfl⟩ := putThreadGive_cases gave
  have thread := mirrors.putThread.symm.trans inserted
  cases pointer : state.putThread with
  | inserted =>
    have stepped : putStep state .give = .ok { state with putThread := .waiting } := by
      show giveCount state = _
      unfold giveCount
      rw [pointer]
    exact ⟨_, _, Transition.Run.single stepped, mirrors.calls, mirrors.itemSlab, mirrors.msgq, rfl⟩
  | _ =>
    rw [pointer] at thread
    cases thread

/-- Every move of the queue with atomic calls is followed by the module in pieces. -/
theorem QueueMove.follows {before after : Queue} {event : Event config} {state : PutModule}
    (move : QueueMove before event after) (mirrors : Mirrors state before)
    (holds : state.Holds) : Follows state after := by
  cases move with
  | put outside put => exact mirrors.put holds put
  | putGet ran => exact mirrors.get ran
  | putFree ran => exact mirrors.free holds ran
  | putInsert ran =>
    obtain ⟨item, copied, _, ⟨_, rfl⟩ | ⟨_, rfl⟩ | ⟨_, _, rfl⟩⟩ := putThreadInsert_cases ran
    · exact mirrors.leave copied rfl rfl true rfl
    · exact mirrors.leave copied rfl rfl true rfl
    · exact mirrors.leave copied rfl rfl false rfl
  | putGive ran => exact mirrors.give ran
  | execTakePhy ran =>
    obtain ⟨_, _, rfl⟩ := execThreadTakePhy_cases ran
    exact Mirrors.follows (mirrors.same rfl rfl rfl)
  | execTakeItem ran =>
    obtain ⟨_, _, rfl⟩ := execThreadTakeItem_cases ran
    exact Mirrors.follows (mirrors.same rfl rfl rfl)
  | execRemove ran =>
    obtain ⟨_, item, rest, _, ⟨_, rfl⟩ | ⟨_, rfl⟩⟩ := execThreadRemove_cases ran <;>
      exact Mirrors.follows (mirrors.same rfl rfl rfl)
  | execDispatch executing => exact Mirrors.follows (mirrors.same rfl rfl rfl)
  | elsewhere outside same =>
    exact Mirrors.follows (mirrors.same same.itemSlab same.msgq same.putThread)

/-- So the machine with atomic calls is a special case: in every run of the program the queue is
one that callers and put thread can make, and what is proved of these holds of it. -/
theorem run_follows {start final : System config}
    {steps : List (Transition.Step (System config) (Event config))} (booted : Booted start)
    (run : Run start steps final) {state : PutModule} (free : PutBooted state) :
    ∃ putSteps putFinal, PutRun state putSteps putFinal ∧ Mirrors putFinal final.queue := by
  have actions := actions_of_run booted run
  induction run with
  | nil =>
    obtain ⟨deviceId, allocations, _, rfl⟩ := booted
    refine ⟨[], state, Transition.Run.nil state, free.calls, ?_, ?_, ?_⟩
    · rw [free.slab]
      rfl
    · rw [free.msgq]
      rfl
    · rw [free.putThread]
      rfl
  | @snoc middle final steps event earlier last inductionHypothesis =>
    obtain ⟨putSteps, putMiddle, putRun, mirrors⟩ := inductionHypothesis
      fun taken member => actions taken (List.mem_append_left _ member)
    have action := (actions _ (List.mem_append_right _ List.mem_cons_self)).2
    obtain ⟨more, putFinal, rest, same⟩ :=
      action.queueMove.follows mirrors (holds_of_putRun free putRun)
    exact ⟨_, putFinal, putRun.append rest, same⟩

end DectHarq
