/-
This file follows the nodes of the list down to the blocks of the node slab.

The list is linked through blocks that the put thread allocates and the executor frees;
the node of a permanent item is linked again at the tail without leaving its block. In
every run, and whichever free blocks the slab returns, the linked blocks are exactly the
ones in use and hold the items of the list. So a block that is freed is linked no more,
and a block that is allocated was not linked.
-/

import DectHarq.QueueBooks
import DectHarq.QueueOrder
import DectHarq.Library.Slab

namespace DectHarq

variable {config : Config}

/-! ### The blocks of the nodes -/

/-- A block of the node slab. -/
abbrev NodeBlock := Fin queueMaxItems

/-- `dect_mac_phy_handler_queue_node_slab`, what the blocks hold, and the list from its head. -/
structure NodeBlocks where
  slab : Slab queueMaxItems
  memory : NodeBlock → QueueItem
  linked : List NodeBlock

namespace NodeBlocks

/-- The item of a block is inserted by its priority. -/
def link (block : NodeBlock) (blocks : NodeBlocks) : NodeBlocks :=
  { blocks with
    linked := StableQueue.insertStable (priorityKey ∘ blocks.memory) block blocks.linked }

/-- The section of the put thread: `block` is the free block that the slab returns. -/
def insertSection (item : QueueItem) (block : NodeBlock) (blocks : NodeBlocks) :
    Except Stop NodeBlocks :=
  if blocks.slab.Full then .ok blocks
  else if used : block ∈ blocks.slab.inUse then .error .disabled
  else
    let allocated : NodeBlocks := { blocks with
      slab := blocks.slab.alloc block used
      memory := Function.update blocks.memory block item }
    if allocated.linked.length ≥ queueMaxItems then .ok allocated
    else .ok (allocated.link block)

/-- The section of the executor. -/
def removeSection (blocks : NodeBlocks) : Except Stop NodeBlocks :=
  match blocks.linked with
  | [] => .error .nullPointer
  | head :: rest =>
    if (blocks.memory head).priority = priorityPermanent then
      .ok { blocks with linked := rest ++ [head] }
    else .ok { blocks with slab := blocks.slab.free head, linked := rest }

end NodeBlocks

/-- The system with the blocks of its list. -/
structure LinkedSystem (config : Config) where
  system : System config
  blocks : NodeBlocks

/-- What a step does to the blocks: the two sections under the mutex work on them. -/
def blocksStep (system : System config) (event : Event config) (block : NodeBlock)
    (blocks : NodeBlocks) : Except Stop NodeBlocks :=
  match event, system.queue.putThread with
  | .putInsert, .copied item => blocks.insertSection item block
  | .execRemove, _ => blocks.removeSection
  | _, _ => .ok blocks

/-- One atomic action, with the block that the node slab returns if it is asked for one. -/
def linkedStep (linked : LinkedSystem config) (label : Event config × NodeBlock) :
    Except Stop (LinkedSystem config) := do
  let system ← step linked.system label.1
  let blocks ← blocksStep linked.system label.1 label.2 linked.blocks
  .ok ⟨system, blocks⟩

/-- A system at boot, all of whose node blocks are free. -/
def LinkedBooted (linked : LinkedSystem config) : Prop :=
  Booted linked.system ∧ linked.blocks.slab = .empty ∧ linked.blocks.linked = []

/-- A run with the blocks that the slab returns. -/
abbrev LinkedRun (start : LinkedSystem config)
    (steps : List (Transition.Step (LinkedSystem config) (Event config × NodeBlock)))
    (final : LinkedSystem config) : Prop :=
  Transition.Run (Transition.stepOf linkedStep) start steps final

/-- The linked blocks are exactly the ones in use, each of them once, and hold the items of the
list. -/
structure NodeBlocks.Holds (blocks : NodeBlocks) (queue : Queue) : Prop where
  placed : blocks.slab.Placed blocks.linked
  items : blocks.linked.map blocks.memory = queue.list

namespace NodeBlocks.Holds

variable {blocks after : NodeBlocks} {queue : Queue}

theorem length_eq (holds : blocks.Holds queue) :
    blocks.slab.inUse.length = queue.list.length := by
  rw [← holds.placed.length_eq, ← holds.items, List.length_map]

theorem full_iff (holds : blocks.Holds queue) :
    blocks.slab.Full ↔ queueMaxItems ≤ queue.list.length := by
  unfold Slab.Full
  rw [holds.length_eq]

theorem link_items (holds : blocks.Holds queue) {item : QueueItem} {block : NodeBlock}
    (free : block ∉ blocks.slab.inUse) :
    (StableQueue.insertStable (priorityKey ∘ Function.update blocks.memory block item) block
        blocks.linked).map (Function.update blocks.memory block item) =
      insertNode item queue.list := by
  have others : blocks.linked.map (Function.update blocks.memory block item) = queue.list := by
    rw [← holds.items]
    refine List.map_congr_left fun other member => Function.update_of_ne ?_ _ _
    rintro rfl
    exact free (holds.placed.mem_iff.mp member)
  rw [StableQueue.insertStable_map, Function.update_self, others, insertNode_eq]

/-- The section of the put thread inserts the same item in the list and in the blocks. -/
theorem inserted (holds : blocks.Holds queue) (agreed : queue.Agreed) {queueAfter : Queue}
    {item : QueueItem} {block : NodeBlock} (copied : queue.putThread = .copied item)
    (ran : putThreadInsert queue = .ok queueAfter)
    (linked : blocks.insertSection item block = .ok after) : after.Holds queueAfter := by
  obtain ⟨own, same, _, outcome⟩ := agreed.insert_cases ran
  obtain rfl : item = own := PutThread.copied.inj (copied.symm.trans same)
  unfold NodeBlocks.insertSection at linked
  rcases outcome with ⟨full, rfl⟩ | ⟨room, rfl⟩
  · rw [if_pos (holds.full_iff.mpr (le_of_eq full.symm))] at linked
    cases linked
    exact ⟨holds.placed, holds.items⟩
  · rw [if_neg fun full => absurd (holds.full_iff.mp full) (Nat.not_le.mpr room)] at linked
    split at linked
    · cases linked
    · rename_i free
      have short : blocks.linked.length < queueMaxItems := by
        rw [holds.placed.length_eq, holds.length_eq]
        exact room
      dsimp only at linked
      rw [if_neg (Nat.not_le.mpr short)] at linked
      cases linked
      refine ⟨?_, holds.link_items free⟩
      exact holds.placed.alloc free (StableQueue.insertStable_perm _ _ _)

/-- The section of the executor removes the same item from the list and from the blocks. -/
theorem removed (holds : blocks.Holds queue) {queueAfter : Queue}
    (ran : execThreadRemove queue = .ok queueAfter) (unlinked : blocks.removeSection = .ok after) :
    after.Holds queueAfter := by
  obtain ⟨_, item, rest, list, outcome⟩ := execThreadRemove_cases ran
  have items := holds.items
  have placed := holds.placed
  unfold NodeBlocks.removeSection at unlinked
  cases linked : blocks.linked with
  | nil =>
    rw [linked] at unlinked
    cases unlinked
  | cons head tail =>
    rw [linked, list] at items
    rw [linked] at placed unlinked
    obtain ⟨ofHead, ofTail⟩ := List.cons.inj items
    dsimp only at unlinked
    rcases outcome with ⟨permanent, rfl⟩ | ⟨once, rfl⟩
    · rw [if_pos (show (blocks.memory head).priority = priorityPermanent from
        ofHead ▸ permanent)] at unlinked
      cases unlinked
      refine ⟨placed.move (List.perm_append_singleton head tail), ?_⟩
      show (tail ++ [head]).map blocks.memory = rest ++ [item]
      rw [List.map_append, ofTail, List.map_singleton, ofHead]
    · rw [if_neg (show (blocks.memory head).priority ≠ priorityPermanent from
        ofHead ▸ once)] at unlinked
      cases unlinked
      exact ⟨placed.free (List.Perm.refl _), ofTail⟩

/-- The slab always has a block to return when it is asked for one. -/
theorem insertSection_returns (blocks : NodeBlocks) (item : QueueItem) :
    ∃ block after, blocks.insertSection item block = .ok after := by
  unfold NodeBlocks.insertSection
  by_cases full : blocks.slab.Full
  · exact ⟨0, blocks, if_pos full⟩
  · obtain ⟨block, free⟩ := Slab.exists_free full
    refine ⟨block, ?_⟩
    rw [if_neg full, dif_neg free]
    dsimp only
    split
    · exact ⟨_, rfl⟩
    · exact ⟨_, rfl⟩

theorem removeSection_returns (holds : blocks.Holds queue) {queueAfter : Queue}
    (ran : execThreadRemove queue = .ok queueAfter) :
    ∃ after, blocks.removeSection = .ok after := by
  obtain ⟨_, item, rest, list, _⟩ := execThreadRemove_cases ran
  have items := holds.items
  unfold NodeBlocks.removeSection
  cases linked : blocks.linked with
  | nil =>
    rw [linked, list] at items
    cases items
  | cons head tail =>
    dsimp only
    split
    · exact ⟨_, rfl⟩
    · exact ⟨_, rfl⟩

end NodeBlocks.Holds

/-! ### The steps -/

theorem blocksStep_other {system : System config} {event : Event config} (block : NodeBlock)
    (blocks : NodeBlocks) (notInsert : event ≠ .putInsert) (notRemove : event ≠ .execRemove) :
    blocksStep system event block blocks = .ok blocks := by
  unfold blocksStep
  split
  · exact absurd rfl notInsert
  · exact absurd rfl notRemove
  · rfl

/-- Every step keeps the blocks and the list together. -/
theorem blocksStep_holds {system after : System config} {event : Event config}
    {block : NodeBlock} {blocks blocksAfter : NodeBlocks} (action : Action system event after)
    (agreed : system.queue.Agreed) (holds : blocks.Holds system.queue)
    (stepped : blocksStep system event block blocks = .ok blocksAfter) :
    blocksAfter.Holds after.queue := by
  by_cases isInsert : event = .putInsert
  · subst isInsert
    have ran := putInsert_action action
    obtain ⟨item, copied, _, _⟩ := putThreadInsert_cases ran
    unfold blocksStep at stepped
    rw [copied] at stepped
    exact holds.inserted agreed copied ran stepped
  · by_cases isRemove : event = .execRemove
    · subst isRemove
      exact holds.removed (execRemove_action action) stepped
    · rw [blocksStep_other block blocks isInsert isRemove] at stepped
      cases stepped
      exact ⟨holds.placed, holds.items.trans (action.list_other isInsert isRemove).symm⟩

/-- Every step of the system can be taken with its blocks. -/
theorem blocksStep_returns {system after : System config} {event : Event config}
    {blocks : NodeBlocks} (action : Action system event after) (holds : blocks.Holds system.queue) :
    ∃ block blocksAfter, blocksStep system event block blocks = .ok blocksAfter := by
  by_cases isInsert : event = .putInsert
  · subst isInsert
    obtain ⟨item, copied, _, _⟩ := putThreadInsert_cases (putInsert_action action)
    obtain ⟨block, blocksAfter, ran⟩ := NodeBlocks.Holds.insertSection_returns blocks item
    refine ⟨block, blocksAfter, ?_⟩
    unfold blocksStep
    rw [copied]
    exact ran
  · by_cases isRemove : event = .execRemove
    · subst isRemove
      obtain ⟨blocksAfter, ran⟩ := holds.removeSection_returns (execRemove_action action)
      exact ⟨0, blocksAfter, ran⟩
    · exact ⟨0, blocks, blocksStep_other _ blocks isInsert isRemove⟩

/-- What the books of the list promise in a state. -/
structure LinkedSystem.Safe (linked : LinkedSystem config) : Prop where
  /-- The semaphore, the slab and the list agree. -/
  agreed : linked.system.queue.Agreed
  /-- The blocks in use are the linked ones, each linked once, with the items of the list. -/
  holds : linked.blocks.Holds linked.system.queue
  /-- The executor finds a node. -/
  finds : linked.system.queue.execThread = .removing → linked.blocks.linked ≠ []
  /-- No count that a thread is about to give exceeds the limit of the semaphore. -/
  gives : linked.system.queue.putThread = .inserted ∨
    linked.system.queue.execThread = .removing →
      linked.system.queue.queueItemSem < queueMaxItems

/-- What a step leaves of the blocks: no linked node is overwritten, a block that is freed is
linked no more, and a block that is allocated was not linked. -/
structure BlocksKept (before after : NodeBlocks) : Prop where
  memory : ∀ block ∈ before.linked, after.memory block = before.memory block
  freed : ∀ block ∈ before.slab.inUse, block ∉ after.slab.inUse → block ∉ after.linked
  allocated : ∀ block ∈ after.slab.inUse, block ∉ before.slab.inUse → block ∉ before.linked

theorem LinkedSystem.safe {linked : LinkedSystem config} (agreed : linked.system.queue.Agreed)
    (holds : linked.blocks.Holds linked.system.queue) : linked.Safe where
  agreed := agreed
  holds := holds
  finds := fun removing empty => by
    have items := holds.items
    rw [empty] at items
    exact agreed.nonempty removing items.symm
  gives := fun gives => by
    have counts := agreed.counts
    have bound := agreed.bound
    rcases gives with inserted | removing
    · rw [inserted] at counts
      dsimp only [PutThread.ungiven] at counts
      omega
    · rw [removing] at counts
      dsimp only [ExecThread.unremoved] at counts
      omega

/-- The two sections leave the linked nodes as they are. -/
theorem blocksStep_memory {system : System config} {event : Event config} {block : NodeBlock}
    {blocks after : NodeBlocks} (holds : blocks.Holds system.queue)
    (stepped : blocksStep system event block blocks = .ok after) :
    ∀ linked ∈ blocks.linked, after.memory linked = blocks.memory linked := by
  unfold blocksStep at stepped
  split at stepped
  · rename_i item _
    unfold NodeBlocks.insertSection at stepped
    split at stepped
    · cases stepped
      exact fun _ _ => rfl
    · split at stepped
      · cases stepped
      · rename_i free
        intro linked member
        have apart : linked ≠ block := by
          rintro rfl
          exact free (holds.placed.mem_iff.mp member)
        dsimp only at stepped
        split at stepped
        · cases stepped
          exact Function.update_of_ne apart _ _
        · cases stepped
          exact Function.update_of_ne apart _ _
  · unfold NodeBlocks.removeSection at stepped
    split at stepped
    · cases stepped
    · split at stepped
      · cases stepped
        exact fun _ _ => rfl
      · cases stepped
        exact fun _ _ => rfl
  · cases stepped
    exact fun _ _ => rfl

variable {start final : LinkedSystem config}
  {steps : List (Transition.Step (LinkedSystem config) (Event config × NodeBlock))}

/-- What the steps of a run with blocks keep. -/
def LinkedSystem.Kept (linked : LinkedSystem config) : Prop :=
  linked.system.harq.Sound ∧ linked.system.queue.Agreed ∧
    linked.blocks.Holds linked.system.queue

theorem LinkedSystem.Kept.step {before after : LinkedSystem config}
    {label : Event config × NodeBlock} (kept : before.Kept)
    (stepped : linkedStep before label = .ok after) : after.Kept := by
  obtain ⟨sound, agreed, holds⟩ := kept
  obtain ⟨system, ran, rest⟩ := bind_ok.mp stepped
  obtain ⟨blocks, ranBlocks, rest⟩ := bind_ok.mp rest
  cases rest
  have action := action_of_step sound ran
  exact ⟨(action.move sound).1.sound sound, action.queueMove.agreed agreed,
    blocksStep_holds action agreed holds ranBlocks⟩

theorem LinkedBooted.kept (booted : LinkedBooted start) : start.Kept := by
  obtain ⟨system, slab, linked⟩ := booted
  have agreed := boot_agreed system
  obtain ⟨deviceId, allocations, _, same⟩ := system
  refine ⟨same ▸ boot_sound config, agreed, ?_, ?_⟩
  · rw [slab, linked]
    exact List.Perm.refl []
  · rw [linked, same]
    rfl

/-- In every run from boot, whichever free blocks the node slab returns, the books of the list
are in order in every state, and every step leaves the linked nodes alone. -/
theorem list_books_agree (booted : LinkedBooted start) (run : LinkedRun start steps final) :
    final.Safe ∧ ∀ taken ∈ steps, taken.before.Safe ∧
      BlocksKept taken.before.blocks taken.after.blocks := by
  have keep : ∀ (before : LinkedSystem config) (label : Event config × NodeBlock)
      (after : LinkedSystem config), True → before.Kept →
        Transition.stepOf linkedStep before label after → after.Kept :=
    fun _ _ _ _ kept stepped => kept.step stepped
  have ends := run.invariant _ (fun _ _ => True) keep (fun _ _ => trivial) booted.kept
  have passes := run.invariant_before _ (fun _ _ => True) keep (fun _ _ => trivial) booted.kept
  refine ⟨LinkedSystem.safe ends.2.1 ends.2.2, fun taken member => ?_⟩
  have before := passes taken member
  have stepped := run.taken taken member
  have after := before.step stepped
  refine ⟨LinkedSystem.safe before.2.1 before.2.2, ?_, ?_, ?_⟩
  · obtain ⟨system, ran, rest⟩ := bind_ok.mp stepped
    obtain ⟨blocks, ranBlocks, rest⟩ := bind_ok.mp rest
    rw [← ok_inj rest]
    exact blocksStep_memory before.2.2 ranBlocks
  · exact fun block _ freed linked => freed (after.2.2.placed.mem_iff.mp linked)
  · exact fun block _ unused linked => unused (before.2.2.placed.mem_iff.mp linked)

/-- Device 5 after boot; no node block holds anything yet. -/
def linkedDevice : LinkedSystem projectConfig where
  system := device
  blocks := ⟨.empty, fun _ => ⟨.placeholder, 0, .user⟩, []⟩

/-- A permanent reception is inserted in block 2 and a time request in block 0. The request is
served, then the reception, which goes back to the tail in its block. -/
def blocksServed : List (Event projectConfig × NodeBlock) :=
  [(.queuePut (.rx ⟨0, 0, 100, 0, 0⟩) priorityPermanent, 0), (.putGet, 0), (.putFree, 0),
    (.putInsert, 2), (.putGive, 0), (.queuePut .timeGet priorityHigh, 0), (.putGet, 0),
    (.putFree, 0), (.putInsert, 0), (.putGive, 0), (.execTakePhy, 0), (.execTakeItem, 0),
    (.execRemove, 0), (.execDispatch 0, 0), (.management 0 .success ⟨0, 0⟩, 0), (.execTakePhy, 0),
    (.execTakeItem, 0), (.execRemove, 0)]

/-- The books are in order on the way and in the end. -/
theorem list_books_agree_reception :
    ∃ (final : LinkedSystem projectConfig) (steps : List (Transition.Step
        (LinkedSystem projectConfig) (Event projectConfig × NodeBlock))),
      LinkedRun linkedDevice steps final ∧ final.blocks.linked = [2] ∧ final.Safe ∧
        ∀ taken ∈ steps, taken.before.Safe ∧
          BlocksKept taken.before.blocks taken.after.blocks := by
  have run := Transition.followAll_run linkedStep linkedDevice blocksServed (by decide +kernel)
  exact ⟨_, _, run, by decide +kernel, list_books_agree ⟨device_booted, rfl, rfl⟩ run⟩

/-- Every run of the system is a run with blocks, for some blocks that the slab returns. -/
theorem exists_linkedRun {system systemFinal : System config}
    {taken : List (Transition.Step (System config) (Event config))}
    (run : Run system taken systemFinal) {blocks : NodeBlocks}
    (kept : LinkedSystem.Kept ⟨system, blocks⟩) :
    ∃ linkedSteps blocksFinal, LinkedRun ⟨system, blocks⟩ linkedSteps ⟨systemFinal, blocksFinal⟩ ∧
      linkedSteps.map (fun step => step.label.1) = taken.map (fun step => step.label) := by
  suffices lifted : ∃ linkedSteps blocksFinal,
      LinkedRun ⟨system, blocks⟩ linkedSteps ⟨systemFinal, blocksFinal⟩ ∧
        linkedSteps.map (fun step => step.label.1) = taken.map (fun step => step.label) ∧
        LinkedSystem.Kept ⟨systemFinal, blocksFinal⟩ by
    obtain ⟨linkedSteps, blocksFinal, run, same, _⟩ := lifted
    exact ⟨linkedSteps, blocksFinal, run, same⟩
  induction run with
  | nil => exact ⟨[], blocks, Transition.Run.nil _, rfl, kept⟩
  | @snoc middle final steps label earlier last inductionHypothesis =>
    obtain ⟨linkedSteps, blocksMiddle, linkedRun, same, middleKept⟩ := inductionHypothesis
    have action := action_of_step middleKept.1 last
    obtain ⟨block, blocksAfter, ran⟩ := blocksStep_returns action middleKept.2.2
    have stepped : linkedStep ⟨middle, blocksMiddle⟩ (label, block) = .ok ⟨final, blocksAfter⟩ :=
      bind_ok.mpr ⟨final, last, bind_ok.mpr ⟨blocksAfter, ran, rfl⟩⟩
    refine ⟨_, blocksAfter, Transition.Run.snoc linkedRun stepped, ?_, middleKept.step stepped⟩
    rw [List.map_append, List.map_append, same]
    rfl

end DectHarq
