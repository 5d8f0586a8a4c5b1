/-
This file settles how long a node is kept after its last use.

The cleaning thread deletes the nodes whose flag it finds clear and clears the flag of the
others. The getters that find a node, the setters and the optimizations set the flag; the
creation of a record leaves it clear. So a node that is created and not used again before
the next pass is deleted by this pass, however short the time was. The flag is tested
without the mutex, so a node is deleted too that another thread uses between the test and
the deletion, or whose record replaced the tested one.
-/

import DectHarq.TableLife

namespace DectHarq

variable {config : Config}

/-! ### The records at a pointer -/

/-- The record at a pointer, if there is one, is a record of the address. -/
def NodeHeap.StoresAt (heap : NodeHeap) (pointer address : Nat) : Prop :=
  ∃ node, heap.records pointer = some node ∧ node.address = address

section Pointers

variable {heap : NodeHeap} {pointer address : Nat}

theorem NodeHeap.storesAt_modify {change : Node → Node}
    (keeps : ∀ node, (change node).address = node.address) {own : Nat}
    (stores : (heap.modify change own).StoresAt pointer address) :
    heap.StoresAt pointer address := by
  obtain ⟨node, record, key⟩ := stores
  obtain ⟨old, present, same⟩ := NodeHeap.modify_records keeps record
  exact ⟨old, present, same.symm.trans key⟩

theorem NodeHeap.storesAt_insert {own : Nat} {node : Node} (distinct : address ≠ node.address)
    (stores : (heap.insert own node).StoresAt pointer address) : heap.StoresAt pointer address := by
  obtain ⟨present, record, key⟩ := stores
  by_cases same : pointer = own
  · subst same
    cases (NodeHeap.write_records_self heap pointer (some node)).symm.trans record
    exact absurd key.symm distinct
  · exact ⟨present, (NodeHeap.write_records_of_ne _ _ same).symm.trans record, key⟩

/-- Where an event does not use the node of an address, it brings no record of the address to a
pointer, and the pointer stays that of the node if it is. -/
theorem Touch.storesAt {before after : NodeHeap} {written : Option (Nat × FlagWrite)}
    (touch : Touch before written after)
    (unused : ∀ write, written = some (address, write) → write.isUse = false)
    (stores : after.StoresAt pointer address) :
    before.StoresAt pointer address ∧
      (before.map.lookup address = some pointer → after.map.lookup address = some pointer) := by
  cases touch with
  | idle => exact ⟨stores, id⟩
  | mark marks own =>
    rw [NodeHeap.modify_map]
    exact ⟨NodeHeap.storesAt_modify marks.address stores, id⟩
  | create free clear =>
    rename_i own node
    have distinct : address ≠ node.address := fun same => by
      cases unused .created (by rw [same])
    exact ⟨NodeHeap.storesAt_insert distinct stores, (AList.lookup_insert_ne distinct).trans⟩
  | remove found =>
    rename_i own freed
    obtain ⟨node, record, key⟩ := stores
    have apart : pointer ≠ freed := by
      rintro rfl
      cases (NodeHeap.write_records_self before pointer none).symm.trans record
    refine ⟨⟨node, (NodeHeap.write_records_of_ne _ _ apart).symm.trans record, key⟩,
      fun mapped => ?_⟩
    have distinct : address ≠ own := by
      rintro rfl
      exact apart (Option.some.inj (mapped.symm.trans found))
    exact (AList.lookup_erase_ne distinct).trans mapped
  | clear record =>
    rename_i cleared node
    obtain ⟨present, stored, key⟩ := stores
    refine ⟨?_, id⟩
    by_cases same : pointer = cleared
    · subst same
      cases (NodeHeap.write_records_self before pointer _).symm.trans stored
      exact ⟨node, record, key⟩
    · exact ⟨present, (NodeHeap.write_records_of_ne _ _ same).symm.trans stored, key⟩

end Pointers

/-! ### The pointers of the cleaning thread -/

/-- The pointers that the cleaning thread has taken from the iterator and not done with. -/
def Cleaner.held : Cleaner → List Nat
  | .asleep => []
  | .iterating value => value.toList
  | .testing value next => value.toList ++ next.toList
  | .reading pointer next => pointer :: next.toList
  | .deleting _ next => next.toList
  | .clearing pointer next => pointer :: next.toList

/-- The cleaning thread found a flag clear and has not deleted the node yet. -/
def Cleaner.condemns : Cleaner → Bool
  | .reading _ _ => true
  | .deleting _ _ => true
  | _ => false

theorem Cleaner.held_goOn (next : Option Nat) : (Cleaner.goOn next).held = next.toList := by
  cases next <;> rfl

theorem Cleaner.condemns_goOn (next : Option Nat) : (Cleaner.goOn next).condemns = false := by
  cases next <;> rfl

section Moves

variable {heap after : NodeHeap} {cleaner next : Cleaner} {event : PassEvent}

/-- The cleaning thread takes mapped pointers only. -/
theorem PassMove.held (move : PassMove heap cleaner event after next) {pointer : Nat}
    (member : pointer ∈ next.held) :
    pointer ∈ cleaner.held ∨ (pointer ∈ heap.pointers ∧ after = heap) := by
  cases move with
  | start mapped => exact Or.inr ⟨mapped pointer (Option.mem_toList.mp member), rfl⟩
  | advance value mapped =>
    rcases List.mem_append.mp member with kept | taken
    · exact Or.inl kept
    · obtain rfl := List.mem_singleton.mp taken
      exact Or.inr ⟨mapped, rfl⟩
  | leave => cases member
  | finish value =>
    rw [Cleaner.held, Option.toList_none, List.append_nil] at member
    exact Or.inl member
  | unused => exact Or.inl member
  | used => exact Or.inl member
  | read => exact Or.inl (List.mem_cons_of_mem _ member)
  | delete _ rest =>
    rw [Cleaner.held_goOn] at member
    exact Or.inl member
  | clear rest =>
    rw [Cleaner.held_goOn] at member
    exact Or.inl (List.mem_cons_of_mem _ member)

/-- Only a test condemns a node. -/
theorem PassMove.condemns (move : PassMove heap cleaner event after next) (other : event ≠ .test)
    (condemned : next.condemns = true) : cleaner.condemns = true := by
  cases move with
  | unused => exact absurd rfl other
  | used => exact absurd rfl other
  | read => rfl
  | delete _ rest =>
    rw [Cleaner.condemns_goOn] at condemned
    cases condemned
  | clear rest =>
    rw [Cleaner.condemns_goOn] at condemned
    cases condemned
  | _ => cases condemned

end Moves

section Life

variable {Thread : Type}

/-! ### Deletions -/

/-- The last step of a pass. -/
def endsPass (taken : Transition.Step (LifeState Thread) (LifeEvent Thread)) : Bool :=
  match taken.label with
  | .pass _ => taken.after.cleaner = .asleep
  | _ => false

/-- The steps up to the last test of a pass, at a pointer: `since` are those from the end of the
pass before it, or from boot, to the test, and `between` those after the test. -/
structure PassTests (pointer : Nat)
    (earlier since between : List (Transition.Step (LifeState Thread) (LifeEvent Thread)))
    (test : Transition.Step (LifeState Thread) (LifeEvent Thread)) : Prop where
  previous : ∀ last ∈ earlier.getLast?, endsPass last = true
  period : ∀ taken ∈ since ++ test :: between, endsPass taken = false
  tests : test.label.isTest = true ∧ ∃ next, test.before.cleaner = .testing (some pointer) next
  once : ∀ taken ∈ between, taken.label.isTest = false

/-- A step is the deletion of the node of an address by the cleaning thread. -/
structure DeletesNode (address : Nat)
    (deletion : Transition.Step (LifeState Thread) (LifeEvent Thread)) : Prop where
  deletes : deletion.label = .pass .delete ∧
    ∃ next, deletion.before.cleaner = .deleting address next
  present : (deletion.before.heap.get address).isSome = true

/-- A pass deletes the node of an address after its last test. -/
structure PassDeletes (address pointer : Nat)
    (earlier since between : List (Transition.Step (LifeState Thread) (LifeEvent Thread)))
    (test deletion : Transition.Step (LifeState Thread) (LifeEvent Thread)) : Prop extends
    PassTests pointer earlier since between test, DeletesNode address deletion

/-- What the test tells of the uses of the node. -/
structure Noticed (address pointer : Nat)
    (since between : List (Transition.Step (LifeState Thread) (LifeEvent Thread)))
    (test : Transition.Step (LifeState Thread) (LifeEvent Thread)) : Prop where
  /-- The tested record is that of the node: no creation replaced it. -/
  current : test.before.heap.map.lookup address = some pointer
  /-- The creation of the node was not the last to write its flag. -/
  notCreated : lastWrite address since ≠ some .created
  /-- The pass did not clear the flag itself after a use of the node. -/
  notCleared : lastWrite address since = some .cleared →
    ∀ taken ∈ since, usesNode address taken = false
  /-- The node is not used between the test and the deletion. -/
  quiet : ∀ taken ∈ between, usesNode address taken = false

/-! ### What holds until a deletion -/

/-- A pointer of the cleaning thread at which there is a record of the address is that of the
node. -/
def LifeState.HoldsCurrent (state : LifeState Thread) (address : Nat) : Prop :=
  ∀ pointer ∈ state.cleaner.held, state.heap.StoresAt pointer address →
    state.heap.map.lookup address = some pointer

/-- What the cleaning thread does between the test at a pointer and a deletion: it reads the address
at this pointer, and where the address is the given one, the tested record had it. -/
structure Pursues (address pointer : Nat) (tested : NodeHeap) (state : LifeState Thread) :
    Prop where
  stored : state.heap.StoresAt pointer address → tested.StoresAt pointer address
  reading : ∀ own next, state.cleaner = .reading own next → own = pointer
  deleting : ∀ next, state.cleaner = .deleting address next → tested.StoresAt pointer address

variable [DecidableEq Thread]

/-- As long as a node is not used, the cleaning thread has no pointer of a record that was
replaced. -/
theorem LifeState.HoldsCurrent.step {before after : LifeState Thread} {event : LifeEvent Thread}
    {address : Nat} (current : before.HoldsCurrent address) (sound : before.heap.Sound)
    (stepped : lifeStep config before event = .ok after)
    (unused : usesNode address ⟨before, event, after⟩ = false) : after.HoldsCurrent address := by
  intro pointer member stores
  obtain ⟨stored, stays⟩ :=
    (lifeStep_touch stepped).storesAt (usesNode_eq_false_iff.mp unused) stores
  cases event with
  | pass event =>
    rcases (lifeStep_pass stepped).held member with kept | ⟨mapped, same⟩
    · exact stays (current pointer kept stored)
    · obtain ⟨node, record, found⟩ := sound.record_of_pointer mapped
      obtain ⟨present, here, rfl⟩ := stored
      cases record.symm.trans here
      exact stays found
  | access event =>
    rw [lifeStep_cleaner stepped (fun _ => nofun)] at member
    exact stays (current pointer member stored)
  | store =>
    rw [lifeStep_cleaner stepped (fun _ => nofun)] at member
    exact stays (current pointer member stored)
  | create thread own outcome node txPower mcs =>
    rw [lifeStep_cleaner stepped (fun _ => nofun)] at member
    exact stays (current pointer member stored)

/-- Where a node is condemned, the last test was the one that condemned it. -/
theorem lifeStep_condemns {before after : LifeState Thread} {event : LifeEvent Thread}
    (stepped : lifeStep config before event = .ok after) (other : event.isTest = false)
    (condemned : after.cleaner.condemns = true) : before.cleaner.condemns = true := by
  cases event with
  | pass event =>
    refine (lifeStep_pass stepped).condemns ?_ condemned
    rintro rfl
    cases other
  | access event => rwa [lifeStep_cleaner stepped (fun _ => nofun)] at condemned
  | store => rwa [lifeStep_cleaner stepped (fun _ => nofun)] at condemned
  | create thread own outcome node txPower mcs =>
    rwa [lifeStep_cleaner stepped (fun _ => nofun)] at condemned

theorem Pursues.step {address pointer : Nat} {tested : NodeHeap} {before after : LifeState Thread}
    {event : LifeEvent Thread} (pursues : Pursues address pointer tested before)
    (stepped : lifeStep config before event = .ok after) (other : event.isTest = false)
    (unused : usesNode address ⟨before, event, after⟩ = false) :
    Pursues address pointer tested after := by
  have stored (stores : after.heap.StoresAt pointer address) : tested.StoresAt pointer address :=
    pursues.stored
      ((lifeStep_touch stepped).storesAt (usesNode_eq_false_iff.mp unused) stores).1
  have still (same : after.cleaner = before.cleaner) : Pursues address pointer tested after :=
    ⟨stored, same ▸ pursues.reading, same ▸ pursues.deleting⟩
  cases event with
  | access event => exact still (lifeStep_cleaner stepped (fun _ => nofun))
  | store => exact still (lifeStep_cleaner stepped (fun _ => nofun))
  | create thread own outcome node txPower mcs =>
    exact still (lifeStep_cleaner stepped (fun _ => nofun))
  | pass event =>
    have move := lifeStep_pass stepped
    obtain ⟨⟨heap, phase⟩, optimization, cleaner⟩ := before
    obtain ⟨⟨heapAfter, phaseAfter⟩, optimizationAfter, cleanerAfter⟩ := after
    dsimp only at move
    cases move with
    | unused => cases other
    | used => cases other
    | read next record =>
      obtain rfl := pursues.reading _ _ rfl
      refine ⟨stored, nofun, fun _ same => ?_⟩
      cases same
      exact stored ⟨_, record, rfl⟩
    | delete _ next => cases next <;> exact ⟨stored, nofun, nofun⟩
    | clear next => cases next <;> exact ⟨stored, nofun, nofun⟩
    | _ => exact ⟨stored, nofun, nofun⟩

/-! ### The nodes that a pass deletes -/

section Deletion

variable {steps earlier since between later :
    List (Transition.Step (LifeState Thread) (LifeEvent Thread))}
  {test deletion : Transition.Step (LifeState Thread) (LifeEvent Thread)}
  {final : LifeState Thread} {address pointer : Nat}

/-- A test reads the flag at a pointer. -/
theorem test_cases {before after : LifeState Thread} {event : LifeEvent Thread}
    (stepped : lifeStep config before event = .ok after) (test : event.isTest = true) :
    ∃ own node next, before.cleaner = .testing (some own) next ∧
      before.heap.records own = some node ∧ after.heap = before.heap ∧
      after.cleaner = if node.used then .clearing own next else .reading own next := by
  cases event with
  | access event => cases test
  | store => cases test
  | create thread own outcome node txPower mcs => cases test
  | pass event =>
    have move := lifeStep_pass stepped
    obtain ⟨⟨heap, phase⟩, optimization, cleaner⟩ := before
    obtain ⟨⟨heapAfter, phaseAfter⟩, optimizationAfter, cleanerAfter⟩ := after
    dsimp only at move ⊢
    cases move with
    | unused next record unused => exact ⟨_, _, next, rfl, record, rfl, by rw [unused]; rfl⟩
    | used next record used => exact ⟨_, _, next, rfl, record, rfl, by rw [used]; rfl⟩
    | _ => cases test

/-- A test that condemns a node found a clear flag. -/
theorem test_condemns {before after : LifeState Thread} {event : LifeEvent Thread}
    (stepped : lifeStep config before event = .ok after) (test : event.isTest = true)
    (found : ∃ next, before.cleaner = .testing (some pointer) next)
    (condemned : after.cleaner.condemns = true) :
    ∃ node next, before.heap.records pointer = some node ∧ node.used = false ∧
      after.heap = before.heap ∧ after.cleaner = .reading pointer next := by
  obtain ⟨own, node, next, testing, record, same, left⟩ := test_cases stepped test
  obtain ⟨_, here⟩ := found
  cases testing.symm.trans here
  cases used : node.used with
  | true =>
    rw [left, used] at condemned
    cases condemned
  | false =>
    rw [used] at left
    exact ⟨node, next, record, used, same, left⟩

/-- The cleaning thread sleeps between two passes. -/
theorem asleep_after_pass {middle : LifeState Thread}
    (run : LifeRun config earlier middle)
    (previous : ∀ last ∈ earlier.getLast?, endsPass last = true) :
    middle.cleaner = .asleep := by
  cases run with
  | nil => rfl
  | snoc early stepped =>
    have ends := previous _ List.getLast?_concat
    unfold endsPass at ends
    split at ends
    · exact of_decide_eq_true ends
    · cases ends

/-- The steps so far, cut where the last pass ended, and also at the last test if it condemned a
node. -/
def Cuts (steps : List (Transition.Step (LifeState Thread) (LifeEvent Thread)))
    (state : LifeState Thread) : Prop :=
  (∃ earlier since, steps = earlier ++ since ∧ (∀ last ∈ earlier.getLast?, endsPass last = true) ∧
      ∀ taken ∈ since, endsPass taken = false) ∧
    (state.cleaner.condemns = true → ∃ pointer earlier since test between,
      steps = earlier ++ since ++ test :: between ∧ PassTests pointer earlier since between test)

theorem Cuts.step {earlier : List (Transition.Step (LifeState Thread) (LifeEvent Thread))}
    {taken : Transition.Step (LifeState Thread) (LifeEvent Thread)}
    (cuts : Cuts earlier taken.before)
    (stepped : lifeStep config taken.before taken.label = .ok taken.after) :
    Cuts (earlier ++ [taken]) taken.after := by
  obtain ⟨⟨first, since, cut, ended, within⟩, condemned⟩ := cuts
  cases ends : endsPass taken with
  | true =>
    refine ⟨⟨earlier ++ [taken], [], (List.append_nil _).symm, ?_,
      fun _ none => absurd none List.not_mem_nil⟩, fun now => ?_⟩
    · intro last listed
      rw [List.getLast?_concat] at listed
      cases listed
      exact ends
    · -- the thread sleeps
      unfold endsPass at ends
      split at ends
      · rw [of_decide_eq_true ends] at now
        cases now
      · cases ends
  | false =>
    have goesOn (member) (listed : member ∈ since ++ [taken]) : endsPass member = false := by
      rcases List.mem_append.mp listed with old | new
      · exact within member old
      · rwa [List.mem_singleton.mp new]
    refine ⟨⟨first, since ++ [taken], by rw [cut, List.append_assoc], ended, goesOn⟩, fun now => ?_⟩
    cases test : taken.label.isTest with
    | true =>
      obtain ⟨pointer, _, next, testing, _⟩ := test_cases stepped test
      exact ⟨pointer, first, since, taken, [], by rw [cut], ended, goesOn, ⟨test, next, testing⟩,
        fun _ none => absurd none List.not_mem_nil⟩
    | false =>
      obtain ⟨pointer, first, since, tested, between, cut, tests⟩ :=
        condemned (lifeStep_condemns stepped test now)
      refine ⟨pointer, first, since, tested, between ++ [taken], ?_, tests.previous, ?_,
        tests.tests, ?_⟩
      · rw [cut, List.append_assoc, List.cons_append]
      · intro member listed
        rw [← List.cons_append, ← List.append_assoc] at listed
        rcases List.mem_append.mp listed with old | new
        · exact tests.period member old
        · rwa [List.mem_singleton.mp new]
      · intro member listed
        rcases List.mem_append.mp listed with old | new
        · exact tests.once member old
        · rwa [List.mem_singleton.mp new]

/-- Every deletion by the cleaning thread comes after a test of its pass. -/
theorem exists_passDeletes {address : Nat}
    {steps before later : List (Transition.Step (LifeState Thread) (LifeEvent Thread))}
    {deletion : Transition.Step (LifeState Thread) (LifeEvent Thread)} {final : LifeState Thread}
    (run : LifeRun config steps final) (cut : steps = before ++ deletion :: later)
    (deletes : DeletesNode address deletion) :
    ∃ pointer earlier since test between, before = earlier ++ since ++ test :: between ∧
      PassDeletes address pointer earlier since between test deletion := by
  obtain ⟨toDeletion, _, _⟩ := run.split_at cut
  have cuts : Cuts before deletion.before :=
    toDeletion.history Cuts (fun _ _ => True) (fun _ _ _ cuts stepped => cuts.step stepped)
      (fun _ _ _ _ => trivial)
      ⟨⟨[], [], rfl, fun _ none => absurd none (Option.not_mem_none _),
        fun _ none => absurd none List.not_mem_nil⟩, fun condemned => by cases condemned⟩
  obtain ⟨next, deleting⟩ := deletes.deletes.2
  obtain ⟨pointer, earlier, since, test, between, same, tests⟩ := cuts.2 (deleting ▸ rfl)
  exact ⟨pointer, earlier, since, test, between, same, tests, deletes⟩

/-- The test before a deletion found a clear flag, and its pointer is the one that is read. -/
theorem PassDeletes.tested
    (deletes : PassDeletes address pointer earlier since between test deletion)
    (tested : lifeStep config test.before test.label = .ok test.after)
    (run : Transition.Run (Transition.stepOf (lifeStep config)) test.after between
      deletion.before) :
    ∃ node next, test.before.heap.records pointer = some node ∧ node.used = false ∧
      test.after.heap = test.before.heap ∧ test.after.cleaner = .reading pointer next := by
  refine test_condemns tested deletes.tests.1 deletes.tests.2 ?_
  by_contra spared
  have never := run.invariant (fun state => state.cleaner.condemns = false)
    (fun _ event => event.isTest = false)
    (fun before event after other spared stepped => Bool.eq_false_iff.mpr fun condemned => by
      rw [lifeStep_condemns stepped other condemned] at spared
      cases spared)
    deletes.once (Bool.eq_false_iff.mpr spared)
  obtain ⟨next, deleting⟩ := deletes.deletes.2
  rw [deleting] at never
  cases never

/-- Where the node is not used between the test and the deletion, the tested record was one of the
node. -/
theorem PassDeletes.storesAt
    (deletes : PassDeletes address pointer earlier since between test deletion)
    (tested : lifeStep config test.before test.label = .ok test.after)
    (run : Transition.Run (Transition.stepOf (lifeStep config)) test.after between
      deletion.before)
    (unused : ∀ taken ∈ between, usesNode address taken = false) :
    test.before.heap.StoresAt pointer address := by
  obtain ⟨_, _, _, _, same, reading⟩ := deletes.tested tested run
  have begins : Pursues address pointer test.before.heap test.after := by
    refine ⟨fun stores => same ▸ stores, fun own next now => ?_, fun next now => ?_⟩
    · rw [reading] at now
      cases now
      rfl
    · rw [reading] at now
      cases now
  have pursues := run.invariant (Pursues address pointer test.before.heap)
    (fun before event => event.isTest = false ∧
      ∀ write, writes before event = some (address, write) → write.isUse = false)
    (fun before event after allowed pursues stepped => pursues.step stepped allowed.1
      (usesNode_eq_false_iff.mpr allowed.2))
    (fun taken member =>
      ⟨deletes.once taken member, usesNode_eq_false_iff.mp (unused taken member)⟩)
    begins
  obtain ⟨next, deleting⟩ := deletes.deletes.2
  exact pursues.deleting next deleting

/-- In every run, a pass deletes only nodes that were not used since the pass before it exactly
where its test tells of the last use. -/
theorem deletesUnused_iff (run : LifeRun config steps final)
    (cut : steps = earlier ++ since ++ test :: between ++ deletion :: later)
    (deletes : PassDeletes address pointer earlier since between test deletion) :
    (∀ taken ∈ since ++ between, usesNode address taken = false) ↔
      Noticed address pointer since between test := by
  have sound : ∀ taken ∈ steps, taken.before.heap.Sound :=
    run.invariant_before (fun state => state.heap.Sound) (fun _ _ => True)
      (fun _ _ _ _ sound stepped => (lifeStep_touch stepped).sound sound) (fun _ _ => trivial)
      nodesAtBoot_undisturbed.sound
  obtain ⟨toDeletion, _, _⟩ := run.split_at cut
  obtain ⟨toTest, tested, betweenRun⟩ := toDeletion.split_at rfl
  obtain ⟨middle, earlierRun, sinceRun⟩ := toTest.split rfl
  have soundSince (taken) (member : taken ∈ since) : taken.before.heap.Sound :=
    sound taken (by simp [cut, member])
  obtain ⟨node, _, record, clear, _, _⟩ := deletes.tested tested betweenRun
  constructor
  · intro unused
    have stores := deletes.storesAt tested betweenRun fun taken member =>
      unused taken (List.mem_append_right _ member)
    have current := sinceRun.invariant (fun state => state.HoldsCurrent address)
      (fun before event => before.heap.Sound ∧
        ∀ write, writes before event = some (address, write) → write.isUse = false)
      (fun before event after allowed current stepped => current.step allowed.1 stepped
        (usesNode_eq_false_iff.mpr allowed.2))
      (fun taken member => ⟨soundSince taken member,
        usesNode_eq_false_iff.mp (unused taken (List.mem_append_left _ member))⟩)
      (fun own held => by
        rw [asleep_after_pass earlierRun deletes.previous] at held
        cases held)
    obtain ⟨ahead, testing⟩ := deletes.tests.2
    refine ⟨current pointer (testing ▸ List.mem_cons_self) stores,
      fun created => ?_, fun _ taken member => unused taken (List.mem_append_left _ member),
      fun taken member => unused taken (List.mem_append_right _ member)⟩
    obtain ⟨taken, member, write⟩ := List.mem_filterMap.mp (List.mem_of_getLast? created)
    cases usesNode_eq_false_iff.mp (unused taken (List.mem_append_left _ member)) _
      (writeOf_eq_some_iff.mp write)
  · intro noticed taken member
    rcases List.mem_append.mp member with early | late
    · by_contra used
      obtain ⟨write, last⟩ := Option.isSome_iff_exists.mp
        (lastWrite_isSome_of_used early (Bool.not_eq_false _ ▸ used))
      have found : test.before.heap.flag address = some false := by
        rw [NodeHeap.flag, NodeHeap.get, noticed.current, Option.bind_some, record, Option.map_some,
          clear]
      -- the test found what the last write left
      have wrote : write.flag = false := by
        rcases lastWrite_flag sinceRun soundSince last with flag | missing
        · rw [found] at flag
          exact (Option.some.inj flag).symm
        · rw [found] at missing
          cases missing
      cases write with
      | created => exact noticed.notCreated last
      | marked => cases wrote
      | cleared => exact used (noticed.notCleared last taken early)
    · exact noticed.quiet taken late

end Deletion

end Life

/-! ### A node of a getter -/

/-- The state after some events. -/
def lifeAfter (events : List (LifeEvent Unit)) : LifeState Unit :=
  events.foldl (Transition.follow (lifeStep projectConfig)) lifeAtBoot

/-- The steps through some events after others. -/
def stepsAfter (first events : List (LifeEvent Unit)) :
    List (Transition.Step (LifeState Unit) (LifeEvent Unit)) :=
  Transition.followAll (lifeStep projectConfig) (lifeAfter first) events

/-- The step of one event after others. -/
def stepAfter (first : List (LifeEvent Unit)) (event : LifeEvent Unit) :
    Transition.Step (LifeState Unit) (LifeEvent Unit) :=
  ⟨lifeAfter first, event, Transition.follow (lifeStep projectConfig) (lifeAfter first) event⟩

/-- The events of a deletion, after those up to it. -/
def deletionEvents : List (LifeEvent Unit) := [.pass .test, .pass .read, .pass .delete]

/-- The run to a deletion, cut where the pass before it ends and where the flag is tested. -/
theorem deletion_run (earlier since : List (LifeEvent Unit))
    (passed : ∀ taken ∈ stepsAfter [] (earlier ++ since ++ deletionEvents),
      Transition.succeedsWith (fun _ => true)
        (lifeStep projectConfig taken.before taken.label) = true) :
    LifeRun projectConfig (stepsAfter [] earlier ++ stepsAfter earlier since ++
        stepAfter (earlier ++ since) (.pass .test) ::
          stepsAfter (earlier ++ since ++ [.pass .test]) [.pass .read] ++
            stepAfter (earlier ++ since ++ [.pass .test, .pass .read]) (.pass .delete) :: [])
      (lifeAfter (earlier ++ since ++ deletionEvents)) := by
  have run := Transition.followAll_run (lifeStep projectConfig) lifeAtBoot _ passed
  rw [Transition.followAll_append, Transition.followAll_append] at run
  simp only [stepsAfter, stepAfter, lifeAfter, List.foldl_append, List.append_assoc] at run ⊢
  exact run

/-- A getter creates node 7. -/
def createdByGetter : List (LifeEvent Unit) :=
  [.access (.check () 7), .access (.create () 4 1 .inserted)]

/-- A pass over the empty table. -/
def emptyPass : List (LifeEvent Unit) := [.pass (.start none), .pass .finish]

/-- A pass over node 7, up to the test of its flag. -/
def passToSeven : List (LifeEvent Unit) := [.pass (.start (some 1)), .pass .finish]

/-- Node 7 is used again after its creation, and a pass clears its flag. -/
def clearedByPass : List (LifeEvent Unit) :=
  createdByGetter ++ [.access (.check () 7)] ++ passToSeven ++ [.pass .test, .pass .clear]

/-- A getter creates node 8, and the next pass comes to node 7 first. -/
def otherUsed : List (LifeEvent Unit) :=
  [.access (.check () 8), .access (.create () 4 2 .inserted), .pass (.start (some 1)),
    .pass (.advance 2)]

/-- The second pass deletes node 7, which was not used since the first one. -/
theorem deletesUnused_iff_other :
    (lifeAfter (clearedByPass ++ otherUsed ++ deletionEvents)).heap.get 7 = none ∧
      ∀ taken ∈ stepsAfter clearedByPass otherUsed ++
          stepsAfter (clearedByPass ++ otherUsed ++ [.pass .test]) [.pass .read],
        usesNode 7 taken = false := by
  refine ⟨by decide +kernel,
    (deletesUnused_iff (deletion_run clearedByPass otherUsed (by decide +kernel)) rfl
      (⟨⟨by decide +kernel, by decide +kernel, ⟨rfl, some 2, by decide +kernel⟩,
        by decide +kernel⟩, ⟨⟨rfl, some 2, by decide +kernel⟩, by decide +kernel⟩⟩ :
        PassDeletes 7 1 _ _ _ _ _)).mpr ?_⟩
  exact ⟨by decide +kernel, by decide +kernel, fun _ => by decide +kernel, by decide +kernel⟩

/-- The second pass deletes the node that was created since the first one. -/
theorem created_deleted :
    ¬ ∀ (address pointer : Nat) (steps earlier since between later :
        List (Transition.Step (LifeState Unit) (LifeEvent Unit)))
      (test deletion : Transition.Step (LifeState Unit) (LifeEvent Unit))
      (final : LifeState Unit), LifeRun projectConfig steps final →
        steps = earlier ++ since ++ test :: between ++ deletion :: later →
          PassDeletes address pointer earlier since between test deletion →
            ∀ taken ∈ since ++ between, usesNode address taken = false := by
  intro unused
  have never := unused 7 1 _ _ _ _ _ _ _ _
    (deletion_run emptyPass (createdByGetter ++ passToSeven) (by decide +kernel)) rfl
    ⟨⟨by decide +kernel, by decide +kernel, ⟨rfl, none, by decide +kernel⟩, by decide +kernel⟩,
      ⟨⟨rfl, none, by decide +kernel⟩, by decide +kernel⟩⟩
  exact absurd never (by decide +kernel)

end DectHarq
