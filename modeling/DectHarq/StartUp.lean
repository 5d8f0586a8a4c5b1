/-
This file proves what the application may rely on when it starts and stops the modem.

The main thread puts its three operations one after the other and looks at no return
code. The queue keeps their order: the modem is asked for its capabilities before it is
initialized, and initialized before it receives, unless a put was refused. The buttons
stop a reception by a handle written out in the source; it is the handle that the
permanent reception gets on its way through the queue, and that no other operation has.
-/

import DectHarq.Application
import DectHarq.StartRetry

namespace DectHarq

open ServiceLine

variable {config : Config}

/-! ### What the application puts -/

/-- The operations that the main thread puts, in order. -/
def startUpItems (config : Config) : List QueueItem :=
  [capabilityItem, initItem, receptionItem config]

/-- Those it has tried to put. -/
def MainThread.attempted (config : Config) : MainThread → List QueueItem
  | .starting => []
  | .capability => []
  | .initialization => [capabilityItem]
  | .reception => [capabilityItem, initItem]
  | .returned => startUpItems config

/-- The items that the application put. -/
def ofUser (items : List QueueItem) : List QueueItem :=
  items.filter fun item => item.provenance = .user

theorem next_attempted {main next : MainThread} {item : QueueItem}
    (line : main.next config = some (item, next)) :
    item.provenance = .user ∧ next.attempted config = main.attempted config ++ [item] := by
  cases main with
  | starting => cases line
  | returned => cases line
  | capability =>
    cases line
    exact ⟨rfl, rfl⟩
  | initialization =>
    cases line
    exact ⟨rfl, rfl⟩
  | reception =>
    cases line
    exact ⟨rfl, rfl⟩

/-- The put of the application determines its item. -/
theorem item_of_put {first second : QueueItem} (firstUser : first.provenance = .user)
    (secondUser : second.provenance = .user)
    (put : (Event.queuePut first.operation first.priority : Event config) =
      .queuePut second.operation second.priority) : first = second := by
  obtain ⟨_, _, _⟩ := first
  obtain ⟨_, _, _⟩ := second
  cases put
  cases firstUser
  cases secondUser
  rfl

/-- Only a put of the application accepts an item of the application. -/
theorem Action.ofUser_accepted {system after : System config} {event : Event config}
    (action : Action system event after) :
    ofUser (acceptedItem ⟨system, event, after⟩) = [] ∨
      ∃ item, item.provenance = .user ∧ event = .queuePut item.operation item.priority ∧
        (ofUser (acceptedItem ⟨system, event, after⟩)).Sublist [item] := by
  rcases action.put_by_user with ⟨item, code, put, byUser⟩ | ⟨quiet, _⟩
  · rw [acceptedItem_of_put put]
    by_cases user : item.provenance = .user
    · refine Or.inr ⟨item, user, byUser user, ?_⟩
      split
      · exact List.filter_sublist
      · exact List.nil_sublist _
    · refine Or.inl ?_
      split <;> simp [ofUser, user]
  · rw [acceptedItem_of_quiet quiet]
    exact Or.inl rfl

theorem ofUser_append (first second : List QueueItem) :
    ofUser (first ++ second) = ofUser first ++ ofUser second := List.filter_append ..

section Runs

variable {start final : Application config}
  {steps : List (Transition.Step (Application config) (ApplicationEvent config))}

/-- What was accepted from the application is what its main thread put so far, less what was
refused. -/
theorem accepted_attempted (started : Started start) (run : ApplicationRun start steps final) :
    (ofUser (accepted (programSteps steps))).Sublist (final.main.attempted config) := by
  refine application_history started run
    (fun program application =>
      (ofUser (accepted program)).Sublist (application.main.attempted config)) ?_ ?_
  · rw [started.2.1]
    exact List.Sublist.refl _
  · intro earlier before label after sound within action
    have concat {event : Event config} {system : System config}
        (some : programStep ⟨before, label, after⟩ = some ⟨before.system, event, system⟩) :
        ofUser (accepted (programSteps (earlier ++ [⟨before, label, after⟩]))) =
          ofUser (accepted (programSteps earlier)) ++
            ofUser (acceptedItem ⟨before.system, event, system⟩) := by
      rw [programSteps_concat, some, Option.toList_some, accepted_concat, ofUser_append]
    have quiet {event : Event config} {system : System config}
        (some : programStep ⟨before, label, after⟩ = some ⟨before.system, event, system⟩)
        (stepped : step before.system event = .ok system)
        (other : ∀ operation priority, event ≠ .queuePut operation priority) :
        ofUser (accepted (programSteps (earlier ++ [⟨before, label, after⟩]))) =
          ofUser (accepted (programSteps earlier)) := by
      rw [concat some]
      rcases (action_of_step sound stepped).ofUser_accepted with none | ⟨item, _, put, _⟩
      · rw [none, List.append_nil]
      · exact absurd put (other _ _)
    cases action with
    | mainStart buttonsErr ledsErr libInit callbackSet starting =>
      rw [starting] at within
      rw [programSteps_idle _ rfl, List.eq_nil_of_sublist_nil within]
      exact List.nil_sublist _
    | button buttonState hasChanged buttons =>
      rw [programSteps_idle _ rfl]
      exact within
    | mainPut item next system line stepped =>
      obtain ⟨user, attempted⟩ := next_attempted line
      have some : programStep ⟨before, .mainPut, { before with system := system, main := next }⟩ =
          some ⟨before.system, .queuePut item.operation item.priority, system⟩ := by
        simp only [programStep, ApplicationEvent.action, line, Option.map_some]
      rw [concat some, attempted]
      refine within.append ?_
      rcases (action_of_step sound stepped).ofUser_accepted with none | ⟨own, ownUser, put, new⟩
      · rw [none]
        exact List.nil_sublist _
      · rw [item_of_put user ownUser put]
        exact new
    | buttonTransmit heap pressed system transmitting stepped =>
      rw [quiet (by simp only [programStep, ApplicationEvent.action, transmitting, Option.map_some])
        stepped (by simp)]
      exact within
    | buttonStop ret system stopping stepped =>
      rw [quiet rfl stepped (by simp)]
      exact within
    | around event system outside stepped =>
      rw [quiet rfl stepped (by rintro operation priority rfl; cases outside)]
      exact within

/-- Two items at places of a list are a part of it, in the order of the places. -/
theorem pair_sublist {first second : QueueItem} {items : List QueueItem} {low high : Nat}
    (before : low < high) (atLow : items[low]? = some first) (atHigh : items[high]? = some second) :
    [first, second].Sublist items := by
  have front : first ∈ items.take high := by
    refine List.mem_of_getElem? (i := low) ?_
    rw [List.getElem?_take_of_lt before, atLow]
  have back : second ∈ items.drop high := by
    refine List.mem_of_getElem? (i := 0) ?_
    rw [List.getElem?_drop, Nat.add_zero, atHigh]
  have both := (List.singleton_sublist.mpr front).append (List.singleton_sublist.mpr back)
  rwa [List.take_append_drop] at both

/-- The place of an operation in the start. -/
def Operation.rank : Operation → Nat
  | .capabilityGet => 0
  | .init => 1
  | _ => 2

theorem startUpItems_ranked (config : Config) :
    (startUpItems config).Pairwise fun first second =>
      first.operation.rank < second.operation.rank := by
  simp [startUpItems, capabilityItem, initItem, receptionItem, Operation.rank]

theorem startUpItems_user {item : QueueItem} (member : item ∈ startUpItems config) :
    item.provenance = .user := by
  simp only [startUpItems, List.mem_cons, List.not_mem_nil, or_false] at member
  rcases member with rfl | rfl | rfl <;> rfl

/-- Of two operations of the start, the first one is not permanent and has at least the priority of
the second one. -/
theorem startUpItems_priority {first second : QueueItem}
    (pair : [first, second].Sublist (startUpItems config)) :
    ¬ Permanent first ∧ priorityKey second ≤ priorityKey first := by
  have related : (startUpItems config).Pairwise fun first second =>
      ¬ Permanent first ∧ priorityKey second ≤ priorityKey first := by
    simp only [startUpItems, List.pairwise_cons, List.mem_cons, List.not_mem_nil, or_false,
      forall_eq_or_imp, forall_eq, IsEmpty.forall_iff, implies_true, List.Pairwise.nil, and_true]
    -- The reception has the least priority.
    exact ⟨⟨⟨by decide, by decide⟩, by decide, Nat.zero_le _⟩, by decide, Nat.zero_le _⟩
  exact List.rel_of_pairwise_cons (related.sublist pair) List.mem_cons_self

/-- Of two operations of the start that are both put, the first one is put earlier: the main thread
puts them in this order, and nobody else puts them. -/
theorem put_earlier {items : List QueueItem}
    (sublist : (ofUser items).Sublist (startUpItems config)) {first second : QueueItem}
    (pair : [first, second].Sublist (startUpItems config)) {place later : Nat}
    (atPlace : items[place]? = some first) (atLater : items[later]? = some second) :
    place < later := by
  have ranks := List.rel_of_pairwise_cons ((startUpItems_ranked config).sublist pair)
    List.mem_cons_self
  refine lt_of_not_ge fun late => ?_
  rcases Nat.lt_or_eq_of_le late with before | same
  · have reversed := ((pair_sublist before atLater atPlace).filter _).trans sublist
    rw [List.filter_eq_self.mpr (by
      intro item member
      have user := startUpItems_user (pair.subset (by simpa [or_comm] using member))
      simp [user])] at reversed
    have other := List.rel_of_pairwise_cons ((startUpItems_ranked config).sublist reversed)
      List.mem_cons_self
    exact absurd other (lt_asymm ranks)
  · rw [same, atPlace] at atLater
    rw [Option.some.inj atLater] at ranks
    exact absurd ranks (lt_irrefl _)

/-- An operation of the application that is not permanent is dispatched at most once, when what the
application puts is put in the order of the start. -/
theorem once_dispatched {steps : List (Transition.Step (System config) (Event config))}
    {rest : List QueueItem}
    (sublist : (ofUser (accepted steps)).Sublist (startUpItems config))
    (conserved : (accepted steps).Perm (DectHarq.once (dispatched steps) ++ rest))
    {item : QueueItem} (notPermanent : ¬ Permanent item) (user : item.provenance = .user) :
    (dispatched steps).count item ≤ 1 := by
  calc (dispatched steps).count item
      = (DectHarq.once (dispatched steps)).count item :=
        (List.count_filter (by simpa using notPermanent)).symm
    _ ≤ (accepted steps).count item := by
        rw [conserved.count_eq, List.count_append]
        exact Nat.le_add_right _ _
    _ = (ofUser (accepted steps)).count item := (List.count_filter (by simpa using user)).symm
    _ ≤ (startUpItems config).count item := sublist.count_le item
    _ ≤ 1 := List.nodup_iff_count_le_one.mp
        ((startUpItems_ranked config).imp fun less same => by simp [same] at less) item

/-- What a start promises: of two operations of the main thread the first one, if it was
accepted, is dispatched before the second one is; the application has no other operations in
the queue; the modem is asked for its capabilities and initialized at most once; and the
reception stays in the queue for ever. -/
structure StartsInOrder (config : Config)
    (steps : List (Transition.Step (System config) (Event config))) (queue : Queue) : Prop where
  order : ∀ first second, [first, second].Sublist (startUpItems config) →
    first ∈ accepted steps → ∀ earlier later, dispatched steps = earlier ++ second :: later →
      first ∈ earlier
  own : ∀ item ∈ dispatched steps, item.provenance = .user → item ∈ startUpItems config
  once : ∀ item ∈ [capabilityItem, initItem], (dispatched steps).count item ≤ 1
  stays : receptionItem config ∈ accepted steps → queue.putThread ≠ .returned →
    receptionItem config ∈ queue.undispatched

/-- The start of the modem is in order in every run of the application, with any presses of the
buttons, received headers, completions and failures in between. -/
theorem startUp_inOrder (started : Started start) (run : ApplicationRun start steps final) :
    StartsInOrder config (programSteps steps) final.system.queue := by
  obtain ⟨tickets, items, inOrder⟩ := dispatched_tickets started.1 (program_run run)
  obtain ⟨lost, _, noneLost, conserved⟩ := accepted_conserved started.1 (program_run run)
  have within := accepted_attempted started run
  have sublist : (ofUser (accepted (programSteps steps))).Sublist (startUpItems config) := by
    refine within.trans ?_
    cases final.main <;> simp [MainThread.attempted, startUpItems]
  have known {item : QueueItem} (member : item ∈ dispatched (programSteps steps)) :
      item ∈ accepted (programSteps steps) := by
    rw [← items] at member
    obtain ⟨ticket, served, rfl⟩ := List.mem_map.mp member
    exact List.mem_of_getElem? (inOrder.known ticket served)
  refine ⟨?_, ?_, ?_, ?_⟩
  · intro first second pair put earlier later cut
    obtain ⟨notPermanent, priority⟩ := startUpItems_priority pair
    rw [← items] at cut
    obtain ⟨ticketsBefore, rest, rfl, before, behind⟩ := List.map_eq_append_iff.mp cut
    obtain ⟨ticket, after, rfl, rfl, _⟩ := List.map_eq_cons_iff.mp behind
    have accepts := inOrder.known ticket (by simp)
    obtain ⟨place, found⟩ := List.mem_iff_getElem?.mp put
    have earlierPut : place < ticket.number := put_earlier sublist pair found accepts
    obtain ⟨other, member, same⟩ := inOrder.order ticketsBefore ticket after rfl place first
      earlierPut found priority notPermanent
    have own := inOrder.known other (by simp [member])
    rw [same, found] at own
    rw [← before, Option.some.inj own]
    exact List.mem_map_of_mem member
  · intro item member user
    exact sublist.subset (List.mem_filter.mpr ⟨known member, by simp [user]⟩)
  · intro item member
    rw [List.append_assoc] at conserved
    simp only [List.mem_cons, List.not_mem_nil, or_false] at member
    rcases member with rfl | rfl
    · exact once_dispatched sublist conserved (by decide) rfl
    · exact once_dispatched sublist conserved (by decide) rfl
  · intro put runs
    rw [conserved.mem_iff, noneLost runs, List.append_nil, List.mem_append] at put
    refine put.resolve_left fun member => ?_
    have notPermanent := (List.mem_filter.mp member).2
    simp [Permanent, receptionItem] at notPermanent

end Runs

/-- Device 5 with its application. -/
def startingDevice : Application projectConfig := ⟨device, .starting, .idle⟩

theorem startingDevice_started : Started startingDevice := ⟨device_booted, rfl, rfl⟩

/-- The executor carries the next item of the list to the modem. -/
def toModem : List (ApplicationEvent projectConfig) :=
  [.around .execTakePhy, .around .execTakeItem, .around .execRemove, .around (.execDispatch 0)]

/-- The put thread carries a message to the list. -/
def toList : List (ApplicationEvent projectConfig) :=
  [.around .putGet, .around .putFree, .around .putInsert, .around .putGive]

/-- The modem is started, and receives. -/
def startedUp : List (ApplicationEvent projectConfig) :=
  [.mainStart 0 0 0 0, .mainPut, .mainPut, .mainPut] ++ toList ++ toList ++ toList ++ toModem ++
    [.around (.management 0 .success ⟨4, 80000⟩)] ++ toModem ++
    [.around (.management 0 .success ⟨4, 80000⟩)] ++ toModem

/-- The three operations of the main thread are dispatched in order. -/
theorem startUp_inOrder_started :
    ∃ (final : Application projectConfig)
      (steps : List (Transition.Step (Application projectConfig)
        (ApplicationEvent projectConfig))),
      ApplicationRun startingDevice steps final ∧
        dispatched (programSteps steps) = startUpItems projectConfig ∧
        StartsInOrder projectConfig (programSteps steps) final.system.queue := by
  have run := Transition.followAll_run applicationStep startingDevice startedUp (by decide +kernel)
  exact ⟨_, _, run, by decide +kernel, startUp_inOrder startingDevice_started run⟩

/-! ### The handles of the application -/

/-- An operation of the application, as it is saved for the retry: the queue bit may be set. -/
def OwnOperation (config : Config) (operation : Operation) : Prop :=
  operation = .placeholder ∨
    ∃ item ∈ startUpItems config, operation.fromQueue = item.operation.fromQueue

/-- A request of the application. -/
def OwnRequest (request : ModemRequest) : Prop :=
  request = .capabilityGet ∨ request = .init ∨ request = .rxStop stopHandle ∨
    ∃ params, request = .rx params ∧ params.handle = stopHandle

/-- What the application has in the queue and at the modem is its own. -/
structure System.Own (system : System config) : Prop where
  items : ∀ item ∈ system.queue.items, item.provenance = .user → item ∈ startUpItems config
  current : system.queue.currentProvenance = .user →
    OwnOperation config system.queue.currentOperation
  modem : ∀ op ∈ system.phy.modem, op.provenance = .user → OwnRequest op.request

theorem ownOperation_of_item {item : QueueItem} (member : item ∈ startUpItems config) :
    OwnOperation config item.operation := Or.inr ⟨item, member, rfl⟩

/-- What is called for an operation of the application is a request of it. -/
theorem OwnOperation.request {operation : Operation} {request : ModemRequest}
    (own : OwnOperation config operation) (issues : Issues operation.fromQueue request) :
    OwnRequest request := by
  rcases own with rfl | ⟨item, member, same⟩
  · exact absurd issues id
  · rw [same] at issues
    simp only [startUpItems, List.mem_cons, List.not_mem_nil, or_false] at member
    rcases member with rfl | rfl | rfl
    · cases request <;> first | exact Or.inl rfl | exact absurd issues id
    · cases request <;> first | exact Or.inr (Or.inl rfl) | exact absurd issues id
    · cases request with
      | rx params =>
        refine Or.inr (Or.inr (Or.inr ⟨params, rfl, ?_⟩))
        rw [show params.handle = composeHandle functionRx (withQueueBit 0x14) from issues]
        decide
      | _ => exact absurd issues id

/-- Where an operation of the application at the modem comes from: it was there before, or its
handler was called directly, or it is the executed or the retried operation. -/
theorem Action.modem_user {system after : System config} {event : Event config}
    (action : Action system event after) {op : ModemOp} (member : op ∈ after.phy.modem)
    (user : op.provenance = .user) :
    (∃ old ∈ system.phy.modem, op.Same old) ∨
      (∃ operation ret, event = .direct operation ret ∧ Issues operation op.request) ∨
      (∃ item ∈ system.queue.items, item.provenance = .user ∧
        Issues item.operation.fromQueue op.request) ∨
      (system.queue.currentProvenance = .user ∧
        Issues system.queue.currentOperation.fromQueue op.request) := by
  have completed {position : Nat} {err : PhyErr} {done : ModemOp}
      (found : system.phy.modem[position]? = some done)
      (left : op ∈ completeAt position done err system.phy.modem) :
      ∃ old ∈ system.phy.modem, op.Same old := by
    obtain ⟨old, oldMember, same, _⟩ := mem_completeAt found left
    exact ⟨old, oldMember, same⟩
  cases action with
  | direct operation ret request state nodes issues =>
    rcases mem_modemAfter member with old | rfl
    · exact Or.inl ⟨op, old, rfl, rfl⟩
    · exact Or.inr (Or.inl ⟨operation, ret, rfl, issues⟩)
  | request status header ret harq reply request nodes code queue addressed processed issues =>
    rcases mem_modemAfter member with old | rfl
    · exact Or.inl ⟨op, old, rfl, rfl⟩
    · cases user
  | execDispatch _ item ret executing execution =>
    rcases execution.modem_from member with old | ⟨same, issues⟩
    · exact Or.inl old
    · exact Or.inr (Or.inr (Or.inl ⟨item, Queue.executing_mem executing, same ▸ user, issues⟩))
  | retryTimer _ ret armed execution =>
    rcases execution.modem_from member with old | ⟨same, issues⟩
    · exact Or.inl old
    · exact Or.inr (Or.inr (Or.inr ⟨same ▸ user, issues⟩))
  | completeError position err done handle found => exact Or.inl (completed found member)
  | completeRetry position done handle found => exact Or.inl (completed found member)
  | turn position done handle found => exact Or.inl (completed found member)
  | turnHarq position done handle index found => exact Or.inl (completed found member)
  | completeQueued position done handle found => exact Or.inl (completed found member)
  | completeDirect position done handle found => exact Or.inl (completed found member)
  | rssiReport position done found rssi =>
    rcases List.mem_or_eq_of_mem_set member with old | rfl
    · exact Or.inl ⟨op, old, rfl, rfl⟩
    · exact Or.inl ⟨done, List.mem_of_getElem? found, rfl, rfl⟩
  | managementGive position capability capabilities done found management =>
    exact Or.inl ⟨op, List.mem_of_mem_eraseIdx member, rfl, rfl⟩
  | managementKeep position err capability done found keeps management =>
    exact Or.inl ⟨op, List.mem_of_mem_eraseIdx member, rfl, rfl⟩
  | _ => exact Or.inl ⟨op, member, rfl, rfl⟩

/-- An action keeps what the application has its own, when a put is one of the start and a direct
call stops the reception. -/
theorem Action.own {system after : System config} {event : Event config} (own : system.Own)
    (action : Action system event after)
    (puts : ∀ item : QueueItem, item.provenance = .user →
      event = .queuePut item.operation item.priority → item ∈ startUpItems config)
    (calls : ∀ operation ret, event = .direct operation ret →
      operation = .rxStop ⟨stopHandle⟩) : after.Own where
  items := fun item member user => by
    rcases action.put_by_user with ⟨other, code, put, byUser⟩ | ⟨_, within⟩
    · rcases mem_items_put put member with ⟨rfl, _⟩ | queued
      · exact puts item user (byUser user)
      · exact own.items item queued user
    · exact own.items item (within item member) user
  current := fun user => by
    rcases action.saved with same | ⟨item, ret, executing, _, dispatched⟩ | ⟨ret, _, _, retried⟩ |
      ⟨position, _, failed⟩
    · rw [same.provenance] at user
      rw [same.operation]
      exact own.current user
    · rw [dispatched] at user ⊢
      exact ownOperation_of_item (own.items item (Queue.executing_mem executing) user)
    · rw [retried] at user ⊢
      rcases own.current user with placeholder | ⟨item, member, same⟩
      · refine Or.inl ?_
        show system.queue.currentOperation.fromQueue = _
        rw [placeholder]
        rfl
      · refine Or.inr ⟨item, member, ?_⟩
        show system.queue.currentOperation.fromQueue.fromQueue = _
        rw [Operation.fromQueue_fromQueue, same]
    · rw [failed] at user ⊢
      obtain ⟨counter, ⟨_, same⟩ | ⟨_, same⟩⟩ := operationFailedRetry_cases system.queue <;>
        rw [same] at user ⊢ <;> exact own.current user
  modem := fun op member user => by
    rcases action.modem_user member user with ⟨old, oldMember, request, provenance⟩ |
      ⟨operation, ret, direct, issues⟩ | ⟨item, queued, ofUser, issues⟩ | ⟨ofUser, issues⟩
    · rw [request]
      exact own.modem old oldMember (provenance ▸ user)
    · rw [calls operation ret direct] at issues
      cases request : op.request with
      | rxStop handle =>
        rw [request] at issues
        exact Or.inr (Or.inr (Or.inl (congrArg ModemRequest.rxStop issues)))
      | _ =>
        rw [request] at issues
        exact absurd issues id
    · exact (ownOperation_of_item (own.items item queued ofUser)).request issues
    · exact (own.current ofUser).request issues

/-- A handle tells what the callbacks and the buttons take an operation for: the handle of the
buttons is that of the receptions and of nothing else, it is the only handle they stop, and an
operation that is taken for one of HARQ is the TX_RX of the process it names. -/
structure HandleTells (op : ModemOp) : Prop where
  reception : op.request.completionHandle = some stopHandle ↔ ∃ params, op.request = .rx params
  stop : ∀ handle, op.request = .rxStop handle → handle = stopHandle
  harq : ∀ handle, op.request.completionHandle = some handle →
    turnsToReception .transmitting handle = true → isHarqHandle handle = true ∧
      ∃ packet, op.provenance = .packet (handleProcess handle) packet

/-- A handle of another function is not the one that the buttons stop. -/
theorem ne_stopHandle {handle : BitVec 32} (other : handleFunction handle ≠ functionRx) :
    handle ≠ stopHandle := fun same => other (by rw [same]; decide)

theorem not_turns {handle : BitVec 32} (other : handleFunction handle ≠ functionTxRx) :
    turnsToReception .transmitting handle ≠ true := fun turns =>
  other (of_decide_eq_true turns).2

/-- The handles of the application's own requests tell what they are. -/
theorem OwnRequest.tells {op : ModemOp} (own : OwnRequest op.request) : HandleTells op := by
  rcases own with same | same | same | ⟨params, same, handle⟩
  · exact ⟨by simp [same, ModemRequest.completionHandle], by simp [same],
      by simp [same, ModemRequest.completionHandle]⟩
  · exact ⟨by simp [same, ModemRequest.completionHandle], by simp [same],
      by simp [same, ModemRequest.completionHandle]⟩
  · refine ⟨by simp [same, ModemRequest.completionHandle], fun other stops => ?_,
      by simp [same, ModemRequest.completionHandle]⟩
    rw [same] at stops
    exact (ModemRequest.rxStop.inj stops).symm
  · refine ⟨by simp [same, ModemRequest.completionHandle, handle], by simp [same],
      fun other completes turns => ?_⟩
    rw [same, ModemRequest.completionHandle, handle] at completes
    rw [← Option.some.inj completes] at turns
    exact absurd turns (by decide)

/-- Every request at the modem is made for some call. -/
theorem exists_call {calls : List Call} {requests : List ModemRequest} {request : ModemRequest}
    (all : List.Forall₂ (fun call request => Issues call.operation request) calls requests)
    (member : request ∈ requests) : ∃ call : Call, Issues call.operation request := by
  induction all with
  | nil => cases member
  | cons issues _ inductionHypothesis =>
    rcases List.mem_cons.mp member with rfl | later
    · exact ⟨_, issues⟩
    · exact inductionHypothesis later

/-- The handle of a reply tells that it is none of the others. -/
theorem tells_of_reply {op : ModemOp} {operation : Operation} {params : PhyTxParams}
    (request : op.request = .txHarq params) (issues : Issues operation op.request) :
    HandleTells op := by
  have function : handleFunction params.handle = functionTxHarq := by
    rw [request] at issues
    cases operation with
    | txHarq own =>
      rw [show params.handle = _ from issues]
      exact handleFunction_composeHandle _ _ (by decide)
    | _ => exact absurd issues id
  refine ⟨iff_of_false ?_ (by simp [request]), by simp [request], fun handle completes turns => ?_⟩
  · rw [request]
    exact fun same => ne_stopHandle (by rw [function]; decide) (Option.some.inj same)
  · rw [request] at completes
    rw [← Option.some.inj completes] at turns
    exact absurd turns (not_turns (by rw [function]; decide))

/-- The handle of a packet tells its process. -/
theorem tells_of_packet {op : ModemOp} {process packet : Nat}
    (provenance : op.provenance = .packet process packet)
    (requests : op.provenance.Requests op.request) : HandleTells op := by
  rw [provenance] at requests
  obtain ⟨combined, handle, completes, function, harq, named⟩ := requests
  refine ⟨iff_of_false ?_ ?_, fun other stops => ?_, fun other same _ => ?_⟩
  · rw [completes]
    exact fun same => ne_stopHandle (by rw [function]; decide) (Option.some.inj same)
  · rintro ⟨params, request⟩
    rw [request] at combined
    cases combined
  · rw [stops] at combined
    cases combined
  · rw [completes] at same
    rw [← Option.some.inj same, provenance, named]
    exact ⟨harq, packet, rfl⟩

/-- All that the application has queued, saved or at the modem is its own. -/
theorem own_of_run {start final : Application config}
    {steps : List (Transition.Step (Application config) (ApplicationEvent config))}
    (started : Started start) (run : ApplicationRun start steps final) : final.system.Own := by
  refine application_history started run (fun _ application => application.system.Own) ?_ ?_
  · obtain ⟨⟨deviceId, allocations, _, same⟩, _⟩ := started
    rw [same]
    exact ⟨fun _ member => absurd member List.not_mem_nil, fun _ => Or.inl rfl,
      fun _ member => absurd member List.not_mem_nil⟩
  · intro earlier before label after sound own action
    cases action with
    | mainStart => exact own
    | button => exact own
    | mainPut item next system line stepped =>
      obtain ⟨user, attempted⟩ := next_attempted line
      refine (action_of_step sound stepped).own own (fun other otherUser put => ?_)
        fun operation ret direct => by cases direct
      rw [← item_of_put user otherUser put]
      cases main : before.main <;> rw [main] at line <;> cases line <;> simp [startUpItems]
    | buttonTransmit heap pressed system transmitting stepped =>
      exact (action_of_step sound stepped).own own (fun _ _ put => by cases put)
        fun _ _ direct => by cases direct
    | buttonStop ret system stopping stepped =>
      exact (action_of_step sound stepped).own own (fun _ _ put => by cases put)
        fun _ _ direct => by cases direct; rfl
    | around event system outside stepped =>
      refine (action_of_step sound stepped).own own (fun item _ put => ?_)
        fun operation ret direct => ?_
      · rw [put] at outside
        cases outside
      · rw [direct] at outside
        cases outside

/-- Every operation at the modem of a running application has a telling handle. -/
theorem handles_tell {start final : Application config}
    {steps : List (Transition.Step (Application config) (ApplicationEvent config))}
    (started : Started start) (run : ApplicationRun start steps final) :
    ∀ op ∈ final.system.phy.modem, HandleTells op := by
  have own := own_of_run started run
  have formed := (run_invariant started.1 (program_run run) System.Formed (fun _ _ => True)
    (boot_formed started.1) (fun _ _ _ sound _ formed action => action.formed sound formed)
    fun _ _ => trivial).2
  have calls := historyOf_matches started.1 (program_run run)
  intro op member
  have requests := formed.modem op member
  cases provenance : op.provenance with
  | user => exact (own.modem op member provenance).tells
  | packet process packet => exact tells_of_packet provenance requests
  | reply number =>
    rw [provenance] at requests
    obtain ⟨params, request⟩ := requests
    obtain ⟨call, issues⟩ := exists_call calls (List.mem_map_of_mem member)
    exact tells_of_reply request issues

/-- The second button is pressed while the modem receives. -/
def stopped : List (ApplicationEvent projectConfig) :=
  startedUp ++ [.button 2 2, .buttonTransmit (some 64), .buttonStop 0]

/-- The reception and its stop are at the modem, and their handles tell it. -/
theorem handles_tell_stopped :
    ∃ (final : Application projectConfig)
      (steps : List (Transition.Step (Application projectConfig)
        (ApplicationEvent projectConfig))),
      ApplicationRun startingDevice steps final ∧ final.system.phy.modem.length = 2 ∧
        ∀ op ∈ final.system.phy.modem, HandleTells op := by
  have run := Transition.followAll_run applicationStep startingDevice stopped (by decide +kernel)
  exact ⟨_, _, run, by decide +kernel, handles_tell startingDevice_started run⟩

end DectHarq
