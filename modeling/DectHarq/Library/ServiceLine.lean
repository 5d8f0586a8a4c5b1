/-
This file develops a server behind a waiting line and a priority queue.

Items arrive in the waiting line. One after the other they are sorted into a stable
priority queue, and the server takes them from its head; a permanent item goes back to
the tail. The line can break down: it then loses the item it was moving and moves no
other one. An item carries a ticket, the number of its arrival. Nothing arrives twice
and nothing but that one item is lost; and of two items the one that arrived first is
served first, unless the later one has a higher priority.
-/

import Mathlib.Data.List.Perm.Basic
import Mathlib.Data.List.Range
import DectHarq.Library.StableQueue

namespace ServiceLine

open StableQueue

variable {Item Key : Type*} [LinearOrder Key]

/-- An item with the number of its arrival. -/
structure Ticket (Item : Type*) where
  number : Nat
  item : Item

/-- The items that arrived so far, where they are now, and those that were served, a permanent
one as often as it was served. -/
structure Line (Item : Type*) where
  arrived : List Item
  waiting : List (Ticket Item)
  queue : List (Ticket Item)
  served : List (Ticket Item)
  lost : List (Ticket Item)

/-- Nothing arrived yet. -/
def Line.empty : Line Item := ⟨[], [], [], [], []⟩

/-- What can happen. -/
inductive LineStep (priority : Item → Key) (permanent : Item → Prop) [DecidablePred permanent] :
    Line Item → Line Item → Prop
  | arrive (line : Line Item) (item : Item) :
      LineStep priority permanent line { line with
        arrived := line.arrived ++ [item]
        waiting := line.waiting ++ [⟨line.arrived.length, item⟩] }
  | sort (line : Line Item) (head : Ticket Item) (rest : List (Ticket Item))
      (first : line.waiting = head :: rest) (moves : line.lost = []) :
      LineStep priority permanent line { line with
        waiting := rest
        queue := insertStable (priority ∘ Ticket.item) head line.queue }
  | lose (line : Line Item) (head : Ticket Item) (rest : List (Ticket Item))
      (first : line.waiting = head :: rest) (moves : line.lost = []) :
      LineStep priority permanent line { line with
        waiting := rest
        lost := [head] }
  | serve (line : Line Item) (head : Ticket Item) (rest : List (Ticket Item))
      (first : line.queue = head :: rest) :
      LineStep priority permanent line { line with
        queue := if permanent head.item then rest ++ [head] else rest
        served := line.served ++ [head] }

section Order

variable {priority : Item → Key} {permanent : Item → Prop} {arrived : List Item}
  {served : List (Ticket Item)}

/-- The served tickets are in order: each names an item that arrived, an item is not served
again unless it is permanent, and every item that arrived before a served one, and has at least
its priority, was served before it. -/
structure InOrder (priority : Item → Key) (permanent : Item → Prop) (arrived : List Item)
    (served : List (Ticket Item)) : Prop where
  known : ∀ ticket ∈ served, arrived[ticket.number]? = some ticket.item
  once : ∀ earlier ticket later, served = earlier ++ ticket :: later → ¬ permanent ticket.item →
    ∀ other ∈ earlier, other.number ≠ ticket.number
  order : ∀ earlier ticket later, served = earlier ++ ticket :: later → ∀ number item,
    number < ticket.number → arrived[number]? = some item → priority ticket.item ≤ priority item →
      ¬ permanent item → ∃ other ∈ earlier, other.number = number

theorem inOrder_nil (arrived : List Item) : InOrder priority permanent arrived [] where
  known := fun _ member => absurd member List.not_mem_nil
  once := fun _ _ _ cut => absurd cut (by simp)
  order := fun _ _ _ cut => absurd cut (by simp)

/-- What was served first was served in order. -/
theorem InOrder.of_append {rest : List (Ticket Item)}
    (inOrder : InOrder priority permanent arrived (served ++ rest)) :
    InOrder priority permanent arrived served := by
  have longer {earlier later : List (Ticket Item)} {ticket : Ticket Item}
      (cut : served = earlier ++ ticket :: later) :
      served ++ rest = earlier ++ ticket :: (later ++ rest) := by
    rw [cut, List.append_assoc, List.cons_append]
  exact ⟨fun ticket member => inOrder.known ticket (List.mem_append_left _ member),
    fun earlier ticket later cut => inOrder.once earlier ticket _ (longer cut),
    fun earlier ticket later cut => inOrder.order earlier ticket _ (longer cut)⟩

/-- An arrival changes nothing for what was served before it. -/
theorem InOrder.arrive (inOrder : InOrder priority permanent arrived served) (item : Item) :
    InOrder priority permanent (arrived ++ [item]) served where
  known := fun ticket member => by
    have known := inOrder.known ticket member
    rwa [List.getElem?_append_left (List.getElem?_eq_some_iff.mp known).1]
  once := inOrder.once
  order := fun earlier ticket later cut number other before found => by
    have member : ticket ∈ served := by
      rw [cut]
      exact List.mem_append_right _ List.mem_cons_self
    have inside := (List.getElem?_eq_some_iff.mp (inOrder.known ticket member)).1
    rw [List.getElem?_append_left (lt_trans before inside)] at found
    exact inOrder.order earlier ticket later cut number other before found

/-- A cut of a list with one more item is a cut of the list, or the new item is cut off. -/
theorem cut_concat {first earlier later : List (Ticket Item)} {head ticket : Ticket Item}
    (cut : first ++ [head] = earlier ++ ticket :: later) :
    (earlier = first ∧ ticket = head) ∨ ∃ between, first = earlier ++ ticket :: between := by
  rcases List.eq_nil_or_concat later with rfl | ⟨between, final, rfl⟩
  · obtain ⟨same, single⟩ := List.append_inj' cut rfl
    rw [List.singleton_inj] at single
    exact Or.inl ⟨same.symm, single.symm⟩
  · rw [List.concat_eq_append, ← List.cons_append, ← List.append_assoc] at cut
    exact Or.inr ⟨between, (List.append_inj' cut rfl).1⟩

/-- One more ticket is in order when it is known, new unless it is permanent, and none that
should have come before it is missing. -/
theorem InOrder.concat (inOrder : InOrder priority permanent arrived served) {head : Ticket Item}
    (known : arrived[head.number]? = some head.item)
    (once : ¬ permanent head.item → ∀ other ∈ served, other.number ≠ head.number)
    (order : ∀ number item, number < head.number → arrived[number]? = some item →
      priority head.item ≤ priority item → ¬ permanent item →
        ∃ other ∈ served, other.number = number) :
    InOrder priority permanent arrived (served ++ [head]) where
  known := fun ticket member => by
    rcases List.mem_append.mp member with old | new
    · exact inOrder.known ticket old
    · rw [List.mem_singleton.mp new]
      exact known
  once := fun earlier ticket later cut => by
    rcases cut_concat cut with ⟨rfl, rfl⟩ | ⟨between, inside⟩
    · exact once
    · exact inOrder.once earlier ticket between inside
  order := fun earlier ticket later cut => by
    rcases cut_concat cut with ⟨rfl, rfl⟩ | ⟨between, inside⟩
    · exact order
    · exact inOrder.order earlier ticket between inside

end Order

variable {priority : Item → Key} {permanent : Item → Prop} [DecidablePred permanent]

/-- The tickets that were served for good. -/
def finished (permanent : Item → Prop) [DecidablePred permanent] (served : List (Ticket Item)) :
    List (Ticket Item) :=
  served.filter fun ticket => ¬ permanent ticket.item

/-- Where a ticket is: waiting, in the queue, served for good, or lost. -/
def Line.tickets (permanent : Item → Prop) [DecidablePred permanent] (line : Line Item) :
    List (Ticket Item) :=
  line.waiting ++ line.queue ++ finished permanent line.served ++ line.lost

/-- What holds of a line at every moment. -/
structure Line.Ordered (priority : Item → Key) (permanent : Item → Prop)
    [DecidablePred permanent] (line : Line Item) : Prop where
  known : ∀ ticket ∈ line.tickets permanent, line.arrived[ticket.number]? = some ticket.item
  conserved : ((line.tickets permanent).map Ticket.number).Perm (List.range line.arrived.length)
  waiting : line.waiting.Pairwise fun first second => first.number < second.number
  ahead : ∀ ticket ∈ line.queue ++ line.lost, ∀ last ∈ line.waiting, ticket.number < last.number
  behind : ∀ gone ∈ line.lost, ∀ ticket ∈ line.queue, ticket.number < gone.number
  sorted : line.queue.Pairwise fun first second => priority second.item ≤ priority first.item
  stable : line.queue.Pairwise fun first second => permanent second.item ∨
    first.number < second.number ∨ priority second.item < priority first.item
  inOrder : InOrder priority permanent line.arrived line.served

theorem ordered_empty : (Line.empty : Line Item).Ordered priority permanent where
  known := fun _ member => absurd member List.not_mem_nil
  conserved := List.Perm.refl _
  waiting := List.Pairwise.nil
  ahead := fun _ member => absurd member List.not_mem_nil
  behind := fun _ member => absurd member List.not_mem_nil
  sorted := List.Pairwise.nil
  stable := List.Pairwise.nil
  inOrder := inOrder_nil _

/-! ### One step -/

/-- A sorted insertion keeps a relation that holds from the items of at least the new priority to
the new one, and from the new one to the items of a lower priority. -/
theorem insertStable_pairwise {Source : Type*} {key : Source → Key}
    {relation : Source → Source → Prop} {item : Source} {items : List Source}
    (related : items.Pairwise relation)
    (sorted : items.Pairwise fun first second => key second ≤ key first)
    (before : ∀ other ∈ items, key item ≤ key other → relation other item)
    (after : ∀ other ∈ items, key other < key item → relation item other) :
    (insertStable key item items).Pairwise relation := by
  induction items with
  | nil => exact List.pairwise_singleton _ _
  | cons current rest inductionHypothesis =>
    obtain ⟨first, restRelated⟩ := List.pairwise_cons.mp related
    obtain ⟨highest, restSorted⟩ := List.pairwise_cons.mp sorted
    rw [insertStable]
    split
    · rename_i lower
      refine List.pairwise_cons.mpr ⟨fun other member => after other member ?_, related⟩
      rcases List.mem_cons.mp member with rfl | later
      · exact lower
      · exact lt_of_le_of_lt (highest other later) lower
    · rename_i notLower
      refine List.pairwise_cons.mpr ⟨fun other member => ?_, inductionHypothesis restRelated
        restSorted (fun other later => before other (List.mem_cons_of_mem _ later))
        fun other later => after other (List.mem_cons_of_mem _ later)⟩
      rcases List.mem_cons.mp ((insertStable_perm _ _ _).mem_iff.mp member) with rfl | later
      · exact before current List.mem_cons_self (not_lt.mp notLower)
      · exact first other later

variable {line : Line Item}

theorem Line.Ordered.number_lt (ordered : line.Ordered priority permanent) {ticket : Ticket Item}
    (member : ticket ∈ line.tickets permanent) : ticket.number < line.arrived.length :=
  (List.getElem?_eq_some_iff.mp (ordered.known ticket member)).1

theorem Line.mem_tickets {ticket : Ticket Item} :
    ticket ∈ line.tickets permanent ↔ ticket ∈ line.waiting ∨ ticket ∈ line.queue ∨
      ticket ∈ finished permanent line.served ∨ ticket ∈ line.lost := by
  simp only [Line.tickets, List.mem_append, or_assoc]

/-- An arrival keeps the order. -/
theorem Line.Ordered.arrive (ordered : line.Ordered priority permanent) (item : Item) :
    Line.Ordered priority permanent { line with
      arrived := line.arrived ++ [item]
      waiting := line.waiting ++ [⟨line.arrived.length, item⟩] } where
  known := fun ticket member => by
    rw [Line.mem_tickets, List.mem_append, List.mem_singleton] at member
    dsimp only at member ⊢
    by_cases new : ticket = ⟨line.arrived.length, item⟩
    · rw [new, List.getElem?_append_right (le_refl _), Nat.sub_self]
      rfl
    · have old : ticket ∈ line.tickets permanent := by
        rw [Line.mem_tickets]
        tauto
      rw [List.getElem?_append_left (ordered.number_lt old)]
      exact ordered.known ticket old
  conserved := by
    refine List.perm_iff_count.mpr fun number => ?_
    have before := List.perm_iff_count.mp ordered.conserved number
    rw [List.length_append, List.length_singleton, List.range_succ]
    simp only [Line.tickets, List.map_append, List.count_append, List.map_cons,
      List.map_nil] at before ⊢
    omega
  waiting := by
    refine List.pairwise_append.mpr ⟨ordered.waiting, List.pairwise_singleton _ _, ?_⟩
    intro ticket member new last
    rw [List.mem_singleton.mp last]
    exact ordered.number_lt (Line.mem_tickets.mpr (Or.inl member))
  ahead := fun ticket member new last => by
    rcases List.mem_append.mp last with old | single
    · exact ordered.ahead ticket member new old
    · rw [List.mem_singleton.mp single]
      rw [List.mem_append] at member
      refine ordered.number_lt (Line.mem_tickets.mpr ?_)
      dsimp only at member
      tauto
  behind := ordered.behind
  sorted := ordered.sorted
  stable := ordered.stable
  inOrder := ordered.inOrder.arrive item

/-- The tickets are somewhere else, but they are the same. -/
theorem Line.Ordered.moved (ordered : line.Ordered priority permanent) (after : Line Item)
    (arrived : after.arrived = line.arrived)
    (same : (after.tickets permanent).Perm (line.tickets permanent)) :
    (∀ ticket ∈ after.tickets permanent, after.arrived[ticket.number]? = some ticket.item) ∧
      ((after.tickets permanent).map Ticket.number).Perm (List.range after.arrived.length) := by
  rw [arrived]
  exact ⟨fun ticket member => ordered.known ticket (same.mem_iff.mp member),
    (same.map _).trans ordered.conserved⟩

/-- Moving the first ticket of the line into the queue keeps the order. -/
theorem Line.Ordered.sort (ordered : line.Ordered priority permanent) {head : Ticket Item}
    {rest : List (Ticket Item)} (first : line.waiting = head :: rest) (moves : line.lost = []) :
    Line.Ordered priority permanent { line with
      waiting := rest
      queue := insertStable (priority ∘ Ticket.item) head line.queue } := by
  have inserted := insertStable_perm (priority ∘ Ticket.item) head line.queue
  have headWaits : head ∈ line.waiting := by
    rw [first]
    exact List.mem_cons_self
  obtain ⟨headFirst, restWaiting⟩ := List.pairwise_cons.mp (first ▸ ordered.waiting)
  obtain ⟨known, conserved⟩ := ordered.moved { line with
      waiting := rest
      queue := insertStable (priority ∘ Ticket.item) head line.queue } rfl (by
    rw [Line.tickets, Line.tickets, first]
    refine ((List.Perm.append_left rest inserted).trans ?_).append_right _ |>.append_right _
    exact List.perm_middle)
  refine ⟨known, conserved, restWaiting, fun ticket member last later => ?_, ?_, ?_, ?_,
    ordered.inOrder⟩
  · dsimp only at member
    rw [moves, List.append_nil, inserted.mem_iff, List.mem_cons] at member
    rcases member with rfl | old
    · exact headFirst last later
    · exact ordered.ahead ticket (List.mem_append_left _ old) last
        (first ▸ List.mem_cons_of_mem head later)
  · dsimp only
    rw [moves]
    exact fun _ member => absurd member List.not_mem_nil
  · exact insertStable_pairwise ordered.sorted ordered.sorted (fun _ _ notLower => notLower)
      fun _ _ lower => le_of_lt lower
  · exact insertStable_pairwise ordered.stable ordered.sorted
      (fun ticket member _ => Or.inr (Or.inl
        (ordered.ahead ticket (List.mem_append_left _ member) head headWaits)))
      fun _ _ lower => Or.inr (Or.inr lower)

/-- Losing the first ticket of the line keeps the order. -/
theorem Line.Ordered.lose (ordered : line.Ordered priority permanent) {head : Ticket Item}
    {rest : List (Ticket Item)} (first : line.waiting = head :: rest) (moves : line.lost = []) :
    Line.Ordered priority permanent { line with
      waiting := rest
      lost := [head] } := by
  have headWaits : head ∈ line.waiting := by
    rw [first]
    exact List.mem_cons_self
  obtain ⟨headFirst, restWaiting⟩ := List.pairwise_cons.mp (first ▸ ordered.waiting)
  obtain ⟨known, conserved⟩ := ordered.moved { line with
      waiting := rest
      lost := [head] } rfl (by
    rw [Line.tickets, Line.tickets, first, moves, List.append_nil, List.cons_append,
      List.cons_append]
    exact List.perm_append_singleton head _)
  refine ⟨known, conserved, restWaiting, fun ticket member last later => ?_,
    fun gone member ticket queued => ?_, ordered.sorted, ordered.stable, ordered.inOrder⟩
  · rcases List.mem_append.mp member with queued | single
    · exact ordered.ahead ticket (List.mem_append_left _ queued) last
        (first ▸ List.mem_cons_of_mem head later)
    · rw [List.mem_singleton.mp single]
      exact headFirst last later
  · rw [List.mem_singleton.mp member]
    exact ordered.ahead ticket (List.mem_append_left _ queued) head headWaits

/-- A served ticket that is not permanent was not served before. -/
theorem Line.Ordered.not_served (ordered : line.Ordered priority permanent) {head : Ticket Item}
    (queued : head ∈ line.queue) (once : ¬ permanent head.item) :
    ∀ other ∈ line.served, other.number ≠ head.number := by
  intro other member same
  have found := ordered.known head (Line.mem_tickets.mpr (Or.inr (Or.inl queued)))
  have foundOther := ordered.inOrder.known other member
  rw [same, found] at foundOther
  have finishedOther : other ∈ finished permanent line.served := by
    refine List.mem_filter.mpr ⟨member, ?_⟩
    rw [← Option.some.inj foundOther]
    exact decide_eq_true once
  have distinct := (List.nodup_range (n := line.arrived.length))
  rw [← ordered.conserved.nodup_iff, Line.tickets, List.map_append, List.map_append,
    List.append_assoc, List.map_append] at distinct
  exact (List.nodup_append.mp distinct).2.2 _
    (List.mem_append_right _ (List.mem_map_of_mem queued)) _
    (List.mem_append_left _ (List.mem_map_of_mem finishedOther)) same.symm

/-- What should have been served before the head of the queue was. -/
theorem Line.Ordered.none_missing (ordered : line.Ordered priority permanent)
    {head : Ticket Item} {rest : List (Ticket Item)} (first : line.queue = head :: rest)
    {number : Nat} {item : Item} (before : number < head.number)
    (found : line.arrived[number]? = some item) (notLower : priority head.item ≤ priority item)
    (once : ¬ permanent item) : ∃ other ∈ line.served, other.number = number := by
  have headQueued : head ∈ line.queue := by
    rw [first]
    exact List.mem_cons_self
  have listed : number ∈ (line.tickets permanent).map Ticket.number :=
    ordered.conserved.mem_iff.mpr (List.mem_range.mpr (List.getElem?_eq_some_iff.mp found).1)
  obtain ⟨ticket, member, rfl⟩ := List.mem_map.mp listed
  have known := ordered.known ticket member
  rw [found] at known
  obtain rfl := Option.some.inj known
  rcases Line.mem_tickets.mp member with waits | queued | done | gone
  · -- The line moves in the order of arrival.
    exact absurd (ordered.ahead head (List.mem_append_left _ headQueued) ticket waits)
      (lt_asymm before)
  · rw [first, List.mem_cons] at queued
    rcases queued with rfl | later
    · exact absurd before (lt_irrefl _)
    · have related := (List.pairwise_cons.mp (first ▸ ordered.stable)).1 ticket later
      rcases related with permanentTicket | after | lower
      · exact absurd permanentTicket once
      · exact absurd after (lt_asymm before)
      · exact absurd notLower (not_le_of_gt lower)
  · exact ⟨ticket, (List.mem_filter.mp done).1, rfl⟩
  · -- Nothing that arrived after a lost ticket gets into the queue.
    exact absurd (ordered.behind ticket gone head headQueued) (lt_asymm before)

/-- Serving the head of the queue keeps the order. -/
theorem Line.Ordered.serve (ordered : line.Ordered priority permanent)
    (least : PermanentLeast priority permanent) {head : Ticket Item}
    {rest : List (Ticket Item)} (first : line.queue = head :: rest) :
    Line.Ordered priority permanent { line with
      queue := if permanent head.item then rest ++ [head] else rest
      served := line.served ++ [head] } := by
  have headQueued : head ∈ line.queue := by
    rw [first]
    exact List.mem_cons_self
  obtain ⟨highest, restSorted⟩ := List.pairwise_cons.mp (first ▸ ordered.sorted)
  obtain ⟨_, restStable⟩ := List.pairwise_cons.mp (first ▸ ordered.stable)
  have inOrder := ordered.inOrder.concat
    (ordered.known head (Line.mem_tickets.mpr (Or.inr (Or.inl headQueued))))
    (ordered.not_served headQueued)
    fun number item before found => ordered.none_missing first before found
  by_cases again : permanent head.item
  · rw [if_pos again]
    have sameQueue : (rest ++ [head]).Perm line.queue := by
      rw [first]
      exact List.perm_append_singleton head rest
    have sameFinished : finished permanent (line.served ++ [head]) =
        finished permanent line.served := by
      simp [finished, List.filter_append, again]
    obtain ⟨known, conserved⟩ := ordered.moved { line with
        queue := rest ++ [head]
        served := line.served ++ [head] } rfl (by
      rw [Line.tickets, Line.tickets, sameFinished]
      exact ((sameQueue.append_left _).append_right _).append_right _)
    refine ⟨known, conserved, ordered.waiting, fun ticket member => ordered.ahead ticket ?_,
      fun gone member ticket queued => ordered.behind gone member ticket
        (sameQueue.mem_iff.mp queued), ?_, ?_, inOrder⟩
    · rw [List.mem_append] at member ⊢
      exact member.imp_left sameQueue.mem_iff.mp
    · refine List.pairwise_append.mpr ⟨restSorted, List.pairwise_singleton _ _, ?_⟩
      intro ticket _ last single
      rw [List.mem_singleton.mp single]
      exact least head.item again ticket.item
    · refine List.pairwise_append.mpr ⟨restStable, List.pairwise_singleton _ _, ?_⟩
      intro ticket _ last single
      rw [List.mem_singleton.mp single]
      exact Or.inl again
  · rw [if_neg again]
    have within : ∀ ticket ∈ rest, ticket ∈ line.queue := fun ticket member => by
      rw [first]
      exact List.mem_cons_of_mem head member
    have moreFinished : finished permanent (line.served ++ [head]) =
        finished permanent line.served ++ [head] := by
      simp [finished, List.filter_append, again]
    obtain ⟨known, conserved⟩ := ordered.moved { line with
        queue := rest
        served := line.served ++ [head] } rfl (by
      rw [Line.tickets, Line.tickets, moreFinished, first]
      refine List.Perm.append_right _ ?_
      dsimp only
      rw [← List.append_assoc]
      refine (List.perm_append_singleton head _).trans (List.Perm.symm ?_)
      rw [List.append_assoc, List.append_assoc]
      exact List.perm_middle)
    refine ⟨known, conserved, ordered.waiting, fun ticket member => ordered.ahead ticket ?_,
      fun gone member ticket queued => ordered.behind gone member ticket (within ticket queued),
      restSorted, restStable, inOrder⟩
    rw [List.mem_append] at member ⊢
    exact member.imp_left (within ticket)

/-- What holds of a line is kept by every step. -/
theorem LineStep.ordered (least : PermanentLeast priority permanent) {before after : Line Item}
    (taken : LineStep priority permanent before after)
    (ordered : before.Ordered priority permanent) : after.Ordered priority permanent := by
  cases taken with
  | arrive item => exact ordered.arrive item
  | sort head rest first moves => exact ordered.sort first moves
  | lose head rest first moves => exact ordered.lose first moves
  | serve head rest first => exact ordered.serve least first

/-- The items that arrived are those that wait, are queued, were served for good, or were
lost. -/
theorem Line.Ordered.items (ordered : line.Ordered priority permanent) :
    ((line.tickets permanent).map Ticket.item).Perm line.arrived := by
  have lookedUp : (line.tickets permanent).map Ticket.item =
      ((line.tickets permanent).map Ticket.number).filterMap fun number =>
        line.arrived[number]? := by
    rw [List.filterMap_map, ← List.filterMap_eq_map]
    refine List.filterMap_congr fun ticket member => ?_
    exact (ordered.known ticket member).symm
  rw [lookedUp]
  refine (ordered.conserved.filterMap _).trans (List.Perm.of_eq ?_)
  induction line.arrived using List.reverseRecOn with
  | nil => rfl
  | append_singleton front last inductionHypothesis =>
    rw [List.length_append, List.length_singleton, List.range_succ, List.filterMap_append]
    refine congrArg₂ _ ?_ (by simp)
    refine Eq.trans (List.filterMap_congr fun number member => ?_) inductionHypothesis
    exact List.getElem?_append_left (List.mem_range.mp member)

end ServiceLine
