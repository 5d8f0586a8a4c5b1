/-
This file models the cleaning pass down to the iterator and the records it frees.

The pass deletes while it iterates: it moves the iterator on before it examines the entry
it leaves, so it is one entry behind, and it examines the last entry after the loop. The
iterator visits the entries in an order that is not known. In every order each record is
examined once, no freed record is read, the unused ones are freed and the used ones lose
their flag and nothing else.
-/

import DectHarq.NodeThreads

namespace DectHarq

/-! ### The pass -/

/-- A pass under way: the heap, the records it examined and those it freed. -/
structure Cleaning where
  heap : NodeHeap
  examined : List Nat
  freed : List Nat

/-- The values of the hash map. -/
def NodeHeap.pointers (heap : NodeHeap) : List Nat := heap.map.entries.map Sigma.snd

/-- One node is examined, at the value of an iterator: an unused one is deleted by the address
that its record has, and the flag of a used one is cleared. -/
def examine (value : Option Nat) (pass : Cleaning) : Except Stop Cleaning :=
  match value with
  | none => .error .nullPointer -- the iterator was never moved
  | some pointer =>
    match pass.heap.records pointer with
    | none => .error .outOfBounds -- the record was freed
    | some node =>
      if !node.used then
        .ok {
          heap := (deleteSection node.address pass.heap).2
          examined := pass.examined ++ [pointer]
          freed := pass.freed ++ (pass.heap.map.lookup node.address).toList }
      else
        .ok {
          heap := pass.heap.write pointer (some { node with used := false })
          examined := pass.examined ++ [pointer]
          freed := pass.freed }

/-- The loop, for the value of the iterator and those it has still to visit: the copy of the
iterator is examined after the iterator moved on. -/
def cleanWhile : Option Nat → List Nat → Cleaning → Except Stop (Option Nat × Cleaning)
  | value, [], pass => .ok (value, pass)
  | value, next :: later, pass => do
    let examined ← examine value pass
    cleanWhile (some next) later examined

/-- `dect_mac_node_clean_unused_nodes`, for the order in which the iterator visits the values. -/
def cleanUnusedNodes (order : List Nat) (heap : NodeHeap) : Except Stop Cleaning := do
  let (value, pass) ← cleanWhile order.head? order.tail ⟨heap, [], []⟩
  if pass.heap.map.keys.isEmpty then .ok pass else examine value pass

/-! ### The mapped records -/

namespace NodeHeap

variable {heap : NodeHeap} {address pointer : Nat}

theorem mem_pointers_iff :
    pointer ∈ heap.pointers ↔ ∃ address, heap.map.lookup address = some pointer := by
  unfold pointers
  constructor
  · intro member
    obtain ⟨⟨address, value⟩, listed, rfl⟩ := List.mem_map.mp member
    exact ⟨address, AList.mem_lookup_iff.mpr listed⟩
  · rintro ⟨address, found⟩
    exact List.mem_map.mpr ⟨⟨address, pointer⟩, AList.mem_lookup_iff.mp found, rfl⟩

/-- No record is mapped twice. -/
theorem Sound.pointers_nodup (sound : heap.Sound) : heap.pointers.Nodup := by
  refine List.Nodup.map_on ?_ heap.map.nodupKeys.nodup
  rintro ⟨first, value⟩ listed ⟨second, other⟩ listedToo rfl
  have same := sound.same_address (AList.mem_lookup_iff.mpr listed)
    (AList.mem_lookup_iff.mpr listedToo)
  rw [same]

theorem Sound.record_of_pointer (sound : heap.Sound) (mapped : pointer ∈ heap.pointers) :
    ∃ node, heap.records pointer = some node ∧ heap.map.lookup node.address = some pointer := by
  obtain ⟨address, found⟩ := mem_pointers_iff.mp mapped
  obtain ⟨node, record, rfl⟩ := sound address pointer found
  exact ⟨node, record, found⟩

/-- The flag of a record. -/
def usedAt (heap : NodeHeap) (pointer : Nat) : Bool :=
  (heap.records pointer).any Node.used

end NodeHeap

/-- What a pass leaves of a record: a used one without its flag. -/
def Node.aged (node : Node) : Option Node :=
  if node.used then some { node with used := false } else none

/-! ### The examined part of the table -/

/-- A pass examined some records of a heap: the unused ones among them are freed and no longer
mapped, the used ones lost their flag, and the rest of the heap is as it was. -/
structure Examined (heap : NodeHeap) (done : List Nat) (pass : Cleaning) : Prop where
  examined : pass.examined = done
  freed : pass.freed = done.filter fun pointer => !heap.usedAt pointer
  records : ∀ pointer, pass.heap.records pointer =
    if pointer ∈ done then (heap.records pointer).bind Node.aged else heap.records pointer
  lookup : ∀ address pointer, pass.heap.map.lookup address = some pointer ↔
    heap.map.lookup address = some pointer ∧ (pointer ∉ done ∨ heap.usedAt pointer = true)

section Examination

variable {heap : NodeHeap} {done : List Nat} {pass : Cleaning} {pointer : Nat}

theorem examined_nothing (heap : NodeHeap) : Examined heap [] ⟨heap, [], []⟩ where
  examined := rfl
  freed := rfl
  records := fun _ => rfl
  lookup := fun address pointer => by simp

/-- A record that is still to be examined is as it was before the pass. -/
theorem Examined.untouched (now : Examined heap done pass) (fresh : pointer ∉ done) :
    pass.heap.records pointer = heap.records pointer := by
  rw [now.records, if_neg fresh]

theorem Examined.mapped (now : Examined heap done pass) {address : Nat}
    (found : heap.map.lookup address = some pointer) (fresh : pointer ∉ done) :
    pass.heap.map.lookup address = some pointer :=
  (now.lookup address pointer).mpr ⟨found, Or.inl fresh⟩

theorem Examined.freed_snoc (now : Examined heap done pass) (pointer : Nat) :
    (done ++ [pointer]).filter (fun pointer => !heap.usedAt pointer) =
      pass.freed ++ if heap.usedAt pointer then [] else [pointer] := by
  rw [List.filter_append, ← now.freed, List.filter_singleton]
  cases heap.usedAt pointer <;> rfl

/-- An unused record is freed, and its address is no longer mapped. -/
theorem Examined.delete (sound : heap.Sound) (now : Examined heap done pass) {node : Node}
    (record : heap.records pointer = some node) (unused : node.used = false)
    (found : heap.map.lookup node.address = some pointer) (fresh : pointer ∉ done) :
    Examined heap (done ++ [pointer]) {
      heap := pass.heap.remove node.address pointer
      examined := pass.examined ++ [pointer]
      freed := pass.freed ++ [pointer] } where
  examined := by rw [now.examined]
  freed := by
    rw [now.freed_snoc, NodeHeap.usedAt, record, Option.any_some, unused]
    rfl
  records := fun other => by
    by_cases same : other = pointer
    · rw [same, if_pos (by simp), record, Option.bind_some, Node.aged, unused]
      exact NodeHeap.write_records_self _ _ _
    · rw [NodeHeap.remove, NodeHeap.write_records_of_ne _ _ same, now.records]
      simp [same]
  lookup := fun address other => by
    by_cases same : address = node.address
    · have own : heap.map.lookup node.address = some other → other = pointer :=
        fun mapped => Option.some.inj (mapped.symm.trans found)
      rw [same, NodeHeap.remove, AList.lookup_erase]
      constructor
      · intro erased
        cases erased
      · rintro ⟨mapped, kept⟩
        obtain rfl := own mapped
        simp [NodeHeap.usedAt, record, unused] at kept
    · rw [NodeHeap.remove, AList.lookup_erase_ne same, now.lookup]
      refine and_congr_right fun mapped => ?_
      have apart : other ≠ pointer := by
        rintro rfl
        exact same (sound.same_address mapped found)
      simp [apart]

/-- A used record loses its flag. -/
theorem Examined.clear (now : Examined heap done pass) {node : Node}
    (record : heap.records pointer = some node) (used : node.used = true) :
    Examined heap (done ++ [pointer]) {
      heap := pass.heap.write pointer (some { node with used := false })
      examined := pass.examined ++ [pointer]
      freed := pass.freed } where
  examined := by rw [now.examined]
  freed := by
    rw [now.freed_snoc, NodeHeap.usedAt, record, Option.any_some, used, if_pos rfl,
      List.append_nil]
  records := fun other => by
    by_cases same : other = pointer
    · rw [same, if_pos (by simp), record, Option.bind_some, Node.aged, if_pos used]
      exact NodeHeap.write_records_self _ _ _
    · rw [NodeHeap.write_records_of_ne _ _ same, now.records]
      simp [same]
  lookup := fun address other => by
    rw [show (pass.heap.write pointer _).map = pass.heap.map from rfl, now.lookup]
    refine and_congr_right fun _ => ?_
    by_cases same : other = pointer
    · simp [same, NodeHeap.usedAt, record, used]
    · simp [same]

/-- The examination of one more record. -/
theorem Examined.step (sound : heap.Sound) (now : Examined heap done pass)
    (mapped : pointer ∈ heap.pointers) (fresh : pointer ∉ done) :
    ∃ next, examine (some pointer) pass = .ok next ∧ Examined heap (done ++ [pointer]) next := by
  obtain ⟨node, record, found⟩ := sound.record_of_pointer mapped
  have present : pass.heap.records pointer = some node := (now.untouched fresh).trans record
  have reachable := now.mapped found fresh
  unfold examine
  dsimp only
  rw [present]
  dsimp only
  cases used : node.used with
  | false =>
    refine ⟨_, rfl, ?_⟩
    rw [deleteSection, reachable]
    exact now.delete sound record used found fresh
  | true => exact ⟨_, rfl, now.clear record used⟩

/-- The loop examines all records but the one the iterator ends at. -/
theorem Examined.loop (sound : heap.Sound) (later : List Nat) :
    ∀ {done : List Nat} {pass : Cleaning} {current : Nat}, Examined heap done pass →
      (∀ pointer ∈ current :: later, pointer ∈ heap.pointers) →
        (done ++ current :: later).Nodup →
          ∃ earlier last next, current :: later = earlier ++ [last] ∧
            cleanWhile (some current) later pass = .ok (some last, next) ∧
              Examined heap (done ++ earlier) next := by
  induction later with
  | nil =>
    intro done pass current now _ _
    exact ⟨[], current, pass, rfl, rfl, by rwa [List.append_nil]⟩
  | cons following later inductionHypothesis =>
    intro done pass current now mapped nodup
    have fresh : current ∉ done := fun examined =>
      List.disjoint_of_nodup_append nodup examined List.mem_cons_self
    obtain ⟨examined, ran, after⟩ := now.step sound (mapped current List.mem_cons_self) fresh
    obtain ⟨earlier, last, next, split, rest, all⟩ := inductionHypothesis after
      (fun pointer member => mapped pointer (List.mem_cons_of_mem _ member))
      (by rwa [List.append_assoc])
    refine ⟨current :: earlier, last, next, by rw [split]; rfl, bind_ok.mpr ⟨_, ran, rest⟩, ?_⟩
    rwa [List.append_assoc] at all

end Examination

/-! ### The whole pass -/

/-- The result of an exact pass: the entries are examined in order, each once; exactly the unused
ones are freed; and what is left are the used ones, with their flag cleared. -/
structure ExactCleaning (heap : NodeHeap) (order : List Nat) (pass : Cleaning) : Prop where
  examined : pass.examined = order
  once : pass.examined.Nodup
  freed : pass.freed = order.filter fun pointer => !heap.usedAt pointer
  left : ∀ address node, pass.heap.get address = some node ↔
    ∃ old, heap.get address = some old ∧ old.used = true ∧ node = { old with used := false }
  released : ∀ pointer ∈ pass.freed, pass.heap.records pointer = none
  others : ∀ pointer, pointer ∉ order → pass.heap.records pointer = heap.records pointer
  sound : pass.heap.Sound

theorem Node.aged_eq_some_iff {old node : Node} :
    old.aged = some node ↔ old.used = true ∧ node = { old with used := false } := by
  unfold Node.aged
  split
  · rename_i used
    rw [Option.some_inj]
    exact ⟨fun same => ⟨used, same.symm⟩, fun both => both.2.symm⟩
  · rename_i unused
    exact ⟨nofun, fun both => absurd both.1 unused⟩

section Pass

variable {heap : NodeHeap} {order : List Nat} {pass : Cleaning}

/-- A record that is mapped after the pass was used before it. -/
theorem Examined.get_iff (now : Examined heap order pass)
    (all : ∀ pointer, pointer ∈ heap.pointers → pointer ∈ order) (address : Nat) (node : Node) :
    pass.heap.get address = some node ↔
      ∃ old, heap.get address = some old ∧ old.used = true ∧ node = { old with used := false } := by
  unfold NodeHeap.get
  constructor
  · intro left
    obtain ⟨pointer, mapped, record⟩ := Option.bind_eq_some_iff.mp left
    have before := ((now.lookup address pointer).mp mapped).1
    rw [now.records, if_pos (all pointer (NodeHeap.mem_pointers_iff.mpr ⟨address, before⟩))]
      at record
    obtain ⟨old, was, aged⟩ := Option.bind_eq_some_iff.mp record
    exact ⟨old, Option.bind_eq_some_iff.mpr ⟨pointer, before, was⟩, Node.aged_eq_some_iff.mp aged⟩
  · rintro ⟨old, present, used, rfl⟩
    obtain ⟨pointer, before, was⟩ := Option.bind_eq_some_iff.mp present
    have flag : heap.usedAt pointer = true := by rw [NodeHeap.usedAt, was, Option.any_some, used]
    refine Option.bind_eq_some_iff.mpr
      ⟨pointer, (now.lookup address pointer).mpr ⟨before, Or.inr flag⟩, ?_⟩
    rw [now.records, if_pos (all pointer (NodeHeap.mem_pointers_iff.mpr ⟨address, before⟩)), was]
    exact Node.aged_eq_some_iff.mpr ⟨used, rfl⟩

/-- A pass that examined every record is exact. -/
theorem Examined.exact (sound : heap.Sound) (now : Examined heap order pass)
    (iterates : order.Perm heap.pointers) : ExactCleaning heap order pass where
  examined := now.examined
  once := now.examined ▸ iterates.nodup_iff.mpr sound.pointers_nodup
  freed := now.freed
  left := now.get_iff fun _ => iterates.mem_iff.mpr
  released := fun pointer member => by
    rw [now.freed] at member
    obtain ⟨visited, unused⟩ := List.mem_filter.mp member
    obtain ⟨node, record, _⟩ := sound.record_of_pointer (iterates.mem_iff.mp visited)
    have flag : ¬ node.used = true := by simpa [NodeHeap.usedAt, record] using unused
    rw [now.records, if_pos visited, record, Option.bind_some, Node.aged, if_neg flag]
  others := fun pointer unvisited => now.untouched unvisited
  sound := fun address pointer mapped => by
    obtain ⟨before, kept⟩ := (now.lookup address pointer).mp mapped
    obtain ⟨node, record, key⟩ := sound address pointer before
    have visited := iterates.mem_iff.mpr (NodeHeap.mem_pointers_iff.mpr ⟨address, before⟩)
    have used : node.used = true := by
      simpa [visited, NodeHeap.usedAt, record] using kept
    refine ⟨{ node with used := false }, ?_, key⟩
    rw [now.records, if_pos visited, record]
    exact Node.aged_eq_some_iff.mpr ⟨used, rfl⟩

/-- The pass over a table is exact in every order of the iteration. -/
theorem cleanUnusedNodes_exact (sound : heap.Sound) (iterates : order.Perm heap.pointers) :
    ∃ pass, cleanUnusedNodes order heap = .ok pass ∧ ExactCleaning heap order pass := by
  have nodup : order.Nodup := iterates.nodup_iff.mpr sound.pointers_nodup
  unfold cleanUnusedNodes
  cases order with
  | nil =>
    have empty : heap.map.keys = [] := by
      have unmapped : heap.map.entries = [] := List.map_eq_nil_iff.mp iterates.symm.eq_nil
      rw [AList.keys, unmapped]
      rfl
    refine ⟨_, bind_ok.mpr ⟨_, rfl, if_pos ?_⟩, (examined_nothing heap).exact sound iterates⟩
    rw [empty]
    rfl
  | cons first later =>
    obtain ⟨earlier, last, almost, split, ran, now⟩ := (examined_nothing heap).loop sound later
      (fun pointer (member : pointer ∈ first :: later) => iterates.mem_iff.mp member) nodup
    rw [List.nil_append] at now
    have visits : (earlier ++ [last]).Perm heap.pointers := split ▸ iterates
    have fresh : last ∉ earlier := fun examined =>
      List.disjoint_of_nodup_append (split ▸ nodup) examined List.mem_cons_self
    have mapped : last ∈ heap.pointers :=
      visits.mem_iff.mp (List.mem_append_right _ List.mem_cons_self)
    obtain ⟨pass, examined, all⟩ := now.step sound mapped fresh
    -- the entry the iterator ends at is still there, so the hash map is not empty
    obtain ⟨node, _, found⟩ := sound.record_of_pointer mapped
    have listed : node.address ∈ almost.heap.map.keys := AList.mem_keys.mp
      (AList.lookup_isSome.mp (Option.isSome_iff_exists.mpr ⟨_, now.mapped found fresh⟩))
    have left : ¬ almost.heap.map.keys.isEmpty = true := fun empty => by
      rw [List.isEmpty_iff.mp empty] at listed
      cases listed
    refine ⟨pass, bind_ok.mpr ⟨_, ran, (if_neg left).trans examined⟩, ?_⟩
    rw [split]
    exact all.exact sound visits

end Pass

/-! ### The pass over the node table -/

section Table

/-- The records of a list of entries after one of them is replaced. -/
theorem dlookup_kreplace (address : Nat) (node : Node) (other : Nat)
    (entries : List (Sigma fun _ : Nat => Node)) :
    (entries.kreplace address node).dlookup other =
      if other = address then (entries.dlookup address).map fun _ => node
      else entries.dlookup other := by
  unfold List.kreplace
  induction entries with
  | nil => simp
  | cons first rest inductionHypothesis =>
    obtain ⟨key, record⟩ := first
    by_cases found : address = key
    · subst found
      rw [List.lookmap_cons_some _ _ (dif_pos rfl), List.dlookup_cons_eq]
      split
      · rename_i same
        rw [same, List.dlookup_cons_eq]
        rfl
      · rename_i distinct
        rw [List.dlookup_cons_ne _ _ distinct, List.dlookup_cons_ne _ _ distinct]
    · rw [List.lookmap_cons_none _ _ (dif_neg found), List.dlookup_cons_ne rest _ found]
      by_cases own : other = key
      · subst own
        rw [List.dlookup_cons_eq, List.dlookup_cons_eq, if_neg (Ne.symm found)]
      · rw [List.dlookup_cons_ne _ _ own, List.dlookup_cons_ne _ _ own, inductionHypothesis]

variable {nodes : NodeTable} {address : Nat}

/-- Every record has the address of its key. -/
def NodeTable.Keyed (nodes : NodeTable) : Prop :=
  ∀ address node, nodes.get address = some node → node.address = address

/-- The examination of one entry of the table. -/
theorem cleanNode_get (keyed : nodes.Keyed) (address other : Nat) :
    (cleanNode address nodes).get other =
      if other = address then (nodes.get address).bind Node.aged else nodes.get other := by
  unfold cleanNode
  cases found : nodes.get address with
  | none =>
    dsimp only
    split
    · rename_i same
      rw [same, found]
      rfl
    · rfl
  | some node =>
    obtain rfl := keyed address node found
    rw [Option.bind_some, Node.aged]
    dsimp only
    cases used : node.used with
    | false =>
      rw [Bool.not_false, if_pos rfl, dectMacNodeDeleteNode, found, if_neg Bool.false_ne_true]
      dsimp only
      split
      · rename_i same
        rw [same]
        exact AList.lookup_erase _ _
      · rename_i distinct
        exact AList.lookup_erase_ne distinct
    | true =>
      rw [Bool.not_true, if_neg Bool.false_ne_true, if_pos rfl]
      refine (dlookup_kreplace node.address _ other nodes.map.entries).trans ?_
      split
      · rw [show nodes.map.entries.dlookup node.address = some node from found]
        rfl
      · rfl

theorem cleanNode_keyed (keyed : nodes.Keyed) (address : Nat) :
    (cleanNode address nodes).Keyed := by
  intro other node left
  rw [cleanNode_get keyed] at left
  split at left
  · rename_i same
    obtain ⟨old, found, aged⟩ := Option.bind_eq_some_iff.mp left
    rw [(Node.aged_eq_some_iff.mp aged).2, same]
    exact keyed address old found
  · exact keyed other node left

/-- The loop ages all entries but the one it ends at. -/
theorem cleanLoop_get (later : List Nat) :
    ∀ {nodes : NodeTable} (current : Nat), nodes.Keyed → (current :: later).Nodup →
      ∃ earlier last, current :: later = earlier ++ [last] ∧
        (cleanLoop current later nodes).1 = last ∧ (cleanLoop current later nodes).2.Keyed ∧
          ∀ other, (cleanLoop current later nodes).2.get other =
            if other ∈ earlier then (nodes.get other).bind Node.aged else nodes.get other := by
  induction later with
  | nil =>
    intro nodes current keyed _
    exact ⟨[], current, rfl, rfl, keyed, fun other => rfl⟩
  | cons next later inductionHypothesis =>
    intro nodes current keyed nodup
    obtain ⟨fresh, distinct⟩ := List.nodup_cons.mp nodup
    obtain ⟨earlier, last, split, ends, kept, all⟩ :=
      inductionHypothesis next (cleanNode_keyed keyed current) distinct
    refine ⟨current :: earlier, last, by rw [split]; rfl, ends, kept, fun other => ?_⟩
    refine (all other).trans ?_
    have unvisited : current ∉ earlier := fun visited =>
      fresh (split ▸ List.mem_append_left _ visited)
    rw [cleanNode_get keyed]
    by_cases same : other = current
    · rw [same, if_neg unvisited, if_pos rfl, if_pos List.mem_cons_self]
    · rw [if_neg same]
      simp [same]

/-- A pass over the node table ages every record. -/
theorem cleanUnusedNodes_get (keyed : nodes.Keyed) (address : Nat) :
    (dectMacNodeCleanUnusedNodes nodes).get address = (nodes.get address).bind Node.aged := by
  unfold dectMacNodeCleanUnusedNodes
  split
  · rename_i empty
    have missing : nodes.get address = none := by
      refine AList.lookup_eq_none.mpr fun member => ?_
      rw [AList.mem_keys, empty] at member
      cases member
    rw [missing]
    rfl
  · rename_i first later keys
    have nodup : (first :: later).Nodup := keys ▸ nodes.map.keys_nodup
    obtain ⟨earlier, last, split, ends, kept, all⟩ := cleanLoop_get later first keyed nodup
    have fresh : last ∉ earlier := fun visited =>
      List.disjoint_of_nodup_append (split ▸ nodup) visited List.mem_cons_self
    have examined : (cleanNode (cleanLoop first later nodes).1
        (cleanLoop first later nodes).2).get address = (nodes.get address).bind Node.aged := by
      rw [cleanNode_get kept, ends, all, all, if_neg fresh]
      by_cases same : address = last
      · rw [if_pos same, same]
      · rw [if_neg same]
        split
        · rfl
        · rename_i unvisited
          have unlisted : address ∉ nodes.map.keys := by
            rw [keys, split]
            simp [unvisited, same]
          have missing : nodes.get address = none :=
            AList.lookup_eq_none.mpr fun member => unlisted (AList.mem_keys.mp member)
          rw [missing]
          rfl
    have present : last ∈ nodes.map.keys := by
      rw [keys, split]
      exact List.mem_append_right _ List.mem_cons_self
    have left : last ∈ (cleanLoop first later nodes).2.map.keys := by
      refine AList.mem_keys.mp (AList.lookup_isSome.mp ?_)
      rw [show (cleanLoop first later nodes).2.map.lookup last = nodes.get last from
        (all last).trans (if_neg fresh)]
      exact AList.lookup_isSome.mpr (AList.mem_keys.mpr present)
    dsimp only
    rw [if_neg fun empty => List.not_mem_nil (List.isEmpty_iff.mp empty ▸ left)]
    exact examined

end Table

/-! ### Exact passes -/

section Exact

variable {heap : NodeHeap} {order : List Nat} {pass : Cleaning}

theorem NodeHeap.Stores.keyed {nodes : NodeTable} (stores : heap.Stores nodes)
    (sound : heap.Sound) : nodes.Keyed := by
  intro address node found
  obtain ⟨pointer, mapped, record⟩ := Option.bind_eq_some_iff.mp ((stores address).trans found)
  obtain ⟨same, stored, key⟩ := sound address pointer mapped
  rw [record] at stored
  rw [Option.some.inj stored, key]

/-- An exact pass leaves the records that the pass over the node table leaves. -/
theorem ExactCleaning.stores {nodes : NodeTable} (cleaned : ExactCleaning heap order pass)
    (stores : heap.Stores nodes) (sound : heap.Sound) :
    pass.heap.Stores (dectMacNodeCleanUnusedNodes nodes) := by
  intro address
  rw [cleanUnusedNodes_get (stores.keyed sound), ← stores]
  refine Option.ext fun node => (cleaned.left address node).trans ?_
  rw [Option.bind_eq_some_iff]
  exact exists_congr fun old => and_congr_right fun _ => Node.aged_eq_some_iff.symm

/-- A cleaning pass over any table is exact in every order of the iteration, and it is the pass
over the node table that the heap stores. -/
theorem cleaning_exact (sound : heap.Sound) (iterates : order.Perm heap.pointers) :
    ∃ pass, cleanUnusedNodes order heap = .ok pass ∧ ExactCleaning heap order pass ∧
      ∀ nodes, heap.Stores nodes → pass.heap.Stores (dectMacNodeCleanUnusedNodes nodes) := by
  obtain ⟨pass, ran, cleaned⟩ := cleanUnusedNodes_exact sound iterates
  exact ⟨pass, ran, cleaned, fun nodes stores => cleaned.stores stores sound⟩

end Exact

/-- An unused record before and after a used one. -/
def threeNodes : NodeHeap :=
  ((NodeHeap.empty.insert 1 ⟨7, false, 13, 4⟩).insert 2 ⟨8, true, 9, 2⟩).insert 3 ⟨9, false, 5, 0⟩

/-- A pass over three nodes that starts and ends at an unused one. -/
theorem cleaning_exact_three :
    ∃ pass, cleanUnusedNodes [3, 2, 1] threeNodes = .ok pass ∧
      ExactCleaning threeNodes [3, 2, 1] pass ∧
        ∀ nodes, threeNodes.Stores nodes →
          pass.heap.Stores (dectMacNodeCleanUnusedNodes nodes) :=
  cleaning_exact
    (((show NodeHeap.empty.Sound from (@nodesAtBoot_undisturbed Unit).sound).insert rfl
      |>.insert rfl).insert rfl)
    (by decide +kernel)

end DectHarq
