import Mathlib.Data.List.Nodup

/-!
# The outgoing queue

The rows of a view in the table of outgoing queue entries.
-/

namespace SecurityFramework
inductive CKKSItemState where
  | new
  | inflight
  | reencrypt
  | error
  | deleted
  deriving DecidableEq

inductive SecCKKSAction where
  | add
  | delete
  | modify
  deriving DecidableEq

/-- `CKKSOutgoingQueueEntry`, with the change tag of the record that the item was stored with. -/
structure CKKSOutgoingQueueEntry (υ κ τ : Type*) where
  uuid : υ
  action : SecCKKSAction
  state : CKKSItemState
  parentKeyUUID : κ
  recordChangeTag : Option τ
  deriving DecidableEq

/-- The statements about one UUID that fail in a transaction: loading the entry in flight, the new
entry or the mirror entry, deleting a row, and saving one. -/
structure EntryFaults where
  inflightQuery : Bool
  newQuery : Bool
  mirrorQuery : Bool
  delete : Bool
  save : Bool
  deriving DecidableEq

def EntryFaults.none : EntryFaults := ⟨false, false, false, false, false⟩

abbrev OutgoingQueue (υ κ τ : Type*) := List (CKKSOutgoingQueueEntry υ κ τ)

namespace OutgoingQueue
section
variable {υ κ τ : Type*} [DecidableEq υ] (queue : OutgoingQueue υ κ τ)
  (entry : CKKSOutgoingQueueEntry υ κ τ) (faults : EntryFaults)

def tryFromDatabase (uuid : υ) (state : CKKSItemState) : Option (CKKSOutgoingQueueEntry υ κ τ) :=
  queue.find? fun entry => entry.uuid = uuid ∧ entry.state = state

def deleteRow (uuid : υ) (state : CKKSItemState) : OutgoingQueue υ κ τ :=
  queue.filter fun entry => ¬(entry.uuid = uuid ∧ entry.state = state)

/-- `INSERT OR REPLACE` -/
def saveToDatabaseTable : OutgoingQueue υ κ τ :=
  queue.deleteRow entry.uuid entry.state ++ [entry]

/-- `saveToDatabase` of an entry that was loaded and has another state now: the rows afterwards, and
whether there is an error. -/
def saveAs (state : CKKSItemState) : OutgoingQueue υ κ τ × Bool :=
  if entry.state ≠ state ∧ faults.delete then (queue, true)
  else
    let queue := if entry.state ≠ state then queue.deleteRow entry.uuid entry.state else queue
    if faults.save then (queue, true)
    else (queue.saveToDatabaseTable { entry with state := state }, false)

def deleteFromDatabase : OutgoingQueue υ κ τ × Bool :=
  if faults.delete then (queue, true) else (queue.deleteRow entry.uuid entry.state, false)

/-- `intransactionMoveToState`. An entry in flight that moves to new is dropped where a new one has
come behind it. -/
def moveToState (state : CKKSItemState) : OutgoingQueue υ κ τ × Bool :=
  if state = .deleted then queue.deleteFromDatabase entry faults
  else if entry.state = .inflight ∧ state = .new ∧ ¬faults.newQuery ∧
      (queue.tryFromDatabase entry.uuid .new).isSome then
    queue.deleteFromDatabase entry faults
  else queue.saveAs entry faults state

def markAsError : OutgoingQueue υ κ τ × Bool :=
  queue.deleteFromDatabase entry faults

def inflightEntry (uuid : υ) : Option (CKKSOutgoingQueueEntry υ κ τ) :=
  if faults.inflightQuery then none else queue.tryFromDatabase uuid .inflight
end

section
variable {υ κ τ : Type*} (queue : OutgoingQueue υ κ τ)

def Keyed : Prop :=
  (queue.map fun entry => (entry.uuid, entry.state)).Nodup

def InFlight (uuid : υ) : Prop :=
  ∃ entry ∈ queue, entry.uuid = uuid ∧ entry.state = .inflight

variable {queue}

theorem Keyed.eq (h : queue.Keyed) {entry entry' : CKKSOutgoingQueueEntry υ κ τ}
    (hentry : entry ∈ queue) (hentry' : entry' ∈ queue) (huuid : entry.uuid = entry'.uuid)
    (hstate : entry.state = entry'.state) : entry = entry' :=
  List.inj_on_of_nodup_map h hentry hentry' (Prod.ext huuid hstate)

theorem Keyed.nodup_uuids (h : queue.Keyed) (state : CKKSItemState) :
    ((queue.filter fun entry => entry.state = state).map fun entry => entry.uuid).Nodup := by
  apply List.Nodup.map_on _ ((List.Nodup.of_map _ h).filter _)
  intro left hleft right hright huuid
  rcases List.mem_filter.1 hleft with ⟨hleft, hstate⟩
  rcases List.mem_filter.1 hright with ⟨hright, hstate'⟩
  exact h.eq hleft hright huuid
    ((of_decide_eq_true hstate).trans (of_decide_eq_true hstate').symm)
end

section
variable {υ κ τ : Type*} [DecidableEq υ] {queue : OutgoingQueue υ κ τ}
  {entry : CKKSOutgoingQueueEntry υ κ τ} {faults : EntryFaults}

variable {state : CKKSItemState} {uuid : υ}

theorem mem_deleteRow :
    entry ∈ queue.deleteRow uuid state ↔
      entry ∈ queue ∧ ¬(entry.uuid = uuid ∧ entry.state = state) := by
  rw [deleteRow, List.mem_filter, decide_eq_true_eq]

theorem mem_saveToDatabaseTable {entry' : CKKSOutgoingQueueEntry υ κ τ} :
    entry' ∈ queue.saveToDatabaseTable entry ↔
      entry' ∈ queue.deleteRow entry.uuid entry.state ∨ entry' = entry := by
  rw [saveToDatabaseTable, List.mem_append, List.mem_singleton]

theorem Keyed.deleteRow (h : queue.Keyed) (uuid : υ) (state : CKKSItemState) :
    (queue.deleteRow uuid state).Keyed :=
  List.Nodup.sublist (List.filter_sublist.map _) h

theorem Keyed.saveToDatabaseTable (h : queue.Keyed) (entry : CKKSOutgoingQueueEntry υ κ τ) :
    (queue.saveToDatabaseTable entry).Keyed := by
  unfold Keyed OutgoingQueue.saveToDatabaseTable
  rw [List.map_append, List.nodup_append]
  refine ⟨h.deleteRow entry.uuid entry.state, List.nodup_singleton _, ?_⟩
  intro key hkey key' hkey' heq
  rcases List.mem_map.1 hkey with ⟨entry', hentry', rfl⟩
  rw [List.map_singleton, List.mem_singleton] at hkey'
  rw [hkey', Prod.mk.injEq] at heq
  exact (mem_deleteRow.1 hentry').2 heq

theorem Keyed.saveAs (h : queue.Keyed) (entry : CKKSOutgoingQueueEntry υ κ τ)
    (faults : EntryFaults) (state : CKKSItemState) : (queue.saveAs entry faults state).1.Keyed := by
  unfold OutgoingQueue.saveAs
  dsimp only
  split_ifs
  · exact h
  · exact h.deleteRow entry.uuid entry.state
  · exact h
  · exact (h.deleteRow entry.uuid entry.state).saveToDatabaseTable _
  · exact h.saveToDatabaseTable _

theorem Keyed.deleteFromDatabase (h : queue.Keyed) (entry : CKKSOutgoingQueueEntry υ κ τ)
    (faults : EntryFaults) : (queue.deleteFromDatabase entry faults).1.Keyed := by
  unfold OutgoingQueue.deleteFromDatabase
  split_ifs
  · exact h
  · exact h.deleteRow entry.uuid entry.state

theorem Keyed.moveToState (h : queue.Keyed) (entry : CKKSOutgoingQueueEntry υ κ τ)
    (faults : EntryFaults) (state : CKKSItemState) :
    (queue.moveToState entry faults state).1.Keyed := by
  unfold OutgoingQueue.moveToState
  split_ifs
  · exact h.deleteFromDatabase entry faults
  · exact h.deleteFromDatabase entry faults
  · exact h.saveAs entry faults state

theorem Keyed.markAsError (h : queue.Keyed) (entry : CKKSOutgoingQueueEntry υ κ τ)
    (faults : EntryFaults) : (queue.markAsError entry faults).1.Keyed :=
  h.deleteFromDatabase entry faults

theorem tryFromDatabase_eq_some (h : queue.tryFromDatabase uuid state = some entry) :
    entry ∈ queue ∧ entry.uuid = uuid ∧ entry.state = state := by
  refine ⟨List.mem_of_find?_eq_some h, ?_⟩
  have hkey := List.find?_some h
  exact of_decide_eq_true hkey

theorem isSome_tryFromDatabase :
    (queue.tryFromDatabase uuid state).isSome = true ↔
      ∃ entry ∈ queue, entry.uuid = uuid ∧ entry.state = state := by
  rw [tryFromDatabase, List.find?_isSome]
  simp only [decide_eq_true_eq]

theorem tryFromDatabase_isSome_iff_inFlight :
    (queue.tryFromDatabase uuid .inflight).isSome = true ↔ queue.InFlight uuid :=
  isSome_tryFromDatabase

/-- Deleting a row takes the entry out of flight only where it was the one in flight. -/
theorem inFlight_deleteRow {uuid' : υ} :
    (queue.deleteRow uuid state).InFlight uuid' ↔
      queue.InFlight uuid' ∧ ¬(uuid' = uuid ∧ state = .inflight) := by
  constructor
  · rintro ⟨entry, hentry, rfl, hstate⟩
    rcases mem_deleteRow.1 hentry with ⟨hmem, hne⟩
    refine ⟨⟨entry, hmem, rfl, hstate⟩, ?_⟩
    rintro ⟨huuid, rfl⟩
    exact hne ⟨huuid, hstate⟩
  · rintro ⟨⟨entry, hmem, rfl, hstate⟩, hne⟩
    refine ⟨entry, mem_deleteRow.2 ⟨hmem, ?_⟩, rfl, hstate⟩
    rintro ⟨huuid, rfl⟩
    exact hne ⟨huuid, hstate⟩

theorem inFlight_saveToDatabaseTable :
    (queue.saveToDatabaseTable entry).InFlight uuid ↔
      queue.InFlight uuid ∨ uuid = entry.uuid ∧ entry.state = .inflight := by
  constructor
  · rintro ⟨entry', hentry', rfl, hstate⟩
    rcases mem_saveToDatabaseTable.1 hentry' with hmem | rfl
    · exact Or.inl ⟨entry', (mem_deleteRow.1 hmem).1, rfl, hstate⟩
    · exact Or.inr ⟨rfl, hstate⟩
  · intro h
    by_cases hentry : uuid = entry.uuid ∧ entry.state = .inflight
    · exact ⟨entry, mem_saveToDatabaseTable.2 (Or.inr rfl), hentry.1.symm, hentry.2⟩
    · rcases h with hflight | hentry'
      · rcases inFlight_deleteRow.2 ⟨hflight, hentry⟩ with ⟨entry', hmem, huuid, hstate⟩
        exact ⟨entry', mem_saveToDatabaseTable.2 (Or.inl hmem), huuid, hstate⟩
      · exact absurd hentry' hentry

theorem inFlight_moveToState_inflight (hstate : entry.state = .new)
    (hdelete : faults.delete = false) (hsave : faults.save = false) :
    (queue.moveToState entry faults .inflight).1.InFlight uuid ↔
      queue.InFlight uuid ∨ uuid = entry.uuid := by
  unfold moveToState saveAs
  simp only [reduceCtorEq, if_false, false_and, and_false, hdelete, hsave, hstate, ne_eq,
    not_false_eq_true, if_true, Bool.false_eq_true]
  rw [inFlight_saveToDatabaseTable, inFlight_deleteRow]
  simp only [reduceCtorEq, and_false, not_false_eq_true, and_true]

theorem inFlight_moveToState_reencrypt (hstate : entry.state = .new) :
    (queue.moveToState entry faults .reencrypt).1.InFlight uuid ↔ queue.InFlight uuid := by
  unfold moveToState saveAs
  simp only [reduceCtorEq, if_false, false_and, and_false, hstate, ne_eq, not_false_eq_true,
    if_true, true_and]
  split_ifs
  · exact Iff.rfl
  · rw [inFlight_deleteRow]
    simp only [reduceCtorEq, and_false, not_false_eq_true, and_true]
  · rw [inFlight_saveToDatabaseTable, inFlight_deleteRow]
    simp only [reduceCtorEq, and_false, not_false_eq_true, and_true, or_false]

theorem inFlight_deleteFromDatabase (hstate : entry.state = .inflight) :
    (queue.deleteFromDatabase entry faults).1.InFlight uuid ↔
      queue.InFlight uuid ∧ (uuid = entry.uuid → faults.delete = true) := by
  unfold deleteFromDatabase
  split_ifs with hdelete
  · exact (and_iff_left fun _ => hdelete).symm
  · rw [inFlight_deleteRow]
    simp only [hstate, and_true, hdelete, Bool.false_eq_true, imp_false]

/-- An entry in flight that moves to another state is in flight no more, unless its row cannot be
deleted. -/
theorem inFlight_moveToState (hstate : entry.state = .inflight) (hne : state ≠ .inflight) :
    (queue.moveToState entry faults state).1.InFlight uuid ↔
      queue.InFlight uuid ∧ (uuid = entry.uuid → faults.delete = true) := by
  unfold moveToState
  split_ifs
  · exact inFlight_deleteFromDatabase hstate
  · exact inFlight_deleteFromDatabase hstate
  · unfold saveAs
    simp only [hstate, ne_eq, hne.symm, not_false_eq_true, true_and, if_true]
    split_ifs with hdelete
    · exact (and_iff_left fun _ => hdelete).symm
    · rw [inFlight_deleteRow]
      simp only [and_true, hdelete, Bool.false_eq_true, imp_false]
    · rw [inFlight_saveToDatabaseTable, inFlight_deleteRow]
      simp only [and_true, hdelete, Bool.false_eq_true, imp_false, hne, and_false, or_false]
end
end OutgoingQueue
end SecurityFramework
