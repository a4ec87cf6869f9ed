import SecurityFramework.Ckks.SyncCallbacks

/-!
# What sync callbacks are told

A callback is told of a success only when the change it was registered with, or a later one, was
saved or deleted at the server.
-/

namespace SecurityFramework
open OutgoingQueue

section
variable {υ κ τ : Type*} [DecidableEq υ] {queue : OutgoingQueue υ κ τ}
  {entry row : CKKSOutgoingQueueEntry υ κ τ} {faults : EntryFaults} {state : CKKSItemState}

theorem mem_deleteFromDatabase (h : row ∈ (queue.deleteFromDatabase entry faults).1) :
    row ∈ queue := by
  unfold deleteFromDatabase at h
  split_ifs at h
  · exact h
  · exact (mem_deleteRow.1 h).1

theorem mem_saveAs_failed (hfailed : (queue.saveAs entry faults state).2 = true)
    (h : row ∈ (queue.saveAs entry faults state).1) : row ∈ queue := by
  unfold saveAs at h hfailed
  dsimp only at h hfailed
  split_ifs at h hfailed with hstate
  · exact h
  · exact (mem_deleteRow.1 h).1
  · exact h

theorem mem_saveAs (hsaved : (queue.saveAs entry faults state).2 = false)
    (h : row ∈ (queue.saveAs entry faults state).1) :
    row ∈ queue ∧ ¬(row.uuid = entry.uuid ∧ row.state = state) ∨
      row = { entry with state := state } := by
  unfold saveAs at h hsaved
  dsimp only at h hsaved
  split_ifs at h hsaved with hstate
  · rcases mem_saveToDatabaseTable.1 h with hmem | heq
    · rcases mem_deleteRow.1 hmem with ⟨hmem, hkey⟩
      exact .inl ⟨(mem_deleteRow.1 hmem).1, hkey⟩
    · exact .inr heq
  · rcases mem_saveToDatabaseTable.1 h with hmem | heq
    · exact .inl (mem_deleteRow.1 hmem)
    · exact .inr heq

def Superseded (queue : OutgoingQueue υ κ τ) (faults : EntryFaults) (uuid : υ) : Prop :=
  faults.inflightQuery = false ∧ faults.newQuery = false ∧ queue.InFlight uuid ∧
    ∃ row ∈ queue, row.uuid = uuid ∧ row.state = .new

omit [DecidableEq υ] in
theorem Superseded.mono {queue' : OutgoingQueue υ κ τ} {uuid : υ}
    (h : Superseded queue faults uuid) (hsub : ∀ row ∈ queue, row ∈ queue') :
    Superseded queue' faults uuid := by
  rcases h with ⟨hflight, hnew, ⟨entry, hentry, hkey⟩, row, hrow, hkey'⟩
  exact ⟨hflight, hnew, ⟨entry, hsub entry hentry, hkey⟩, row, hsub row hrow, hkey'⟩

theorem superseded_saveAs_new (hstate : entry.state = .inflight) {faults' : EntryFaults} {uuid : υ}
    (h : Superseded (queue.saveAs entry faults .new).1 faults' uuid) :
    Superseded queue faults' uuid := by
  by_cases hfailed : (queue.saveAs entry faults .new).2 = true
  · exact h.mono fun row hrow => mem_saveAs_failed hfailed hrow
  rw [Bool.not_eq_true] at hfailed
  rcases h with ⟨hflight, hnew, ⟨entry', hentry, huuid, hinflight⟩, row, hrow, hrowUUID, hrowState⟩
  have hentry' : entry' ∈ queue := by
    rcases mem_saveAs hfailed hentry with ⟨hmem, -⟩ | heq
    · exact hmem
    · rw [heq] at hinflight
      cases hinflight
  refine ⟨hflight, hnew, ⟨entry', hentry', huuid, hinflight⟩, ?_⟩
  rcases mem_saveAs hfailed hrow with ⟨hmem, -⟩ | heq
  · exact ⟨row, hmem, hrowUUID, hrowState⟩
  -- the row in flight was deleted before the new one was saved
  · exfalso
    have hkey : entry'.uuid = entry.uuid := by
      rw [huuid, ← hrowUUID, heq]
    unfold saveAs at hentry hfailed
    simp only [hstate, ne_eq, reduceCtorEq, not_false_eq_true, true_and, if_true] at hentry hfailed
    split_ifs at hentry hfailed
    rcases mem_saveToDatabaseTable.1 hentry with hmem | heq
    · exact (mem_deleteRow.1 (mem_deleteRow.1 hmem).1).2 ⟨hkey, hinflight⟩
    · rw [heq] at hinflight
      cases hinflight
end

/-- Each success was of a change that was written, no older than the one of the callback. -/
def Truthful {υ : Type*} (written : List (υ × Nat)) (callbacks : PendingCalls υ) : Prop :=
  ∀ call ∈ callbacks.made, call.success = true →
    ∃ number, call.number ≤ number ∧ (call.key, number) ∈ written

def WaitsFor {υ : Type*} (callbacks : PendingCalls υ) (uuid : υ) (number : Nat) : Prop :=
  ∀ pair ∈ callbacks.waiting, pair.1 = uuid → pair.2 ≤ number

def Silent {υ : Type*} (callbacks : PendingCalls υ) (uuid : υ) : Prop :=
  ∀ pair ∈ callbacks.waiting, pair.1 ≠ uuid

namespace SyncQueue
section
variable {υ κ τ : Type*} [DecidableEq υ] {rows : SyncQueue υ κ τ} {written : List (υ × Nat)}
  {entry : CKKSOutgoingQueueEntry υ κ τ} {faults : EntryFaults} {state : CKKSItemState}

/-- No callback waits for a later change than a row with its UUID holds. -/
structure Sound (rows : SyncQueue υ κ τ) (written : List (υ × Nat)) : Prop where
  keyed : rows.queue.Keyed
  waits : ∀ row ∈ rows.queue, WaitsFor rows.callbacks row.uuid (rows.changes row.uuid row.state)
  truthful : Truthful written rows.callbacks

omit [DecidableEq υ] in
theorem Sound.setQueue (h : rows.Sound written) {queue : OutgoingQueue υ κ τ}
    (hkeyed : queue.Keyed) (hsub : ∀ row ∈ queue, row ∈ rows.queue) :
    (rows.setQueue queue).Sound written where
  keyed := hkeyed
  waits row hrow := h.waits row (hsub row hrow)
  truthful := h.truthful

variable {uuid : υ} {operation : CKModifyRecordsOperation υ} {completed : Completed υ κ τ}

theorem Sound.call (h : rows.Sound written) {success : Bool}
    (htrue : success = true → ∀ pair ∈ rows.callbacks.waiting, pair.1 = uuid →
      ∃ number, pair.2 ≤ number ∧ (uuid, number) ∈ written) :
    (rows.call uuid success).Sound written where
  keyed := h.keyed
  waits row hrow pair hpair huuid :=
    h.waits row hrow pair (PendingCalls.waiting_of_mem_call hpair).1 huuid
  truthful made hmade hsuccess := by
    rcases PendingCalls.mem_made_call hmade with hmem | ⟨hkey, heq, hwaits⟩
    · exact h.truthful made hmem hsuccess
    · rw [hkey]
      exact htrue (heq.symm.trans hsuccess) (uuid, made.number) hwaits rfl

theorem Sound.deleteFromDatabase (h : rows.Sound written) :
    (rows.deleteFromDatabase entry faults).1.Sound written :=
  h.setQueue (h.keyed.deleteFromDatabase entry faults) fun _ hrow => mem_deleteFromDatabase hrow

theorem Sound.markAsError (h : rows.Sound written) :
    (rows.markAsError entry faults).1.Sound written := by
  have hcall : (rows.call entry.uuid false).Sound written :=
    h.call fun hsuccess => absurd hsuccess Bool.false_ne_true
  exact hcall.deleteFromDatabase

theorem Sound.moveToDeleted (h : rows.Sound written)
    (htrue : ∀ pair ∈ rows.callbacks.waiting, pair.1 = entry.uuid →
      ∃ number, pair.2 ≤ number ∧ (entry.uuid, number) ∈ written) :
    (rows.moveToDeleted entry faults).1.Sound written := by
  have hcall : (rows.call entry.uuid true).Sound written := h.call fun _ => htrue
  exact hcall.deleteFromDatabase

theorem changes_setChange {uuid' : υ} {state' : CKKSItemState} {change : Nat} :
    (rows.setChange uuid state change).changes uuid' state' =
      if uuid' = uuid ∧ state' = state then change else rows.changes uuid' state' := by
  unfold setChange
  by_cases huuid : uuid' = uuid
  · subst huuid
    simp only [Function.update_self, Function.update_apply, true_and]
  · simp only [Function.update_of_ne huuid, huuid, false_and, if_false]

theorem Sound.saveAs (h : rows.Sound written)
    (hentry : WaitsFor rows.callbacks entry.uuid (rows.changes entry.uuid entry.state)) :
    (rows.saveAs entry faults state).1.Sound written := by
  unfold SyncQueue.saveAs
  dsimp only
  split_ifs with hfailed
  · exact h.setQueue (h.keyed.saveAs entry faults state) fun row hrow =>
      mem_saveAs_failed hfailed hrow
  · rw [Bool.not_eq_true] at hfailed
    refine ⟨h.keyed.saveAs entry faults state, fun row hrow => ?_, h.truthful⟩
    rw [changes_setChange]
    split_ifs with hkey
    · rw [hkey.1]
      exact hentry
    · rcases mem_saveAs hfailed hrow with ⟨hmem, -⟩ | rfl
      · exact h.waits row hmem
      · exact absurd ⟨rfl, rfl⟩ hkey

/-- An entry that moves calls its callback only where it moves to deleted or is superseded. -/
theorem Sound.moveToState (h : rows.Sound written) (hstate : state ≠ .deleted)
    (hentry : WaitsFor rows.callbacks entry.uuid (rows.changes entry.uuid entry.state))
    (hquiet : entry.state = .inflight → state = .new → faults.newQuery = false →
      (rows.queue.tryFromDatabase entry.uuid .new).isSome = true →
        Silent rows.callbacks entry.uuid) :
    (rows.moveToState entry faults state).1.Sound written := by
  unfold SyncQueue.moveToState
  rw [if_neg hstate]
  split_ifs with hbehind
  · rcases hbehind with ⟨hinflight, hnew, hquery, hfound⟩
    rw [Bool.not_eq_true] at hquery
    exact h.moveToDeleted fun pair hpair huuid =>
      absurd huuid (hquiet hinflight hnew hquery hfound pair hpair)
  · exact h.saveAs hentry

/-- No callback waits that did not, and no entry is superseded that was not. -/
structure Recedes (faults : υ → EntryFaults) (rows rows' : SyncQueue υ κ τ) : Prop where
  waiting : ∀ pair ∈ rows'.callbacks.waiting, pair ∈ rows.callbacks.waiting
  superseded : ∀ uuid, Superseded rows'.queue (faults uuid) uuid →
    Superseded rows.queue (faults uuid) uuid

omit [DecidableEq υ] in
omit [DecidableEq υ] in
theorem Recedes.refl (faults : υ → EntryFaults) (rows : SyncQueue υ κ τ) :
    Recedes faults rows rows where
  waiting _ hpair := hpair
  superseded _ hbehind := hbehind

theorem recedes_delete (faults : υ → EntryFaults) (uuid : υ) (success : Bool)
    (faults' : EntryFaults) :
    Recedes faults rows ((rows.call uuid success).deleteFromDatabase entry faults').1 where
  waiting _ hpair := (PendingCalls.waiting_of_mem_call hpair).1
  superseded _ hbehind := hbehind.mono fun _ hrow => mem_deleteFromDatabase hrow

theorem recedes_moveToState {faults : υ → EntryFaults} (hstate : entry.state = .inflight)
    (htarget : state = .new ∨ state = .deleted) :
    Recedes faults rows (rows.moveToState entry (faults entry.uuid) state).1 := by
  unfold SyncQueue.moveToState
  split_ifs with hdeleted hbehind
  · exact recedes_delete faults entry.uuid true _
  · exact recedes_delete faults entry.uuid true _
  · rcases htarget with rfl | rfl
    · unfold SyncQueue.saveAs
      dsimp only
      split_ifs
      · exact ⟨fun _ hpair => hpair, fun uuid hsuperseded =>
          superseded_saveAs_new hstate hsuperseded⟩
      · exact ⟨fun _ hpair => hpair, fun uuid hsuperseded =>
          superseded_saveAs_new hstate hsuperseded⟩
    · exact absurd rfl hdeleted

def Quiet (faults : υ → EntryFaults) (moved : υ → Prop) (rows : SyncQueue υ κ τ) : Prop :=
  ∀ uuid, moved uuid → Superseded rows.queue (faults uuid) uuid → Silent rows.callbacks uuid

omit [DecidableEq υ] in
theorem Quiet.recede {faults : υ → EntryFaults} {moved : υ → Prop} {rows' : SyncQueue υ κ τ}
    (h : Quiet faults moved rows) (hrecedes : Recedes faults rows rows') :
    Quiet faults moved rows' := fun uuid hmoved hbehind pair hpair =>
  h uuid hmoved (hrecedes.superseded uuid hbehind) pair (hrecedes.waiting pair hpair)

variable {faults : υ → EntryFaults}

theorem mem_of_inflightEntry {queue : OutgoingQueue υ κ τ} {faults : EntryFaults}
    (h : queue.inflightEntry faults uuid = some entry) :
    entry ∈ queue ∧ faults.inflightQuery = false := by
  unfold inflightEntry at h
  split_ifs at h with hquery
  exact ⟨(tryFromDatabase_eq_some h).1, Bool.not_eq_true _ ▸ hquery⟩

theorem Sound.moveInflight (h : rows.Sound written)
    (hentry : rows.queue.inflightEntry (faults uuid) uuid = some entry) (hstate : state ≠ .deleted)
    (hquiet : state = .new → Superseded rows.queue (faults uuid) uuid →
      Silent rows.callbacks uuid) :
    (rows.moveToState entry (faults uuid) state).1.Sound written := by
  rcases inflightEntry_eq_some hentry with ⟨rfl, hinflight⟩
  rcases mem_of_inflightEntry hentry with ⟨hmem, hfound⟩
  apply h.moveToState hstate
  · exact h.waits entry hmem
  · intro _ hnew hquery hsome
    exact hquiet hnew ⟨hfound, hquery, ⟨entry, hmem, rfl, hinflight⟩, isSome_tryFromDatabase.1 hsome⟩

theorem modifyAllRecords_cons (recordID : CKRecordName υ) (recordIDs : List (CKRecordName υ)) :
    modifyAllRecords faults state rows (recordID :: recordIDs) =
      modifyAllRecords faults state (modifyAllRecords faults state rows [recordID]) recordIDs := rfl

theorem Sound.modifyRecord (h : rows.Sound written) {recordID : CKRecordName υ}
    (hstate : state ≠ .deleted) (hquiet : state = .new → ∀ uuid, .item uuid = recordID →
      Superseded rows.queue (faults uuid) uuid → Silent rows.callbacks uuid) :
    (modifyAllRecords faults state rows [recordID]).Sound written := by
  unfold modifyAllRecords
  rw [List.foldl_cons, List.foldl_nil]
  cases recordID with
  | currentKey keyClass => exact h
  | deviceState => exact h
  | item uuid =>
    dsimp only
    split
    · exact h
    · rename_i entry hentry
      exact h.moveInflight hentry hstate fun hnew => hquiet hnew uuid rfl

theorem recedes_modifyRecord (recordID : CKRecordName υ) :
    Recedes faults rows (modifyAllRecords faults .new rows [recordID]) := by
  unfold modifyAllRecords
  rw [List.foldl_cons, List.foldl_nil]
  cases recordID with
  | currentKey keyClass | deviceState => exact Recedes.refl faults rows
  | item uuid =>
    dsimp only
    split
    · exact Recedes.refl faults rows
    · rename_i entry hentry
      rcases inflightEntry_eq_some hentry with ⟨rfl, hinflight⟩
      exact recedes_moveToState hinflight (.inl rfl)

theorem Sound.modifyAllRecords (h : rows.Sound written) {recordIDs : List (CKRecordName υ)}
    (hstate : state = .new ∨ state = .reencrypt)
    (hquiet : state = .new → Quiet faults (fun uuid => .item uuid ∈ recordIDs) rows) :
    (modifyAllRecords faults state rows recordIDs).Sound written := by
  have hdeleted : state ≠ .deleted := by
    rcases hstate with rfl | rfl
    · decide
    · decide
  induction recordIDs generalizing rows with
  | nil => exact h
  | cons recordID recordIDs ih =>
    rw [modifyAllRecords_cons]
    apply ih
    · exact h.modifyRecord hdeleted fun hnew uuid heq =>
        hquiet hnew uuid (heq ▸ List.mem_cons_self)
    · intro hnew
      have hrest : Quiet faults (fun uuid => .item uuid ∈ recordIDs) rows :=
        fun uuid hmem => hquiet hnew uuid (List.mem_cons_of_mem _ hmem)
      rw [hnew]
      exact hrest.recede (recedes_modifyRecord recordID)

theorem Sound.modifyRecordAsError (h : rows.Sound written) (recordID : CKRecordName υ) :
    (modifyRecordAsError faults rows recordID).Sound written := by
  unfold SyncQueue.modifyRecordAsError
  split
  · exact h
  · exact h
  · split
    · exact h
    · exact h.markAsError

theorem recedes_modifyRecordAsError (recordID : CKRecordName υ) :
    Recedes faults rows (modifyRecordAsError faults rows recordID) := by
  unfold SyncQueue.modifyRecordAsError
  split
  · exact Recedes.refl faults rows
  · exact Recedes.refl faults rows
  · split
    · exact Recedes.refl faults rows
    · rename_i entry _
      exact recedes_delete faults entry.uuid false _

def PutBack (operation : CKModifyRecordsOperation υ)
    (failedRecords : List (CKRecordName υ × CKRecordError)) (uuid : υ) : Prop :=
  (.item uuid, .batchRequestFailed) ∈ failedRecords ∧ .item uuid ∈ operation.recordIDsModified

theorem Sound.resetFailedRecord (h : rows.Sound written) {failed : CKRecordName υ × CKRecordError}
    (hquiet : Quiet faults (PutBack operation [failed]) rows) :
    (resetFailedRecord faults operation rows failed).Sound written := by
  unfold SyncQueue.resetFailedRecord
  split_ifs with hmodified
  · split
    · rename_i hfailed
      apply h.modifyRecord (by decide)
      intro _ uuid heq
      apply hquiet uuid
      refine ⟨List.mem_singleton.2 (Prod.ext heq hfailed.symm), heq ▸ hmodified⟩
    · exact h.modifyRecordAsError failed.1
  · exact h

theorem recedes_resetFailedRecord (operation : CKModifyRecordsOperation υ)
    (failed : CKRecordName υ × CKRecordError) :
    Recedes faults rows (resetFailedRecord faults operation rows failed) := by
  unfold SyncQueue.resetFailedRecord
  split_ifs
  · split
    · exact recedes_modifyRecord failed.1
    · exact recedes_modifyRecordAsError failed.1
  · exact Recedes.refl faults rows

theorem Sound.modifyRecordsFailed (h : rows.Sound written)
    {failedRecords : List (CKRecordName υ × CKRecordError)}
    (hquiet : ¬(isErrorBadEtagOnKeyPointersOnly failedRecords ||
      isErrorMissingSyncKey failedRecords) = true →
        Quiet faults (PutBack operation failedRecords) rows) :
    (modifyRecordsFailed faults operation rows failedRecords).Sound written := by
  unfold SyncQueue.modifyRecordsFailed
  split_ifs with hkeys
  · exact h.modifyAllRecords (.inr rfl) fun hnew => nomatch hnew
  · specialize hquiet hkeys
    clear hkeys
    induction failedRecords generalizing rows with
    | nil => exact h
    | cons failed failedRecords ih =>
      rw [List.foldl_cons]
      apply ih
      · apply h.resetFailedRecord
        intro uuid hback
        exact hquiet uuid ⟨List.mem_singleton.1 hback.1 ▸ List.mem_cons_self, hback.2⟩
      · have hrest : Quiet faults (PutBack operation failedRecords) rows :=
          fun uuid hback => hquiet uuid ⟨List.mem_cons_of_mem _ hback.1, hback.2⟩
        exact hrest.recede (recedes_resetFailedRecord operation failed)

theorem waiting_moveToState {faults : EntryFaults} :
    ∀ pair ∈ (rows.moveToState entry faults state).1.callbacks.waiting,
      pair ∈ rows.callbacks.waiting := by
  intro pair hpair
  unfold SyncQueue.moveToState SyncQueue.saveAs at hpair
  dsimp only at hpair
  split_ifs at hpair
  · exact (PendingCalls.waiting_of_mem_call hpair).1
  · exact (PendingCalls.waiting_of_mem_call hpair).1
  · exact hpair
  · exact hpair

theorem waiting_modifyAllRecords {recordIDs : List (CKRecordName υ)} :
    ∀ pair ∈ (modifyAllRecords faults state rows recordIDs).callbacks.waiting,
      pair ∈ rows.callbacks.waiting := by
  unfold SyncQueue.modifyAllRecords
  apply List.foldlRecOn (motive := fun (rows' : SyncQueue υ κ τ) =>
    ∀ pair ∈ rows'.callbacks.waiting, pair ∈ rows.callbacks.waiting) _ _ fun _ => id
  intro rows' hrows recordID _
  cases recordID with
  | currentKey keyClass | deviceState => exact hrows
  | item uuid =>
    dsimp only
    split
    · exact hrows
    · exact fun pair hpair => hrows pair (waiting_moveToState pair hpair)

theorem waiting_modifyRecordsFailed {failedRecords : List (CKRecordName υ × CKRecordError)} :
    ∀ pair ∈ (modifyRecordsFailed faults operation rows failedRecords).callbacks.waiting,
      pair ∈ rows.callbacks.waiting := by
  unfold SyncQueue.modifyRecordsFailed
  split_ifs
  · exact waiting_modifyAllRecords
  · apply List.foldlRecOn (motive := fun (rows' : SyncQueue υ κ τ) =>
      ∀ pair ∈ rows'.callbacks.waiting, pair ∈ rows.callbacks.waiting) _ _ fun _ => id
    intro rows' hrows failed _ pair hpair
    exact hrows pair ((recedes_resetFailedRecord operation failed).waiting pair hpair)

theorem waiting_resetEntries {entries : OutgoingQueue υ κ τ} :
    ∀ pair ∈ (resetEntries faults rows entries).1.callbacks.waiting,
      pair ∈ rows.callbacks.waiting := by
  induction entries generalizing rows with
  | nil => exact fun _ => id
  | cons entry entries ih =>
    unfold SyncQueue.resetEntries
    dsimp only
    split_ifs
    · exact waiting_moveToState
    · exact fun pair hpair => waiting_moveToState pair (ih pair hpair)

theorem changes_moveToState {faults : EntryFaults} {state' : CKKSItemState} (hne : state' ≠ state) :
    (rows.moveToState entry faults state).1.changes uuid state' = rows.changes uuid state' := by
  unfold SyncQueue.moveToState
  split_ifs
  · rfl
  · rfl
  · unfold SyncQueue.saveAs
    dsimp only
    split_ifs
    · rfl
    · exact changes_setChange.trans (if_neg fun hkey => hne hkey.2)

theorem mem_moveToState_new {faults : EntryFaults} {row : CKKSOutgoingQueueEntry υ κ τ}
    (hrow : row ∈ (rows.moveToState entry faults .new).1.queue) (hne : row.uuid ≠ entry.uuid) :
    row ∈ rows.queue := by
  have hne' : CKKSItemState.new ≠ .deleted := by decide
  unfold SyncQueue.moveToState SyncQueue.saveAs at hrow
  dsimp only at hrow
  rw [if_neg hne'] at hrow
  split_ifs at hrow with hbehind hfailed
  · exact mem_deleteFromDatabase hrow
  · exact mem_saveAs_failed hfailed hrow
  · rw [Bool.not_eq_true] at hfailed
    rcases mem_saveAs hfailed hrow with ⟨hmem, -⟩ | rfl
    · exact hmem
    · exact absurd rfl hne

def QuietEntry (faults : υ → EntryFaults) (rows : SyncQueue υ κ τ)
    (entry : CKKSOutgoingQueueEntry υ κ τ) : Prop :=
  (faults entry.uuid).newQuery = false →
    (∃ row ∈ rows.queue, row.uuid = entry.uuid ∧ row.state = .new) →
      Silent rows.callbacks entry.uuid

theorem Sound.resetEntries (h : rows.Sound written) {entries : OutgoingQueue υ κ τ}
    (hnodup : (entries.map fun entry => entry.uuid).Nodup)
    (hentries : ∀ entry ∈ entries, entry.state = .inflight ∧ QuietEntry faults rows entry ∧
      WaitsFor rows.callbacks entry.uuid (rows.changes entry.uuid entry.state)) :
    (resetEntries faults rows entries).1.Sound written := by
  induction entries generalizing rows with
  | nil => exact h
  | cons entry entries ih =>
    rcases List.forall_mem_cons.1 hentries with ⟨⟨hinflight, hquiet, hwaits⟩, hrest⟩
    have happart : entry.uuid ∉ entries.map (fun entry => entry.uuid) ∧
        (entries.map fun entry => entry.uuid).Nodup := List.nodup_cons.1 hnodup
    have hmoved : (rows.moveToState entry (faults entry.uuid) .new).1.Sound written :=
      h.moveToState (by decide) hwaits fun _ _ hquery hsome =>
        hquiet hquery (isSome_tryFromDatabase.1 hsome)
    have hwaiting : ∀ pair ∈
        (rows.moveToState entry (faults entry.uuid) .new).1.callbacks.waiting,
        pair ∈ rows.callbacks.waiting :=
      (recedes_moveToState hinflight (.inl rfl)).waiting
    unfold SyncQueue.resetEntries
    dsimp only
    split_ifs
    · exact hmoved
    · apply ih hmoved happart.2
      intro entry' hentry'
      rcases hrest entry' hentry' with ⟨hinflight', hquiet', hwaits'⟩
      have hne : entry'.uuid ≠ entry.uuid := fun heq =>
        happart.1 (heq ▸ List.mem_map_of_mem hentry')
      refine ⟨hinflight', ?_, ?_⟩
      · rintro hquery ⟨row, hrow, huuid, hnew⟩ pair hpair
        have hbefore := mem_moveToState_new hrow (huuid ▸ hne)
        exact hquiet' hquery ⟨row, hbefore, huuid, hnew⟩ pair (hwaiting pair hpair)
      · intro pair hpair huuid
        rw [changes_moveToState (by rw [hinflight']; decide)]
        exact hwaits' pair (hwaiting pair hpair) huuid

def Written (written : List (υ × Nat)) (rows : SyncQueue υ κ τ) (uuid : υ) : Prop :=
  ∀ pair ∈ rows.callbacks.waiting, pair.1 = uuid →
    ∃ number, pair.2 ≤ number ∧ (uuid, number) ∈ written

theorem Sound.finishEntry (h : rows.Sound written) (faults : EntryFaults)
    (hwritten : Written written rows uuid) :
    (finishEntry faults uuid rows).1.Sound written ∧
      ∀ pair ∈ (finishEntry faults uuid rows).1.callbacks.waiting,
        pair ∈ rows.callbacks.waiting := by
  unfold SyncQueue.finishEntry
  split
  · exact ⟨h, fun _ hpair => hpair⟩
  · rename_i entry hentry
    rcases inflightEntry_eq_some hentry with ⟨rfl, -⟩
    have hmoved : rows.moveToState entry faults .deleted = rows.moveToDeleted entry faults :=
      if_pos rfl
    rw [hmoved]
    exact ⟨h.moveToDeleted hwritten, fun _ hpair => (PendingCalls.waiting_of_mem_call hpair).1⟩

structure Handling (written : List (υ × Nat)) (rows : SyncQueue υ κ τ)
    (completed : Completed υ κ τ) : Prop where
  sound : completed.1.Sound written
  waiting : ∀ pair ∈ completed.1.callbacks.waiting, pair ∈ rows.callbacks.waiting

theorem Handling.finish (h : Handling written rows completed) (faults : EntryFaults)
    (hwritten : Written written rows uuid) :
    (SyncQueue.finishEntry faults uuid completed.1).1.Sound written ∧
      ∀ pair ∈ (SyncQueue.finishEntry faults uuid completed.1).1.callbacks.waiting,
        pair ∈ rows.callbacks.waiting := by
  have hstill : Written written completed.1 uuid := fun pair hpair =>
    hwritten pair (h.waiting pair hpair)
  have hfinished := h.sound.finishEntry faults hstill
  exact ⟨hfinished.1, fun pair hpair => h.waiting pair (hfinished.2 pair hpair)⟩

theorem Handling.finishSave (h : Handling written rows completed) {faults : CompletionFaults υ}
    {record : CKSavedRecord υ τ}
    (hwritten : ∀ uuid ∈ savedUUIDs [record], Written written rows uuid) :
    Handling written rows (finishSave faults completed record) := by
  rcases completed with ⟨rows', mirror, viewError⟩
  cases record with
  | item uuid recordChangeTag =>
    have hfinished := h.finish (faults.entry uuid) (hwritten uuid (List.mem_singleton_self uuid))
    unfold SyncQueue.finishSave
    dsimp only
    split_ifs
    · exact ⟨hfinished.1, hfinished.2⟩
    · exact ⟨hfinished.1, hfinished.2⟩
  | currentKey keyClass | deviceState => exact ⟨h.sound, h.waiting⟩

theorem Handling.finishDelete (h : Handling written rows completed) {faults : CompletionFaults υ}
    {recordID : CKRecordName υ}
    (hwritten : ∀ uuid, .item uuid = recordID → Written written rows uuid) :
    Handling written rows (finishDelete faults completed recordID) := by
  rcases completed with ⟨rows', mirror, viewError⟩
  cases recordID with
  | item uuid =>
    have hfinished := h.finish (faults.entry uuid) (hwritten uuid rfl)
    unfold SyncQueue.finishDelete
    dsimp only
    split_ifs
    · exact ⟨hfinished.1, hfinished.2⟩
    · exact ⟨hfinished.1, hfinished.2⟩
  | currentKey keyClass | deviceState => exact ⟨h.sound, h.waiting⟩

theorem Sound.modifyRecordsSaved (h : rows.Sound written) (faults : CompletionFaults υ)
    (mirror : υ → Option (Option τ)) {savedRecords : List (CKSavedRecord υ τ)}
    {deletedRecordIDs : List (CKRecordName υ)}
    (hwritten : ∀ uuid ∈ CKModifyCompletion.writtenUUIDs (.saved savedRecords deletedRecordIDs),
      Written written rows uuid) :
    Handling written rows
      (modifyRecordsSaved faults rows mirror savedRecords deletedRecordIDs) := by
  have hstart : Handling written rows (rows, mirror, false) := ⟨h, fun _ hpair => hpair⟩
  have hsaved : Handling written rows (savedRecords.foldl (SyncQueue.finishSave faults)
      (rows, mirror, false)) := by
    apply List.foldlRecOn _ _ hstart
    intro completed hcompleted record hrecord
    apply hcompleted.finishSave
    intro uuid huuid
    apply hwritten uuid
    have hsub : savedUUIDs [record] ⊆ savedUUIDs savedRecords :=
      List.filterMap_subset _ fun _ hmem => List.mem_singleton.1 hmem ▸ hrecord
    exact List.mem_append_left _ (hsub huuid)
  unfold SyncQueue.modifyRecordsSaved
  dsimp only
  apply List.foldlRecOn _ _ hsaved
  intro completed hcompleted recordID hrecordID
  apply hcompleted.finishDelete
  rintro uuid rfl
  apply hwritten uuid
  exact List.mem_append_right _ (List.mem_filterMap.2 ⟨.item uuid, hrecordID, rfl⟩)

omit [DecidableEq υ] in
theorem Sound.rollBack (h : rows.Sound written) {after : SyncQueue υ κ τ}
    (hafter : after.Sound written)
    (hwaiting : ∀ pair ∈ after.callbacks.waiting, pair ∈ rows.callbacks.waiting) :
    (rows.rollBack after).Sound written where
  keyed := h.keyed
  waits row hrow pair hpair := h.waits row hrow pair (hwaiting pair hpair)
  truthful := hafter.truthful
end
end SyncQueue
end SecurityFramework
