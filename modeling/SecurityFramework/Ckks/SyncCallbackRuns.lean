import SecurityFramework.Ckks.SyncCallbackTruth

/-! # Runs with sync callbacks -/

namespace SecurityFramework
open OutgoingQueue

section
variable {υ κ τ : Type*} [DecidableEq υ] {queue : OutgoingQueue υ κ τ}
  {mirror : υ → Option (Option τ)} {change : LocalItemChange υ κ}
  {entry row : CKKSOutgoingQueueEntry υ κ τ}

/-- An entry is a new one of its item, and at most one row was deleted for it. -/
structure OutgoingEntry.OfChange (queue : OutgoingQueue υ κ τ) (change : LocalItemChange υ κ)
    (made : OutgoingEntry υ κ τ) : Prop where
  entry : ∀ entry ∈ made.entry, entry.uuid = change.uuid ∧ entry.state = .new
  keyed : queue.Keyed → made.queue.Keyed
  queue : ∀ row ∈ made.queue, row ∈ queue

omit [DecidableEq υ] in
theorem OutgoingEntry.OfChange.nothing {failed : Bool} :
    OutgoingEntry.OfChange queue change ⟨queue, none, failed⟩ where
  entry _ h := nomatch h
  keyed := id
  queue _ := id

omit [DecidableEq υ] in
theorem ofChange_encryptedEntry (ckme : Option (Option τ)) (action : SecCKKSAction) :
    (encryptedEntry queue ckme change action).OfChange queue change := by
  unfold encryptedEntry
  split_ifs
  · exact OutgoingEntry.OfChange.nothing
  · refine ⟨fun entry hentry => ?_, id, fun _ => id⟩
    cases hentry
    exact ⟨rfl, rfl⟩

theorem ofChange_withExisting (ckme : Option (Option τ))
    (existing : CKKSOutgoingQueueEntry υ κ τ) :
    (withExisting queue ckme change existing).OfChange queue change := by
  unfold withExisting
  split_ifs
  · exact OutgoingEntry.OfChange.nothing
  · exact ⟨fun _ h => (nomatch h), fun h => h.deleteRow existing.uuid existing.state,
      fun _ hrow => (mem_deleteRow.1 hrow).1⟩
  · exact ofChange_encryptedEntry ckme _

theorem ofChange_withItem (queue : OutgoingQueue υ κ τ) (mirror : υ → Option (Option τ))
    (change : LocalItemChange υ κ) : (withItem queue mirror change).OfChange queue change := by
  unfold withItem
  dsimp only
  split
  · exact OutgoingEntry.OfChange.nothing
  · split
    · exact ofChange_withExisting _ _
    · unfold withoutExisting
      split_ifs
      all_goals first
        | exact OutgoingEntry.OfChange.nothing
        | exact ofChange_encryptedEntry _ _

theorem mem_deleteSuperseded {fails : CKKSItemState → Bool} {rows : OutgoingQueue υ κ τ}
    (h : row ∈ deleteSuperseded fails rows queue) : row ∈ queue := by
  unfold deleteSuperseded at h
  induction rows generalizing queue with
  | nil => exact h
  | cons row' rows ih =>
    rw [List.foldl_cons] at h
    split_ifs at h
    · exact ih h
    · exact (mem_deleteRow.1 (ih h)).1

theorem Keyed.deleteSuperseded (h : queue.Keyed) (fails : CKKSItemState → Bool)
    (rows : OutgoingQueue υ κ τ) : (deleteSuperseded fails rows queue).Keyed := by
  apply List.foldlRecOn (motive := Keyed) rows _ h
  intro queue hqueue row _
  split_ifs
  · exact hqueue
  · exact hqueue.deleteRow row.uuid row.state

theorem mem_deleteSiblings {fails : CKKSItemState → Bool} {rows : OutgoingQueue υ κ τ}
    (h : row ∈ deleteSiblings fails rows queue) : row ∈ queue := by
  induction rows generalizing queue with
  | nil => exact h
  | cons row' rows ih =>
    unfold deleteSiblings at h
    split_ifs at h
    · exact h
    · exact (mem_deleteRow.1 (ih h)).1

theorem Keyed.deleteSiblings (h : queue.Keyed) (fails : CKKSItemState → Bool)
    (rows : OutgoingQueue υ κ τ) : (deleteSiblings fails rows queue).Keyed := by
  induction rows generalizing queue with
  | nil => exact h
  | cons row' rows ih =>
    unfold SecurityFramework.deleteSiblings
    split_ifs
    · exact h
    · exact ih (h.deleteRow row'.uuid row'.state)

theorem mem_changedQueue (h : row ∈ changedQueue queue mirror change) :
    row ∈ queue ∧ (∀ entry ∈ savedEntry queue mirror change,
        ¬(row.uuid = entry.uuid ∧ row.state = entry.state)) ∨
      savedEntry queue mirror change = some row := by
  unfold changedQueue at h
  cases hentry : savedEntry queue mirror change with
  | none =>
    rw [hentry] at h
    dsimp only at h
    refine .inl ⟨?_, fun _ hnone => nomatch hnone⟩
    split_ifs at h
    · exact (ofChange_withItem _ _ _).queue row h
    · exact h
  | some entry =>
    rw [hentry] at h
    dsimp only at h
    have hsaved : row ∈ (withItem queue mirror change).queue.saveToDatabaseTable entry := by
      unfold saveOutgoing at h
      dsimp only at h
      split_ifs at h
      · exact h
      · exact mem_deleteSuperseded h
    rcases mem_saveToDatabaseTable.1 hsaved with hmem | rfl
    · rcases mem_deleteRow.1 hmem with ⟨hmem, hkey⟩
      refine .inl ⟨(ofChange_withItem _ _ _).queue row hmem, fun entry' heq => ?_⟩
      cases heq
      exact hkey
    · exact .inr rfl

theorem Keyed.changedQueue (h : queue.Keyed) : (changedQueue queue mirror change).Keyed := by
  have hmade := (ofChange_withItem queue mirror change).keyed h
  unfold SecurityFramework.changedQueue
  split
  · split_ifs
    · exact hmade
    · exact h
  · unfold saveOutgoing
    dsimp only
    split_ifs
    · exact hmade.saveToDatabaseTable _
    · exact Keyed.deleteSuperseded (hmade.saveToDatabaseTable _) _ _

theorem recordChanged_queue (queue : OutgoingQueue υ κ τ) (mirror : υ → Option (Option τ))
    (change : RemoteChange υ τ) :
    (∀ row ∈ (recordChanged queue mirror change).1, row ∈ queue) ∧
      (queue.Keyed → (recordChanged queue mirror change).1.Keyed) := by
  unfold recordChanged
  dsimp only
  split_ifs
  · exact ⟨fun _ => id, id⟩
  · exact ⟨fun _ => id, id⟩
  · exact ⟨fun _ hrow => mem_deleteSiblings hrow, fun h => Keyed.deleteSiblings h _ _⟩

theorem recordDeleted_queue (queue : OutgoingQueue υ κ τ) (mirror : υ → Option (Option τ))
    (change : RemoteChange υ τ) :
    (∀ row ∈ (recordDeleted queue mirror change).1, row ∈ queue) ∧
      (queue.Keyed → (recordDeleted queue mirror change).1.Keyed) := by
  unfold recordDeleted
  dsimp only
  split_ifs
  · exact ⟨fun _ => id, id⟩
  · exact ⟨fun _ => id, id⟩
  · exact ⟨fun _ hrow => mem_deleteSiblings hrow, fun h => Keyed.deleteSiblings h _ _⟩

theorem SyncQueue.Sound.saveRow {rows : SyncQueue υ κ τ} {written : List (υ × Nat)}
    (h : rows.Sound written) (hkeyed : queue.Keyed) (hsub : ∀ row ∈ queue, row ∈ rows.queue)
    {number : Nat} (hwaits : WaitsFor rows.callbacks entry.uuid number) :
    ((rows.setQueue (queue.saveToDatabaseTable entry)).setChange entry.uuid entry.state
      number).Sound written := by
  refine ⟨hkeyed.saveToDatabaseTable entry, fun row hrow => ?_, h.truthful⟩
  rw [changes_setChange]
  split_ifs with hkey
  · rw [hkey.1]
    exact hwaits
  · rcases mem_saveToDatabaseTable.1 hrow with hmem | rfl
    · exact h.waits row (hsub row (mem_deleteRow.1 hmem).1)
    · exact absurd ⟨rfl, rfl⟩ hkey

theorem SyncQueue.callbacks_reencrypt (rows : SyncQueue υ κ τ) (mirror : υ → Option (Option τ))
    (item : Reencryption υ κ) : (rows.reencrypt mirror item).callbacks = rows.callbacks := by
  unfold SyncQueue.reencrypt
  split
  · rfl
  · dsimp only
    split_ifs
    all_goals rfl

theorem SyncQueue.Sound.reencrypt {rows : SyncQueue υ κ τ} {written : List (υ × Nat)}
    (h : rows.Sound written) (mirror : υ → Option (Option τ)) (item : Reencryption υ κ) :
    (rows.reencrypt mirror item).Sound written := by
  unfold SyncQueue.reencrypt
  split
  · exact h
  · rename_i entry hentry
    have hmem := (tryFromDatabase_eq_some hentry).1
    have hdeleted : (∀ row ∈ (if item.deleteFails then rows.queue
        else rows.queue.deleteRow entry.uuid entry.state), row ∈ rows.queue) ∧
          (if item.deleteFails then rows.queue
            else rows.queue.deleteRow entry.uuid entry.state).Keyed := by
      split_ifs
      · exact ⟨fun _ => id, h.keyed⟩
      · exact ⟨fun _ hrow => (mem_deleteRow.1 hrow).1, h.keyed.deleteRow _ _⟩
    dsimp only
    generalize (if item.deleteFails then rows.queue
      else rows.queue.deleteRow entry.uuid entry.state) = deleted at hdeleted ⊢
    split_ifs
    · exact h
    · exact h.setQueue hdeleted.2 hdeleted.1
    · exact h
    · exact h.setQueue hdeleted.2 hdeleted.1
    · exact h.saveRow hdeleted.2 hdeleted.1 (h.waits entry hmem)
end

section
variable {υ κ τ : Type*} [DecidableEq υ] [DecidableEq κ] [DecidableEq τ] {sync : SyncView υ κ τ}
  {entry : CKKSOutgoingQueueEntry υ κ τ}

omit [DecidableEq κ] [DecidableEq τ] in
theorem mem_addNewEntries {priority : List υ} {queueEntries newEntries : OutgoingQueue υ κ τ}
    (h : entry ∈ addNewEntries priority queueEntries newEntries) :
    entry ∈ queueEntries ∨ entry ∈ newEntries := by
  induction newEntries generalizing queueEntries with
  | nil => exact .inl h
  | cons entry' newEntries ih =>
    unfold addNewEntries at h
    split_ifs at h
    · exact .inl h
    · exact (ih h).imp_right (List.mem_cons_of_mem _)
    · rcases ih h with hmem | hmem
      · rcases List.mem_append.1 hmem with hmem | hmem
        · exact .inl hmem
        · exact .inr (List.mem_singleton.1 hmem ▸ List.mem_cons_self)
      · exact .inr (List.mem_cons_of_mem _ hmem)

omit [DecidableEq κ] [DecidableEq τ] in
theorem mem_ontransactionFetchEntries {queue : OutgoingQueue υ κ τ} {pass : OutgoingPass υ}
    (h : entry ∈ ontransactionFetchEntries queue pass) : entry ∈ queue ∧ entry.state = .new := by
  unfold ontransactionFetchEntries at h
  dsimp only at h
  rcases mem_addNewEntries h with hmem | hmem
  · rcases List.mem_filterMap.1 hmem with ⟨uuid, -, hsome⟩
    have hpriority := mem_priorityEntry hsome
    unfold priorityEntry at hsome
    split_ifs at hsome
    split at hsome
    · rename_i entry' hlast
      split_ifs at hsome
      cases hsome
      exact ⟨(List.mem_filter.1 (List.mem_of_getLast? hlast)).1, hpriority.2⟩
    · cases hsome
  · rcases List.mem_filter.1 (List.mem_of_mem_take hmem) with ⟨hmem, hnew⟩
    exact ⟨hmem, of_decide_eq_true hnew⟩

omit [DecidableEq κ] [DecidableEq τ] in
theorem SyncQueue.callbacks_moveToState {rows : SyncQueue υ κ τ} {faults : EntryFaults}
    {state : CKKSItemState} (hnew : entry.state = .new) (hstate : state ≠ .deleted) :
    (rows.moveToState entry faults state).1.callbacks = rows.callbacks := by
  unfold SyncQueue.moveToState
  rw [if_neg hstate, if_neg (fun hbehind => by rw [hnew] at hbehind; cases hbehind.1)]
  unfold SyncQueue.saveAs
  dsimp only
  split_ifs
  · rfl
  · rfl

structure Passing (sync : SyncView υ κ τ) (rows : SyncQueue υ κ τ) : Prop where
  sound : rows.Sound sync.written
  callbacks : rows.callbacks = sync.callbacks
  changes : ∀ uuid, rows.changes uuid .new = sync.changes uuid .new

omit [DecidableEq κ] [DecidableEq τ] in
theorem Passing.moveToState {rows : SyncQueue υ κ τ} (h : Passing sync rows)
    {faults : EntryFaults} {state : CKKSItemState} (hstate : state = .reencrypt ∨ state = .inflight)
    (hnew : entry.state = .new)
    (hwaits : WaitsFor sync.callbacks entry.uuid (sync.changes entry.uuid .new)) :
    Passing sync (rows.moveToState entry faults state).1 := by
  have hdeleted : state ≠ .deleted ∧ CKKSItemState.new ≠ state := by
    rcases hstate with rfl | rfl
    · exact ⟨by decide, by decide⟩
    · exact ⟨by decide, by decide⟩
  refine ⟨?_, ?_, fun uuid => ?_⟩
  · apply h.sound.moveToState hdeleted.1
    · rw [h.callbacks, hnew, h.changes]
      exact hwaits
    · intro hinflight
      rw [hnew] at hinflight
      cases hinflight
  · rw [SyncQueue.callbacks_moveToState hnew hdeleted.1, h.callbacks]
  · rw [SyncQueue.changes_moveToState hdeleted.2, h.changes]

theorem Passing.processEntry {batch : OutgoingBatch υ κ τ × SyncQueue υ κ τ}
    (h : Passing sync batch.2) {pass : OutgoingPass υ} (hnew : entry.state = .new)
    (hwaits : WaitsFor sync.callbacks entry.uuid (sync.changes entry.uuid .new)) :
    Passing sync (sync.processEntry pass batch entry).2 := by
  unfold SyncView.processEntry
  dsimp only
  split_ifs
  · exact h
  · split
    · exact h.moveToState (.inl rfl) hnew hwaits
    · exact h.moveToState (.inr rfl) hnew hwaits
    · exact h.moveToState (.inr rfl) hnew hwaits

theorem passing_passRows (h : sync.rows.Sound sync.written) (pass : OutgoingPass υ) :
    (sync.passRows pass).Sound sync.written ∧
      (sync.passRows pass).callbacks = sync.callbacks := by
  have hstart : Passing sync sync.rows := ⟨h, rfl, fun _ => rfl⟩
  have hloop : Passing sync ((ontransactionFetchEntries sync.view.queue pass).foldl
      (sync.processEntry pass) (OutgoingBatch.empty sync.view.queue, sync.rows)).2 := by
    refine List.foldlRecOn (motive := fun (batch : OutgoingBatch υ κ τ × SyncQueue υ κ τ) =>
      Passing sync batch.2) _ _ hstart ?_
    intro batch hbatch entry hentry
    rcases mem_ontransactionFetchEntries hentry with ⟨hmem, hnew⟩
    have hwaits := h.waits entry hmem
    rw [hnew] at hwaits
    exact hbatch.processEntry hnew hwaits
  unfold SyncView.passRows
  dsimp only
  split_ifs
  · exact ⟨h, rfl⟩
  · refine ⟨h.rollBack hloop.sound fun pair hpair => ?_, hloop.callbacks⟩
    rw [hloop.callbacks] at hpair
    exact hpair
  · exact ⟨hloop.sound, hloop.callbacks⟩

omit [DecidableEq υ] [DecidableEq τ] in
theorem OutgoingBatch.records_useCurrentKey (batch : OutgoingBatch υ κ τ)
    (view : CKKSOutgoingView υ κ τ) (entry : CKKSOutgoingQueueEntry υ κ τ) :
    (batch.useCurrentKey view entry).recordsToSave = batch.recordsToSave ∧
      (batch.useCurrentKey view entry).recordIDsToDelete = batch.recordIDsToDelete := by
  unfold OutgoingBatch.useCurrentKey
  split
  · exact ⟨rfl, rfl⟩
  · exact ⟨rfl, rfl⟩
  · exact ⟨rfl, rfl⟩

def OutgoingBatch.Writes (batch : OutgoingBatch υ κ τ) (uuid : υ) : Prop :=
  .item uuid ∈ batch.recordsToSave ∨ .item uuid ∈ batch.recordIDsToDelete

variable {batch : OutgoingBatch υ κ τ}

theorem OutgoingBatch.writes_processEntry {view : CKKSOutgoingView υ κ τ} {faults : υ → EntryFaults}
    {uuid : υ} (h : (batch.processEntry view faults entry).Writes uuid) :
    batch.Writes uuid ∨ entry.uuid = uuid := by
  have hkey := batch.records_useCurrentKey view entry
  unfold OutgoingBatch.processEntry at h
  dsimp only at h
  split_ifs at h
  · exact .inl h
  · unfold OutgoingBatch.Writes at h ⊢
    split at h
    · rw [← hkey.1, ← hkey.2]
      exact .inl h
    · rcases h with hsave | hdelete
      · rcases List.mem_insert_iff.1 hsave with heq | hmem
        · cases heq
          exact .inr rfl
        · exact .inl (.inl (hkey.1 ▸ hmem))
      · exact .inl (.inr (hkey.2 ▸ hdelete))
    · rcases h with hsave | hdelete
      · exact .inl (.inl (hkey.1 ▸ hsave))
      · rcases List.mem_append.1 hdelete with hmem | hmem
        · exact .inl (.inr (hkey.2 ▸ hmem))
        · cases List.mem_singleton.1 hmem
          exact .inr rfl

theorem OutgoingBatch.writes_foldl {view : CKKSOutgoingView υ κ τ} {faults : υ → EntryFaults}
    {entries : OutgoingQueue υ κ τ} {uuid : υ}
    (h : (entries.foldl (fun batch entry => batch.processEntry view faults entry)
      batch).Writes uuid) : batch.Writes uuid ∨ ∃ entry ∈ entries, entry.uuid = uuid := by
  induction entries generalizing batch with
  | nil => exact .inl h
  | cons entry entries ih =>
    rw [List.foldl_cons] at h
    rcases ih h with hbefore | ⟨entry', hentry', heq⟩
    · exact (OutgoingBatch.writes_processEntry hbefore).imp_right
        fun heq => ⟨entry, List.mem_cons_self, heq⟩
    · exact .inr ⟨entry', List.mem_cons_of_mem _ hentry', heq⟩

omit [DecidableEq κ] [DecidableEq τ] in
theorem OutgoingBatch.writes_operation {hasDeviceState : Bool} {uuid : υ}
    (h : (batch.operation hasDeviceState).Writes uuid) : batch.Writes uuid := by
  have hkeys (keyClasses : List CKKSKeyClass) (records : List (CKRecordName υ))
      (hmem : .item uuid ∈ keyClasses.foldl
        (fun records keyClass => records.insert (.currentKey keyClass)) records) :
      .item uuid ∈ records := by
    induction keyClasses generalizing records with
    | nil => exact hmem
    | cons keyClass keyClasses ih =>
      rcases List.mem_insert_iff.1 (ih _ hmem) with heq | hmem
      · cases heq
      · exact hmem
  rcases h with hsave | hdelete
  · unfold OutgoingBatch.operation at hsave
    dsimp only at hsave
    split_ifs at hsave
    · rcases List.mem_insert_iff.1 hsave with heq | hmem
      · cases heq
      · exact .inl (hkeys _ _ hmem)
    · exact .inl (hkeys _ _ hsave)
  · exact .inr hdelete

theorem groupStart_operations (view : CKKSOutgoingView υ κ τ) (pass : OutgoingPass υ) :
    (view.groupStart pass).operations = view.operations ∨
      ∃ operation, (view.groupStart pass).operations = view.operations ++ [operation] ∧
        ∀ uuid, operation.Writes uuid →
          ∃ entry ∈ ontransactionFetchEntries view.queue pass, entry.uuid = uuid := by
  have hbatch (uuid : υ)
      (hwrites : ((view.batch pass).operation pass.hasDeviceState).Writes uuid) :
      ∃ entry ∈ ontransactionFetchEntries view.queue pass, entry.uuid = uuid := by
    rcases OutgoingBatch.writes_foldl (OutgoingBatch.writes_operation hwrites) with hmem | hentry
    · rcases hmem with hmem | hmem
      · exact absurd hmem List.not_mem_nil
      · exact absurd hmem List.not_mem_nil
    · exact hentry
  unfold CKKSOutgoingView.groupStart
  dsimp only
  split_ifs
  · exact .inl rfl
  · exact .inl rfl
  · exact .inl rfl
  · exact .inr ⟨_, rfl, hbatch⟩
  · exact .inr ⟨_, rfl, hbatch⟩

namespace SyncView
/-- No callback waits for a later change than a row or a record on its way holds, and the
callbacks were told the truth. -/
structure Sound (sync : SyncView υ κ τ) : Prop where
  rows : sync.rows.Sound sync.written
  sent : List.Forall₂ (fun operation changes => ∀ uuid, operation.Writes uuid →
    WaitsFor sync.callbacks uuid (changes uuid)) sync.view.operations sync.sent

structure Starts (sync : SyncView υ κ τ) : Prop where
  keyed : sync.view.queue.Keyed
  waiting : sync.callbacks.waiting = []
  made : sync.callbacks.made = []
  operations : sync.view.operations = []
  sent : sync.sent = []

omit [DecidableEq υ] [DecidableEq κ] [DecidableEq τ] in
theorem Starts.sound (h : sync.Starts) : sync.Sound where
  rows := by
    refine ⟨h.keyed, fun _ _ pair hpair => ?_, fun call hcall => ?_⟩
    · have hnone : pair ∈ sync.callbacks.waiting := hpair
      rw [h.waiting] at hnone
      cases hnone
    · have hnone : call ∈ sync.callbacks.made := hcall
      rw [h.made] at hnone
      cases hnone
  sent := by
    rw [h.operations, h.sent]
    exact List.Forall₂.nil

omit [DecidableEq υ] [DecidableEq κ] [DecidableEq τ] in
theorem waitsFor_mono {calls calls' : PendingCalls υ} {uuid : υ} {number : Nat}
    (h : WaitsFor calls uuid number) (hsub : ∀ pair ∈ calls'.waiting, pair ∈ calls.waiting) :
    WaitsFor calls' uuid number :=
  fun pair hpair => h pair (hsub pair hpair)

omit [DecidableEq υ] [DecidableEq κ] [DecidableEq τ] in
theorem truthful_mono {written written' : List (υ × Nat)} {calls : PendingCalls υ}
    (h : Truthful written calls) (hsub : ∀ pair ∈ written, pair ∈ written') :
    Truthful written' calls := by
  intro call hcall hsuccess
  rcases h call hcall hsuccess with ⟨number, hle, hmem⟩
  exact ⟨number, hle, hsub _ hmem⟩

omit [DecidableEq υ] [DecidableEq κ] [DecidableEq τ] in
theorem Sound.of_rows (h : sync.Sound) {sync' : SyncView υ κ τ}
    (hrows : sync'.rows.Sound sync'.written)
    (hwaiting : ∀ pair ∈ sync'.callbacks.waiting, pair ∈ sync.callbacks.waiting)
    (hoperations : sync'.view.operations = sync.view.operations) (hsent : sync'.sent = sync.sent) :
    sync'.Sound where
  rows := hrows
  sent := by
    rw [hoperations, hsent]
    exact h.sent.imp fun _ _ hwrites uuid hwrite => waitsFor_mono (hwrites uuid hwrite) hwaiting

theorem Sound.groupStart (h : sync.Sound) (pass : OutgoingPass υ) :
    (sync.groupStart pass).Sound := by
  rcases passing_passRows h.rows pass with ⟨hrows, hcallbacks⟩
  have hrows' : (sync.groupStart pass).rows = sync.passRows pass := by
    unfold SyncView.rows SyncView.groupStart
    dsimp only
    rw [← sync.queue_passRows pass]
  refine ⟨?_, ?_⟩
  · rw [hrows']
    exact hrows
  · unfold SyncView.groupStart
    dsimp only
    rw [hcallbacks]
    rcases groupStart_operations sync.view pass with hsame | ⟨operation, hadded, hwrites⟩
    · rw [hsame, List.drop_length, List.map_nil, List.append_nil]
      exact h.sent
    · rw [hadded, List.drop_left]
      refine List.rel_append h.sent (List.Forall₂.cons ?_ List.Forall₂.nil)
      intro uuid hwrite
      rcases hwrites uuid hwrite with ⟨entry, hentry, rfl⟩
      rcases mem_ontransactionFetchEntries hentry with ⟨hmem, hnew⟩
      have hwaits := h.rows.waits entry hmem
      rw [hnew] at hwaits
      exact hwaits

def PutsBack (operation : CKModifyRecordsOperation υ) (uuid : υ) :
    CKModifyCompletion υ τ → Prop
  | .saved _ _ => False
  | .partialFailure failedRecords =>
    ¬(isErrorBadEtagOnKeyPointersOnly failedRecords || isErrorMissingSyncKey failedRecords) = true ∧
      SyncQueue.PutBack operation failedRecords uuid
  | .failure => .item uuid ∈ operation.recordIDsModified

def KeepsCallback (sync : SyncView υ κ τ) (change : LocalItemChange υ κ) : Prop :=
  change.hasCallback = true ∧ ¬(change.inserted = true ∧
    (change.route = .noView ∨ change.route = .noAccount ∨ change.route = .syncs ∧
      change.viewPaused = true ∧
        (withItem sync.view.queue sync.view.mirror change).entry.isSome = true))

def Replaces (sync : SyncView υ κ τ) (change : LocalItemChange υ κ) : Prop :=
  ∀ row ∈ if change.inserted then changedQueue sync.view.queue sync.view.mirror change
      else sync.view.queue,
    row.uuid = change.uuid → change.inserted = true ∧
      savedEntry sync.view.queue sync.view.mirror change = some row

/-- No entry in flight for which a callback waits is superseded, and a callback that waits is
registered where nothing older of its item is left or on its way. -/
def Honest (sync : SyncView υ κ τ) : SyncEvent υ κ τ → Prop
  | .completes index faults completion =>
    ∀ operation ∈ sync.view.operations[index]?, ∀ uuid, PutsBack operation uuid completion →
      Superseded sync.view.queue (faults.entry uuid) uuid → Silent sync.callbacks uuid
  | .keychainChanges change => KeepsCallback sync change →
    Replaces sync change ∧ ∀ operation ∈ sync.view.operations, ¬operation.Writes change.uuid
  | .resetsInFlight faults =>
    ∀ entry ∈ sync.view.queue, entry.state = .inflight →
      SyncQueue.QuietEntry faults sync.rows entry
  | _ => True

variable {completion : CKModifyCompletion υ τ} {operation : CKModifyRecordsOperation υ}
  {change : LocalItemChange υ κ}

omit [DecidableEq κ] [DecidableEq τ] in
theorem Sound.completeTransaction (h : sync.rows.Sound sync.written) {faults : CompletionFaults υ}
    {written : List (υ × Nat)} (hsub : ∀ pair ∈ sync.written, pair ∈ written)
    (hquiet : ∀ uuid, PutsBack operation uuid completion →
      Superseded sync.view.queue (faults.entry uuid) uuid → Silent sync.callbacks uuid)
    (hwritten : ∀ uuid ∈ completion.writtenUUIDs, SyncQueue.Written written sync.rows uuid) :
    (sync.completeTransaction operation faults completion).1.Sound written ∧
      ∀ pair ∈ (sync.completeTransaction operation faults completion).1.callbacks.waiting,
        pair ∈ sync.callbacks.waiting := by
  have hrows : sync.rows.Sound written := ⟨h.keyed, h.waits, truthful_mono h.truthful hsub⟩
  cases completion with
  | saved savedRecords deletedRecordIDs =>
    have hsaved := hrows.modifyRecordsSaved faults sync.view.mirror hwritten
    unfold SyncView.completeTransaction
    dsimp only
    split_ifs
    · exact ⟨hrows.rollBack hsaved.sound hsaved.waiting, hsaved.waiting⟩
    · exact ⟨hsaved.sound, hsaved.waiting⟩
  | partialFailure failedRecords =>
    exact ⟨hrows.modifyRecordsFailed fun hkeys uuid hback => hquiet uuid ⟨hkeys, hback⟩,
      SyncQueue.waiting_modifyRecordsFailed⟩
  | failure =>
    exact ⟨hrows.modifyAllRecords (.inl rfl) fun _ uuid hmem => hquiet uuid hmem,
      SyncQueue.waiting_modifyAllRecords⟩

theorem forall₂_eraseIdx {α β : Type*} {relation : α → β → Prop} {left : List α} {right : List β}
    (h : List.Forall₂ relation left right) (index : Nat) :
    List.Forall₂ relation (left.eraseIdx index) (right.eraseIdx index) := by
  induction h generalizing index with
  | nil => exact List.Forall₂.nil
  | cons hhead htail ih =>
    cases index with
    | zero => exact htail
    | succ index => exact List.Forall₂.cons hhead (ih index)

omit [DecidableEq υ] [DecidableEq κ] [DecidableEq τ] in
theorem Sound.written (h : sync.Sound) {index : Nat}
    (hoperation : sync.view.operations[index]? = some operation)
    (hnamed : ∀ uuid ∈ completion.writtenUUIDs,
      .item uuid ∈ operation.recordsToSave ++ operation.recordIDsToDelete) :
    ∀ uuid ∈ completion.writtenUUIDs,
      SyncQueue.Written (sync.written ++ sync.writtenBy index completion) sync.rows uuid := by
  intro uuid huuid pair hpair hkey
  rcases List.getElem?_eq_some_iff.1 hoperation with ⟨hindex, rfl⟩
  have hlength := h.sent.length_eq
  have hchanges : sync.sent[index]? = some sync.sent[index] :=
    List.getElem?_eq_getElem (hlength ▸ hindex)
  have hwrites := h.sent.get hindex (hlength ▸ hindex) uuid (List.mem_append.1 (hnamed uuid huuid))
  refine ⟨sync.sent[index] uuid, hwrites pair hpair hkey, List.mem_append_right _ ?_⟩
  unfold writtenBy
  rw [hchanges]
  exact List.mem_map_of_mem huuid

omit [DecidableEq κ] [DecidableEq τ] in
theorem Sound.modifyRecordsCompleted (h : sync.Sound) {index : Nat} {faults : CompletionFaults υ}
    (hoperation : sync.view.operations[index]? = some operation)
    (hnamed : ∀ uuid ∈ completion.writtenUUIDs,
      .item uuid ∈ operation.recordsToSave ++ operation.recordIDsToDelete)
    (hquiet : ∀ uuid, PutsBack operation uuid completion →
      Superseded sync.view.queue (faults.entry uuid) uuid → Silent sync.callbacks uuid) :
    (sync.modifyRecordsCompleted index operation faults completion).Sound := by
  rcases Sound.completeTransaction h.rows (fun _ => List.mem_append_left _) hquiet
    (h.written hoperation hnamed) with ⟨hrows, hwaiting⟩
  have hbefore : sync.rows.Sound (sync.written ++ sync.writtenBy index completion) :=
    ⟨h.rows.keyed, h.rows.waits,
      truthful_mono h.rows.truthful fun _ => List.mem_append_left _⟩
  have hsent : List.Forall₂ (fun other changes => ∀ uuid, other.Writes uuid →
      WaitsFor (sync.completeTransaction operation faults completion).1.callbacks uuid
        (changes uuid)) (sync.view.operations.eraseIdx index) (sync.sent.eraseIdx index) :=
    forall₂_eraseIdx (h.sent.imp fun _ _ hwrites uuid hwrite =>
      waitsFor_mono (hwrites uuid hwrite) hwaiting) index
  have hrolled : (sync.rows.rollBack
      (sync.completeTransaction operation faults completion).1).Sound
        (sync.written ++ sync.writtenBy index completion) := hbefore.rollBack hrows hwaiting
  unfold SyncView.modifyRecordsCompleted
  dsimp only
  split_ifs
  · exact ⟨hrolled, hsent⟩
  · exact ⟨hrows, hsent⟩

omit [DecidableEq κ] [DecidableEq τ] in
theorem waiting_registerChange {pair : υ × Nat}
    (h : pair ∈ (sync.registerChange change).callbacks.waiting) :
    pair ∈ sync.callbacks.waiting ∨
      change.hasCallback = true ∧ pair = (change.uuid, sync.callbacks.latest + 1) := by
  unfold registerChange setCallbacks at h
  dsimp only at h
  split_ifs at h with hcallback
  · rcases PendingCalls.mem_waiting_register.1 h with ⟨hmem, -⟩ | heq
    · exact .inl hmem
    · exact .inr ⟨hcallback, heq⟩
  · exact .inl h

omit [DecidableEq κ] [DecidableEq τ] in
theorem registerChange_callbacks (change : LocalItemChange υ κ) :
    (sync.registerChange change).callbacks.made = sync.callbacks.made ∧
      (sync.registerChange change).callbacks.latest = sync.callbacks.latest + 1 := by
  unfold registerChange setCallbacks
  dsimp only
  split_ifs
  · exact ⟨rfl, rfl⟩
  · exact ⟨rfl, rfl⟩

omit [DecidableEq κ] [DecidableEq τ] in
theorem refuseChange_callbacks (change : LocalItemChange υ κ) :
    (sync.refuseChange change).callbacks = sync.callbacks ∧
        ¬(change.route = .noView ∨ change.route = .noAccount ∨ change.route = .syncs ∧
          change.viewPaused = true ∧
            (withItem sync.view.queue sync.view.mirror change).entry.isSome = true) ∨
      (sync.refuseChange change).callbacks = sync.callbacks.call change.uuid false := by
  unfold refuseChange setCallbacks
  dsimp only
  cases hroute : change.route with
  | skipped =>
    refine .inl ⟨rfl, ?_⟩
    rintro (hview | haccount | ⟨hsyncs, -⟩)
    · cases hview
    · cases haccount
    · cases hsyncs
  | noView | noAccount => exact .inr rfl
  | syncs =>
    dsimp only
    split
    · rename_i entry _ hentry
      have huuid := (ofChange_withItem _ _ _).entry entry hentry
      rw [huuid.1]
      exact .inr rfl
    · rename_i hnot
      refine .inl ⟨rfl, ?_⟩
      rintro (hview | haccount | ⟨-, hpaused, hentry⟩)
      · cases hview
      · cases haccount
      · rcases Option.isSome_iff_exists.1 hentry with ⟨entry, hentry⟩
        exact hnot entry hpaused hentry

omit [DecidableEq κ] [DecidableEq τ] in
theorem waiting_refuseChange {pair : υ × Nat}
    (h : pair ∈ ((sync.registerChange change).refuseChange change).callbacks.waiting) :
    pair ∈ sync.callbacks.waiting ∨
      KeepsCallback sync change ∧ pair = (change.uuid, sync.callbacks.latest + 1) := by
  rcases (sync.registerChange change).refuseChange_callbacks change with ⟨hsame, hkept⟩ | hcalled
  · rw [hsame] at h
    refine (waiting_registerChange h).imp_right fun hnew => ?_
    exact ⟨⟨hnew.1, fun hrefused => hkept hrefused.2⟩, hnew.2⟩
  · rw [hcalled] at h
    rcases PendingCalls.waiting_of_mem_call h with ⟨hmem, hkey⟩
    rcases waiting_registerChange hmem with hold | ⟨-, heq⟩
    · exact .inl hold
    · rw [heq] at hkey
      exact absurd rfl hkey

omit [DecidableEq κ] [DecidableEq τ] in
theorem truthful_refuseChange {written : List (υ × Nat)} (h : Truthful written sync.callbacks)
    (change : LocalItemChange υ κ) :
    Truthful written ((sync.registerChange change).refuseChange change).callbacks := by
  have hregistered : Truthful written (sync.registerChange change).callbacks := by
    unfold Truthful
    rw [(sync.registerChange_callbacks change).1]
    exact h
  rcases (sync.registerChange change).refuseChange_callbacks change with ⟨hsame, -⟩ | hcalled
  · rw [hsame]
    exact hregistered
  · rw [hcalled]
    intro call hcall hsuccess
    rcases PendingCalls.mem_made_call hcall with hmem | ⟨-, hfalse, -⟩
    · exact hregistered call hmem hsuccess
    · rw [hsuccess] at hfalse
      cases hfalse

omit [DecidableEq κ] [DecidableEq τ] in
omit [DecidableEq κ] [DecidableEq τ] in
/-- The operations that are left do not write the item of a callback that is kept. -/
theorem Sound.sent_refuse (h : sync.Sound) {callbacks : PendingCalls υ}
    (hwaiting : ∀ pair ∈ callbacks.waiting, pair ∈ sync.callbacks.waiting ∨
      KeepsCallback sync change ∧ pair = (change.uuid, sync.callbacks.latest + 1))
    (hapart : KeepsCallback sync change →
      ∀ operation ∈ sync.view.operations, ¬operation.Writes change.uuid) :
    List.Forall₂ (fun operation changes => ∀ uuid, operation.Writes uuid →
      WaitsFor callbacks uuid (changes uuid)) sync.view.operations sync.sent := by
  have hmem : List.Forall₂ (fun operation changes => operation ∈ sync.view.operations ∧
      ∀ uuid, operation.Writes uuid → WaitsFor sync.callbacks uuid (changes uuid))
        sync.view.operations sync.sent :=
    (List.forall₂_and_left _ _).2 ⟨fun _ => id, h.sent⟩
  apply hmem.imp
  rintro operation changes ⟨hmem, hwrites⟩ uuid hwrite pair hpair hkey
  rcases hwaiting pair hpair with hold | ⟨hkept, rfl⟩
  · exact hwrites uuid hwrite pair hold hkey
  · have hkey' : change.uuid = uuid := hkey
    rw [← hkey'] at hwrite
    exact absurd hwrite (hapart hkept operation hmem)

omit [DecidableEq κ] [DecidableEq τ] in
theorem queue_saveChange (change : LocalItemChange υ κ) :
    (sync.saveChange change).view.queue = changedQueue sync.view.queue sync.view.mirror change ∧
      (sync.saveChange change).callbacks = sync.callbacks := by
  unfold saveChange
  dsimp only
  split
  · exact ⟨rfl, rfl⟩
  · exact ⟨rfl, rfl⟩

omit [DecidableEq κ] [DecidableEq τ] in
theorem changes_saveChange (change : LocalItemChange υ κ)
    (row : CKKSOutgoingQueueEntry υ κ τ) :
    (savedEntry sync.view.queue sync.view.mirror change = some row →
      (sync.saveChange change).changes row.uuid row.state = sync.callbacks.latest) ∧
    ((∀ entry ∈ savedEntry sync.view.queue sync.view.mirror change,
        ¬(row.uuid = entry.uuid ∧ row.state = entry.state)) →
      (sync.saveChange change).changes row.uuid row.state =
        sync.changes row.uuid row.state) := by
  unfold saveChange
  dsimp only
  cases savedEntry sync.view.queue sync.view.mirror change with
  | none => exact ⟨fun hnone => (nomatch hnone), fun _ => rfl⟩
  | some entry =>
    constructor
    · intro heq
      cases heq
      exact SyncQueue.changes_setChange.trans (if_pos ⟨rfl, rfl⟩)
    · intro hother
      exact SyncQueue.changes_setChange.trans (if_neg (hother entry rfl))

omit [DecidableEq κ] [DecidableEq τ] in
theorem Sound.saveChange_rows (h : sync.Sound) (hinserted : change.inserted = true)
    (hreplaces : KeepsCallback sync change → Replaces sync change) :
    (((sync.registerChange change).refuseChange change).saveChange change).rows.Sound
      sync.written := by
  rcases ((sync.registerChange change).refuseChange change).queue_saveChange change with
    ⟨hqueue, hcallbacks⟩
  refine ⟨?_, fun row hrow pair hpair hkey => ?_, ?_⟩
  · rw [SyncView.rows, hqueue]
    exact Keyed.changedQueue h.rows.keyed
  · rw [SyncView.rows, hqueue] at hrow
    rw [SyncView.rows, hcallbacks] at hpair
    have hchanges :=
      ((sync.registerChange change).refuseChange change).changes_saveChange change row
    rcases mem_changedQueue hrow with ⟨hmem, hother⟩ | hentry
    · refine Nat.le_trans ?_ (Nat.le_of_eq (hchanges.2 hother).symm)
      rcases waiting_refuseChange hpair with hbefore | ⟨hkept, rfl⟩
      · exact h.rows.waits row hmem pair hbefore hkey
      · have hleft : row ∈ if change.inserted then
            changedQueue sync.view.queue sync.view.mirror change else sync.view.queue := by
          rw [if_pos hinserted]
          exact hrow
        exact absurd ⟨rfl, rfl⟩ (hother row (hreplaces hkept row hleft hkey.symm).2)
    · refine Nat.le_trans ?_ (Nat.le_of_eq (hchanges.1 hentry).symm)
      exact PendingCalls.le_latest _ _ (List.mem_append_left _ (List.mem_map_of_mem hpair))
  · rw [SyncView.rows, hcallbacks]
    exact truthful_refuseChange h.rows.truthful change

omit [DecidableEq κ] [DecidableEq τ] in
theorem Sound.handleKeychainEvent (h : sync.Sound) (hhonest : KeepsCallback sync change →
      Replaces sync change ∧ ∀ operation ∈ sync.view.operations, ¬operation.Writes change.uuid) :
    (sync.handleKeychainEvent change).Sound := by
  unfold SyncView.handleKeychainEvent
  dsimp only
  split_ifs with hinserted
  · refine ⟨h.saveChange_rows hinserted fun hkept => (hhonest hkept).1, ?_⟩
    have hsent := h.sent_refuse (fun _ => waiting_refuseChange) fun hkept => (hhonest hkept).2
    rw [← (((sync.registerChange change).refuseChange change).queue_saveChange change).2] at hsent
    exact hsent
  · have hwaiting (pair : υ × Nat) (hpair : pair ∈ (sync.registerChange change).callbacks.waiting) :
        pair ∈ sync.callbacks.waiting ∨
          KeepsCallback sync change ∧ pair = (change.uuid, sync.callbacks.latest + 1) :=
      (waiting_registerChange hpair).imp_right fun hnew =>
        ⟨⟨hnew.1, fun hrefused => hinserted hrefused.1⟩, hnew.2⟩
    refine ⟨⟨h.rows.keyed, fun row hrow pair hpair hkey => ?_, ?_⟩,
      h.sent_refuse hwaiting fun hkept => (hhonest hkept).2⟩
    · rcases hwaiting pair hpair with hbefore | ⟨hkept, rfl⟩
      · exact h.rows.waits row hrow pair hbefore hkey
      · have hleft : row ∈ if change.inserted then
            changedQueue sync.view.queue sync.view.mirror change else sync.view.queue := by
          rw [if_neg hinserted]
          exact hrow
        exact absurd ((hhonest hkept).1 row hleft hkey.symm).1 hinserted
    · change Truthful sync.written (sync.registerChange change).callbacks
      unfold Truthful
      rw [(sync.registerChange_callbacks change).1]
      exact h.rows.truthful

omit [DecidableEq κ] [DecidableEq τ] in
theorem Sound.resetsInFlight (h : sync.Sound) {faults : υ → EntryFaults}
    (hquiet : ∀ entry ∈ sync.view.queue, entry.state = .inflight →
      SyncQueue.QuietEntry faults sync.rows entry) :
    (SyncQueue.resetEntries faults sync.rows
      (sync.view.queue.filter fun entry => entry.state = .inflight)).1.Sound sync.written := by
  apply h.rows.resetEntries (h.rows.keyed.nodup_uuids .inflight)
  intro entry hentry
  rcases List.mem_filter.1 hentry with ⟨hmem, hstate⟩
  have hinflight := of_decide_eq_true hstate
  exact ⟨hinflight, hquiet entry hmem hinflight, h.rows.waits entry hmem⟩

theorem Sound.step (h : sync.Sound) {event : SyncEvent υ κ τ} {sync' : SyncView υ κ τ}
    (hhonest : sync.Honest event) (hstep : sync.step event = some sync') : sync'.Sound := by
  cases event with
  | pass pass =>
    cases hstep
    exact h.groupStart pass
  | completes index faults completion =>
    unfold SyncView.step at hstep
    dsimp only at hstep
    split at hstep
    · cases hstep
    · rename_i operation hoperation
      split_ifs at hstep with hnamed
      cases hstep
      exact h.modifyRecordsCompleted hoperation hnamed (hhonest operation hoperation)
  | keychainChanges change =>
    cases hstep
    exact h.handleKeychainEvent hhonest
  | recordChanged change =>
    cases hstep
    have hqueue := recordChanged_queue sync.view.queue sync.view.mirror change
    have hrows : (sync.rows.setQueue (recordChanged sync.view.queue sync.view.mirror
        change).1).Sound sync.written := h.rows.setQueue (hqueue.2 h.rows.keyed) hqueue.1
    exact h.of_rows hrows (fun _ => id) rfl rfl
  | recordDeleted change =>
    cases hstep
    have hqueue := recordDeleted_queue sync.view.queue sync.view.mirror change
    have hrows : (sync.rows.setQueue (recordDeleted sync.view.queue sync.view.mirror
        change).1).Sound sync.written := h.rows.setQueue (hqueue.2 h.rows.keyed) hqueue.1
    exact h.of_rows hrows (fun _ => id) rfl rfl
  | reencrypts item =>
    cases hstep
    have hcallbacks := sync.rows.callbacks_reencrypt sync.view.mirror item
    have hrows := h.rows.reencrypt sync.view.mirror item
    refine h.of_rows hrows (fun pair hpair => ?_) rfl rfl
    have hpair' : pair ∈ (sync.rows.reencrypt sync.view.mirror item).callbacks.waiting := hpair
    rw [hcallbacks] at hpair'
    exact hpair'
  | currentKeysChange currentKeys =>
    cases hstep
    exact h.of_rows h.rows (fun _ => id) rfl rfl
  | accountLost =>
    cases hstep
    have hrows : (sync.setCallbacks (sync.callbacks.callAll false)).rows.Sound sync.written := by
      refine ⟨h.rows.keyed, fun _ _ pair hpair => absurd hpair List.not_mem_nil, ?_⟩
      intro call hcall hsuccess
      rcases PendingCalls.mem_made_callAll hcall with hmem | hfalse
      · exact h.rows.truthful call hmem hsuccess
      · rw [hsuccess] at hfalse
        cases hfalse
    exact h.of_rows hrows (fun pair hpair => absurd hpair List.not_mem_nil) rfl rfl
  | dies =>
    cases hstep
    exact ⟨⟨h.rows.keyed, fun _ _ pair hpair => absurd hpair List.not_mem_nil,
      h.rows.truthful⟩, List.Forall₂.nil⟩
  | resetsInFlight faults =>
    cases hstep
    have hrows := h.resetsInFlight hhonest
    have hreset : (sync.setRows (SyncQueue.resetEntries faults sync.rows
        (sync.view.queue.filter fun entry => entry.state = .inflight)).1).Sound :=
      h.of_rows hrows SyncQueue.waiting_resetEntries rfl rfl
    split_ifs
    · exact ⟨hreset.rows, hreset.sent⟩
    · exact hreset
  | resetsLocally =>
    cases hstep
    have hrows : (⟨[], sync.changes, sync.callbacks⟩ : SyncQueue υ κ τ).Sound sync.written :=
      ⟨List.nodup_nil, fun _ hrow => absurd hrow List.not_mem_nil, h.rows.truthful⟩
    exact h.of_rows hrows (fun _ => id) rfl rfl

/-- No callback was called twice, and each that was told of a success waited for a change that a
completed operation has written, or for an older one. -/
def ToldTruth (sync : SyncView υ κ τ) : Prop :=
  (sync.callbacks.made.map MadeCall.number).Nodup ∧ Truthful sync.written sync.callbacks

/-- In a run of honest events the callbacks are told the truth. -/
theorem toldTruth_of_run {sync sync' : SyncView υ κ τ} {events : List (SyncEvent υ κ τ)}
    (hstarts : sync.Starts) (hrun : Run step Honest sync events sync') : sync'.ToldTruth := by
  have h : sync'.Sound := by
    refine Run.invariant Sound ?_ hrun hstarts.sound
    exact fun _ _ _ hsound hhonest hstep => hsound.step hhonest hstep
  exact ⟨(List.nodup_append.1 sync'.callbacks.once).2.1, h.rows.truthful⟩
end SyncView
end

namespace SyncView
def emptySync : SyncView Nat Nat Nat where
  view :=
    { queue := []
      mirror := fun _ => none
      currentKeys := fun
        | .classA => some 7
        | .classC => some 8
      operations := []
      died := [] }
  changes _ _ := 0
  callbacks := PendingCalls.start 0
  sent := []
  written := []

def plainChange (action : SecCKKSAction) (hasCallback : Bool) : LocalItemChange Nat Nat where
  uuid := 0
  action := action
  parentKeyUUID := 7
  hasCallback := hasCallback
  inserted := true
  route := .syncs
  viewPaused := false
  unencodable := false
  onlyModificationDate := false
  encryptionFails := false
  mirrorQueryFails := false
  newQueryFails := false
  anyQueryFails := false
  existingDeleteFails := false
  saveFails := false
  siblingQueryFails := false
  siblingDeleteFails _ := false

theorem emptySync_starts : emptySync.Starts where
  keyed := List.nodup_nil
  waiting := rfl
  made := rfl
  operations := rfl
  sent := rfl

theorem toldTruth_of_run_saved :
    ∃ sync, Run step Honest emptySync
      [.keychainChanges (plainChange .add true),
        .pass (CKKSOutgoingView.plainPass EntryFaults.none),
        .completes 0 CKKSOutgoingView.noFaults (.saved [.item 0 (some 1)] [])] sync ∧
      sync.callbacks.made = [⟨0, 1, true⟩] ∧ sync.ToldTruth := by
  have hrun : ∃ sync, Run step Honest emptySync
      [.keychainChanges (plainChange .add true),
        .pass (CKKSOutgoingView.plainPass EntryFaults.none),
        .completes 0 CKKSOutgoingView.noFaults (.saved [.item 0 (some 1)] [])] sync ∧
      sync.callbacks.made = [⟨0, 1, true⟩] := by
    refine ⟨_, Run.cons_get ?_ rfl <| Run.cons_get trivial rfl <|
      Run.cons_get ?_ (by decide +kernel) <| Run.nil _, by decide +kernel⟩
    · intro _
      refine ⟨?_, fun operation hmem => absurd hmem List.not_mem_nil⟩
      unfold Replaces
      decide +kernel
    · exact fun _ _ _ hback => hback.elim
  rcases hrun with ⟨sync, hrun, hmade⟩
  exact ⟨sync, hrun, hmade, toldTruth_of_run emptySync_starts hrun⟩

/-- The record of an item is sent, another change comes behind it, and the operation fails: the
callback is told of a success, and nothing was written. -/
theorem superseded_told_success :
    ¬∀ (events : List (SyncEvent Nat Nat Nat)) (sync : SyncView Nat Nat Nat),
      Run step (fun _ _ => True) emptySync events sync → sync.ToldTruth := by
  intro hclaim
  have hrun : ∃ sync, Run step (fun _ _ => True) emptySync
      [.keychainChanges (plainChange .add true),
        .pass (CKKSOutgoingView.plainPass EntryFaults.none),
        .keychainChanges (plainChange .modify false),
        .completes 0 CKKSOutgoingView.noFaults .failure] sync ∧
      sync.callbacks.made = [⟨0, 1, true⟩] ∧ sync.written = [] := by
    refine ⟨_, Run.cons_get trivial rfl <| Run.cons_get trivial rfl <| Run.cons_get trivial rfl <|
      Run.cons_get trivial (by decide +kernel) <| Run.nil _, by decide +kernel, by decide +kernel⟩
  rcases hrun with ⟨sync, hrun, hmade, hwritten⟩
  have htruth := (hclaim _ sync hrun).2 ⟨0, 1, true⟩ (by rw [hmade]; exact List.mem_cons_self) rfl
  rcases htruth with ⟨number, -, hmem⟩
  rw [hwritten] at hmem
  cases hmem
end SyncView

section
variable {υ κ τ : Type*} [DecidableEq υ] {queue rows : OutgoingQueue υ κ τ}
  {entry : CKKSOutgoingQueueEntry υ κ τ}

open CKKSOutgoingView

theorem inflightRows_deleteRow {uuid : υ} {state : CKKSItemState} (hstate : state ≠ .inflight) :
    inflightRows (queue.deleteRow uuid state) = inflightRows queue := by
  unfold inflightRows deleteRow
  rw [List.filter_filter]
  apply List.filter_congr
  intro row _
  by_cases hrow : row.state = .inflight
  · simp [hrow, hstate.symm]
  · simp [hrow]

theorem inflightRows_saveToDatabaseTable (hstate : entry.state ≠ .inflight) :
    inflightRows (queue.saveToDatabaseTable entry) = inflightRows queue := by
  have happend : inflightRows (queue.saveToDatabaseTable entry) =
      inflightRows (queue.deleteRow entry.uuid entry.state) ++ inflightRows [entry] :=
    List.filter_append _ _
  rw [happend, inflightRows_deleteRow hstate]
  simp [inflightRows, hstate]

theorem inflightRows_deleteSuperseded {fails : CKKSItemState → Bool}
    (hrows : ∀ row ∈ rows, row.state ≠ .inflight) :
    inflightRows (deleteSuperseded fails rows queue) = inflightRows queue := by
  apply List.foldlRecOn (motive := fun left => inflightRows left = inflightRows queue) rows _ rfl
  intro left hleft row hrow
  split_ifs
  · exact hleft
  · exact (inflightRows_deleteRow (hrows row hrow)).trans hleft

theorem inflightRows_deleteSiblings {fails : CKKSItemState → Bool}
    (hrows : ∀ row ∈ rows, row.state ≠ .inflight) :
    inflightRows (deleteSiblings fails rows queue) = inflightRows queue := by
  induction rows generalizing queue with
  | nil => rfl
  | cons row rows ih =>
    rcases List.forall_mem_cons.1 hrows with ⟨hrow, hrows⟩
    unfold deleteSiblings
    split_ifs
    · rfl
    · exact (ih hrows).trans (inflightRows_deleteRow hrow)

theorem state_of_mem_siblings {uuid : υ} {states : List CKKSItemState}
    (hstates : CKKSItemState.inflight ∉ states) (row : CKKSOutgoingQueueEntry υ κ τ)
    (hrow : row ∈ siblings queue uuid states) : row.state ≠ .inflight := by
  intro hinflight
  have hkey := of_decide_eq_true (List.mem_filter.1 hrow).2
  exact hstates (hinflight ▸ hkey.2)

theorem inflightRows_withItem (queue : OutgoingQueue υ κ τ) (mirror : υ → Option (Option τ))
    (change : LocalItemChange υ κ) :
    inflightRows (withItem queue mirror change).queue = inflightRows queue := by
  have hencrypted (ckme : Option (Option τ)) (action : SecCKKSAction) :
      (encryptedEntry queue ckme change action).queue = queue := by
    unfold encryptedEntry
    split_ifs
    · rfl
    · rfl
  unfold withItem
  dsimp only
  generalize (if change.mirrorQueryFails then none else mirror change.uuid) = ckme
  split
  · rfl
  · split
    · rename_i existing hexisting
      have hnew : existing.state = .new := by
        split_ifs at hexisting
        exact (tryFromDatabase_eq_some hexisting).2.2
      unfold withExisting
      split_ifs
      · rfl
      · exact inflightRows_deleteRow (by rw [hnew]; decide)
      · rw [hencrypted]
    · unfold withoutExisting
      split_ifs
      all_goals first
        | rfl
        | rw [hencrypted]

theorem inflightRows_changedQueue (queue : OutgoingQueue υ κ τ) (mirror : υ → Option (Option τ))
    (change : LocalItemChange υ κ) :
    inflightRows (changedQueue queue mirror change) = inflightRows queue := by
  have hmade := inflightRows_withItem queue mirror change
  unfold changedQueue
  split
  · split_ifs
    · exact hmade
    · rfl
  · rename_i entry hentry
    have hnew : entry.state = .new := by
      unfold savedEntry at hentry
      dsimp only at hentry
      split_ifs at hentry
      exact ((ofChange_withItem queue mirror change).entry entry hentry).2
    have hsaved := (inflightRows_saveToDatabaseTable (by rw [hnew]; decide)).trans hmade
    unfold saveOutgoing
    dsimp only
    split_ifs
    · exact hsaved
    · exact (inflightRows_deleteSuperseded (state_of_mem_siblings (by decide))).trans hsaved

theorem inflightRows_recordChanged (queue : OutgoingQueue υ κ τ)
    (mirror : υ → Option (Option τ)) (change : RemoteChange υ τ) :
    inflightRows (recordChanged queue mirror change).1 = inflightRows queue := by
  unfold recordChanged
  dsimp only
  split_ifs
  · rfl
  · rfl
  · exact inflightRows_deleteSiblings (state_of_mem_siblings (by decide))

theorem inflightRows_recordDeleted (queue : OutgoingQueue υ κ τ)
    (mirror : υ → Option (Option τ)) (change : RemoteChange υ τ) :
    inflightRows (recordDeleted queue mirror change).1 = inflightRows queue := by
  unfold recordDeleted
  dsimp only
  split_ifs
  · rfl
  · rfl
  · exact inflightRows_deleteSiblings (state_of_mem_siblings (by decide))

theorem reencrypt_queue (rows : SyncQueue υ κ τ) (hkeyed : rows.queue.Keyed)
    (mirror : υ → Option (Option τ)) (item : Reencryption υ κ) :
    inflightRows (rows.reencrypt mirror item).queue = inflightRows rows.queue ∧
      (rows.reencrypt mirror item).queue.Keyed := by
  unfold SyncQueue.reencrypt
  split
  · exact ⟨rfl, hkeyed⟩
  · rename_i entry hentry
    have hstate := (tryFromDatabase_eq_some hentry).2.2
    have hdeleted : inflightRows (if item.deleteFails then rows.queue
        else rows.queue.deleteRow entry.uuid entry.state) = inflightRows rows.queue ∧
          (if item.deleteFails then rows.queue
            else rows.queue.deleteRow entry.uuid entry.state).Keyed := by
      split_ifs
      · exact ⟨rfl, hkeyed⟩
      · exact ⟨inflightRows_deleteRow (by rw [hstate]; decide), hkeyed.deleteRow _ _⟩
    dsimp only
    generalize (if item.deleteFails then rows.queue
      else rows.queue.deleteRow entry.uuid entry.state) = deleted at hdeleted ⊢
    split_ifs
    · exact ⟨rfl, hkeyed⟩
    · exact hdeleted
    · exact ⟨rfl, hkeyed⟩
    · exact hdeleted
    · exact ⟨(inflightRows_saveToDatabaseTable CKKSItemState.noConfusion).trans hdeleted.1,
        hdeleted.2.saveToDatabaseTable _⟩
end

namespace SyncView
section
variable {υ κ τ : Type*} [DecidableEq υ] [DecidableEq κ] [DecidableEq τ]
  {sync sync' : SyncView υ κ τ}

/-- What an event is to the outgoing queue alone. -/
def outgoingEvent (sync : SyncView υ κ τ) : SyncEvent υ κ τ → OutgoingEvent υ κ τ
  | .pass pass => .pass pass
  | .completes index faults completion => .completes index faults completion
  | .dies => .dies
  | .resetsInFlight faults => .resetsInFlight faults
  | .resetsLocally => .resetsLocally
  | event =>
    let after := ((sync.step event).getD sync).view
    .changes after.queue after.mirror after.currentKeys

theorem step_changes {view v : CKKSOutgoingView υ κ τ}
    (hrows : CKKSOutgoingView.inflightRows v.queue = CKKSOutgoingView.inflightRows view.queue)
    (hkeyed : v.queue.Keyed) (hoperations : v.operations = view.operations)
    (hdied : v.died = view.died) :
    view.step (.changes v.queue v.mirror v.currentKeys) = some v := by
  refine (if_pos ⟨hrows, hkeyed⟩).trans ?_
  rcases v with ⟨queue, mirror, currentKeys, operations, died⟩
  cases hoperations
  cases hdied
  rfl

omit [DecidableEq κ] [DecidableEq τ] in
theorem view_handleKeychainEvent (sync : SyncView υ κ τ) (change : LocalItemChange υ κ) :
    (sync.handleKeychainEvent change).view = sync.view ∨
      (sync.handleKeychainEvent change).view =
        sync.view.setQueue (changedQueue sync.view.queue sync.view.mirror change) := by
  unfold handleKeychainEvent
  dsimp only
  split_ifs
  · refine .inr ?_
    unfold saveChange
    dsimp only
    split
    · rfl
    · rfl
  · exact .inl rfl

/-- Only passes, completions and resets touch the entries that are in flight. -/
theorem view_step (hkeyed : sync.view.queue.Keyed) {event : SyncEvent υ κ τ}
    (hstep : sync.step event = some sync') :
    sync.view.step (sync.outgoingEvent event) = some sync'.view := by
  cases event with
  | pass pass =>
    cases hstep
    rfl
  | completes index faults completion =>
    unfold SyncView.step at hstep
    unfold outgoingEvent CKKSOutgoingView.step
    dsimp only at hstep ⊢
    cases hoperation : sync.view.operations[index]? with
    | none =>
      rw [hoperation] at hstep
      cases hstep
    | some operation =>
      rw [hoperation] at hstep
      dsimp only at hstep
      split_ifs at hstep
      cases hstep
      exact congrArg some
        (sync.view_modifyRecordsCompleted index operation faults completion).symm
  | keychainChanges change =>
    cases hstep
    rcases sync.view_handleKeychainEvent change with hview | hview
    · apply step_changes (v := (sync.handleKeychainEvent change).view)
      all_goals rw [hview]
      exact hkeyed
    · apply step_changes (v := (sync.handleKeychainEvent change).view)
      all_goals rw [hview]
      · exact inflightRows_changedQueue _ _ _
      · exact Keyed.changedQueue hkeyed
      · rfl
      · rfl
  | recordChanged change =>
    cases hstep
    exact step_changes (inflightRows_recordChanged _ _ change)
      ((recordChanged_queue _ _ change).2 hkeyed) rfl rfl
  | recordDeleted change =>
    cases hstep
    exact step_changes (inflightRows_recordDeleted _ _ change)
      ((recordDeleted_queue _ _ change).2 hkeyed) rfl rfl
  | reencrypts item =>
    cases hstep
    obtain ⟨hrows, hkeyed'⟩ := reencrypt_queue sync.rows hkeyed sync.view.mirror item
    exact step_changes hrows hkeyed' rfl rfl
  | currentKeysChange currentKeys =>
    cases hstep
    exact step_changes rfl hkeyed rfl rfl
  | accountLost =>
    cases hstep
    exact step_changes rfl hkeyed rfl rfl
  | dies =>
    cases hstep
    rfl
  | resetsInFlight faults =>
    cases hstep
    have hreset : _ = CKKSOutgoingView.resetEntries faults sync.view.queue
        (sync.view.queue.filter fun entry => entry.state = .inflight) :=
      sync.rows.queue_resetEntries _
    refine congrArg some ?_
    unfold CKKSOutgoingView.resetAllInflightOQE
    dsimp only
    rw [← hreset]
    split_ifs
    · rfl
    · rfl
  | resetsLocally =>
    cases hstep
    rfl

end
end SyncView
end SecurityFramework
