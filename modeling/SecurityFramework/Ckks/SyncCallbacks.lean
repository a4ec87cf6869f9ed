import SecurityFramework.Library.PendingCalls
import SecurityFramework.Ckks.InFlightDiscipline

/-!
# Sync callbacks

A client that adds an item can ask to be told when it is synced.
-/

namespace SecurityFramework
open OutgoingQueue

/-- The rows of a view, the changes they hold, and the callbacks that wait. -/
structure SyncQueue (υ κ τ : Type*) where
  queue : OutgoingQueue υ κ τ
  changes : υ → CKKSItemState → Nat
  callbacks : PendingCalls υ

namespace SyncQueue
section
variable {υ κ τ : Type*} [DecidableEq υ] (rows : SyncQueue υ κ τ)
  (entry : CKKSOutgoingQueueEntry υ κ τ) (faults : EntryFaults)

def setQueue (queue : OutgoingQueue υ κ τ) : SyncQueue υ κ τ := { rows with queue := queue }

def setChange (uuid : υ) (state : CKKSItemState) (change : Nat) : SyncQueue υ κ τ :=
  { rows with
    changes := Function.update rows.changes uuid
      (Function.update (rows.changes uuid) state change) }

/-- `claimCallbackForUUID`, and the call of what was claimed. -/
def call (uuid : υ) (success : Bool) : SyncQueue υ κ τ :=
  { rows with callbacks := rows.callbacks.call uuid success }

/-- `saveToDatabase` under another state. The new row holds the change of the old one. -/
def saveAs (state : CKKSItemState) : SyncQueue υ κ τ × Bool :=
  let saved := rows.queue.saveAs entry faults state
  if saved.2 then (rows.setQueue saved.1, true)
  else ((rows.setQueue saved.1).setChange entry.uuid state (rows.changes entry.uuid entry.state),
    false)

def deleteFromDatabase : SyncQueue υ κ τ × Bool :=
  let deleted := rows.queue.deleteFromDatabase entry faults
  (rows.setQueue deleted.1, deleted.2)

/-- The move to deleted: "this must be a success". -/
def moveToDeleted : SyncQueue υ κ τ × Bool :=
  (rows.call entry.uuid true).deleteFromDatabase entry faults

/-- `intransactionMoveToState`. An entry in flight that a new one has come behind is moved to
deleted. -/
def moveToState (state : CKKSItemState) : SyncQueue υ κ τ × Bool :=
  if state = .deleted then rows.moveToDeleted entry faults
  else if entry.state = .inflight ∧ state = .new ∧ ¬faults.newQuery ∧
      (rows.queue.tryFromDatabase entry.uuid .new).isSome then
    rows.moveToDeleted entry faults
  else rows.saveAs entry faults state

def markAsError : SyncQueue υ κ τ × Bool :=
  (rows.call entry.uuid false).deleteFromDatabase entry faults
end

section
variable {υ κ τ : Type*} [DecidableEq υ] (faults : υ → EntryFaults)

def modifyAllRecords (state : CKKSItemState) (rows : SyncQueue υ κ τ)
    (recordIDs : List (CKRecordName υ)) : SyncQueue υ κ τ :=
  recordIDs.foldl (fun rows recordID =>
    match recordID with
    | .currentKey _ | .deviceState => rows
    | .item uuid =>
      match rows.queue.inflightEntry (faults uuid) uuid with
      | none => rows
      | some entry => (rows.moveToState entry (faults uuid) state).1) rows

def modifyRecordAsError (rows : SyncQueue υ κ τ) : CKRecordName υ → SyncQueue υ κ τ
  | .currentKey _ | .deviceState => rows
  | .item uuid =>
    match rows.queue.inflightEntry (faults uuid) uuid with
    | none => rows
    | some entry => (rows.markAsError entry (faults uuid)).1

def resetFailedRecord (operation : CKModifyRecordsOperation υ) (rows : SyncQueue υ κ τ)
    (failed : CKRecordName υ × CKRecordError) : SyncQueue υ κ τ :=
  if failed.1 ∉ operation.recordIDsModified then rows
  else
    match failed.2 with
    | .batchRequestFailed => modifyAllRecords faults .new rows [failed.1]
    | _ => modifyRecordAsError faults rows failed.1

def modifyRecordsFailed (operation : CKModifyRecordsOperation υ) (rows : SyncQueue υ κ τ)
    (failedRecords : List (CKRecordName υ × CKRecordError)) : SyncQueue υ κ τ :=
  if isErrorBadEtagOnKeyPointersOnly failedRecords || isErrorMissingSyncKey failedRecords then
    modifyAllRecords faults .reencrypt rows (failedRecords.map Prod.fst)
  else failedRecords.foldl (resetFailedRecord faults operation) rows

def finishEntry (faults : EntryFaults) (uuid : υ) (rows : SyncQueue υ κ τ) :
    SyncQueue υ κ τ × Bool :=
  match rows.queue.inflightEntry faults uuid with
  | none => (rows, true)
  | some entry => rows.moveToState entry faults .deleted

def resetEntries : SyncQueue υ κ τ → OutgoingQueue υ κ τ → SyncQueue υ κ τ × Bool
  | rows, [] => (rows, true)
  | rows, entry :: entries =>
    let moved := rows.moveToState entry (faults entry.uuid) .new
    if moved.2 then (moved.1, false) else resetEntries moved.1 entries
end

section
variable {υ κ τ : Type*} [DecidableEq υ]

abbrev Completed (υ κ τ : Type*) :=
  SyncQueue υ κ τ × (υ → Option (Option τ)) × Bool

def finishSave (faults : CompletionFaults υ) :
    Completed υ κ τ → CKSavedRecord υ τ → Completed υ κ τ
  | (rows, mirror, viewError), .item uuid recordChangeTag =>
    let finished := finishEntry (faults.entry uuid) uuid rows
    if faults.mirrorSave uuid then (finished.1, mirror, true)
    else (finished.1, Function.update mirror uuid (some recordChangeTag), viewError || finished.2)
  | (rows, mirror, viewError), _ => (rows, mirror, viewError || faults.recordSave)

def finishDelete (faults : CompletionFaults υ) :
    Completed υ κ τ → CKRecordName υ → Completed υ κ τ
  | (rows, mirror, viewError), .item uuid =>
    let finished := finishEntry (faults.entry uuid) uuid rows
    if (faults.entry uuid).mirrorQuery || (mirror uuid).isSome && faults.mirrorSave uuid then
      (finished.1, mirror, true)
    else (finished.1, Function.update mirror uuid none, viewError || finished.2)
  | (rows, mirror, _), _ => (rows, mirror, true)

def modifyRecordsSaved (faults : CompletionFaults υ) (rows : SyncQueue υ κ τ)
    (mirror : υ → Option (Option τ)) (savedRecords : List (CKSavedRecord υ τ))
    (deletedRecordIDs : List (CKRecordName υ)) : Completed υ κ τ :=
  let saved := savedRecords.foldl (finishSave faults) (rows, mirror, false)
  deletedRecordIDs.foldl (finishDelete faults) saved

/-- A transaction that is rolled back leaves the rows as they were. A callback that was called
stays called. -/
def rollBack (rows : SyncQueue υ κ τ) (after : SyncQueue υ κ τ) : SyncQueue υ κ τ :=
  { rows with callbacks := after.callbacks }
end
end SyncQueue

/-- Where `handleKeychainEventDbConnection` sends a change of the keychain: nowhere, to no view, to a
view without an account, or to the queue of its view. -/
inductive KeychainRoute where
  | skipped
  | noView
  | noAccount
  | syncs
  deriving DecidableEq

/-- A change of the keychain, with what is decided about it and what fails on its way. An item that
is added can bring a callback, which is registered before the item is inserted. -/
structure LocalItemChange (υ κ : Type*) where
  uuid : υ
  action : SecCKKSAction
  parentKeyUUID : κ
  hasCallback : Bool
  inserted : Bool
  route : KeychainRoute
  viewPaused : Bool
  unencodable : Bool
  onlyModificationDate : Bool
  encryptionFails : Bool
  mirrorQueryFails : Bool
  newQueryFails : Bool
  anyQueryFails : Bool
  existingDeleteFails : Bool
  saveFails : Bool
  siblingQueryFails : Bool
  siblingDeleteFails : CKKSItemState → Bool

/-- A record that was changed or deleted by another device, and what fails when it is taken over. -/
structure RemoteChange (υ τ : Type*) where
  uuid : υ
  recordChangeTag : Option τ
  refused : Bool
  mirrorFails : Bool
  incomingFails : Bool
  siblingQueryFails : Bool
  siblingDeleteFails : CKKSItemState → Bool

structure Reencryption (υ κ : Type*) where
  uuid : υ
  parentKeyUUID : κ
  newQueryFails : Bool
  encryptionFails : Bool
  deleteFails : Bool
  saveFails : Bool

section
variable {υ κ τ : Type*} [DecidableEq υ]

structure OutgoingEntry (υ κ τ : Type*) where
  queue : OutgoingQueue υ κ τ
  entry : Option (CKKSOutgoingQueueEntry υ κ τ)
  failed : Bool

def coalescedAction (existing action : SecCKKSAction) : SecCKKSAction :=
  match existing, action with
  | .add, .modify => .add
  | .delete, .add => .modify
  | _, action => action

def encryptedEntry (queue : OutgoingQueue υ κ τ) (ckme : Option (Option τ))
    (change : LocalItemChange υ κ) (action : SecCKKSAction) : OutgoingEntry υ κ τ :=
  if change.encryptionFails then ⟨queue, none, true⟩
  else ⟨queue, some ⟨change.uuid, action, .new, change.parentKeyUUID, ckme.join⟩,
    change.mirrorQueryFails⟩

/-- A change behind a new entry. One that deletes what was never sent deletes the entry. -/
def withExisting (queue : OutgoingQueue υ κ τ) (ckme : Option (Option τ))
    (change : LocalItemChange υ κ) (existing : CKKSOutgoingQueueEntry υ κ τ) :
    OutgoingEntry υ κ τ :=
  if existing.action = .add ∧ change.action = .delete ∧ ckme.isNone then
    if change.existingDeleteFails then ⟨queue, none, true⟩
    else ⟨queue.deleteRow existing.uuid existing.state, none, change.mirrorQueryFails⟩
  else encryptedEntry queue ckme change (coalescedAction existing.action change.action)

/-- A change with no new entry before it. One that deletes what is not known, or only changes the
modification date, makes no entry. -/
def withoutExisting (queue : OutgoingQueue υ κ τ) (ckme : Option (Option τ))
    (change : LocalItemChange υ κ) : OutgoingEntry υ κ τ :=
  if ¬change.newQueryFails ∧ ckme.isNone ∧ change.action = .delete ∧ ¬change.anyQueryFails ∧
      ¬queue.any (fun entry => entry.uuid = change.uuid) then
    ⟨queue, none, change.mirrorQueryFails⟩
  else if ckme.isSome ∧ change.action = .modify ∧ change.onlyModificationDate then
    ⟨queue, none, false⟩
  else encryptedEntry queue ckme change change.action

/-- `withItem`. The mirror entry is loaded into the error of the caller. -/
def withItem (queue : OutgoingQueue υ κ τ) (mirror : υ → Option (Option τ))
    (change : LocalItemChange υ κ) : OutgoingEntry υ κ τ :=
  let ckme := if change.mirrorQueryFails then none else mirror change.uuid
  if change.unencodable then ⟨queue, none, true⟩
  else
    match if change.newQueryFails then none else queue.tryFromDatabase change.uuid .new with
    | some existing => withExisting queue ckme change existing
    | none => withoutExisting queue ckme change

def deleteSuperseded (fails : CKKSItemState → Bool) (rows queue : OutgoingQueue υ κ τ) :
    OutgoingQueue υ κ τ :=
  rows.foldl (fun queue row =>
    if fails row.state then queue else queue.deleteRow row.uuid row.state) queue

def deleteSiblings (fails : CKKSItemState → Bool) :
    OutgoingQueue υ κ τ → OutgoingQueue υ κ τ → OutgoingQueue υ κ τ
  | [], queue => queue
  | row :: rows, queue =>
    if fails row.state then queue
    else deleteSiblings fails rows (queue.deleteRow row.uuid row.state)

def siblings (queue : OutgoingQueue υ κ τ) (uuid : υ) (states : List CKKSItemState) :
    OutgoingQueue υ κ τ :=
  queue.filter fun entry => entry.uuid = uuid ∧ entry.state ∈ states

/-- The entry of a change is saved, and supersedes those that wait for reencryption or failed. -/
def saveOutgoing (queue : OutgoingQueue υ κ τ) (change : LocalItemChange υ κ)
    (entry : CKKSOutgoingQueueEntry υ κ τ) : OutgoingQueue υ κ τ :=
  let saved := queue.saveToDatabaseTable entry
  if change.siblingQueryFails then saved
  else deleteSuperseded change.siblingDeleteFails (siblings saved entry.uuid [.reencrypt, .error])
    saved

def savedEntry (queue : OutgoingQueue υ κ τ) (mirror : υ → Option (Option τ))
    (change : LocalItemChange υ κ) : Option (CKKSOutgoingQueueEntry υ κ τ) :=
  let made := withItem queue mirror change
  if change.route ≠ .syncs ∨ made.failed ∨ change.saveFails then none else made.entry

def changedQueue (queue : OutgoingQueue υ κ τ) (mirror : υ → Option (Option τ))
    (change : LocalItemChange υ κ) : OutgoingQueue υ κ τ :=
  match savedEntry queue mirror change with
  | none => if change.route = .syncs then (withItem queue mirror change).queue else queue
  | some entry => saveOutgoing (withItem queue mirror change).queue change entry

def recordChanged (queue : OutgoingQueue υ κ τ) (mirror : υ → Option (Option τ))
    (change : RemoteChange υ τ) : OutgoingQueue υ κ τ × (υ → Option (Option τ)) :=
  if change.refused ∨ change.mirrorFails then (queue, mirror)
  else
    let mirror := Function.update mirror change.uuid (some change.recordChangeTag)
    if change.incomingFails ∨ change.siblingQueryFails then (queue, mirror)
    else (deleteSiblings change.siblingDeleteFails
      (siblings queue change.uuid [.new, .reencrypt, .error]) queue, mirror)

def recordDeleted (queue : OutgoingQueue υ κ τ) (mirror : υ → Option (Option τ))
    (change : RemoteChange υ τ) : OutgoingQueue υ κ τ × (υ → Option (Option τ)) :=
  if change.refused ∨ (mirror change.uuid).isNone ∨ change.mirrorFails then (queue, mirror)
  else
    let mirror := Function.update mirror change.uuid none
    if change.incomingFails ∨ change.siblingQueryFails then (queue, mirror)
    else (deleteSiblings change.siblingDeleteFails
      (siblings queue change.uuid [.new, .reencrypt, .error]) queue, mirror)

namespace SyncQueue
/-- An entry that waits for reencryption becomes new, unless a new one has superseded it. -/
def reencrypt (rows : SyncQueue υ κ τ) (mirror : υ → Option (Option τ))
    (item : Reencryption υ κ) : SyncQueue υ κ τ :=
  match rows.queue.tryFromDatabase item.uuid .reencrypt with
  | none => rows
  | some entry =>
    let deleted := if item.deleteFails then rows.queue
      else rows.queue.deleteRow entry.uuid entry.state
    if item.newQueryFails then rows
    else if (rows.queue.tryFromDatabase item.uuid .new).isSome then rows.setQueue deleted
    else if item.encryptionFails then rows
    else if item.saveFails then rows.setQueue deleted
    else
      (rows.setQueue (deleted.saveToDatabaseTable
        { entry with
          state := .new
          parentKeyUUID := item.parentKeyUUID
          recordChangeTag := (mirror item.uuid).getD entry.recordChangeTag })).setChange
        entry.uuid .new (rows.changes entry.uuid entry.state)
end SyncQueue
end

/-- A view with the changes of its rows, the callbacks, the changes that the records of each
operation hold, and those that the server has saved or deleted. -/
structure SyncView (υ κ τ : Type*) where
  view : CKKSOutgoingView υ κ τ
  changes : υ → CKKSItemState → Nat
  callbacks : PendingCalls υ
  sent : List (υ → Nat)
  written : List (υ × Nat)

inductive SyncEvent (υ κ τ : Type*) where
  | pass (pass : OutgoingPass υ)
  | completes (index : Nat) (faults : CompletionFaults υ) (completion : CKModifyCompletion υ τ)
  | keychainChanges (change : LocalItemChange υ κ)
  | recordChanged (change : RemoteChange υ τ)
  | recordDeleted (change : RemoteChange υ τ)
  | reencrypts (item : Reencryption υ κ)
  | currentKeysChange (currentKeys : CKKSKeyClass → Option κ)
  | accountLost
  | dies
  | resetsInFlight (faults : υ → EntryFaults)
  | resetsLocally

def CKModifyCompletion.writtenUUIDs {υ τ : Type*} : CKModifyCompletion υ τ → List υ
  | .saved savedRecords deletedRecordIDs =>
    savedUUIDs savedRecords ++ deletedRecordIDs.filterMap fun recordID =>
      match recordID with
      | .item uuid => some uuid
      | _ => none
  | .partialFailure _ | .failure => []

namespace SyncView
section
variable {υ κ τ : Type*} (sync : SyncView υ κ τ)

def rows : SyncQueue υ κ τ := ⟨sync.view.queue, sync.changes, sync.callbacks⟩

def setRows (rows : SyncQueue υ κ τ) : SyncView υ κ τ :=
  { sync with
    view := sync.view.setQueue rows.queue
    changes := rows.changes
    callbacks := rows.callbacks }

def setMirror (mirror : υ → Option (Option τ)) : SyncView υ κ τ :=
  { sync with view := sync.view.setMirror mirror }

def setCallbacks (callbacks : PendingCalls υ) : SyncView υ κ τ :=
  { sync with callbacks := callbacks }
end

section
variable {υ κ τ : Type*} [DecidableEq υ] [DecidableEq κ] [DecidableEq τ] (sync : SyncView υ κ τ)

def processEntry (pass : OutgoingPass υ)
    (batch : OutgoingBatch υ κ τ × SyncQueue υ κ τ) (entry : CKKSOutgoingQueueEntry υ κ τ) :
    OutgoingBatch υ κ τ × SyncQueue υ κ τ :=
  (batch.1.processEntry sync.view pass.faults entry,
    if (batch.2.queue.inflightEntry (pass.faults entry.uuid) entry.uuid).isSome then batch.2
    else
      match outgoingDisposition sync.view (pass.faults entry.uuid) entry with
      | .reencrypt => (batch.2.moveToState entry (pass.faults entry.uuid) .reencrypt).1
      | .save | .delete => (batch.2.moveToState entry (pass.faults entry.uuid) .inflight).1)

def passRows (pass : OutgoingPass υ) : SyncQueue υ κ τ :=
  if pass.fetchFails ∨ pass.currentKeyFails then sync.rows
  else
    let moved := ((ontransactionFetchEntries sync.view.queue pass).foldl (sync.processEntry pass)
      (OutgoingBatch.empty sync.view.queue, sync.rows)).2
    if pass.commitFails then sync.rows.rollBack moved else moved

/-- `groupStart`. A record holds the change that the row held when it was fetched. -/
def groupStart (pass : OutgoingPass υ) : SyncView υ κ τ :=
  let view := sync.view.groupStart pass
  let started := view.operations.drop sync.view.operations.length
  let moved := sync.passRows pass
  { sync with
    view := view
    changes := moved.changes
    callbacks := moved.callbacks
    sent := sync.sent ++ started.map fun _ uuid => sync.changes uuid .new }

def completeTransaction (operation : CKModifyRecordsOperation υ) (faults : CompletionFaults υ) :
    CKModifyCompletion υ τ → SyncQueue υ κ τ × (υ → Option (Option τ))
  | .saved savedRecords deletedRecordIDs =>
    let completed := SyncQueue.modifyRecordsSaved faults sync.rows sync.view.mirror savedRecords
      deletedRecordIDs
    if completed.2.2 then (sync.rows.rollBack completed.1, sync.view.mirror)
    else (completed.1, completed.2.1)
  | .partialFailure failedRecords =>
    (SyncQueue.modifyRecordsFailed faults.entry operation sync.rows failedRecords,
      sync.view.mirror)
  | .failure =>
    (SyncQueue.modifyAllRecords faults.entry .new sync.rows operation.recordIDsModified,
      sync.view.mirror)

/-- The records that a completion says were saved or deleted, with the changes they held. -/
def writtenBy (index : Nat) (completion : CKModifyCompletion υ τ) : List (υ × Nat) :=
  match sync.sent[index]? with
  | none => []
  | some changes => completion.writtenUUIDs.map fun uuid => (uuid, changes uuid)

def modifyRecordsCompleted (index : Nat) (operation : CKModifyRecordsOperation υ)
    (faults : CompletionFaults υ) (completion : CKModifyCompletion υ τ) : SyncView υ κ τ :=
  let completed := sync.completeTransaction operation faults completion
  let sync' := if faults.commitFails then sync.setRows (sync.rows.rollBack completed.1)
    else (sync.setRows completed.1).setMirror completed.2
  { sync' with
    view := sync'.view.setOperations (sync.view.operations.eraseIdx index)
    sent := sync.sent.eraseIdx index
    written := sync.written ++ sync.writtenBy index completion }

def registerChange (change : LocalItemChange υ κ) : SyncView υ κ τ :=
  sync.setCallbacks
    (if change.hasCallback then sync.callbacks.register change.uuid else sync.callbacks.advance)

def refuseChange (change : LocalItemChange υ κ) : SyncView υ κ τ :=
  sync.setCallbacks <|
    match change.route with
    | .skipped => sync.callbacks
    | .noView | .noAccount => sync.callbacks.call change.uuid false
    | .syncs =>
      match change.viewPaused, (withItem sync.view.queue sync.view.mirror change).entry with
      | true, some entry => sync.callbacks.call entry.uuid false
      | _, _ => sync.callbacks

def saveChange (change : LocalItemChange υ κ) : SyncView υ κ τ :=
  let rows := sync.rows.setQueue (changedQueue sync.view.queue sync.view.mirror change)
  sync.setRows <|
    match savedEntry sync.view.queue sync.view.mirror change with
    | none => rows
    | some entry => rows.setChange entry.uuid entry.state sync.callbacks.latest

/-- `s3dl_query_add`, and `handleKeychainEventDbConnection` of what it or another change did. -/
def handleKeychainEvent (change : LocalItemChange υ κ) : SyncView υ κ τ :=
  let registered := sync.registerChange change
  if change.inserted then (registered.refuseChange change).saveChange change else registered

/-- One event. A completion names records of its operation. -/
def step : SyncEvent υ κ τ → Option (SyncView υ κ τ)
  | .pass pass => some (sync.groupStart pass)
  | .completes index faults completion =>
    match sync.view.operations[index]? with
    | none => none
    | some operation =>
      if ∀ uuid ∈ completion.writtenUUIDs,
          .item uuid ∈ operation.recordsToSave ++ operation.recordIDsToDelete then
        some (sync.modifyRecordsCompleted index operation faults completion)
      else none
  | .keychainChanges change => some (sync.handleKeychainEvent change)
  | .recordChanged change =>
    let changed := SecurityFramework.recordChanged sync.view.queue sync.view.mirror change
    some ((sync.setRows (sync.rows.setQueue changed.1)).setMirror changed.2)
  | .recordDeleted change =>
    let changed := SecurityFramework.recordDeleted sync.view.queue sync.view.mirror change
    some ((sync.setRows (sync.rows.setQueue changed.1)).setMirror changed.2)
  | .reencrypts item => some (sync.setRows (sync.rows.reencrypt sync.view.mirror item))
  | .currentKeysChange currentKeys =>
    some { sync with view := sync.view.setCurrentKeys currentKeys }
  | .accountLost => some (sync.setCallbacks (sync.callbacks.callAll false))
  | .dies => some { (sync.setCallbacks sync.callbacks.forget) with
      view := sync.view.dies
      sent := [] }
  | .resetsInFlight faults =>
    let reset := SyncQueue.resetEntries faults sync.rows
      (sync.view.queue.filter fun entry => entry.state = .inflight)
    let reset' := sync.setRows reset.1
    some (if reset.2 then { reset' with view := reset'.view.setDied [] } else reset')
  | .resetsLocally => some { sync with view := sync.view.localReset }
end
end SyncView

namespace SyncQueue
section
variable {υ κ τ : Type*} [DecidableEq υ] (rows : SyncQueue υ κ τ)
  (entry : CKKSOutgoingQueueEntry υ κ τ) (faults : EntryFaults) (state : CKKSItemState)

theorem queue_saveAs :
    ((rows.saveAs entry faults state).1.queue, (rows.saveAs entry faults state).2) =
      rows.queue.saveAs entry faults state := by
  unfold SyncQueue.saveAs
  dsimp only
  split_ifs with hfailed
  · rw [← hfailed]
    rfl
  · rw [Bool.not_eq_true] at hfailed
    rw [← hfailed]
    rfl

theorem queue_moveToState :
    ((rows.moveToState entry faults state).1.queue, (rows.moveToState entry faults state).2) =
      rows.queue.moveToState entry faults state := by
  unfold SyncQueue.moveToState OutgoingQueue.moveToState
  split_ifs
  · rfl
  · rfl
  · exact queue_saveAs rows entry faults state
end

section
variable {υ κ τ : Type*} [DecidableEq υ] {faults : υ → EntryFaults} (rows : SyncQueue υ κ τ)

theorem queue_modifyAllRecords (state : CKKSItemState) (recordIDs : List (CKRecordName υ)) :
    (modifyAllRecords faults state rows recordIDs).queue =
      SecurityFramework.modifyAllRecords faults state rows.queue recordIDs := by
  unfold modifyAllRecords SecurityFramework.modifyAllRecords
  induction recordIDs generalizing rows with
  | nil => rfl
  | cons recordID recordIDs ih =>
    rw [List.foldl_cons, List.foldl_cons, ih]
    congr 1
    cases recordID with
    | currentKey keyClass => rfl
    | deviceState => rfl
    | item uuid =>
      dsimp only
      cases rows.queue.inflightEntry (faults uuid) uuid with
      | none => rfl
      | some entry => exact congrArg Prod.fst (queue_moveToState rows entry _ state)

theorem queue_modifyRecordAsError (recordID : CKRecordName υ) :
    (modifyRecordAsError faults rows recordID).queue =
      SecurityFramework.modifyRecordAsError faults rows.queue recordID := by
  cases recordID with
  | currentKey keyClass => rfl
  | deviceState => rfl
  | item uuid =>
    unfold modifyRecordAsError SecurityFramework.modifyRecordAsError
    dsimp only
    cases rows.queue.inflightEntry (faults uuid) uuid with
    | none => rfl
    | some entry => rfl

theorem queue_modifyRecordsFailed (operation : CKModifyRecordsOperation υ)
    (failedRecords : List (CKRecordName υ × CKRecordError)) :
    (modifyRecordsFailed faults operation rows failedRecords).queue =
      SecurityFramework.modifyRecordsFailed faults operation rows.queue failedRecords := by
  have hreset (rows : SyncQueue υ κ τ) (failed : CKRecordName υ × CKRecordError) :
      (resetFailedRecord faults operation rows failed).queue =
        SecurityFramework.resetFailedRecord faults operation rows.queue failed := by
    unfold resetFailedRecord SecurityFramework.resetFailedRecord
    split_ifs
    · rcases failed with ⟨recordID, recordError⟩
      cases recordError with
      | batchRequestFailed => exact queue_modifyAllRecords rows .new [recordID]
      | serverRecordChanged | missingRecord | other => exact queue_modifyRecordAsError rows recordID
    · rfl
  unfold modifyRecordsFailed SecurityFramework.modifyRecordsFailed
  split_ifs with hkeys
  · exact queue_modifyAllRecords rows .reencrypt _
  · clear hkeys
    induction failedRecords generalizing rows with
    | nil => rfl
    | cons failed failedRecords ih => rw [List.foldl_cons, List.foldl_cons, ih, hreset]

/-- The rows, the mirror and the error of a completion, without the callbacks. -/
def Completed.forget (completed : Completed υ κ τ) : CompletedRecords υ κ τ :=
  (completed.1.queue, completed.2)

theorem queue_finishEntry (faults : CompletionFaults υ) (uuid : υ) :
    ((finishEntry (faults.entry uuid) uuid rows).1.queue,
      (finishEntry (faults.entry uuid) uuid rows).2) =
        SecurityFramework.finishEntry faults uuid rows.queue := by
  unfold finishEntry SecurityFramework.finishEntry
  cases rows.queue.inflightEntry (faults.entry uuid) uuid with
  | none => rfl
  | some entry => exact queue_moveToState rows entry _ .deleted

theorem forget_finishSave (faults : CompletionFaults υ) (completed : Completed υ κ τ)
    (record : CKSavedRecord υ τ) :
    Completed.forget (finishSave faults completed record) =
      SecurityFramework.finishSave faults (Completed.forget completed) record := by
  rcases completed with ⟨rows, mirror, viewError⟩
  cases record with
  | currentKey keyClass => rfl
  | deviceState => rfl
  | item uuid recordChangeTag =>
    have hentry := queue_finishEntry rows faults uuid
    unfold Completed.forget finishSave SecurityFramework.finishSave
    dsimp only
    rw [← hentry]
    split_ifs
    · rfl
    · rfl

theorem forget_finishDelete (faults : CompletionFaults υ) (completed : Completed υ κ τ)
    (recordID : CKRecordName υ) :
    Completed.forget (finishDelete faults completed recordID) =
      SecurityFramework.finishDelete faults (Completed.forget completed) recordID := by
  rcases completed with ⟨rows, mirror, viewError⟩
  cases recordID with
  | currentKey keyClass => rfl
  | deviceState => rfl
  | item uuid =>
    have hentry := queue_finishEntry rows faults uuid
    unfold Completed.forget finishDelete SecurityFramework.finishDelete
    dsimp only
    rw [← hentry]
    split_ifs
    · rfl
    · rfl

theorem forget_modifyRecordsSaved (faults : CompletionFaults υ) (mirror : υ → Option (Option τ))
    (savedRecords : List (CKSavedRecord υ τ)) (deletedRecordIDs : List (CKRecordName υ)) :
    (if (modifyRecordsSaved faults rows mirror savedRecords deletedRecordIDs).2.2 then none
      else some ((modifyRecordsSaved faults rows mirror savedRecords deletedRecordIDs).1.queue,
        (modifyRecordsSaved faults rows mirror savedRecords deletedRecordIDs).2.1)) =
      SecurityFramework.modifyRecordsSaved faults rows.queue mirror savedRecords
        deletedRecordIDs := by
  have hsaved : Completed.forget (savedRecords.foldl (finishSave faults) (rows, mirror, false)) =
      savedRecords.foldl (SecurityFramework.finishSave faults) (rows.queue, mirror, false) :=
    (List.foldl_hom Completed.forget
      fun completed record => (forget_finishSave faults completed record).symm).symm
  have hdeleted : Completed.forget
      (modifyRecordsSaved faults rows mirror savedRecords deletedRecordIDs) =
        deletedRecordIDs.foldl (SecurityFramework.finishDelete faults)
          (savedRecords.foldl (SecurityFramework.finishSave faults) (rows.queue, mirror, false)) := by
    rw [← hsaved]
    exact (List.foldl_hom Completed.forget
      fun completed recordID => (forget_finishDelete faults completed recordID).symm).symm
  unfold SecurityFramework.modifyRecordsSaved
  dsimp only
  rw [← hdeleted]
  rfl

theorem queue_resetEntries (entries : OutgoingQueue υ κ τ) :
    ((resetEntries faults rows entries).1.queue, (resetEntries faults rows entries).2) =
      CKKSOutgoingView.resetEntries faults rows.queue entries := by
  induction entries generalizing rows with
  | nil => rfl
  | cons entry entries ih =>
    have hmoved := queue_moveToState rows entry (faults entry.uuid) .new
    unfold resetEntries CKKSOutgoingView.resetEntries
    dsimp only
    rw [← hmoved]
    split_ifs
    · rfl
    · exact ih _
end
end SyncQueue

namespace SyncView
section
variable {υ κ τ : Type*} [DecidableEq υ] [DecidableEq κ] [DecidableEq τ] (sync : SyncView υ κ τ)

theorem queue_passRows (pass : OutgoingPass υ) :
    (sync.passRows pass).queue = (sync.view.groupStart pass).queue := by
  have hbatch (entries : OutgoingQueue υ κ τ)
      (batch : OutgoingBatch υ κ τ × SyncQueue υ κ τ) (h : batch.2.queue = batch.1.queue) :
      (entries.foldl (sync.processEntry pass) batch).2.queue =
        (entries.foldl (fun batch entry => batch.processEntry sync.view pass.faults entry)
          batch.1).queue := by
    induction entries generalizing batch with
    | nil => exact h
    | cons entry entries ih =>
      rw [List.foldl_cons, List.foldl_cons]
      refine ih (sync.processEntry pass batch entry) ?_
      have hkey : (batch.1.useCurrentKey sync.view entry).queue = batch.1.queue := by
        unfold OutgoingBatch.useCurrentKey
        split
        · rfl
        · rfl
        · rfl
      unfold SyncView.processEntry OutgoingBatch.processEntry
      dsimp only
      rw [h]
      split_ifs
      · exact h
      · cases outgoingDisposition sync.view (pass.faults entry.uuid) entry with
        | reencrypt =>
          have hmoved := SyncQueue.queue_moveToState batch.2 entry
            (pass.faults entry.uuid) .reencrypt
          exact (congrArg Prod.fst hmoved).trans (by rw [h, ← hkey]; rfl)
        | save | delete =>
          have hmoved := SyncQueue.queue_moveToState batch.2 entry
            (pass.faults entry.uuid) .inflight
          exact (congrArg Prod.fst hmoved).trans (by rw [h, ← hkey]; rfl)
  unfold passRows CKKSOutgoingView.groupStart
  dsimp only
  split_ifs
  · rfl
  · rfl
  · rfl
  · exact hbatch _ (OutgoingBatch.empty sync.view.queue, sync.rows) rfl
  · exact hbatch _ (OutgoingBatch.empty sync.view.queue, sync.rows) rfl

omit [DecidableEq κ] [DecidableEq τ] in
/-- A completion does to the view what it does without callbacks. -/
theorem view_modifyRecordsCompleted (index : Nat) (operation : CKModifyRecordsOperation υ)
    (faults : CompletionFaults υ) (completion : CKModifyCompletion υ τ) :
    (sync.modifyRecordsCompleted index operation faults completion).view =
      sync.view.modifyRecordsCompleted index operation faults completion := by
  have htransaction : ((sync.setRows (sync.completeTransaction operation faults completion).1).setMirror
      (sync.completeTransaction operation faults completion).2).view =
        sync.view.completeTransaction operation faults completion := by
    cases completion with
    | partialFailure failedRecords =>
      exact congrArg sync.view.setQueue
        (SyncQueue.queue_modifyRecordsFailed sync.rows operation failedRecords)
    | failure =>
      exact congrArg sync.view.setQueue
        (SyncQueue.queue_modifyAllRecords sync.rows .new operation.recordIDsModified)
    | saved savedRecords deletedRecordIDs =>
      have hsaved : _ = modifyRecordsSaved faults sync.view.queue sync.view.mirror savedRecords
          deletedRecordIDs := SyncQueue.forget_modifyRecordsSaved sync.rows faults sync.view.mirror
        savedRecords deletedRecordIDs
      unfold completeTransaction CKKSOutgoingView.completeTransaction
      dsimp only
      rw [← hsaved]
      split_ifs
      · rfl
      · rfl
  unfold modifyRecordsCompleted CKKSOutgoingView.modifyRecordsCompleted
  dsimp only
  rw [← htransaction]
  split_ifs
  · rfl
  · rfl
end
end SyncView
end SecurityFramework
