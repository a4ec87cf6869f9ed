import SecurityFramework.Ckks.OutgoingQueue

/-!
# Sending the outgoing queue

A pass takes new entries of a view, puts their records in one modify operation and marks them as in
flight.
-/

namespace SecurityFramework
def secCKKSOutgoingQueueItemsAtOnce : Nat := 100

inductive CKKSKeyClass where
  | classA
  | classC
  deriving DecidableEq

inductive CKRecordName (υ : Type*) where
  | item (uuid : υ)
  | currentKey (keyClass : CKKSKeyClass)
  | deviceState
  deriving DecidableEq

instance CKRecordName.lawfulBEq {υ : Type*} [DecidableEq υ] : LawfulBEq (CKRecordName υ) :=
  inferInstance

structure CKModifyRecordsOperation (υ : Type*) where
  recordsToSave : List (CKRecordName υ)
  recordIDsToDelete : List (CKRecordName υ)
  recordIDsModified : List (CKRecordName υ)
  deriving DecidableEq

inductive CKRecordError where
  | serverRecordChanged
  | batchRequestFailed
  | missingRecord
  | other
  deriving DecidableEq

inductive CKSavedRecord (υ τ : Type*) where
  | item (uuid : υ) (recordChangeTag : Option τ)
  | currentKey (keyClass : CKKSKeyClass)
  | deviceState

inductive CKModifyCompletion (υ τ : Type*) where
  | saved (savedRecords : List (CKSavedRecord υ τ)) (deletedRecordIDs : List (CKRecordName υ))
  | partialFailure (failedRecords : List (CKRecordName υ × CKRecordError))
  | failure

/-- The view: its queue, the change tags of its mirror entries, the current keys, the operations
that have not completed, and those that had not when their process died. -/
structure CKKSOutgoingView (υ κ τ : Type*) where
  queue : OutgoingQueue υ κ τ
  mirror : υ → Option (Option τ)
  currentKeys : CKKSKeyClass → Option κ
  operations : List (CKModifyRecordsOperation υ)
  died : List (CKModifyRecordsOperation υ)

/-- What a pass takes from its surroundings, and what fails in it. The priority UUIDs are a set. -/
structure OutgoingPass (υ : Type*) where
  priorityUUIDs : List υ
  nodup_priorityUUIDs : priorityUUIDs.Nodup
  priorityQueryFails : υ → Bool
  fetchFails : Bool
  currentKeyFails : Bool
  hasDeviceState : Bool
  faults : υ → EntryFaults
  commitFails : Bool

structure CompletionFaults (υ : Type*) where
  entry : υ → EntryFaults
  mirrorSave : υ → Bool
  recordSave : Bool
  commitFails : Bool

inductive OutgoingDisposition where
  | save
  | delete
  | reencrypt
  deriving DecidableEq

section
variable {υ κ τ : Type*} [DecidableEq υ] [DecidableEq κ] [DecidableEq τ]

/-- A priority UUID is taken where its entry is new. Of several entries the last one counts. -/
def priorityEntry (queue : OutgoingQueue υ κ τ) (pass : OutgoingPass υ) (uuid : υ) :
    Option (CKKSOutgoingQueueEntry υ κ τ) :=
  if pass.priorityQueryFails uuid then none
  else
    match (queue.filter fun entry => entry.uuid = uuid).getLast? with
    | some entry => if entry.state = .new then some entry else none
    | none => none

def addNewEntries (priority : List υ) :
    OutgoingQueue υ κ τ → OutgoingQueue υ κ τ → OutgoingQueue υ κ τ
  | queueEntries, [] => queueEntries
  | queueEntries, entry :: newEntries =>
    if secCKKSOutgoingQueueItemsAtOnce ≤ queueEntries.length then queueEntries
    else if entry.uuid ∈ priority then addNewEntries priority queueEntries newEntries
    else addNewEntries priority (queueEntries ++ [entry]) newEntries

def ontransactionFetchEntries (queue : OutgoingQueue υ κ τ) (pass : OutgoingPass υ) :
    OutgoingQueue υ κ τ :=
  let priorityEntries := pass.priorityUUIDs.filterMap (priorityEntry queue pass)
  let newEntries :=
    (queue.filter fun entry => entry.state = .new).take secCKKSOutgoingQueueItemsAtOnce
  addNewEntries (priorityEntries.map fun entry => entry.uuid) priorityEntries newEntries

def currentKeyClass (currentKeys : CKKSKeyClass → Option κ) (parentKeyUUID : κ) :
    Option CKKSKeyClass :=
  if currentKeys .classA = some parentKeyUUID then some .classA
  else if currentKeys .classC = some parentKeyUUID then some .classC
  else none

/-- A change tag is not equal to a missing one. A mirror entry that is missing, or cannot be
loaded, makes a modification an addition. -/
def outgoingDisposition (view : CKKSOutgoingView υ κ τ) (faults : EntryFaults)
    (entry : CKKSOutgoingQueueEntry υ κ τ) : OutgoingDisposition :=
  match entry.action with
  | .delete => .delete
  | .add =>
    if (currentKeyClass view.currentKeys entry.parentKeyUUID).isNone then .reencrypt else .save
  | .modify =>
    if (currentKeyClass view.currentKeys entry.parentKeyUUID).isNone then .reencrypt
    else
      match if faults.mirrorQuery then none else view.mirror entry.uuid with
      | none => .save
      | some recordChangeTag =>
        if entry.recordChangeTag.isSome ∧ entry.recordChangeTag = recordChangeTag then .save
        else .reencrypt

structure OutgoingBatch (υ κ τ : Type*) where
  queue : OutgoingQueue υ κ τ
  recordsToSave : List (CKRecordName υ)
  recordIDsToDelete : List (CKRecordName υ)
  recordIDsModified : List (CKRecordName υ)
  currentKeysToSave : List CKKSKeyClass

namespace OutgoingBatch
def empty (queue : OutgoingQueue υ κ τ) : OutgoingBatch υ κ τ := ⟨queue, [], [], [], []⟩

variable (batch : OutgoingBatch υ κ τ) (view : CKKSOutgoingView υ κ τ) (faults : υ → EntryFaults)

def useCurrentKey (entry : CKKSOutgoingQueueEntry υ κ τ) : OutgoingBatch υ κ τ :=
  match entry.action, currentKeyClass view.currentKeys entry.parentKeyUUID with
  | .delete, _ => batch
  | _, none => batch
  | _, some keyClass =>
    { batch with currentKeysToSave := batch.currentKeysToSave.insert keyClass }

def move (entry : CKKSOutgoingQueueEntry υ κ τ) (state : CKKSItemState) : OutgoingBatch υ κ τ :=
  { batch with queue := (batch.queue.moveToState entry (faults entry.uuid) state).1 }

def putSave (entry : CKKSOutgoingQueueEntry υ κ τ) : OutgoingBatch υ κ τ :=
  { batch with
    recordsToSave := batch.recordsToSave.insert (.item entry.uuid)
    recordIDsModified := batch.recordIDsModified.insert (.item entry.uuid) }

def putDelete (entry : CKKSOutgoingQueueEntry υ κ τ) : OutgoingBatch υ κ τ :=
  { batch with
    recordIDsToDelete := batch.recordIDsToDelete ++ [.item entry.uuid]
    recordIDsModified := batch.recordIDsModified.insert (.item entry.uuid) }

/-- One turn of the loop. The query for an entry in flight sets the error, and where it fails the
entry goes on. -/
def processEntry (entry : CKKSOutgoingQueueEntry υ κ τ) : OutgoingBatch υ κ τ :=
  if (batch.queue.inflightEntry (faults entry.uuid) entry.uuid).isSome then batch
  else
    let batch := batch.useCurrentKey view entry
    match outgoingDisposition view (faults entry.uuid) entry with
    | .reencrypt => batch.move faults entry .reencrypt
    | .save => (batch.putSave entry).move faults entry .inflight
    | .delete => (batch.putDelete entry).move faults entry .inflight

/-- The pointers to the current keys and the device state go with the items. -/
def operation (hasDeviceState : Bool) : CKModifyRecordsOperation υ where
  recordsToSave :=
    let recordsToSave := batch.currentKeysToSave.foldl
      (fun records keyClass => records.insert (.currentKey keyClass)) batch.recordsToSave
    if hasDeviceState then recordsToSave.insert .deviceState else recordsToSave
  recordIDsToDelete := batch.recordIDsToDelete
  recordIDsModified := batch.recordIDsModified
end OutgoingBatch

namespace CKKSOutgoingView
variable (view : CKKSOutgoingView υ κ τ)

def setQueue (queue : OutgoingQueue υ κ τ) : CKKSOutgoingView υ κ τ := { view with queue := queue }

def setMirror (mirror : υ → Option (Option τ)) : CKKSOutgoingView υ κ τ :=
  { view with mirror := mirror }

def setCurrentKeys (currentKeys : CKKSKeyClass → Option κ) : CKKSOutgoingView υ κ τ :=
  { view with currentKeys := currentKeys }

def setOperations (operations : List (CKModifyRecordsOperation υ)) : CKKSOutgoingView υ κ τ :=
  { view with operations := operations }

def setDied (died : List (CKModifyRecordsOperation υ)) : CKKSOutgoingView υ κ τ :=
  { view with died := died }

def batch (pass : OutgoingPass υ) : OutgoingBatch υ κ τ :=
  (ontransactionFetchEntries view.queue pass).foldl
    (fun batch entry => batch.processEntry view pass.faults entry) (OutgoingBatch.empty view.queue)

/-- `groupStart` for the view: where there is a record to send, an operation is started. -/
def groupStart (pass : OutgoingPass υ) : CKKSOutgoingView υ κ τ :=
  if pass.fetchFails ∨ pass.currentKeyFails then view
  else
    let batch := view.batch pass
    let committed := if pass.commitFails then view else view.setQueue batch.queue
    if batch.recordsToSave.isEmpty ∧ batch.recordIDsToDelete.isEmpty then committed
    else committed.setOperations (view.operations ++ [batch.operation pass.hasDeviceState])
end CKKSOutgoingView

/-- `_onqueueModifyAllRecords`. There is no entry for the device state. -/
def modifyAllRecords (faults : υ → EntryFaults) (state : CKKSItemState)
    (queue : OutgoingQueue υ κ τ) (recordIDs : List (CKRecordName υ)) : OutgoingQueue υ κ τ :=
  recordIDs.foldl (fun queue recordID =>
    match recordID with
    | .currentKey _ | .deviceState => queue
    | .item uuid =>
      match queue.inflightEntry (faults uuid) uuid with
      | none => queue
      | some entry => (queue.moveToState entry (faults uuid) state).1) queue

def modifyRecordAsError (faults : υ → EntryFaults) (queue : OutgoingQueue υ κ τ) :
    CKRecordName υ → OutgoingQueue υ κ τ
  | .currentKey _ | .deviceState => queue
  | .item uuid =>
    match queue.inflightEntry (faults uuid) uuid with
    | none => queue
    | some entry => (queue.markAsError entry (faults uuid)).1

def isErrorBadEtagOnKeyPointersOnly (failedRecords : List (CKRecordName υ × CKRecordError)) :
    Bool :=
  failedRecords.all fun failed =>
    match failed with
    | (.currentKey _, .serverRecordChanged) => true
    | _ => false

def isErrorMissingSyncKey (failedRecords : List (CKRecordName υ × CKRecordError)) : Bool :=
  failedRecords.any fun failed => failed.2 = .missingRecord

def resetFailedRecord (faults : υ → EntryFaults) (operation : CKModifyRecordsOperation υ)
    (queue : OutgoingQueue υ κ τ) (failed : CKRecordName υ × CKRecordError) :
    OutgoingQueue υ κ τ :=
  if failed.1 ∉ operation.recordIDsModified then queue
  else
    match failed.2 with
    | .batchRequestFailed => modifyAllRecords faults .new queue [failed.1]
    | _ => modifyRecordAsError faults queue failed.1

def modifyRecordsFailed (faults : υ → EntryFaults) (operation : CKModifyRecordsOperation υ)
    (queue : OutgoingQueue υ κ τ) (failedRecords : List (CKRecordName υ × CKRecordError)) :
    OutgoingQueue υ κ τ :=
  if isErrorBadEtagOnKeyPointersOnly failedRecords || isErrorMissingSyncKey failedRecords then
    modifyAllRecords faults .reencrypt queue (failedRecords.map Prod.fst)
  else failedRecords.foldl (resetFailedRecord faults operation) queue

abbrev CompletedRecords (υ κ τ : Type*) :=
  OutgoingQueue υ κ τ × (υ → Option (Option τ)) × Bool

def finishEntry (faults : CompletionFaults υ) (uuid : υ) (queue : OutgoingQueue υ κ τ) :
    OutgoingQueue υ κ τ × Bool :=
  match queue.inflightEntry (faults.entry uuid) uuid with
  | none => (queue, true)
  | some entry => queue.moveToState entry (faults.entry uuid) .deleted

def finishSave (faults : CompletionFaults υ) :
    CompletedRecords υ κ τ → CKSavedRecord υ τ → CompletedRecords υ κ τ
  | (queue, mirror, viewError), .item uuid recordChangeTag =>
    let finished := finishEntry faults uuid queue
    if faults.mirrorSave uuid then (finished.1, mirror, true)
    else (finished.1, Function.update mirror uuid (some recordChangeTag), viewError || finished.2)
  | (queue, mirror, viewError), _ => (queue, mirror, viewError || faults.recordSave)

def finishDelete (faults : CompletionFaults υ) :
    CompletedRecords υ κ τ → CKRecordName υ → CompletedRecords υ κ τ
  | (queue, mirror, viewError), .item uuid =>
    let finished := finishEntry faults uuid queue
    if (faults.entry uuid).mirrorQuery || (mirror uuid).isSome && faults.mirrorSave uuid then
      (finished.1, mirror, true)
    else (finished.1, Function.update mirror uuid none, viewError || finished.2)
  -- no entry has the name of another record
  | (queue, mirror, _), _ => (queue, mirror, true)

/-- The rows and the mirror after an operation was saved, none where the transaction is rolled
back. -/
def modifyRecordsSaved (faults : CompletionFaults υ) (queue : OutgoingQueue υ κ τ)
    (mirror : υ → Option (Option τ)) (savedRecords : List (CKSavedRecord υ τ))
    (deletedRecordIDs : List (CKRecordName υ)) :
    Option (OutgoingQueue υ κ τ × (υ → Option (Option τ))) :=
  let saved := savedRecords.foldl (finishSave faults) (queue, mirror, false)
  let completed := deletedRecordIDs.foldl (finishDelete faults) saved
  if completed.2.2 then none else some (completed.1, completed.2.1)

namespace CKKSOutgoingView
variable (view : CKKSOutgoingView υ κ τ)

def completeTransaction (operation : CKModifyRecordsOperation υ) (faults : CompletionFaults υ) :
    CKModifyCompletion υ τ → CKKSOutgoingView υ κ τ
  | .saved savedRecords deletedRecordIDs =>
    match modifyRecordsSaved faults view.queue view.mirror savedRecords deletedRecordIDs with
    | none => view
    | some (queue, mirror) => (view.setQueue queue).setMirror mirror
  | .partialFailure failedRecords =>
    view.setQueue (modifyRecordsFailed faults.entry operation view.queue failedRecords)
  | .failure =>
    view.setQueue (modifyAllRecords faults.entry .new view.queue operation.recordIDsModified)

def modifyRecordsCompleted (index : Nat) (operation : CKModifyRecordsOperation υ)
    (faults : CompletionFaults υ) (completion : CKModifyCompletion υ τ) :
    CKKSOutgoingView υ κ τ :=
  let view' := if faults.commitFails then view
    else view.completeTransaction operation faults completion
  view'.setOperations (view.operations.eraseIdx index)

def resetEntries (faults : υ → EntryFaults) :
    OutgoingQueue υ κ τ → OutgoingQueue υ κ τ → OutgoingQueue υ κ τ × Bool
  | queue, [] => (queue, true)
  | queue, entry :: entries =>
    let moved := queue.moveToState entry (faults entry.uuid) .new
    if moved.2 then (moved.1, false) else resetEntries faults moved.1 entries

def resetAllInflightOQE (faults : υ → EntryFaults) : CKKSOutgoingView υ κ τ :=
  let reset := resetEntries faults view.queue
    (view.queue.filter fun entry => entry.state = .inflight)
  if reset.2 then (view.setQueue reset.1).setDied [] else view.setQueue reset.1

def dies : CKKSOutgoingView υ κ τ :=
  (view.setDied (view.died ++ view.operations)).setOperations []

def localReset : CKKSOutgoingView υ κ τ :=
  ((view.setQueue []).setMirror fun _ => none).setDied []
end CKKSOutgoingView
end
end SecurityFramework
