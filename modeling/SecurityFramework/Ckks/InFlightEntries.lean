import SecurityFramework.Ckks.CKKSOutgoingQueueOperation

/-! # Which entries are in flight -/

namespace SecurityFramework
open OutgoingQueue

def CKModifyRecordsOperation.Writes {υ : Type*} (operation : CKModifyRecordsOperation υ) (uuid : υ) :
    Prop :=
  .item uuid ∈ operation.recordsToSave ∨ .item uuid ∈ operation.recordIDsToDelete

section
variable {υ κ τ : Type*} [DecidableEq υ] {queue : OutgoingQueue υ κ τ}

theorem isSome_inflightEntry {faults : EntryFaults} {uuid : υ} :
    (queue.inflightEntry faults uuid).isSome = true ↔
      queue.InFlight uuid ∧ faults.inflightQuery = false := by
  unfold inflightEntry
  cases faults.inflightQuery with
  | true => simp only [if_true, Option.isSome_none, Bool.false_eq_true, Bool.true_eq_false, and_false]
  | false =>
    simp only [Bool.false_eq_true, if_false, and_true]
    exact tryFromDatabase_isSome_iff_inFlight

theorem inflightEntry_eq_some {faults : EntryFaults} {uuid : υ}
    {entry : CKKSOutgoingQueueEntry υ κ τ}
    (h : queue.inflightEntry faults uuid = some entry) :
    entry.uuid = uuid ∧ entry.state = .inflight := by
  unfold inflightEntry at h
  split_ifs at h
  exact (tryFromDatabase_eq_some h).2

theorem mem_priorityEntry {pass : OutgoingPass υ} {uuid : υ}
    {entry : CKKSOutgoingQueueEntry υ κ τ} (h : entry ∈ priorityEntry queue pass uuid) :
    entry.uuid = uuid ∧ entry.state = .new := by
  unfold priorityEntry at h
  split_ifs at h
  · cases h
  · split at h
    · rename_i entry' hlast
      split_ifs at h with hstate
      · cases h
        have hmem := List.mem_of_getLast? hlast
        exact ⟨of_decide_eq_true (List.mem_filter.1 hmem).2, hstate⟩
      · cases h
    · cases h

def Fetched (entries : OutgoingQueue υ κ τ) : Prop :=
  (entries.map fun entry => entry.uuid).Nodup ∧ ∀ entry ∈ entries, entry.state = .new

theorem fetched_addNewEntries {priority : List υ} {queueEntries newEntries : OutgoingQueue υ κ τ}
    (hqueue : Fetched queueEntries) (hnew : Fetched newEntries)
    (happart : ∀ entry ∈ newEntries, entry.uuid ∉ priority →
      entry.uuid ∉ queueEntries.map fun entry => entry.uuid) :
    Fetched (addNewEntries priority queueEntries newEntries) := by
  induction newEntries generalizing queueEntries with
  | nil => exact hqueue
  | cons entry newEntries ih =>
    have hnodup : entry.uuid ∉ newEntries.map (fun entry => entry.uuid) ∧
        (newEntries.map fun entry => entry.uuid).Nodup := List.nodup_cons.1 hnew.1
    have hrest : Fetched newEntries :=
      ⟨hnodup.2, fun entry' hentry' => hnew.2 entry' (List.mem_cons_of_mem _ hentry')⟩
    unfold addNewEntries
    split_ifs with henough hpriority
    · exact hqueue
    · exact ih hqueue hrest fun entry' hentry' => happart entry' (List.mem_cons_of_mem _ hentry')
    · have hout := happart entry List.mem_cons_self hpriority
      apply ih _ hrest
      · intro entry' hentry' hnot hmem
        rw [List.map_append, List.mem_append, List.map_singleton, List.mem_singleton] at hmem
        rcases hmem with hmem | heq
        · exact happart entry' (List.mem_cons_of_mem _ hentry') hnot hmem
        · exact hnodup.1 (heq ▸ List.mem_map_of_mem hentry')
      · constructor
        · rw [List.map_append, List.nodup_append]
          refine ⟨hqueue.1, List.nodup_singleton _, ?_⟩
          intro uuid huuid uuid' huuid' heq
          rw [List.map_singleton, List.mem_singleton] at huuid'
          exact hout (huuid' ▸ heq ▸ huuid)
        · intro entry' hentry'
          rcases List.mem_append.1 hentry' with hmem | hmem
          · exact hqueue.2 entry' hmem
          · exact List.mem_singleton.1 hmem ▸ hnew.2 entry List.mem_cons_self

theorem fetched_ontransactionFetchEntries (h : queue.Keyed) (pass : OutgoingPass υ) :
    Fetched (ontransactionFetchEntries queue pass) := by
  unfold ontransactionFetchEntries
  dsimp only
  apply fetched_addNewEntries
  · constructor
    · have hsub (uuids : List υ) : ((uuids.filterMap (priorityEntry queue pass)).map
          fun entry => entry.uuid).Sublist uuids := by
        induction uuids with
        | nil => exact List.Sublist.refl _
        | cons uuid uuids ih =>
          cases hentry : priorityEntry queue pass uuid with
          | none =>
            rw [List.filterMap_cons_none hentry]
            exact ih.cons uuid
          | some entry =>
            rw [List.filterMap_cons_some hentry, List.map_cons, (mem_priorityEntry hentry).1]
            exact ih.cons_cons uuid
      exact List.Nodup.sublist (hsub pass.priorityUUIDs) pass.nodup_priorityUUIDs
    · intro entry hentry
      rcases List.mem_filterMap.1 hentry with ⟨uuid, -, hsome⟩
      exact (mem_priorityEntry hsome).2
  · have hsub := List.take_sublist secCKKSOutgoingQueueItemsAtOnce
      (queue.filter fun entry => entry.state = .new)
    refine ⟨List.Nodup.sublist (hsub.map _) (h.nodup_uuids .new), fun entry hentry => ?_⟩
    exact of_decide_eq_true (List.mem_filter.1 (hsub.mem hentry)).2
  · exact fun _ _ hnot => hnot
end

section
variable {υ κ τ : Type*} [DecidableEq υ] [DecidableEq κ] [DecidableEq τ]

/-- An entry is sent where no other is in flight and it need not be encrypted again. -/
def Sends (view : CKKSOutgoingView υ κ τ) (faults : υ → EntryFaults)
    (entry : CKKSOutgoingQueueEntry υ κ τ) : Prop :=
  ¬view.queue.InFlight entry.uuid ∧ outgoingDisposition view (faults entry.uuid) entry ≠ .reencrypt

def SentSafely (view : CKKSOutgoingView υ κ τ) (faults : υ → EntryFaults)
    (entry : CKKSOutgoingQueueEntry υ κ τ) : Prop :=
  (view.queue.InFlight entry.uuid → (faults entry.uuid).inflightQuery = false) ∧
    (Sends view faults entry →
      (faults entry.uuid).delete = false ∧ (faults entry.uuid).save = false)

structure OutgoingBatch.HasSent (view : CKKSOutgoingView υ κ τ) (batch : OutgoingBatch υ κ τ)
    (sent : List υ) : Prop where
  keyed : batch.queue.Keyed
  inFlight : ∀ uuid, batch.queue.InFlight uuid ↔ view.queue.InFlight uuid ∨ uuid ∈ sent
  fresh : ∀ uuid ∈ sent, ¬view.queue.InFlight uuid
  nodup : sent.Nodup
  modified : ∀ recordID, recordID ∈ batch.recordIDsModified ↔ ∃ uuid ∈ sent, recordID = .item uuid
  records : (batch.recordsToSave ++ batch.recordIDsToDelete).Perm (sent.map CKRecordName.item)

namespace OutgoingBatch.HasSent
variable {view : CKKSOutgoingView υ κ τ} {batch : OutgoingBatch υ κ τ} {sent : List υ}
  {faults : υ → EntryFaults} {entry : CKKSOutgoingQueueEntry υ κ τ}

omit [DecidableEq υ] [DecidableEq κ] [DecidableEq τ] in
theorem start (h : view.queue.Keyed) : HasSent view (OutgoingBatch.empty view.queue) [] where
  keyed := h
  inFlight _ := (or_iff_left List.not_mem_nil).symm
  fresh _ huuid := absurd huuid List.not_mem_nil
  nodup := List.nodup_nil
  modified _ := ⟨fun h => absurd h List.not_mem_nil, fun ⟨_, h, _⟩ => absurd h List.not_mem_nil⟩
  records := List.Perm.refl _

omit [DecidableEq υ] [DecidableEq τ] in
theorem useCurrentKey (h : batch.HasSent view sent) (entry : CKKSOutgoingQueueEntry υ κ τ) :
    (batch.useCurrentKey view entry).HasSent view sent := by
  unfold OutgoingBatch.useCurrentKey
  split
  · exact h
  · exact h
  · exact ⟨h.keyed, h.inFlight, h.fresh, h.nodup, h.modified, h.records⟩

omit [DecidableEq κ] [DecidableEq τ] in
theorem reencrypt (h : batch.HasSent view sent) (hnew : entry.state = .new) :
    (batch.move faults entry .reencrypt).HasSent view sent where
  keyed := h.keyed.moveToState entry _ _
  inFlight uuid := (inFlight_moveToState_reencrypt hnew).trans (h.inFlight uuid)
  fresh := h.fresh
  nodup := h.nodup
  modified := h.modified
  records := h.records

omit [DecidableEq κ] [DecidableEq τ] in
theorem send (h : batch.HasSent view sent) (hnew : entry.state = .new) (hout : entry.uuid ∉ sent)
    (hfresh : ¬view.queue.InFlight entry.uuid)
    (hdelete : (faults entry.uuid).delete = false) (hsave : (faults entry.uuid).save = false)
    {batch' : OutgoingBatch υ κ τ} (hqueue : batch'.queue = batch.queue)
    (hmodified : batch'.recordIDsModified = batch.recordIDsModified.insert (.item entry.uuid))
    (hrecords : (batch'.recordsToSave ++ batch'.recordIDsToDelete).Perm
      (.item entry.uuid :: (batch.recordsToSave ++ batch.recordIDsToDelete))) :
    (batch'.move faults entry .inflight).HasSent view (entry.uuid :: sent) where
  keyed := (hqueue ▸ h.keyed).moveToState entry _ _
  inFlight uuid := by
    refine (inFlight_moveToState_inflight hnew hdelete hsave).trans ?_
    rw [hqueue, h.inFlight, List.mem_cons, or_assoc]
    exact or_congr_right or_comm
  fresh := List.forall_mem_cons.2 ⟨hfresh, h.fresh⟩
  nodup := List.nodup_cons.2 ⟨hout, h.nodup⟩
  modified recordID := by
    change recordID ∈ batch'.recordIDsModified ↔ _
    rw [hmodified, List.mem_insert_iff, h.modified, List.exists_mem_cons_iff]
  records := hrecords.trans (h.records.cons _)

omit [DecidableEq υ] [DecidableEq κ] [DecidableEq τ] in
theorem notMem_records (h : batch.HasSent view sent) (hout : entry.uuid ∉ sent) :
    CKRecordName.item entry.uuid ∉ batch.recordsToSave := by
  intro hmem
  rcases List.mem_map.1 (h.records.subset (List.mem_append_left _ hmem)) with ⟨uuid, huuid, heq⟩
  cases heq
  exact hout huuid

theorem processEntry (h : batch.HasSent view sent) (hnew : entry.state = .new)
    (hout : entry.uuid ∉ sent) (hsafe : SentSafely view faults entry) :
    ∃ sent', (∀ uuid ∈ sent', uuid ∈ sent ∨ uuid = entry.uuid ∧ Sends view faults entry) ∧
      (batch.processEntry view faults entry).HasSent view sent' := by
  unfold OutgoingBatch.processEntry
  have hflight : batch.queue.InFlight entry.uuid ↔ view.queue.InFlight entry.uuid :=
    (h.inFlight entry.uuid).trans (or_iff_left hout)
  split_ifs with hfound
  · exact ⟨sent, fun _ huuid => Or.inl huuid, h⟩
  · have hfresh : ¬view.queue.InFlight entry.uuid := fun hview =>
      hfound (isSome_inflightEntry.2 ⟨hflight.2 hview, hsafe.1 hview⟩)
    have hkey := h.useCurrentKey entry
    have hsub (hsends : Sends view faults entry) : ∀ uuid ∈ entry.uuid :: sent,
        uuid ∈ sent ∨ uuid = entry.uuid ∧ Sends view faults entry :=
      fun uuid huuid => (List.mem_cons.1 huuid).symm.imp_right fun heq => ⟨heq, hsends⟩
    dsimp only
    split
    · exact ⟨sent, fun _ huuid => Or.inl huuid, hkey.reencrypt hnew⟩
    · rename_i hsave
      have hsends : Sends view faults entry := ⟨hfresh, by rw [hsave]; decide⟩
      have hfaults := hsafe.2 hsends
      refine ⟨_, hsub hsends, hkey.send hnew hout hfresh hfaults.1 hfaults.2 rfl rfl ?_⟩
      unfold OutgoingBatch.putSave
      rw [List.insert_of_not_mem (hkey.notMem_records hout), List.cons_append]
    · rename_i hdelete
      have hsends : Sends view faults entry := ⟨hfresh, by rw [hdelete]; decide⟩
      have hfaults := hsafe.2 hsends
      refine ⟨_, hsub hsends, hkey.send hnew hout hfresh hfaults.1 hfaults.2 rfl rfl ?_⟩
      unfold OutgoingBatch.putDelete
      rw [← List.append_assoc]
      exact List.perm_append_singleton _ _

theorem foldl (h : batch.HasSent view sent) {entries : OutgoingQueue υ κ τ}
    (hfetched : Fetched entries) (hout : ∀ entry ∈ entries, entry.uuid ∉ sent)
    (hsafe : ∀ entry ∈ entries, SentSafely view faults entry) :
    ∃ sent', (∀ uuid ∈ sent', uuid ∈ sent ∨
        ∃ entry ∈ entries, uuid = entry.uuid ∧ Sends view faults entry) ∧
      (entries.foldl (fun batch entry => batch.processEntry view faults entry)
        batch).HasSent view sent' := by
  induction entries generalizing batch sent with
  | nil => exact ⟨sent, fun _ huuid => Or.inl huuid, h⟩
  | cons entry entries ih =>
    have hnodup : entry.uuid ∉ entries.map (fun entry => entry.uuid) ∧
        (entries.map fun entry => entry.uuid).Nodup := List.nodup_cons.1 hfetched.1
    rcases List.forall_mem_cons.1 hfetched.2 with ⟨hnew, hrest⟩
    rcases List.forall_mem_cons.1 hout with ⟨hentry, houtRest⟩
    rcases List.forall_mem_cons.1 hsafe with ⟨hsafeEntry, hsafeRest⟩
    rcases h.processEntry hnew hentry hsafeEntry with ⟨sent', hsent, hnext⟩
    have houtNext : ∀ entry' ∈ entries, entry'.uuid ∉ sent' := by
      intro entry' hentry' hmem
      rcases hsent entry'.uuid hmem with hmem | ⟨heq, -⟩
      · exact houtRest entry' hentry' hmem
      · exact hnodup.1 (heq ▸ List.mem_map_of_mem hentry')
    rcases ih hnext ⟨hnodup.2, hrest⟩ houtNext hsafeRest with ⟨sent'', hsent'', hlast⟩
    refine ⟨sent'', fun uuid huuid => ?_, hlast⟩
    rcases hsent'' uuid huuid with hmem | ⟨entry', hentry', hsends⟩
    · rcases hsent uuid hmem with hmem | hsends
      · exact Or.inl hmem
      · exact Or.inr ⟨entry, List.mem_cons_self, hsends⟩
    · exact Or.inr ⟨entry', List.mem_cons_of_mem _ hentry', hsends⟩
end OutgoingBatch.HasSent

/-- Each record is put in once, and those modified for entries are the records of items. -/
structure CKModifyRecordsOperation.WellFormed (operation : CKModifyRecordsOperation υ) : Prop where
  records : (operation.recordsToSave ++ operation.recordIDsToDelete).Nodup
  modified : ∀ recordID, recordID ∈ operation.recordIDsModified ↔
    ∃ uuid, operation.Writes uuid ∧ recordID = .item uuid

theorem nodup_insert_append {records deleted : List (CKRecordName υ)} {recordID : CKRecordName υ}
    (h : (records ++ deleted).Nodup) (hout : recordID ∉ deleted) :
    (records.insert recordID ++ deleted).Nodup := by
  rcases List.nodup_append.1 h with ⟨hrecords, hdeleted, happart⟩
  refine List.nodup_append.2 ⟨hrecords.insert, hdeleted, ?_⟩
  intro left hleft right hright heq
  rcases List.mem_insert_iff.1 hleft with rfl | hmem
  · exact hout (heq ▸ hright)
  · exact happart left hmem right hright heq

theorem foldl_insert_currentKey {records deleted : List (CKRecordName υ)}
    (h : (records ++ deleted).Nodup) (hitems : ∀ recordID ∈ deleted, ∃ uuid, recordID = .item uuid)
    (keyClasses : List CKKSKeyClass) :
    ((keyClasses.foldl (fun records keyClass => records.insert (.currentKey keyClass)) records) ++
        deleted).Nodup ∧
      ∀ uuid, .item uuid ∈ keyClasses.foldl
        (fun records keyClass => records.insert (.currentKey keyClass)) records ↔
          .item uuid ∈ records := by
  induction keyClasses generalizing records with
  | nil => exact ⟨h, fun _ => Iff.rfl⟩
  | cons keyClass keyClasses ih =>
    have hout : CKRecordName.currentKey keyClass ∉ deleted := by
      intro hmem
      rcases hitems _ hmem with ⟨uuid, heq⟩
      cases heq
    rcases ih (nodup_insert_append h hout) with ⟨hnodup, hmem⟩
    refine ⟨hnodup, fun uuid => (hmem uuid).trans ?_⟩
    rw [List.mem_insert_iff, or_iff_right]
    exact fun heq => nomatch heq

omit [DecidableEq κ] [DecidableEq τ] in
/-- The operation of a batch writes the records of the entries that it has sent. -/
theorem OutgoingBatch.HasSent.operation {view : CKKSOutgoingView υ κ τ}
    {batch : OutgoingBatch υ κ τ} {sent : List υ} (h : batch.HasSent view sent)
    (hasDeviceState : Bool) :
    (batch.operation hasDeviceState).WellFormed ∧
      ∀ uuid, (batch.operation hasDeviceState).Writes uuid ↔ uuid ∈ sent := by
  have hmem (recordID : CKRecordName υ) :
      recordID ∈ batch.recordsToSave ∨ recordID ∈ batch.recordIDsToDelete ↔
        ∃ uuid ∈ sent, .item uuid = recordID := by
    rw [← List.mem_append, h.records.mem_iff, List.mem_map]
  have hnodup : (batch.recordsToSave ++ batch.recordIDsToDelete).Nodup :=
    h.records.nodup_iff.2 (h.nodup.map fun _ _ heq => CKRecordName.item.inj heq)
  have hitems : ∀ recordID ∈ batch.recordIDsToDelete, ∃ uuid, recordID = .item uuid := by
    intro recordID hdelete
    rcases (hmem recordID).1 (Or.inr hdelete) with ⟨uuid, -, rfl⟩
    exact ⟨uuid, rfl⟩
  have hkeys := foldl_insert_currentKey hnodup hitems batch.currentKeysToSave
  have hrecords : ((batch.operation hasDeviceState).recordsToSave ++
        batch.recordIDsToDelete).Nodup ∧
      ∀ uuid, .item uuid ∈ (batch.operation hasDeviceState).recordsToSave ↔
        .item uuid ∈ batch.recordsToSave := by
    unfold OutgoingBatch.operation
    dsimp only
    cases hasDeviceState with
    | false => exact hkeys
    | true =>
      rw [if_pos rfl]
      refine ⟨nodup_insert_append hkeys.1 ?_, fun uuid => ?_⟩
      · intro hdevice
        rcases hitems _ hdevice with ⟨uuid, heq⟩
        cases heq
      · rw [List.mem_insert_iff, or_iff_right (fun heq => nomatch heq)]
        exact hkeys.2 uuid
  have hwrites (uuid : υ) : (batch.operation hasDeviceState).Writes uuid ↔ uuid ∈ sent := by
    unfold CKModifyRecordsOperation.Writes
    rw [hrecords.2]
    refine (hmem (.item uuid)).trans ?_
    constructor
    · rintro ⟨uuid', huuid', heq⟩
      cases heq
      exact huuid'
    · exact fun huuid => ⟨uuid, huuid, rfl⟩
  refine ⟨⟨hrecords.1, fun recordID => ?_⟩, hwrites⟩
  refine (h.modified recordID).trans (exists_congr fun uuid => ?_)
  rw [hwrites]
end
end SecurityFramework
