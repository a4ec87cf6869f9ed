import Mathlib.Data.List.Perm.Basic
import SecurityFramework.Library.Run
import SecurityFramework.Ckks.InFlightEntries

/-!
# Entries in flight and operations that have not completed

An entry is in flight as long as its record is part of an operation that has not completed, as long
as the statements that move it succeed and a completion names every record of its operation.
-/

namespace SecurityFramework
open OutgoingQueue

section
variable {υ κ τ : Type*} [DecidableEq υ] {queue : OutgoingQueue υ κ τ}

def CanLeave (faults : EntryFaults) : Prop :=
  faults.inflightQuery = false ∧ faults.delete = false

theorem inFlight_of_move {faults : EntryFaults} {uuid : υ} (hleave : CanLeave faults)
    {move : CKKSOutgoingQueueEntry υ κ τ → OutgoingQueue υ κ τ}
    (hmove : ∀ entry, entry.state = .inflight → ∀ uuid', (move entry).InFlight uuid' ↔
      queue.InFlight uuid' ∧ (uuid' = entry.uuid → faults.delete = true)) (uuid' : υ) :
    (match queue.inflightEntry faults uuid with
      | none => queue
      | some entry => move entry).InFlight uuid' ↔ queue.InFlight uuid' ∧ uuid' ≠ uuid := by
  cases hentry : queue.inflightEntry faults uuid with
  | none =>
    refine (and_iff_left_of_imp ?_).symm
    rintro hflight rfl
    have hsome := isSome_inflightEntry.2 ⟨hflight, hleave.1⟩
    rw [hentry] at hsome
    cases hsome
  | some entry =>
    rcases inflightEntry_eq_some hentry with ⟨rfl, hstate⟩
    refine (hmove entry hstate uuid').trans (and_congr_right fun _ => ?_)
    rw [hleave.2]
    exact imp_congr_right fun _ => Bool.false_eq_true.to_iff

theorem inFlight_modifyAllRecords {faults : υ → EntryFaults} {state : CKKSItemState}
    (hne : state ≠ .inflight) {recordIDs : List (CKRecordName υ)}
    (hleave : ∀ uuid, .item uuid ∈ recordIDs → CanLeave (faults uuid)) (uuid : υ) :
    (modifyAllRecords faults state queue recordIDs).InFlight uuid ↔
      queue.InFlight uuid ∧ .item uuid ∉ recordIDs := by
  unfold modifyAllRecords
  induction recordIDs generalizing queue with
  | nil => exact (and_iff_left List.not_mem_nil).symm
  | cons recordID recordIDs ih =>
    rw [List.foldl_cons, ih fun uuid hmem => hleave uuid (List.mem_cons_of_mem _ hmem),
      List.mem_cons, not_or, ← and_assoc]
    refine and_congr_left fun _ => ?_
    cases recordID with
    | currentKey keyClass | deviceState => exact (and_iff_left fun heq => nomatch heq).symm
    | item uuid' =>
      rw [CKRecordName.item.injEq]
      exact inFlight_of_move (hleave uuid' List.mem_cons_self)
        (fun _ hstate _ => inFlight_moveToState hstate hne) uuid

theorem inFlight_modifyRecordAsError {faults : υ → EntryFaults} {recordID : CKRecordName υ}
    (hleave : ∀ uuid, recordID = .item uuid → CanLeave (faults uuid)) (uuid : υ) :
    (modifyRecordAsError faults queue recordID).InFlight uuid ↔
      queue.InFlight uuid ∧ .item uuid ≠ recordID := by
  cases recordID with
  | currentKey keyClass | deviceState => exact (and_iff_left fun heq => nomatch heq).symm
  | item uuid' =>
    rw [ne_eq, CKRecordName.item.injEq]
    exact inFlight_of_move (hleave uuid' rfl)
      (fun _ hstate _ => inFlight_deleteFromDatabase hstate) uuid

variable {operation : CKModifyRecordsOperation υ} {faults : CompletionFaults υ}
  {completed : CompletedRecords υ κ τ}

theorem inFlight_resetFailedRecord {faults : υ → EntryFaults}
    {failed : CKRecordName υ × CKRecordError} (hnamed : ∀ uuid, .item uuid = failed.1 →
      .item uuid ∈ operation.recordIDsModified ∧ CanLeave (faults uuid)) (uuid : υ) :
    (resetFailedRecord faults operation queue failed).InFlight uuid ↔
      queue.InFlight uuid ∧ .item uuid ≠ failed.1 := by
  unfold resetFailedRecord
  split_ifs with hmodified
  · split
    · refine (inFlight_modifyAllRecords (by decide) ?_ uuid).trans ?_
      · exact fun uuid' hmem => (hnamed uuid' (List.mem_singleton.1 hmem)).2
      · rw [List.mem_singleton]
    · exact inFlight_modifyRecordAsError (fun uuid' heq => (hnamed uuid' heq.symm).2) uuid
  · refine (and_iff_left fun heq => ?_).symm
    exact hmodified (heq ▸ (hnamed uuid heq).1)

theorem inFlight_foldl_resetFailedRecord {faults : υ → EntryFaults}
    {failedRecords : List (CKRecordName υ × CKRecordError)}
    (hnamed : ∀ uuid, .item uuid ∈ failedRecords.map Prod.fst →
      .item uuid ∈ operation.recordIDsModified ∧ CanLeave (faults uuid)) (uuid : υ) :
    (failedRecords.foldl (resetFailedRecord faults operation) queue).InFlight uuid ↔
      queue.InFlight uuid ∧ .item uuid ∉ failedRecords.map Prod.fst := by
  induction failedRecords generalizing queue with
  | nil => exact (and_iff_left List.not_mem_nil).symm
  | cons failed failedRecords ih =>
    rw [List.map_cons] at hnamed
    rw [List.foldl_cons, ih fun uuid hmem => hnamed uuid (List.mem_cons_of_mem _ hmem),
      List.map_cons, List.mem_cons, not_or, ← and_assoc]
    refine and_congr_left fun _ => ?_
    exact inFlight_resetFailedRecord
      (fun uuid' heq => hnamed uuid' (heq ▸ List.mem_cons_self)) uuid

/-- A failure that names the records of the operation takes their entries out of flight. -/
theorem inFlight_modifyRecordsFailed {faults : υ → EntryFaults}
    {failedRecords : List (CKRecordName υ × CKRecordError)}
    (hnamed : ∀ uuid, .item uuid ∈ failedRecords.map Prod.fst →
      .item uuid ∈ operation.recordIDsModified ∧ CanLeave (faults uuid)) (uuid : υ) :
    (modifyRecordsFailed faults operation queue failedRecords).InFlight uuid ↔
      queue.InFlight uuid ∧ .item uuid ∉ failedRecords.map Prod.fst := by
  unfold modifyRecordsFailed
  split_ifs
  · exact inFlight_modifyAllRecords (by decide) (fun uuid hmem => (hnamed uuid hmem).2) uuid
  · exact inFlight_foldl_resetFailedRecord hnamed uuid

def savedUUIDs (savedRecords : List (CKSavedRecord υ τ)) : List υ :=
  savedRecords.filterMap fun record =>
    match record with
    | .item uuid _ => some uuid
    | _ => none

def CanFinish (faults : CompletionFaults υ) (uuid : υ) : Prop :=
  CanLeave (faults.entry uuid) ∧ (faults.entry uuid).mirrorQuery = false ∧
    faults.mirrorSave uuid = false

theorem finishEntry_spec {uuid : υ} (hfinish : CanFinish faults uuid)
    (hflight : queue.InFlight uuid) :
    (finishEntry faults uuid queue).2 = false ∧
      ∀ uuid', (finishEntry faults uuid queue).1.InFlight uuid' ↔
        queue.InFlight uuid' ∧ uuid' ≠ uuid := by
  have hsome := isSome_inflightEntry.2 ⟨hflight, hfinish.1.1⟩
  rcases Option.isSome_iff_exists.1 hsome with ⟨entry, hentry⟩
  rcases inflightEntry_eq_some hentry with ⟨heq, hstate⟩
  have hfinished : finishEntry faults uuid queue =
      queue.moveToState entry (faults.entry uuid) .deleted := by
    unfold finishEntry
    rw [hentry]
  rw [hfinished]
  constructor
  · unfold moveToState deleteFromDatabase
    rw [if_pos rfl, if_neg (by rw [hfinish.1.2]; exact Bool.false_ne_true)]
  · intro uuid'
    refine (inFlight_moveToState hstate (by decide)).trans (and_congr_right fun _ => ?_)
    rw [hfinish.1.2, heq]
    exact imp_congr_right fun _ => Bool.false_eq_true.to_iff

structure Finished (queue : OutgoingQueue υ κ τ) (uuids : List υ)
    (completed : CompletedRecords υ κ τ) : Prop where
  ok : completed.2.2 = false
  inFlight : ∀ uuid, completed.1.InFlight uuid ↔ queue.InFlight uuid ∧ uuid ∉ uuids

theorem Finished.finish {uuids : List υ} (h : Finished queue uuids completed) {uuid : υ}
    (hfinish : CanFinish faults uuid) (hflight : queue.InFlight uuid) (hout : uuid ∉ uuids) :
    (finishEntry faults uuid completed.1).2 = false ∧
      ∀ uuid', (finishEntry faults uuid completed.1).1.InFlight uuid' ↔
        queue.InFlight uuid' ∧ uuid' ∉ uuids ++ [uuid] := by
  have hspec := finishEntry_spec hfinish ((h.inFlight uuid).2 ⟨hflight, hout⟩)
  refine ⟨hspec.1, fun uuid' => ?_⟩
  rw [hspec.2, h.inFlight, List.mem_append, not_or, List.mem_singleton, and_assoc]

theorem finished_foldl_finishSave (hrecord : faults.recordSave = false) {uuids : List υ}
    (h : Finished queue uuids completed) {savedRecords : List (CKSavedRecord υ τ)}
    (hnodup : (uuids ++ savedUUIDs savedRecords).Nodup)
    (hfinish : ∀ uuid ∈ savedUUIDs savedRecords, CanFinish faults uuid ∧ queue.InFlight uuid) :
    Finished queue (uuids ++ savedUUIDs savedRecords)
      (savedRecords.foldl (finishSave faults) completed) := by
  induction savedRecords generalizing completed uuids with
  | nil =>
    have hnil : uuids ++ savedUUIDs ([] : List (CKSavedRecord υ τ)) = uuids := List.append_nil _
    rw [hnil]
    exact h
  | cons record savedRecords ih =>
    rcases completed with ⟨rows, mirror, viewError⟩
    have herror : viewError = false := h.ok
    cases record with
    | item uuid recordChangeTag =>
      have hcons : uuids ++ savedUUIDs (.item uuid recordChangeTag :: savedRecords) =
          uuids ++ [uuid] ++ savedUUIDs savedRecords :=
        List.append_cons uuids uuid (savedUUIDs savedRecords)
      rw [hcons] at hnodup ⊢
      have hout : uuid ∉ uuids := by
        intro hmem
        have hleft := (List.nodup_append.1 hnodup).1
        exact (List.nodup_append.1 hleft).2.2 uuid hmem uuid (List.mem_singleton_self _) rfl
      rcases List.forall_mem_cons.1 hfinish with ⟨hthis, hrest⟩
      have hspec := h.finish hthis.1 hthis.2 hout
      apply ih _ hnodup hrest
      unfold finishSave
      dsimp only
      rw [if_neg (by rw [hthis.1.2.2]; exact Bool.false_ne_true)]
      exact ⟨by rw [herror]; exact hspec.1, hspec.2⟩
    | currentKey keyClass | deviceState =>
      exact ih ⟨by change (viewError || faults.recordSave) = false; rw [herror, hrecord]; rfl,
        h.inFlight⟩ hnodup hfinish

theorem finished_foldl_finishDelete {uuids : List υ} (h : Finished queue uuids completed)
    {deleted : List υ} (hnodup : (uuids ++ deleted).Nodup)
    (hfinish : ∀ uuid ∈ deleted, CanFinish faults uuid ∧ queue.InFlight uuid) :
    Finished queue (uuids ++ deleted)
      ((deleted.map CKRecordName.item).foldl (finishDelete faults) completed) := by
  induction deleted generalizing completed uuids with
  | nil =>
    rw [List.append_nil]
    exact h
  | cons uuid deleted ih =>
    rcases completed with ⟨rows, mirror, viewError⟩
    have herror : viewError = false := h.ok
    rw [List.append_cons] at hnodup ⊢
    have hout : uuid ∉ uuids := by
      intro hmem
      have hleft := (List.nodup_append.1 hnodup).1
      exact (List.nodup_append.1 hleft).2.2 uuid hmem uuid (List.mem_singleton_self _) rfl
    rcases List.forall_mem_cons.1 hfinish with ⟨hthis, hrest⟩
    have hspec := h.finish hthis.1 hthis.2 hout
    apply ih _ hnodup hrest
    unfold finishDelete
    dsimp only
    rw [hthis.1.2.1, hthis.1.2.2, Bool.and_false, Bool.or_false, if_neg Bool.false_ne_true]
    exact ⟨by rw [herror]; exact hspec.1, hspec.2⟩

theorem keyed_modifyAllRecords (h : queue.Keyed)
    (faults : υ → EntryFaults) (state : CKKSItemState) (recordIDs : List (CKRecordName υ)) :
    (modifyAllRecords faults state queue recordIDs).Keyed := by
  unfold modifyAllRecords
  apply List.foldlRecOn _ _ h
  intro queue hqueue recordID _
  cases recordID with
  | currentKey keyClass | deviceState => exact hqueue
  | item uuid =>
    dsimp only
    split
    · exact hqueue
    · exact hqueue.moveToState _ _ _

theorem keyed_modifyRecordAsError (h : queue.Keyed)
    (faults : υ → EntryFaults) (recordID : CKRecordName υ) :
    (modifyRecordAsError faults queue recordID).Keyed := by
  unfold modifyRecordAsError
  split
  · exact h
  · exact h
  · split
    · exact h
    · exact h.markAsError _ _

theorem keyed_modifyRecordsFailed (h : queue.Keyed)
    (faults : υ → EntryFaults) (operation : CKModifyRecordsOperation υ)
    (failedRecords : List (CKRecordName υ × CKRecordError)) :
    (modifyRecordsFailed faults operation queue failedRecords).Keyed := by
  unfold modifyRecordsFailed
  split_ifs
  · exact keyed_modifyAllRecords h faults .reencrypt _
  · apply List.foldlRecOn _ _ h
    intro queue hqueue failed _
    unfold resetFailedRecord
    split_ifs
    · split
      · exact keyed_modifyAllRecords hqueue faults .new _
      · exact keyed_modifyRecordAsError hqueue faults failed.1
    · exact hqueue

theorem keyed_finishEntry (h : queue.Keyed)
    (faults : CompletionFaults υ) (uuid : υ) : (finishEntry faults uuid queue).1.Keyed := by
  unfold finishEntry
  split
  · exact h
  · exact h.moveToState _ _ _

theorem keyed_finishSave (h : completed.1.Keyed) (faults : CompletionFaults υ)
    (record : CKSavedRecord υ τ) :
    (finishSave faults completed record).1.Keyed := by
  rcases completed with ⟨queue, mirror, viewError⟩
  cases record with
  | item uuid recordChangeTag =>
    unfold finishSave
    dsimp only
    split_ifs
    · exact keyed_finishEntry h faults uuid
    · exact keyed_finishEntry h faults uuid
  | currentKey keyClass => exact h
  | deviceState => exact h

theorem keyed_finishDelete (h : completed.1.Keyed) (faults : CompletionFaults υ)
    (recordID : CKRecordName υ) :
    (finishDelete faults completed recordID).1.Keyed := by
  rcases completed with ⟨queue, mirror, viewError⟩
  cases recordID with
  | item uuid =>
    unfold finishDelete
    dsimp only
    split_ifs
    · exact keyed_finishEntry h faults uuid
    · exact keyed_finishEntry h faults uuid
  | currentKey keyClass => exact h
  | deviceState => exact h

theorem keyed_modifyRecordsSaved (h : queue.Keyed) {mirror : υ → Option (Option τ)}
    {savedRecords : List (CKSavedRecord υ τ)} {deletedRecordIDs : List (CKRecordName υ)}
    {saved : OutgoingQueue υ κ τ × (υ → Option (Option τ))}
    (hsaved : modifyRecordsSaved faults queue mirror savedRecords deletedRecordIDs = some saved) :
    saved.1.Keyed := by
  unfold modifyRecordsSaved at hsaved
  dsimp only at hsaved
  split_ifs at hsaved
  cases hsaved
  have hstart : (savedRecords.foldl (finishSave faults) (queue, mirror, false)).1.Keyed :=
    List.foldlRecOn (motive := fun (completed : CompletedRecords υ κ τ) => completed.1.Keyed)
      savedRecords _ h fun _ hcompleted record _ => keyed_finishSave hcompleted faults record
  exact List.foldlRecOn (motive := fun (completed : CompletedRecords υ κ τ) => completed.1.Keyed)
    deletedRecordIDs _ hstart
      fun _ hcompleted recordID _ => keyed_finishDelete hcompleted faults recordID
end

/-- What happens to a view: passes, completions, changes of entries that are not in flight by the
rest of the view, and the end of the process and what follows it. -/
inductive OutgoingEvent (υ κ τ : Type*) where
  | pass (pass : OutgoingPass υ)
  | completes (index : Nat) (faults : CompletionFaults υ) (completion : CKModifyCompletion υ τ)
  | changes (queue : OutgoingQueue υ κ τ) (mirror : υ → Option (Option τ))
      (currentKeys : CKKSKeyClass → Option κ)
  | dies
  | resetsInFlight (faults : υ → EntryFaults)
  | resetsLocally

namespace CKKSOutgoingView
section
variable {υ κ τ : Type*} {view view' : CKKSOutgoingView υ κ τ}
  {operation : CKModifyRecordsOperation υ}

def outstanding (view : CKKSOutgoingView υ κ τ) : List (CKModifyRecordsOperation υ) :=
  view.operations ++ view.died

/-- Each record is in one operation once, no UUID is written by two operations, and the entries in
flight are those of the operations. -/
structure Disciplined (view : CKKSOutgoingView υ κ τ) : Prop where
  keyed : view.queue.Keyed
  wellFormed : ∀ operation ∈ view.outstanding, operation.WellFormed
  once : view.outstanding.Pairwise fun left right =>
    ∀ uuid, ¬(left.Writes uuid ∧ right.Writes uuid)
  inFlight : ∀ uuid, view.queue.InFlight uuid ↔
    ∃ operation ∈ view.outstanding, operation.Writes uuid

structure AtRest (view : CKKSOutgoingView υ κ τ) : Prop where
  keyed : view.queue.Keyed
  inFlight : ∀ uuid, ¬view.queue.InFlight uuid
  outstanding : view.outstanding = []

theorem AtRest.disciplined (h : view.AtRest) :
    view.Disciplined where
  keyed := h.keyed
  wellFormed := by
    rw [h.outstanding]
    exact fun _ hmem => absurd hmem List.not_mem_nil
  once := by
    rw [h.outstanding]
    exact List.Pairwise.nil
  inFlight uuid := by
    rw [h.outstanding]
    exact iff_of_false (h.inFlight uuid) fun ⟨_, hmem, _⟩ => List.not_mem_nil hmem

theorem apart_symm {left right : CKModifyRecordsOperation υ}
    (h : ∀ uuid, ¬(left.Writes uuid ∧ right.Writes uuid)) (uuid : υ) :
    ¬(right.Writes uuid ∧ left.Writes uuid) :=
  fun hboth => h uuid hboth.symm

theorem Disciplined.of_perm (h : view.Disciplined) (hkeyed : view'.queue.Keyed)
    (hinFlight : ∀ uuid, view'.queue.InFlight uuid ↔ view.queue.InFlight uuid)
    (hperm : view'.outstanding.Perm view.outstanding) : view'.Disciplined where
  keyed := hkeyed
  wellFormed operation hmem := h.wellFormed operation (hperm.subset hmem)
  once := (hperm.pairwise_iff apart_symm).2 h.once
  inFlight uuid := by
    rw [hinFlight, h.inFlight]
    exact exists_congr fun operation => and_congr_left fun _ => hperm.mem_iff.symm

theorem Disciplined.add (h : view.Disciplined) (hkeyed : view'.queue.Keyed)
    (hwellFormed : operation.WellFormed)
    (hfresh : ∀ uuid, operation.Writes uuid → ¬view.queue.InFlight uuid)
    (hinFlight : ∀ uuid, view'.queue.InFlight uuid ↔
      view.queue.InFlight uuid ∨ operation.Writes uuid)
    (hperm : view'.outstanding.Perm (operation :: view.outstanding)) : view'.Disciplined where
  keyed := hkeyed
  wellFormed other hmem := by
    rcases List.mem_cons.1 (hperm.subset hmem) with rfl | hmem
    · exact hwellFormed
    · exact h.wellFormed other hmem
  once := by
    refine (hperm.pairwise_iff apart_symm).2 (List.pairwise_cons.2 ⟨?_, h.once⟩)
    intro other hother uuid hboth
    exact hfresh uuid hboth.1 ((h.inFlight uuid).2 ⟨other, hother, hboth.2⟩)
  inFlight uuid := by
    have hmem (other : CKModifyRecordsOperation υ) :
        other ∈ view'.outstanding ↔ other ∈ operation :: view.outstanding := hperm.mem_iff
    simp only [hmem]
    rw [List.exists_mem_cons_iff, hinFlight, h.inFlight, or_comm]

theorem Disciplined.remove (h : view.Disciplined) (hkeyed : view'.queue.Keyed)
    (hinFlight : ∀ uuid, view'.queue.InFlight uuid ↔
      view.queue.InFlight uuid ∧ ¬operation.Writes uuid)
    (hperm : view.outstanding.Perm (operation :: view'.outstanding)) : view'.Disciplined where
  keyed := hkeyed
  wellFormed other hmem := h.wellFormed other (hperm.symm.subset (List.mem_cons_of_mem _ hmem))
  once := (List.pairwise_cons.1 ((hperm.pairwise_iff apart_symm).1 h.once)).2
  inFlight uuid := by
    have hapart := (List.pairwise_cons.1 ((hperm.pairwise_iff apart_symm).1 h.once)).1
    have hmem (other : CKModifyRecordsOperation υ) :
        other ∈ view.outstanding ↔ other ∈ operation :: view'.outstanding := hperm.mem_iff
    rw [hinFlight, h.inFlight]
    simp only [hmem]
    rw [List.exists_mem_cons_iff]
    constructor
    · rintro ⟨hwrites | hother, hnot⟩
      · exact absurd hwrites hnot
      · exact hother
    · rintro ⟨other, hother, hwrites⟩
      exact ⟨Or.inr ⟨other, hother, hwrites⟩, fun hthis => hapart other hother uuid ⟨hthis, hwrites⟩⟩
end

section
variable {υ κ τ : Type*} [DecidableEq υ] [DecidableEq κ] [DecidableEq τ]

def inflightRows (queue : OutgoingQueue υ κ τ) : OutgoingQueue υ κ τ :=
  queue.filter fun entry => entry.state = .inflight

def step (view : CKKSOutgoingView υ κ τ) : OutgoingEvent υ κ τ → Option (CKKSOutgoingView υ κ τ)
  | .pass pass => some (view.groupStart pass)
  | .completes index faults completion =>
    match view.operations[index]? with
    | none => none
    | some operation => some (view.modifyRecordsCompleted index operation faults completion)
  | .changes queue mirror currentKeys =>
    if inflightRows queue = inflightRows view.queue ∧
        (queue.map fun entry => (entry.uuid, entry.state)).Nodup then
      some (((view.setQueue queue).setMirror mirror).setCurrentKeys currentKeys)
    else none
  | .dies => some view.dies
  | .resetsInFlight faults => some (view.resetAllInflightOQE faults)
  | .resetsLocally => some view.localReset

/-- What a completion says about the records of an operation, and what may not fail with it. -/
def Handled (operation : CKModifyRecordsOperation υ) (faults : CompletionFaults υ) :
    CKModifyCompletion υ τ → Prop
  | .saved savedRecords deletedRecordIDs =>
    faults.recordSave = false ∧ (∀ uuid, operation.Writes uuid → CanFinish faults uuid) ∧
      ∃ deleted, deletedRecordIDs = deleted.map CKRecordName.item ∧
        (savedUUIDs savedRecords ++ deleted).Nodup ∧
          ∀ uuid, uuid ∈ savedUUIDs savedRecords ++ deleted ↔ operation.Writes uuid
  | .partialFailure failedRecords =>
    ∀ uuid, (.item uuid ∈ failedRecords.map Prod.fst ↔ operation.Writes uuid) ∧
      (operation.Writes uuid → CanLeave (faults.entry uuid))
  | .failure => ∀ uuid, operation.Writes uuid → CanLeave (faults.entry uuid)

/-- An event in which no statement fails that puts an entry in flight or takes it out, a completion
names each record of its operation, and entries are only reset where no operation of the process is
left. -/
def Careful (view : CKKSOutgoingView υ κ τ) : OutgoingEvent υ κ τ → Prop
  | .pass pass =>
    (∀ entry ∈ ontransactionFetchEntries view.queue pass, SentSafely view pass.faults entry) ∧
      (pass.commitFails = false ∨ ∀ entry ∈ ontransactionFetchEntries view.queue pass,
        ¬Sends view pass.faults entry)
  | .completes index faults completion =>
    ∀ operation ∈ view.operations[index]?, faults.commitFails = false ∧
      Handled operation faults completion
  | .changes _ _ _ | .dies => True
  | .resetsInFlight faults =>
    view.operations = [] ∧ ∀ uuid, view.queue.InFlight uuid → faults uuid = EntryFaults.none
  | .resetsLocally => view.operations = []

section
variable {view : CKKSOutgoingView υ κ τ} {operation : CKModifyRecordsOperation υ}

omit [DecidableEq υ] [DecidableEq κ] [DecidableEq τ] in
theorem hasSent_nil_iff {batch : OutgoingBatch υ κ τ} {sent : List υ}
    (h : batch.HasSent view sent) :
    sent = [] ↔ batch.recordsToSave.isEmpty ∧ batch.recordIDsToDelete.isEmpty := by
  rw [List.isEmpty_iff, List.isEmpty_iff, ← List.append_eq_nil_iff]
  constructor
  · rintro rfl
    exact List.Perm.eq_nil h.records
  · intro hnil
    have hperm := h.records
    rw [hnil] at hperm
    exact List.map_eq_nil_iff.1 hperm.symm.eq_nil

theorem Disciplined.groupStart (h : view.Disciplined) {pass : OutgoingPass υ}
    (hcareful : view.Careful (.pass pass)) : (view.groupStart pass).Disciplined := by
  by_cases hfails : pass.fetchFails ∨ pass.currentKeyFails
  · have hview : view.groupStart pass = view := if_pos hfails
    rw [hview]
    exact h
  rcases (OutgoingBatch.HasSent.start h.keyed).foldl
    (fetched_ontransactionFetchEntries h.keyed pass)
    (fun _ _ => List.not_mem_nil) hcareful.1 with ⟨sent, hsent, hfold⟩
  have hbatch : (view.batch pass).HasSent view sent := hfold
  have hnil := hasSent_nil_iff hbatch
  have hpass : view.groupStart pass =
      if (view.batch pass).recordsToSave.isEmpty ∧ (view.batch pass).recordIDsToDelete.isEmpty then
        if pass.commitFails then view else view.setQueue (view.batch pass).queue
      else (if pass.commitFails then view else view.setQueue (view.batch pass).queue).setOperations
        (view.operations ++ [(view.batch pass).operation pass.hasDeviceState]) := if_neg hfails
  rw [hpass]
  by_cases hempty : sent = []
  · rw [if_pos (hnil.1 hempty)]
    split_ifs
    · exact h
    · have hperm : (view.setQueue (view.batch pass).queue).outstanding.Perm view.outstanding :=
        List.Perm.refl _
      apply h.of_perm hbatch.keyed _ hperm
      intro uuid
      refine (hbatch.inFlight uuid).trans (or_iff_left ?_)
      rw [hempty]
      exact List.not_mem_nil
  · have hcommit : ¬pass.commitFails = true := by
      intro hfail
      rcases hcareful.2 with hok | hnone
      · rw [hok] at hfail
        cases hfail
      · rcases List.exists_mem_of_ne_nil sent hempty with ⟨uuid, huuid⟩
        rcases hsent uuid huuid with hmem | ⟨entry, hentry, -, hsends⟩
        · exact List.not_mem_nil hmem
        · exact hnone entry hentry hsends
    rw [if_neg fun hnone => hempty (hnil.2 hnone), if_neg hcommit]
    have hoperation := hbatch.operation pass.hasDeviceState
    apply h.add hbatch.keyed hoperation.1
    · intro uuid hwrites
      exact hbatch.fresh uuid ((hoperation.2 uuid).1 hwrites)
    · intro uuid
      rw [hoperation.2]
      exact hbatch.inFlight uuid
    · change (view.operations ++ [_] ++ view.died).Perm (_ :: (view.operations ++ view.died))
      rw [List.append_assoc]
      exact List.perm_middle

omit [DecidableEq κ] [DecidableEq τ] in
theorem keyed_completeTransaction (h : view.queue.Keyed) (faults : CompletionFaults υ)
    (completion : CKModifyCompletion υ τ) :
    (view.completeTransaction operation faults completion).queue.Keyed := by
  cases completion with
  | partialFailure failedRecords => exact keyed_modifyRecordsFailed h faults.entry operation _
  | failure => exact keyed_modifyAllRecords h faults.entry .new _
  | saved savedRecords deletedRecordIDs =>
    unfold completeTransaction
    dsimp only
    split
    · exact h
    · rename_i queue mirror hsaved
      exact keyed_modifyRecordsSaved h hsaved

variable {completion : CKModifyCompletion υ τ} {faults : CompletionFaults υ}

omit [DecidableEq κ] [DecidableEq τ] in
/-- A completion that names the records of its operation takes their entries out of flight. -/
theorem inFlight_completeTransaction (hwellFormed : operation.WellFormed)
    (hall : ∀ uuid, operation.Writes uuid → view.queue.InFlight uuid)
    (hhandled : Handled operation faults completion) (uuid : υ) :
    (view.completeTransaction operation faults completion).queue.InFlight uuid ↔
      view.queue.InFlight uuid ∧ ¬operation.Writes uuid := by
  have hmodified (uuid : υ) :
      .item uuid ∈ operation.recordIDsModified ↔ operation.Writes uuid := by
    rw [hwellFormed.modified]
    constructor
    · rintro ⟨uuid', hwrites, heq⟩
      cases heq
      exact hwrites
    · exact fun hwrites => ⟨uuid, hwrites, rfl⟩
  cases completion with
  | failure =>
    refine (inFlight_modifyAllRecords (by decide) ?_ uuid).trans ?_
    · exact fun uuid' hmem => hhandled uuid' ((hmodified uuid').1 hmem)
    · rw [hmodified]
  | partialFailure failedRecords =>
    refine (inFlight_modifyRecordsFailed ?_ uuid).trans ?_
    · intro uuid' hmem
      have hwrites := (hhandled uuid').1.1 hmem
      exact ⟨(hmodified uuid').2 hwrites, (hhandled uuid').2 hwrites⟩
    · rw [(hhandled uuid).1]
  | saved savedRecords deletedRecordIDs =>
    rcases hhandled with ⟨hrecord, hfinish, deleted, rfl, hnodup, hmem⟩
    have hready (uuid' : υ) (hin : uuid' ∈ savedUUIDs savedRecords ++ deleted) :
        CanFinish faults uuid' ∧ view.queue.InFlight uuid' :=
      ⟨hfinish uuid' ((hmem uuid').1 hin), hall uuid' ((hmem uuid').1 hin)⟩
    have hstart : Finished view.queue [] (view.queue, view.mirror, false) :=
      ⟨rfl, fun _ => (and_iff_left List.not_mem_nil).symm⟩
    have hsaved := finished_foldl_finishSave hrecord hstart
      (List.nodup_append.1 hnodup).1 fun uuid' hin => hready uuid' (List.mem_append_left _ hin)
    have hdeleted := finished_foldl_finishDelete hsaved hnodup
      fun uuid' hin => hready uuid' (List.mem_append_right _ hin)
    unfold completeTransaction modifyRecordsSaved
    dsimp only
    rw [if_neg (by rw [hdeleted.ok]; exact Bool.false_ne_true)]
    refine (hdeleted.inFlight uuid).trans ?_
    rw [List.nil_append, hmem]

omit [DecidableEq κ] [DecidableEq τ] in
theorem died_modifyRecordsCompleted {index : Nat} :
    (view.modifyRecordsCompleted index operation faults completion).died = view.died := by
  unfold CKKSOutgoingView.modifyRecordsCompleted
  dsimp only
  split_ifs
  · rfl
  · cases completion with
    | partialFailure failedRecords => rfl
    | failure => rfl
    | saved savedRecords deletedRecordIDs =>
      unfold completeTransaction
      dsimp only
      split
      · rfl
      · rfl

/-- A completion takes its operation and the entries of it out together. -/
theorem Disciplined.modifyRecordsCompleted (h : view.Disciplined) {index : Nat}
    (hoperation : view.operations[index]? = some operation) (hcommit : faults.commitFails = false)
    (hhandled : Handled operation faults completion) :
    (view.modifyRecordsCompleted index operation faults completion).Disciplined ∧
      ∀ uuid, operation.Writes uuid →
        ¬(view.modifyRecordsCompleted index operation faults completion).queue.InFlight uuid := by
  rcases List.getElem?_eq_some_iff.1 hoperation with ⟨hindex, hget⟩
  have hmem : operation ∈ view.outstanding :=
    List.mem_append_left _ (hget ▸ List.getElem_mem hindex)
  have hqueue : (view.modifyRecordsCompleted index operation faults completion).queue =
      (view.completeTransaction operation faults completion).queue := by
    unfold CKKSOutgoingView.modifyRecordsCompleted
    rw [hcommit]
    rfl
  have hinFlight (uuid : υ) :
      (view.modifyRecordsCompleted index operation faults completion).queue.InFlight uuid ↔
        view.queue.InFlight uuid ∧ ¬operation.Writes uuid := by
    rw [hqueue]
    exact inFlight_completeTransaction (h.wellFormed operation hmem)
      (fun uuid hwrites => (h.inFlight uuid).2 ⟨operation, hmem, hwrites⟩) hhandled uuid
  refine ⟨?_, fun uuid hwrites hflight => ((hinFlight uuid).1 hflight).2 hwrites⟩
  have hkeyed : (view.modifyRecordsCompleted index operation faults completion).queue.Keyed := by
    rw [hqueue]
    exact keyed_completeTransaction h.keyed faults completion
  apply h.remove hkeyed hinFlight
  have hdied : (view.modifyRecordsCompleted index operation faults completion).died = view.died :=
    died_modifyRecordsCompleted
  change (view.operations ++ view.died).Perm (operation :: (view.operations.eraseIdx index ++ _))
  rw [hdied, ← List.cons_append, ← hget]
  exact (List.getElem_cons_eraseIdx_perm hindex).symm.append_right _

omit [DecidableEq κ] [DecidableEq τ] in
theorem resetEntries_spec {faults : υ → EntryFaults} {queue entries : OutgoingQueue υ κ τ}
    (h : queue.Keyed) (hstate : ∀ entry ∈ entries, entry.state = .inflight)
    (hfaults : ∀ entry ∈ entries, faults entry.uuid = EntryFaults.none) :
    (resetEntries faults queue entries).2 = true ∧
      (resetEntries faults queue entries).1.Keyed ∧
        ∀ uuid, (resetEntries faults queue entries).1.InFlight uuid ↔
          queue.InFlight uuid ∧ uuid ∉ entries.map fun entry => entry.uuid := by
  induction entries generalizing queue with
  | nil => exact ⟨rfl, h, fun _ => (and_iff_left List.not_mem_nil).symm⟩
  | cons entry entries ih =>
    rcases List.forall_mem_cons.1 hstate with ⟨hinflight, hstate⟩
    rcases List.forall_mem_cons.1 hfaults with ⟨hnone, hfaults⟩
    have hmoved (uuid : υ) :
        (queue.moveToState entry (faults entry.uuid) .new).1.InFlight uuid ↔
          queue.InFlight uuid ∧ uuid ≠ entry.uuid := by
      refine (inFlight_moveToState hinflight (by decide)).trans (and_congr_right fun _ => ?_)
      rw [hnone]
      exact imp_congr_right fun _ => Bool.false_eq_true.to_iff
    have hok : (queue.moveToState entry (faults entry.uuid) .new).2 = false := by
      rw [hnone]
      unfold moveToState deleteFromDatabase saveAs EntryFaults.none
      split_ifs <;> simp_all
    have hnext := ih (h.moveToState entry (faults entry.uuid) .new) hstate hfaults
    unfold resetEntries
    dsimp only
    rw [hok, if_neg Bool.false_ne_true]
    refine ⟨hnext.1, hnext.2.1, fun uuid => ?_⟩
    rw [hnext.2.2, hmoved, List.map_cons, List.mem_cons, not_or, and_assoc]

theorem Disciplined.resetAllInflightOQE (h : view.Disciplined) {faults : υ → EntryFaults}
    (hcareful : view.Careful (.resetsInFlight faults)) :
    (view.resetAllInflightOQE faults).Disciplined := by
  have hstate : ∀ entry ∈ view.queue.filter (fun entry => entry.state = .inflight),
      entry ∈ view.queue ∧ entry.state = .inflight := fun entry hentry =>
    ⟨(List.mem_filter.1 hentry).1, of_decide_eq_true (List.mem_filter.1 hentry).2⟩
  rcases resetEntries_spec h.keyed (fun entry hentry => (hstate entry hentry).2)
    (fun entry hentry => hcareful.2 entry.uuid
      ⟨entry, (hstate entry hentry).1, rfl, (hstate entry hentry).2⟩) with
    ⟨hok, hkeyed, hinFlight⟩
  unfold CKKSOutgoingView.resetAllInflightOQE
  dsimp only
  rw [if_pos hok]
  apply AtRest.disciplined
  refine ⟨hkeyed, fun uuid hflight => ?_, ?_⟩
  · rcases (hinFlight uuid).1 hflight with ⟨⟨entry, hentry, rfl, hentryState⟩, hout⟩
    exact hout (List.mem_map_of_mem
      (List.mem_filter.2 ⟨hentry, decide_eq_true hentryState⟩))
  · change view.operations ++ [] = []
    rw [hcareful.1]
    rfl

omit [DecidableEq υ] [DecidableEq κ] [DecidableEq τ] in
theorem inFlight_iff_inflightRows {queue : OutgoingQueue υ κ τ} {uuid : υ} :
    queue.InFlight uuid ↔ ∃ entry ∈ inflightRows queue, entry.uuid = uuid := by
  unfold inflightRows InFlight
  simp only [List.mem_filter, decide_eq_true_eq, and_assoc, and_comm]

theorem Disciplined.step (h : view.Disciplined) {event : OutgoingEvent υ κ τ}
    {view' : CKKSOutgoingView υ κ τ} (hcareful : view.Careful event)
    (hstep : view.step event = some view') : view'.Disciplined := by
  cases event with
  | pass pass =>
    cases hstep
    exact h.groupStart hcareful
  | completes index faults completion =>
    change (match view.operations[index]? with
      | none => none
      | some operation => some (view.modifyRecordsCompleted index operation faults completion)) =
        some view' at hstep
    cases hoperation : view.operations[index]? with
    | none =>
      rw [hoperation] at hstep
      cases hstep
    | some operation =>
      rw [hoperation] at hstep
      cases hstep
      have hhandled := hcareful operation hoperation
      exact (h.modifyRecordsCompleted hoperation hhandled.1 hhandled.2).1
  | changes queue mirror currentKeys =>
    unfold CKKSOutgoingView.step at hstep
    dsimp only at hstep
    split_ifs at hstep with hrows
    cases hstep
    have hinFlight (uuid : υ) : queue.InFlight uuid ↔ view.queue.InFlight uuid := by
      rw [inFlight_iff_inflightRows, inFlight_iff_inflightRows, hrows.1]
    exact ⟨hrows.2, h.wellFormed, h.once, fun uuid => (hinFlight uuid).trans (h.inFlight uuid)⟩
  | dies =>
    cases hstep
    have hdied : view.dies.outstanding = view.died ++ view.operations := rfl
    have hperm : view.dies.outstanding.Perm view.outstanding := by
      rw [hdied]
      exact List.perm_append_comm
    exact Disciplined.of_perm h h.keyed (fun _ => Iff.rfl) hperm
  | resetsInFlight faults =>
    cases hstep
    exact h.resetAllInflightOQE hcareful
  | resetsLocally =>
    cases hstep
    apply AtRest.disciplined
    refine ⟨List.nodup_nil, fun _ ⟨_, hmem, _⟩ => List.not_mem_nil hmem, ?_⟩
    change view.operations ++ [] = []
    rw [show view.operations = [] from hcareful]
    rfl

/-- In a run of careful events, each record is in one operation once, no UUID is written by two
operations, and an entry is in flight exactly as long as one of them writes its record. Each
completion takes the entries of its operation out of flight. -/
theorem disciplined_of_run {events : List (OutgoingEvent υ κ τ)} {view' : CKKSOutgoingView υ κ τ}
    (hrest : view.AtRest) (hrun : Run step Careful view events view') :
    view'.Disciplined ∧ ∀ index faults completion operation,
      view'.operations[index]? = some operation →
        view'.Careful (.completes index faults completion) → ∀ uuid, operation.Writes uuid →
          ¬(view'.modifyRecordsCompleted index operation faults completion).queue.InFlight
            uuid := by
  have h : view'.Disciplined := by
    refine Run.invariant Disciplined ?_ hrun hrest.disciplined
    exact fun _ _ _ hdisciplined hcareful hstep => hdisciplined.step hcareful hstep
  refine ⟨h, fun index faults completion operation hoperation hcareful => ?_⟩
  have hhandled := hcareful operation hoperation
  exact (h.modifyRecordsCompleted hoperation hhandled.1 hhandled.2).2
end
end

def oneEntry : CKKSOutgoingView Nat Nat Nat where
  queue := [⟨0, .add, .new, 7, none⟩]
  mirror _ := none
  currentKeys
    | .classA => some 7
    | .classC => some 8
  operations := []
  died := []

def plainPass (faults : EntryFaults) : OutgoingPass Nat where
  priorityUUIDs := []
  nodup_priorityUUIDs := List.nodup_nil
  priorityQueryFails _ := false
  fetchFails := false
  currentKeyFails := false
  hasDeviceState := true
  faults _ := faults
  commitFails := false

def noFaults : CompletionFaults Nat where
  entry _ := EntryFaults.none
  mirrorSave _ := false
  recordSave := false
  commitFails := false

theorem oneEntry_atRest : oneEntry.AtRest where
  keyed := List.nodup_singleton _
  inFlight := by
    rintro uuid ⟨entry, hentry, -, hstate⟩
    rw [List.mem_singleton.1 hentry] at hstate
    cases hstate
  outstanding := rfl

theorem disciplined_of_run_failure :
    ∃ view, Run step Careful oneEntry
      [.pass (plainPass EntryFaults.none), .completes 0 noFaults .failure] view ∧
        view.Disciplined := by
  have hrun : ∃ view, Run step Careful oneEntry
      [.pass (plainPass EntryFaults.none), .completes 0 noFaults .failure] view := by
    apply Exists.intro
    refine Run.cons_get ?_ rfl <| Run.cons_get ?_ (by decide +kernel) <| Run.nil _
    · exact ⟨fun _ _ => ⟨fun _ => rfl, fun _ => ⟨rfl, rfl⟩⟩, Or.inl rfl⟩
    · exact fun _ _ => ⟨rfl, fun _ _ => ⟨rfl, rfl⟩⟩
  rcases hrun with ⟨view, hrun⟩
  exact ⟨view, hrun, (disciplined_of_run oneEntry_atRest hrun).1⟩

/-- The new row cannot be deleted: the record is sent, and the entry is not in flight. -/
theorem sent_not_inFlight :
    ¬∀ (events : List (OutgoingEvent Nat Nat Nat)) (view : CKKSOutgoingView Nat Nat Nat),
      Run step (fun _ _ => True) oneEntry events view → view.Disciplined := by
  intro hclaim
  have hrun : Run step (fun _ _ => True) oneEntry
      [.pass (plainPass ⟨false, false, false, true, false⟩)]
      (oneEntry.groupStart (plainPass ⟨false, false, false, true, false⟩)) :=
    Run.cons trivial rfl (Run.nil _)
  have hdisciplined := hclaim _ _ hrun
  have hwrites : ∃ operation ∈
      (oneEntry.groupStart (plainPass ⟨false, false, false, true, false⟩)).outstanding,
      .item 0 ∈ operation.recordsToSave := by decide +kernel
  rcases hwrites with ⟨operation, hmem, hsave⟩
  rcases (hdisciplined.inFlight 0).2 ⟨operation, hmem, Or.inl hsave⟩ with
    ⟨entry, hentry, -, hstate⟩
  have hnew : ∀ entry ∈
      (oneEntry.groupStart (plainPass ⟨false, false, false, true, false⟩)).queue,
      entry.state = .new := by decide +kernel
  rw [hnew entry hentry] at hstate
  cases hstate
end CKKSOutgoingView
end SecurityFramework
