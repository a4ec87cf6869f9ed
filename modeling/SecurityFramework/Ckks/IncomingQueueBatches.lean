import SecurityFramework.Ckks.IncomingQueue
import SecurityFramework.Library.Batches
import SecurityFramework.Library.SortedSet

/-! # Batches of incoming entries -/

namespace SecurityFramework
namespace IncomingQueue
variable {υ : Type*} [LinearOrder υ] {startingAtUUID : Option υ} {state : SecCKKSIncomingState}
  {action : Option SecCKKSAction} {contextID zoneName : String}

theorem selects_iff {entry : CKKSIncomingQueueEntry υ} :
    selects startingAtUUID state action contextID zoneName entry = true ↔
      selects none state action contextID zoneName entry = true ∧
        ∀ uuid ∈ startingAtUUID, uuid < entry.uuid := by
  simp only [selects, decide_eq_true_eq, Option.not_mem_none, false_imp_iff, implies_true, and_true]
  tauto

variable {entry : CKKSIncomingQueueEntry υ} {queue : IncomingQueue υ}

theorem of_selects (h : selects startingAtUUID state action contextID zoneName entry = true) :
    entry.contextID = contextID ∧ entry.state = state ∧ entry.zoneName = zoneName := by
  obtain ⟨hcontext, hstate, hzone, -⟩ := of_decide_eq_true h
  exact ⟨hcontext, hstate, hzone⟩

theorem mem_rows :
    entry ∈ queue.rows startingAtUUID state action contextID zoneName ↔
      entry ∈ queue.members ∧ selects startingAtUUID state action contextID zoneName entry = true := by
  rw [rows, List.mem_insertionSort, List.mem_filter]

theorem pairwise_rows (queue : IncomingQueue υ) :
    (queue.rows startingAtUUID state action contextID zoneName).Pairwise
      fun entry entry' => entry.uuid < entry'.uuid := by
  refine @List.pairwise_insertionSort_key _ _ _ CKKSIncomingQueueEntry.uuid _ ?_
  have hdistinct := (List.pairwise_map.mp queue.distinct).filter
    (selects startingAtUUID state action contextID zoneName)
  apply hdistinct.imp_of_mem
  intro entry entry' hentry hentry' hne huuid
  obtain ⟨hcontext, hstate, hzone⟩ := of_selects (List.of_mem_filter hentry)
  obtain ⟨hcontext', hstate', hzone'⟩ := of_selects (List.of_mem_filter hentry')
  apply hne
  rw [CKKSIncomingQueueEntry.whereClauseToFindSelf, CKKSIncomingQueueEntry.whereClauseToFindSelf,
    hcontext, hcontext', hstate, hstate', hzone, hzone', huuid]

theorem rows_congr {queue' : IncomingQueue υ}
    (hsame : ∀ entry, selects startingAtUUID state action contextID zoneName entry = true →
      (entry ∈ queue'.members ↔ entry ∈ queue.members)) :
    queue'.rows startingAtUUID state action contextID zoneName =
      queue.rows startingAtUUID state action contextID zoneName := by
  apply List.eq_of_pairwise_key (pairwise_rows queue') (pairwise_rows queue)
  intro entry
  rw [mem_rows, mem_rows]
  exact and_congr_left (hsame entry)

theorem mem_process_of_ne {entry' : CKKSIncomingQueueEntry υ} {outcome : IncomingOutcome}
    (hne : entry'.uuid ≠ entry.uuid) :
    entry' ∈ (queue.process entry outcome).members ↔ entry' ∈ queue.members := by
  have hkey : ∀ state, entry'.whereClauseToFindSelf ≠
      { entry with state := state }.whereClauseToFindSelf := by
    intro state heq
    exact hne (congrArg (fun key => key.2.1) heq)
  have hremoved : entry' ∈ (if outcome.deleted then queue.remove entry.whereClauseToFindSelf
      else queue).members ↔ entry' ∈ queue.members := by
    split
    · rw [KeyedSet.mem_members_remove]
      exact and_iff_left (hkey entry.state)
    · rfl
  rw [process]
  cases outcome.savedAs with
  | none => exact hremoved
  | some state =>
    dsimp only
    rw [KeyedSet.mem_members_set, hremoved]
    constructor
    · rintro (rfl | ⟨hmem, -⟩)
      · exact absurd rfl hne
      · exact hmem
    · intro hmem
      exact .inr ⟨hmem, hkey state⟩

theorem mem_processQueueEntries_of_notMem {outcome : CKKSIncomingQueueEntry υ → IncomingOutcome}
    {queueEntries : List (CKKSIncomingQueueEntry υ)} {entry' : CKKSIncomingQueueEntry υ}
    (hne : ∀ entry ∈ queueEntries, entry'.uuid ≠ entry.uuid) :
    entry' ∈ (queue.processQueueEntries outcome queueEntries).members ↔ entry' ∈ queue.members := by
  induction queueEntries generalizing queue with
  | nil => rfl
  | cons entry queueEntries ih =>
    rw [List.forall_mem_cons] at hne
    rw [processQueueEntries, List.foldl_cons]
    exact (ih hne.2).trans (mem_process_of_ne hne.1)
end IncomingQueue

section
variable {υ : Type*} [LinearOrder υ]

theorem highestUUID_some (uuid : υ) (queueEntries : List (CKKSIncomingQueueEntry υ)) :
    ∃ highest, highestUUID (some uuid) queueEntries = some highest ∧ uuid ≤ highest ∧
      (highest = uuid ∨ ∃ entry ∈ queueEntries, entry.uuid = highest) ∧
      ∀ entry ∈ queueEntries, entry.uuid ≤ highest := by
  induction queueEntries generalizing uuid with
  | nil => exact ⟨uuid, rfl, le_rfl, .inl rfl, fun _ h => nomatch h⟩
  | cons entry queueEntries ih =>
    rw [highestUUID, List.foldl_cons]
    dsimp only
    split
    case isTrue hgreater =>
      obtain ⟨highest, heq, hle, hattained, hall⟩ := ih uuid
      refine ⟨highest, heq, hle, ?_, ?_⟩
      · exact hattained.imp_right fun ⟨entry', hmem, huuid⟩ =>
          ⟨entry', List.mem_cons_of_mem _ hmem, huuid⟩
      · rw [List.forall_mem_cons]
        exact ⟨(compare_gt_iff_gt.mp hgreater).le.trans hle, hall⟩
    case isFalse hless =>
      obtain ⟨highest, heq, hle, hattained, hall⟩ := ih entry.uuid
      rw [compare_gt_iff_gt, not_lt] at hless
      refine ⟨highest, heq, hless.trans hle, .inr ?_, ?_⟩
      · rcases hattained with huuid | ⟨entry', hmem, huuid⟩
        · exact ⟨entry, List.mem_cons_self, huuid.symm⟩
        · exact ⟨entry', List.mem_cons_of_mem _ hmem, huuid⟩
      · rw [List.forall_mem_cons]
        exact ⟨hle, hall⟩

/-- The highest UUID of entries behind the last one is that of one of them. -/
theorem highestUUID_spec {lastMaxUUID : Option υ} {queueEntries : List (CKKSIncomingQueueEntry υ)}
    (hnonempty : queueEntries ≠ [])
    (hbehind : ∀ entry ∈ queueEntries, ∀ uuid ∈ lastMaxUUID, uuid < entry.uuid) :
    ∃ last ∈ queueEntries, highestUUID lastMaxUUID queueEntries = some last.uuid ∧
      ∀ entry ∈ queueEntries, entry.uuid ≤ last.uuid := by
  cases queueEntries with
  | nil => exact absurd rfl hnonempty
  | cons entry queueEntries =>
    have hfirst : highestUUID lastMaxUUID (entry :: queueEntries) =
        highestUUID (some entry.uuid) queueEntries := by
      rw [highestUUID, List.foldl_cons, highestUUID]
      cases lastMaxUUID with
      | none => rfl
      | some uuid =>
        have hless := hbehind entry List.mem_cons_self uuid rfl
        dsimp only
        rw [if_neg]
        rw [compare_gt_iff_gt]
        exact hless.asymm
    obtain ⟨highest, heq, hle, hattained, hall⟩ := highestUUID_some entry.uuid queueEntries
    have hhighest : ∃ last ∈ entry :: queueEntries, last.uuid = highest := by
      rcases hattained with huuid | ⟨last, hmem, huuid⟩
      · exact ⟨entry, List.mem_cons_self, huuid.symm⟩
      · exact ⟨last, List.mem_cons_of_mem _ hmem, huuid⟩
    obtain ⟨last, hmem, rfl⟩ := hhighest
    refine ⟨last, hmem, hfirst.trans heq, ?_⟩
    rw [List.forall_mem_cons]
    exact ⟨hle, hall⟩

theorem IncomingQueue.rows_processed {state : SecCKKSIncomingState} {action : Option SecCKKSAction}
    {contextID zoneName : String} (queue : IncomingQueue υ) (lastMaxUUID : Option υ) (n : Nat)
    (outcome : CKKSIncomingQueueEntry υ → IncomingOutcome)
    (hnonempty : (queue.rows lastMaxUUID state action contextID zoneName).take n ≠ []) :
    (queue.processQueueEntries outcome
        ((queue.rows lastMaxUUID state action contextID zoneName).take n)).rows
      (highestUUID lastMaxUUID ((queue.rows lastMaxUUID state action contextID zoneName).take n))
      state action contextID zoneName =
    (queue.rows lastMaxUUID state action contextID zoneName).drop n := by
  have hbehind : ∀ entry ∈ (queue.rows lastMaxUUID state action contextID zoneName).take n,
      ∀ uuid ∈ lastMaxUUID, uuid < entry.uuid := by
    intro entry hentry
    exact (selects_iff.mp (mem_rows.mp (List.mem_of_mem_take hentry)).2).2
  obtain ⟨last, hlast, hhighest, hall⟩ := highestUUID_spec hnonempty hbehind
  have hsorted : (queue.rows lastMaxUUID state action contextID zoneName).Pairwise
      fun entry entry' => entry.uuid < entry'.uuid := queue.pairwise_rows
  rw [hhighest]
  apply List.eq_of_pairwise_key (pairwise_rows _) (hsorted.sublist (List.drop_sublist n _))
  intro entry
  rw [List.mem_drop_iff_of_pairwise_key hsorted hlast hall, mem_rows, mem_rows, selects_iff,
    @selects_iff _ _ lastMaxUUID]
  simp only [Option.mem_some_iff, forall_eq']
  constructor
  · rintro ⟨hmem, hselected, hless⟩
    have hother : ∀ entry' ∈ (queue.rows lastMaxUUID state action contextID zoneName).take n,
        entry.uuid ≠ entry'.uuid := fun entry' hentry' =>
      ((hall entry' hentry').trans_lt hless).ne'
    refine ⟨⟨(mem_processQueueEntries_of_notMem hother).mp hmem, hselected, ?_⟩, hless⟩
    intro uuid huuid
    exact (hbehind last hlast uuid huuid).trans hless
  · rintro ⟨⟨hmem, hselected, -⟩, hless⟩
    have hother : ∀ entry' ∈ (queue.rows lastMaxUUID state action contextID zoneName).take n,
        entry.uuid ≠ entry'.uuid := fun entry' hentry' =>
      ((hall entry' hentry').trans_lt hless).ne'
    exact ⟨(mem_processQueueEntries_of_notMem hother).mpr hmem, hselected, hless⟩
end
end SecurityFramework
