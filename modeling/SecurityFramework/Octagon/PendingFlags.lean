import SecurityFramework.Octagon.OctagonStateMachine

/-! # Pending flags are not lost -/

namespace SecurityFramework
namespace OctagonStateMachine
section
variable {φ ω : Type*} (m : OctagonStateMachine φ ω)

@[simp] theorem recheckCondition_pendingFlags (toCheck : OctagonPendingConditions)
    (c : OctagonPendingCondition) :
    (m.recheckCondition toCheck c).pendingFlags = m.pendingFlags := by
  unfold recheckCondition
  split_ifs <;> rfl

@[simp] theorem recheckCondition_trackers (toCheck : OctagonPendingConditions)
    (c : OctagonPendingCondition) : (m.recheckCondition toCheck c).trackers = m.trackers := by
  unfold recheckCondition
  split_ifs <;> rfl

@[simp] theorem recheckCondition_finished (toCheck : OctagonPendingConditions)
    (c : OctagonPendingCondition) :
    (m.recheckCondition toCheck c).finishedOperations = m.finishedOperations := by
  unfold recheckCondition
  split_ifs <;> rfl

@[simp] theorem recheckCondition_allow (toCheck : OctagonPendingConditions)
    (c : OctagonPendingCondition) :
    (m.recheckCondition toCheck c).allowPendingFlags = m.allowPendingFlags := by
  unfold recheckCondition
  split_ifs <;> rfl

variable {c : OctagonPendingCondition} {toCheck : OctagonPendingConditions}

theorem mem_recheckCondition_inFlight {c' : OctagonPendingCondition} :
    c' ∈ (m.recheckCondition toCheck c).conditionChecksInFlight ↔
      c' ∈ m.conditionChecksInFlight ∨ c' = c ∧ c ∈ toCheck ∧ c ∉ m.trackers := by
  unfold recheckCondition
  split_ifs with hcheck htracker
  · change c' ∈ m.conditionChecksInFlight ↔ _
    tauto
  · change c' ∈ m.conditionChecksInFlight ∪ {c} ↔ _
    rw [Finset.mem_union, Finset.mem_singleton]
    tauto
  · tauto

theorem mem_recheckCondition_current {c' : OctagonPendingCondition} :
    c' ∈ (m.recheckCondition toCheck c).currentConditions ↔
      if c' = c ∧ c ∈ toCheck then c ∈ m.trackers else c' ∈ m.currentConditions := by
  unfold recheckCondition
  by_cases hcheck : c ∈ toCheck
  · by_cases htracker : c ∈ m.trackers
    · simp only [hcheck, htracker, not_true, if_true, if_false]
      change c' ∈ m.currentConditions ∪ {c} ↔ _
      rw [Finset.mem_union, Finset.mem_singleton]
      split_ifs <;> tauto
    · simp only [hcheck, htracker, not_false_iff, if_true]
      change c' ∈ m.currentConditions \ {c} ↔ _
      rw [Finset.mem_sdiff, Finset.mem_singleton]
      split_ifs <;> tauto
  · simp [hcheck]

theorem mem_recheckCondition_queue {block : OperationBlock ω} :
    block ∈ (m.recheckCondition toCheck c).operationQueue ↔
      block ∈ m.operationQueue ∨
        block = .conditionOccurred c false ∧ c ∈ toCheck ∧ c ∉ m.trackers := by
  unfold recheckCondition
  split_ifs with hcheck htracker
  · change block ∈ m.operationQueue ↔ _
    tauto
  · change block ∈ m.operationQueue ++ [.conditionOccurred c false] ↔ _
    rw [List.mem_append, List.mem_singleton]
    tauto
  · tauto

@[simp] theorem recheck_pendingFlags :
    m.onqueueRecheckConditions.pendingFlags = m.pendingFlags := by
  unfold onqueueRecheckConditions
  split_ifs <;> simp

@[simp] theorem recheck_trackers : m.onqueueRecheckConditions.trackers = m.trackers := by
  unfold onqueueRecheckConditions
  split_ifs <;> simp

@[simp] theorem recheck_finished :
    m.onqueueRecheckConditions.finishedOperations = m.finishedOperations := by
  unfold onqueueRecheckConditions
  split_ifs <;> simp

@[simp] theorem recheck_allow :
    m.onqueueRecheckConditions.allowPendingFlags = m.allowPendingFlags := by
  unfold onqueueRecheckConditions
  split_ifs <;> simp

theorem mem_allConditions :
    c ∈ m.allConditions ↔ ∃ F ∈ m.pendingFlags, c ∈ F.conditions := by
  unfold allConditions
  induction m.pendingFlags with
  | nil => simp
  | cons F rest ih => simp [ih]

variable {m} in
theorem mem_recheck_inFlight (hallow : m.allowPendingFlags = true) :
    c ∈ m.onqueueRecheckConditions.conditionChecksInFlight ↔
      c ∈ m.conditionChecksInFlight ∨ c ∈ m.allConditions ∧ c ∉ m.trackers := by
  unfold onqueueRecheckConditions
  by_cases hall : m.allConditions = ∅
  · simp [hallow, hall]
  · simp only [hallow, hall, Bool.not_true, Bool.false_eq_true, if_false,
      mem_recheckCondition_inFlight, recheckCondition_trackers, Finset.mem_sdiff]
    cases c <;> simp only [reduceCtorEq, false_and, or_false, true_and] <;> tauto

variable {m} in
theorem mem_recheck_current (hallow : m.allowPendingFlags = true) :
    c ∈ m.onqueueRecheckConditions.currentConditions ↔
      if c ∈ m.allConditions ∧ c ∉ m.conditionChecksInFlight then c ∈ m.trackers
      else c ∈ m.currentConditions := by
  unfold onqueueRecheckConditions
  by_cases hall : m.allConditions = ∅
  · simp [hallow, hall]
  · simp only [hallow, hall, Bool.not_true, Bool.false_eq_true, if_false,
      mem_recheckCondition_current, recheckCondition_trackers, Finset.mem_sdiff]
    cases c <;> simp

variable {m} in
theorem mem_recheck_queue (hallow : m.allowPendingFlags = true) {block : OperationBlock ω} :
    block ∈ m.onqueueRecheckConditions.operationQueue ↔
      block ∈ m.operationQueue ∨ ∃ c, block = .conditionOccurred c false ∧
        (c ∈ m.allConditions ∧ c ∉ m.conditionChecksInFlight) ∧ c ∉ m.trackers := by
  unfold onqueueRecheckConditions
  by_cases hall : m.allConditions = ∅
  · simp [hallow, hall]
  · simp only [hallow, hall, Bool.not_true, Bool.false_eq_true, if_false,
      mem_recheckCondition_queue, recheckCondition_trackers, Finset.mem_sdiff]
    constructor
    · rintro ((h | h) | h)
      · exact Or.inl h
      · exact Or.inr ⟨_, h⟩
      · exact Or.inr ⟨_, h⟩
    · rintro (h | ⟨c, h⟩)
      · exact Or.inl (Or.inl h)
      · cases c with
        | deviceUnlocked => exact Or.inl (Or.inr h)
        | networkReachable => exact Or.inr h

theorem isSome_earliestDeadline {now fireTime : ℚ} {flags : List (OctagonPendingFlag φ ω)}
    {F : OctagonPendingFlag φ ω} (hmem : F ∈ flags) (hfire : F.fireTime = some fireTime)
    (hlater : ¬fireTime < now) : (earliestDeadline now flags).isSome := by
  unfold earliestDeadline
  obtain ⟨before, after, rfl⟩ := List.append_of_mem hmem
  rw [List.foldl_append, List.foldl_cons]
  refine List.foldlRecOn (motive := fun (earliest : Option ℚ) => earliest.isSome = true) _ _ ?_ ?_
  · simp [hfire, hlater]
  · intro earliest h G _
    split
    · exact h
    · split_ifs
      · exact h
      · rfl
end

section
variable {φ ω : Type*} [DecidableEq φ] (m : OctagonStateMachine φ ω)

theorem foldl_sendFlag (flags : List (OctagonPendingFlag φ ω)) :
    flags.foldl sendFlag m =
      { m with
        currentFlags := flags.foldl (fun current F => current.insert F.flag) m.currentFlags
        pendingFlags := m.pendingFlags.filter fun F => ∀ G ∈ flags, F.flag ≠ G.flag } := by
  induction flags generalizing m with
  | nil => simp
  | cons G rest ih =>
    rw [List.foldl_cons, ih]
    simp only [sendFlag, onqueueSetFlag, setPendingFlags, List.foldl_cons, List.filter_filter,
      List.forall_mem_cons]
    congr 1
    apply List.filter_congr
    intro F _
    simp only [Bool.decide_and]
    rw [Bool.and_comm]
end

section
variable {φ ω : Type*} [DecidableEq φ] [DecidableEq ω] (m : OctagonStateMachine φ ω)

variable {m} in
theorem onqueueSendAnyPendingFlags_eq (hallow : m.allowPendingFlags = true) (now : ℚ) :
    ∃ current, m.onqueueSendAnyPendingFlags now =
      { m with
        currentFlags := current
        pendingFlags := m.pendingFlags.filter fun F => ∀ G ∈ m.flagsToSend now, F.flag ≠ G.flag
        pendingFlagsScheduler :=
          match earliestDeadline now m.pendingFlags with
          | none => m.pendingFlagsScheduler
          | some deadline =>
            m.pendingFlagsScheduler.triggerAt (delayNanoseconds (deadline - now)) } := by
  unfold onqueueSendAnyPendingFlags
  rw [foldl_sendFlag, hallow]
  unfold triggerEarliest
  cases earliestDeadline now m.pendingFlags with
  | none | some deadline => exact ⟨_, rfl⟩

theorem onqueueSendAnyPendingFlags_of_not_allow (hallow : m.allowPendingFlags = false) (now : ℚ) :
    m.onqueueSendAnyPendingFlags now = m := by
  simp [onqueueSendAnyPendingFlags, hallow]

/-- What holds before flags are sent: a condition that is not recorded as met is being checked. -/
structure Checked : Prop where
  recorded : ∀ F ∈ m.pendingFlags, ∀ c ∈ F.conditions,
    c ∈ m.currentConditions ∨ c ∈ m.conditionChecksInFlight
  cleared : ∀ c ∈ m.conditionChecksInFlight, c ∉ m.currentConditions
  checking : ∀ c ∈ m.conditionChecksInFlight,
    ∃ dependencyFinished, .conditionOccurred c dependencyFinished ∈ m.operationQueue
  waiting : ∀ F ∈ m.pendingFlags, ∀ op, F.afterOperation = some op →
    op ∉ m.finishedOperations → .finishedWaiting op ∈ m.operationQueue

/-- Something will look at the flag again. -/
def Watched (F : OctagonPendingFlag φ ω) : Prop :=
  m.pendingFlagsScheduler.Armed ∨ m.pendingFlagsScheduler.queue ≠ [] ∨
    (∃ op, F.afterOperation = some op ∧ .finishedWaiting op ∈ m.operationQueue) ∨
    ∃ c ∈ F.conditions, c ∈ m.conditionChecksInFlight

structure Invariant : Prop where
  checked : m.Checked
  watched : ∀ F ∈ m.pendingFlags, m.Watched F

variable {m}

/-- After flags are sent, something looks again at each that stays, and it is not the timer. -/
theorem invariant_sendAny (hallow : m.allowPendingFlags = true) (h : m.Checked) (now : ℚ) :
    (m.onqueueSendAnyPendingFlags now).Checked ∧
      ∀ F ∈ (m.onqueueSendAnyPendingFlags now).pendingFlags,
        (m.onqueueSendAnyPendingFlags now).pendingFlagsScheduler.queue ≠ [] ∨
        (∃ op, F.afterOperation = some op ∧
          .finishedWaiting op ∈ (m.onqueueSendAnyPendingFlags now).operationQueue) ∨
        ∃ c ∈ F.conditions,
          c ∈ (m.onqueueSendAnyPendingFlags now).conditionChecksInFlight := by
  obtain ⟨current, heq⟩ := onqueueSendAnyPendingFlags_eq hallow now
  rw [heq]
  constructor
  · constructor
    · intro F hF
      exact h.recorded F (List.mem_of_mem_filter hF)
    · exact h.cleared
    · exact h.checking
    · intro F hF
      exact h.waiting F (List.mem_of_mem_filter hF)
  · intro F hF
    rcases List.mem_filter.1 hF with ⟨hpending, hkept⟩
    have hnot : ¬m.send now F = true := by
      intro hsend
      have hsent : F ∈ m.flagsToSend now := by
        simp [flagsToSend, hallow, hpending, hsend]
      exact (of_decide_eq_true hkept) F hsent rfl
    simp only [send, Bool.and_eq_true, not_and_or] at hnot
    rcases hnot with (hdelay | hop) | hconditions
    · unfold OctagonPendingFlag.delayHasEnded at hdelay
      cases hfire : F.fireTime with
      | none => simp [hfire] at hdelay
      | some fireTime =>
        simp only [hfire, decide_eq_true_eq] at hdelay
        rcases Option.isSome_iff_exists.1 (isSome_earliestDeadline hpending hfire hdelay)
          with ⟨deadline, hdeadline⟩
        left
        simp [hdeadline, CKKSNearFutureScheduler.triggerAt]
    · unfold OctagonPendingFlag.operationHasEnded at hop
      cases hafter : F.afterOperation with
      | none => simp [hafter] at hop
      | some op =>
        simp only [hafter, decide_eq_true_eq] at hop
        exact Or.inr (Or.inl ⟨op, rfl, h.waiting F hpending op hafter hop⟩)
    · simp only [OctagonPendingFlag.conditionsAreRight, decide_eq_true_eq,
        Finset.inter_eq_left] at hconditions
      rcases Finset.not_subset.1 hconditions with ⟨c, hc, hcurrent⟩
      exact Or.inr (Or.inr ⟨c, hc, (h.recorded F hpending c hc).resolve_left hcurrent⟩)

theorem Checked.send (hallow : m.allowPendingFlags = true) (h : m.Checked) (now : ℚ) :
    (m.onqueueSendAnyPendingFlags now).Invariant := by
  rcases invariant_sendAny hallow h now with ⟨hchecked, hwatched⟩
  exact ⟨hchecked, fun F hF => Or.inr (hwatched F hF)⟩

omit [DecidableEq φ] [DecidableEq ω] in
theorem Checked.recheck (hallow : m.allowPendingFlags = true)
    (hcleared : ∀ c ∈ m.conditionChecksInFlight, c ∉ m.currentConditions)
    (hchecking : ∀ c ∈ m.conditionChecksInFlight,
      ∃ dependencyFinished, .conditionOccurred c dependencyFinished ∈ m.operationQueue)
    (hwaiting : ∀ F ∈ m.pendingFlags, ∀ op, F.afterOperation = some op →
      op ∉ m.finishedOperations → .finishedWaiting op ∈ m.operationQueue) :
    m.onqueueRecheckConditions.Checked where
  recorded F hF c hc := by
    rw [recheck_pendingFlags] at hF
    have hall : c ∈ m.allConditions := (mem_allConditions m).2 ⟨F, hF, hc⟩
    rw [mem_recheck_inFlight hallow, mem_recheck_current hallow]
    by_cases hflight : c ∈ m.conditionChecksInFlight
    · exact Or.inr (Or.inl hflight)
    · rw [if_pos ⟨hall, hflight⟩]
      by_cases htracker : c ∈ m.trackers
      · exact Or.inl htracker
      · exact Or.inr (Or.inr ⟨hall, htracker⟩)
  cleared c hc := by
    rw [mem_recheck_inFlight hallow] at hc
    rw [mem_recheck_current hallow]
    rcases hc with hflight | ⟨hall, htracker⟩
    · rw [if_neg fun h => h.2 hflight]
      exact hcleared c hflight
    · split_ifs with hcheck
      · exact htracker
      · exact hcleared c (by simpa [hall] using hcheck)
  checking c hc := by
    rw [mem_recheck_inFlight hallow] at hc
    by_cases hflight : c ∈ m.conditionChecksInFlight
    · rcases hchecking c hflight with ⟨dependencyFinished, hblock⟩
      exact ⟨dependencyFinished, (mem_recheck_queue hallow).2 (Or.inl hblock)⟩
    · rcases hc.resolve_left hflight with ⟨hall, htracker⟩
      exact ⟨false, (mem_recheck_queue hallow).2 (Or.inr ⟨c, rfl, ⟨hall, hflight⟩, htracker⟩)⟩
  waiting F hF op hafter hop := by
    rw [recheck_pendingFlags] at hF
    rw [recheck_finished] at hop
    exact (mem_recheck_queue hallow).2 (Or.inl (hwaiting F hF op hafter hop))

theorem onqueueSendAnyPendingFlags_allow (m : OctagonStateMachine φ ω) (now : ℚ) :
    (m.onqueueSendAnyPendingFlags now).allowPendingFlags = m.allowPendingFlags := by
  cases hallow : m.allowPendingFlags with
  | false => rw [onqueueSendAnyPendingFlags_of_not_allow m hallow, hallow]
  | true =>
    obtain ⟨current, heq⟩ := onqueueSendAnyPendingFlags_eq hallow now
    rw [heq]
    exact hallow

omit [DecidableEq φ] [DecidableEq ω] in
theorem waitForOperation_eq (m : OctagonStateMachine φ ω) (op : Option ω) :
    m.waitForOperation op =
      m.setOperationQueue (m.operationQueue ++ (op.map OperationBlock.finishedWaiting).toList) := by
  cases op with
  | none => simp [waitForOperation, setOperationQueue]
  | some op => rfl

omit [DecidableEq ω] in
@[simp] theorem prepareToHandle_allow (m : OctagonStateMachine φ ω)
    (pendingFlag : OctagonPendingFlag φ ω) :
    (m.prepareToHandle pendingFlag).allowPendingFlags = m.allowPendingFlags := by
  rw [prepareToHandle, recheck_allow, waitForOperation_eq]
  rfl

omit [DecidableEq ω] in
theorem checked_prepareToHandle (hallow : m.allowPendingFlags = true) (h : m.Checked)
    (pendingFlag : OctagonPendingFlag φ ω) : (m.prepareToHandle pendingFlag).Checked := by
  rw [prepareToHandle, waitForOperation_eq]
  apply Checked.recheck
  · exact hallow
  · exact h.cleared
  · intro c hc
    rcases h.checking c hc with ⟨dependencyFinished, hblock⟩
    exact ⟨dependencyFinished, List.mem_append_left _ hblock⟩
  · intro F hF op hafter hop
    rcases List.mem_append.1 hF with hold | hnew
    · exact List.mem_append_left _ (h.waiting F (List.mem_of_mem_filter hold) op hafter hop)
    · rw [List.mem_singleton.1 hnew] at hafter
      apply List.mem_append_right
      rw [hafter]
      exact List.mem_singleton_self _

omit [DecidableEq φ] in
theorem prepareBlock_allow (m : OctagonStateMachine φ ω) (block : OperationBlock ω) :
    ((m.takeBlock block).prepareBlock block).allowPendingFlags = m.allowPendingFlags := by
  cases block with
  | finishedWaiting op => rfl
  | conditionOccurred c dependencyFinished => exact recheck_allow _

omit [DecidableEq φ] in
theorem checked_prepareBlock (hallow : m.allowPendingFlags = true) (h : m.Checked)
    {block : OperationBlock ω} (hready : m.ready block = true) :
    ((m.takeBlock block).prepareBlock block).Checked := by
  cases block with
  | finishedWaiting op =>
    have hfinished : op ∈ m.finishedOperations := of_decide_eq_true hready
    constructor
    · exact h.recorded
    · exact h.cleared
    · intro c hc
      rcases h.checking c hc with ⟨dependencyFinished, hblock⟩
      exact ⟨dependencyFinished, (List.mem_erase_of_ne (by simp)).2 hblock⟩
    · intro F hF op' hafter hop
      have hne : op' ≠ op := fun heq => hop (heq ▸ hfinished)
      exact (List.mem_erase_of_ne (by simpa using hne)).2 (h.waiting F hF op' hafter hop)
  | conditionOccurred c dependencyFinished =>
    apply Checked.recheck
    · exact hallow
    · intro c' hc'
      exact h.cleared c' (Finset.mem_sdiff.1 hc').1
    · intro c' hc'
      rcases Finset.mem_sdiff.1 hc' with ⟨hflight, hne⟩
      rcases h.checking c' hflight with ⟨dependencyFinished', hblock⟩
      refine ⟨dependencyFinished', (List.mem_erase_of_ne ?_).2 hblock⟩
      intro heq
      cases heq
      exact hne (Finset.mem_singleton_self _)
    · intro F hF op hafter hop
      exact (List.mem_erase_of_ne (by simp)).2 (h.waiting F hF op hafter hop)

omit [DecidableEq φ] [DecidableEq ω] in
theorem invariant_runDependency (h : m.Invariant) (condition : OctagonPendingCondition) :
    (m.runDependency condition).Invariant := by
  have hkeep : ∀ op, OperationBlock.finishedWaiting op ∈ m.operationQueue →
      .finishedWaiting op ∈ (m.runDependency condition).operationQueue := by
    intro op hop
    exact List.mem_map.2 ⟨_, hop, rfl⟩
  constructor
  · constructor
    · exact h.checked.recorded
    · exact h.checked.cleared
    · intro c hc
      rcases h.checked.checking c hc with ⟨dependencyFinished, hblock⟩
      exact ⟨_, List.mem_map.2 ⟨_, hblock, rfl⟩⟩
    · intro F hF op hafter hop
      exact hkeep op (h.checked.waiting F hF op hafter hop)
  · intro F hF
    rcases h.watched F hF with harmed | hqueue | ⟨op, hafter, hop⟩ | hflight
    · exact Or.inl harmed
    · exact Or.inr (Or.inl hqueue)
    · exact Or.inr (Or.inr (Or.inl ⟨op, hafter, hkeep op hop⟩))
    · exact Or.inr (Or.inr (Or.inr hflight))

omit [DecidableEq φ] [DecidableEq ω] in
theorem invariant_trackerChanges (h : m.Invariant) (condition : OctagonPendingCondition)
    (holds : Bool) : (m.trackerChanges condition holds).Invariant := by
  have hset : (m.setTracker condition holds).Invariant :=
    ⟨⟨h.checked.recorded, h.checked.cleared, h.checked.checking, h.checked.waiting⟩, h.watched⟩
  unfold trackerChanges
  split_ifs
  · exact invariant_runDependency hset condition
  · exact hset

omit [DecidableEq φ] [DecidableEq ω] in
theorem invariant_setScheduler_of_armed (h : m.Invariant) {scheduler : CKKSNearFutureScheduler}
    (harmed : scheduler.Armed) : (m.setScheduler scheduler).Invariant :=
  ⟨⟨h.checked.recorded, h.checked.cleared, h.checked.checking, h.checked.waiting⟩,
    fun _ _ => Or.inl harmed⟩

theorem invariant_timerTick (hallow : m.allowPendingFlags = true) (h : m.Invariant) (now : ℚ) :
    (m.timerTick now).Invariant := by
  unfold timerTick
  split_ifs with hlive
  · rcases invariant_sendAny hallow h.checked now with ⟨hchecked, hwatched⟩
    exact ⟨⟨hchecked.recorded, hchecked.cleared, hchecked.checking, hchecked.waiting⟩,
      fun F hF => Or.inr (hwatched F hF)⟩
  · refine ⟨⟨h.checked.recorded, h.checked.cleared, h.checked.checking, h.checked.waiting⟩, ?_⟩
    intro F hF
    rcases h.watched F hF with harmed | hother
    · exact absurd harmed.2 hlive
    · exact Or.inr hother

variable {e : OctagonEvent φ ω}

theorem step_allow {m m' : OctagonStateMachine φ ω} (hstep : m.step e = some m')
    (hallow : m'.allowPendingFlags = true) :
    m.allowPendingFlags = true := by
  cases e with
  | handlePendingFlag pendingFlag now =>
    cases hstep
    rwa [onqueueSendAnyPendingFlags_allow, prepareToHandle_allow] at hallow
  | handleFlag flag | removeFlag flag =>
    cases hstep
    exact hallow
  | disablePendingFlags =>
    cases hstep
    cases hallow
  | trackerChanges condition holds =>
    cases hstep
    unfold trackerChanges at hallow
    split_ifs at hallow <;> exact hallow
  | reachabilityTimerExpires | operationFinishes op =>
    cases hstep
    exact hallow
  | blockRuns block now =>
    simp only [step] at hstep
    split_ifs at hstep with hrun
    cases hstep
    rwa [onqueueSendAnyPendingFlags_allow, prepareBlock_allow] at hallow
  | schedulerBlockRuns now =>
    simp only [step] at hstep
    split at hstep
    · cases hstep
    · cases hstep
      exact hallow
  | timerFires now =>
    simp only [step] at hstep
    split at hstep
    · cases hstep
    · split_ifs at hstep with hdue
      cases hstep
      unfold timerTick at hallow
      split_ifs at hallow
      · exact (onqueueSendAnyPendingFlags_allow m now).symm.trans hallow
      · exact hallow

theorem step_invariant {m m' : OctagonStateMachine φ ω}
    (hinv : m.allowPendingFlags = true → m.Invariant) (hstep : m.step e = some m')
    (hallow' : m'.allowPendingFlags = true) : m'.Invariant := by
  have hallow : m.allowPendingFlags = true := step_allow hstep hallow'
  have h : m.Invariant := hinv hallow
  cases e with
  | handlePendingFlag pendingFlag now =>
    cases hstep
    apply Checked.send
    · rw [prepareToHandle_allow, hallow]
    · exact checked_prepareToHandle hallow h.checked pendingFlag
  | handleFlag flag | removeFlag flag =>
    cases hstep
    exact ⟨⟨h.checked.recorded, h.checked.cleared, h.checked.checking, h.checked.waiting⟩,
      h.watched⟩
  | disablePendingFlags =>
    cases hstep
    cases hallow'
  | trackerChanges condition holds =>
    cases hstep
    exact invariant_trackerChanges h condition holds
  | reachabilityTimerExpires =>
    cases hstep
    exact invariant_runDependency h _
  | operationFinishes op =>
    cases hstep
    refine ⟨⟨h.checked.recorded, h.checked.cleared, h.checked.checking, ?_⟩, h.watched⟩
    intro F hF op' hafter hop
    exact h.checked.waiting F hF op' hafter fun hmem => hop (List.mem_cons_of_mem _ hmem)
  | blockRuns block now =>
    simp only [step] at hstep
    split_ifs at hstep with hrun
    cases hstep
    apply Checked.send
    · rw [prepareBlock_allow, hallow]
    · exact checked_prepareBlock hallow h.checked hrun.2
  | schedulerBlockRuns now =>
    simp only [step] at hstep
    split at hstep
    · cases hstep
    · cases hstep
      exact invariant_setScheduler_of_armed h
        (CKKSNearFutureScheduler.triggerAtBlock_armed _ _ _)
  | timerFires now =>
    simp only [step] at hstep
    split at hstep
    · cases hstep
    · split_ifs at hstep with hdue
      cases hstep
      exact invariant_timerTick hallow h now

omit [DecidableEq φ] [DecidableEq ω] in
theorem init_invariant : (init : OctagonStateMachine φ ω).Invariant := by
  constructor
  · constructor <;> simp [init]
  · simp [init]

theorem run_invariant {ok : OctagonStateMachine φ ω → OctagonEvent φ ω → Prop}
    {es : List (OctagonEvent φ ω)} {m : OctagonStateMachine φ ω} (hrun : Run step ok init es m)
    (hallow : m.allowPendingFlags = true) : m.Invariant := by
  refine Run.invariant (fun m => m.allowPendingFlags = true → m.Invariant) ?_ hrun ?_ hallow
  · intro m e m' hinv _ hstep hallow'
    exact step_invariant hinv hstep hallow'
  · intro _
    exact init_invariant

variable (m) in
/-- No block is left that could run. -/
def AtRest : Prop :=
  m.pendingFlagsScheduler.queue = [] ∧ ∀ block ∈ m.operationQueue, m.ready block = false

variable (m) in
/-- At rest, each pending flag has an armed timer, an unfinished operation with a block that waits
for it, or a condition whose check waits. -/
def NotLost : Prop :=
  m.allowPendingFlags = true → m.AtRest → ∀ F ∈ m.pendingFlags,
    m.pendingFlagsScheduler.Armed ∨
    (∃ op, F.afterOperation = some op ∧ op ∉ m.finishedOperations ∧
      .finishedWaiting op ∈ m.operationQueue) ∨
    ∃ c ∈ F.conditions, c ∈ m.conditionChecksInFlight ∧
      .conditionOccurred c false ∈ m.operationQueue

variable (m) in
/-- The event sends flags only when their time has come. -/
def NotEarly (e : OctagonEvent φ ω) : Prop :=
  ∀ prepared now, m.beforeSending e = some (prepared, now) → ∀ F ∈ prepared.flagsToSend now,
    F.delayHasEnded now = true ∧ F.operationHasEnded prepared.finishedOperations = true ∧
      F.conditions ⊆ prepared.trackers

variable (m) in
/-- No flag that waits for nothing else asks for a condition that was recorded as met and no longer
holds. -/
def NoneStale (now : ℚ) : Prop :=
  m.allowPendingFlags = true → ∀ F ∈ m.pendingFlags, F.delayHasEnded now = true →
    F.operationHasEnded m.finishedOperations = true → F.conditions ⊆ m.currentConditions →
      F.conditions ⊆ m.trackers

variable (m) in
/-- Nothing is stale when the timer ticks for a request or the wait for an operation ends. -/
def Fresh : OctagonEvent φ ω → Prop
  | .timerFires now =>
    (∃ fireTime, m.pendingFlagsScheduler.timer = some fireTime ∧ fireTime ≤ now) →
      m.pendingFlagsScheduler.liveRequest = true → m.NoneStale now
  | .blockRuns (.finishedWaiting op) now =>
    .finishedWaiting op ∈ m.operationQueue → op ∈ m.finishedOperations → m.NoneStale now
  | _ => True

omit [DecidableEq φ] in
theorem mem_flagsToSend {now : ℚ} {F : OctagonPendingFlag φ ω} :
    F ∈ m.flagsToSend now ↔ m.allowPendingFlags = true ∧ F ∈ m.pendingFlags ∧
      F.delayHasEnded now = true ∧ F.operationHasEnded m.finishedOperations = true ∧
      F.conditions ⊆ m.currentConditions := by
  unfold flagsToSend send OctagonPendingFlag.conditionsAreRight
  cases hallow : m.allowPendingFlags with
  | false => simp
  | true =>
    simp only [if_true, List.mem_filter, Bool.and_eq_true, decide_eq_true_eq,
      Finset.inter_eq_left, true_and, and_assoc]

omit [DecidableEq φ] in
theorem noneStale_of_recheck (hchecked : m.onqueueRecheckConditions.Checked) (now : ℚ) :
    m.onqueueRecheckConditions.NoneStale now := by
  intro hallow F hF _ _ hconditions c hc
  rw [recheck_allow] at hallow
  rw [recheck_pendingFlags] at hF
  rw [recheck_trackers]
  have hcurrent := hconditions hc
  have hflight : c ∉ m.onqueueRecheckConditions.conditionChecksInFlight :=
    fun h => hchecked.cleared c h hcurrent
  rw [mem_recheck_inFlight hallow, not_or] at hflight
  rw [mem_recheck_current hallow, if_pos ⟨(mem_allConditions m).2 ⟨F, hF, hc⟩, hflight.1⟩]
    at hcurrent
  exact hcurrent

omit [DecidableEq φ] in
theorem sentInTime_iff_noneStale (now : ℚ) :
    (∀ F ∈ m.flagsToSend now, F.delayHasEnded now = true ∧
      F.operationHasEnded m.finishedOperations = true ∧ F.conditions ⊆ m.trackers) ↔
      m.NoneStale now := by
  constructor
  · intro h hallow F hF hdelay hop hconditions
    exact (h F (mem_flagsToSend.2 ⟨hallow, hF, hdelay, hop, hconditions⟩)).2.2
  · intro h F hF
    rcases mem_flagsToSend.1 hF with ⟨hallow, hpending, hdelay, hop, hconditions⟩
    exact ⟨hdelay, hop, h hallow F hpending hdelay hop hconditions⟩

omit [DecidableEq φ] in
theorem noneStale_of_not_allow (hallow : m.allowPendingFlags ≠ true) (now : ℚ) :
    m.NoneStale now :=
  fun h => absurd h hallow

theorem notEarly_iff_noneStale {prepared : OctagonStateMachine φ ω} {now : ℚ}
    (hbefore : m.beforeSending e = some (prepared, now)) :
    m.NotEarly e ↔ prepared.NoneStale now := by
  rw [← sentInTime_iff_noneStale]
  constructor
  · exact fun h => h prepared now hbefore
  · intro h prepared' now' hbefore'
    cases hbefore.symm.trans hbefore'
    exact h

theorem notEarly_of_beforeSending (hbefore : m.beforeSending e = none) :
    m.NotEarly e := by
  intro prepared now hsome
  cases hbefore.symm.trans hsome

theorem notEarly_iff_fresh (hinv : m.allowPendingFlags = true → m.Invariant)
    (e : OctagonEvent φ ω) : m.NotEarly e ↔ m.Fresh e := by
  cases e with
  | handlePendingFlag pendingFlag now =>
    rw [notEarly_iff_noneStale rfl]
    apply (iff_true_right trivial).2
    by_cases hallow : m.allowPendingFlags = true
    · exact noneStale_of_recheck
        (checked_prepareToHandle hallow (hinv hallow).checked pendingFlag) now
    · apply noneStale_of_not_allow
      rwa [prepareToHandle_allow]
  | blockRuns block now =>
    by_cases hrun : block ∈ m.operationQueue ∧ m.ready block = true
    · have hbefore : m.beforeSending (.blockRuns block now) =
          some ((m.takeBlock block).prepareBlock block, now) := if_pos hrun
      rw [notEarly_iff_noneStale hbefore]
      cases block with
      | finishedWaiting op =>
        have hfinished : op ∈ m.finishedOperations := of_decide_eq_true hrun.2
        simp only [Fresh, hrun.1, hfinished, true_implies]
        exact Iff.rfl
      | conditionOccurred c dependencyFinished =>
        apply (iff_true_right trivial).2
        by_cases hallow : m.allowPendingFlags = true
        · exact noneStale_of_recheck
            (checked_prepareBlock hallow (hinv hallow).checked hrun.2) now
        · apply noneStale_of_not_allow
          rwa [prepareBlock_allow]
    · have hbefore : m.beforeSending (.blockRuns block now) = none := if_neg hrun
      rw [iff_true_left (notEarly_of_beforeSending hbefore)]
      cases block with
      | finishedWaiting op =>
        intro hmem hfinished
        exact absurd ⟨hmem, decide_eq_true hfinished⟩ hrun
      | conditionOccurred c dependencyFinished => trivial
  | timerFires now =>
    by_cases hdue : ∃ fireTime, m.pendingFlagsScheduler.timer = some fireTime ∧ fireTime ≤ now
    · rcases hdue with ⟨fireTime, htimer, hle⟩
      by_cases hlive : m.pendingFlagsScheduler.liveRequest = true
      · have hbefore : m.beforeSending (.timerFires now) = some (m, now) := by
          simp [beforeSending, htimer, hle, hlive]
        rw [notEarly_iff_noneStale hbefore]
        exact ⟨fun h _ _ => h, fun h => h ⟨fireTime, htimer, hle⟩ hlive⟩
      · rw [iff_true_left (notEarly_of_beforeSending (by simp [beforeSending, htimer, hlive]))]
        exact fun _ h => absurd h hlive
    · have hbefore : m.beforeSending (.timerFires now) = none := by
        simp only [beforeSending]
        cases htimer : m.pendingFlagsScheduler.timer with
        | none => rfl
        | some fireTime => exact if_neg fun h => hdue ⟨fireTime, htimer, h.1⟩
      rw [iff_true_left (notEarly_of_beforeSending hbefore)]
      exact fun h => absurd h hdue
  | _ => exact iff_of_true (notEarly_of_beforeSending rfl) trivial

omit [DecidableEq φ] in
theorem Invariant.notLost (h : m.Invariant) : m.NotLost := by
  intro _ hrest F hF
  rcases h.watched F hF with harmed | hqueue | ⟨op, hafter, hop⟩ | ⟨c, hc, hflight⟩
  · exact Or.inl harmed
  · exact absurd hrest.1 hqueue
  · exact Or.inr (Or.inl ⟨op, hafter, of_decide_eq_false (hrest.2 _ hop), hop⟩)
  · rcases h.checked.checking c hflight with ⟨dependencyFinished, hblock⟩
    have hwaits : dependencyFinished = false := hrest.2 _ hblock
    exact Or.inr (Or.inr ⟨c, hc, hflight, hwaits ▸ hblock⟩)

end
end OctagonStateMachine
end SecurityFramework
