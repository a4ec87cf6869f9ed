import SecurityFramework.Ckks.IncomingQueueBatches

/-! # The loops over the incoming queue -/

namespace SecurityFramework
section
variable {υ : Type*} (turns : Nat → IncomingTurn υ)

/-- Between the batches the other clients neither add a row of the view nor take one away. -/
def IncomingTurn.Undisturbed (contextID zoneName : String) : Prop :=
  ∀ turn queue entry, entry.contextID = contextID → entry.zoneName = zoneName →
    (entry ∈ ((turns turn).others queue).members ↔ entry ∈ queue.members)

def IncomingTurn.NoFailure : Prop :=
  ∀ turn, (turns turn).cancelled = false ∧ (turns turn).fetchError = false ∧
    (turns turn).processed = true

def IncomingTurn.loadOnFull (turn : Nat) : Batches.Turn :=
  if (turns turn).cancelled then .givenUp
  else if (turns turn).fetchError then .lost
  else if (turns turn).processed then .taken
  else .givenUp

def IncomingTurn.loadOnShort (turn : Nat) : Bool :=
  (turns turn).cancelled || !(turns turn).fetchError

def IncomingTurn.fixOnFull (turn : Nat) : Batches.Turn :=
  if (turns turn).fetchError then .lost
  else if (turns turn).processed then .taken
  else .lost

def IncomingTurn.fixOnShort (turn : Nat) : Bool := !(turns turn).fetchError

variable {turns}

theorem IncomingTurn.loadOnShort_of_ne {turn : Nat} (h : loadOnFull turns turn ≠ .lost) :
    loadOnShort turns turn = true := by
  unfold loadOnFull at h
  unfold loadOnShort
  cases hcancelled : (turns turn).cancelled with
  | true => rfl
  | false =>
    cases hfetch : (turns turn).fetchError with
    | true => simp [hcancelled, hfetch] at h
    | false => rfl

theorem IncomingTurn.fixOnShort_of_ne {turn : Nat} (h : fixOnFull turns turn ≠ .lost) :
    fixOnShort turns turn = true := by
  unfold fixOnFull at h
  unfold fixOnShort
  cases hfetch : (turns turn).fetchError with
  | true => simp [hfetch] at h
  | false => rfl
end

namespace IncomingLoop
variable {υ : Type*} [LinearOrder υ] {itemsAtOnce : ℕ+} {contextID zoneName : String}
  {state : SecCKKSIncomingState} {action actionFilter : Option SecCKKSAction}
  {turns : Nat → IncomingTurn υ}

def rest (loop : IncomingLoop υ) (state : SecCKKSIncomingState) (action : Option SecCKKSAction)
    (contextID zoneName : String) : List (CKKSIncomingQueueEntry υ) :=
  loop.queue.rows loop.lastMaxUUID state action contextID zoneName

theorem rest_dropped (halone : IncomingTurn.Undisturbed turns contextID zoneName)
    (loop : IncomingLoop υ) (turn : Nat) :
    (loop.dropped (turns turn)).rest state action contextID zoneName =
      loop.rest state action contextID zoneName := by
  apply IncomingQueue.rows_congr
  intro entry hselected
  obtain ⟨hcontext, -, hzone⟩ := IncomingQueue.of_selects hselected
  exact halone turn loop.queue entry hcontext hzone

theorem fetched_of_processed {loop : IncomingLoop υ} {turn : IncomingTurn υ}
    (hprocessed : turn.processed = true) :
    ∃ loop', loop.fetched turn
        (loop.queue.fetch itemsAtOnce loop.lastMaxUUID state action contextID zoneName) = loop' ∧
      loop'.turn = loop.turn ∧ loop'.errored = loop.errored ∧
      loop'.lastCount = min (itemsAtOnce : Nat) (loop.rest state action contextID zoneName).length ∧
      loop'.handed = loop.handed ++ (loop.rest state action contextID zoneName).take itemsAtOnce ∧
      loop'.rest state action contextID zoneName =
        (loop.rest state action contextID zoneName).drop itemsAtOnce := by
  refine ⟨_, rfl, ?_⟩
  have hfetch : loop.queue.fetch itemsAtOnce loop.lastMaxUUID state action contextID zoneName =
    (loop.rest state action contextID zoneName).take itemsAtOnce := rfl
  rw [hfetch, fetched, List.length_take]
  dsimp only
  split
  case isTrue hempty =>
    have hpos := itemsAtOnce.pos
    have hnone : loop.rest state action contextID zoneName = [] := by
      apply List.eq_nil_of_length_eq_zero
      omega
    refine ⟨rfl, rfl, rfl, ?_, ?_⟩
    · rw [hnone, List.take_nil, List.append_nil]
    · rw [hnone, List.drop_nil]
      exact hnone
  case isFalse hsome =>
    refine ⟨rfl, rfl, rfl, rfl, ?_⟩
    apply IncomingQueue.rows_processed
    intro hnone
    apply hsome
    rw [← List.length_take]
    exact congrArg List.length hnone

theorem fetched_of_not_processed {loop : IncomingLoop υ} {turn : IncomingTurn υ}
    (hprocessed : turn.processed = false) :
    ∃ loop', loop.fetched turn
        (loop.queue.fetch itemsAtOnce loop.lastMaxUUID state action contextID zoneName) = loop' ∧
      loop'.turn = loop.turn ∧
      loop'.lastCount = min (itemsAtOnce : Nat) (loop.rest state action contextID zoneName).length ∧
      (loop.rest state action contextID zoneName ≠ [] → loop'.errored = true) ∧
      loop'.rest state action contextID zoneName = loop.rest state action contextID zoneName := by
  refine ⟨_, rfl, ?_⟩
  have hfetch : loop.queue.fetch itemsAtOnce loop.lastMaxUUID state action contextID zoneName =
    (loop.rest state action contextID zoneName).take itemsAtOnce := rfl
  rw [hfetch, fetched, List.length_take]
  dsimp only
  split
  case isTrue hempty =>
    refine ⟨rfl, rfl, ?_, rfl⟩
    intro hne
    have hpos := itemsAtOnce.pos
    have hlength := List.length_pos_iff.mpr hne
    omega
  case isFalse =>
    rw [if_neg (by rw [hprocessed]; decide)]
    exact ⟨rfl, rfl, fun _ => rfl, rfl⟩

def loadWalk (itemsAtOnce : ℕ+) (contextID zoneName : String) (actionFilter : Option SecCKKSAction)
    (loop : IncomingLoop υ) : Batches.Walk (CKKSIncomingQueueEntry υ) :=
  if loop.lastCount = itemsAtOnce ∧ loop.errored = false then
    some (loop.turn, loop.rest .new actionFilter contextID zoneName)
  else none

def fixWalk (itemsAtOnce : ℕ+) (contextID zoneName : String) (loop : IncomingLoop υ) :
    Batches.Walk (CKKSIncomingQueueEntry υ) :=
  if loop.lastCount = itemsAtOnce then
    some (loop.turn, loop.rest .mismatchedView none contextID zoneName)
  else none

theorem loadWalk_dropped (halone : IncomingTurn.Undisturbed turns contextID zoneName)
    (loop : IncomingLoop υ) (turn : Nat) :
    (loop.dropped (turns turn)).loadWalk itemsAtOnce contextID zoneName actionFilter =
      if loop.lastCount = itemsAtOnce ∧ loop.errored = false then
        some (loop.turn + 1, loop.rest .new actionFilter contextID zoneName)
      else none := by
  rw [loadWalk, rest_dropped halone]
  rfl

theorem fixWalk_dropped (halone : IncomingTurn.Undisturbed turns contextID zoneName)
    (loop : IncomingLoop υ) (turn : Nat) :
    (loop.dropped (turns turn)).fixWalk itemsAtOnce contextID zoneName =
      if loop.lastCount = itemsAtOnce then
        some (loop.turn + 1, loop.rest .mismatchedView none contextID zoneName)
      else none := by
  rw [fixWalk, rest_dropped halone]
  rfl

theorem next_loadWalk (halone : IncomingTurn.Undisturbed turns contextID zoneName)
    (loop : IncomingLoop υ) :
    Batches.next itemsAtOnce (IncomingTurn.loadOnFull turns) (IncomingTurn.loadOnShort turns)
        (loop.loadWalk itemsAtOnce contextID zoneName actionFilter) =
      (loop.loadNext itemsAtOnce contextID zoneName turns actionFilter).map
        (loadWalk itemsAtOnce contextID zoneName actionFilter) := by
  rw [loadNext, loadWalk]
  split
  case isFalse => rfl
  case isTrue hgoing =>
    dsimp only
    rw [Option.map_some, Batches.next, loadWalk_dropped halone, loadTransaction,
      IncomingTurn.loadOnFull, IncomingTurn.loadOnShort]
    cases hcancelled : (turns loop.turn).cancelled with
    | true => simp
    | false =>
      cases hfetch : (turns loop.turn).fetchError with
      | true => simp [hgoing, rest]
      | false =>
        cases hprocessed : (turns loop.turn).processed with
        | true =>
          obtain ⟨loop', heq, hturn, herrored, hcount, -, hrest⟩ :=
            @fetched_of_processed υ _ itemsAtOnce contextID zoneName .new actionFilter loop
              (turns loop.turn) hprocessed
          simp [heq, hturn, herrored, hcount, hrest, hgoing]
        | false =>
          obtain ⟨loop', heq, hturn, hcount, herrored, hrest⟩ :=
            @fetched_of_not_processed υ _ itemsAtOnce contextID zoneName .new actionFilter loop
              (turns loop.turn) hprocessed
          -- a full batch is an error, and a short one ends the loop
          have hstopped : ¬(loop'.lastCount = itemsAtOnce ∧ loop'.errored = false) := by
            rintro ⟨hfull, hgood⟩
            rw [herrored] at hgood
            · cases hgood
            · intro hnone
              rw [hcount, hnone] at hfull
              have hpos := itemsAtOnce.pos
              simp at hfull
              omega
          simp [heq, hstopped]

theorem next_fixWalk (halone : IncomingTurn.Undisturbed turns contextID zoneName)
    (loop : IncomingLoop υ) :
    Batches.next itemsAtOnce (IncomingTurn.fixOnFull turns) (IncomingTurn.fixOnShort turns)
        (loop.fixWalk itemsAtOnce contextID zoneName) =
      (loop.fixNext itemsAtOnce contextID zoneName turns).map
        (fixWalk itemsAtOnce contextID zoneName) := by
  rw [fixNext, fixWalk]
  split
  case isFalse => rfl
  case isTrue hgoing =>
    dsimp only
    rw [Option.map_some, Batches.next, fixWalk_dropped halone, fixTransaction,
      IncomingTurn.fixOnFull, IncomingTurn.fixOnShort]
    cases hfetch : (turns loop.turn).fetchError with
    | true => simp [hgoing, rest]
    | false =>
      cases hprocessed : (turns loop.turn).processed with
      | true =>
        obtain ⟨loop', heq, hturn, -, hcount, -, hrest⟩ :=
          @fetched_of_processed υ _ itemsAtOnce contextID zoneName .mismatchedView none loop
            (turns loop.turn) hprocessed
        simp [heq, hturn, hcount, hrest]
      | false =>
        obtain ⟨loop', heq, hturn, hcount, -, hrest⟩ :=
          @fetched_of_not_processed υ _ itemsAtOnce contextID zoneName .mismatchedView none loop
            (turns loop.turn) hprocessed
        simp [heq, hturn, hcount, hrest]
end IncomingLoop

section
variable {υ : Type*} [LinearOrder υ] (itemsAtOnce : ℕ+) (contextID zoneName : String)
  {turns : Nat → IncomingTurn υ} (queue : IncomingQueue υ)

theorem loadAndProcessEntries_ends_iff
    (halone : IncomingTurn.Undisturbed turns contextID zoneName)
    (actionFilter : Option SecCKKSAction) :
    (∃ fuel, (loadAndProcessEntries itemsAtOnce contextID zoneName turns queue actionFilter
        fuel).isSome = true) ↔
      Batches.Over itemsAtOnce (IncomingTurn.loadOnFull turns) (IncomingTurn.loadOnShort turns)
        (queue.rows none .new actionFilter contextID zoneName).length := by
  rw [← Batches.ends_iff fun _ => IncomingTurn.loadOnShort_of_ne]
  have hstart : (IncomingLoop.start itemsAtOnce queue).loadWalk itemsAtOnce contextID zoneName
      actionFilter = some (0, queue.rows none .new actionFilter contextID zoneName) :=
    if_pos ⟨rfl, rfl⟩
  rw [← hstart]
  apply exists_congr
  intro fuel
  rw [Loop.run_map _ (IncomingLoop.next_loadWalk halone), loadAndProcessEntries, Option.isSome_map,
    Option.isSome_map]

theorem fixMismatchedViewItems_ends_iff
    (halone : IncomingTurn.Undisturbed turns contextID zoneName)
    (handleMismatchedViewItems : Bool) :
    (∃ fuel, (fixMismatchedViewItems itemsAtOnce contextID zoneName turns queue
        handleMismatchedViewItems fuel).isSome = true) ↔
      (handleMismatchedViewItems = true →
        Batches.Over itemsAtOnce (IncomingTurn.fixOnFull turns) (IncomingTurn.fixOnShort turns)
          (queue.rows none .mismatchedView none contextID zoneName).length) := by
  cases handleMismatchedViewItems with
  | false =>
    constructor
    · intro _ h
      cases h
    · intro _
      exact ⟨0, rfl⟩
  | true =>
    rw [← Batches.ends_iff fun _ => IncomingTurn.fixOnShort_of_ne, imp_iff_right rfl]
    have hstart : (IncomingLoop.start itemsAtOnce queue).fixWalk itemsAtOnce contextID zoneName =
        some (0, queue.rows none .mismatchedView none contextID zoneName) :=
      if_pos rfl
    rw [← hstart]
    apply exists_congr
    intro fuel
    rw [Loop.run_map _ (IncomingLoop.next_fixWalk halone), fixMismatchedViewItems, if_pos rfl,
      Option.isSome_map, Option.isSome_map]
end

/-- The entries that were in the requested state are handed to processing once each. -/
def IncomingQueue.HandsOnce {υ : Type*} [LinearOrder υ] (queue : IncomingQueue υ)
    (state : SecCKKSIncomingState) (action : Option SecCKKSAction) (contextID zoneName : String)
    (handed : List (CKKSIncomingQueueEntry υ)) : Prop :=
  handed.Nodup ∧ ∀ entry, entry ∈ handed ↔
    entry ∈ queue.members ∧ selects none state action contextID zoneName entry = true

theorem IncomingQueue.handsOnce_rows {υ : Type*} [LinearOrder υ] (queue : IncomingQueue υ)
    (state : SecCKKSIncomingState) (action : Option SecCKKSAction) (contextID zoneName : String) :
    queue.HandsOnce state action contextID zoneName
      (queue.rows none state action contextID zoneName) :=
  ⟨List.nodup_of_pairwise_key queue.pairwise_rows, fun _ => mem_rows⟩

namespace IncomingLoop
variable {υ : Type*} [LinearOrder υ] {itemsAtOnce : ℕ+} {contextID zoneName : String}
  {state : SecCKKSIncomingState} {action actionFilter : Option SecCKKSAction}
  {turns : Nat → IncomingTurn υ} {all : List (CKKSIncomingQueueEntry υ)}

def Accounts (itemsAtOnce : ℕ+) (contextID zoneName : String) (state : SecCKKSIncomingState)
    (action : Option SecCKKSAction) (all : List (CKKSIncomingQueueEntry υ))
    (loop : IncomingLoop υ) : Prop :=
  loop.errored = false ∧
    loop.handed ++ (if loop.lastCount = itemsAtOnce then loop.rest state action contextID zoneName
      else []) = all

variable {loop : IncomingLoop υ}

theorem Accounts.fetched (h : loop.Accounts itemsAtOnce contextID zoneName state action all)
    (hgoing : loop.lastCount = itemsAtOnce) {turn : IncomingTurn υ}
    (hprocessed : turn.processed = true) :
    (loop.fetched turn
      (loop.queue.fetch itemsAtOnce loop.lastMaxUUID state action contextID zoneName)).Accounts
        itemsAtOnce contextID zoneName state action all := by
  obtain ⟨hgood, hall⟩ := h
  obtain ⟨loop', heq, -, herrored, hcount, hhanded, hrest⟩ :=
    @fetched_of_processed υ _ itemsAtOnce contextID zoneName state action loop turn hprocessed
  rw [heq, Accounts, herrored, hcount, hhanded, hrest]
  rw [if_pos hgoing] at hall
  refine ⟨hgood, ?_⟩
  split
  case isTrue => rw [List.append_assoc, List.take_append_drop, hall]
  case isFalse hshort =>
    rw [List.append_nil, List.take_of_length_le (by omega), hall]

theorem Accounts.dropped (halone : IncomingTurn.Undisturbed turns contextID zoneName)
    {loop : IncomingLoop υ} (h : loop.Accounts itemsAtOnce contextID zoneName state action all)
    (turn : Nat) :
    (loop.dropped (turns turn)).Accounts itemsAtOnce contextID zoneName state action all := by
  rw [Accounts, rest_dropped halone]
  exact h

theorem accounts_start (itemsAtOnce : ℕ+) (queue : IncomingQueue υ) :
    (start itemsAtOnce queue).Accounts itemsAtOnce contextID zoneName state action
      (queue.rows none state action contextID zoneName) :=
  ⟨rfl, if_pos rfl⟩

theorem Accounts.loadNext (halone : IncomingTurn.Undisturbed turns contextID zoneName)
    (hgood : IncomingTurn.NoFailure turns) {loop' : IncomingLoop υ}
    (h : loop.Accounts itemsAtOnce contextID zoneName .new actionFilter all)
    (hnext : loop.loadNext itemsAtOnce contextID zoneName turns actionFilter = some loop') :
    loop'.Accounts itemsAtOnce contextID zoneName .new actionFilter all := by
  rw [IncomingLoop.loadNext] at hnext
  split at hnext
  case isFalse => cases hnext
  case isTrue hgoing =>
    obtain ⟨hcancelled, hfetch, hprocessed⟩ := hgood loop.turn
    cases hnext
    apply Accounts.dropped halone
    rw [loadTransaction, hcancelled, hfetch]
    exact h.fetched hgoing.1 hprocessed

theorem Accounts.fixNext (halone : IncomingTurn.Undisturbed turns contextID zoneName)
    (hgood : IncomingTurn.NoFailure turns) {loop' : IncomingLoop υ}
    (h : loop.Accounts itemsAtOnce contextID zoneName .mismatchedView none all)
    (hnext : loop.fixNext itemsAtOnce contextID zoneName turns = some loop') :
    loop'.Accounts itemsAtOnce contextID zoneName .mismatchedView none all := by
  rw [IncomingLoop.fixNext] at hnext
  split at hnext
  case isFalse => cases hnext
  case isTrue hgoing =>
    obtain ⟨-, hfetch, hprocessed⟩ := hgood loop.turn
    cases hnext
    apply Accounts.dropped halone
    rw [fixTransaction, hfetch]
    exact h.fetched hgoing hprocessed
end IncomingLoop

section
variable {υ : Type*} [LinearOrder υ] {itemsAtOnce : ℕ+} {contextID zoneName : String}
  {turns : Nat → IncomingTurn υ} {queue : IncomingQueue υ}

theorem loadAndProcessEntries_handsOnce
    (halone : IncomingTurn.Undisturbed turns contextID zoneName)
    (hgood : IncomingTurn.NoFailure turns) {actionFilter : Option SecCKKSAction} {fuel : Nat}
    {loop : IncomingLoop υ} {result : Bool}
    (h : loadAndProcessEntries itemsAtOnce contextID zoneName turns queue actionFilter fuel =
      some (loop, result)) :
    result = true ∧ queue.HandsOnce .new actionFilter contextID zoneName loop.handed := by
  obtain ⟨loop', hrun, heq⟩ := Option.map_eq_some_iff.mp h
  cases heq
  obtain ⟨⟨herrored, hall⟩, hlast⟩ := Loop.invariant_of_run
    (IncomingLoop.Accounts itemsAtOnce contextID zoneName .new actionFilter
      (queue.rows none .new actionFilter contextID zoneName))
    (fun _ _ hloop hnext => hloop.loadNext halone hgood hnext)
    (IncomingLoop.accounts_start itemsAtOnce queue) hrun
  rw [IncomingLoop.loadNext] at hlast
  split at hlast
  case isTrue => cases hlast
  case isFalse hstopped =>
    have hshort : ¬loop.lastCount = itemsAtOnce := fun hcount => hstopped ⟨hcount, herrored⟩
    rw [if_neg hshort, List.append_nil] at hall
    rw [herrored, hall]
    exact ⟨rfl, queue.handsOnce_rows _ _ _ _⟩

theorem fixMismatchedViewItems_handsOnce
    (halone : IncomingTurn.Undisturbed turns contextID zoneName)
    (hgood : IncomingTurn.NoFailure turns) {fuel : Nat} {loop : IncomingLoop υ} {result : Bool}
    (h : fixMismatchedViewItems itemsAtOnce contextID zoneName turns queue true fuel =
      some (loop, result)) :
    result = true ∧ queue.HandsOnce .mismatchedView none contextID zoneName loop.handed := by
  rw [fixMismatchedViewItems, if_pos rfl] at h
  obtain ⟨loop', hrun, heq⟩ := Option.map_eq_some_iff.mp h
  cases heq
  obtain ⟨⟨herrored, hall⟩, hlast⟩ := Loop.invariant_of_run
    (IncomingLoop.Accounts itemsAtOnce contextID zoneName .mismatchedView none
      (queue.rows none .mismatchedView none contextID zoneName))
    (fun _ _ hloop hnext => hloop.fixNext halone hgood hnext)
    (IncomingLoop.accounts_start itemsAtOnce queue) hrun
  rw [IncomingLoop.fixNext] at hlast
  split at hlast
  case isTrue => cases hlast
  case isFalse hshort =>
    rw [if_neg hshort, List.append_nil] at hall
    rw [herrored, hall]
    exact ⟨rfl, queue.handsOnce_rows _ _ _ _⟩

/-- The loops end and hand each entry to processing once exactly where enough turns do not fail: so
many fetches as it takes to come behind the full batches, or a turn that the first loop returns
in. -/
theorem batch_loops_iff (itemsAtOnce : ℕ+) (contextID zoneName : String)
    (actionFilter : Option SecCKKSAction) (handleMismatchedViewItems : Bool)
    (turns : Nat → IncomingTurn υ) (queue : IncomingQueue υ)
    (halone : IncomingTurn.Undisturbed turns contextID zoneName) :
    ((∃ fuel, (loadAndProcessEntries itemsAtOnce contextID zoneName turns queue actionFilter
          fuel).isSome = true) ∧
      (∃ fuel, (fixMismatchedViewItems itemsAtOnce contextID zoneName turns queue
          handleMismatchedViewItems fuel).isSome = true) ∧
      (IncomingTurn.NoFailure turns →
        (∀ fuel loop result, loadAndProcessEntries itemsAtOnce contextID zoneName turns queue
            actionFilter fuel = some (loop, result) →
          result = true ∧ queue.HandsOnce .new actionFilter contextID zoneName loop.handed) ∧
        (handleMismatchedViewItems = true →
          ∀ fuel loop result, fixMismatchedViewItems itemsAtOnce contextID zoneName turns queue
              handleMismatchedViewItems fuel = some (loop, result) →
            result = true ∧
              queue.HandsOnce .mismatchedView none contextID zoneName loop.handed))) ↔
    Batches.Over itemsAtOnce (IncomingTurn.loadOnFull turns) (IncomingTurn.loadOnShort turns)
        (queue.rows none .new actionFilter contextID zoneName).length ∧
      (handleMismatchedViewItems = true →
        Batches.Over itemsAtOnce (IncomingTurn.fixOnFull turns) (IncomingTurn.fixOnShort turns)
          (queue.rows none .mismatchedView none contextID zoneName).length) := by
  rw [loadAndProcessEntries_ends_iff itemsAtOnce contextID zoneName queue halone,
    fixMismatchedViewItems_ends_iff itemsAtOnce contextID zoneName queue halone]
  constructor
  · rintro ⟨hload, hfix, -⟩
    exact ⟨hload, hfix⟩
  · rintro ⟨hload, hfix⟩
    refine ⟨hload, hfix, ?_⟩
    intro hgood
    constructor
    · intro fuel loop result h
      exact loadAndProcessEntries_handsOnce halone hgood h
    · rintro rfl fuel loop result h
      exact fixMismatchedViewItems_handsOnce halone hgood h

def sampleIncomingTurn (fetchError : Bool) : IncomingTurn Nat where
  cancelled := false
  fetchError := fetchError
  outcome := fun _ => ⟨true, none⟩
  processed := true
  others := id

def sampleIncomingQueue : IncomingQueue Nat where
  members := [⟨"context", "Manatee", 2, .add, .new⟩, ⟨"context", "Manatee", 1, .modify, .new⟩,
    ⟨"context", "Manatee", 1, .add, .mismatchedView⟩, ⟨"context", "Manatee", 3, .delete, .new⟩]
  distinct := by decide

theorem undisturbed_sample (fetchError : Nat → Bool) :
    IncomingTurn.Undisturbed (fun turn => sampleIncomingTurn (fetchError turn)) "context"
      "Manatee" :=
  fun _ _ _ _ _ => Iff.rfl

/-- Batches of two, of which the first is fetched in the second turn. -/
theorem batch_loops_iff_sample :
    ∃ fuel, (loadAndProcessEntries 2 "context" "Manatee"
      (fun turn => sampleIncomingTurn (turn == 0)) sampleIncomingQueue none fuel).isSome = true := by
  refine ((batch_loops_iff 2 "context" "Manatee" none true
    (fun turn => sampleIncomingTurn (turn == 0)) sampleIncomingQueue
    (undisturbed_sample fun turn => turn == 0)).mpr ⟨?_, ?_⟩).1
  · exact ⟨2, rfl, .inr (by decide +kernel)⟩
  · intro _
    exact ⟨1, rfl, .inr (by decide +kernel)⟩

/-- Neither loop ends where no fetch succeeds. -/
theorem batch_loops_never_end :
    ¬(∃ fuel, (loadAndProcessEntries SecCKKSIncomingQueueItemsAtOnce "context" "Manatee"
        (fun _ => sampleIncomingTurn true) sampleIncomingQueue none fuel).isSome = true) ∧
    ¬(∃ fuel, (fixMismatchedViewItems SecCKKSIncomingQueueItemsAtOnce "context" "Manatee"
        (fun _ => sampleIncomingTurn true) sampleIncomingQueue true fuel).isSome = true) := by
  have halone := undisturbed_sample fun _ => true
  constructor
  · rw [loadAndProcessEntries_ends_iff _ _ _ _ halone]
    rintro ⟨turn, hshort, -⟩
    cases hshort
  · rw [fixMismatchedViewItems_ends_iff _ _ _ _ halone]
    intro h
    obtain ⟨turn, hshort, -⟩ := h rfl
    cases hshort
end
end SecurityFramework
