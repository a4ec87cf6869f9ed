import Mathlib.Data.List.Sort
import Mathlib.Data.PNat.Basic
import SecurityFramework.Ckks.OutgoingQueue
import SecurityFramework.Library.KeyedSet
import SecurityFramework.Library.Run

/-!
# The incoming queue

The table of incoming queue entries and the two loops that take batches of a view's entries from
it. UUIDs are the names of records, of ASCII characters, which SQLite and NSString put into one
order. Whether a statement fails, what processing makes of an entry and what other clients do to
the table between two batches is up to the turn.
-/

namespace SecurityFramework
inductive SecCKKSIncomingState where
  | new
  | mismatchedView
  | error
  deriving DecidableEq

structure CKKSIncomingQueueEntry (υ : Type*) where
  contextID : String
  zoneName : String
  uuid : υ
  action : SecCKKSAction
  state : SecCKKSIncomingState
  deriving DecidableEq

def CKKSIncomingQueueEntry.whereClauseToFindSelf {υ : Type*} (entry : CKKSIncomingQueueEntry υ) :
    String × υ × SecCKKSIncomingState × String :=
  (entry.contextID, entry.uuid, entry.state, entry.zoneName)

abbrev IncomingQueue (υ : Type*) := KeyedSet (@CKKSIncomingQueueEntry.whereClauseToFindSelf υ)

structure IncomingOutcome where
  deleted : Bool
  savedAs : Option SecCKKSIncomingState
  deriving DecidableEq

structure IncomingTurn (υ : Type*) where
  cancelled : Bool
  fetchError : Bool
  outcome : CKKSIncomingQueueEntry υ → IncomingOutcome
  processed : Bool
  others : IncomingQueue υ → IncomingQueue υ

def SecCKKSIncomingQueueItemsAtOnce : ℕ+ := 50

namespace IncomingQueue
variable {υ : Type*} [LinearOrder υ]

def selects (startingAtUUID : Option υ) (state : SecCKKSIncomingState)
    (action : Option SecCKKSAction) (contextID zoneName : String)
    (entry : CKKSIncomingQueueEntry υ) : Bool :=
  entry.contextID = contextID ∧ entry.state = state ∧ entry.zoneName = zoneName ∧
    (∀ wanted ∈ action, entry.action = wanted) ∧ ∀ uuid ∈ startingAtUUID, uuid < entry.uuid

def rows (queue : IncomingQueue υ) (startingAtUUID : Option υ) (state : SecCKKSIncomingState)
    (action : Option SecCKKSAction) (contextID zoneName : String) :
    List (CKKSIncomingQueueEntry υ) :=
  (queue.members.filter (selects startingAtUUID state action contextID zoneName)).insertionSort
    fun entry entry' => entry.uuid ≤ entry'.uuid

/-- `fetch:startingAtUUID:state:action:contextID:zoneID:error:` of at most `n` rows. -/
def fetch (queue : IncomingQueue υ) (n : ℕ+) (startingAtUUID : Option υ)
    (state : SecCKKSIncomingState) (action : Option SecCKKSAction)
    (contextID zoneName : String) : List (CKKSIncomingQueueEntry υ) :=
  (queue.rows startingAtUUID state action contextID zoneName).take n

def process (queue : IncomingQueue υ) (entry : CKKSIncomingQueueEntry υ)
    (outcome : IncomingOutcome) : IncomingQueue υ :=
  let queue := if outcome.deleted then queue.remove entry.whereClauseToFindSelf else queue
  match outcome.savedAs with
  | none => queue
  | some state => queue.set { entry with state := state }

def processQueueEntries (queue : IncomingQueue υ) (outcome : CKKSIncomingQueueEntry υ → IncomingOutcome)
    (queueEntries : List (CKKSIncomingQueueEntry υ)) : IncomingQueue υ :=
  queueEntries.foldl (fun queue entry => queue.process entry (outcome entry)) queue
end IncomingQueue

/-- The highest UUID for the next fetch. A comparison with no UUID does not come out descending. -/
def highestUUID {υ : Type*} [LinearOrder υ] (lastMaxUUID : Option υ)
    (queueEntries : List (CKKSIncomingQueueEntry υ)) : Option υ :=
  queueEntries.foldl
    (fun lastMaxUUID entry =>
      match lastMaxUUID with
      | none => some entry.uuid
      | some highest => if compare highest entry.uuid = .gt then some highest else some entry.uuid)
    lastMaxUUID

/-- The variables of a loop, the table, and the entries that were handed to processing. `error`
says that the operation has an error to report. -/
structure IncomingLoop (υ : Type*) where
  turn : Nat
  lastCount : Nat
  lastMaxUUID : Option υ
  errored : Bool
  error : Bool
  queue : IncomingQueue υ
  handed : List (CKKSIncomingQueueEntry υ)

namespace IncomingLoop
variable {υ : Type*} [LinearOrder υ]

def start (itemsAtOnce : ℕ+) (queue : IncomingQueue υ) : IncomingLoop υ where
  turn := 0
  lastCount := itemsAtOnce
  lastMaxUUID := none
  errored := false
  error := false
  queue := queue
  handed := []

/-- What both loops do with the entries they fetched. What was written is rolled back where they
are not processed. -/
def fetched (loop : IncomingLoop υ) (turn : IncomingTurn υ)
    (queueEntries : List (CKKSIncomingQueueEntry υ)) : IncomingLoop υ :=
  let loop := { loop with lastCount := queueEntries.length }
  if queueEntries.length = 0 then loop
  else
    let loop := { loop with handed := loop.handed ++ queueEntries }
    if turn.processed then
      { loop with
        queue := loop.queue.processQueueEntries turn.outcome queueEntries
        lastMaxUUID := highestUUID loop.lastMaxUUID queueEntries }
    else { loop with errored := true }

def dropped (loop : IncomingLoop υ) (turn : IncomingTurn υ) : IncomingLoop υ :=
  { loop with turn := loop.turn + 1, queue := turn.others loop.queue }

variable (itemsAtOnce : ℕ+) (contextID zoneName : String)

def loadTransaction (actionFilter : Option SecCKKSAction) (turn : IncomingTurn υ)
    (loop : IncomingLoop υ) : IncomingLoop υ :=
  if turn.cancelled then { loop with errored := true }
  else if turn.fetchError then { loop with error := true }
  else loop.fetched turn
    (loop.queue.fetch itemsAtOnce loop.lastMaxUUID .new actionFilter contextID zoneName)

def fixTransaction (turn : IncomingTurn υ) (loop : IncomingLoop υ) : IncomingLoop υ :=
  if turn.fetchError then { loop with error := true, errored := true }
  else loop.fetched turn
    (loop.queue.fetch itemsAtOnce loop.lastMaxUUID .mismatchedView none contextID zoneName)

variable (turns : Nat → IncomingTurn υ)

def loadNext (actionFilter : Option SecCKKSAction) (loop : IncomingLoop υ) :
    Option (IncomingLoop υ) :=
  if loop.lastCount = itemsAtOnce ∧ loop.errored = false then
    let turn := turns loop.turn
    some ((loop.loadTransaction itemsAtOnce contextID zoneName actionFilter turn).dropped turn)
  else none

def fixNext (loop : IncomingLoop υ) : Option (IncomingLoop υ) :=
  if loop.lastCount = itemsAtOnce then
    let turn := turns loop.turn
    some ((loop.fixTransaction itemsAtOnce contextID zoneName turn).dropped turn)
  else none
end IncomingLoop

section
variable {υ : Type*} [LinearOrder υ] (itemsAtOnce : ℕ+) (contextID zoneName : String)
  (turns : Nat → IncomingTurn υ) (queue : IncomingQueue υ)

/-- `loadAndProcessEntries:withActionFilter:`, where so many turns are enough. -/
def loadAndProcessEntries (actionFilter : Option SecCKKSAction) (fuel : Nat) :
    Option (IncomingLoop υ × Bool) :=
  (Loop.run (IncomingLoop.loadNext itemsAtOnce contextID zoneName turns actionFilter) fuel
    (.start itemsAtOnce queue)).map fun loop => (loop, !loop.errored)

def fixMismatchedViewItems (handleMismatchedViewItems : Bool) (fuel : Nat) :
    Option (IncomingLoop υ × Bool) :=
  if handleMismatchedViewItems then
    (Loop.run (IncomingLoop.fixNext itemsAtOnce contextID zoneName turns) fuel
      (.start itemsAtOnce queue)).map fun loop => (loop, !loop.errored)
  else some (.start itemsAtOnce queue, true)
end
end SecurityFramework
