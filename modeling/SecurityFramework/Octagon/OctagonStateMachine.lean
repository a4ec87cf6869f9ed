import Mathlib.Data.Finset.Basic
import SecurityFramework.Ckks.CKKSNearFutureScheduler
import SecurityFramework.Library.Run

/-!
# The pending flags of the Octagon state machine

A pending flag becomes a flag of the machine when its date has come, its operation has finished and
its conditions are met.
-/

namespace SecurityFramework
inductive OctagonPendingCondition where
  | deviceUnlocked
  | networkReachable
  deriving DecidableEq

abbrev OctagonPendingConditions := Finset OctagonPendingCondition

section
variable (φ ω : Type*)

structure OctagonPendingFlag where
  flag : φ
  fireTime : Option ℚ
  afterOperation : Option ω
  conditions : OctagonPendingConditions
  deriving DecidableEq

/-- A block on the operation queue: it waits for an operation, or for the dependency that the lock
state tracker or the reachability tracker runs. -/
inductive OperationBlock where
  | finishedWaiting (afterOperation : ω)
  | conditionOccurred (condition : OctagonPendingCondition) (dependencyFinished : Bool)
  deriving DecidableEq

/-- The machine with what it can see of the device: the operations that have finished and what the
two trackers say. -/
structure OctagonStateMachine where
  currentFlags : List φ
  allowPendingFlags : Bool
  pendingFlags : List (OctagonPendingFlag φ ω)
  pendingFlagsScheduler : CKKSNearFutureScheduler
  conditionChecksInFlight : OctagonPendingConditions
  currentConditions : OctagonPendingConditions
  operationQueue : List (OperationBlock ω)
  finishedOperations : List ω
  trackers : OctagonPendingConditions
  deriving DecidableEq

/-- What can happen next; a block that reads the clock brings the date. -/
inductive OctagonEvent where
  | handlePendingFlag (pendingFlag : OctagonPendingFlag φ ω) (now : ℚ)
  | handleFlag (flag : φ)
  | removeFlag (flag : φ)
  | disablePendingFlags
  | trackerChanges (condition : OctagonPendingCondition) (holds : Bool)
  | reachabilityTimerExpires
  | operationFinishes (op : ω)
  | blockRuns (block : OperationBlock ω) (now : ℚ)
  | schedulerBlockRuns (now : ℚ)
  | timerFires (now : ℚ)
end

variable {φ ω : Type*} [DecidableEq φ] [DecidableEq ω]

namespace OctagonPendingFlag
def delayHasEnded (now : ℚ) (pendingFlag : OctagonPendingFlag φ ω) : Bool :=
  match pendingFlag.fireTime with
  | none => true
  | some fireTime => decide (fireTime < now)

def operationHasEnded (finished : List ω) (pendingFlag : OctagonPendingFlag φ ω) : Bool :=
  match pendingFlag.afterOperation with
  | none => true
  | some op => decide (op ∈ finished)

def conditionsAreRight (conditions : OctagonPendingConditions)
    (pendingFlag : OctagonPendingFlag φ ω) : Bool :=
  decide (pendingFlag.conditions ∩ conditions = pendingFlag.conditions)
end OctagonPendingFlag

def delayNanoseconds (delay : ℚ) : Nat :=
  min ⌊delay * nsecPerSec⌋₊ (2 ^ 64 - 1)

namespace OctagonStateMachine
variable (m : OctagonStateMachine φ ω)

/-- The device is locked and has no network until the trackers say otherwise. -/
def init : OctagonStateMachine φ ω where
  currentFlags := []
  allowPendingFlags := true
  pendingFlags := []
  pendingFlagsScheduler := CKKSNearFutureScheduler.init (100 * 10 ^ 6) (100 * 10 ^ 6)
  conditionChecksInFlight := ∅
  currentConditions := ∅
  operationQueue := []
  finishedOperations := []
  trackers := ∅

def setPendingFlags (pendingFlags : List (OctagonPendingFlag φ ω)) : OctagonStateMachine φ ω :=
  { m with pendingFlags := pendingFlags }

def setScheduler (scheduler : CKKSNearFutureScheduler) : OctagonStateMachine φ ω :=
  { m with pendingFlagsScheduler := scheduler }

def setOperationQueue (blocks : List (OperationBlock ω)) : OctagonStateMachine φ ω :=
  { m with operationQueue := blocks }

def addOperation (block : OperationBlock ω) : OctagonStateMachine φ ω :=
  m.setOperationQueue (m.operationQueue ++ [block])

def setInFlight (conditions : OctagonPendingConditions) : OctagonStateMachine φ ω :=
  { m with conditionChecksInFlight := conditions }

def setCurrentConditions (conditions : OctagonPendingConditions) : OctagonStateMachine φ ω :=
  { m with currentConditions := conditions }

def onqueueSetFlag (flag : φ) : OctagonStateMachine φ ω :=
  { m with currentFlags := m.currentFlags.insert flag }

def onqueueRemoveFlag (flag : φ) : OctagonStateMachine φ ω :=
  { m with currentFlags := m.currentFlags.erase flag }

def allConditions : OctagonPendingConditions :=
  m.pendingFlags.foldr (fun pendingFlag conditions => pendingFlag.conditions ∪ conditions) ∅

/-- The check of one condition: it is recorded as met, or a block waits for it. -/
def recheckCondition (conditionsToCheck : OctagonPendingConditions)
    (condition : OctagonPendingCondition) : OctagonStateMachine φ ω :=
  if condition ∈ conditionsToCheck then
    if condition ∉ m.trackers then
      ((m.setCurrentConditions (m.currentConditions \ {condition})).setInFlight
        (m.conditionChecksInFlight ∪ {condition})).addOperation
          (.conditionOccurred condition false)
    else m.setCurrentConditions (m.currentConditions ∪ {condition})
  else m

def onqueueRecheckConditions : OctagonStateMachine φ ω :=
  if !m.allowPendingFlags then m
  else if m.allConditions = ∅ then m
  else
    let conditionsToCheck := m.allConditions \ m.conditionChecksInFlight
    (m.recheckCondition conditionsToCheck .deviceUnlocked).recheckCondition conditionsToCheck
      .networkReachable

def send (now : ℚ) (pendingFlag : OctagonPendingFlag φ ω) : Bool :=
  pendingFlag.delayHasEnded now && pendingFlag.operationHasEnded m.finishedOperations &&
    pendingFlag.conditionsAreRight m.currentConditions

def flagsToSend (now : ℚ) : List (OctagonPendingFlag φ ω) :=
  if m.allowPendingFlags then m.pendingFlags.filter (m.send now) else []

def earlierDate (earliestDeadline : Option ℚ) (fireTime : ℚ) : ℚ :=
  match earliestDeadline with
  | none => fireTime
  | some deadline => min deadline fireTime

def earliestDeadline (now : ℚ) (flags : List (OctagonPendingFlag φ ω)) : Option ℚ :=
  flags.foldl (fun earliest pendingFlag =>
    match pendingFlag.fireTime with
    | none => earliest
    | some fireTime => if fireTime < now then earliest else some (earlierDate earliest fireTime))
    none

def triggerEarliest (now : ℚ) (deadline : Option ℚ) : OctagonStateMachine φ ω :=
  match deadline with
  | none => m
  | some deadline =>
    m.setScheduler (m.pendingFlagsScheduler.triggerAt (delayNanoseconds (deadline - now)))

def sendFlag (pendingFlag : OctagonPendingFlag φ ω) : OctagonStateMachine φ ω :=
  (m.onqueueSetFlag pendingFlag.flag).setPendingFlags
    (m.pendingFlags.filter fun other => other.flag ≠ pendingFlag.flag)

def onqueueSendAnyPendingFlags (now : ℚ) : OctagonStateMachine φ ω :=
  if !m.allowPendingFlags then m
  else ((m.flagsToSend now).foldl sendFlag m).triggerEarliest now
    (earliestDeadline now m.pendingFlags)

def overwritePendingFlag (pendingFlag : OctagonPendingFlag φ ω) : OctagonStateMachine φ ω :=
  m.setPendingFlags
    (m.pendingFlags.filter (fun other => other.flag ≠ pendingFlag.flag) ++ [pendingFlag])

def waitForOperation (afterOperation : Option ω) : OctagonStateMachine φ ω :=
  match afterOperation with
  | none => m
  | some op => m.addOperation (.finishedWaiting op)

def prepareToHandle (pendingFlag : OctagonPendingFlag φ ω) : OctagonStateMachine φ ω :=
  ((m.overwritePendingFlag pendingFlag).waitForOperation
    pendingFlag.afterOperation).onqueueRecheckConditions

def ready : OperationBlock ω → Bool
  | .finishedWaiting op => decide (op ∈ m.finishedOperations)
  | .conditionOccurred _ dependencyFinished => dependencyFinished

def takeBlock (block : OperationBlock ω) : OctagonStateMachine φ ω :=
  m.setOperationQueue (m.operationQueue.erase block)

def prepareBlock : OperationBlock ω → OctagonStateMachine φ ω
  | .finishedWaiting _ => m
  | .conditionOccurred condition _ =>
    (m.setInFlight (m.conditionChecksInFlight \ {condition})).onqueueRecheckConditions

/-- The tracker runs its dependency: the blocks that wait for the condition are ready. -/
def runDependency (condition : OctagonPendingCondition) : OctagonStateMachine φ ω :=
  m.setOperationQueue (m.operationQueue.map fun
    | .finishedWaiting op => .finishedWaiting op
    | .conditionOccurred awaited dependencyFinished =>
      .conditionOccurred awaited (dependencyFinished || decide (awaited = condition)))

def setTracker (condition : OctagonPendingCondition) (holds : Bool) : OctagonStateMachine φ ω :=
  { m with trackers := if holds then m.trackers ∪ {condition} else m.trackers \ {condition} }

def trackerChanges (condition : OctagonPendingCondition) (holds : Bool) :
    OctagonStateMachine φ ω :=
  if holds then (m.setTracker condition holds).runDependency condition
  else m.setTracker condition holds

def finishOperation (op : ω) : OctagonStateMachine φ ω :=
  { m with finishedOperations := op :: m.finishedOperations }

def disallow : OctagonStateMachine φ ω :=
  { m with allowPendingFlags := false }

def beforeSending : OctagonEvent φ ω → Option (OctagonStateMachine φ ω × ℚ)
  | .handlePendingFlag pendingFlag now => some (m.prepareToHandle pendingFlag, now)
  | .blockRuns block now =>
    if block ∈ m.operationQueue ∧ m.ready block then
      some ((m.takeBlock block).prepareBlock block, now)
    else none
  | .timerFires now =>
    match m.pendingFlagsScheduler.timer with
    | none => none
    | some fireTime =>
      if fireTime ≤ now ∧ m.pendingFlagsScheduler.liveRequest then some (m, now) else none
  | _ => none

def timerTick (now : ℚ) : OctagonStateMachine φ ω :=
  if m.pendingFlagsScheduler.liveRequest then
    let sent := m.onqueueSendAnyPendingFlags now
    sent.setScheduler (sent.pendingFlagsScheduler.finishTick now)
  else m.setScheduler m.pendingFlagsScheduler.idleTick

def step : OctagonEvent φ ω → Option (OctagonStateMachine φ ω)
  | .handlePendingFlag pendingFlag now =>
    some ((m.prepareToHandle pendingFlag).onqueueSendAnyPendingFlags now)
  | .handleFlag flag => some (m.onqueueSetFlag flag)
  | .removeFlag flag => some (m.onqueueRemoveFlag flag)
  | .disablePendingFlags => some m.disallow
  | .trackerChanges condition holds => some (m.trackerChanges condition holds)
  | .reachabilityTimerExpires => some (m.runDependency .networkReachable)
  | .operationFinishes op => some (m.finishOperation op)
  | .blockRuns block now =>
    if block ∈ m.operationQueue ∧ m.ready block then
      some (((m.takeBlock block).prepareBlock block).onqueueSendAnyPendingFlags now)
    else none
  | .schedulerBlockRuns now =>
    match m.pendingFlagsScheduler.queue with
    | [] => none
    | delay :: queue =>
      some (m.setScheduler
        ({ m.pendingFlagsScheduler with queue := queue }.triggerAtBlock now delay))
  | .timerFires now =>
    match m.pendingFlagsScheduler.timer with
    | none => none
    | some fireTime => if fireTime ≤ now then some (m.timerTick now) else none
end OctagonStateMachine
end SecurityFramework
