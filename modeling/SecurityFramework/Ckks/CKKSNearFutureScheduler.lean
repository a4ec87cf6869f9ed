import Mathlib.Data.Rat.Floor

/-!
# The near future scheduler

A scheduler runs one block at a time of its choosing: requests that come close together are
answered by one call. Dates are seconds, delays are nanoseconds, and the clock may be set at any
time, so each block on the scheduler's queue brings the date it reads.
-/

namespace SecurityFramework
def nsecPerSec : Nat := 10 ^ 9

def dispatchTimeNow : Nat := 0

def dispatchTimeForever : Nat := 2 ^ 64 - 1

def dateSinceNow (now : ℚ) (delay : Nat) : ℚ :=
  now + delay / nsecPerSec

/-- `dispatch_walltime`, whose delay is signed. -/
def dispatchWalltime (now : ℚ) (delay : Nat) : ℚ :=
  now + (BitVec.ofNat 64 delay).toInt / nsecPerSec

/-- The timer is the date it is armed for, or none where it is missing or cancelled. The blocks are
the delays of `triggerAt:` that wait on the queue. -/
structure CKKSNearFutureScheduler where
  initialDelay : Nat
  currentDelay : Nat
  maximumDelay : Nat
  backoff : ℚ
  predictedNextFireTime : Option ℚ
  liveRequest : Bool
  timer : Option ℚ
  queue : List Nat
  deriving DecidableEq

namespace CKKSNearFutureScheduler
def init (initialDelay continuingDelay : Nat) : CKKSNearFutureScheduler where
  initialDelay := initialDelay
  currentDelay := initialDelay
  maximumDelay := continuingDelay
  backoff := max (if initialDelay > 0 then continuingDelay / initialDelay else 1 : Nat) 1
  predictedNextFireTime := none
  liveRequest := false
  timer := none
  queue := []

variable (s : CKKSNearFutureScheduler)

def cancelTimer : CKKSNearFutureScheduler :=
  { s with timer := none, predictedNextFireTime := none }

def armTimer (now : ℚ) (delay : Nat) : CKKSNearFutureScheduler :=
  { s with
    timer := some (dispatchWalltime now delay)
    predictedNextFireTime := some (dateSinceNow now delay) }

def setLiveRequest (live : Bool) : CKKSNearFutureScheduler :=
  { s with liveRequest := live }

def setCurrentDelay (delay : Nat) : CKKSNearFutureScheduler :=
  { s with currentDelay := delay }

def triggerAt (delay : Nat) : CKKSNearFutureScheduler :=
  { s with queue := s.queue ++ [delay] }

def cancelIfTooEarly (now : ℚ) (requestedDelay : Nat) : CKKSNearFutureScheduler :=
  match s.predictedNextFireTime with
  | none => s
  | some predicted =>
    if requestedDelay ≠ dispatchTimeNow then
      if dateSinceNow now requestedDelay ≤ predicted then s else s.cancelTimer
    else s

def cancelIfTooLate (now : ℚ) (requestedDelay maximumDelay : Nat) : CKKSNearFutureScheduler :=
  match s.predictedNextFireTime with
  | none => s
  | some predicted =>
    if maximumDelay ≠ dispatchTimeForever then
      if dateSinceNow now requestedDelay ≤ predicted then s.cancelTimer else s
    else s

def actualDelay (requestedDelay maximumDelay : Nat) : Nat :=
  let delay := if requestedDelay ≠ dispatchTimeNow then max s.currentDelay requestedDelay
    else s.currentDelay
  if maximumDelay ≠ dispatchTimeForever then min delay maximumDelay else delay

def startTimer (now : ℚ) (requestedDelay maximumDelay : Nat) : CKKSNearFutureScheduler :=
  match s.timer with
  | some _ => s
  | none => s.armTimer now (s.actualDelay requestedDelay maximumDelay)

def onqueueTrigger (now : ℚ) (requestedDelay maximumDelay : Nat) : CKKSNearFutureScheduler :=
  ((s.cancelIfTooEarly now requestedDelay).cancelIfTooLate now requestedDelay maximumDelay).startTimer
    now requestedDelay maximumDelay

def triggerAtBlock (now : ℚ) (delay : Nat) : CKKSNearFutureScheduler :=
  (s.setLiveRequest true).onqueueTrigger now
    (if delay = dispatchTimeForever then dispatchTimeNow else delay) delay

def nextDelay : Nat :=
  if s.currentDelay = 0 then s.maximumDelay
  else ⌊min (s.currentDelay * s.backoff) s.maximumDelay⌋₊

def finishTick (now : ℚ) : CKKSNearFutureScheduler :=
  ((s.setLiveRequest false).setCurrentDelay s.nextDelay).armTimer now s.nextDelay

def idleTick : CKKSNearFutureScheduler :=
  s.cancelTimer.setCurrentDelay s.initialDelay

def Armed : Prop :=
  s.timer.isSome ∧ s.liveRequest = true

instance : Decidable s.Armed := by
  unfold Armed
  infer_instance

theorem cancelIfTooEarly_liveRequest (now : ℚ) (requestedDelay : Nat) :
    (s.cancelIfTooEarly now requestedDelay).liveRequest = s.liveRequest := by
  unfold cancelIfTooEarly cancelTimer
  split
  · rfl
  · split_ifs <;> rfl

theorem cancelIfTooLate_liveRequest (now : ℚ) (requestedDelay maximumDelay : Nat) :
    (s.cancelIfTooLate now requestedDelay maximumDelay).liveRequest = s.liveRequest := by
  unfold cancelIfTooLate cancelTimer
  split
  · rfl
  · split_ifs <;> rfl

theorem startTimer_timer (now : ℚ) (requestedDelay maximumDelay : Nat) :
    (s.startTimer now requestedDelay maximumDelay).timer.isSome := by
  unfold startTimer armTimer
  split
  next fireTime h => exact h ▸ rfl
  next => rfl

theorem startTimer_liveRequest (now : ℚ) (requestedDelay maximumDelay : Nat) :
    (s.startTimer now requestedDelay maximumDelay).liveRequest = s.liveRequest := by
  unfold startTimer armTimer
  split <;> rfl

theorem triggerAtBlock_armed (now : ℚ) (delay : Nat) : (s.triggerAtBlock now delay).Armed := by
  constructor
  · exact startTimer_timer _ _ _ _
  · unfold triggerAtBlock onqueueTrigger
    rw [startTimer_liveRequest, cancelIfTooLate_liveRequest, cancelIfTooEarly_liveRequest]
    rfl
end CKKSNearFutureScheduler
end SecurityFramework
