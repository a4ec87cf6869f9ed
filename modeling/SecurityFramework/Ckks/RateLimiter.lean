import Mathlib.Algebra.GroupWithZero.Nat
import Mathlib.Algebra.Order.Ring.Unbundled.Rat
import Mathlib.Data.Rat.Defs
import SecurityFramework.Library.Dictionary
import SecurityFramework.Utilities.DerString

/-!
# The rate limiter

An item is judged by one bucket for each of its properties and by a global one. A bucket is a date,
from which the tokens it has follow. Dates are seconds since the reference date.
-/

namespace SecurityFramework
def distantPast : ℚ := -63114076800

def rateLimiterBadnessClear : Int := 0

def rateLimiterBadnessOverloaded : Int := 4

structure RateLimiterGroup where
  property : CFString
  capacity : Int32
  rate : Int32
  badness : Int32

structure RateLimiterConfig where
  maxStateSize : Nat
  maxItemAge : Int32
  overloadDuration : Nat
  groups : List RateLimiterGroup

/-- What an object answers to the approved selectors. -/
structure JudgedObject where
  accessGroup : Option CFString
  uuid : Option CFString

def getPropertyValue (selectorString : CFString) (obj : JudgedObject) : Option CFString :=
  if selectorString = cfstr "accessGroup" then obj.accessGroup
  else if selectorString = cfstr "uuid" then obj.uuid
  else none

/-- The first group has one bucket, whatever the object. -/
def RateLimiterGroup.nameOf (groupConfig : RateLimiterGroup) (idx : Nat) (obj : JudgedObject) :
    Option CFString :=
  if idx = 0 then some groupConfig.property else getPropertyValue groupConfig.property obj

structure RateLimiter where
  config : RateLimiterConfig
  groups : List (Dictionary CFString ℚ)
  lastJudgment : Option ℚ
  overloadUntil : Option ℚ

namespace RateLimiter
def reset (limiter : RateLimiter) : RateLimiter :=
  { limiter with
    groups := limiter.config.groups.map fun _ => ∅
    lastJudgment := some distantPast
    overloadUntil := none }

def initWithConfig (config : RateLimiterConfig) : RateLimiter :=
  reset { config, groups := [], lastJudgment := none, overloadUntil := none }

def stateSize (limiter : RateLimiter) : Nat :=
  (limiter.groups.map fun group => group.keys.card).sum

def trimGroup (threshold : Int32) (time : ℚ) (group : Dictionary CFString ℚ) :
    Dictionary CFString ℚ :=
  group.filterMap fun _ date => if threshold.toInt < time - date then none else some date

/-- The limiter is overloaded if there are still too many entries. -/
def trim (limiter : RateLimiter) (time : ℚ) : RateLimiter :=
  let limiter :=
    { limiter with groups := limiter.groups.map (trimGroup limiter.config.maxItemAge time) }
  { limiter with
    overloadUntil :=
      if limiter.config.maxStateSize < limiter.stateSize then
        some (time + limiter.config.overloadDuration)
      else none }

def consumeTokenFromBucket (group : Dictionary CFString ℚ) (config : RateLimiterGroup)
    (name : CFString) (time : ℚ) : Option ℚ × Dictionary CFString ℚ :=
  let threshold : ℚ := time + (-(config.capacity * config.rate)).toInt
  let bucket : ℚ :=
    match group.lookup name with
    | none => threshold
    | some bucket => if bucket - threshold < 0 then threshold else bucket
  let bucket := bucket + config.rate.toInt
  (if bucket - time ≤ 0 then none else some bucket, group.insert name bucket)

/-- The groups from an index on, the badness and the time of the last token. A property that the
object does not have is passed over. -/
def judgeGroups (obj : JudgedObject) (time : ℚ) : Nat → List RateLimiterGroup →
    List (Dictionary CFString ℚ) → Int → ℚ → List (Dictionary CFString ℚ) × Int × ℚ
  | idx, groupConfig :: configs, group :: groups, badness, resultTime =>
    match groupConfig.nameOf idx obj with
    | none =>
      let (groups, result) := judgeGroups obj time (idx + 1) configs groups badness resultTime
      (group :: groups, result)
    | some name =>
      match consumeTokenFromBucket group groupConfig name time with
      | (none, group) =>
        let (groups, result) := judgeGroups obj time (idx + 1) configs groups badness resultTime
        (group :: groups, result)
      | (some singleTokenTime, group) =>
        let (groups, result) := judgeGroups obj time (idx + 1) configs groups
          (max groupConfig.badness.toInt badness) (max resultTime singleTokenTime)
        (group :: groups, result)
  | _, _, groups, badness, resultTime => (groups, badness, resultTime)

def trimOverload (limiter : RateLimiter) (time : ℚ) : RateLimiter :=
  match limiter.overloadUntil with
  | some overloadUntil => if 0 ≤ time - overloadUntil then limiter.trim time else limiter
  | none => limiter

def isStale (limiter : RateLimiter) (time : ℚ) : Bool :=
  (limiter.lastJudgment.any fun last => (limiter.config.maxItemAge.toInt : ℚ) < time - last) ||
    limiter.config.maxStateSize < limiter.stateSize

def trimStale (limiter : RateLimiter) (time : ℚ) : RateLimiter :=
  if limiter.isStale time then limiter.trim time else limiter

def judgeBuckets (limiter : RateLimiter) (obj : JudgedObject) (time : ℚ) :
    (Int × Option ℚ) × RateLimiter :=
  let (groups, badness, resultTime) := judgeGroups obj time 0 limiter.config.groups limiter.groups
    rateLimiterBadnessClear distantPast
  ((badness, if badness = rateLimiterBadnessClear then none else some resultTime),
    { limiter with groups, lastJudgment := some time })

/-- The badness and the limit time. Rate limiting may be disabled by a preference. -/
def judge (limiter : RateLimiter) (disabled : Bool) (obj : JudgedObject) (time : ℚ) :
    (Int × Option ℚ) × RateLimiter :=
  if disabled then ((rateLimiterBadnessClear, none), limiter)
  else
    let limiter := limiter.trimOverload time
    match limiter.overloadUntil with
    | some overloadUntil => ((rateLimiterBadnessOverloaded, some overloadUntil), limiter)
    | none =>
      let limiter := limiter.trimStale time
      match limiter.overloadUntil with
      | some overloadUntil => ((rateLimiterBadnessOverloaded, some overloadUntil), limiter)
      | none => limiter.judgeBuckets obj time
end RateLimiter
end SecurityFramework
