import Mathlib.Algebra.Order.BigOperators.Group.List
import SecurityFramework.Ckks.RateLimiter
import SecurityFramework.Library.TokenBucket

/-! # The rate limiter is a set of token buckets -/

namespace SecurityFramework
open TokenBucket

/-- The buckets of all groups. One that was never used is full. -/
abbrev RateBuckets := Nat → CFString → Option (TokenBucket ℚ)

namespace RateLimiterGroup
def levelAt (groupConfig : RateLimiterGroup) : Option (TokenBucket ℚ) → ℚ → ℚ :=
  level groupConfig.capacity.toInt groupConfig.rate.toInt

def takeAt (groupConfig : RateLimiterGroup) : Option (TokenBucket ℚ) → ℚ → TokenBucket ℚ :=
  take groupConfig.capacity.toInt groupConfig.rate.toInt

def nextAt (groupConfig : RateLimiterGroup) : Option ℚ → ℚ → ℚ :=
  nextDate groupConfig.capacity.toInt groupConfig.rate.toInt

def Kept (groupConfig : RateLimiterGroup) (date : Option ℚ) (bucket : Option (TokenBucket ℚ))
    (now : ℚ) : Prop :=
  Keeps (groupConfig.capacity.toInt : ℚ) groupConfig.rate.toInt date bucket now

/-- Some tokens come, some fit, and a full bucket is forgotten in time. -/
structure Valid (groupConfig : RateLimiterGroup) (maxItemAge : Int32) : Prop where
  capacity : 0 < groupConfig.capacity.toInt
  rate : 0 < groupConfig.rate.toInt
  age : groupConfig.capacity.toInt * groupConfig.rate.toInt ≤ maxItemAge.toInt

theorem Valid.rate_pos {groupConfig : RateLimiterGroup} {maxItemAge : Int32}
    (h : groupConfig.Valid maxItemAge) : (0 : ℚ) < groupConfig.rate.toInt :=
  Int.cast_pos.mpr h.rate
end RateLimiterGroup

namespace RateBuckets
def asked (config : RateLimiterConfig) (obj : JudgedObject) (idx : Nat) : Option CFString :=
  config.groups[idx]?.bind fun groupConfig => groupConfig.nameOf idx obj

/-- The badness of a group whose bucket has no token left, and when what is borrowed will have
come. -/
def shortage (buckets : RateBuckets) (obj : JudgedObject) (time : ℚ)
    (group : RateLimiterGroup × Nat) : Option (Int × ℚ) :=
  (group.1.nameOf group.2 obj).bind fun name =>
    if group.1.levelAt (buckets group.2 name) time < 1 then
      some (group.1.badness.toInt,
        repaidAt (group.1.rate.toInt : ℚ) (group.1.takeAt (buckets group.2 name) time))
    else none

def shortages (buckets : RateBuckets) (config : RateLimiterConfig) (obj : JudgedObject) (time : ℚ) :
    List (Int × ℚ) :=
  config.groups.zipIdx.filterMap (buckets.shortage obj time)

def answer (buckets : RateBuckets) (config : RateLimiterConfig) (obj : JudgedObject) (time : ℚ) :
    Int × Option ℚ :=
  let empty := buckets.shortages config obj time
  let badness := (empty.map Prod.fst).foldl max 0
  (badness, if badness = 0 then none else some ((empty.map Prod.snd).foldl max distantPast))

def takeAll (buckets : RateBuckets) (config : RateLimiterConfig) (obj : JudgedObject) (time : ℚ) :
    RateBuckets :=
  fun idx name =>
    match config.groups[idx]? with
    | some groupConfig =>
      if groupConfig.nameOf idx obj = some name then
        some (groupConfig.takeAt (buckets idx name) time)
      else buckets idx name
    | none => buckets idx name
end RateBuckets

variable {groupConfig : RateLimiterGroup} {maxItemAge : Int32} {buckets : RateBuckets}
  {config : RateLimiterConfig}

theorem threshold_toInt (hvalid : groupConfig.Valid maxItemAge) :
    (-(groupConfig.capacity * groupConfig.rate)).toInt =
      -(groupConfig.capacity.toInt * groupConfig.rate.toInt) := by
  have hmax := maxItemAge.toInt_lt
  have hproduct := mul_pos hvalid.capacity hvalid.rate
  have hage := hvalid.age
  have hmul : (groupConfig.capacity * groupConfig.rate).toInt =
      groupConfig.capacity.toInt * groupConfig.rate.toInt := by
    rw [Int32.toInt_mul]
    apply Int.bmod_eq_of_le <;> omega
  rw [Int32.toInt_neg, hmul]
  apply Int.bmod_eq_of_le <;> omega

theorem consumeTokenFromBucket_eq (hvalid : groupConfig.Valid maxItemAge)
    (group : Dictionary CFString ℚ) (name : CFString) (time : ℚ) :
    RateLimiter.consumeTokenFromBucket group groupConfig name time =
      (if groupConfig.nextAt (group.lookup name) time ≤ time then none
        else some (groupConfig.nextAt (group.lookup name) time),
        group.insert name (groupConfig.nextAt (group.lookup name) time)) := by
  simp only [RateLimiter.consumeTokenFromBucket, threshold_toInt hvalid, Int.cast_neg,
    Int.cast_mul, sub_nonpos, RateLimiterGroup.nextAt, nextDate, ← sub_eq_add_neg]
  cases group.lookup name with
  | none => rfl
  | some date =>
    have hmax : (if date < time - (groupConfig.capacity.toInt : ℚ) * groupConfig.rate.toInt then
          time - (groupConfig.capacity.toInt : ℚ) * groupConfig.rate.toInt else date) =
        max date (time - groupConfig.capacity.toInt * groupConfig.rate.toInt) := by
      split
      case isTrue hlt => exact (max_eq_right hlt.le).symm
      case isFalse hle => exact (max_eq_left (not_lt.mp hle)).symm
    simp only [sub_neg, hmax]
    rfl

theorem nextAt_le_iff (hvalid : groupConfig.Valid maxItemAge) {date : Option ℚ}
    {bucket : Option (TokenBucket ℚ)} {now time : ℚ} (hkept : groupConfig.Kept date bucket now)
    (htime : now ≤ time) :
    groupConfig.nextAt date time ≤ time ↔ ¬groupConfig.levelAt bucket time < 1 := by
  rw [RateLimiterGroup.nextAt, nextDate_le_iff hvalid.rate_pos, hkept time htime, not_lt]
  rfl

def KeptFrom (buckets : RateBuckets) (now : ℚ) :
    Nat → List RateLimiterGroup → List (Dictionary CFString ℚ) → Prop
  | _, [], [] => True
  | idx, groupConfig :: configs, group :: groups =>
    (∀ name, groupConfig.Kept (group.lookup name) (buckets idx name) now) ∧
      KeptFrom buckets now (idx + 1) configs groups
  | _, _, _ => False

theorem takeAll_of_ne {obj : JudgedObject} {time : ℚ} {idx : Nat} {name : CFString}
    (hconfig : config.groups[idx]? = some groupConfig)
    (hname : groupConfig.nameOf idx obj ≠ some name) :
    buckets.takeAll config obj time idx name = buckets idx name := by
  simp only [RateBuckets.takeAll, hconfig, if_neg hname]

theorem takeAll_of_eq {obj : JudgedObject} {time : ℚ} {idx : Nat} {name : CFString}
    (hconfig : config.groups[idx]? = some groupConfig)
    (hname : groupConfig.nameOf idx obj = some name) :
    buckets.takeAll config obj time idx name =
      some (groupConfig.takeAt (buckets idx name) time) := by
  simp only [RateBuckets.takeAll, hconfig, if_pos hname]

theorem kept_insert (hvalid : groupConfig.Valid maxItemAge) {obj : JudgedObject} {idx : Nat}
    (hconfig : config.groups[idx]? = some groupConfig) {group : Dictionary CFString ℚ}
    {now time : ℚ} (htime : now ≤ time)
    (hkept : ∀ name, groupConfig.Kept (group.lookup name) (buckets idx name) now) {name : CFString}
    (hname : groupConfig.nameOf idx obj = some name) (other : CFString) :
    groupConfig.Kept
      ((group.insert name (groupConfig.nextAt (group.lookup name) time)).lookup other)
      (buckets.takeAll config obj time idx other) time := by
  by_cases hother : other = name
  case pos =>
    rw [hother, Finmap.lookup_insert, takeAll_of_eq hconfig hname]
    exact (hkept name).take hvalid.rate_pos htime
  case neg =>
    have hne : groupConfig.nameOf idx obj ≠ some other := by
      rw [hname]
      exact fun heq => hother (Option.some.inj heq).symm
    rw [Finmap.lookup_insert_of_ne _ hother, takeAll_of_ne hconfig hne]
    exact (hkept other).mono htime

theorem judgeGroups_spec {config : RateLimiterConfig} {obj : JudgedObject} {buckets : RateBuckets}
    {maxItemAge : Int32} {now time : ℚ} (htime : now ≤ time) (configs : List RateLimiterGroup)
    (hvalid : ∀ groupConfig ∈ configs, groupConfig.Valid maxItemAge)
    {groups : List (Dictionary CFString ℚ)} {idx : Nat}
    (hconfigs : ∀ i, configs[i]? = config.groups[idx + i]?)
    (hkept : KeptFrom buckets now idx configs groups) (badness : Int) (resultTime : ℚ) :
    KeptFrom (buckets.takeAll config obj time) time idx configs
        (RateLimiter.judgeGroups obj time idx configs groups badness resultTime).1 ∧
      (RateLimiter.judgeGroups obj time idx configs groups badness resultTime).2 =
        ((((configs.zipIdx idx).filterMap (buckets.shortage obj time)).map Prod.fst).foldl max
            badness,
          (((configs.zipIdx idx).filterMap (buckets.shortage obj time)).map Prod.snd).foldl max
            resultTime) := by
  induction configs generalizing groups idx badness resultTime with
  | nil =>
    cases groups with
    | nil => exact ⟨trivial, rfl⟩
    | cons group groups => cases hkept
  | cons groupConfig configs ih =>
    cases groups with
    | nil => cases hkept
    | cons group groups =>
      obtain ⟨hgroup, hrest⟩ := hkept
      have hconfig : config.groups[idx]? = some groupConfig := (hconfigs 0).symm
      have hconfigs' : ∀ i, configs[i]? = config.groups[idx + 1 + i]? := by
        intro i
        rw [Nat.add_assoc, Nat.add_comm 1 i]
        exact hconfigs (i + 1)
      have hvalid' := hvalid groupConfig List.mem_cons_self
      have hlater := fun badness resultTime =>
        ih (fun later hmem => hvalid later (.tail _ hmem)) hconfigs' hrest badness resultTime
      rw [List.zipIdx_cons, List.filterMap_cons]
      cases hname : groupConfig.nameOf idx obj with
      | none =>
        have hshortage : buckets.shortage obj time (groupConfig, idx) = none := by
          simp only [RateBuckets.shortage, hname, Option.bind_none]
        obtain ⟨hkept', hresult⟩ := hlater badness resultTime
        simp only [RateLimiter.judgeGroups, hname, hshortage]
        refine ⟨⟨fun name => ?_, hkept'⟩, hresult⟩
        rw [takeAll_of_ne hconfig (by simp [hname])]
        exact (hgroup name).mono htime
      | some name =>
        have hinsert := kept_insert hvalid' hconfig htime hgroup hname
        have hiff := nextAt_le_iff hvalid' (hgroup name) htime
        have hdate : groupConfig.nextAt (group.lookup name) time =
            repaidAt (groupConfig.rate.toInt : ℚ) (groupConfig.takeAt (buckets idx name) time) :=
          (hgroup name).nextDate_eq_repaidAt hvalid'.rate_pos htime
        simp only [RateLimiter.judgeGroups, hname, consumeTokenFromBucket_eq hvalid']
        by_cases hclear : groupConfig.nextAt (group.lookup name) time ≤ time
        case pos =>
          have hshortage : buckets.shortage obj time (groupConfig, idx) = none := by
            simp only [RateBuckets.shortage, hname, Option.bind_some, if_neg (hiff.mp hclear)]
          obtain ⟨hkept', hresult⟩ := hlater badness resultTime
          simp only [if_pos hclear, hshortage]
          exact ⟨⟨hinsert, hkept'⟩, hresult⟩
        case neg =>
          have hshort : groupConfig.levelAt (buckets idx name) time < 1 :=
            not_not.mp (hiff.not.mp hclear)
          have hshortage : buckets.shortage obj time (groupConfig, idx) =
              some (groupConfig.badness.toInt, groupConfig.nextAt (group.lookup name) time) := by
            simp only [RateBuckets.shortage, hname, Option.bind_some, if_pos hshort, hdate]
          obtain ⟨hkept', hresult⟩ := hlater (max groupConfig.badness.toInt badness)
            (max resultTime (groupConfig.nextAt (group.lookup name) time))
          simp only [if_neg hclear, hshortage, List.map_cons, List.foldl_cons]
          refine ⟨⟨hinsert, hkept'⟩, ?_⟩
          rw [hresult, max_comm badness]

theorem KeptFrom.get {now : ℚ} {configs : List RateLimiterGroup}
    {groups : List (Dictionary CFString ℚ)} {idx i : Nat}
    (hkept : KeptFrom buckets now idx configs groups) (hconfig : configs[i]? = some groupConfig) :
    ∃ group, groups[i]? = some group ∧
      ∀ name, groupConfig.Kept (group.lookup name) (buckets (idx + i) name) now := by
  induction configs generalizing groups idx i with
  | nil => cases hconfig
  | cons first configs ih =>
    cases groups with
    | nil => cases hkept
    | cons group groups =>
      cases i with
      | zero =>
        cases hconfig
        exact ⟨group, rfl, hkept.1⟩
      | succ i =>
        have hrest := ih hkept.2 hconfig
        rw [Nat.add_assoc, Nat.add_comm 1 i] at hrest
        exact hrest

theorem KeptFrom.trim {now time : ℚ} (htime : now ≤ time) {configs : List RateLimiterGroup}
    (hvalid : ∀ groupConfig ∈ configs, groupConfig.Valid maxItemAge)
    {groups : List (Dictionary CFString ℚ)} {idx : Nat}
    (hkept : KeptFrom buckets now idx configs groups) :
    KeptFrom buckets time idx configs (groups.map (RateLimiter.trimGroup maxItemAge time)) := by
  induction configs generalizing groups idx with
  | nil =>
    cases groups with
    | nil => exact trivial
    | cons group groups => cases hkept
  | cons groupConfig configs ih =>
    cases groups with
    | nil => cases hkept
    | cons group groups =>
      obtain ⟨hgroup, hrest⟩ := hkept
      have hvalid' := hvalid groupConfig List.mem_cons_self
      refine ⟨fun name => ?_, ih (fun later hmem => hvalid later (.tail _ hmem)) hrest⟩
      rw [RateLimiter.trimGroup, Dictionary.lookup_filterMap]
      cases hfind : group.lookup name with
      | none =>
        have hname := hgroup name
        rw [hfind] at hname
        exact hname.mono htime
      | some date =>
        rw [Option.bind_some]
        have hname := hgroup name
        rw [hfind] at hname
        split
        case isFalse => exact hname.mono htime
        case isTrue hold =>
          refine hname.drop hvalid'.rate_pos htime ?_
          rintro _ ⟨⟩
          have hage : (groupConfig.capacity.toInt : ℚ) * groupConfig.rate.toInt ≤
              maxItemAge.toInt := by exact_mod_cast hvalid'.age
          exact hage.trans hold.le

/-- The limiter is not overloaded, and its dates keep the buckets from a time on. -/
structure RateLimiter.Represents (limiter : RateLimiter) (config : RateLimiterConfig)
    (buckets : RateBuckets) (now : ℚ) : Prop where
  config_eq : limiter.config = config
  notOverloaded : limiter.overloadUntil = none
  kept : KeptFrom buckets now 0 config.groups limiter.groups

def RateLimiterConfig.Valid (config : RateLimiterConfig) : Prop :=
  ∀ groupConfig ∈ config.groups, groupConfig.Valid config.maxItemAge

theorem stateSize_trim_le (limiter : RateLimiter) (time : ℚ) :
    (limiter.trim time).stateSize ≤ limiter.stateSize := by
  rw [RateLimiter.stateSize, RateLimiter.stateSize, RateLimiter.trim, List.map_map]
  apply List.sum_le_sum
  intro group _
  exact Dictionary.card_keys_filterMap_le _ group

namespace RateLimiter.Represents
variable {limiter : RateLimiter} {config : RateLimiterConfig} {buckets : RateBuckets} {now time : ℚ}

theorem initial (config : RateLimiterConfig) (now : ℚ) :
    (initWithConfig config).Represents config (fun _ _ => none) now := by
  refine ⟨rfl, rfl, ?_⟩
  have hempty : ∀ (configs : List RateLimiterGroup) (idx : Nat),
      KeptFrom (fun _ _ => none) now idx configs (configs.map fun _ => ∅) := by
    intro configs
    induction configs with
    | nil => exact fun _ => trivial
    | cons groupConfig configs ih =>
      refine fun idx => ⟨fun name => ?_, ih (idx + 1)⟩
      intro later _
      rw [Finmap.lookup_empty]
      rfl
  exact hempty config.groups 0

theorem trim (hvalid : config.Valid) (h : limiter.Represents config buckets now)
    (htime : now ≤ time) (hsmall : limiter.stateSize ≤ config.maxStateSize) :
    (limiter.trim time).Represents config buckets time := by
  have hle := (stateSize_trim_le limiter time).trans hsmall
  refine ⟨h.config_eq, ?_, ?_⟩
  · have hnot : ¬limiter.config.maxStateSize < (limiter.trim time).stateSize := by
      rw [h.config_eq]
      exact not_lt.mpr hle
    exact if_neg hnot
  · have hkept := h.kept.trim htime hvalid
    rw [← h.config_eq] at hkept ⊢
    exact hkept

theorem mono (h : limiter.Represents config buckets now) (htime : now ≤ time) :
    limiter.Represents config buckets time := by
  refine ⟨h.config_eq, h.notOverloaded, ?_⟩
  have hmono : ∀ (configs : List RateLimiterGroup) (groups : List (Dictionary CFString ℚ))
      (idx : Nat), KeptFrom buckets now idx configs groups →
        KeptFrom buckets time idx configs groups := by
    intro configs
    induction configs with
    | nil =>
      intro groups idx hkept
      cases groups with
      | nil => exact trivial
      | cons group groups => cases hkept
    | cons groupConfig configs ih =>
      intro groups idx hkept
      cases groups with
      | nil => cases hkept
      | cons group groups =>
        exact ⟨fun name => (hkept.1 name).mono htime, ih groups (idx + 1) hkept.2⟩
  exact hmono _ _ _ h.kept

theorem trimStale (hvalid : config.Valid) (h : limiter.Represents config buckets now)
    (htime : now ≤ time) (hsmall : limiter.stateSize ≤ config.maxStateSize) :
    ((limiter.trimOverload time).trimStale time).Represents config buckets time := by
  have hsame : limiter.trimOverload time = limiter := by
    simp only [RateLimiter.trimOverload, h.notOverloaded]
  rw [hsame, RateLimiter.trimStale]
  split
  · exact h.trim hvalid htime hsmall
  · exact h.mono htime

theorem judgeBuckets (hvalid : config.Valid) (h : limiter.Represents config buckets now)
    (htime : now ≤ time) (obj : JudgedObject) :
    (limiter.judgeBuckets obj time).1 = buckets.answer config obj time ∧
      (limiter.judgeBuckets obj time).2.Represents config (buckets.takeAll config obj time) time := by
  have hspec := @judgeGroups_spec config obj buckets _ _ _ htime config.groups hvalid limiter.groups 0
    (fun i => by rw [Nat.zero_add]) h.kept rateLimiterBadnessClear distantPast
  rw [← h.config_eq] at hspec ⊢
  generalize hjudged : RateLimiter.judgeGroups obj time 0 limiter.config.groups limiter.groups
    rateLimiterBadnessClear distantPast = judged at hspec
  obtain ⟨groups, result⟩ := judged
  obtain ⟨hkept, rfl⟩ := hspec
  simp only [RateLimiter.judgeBuckets, hjudged]
  exact ⟨rfl, rfl, h.notOverloaded, hkept⟩

theorem judge (hvalid : config.Valid) (h : limiter.Represents config buckets now)
    (htime : now ≤ time) (hsmall : limiter.stateSize ≤ config.maxStateSize) (disabled : Bool)
    (obj : JudgedObject) :
    (limiter.judge disabled obj time).1 =
        (if disabled then (0, none) else buckets.answer config obj time) ∧
      (limiter.judge disabled obj time).2.Represents config
        (if disabled then buckets else buckets.takeAll config obj time) time := by
  cases disabled with
  | true => exact ⟨rfl, h.mono htime⟩
  | false =>
    have htrimmed := h.trimStale hvalid htime hsmall
    have hjudged := htrimmed.judgeBuckets hvalid le_rfl obj
    have hstep : limiter.judge false obj time =
        ((limiter.trimOverload time).trimStale time).judgeBuckets obj time := by
      have hquiet : (limiter.trimOverload time).overloadUntil = none := by
        rw [RateLimiter.trimOverload, h.notOverloaded]
        exact h.notOverloaded
      simp only [RateLimiter.judge, hquiet, htrimmed.notOverloaded]
      rfl
    rw [hstep]
    exact hjudged
end RateLimiter.Represents

inductive RateLimiterEvent where
  | judge (disabled : Bool) (obj : JudgedObject) (time : ℚ)
  | trim (time : ℚ)

def RateLimiterEvent.time : RateLimiterEvent → ℚ
  | .judge _ _ time => time
  | .trim time => time

namespace RateLimiter
def after (limiter : RateLimiter) : RateLimiterEvent → RateLimiter
  | .judge disabled obj time => (limiter.judge disabled obj time).2
  | .trim time => limiter.trim time

def answers : RateLimiter → List RateLimiterEvent → List (Int × Option ℚ)
  | _, [] => []
  | limiter, .judge disabled obj time :: events =>
    (limiter.judge disabled obj time).1 ::
      answers (limiter.after (.judge disabled obj time)) events
  | limiter, .trim time :: events => answers (limiter.after (.trim time)) events

def StaysSmall : RateLimiter → List RateLimiterEvent → Prop
  | limiter, [] => limiter.stateSize ≤ limiter.config.maxStateSize
  | limiter, event :: events =>
    limiter.stateSize ≤ limiter.config.maxStateSize ∧ StaysSmall (limiter.after event) events

instance StaysSmall.decidable :
    (limiter : RateLimiter) → (events : List RateLimiterEvent) → Decidable (limiter.StaysSmall events)
  | _, [] => inferInstanceAs (Decidable (_ ≤ _))
  | limiter, event :: events =>
    have := decidable (limiter.after event) events
    inferInstanceAs (Decidable (_ ∧ _))

/-- The call takes a token from the bucket of a name in a group, and the token is there. -/
def isClear (limiter : RateLimiter) (idx : Nat) (name : CFString) : RateLimiterEvent → Bool
  | .judge disabled obj time =>
    let limiter := (limiter.trimOverload time).trimStale time
    match limiter.config.groups[idx]?, limiter.groups[idx]? with
    | some groupConfig, some group =>
      !disabled && decide (groupConfig.nameOf idx obj = some name) &&
        (consumeTokenFromBucket group groupConfig name time).1.isNone
    | _, _ => false
  | .trim _ => false

def clearAnswers (idx : Nat) (name : CFString) : RateLimiter → List RateLimiterEvent → Nat
  | _, [] => 0
  | limiter, event :: events =>
    (if limiter.isClear idx name event then 1 else 0) +
      clearAnswers idx name (limiter.after event) events
end RateLimiter

namespace RateBuckets
def after (buckets : RateBuckets) (config : RateLimiterConfig) : RateLimiterEvent → RateBuckets
  | .judge disabled obj time => if disabled then buckets else buckets.takeAll config obj time
  | .trim _ => buckets

def answers (config : RateLimiterConfig) :
    RateBuckets → List RateLimiterEvent → List (Int × Option ℚ)
  | _, [] => []
  | buckets, .judge disabled obj time :: events =>
    (if disabled then (0, none) else buckets.answer config obj time) ::
      answers config (buckets.after config (.judge disabled obj time)) events
  | buckets, .trim time :: events => answers config (buckets.after config (.trim time)) events
end RateBuckets

def takeTimes (config : RateLimiterConfig) (idx : Nat) (name : CFString) :
    List RateLimiterEvent → List ℚ
  | [] => []
  | .judge disabled obj time :: events =>
    if disabled = false ∧ RateBuckets.asked config obj idx = some name then
      time :: takeTimes config idx name events
    else takeTimes config idx name events
  | .trim _ :: events => takeTimes config idx name events

theorem takeTimes_sublist (config : RateLimiterConfig) (idx : Nat) (name : CFString)
    (events : List RateLimiterEvent) :
    (takeTimes config idx name events).Sublist (events.map RateLimiterEvent.time) := by
  induction events with
  | nil => exact .slnil
  | cons event events ih =>
    cases event with
    | judge disabled obj time =>
      rw [takeTimes]
      split
      · exact ih.cons_cons _
      · exact ih.cons _
    | trim time => exact ih.cons _

namespace RateLimiter.Represents
variable {limiter : RateLimiter} {config : RateLimiterConfig} {buckets : RateBuckets} {now : ℚ}

theorem after (hvalid : config.Valid) (h : limiter.Represents config buckets now)
    {event : RateLimiterEvent} (htime : now ≤ event.time)
    (hsmall : limiter.stateSize ≤ limiter.config.maxStateSize) :
    (limiter.after event).Represents config (buckets.after config event) event.time := by
  rw [h.config_eq] at hsmall
  cases event with
  | judge disabled obj time => exact (h.judge hvalid htime hsmall disabled obj).2
  | trim time => exact h.trim hvalid htime hsmall

theorem answers_eq (hvalid : config.Valid) (h : limiter.Represents config buckets now)
    {events : List RateLimiterEvent}
    (hordered : (now :: events.map RateLimiterEvent.time).Pairwise (· ≤ ·))
    (hsmall : limiter.StaysSmall events) : limiter.answers events = buckets.answers config events := by
  induction events generalizing limiter buckets now with
  | nil => rfl
  | cons event events ih =>
    obtain ⟨hfirst, hrest⟩ := List.pairwise_cons.mp hordered
    have htime := hfirst event.time List.mem_cons_self
    have hlater := ih (h.after hvalid htime hsmall.1) hrest hsmall.2
    cases event with
    | judge disabled obj time =>
      have hsize := hsmall.1
      rw [h.config_eq] at hsize
      have hanswer : (limiter.judge disabled obj time).1 =
          if disabled then (0, none) else buckets.answer config obj time :=
        (h.judge hvalid htime hsize disabled obj).1
      rw [RateLimiter.answers, RateBuckets.answers, hanswer, hlater]
    | trim time => exact hlater

theorem afterAll (hvalid : config.Valid) (h : limiter.Represents config buckets now)
    {before window : List RateLimiterEvent}
    (hordered : (now :: (before ++ window).map RateLimiterEvent.time).Pairwise (· ≤ ·))
    (hsmall : limiter.StaysSmall (before ++ window)) :
    ∃ buckets' now', (before.foldl RateLimiter.after limiter).Represents config buckets' now' ∧
      (now' :: window.map RateLimiterEvent.time).Pairwise (· ≤ ·) ∧
      (before.foldl RateLimiter.after limiter).StaysSmall window := by
  induction before generalizing limiter buckets now with
  | nil => exact ⟨buckets, now, h, hordered, hsmall⟩
  | cons event before ih =>
    obtain ⟨hfirst, hrest⟩ := List.pairwise_cons.mp hordered
    have htime := hfirst event.time List.mem_cons_self
    exact ih (h.after hvalid htime hsmall.1) hrest hsmall.2

/-- A call is clear in a group if it is asked there and the bucket has a token. -/
theorem isClear_iff (hvalid : config.Valid) (h : limiter.Represents config buckets now) {time : ℚ}
    (htime : now ≤ time) (hsmall : limiter.stateSize ≤ config.maxStateSize) {idx : Nat}
    (hconfig : config.groups[idx]? = some groupConfig) (name : CFString) (disabled : Bool)
    (obj : JudgedObject) :
    limiter.isClear idx name (.judge disabled obj time) = true ↔
      (disabled = false ∧ groupConfig.nameOf idx obj = some name) ∧
        1 ≤ groupConfig.levelAt (buckets idx name) time := by
  have htrimmed := h.trimStale hvalid htime hsmall
  obtain ⟨group, hgroup, hkept⟩ := htrimmed.kept.get hconfig
  have hvalid' := hvalid groupConfig (List.mem_of_getElem? hconfig)
  have hconfig' : ((limiter.trimOverload time).trimStale time).config.groups[idx]? =
      some groupConfig := by
    rw [htrimmed.config_eq]
    exact hconfig
  have hiff := nextAt_le_iff hvalid' (hkept name) le_rfl
  rw [Nat.zero_add, not_lt] at hiff
  simp only [RateLimiter.isClear, hconfig', hgroup, consumeTokenFromBucket_eq hvalid',
    Bool.and_eq_true, Bool.not_eq_true', decide_eq_true_eq, ← hiff]
  by_cases hclear : groupConfig.nextAt (group.lookup name) time ≤ time <;> simp [hclear]

theorem clearAnswers_eq (hvalid : config.Valid) (h : limiter.Represents config buckets now)
    {idx : Nat} (hconfig : config.groups[idx]? = some groupConfig) (name : CFString)
    {events : List RateLimiterEvent}
    (hordered : (now :: events.map RateLimiterEvent.time).Pairwise (· ≤ ·))
    (hsmall : limiter.StaysSmall events) :
    limiter.clearAnswers idx name events =
      clearTakes (groupConfig.capacity.toInt : ℚ) groupConfig.rate.toInt (buckets idx name)
        (takeTimes config idx name events) := by
  induction events generalizing limiter buckets now with
  | nil => rfl
  | cons event events ih =>
    obtain ⟨hfirst, hrest⟩ := List.pairwise_cons.mp hordered
    have htime := hfirst event.time List.mem_cons_self
    have hlater := ih (h.after hvalid htime hsmall.1) hrest hsmall.2
    rw [RateLimiter.clearAnswers, hlater]
    cases event with
    | trim time => exact Nat.zero_add _
    | judge disabled obj time =>
      have hsize := hsmall.1
      rw [h.config_eq] at hsize
      have hiff := h.isClear_iff hvalid htime hsize hconfig name disabled obj
      have hasked : RateBuckets.asked config obj idx = groupConfig.nameOf idx obj := by
        rw [RateBuckets.asked, hconfig, Option.bind_some]
      rw [takeTimes, hasked]
      by_cases htaken : disabled = false ∧ groupConfig.nameOf idx obj = some name
      case pos =>
        have hnext : buckets.after config (.judge disabled obj time) idx name =
            some (groupConfig.takeAt (buckets idx name) time) := by
          rw [RateBuckets.after, htaken.1]
          exact takeAll_of_eq hconfig htaken.2
        have hclear : limiter.isClear idx name (.judge disabled obj time) = true ↔
            1 ≤ groupConfig.levelAt (buckets idx name) time :=
          hiff.trans (and_iff_right htaken)
        rw [if_pos htaken, clearTakes, hnext]
        congr 1
        exact if_congr hclear rfl rfl
      case neg =>
        have hnext : buckets.after config (.judge disabled obj time) idx name =
            buckets idx name := by
          rw [RateBuckets.after]
          split
          · rfl
          · rename_i henabled
            have hname : groupConfig.nameOf idx obj ≠ some name :=
              fun hname => htaken ⟨by simpa using henabled, hname⟩
            exact takeAll_of_ne hconfig hname
        have hnot : ¬limiter.isClear idx name (.judge disabled obj time) = true :=
          fun hclear => htaken (hiff.mp hclear).1
        rw [if_neg htaken, hnext, if_neg hnot, Nat.zero_add]
end RateLimiter.Represents

def oneBucket (badness : Int32) : RateLimiterConfig where
  maxStateSize := 1
  maxItemAge := 10
  overloadDuration := 0
  groups := [⟨[], 1, 10, badness⟩]

theorem oneBucket_valid (badness : Int32) : (oneBucket badness).Valid := by
  intro groupConfig hmem
  cases List.mem_singleton.mp hmem
  exact ⟨(by decide : 0 < (1 : Int32).toInt), (by decide : 0 < (10 : Int32).toInt),
    (by decide : (1 : Int32).toInt * (10 : Int32).toInt ≤ (10 : Int32).toInt)⟩

end SecurityFramework
