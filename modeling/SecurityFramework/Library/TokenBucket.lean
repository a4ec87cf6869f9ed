import Mathlib.Algebra.Order.Field.Basic
import Mathlib.Algebra.Order.Group.MinMax
import Mathlib.Tactic.FieldSimp
import Mathlib.Tactic.Linarith
import Mathlib.Tactic.Ring

/-!
# Token buckets

A bucket gets one token in each period and holds a number of them.
-/

/-- The tokens that a bucket had left when one was last taken. -/
structure TokenBucket (𝕜 : Type*) where
  tokens : 𝕜
  since : 𝕜

namespace TokenBucket
variable {𝕜 : Type*} [Field 𝕜] [LinearOrder 𝕜] [IsStrictOrderedRing 𝕜] {capacity period : 𝕜}

/-- The tokens of a bucket at a time. A bucket that was never used is full. -/
def level (capacity period : 𝕜) (bucket : Option (TokenBucket 𝕜)) (time : 𝕜) : 𝕜 :=
  match bucket with
  | none => capacity
  | some b => min capacity (b.tokens + (time - b.since) / period)

def take (capacity period : 𝕜) (bucket : Option (TokenBucket 𝕜)) (time : 𝕜) : TokenBucket 𝕜 :=
  ⟨level capacity period bucket time - 1, time⟩

def repaidAt (period : 𝕜) (bucket : TokenBucket 𝕜) : 𝕜 := bucket.since - bucket.tokens * period

omit [IsStrictOrderedRing 𝕜] in
theorem level_le (bucket : Option (TokenBucket 𝕜)) (time : 𝕜) :
    level capacity period bucket time ≤ capacity := by
  cases bucket with
  | none => exact le_rfl
  | some b => exact min_le_left _ _

theorem level_le_add (hperiod : 0 < period) (bucket : Option (TokenBucket 𝕜)) {time later : 𝕜}
    (hle : time ≤ later) :
    level capacity period bucket later ≤
      level capacity period bucket time + (later - time) / period := by
  have hgap : 0 ≤ (later - time) / period := div_nonneg (sub_nonneg.mpr hle) hperiod.le
  cases bucket with
  | none => exact le_add_of_nonneg_right hgap
  | some b =>
    have hsplit : (later - b.since) / period =
        (time - b.since) / period + (later - time) / period := by
      rw [← add_div]
      congr 1
      ring
    rw [level, level, hsplit, ← add_assoc, ← min_add_add_right]
    exact min_le_min (le_add_of_nonneg_right hgap) le_rfl

def clearTakes (capacity period : 𝕜) : Option (TokenBucket 𝕜) → List 𝕜 → Nat
  | _, [] => 0
  | bucket, time :: times =>
    (if 1 ≤ level capacity period bucket time then 1 else 0) +
      clearTakes capacity period (some (take capacity period bucket time)) times

/-- The takes that find a token use up what the bucket has and what comes in the meantime. -/
theorem clearTakes_le_add (hperiod : 0 < period) {bucket : Option (TokenBucket 𝕜)} {start stop : 𝕜}
    {times : List 𝕜} (hstart : start ≤ stop) (hordered : (start :: times).Pairwise (· ≤ ·))
    (hstop : ∀ time ∈ times, time ≤ stop) :
    (clearTakes capacity period bucket times : 𝕜) ≤
      max 0 (level capacity period bucket start) + (stop - start) / period := by
  induction times generalizing bucket start with
  | nil =>
    have hgap : 0 ≤ (stop - start) / period := div_nonneg (sub_nonneg.mpr hstart) hperiod.le
    rw [clearTakes, Nat.cast_zero]
    exact add_nonneg (le_max_left _ _) hgap
  | cons time times ih =>
    obtain ⟨hfirst, hrest⟩ := List.pairwise_cons.mp hordered
    have htime := hfirst time List.mem_cons_self
    have hbound := @ih (some (take capacity period bucket time)) time
      (hstop time List.mem_cons_self) hrest fun later hlater => hstop later (.tail _ hlater)
    have hgain := @level_le_add _ _ _ _ capacity period hperiod bucket _ _ htime
    have hgaps : (stop - start) / period = (time - start) / period + (stop - time) / period := by
      rw [← add_div]
      congr 1
      ring
    have hgap : 0 ≤ (time - start) / period := div_nonneg (sub_nonneg.mpr htime) hperiod.le
    have hzero := le_max_left 0 (level capacity period bucket start)
    have hlevel := le_max_right 0 (level capacity period bucket start)
    have hnext : level capacity period (some (take capacity period bucket time)) time ≤
        level capacity period bucket time - 1 := by
      rw [level, take, sub_self, zero_div, add_zero]
      exact min_le_right _ _
    rw [clearTakes, Nat.cast_add]
    by_cases hclear : 1 ≤ level capacity period bucket time
    case pos =>
      have hkept : max 0 (level capacity period (some (take capacity period bucket time)) time) ≤
          level capacity period bucket time - 1 := max_le (by linarith) hnext
      rw [if_pos hclear, Nat.cast_one]
      linarith
    case neg =>
      have hkept : max 0 (level capacity period (some (take capacity period bucket time)) time) ≤
          0 := max_le le_rfl (by linarith [not_le.mp hclear])
      rw [if_neg hclear, Nat.cast_zero]
      linarith

/-- In a window of time no more takes find a token than the bucket holds and the window brings. -/
theorem clearTakes_le (hcapacity : 0 ≤ capacity) (hperiod : 0 < period)
    {bucket : Option (TokenBucket 𝕜)} {start length : 𝕜} {times : List 𝕜} (hlength : 0 ≤ length)
    (hordered : times.Pairwise (· ≤ ·))
    (hwindow : ∀ time ∈ times, start ≤ time ∧ time ≤ start + length) :
    (clearTakes capacity period bucket times : 𝕜) ≤ capacity + length / period := by
  have hbound := @clearTakes_le_add _ _ _ _ capacity period hperiod bucket start (start + length) times
    (by linarith) (List.pairwise_cons.mpr ⟨fun time htime => (hwindow time htime).1, hordered⟩)
    fun time htime => (hwindow time htime).2
  have hlevel := @level_le _ _ _ capacity period bucket start
  have hgap : start + length - start = length := by ring
  rw [hgap] at hbound
  exact hbound.trans (add_le_add_left (max_le hcapacity hlevel) _)

/-- The tokens of a bucket that is kept as a date. -/
def dateLevel (capacity period : 𝕜) (date : Option 𝕜) (time : 𝕜) : 𝕜 :=
  match date with
  | none => capacity
  | some date => min capacity ((time - date) / period)

/-- The date after a token is taken. One that is too long ago counts as that of a full bucket. -/
def nextDate (capacity period : 𝕜) (date : Option 𝕜) (time : 𝕜) : 𝕜 :=
  match date with
  | none => time - capacity * period + period
  | some date => max date (time - capacity * period) + period

theorem nextDate_eq (hperiod : 0 < period) (date : Option 𝕜) (time : 𝕜) :
    nextDate capacity period date time =
      time - (dateLevel capacity period date time - 1) * period := by
  cases date with
  | none =>
    rw [nextDate, dateLevel]
    ring
  | some date =>
    have hscale : min capacity ((time - date) / period) * period =
        min (capacity * period) (time - date) := by
      rw [min_mul_of_nonneg _ _ hperiod.le, div_mul_cancel₀ _ hperiod.ne']
    have hflip : max date (time - capacity * period) =
        time - min (capacity * period) (time - date) := by
      rw [← max_sub_sub_left, sub_sub_cancel, max_comm]
    rw [nextDate, dateLevel, sub_mul, hscale, hflip]
    ring

/-- The token that is taken was there just where the date is not in the future. -/
theorem nextDate_le_iff (hperiod : 0 < period) (date : Option 𝕜) (time : 𝕜) :
    nextDate capacity period date time ≤ time ↔ 1 ≤ dateLevel capacity period date time := by
  rw [nextDate_eq hperiod, sub_le_self_iff, mul_nonneg_iff_of_pos_right hperiod, sub_nonneg]

/-- A date keeps a bucket if it gives the same tokens from a time on. -/
def Keeps (capacity period : 𝕜) (date : Option 𝕜) (bucket : Option (TokenBucket 𝕜)) (now : 𝕜) :
    Prop :=
  ∀ time, now ≤ time → dateLevel capacity period date time = level capacity period bucket time

namespace Keeps
variable {date : Option 𝕜} {bucket : Option (TokenBucket 𝕜)} {now : 𝕜}

omit [IsStrictOrderedRing 𝕜] in
theorem mono (h : Keeps capacity period date bucket now) {later : 𝕜} (hle : now ≤ later) :
    Keeps capacity period date bucket later :=
  fun time htime => h time (hle.trans htime)

/-- The date of the next token is the time at which the bucket has paid its debt. -/
theorem nextDate_eq_repaidAt (hperiod : 0 < period) (h : Keeps capacity period date bucket now)
    {time : 𝕜} (htime : now ≤ time) :
    nextDate capacity period date time = repaidAt period (take capacity period bucket time) := by
  rw [nextDate_eq hperiod, h time htime, repaidAt, take]

theorem take (hperiod : 0 < period) (h : Keeps capacity period date bucket now) {time : 𝕜}
    (htime : now ≤ time) :
    Keeps capacity period (some (nextDate capacity period date time))
      (some (take capacity period bucket time)) time := by
  intro later hlater
  rw [dateLevel, level, nextDate_eq hperiod, h time htime, TokenBucket.take]
  congr 1
  field_simp
  ring

/-- A date that is so long ago that the bucket is full may be dropped. -/
theorem drop (hperiod : 0 < period) (h : Keeps capacity period date bucket now) {time : 𝕜}
    (htime : now ≤ time) (hold : ∀ d, date = some d → capacity * period ≤ time - d) :
    Keeps capacity period none bucket time := by
  intro later hlater
  rw [← h later (htime.trans hlater)]
  cases date with
  | none => rfl
  | some d =>
    have hfull : capacity ≤ (later - d) / period := by
      rw [le_div_iff₀ hperiod]
      linarith [hold d rfl]
    rw [dateLevel, dateLevel, min_eq_left hfull]
end Keeps
end TokenBucket
