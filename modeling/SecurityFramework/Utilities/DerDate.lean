import SecurityFramework.Library.Der
import Mathlib.Data.Rat.Defs

/-!
# Dates

Generalized time is written as `YYYYMMDDhhmmss[.ssss]Z`.
-/

namespace SecurityFramework
open DER

/-- Seconds since the start of 2001. -/
abbrev CFAbsoluteTime := Rat

structure GregorianDate where
  year : Int
  month : Int
  day : Int
  hour : Int
  minute : Int
  second : Int
  deriving DecidableEq

/-- The Zulu calendar, and the shortest decimal digits of a number with the place of its point. -/
structure DateSystem where
  calendarComposeAbsoluteTime : GregorianDate → Option CFAbsoluteTime
  calendarDecomposeAbsoluteTime : CFAbsoluteTime → Option GregorianDate
  dtoa : CFAbsoluteTime → List UInt8 × Int

def ccderGeneralizedTime : Tag := ⟨.universal, false, 0x18⟩

def ccderUtcTime : Tag := ⟨.universal, false, 0x17⟩

def mdays (month : Int) : Int :=
  [0, 31, 59, 90, 120, 151, 181, 212, 243, 273, 304, 334, 365].getD month.toNat 0

def isLeapYear (year : Int) : Bool :=
  year.tmod 4 = 0 ∧ (year.tmod 100 ≠ 0 ∨ year.tmod 400 = 0)

def validateDateComponents (date : GregorianDate) : Bool :=
  let leapyear := if isLeapYear date.year then 1 else 0
  ¬ (date.month < 1 ∨ date.month > 12 ∨ date.day < 1 ∨ date.day > 31 ∨ date.hour ≥ 24 ∨
    date.minute ≥ 60 ∨ date.second > 61 ∨
    (date.month = 2 ∧ date.day > mdays date.month - mdays (date.month - 1) + leapyear) ∨
    (date.month ≠ 2 ∧ date.day > mdays date.month - mdays (date.month - 1)))

def secGregorianDateGetAbsoluteTime (dates : DateSystem) (date : GregorianDate)
    (timeZoneOffset : Int) : Option CFAbsoluteTime := do
  if validateDateComponents date then
    let absTime ← dates.calendarComposeAbsoluteTime date
    some (absTime - timeZoneOffset)
  else none

def derDecodeDecimal : List UInt8 → Option (Nat × List UInt8)
  | [] => none
  | ch :: rest => if ch < 0x30 ∨ ch > 0x39 then none else some (ch.toNat - 0x30, rest)

def derDecodeDecimalPair (der : List UInt8) : Option (Nat × List UInt8) := do
  let (high, der) ← derDecodeDecimal der
  let (low, der) ← derDecodeDecimal der
  some (10 * high + low, der)

/-- Digits up to the first other octet; those the divisor has no room for are skipped. -/
def decimalFractionDigits (last : UInt8) (value divisor : Nat) :
    List UInt8 → Option (Rat × List UInt8)
  | [] => none
  | ch :: rest =>
    if ch < 0x30 ∨ ch > 0x39 then
      -- a fraction neither ends in 0 nor lacks digits
      if last = 0x30 ∨ last = 0x2E then none else some ((value : Rat) / divisor, ch :: rest)
    else if divisor < (2 ^ 64 - 1) / 10 then
      decimalFractionDigits ch (value * 10 + (ch.toNat - 0x30)) (divisor * 10) rest
    else decimalFractionDigits ch value divisor rest

def derDecodeDecimalFraction : List UInt8 → Option (Rat × List UInt8)
  | [] => none
  | ch :: rest =>
    if ch = 0x2E then decimalFractionDigits ch 0 1 rest else some (0, ch :: rest)

def derDecodeTimezoneOffset : List UInt8 → Option (Int × List UInt8)
  | [] => none
  | ch :: rest =>
    if ch = 0x5A then some (0, rest)
    else if ch = 0x2D ∨ ch = 0x2B then do
      let (hours, rest) ← derDecodeDecimalPair rest
      let (minutes, rest) ← derDecodeDecimalPair rest
      some ((if ch = 0x2D then -60 else 60) * (hours * 60 + minutes), rest)
    else none

def derDecodeCommontimeBody (dates : DateSystem) (year : Int) (der : List UInt8) :
    Option CFAbsoluteTime := do
  let (month, der) ← derDecodeDecimalPair der
  let (day, der) ← derDecodeDecimalPair der
  let (hour, der) ← derDecodeDecimalPair der
  let (minute, der) ← derDecodeDecimalPair der
  let (second, der) ← derDecodeDecimalPair der
  let (fraction, der) ← derDecodeDecimalFraction der
  let (timeZoneOffset, der) ← derDecodeTimezoneOffset der
  if der = [] then
    let time ← secGregorianDateGetAbsoluteTime dates ⟨year, month, day, hour, minute, second⟩
      timeZoneOffset
    some (time + fraction)
  else none

def derDecodeGeneralizedtimeBody (dates : DateSystem) (der : List UInt8) :
    Option CFAbsoluteTime := do
  let (century, der) ← derDecodeDecimalPair der
  let (year, der) ← derDecodeDecimalPair der
  derDecodeCommontimeBody dates (100 * century + year : Nat) der

def derDecodeUniversaltimeBody (dates : DateSystem) (der : List UInt8) :
    Option CFAbsoluteTime := do
  let (year, der) ← derDecodeDecimalPair der
  if year < 50 then derDecodeCommontimeBody dates (year + 2000 : Nat) der
  else if year < 70 then none
  else derDecodeCommontimeBody dates (year + 1900 : Nat) der

def derDecodeUtcTime (der : Primitives) (dates : DateSystem) (octets : List UInt8) :
    Option (CFAbsoluteTime × List UInt8) := do
  let (body, rest) ← decodeConstructedTl der ccderUtcTime octets
  let date ← derDecodeUniversaltimeBody dates body
  some (date, rest)

/-- Also the message's `der_decode_generalizedtime`. -/
def derDecodeDate (der : Primitives) (dates : DateSystem) (octets : List UInt8) :
    Option (CFAbsoluteTime × List UInt8) := do
  let (body, rest) ← decodeConstructedTl der ccderGeneralizedTime octets
  let date ← derDecodeGeneralizedtimeBody dates body
  some (date, rest)

def ccderSizeofNanoseconds (dates : DateSystem) (date : CFAbsoluteTime) : Nat :=
  let (str, dotoff) := dates.dtoa date
  ((str.length : Int) - dotoff).toNat

def derSizeofGeneralizedtimeBody (dates : DateSystem) (date : CFAbsoluteTime) : Nat :=
  let subsecDigits := ccderSizeofNanoseconds dates date
  if subsecDigits ≠ 0 then 16 + subsecDigits else 15

def derSizeofGeneralizedtime (der : Primitives) (dates : DateSystem) (date : CFAbsoluteTime) :
    Nat :=
  sizeof der ccderGeneralizedTime (derSizeofGeneralizedtimeBody dates date)

/-- Two digits. The source asserts that there are no more. -/
def ccderEncodeDecimalPair (v : Int) (der : Output) : Output :=
  if v < 100 then encodeBody [UInt8.ofInt (0x30 + v.tdiv 10), UInt8.ofInt (0x30 + v.tmod 10)] der
  else fail der

def ccderEncodeDecimalQuad (v : Int) (der : Output) : Output :=
  ccderEncodeDecimalPair (v.tdiv 100) (ccderEncodeDecimalPair (v.tmod 100) der)

/-- One less the fraction: nines' complement, except that the last digit borrows. -/
def complementFraction : List UInt8 → List UInt8
  | [] => []
  | [digit] => [0x3A - (digit - 0x30)]
  | digit :: digits => (0x39 - (digit - 0x30)) :: complementFraction digits

def ccderEncodeNanoseconds (dates : DateSystem) (date : CFAbsoluteTime) (der : Output) : Output :=
  let (str, dotoff) := dates.dtoa date
  let start := dotoff.toNat
  let str := if date < 0 then str.take start ++ complementFraction (str.drop start) else str
  if (str.length : Int) > dotoff then
    let der :=
      if dotoff < 0 then
        encodeBody (List.replicate (-dotoff).toNat (if date < 0 then 0x39 else 0x30))
          (encodeBody str der)
      else encodeBody (str.drop start) der
    encodeBody [0x2E] der
  else der

def repairedDate (date : GregorianDate) : GregorianDate :=
  { date with year := 2001, month := 1, day := 1, minute := 1 }

def derEncodeGeneralizedtimeBodyRepair (dates : DateSystem) (date : CFAbsoluteTime) (repair : Bool)
    (der : Output) : Output :=
  match dates.calendarDecomposeAbsoluteTime date with
  | none => fail der
  | some components =>
    let components :=
      if ¬ validateDateComponents components ∧ repair then repairedDate components else components
    ccderEncodeDecimalQuad components.year
      (ccderEncodeDecimalPair components.month
        (ccderEncodeDecimalPair components.day
          (ccderEncodeDecimalPair components.hour
            (ccderEncodeDecimalPair components.minute
              (ccderEncodeDecimalPair components.second
                (ccderEncodeNanoseconds dates date (encodeBody [0x5A] der)))))))

def derEncodeGeneralizedtimeBody (dates : DateSystem) (date : CFAbsoluteTime) (der : Output) :
    Output :=
  derEncodeGeneralizedtimeBodyRepair dates date false der

def derEncodeGeneralizedtime (der : Primitives) (dates : DateSystem) (date : CFAbsoluteTime)
    (buffer : Output) : Output :=
  encodeConstructedTl der ccderGeneralizedTime buffer
    (derEncodeGeneralizedtimeBody dates date buffer)

def derEncodeDateRepair (der : Primitives) (dates : DateSystem) (date : CFAbsoluteTime)
    (repair : Bool) (buffer : Output) : Output :=
  encodeConstructedTl der ccderGeneralizedTime buffer
    (derEncodeGeneralizedtimeBodyRepair dates date repair buffer)

/-- The components are in their ranges, with four digits for the year. -/
structure GregorianDate.FourDigit (date : GregorianDate) : Prop where
  year_nonneg : 0 ≤ date.year
  year_lt : date.year < 10000
  hour_nonneg : 0 ≤ date.hour
  minute_nonneg : 0 ≤ date.minute
  second_nonneg : 0 ≤ date.second
  valid : validateDateComponents date = true

/-- On whole seconds the calendar gives components in their ranges, from which it gets the time
back, and a whole number has no digits after its point. -/
structure DateSystem.Correct (dates : DateSystem) : Prop where
  decompose_ranges : ∀ (time : CFAbsoluteTime) (date : GregorianDate), time.den = 1 →
    dates.calendarDecomposeAbsoluteTime time = some date → 0 ≤ date.year → date.year < 10000 →
      date.FourDigit
  compose_decompose : ∀ (time : CFAbsoluteTime) (date : GregorianDate), time.den = 1 →
    dates.calendarDecomposeAbsoluteTime time = some date →
      dates.calendarComposeAbsoluteTime date = some time
  dtoa_whole : ∀ time : CFAbsoluteTime, time.den = 1 →
    ((dates.dtoa time).1.length : Int) ≤ (dates.dtoa time).2

/-- A time on a whole second with year 0 to 9999. -/
def DateSystem.Encodable (dates : DateSystem) (date : CFAbsoluteTime) : Prop :=
  date.den = 1 ∧ ∃ components, dates.calendarDecomposeAbsoluteTime date = some components ∧
    0 ≤ components.year ∧ components.year < 10000

def decimalPair (v : Int) : List UInt8 :=
  [UInt8.ofInt (0x30 + v.tdiv 10), UInt8.ofInt (0x30 + v.tmod 10)]

def fractionDigits (dates : DateSystem) (date : CFAbsoluteTime) : List UInt8 :=
  List.replicate (-(dates.dtoa date).2).toNat 0x30 ++
    (dates.dtoa date).1.drop (dates.dtoa date).2.toNat

def fractionContent (dates : DateSystem) (date : CFAbsoluteTime) : List UInt8 :=
  if ((dates.dtoa date).1.length : Int) > (dates.dtoa date).2 then
    0x2E :: if date < 0 then complementFraction (fractionDigits dates date)
      else fractionDigits dates date
  else []

/-- `YYYYMMDDhhmmss[.ssss]Z`. -/
def generalizedtime (date : GregorianDate) (fraction : List UInt8) : List UInt8 :=
  decimalPair (date.year.tdiv 100) ++ (decimalPair (date.year.tmod 100) ++
    (decimalPair date.month ++ (decimalPair date.day ++ (decimalPair date.hour ++
      (decimalPair date.minute ++ (decimalPair date.second ++ (fraction ++ [0x5A])))))))

def dateContent (dates : DateSystem) (date : CFAbsoluteTime) : List UInt8 :=
  ((dates.calendarDecomposeAbsoluteTime date).map fun components =>
    generalizedtime components (fractionContent dates date)).getD []

theorem writes_ccderEncodeDecimalPair {v : Int} (hv : v < 100) :
    Writes (ccderEncodeDecimalPair v) (decimalPair v) := by
  intro room written
  have hbody := Writes.body (decimalPair v) room written
  rw [ccderEncodeDecimalPair, if_pos hv]
  exact hbody

theorem derDecodeDecimal_digit {digit : Nat} (hdigit : digit < 10) (rest : List UInt8) :
    derDecodeDecimal (UInt8.ofNat (0x30 + digit) :: rest) = some (digit, rest) := by
  have hnat : (UInt8.ofNat (0x30 + digit)).toNat = 0x30 + digit := by
    rw [UInt8.toNat_ofNat']
    omega
  have hlow : ¬ UInt8.ofNat (0x30 + digit) < 0x30 := by
    rw [UInt8.lt_iff_toNat_lt, hnat]
    simp
  have hhigh : ¬ UInt8.ofNat (0x30 + digit) > 0x39 := by
    rw [gt_iff_lt, UInt8.lt_iff_toNat_lt, hnat]
    simp
    omega
  rw [derDecodeDecimal, if_neg (not_or.mpr ⟨hlow, hhigh⟩), hnat, Nat.add_sub_cancel_left]

theorem decimalPair_eq {v : Nat} (hv : v < 100) :
    decimalPair v = [UInt8.ofNat (0x30 + v / 10), UInt8.ofNat (0x30 + v % 10)] := by
  have hdiv : (v : Int).tdiv 10 = v / 10 := Int.tdiv_eq_ediv_of_nonneg (Int.natCast_nonneg v)
  have hmod : (v : Int).tmod 10 = v % 10 := Int.tmod_eq_emod_of_nonneg (Int.natCast_nonneg v)
  have htens : (0x30 + (v : Int).tdiv 10) % 2 ^ 8 = ((0x30 + v / 10 : Nat) : Int) := by omega
  have hunits : (0x30 + (v : Int).tmod 10) % 2 ^ 8 = ((0x30 + v % 10 : Nat) : Int) := by omega
  rw [decimalPair, UInt8.ofInt, UInt8.ofInt, htens, hunits, Int.toNat_natCast, Int.toNat_natCast]

theorem derDecodeDecimalPair_decimalPair {v : Int} (hv : 0 ≤ v) (hlt : v < 100)
    (rest : List UInt8) :
    derDecodeDecimalPair (decimalPair v ++ rest) = some (v.toNat, rest) := by
  obtain ⟨n, rfl⟩ := Int.eq_ofNat_of_zero_le hv
  have hn : n < 100 := by omega
  have htens := derDecodeDecimal_digit (show n / 10 < 10 by omega)
  have hunits := derDecodeDecimal_digit (show n % 10 < 10 by omega)
  simp only [decimalPair_eq hn, List.cons_append, List.nil_append, derDecodeDecimalPair, htens,
    hunits, Option.bind_eq_bind, Option.bind_some, Int.toNat_natCast, Nat.div_add_mod]

theorem validateDateComponents_bounds {date : GregorianDate}
    (hvalid : validateDateComponents date = true) :
    1 ≤ date.month ∧ date.month ≤ 12 ∧ 1 ≤ date.day ∧ date.day ≤ 31 ∧ date.hour < 24 ∧
      date.minute < 60 ∧ date.second ≤ 61 := by
  simp only [validateDateComponents, decide_eq_true_eq, not_or] at hvalid
  omega

theorem length_complementFraction (digits : List UInt8) :
    (complementFraction digits).length = digits.length := by
  fun_induction complementFraction digits with
  | case1 => rfl
  | case2 => rfl
  | case3 digit digits _ ih => rw [List.length_cons, List.length_cons, ih]

/-- Zeros become nines, as the borrow is from the last digit. -/
theorem complementFraction_replicate (zeros : Nat) {digits : List UInt8} (hne : digits ≠ []) :
    complementFraction (List.replicate zeros 0x30 ++ digits) =
      List.replicate zeros 0x39 ++ complementFraction digits := by
  induction zeros with
  | zero => rfl
  | succ zeros ih =>
    have htail : List.replicate zeros 0x30 ++ digits ≠ [] := List.append_ne_nil_of_right_ne_nil _ hne
    rw [List.replicate_succ, List.cons_append, complementFraction, ih, List.replicate_succ,
      List.cons_append]
    · rfl
    · exact htail

theorem writes_fraction (dotoff : Int) (pad digits : List UInt8) :
    Writes (fun der => encodeBody [0x2E] (if dotoff < 0 then encodeBody pad (encodeBody digits der)
        else encodeBody (digits.drop dotoff.toNat) der))
      (0x2E :: if dotoff < 0 then pad ++ digits else digits.drop dotoff.toNat) := by
  by_cases hpad : dotoff < 0
  · have hwrites := (Writes.body [0x2E]).comp ((Writes.body pad).comp (Writes.body digits))
    simp only [hpad, if_true]
    exact hwrites
  · have hwrites := (Writes.body [0x2E]).comp (Writes.body (digits.drop dotoff.toNat))
    simp only [hpad, if_false]
    exact hwrites

/-- The digits of a date before the start of 2001 are complemented as a whole. -/
theorem fractionDigits_complement {dotoff : Int} {str : List UInt8}
    (hdigits : 0 ≤ dotoff ∨ str ≠ []) (hmore : (str.length : Int) > dotoff) :
    (if dotoff < 0 then List.replicate (-dotoff).toNat 0x39 ++
          (str.take dotoff.toNat ++ complementFraction (str.drop dotoff.toNat))
        else (str.take dotoff.toNat ++ complementFraction (str.drop dotoff.toNat)).drop
          dotoff.toNat) =
      complementFraction (List.replicate (-dotoff).toNat 0x30 ++ str.drop dotoff.toNat) := by
  by_cases hpad : dotoff < 0
  · have hstart : dotoff.toNat = 0 := by omega
    have hne : str ≠ [] := hdigits.resolve_left (by omega)
    rw [if_pos hpad, hstart, List.take_zero, List.drop_zero, List.nil_append,
      complementFraction_replicate _ hne]
  · have hzeros : (-dotoff).toNat = 0 := by omega
    have htake : (str.take dotoff.toNat).length = dotoff.toNat := by
      rw [List.length_take]
      omega
    rw [if_neg hpad, hzeros, List.replicate_zero, List.nil_append]
    exact List.drop_left' htake

/-- The digits and their point are as `dtoa` gives them: there are digits, if it is to the left of
them. -/
theorem writes_ccderEncodeNanoseconds {dates : DateSystem} {date : CFAbsoluteTime}
    (hdigits : 0 ≤ (dates.dtoa date).2 ∨ (dates.dtoa date).1 ≠ []) :
    Writes (ccderEncodeNanoseconds dates date) (fractionContent dates date) := by
  cases hdtoa : dates.dtoa date with
  | mk str dotoff =>
    rw [hdtoa] at hdigits
    simp only at hdigits
    intro room written
    rw [fractionContent, fractionDigits, hdtoa]
    simp only [ccderEncodeNanoseconds, hdtoa]
    by_cases hneg : date < 0
    · have hlength : (str.take dotoff.toNat ++ complementFraction (str.drop dotoff.toNat)).length =
          str.length := by
        rw [List.length_append, length_complementFraction, ← List.length_append,
          List.take_append_drop]
      simp only [hneg, if_true, hlength]
      by_cases hmore : (str.length : Int) > dotoff
      · have hwrites := writes_fraction dotoff (List.replicate (-dotoff).toNat 0x39)
          (str.take dotoff.toNat ++ complementFraction (str.drop dotoff.toNat)) room written
        rw [fractionDigits_complement hdigits hmore] at hwrites
        simpa only [hmore, if_true] using hwrites
      · simp [hmore]
    · simp only [hneg, if_false]
      by_cases hmore : (str.length : Int) > dotoff
      · have hwrites := writes_fraction dotoff (List.replicate (-dotoff).toNat 0x30) str room written
        have hpadded : (if dotoff < 0 then List.replicate (-dotoff).toNat 0x30 ++ str
            else str.drop dotoff.toNat) =
              List.replicate (-dotoff).toNat 0x30 ++ str.drop dotoff.toNat := by
          split
          · have hstart : dotoff.toNat = 0 := by omega
            rw [hstart, List.drop_zero]
          · have hzeros : (-dotoff).toNat = 0 := by omega
            rw [hzeros, List.replicate_zero, List.nil_append]
        rw [hpadded] at hwrites
        simpa only [hmore, if_true] using hwrites
      · simp [hmore]

theorem derSizeofGeneralizedtimeBody_eq (dates : DateSystem) (date : CFAbsoluteTime) :
    derSizeofGeneralizedtimeBody dates date = 15 + (fractionContent dates date).length := by
  cases hdtoa : dates.dtoa date with
  | mk str dotoff =>
    rw [derSizeofGeneralizedtimeBody, ccderSizeofNanoseconds, fractionContent, fractionDigits, hdtoa]
    simp only
    by_cases hmore : (str.length : Int) > dotoff
    · have hnonzero : ((str.length : Int) - dotoff).toNat ≠ 0 := by omega
      have hlength : (-dotoff).toNat + (str.length - dotoff.toNat) =
          ((str.length : Int) - dotoff).toNat := by omega
      rw [if_pos hnonzero, if_pos hmore, List.length_cons]
      split
      · rw [length_complementFraction, List.length_append, List.length_replicate, List.length_drop,
          hlength]
        omega
      · rw [List.length_append, List.length_replicate, List.length_drop, hlength]
        omega
    · have hzero : ¬ ((str.length : Int) - dotoff).toNat ≠ 0 := by omega
      rw [if_neg hzero, if_neg hmore]
      rfl

/-- A date whose components have their ranges, and whose digits there are. -/
structure DateSystem.Writable (dates : DateSystem) (date : CFAbsoluteTime) : Prop where
  components : ∃ components, dates.calendarDecomposeAbsoluteTime date = some components ∧
    components.FourDigit
  digits : 0 ≤ (dates.dtoa date).2 ∨ (dates.dtoa date).1 ≠ []

section Writable

variable {dates : DateSystem} {date : CFAbsoluteTime} (hdate : dates.Writable date)
include hdate

theorem derSizeofGeneralizedtime_eq (der : Primitives) :
    derSizeofGeneralizedtime der dates date =
      (element der ccderGeneralizedTime (dateContent dates date)).length := by
  obtain ⟨components, hdecompose, -⟩ := hdate.components
  have hlength : (dateContent dates date).length = 15 + (fractionContent dates date).length := by
    simp [dateContent, hdecompose, generalizedtime, decimalPair]
    omega
  rw [length_element, derSizeofGeneralizedtime, derSizeofGeneralizedtimeBody_eq, hlength]

theorem writes_generalizedtimeBody (repair : Bool) :
    Writes (derEncodeGeneralizedtimeBodyRepair dates date repair) (dateContent dates date) := by
  obtain ⟨components, hdecompose, hranges⟩ := hdate.components
  have hcontent : dateContent dates date =
      generalizedtime components (fractionContent dates date) := by
    simp [dateContent, hdecompose]
  have hbounds := validateDateComponents_bounds hranges.valid
  have hyear := hranges.year_lt
  have hdiv := Int.tdiv_eq_ediv_of_nonneg (b := 100) hranges.year_nonneg
  have hmod := Int.tmod_eq_emod_of_nonneg (b := 100) hranges.year_nonneg
  have hzulu := (writes_ccderEncodeNanoseconds hdate.digits).comp (Writes.body [0x5A])
  have hsecond := (writes_ccderEncodeDecimalPair (v := components.second) (by omega)).comp hzulu
  have hminute := (writes_ccderEncodeDecimalPair (v := components.minute) (by omega)).comp hsecond
  have hhour := (writes_ccderEncodeDecimalPair (v := components.hour) (by omega)).comp hminute
  have hday := (writes_ccderEncodeDecimalPair (v := components.day) (by omega)).comp hhour
  have hmonth := (writes_ccderEncodeDecimalPair (v := components.month) (by omega)).comp hday
  have hyears :=
    (writes_ccderEncodeDecimalPair (v := components.year.tmod 100) (by omega)).comp hmonth
  have hcentury :=
    (writes_ccderEncodeDecimalPair (v := components.year.tdiv 100) (by omega)).comp hyears
  intro room written
  have hwritten := hcentury room written
  simp only [derEncodeGeneralizedtimeBodyRepair, hdecompose, hranges.valid, not_true, false_and,
    if_false, ccderEncodeDecimalQuad]
  rw [hcontent]
  exact hwritten

theorem writes_derEncodeDateRepair (der : Primitives) (repair : Bool) :
    Writes (derEncodeDateRepair der dates date repair)
      (element der ccderGeneralizedTime (dateContent dates date)) :=
  Writes.constructed der ccderGeneralizedTime (writes_generalizedtimeBody hdate repair)
end Writable

section WholeSeconds

variable {dates : DateSystem} (hdates : dates.Correct) {date : CFAbsoluteTime}
include hdates

theorem fractionContent_whole (hwhole : date.den = 1) : fractionContent dates date = [] := by
  have hdigits := hdates.dtoa_whole date hwhole
  rw [fractionContent, if_neg (by omega)]

theorem dateContent_eq (hdate : dates.Encodable date) :
    ∃ components, dates.calendarDecomposeAbsoluteTime date = some components ∧
      components.FourDigit ∧ dateContent dates date = generalizedtime components [] := by
  obtain ⟨hwhole, components, hdecompose, hyear, hlt⟩ := hdate
  have hranges := hdates.decompose_ranges date components hwhole hdecompose hyear hlt
  exact ⟨components, hdecompose, hranges, by
    simp [dateContent, hdecompose, fractionContent_whole hdates hwhole]⟩

theorem writable_of_encodable (hdate : dates.Encodable date) : dates.Writable date where
  components := by
    obtain ⟨components, hdecompose, hranges, -⟩ := dateContent_eq hdates hdate
    exact ⟨components, hdecompose, hranges⟩
  digits := by
    have hdigits := hdates.dtoa_whole date hdate.1
    omega

theorem derDecodeGeneralizedtimeBody_dateContent (hdate : dates.Encodable date) :
    derDecodeGeneralizedtimeBody dates (dateContent dates date) = some date := by
  obtain ⟨components, hdecompose, hranges, hcontent⟩ := dateContent_eq hdates hdate
  have hbounds := validateDateComponents_bounds hranges.valid
  have hyear := hranges.year_lt
  have hnonneg := hranges.year_nonneg
  have hdiv := Int.tdiv_eq_ediv_of_nonneg (b := 100) hnonneg
  have hmod := Int.tmod_eq_emod_of_nonneg (b := 100) hnonneg
  have hcentury := derDecodeDecimalPair_decimalPair (v := components.year.tdiv 100)
    (by omega) (by omega)
  have hyears := derDecodeDecimalPair_decimalPair (v := components.year.tmod 100)
    (by omega) (by omega)
  have hmonth := derDecodeDecimalPair_decimalPair (v := components.month) (by omega) (by omega)
  have hday := derDecodeDecimalPair_decimalPair (v := components.day) (by omega) (by omega)
  have hhour := derDecodeDecimalPair_decimalPair (v := components.hour) hranges.hour_nonneg
    (by omega)
  have hminute := derDecodeDecimalPair_decimalPair (v := components.minute)
    hranges.minute_nonneg (by omega)
  have hsecond := derDecodeDecimalPair_decimalPair (v := components.second)
    hranges.second_nonneg (by omega)
  have hwhole : (⟨((100 * (components.year.tdiv 100).toNat + (components.year.tmod 100).toNat : Nat)
      : Int), components.month.toNat, components.day.toNat, components.hour.toNat,
      components.minute.toNat, components.second.toNat⟩ : GregorianDate) = components := by
    obtain ⟨year, month, day, hour, minute, second⟩ := components
    have hhour' := hranges.hour_nonneg
    have hminute' := hranges.minute_nonneg
    have hsecond' := hranges.second_nonneg
    simp only at *
    simp only [GregorianDate.mk.injEq]
    omega
  have hcompose := hdates.compose_decompose date components hdate.1 hdecompose
  simp only [derDecodeGeneralizedtimeBody, derDecodeCommontimeBody, hcontent, generalizedtime,
    hcentury, hyears, hmonth, hday, hhour, hminute, hsecond, Option.bind_eq_bind, Option.bind_some]
  simp only [derDecodeDecimalFraction, derDecodeTimezoneOffset, hwhole,
    secGregorianDateGetAbsoluteTime, hranges.valid, hcompose]
  simp [Rat.sub_eq_add_neg]

theorem derDecodeDate_element {der : Primitives} (hder : der.Correct)
    (hdate : dates.Encodable date) (rest : List UInt8) :
    derDecodeDate der dates (element der ccderGeneralizedTime (dateContent dates date) ++ rest) =
      some (date, rest) := by
  rw [derDecodeDate, decodeConstructedTl_element hder _ (by decide)]
  simp [derDecodeGeneralizedtimeBody_dateContent hdates hdate]
end WholeSeconds

def firstMonthCompose (date : GregorianDate) : Option CFAbsoluteTime :=
  if date.year = 2001 ∧ date.month = 1 then
    some ((date.day - 1) * 86400 + date.hour * 3600 + date.minute * 60 + date.second : Int)
  else none

def firstMonthDecompose (time : CFAbsoluteTime) : Option GregorianDate :=
  if time.den = 1 ∧ 0 ≤ time.num ∧ time.num < 31 * 86400 then
    some ⟨2001, 1, 1 + time.num / 86400, time.num / 3600 % 24, time.num / 60 % 60, time.num % 60⟩
  else none

def wholeDigits (time : CFAbsoluteTime) : List UInt8 :=
  (Nat.toDigits 10 time.num.natAbs).map fun digit => UInt8.ofNat digit.toNat

def firstMonth : DateSystem where
  calendarComposeAbsoluteTime := firstMonthCompose
  calendarDecomposeAbsoluteTime := firstMonthDecompose
  dtoa time :=
    (((wholeDigits time).reverse.dropWhile (· = 0x30)).reverse, (wholeDigits time).length)

theorem firstMonthDecompose_some {time : CFAbsoluteTime} {date : GregorianDate}
    (hdate : firstMonthDecompose time = some date) :
    0 ≤ time.num ∧ time.num < 31 * 86400 ∧
      date = ⟨2001, 1, 1 + time.num / 86400, time.num / 3600 % 24, time.num / 60 % 60,
        time.num % 60⟩ := by
  rw [firstMonthDecompose] at hdate
  split at hdate
  case isTrue hrange => exact ⟨hrange.2.1, hrange.2.2, (Option.some.inj hdate).symm⟩
  case isFalse => cases hdate

theorem firstMonth_correct : firstMonth.Correct where
  decompose_ranges time date _ hdate _ _ := by
    obtain ⟨hnonneg, hlt, rfl⟩ := firstMonthDecompose_some hdate
    refine ⟨by simp, by simp, by simp only; omega, by simp only; omega, by simp only; omega, ?_⟩
    simp only [validateDateComponents, mdays]
    simp
    omega
  compose_decompose time date hwhole hdate := by
    obtain ⟨hnonneg, hlt, rfl⟩ := firstMonthDecompose_some hdate
    have hseconds : (1 + time.num / 86400 - 1) * 86400 + time.num / 3600 % 24 * 3600 +
        time.num / 60 % 60 * 60 + time.num % 60 = time.num := by omega
    have htime : ((time.num : Int) : Rat) = time := Rat.den_eq_one_iff time |>.mp hwhole
    simp only [firstMonth, firstMonthCompose, and_self, if_true, hseconds, htime]
  dtoa_whole time _ := by
    have hshorter := (List.dropWhile_sublist (fun digit => digit = (0x30 : UInt8))
      (l := (wholeDigits time).reverse)).length_le
    simp only [firstMonth, List.length_reverse] at hshorter ⊢
    exact_mod_cast hshorter
end SecurityFramework
