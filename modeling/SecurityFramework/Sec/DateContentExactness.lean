import SecurityFramework.Sec.DateContent

/-! # Dates in certificates against the calendar -/

namespace SecurityFramework
open DER Gregorian

structure CalendarTime where
  year : Nat
  month : Nat
  day : Nat
  hour : Nat
  minute : Nat
  second : Nat

namespace CalendarTime
/-- A day of the calendar, and a time of day that may be a leap second. -/
structure Valid (time : CalendarTime) : Prop where
  month : 1 ≤ time.month ∧ time.month ≤ 12
  day : 1 ≤ time.day ∧ time.day ≤ monthLength time.year time.month
  hour : time.hour ≤ 23
  minute : time.minute ≤ 59
  second : time.second ≤ 60

def days (time : CalendarTime) : Int :=
  daysFrom 2001 time.year + daysBeforeMonth time.year time.month + (time.day - 1)

def seconds (time : CalendarTime) : Int :=
  ((time.days * 24 + time.hour) * 60 + time.minute) * 60 + time.second

def monthToMinute (time : CalendarTime) : List Nat :=
  [time.month, time.day, time.hour, time.minute]

def toDate (time : CalendarTime) : GregorianDate :=
  ⟨time.year, time.month, time.day, time.hour, time.minute, time.second⟩
end CalendarTime

inductive Zone
  | zulu
  | localized (ahead : Bool) (hours minutes : Fin 100)

namespace Zone
def isLocalized : Zone → Bool
  | zulu => false
  | localized _ _ _ => true

def character : Zone → UInt8
  | zulu => 0x5A
  | localized ahead _ _ => if ahead then 0x2B else 0x2D

def fields : Zone → List Nat
  | zulu => []
  | localized _ hours minutes => [hours, minutes]

def text (zone : Zone) : List UInt8 := zone.character :: digitPairs zone.fields

def seconds : Zone → Int
  | zulu => 0
  | localized ahead hours minutes => (if ahead then 60 else -60) * (hours * 60 + minutes)
end Zone

/-- What two digits stand for; those from 50 to 69 stand for no year. -/
inductive TwoDigitYear : Nat → Nat → Prop
  | century21 {yy : Nat} (h : yy < 50) : TwoDigitYear yy (2000 + yy)
  | century20 {yy : Nat} (h : 70 ≤ yy) (h' : yy < 100) : TwoDigitYear yy (1900 + yy)

inductive Denotes : Tag → List UInt8 → CalendarTime → Zone → Prop
  | utcTimeNoSeconds {time : CalendarTime} {yy : Nat} (hyear : TwoDigitYear yy time.year)
      (hsecond : time.second = 0) :
      Denotes ASN1_UTC_TIME (digitPairs (yy :: time.monthToMinute) ++ Zone.zulu.text) time .zulu
  | utcTime {time : CalendarTime} {zone : Zone} {yy : Nat} (hyear : TwoDigitYear yy time.year) :
      Denotes ASN1_UTC_TIME
        (digitPairs (yy :: (time.monthToMinute ++ [time.second])) ++ zone.text) time zone
  | generalizedTime {time : CalendarTime} {zone : Zone} (hyear : time.year < 10000) :
      Denotes ASN1_GENERALIZED_TIME
        (digitPairs (time.year / 100 :: time.year % 100 :: (time.monthToMinute ++ [time.second])) ++
          zone.text) time zone

def DenotesTime (tag : Tag) (bytes : List UInt8) : Prop :=
  ∃ time zone, Denotes tag bytes time zone ∧ time.Valid

/-- Exactly the octets that denote a valid time are accepted, each with its seconds. -/
def ReadsAsDenoted (tag : Tag) (bytes : List UInt8) : Prop :=
  ((SecAbsoluteTimeFromDateContentWithError tag bytes).2 = false ↔ DenotesTime tag bytes) ∧
    ∀ time zone, Denotes tag bytes time zone → time.Valid →
      (SecAbsoluteTimeFromDateContentWithError tag bytes).1 = time.seconds - zone.seconds

/-- A UTCTime of a known length and of the right characters, its year between 50 and 69. -/
def HasYearWithoutMeaning (tag : Tag) (bytes : List UInt8) : Prop :=
  ∃ format, dateFormat bytes.length = some format ∧ tagFits tag format.isUtcLength = true ∧
    charactersFit format.isLocalized bytes = true ∧ parseYear format.isUtcLength bytes = none

/-- Nothing but digits, where the length fits the tag and the date would be valid. -/
def HasDigitAsZone (tag : Tag) (bytes : List UInt8) : Prop :=
  ∃ format date timeZoneOffset, dateFormat bytes.length = some format ∧
    tagFits tag format.isUtcLength = true ∧ (∀ b ∈ bytes, isdigit b = true) ∧
    parseDateContent format bytes = some (date, timeZoneOffset) ∧ isInvalidDate date = false

theorem isLeapYear_iff (year : Int) : isLeapYear year = true ↔ IsLeapYear year := by
  simp only [isLeapYear, IsLeapYear, ne_eq, ← Int.dvd_iff_tmod_eq_zero, decide_eq_true_eq]

theorem leapYearDay_eq (year : Int) : leapYearDay year = if IsLeapYear year then 1 else 0 := by
  simp only [leapYearDay, isLeapYear_iff]

theorem monthLength_eq (year : Int) {month : Nat} (hmonth : 1 ≤ month ∧ month ≤ 12) :
    monthLength year month =
      mdays month - mdays (month - 1) + if month = 2 then leapYearDay year else 0 := by
  rcases hmonth with ⟨hlow, hhigh⟩
  interval_cases month
  case «2» =>
    simp only [monthLength, leapYearDay_eq, if_true]
    split_ifs <;> rfl
  all_goals rfl

theorem daysBeforeMonth_eq (year : Int) {month : Nat} (hmonth : 1 ≤ month ∧ month ≤ 12) :
    daysBeforeMonth year month =
      mdays (month - 1) + if month > 2 then leapYearDay year else 0 := by
  rcases hmonth with ⟨hlow, hhigh⟩
  induction month, hlow using Nat.le_induction with
  | base => rfl
  | succ month hlow ih =>
    rw [daysBeforeMonth_succ year hlow, ih (by omega), monthLength_eq year ⟨hlow, by omega⟩]
    push_cast
    rw [add_sub_cancel_right]
    split_ifs <;> omega

/-- Truncating division below zero is flooring division of the absolute value. -/
theorem tdiv_of_nonpos {dy : Int} (h : dy ≤ 0) (k : Int) : dy.tdiv k = -(-dy / k) := by
  rw [← Int.tdiv_eq_ediv_of_nonneg (by omega), Int.neg_tdiv, neg_neg]

theorem dayNumber_closed (date : GregorianDate) :
    dayNumber date = daysFrom 2001 date.year + mdays (date.month - 1) +
      (if date.month > 2 then leapYearDay date.year else 0) + (date.day - 1) := by
  rw [dayNumber, daysFrom_eq, leapDaysBefore, leapDaysBefore]
  generalize (if date.month > 2 then leapYearDay date.year else 0) = leapDay
  by_cases hyear : date.year - 2001 < 0
  · simp only [if_pos hyear]
    rw [tdiv_of_nonpos (by omega), tdiv_of_nonpos (by omega), tdiv_of_nonpos (by omega)]
    omega
  · simp only [if_neg hyear]
    rw [Int.tdiv_eq_ediv_of_nonneg (by omega), Int.tdiv_eq_ediv_of_nonneg (by omega),
      Int.tdiv_eq_ediv_of_nonneg (by omega)]
    omega

theorem dayNumber_eq {time : CalendarTime} (hmonth : 1 ≤ time.month ∧ time.month ≤ 12) :
    dayNumber time.toDate = time.days := by
  rw [dayNumber_closed, CalendarTime.days, daysBeforeMonth_eq time.year hmonth]
  have hmarch : time.toDate.month > 2 ↔ time.month > 2 := by
    change (time.month : Int) > 2 ↔ time.month > 2
    omega
  rw [if_congr hmarch rfl rfl, ← add_assoc (daysFrom 2001 time.year)]
  rfl

theorem absoluteTime_eq {time : CalendarTime} (hvalid : time.Valid) :
    absoluteTime time.toDate = time.seconds := by
  rw [absoluteTime, dayNumber_eq hvalid.month]
  rfl

theorem isInvalidDate_eq_false_iff (time : CalendarTime) :
    isInvalidDate time.toDate = false ↔ time.Valid := by
  rw [isInvalidDate, decide_eq_false_iff_not]
  simp only [CalendarTime.toDate, not_or, not_and, not_lt, gt_iff_lt]
  constructor
  · rintro ⟨hlow, hhigh, hday, -, hhour, hminute, hsecond, hfebruary, hother⟩
    have hmonth : 1 ≤ time.month ∧ time.month ≤ 12 := by omega
    refine ⟨hmonth, ⟨by omega, ?_⟩, by omega, by omega, by omega⟩
    rw [monthLength_eq _ hmonth]
    split_ifs with htwo
    · exact hfebruary (by omega)
    · have := hother (by omega)
      omega
  · intro h
    have hday := h.day.2
    rw [monthLength_eq _ h.month] at hday
    have hlength : monthLength time.year time.month ≤ 31 := by
      rw [monthLength]
      split_ifs <;> omega
    have hlast := h.day.2
    have hfirst := h.day.1
    have hmonth := h.month
    have hhour := h.hour
    have hminute := h.minute
    have hsecond := h.second
    refine ⟨by omega, by omega, by omega, by omega, by omega, by omega, by omega, ?_, ?_⟩
    · intro htwo
      rwa [if_pos (by omega)] at hday
    · intro htwo
      rw [if_neg (by omega)] at hday
      omega

/-- Octets of a documented length, cut into fields. -/
structure DateText where
  years : List Nat
  month : Nat
  day : Nat
  hour : Nat
  minute : Nat
  seconds : List Nat
  zone : UInt8
  zoneFields : List Nat

namespace DateText
def fields (text : DateText) : List Nat :=
  text.years ++ [text.month, text.day, text.hour, text.minute] ++ text.seconds

def octets (text : DateText) : List UInt8 :=
  digitPairs text.fields ++ text.zone :: digitPairs text.zoneFields

def yearOf : List Nat → Option Nat
  | [yy] => if yy < 50 then some (2000 + yy) else if yy < 70 then none else some (1900 + yy)
  | [century, yy] => some (100 * century + yy)
  | _ => none

def time (text : DateText) (year : Nat) : CalendarTime :=
  ⟨year, text.month, text.day, text.hour, text.minute, text.seconds.headD 0⟩

def offset (text : DateText) : Int :=
  match text.zoneFields with
  | [hours, minutes] => (if text.zone = 0x2B then 60 else -60) * (hours * 60 + minutes)
  | _ => 0

structure Fits (format : DateFormat) (text : DateText) : Prop where
  years : text.years.length = if format.isUtcLength then 1 else 2
  seconds : text.seconds.length = if format.noSeconds then 0 else 1
  zoneFields : text.zoneFields.length = if format.isLocalized then 2 else 0
  fields_lt : ∀ n ∈ text.fields, n < 100
  zoneFields_lt : ∀ n ∈ text.zoneFields, n < 100
  zone : isdigit text.zone = true ∨ isZoneCharacter format.isLocalized text.zone = true
end DateText

theorem digitPairs_append (ns ms : List Nat) :
    digitPairs (ns ++ ms) = digitPairs ns ++ digitPairs ms := List.flatMap_append

variable {format : DateFormat} {bytes : List UInt8} {tag : Tag}

theorem dateFormat_length {length : Nat} (h : dateFormat length = some format) :
    length = 2 * ((if format.isUtcLength then 1 else 2) + 4 + if format.noSeconds then 0 else 1) +
      1 + if format.isLocalized then 4 else 0 := by
  rw [dateFormat] at h
  split_ifs at h with hlength hlength hlength hlength hlength
  all_goals
    cases h
    exact hlength

theorem exists_append_of_length {α : Type*} {values : List α} (k l : Nat)
    (h : values.length = k + l) :
    ∃ before after, values = before ++ after ∧ before.length = k ∧ after.length = l :=
  ⟨values.take k, values.drop k, (List.take_append_drop k values).symm,
    by rw [List.length_take]; omega, by rw [List.length_drop]; omega⟩

theorem exists_text (hformat : dateFormat bytes.length = some format)
    (hfit : charactersFit format.isLocalized bytes = true) :
    ∃ text : DateText, text.Fits format ∧ bytes = text.octets := by
  have hlength := dateFormat_length hformat
  rw [add_assoc] at hlength
  rcases exists_append_of_length _ _ hlength with ⟨before, rest, rfl, hbefore, hrest⟩
  rw [add_comm] at hrest
  match rest, hrest with
  | ch :: after, hrest =>
    rw [List.length_cons, Nat.succ_inj] at hrest
    rcases (charactersFit_append _ _ _ _ hrest).mp hfit with ⟨hdigits, hch, hdigits'⟩
    rcases exists_digitPairs _ hbefore hdigits with ⟨ns, hns, hlt, rfl⟩
    have hpairs : after.length = 2 * if format.isLocalized then 2 else 0 := by
      rw [hrest]
      split_ifs <;> rfl
    rcases exists_digitPairs _ hpairs hdigits' with ⟨ms, hms, hlt', rfl⟩
    rcases exists_append_of_length _ _ hns with ⟨front, seconds, rfl, hfront, hseconds⟩
    rcases exists_append_of_length _ _ hfront with ⟨years, middle, rfl, hyears, hmiddle⟩
    match middle, hmiddle with
    | [month, day, hour, minute], _ =>
      exact ⟨⟨years, month, day, hour, minute, seconds, ch, ms⟩,
        ⟨hyears, hseconds, hms, hlt, hlt', hch⟩, rfl⟩

namespace DateText
variable {format : DateFormat} {text : DateText}

theorem parseDateFields_eq (year : Int) (month day hour minute : Nat) (seconds : List Nat)
    (hlt : ∀ n ∈ [month, day, hour, minute] ++ seconds, n < 100) (noSeconds : Bool)
    (hseconds : seconds.length = if noSeconds then 0 else 1) (rest : List UInt8) :
    parseDateFields noSeconds year
        (digitPairs ([month, day, hour, minute] ++ seconds) ++ rest) =
      ⟨year, month, day, hour, minute, (seconds.headD 0 : Nat)⟩ := by
  simp only [List.cons_append, List.nil_append, List.forall_mem_cons] at hlt
  rcases hlt with ⟨hmonth, hday, hhour, hminute, hlt⟩
  have hsecond : (if noSeconds then 0 else parseDecimalPair (digitPairs seconds ++ rest)) =
      ((seconds.headD 0 : Nat) : Int) := by
    cases noSeconds with
    | true => rw [List.length_eq_zero_iff.mp hseconds]; rfl
    | false =>
      rcases List.length_eq_one_iff.mp hseconds with ⟨second, rfl⟩
      simp [hlt second]
  rw [parseDateFields]
  change GregorianDate.mk year (parseDecimalPair (twoDigits month ++ _))
    (parseDecimalPair (twoDigits day ++ _)) (parseDecimalPair (twoDigits hour ++ _))
    (parseDecimalPair (twoDigits minute ++ _))
    (if noSeconds then 0 else parseDecimalPair (digitPairs seconds ++ rest)) = _
  rw [parseDecimalPair_append hmonth, parseDecimalPair_append hday, parseDecimalPair_append hhour,
    parseDecimalPair_append hminute, hsecond]

theorem parseTimeZoneOffset_eq (h : text.Fits format) :
    parseTimeZoneOffset format.isLocalized (text.zone :: digitPairs text.zoneFields) =
      text.offset := by
  have hfields := h.zoneFields
  have hlt := h.zoneFields_lt
  rw [offset, parseTimeZoneOffset]
  cases hlocalized : format.isLocalized with
  | true =>
    rw [hlocalized] at hfields
    match htail : text.zoneFields, hfields with
    | [hours, minutes], _ =>
      rw [htail] at hlt
      have hhours := parseDecimalPair_append (hlt hours (by simp)) (digitPairs [minutes])
      have hminutes := parseDecimalPair_append (hlt minutes (by simp)) []
      rw [List.append_nil] at hminutes
      change (if text.zone = 0x2B then 60 else -60) *
        (parseDecimalPair (twoDigits hours ++ digitPairs [minutes]) * 60 +
          parseDecimalPair (twoDigits minutes)) = _
      rw [hhours, hminutes]
  | false =>
    rw [hlocalized] at hfields
    rw [List.length_eq_zero_iff.mp hfields]
    rfl

theorem parseYear_eq {years : List Nat} {isUtcLength : Bool}
    (hyears : years.length = if isUtcLength then 1 else 2) (hlt : ∀ n ∈ years, n < 100)
    (rest : List UInt8) :
    parseYear isUtcLength (digitPairs years ++ rest) = (yearOf years).map Nat.cast ∧
      (digitPairs years ++ rest).drop (yearDigits isUtcLength) = rest := by
  cases isUtcLength with
  | true =>
    rcases List.length_eq_one_iff.mp hyears with ⟨yy, rfl⟩
    have hyear : parseDecimalPair (digitPairs [yy] ++ rest) = yy :=
      parseDecimalPair_append (hlt yy (by simp)) rest
    refine ⟨?_, rfl⟩
    rw [parseYear, if_pos rfl, hyear, yearOf]
    split_ifs <;> simp <;> omega
  | false =>
    match years, hyears with
    | [century, yy], _ =>
      have hcentury := parseDecimalPair_append (hlt century (by simp)) (twoDigits yy ++ rest)
      have hyear := parseDecimalPair_append (hlt yy (by simp)) rest
      refine ⟨?_, rfl⟩
      change some (100 * parseDecimalPair (twoDigits century ++ (twoDigits yy ++ rest)) +
        parseDecimalPair (twoDigits yy ++ rest)) = _
      rw [hcentury, hyear]
      simp [yearOf]

theorem parseDateContent_octets (h : text.Fits format) :
    parseDateContent format text.octets =
      (yearOf text.years).map fun year => ((text.time year).toDate, text.offset) := by
  have hindex : zoneIndex format.isLocalized text.octets.length =
      (digitPairs text.fields).length := by
    rw [zoneIndex, octets, List.length_append, List.length_cons, length_digitPairs text.zoneFields,
      h.zoneFields]
    split_ifs <;> omega
  have hoffset : parseTimeZoneOffset format.isLocalized
      (text.octets.drop (zoneIndex format.isLocalized text.octets.length)) = text.offset := by
    rw [hindex, octets, List.drop_left, parseTimeZoneOffset_eq h]
  have hrest : text.octets = digitPairs text.years ++
      (digitPairs ([text.month, text.day, text.hour, text.minute] ++ text.seconds) ++
        text.zone :: digitPairs text.zoneFields) := by
    rw [octets, fields, List.append_assoc, digitPairs_append, List.append_assoc]
  have hyears_lt : ∀ n ∈ text.years, n < 100 := fun n hn =>
    h.fields_lt n (List.mem_append_left _ (List.mem_append_left _ hn))
  have hfields : ∀ year : Nat, parseDateFields format.noSeconds year
      (digitPairs ([text.month, text.day, text.hour, text.minute] ++ text.seconds) ++
        text.zone :: digitPairs text.zoneFields) = (text.time year).toDate := fun year =>
    parseDateFields_eq year _ _ _ _ _ (fun n hn => h.fields_lt n (by
      rw [fields, List.append_assoc]
      exact List.mem_append_right _ hn)) _ h.seconds _
  have hyear := parseYear_eq h.years hyears_lt
    (digitPairs ([text.month, text.day, text.hour, text.minute] ++ text.seconds) ++
      text.zone :: digitPairs text.zoneFields)
  rw [parseDateContent, hoffset, hrest, hyear.1, hyear.2, Option.map_map]
  exact congrArg (fun f => (yearOf text.years).map f) (funext fun year =>
    congrArg (fun date => (date, text.offset)) (hfields year))
end DateText

theorem dateFormat_cases {length : Nat} (h : dateFormat length = some format) :
    format.noSeconds = true ∧ format.isUtcLength = true ∧ format.isLocalized = false ∨
      format.noSeconds = false := by
  rw [dateFormat] at h
  split_ifs at h <;> cases h <;> simp

namespace Zone
theorem length_fields (zone : Zone) : zone.fields.length = if zone.isLocalized then 2 else 0 := by
  cases zone <;> rfl

theorem fields_lt (zone : Zone) : ∀ n ∈ zone.fields, n < 100 := by
  cases zone with
  | zulu => simp [fields]
  | localized ahead hours minutes => simp [fields, hours.isLt, minutes.isLt]

theorem isZoneCharacter (zone : Zone) : isZoneCharacter zone.isLocalized zone.character = true := by
  rcases zone with _ | ⟨_ | _, _, _⟩ <;> rfl

theorem isdigit_character (zone : Zone) : isdigit zone.character = false := by
  rcases zone with _ | ⟨_ | _, _, _⟩ <;> rfl

theorem exists_of_character {isLocalized : Bool} {ch : UInt8} {ns : List Nat}
    (hns : ns.length = if isLocalized then 2 else 0) (hlt : ∀ n ∈ ns, n < 100)
    (hch : SecurityFramework.isZoneCharacter isLocalized ch = true) :
    ∃ zone : Zone, zone.isLocalized = isLocalized ∧ zone.character = ch ∧ zone.fields = ns := by
  cases isLocalized with
  | false =>
    refine ⟨.zulu, rfl, ?_, (List.length_eq_zero_iff.mp hns).symm⟩
    exact (of_decide_eq_true hch).symm
  | true =>
    match ns, hns with
    | [hours, minutes], _ =>
      refine ⟨.localized (ch = 0x2B) ⟨hours, hlt hours (by simp)⟩ ⟨minutes, hlt minutes (by simp)⟩,
        rfl, ?_, rfl⟩
      rcases of_decide_eq_true hch with rfl | rfl <;> rfl
end Zone

namespace DateText
def ofTime (years : List Nat) (time : CalendarTime) (seconds : List Nat) (zone : Zone) :
    DateText where
  years := years
  month := time.month
  day := time.day
  hour := time.hour
  minute := time.minute
  seconds := seconds
  zone := zone.character
  zoneFields := zone.fields

theorem ofTime_fits {years seconds : List Nat} {time : CalendarTime} {zone : Zone}
    (hvalid : time.Valid) (hyears : years.length = if format.isUtcLength then 1 else 2)
    (hyears_lt : ∀ n ∈ years, n < 100)
    (hseconds : seconds.length = if format.noSeconds then 0 else 1)
    (hseconds_lt : ∀ n ∈ seconds, n < 100) (hzone : zone.isLocalized = format.isLocalized) :
    (ofTime years time seconds zone).Fits format where
  years := hyears
  seconds := hseconds
  zoneFields := hzone ▸ zone.length_fields
  fields_lt := by
    have hday := hvalid.day.2
    have hlength : monthLength time.year time.month ≤ 31 := by
      rw [monthLength]
      split_ifs <;> omega
    have hmonth := hvalid.month
    have hhour := hvalid.hour
    have hminute := hvalid.minute
    simp only [fields, ofTime, List.mem_append, List.mem_cons, List.not_mem_nil, or_false]
    rintro n ((hn | rfl | rfl | rfl | rfl) | hn)
    · exact hyears_lt n hn
    · omega
    · omega
    · omega
    · omega
    · exact hseconds_lt n hn
  zoneFields_lt := zone.fields_lt
  zone := Or.inr (hzone ▸ zone.isZoneCharacter)

theorem ofTime_offset (years : List Nat) (time : CalendarTime) (seconds : List Nat) (zone : Zone) :
    (ofTime years time seconds zone).offset = zone.seconds := by
  rcases zone with _ | ⟨_ | _, _, _⟩ <;> rfl
end DateText

theorem TwoDigitYear.yearOf {yy year : Nat} (h : TwoDigitYear yy year) :
    DateText.yearOf [yy] = some year ∧ yy < 100 := by
  cases h with
  | century21 h => exact ⟨if_pos h, by omega⟩
  | century20 h h' =>
    rw [DateText.yearOf, if_neg (by omega), if_neg (by omega)]
    exact ⟨rfl, h'⟩

theorem twoDigitYear_of_yearOf {yy year : Nat} (h : DateText.yearOf [yy] = some year)
    (hlt : yy < 100) : TwoDigitYear yy year := by
  rw [DateText.yearOf] at h
  split_ifs at h with hlow hmiddle
  · cases h
    exact .century21 hlow
  · cases h
    exact .century20 (by omega) hlt

theorem tagFits_iff {isUtcLength : Bool} :
    tagFits tag isUtcLength = true ↔
      tag = if isUtcLength then ASN1_UTC_TIME else ASN1_GENERALIZED_TIME := by
  rw [tagFits]
  cases isUtcLength with
  | true =>
    by_cases hutc : tag = ASN1_UTC_TIME
    · simp [hutc]
    · simp [hutc]
  | false =>
    by_cases hutc : tag = ASN1_UTC_TIME
    · subst hutc
      decide
    · simp [hutc]

structure TextOf (tag : Tag) (bytes : List UInt8) (time : CalendarTime) (zone : Zone)
    (format : DateFormat) (text : DateText) : Prop where
  format_eq : dateFormat bytes.length = some format
  tag_fits : tagFits tag format.isUtcLength = true
  fits : text.Fits format
  octets : bytes = text.octets
  year : DateText.yearOf text.years = some time.year
  time : text.time time.year = time
  offset : text.offset = zone.seconds
  zone : isdigit text.zone = false

theorem Denotes.text {time : CalendarTime} {zone : Zone} (h : Denotes tag bytes time zone)
    (hvalid : time.Valid) :
    ∃ format text, TextOf tag bytes time zone format text := by
  have hsecond_lt : time.second < 100 := by
    have := hvalid.second
    omega
  cases h with
  | utcTimeNoSeconds hyear hsecond =>
    next yy =>
    refine ⟨⟨true, false, true⟩, .ofTime [yy] time [] .zulu, rfl, rfl,
      DateText.ofTime_fits hvalid rfl (by simp [hyear.yearOf.2]) rfl (by simp) rfl, rfl,
      hyear.yearOf.1, ?_, DateText.ofTime_offset _ _ _ _, rfl⟩
    rw [DateText.time, DateText.ofTime, List.headD_nil, ← hsecond]
  | utcTime hyear =>
    next yy =>
    exact ⟨⟨true, zone.isLocalized, false⟩, .ofTime [yy] time [time.second] zone,
      by cases zone <;> rfl, rfl,
      DateText.ofTime_fits hvalid rfl (by simp [hyear.yearOf.2]) rfl (by simp [hsecond_lt]) rfl,
      rfl, hyear.yearOf.1, rfl, DateText.ofTime_offset _ _ _ _, zone.isdigit_character⟩
  | generalizedTime hyear =>
    refine ⟨⟨false, zone.isLocalized, false⟩,
      .ofTime [time.year / 100, time.year % 100] time [time.second] zone,
      by cases zone <;> rfl, rfl,
      DateText.ofTime_fits hvalid rfl ?_ rfl (by simp [hsecond_lt]) rfl, rfl, ?_, rfl,
      DateText.ofTime_offset _ _ _ _, zone.isdigit_character⟩
    · simp only [List.mem_cons, List.not_mem_nil, or_false, forall_eq_or_imp, forall_eq]
      omega
    · exact congrArg some (Nat.div_add_mod time.year 100)

theorem DateText.denotes {text : DateText} {year : Nat}
    (hformat : dateFormat text.octets.length = some format)
    (htag : tagFits tag format.isUtcLength = true) (hfits : text.Fits format)
    (hyear : yearOf text.years = some year)
    (hzone : isZoneCharacter format.isLocalized text.zone = true) :
    ∃ zone, Denotes tag text.octets (text.time year) zone := by
  rcases Zone.exists_of_character hfits.zoneFields hfits.zoneFields_lt hzone with
    ⟨zone, hlocalized, hch, hns⟩
  have htag' := tagFits_iff.mp htag
  have hcases := dateFormat_cases hformat
  have hyears := hfits.years
  have hseconds := hfits.seconds
  have hlt := hfits.fields_lt
  rcases text with ⟨years, month, day, hour, minute, seconds, ch, ns⟩
  dsimp only at hyear hch hns hyears hseconds hlt
  subst hch hns htag'
  refine ⟨zone, ?_⟩
  cases hutc : format.isUtcLength with
  | true =>
    rw [hutc] at hyears
    rcases List.length_eq_one_iff.mp hyears with ⟨yy, rfl⟩
    have htwo := twoDigitYear_of_yearOf hyear (hlt yy (by simp [fields]))
    rcases hcases with ⟨hnone, -, hzulu⟩ | hsome
    · rw [hnone] at hseconds
      rw [List.length_eq_zero_iff.mp hseconds]
      cases zone with
      | zulu =>
        have hdenotes : Denotes ASN1_UTC_TIME _ ⟨year, month, day, hour, minute, 0⟩ .zulu :=
          .utcTimeNoSeconds htwo rfl
        exact hdenotes
      | localized ahead hours minutes => exact nomatch hlocalized.trans hzulu
    · rw [hsome] at hseconds
      rcases List.length_eq_one_iff.mp hseconds with ⟨second, rfl⟩
      have hdenotes : Denotes ASN1_UTC_TIME _ ⟨year, month, day, hour, minute, second⟩ zone :=
        .utcTime htwo
      exact hdenotes
  | false =>
    rw [hutc] at hyears
    rcases hcases with ⟨-, hutc', -⟩ | hsome
    · exact absurd (hutc.symm.trans hutc') (by decide)
    rw [hsome] at hseconds
    rcases List.length_eq_one_iff.mp hseconds with ⟨second, rfl⟩
    match years, hyears with
    | [century, yy], _ =>
      have hcentury : century < 100 := hlt century (by simp [fields])
      have hyy : yy < 100 := hlt yy (by simp [fields])
      cases hyear
      have hdenotes : Denotes ASN1_GENERALIZED_TIME _
          ⟨100 * century + yy, month, day, hour, minute, second⟩ zone :=
        .generalizedTime (by dsimp only; omega)
      have hhigh : (100 * century + yy) / 100 = century := by omega
      have hlow : (100 * century + yy) % 100 = yy := by omega
      dsimp only at hdenotes
      rw [hhigh, hlow] at hdenotes
      exact hdenotes

def PassesFormat (tag : Tag) (bytes : List UInt8) (format : DateFormat) : Prop :=
  dateFormat bytes.length = some format ∧ tagFits tag format.isUtcLength = true ∧
    charactersFit format.isLocalized bytes = true

theorem dateContent_of_passes (h : PassesFormat tag bytes format) :
    SecAbsoluteTimeFromDateContentWithError tag bytes =
      match parseDateContent format bytes with
      | none => (0, false)
      | some (date, timeZoneOffset) =>
        if isInvalidDate date then (NULL_TIME, true)
        else (absoluteTime date - timeZoneOffset, false) := by
  rw [SecAbsoluteTimeFromDateContentWithError, h.1]
  exact (if_neg (by rw [h.2.1]; decide)).trans (if_neg (by rw [h.2.2]; decide))

theorem passes_of_accepted (h : (SecAbsoluteTimeFromDateContentWithError tag bytes).2 = false) :
    ∃ format, PassesFormat tag bytes format := by
  rw [SecAbsoluteTimeFromDateContentWithError] at h
  cases hformat : dateFormat bytes.length with
  | none =>
    rw [hformat] at h
    exact nomatch h
  | some format =>
    simp only [hformat] at h
    split_ifs at h with htag hfit
    exact ⟨format, hformat, by simpa using htag, by simpa using hfit⟩

theorem TextOf.dateContent {time : CalendarTime} {zone : Zone} {text : DateText}
    (h : TextOf tag bytes time zone format text)
    (hfit : charactersFit format.isLocalized bytes = true) (hvalid : time.Valid) :
    SecAbsoluteTimeFromDateContentWithError tag bytes = (time.seconds - zone.seconds, false) := by
  have hparse := DateText.parseDateContent_octets h.fits
  rw [← h.octets, h.year, Option.map_some, h.time, h.offset] at hparse
  rw [dateContent_of_passes ⟨h.format_eq, h.tag_fits, hfit⟩, hparse]
  simp only [(isInvalidDate_eq_false_iff time).mpr hvalid, Bool.false_eq_true, if_false,
    absoluteTime_eq hvalid]

theorem DateText.charactersFit_octets {text : DateText} (h : text.Fits format) :
    charactersFit format.isLocalized text.octets = true := by
  have hlength : (digitPairs text.zoneFields).length = if format.isLocalized then 4 else 0 := by
    rw [length_digitPairs, h.zoneFields]
    split_ifs <;> rfl
  exact (charactersFit_append _ _ _ _ hlength).mpr
    ⟨fun b hb => isdigit_of_mem_digitPairs h.fields_lt hb, h.zone,
      fun b hb => isdigit_of_mem_digitPairs h.zoneFields_lt hb⟩

theorem Denotes.dateContent {time : CalendarTime} {zone : Zone} (h : Denotes tag bytes time zone)
    (hvalid : time.Valid) :
    SecAbsoluteTimeFromDateContentWithError tag bytes = (time.seconds - zone.seconds, false) := by
  rcases h.text hvalid with ⟨format, text, htext⟩
  refine htext.dateContent ?_ hvalid
  rw [htext.octets]
  exact DateText.charactersFit_octets htext.fits

theorem not_denotesTime_of_year (h : HasYearWithoutMeaning tag bytes) :
    ¬ DenotesTime tag bytes := by
  rcases h with ⟨format, hformat, htag, hfit, hyear⟩
  rintro ⟨time, zone, hdenotes, hvalid⟩
  rcases hdenotes.text hvalid with ⟨format', text, htext⟩
  have hparse := DateText.parseDateContent_octets htext.fits
  have hsame : format' = format := Option.some.inj (htext.format_eq.symm.trans hformat)
  subst hsame
  rw [← htext.octets, htext.year, parseDateContent, hyear] at hparse
  exact nomatch hparse

theorem not_denotesTime_of_digits (h : ∀ b ∈ bytes, isdigit b = true) :
    ¬ DenotesTime tag bytes := by
  rintro ⟨time, zone, hdenotes, hvalid⟩
  rcases hdenotes.text hvalid with ⟨format, text, htext⟩
  have hmem : text.zone ∈ bytes := by
    rw [htext.octets, DateText.octets]
    exact List.mem_append_right _ List.mem_cons_self
  exact nomatch (h _ hmem).symm.trans htext.zone

/-- What is accepted denotes a time, but for the two kinds of octets that are accepted as well. -/
theorem denotesTime_of_accepted (h : (SecAbsoluteTimeFromDateContentWithError tag bytes).2 = false)
    (hyear : ¬ HasYearWithoutMeaning tag bytes) (hdigit : ¬ HasDigitAsZone tag bytes) :
    DenotesTime tag bytes := by
  rcases passes_of_accepted h with ⟨format, hpasses⟩
  rcases exists_text hpasses.1 hpasses.2.2 with ⟨text, hfits, rfl⟩
  have hparse := DateText.parseDateContent_octets hfits
  rw [dateContent_of_passes hpasses, hparse] at h
  cases hof : DateText.yearOf text.years with
  | none =>
    refine absurd ⟨format, hpasses.1, hpasses.2.1, hpasses.2.2, ?_⟩ hyear
    rw [hof, Option.map_none, parseDateContent, Option.map_eq_none_iff] at hparse
    exact hparse
  | some year =>
    rw [hof] at h hparse
    have hvalid : isInvalidDate (text.time year).toDate = false := by
      rw [Option.map_some] at h
      dsimp only at h
      split_ifs at h with hinvalid
      exact Bool.not_eq_true _ ▸ hinvalid
    rcases hfits.zone with hzone | hzone
    · refine absurd ⟨format, _, _, hpasses.1, hpasses.2.1, fun b hb => ?_, hparse, hvalid⟩ hdigit
      rcases List.mem_append.mp hb with hb | hb
      · exact isdigit_of_mem_digitPairs hfits.fields_lt hb
      · rcases List.mem_cons.mp hb with rfl | hb
        · exact hzone
        · exact isdigit_of_mem_digitPairs hfits.zoneFields_lt hb
    · rcases DateText.denotes hpasses.1 hpasses.2.1 hfits hof hzone with ⟨zone, hdenotes⟩
      exact ⟨_, zone, hdenotes, (isInvalidDate_eq_false_iff _).mp hvalid⟩

theorem accepted_of_year (h : HasYearWithoutMeaning tag bytes) :
    (SecAbsoluteTimeFromDateContentWithError tag bytes).2 = false := by
  rcases h with ⟨format, hformat, htag, hfit, hyear⟩
  rw [dateContent_of_passes ⟨hformat, htag, hfit⟩, parseDateContent, hyear]
  rfl

theorem accepted_of_digits (h : HasDigitAsZone tag bytes) :
    (SecAbsoluteTimeFromDateContentWithError tag bytes).2 = false := by
  rcases h with ⟨format, date, timeZoneOffset, hformat, htag, hdigits, hparse, hvalid⟩
  have hfit : charactersFit format.isLocalized bytes = true := by
    rw [charactersFit, List.all_eq_true]
    intro ix hix
    rw [List.mem_range] at hix
    rw [List.getD_eq_getElem _ _ hix, hdigits _ (List.getElem_mem hix), Bool.true_or]
  rw [dateContent_of_passes ⟨hformat, htag, hfit⟩, hparse]
  simp [hvalid]

/-- Dates are read as the calendar has them, unless a year without a meaning is passed over or a
digit stands in the place of the zone character. -/
theorem readsAsDenoted_iff (tag : Tag) (bytes : List UInt8) :
    ReadsAsDenoted tag bytes ↔
      ¬ HasYearWithoutMeaning tag bytes ∧ ¬ HasDigitAsZone tag bytes := by
  constructor
  · intro hreads
    constructor
    · intro hyear
      exact not_denotesTime_of_year hyear (hreads.1.mp (accepted_of_year hyear))
    · intro hdigit
      have hdenotes := hreads.1.mp (accepted_of_digits hdigit)
      rcases hdigit with ⟨_, _, _, _, _, hdigits, _⟩
      exact not_denotesTime_of_digits hdigits hdenotes
  · rintro ⟨hyear, hdigit⟩
    refine ⟨⟨fun haccepted => denotesTime_of_accepted haccepted hyear hdigit, ?_⟩, ?_⟩
    · rintro ⟨time, zone, hdenotes, hvalid⟩
      rw [hdenotes.dateContent hvalid]
    · intro time zone hdenotes hvalid
      rw [hdenotes.dateContent hvalid]

/-- `500101000000Z` sets no error. -/
theorem readsAsDenoted_fails :
    ¬ ReadsAsDenoted ASN1_UTC_TIME (digitPairs [50, 1, 1, 0, 0, 0] ++ [0x5A]) := by
  intro hreads
  have hyear : HasYearWithoutMeaning ASN1_UTC_TIME
      (digitPairs [50, 1, 1, 0, 0, 0] ++ [0x5A]) :=
    ⟨⟨true, false, false⟩, by decide, by decide, by decide, by decide⟩
  exact not_denotesTime_of_year hyear (hreads.1.mp (accepted_of_year hyear))
end SecurityFramework
