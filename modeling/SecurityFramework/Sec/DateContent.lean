import SecurityFramework.Utilities.DerDate
import SecurityFramework.Library.GregorianCalendar
import Mathlib.Data.List.GetD
import Mathlib.Tactic.IntervalCases

/-! # Dates in certificates -/

namespace SecurityFramework
open DER

def ASN1_UTC_TIME : Tag := ⟨.universal, false, 23⟩

def ASN1_GENERALIZED_TIME : Tag := ⟨.universal, false, 24⟩

/-- `YYMMDDhhmmZ`. -/
def UTC_TIME_NOSEC_ZULU_LEN : Nat := 11

/-- `YYMMDDhhmmssZ`. -/
def UTC_TIME_ZULU_LEN : Nat := 13

/-- `YYMMDDhhmmssThhmm`. -/
def UTC_TIME_LOCALIZED_LEN : Nat := 17

/-- `YYYYMMDDhhmmssZ`. -/
def GENERALIZED_TIME_ZULU_LEN : Nat := 15

/-- `YYYYMMDDhhmmssThhmm`. -/
def GENERALIZED_TIME_LOCALIZED_LEN : Nat := 19

structure DateFormat where
  isUtcLength : Bool
  isLocalized : Bool
  noSeconds : Bool
  deriving DecidableEq

def dateFormat (length : Nat) : Option DateFormat :=
  if length = UTC_TIME_NOSEC_ZULU_LEN then some ⟨true, false, true⟩
  else if length = UTC_TIME_ZULU_LEN then some ⟨true, false, false⟩
  else if length = GENERALIZED_TIME_ZULU_LEN then some ⟨false, false, false⟩
  else if length = UTC_TIME_LOCALIZED_LEN then some ⟨true, true, false⟩
  else if length = GENERALIZED_TIME_LOCALIZED_LEN then some ⟨false, true, false⟩
  else none

def tagFits (tag : Tag) (isUtcLength : Bool) : Bool :=
  if tag = ASN1_UTC_TIME then isUtcLength
  else if tag = ASN1_GENERALIZED_TIME then !isUtcLength
  else false

def isdigit (ch : UInt8) : Bool := decide (0x30 ≤ ch ∧ ch ≤ 0x39)

def isZoneCharacter (isLocalized : Bool) (ch : UInt8) : Bool :=
  if isLocalized then decide (ch = 0x2B ∨ ch = 0x2D) else decide (ch = 0x5A)

def zoneIndex (isLocalized : Bool) (length : Nat) : Nat :=
  if isLocalized then length - 5 else length - 1

def charactersFit (isLocalized : Bool) (bytes : List UInt8) : Bool :=
  (List.range bytes.length).all fun ix =>
    isdigit (bytes.getD ix 0) ||
      (decide (ix = zoneIndex isLocalized bytes.length) &&
        isZoneCharacter isLocalized (bytes.getD ix 0))

def parseDecimalPair (cp : List UInt8) : Int :=
  10 * ((cp.getD 0 0).toNat - 0x30) + (cp.getD 1 0).toNat - 0x30

/-- Two digits stand for a year from 1970 to 2049; for others the function returns `false`. -/
def parseYear (isUtcLength : Bool) (cp : List UInt8) : Option Int :=
  if isUtcLength then
    if parseDecimalPair cp < 50 then some (parseDecimalPair cp + 2000)
    else if parseDecimalPair cp < 70 then none
    else some (parseDecimalPair cp + 1900)
  else some (100 * parseDecimalPair cp + parseDecimalPair (cp.drop 2))

def yearDigits (isUtcLength : Bool) : Nat := if isUtcLength then 2 else 4

def parseDateFields (noSeconds : Bool) (year : Int) (cp : List UInt8) : GregorianDate where
  year := year
  month := parseDecimalPair cp
  day := parseDecimalPair (cp.drop 2)
  hour := parseDecimalPair (cp.drop 4)
  minute := parseDecimalPair (cp.drop 6)
  second := if noSeconds then 0 else parseDecimalPair (cp.drop 8)

def parseTimeZoneOffset (isLocalized : Bool) (cp : List UInt8) : Int :=
  if isLocalized then
    (if cp.getD 0 0 = 0x2B then 60 else -60) *
      (parseDecimalPair (cp.drop 1) * 60 + parseDecimalPair (cp.drop 3))
  else 0

def leapYearDay (year : Int) : Int := if isLeapYear year then 1 else 0

def isInvalidDate (date : GregorianDate) : Bool :=
  decide (date.month < 1 ∨ date.month > 12 ∨ date.day < 1 ∨ date.day > 31 ∨ date.hour > 23 ∨
    date.minute > 59 ∨ date.second > 60 ∨
    (date.month = 2 ∧
      date.day > mdays date.month - mdays (date.month - 1) + leapYearDay date.year) ∨
    (date.month ≠ 2 ∧ date.day > mdays date.month - mdays (date.month - 1)))

def dayNumber (date : GregorianDate) : Int :=
  let dy := if date.year - 2001 < 0 then date.year - 2001 + 1 else date.year - 2001
  let day := if date.year - 2001 < 0 then date.day - 1 else date.day
  let leap_days := dy.tdiv 4 - dy.tdiv 100 + dy.tdiv 400
  day + ((date.year - 2001) * 365 + leap_days) + mdays (date.month - 1) - 1 +
    if date.month > 2 then leapYearDay date.year else 0

/-- Whole numbers, which a double holds exactly. -/
def absoluteTime (date : GregorianDate) : Int :=
  ((dayNumber date * 24 + date.hour) * 60 + date.minute) * 60 + date.second

def NULL_TIME : Int := 0

def parseDateContent (format : DateFormat) (bytes : List UInt8) : Option (GregorianDate × Int) :=
  (parseYear format.isUtcLength bytes).map fun year =>
    (parseDateFields format.noSeconds year (bytes.drop (yearDigits format.isUtcLength)),
      parseTimeZoneOffset format.isLocalized
        (bytes.drop (zoneIndex format.isLocalized bytes.length)))

/-- The time, and whether an error is set. No octets stand for the null pointer too. -/
def SecAbsoluteTimeFromDateContentWithError (tag : Tag) (bytes : List UInt8) : Int × Bool :=
  match dateFormat bytes.length with
  | none => (NULL_TIME, true)
  | some format =>
    if !tagFits tag format.isUtcLength then (NULL_TIME, true)
    else if !charactersFit format.isLocalized bytes then (NULL_TIME, true)
    else
      match parseDateContent format bytes with
      | none => (0, false)
      | some (date, timeZoneOffset) =>
        if isInvalidDate date then (NULL_TIME, true)
        else (absoluteTime date - timeZoneOffset, false)

def derDateContentGetAbsoluteTime (tag : Tag) (date : List UInt8) : Option Int :=
  if (SecAbsoluteTimeFromDateContentWithError tag date).2 then none
  else some (SecAbsoluteTimeFromDateContentWithError tag date).1

theorem charactersFit_append (isLocalized : Bool) (before after : List UInt8) (ch : UInt8)
    (hafter : after.length = if isLocalized then 4 else 0) :
    charactersFit isLocalized (before ++ ch :: after) = true ↔
      (∀ b ∈ before, isdigit b = true) ∧
        (isdigit ch = true ∨ isZoneCharacter isLocalized ch = true) ∧
        ∀ b ∈ after, isdigit b = true := by
  have hindex : zoneIndex isLocalized (before ++ ch :: after).length = before.length := by
    rw [zoneIndex, List.length_append, List.length_cons, hafter]
    split_ifs <;> omega
  rw [charactersFit, hindex, List.all_eq_true]
  constructor
  · intro hall
    refine ⟨fun b hb => ?_, ?_, fun b hb => ?_⟩
    · rcases List.mem_iff_getElem.mp hb with ⟨ix, hix, rfl⟩
      have hfit := hall ix (List.mem_range.mpr (by simp; omega))
      rw [List.getD_append _ _ _ _ hix, List.getD_eq_getElem _ _ hix] at hfit
      simpa [Nat.ne_of_lt hix] using hfit
    · have hfit := hall before.length (List.mem_range.mpr (by simp))
      rw [List.getD_append_right _ _ _ _ (le_refl _)] at hfit
      simpa using hfit
    · rcases List.mem_iff_getElem.mp hb with ⟨ix, hix, rfl⟩
      have hfit := hall (before.length + (ix + 1)) (List.mem_range.mpr (by simp; omega))
      rw [List.getD_append_right _ _ _ _ (by omega), Nat.add_sub_cancel_left,
        List.getD_cons_succ, List.getD_eq_getElem _ _ hix] at hfit
      simpa using hfit
  · rintro ⟨hbefore, hch, hrest⟩ ix hix
    rw [List.mem_range, List.length_append, List.length_cons] at hix
    rcases lt_trichotomy ix before.length with hlt | rfl | hgt
    · rw [List.getD_append _ _ _ _ hlt, List.getD_eq_getElem _ _ hlt,
        hbefore _ (List.getElem_mem hlt), Bool.true_or]
    · rw [List.getD_append_right _ _ _ _ (le_refl _)]
      simpa using hch
    · have hlt : ix - before.length - 1 < after.length := by omega
      have hsub : ix - before.length = ix - before.length - 1 + 1 := by omega
      rw [List.getD_append_right _ _ _ _ hgt.le, hsub, List.getD_cons_succ,
        List.getD_eq_getElem _ _ hlt, hrest _ (List.getElem_mem hlt), Bool.true_or]

def twoDigits (n : Nat) : List UInt8 := [UInt8.ofNat (0x30 + n / 10), UInt8.ofNat (0x30 + n % 10)]

def digitPairs (ns : List Nat) : List UInt8 := ns.flatMap twoDigits

@[simp] theorem digitPairs_nil : digitPairs [] = [] := rfl

@[simp] theorem digitPairs_cons (n : Nat) (ns : List Nat) :
    digitPairs (n :: ns) = twoDigits n ++ digitPairs ns := rfl

@[simp] theorem length_digitPairs (ns : List Nat) :
    (digitPairs ns).length = 2 * ns.length := by
  induction ns with
  | nil => rfl
  | cons n ns ih =>
    rw [digitPairs_cons, List.length_append, ih, List.length_cons, twoDigits]
    simp only [List.length_cons, List.length_nil]
    omega

theorem isdigit_ofNat {d : Nat} (h : d < 10) : isdigit (UInt8.ofNat (0x30 + d)) = true := by
  interval_cases d <;> decide

theorem exists_digit {b : UInt8} (h : isdigit b = true) :
    ∃ d < 10, b = UInt8.ofNat (0x30 + d) := by
  rw [isdigit, decide_eq_true_iff, UInt8.le_iff_toNat_le, UInt8.le_iff_toNat_le] at h
  refine ⟨b.toNat - 0x30, ?_, ?_⟩
  · have hle : b.toNat ≤ 57 := h.2
    omega
  · have hge : 48 ≤ b.toNat := h.1
    rw [Nat.add_sub_cancel' hge, UInt8.ofNat_toNat]

theorem isdigit_of_mem_digitPairs {ns : List Nat} (h : ∀ n ∈ ns, n < 100) {b : UInt8}
    (hb : b ∈ digitPairs ns) : isdigit b = true := by
  rcases List.mem_flatMap.mp hb with ⟨n, hn, hmem⟩
  have hlt := h n hn
  rw [twoDigits, List.mem_cons, List.mem_singleton] at hmem
  rcases hmem with rfl | rfl
  · exact isdigit_ofNat (by omega)
  · exact isdigit_ofNat (by omega)

theorem exists_digitPairs (k : Nat) {bytes : List UInt8} (hlength : bytes.length = 2 * k)
    (hdigits : ∀ b ∈ bytes, isdigit b = true) :
    ∃ ns : List Nat, ns.length = k ∧ (∀ n ∈ ns, n < 100) ∧ bytes = digitPairs ns := by
  induction k generalizing bytes with
  | zero => exact ⟨[], rfl, by simp, List.length_eq_zero_iff.mp hlength⟩
  | succ k ih =>
    match bytes, hlength with
    | high :: low :: bytes, hlength =>
      rcases exists_digit (hdigits high (by simp)) with ⟨d, hd, rfl⟩
      rcases exists_digit (hdigits low (by simp)) with ⟨e, he, rfl⟩
      rcases ih (by simpa [Nat.mul_succ] using hlength) (fun b hb => hdigits b (by simp [hb])) with
        ⟨ns, hns, hlt, rfl⟩
      refine ⟨(10 * d + e) :: ns, by rw [List.length_cons, hns], ?_, ?_⟩
      · rintro n (_ | ⟨_, hn⟩)
        · omega
        · exact hlt n hn
      · have hhigh : (10 * d + e) / 10 = d := by omega
        have hlow : (10 * d + e) % 10 = e := by omega
        rw [digitPairs_cons, twoDigits, hhigh, hlow]
        rfl

theorem toNat_digit {d : Nat} (h : d < 10) : (UInt8.ofNat (0x30 + d)).toNat = 0x30 + d := by
  rw [UInt8.toNat_ofNat']
  omega

@[simp] theorem parseDecimalPair_append {n : Nat} (h : n < 100) (rest : List UInt8) :
    parseDecimalPair (twoDigits n ++ rest) = n := by
  have hhigh := toNat_digit (d := n / 10) (by omega)
  have hlow := toNat_digit (d := n % 10) (by omega)
  simp only [parseDecimalPair, twoDigits, List.cons_append, List.nil_append,
    List.getD_cons_zero, List.getD_cons_succ, hhigh, hlow]
  omega

@[simp] theorem drop_two_append (n : Nat) (rest : List UInt8) :
    (twoDigits n ++ rest).drop 2 = rest := rfl
end SecurityFramework
