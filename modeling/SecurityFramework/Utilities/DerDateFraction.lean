import SecurityFramework.Utilities.DerDate
import Mathlib.Data.Nat.Digits.Lemmas
import Mathlib.Data.Rat.Floor

/-! # Fractions of seconds -/

namespace SecurityFramework
open DER

def IsDouble (time : CFAbsoluteTime) : Prop := ∃ places, time.den = 2 ^ places

def decimalDigits (n : Nat) : List UInt8 :=
  (Nat.digits 10 n).reverse.map fun digit => UInt8.ofNat (0x30 + digit)

/-- The calendar drops the fraction of a second. The digits of a double have no zero in front, tell
it from others of its sign, and those before the point are the digits of its whole part. -/
structure DateSystem.FractionsCorrect (dates : DateSystem) : Prop where
  decompose_floor : ∀ time : CFAbsoluteTime, dates.calendarDecomposeAbsoluteTime time =
    dates.calendarDecomposeAbsoluteTime (time.floor : Rat)
  dtoa_more : ∀ time : CFAbsoluteTime, IsDouble time → time.den ≠ 1 →
    (dates.dtoa time).2 < (dates.dtoa time).1.length
  dtoa_head : ∀ time : CFAbsoluteTime, IsDouble time → time.den ≠ 1 →
    ∃ first digits, (dates.dtoa time).1 = first :: digits ∧ first ≠ 0x30
  dtoa_whole_part : ∀ time : CFAbsoluteTime, IsDouble time → time.den ≠ 1 →
    (dates.dtoa time).1.take (dates.dtoa time).2.toNat = decimalDigits |time|.floor.toNat
  dtoa_inj : ∀ time time' : CFAbsoluteTime, IsDouble time → IsDouble time' →
    dates.dtoa time = dates.dtoa time' → |time| = |time'|

/-- A double with year 0 to 9999. -/
def DateSystem.Representable (dates : DateSystem) (time : CFAbsoluteTime) : Prop :=
  IsDouble time ∧ ∃ components, dates.calendarDecomposeAbsoluteTime time = some components ∧
    0 ≤ components.year ∧ components.year < 10000

theorem replicate_append_inj {zeros zeros' : Nat} {first first' : UInt8}
    {digits digits' : List UInt8} (hfirst : first ≠ 0x30) (hfirst' : first' ≠ 0x30)
    (heq : List.replicate zeros 0x30 ++ first :: digits =
      List.replicate zeros' 0x30 ++ first' :: digits') :
    zeros = zeros' ∧ first :: digits = first' :: digits' := by
  induction zeros generalizing zeros' with
  | zero =>
    cases zeros' with
    | zero => exact ⟨rfl, heq⟩
    | succ zeros' =>
      rw [List.replicate_succ] at heq
      exact absurd (List.cons.inj heq).1 hfirst
  | succ zeros ih =>
    cases zeros' with
    | zero =>
      rw [List.replicate_succ] at heq
      exact absurd (List.cons.inj heq).1.symm hfirst'
    | succ zeros' =>
      rw [List.replicate_succ, List.replicate_succ] at heq
      obtain ⟨hzeros, hdigits⟩ := ih (List.cons.inj heq).2
      exact ⟨congrArg (· + 1) hzeros, hdigits⟩

theorem complementFraction_inj {digits digits' : List UInt8}
    (heq : complementFraction digits = complementFraction digits') : digits = digits' := by
  have hlength := congrArg List.length heq
  rw [length_complementFraction, length_complementFraction] at hlength
  induction digits generalizing digits' with
  | nil => exact (List.length_eq_zero_iff.mp hlength.symm).symm
  | cons digit digits ih =>
    cases digits' with
    | nil => cases hlength
    | cons digit' digits' =>
      cases digits with
      | nil =>
        cases digits' with
        | nil =>
          have hdigit : 0x3A - (digit - 0x30) = 0x3A - (digit' - 0x30) := (List.cons.inj heq).1
          have hsame : digit = digit' := by simpa using hdigit
          rw [hsame]
        | cons => cases hlength
      | cons second digits =>
        cases digits' with
        | nil => cases hlength
        | cons second' digits' =>
          have hdigit : 0x39 - (digit - 0x30) = 0x39 - (digit' - 0x30) := (List.cons.inj heq).1
          have hsame : digit = digit' := by simpa using hdigit
          have htail := ih (List.cons.inj heq).2 (Nat.succ.inj hlength)
          rw [hsame, htail]

variable {time : Rat}

theorem floor_of_den_eq_one (hwhole : time.den = 1) : (time.floor : Rat) = time := by
  rw [Rat.floor_def, hwhole, Nat.cast_one, Int.ediv_one]
  exact (Rat.den_eq_one_iff time).mp hwhole

theorem neg_iff_of_floor_eq {time' : Rat} (hfloor : time.floor = time'.floor) :
    time < 0 ↔ time' < 0 := by
  have hiff : ∀ t : Rat, t < 0 ↔ t.floor < 0 := fun t => by
    rw [Rat.floor_lt_iff]
    simp
  rw [hiff, hiff, hfloor]

theorem floor_neg_of_den_ne_one (hne : time.den ≠ 1) :
    (-time).floor = -time.floor - 1 := by
  have hle := Rat.floor_le time
  have hlt := Rat.lt_floor_add_one time
  have hstrict : (time.floor : Rat) < time := by
    refine lt_of_le_of_ne hle ?_
    intro heq
    apply hne
    rw [← heq]
    exact Rat.den_intCast _
  push_cast at hlt
  apply le_antisymm
  · have hupper : (-time).floor < -time.floor := by
      rw [Rat.floor_lt_iff]
      push_cast
      exact neg_lt_neg hstrict
    omega
  · rw [Rat.le_floor_iff]
    push_cast
    linarith

theorem floor_abs_eq {time' : Rat} (hne : time.den ≠ 1) (hne' : time'.den ≠ 1)
    (hfloor : time.floor = time'.floor) : |time|.floor = |time'|.floor := by
  have hneg := neg_iff_of_floor_eq hfloor
  by_cases hbefore : time < 0
  · rw [abs_of_neg hbefore, abs_of_neg (hneg.mp hbefore), floor_neg_of_den_ne_one hne,
      floor_neg_of_den_ne_one hne', hfloor]
  · rw [abs_of_nonneg (not_lt.mp hbefore), abs_of_nonneg (not_lt.mp (mt hneg.mpr hbefore)), hfloor]

theorem decimalPair_append_inj {v v' : Int} {rest rest' : List UInt8} (hv : 0 ≤ v ∧ v < 100)
    (hv' : 0 ≤ v' ∧ v' < 100) (heq : decimalPair v ++ rest = decimalPair v' ++ rest') :
    v = v' ∧ rest = rest' := by
  have hread := derDecodeDecimalPair_decimalPair hv.1 hv.2 rest
  rw [heq, derDecodeDecimalPair_decimalPair hv'.1 hv'.2, Option.some.injEq, Prod.mk.injEq] at hread
  exact ⟨by omega, hread.2.symm⟩

theorem generalizedtime_inj {date date' : GregorianDate} {fraction fraction' : List UInt8}
    (hdate : date.FourDigit) (hdate' : date'.FourDigit)
    (heq : generalizedtime date fraction = generalizedtime date' fraction') :
    date = date' ∧ fraction = fraction' := by
  have hbounds := validateDateComponents_bounds hdate.valid
  have hbounds' := validateDateComponents_bounds hdate'.valid
  obtain ⟨hyear, hlt, hhour, hminute, hsecond, -⟩ := hdate
  obtain ⟨hyear', hlt', hhour', hminute', hsecond', -⟩ := hdate'
  have hdiv := Int.tdiv_eq_ediv_of_nonneg (b := 100) hyear
  have hmod := Int.tmod_eq_emod_of_nonneg (b := 100) hyear
  have hdiv' := Int.tdiv_eq_ediv_of_nonneg (b := 100) hyear'
  have hmod' := Int.tmod_eq_emod_of_nonneg (b := 100) hyear'
  obtain ⟨h0, heq⟩ := decimalPair_append_inj (by omega) (by omega) heq
  obtain ⟨h1, heq⟩ := decimalPair_append_inj (by omega) (by omega) heq
  obtain ⟨h2, heq⟩ := decimalPair_append_inj (by omega) (by omega) heq
  obtain ⟨h3, heq⟩ := decimalPair_append_inj (by omega) (by omega) heq
  obtain ⟨h4, heq⟩ := decimalPair_append_inj (by omega) (by omega) heq
  obtain ⟨h5, heq⟩ := decimalPair_append_inj (by omega) (by omega) heq
  obtain ⟨h6, heq⟩ := decimalPair_append_inj (by omega) (by omega) heq
  refine ⟨?_, List.append_cancel_right heq⟩
  cases date
  cases date'
  simp only [GregorianDate.mk.injEq] at *
  omega

section
variable {dates : DateSystem} (hdates : dates.Correct) (hfractions : dates.FractionsCorrect)
include hdates hfractions

theorem writable_of_representable {time : CFAbsoluteTime} (htime : dates.Representable time) :
    dates.Writable time where
  components := by
    obtain ⟨-, components, hdecompose, hyear, hlt⟩ := htime
    have hfloor := hdecompose
    rw [hfractions.decompose_floor] at hfloor
    exact ⟨components, hdecompose,
      hdates.decompose_ranges _ components (Rat.den_intCast _) hfloor hyear hlt⟩
  digits := by
    by_cases hwhole : time.den = 1
    · have hdigits := hdates.dtoa_whole time hwhole
      omega
    · obtain ⟨first, digits, hstr, -⟩ := hfractions.dtoa_head time htime.1 hwhole
      exact .inr (by simp [hstr])

omit hdates in
theorem dtoa_eq_of_fractionDigits {time time' : CFAbsoluteTime} (htime : IsDouble time)
    (htime' : IsDouble time') (hne : time.den ≠ 1) (hne' : time'.den ≠ 1)
    (hwhole : |time|.floor = |time'|.floor)
    (hfraction : fractionDigits dates time = fractionDigits dates time') :
    dates.dtoa time = dates.dtoa time' := by
  have hmore := hfractions.dtoa_more time htime hne
  have hmore' := hfractions.dtoa_more time' htime' hne'
  have hpart := hfractions.dtoa_whole_part time htime hne
  have hpart' := hfractions.dtoa_whole_part time' htime' hne'
  obtain ⟨first, digits, hstr, hfirst⟩ := hfractions.dtoa_head time htime hne
  obtain ⟨first', digits', hstr', hfirst'⟩ := hfractions.dtoa_head time' htime' hne'
  rw [hwhole] at hpart
  rw [fractionDigits, fractionDigits] at hfraction
  cases hdtoa : dates.dtoa time with
  | mk str dotoff =>
    cases hdtoa' : dates.dtoa time' with
    | mk str' dotoff' =>
      simp only [hdtoa] at hmore hpart hstr hfraction
      simp only [hdtoa'] at hmore' hpart' hstr' hfraction
      have hlength := congrArg List.length (hpart.trans hpart'.symm)
      rw [List.length_take, List.length_take] at hlength
      by_cases hpoint : 0 < dotoff
      · -- the point is right of the same digits in both
        have hzeros : (-dotoff).toNat = 0 := by omega
        have hzeros' : (-dotoff').toNat = 0 := by omega
        have hdotoff : dotoff = dotoff' := by omega
        rw [hzeros, hzeros', List.replicate_zero, List.nil_append, List.nil_append] at hfraction
        have hsame : str = str' := by
          rw [← List.take_append_drop dotoff.toNat str, hfraction, hpart, ← hpart',
            List.take_append_drop]
        rw [hsame, hdotoff]
      · -- both digits start after some zeros, or none
        have hstart : dotoff.toNat = 0 := by omega
        have hstart' : dotoff'.toNat = 0 := by omega
        rw [hstart, hstart', List.drop_zero, List.drop_zero, hstr, hstr'] at hfraction
        obtain ⟨hzeros, hsame⟩ := replicate_append_inj hfirst hfirst' hfraction
        have hdotoff : dotoff = dotoff' := by omega
        rw [hstr, hstr', hsame, hdotoff]

omit hdates in
theorem fractionContent_eq_nil_iff {time : CFAbsoluteTime} (htime : IsDouble time)
    (hdtoa : time.den = 1 → fractionContent dates time = []) :
    fractionContent dates time = [] ↔ time.den = 1 := by
  constructor
  · intro hnil
    by_contra hne
    have hmore := hfractions.dtoa_more time htime hne
    rw [fractionContent, if_pos hmore] at hnil
    cases hnil
  · exact hdtoa

theorem dateContent_inj {time time' : CFAbsoluteTime} (htime : dates.Representable time)
    (htime' : dates.Representable time')
    (heq : dateContent dates time = dateContent dates time') : time = time' := by
  obtain ⟨components, hdecompose, hranges⟩ :=
    (writable_of_representable hdates hfractions htime).components
  obtain ⟨components', hdecompose', hranges'⟩ :=
    (writable_of_representable hdates hfractions htime').components
  rw [dateContent, dateContent, hdecompose, hdecompose'] at heq
  obtain ⟨hcomponents, hfraction⟩ := generalizedtime_inj hranges hranges' heq
  have hfloor : time.floor = time'.floor := by
    rw [hfractions.decompose_floor] at hdecompose hdecompose'
    have hcompose := hdates.compose_decompose _ _ (Rat.den_intCast _) hdecompose
    rw [hcomponents, hdates.compose_decompose _ _ (Rat.den_intCast _) hdecompose'] at hcompose
    exact_mod_cast (Option.some.inj hcompose).symm
  have hnil := fractionContent_eq_nil_iff hfractions htime.1 (fractionContent_whole hdates)
  have hnil' := fractionContent_eq_nil_iff hfractions htime'.1 (fractionContent_whole hdates)
  have hneg := neg_iff_of_floor_eq hfloor
  rw [hfraction, hnil'] at hnil
  by_cases hwhole : time.den = 1
  · rw [← floor_of_den_eq_one hwhole, hfloor, floor_of_den_eq_one (hnil.mpr hwhole)]
  · have hwhole' : time'.den ≠ 1 := mt hnil.mp hwhole
    have hdigits : fractionDigits dates time = fractionDigits dates time' := by
      rw [fractionContent, fractionContent, if_pos (hfractions.dtoa_more time htime.1 hwhole),
        if_pos (hfractions.dtoa_more time' htime'.1 hwhole'), List.cons.injEq] at hfraction
      by_cases hbefore : time < 0
      · rw [if_pos hbefore, if_pos (hneg.mp hbefore)] at hfraction
        exact complementFraction_inj hfraction.2
      · rw [if_neg hbefore, if_neg (mt hneg.mpr hbefore)] at hfraction
        exact hfraction.2
    have hdtoa := dtoa_eq_of_fractionDigits hfractions htime.1 htime'.1 hwhole hwhole'
      (floor_abs_eq hwhole hwhole' hfloor) hdigits
    have habs := hfractions.dtoa_inj time time' htime.1 htime'.1 hdtoa
    by_cases hbefore : time < 0
    · rw [abs_of_neg hbefore, abs_of_neg (hneg.mp hbefore)] at habs
      exact neg_inj.mp habs
    · rw [abs_of_nonneg (not_lt.mp hbefore),
        abs_of_nonneg (not_lt.mp (mt hneg.mpr hbefore))] at habs
      exact habs
end

def exactDigits (time : CFAbsoluteTime) : List UInt8 × Int :=
  let places := Nat.log2 time.den
  let digits := decimalDigits (time.num.natAbs * 5 ^ places)
  (digits, digits.length - places)

def firstMonthDoubles : DateSystem where
  calendarComposeAbsoluteTime := firstMonthCompose
  calendarDecomposeAbsoluteTime time := firstMonthDecompose (time.floor : Rat)
  dtoa := exactDigits

theorem firstMonthDoubles_correct : firstMonthDoubles.Correct where
  decompose_ranges time date hwhole := by
    simp only [firstMonthDoubles, floor_of_den_eq_one hwhole]
    exact firstMonth_correct.decompose_ranges time date hwhole
  compose_decompose time date hwhole := by
    simp only [firstMonthDoubles, floor_of_den_eq_one hwhole]
    exact firstMonth_correct.compose_decompose time date hwhole
  dtoa_whole time hwhole := by
    have hplaces : Nat.log2 time.den = 0 := by rw [hwhole]; rfl
    simp [firstMonthDoubles, exactDigits, hplaces]

/-- Without its last digits, a number is divided by a power of ten. -/
theorem decimalDigits_take (n places : Nat) :
    (decimalDigits n).take ((decimalDigits n).length - places) = decimalDigits (n / 10 ^ places) := by
  have hdrop : (Nat.digits 10 n).drop places = Nat.digits 10 (n / 10 ^ places) := by
    rw [Nat.self_div_pow_eq_ofDigits_drop places n (by decide)]
    refine (Nat.digits_ofDigits 10 (by decide) _ ?_ ?_).symm
    · intro digit hdigit
      exact Nat.digits_lt_base (by decide) (List.mem_of_mem_drop hdigit)
    · intro hne
      rw [List.getLast_drop]
      exact Nat.getLast_digit_ne_zero 10 (Nat.digits_ne_nil_iff_ne_zero.mp
        (List.ne_nil_of_drop_ne_nil hne))
  have hlast : (Nat.digits 10 n).drop ((Nat.digits 10 n).length -
      ((Nat.digits 10 n).length - places)) = (Nat.digits 10 n).drop places := by
    by_cases hplaces : places ≤ (Nat.digits 10 n).length
    · rw [Nat.sub_sub_self hplaces]
    · rw [List.drop_eq_nil_of_le (by omega), List.drop_eq_nil_of_le (by omega)]
  simp only [decimalDigits, List.length_map, List.length_reverse, ← List.map_take]
  rw [List.take_reverse, hlast, hdrop]

theorem decimalDigits_head {n : Nat} (hn : n ≠ 0) :
    ∃ first digits, decimalDigits n = first :: digits ∧ first ≠ 0x30 := by
  have hne : Nat.digits 10 n ≠ [] := Nat.digits_ne_nil_iff_ne_zero.mpr hn
  have hlast := Nat.getLast_digit_ne_zero 10 hn
  have hlt := Nat.digits_lt_base (by decide : 1 < 10) (List.getLast_mem hne)
  refine ⟨UInt8.ofNat (0x30 + (Nat.digits 10 n).getLast hne),
    (Nat.digits 10 n).dropLast.reverse.map fun digit => UInt8.ofNat (0x30 + digit), ?_, ?_⟩
  · have hreverse : (Nat.digits 10 n).reverse =
        (Nat.digits 10 n).getLast hne :: (Nat.digits 10 n).dropLast.reverse := by
      rw [← List.reverse_concat, List.dropLast_append_getLast hne]
    rw [decimalDigits, hreverse, List.map_cons]
  · intro hzero
    have hnat := congrArg UInt8.toNat hzero
    rw [UInt8.toNat_ofNat', Nat.mod_eq_of_lt (by omega)] at hnat
    have hthirty : (0x30 : UInt8).toNat = 0x30 := rfl
    omega

theorem decimalDigits_inj {n n' : Nat} (heq : decimalDigits n = decimalDigits n') : n = n' := by
  have hvalue : ∀ m, ((decimalDigits m).reverse.map fun octet => octet.toNat - 0x30) =
      Nat.digits 10 m := by
    intro m
    rw [decimalDigits, ← List.map_reverse, List.reverse_reverse, List.map_map]
    refine (List.map_congr_left ?_).trans (List.map_id _)
    intro digit hdigit
    have hlt := Nat.digits_lt_base (by decide : 1 < 10) hdigit
    simp only [Function.comp_apply, id_eq, UInt8.toNat_ofNat']
    omega
  have hdigits := hvalue n
  rw [heq, hvalue n'] at hdigits
  exact (Nat.digits_inj_iff.mp hdigits).symm

theorem isDouble_places {time : CFAbsoluteTime} (htime : IsDouble time) :
    time.den = 2 ^ Nat.log2 time.den := by
  obtain ⟨places, hplaces⟩ := htime
  rw [hplaces, Nat.log2_two_pow]

theorem places_ne_zero {time : CFAbsoluteTime} (htime : IsDouble time) (hne : time.den ≠ 1) :
    Nat.log2 time.den ≠ 0 := by
  intro hzero
  have hden := isDouble_places htime
  rw [hzero] at hden
  exact hne hden

theorem num_ne_zero_of_den_ne_one (hne : time.den ≠ 1) : time.num ≠ 0 := by
  intro hzero
  apply hne
  rw [Rat.num_eq_zero.mp hzero]
  rfl

theorem floor_abs_toNat (time : Rat) : |time|.floor.toNat = time.num.natAbs / time.den := by
  rw [Rat.floor_def, Rat.num_abs_eq_abs_num, Rat.den_abs_eq_den, Int.abs_eq_natAbs]
  exact Int.toNat_natCast _

theorem firstMonthDoubles_fractions : firstMonthDoubles.FractionsCorrect where
  decompose_floor time := by simp [firstMonthDoubles, Rat.floor_intCast]
  dtoa_more time htime hne := by
    have hplaces := places_ne_zero htime hne
    simp only [firstMonthDoubles, exactDigits]
    omega
  dtoa_head time htime hne := by
    apply decimalDigits_head
    exact Nat.mul_ne_zero (Int.natAbs_ne_zero.mpr (num_ne_zero_of_den_ne_one hne))
      (pow_ne_zero _ (by decide))
  dtoa_whole_part time htime hne := by
    have hpower : (10 : Nat) ^ Nat.log2 time.den = 2 ^ Nat.log2 time.den * 5 ^ Nat.log2 time.den := by
      rw [← mul_pow]
      rfl
    simp only [firstMonthDoubles, exactDigits]
    rw [Int.toNat_sub, decimalDigits_take, floor_abs_toNat, hpower,
      Nat.mul_div_mul_right _ _ (pow_pos (by decide) _), ← isDouble_places htime]
  dtoa_inj time time' htime htime' hdtoa := by
    simp only [firstMonthDoubles, exactDigits, Prod.mk.injEq] at hdtoa
    obtain ⟨hdigits, hpoint⟩ := hdtoa
    have hplaces : Nat.log2 time.den = Nat.log2 time'.den := by
      rw [hdigits] at hpoint
      omega
    have hnum : time.num.natAbs = time'.num.natAbs := by
      have hsame := decimalDigits_inj hdigits
      rw [hplaces] at hsame
      exact Nat.eq_of_mul_eq_mul_right (pow_pos (by decide) _) hsame
    have hden : time.den = time'.den := by
      rw [isDouble_places htime, isDouble_places htime', hplaces]
    apply Rat.ext
    · rw [Rat.num_abs_eq_abs_num, Rat.num_abs_eq_abs_num, Int.abs_eq_natAbs, Int.abs_eq_natAbs, hnum]
    · rw [Rat.den_abs_eq_den, Rat.den_abs_eq_den, hden]
end SecurityFramework
