import SecurityFramework.CodeSigning.RequirementParser
import SecurityFramework.Sec.DateContentExactness

/-! # Literals and what they denote -/

namespace SecurityFramework
namespace RequirementParser
open RequirementLexer Requirement

def decimal (digits : Digits) : Nat := Nat.ofDigitChars 10 (cString digits.text) 0

def hexValue (text : List UInt8) : Nat :=
  text.foldl (fun value ch => value * 16 + hexDigit ch) 0

open Classical in
noncomputable def denotedTime (text : List UInt8) : Option Int :=
  if h : ∃ seconds, ∃ time zone, Denotes ASN1_GENERALIZED_TIME text time zone ∧ time.Valid ∧
      seconds = time.seconds - zone.seconds then some h.choose
  else none

/-- Numbers are those of their digits, and have to be in the range of their type. -/
noncomputable def LiteralReading.denoted : LiteralReading where
  Number := Int
  integer digits := decimal digits
  neg number := -number
  toInt32 number := if -2 ^ 31 ≤ number ∧ number < 2 ^ 31 then some number else none
  toUInt32 number :=
    if 0 ≤ number ∧ number < 2 ^ 32 then some (UInt32.ofNat number.toNat) else none
  hex digits :=
    if digits.text.length % 2 = 0 then
      some (Memory.toBE (digits.text.length / 2) (hexValue digits.text))
    else none
  timestamp := denotedTime

/-- What a literal at some place of a text is. -/
inductive Expected
  | requirementType | slotOrPlatform | negatedSlot | date
  deriving DecidableEq

namespace Expected
def next : Expected → Token → Expected
  | _, .LITERAL .certificate | _, .LITERAL .cert | _, .LITERAL .platform => slotOrPlatform
  | slotOrPlatform, .NEG => negatedSlot
  | slotOrPlatform, .EQL | slotOrPlatform, .EQQL => slotOrPlatform
  | _, .LITERAL .timestamp => date
  | _, _ => requirementType

def Fine : Expected → Token → Prop
  | requirementType, .INTEGER digits => decimal digits < 2 ^ 32
  | slotOrPlatform, .INTEGER digits => decimal digits < 2 ^ 31
  | negatedSlot, .INTEGER digits => decimal digits ≤ 2 ^ 31
  | date, .STRING text => DenotesTime ASN1_GENERALIZED_TIME text
  | _, _ => True
end Expected

def LiteralsFine : Expected → List Token → Prop
  | _, [] => True
  | expected, token :: tokens => expected.Fine token ∧ LiteralsFine (expected.next token) tokens

theorem cString_eq {text : List UInt8} (h : ∀ ch ∈ text, ch ≠ 0) :
    cString text = text.map fun ch => Char.ofNat ch.toNat := by
  rw [cString, List.takeWhile_eq_self_iff.mpr]
  intro ch hch
  simpa using h ch hch

theorem isDigit_of_isdigit {ch : UInt8} (h : isdigit ch = true) :
    (Char.ofNat ch.toNat).isDigit = true ∧ ch ≠ 0 := by
  have hrange : 0x30 ≤ ch.toNat ∧ ch.toNat ≤ 0x39 := by
    simpa [isdigit, UInt8.le_iff_toNat_le] using h
  have hvalid : ch.toNat.isValidChar := Or.inl (by omega)
  constructor
  · have hchar : (Char.ofNat ch.toNat).toNat = ch.toNat := by
      rw [Char.ofNat, dif_pos hvalid]
      rfl
    rw [Char.isDigit_iff_toNat, hchar]
    exact hrange
  · rintro rfl
    exact absurd hrange.1 (by decide)

theorem atol_eq (digits : Digits) :
    atol (cString digits.text) = min (decimal digits) (2 ^ 63 - 1) := by
  have hchars := cString_eq fun ch hch => (isDigit_of_isdigit (digits.all_kind ch hch)).2
  have hdigits : ∀ c ∈ cString digits.text, c.isDigit = true := by
    intro c hc
    rw [hchars] at hc
    obtain ⟨ch, hch, rfl⟩ := List.mem_map.mp hc
    exact (isDigit_of_isdigit (digits.all_kind ch hch)).1
  have hne : cString digits.text ≠ [] := by
    rw [hchars, ne_eq, List.map_eq_nil_iff]
    exact digits.text_ne
  have hscan := CText.scanDecimal_digits hne hdigits
    (show ∀ c ∈ ([] : List Char).head?, c.isDigit = false by simp)
  rw [List.append_nil] at hscan
  rw [atol, hscan]
  rfl

theorem toInt_ofNat_min {n : Nat} (h : n < 2 ^ 31) :
    (BitVec.ofNat 32 (min n (2 ^ 63 - 1))).toInt = n := by
  rw [Nat.min_eq_left (by omega), BitVec.toInt_eq_toNat_bmod, BitVec.toNat_ofNat,
    Nat.mod_eq_of_lt (by omega)]
  exact Int.bmod_eq_of_le (by omega) (by omega)

theorem toInt_neg_ofNat_min {n : Nat} (h : n ≤ 2 ^ 31) :
    (-BitVec.ofNat 32 (min n (2 ^ 63 - 1))).toInt = -n := by
  rw [Nat.min_eq_left (by omega), BitVec.toInt_neg, BitVec.toInt_eq_toNat_bmod,
    BitVec.toNat_ofNat, Nat.mod_eq_of_lt (by omega), Int.bmod_neg_bmod]
  exact Int.bmod_eq_of_le (by omega) (by omega)

theorem toUInt32_ofNat_min {n : Nat} (h : n < 2 ^ 32) :
    UInt32.ofBitVec (BitVec.ofNat 32 (min n (2 ^ 63 - 1))) = UInt32.ofNat n := by
  rw [Nat.min_eq_left (by omega)]
  rfl

theorem hexDigit_lt {ch : UInt8} (h : isHex ch = true) : hexDigit ch < 16 := by
  simp only [isHex, isdigit, Bool.or_eq_true, decide_eq_true_eq, UInt8.le_iff_toNat_le] at h
  simp only [hexDigit, isdigit, decide_eq_true_eq, UInt8.le_iff_toNat_le]
  simp only [UInt8.reduceToNat] at h ⊢
  split_ifs <;> omega

theorem toBE_add_mul (width high low : Nat) :
    Memory.toBE width (high * 256 ^ width + low) = Memory.toBE width low := by
  induction width generalizing high with
  | zero => rfl
  | succ width ih =>
    have hsplit : high * 256 ^ (width + 1) + low = high * 256 * 256 ^ width + low := by
      rw [pow_succ]
      ring
    have hdigit : (high * 256 * 256 ^ width + low) / 256 ^ width =
        high * 256 + low / 256 ^ width := by
      rw [Nat.add_comm, Nat.add_mul_div_right _ _ (Nat.pow_pos (by decide)), Nat.add_comm]
    rw [Memory.toBE, Memory.toBE, hsplit, ih, hdigit]
    congr 1
    rw [← UInt8.toNat_inj, UInt8.toNat_ofNat', UInt8.toNat_ofNat']
    omega

theorem hexValue_foldl (text : List UInt8) (start : Nat) :
    text.foldl (fun value ch => value * 16 + hexDigit ch) start =
      start * 16 ^ text.length + hexValue text := by
  induction text generalizing start with
  | nil => simp [hexValue]
  | cons ch text ih =>
    simp only [List.foldl_cons, List.length_cons, hexValue, pow_succ]
    rw [ih (start * 16 + hexDigit ch), ih (0 * 16 + hexDigit ch)]
    simp only [hexValue]
    ring

theorem hexPairs_eq (count : Nat) : ∀ text : List UInt8, text.length = 2 * count →
    (∀ ch ∈ text, isHex ch = true) →
    hexPairs text = Memory.toBE count (hexValue text) ∧ hexValue text < 256 ^ count := by
  induction count with
  | zero =>
    intro text hlength hhex
    rw [List.length_eq_zero_iff.mp hlength]
    exact ⟨rfl, by decide⟩
  | succ count ih =>
    intro text hlength hhex
    obtain ⟨first, second, more, rfl⟩ : ∃ first second more, text = first :: second :: more := by
      match text, hlength with
      | first :: second :: more, _ => exact ⟨first, second, more, rfl⟩
    have hfirst := hhex first (by simp)
    have hsecond := hhex second (by simp)
    have hmoreLength : more.length = 2 * count := by
      simp only [List.length_cons] at hlength
      omega
    obtain ⟨hpairs, hlt⟩ := ih more hmoreLength fun ch hch => hhex ch (by simp [hch])
    have hpow : 16 ^ more.length = 256 ^ count := by
      rw [hmoreLength, pow_mul]
      norm_num
    have hvalue : hexValue (first :: second :: more) =
        (hexDigit first * 16 + hexDigit second) * 256 ^ count + hexValue more := by
      rw [hexValue, List.foldl_cons, List.foldl_cons, hexValue_foldl, hpow]
      ring
    have hoctet : scanHex (first :: second :: more) =
        UInt8.ofNat (hexDigit first * 16 + hexDigit second) := by
      simp [scanHex, hfirst, hsecond]
    have hquotient : ((hexDigit first * 16 + hexDigit second) * 256 ^ count + hexValue more) /
        256 ^ count = hexDigit first * 16 + hexDigit second := by
      rw [Nat.add_comm, Nat.add_mul_div_right _ _ (Nat.pow_pos (by decide)),
        Nat.div_eq_of_lt hlt, Nat.zero_add]
    constructor
    · rw [hexPairs, Memory.toBE, hvalue, hquotient, toBE_add_mul, hoctet, hpairs]
    · have hfirstLt := hexDigit_lt hfirst
      have hsecondLt := hexDigit_lt hsecond
      rw [hvalue, pow_succ]
      have hmul : (hexDigit first * 16 + hexDigit second + 1) * 256 ^ count ≤ 256 * 256 ^ count :=
        Nat.mul_le_mul_right _ (by omega)
      rw [Nat.add_mul, Nat.one_mul] at hmul
      omega

theorem parser_hex : LiteralReading.parser.hex = LiteralReading.denoted.hex := by
  funext digits
  change hexString digits.text = if digits.text.length % 2 = 0 then _ else _
  rw [hexString]
  by_cases heven : digits.text.length % 2 = 0
  · have hpairs := hexPairs_eq (digits.text.length / 2) digits.text (by omega) digits.all_kind
    rw [if_neg (not_not.mpr heven), if_pos heven, hpairs.1]
  · rw [if_pos heven, if_neg heven]

theorem denotedTime_eq_some_iff {text : List UInt8} {seconds : Int} :
    denotedTime text = some seconds ↔ DenotesTime ASN1_GENERALIZED_TIME text ∧
      (SecAbsoluteTimeFromDateContentWithError ASN1_GENERALIZED_TIME text).1 = seconds := by
  rw [denotedTime]
  split
  case isTrue h =>
    obtain ⟨time, zone, hdenotes, hvalid, hseconds⟩ := h.choose_spec
    rw [hdenotes.dateContent hvalid, ← hseconds, Option.some.injEq]
    exact ⟨fun heq => ⟨⟨time, zone, hdenotes, hvalid⟩, heq⟩, fun heq => heq.2⟩
  case isFalse h =>
    constructor
    · intro hsome
      cases hsome
    · intro hdenotes
      obtain ⟨⟨time, zone, htext, hvalid⟩, -⟩ := hdenotes
      exact absurd ⟨_, time, zone, htext, hvalid, rfl⟩ h
end RequirementParser
end SecurityFramework
