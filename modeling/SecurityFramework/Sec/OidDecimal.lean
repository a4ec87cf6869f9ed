import SecurityFramework.CdsaUtilities.OidText
import Mathlib.Data.List.DropRight

/-! # Object identifiers in decimal -/

namespace SecurityFramework.Sec
open Oid (dottedArcs)

inductive OidDescription where
  | null
  | tooLong
  | decimal (text : List Char)
  deriving DecidableEq

def maxOidSize : Nat := 32

def appendArcs (value : BitVec 32) : List UInt8 → List Char
  | [] => []
  | octet :: octets =>
    let value := value <<< 7 ||| (octet &&& 0x7F).toBitVec.setWidth 32
    if octet &&& 0x80 = 0 then '.' :: Nat.toDigits 10 value.toNat ++ appendArcs 0 octets
    else appendArcs value octets

def SecDERItemCopyOIDDecimalRepresentation (oid : List UInt8) : OidDescription :=
  match oid with
  | [] => .null
  | first :: octets =>
    if oid.length > maxOidSize then .tooLong
    else
      let x := first.toNat / 40
      let y := first.toNat % 40
      let (x, y) := if x > 2 then (2, y + (x - 2) * 40) else (x, y)
      .decimal (Nat.toDigits 10 x ++ '.' :: Nat.toDigits 10 y ++ appendArcs 0 octets)

/-- The numbers that end in the octets, the first one behind what `value` was read from. -/
def subidentifiers (value : Nat) : List UInt8 → List Nat
  | [] => []
  | octet :: octets =>
    let value := value * 128 + octet.toNat % 128
    if octet.toNat < 128 then value :: subidentifiers 0 octets else subidentifiers value octets

/-- The first two arcs share a number. -/
def dottedForm : List Nat → List Char
  | [] => []
  | number :: arcs =>
    let first := min (number / 40) 2
    Nat.toDigits 10 first ++ dottedArcs ((number - 40 * first) :: arcs)

def Complete (content : List UInt8) : Prop := ∀ last ∈ content.getLast?, last.toNat < 128

/-- The text is the dotted form of complete content, and none of an identifier that incomplete
content begins with. -/
def DescribedExactly (content : List UInt8) : Prop :=
  (Complete content → SecDERItemCopyOIDDecimalRepresentation content =
    .decimal (dottedForm (subidentifiers 0 content))) ∧
  (¬ Complete content → ∀ shorter, shorter <+: content → shorter ≠ [] → Complete shorter →
    SecDERItemCopyOIDDecimalRepresentation content ≠
      .decimal (dottedForm (subidentifiers 0 shorter)))

/-- Each content is described exactly, so that no two identifiers have one text. -/
def DescribesIdentifiers (contents : Set (List UInt8)) : Prop :=
  (∀ content ∈ contents, DescribedExactly content) ∧
    ∀ content ∈ contents, ∀ content' ∈ contents, Complete content → Complete content' →
      SecDERItemCopyOIDDecimalRepresentation content =
        SecDERItemCopyOIDDecimalRepresentation content' →
      subidentifiers 0 content = subidentifiers 0 content'

def ShortArcs (content : List UInt8) : Prop :=
  (∀ first ∈ content.head?, first.toNat < 128) ∧ ∀ arc ∈ subidentifiers 0 content, arc < 2 ^ 32

theorem toNat_shifted (value : BitVec 32) (octet : UInt8) :
    (value <<< 7 ||| (octet &&& 0x7F).toBitVec.setWidth 32).toNat =
      (value.toNat * 128 + octet.toNat % 128) % 2 ^ 32 := by
  have hlow : ((octet &&& 0x7F).toBitVec.setWidth 32).toNat = octet.toNat % 128 := by
    rw [BitVec.toNat_setWidth, UInt8.toNat_toBitVec, CssmData.low_bits]
    omega
  have hshift : (value <<< 7).toNat = (value.toNat % 2 ^ 25) <<< 7 := by
    rw [BitVec.toNat_shiftLeft, Nat.shiftLeft_eq, Nat.shiftLeft_eq]
    omega
  have hlt : octet.toNat % 128 < 2 ^ 7 := Nat.mod_lt _ (by decide)
  rw [BitVec.toNat_or, hshift, hlow, ← Nat.shiftLeft_add_eq_or_of_lt hlt, Nat.shiftLeft_eq]
  omega

theorem appendArcs_eq (octets : List UInt8) (value : BitVec 32) (number : Nat)
    (hvalue : value.toNat = number % 2 ^ 32) :
    appendArcs value octets =
      dottedArcs ((subidentifiers number octets).map fun arc => arc % 2 ^ 32) := by
  induction octets generalizing value number with
  | nil => rfl
  | cons octet octets ih =>
    have hend : octet &&& 0x80 = 0 ↔ octet.toNat < 128 := by
      rw [← Nat.not_le, ← CssmData.high_bit_iff, not_not]
    have hshifted : (value <<< 7 ||| (octet &&& 0x7F).toBitVec.setWidth 32).toNat =
        (number * 128 + octet.toNat % 128) % 2 ^ 32 := by
      rw [toNat_shifted, hvalue]
      omega
    rw [appendArcs, subidentifiers]
    by_cases hlast : octet.toNat < 128
    · rw [if_pos (hend.mpr hlast), if_pos hlast, hshifted, ih 0 0 rfl]
      rfl
    · rw [if_neg (mt hend.mp hlast), if_neg hlast]
      exact ih _ _ hshifted

theorem description_eq {first : UInt8} {octets : List UInt8}
    (hlength : (first :: octets).length ≤ maxOidSize) :
    SecDERItemCopyOIDDecimalRepresentation (first :: octets) =
      .decimal (dottedForm
        (first.toNat :: (subidentifiers 0 octets).map fun arc => arc % 2 ^ 32)) := by
  have harcs := appendArcs_eq octets 0 0 rfl
  rw [SecDERItemCopyOIDDecimalRepresentation, if_neg (Nat.not_lt.mpr hlength), harcs, dottedForm]
  by_cases hlarge : first.toNat / 40 > 2
  · have hfirst : min (first.toNat / 40) 2 = 2 := by omega
    have hsecond : first.toNat % 40 + (first.toNat / 40 - 2) * 40 = first.toNat - 40 * 2 := by
      omega
    simp only [hlarge, if_true, hfirst, hsecond, dottedArcs, List.flatMap_cons, List.cons_append,
      List.append_assoc]
  · have hfirst : min (first.toNat / 40) 2 = first.toNat / 40 := by omega
    have hsecond : first.toNat % 40 = first.toNat - 40 * (first.toNat / 40) := by omega
    simp only [hlarge, if_false, hfirst, hsecond, dottedArcs, List.flatMap_cons, List.cons_append,
      List.append_assoc]

theorem takeWhile_decimal (number : Nat) (arcs : List Nat) :
    (Nat.toDigits 10 number ++ dottedArcs arcs).takeWhile Char.isDigit = Nat.toDigits 10 number ∧
      (Nat.toDigits 10 number ++ dottedArcs arcs).dropWhile Char.isDigit = dottedArcs arcs := by
  have hdigits : ∀ c ∈ Nat.toDigits 10 number, c.isDigit = true :=
    fun _ => Nat.isDigit_of_mem_toDigits (by decide) (by decide)
  rw [List.takeWhile_append_of_pos hdigits, List.dropWhile_append_of_pos hdigits]
  cases arcs <;> simp [dottedArcs]

theorem decimal_append_inj {number number' : Nat} {arcs arcs' : List Nat}
    (heq : Nat.toDigits 10 number ++ dottedArcs arcs =
      Nat.toDigits 10 number' ++ dottedArcs arcs') :
    number = number' ∧ dottedArcs arcs = dottedArcs arcs' := by
  obtain ⟨hdigits, hrest⟩ := takeWhile_decimal number arcs
  rw [heq, (takeWhile_decimal number' arcs').1] at hdigits
  rw [heq, (takeWhile_decimal number' arcs').2] at hrest
  have hnumber := congrArg (fun digits => Nat.ofDigitChars 10 digits 0) hdigits
  simp only [Nat.ofDigitChars_ten_toDigits] at hnumber
  exact ⟨hnumber.symm, hrest.symm⟩

theorem dottedArcs_injective : Function.Injective dottedArcs := by
  intro arcs
  induction arcs with
  | nil =>
    intro arcs' heq
    cases arcs' with
    | nil => rfl
    | cons arc' arcs' => cases heq
  | cons arc arcs ih =>
    intro arcs' heq
    cases arcs' with
    | nil => cases heq
    | cons arc' arcs' =>
      obtain ⟨rfl, hrest⟩ := decimal_append_inj (List.cons.inj heq).2
      rw [ih hrest]

theorem dottedForm_inj {numbers numbers' : List Nat} (hne : numbers ≠ [])
    (heq : dottedForm numbers = dottedForm numbers') : numbers = numbers' := by
  cases numbers with
  | nil => exact absurd rfl hne
  | cons number arcs =>
    cases numbers' with
    | nil => simp [dottedForm] at heq
    | cons number' arcs' =>
      obtain ⟨hfirst, hrest⟩ := decimal_append_inj heq
      obtain ⟨hsecond, rfl⟩ := List.cons.inj (dottedArcs_injective hrest)
      have hnumber : number = number' := by omega
      rw [hnumber]

theorem length_subidentifiers (value : Nat) (octets : List UInt8) :
    (subidentifiers value octets).length = octets.countP fun octet => octet.toNat < 128 := by
  induction octets generalizing value with
  | nil => rfl
  | cons octet octets ih =>
    rw [subidentifiers]
    by_cases hlast : octet.toNat < 128
    · simp [hlast, ih]
    · simp [hlast, ih]

theorem subidentifiers_isPrefix (value : Nat) {octets octets' : List UInt8}
    (hinitial : octets <+: octets') :
    subidentifiers value octets <+: subidentifiers value octets' := by
  obtain ⟨rest, rfl⟩ := hinitial
  induction octets generalizing value with
  | nil => exact List.nil_prefix
  | cons octet octets ih =>
    rw [List.cons_append, subidentifiers, subidentifiers]
    by_cases hlast : octet.toNat < 128
    · simpa [hlast] using ih 0
    · simpa [hlast] using ih _

theorem subidentifiers_append (value : Nat) (octets : List UInt8) {open_ : List UInt8}
    (hopen : CssmData.Continues open_) :
    subidentifiers value (octets ++ open_) = subidentifiers value octets := by
  induction octets generalizing value with
  | nil =>
    apply List.length_eq_zero_iff.mp
    rw [List.nil_append, length_subidentifiers, List.countP_eq_zero]
    intro octet hoctet
    simpa using hopen octet hoctet
  | cons octet octets ih =>
    rw [List.cons_append, subidentifiers, subidentifiers, ih, ih]

theorem exists_complete_prefix {content : List UInt8}
    (hsome : ∃ octet ∈ content, octet.toNat < 128) :
    ∃ shorter, shorter <+: content ∧ shorter ≠ [] ∧ Complete shorter ∧
      subidentifiers 0 shorter = subidentifiers 0 content := by
  let continues : UInt8 → Bool := fun octet => 128 ≤ octet.toNat
  have hne : content.rdropWhile continues ≠ [] := by
    obtain ⟨octet, hoctet, hlow⟩ := hsome
    intro hnil
    have hall := List.rdropWhile_eq_nil_iff.mp hnil octet hoctet
    exact absurd (of_decide_eq_true hall) (Nat.not_le.mpr hlow)
  refine ⟨_, List.rdropWhile_prefix continues content, hne, ?_, ?_⟩
  · intro last hlast
    have hend := List.rdropWhile_last_not continues content hne
    rw [List.getLast?_eq_some_getLast hne] at hlast
    cases hlast
    simpa [continues] using hend
  · have hopen : CssmData.Continues (content.rtakeWhile continues) := by
      intro octet hoctet
      have hlarge : continues octet = true := List.mem_rtakeWhile_imp hoctet
      exact of_decide_eq_true hlarge
    have happend := subidentifiers_append 0 (content.rdropWhile continues) hopen
    rwa [List.rdropWhile_append_rtakeWhile, eq_comm] at happend

def describedNumbers : List UInt8 → List Nat
  | [] => []
  | first :: octets => first.toNat :: (subidentifiers 0 octets).map fun arc => arc % 2 ^ 32

variable {content shorter : List UInt8}

theorem describedNumbers_of_shortArcs (hshort : ShortArcs content) :
    describedNumbers content = subidentifiers 0 content := by
  cases content with
  | nil => rfl
  | cons first octets =>
    have hfirst := hshort.1 first rfl
    have harcs := hshort.2
    rw [subidentifiers, if_pos hfirst] at harcs ⊢
    have hmap : (subidentifiers 0 octets).map (fun arc => arc % 2 ^ 32) =
        subidentifiers 0 octets := by
      rw [List.map_congr_left (g := id), List.map_id]
      intro arc harc
      exact Nat.mod_eq_of_lt (harcs arc (List.mem_cons_of_mem _ harc))
    rw [describedNumbers, hmap, Nat.mod_eq_of_lt hfirst, Nat.zero_mul, Nat.zero_add]

/-- Only from short arcs comes the text of what the content begins with. -/
theorem shortArcs_of_describedNumbers (hne : content ≠ []) (hinitial : shorter <+: content)
    (hnumbers : describedNumbers content = subidentifiers 0 shorter) : ShortArcs content := by
  cases content with
  | nil => exact absurd rfl hne
  | cons first octets =>
    have hbegins := subidentifiers_isPrefix 0 hinitial
    have hlength := congrArg List.length hnumbers
    rw [describedNumbers, List.length_cons, List.length_map, length_subidentifiers] at hlength
    have hle := hbegins.length_le
    rw [length_subidentifiers 0 (first :: octets), List.countP_cons] at hle
    have hfirst : first.toNat < 128 := by
      by_contra hlarge
      simp [hlarge] at hle
      omega
    have hsame : describedNumbers (first :: octets) = subidentifiers 0 (first :: octets) := by
      rw [hnumbers]
      apply hbegins.eq_of_length_le
      rw [length_subidentifiers, List.countP_cons, ← hlength]
      simp [hfirst]
    refine ⟨?_, ?_⟩
    · intro octet hoctet
      cases hoctet
      exact hfirst
    · intro arc harc
      rw [← hsame, describedNumbers, List.mem_cons, List.mem_map] at harc
      obtain rfl | ⟨number, -, rfl⟩ := harc
      · omega
      · exact Nat.mod_lt _ (by decide)

theorem description_eq_iff (hne : content ≠ []) (hlength : content.length ≤ maxOidSize)
    (numbers : List Nat) :
    SecDERItemCopyOIDDecimalRepresentation content = .decimal (dottedForm numbers) ↔
      describedNumbers content = numbers := by
  cases content with
  | nil => exact absurd rfl hne
  | cons first octets =>
    rw [description_eq hlength, OidDescription.decimal.injEq]
    constructor
    · exact dottedForm_inj (List.cons_ne_nil _ _)
    · rintro rfl
      rfl

theorem describedExactly_iff (hne : content ≠ []) (hlength : content.length ≤ maxOidSize) :
    DescribedExactly content ↔ (Complete content ↔ ShortArcs content) := by
  rw [DescribedExactly]
  simp only [ne_eq, description_eq_iff hne hlength]
  by_cases hcomplete : Complete content
  · simp only [hcomplete, true_iff, forall_true_left, not_true_eq_false, false_implies, and_true]
    exact ⟨shortArcs_of_describedNumbers hne List.prefix_rfl, describedNumbers_of_shortArcs⟩
  · simp only [hcomplete, false_iff, false_implies, not_false_eq_true, forall_true_left, true_and]
    constructor
    · intro hother hshort
      obtain ⟨first, octets, rfl⟩ := List.exists_cons_of_ne_nil hne
      obtain ⟨shorter, hinitial, hsome, hend, hsame⟩ :=
        exists_complete_prefix ⟨first, List.mem_cons_self, hshort.1 first rfl⟩
      apply hother shorter hinitial hsome hend
      rw [hsame, describedNumbers_of_shortArcs hshort]
    · intro hlong shorter hinitial _ _ hnumbers
      exact hlong (shortArcs_of_describedNumbers hne hinitial hnumbers)

/-- Object identifiers are described exactly as long as the first number is one octet and no number
has more than 32 bits; content that ends inside of a number is given away by a number that is too
long alone. -/
theorem describesIdentifiers_iff (contents : Set (List UInt8))
    (hlength : ∀ content ∈ contents, content ≠ [] ∧ content.length ≤ maxOidSize) :
    DescribesIdentifiers contents ↔
      ∀ content ∈ contents, (Complete content ↔ ShortArcs content) := by
  constructor
  · rintro ⟨hexact, -⟩ content hcontent
    obtain ⟨hne, hle⟩ := hlength content hcontent
    exact (describedExactly_iff hne hle).mp (hexact content hcontent)
  · intro hshort
    have hexact : ∀ content ∈ contents, DescribedExactly content := by
      intro content hcontent
      obtain ⟨hne, hle⟩ := hlength content hcontent
      exact (describedExactly_iff hne hle).mpr (hshort content hcontent)
    refine ⟨hexact, ?_⟩
    intro content hcontent content' hcontent' hcomplete hcomplete' hsame
    obtain ⟨hne, hle⟩ := hlength content hcontent
    have hnumbers := describedNumbers_of_shortArcs ((hshort content hcontent).mp hcomplete)
    rw [(hexact content' hcontent').1 hcomplete', description_eq_iff hne hle] at hsame
    rw [← hnumbers, hsame]

/-- 1.2.840. -/
theorem describesIdentifiers_iff_sample : DescribesIdentifiers {[0x2A, 0x86, 0x48]} := by
  refine (describesIdentifiers_iff _ ?_).mpr ?_
  · rintro content rfl
    decide
  · rintro content rfl
    exact iff_of_true (by simp [Complete]) (by simp [ShortArcs, subidentifiers])

/-- What should be 2.999, and content that ends inside of an arc. -/
theorem describesIdentifiers_false :
    SecDERItemCopyOIDDecimalRepresentation [0x88, 0x37] = .decimal "2.56.55".toList ∧
      ¬ DescribesIdentifiers {[0x88, 0x37]} ∧
      SecDERItemCopyOIDDecimalRepresentation [0x2A, 0x86] = .decimal "1.2".toList ∧
      ¬ DescribesIdentifiers {[0x2A, 0x86]} := by
  refine ⟨by decide +kernel, ?_, by decide +kernel, ?_⟩
  · intro hdescribes
    have hexact := (describedExactly_iff (by decide) (by decide)).mp (hdescribes.1 _ rfl)
    have hshort := hexact.mp (by simp [Complete])
    exact absurd (hshort.1 0x88 rfl) (by decide)
  · intro hdescribes
    have hexact := (describedExactly_iff (by decide) (by decide)).mp (hdescribes.1 _ rfl)
    have hcomplete := hexact.mpr (by simp [ShortArcs, subidentifiers])
    simp [Complete] at hcomplete
end SecurityFramework.Sec
