import SecurityFramework.Library.Words
import SecurityFramework.Trustd.NameConstraints
import SecurityFramework.Trustd.NormalizedName

/-! # Directory names within a subtree -/

namespace SecurityFramework.Trustd
open DER

def relativeDistinguishedName (content : DERItem) : DERItem :=
  element Standard.primitives ASN1_CONSTR_SET content

def RDNSequence (rdns : List DERItem) : DERItem := (rdns.map relativeDistinguishedName).flatten

def distinguishedName (rdns : List DERItem) : DERItem :=
  element Standard.primitives ASN1_CONSTR_SEQUENCE (RDNSequence rdns)

def DistinguishedNamesDecode (der : LibDER) : Prop :=
  ∀ rdns, der.decodeItem (distinguishedName rdns) = .ok ⟨ASN1_CONSTR_SEQUENCE, RDNSequence rdns, []⟩

theorem isElement_of_mem {rdns : List DERItem} {item : DERItem}
    (h : item ∈ rdns.map relativeDistinguishedName) : IsElement Standard.primitives item := by
  rcases List.mem_map.mp h with ⟨content, -, rfl⟩
  exact ⟨ASN1_CONSTR_SET, content, by decide, rfl⟩

theorem relativeDistinguishedName_injective : Function.Injective relativeDistinguishedName := by
  intro content content' heq
  exact (element_inj Standard.primitives_correct (by decide) (by decide) heq).2

/-- Octets of a name that begin with those of another one are relative distinguished names that do. -/
theorem RDNSequence_prefix_iff {rdns rdns' : List DERItem} :
    RDNSequence rdns <+: RDNSequence rdns' ↔ rdns <+: rdns' := by
  constructor
  · intro hprefix
    have hitems := flatten_elements_prefix Standard.primitives_correct
      (fun item hitem => isElement_of_mem hitem) (fun item hitem => isElement_of_mem hitem) hprefix
    exact (List.prefix_map_iff_of_injective relativeDistinguishedName_injective).mp hitems
  · rintro ⟨rest, rfl⟩
    rw [RDNSequence, RDNSequence, List.map_append, List.flatten_append]
    exact List.prefix_append _ _

theorem length_distinguishedName_lt_iff {rdns rdns' : List DERItem} :
    (distinguishedName rdns).length < (distinguishedName rdns').length ↔
      (RDNSequence rdns).length < (RDNSequence rdns').length := by
  rw [distinguishedName, distinguishedName, length_element, length_element, sizeof, sizeof]
  constructor
  · intro hlt
    by_contra hle
    have hlength := Standard.length_encodeLen_mono (not_lt.mp hle)
    change (Standard.encodeLen _).length ≤ (Standard.encodeLen _).length at hlength
    change _ + (Standard.encodeLen _).length + _ < _ + (Standard.encodeLen _).length + _ at hlt
    omega
  · intro hlt
    have hlength := Standard.length_encodeLen_mono hlt.le
    change _ + (Standard.encodeLen _).length + _ < _ + (Standard.encodeLen _).length + _
    omega

variable {der : LibDER}

/-- The comparison accepts the names that go on from the subtree, and no others. -/
theorem nc_compare_directoryNames_iff (hdecode : DistinguishedNamesDecode der)
    (name subtree : List DERItem) :
    nc_compare_directoryNames der (distinguishedName name) (distinguishedName subtree) = true ↔
      subtree <+: name ∧ name ≠ subtree := by
  have hprefix : (RDNSequence name ++ []).take (RDNSequence subtree).length =
      RDNSequence subtree ↔ subtree <+: name := by
    rw [List.append_nil, ← RDNSequence_prefix_iff, List.prefix_iff_eq_take, eq_comm]
  simp only [nc_compare_directoryNames, hdecode name, hdecode subtree, contentBeginsWith,
    Bool.and_eq_true, decide_eq_true_eq, hprefix, length_distinguishedName_lt_iff]
  rw [and_comm]
  refine and_congr_right fun hsubtree => ?_
  rcases hsubtree with ⟨rest, rfl⟩
  constructor
  · intro hlt heq
    rw [heq] at hlt
    exact absurd hlt (lt_irrefl _)
  · intro hne
    have hle := (RDNSequence_prefix_iff.mpr (List.prefix_append subtree rest)).length_le
    refine lt_of_le_of_ne hle fun hlength => hne ?_
    have hsame := (RDNSequence_prefix_iff.mpr (List.prefix_append subtree rest)).eq_of_length hlength
    have hback : subtree ++ rest <+: subtree :=
      RDNSequence_prefix_iff.mp (hsame ▸ List.prefix_refl _)
    exact hback.eq_of_length_le (by simp)

/-- The name is accepted just when the subtree's relative distinguished names begin it. -/
def WithinAsPrefix (der : LibDER) (name subtree : List DERItem) : Prop :=
  nc_compare_directoryNames der (distinguishedName name) (distinguishedName subtree) = true ↔
    subtree <+: name

/-- The comparison is right about all names but the subtree's own. -/
theorem withinAsPrefix_iff (hdecode : DistinguishedNamesDecode der) (name subtree : List DERItem) :
    WithinAsPrefix der name subtree ↔ name ≠ subtree := by
  rw [WithinAsPrefix, nc_compare_directoryNames_iff hdecode]
  constructor
  · rintro hiff rfl
    exact (hiff.mpr (List.prefix_refl _)).2 rfl
  · intro hne
    exact and_iff_left hne

theorem sample_decodeNames : DistinguishedNamesDecode LibDER.sample := by
  intro rdns
  have htag := decodeTag_element Standard.primitives_correct ASN1_CONSTR_SEQUENCE (by decide)
    (RDNSequence rdns) []
  have hlen := Standard.primitives_correct.decodeLen_encodeLen (RDNSequence rdns).length
    (RDNSequence rdns ++ []) (by simp)
  rw [List.append_nil] at htag
  change Standard.decodeTag (distinguishedName rdns) = _ at htag
  change Standard.decodeLen _ = _ at hlen
  change LibDER.toFallible (LibDER.readItem _) = _
  rw [LibDER.readItem, htag, Option.bind_some, hlen]
  simp [LibDER.toFallible]

def commonNameA : DERItem := [0x30, 0x08, 0x06, 0x03, 0x55, 0x04, 0x03, 0x0C, 0x01, 0x41]

theorem withinAsPrefix_country :
    WithinAsPrefix LibDER.sample [[0x30, 0x00], commonNameA] [[0x30, 0x00]] :=
  (withinAsPrefix_iff sample_decodeNames _ _).mpr (by decide)

/-- A name is not within the subtree of that name. -/
theorem not_within_itself : ¬ WithinAsPrefix LibDER.sample [commonNameA] [commonNameA] := by
  intro hwithin
  have haccepted := hwithin.mpr (List.prefix_refl _)
  exact ((nc_compare_directoryNames_iff sample_decodeNames _ _).mp haccepted).2 rfl
end SecurityFramework.Trustd

namespace SecurityFramework.Trustd
open DER

/-- An element, of any tag of one octet. -/
def item (tag : Tag) (content : DERItem) : DERItem := element Standard.primitives tag content

def itemsOf : List (Tag × DERItem) → List DERDecodedInfo
  | [] => []
  | (tag, content) :: later =>
    ⟨tag, content, (later.map fun e => item e.1 e.2).flatten⟩ :: itemsOf later

/-- The decoder reads elements with definite lengths that memory can hold, and writes such
lengths in the shortest way. An attribute is an object identifier before any item. -/
structure LibDER.DecodesElements (der : LibDER) : Prop where
  decodeItem_item : ∀ tag content, tag.number < 31 → content.length ≤ LONG_MAX →
    der.decodeItem (item tag content) = .ok ⟨tag, content, []⟩
  decodeSeqContent_items : ∀ elements : List (Tag × DERItem),
    (∀ e ∈ elements, e.1.number < 31) →
    (elements.map fun e => item e.1 e.2).flatten.length ≤ LONG_MAX →
    der.decodeSeqContent (elements.map fun e => item e.1 e.2).flatten =
      .ok ⟨itemsOf elements, .DR_EndOfSequence, by decide⟩
  parseAttributeTypeAndValue_item : ∀ type value decoded, der.decodeItem value = .ok decoded →
    decoded.rest = [] → (item ASN1_OBJECT_ID type ++ value).length ≤ LONG_MAX →
    der.parseAttributeTypeAndValue (item ASN1_OBJECT_ID type ++ value) = .ok ⟨type, value⟩
  encodeLength_eq : ∀ length, length ≤ LONG_MAX →
    der.encodeLength length = .ok (Standard.encodeLen length)

namespace LibDER
theorem readItem_item (tag : Tag) (ht : tag.number < 31) (content rest : DERItem) :
    readItem (item tag content ++ rest) = some ⟨tag, content, rest⟩ := by
  have htag := decodeTag_element Standard.primitives_correct tag ht content rest
  have hlen := Standard.primitives_correct.decodeLen_encodeLen content.length (content ++ rest)
    (by simp)
  change Standard.decodeTag (item tag content ++ rest) = _ at htag
  change Standard.decodeLen _ = _ at hlen
  rw [readItem, htag, Option.bind_some, hlen]
  simp

theorem readItems_items (elements : List (Tag × DERItem)) (ht : ∀ e ∈ elements, e.1.number < 31)
    {fuel : Nat} (hfuel : elements.length ≤ fuel) :
    readItems fuel (elements.map fun e => item e.1 e.2).flatten = (itemsOf elements, true) := by
  induction elements generalizing fuel with
  | nil => rw [List.map_nil, List.flatten_nil, readItems, itemsOf]
  | cons e elements ih =>
    cases fuel with
    | zero => exact absurd hfuel (Nat.not_succ_le_zero _)
    | succ fuel =>
      have hread := readItem_item e.1 (ht e List.mem_cons_self) e.2
        (elements.map fun e => item e.1 e.2).flatten
      have hmore := ih (fun e he => ht e (List.mem_cons_of_mem _ he)) (Nat.le_of_succ_le_succ hfuel)
      rw [List.map_cons, List.flatten_cons]
      obtain ⟨octet, octets, hcons⟩ : ∃ octet octets, item e.1 e.2 ++
          (elements.map fun e => item e.1 e.2).flatten = octet :: octets := ⟨_, _, rfl⟩
      rw [hcons] at hread ⊢
      rw [readItems, hread]
      simp only [hmore, itemsOf]

theorem length_le_length_items (elements : List (Tag × DERItem)) :
    elements.length ≤ (elements.map fun e => item e.1 e.2).flatten.length := by
  induction elements with
  | nil => exact Nat.le_refl _
  | cons e elements ih =>
    have hitem : (item e.1 e.2).length = _ := length_element Standard.primitives e.1 e.2
    rw [List.map_cons, List.flatten_cons, List.length_cons, List.length_append, hitem, sizeof]
    change elements.length + 1 ≤ 1 + _ + _ + _
    omega

theorem readItem_of_decodeItem {octets : DERItem} {decoded : DERDecodedInfo}
    (h : sample.decodeItem octets = .ok decoded) : readItem octets = some decoded := by
  change toFallible (readItem octets) = _ at h
  cases hread : readItem octets with
  | none => simp [hread, toFallible] at h
  | some found =>
    simp only [hread, toFallible, Except.ok.injEq] at h
    rw [h]

theorem readWhole_attribute {type value : DERItem} {decoded : DERDecodedInfo}
    (hread : readItem value = some decoded) (hwhole : decoded.rest = []) :
    readWhole (item ASN1_OBJECT_ID type ++ value) =
      some [⟨ASN1_OBJECT_ID, type, value⟩, decoded] := by
  obtain ⟨octet, octets, rfl⟩ : ∃ octet octets, value = octet :: octets := by
    cases value with
    | nil => cases hread
    | cons octet octets => exact ⟨octet, octets, rfl⟩
  have hfirst := readItem_item ASN1_OBJECT_ID (by decide) type (octet :: octets)
  obtain ⟨first, later, hcons⟩ : ∃ first later, item ASN1_OBJECT_ID type ++ (octet :: octets) =
      first :: later := ⟨_, _, rfl⟩
  have hlength : 2 ≤ (first :: later).length := by
    rw [← hcons]
    change 2 ≤ (_ :: (_ ++ (octet :: octets))).length
    simp only [List.length_cons, List.length_append]
    omega
  rw [hcons] at hfirst ⊢
  obtain ⟨fuel, hfuel⟩ := Nat.exists_eq_add_of_le' hlength
  have hitems : readItems (first :: later).length (first :: later) =
      ([⟨ASN1_OBJECT_ID, type, octet :: octets⟩, decoded], true) := by
    rw [hfuel, readItems, hfirst]
    simp only [readItems, hread, hwhole]
  rw [readWhole, hitems]
  rfl

theorem sample_decodesElements : sample.DecodesElements where
  decodeItem_item tag content ht _ := by
    have hread := readItem_item tag ht content []
    rw [List.append_nil] at hread
    change toFallible (readItem _) = _
    rw [hread]
    rfl
  decodeSeqContent_items elements ht _ := by
    have hitems := readItems_items elements ht (length_le_length_items elements)
    change Except.ok (readSequence _) = _
    simp only [readSequence, hitems, if_true]
  parseAttributeTypeAndValue_item type value decoded hdecode hwhole _ := by
    change toFallible (readAttributeTypeAndValue _) = _
    rw [readAttributeTypeAndValue, readWhole_attribute (readItem_of_decodeItem hdecode) hwhole]
    rfl
  encodeLength_eq _ _ := rfl
end LibDER

structure OtherValue (der : LibDER) where
  octets : DERItem
  decoded : DERDecodedInfo
  decodes : der.decodeItem octets = .ok decoded
  whole : decoded.rest = []
  other : decoded.tag ≠ ASN1_PRINTABLE_STRING

inductive AttributeValue (der : LibDER)
  | printableString (content : DERItem)
  | other (value : OtherValue der)

structure Attribute (der : LibDER) where
  type : DERItem
  type_ne : type ≠ []
  value : AttributeValue der

structure RelativeName (der : LibDER) where
  attributes : List (Attribute der)
  attributes_ne : attributes ≠ []

abbrev X501Name (der : LibDER) := List (RelativeName der)

variable {der : LibDER}

def AttributeValue.octets : AttributeValue der → DERItem
  | .printableString content => item ASN1_PRINTABLE_STRING content
  | .other value => value.octets

def Attribute.content (atv : Attribute der) : DERItem :=
  item ASN1_OBJECT_ID atv.type ++ atv.value.octets

def Attribute.octets (atv : Attribute der) : DERItem :=
  item ASN1_CONSTR_SEQUENCE atv.content

def RelativeName.content (rdn : RelativeName der) : DERItem :=
  (rdn.attributes.map Attribute.octets).flatten

def X501Name.octets (name : X501Name der) : DERItem :=
  RDNSequence (name.map RelativeName.content)

/-- In upper case, without blanks around it and with one space for each run of them. -/
def tidyPrintable (content : DERItem) : DERItem := Words.tidy isblank 0x20 upperCase content

def AttributeValue.normalize : AttributeValue der → AttributeValue der
  | .printableString content => .printableString (tidyPrintable content)
  | .other value => .other value

def Attribute.normalize (atv : Attribute der) : Attribute der :=
  { atv with value := atv.value.normalize }

def RelativeName.normalize (rdn : RelativeName der) : RelativeName der where
  attributes := rdn.attributes.map Attribute.normalize
  attributes_ne := by simp [rdn.attributes_ne]

def X501Name.normalize (name : X501Name der) : X501Name der := name.map RelativeName.normalize

theorem isblank_iff {ch : UInt8} : isblank ch = true ↔ ch.toNat = 32 ∨ ch.toNat = 9 := by
  simp [isblank, ← UInt8.toNat_inj]

theorem toNat_upperCase (ch : UInt8) :
    (upperCase ch).toNat = if 97 ≤ ch.toNat ∧ ch.toNat ≤ 122 then ch.toNat - 32 else ch.toNat := by
  simp only [upperCase, UInt8.le_iff_toNat_le]
  split
  case isTrue hlower =>
    have hnat : 97 ≤ ch.toNat ∧ ch.toNat ≤ 122 := hlower
    rw [if_pos hnat, UInt8.toNat_sub, UInt8.toNat_add]
    simp only [UInt8.reduceToNat]
    omega
  case isFalse hother =>
    have hnat : ¬ (97 ≤ ch.toNat ∧ ch.toNat ≤ 122) := hother
    rw [if_neg hnat]

theorem isblank_upperCase (ch : UInt8) : isblank (upperCase ch) = isblank ch := by
  rw [Bool.eq_iff_iff, isblank_iff, isblank_iff, toNat_upperCase]
  split <;> omega

theorem upperCase_upperCase (ch : UInt8) : upperCase (upperCase ch) = upperCase ch := by
  rw [← UInt8.toNat_inj, toNat_upperCase, toNat_upperCase]
  split_ifs <;> omega

theorem tidyPrintable_tidyPrintable (content : DERItem) :
    tidyPrintable (tidyPrintable content) = tidyPrintable content :=
  Words.tidy_tidy rfl isblank_upperCase upperCase_upperCase content

theorem length_tidyPrintable_le (content : DERItem) :
    (tidyPrintable content).length ≤ content.length :=
  Words.length_tidy_le content

theorem Attribute.normalize_normalize (atv : Attribute der) :
    atv.normalize.normalize = atv.normalize := by
  rcases atv with ⟨type, htype, value⟩
  cases value with
  | printableString content =>
    simp only [Attribute.normalize, AttributeValue.normalize, tidyPrintable_tidyPrintable]
  | other value => rfl

theorem RelativeName.normalize_normalize (rdn : RelativeName der) :
    rdn.normalize.normalize = rdn.normalize := by
  simp [RelativeName.normalize, Attribute.normalize_normalize]

theorem X501Name.normalize_normalize (name : X501Name der) :
    name.normalize.normalize = name.normalize := by
  simp [X501Name.normalize, RelativeName.normalize_normalize]

theorem length_item (tag : Tag) (content : DERItem) :
    (item tag content).length = 1 + (Standard.encodeLen content.length).length + content.length :=
  length_element Standard.primitives tag content

theorem length_item_le (tag : Tag) {content content' : DERItem}
    (h : content.length ≤ content'.length) :
    (item tag content).length ≤ (item tag content').length := by
  have hlen := Standard.length_encodeLen_mono h
  rw [length_item, length_item]
  omega

theorem AttributeValue.length_octets_normalize_le (value : AttributeValue der) :
    value.normalize.octets.length ≤ value.octets.length := by
  cases value with
  | printableString content => exact length_item_le _ (length_tidyPrintable_le content)
  | other value => exact Nat.le_refl _

theorem Attribute.length_content_normalize_le (atv : Attribute der) :
    atv.normalize.content.length ≤ atv.content.length := by
  have hvalue := atv.value.length_octets_normalize_le
  simp only [Attribute.content, List.length_append]
  exact Nat.add_le_add_left hvalue _

theorem Attribute.length_octets_normalize_le (atv : Attribute der) :
    atv.normalize.octets.length ≤ atv.octets.length :=
  length_item_le _ atv.length_content_normalize_le

theorem RelativeName.length_content_normalize_le (rdn : RelativeName der) :
    rdn.normalize.content.length ≤ rdn.content.length := by
  obtain ⟨atvs, hne⟩ := rdn
  change ((atvs.map Attribute.normalize).map Attribute.octets).flatten.length ≤
    (atvs.map Attribute.octets).flatten.length
  clear hne
  induction atvs with
  | nil => exact Nat.le_refl _
  | cons atv atvs ih =>
    simp only [List.map_cons, List.flatten_cons, List.length_append]
    exact Nat.add_le_add atv.length_octets_normalize_le ih

theorem X501Name.length_octets_normalize_le (name : X501Name der) :
    name.normalize.octets.length ≤ name.octets.length := by
  rw [X501Name.octets, X501Name.octets, X501Name.normalize]
  induction name with
  | nil => exact Nat.le_refl _
  | cons rdn name ih =>
    have hrdn := length_item_le ASN1_CONSTR_SET rdn.length_content_normalize_le
    simp only [RDNSequence, List.map_cons, List.flatten_cons, List.length_append]
    exact Nat.add_le_add hrdn ih
end SecurityFramework.Trustd
