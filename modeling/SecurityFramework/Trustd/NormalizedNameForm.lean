import SecurityFramework.Trustd.NormalizedNameCopy

/-! # What a normalised name is -/

namespace SecurityFramework.Trustd
open DER Abort

variable {der : LibDER}

theorem copyNormalizedSequence_eq (hder : der.DecodesElements) (name : X501Name der)
    (hmax : (item ASN1_CONSTR_SEQUENCE name.octets).length ≤ LONG_MAX) :
    SecDistinguishedNameCopyNormalizedSequence der (item ASN1_CONSTR_SEQUENCE name.octets) =
      .ok (item ASN1_CONSTR_SEQUENCE name.normalize.octets) := by
  have hlength := length_item ASN1_CONSTR_SEQUENCE name.octets
  have hnormal := length_item ASN1_CONSTR_SEQUENCE name.normalize.octets
  have hshorter := length_item_le ASN1_CONSTR_SEQUENCE name.length_octets_normalize_le
  have hdecode := hder.decodeItem_item ASN1_CONSTR_SEQUENCE name.octets (by decide) (by omega)
  have hcreate := createNormalizedX501Name_eq hder name (by omega)
  have hsequence : SecDERItemCopySequence der name.normalize.octets =
      some (item ASN1_CONSTR_SEQUENCE name.normalize.octets) := by
    rw [SecDERItemCopySequence, hder.encodeLength_eq _ (by omega)]
    dsimp only
    rw [if_neg (by omega)]
    rfl
  rw [SecDistinguishedNameCopyNormalizedSequence, SecDistinguishedNameCopyNormalizedContent, hdecode,
    noErr_ok, ok_bind, require_of rfl, ok_bind, hcreate, ok_bind, hsequence]
  rfl

/-- The attributes are in the order of a SET OF, which is that of their octets. -/
def RelativeName.InOrder (rdn : RelativeName der) : Prop :=
  (rdn.attributes.map Attribute.octets).Pairwise (· ≤ ·)

def X501Name.InOrder (name : X501Name der) : Prop := ∀ rdn ∈ name, rdn.InOrder

def IsOrderedName (der : LibDER) (octets : DERItem) : Prop :=
  ∃ name : X501Name der, name.octets = octets ∧ name.InOrder

theorem flatten_attributes_injective {rdn rdn' : RelativeName der}
    (h : rdn.content = rdn'.content) :
    rdn.attributes.map Attribute.octets = rdn'.attributes.map Attribute.octets := by
  have helement : ∀ (rdn : RelativeName der), ∀ octets ∈ rdn.attributes.map Attribute.octets,
      IsElement Standard.primitives octets := by
    intro rdn octets hoctets
    obtain ⟨atv, -, rfl⟩ := List.mem_map.mp hoctets
    exact ⟨ASN1_CONSTR_SEQUENCE, atv.content, by decide, rfl⟩
  exact flatten_elements_inj Standard.primitives_correct (helement rdn) (helement rdn') h

theorem X501Name.InOrder.of_octets_eq {name name' : X501Name der} (h : name.InOrder)
    (hoctets : name.octets = name'.octets) : name'.InOrder := by
  have hcontents : name.map RelativeName.content = name'.map RelativeName.content := by
    refine relativeDistinguishedName_injective.list_map ?_
    exact flatten_elements_inj Standard.primitives_correct (fun _ hitem => isElement_of_mem hitem)
      (fun _ hitem => isElement_of_mem hitem) hoctets
  intro rdn' hrdn'
  have hmem : rdn'.content ∈ name.map RelativeName.content := by
    rw [hcontents]
    exact List.mem_map_of_mem hrdn'
  obtain ⟨rdn, hrdn, hcontent⟩ := List.mem_map.mp hmem
  have hsorted := h rdn hrdn
  rw [RelativeName.InOrder, flatten_attributes_injective hcontent] at hsorted
  exact hsorted

/-- The result for a name is its normal form: the same relative names and attributes, where each
PrintableString is tidy. Its own result is itself, and it is not longer than the name. -/
theorem createNormalizedX501Name_form (hder : der.DecodesElements) (name : X501Name der)
    (hmax : name.octets.length < LONG_MAX) :
    createNormalizedX501Name der name.octets = .ok name.normalize.octets ∧
      createNormalizedX501Name der name.normalize.octets = .ok name.normalize.octets ∧
      name.normalize.octets.length ≤ name.octets.length ∧
      ((item ASN1_CONSTR_SEQUENCE name.octets).length ≤ LONG_MAX →
        SecDistinguishedNameCopyNormalizedSequence der (item ASN1_CONSTR_SEQUENCE name.octets) =
          .ok (item ASN1_CONSTR_SEQUENCE name.normalize.octets)) := by
  have hshorter := name.length_octets_normalize_le
  have hnormal := createNormalizedX501Name_eq hder name.normalize (by omega)
  rw [name.normalize_normalize] at hnormal
  exact ⟨createNormalizedX501Name_eq hder name hmax, hnormal, hshorter,
    copyNormalizedSequence_eq hder name⟩

def organizationalUnit (der : LibDER) (text : DERItem) : Attribute der where
  type := [0x55, 0x04, 0x0B]
  type_ne := by decide
  value := .printableString text

def unitsName (der : LibDER) : X501Name der :=
  [⟨[organizationalUnit der [0x43], organizationalUnit der [0x62]], by simp⟩]

theorem createNormalizedX501Name_units :
    createNormalizedX501Name LibDER.sample (unitsName LibDER.sample).octets =
        .ok (unitsName LibDER.sample).normalize.octets ∧
      createNormalizedX501Name LibDER.sample (unitsName LibDER.sample).normalize.octets =
        .ok (unitsName LibDER.sample).normalize.octets ∧
      (unitsName LibDER.sample).normalize.octets.length ≤
        (unitsName LibDER.sample).octets.length ∧
      ((item ASN1_CONSTR_SEQUENCE (unitsName LibDER.sample).octets).length ≤ LONG_MAX →
        SecDistinguishedNameCopyNormalizedSequence LibDER.sample
            (item ASN1_CONSTR_SEQUENCE (unitsName LibDER.sample).octets) =
          .ok (item ASN1_CONSTR_SEQUENCE (unitsName LibDER.sample).normalize.octets)) :=
  createNormalizedX501Name_form LibDER.sample_decodesElements _ (by decide)

/-- The units are in order as they are written, but not in upper case. -/
theorem normalized_units_not_ordered :
    IsOrderedName LibDER.sample (unitsName LibDER.sample).octets ∧
      ∃ result, createNormalizedX501Name LibDER.sample (unitsName LibDER.sample).octets =
          .ok result ∧
        ¬ IsOrderedName LibDER.sample result := by
  have hcreate := createNormalizedX501Name_eq LibDER.sample_decodesElements
    (unitsName LibDER.sample) (by decide)
  refine ⟨⟨_, rfl, ?_⟩, _, hcreate, ?_⟩
  · intro rdn hrdn
    rw [List.mem_singleton.mp hrdn]
    change [(organizationalUnit LibDER.sample [0x43]).octets,
      (organizationalUnit LibDER.sample [0x62]).octets].Pairwise (· ≤ ·)
    decide
  · intro hresult
    obtain ⟨name, hoctets, hordered⟩ := hresult
    have hnormal := hordered.of_octets_eq hoctets _ List.mem_cons_self
    have htidy : tidyPrintable [0x43] = [0x43] ∧ tidyPrintable [0x62] = [0x42] := by decide
    simp only [RelativeName.InOrder, RelativeName.normalize, List.map_cons, List.map_nil,
      Attribute.normalize, organizationalUnit, AttributeValue.normalize, htidy.1, htidy.2]
      at hnormal
    change [(organizationalUnit LibDER.sample [0x43]).octets,
      (organizationalUnit LibDER.sample [0x42]).octets].Pairwise (· ≤ ·) at hnormal
    revert hnormal
    decide
end SecurityFramework.Trustd
