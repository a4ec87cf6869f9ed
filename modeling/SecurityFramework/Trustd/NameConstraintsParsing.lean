import SecurityFramework.Trustd.SecCertificate

/-! # Name constraints in parsing -/

namespace SecurityFramework.Trustd
open DER

section
variable (der : LibDER)

def encodedItems (derSubtrees : DERItem) : List DERDecodedInfo :=
  match der.decodeSeqContent derSubtrees with
  | .error _ => []
  | .ok gsSeq => if derSubtrees = [] then [] else gsSeq.items

def EncodesSubtree (derSubtrees base : DERItem) : Prop :=
  ∃ item ∈ encodedItems der derSubtrees, item.tag = ASN1_CONSTR_SEQUENCE ∧
    ∃ derGS, der.parseGeneralSubtree item.content = .ok derGS ∧ derGS.generalName = base

/-- An empty minimum has no digits and counts as absent. -/
def NonzeroMinimum (derGS : DERGeneralSubtree) : Prop :=
  itemOctets derGS.minimum ≠ [] ∧ der.parseInteger (itemOctets derGS.minimum) ≠ .ok 0

def IllFormed (item : DERDecodedInfo) : Prop :=
  item.tag ≠ ASN1_CONSTR_SEQUENCE ∨
    ∃ derGS, der.parseGeneralSubtree item.content = .ok derGS ∧
      (NonzeroMinimum der derGS ∨ derGS.maximum.isSome)

structure ConstraintsKept (certificate : SecCertificate) (extnValue : DERItem)
    (nc : DERNameConstraints) : Prop where
  permitted : (SecCEPNameConstraints der certificate extnValue).1 = true →
    ∀ base, EncodesSubtree der nc.permittedSubtrees base →
      base ∈ (SecCEPNameConstraints der certificate extnValue).2.permittedSubtrees.getD []
  excluded : (SecCEPNameConstraints der certificate extnValue).1 = true →
    ∀ base, EncodesSubtree der nc.excludedSubtrees base →
      base ∈ (SecCEPNameConstraints der certificate extnValue).2.excludedSubtrees.getD []
  refused : (∃ item ∈ encodedItems der nc.permittedSubtrees ++ encodedItems der nc.excludedSubtrees,
      IllFormed der item) →
    (SecCEPNameConstraints der certificate extnValue).1 = false

def DecoderStops (derSubtrees : DERItem) : Prop :=
  derSubtrees ≠ [] ∧
    match der.decodeSeqContent derSubtrees with
    | .error _ => True
    | .ok gsSeq =>
      match gsSeq.items.find? fun item => !(parseGeneralSubtree der item).isOk with
      | some item =>
        item.tag = ASN1_CONSTR_SEQUENCE ∧ (der.parseGeneralSubtree item.content).isOk = false
      | none => gsSeq.drtn ≠ .DR_EndOfSequence

def BasesPresent : Prop :=
  ∀ octets derGS, der.parseGeneralSubtree octets = .ok derGS →
    derGS.generalName ≠ [] ∧ derGS.generalName.length < LONG_MAX
end

section
variable {der : LibDER}

variable {item : DERDecodedInfo}

theorem parseGeneralSubtree_ok {base : DERItem} (h : parseGeneralSubtree der item = .ok base) :
    item.tag = ASN1_CONSTR_SEQUENCE ∧
      ∃ derGS, der.parseGeneralSubtree item.content = .ok derGS ∧ derGS.generalName = base := by
  rw [parseGeneralSubtree] at h
  split at h
  · rename_i htag
    split at h
    · exact nomatch h
    · rename_i derGS hparse
      split_ifs at h
      exact ⟨htag, derGS, hparse, Except.ok.inj h⟩
  · exact nomatch h

theorem parseGeneralSubtree_unreadable (htag : item.tag = ASN1_CONSTR_SEQUENCE)
    (hparse : (der.parseGeneralSubtree item.content).isOk = false) :
    ∃ drtn : DERFailure, parseGeneralSubtree der item = .error drtn.1 := by
  cases h : der.parseGeneralSubtree item.content with
  | error drtn =>
    refine ⟨drtn, ?_⟩
    rw [parseGeneralSubtree, if_pos htag, h]
  | ok derGS =>
    rw [h] at hparse
    exact nomatch hparse

theorem parseGeneralSubtree_unchecked {drtn : DERReturn}
    (h : parseGeneralSubtree der item = .error drtn) (hread : ¬ (item.tag = ASN1_CONSTR_SEQUENCE ∧
      (der.parseGeneralSubtree item.content).isOk = false)) :
    drtn = .DR_Success := by
  rw [parseGeneralSubtree] at h
  split at h
  · rename_i htag
    split at h
    · rename_i hparse
      exact absurd ⟨htag, by rw [hparse]; rfl⟩ hread
    · split_ifs at h
      all_goals exact (Except.error.inj h).symm
  · exact (Except.error.inj h).symm

theorem parseGeneralSubtree_wellFormed (hbases : BasesPresent der) (hitem : ¬ IllFormed der item)
    (hparse : (der.parseGeneralSubtree item.content).isOk = true) :
    (parseGeneralSubtree der item).isOk = true := by
  have htag : item.tag = ASN1_CONSTR_SEQUENCE := by
    by_contra htag
    exact hitem (Or.inl htag)
  cases h : der.parseGeneralSubtree item.content with
  | error drtn =>
    rw [h] at hparse
    exact nomatch hparse
  | ok derGS =>
    have hminimum : ¬ NonzeroMinimum der derGS := fun hmin =>
      hitem (Or.inr ⟨derGS, h, Or.inl hmin⟩)
    have hmaximum : itemOctets derGS.maximum = [] := by
      cases hmax : derGS.maximum with
      | none => rfl
      | some maximum => exact absurd (Or.inr ⟨derGS, h, Or.inr (by rw [hmax]; rfl)⟩) hitem
    have hbase := hbases item.content derGS h
    simp only [parseGeneralSubtree, if_pos htag, h]
    rw [if_neg (fun hmin => hminimum ⟨fun hnil => hmin.1 (by rw [hnil]; rfl), hmin.2⟩),
      if_neg (by rw [hmaximum]; simp), if_pos ⟨by simpa using hbase.1, hbase.2⟩]
    rfl

theorem mapM_of_find?_none {α β ε : Type} {f : α → Except ε β} {items : List α}
    (h : items.find? (fun item => !(f item).isOk) = none) :
    ∃ values, items.mapM f = .ok values ∧
      ∀ item ∈ items, ∃ value ∈ values, f item = .ok value := by
  induction items with
  | nil => exact ⟨[], rfl, by simp⟩
  | cons item items ih =>
    rw [List.find?_cons] at h
    cases hf : f item with
    | error e => simp [hf, Except.isOk, Except.toBool] at h
    | ok value =>
      simp only [hf, Except.isOk, Except.toBool, Bool.not_true] at h
      rcases ih h with ⟨values, hvalues, hall⟩
      refine ⟨value :: values, ?_, ?_⟩
      · rw [List.mapM_cons, hf, hvalues]
        rfl
      · intro other hother
        rcases List.mem_cons.mp hother with rfl | hother
        · exact ⟨value, List.mem_cons_self, hf⟩
        · rcases hall other hother with ⟨found, hfound, heq⟩
          exact ⟨found, List.mem_cons_of_mem _ hfound, heq⟩

theorem mapM_of_find?_some {α β ε : Type} {f : α → Except ε β} {items : List α} {item : α}
    (h : items.find? (fun item => !(f item).isOk) = some item) :
    ∃ e, f item = .error e ∧ items.mapM f = .error e := by
  induction items with
  | nil => simp at h
  | cons first items ih =>
    rw [List.find?_cons] at h
    cases hf : f first with
    | error e =>
      simp only [hf, Except.isOk, Except.toBool, Bool.not_false, Option.some.injEq] at h
      subst h
      refine ⟨e, hf, ?_⟩
      rw [List.mapM_cons, hf]
      rfl
    | ok value =>
      simp only [hf, Except.isOk, Except.toBool, Bool.not_true] at h
      rcases ih h with ⟨e, hitem, herror⟩
      refine ⟨e, hitem, ?_⟩
      rw [List.mapM_cons, hf, herror]
      rfl

theorem parsePresentSubtrees_success (derSubtrees : DERItem)
    (generalSubtrees : Option (List DERItem)) :
    (parsePresentSubtrees der derSubtrees generalSubtrees).1 = .DR_Success ↔
      ¬ DecoderStops der derSubtrees := by
  rw [parsePresentSubtrees, DecoderStops]
  by_cases hnil : derSubtrees = []
  · simp [hnil]
  rw [if_pos (by simpa using hnil), parseGeneralSubtrees]
  simp only [ne_eq, hnil, not_false_eq_true, true_and]
  cases hdecode : der.decodeSeqContent derSubtrees with
  | error drtn => simp [drtn.2]
  | ok gsSeq =>
    simp only
    cases hfind : gsSeq.items.find? fun item => !(parseGeneralSubtree der item).isOk with
    | none =>
      rcases mapM_of_find?_none hfind with ⟨values, hvalues, -⟩
      simp only [hvalues]
      by_cases hend : gsSeq.drtn = .DR_EndOfSequence
      · simp [hend]
      · simp [hend, gsSeq.drtn_ne]
    | some item =>
      rcases mapM_of_find?_some hfind with ⟨drtn, hitem, herror⟩
      simp only [herror]
      constructor
      · rintro rfl ⟨htag, hparse⟩
        rcases parseGeneralSubtree_unreadable htag hparse with ⟨failure, hfailure⟩
        exact failure.2 (Except.error.inj (hfailure.symm.trans hitem))
      · intro hread
        exact parseGeneralSubtree_unchecked hitem hread

/-- Without an ill-formed subtree all bases are kept, if the list counts as parsed. -/
theorem mem_parsePresentSubtrees (hbases : BasesPresent der) {derSubtrees : DERItem}
    (hwell : ∀ item ∈ encodedItems der derSubtrees, ¬ IllFormed der item)
    {generalSubtrees : Option (List DERItem)}
    (hsuccess : (parsePresentSubtrees der derSubtrees generalSubtrees).1 = .DR_Success)
    {base : DERItem} (hbase : EncodesSubtree der derSubtrees base) :
    base ∈ (parsePresentSubtrees der derSubtrees generalSubtrees).2.getD [] := by
  rcases hbase with ⟨item, hitem, htag, derGS, hparse, rfl⟩
  rw [encodedItems] at hitem hwell
  cases hdecode : der.decodeSeqContent derSubtrees with
  | error drtn =>
    rw [hdecode] at hitem
    exact absurd hitem List.not_mem_nil
  | ok gsSeq =>
    simp only [hdecode] at hitem hwell
    by_cases hnil : derSubtrees = []
    · rw [if_pos hnil] at hitem
      exact absurd hitem List.not_mem_nil
    rw [if_neg hnil] at hitem hwell
    have hstops := (parsePresentSubtrees_success derSubtrees generalSubtrees).mp hsuccess
    simp only [DecoderStops, hdecode, ne_eq, hnil, not_false_eq_true, true_and] at hstops
    cases hfind : gsSeq.items.find? fun item => !(parseGeneralSubtree der item).isOk with
    | none =>
      rw [hfind] at hstops
      simp only [not_not] at hstops
      rcases mapM_of_find?_none hfind with ⟨values, hvalues, hall⟩
      rw [parsePresentSubtrees, if_pos (by simpa using hnil), parseGeneralSubtrees]
      simp only [hdecode, hvalues, if_pos hstops, Option.getD_some]
      rcases hall item hitem with ⟨base, hbase, hok⟩
      rcases parseGeneralSubtree_ok hok with ⟨-, found, hfound, rfl⟩
      rw [Except.ok.inj (hparse.symm.trans hfound)]
      exact hbase
    | some failed =>
      -- A subtree that is read and not kept would be ill-formed.
      rw [hfind] at hstops
      have hmem := List.mem_of_find?_eq_some hfind
      have hnot := List.find?_some hfind
      have htag : failed.tag = ASN1_CONSTR_SEQUENCE := by
        by_contra htag
        exact hwell failed hmem (Or.inl htag)
      have hread : (der.parseGeneralSubtree failed.content).isOk = true := by
        by_contra hread
        exact hstops ⟨htag, by simpa using hread⟩
      rw [parseGeneralSubtree_wellFormed hbases (hwell failed hmem) hread] at hnot
      exact nomatch hnot

theorem SecCEPNameConstraints_success {extnValue : DERItem} {nc : DERNameConstraints}
    (hnc : der.parseNameConstraints extnValue = .ok nc) (certificate : SecCertificate) :
    (SecCEPNameConstraints der certificate extnValue).1 = true ↔
      ¬ DecoderStops der nc.permittedSubtrees ∧ ¬ DecoderStops der nc.excludedSubtrees := by
  rw [← parsePresentSubtrees_success nc.permittedSubtrees certificate.permittedSubtrees,
    ← parsePresentSubtrees_success nc.excludedSubtrees certificate.excludedSubtrees]
  simp only [SecCEPNameConstraints, hnc]
  split_ifs with hpermitted hexcluded
  · simp [hpermitted]
  · simp [hexcluded]
  · rw [ne_eq, not_not] at hpermitted hexcluded
    simp [hpermitted, hexcluded]

theorem SecCEPNameConstraints_lists {extnValue : DERItem} {nc : DERNameConstraints}
    (hnc : der.parseNameConstraints extnValue = .ok nc) (certificate : SecCertificate)
    (hsuccess : (SecCEPNameConstraints der certificate extnValue).1 = true) :
    (SecCEPNameConstraints der certificate extnValue).2.permittedSubtrees =
        (parsePresentSubtrees der nc.permittedSubtrees certificate.permittedSubtrees).2 ∧
      (SecCEPNameConstraints der certificate extnValue).2.excludedSubtrees =
        (parsePresentSubtrees der nc.excludedSubtrees certificate.excludedSubtrees).2 := by
  simp only [SecCEPNameConstraints, hnc] at hsuccess ⊢
  split_ifs at hsuccess ⊢
  exact ⟨rfl, rfl⟩

theorem sample_basesPresent : BasesPresent LibDER.sample := by
  intro octets derGS h
  have hread : LibDER.readGeneralSubtree octets = some derGS := by
    change LibDER.toFallible (LibDER.readGeneralSubtree octets) = .ok derGS at h
    cases hread : LibDER.readGeneralSubtree octets with
    | none =>
      rw [hread] at h
      exact nomatch h
    | some found =>
      rw [hread] at h
      exact congrArg some (Except.ok.inj h)
  rw [LibDER.readGeneralSubtree] at hread
  split at hread
  · exact nomatch hread
  · rename_i hsize
    split at hread
    · rename_i base items hwhole
      have hitem : LibDER.readItem octets = some base := by
        rw [LibDER.readWhole] at hwhole
        split at hwhole
        · exact LibDER.readItems_cons (Option.some.inj hwhole)
        · exact nomatch hwhole
      have hrest := LibDER.rest_readItem hitem
      rw [← Option.some.inj hread]
      refine ⟨List.ne_nil_of_length_pos ?_, ?_⟩
      · rw [List.length_take]
        omega
      · rw [List.length_take]
        omega
    · exact nomatch hread

/-- Name constraints are kept exactly when no subtree is ill-formed, unless the decoder itself
gives up. -/
theorem constraintsKept_iff (hbases : BasesPresent der) (certificate : SecCertificate)
    (extnValue : DERItem) :
    (∀ nc, der.parseNameConstraints extnValue = .ok nc →
        ConstraintsKept der certificate extnValue nc) ↔
      ∀ nc, der.parseNameConstraints extnValue = .ok nc →
        (∀ item ∈ encodedItems der nc.permittedSubtrees ++ encodedItems der nc.excludedSubtrees,
            ¬ IllFormed der item) ∨
          DecoderStops der nc.permittedSubtrees ∨ DecoderStops der nc.excludedSubtrees := by
  constructor
  · intro hkept nc hnc
    by_cases hstops : DecoderStops der nc.permittedSubtrees ∨ DecoderStops der nc.excludedSubtrees
    · exact Or.inr hstops
    · left
      intro item hitem hill
      rw [not_or] at hstops
      have hsuccess := (SecCEPNameConstraints_success hnc certificate).mpr hstops
      rw [(hkept nc hnc).refused ⟨item, hitem, hill⟩] at hsuccess
      exact nomatch hsuccess
  · intro hcondition nc hnc
    rcases hcondition nc hnc with hwell | hstops
    · have hlists := SecCEPNameConstraints_lists hnc certificate
      have hsuccess := SecCEPNameConstraints_success hnc certificate
      refine ⟨fun htrue base hbase => ?_, fun htrue base hbase => ?_, ?_⟩
      · rw [(hlists htrue).1]
        refine mem_parsePresentSubtrees hbases
          (fun item hitem => hwell item (List.mem_append_left _ hitem)) ?_ hbase
        exact (parsePresentSubtrees_success _ _).mpr (hsuccess.mp htrue).1
      · rw [(hlists htrue).2]
        refine mem_parsePresentSubtrees hbases
          (fun item hitem => hwell item (List.mem_append_right _ hitem)) ?_ hbase
        exact (parsePresentSubtrees_success _ _).mpr (hsuccess.mp htrue).2
      · rintro ⟨item, hitem, hill⟩
        exact absurd hill (hwell item hitem)
    · have hfalse : (SecCEPNameConstraints der certificate extnValue).1 = false := by
        rw [Bool.eq_false_iff]
        intro htrue
        have hgo := (SecCEPNameConstraints_success hnc certificate).mp htrue
        exact hstops.elim hgo.1 hgo.2
      refine ⟨fun htrue => ?_, fun htrue => ?_, fun _ => hfalse⟩
      · exact absurd htrue (by simp [hfalse])
      · exact absurd htrue (by simp [hfalse])

def oneSubtree (minimum : UInt8) : DERItem :=
  [0x30, 0x0A, 0xA0, 0x08, 0x30, 0x06, 0x82, 0x01, 0x61, 0x80, 0x01, minimum]

def oneSubtreeParsed (minimum : UInt8) : DERNameConstraints :=
  ⟨[0x30, 0x06, 0x82, 0x01, 0x61, 0x80, 0x01, minimum], []⟩

def oneSubtreeItem (minimum : UInt8) : DERDecodedInfo :=
  ⟨ASN1_CONSTR_SEQUENCE, [0x82, 0x01, 0x61, 0x80, 0x01, minimum], []⟩

theorem minimum_zero_kept :
    ConstraintsKept LibDER.sample ⟨[], none, none, none⟩ (oneSubtree 0) (oneSubtreeParsed 0) := by
  have hitems : encodedItems LibDER.sample (oneSubtreeParsed 0).permittedSubtrees ++
      encodedItems LibDER.sample (oneSubtreeParsed 0).excludedSubtrees = [oneSubtreeItem 0] := by
    decide +kernel
  have hparse : LibDER.sample.parseGeneralSubtree (oneSubtreeItem 0).content =
      .ok ⟨[0x82, 0x01, 0x61], some [0], none⟩ := by decide +kernel
  refine (constraintsKept_iff sample_basesPresent ⟨[], none, none, none⟩ (oneSubtree 0)).mpr ?_
    (oneSubtreeParsed 0) (by decide +kernel)
  intro nc hnc
  left
  have hnc' : LibDER.sample.parseNameConstraints (oneSubtree 0) = .ok (oneSubtreeParsed 0) := by
    decide +kernel
  rw [← Except.ok.inj (hnc'.symm.trans hnc), hitems]
  rintro item hitem (htag | ⟨derGS, hread, hill⟩)
  · rw [List.mem_singleton.mp hitem] at htag
    exact htag rfl
  · rw [List.mem_singleton.mp hitem, hparse] at hread
    rw [← Except.ok.inj hread] at hill
    rcases hill with ⟨-, hnonzero⟩ | hmaximum
    · exact hnonzero (by decide +kernel)
    · exact absurd hmaximum (by decide)

/-- A minimum of one is no failure, and the subtree is lost. -/
theorem minimum_one_lost :
    LibDER.sample.parseNameConstraints (oneSubtree 1) = .ok (oneSubtreeParsed 1) ∧
      ¬ ConstraintsKept LibDER.sample ⟨[], none, none, none⟩ (oneSubtree 1)
        (oneSubtreeParsed 1) := by
  refine ⟨by decide +kernel, fun hkept => ?_⟩
  have hsuccess : (SecCEPNameConstraints LibDER.sample ⟨[], none, none, none⟩
      (oneSubtree 1)).1 = true := by decide +kernel
  have hencoded : EncodesSubtree LibDER.sample (oneSubtreeParsed 1).permittedSubtrees
      [0x82, 0x01, 0x61] := by
    refine ⟨oneSubtreeItem 1, by decide +kernel, rfl,
      ⟨[0x82, 0x01, 0x61], some [1], none⟩, by decide +kernel, rfl⟩
  have hmem := hkept.permitted hsuccess [0x82, 0x01, 0x61] hencoded
  revert hmem
  decide +kernel
end
end SecurityFramework.Trustd
