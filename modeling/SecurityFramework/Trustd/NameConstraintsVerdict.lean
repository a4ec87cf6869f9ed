import SecurityFramework.Trustd.NameConstraintsMatching

/-! # The verdict on all names -/

namespace SecurityFramework.Trustd
open DER SecCEGeneralNameType

section
variable {der : LibDER} {strings : StringComparison} {describe : ContentDescription}

variable (strings describe) in
theorem matchSubtrees_success (hreads : SequencesRead der) (certificate : SecCertificate)
    (subtrees : List DERItem) (matched permit : Bool) :
    (SecNameContraintsMatchSubtrees strings der describe certificate subtrees matched permit).1 =
        errSecSuccess ↔ NamesRead der certificate := by
  rw [SecNameContraintsMatchSubtrees]
  cases hcopy : SecCertificateCopySubjectSequence der certificate with
  | none => exact iff_of_false invalid_ne_success fun hread => hread.subject hcopy
  | some subject =>
    have hempty := isEmptySubject_iff hreads hcopy
    simp only [hempty]
    split_ifs with hnone
    · exact iff_of_false invalid_ne_success fun hread =>
        hread.present.elim (fun hne => hne hnone.1) fun hne => hne hnone.2
    · have hpresent : certificate.subject ≠ [] ∨ certificate.subjectAltName ≠ none :=
        not_and_or.mp hnone
      cases halternative : certificate.subjectAltName with
      | none =>
        refine iff_of_true rfl ⟨by simp [hcopy], hpresent, fun _ hsome => ?_⟩
        exact nomatch halternative.symm.trans hsome
      | some subjectAltNames =>
        have hstatus := parseGeneralNames_status der (fun gnType item found =>
          update_match permit (compareWithSubtrees strings der subtrees gnType item) found)
          subjectAltNames ⟨false, permit⟩
        simp only
        split_ifs with hsuccess
        · refine iff_of_true rfl ⟨by simp [hcopy], hpresent, fun other hsome => ?_⟩
          rw [← Option.some.inj (halternative.symm.trans hsome)]
          exact hstatus.mp hsuccess
        · refine iff_of_false hsuccess fun hread => hsuccess ?_
          exact hstatus.mpr (hread.alternative subjectAltNames halternative)

theorem matchSubtrees_verdict (hreads : SequencesRead der) {certificate : SecCertificate}
    (hnames : NamesRead der certificate) (subtrees : List DERItem) (matched permit : Bool) :
    (SecNameContraintsMatchSubtrees strings der describe certificate subtrees matched permit).2 =
        permit ↔
      ∀ name ∈ comparedNames der describe certificate,
        ¬ Rejects der strings subtrees permit name := by
  cases hcopy : SecCertificateCopySubjectSequence der certificate with
  | none => exact absurd hcopy hnames.subject
  | some subject =>
    have hempty := isEmptySubject_iff hreads hcopy
    have hsubject := compare_subject_isMatch strings describe hreads
      hcopy subtrees permit
    have hsettled := compare_subject_settled der strings describe certificate subtrees permit
    simp only [SecNameContraintsMatchSubtrees, comparedNames, namesWith, hcopy, hempty]
    rw [if_neg (not_and_or.mpr hnames.present)]
    cases halternative : certificate.subjectAltName with
    | none =>
      simp only [List.append_nil]
      rw [combinedMatch_iff hsettled (undecided_settled permit), hsubject]
      exact and_iff_left rfl
    | some subjectAltNames =>
      have hread := hnames.alternative subjectAltNames halternative
      have hparsed := compare_alternative strings subjectAltNames hread subtrees permit
      have hstatus : (SecCertificateParseGeneralNames der subjectAltNames ⟨false, permit⟩
          (nc_compare_subjectAltName_to_subtrees strings der subtrees permit)).1 = errSecSuccess :=
        (parseGeneralNames_status der (fun gnType item found => update_match permit
          (compareWithSubtrees strings der subtrees gnType item) found) subjectAltNames
          ⟨false, permit⟩).mpr hread
      simp only
      rw [if_pos hstatus]
      simp only
      rw [combinedMatch_iff hsettled hparsed.1, hsubject, hparsed.2]
      simp only [List.mem_append, or_imp, forall_and]

/-- What the permitted and the excluded subtrees are to say of a certificate, and that a name of a
type that is not supported is rejected if there is a subtree of that type. -/
structure FollowsTheRule (strings : StringComparison) (der : LibDER)
    (describe : ContentDescription) (certificate : SecCertificate) (subtrees : List DERItem)
    (permit : Bool) (result : OSStatus × Bool) : Prop where
  permitted : permit = true → result.1 = errSecSuccess →
    (result.2 = true ↔ ∀ name ∈ certificateNames der describe certificate,
      (∃ subtree ∈ subtrees, SameType der name subtree) →
        ∃ subtree ∈ subtrees, Matches der strings name subtree)
  excluded : permit = false → result.1 = errSecSuccess →
    (result.2 = true ↔ ∃ name ∈ certificateNames der describe certificate,
      ∃ subtree ∈ subtrees, Matches der strings name subtree)
  unsupported : ∀ name ∈ certificateNames der describe certificate, ¬ Supported name.1 →
    (∃ subtree ∈ subtrees, SameType der name subtree) →
      result.1 ≠ errSecSuccess ∨ result.2 ≠ permit

theorem nc_compare_unsupported {gnType : SecCEGeneralNameType} (h : ¬ Supported gnType)
    (cert_item generalName : DERItem) :
    nc_compare strings der gnType cert_item generalName = none := by
  cases gnType with
  | GNT_DirectoryName | GNT_DNSName | GNT_URI => exact absurd (by simp [Supported]) h
  | GNT_RFC822Name | GNT_IPAddress => exact absurd (by simp [Supported]) h
  | _ => rfl

theorem not_matches_of_unsupported {name : GeneralName} (h : ¬ Supported name.1)
    (subtree : DERItem) : ¬ Matches der strings name subtree := by
  rintro ⟨item, -, hmatch⟩
  rw [nc_compare_unsupported h] at hmatch
  exact nomatch hmatch

theorem rejects_permitted {subtrees : List DERItem} {name : GeneralName} :
    Rejects der strings subtrees true name ↔
      (∃ subtree ∈ subtrees, SameType der name subtree) ∧
        ¬ ∃ subtree ∈ subtrees, Matches der strings name subtree := by
  simp [Rejects]

theorem rejects_excluded {subtrees : List DERItem} {name : GeneralName} :
    Rejects der strings subtrees false name ↔
      ∃ subtree ∈ subtrees, Matches der strings name subtree := by
  simp only [Rejects, iff_true, and_iff_right_iff_imp]
  rintro ⟨subtree, hmem, hmatch⟩
  exact ⟨subtree, hmem, hmatch.sameType⟩

/-- Without a certificate name that rejects, both rules accept; with one, both reject. -/
theorem rule_iff (subtrees : List DERItem) (permit : Bool) (names : List GeneralName)
    (result : Bool) (hrejects : result = permit ↔ ∀ name ∈ names,
      ¬ Rejects der strings subtrees permit name) :
    (permit = true → (result = true ↔ ∀ name ∈ names,
      (∃ subtree ∈ subtrees, SameType der name subtree) →
        ∃ subtree ∈ subtrees, Matches der strings name subtree)) ∧
    (permit = false → (result = true ↔ ∃ name ∈ names,
      ∃ subtree ∈ subtrees, Matches der strings name subtree)) := by
  constructor
  · rintro rfl
    rw [hrejects]
    refine forall₂_congr fun name _ => ?_
    rw [rejects_permitted, not_and, not_not]
  · rintro rfl
    rw [← Bool.not_eq_false, hrejects]
    simp only [rejects_excluded]
    push Not
    rfl

/-- The rule is followed exactly when one of the names that are compared rejects the certificate,
or none of all its names does and subtrees of a type that is not supported only permit. -/
theorem followsTheRule_iff (hreads : SequencesRead der) (certificate : SecCertificate)
    (subtrees : List DERItem) (matched permit : Bool) :
    FollowsTheRule strings der describe certificate subtrees permit
        (SecNameContraintsMatchSubtrees strings der describe certificate subtrees matched
          permit) ↔
      (NamesRead der certificate →
        (∃ name ∈ comparedNames der describe certificate,
            Rejects der strings subtrees permit name) ∨
          (∀ name ∈ certificateNames der describe certificate,
            ¬ Rejects der strings subtrees permit name) ∧
          (permit = true ∨ ∀ name ∈ certificateNames der describe certificate,
            ¬ Supported name.1 → ¬ ∃ subtree ∈ subtrees, SameType der name subtree)) := by
  have hsuccess := matchSubtrees_success strings describe hreads certificate
    subtrees matched permit
  generalize hresult : SecNameContraintsMatchSubtrees strings der describe certificate subtrees
    matched permit = result at hsuccess
  have hverdict : NamesRead der certificate → (result.2 = permit ↔
      ∀ name ∈ comparedNames der describe certificate,
        ¬ Rejects der strings subtrees permit name) := fun hnames => by
    rw [← hresult]
    exact matchSubtrees_verdict hreads hnames subtrees matched permit
  constructor
  · intro hrule hnames
    by_cases hcompared : ∃ name ∈ comparedNames der describe certificate,
        Rejects der strings subtrees permit name
    · exact Or.inl hcompared
    · right
      have haccepted : result.2 = permit := (hverdict hnames).mpr fun name hname hrejects =>
        hcompared ⟨name, hname, hrejects⟩
      have hok := hsuccess.mpr hnames
      cases permit with
      | true =>
        refine ⟨fun name hname hrejects => ?_, Or.inl rfl⟩
        rw [rejects_permitted] at hrejects
        exact hrejects.2 ((hrule.permitted rfl hok).mp haccepted name hname hrejects.1)
      | false =>
        refine ⟨fun name hname hrejects => ?_, Or.inr fun name hname hname' hsubtree => ?_⟩
        · rw [rejects_excluded] at hrejects
          have hmatched := (hrule.excluded rfl hok).mpr ⟨name, hname, hrejects⟩
          rw [haccepted] at hmatched
          exact nomatch hmatched
        · rcases hrule.unsupported name hname hname' hsubtree with hne | hne
          · exact hne hok
          · exact hne haccepted
  · intro hcondition
    -- The names that are compared decide as all names do.
    have hall : NamesRead der certificate → (result.2 = permit ↔
        ∀ name ∈ certificateNames der describe certificate,
          ¬ Rejects der strings subtrees permit name) := by
      intro hnames
      rw [hverdict hnames]
      constructor
      · intro hcompared
        rcases hcondition hnames with ⟨name, hname, hrejects⟩ | ⟨hnone, -⟩
        · exact absurd hrejects (hcompared name hname)
        · exact hnone
      · exact fun hnone name hname => hnone name (comparedNames_subset hname)
    refine ⟨fun hpermit hok => ?_, fun hpermit hok => ?_, ?_⟩
    · exact (rule_iff subtrees permit _ result.2 (hall (hsuccess.mp hok))).1 hpermit
    · exact (rule_iff subtrees permit _ result.2 (hall (hsuccess.mp hok))).2 hpermit
    · intro name hname hname' hsubtree
      by_cases hok : result.1 = errSecSuccess
      · right
        intro haccepted
        have hnames := hsuccess.mp hok
        have hnone := (hall hnames).mp haccepted
        rcases hcondition hnames with ⟨other, hother, hrejects⟩ | ⟨-, hpermit | hfree⟩
        · exact hnone other (comparedNames_subset hother) hrejects
        · subst hpermit
          refine hnone name hname (rejects_permitted.mpr ⟨hsubtree, ?_⟩)
          rintro ⟨subtree, -, hmatch⟩
          exact not_matches_of_unsupported hname' subtree hmatch
        · exact hfree name hname hname' hsubtree
      · exact Or.inl hok
end

def lowercase (unit : UInt16) : UInt16 :=
  if 0x41 ≤ unit.toNat ∧ unit.toNat ≤ 0x5A then unit + 0x20 else unit

def StringComparison.ascii : StringComparison where
  equal string other := string.map lowercase == other.map lowercase
  characterBeyond := 0

theorem sample_sequencesRead : SequencesRead LibDER.sample := by
  intro content sequence hcopy
  have hcopy' : (if LONG_MAX < 1 + (Standard.encodeLen content.length).length + content.length
      then none else some (0x30 :: (Standard.encodeLen content.length ++ content))) =
      some sequence := hcopy
  split_ifs at hcopy'
  rw [← Option.some.inj hcopy']
  have hlen := Standard.primitives_correct.decodeLen_encodeLen content.length content (Nat.le_refl _)
  have htag : Standard.decodeTag (0x30 :: (Standard.encodeLen content.length ++ content)) =
      some (ASN1_CONSTR_SEQUENCE, Standard.encodeLen content.length ++ content) := rfl
  have hread : LibDER.readItem (0x30 :: (Standard.encodeLen content.length ++ content)) =
      some ⟨ASN1_CONSTR_SEQUENCE, content, []⟩ := by
    change Standard.decodeLen (Standard.encodeLen content.length ++ content) = _ at hlen
    rw [LibDER.readItem, htag, Option.bind_some, hlen]
    simp
  change LibDER.toFallible (LibDER.readItem _) = _
  rw [hread]
  rfl

def namedCertificate : SecCertificate :=
  ⟨[], some [0x30, 0x08, 0x82, 0x03, 0x61, 0x2E, 0x62, 0x88, 0x01, 0x2A], none, none⟩

/-- The DNS name "B" as a permitted subtree. -/
theorem followsTheRule_dns :
    FollowsTheRule StringComparison.ascii LibDER.sample (fun _ _ => none) namedCertificate
      [[0x82, 0x01, 0x42]] true
      (SecNameContraintsMatchSubtrees StringComparison.ascii LibDER.sample (fun _ _ => none)
        namedCertificate [[0x82, 0x01, 0x42]] false true) := by
  refine (followsTheRule_iff sample_sequencesRead namedCertificate [[0x82, 0x01, 0x42]] false
    true).mpr fun hnames => Or.inr ⟨?_, Or.inl rfl⟩
  have hverdict : (SecNameContraintsMatchSubtrees StringComparison.ascii LibDER.sample
      (fun _ _ => none) namedCertificate [[0x82, 0x01, 0x42]] false true).2 = true ↔ _ :=
    matchSubtrees_verdict sample_sequencesRead hnames [[0x82, 0x01, 0x42]] false true
  have hnames : certificateNames LibDER.sample (fun _ _ => none) namedCertificate =
      comparedNames LibDER.sample (fun _ _ => none) namedCertificate := by decide +kernel
  rw [hnames]
  exact hverdict.mp (by decide +kernel)

/-- A registered identifier among the excluded subtrees is not rejected. -/
theorem excluded_identifier_accepted :
    ¬ FollowsTheRule StringComparison.ascii LibDER.sample (fun _ _ => none) namedCertificate
      [[0x88, 0x01, 0x2A]] false
      (SecNameContraintsMatchSubtrees StringComparison.ascii LibDER.sample (fun _ _ => none)
        namedCertificate [[0x88, 0x01, 0x2A]] false false) := by
  intro hrule
  have hname : (GNT_RegisteredID, [0x2A]) ∈
      certificateNames LibDER.sample (fun _ _ => none) namedCertificate := by decide +kernel
  have hsame : SameType LibDER.sample (GNT_RegisteredID, [0x2A]) [0x88, 0x01, 0x2A] :=
    ⟨[0x2A], by decide +kernel⟩
  have hrejected := hrule.unsupported (GNT_RegisteredID, [0x2A]) hname
    (by simp [Supported])
    ⟨[0x88, 0x01, 0x2A], List.mem_singleton_self _, hsame⟩
  revert hrejected
  decide +kernel
end SecurityFramework.Trustd
