import SecurityFramework.Trustd.BasicCertificateProcessing

/-! # Path lengths -/

namespace SecurityFramework.Trustd
open Library

/-- An issuer is followed, towards the leaf, by more intermediates that are not self-issued than its
path length constraint allows. -/
def ExceedsPathLength (path : BasicPath) : Prop :=
  ∃ intermediates issuer above pathLenConstraint,
    path.issuers = intermediates ++ issuer :: above ∧
      issuer.pathLength = some pathLenConstraint ∧
      pathLenConstraint < intermediates.countP fun cert => !isSelfIssued cert.toPolicyCertificate

variable {Value Conditions : Type*}

def FlagsPathLength (failures : List (Failure Value)) : Prop :=
  ∃ failure ∈ failures, failure.key = "BasicConstraintsPathLen"

section
variable {failures failures' : List (Failure Value)} {failed : Bool} {failure : Failure Value}

theorem not_flags_nil : ¬ FlagsPathLength ([] : List (Failure Value)) := by
  simp [FlagsPathLength]

theorem flags_append :
    FlagsPathLength (failures ++ failures') ↔
      FlagsPathLength failures ∨ FlagsPathLength failures' := by
  simp only [FlagsPathLength, List.mem_append, or_and_right, exists_or]

theorem flags_failureWhen :
    FlagsPathLength (failureWhen failed failure) ↔
      failed = true ∧ failure.key = "BasicConstraintsPathLen" := by
  cases failed with
  | true | false => simp [FlagsPathLength, failureWhen]
end

variable {kCFBooleanFalse : Value} {context : ProcessingContext} {cert : BasicCertificate}
  {ix : Nat}

theorem not_flags_information :
    ¬ FlagsPathLength (informationFailures kCFBooleanFalse context cert ix) := by
  rw [informationFailures, flags_append, flags_append, flags_failureWhen, flags_failureWhen,
    flags_failureWhen]
  simp

theorem not_flags_names {permitted excluded : List DERItem} :
    ¬ FlagsPathLength (nameFailures kCFBooleanFalse context cert ix permitted excluded) := by
  rw [nameFailures, flags_append, flags_failureWhen, flags_failureWhen]
  simp [forcedFailure]

theorem not_flags_criticalExtension :
    ¬ FlagsPathLength (criticalExtensionFailures kCFBooleanFalse cert ix) := by
  rw [criticalExtensionFailures, flags_failureWhen]
  simp [forcedFailure]

theorem flags_pathLen {max_path_length : Nat} :
    FlagsPathLength (pathLenFailures kCFBooleanFalse cert ix max_path_length) ↔
      (!isSelfIssued cert.toPolicyCertificate) = true ∧ max_path_length = 0 := by
  rw [pathLenFailures, flags_failureWhen]
  simp [forcedFailure]

theorem not_flags_anchor {path : BasicPath} {is_anchor_trusted : Bool} :
    ¬ FlagsPathLength (anchorFailures kCFBooleanFalse path is_anchor_trusted) := by
  rw [anchorFailures]
  split_ifs <;> simp [FlagsPathLength, forcedFailure]

theorem nextMaxPathLength_eq {max_path_length : Nat} :
    nextMaxPathLength cert max_path_length =
      nextBound (fun cert => !isSelfIssued cert.toPolicyCertificate) BasicCertificate.pathLength
        max_path_length cert := by
  have hdecrement : (if max_path_length > 0 then max_path_length - 1 else max_path_length) =
      max_path_length - 1 := by
    split_ifs <;> omega
  rw [nextMaxPathLength, nextBound, hdecrement]
  cases cert.pathLength <;> rfl

theorem flags_certificates {certs : List BasicCertificate} :
    ∀ {permitted excluded : List DERItem} {max_path_length : Nat},
      FlagsPathLength
          (certificateFailures kCFBooleanFalse context permitted excluded max_path_length certs) ↔
        BoundExceeded (fun cert => !isSelfIssued cert.toPolicyCertificate)
          BasicCertificate.pathLength max_path_length certs.dropLast := by
  induction certs with
  | nil =>
    intro permitted excluded max_path_length
    rw [certificateFailures]
    exact iff_of_false not_flags_nil not_false
  | cons cert certs ih =>
    intro permitted excluded max_path_length
    cases certs with
    | nil =>
      rw [certificateFailures, flags_append, flags_append]
      refine iff_of_false ?_ not_false
      rintro ((h | h) | h)
      · exact not_flags_information h
      · exact not_flags_names h
      · exact not_flags_criticalExtension h
    | cons next certs =>
      rw [certificateFailures, List.dropLast_cons_of_ne_nil (List.cons_ne_nil _ _), BoundExceeded,
        ← nextMaxPathLength_eq, flags_append, flags_append, flags_append, flags_append, ih, flags_pathLen]
      have hnames : ¬ FlagsPathLength (if isSelfIssued cert.toPolicyCertificate then []
          else nameFailures kCFBooleanFalse context cert (certs.length + 1) permitted excluded) := by
        split_ifs
        · exact not_flags_nil
        · exact not_flags_names
      simp only [not_flags_information, hnames, not_flags_criticalExtension, false_or, or_false]

section
variable {path : BasicPath}

theorem processed_untrusted : (path.processed false).dropLast = path.issuers.reverse := by
  rw [BasicPath.processed, if_neg Bool.false_ne_true, BasicPath.certificates, List.reverse_cons,
    List.dropLast_concat]

theorem processed_trusted {issuers : List BasicCertificate}
    (hissuers : path.issuers = issuers ++ [path.root]) :
    path.processed true = issuers.reverse ++ [path.leaf] := by
  rw [BasicPath.processed, if_pos rfl, BasicPath.certificates, hissuers, ← List.cons_append,
    List.dropLast_concat, List.reverse_cons]

theorem processed_length_le {is_anchor_trusted : Bool} :
    (path.processed is_anchor_trusted).length ≤ path.certificates.length := by
  rw [BasicPath.processed, List.length_reverse]
  split_ifs
  · rw [List.length_dropLast]
    omega
  · exact Nat.le_refl _

theorem processed_length_mod {is_anchor_trusted : Bool} :
    (path.processed is_anchor_trusted).length % 2 ^ 32 =
      (path.processed is_anchor_trusted).length := by
  have hcount : path.certificates.length ≤ 2 ^ 32 - 1 := path.count_le
  have hle : (path.processed is_anchor_trusted).length ≤ path.certificates.length :=
    processed_length_le
  exact Nat.mod_eq_of_lt (by omega)

/-- Issuers below a given one, read downwards, are those above it, read upwards. -/
theorem exceeds_iff_reverse {issuers : List BasicCertificate} :
    (∃ above issuer intermediates pathLenConstraint,
        issuers.reverse = above ++ issuer :: intermediates ∧
          issuer.pathLength = some pathLenConstraint ∧
          pathLenConstraint <
            intermediates.countP fun cert => !isSelfIssued cert.toPolicyCertificate) ↔
      ∃ intermediates issuer above pathLenConstraint,
        issuers = intermediates ++ issuer :: above ∧
          issuer.pathLength = some pathLenConstraint ∧
          pathLenConstraint <
            intermediates.countP fun cert => !isSelfIssued cert.toPolicyCertificate := by
  constructor
  · rintro ⟨above, issuer, intermediates, limit, hsplit, hlimit, hless⟩
    refine ⟨intermediates.reverse, issuer, above.reverse, limit, ?_, hlimit, ?_⟩
    · rw [← List.reverse_reverse issuers, hsplit]
      simp
    · rwa [List.countP_reverse]
  · rintro ⟨intermediates, issuer, above, limit, rfl, hlimit, hless⟩
    refine ⟨above.reverse, issuer, intermediates.reverse, limit, by simp, hlimit, ?_⟩
    rwa [List.countP_reverse]

theorem boundExceeded_untrusted :
    BoundExceeded (fun cert => !isSelfIssued cert.toPolicyCertificate)
        BasicCertificate.pathLength (initialMaxPathLength path false)
        (path.processed false).dropLast ↔
      ExceedsPathLength path := by
  have hinitial : initialMaxPathLength path false = path.issuers.length + 1 := by
    rw [initialMaxPathLength, if_neg Bool.false_ne_true, processed_length_mod, BasicPath.processed,
      if_neg Bool.false_ne_true, List.length_reverse]
    rfl
  have hcount : ¬ path.issuers.length + 1 <
      path.issuers.countP fun cert => !isSelfIssued cert.toPolicyCertificate := by
    have hle := path.issuers.countP_le_length
      (p := fun cert => !isSelfIssued cert.toPolicyCertificate)
    omega
  rw [boundExceeded_iff, processed_untrusted, List.countP_reverse, hinitial, or_iff_right hcount,
    exceeds_iff_reverse, ExceedsPathLength]

/-- A trusted anchor is not run through, but its constraint is the first bound. -/
theorem boundExceeded_trusted :
    BoundExceeded (fun cert => !isSelfIssued cert.toPolicyCertificate)
        BasicCertificate.pathLength (initialMaxPathLength path true)
        (path.processed true).dropLast ↔
      ExceedsPathLength path := by
  by_cases hnil : path.issuers = []
  · have hprocessed : path.processed true = [] := by
      rw [BasicPath.processed, if_pos rfl, BasicPath.certificates, hnil]
      rfl
    rw [hprocessed]
    refine iff_of_false not_false ?_
    rintro ⟨intermediates, issuer, above, limit, hsplit, -, -⟩
    rw [hnil] at hsplit
    exact absurd hsplit (by simp)
  · have hlast : path.root = path.issuers.getLast hnil := List.getLast_cons hnil
    have hroot : path.issuers = path.issuers.dropLast ++ [path.root] := by
      rw [hlast, List.dropLast_append_getLast]
    generalize path.issuers.dropLast = below at hroot
    have hprocessed := processed_trusted hroot
    have hinitial : initialMaxPathLength path true =
        lowerBound (below.length + 1) path.root.pathLength := by
      rw [initialMaxPathLength, if_pos rfl, processed_length_mod, hprocessed]
      simp only [List.length_append, List.length_reverse, List.length_singleton]
      cases path.root.pathLength <;> rfl
    have hcount : ¬ below.length + 1 <
        below.countP fun cert => !isSelfIssued cert.toPolicyCertificate := by
      have hle := below.countP_le_length
        (p := fun cert => !isSelfIssued cert.toPolicyCertificate)
      omega
    rw [boundExceeded_iff, hprocessed, List.dropLast_concat, List.countP_reverse, hinitial,
      lowerBound_lt_iff, or_iff_right hcount, exceeds_iff_reverse, ExceedsPathLength, hroot]
    constructor
    · rintro (⟨limit, hlimit, hless⟩ | ⟨intermediates, issuer, above, limit, rfl, hlimit, hless⟩)
      · exact ⟨below, path.root, [], limit, rfl, hlimit, hless⟩
      · exact ⟨intermediates, issuer, above ++ [path.root], limit, by simp, hlimit, hless⟩
    · rintro ⟨intermediates, issuer, above, limit, hsplit, hlimit, hless⟩
      rcases List.eq_nil_or_concat above with rfl | ⟨above', last, rfl⟩
      · rcases List.append_inj' hsplit rfl with ⟨rfl, hissuer⟩
        rw [← List.head_eq_of_cons_eq hissuer] at hlimit
        exact Or.inl ⟨limit, hlimit, hless⟩
      · rw [List.concat_eq_append, ← List.cons_append, ← List.append_assoc] at hsplit
        rcases List.append_inj' hsplit rfl with ⟨rfl, -⟩
        exact Or.inr ⟨intermediates, issuer, above', limit, rfl, hlimit, hless⟩

variable {is_anchor_trusted : Bool}

/-- Of all that may be reported there is a failure of the path length when it is exceeded. -/
theorem flags_basic :
    FlagsPathLength (basicFailures kCFBooleanFalse context path is_anchor_trusted) ↔
      ExceedsPathLength path := by
  have hpolicies : ¬ FlagsPathLength (failureWhen
      (!(SecCertificatePathVCVerifyPolicyTree context.dictionaryOrder path.policyPath
        is_anchor_trusted).1)
      (forcedFailure kCFBooleanFalse "PolicyConstraints" 0)) := by
    rw [flags_failureWhen]
    simp [forcedFailure]
  rw [basicFailures, flags_append, flags_append,
    or_iff_right (not_or.mpr ⟨not_flags_anchor, hpolicies⟩), flags_certificates]
  cases is_anchor_trusted with
  | false => exact boundExceeded_untrusted
  | true => exact boundExceeded_trusted

variable {count : Nat}

theorem ix_failureWhen {failed : Bool} {failure : Failure Value} (hix : failure.ix < count) :
    ∀ reported ∈ failureWhen failed failure, reported.ix < count := by
  intro reported hreported
  rw [failureWhen] at hreported
  split_ifs at hreported
  · rw [List.mem_singleton.mp hreported]
    exact hix
  · exact absurd hreported List.not_mem_nil

theorem ix_append {failures failures' : List (Failure Value)}
    (h : ∀ failure ∈ failures, failure.ix < count)
    (h' : ∀ failure ∈ failures', failure.ix < count) :
    ∀ failure ∈ failures ++ failures', failure.ix < count :=
  List.forall_mem_append.mpr ⟨h, h'⟩

theorem ix_information (hix : ix < count) :
    ∀ failure ∈ informationFailures kCFBooleanFalse context cert ix, failure.ix < count :=
  ix_append (ix_append (ix_failureWhen hix) (ix_failureWhen hix)) (ix_failureWhen hix)

theorem ix_names {permitted excluded : List DERItem} (hix : ix < count) :
    ∀ failure ∈ nameFailures kCFBooleanFalse context cert ix permitted excluded,
      failure.ix < count :=
  ix_append (ix_failureWhen hix) (ix_failureWhen hix)

theorem ix_certificates {certs : List BasicCertificate} (hcount : certs.length ≤ count) :
    ∀ {permitted excluded : List DERItem} {max_path_length : Nat},
      ∀ failure ∈ certificateFailures kCFBooleanFalse context permitted excluded max_path_length
        certs, failure.ix < count := by
  induction certs with
  | nil => exact fun _ h => absurd h List.not_mem_nil
  | cons cert certs ih =>
    intro permitted excluded max_path_length
    rw [List.length_cons] at hcount
    cases certs with
    | nil =>
      have hix : 0 < count := by omega
      exact ix_append (ix_append (ix_information hix) (ix_names hix)) (ix_failureWhen hix)
    | cons next certs =>
      rw [List.length_cons] at hcount
      have hix : certs.length + 1 < count := by omega
      rw [certificateFailures]
      refine ix_append (ix_append (ix_append (ix_append (ix_information hix) ?_)
        (ix_failureWhen hix)) (ix_failureWhen hix)) (ih (Nat.le_of_lt hix))
      split_ifs
      · exact fun _ h => absurd h List.not_mem_nil
      · exact ix_names hix

theorem ix_basic : ∀ failure ∈ basicFailures kCFBooleanFalse context path is_anchor_trusted,
    failure.ix < path.certificates.length := by
  have hlength : path.certificates.length = path.issuers.length + 1 := rfl
  refine ix_append (ix_append ?_ (ix_failureWhen ?_)) (ix_certificates processed_length_le)
  · intro failure hfailure
    rw [anchorFailures] at hfailure
    split_ifs at hfailure
    · exact absurd hfailure List.not_mem_nil
    all_goals
      rw [List.mem_singleton.mp hfailure]
      change path.certificates.length - 1 < _
      omega
  · change 0 < _
    omega
end

section
variable [DecidableEq Value] {pvc : OpaqueSecPVC Value Conditions}

/-- What is reported is the beginning of what may be, and all of it if the run is completed. -/
theorem reportUntilEnd_spec (failures : List (Failure Value)) :
    ∀ pvc : OpaqueSecPVC Value Conditions,
      (reportUntilEnd pvc failures).reported.IsPrefix failures ∧
        ((reportUntilEnd pvc failures).completed = true →
          (reportUntilEnd pvc failures).reported = failures) := by
  induction failures with
  | nil => exact fun _ => ⟨List.prefix_refl _, fun _ => rfl⟩
  | cons failure failures ih =>
    intro pvc
    rw [reportUntilEnd]
    dsimp only
    split_ifs
    · rcases ih (SecPVCSetResultForcedWithTrustResult pvc failure).2 with ⟨hbegins, hall⟩
      exact ⟨(List.prefix_cons_inj failure).mpr hbegins,
        fun hcompleted => congrArg (failure :: ·) (hall hcompleted)⟩
    · exact ⟨⟨failures, rfl⟩, fun h => absurd h not_false⟩

theorem reportUntilEnd_completed {failures : List (Failure Value)} {count : Nat}
    (hfailures : ∀ failure ∈ failures, failure.ix < count) :
    ∀ {pvc : OpaqueSecPVC Value Conditions},
      (∃ details, pvc.details = some details ∧ count ≤ details.length) →
      (reportUntilEnd pvc failures).completed = true := by
  induction failures with
  | nil => exact fun _ => rfl
  | cons failure failures ih =>
    rintro pvc ⟨details, hdetails, hcount⟩
    rcases List.forall_mem_cons.mp hfailures with ⟨hfailure, hrest⟩
    rw [reportUntilEnd]
    dsimp only
    rw [if_pos (setResult_continues hdetails (hfailure.trans_le hcount))]
    refine ih hrest ?_
    have hlength := (setResult_spec pvc failure).1.details
    rw [hdetails, Option.map_some, Option.map_eq_some_iff] at hlength
    rcases hlength with ⟨details', hdetails', hlength⟩
    exact ⟨details', hdetails', by omega⟩

/-- A failure of the path length is reported only where a constraint is exceeded; where one is, it
is reported unless an earlier report has ended the processing. No report ends it when details are
collected for every certificate. -/
theorem flagsPathLength_iff (kCFBooleanFalse : Value) (context : ProcessingContext)
    (path : BasicPath) (is_anchor_trusted : Bool) (pvc : OpaqueSecPVC Value Conditions) :
    let run := SecPolicyCheckBasicCertificateProcessing kCFBooleanFalse context path
      is_anchor_trusted pvc
    (FlagsPathLength run.reported → ExceedsPathLength path) ∧
      (run.completed = true → ExceedsPathLength path → FlagsPathLength run.reported) ∧
      ((∃ details, pvc.details = some details ∧ path.certificates.length ≤ details.length) →
        run.completed = true) := by
  dsimp only
  rw [SecPolicyCheckBasicCertificateProcessing]
  rcases reportUntilEnd_spec (basicFailures kCFBooleanFalse context path is_anchor_trusted) pvc with
    ⟨hbegins, hall⟩
  refine ⟨?_, ?_, reportUntilEnd_completed ix_basic⟩
  · rintro ⟨failure, hfailure, hkey⟩
    exact flags_basic.mp ⟨failure, hbegins.subset hfailure, hkey⟩
  · intro hcompleted hexceeds
    rw [hall hcompleted]
    exact flags_basic.mpr hexceeds
end

def certificateWithPathLength (pathLenConstraint : Option UInt32) : BasicCertificate where
  subject := []
  subjectAltName := none
  permittedSubtrees := none
  excludedSubtrees := none
  certificatePolicies := none
  policyMappings := none
  policyConstraints := none
  inhibitAnyPolicySkipCerts := none
  normalizedIssuer := none
  normalizedSubject := none
  basicConstraints := some ⟨true, pathLenConstraint⟩
  notBefore := 0
  notAfter := 0
  isWeakKey := false
  hasWeakSignature := false
  hasUnknownCriticalExtension := false
  isSelfSigned := some true

def pathWithIntermediate : BasicPath where
  leaf := certificateWithPathLength none
  issuers := [certificateWithPathLength none, certificateWithPathLength (some 0)]
  policy_tree := none
  policy_tree_verification_result := .kSecPolicyTreeVerificationTrue
  count_le := by decide

def sampleContext : ProcessingContext where
  strings := ⟨fun string other => decide (string = other), 0⟩
  der := LibDER.sample
  describe := fun _ _ => none
  dictionaryOrder := id
  verify_time := 0

/-- The report about the anchor, which is not trusted, ends the processing. -/
theorem untrustedAnchor_ends :
    ExceedsPathLength pathWithIntermediate ∧
      ¬ FlagsPathLength (SecPolicyCheckBasicCertificateProcessing false sampleContext
        pathWithIntermediate false (freshPVC Bool Unit)).reported := by
  refine ⟨⟨[certificateWithPathLength none], certificateWithPathLength (some 0), [], 0, rfl, rfl,
    by decide⟩, ?_⟩
  have hreported : (SecPolicyCheckBasicCertificateProcessing false sampleContext
      pathWithIntermediate false (freshPVC Bool Unit)).reported =
        [forcedFailure false "AnchorTrusted" 2] := rfl
  rw [hreported]
  rintro ⟨failure, hfailure, hkey⟩
  rw [List.mem_singleton.mp hfailure] at hkey
  exact absurd hkey (by decide)
end SecurityFramework.Trustd
