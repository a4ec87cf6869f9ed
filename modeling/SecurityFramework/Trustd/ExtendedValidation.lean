import SecurityFramework.Trustd.PolicyResults
import SecurityFramework.Trustd.PolicyTree

/-!
# Extended validation

A chain is one of extended validation when a policy of its leaf is that of a registered anchor, and
is asserted by all certificates in between.
-/

namespace SecurityFramework.Trustd
open SecTrustResultType

inductive SecKeyAlgorithm
  | kSecRSAAlgorithmID | kSecECDSAAlgorithmID | other
  deriving DecidableEq

structure EVCertificate where
  certificatePolicies : Option (List oid_t)
  crlDistributionPoints : Option Nat
  /-- Whether the basic constraints are those of a CA, if there are any. -/
  basicConstraints : Option Bool
  keyUsage : UInt32
  publicKeyAlgorithm : SecKeyAlgorithm
  publicKeySize : Nat
  notValidBefore : Rat
  notValidAfter : Rat
  version : Nat
  signatureHashAlgorithm : Nat
  sha1Digest : List UInt8

def kSecKeyUsageKeyCertSign : UInt32 := 0x20

def kSecKeyUsageCRLSign : UInt32 := 0x40

def kSecSignatureHashAlgorithmSHA1 : Nat := 4

def policies_for_cert (cert : EVCertificate) : policy_set_t :=
  (cert.certificatePolicies.getD []).foldl policy_set_add []

/-- The sizes are in bits, that of the key is in bytes. -/
def SecCertificateIsAtLeastMinKeySize (certificate : EVCertificate) (rsaSize ecSize : Nat) : Bool :=
  match certificate.publicKeyAlgorithm with
  | .kSecRSAAlgorithmID => decide (certificate.publicKeySize ≥ (rsaSize + 7) / 8)
  | .kSecECDSAAlgorithmID => decide (certificate.publicKeySize ≥ (ecSize + 7) / 8)
  | .other => false

def hasCAKeyUsage (certificate : EVCertificate) : Bool :=
  decide (certificate.keyUsage &&& (kSecKeyUsageKeyCertSign ||| kSecKeyUsageCRLSign) =
    kSecKeyUsageKeyCertSign ||| kSecKeyUsageCRLSign)

abbrev EVPolicyToAnchorMapping := oid_t → Option (List (List UInt8))

attribute [local instance] DER.lawfulBEq_octets in
def isRegisteredAnchor (anchors : EVPolicyToAnchorMapping) (certificate : EVCertificate)
    (oid : oid_t) : Bool :=
  decide (certificate.sha1Digest ∈ (anchors oid).getD [])

def SecPolicyRootCACertificateIsEV (anchors : EVPolicyToAnchorMapping)
    (certificate : EVCertificate) (valid_policies : policy_set_t) : Bool :=
  let october2006 : Rat := 178761600
  valid_policies.any (isRegisteredAnchor anchors certificate) &&
    (!decide (certificate.notValidBefore ≥ october2006) || decide (certificate.version ≥ 3)) &&
    (!(decide (certificate.version ≥ 3) && decide (certificate.notValidBefore ≥ october2006)) ||
      (decide (certificate.basicConstraints = some true) && hasCAKeyUsage certificate)) &&
    SecCertificateIsAtLeastMinKeySize certificate 2048 256

def SecPolicySubordinateCACertificateCouldBeEV (certificate : EVCertificate) : Bool :=
  let jan2011 : Rat := 315532800
  let jan2014 : Rat := 410227200
  let jan2016 : Rat := 473299200
  decide (0 < (certificate.certificatePolicies.getD []).length) &&
    decide (0 < certificate.crlDistributionPoints.getD 0) &&
    decide (certificate.basicConstraints = some true) && hasCAKeyUsage certificate &&
    (if certificate.notValidBefore < jan2011 ∨ certificate.notValidAfter < jan2014 then
      SecCertificateIsAtLeastMinKeySize certificate 1024 256
    else SecCertificateIsAtLeastMinKeySize certificate 2048 256) &&
    (!decide (certificate.notValidBefore > jan2016) ||
      decide (certificate.signatureHashAlgorithm > kSecSignatureHashAlgorithmSHA1))

variable {Value Conditions : Type*} [DecidableEq Value] (kCFBooleanFalse : Value)

/-- A failure at `ix`, if there is one. The check ends where `SecPVCSetResultForced` is true. -/
def evCheck (pvc : OpaqueSecPVC Value Conditions) (ix : Nat) (failed : Bool)
    (next : OpaqueSecPVC Value Conditions → Option (OpaqueSecPVC Value Conditions)) :
    Option (OpaqueSecPVC Value Conditions) :=
  if failed then
    let (reported, pvc) := SecPVCSetResultForcedWithTrustResult pvc
      ⟨"ExtendedValidation", ix, kCFBooleanFalse, true, kSecTrustResultInvalid⟩
    if reported then some pvc else next pvc
  else next pvc

/-- The root is not looked at unless it comes after the subscriber. -/
def evCertificateFails (anchors : EVPolicyToAnchorMapping) (count ix : Nat) (cert : EVCertificate)
    (valid_policies : policy_set_t) : Bool :=
  if ix = 0 then false
  else if ix < count - 1 then !SecPolicySubordinateCACertificateCouldBeEV cert
  else !SecPolicyRootCACertificateIsEV anchors cert valid_policies

def evPolicies (count ix : Nat) (cert : EVCertificate) (valid_policies : policy_set_t) :
    Option policy_set_t :=
  if ix = 0 then
    if policy_set_contains (policies_for_cert cert) oidAnyPolicy then some valid_policies
    else some (policies_for_cert cert)
  else if ix < count - 1 then policy_set_intersect valid_policies (policies_for_cert cert)
  else some valid_policies

def evCertificates (anchors : EVPolicyToAnchorMapping) (count : Nat) :
    Nat → List EVCertificate → policy_set_t → OpaqueSecPVC Value Conditions →
      Option (OpaqueSecPVC Value Conditions)
  | _, [], _, pvc => some pvc
  | ix, cert :: certs, valid_policies, pvc =>
    evCheck kCFBooleanFalse pvc ix (evCertificateFails anchors count ix cert valid_policies)
      fun pvc =>
        match evPolicies count ix cert valid_policies with
        | none => none
        | some valid_policies =>
          evCheck kCFBooleanFalse pvc ix (decide (valid_policies = []))
            (evCertificates anchors count (ix + 1) certs valid_policies)

/-- A root may not sign a subscriber's certificate after 30 June 2016. -/
def isSignedByRoot (chain : List EVCertificate) : Bool :=
  let jul2016 : Rat := 489024000
  match chain with
  | [] => false
  | leaf :: _ => decide (leaf.notValidBefore > jul2016) && decide (chain.length < 3)

def SecPolicyCheckEV (anchors : EVPolicyToAnchorMapping) (chain : List EVCertificate)
    (pvc : OpaqueSecPVC Value Conditions) : Option (OpaqueSecPVC Value Conditions) :=
  evCheck kCFBooleanFalse pvc 0 (isSignedByRoot chain)
    (evCertificates kCFBooleanFalse anchors chain.length 0 chain [])

def Asserts (cert : EVCertificate) (oid : oid_t) : Prop :=
  oid ∈ cert.certificatePolicies.getD []

structure IsEVPolicy (anchors : EVPolicyToAnchorMapping) (leaf : EVCertificate)
    (rest : List EVCertificate) (oid : oid_t) : Prop where
  subscriber : Asserts leaf oid
  anchor : isRegisteredAnchor anchors ((leaf :: rest).getLast (List.cons_ne_nil _ _)) oid = true
  intermediates : ∀ cert ∈ rest.dropLast, Asserts cert oid ∨ Asserts cert oidAnyPolicy

/-- There are no exceptions, and trust settings allow no errors. -/
structure NoAllowances (pvc : OpaqueSecPVC Value Conditions) : Prop where
  exceptions : pvc.builder.exceptions = none
  allowedErrors : ∀ ix constraint, some constraint ∈ pvc.builder.usageConstraints ix →
    constraint.allowedError = none

/-- The result stays fine for chains of extended validation only. -/
def EVSound (Conditions : Type*) (anchors : EVPolicyToAnchorMapping) (leaf : EVCertificate)
    (rest : List EVCertificate) : Prop :=
  ∀ pvc pvc' : OpaqueSecPVC Value Conditions, NoAllowances pvc →
    SecPolicyCheckEV kCFBooleanFalse anchors (leaf :: rest) pvc = some pvc' →
    SecPVCIsOkResult pvc' = true → ∃ oid, IsEVPolicy anchors leaf rest oid

variable {kCFBooleanFalse} {anchors : EVPolicyToAnchorMapping}
  {pvc pvc' : OpaqueSecPVC Value Conditions}

theorem mem_policies_for_cert {cert : EVCertificate} {oid : oid_t} :
    oid ∈ policies_for_cert cert ↔ Asserts cert oid := by
  have hfold : ∀ (policies set : List oid_t),
      oid ∈ policies.foldl policy_set_add set ↔ oid ∈ policies ∨ oid ∈ set := by
    intro policies
    induction policies with
    | nil => simp
    | cons policy policies ih =>
      intro set
      rw [List.foldl_cons, ih, policy_set_add, List.mem_cons, List.mem_cons]
      tauto
  rw [policies_for_cert, hfold, Asserts, or_iff_left List.not_mem_nil]

/-- Without `anyPolicy` in the first set the intersection is what it should be. -/
theorem intersect_spec {set other : policy_set_t} (hany : oidAnyPolicy ∉ set) :
    ∃ set', policy_set_intersect set other = some set' ∧
      ∀ oid, oid ∈ set' ↔ oid ∈ set ∧ (oid ∈ other ∨ oidAnyPolicy ∈ other) := by
  have hset : policy_set_contains set oidAnyPolicy = false := decide_eq_false hany
  rw [policy_set_intersect, hset, if_neg Bool.false_ne_true]
  by_cases hother : oidAnyPolicy ∈ other
  · refine ⟨set, by simp [policy_set_contains, hother], fun oid => ?_⟩
    simp [hother]
  · refine ⟨set.filter (policy_set_contains other), ?_, fun oid => ?_⟩
    · simp [policy_set_contains, hother]
    · simp [policy_set_contains, hother]

variable (kCFBooleanFalse) in
theorem setResult_failing (hpvc : NoAllowances pvc) (ix : Nat) :
    SecPVCIsOkResult (SecPVCSetResultForcedWithTrustResult pvc
      ⟨"ExtendedValidation", ix, kCFBooleanFalse, true, kSecTrustResultInvalid⟩).2 = false := by
  generalize hfailure : (⟨"ExtendedValidation", ix, kCFBooleanFalse, true,
    kSecTrustResultInvalid⟩ : Failure Value) = failure
  have hrecoverable : failure.trustResult = kSecTrustResultRecoverableTrustFailure := by
    rw [← hfailure]
    rfl
  have hallowed : SecPVCIsAllowedError pvc failure.ix failure.key = false := by
    rw [SecPVCIsAllowedError, List.any_eq_false]
    rintro (_ | constraint) hconstraint
    · exact Bool.false_ne_true
    · simp [hpvc.allowedErrors _ constraint hconstraint]
  have hstands : Stands pvc failure := by
    refine ⟨by rw [← hfailure]; rfl, fun _ => ⟨hallowed, ?_⟩⟩
    rw [SecPVCIsExceptedError, hpvc.exceptions]
  rw [isOkResult_eq, (setResult_spec pvc _).2, judge_eq_failed_iff.mpr hstands, hrecoverable, effect,
    worsen]
  cases hok : okResult pvc.result with
  | true => rfl
  | false => simpa using hok

section
variable {next : OpaqueSecPVC Value Conditions → Option (OpaqueSecPVC Value Conditions)}

theorem evCheck_failing {ix : Nat} {failed : Bool}
    (hnext : ∀ pvc, SecPVCIsOkResult pvc = false → next pvc = some pvc' →
      SecPVCIsOkResult pvc' = false)
    (hfailing : SecPVCIsOkResult pvc = false)
    (hcheck : evCheck kCFBooleanFalse pvc ix failed next = some pvc') :
    SecPVCIsOkResult pvc' = false := by
  rw [evCheck] at hcheck
  dsimp only at hcheck
  have hreport : SecPVCIsOkResult (SecPVCSetResultForcedWithTrustResult pvc
      ⟨"ExtendedValidation", ix, kCFBooleanFalse, true, kSecTrustResultInvalid⟩).2 = false := by
    rw [isOkResult_eq, (setResult_spec pvc _).2]
    exact okResult_effect_of_failing _ hfailing
  split_ifs at hcheck
  · rw [← Option.some.inj hcheck]
    exact hreport
  · exact hnext _ hreport hcheck
  · exact hnext _ hfailing hcheck

theorem evCheck_ok {ix : Nat} {failed : Bool} (hpvc : NoAllowances pvc)
    (hnext : ∀ pvc, SecPVCIsOkResult pvc = false → next pvc = some pvc' →
      SecPVCIsOkResult pvc' = false)
    (hcheck : evCheck kCFBooleanFalse pvc ix failed next = some pvc')
    (hok : SecPVCIsOkResult pvc' = true) : failed = false ∧ next pvc = some pvc' := by
  cases failed with
  | false => exact ⟨rfl, hcheck⟩
  | true =>
    have hreport := setResult_failing kCFBooleanFalse hpvc ix
    have hfailing : SecPVCIsOkResult pvc' = false := by
      rw [evCheck, if_pos rfl] at hcheck
      dsimp only at hcheck
      split_ifs at hcheck
      · rw [← Option.some.inj hcheck]
        exact hreport
      · exact hnext _ hreport hcheck
    exact absurd (hok.symm.trans hfailing) (by decide)
end

variable {certs : List EVCertificate}

theorem evCertificates_failing {count : Nat} :
    ∀ (ix : Nat) (valid : policy_set_t) (pvc : OpaqueSecPVC Value Conditions),
      SecPVCIsOkResult pvc = false →
      evCertificates kCFBooleanFalse anchors count ix certs valid pvc = some pvc' →
      SecPVCIsOkResult pvc' = false := by
  induction certs with
  | nil =>
    intro ix valid pvc hfailing hrun
    rw [← Option.some.inj hrun]
    exact hfailing
  | cons cert certs ih =>
    intro ix valid pvc hfailing hrun
    rw [evCertificates] at hrun
    refine evCheck_failing ?_ hfailing hrun
    intro pvc hfailing hnext
    cases hpolicies : evPolicies count ix cert valid with
    | none => simp [hpolicies] at hnext
    | some valid' =>
      simp only [hpolicies] at hnext
      exact evCheck_failing (ih (ix + 1) valid') hfailing hnext

theorem evCertificates_step {count ix : Nat} {cert : EVCertificate} {valid : policy_set_t}
    (hpvc : NoAllowances pvc)
    (hrun : evCertificates kCFBooleanFalse anchors count ix (cert :: certs) valid pvc = some pvc')
    (hok : SecPVCIsOkResult pvc' = true) :
    evCertificateFails anchors count ix cert valid = false ∧
      ∃ valid', evPolicies count ix cert valid = some valid' ∧ valid' ≠ [] ∧
        evCertificates kCFBooleanFalse anchors count (ix + 1) certs valid' pvc = some pvc' := by
  rw [evCertificates] at hrun
  have hrest : ∀ pvc, SecPVCIsOkResult pvc = false →
      (match evPolicies count ix cert valid with
      | none => none
      | some valid =>
        evCheck kCFBooleanFalse pvc ix (decide (valid = []))
          (evCertificates kCFBooleanFalse anchors count (ix + 1) certs valid)) = some pvc' →
      SecPVCIsOkResult pvc' = false := by
    intro pvc hfailing hnext
    cases hpolicies : evPolicies count ix cert valid with
    | none => simp [hpolicies] at hnext
    | some valid' =>
      simp only [hpolicies] at hnext
      exact evCheck_failing (evCertificates_failing (ix + 1) valid') hfailing hnext
  rcases evCheck_ok hpvc hrest hrun hok with ⟨hfails, hnext⟩
  refine ⟨hfails, ?_⟩
  cases hpolicies : evPolicies count ix cert valid with
  | none => simp [hpolicies] at hnext
  | some valid' =>
    simp only [hpolicies] at hnext
    rcases evCheck_ok hpvc (evCertificates_failing (ix + 1) valid') hnext hok with ⟨hempty, hrun'⟩
    exact ⟨valid', rfl, of_decide_eq_false hempty, hrun'⟩

/-- After the subscriber the valid policies are narrowed, and the root is an anchor for one that is
left. -/
theorem evCertificates_sound {count : Nat} (hpvc : NoAllowances pvc)
    (hok : SecPVCIsOkResult pvc' = true) :
    ∀ {ix : Nat} {valid : policy_set_t} (hne : certs ≠ []), 0 < ix → count = ix + certs.length →
      oidAnyPolicy ∉ valid →
      evCertificates kCFBooleanFalse anchors count ix certs valid pvc = some pvc' →
      ∃ oid ∈ valid, isRegisteredAnchor anchors (certs.getLast hne) oid = true ∧
        ∀ cert ∈ certs.dropLast, Asserts cert oid ∨ Asserts cert oidAnyPolicy := by
  induction certs with
  | nil => exact fun hne => absurd rfl hne
  | cons cert certs ih =>
    intro ix valid hne hpos hcount hany hrun
    rcases evCertificates_step hpvc hrun hok with ⟨hfails, valid', hpolicies, -, hrun'⟩
    rw [evCertificateFails, if_neg hpos.ne'] at hfails
    rw [evPolicies, if_neg hpos.ne'] at hpolicies
    cases certs with
    | nil =>
      have hlast : ¬ ix < count - 1 := by
        rw [hcount, List.length_singleton]
        omega
      rw [if_neg hlast, Bool.not_eq_false', SecPolicyRootCACertificateIsEV] at hfails
      simp only [Bool.and_eq_true] at hfails
      rcases List.any_eq_true.mp hfails.1.1.1 with ⟨oid, hoid, hanchor⟩
      exact ⟨oid, hoid, hanchor, fun cert hcert => nomatch hcert⟩
    | cons cert' certs =>
      have hmiddle : ix < count - 1 := by
        rw [hcount, List.length_cons, List.length_cons]
        omega
      rw [if_pos hmiddle] at hpolicies
      rcases intersect_spec hany with ⟨set', hset', hmem⟩
      rw [hset'] at hpolicies
      rw [← Option.some.inj hpolicies] at hrun'
      have hany' : oidAnyPolicy ∉ set' := fun h => hany ((hmem _).mp h).1
      have hcount' : count = ix + 1 + (cert' :: certs).length := by
        rw [hcount, List.length_cons]
        omega
      rcases ih (List.cons_ne_nil _ _) ix.succ_pos hcount' hany' hrun' with
        ⟨oid, hoid, hanchor, hcerts⟩
      rcases (hmem oid).mp hoid with ⟨hvalid, hcert⟩
      rw [mem_policies_for_cert, mem_policies_for_cert] at hcert
      refine ⟨oid, hvalid, by rwa [List.getLast_cons], ?_⟩
      rw [List.dropLast_cons_of_ne_nil (List.cons_ne_nil _ _)]
      exact List.forall_mem_cons.mpr ⟨hcert, hcerts⟩

omit [DecidableEq Value] in
theorem freshPVC_noAllowances : NoAllowances (freshPVC Value Conditions) where
  exceptions := rfl
  allowedErrors _ _ h := nomatch h

/-- The check of a single certificate reports nothing unless it has no proper policies, or is too
recent. -/
theorem checkEV_single {leaf : EVCertificate}
    (hdate : isSignedByRoot [leaf] = false) (hpolicies : leaf.certificatePolicies.getD [] ≠ [])
    (hany : ¬ Asserts leaf oidAnyPolicy) :
    SecPolicyCheckEV kCFBooleanFalse anchors [leaf] pvc = some pvc := by
  have hset : policy_set_contains (policies_for_cert leaf) oidAnyPolicy = false :=
    decide_eq_false (mt mem_policies_for_cert.mp hany)
  have hnonempty : policies_for_cert leaf ≠ [] := by
    rcases List.exists_mem_of_ne_nil _ hpolicies with ⟨oid, hoid⟩
    exact List.ne_nil_of_mem (mem_policies_for_cert.mpr hoid)
  rw [SecPolicyCheckEV, hdate, evCheck, if_neg Bool.false_ne_true, evCertificates,
    evCertificateFails, if_pos rfl, evCheck, if_neg Bool.false_ne_true, evPolicies, if_pos rfl, hset,
    if_neg Bool.false_ne_true]
  dsimp only
  rw [decide_eq_false hnonempty, evCheck, if_neg Bool.false_ne_true, evCertificates]

theorem checkEV_ok {leaf : EVCertificate} {rest : List EVCertificate} (hpvc : NoAllowances pvc)
    (hrun : SecPolicyCheckEV kCFBooleanFalse anchors (leaf :: rest) pvc = some pvc')
    (hok : SecPVCIsOkResult pvc' = true) :
    isSignedByRoot (leaf :: rest) = false ∧ ¬ Asserts leaf oidAnyPolicy ∧
      policies_for_cert leaf ≠ [] ∧
      evCertificates kCFBooleanFalse anchors (leaf :: rest).length 1 rest (policies_for_cert leaf)
        pvc = some pvc' := by
  rcases evCheck_ok hpvc (evCertificates_failing _ _) hrun hok with ⟨hdate, hloop⟩
  rcases evCertificates_step hpvc hloop hok with ⟨-, valid', hvalid', hne, hrest⟩
  rw [evPolicies, if_pos rfl] at hvalid'
  split_ifs at hvalid' with hany
  · exact absurd (Option.some.inj hvalid').symm hne
  · rw [← Option.some.inj hvalid'] at hne hrest
    refine ⟨hdate, fun h => hany (decide_eq_true (mem_policies_for_cert.mpr h)), hne, hrest⟩

def selfSignedWithPolicy : EVCertificate where
  certificatePolicies := some [[0x2A, 0x03]]
  crlDistributionPoints := none
  basicConstraints := none
  keyUsage := 0
  publicKeyAlgorithm := .kSecRSAAlgorithmID
  publicKeySize := 256
  notValidBefore := 284000000
  notValidAfter := 600000000
  version := 3
  signatureHashAlgorithm := 6
  sha1Digest := List.replicate 20 0

end SecurityFramework.Trustd
