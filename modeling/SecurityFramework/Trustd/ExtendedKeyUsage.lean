import SecurityFramework.Sec.SecDNSMatch
import SecurityFramework.Trustd.PolicyResults

/-!
# Extended key usage

A policy names the extended key usages it accepts as OIDs, as dotted strings or as an array of both.
-/

namespace SecurityFramework.Trustd
open Sec

inductive EKUValue
  | data (octets : List UInt8)
  | string (dotted : CFString)
  | other
  deriving DecidableEq

inductive EKUOption
  | value (value : EKUValue)
  | array (values : List EKUValue)
  deriving DecidableEq

def oidAnyExtendedKeyUsage : List UInt8 := [0x55, 0x1D, 0x25, 0x00]

def oidExtendedKeyUsageOCSPSigning : List UInt8 := [0x2B, 0x06, 0x01, 0x05, 0x05, 0x07, 0x03, 0x09]

def isDecimalDigit (unit : UInt16) : Bool := decide (0x30 ≤ unit.toNat ∧ unit.toNat ≤ 0x39)

def SecCertificateIsOidString (oid : CFString) : Bool :=
  decide (2 < oid.length) && oid.all (fun unit => isDecimalDigit unit || decide (unit = dot)) &&
    decide (oid.tail.head? = some dot) && decide (oid.head? ∈ [some 0x30, some 0x31, some 0x32])

def SInt32Max : Nat := 2 ^ 31 - 1

/-- A number that is too large is read as the largest one. -/
def GetDecimalValueOfString (string : CFString) : Option Nat :=
  if string.length > 0 ∧ string.all isDecimalDigit then
    some (min SInt32Max (string.foldl (fun number unit => 10 * number + (unit.toNat - 0x30)) 0))
  else none

def oidPart (x : Nat) : List UInt8 :=
  let b : List UInt8 := [0x80 ||| (x / 2 ^ 28 % 128).toUInt8, 0x80 ||| (x / 2 ^ 21 % 128).toUInt8,
    0x80 ||| (x / 2 ^ 14 % 128).toUInt8, 0x80 ||| (x / 2 ^ 7 % 128).toUInt8, (x % 128).toUInt8]
  b.dropWhile fun byte => decide (byte = 0x80)

/-- The loop ends at the first part that is no number. -/
def oidParts : List CFString → List UInt8
  | [] => []
  | part :: parts =>
    match GetDecimalValueOfString part with
    | none => []
    | some x => oidPart x ++ oidParts parts

def appendSecondPart (firstByte : UInt8) : List CFString → Option (List UInt8)
  | [] => some [firstByte]
  | part :: parts =>
    match GetDecimalValueOfString part with
    | none => none
    | some x => if x > 39 then none else some ((firstByte + x.toUInt8) :: oidParts parts)

def SecCertificateCreateOidDataFromString (string : CFString) : Option (List UInt8) :=
  if SecCertificateIsOidString string then
    match CFStringCreateArrayBySeparatingStrings string with
    | [] => none
    | part :: parts =>
      match GetDecimalValueOfString part with
      | none => none
      | some x => if x > 6 then none else appendSecondPart (x * 40).toUInt8 parts
  else none

/-- The usages of a certificate; `none` without an extension. -/
abbrev CertificateEKUs := Option (List (List UInt8))

attribute [local instance] DER.lawfulBEq_octets in
def extendedkeyusage_allows (extendedKeyUsage : CertificateEKUs) (xeku : List UInt8)
    (allowNoOrAnyEKU : Bool) : Bool :=
  if !allowNoOrAnyEKU && decide (xeku = oidAnyExtendedKeyUsage) then false
  else
    match extendedKeyUsage with
    | some extendedKeyUsage => decide (xeku ∈ extendedKeyUsage)
    | none => if allowNoOrAnyEKU then decide (xeku.length = 0) else false

def isExtendedKeyUsageAllowed (extendedKeyUsage : CertificateEKUs) (xeku : EKUValue)
    (allowNoOrAnyEKU : Bool) : Bool :=
  match xeku with
  | .data octets => extendedkeyusage_allows extendedKeyUsage octets allowNoOrAnyEKU
  | .string dotted =>
    match SecCertificateCreateOidDataFromString dotted with
    | some eku => extendedkeyusage_allows extendedKeyUsage eku allowNoOrAnyEKU
    | none => false
  | .other => false

def SecPolicyCheckCertExtendedKeyUsageFiltered (cert : CertificateEKUs) (pvcValue : EKUOption)
    (allowNoOrAnyEKU : Bool) : Bool :=
  match pvcValue with
  | .array values => values.any fun eku => isExtendedKeyUsageAllowed cert eku allowNoOrAnyEKU
  | .value xeku => isExtendedKeyUsageAllowed cert xeku allowNoOrAnyEKU

def SecPolicyCheckCertExtendedKeyUsage (cert : CertificateEKUs) (pvcValue : EKUOption) : Bool :=
  SecPolicyCheckCertExtendedKeyUsageFiltered cert pvcValue true

structure TrustAnalyticsBuilder where
  no_eku : Bool
  multipurpose_eku : Bool

def anyEKU : EKUOption :=
  .value (.string [0x32, 0x2E, 0x35, 0x2E, 0x32, 0x39, 0x2E, 0x33, 0x37, 0x2E, 0x30])

def SecPVCSetResult (key : String) (ix : Nat) : Failure Bool :=
  ⟨key, ix, false, false, .kSecTrustResultInvalid⟩

def ocspEKU (xeku : EKUOption) : Bool :=
  match xeku with
  | .value (.data octets) =>
    decide (octets.length = oidExtendedKeyUsageOCSPSigning.length) &&
      decide (octets ≠ oidExtendedKeyUsageOCSPSigning)
  | _ => false

def hasUnacceptedEKUs (cert : CertificateEKUs) (xeku : EKUOption) : Bool :=
  decide (0 < (cert.getD []).length) && !SecPolicyCheckCertExtendedKeyUsage cert anyEKU &&
    !SecPolicyCheckCertExtendedKeyUsage cert xeku

def noteEKUs (leaf : CertificateEKUs) (xeku : EKUOption) (analytics : TrustAnalyticsBuilder) :
    TrustAnalyticsBuilder where
  no_eku := analytics.no_eku || (SecPolicyCheckCertExtendedKeyUsageFiltered leaf xeku true &&
    !SecPolicyCheckCertExtendedKeyUsageFiltered leaf xeku false)
  multipurpose_eku := analytics.multipurpose_eku || decide (1 < (leaf.getD []).length)

def subCAs (count : Nat) : List Nat := if 2 < count then List.range' 1 (count - 2) else []

def SecPolicyCheckExtendedKeyUsage (chain : List CertificateEKUs) (xeku : EKUOption)
    (analytics : Option TrustAnalyticsBuilder) (key : String) :
    List (Failure Bool) × Option TrustAnalyticsBuilder :=
  let leaf := chain[0]?.join
  let leafFailures :=
    if SecPolicyCheckCertExtendedKeyUsageFiltered leaf xeku true then [] else [SecPVCSetResult key 0]
  let subCAFailures :=
    if ocspEKU xeku then []
    else ((subCAs chain.length).filter fun ix => hasUnacceptedEKUs chain[ix]?.join xeku).map
      (SecPVCSetResult key)
  (leafFailures ++ subCAFailures, analytics.map (noteEKUs leaf xeku))

def EKUValue.oid : EKUValue → Option (List UInt8)
  | .data octets => some octets
  | .string dotted => SecCertificateCreateOidDataFromString dotted
  | .other => none

def EKUOption.accepted : EKUOption → List (List UInt8)
  | .value xeku => xeku.oid.toList
  | .array values => values.filterMap EKUValue.oid

/-- The policy's usage is OCSP signing, however it is written. -/
def EKUOption.IsOCSPSigning (xeku : EKUOption) : Prop :=
  xeku.accepted ≠ [] ∧ ∀ eku ∈ xeku.accepted, eku = oidExtendedKeyUsageOCSPSigning

/-- The certificate has usages, but neither any usage nor one that the policy accepts. An extension
without usages is no proper one. -/
def LacksUsage (xeku : EKUOption) (cert : CertificateEKUs) : Prop :=
  ∃ ekus, cert = some ekus ∧ ekus ≠ [] ∧ oidAnyExtendedKeyUsage ∉ ekus ∧
    ∀ eku ∈ xeku.accepted, eku ∉ ekus

def IsSubCA (chain : List CertificateEKUs) (ix : Nat) (cert : CertificateEKUs) : Prop :=
  0 < ix ∧ ix + 1 < chain.length ∧ chain[ix]? = some cert

/-- A failure is reported for the sub-CAs that lack a usage, but for none when the policy's usage is
OCSP signing. -/
def EnforcedOnSubCAs (chain : List CertificateEKUs) (xeku : EKUOption) : Prop :=
  ∀ analytics key ix cert, IsSubCA chain ix cert →
    (SecPVCSetResult key ix ∈ (SecPolicyCheckExtendedKeyUsage chain xeku analytics key).1 ↔
      LacksUsage xeku cert ∧ ¬ xeku.IsOCSPSigning)

variable {xeku : EKUOption} {chain : List CertificateEKUs}

theorem isExtendedKeyUsageAllowed_iff {ekus : List (List UInt8)} {value : EKUValue} :
    isExtendedKeyUsageAllowed (some ekus) value true = true ↔ ∃ eku ∈ value.oid, eku ∈ ekus := by
  cases value with
  | data octets => simp [isExtendedKeyUsageAllowed, extendedkeyusage_allows, EKUValue.oid]
  | string dotted =>
    rw [isExtendedKeyUsageAllowed, EKUValue.oid]
    cases SecCertificateCreateOidDataFromString dotted with
    | none => simp
    | some eku => simp [extendedkeyusage_allows]
  | other => simp [isExtendedKeyUsageAllowed, EKUValue.oid]

theorem checkCertExtendedKeyUsage_iff {ekus : List (List UInt8)} :
    SecPolicyCheckCertExtendedKeyUsage (some ekus) xeku = true ↔
      ∃ eku ∈ xeku.accepted, eku ∈ ekus := by
  rw [SecPolicyCheckCertExtendedKeyUsage]
  cases xeku with
  | value value =>
    simp [SecPolicyCheckCertExtendedKeyUsageFiltered, isExtendedKeyUsageAllowed_iff,
      EKUOption.accepted]
  | array values =>
    simp only [SecPolicyCheckCertExtendedKeyUsageFiltered, List.any_eq_true,
      isExtendedKeyUsageAllowed_iff, EKUOption.accepted, List.mem_filterMap, Option.mem_def]
    constructor
    · rintro ⟨value, hvalue, eku, hoid, heku⟩
      exact ⟨eku, ⟨value, hvalue, hoid⟩, heku⟩
    · rintro ⟨eku, ⟨value, hvalue, hoid⟩, heku⟩
      exact ⟨value, hvalue, eku, hoid, heku⟩

theorem accepted_anyEKU : anyEKU.accepted = [oidAnyExtendedKeyUsage] := by decide +kernel

theorem hasUnacceptedEKUs_iff {cert : CertificateEKUs} :
    hasUnacceptedEKUs cert xeku = true ↔ LacksUsage xeku cert := by
  cases cert with
  | none => simp [hasUnacceptedEKUs, LacksUsage]
  | some ekus =>
    have hany : SecPolicyCheckCertExtendedKeyUsage (some ekus) anyEKU = true ↔
        oidAnyExtendedKeyUsage ∈ ekus := by
      simp [checkCertExtendedKeyUsage_iff, accepted_anyEKU]
    have hpolicy : SecPolicyCheckCertExtendedKeyUsage (some ekus) xeku = true ↔
        ∃ eku ∈ xeku.accepted, eku ∈ ekus := checkCertExtendedKeyUsage_iff
    simp only [hasUnacceptedEKUs, LacksUsage, Bool.and_eq_true, decide_eq_true_iff,
      Bool.not_eq_true', ← Bool.not_eq_true, hany, hpolicy, Option.getD_some,
      List.length_pos_iff, Option.some.injEq, exists_eq_left', and_assoc, not_exists, not_and]

theorem mem_subCAs {count ix : Nat} : ix ∈ subCAs count ↔ 0 < ix ∧ ix + 1 < count := by
  rw [subCAs]
  split_ifs with hcount
  · rw [List.mem_range'_1]
    omega
  · simp only [List.not_mem_nil, false_iff]
    omega

theorem mem_checkExtendedKeyUsage {analytics : Option TrustAnalyticsBuilder} {key : String}
    {ix : Nat} {cert : CertificateEKUs} (hcert : IsSubCA chain ix cert) :
    SecPVCSetResult key ix ∈ (SecPolicyCheckExtendedKeyUsage chain xeku analytics key).1 ↔
      LacksUsage xeku cert ∧ ocspEKU xeku = false := by
  rcases hcert with ⟨hpos, hbelow, hget⟩
  have hinjective : ∀ other, SecPVCSetResult key other = SecPVCSetResult key ix ↔ other = ix := by
    intro other
    simp [SecPVCSetResult]
  have hleaf : SecPVCSetResult key ix ∉
      if SecPolicyCheckCertExtendedKeyUsageFiltered chain[0]?.join xeku true then []
      else [SecPVCSetResult key 0] := by
    split_ifs
    · exact List.not_mem_nil
    · rw [List.mem_singleton, eq_comm, hinjective]
      omega
  rw [SecPolicyCheckExtendedKeyUsage]
  dsimp only
  rw [List.mem_append, or_iff_right hleaf]
  cases ocspEKU xeku with
  | true => simp
  | false =>
    simp [hinjective, mem_subCAs, hpos, hbelow, hget, hasUnacceptedEKUs_iff]

theorem ocspEKU_eq_false (h : xeku.IsOCSPSigning) : ocspEKU xeku = false := by
  match xeku, h with
  | .value (.data octets), h =>
    have hocsp := h.2 octets (by simp [EKUOption.accepted, EKUValue.oid])
    simp [ocspEKU, hocsp]
  | .value (.string _), _ | .value .other, _ | .array _, _ => rfl

/-- Any other usage of the same length is exempted. -/
theorem ocspEKU_eq_true_iff (h : ¬ xeku.IsOCSPSigning) :
    ocspEKU xeku = true ↔
      ∃ octets, xeku = .value (.data octets) ∧
        octets.length = oidExtendedKeyUsageOCSPSigning.length := by
  match xeku, h with
  | .value (.data octets), h =>
    have hne : octets ≠ oidExtendedKeyUsageOCSPSigning := by
      intro hocsp
      refine h ⟨by simp [EKUOption.accepted, EKUValue.oid], fun eku heku => ?_⟩
      simpa [EKUOption.accepted, EKUValue.oid, hocsp] using heku
    simp [ocspEKU, hne]
  | .value (.string _), _ | .value .other, _ | .array _, _ => simp [ocspEKU]

/-- The check is as described exactly when no sub-CA lacks a usage, or when the policy's usage is
neither OCSP signing nor an OID of the same length that is given as data. -/
theorem enforcedOnSubCAs_iff (chain : List CertificateEKUs) (xeku : EKUOption) :
    EnforcedOnSubCAs chain xeku ↔
      (∀ ix cert, IsSubCA chain ix cert → ¬ LacksUsage xeku cert) ∨
        (¬ xeku.IsOCSPSigning ∧ ¬ ∃ octets, xeku = .value (.data octets) ∧
          octets.length = oidExtendedKeyUsageOCSPSigning.length) := by
  constructor
  · intro henforced
    by_contra hbad
    rw [not_or] at hbad
    rcases hbad with ⟨hlacking, hoption⟩
    push Not at hlacking
    rcases hlacking with ⟨ix, cert, hcert, hlacks⟩
    have hreports := henforced none "ExtendedKeyUsage" ix cert hcert
    rw [mem_checkExtendedKeyUsage hcert] at hreports
    by_cases hocsp : xeku.IsOCSPSigning
    · exact (hreports.mp ⟨hlacks, ocspEKU_eq_false hocsp⟩).2 hocsp
    · have hexempt : ocspEKU xeku = true := by
        rw [ocspEKU_eq_true_iff hocsp]
        exact not_not.mp fun hnone => hoption ⟨hocsp, hnone⟩
      have hreported := (hreports.mpr ⟨hlacks, hocsp⟩).2
      rw [hexempt] at hreported
      exact absurd hreported (by decide)
  · intro hcondition analytics key ix cert hcert
    rw [mem_checkExtendedKeyUsage hcert]
    rcases hcondition with hnone | ⟨hocsp, hlength⟩
    · simp [hnone ix cert hcert]
    · have hchecked : ocspEKU xeku = false :=
        Bool.eq_false_iff.mpr (mt (ocspEKU_eq_true_iff hocsp).mp hlength)
      simp [hocsp, hchecked]

def codeSigning : List UInt8 := [0x2B, 0x06, 0x01, 0x05, 0x05, 0x07, 0x03, 0x03]

def serverAuth : List UInt8 := [0x2B, 0x06, 0x01, 0x05, 0x05, 0x07, 0x03, 0x01]

/-- A policy for code signing, and a sub-CA for server authentication only. -/
theorem codeSigning_notEnforced :
    ¬ EnforcedOnSubCAs [some [codeSigning], some [serverAuth], none]
      (.value (.data codeSigning)) := by
  intro henforced
  have hcert : IsSubCA [some [codeSigning], some [serverAuth], none] 1 (some [serverAuth]) :=
    ⟨by decide, by decide, rfl⟩
  have hreports := henforced none "ExtendedKeyUsage" 1 _ hcert
  rw [mem_checkExtendedKeyUsage hcert] at hreports
  have hchecked := (hreports.mpr ⟨⟨_, rfl, by decide, by decide, ?_⟩, ?_⟩).2
  · exact absurd hchecked (by decide)
  · intro eku heku
    rw [List.mem_singleton.mp heku]
    decide
  · rintro ⟨-, hocsp⟩
    exact absurd (hocsp _ (List.mem_singleton.mpr rfl)) (by decide)
end SecurityFramework.Trustd
