import SecurityFramework.Library.Extrema
import SecurityFramework.Trustd.NameConstraints
import SecurityFramework.Trustd.PolicyResults
import SecurityFramework.Trustd.PolicyTreeVerification

/-!
# Basic certificate processing

RFC 5280 section 6.1 for a path, from the certificate below its trusted anchor down to its leaf.
-/

namespace SecurityFramework.Trustd
open Library DER SecTrustResultType

/-- The path length constraint is `none` where it is not present. -/
structure SecCEBasicConstraints where
  isCA : Bool
  pathLenConstraint : Option UInt32

structure BasicCertificate extends SecCertificate, PolicyCertificate where
  basicConstraints : Option SecCEBasicConstraints
  notBefore : Rat
  notAfter : Rat
  isWeakKey : Bool
  hasWeakSignature : Bool
  hasUnknownCriticalExtension : Bool
  isSelfSigned : Option Bool

def SecCertificateIsValid (certificate : BasicCertificate) (verifyTime : Rat) : Bool :=
  decide (certificate.notBefore ≤ verifyTime) && decide (verifyTime ≤ certificate.notAfter)

def BasicCertificate.pathLength (cert : BasicCertificate) : Option Nat :=
  (cert.basicConstraints.bind SecCEBasicConstraints.pathLenConstraint).map UInt32.toNat

structure BasicPath where
  leaf : BasicCertificate
  issuers : List BasicCertificate
  policy_tree : Option PolicyTree
  policy_tree_verification_result : PolicyTreeVerificationResult
  count_le : (leaf :: issuers).length ≤ 2 ^ 32 - 1

namespace BasicPath
def certificates (path : BasicPath) : List BasicCertificate := path.leaf :: path.issuers

def policyPath (path : BasicPath) : SecCertificatePathVC where
  leaf := path.leaf.toPolicyCertificate
  issuers := path.issuers.map BasicCertificate.toPolicyCertificate
  policy_tree := path.policy_tree
  policy_tree_verification_result := path.policy_tree_verification_result

def root (path : BasicPath) : BasicCertificate :=
  path.certificates.getLast (List.cons_ne_nil _ _)

/-- The certificates in the order of the loop; a trusted anchor is not processed. -/
def processed (path : BasicPath) (is_anchor_trusted : Bool) : List BasicCertificate :=
  (if is_anchor_trusted then path.certificates.dropLast else path.certificates).reverse
end BasicPath

structure ProcessingContext where
  strings : StringComparison
  der : LibDER
  describe : ContentDescription
  dictionaryOrder : List oid_t → List oid_t
  verify_time : Rat

variable {Value Conditions : Type*} [DecidableEq Value] (kCFBooleanFalse : Value)

def forcedFailure (key : String) (ix : Nat) : Failure Value :=
  ⟨key, ix, kCFBooleanFalse, true, kSecTrustResultInvalid⟩

def failureWhen (failed : Bool) (failure : Failure Value) : List (Failure Value) :=
  if failed then [failure] else []

variable (context : ProcessingContext)

/-- (a) -/
def informationFailures (cert : BasicCertificate) (ix : Nat) : List (Failure Value) :=
  failureWhen (!SecCertificateIsValid cert context.verify_time)
      ⟨"TemporalValidity", ix, kCFBooleanFalse, false, kSecTrustResultInvalid⟩ ++
    failureWhen cert.isWeakKey
      ⟨"WeakKeySize", ix, kCFBooleanFalse, false, kSecTrustResultInvalid⟩ ++
    failureWhen cert.hasWeakSignature
      ⟨"WeakSignature", ix, kCFBooleanFalse, false, kSecTrustResultInvalid⟩

def matchSubtrees (cert : BasicCertificate) (subtrees : List DERItem) (found permit : Bool) :
    OSStatus × Bool :=
  SecNameContraintsMatchSubtrees context.strings context.der context.describe cert.toSecCertificate
    subtrees found permit

/-- (b) and (c). Both calls use the same variable for what they found. -/
def nameFailures (cert : BasicCertificate) (ix : Nat)
    (permitted_subtrees excluded_subtrees : List DERItem) : List (Failure Value) :=
  let excluded :=
    if excluded_subtrees.length ≠ 0 then matchSubtrees context cert excluded_subtrees false false
    else (errSecSuccess, false)
  let permitted :=
    if permitted_subtrees.length ≠ 0 then
      matchSubtrees context cert permitted_subtrees excluded.2 true
    else (errSecSuccess, true)
  failureWhen (decide (excluded.1 ≠ errSecSuccess) || excluded.2)
      (forcedFailure kCFBooleanFalse "NameConstraints" ix) ++
    failureWhen (decide (permitted.1 ≠ errSecSuccess) || !permitted.2)
      (forcedFailure kCFBooleanFalse "NameConstraints" ix)

/-- (l) -/
def pathLenFailures (cert : BasicCertificate) (ix max_path_length : Nat) : List (Failure Value) :=
  failureWhen (!isSelfIssued cert.toPolicyCertificate && decide (max_path_length = 0))
    (forcedFailure kCFBooleanFalse "BasicConstraintsPathLen" ix)

/-- (l) and (m) -/
def nextMaxPathLength (cert : BasicCertificate) (max_path_length : Nat) : Nat :=
  let max_path_length :=
    if !isSelfIssued cert.toPolicyCertificate then
      if max_path_length > 0 then max_path_length - 1 else max_path_length
    else max_path_length
  match cert.pathLength with
  | none => max_path_length
  | some pathLenConstraint =>
    if pathLenConstraint < max_path_length then pathLenConstraint else max_path_length

def criticalExtensionFailures (cert : BasicCertificate) (ix : Nat) : List (Failure Value) :=
  failureWhen cert.hasUnknownCriticalExtension
    (forcedFailure kCFBooleanFalse "CriticalExtensions" ix)

def certificateFailures (permitted_subtrees excluded_subtrees : List DERItem)
    (max_path_length : Nat) : List BasicCertificate → List (Failure Value)
  | [] => []
  | [cert] =>
    informationFailures kCFBooleanFalse context cert 0 ++
      nameFailures kCFBooleanFalse context cert 0 permitted_subtrees excluded_subtrees ++
      criticalExtensionFailures kCFBooleanFalse cert 0
  | cert :: next :: certs =>
    let ix := certs.length + 1
    informationFailures kCFBooleanFalse context cert ix ++
      (if isSelfIssued cert.toPolicyCertificate then []
      else nameFailures kCFBooleanFalse context cert ix permitted_subtrees excluded_subtrees) ++
      pathLenFailures kCFBooleanFalse cert ix max_path_length ++
      criticalExtensionFailures kCFBooleanFalse cert ix ++
      certificateFailures
        (match cert.permittedSubtrees with
        | none => permitted_subtrees
        | some permitted_subtrees_in_cert =>
          SecNameConstraintsIntersectSubtrees context.strings context.der permitted_subtrees
            permitted_subtrees_in_cert)
        (excluded_subtrees ++ cert.excludedSubtrees.getD [])
        (nextMaxPathLength cert max_path_length) (next :: certs)

def anchorFailures (path : BasicPath) (is_anchor_trusted : Bool) : List (Failure Value) :=
  if is_anchor_trusted then []
  else if path.root.isSelfSigned = some true then
    [forcedFailure kCFBooleanFalse "AnchorTrusted" (path.certificates.length - 1)]
  else [forcedFailure kCFBooleanFalse "MissingIntermediate" (path.certificates.length - 1)]

def initialMaxPathLength (path : BasicPath) (is_anchor_trusted : Bool) : Nat :=
  let n := (path.processed is_anchor_trusted).length % 2 ^ 32
  if is_anchor_trusted then
    match path.root.pathLength with
    | none => n
    | some pathLenConstraint => if pathLenConstraint < n then pathLenConstraint else n
  else n

def basicFailures (path : BasicPath) (is_anchor_trusted : Bool) : List (Failure Value) :=
  anchorFailures kCFBooleanFalse path is_anchor_trusted ++
    failureWhen
      (!(SecCertificatePathVCVerifyPolicyTree context.dictionaryOrder path.policyPath
        is_anchor_trusted).1)
      (forcedFailure kCFBooleanFalse "PolicyConstraints" 0) ++
    certificateFailures kCFBooleanFalse context
      (if is_anchor_trusted then path.root.permittedSubtrees.getD [] else [])
      (if is_anchor_trusted then path.root.excludedSubtrees.getD [] else [])
      (initialMaxPathLength path is_anchor_trusted) (path.processed is_anchor_trusted)

structure ProcessingRun (Value Conditions : Type*) where
  completed : Bool
  reported : List (Failure Value)
  pvc : OpaqueSecPVC Value Conditions

def reportUntilEnd (pvc : OpaqueSecPVC Value Conditions) :
    List (Failure Value) → ProcessingRun Value Conditions
  | [] => ⟨true, [], pvc⟩
  | failure :: failures =>
    let reported := SecPVCSetResultForcedWithTrustResult pvc failure
    if reported.1 then
      let run := reportUntilEnd reported.2 failures
      ⟨run.completed, failure :: run.reported, run.pvc⟩
    else ⟨false, [failure], reported.2⟩

def SecPolicyCheckBasicCertificateProcessing (path : BasicPath) (is_anchor_trusted : Bool)
    (pvc : OpaqueSecPVC Value Conditions) : ProcessingRun Value Conditions :=
  reportUntilEnd pvc (basicFailures kCFBooleanFalse context path is_anchor_trusted)
end SecurityFramework.Trustd
