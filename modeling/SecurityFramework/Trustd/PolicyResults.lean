import Mathlib.Data.List.Perm.Basic

/-!
# Results of policy checks

A policy verification context collects the failures of its checks.
-/

namespace SecurityFramework.Trustd
inductive SecTrustResultType
  | kSecTrustResultInvalid | kSecTrustResultProceed | kSecTrustResultConfirm | kSecTrustResultDeny
  | kSecTrustResultUnspecified | kSecTrustResultRecoverableTrustFailure
  | kSecTrustResultFatalTrustFailure | kSecTrustResultOtherError
  deriving DecidableEq, Repr

open SecTrustResultType

abbrev Dictionary (Value : Type*) := String → Option Value

structure PathCertificate (Value : Type*) where
  sha1Digest : Value
  /-- What `SecCertificateIsSelfSigned` finds, unless it fails. -/
  isSelfSigned : Option Bool

/-- A usage constraint: the error it allows, the keys of its policy options, and all else that
`SecPVCMeetsConstraint` looks at. -/
structure UsageConstraint (Conditions : Type*) where
  allowedError : Option Int
  policyOptions : Option (List String)
  conditions : Conditions

/-- What the path builder knows. Constraints and exceptions that are no dictionaries are `none`. -/
structure SecPathBuilder (Value Conditions : Type*) where
  targetOSX : Bool
  certificates : List (PathCertificate Value)
  usageConstraints : Nat → List (Option (UsageConstraint Conditions))
  exceptions : Option (List (Option (Dictionary Value)))
  meetsConstraint : Option (PathCertificate Value) → UsageConstraint Conditions → Bool

structure OpaqueSecPVC (Value Conditions : Type*) where
  builder : SecPathBuilder Value Conditions
  /-- The keys of the options of each policy. -/
  policies : List (List String)
  policyIX : Nat
  details : Option (List (Dictionary Value))
  result : SecTrustResultType

def freshPVC (Value Conditions : Type*) : OpaqueSecPVC Value Conditions where
  builder :=
    { targetOSX := false
      certificates := []
      usageConstraints := fun _ => []
      exceptions := none
      meetsConstraint := fun _ _ => false }
  policies := []
  policyIX := 0
  details := none
  result := kSecTrustResultUnspecified

variable {Value Conditions : Type*} [DecidableEq Value]

def SecPVCIsOkResult (pvc : OpaqueSecPVC Value Conditions) : Bool :=
  decide ¬ (pvc.result = kSecTrustResultRecoverableTrustFailure ∨
    pvc.result = kSecTrustResultDeny ∨ pvc.result = kSecTrustResultFatalTrustFailure ∨
    pvc.result = kSecTrustResultOtherError)

def isSelfSigned (pvc : OpaqueSecPVC Value Conditions) (ix : Nat) : Bool :=
  decide (pvc.builder.certificates[ix]?.bind PathCertificate.isSelfSigned = some true)

/-- Exceptions that are not about certain certificates; only macOS has them. Yields no answer
where they do not apply. -/
def isGenericException (pvc : OpaqueSecPVC Value Conditions) (exceptionsCount : Nat)
    (options : Dictionary Value) (ix : Nat) (key : String) : Option Bool :=
  if exceptionsCount = 1 ∧ (0 < ix ∨ options "SHA1Digest" = none) then
    if (options "SHA1Digest").isSome then some false
    else if (options key).isSome then
      some (if "AnchorTrusted" = key then isSelfSigned pvc ix else true)
    else if key = "TemporalValidity" ∧ (options "ValidRoot").isSome then
      some (isSelfSigned pvc ix)
    else none
  else none

/-- Only the first entry of the exceptions is looked at; one that is no dictionary excepts nothing. -/
def genericAnswer (pvc : OpaqueSecPVC Value Conditions)
    (exceptions : List (Option (Dictionary Value))) (ix : Nat) (key : String) : Option Bool :=
  if pvc.builder.targetOSX then
    match exceptions[0]?.join with
    | none => some false
    | some options => isGenericException pvc exceptions.length options ix key
  else none

/-- Exceptions that are about the certificate at `ix`; an answer of `true` also sets the result. -/
def isCertificateException (pvc : OpaqueSecPVC Value Conditions)
    (exceptions : List (Option (Dictionary Value))) (ix : Nat) (key : String) (value : Value) :
    Bool :=
  match exceptions[ix]?.join with
  | none => false
  | some exception =>
    match exception "SHA1Digest" with
    | none => false
    | some digest =>
      decide (pvc.builder.certificates[ix]?.map PathCertificate.sha1Digest = some digest) &&
        decide (exception key = some value)

/-- Only a result that is fine so far becomes that of a chain that passes due to exceptions. -/
def proceed (pvc : OpaqueSecPVC Value Conditions) : OpaqueSecPVC Value Conditions :=
  if SecPVCIsOkResult pvc then { pvc with result := kSecTrustResultProceed } else pvc

def SecPVCIsExceptedError (pvc : OpaqueSecPVC Value Conditions) (ix : Nat) (key : String)
    (value : Value) : Bool × OpaqueSecPVC Value Conditions :=
  match pvc.builder.exceptions with
  | none => (false, pvc)
  | some exceptions =>
    match genericAnswer pvc exceptions ix key with
    | some excepted => (excepted, pvc)
    | none =>
      if isCertificateException pvc exceptions ix key value then (true, proceed pvc)
      else (false, pvc)

def detailKeyToCssmErr (key : String) : Int :=
  if key = "SSLHostname" then -2147408896
  else if key = "Email" then -2147408872
  else if key = "TemporalValidity" then -2147409654
  else 0

def SecPVCIsAllowedError (pvc : OpaqueSecPVC Value Conditions) (ix : Nat) (key : String) : Bool :=
  (pvc.builder.usageConstraints ix).any fun constraint =>
    match constraint with
    | none => false
    | some constraint =>
      match constraint.allowedError with
      | none => false
      | some allowedErrorValue =>
        pvc.builder.meetsConstraint pvc.builder.certificates[ix]? constraint &&
          decide (allowedErrorValue = detailKeyToCssmErr key)

def SecPVCKeyIsConstraintPolicyOption (pvc : OpaqueSecPVC Value Conditions) (key : String) :
    Bool :=
  (List.range pvc.builder.certificates.length).any fun certIX =>
    (pvc.builder.usageConstraints certIX).any fun constraint =>
      match constraint.bind UsageConstraint.policyOptions with
      | none => false
      | some policyOptions => decide (key ∈ policyOptions)

def fatalKeys : List String :=
  ["WeakKeySize", "WeakSignature", "BlackListedLeaf", "BlackListedKey", "Revocation",
    "IssuerPolicyConstraints", "IssuerNameConstraints"]

def denyKeys : List String := ["UsageConstraints"]

def trust_result_for_key (key : String) : SecTrustResultType :=
  if key ∈ fatalKeys then kSecTrustResultFatalTrustFailure
  else if key ∈ denyKeys then kSecTrustResultDeny
  else kSecTrustResultRecoverableTrustFailure

structure Failure (Value : Type*) where
  key : String
  ix : Nat
  result : Value
  force : Bool
  overrideDefaultTR : SecTrustResultType

def Failure.trustResult (failure : Failure Value) : SecTrustResultType :=
  if failure.overrideDefaultTR ≠ kSecTrustResultInvalid then failure.overrideDefaultTR
  else trust_result_for_key failure.key

/-- Neither the policy nor the usage constraints have the key. -/
def isIgnored (pvc : OpaqueSecPVC Value Conditions) (failure : Failure Value) : Bool :=
  !failure.force && !(SecPVCKeyIsConstraintPolicyOption pvc failure.key ||
    (match pvc.policies[pvc.policyIX]? with
    | none => false
    | some options => decide (failure.key ∈ options)))

def worsen (result trustResult : SecTrustResultType) (isOk : Bool) : SecTrustResultType :=
  if isOk ∨ trustResult = kSecTrustResultFatalTrustFailure then trustResult
  else if trustResult = kSecTrustResultDeny ∧ result = kSecTrustResultRecoverableTrustFailure then
    trustResult
  else result

def setDetail (details : List (Dictionary Value)) (failure : Failure Value) :
    List (Dictionary Value) :=
  details.modify failure.ix fun detail =>
    Function.update detail failure.key (some failure.result)

def noteFailure (pvc : OpaqueSecPVC Value Conditions) (failure : Failure Value) :
    Bool × OpaqueSecPVC Value Conditions :=
  let pvc := { pvc with
    result := worsen pvc.result failure.trustResult (SecPVCIsOkResult pvc) }
  match pvc.details with
  | none => (false, pvc)
  | some details =>
    if failure.ix < details.length then
      (true, { pvc with details := some (setDetail details failure) })
    else (false, pvc)

def SecPVCSetResultForcedWithTrustResult (pvc : OpaqueSecPVC Value Conditions)
    (failure : Failure Value) : Bool × OpaqueSecPVC Value Conditions :=
  if isIgnored pvc failure then (true, pvc)
  else if failure.trustResult = kSecTrustResultRecoverableTrustFailure then
    if SecPVCIsAllowedError pvc failure.ix failure.key then (true, pvc)
    else
      let (excepted, pvc) := SecPVCIsExceptedError pvc failure.ix failure.key failure.result
      if excepted then (true, pvc) else noteFailure pvc failure
  else noteFailure pvc failure

def report (pvc : OpaqueSecPVC Value Conditions) (failures : List (Failure Value)) :
    OpaqueSecPVC Value Conditions :=
  failures.foldl (fun pvc failure => (SecPVCSetResultForcedWithTrustResult pvc failure).2) pvc

/-- The policy cares about the failure, and it is neither allowed nor excepted. -/
def Stands (pvc : OpaqueSecPVC Value Conditions) (failure : Failure Value) : Prop :=
  isIgnored pvc failure = false ∧
    (failure.trustResult = kSecTrustResultRecoverableTrustFailure →
      SecPVCIsAllowedError pvc failure.ix failure.key = false ∧
        (SecPVCIsExceptedError pvc failure.ix failure.key failure.result).1 = false)

/-- What a failure does to the result: nothing, or it lets a fine one proceed, or it stands. -/
inductive Verdict
  | skipped
  | excepted
  | failed (trustResult : SecTrustResultType)
  deriving DecidableEq

def okResult (result : SecTrustResultType) : Bool :=
  decide ¬ (result = kSecTrustResultRecoverableTrustFailure ∨ result = kSecTrustResultDeny ∨
    result = kSecTrustResultFatalTrustFailure ∨ result = kSecTrustResultOtherError)

def effect (result : SecTrustResultType) : Verdict → SecTrustResultType
  | .skipped => result
  | .excepted => if okResult result then kSecTrustResultProceed else result
  | .failed trustResult => worsen result trustResult (okResult result)

structure SameChecks (pvc pvc' : OpaqueSecPVC Value Conditions) : Prop where
  builder : pvc'.builder = pvc.builder
  policies : pvc'.policies = pvc.policies
  policyIX : pvc'.policyIX = pvc.policyIX
  details : pvc'.details.map List.length = pvc.details.map List.length

def judgeException (pvc : OpaqueSecPVC Value Conditions) (failure : Failure Value) : Verdict :=
  match pvc.builder.exceptions with
  | none => .failed failure.trustResult
  | some exceptions =>
    match genericAnswer pvc exceptions failure.ix failure.key with
    | some true => .skipped
    | some false => .failed failure.trustResult
    | none =>
      if isCertificateException pvc exceptions failure.ix failure.key failure.result then .excepted
      else .failed failure.trustResult

def judge (pvc : OpaqueSecPVC Value Conditions) (failure : Failure Value) : Verdict :=
  if isIgnored pvc failure then .skipped
  else if failure.trustResult = kSecTrustResultRecoverableTrustFailure then
    if SecPVCIsAllowedError pvc failure.ix failure.key then .skipped
    else judgeException pvc failure
  else .failed failure.trustResult

variable {pvc pvc' : OpaqueSecPVC Value Conditions} {failure : Failure Value}

namespace SameChecks
omit [DecidableEq Value] in
theorem refl (pvc : OpaqueSecPVC Value Conditions) : SameChecks pvc pvc := ⟨rfl, rfl, rfl, rfl⟩

omit [DecidableEq Value] in
theorem trans {pvc'' : OpaqueSecPVC Value Conditions} (h : SameChecks pvc pvc')
    (h' : SameChecks pvc' pvc'') : SameChecks pvc pvc'' :=
  ⟨h'.builder.trans h.builder, h'.policies.trans h.policies, h'.policyIX.trans h.policyIX,
    h'.details.trans h.details⟩

theorem judge_eq (h : SameChecks pvc pvc') (failure : Failure Value) :
    judge pvc' failure = judge pvc failure := by
  rcases pvc with ⟨builder, policies, policyIX, _, _⟩
  rcases pvc' with ⟨_, _, _, _, _⟩
  rcases h with ⟨hbuilder, hpolicies, hpolicyIX, _⟩
  dsimp only at hbuilder hpolicies hpolicyIX
  subst hbuilder hpolicies hpolicyIX
  rfl
end SameChecks

omit [DecidableEq Value] in
theorem isOkResult_eq : SecPVCIsOkResult pvc = okResult pvc.result := rfl

theorem proceed_spec : SameChecks pvc (proceed pvc) ∧
    (proceed pvc).result = effect pvc.result .excepted := by
  rw [proceed, isOkResult_eq, effect]
  split
  · exact ⟨⟨rfl, rfl, rfl, rfl⟩, rfl⟩
  · exact ⟨.refl pvc, rfl⟩

omit [DecidableEq Value] in
theorem noteFailure_spec (pvc : OpaqueSecPVC Value Conditions) (failure : Failure Value) :
    SameChecks pvc (noteFailure pvc failure).2 ∧
      (noteFailure pvc failure).2.result = effect pvc.result (.failed failure.trustResult) := by
  rw [noteFailure]
  dsimp only
  split
  · exact ⟨⟨rfl, rfl, rfl, rfl⟩, rfl⟩
  · next details hdetails =>
    split
    · refine ⟨⟨rfl, rfl, rfl, ?_⟩, rfl⟩
      simp only [hdetails, Option.map_some, setDetail, List.length_modify]
    · exact ⟨⟨rfl, rfl, rfl, rfl⟩, rfl⟩

/-- An exception leaves the context alone, or makes it proceed. -/
theorem isExceptedError_cases (pvc : OpaqueSecPVC Value Conditions) (failure : Failure Value) :
    SecPVCIsExceptedError pvc failure.ix failure.key failure.result =
      match judgeException pvc failure with
      | .skipped => (true, pvc)
      | .excepted => (true, proceed pvc)
      | .failed _ => (false, pvc) := by
  rw [SecPVCIsExceptedError, judgeException]
  cases pvc.builder.exceptions with
  | none => rfl
  | some exceptions =>
    dsimp only
    cases genericAnswer pvc exceptions failure.ix failure.key with
    | none =>
      dsimp only
      split <;> rfl
    | some excepted => cases excepted <;> rfl

variable {trustResult result : SecTrustResultType} {verdicts : List Verdict}

theorem judgeException_failed (h : judgeException pvc failure = .failed trustResult) :
    trustResult = failure.trustResult := by
  rw [judgeException] at h
  repeat' split at h
  all_goals cases h
  all_goals rfl

theorem setResult_spec (pvc : OpaqueSecPVC Value Conditions) (failure : Failure Value) :
    SameChecks pvc (SecPVCSetResultForcedWithTrustResult pvc failure).2 ∧
      (SecPVCSetResultForcedWithTrustResult pvc failure).2.result =
        effect pvc.result (judge pvc failure) := by
  rw [SecPVCSetResultForcedWithTrustResult, judge]
  split
  · exact ⟨.refl pvc, rfl⟩
  split
  · split
    · exact ⟨.refl pvc, rfl⟩
    rw [isExceptedError_cases]
    cases hverdict : judgeException pvc failure with
    | skipped => exact ⟨.refl pvc, rfl⟩
    | excepted => exact proceed_spec
    | failed trustResult =>
      rw [judgeException_failed hverdict]
      exact noteFailure_spec pvc failure
  · exact noteFailure_spec pvc failure

/-- Recoverable, deny and fatal, in this order; what is no failure comes first. -/
def severity : SecTrustResultType → Nat
  | kSecTrustResultRecoverableTrustFailure => 1
  | kSecTrustResultDeny => 2
  | kSecTrustResultFatalTrustFailure => 3
  | _ => 0

def IsFailure (result : SecTrustResultType) : Prop := 0 < severity result

instance (result : SecTrustResultType) : Decidable (IsFailure result) :=
  inferInstanceAs (Decidable (0 < severity result))

def Verdict.Graded : Verdict → Prop
  | .failed trustResult => IsFailure trustResult
  | _ => True

theorem isFailure_cases (h : IsFailure result) :
    result = kSecTrustResultRecoverableTrustFailure ∨ result = kSecTrustResultDeny ∨
      result = kSecTrustResultFatalTrustFailure := by
  cases result <;> simp [IsFailure, severity] at h ⊢

theorem effect_comm {first second : Verdict} (hfirst : first.Graded) (hsecond : second.Graded)
    (result : SecTrustResultType) :
    effect (effect result first) second = effect (effect result second) first := by
  cases first with
  | skipped => rfl
  | excepted =>
    cases second with
    | skipped => rfl
    | excepted => rfl
    | failed trustResult =>
      rcases isFailure_cases hsecond with rfl | rfl | rfl <;> cases result <;> rfl
  | failed trustResult =>
    cases second with
    | skipped => rfl
    | excepted => rcases isFailure_cases hfirst with rfl | rfl | rfl <;> cases result <;> rfl
    | failed trustResult' =>
      rcases isFailure_cases hfirst with rfl | rfl | rfl <;>
        rcases isFailure_cases hsecond with rfl | rfl | rfl <;> cases result <;> rfl

theorem severity_effect_failed (h : IsFailure trustResult)
    (hresult : result ≠ kSecTrustResultOtherError) :
    severity (effect result (.failed trustResult)) =
      max (severity result) (severity trustResult) := by
  rcases isFailure_cases h with rfl | rfl | rfl <;> cases result <;>
    first
    | rfl
    | exact absurd rfl hresult

theorem okResult_excepted (result : SecTrustResultType) :
    okResult (effect result .excepted) = okResult result := by
  cases result <;> rfl

theorem effect_ne_otherError {verdict : Verdict} (hresult : result ≠ kSecTrustResultOtherError)
    (hverdict : verdict.Graded) :
    effect result verdict ≠ kSecTrustResultOtherError := by
  cases verdict with
  | skipped => exact hresult
  | excepted => cases result <;> first | exact absurd rfl hresult | decide
  | failed trustResult =>
    rcases isFailure_cases hverdict with rfl | rfl | rfl <;> cases result <;>
      first
      | exact absurd rfl hresult
      | decide

def Verdict.severity : Verdict → Nat
  | .failed trustResult => Trustd.severity trustResult
  | _ => 0

theorem severity_effect {verdict : Verdict} (hresult : result ≠ kSecTrustResultOtherError)
    (hverdict : verdict.Graded) :
    severity (effect result verdict) = max (severity result) verdict.severity := by
  cases verdict with
  | skipped => exact (Nat.max_zero _).symm
  | excepted => cases result <;> first | exact absurd rfl hresult | rfl
  | failed trustResult => exact severity_effect_failed hverdict hresult

theorem severity_le_foldl (hgraded : ∀ verdict ∈ verdicts, verdict.Graded) :
    ∀ {result : SecTrustResultType}, result ≠ kSecTrustResultOtherError →
      severity result ≤ severity (verdicts.foldl effect result) ∧
        ∀ verdict ∈ verdicts, verdict.severity ≤ severity (verdicts.foldl effect result) := by
  induction verdicts with
  | nil => exact fun _ => ⟨Nat.le_refl _, by simp⟩
  | cons verdict verdicts ih =>
    intro result hresult
    have hverdict := hgraded verdict List.mem_cons_self
    have hmax := severity_effect hresult hverdict
    rcases ih (fun v hv => hgraded v (List.mem_cons_of_mem _ hv))
      (effect_ne_otherError hresult hverdict) with ⟨hle, hall⟩
    rw [hmax] at hle
    rw [List.foldl_cons]
    refine ⟨Nat.le_trans (Nat.le_max_left _ _) hle, ?_⟩
    intro v hv
    rcases List.mem_cons.mp hv with rfl | hv
    · exact Nat.le_trans (Nat.le_max_right _ _) hle
    · exact hall v hv

/-- A failure at the end was there at the start, or is the one of a verdict. -/
theorem foldl_eq_failed :
    ∀ {result : SecTrustResultType}, okResult (verdicts.foldl effect result) = false →
      verdicts.foldl effect result = result ∨
        Verdict.failed (verdicts.foldl effect result) ∈ verdicts := by
  induction verdicts with
  | nil => exact fun _ => Or.inl rfl
  | cons verdict verdicts ih =>
    intro result hfinal
    rw [List.foldl_cons] at hfinal ⊢
    rcases ih hfinal with heq | hmem
    · rw [heq] at hfinal ⊢
      cases verdict with
      | skipped => exact Or.inl rfl
      | excepted =>
        left
        rw [effect] at hfinal ⊢
        split
        · next hok =>
          rw [if_pos hok] at hfinal
          exact absurd hfinal (by decide)
        · rfl
      | failed trustResult =>
        rw [effect, worsen]
        split
        · exact Or.inr List.mem_cons_self
        · split
          · exact Or.inr List.mem_cons_self
          · exact Or.inl rfl
    · exact Or.inr (List.mem_cons_of_mem _ hmem)

theorem okResult_effect {verdict : Verdict} (hverdict : verdict.Graded) :
    okResult (effect result verdict) = true ↔
      okResult result = true ∧ ∀ trustResult, verdict ≠ .failed trustResult := by
  cases verdict with
  | skipped => simp [effect]
  | excepted => simp [okResult_excepted]
  | failed trustResult =>
    rcases isFailure_cases hverdict with rfl | rfl | rfl <;> cases result <;> simp [effect, worsen, okResult]

/-- The result is fine at the end if it was at the start and no verdict is a failure. -/
theorem okResult_foldl (hgraded : ∀ verdict ∈ verdicts, verdict.Graded) :
    ∀ {result : SecTrustResultType}, okResult (verdicts.foldl effect result) = true ↔
      okResult result = true ∧
        ∀ verdict ∈ verdicts, ∀ trustResult, verdict ≠ .failed trustResult := by
  induction verdicts with
  | nil => simp
  | cons verdict verdicts ih =>
    intro result
    rw [List.foldl_cons, ih fun v hv => hgraded v (List.mem_cons_of_mem _ hv),
      okResult_effect (hgraded verdict List.mem_cons_self), List.forall_mem_cons, and_assoc]

omit [DecidableEq Value] in
theorem isFailure_trustResult (h : failure.overrideDefaultTR = kSecTrustResultInvalid ∨
      IsFailure failure.overrideDefaultTR) : IsFailure failure.trustResult := by
  rw [Failure.trustResult]
  split
  · next hne => exact h.resolve_left hne
  · rw [trust_result_for_key]
    split
    · decide
    · split <;> decide

theorem judge_eq_failed_iff :
    judge pvc failure = .failed failure.trustResult ↔ Stands pvc failure := by
  rw [judge, Stands, isExceptedError_cases]
  cases hignored : isIgnored pvc failure with
  | true => simp
  | false =>
    simp only [Bool.false_eq_true, if_false, true_and]
    by_cases hrecoverable : failure.trustResult = kSecTrustResultRecoverableTrustFailure
    · simp only [hrecoverable, if_true, true_implies]
      cases hallowed : SecPVCIsAllowedError pvc failure.ix failure.key with
      | true => simp
      | false =>
        cases hverdict : judgeException pvc failure with
        | skipped => simp
        | excepted => simp
        | failed trustResult =>
          have htrust := judgeException_failed hverdict
          simp [htrust, hrecoverable]
    · simp [hrecoverable]

theorem judge_failed (h : judge pvc failure = .failed trustResult) :
    trustResult = failure.trustResult := by
  rw [judge] at h
  split at h
  · cases h
  split at h
  · split at h
    · cases h
    · exact judgeException_failed h
  · cases h
    rfl

theorem judge_graded (h : IsFailure failure.trustResult) : (judge pvc failure).Graded := by
  cases hjudge : judge pvc failure with
  | skipped => trivial
  | excepted => trivial
  | failed trustResult =>
    rw [judge_failed hjudge]
    exact h

theorem report_spec (pvc : OpaqueSecPVC Value Conditions) (failures : List (Failure Value)) :
    SameChecks pvc (report pvc failures) ∧
      (report pvc failures).result = (failures.map (judge pvc)).foldl effect pvc.result := by
  induction failures generalizing pvc with
  | nil => exact ⟨.refl pvc, rfl⟩
  | cons failure failures ih =>
    rcases setResult_spec pvc failure with ⟨hsame, hresult⟩
    rcases ih (SecPVCSetResultForcedWithTrustResult pvc failure).2 with ⟨hsame', hresult'⟩
    refine ⟨hsame.trans hsame', ?_⟩
    rw [List.map_cons, List.foldl_cons, ← hresult]
    have hjudge : judge (SecPVCSetResultForcedWithTrustResult pvc failure).2 = judge pvc :=
      funext hsame.judge_eq
    rw [hjudge] at hresult'
    exact hresult'

theorem okResult_effect_of_failing (verdict : Verdict) (hresult : okResult result = false) :
    okResult (effect result verdict) = false := by
  cases verdict with
  | skipped => exact hresult
  | excepted => rw [okResult_excepted, hresult]
  | failed trustResult =>
    rw [effect, worsen, hresult]
    split
    · next htrust =>
      rw [htrust.resolve_left (by decide)]
      rfl
    · split
      · next htrust =>
        rw [htrust.1]
        rfl
      · exact hresult

theorem report_failing (hfailing : SecPVCIsOkResult pvc = false)
    (failures : List (Failure Value)) : SecPVCIsOkResult (report pvc failures) = false := by
  induction failures generalizing pvc with
  | nil => exact hfailing
  | cons failure failures ih =>
    apply ih
    rw [isOkResult_eq, (setResult_spec pvc failure).2]
    exact okResult_effect_of_failing _ hfailing

theorem setResult_continues {details : List (Dictionary Value)}
    (hdetails : pvc.details = some details) (hix : failure.ix < details.length) :
    (SecPVCSetResultForcedWithTrustResult pvc failure).1 = true := by
  have hnote : (noteFailure pvc failure).1 = true := by
    simp only [noteFailure, hdetails, if_pos hix]
  rw [SecPVCSetResultForcedWithTrustResult, isExceptedError_cases]
  split
  · rfl
  split
  · split
    · rfl
    · cases judgeException pvc failure with
      | skipped => rfl
      | excepted => rfl
      | failed trustResult => exact hnote
  · exact hnote

def samplePVC : OpaqueSecPVC Nat Unit where
  builder := {
    targetOSX := true
    certificates := [⟨7, some false⟩]
    usageConstraints := fun _ => []
    exceptions := some [some fun key =>
      if key = "SHA1Digest" then some 7 else if key = "KeyUsage" then some 0 else none]
    meetsConstraint := fun _ _ => false }
  policies := [["KeyUsage", "SSLHostname", "UsageConstraints"]]
  policyIX := 0
  details := some [fun _ => none]
  result := kSecTrustResultUnspecified

def sampleFailures : List (Failure Nat) :=
  [⟨"SSLHostname", 0, 0, false, kSecTrustResultInvalid⟩,
    ⟨"KeyUsage", 0, 0, false, kSecTrustResultInvalid⟩,
    ⟨"UsageConstraints", 0, 0, true, kSecTrustResultInvalid⟩]

end SecurityFramework.Trustd
