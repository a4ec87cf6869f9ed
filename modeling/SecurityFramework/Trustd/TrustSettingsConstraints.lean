import SecurityFramework.Library.CallGraph
import SecurityFramework.Trustd.PolicyResults

/-!
# Policy options of usage constraints

To find out whether trust settings allow a failure the policy options of a usage constraint are
validated.
-/

namespace SecurityFramework.Trustd.Nested
open Library Relation SecTrustResultType

inductive Evaluation (Value : Type*)
  | setResult (failure : Failure Value)
  | trustSettings (ix : Nat)

/-- What a check does: it reports a failure, and may return if the report is answered with `false`,
or it looks at the trust settings of a certificate. -/
inductive CheckStep (Value : Type*)
  | report (failure : Failure Value) (returns : Bool)
  | trustSettings (ix : Nat)

inductive PolicyCallbacks
  | gSecPolicyLeafCallbacks | gSecPolicyPathCallbacks

open PolicyCallbacks

abbrev CheckTable (Value : Type*) := PolicyCallbacks → String → Option (List (CheckStep Value))

section
variable {Value : Type*}

def Evaluation.ix : Evaluation Value → Nat
  | .setResult failure => failure.ix
  | .trustSettings ix => ix

def CheckStep.evaluation : CheckStep Value → Evaluation Value
  | .report failure _ => .setResult failure
  | .trustSettings ix => .trustSettings ix

def CheckStep.endsCheck (step : CheckStep Value) (answer : Bool) : Bool :=
  match step with
  | .report _ returns => returns && !answer
  | .trustSettings _ => false

structure PolicyChecks (Value : Type*) (count : Nat) where
  table : CheckTable Value
  index_lt : ∀ callbacks key steps, table callbacks key = some steps →
    ∀ step ∈ steps, step.evaluation.ix < count
end

variable {Value Conditions : Type*}

/-- Yields an answer and the context after it, or nothing where it does not come to an end. -/
abbrev Evaluator (Value Conditions : Type*) :=
  Evaluation Value → OpaqueSecPVC Value Conditions → Option (Bool × OpaqueSecPVC Value Conditions)

section
variable (recur : Evaluator Value Conditions) (table : CheckTable Value)

def runCheck : List (CheckStep Value) → OpaqueSecPVC Value Conditions →
    Option (OpaqueSecPVC Value Conditions)
  | [], pvc => some pvc
  | step :: steps, pvc =>
    match recur step.evaluation pvc with
    | none => none
    | some (answer, pvc) => if step.endsCheck answer then some pvc else runCheck steps pvc

/-- A key without a callback is skipped. -/
def SecPVCValidateKey (callbacks : PolicyCallbacks) (pvc : OpaqueSecPVC Value Conditions)
    (key : String) : Option (OpaqueSecPVC Value Conditions) :=
  if !SecPVCIsOkResult pvc && pvc.details.isNone then some pvc
  else
    match table callbacks key with
    | none => some pvc
    | some steps => runCheck recur steps pvc

/-- There is never a match; what matters is what the checks report. -/
def SecPVCContainsTrustSettingsPolicyOption (options : List String)
    (pvc : OpaqueSecPVC Value Conditions) : Option (Bool × OpaqueSecPVC Value Conditions) :=
  (options.foldlM (SecPVCValidateKey recur table gSecPolicyLeafCallbacks) pvc).bind fun pvc =>
    (options.foldlM (SecPVCValidateKey recur table gSecPolicyPathCallbacks) pvc).map fun pvc =>
      (false, pvc)

/-- A constraint with policy options is met if these match and all else does. -/
def SecPVCMeetsConstraint (certificate : Option (PathCertificate Value))
    (constraint : UsageConstraint Conditions) (pvc : OpaqueSecPVC Value Conditions) :
    Option (Bool × OpaqueSecPVC Value Conditions) :=
  match constraint.policyOptions with
  | none => some (pvc.builder.meetsConstraint certificate constraint, pvc)
  | some options =>
    (SecPVCContainsTrustSettingsPolicyOption recur table options pvc).map fun result =>
      (result.1 && result.2.builder.meetsConstraint certificate constraint, result.2)

def findConstraint (certificate : Option (PathCertificate Value))
    (considered sought : UsageConstraint Conditions → Bool) :
    List (Option (UsageConstraint Conditions)) → OpaqueSecPVC Value Conditions →
      Option (Bool × OpaqueSecPVC Value Conditions)
  | [], pvc => some (false, pvc)
  | none :: constraints, pvc => findConstraint certificate considered sought constraints pvc
  | some constraint :: constraints, pvc =>
    if considered constraint then
      match SecPVCMeetsConstraint recur table certificate constraint pvc with
      | none => none
      | some (met, pvc) =>
        if met && sought constraint then some (true, pvc)
        else findConstraint certificate considered sought constraints pvc
    else findConstraint certificate considered sought constraints pvc

/-- Constraints with a number for the allowed error are considered. -/
def SecPVCIsAllowedError (ix : Nat) (key : String) (pvc : OpaqueSecPVC Value Conditions) :
    Option (Bool × OpaqueSecPVC Value Conditions) :=
  findConstraint recur table pvc.builder.certificates[ix]?
    (fun constraint => constraint.allowedError.isSome)
    (fun constraint => decide (constraint.allowedError = some (detailKeyToCssmErr key)))
    (pvc.builder.usageConstraints ix) pvc

def SecPVCGetTrustSettingsResult (ix : Nat) (pvc : OpaqueSecPVC Value Conditions) :
    Option (Bool × OpaqueSecPVC Value Conditions) :=
  findConstraint recur table pvc.builder.certificates[ix]? (fun _ => true) (fun _ => true)
    (pvc.builder.usageConstraints ix) pvc

variable [DecidableEq Value]

def SecPVCSetResultForcedWithTrustResult (failure : Failure Value)
    (pvc : OpaqueSecPVC Value Conditions) : Option (Bool × OpaqueSecPVC Value Conditions) :=
  if isIgnored pvc failure then some (true, pvc)
  else if failure.trustResult = kSecTrustResultRecoverableTrustFailure then
    match SecPVCIsAllowedError recur table failure.ix failure.key pvc with
    | none => none
    | some (true, pvc) => some (true, pvc)
    | some (false, pvc) =>
      let (excepted, pvc) := SecPVCIsExceptedError pvc failure.ix failure.key failure.result
      if excepted then some (true, pvc) else some (noteFailure pvc failure)
  else some (noteFailure pvc failure)

def evaluate : Evaluator Value Conditions
  | .setResult failure, pvc => SecPVCSetResultForcedWithTrustResult recur table failure pvc
  | .trustSettings ix, pvc => SecPVCGetTrustSettingsResult recur table ix pvc
end

/-- Evaluation with a stack for so many evaluations within each other. -/
def evaluateWithin [DecidableEq Value] (table : CheckTable Value) : Nat → Evaluator Value Conditions
  | 0 => fun _ _ => none
  | depth + 1 => evaluate (evaluateWithin table depth) table

section
variable (table : CheckTable Value) (pvc : OpaqueSecPVC Value Conditions)

def keyEvaluations (callbacks : PolicyCallbacks) (key : String) : List (Evaluation Value) :=
  ((table callbacks key).getD []).map CheckStep.evaluation

def constraintEvaluations (constraint : UsageConstraint Conditions) : List (Evaluation Value) :=
  let options := constraint.policyOptions.getD []
  options.flatMap (keyEvaluations table gSecPolicyLeafCallbacks) ++
    options.flatMap (keyEvaluations table gSecPolicyPathCallbacks)

/-- A constraint without policy options is met if all else matches, one with policy options never. -/
def isMet (ix : Nat) (constraint : UsageConstraint Conditions) : Bool :=
  constraint.policyOptions.isNone &&
    pvc.builder.meetsConstraint pvc.builder.certificates[ix]? constraint

/-- The constraints that are considered, up to the first one that is met and sought. -/
def visited (ix : Nat) (considered sought : UsageConstraint Conditions → Bool) :
    List (Option (UsageConstraint Conditions)) → List (UsageConstraint Conditions)
  | [] => []
  | none :: constraints => visited ix considered sought constraints
  | some constraint :: constraints =>
    if considered constraint then
      if isMet pvc ix constraint && sought constraint then [constraint]
      else constraint :: visited ix considered sought constraints
    else visited ix considered sought constraints

/-- A failure leads to evaluations if it is not ignored and may be allowed. -/
def evaluations : Evaluation Value → List (Evaluation Value)
  | .setResult failure =>
    if isIgnored pvc failure then []
    else if failure.trustResult = kSecTrustResultRecoverableTrustFailure then
      (visited pvc failure.ix (fun constraint => constraint.allowedError.isSome)
        (fun constraint =>
          decide (constraint.allowedError = some (detailKeyToCssmErr failure.key)))
        (pvc.builder.usageConstraints failure.ix)).flatMap (constraintEvaluations table)
    else []
  | .trustSettings ix =>
    (visited pvc ix (fun _ => true) (fun _ => true) (pvc.builder.usageConstraints ix)).flatMap
      (constraintEvaluations table)
end

def recorded (pvc : OpaqueSecPVC Value Conditions) (details : Option (List (Dictionary Value)))
    (result : SecTrustResultType) : OpaqueSecPVC Value Conditions :=
  ⟨pvc.builder, pvc.policies, pvc.policyIX, details, result⟩

/-- The report of a failure comes to an end, whatever is recorded so far. -/
def ReportTerminates [DecidableEq Value] (pvc : OpaqueSecPVC Value Conditions) (table : CheckTable Value)
    (failure : Failure Value) : Prop :=
  ∀ details result, ∃ depth,
    (evaluateWithin table depth (.setResult failure) (recorded pvc details result)).isSome
end SecurityFramework.Trustd.Nested
