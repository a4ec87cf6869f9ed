import SecurityFramework.Trustd.TrustSettingsConstraints

/-! # Reports that come to an end -/

namespace SecurityFramework.Trustd.Nested
open Library Relation SecTrustResultType PolicyCallbacks

variable {Value Conditions : Type*} {table : CheckTable Value}
  {start pvc pvc' : OpaqueSecPVC Value Conditions} {recur : Evaluator Value Conditions}

/-- The function ends, and changes nothing that decides about failures. -/
def Answers (start : OpaqueSecPVC Value Conditions)
    (f : OpaqueSecPVC Value Conditions → Option (Bool × OpaqueSecPVC Value Conditions)) : Prop :=
  ∀ pvc, SameChecks start pvc → ∃ answer pvc', f pvc = some (answer, pvc') ∧ SameChecks start pvc'

def Progresses (start : OpaqueSecPVC Value Conditions)
    (f : OpaqueSecPVC Value Conditions → Option (OpaqueSecPVC Value Conditions)) : Prop :=
  ∀ pvc, SameChecks start pvc → ∃ pvc', f pvc = some pvc' ∧ SameChecks start pvc'

theorem runCheck_progresses {steps : List (CheckStep Value)}
    (h : ∀ step ∈ steps, Answers start (recur step.evaluation)) :
    Progresses start (runCheck recur steps) := by
  induction steps with
  | nil => exact fun pvc hpvc => ⟨pvc, rfl, hpvc⟩
  | cons step steps ih =>
    intro pvc hpvc
    rcases List.forall_mem_cons.mp h with ⟨hstep, hsteps⟩
    rcases hstep pvc hpvc with ⟨answer, pvc', hanswer, hpvc'⟩
    rw [runCheck, hanswer]
    dsimp only
    split_ifs
    · exact ⟨pvc', rfl, hpvc'⟩
    · exact ih hsteps pvc' hpvc'

theorem validateKey_progresses {callbacks : PolicyCallbacks} {key : String}
    (h : ∀ evaluation ∈ keyEvaluations table callbacks key, Answers start (recur evaluation)) :
    Progresses start fun pvc => SecPVCValidateKey recur table callbacks pvc key := by
  intro pvc hpvc
  dsimp only
  rw [SecPVCValidateKey]
  rw [keyEvaluations] at h
  split_ifs
  · exact ⟨pvc, rfl, hpvc⟩
  · cases hsteps : table callbacks key with
    | none => exact ⟨pvc, rfl, hpvc⟩
    | some steps =>
      rw [hsteps] at h
      exact runCheck_progresses (fun step hstep => h _ (List.mem_map_of_mem hstep)) pvc hpvc

theorem validateKeys_progresses {callbacks : PolicyCallbacks} {keys : List String}
    (h : ∀ evaluation ∈ keys.flatMap (keyEvaluations table callbacks),
      Answers start (recur evaluation)) :
    Progresses start fun pvc => keys.foldlM (SecPVCValidateKey recur table callbacks) pvc := by
  induction keys with
  | nil => exact fun pvc hpvc => ⟨pvc, rfl, hpvc⟩
  | cons key keys ih =>
    intro pvc hpvc
    rw [List.flatMap_cons, List.forall_mem_append] at h
    rcases validateKey_progresses h.1 pvc hpvc with ⟨pvc', hkey, hpvc'⟩
    dsimp only at hkey ⊢
    rw [List.foldlM_cons, hkey]
    exact ih h.2 pvc' hpvc'

theorem meetsConstraint_answers (ix : Nat) {constraint : UsageConstraint Conditions}
    (h : ∀ evaluation ∈ constraintEvaluations table constraint,
      Answers start (recur evaluation)) (hpvc : SameChecks start pvc) :
    ∃ pvc', SecPVCMeetsConstraint recur table start.builder.certificates[ix]? constraint pvc =
        some (isMet start ix constraint, pvc') ∧ SameChecks start pvc' := by
  rw [SecPVCMeetsConstraint, isMet]
  rw [constraintEvaluations, List.forall_mem_append] at h
  cases hoptions : constraint.policyOptions with
  | none => exact ⟨pvc, by rw [hpvc.builder]; rfl, hpvc⟩
  | some options =>
    rw [hoptions] at h
    rcases validateKeys_progresses h.1 pvc hpvc with ⟨pvc₁, hleaf, hpvc₁⟩
    rcases validateKeys_progresses h.2 pvc₁ hpvc₁ with ⟨pvc₂, hpath, hpvc₂⟩
    refine ⟨pvc₂, ?_, hpvc₂⟩
    dsimp only [Option.getD_some] at hleaf hpath
    dsimp only
    rw [SecPVCContainsTrustSettingsPolicyOption, hleaf, Option.bind_some, hpath]
    rfl

theorem findConstraint_answers {ix : Nat}
    {considered sought : UsageConstraint Conditions → Bool}
    {constraints : List (Option (UsageConstraint Conditions))}
    (h : ∀ evaluation ∈ (visited start ix considered sought constraints).flatMap
      (constraintEvaluations table), Answers start (recur evaluation)) :
    Answers start (findConstraint recur table start.builder.certificates[ix]? considered sought
      constraints) := by
  induction constraints with
  | nil => exact fun pvc hpvc => ⟨false, pvc, rfl, hpvc⟩
  | cons constraint constraints ih =>
    intro pvc hpvc
    cases constraint with
    | none => exact ih h pvc hpvc
    | some constraint =>
      rw [findConstraint]
      rw [visited] at h
      by_cases hconsidered : considered constraint = true
      · rw [if_pos hconsidered] at h ⊢
        have hconstraint : ∀ evaluation ∈ constraintEvaluations table constraint,
            Answers start (recur evaluation) := by
          intro evaluation hevaluation
          refine h evaluation (List.mem_flatMap.mpr ⟨constraint, ?_, hevaluation⟩)
          split_ifs
          · exact List.mem_singleton_self _
          · exact List.mem_cons_self
        have hmeets := meetsConstraint_answers ix hconstraint hpvc
        rcases hmeets with ⟨pvc', hmeets, hpvc'⟩
        rw [hmeets]
        dsimp only
        split_ifs at h ⊢
        · exact ⟨true, pvc', rfl, hpvc'⟩
        · rw [List.flatMap_cons, List.forall_mem_append] at h
          exact ih h.2 pvc' hpvc'
      · rw [if_neg hconsidered] at h ⊢
        exact ih h pvc hpvc

theorem isIgnored_eq (h : SameChecks pvc pvc') (failure : Failure Value) :
    isIgnored pvc' failure = isIgnored pvc failure := by
  rcases pvc with ⟨builder, policies, policyIX, _, _⟩
  rcases pvc' with ⟨_, _, _, _, _⟩
  rcases h with ⟨hbuilder, hpolicies, hpolicyIX, _⟩
  dsimp only at hbuilder hpolicies hpolicyIX
  subst hbuilder hpolicies hpolicyIX
  rfl

section
variable [DecidableEq Value]

theorem exceptedError_sameChecks (failure : Failure Value) :
    SameChecks pvc (SecPVCIsExceptedError pvc failure.ix failure.key failure.result).2 := by
  rw [isExceptedError_cases]
  cases judgeException pvc failure with
  | skipped => exact .refl pvc
  | excepted => exact proceed_spec.1
  | failed trustResult => exact .refl pvc

theorem evaluate_answers {evaluation : Evaluation Value}
    (h : ∀ made ∈ evaluations table start evaluation, Answers start (recur made)) :
    Answers start (evaluate recur table evaluation) := by
  intro pvc hpvc
  cases evaluation with
  | trustSettings ix =>
    rw [evaluate, SecPVCGetTrustSettingsResult, hpvc.builder]
    exact findConstraint_answers h pvc hpvc
  | setResult failure =>
    rw [evaluate, SecPVCSetResultForcedWithTrustResult, isIgnored_eq hpvc]
    rw [evaluations] at h
    split_ifs at h ⊢
    · exact ⟨true, pvc, rfl, hpvc⟩
    · rw [SecPVCIsAllowedError, hpvc.builder]
      rcases findConstraint_answers h pvc hpvc with ⟨allowed, pvc', hallowed, hpvc'⟩
      rw [hallowed]
      cases allowed with
      | true => exact ⟨true, pvc', rfl, hpvc'⟩
      | false =>
        have hexcepted := hpvc'.trans (exceptedError_sameChecks failure)
        dsimp only
        split_ifs
        · exact ⟨true, _, rfl, hexcepted⟩
        · exact ⟨_, _, rfl, hexcepted.trans (noteFailure_spec _ failure).1⟩
    · exact ⟨_, _, rfl, hpvc.trans (noteFailure_spec pvc failure).1⟩

theorem evaluateWithin_answers {depth : Nat} {evaluation : Evaluation Value}
    (h : HaltsWithin (evaluations table start) depth evaluation) :
    Answers start (evaluateWithin table depth evaluation) := by
  induction depth generalizing evaluation with
  | zero => exact h.elim
  | succ depth ih => exact evaluate_answers fun made hmade => ih (h made hmade)
end

/-- There is a context in which the evaluation is made and ends. -/
def Reached (start : OpaqueSecPVC Value Conditions) (recur : Evaluator Value Conditions)
    (evaluation : Evaluation Value) : Prop :=
  ∃ pvc, SameChecks start pvc ∧ (recur evaluation pvc).isSome

/-- An evaluation changes nothing that decides about failures, and a report about a certificate of
the chain is answered with `true`. -/
def Continues (start : OpaqueSecPVC Value Conditions) (count : Nat)
    (recur : Evaluator Value Conditions) : Prop :=
  ∀ evaluation pvc answer pvc', SameChecks start pvc →
    recur evaluation pvc = some (answer, pvc') →
    SameChecks start pvc' ∧
      ∀ failure, evaluation = .setResult failure → failure.ix < count → answer = true

section
variable {count : Nat} (hrecur : Continues start count recur)

include hrecur

theorem runCheck_reached {steps : List (CheckStep Value)}
    (hsteps : ∀ step ∈ steps, step.evaluation.ix < count) (hpvc : SameChecks start pvc)
    (hrun : runCheck recur steps pvc = some pvc') :
    SameChecks start pvc' ∧ ∀ step ∈ steps, Reached start recur step.evaluation := by
  induction steps generalizing pvc with
  | nil =>
    rw [← Option.some.inj hrun]
    exact ⟨hpvc, fun _ hstep => absurd hstep List.not_mem_nil⟩
  | cons step steps ih =>
    rcases List.forall_mem_cons.mp hsteps with ⟨hstep, hsteps'⟩
    rw [runCheck] at hrun
    cases hanswer : recur step.evaluation pvc with
    | none => simp [hanswer] at hrun
    | some result =>
      rcases result with ⟨answer, pvc₁⟩
      rcases hrecur _ _ _ _ hpvc hanswer with ⟨hpvc₁, htrue⟩
      have hgoes : step.endsCheck answer = false := by
        cases step with
        | report failure returns =>
          rw [CheckStep.endsCheck, htrue failure rfl hstep]
          exact Bool.and_false returns
        | trustSettings ix => rfl
      rw [hanswer] at hrun
      dsimp only at hrun
      rw [hgoes, if_neg Bool.false_ne_true] at hrun
      rcases ih hsteps' hpvc₁ hrun with ⟨hpvc', hreached⟩
      refine ⟨hpvc', List.forall_mem_cons.mpr ⟨⟨pvc, hpvc, ?_⟩, hreached⟩⟩
      rw [hanswer]
      rfl

variable (hdetails : start.details ≠ none)
  (htable : ∀ callbacks key steps, table callbacks key = some steps →
    ∀ step ∈ steps, step.evaluation.ix < count)

include hdetails htable

theorem validateKey_reached {callbacks : PolicyCallbacks} {key : String}
    (hpvc : SameChecks start pvc)
    (hrun : SecPVCValidateKey recur table callbacks pvc key = some pvc') :
    SameChecks start pvc' ∧
      ∀ evaluation ∈ keyEvaluations table callbacks key, Reached start recur evaluation := by
  have hcollects : pvc.details.isNone = false := by
    have hsame := congrArg Option.isNone hpvc.details
    rw [Option.isNone_map, Option.isNone_map] at hsame
    rw [hsame, Option.isNone_eq_false_iff]
    exact Option.isSome_iff_ne_none.mpr hdetails
  rw [SecPVCValidateKey, hcollects, Bool.and_false, if_neg Bool.false_ne_true] at hrun
  rw [keyEvaluations]
  cases hsteps : table callbacks key with
  | none =>
    rw [hsteps] at hrun
    rw [← Option.some.inj hrun]
    exact ⟨hpvc, fun _ h => absurd h List.not_mem_nil⟩
  | some steps =>
    rw [hsteps] at hrun
    rcases runCheck_reached hrecur (htable _ _ _ hsteps) hpvc hrun with ⟨hpvc', hreached⟩
    exact ⟨hpvc', List.forall_mem_map.mpr hreached⟩

theorem validateKeys_reached {callbacks : PolicyCallbacks} {keys : List String}
    (hpvc : SameChecks start pvc)
    (hrun : keys.foldlM (SecPVCValidateKey recur table callbacks) pvc = some pvc') :
    SameChecks start pvc' ∧
      ∀ evaluation ∈ keys.flatMap (keyEvaluations table callbacks),
        Reached start recur evaluation := by
  induction keys generalizing pvc with
  | nil =>
    rw [← Option.some.inj hrun]
    exact ⟨hpvc, fun _ h => absurd h List.not_mem_nil⟩
  | cons key keys ih =>
    rw [List.foldlM_cons] at hrun
    rcases Option.bind_eq_some_iff.mp hrun with ⟨pvc₁, hkey, hkeys⟩
    rcases validateKey_reached hrecur hdetails htable hpvc hkey with ⟨hpvc₁, hreached⟩
    rcases ih hpvc₁ hkeys with ⟨hpvc', hreached'⟩
    rw [List.flatMap_cons]
    exact ⟨hpvc', List.forall_mem_append.mpr ⟨hreached, hreached'⟩⟩

theorem meetsConstraint_reached {ix : Nat} {constraint : UsageConstraint Conditions}
    {met : Bool} (hpvc : SameChecks start pvc)
    (hrun : SecPVCMeetsConstraint recur table start.builder.certificates[ix]? constraint pvc =
      some (met, pvc')) :
    met = isMet start ix constraint ∧ SameChecks start pvc' ∧
      ∀ evaluation ∈ constraintEvaluations table constraint, Reached start recur evaluation := by
  rw [SecPVCMeetsConstraint] at hrun
  rw [isMet, constraintEvaluations]
  cases hoptions : constraint.policyOptions with
  | none =>
    rw [hoptions, hpvc.builder] at hrun
    rcases Prod.mk.inj (Option.some.inj hrun) with ⟨rfl, rfl⟩
    exact ⟨rfl, hpvc, fun _ h => absurd h List.not_mem_nil⟩
  | some options =>
    rw [hoptions] at hrun
    rcases Option.map_eq_some_iff.mp hrun with ⟨result, hcontains, hresult⟩
    rw [SecPVCContainsTrustSettingsPolicyOption] at hcontains
    rcases Option.bind_eq_some_iff.mp hcontains with ⟨pvc₁, hleaf, hpaths⟩
    rcases Option.map_eq_some_iff.mp hpaths with ⟨pvc₂, hpath, rfl⟩
    rcases Prod.mk.inj hresult with ⟨rfl, rfl⟩
    rcases validateKeys_reached hrecur hdetails htable hpvc hleaf with ⟨hpvc₁, hreached⟩
    rcases validateKeys_reached hrecur hdetails htable hpvc₁ hpath with ⟨hpvc₂, hreached'⟩
    exact ⟨rfl, hpvc₂, List.forall_mem_append.mpr ⟨hreached, hreached'⟩⟩

theorem findConstraint_reached {ix : Nat} {considered sought : UsageConstraint Conditions → Bool}
    {constraints : List (Option (UsageConstraint Conditions))} {found : Bool}
    (hpvc : SameChecks start pvc)
    (hrun : findConstraint recur table start.builder.certificates[ix]? considered sought constraints
      pvc = some (found, pvc')) :
    SameChecks start pvc' ∧
      ∀ evaluation ∈ (visited start ix considered sought constraints).flatMap
        (constraintEvaluations table), Reached start recur evaluation := by
  induction constraints generalizing pvc with
  | nil =>
    rcases Prod.mk.inj (Option.some.inj hrun) with ⟨-, rfl⟩
    exact ⟨hpvc, fun _ h => absurd h List.not_mem_nil⟩
  | cons constraint constraints ih =>
    cases constraint with
    | none => exact ih hpvc hrun
    | some constraint =>
      rw [findConstraint] at hrun
      rw [visited]
      by_cases hconsidered : considered constraint = true
      · rw [if_pos hconsidered] at hrun ⊢
        cases hmeets : SecPVCMeetsConstraint recur table start.builder.certificates[ix]?
            constraint pvc with
        | none => simp [hmeets] at hrun
        | some result =>
          rcases result with ⟨met, pvc₁⟩
          rcases meetsConstraint_reached hrecur hdetails htable hpvc hmeets with
            ⟨rfl, hpvc₁, hreached⟩
          rw [hmeets] at hrun
          dsimp only at hrun
          split_ifs at hrun ⊢
          · rcases Prod.mk.inj (Option.some.inj hrun) with ⟨-, rfl⟩
            rw [List.flatMap_cons, List.flatMap_nil, List.append_nil]
            exact ⟨hpvc₁, hreached⟩
          · rcases ih hpvc₁ hrun with ⟨hpvc', hreached'⟩
            rw [List.flatMap_cons]
            exact ⟨hpvc', List.forall_mem_append.mpr ⟨hreached, hreached'⟩⟩
      · rw [if_neg hconsidered] at hrun ⊢
        exact ih hpvc hrun
end

section
variable [DecidableEq Value] {details : List (Dictionary Value)} {count : Nat}
  (hdetails : start.details = some details) (hcount : count ≤ details.length)
  (htable : ∀ callbacks key steps, table callbacks key = some steps →
    ∀ step ∈ steps, step.evaluation.ix < count)

include hdetails hcount

theorem noteFailure_continues {failure : Failure Value} {answer : Bool}
    (hpvc : SameChecks start pvc) (hnote : noteFailure pvc failure = (answer, pvc')) :
    SameChecks start pvc' ∧
      ∀ failure', Evaluation.setResult failure = .setResult failure' → failure'.ix < count →
        answer = true := by
  have hanswer : (noteFailure pvc failure).1 = answer := congrArg Prod.fst hnote
  have hpvc' : (noteFailure pvc failure).2 = pvc' := congrArg Prod.snd hnote
  refine ⟨hpvc' ▸ hpvc.trans (noteFailure_spec pvc failure).1, fun failure' hfailure hix => ?_⟩
  rw [← Evaluation.setResult.inj hfailure] at hix
  have hsame := hpvc.details
  rw [hdetails, Option.map_some, Option.map_eq_some_iff] at hsame
  rcases hsame with ⟨details', hdetails', hlength⟩
  have hix' : failure.ix < details'.length := by omega
  simp only [← hanswer, noteFailure, hdetails', if_pos hix']

include htable

theorem evaluate_reached (hrecur : Continues start count recur) {evaluation : Evaluation Value}
    {answer : Bool} (hpvc : SameChecks start pvc)
    (hrun : evaluate recur table evaluation pvc = some (answer, pvc')) :
    (SameChecks start pvc' ∧
      ∀ failure, evaluation = .setResult failure → failure.ix < count → answer = true) ∧
      ∀ made ∈ evaluations table start evaluation, Reached start recur made := by
  have hsome : start.details ≠ none := by simp [hdetails]
  cases evaluation with
  | trustSettings ix =>
    rw [evaluate, SecPVCGetTrustSettingsResult, hpvc.builder] at hrun
    rcases findConstraint_reached hrecur hsome htable hpvc hrun with ⟨hpvc', hreached⟩
    exact ⟨⟨hpvc', fun _ h => nomatch h⟩, hreached⟩
  | setResult failure =>
    rw [evaluate, SecPVCSetResultForcedWithTrustResult, isIgnored_eq hpvc] at hrun
    rw [evaluations]
    split_ifs at hrun ⊢
    · rcases Prod.mk.inj (Option.some.inj hrun) with ⟨rfl, rfl⟩
      exact ⟨⟨hpvc, fun _ _ _ => rfl⟩, fun _ h => absurd h List.not_mem_nil⟩
    · rw [SecPVCIsAllowedError, hpvc.builder] at hrun
      cases hallowed : findConstraint recur table start.builder.certificates[failure.ix]?
          (fun constraint => constraint.allowedError.isSome)
          (fun constraint =>
            decide (constraint.allowedError = some (detailKeyToCssmErr failure.key)))
          (start.builder.usageConstraints failure.ix) pvc with
      | none => simp [hallowed] at hrun
      | some result =>
        rcases result with ⟨allowed, pvc₁⟩
        rw [hallowed] at hrun
        rcases findConstraint_reached hrecur hsome htable hpvc hallowed with ⟨hpvc₁, hreached⟩
        refine ⟨?_, hreached⟩
        cases allowed with
        | true =>
          rcases Prod.mk.inj (Option.some.inj hrun) with ⟨rfl, rfl⟩
          exact ⟨hpvc₁, fun _ _ _ => rfl⟩
        | false =>
          have hexcepted := hpvc₁.trans (exceptedError_sameChecks failure)
          dsimp only at hrun
          split_ifs at hrun
          · rcases Prod.mk.inj (Option.some.inj hrun) with ⟨rfl, rfl⟩
            exact ⟨hexcepted, fun _ _ _ => rfl⟩
          · exact noteFailure_continues hdetails hcount hexcepted (Option.some.inj hrun)
    · exact ⟨noteFailure_continues hdetails hcount hpvc (Option.some.inj hrun),
        fun _ h => absurd h List.not_mem_nil⟩

theorem evaluateWithin_continues (depth : Nat) :
    Continues start count (evaluateWithin table depth) := by
  induction depth with
  | zero => exact fun _ _ _ _ _ h => nomatch h
  | succ depth ih =>
    intro evaluation pvc answer pvc' hpvc hrun
    exact (evaluate_reached hdetails hcount htable ih hpvc hrun).1

/-- Evaluations that end do so as those that they lead to. -/
theorem haltsWithin_of_reached {depth : Nat} {evaluation : Evaluation Value}
    (h : Reached start (evaluateWithin table depth) evaluation) :
    HaltsWithin (evaluations table start) depth evaluation := by
  induction depth generalizing evaluation with
  | zero =>
    rcases h with ⟨pvc, -, hsome⟩
    exact absurd hsome Bool.false_ne_true
  | succ depth ih =>
    rcases h with ⟨pvc, hpvc, hsome⟩
    rcases Option.isSome_iff_exists.mp hsome with ⟨⟨answer, pvc'⟩, hrun⟩
    have hreached := (evaluate_reached hdetails hcount htable
      (evaluateWithin_continues hdetails hcount htable depth) hpvc hrun).2
    exact fun made hmade => ih (hreached made hmade)
end

theorem visited_subset {ix : Nat} {considered sought : UsageConstraint Conditions → Bool}
    {constraints : List (Option (UsageConstraint Conditions))} :
    ∀ constraint ∈ visited start ix considered sought constraints, some constraint ∈ constraints := by
  induction constraints with
  | nil => exact fun _ h => absurd h List.not_mem_nil
  | cons first constraints ih =>
    intro constraint hconstraint
    cases first with
    | none => exact List.mem_cons_of_mem _ (ih constraint hconstraint)
    | some first =>
      rw [visited] at hconstraint
      split_ifs at hconstraint
      · rw [List.mem_singleton.mp hconstraint]
        exact List.mem_cons_self
      · rcases List.mem_cons.mp hconstraint with rfl | hrest
        · exact List.mem_cons_self
        · exact List.mem_cons_of_mem _ (ih constraint hrest)
      · exact List.mem_cons_of_mem _ (ih constraint hconstraint)

theorem constraintEvaluations_index {count : Nat}
    (htable : ∀ callbacks key steps, table callbacks key = some steps →
      ∀ step ∈ steps, step.evaluation.ix < count)
    {constraint : UsageConstraint Conditions} :
    ∀ evaluation ∈ constraintEvaluations table constraint, evaluation.ix < count := by
  have hkey : ∀ callbacks key, ∀ evaluation ∈ keyEvaluations table callbacks key,
      evaluation.ix < count := by
    intro callbacks key evaluation hevaluation
    rcases List.mem_map.mp hevaluation with ⟨step, hstep, rfl⟩
    cases hsteps : table callbacks key with
    | none =>
      rw [hsteps] at hstep
      exact absurd hstep List.not_mem_nil
    | some steps =>
      rw [hsteps] at hstep
      exact htable callbacks key steps hsteps step hstep
  intro evaluation hevaluation
  rw [constraintEvaluations, List.mem_append, List.mem_flatMap, List.mem_flatMap] at hevaluation
  rcases hevaluation with ⟨key, -, hmem⟩ | ⟨key, -, hmem⟩
  · exact hkey _ _ _ hmem
  · exact hkey _ _ _ hmem

theorem mem_evaluations {evaluation made : Evaluation Value}
    (h : made ∈ evaluations table start evaluation) :
    ∃ constraint, some constraint ∈ start.builder.usageConstraints evaluation.ix ∧
      made ∈ constraintEvaluations table constraint := by
  cases evaluation with
  | setResult failure =>
    rw [evaluations] at h
    split_ifs at h
    · exact absurd h List.not_mem_nil
    · rcases List.mem_flatMap.mp h with ⟨constraint, hconstraint, hmade⟩
      exact ⟨constraint, visited_subset constraint hconstraint, hmade⟩
    · exact absurd h List.not_mem_nil
  | trustSettings ix =>
    rcases List.mem_flatMap.mp h with ⟨constraint, hconstraint, hmade⟩
    exact ⟨constraint, visited_subset constraint hconstraint, hmade⟩

def chainEvaluations (table : CheckTable Value) (start : OpaqueSecPVC Value Conditions)
    (count : Nat) : List (Evaluation Value) :=
  (List.range count).flatMap fun ix =>
    ((start.builder.usageConstraints ix).filterMap id).flatMap (constraintEvaluations table)

theorem reached_finite {count : Nat}
    (htable : ∀ callbacks key steps, table callbacks key = some steps →
      ∀ step ∈ steps, step.evaluation.ix < count) (evaluation : Evaluation Value) :
    {made | ReflTransGen (LeadsTo (evaluations table start)) evaluation made}.Finite := by
  have hfinite : ({evaluation} ∪ {made | made ∈ evaluations table start evaluation} ∪
      {made | made ∈ chainEvaluations table start count}).Finite :=
    ((Set.finite_singleton _).union (List.finite_toSet _)).union (List.finite_toSet _)
  refine hfinite.subset ?_
  intro made hmade
  have hpath : made = evaluation ∨ made.ix < count ∧ (made ∈ evaluations table start evaluation ∨
      made ∈ chainEvaluations table start count) := by
    induction hmade with
    | refl => exact Or.inl rfl
    | @tail middle made _ hstep ih =>
      rcases mem_evaluations hstep with ⟨constraint, hconstraint, hmade⟩
      refine Or.inr ⟨constraintEvaluations_index htable _ hmade, ?_⟩
      rcases ih with rfl | ⟨hmiddle, -⟩
      · exact Or.inl hstep
      · refine Or.inr (List.mem_flatMap.mpr ⟨middle.ix, List.mem_range.mpr hmiddle, ?_⟩)
        refine List.mem_flatMap.mpr ⟨constraint, ?_, hmade⟩
        exact List.mem_filterMap.mpr ⟨some constraint, hconstraint, rfl⟩
  rcases hpath with rfl | ⟨-, hcalled | hchain⟩
  · exact Or.inl (Or.inl rfl)
  · exact Or.inl (Or.inr hcalled)
  · exact Or.inr hchain

/-- What is recorded does not decide about failures. -/
theorem evaluations_recorded (details : Option (List (Dictionary Value)))
    (result : SecTrustResultType) :
    evaluations table (recorded start details result) = evaluations table start := by
  have hvisited : ∀ (ix : Nat) (considered sought : UsageConstraint Conditions → Bool)
      (constraints : List (Option (UsageConstraint Conditions))),
      visited (recorded start details result) ix considered sought constraints =
        visited start ix considered sought constraints := by
    intro ix considered sought constraints
    induction constraints with
    | nil => rfl
    | cons constraint constraints ih =>
      cases constraint with
      | none => exact ih
      | some constraint =>
        rw [visited, visited, ih]
        rfl
  funext evaluation
  cases evaluation with
  | setResult failure | trustSettings ix =>
    rw [evaluations, evaluations, hvisited]
    rfl

section
variable [DecidableEq Value]

/-- With details for each certificate to collect, a report that ends leads to none that does not. -/
theorem haltsWithin_of_isSome {count depth : Nat} {failure : Failure Value}
    (htable : ∀ callbacks key steps, table callbacks key = some steps →
      ∀ step ∈ steps, step.evaluation.ix < count)
    (hsome : (evaluateWithin table depth (.setResult failure)
      (recorded start (some (List.replicate count fun _ => none)) kSecTrustResultUnspecified)).isSome) :
    HaltsWithin (evaluations table start) depth (.setResult failure) := by
  have hreached : Reached (recorded start (some (List.replicate count fun _ => none))
      kSecTrustResultUnspecified) (evaluateWithin table depth) (.setResult failure) :=
    ⟨_, .refl _, hsome⟩
  have hhalts := haltsWithin_of_reached rfl (List.length_replicate ..).ge htable hreached
  rwa [evaluations_recorded] at hhalts

/-- A report ends exactly when no failure (or trust settings) that it leads to leads back to itself:
one that is neither ignored nor beyond allowing leads to all that the checks of the policy options
report, of the constraints that are considered up to the first one that allows it. -/
theorem reportTerminates_iff (pvc : OpaqueSecPVC Value Conditions)
    (checks : PolicyChecks Value pvc.builder.certificates.length) (failure : Failure Value) :
    ReportTerminates pvc checks.table failure ↔
      ∀ evaluation,
        ReflTransGen (LeadsTo (evaluations checks.table pvc)) (.setResult failure) evaluation →
        ¬ TransGen (LeadsTo (evaluations checks.table pvc)) evaluation evaluation := by
  rw [← exists_haltsWithin_iff_acyclic (reached_finite checks.index_lt (.setResult failure))]
  constructor
  · intro hterminates
    rcases hterminates _ _ with ⟨depth, hsome⟩
    exact ⟨depth, haltsWithin_of_isSome checks.index_lt hsome⟩
  · rintro ⟨depth, hhalts⟩ details result
    rw [← evaluations_recorded details result] at hhalts
    rcases evaluateWithin_answers hhalts _ (.refl _) with ⟨answer, pvc', hrun, -⟩
    exact ⟨depth, by rw [hrun]; rfl⟩
end

/-- Of certificates that are valid or not, those that are not are reported. -/
def SecPolicyCheckTemporalValidity (valid : List Bool) (key : String) : List (CheckStep Bool) :=
  ((List.range valid.length).filter fun ix => !valid.getD ix false).map fun ix =>
    .report ⟨key, ix, false, false, kSecTrustResultInvalid⟩ true

def validityChecks (valid : List Bool) : PolicyChecks Bool valid.length where
  table callbacks key :=
    match callbacks with
    | gSecPolicyLeafCallbacks =>
      if key = "TemporalValidity" then some (SecPolicyCheckTemporalValidity valid key) else none
    | gSecPolicyPathCallbacks => none
  index_lt := by
    intro callbacks key steps hsteps step hstep
    cases callbacks with
    | gSecPolicyPathCallbacks => exact nomatch hsteps
    | gSecPolicyLeafCallbacks =>
      dsimp only at hsteps
      split_ifs at hsteps
      rw [← Option.some.inj hsteps] at hstep
      rcases List.mem_map.mp hstep with ⟨ix, hix, rfl⟩
      exact List.mem_range.mp (List.mem_filter.mp hix).1

def constrainedPVC : OpaqueSecPVC Bool Unit where
  builder :=
    { targetOSX := false
      certificates := [⟨false, none⟩]
      usageConstraints := fun _ => [some ⟨some (-2147408896), some ["TemporalValidity"], ()⟩]
      exceptions := none
      meetsConstraint := fun _ _ => true }
  policies := [["TemporalValidity"]]
  policyIX := 0
  details := none
  result := kSecTrustResultUnspecified

def expired : Failure Bool := ⟨"TemporalValidity", 0, false, false, kSecTrustResultInvalid⟩

/-- The report that the leaf has expired leads to itself. -/
theorem expired_endless :
    ¬ ReportTerminates constrainedPVC (validityChecks [false]).table expired := by
  intro hterminates
  rcases hterminates _ _ with ⟨depth, hsome⟩
  have hhalts := haltsWithin_of_isSome (validityChecks [false]).index_lt hsome
  have hcycle : (.setResult expired) ∈
      evaluations (validityChecks [false]).table constrainedPVC (.setResult expired) := by
    have hmade : evaluations (validityChecks [false]).table constrainedPVC (.setResult expired) =
        [.setResult expired] := rfl
    rw [hmade]
    exact List.mem_singleton_self _
  have hnever : ∀ depth, ¬ HaltsWithin (evaluations (validityChecks [false]).table constrainedPVC)
      depth (.setResult expired) := by
    intro depth
    induction depth with
    | zero => exact id
    | succ depth ih => exact fun h => ih (h _ hcycle)
  exact hnever depth hhalts
end SecurityFramework.Trustd.Nested
