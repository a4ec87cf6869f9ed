import Mathlib.Data.List.Basic

/-!
# Evaluating rules

A rule of class rule delegates to others, of which so many have to succeed.
-/

namespace SecurityFramework.Authd
abbrev OSStatus := Int

def errAuthorizationSuccess : OSStatus := 0

def errAuthorizationDenied : OSStatus := -60005

def errAuthorizationCanceled : OSStatus := -60006

def errAuthorizationInternal : OSStatus := -60008

structure RuleFlags where
  entitled : Bool
  requireAppleSigned : Bool
  extractPassword : Bool

/-- The classes of rules that do not delegate. Authenticating a user and running mechanisms come to
some status. -/
inductive LeafClass where
  | allow
  | deny
  | user (outcome : OSStatus)
  | mechanism (outcome : OSStatus)
  | invalid

inductive Rule where
  | leaf (flags : RuleFlags) (cls : LeafClass)
  | rule (flags : RuleFlags) (kofn : Int) (delegates : List Rule)

structure Engine where
  hasEntitlementForRight : Bool
  hasLAContext : Bool
  appleSigned : Bool

def checkFlags (engine : Engine) (flags : RuleFlags) : Option OSStatus :=
  if flags.entitled && engine.hasEntitlementForRight then some errAuthorizationSuccess
  else if (engine.hasLAContext || flags.requireAppleSigned) && !engine.appleSigned then
    some errAuthorizationDenied
  else none

def evaluateLeaf : LeafClass → OSStatus
  | .allow => errAuthorizationSuccess
  | .deny => errAuthorizationDenied
  | .user outcome => outcome
  | .mechanism outcome => outcome
  | .invalid => errAuthorizationInternal

mutual

def evaluateRule (engine : Engine) : Rule → Bool → OSStatus × Bool
  | .leaf flags cls, savePwd =>
    match checkFlags engine flags with
    | some status => (status, savePwd)
    | none => (evaluateLeaf cls, savePwd || flags.extractPassword)
  | .rule flags kofn delegates, savePwd =>
    match checkFlags engine flags with
    | some status => (status, savePwd)
    | none =>
      evaluateDelegates engine kofn delegates.length delegates 0 0 errAuthorizationDenied
        (savePwd || flags.extractPassword)
termination_by structural rule => rule

/-- The block that `_evaluate_class_rule` gives to `rule_delegates_iterator`, for the delegates that
are left. The counters of the source have 32 bits, and an array of delegates is shorter. -/
def evaluateDelegates (engine : Engine) (kofn : Int) (total : Nat) :
    List Rule → Nat → Nat → OSStatus → Bool → OSStatus × Bool
  | [], _, _, status, savePwd => (status, savePwd)
  | delegate :: delegates, successCount, count, _, savePwd =>
    let count := count + 1
    if kofn ≠ 0 ∧ (successCount : Int) = kofn then (errAuthorizationSuccess, savePwd)
    else
      let (status, savePwd) := evaluateRule engine delegate savePwd
      if status = errAuthorizationCanceled ∨ status = errAuthorizationInternal then
        (status, savePwd)
      else if status ≠ errAuthorizationSuccess then
        if kofn ≠ 0 then
          -- what is left is less than what is required
          if ((total - count : Nat) : Int) < kofn - successCount then (status, savePwd)
          else evaluateDelegates engine kofn total delegates successCount count status savePwd
        else (status, savePwd)
      else evaluateDelegates engine kofn total delegates (successCount + 1) count status savePwd
termination_by structural delegates => delegates
end

def evaluateClassRule (engine : Engine) (kofn : Int) (delegates : List Rule) (savePwd : Bool) :
    OSStatus × Bool :=
  evaluateDelegates engine kofn delegates.length delegates 0 0 errAuthorizationDenied savePwd

def Succeeds (engine : Engine) (rule : Rule) : Prop :=
  (evaluateRule engine rule false).1 = errAuthorizationSuccess

instance (engine : Engine) (rule : Rule) : Decidable (Succeeds engine rule) :=
  inferInstanceAs (Decidable (_ = _))

def successes (engine : Engine) (delegates : List Rule) : Nat :=
  delegates.countP fun delegate => Succeeds engine delegate

section
variable {engine : Engine} {delegate : Rule}

theorem successes_cons_of_succeeds (hdelegate : Succeeds engine delegate) (delegates : List Rule) :
    successes engine (delegate :: delegates) = successes engine delegates + 1 :=
  List.countP_cons_of_pos (decide_eq_true hdelegate)

theorem successes_cons_of_not (hdelegate : ¬Succeeds engine delegate) (delegates : List Rule) :
    successes engine (delegate :: delegates) = successes engine delegates :=
  List.countP_cons_of_neg fun h => hdelegate (of_decide_eq_true h)

theorem successes_le (delegates : List Rule) : successes engine delegates ≤ delegates.length :=
  List.countP_le_length

theorem successes_eq_length_iff (engine : Engine) (delegates : List Rule) :
    successes engine delegates = delegates.length ↔
      ∀ delegate ∈ delegates, Succeeds engine delegate := by
  simp [successes, List.countP_eq_length]
end

mutual

/-- Whether the password is to be saved has no part in the status. -/
theorem evaluateRule_savePwd (engine : Engine) :
    ∀ (rule : Rule) (savePwd savePwd' : Bool),
      (evaluateRule engine rule savePwd).1 = (evaluateRule engine rule savePwd').1
  | .leaf flags cls, savePwd, savePwd' => by
    rw [evaluateRule, evaluateRule]
    split <;> rfl
  | .rule flags kofn delegates, savePwd, savePwd' => by
    rw [evaluateRule, evaluateRule]
    split
    · rfl
    · exact evaluateDelegates_savePwd engine kofn delegates.length delegates 0 0 _ _ _
termination_by structural rule => rule

theorem evaluateDelegates_savePwd (engine : Engine) (kofn : Int) (total : Nat) :
    ∀ (delegates : List Rule) (successCount count : Nat) (status : OSStatus)
      (savePwd savePwd' : Bool),
      (evaluateDelegates engine kofn total delegates successCount count status savePwd).1 =
        (evaluateDelegates engine kofn total delegates successCount count status savePwd').1
  | [], _, _, _, _, _ => rfl
  | delegate :: delegates, successCount, count, _, savePwd, savePwd' => by
    have hstatus := evaluateRule_savePwd engine delegate savePwd savePwd'
    have hrest := evaluateDelegates_savePwd engine kofn total delegates
    rw [evaluateDelegates, evaluateDelegates]
    simp only [hstatus]
    split
    · rfl
    · split
      · rfl
      · split
        · split
          · split
            · rfl
            · exact hrest _ _ _ _ _
          · rfl
        · exact hrest _ _ _ _ _
termination_by structural delegates => delegates
end

/-- No leaf is canceled or fails internally. -/
inductive Rule.Decided : Rule → Prop where
  | leaf (flags : RuleFlags) (cls : LeafClass)
    (hcanceled : evaluateLeaf cls ≠ errAuthorizationCanceled)
    (hinternal : evaluateLeaf cls ≠ errAuthorizationInternal) : Decided (.leaf flags cls)
  | rule (flags : RuleFlags) (kofn : Int) (delegates : List Rule)
    (hdelegates : ∀ delegate ∈ delegates, Decided delegate) : Decided (.rule flags kofn delegates)

def Continues (status : OSStatus) : Prop :=
  ¬(status = errAuthorizationCanceled ∨ status = errAuthorizationInternal)

instance (status : OSStatus) : Decidable (Continues status) := inferInstanceAs (Decidable (¬_))

theorem continues_success : Continues errAuthorizationSuccess := by decide

theorem continues_denied : Continues errAuthorizationDenied := by decide

theorem continues_checkFlags {engine : Engine} {flags : RuleFlags} {status : OSStatus}
    (hstatus : checkFlags engine flags = some status) : Continues status := by
  rw [checkFlags] at hstatus
  split at hstatus
  · cases hstatus
    exact continues_success
  · split at hstatus
    · cases hstatus
      exact continues_denied
    · cases hstatus

theorem continues_evaluateDelegates {engine : Engine} {kofn : Int} {total : Nat}
    {delegates : List Rule}
    (hdelegates : ∀ delegate ∈ delegates, ∀ savePwd,
      Continues (evaluateRule engine delegate savePwd).1) (successCount count : Nat)
    {status : OSStatus} (hstatus : Continues status) (savePwd : Bool) :
    Continues
      (evaluateDelegates engine kofn total delegates successCount count status savePwd).1 := by
  induction delegates generalizing successCount count status savePwd with
  | nil => exact hstatus
  | cons delegate delegates ih =>
    have hdelegate := hdelegates delegate List.mem_cons_self savePwd
    have hrest := fun successCount count => @ih (fun other hother =>
      hdelegates other (List.mem_cons_of_mem _ hother)) successCount count _ hdelegate
    rw [evaluateDelegates]
    simp only
    split
    · exact continues_success
    · rw [if_neg hdelegate]
      split
      · split
        · split
          · exact hdelegate
          · exact hrest _ _ _
        · exact hdelegate
      · exact hrest _ _ _

/-- A tree of which no leaf is canceled or fails internally does not either. -/
theorem Rule.Decided.continues {engine : Engine} {rule : Rule} (hrule : rule.Decided) :
    ∀ savePwd, Continues (evaluateRule engine rule savePwd).1 := by
  induction hrule with
  | leaf flags cls hcanceled hinternal =>
    intro savePwd
    rw [evaluateRule]
    split
    case h_1 hstatus => exact continues_checkFlags hstatus
    case h_2 => exact not_or.mpr ⟨hcanceled, hinternal⟩
  | rule flags kofn delegates _ ih =>
    intro savePwd
    rw [evaluateRule]
    split
    case h_1 hstatus => exact continues_checkFlags hstatus
    case h_2 => exact continues_evaluateDelegates ih _ _ continues_denied _

section
variable {engine : Engine} {kofn : Int} {total : Nat} {delegate : Rule}

theorem evaluateRule_of_succeeds (hdelegate : Succeeds engine delegate) (savePwd : Bool) :
    (evaluateRule engine delegate savePwd).1 = errAuthorizationSuccess := by
  rw [evaluateRule_savePwd engine delegate savePwd false]
  exact hdelegate

theorem evaluateRule_of_not_succeeds (hdelegate : ¬Succeeds engine delegate) (savePwd : Bool) :
    (evaluateRule engine delegate savePwd).1 ≠ errAuthorizationSuccess := by
  rw [evaluateRule_savePwd engine delegate savePwd false]
  exact hdelegate

theorem evaluateDelegates_enough (delegates : List Rule) {successCount : Nat} (hkofn : kofn ≠ 0)
    (henough : (successCount : Int) = kofn) (count : Nat) (status : OSStatus) (savePwd : Bool) :
    evaluateDelegates engine kofn total (delegate :: delegates) successCount count status savePwd =
      (errAuthorizationSuccess, savePwd) := by
  rw [evaluateDelegates]
  exact if_pos ⟨hkofn, henough⟩

theorem evaluateDelegates_success (delegates : List Rule) {successCount : Nat}
    (hmore : ¬(kofn ≠ 0 ∧ (successCount : Int) = kofn)) (hdelegate : Succeeds engine delegate)
    (count : Nat) (status : OSStatus) (savePwd : Bool) :
    evaluateDelegates engine kofn total (delegate :: delegates) successCount count status savePwd =
      evaluateDelegates engine kofn total delegates (successCount + 1) (count + 1)
        errAuthorizationSuccess (evaluateRule engine delegate savePwd).2 := by
  have hstatus := evaluateRule_of_succeeds hdelegate savePwd
  rw [evaluateDelegates]
  simp only [if_neg hmore, hstatus]
  rw [if_neg continues_success, if_neg (not_not_intro rfl)]

/-- The delegate fails. With a number of delegates required, the others are evaluated if there are
enough of them. -/
theorem evaluateDelegates_failure (total : Nat) (delegates : List Rule) {successCount : Nat}
    (hmore : ¬(kofn ≠ 0 ∧ (successCount : Int) = kofn)) (hdelegate : ¬Succeeds engine delegate)
    (hdecided : delegate.Decided) (count : Nat) (status : OSStatus) (savePwd : Bool) :
    ∃ failed savePwd', failed ≠ errAuthorizationSuccess ∧
      evaluateDelegates engine kofn total (delegate :: delegates) successCount count status
        savePwd =
        if kofn ≠ 0 ∧ ¬((total - (count + 1) : Nat) : Int) < kofn - successCount then
          evaluateDelegates engine kofn total delegates successCount (count + 1) failed savePwd'
        else (failed, savePwd') := by
  have hfailed := evaluateRule_of_not_succeeds hdelegate savePwd
  refine ⟨_, (evaluateRule engine delegate savePwd).2, hfailed, ?_⟩
  rw [evaluateDelegates]
  simp only [if_neg hmore]
  rw [if_neg (hdecided.continues savePwd), if_pos hfailed]
  by_cases hkofn : kofn ≠ 0
  · rw [if_pos hkofn]
    split
    case isTrue hless => rw [if_neg (fun h => h.2 hless)]
    case isFalse hless => rw [if_pos ⟨hkofn, hless⟩]
  · rw [if_neg hkofn, if_neg (fun h => hkofn h.1)]

theorem evaluateDelegates_all (delegates : List Rule)
    (hdecided : ∀ delegate ∈ delegates, delegate.Decided) (successCount count : Nat)
    (status : OSStatus) (savePwd : Bool) :
    (evaluateDelegates engine 0 total delegates successCount count status savePwd).1 =
        errAuthorizationSuccess ↔
      (∀ delegate ∈ delegates, Succeeds engine delegate) ∧
        (delegates = [] → status = errAuthorizationSuccess) := by
  induction delegates generalizing successCount count status savePwd with
  | nil =>
    rw [evaluateDelegates]
    simp
  | cons delegate delegates ih =>
    have hrest := ih fun other hother => hdecided other (List.mem_cons_of_mem _ hother)
    have hmore : ¬((0 : Int) ≠ 0 ∧ (successCount : Int) = 0) := fun h => h.1 rfl
    by_cases hdelegate : Succeeds engine delegate
    · rw [evaluateDelegates_success delegates hmore hdelegate, hrest, List.forall_mem_cons]
      simp [hdelegate]
    · obtain ⟨failed, savePwd', hfailed, heq⟩ := evaluateDelegates_failure total
        delegates hmore hdelegate (hdecided delegate List.mem_cons_self) count status savePwd
      rw [heq, if_neg (fun h => h.1 rfl), List.forall_mem_cons]
      simp [hdelegate, hfailed]

/-- With a positive number, the delegates succeed when so many of them do, and also when all of them
do. -/
theorem evaluateDelegates_kofn (hkofn : 0 < kofn) (delegates : List Rule)
    (hdecided : ∀ delegate ∈ delegates, delegate.Decided) {successCount count : Nat}
    {status : OSStatus} (htotal : total = count + delegates.length)
    (hle : (successCount : Int) ≤ kofn)
    (hreached : (successCount : Int) = kofn → status = errAuthorizationSuccess) (savePwd : Bool) :
    (evaluateDelegates engine kofn total delegates successCount count status savePwd).1 =
        errAuthorizationSuccess ↔
      kofn ≤ successCount + successes engine delegates ∨
        (∀ delegate ∈ delegates, Succeeds engine delegate) ∧
          (delegates = [] → status = errAuthorizationSuccess) := by
  have hne : kofn ≠ 0 := by omega
  induction delegates generalizing successCount count status savePwd with
  | nil =>
    have hnone : successes engine [] = 0 := rfl
    rw [evaluateDelegates, hnone]
    simp only [List.not_mem_nil, false_implies, implies_true, true_and, true_implies]
    constructor
    · exact Or.inr
    · rintro (hreach | hstatus)
      · exact hreached (by omega)
      · exact hstatus
  | cons delegate delegates ih =>
    have hrest := @ih fun other hother => hdecided other (List.mem_cons_of_mem _ hother)
    have hlength : total = count + 1 + delegates.length := by
      rw [htotal, List.length_cons]
      omega
    by_cases henough : (successCount : Int) = kofn
    · rw [evaluateDelegates_enough delegates hne henough]
      exact iff_of_true rfl (.inl (by omega))
    · have hmore : ¬(kofn ≠ 0 ∧ (successCount : Int) = kofn) := fun h => henough h.2
      by_cases hdelegate : Succeeds engine delegate
      · have hsum : ((successCount + 1 : Nat) : Int) + successes engine delegates =
            successCount + (successes engine delegates + 1 : Nat) := by omega
        rw [evaluateDelegates_success delegates hmore hdelegate, List.forall_mem_cons,
          successes_cons_of_succeeds hdelegate, ← hsum]
        apply (hrest hlength (by omega) (fun _ => rfl) _).trans
        simp [hdelegate]
      · obtain ⟨failed, savePwd', hfailed, heq⟩ := evaluateDelegates_failure total
          delegates hmore hdelegate (hdecided delegate List.mem_cons_self) count status savePwd
        have hall : ¬∀ other ∈ delegate :: delegates, Succeeds engine other :=
          fun hall => hdelegate (hall delegate List.mem_cons_self)
        rw [heq, successes_cons_of_not hdelegate]
        simp only [hall, false_and, or_false]
        split
        case isTrue hgoes =>
          apply (hrest hlength hle (fun h => absurd h henough) _).trans
          constructor
          · rintro (hcount | ⟨hall, -⟩)
            · exact hcount
            · have hevery := (successes_eq_length_iff engine delegates).mpr hall
              omega
          · exact Or.inl
        case isFalse hstops =>
          have hmost : successes engine delegates ≤ delegates.length := successes_le delegates
          have hfew : ((total - (count + 1) : Nat) : Int) < kofn - successCount := by
            by_contra hnot
            exact hstops ⟨hne, hnot⟩
          exact iff_of_false hfailed (by omega)

theorem evaluateDelegates_negative (hkofn : kofn < 0) (delegates : List Rule)
    (hdecided : ∀ delegate ∈ delegates, delegate.Decided) (successCount count : Nat)
    (status : OSStatus) (savePwd : Bool) :
    (evaluateDelegates engine kofn total delegates successCount count status savePwd).1 =
        errAuthorizationSuccess ↔
      match delegates.getLast? with
      | some last => Succeeds engine last
      | none => status = errAuthorizationSuccess := by
  induction delegates generalizing successCount count status savePwd with
  | nil =>
    rw [evaluateDelegates]
    rfl
  | cons delegate delegates ih =>
    have hrest := ih fun other hother => hdecided other (List.mem_cons_of_mem _ hother)
    have hmore : ¬(kofn ≠ 0 ∧ (successCount : Int) = kofn) := by omega
    have hgoes : kofn ≠ 0 ∧ ¬((total - (count + 1) : Nat) : Int) < kofn - successCount := by omega
    by_cases hdelegate : Succeeds engine delegate
    · rw [evaluateDelegates_success delegates hmore hdelegate, hrest, List.getLast?_cons]
      cases delegates.getLast? with
      | none => exact iff_of_true rfl hdelegate
      | some last => exact Iff.rfl
    · obtain ⟨failed, savePwd', hfailed, heq⟩ := evaluateDelegates_failure total
        delegates hmore hdelegate (hdecided delegate List.mem_cons_self) count status savePwd
      rw [heq, if_pos hgoes, hrest, List.getLast?_cons]
      cases delegates.getLast? with
      | none => exact iff_of_false hfailed hdelegate
      | some last => exact Iff.rfl
end

/-- So many delegates succeed, or all of them if no number is given; and there is one. -/
def EnoughSucceed (engine : Engine) (kofn : Int) (delegates : List Rule) : Prop :=
  delegates ≠ [] ∧
    if kofn = 0 then ∀ delegate ∈ delegates, Succeeds engine delegate
    else kofn ≤ successes engine delegates

/-- The number is not more than there are delegates, unless one fails; and it is not negative, unless
the last delegate succeeds. -/
def KofnMeant (engine : Engine) (kofn : Int) (delegates : List Rule) : Prop :=
  (delegates.length < kofn → delegates ≠ [] → ∃ delegate ∈ delegates, ¬Succeeds engine delegate) ∧
    (kofn < 0 → ∀ last, delegates.getLast? = some last → Succeeds engine last)

def noFlags : RuleFlags := ⟨false, false, false⟩

def plainEngine : Engine := ⟨false, false, true⟩

end SecurityFramework.Authd
