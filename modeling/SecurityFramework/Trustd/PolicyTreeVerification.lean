import SecurityFramework.Trustd.PolicyTree

/-!
# Policy tree verification

RFC 5280 section 6.1 for the certificate policies of a path, from its root to its leaf.
-/

namespace SecurityFramework.Trustd
structure SecCEPolicyInformation where
  policyIdentifier : oid_t
  policyQualifiers : DERItem

structure SecCEPolicyMapping where
  issuerDomainPolicy : oid_t
  subjectDomainPolicy : oid_t

structure SecCEPolicyConstraints where
  requireExplicitPolicy : Option Nat
  inhibitPolicyMapping : Option Nat

/-- What the policy tree needs of a certificate; an extension that is not present is `none`. -/
structure PolicyCertificate where
  certificatePolicies : Option (List SecCEPolicyInformation)
  policyMappings : Option (List SecCEPolicyMapping)
  policyConstraints : Option SecCEPolicyConstraints
  inhibitAnyPolicySkipCerts : Option Nat
  normalizedIssuer : Option DERItem
  normalizedSubject : Option DERItem

inductive PolicyTreeVerificationResult
  | kSecPolicyTreeVerificationUnknown | kSecPolicyTreeVerificationFalse
  | kSecPolicyTreeVerificationTrue
  deriving DecidableEq

open PolicyTreeVerificationResult

structure SecCertificatePathVC where
  leaf : PolicyCertificate
  issuers : List PolicyCertificate
  policy_tree : Option PolicyTree
  policy_tree_verification_result : PolicyTreeVerificationResult

def SecCertificatePathVC.certificates (path : SecCertificatePathVC) : List PolicyCertificate :=
  path.leaf :: path.issuers

attribute [local instance] DER.lawfulBEq_octets in
def policy_tree_add_if_match (p_oid : oid_t) (p_q : DERItem) : PolicyTreeCallback := fun node =>
  if p_oid ∈ node.expected_policy_set then
    visited true (policy_tree_add_child node p_oid (some p_q))
  else visited false node

def policy_tree_add_if_any (p_oid : oid_t) (p_q : DERItem) : PolicyTreeCallback := fun node =>
  if node.valid_policy = oidAnyPolicy then
    visited true (policy_tree_add_child node p_oid (some p_q))
  else visited false node

def policy_tree_has_child_with_oid (node : PolicyTree) (oid : oid_t) : Bool :=
  node.children.any fun child => decide (child.valid_policy = oid)

def policy_tree_add_expected (p_q : DERItem) : PolicyTreeCallback := fun node =>
  node.expected_policy_set.foldl (fun visit oid =>
    if policy_tree_has_child_with_oid visit.node oid then visit
    else visited true (policy_tree_add_child visit.node oid (some p_q))) (visited false node)

/-- The policies that the mappings give for one of the issuer, the last mapping first. -/
def mappedPolicies (pm : List SecCEPolicyMapping) (issuerDomainPolicy : oid_t) : List oid_t :=
  ((pm.filter fun mapping => mapping.issuerDomainPolicy = issuerDomainPolicy).map
    SecCEPolicyMapping.subjectDomainPolicy).reverse

def policy_tree_map_if_match (pm : List SecCEPolicyMapping) : PolicyTreeCallback := fun node =>
  if node.valid_policy = oidAnyPolicy then visited false node
  else if mappedPolicies pm node.valid_policy = [] then visited false node
  else
    visited true (policy_tree_set_expected_policy (mappedPolicies pm node.valid_policy) node)

/-- The issuer's policies, each once, go through a dictionary and come out in its order. -/
def policy_tree_map_if_any (dictionaryOrder : List oid_t → List oid_t)
    (pm : List SecCEPolicyMapping) : PolicyTreeCallback := fun node =>
  if node.valid_policy = oidAnyPolicy then
    ⟨true, node,
      ((dictionaryOrder (pm.map SecCEPolicyMapping.issuerDomainPolicy).dedup).map fun id_p =>
        .node id_p node.qualifier_set (mappedPolicies pm id_p) []).reverse, false⟩
  else visited false node

def policy_tree_map_delete_if_match (pm : List SecCEPolicyMapping) : PolicyTreeCallback :=
  fun node =>
    if node.valid_policy = oidAnyPolicy then visited false node
    else
      ⟨true, node, [], pm.any fun mapping => decide (node.valid_policy = mapping.issuerDomainPolicy)⟩

structure PolicyState where
  policy_tree : Option PolicyTree
  explicit_policy : Nat
  inhibit_any_policy : Nat
  policy_mapping : Nat

def isSelfIssued (cert : PolicyCertificate) : Bool :=
  cert.normalizedIssuer.isSome && decide (cert.normalizedIssuer = cert.normalizedSubject)

/-- (d), the policies other than `anyPolicy`. -/
def addPolicies (policies : List SecCEPolicyInformation) (depth : Nat) (tree : PolicyTree) :
    PolicyTree :=
  policies.foldl (fun tree policy =>
    if policy.policyIdentifier = oidAnyPolicy then tree
    else
      let walked := policy_tree_walk_depth tree depth
        (policy_tree_add_if_match policy.policyIdentifier policy.policyQualifiers)
      if walked.1 then walked.2
      else
        (policy_tree_walk_depth walked.2 depth
          (policy_tree_add_if_any policy.policyIdentifier policy.policyQualifiers)).2) tree

/-- (d), `anyPolicy`. -/
def addAnyPolicy (policies : List SecCEPolicyInformation) (depth : Nat) (tree : PolicyTree) :
    PolicyTree :=
  policies.foldl (fun tree policy =>
    if policy.policyIdentifier = oidAnyPolicy then
      (policy_tree_walk_depth tree depth (policy_tree_add_expected policy.policyQualifiers)).2
    else tree) tree

/-- (d) and (e) for certificate `i` of `n`. -/
def growTree (n i : Nat) (cert : PolicyCertificate) (state : PolicyState) : Option PolicyTree :=
  match state.policy_tree with
  | none => none
  | some tree =>
    match cert.certificatePolicies with
    | none => none
    | some policies =>
      let tree := addPolicies policies (i - 1) tree
      let tree :=
        if 0 < state.inhibit_any_policy ∨ i < n ∧ isSelfIssued cert then
          addAnyPolicy policies (i - 1) tree
        else tree
      policy_tree_prune_childless tree (i - 1)

def mapsAnyPolicy (pm : List SecCEPolicyMapping) : Bool :=
  pm.any fun mapping =>
    decide (mapping.issuerDomainPolicy = oidAnyPolicy ∨ mapping.subjectDomainPolicy = oidAnyPolicy)

/-- (b) of the preparation for the next certificate. -/
def mapTree (dictionaryOrder : List oid_t → List oid_t) (pm : List SecCEPolicyMapping) (i : Nat)
    (policy_mapping : Nat) : Option PolicyTree → Option PolicyTree
  | none => none
  | some tree =>
    if 0 < policy_mapping then
      let walked := policy_tree_walk_depth tree i (policy_tree_map_if_match pm)
      if walked.1 then some walked.2
      else some (policy_tree_walk_depth walked.2 i (policy_tree_map_if_any dictionaryOrder pm)).2
    else
      policy_tree_prune_childless
        (policy_tree_walk_depth tree i (policy_tree_map_delete_if_match pm)).2 (i - 1)

def lowered (counter : Nat) (limit : Option Nat) : Nat :=
  match limit with
  | none => counter
  | some limit => if limit < counter then limit else counter

/-- (h), (i) and (j). -/
def updateCounters (cert : PolicyCertificate) (state : PolicyState) : PolicyState :=
  let decrement := if isSelfIssued cert then 0 else 1
  { state with
    explicit_policy := lowered (state.explicit_policy - decrement)
      (cert.policyConstraints.bind SecCEPolicyConstraints.requireExplicitPolicy)
    policy_mapping := lowered (state.policy_mapping - decrement)
      (cert.policyConstraints.bind SecCEPolicyConstraints.inhibitPolicyMapping)
    inhibit_any_policy := lowered (state.inhibit_any_policy - decrement)
      cert.inhibitAnyPolicySkipCerts }

/-- (f): without a tree, a policy must not be required. -/
def policyViolated (state : PolicyState) : Bool :=
  state.policy_tree.isNone && decide (state.explicit_policy = 0)

def processCertificates (dictionaryOrder : List oid_t → List oid_t) (n : Nat) :
    Nat → List PolicyCertificate → PolicyState → Bool × PolicyState
  | _, [], state => (true, state)
  | i, cert :: certs, state =>
    let grown := { state with policy_tree := growTree n i cert state }
    if policyViolated grown then (false, grown)
    else if i = n then (true, grown)
    else
      match cert.policyMappings with
      | none => processCertificates dictionaryOrder n (i + 1) certs (updateCounters cert grown)
      | some pm =>
        if mapsAnyPolicy pm then (false, grown)
        else
          processCertificates dictionaryOrder n (i + 1) certs (updateCounters cert
            { grown with
              policy_tree := mapTree dictionaryOrder pm i grown.policy_mapping grown.policy_tree })

/-- (a) and (b) of the wrap-up, which look at the leaf. -/
def wrapUp (leaf : PolicyCertificate) (state : PolicyState) : PolicyState :=
  { state with
    explicit_policy :=
      if leaf.policyConstraints.bind SecCEPolicyConstraints.requireExplicitPolicy = some 0 then 0
      else state.explicit_policy - 1 }

def INT32_MAX : Nat := 2 ^ 31 - 1

def verifyCertificates (dictionaryOrder : List oid_t → List oid_t) (leaf : PolicyCertificate)
    (certs : List PolicyCertificate) : Bool × PolicyState :=
  let processed := processCertificates dictionaryOrder certs.length 1 certs
    ⟨some (policy_tree_create oidAnyPolicy none), certs.length + 1, certs.length + 1,
      certs.length + 1⟩
  if processed.1 then (!policyViolated (wrapUp leaf processed.2), wrapUp leaf processed.2)
  else processed

/-- A trusted anchor is not processed. -/
def processedCertificates (path : SecCertificatePathVC) (anchor_trusted : Bool) :
    List PolicyCertificate :=
  if anchor_trusted then path.certificates.reverse.tail else path.certificates.reverse

def verificationResult (result : Bool) : PolicyTreeVerificationResult :=
  if result then kSecPolicyTreeVerificationTrue else kSecPolicyTreeVerificationFalse

def SecCertificatePathVCVerifyPolicyTree (dictionaryOrder : List oid_t → List oid_t)
    (path : SecCertificatePathVC) (anchor_trusted : Bool) : Bool × SecCertificatePathVC :=
  if path.policy_tree_verification_result ≠ kSecPolicyTreeVerificationUnknown then
    (decide (path.policy_tree_verification_result = kSecPolicyTreeVerificationTrue), path)
  else if INT32_MAX < path.certificates.length then
    (false, { path with
      policy_tree := some (policy_tree_create oidAnyPolicy none)
      policy_tree_verification_result := verificationResult false })
  else
    let verified := verifyCertificates dictionaryOrder path.leaf
      (processedCertificates path anchor_trusted)
    (verified.1, { path with
      policy_tree := verified.2.policy_tree
      policy_tree_verification_result := verificationResult verified.1 })

def freshCopy (path : SecCertificatePathVC) : SecCertificatePathVC :=
  { path with
    policy_tree := none
    policy_tree_verification_result := kSecPolicyTreeVerificationUnknown }

section
variable (dictionaryOrder : List oid_t → List oid_t)

def verifyPolicyTrees : SecCertificatePathVC → List Bool → List Bool
  | _, [] => []
  | path, anchor_trusted :: calls =>
    (SecCertificatePathVCVerifyPolicyTree dictionaryOrder path anchor_trusted).1 ::
      verifyPolicyTrees
        (SecCertificatePathVCVerifyPolicyTree dictionaryOrder path anchor_trusted).2 calls

/-- Every call returns what it would return on a fresh copy of the path. -/
def AnswersAsFresh (path : SecCertificatePathVC) (calls : List Bool) : Prop :=
  verifyPolicyTrees dictionaryOrder (freshCopy path) calls =
    calls.map fun anchor_trusted =>
      (SecCertificatePathVCVerifyPolicyTree dictionaryOrder (freshCopy path) anchor_trusted).1

/-- The path is too long, or its other certificates fare alike with the root and without it. -/
def RootIndifferent (path : SecCertificatePathVC) : Prop :=
  INT32_MAX < path.certificates.length ∨
    (verifyCertificates dictionaryOrder path.leaf path.certificates.reverse.tail).1 =
      (verifyCertificates dictionaryOrder path.leaf path.certificates.reverse).1

theorem verifyPolicyTrees_known {path : SecCertificatePathVC}
    (hknown : path.policy_tree_verification_result ≠ kSecPolicyTreeVerificationUnknown)
    (calls : List Bool) :
    verifyPolicyTrees dictionaryOrder path calls = calls.map fun _ =>
      decide (path.policy_tree_verification_result = kSecPolicyTreeVerificationTrue) := by
  induction calls with
  | nil => rfl
  | cons anchor_trusted calls ih =>
    have hcall : SecCertificatePathVCVerifyPolicyTree dictionaryOrder path anchor_trusted =
        (decide (path.policy_tree_verification_result = kSecPolicyTreeVerificationTrue), path) :=
      if_pos hknown
    rw [verifyPolicyTrees, hcall, List.map_cons, ih]

theorem verificationResult_known (result : Bool) :
    verificationResult result ≠ kSecPolicyTreeVerificationUnknown ∧
      decide (verificationResult result = kSecPolicyTreeVerificationTrue) = result := by
  cases result with
  | false | true => exact ⟨by decide, rfl⟩

variable (path : SecCertificatePathVC)

/-- After a call on a fresh path, the path knows what that call returned. -/
theorem known_after_call (anchor_trusted : Bool) :
    let called := SecCertificatePathVCVerifyPolicyTree dictionaryOrder (freshCopy path)
      anchor_trusted
    called.2.policy_tree_verification_result ≠ kSecPolicyTreeVerificationUnknown ∧
      decide (called.2.policy_tree_verification_result = kSecPolicyTreeVerificationTrue) =
        called.1 := by
  rw [SecCertificatePathVCVerifyPolicyTree, if_neg (fun h => h rfl)]
  split_ifs
  · exact verificationResult_known false
  · exact verificationResult_known _

theorem fresh_verdict_eq_iff :
    (SecCertificatePathVCVerifyPolicyTree dictionaryOrder (freshCopy path) true).1 =
        (SecCertificatePathVCVerifyPolicyTree dictionaryOrder (freshCopy path) false).1 ↔
      RootIndifferent dictionaryOrder path := by
  have hfresh : ∀ anchor_trusted,
      (SecCertificatePathVCVerifyPolicyTree dictionaryOrder (freshCopy path) anchor_trusted).1 =
        if INT32_MAX < path.certificates.length then false
        else (verifyCertificates dictionaryOrder path.leaf
          (processedCertificates path anchor_trusted)).1 := by
    intro anchor_trusted
    rw [SecCertificatePathVCVerifyPolicyTree, if_neg (fun h => h rfl)]
    exact apply_ite Prod.fst _ _ _
  rw [hfresh, hfresh, RootIndifferent]
  by_cases hlong : INT32_MAX < path.certificates.length
  · rw [if_pos hlong, if_pos hlong]
    exact iff_of_true rfl (Or.inl hlong)
  · rw [if_neg hlong, if_neg hlong]
    exact (or_iff_right hlong).symm

theorem answersAsFresh_cons (first : Bool) (calls : List Bool) :
    AnswersAsFresh dictionaryOrder path (first :: calls) ↔
      ∀ anchor_trusted ∈ calls,
        (SecCertificatePathVCVerifyPolicyTree dictionaryOrder (freshCopy path) first).1 =
          (SecCertificatePathVCVerifyPolicyTree dictionaryOrder (freshCopy path)
            anchor_trusted).1 := by
  have hknown := known_after_call dictionaryOrder path first
  rw [AnswersAsFresh, verifyPolicyTrees, List.map_cons, List.cons.injEq, eq_self, true_and,
    verifyPolicyTrees_known dictionaryOrder hknown.1, hknown.2, List.map_inj_left]

/-- The calls agree with fresh ones exactly if they all ask the same or the root does not matter. -/
theorem answersAsFresh_iff (calls : List Bool) :
    AnswersAsFresh dictionaryOrder path calls ↔
      (∀ anchor_trusted ∈ calls, ∀ other ∈ calls, anchor_trusted = other) ∨
        RootIndifferent dictionaryOrder path := by
  rw [← fresh_verdict_eq_iff]
  cases calls with
  | nil => exact iff_of_true rfl (Or.inl (by simp))
  | cons first calls =>
    rw [answersAsFresh_cons]
    constructor
    · intro hsame
      by_cases hall : ∀ anchor_trusted ∈ calls, anchor_trusted = first
      · left
        intro anchor_trusted hmem other hmem'
        have heq : ∀ call ∈ first :: calls, call = first := List.forall_mem_cons.mpr ⟨rfl, hall⟩
        rw [heq anchor_trusted hmem, heq other hmem']
      · right
        push Not at hall
        rcases hall with ⟨anchor_trusted, hmem, hne⟩
        have hverdict := hsame anchor_trusted hmem
        cases first with
        | false =>
          rw [Bool.eq_true_of_not_eq_false hne] at hverdict
          exact hverdict.symm
        | true =>
          rw [Bool.eq_false_of_not_eq_true hne] at hverdict
          exact hverdict
    · rintro (hall | hverdict) anchor_trusted hmem
      · rw [hall first List.mem_cons_self anchor_trusted (List.mem_cons_of_mem _ hmem)]
      · cases first with
        | false => cases anchor_trusted with
          | false => rfl
          | true => exact hverdict.symm
        | true => cases anchor_trusted with
          | false => exact hverdict
          | true => rfl
end

def plainCertificate : PolicyCertificate := ⟨none, none, none, none, none, none⟩

def requiringCertificate : PolicyCertificate := ⟨none, none, some ⟨some 0, none⟩, none, none, none⟩

def requiringPath : SecCertificatePathVC :=
  ⟨plainCertificate, [requiringCertificate], none, kSecPolicyTreeVerificationUnknown⟩

theorem requiringPath_not_indifferent (dictionaryOrder : List oid_t → List oid_t) :
    ¬ RootIndifferent dictionaryOrder requiringPath := by
  rintro (hlong | hverdict)
  · exact absurd hlong (by decide)
  · exact nomatch hverdict

/-- For one path, and for the calls whatever the path. -/
theorem memoised_verdict_iff (dictionaryOrder : List oid_t → List oid_t) (calls : List Bool) :
    (∀ path, AnswersAsFresh dictionaryOrder path calls ↔
      (∀ anchor_trusted ∈ calls, ∀ other ∈ calls, anchor_trusted = other) ∨
        RootIndifferent dictionaryOrder path) ∧
    ((∀ path, AnswersAsFresh dictionaryOrder path calls) ↔
      ∀ anchor_trusted ∈ calls, ∀ other ∈ calls, anchor_trusted = other) := by
  refine ⟨fun path => answersAsFresh_iff dictionaryOrder path calls, ?_, ?_⟩
  · intro hall
    exact ((answersAsFresh_iff dictionaryOrder requiringPath calls).mp
      (hall requiringPath)).resolve_right (requiringPath_not_indifferent dictionaryOrder)
  · exact fun hsame path => (answersAsFresh_iff dictionaryOrder path calls).mpr (Or.inl hsame)

/-- Once it was refused without a trusted anchor, the path is refused with one. -/
theorem trusted_after_untrusted : ¬ AnswersAsFresh id requiringPath [false, true] := by
  intro hfresh
  exact nomatch hfresh
end SecurityFramework.Trustd
