import SecurityFramework.Library.Run
import SecurityFramework.Trustd.LibDER

/-!
# The policy tree

The valid policy tree of RFC 5280 section 6.1.2.
-/

namespace SecurityFramework.Trustd
abbrev oid_t := DERItem

/-- `anyPolicy`, 2.5.29.32.0. -/
def oidAnyPolicy : oid_t := [0x55, 0x1D, 0x20, 0x00]

inductive PolicyTree
  | node (valid_policy : oid_t) (qualifier_set : Option DERItem)
    (expected_policy_set : List oid_t) (children : List PolicyTree)

namespace PolicyTree
def valid_policy : PolicyTree → oid_t
  | .node valid_policy _ _ _ => valid_policy

def qualifier_set : PolicyTree → Option DERItem
  | .node _ qualifier_set _ _ => qualifier_set

def expected_policy_set : PolicyTree → List oid_t
  | .node _ _ expected_policy_set _ => expected_policy_set

def children : PolicyTree → List PolicyTree
  | .node _ _ _ children => children

def setChildren (children : List PolicyTree) : PolicyTree → PolicyTree
  | .node valid_policy qualifier_set expected_policy_set _ =>
    .node valid_policy qualifier_set expected_policy_set children
end PolicyTree

def policy_tree_create (p_oid : oid_t) (p_q : Option DERItem) : PolicyTree :=
  .node p_oid p_q [p_oid] []

def policy_tree_add_child (parent : PolicyTree) (p_oid : oid_t) (p_q : Option DERItem) :
    PolicyTree :=
  parent.setChildren (.node p_oid p_q [p_oid] [] :: parent.children)

def policy_tree_set_expected_policy (p_expected : List oid_t) : PolicyTree → PolicyTree
  | .node valid_policy qualifier_set _ children =>
    .node valid_policy qualifier_set p_expected children

/-- What a callback did: its result, the node, the siblings it has put before all others, and whether
the node was removed. -/
structure PolicyTreeVisit where
  matched : Bool
  node : PolicyTree
  siblings : List PolicyTree
  removed : Bool

abbrev PolicyTreeCallback := PolicyTree → PolicyTreeVisit

def visited (matched : Bool) (node : PolicyTree) : PolicyTreeVisit := ⟨matched, node, [], false⟩

/-- Visit the nodes after those in `before`. A removed node leaves its parent with the nodes after
it alone, `parent->children = (*node)->siblings`. -/
def visitSiblings (callback : PolicyTreeCallback) :
    List PolicyTree → List PolicyTree → Bool × List PolicyTree
  | before, [] => (false, before)
  | before, node :: after =>
    let visit := callback node
    let rest := visitSiblings callback
      (if visit.removed then [] else visit.siblings ++ before ++ [visit.node]) after
    (visit.matched || rest.1, rest.2)

def walkSiblings (callback : PolicyTreeCallback) :
    Nat → List PolicyTree → Bool × List PolicyTree
  | 0, nodes => visitSiblings callback [] nodes
  | depth + 1, nodes =>
    (nodes.any fun node => (walkSiblings callback depth node.children).1,
      nodes.map fun node => node.setChildren (walkSiblings callback depth node.children).2)

def POLICY_TREE_DEPTH_MAX : Nat := 15

/-- The root has no siblings, and no callback removes it. -/
def policy_tree_walk_depth (root : PolicyTree) (depth : Nat) (callback : PolicyTreeCallback) :
    Bool × PolicyTree :=
  if POLICY_TREE_DEPTH_MAX ≤ depth then (false, root)
  else
    match depth with
    | 0 => ((callback root).matched, (callback root).node)
    | depth + 1 =>
      ((walkSiblings callback depth root.children).1,
        root.setChildren (walkSiblings callback depth root.children).2)

/-- Remove the nodes without children, those so many levels below the siblings first. -/
def pruneSiblings : Nat → List PolicyTree → List PolicyTree
  | 0, nodes => nodes.filter fun node => !node.children.isEmpty
  | depth + 1, nodes =>
    (nodes.map fun node => node.setChildren (pruneSiblings depth node.children)).filter
      fun node => !node.children.isEmpty

/-- Nothing is left when the root has no children in the end. -/
def policy_tree_prune_childless (root : PolicyTree) (depth : Nat) : Option PolicyTree :=
  (pruneSiblings depth [root]).head?
end SecurityFramework.Trustd

namespace SecurityFramework.Trustd
/-- The node that was added last comes first. -/
abbrev policy_set_t := List oid_t

def policy_set_add (policy_set : policy_set_t) (p_oid : oid_t) : policy_set_t := p_oid :: policy_set

def policy_set_contains (node : policy_set_t) (oid : oid_t) : Bool := decide (oid ∈ node)

/-- Neither loop over the other set goes to its next node, so that only an empty set ends them. -/
def policy_set_intersect (policy_set other_set : policy_set_t) : Option policy_set_t :=
  if policy_set_contains policy_set oidAnyPolicy then
    if other_set = [] then some [] else none
  else if policy_set_contains other_set oidAnyPolicy then some policy_set
  else some (policy_set.filter (policy_set_contains other_set))

/-- One turn of the loop that adds the identifiers of `node` that the set does not contain. The loop
stays at its node. -/
def addMissing : policy_set_t × policy_set_t → Option (policy_set_t × policy_set_t)
  | (_, []) => none
  | (policy_set, oid :: node) =>
    if policy_set_contains policy_set oid then some (policy_set, oid :: node)
    else some (policy_set_add policy_set oid, oid :: node)

def addEach : policy_set_t × policy_set_t → Option (policy_set_t × policy_set_t)
  | (_, []) => none
  | (policy_set, oid :: node) => some (policy_set_add policy_set oid, oid :: node)

/-- One turn of the loop that unlinks the identifiers that the other set does not contain: the nodes
before `*pnode`, and those from there on. -/
def removeOthers (other_set : policy_set_t) :
    policy_set_t × policy_set_t → Option (policy_set_t × policy_set_t)
  | (_, []) => none
  | (before, oid :: after) =>
    if policy_set_contains other_set oid then some (before ++ [oid], after)
    else some (before, after)

def policy_set_intersect_loops (fuel : Nat) (policy_set other_set : policy_set_t) : Option policy_set_t :=
  let other_has_any := policy_set_contains other_set oidAnyPolicy
  if policy_set_contains policy_set oidAnyPolicy then
    if other_has_any then (Loop.run addMissing fuel (policy_set, other_set)).map Prod.fst
    else (Loop.run addEach fuel ([], other_set)).map Prod.fst
  else if !other_has_any then
    (Loop.run (removeOthers other_set) fuel ([], policy_set)).map fun (before, after) =>
      before ++ after
  else some policy_set

/-- The policies that a set of identifiers permits: `anyPolicy` permits every policy. -/
def permitted (policies : Set oid_t) : Set oid_t :=
  {oid | oid ∈ policies ∨ oidAnyPolicy ∈ policies}

open Classical in
noncomputable def policyIntersection (policies others : Set oid_t) : Set oid_t :=
  if oidAnyPolicy ∈ policies then
    if oidAnyPolicy ∈ others then insert oidAnyPolicy (policies ∪ others) else others
  else if oidAnyPolicy ∈ others then policies
  else policies ∩ others

variable {other_set policy_set : policy_set_t}

/-- A loop that stays at its node never ends. -/
theorem run_addMissing (hother : other_set ≠ []) (fuel : Nat) :
    Loop.run addMissing fuel (policy_set, other_set) = none := by
  apply Loop.run_eq_none (fun state => state.2 = other_set)
  · rintro ⟨policies, node⟩ hnode
    obtain ⟨oid, rest, hcons⟩ := List.exists_cons_of_ne_nil hother
    simp only at hnode
    rw [hnode, hcons, addMissing]
    split
    case isTrue => exact ⟨_, rfl, rfl⟩
    case isFalse => exact ⟨_, rfl, rfl⟩
  · rfl

theorem run_addEach (hother : other_set ≠ []) (fuel : Nat) :
    Loop.run addEach fuel (policy_set, other_set) = none := by
  apply Loop.run_eq_none (fun state => state.2 = other_set)
  · rintro ⟨policies, node⟩ hnode
    obtain ⟨oid, rest, hcons⟩ := List.exists_cons_of_ne_nil hother
    simp only at hnode
    rw [hnode, hcons, addEach]
    exact ⟨_, rfl, rfl⟩
  · rfl

/-- The loop that unlinks ends after the last node, with the common identifiers before it. -/
theorem run_removeOthers (policy_set other_set : policy_set_t) :
    ∃ fuel, Loop.run (removeOthers other_set) fuel ([], policy_set) =
      some (policy_set.filter (policy_set_contains other_set), []) := by
  have hturn : ∀ state state', removeOthers other_set state = some state' →
      state'.2.length < state.2.length ∧
        state'.1 ++ state'.2.filter (policy_set_contains other_set) =
          state.1 ++ state.2.filter (policy_set_contains other_set) := by
    rintro ⟨before, after⟩ state' hnext
    cases after with
    | nil => cases hnext
    | cons oid after =>
      rw [removeOthers] at hnext
      split at hnext
      case isTrue hcontains =>
        cases hnext
        simp [hcontains]
      case isFalse hcontains =>
        cases hnext
        simp [hcontains]
  obtain ⟨⟨before, after⟩, hrun⟩ := Loop.run_of_measure (fun state => state.2.length)
    (fun state state' hnext => (hturn state state' hnext).1) ([], policy_set)
  obtain ⟨hkept, hdone⟩ := Loop.invariant_of_run
    (fun state => state.1 ++ state.2.filter (policy_set_contains other_set) =
      policy_set.filter (policy_set_contains other_set))
    (fun state state' hstate hnext => (hturn state state' hnext).2.trans hstate) (by simp) hrun
  cases after with
  | nil =>
    simp only [List.filter_nil, List.append_nil] at hkept
    rw [← hkept]
    exact ⟨_, hrun⟩
  | cons oid after =>
    rw [removeOthers] at hdone
    split at hdone <;> cases hdone

/-- Where the loops end, they leave what the intersection is said to leave. -/
theorem policy_set_intersect_eq_some_iff {result : policy_set_t} :
    policy_set_intersect policy_set other_set = some result ↔
      ∃ fuel, policy_set_intersect_loops fuel policy_set other_set = some result := by
  by_cases hany : policy_set_contains policy_set oidAnyPolicy = true
  · by_cases hother : other_set = []
    · rw [policy_set_intersect, if_pos hany, if_pos hother, hother]
      constructor
      · intro hresult
        refine ⟨1, ?_⟩
        rw [policy_set_intersect_loops, if_pos hany, ← hresult]
        rfl
      · rintro ⟨fuel, hresult⟩
        rw [policy_set_intersect_loops, if_pos hany] at hresult
        cases fuel with
        | zero => cases hresult
        | succ fuel => exact hresult
    · rw [policy_set_intersect, if_pos hany, if_neg hother]
      constructor
      · intro hresult
        cases hresult
      · rintro ⟨fuel, hresult⟩
        rw [policy_set_intersect_loops, if_pos hany, run_addMissing hother,
          run_addEach hother] at hresult
        split at hresult <;> cases hresult
  · rw [policy_set_intersect, if_neg hany]
    simp only [policy_set_intersect_loops, if_neg hany]
    by_cases hother : policy_set_contains other_set oidAnyPolicy = true
    · simp [hother]
    · obtain ⟨enough, hrun⟩ := run_removeOthers policy_set other_set
      rw [if_neg hother, Bool.not_eq_true] at *
      simp only [hother, Bool.not_false, if_true]
      constructor
      · intro hresult
        refine ⟨enough, ?_⟩
        rw [hrun, ← hresult]
        simp
      · rintro ⟨fuel, hresult⟩
        obtain ⟨last, hlast, rfl⟩ := Option.map_eq_some_iff.mp hresult
        rw [Loop.run_unique hlast hrun]
        simp

/-- The intersection ends, with the policies that are in the intersection of the two sets. -/
def Intersects (policy_set other_set : policy_set_t) : Prop :=
  ∃ fuel result, policy_set_intersect_loops fuel policy_set other_set = some result ∧
    {oid | oid ∈ result} = policyIntersection {oid | oid ∈ policy_set} {oid | oid ∈ other_set}

/-- The intersection ends with the right set exactly if the first set does not have `anyPolicy` or
the other one is empty. -/
theorem policy_set_intersect_iff (policy_set other_set : policy_set_t) :
    Intersects policy_set other_set ↔ oidAnyPolicy ∉ policy_set ∨ other_set = [] := by
  constructor
  · rintro ⟨fuel, result, hresult, -⟩
    have hsome := policy_set_intersect_eq_some_iff.mpr ⟨fuel, hresult⟩
    by_contra hcondition
    rw [not_or, not_not] at hcondition
    have hany : policy_set_contains policy_set oidAnyPolicy = true := decide_eq_true hcondition.1
    rw [policy_set_intersect, if_pos hany, if_neg hcondition.2] at hsome
    cases hsome
  · intro hcondition
    have hspec : ∃ result, policy_set_intersect policy_set other_set = some result ∧
        {oid | oid ∈ result} =
          policyIntersection {oid | oid ∈ policy_set} {oid | oid ∈ other_set} := by
      by_cases hany : oidAnyPolicy ∈ policy_set
      · obtain rfl := hcondition.resolve_left (not_not_intro hany)
        refine ⟨[], by simp [policy_set_intersect, policy_set_contains, hany], ?_⟩
        simp [policyIntersection, hany]
      · by_cases hother : oidAnyPolicy ∈ other_set
        · refine ⟨policy_set, by simp [policy_set_intersect, policy_set_contains, hany, hother], ?_⟩
          simp [policyIntersection, hany, hother]
        · refine ⟨policy_set.filter (policy_set_contains other_set),
            by simp [policy_set_intersect, policy_set_contains, hany, hother], ?_⟩
          ext oid
          simp [policyIntersection, policy_set_contains, hany, hother]
    obtain ⟨result, hresult, hset⟩ := hspec
    obtain ⟨fuel, hloops⟩ := policy_set_intersect_eq_some_iff.mp hresult
    exact ⟨fuel, result, hloops, hset⟩

/-- Two sets with `anyPolicy` are enough for a loop that never ends. -/
theorem anyPolicy_never_ends :
    ¬ ∃ fuel result,
      policy_set_intersect_loops fuel [oidAnyPolicy] [oidAnyPolicy] = some result := by
  rintro ⟨fuel, result, hresult⟩
  cases policy_set_intersect_eq_some_iff.mpr ⟨fuel, hresult⟩
end SecurityFramework.Trustd
