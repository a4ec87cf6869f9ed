import SecurityFramework.Library.Forest
import SecurityFramework.Trustd.PolicyTree

/-!
# The policy tree in memory

A node points to its first child, to the sibling after it and to its parent. The walk keeps a stack
of nodes, the pruning one of the links that lead to nodes. Allocation succeeds.
-/

namespace SecurityFramework.Trustd.PolicyHeap
abbrev policy_tree_t := Nat

structure policy_tree where
  valid_policy : oid_t
  qualifier_set : Option DERItem
  expected_policy_set : policy_set_t
  children : Option policy_tree_t
  siblings : Option policy_tree_t
  parent : Option policy_tree_t

/-- Addresses from `allocated` on have not been given out. -/
structure Heap where
  node : policy_tree_t → policy_tree
  allocated : Nat

def Heap.set (heap : Heap) (address : policy_tree_t) (node : policy_tree) : Heap :=
  { heap with node := Function.update heap.node address node }

def policy_tree_add_child_explicit (heap : Heap) (parent : policy_tree_t) (p_oid : oid_t)
    (p_q : Option DERItem) (p_expected : policy_set_t) : Heap :=
  let child := heap.allocated
  let heap := { heap with allocated := child + 1 }.set child
    { valid_policy := p_oid
      qualifier_set := p_q
      expected_policy_set := p_expected
      children := none
      siblings := (heap.node parent).children
      parent := some parent }
  heap.set parent { heap.node parent with children := some child }

def policy_tree_add_child (heap : Heap) (parent : policy_tree_t) (p_oid : oid_t)
    (p_q : Option DERItem) : Heap :=
  policy_tree_add_child_explicit heap parent p_oid p_q [p_oid]

/-- There is no adding beside a node without a parent. -/
def policy_tree_add_sibling (heap : Heap) (sibling : policy_tree_t) (p_oid : oid_t)
    (p_q : Option DERItem) (p_expected : policy_set_t) : Option Heap :=
  (heap.node sibling).parent.map fun parent =>
    policy_tree_add_child_explicit heap parent p_oid p_q p_expected

def policy_tree_set_expected_policy (heap : Heap) (node : policy_tree_t)
    (p_expected : policy_set_t) : Heap :=
  heap.set node { heap.node node with expected_policy_set := p_expected }

/-- The callback also changes what `ctx` points to. -/
abbrev Callback (σ : Type) := policy_tree_t → Heap → σ → Bool × Heap × σ

/-- The variables of the loop. Not in the code is `visits`, the nodes that were called back with. -/
structure Walk (σ : Type) where
  stack : List policy_tree_t
  child_visited : Bool
  matched : Bool
  heap : Heap
  ctx : σ
  visits : List policy_tree_t

section
variable {σ : Type} (callback : Callback σ) (depth : Nat)

def Walk.process (walk : Walk σ) (node : policy_tree_t) : Walk σ :=
  let (matched, heap, ctx) := callback node walk.heap walk.ctx
  { walk with
    matched := walk.matched || matched, heap, ctx, visits := walk.visits ++ [node] }

/-- One turn of the loop, with the node on top of the stack above `stack_ix` others. -/
def walkNext (walk : Walk σ) : Option (Walk σ) :=
  match walk.stack with
  | [] => none
  | node :: below =>
    let child := (walk.heap.node node).children
    match (if !walk.child_visited && below.length < depth then child else none) with
    | some child => some { walk with stack := child :: node :: below }
    | none =>
      let sibling := (walk.heap.node node).siblings
      let walk := if below.length = depth then walk.process callback node else walk
      match sibling with
      | some sibling => some { walk with stack := sibling :: below, child_visited := false }
      | none => some { walk with stack := below, child_visited := true }

/-- The end of the walk, if so many turns are enough. -/
def policy_tree_walk_depth (fuel : Nat) (heap : Heap) (root : policy_tree_t) (depth : Int)
    (ctx : σ) : Option (Walk σ) :=
  if depth < 0 ∨ (POLICY_TREE_DEPTH_MAX : Int) ≤ depth then some ⟨[], false, false, heap, ctx, []⟩
  else
    Loop.run (walkNext callback depth.toNat) fuel ⟨[root], false, false, heap, ctx, []⟩
end

/-- A `policy_tree_t *`: the caller's pointer to the root, or a field of a node. -/
inductive Link
  | root
  | children (node : policy_tree_t)
  | siblings (node : policy_tree_t)

structure Prune where
  stack : List Link
  child_visited : Bool
  root : Option policy_tree_t
  heap : Heap

namespace Prune
def load (prune : Prune) : Link → Option policy_tree_t
  | .root => prune.root
  | .children node => (prune.heap.node node).children
  | .siblings node => (prune.heap.node node).siblings

def store (prune : Prune) (value : Option policy_tree_t) : Link → Prune
  | .root => { prune with root := value }
  | .children node =>
    { prune with heap := prune.heap.set node { prune.heap.node node with children := value } }
  | .siblings node =>
    { prune with heap := prune.heap.set node { prune.heap.node node with siblings := value } }

/-- Go on with the link, or go back if there is none. -/
def goOn (prune : Prune) (below : List Link) : Option Link → Prune
  | some link => { prune with stack := link :: below, child_visited := false }
  | none => { prune with stack := below, child_visited := true }
end Prune

/-- One turn of the loop; there is none from a null pointer. `freed` is what is read of a node that
was freed. -/
def pruneNext (freed : policy_tree) (depth : Nat) (prune : Prune) : Option Prune :=
  match prune.stack with
  | [] => none
  | link :: below =>
    match prune.load link with
    | none => none
    | some node =>
      let child := (prune.heap.node node).children
      let next := (prune.heap.node node).siblings
      if !prune.child_visited && below.length < depth && child.isSome then
        some { prune with stack := .children node :: link :: below }
      else if child.isNone then
        let prune := { prune with heap := prune.heap.set node freed }.store next link
        some (prune.goOn below (next.map fun _ => link))
      else some (prune.goOn below (next.map fun _ => .siblings node))

def policy_tree_prune_childless (freed : policy_tree) (fuel : Nat) (heap : Heap)
    (root : Option policy_tree_t) (depth : Nat) : Option Prune :=
  Loop.run (pruneNext freed depth) fuel ⟨[.root], false, root, heap⟩

/-- The pointer leads to the first of some siblings, whose parent is given. -/
def Represents (heap : Heap) :
    Option policy_tree_t → Option policy_tree_t → Forest policy_tree_t → Prop
  | _, pointer, .nil => pointer = none
  | parent, pointer, .node address children siblings =>
    pointer = some address ∧ address < heap.allocated ∧ (heap.node address).parent = parent ∧
      Represents heap (some address) (heap.node address).children children ∧
        Represents heap parent (heap.node address).siblings siblings

theorem Represents.mono {heap heap' : Heap} (hallocated : heap.allocated ≤ heap'.allocated)
    {forest : Forest policy_tree_t} {parent pointer : Option policy_tree_t}
    (hforest : Represents heap parent pointer forest)
    (hsame : ∀ node ∈ forest.nodes, node < heap.allocated →
      (heap'.node node).parent = (heap.node node).parent ∧
        (heap'.node node).children = (heap.node node).children ∧
          (heap'.node node).siblings = (heap.node node).siblings) :
    Represents heap' parent pointer forest := by
  induction forest generalizing parent pointer with
  | nil => exact hforest
  | node address children siblings ihc ihs =>
    obtain ⟨hpointer, hless, hparent, hchildren, hsiblings⟩ := hforest
    simp only [Forest.nodes, List.forall_mem_cons, List.forall_mem_append] at hsame
    obtain ⟨hsameParent, hsameChildren, hsameSiblings⟩ := hsame.1 hless
    rw [Represents, hsameParent, hsameChildren, hsameSiblings]
    exact ⟨hpointer, hless.trans_le hallocated, hparent, ihc hchildren hsame.2.1,
      ihs hsiblings hsame.2.2⟩

/-- What a callback may have done to the tree: children of the node, siblings before it and expected
policies of it. -/
inductive Adds (node : policy_tree_t) (heap : Heap) : Heap → Prop
  | none : Adds node heap heap
  | child {heap' : Heap} (hadds : Adds node heap heap') (p_oid : oid_t) (p_q : Option DERItem) :
    Adds node heap (policy_tree_add_child heap' node p_oid p_q)
  | sibling {heap' heap'' : Heap} (hadds : Adds node heap heap') {p_oid : oid_t}
    {p_q : Option DERItem} {p_expected : policy_set_t}
    (hsibling : policy_tree_add_sibling heap' node p_oid p_q p_expected = some heap'') :
    Adds node heap heap''
  | expected {heap' : Heap} (hadds : Adds node heap heap') (p_expected : policy_set_t) :
    Adds node heap (policy_tree_set_expected_policy heap' node p_expected)

/-- Nodes may have come, and the first child of some may have changed. -/
structure Grows (changed : policy_tree_t → Prop) (heap heap' : Heap) : Prop where
  allocated : heap.allocated ≤ heap'.allocated
  siblings : ∀ node < heap.allocated, (heap'.node node).siblings = (heap.node node).siblings
  parent : ∀ node < heap.allocated, (heap'.node node).parent = (heap.node node).parent
  children : ∀ node < heap.allocated, ¬ changed node →
    (heap'.node node).children = (heap.node node).children

namespace Grows
variable {changed changed' : policy_tree_t → Prop} {heap heap' heap'' : Heap}

theorem refl (changed : policy_tree_t → Prop) (heap : Heap) : Grows changed heap heap :=
  ⟨le_rfl, fun _ _ => rfl, fun _ _ => rfl, fun _ _ _ => rfl⟩

theorem mono (himp : ∀ node, changed node → changed' node) (hgrows : Grows changed heap heap') :
    Grows changed' heap heap' :=
  { hgrows with
    children := fun node hnode hchanged =>
      hgrows.children node hnode (mt (himp node) hchanged) }

theorem trans (hgrows : Grows changed heap heap') (hgrows' : Grows changed heap' heap'') :
    Grows changed heap heap'' where
  allocated := hgrows.allocated.trans hgrows'.allocated
  siblings node hnode := by
    rw [hgrows'.siblings node (hnode.trans_le hgrows.allocated), hgrows.siblings node hnode]
  parent node hnode := by
    rw [hgrows'.parent node (hnode.trans_le hgrows.allocated), hgrows.parent node hnode]
  children node hnode hchanged := by
    rw [hgrows'.children node (hnode.trans_le hgrows.allocated) hchanged,
      hgrows.children node hnode hchanged]

theorem represents (hgrows : Grows changed heap heap') {forest : Forest policy_tree_t}
    {parent pointer : Option policy_tree_t} (hforest : Represents heap parent pointer forest)
    (hunchanged : ∀ node ∈ forest.nodes, ¬ changed node) :
    Represents heap' parent pointer forest :=
  hforest.mono hgrows.allocated fun node hmem hless =>
    ⟨hgrows.parent node hless, hgrows.children node hless (hunchanged node hmem),
      hgrows.siblings node hless⟩

theorem add_child (heap : Heap) {parent : policy_tree_t} (hparent : parent < heap.allocated)
    (p_oid : oid_t) (p_q : Option DERItem) (p_expected : policy_set_t) :
    Grows (· = parent) heap (policy_tree_add_child_explicit heap parent p_oid p_q p_expected) := by
  have hnew (node : policy_tree_t) (hnode : node < heap.allocated) : node ≠ heap.allocated :=
    hnode.ne
  refine ⟨Nat.le_succ _, ?_, ?_, ?_⟩
  · intro node hnode
    by_cases heq : node = parent
    · rw [heq]
      simp [policy_tree_add_child_explicit, Heap.set, hnew parent hparent]
    · simp [policy_tree_add_child_explicit, Heap.set, heq, hnew node hnode]
  · intro node hnode
    by_cases heq : node = parent
    · rw [heq]
      simp [policy_tree_add_child_explicit, Heap.set, hnew parent hparent]
    · simp [policy_tree_add_child_explicit, Heap.set, heq, hnew node hnode]
  · intro node hnode hchanged
    simp [policy_tree_add_child_explicit, Heap.set, hchanged, hnew node hnode]
end Grows

theorem Adds.grows {node : policy_tree_t} {heap heap' : Heap} (hadds : Adds node heap heap')
    (hnode : node < heap.allocated)
    (hparent : ∀ parent, (heap.node node).parent = some parent → parent < heap.allocated) :
    Grows (fun changed => changed = node ∨ (heap.node node).parent = some changed) heap heap' := by
  induction hadds with
  | none => exact Grows.refl _ heap
  | child _ p_oid p_q ih =>
    have hadded := Grows.add_child _ (hnode.trans_le ih.allocated) p_oid p_q [p_oid]
    exact ih.trans (hadded.mono fun changed heq => .inl heq)
  | sibling _ hsibling ih =>
    obtain ⟨parent, hsome, rfl⟩ := Option.map_eq_some_iff.mp hsibling
    rw [ih.parent node hnode] at hsome
    have hallocated := (hparent parent hsome).trans_le ih.allocated
    refine ih.trans ((Grows.add_child _ hallocated _ _ _).mono ?_)
    intro changed heq
    rw [heq]
    exact .inr hsome
  | @expected heap' _ p_expected ih =>
    refine ih.trans ⟨le_rfl, ?_, ?_, ?_⟩
    all_goals
      intro other _
      by_cases heq : other = node
      · rw [heq]
        simp [policy_tree_set_expected_policy, Heap.set]
      · simp [policy_tree_set_expected_policy, Heap.set, heq]
end SecurityFramework.Trustd.PolicyHeap
