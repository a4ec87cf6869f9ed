import SecurityFramework.Trustd.PolicyTreeHeap

/-! # The policy tree is walked and pruned -/

namespace SecurityFramework.Trustd.PolicyHeap
/-- The pointer leads to the nodes of a tree, each of them once. -/
structure IsTree (heap : Heap) (root : policy_tree_t) (tree : Forest policy_tree_t) : Prop where
  represents : Represents heap none (some root) tree
  single : ∃ children, tree = .node root children .nil
  nodup : tree.nodes.Nodup

section
variable {σ : Type} {callback : Callback σ} {depth : Nat}

abbrev WalkReaches (callback : Callback σ) (depth : Nat) : Walk σ → Walk σ → Prop :=
  Relation.ReflTransGen fun walk walk' => walkNext callback depth walk = some walk'

/-- Where the walk is once it has left a node. -/
def Walk.leave (walk : Walk σ) (below : List policy_tree_t) : Option policy_tree_t → Walk σ
  | some sibling => { walk with stack := sibling :: below, child_visited := false }
  | none => { walk with stack := below, child_visited := true }

theorem walkNext_child {walk : Walk σ} {node child : policy_tree_t} {below : List policy_tree_t}
    (hstack : walk.stack = node :: below) (hvisited : walk.child_visited = false)
    (hdepth : below.length < depth) (hchild : (walk.heap.node node).children = some child) :
    walkNext callback depth walk = some { walk with stack := child :: node :: below } := by
  simp [walkNext, hstack, hvisited, hdepth, hchild]

variable (callback) in
theorem walkNext_leave {walk : Walk σ} {node : policy_tree_t} {below : List policy_tree_t}
    (hstack : walk.stack = node :: below)
    (hchild : walk.child_visited = true ∨ ¬ below.length < depth ∨
      (walk.heap.node node).children = none) :
    walkNext callback depth walk =
      some ((if below.length = depth then walk.process callback node else walk).leave below
        (walk.heap.node node).siblings) := by
  have hnone : (if !walk.child_visited && below.length < depth then
      (walk.heap.node node).children else none) = none := by
    obtain hvisited | hdeep | hchild := hchild
    · simp [hvisited]
    · simp [hdeep]
    · simp [hchild]
  simp only [walkNext, hstack, hnone]
  cases (walk.heap.node node).siblings <;> rfl

/-- What comes of the visits to some siblings. -/
structure Walked (forest : Forest policy_tree_t) (parent : Option policy_tree_t) (levels : Nat)
    (walk walk' : Walk σ) : Prop where
  visits : walk'.visits = walk.visits ++ forest.atDepth levels
  grows : Grows (fun node => node ∈ forest.nodes ∨ parent = some node) walk.heap walk'.heap

theorem walked_node {address : policy_tree_t} {children siblings : Forest policy_tree_t}
    {parent : Option policy_tree_t} {levels : Nat} {walk walk' walk'' : Walk σ}
    (hnode : Walked (.node address children .nil) parent levels walk walk')
    (hsiblings : Walked siblings parent levels walk' walk'') :
    Walked (.node address children siblings) parent levels walk walk'' where
  visits := by
    rw [hsiblings.visits, hnode.visits, List.append_assoc, ← Forest.atDepth_node]
  grows := by
    refine (hnode.grows.mono ?_).trans (hsiblings.grows.mono ?_)
    all_goals
      intro node hchanged
      simp only [Forest.nodes, List.mem_cons, List.mem_append, List.not_mem_nil] at hchanged ⊢
      tauto

variable (hadds : ∀ node heap ctx, Adds node heap (callback node heap ctx).2.1)
include hadds

theorem walked_process {walk : Walk σ} {address : policy_tree_t}
    (hallocated : address < walk.heap.allocated)
    (hparent : ∀ node, (walk.heap.node address).parent = some node → node < walk.heap.allocated) :
    Walked (.node address .nil .nil) (walk.heap.node address).parent 0 walk
      (walk.process callback address) where
  visits := rfl
  grows := by
    refine ((hadds address walk.heap walk.ctx).grows hallocated hparent).mono ?_
    intro node hchanged
    simpa [Forest.nodes] using hchanged

omit hadds in
theorem represents_nil {heap : Heap} {parent : Option policy_tree_t}
    {forest : Forest policy_tree_t} (hforest : Represents heap parent none forest) :
    forest = .nil := by
  cases forest with
  | nil => rfl
  | node => cases hforest.1

/-- Before a walk leaves a node it has come back from the children, unless the node is one that is
visited. -/
theorem walk_node {address : policy_tree_t} {children : Forest policy_tree_t}
    (below : List policy_tree_t) {levels : Nat} (hdepth : depth = below.length + levels)
    (walk : Walk σ) {parent : Option policy_tree_t}
    (hallocated : address < walk.heap.allocated)
    (haddress : (walk.heap.node address).parent = parent)
    (hchildren : Represents walk.heap (some address) (walk.heap.node address).children children)
    (hparent : ∀ node, parent = some node → node < walk.heap.allocated)
    (hwalk : ∀ deeper, levels = deeper + 1 → ∃ walk',
      WalkReaches callback depth
          (walk.leave (address :: below) (walk.heap.node address).children)
          (walk'.leave (address :: below) none) ∧
        Walked children (some address) deeper walk walk') :
    ∃ walk', WalkReaches callback depth (walk.leave below (some address)) walk' ∧
      walk'.stack = address :: below ∧
      (walk'.child_visited = true ∨ ¬ below.length < depth ∨
        (walk'.heap.node address).children = none) ∧
      (walk'.heap.node address).siblings = (walk.heap.node address).siblings ∧
      Walked (.node address children .nil) parent levels walk
        (if below.length = depth then walk'.process callback address else walk') := by
  cases levels with
  | zero =>
    refine ⟨walk.leave below (some address), .refl, rfl, .inr (.inl (by omega)), rfl, ?_⟩
    have hdeep : below.length = depth := hdepth.symm
    rw [← haddress] at hparent ⊢
    rw [if_pos hdeep]
    have hprocess : Walked (.node address .nil .nil) _ 0 (walk.leave below (some address)) _ :=
      walked_process hadds hallocated hparent
    refine ⟨rfl, hprocess.grows.mono ?_⟩
    intro node hchanged
    simp only [Forest.nodes, List.mem_cons, List.append_nil, List.not_mem_nil,
      or_false] at hchanged ⊢
    exact hchanged.imp_left .inl
  | succ deeper =>
    have hless : below.length < depth := by omega
    cases hchild : (walk.heap.node address).children with
    | none =>
      rw [hchild] at hchildren
      rw [represents_nil hchildren]
      refine ⟨walk.leave below (some address), .refl, rfl, .inr (.inr hchild), rfl, ?_⟩
      rw [if_neg hless.ne]
      exact ⟨(List.append_nil _).symm, Grows.refl _ _⟩
    | some child =>
      obtain ⟨walk', hreaches, hwalked⟩ := hwalk deeper rfl
      rw [hchild] at hreaches
      have hturn : walkNext callback depth (walk.leave below (some address)) =
          some (walk.leave (address :: below) (some child)) :=
        walkNext_child rfl rfl hless hchild
      refine ⟨walk'.leave (address :: below) none, .head hturn hreaches, rfl, .inl rfl,
        hwalked.grows.siblings address hallocated, ?_⟩
      rw [if_neg hless.ne]
      refine ⟨?_, hwalked.grows.mono ?_⟩
      · rw [Forest.atDepth, Forest.atDepth, List.append_nil]
        exact hwalked.visits
      · intro node hchanged
        simp only [Forest.nodes, List.mem_cons, List.append_nil]
        obtain hmem | heq := hchanged
        · exact .inl (.inr hmem)
        · exact .inl (.inl (Option.some.inj heq).symm)

theorem walk_siblings (forest : Forest policy_tree_t) (below : List policy_tree_t) (levels : Nat)
    (hdepth : depth = below.length + levels) (walk : Walk σ) (parent first : Option policy_tree_t)
    (hforest : Represents walk.heap parent first forest) (hnodup : forest.nodes.Nodup)
    (hparent : ∀ node, parent = some node → node < walk.heap.allocated ∧ node ∉ forest.nodes) :
    ∃ walk', WalkReaches callback depth (walk.leave below first) (walk'.leave below none) ∧
      Walked forest parent levels walk walk' := by
  induction forest generalizing below levels walk parent first with
  | nil =>
    rw [Represents] at hforest
    rw [hforest]
    exact ⟨walk, .refl, (List.append_nil _).symm, Grows.refl _ _⟩
  | node address children siblings ihc ihs =>
    obtain ⟨rfl, hallocated, haddress, hchildren, hsiblings⟩ := hforest
    simp only [Forest.nodes, List.nodup_cons, List.mem_append, List.nodup_append, not_or] at hnodup
    obtain ⟨hfresh, hnodupc, hnodups, hdisjoint⟩ := hnodup
    simp only [Forest.nodes, List.mem_cons, List.mem_append, not_or] at hparent
    obtain ⟨walk', hreaches, hstack, hleave, hsibling, hwalked⟩ := walk_node hadds below hdepth walk
      hallocated haddress hchildren (fun node hnode => (hparent node hnode).1) (by
        intro deeper hlevels
        refine ihc (address :: below) deeper ?_ walk (some address) _ hchildren hnodupc ?_
        · rw [List.length_cons]
          omega
        · intro node hnode
          cases hnode
          exact ⟨hallocated, hfresh.1⟩)
    have hturn := walkNext_leave callback hstack hleave
    rw [hsibling] at hturn
    have hrest := hwalked.grows.represents hsiblings (by
      intro node hnode
      simp only [Forest.nodes, List.mem_cons, List.append_nil, not_or]
      refine ⟨⟨?_, ?_⟩, ?_⟩
      · rintro rfl
        exact hfresh.2 hnode
      · intro hmem
        exact hdisjoint node hmem node hnode rfl
      · intro hsome
        exact (hparent node hsome).2.2.2 hnode)
    obtain ⟨walk'', hreaches', hwalked'⟩ := ihs below levels hdepth _ parent _ hrest hnodups (by
      intro node hnode
      obtain ⟨hnodeAllocated, -, -, hnodes⟩ := hparent node hnode
      exact ⟨hnodeAllocated.trans_le hwalked.grows.allocated, hnodes⟩)
    exact ⟨walk'', (hreaches.tail hturn).trans hreaches', walked_node hwalked hwalked'⟩

/-- The nodes of the depth are visited, each of them once. -/
theorem walk_visits {heap : Heap} {root : policy_tree_t} {tree : Forest policy_tree_t}
    (htree : IsTree heap root tree) (ctx : σ) (hdepth : depth < POLICY_TREE_DEPTH_MAX) :
    ∃ fuel walk, policy_tree_walk_depth callback fuel heap root depth ctx = some walk ∧
      walk.visits = tree.atDepth depth := by
  obtain ⟨walk, hreaches, hwalked⟩ := walk_siblings hadds tree [] depth (Nat.zero_add depth).symm
    ⟨[root], false, false, heap, ctx, []⟩ none (some root) htree.represents htree.nodup (by simp)
  obtain ⟨fuel, hrun⟩ := Loop.exists_run_of_reaches hreaches rfl
  have hguard : ¬ ((depth : Int) < 0 ∨ (POLICY_TREE_DEPTH_MAX : Int) ≤ depth) := by omega
  refine ⟨fuel, walk.leave [] none, ?_, hwalked.visits⟩
  rw [policy_tree_walk_depth, if_neg hguard, Int.toNat_natCast]
  exact hrun
end

section
variable (freed : policy_tree) {depth : Nat}

abbrev PruneReaches (freed : policy_tree) (depth : Nat) : Prune → Prune → Prop :=
  Relation.ReflTransGen fun prune prune' => pruneNext freed depth prune = some prune'

namespace Link
def put (value : Option policy_tree_t) (address : policy_tree_t) (node : policy_tree) :
    Link → policy_tree
  | root => node
  | children owner => if address = owner then { node with children := value } else node
  | siblings owner => if address = owner then { node with siblings := value } else node

def Outside (nodes : List policy_tree_t) : Link → Prop
  | root => True
  | children owner => owner ∉ nodes
  | siblings owner => owner ∉ nodes

variable {link : Link} {value : Option policy_tree_t} {nodes : List policy_tree_t}

theorem put_of_outside {address : policy_tree_t} (hlink : link.Outside nodes)
    (haddress : address ∈ nodes) (node : policy_tree) : link.put value address node = node := by
  have hne (owner : policy_tree_t) (howner : owner ∉ nodes) : ¬ address = owner := by
    rintro rfl
    exact howner haddress
  cases link with
  | root => rfl
  | children owner | siblings owner => exact if_neg (hne owner hlink)

theorem Outside.mono {nodes' : List policy_tree_t} (hlink : link.Outside nodes)
    (hsubset : nodes' ⊆ nodes) : link.Outside nodes' := by
  cases link with
  | root => trivial
  | children owner | siblings owner => exact fun hmem => hlink (hsubset hmem)

theorem put_put (value' : Option policy_tree_t) (address : policy_tree_t) (node : policy_tree) :
    link.put value' address (link.put value address node) = link.put value' address node := by
  cases link with
  | root => rfl
  | children owner | siblings owner =>
    simp only [put]
    split <;> rfl
end Link

namespace Prune
variable (prune : Prune) (value : Option policy_tree_t) (link : Link)

@[simp] theorem node_store (address : policy_tree_t) :
    (prune.store value link).heap.node address =
      link.put value address (prune.heap.node address) := by
  cases link with
  | root => rfl
  | children owner | siblings owner =>
    simp only [store, Heap.set, Function.update_apply, Link.put]
    split
    case isTrue heq => rw [heq]
    case isFalse => rfl

@[simp] theorem allocated_store :
    (prune.store value link).heap.allocated = prune.heap.allocated := by
  cases link <;> rfl

@[simp] theorem load_store : (prune.store value link).load link = value := by
  cases link <;> simp [load, store, Heap.set]

variable {link} in
theorem root_store (hlink : link ≠ .root) : (prune.store value link).root = prune.root := by
  cases link with
  | root => exact absurd rfl hlink
  | children owner => rfl
  | siblings owner => rfl

theorem put_load (address : policy_tree_t) :
    link.put (prune.load link) address (prune.heap.node address) = prune.heap.node address := by
  cases link with
  | root => rfl
  | children owner | siblings owner =>
    simp only [Link.put, load]
    split
    case isTrue heq => rw [heq]
    case isFalse => rfl
end Prune

/-- Nothing has changed but some nodes and a link. -/
structure KeepsOthers (link : Link) (nodes : List policy_tree_t) (prune prune' : Prune) :
    Prop where
  node : ∀ address, address ∉ nodes →
    prune'.heap.node address = link.put (prune'.load link) address (prune.heap.node address)
  root : link ≠ .root → prune'.root = prune.root
  allocated : prune'.heap.allocated = prune.heap.allocated

/-- The nodes differ in their pointers only. -/
def SameContents (node node' : policy_tree) : Prop :=
  node'.valid_policy = node.valid_policy ∧ node'.qualifier_set = node.qualifier_set ∧
    node'.expected_policy_set = node.expected_policy_set

theorem SameContents.put (link : Link) (value : Option policy_tree_t) (address : policy_tree_t)
    (node : policy_tree) : SameContents node (link.put value address node) := by
  cases link with
  | root => exact ⟨rfl, rfl, rfl⟩
  | children owner | siblings owner =>
    rw [Link.put]
    split <;> exact ⟨rfl, rfl, rfl⟩

theorem SameContents.trans {node node' node'' : policy_tree} (hsame : SameContents node node')
    (hsame' : SameContents node' node'') : SameContents node node'' :=
  ⟨hsame'.1.trans hsame.1, hsame'.2.1.trans hsame.2.1, hsame'.2.2.trans hsame.2.2⟩

structure Pruned (forest : Forest policy_tree_t) (parent : Option policy_tree_t) (levels : Nat)
    (link : Link) (prune prune' : Prune) : Prop where
  represents : Represents prune'.heap parent (prune'.load link) (forest.kept levels)
  contents : ∀ node ∈ (forest.kept levels).nodes,
    SameContents (prune.heap.node node) (prune'.heap.node node)
  keeps : KeepsOthers link forest.nodes prune prune'

theorem represents_of_eq {heap heap' : Heap} (hallocated : heap'.allocated = heap.allocated)
    {forest : Forest policy_tree_t} {parent pointer : Option policy_tree_t}
    (hforest : Represents heap parent pointer forest)
    (heq : ∀ node ∈ forest.nodes, heap'.node node = heap.node node) :
    Represents heap' parent pointer forest := by
  refine hforest.mono hallocated.ge fun node hmem _ => ?_
  rw [heq node hmem]
  exact ⟨rfl, rfl, rfl⟩

theorem KeepsOthers.eq {link : Link} {nodes : List policy_tree_t} {prune prune' : Prune}
    (hkeeps : KeepsOthers link nodes prune prune') {node : policy_tree_t} (hnode : node ∉ nodes)
    (hlink : link.Outside [node]) : prune'.heap.node node = prune.heap.node node := by
  rw [hkeeps.node node hnode, Link.put_of_outside hlink (List.mem_singleton_self node)]

theorem KeepsOthers.load {link other : Link} {nodes : List policy_tree_t} {prune prune' : Prune}
    (hkeeps : KeepsOthers link nodes prune prune') (hne : other ≠ link)
    (hother : other.Outside nodes) : prune'.load other = prune.load other := by
  cases other with
  | root => exact hkeeps.root hne.symm
  | children owner =>
    rw [Prune.load, hkeeps.node owner hother]
    cases link with
    | root => rfl
    | children other => rw [Link.put, if_neg fun heq => hne (congrArg Link.children heq), Prune.load]
    | siblings other =>
      rw [Link.put]
      split <;> rfl
  | siblings owner =>
    rw [Prune.load, hkeeps.node owner hother]
    cases link with
    | root => rfl
    | children other =>
      rw [Link.put]
      split <;> rfl
    | siblings other => rw [Link.put, if_neg fun heq => hne (congrArg Link.siblings heq), Prune.load]

theorem pruneNext_child {prune : Prune} {link : Link} {node child : policy_tree_t}
    {below : List Link} (hstack : prune.stack = link :: below)
    (hvisited : prune.child_visited = false) (hdepth : below.length < depth)
    (hnode : prune.load link = some node) (hchild : (prune.heap.node node).children = some child) :
    pruneNext freed depth prune = some { prune with stack := .children node :: link :: below } := by
  simp [pruneNext, hstack, hvisited, hdepth, hnode, hchild]

theorem pruneNext_leave {prune : Prune} {link : Link} {node : policy_tree_t} {below : List Link}
    (hstack : prune.stack = link :: below) (hnode : prune.load link = some node)
    (hchild : prune.child_visited = true ∨ ¬ below.length < depth ∨
      (prune.heap.node node).children = none) :
    pruneNext freed depth prune =
      if (prune.heap.node node).children = none then
        some (({ prune with heap := prune.heap.set node freed }.store
          (prune.heap.node node).siblings link).goOn below
            ((prune.heap.node node).siblings.map fun _ => link))
      else some (prune.goOn below ((prune.heap.node node).siblings.map fun _ => .siblings node)) := by
  have hstay : (!prune.child_visited && decide (below.length < depth) &&
      (prune.heap.node node).children.isSome) = false := by
    obtain hvisited | hdeep | hchild := hchild
    · simp [hvisited]
    · simp [hdeep]
    · simp [hchild]
  simp only [pruneNext, hstack, hnode, hstay, Bool.false_eq_true, if_false, Option.isNone_iff_eq_none]

section
variable {address : policy_tree_t} {children siblings : Forest policy_tree_t} {levels : Nat}
  {below : List Link} {link : Link} {parent : Option policy_tree_t} {prune pruned prune' : Prune}

/-- The loop has come to a node that it keeps or frees: its children are pruned, unless they are too
deep. -/
structure AtNode (depth : Nat) (address : policy_tree_t) (children : Forest policy_tree_t)
    (levels : Nat) (below : List Link) (link : Link) (prune pruned : Prune) : Prop where
  stack : pruned.stack = link :: below
  leave : pruned.child_visited = true ∨ ¬ below.length < depth ∨
    (pruned.heap.node address).children = none
  represents : Represents pruned.heap (some address) (pruned.heap.node address).children
    (children.keptBelow levels)
  contents : ∀ node ∈ (children.keptBelow levels).nodes,
    SameContents (prune.heap.node node) (pruned.heap.node node)
  keeps : KeepsOthers (.children address) children.nodes prune pruned

theorem exists_atNode (hdepth : depth = below.length + levels)
    (hnode : prune.load link = some address)
    (hchildren : Represents prune.heap (some address) (prune.heap.node address).children children)
    (hprune : ∀ deeper, levels = deeper + 1 → ∃ prune',
      PruneReaches freed depth
          (prune.goOn (link :: below) ((prune.load (.children address)).map fun _ =>
            .children address))
          (prune'.goOn (link :: below) none) ∧
        Pruned children (some address) deeper (.children address) prune prune') :
    ∃ pruned, PruneReaches freed depth (prune.goOn below (some link)) pruned ∧
      AtNode depth address children levels below link prune pruned := by
  have hstay : KeepsOthers (.children address) children.nodes prune
      (prune.goOn below (some link)) :=
    ⟨fun node _ => (prune.put_load (.children address) node).symm, fun _ => rfl, rfl⟩
  have hsame : ∀ node ∈ (children.keptBelow levels).nodes,
      SameContents (prune.heap.node node) (prune.heap.node node) :=
    fun _ _ => ⟨rfl, rfl, rfl⟩
  cases levels with
  | zero => exact ⟨_, .refl, rfl, .inr (.inl (by omega)), hchildren, hsame, hstay⟩
  | succ deeper =>
    cases hchild : (prune.heap.node address).children with
    | none =>
      rw [hchild] at hchildren
      refine ⟨_, .refl, rfl, .inr (.inr hchild), ?_, hsame, hstay⟩
      rw [represents_nil hchildren]
      cases deeper <;> exact hchild
    | some child =>
      obtain ⟨prune', hreaches, hpruned⟩ := hprune deeper rfl
      rw [Prune.load, hchild] at hreaches
      have hturn : pruneNext freed depth (prune.goOn below (some link)) =
          some (prune.goOn (link :: below) (some (.children address))) := by
        refine pruneNext_child freed rfl rfl (by omega) ?_ hchild
        cases link <;> exact hnode
      exact ⟨prune'.goOn (link :: below) none, .head hturn hreaches, rfl, .inl rfl,
        hpruned.represents, hpruned.contents, hpruned.keeps.node, hpruned.keeps.root,
        hpruned.keeps.allocated⟩

variable (hat : AtNode depth address children levels below link prune pruned)
  (hnodup : (Forest.node address children siblings).nodes.Nodup)
  (hlink : link.Outside (Forest.node address children siblings).nodes)

include hnodup in
theorem nodes_apart : address ∉ children.nodes ∧ address ∉ siblings.nodes ∧
    ∀ node ∈ siblings.nodes, node ∉ children.nodes ∧ node ≠ address := by
  simp only [Forest.nodes, List.nodup_cons, List.mem_append, List.nodup_append, not_or] at hnodup
  obtain ⟨hfresh, -, -, hdisjoint⟩ := hnodup
  refine ⟨hfresh.1, hfresh.2, fun node hmem => ⟨?_, ?_⟩⟩
  · intro hmemc
    exact hdisjoint node hmemc node hmem rfl
  · rintro rfl
    exact hfresh.2 hmem

include hlink in
theorem link_apart : link ≠ .children address ∧ link ≠ .siblings address ∧
    link.Outside children.nodes ∧ link.Outside siblings.nodes := by
  refine ⟨?_, ?_, hlink.mono fun node hmem => ?_, hlink.mono fun node hmem => ?_⟩
  · rintro rfl
    exact hlink List.mem_cons_self
  · rintro rfl
    exact hlink List.mem_cons_self
  · exact List.mem_cons_of_mem _ (List.mem_append_left _ hmem)
  · exact List.mem_cons_of_mem _ (List.mem_append_right _ hmem)

/-- Only the pointer to the first child has changed in the node itself. -/
theorem KeepsOthers.owner_children (hkeeps : KeepsOthers (.children address) children.nodes prune
    pruned) (hfresh : address ∉ children.nodes) : pruned.heap.node address =
      { prune.heap.node address with children := (pruned.heap.node address).children } := by
  have hput := hkeeps.node address hfresh
  rwa [Link.put, if_pos rfl] at hput

theorem KeepsOthers.owner_siblings (hkeeps : KeepsOthers (.siblings address) siblings.nodes prune
    pruned) (hfresh : address ∉ siblings.nodes) : pruned.heap.node address =
      { prune.heap.node address with siblings := (pruned.heap.node address).siblings } := by
  have hput := hkeeps.node address hfresh
  rwa [Link.put, if_pos rfl] at hput

include hat in
theorem AtNode.node_eq {node : policy_tree_t} (hmem : node ∉ children.nodes)
    (hne : node ≠ address) : pruned.heap.node node = prune.heap.node node :=
  hat.keeps.eq hmem fun hmem => hne (List.mem_singleton.mp hmem).symm

include hat hnodup

theorem AtNode.rest
    (hsiblings : Represents prune.heap parent (prune.heap.node address).siblings siblings) :
    Represents pruned.heap parent (pruned.heap.node address).siblings siblings := by
  obtain ⟨hfresh, -, hafter⟩ := nodes_apart hnodup
  rw [hat.keeps.owner_children hfresh]
  exact represents_of_eq hat.keeps.allocated hsiblings fun node hmem =>
    hat.node_eq (hafter node hmem).1 (hafter node hmem).2

variable {freed} in
/-- A childless node is freed, and the link leads to the sibling after it. -/
theorem AtNode.removed (hempty : (pruned.heap.node address).children = none)
    {next : Prune} (hnext : { pruned with heap := pruned.heap.set address freed }.store
      (pruned.heap.node address).siblings link = next)
    (hpruned : Pruned siblings parent levels link next prune') :
    Pruned (.node address children siblings) parent levels link prune prune' := by
  obtain ⟨-, -, hafter⟩ := nodes_apart hnodup
  have hnone : (children.atDepth levels).isEmpty = true := by
    have hbelow := hat.represents
    rw [hempty] at hbelow
    exact List.isEmpty_iff.mpr
      ((Forest.keptBelow_eq_nil_iff children levels).mp (represents_nil hbelow))
  have hput (node : policy_tree_t) (hmem : node ∉ children.nodes) (hne : node ≠ address) :
      next.heap.node node =
        link.put (pruned.heap.node address).siblings node (prune.heap.node node) := by
    rw [← hnext, Prune.node_store, ← hat.node_eq hmem hne]
    simp only [Heap.set, Function.update_of_ne hne]
  refine ⟨?_, ?_, ?_, ?_, ?_⟩
  · rw [Forest.kept_node, if_pos hnone]
    exact hpruned.represents
  · intro node hmem
    rw [Forest.kept_node, if_pos hnone] at hmem
    have hmems := (Forest.nodes_kept_sublist siblings levels).subset hmem
    have hcontents := hpruned.contents node hmem
    rw [hput node (hafter node hmems).1 (hafter node hmems).2] at hcontents
    exact (SameContents.put link _ node _).trans hcontents
  · intro node hmem
    simp only [Forest.nodes, List.mem_cons, List.mem_append, not_or] at hmem
    rw [hpruned.keeps.node node hmem.2.2, hput node hmem.2.1 hmem.1, Link.put_put]
  · intro hroot
    rw [hpruned.keeps.root hroot, ← hnext, Prune.root_store _ _ hroot]
    exact hat.keeps.root (by simp)
  · rw [hpruned.keeps.allocated, ← hnext, Prune.allocated_store, ← hat.keeps.allocated]
    rfl

include hlink in
theorem AtNode.stays (hallocated : address < prune.heap.allocated)
    (haddress : (prune.heap.node address).parent = parent)
    (hnode : prune.load link = some address)
    (hsome : (pruned.heap.node address).children ≠ none)
    (hpruned : Pruned siblings parent levels (.siblings address) pruned prune') :
    Pruned (.node address children siblings) parent levels link prune prune' := by
  obtain ⟨hfresh, hfresh', hafter⟩ := nodes_apart hnodup
  obtain ⟨hne, hne', hlinkc, hlinks⟩ := link_apart hlink
  have hload : prune'.load link = some address := by
    rw [hpruned.keeps.load hne' hlinks, hat.keeps.load hne hlinkc, hnode]
  have hsame (node : policy_tree_t) (hmem : node ∉ siblings.nodes) (hne : node ≠ address) :
      prune'.heap.node node = pruned.heap.node node :=
    hpruned.keeps.eq hmem fun hmem => hne (List.mem_singleton.mp hmem).symm
  have hfields := hpruned.keeps.owner_siblings hfresh'
  have hbelow (node : policy_tree_t) (hmem : node ∈ (children.keptBelow levels).nodes) :
      prune'.heap.node node = pruned.heap.node node := by
    have hmemc := Forest.nodes_keptBelow_subset children levels hmem
    refine hsame node (fun hmems => (hafter node hmems).1 hmemc) ?_
    rintro rfl
    exact hfresh hmemc
  have hkept : (Forest.node address children siblings).kept levels =
      .node address (children.keptBelow levels) (siblings.kept levels) := by
    rw [Forest.kept_node, if_neg]
    intro hnone
    have hrepresents := hat.represents
    rw [(Forest.keptBelow_eq_nil_iff children levels).mpr (List.isEmpty_iff.mp hnone)] at hrepresents
    exact hsome hrepresents
  refine ⟨?_, ?_, ?_, ?_, ?_⟩
  · rw [hkept]
    refine ⟨hload, ?_, ?_, ?_, hpruned.represents⟩
    · rw [hpruned.keeps.allocated, hat.keeps.allocated]
      exact hallocated
    · rw [hfields, hat.keeps.owner_children hfresh]
      exact haddress
    · rw [hfields]
      exact represents_of_eq hpruned.keeps.allocated hat.represents hbelow
  · intro node hmem
    rw [hkept, Forest.nodes, List.mem_cons, List.mem_append] at hmem
    obtain rfl | hmemc | hmems := hmem
    · rw [hfields, hat.keeps.owner_children hfresh]
      exact ⟨rfl, rfl, rfl⟩
    · rw [hbelow node hmemc]
      exact hat.contents node hmemc
    · have hmem := hafter node ((Forest.nodes_kept_sublist siblings levels).subset hmems)
      rw [← hat.node_eq hmem.1 hmem.2]
      exact hpruned.contents node hmems
  · intro node hmem
    simp only [Forest.nodes, List.mem_cons, List.mem_append, not_or] at hmem
    rw [hsame node hmem.2.2 hmem.1, hat.node_eq hmem.2.1 hmem.1, hload, ← hnode, Prune.put_load]
  · intro _
    rw [hpruned.keeps.root (by simp), hat.keeps.root (by simp)]
  · rw [hpruned.keeps.allocated, hat.keeps.allocated]
end

theorem prune_siblings (forest : Forest policy_tree_t) (below : List Link) (levels : Nat)
    (hdepth : depth = below.length + levels) (prune : Prune) (link : Link)
    (parent : Option policy_tree_t)
    (hforest : Represents prune.heap parent (prune.load link) forest)
    (hnodup : forest.nodes.Nodup) (hlink : link.Outside forest.nodes) :
    ∃ prune', PruneReaches freed depth (prune.goOn below ((prune.load link).map fun _ => link))
        (prune'.goOn below none) ∧ Pruned forest parent levels link prune prune' := by
  induction forest generalizing below levels prune link parent with
  | nil =>
    rw [Represents] at hforest
    rw [hforest]
    refine ⟨prune, .refl, ?_, fun _ _ => ⟨rfl, rfl, rfl⟩,
      fun node _ => (prune.put_load link node).symm, fun _ => rfl, rfl⟩
    cases levels <;> exact hforest
  | node address children siblings ihc ihs =>
    obtain ⟨hnode, hallocated, haddress, hchildren, hsiblings⟩ := hforest
    obtain ⟨hfresh, hfresh', hafter⟩ := nodes_apart hnodup
    obtain ⟨hne, -, hlinkc, hlinks⟩ := link_apart hlink
    have hnodups := hnodup
    rw [Forest.nodes, List.nodup_cons, List.nodup_append] at hnodups
    obtain ⟨pruned, hreaches, hat⟩ := exists_atNode freed hdepth hnode hchildren (by
      intro deeper hlevels
      refine ihc (link :: below) deeper ?_ prune (.children address) (some address) hchildren
        hnodups.2.1 hfresh
      rw [List.length_cons]
      omega)
    have hload : pruned.load link = some address := by
      rw [hat.keeps.load hne hlinkc, hnode]
    have hrest := hat.rest hnodup hsiblings
    have hturn := pruneNext_leave freed hat.stack hload hat.leave
    rw [hnode, Option.map_some]
    by_cases hempty : (pruned.heap.node address).children = none
    · rw [if_pos hempty] at hturn
      obtain ⟨next, hnext⟩ : ∃ next, { pruned with heap := pruned.heap.set address freed }.store
          (pruned.heap.node address).siblings link = next := ⟨_, rfl⟩
      have hload' : next.load link = (pruned.heap.node address).siblings := by
        rw [← hnext, Prune.load_store]
      have hrest' : Represents next.heap parent (next.load link) siblings := by
        rw [hload']
        refine represents_of_eq (by rw [← hnext, Prune.allocated_store]; rfl) hrest ?_
        intro node hmem
        rw [← hnext, Prune.node_store, Link.put_of_outside hlinks hmem]
        simp only [Heap.set, Function.update_of_ne (hafter node hmem).2]
      rw [hnext, ← hload'] at hturn
      obtain ⟨prune', hreaches', hpruned⟩ := ihs below levels hdepth next link parent hrest'
        hnodups.2.2.1 hlinks
      exact ⟨prune', (hreaches.tail hturn).trans hreaches',
        hat.removed hnodup hempty hnext hpruned⟩
    · rw [if_neg hempty] at hturn
      obtain ⟨prune', hreaches', hpruned⟩ := ihs below levels hdepth pruned (.siblings address)
        parent hrest hnodups.2.2.1 hfresh'
      exact ⟨prune', (hreaches.tail hturn).trans hreaches',
        hat.stays hnodup hlink hallocated haddress hnode hempty hpruned⟩

variable (depth) in
theorem prune_represents {heap : Heap} {root : policy_tree_t} {tree : Forest policy_tree_t}
    (htree : IsTree heap root tree) :
    ∃ fuel prune, policy_tree_prune_childless freed fuel heap (some root) depth = some prune ∧
      prune.stack = [] ∧ Represents prune.heap none prune.root (tree.kept depth) ∧
      ∀ node ∈ (tree.kept depth).nodes, SameContents (heap.node node) (prune.heap.node node) := by
  obtain ⟨prune, hreaches, hpruned⟩ := prune_siblings freed tree [] depth
    (Nat.zero_add depth).symm ⟨[.root], false, some root, heap⟩ .root none htree.represents
    htree.nodup trivial
  obtain ⟨fuel, hrun⟩ := Loop.exists_run_of_reaches hreaches rfl
  exact ⟨fuel, prune.goOn [] none, hrun, rfl, hpruned.represents, hpruned.contents⟩
end

def policyTrees (heap : Heap) : Forest policy_tree_t → List PolicyTree
  | .nil => []
  | .node address children siblings =>
    .node (heap.node address).valid_policy (heap.node address).qualifier_set
      (heap.node address).expected_policy_set (policyTrees heap children) ::
        policyTrees heap siblings

theorem isEmpty_policyTrees (heap : Heap) (forest : Forest policy_tree_t) :
    (policyTrees heap forest).isEmpty = true ↔ forest = .nil := by
  cases forest <;> simp [policyTrees]

/-- Pruning of trees is what is done in memory. -/
theorem pruneSiblings_policyTrees (heap : Heap) (forest : Forest policy_tree_t) (depth : Nat) :
    pruneSiblings depth (policyTrees heap forest) = policyTrees heap (forest.kept depth) := by
  induction forest generalizing depth with
  | nil => cases depth <;> rfl
  | node address children siblings ihc ihs =>
    have hempty : (policyTrees heap (children.keptBelow depth)).isEmpty =
        (children.atDepth depth).isEmpty := by
      rw [Bool.eq_iff_iff, isEmpty_policyTrees, Forest.keptBelow_eq_nil_iff, List.isEmpty_iff]
    rw [Forest.kept_node, ← hempty]
    have hrest := ihs depth
    cases depth with
    | zero =>
      rw [pruneSiblings] at hrest
      rw [policyTrees, pruneSiblings, List.filter_cons, hrest, Forest.keptBelow]
      by_cases hnone : (policyTrees heap children).isEmpty = true <;>
        simp [hnone, policyTrees, PolicyTree.children]
    | succ depth =>
      rw [pruneSiblings] at hrest
      rw [policyTrees, pruneSiblings, List.map_cons, List.filter_cons, hrest, Forest.keptBelow]
      by_cases hnone : (policyTrees heap (children.kept depth)).isEmpty = true <;>
        simp [hnone, policyTrees, PolicyTree.children, PolicyTree.setChildren, ihc]

/-- The walk to a depth visits each node there once, whatever its callback adds. -/
def VisitsEach (heap : Heap) (root : policy_tree_t) (tree : Forest policy_tree_t) (depth : Nat) :
    Prop :=
  ∀ (σ : Type) (callback : Callback σ),
    (∀ node heap ctx, Adds node heap (callback node heap ctx).2.1) → ∀ ctx, ∃ fuel walk,
      policy_tree_walk_depth callback fuel heap root depth ctx = some walk ∧
        walk.visits = tree.atDepth depth ∧ walk.visits.Nodup

/-- The walk ends at once, with `false`. -/
def VisitsNone (heap : Heap) (root : policy_tree_t) (depth : Int) : Prop :=
  ∀ (σ : Type) (callback : Callback σ) ctx, ∃ fuel walk,
    policy_tree_walk_depth callback fuel heap root depth ctx = some walk ∧
      walk.visits = [] ∧ walk.matched = false

/-- Of a tree the nodes down to a depth that have no descendant one level below it are removed, and
all others stay, in their order and with their contents. -/
def PrunesChildless (heap : Heap) (root : policy_tree_t) (tree : Forest policy_tree_t)
    (depth : Nat) : Prop :=
  ∀ freed, ∃ fuel prune,
    policy_tree_prune_childless freed fuel heap (some root) depth = some prune ∧
      Represents prune.heap none prune.root (tree.kept depth) ∧
      (∀ node ∈ (tree.kept depth).nodes, SameContents (heap.node node) (prune.heap.node node)) ∧
      (prune.root = none ↔ tree.atDepth (depth + 1) = [])

/-- Walks to the depths below the maximum visit all nodes there, those to other depths none, and
pruning removes just the nodes that lead to nothing. -/
theorem policyTree_walked_and_pruned {heap : Heap} {root : policy_tree_t}
    {tree : Forest policy_tree_t} (htree : IsTree heap root tree) :
    (∀ depth < POLICY_TREE_DEPTH_MAX, VisitsEach heap root tree depth) ∧
      (∀ depth : Int, depth < 0 ∨ (POLICY_TREE_DEPTH_MAX : Int) ≤ depth →
        VisitsNone heap root depth) ∧
      ∀ depth, PrunesChildless heap root tree depth := by
  refine ⟨?_, ?_, ?_⟩
  · intro depth hdepth σ callback hadds ctx
    obtain ⟨fuel, walk, hwalk, hvisits⟩ := walk_visits hadds htree ctx hdepth
    refine ⟨fuel, walk, hwalk, hvisits, ?_⟩
    rw [hvisits]
    exact htree.nodup.sublist (Forest.atDepth_sublist tree depth)
  · intro depth hdepth σ callback ctx
    exact ⟨0, _, if_pos hdepth, rfl, rfl⟩
  · intro depth freed
    obtain ⟨fuel, prune, hprune, -, hrepresents, hcontents⟩ :=
      prune_represents freed depth htree
    refine ⟨fuel, prune, hprune, hrepresents, hcontents, ?_⟩
    rw [← Forest.kept_eq_nil_iff]
    constructor
    · intro hnone
      rw [hnone] at hrepresents
      exact represents_nil hrepresents
    · intro hnil
      rwa [hnil] at hrepresents

/-- So many nodes from an address on, each the only child of the one before it. -/
def chain : Nat → policy_tree_t → Forest policy_tree_t
  | 0, _ => .nil
  | length + 1, address => .node address (chain length (address + 1)) .nil

def chainHeap : Heap where
  node address :=
    { valid_policy := oidAnyPolicy
      qualifier_set := none
      expected_policy_set := [oidAnyPolicy]
      children := if address < 15 then some (address + 1) else none
      siblings := none
      parent := if address = 0 then none else some (address - 1) }
  allocated := 16

theorem chain_isTree : IsTree chainHeap 0 (chain 16 0) where
  represents := by
    simp [chain, Represents, chainHeap]
  single := ⟨_, rfl⟩
  nodup := by decide

theorem policyTree_walked_and_pruned_chain :
    (∀ depth < POLICY_TREE_DEPTH_MAX, VisitsEach chainHeap 0 (chain 16 0) depth) ∧
      (∀ depth : Int, depth < 0 ∨ (POLICY_TREE_DEPTH_MAX : Int) ≤ depth →
        VisitsNone chainHeap 0 depth) ∧
      ∀ depth, PrunesChildless chainHeap 0 (chain 16 0) depth :=
  policyTree_walked_and_pruned chain_isTree

/-- The node at depth 15 is not visited. -/
theorem policyTree_deep_not_visited :
    ¬ ∀ (heap : Heap) (root : policy_tree_t) (tree : Forest policy_tree_t),
      IsTree heap root tree → ∀ depth, VisitsEach heap root tree depth := by
  intro hvisits
  obtain ⟨fuel, walk, hwalk, hnodes, -⟩ := hvisits chainHeap 0 (chain 16 0) chain_isTree 15 Unit
    (fun _ heap ctx => (false, heap, ctx)) (fun _ heap _ => .none) ()
  rw [policy_tree_walk_depth, if_pos (by decide)] at hwalk
  cases hwalk
  revert hnodes
  decide

theorem policyTrees_congr {heap heap' : Heap} {forest : Forest policy_tree_t}
    (hsame : ∀ node ∈ forest.nodes, SameContents (heap.node node) (heap'.node node)) :
    policyTrees heap' forest = policyTrees heap forest := by
  induction forest with
  | nil => rfl
  | node address children siblings ihc ihs =>
    obtain ⟨hvalid, hqualifiers, hexpected⟩ := hsame address (by simp [Forest.nodes])
    have hchildren := ihc fun node hmem => hsame node (by simp [Forest.nodes, hmem])
    have hsiblings := ihs fun node hmem => hsame node (by simp [Forest.nodes, hmem])
    rw [policyTrees, policyTrees, hvalid, hqualifiers, hexpected, hchildren, hsiblings]

theorem pruneSiblings_singleton (policyTree : PolicyTree) (depth : Nat) :
    pruneSiblings depth [policyTree] =
      (Trustd.policy_tree_prune_childless policyTree depth).toList := by
  have hfilter (keep : PolicyTree → Bool) (node : PolicyTree) :
      [node].filter keep = ([node].filter keep).head?.toList := by
    cases hkeep : keep node <;> simp [hkeep]
  cases depth with
  | zero => exact hfilter _ policyTree
  | succ depth => exact hfilter _ _

/-- The loop in memory does to a tree what the recursive pruning does. -/
theorem prune_refines {heap : Heap} {root : policy_tree_t} {tree : Forest policy_tree_t}
    (htree : IsTree heap root tree) (freed : policy_tree) (depth : Nat) :
    ∃ policyTree fuel prune left, policyTrees heap tree = [policyTree] ∧
      policy_tree_prune_childless freed fuel heap (some root) depth = some prune ∧
      Represents prune.heap none prune.root left ∧
      policyTrees prune.heap left =
        (Trustd.policy_tree_prune_childless policyTree depth).toList := by
  obtain ⟨fuel, prune, hprune, -, hrepresents, hcontents⟩ := prune_represents freed depth htree
  obtain ⟨policyTree, hpolicies⟩ : ∃ policyTree, policyTrees heap tree = [policyTree] := by
    obtain ⟨children, rfl⟩ := htree.single
    exact ⟨_, rfl⟩
  refine ⟨policyTree, fuel, prune, tree.kept depth, hpolicies, hprune, hrepresents, ?_⟩
  rw [policyTrees_congr hcontents, ← pruneSiblings_policyTrees, hpolicies, pruneSiblings_singleton]

theorem prune_refines_chain : ∃ policyTree fuel prune left,
    policyTrees chainHeap (chain 16 0) = [policyTree] ∧
      policy_tree_prune_childless (chainHeap.node 0) fuel chainHeap (some 0) 3 = some prune ∧
      Represents prune.heap none prune.root left ∧
      policyTrees prune.heap left = (Trustd.policy_tree_prune_childless policyTree 3).toList :=
  prune_refines chain_isTree _ _
end SecurityFramework.Trustd.PolicyHeap
