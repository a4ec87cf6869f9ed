import Mathlib.Data.List.Nodup

/-!
# Ordered forests

A forest is its first tree, by the root and the forest below it, and the trees after that one.
-/

inductive Forest (α : Type*)
  | nil
  | node (root : α) (children siblings : Forest α)

namespace Forest
variable {α : Type*}

def nodes : Forest α → List α
  | nil => []
  | node root children siblings => root :: (children.nodes ++ siblings.nodes)

/-- The nodes so many levels below the roots, from left to right. -/
def atDepth : Forest α → Nat → List α
  | nil, _ => []
  | node root _ siblings, 0 => root :: siblings.atDepth 0
  | node _ children siblings, depth + 1 => children.atDepth depth ++ siblings.atDepth (depth + 1)

/-- Without the nodes down to a depth that have no descendant one level below it. All others stay in
their order. -/
def kept : Forest α → Nat → Forest α
  | nil, _ => nil
  | node root children siblings, 0 =>
    if (children.atDepth 0).isEmpty then siblings.kept 0
    else node root children (siblings.kept 0)
  | node root children siblings, depth + 1 =>
    if (children.atDepth (depth + 1)).isEmpty then siblings.kept (depth + 1)
    else node root (children.kept depth) (siblings.kept (depth + 1))

def keptBelow (children : Forest α) : Nat → Forest α
  | 0 => children
  | depth + 1 => children.kept depth

theorem kept_node (root : α) (children siblings : Forest α) (depth : Nat) :
    (node root children siblings).kept depth =
      if (children.atDepth depth).isEmpty then siblings.kept depth
      else node root (children.keptBelow depth) (siblings.kept depth) := by
  cases depth <;> rfl

theorem atDepth_node (root : α) (children siblings : Forest α) (depth : Nat) :
    (node root children siblings).atDepth depth =
      (node root children nil).atDepth depth ++ siblings.atDepth depth := by
  cases depth <;> simp [atDepth]

theorem atDepth_zero_eq_nil_iff {forest : Forest α} : forest.atDepth 0 = [] ↔ forest = nil := by
  cases forest <;> simp [atDepth]

theorem kept_eq_nil_iff (forest : Forest α) (depth : Nat) :
    forest.kept depth = nil ↔ forest.atDepth (depth + 1) = [] := by
  induction forest with
  | nil => cases depth <;> simp [kept, atDepth]
  | node root children siblings _ ih =>
    rw [kept_node, atDepth, List.append_eq_nil_iff, ← ih, ← List.isEmpty_iff]
    split
    case isTrue hempty => simp only [hempty, true_and]
    case isFalse hsome => simp only [hsome, reduceCtorEq, false_and]

theorem keptBelow_eq_nil_iff (children : Forest α) (depth : Nat) :
    children.keptBelow depth = nil ↔ children.atDepth depth = [] := by
  cases depth with
  | zero => exact atDepth_zero_eq_nil_iff.symm
  | succ depth => exact kept_eq_nil_iff children depth

theorem atDepth_sublist (forest : Forest α) (depth : Nat) :
    (forest.atDepth depth).Sublist forest.nodes := by
  induction forest generalizing depth with
  | nil => exact List.nil_sublist _
  | node root children siblings ihc ihs =>
    cases depth with
    | zero => exact ((ihs 0).trans (List.sublist_append_right _ _)).cons_cons root
    | succ depth => exact ((ihc depth).append (ihs (depth + 1))).cons root

theorem nodes_kept_sublist (forest : Forest α) (depth : Nat) :
    (forest.kept depth).nodes.Sublist forest.nodes := by
  induction forest generalizing depth with
  | nil => cases depth <;> exact List.nil_sublist _
  | node root children siblings ihc ihs =>
    have hbelow : (children.keptBelow depth).nodes.Sublist children.nodes := by
      cases depth with
      | zero => exact List.Sublist.refl _
      | succ depth => exact ihc depth
    rw [kept_node]
    split
    · exact ((ihs depth).trans (List.sublist_append_right _ _)).cons root
    · exact (hbelow.append (ihs depth)).cons_cons root

theorem nodes_keptBelow_subset (children : Forest α) (depth : Nat) :
    (children.keptBelow depth).nodes ⊆ children.nodes := by
  cases depth with
  | zero => exact List.Subset.refl _
  | succ depth => exact (nodes_kept_sublist children depth).subset
end Forest
