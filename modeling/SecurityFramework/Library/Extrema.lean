import Mathlib.Algebra.Order.BigOperators.Group.List
import Mathlib.Algebra.Order.Group.Nat
import Mathlib.Data.List.MinMax

/-!
# Ranked relations

A relation is ranked when each of its steps goes down in some rank.
-/

open Relation

def Ranked {α : Type*} (r : α → α → Prop) : Prop :=
  ∃ rank : α → ℕ, ∀ a b, r a b → rank b < rank a

namespace Ranked
variable {α : Type*} {r r' : α → α → Prop}

theorem of_isEmpty (hnone : ∀ a b, ¬r a b) : Ranked r :=
  ⟨fun _ => 0, fun a b hstep => absurd hstep (hnone a b)⟩

theorem mono (hr : Ranked r) (hsub : ∀ a b, r' a b → r a b) : Ranked r' := by
  obtain ⟨rank, hrank⟩ := hr
  exact ⟨rank, fun a b hstep => hrank a b (hsub a b hstep)⟩

theorem not_transGen_self (hr : Ranked r) (a : α) : ¬TransGen r a a := by
  obtain ⟨rank, hrank⟩ := hr
  intro hcycle
  have hdown : ∀ b, TransGen r a b → rank b < rank a := by
    intro b hpath
    induction hpath with
    | single hstep => exact hrank _ _ hstep
    | tail _ hstep ih => exact lt_trans (hrank _ _ hstep) ih
  exact lt_irrefl _ (hdown a hcycle)

/-- The steps of `a` may go to other places, as long as none of these leads back to `a`. -/
theorem redirect (hr : Ranked r) (a : α) (targets : List α)
    (hsteps : ∀ x y, r' x y → r x y ∨ x = a ∧ y ∈ targets)
    (haway : ∀ b ∈ targets, ¬ReflTransGen r b a) : Ranked r' := by
  classical
  obtain ⟨rank, hrank⟩ := hr
  -- what leads to `a` is lifted above all targets
  refine ⟨fun x => rank x + if ReflTransGen r x a then (targets.map rank).sum + 1 else 0, ?_⟩
  intro x y hstep
  rcases hsteps x y hstep with hold | ⟨rfl, hy⟩
  · have hless := hrank x y hold
    by_cases hx : ReflTransGen r x a
    · simp only [if_pos hx]
      split <;> omega
    · have hy : ¬ReflTransGen r y a := fun hy => hx (ReflTransGen.head hold hy)
      simp only [if_neg hx, if_neg hy]
      omega
  · have hle : rank y ≤ (targets.map rank).sum :=
      List.single_le_sum (fun _ _ => Nat.zero_le _) _ (List.mem_map_of_mem hy)
    simp only [if_pos ReflTransGen.refl, if_neg (haway y hy)]
    omega
end Ranked

namespace FirstMaximum
variable {α β γ : Type*} [LinearOrder β] {f : α → β} {list : List α}

def Largest (f : α → β) (list : List α) (a : α) : Prop := a ∈ list ∧ ∀ b ∈ list, f b ≤ f a

theorem largest_of_argmax {a : α} (h : list.argmax f = some a) : Largest f list a :=
  ⟨List.argmax_mem h, fun _ hb => List.le_of_mem_argmax hb h⟩

theorem Largest.perm {order : List α} (hperm : order.Perm list) {a : α} (h : Largest f order a) :
    Largest f list a :=
  ⟨hperm.mem_iff.mp h.1, fun b hb => h.2 b (hperm.mem_iff.mpr hb)⟩

theorem argmax_cons_of_largest {a : α} {rest : List α} (h : ∀ b ∈ rest, f b ≤ f a) :
    (a :: rest).argmax f = some a := by
  rw [List.argmax_cons]
  cases hmax : rest.argmax f with
  | none => rfl
  | some c =>
    have hle : f c ≤ f a := h c (List.argmax_mem hmax)
    simp only [if_neg (not_lt_of_ge hle)]

theorem exists_order_of_largest {a : α} (h : Largest f list a) :
    ∃ order : List α, order.Perm list ∧ order.argmax f = some a := by
  obtain ⟨before, after, rfl⟩ := List.append_of_mem h.1
  refine ⟨a :: (before ++ after), List.perm_middle.symm, argmax_cons_of_largest ?_⟩
  intro b hb
  exact h.2 b (List.perm_middle.mem_iff.mpr (List.mem_cons_of_mem a hb))

/-- Something of the member that is taken is the same in every order when the largest members
agree on it. -/
theorem argmax_map_perm_iff (g : α → γ) :
    (∀ order : List α, order.Perm list →
      (order.argmax f).map g = (list.argmax f).map g) ↔
    ∀ a b, Largest f list a → Largest f list b → g a = g b := by
  constructor
  · intro hsame a b ha hb
    obtain ⟨orderA, hpermA, hmaxA⟩ := exists_order_of_largest ha
    obtain ⟨orderB, hpermB, hmaxB⟩ := exists_order_of_largest hb
    have heq := (hsame orderA hpermA).trans (hsame orderB hpermB).symm
    rw [hmaxA, hmaxB] at heq
    exact Option.some.inj heq
  · intro hagree order hperm
    cases horder : order.argmax f with
    | none =>
      rw [List.argmax_eq_none.mp horder] at hperm
      rw [← hperm.nil_eq]
      rfl
    | some a =>
      cases hlist : list.argmax f with
      | none =>
        rw [List.argmax_eq_none.mp hlist] at hperm
        rw [hperm.eq_nil] at horder
        cases horder
      | some b =>
        have ha := (largest_of_argmax horder).perm hperm
        exact congrArg some (hagree a b ha (largest_of_argmax hlist))
end FirstMaximum

namespace SecurityFramework.Library
variable {α : Type*}

/-- The bound, or a limit that is below it. -/
def lowerBound (bound : Nat) : Option Nat → Nat
  | none => bound
  | some limit => if limit < bound then limit else bound

variable (counts : α → Bool) (limit : α → Option Nat)

def nextBound (bound : Nat) (item : α) : Nat :=
  lowerBound (if counts item then bound - 1 else bound) (limit item)

/-- An item counts while nothing of the bound is left. -/
def BoundExceeded : Nat → List α → Prop
  | _, [] => False
  | bound, item :: items =>
    (counts item = true ∧ bound = 0) ∨ BoundExceeded (nextBound counts limit bound item) items

variable {counts limit} {bound : Nat} {items : List α}

theorem lowerBound_lt_iff {count : Nat} {limit : Option Nat} :
    lowerBound bound limit < count ↔ bound < count ∨ ∃ l, limit = some l ∧ l < count := by
  cases limit with
  | none => simp [lowerBound]
  | some l =>
    simp only [lowerBound, Option.some.injEq, exists_eq_left']
    split_ifs <;> omega

/-- The bound is exceeded when too many items count in all, or after one with a limit. -/
theorem boundExceeded_iff :
    BoundExceeded counts limit bound items ↔
      bound < items.countP counts ∨
        ∃ before item after l, items = before ++ item :: after ∧ limit item = some l ∧
          l < after.countP counts := by
  induction items generalizing bound with
  | nil => simp [BoundExceeded]
  | cons item items ih =>
    rw [BoundExceeded, ih, nextBound, lowerBound_lt_iff]
    have hcount : ((counts item = true ∧ bound = 0) ∨
        (if counts item then bound - 1 else bound) < items.countP counts) ↔
          bound < (item :: items).countP counts := by
      rw [List.countP_cons]
      cases counts item with
      | true =>
        simp only [true_and, if_true]
        omega
      | false => simp
    have hlimits : (∃ before other after l, item :: items = before ++ other :: after ∧
          limit other = some l ∧ l < after.countP counts) ↔
        (∃ l, limit item = some l ∧ l < items.countP counts) ∨
          ∃ before other after l, items = before ++ other :: after ∧ limit other = some l ∧
            l < after.countP counts := by
      constructor
      · rintro ⟨before, other, after, l, hsplit, hlimit, hless⟩
        cases before with
        | nil =>
          rw [List.nil_append, List.cons.injEq] at hsplit
          rcases hsplit with ⟨rfl, rfl⟩
          exact Or.inl ⟨l, hlimit, hless⟩
        | cons first before =>
          rw [List.cons_append, List.cons.injEq] at hsplit
          exact Or.inr ⟨before, other, after, l, hsplit.2, hlimit, hless⟩
      · rintro (⟨l, hlimit, hless⟩ | ⟨before, other, after, l, rfl, hlimit, hless⟩)
        · exact ⟨[], item, items, l, rfl, hlimit, hless⟩
        · exact ⟨item :: before, other, after, l, rfl, hlimit, hless⟩
    rw [← hcount, hlimits]
    simp only [or_assoc]
end SecurityFramework.Library
