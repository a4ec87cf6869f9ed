import Mathlib.Data.Nat.Count
import Mathlib.Data.PNat.Basic
import SecurityFramework.Library.Run

/-!
# Walks in batches

A walk takes a list in batches of one size, and is over with the first batch that is shorter.
-/

namespace Batches
inductive Turn where
  | lost
  | givenUp
  | taken
  deriving DecidableEq

/-- What is left after some turns, where the walk is not over. -/
abbrev Walk (α : Type*) := Option (Nat × List α)

variable {α : Type*} (size : ℕ+) (onFull : Nat → Turn) (onShort : Nat → Bool)

def next : Walk α → Option (Walk α)
  | none => none
  | some (turn, rest) => some <|
    if (size : Nat) ≤ rest.length then
      match onFull turn with
      | .lost => some (turn + 1, rest)
      | .givenUp => none
      | .taken => some (turn + 1, rest.drop size)
    else if onShort turn then none
    else some (turn + 1, rest)

def taken (turn : Nat) : Nat := Nat.count (fun i => onFull i = .taken) turn

/-- A turn that is not lost comes when the walk is given up or when only a short batch is left. -/
def Over (length : Nat) : Prop :=
  ∃ turn, onShort turn = true ∧
    (onFull turn = .givenUp ∨ length / size ≤ taken onFull turn)

def At (list : List α) (turn : Nat) (walk : Walk α) : Prop :=
  walk = some (turn, list.drop (size * taken onFull turn)) ∧
    size * taken onFull turn ≤ list.length

variable {size onFull onShort}

theorem taken_succ_of_taken {turn : Nat} (h : onFull turn = .taken) :
    taken onFull (turn + 1) = taken onFull turn + 1 := by
  rw [taken, Nat.count_succ, if_pos h, taken]

theorem taken_succ_of_ne {turn : Nat} (h : onFull turn ≠ .taken) :
    taken onFull (turn + 1) = taken onFull turn := by
  rw [taken, Nat.count_succ, if_neg h, Nat.add_zero, taken]

theorem at_start (list : List α) : At size onFull list 0 (some (0, list)) := by
  constructor
  · simp [taken]
  · simp [taken]

/-- A turn goes on to the next one, unless it gives up or a short batch is left. -/
theorem next_cases (hshort : ∀ turn, onFull turn ≠ .lost → onShort turn = true) {list : List α}
    {turn : Nat} {walk : Walk α} (h : At size onFull list turn walk) :
    (∃ walk', next size onFull onShort walk = some walk' ∧ At size onFull list (turn + 1) walk') ∨
      (next size onFull onShort walk = some none ∧ onShort turn = true ∧
        (onFull turn = .givenUp ∨ list.length / size ≤ taken onFull turn)) := by
  obtain ⟨rfl, hle⟩ := h
  rw [next, List.length_drop]
  split
  case isTrue hfull =>
    cases hturn : onFull turn with
    | lost =>
      left
      refine ⟨_, rfl, ?_⟩
      rw [At, taken_succ_of_ne (by rw [hturn]; decide)]
      exact ⟨rfl, hle⟩
    | givenUp => exact .inr ⟨rfl, hshort turn (by rw [hturn]; decide), .inl rfl⟩
    | taken =>
      left
      refine ⟨_, rfl, ?_⟩
      rw [At, taken_succ_of_taken hturn, List.drop_drop, Nat.mul_succ]
      exact ⟨rfl, by omega⟩
  case isFalse hlast =>
    cases hturn : onShort turn with
    | true =>
      refine .inr ⟨rfl, rfl, .inr ?_⟩
      have hpos := size.pos
      rw [Nat.div_le_iff_le_mul_add_pred hpos]
      omega
    | false =>
      left
      have hlost : onFull turn = .lost := by
        by_contra hne
        rw [hshort turn hne] at hturn
        cases hturn
      refine ⟨_, rfl, ?_⟩
      rw [At, taken_succ_of_ne (by rw [hlost]; decide)]
      exact ⟨rfl, hle⟩

theorem next_of_over {list : List α} {turn : Nat} {walk : Walk α}
    (h : At size onFull list turn walk) (hshort : onShort turn = true)
    (hover : onFull turn = .givenUp ∨ list.length / size ≤ taken onFull turn) :
    next size onFull onShort walk = some none := by
  obtain ⟨rfl, hle⟩ := h
  rw [next, List.length_drop]
  split
  case isTrue hfull =>
    have hless : taken onFull turn < list.length / size := by
      rw [Nat.lt_iff_add_one_le, Nat.le_div_iff_mul_le size.pos, Nat.mul_comm, Nat.mul_succ]
      omega
    rw [hover.resolve_right (Nat.not_le.mpr hless)]
  case isFalse => rfl

/-- A walk ends exactly when a turn that is not lost comes late enough, or gives up. -/
theorem ends_iff (hshort : ∀ turn, onFull turn ≠ .lost → onShort turn = true) (list : List α) :
    (∃ fuel, (Loop.run (next size onFull onShort) fuel (some (0, list))).isSome = true) ↔
      Over size onFull onShort list.length := by
  constructor
  · rintro ⟨fuel, hrun⟩
    by_contra hnever
    have hnone := @Loop.run_eq_none _ (next size onFull onShort)
      (fun walk => ∃ turn, At size onFull list turn walk) ?_ _ ⟨0, at_start list⟩ fuel
    · rw [hnone] at hrun
      cases hrun
    · rintro walk ⟨turn, hat⟩
      rcases next_cases hshort hat with ⟨walk', hnext, hat'⟩ | ⟨-, hlast, hover⟩
      · exact ⟨walk', hnext, turn + 1, hat'⟩
      · exact absurd ⟨turn, hlast, hover⟩ hnever
  · rintro ⟨last, hlast, hover⟩
    -- by induction on how many turns come before the last one
    have hfrom : ∀ before turn walk, turn + before = last → At size onFull list turn walk →
        ∃ fuel, (Loop.run (next size onFull onShort) fuel walk).isSome = true := by
      intro before
      induction before with
      | zero =>
        rintro turn walk rfl hat
        refine ⟨2, ?_⟩
        rw [Loop.run_turn (next_of_over hat hlast hover), Loop.run_done rfl]
        rfl
      | succ before ih =>
        intro turn walk hturn hat
        rcases next_cases hshort hat with ⟨walk', hnext, hat'⟩ | ⟨hnext, -⟩
        · obtain ⟨fuel, hrun⟩ := ih (turn + 1) walk' (by omega) hat'
          refine ⟨fuel + 1, ?_⟩
          rw [Loop.run_turn hnext]
          exact hrun
        · refine ⟨2, ?_⟩
          rw [Loop.run_turn hnext, Loop.run_done rfl]
          rfl
    exact hfrom last 0 _ (Nat.zero_add last) (at_start list)
end Batches
