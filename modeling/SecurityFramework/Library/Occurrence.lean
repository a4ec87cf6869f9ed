import Mathlib.Data.List.Infix

/-!
# Lists within lists

A list occurs in another if it starts what is left of it at some place.
-/

namespace Occurrence
/-- A list occurs in another just when it starts it at some place. -/
theorem exists_start_iff_occurs {α : Type*} {a b : List α} (h : a.length ≤ b.length) :
    (∃ i < b.length - a.length + 1, a <+: b.drop i) ↔ a <:+: b := by
  constructor
  · rintro ⟨i, _, hstart⟩
    exact hstart.isInfix.trans (List.drop_suffix i b).isInfix
  · rintro ⟨front, back, rfl⟩
    refine ⟨front.length, ?_, ?_⟩
    · simp only [List.length_append]
      omega
    · rw [List.append_assoc, List.drop_left]
      exact List.prefix_append a back

/-- A list ends another just when it starts what is left of it from its own length on. -/
theorem start_drop_iff_end {α : Type*} {a b : List α} (h : a.length ≤ b.length) :
    a <+: b.drop (b.length - a.length) ↔ a <:+ b := by
  have hlength : (b.drop (b.length - a.length)).length = a.length := by
    rw [List.length_drop]
    omega
  constructor
  · intro hstart
    rw [hstart.eq_of_length hlength.symm]
    exact List.drop_suffix _ b
  · intro hend
    rw [List.suffix_iff_eq_drop] at hend
    rw [← hend]

theorem drop_dropLast {α : Type*} (l : List α) (i : Nat) :
    l.dropLast.drop i = (l.drop i).dropLast := by
  rw [List.dropLast_eq_take, List.dropLast_eq_take, List.drop_take, List.length_drop]
  congr 1
  omega

theorem start_dropLast_iff {α : Type*} {a b : List α} (h : a.length < b.length) :
    a <+: b.dropLast ↔ a <+: b := by
  have htake : (b.take (b.length - 1)).take a.length = b.take a.length := by
    rw [List.take_take, Nat.min_eq_left (by omega)]
  rw [List.dropLast_eq_take, List.prefix_iff_eq_take, List.prefix_iff_eq_take, htake]

section
variable {α : Type*} {compare : List α → List α → Ordering}

/-- A comparison that finds equality where the first list starts the second one. -/
def FindsStart (compare : List α → List α → Ordering) : Prop :=
  ∀ a b, a.length ≤ b.length → (compare a b = .eq ↔ a <+: b)

theorem FindsStart.initial [DecidableEq α] (h : FindsStart compare) (a b : List α) :
    (decide (a.length ≤ b.length) && decide (compare a b = .eq)) = decide (a <+: b) := by
  rw [Bool.eq_iff_iff, Bool.and_eq_true, decide_eq_true_iff, decide_eq_true_iff,
    decide_eq_true_iff]
  constructor
  · rintro ⟨hle, hequal⟩
    exact (h a b hle).mp hequal
  · intro hstart
    exact ⟨hstart.length_le, (h a b hstart.length_le).mpr hstart⟩

theorem FindsStart.final [DecidableEq α] (h : FindsStart compare) (a b : List α) :
    (decide (a.length ≤ b.length) && decide (compare a (b.drop (b.length - a.length)) = .eq)) =
      decide (a <:+ b) := by
  have hlength : a.length ≤ b.length → a.length ≤ (b.drop (b.length - a.length)).length := by
    intro hle
    rw [List.length_drop]
    omega
  rw [Bool.eq_iff_iff, Bool.and_eq_true, decide_eq_true_iff, decide_eq_true_iff,
    decide_eq_true_iff]
  constructor
  · rintro ⟨hle, hequal⟩
    exact (start_drop_iff_end hle).mp ((h _ _ (hlength hle)).mp hequal)
  · intro hend
    have hle := hend.length_le
    exact ⟨hle, (h _ _ (hlength hle)).mpr ((start_drop_iff_end hle).mpr hend)⟩

theorem FindsStart.search (h : FindsStart compare) {a b : List α} {places : Nat}
    (hroom : ∀ i < places, i + a.length ≤ b.length) :
    ((List.range places).any fun i => compare a (b.drop i) = .eq) = true ↔
      ∃ i < places, a <+: b.drop i := by
  simp only [List.any_eq_true, List.mem_range, decide_eq_true_eq]
  refine exists_congr fun i => and_congr_right fun hi => h a (b.drop i) ?_
  have hle := hroom i hi
  rw [List.length_drop]
  omega
end
end Occurrence
