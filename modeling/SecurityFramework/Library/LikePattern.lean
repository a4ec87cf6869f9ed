import Mathlib.Data.List.Infix

/-!
# Patterns with wildcards

In a pattern a percent sign stands for any text and an underscore for any character. Letters match
in either case.
-/

namespace LikePattern
def like : List Char → List Char → Bool
  | [], text => text.isEmpty
  | '%' :: pattern, text => text.tails.any (like pattern)
  | '_' :: pattern, _ :: text => like pattern text
  | ch :: pattern, ch' :: text => ch.toLower = ch'.toLower && like pattern text
  | _ :: _, [] => false

def IsLiteral (pattern : List Char) : Prop := ∀ ch ∈ pattern, ch ≠ '%' ∧ ch ≠ '_'

theorem like_percent (pattern text : List Char) :
    like ('%' :: pattern) text = true ↔ ∃ rest, rest <:+ text ∧ like pattern rest = true := by
  simp only [like, List.any_eq_true, List.mem_tails]

theorem like_cons {ch : Char} (hpercent : ch ≠ '%') (hany : ch ≠ '_') (pattern : List Char)
    (ch' : Char) (text : List Char) :
    like (ch :: pattern) (ch' :: text) =
      (decide (ch.toLower = ch'.toLower) && like pattern text) := by
  rw [like]
  · exact hpercent
  · exact hany

/-- A pattern without wildcards matches a text that differs in the case of letters only. -/
theorem like_literal {pattern : List Char} (h : IsLiteral pattern) (text : List Char) :
    like pattern text = true ↔ pattern.map Char.toLower = text.map Char.toLower := by
  induction pattern generalizing text with
  | nil =>
    rw [like, List.isEmpty_iff]
    cases text <;> simp
  | cons ch pattern ih =>
    have hch := h ch List.mem_cons_self
    have hpattern : IsLiteral pattern := fun c hc => h c (List.mem_cons_of_mem _ hc)
    cases text with
    | nil =>
      have hnone : like (ch :: pattern) [] = false := by
        rw [like]
        exact hch.1
      simp [hnone]
    | cons ch' text =>
      rw [like_cons hch.1 hch.2, Bool.and_eq_true, decide_eq_true_eq, ih hpattern, List.map_cons,
        List.map_cons, List.cons.injEq]
end LikePattern
