import Mathlib.Algebra.Group.Int.Defs
import Mathlib.Algebra.Group.Nat.Defs
import Mathlib.Data.List.TakeWhile

/-! # Numbers in text -/

namespace CText
def isspace (c : Char) : Bool := c.toNat = 32 || (9 ≤ c.toNat && c.toNat ≤ 13)

/-- Whether the number is negative, its magnitude, and the text behind its digits. -/
def scanDecimal (text : List Char) : Option (Bool × Nat × List Char) :=
  let unspaced := text.dropWhile isspace
  let signed : Bool × List Char :=
    match unspaced with
    | '-' :: digits => (true, digits)
    | '+' :: digits => (false, digits)
    | digits => (false, digits)
  let digits := signed.2.takeWhile Char.isDigit
  if digits = [] then none
  else some (signed.1, Nat.ofDigitChars 10 digits 0, signed.2.dropWhile Char.isDigit)

/-- `strtoul` with base 10. Without a number the text is left as it is. -/
def strtoul (text : List Char) : Nat × List Char :=
  match scanDecimal text with
  | none => (0, text)
  | some (negative, magnitude, rest) =>
    if 2 ^ 64 ≤ magnitude then (2 ^ 64 - 1, rest)
    else if negative then ((2 ^ 64 - magnitude) % 2 ^ 64, rest)
    else (magnitude, rest)

/-- The value that `strtol` finds with base 10. Without a number it is zero. -/
def strtol (text : List Char) : Int :=
  match scanDecimal text with
  | none => 0
  | some (negative, magnitude, _) =>
    if negative then max (-(magnitude : Int)) (-2 ^ 63) else min (magnitude : Int) (2 ^ 63 - 1)

def snprintf (size : Nat) (text : List Char) : List Char := text.take (size - 1)

theorem length_snprintf_le (size : Nat) (text : List Char) :
    (snprintf size text).length ≤ text.length := by
  rw [snprintf, List.length_take]
  exact Nat.min_le_right _ _

theorem not_isspace_of_isDigit {c : Char} (hc : c.isDigit = true) : isspace c = false := by
  have hrange : 48 ≤ c.toNat ∧ c.toNat ≤ 57 := by
    simpa [Char.isDigit, UInt32.le_iff_toNat_le] using hc
  simp [isspace]
  omega

theorem scanDecimal_digits {digits rest : List Char} (hne : digits ≠ [])
    (hdigits : ∀ c ∈ digits, c.isDigit = true)
    (hrest : ∀ c ∈ rest.head?, c.isDigit = false) :
    scanDecimal (digits ++ rest) = some (false, Nat.ofDigitChars 10 digits 0, rest) := by
  obtain ⟨first, more, rfl⟩ := List.exists_cons_of_ne_nil hne
  have hfirst := hdigits first List.mem_cons_self
  have hrestTake : rest.takeWhile Char.isDigit = [] := by
    cases rest with
    | nil => rfl
    | cons c rest => simp [List.takeWhile_cons, hrest c (by simp)]
  have hrestDrop : rest.dropWhile Char.isDigit = rest := by
    cases rest with
    | nil => rfl
    | cons c rest => simp [List.dropWhile_cons, hrest c (by simp)]
  have hspaces : (first :: more ++ rest).dropWhile isspace = first :: more ++ rest := by
    simp [List.dropWhile_cons, not_isspace_of_isDigit hfirst]
  have htake : (first :: more ++ rest).takeWhile Char.isDigit = first :: more := by
    rw [List.takeWhile_append_of_pos hdigits, hrestTake, List.append_nil]
  have hdrop : (first :: more ++ rest).dropWhile Char.isDigit = rest := by
    rw [List.dropWhile_append_of_pos hdigits, hrestDrop]
  have hminus : first ≠ '-' := by
    intro heq
    rw [heq] at hfirst
    cases hfirst
  have hplus : first ≠ '+' := by
    intro heq
    rw [heq] at hfirst
    cases hfirst
  rw [scanDecimal, hspaces]
  simp only [List.cons_append] at htake hdrop ⊢
  split
  case h_1 heq => exact absurd (List.cons.inj heq).1 hminus
  case h_2 heq => exact absurd (List.cons.inj heq).1 hplus
  case h_3 => simp only [htake, hdrop, hne, if_false]

theorem isDigit_of_mem_decimal {n : Nat} {c : Char} (hc : c ∈ Nat.toDigits 10 n) :
    c.isDigit = true :=
  Nat.isDigit_of_mem_toDigits (by decide) (by decide) hc

theorem strtoul_decimal {n : Nat} (hn : n < 2 ^ 64) {rest : List Char}
    (hrest : ∀ c ∈ rest.head?, c.isDigit = false) :
    strtoul (Nat.toDigits 10 n ++ rest) = (n, rest) := by
  rw [strtoul, scanDecimal_digits Nat.toDigits_ne_nil (fun _ => isDigit_of_mem_decimal) hrest,
    Nat.ofDigitChars_ten_toDigits]
  simp only [Nat.not_le.mpr hn, if_false, Bool.false_eq_true]

theorem scanDecimal_minus {digits : List Char} (hne : digits ≠ [])
    (hdigits : ∀ c ∈ digits, c.isDigit = true) :
    scanDecimal ('-' :: digits) = some (true, Nat.ofDigitChars 10 digits 0, []) := by
  have hspaces : ('-' :: digits).dropWhile isspace = '-' :: digits := by
    simp [List.dropWhile_cons, isspace]
  have htake : digits.takeWhile Char.isDigit = digits := List.takeWhile_eq_self_iff.mpr hdigits
  have hdrop : digits.dropWhile Char.isDigit = [] := List.dropWhile_eq_nil_iff.mpr hdigits
  rw [scanDecimal, hspaces]
  simp only [htake, hdrop, hne, if_false]

theorem strtol_repr {value : Int} (hlow : -2 ^ 63 ≤ value) (hhigh : value < 2 ^ 63) :
    strtol value.repr.toList = value := by
  have hdigits (n : Nat) : ∀ c ∈ Nat.toDigits 10 n, c.isDigit = true :=
    fun _ => isDigit_of_mem_decimal
  rw [strtol, Int.repr_eq_if]
  by_cases hsign : 0 ≤ value
  · have hscan : scanDecimal (Nat.toDigits 10 value.toNat ++ []) =
        some (false, Nat.ofDigitChars 10 (Nat.toDigits 10 value.toNat) 0, []) :=
      scanDecimal_digits Nat.toDigits_ne_nil (hdigits value.toNat) (by simp)
    rw [List.append_nil] at hscan
    rw [if_pos hsign, Nat.toList_repr, hscan, Nat.ofDigitChars_ten_toDigits]
    simp only [Bool.false_eq_true, if_false]
    omega
  · have htext : ("-" ++ (-value).toNat.repr).toList = '-' :: Nat.toDigits 10 (-value).toNat := by
      rw [String.toList_append, Nat.toList_repr]
      rfl
    rw [if_neg hsign, htext, scanDecimal_minus Nat.toDigits_ne_nil (hdigits _),
      Nat.ofDigitChars_ten_toDigits]
    simp only [if_true]
    omega
end CText
