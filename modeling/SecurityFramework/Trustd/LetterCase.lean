import SecurityFramework.Trustd.NameConstraintsVerdict

/-! # Letter case -/

namespace SecurityFramework.Trustd
open DER

/-- The strings differ in the case of ASCII letters only. -/
def SameLetters (string other : CFString) : Prop := string.map lowercase = other.map lowercase

/-- What comparison without regard to case is documented to do. -/
structure StringComparison.CaseInsensitive (strings : StringComparison) : Prop where
  refl : ∀ string, strings.equal string string = true
  letters : ∀ string string' other other', SameLetters string string' → SameLetters other other' →
    strings.equal string other = strings.equal string' other'
  nil : ∀ string, strings.equal string [] = true → string = []
  /-- A period has no other case. -/
  period : ∀ string other, strings.equal string other = true →
    (string.head? = some dot ↔ other.head? = some dot)

def isUppercase (unit : UInt16) : Bool := decide (0x41 ≤ unit.toNat ∧ unit.toNat ≤ 0x5A)

def isLowercase (unit : UInt16) : Bool := decide (0x61 ≤ unit.toNat ∧ unit.toNat ≤ 0x7A)

def isLetter (unit : UInt16) : Bool := isUppercase unit || isLowercase unit

def swapcase (unit : UInt16) : UInt16 :=
  if isUppercase unit then unit + 0x20 else if isLowercase unit then unit - 0x20 else unit

theorem toNat_lowercase (unit : UInt16) :
    (lowercase unit).toNat = if isUppercase unit then unit.toNat + 32 else unit.toNat := by
  rw [lowercase, isUppercase]
  by_cases hupper : 0x41 ≤ unit.toNat ∧ unit.toNat ≤ 0x5A
  · rw [if_pos hupper, if_pos (decide_eq_true hupper), UInt16.toNat_add]
    change (unit.toNat + 32) % 2 ^ 16 = _
    omega
  · rw [if_neg hupper, if_neg (by simpa using hupper)]

theorem lowercase_eq_iff {unit : UInt16} {ch : UInt16} (hch : ch.toNat < 0x41) :
    lowercase unit = ch ↔ unit = ch := by
  rw [← UInt16.toNat_inj, ← UInt16.toNat_inj, toNat_lowercase]
  split_ifs with hupper
  · have hbounds := of_decide_eq_true hupper
    omega
  · exact Iff.rfl

theorem lowercase_of_not_letter {unit : UInt16} (h : isLetter unit = false) :
    ∀ unit', lowercase unit' = lowercase unit → unit' = unit := by
  intro unit' heq
  rw [isLetter, Bool.or_eq_false_iff] at h
  rw [← UInt16.toNat_inj, toNat_lowercase, toNat_lowercase, h.1, if_neg Bool.false_ne_true] at heq
  rw [← UInt16.toNat_inj]
  split_ifs at heq with hupper
  · have hbounds := of_decide_eq_true hupper
    have hlower := of_decide_eq_false h.2
    omega
  · exact heq

theorem swapcase_ne {unit : UInt16} (h : isLetter unit = true) : swapcase unit ≠ unit := by
  rw [swapcase, Ne, ← UInt16.toNat_inj]
  split_ifs with hupper hlower
  · have hbounds := of_decide_eq_true hupper
    rw [UInt16.toNat_add]
    change (unit.toNat + 32) % 2 ^ 16 ≠ _
    omega
  · have hbounds := of_decide_eq_true hlower
    rw [UInt16.toNat_sub_of_le _ _ (by rw [UInt16.le_iff_toNat_le]; change 32 ≤ _; omega)]
    change unit.toNat - 32 ≠ _
    omega
  · rw [isLetter, Bool.or_eq_true] at h
    exact absurd h (by simp [hupper, hlower])

theorem lowercase_swapcase (unit : UInt16) : lowercase (swapcase unit) = lowercase unit := by
  rw [← UInt16.toNat_inj, toNat_lowercase, toNat_lowercase, swapcase]
  by_cases hupper : isUppercase unit = true
  · have hbounds := of_decide_eq_true hupper
    have hsum : (unit + 0x20).toNat = unit.toNat + 32 := by
      rw [UInt16.toNat_add]
      change (unit.toNat + 32) % 2 ^ 16 = _
      omega
    have hnot : isUppercase (unit + 0x20) = false := by
      rw [isUppercase, hsum, decide_eq_false_iff_not]
      omega
    rw [if_pos hupper, if_pos hupper, hnot, hsum]
    rfl
  · rw [if_neg hupper]
    split_ifs with hlower hupper'
    · have hbounds := of_decide_eq_true hlower
      rw [UInt16.toNat_sub_of_le _ _ (by rw [UInt16.le_iff_toNat_le]; change 32 ≤ _; omega)]
      change unit.toNat - 32 + 32 = _
      omega
    · have hbounds := of_decide_eq_true hlower
      have hnot := hupper'
      rw [isUppercase, UInt16.toNat_sub_of_le _ _
        (by rw [UInt16.le_iff_toNat_le]; change 32 ≤ _; omega)] at hnot
      change ¬ decide (0x41 ≤ unit.toNat - 32 ∧ unit.toNat - 32 ≤ 0x5A) = true at hnot
      rw [decide_eq_true_iff] at hnot
      omega
    · rfl

namespace SameLetters
variable {string other : CFString}

theorem length_eq (h : SameLetters string other) : string.length = other.length := by
  have hlength := congrArg List.length h
  rwa [List.length_map, List.length_map] at hlength

theorem drop (h : SameLetters string other) (n : Nat) :
    SameLetters (string.drop n) (other.drop n) := by
  rw [SameLetters, List.map_drop, List.map_drop, h]

theorem take (h : SameLetters string other) (n : Nat) :
    SameLetters (string.take n) (other.take n) := by
  rw [SameLetters, List.map_take, List.map_take, h]

theorem idxOf?_eq (h : SameLetters string other) {ch : UInt16} (hch : ch.toNat < 0x41) :
    string.idxOf? ch = other.idxOf? ch := by
  have hmap : ∀ s : CFString, (s.map lowercase).idxOf? ch = s.idxOf? ch := by
    intro s
    have hch' : ∀ unit, (lowercase unit == ch) = (unit == ch) := fun unit => by
      rw [Bool.eq_iff_iff, beq_iff_eq, beq_iff_eq, lowercase_eq_iff hch]
    induction s with
    | nil => rfl
    | cons unit s ih => rw [List.map_cons, List.idxOf?_cons, List.idxOf?_cons, ih, hch']
  rw [← hmap string, ← hmap other, h]

theorem head?_iff (h : SameLetters string other) {ch : UInt16} (hch : ch.toNat < 0x41) :
    string.head? = some ch ↔ other.head? = some ch := by
  have hmap : ∀ s : CFString, (s.map lowercase).head? = some ch ↔ s.head? = some ch := by
    intro s
    rw [List.head?_map, Option.map_eq_some_iff]
    constructor
    · rintro ⟨unit, hunit, hlower⟩
      rw [hunit, (lowercase_eq_iff hch).mp hlower]
    · intro hunit
      exact ⟨ch, hunit, (lowercase_eq_iff hch).mpr rfl⟩
  rw [← hmap string, ← hmap other, h]

theorem nil_iff (h : SameLetters string other) : string = [] ↔ other = [] := by
  rw [← List.length_eq_zero_iff, ← List.length_eq_zero_iff, h.length_eq]

/-- Only letters have two cases. -/
theorem eq_of_no_letters (h : SameLetters string other)
    (hletters : ∀ unit ∈ other, isLetter unit = false) : string = other := by
  refine List.ext_getElem h.length_eq fun idx hidx hidx' => ?_
  refine lowercase_of_not_letter (hletters _ (List.getElem_mem hidx')) _ ?_
  have hget := congrArg (fun s => s[idx]?) h
  simpa [List.getElem?_map, hidx, hidx'] using hget
end SameLetters

theorem sameLetters_swapcase (string : CFString) : SameLetters (string.map swapcase) string := by
  rw [SameLetters, List.map_map]
  exact List.map_congr_left fun unit _ => lowercase_swapcase unit

theorem map_swapcase_ne {string : CFString} {unit : UInt16} (hunit : unit ∈ string)
    (hletter : isLetter unit = true) : string.map swapcase ≠ string := by
  intro heq
  rcases List.mem_iff_getElem.mp hunit with ⟨idx, hidx, rfl⟩
  have hget := congrArg (fun s => s[idx]?) heq
  simp only [List.getElem?_map, List.getElem?_eq_getElem hidx, Option.map_some,
    Option.some.injEq] at hget
  exact swapcase_ne hletter hget
end SecurityFramework.Trustd
