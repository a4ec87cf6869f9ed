import Mathlib.RingTheory.AdjoinRoot
import Mathlib.Algebra.Field.ZMod

/-!
# Cyclic redundancy checks

The words of a check are the remainders of polynomials over the field of two elements, modulo a
generator of which the leading term is left out.
-/

namespace Crc
open Polynomial

def coefficient (b : Bool) : ZMod 2 := if b then 1 else 0

theorem coefficient_xor (a b : Bool) : coefficient (a ^^ b) = coefficient a + coefficient b := by
  cases a <;> cases b <;> rfl

theorem coefficient_injective : Function.Injective coefficient := by decide

variable {w : ℕ}

noncomputable def toPoly (x : BitVec w) : (ZMod 2)[X] :=
  ∑ i ∈ Finset.range w, C (coefficient (x.getLsbD i)) * X ^ i

theorem coeff_toPoly (x : BitVec w) (i : ℕ) :
    (toPoly x).coeff i = coefficient (x.getLsbD i) := by
  simp only [toPoly, finsetSum_coeff, coeff_C_mul_X_pow, Finset.sum_ite_eq, Finset.mem_range]
  split
  case isTrue => rfl
  case isFalse h =>
    rw [BitVec.getLsbD_of_ge x i (by omega)]
    rfl

theorem toPoly_injective : Function.Injective (toPoly (w := w)) := by
  intro x y h
  apply BitVec.eq_of_getLsbD_eq
  intro i _
  apply coefficient_injective
  rw [← coeff_toPoly, ← coeff_toPoly, h]

theorem toPoly_xor (x y : BitVec w) : toPoly (x ^^^ y) = toPoly x + toPoly y := by
  ext i
  rw [coeff_add, coeff_toPoly, coeff_toPoly, coeff_toPoly, BitVec.getLsbD_xor, coefficient_xor]

theorem degree_toPoly_lt (x : BitVec w) : (toPoly x).degree < w := by
  rw [degree_lt_iff_coeff_zero]
  intro i hi
  rw [coeff_toPoly, BitVec.getLsbD_of_ge x i hi]
  rfl

/-- A shift to the left, and what is shifted out. -/
theorem X_pow_mul_toPoly {k : ℕ} (hk : k ≤ w) (x : BitVec w) :
    X ^ k * toPoly x = toPoly (x <<< k) + X ^ w * toPoly (x >>> (w - k)) := by
  ext i
  rw [coeff_add, coeff_X_pow_mul', coeff_X_pow_mul', coeff_toPoly, coeff_toPoly, coeff_toPoly,
    BitVec.getLsbD_shiftLeft, BitVec.getLsbD_ushiftRight]
  by_cases hlow : i < k
  · rw [if_neg (by omega), if_neg (by omega)]
    simp [hlow, coefficient]
  · rw [if_pos (by omega)]
    by_cases hi : i < w
    · rw [if_neg (by omega)]
      simp [hlow, hi]
    · rw [if_pos (by omega), show w - k + (i - w) = i - k by omega]
      simp [hi, coefficient]

theorem toPoly_setWidth {v : ℕ} (x : BitVec w) (h : ∀ i, v ≤ i → x.getLsbD i = false) :
    toPoly (x.setWidth v) = toPoly x := by
  ext i
  rw [coeff_toPoly, coeff_toPoly, BitVec.getLsbD_setWidth]
  by_cases hi : i < v
  · simp [hi]
  · rw [h i (by omega)]
    simp [hi]

/-- The word has the terms below the leading one. -/
noncomputable def generator (g : BitVec w) : (ZMod 2)[X] := X ^ w + toPoly g

theorem degree_generator (g : BitVec w) : (generator g).degree = w := by
  have hlower : (toPoly g).degree < (X ^ w : (ZMod 2)[X]).degree := by
    rw [degree_X_pow]
    exact degree_toPoly_lt g
  rw [generator, degree_add_eq_left_of_degree_lt hlower, degree_X_pow]

noncomputable def residue (g : BitVec w) (x : BitVec w) : AdjoinRoot (generator g) :=
  AdjoinRoot.mk (generator g) (toPoly x)

theorem residue_injective (g : BitVec w) : Function.Injective (residue g) := by
  intro x y h
  have hdvd : generator g ∣ toPoly x - toPoly y := AdjoinRoot.mk_eq_mk.mp h
  have hdegree : (toPoly x - toPoly y).degree < (generator g).degree := by
    rw [degree_generator]
    exact (degree_sub_le _ _).trans_lt (max_lt (degree_toPoly_lt x) (degree_toPoly_lt y))
  have hzero := Polynomial.eq_zero_of_dvd_of_degree_lt hdvd hdegree
  exact toPoly_injective (sub_eq_zero.mp hzero)

theorem residue_xor (g x y : BitVec w) : residue g (x ^^^ y) = residue g x + residue g y := by
  rw [residue, toPoly_xor, map_add]
  rfl

/-- The leading term has the other terms as its remainder. -/
theorem root_pow_width (g : BitVec w) :
    AdjoinRoot.root (generator g) ^ w = residue g g := by
  have hzero : AdjoinRoot.mk (generator g) (X ^ w + toPoly g) = 0 := AdjoinRoot.mk_self
  rw [map_add, map_pow, AdjoinRoot.mk_X] at hzero
  rw [eq_neg_of_add_eq_zero_left hzero, ← map_neg, CharTwo.neg_eq]
  rfl

theorem root_pow_mul_residue (g : BitVec w) {k : ℕ} (hk : k ≤ w) (x : BitVec w) :
    AdjoinRoot.root (generator g) ^ k * residue g x =
      residue g (x <<< k) +
        AdjoinRoot.root (generator g) ^ w * AdjoinRoot.mk _ (toPoly (x >>> (w - k))) := by
  have hmul := congrArg (AdjoinRoot.mk (generator g)) (X_pow_mul_toPoly hk x)
  rw [map_mul, map_add, map_mul, map_pow, map_pow, AdjoinRoot.mk_X] at hmul
  exact hmul

/-- One place to the left, with the remainder of what is shifted out. -/
def shift (g x : BitVec w) : BitVec w := if x.msb then x <<< 1 ^^^ g else x <<< 1

def shifts (g : BitVec w) : ℕ → BitVec w → BitVec w
  | 0, x => x
  | n + 1, x => shifts g n (shift g x)

theorem residue_shift (hw : 0 < w) (g x : BitVec w) :
    residue g (shift g x) = AdjoinRoot.root (generator g) * residue g x := by
  have hmul := root_pow_mul_residue g (Nat.succ_le_of_lt hw) x
  have hout : toPoly (x >>> (w - 1)) = C (coefficient x.msb) := by
    ext i
    rw [coeff_toPoly, BitVec.getLsbD_ushiftRight, coeff_C, BitVec.msb_eq_getLsbD_last]
    by_cases hi : i = 0
    · simp [hi]
    · rw [if_neg hi, BitVec.getLsbD_of_ge x _ (by omega)]
      rfl
  rw [Nat.succ_eq_add_one, Nat.zero_add, pow_one, hout, root_pow_width] at hmul
  rw [hmul, shift]
  cases hmsb : x.msb
  · simp [coefficient]
  · simp [coefficient, residue_xor]

theorem residue_shifts (hw : 0 < w) (g : BitVec w) (n : ℕ) (x : BitVec w) :
    residue g (shifts g n x) = AdjoinRoot.root (generator g) ^ n * residue g x := by
  induction n generalizing x with
  | zero => rw [shifts, pow_zero, one_mul]
  | succ n ih => rw [shifts, ih, residue_shift hw, pow_succ, mul_assoc]

/-- A table with the remainder for each octet that is shifted out. -/
def IsTable (g : BitVec w) (table : BitVec 8 → BitVec w) : Prop :=
  ∀ octet, table octet = shifts g 8 (octet.setWidth w <<< (w - 8))

def update (table : BitVec 8 → BitVec w) (crc : BitVec w) (octet : BitVec 8) : BitVec w :=
  table ((crc >>> (w - 8)).setWidth 8 ^^^ octet) ^^^ crc <<< 8

def updates (table : BitVec 8 → BitVec w) (crc : BitVec w) (message : List (BitVec 8)) :
    BitVec w := message.foldl (update table) crc

/-- The first octet has the highest terms. -/
noncomputable def messagePoly : List (BitVec 8) → (ZMod 2)[X]
  | [] => 0
  | octet :: message => toPoly octet * X ^ (8 * message.length) + messagePoly message

section
variable {g : BitVec w} {table : BitVec 8 → BitVec w}

theorem residue_table (hw : 8 ≤ w) (h : IsTable g table) (octet : BitVec 8) :
    residue g (table octet) =
      AdjoinRoot.root (generator g) ^ w * AdjoinRoot.mk _ (toPoly octet) := by
  have hmul := root_pow_mul_residue g (Nat.sub_le w 8) (octet.setWidth w)
  have hwidth : toPoly (octet.setWidth w) = toPoly octet := by
    apply toPoly_setWidth
    intro i hi
    exact BitVec.getLsbD_of_ge octet i (by omega)
  have hout : toPoly (octet.setWidth w >>> (w - (w - 8))) = 0 := by
    ext i
    rw [coeff_toPoly, BitVec.getLsbD_ushiftRight, BitVec.getLsbD_setWidth,
      BitVec.getLsbD_of_ge octet _ (by omega), Bool.and_false]
    rfl
  rw [hout, map_zero, mul_zero, add_zero] at hmul
  rw [h octet, residue_shifts (by omega), ← hmul, ← mul_assoc, ← pow_add,
    show 8 + (w - 8) = w by omega, residue, hwidth]

theorem residue_update (hw : 8 ≤ w) (h : IsTable g table) (crc : BitVec w) (octet : BitVec 8) :
    residue g (update table crc octet) =
      AdjoinRoot.root (generator g) ^ 8 * residue g crc +
        AdjoinRoot.root (generator g) ^ w * AdjoinRoot.mk _ (toPoly octet) := by
  have htop : toPoly ((crc >>> (w - 8)).setWidth 8) = toPoly (crc >>> (w - 8)) := by
    apply toPoly_setWidth
    intro i hi
    rw [BitVec.getLsbD_ushiftRight]
    exact BitVec.getLsbD_of_ge crc _ (by omega)
  rw [update, residue_xor, residue_table hw h, toPoly_xor, htop, map_add,
    root_pow_mul_residue g hw crc]
  ring

/-- The remainder of a message behind what came before it. -/
theorem residue_updates (hw : 8 ≤ w) (h : IsTable g table) (message : List (BitVec 8))
    (crc : BitVec w) :
    residue g (updates table crc message) =
      AdjoinRoot.mk _ (X ^ (8 * message.length) * toPoly crc + X ^ w * messagePoly message) := by
  induction message generalizing crc with
  | nil => simp [updates, messagePoly, residue]
  | cons octet message ih =>
    have hupdate := residue_update hw h crc octet
    rw [updates, List.foldl_cons, ← updates, ih, map_add, map_mul, ← residue, hupdate,
      messagePoly, List.length_cons]
    simp only [residue, map_add, map_mul, map_pow, AdjoinRoot.mk_X]
    ring

/-- Two messages have the same check just when their remainders are the same. -/
theorem updates_eq_iff (hw : 8 ≤ w) (h : IsTable g table) (crc : BitVec w)
    (message message' : List (BitVec 8)) :
    updates table crc message = updates table crc message' ↔
      generator g ∣ (X ^ (8 * message.length) * toPoly crc + X ^ w * messagePoly message) -
        (X ^ (8 * message'.length) * toPoly crc + X ^ w * messagePoly message') := by
  rw [← (residue_injective g).eq_iff, residue_updates hw h, residue_updates hw h,
    AdjoinRoot.mk_eq_mk]
end
end Crc
