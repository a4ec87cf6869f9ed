import Mathlib.Data.List.Lex

/-! # Octet string order -/

namespace ByteOrder
/-- Difference of the first two octets that differ, and zero where none does. -/
def memcmp : List UInt8 → List UInt8 → Int
  | a :: as, b :: bs => if a = b then memcmp as bs else (a.toNat : Int) - b.toNat
  | _, _ => 0

def octets (bytes : List UInt8) : List Nat := bytes.map UInt8.toNat

theorem octets_injective : Function.Injective octets :=
  List.map_injective_iff.mpr fun _ _ h => UInt8.toNat_inj.mp h

private theorem octet_sub_ne_zero {a b : UInt8} (hab : a ≠ b) :
    (a.toNat : Int) - b.toNat ≠ 0 := by
  have hnat : a.toNat ≠ b.toNat := fun h => hab (UInt8.toNat_inj.mp h)
  omega

theorem memcmp_eq_zero_iff (as bs : List UInt8) (hlen : as.length = bs.length) :
    memcmp as bs = 0 ↔ as = bs := by
  induction as generalizing bs with
  | nil =>
    have hbs : bs = [] := List.length_eq_zero_iff.mp hlen.symm
    subst hbs
    simp [memcmp]
  | cons a as ih =>
    cases bs with
    | nil => simp at hlen
    | cons b bs =>
      by_cases hab : a = b
      · simp [memcmp, hab, ih bs (by simpa using hlen)]
      · simp [memcmp, hab, octet_sub_ne_zero hab]

theorem memcmp_neg_iff (as bs : List UInt8) (hlen : as.length = bs.length) :
    memcmp as bs < 0 ↔ octets as < octets bs := by
  induction as generalizing bs with
  | nil =>
    have hbs : bs = [] := List.length_eq_zero_iff.mp hlen.symm
    subst hbs
    simp [memcmp, octets]
  | cons a as ih =>
    cases bs with
    | nil => simp at hlen
    | cons b bs =>
      have htail := ih bs (by simpa using hlen)
      by_cases hab : a = b
      · subst hab
        simpa [memcmp, octets, List.cons_lt_cons_iff] using htail
      · have hnat : a.toNat ≠ b.toNat := fun h => hab (UInt8.toNat_inj.mp h)
        simp only [memcmp, hab, if_false, octets, List.map_cons, List.cons_lt_cons_iff, hnat,
          false_and, or_false]
        omega

/-- Comparing as far as both reach, and then the lengths, decides the lexicographic order. -/
theorem memcmp_take_pos_iff (as bs : List UInt8) :
    (memcmp (as.take (min as.length bs.length)) (bs.take (min as.length bs.length)) > 0 ∨
      (memcmp (as.take (min as.length bs.length)) (bs.take (min as.length bs.length)) = 0 ∧
        as.length > bs.length)) ↔ octets bs < octets as := by
  induction as generalizing bs with
  | nil => simp [memcmp, octets]
  | cons a as ih =>
    cases bs with
    | nil => simp [memcmp, octets]
    | cons b bs =>
      have htail := ih bs
      have hmin : min (a :: as).length (b :: bs).length = min as.length bs.length + 1 := by
        simp only [List.length_cons]
        omega
      rw [hmin]
      simp only [List.take_succ_cons, memcmp, octets, List.map_cons, List.cons_lt_cons_iff,
        List.length_cons]
      by_cases hab : a = b
      · subst hab
        simpa [octets] using htail
      · have hnat : a.toNat ≠ b.toNat := fun h => hab (UInt8.toNat_inj.mp h)
        have hnat' : b.toNat ≠ a.toNat := hnat.symm
        simp only [hab, if_false, hnat', false_and, or_false]
        omega
end ByteOrder
