import SecurityFramework.Filedb.ValueComparison
import SecurityFramework.Library.Occurrence

/-! # Comparisons stay within the values -/

namespace SecurityFramework.Filedb
open Traced (Only Yields)

def ValueRead.Within (length1 length2 : Nat) (read : ValueRead) : Prop :=
  read.offset + read.len ≤ match read.operand with
    | .first => length1
    | .second => length2

theorem memcmpAt_yields {data1 data2 : List UInt8} (offset1 offset2 len : Nat)
    (h1 : offset1 + len ≤ data1.length) (h2 : offset2 + len ≤ data2.length) :
    Yields (ValueRead.Within data1.length data2.length)
      (memcmpAt data1 offset1 data2 offset2 len)
      (memcmp ((data1.drop offset1).take len) ((data2.drop offset2).take len)) := by
  have hread1 : ValueRead.Within data1.length data2.length ⟨.first, offset1, len⟩ := h1
  have hread2 : ValueRead.Within data1.length data2.length ⟨.second, offset2, len⟩ := h2
  rw [memcmpAt]
  apply Yields.bind (Traced.yields_emit hread1)
  apply Yields.bind (Traced.yields_emit hread2)
  rw [Memory.load, Memory.load, if_pos h1, if_pos h2]
  exact Traced.yields_pure _

theorem searchFrom_yields {P : ValueRead → Prop} {compare : Nat → Traced ValueRead Ordering}
    {result : Nat → Ordering} (places place : Nat)
    (h : ∀ i, i < place + places → Yields P (compare i) (result i)) :
    Yields P (searchFrom compare places place)
      ((List.range places).any fun i => result (place + i) = .eq) := by
  induction places generalizing place with
  | zero =>
    rw [searchFrom]
    exact Traced.yields_pure _
  | succ places ih =>
    rw [searchFrom, List.range_succ_eq_map, List.any_cons, List.any_map]
    apply Yields.bind (h place (by omega))
    have hrest := ih (place + 1) (fun i hi => h i (by omega))
    simp only [Nat.add_zero]
    by_cases heq : result place = .eq
    · rw [if_pos heq, decide_eq_true heq, Bool.true_or]
      exact Traced.yields_pure _
    · rw [if_neg heq, decide_eq_false heq, Bool.false_or]
      have hshift : ((fun i => decide (result (place + i) = .eq)) ∘ Nat.succ) =
          fun i => decide (result (place + 1 + i) = .eq) := by
        funext i
        rw [Function.comp_apply, Nat.add_assoc, Nat.add_comm 1 i]
      rw [hshift]
      exact hrest

theorem memcmp_take {a b : List UInt8} {n : Nat} (h : a.length ≤ n ∨ b.length ≤ n) :
    memcmp (a.take n) (b.take n) = memcmp a b := by
  induction a generalizing b n with
  | nil => simp [memcmp]
  | cons a as ih =>
    cases b with
    | nil => simp [memcmp]
    | cons b bs =>
      cases n with
      | zero => simp at h
      | succ n =>
        rw [List.take_succ_cons, List.take_succ_cons, memcmp, memcmp,
          ih (by simpa using h)]

theorem memcmp_eq_iff_start {a b : List UInt8} (h : a.length ≤ b.length) :
    memcmp a b = .eq ↔ a <+: b := by
  have hlength : a.length = (b.take a.length).length := by
    rw [List.length_take, Nat.min_eq_left h]
  rw [← memcmp_take (.inl le_rfl), List.take_length, memcmp_eq_iff hlength,
    List.prefix_iff_eq_take]

theorem findsStart_memcmp : Occurrence.FindsStart memcmp := fun _ _ => memcmp_eq_iff_start

namespace BlobValue
variable {a b : List UInt8}

theorem toUInt32_of_lt {n : Nat} (h : n < 2 ^ 32) : toUInt32 n = n := Nat.mod_eq_of_lt h

theorem equalAt_yields (offset length : Nat) (h1 : length ≤ a.length)
    (h2 : offset + length ≤ b.length) :
    Yields (ValueRead.Within a.length b.length) (equalAt a b offset length length)
      (.ok (memcmp (a.take length) ((b.drop offset).take length) = .eq)) := by
  rw [equalAt, if_neg (not_not_intro rfl)]
  split
  case isTrue hzero =>
    subst hzero
    exact Traced.yields_pure _
  case isFalse =>
    apply Yields.bind (memcmpAt_yields 0 offset length (by omega) h2)
    exact Traced.yields_pure _

theorem compareShorter_yields :
    Yields (ValueRead.Within a.length b.length) (compareShorter a b a.length b.length)
      (memcmp a b) := by
  rw [compareShorter]
  split
  case isTrue hzero =>
    obtain hnil | hnil : a = [] ∨ b = [] := by
      rw [← List.length_eq_zero_iff, ← List.length_eq_zero_iff]
      omega
    · rw [hnil]
      cases b <;> exact Traced.yields_pure _
    · rw [hnil]
      cases a <;> exact Traced.yields_pure _
  case isFalse =>
    have hcompare := memcmpAt_yields 0 0 (min a.length b.length)
      (by omega : 0 + min a.length b.length ≤ a.length)
      (by omega : 0 + min a.length b.length ≤ b.length)
    rw [List.drop_zero, List.drop_zero, memcmp_take (by omega)] at hcompare
    exact hcompare

theorem memcmp_take_drop (offset : Nat) :
    memcmp a ((b.drop offset).take a.length) = memcmp a (b.drop offset) := by
  have htake := memcmp_take (a := a) (b := b.drop offset) (n := a.length) (.inl le_rfl)
  rwa [List.take_length] at htake

theorem evaluateAt_yields (ha : a.length < 2 ^ 32) (hb : b.length < 2 ^ 32) (op : DbOperator) :
    Yields (ValueRead.Within a.length b.length) (evaluateAt a b op) (evaluate a b op) := by
  have hlength1 := toUInt32_of_lt ha
  have hlength2 := toUInt32_of_lt hb
  cases op with
  | containsInitialSubstring =>
    simp only [evaluateAt, evaluate, hlength1, hlength2]
    split
    case isTrue hlt =>
      rw [decide_eq_false (not_le.mpr hlt), Bool.false_and]
      exact Traced.yields_pure _
    case isFalse hle =>
      have hequal := equalAt_yields 0 a.length (le_refl a.length) (by omega : 0 + a.length ≤ b.length)
      rw [List.take_length, memcmp_take_drop, List.drop_zero] at hequal
      rw [decide_eq_true (not_lt.mp hle), Bool.true_and]
      exact hequal
  | containsFinalSubstring =>
    simp only [evaluateAt, evaluate, hlength1, hlength2]
    split
    case isTrue hlt =>
      rw [decide_eq_false (not_le.mpr hlt), Bool.false_and]
      exact Traced.yields_pure _
    case isFalse hle =>
      have hequal := equalAt_yields (b.length - a.length) a.length (le_refl a.length)
        (by omega : b.length - a.length + a.length ≤ b.length)
      rw [List.take_length, memcmp_take_drop] at hequal
      rw [decide_eq_true (not_lt.mp hle), Bool.true_and]
      exact hequal
  | equal =>
    simp only [evaluateAt, evaluate, hlength1, hlength2]
    by_cases hlength : a.length = b.length
    · have hequal := equalAt_yields 0 a.length (le_refl a.length) (by omega : 0 + a.length ≤ b.length)
      rw [List.take_length, memcmp_take_drop, List.drop_zero] at hequal
      have hsame : equalAt a b 0 a.length b.length = equalAt a b 0 a.length a.length := by
        simp only [hlength]
      rw [decide_eq_true hlength, Bool.true_and, hsame]
      exact hequal
    · rw [equalAt, if_pos hlength, decide_eq_false hlength, Bool.false_and]
      exact Traced.yields_pure _
  | notEqual =>
    simp only [evaluateAt, evaluate, hlength1, hlength2]
    by_cases hlength : a.length = b.length
    · rw [if_neg (not_not_intro hlength), decide_eq_false (not_not_intro hlength), Bool.false_or]
      split
      case isTrue hzero =>
        rw [List.eq_nil_of_length_eq_zero hzero]
        exact Traced.yields_pure _
      case isFalse =>
        have hcompare := memcmpAt_yields 0 0 a.length
          (by omega : 0 + a.length ≤ a.length) (by omega : 0 + a.length ≤ b.length)
        rw [List.drop_zero, List.take_length, memcmp_take_drop, List.drop_zero] at hcompare
        exact hcompare.bind (Traced.yields_pure _)
    · rw [if_pos hlength, decide_eq_true hlength, Bool.true_or]
      exact Traced.yields_pure _
  | lessThan =>
    simp only [evaluateAt, evaluate, hlength1, hlength2]
    apply compareShorter_yields.bind
    cases memcmp a b
    case lt => exact Traced.yields_pure _
    case gt => exact Traced.yields_pure _
    case eq =>
      by_cases hlt : a.length < b.length
      · simp [hlt, Traced.yields_pure]
      · by_cases hgt : b.length < a.length
        · simp [hlt, hgt, Traced.yields_pure]
        · simp [hlt, hgt, Traced.yields_pure]
  | greaterThan =>
    simp only [evaluateAt, evaluate, hlength1, hlength2]
    apply compareShorter_yields.bind
    cases memcmp a b
    case lt => exact Traced.yields_pure _
    case gt => exact Traced.yields_pure _
    case eq =>
      by_cases hlt : a.length < b.length
      · simp [hlt, Nat.not_lt_of_lt hlt, Traced.yields_pure]
      · by_cases hgt : b.length < a.length
        · simp [hlt, hgt, Traced.yields_pure]
        · simp [hlt, hgt, Traced.yields_pure]
  | contains =>
    simp only [evaluateAt, evaluate, hlength1, hlength2]
    split
    case isTrue hlt =>
      rw [decide_eq_false (not_le.mpr hlt), Bool.false_and]
      exact Traced.yields_pure _
    case isFalse hle =>
      rw [decide_eq_true (not_lt.mp hle), Bool.true_and]
      split
      case isTrue hzero =>
        have hstart : ∃ i < b.length - a.length + 1, a <+: b.drop i := by
          refine ⟨0, by omega, ?_⟩
          rw [List.eq_nil_of_length_eq_zero hzero]
          exact List.nil_prefix
        rw [(findsStart_memcmp.search (by omega)).mpr hstart]
        exact Traced.yields_pure _
      case isFalse =>
        have hsearch := @searchFrom_yields (ValueRead.Within a.length b.length)
          (fun place => memcmpAt a 0 b place a.length) (fun place => memcmp a (b.drop place))
          (b.length - a.length + 1) 0 (by
            intro i hi
            have hcompare := memcmpAt_yields 0 i a.length
              (by omega : 0 + a.length ≤ a.length) (by omega : i + a.length ≤ b.length)
            rwa [List.drop_zero, List.take_length, memcmp_take_drop] at hcompare)
        simp only [Nat.zero_add] at hsearch
        exact hsearch.bind (Traced.yields_pure _)
end BlobValue

namespace BigNumValue
variable {a b : List UInt8}

theorem octetAt_first_yields {i : Nat} (hi : i < a.length) :
    Yields (ValueRead.Within a.length b.length) (octetAt .first a i) a[i] := by
  have hread : ValueRead.Within a.length b.length ⟨.first, i, 1⟩ := hi
  rw [octetAt]
  apply Yields.bind (Traced.yields_emit hread)
  rw [List.getElem?_eq_getElem hi]
  exact Traced.yields_pure _

theorem octetAt_second_yields {i : Nat} (hi : i < b.length) :
    Yields (ValueRead.Within a.length b.length) (octetAt .second b i) b[i] := by
  have hread : ValueRead.Within a.length b.length ⟨.second, i, 1⟩ := hi
  rw [octetAt]
  apply Yields.bind (Traced.yields_emit hread)
  rw [List.getElem?_eq_getElem hi]
  exact Traced.yields_pure _

def orderOf (c : Int) : Ordering := if c < 0 then .lt else if 0 < c then .gt else .eq

theorem orderOf_eq_lt {c : Int} : orderOf c = .lt ↔ c < 0 := by
  rw [orderOf]
  split
  case isTrue h => simp [h]
  case isFalse h => split <;> simp [h]

theorem orderOf_eq_gt {c : Int} : orderOf c = .gt ↔ c > 0 := by
  rw [orderOf]
  split
  case isTrue h => simp [le_of_lt h]
  case isFalse h => split <;> simp_all

theorem orderOf_sub (x y : UInt8) :
    orderOf ((x.toNat : Int) - y.toNat) = if x < y then .lt else if y < x then .gt else .eq := by
  simp only [orderOf, UInt8.lt_iff_toNat_lt, Int.sub_pos, sub_neg, Int.ofNat_lt]

theorem magnitude_take_one (ha : 0 < a.length) :
    magnitude (a.take 1) = [a[0] &&& ~~~kSignBit] := by
  cases a with
  | nil => cases ha
  | cons first rest => rfl

theorem magnitude_take_succ {i : Nat} (hi : i + 1 < a.length) :
    magnitude (a.take (i + 2)) = a[i + 1] :: magnitude (a.take (i + 1)) := by
  cases a with
  | nil => cases hi
  | cons first rest =>
    have hrest : i < rest.length := Nat.lt_of_succ_lt_succ hi
    rw [List.take_succ_cons, List.take_succ_cons, magnitude, magnitude,
      List.take_succ_eq_append_getElem hrest, List.reverse_append, List.reverse_singleton]
    rfl

theorem compareFrom_yields {i : Nat} (hi : i < a.length) (hi' : i < b.length) :
    ∃ c, Yields (ValueRead.Within a.length b.length) (compareFrom a b i) c ∧
      orderOf c = memcmp (magnitude (a.take (i + 1))) (magnitude (b.take (i + 1))) := by
  induction i with
  | zero =>
    refine ⟨(a[0] &&& ~~~kSignBit).toNat - (b[0] &&& ~~~kSignBit).toNat, ?_, ?_⟩
    · rw [compareFrom]
      apply (octetAt_first_yields hi).bind
      apply (octetAt_second_yields hi').bind
      exact Traced.yields_pure _
    · have hnil : memcmp [] [] = .eq := rfl
      rw [orderOf_sub, magnitude_take_one hi, magnitude_take_one hi', memcmp, hnil]
  | succ i ih =>
    obtain ⟨c, hc, horder⟩ := ih (by omega) (by omega)
    by_cases hdiff : ((a[i + 1].toNat : Int) - b[i + 1].toNat) = 0
    · refine ⟨c, ?_, ?_⟩
      · rw [compareFrom]
        apply (octetAt_first_yields hi).bind
        apply (octetAt_second_yields hi').bind
        rw [if_neg (not_not_intro hdiff)]
        exact hc
      · have heq : a[i + 1] = b[i + 1] := UInt8.toNat_inj.mp (by omega)
        rw [magnitude_take_succ hi, magnitude_take_succ hi', memcmp, heq,
          if_neg (UInt8.lt_irrefl _), if_neg (UInt8.lt_irrefl _), horder]
    · refine ⟨(a[i + 1].toNat : Int) - b[i + 1].toNat, ?_, ?_⟩
      · rw [compareFrom]
        apply (octetAt_first_yields hi).bind
        apply (octetAt_second_yields hi').bind
        rw [if_pos hdiff]
        exact Traced.yields_pure _
      · rw [orderOf_sub, magnitude_take_succ hi, magnitude_take_succ hi', memcmp]
        split
        case isTrue => rfl
        case isFalse hle =>
          have hlt : b[i + 1] < a[i + 1] := by
            rw [UInt8.lt_iff_toNat_lt] at hle ⊢
            omega
          rw [if_pos hlt, if_pos hlt]

/-- Numbers of one length, not both without octets. -/
theorem compareAt_yields (hlength : a.length = b.length) (hpos : 0 < a.length)
    (ha : a.length < 2 ^ 31) :
    ∃ c, Yields (ValueRead.Within a.length b.length) (compareAt a b a.length) c ∧
      orderOf c = memcmp (magnitude a) (magnitude b) := by
  have hint : ((BitVec.ofNat 32 a.length).toInt - 1).toNat = a.length - 1 := by
    have hnat : (BitVec.ofNat 32 a.length).toNat = a.length :=
      Nat.mod_eq_of_lt (ha.trans (by decide))
    rw [BitVec.toInt_eq_toNat_of_lt (by rw [hnat]; omega), hnat]
    omega
  obtain ⟨c, hc, horder⟩ := compareFrom_yields (by omega : a.length - 1 < a.length)
    (by omega : a.length - 1 < b.length)
  rw [Nat.sub_add_cancel hpos, List.take_length, hlength, List.take_length] at horder
  refine ⟨c, ?_, horder⟩
  rw [compareAt, hint]
  exact hc

theorem signAt_first_yields :
    Yields (ValueRead.Within a.length b.length) (signAt .first a a.length) (signBit a) := by
  rw [signAt]
  split
  case isTrue hzero =>
    rw [List.eq_nil_of_length_eq_zero hzero]
    exact Traced.yields_pure _
  case isFalse hpos =>
    apply (octetAt_first_yields (Nat.pos_of_ne_zero hpos)).bind
    cases a with
    | nil => exact absurd rfl hpos
    | cons first rest => exact Traced.yields_pure _

theorem signAt_second_yields :
    Yields (ValueRead.Within a.length b.length) (signAt .second b b.length) (signBit b) := by
  rw [signAt]
  split
  case isTrue hzero =>
    rw [List.eq_nil_of_length_eq_zero hzero]
    exact Traced.yields_pure _
  case isFalse hpos =>
    apply (octetAt_second_yields (Nat.pos_of_ne_zero hpos)).bind
    cases b with
    | nil => exact absurd rfl hpos
    | cons first rest => exact Traced.yields_pure _

theorem ne_nil_of_same (hlength : a.length = b.length) (h : a ≠ [] ∨ b ≠ []) : a ≠ [] := by
  rintro rfl
  have hb : b = [] := List.eq_nil_of_length_eq_zero hlength.symm
  exact h.elim (fun hne => hne rfl) (fun hne => hne hb)

theorem evaluateAt_yields (ha : a.length < 2 ^ 31) (hb : b.length < 2 ^ 31) {op : DbOperator}
    (hop : op = .lessThan ∨ op = .greaterThan → a ≠ [] ∨ b ≠ []) :
    Yields (ValueRead.Within a.length b.length) (evaluateAt a b op) (evaluate a b op) := by
  have hlength1 : toUInt32 a.length = a.length := BlobValue.toUInt32_of_lt (by omega)
  have hlength2 : toUInt32 b.length = b.length := BlobValue.toUInt32_of_lt (by omega)
  unfold evaluateAt
  dsimp only
  rw [hlength1, hlength2]
  apply signAt_first_yields.bind
  apply signAt_second_yields.bind
  cases op with
  | equal => exact BlobValue.evaluateAt_yields (by omega) (by omega) .equal
  | notEqual => exact BlobValue.evaluateAt_yields (by omega) (by omega) .notEqual
  | contains | containsInitialSubstring | containsFinalSubstring => exact Traced.yields_pure _
  | lessThan =>
    dsimp only
    rw [evaluate]
    split
    case isTrue hsign => exact Traced.yields_pure _
    case isFalse hsign =>
      split
      case isTrue hlength => exact Traced.yields_pure _
      case isFalse hlength =>
        have hne := ne_nil_of_same (not_not.mp hlength) (hop (.inl rfl))
        obtain ⟨c, hc, horder⟩ := compareAt_yields (not_not.mp hlength)
          (List.length_pos_of_ne_nil hne) ha
        apply hc.bind
        rw [compare_eq hne, ← horder]
        simp only [Except.map, orderOf_eq_gt, orderOf_eq_lt]
        cases signBit a <;> exact Traced.yields_pure _
  | greaterThan =>
    dsimp only
    rw [evaluate]
    split
    case isTrue hsign => exact Traced.yields_pure _
    case isFalse hsign =>
      split
      case isTrue hlength => exact Traced.yields_pure _
      case isFalse hlength =>
        have hne := ne_nil_of_same (not_not.mp hlength) (hop (.inr rfl))
        obtain ⟨c, hc, horder⟩ := compareAt_yields (not_not.mp hlength)
          (List.length_pos_of_ne_nil hne) ha
        apply hc.bind
        rw [compare_eq hne, ← horder]
        simp only [Except.map, orderOf_eq_gt, orderOf_eq_lt]
        cases signBit a <;> exact Traced.yields_pure _
end BigNumValue

namespace MultiUInt32Value
variable {a b : List UInt32}

theorem octets_cons (value : UInt32) (values : List UInt32) :
    octets (value :: values) =
      [value.toUInt8, (value >>> 8).toUInt8, (value >>> 16).toUInt8, (value >>> 24).toUInt8] ++
        octets values := List.flatMap_cons

theorem octets_drop (values : List UInt32) (i : Nat) :
    octets (values.drop i) = (octets values).drop (4 * i) := by
  induction i generalizing values with
  | zero => rfl
  | succ i ih =>
    cases values with
    | nil => simp [octets]
    | cons value values =>
      rw [List.drop_succ_cons, ih, octets_cons, Nat.mul_succ, Nat.add_comm, ← List.drop_drop]
      rfl

theorem uint32cmp_yields {start : Nat} (h : start + a.length ≤ b.length) :
    Yields (ValueRead.Within (octets a).length (octets b).length)
      (uint32cmp a b start a.length) (compare a (b.drop start)) := by
  have ha := length_octets a
  have hb := length_octets b
  have hcompare := memcmpAt_yields 0 (4 * start) (4 * a.length)
    (by omega : 0 + 4 * a.length ≤ (octets a).length)
    (by omega : 4 * start + 4 * a.length ≤ (octets b).length)
  rw [List.drop_zero, ← octets_drop, memcmp_take (.inl (by omega))] at hcompare
  exact hcompare

theorem evaluateAt_yields (a b : List UInt32) (op : DbOperator) :
    Yields (ValueRead.Within (octets a).length (octets b).length) (evaluateAt a b op)
      (evaluate a b op) := by
  have hstart : a.length ≤ b.length → Yields
      (ValueRead.Within (octets a).length (octets b).length) (uint32cmp a b 0 a.length)
      (compare a b) := fun h => uint32cmp_yields (by omega : 0 + a.length ≤ b.length)
  cases op with
  | equal =>
    simp only [evaluateAt, evaluate]
    split
    case isTrue hlength =>
      rw [decide_eq_true hlength, Bool.true_and]
      exact (hstart hlength.le).bind (Traced.yields_pure _)
    case isFalse hlength =>
      rw [decide_eq_false hlength, Bool.false_and]
      exact Traced.yields_pure _
  | notEqual =>
    simp only [evaluateAt, evaluate]
    split
    case isTrue hlength =>
      rw [decide_eq_true hlength, Bool.true_or]
      exact Traced.yields_pure _
    case isFalse hlength =>
      rw [decide_eq_false hlength, Bool.false_or]
      exact (hstart (not_not.mp hlength).le).bind (Traced.yields_pure _)
  | containsInitialSubstring =>
    simp only [evaluateAt, evaluate]
    split
    case isTrue hle =>
      rw [decide_eq_true hle, Bool.true_and]
      exact (hstart hle).bind (Traced.yields_pure _)
    case isFalse hle =>
      rw [decide_eq_false hle, Bool.false_and]
      exact Traced.yields_pure _
  | containsFinalSubstring =>
    simp only [evaluateAt, evaluate]
    split
    case isTrue hle =>
      rw [decide_eq_true hle, Bool.true_and]
      exact (uint32cmp_yields (by omega)).bind (Traced.yields_pure _)
    case isFalse hle =>
      rw [decide_eq_false hle, Bool.false_and]
      exact Traced.yields_pure _
  | contains =>
    simp only [evaluateAt, evaluate]
    split
    case isTrue hle =>
      rw [decide_eq_true hle, Bool.true_and]
      split
      case isTrue hzero =>
        rw [decide_eq_true hzero, Bool.true_or]
        exact Traced.yields_pure _
      case isFalse hzero =>
        rw [decide_eq_false hzero, Bool.false_or]
        have hsearch := @searchFrom_yields
          (ValueRead.Within (octets a).length (octets b).length)
          (fun place => uint32cmp a b place a.length) (fun place => compare a (b.drop place))
          (b.length - a.length) 0 (fun i hi => uint32cmp_yields (by omega))
        simp only [Nat.zero_add] at hsearch
        exact hsearch.bind (Traced.yields_pure _)
    case isFalse hle =>
      rw [decide_eq_false hle, Bool.false_and]
      exact Traced.yields_pure _
  | lessThan =>
    simp only [evaluateAt, evaluate]
    split
    case isTrue hlt =>
      rw [decide_eq_true hlt, Bool.true_or]
      exact Traced.yields_pure _
    case isFalse hlt =>
      rw [decide_eq_false hlt, Bool.false_or]
      split
      case isTrue hlength =>
        rw [decide_eq_true hlength, Bool.true_and]
        exact (hstart hlength.le).bind (Traced.yields_pure _)
      case isFalse hlength =>
        rw [decide_eq_false hlength, Bool.false_and]
        exact Traced.yields_pure _
  | greaterThan => exact Traced.yields_pure _
end MultiUInt32Value
end SecurityFramework.Filedb
