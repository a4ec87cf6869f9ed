import Mathlib.Data.List.Lex
import Mathlib.Data.UInt

/-!
# Attribute values

Each attribute has a format, and the values of a format are compared in a way of their own.
-/

namespace SecurityFramework.Filedb
/-- What is thrown. Not in the code is `undefined`, which stands for what is not defined. -/
inductive CssmError where
  | databaseCorrupt
  | invalidRecordUid
  | recordNotFound
  | invalidUniqueIndexData
  | missingValue
  | unsupportedQuery
  | invalidQuery
  | invalidFieldName
  | incompatibleFieldFormat
  | fieldSpecifiedMultiple
  | invalidValue
  | invalidModifyMode
  | undefined
  deriving DecidableEq

inductive DbOperator where
  | equal
  | notEqual
  | lessThan
  | greaterThan
  | contains
  | containsInitialSubstring
  | containsFinalSubstring
  deriving DecidableEq

inductive AttributeFormat where
  | string
  | sint32
  | uint32
  | bigNum
  | real
  | timeDate
  | blob
  | multiUInt32
  deriving DecidableEq

structure Double where
  bits : UInt64
  deriving DecidableEq

namespace Double
def magnitude (value : Double) : Nat := value.bits.toNat % 2 ^ 63

def isNaN (value : Double) : Bool := 0x7FF0000000000000 < value.magnitude

/-- The numbers are in the order of these. Both zeros have the same one. -/
def rank (value : Double) : Int :=
  if value.bits.toNat < 2 ^ 63 then value.magnitude else -value.magnitude
end Double

/-- A value as it is in a record. A big number has no high zero octets, and zero has no octets. -/
inductive DbValue where
  | string (data : List UInt8)
  | sint32 (value : Int32)
  | uint32 (value : UInt32)
  | bigNum (data : List UInt8)
  | real (value : Double)
  | timeDate (data : List UInt8)
  | blob (data : List UInt8)
  | multiUInt32 (values : List UInt32)
  deriving DecidableEq

def DbValue.format : DbValue → AttributeFormat
  | .string _ => .string
  | .sint32 _ => .sint32
  | .uint32 _ => .uint32
  | .bigNum _ => .bigNum
  | .real _ => .real
  | .timeDate _ => .timeDate
  | .blob _ => .blob
  | .multiUInt32 _ => .multiUInt32

/-- `memcmp` over the shorter of two pieces. -/
def memcmp : List UInt8 → List UInt8 → Ordering
  | a :: as, b :: bs => if a < b then .lt else if b < a then .gt else memcmp as bs
  | _, _ => .eq

def BasicValue.evaluate (equal lessThan greaterThan : Bool) : DbOperator → Except CssmError Bool
  | .equal => .ok equal
  | .notEqual => .ok !equal
  | .lessThan => .ok lessThan
  | .greaterThan => .ok greaterThan
  | _ => .error .unsupportedQuery

def Double.evaluate (a b : Double) : DbOperator → Except CssmError Bool :=
  let ordered := !a.isNaN && !b.isNaN
  BasicValue.evaluate (ordered && a.rank = b.rank) (ordered && decide (a.rank < b.rank))
    (ordered && decide (b.rank < a.rank))

/-- Strings are compared in the same way, as the comparator of `StringValue` is cut down to that of
`BlobValue` when it is passed on. -/
def BlobValue.evaluate (data1 data2 : List UInt8) : DbOperator → Except CssmError Bool
  | .containsInitialSubstring =>
    .ok (data1.length ≤ data2.length && memcmp data1 data2 = .eq)
  | .containsFinalSubstring =>
    .ok (data1.length ≤ data2.length &&
      memcmp data1 (data2.drop (data2.length - data1.length)) = .eq)
  | .equal => .ok (data1.length = data2.length && memcmp data1 data2 = .eq)
  | .notEqual => .ok (data1.length ≠ data2.length || memcmp data1 data2 ≠ .eq)
  | .lessThan =>
    .ok (memcmp data1 data2 = .lt ||
      (memcmp data1 data2 = .eq && decide (data1.length < data2.length)))
  | .greaterThan =>
    .ok (memcmp data1 data2 = .gt ||
      (memcmp data1 data2 = .eq && decide (data2.length < data1.length)))
  | .contains =>
    .ok (data1.length ≤ data2.length &&
      (List.range (data2.length - data1.length + 1)).any fun i =>
        memcmp data1 (data2.drop i) = .eq)

namespace BigNumValue
def signBit (data : List UInt8) : Bool :=
  match data with
  | [] => false
  | first :: _ => first &&& 0x80 ≠ 0

def magnitude : List UInt8 → List UInt8
  | [] => []
  | first :: rest => rest.reverse ++ [first &&& 0x7F]

/-- Of two numbers of the same length. The lowest octet is read even if there is none. -/
def compare (a b : List UInt8) : Except CssmError Ordering :=
  if a = [] then .error .undefined else .ok (memcmp (magnitude a) (magnitude b))

def evaluate (a b : List UInt8) : DbOperator → Except CssmError Bool
  | .equal => BlobValue.evaluate a b .equal
  | .notEqual => BlobValue.evaluate a b .notEqual
  | .lessThan =>
    if signBit a ≠ signBit b then .ok (signBit a)
    else if a.length ≠ b.length then
      .ok (if signBit a then decide (b.length < a.length) else decide (a.length < b.length))
    else (compare a b).map fun c => if signBit a then c = .gt else c = .lt
  | .greaterThan =>
    if signBit a ≠ signBit b then .ok (signBit b)
    else if a.length ≠ b.length then
      .ok (if signBit a then decide (a.length < b.length) else decide (b.length < a.length))
    else (compare a b).map fun c => if signBit a then c = .lt else c = .gt
  | _ => .error .unsupportedQuery
end BigNumValue

namespace MultiUInt32Value
def octets (values : List UInt32) : List UInt8 :=
  values.flatMap fun value : UInt32 =>
    [value.toUInt8, (value >>> 8).toUInt8, (value >>> 16).toUInt8, (value >>> 24).toUInt8]

def compare (a b : List UInt32) : Ordering := memcmp (octets a) (octets b)

def evaluate (a b : List UInt32) : DbOperator → Except CssmError Bool
  | .equal => .ok (a.length = b.length && compare a b = .eq)
  | .notEqual => .ok (a.length ≠ b.length || compare a b ≠ .eq)
  | .containsInitialSubstring => .ok (a.length ≤ b.length && compare a b = .eq)
  | .containsFinalSubstring =>
    .ok (a.length ≤ b.length && compare a (b.drop (b.length - a.length)) = .eq)
  | .contains =>
    -- the last place is not looked at
    .ok (a.length ≤ b.length && (a.length = 0 ||
      (List.range (b.length - a.length)).any fun i => compare a (b.drop i) = .eq))
  | .lessThan => .ok (a.length < b.length || (a.length = b.length && compare a b = .lt))
  | .greaterThan => .error .unsupportedQuery
end MultiUInt32Value

/-- `evaluate` of two values. The code casts the second one to the type of the first one. -/
def DbValue.evaluate : DbValue → DbValue → DbOperator → Except CssmError Bool
  | .string a, .string b, op => BlobValue.evaluate a b op
  | .sint32 a, .sint32 b, op => BasicValue.evaluate (a = b) (a < b) (b < a) op
  | .uint32 a, .uint32 b, op => BasicValue.evaluate (a = b) (a < b) (b < a) op
  | .bigNum a, .bigNum b, op => BigNumValue.evaluate a b op
  | .real a, .real b, op => Double.evaluate a b op
  | .timeDate a, .timeDate b, op => BlobValue.evaluate a b op
  | .blob a, .blob b, op => BlobValue.evaluate a b op
  | .multiUInt32 a, .multiUInt32 b, op => MultiUInt32Value.evaluate a b op
  | _, _, _ => .error .undefined

/-- A value that can be compared with any other of its format. -/
def DbValue.isOrdered : DbValue → Bool
  | .real value => !value.isNaN
  | .bigNum data => data ≠ []
  | _ => true

def octetValues (data : List UInt8) : List Int := data.map fun octet => (octet.toNat : Int)

def DbValue.sortKey : DbValue → List Int
  | .string data | .timeDate data | .blob data => octetValues data
  | .sint32 value => [value.toInt]
  | .uint32 value => [(value.toNat : Int)]
  | .bigNum data =>
    if BigNumValue.signBit data then
      0 :: -data.length :: (octetValues (BigNumValue.magnitude data)).map Neg.neg
    else 1 :: data.length :: octetValues (BigNumValue.magnitude data)
  | .real value => [value.rank]
  | .multiUInt32 values => values.length :: octetValues (MultiUInt32Value.octets values)

theorem octetValues_injective : Function.Injective octetValues := by
  apply List.map_injective_iff.mpr
  intro a b heq
  exact UInt8.toNat_inj.mp (Int.ofNat_inj.mp heq)

theorem memcmp_eq_lt_iff (a b : List UInt8) :
    (memcmp a b = .lt ∨ memcmp a b = .eq ∧ a.length < b.length) ↔
      octetValues a < octetValues b := by
  induction a generalizing b with
  | nil => cases b <;> simp [memcmp, octetValues]
  | cons a as ih =>
    cases b with
    | nil => simp [memcmp, octetValues]
    | cons b bs =>
      have hcons : octetValues (a :: as) < octetValues (b :: bs) ↔
          a < b ∨ a = b ∧ octetValues as < octetValues bs := by
        rw [octetValues, octetValues, List.map_cons, List.map_cons, List.cons_lt_cons_iff,
          Int.ofNat_lt, Int.ofNat_inj, UInt8.toNat_inj, ← UInt8.lt_iff_toNat_lt]
        rfl
      rw [hcons, ← ih bs, memcmp]
      split
      case isTrue hlt => simp [hlt]
      case isFalse hnlt =>
        split
        case isTrue hgt =>
          have hne : a ≠ b := by
            intro heq
            exact hnlt (heq ▸ hgt)
          simp [hnlt, hne]
        case isFalse hngt =>
          have heq : a = b := UInt8.le_antisymm (UInt8.not_lt.mp hngt) (UInt8.not_lt.mp hnlt)
          simp [heq]

theorem memcmp_swap (a b : List UInt8) : memcmp b a = (memcmp a b).swap := by
  induction a generalizing b with
  | nil => cases b <;> rfl
  | cons a as ih =>
    cases b with
    | nil => rfl
    | cons b bs =>
      rw [memcmp, memcmp, ih bs]
      split
      case isTrue hgt =>
        rw [if_neg (UInt8.lt_asymm hgt)]
        rfl
      case isFalse => split <;> rfl

theorem memcmp_lt_iff {a b : List UInt8} (hlength : a.length = b.length) :
    memcmp a b = .lt ↔ octetValues a < octetValues b := by
  rw [← memcmp_eq_lt_iff a b]
  simp [hlength]

theorem memcmp_gt_iff {a b : List UInt8} (hlength : a.length = b.length) :
    memcmp a b = .gt ↔ octetValues b < octetValues a := by
  rw [← memcmp_lt_iff hlength.symm, memcmp_swap a b]
  cases memcmp a b <;> decide

theorem memcmp_eq_iff {a b : List UInt8} (hlength : a.length = b.length) :
    memcmp a b = .eq ↔ a = b := by
  have hlt := memcmp_lt_iff hlength
  have hgt := memcmp_gt_iff hlength
  constructor
  · intro heq
    simp only [heq, reduceCtorEq, false_iff, not_lt] at hlt hgt
    exact octetValues_injective (le_antisymm hgt hlt)
  · intro heq
    rw [heq] at hlt hgt ⊢
    cases hcmp : memcmp b b with
    | lt => exact absurd (hlt.mp hcmp) (lt_irrefl _)
    | eq => rfl
    | gt => exact absurd (hgt.mp hcmp) (lt_irrefl _)

theorem map_neg_lt_map_neg_iff {a b : List Int} (hlength : a.length = b.length) :
    a.map Neg.neg < b.map Neg.neg ↔ b < a := by
  induction a generalizing b with
  | nil =>
    have hnil : b = [] := List.eq_nil_of_length_eq_zero hlength.symm
    simp [hnil]
  | cons a as ih =>
    cases b with
    | nil => simp at hlength
    | cons b bs =>
      rw [List.map_cons, List.map_cons, List.cons_lt_cons_iff, List.cons_lt_cons_iff,
        ih (by simpa using hlength), neg_lt_neg_iff, neg_inj, eq_comm]

theorem BlobValue.evaluate_lessThan (a b : List UInt8) :
    BlobValue.evaluate a b .lessThan = .ok (decide (octetValues a < octetValues b)) := by
  rw [BlobValue.evaluate]
  congr 1
  rw [Bool.eq_iff_iff, decide_eq_true_iff, ← memcmp_eq_lt_iff a b]
  simp

theorem BlobValue.evaluate_equal (a b : List UInt8) :
    BlobValue.evaluate a b .equal = .ok (decide (octetValues a = octetValues b)) := by
  rw [BlobValue.evaluate]
  congr 1
  rw [Bool.eq_iff_iff, decide_eq_true_iff, Bool.and_eq_true, decide_eq_true_iff,
    decide_eq_true_iff, octetValues_injective.eq_iff]
  constructor
  · intro h
    exact (memcmp_eq_iff h.1).mp h.2
  · intro h
    subst h
    exact ⟨rfl, (memcmp_eq_iff rfl).mpr rfl⟩

namespace BigNumValue
theorem length_magnitude (data : List UInt8) : (magnitude data).length = data.length := by
  cases data with
  | nil => rfl
  | cons first rest => simp [magnitude]

theorem first_eq {a b : UInt8} (hsign : a &&& 0x80 ≠ 0 ↔ b &&& 0x80 ≠ 0)
    (hrest : a &&& 0x7F = b &&& 0x7F) : a = b := by
  have htoNat : ∀ octet : UInt8, (octet &&& 0x7F).toNat = octet.toNat % 128 := by
    intro octet
    rw [UInt8.toNat_and]
    exact Nat.and_two_pow_sub_one_eq_mod octet.toNat 7
  have hbit : ∀ n < 256, (n &&& 128 ≠ 0 ↔ 128 ≤ n) := by decide +kernel
  have hhigh : ∀ octet : UInt8, octet &&& 0x80 ≠ 0 ↔ 128 ≤ octet.toNat := by
    intro octet
    rw [← hbit octet.toNat octet.toNat_lt, Ne, ← UInt8.toNat_inj, UInt8.toNat_and]
    rfl
  rw [hhigh, hhigh] at hsign
  have hmod := congrArg UInt8.toNat hrest
  rw [htoNat, htoNat] at hmod
  have ha := a.toNat_lt
  have hb := b.toNat_lt
  apply UInt8.toNat_inj.mp
  omega

variable {a : List UInt8}

theorem eq_of_magnitude_eq {b : List UInt8} (hsign : signBit a = signBit b)
    (hmagnitude : magnitude a = magnitude b) : a = b := by
  have hlength := congrArg List.length hmagnitude
  rw [length_magnitude, length_magnitude] at hlength
  cases a with
  | nil => exact (List.eq_nil_of_length_eq_zero hlength.symm).symm
  | cons a as =>
    cases b with
    | nil => simp at hlength
    | cons b bs =>
      rw [magnitude, magnitude] at hmagnitude
      obtain ⟨hrest, hfirst⟩ := List.append_inj' hmagnitude rfl
      rw [List.reverse_injective hrest,
        first_eq (by simpa [signBit, not_iff_not] using hsign) (List.cons.inj hfirst).1]

/-- Numbers are compared by the sign first, then by the length and the octets. -/
theorem sortKey_lt_iff (a b : List UInt8) :
    (DbValue.bigNum a).sortKey < (DbValue.bigNum b).sortKey ↔
      if signBit a ≠ signBit b then signBit a = true
      else if a.length ≠ b.length then
        if signBit a then b.length < a.length else a.length < b.length
      else if signBit a then memcmp (magnitude a) (magnitude b) = .gt
      else memcmp (magnitude a) (magnitude b) = .lt := by
  have hmagnitude : a.length = b.length → (magnitude a).length = (magnitude b).length := by
    rw [length_magnitude, length_magnitude]
    exact id
  rw [DbValue.sortKey, DbValue.sortKey]
  cases ha : signBit a <;> cases hb : signBit b
  case false.true => simp [List.cons_lt_cons_iff, -not_lt]
  case true.false => simp [List.cons_lt_cons_iff]
  case false.false =>
    by_cases hlength : a.length = b.length
    · simp [hlength, memcmp_lt_iff (hmagnitude hlength)]
    · simp [List.cons_lt_cons_iff, hlength]
  case true.true =>
    by_cases hlength : a.length = b.length
    · have hvalues : (octetValues (magnitude a)).length = (octetValues (magnitude b)).length := by
        simpa [octetValues] using hmagnitude hlength
      simp [hlength, memcmp_gt_iff (hmagnitude hlength),
        map_neg_lt_map_neg_iff hvalues]
    · have hne : (a.length : Int) ≠ b.length := by omega
      simp [List.cons_lt_cons_iff, hlength, hne]

theorem compare_eq (ha : a ≠ []) (b : List UInt8) :
    compare a b = .ok (memcmp (magnitude a) (magnitude b)) := if_neg ha

theorem evaluate_lessThan (ha : a ≠ []) (b : List UInt8) :
    evaluate a b .lessThan =
      .ok (decide ((DbValue.bigNum a).sortKey < (DbValue.bigNum b).sortKey)) := by
  simp only [sortKey_lt_iff, evaluate, compare_eq ha, Except.map]
  split
  · simp
  · split
    · split <;> simp_all
    · split <;> simp_all

theorem sortKey_injective {b : List UInt8}
    (hkey : (DbValue.bigNum a).sortKey = (DbValue.bigNum b).sortKey) : a = b := by
  rw [DbValue.sortKey, DbValue.sortKey] at hkey
  split at hkey <;> split at hkey
  case isTrue.isTrue ha hb =>
    have hvalues := (List.cons.inj (List.cons.inj hkey).2).2
    apply eq_of_magnitude_eq (ha.trans hb.symm)
    exact octetValues_injective (List.map_injective_iff.mpr neg_injective hvalues)
  case isTrue.isFalse => simp at hkey
  case isFalse.isTrue => simp at hkey
  case isFalse.isFalse ha hb =>
    have hvalues := (List.cons.inj (List.cons.inj hkey).2).2
    apply eq_of_magnitude_eq
    · rw [eq_false_of_ne_true ha, eq_false_of_ne_true hb]
    · exact octetValues_injective hvalues

theorem evaluate_equal (a b : List UInt8) :
    evaluate a b .equal =
      .ok (decide ((DbValue.bigNum a).sortKey = (DbValue.bigNum b).sortKey)) := by
  rw [evaluate, BlobValue.evaluate_equal]
  congr 1
  rw [decide_eq_decide, octetValues_injective.eq_iff]
  exact ⟨fun heq => by rw [heq], sortKey_injective⟩
end BigNumValue

namespace MultiUInt32Value
theorem length_octets (values : List UInt32) : (octets values).length = 4 * values.length := by
  induction values with
  | nil => rfl
  | cons value values ih =>
    rw [octets] at ih ⊢
    simp only [List.flatMap_cons, List.length_append, List.length_cons, List.length_nil, ih]
    omega

theorem length_octets_eq {a b : List UInt32} (hlength : a.length = b.length) :
    (octets a).length = (octets b).length := by
  rw [length_octets, length_octets, hlength]

theorem evaluate_lessThan (a b : List UInt32) :
    evaluate a b .lessThan =
      .ok (decide ((DbValue.multiUInt32 a).sortKey < (DbValue.multiUInt32 b).sortKey)) := by
  rw [evaluate, DbValue.sortKey, DbValue.sortKey]
  congr 1
  by_cases hlength : a.length = b.length
  · simp [hlength, compare, memcmp_lt_iff (length_octets_eq hlength)]
  · simp [List.cons_lt_cons_iff, hlength]

theorem evaluate_equal (a b : List UInt32) :
    evaluate a b .equal =
      .ok (decide ((DbValue.multiUInt32 a).sortKey = (DbValue.multiUInt32 b).sortKey)) := by
  rw [evaluate, DbValue.sortKey, DbValue.sortKey]
  congr 1
  by_cases hlength : a.length = b.length
  · simp [hlength, compare, memcmp_eq_iff (length_octets_eq hlength),
      octetValues_injective.eq_iff]
  · simp [hlength]
end MultiUInt32Value

namespace DbValue
end DbValue
end SecurityFramework.Filedb
