import SecurityFramework.Filedb.ComparisonReads

/-! # What comparisons mean -/

namespace SecurityFramework.Filedb
open Traced (Only Yields)
open Occurrence

theorem BlobValue.evaluate_notEqual (a b : List UInt8) :
    evaluate a b .notEqual = .ok (decide (octetValues a ≠ octetValues b)) := by
  have hequal := BlobValue.evaluate_equal a b
  rw [evaluate, Except.ok.injEq] at hequal
  rw [evaluate]
  congr 1
  simp only [ne_eq, decide_not, ← hequal, Bool.not_and]

theorem BlobValue.evaluate_contains (a b : List UInt8) :
    BlobValue.evaluate a b .contains = .ok (decide (a <:+: b)) := by
  rw [BlobValue.evaluate]
  congr 1
  rw [Bool.eq_iff_iff, Bool.and_eq_true, decide_eq_true_iff, decide_eq_true_iff]
  constructor
  · rintro ⟨hle, hany⟩
    exact (exists_start_iff_occurs hle).mp ((findsStart_memcmp.search (by omega)).mp hany)
  · intro hoccurs
    have hle := hoccurs.length_le
    exact ⟨hle, (findsStart_memcmp.search (by omega)).mpr ((exists_start_iff_occurs hle).mpr hoccurs)⟩

namespace BigNumValue
theorem evaluate_notEqual (a b : List UInt8) :
    evaluate a b .notEqual = .ok (decide
      ((DbValue.bigNum a).sortKey ≠ (DbValue.bigNum b).sortKey)) := by
  rw [evaluate, BlobValue.evaluate_notEqual]
  congr 1
  rw [decide_eq_decide, not_iff_not, octetValues_injective.eq_iff]
  exact ⟨fun heq => by rw [heq], sortKey_injective⟩

theorem evaluate_lessThan_of_ne {a b : List UInt8} (h : a ≠ [] ∨ b ≠ []) :
    evaluate a b .lessThan =
      .ok (decide ((DbValue.bigNum a).sortKey < (DbValue.bigNum b).sortKey)) := by
  by_cases ha : a = []
  · have hb : 0 < b.length := List.length_pos_of_ne_nil (h.resolve_left (not_not_intro ha))
    have hlength : ([] : List UInt8).length ≠ b.length := by
      rw [List.length_nil]
      omega
    have hnil : signBit [] = false := rfl
    subst ha
    simp only [sortKey_lt_iff, evaluate, hnil, Bool.false_eq_true, if_false, if_pos hlength]
    split <;> simp
  · exact evaluate_lessThan ha b
end BigNumValue

namespace MultiUInt32Value
theorem octets_injective : Function.Injective octets := by
  intro a b h
  induction a generalizing b with
  | nil =>
    cases b with
    | nil => rfl
    | cons value values => cases h
  | cons value values ih =>
    cases b with
    | nil => cases h
    | cons value' values' =>
      rw [octets_cons, octets_cons] at h
      obtain ⟨hfirst, hrest⟩ := List.append_inj h rfl
      simp only [List.cons.injEq, and_true] at hfirst
      obtain ⟨h0, h1, h2, h3⟩ := hfirst
      have hvalue : value = value' := by
        have h0 := congrArg UInt8.toNat h0
        have h1 := congrArg UInt8.toNat h1
        have h2 := congrArg UInt8.toNat h2
        have h3 := congrArg UInt8.toNat h3
        simp only [UInt32.toNat_toUInt8, UInt32.toNat_shiftRight, UInt32.reduceToNat,
          Nat.reduceMod, Nat.shiftRight_eq_div_pow] at h0 h1 h2 h3
        have hlt := value.toNat_lt
        have hlt' := value'.toNat_lt
        apply UInt32.toNat_inj.mp
        omega
      rw [hvalue, ih hrest]

theorem compare_eq_iff_start {a b : List UInt32} (h : a.length ≤ b.length) :
    compare a b = .eq ↔ a <+: b := by
  have hle : (octets a).length ≤ (octets b).length := by
    rw [length_octets, length_octets]
    omega
  rw [compare, memcmp_eq_iff_start hle]
  constructor
  · rintro ⟨rest, hrest⟩
    have hsplit : octets b = octets (b.take a.length) ++ octets (b.drop a.length) := by
      rw [octets, octets, octets, ← List.flatMap_append, List.take_append_drop]
    have hlength : (octets a).length = (octets (b.take a.length)).length := by
      rw [length_octets, length_octets, List.length_take, Nat.min_eq_left h]
    have hfirst := List.append_inj_left (hrest.trans hsplit) hlength
    rw [octets_injective hfirst]
    exact List.take_prefix _ _
  · rintro ⟨rest, rfl⟩
    exact ⟨octets rest, List.flatMap_append.symm⟩

theorem evaluate_notEqual (a b : List UInt32) :
    evaluate a b .notEqual = .ok (decide
      ((DbValue.multiUInt32 a).sortKey ≠ (DbValue.multiUInt32 b).sortKey)) := by
  have hequal := evaluate_equal a b
  rw [evaluate, Except.ok.injEq] at hequal
  rw [evaluate]
  congr 1
  simp only [ne_eq, decide_not, ← hequal, Bool.not_and]

theorem sortKey_injective {a b : List UInt32}
    (h : (DbValue.multiUInt32 a).sortKey = (DbValue.multiUInt32 b).sortKey) : a = b :=
  octets_injective (octetValues_injective (List.cons.inj h).2)

theorem findsStart_compare : FindsStart compare := fun _ _ => compare_eq_iff_start

theorem evaluate_contains (a b : List UInt32) :
    evaluate a b .contains = .ok (decide (a = [] ∨ a <:+: b.dropLast)) := by
  have hlast : b.dropLast.length = b.length - 1 := List.length_dropLast
  rw [evaluate]
  congr 1
  rw [Bool.eq_iff_iff, Bool.and_eq_true, Bool.or_eq_true, decide_eq_true_iff, decide_eq_true_iff,
    decide_eq_true_iff, List.length_eq_zero_iff]
  by_cases hnil : a = []
  · simp [hnil]
  have hpos := List.length_pos_of_ne_nil hnil
  rw [or_iff_right hnil, or_iff_right hnil]
  constructor
  · rintro ⟨hle, hany⟩
    obtain ⟨i, hi, hstart⟩ := (findsStart_compare.search (by omega)).mp hany
    apply (exists_start_iff_occurs (by omega)).mp
    refine ⟨i, by omega, ?_⟩
    rw [drop_dropLast, start_dropLast_iff (by rw [List.length_drop]; omega)]
    exact hstart
  · intro hoccurs
    have hle := hoccurs.length_le
    obtain ⟨i, hi, hstart⟩ := (exists_start_iff_occurs hle).mpr hoccurs
    refine ⟨by omega, (findsStart_compare.search (by omega)).mpr ⟨i, by omega, ?_⟩⟩
    rw [drop_dropLast, start_dropLast_iff (by rw [List.length_drop]; omega)] at hstart
    exact hstart
end MultiUInt32Value

/-- The formats whose values are compared by walking over them. -/
inductive WalkedFormat where
  | string
  | blob
  | bigNum
  | multiUInt32
  deriving DecidableEq

namespace WalkedFormat
/-- Lengths are 32-bit numbers, and that of a big number is an `int`. -/
def Value : WalkedFormat → Type
  | .string | .blob => {data : List UInt8 // data.length < 2 ^ 32}
  | .bigNum => {data : List UInt8 // data.length < 2 ^ 31}
  | .multiUInt32 => {values : List UInt32 // values.length < 2 ^ 32}

def Element : WalkedFormat → Type
  | .multiUInt32 => UInt32
  | _ => UInt8

def elements : (format : WalkedFormat) → format.Value → List format.Element
  | .string, value | .blob, value | .bigNum, value | .multiUInt32, value => value.val

def size : (format : WalkedFormat) → format.Value → Nat
  | .string, value | .blob, value | .bigNum, value => value.val.length
  | .multiUInt32, value => 4 * value.val.length

def evaluateAt : (format : WalkedFormat) → format.Value → format.Value → DbOperator → Evaluation
  | .string, a, b, op => StringValue.evaluateAt a.val b.val op
  | .blob, a, b, op => BlobValue.evaluateAt a.val b.val op
  | .bigNum, a, b, op => BigNumValue.evaluateAt a.val b.val op
  | .multiUInt32, a, b, op => MultiUInt32Value.evaluateAt a.val b.val op

/-- Of the numbers, not two without octets. -/
def Orderable (format : WalkedFormat) (a b : format.Value) : Prop :=
  format = .bigNum → format.elements a ≠ [] ∨ format.elements b ≠ []

def Less (format : WalkedFormat) (a b : format.Value) : Prop :=
  (format.evaluateAt a b .lessThan).value = some (.ok true)

def Equal (format : WalkedFormat) (a b : format.Value) : Prop :=
  (format.evaluateAt a b .equal).value = some (.ok true)

def searched (format : WalkedFormat) (value : format.Value) : List format.Element :=
  if format = .multiUInt32 then (format.elements value).dropLast else format.elements value
end WalkedFormat

def Says (evaluation : Evaluation) (p : Prop) : Prop :=
  ∃ answer, evaluation.value = some (.ok answer) ∧ (answer = true ↔ p)

structure Coherent (format : WalkedFormat) : Prop where
  equal : ∀ a b, Says (format.evaluateAt a b .equal) (format.elements a = format.elements b)
  notEqual : ∀ a b, Says (format.evaluateAt a b .notEqual) (¬ format.Equal a b)
  lessThan : ∀ a b, format.Orderable a b →
    ∃ less, (format.evaluateAt a b .lessThan).value = some (.ok less)
  irrefl : ∀ a, format.Orderable a a → ¬ format.Less a a
  trans : ∀ a b c, format.Less a b → format.Less b c → format.Less a c
  incomparable : ∀ a b, format.Orderable a b →
    (¬ format.Less a b ∧ ¬ format.Less b a ↔ format.Equal a b)
  initial : format ≠ .bigNum → ∀ a b, Says (format.evaluateAt a b .containsInitialSubstring)
    (format.elements a <+: format.elements b)
  final : format ≠ .bigNum → ∀ a b, Says (format.evaluateAt a b .containsFinalSubstring)
    (format.elements a <:+ format.elements b)
  contains : format ≠ .bigNum → ∀ a b, ∃ found,
    (format.evaluateAt a b .contains).value = some (.ok found) ∧
      (found = true → format.elements a <:+: format.elements b) ∧
      (format.elements a <:+: format.searched b → found = true)
  refused : format = .bigNum → ∀ a b,
    ∀ op ∈ [.contains, .containsInitialSubstring, .containsFinalSubstring],
      (format.evaluateAt a b op).value = some (.error .unsupportedQuery)
  within : ∀ a b op, (op = .lessThan ∨ op = .greaterThan → format.Orderable a b) →
    Only (ValueRead.Within (format.size a) (format.size b)) (format.evaluateAt a b op)

theorem says_of_value {evaluation : Evaluation} {p q : Prop} [Decidable p]
    (h : evaluation.value = some (.ok (decide p))) (hiff : p ↔ q) : Says evaluation q :=
  ⟨decide p, h, by rw [decide_eq_true_iff, hiff]⟩

structure SortedBy (format : WalkedFormat) (key : format.Value → List Int) : Prop where
  equal : ∀ a b, (format.evaluateAt a b .equal).value = some (.ok (decide (key a = key b)))
  notEqual : ∀ a b, (format.evaluateAt a b .notEqual).value = some (.ok (decide (key a ≠ key b)))
  less : ∀ a b, format.Orderable a b →
    (format.evaluateAt a b .lessThan).value = some (.ok (decide (key a < key b)))
  stopped : ∀ a b, ¬ format.Orderable a b →
    (format.evaluateAt a b .lessThan).value = none ∧ key a = key b

namespace SortedBy
variable {format : WalkedFormat} {key : format.Value → List Int} {a b c : format.Value}

theorem equal_iff (h : SortedBy format key) : format.Equal a b ↔ key a = key b := by
  rw [WalkedFormat.Equal, h.equal, Option.some.injEq, Except.ok.injEq, decide_eq_true_iff]

theorem less_iff (h : SortedBy format key) : format.Less a b ↔ key a < key b := by
  rw [WalkedFormat.Less]
  by_cases horderable : format.Orderable a b
  · rw [h.less a b horderable, Option.some.injEq, Except.ok.injEq, decide_eq_true_iff]
  · obtain ⟨hnone, hsame⟩ := h.stopped a b horderable
    rw [hnone, hsame]
    exact iff_of_false nofun (lt_irrefl _)

theorem incomparable (h : SortedBy format key) :
    ¬ format.Less a b ∧ ¬ format.Less b a ↔ format.Equal a b := by
  rw [h.less_iff, h.less_iff, h.equal_iff, not_lt, not_lt]
  exact ⟨fun hle => le_antisymm hle.2 hle.1, fun heq => ⟨heq.ge, heq.le⟩⟩

theorem coherent (h : SortedBy format key)
    (hkey : ∀ a b, key a = key b ↔ format.elements a = format.elements b)
    (hinitial : format ≠ .bigNum → ∀ a b, Says (format.evaluateAt a b .containsInitialSubstring)
      (format.elements a <+: format.elements b))
    (hfinal : format ≠ .bigNum → ∀ a b, Says (format.evaluateAt a b .containsFinalSubstring)
      (format.elements a <:+ format.elements b))
    (hcontains : format ≠ .bigNum → ∀ a b, ∃ found,
      (format.evaluateAt a b .contains).value = some (.ok found) ∧
        (found = true → format.elements a <:+: format.elements b) ∧
        (format.elements a <:+: format.searched b → found = true))
    (hrefused : format = .bigNum → ∀ a b,
      ∀ op ∈ [.contains, .containsInitialSubstring, .containsFinalSubstring],
        (format.evaluateAt a b op).value = some (.error .unsupportedQuery))
    (hwithin : ∀ a b op, (op = .lessThan ∨ op = .greaterThan → format.Orderable a b) →
      Only (ValueRead.Within (format.size a) (format.size b)) (format.evaluateAt a b op)) :
    Coherent format where
  equal a b := says_of_value (h.equal a b) (hkey a b)
  notEqual a b := says_of_value (h.notEqual a b) (not_congr h.equal_iff.symm)
  lessThan a b horderable := ⟨_, h.less a b horderable⟩
  irrefl a _ := by
    rw [h.less_iff]
    exact lt_irrefl _
  trans a b c hab hbc := by
    rw [h.less_iff] at hab hbc ⊢
    exact hab.trans hbc
  incomparable _ _ _ := h.incomparable
  initial := hinitial
  final := hfinal
  contains := hcontains
  refused := hrefused
  within := hwithin
end SortedBy

theorem sortedBy_string : SortedBy .string fun a => octetValues a.val where
  equal a b := by
    rw [← BlobValue.evaluate_equal]
    exact (BlobValue.evaluateAt_yields a.2 b.2 .equal).1
  notEqual a b := by
    rw [← BlobValue.evaluate_notEqual]
    exact (BlobValue.evaluateAt_yields a.2 b.2 .notEqual).1
  less a b _ := by
    rw [← BlobValue.evaluate_lessThan]
    exact (BlobValue.evaluateAt_yields a.2 b.2 .lessThan).1
  stopped a b h := absurd nofun h

theorem sortedBy_blob : SortedBy .blob fun a => octetValues a.val :=
  ⟨sortedBy_string.equal, sortedBy_string.notEqual, fun a b _ => sortedBy_string.less a b nofun,
    fun _ _ h => absurd nofun h⟩

theorem sortedBy_bigNum : SortedBy .bigNum fun a => (DbValue.bigNum a.val).sortKey where
  equal a b := by
    rw [← BigNumValue.evaluate_equal]
    have hop : DbOperator.equal = .lessThan ∨ DbOperator.equal = .greaterThan →
        a.val ≠ [] ∨ b.val ≠ [] := fun h => absurd h (by decide)
    exact (BigNumValue.evaluateAt_yields a.2 b.2 hop).1
  notEqual a b := by
    rw [← BigNumValue.evaluate_notEqual]
    have hop : DbOperator.notEqual = .lessThan ∨ DbOperator.notEqual = .greaterThan →
        a.val ≠ [] ∨ b.val ≠ [] := fun h => absurd h (by decide)
    exact (BigNumValue.evaluateAt_yields a.2 b.2 hop).1
  less a b h := by
    have hne : a.val ≠ [] ∨ b.val ≠ [] := h rfl
    rw [← BigNumValue.evaluate_lessThan_of_ne hne]
    exact (BigNumValue.evaluateAt_yields a.2 b.2 fun _ => hne).1
  stopped a b h := by
    have hnil : a.val = [] ∧ b.val = [] := by
      rw [WalkedFormat.Orderable, not_forall] at h
      obtain ⟨_, h⟩ := h
      exact ⟨not_not.mp fun ha => h (.inl ha), not_not.mp fun hb => h (.inr hb)⟩
    rw [hnil.1, hnil.2]
    refine ⟨?_, rfl⟩
    change (BigNumValue.evaluateAt a.val b.val .lessThan).value = none
    rw [hnil.1, hnil.2]
    rfl

theorem sortedBy_multiUInt32 :
    SortedBy .multiUInt32 fun a => (DbValue.multiUInt32 a.val).sortKey where
  equal a b := by
    rw [← MultiUInt32Value.evaluate_equal]
    exact (MultiUInt32Value.evaluateAt_yields a.val b.val .equal).1
  notEqual a b := by
    rw [← MultiUInt32Value.evaluate_notEqual]
    exact (MultiUInt32Value.evaluateAt_yields a.val b.val .notEqual).1
  less a b _ := by
    rw [← MultiUInt32Value.evaluate_lessThan]
    exact (MultiUInt32Value.evaluateAt_yields a.val b.val .lessThan).1
  stopped a b h := absurd nofun h

theorem coherent_string : Coherent .string := by
  apply sortedBy_string.coherent
  case hkey => exact fun _ _ => octetValues_injective.eq_iff
  case hinitial =>
    intro _ a b
    have hvalue := (BlobValue.evaluateAt_yields a.2 b.2 .containsInitialSubstring).1
    rw [BlobValue.evaluate, findsStart_memcmp.initial] at hvalue
    exact says_of_value hvalue Iff.rfl
  case hfinal =>
    intro _ a b
    have hvalue := (BlobValue.evaluateAt_yields a.2 b.2 .containsFinalSubstring).1
    rw [BlobValue.evaluate, findsStart_memcmp.final] at hvalue
    exact says_of_value hvalue Iff.rfl
  case hcontains =>
    intro _ a b
    have hvalue := (BlobValue.evaluateAt_yields a.2 b.2 .contains).1
    rw [BlobValue.evaluate_contains] at hvalue
    exact ⟨_, hvalue, of_decide_eq_true, fun h => decide_eq_true h⟩
  case hrefused =>
    intro h
    cases h
  case hwithin => exact fun a b op _ => (BlobValue.evaluateAt_yields a.2 b.2 op).2

theorem coherent_blob : Coherent .blob :=
  sortedBy_blob.coherent (fun _ _ => octetValues_injective.eq_iff)
    (fun _ => coherent_string.initial nofun) (fun _ => coherent_string.final nofun)
    (fun _ => coherent_string.contains nofun) nofun
    (fun a b op _ => coherent_string.within a b op fun _ => nofun)

theorem coherent_bigNum : Coherent .bigNum := by
  apply sortedBy_bigNum.coherent
  case hkey =>
    intro a b
    exact ⟨fun h => BigNumValue.sortKey_injective h, fun h => congrArg (DbValue.sortKey ∘ .bigNum) h⟩
  case hinitial => exact fun h => absurd rfl h
  case hfinal => exact fun h => absurd rfl h
  case hcontains => exact fun h => absurd rfl h
  case hrefused =>
    intro _ a b op hop
    have hunordered : op = .lessThan ∨ op = .greaterThan → a.val ≠ [] ∨ b.val ≠ [] := by
      rintro (rfl | rfl) <;> exact absurd hop (by decide)
    have hvalue := (BigNumValue.evaluateAt_yields a.2 b.2 hunordered).1
    simp only [List.mem_cons, List.not_mem_nil, or_false] at hop
    obtain rfl | rfl | rfl := hop <;> exact hvalue
  case hwithin => exact fun a b op h => (BigNumValue.evaluateAt_yields a.2 b.2 fun hop => h hop rfl).2

theorem coherent_multiUInt32 : Coherent .multiUInt32 := by
  apply sortedBy_multiUInt32.coherent
  case hkey =>
    intro a b
    exact ⟨fun h => MultiUInt32Value.sortKey_injective h,
      fun h => congrArg (DbValue.sortKey ∘ .multiUInt32) h⟩
  case hinitial =>
    intro _ a b
    have hvalue := (MultiUInt32Value.evaluateAt_yields a.val b.val .containsInitialSubstring).1
    rw [MultiUInt32Value.evaluate, MultiUInt32Value.findsStart_compare.initial] at hvalue
    exact says_of_value hvalue Iff.rfl
  case hfinal =>
    intro _ a b
    have hvalue := (MultiUInt32Value.evaluateAt_yields a.val b.val .containsFinalSubstring).1
    rw [MultiUInt32Value.evaluate, MultiUInt32Value.findsStart_compare.final] at hvalue
    exact says_of_value hvalue Iff.rfl
  case hcontains =>
    intro _ a b
    have hvalue := (MultiUInt32Value.evaluateAt_yields a.val b.val .contains).1
    rw [MultiUInt32Value.evaluate_contains] at hvalue
    refine ⟨_, hvalue, ?_, ?_⟩
    · intro hfound
      obtain hnil | hoccurs := of_decide_eq_true hfound
      · change a.val <:+: b.val
        rw [hnil]
        exact List.nil_infix
      · exact hoccurs.trans (List.dropLast_prefix _).isInfix
    · exact fun hoccurs => decide_eq_true (.inr hoccurs)
  case hrefused =>
    intro h
    cases h
  case hwithin =>
    intro a b op _
    have hwithin := (MultiUInt32Value.evaluateAt_yields a.val b.val op).2
    rw [MultiUInt32Value.length_octets, MultiUInt32Value.length_octets] at hwithin
    exact hwithin

theorem comparisons_coherent (format : WalkedFormat) : Coherent format := by
  cases format with
  | string => exact coherent_string
  | blob => exact coherent_blob
  | bigNum => exact coherent_bigNum
  | multiUInt32 => exact coherent_multiUInt32

/-- A number that contains another is not found, as numbers are not searched. -/
theorem bigNum_contains_refused :
    ∃ a b : WalkedFormat.bigNum.Value,
      WalkedFormat.bigNum.elements a <:+: WalkedFormat.bigNum.elements b ∧
        ¬ Says (WalkedFormat.bigNum.evaluateAt a b .contains)
          (WalkedFormat.bigNum.elements a <:+: WalkedFormat.bigNum.elements b) := by
  refine ⟨⟨[1], by decide⟩, ⟨[1], by decide⟩, List.infix_rfl, ?_⟩
  rintro ⟨answer, hvalue, _⟩
  cases hvalue
end SecurityFramework.Filedb
