import SecurityFramework.Library.SortedSet
import SecurityFramework.Sec.SecCbor

/-! # Canonical form of written CBOR -/

namespace SecurityFramework
namespace SecCborValue
variable {order : StringOrder}

def Distinguished : SecCborValue → SecCborValue → Prop
  | unsigned a, unsigned b => a ≠ b
  | negative a, negative b => a ≠ b
  | string a, string b => a ≠ b
  | key₁, key₂ => key₁.fieldType ≠ key₂.fieldType

variable {key₁ key₂ value : SecCborValue}

theorem Distinguished.symm (hkeys : key₁.Distinguished key₂) :
    key₂.Distinguished key₁ := by
  cases key₁ <;> cases key₂ <;> simpa [Distinguished, eq_comm, fieldType] using hkeys

theorem keyLt_unsigned {a b : UInt64} (hlt : a < b) :
    Cbor.KeyLt (item order (unsigned a)) (item order (unsigned b)) := by
  rw [UInt64.lt_iff_toNat_lt] at hlt
  rw [item, item]
  exact .unsigned b.toNat_lt hlt

theorem keyLt_negative {a b : Int64} (ha : a < 0) (hlt : b < a) :
    Cbor.KeyLt (item order (negative a)) (item order (negative b)) := by
  have hb : b < 0 := Int64.lt_trans hlt ha
  have hnat : (-(a.toInt + 1)).toNat < (-(b.toInt + 1)).toNat := by
    rw [Int64.lt_iff_toInt_lt] at hlt hb
    have hzero : (0 : Int64).toInt = 0 := rfl
    rw [Int64.lt_iff_toInt_lt, hzero] at ha
    rw [hzero] at hb
    clear * - hlt ha hb
    omega
  rw [item, item]
  exact .negative (toNat_neg_succ hb).2 hnat

theorem utf8_ascii {s : List Char} (hs : IsAscii s) :
    Cbor.utf8 s = s.map fun c => c.val.toUInt8 := by
  induction s with
  | nil => rfl
  | cons c s ih =>
    obtain ⟨hc, hs⟩ := List.forall_mem_cons.mp hs
    have hsize : c.utf8Size = 1 := by
      have hplane : c.val < 0x10000 := UInt32.lt_trans hc (by decide)
      rw [← (utf16Size_le_utf8Size c).2.mpr hc, if_pos hplane]
    rw [Cbor.utf8, List.flatMap_cons, String.utf8EncodeChar_eq_singleton hsize, List.map_cons]
    exact congrArg _ (ih hs)

theorem utf8_lt {s t : List Char} (hs : IsAscii s) (ht : IsAscii t) (hlt : s < t) :
    Cbor.utf8 s < Cbor.utf8 t := by
  rw [utf8_ascii hs, utf8_ascii ht]
  induction s generalizing t with
  | nil =>
    cases t with
    | nil => exact absurd hlt (List.lt_irrefl _)
    | cons d t => exact List.nil_lt_cons _ _
  | cons c s ih =>
    cases t with
    | nil => exact absurd hlt (List.not_lt_nil _)
    | cons d t =>
      obtain ⟨hc, hs⟩ := List.forall_mem_cons.mp hs
      obtain ⟨hd, ht⟩ := List.forall_mem_cons.mp ht
      rw [List.map_cons, List.map_cons, List.cons_lt_cons_iff]
      cases List.cons_lt_cons_iff.mp hlt with
      | inl hcd =>
        left
        rw [UInt32.lt_iff_toNat_lt] at hc hd
        have hcd : c.val.toNat < d.val.toNat := UInt32.lt_iff_toNat_lt.mp hcd
        rw [UInt8.lt_iff_toNat_lt, UInt32.toNat_toUInt8, UInt32.toNat_toUInt8]
        have hc : c.val.toNat < 128 := hc
        have hd : d.val.toNat < 128 := hd
        omega
      | inr hrest => exact Or.inr ⟨by rw [hrest.1], ih hs ht hrest.2⟩

theorem compareKeys_of_lt (hlt : key₁.fieldType < key₂.fieldType) :
    compareKeys order key₁ key₂ = .lt := by
  unfold compareKeys
  rw [if_pos hlt]

theorem compareKeys_of_gt (hgt : key₂.fieldType < key₁.fieldType) :
    compareKeys order key₁ key₂ = .gt := by
  unfold compareKeys
  rw [if_neg hgt.not_gt, if_pos hgt]

def Decides (order : StringOrder) (key₁ key₂ : SecCborValue) : Prop :=
  compareKeys order key₁ key₂ = .lt ∧ Cbor.KeyLt (item order key₁) (item order key₂) ∨
    compareKeys order key₁ key₂ = .gt ∧ Cbor.KeyLt (item order key₂) (item order key₁)

theorem decides_unsigned {a b : UInt64} (hne : a ≠ b) :
    Decides order (unsigned a) (unsigned b) := by
  have hcompare : compareKeys order (unsigned a) (unsigned b) = compareUnsigned a b := by
    simp [compareKeys, fieldType]
  rw [Decides, hcompare, compareUnsigned]
  by_cases hlt : a < b
  · exact Or.inl ⟨if_pos hlt, keyLt_unsigned hlt⟩
  · have hgt : b < a := by
      rw [UInt64.lt_iff_toNat_lt] at hlt ⊢
      have hne : a.toNat ≠ b.toNat := fun heq => hne (UInt64.toNat_inj.mp heq)
      omega
    right
    rw [if_neg hlt, if_pos hgt]
    exact ⟨rfl, keyLt_unsigned hgt⟩

theorem decides_negative {a b : Int64} (ha : a < 0) (hb : b < 0) (hne : a ≠ b) :
    Decides order (negative a) (negative b) := by
  have hcompare : compareKeys order (negative a) (negative b) = compareNegative a b := by
    simp [compareKeys, fieldType]
  rw [Decides, hcompare, compareNegative]
  by_cases hlt : b < a
  · exact Or.inl ⟨if_pos hlt, keyLt_negative ha hlt⟩
  · have hgt : a < b := Int64.lt_of_le_of_ne (Int64.not_lt.mp hlt) hne
    right
    rw [if_neg hlt, if_pos hgt]
    exact ⟨rfl, keyLt_negative hb hgt⟩

theorem decides_string {s t : List Char} (hs : IsAscii s) (ht : IsAscii t)
    (hlengths : (Cbor.utf8 s).length < 2 ^ 64) (hlengtht : (Cbor.utf8 t).length < 2 ^ 64)
    (hne : s ≠ t) : Decides order (string s) (string t) := by
  have hcompare : compareKeys order (string s) (string t) = compareString order s t := by
    simp [compareKeys, fieldType]
  rw [Decides, hcompare, compareString, (utf16Length_eq_iff s).2.mpr hs,
    (utf16Length_eq_iff t).2.mpr ht, order.compare_ascii s t hs ht, item, item]
  cases Nat.lt_trichotomy (Cbor.utf8 s).length (Cbor.utf8 t).length with
  | inl hlt => exact Or.inl ⟨if_pos hlt, .text hlengtht (Or.inl hlt)⟩
  | inr hge =>
    cases hge with
    | inr hgt =>
      right
      rw [if_neg hgt.not_gt, if_pos hgt]
      exact ⟨rfl, .text hlengths (Or.inl hgt)⟩
    | inl heq =>
      rw [heq, if_neg (lt_irrefl _), if_neg (lt_irrefl _)]
      by_cases hlt : s < t
      · exact Or.inl ⟨if_pos hlt, .text hlengtht (Or.inr ⟨heq, utf8_lt hs ht hlt⟩)⟩
      · have hgt : t < s := by
          by_contra hgt
          exact hne (List.le_antisymm hgt hlt)
        right
        rw [if_neg hlt, if_pos hgt]
        exact ⟨rfl, .text hlengths (Or.inr ⟨heq.symm, utf8_lt ht hs hgt⟩)⟩

theorem Distinguished.decides (hkeys : key₁.Distinguished key₂) (hvalid₁ : key₁.Valid)
    (hvalid₂ : key₂.Valid) (hascii₁ : key₁.AllAscii) (hascii₂ : key₂.AllAscii) :
    Decides order key₁ key₂ := by
  cases Nat.lt_trichotomy key₁.fieldType key₂.fieldType with
  | inl hlt =>
    left
    refine ⟨compareKeys_of_lt hlt, Or.inl ?_⟩
    rwa [major_item, major_item]
  | inr hge =>
    cases hge with
    | inr hgt =>
      right
      refine ⟨compareKeys_of_gt hgt, Or.inl ?_⟩
      rwa [major_item, major_item]
    | inl heq =>
      cases key₁ <;> cases key₂ <;> first | cases heq; done | skip
      case unsigned.unsigned => exact decides_unsigned hkeys
      case negative.negative =>
        cases hvalid₁ with
        | negative ha =>
          cases hvalid₂ with
          | negative hb => exact decides_negative ha hb hkeys
      case string.string =>
        cases hvalid₁ with
        | string hlengths =>
          cases hvalid₂ with
          | string hlengtht =>
            cases hascii₁ with
            | string hs =>
              cases hascii₂ with
              | string ht => exact decides_string hs ht hlengths hlengtht hkeys
      all_goals exact absurd rfl hkeys

/-- In each map of the tree the keys are told apart. -/
inductive KeysDistinguished : SecCborValue → Prop
  | unsigned (m_data : UInt64) : KeysDistinguished (.unsigned m_data)
  | negative (m_data : Int64) : KeysDistinguished (.negative m_data)
  | string (m_data : List Char) : KeysDistinguished (.string m_data)
  | data (m_data : List UInt8) : KeysDistinguished (.data m_data)
  | array {m_data : List SecCborValue} (hitems : ∀ item ∈ m_data, KeysDistinguished item) :
    KeysDistinguished (.array m_data)
  | map {m_data : List (SecCborValue × SecCborValue)}
    (hkeys : ∀ entry ∈ m_data, KeysDistinguished entry.1)
    (hvalues : ∀ entry ∈ m_data, KeysDistinguished entry.2)
    (hdistinguished : m_data.Pairwise fun a b => a.1.Distinguished b.1) :
    KeysDistinguished (.map m_data)

theorem KeysDistinguished.canonical (hkeys : value.KeysDistinguished) (hvalue : value.Valid)
    (hascii : value.AllAscii) : (item order value).Canonical := by
  induction hkeys with
  | unsigned m_data => exact .unsigned _
  | negative m_data => exact .negative _
  | string m_data => exact .text _
  | data m_data => exact .bytes _
  | array _ ih =>
    cases hvalue with
    | array _ hitems =>
      cases hascii with
      | array hascii =>
        rw [item, items_eq]
        apply Cbor.Item.Canonical.array
        intro item hitem
        obtain ⟨value, hmem, rfl⟩ := List.mem_map.mp hitem
        exact ih value hmem (hitems value hmem) (hascii value hmem)
  | @map entries _ _ hdistinguished ihkeys ihvalues =>
    cases hvalue with
    | map _ hkeys hvalues =>
      cases hascii with
      | map hasciiKeys hasciiValues =>
        have hperm := perm_getSortedKeys order entries
        rw [item_map]
        apply Cbor.Item.Canonical.map
        · intro entry hentry
          obtain ⟨value, hvalue, rfl⟩ := List.mem_map.mp hentry
          have hmem := hperm.mem_iff.mp hvalue
          exact ihkeys value hmem (hkeys value hmem) (hasciiKeys value hmem)
        · intro entry hentry
          obtain ⟨value, hvalue, rfl⟩ := List.mem_map.mp hentry
          have hmem := hperm.mem_iff.mp hvalue
          exact ihvalues value hmem (hvalues value hmem) (hasciiValues value hmem)
        · rw [List.pairwise_map]
          apply List.pairwise_insertionSort_of_decides fun _ _ _ hab hbc => hab.trans hbc
          apply hdistinguished.imp_of_mem
          intro a b ha hb hab
          have hdecides : Decides order a.1 b.1 :=
            hab.decides (hkeys a ha) (hkeys b hb) (hasciiKeys a ha) (hasciiKeys b hb)
          cases hdecides with
          | inl hlt => exact ⟨fun _ => hlt.2, fun hgt => absurd (by rw [hlt.1]; decide) hgt⟩
          | inr hgt => exact ⟨fun hne => absurd hgt.1 hne, fun _ => hgt.2⟩

/-- One map table of the tree is enumerated in another order. -/
inductive Reenumerates : SecCborValue → SecCborValue → Prop
  | map {m_data m_data' : List (SecCborValue × SecCborValue)} (hperm : m_data.Perm m_data') :
    Reenumerates (.map m_data) (.map m_data')
  | item (before after : List SecCborValue) {value value' : SecCborValue}
    (h : Reenumerates value value') :
    Reenumerates (.array (before ++ value :: after)) (.array (before ++ value' :: after))
  | key (before after : List (SecCborValue × SecCborValue)) (value : SecCborValue)
    {key key' : SecCborValue} (h : Reenumerates key key') :
    Reenumerates (.map (before ++ (key, value) :: after)) (.map (before ++ (key', value) :: after))
  | value (before after : List (SecCborValue × SecCborValue)) (key : SecCborValue)
    {value value' : SecCborValue} (h : Reenumerates value value') :
    Reenumerates (.map (before ++ (key, value) :: after)) (.map (before ++ (key, value') :: after))

def Reenumerated : SecCborValue → SecCborValue → Prop := Relation.ReflTransGen Reenumerates

theorem Reenumerated.lift (f : SecCborValue → SecCborValue)
    (hstep : ∀ value value', Reenumerates value value' → Reenumerates (f value) (f value'))
    {value' : SecCborValue} (h : value.Reenumerated value') :
    (f value).Reenumerated (f value') := by
  induction h with
  | refl => exact .refl
  | tail _ hlast ih => exact ih.tail (hstep _ _ hlast)

theorem forall_mem_replace {α : Type*} {P : α → Prop} {before after : List α} {a b : α}
    (hall : ∀ c ∈ before ++ a :: after, P c) (himp : P a → P b) :
    ∀ c ∈ before ++ b :: after, P c := by
  intro c hc
  simp only [List.mem_append, List.mem_cons] at hall hc
  obtain hbefore | rfl | hafter := hc
  · exact hall c (Or.inl hbefore)
  · exact himp (hall a (Or.inr (Or.inl rfl)))
  · exact hall c (Or.inr (Or.inr hafter))

namespace Reenumerates
variable {value value' : SecCborValue}

theorem valid (h : Reenumerates value value') (hvalue : value.Valid) : value'.Valid := by
  induction h with
  | map hperm =>
    cases hvalue with
    | map hlength hkeys hvalues =>
      exact .map (hperm.length_eq ▸ hlength) (fun e he => hkeys e (hperm.mem_iff.mpr he))
        fun e he => hvalues e (hperm.mem_iff.mpr he)
  | item before after h ih =>
    cases hvalue with
    | array hlength hitems =>
      apply Valid.array
      · simpa using hlength
      · exact forall_mem_replace hitems ih
  | key before after value h ih =>
    cases hvalue with
    | map hlength hkeys hvalues =>
      apply Valid.map
      · simpa using hlength
      · exact forall_mem_replace hkeys ih
      · exact forall_mem_replace hvalues id
  | value before after key h ih =>
    cases hvalue with
    | map hlength hkeys hvalues =>
      apply Valid.map
      · simpa using hlength
      · exact forall_mem_replace hkeys id
      · exact forall_mem_replace hvalues ih

theorem allAscii (h : Reenumerates value value') (hvalue : value.AllAscii) : value'.AllAscii := by
  induction h with
  | map hperm =>
    cases hvalue with
    | map hkeys hvalues =>
      exact .map (fun e he => hkeys e (hperm.mem_iff.mpr he))
        fun e he => hvalues e (hperm.mem_iff.mpr he)
  | item before after h ih =>
    cases hvalue with
    | array hitems => exact .array (forall_mem_replace hitems ih)
  | key before after value h ih =>
    cases hvalue with
    | map hkeys hvalues =>
      exact .map (forall_mem_replace hkeys ih)
        (forall_mem_replace hvalues id)
  | value before after key h ih =>
    cases hvalue with
    | map hkeys hvalues =>
      exact .map (forall_mem_replace hkeys id)
        (forall_mem_replace hvalues ih)

/-- What is enumerated is in an array or a map, which are only told apart by their types. -/
theorem distinguished (h : Reenumerates value value') {other : SecCborValue}
    (hkeys : value.Distinguished other) : value'.Distinguished other := by
  cases h <;> cases other <;> exact hkeys

theorem keysDistinguished (h : Reenumerates value value') (hvalue : value.KeysDistinguished) :
    value'.KeysDistinguished := by
  induction h with
  | map hperm =>
    cases hvalue with
    | map hkeys hvalues hdistinguished =>
      exact .map (fun e he => hkeys e (hperm.mem_iff.mpr he))
        (fun e he => hvalues e (hperm.mem_iff.mpr he))
        (hdistinguished.perm hperm fun hab => hab.symm)
  | item before after h ih =>
    cases hvalue with
    | array hitems => exact .array (forall_mem_replace hitems ih)
  | key before after value h ih =>
    cases hvalue with
    | map hkeys hvalues hdistinguished =>
      refine .map (forall_mem_replace hkeys ih) (forall_mem_replace hvalues id) ?_
      rw [List.pairwise_append, List.pairwise_cons] at hdistinguished ⊢
      obtain ⟨hbefore, ⟨hkey, hafter⟩, hacross⟩ := hdistinguished
      refine ⟨hbefore, ⟨fun b hb => h.distinguished (hkey b hb), hafter⟩, ?_⟩
      intro a ha b hb
      cases List.mem_cons.mp hb with
      | inl heq =>
        rw [heq]
        exact (h.distinguished (hacross a ha _ List.mem_cons_self).symm).symm
      | inr hmem => exact hacross a ha b (List.mem_cons_of_mem _ hmem)
  | value before after key h ih =>
    cases hvalue with
    | map hkeys hvalues hdistinguished =>
      refine .map (forall_mem_replace hkeys id) (forall_mem_replace hvalues ih) ?_
      rw [List.pairwise_append, List.pairwise_cons] at hdistinguished ⊢
      obtain ⟨hbefore, ⟨hkey, hafter⟩, hacross⟩ := hdistinguished
      refine ⟨hbefore, ⟨hkey, hafter⟩, ?_⟩
      intro a ha b hb
      cases List.mem_cons.mp hb with
      | inl heq =>
        have hkeys : a.1.Distinguished key := hacross a ha _ List.mem_cons_self
        rwa [heq]
      | inr hmem => exact hacross a ha b (List.mem_cons_of_mem _ hmem)
end Reenumerates

theorem canonical_of_mem {values : List SecCborValue}
    (hcanonical : (item order (.array values)).Canonical) (hmem : value ∈ values) :
    (item order value).Canonical := by
  rw [item, items_eq] at hcanonical
  cases hcanonical with
  | array hitems => exact hitems _ (List.mem_map_of_mem hmem)

theorem canonical_of_mem_map {entries : List (SecCborValue × SecCborValue)}
    {entry : SecCborValue × SecCborValue} (hcanonical : (item order (.map entries)).Canonical)
    (hmem : entry ∈ entries) :
    (item order entry.1).Canonical ∧ (item order entry.2).Canonical := by
  rw [item_map] at hcanonical
  cases hcanonical with
  | map hkeys hvalues _ =>
    have hperm := perm_getSortedKeys order entries
    have hsorted := hperm.mem_iff.mpr hmem
    exact ⟨hkeys _ (List.mem_map_of_mem hsorted), hvalues _ (List.mem_map_of_mem hsorted)⟩

/-- Keys that the comparator finds to be the same stay in the order of the table. -/
theorem pairwise_of_canonical {entries : List (SecCborValue × SecCborValue)}
    (hcanonical : (item order (.map entries)).Canonical) :
    entries.Pairwise fun a b => compareKeys order a.1 b.1 ≠ .gt →
      Cbor.KeyLt (item order a.1) (item order b.1) := by
  rw [item_map] at hcanonical
  cases hcanonical with
  | map _ _ hsorted =>
    rw [List.pairwise_map] at hsorted
    exact List.pairwise_of_pairwise_insertionSort hsorted

/-- Keys that are sorted in both orders of the table are told apart. -/
theorem distinguished_of_both (hforward : compareKeys order key₁ key₂ ≠ .gt →
      Cbor.KeyLt (item order key₁) (item order key₂))
    (hbackward : compareKeys order key₂ key₁ ≠ .gt →
      Cbor.KeyLt (item order key₂) (item order key₁)) : key₁.Distinguished key₂ := by
  by_contra hsame
  have hcompare : compareKeys order key₁ key₂ = .eq ∧ compareKeys order key₂ key₁ = .eq := by
    cases key₁ <;> cases key₂ <;> simp [Distinguished, fieldType] at hsame
    case unsigned.unsigned => simp [hsame, compareKeys, fieldType, compareUnsigned]
    case negative.negative => simp [hsame, compareKeys, fieldType, compareNegative]
    case string.string =>
      simp [hsame, compareKeys, fieldType, compareString, order.compare_self]
    all_goals simp [compareKeys, fieldType]
  rw [hcompare.1] at hforward
  rw [hcompare.2] at hbackward
  exact (hforward (by decide)).asymm (hbackward (by decide))

theorem Valid.keysDistinguished (hvalue : value.Valid)
    (hcanonical : ∀ value', value.Reenumerated value' → (item order value').Canonical) :
    value.KeysDistinguished := by
  induction hvalue with
  | unsigned m_data => exact .unsigned m_data
  | negative => exact .negative _
  | string => exact .string _
  | data => exact .data _
  | array _ _ ih =>
    apply KeysDistinguished.array
    intro value hmem
    apply ih value hmem
    intro value' hvalue'
    obtain ⟨before, after, rfl⟩ := List.append_of_mem hmem
    have harray : Reenumerated (.array (before ++ value :: after))
        (.array (before ++ value' :: after)) :=
      hvalue'.lift (fun value => .array (before ++ value :: after)) fun _ _ h => .item before after h
    exact canonical_of_mem (hcanonical _ harray) (by simp)
  | @map entries _ _ _ ihkeys ihvalues =>
    apply KeysDistinguished.map
    · intro entry hmem
      apply ihkeys entry hmem
      intro key' hkey'
      obtain ⟨before, after, rfl⟩ := List.append_of_mem hmem
      have hmap : Reenumerated (.map (before ++ entry :: after))
          (.map (before ++ (key', entry.2) :: after)) :=
        hkey'.lift (fun key => .map (before ++ (key, entry.2) :: after))
          fun _ _ h => .key before after _ h
      exact (canonical_of_mem_map (hcanonical _ hmap)
        (List.mem_append_right _ List.mem_cons_self)).1
    · intro entry hmem
      apply ihvalues entry hmem
      intro value' hvalue'
      obtain ⟨before, after, rfl⟩ := List.append_of_mem hmem
      have hmap : Reenumerated (.map (before ++ entry :: after))
          (.map (before ++ (entry.1, value') :: after)) :=
        hvalue'.lift (fun value => .map (before ++ (entry.1, value) :: after))
          fun _ _ h => .value before after _ h
      exact (canonical_of_mem_map (hcanonical _ hmap)
        (List.mem_append_right _ List.mem_cons_self)).2
    · have hforward := pairwise_of_canonical (hcanonical _ .refl)
      have hreverse : Reenumerated (.map entries) (.map entries.reverse) :=
        .single (.map entries.reverse_perm.symm)
      have hbackward := pairwise_of_canonical (hcanonical _ hreverse)
      rw [List.pairwise_reverse] at hbackward
      exact (hforward.and hbackward).imp fun hboth => distinguished_of_both hboth.1 hboth.2

/-- A decoder reads the tree back, and there is nothing left. The octets are those of its canonical
form. -/
structure WrittenCanonically (order : StringOrder) (value : SecCborValue) : Prop where
  decode : Cbor.decode (write order value) = some (item order value, [])
  shortest : write order value = Cbor.encode (item order value)
  canonical : (item order value).Canonical

/-- A tree is written in canonical form, whatever the order of its tables, exactly if its strings
are ASCII and in each map the keys are told apart. -/
theorem writtenCanonically_iff {value : SecCborValue} (hvalue : value.Valid) :
    (∀ value', value.Reenumerated value' → WrittenCanonically order value') ↔
      value.AllAscii ∧ value.KeysDistinguished := by
  constructor
  · intro hwritten
    have hshortest := (hwritten value .refl).shortest
    refine ⟨(hvalue.allAscii [] [] (congrArg (· ++ []) hshortest)).1, ?_⟩
    exact hvalue.keysDistinguished fun value' hvalue' => (hwritten value' hvalue').canonical
  · intro ⟨hascii, hkeys⟩ value' hvalue'
    have hall : value'.Valid ∧ value'.AllAscii ∧ value'.KeysDistinguished := by
      induction hvalue' with
      | refl => exact ⟨hvalue, hascii, hkeys⟩
      | tail _ hstep ih =>
        exact ⟨hstep.valid ih.1, hstep.allAscii ih.2.1, hstep.keysDistinguished ih.2.2⟩
    obtain ⟨hvalid', hascii', hkeys'⟩ := hall
    have hshortest : write order value' = Cbor.encode (item order value') :=
      hascii'.write_eq hvalid'
    refine ⟨?_, hshortest, hkeys'.canonical hvalid' hascii'⟩
    rw [hshortest]
    exact hvalid'.sized.decode_encode

def characterOrder : StringOrder where
  compare s t := if s < t then .lt else if t < s then .gt else .eq
  compare_self := fun s => by simp [List.lt_irrefl]
  compare_ascii := fun _ _ _ _ => rfl

def sampleTree : SecCborValue :=
  .map [(.string ['b'], .array [.unsigned 1000, .data [7]]), (.string ['a'], .negative (-5)),
    (.unsigned 3, .string [])]

theorem writtenCanonically_iff_sample : sampleTree.Valid ∧ ∀ value', sampleTree.Reenumerated value' →
    WrittenCanonically characterOrder value' := by
  have hvalid : sampleTree.Valid := by
    apply Valid.map (by decide) <;>
      simp only [List.forall_mem_cons, List.not_mem_nil, false_implies, implies_true, and_true]
    · exact ⟨.string (by decide), .string (by decide), .unsigned 3⟩
    · refine ⟨.array (by decide) ?_, .negative (by decide), .string (by decide)⟩
      simp only [List.forall_mem_cons, List.not_mem_nil, false_implies, implies_true, and_true]
      exact ⟨.unsigned 1000, .data (by decide)⟩
  refine ⟨hvalid, (writtenCanonically_iff hvalid).mpr ?_⟩
  constructor
  · apply AllAscii.map <;>
      simp only [List.forall_mem_cons, List.not_mem_nil, false_implies, implies_true, and_true]
    · exact ⟨.string (by simp [IsAscii]), .string (by simp [IsAscii]), .unsigned 3⟩
    · refine ⟨.array ?_, .negative (-5), .string (by simp [IsAscii])⟩
      simp only [List.forall_mem_cons, List.not_mem_nil, false_implies, implies_true, and_true]
      exact ⟨.unsigned 1000, .data [7]⟩
  · apply KeysDistinguished.map <;>
      try simp only [List.forall_mem_cons, List.not_mem_nil, false_implies, implies_true, and_true]
    · exact ⟨.string ['b'], .string ['a'], .unsigned 3⟩
    · refine ⟨.array ?_, .negative (-5), .string []⟩
      simp only [List.forall_mem_cons, List.not_mem_nil, false_implies, implies_true, and_true]
      exact ⟨.unsigned 1000, .data [7]⟩
    · simp [Distinguished, fieldType]

/-- The head of a string that is not ASCII counts too few octets. -/
theorem not_writtenCanonically_string :
    (string ['é']).Valid ∧
      Cbor.decode (write characterOrder (string ['é'])) ≠
        some (item characterOrder (string ['é']), []) ∧
      ¬∀ value', (string ['é']).Reenumerated value' →
        WrittenCanonically characterOrder value' := by
  have hwrite : write characterOrder (string ['é']) = [0x61, 0xC3, 0xA9] := by decide
  have hdecode : Cbor.decode (write characterOrder (string ['é'])) ≠
      some (item characterOrder (string ['é']), []) := by
    have hhead : Cbor.readHead [0x61, 0xC3, 0xA9] = some (3, 1, [0xC3, 0xA9]) := by decide
    have hoctets : Cbor.readOctets 1 [0xC3, 0xA9] = some ([0xC3], [0xA9]) := by decide
    rw [hwrite]
    intro hread
    rw [Cbor.decode, List.length_cons, Cbor.readItem, hhead] at hread
    simp only [hoctets, Option.bind_some] at hread
    obtain ⟨_, -, heq⟩ := Option.map_eq_some_iff.mp hread
    cases congrArg Prod.snd heq
  exact ⟨.string (by decide), hdecode, fun hwritten => hdecode (hwritten _ .refl).decode⟩
end SecCborValue
end SecurityFramework
