import Mathlib.Data.Nat.Bitwise
import SecurityFramework.Library.Cbor

/-!
# Writing of CBOR values

Trees of values are written into mutable data.
-/

namespace SecurityFramework
def utf16Length (characters : List Char) : Nat :=
  (characters.map fun c => if c.val < 0x10000 then 1 else 2).sum

def IsAscii (characters : List Char) : Prop := ∀ c ∈ characters, c.val < 0x80

instance (characters : List Char) : Decidable (IsAscii characters) :=
  inferInstanceAs (Decidable (∀ c ∈ characters, c.val < 0x80))

/-- `compare:` of two strings, which goes character by character when all are ASCII. -/
structure StringOrder where
  compare : List Char → List Char → Ordering
  compare_self : ∀ s, compare s s = .eq
  compare_ascii : ∀ s t, IsAscii s → IsAscii t →
    compare s t = if s < t then .lt else if t < s then .gt else .eq

/-- The entries of a map are in the order in which its table is enumerated. -/
inductive SecCborValue where
  | unsigned (m_data : UInt64)
  | negative (m_data : Int64)
  | string (m_data : List Char)
  | data (m_data : List UInt8)
  | array (m_data : List SecCborValue)
  | map (m_data : List (SecCborValue × SecCborValue))

def SecCborValue.fieldType : SecCborValue → Nat
  | unsigned _ => 0
  | negative _ => 1
  | data _ => 2
  | string _ => 3
  | array _ => 4
  | map _ => 5

structure MapTableEntry where
  object : Nat
  key : SecCborValue
  value : SecCborValue

/-- `setKey:value:`. Keys are the same only if they are one object. -/
def setKey (m_data : List MapTableEntry) (entry : MapTableEntry) : List MapTableEntry :=
  if m_data.any fun other => other.object = entry.object then
    m_data.map fun other =>
      if other.object = entry.object then { other with value := entry.value } else other
  else m_data ++ [entry]

def mapTable (calls : List MapTableEntry) : List MapTableEntry := calls.foldl setKey []

def kAdditionalInformationMask : UInt8 := 0x1F

def kMajorTypeBitShift : UInt8 := 5

def kAdditionalInformation1Byte : UInt8 := 24

def kAdditionalInformation2Bytes : UInt8 := 25

def kAdditionalInformation4Bytes : UInt8 := 26

def kAdditionalInformation8Bytes : UInt8 := 27

def SecCborValue.fieldValue (value : SecCborValue) : UInt8 :=
  UInt8.ofNat value.fieldType <<< kMajorTypeBitShift

def setAdditionalInformation (item1 additionalInformation : UInt8) : List UInt8 :=
  [item1 ||| (additionalInformation &&& kAdditionalInformationMask)]

def getNumUintBytes (value : UInt64) : Nat :=
  if value < 24 then 0
  else if value ≤ 0xFF then 1
  else if value ≤ 0xFFFF then 2
  else if value ≤ 0xFFFFFFFF then 4
  else 8

def appendUint (value : UInt64) : Nat → List UInt8
  | 0 => []
  | shift + 1 => (0xFF &&& value >>> UInt64.ofNat (shift * 8)).toUInt8 :: appendUint value shift

def setUint (item1 : UInt8) (value : UInt64) : List UInt8 :=
  match getNumUintBytes value with
  | 0 => setAdditionalInformation item1 value.toUInt8
  | 1 => setAdditionalInformation item1 kAdditionalInformation1Byte ++ appendUint value 1
  | 2 => setAdditionalInformation item1 kAdditionalInformation2Bytes ++ appendUint value 2
  | 4 => setAdditionalInformation item1 kAdditionalInformation4Bytes ++ appendUint value 4
  | 8 => setAdditionalInformation item1 kAdditionalInformation8Bytes ++ appendUint value 8
  | _ => []

def SecCborValue.encodeStartItems (value : SecCborValue) (items : UInt64) : List UInt8 :=
  setUint value.fieldValue items

namespace SecCborValue
def compareUnsigned (a b : UInt64) : Ordering := if a < b then .lt else if b < a then .gt else .eq

/-- The number that is further from zero comes later. -/
def compareNegative (a b : Int64) : Ordering := if b < a then .lt else if a < b then .gt else .eq

def compareString (order : StringOrder) (a b : List Char) : Ordering :=
  if utf16Length a < utf16Length b then .lt
  else if utf16Length b < utf16Length a then .gt
  else order.compare a b

def compareKeys (order : StringOrder) (key₁ key₂ : SecCborValue) : Ordering :=
  if key₁.fieldType < key₂.fieldType then .lt
  else if key₂.fieldType < key₁.fieldType then .gt
  else
    match key₁, key₂ with
    | unsigned a, unsigned b => compareUnsigned a b
    | negative a, negative b => compareNegative a b
    | string a, string b => compareString order a b
    | _, _ => .eq

/-- The sorted keys, with what belongs to each. Keys that the comparator does not tell apart stay in
the order of the table. -/
def getSortedKeys {α : Type*} (order : StringOrder) (m_data : List (SecCborValue × α)) :
    List (SecCborValue × α) :=
  m_data.insertionSort fun a b => compareKeys order a.1 b.1 ≠ .gt

section
variable (order : StringOrder)

mutual

def write : SecCborValue → List UInt8
  | unsigned m_data => (unsigned m_data).encodeStartItems m_data
  | negative m_data => (negative m_data).encodeStartItems (-(m_data + 1)).toUInt64
  | string m_data =>
    (string m_data).encodeStartItems (.ofNat (utf16Length m_data)) ++ Cbor.utf8 m_data
  | data m_data => (data m_data).encodeStartItems (.ofNat m_data.length) ++ m_data
  | array m_data => (array m_data).encodeStartItems (.ofNat m_data.length) ++ writeItems m_data
  | map m_data =>
    (map m_data).encodeStartItems (.ofNat m_data.length) ++
      (getSortedKeys order (writeEntries m_data)).flatMap Prod.snd
termination_by structural value => value

def writeItems : List SecCborValue → List UInt8
  | [] => []
  | item :: items => write item ++ writeItems items
termination_by structural items => items

def writeEntries : List (SecCborValue × SecCborValue) → List (SecCborValue × List UInt8)
  | [] => []
  | (key, value) :: entries => (key, write key ++ write value) :: writeEntries entries
termination_by structural entries => entries
end

mutual

/-- The tree as it should be read back, the entries of its maps in the order they are written in. -/
def item : SecCborValue → Cbor.Item
  | unsigned m_data => .unsigned m_data.toNat
  | negative m_data => .negative (-(m_data.toInt + 1)).toNat
  | string m_data => .text m_data
  | data m_data => .bytes m_data
  | array m_data => .array (items m_data)
  | map m_data => .map ((getSortedKeys order (itemEntries m_data)).map Prod.snd)
termination_by structural value => value

def items : List SecCborValue → List Cbor.Item
  | [] => []
  | value :: values => item value :: items values
termination_by structural values => values

def itemEntries :
    List (SecCborValue × SecCborValue) → List (SecCborValue × Cbor.Item × Cbor.Item)
  | [] => []
  | (key, value) :: entries => (key, item key, item value) :: itemEntries entries
termination_by structural entries => entries
end
end

/-- Negative numbers are negative, and all lengths fit into machine words. -/
inductive Valid : SecCborValue → Prop
  | unsigned (m_data : UInt64) : Valid (.unsigned m_data)
  | negative {m_data : Int64} (hnegative : m_data < 0) : Valid (.negative m_data)
  | string {m_data : List Char} (hlength : (Cbor.utf8 m_data).length < 2 ^ 64) :
    Valid (.string m_data)
  | data {m_data : List UInt8} (hlength : m_data.length < 2 ^ 64) : Valid (.data m_data)
  | array {m_data : List SecCborValue} (hlength : m_data.length < 2 ^ 64)
    (hitems : ∀ item ∈ m_data, Valid item) : Valid (.array m_data)
  | map {m_data : List (SecCborValue × SecCborValue)} (hlength : m_data.length < 2 ^ 64)
    (hkeys : ∀ entry ∈ m_data, Valid entry.1) (hvalues : ∀ entry ∈ m_data, Valid entry.2) :
    Valid (.map m_data)
end SecCborValue
end SecurityFramework

namespace SecurityFramework
open Memory

namespace SecCborValue
theorem setAdditionalInformation_eq {major info : Nat} (hmajor : major < 6) (hinfo : info < 32) :
    setAdditionalInformation (UInt8.ofNat major <<< kMajorTypeBitShift) (UInt8.ofNat info) =
      [Cbor.initial major info] := by
  have hall : ∀ major : Fin 6, ∀ info : Fin 32,
      UInt8.ofNat major <<< kMajorTypeBitShift |||
        (UInt8.ofNat info &&& kAdditionalInformationMask) = Cbor.initial major info := by
    decide +kernel
  rw [setAdditionalInformation, hall ⟨major, hmajor⟩ ⟨info, hinfo⟩]

theorem appendUint_eq (value : UInt64) {count : Nat} (hcount : count ≤ 8) :
    appendUint value count = toBE count value.toNat := by
  induction count with
  | zero => rfl
  | succ shift ih =>
    have hshift : (UInt64.ofNat (shift * 8)).toNat % 64 = shift * 8 := by
      rw [UInt64.toNat_ofNat']
      omega
    have hoctet : (0xFF &&& value >>> UInt64.ofNat (shift * 8)).toUInt8 =
        UInt8.ofNat (value.toNat / 256 ^ shift) := by
      rw [← UInt8.toNat_inj, UInt64.toNat_toUInt8, UInt64.toNat_and, UInt64.toNat_shiftRight, hshift,
        UInt8.toNat_ofNat', Nat.and_comm, show (0xFF : UInt64).toNat = 2 ^ 8 - 1 from rfl,
        Nat.and_two_pow_sub_one_eq_mod, Nat.mod_mod, Nat.shiftRight_eq_div_pow, Nat.mul_comm, pow_mul,
        show 2 ^ 8 = 256 from rfl]
    rw [appendUint, toBE, hoctet, ih (by omega)]

theorem fieldType_lt (value : SecCborValue) : value.fieldType < 6 := by
  cases value <;> simp [fieldType]

theorem encodeStartItems_eq (value : SecCborValue) (items : UInt64) :
    value.encodeStartItems items = Cbor.head value.fieldType items.toNat := by
  have hmajor := value.fieldType_lt
  have hlt : items.toNat < 2 ^ 64 := items.toNat_lt
  have hsmall : items < 24 ↔ items.toNat < 24 := UInt64.lt_iff_toNat_lt
  have h1 : items ≤ 0xFF ↔ items.toNat < 2 ^ 8 := by
    rw [UInt64.le_iff_toNat_le, ← Nat.lt_succ_iff]
    rfl
  have h2 : items ≤ 0xFFFF ↔ items.toNat < 2 ^ 16 := by
    rw [UInt64.le_iff_toNat_le, ← Nat.lt_succ_iff]
    rfl
  have h4 : items ≤ 0xFFFFFFFF ↔ items.toNat < 2 ^ 32 := by
    rw [UInt64.le_iff_toNat_le, ← Nat.lt_succ_iff]
    rfl
  rw [encodeStartItems, setUint, fieldValue, getNumUintBytes, Cbor.head]
  simp only [hsmall, h1, h2, h4]
  by_cases hs : items.toNat < 24
  · have hoctet : items.toUInt8 = UInt8.ofNat items.toNat := rfl
    simp only [if_pos hs]
    rw [hoctet, setAdditionalInformation_eq hmajor (by omega)]
  simp only [if_neg hs]
  by_cases hs1 : items.toNat < 2 ^ 8
  · simp only [if_pos hs1]
    rw [show kAdditionalInformation1Byte = UInt8.ofNat 24 from rfl,
      setAdditionalInformation_eq hmajor (by decide), appendUint_eq _ (by decide)]
    rfl
  simp only [if_neg hs1]
  by_cases hs2 : items.toNat < 2 ^ 16
  · simp only [if_pos hs2]
    rw [show kAdditionalInformation2Bytes = UInt8.ofNat 25 from rfl,
      setAdditionalInformation_eq hmajor (by decide), appendUint_eq _ (by decide)]
    rfl
  simp only [if_neg hs2]
  by_cases hs4 : items.toNat < 2 ^ 32
  · simp only [if_pos hs4]
    rw [show kAdditionalInformation4Bytes = UInt8.ofNat 26 from rfl,
      setAdditionalInformation_eq hmajor (by decide), appendUint_eq _ (by decide)]
    rfl
  · simp only [if_neg hs4]
    rw [show kAdditionalInformation8Bytes = UInt8.ofNat 27 from rfl,
      setAdditionalInformation_eq hmajor (by decide), appendUint_eq _ (by decide)]
    rfl

theorem length_utf8 (characters : List Char) :
    (Cbor.utf8 characters).length = (characters.map Char.utf8Size).sum := by
  rw [Cbor.utf8, List.length_flatMap]
  simp only [String.length_utf8EncodeChar]

theorem utf16Size_le_utf8Size (c : Char) :
    (if c.val < 0x10000 then 1 else 2) ≤ c.utf8Size ∧
      ((if c.val < 0x10000 then 1 else 2) = c.utf8Size ↔ c.val < 0x80) := by
  have hone : c.val ≤ 0x7F ↔ c.val.toNat ≤ 0x7F := UInt32.le_iff_toNat_le
  have htwo : c.val ≤ 0x7FF ↔ c.val.toNat ≤ 0x7FF := UInt32.le_iff_toNat_le
  have hthree : c.val ≤ 0xFFFF ↔ c.val.toNat ≤ 0xFFFF := UInt32.le_iff_toNat_le
  have hplane : c.val < 0x10000 ↔ c.val.toNat < 0x10000 := UInt32.lt_iff_toNat_lt
  have hascii : c.val < 0x80 ↔ c.val.toNat < 0x80 := UInt32.lt_iff_toNat_lt
  have hsize : c.utf8Size =
      if c.val ≤ 0x7F then 1 else if c.val ≤ 0x7FF then 2 else if c.val ≤ 0xFFFF then 3 else 4 := rfl
  rw [hsize]
  simp only [hone, htwo, hthree, hplane, hascii]
  split_ifs <;> omega

/-- A string has as many units of UTF-16 as octets of UTF-8 only if it is ASCII. -/
theorem utf16Length_eq_iff (characters : List Char) :
    utf16Length characters ≤ (Cbor.utf8 characters).length ∧
      (utf16Length characters = (Cbor.utf8 characters).length ↔ IsAscii characters) := by
  rw [length_utf8, utf16Length]
  induction characters with
  | nil => exact ⟨le_refl _, iff_of_true rfl fun _ hmem => (by cases hmem)⟩
  | cons c characters ih =>
    obtain ⟨hle, heq⟩ := utf16Size_le_utf8Size c
    simp only [List.map_cons, List.sum_cons, IsAscii, List.forall_mem_cons]
    rw [← heq]
    have hrest := ih.2
    rw [IsAscii] at hrest
    rw [← hrest]
    omega

variable {order : StringOrder}

theorem writeItems_eq (values : List SecCborValue) :
    writeItems order values = values.flatMap (write order) := by
  induction values with
  | nil => rfl
  | cons value values ih => rw [writeItems, ih, List.flatMap_cons]

theorem items_eq (values : List SecCborValue) : items order values = values.map (item order) := by
  induction values with
  | nil => rfl
  | cons value values ih => rw [items, ih, List.map_cons]

variable (entries : List (SecCborValue × SecCborValue))

theorem writeEntries_eq :
    writeEntries order entries =
      entries.map fun entry => (entry.1, write order entry.1 ++ write order entry.2) := by
  induction entries with
  | nil => rfl
  | cons entry entries ih => rw [writeEntries, ih, List.map_cons]

theorem itemEntries_eq :
    itemEntries order entries =
      entries.map fun entry => (entry.1, item order entry.1, item order entry.2) := by
  induction entries with
  | nil => rfl
  | cons entry entries ih => rw [itemEntries, ih, List.map_cons]

/-- What belongs to the keys does not matter for their order. -/
theorem getSortedKeys_map {α β : Type*} (entries : List (SecCborValue × α))
    (f : SecCborValue × α → β) :
    getSortedKeys order (entries.map fun entry => (entry.1, f entry)) =
      (getSortedKeys order entries).map fun entry => (entry.1, f entry) := by
  symm
  apply List.map_insertionSort
  intro a _ b _
  exact Iff.rfl

variable (order) in
theorem perm_getSortedKeys {α : Type*} (entries : List (SecCborValue × α)) :
    (getSortedKeys order entries).Perm entries := List.perm_insertionSort _ _

theorem write_map :
    write order (.map entries) = (map entries).encodeStartItems (.ofNat entries.length) ++
      (getSortedKeys order entries).flatMap fun entry =>
        write order entry.1 ++ write order entry.2 := by
  rw [write, writeEntries_eq, getSortedKeys_map, List.flatMap_map]

theorem item_map :
    item order (.map entries) = .map ((getSortedKeys order entries).map fun entry =>
      (item order entry.1, item order entry.2)) := by
  rw [item, itemEntries_eq, getSortedKeys_map, List.map_map]
  rfl

theorem major_item (value : SecCborValue) : (item order value).major = value.fieldType := by
  cases value <;> rfl

/-- All strings of the tree are ASCII. -/
inductive AllAscii : SecCborValue → Prop
  | unsigned (m_data : UInt64) : AllAscii (.unsigned m_data)
  | negative (m_data : Int64) : AllAscii (.negative m_data)
  | string {m_data : List Char} (hascii : IsAscii m_data) : AllAscii (.string m_data)
  | data (m_data : List UInt8) : AllAscii (.data m_data)
  | array {m_data : List SecCborValue} (hitems : ∀ item ∈ m_data, AllAscii item) :
    AllAscii (.array m_data)
  | map {m_data : List (SecCborValue × SecCborValue)} (hkeys : ∀ entry ∈ m_data, AllAscii entry.1)
    (hvalues : ∀ entry ∈ m_data, AllAscii entry.2) : AllAscii (.map m_data)

theorem toNat_neg_succ {m_data : Int64} (hnegative : m_data < 0) :
    (-(m_data + 1)).toUInt64.toNat = (-(m_data.toInt + 1)).toNat ∧
      (-(m_data.toInt + 1)).toNat < 2 ^ 64 := by
  have hneg : m_data.toInt < 0 := Int64.lt_iff_toInt_lt.mp hnegative
  have hle : -2 ^ 63 ≤ m_data.toInt := m_data.le_toInt
  have hsucc : (m_data + 1).toInt = m_data.toInt + 1 := by
    rw [Int64.toInt_add, show (1 : Int64).toInt = 1 from rfl]
    apply Int.bmod_eq_of_le <;> omega
  have hval : (-(m_data + 1)).toInt = -(m_data.toInt + 1) := by
    rw [Int64.toInt_neg, hsucc]
    apply Int.bmod_eq_of_le <;> omega
  have hnonneg : 0 ≤ -(m_data + 1) := by
    rw [Int64.le_iff_toInt_le, hval]
    exact neg_nonneg.mpr (by omega)
  constructor
  · rw [Int64.toNat_toUInt64_of_le hnonneg, Int64.toNatClampNeg, hval]
  · omega

theorem Valid.sized {value : SecCborValue} (hvalue : value.Valid) : (item order value).Sized := by
  induction hvalue with
  | unsigned m_data => exact .unsigned m_data.toNat_lt
  | negative hnegative => exact .negative (toNat_neg_succ hnegative).2
  | string hlength => exact .text hlength
  | data hlength => exact .bytes hlength
  | array hlength _ ih =>
    rw [item, items_eq]
    apply Cbor.Item.Sized.array
    · rwa [List.length_map]
    · intro item hitem
      obtain ⟨value, hvalue, rfl⟩ := List.mem_map.mp hitem
      exact ih value hvalue
  | @map entries hlength _ _ ihkeys ihvalues =>
    have hperm := perm_getSortedKeys order entries
    rw [item_map]
    apply Cbor.Item.Sized.map
    · rwa [List.length_map, hperm.length_eq]
    · intro entry hentry
      obtain ⟨value, hvalue, rfl⟩ := List.mem_map.mp hentry
      exact ihkeys value (hperm.mem_iff.mp hvalue)
    · intro entry hentry
      obtain ⟨value, hvalue, rfl⟩ := List.mem_map.mp hentry
      exact ihvalues value (hperm.mem_iff.mp hvalue)

theorem toNat_ofNat_length {length : Nat} (hlength : length < 2 ^ 64) :
    (UInt64.ofNat length).toNat = length := by
  rw [UInt64.toNat_ofNat', Nat.mod_eq_of_lt hlength]

theorem AllAscii.write_eq {value : SecCborValue} (hascii : value.AllAscii) (hvalue : value.Valid) :
    write order value = Cbor.encode (item order value) := by
  induction hascii with
  | unsigned m_data => rw [write, encodeStartItems_eq, item, Cbor.encode, fieldType]
  | negative m_data =>
    cases hvalue with
    | negative hnegative =>
      rw [write, encodeStartItems_eq, item, Cbor.encode, fieldType, (toNat_neg_succ hnegative).1]
  | string hascii =>
    cases hvalue with
    | string hlength =>
      rw [write, encodeStartItems_eq, item, Cbor.encode, fieldType,
        (utf16Length_eq_iff _).2.mpr hascii, toNat_ofNat_length hlength]
  | data m_data =>
    cases hvalue with
    | data hlength =>
      rw [write, encodeStartItems_eq, item, Cbor.encode, fieldType, toNat_ofNat_length hlength]
  | @array values _ ih =>
    cases hvalue with
    | array hlength hitems =>
      rw [write, encodeStartItems_eq, item, Cbor.encode, fieldType, toNat_ofNat_length hlength,
        writeItems_eq, items_eq, Cbor.encodeItems_eq, List.flatMap_map, List.length_map]
      congr 1
      exact List.flatMap_congr fun value hmem => ih value hmem (hitems value hmem)
  | @map entries _ _ ihkeys ihvalues =>
    cases hvalue with
    | map hlength hkeys hvalues =>
      have hperm := perm_getSortedKeys order entries
      rw [write_map, encodeStartItems_eq, item_map, Cbor.encode, fieldType,
        toNat_ofNat_length hlength, Cbor.encodeEntries_eq, List.flatMap_map, List.length_map,
        hperm.length_eq]
      congr 1
      apply List.flatMap_congr
      intro entry hentry
      have hmem := hperm.mem_iff.mp hentry
      rw [ihkeys entry hmem (hkeys entry hmem), ihvalues entry hmem (hvalues entry hmem)]

theorem flatMap_append_inj {α : Type*} {f g : α → List UInt8} {P : α → Prop} {as : List α}
    (hinj : ∀ a ∈ as, ∀ x y, f a ++ x = g a ++ y → P a ∧ x = y) {x y : List UInt8}
    (heq : as.flatMap f ++ x = as.flatMap g ++ y) : (∀ a ∈ as, P a) ∧ x = y := by
  induction as with
  | nil => exact ⟨fun _ hmem => (by cases hmem), heq⟩
  | cons a as ih =>
    rw [List.flatMap_cons, List.flatMap_cons, List.append_assoc, List.append_assoc] at heq
    obtain ⟨ha, hrest⟩ := hinj a List.mem_cons_self _ _ heq
    obtain ⟨has, hxy⟩ := ih (fun b hb => hinj b (List.mem_cons_of_mem _ hb)) hrest
    exact ⟨List.forall_mem_cons.mpr ⟨ha, has⟩, hxy⟩

/-- Where the heads are those that the tree should have, its strings are ASCII. -/
theorem Valid.allAscii {value : SecCborValue} (hvalue : value.Valid) :
    ∀ x y, write order value ++ x = Cbor.encode (item order value) ++ y →
      value.AllAscii ∧ x = y := by
  induction hvalue with
  | unsigned m_data =>
    intro x y heq
    rw [write, encodeStartItems_eq, item, Cbor.encode, fieldType] at heq
    exact ⟨.unsigned m_data, List.append_cancel_left heq⟩
  | @negative m_data hnegative =>
    intro x y heq
    rw [write, encodeStartItems_eq, item, Cbor.encode, fieldType,
      (toNat_neg_succ hnegative).1] at heq
    exact ⟨.negative m_data, List.append_cancel_left heq⟩
  | @string m_data hlength =>
    intro x y heq
    obtain ⟨hle, hiff⟩ := utf16Length_eq_iff m_data
    have hlength' := hle.trans_lt hlength
    rw [write, encodeStartItems_eq, item, Cbor.encode, fieldType, toNat_ofNat_length hlength',
      List.append_assoc, List.append_assoc] at heq
    obtain ⟨-, hcount, hrest⟩ := Cbor.head_append_inj (by decide) (by decide) hlength' hlength heq
    exact ⟨.string (hiff.mp hcount), List.append_cancel_left hrest⟩
  | @data m_data hlength =>
    intro x y heq
    rw [write, encodeStartItems_eq, item, Cbor.encode, fieldType, toNat_ofNat_length hlength] at heq
    exact ⟨.data m_data, List.append_cancel_left heq⟩
  | @array values hlength _ ih =>
    intro x y heq
    rw [write, encodeStartItems_eq, item, Cbor.encode, fieldType, toNat_ofNat_length hlength,
      writeItems_eq, items_eq, Cbor.encodeItems_eq, List.flatMap_map, List.length_map,
      List.append_assoc, List.append_assoc] at heq
    obtain ⟨hall, hxy⟩ := flatMap_append_inj ih (List.append_cancel_left heq)
    exact ⟨.array hall, hxy⟩
  | @map entries hlength _ _ ihkeys ihvalues =>
    intro x y heq
    have hperm := perm_getSortedKeys order entries
    rw [write_map, encodeStartItems_eq, item_map, Cbor.encode, fieldType,
      toNat_ofNat_length hlength, Cbor.encodeEntries_eq, List.flatMap_map, List.length_map,
      hperm.length_eq, List.append_assoc, List.append_assoc] at heq
    have hinj : ∀ entry ∈ getSortedKeys order entries, ∀ x y,
        write order entry.1 ++ write order entry.2 ++ x =
          Cbor.encode (item order entry.1) ++ Cbor.encode (item order entry.2) ++ y →
        (entry.1.AllAscii ∧ entry.2.AllAscii) ∧ x = y := by
      intro entry hentry x y heq
      have hmem := hperm.mem_iff.mp hentry
      rw [List.append_assoc, List.append_assoc] at heq
      obtain ⟨hkey, hrest⟩ := ihkeys entry hmem _ _ heq
      obtain ⟨hvalue, hxy⟩ := ihvalues entry hmem _ _ hrest
      exact ⟨⟨hkey, hvalue⟩, hxy⟩
    obtain ⟨hall, hxy⟩ := flatMap_append_inj hinj (List.append_cancel_left heq)
    have hentries : ∀ entry ∈ entries, entry.1.AllAscii ∧ entry.2.AllAscii :=
      fun entry hentry => hall entry (hperm.mem_iff.mpr hentry)
    exact ⟨.map (fun entry hentry => (hentries entry hentry).1)
      fun entry hentry => (hentries entry hentry).2, hxy⟩
end SecCborValue
end SecurityFramework
