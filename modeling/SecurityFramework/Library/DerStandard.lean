import SecurityFramework.Library.Der
import Mathlib.Data.Nat.Log
import Mathlib.Tactic.Ring
import Mathlib.Tactic.NormNum

/-!
# The DER primitives

Tags below 31 take one octet, lengths below 128 too. A longer length is preceded by the number of
its digits.
-/

namespace DER.Standard
def bigEndian : Nat → Nat → List UInt8
  | 0, _ => []
  | size + 1, value => UInt8.ofNat (value / 256 ^ size) :: bigEndian size value

def ofBigEndian : List UInt8 → Nat
  | [] => 0
  | digit :: digits => digit.toNat * 256 ^ digits.length + ofBigEndian digits

@[simp] theorem length_bigEndian (size value : Nat) : (bigEndian size value).length = size := by
  induction size with
  | zero => rfl
  | succ size ih => simp [bigEndian, ih]

theorem ofBigEndian_bigEndian (size value : Nat) :
    ofBigEndian (bigEndian size value) = value % 256 ^ size := by
  induction size with
  | zero => simp [bigEndian, ofBigEndian, Nat.mod_one]
  | succ size ih =>
    have hpow : 256 ^ (size + 1) = 256 ^ size * 256 := pow_succ 256 size
    have hoctet : (UInt8.ofNat (value / 256 ^ size)).toNat = value / 256 ^ size % 256 :=
      UInt8.toNat_ofNat'
    simp only [bigEndian, ofBigEndian, ih, length_bigEndian, hoctet]
    rw [hpow, Nat.mod_mul]
    ring

def bitLength (value : UInt64) : Nat :=
  if value = 0 then 0 else value.toNat.log2 + 1

theorem lt_two_pow_bitLength (value : UInt64) : value.toNat < 2 ^ bitLength value := by
  rw [bitLength]
  split
  case isTrue hzero => simp [hzero]
  case isFalse => exact Nat.lt_log2_self

def digitCount (value : Nat) : Nat :=
  value.log2 / 8 + 1

theorem lt_pow_digitCount (value : Nat) : value < 256 ^ digitCount value := by
  have hbits : value.log2 + 1 ≤ 8 * digitCount value := by
    rw [digitCount]
    omega
  calc value < 2 ^ (value.log2 + 1) := Nat.lt_log2_self
    _ ≤ 2 ^ (8 * digitCount value) := Nat.pow_le_pow_right (by decide) hbits
    _ = 256 ^ digitCount value := by rw [Nat.pow_mul]

def classBits : TagClass → Nat
  | .universal => 0
  | .application => 1
  | .contextSpecific => 2
  | .privateUse => 3

def classOfBits : Nat → TagClass
  | 0 => .universal
  | 1 => .application
  | 2 => .contextSpecific
  | _ => .privateUse

def encodeTag (tag : Tag) : List UInt8 :=
  [UInt8.ofNat (64 * classBits tag.cls + 32 * tag.constructed.toNat + tag.number)]

def decodeTag : List UInt8 → Option (Tag × List UInt8)
  | [] => none
  | octet :: rest =>
    if octet.toNat % 32 = 31 then none
    else some (⟨classOfBits (octet.toNat / 64), octet.toNat / 32 % 2 = 1, octet.toNat % 32⟩, rest)

/-- The octet 0xFF, which DER reserves, stands for 127 more digits, so that every length has an
encoding. -/
def encodeLen (len : Nat) : List UInt8 :=
  if len < 128 then [UInt8.ofNat len]
  else
    List.replicate (digitCount len / 127) 0xFF ++
      UInt8.ofNat (0x80 + digitCount len % 127) :: bigEndian (digitCount len) len

def readCount : List UInt8 → Option (Nat × List UInt8)
  | [] => none
  | first :: rest =>
    if first = 0xFF then (readCount rest).map fun (count, rest) => (count + 127, rest)
    else if first < 0x80 then none
    else some (first.toNat - 0x80, rest)

def fitting (len : Nat) (rest : List UInt8) : Option (Nat × List UInt8) :=
  if len ≤ rest.length then some (len, rest) else none

def decodeDigits (counted : Nat × List UInt8) : Option (Nat × List UInt8) :=
  if counted.1 ≤ counted.2.length then
    fitting (ofBigEndian (counted.2.take counted.1)) (counted.2.drop counted.1)
  else none

def decodeLen : List UInt8 → Option (Nat × List UInt8)
  | [] => none
  | first :: rest =>
    if first < 0x80 then fitting first.toNat rest
    else (readCount (first :: rest)).bind decodeDigits

def readUnsigned (octets : List UInt8) : Option UInt64 :=
  if ofBigEndian octets < 2 ^ 64 then some (UInt64.ofNat (ofBigEndian octets)) else none

def primitives : Primitives where
  encodeTag := encodeTag
  decodeTag := decodeTag
  encodeLen := encodeLen
  decodeLen := decodeLen
  encodeUnsigned value := bigEndian (bitLength value / 8 + 1) value.toNat
  readUnsigned := readUnsigned
  bitLength := bitLength
  writePadded value size := bigEndian size value.toNat

theorem classOfBits_classBits (cls : TagClass) : classOfBits (classBits cls) = cls := by
  cases cls <;> rfl

theorem decodeTag_encodeTag (tag : Tag) (rest : List UInt8) (ht : tag.number < 31) :
    decodeTag (encodeTag tag ++ rest) = some (tag, rest) := by
  obtain ⟨cls, constructed, number⟩ := tag
  have hcls : classBits cls < 4 := by cases cls <;> decide
  have hflag : constructed.toNat < 2 := by cases constructed <;> decide
  simp only at ht
  have hoctet : (UInt8.ofNat (64 * classBits cls + 32 * constructed.toNat + number)).toNat =
      64 * classBits cls + 32 * constructed.toNat + number := by
    rw [UInt8.toNat_ofNat']
    omega
  have hnumber : (64 * classBits cls + 32 * constructed.toNat + number) % 32 = number := by omega
  have hbits : (64 * classBits cls + 32 * constructed.toNat + number) / 64 = classBits cls := by
    omega
  have hconstructed :
      (64 * classBits cls + 32 * constructed.toNat + number) / 32 % 2 = constructed.toNat := by
    omega
  have hlow : number ≠ 31 := by omega
  simp only [encodeTag, decodeTag, List.cons_append, List.nil_append, hoctet, hnumber, hbits,
    hconstructed, classOfBits_classBits, hlow, if_false]
  cases constructed <;> rfl

theorem decodeTag_reads (octets : List UInt8) (tag : Tag) (rest : List UInt8)
    (hread : decodeTag octets = some (tag, rest)) :
    ∃ head, head ≠ [] ∧ octets = head ++ rest ∧
      ∀ rest', decodeTag (head ++ rest') = some (tag, rest') := by
  cases octets with
  | nil => cases hread
  | cons octet more =>
    rw [decodeTag] at hread
    split at hread
    case isTrue => cases hread
    case isFalse hlow =>
      simp only [Option.some.injEq, Prod.mk.injEq] at hread
      obtain ⟨htag, rfl⟩ := hread
      refine ⟨[octet], by simp, rfl, ?_⟩
      intro rest'
      simp [decodeTag, hlow, htag]

theorem readCount_replicate (count digits : Nat) (hdigits : digits < 127) (rest : List UInt8) :
    readCount (List.replicate count 0xFF ++ UInt8.ofNat (0x80 + digits) :: rest) =
      some (127 * count + digits, rest) := by
  induction count with
  | zero =>
    have hnat : (UInt8.ofNat (0x80 + digits)).toNat = 0x80 + digits := by
      rw [UInt8.toNat_ofNat']
      omega
    have hlast : UInt8.ofNat (0x80 + digits) ≠ 0xFF := by
      intro heq
      rw [heq] at hnat
      simp at hnat
      omega
    have hlarge : ¬ UInt8.ofNat (0x80 + digits) < 0x80 := by
      rw [UInt8.lt_iff_toNat_lt, hnat]
      simp
    generalize UInt8.ofNat (0x80 + digits) = last at hnat hlast hlarge
    simp [readCount, hlast, hlarge, hnat]
  | succ count ih =>
    simp only [List.replicate_succ, List.cons_append, readCount, if_true, ih, Option.map_some]
    congr 2
    ring

theorem readCount_reads : ∀ (octets : List UInt8) (count : Nat) (rest : List UInt8),
    readCount octets = some (count, rest) →
    ∃ head, head ≠ [] ∧ octets = head ++ rest ∧
      ∀ rest', readCount (head ++ rest') = some (count, rest')
  | [], count, rest, hread => by cases hread
  | first :: more, count, rest, hread => by
    rw [readCount] at hread
    split at hread
    case isTrue hmore =>
      cases htail : readCount more with
      | none => simp [htail] at hread
      | some result =>
        obtain ⟨count', rest''⟩ := result
        obtain ⟨head, hne, rfl, hreads⟩ := readCount_reads more count' rest'' htail
        simp only [htail, Option.map_some, Option.some.injEq, Prod.mk.injEq] at hread
        obtain ⟨rfl, rfl⟩ := hread
        refine ⟨first :: head, by simp, by simp, ?_⟩
        intro rest'
        simp [readCount, hmore, hreads]
    case isFalse hlast =>
      split at hread
      case isTrue => cases hread
      case isFalse hlarge =>
        simp only [Option.some.injEq, Prod.mk.injEq] at hread
        obtain ⟨hcount, rfl⟩ := hread
        refine ⟨[first], by simp, rfl, ?_⟩
        intro rest'
        simp [readCount, hlast, hlarge, hcount]

theorem encodeLen_definite (len : Nat) : (encodeLen len).head? ≠ some 0x80 := by
  rw [encodeLen]
  split
  case isTrue hshort =>
    intro hhead
    have hoctet : UInt8.ofNat len = 0x80 := by simpa using hhead
    have hnat : (UInt8.ofNat len).toNat = len := by
      rw [UInt8.toNat_ofNat']
      omega
    rw [hoctet] at hnat
    simp at hnat
    omega
  case isFalse hlong =>
    have hpos : 1 ≤ digitCount len := by simp [digitCount]
    cases hcount : digitCount len / 127 with
    | zero =>
      have hnat : (UInt8.ofNat (0x80 + digitCount len % 127)).toNat =
          0x80 + digitCount len % 127 := by
        rw [UInt8.toNat_ofNat']
        omega
      intro hhead
      have hoctet : UInt8.ofNat (0x80 + digitCount len % 127) = 0x80 := by simpa using hhead
      rw [hoctet] at hnat
      simp at hnat
      omega
    | succ count => simp [List.replicate_succ]

theorem digitCount_mono {len len' : Nat} (h : len ≤ len') : digitCount len ≤ digitCount len' := by
  rw [digitCount, digitCount, Nat.log2_eq_log_two, Nat.log2_eq_log_two]
  have hlog : Nat.log 2 len ≤ Nat.log 2 len' := Nat.log_mono_right h
  omega

theorem length_encodeLen_mono {len len' : Nat} (h : len ≤ len') :
    (encodeLen len).length ≤ (encodeLen len').length := by
  have hdigits := digitCount_mono h
  rw [encodeLen, encodeLen]
  split_ifs with hshort hshort'
  · exact Nat.le_refl _
  · rw [List.length_singleton, List.length_append, List.length_cons]
    omega
  · omega
  · simp only [List.length_append, List.length_replicate, List.length_cons, length_bigEndian]
    have hblocks := Nat.div_le_div_right (c := 127) hdigits
    omega

theorem decodeLen_encodeLen (len : Nat) (rest : List UInt8) (hfits : len ≤ rest.length) :
    decodeLen (encodeLen len ++ rest) = some (len, rest) := by
  rw [encodeLen]
  split
  case isTrue hshort =>
    have hnat : (UInt8.ofNat len).toNat = len := by
      rw [UInt8.toNat_ofNat']
      omega
    have hsmall : UInt8.ofNat len < 0x80 := by
      rw [UInt8.lt_iff_toNat_lt, hnat]
      simpa using hshort
    simp [decodeLen, hsmall, hnat, fitting, hfits]
  case isFalse hlong =>
    have hread := readCount_replicate (digitCount len / 127) (digitCount len % 127)
      (Nat.mod_lt _ (by decide)) (bigEndian (digitCount len) len ++ rest)
    rw [Nat.div_add_mod] at hread
    have hvalue : ofBigEndian (bigEndian (digitCount len) len) = len := by
      rw [ofBigEndian_bigEndian, Nat.mod_eq_of_lt (lt_pow_digitCount len)]
    have hdigits : decodeDigits (digitCount len, bigEndian (digitCount len) len ++ rest) =
        some (len, rest) := by
      have hlength := length_bigEndian (digitCount len) len
      simp [decodeDigits, List.take_left' hlength, List.drop_left' hlength, hvalue, fitting, hfits]
    rw [List.append_assoc, List.cons_append]
    cases hcoded : List.replicate (digitCount len / 127) (0xFF : UInt8) ++
        UInt8.ofNat (0x80 + digitCount len % 127) :: (bigEndian (digitCount len) len ++ rest) with
    | nil => simp at hcoded
    | cons first more =>
      have hlarge : ¬ first < 0x80 := by
        intro hsmall
        rw [hcoded] at hread
        have hother : first ≠ 0xFF := by
          intro heq
          subst heq
          exact absurd hsmall (by decide)
        simp [readCount, hother, hsmall] at hread
      rw [hcoded] at hread
      simp only [decodeLen, hlarge, if_false, hread, Option.bind_some, hdigits]

theorem fitting_some {len len' : Nat} {octets rest : List UInt8}
    (hread : fitting len octets = some (len', rest)) :
    len' = len ∧ rest = octets ∧ len ≤ octets.length := by
  rw [fitting] at hread
  split at hread
  case isTrue hfits =>
    simp only [Option.some.injEq, Prod.mk.injEq] at hread
    exact ⟨hread.1.symm, hread.2.symm, hfits⟩
  case isFalse => cases hread

theorem decodeLen_reads (octets : List UInt8) (len : Nat) (rest : List UInt8)
    (hread : decodeLen octets = some (len, rest)) :
    len ≤ rest.length ∧ ∃ head, head ≠ [] ∧ octets = head ++ rest ∧
      ∀ rest', len ≤ rest'.length → decodeLen (head ++ rest') = some (len, rest') := by
  cases octets with
  | nil => cases hread
  | cons first more =>
    rw [decodeLen] at hread
    split at hread
    case isTrue hsmall =>
      obtain ⟨rfl, rfl, hfits⟩ := fitting_some hread
      refine ⟨hfits, [first], by simp, rfl, ?_⟩
      intro rest' hrest'
      simp [decodeLen, hsmall, fitting, hrest']
    case isFalse hlarge =>
      cases hcount : readCount (first :: more) with
      | none => simp [hcount] at hread
      | some counted =>
        obtain ⟨count, body⟩ := counted
        obtain ⟨countHead, hne, hsplit, hreads⟩ := readCount_reads _ _ _ hcount
        simp only [hcount, Option.bind_some, decodeDigits] at hread
        split at hread
        case isFalse => cases hread
        case isTrue hdigits =>
          obtain ⟨rfl, rfl, hfits⟩ := fitting_some hread
          refine ⟨hfits, countHead ++ body.take count, by simp [hne], by simp [hsplit], ?_⟩
          intro rest' hrest'
          have hlength : (body.take count).length = count := List.length_take_of_le hdigits
          cases countHead with
          | nil => exact absurd rfl hne
          | cons first' more' =>
            have hfirst : first' = first := by
              simp only [List.cons_append, List.cons.injEq] at hsplit
              exact hsplit.1.symm
            subst hfirst
            have hread' := hreads (body.take count ++ rest')
            rw [List.cons_append] at hread'
            simp only [List.append_assoc, List.cons_append, decodeLen, hlarge, if_false, hread',
              Option.bind_some, decodeDigits]
            simp [hlength, List.take_left' hlength, List.drop_left' hlength, fitting, hrest']

theorem readUnsigned_bigEndian (size : Nat) (value : UInt64)
    (hfits : value.toNat < 256 ^ size) :
    readUnsigned (bigEndian size value.toNat) = some value := by
  have hvalue : ofBigEndian (bigEndian size value.toNat) = value.toNat := by
    rw [ofBigEndian_bigEndian, Nat.mod_eq_of_lt hfits]
  have hbound : value.toNat < 2 ^ 64 := value.toNat_lt
  rw [readUnsigned, hvalue, if_pos hbound, UInt64.ofNat_toNat]

theorem lt_pow_of_bitLength_le {value : UInt64} {size : Nat}
    (hsize : bitLength value ≤ 8 * size) : value.toNat < 256 ^ size := by
  calc value.toNat < 2 ^ bitLength value := lt_two_pow_bitLength value
    _ ≤ 2 ^ (8 * size) := Nat.pow_le_pow_right (by decide) hsize
    _ = 256 ^ size := by rw [Nat.pow_mul]

theorem bigEndian_first_lt (value : UInt64) :
    UInt8.ofNat (value.toNat / 256 ^ (bitLength value / 8)) < 0x80 := by
  have hquotient : value.toNat / 256 ^ (bitLength value / 8) < 128 := by
    rw [Nat.div_lt_iff_lt_mul (Nat.pow_pos (by decide))]
    calc value.toNat < 2 ^ bitLength value := lt_two_pow_bitLength value
      _ ≤ 2 ^ (7 + 8 * (bitLength value / 8)) :=
        Nat.pow_le_pow_right (by decide) (by omega)
      _ = 128 * 256 ^ (bitLength value / 8) := by rw [Nat.pow_add, Nat.pow_mul]
  rw [UInt8.lt_iff_toNat_lt, UInt8.toNat_ofNat']
  exact lt_of_le_of_lt (Nat.mod_le _ _) hquotient

theorem primitives_correct : primitives.Correct where
  decodeTag_encodeTag := decodeTag_encodeTag
  decodeTag_reads := decodeTag_reads
  decodeLen_encodeLen := decodeLen_encodeLen
  decodeLen_reads := decodeLen_reads
  encodeLen_definite := encodeLen_definite
  encodeUnsigned_nonneg value := ⟨_, _, rfl, bigEndian_first_lt value⟩
  readUnsigned_encodeUnsigned value :=
    readUnsigned_bigEndian _ value (lt_pow_of_bitLength_le (by omega))
  writePadded_length value size := length_bigEndian size value.toNat
  readUnsigned_writePadded value size hsize :=
    readUnsigned_bigEndian size value (lt_pow_of_bitLength_le hsize)
end DER.Standard
