import SecurityFramework.Library.DerStandard

/-! # Numbers -/

namespace SecurityFramework
open DER

abbrev LongLong := BitVec 64

def ccderInteger : Tag := ⟨.universal, false, 0x02⟩

def byteOf (byteNumber : Nat) (value : LongLong) : BitVec 8 :=
  (value.sshiftRight (8 * (byteNumber - 1))).setWidth 8

/-- Leave off leading octets equal to the first, all but the last one. -/
def skipInitial (value : LongLong) (firstByte : BitVec 8) : Nat → Nat
  | 0 => 0
  | 1 => 1
  | bytesEncoded + 2 =>
    if byteOf (bytesEncoded + 2) value = firstByte then
      skipInitial value firstByte (bytesEncoded + 1)
    else bytesEncoded + 2

def bytesWhenEncoded (value : LongLong) : Nat :=
  let firstByte := byteOf 8 value
  if firstByte = 0xFF ∨ firstByte = 0x00 then
    let bytesEncoded := skipInitial value firstByte 7
    -- one of the octets left off is needed for the sign
    if firstByte &&& 0x80 ≠ byteOf bytesEncoded value &&& 0x80 then bytesEncoded + 1
    else bytesEncoded
  else 8

def numberOctets : Nat → LongLong → List UInt8 → List UInt8
  | 0, _, octets => octets
  | bytes + 1, value, octets =>
    numberOctets bytes (value.sshiftRight 8) (⟨value.setWidth 8⟩ :: octets)

def derSizeofNumber (der : Primitives) (value : LongLong) : Nat :=
  sizeof der ccderInteger (bytesWhenEncoded value)

def derEncodeNumber (der : Primitives) (value : LongLong) (buffer : Output) : Output :=
  let firstByteToInclude := bytesWhenEncoded value
  encodeTl der ccderInteger firstByteToInclude
    (encodeBody (numberOctets firstByteToInclude value []) buffer)

def padNegative (value : LongLong) : Nat → LongLong
  | 0 => value
  | i + 1 => padNegative value i ||| (0xFF#64 <<< ((8 - (i + 1)) * 8))

def appendOctet (value : LongLong) (octet : UInt8) : LongLong :=
  value <<< 8 ||| octet.toBitVec.setWidth 64

def numberOfOctets (payload : List UInt8) : LongLong :=
  let value := payload.foldl appendOctet 0
  match payload with
  | [] => value
  | first :: _ =>
    if first &&& 0x80 = 0x80 then padNegative value (8 - payload.length) else value

def derDecodeNumber (der : Primitives) (octets : List UInt8) :
    Option (LongLong × List UInt8) := do
  let (payloadSize, payload) ← decodeTl der ccderInteger octets
  if payloadSize > 8 then none
  else some (numberOfOctets (payload.take payloadSize), payload.drop payloadSize)

theorem getLsbD_byteOf (byteNumber : Nat) (value : LongLong) (hbyte : 1 ≤ byteNumber)
    (hle : byteNumber ≤ 8) (i : Nat) (hi : i < 8) :
    (byteOf byteNumber value).getLsbD i = value.getLsbD (8 * (byteNumber - 1) + i) := by
  have hin : 8 * (byteNumber - 1) + i < 64 := by omega
  have hlow : ¬ 64 ≤ i := by omega
  simp [byteOf, BitVec.getLsbD_sshiftRight, hi, hin, hlow]

/-- The octets above these repeat the sign bit of the highest of them. -/
def SignExtends (value : LongLong) (bytes : Nat) : Prop :=
  ∀ i, 8 * bytes ≤ i → i < 64 → value.getLsbD i = value.getLsbD (8 * bytes - 1)

variable (value : LongLong)

theorem skipInitial_spec (firstByte : BitVec 8) (bytes : Nat) (hbytes : 1 ≤ bytes) :
    1 ≤ skipInitial value firstByte bytes ∧ skipInitial value firstByte bytes ≤ bytes ∧
      ∀ k, skipInitial value firstByte bytes < k → k ≤ bytes → byteOf k value = firstByte := by
  induction bytes with
  | zero => omega
  | succ bytes ih =>
    cases bytes with
    | zero =>
      refine ⟨by simp [skipInitial], by simp [skipInitial], ?_⟩
      intro k hlow hhigh
      simp [skipInitial] at hlow
      omega
    | succ bytes =>
      obtain ⟨hpos, hle, hskipped⟩ := ih (by omega)
      rw [skipInitial]
      split
      case isTrue hsame =>
        refine ⟨hpos, by omega, ?_⟩
        intro k hlow hhigh
        by_cases hlast : k = bytes + 2
        · rw [hlast]
          exact hsame
        · exact hskipped k hlow (by omega)
      case isFalse =>
        refine ⟨by omega, by omega, ?_⟩
        intro k hlow hhigh
        omega

theorem topBit_mask : ∀ i, i < 7 → (0x80 : BitVec 8).getLsbD i = false := by decide

theorem topBit_eq_iff (x y : BitVec 8) :
    x &&& 0x80 = y &&& 0x80 ↔ x.getLsbD 7 = y.getLsbD 7 := by
  constructor
  · intro heq
    have hbit := congrArg (fun b : BitVec 8 => b.getLsbD 7) heq
    simpa using hbit
  · intro hbit
    apply BitVec.eq_of_getLsbD_eq
    intro i hi
    by_cases htop : i = 7
    · rw [htop, BitVec.getLsbD_and, BitVec.getLsbD_and, hbit]
    · rw [BitVec.getLsbD_and, BitVec.getLsbD_and, topBit_mask i (by omega), Bool.and_false,
        Bool.and_false]

theorem getLsbD_above (sign : Bool) (kept : Nat)
    (habove : ∀ k, kept < k → k ≤ 8 → ∀ i, i < 8 → (byteOf k value).getLsbD i = sign) :
    ∀ i, 8 * kept ≤ i → i < 64 → value.getLsbD i = sign := by
  intro i hlow hhigh
  have hbyte := habove (i / 8 + 1) (by omega) (by omega) (i % 8) (Nat.mod_lt _ (by decide))
  rw [getLsbD_byteOf _ _ (by omega) (by omega) _ (Nat.mod_lt _ (by decide))] at hbyte
  have hindex : 8 * (i / 8 + 1 - 1) + i % 8 = i := by omega
  rwa [hindex] at hbyte

theorem getLsbD_ones : ∀ i, i < 8 → (0xFF : BitVec 8).getLsbD i = true := by decide

theorem bytesWhenEncoded_spec :
    1 ≤ bytesWhenEncoded value ∧ bytesWhenEncoded value ≤ 8 ∧
      SignExtends value (bytesWhenEncoded value) := by
  obtain ⟨hpos, hle, hskipped⟩ := skipInitial_spec value (byteOf 8 value) 7 (by omega)
  simp only [bytesWhenEncoded]
  split
  case isFalse =>
    refine ⟨by omega, by omega, ?_⟩
    intro i hlow hhigh
    omega
  case isTrue hfirst =>
    generalize hkept : skipInitial value (byteOf 8 value) 7 = kept at hpos hle hskipped
    have hsign : ∀ i, i < 8 → (byteOf 8 value).getLsbD i = (byteOf 8 value).getLsbD 7 := by
      intro i hi
      cases hfirst with
      | inl hones => rw [hones, getLsbD_ones i hi, getLsbD_ones 7 (by decide)]
      | inr hzeros => simp [hzeros]
    have habove := getLsbD_above value ((byteOf 8 value).getLsbD 7) kept (by
      intro k hlow hhigh i hi
      by_cases hlast : k = 8
      · rw [hlast]
        exact hsign i hi
      · rw [hskipped k hlow (by omega)]
        exact hsign i hi)
    split
    case isTrue =>
      refine ⟨by omega, by omega, ?_⟩
      intro i hlow hhigh
      rw [habove i (by omega) hhigh, habove (8 * (kept + 1) - 1) (by omega) (by omega)]
    case isFalse hsame =>
      have htop := (topBit_eq_iff _ _).mp (not_not.mp hsame)
      rw [getLsbD_byteOf kept value hpos (by omega) 7 (by decide)] at htop
      have hindex : 8 * (kept - 1) + 7 = 8 * kept - 1 := by omega
      rw [hindex] at htop
      refine ⟨hpos, by omega, ?_⟩
      intro i hlow hhigh
      rw [habove i hlow hhigh, htop]

theorem byteOf_skipInitial_ne (firstByte : BitVec 8) (bytes : Nat)
    (hkept : 1 < skipInitial value firstByte bytes) :
    byteOf (skipInitial value firstByte bytes) value ≠ firstByte := by
  induction bytes with
  | zero => simp [skipInitial] at hkept
  | succ bytes ih =>
    cases bytes with
    | zero => simp [skipInitial] at hkept
    | succ bytes =>
      rw [skipInitial] at hkept ⊢
      split
      case isTrue hsame =>
        rw [if_pos hsame] at hkept
        exact ih hkept
      case isFalse hother => exact hother

/-- The octets above those that say the number are all the sign. -/
theorem byteOf_of_signExtends {bytes : Nat} (hpos : 1 ≤ bytes) (hsign : SignExtends value bytes)
    (k : Nat) (hlow : bytes < k) (hhigh : k ≤ 8) (i : Nat) (hi : i < 8) :
    (byteOf k value).getLsbD i = value.getLsbD (8 * bytes - 1) := by
  rw [getLsbD_byteOf _ _ (by omega) hhigh _ hi]
  exact hsign _ (by omega) (by omega)

theorem eq_ones_or_zeros (sign : Bool) (octet : BitVec 8)
    (hbits : ∀ i, i < 8 → octet.getLsbD i = sign) : octet = 0xFF ∨ octet = 0x00 := by
  cases sign with
  | true =>
    left
    apply BitVec.eq_of_getLsbD_eq
    intro i hi
    rw [hbits i hi, getLsbD_ones i hi]
  | false =>
    right
    apply BitVec.eq_of_getLsbD_eq
    intro i hi
    rw [hbits i hi]
    exact (BitVec.getLsbD_zero).symm

theorem bytesWhenEncoded_le {bytes : Nat} (hpos : 1 ≤ bytes) (hsign : SignExtends value bytes) :
    bytesWhenEncoded value ≤ bytes := by
  by_cases hall : 8 ≤ bytes
  · have hle := (bytesWhenEncoded_spec value).2.1
    omega
  have habove := byteOf_of_signExtends value hpos hsign
  have hfirst := eq_ones_or_zeros _ _ (habove 8 (by omega) (by omega))
  have hsame : ∀ k, bytes < k → k ≤ 8 → byteOf k value = byteOf 8 value := by
    intro k hlow hhigh
    apply BitVec.eq_of_getLsbD_eq
    intro i hi
    rw [habove k hlow hhigh i hi, habove 8 (by omega) (by omega) i hi]
  obtain ⟨hkept, hle, hskipped⟩ := skipInitial_spec value (byteOf 8 value) 7 (by omega)
  have hstops := byteOf_skipInitial_ne value (byteOf 8 value) 7
  simp only [bytesWhenEncoded]
  rw [if_pos hfirst]
  generalize skipInitial value (byteOf 8 value) 7 = kept at hkept hle hskipped hstops
  have hfew : kept ≤ bytes := by
    by_contra hmore
    exact hstops (by omega) (hsame kept (by omega) (by omega))
  by_cases hlast : kept = bytes
  · have htop : byteOf 8 value &&& 0x80 = byteOf kept value &&& 0x80 := by
      rw [topBit_eq_iff, habove 8 (by omega) (by omega) 7 (by decide),
        getLsbD_byteOf _ _ hkept (by omega) 7 (by decide), hlast]
      congr 1
      omega
    rw [if_neg (not_not.mpr htop)]
    exact hfew
  · split <;> omega

/-- Octets say the number where the others repeat their sign. -/
theorem signExtends_iff {bytes : Nat} (hpos : 1 ≤ bytes) (hle : bytes ≤ 8) :
    SignExtends value bytes ↔
      ∃ content : BitVec (8 * bytes), content.toInt = value.toInt := by
  constructor
  · intro hsign
    refine ⟨value.setWidth (8 * bytes), ?_⟩
    have hextended : (value.setWidth (8 * bytes)).signExtend 64 = value := by
      apply BitVec.eq_of_getLsbD_eq
      intro i hi
      rw [BitVec.getLsbD_signExtend, BitVec.msb_eq_getLsbD_last]
      by_cases hin : i < 8 * bytes
      · simp [hin, hi]
      · have hlast : 8 * bytes - 1 < 8 * bytes := by omega
        rw [hsign i (by omega) hi]
        simp [hin, hi, hlast]
    rw [← @BitVec.toInt_signExtend_of_le _ 64 _ (by omega), hextended]
  · rintro ⟨content, hcontent⟩ i hlow hhigh
    have hextended : content.signExtend 64 = value := by
      apply BitVec.eq_of_toInt_eq
      rw [BitVec.toInt_signExtend_of_le (by omega), hcontent]
    have hin : ¬ i < 8 * bytes := by omega
    have hlast : 8 * bytes - 1 < 8 * bytes := by omega
    have hword : 8 * bytes - 1 < 64 := by omega
    rw [← hextended, BitVec.getLsbD_signExtend, BitVec.getLsbD_signExtend,
      BitVec.msb_eq_getLsbD_last]
    simp [hin, hlast, hhigh, hword]

theorem numberOctets_append (bytes : Nat) (value : LongLong) (octets : List UInt8) :
    numberOctets bytes value octets = numberOctets bytes value [] ++ octets := by
  induction bytes generalizing value octets with
  | zero => rfl
  | succ bytes ih =>
    simp only [numberOctets]
    rw [ih _ (_ :: octets), ih _ [_], List.append_assoc]
    rfl

@[simp] theorem length_numberOctets (bytes : Nat) (value : LongLong) (octets : List UInt8) :
    (numberOctets bytes value octets).length = bytes + octets.length := by
  induction bytes generalizing value octets with
  | zero => simp [numberOctets]
  | succ bytes ih =>
    simp only [numberOctets, ih, List.length_cons]
    omega

theorem getLsbD_foldl_numberOctets (bytes : Nat) (value : LongLong) (i : Nat) (hi : i < 64) :
    ((numberOctets bytes value []).foldl appendOctet 0).getLsbD i =
      (decide (i < 8 * bytes) && value.getLsbD i) := by
  induction bytes generalizing value i with
  | zero => simp [numberOctets]
  | succ bytes ih =>
    rw [numberOctets, numberOctets_append, List.foldl_append]
    simp only [List.foldl_cons, List.foldl_nil, appendOctet, BitVec.getLsbD_or,
      BitVec.getLsbD_shiftLeft, BitVec.getLsbD_setWidth]
    by_cases hlow : i < 8
    · have hin : i < 8 * (bytes + 1) := by omega
      simp [hlow, hi, hin]
    · have hshift : 8 + (i - 8) = i := by omega
      have hrest := ih (value.sshiftRight 8) (i - 8) (by omega)
      have hbound : i - 8 < 8 * bytes ↔ i < 8 * (bytes + 1) := by omega
      have hin : ¬ 64 ≤ i - 8 := by omega
      rw [hrest]
      simp [hlow, hi, BitVec.getLsbD_sshiftRight, hshift, hbound, hin]

theorem head_numberOctets (bytes : Nat) (value : LongLong) (octets : List UInt8) :
    (numberOctets (bytes + 1) value octets).head? = some ⟨byteOf (bytes + 1) value⟩ := by
  induction bytes generalizing value octets with
  | zero => simp [numberOctets, byteOf]
  | succ bytes ih =>
    rw [numberOctets, ih]
    have hshift : byteOf (bytes + 1) (value.sshiftRight 8) = byteOf (bytes + 2) value := by
      have htwice : 8 + 8 * (bytes + 1 - 1) = 8 * (bytes + 2 - 1) := by omega
      rw [byteOf, byteOf, ← BitVec.sshiftRight_add, htwice]
    rw [hshift]

theorem getLsbD_padNegative (pad : Nat) (hpad : pad ≤ 8) (i : Nat) (hi : i < 64) :
    (padNegative value pad).getLsbD i = (value.getLsbD i || decide (64 ≤ i + 8 * pad)) := by
  induction pad with
  | zero =>
    have hout : ¬ 64 ≤ i := by omega
    simp [padNegative, hout]
  | succ pad ih =>
    have hones : ∀ j, (0xFF#64).getLsbD j = decide (j < 8) := by
      intro j
      have hmask : (0xFF#64) = (BitVec.allOnes 8).setWidth 64 := rfl
      rw [hmask, BitVec.getLsbD_setWidth, BitVec.getLsbD_allOnes]
      by_cases hj : j < 8
      · have hin : j < 64 := by omega
        simp [hj, hin]
      · simp [hj]
    have hplace : (decide (i < 64) && !decide (i < (8 - (pad + 1)) * 8) &&
        decide (i - (8 - (pad + 1)) * 8 < 8)) =
        decide (64 ≤ i + 8 * (pad + 1) ∧ i + 8 * pad < 64) := by
      rw [Bool.eq_iff_iff]
      simp only [Bool.and_eq_true, Bool.not_eq_true', decide_eq_true_eq, decide_eq_false_iff_not]
      omega
    rw [padNegative, BitVec.getLsbD_or, ih (by omega), BitVec.getLsbD_shiftLeft, hones, hplace,
      Bool.or_assoc, ← Bool.decide_or]
    have hcases : (64 ≤ i + 8 * pad ∨ 64 ≤ i + 8 * (pad + 1) ∧ i + 8 * pad < 64) ↔
        64 ≤ i + 8 * (pad + 1) := by omega
    simp only [hcases]

theorem topBit_set_iff (x : BitVec 8) :
    (⟨x⟩ : UInt8) &&& 0x80 = 0x80 ↔ x.getLsbD 7 = true := by
  have hsame := topBit_eq_iff x 0x80
  have hmask : (0x80 : BitVec 8) &&& 0x80 = 0x80 := rfl
  have htop : (0x80 : BitVec 8).getLsbD 7 = true := rfl
  rw [hmask, htop] at hsame
  rw [← hsame]
  constructor
  · intro heq
    exact congrArg UInt8.toBitVec heq
  · intro heq
    exact UInt8.eq_of_toBitVec_eq heq

theorem numberOfOctets_numberOctets (bytes : Nat) (hpos : 1 ≤ bytes) (hle : bytes ≤ 8)
    (hsign : SignExtends value bytes) :
    numberOfOctets (numberOctets bytes value []) = value := by
  obtain ⟨more, rfl⟩ : ∃ more, bytes = more + 1 := ⟨bytes - 1, by omega⟩
  have hhead := head_numberOctets more value []
  have hlength := length_numberOctets (more + 1) value []
  have hfold := getLsbD_foldl_numberOctets (more + 1) value
  have htop := getLsbD_byteOf (more + 1) value (by omega) hle 7 (by decide)
  have hindex : 8 * (more + 1 - 1) + 7 = 8 * (more + 1) - 1 := by omega
  rw [hindex] at htop
  generalize numberOctets (more + 1) value [] = payload at hhead hlength hfold
  cases payload with
  | nil => simp at hhead
  | cons first rest =>
    simp only [List.head?_cons, Option.some.injEq] at hhead
    subst hhead
    simp only [numberOfOctets, topBit_set_iff, htop]
    split
    case isTrue hneg =>
      apply BitVec.eq_of_getLsbD_eq
      intro i hi
      rw [getLsbD_padNegative _ _ (by omega) i hi, hfold i hi, hlength]
      by_cases hin : i < 8 * (more + 1)
      · have hout : ¬ 64 ≤ i + 8 * (8 - (more + 1 + 0)) := by omega
        simp only [List.length_nil, hin, hout, decide_true, decide_false, Bool.true_and,
          Bool.or_false]
      · have hout : 64 ≤ i + 8 * (8 - (more + 1 + 0)) := by omega
        have hext := hsign i (by omega) hi
        rw [hext, hneg]
        simp only [List.length_nil, hout, decide_true, Bool.or_true]
    case isFalse hnonneg =>
      apply BitVec.eq_of_getLsbD_eq
      intro i hi
      rw [hfold i hi]
      by_cases hin : i < 8 * (more + 1)
      · simp [hin]
      · have hext := hsign i (by omega) hi
        rw [hext, Bool.eq_false_iff.mpr hnonneg, Bool.and_false]

def numberContent (value : LongLong) : List UInt8 :=
  numberOctets (bytesWhenEncoded value) value []

@[simp] theorem length_numberContent :
    (numberContent value).length = bytesWhenEncoded value := by
  simp [numberContent]

theorem numberOfOctets_numberContent :
    numberOfOctets (numberContent value) = value := by
  obtain ⟨hpos, hle, hsign⟩ := bytesWhenEncoded_spec value
  exact numberOfOctets_numberOctets value _ hpos hle hsign

theorem writes_derEncodeNumber (der : Primitives) (value : LongLong) :
    Writes (derEncodeNumber der value) (element der ccderInteger (numberContent value)) := by
  intro room written
  have hwrites := Writes.octets der ccderInteger (numberContent value) room written
  rwa [encodeOctets, length_numberContent] at hwrites

theorem derDecodeNumber_element {der : Primitives} (hder : der.Correct) (value : LongLong)
    (rest : List UInt8) :
    derDecodeNumber der (element der ccderInteger (numberContent value) ++ rest) =
      some (value, rest) := by
  obtain ⟨hpos, hle, hsign⟩ := bytesWhenEncoded_spec value
  have hfits : ¬ bytesWhenEncoded value > 8 := by omega
  rw [derDecodeNumber, decodeTl_element hder _ (by decide), length_numberContent]
  have hlength := length_numberContent value
  simp [hfits, List.take_left' hlength, List.drop_left' hlength, numberOfOctets_numberContent]

/-- Every number is written in the fewest octets that say it in two's complement, and these are read
back as it. -/
theorem derNumber_minimal_roundTrip {der : Primitives} (hder : der.Correct) (value : LongLong)
    (rest : List UInt8) :
    IsLeast {bytes | 0 < bytes ∧ ∃ content : BitVec (8 * bytes), content.toInt = value.toInt}
        (bytesWhenEncoded value) ∧
      (numberContent value).length = bytesWhenEncoded value ∧
      Writes (derEncodeNumber der value) (element der ccderInteger (numberContent value)) ∧
      numberOfOctets (numberContent value) = value ∧
      derDecodeNumber der (element der ccderInteger (numberContent value) ++ rest) =
        some (value, rest) := by
  obtain ⟨hpos, hle, hsign⟩ := bytesWhenEncoded_spec value
  refine ⟨⟨⟨hpos, (signExtends_iff value hpos hle).mp hsign⟩, ?_⟩, length_numberContent value,
    writes_derEncodeNumber der value, numberOfOctets_numberContent value,
    derDecodeNumber_element hder value rest⟩
  rintro bytes ⟨hsome, hcontent⟩
  by_cases hall : bytes ≤ 8
  · exact bytesWhenEncoded_le value hsome ((signExtends_iff value hsome hall).mpr hcontent)
  · omega

theorem derNumber_minimal_roundTrip_intMin :
    IsLeast {bytes | 0 < bytes ∧ ∃ content : BitVec (8 * bytes),
        content.toInt = (BitVec.intMin 64).toInt} (bytesWhenEncoded (BitVec.intMin 64)) ∧
      derDecodeNumber Standard.primitives (element Standard.primitives ccderInteger
        (numberContent (BitVec.intMin 64)) ++ []) = some (BitVec.intMin 64, []) := by
  have hround := derNumber_minimal_roundTrip Standard.primitives_correct (BitVec.intMin 64) []
  exact ⟨hround.1, hround.2.2.2.2⟩
end SecurityFramework
