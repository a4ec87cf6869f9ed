import Mathlib.Data.Nat.Bitwise
import Mathlib.Data.UInt
import SecurityFramework.Library.CText

/-!
# Object identifiers as text

An object identifier is a string of octets: each arc is a number in base 128, with a set high bit in
all octets but the last, and the first two arcs are put into one number.
-/

namespace SecurityFramework
open CText

namespace CssmData
/-- Why a conversion has no text: it read outside of the data, or it has not come to an end. -/
inductive Stop
  | outside
  | unfinished
  deriving DecidableEq

/-- The loop of `getOid`, with the number that was read so far. The position is 32 bits wide, the
number 64. -/
def getOidLoop (data : List UInt8) : (fuel pos q : Nat) → Except Stop (Nat × Nat)
  | 0, _, _ => .error .unfinished
  | fuel + 1, pos, q =>
    match data[pos]? with
    | none => .error .outside
    | some byte =>
      let q := (q * 128 + (byte &&& 0x7F).toNat) % 2 ^ 64
      let next := (pos + 1) % 2 ^ 32
      -- the octet was there to be read, so that `pos` is less than the length
      if byte &&& 0x80 ≠ 0 then getOidLoop data fuel next q else .ok (q, next)

def getOid (data : List UInt8) (fuel pos : Nat) : Except Stop (Nat × Nat) :=
  getOidLoop data fuel pos 0

def toOidRest (data : List UInt8) : (fuel pos : Nat) → List Char → Except Stop (List Char)
  | 0, _, _ => .error .unfinished
  | fuel + 1, pos, s =>
    if pos < data.length then do
      let (arc, pos) ← getOid data fuel pos
      toOidRest data fuel pos (s ++ snprintf 20 ('.' :: Nat.toDigits 10 arc))
    else .ok s

/-- The first arc is 2 at most, and the rest of the first number is the second arc. -/
def toOid (fuel : Nat) (data : List UInt8) : Except Stop (List Char) :=
  if data.length = 0 then .ok []
  else do
    let (oid1, pos) ← getOid data fuel 0
    let q1 := min (oid1 / 40) 2
    toOidRest data fuel pos
      (snprintf 10 (Nat.toDigits 10 q1 ++ '.' :: Nat.toDigits 10 (oid1 - q1 * 40)))

/-- The octets in front of the last one, in a buffer with so much room. -/
def putOidLoop : (room id : Nat) → List UInt8 → List UInt8
  | 0, _, octets => octets
  | room + 1, id, octets =>
    if 0 < id then putOidLoop room (id / 128) (UInt8.ofNat (0x80 + id % 128) :: octets) else octets

/-- The buffer has `sizeof(unsigned long) * 2` octets. -/
def putOid (id : Nat) : List UInt8 :=
  putOidLoop 15 (id / 128) [UInt8.ofNat (id % 128)]

def fromOidRest : Nat → List Char → List UInt8
  | turns + 1, '.' :: oid =>
    let (arc, oid) := strtoul oid
    putOid arc ++ fromOidRest turns oid
  | _, _ => []

def fromOid (oid : List Char) : List UInt8 :=
  let (q1, oid) := strtoul oid
  match oid with
  | '.' :: oid =>
    let (q2, oid) := strtoul oid
    putOid ((40 * q1 + q2) % 2 ^ 64) ++ fromOidRest oid.length oid
  | _ => []
end CssmData

structure Oid where
  first : Nat
  second : Nat
  rest : List Nat
  first_le : first ≤ 2
  second_lt : first < 2 → second < 40
  second_long : second < 2 ^ 64
  rest_long : ∀ arc ∈ rest, arc < 2 ^ 64

namespace Oid
def dottedArcs (arcs : List Nat) : List Char :=
  arcs.flatMap fun arc => '.' :: Nat.toDigits 10 arc

def dotted (oid : Oid) : List Char :=
  Nat.toDigits 10 oid.first ++ dottedArcs (oid.second :: oid.rest)

def composite (oid : Oid) : Nat := 40 * oid.first + oid.second
end Oid

namespace CssmData
theorem high_bit_iff (byte : UInt8) : byte &&& 0x80 ≠ 0 ↔ 128 ≤ byte.toNat := by
  have hand : (byte &&& 0x80).toNat = byte.toNat &&& 2 ^ 7 := UInt8.toNat_and byte 0x80
  have hlt := byte.toNat_lt
  rw [ne_eq, ← UInt8.toNat_inj, hand, Nat.and_two_pow, Nat.toNat_testBit]
  simp only [UInt8.toNat_ofNat]
  omega

theorem low_bits (byte : UInt8) : (byte &&& 0x7F).toNat = byte.toNat % 128 := by
  rw [UInt8.toNat_and]
  exact Nat.and_two_pow_sub_one_eq_mod byte.toNat 7

def Continues (octets : List UInt8) : Prop := ∀ octet ∈ octets, 128 ≤ octet.toNat

/-- The number that some octets stand for, behind the ones that stand for `q`. -/
def base128 (q : Nat) (octets : List UInt8) : Nat :=
  octets.foldl (fun q octet => q * 128 + octet.toNat % 128) q

variable {data : List UInt8}

theorem getOidLoop_end {pos : Nat} {byte : UInt8} (hbyte : data[pos]? = some byte)
    (hend : byte.toNat < 128) (fuel q : Nat) :
    getOidLoop data (fuel + 1) pos q =
      .ok ((q * 128 + byte.toNat % 128) % 2 ^ 64, (pos + 1) % 2 ^ 32) := by
  have hlow : ¬(byte &&& 0x80 ≠ 0) := by
    rw [high_bit_iff]
    omega
  rw [getOidLoop, hbyte]
  simp only [low_bits, if_neg hlow]

theorem getOidLoop_more {pos : Nat} {byte : UInt8} (hbyte : data[pos]? = some byte)
    (hmore : 128 ≤ byte.toNat) (fuel q : Nat) :
    getOidLoop data (fuel + 1) pos q =
      getOidLoop data fuel ((pos + 1) % 2 ^ 32) ((q * 128 + byte.toNat % 128) % 2 ^ 64) := by
  rw [getOidLoop, hbyte]
  simp only [low_bits, if_pos ((high_bit_iff byte).mpr hmore)]

theorem getOidLoop_outside {pos : Nat} (hout : data[pos]? = none) (fuel q : Nat) :
    getOidLoop data (fuel + 1) pos q = .error .outside := by
  rw [getOidLoop, hout]

theorem getOidLoop_octets {octets : List UInt8} (hoctets : Continues octets) {last : UInt8}
    (hlast : last.toNat < 128) {before after : List UInt8}
    (hshort : (before ++ (octets ++ last :: after)).length < 2 ^ 32) (q : Nat) {fuel : Nat}
    (hfuel : octets.length < fuel) :
    getOidLoop (before ++ (octets ++ last :: after)) fuel before.length (q % 2 ^ 64) =
      .ok (base128 q (octets ++ [last]) % 2 ^ 64, before.length + octets.length + 1) := by
  induction octets generalizing before q fuel with
  | nil =>
    obtain ⟨fuel, rfl⟩ : ∃ less, fuel = less + 1 := ⟨fuel - 1, by omega⟩
    have hbyte : (before ++ ([] ++ last :: after))[before.length]? = some last := by simp
    simp only [List.length_append, List.length_cons, List.length_nil] at hshort
    have hnext : (before.length + 1) % 2 ^ 32 = before.length + 1 := Nat.mod_eq_of_lt (by omega)
    have hq : (q % 2 ^ 64 * 128 + last.toNat % 128) % 2 ^ 64 =
        (q * 128 + last.toNat % 128) % 2 ^ 64 := by omega
    rw [getOidLoop_end hbyte hlast, hnext, hq]
    rfl
  | cons octet octets ih =>
    obtain ⟨fuel, rfl⟩ : ∃ less, fuel = less + 1 := ⟨fuel - 1, by omega⟩
    have hsplit : before ++ (octet :: octets ++ last :: after) =
        before ++ [octet] ++ (octets ++ last :: after) := by simp
    have hbyte : (before ++ [octet] ++ (octets ++ last :: after))[before.length]? = some octet := by
      simp
    have hq : (q % 2 ^ 64 * 128 + octet.toNat % 128) % 2 ^ 64 =
        (q * 128 + octet.toNat % 128) % 2 ^ 64 := by omega
    rw [hsplit] at hshort ⊢
    have hnext : (before.length + 1) % 2 ^ 32 = (before ++ [octet]).length := by
      simp only [List.length_append, List.length_cons, List.length_nil] at hshort ⊢
      exact Nat.mod_eq_of_lt (by omega)
    have htail := ih (fun o ho => hoctets o (List.mem_cons_of_mem _ ho)) hshort
      (q * 128 + octet.toNat % 128) (Nat.lt_of_succ_lt_succ hfuel)
    have hpos : (before ++ [octet]).length + octets.length + 1 =
        before.length + (octet :: octets).length + 1 := by
      simp only [List.length_append, List.length_cons, List.length_nil]
      omega
    rw [getOidLoop_more hbyte (hoctets octet List.mem_cons_self), hnext, hq, htail, hpos]
    rfl

theorem putOidLoop_octets {room id : Nat} (hroom : id < 128 ^ room) (octets : List UInt8) :
    ∃ front, putOidLoop room id octets = front ++ octets ∧ Continues front ∧
      base128 0 front = id := by
  induction room generalizing id octets with
  | zero =>
    refine ⟨[], rfl, by simp [Continues], ?_⟩
    rw [Nat.pow_zero] at hroom
    exact (Nat.lt_one_iff.mp hroom).symm
  | succ room ih =>
    by_cases hid : 0 < id
    · have hless : id / 128 < 128 ^ room := by
        rw [Nat.pow_succ] at hroom
        exact Nat.div_lt_of_lt_mul (by rwa [Nat.mul_comm])
      obtain ⟨front, hput, hfront, hvalue⟩ := ih hless (UInt8.ofNat (0x80 + id % 128) :: octets)
      have hoctet : (UInt8.ofNat (0x80 + id % 128)).toNat = 0x80 + id % 128 := by
        rw [UInt8.toNat_ofNat']
        omega
      refine ⟨front ++ [UInt8.ofNat (0x80 + id % 128)], ?_, ?_, ?_⟩
      · rw [putOidLoop, if_pos hid, hput, List.append_assoc]
        rfl
      · intro octet hmem
        rcases List.mem_append.mp hmem with hmem | hmem
        · exact hfront octet hmem
        · rw [List.mem_singleton.mp hmem, hoctet]
          omega
      · rw [base128] at hvalue ⊢
        rw [List.foldl_append, hvalue, List.foldl_cons, List.foldl_nil, hoctet]
        omega
    · refine ⟨[], ?_, by simp [Continues], ?_⟩
      · rw [putOidLoop, if_neg hid]
        rfl
      · exact (Nat.eq_zero_of_not_pos hid).symm

theorem putOid_octets {id : Nat} (hid : id < 2 ^ 64) :
    ∃ front last, putOid id = front ++ [last] ∧ Continues front ∧ last.toNat < 128 ∧
      base128 0 (front ++ [last]) = id := by
  have hroom : id / 128 < 128 ^ 15 := Nat.lt_of_le_of_lt (Nat.div_le_self _ _)
    (Nat.lt_trans hid (by decide))
  obtain ⟨front, hput, hfront, hvalue⟩ := putOidLoop_octets hroom [UInt8.ofNat (id % 128)]
  have hlast : (UInt8.ofNat (id % 128)).toNat = id % 128 := by
    rw [UInt8.toNat_ofNat']
    omega
  refine ⟨front, _, hput, hfront, by omega, ?_⟩
  rw [base128] at hvalue ⊢
  rw [List.foldl_append, hvalue, List.foldl_cons, List.foldl_nil, hlast]
  omega

theorem getOid_putOid {id : Nat} (hid : id < 2 ^ 64) {before after : List UInt8}
    (hshort : (before ++ (putOid id ++ after)).length < 2 ^ 32) {fuel : Nat}
    (hfuel : (putOid id).length ≤ fuel) :
    getOid (before ++ (putOid id ++ after)) fuel before.length =
      .ok (id, (before ++ putOid id).length) := by
  obtain ⟨front, last, hput, hfront, hlast, hvalue⟩ := putOid_octets hid
  rw [hput, List.append_assoc, List.singleton_append] at hshort ⊢
  rw [hput, List.length_append, List.length_singleton] at hfuel
  have hread := getOidLoop_octets hfront hlast hshort 0 hfuel
  rw [Nat.zero_mod] at hread
  rw [getOid, hread, hvalue, Nat.mod_eq_of_lt hid]
  simp only [List.length_append, List.length_singleton, Nat.add_assoc]

theorem putOid_ne_nil (id : Nat) : 0 < (putOid id).length := by
  have hgrow : ∀ room id octets, octets.length ≤ (putOidLoop room id octets).length := by
    intro room
    induction room with
    | zero => exact fun _ _ => Nat.le_refl _
    | succ room ih =>
      intro id octets
      rw [putOidLoop]
      split
      · exact Nat.le_trans (Nat.le_succ _) (ih (id / 128) (UInt8.ofNat (0x80 + id % 128) :: octets))
      · exact Nat.le_refl _
  exact hgrow 15 (id / 128) [UInt8.ofNat (id % 128)]
end CssmData
end SecurityFramework
