import Mathlib.Data.List.Basic

/-!
# Base64

Three octets are four characters of the alphabet, and what is left over at the end is padded.
-/

namespace Base64
def alphabet : List Char :=
  "ABCDEFGHIJKLMNOPQRSTUVWXYZabcdefghijklmnopqrstuvwxyz0123456789+/".toList

def digit (value : Nat) : Char := alphabet.getD value '='

def value? (c : Char) : Option Nat := alphabet.findIdx? (· == c)

def encode : List UInt8 → List Char
  | [] => []
  | [a] => [digit (a.toNat / 4), digit (a.toNat % 4 * 16), '=', '=']
  | [a, b] =>
    [digit (a.toNat / 4), digit (a.toNat % 4 * 16 + b.toNat / 16), digit (b.toNat % 16 * 4), '=']
  | a :: b :: c :: rest =>
    digit (a.toNat / 4) :: digit (a.toNat % 4 * 16 + b.toNat / 16) ::
      digit (b.toNat % 16 * 4 + c.toNat / 64) :: digit (c.toNat % 64) :: encode rest

/-- The octets of a last group, of which the third character may be padding too. -/
def decodeLast (p q r : Char) : Option (List UInt8) := do
  let p ← value? p
  let q ← value? q
  if r = '=' then
    some [UInt8.ofNat (p * 4 + q / 16)]
  else
    let r ← value? r
    some [UInt8.ofNat (p * 4 + q / 16), UInt8.ofNat (q % 16 * 16 + r / 4)]

def decodeGroup (p q r s : Char) : Option (List UInt8) := do
  let p ← value? p
  let q ← value? q
  let r ← value? r
  let s ← value? s
  some [UInt8.ofNat (p * 4 + q / 16), UInt8.ofNat (q % 16 * 16 + r / 4), UInt8.ofNat (r % 4 * 64 + s)]

/-- The octets of some characters, none where they are not of the alphabet. -/
def decode : List Char → Option (List UInt8)
  | [] => some []
  | p :: q :: r :: s :: rest =>
    if s = '=' then
      if rest = [] then decodeLast p q r else none
    else do
      let group ← decodeGroup p q r s
      let rest ← decode rest
      some (group ++ rest)
  | _ => none

theorem value?_digit {value : Nat} (h : value < 64) : value? (digit value) = some value := by
  have hall : ∀ value : Fin 64, value? (digit value) = some value.val := by decide +kernel
  exact hall ⟨value, h⟩

theorem digit_ne_pad {value : Nat} (h : value < 64) : digit value ≠ '=' := by
  have hall : ∀ value : Fin 64, digit value ≠ '=' := by decide +kernel
  exact hall ⟨value, h⟩

theorem ofNat_eq {n : Nat} {a : UInt8} (h : n = a.toNat) : UInt8.ofNat n = a := by
  rw [h, UInt8.ofNat_toNat]

theorem decodeLast_one (a : UInt8) :
    decodeLast (digit (a.toNat / 4)) (digit (a.toNat % 4 * 16)) '=' = some [a] := by
  have ha := a.toNat_lt
  have hoctet : UInt8.ofNat (a.toNat / 4 * 4 + a.toNat % 4 * 16 / 16) = a := ofNat_eq (by omega)
  simp only [decodeLast, value?_digit (show a.toNat / 4 < 64 by omega),
    value?_digit (show a.toNat % 4 * 16 < 64 by omega), if_true, Option.bind_eq_bind,
    Option.bind_some, hoctet]

theorem decodeLast_two (a b : UInt8) :
    decodeLast (digit (a.toNat / 4)) (digit (a.toNat % 4 * 16 + b.toNat / 16))
      (digit (b.toNat % 16 * 4)) = some [a, b] := by
  have ha := a.toNat_lt
  have hb := b.toNat_lt
  have hfirst : UInt8.ofNat (a.toNat / 4 * 4 + (a.toNat % 4 * 16 + b.toNat / 16) / 16) = a :=
    ofNat_eq (by omega)
  have hsecond : UInt8.ofNat ((a.toNat % 4 * 16 + b.toNat / 16) % 16 * 16 +
      b.toNat % 16 * 4 / 4) = b := ofNat_eq (by omega)
  have hpad : digit (b.toNat % 16 * 4) ≠ '=' := digit_ne_pad (by omega)
  simp only [decodeLast, value?_digit (show a.toNat / 4 < 64 by omega),
    value?_digit (show a.toNat % 4 * 16 + b.toNat / 16 < 64 by omega),
    value?_digit (show b.toNat % 16 * 4 < 64 by omega), if_neg hpad, Option.bind_eq_bind,
    Option.bind_some, hfirst, hsecond]

theorem decodeGroup_three (a b c : UInt8) :
    decodeGroup (digit (a.toNat / 4)) (digit (a.toNat % 4 * 16 + b.toNat / 16))
      (digit (b.toNat % 16 * 4 + c.toNat / 64)) (digit (c.toNat % 64)) = some [a, b, c] := by
  have ha := a.toNat_lt
  have hb := b.toNat_lt
  have hc := c.toNat_lt
  have hfirst : UInt8.ofNat (a.toNat / 4 * 4 + (a.toNat % 4 * 16 + b.toNat / 16) / 16) = a :=
    ofNat_eq (by omega)
  have hsecond : UInt8.ofNat ((a.toNat % 4 * 16 + b.toNat / 16) % 16 * 16 +
      (b.toNat % 16 * 4 + c.toNat / 64) / 4) = b := ofNat_eq (by omega)
  have hthird : UInt8.ofNat ((b.toNat % 16 * 4 + c.toNat / 64) % 4 * 64 + c.toNat % 64) = c :=
    ofNat_eq (by omega)
  simp only [decodeGroup, value?_digit (show a.toNat / 4 < 64 by omega),
    value?_digit (show a.toNat % 4 * 16 + b.toNat / 16 < 64 by omega),
    value?_digit (show b.toNat % 16 * 4 + c.toNat / 64 < 64 by omega),
    value?_digit (show c.toNat % 64 < 64 by omega), Option.bind_eq_bind, Option.bind_some,
    hfirst, hsecond, hthird]

theorem decode_encode (octets : List UInt8) : decode (encode octets) = some octets := by
  induction octets using encode.induct with
  | case1 => rfl
  | case2 a => simp [encode, decode, decodeLast_one]
  | case3 a b => simp [encode, decode, decodeLast_two]
  | case4 a b c rest ih =>
    have hpad : digit (c.toNat % 64) ≠ '=' := digit_ne_pad (by omega)
    simp [encode, decode, hpad, decodeGroup_three, ih]
end Base64
