import SecurityFramework.Library.Der

/-!
# Strings

A string is held in UTF-16 and written in UTF-8.
-/

namespace SecurityFramework
open DER

/-- UTF-16 code units. -/
abbrev CFString := List UInt16

def ccderUtf8String : Tag := ⟨.universal, false, 0x0C⟩

def ccderNumericString : Tag := ⟨.universal, false, 0x12⟩

def surrogatePair (high low : UInt16) : Char :=
  Char.ofNat (0x10000 + (high.toNat - 0xD800) * 0x400 + (low.toNat - 0xDC00))

def convertUnits (units : Nat) (octets : List UInt8) (more : Nat × List UInt8) :
    Nat × List UInt8 :=
  (units + more.1, octets ++ more.2)

/-- `CFStringGetBytes` to UTF-8, without a loss octet: how many units were converted, up to one that
is half of no pair or that has no room, and the octets. -/
def cfStringGetBytes : CFString → Nat → Nat × List UInt8
  | [], _ => (0, [])
  | unit :: rest, room =>
    if unit.toNat < 0xD800 ∨ 0xE000 ≤ unit.toNat then
      let octets := String.utf8EncodeChar (Char.ofNat unit.toNat)
      if octets.length ≤ room then
        convertUnits 1 octets (cfStringGetBytes rest (room - octets.length))
      else (0, [])
    else
      match rest with
      | [] => (0, [])
      | next :: rest =>
        let octets := String.utf8EncodeChar (surrogatePair unit next)
        if unit.toNat < 0xDC00 ∧ 0xDC00 ≤ next.toNat ∧ next.toNat < 0xE000 ∧
            octets.length ≤ room then
          convertUnits 2 octets (cfStringGetBytes rest (room - octets.length))
        else (0, [])

def utf16Units (c : Char) : CFString :=
  if c.toNat < 0x10000 then [UInt16.ofNat c.toNat]
  else
    [UInt16.ofNat (0xD800 + (c.toNat - 0x10000) / 0x400),
      UInt16.ofNat (0xDC00 + (c.toNat - 0x10000) % 0x400)]

def cfstr (s : String) : CFString := s.toList.flatMap utf16Units

/-- `CFStringCreateWithBytes` from UTF-8, null if the octets are not. -/
def cfStringCreateWithBytes (octets : List UInt8) : Option CFString :=
  octets.toByteArray.utf8Decode?.map fun chars => chars.toList.flatMap utf16Units

def derSizeofString (der : Primitives) (str : CFString) : Nat :=
  let maximum := 3 * str.length
  let (converted, octets) := cfStringGetBytes str maximum
  sizeof der ccderUtf8String (if converted = str.length then octets.length else 0)

def derEncodeString (der : Primitives) (string : CFString) : Writer
  | .ok buffer =>
    let (converted, octets) := cfStringGetBytes string buffer.room
    if converted ≠ string.length then .error buffer
    else encodeTl der ccderUtf8String octets.length (encodeBody octets (.ok buffer))
  | .error buffer => .error buffer

def derDecodeStringTagged (der : Primitives) (tag : Tag) (octets : List UInt8) :
    Option (CFString × List UInt8) := do
  let (payloadSize, payload) ← decodeTl der tag octets
  let string ← cfStringCreateWithBytes (payload.take payloadSize)
  some (string, payload.drop payloadSize)

def derDecodeString (der : Primitives) (octets : List UInt8) : Option (CFString × List UInt8) :=
  derDecodeStringTagged der ccderUtf8String octets

def derDecodeNumericString (der : Primitives) (octets : List UInt8) :
    Option (CFString × List UInt8) :=
  derDecodeStringTagged der ccderNumericString octets

/-- The UTF-16 units of some characters, so no half of a pair is alone. -/
def CFString.Encodable (string : CFString) : Prop :=
  ∃ chars : List Char, string = chars.flatMap utf16Units

def stringContent (string : CFString) : List UInt8 :=
  (cfStringGetBytes string (3 * string.length)).2

theorem char_valid (c : Char) : c.toNat < 0xD800 ∨ 0xDFFF < c.toNat ∧ c.toNat < 0x110000 :=
  c.valid

theorem length_utf8EncodeChar_le (c : Char) :
    (String.utf8EncodeChar c).length ≤ 3 * (utf16Units c).length := by
  rw [String.length_utf8EncodeChar, utf16Units]
  split
  case isTrue hsmall =>
    have hval : c.val ≤ 0xFFFF := by
      rw [UInt32.le_iff_toNat_le]
      exact Nat.lt_succ_iff.mp hsmall
    have hnot : c.utf8Size ≠ 4 := by
      rw [Ne, Char.utf8Size_eq_four_iff, UInt32.not_lt]
      exact hval
    have hsize := Char.utf8Size_le_four c
    simp
    omega
  case isFalse =>
    have hsize := Char.utf8Size_le_four c
    simp
    omega

theorem length_utf8Octets_le (chars : List Char) :
    (chars.flatMap String.utf8EncodeChar).length ≤ 3 * (chars.flatMap utf16Units).length := by
  induction chars with
  | nil => simp
  | cons c chars ih =>
    have hhead := length_utf8EncodeChar_le c
    simp only [List.flatMap_cons, List.length_append]
    omega

theorem cfStringGetBytes_unit {unit : UInt16} {room : Nat} (rest : CFString)
    (hplain : unit.toNat < 0xD800 ∨ 0xE000 ≤ unit.toNat)
    (hfits : (String.utf8EncodeChar (Char.ofNat unit.toNat)).length ≤ room) :
    cfStringGetBytes (unit :: rest) room =
      convertUnits 1 (String.utf8EncodeChar (Char.ofNat unit.toNat)) (cfStringGetBytes rest
        (room - (String.utf8EncodeChar (Char.ofNat unit.toNat)).length)) := by
  rw [cfStringGetBytes.eq_def]
  simp only [hplain, hfits, if_true]

theorem cfStringGetBytes_chars (chars : List Char) (room : Nat)
    (hroom : (chars.flatMap String.utf8EncodeChar).length ≤ room) :
    cfStringGetBytes (chars.flatMap utf16Units) room =
      ((chars.flatMap utf16Units).length, chars.flatMap String.utf8EncodeChar) := by
  induction chars generalizing room with
  | nil => simp [cfStringGetBytes]
  | cons c chars ih =>
    have hvalid := char_valid c
    simp only [List.flatMap_cons, List.length_append] at hroom ⊢
    have htail := ih (room - (String.utf8EncodeChar c).length) (by omega)
    have hfits : (String.utf8EncodeChar c).length ≤ room := by omega
    rw [utf16Units]
    split
    case isTrue hsmall =>
      have hunit : (UInt16.ofNat c.toNat).toNat = c.toNat := by
        rw [UInt16.toNat_ofNat']
        omega
      have hplain : c.toNat < 0xD800 ∨ 0xE000 ≤ c.toNat := by omega
      rw [List.cons_append, List.nil_append, cfStringGetBytes_unit] <;>
        rw [hunit]
      · simp only [Char.ofNat_toNat, htail, convertUnits, List.length_cons, List.length_nil]
      · exact hplain
      · rwa [Char.ofNat_toNat]
    case isFalse hlarge =>
      have hhigh : (UInt16.ofNat (0xD800 + (c.toNat - 0x10000) / 0x400)).toNat =
          0xD800 + (c.toNat - 0x10000) / 0x400 := by
        rw [UInt16.toNat_ofNat']
        omega
      have hlow : (UInt16.ofNat (0xDC00 + (c.toNat - 0x10000) % 0x400)).toNat =
          0xDC00 + (c.toNat - 0x10000) % 0x400 := by
        rw [UInt16.toNat_ofNat']
        omega
      have hpair : surrogatePair (UInt16.ofNat (0xD800 + (c.toNat - 0x10000) / 0x400))
          (UInt16.ofNat (0xDC00 + (c.toNat - 0x10000) % 0x400)) = c := by
        have hnat : 0x10000 + (0xD800 + (c.toNat - 0x10000) / 0x400 - 0xD800) * 0x400 +
            (0xDC00 + (c.toNat - 0x10000) % 0x400 - 0xDC00) = c.toNat := by omega
        rw [surrogatePair, hhigh, hlow, hnat, Char.ofNat_toNat]
      have hplain : ¬ (0xD800 + (c.toNat - 0x10000) / 0x400 < 0xD800 ∨
          0xE000 ≤ 0xD800 + (c.toNat - 0x10000) / 0x400) := by omega
      have hhalves : 0xD800 + (c.toNat - 0x10000) / 0x400 < 0xDC00 ∧
          0xDC00 ≤ 0xDC00 + (c.toNat - 0x10000) % 0x400 ∧
          0xDC00 + (c.toNat - 0x10000) % 0x400 < 0xE000 ∧
          (String.utf8EncodeChar c).length ≤ room := by omega
      simp only [List.cons_append, List.nil_append, cfStringGetBytes, hhigh, hlow, hpair, hplain,
        if_false, hhalves, and_self, if_true, htail, convertUnits, List.length_cons,
        List.length_nil]

theorem stringContent_chars (chars : List Char) :
    stringContent (chars.flatMap utf16Units) = chars.flatMap String.utf8EncodeChar := by
  rw [stringContent, cfStringGetBytes_chars chars _ (length_utf8Octets_le chars)]

variable {string : CFString}

theorem cfStringCreateWithBytes_stringContent (hstring : string.Encodable) :
    cfStringCreateWithBytes (stringContent string) = some string := by
  obtain ⟨chars, rfl⟩ := hstring
  have hdecode := List.utf8Decode?_utf8Encode (l := chars)
  rw [List.utf8Encode] at hdecode
  rw [stringContent_chars, cfStringCreateWithBytes, hdecode]
  simp

theorem derSizeofString_eq (der : Primitives) (hstring : string.Encodable) :
    derSizeofString der string =
      (element der ccderUtf8String (stringContent string)).length := by
  obtain ⟨chars, rfl⟩ := hstring
  rw [length_element, stringContent_chars, derSizeofString,
    cfStringGetBytes_chars chars _ (length_utf8Octets_le chars)]
  simp

theorem writes_derEncodeString (der : Primitives) (hstring : string.Encodable) :
    Writes (derEncodeString der string) (element der ccderUtf8String (stringContent string)) := by
  obtain ⟨chars, rfl⟩ := hstring
  rw [stringContent_chars]
  intro room written
  have hwrites := Writes.octets der ccderUtf8String (chars.flatMap String.utf8EncodeChar)
    room written
  have hroom : (chars.flatMap String.utf8EncodeChar).length ≤
      room + (element der ccderUtf8String (chars.flatMap String.utf8EncodeChar)).length := by
    rw [length_element, sizeof]
    omega
  simp only [derEncodeString, cfStringGetBytes_chars chars _ hroom]
  simp only [ne_eq, not_true, if_false]
  exact hwrites

theorem derDecodeString_element {der : Primitives} (hder : der.Correct) (hstring : string.Encodable)
    (rest : List UInt8) :
    derDecodeString der (element der ccderUtf8String (stringContent string) ++ rest) =
      some (string, rest) := by
  rw [derDecodeString, derDecodeStringTagged, decodeTl_element hder _ (by decide)]
  simp [cfStringCreateWithBytes_stringContent hstring]
end SecurityFramework
