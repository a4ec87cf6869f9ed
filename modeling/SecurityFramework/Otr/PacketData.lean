import SecurityFramework.Library.Memory

/-!
# OTR packet data

Readers and writers of the fields of OTR packets.
-/

namespace SecurityFramework.Otr
open Memory

inductive OSStatus
  | errSecSuccess | errSecParam | errSecDecode | errSecUnimplemented | errSecAuthFailed
  | errSecInteractionNotAllowed | errSecUnsupportedFormat | errSecOTRTooOld | errSecOTRIDTooNew
  | errSecOTRNotReady
  deriving DecidableEq, Repr

inductive OTRMessageType
  | kDHMessage | kDataMessage | kDHKeyMessage | kRevealSignatureMessage | kSignatureMessage
  | kEvenCompactDataMessage | kOddCompactDataMessage
  | kEvenCompactDataMessageWithHashes | kOddCompactDataMessageWithHashes
  deriving DecidableEq, Repr

def OTRMessageType.byte : OTRMessageType → UInt8
  | kDHMessage => 0x02
  | kDataMessage => 0x03
  | kDHKeyMessage => 0x0A
  | kRevealSignatureMessage => 0x11
  | kSignatureMessage => 0x12
  | kEvenCompactDataMessage => 0x20
  | kOddCompactDataMessage => 0x21
  | kEvenCompactDataMessageWithHashes => 0x30
  | kOddCompactDataMessageWithHashes => 0x31

def kCurrentOTRVersion : Nat := 0x2

def ReadShort (c : Cursor) : Except OSStatus (Nat × Cursor) :=
  match c.readBE 2 with
  | some read => .ok read
  | none => .error .errSecParam

def ReadLong (c : Cursor) : Except OSStatus (UInt32 × Cursor) :=
  match c.readBE 4 with
  | some (value, rest) => .ok (UInt32.ofNat value, rest)
  | none => .error .errSecParam

def ReadLongLong (c : Cursor) : Except OSStatus (UInt64 × Cursor) :=
  match c.readBE 8 with
  | some (value, rest) => .ok (UInt64.ofNat value, rest)
  | none => .error .errSecParam

def ReadByte (c : Cursor) : Except OSStatus (UInt8 × Cursor) :=
  if 1 ≤ c.size then .ok (c.memory 0, c.skip 1) else .error .errSecParam

def ReadHeader (c : Cursor) : Except OSStatus (UInt8 × Cursor) :=
  match ReadShort c with
  | .error result => .error result
  | .ok (version, rest) =>
    if version = kCurrentOTRVersion then ReadByte rest else .error .errSecDecode

def AppendShort (value : Nat) : List UInt8 := toBE 2 value

def AppendLong (value : UInt32) : List UInt8 := toBE 4 value.toNat

def AppendLongLong (value : UInt64) : List UInt8 := toBE 8 value.toNat

def AppendHeader (type : OTRMessageType) : List UInt8 :=
  AppendShort kCurrentOTRVersion ++ [type.byte]

def AppendDATA (data : List UInt8) : List UInt8 :=
  AppendLong (UInt32.ofNat data.length) ++ data

variable (rest : List UInt8) (beyond : Nat → UInt8)

theorem ReadLong_append (value : UInt32) :
    ReadLong (.ofBytes (AppendLong value ++ rest) beyond) =
      .ok (value, .ofBytes rest beyond) := by
  have hlt : value.toNat < 256 ^ 4 := value.toNat_lt
  rw [ReadLong, AppendLong, Cursor.readBE_ofBytes_append rest beyond hlt]
  simp

theorem ReadLongLong_append (value : UInt64) :
    ReadLongLong (.ofBytes (AppendLongLong value ++ rest) beyond) =
      .ok (value, .ofBytes rest beyond) := by
  have hlt : value.toNat < 256 ^ 8 := value.toNat_lt
  rw [ReadLongLong, AppendLongLong, Cursor.readBE_ofBytes_append rest beyond hlt]
  simp

theorem ReadByte_cons (byte : UInt8) :
    ReadByte (.ofBytes (byte :: rest) beyond) = .ok (byte, .ofBytes rest beyond) := by
  have hskip := Cursor.skip_ofBytes_append [byte] rest beyond
  simp only [List.length_singleton, List.singleton_append] at hskip
  rw [ReadByte, if_pos (by simp), hskip]
  rfl
end SecurityFramework.Otr
