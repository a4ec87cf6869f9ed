import Mathlib.Data.Fintype.Pi
import SecurityFramework.Otr.PacketData

/-!
# OTR sessions

The session record with its cache of message keys, and what both the negotiation and the data
phase do with it. The primitives of the cryptographic libraries are parameters.
-/

namespace SecurityFramework.Otr
/-- What the session takes from corecrypto, the identities and the base 64 coder. -/
structure Primitives where
  FullKey : Type
  PublicKey : Type
  FullIdentity : Type
  PublicIdentity : Type
  /-- The public half of a full key. -/
  ccec_ctx_pub : FullKey → PublicKey
  ccec_export_pub : PublicKey → List UInt8
  ccec_import_pub : List UInt8 → Option PublicKey
  ccec_compact_export : PublicKey → List UInt8
  ccec_compact_import_pub : List UInt8 → Option PublicKey
  /-- The shared secret, as the octets `ccn_write_uint` makes of it. -/
  ccec_compute_key : FullKey → PublicKey → List UInt8
  sha1 : List UInt8 → List UInt8
  sha256 : List UInt8 → List UInt8
  hmacSHA1 : List UInt8 → List UInt8 → List UInt8
  hmacSHA256 : List UInt8 → List UInt8 → List UInt8
  /-- AES in counter mode, with key and initial block. -/
  ctr : List UInt8 → List UInt8 → List UInt8 → List UInt8
  publicIdentity : FullIdentity → PublicIdentity
  serialization : PublicIdentity → List UInt8
  sign : FullIdentity → List UInt8 → List UInt8
  verifySignature : PublicIdentity → List UInt8 → List UInt8 → Bool
  base64Encode : List UInt8 → List UInt8
  base64Decode : List UInt8 → Option (List UInt8)

def kOTRAuthKeyBytes : Nat := 16
def kOTRMessageKeyBytes : Nat := 16
def kExponentiationBytes : Nat := 192
def kSHA256HMAC160Bytes : UInt32 := 20
def CCSHA1_OUTPUT_SIZE : Nat := 20
def CCSHA256_OUTPUT_SIZE : Nat := 32

abbrev kOTRKeyCacheSize : Nat := 4

scoped instance neZero_kOTRKeyCacheSize : NeZero kOTRKeyCacheSize := ⟨by decide⟩

inductive SecOTRAuthState
  | kIdle | kAwaitingDHKey | kAwaitingRevealSignature | kAwaitingSignature | kDone
  deriving DecidableEq, Repr

/-- Message keys of a pair of keys, and the last counters sent and received under them. -/
structure SecOTRCacheElement where
  fullKeyHash : List UInt8
  publicKeyHash : List UInt8
  sendMacKey : List UInt8
  sendEncryptionKey : List UInt8
  receiveMacKey : List UInt8
  receiveEncryptionKey : List UInt8
  counter : UInt64
  theirCounter : UInt64
  deriving DecidableEq

def zeroHash : List UInt8 := List.replicate CCSHA1_OUTPUT_SIZE 0

def SecOTRCacheElement.zero : SecOTRCacheElement where
  fullKeyHash := zeroHash
  publicKeyHash := zeroHash
  sendMacKey := List.replicate 20 0
  sendEncryptionKey := List.replicate kOTRMessageKeyBytes 0
  receiveMacKey := List.replicate 20 0
  receiveEncryptionKey := List.replicate kOTRMessageKeyBytes 0
  counter := 0
  theirCounter := 0

abbrev KeyCache := Fin kOTRKeyCacheSize → SecOTRCacheElement

def KeyCache.zero : KeyCache := fun _ => .zero

variable (P : Primitives)

structure SecOTRSession where
  state : SecOTRAuthState
  me : P.FullIdentity
  them : P.PublicIdentity
  r : List UInt8
  receivedDHMessage : Option (List UInt8)
  receivedDHKeyMessage : Option (List UInt8)
  keyID : UInt32
  myKey : Option P.FullKey
  myNextKey : Option P.FullKey
  theirKeyID : UInt32
  theirPreviousKey : Option P.PublicKey
  theirKey : Option P.PublicKey
  macKeysToExpose : List UInt8
  keyCache : KeyCache
  textOutput : Bool
  compactAppleMessages : Bool
  includeHashes : Bool
  stallSeconds : UInt64
  stallingTheirRoll : Bool
  timeToRoll : ℚ
  missedAck : Bool
  receivedAck : Bool

variable {P}

/-- `SecOTRSessionCreateFromIDAndFlags`; only a session that rolls slowly has stall seconds. -/
def SecOTRSessionCreateFromIDAndFlags (myID : P.FullIdentity) (theirID : P.PublicIdentity)
    (r : List UInt8) (textOutput compactAppleMessages includeHashes : Bool)
    (stallSeconds : UInt64) : SecOTRSession P where
  state := .kIdle
  me := myID
  them := theirID
  r := r
  receivedDHMessage := none
  receivedDHKeyMessage := none
  keyID := 0
  myKey := none
  myNextKey := none
  theirKeyID := 0
  theirPreviousKey := none
  theirKey := none
  macKeysToExpose := []
  keyCache := .zero
  textOutput := textOutput
  compactAppleMessages := compactAppleMessages
  includeHashes := includeHashes
  stallSeconds := stallSeconds
  stallingTheirRoll := false
  timeToRoll := 0
  missedAck := true
  receivedAck := false

def SecPDHKGetHash (key : P.PublicKey) : List UInt8 := P.sha1 (P.ccec_export_pub key)

def SecFDHKGetHash (key : P.FullKey) : List UInt8 := SecPDHKGetHash (P.ccec_ctx_pub key)

def SecPDHKAppendSerialization (key : P.PublicKey) : List UInt8 :=
  AppendDATA (P.ccec_export_pub key)

def SecFDHKAppendPublicSerialization (key : P.FullKey) : List UInt8 :=
  SecPDHKAppendSerialization (P.ccec_ctx_pub key)

def SecOTRPublicDHKCreateFromSerialization (c : Memory.Cursor) : Option P.PublicKey :=
  match ReadLong c with
  | .error _ => none
  | .ok (publicKeySize, rest) =>
    if publicKeySize.toNat ≤ rest.size then P.ccec_import_pub (rest.peek publicKeySize.toNat)
    else none

def kIVZero : List UInt8 := List.replicate 16 0

def AES_CTR_IV0_Transform (key : List UInt8) (data : List UInt8) : List UInt8 :=
  P.ctr key kIVZero data

/-- The counter is the high half of the initial block. -/
def AES_CTR_HighHalf_Transform (key : List UInt8) (highHalf : UInt64) (data : List UInt8) :
    List UInt8 :=
  P.ctr key (AppendLongLong highHalf ++ List.replicate 8 0) data

inductive OTRKeyType
  | kSSID | kCs | kM1 | kM2 | kM1Prime | kM2Prime
  deriving DecidableEq, Repr

def OTRKeyType.byte : OTRKeyType → UInt8
  | kSSID => 0x00
  | kCs => 0x01
  | kM1 => 0x02
  | kM2 => 0x03
  | kM1Prime => 0x04
  | kM2Prime => 0x05

def HashMPIWithPrefix (byte : UInt8) (s : List UInt8) : List UInt8 :=
  P.sha256 (byte :: AppendDATA s)

def DeriveOTR256BitsFromS (whichKey : OTRKeyType) (s : List UInt8) : List UInt8 :=
  HashMPIWithPrefix (P := P) whichKey.byte s

/-- Both keys of the pair are copied from the start of the hash. -/
def DeriveOTR128BitPairFromS (whichKey : OTRKeyType) (s : List UInt8) : List UInt8 × List UInt8 :=
  let hashBuffer := HashMPIWithPrefix (P := P) whichKey.byte s
  (hashBuffer.take kOTRAuthKeyBytes, hashBuffer.take kOTRAuthKeyBytes)
end SecurityFramework.Otr

namespace SecurityFramework.Otr
def padded (size : Nat) (bytes : List UInt8) : List UInt8 :=
  (bytes ++ List.replicate size 0).take size

def hexDigits (b : UInt8) : List UInt8 := [0x61 + b / 16, 0x61 + b % 16]

def ofHexDigits : List UInt8 → Option (List UInt8)
  | [] => some []
  | high :: low :: rest => (ofHexDigits rest).map (((high - 0x61) * 16 + (low - 0x61)) :: ·)
  | [_] => none

@[reducible] def Primitives.sample : Primitives where
  FullKey := UInt8
  PublicKey := UInt8
  FullIdentity := UInt8
  PublicIdentity := UInt8
  ccec_ctx_pub key := key
  ccec_export_pub key := 0x04 :: List.replicate 64 key
  ccec_import_pub
    | 0x04 :: key :: rest => if rest.length = 63 then some key else none
    | _ => none
  ccec_compact_export key := List.replicate 32 key
  ccec_compact_import_pub
    | key :: rest => if rest.length = 31 then some key else none
    | [] => none
  ccec_compute_key key theirKey := [key * theirKey]
  sha1 bytes := padded 20 bytes.reverse
  sha256 bytes := padded 32 bytes.reverse
  hmacSHA1 key bytes := padded 20 (bytes.reverse ++ key)
  hmacSHA256 key bytes := padded 32 (bytes.reverse ++ key)
  ctr key _ bytes := bytes.map (· ^^^ key.headD 0)
  publicIdentity identity := identity
  serialization identity := [identity]
  sign identity mb := identity :: mb
  verifySignature identity mb signature := decide (signature = identity :: mb)
  base64Encode bytes := bytes.flatMap hexDigits
  base64Decode := ofHexDigits
end SecurityFramework.Otr
