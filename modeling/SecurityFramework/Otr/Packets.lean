import SecurityFramework.Otr.Session

/-!
# OTR packets as they come in

A packet goes out as it is or as text, between a header and a footer.
-/

namespace SecurityFramework.Otr
open Memory

variable {P : Primitives}

structure Packet where
  bytes : List UInt8
  beyond : Nat → UInt8

def Packet.cursor (packet : Packet) : Cursor := .ofBytes packet.bytes packet.beyond

def otrHeader : List UInt8 := [0x3F, 0x4F, 0x54, 0x52, 0x3A]

def otrFooter : List UInt8 := [0x2E]

def CFDataFind (needle : List UInt8) : List UInt8 → Option Nat
  | [] => if needle = [] then some 0 else none
  | b :: bytes =>
    if needle.isPrefixOf (b :: bytes) then some 0
    else (CFDataFind needle bytes).map (· + 1)

/-- Undo the text form. The header is looked for everywhere, but taken to be at the start. -/
def SecOTRCopyIncomingBytes (incomingMessage : List UInt8) : Option (List UInt8) :=
  match CFDataFind otrHeader incomingMessage with
  | none => some incomingMessage
  | some _ =>
    match CFDataFind otrFooter incomingMessage with
    | none => none
    | some footerLoc =>
      if otrHeader.length ≤ footerLoc then
        P.base64Decode ((incomingMessage.take footerLoc).drop otrHeader.length)
      else none

def SecOTRPrepareOutgoingBytes (message : List UInt8) : List UInt8 :=
  otrHeader ++ P.base64Encode message ++ otrFooter
end SecurityFramework.Otr

namespace SecurityFramework.Otr
variable {P : Primitives}

def SecOTRAppendDHMessage (session : SecOTRSession P) : Option (List UInt8) :=
  session.myKey.map fun myKey =>
    let gxmpi := SecFDHKAppendPublicSerialization myKey
    AppendHeader .kDHMessage ++ AppendLong (UInt32.ofNat gxmpi.length) ++
      AES_CTR_IV0_Transform (P := P) session.r gxmpi ++
      AppendLong (UInt32.ofNat CCSHA256_OUTPUT_SIZE) ++ P.sha256 gxmpi

def SecOTRAppendDHKeyMessage (session : SecOTRSession P) : Option (List UInt8) :=
  session.myKey.map fun myKey =>
    AppendHeader .kDHKeyMessage ++ SecFDHKAppendPublicSerialization myKey

structure SignatureKeys where
  m1 : List UInt8
  m2 : List UInt8
  c : List UInt8

def DeriveSignatureKeys (usePrimes : Bool) (s : List UInt8) : SignatureKeys where
  m1 := DeriveOTR256BitsFromS (P := P) (if usePrimes then .kM1Prime else .kM1) s
  m2 := DeriveOTR256BitsFromS (P := P) (if usePrimes then .kM2Prime else .kM2) s
  c := let pair := DeriveOTR128BitPairFromS (P := P) .kCs s
       if usePrimes then pair.2 else pair.1

def AppendPublicKey (publicId : P.PublicIdentity) : List UInt8 :=
  AppendShort 0xF000 ++ AppendDATA (P.serialization publicId)

def signedIdentity (publicId : P.PublicIdentity) (keyID : UInt32) : List UInt8 :=
  AppendPublicKey publicId ++ AppendLong keyID

/-- The hash that is signed: signer's key, verifier's key, and the signer's identity. -/
def signedHash (keys : SignatureKeys) (signer verifier : P.PublicKey) (identity : List UInt8) :
    List UInt8 :=
  P.hmacSHA256 keys.m1
    (SecPDHKAppendSerialization signer ++ SecPDHKAppendSerialization verifier ++ identity)

def AppendEncryptedSignature (me : P.FullIdentity) (keyID : UInt32) (myKey : P.FullKey)
    (theirKey : P.PublicKey) (keys : SignatureKeys) : List UInt8 :=
  let identity := signedIdentity (P.publicIdentity me) keyID
  let mb := signedHash keys (P.ccec_ctx_pub myKey) theirKey identity
  let xb := identity ++ AppendDATA (P.sign me mb)
  AppendLong (UInt32.ofNat xb.length) ++ AES_CTR_IV0_Transform (P := P) keys.c xb

def SHA256HMAC_160 (key data : List UInt8) : List UInt8 :=
  (P.hmacSHA256 key data).take kSHA256HMAC160Bytes.toNat

def AppendMACedEncryptedSignature (session : SecOTRSession P) (usePrime : Bool) :
    Option (List UInt8) :=
  match session.myKey, session.theirKey with
  | some myKey, some theirKey =>
    let keys := DeriveSignatureKeys (P := P) usePrime (P.ccec_compute_key myKey theirKey)
    let signature := AppendEncryptedSignature session.me session.keyID myKey theirKey keys
    some (signature ++ SHA256HMAC_160 (P := P) keys.m2 signature)
  | _, _ => none

def SecOTRAppendRevealSignatureMessage (session : SecOTRSession P) : Option (List UInt8) :=
  (AppendMACedEncryptedSignature session false).map fun signature =>
    AppendHeader .kRevealSignatureMessage ++ AppendLong (UInt32.ofNat kOTRAuthKeyBytes) ++
      session.r ++ signature

def SecOTRAppendSignatureMessage (session : SecOTRSession P) : Option (List UInt8) :=
  (AppendMACedEncryptedSignature session true).map fun signature =>
    AppendHeader .kSignatureMessage ++ signature
end SecurityFramework.Otr
