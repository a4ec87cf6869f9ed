import SecurityFramework.Otr.Packets
import SecurityFramework.Library.ByteOrder

/-!
# OTR authenticated key exchange

The handlers of the four negotiation packets. A handler has no result where the code dereferences
a key that is not there.
-/

namespace SecurityFramework.Otr
open Memory

variable {P : Primitives}

structure Handled (P : Primitives) where
  result : OSStatus
  session : SecOTRSession P
  response : List UInt8

structure NewKeys (P : Primitives) where
  myKey : P.FullKey
  myNextKey : P.FullKey

def SecOTRSession.setR (session : SecOTRSession P) (r : List UInt8) : SecOTRSession P :=
  { session with r := r }

def SecOTRSession.setTheirKeyID (session : SecOTRSession P) (keyID : UInt32) : SecOTRSession P :=
  { session with theirKeyID := keyID }

def SecOTRInitMyDHKeys (session : SecOTRSession P) (new : NewKeys P) : SecOTRSession P :=
  { session with
    myKey := some new.myKey
    myNextKey := some new.myNextKey
    keyID := 1
    missedAck := true
    receivedAck := false
    keyCache := .zero }

def SecOTRSAppendStartPacket (session : SecOTRSession P) (new : NewKeys P) (r : List UInt8) :
    Option (SecOTRSession P × List UInt8) :=
  let session := (SecOTRInitMyDHKeys { session with state := .kAwaitingDHKey } new).setR r
  (SecOTRAppendDHMessage session).map fun dhMessage => (session, dhMessage)

def FindGXHash (dhPacket : Packet) : Option (List UInt8) :=
  match ReadHeader dhPacket.cursor with
  | .error _ => none
  | .ok (messageType, c) =>
    if messageType = OTRMessageType.kDHMessage.byte then
      match ReadLong c with
      | .error _ => none
      | .ok (egxiLength, c) =>
        if egxiLength.toNat ≤ c.size then
          match ReadLong (c.skip egxiLength.toNat) with
          | .error _ => none
          | .ok (dataLength, c) =>
            if dataLength.toNat ≤ c.size ∧ dataLength.toNat = CCSHA256_OUTPUT_SIZE then
              some (c.peek CCSHA256_OUTPUT_SIZE)
            else none
        else none
    else none

/-- Whether our commitment is the bigger one; a commitment that cannot be read makes it not. -/
def SecOTRMyGXHashIsBigger (session : SecOTRSession P) (dhCommitMessage : Packet) : Option Bool :=
  (SecOTRAppendDHMessage session).map fun mine =>
    match FindGXHash ⟨mine, dhCommitMessage.beyond⟩, FindGXHash dhCommitMessage with
    | some myHash, some theirHash => decide (0 < ByteOrder.memcmp myHash theirHash)
    | _, _ => false

def sendDHKey (session : SecOTRSession P) (incomingPacket : Packet) : Option (Handled P) :=
  (SecOTRAppendDHKeyMessage session).map fun response =>
    ⟨.errSecSuccess, { session with
      receivedDHMessage := some incomingPacket.bytes
      state := .kAwaitingRevealSignature }, response⟩

def SecOTRSProcessDHMessage (session : SecOTRSession P) (new : NewKeys P)
    (incomingPacket : Packet) : Option (Handled P) :=
  match session.state with
  | .kAwaitingDHKey =>
    match SecOTRMyGXHashIsBigger session incomingPacket with
    | none => none
    | some true =>
      -- Resent to force the other side to deal.
      (SecOTRAppendDHMessage session).map fun response =>
        ⟨.errSecSuccess, { session with receivedDHMessage := none }, response⟩
    | some false => sendDHKey (SecOTRInitMyDHKeys session new) incomingPacket
  | .kAwaitingSignature | .kIdle | .kDone =>
    sendDHKey (SecOTRInitMyDHKeys session new) incomingPacket
  | .kAwaitingRevealSignature => sendDHKey session incomingPacket

def SecOTRSetupInitialRemoteKey (session : SecOTRSession P) (initialKey : P.PublicKey) :
    SecOTRSession P :=
  { session with
    keyCache := .zero
    theirPreviousKey := none
    theirKey := some initialKey
    theirKeyID := 1 }

/-- The key a DH key message carries. The result of reading the header is ignored: without one
the type stays that of a DH message. -/
def findTheirPublicDHKey (dhPacket : Packet) : Except OSStatus P.PublicKey :=
  match ReadHeader dhPacket.cursor with
  | .error _ => .error .errSecParam
  | .ok (messageType, c) =>
    if messageType = OTRMessageType.kDHKeyMessage.byte then
      match SecOTRPublicDHKCreateFromSerialization c with
      | some key => .ok key
      | none => .error .errSecDecode
    else .error .errSecParam

def SecOTRSExtractTheirPublicDHKey (session : SecOTRSession P) (dhPacket : Packet) :
    OSStatus × SecOTRSession P :=
  match findTheirPublicDHKey dhPacket with
  | .error result => (result, session)
  | .ok key => (.errSecSuccess, SecOTRSetupInitialRemoteKey session key)

def SecOTRSProcessDHKeyMessage (session : SecOTRSession P) (incomingPacket : Packet) :
    Option (Handled P) :=
  let (result, session) := SecOTRSExtractTheirPublicDHKey session incomingPacket
  if result = .errSecSuccess then
    match session.state with
    | .kAwaitingDHKey =>
      (SecOTRAppendRevealSignatureMessage session).map fun response =>
        ⟨.errSecSuccess, { session with
          state := .kAwaitingSignature
          receivedDHKeyMessage := some incomingPacket.bytes }, response⟩
    | .kAwaitingSignature =>
      if session.receivedDHKeyMessage = some incomingPacket.bytes then
        (SecOTRAppendRevealSignatureMessage session).map fun response =>
          ⟨.errSecSuccess, session, response⟩
      else some ⟨.errSecSuccess, session, []⟩
    | .kIdle | .kDone | .kAwaitingRevealSignature => some ⟨.errSecSuccess, session, []⟩
  else some ⟨result, session, []⟩

/-- The octets of `r` in a reveal signature message, and what follows them. That there are so
many is not checked. -/
def readR (c : Cursor) : Except OSStatus (List UInt8 × Cursor) :=
  match ReadHeader c with
  | .error _ => .error .errSecDecode
  | .ok (messageType, c) =>
    if messageType = OTRMessageType.kRevealSignatureMessage.byte then
      match ReadLong c with
      | .error _ => .error .errSecDecode
      | .ok (rSize, c) =>
        if rSize.toNat = kOTRAuthKeyBytes then
          .ok (c.peek kOTRAuthKeyBytes, c.skipUnchecked kOTRAuthKeyBytes)
        else .error .errSecDecode
    else .error .errSecDecode

/-- The encrypted key in a DH message. That the message holds as much as it says is not
checked. -/
def FindEncGYInDHPacket (dhPacket : Packet) : Except OSStatus (List UInt8) :=
  match ReadHeader dhPacket.cursor with
  | .error result => .error result
  | .ok (messageType, c) =>
    if messageType = OTRMessageType.kDHMessage.byte then
      match ReadLong c with
      | .error result => .error result
      | .ok (readEncSize, c) =>
        if readEncSize.toNat ≤ kExponentiationBytes + 4 then .ok (c.peek readEncSize.toNat)
        else .error .errSecDecode
    else .error .errSecDecode

def openCommitment (dhPacket : Packet) (r : List UInt8) : Except OSStatus P.PublicKey :=
  match FindEncGYInDHPacket dhPacket with
  | .error result => .error result
  | .ok encGY =>
    match SecOTRPublicDHKCreateFromSerialization
        (.ofBytes (AES_CTR_IV0_Transform (P := P) r encGY) fun _ => 0) with
    | some key => .ok key
    | none => .error .errSecDecode

/-- `r` is set before the commitment is opened. `behindDH` is the memory behind the commitment. -/
def SecOTRSExtractRAndTheirDHKey (session : SecOTRSession P) (behindDH : Nat → UInt8)
    (c : Cursor) : OSStatus × SecOTRSession P × Cursor :=
  match session.receivedDHMessage with
  | none => (.errSecDecode, session, c)
  | some dhMessage =>
    match readR c with
    | .error result => (result, session, c)
    | .ok (r, c) =>
      match openCommitment ⟨dhMessage, behindDH⟩ r with
      | .error result => (result, session.setR r, c)
      | .ok key => (.errSecSuccess, SecOTRSetupInitialRemoteKey (session.setR r) key, c)

def openSignature (keys : SignatureKeys) (c : Cursor) : Except OSStatus (List UInt8) :=
  match ReadLong c with
  | .error result => .error result
  | .ok (xbSize, rest) =>
    if 4 < xbSize.toNat ∧ xbSize.toNat ≤ rest.size ∧
        (xbSize + kSHA256HMAC160Bytes).toNat ≤ rest.size then
      if (rest.skip xbSize.toNat).peek kSHA256HMAC160Bytes.toNat =
          SHA256HMAC_160 (P := P) keys.m2 (c.peek (xbSize + 4).toNat) then
        .ok (AES_CTR_IV0_Transform (P := P) keys.c (rest.peek xbSize.toNat))
      else .error .errSecDecode
    else .error .errSecDecode

/-- Read the identity of the signer, which has to be theirs; yields its length. -/
def readSigner (them : P.PublicIdentity) (xb : List UInt8) : Except OSStatus (Nat × Cursor) :=
  match ReadShort (.ofBytes xb fun _ => 0) with
  | .error result => .error result
  | .ok (pubKeyType, c) =>
    if pubKeyType = 0xF000 then
      match ReadLong c with
      | .error result => .error result
      | .ok (pubKeySize, c) =>
        if pubKeySize.toNat ≤ c.size then
          if c.peek pubKeySize.toNat = P.serialization them then
            .ok (pubKeySize.toNat, c.skip pubKeySize.toNat)
          else .error .errSecAuthFailed
        else .error .errSecDecode
    else .error .errSecUnimplemented

def checkSignature (them : P.PublicIdentity) (mb : List UInt8) (c : Cursor) : OSStatus :=
  match ReadLong c with
  | .error result => result
  | .ok (sigSize, c) =>
    if sigSize.toNat ≤ c.size then
      if P.verifySignature them mb (c.peek sigSize.toNat) then .errSecSuccess else .errSecDecode
    else .errSecDecode

inductive SignatureVerdict
  | unread (result : OSStatus)
  | read (theirKeyID : UInt32) (result : OSStatus)

def judgeSignature (them : P.PublicIdentity) (myKey : P.FullKey) (theirKey : P.PublicKey)
    (usePrimes : Bool) (c : Cursor) : SignatureVerdict :=
  let keys := DeriveSignatureKeys (P := P) usePrimes (P.ccec_compute_key myKey theirKey)
  match openSignature (P := P) keys c with
  | .error result => .unread result
  | .ok xb =>
    match readSigner them xb with
    | .error result => .unread result
    | .ok (pubKeySize, c) =>
      match ReadLong c with
      | .error result => .unread result
      | .ok (theirKeyID, c) =>
        let mb := signedHash keys theirKey (P.ccec_ctx_pub myKey) (xb.take (2 + 4 + pubKeySize + 4))
        .read theirKeyID (checkSignature them mb c)

/-- The key ID is read into the session before the signature is verified. -/
def SignatureVerdict.settle (session : SecOTRSession P) :
    SignatureVerdict → OSStatus × SecOTRSession P
  | .unread result => (result, session)
  | .read theirKeyID result => (result, session.setTheirKeyID theirKeyID)

def SecVerifySignatureAndMac (session : SecOTRSession P) (usePrimes : Bool) (c : Cursor) :
    Option (OSStatus × SecOTRSession P) :=
  match session.myKey, session.theirKey with
  | some myKey, some theirKey =>
    some ((judgeSignature session.them myKey theirKey usePrimes c).settle session)
  | _, _ => none

def SecOTRSProcessRevealSignatureMessage (session : SecOTRSession P) (behindDH : Nat → UInt8)
    (incomingPacket : Packet) : Option (Handled P) :=
  if session.state = .kAwaitingRevealSignature then
    let (result, session, c) :=
      SecOTRSExtractRAndTheirDHKey session behindDH incomingPacket.cursor
    if result = .errSecSuccess then
      match SecVerifySignatureAndMac session false c with
      | none => none
      | some (result, session) =>
        if result = .errSecSuccess then
          (SecOTRAppendSignatureMessage session).map fun response =>
            ⟨.errSecSuccess, { session with state := .kDone }, response⟩
        else some ⟨result, session, []⟩
    else some ⟨result, session, []⟩
  else some ⟨.errSecSuccess, session, []⟩

def SecOTRSProcessSignatureMessage (session : SecOTRSession P) (incomingPacket : Packet) :
    Option (Handled P) :=
  if session.state = .kAwaitingSignature then
    match ReadHeader incomingPacket.cursor with
    | .error result => some ⟨result, session, []⟩
    | .ok (messageType, c) =>
      if messageType = OTRMessageType.kSignatureMessage.byte then
        match SecVerifySignatureAndMac session true c with
        | none => none
        | some (result, session) =>
          if result = .errSecSuccess then
            some ⟨.errSecSuccess,
              { session with receivedDHKeyMessage := none, state := .kDone }, []⟩
          else some ⟨result, session, []⟩
      else some ⟨.errSecDecode, session, []⟩
  else some ⟨.errSecSuccess, session, []⟩

inductive AKEHandler
  | dh | dhKey | revealSignature | signature
  deriving DecidableEq, Repr

/-- What a handler may draw on: new keys, and the memory behind the packet and behind the DH
message kept. -/
structure Supplies (P : Primitives) where
  new : NewKeys P
  beyond : Nat → UInt8
  behindDH : Nat → UInt8

def AKEHandler.process (handler : AKEHandler) (session : SecOTRSession P) (supplies : Supplies P)
    (packet : List UInt8) : Option (Handled P) :=
  match handler with
  | .dh => SecOTRSProcessDHMessage session supplies.new ⟨packet, supplies.beyond⟩
  | .dhKey => SecOTRSProcessDHKeyMessage session ⟨packet, supplies.beyond⟩
  | .revealSignature =>
    SecOTRSProcessRevealSignatureMessage session supplies.behindDH ⟨packet, supplies.beyond⟩
  | .signature => SecOTRSProcessSignatureMessage session ⟨packet, supplies.beyond⟩

def AKEHandler.ofType (packetType : UInt8) : Option AKEHandler :=
  if packetType = OTRMessageType.kDHMessage.byte then some .dh
  else if packetType = OTRMessageType.kDHKeyMessage.byte then some .dhKey
  else if packetType = OTRMessageType.kRevealSignatureMessage.byte then some .revealSignature
  else if packetType = OTRMessageType.kSignatureMessage.byte then some .signature
  else none

def SecOTRSProcessPacket (session : SecOTRSession P) (supplies : Supplies P)
    (incomingPacket : List UInt8) : Option (Handled P) :=
  if incomingPacket = [] then some ⟨.errSecParam, session, []⟩
  else
    match SecOTRCopyIncomingBytes (P := P) incomingPacket with
    | none => none
    | some decodedBytes =>
      let handler? : Option AKEHandler := match ReadHeader (.ofBytes decodedBytes supplies.beyond) with
        | .error _ => none
        | .ok (packetType, _) => AKEHandler.ofType packetType
      let handled? : Option (Handled P) := match handler? with
        | none => some ⟨.errSecDecode, session, []⟩
        | some handler => handler.process session supplies decodedBytes
      handled?.map fun handled =>
        if session.textOutput then
          { handled with response := SecOTRPrepareOutgoingBytes (P := P) handled.response }
        else handled
end SecurityFramework.Otr
