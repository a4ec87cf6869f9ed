import SecurityFramework.Otr.Packets
import SecurityFramework.Otr.MessageKeys

/-! # OTR messages -/

namespace SecurityFramework.Otr
open Memory

variable {P : Primitives}

def kCompactMessageMACSize : Nat := 16
def kSecDHKHashSize : Nat := 20

/-- All groups of 7 bits but the last, each marked to be followed by another one. A number of 64
bits has at most 10 groups. -/
def leadingGroups : (fuel value : Nat) → List UInt8
  | 0, _ => []
  | fuel + 1, value =>
    if value = 0 then []
    else leadingGroups fuel (value / 128) ++ [UInt8.ofNat (value % 128 + 128)]

def AppendLongLongCompact (value : UInt64) : List UInt8 :=
  leadingGroups 9 (value.toNat / 128) ++ [UInt8.ofNat (value.toNat % 128)]

/-- `*value <<= 7`, and the low bits of the octet; higher bits of the value are lost. -/
def readGroups : (size : Nat) → Cursor → UInt64 → Except OSStatus (UInt64 × Cursor)
  | 0, _, _ => .error .errSecDecode
  | size + 1, c, value =>
    let thisByte := c.memory 0
    let value := value * 128 + UInt64.ofNat (thisByte.toNat % 128)
    if 128 ≤ thisByte.toNat then readGroups size (c.skip 1) value else .ok (value, c.skip 1)

def ReadLongLongCompact (c : Cursor) : Except OSStatus (UInt64 × Cursor) := readGroups c.size c 0

structure Sent (P : Primitives) where
  myKey : P.FullKey
  theirKey : P.PublicKey
  counter : UInt64

def rawContents (session : SecOTRSession P) (myNextKey : P.FullKey) (theirKeyID : UInt32)
    (messageKey : List UInt8) (counter : UInt64) (sourceMessage : List UInt8) : List UInt8 :=
  AppendHeader .kDataMessage ++ [0] ++ AppendLong session.keyID ++ AppendLong theirKeyID ++
    SecFDHKAppendPublicSerialization myNextKey ++ AppendLongLong counter ++
    AppendLong (UInt32.ofNat sourceMessage.length) ++
    AES_CTR_HighHalf_Transform (P := P) messageKey counter sourceMessage

/-- The MAC keys to expose follow the MAC. -/
def SecOTRSSignAndProtectRaw_locked (session : SecOTRSession P) (myNextKey : P.FullKey)
    (theirKeyID : UInt32) (element : SecOTRCacheElement) (counter : UInt64)
    (sourceMessage : List UInt8) : List UInt8 :=
  let contents := rawContents session myNextKey theirKeyID element.sendEncryptionKey counter
    sourceMessage
  contents ++ P.hmacSHA1 element.sendMacKey contents ++ session.macKeysToExpose

/-- The message type tells whether the key of theirs has an odd number. -/
def compactMessageType (sendHashes : Bool) (theirKeyID : UInt32) : OTRMessageType :=
  if sendHashes then
    if theirKeyID % 2 = 1 then .kOddCompactDataMessageWithHashes
    else .kEvenCompactDataMessageWithHashes
  else if theirKeyID % 2 = 1 then .kOddCompactDataMessage else .kEvenCompactDataMessage

def compactContents (session : SecOTRSession P) (myKey myNextKey : P.FullKey)
    (theirKeyID : UInt32) (theirKey : P.PublicKey) (messageKey : List UInt8) (counter : UInt64)
    (sourceMessage : List UInt8) : List UInt8 :=
  [(compactMessageType session.includeHashes theirKeyID).byte] ++
    P.ccec_compact_export (P.ccec_ctx_pub myNextKey) ++ AppendLongLongCompact counter ++
    AES_CTR_HighHalf_Transform (P := P) messageKey counter sourceMessage ++
    (if session.includeHashes then SecFDHKGetHash myKey ++ SecPDHKGetHash theirKey else [])

def SecOTRSSignAndProtectCompact_locked (session : SecOTRSession P) (myKey myNextKey : P.FullKey)
    (theirKeyID : UInt32) (theirKey : P.PublicKey) (element : SecOTRCacheElement)
    (counter : UInt64) (sourceMessage : List UInt8) : List UInt8 :=
  let contents := compactContents session myKey myNextKey theirKeyID theirKey
    element.sendEncryptionKey counter sourceMessage
  contents ++ (P.hmacSHA1 element.sendMacKey contents).take kCompactMessageMACSize

def SecOTRSession.setElement (session : SecOTRSession P) (i : Fin kOTRKeyCacheSize)
    (element : SecOTRCacheElement) : SecOTRSession P :=
  session.setKeyCache (Function.update session.keyCache i element)

structure Protected (P : Primitives) where
  result : OSStatus
  session : SecOTRSession P
  message : List UInt8
  /-- Kept for the record. -/
  sent : Option (Sent P)

/-- The key of theirs to protect a message for: while we stall, the previous one. -/
def theirKeyToUse (session : SecOTRSession P) (theirKey : P.PublicKey) :
    P.PublicKey × UInt32 :=
  match session.stallingTheirRoll, session.theirPreviousKey with
  | true, some theirPreviousKey => (theirPreviousKey, session.theirKeyID - 1)
  | _, _ => (theirKey, session.theirKeyID)

def protectWith (session : SecOTRSession P) (myKey myNextKey : P.FullKey)
    (theirKey : P.PublicKey) (sourceMessage : List UInt8) : Protected P :=
  let (theirKey, theirKeyID) := theirKeyToUse session theirKey
  let (session, i) := SecOTRSFindKeysForMessage session myKey theirKey
  let element := session.keyCache i
  let counter := element.counter + 1
  let session := session.setElement i { element with counter := counter }
  let message :=
    if session.compactAppleMessages then
      SecOTRSSignAndProtectCompact_locked session myKey myNextKey theirKeyID theirKey element
        counter sourceMessage
    else
      SecOTRSSignAndProtectRaw_locked session myNextKey theirKeyID element counter sourceMessage
  { result := .errSecSuccess
    session := { session with macKeysToExpose := [] }
    message :=
      if session.textOutput then SecOTRPrepareOutgoingBytes (P := P) message else message
    sent := some ⟨myKey, theirKey, counter⟩ }

def SecOTRSSignAndProtectMessage (session : SecOTRSession P) (now : ℚ) (newKey : P.FullKey)
    (sourceMessage : List UInt8) : Option (Protected P) :=
  if session.state = .kDone ∧ session.myKey.isSome ∧ session.theirKey.isSome then
    match SecOTRSRollIfTime session now newKey with
    | none => none
    | some session =>
      match session.myKey, session.myNextKey, session.theirKey with
      | some myKey, some myNextKey, some theirKey =>
        some (protectWith session myKey myNextKey theirKey sourceMessage)
      | _, _, _ => none
  else some ⟨.errSecParam, session, [], none⟩

structure DataSupplies (P : Primitives) where
  acceptTime : ℚ
  acknowledgeTime : ℚ
  acknowledgeKey : P.FullKey
  rollTime : ℚ
  rollKey : P.FullKey
  beyond : Nat → UInt8

structure Exposed (P : Primitives) where
  result : OSStatus
  session : SecOTRSession P
  contents : List UInt8
  /-- The pair and the counter a message was accepted under, kept for the record. -/
  accepted : Option (KeyPair × UInt64)

/-- The keys a message names: ours, theirs, whether ours is the next one, and what is left. -/
structure Named (P : Primitives) where
  myKey : Option P.FullKey
  theirKey : Option P.PublicKey
  acknowledges : Bool
  /-- Whether a next key that comes along is to be taken. -/
  fromCurrent : Bool
  rest : Cursor

structure Opened (P : Primitives) where
  counter : UInt64
  contents : List UInt8
  newKey : Option P.PublicKey

def acceptMessage (session : SecOTRSession P) (i : Fin kOTRKeyCacheSize) (counter : UInt64)
    (newKey : Option P.PublicKey) (acknowledges : Bool) (supplies : DataSupplies P) :
    Option (SecOTRSession P) :=
  let session := session.setElement i { session.keyCache i with theirCounter := counter }
  let session := match newKey with
    | some newKey => SecOTRAcceptNewRemoteKey session newKey supplies.acceptTime
    | none => session
  let session? :=
    if acknowledges then
      SecOTRSHandleProposalAcknowledge session supplies.acknowledgeTime supplies.acknowledgeKey
    else some session
  match session? with
  | none => none
  | some session =>
    (SecOTRSRollIfTime session supplies.rollTime supplies.rollKey).map
      SecOTRSPrecalculateNextKeysInternal

def SizeAndSkipDATA (c : Cursor) : Except OSStatus (List UInt8 × Cursor) :=
  match ReadLong c with
  | .error result => .error result
  | .ok (sizeRead, c) =>
    if sizeRead.toNat ≤ c.size then .ok (c.peek sizeRead.toNat, c.skip sizeRead.toNat)
    else .error .errSecDecode

def nameRaw (session : SecOTRSession P) (c : Cursor) : Except OSStatus (Named P) :=
  match ReadHeader c with
  | .error result => .error result
  | .ok (messageType, c) =>
    if messageType = OTRMessageType.kDataMessage.byte ∧ 0 < c.size then
      match ReadByte c with
      | .error result => .error result
      | .ok (flags, c) =>
        if flags = 0 then
          match ReadLong c with
          | .error result => .error result
          | .ok (theirID, c) =>
            if theirID = session.theirKeyID ∨
                (theirID = session.theirKeyID - 1 ∧ session.theirPreviousKey.isSome) then
              match ReadLong c with
              | .error result => .error result
              | .ok (myID, c) =>
                if myID = session.keyID ∨
                    (myID = session.keyID + 1 ∧ session.myNextKey.isSome) then
                  .ok {
                    myKey := if myID = session.keyID then session.myKey else session.myNextKey
                    theirKey := if theirID = session.theirKeyID then session.theirKey
                      else session.theirPreviousKey
                    acknowledges := decide (myID = session.keyID + 1)
                    fromCurrent := decide (theirID = session.theirKeyID)
                    rest := c }
                else .error (if myID < session.keyID then .errSecOTRTooOld else .errSecOTRIDTooNew)
            else .error
              (if theirID + 1 < session.theirKeyID then .errSecOTRTooOld else .errSecOTRIDTooNew)
        else .error .errSecDecode
    else .error .errSecDecode

def openRaw (start : Cursor) (element : SecOTRCacheElement) (c : Cursor) :
    Except OSStatus (Opened P) :=
  match SizeAndSkipDATA c with
  | .error result => .error result
  | .ok (nextKeyMPI, c) =>
    match ReadLongLong c with
    | .error result => .error result
    | .ok (counter, c) =>
      if element.theirCounter < counter then
        match SizeAndSkipDATA c with
        | .error result => .error result
        | .ok (message, c) =>
          if CCSHA1_OUTPUT_SIZE ≤ c.size then
            if c.peek CCSHA1_OUTPUT_SIZE =
                P.hmacSHA1 element.receiveMacKey (start.peek (start.size - c.size)) then
              .ok {
                counter := counter
                contents := AES_CTR_HighHalf_Transform (P := P) element.receiveEncryptionKey
                  counter message
                newKey := P.ccec_import_pub nextKeyMPI }
            else .error .errSecAuthFailed
          else .error .errSecDecode
      else .error .errSecOTRTooOld

def nameCompact (session : SecOTRSession P) (c : Cursor) :
    Except OSStatus (Named P × P.PublicKey × Bool) :=
  match ReadByte c with
  | .error result => .error result
  | .ok (typeByte, c) =>
    let useEvenKey := decide (typeByte = OTRMessageType.kEvenCompactDataMessage.byte ∨
      typeByte = OTRMessageType.kEvenCompactDataMessageWithHashes.byte)
    let sentHashes := decide (typeByte = OTRMessageType.kOddCompactDataMessageWithHashes.byte ∨
      typeByte = OTRMessageType.kEvenCompactDataMessageWithHashes.byte)
    if useEvenKey ∨ sentHashes ∨ typeByte = OTRMessageType.kOddCompactDataMessage.byte then
      let useCurrentKey := Bool.xor useEvenKey (decide (session.keyID % 2 = 1))
      let myKey := if useCurrentKey then session.myKey else session.myNextKey
      if myKey.isSome ∧ 32 ≤ c.size then
        match P.ccec_compact_import_pub (c.peek 32) with
        | none => .error .errSecDecode
        | some theirProposal =>
          let proposalIsNew :=
            decide (session.theirKey.map SecPDHKGetHash ≠ some (SecPDHKGetHash theirProposal))
          let theirKey := if proposalIsNew then session.theirKey else session.theirPreviousKey
          if theirKey.isSome then
            .ok ({
              myKey := myKey
              theirKey := theirKey
              acknowledges := !useCurrentKey
              fromCurrent := proposalIsNew
              rest := c.skip 32 }, theirProposal, sentHashes)
          else .error .errSecDecode
      else .error .errSecDecode
    else .error .errSecDecode

/-- Read the rest of a compact message and check its MAC. Where hashes and MAC do not fit, the
sizes wrap around and no message can be exposed. -/
def openCompact (start : Cursor) (element : SecOTRCacheElement) (theirProposal : P.PublicKey)
    (sentHashes : Bool) (c : Cursor) : Except OSStatus (Opened P) :=
  match ReadLongLongCompact c with
  | .error result => .error result
  | .ok (counter, c) =>
    if element.theirCounter < counter then
      let trailer := kCompactMessageMACSize + if sentHashes then 2 * kSecDHKHashSize else 0
      if trailer ≤ c.size then
        let messageSize := c.size - trailer
        if (start.skip (start.size - kCompactMessageMACSize)).peek kCompactMessageMACSize =
            (P.hmacSHA1 element.receiveMacKey
              (start.peek (start.size - kCompactMessageMACSize))).take kCompactMessageMACSize then
          .ok {
            counter := counter
            contents := AES_CTR_HighHalf_Transform (P := P) element.receiveEncryptionKey counter
              (c.peek messageSize)
            newKey := some theirProposal }
        else .error .errSecAuthFailed
      else .error .errSecAuthFailed
    else .error .errSecOTRTooOld

/-- Find the message keys of a named pair, open the message with them and accept it. Without a
key of ours the code goes on to use a MAC key that is not there. -/
def exposeNamed (session : SecOTRSession P) (named : Named P) (supplies : DataSupplies P)
    (openWith : SecOTRCacheElement → Except OSStatus (Opened P)) : Option (Exposed P) :=
  match named.myKey, named.theirKey with
  | some myKey, some theirKey =>
    let (session, i) := SecOTRSFindKeysForMessage session myKey theirKey
    match openWith (session.keyCache i) with
    | .error result => some ⟨result, session, [], none⟩
    | .ok opened =>
      (acceptMessage session i opened.counter (if named.fromCurrent then opened.newKey else none)
        named.acknowledges supplies).map fun session =>
          ⟨.errSecSuccess, session, opened.contents,
            some (pairOf myKey theirKey, opened.counter)⟩
  | _, _ => none

def SecOTRVerifyAndExposeRaw_locked (session : SecOTRSession P) (supplies : DataSupplies P)
    (start : Cursor) : Option (Exposed P) :=
  match nameRaw session start with
  | .error result => some ⟨result, session, [], none⟩
  | .ok named =>
    exposeNamed session named supplies fun element => openRaw start element named.rest

def SecOTRVerifyAndExposeRawCompact_locked (session : SecOTRSession P)
    (supplies : DataSupplies P) (start : Cursor) : Option (Exposed P) :=
  match nameCompact session start with
  | .error result => some ⟨result, session, [], none⟩
  | .ok (named, theirProposal, sentHashes) =>
    exposeNamed session named supplies fun element =>
      openCompact start element theirProposal sentHashes named.rest

def SecOTRSGetMessageType (c : Cursor) : Option OTRMessageType :=
  let byte := match ReadHeader c with
    | .ok (messageType, _) => messageType
    | .error _ => c.memory 0
  let types := match ReadHeader c with
    | .ok _ => [OTRMessageType.kDataMessage, .kEvenCompactDataMessage, .kOddCompactDataMessage,
      .kEvenCompactDataMessageWithHashes, .kOddCompactDataMessageWithHashes]
    | .error _ => [.kEvenCompactDataMessage, .kOddCompactDataMessage,
      .kEvenCompactDataMessageWithHashes, .kOddCompactDataMessageWithHashes]
  types.find? fun type => type.byte = byte

/-- The decoded message is decoded once more to find its type. -/
def SecOTRSVerifyAndExposeMessage (session : SecOTRSession P) (supplies : DataSupplies P)
    (incomingMessage : List UInt8) : Option (Exposed P) :=
  if session.state = .kDone then
    match SecOTRCopyIncomingBytes (P := P) incomingMessage with
    | none => none
    | some decodedBytes =>
      match SecOTRCopyIncomingBytes (P := P) decodedBytes with
      | none => none
      | some decodedAgain =>
        let start := Cursor.ofBytes decodedBytes supplies.beyond
        match SecOTRSGetMessageType (.ofBytes decodedAgain supplies.beyond) with
        | some .kDataMessage => SecOTRVerifyAndExposeRaw_locked session supplies start
        | some _ => SecOTRVerifyAndExposeRawCompact_locked session supplies start
        | none => some ⟨.errSecUnsupportedFormat, session, [], none⟩
  else some ⟨.errSecOTRNotReady, session, [], none⟩
end SecurityFramework.Otr
