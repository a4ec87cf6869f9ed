import SecurityFramework.Library.ByteOrder
import SecurityFramework.Library.SlotTable
import SecurityFramework.Otr.Session

/-!
# OTR message keys

Message keys are derived from a key of ours and one of theirs, and kept in the cache of the
session together with the counters of the messages sent and received under them.
-/

namespace SecurityFramework.Otr
variable {P : Primitives}

/-- Keys of different size compare the other way round. -/
def ccec_cmp (l r : P.PublicKey) : Int :=
  let lpub := P.ccec_export_pub l
  let rpub := P.ccec_export_pub r
  if lpub.length = rpub.length then
    if lpub.length > 65 then 0 else ByteOrder.memcmp lpub rpub
  else if rpub.length < lpub.length then -1 else 1

def SecDHKIsGreater (myKey : P.FullKey) (theirKey : P.PublicKey) : Bool :=
  decide (0 < ccec_cmp (P.ccec_ctx_pub myKey) theirKey)

structure DirectionKeys where
  messageKey : List UInt8
  macKey : List UInt8
  deriving DecidableEq

def DeriveKeys (dataToHash : List UInt8) : DirectionKeys :=
  let messageKey := (P.sha1 dataToHash).take kOTRMessageKeyBytes
  ⟨messageKey, P.sha1 messageKey⟩

/-- The first octet to hash tells the directions apart; its bits are inverted to send. -/
def receiveByte (myKey : P.FullKey) (theirKey : P.PublicKey) : UInt8 :=
  if SecDHKIsGreater myKey theirKey then 0x01 else 0x02

def SecOTRDHKGenerateOTRKeys (myKey : P.FullKey) (theirKey : P.PublicKey) :
    DirectionKeys × DirectionKeys :=
  let s := AppendDATA (P.ccec_compute_key myKey theirKey)
  let byte := receiveByte myKey theirKey
  (DeriveKeys (P := P) ((byte ^^^ 0x03) :: s), DeriveKeys (P := P) (byte :: s))

abbrev KeyPair := List UInt8 × List UInt8

def SecOTRCacheElement.pair (element : SecOTRCacheElement) : KeyPair :=
  (element.fullKeyHash, element.publicKeyHash)

def vacantPair : KeyPair := (zeroHash, zeroHash)

def pairOf (myKey : P.FullKey) (theirKey : P.PublicKey) : KeyPair :=
  (SecFDHKGetHash myKey, SecPDHKGetHash theirKey)

def newCacheElement (myKey : P.FullKey) (theirKey : P.PublicKey) : SecOTRCacheElement :=
  let keys := SecOTRDHKGenerateOTRKeys myKey theirKey
  { fullKeyHash := SecFDHKGetHash myKey
    publicKeyHash := SecPDHKGetHash theirKey
    sendMacKey := keys.1.macKey
    sendEncryptionKey := keys.1.messageKey
    receiveMacKey := keys.2.macKey
    receiveEncryptionKey := keys.2.messageKey
    counter := 0
    theirCounter := 0 }

def SecOTRSession.setKeyCache (session : SecOTRSession P) (keyCache : KeyCache) :
    SecOTRSession P :=
  { session with keyCache := keyCache }

/-- Search the cache for a pair of keys; one not found takes the first empty element, or else the
first element. Yields the element's position. -/
def SecOTRSFindKeysForMessage (session : SecOTRSession P) (myKey : P.FullKey)
    (theirKey : P.PublicKey) : SecOTRSession P × Fin kOTRKeyCacheSize :=
  match SlotTable.find? SecOTRCacheElement.pair session.keyCache (pairOf myKey theirKey) with
  | some cachedKeys => (session, cachedKeys)
  | none =>
    let emptyKeys :=
      (SlotTable.find? SecOTRCacheElement.pair session.keyCache vacantPair).getD 0
    (session.setKeyCache
      (Function.update session.keyCache emptyKeys (newCacheElement myKey theirKey)), emptyKeys)

/-- Clear the elements of some pairs; their receiving MAC keys are to be exposed. -/
def expireCachedKeys (session : SecOTRSession P) (gone : KeyPair → Prop) [DecidablePred gone] :
    SecOTRSession P :=
  { session with
    macKeysToExpose := session.macKeysToExpose ++ (List.finRange kOTRKeyCacheSize).flatMap
      fun i => if gone (session.keyCache i).pair then (session.keyCache i).receiveMacKey else []
    keyCache := SlotTable.clear SecOTRCacheElement.pair .zero gone session.keyCache }

def SecOTRSExpireCachedKeysForFullKey (session : SecOTRSession P) (myKey : P.FullKey) :
    SecOTRSession P :=
  expireCachedKeys session fun pair => pair.1 = SecFDHKGetHash myKey

def SecOTRSExpireCachedKeysForPublicKey (session : SecOTRSession P) (theirKey : P.PublicKey) :
    SecOTRSession P :=
  expireCachedKeys session fun pair => pair.2 = SecPDHKGetHash theirKey

def SecOTRSPrecalculateForPair (session : SecOTRSession P) (myKey? : Option P.FullKey)
    (theirKey? : Option P.PublicKey) : SecOTRSession P :=
  match myKey?, theirKey? with
  | some myKey, some theirKey =>
    let session := (SecOTRSFindKeysForMessage session myKey theirKey).1
    (SecOTRSFindKeysForMessage session myKey theirKey).1
  | _, _ => session

def SecOTRSPrecalculateKeysInternal (session : SecOTRSession P) : SecOTRSession P :=
  let session := SecOTRSPrecalculateForPair session session.myKey session.theirKey
  let session := SecOTRSPrecalculateForPair session session.myNextKey session.theirKey
  let session := SecOTRSPrecalculateForPair session session.myKey session.theirPreviousKey
  SecOTRSPrecalculateForPair session session.myNextKey session.theirPreviousKey

def SecOTRSPrecalculateNextKeysInternal (session : SecOTRSession P) : SecOTRSession P :=
  SecOTRSPrecalculateForPair session session.myKey session.theirKey
end SecurityFramework.Otr

namespace SecurityFramework.Otr
variable {P : Primitives}

def SecOTRSEnableTimeToRoll (session : SecOTRSession P) (now : ℚ) : SecOTRSession P :=
  let nextTimeToRoll := now + session.stallSeconds.toNat
  if session.timeToRoll = 0 ∨ nextTimeToRoll < session.timeToRoll then
    { session with timeToRoll := nextTimeToRoll }
  else session

def SecOTRGenerateNewProposedKey (session : SecOTRSession P) (newKey : P.FullKey) :
    Option (SecOTRSession P) :=
  session.myKey.map fun myKey =>
    { SecOTRSExpireCachedKeysForFullKey session myKey with
      myKey := session.myNextKey
      myNextKey := some newKey
      keyID := session.keyID + 1 }

def SecOTRSHandleProposalAcknowledge (session : SecOTRSession P) (now : ℚ)
    (newKey : P.FullKey) : Option (SecOTRSession P) :=
  if session.missedAck then
    (SecOTRGenerateNewProposedKey session newKey).map fun session =>
      { session with missedAck := false }
  else some (SecOTRSEnableTimeToRoll { session with receivedAck := true } now)

def SOSOTRSRoll (session : SecOTRSession P) (newKey : P.FullKey) : Option (SecOTRSession P) :=
  let session := { session with stallingTheirRoll := false }
  if session.receivedAck then
    (SecOTRGenerateNewProposedKey session newKey).map fun session =>
      { session with missedAck := false, receivedAck := false }
  else some { session with missedAck := true }

/-- A time to roll that is too far off counts as passed. -/
def SecOTRSRollIfTime (session : SecOTRSession P) (now : ℚ) (newKey : P.FullKey) :
    Option (SecOTRSession P) :=
  if session.timeToRoll < now ∨ now + session.stallSeconds.toNat < session.timeToRoll then
    (SOSOTRSRoll session newKey).map fun session => { session with timeToRoll := 0 }
  else some session

def SecOTRSKickTimeToRoll (session : SecOTRSession P) (now : ℚ) : SecOTRSession P :=
  { session with timeToRoll := now }

def SecOTRAcceptNewRemoteKey (session : SecOTRSession P) (newKey : P.PublicKey) (now : ℚ) :
    SecOTRSession P :=
  let session := match session.theirPreviousKey with
    | some theirPreviousKey => SecOTRSExpireCachedKeysForPublicKey session theirPreviousKey
    | none => session
  SecOTRSEnableTimeToRoll
    { session with
      theirPreviousKey := session.theirKey
      theirKey := some newKey
      stallingTheirRoll := true
      theirKeyID := session.theirKeyID + 1 } now
end SecurityFramework.Otr
