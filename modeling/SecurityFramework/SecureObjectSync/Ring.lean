import SecurityFramework.SecureObjectSync.Circle

/-!
# Rings

A ring is a few dictionaries, one of which is signed.
-/

namespace SecurityFramework
open DER

structure SOSRing where
  unSignedInformation : List (Plist × Plist)
  signedInformation : List (Plist × Plist)
  signatures : List (Plist × Plist)

def sApplicantsKey : CFString := cfstr "Applicants"

def sRejectionsKey : CFString := cfstr "Rejections"

def sLastPeerToModifyKey : CFString := cfstr "LastModifier"

def sPeerIDsKey : CFString := cfstr "PeerIDs"

def sPayloadKey : CFString := cfstr "Payload"

def sBackupViewSetKey : CFString := cfstr "BackupViews"

def sGenerationKey : CFString := cfstr "Generation"

def asSet : Plist → Option (List Plist)
  | .set elements => some elements
  | _ => none

def changeSet (dict : List (Plist × Plist)) (key : CFString) (change : List Plist → List Plist) :
    List (Plist × Plist) :=
  match (cfDictionaryGetValue dict key).bind asSet with
  | some elements => cfDictionarySetValue dict key (.set (change elements))
  | none => dict

def cfSetContainsID (dict : List (Plist × Plist)) (key peerid : CFString) : Bool :=
  match (cfDictionaryGetValue dict key).bind asSet with
  | some elements => elements.any fun element => cfEqual element (.string peerid)
  | none => false

def addID (peerid : CFString) (elements : List Plist) : List Plist :=
  if elements.any fun element => cfEqual element (.string peerid) then elements
  else elements ++ [.string peerid]

def removeID (peerid : CFString) (elements : List Plist) : List Plist :=
  elements.filter fun element => !cfEqual element (.string peerid)

namespace SOSRing
def changeUnsigned (ring : SOSRing) (key : CFString) (change : List Plist → List Plist) :
    SOSRing :=
  { ring with unSignedInformation := changeSet ring.unSignedInformation key change }

def changeSigned (ring : SOSRing) (key : CFString) (change : List Plist → List Plist) : SOSRing :=
  { ring with signedInformation := changeSet ring.signedInformation key change }
end SOSRing

def SOSRingHasPeerID (ring : SOSRing) (peerID : CFString) : Bool :=
  cfSetContainsID ring.signedInformation sPeerIDsKey peerID

def SOSRingHasApplicant (ring : SOSRing) (peerID : CFString) : Bool :=
  cfSetContainsID ring.unSignedInformation sApplicantsKey peerID

def SOSRingHasRejection (ring : SOSRing) (peerID : CFString) : Bool :=
  cfSetContainsID ring.unSignedInformation sRejectionsKey peerID

def SOSRingAddPeerID (ring : SOSRing) (peerid : CFString) : SOSRing :=
  ring.changeSigned sPeerIDsKey (addID peerid)

def SOSRingRemovePeerID (ring : SOSRing) (peerid : CFString) : SOSRing :=
  ring.changeSigned sPeerIDsKey (removeID peerid)

def SOSRingRemoveApplicant (ring : SOSRing) (peerid : CFString) : SOSRing :=
  ring.changeUnsigned sApplicantsKey (removeID peerid)

def SOSRingRemoveRejection (ring : SOSRing) (peerid : CFString) : SOSRing :=
  ring.changeUnsigned sRejectionsKey (removeID peerid)

def SOSRingSetLastModifier (ring : SOSRing) (peerID : CFString) : SOSRing :=
  { ring with
    unSignedInformation :=
      cfDictionarySetValue ring.unSignedInformation sLastPeerToModifyKey (.string peerID) }

def SOSRingSetPayload_Internal (ring : SOSRing) (payload : List UInt8) : SOSRing :=
  { ring with
    signedInformation := cfDictionarySetValue ring.signedInformation sPayloadKey (.data payload) }

def SOSRingSetBackupViewset_Internal (ring : SOSRing) (viewSet : List Plist) : SOSRing :=
  { ring with
    signedInformation :=
      cfDictionarySetValue ring.signedInformation sBackupViewSetKey (.set viewSet) }

def asNumber : Plist → Option SOSGenCount
  | .number value => some value
  | _ => none

def SOSRingGetGeneration (ring : SOSRing) : Option SOSGenCount :=
  (cfDictionaryGetValue ring.signedInformation sGenerationKey).bind asNumber

def SOSRingSetGeneration (ring : SOSRing) (gen : SOSGenCount) : SOSRing :=
  { ring with
    signedInformation := cfDictionarySetValue ring.signedInformation sGenerationKey (.number gen) }

def SOSRingGenerationIncrement (ring : SOSRing) (seconds : BitVec 32) : SOSRing :=
  SOSRingSetGeneration ring (sosGenerationCreateOrIncrement (SOSRingGetGeneration ring) seconds)

/-- Generations are not compared with one that is missing. -/
def SOSRingGenerationCreateWithBaseline (newring baseline : SOSRing) (seconds again : BitVec 32) :
    Option SOSRing :=
  (SOSRingGetGeneration baseline).map fun gen =>
    SOSRingSetGeneration newring (SOSGenerationCreateWithBaseline gen seconds again)

def SOSRingResetToEmpty_Internal (ring : SOSRing) (seconds : BitVec 32) : SOSRing :=
  let ring := ring.changeUnsigned sApplicantsKey fun _ => []
  let ring := ring.changeUnsigned sRejectionsKey fun _ => []
  let ring := ring.changeSigned sPeerIDsKey fun _ => []
  SOSRingSetGeneration { ring with signatures := [] } (SOSGenerationCreate seconds)

section
variable (der : Primitives) (dates : DateSystem) {κ : Type} (keys : SecKeys κ)

def SOSRingCreateHash (ring : SOSRing) : Option (List UInt8) :=
  (CFPropertyListCreateDERData der dates (.dictionary ring.signedInformation)).map keys.sha256

/-- A key without an ID leaves the signatures alone. -/
def SOSRingSetSignature (ring : SOSRing) (privKey : κ) (signature : List UInt8) : SOSRing :=
  match (keys.createPublicFromPrivate privKey).bind (SOSCopyIDOfKey keys) with
  | some pubKeyID =>
    { ring with signatures := cfDictionarySetValue ring.signatures pubKeyID (.data signature) }
  | none => ring

/-- A hash or a signature that could not be made is used all the same. -/
def SOSRingSign (ring : SOSRing) (privKey : κ) : Option SOSRing := do
  let hash ← SOSRingCreateHash der dates keys ring
  let signature ← keys.rawSign privKey hash
  some (SOSRingSetSignature keys ring privKey signature)

/-- Whether the operation succeeds, and the ring it leaves; `none` where it does not come to an
end. -/
abbrev RingOutcome := Option (Bool × SOSRing)

def SOSRingGenerationSign_Internal (ring : SOSRing) (privKey : Option κ) (now : ClockReading) :
    RingOutcome :=
  match privKey with
  | none => some (false, ring)
  | some privKey =>
    let ring := SOSRingGenerationIncrement ring now.seconds
    (SOSRingSign der dates keys { ring with signatures := [] } privKey).map fun ring => (true, ring)

def concordanceSignUser (user_privkey : Option κ) (outcome : Bool × SOSRing) : RingOutcome :=
  match user_privkey with
  | some user_privkey =>
    (SOSRingSign der dates keys outcome.2 user_privkey).map fun ring => (outcome.1, ring)
  | none => some outcome

def changeAndSign (ring : SOSRing) (requestor : SOSFullPeerInfo κ) (change : SOSRing → SOSRing)
    (now : ClockReading) : RingOutcome :=
  match requestor.deviceKey with
  | none => some (false, ring)
  | some priv =>
    SOSRingGenerationSign_Internal der dates keys (change ring) (some priv) now

def SOSRingResetToEmpty_Basic (ring : SOSRing) (myPeerID : CFString) (now : ClockReading) :
    SOSRing :=
  SOSRingSetLastModifier (SOSRingResetToEmpty_Internal ring now.seconds) myPeerID

def SOSRingResetToOffering_Basic (ring : SOSRing) (user_privkey : Option κ)
    (requestor : SOSFullPeerInfo κ) (now later : ClockReading) : RingOutcome := do
  let myPeerID := requestor.peerInfo.peerID
  let outcome ← changeAndSign der dates keys ring requestor (fun ring =>
    SOSRingSetLastModifier
      (SOSRingAddPeerID (SOSRingResetToEmpty_Internal ring now.seconds) myPeerID) myPeerID) later
  concordanceSignUser der dates keys user_privkey outcome

def SOSRingApply_Basic (ring : SOSRing) (requestor : SOSFullPeerInfo κ) (now : ClockReading) :
    RingOutcome :=
  let myPeerID := requestor.peerInfo.peerID
  if SOSRingHasPeerID ring myPeerID || SOSRingHasApplicant ring myPeerID ||
      SOSRingHasRejection ring myPeerID then some (false, ring)
  else
    changeAndSign der dates keys ring requestor (fun ring =>
      SOSRingSetLastModifier (SOSRingAddPeerID ring myPeerID) myPeerID) now

def withdrawID (ring : SOSRing) (myPeerID : CFString) : Option SOSRing :=
  if SOSRingHasPeerID ring myPeerID then some (SOSRingRemovePeerID ring myPeerID)
  else if SOSRingHasApplicant ring myPeerID then some (SOSRingRemoveApplicant ring myPeerID)
  else if SOSRingHasRejection ring myPeerID then some (SOSRingRemoveRejection ring myPeerID)
  else none

/-- The withdrawal succeeds whether or not it can be signed. -/
def SOSRingWithdraw_Basic (ring : SOSRing) (user_privkey : Option κ)
    (requestor : SOSFullPeerInfo κ) (now : ClockReading) : RingOutcome :=
  let myPeerID := requestor.peerInfo.peerID
  match withdrawID ring myPeerID with
  | none => some (false, ring)
  | some ring => do
    let (_, ring) ← SOSRingGenerationSign_Internal der dates keys
      (SOSRingSetLastModifier ring myPeerID) requestor.deviceKey now
    concordanceSignUser der dates keys user_privkey (true, ring)

def SOSRingGenerationSign_Basic (ring : SOSRing) (user_privkey : Option κ)
    (requestor : SOSFullPeerInfo κ) (now : ClockReading) : RingOutcome := do
  let outcome ← changeAndSign der dates keys ring requestor (fun ring =>
    SOSRingSetLastModifier ring requestor.peerInfo.peerID) now
  concordanceSignUser der dates keys user_privkey outcome

def SOSRingConcordanceSign_Basic (ring : SOSRing) (requestor : SOSFullPeerInfo κ) : RingOutcome :=
  match requestor.deviceKey with
  | none => some (false, ring)
  | some priv =>
    (SOSRingSign der dates keys (SOSRingSetLastModifier ring requestor.peerInfo.peerID) priv).map
      fun ring => (true, ring)

def SOSRingSetPayload_Basic (ring : SOSRing) (user_privkey : Option κ) (payload : List UInt8)
    (requestor : SOSFullPeerInfo κ) (now : ClockReading) : RingOutcome := do
  let outcome ← changeAndSign der dates keys ring requestor (fun ring =>
    SOSRingSetPayload_Internal (SOSRingSetLastModifier ring requestor.peerInfo.peerID) payload) now
  concordanceSignUser der dates keys user_privkey outcome

def SOSBackupRingSetViews (ring : SOSRing) (requestor : SOSFullPeerInfo κ) (viewSet : List Plist)
    (now : ClockReading) : RingOutcome :=
  changeAndSign der dates keys ring requestor (fun ring =>
    SOSRingSetBackupViewset_Internal (SOSRingSetLastModifier ring requestor.peerInfo.peerID)
      viewSet) now
end
end SecurityFramework
