import SecurityFramework.SecureObjectSync.Circle
import SecurityFramework.SecureObjectSync.MessageCoding

/-!
# Coding of circles

A circle is written as its name and generation, its three sets of peer infos, each in the order of
the peer IDs, and its signatures.
-/

namespace SecurityFramework
open DER

section
variable (der : Primitives) (dates : DateSystem)

def SOSPeerInfoGetDEREncodedSize (peer : SOSPeerInfo) : Nat :=
  let plist_size := derSizeofPlist der dates (.dictionary peer.description)
  if plist_size = 0 then 0
  else
    let signature_size := derSizeofData der peer.signature
    if signature_size = 0 then 0
    else sizeof der ccderConstructedSequence (plist_size + signature_size)

/-- The V2 data is packed before it is written, and stays so. -/
def SOSPeerInfoEncodeToDER (peer : SOSPeerInfo) (buffer : Output) : Output :=
  let peer := SOSPeerInfoPackV2Data der dates peer
  encodeConstructedTl der ccderConstructedSequence buffer
    (derEncodePlist der dates (.dictionary peer.description)
      (derEncodeData der peer.signature buffer))

def SOSCreateDictionaryFromDER (v2Data : List UInt8) : Option (List (Plist × Plist)) :=
  match CFPropertyListCreateWithDERData der dates v2Data with
  | some (.dictionary entries) => some entries
  | _ => none

def SOSPeerInfoExpandV2Data (pi : SOSPeerInfo) : SOSPeerInfo :=
  if SOSPeerInfoVersionHasV2Data pi then
    { pi with
      v2Dictionary := pi.v2Dictionary.or
        ((pi.data sV2DictionaryKey).bind (SOSCreateDictionaryFromDER der dates)) }
  else pi

def descriptionVersion (description : List (Plist × Plist)) : Option Int :=
  match cfDictionaryGetValue description sVersionKey with
  | none => some 0
  | some (.number versionNumber) => some versionNumber.toInt
  | some _ => none

def hasGestalt (description : List (Plist × Plist)) : Bool :=
  match cfDictionaryGetValue description sGestaltKey with
  | some (.dictionary _) => true
  | _ => false

/-- What is read has to be signed by the key in it. -/
def SOSPeerInfoCreateFromDER {κ : Type} (keys : SecKeys κ) : Reader SOSPeerInfo := fun octets => do
  let (payload, rest) ← decodeConstructedTl der ccderConstructedSequence octets
  let (pl, payload) ← derDecodePlist der dates payload
  let (signature, payload) ← derDecodeImplicitData der ccderOctetString payload
  if payload ≠ [] then none
  match pl with
  | .dictionary description =>
    let version ← descriptionVersion description
    if !hasGestalt description then none
    let pi : SOSPeerInfo :=
      { description, signature, version
        peerID := [], verifiedAppKeyID := none, verifiedResult := false, v2Dictionary := none }
    let pubKey ← SOSPeerInfoCopyPubKey keys pi
    let peerID ← SOSCopyIDOfKey keys pubKey
    let pi := SOSPeerInfoExpandV2Data der dates { pi with peerID }
    let (verified, pi) := SOSPeerInfoVerify der dates keys pi
    if verified then some (pi, rest) else none
  | _ => none

def SOSPeerInfoArrayCreateFromDER {κ : Type} (keys : SecKeys κ) : Reader (List SOSPeerInfo) :=
  fun octets => do
    let (payload, rest) ← decodeConstructedTl der ccderConstructedSequence octets
    let peers ← decodeMembers (SOSPeerInfoCreateFromDER der dates keys)
      (fun pia pi => pia ++ [pi]) payload.length [] payload
    some (peers, rest)

def SOSPeerInfoArrayEncodeToDER (pia : List SOSPeerInfo) (buffer : Output) : Output :=
  encodeConstructedTl der ccderConstructedSequence buffer
    (pia.foldr (SOSPeerInfoEncodeToDER der dates) buffer)

/-- `CFSetSetValue`, which puts a value in the place of the one with its key. -/
def cfSetSetValue (theSet : SOSPeerInfoSet) (pi : SOSPeerInfo) : SOSPeerInfoSet :=
  if theSet.contains pi.peerID then theSet.replace pi else theSet.add pi

def SOSPeerInfoSetCreateFromArrayDER {κ : Type} (keys : SecKeys κ) : Reader SOSPeerInfoSet :=
  fun octets => do
    let (peers, rest) ← SOSPeerInfoArrayCreateFromDER der dates keys octets
    some (peers.foldl cfSetSetValue (.empty _), rest)

def SOSPeerInfoSetGetDEREncodedArraySize (pia : SOSPeerInfoSet) : Nat :=
  let (fail, array_size) := pia.members.foldl (fun state pi =>
    let pi_size := SOSPeerInfoGetDEREncodedSize der dates pi
    (decide (pi_size = 0), state.2 + pi_size)) (false, 0)
  if fail then 0 else sizeof der ccderConstructedSequence array_size

def SOSPeerInfoSetEncodeToArrayDER (pis : SOSPeerInfoSet) (buffer : Output) : Output :=
  SOSPeerInfoArrayEncodeToDER der dates (pis.members.mergeSort peerInfoLe) buffer

def SOSPeerInfoSetContainsIdenticalPeers (set1 set2 : SOSPeerInfoSet) : Bool :=
  set1.members.length = set2.members.length &&
    set1.members.all fun peer1 =>
      match set2.find? peer1.peerID with
      | some peer2 => SOSPeerInfoCompare peer1 peer2
      | none => false

def SOSCircleCompare (left right : SOSCircle) : Bool :=
  left.generation = right.generation &&
    SOSPeerInfoSetContainsIdenticalPeers left.peers right.peers &&
    SOSPeerInfoSetContainsIdenticalPeers left.applicants right.applicants &&
    SOSPeerInfoSetContainsIdenticalPeers left.rejected_applicants right.rejected_applicants &&
    cfEqual (.dictionary left.signatures) (.dictionary right.signatures)

def kOnlyCompatibleVersion : UInt64 := 1

def accumulateSizes (sizes : List Nat) : Option Nat :=
  sizes.foldl (fun accumulator size =>
    accumulator.bind fun total => if size = 0 then none else some (total + size)) (some 0)

def SOSCircleGetDEREncodedSize (cir : SOSCircle) : Nat :=
  match accumulateSizes
    [ccderSizeofUint64 der kOnlyCompatibleVersion,
      derSizeofString der cir.name,
      derSizeofNumber der cir.generation,
      SOSPeerInfoSetGetDEREncodedArraySize der dates cir.peers,
      SOSPeerInfoSetGetDEREncodedArraySize der dates cir.applicants,
      SOSPeerInfoSetGetDEREncodedArraySize der dates cir.rejected_applicants,
      derSizeofPlist der dates (.dictionary cir.signatures)] with
  | some total_payload => sizeof der ccderConstructedSequence total_payload
  | none => 0

def SOSCircleEncodeToDER (cir : SOSCircle) (buffer : Output) : Output :=
  encodeConstructedTl der ccderConstructedSequence buffer
    (ccderEncodeUint64 der kOnlyCompatibleVersion
      (derEncodeString der cir.name
        (derEncodeNumber der cir.generation
          (SOSPeerInfoSetEncodeToArrayDER der dates cir.peers
            (SOSPeerInfoSetEncodeToArrayDER der dates cir.applicants
              (SOSPeerInfoSetEncodeToArrayDER der dates cir.rejected_applicants
                (derEncodePlist der dates (.dictionary cir.signatures) buffer)))))))

def decodeDictionary : Reader (List (Plist × Plist)) := fun octets =>
  match derDecodeDictionary der (decodePlistNested der dates octets.length) octets with
  | some (.dictionary entries, rest) => some (entries, rest)
  | _ => none

def SOSCircleCreateFromDER {κ : Type} (keys : SecKeys κ) : Reader SOSCircle := fun octets => do
  let (payload, after) ← decodeConstructedTl der ccderConstructedSequence octets
  let (version, rest) ← ccderDecodeUint64 der (payload ++ after)
  if version ≠ kOnlyCompatibleVersion then none
  if rest.length < after.length then none
  let payload := rest.take (rest.length - after.length)
  let (name, payload) ← derDecodeString der payload
  let (generation, payload) ← derDecodeNumber der payload
  let (peers, payload) ← SOSPeerInfoSetCreateFromArrayDER der dates keys payload
  let (applicants, payload) ← SOSPeerInfoSetCreateFromArrayDER der dates keys payload
  let (rejected_applicants, payload) ← SOSPeerInfoSetCreateFromArrayDER der dates keys payload
  let (signatures, payload) ← decodeDictionary der dates payload
  if payload ≠ [] then none
  some ({ name, generation, peers, applicants, rejected_applicants, signatures }, after)

def packPeerInfos (peerInfoSet : SOSPeerInfoSet) : SOSPeerInfoSet where
  members := peerInfoSet.members.map (SOSPeerInfoPackV2Data der dates)
  distinct := by
    rw [KeyedSet.map_key_replace]
    · exact peerInfoSet.distinct
    · intro peer _
      simp only [SOSPeerInfoPackV2Data, SOSPeerInfo.setValue]
      split
      · split <;> rfl
      · rfl

def packedCircle (cir : SOSCircle) : SOSCircle :=
  { cir with
    peers := packPeerInfos der dates cir.peers
    applicants := packPeerInfos der dates cir.applicants
    rejected_applicants := packPeerInfos der dates cir.rejected_applicants }
end
end SecurityFramework
