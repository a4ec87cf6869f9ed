import SecurityFramework.Library.KeyedSet
import SecurityFramework.SecureObjectSync.PeerInfo

/-!
# Generation counts

The generation of a circle is a number of which the high half is a time and the low half a count.
-/

namespace SecurityFramework
abbrev SOSGenCount := LongLong

def sosGenerationSetHighBits (value : LongLong) (high : BitVec 32) : LongLong :=
  value &&& 0xFFFFFFFF#64 ||| high.signExtend 64 <<< 32

/-- The clock is read for a count that has no time yet. -/
def sosGenerationCreateOrIncrement (gen : Option SOSGenCount) (seconds : BitVec 32) : SOSGenCount :=
  let value := gen.getD 0
  let value :=
    if value.sshiftRight 32 = 0 then sosGenerationSetHighBits value (seconds >>> 1) else value
  value + 1

def SOSGenerationCreate (seconds : BitVec 32) : SOSGenCount :=
  sosGenerationCreateOrIncrement none seconds

def SOSGenerationIncrementAndCreate (gen : SOSGenCount) (seconds : BitVec 32) : SOSGenCount :=
  sosGenerationCreateOrIncrement (some gen) seconds

def SOSGenerationIsOlder (older newer : SOSGenCount) : Bool := older.slt newer

def SOSGenerationIsOlderOrEqual (older newer : SOSGenCount) : Bool := older.sle newer

def SOSGenerationCreateWithBaseline (reference : SOSGenCount) (seconds again : BitVec 32) :
    SOSGenCount :=
  let retval := SOSGenerationCreate seconds
  if SOSGenerationIsOlderOrEqual retval reference then
    SOSGenerationIncrementAndCreate reference again
  else retval

def generationBase (gen : SOSGenCount) (seconds : BitVec 32) : SOSGenCount :=
  if gen.sshiftRight 32 = 0 then sosGenerationSetHighBits gen (seconds >>> 1) else gen

theorem incrementAndCreate_eq (gen : SOSGenCount) (seconds : BitVec 32) :
    SOSGenerationIncrementAndCreate gen seconds = generationBase gen seconds + 1 := rfl

theorem toNat_lt_of_sshiftRight {gen : LongLong} (hnone : gen.sshiftRight 32 = 0) :
    gen.toNat < 2 ^ 32 := by
  have hint := congrArg BitVec.toInt hnone
  rw [BitVec.toInt_sshiftRight, Int.shiftRight_eq_div_pow] at hint
  have hcond := BitVec.toInt_eq_toNat_cond gen
  simp at hint
  split at hcond <;> omega

theorem toNat_highBits (seconds : BitVec 32) :
    ((seconds >>> 1).signExtend 64).toNat = seconds.toNat / 2 := by
  have hseconds := seconds.isLt
  have hmsb : (seconds >>> 1).msb = false := by
    rw [BitVec.msb_eq_false_iff_two_mul_lt, BitVec.toNat_ushiftRight, Nat.shiftRight_eq_div_pow]
    omega
  rw [BitVec.signExtend_eq_setWidth_of_msb_false hmsb, BitVec.toNat_setWidth,
    BitVec.toNat_ushiftRight, Nat.shiftRight_eq_div_pow]
  omega

theorem toNat_highBits_lt (seconds : BitVec 32) :
    ((seconds >>> 1).signExtend 64).toNat < 2 ^ 31 := by
  have hseconds := seconds.isLt
  rw [toNat_highBits]
  omega

theorem toNat_sosGenerationSetHighBits {gen : LongLong} (hlow : gen.toNat < 2 ^ 32)
    (seconds : BitVec 32) :
    (sosGenerationSetHighBits gen (seconds >>> 1)).toNat =
      2 ^ 32 * ((seconds >>> 1).signExtend 64).toNat + gen.toNat := by
  have hhigh := toNat_highBits_lt seconds
  have hmask : gen &&& 0xFFFFFFFF#64 = gen := by
    apply BitVec.eq_of_toNat_eq
    have hones : (0xFFFFFFFF#64).toNat = 2 ^ 32 - 1 := rfl
    rw [BitVec.toNat_and, hones, Nat.and_two_pow_sub_one_eq_mod, Nat.mod_eq_of_lt hlow]
  rw [sosGenerationSetHighBits, hmask, BitVec.toNat_or, BitVec.toNat_shiftLeft, Nat.shiftLeft_eq,
    Nat.mod_eq_of_lt (by omega), Nat.or_comm, Nat.mul_comm, Nat.two_pow_add_eq_or_of_lt hlow]

theorem le_generationBase (gen : SOSGenCount) (seconds : BitVec 32) :
    gen.toInt ≤ (generationBase gen seconds).toInt := by
  rw [generationBase]
  split
  case isFalse => exact Int.le_refl _
  case isTrue hnone =>
    have hlow := toNat_lt_of_sshiftRight hnone
    have hhigh := toNat_highBits_lt seconds
    have hvalue := toNat_sosGenerationSetHighBits hlow seconds
    rw [BitVec.toInt_eq_toNat_of_lt (by omega), BitVec.toInt_eq_toNat_of_lt (by omega), hvalue]
    omega

theorem isOlder_incrementAndCreate {gen : SOSGenCount} {seconds : BitVec 32}
    (hroom : (generationBase gen seconds).toInt < 2 ^ 63 - 1) :
    SOSGenerationIsOlder gen (SOSGenerationIncrementAndCreate gen seconds) = true := by
  have hle := le_generationBase gen seconds
  have hlow := BitVec.le_toInt (generationBase gen seconds)
  have hone : (1 : LongLong).toInt = 1 := rfl
  have hstep : (generationBase gen seconds + 1).toInt = (generationBase gen seconds).toInt + 1 := by
    rw [BitVec.toInt_add, hone]
    apply Int.bmod_eq_of_le <;> omega
  rw [SOSGenerationIsOlder, incrementAndCreate_eq, BitVec.slt_iff_toInt_lt, hstep]
  omega
end SecurityFramework

namespace SecurityFramework
open DER

abbrev SOSPeerInfoSet := KeyedSet SOSPeerInfo.peerID

structure SOSCircle where
  name : CFString
  generation : SOSGenCount
  peers : SOSPeerInfoSet
  applicants : SOSPeerInfoSet
  rejected_applicants : SOSPeerInfoSet
  signatures : List (Plist × Plist)

/-- The circle after an operation that succeeded, or as an operation that failed left it. -/
abbrev CircleOutcome := Except SOSCircle SOSCircle

def circleAfter : CircleOutcome → SOSCircle
  | .ok circle => circle
  | .error circle => circle

def SOSCircleCreate (name : CFString) (now : ClockReading) : SOSCircle where
  name := name
  generation := SOSGenerationCreate now.seconds
  peers := .empty _
  applicants := .empty _
  rejected_applicants := .empty _
  signatures := []

def isHiddenPeer (peer : SOSPeerInfo) : Bool :=
  SOSPeerInfoIsRetirementTicket peer || SOSPeerInfoIsCloudIdentity peer

def SOSCircle.visiblePeers (circle : SOSCircle) : List SOSPeerInfo :=
  circle.peers.members.filter fun peer => !isHiddenPeer peer

def SOSCircleCountPeers (circle : SOSCircle) : Nat := circle.visiblePeers.length

def SOSCircleCountRetiredPeers (circle : SOSCircle) : Nat :=
  circle.peers.members.countP SOSPeerInfoIsRetirementTicket

def SOSCircleIsEmpty (circle : SOSCircle) : Bool := SOSCircleCountPeers circle = 0

def SOSCircleIsOffering (circle : SOSCircle) : Bool :=
  SOSCircleCountRetiredPeers circle = 0 && SOSCircleCountPeers circle = 1

def SOSCircleHasPeerWithID (circle : SOSCircle) (peerid : CFString) : Bool :=
  match circle.peers.find? peerid with
  | some found => !isHiddenPeer found
  | none => false

def SOSCircleHasPeer (circle : SOSCircle) (peerInfo : SOSPeerInfo) : Bool :=
  SOSCircleHasPeerWithID circle peerInfo.peerID

def SOSCircleHasApplicant (circle : SOSCircle) (peerInfo : SOSPeerInfo) : Bool :=
  circle.applicants.contains peerInfo.peerID

def SOSCircleCopyPeerInfo (circle : SOSCircle) (peer_id : CFString) : Option SOSPeerInfo :=
  circle.peers.find? peer_id

section
variable (der : Primitives) (dates : DateSystem) {κ : Type} (keys : SecKeys κ)

/-- `SOSPeerInfoCompareByID` does not put the left peer after the right. -/
def peerInfoLe (left right : SOSPeerInfo) : Bool :=
  left.peerID.map UInt16.toNat ≤ right.peerID.map UInt16.toNat

def littleEndianOctets (value : LongLong) : List UInt8 :=
  (List.range 8).map fun i => ⟨(value >>> (8 * i)).setWidth 8⟩

def SOSCircleDigestSet (peers : SOSPeerInfoSet) : List UInt8 :=
  keys.sha256
    ((peers.members.mergeSort peerInfoLe).flatMap fun peer => (peer.data sPublicKeyKey).getD [])

def SOSCircleHashGenAndPeers (gen : SOSGenCount) (peers : SOSPeerInfoSet) : List UInt8 :=
  keys.sha256 (littleEndianOctets gen ++ SOSCircleDigestSet keys peers)

def SOSCircleHash (circle : SOSCircle) : List UInt8 :=
  SOSCircleHashGenAndPeers keys circle.generation circle.peers

def SOSCircleSetSignature (circle : SOSCircle) (pubkey : κ) (signature : List UInt8) :
    CircleOutcome :=
  match SOSCopyIDOfKey keys pubkey with
  | some pubKeyID =>
    .ok { circle with
      signatures := cfDictionarySetValue circle.signatures pubKeyID (.data signature) }
  | none => .error circle

def SOSCircleRemoveSignatures (circle : SOSCircle) : SOSCircle := { circle with signatures := [] }

def SOSCircleGetSignature (circle : SOSCircle) (pubkey : κ) : Option (List UInt8) := do
  let pubKeyID ← SOSCopyIDOfKey keys pubkey
  let value ← cfDictionaryGetValue circle.signatures pubKeyID
  asData value

def SOSCircleSign (circle : SOSCircle) (privKey : κ) : CircleOutcome :=
  match keys.rawSign privKey (SOSCircleHash keys circle) with
  | some signature => SOSCircleSetSignature keys circle privKey signature
  | none => .error circle

def SOSCircleVerifySignatureExists (circle : SOSCircle) (pubKey : κ) : Bool :=
  (SOSCircleGetSignature keys circle pubKey).isSome

def SOSCircleVerify (circle : SOSCircle) (pubKey : κ) : Bool :=
  match SOSCircleGetSignature keys circle pubKey with
  | some signature => keys.rawVerify pubKey (SOSCircleHash keys circle) signature
  | none => false

def SOSCircle.setPeer (circle : SOSCircle) (peer : SOSPeerInfo) : SOSCircle :=
  { circle with peers := circle.peers.replace peer }

def SOSCircleRemoveRetired (circle : SOSCircle) : SOSCircle :=
  { circle with peers := circle.peers.filter fun peer => !SOSPeerInfoIsRetirementTicket peer }

def cfSetTransferObject (object : SOSPeerInfo) (source target : SOSPeerInfoSet) :
    SOSPeerInfoSet × SOSPeerInfoSet :=
  (source.remove object.peerID, target.add object)

def SOSCircle.transferToRejected (circle : SOSCircle) (pi : SOSPeerInfo) : SOSCircle :=
  let (applicants, rejected_applicants) :=
    cfSetTransferObject pi circle.applicants circle.rejected_applicants
  { circle with applicants, rejected_applicants }

def rejectNonValidApplicant (pubkey : Option κ) (circle : SOSCircle) (pi : SOSPeerInfo) :
    SOSCircle :=
  let (valid, pi) := SOSPeerInfoApplicationVerify der dates keys pi pubkey
  let circle := { circle with applicants := circle.applicants.replace pi }
  if valid then circle else circle.transferToRejected pi

def SOSCircleRejectNonValidApplicants (circle : SOSCircle) (pubkey : Option κ) : SOSCircle :=
  circle.applicants.members.foldl (rejectNonValidApplicant der dates keys pubkey) circle

def sosCircleUpdatePeerInfoSet (theSet : SOSPeerInfoSet) (replacement : SOSPeerInfo) :
    Option SOSPeerInfoSet := do
  let old ← theSet.find? replacement.peerID
  if SOSPeerInfoCompare old replacement then none else some (theSet.replace replacement)

def SOSCircleUpdatePeerInfo (circle : SOSCircle) (replacement : SOSPeerInfo) : CircleOutcome :=
  match sosCircleUpdatePeerInfoSet circle.peers replacement with
  | some peers => .ok { circle with peers }
  | none =>
    match sosCircleUpdatePeerInfoSet circle.applicants replacement with
    | some applicants => .ok { circle with applicants }
    | none =>
      match sosCircleUpdatePeerInfoSet circle.rejected_applicants replacement with
      | some rejected_applicants => .ok { circle with rejected_applicants }
      | none => .error circle

def resignPeerInfo (circle : SOSCircle) (user_approver : κ) (peerinfo : SOSFullPeerInfo κ)
    (pi : SOSPeerInfo) (now : ClockReading) : CircleOutcome :=
  match peerinfo.deviceKey with
  | none => .error circle
  | some device_key =>
    match SOSPeerInfoCopyAsApplication der dates keys pi user_approver device_key now.date with
    | none => .error circle
    | some new_pi => SOSCircleUpdatePeerInfo circle new_pi

def SOSCircleUpgradePeerInfo (circle : SOSCircle) (user_approver : κ)
    (peerinfo : SOSFullPeerInfo κ) (now : ClockReading) : CircleOutcome :=
  match SOSCircleCopyPeerInfo circle peerinfo.peerInfo.peerID with
  | none => .error circle
  | some pi =>
    let userPubKey := keys.createPublicFromPrivate user_approver
    let (valid, pi) := SOSPeerInfoApplicationVerify der dates keys pi userPubKey
    let circle := circle.setPeer pi
    if valid then .ok circle
    else resignPeerInfo der dates keys circle user_approver peerinfo pi now

def SOSCirclePreGenerationSign (circle : SOSCircle) (userPubKey : Option κ) : SOSCircle :=
  let circle := SOSCircleRemoveRetired circle
  let circle := { circle with rejected_applicants := .empty _ }
  let circle := SOSCircleRejectNonValidApplicants der dates keys circle userPubKey
  SOSCircleRemoveSignatures circle

def SOSCircleGenerationSign_Internal (circle : SOSCircle) (userKey : κ) (fpi : SOSFullPeerInfo κ)
    (now : ClockReading) : CircleOutcome :=
  if SOSCircleCountPeers circle = 0 then .ok circle
  else
    match fpi.deviceKey with
    | none => .error circle
    | some ourKey => do
      let circle ← SOSCircleUpgradePeerInfo der dates keys circle userKey fpi now
      let circle ← SOSCircleSign keys circle userKey
      SOSCircleSign keys circle ourKey

def SOSCircleGenerationIncrement (circle : SOSCircle) (now : ClockReading) : SOSCircle :=
  { circle with generation := SOSGenerationIncrementAndCreate circle.generation now.seconds }

def SOSCircleGenerationSign (circle : SOSCircle) (userKey : κ) (fpi : SOSFullPeerInfo κ)
    (now : ClockReading) : CircleOutcome :=
  let publicKey := keys.createPublicFromPrivate userKey
  let circle := SOSCirclePreGenerationSign der dates keys circle publicKey
  let circle := SOSCircleGenerationIncrement circle now
  SOSCircleGenerationSign_Internal der dates keys circle userKey fpi now

/-- The user key itself is what applicants are verified under. -/
def SOSCircleGenerationSignWithGenCount (circle : SOSCircle) (userKey : κ)
    (fpi : SOSFullPeerInfo κ) (gencount : SOSGenCount) (now : ClockReading) : CircleOutcome :=
  if SOSGenerationIsOlder circle.generation gencount then
    let circle := SOSCirclePreGenerationSign der dates keys circle (some userKey)
    let circle := { circle with generation := gencount }
    SOSCircleGenerationSign_Internal der dates keys circle userKey fpi now
  else .error circle

def copyPeerInfos (peerInfoSet : SOSPeerInfoSet) : SOSPeerInfoSet where
  members := peerInfoSet.members.map (SOSPeerInfoCreateCopy der dates)
  distinct := by
    rw [KeyedSet.map_key_replace]
    · exact peerInfoSet.distinct
    · intro peer _
      simp only [SOSPeerInfoCreateCopy, SOSPeerInfoPackV2Data, SOSPeerInfo.setValue]
      split
      · split <;> rfl
      · rfl

def SOSCircleCopyCircle (otherCircle : SOSCircle) : SOSCircle :=
  { otherCircle with
    peers := copyPeerInfos der dates otherCircle.peers
    applicants := copyPeerInfos der dates otherCircle.applicants
    rejected_applicants := copyPeerInfos der dates otherCircle.rejected_applicants }

def SOSCircleResetToEmpty (circle : SOSCircle) (now again : ClockReading) : SOSCircle :=
  { circle with
    applicants := .empty _
    rejected_applicants := .empty _
    peers := .empty _
    signatures := []
    generation := SOSGenerationCreateWithBaseline circle.generation now.seconds again.seconds }

def SOSCircleRecordAdmissionRequest (circle : SOSCircle) (requestorPeerInfo : SOSPeerInfo) :
    CircleOutcome :=
  if SOSCircleHasPeer circle requestorPeerInfo then .error circle
  else
    let (rejected_applicants, applicants) :=
      cfSetTransferObject requestorPeerInfo circle.rejected_applicants circle.applicants
    .ok { circle with applicants, rejected_applicants }

def SOSCircleRequestReadmission (circle : SOSCircle) (user_pubkey : Option κ)
    (peer : SOSPeerInfo) : CircleOutcome :=
  let (valid, peer) := SOSPeerInfoApplicationVerify der dates keys peer user_pubkey
  if valid then SOSCircleRecordAdmissionRequest circle peer else .error circle

/-- The circle with the request, and the requestor as it was promoted. -/
def SOSCircleRequestAdmission (circle : SOSCircle) (user_privkey : κ)
    (requestor : SOSFullPeerInfo κ) (now : ClockReading) :
    Except SOSCircle (SOSCircle × SOSFullPeerInfo κ) :=
  match keys.createPublicFromPrivate user_privkey with
  | none => .error circle
  | some _ =>
    match SOSFullPeerInfoPromoteToApplication der dates keys requestor user_privkey now with
    | none => .error circle
    | some requestor => do
      let circle ← SOSCircleRecordAdmissionRequest circle requestor.peerInfo
      .ok (circle, requestor)

def SOSCircleAcceptRequest (circle : SOSCircle) (user_privkey : κ)
    (device_approver : SOSFullPeerInfo κ) (peerInfo : SOSPeerInfo) (now : ClockReading) :
    CircleOutcome :=
  if SOSCircleHasApplicant circle peerInfo then
    let publicKey := keys.createPublicFromPrivate user_privkey
    let (valid, peerInfo) := SOSPeerInfoApplicationVerify der dates keys peerInfo publicKey
    if valid then
      let (applicants, peers) := cfSetTransferObject peerInfo circle.applicants circle.peers
      SOSCircleGenerationSign der dates keys { circle with applicants, peers } user_privkey
        device_approver now
    else .error circle
  else .error circle

def SOSCircleResetToOffering (circle : SOSCircle) (user_privkey : κ)
    (requestor : SOSFullPeerInfo κ) (now again later : ClockReading) : CircleOutcome := do
  let circle := SOSCircleResetToEmpty circle now again
  let (circle, requestor) ←
    SOSCircleRequestAdmission der dates keys circle user_privkey requestor now
  SOSCircleAcceptRequest der dates keys circle user_privkey requestor requestor.peerInfo later

def SOSCircleWithdrawRequest (circle : SOSCircle) (peerInfo : SOSPeerInfo) : SOSCircle :=
  { circle with applicants := circle.applicants.remove peerInfo.peerID }

def SOSCircleRejectRequest (circle : SOSCircle) (device_rejector : SOSFullPeerInfo κ)
    (peerInfo : SOSPeerInfo) : CircleOutcome :=
  if peerInfo.peerID = device_rejector.peerInfo.peerID then
    .ok (SOSCircleWithdrawRequest circle peerInfo)
  else if circle.applicants.contains peerInfo.peerID then .ok (circle.transferToRejected peerInfo)
  else .error circle

def SOSCircleRemovePeerInternal (circle : SOSCircle) (requestor : SOSFullPeerInfo κ)
    (peer_to_remove : SOSPeerInfo) : CircleOutcome :=
  if SOSCircleHasPeer circle peer_to_remove && !SOSCircleHasPeer circle requestor.peerInfo then
    .error circle
  else
    let circle :=
      if SOSCircleHasPeer circle peer_to_remove then
        { circle with peers := circle.peers.remove peer_to_remove.peerID }
      else circle
    if SOSCircleHasApplicant circle peer_to_remove then
      SOSCircleRejectRequest circle requestor peer_to_remove
    else .ok circle

/-- Go through the items even when an operation on one of them fails. -/
def forEachItem {α : Type} (operation : SOSCircle → α → CircleOutcome) :
    List α → SOSCircle → CircleOutcome
  | [], circle => .ok circle
  | item :: items, circle =>
    match operation circle item with
    | .ok circle => forEachItem operation items circle
    | .error circle =>
      match forEachItem operation items circle with
      | .ok circle => .error circle
      | .error circle => .error circle

def SOSCircleRemovePeers (circle : SOSCircle) (user_privkey : κ) (requestor : SOSFullPeerInfo κ)
    (peersToRemove : List SOSPeerInfo) (now : ClockReading) : CircleOutcome := do
  let circle ← forEachItem (fun circle peerInfo =>
    SOSCircleRemovePeerInternal circle requestor peerInfo) peersToRemove circle
  SOSCircleGenerationSign der dates keys circle user_privkey requestor now

def removePeerByID (requestor : SOSFullPeerInfo κ) (circle : SOSCircle) (peerID : CFString) :
    CircleOutcome :=
  match SOSCircleCopyPeerInfo circle peerID with
  | some peerInfo => SOSCircleRemovePeerInternal circle requestor peerInfo
  | none => .ok circle

def SOSCircleRemovePeersByID (circle : SOSCircle) (user_privkey : κ)
    (requestor : SOSFullPeerInfo κ) (peersToRemove : List CFString) (now : ClockReading) :
    CircleOutcome := do
  let circle ← forEachItem (removePeerByID requestor) peersToRemove circle
  SOSCircleGenerationSign der dates keys circle user_privkey requestor now

def acceptApplicant (user_privkey : κ) (device_approver : SOSFullPeerInfo κ)
    (now : CFString → ClockReading) (state : Bool × SOSCircle) (peer : SOSPeerInfo) :
    Bool × SOSCircle :=
  match SOSCircleAcceptRequest der dates keys state.2 user_privkey device_approver peer
      (now peer.peerID) with
  | .ok circle => (true, circle)
  | .error circle => (state.1, circle)

/-- The clock is read anew for each applicant, and once more for the signature that follows. -/
def SOSCircleAcceptRequests (circle : SOSCircle) (user_privkey : κ)
    (device_approver : SOSFullPeerInfo κ) (now : CFString → ClockReading) (last : ClockReading) :
    CircleOutcome :=
  match circle.applicants.members.foldl
      (acceptApplicant der dates keys user_privkey device_approver now) (false, circle) with
  | (true, circle) =>
    .ok (circleAfter
      (SOSCircleGenerationSign der dates keys circle user_privkey device_approver last))
  | (false, circle) => .error circle

def rejectMismatchedApplicant (userPubKey : Option κ) (fpi : SOSFullPeerInfo κ)
    (circle : SOSCircle) (peer : SOSPeerInfo) : SOSCircle :=
  let (valid, peer) := SOSPeerInfoApplicationVerify der dates keys peer userPubKey
  let circle := { circle with applicants := circle.applicants.replace peer }
  if valid then circle else circleAfter (SOSCircleRejectRequest circle fpi peer)

def SOSCirclePeerSigUpdate (circle : SOSCircle) (userPrivKey : κ) (fpi : SOSFullPeerInfo κ)
    (now : ClockReading) : CircleOutcome := do
  let userPubKey := keys.createPublicFromPrivate userPrivKey
  let circle :=
    circle.applicants.members.foldl (rejectMismatchedApplicant der dates keys userPubKey fpi) circle
  let circle ← SOSCircleUpdatePeerInfo circle fpi.peerInfo
  .ok (circleAfter (SOSCircleGenerationSign der dates keys circle userPrivKey fpi now))

def SOSCircleAcceptPeerFromHSA2 (circle : SOSCircle) (userKey : κ) (gencount : SOSGenCount)
    (pPubKey : κ) (signature : List UInt8) (fpi : SOSFullPeerInfo κ) (now : ClockReading) :
    CircleOutcome := do
  let circle := { circle with peers := circle.peers.add fpi.peerInfo }
  let circle ←
    SOSCircleGenerationSignWithGenCount der dates keys circle userKey fpi gencount now
  let circle ← SOSCircleSetSignature keys circle pPubKey signature
  if SOSCircleVerify keys circle pPubKey then .ok circle else .error circle
end
end SecurityFramework
