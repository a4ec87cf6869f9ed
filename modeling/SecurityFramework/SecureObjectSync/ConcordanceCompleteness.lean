import SecurityFramework.SecureObjectSync.ConcordanceTrust
import SecurityFramework.Utilities.DerPlistCanonical

/-! # Circles that a peer signs are trusted -/

namespace SecurityFramework
open DER KeyedSet

section
variable {der : Primitives} {dates : DateSystem} {κ : Type} {keys : SecKeys κ}

variable (pi : SOSPeerInfo)

theorem packV2Data_idem :
    SOSPeerInfoPackV2Data der dates (SOSPeerInfoPackV2Data der dates pi) =
      SOSPeerInfoPackV2Data der dates pi := by
  by_cases hversion : SOSPeerInfoVersionHasV2Data pi = true
  · cases hder : pi.v2Dictionary.bind fun dict =>
        CFPropertyListCreateDERData der dates (.dictionary dict) with
    | none => simp [SOSPeerInfoPackV2Data, hversion, hder]
    | some v2der =>
      have hpack : SOSPeerInfoPackV2Data der dates pi =
          pi.setValue sV2DictionaryKey (.data v2der) := by
        rw [SOSPeerInfoPackV2Data, if_pos hversion, hder]
      have hversion' : SOSPeerInfoVersionHasV2Data (pi.setValue sV2DictionaryKey (.data v2der)) =
          true := hversion
      have hder' : ((pi.setValue sV2DictionaryKey (.data v2der)).v2Dictionary.bind fun dict =>
          CFPropertyListCreateDERData der dates (.dictionary dict)) = some v2der := hder
      rw [hpack, SOSPeerInfoPackV2Data, if_pos hversion', hder']
      simp only [SOSPeerInfo.setValue, cfDictionarySetValue_setValue]
  · simp [SOSPeerInfoPackV2Data, hversion]

/-- Two peer infos that are the same once they are packed, but for what is remembered of them. -/
structure SOSPeerInfo.SameContent (der : Primitives) (dates : DateSystem) (pi pi' : SOSPeerInfo) :
    Prop where
  peerID : pi'.peerID = pi.peerID
  signature : pi'.signature = pi.signature
  description : (SOSPeerInfoPackV2Data der dates pi').description =
    (SOSPeerInfoPackV2Data der dates pi).description

theorem value_packV2Data (pi : SOSPeerInfo) {key : CFString} (hkey : sV2DictionaryKey ≠ key) :
    (SOSPeerInfoPackV2Data der dates pi).value key = pi.value key := by
  rw [SOSPeerInfoPackV2Data]
  split
  case isFalse => rfl
  case isTrue =>
    split
    case h_1 => exact cfDictionaryGetValue_setValue_of_ne _ _ hkey
    case h_2 => rfl

theorem signature_packV2Data :
    (SOSPeerInfoPackV2Data der dates pi).signature = pi.signature := by
  rw [SOSPeerInfoPackV2Data]
  split
  · split <;> rfl
  · rfl

namespace SOSPeerInfo.SameContent
variable {pi pi' pi'' : SOSPeerInfo}

theorem refl (pi : SOSPeerInfo) : pi.SameContent der dates pi := ⟨rfl, rfl, rfl⟩

theorem trans (h : pi.SameContent der dates pi') (h' : pi'.SameContent der dates pi'') :
    pi.SameContent der dates pi'' :=
  ⟨h'.peerID.trans h.peerID, h'.signature.trans h.signature, h'.description.trans h.description⟩

theorem value_eq (h : pi.SameContent der dates pi') {key : CFString}
    (hkey : sV2DictionaryKey ≠ key) : pi'.value key = pi.value key := by
  rw [← @value_packV2Data der dates pi' key hkey, SOSPeerInfo.value, h.description,
    ← SOSPeerInfo.value, value_packV2Data pi hkey]

theorem data_eq (h : pi.SameContent der dates pi') {key : CFString}
    (hkey : sV2DictionaryKey ≠ key) : pi'.data key = pi.data key := by
  rw [SOSPeerInfo.data, SOSPeerInfo.data, h.value_eq hkey]

theorem copyPubKey_eq (h : pi.SameContent der dates pi') :
    SOSPeerInfoCopyPubKey keys pi' = SOSPeerInfoCopyPubKey keys pi := by
  rw [SOSPeerInfoCopyPubKey, SOSPeerInfoCopyPubKey, h.data_eq (by decide)]

theorem isRetirementTicket_eq (h : pi.SameContent der dates pi') :
    SOSPeerInfoIsRetirementTicket pi' = SOSPeerInfoIsRetirementTicket pi := by
  rw [SOSPeerInfoIsRetirementTicket, SOSPeerInfoIsRetirementTicket, h.value_eq (by decide)]

theorem isHiddenPeer_eq (h : pi.SameContent der dates pi') :
    isHiddenPeer pi' = isHiddenPeer pi := by
  rw [isHiddenPeer, isHiddenPeer, h.isRetirementTicket_eq, SOSPeerInfoIsCloudIdentity,
    SOSPeerInfoIsCloudIdentity, h.value_eq (by decide)]

theorem applicationSigned_eq (h : pi.SameContent der dates pi') (userkey : κ) :
    applicationSigned keys pi' userkey = applicationSigned keys pi userkey := by
  rw [applicationSigned, applicationSigned, sospeer_application_hash, sospeer_application_hash,
    h.data_eq (by decide), h.data_eq (by decide), h.data_eq (by decide)]

theorem verify_eq (h : pi.SameContent der dates pi') :
    (SOSPeerInfoVerify der dates keys pi').1 = (SOSPeerInfoVerify der dates keys pi).1 := by
  rw [SOSPeerInfoVerify, SOSPeerInfoVerify, h.copyPubKey_eq]
  split
  case h_1 => rfl
  case h_2 =>
    simp only [SOSDescriptionHash, h.description, signature_packV2Data, h.signature]
end SOSPeerInfo.SameContent

theorem sameContent_packV2Data :
    pi.SameContent der dates (SOSPeerInfoPackV2Data der dates pi) :=
  ⟨peerID_packV2Data pi, signature_packV2Data pi, by rw [packV2Data_idem]⟩

theorem sameContent_createCopy (pi : SOSPeerInfo) :
    pi.SameContent der dates (SOSPeerInfoCreateCopy der dates pi) := by
  refine ⟨peerID_packV2Data pi, signature_packV2Data pi, ?_⟩
  have hpacked : (SOSPeerInfoPackV2Data der dates (SOSPeerInfoCreateCopy der dates pi)) =
      SOSPeerInfoCreateCopy der dates pi := by
    rw [SOSPeerInfoPackV2Data]
    split <;> rfl
  rw [hpacked]
  rfl

theorem sameContent_verify :
    pi.SameContent der dates (SOSPeerInfoVerify der dates keys pi).2 := by
  rw [SOSPeerInfoVerify]
  split
  case h_1 => exact .refl pi
  case h_2 => exact sameContent_packV2Data pi

theorem sameContent_remembered (verifiedAppKeyID : Option CFString) (verifiedResult : Bool) :
    pi.SameContent der dates
      { pi with verifiedAppKeyID := verifiedAppKeyID, verifiedResult := verifiedResult } := by
  refine ⟨rfl, rfl, ?_⟩
  by_cases hversion : kSOSPeerV2BaseVersion ≤ pi.version
  · cases hder : pi.v2Dictionary.bind fun dict =>
        CFPropertyListCreateDERData der dates (.dictionary dict) <;>
      simp [SOSPeerInfoPackV2Data, SOSPeerInfoVersionHasV2Data, hversion, hder,
        SOSPeerInfo.setValue]
  · simp [SOSPeerInfoPackV2Data, SOSPeerInfoVersionHasV2Data, hversion]

theorem sameContent_applicationVerify (pi : SOSPeerInfo) (userkey : Option κ) :
    pi.SameContent der dates (SOSPeerInfoApplicationVerify der dates keys pi userkey).2 := by
  cases userkey with
  | none => exact .refl pi
  | some userkey =>
    rw [SOSPeerInfoApplicationVerify]
    split
    case isTrue => exact .refl pi
    case isFalse =>
      split
      case isTrue => exact (sameContent_remembered pi _ _).trans (sameContent_verify _)
      case isFalse => exact sameContent_remembered pi _ _

structure SOSPeerInfo.ValidUnder (der : Primitives) (dates : DateSystem) (keys : SecKeys κ)
    (peer : SOSPeerInfo) (userkey : κ) : Prop where
  applied : applicationSigned keys peer userkey = true
  verified : (SOSPeerInfoVerify der dates keys peer).1 = true

/-- Nothing is remembered of the application under the user key but that it is valid. -/
def SOSPeerInfo.NotRefused (keys : SecKeys κ) (userkey : κ) (pi : SOSPeerInfo) : Prop :=
  SOSCopyIDOfKey keys userkey = pi.verifiedAppKeyID → pi.verifiedResult = true

theorem verifiedResult_verify :
    (SOSPeerInfoVerify der dates keys pi).2.verifiedResult = pi.verifiedResult := by
  rw [SOSPeerInfoVerify]
  split
  case h_1 => rfl
  case h_2 =>
    simp only [SOSDescriptionHash, SOSPeerInfoPackV2Data]
    split
    · split <;> rfl
    · rfl

variable {peer : SOSPeerInfo} {userkey : κ} {circle circle' : SOSCircle} {fpi : SOSFullPeerInfo κ}
  {now : ClockReading}

theorem applicationVerify_of_valid {pi : SOSPeerInfo}
    (hvalid : peer.ValidUnder der dates keys userkey) (hsame : peer.SameContent der dates pi)
    (hpi : pi.NotRefused keys userkey) :
    (SOSPeerInfoApplicationVerify der dates keys pi (some userkey)).1 = true ∧
      (SOSPeerInfoApplicationVerify der dates keys pi (some userkey)).2.NotRefused keys userkey := by
  rw [SOSPeerInfoApplicationVerify]
  split
  case isTrue hknown => exact ⟨hpi hknown, hpi⟩
  case isFalse =>
    rw [if_pos ((hsame.applicationSigned_eq userkey).trans hvalid.applied)]
    constructor
    · rw [(hsame.trans (sameContent_remembered pi _ _)).verify_eq]
      exact hvalid.verified
    · intro _
      rw [verifiedResult_verify]

def SOSCircle.HasEntry (der : Primitives) (dates : DateSystem) (keys : SecKeys κ)
    (peer : SOSPeerInfo) (userkey : κ) (circle : SOSCircle) : Prop :=
  ∃ entry ∈ circle.peers.members, peer.SameContent der dates entry ∧
    entry.NotRefused keys userkey

namespace SOSCircle.HasEntry
variable {peer : SOSPeerInfo} {userkey : κ} {circle : SOSCircle}

theorem find? (h : circle.HasEntry der dates keys peer userkey) :
    ∃ entry, circle.peers.find? peer.peerID = some entry ∧ peer.SameContent der dates entry ∧
      entry.NotRefused keys userkey := by
  obtain ⟨entry, hentry, hsame, hnot⟩ := h
  refine ⟨entry, ?_, hsame, hnot⟩
  rw [← hsame.peerID]
  exact find?_key hentry

theorem copyCircle (huser : (SOSCopyIDOfKey keys userkey).isSome)
    (h : ∃ entry ∈ circle.peers.members, peer.SameContent der dates entry) :
    (SOSCircleCopyCircle der dates circle).HasEntry der dates keys peer userkey := by
  obtain ⟨entry, hentry, hsame⟩ := h
  refine ⟨SOSPeerInfoCreateCopy der dates entry, List.mem_map_of_mem hentry,
    hsame.trans (sameContent_createCopy entry), ?_⟩
  intro hnone
  rw [hnone] at huser
  cases huser

theorem valid (h : circle.HasEntry der dates keys peer userkey)
    (hvalid : peer.ValidUnder der dates keys userkey) :
    circle.HasValid der dates keys peer.peerID userkey := by
  obtain ⟨entry, hfind, hsame, hnot⟩ := h.find?
  exact ⟨entry, hfind, (applicationVerify_of_valid hvalid hsame hnot).1⟩
end SOSCircle.HasEntry

structure SOSCircle.Kept (der : Primitives) (dates : DateSystem) (keys : SecKeys κ)
    (peer : SOSPeerInfo) (userkey : κ) (start circle : SOSCircle) : Prop where
  generation : circle.generation = start.generation
  entry : circle.HasEntry der dates keys peer userkey

namespace SOSCircle.Kept
variable {peer : SOSPeerInfo} {userkey : κ} {start circle : SOSCircle}

theorem of_subset (h : start.Kept der dates keys peer userkey circle) {circle' : SOSCircle}
    (hgeneration : circle'.generation = circle.generation)
    (hsubset : ∀ entry ∈ circle.peers.members, peer.SameContent der dates entry →
      entry ∈ circle'.peers.members) :
    start.Kept der dates keys peer userkey circle' := by
  obtain ⟨entry, hentry, hsame, hnot⟩ := h.entry
  exact ⟨hgeneration.trans h.generation, entry, hsubset entry hentry hsame, hsame, hnot⟩

theorem removeRetired (h : start.Kept der dates keys peer userkey circle)
    (hpeer : SOSPeerInfoIsRetirementTicket peer = false) :
    start.Kept der dates keys peer userkey (SOSCircleRemoveRetired circle) := by
  refine h.of_subset rfl ?_
  intro entry hentry hsame
  rw [SOSCircleRemoveRetired, mem_members_filter, hsame.isRetirementTicket_eq, hpeer]
  exact ⟨hentry, rfl⟩

theorem rejectRequest (h : start.Kept der dates keys peer userkey circle)
    {device_rejector : SOSFullPeerInfo κ} {peerInfo : SOSPeerInfo} {circle' : SOSCircle}
    (hdone : SOSCircleRejectRequest circle device_rejector peerInfo = .ok circle') :
    start.Kept der dates keys peer userkey circle' := by
  rw [SOSCircleRejectRequest] at hdone
  split_ifs at hdone
  · cases hdone
    exact h.of_subset rfl fun _ hentry _ => hentry
  · cases hdone
    exact h.of_subset rfl fun _ hentry _ => hentry

theorem removePeerInternal (h : start.Kept der dates keys peer userkey circle)
    {requestor : SOSFullPeerInfo κ} {removed : SOSPeerInfo} (hother : removed.peerID ≠ peer.peerID)
    {circle' : SOSCircle}
    (hdone : SOSCircleRemovePeerInternal circle requestor removed = .ok circle') :
    start.Kept der dates keys peer userkey circle' := by
  have hremoved : start.Kept der dates keys peer userkey
      (if SOSCircleHasPeer circle removed then
        { circle with peers := circle.peers.remove removed.peerID } else circle) := by
    split
    case isTrue =>
      refine h.of_subset rfl ?_
      intro entry hentry hsame
      rw [mem_members_remove, hsame.peerID]
      exact ⟨hentry, hother.symm⟩
    case isFalse => exact h
  rw [SOSCircleRemovePeerInternal] at hdone
  split at hdone
  case isTrue => cases hdone
  case isFalse =>
    obtain ⟨next, hnext, hdone⟩ : ∃ next, start.Kept der dates keys peer userkey next ∧
        (if SOSCircleHasApplicant next removed then
          SOSCircleRejectRequest next requestor removed else .ok next) = .ok circle' :=
      ⟨_, hremoved, hdone⟩
    split at hdone
    case isTrue => exact hnext.rejectRequest hdone
    case isFalse =>
      cases hdone
      exact hnext

theorem removePeers {requestor : SOSFullPeerInfo κ} {removals : List SOSPeerInfo}
    (hothers : ∀ removed ∈ removals, removed.peerID ≠ peer.peerID) :
    ∀ {circle circle' : SOSCircle}, start.Kept der dates keys peer userkey circle →
      forEachItem (fun circle removed => SOSCircleRemovePeerInternal circle requestor removed)
        removals circle = .ok circle' →
      start.Kept der dates keys peer userkey circle' := by
  induction removals with
  | nil =>
    intro circle circle' h hdone
    cases hdone
    exact h
  | cons removed removals ih =>
    intro circle circle' h hdone
    rw [forEachItem] at hdone
    split at hdone
    case h_1 next hnext =>
      have hkept := h.removePeerInternal (hothers removed List.mem_cons_self) hnext
      exact ih (fun other hother => hothers other (List.mem_cons_of_mem _ hother)) hkept hdone
    case h_2 => split at hdone <;> cases hdone

theorem rejectNonValidApplicants (h : start.Kept der dates keys peer userkey circle)
    (pubkey : Option κ) :
    start.Kept der dates keys peer userkey
      (SOSCircleRejectNonValidApplicants der dates keys circle pubkey) := by
  rw [SOSCircleRejectNonValidApplicants]
  have hfold : ∀ (applicants : List SOSPeerInfo) {circle : SOSCircle},
      start.Kept der dates keys peer userkey circle → start.Kept der dates keys peer userkey
        (applicants.foldl (rejectNonValidApplicant der dates keys pubkey) circle) := by
    intro applicants
    induction applicants with
    | nil => exact id
    | cons applicant applicants ih =>
      intro circle h
      apply ih
      simp only [rejectNonValidApplicant]
      split <;> exact h.of_subset rfl fun _ hentry _ => hentry
  exact hfold _ h

theorem preGenerationSign (h : start.Kept der dates keys peer userkey circle)
    (hpeer : SOSPeerInfoIsRetirementTicket peer = false) (pubkey : Option κ) :
    start.Kept der dates keys peer userkey
      (SOSCirclePreGenerationSign der dates keys circle pubkey) := by
  rw [SOSCirclePreGenerationSign]
  have hpruned : start.Kept der dates keys peer userkey
      { SOSCircleRemoveRetired circle with rejected_applicants := .empty _ } :=
    (h.removeRetired hpeer).of_subset rfl fun _ hentry _ => hentry
  exact (hpruned.rejectNonValidApplicants pubkey).of_subset rfl fun _ hentry _ => hentry
end SOSCircle.Kept

/-- Signatures verify, and the IDs of public keys are those of their private keys and their own. -/
structure SecKeys.Correct (keys : SecKeys κ) : Prop where
  verify : ∀ ⦃privKey pubKey : κ⦄ ⦃hash signature : List UInt8⦄,
    keys.createPublicFromPrivate privKey = some pubKey →
    keys.rawSign privKey hash = some signature → keys.rawVerify pubKey hash signature = true
  publicBytes : ∀ ⦃privKey pubKey : κ⦄, keys.createPublicFromPrivate privKey = some pubKey →
    keys.copyPublicBytes privKey = keys.copyPublicBytes pubKey
  hasID : ∀ ⦃privKey pubKey : κ⦄, keys.createPublicFromPrivate privKey = some pubKey →
    (SOSCopyIDOfKey keys pubKey).isSome
  distinctIDs : ∀ ⦃privKey privKey' pubKey pubKey' : κ⦄,
    keys.createPublicFromPrivate privKey = some pubKey →
    keys.createPublicFromPrivate privKey' = some pubKey' →
    SOSCopyIDOfKey keys pubKey = SOSCopyIDOfKey keys pubKey' → pubKey = pubKey'

theorem circle_bind_eq_ok {x : CircleOutcome} {f : SOSCircle → CircleOutcome}
    (h : (x >>= f) = .ok circle) : ∃ next, x = .ok next ∧ f next = .ok circle := by
  cases x with
  | ok next => exact ⟨next, rfl, h⟩
  | error _ => cases h

theorem getSignature_of_ID {pubKey : κ} {id : CFString}
    (hID : SOSCopyIDOfKey keys pubKey = some id) :
    SOSCircleGetSignature keys circle pubKey =
      (cfDictionaryGetValue circle.signatures id).bind asData := by
  rw [SOSCircleGetSignature, hID]
  rfl

structure SOSCircle.SignedBy (keys : SecKeys κ) (circle : SOSCircle) (pubKey : κ)
    (circle' : SOSCircle) : Prop where
  eq : circle' = { circle with signatures := circle'.signatures }
  carries : circle'.CarriesSignature keys pubKey
  other : ∀ ⦃pubKey'⦄, SOSCopyIDOfKey keys pubKey' ≠ SOSCopyIDOfKey keys pubKey →
    SOSCircleGetSignature keys circle' pubKey' = SOSCircleGetSignature keys circle pubKey'

theorem setSignature_spec {key pubKey : κ} {signature : List UInt8}
    (hsameID : SOSCopyIDOfKey keys key = SOSCopyIDOfKey keys pubKey)
    (hverify : keys.rawVerify pubKey (SOSCircleHash keys circle) signature = true)
    (hdone : SOSCircleSetSignature keys circle key signature = .ok circle') :
    circle.SignedBy keys pubKey circle' := by
  rw [SOSCircleSetSignature] at hdone
  split at hdone
  case h_2 => cases hdone
  case h_1 id hID =>
    rw [hsameID] at hID
    cases hdone
    refine ⟨rfl, ⟨signature, ?_, hverify⟩, ?_⟩
    · rw [getSignature_of_ID hID, cfDictionaryGetValue_setValue]
      rfl
    · intro pubKey' hne
      rw [hID] at hne
      cases hID' : SOSCopyIDOfKey keys pubKey' with
      | none => simp [SOSCircleGetSignature, hID']
      | some id' =>
        rw [hID'] at hne
        have hother : id ≠ id' := fun heq => hne (congrArg some heq.symm)
        rw [getSignature_of_ID hID', getSignature_of_ID hID',
          cfDictionaryGetValue_setValue_of_ne _ _ hother]

theorem sign_spec (hkeys : keys.Correct) {privKey pubKey : κ}
    (hpublic : keys.createPublicFromPrivate privKey = some pubKey)
    (hdone : SOSCircleSign keys circle privKey = .ok circle') :
    circle.SignedBy keys pubKey circle' := by
  have hsameID : SOSCopyIDOfKey keys privKey = SOSCopyIDOfKey keys pubKey := by
    rw [SOSCopyIDOfKey, SOSCopyIDOfKey, hkeys.publicBytes hpublic]
  rw [SOSCircleSign] at hdone
  split at hdone
  case h_2 => cases hdone
  case h_1 signature hsignature =>
    exact setSignature_spec hsameID (hkeys.verify hpublic hsignature) hdone

theorem SOSCircle.SignedBy.keeps (hkeys : keys.Correct) {privKey pubKey privKey' pubKey' : κ}
    (hpublic : keys.createPublicFromPrivate privKey = some pubKey)
    (hpublic' : keys.createPublicFromPrivate privKey' = some pubKey')
    (h : circle.SignedBy keys pubKey circle') (hcarries : circle.CarriesSignature keys pubKey') :
    circle'.CarriesSignature keys pubKey' := by
  by_cases hID : SOSCopyIDOfKey keys pubKey = SOSCopyIDOfKey keys pubKey'
  · rw [← hkeys.distinctIDs hpublic hpublic' hID]
    exact h.carries
  · obtain ⟨signature, hget, hverify⟩ := hcarries
    refine ⟨signature, ?_, ?_⟩
    · rw [h.other (fun heq => hID heq.symm), hget]
    · rw [h.eq]
      exact hverify

/-- The peer is found valid where its application might have been signed anew. -/
theorem upgradePeerInfo_of_valid {user_approver : κ}
    (huser : keys.createPublicFromPrivate user_approver = some userkey)
    (hvalid : peer.ValidUnder der dates keys userkey)
    (hentry : circle.HasEntry der dates keys peer userkey)
    (hfpi : fpi.peerInfo.peerID = peer.peerID)
    (hdone : SOSCircleUpgradePeerInfo der dates keys circle user_approver fpi now = .ok circle') :
    circle'.generation = circle.generation ∧ circle'.HasEntry der dates keys peer userkey := by
  obtain ⟨entry, hfind, hsame, hnot⟩ := hentry.find?
  obtain ⟨hverified, hnot'⟩ := applicationVerify_of_valid hvalid hsame hnot
  have hsame' := hsame.trans
    (@sameContent_applicationVerify der dates _ keys entry (some userkey))
  rw [SOSCircleUpgradePeerInfo, SOSCircleCopyPeerInfo, hfpi, hfind, huser] at hdone
  simp only [hverified, if_true] at hdone
  cases hdone
  refine ⟨rfl, (SOSPeerInfoApplicationVerify der dates keys entry (some userkey)).2, ?_, hsame',
    hnot'⟩
  have hmem : (SOSPeerInfoApplicationVerify der dates keys entry (some userkey)).2.peerID ∈
      circle.peers.keys := by
    rw [hsame'.peerID]
    exact List.mem_map.mpr ⟨entry, (mem_of_find? hfind).1, hsame.peerID⟩
  exact (mem_of_find? (find?_replace hmem)).1

/-- The next generation, which the user and the peer have signed unless no visible peer is left. -/
structure SOSCircle.SignedNext (der : Primitives) (dates : DateSystem) (keys : SecKeys κ)
    (start : SOSCircle) (peer : SOSPeerInfo) (userkey : κ) (now : ClockReading)
    (circle : SOSCircle) : Prop where
  generation : circle.generation =
    SOSGenerationIncrementAndCreate start.generation now.seconds
  entry : circle.HasEntry der dates keys peer userkey
  signed : SOSCircleIsEmpty circle = true ∨ ∃ pubKey,
    SOSPeerInfoCopyPubKey keys peer = some pubKey ∧
      circle.CarriesSignature keys userkey ∧ circle.CarriesSignature keys pubKey

structure SOSFullPeerInfo.IsOf (keys : SecKeys κ) (fpi : SOSFullPeerInfo κ) (peer : SOSPeerInfo) :
    Prop where
  peerID : fpi.peerInfo.peerID = peer.peerID
  deviceKey : ∀ deviceKey, fpi.deviceKey = some deviceKey →
    ∃ pubKey, keys.createPublicFromPrivate deviceKey = some pubKey ∧
      SOSPeerInfoCopyPubKey keys peer = some pubKey

theorem generationSign_spec (hkeys : keys.Correct) {start : SOSCircle} {user_privkey : κ}
    (huser : keys.createPublicFromPrivate user_privkey = some userkey)
    (hvalid : peer.ValidUnder der dates keys userkey)
    (hpeer : SOSPeerInfoIsRetirementTicket peer = false) (hfpi : fpi.IsOf keys peer)
    (hkept : start.Kept der dates keys peer userkey circle)
    (hdone : SOSCircleGenerationSign der dates keys circle user_privkey fpi now = .ok circle') :
    start.SignedNext der dates keys peer userkey now circle' := by
  rw [SOSCircleGenerationSign] at hdone
  have hready := hkept.preGenerationSign hpeer (keys.createPublicFromPrivate user_privkey)
  obtain ⟨next, hgeneration, hentry, hdone⟩ : ∃ next : SOSCircle,
      next.generation = SOSGenerationIncrementAndCreate start.generation now.seconds ∧
      next.HasEntry der dates keys peer userkey ∧
      SOSCircleGenerationSign_Internal der dates keys next user_privkey fpi now = .ok circle' := by
    refine ⟨SOSCircleGenerationIncrement (SOSCirclePreGenerationSign der dates keys circle
      (keys.createPublicFromPrivate user_privkey)) now, ?_, hready.entry, hdone⟩
    rw [SOSCircleGenerationIncrement, hready.generation]
  rw [SOSCircleGenerationSign_Internal] at hdone
  split at hdone
  case isTrue hempty =>
    cases hdone
    exact ⟨hgeneration, hentry, Or.inl (decide_eq_true hempty)⟩
  case isFalse =>
    split at hdone
    case h_1 => cases hdone
    case h_2 ourKey hourKey =>
      obtain ⟨pubKey, hpublic, hpubKey⟩ := hfpi.deviceKey ourKey hourKey
      obtain ⟨upgraded, hupgrade, hdone⟩ := circle_bind_eq_ok hdone
      obtain ⟨signed, husersign, hoursign⟩ := circle_bind_eq_ok hdone
      obtain ⟨hsame, hentry'⟩ := upgradePeerInfo_of_valid huser hvalid hentry hfpi.peerID hupgrade
      have hsigned := sign_spec hkeys huser husersign
      have hsigned' := sign_spec hkeys hpublic hoursign
      refine ⟨?_, ?_, Or.inr ⟨pubKey, hpubKey, ?_, hsigned'.carries⟩⟩
      · rw [hsigned'.eq, hsigned.eq, hsame, hgeneration]
      · rw [hsigned'.eq, hsigned.eq]
        exact hentry'
      · exact hsigned'.keeps hkeys hpublic huser hsigned.carries

theorem peerKeys_copyCircle (circle : SOSCircle) :
    (SOSCircleCopyCircle der dates circle).peerKeys = circle.peerKeys := by
  rw [SOSCircle.peerKeys, SOSCircle.peerKeys, SOSCircleCopyCircle, copyPeerInfos, List.map_map]
  apply List.map_congr_left
  intro peer _
  have hsame := @sameContent_createCopy der dates peer
  rw [Function.comp_apply, hsame.peerID, hsame.data_eq (by decide)]

theorem countPeers_copyCircle (circle : SOSCircle) :
    SOSCircleCountPeers (SOSCircleCopyCircle der dates circle) = SOSCircleCountPeers circle := by
  rw [SOSCircleCountPeers, SOSCircleCountPeers, SOSCircle.visiblePeers, SOSCircle.visiblePeers,
    SOSCircleCopyCircle, copyPeerInfos, List.filter_map, List.length_map]
  have hhidden : ∀ peer : SOSPeerInfo,
      ((fun peer => !isHiddenPeer peer) ∘ SOSPeerInfoCreateCopy der dates) peer =
        !isHiddenPeer peer := by
    intro peer
    rw [Function.comp_apply, (sameContent_createCopy peer).isHiddenPeer_eq]
  rw [funext hhidden]

theorem SOSCircle.SignedNext.copyCircle {start : SOSCircle}
    (huser : (SOSCopyIDOfKey keys userkey).isSome)
    (h : start.SignedNext der dates keys peer userkey now circle) :
    start.SignedNext der dates keys peer userkey now (SOSCircleCopyCircle der dates circle) where
  generation := h.generation
  entry := by
    obtain ⟨entry, hentry, hsame, -⟩ := h.entry
    exact .copyCircle huser ⟨entry, hentry, hsame⟩
  signed := by
    have hcarries : ∀ pubKey, circle.CarriesSignature keys pubKey →
        (SOSCircleCopyCircle der dates circle).CarriesSignature keys pubKey := by
      intro pubKey hsigned
      obtain ⟨signature, hget, hverify⟩ := hsigned
      have hhash : SOSCircleHash keys (SOSCircleCopyCircle der dates circle) =
          SOSCircleHash keys circle := circleHash_eq rfl (peerKeys_copyCircle circle)
      refine ⟨signature, hget, ?_⟩
      rw [hhash]
      exact hverify
    rw [SOSCircleIsEmpty, countPeers_copyCircle, ← SOSCircleIsEmpty]
    exact h.signed.imp_right fun ⟨pubKey, hkey, huser, hpeer⟩ =>
      ⟨pubKey, hkey, hcarries _ huser, hcarries _ hpeer⟩

theorem SOSCircle.SignedNext.trusted {start : SOSCircle}
    (h : start.SignedNext der dates keys peer userkey now circle)
    (hvalid : peer.ValidUnder der dates keys userkey) (hpeer : peer ∈ start.peers.members)
    (hvisible : isHiddenPeer peer = false ∨ SOSCircleCountPeers circle ≠ 1)
    (hroom : (generationBase start.generation now.seconds).toInt < 2 ^ 63 - 1)
    (me : Option SOSPeerInfo) :
    (SOSCircleConcordanceTrust der dates keys start circle (some userkey) me).1 = .trusted := by
  rw [concordanceTrust_iff]
  have hnewer : SOSCircleIsOlderGeneration start circle = true := by
    rw [SOSCircleIsOlderGeneration, h.generation]
    exact isOlder_incrementAndCreate hroom
  rcases h.signed with hempty | ⟨pubKey, hkey, huser, hsigned⟩
  · right
    left
    rw [SOSCircleIsValidReset, hempty, hnewer, Bool.and_self]
  · have hsigner : ∀ signer, peer.SameContent der dates signer →
        circle.HasSigner der dates keys userkey signer := by
      intro signer hsame
      refine ⟨pubKey, ?_, ?_, verify_iff.mpr hsigned⟩
      · rw [hsame.copyPubKey_eq, hkey]
      · rw [hsame.peerID]
        exact h.entry.valid hvalid
    obtain ⟨entry, hentry, hsame, -⟩ := h.entry
    refine Or.inr (Or.inr ⟨verify_iff.mpr huser, fun _ _ => not_older_of_older hnewer, ?_⟩)
    rw [signersFor]
    split_ifs with hall hoffering
    · exact ⟨entry, hentry, hsigner entry hsame⟩
    · refine ⟨entry, ?_, hsigner entry hsame⟩
      rw [SOSCircleIsOffering, Bool.and_eq_true, decide_eq_true_eq, decide_eq_true_eq] at hoffering
      have hshown := hvisible.resolve_right (not_not.mpr hoffering.2)
      rw [SOSCircle.visiblePeers, List.mem_filter, hsame.isHiddenPeer_eq, hshown]
      exact ⟨hentry, rfl⟩
    · exact ⟨peer, hpeer, hsigner peer (.refl peer)⟩

/-- A peer that can sign: it is in the circle, is not retired and is valid under the user key. -/
structure SOSCircle.HasApprover (der : Primitives) (dates : DateSystem) (keys : SecKeys κ)
    (circle : SOSCircle) (userkey : κ) (peer : SOSPeerInfo) : Prop where
  active : peer ∈ circle.peers.members
  notRetired : SOSPeerInfoIsRetirementTicket peer = false
  valid : peer.ValidUnder der dates keys userkey

inductive ApproverSigns (der : Primitives) (dates : DateSystem) (keys : SecKeys κ)
    (circle : SOSCircle) (peer : SOSPeerInfo) (user_privkey : κ) (fpi : SOSFullPeerInfo κ)
    (now : ClockReading) (circle' : SOSCircle) : Prop
  | acceptRequest (applicant : SOSPeerInfo)
      (hdone : SOSCircleAcceptRequest der dates keys (SOSCircleCopyCircle der dates circle)
        user_privkey fpi applicant now = .ok circle')
  | removePeers (removals : List SOSPeerInfo)
      (hothers : ∀ removed ∈ removals, removed.peerID ≠ peer.peerID)
      (hdone : SOSCircleRemovePeers der dates keys (SOSCircleCopyCircle der dates circle)
        user_privkey fpi removals now = .ok circle')

theorem ApproverSigns.signedNext (hkeys : keys.Correct) {user_privkey : κ}
    (huser : keys.createPublicFromPrivate user_privkey = some userkey)
    (hpeer : circle.HasApprover der dates keys userkey peer) (hfpi : fpi.IsOf keys peer)
    (h : ApproverSigns der dates keys circle peer user_privkey fpi now circle') :
    circle.SignedNext der dates keys peer userkey now circle' := by
  have hcopy : circle.Kept der dates keys peer userkey (SOSCircleCopyCircle der dates circle) :=
    ⟨rfl, .copyCircle (hkeys.hasID huser) ⟨peer, hpeer.active, .refl peer⟩⟩
  cases h with
  | acceptRequest applicant hdone =>
    rw [SOSCircleAcceptRequest] at hdone
    split at hdone
    case isFalse => cases hdone
    case isTrue =>
      simp only at hdone
      split at hdone
      case isFalse => cases hdone
      case isTrue =>
        refine generationSign_spec hkeys huser hpeer.valid hpeer.notRetired hfpi ?_ hdone
        refine hcopy.of_subset rfl fun entry hentry _ => ?_
        exact mem_members_add.mpr (Or.inl hentry)
  | removePeers removals hothers hdone =>
    obtain ⟨next, hremoved, hsigned⟩ := circle_bind_eq_ok hdone
    exact generationSign_spec hkeys huser hpeer.valid hpeer.notRetired hfpi
      (SOSCircle.Kept.removePeers hothers hcopy hremoved) hsigned

/-- What an approver signs is trusted by all who hold the circle, also as they receive it. -/
theorem concordanceTrust_complete (hkeys : keys.Correct) {circle circle' : SOSCircle}
    {peer : SOSPeerInfo} {user_privkey userkey : κ}
    (huser : keys.createPublicFromPrivate user_privkey = some userkey)
    (hpeer : circle.HasApprover der dates keys userkey peer) {fpi : SOSFullPeerInfo κ}
    (hfpi : fpi.IsOf keys peer) {now : ClockReading}
    (hsigns : ApproverSigns der dates keys circle peer user_privkey fpi now circle')
    (hvisible : isHiddenPeer peer = false ∨ SOSCircleCountPeers circle' ≠ 1)
    (hroom : (generationBase circle.generation now.seconds).toInt < 2 ^ 63 - 1)
    (me : Option SOSPeerInfo) :
    (SOSCircleConcordanceTrust der dates keys circle circle' (some userkey) me).1 = .trusted ∧
      (SOSCircleConcordanceTrust der dates keys circle (SOSCircleCopyCircle der dates circle')
        (some userkey) me).1 = .trusted := by
  have hnext := hsigns.signedNext hkeys huser hpeer hfpi
  refine ⟨hnext.trusted hpeer.valid hpeer.active hvisible hroom me, ?_⟩
  apply (hnext.copyCircle (hkeys.hasID huser)).trusted hpeer.valid hpeer.active _ hroom me
  rw [countPeers_copyCircle]
  exact hvisible
end

theorem plainKeys_correct : plainKeys.Correct where
  verify := by
    intro privKey pubKey hash signature hpublic hsignature
    cases hpublic
    cases hsignature
    exact decide_eq_true rfl
  publicBytes := by
    intro privKey pubKey hpublic
    cases hpublic
    rfl
  hasID := fun _ _ _ => rfl
  distinctIDs := by
    intro privKey privKey' pubKey pubKey' _ _ hID
    exact @plainKeys_distinctIDs pubKey pubKey' _ _ rfl rfl rfl hID

def approverDescription (extra : List (Plist × Plist)) (key : List UInt8) : List (Plist × Plist) :=
  [(.string sPublicKeyKey, .data key), (.string sApplicationDate, .data []),
    (.string sApplicationUsig, .data (plainUser ++ key))] ++ extra

def plainApprover (extra : List (Plist × Plist)) (key : List UInt8) : SOSPeerInfo where
  description := approverDescription extra key
  signature := key ++ plistCoding Standard.primitives firstMonthDoubles
    (.dictionary (approverDescription extra key))
  peerID := key.map UInt8.toUInt16
  version := 0
  verifiedAppKeyID := none
  verifiedResult := false
  v2Dictionary := none

def cloudEntry : List (Plist × Plist) := [(.string sCloudIdentityKey, .boolean true)]

variable {extra : List (Plist × Plist)}

theorem approverDescription_over (hextra : extra = [] ∨ extra = cloudEntry) (key : List UInt8) :
    (Plist.dictionary (approverDescription extra key)).Over firstMonthDoubles.Representable := by
  have hstrings : ∀ entry ∈ approverDescription extra key,
      entry.1.Over firstMonthDoubles.Representable ∧
        entry.2.Over firstMonthDoubles.Representable := by
    rcases hextra with rfl | rfl <;>
      simp only [approverDescription, cloudEntry, List.cons_append, List.nil_append,
        List.forall_mem_cons, List.not_mem_nil, false_implies, implies_true, and_true]
    · exact ⟨⟨.string _ ⟨"PublicSigningKey".toList, by decide⟩, .data _⟩,
        ⟨.string _ ⟨"ApplicationDate".toList, by decide⟩, .data _⟩,
        .string _ ⟨"ApplicationUsig".toList, by decide⟩, .data _⟩
    · exact ⟨⟨.string _ ⟨"PublicSigningKey".toList, by decide⟩, .data _⟩,
        ⟨.string _ ⟨"ApplicationDate".toList, by decide⟩, .data _⟩,
        ⟨.string _ ⟨"ApplicationUsig".toList, by decide⟩, .data _⟩,
        .string _ ⟨"CloudIdentity".toList, by decide⟩, .boolean _⟩
  refine .dictionary _ (fun entry hentry => (hstrings entry hentry).1)
    (fun entry hentry => (hstrings entry hentry).2) ?_
  rcases hextra with rfl | rfl <;>
    simp only [approverDescription, cloudEntry, List.cons_append, List.nil_append,
      List.pairwise_cons, List.forall_mem_cons, List.not_mem_nil, false_implies, implies_true,
      and_true, List.Pairwise.nil] <;>
    decide

theorem plainApprover_valid (hextra : extra = [] ∨ extra = cloudEntry) (key : List UInt8) :
    (plainApprover extra key).ValidUnder Standard.primitives firstMonthDoubles plainKeys plainUser := by
  have hder := CFPropertyListCreateDERData_eq Standard.primitives_correct firstMonthDoubles_correct
    firstMonthDoubles_fractions (approverDescription_over hextra key)
  constructor
  · rcases hextra with rfl | rfl <;> exact decide_eq_true rfl
  · have hkey : SOSPeerInfoCopyPubKey plainKeys (plainApprover extra key) = some key := rfl
    have hpack : SOSPeerInfoPackV2Data Standard.primitives firstMonthDoubles (plainApprover extra key) =
        plainApprover extra key := rfl
    rw [SOSPeerInfoVerify, hkey]
    simp only [SOSDescriptionHash, hpack]
    change Option.any _ ((CFPropertyListCreateDERData _ _ (.dictionary (approverDescription extra key))).map _) = true
    rw [hder]
    exact decide_eq_true rfl

def sampleCircle (generation : SOSGenCount) (extra : List (Plist × Plist)) : SOSCircle where
  name := []
  generation := generation
  peers := ⟨[plainApprover extra [1], plainApprover [] [2]], by
    change [[(1 : UInt16)], [2]].Nodup
    decide⟩
  applicants := .empty _
  rejected_applicants := .empty _
  signatures := []

def signedByBoth (circle : SOSCircle) : SOSCircle :=
  let hash := SOSCircleHash plainKeys circle
  { circle with
    signatures := [(.string [0], .data ([0] ++ hash)), (.string [1], .data ([1] ++ hash))] }

def sampleApprover (extra : List (Plist × Plist)) : SOSFullPeerInfo (List UInt8) :=
  ⟨plainApprover extra [1], some [1]⟩

def rememberedApprover (extra : List (Plist × Plist)) : SOSPeerInfo :=
  { plainApprover extra [1] with
    verifiedAppKeyID := some (plainUser.map UInt8.toUInt16), verifiedResult := true }

theorem applicationVerify_plainApprover (hextra : extra = [] ∨ extra = cloudEntry) :
    SOSPeerInfoApplicationVerify Standard.primitives firstMonthDoubles plainKeys
      (plainApprover extra [1]) (some plainUser) = (true, rememberedApprover extra) := by
  have hvalid := plainApprover_valid hextra [1]
  refine Prod.ext (applicationVerify_of_valid hvalid (.refl _) fun h => nomatch h).1 ?_
  have hID : SOSCopyIDOfKey plainKeys plainUser ≠ (plainApprover extra [1]).verifiedAppKeyID :=
    fun h => nomatch h
  rw [SOSPeerInfoApplicationVerify, if_neg hID, if_pos hvalid.applied]
  rfl

def sampleNext (generation : SOSGenCount) (extra : List (Plist × Plist)) : SOSCircle :=
  signedByBoth
    { sampleCircle (SOSGenerationIncrementAndCreate generation 0) extra with
      peers := ⟨[rememberedApprover extra, plainApprover [] [2]], by
        change [[(1 : UInt16)], [2]].Nodup
        decide⟩ }

theorem removePeers_sample (generation : SOSGenCount) (hextra : extra = [] ∨ extra = cloudEntry) :
    SOSCircleRemovePeers Standard.primitives firstMonthDoubles plainKeys
      (SOSCircleCopyCircle Standard.primitives firstMonthDoubles
        (signedByBoth (sampleCircle generation extra)))
      plainUser (sampleApprover extra) [] epoch = .ok (sampleNext generation extra) := by
  have hverify := applicationVerify_plainApprover hextra
  have hpre : SOSCircleGenerationIncrement (SOSCirclePreGenerationSign Standard.primitives
      firstMonthDoubles plainKeys (SOSCircleCopyCircle Standard.primitives firstMonthDoubles
        (signedByBoth (sampleCircle generation extra))) (some plainUser)) epoch =
      sampleCircle (SOSGenerationIncrementAndCreate generation 0) extra := by
    rcases hextra with rfl | rfl <;> rfl
  have huser : plainKeys.createPublicFromPrivate plainUser = some plainUser := rfl
  have hupgrade : SOSCircleUpgradePeerInfo Standard.primitives firstMonthDoubles plainKeys
      (sampleCircle (SOSGenerationIncrementAndCreate generation 0) extra) plainUser
      (sampleApprover extra) epoch = .ok ((sampleCircle (SOSGenerationIncrementAndCreate generation 0)
        extra).setPeer (rememberedApprover extra)) := by
    have hfind : SOSCircleCopyPeerInfo (sampleCircle (SOSGenerationIncrementAndCreate generation 0)
      extra) (sampleApprover extra).peerInfo.peerID = some (plainApprover extra [1]) := rfl
    simp only [SOSCircleUpgradePeerInfo, hfind, huser, hverify, if_true]
  have hcount : SOSCircleCountPeers
      (sampleCircle (SOSGenerationIncrementAndCreate generation 0) extra) ≠ 0 := by
    rcases hextra with rfl | rfl
    · exact Nat.succ_ne_zero 1
    · exact Nat.succ_ne_zero 0
  have hsign : SOSCircleGenerationSign Standard.primitives firstMonthDoubles plainKeys
      (SOSCircleCopyCircle Standard.primitives firstMonthDoubles
        (signedByBoth (sampleCircle generation extra)))
      plainUser (sampleApprover extra) epoch = .ok (sampleNext generation extra) := by
    rw [SOSCircleGenerationSign, huser, hpre, SOSCircleGenerationSign_Internal, if_neg hcount]
    simp only [sampleApprover] at hupgrade ⊢
    rw [hupgrade]
    rfl
  exact hsign

theorem hasApprover_sample (generation : SOSGenCount) (hextra : extra = [] ∨ extra = cloudEntry) :
    (signedByBoth (sampleCircle generation extra)).HasApprover Standard.primitives
      firstMonthDoubles plainKeys plainUser (plainApprover extra [1]) := by
  refine ⟨List.mem_cons_self, ?_, plainApprover_valid hextra [1]⟩
  rcases hextra with rfl | rfl <;> rfl

theorem sampleApprover_isOf (extra : List (Plist × Plist)) :
    (sampleApprover extra).IsOf plainKeys (plainApprover extra [1]) := by
  refine ⟨rfl, ?_⟩
  intro deviceKey hdeviceKey
  cases hdeviceKey
  exact ⟨[1], rfl, rfl⟩

theorem approverSigns_sample (generation : SOSGenCount) (hextra : extra = [] ∨ extra = cloudEntry) :
    ApproverSigns Standard.primitives firstMonthDoubles plainKeys
      (signedByBoth (sampleCircle generation extra)) (plainApprover extra [1]) plainUser
      (sampleApprover extra) epoch (sampleNext generation extra) :=
  .removePeers [] (fun _ hremoved => nomatch hremoved) (removePeers_sample generation hextra)

theorem concordanceTrust_complete_sample :
    (SOSCircleConcordanceTrust Standard.primitives firstMonthDoubles plainKeys
        (signedByBoth (sampleCircle 1 [])) (sampleNext 1 []) (some plainUser) none).1 =
          .trusted ∧
      (SOSCircleConcordanceTrust Standard.primitives firstMonthDoubles plainKeys
        (signedByBoth (sampleCircle 1 [])) (SOSCircleCopyCircle Standard.primitives
          firstMonthDoubles (sampleNext 1 [])) (some plainUser) none).1 = .trusted :=
  concordanceTrust_complete plainKeys_correct rfl (hasApprover_sample 1 (Or.inl rfl))
    (sampleApprover_isOf []) (approverSigns_sample 1 (Or.inl rfl)) (Or.inl rfl) (by decide) none

/-- A circle with one visible peer that a cloud identity signs is not trusted, nor is one whose
generation count overflows. -/
theorem signed_not_trusted :
    (∃ circle', ApproverSigns Standard.primitives firstMonthDoubles plainKeys
        (signedByBoth (sampleCircle 1 cloudEntry)) (plainApprover cloudEntry [1]) plainUser
        (sampleApprover cloudEntry) epoch circle' ∧
      (signedByBoth (sampleCircle 1 cloudEntry)).HasApprover Standard.primitives
        firstMonthDoubles plainKeys plainUser (plainApprover cloudEntry [1]) ∧
      (SOSCircleConcordanceTrust Standard.primitives firstMonthDoubles plainKeys
        (signedByBoth (sampleCircle 1 cloudEntry)) circle' (some plainUser) none).1 ≠ .trusted) ∧
    ∃ circle', ApproverSigns Standard.primitives firstMonthDoubles plainKeys
        (signedByBoth (sampleCircle (BitVec.intMax 64) [])) (plainApprover [] [1]) plainUser
        (sampleApprover []) epoch circle' ∧
      (signedByBoth (sampleCircle (BitVec.intMax 64) [])).HasApprover Standard.primitives
        firstMonthDoubles plainKeys plainUser (plainApprover [] [1]) ∧
      (SOSCircleConcordanceTrust Standard.primitives firstMonthDoubles plainKeys
        (signedByBoth (sampleCircle (BitVec.intMax 64) [])) circle' (some plainUser) none).1 ≠
          .trusted := by
  refine ⟨⟨_, approverSigns_sample 1 (Or.inr rfl), hasApprover_sample 1 (Or.inr rfl), ?_⟩,
    _, approverSigns_sample _ (Or.inl rfl), hasApprover_sample _ (Or.inl rfl), ?_⟩
  · rw [Ne, concordanceTrust_iff]
    rintro (hreset | hreset | hconcurs)
    · cases hreset
    · cases hreset
    · -- the only visible peer has not signed
      obtain ⟨peer, hpeer, pubKey, hkey, -, hverify⟩ := hconcurs.peerSigned
      have hvisible : signersFor (signedByBoth (sampleCircle 1 cloudEntry))
          (sampleNext 1 cloudEntry) = [plainApprover [] [2]] := rfl
      rw [hvisible, List.mem_singleton] at hpeer
      subst hpeer
      cases hkey
      cases hverify
  · rw [Ne, concordanceTrust_iff]
    rintro (hreset | hreset | hconcurs)
    · cases hreset
    · cases hreset
    · have holder := hconcurs.notOlder rfl rfl
      cases holder
end SecurityFramework
