import SecurityFramework.SecureObjectSync.CircleInvariant

/-!
# Trust in a proposed circle

A circle is adopted in place of the one that is known if it is a reset, or if the user and a peer
have signed it.
-/

namespace SecurityFramework
open DER KeyedSet

inductive SOSConcordanceStatus
  | trusted
  | genOld
  | noUserSig
  | noUserKey
  | noPeer
  | badUserSig
  | badPeerSig
  | noPeerSig
  deriving DecidableEq, Repr

def CombineStatus (status1 status2 : SOSConcordanceStatus) : SOSConcordanceStatus :=
  if status1 = .trusted ∨ status2 = .trusted then .trusted
  else if status1 = .badPeerSig ∨ status2 = .badPeerSig then .badPeerSig
  else if status1 = .noPeerSig ∨ status2 = .noPeerSig then .noPeerSig
  else status1

def SOSCircleHasDegenerateGeneration (circle : SOSCircle) : Bool := circle.generation = 0

def SOSCircleIsDegenerateReset (circle : SOSCircle) : Bool :=
  SOSCircleHasDegenerateGeneration circle && SOSCircleIsEmpty circle

def SOSCircleIsOlderGeneration (older newer : SOSCircle) : Bool :=
  SOSGenerationIsOlder older.generation newer.generation

def SOSCircleIsValidReset (current proposed : SOSCircle) : Bool :=
  SOSCircleIsEmpty proposed && SOSCircleIsOlderGeneration current proposed

section
variable (der : Primitives) (dates : DateSystem) {κ : Type} (keys : SecKeys κ)

/-- Any peer is active, hidden ones too. -/
def SOSCircleHasActiveValidPeerWithID (circle : SOSCircle) (peerid : CFString)
    (user_public_key : κ) : Bool × SOSCircle :=
  match circle.peers.find? peerid with
  | none => (false, circle)
  | some found =>
    let (valid, found) := SOSPeerInfoApplicationVerify der dates keys found (some user_public_key)
    (valid, circle.setPeer found)

def SOSCircleHasActiveValidPeer (circle : SOSCircle) (peerInfo : SOSPeerInfo)
    (user_public_key : κ) : Bool × SOSCircle :=
  SOSCircleHasActiveValidPeerWithID der dates keys circle peerInfo.peerID user_public_key

/-- The signature is looked for under the key of the peer info that is given, which may come from
another circle than the one that has to have it. -/
def CheckPeerStatus (circle : SOSCircle) (peer : SOSPeerInfo) (user_public_key : κ) :
    SOSConcordanceStatus × SOSCircle :=
  match SOSPeerInfoCopyPubKey keys peer with
  | none => (.noPeer, circle)
  | some pubKey =>
    let (valid, circle) := SOSCircleHasActiveValidPeer der dates keys circle peer user_public_key
    if !valid then (.noPeer, circle)
    else if !SOSCircleVerifySignatureExists keys circle pubKey then (.noPeerSig, circle)
    else if !SOSCircleVerify keys circle pubKey then (.badPeerSig, circle)
    else (.trusted, circle)

def addSignerStatus (user_pubKey : κ) (excluded_id : Option CFString)
    (state : SOSConcordanceStatus × SOSCircle) (peer : SOSPeerInfo) :
    SOSConcordanceStatus × SOSCircle :=
  let (peerStatus, circle) := CheckPeerStatus der dates keys state.2 peer user_pubKey
  let peerStatus :=
    if peerStatus = .noPeerSig ∧
        (some peer.peerID = excluded_id ∨ SOSPeerInfoIsCloudIdentity peer = true) then .noPeer
    else peerStatus
  (CombineStatus state.1 peerStatus, circle)

def GetSignersStatus (signers_circle status_circle : SOSCircle) (user_pubKey : κ)
    (exclude : Option SOSPeerInfo) : SOSConcordanceStatus × SOSCircle :=
  signers_circle.peers.members.foldl
    (addSignerStatus der dates keys user_pubKey (exclude.map SOSPeerInfo.peerID))
    (.noPeer, status_circle)

/-- The last of the visible peers decides. -/
def GetOfferingStatus (circle : SOSCircle) (user_pubKey : κ) : SOSConcordanceStatus × SOSCircle :=
  circle.visiblePeers.foldl
    (fun state peer =>
      let (status, circle) := CheckPeerStatus der dates keys state.2 peer user_pubKey
      (if status ≠ .trusted then .noPeer else status, circle))
    (.noPeer, circle)

/-- The status, and the proposed circle, in which what was found about its peers is kept. -/
def SOSCircleConcordanceTrust (known_circle proposed_circle : SOSCircle) (user_pubkey : Option κ)
    (me : Option SOSPeerInfo) : SOSConcordanceStatus × SOSCircle :=
  match user_pubkey with
  | none => (.noUserKey, proposed_circle)
  | some user_pubkey =>
    if SOSCircleIsDegenerateReset proposed_circle then (.trusted, proposed_circle)
    else if SOSCircleIsValidReset known_circle proposed_circle then (.trusted, proposed_circle)
    else if !SOSCircleVerifySignatureExists keys proposed_circle user_pubkey then
      (.noUserSig, proposed_circle)
    else if !SOSCircleVerify keys proposed_circle user_pubkey then (.badUserSig, proposed_circle)
    else if SOSCircleIsEmpty known_circle then
      GetSignersStatus der dates keys proposed_circle proposed_circle user_pubkey none
    else if SOSCircleHasDegenerateGeneration proposed_circle &&
        SOSCircleIsOffering proposed_circle then
      GetSignersStatus der dates keys proposed_circle proposed_circle user_pubkey none
    else if SOSCircleIsOlderGeneration proposed_circle known_circle then (.genOld, proposed_circle)
    else if SOSCircleIsOffering proposed_circle then
      GetOfferingStatus der dates keys proposed_circle user_pubkey
    else GetSignersStatus der dates keys known_circle proposed_circle user_pubkey me
end

section
variable {der : Primitives} {dates : DateSystem} {κ : Type} {keys : SecKeys κ}

structure SOSPeerInfo.SameKey (pi pi' : SOSPeerInfo) : Prop where
  peerID : pi'.peerID = pi.peerID
  publicKey : pi'.data sPublicKeyKey = pi.data sPublicKeyKey

theorem sameKey_packV2Data (pi : SOSPeerInfo) :
    pi.SameKey (SOSPeerInfoPackV2Data der dates pi) := by
  refine ⟨peerID_packV2Data pi, ?_⟩
  rw [SOSPeerInfoPackV2Data]
  split
  case isFalse => rfl
  case isTrue =>
    split
    case h_2 => rfl
    case h_1 v2der _ =>
      have hother : sV2DictionaryKey ≠ sPublicKeyKey := by decide
      rw [SOSPeerInfo.data, SOSPeerInfo.data, SOSPeerInfo.value, SOSPeerInfo.value,
        SOSPeerInfo.setValue, cfDictionaryGetValue_setValue_of_ne _ _ hother]

theorem sameKey_verify (pi : SOSPeerInfo) :
    pi.SameKey (SOSPeerInfoVerify der dates keys pi).2 := by
  rw [SOSPeerInfoVerify]
  split
  case h_1 => exact ⟨rfl, rfl⟩
  case h_2 => exact sameKey_packV2Data pi

theorem sameKey_applicationVerify (pi : SOSPeerInfo) (userkey : Option κ) :
    pi.SameKey (SOSPeerInfoApplicationVerify der dates keys pi userkey).2 := by
  cases userkey with
  | none => exact ⟨rfl, rfl⟩
  | some userkey =>
    rw [SOSPeerInfoApplicationVerify]
    split
    case isTrue => exact ⟨rfl, rfl⟩
    case isFalse =>
      split
      case isTrue =>
        exact ⟨(sameKey_verify _).peerID, (sameKey_verify _).publicKey⟩
      case isFalse => exact ⟨rfl, rfl⟩

def SOSCircle.peerKeys (circle : SOSCircle) : List (CFString × Option (List UInt8)) :=
  circle.peers.members.map fun peer => (peer.peerID, peer.data sPublicKeyKey)

def peerKeyOctets (peers : SOSPeerInfoSet) : List UInt8 :=
  (peers.members.mergeSort peerInfoLe).flatMap fun peer => (peer.data sPublicKeyKey).getD []

theorem digestSet_eq (peers : SOSPeerInfoSet) :
    SOSCircleDigestSet keys peers = keys.sha256 (peerKeyOctets peers) := rfl

def peerKey (peer : SOSPeerInfo) : CFString × Option (List UInt8) :=
  (peer.peerID, peer.data sPublicKeyKey)

theorem peerKeyOctets_congr {peers peers' : SOSPeerInfoSet}
    (hkeys : peers'.members.map peerKey = peers.members.map peerKey) :
    peerKeyOctets peers' = peerKeyOctets peers := by
  have hsorted : ∀ members : List SOSPeerInfo,
      ((members.mergeSort peerInfoLe).flatMap fun peer => (peer.data sPublicKeyKey).getD []) =
        ((members.map peerKey).mergeSort
          fun left right => left.1.map UInt16.toNat ≤ right.1.map UInt16.toNat).flatMap
            fun pair => pair.2.getD [] := by
    intro members
    have hmap : (members.map peerKey).mergeSort
        (fun left right => left.1.map UInt16.toNat ≤ right.1.map UInt16.toNat) =
          (members.mergeSort peerInfoLe).map peerKey := by
      rw [← List.map_mergeSort (r := peerInfoLe)]
      intro left _ right _
      rfl
    rw [hmap, List.flatMap_map]
    rfl
  rw [peerKeyOctets, peerKeyOctets, hsorted, hsorted, hkeys]

variable {circle : SOSCircle}

theorem circleHash_eq {circle' : SOSCircle} (hgeneration : circle'.generation = circle.generation)
    (hkeys : circle'.peerKeys = circle.peerKeys) :
    SOSCircleHash keys circle' = SOSCircleHash keys circle := by
  rw [SOSCircleHash, SOSCircleHash, SOSCircleHashGenAndPeers, SOSCircleHashGenAndPeers,
    digestSet_eq, digestSet_eq, peerKeyOctets_congr hkeys, hgeneration]

structure SOSCircle.Checked (circle : SOSCircle) (ids : List CFString) (circle' : SOSCircle) :
    Prop where
  generation : circle'.generation = circle.generation
  signatures : circle'.signatures = circle.signatures
  peerKeys : circle'.peerKeys = circle.peerKeys
  find? : ∀ id ∉ ids, circle'.peers.find? id = circle.peers.find? id

namespace SOSCircle.Checked
variable {circle circle' : SOSCircle} {ids : List CFString}

theorem refl (circle : SOSCircle) (ids : List CFString) : circle.Checked ids circle :=
  ⟨rfl, rfl, rfl, fun _ _ => rfl⟩

theorem mono (h : circle.Checked ids circle') {ids' : List CFString} (hsub : ids ⊆ ids') :
    circle.Checked ids' circle' :=
  ⟨h.generation, h.signatures, h.peerKeys, fun id hid => h.find? id fun hmem => hid (hsub hmem)⟩

theorem setPeer (h : circle.Checked ids circle') {found pi : SOSPeerInfo}
    (hfind : circle'.peers.find? found.peerID = some found) (hsame : found.SameKey pi) :
    circle.Checked (found.peerID :: ids) (circle'.setPeer pi) where
  generation := h.generation
  signatures := h.signatures
  peerKeys := by
    rw [← h.peerKeys]
    rw [← hsame.peerID] at hfind
    apply map_members_replace _ hfind
    rw [hsame.peerID, hsame.publicKey]
  find? := by
    intro id hid
    rw [List.mem_cons, not_or] at hid
    rw [SOSCircle.setPeer, find?_replace_of_ne, h.find? id hid.2]
    rw [hsame.peerID]
    exact hid.1

theorem verify_eq (h : circle.Checked ids circle') (pubKey : κ) :
    SOSCircleVerify keys circle' pubKey = SOSCircleVerify keys circle pubKey := by
  rw [SOSCircleVerify, SOSCircleVerify, SOSCircleGetSignature, SOSCircleGetSignature,
    h.signatures, circleHash_eq h.generation h.peerKeys]
end SOSCircle.Checked

def SOSCircle.HasValid (der : Primitives) (dates : DateSystem) (keys : SecKeys κ)
    (circle : SOSCircle) (peerID : CFString) (userkey : κ) : Prop :=
  ∃ found, circle.peers.find? peerID = some found ∧
    (SOSPeerInfoApplicationVerify der dates keys found (some userkey)).1 = true

def SOSCircle.HasSigner (der : Primitives) (dates : DateSystem) (keys : SecKeys κ)
    (circle : SOSCircle) (userkey : κ) (peer : SOSPeerInfo) : Prop :=
  ∃ pubKey, SOSPeerInfoCopyPubKey keys peer = some pubKey ∧
    circle.HasValid der dates keys peer.peerID userkey ∧ SOSCircleVerify keys circle pubKey = true

theorem verifySignatureExists_of_verify {pubKey : κ}
    (hverify : SOSCircleVerify keys circle pubKey = true) :
    SOSCircleVerifySignatureExists keys circle pubKey = true := by
  rw [SOSCircleVerifySignatureExists]
  rw [SOSCircleVerify] at hverify
  split at hverify
  case h_1 _ hsignature => rw [hsignature, Option.isSome_some]
  case h_2 => cases hverify

theorem hasActiveValidPeer_spec {circle circle' : SOSCircle} {ids : List CFString}
    (h : circle.Checked ids circle') {peer : SOSPeerInfo} (hnew : peer.peerID ∉ ids)
    (userkey : κ) :
    circle.Checked (peer.peerID :: ids)
        (SOSCircleHasActiveValidPeer der dates keys circle' peer userkey).2 ∧
      ((SOSCircleHasActiveValidPeer der dates keys circle' peer userkey).1 = true ↔
        circle.HasValid der dates keys peer.peerID userkey) := by
  rw [SOSCircleHasActiveValidPeer, SOSCircleHasActiveValidPeerWithID]
  cases hfind : circle'.peers.find? peer.peerID with
  | none =>
    refine ⟨h.mono (List.subset_cons_self _ _), ?_⟩
    rw [h.find? _ hnew] at hfind
    simp [SOSCircle.HasValid, hfind]
  | some found =>
    have hID : found.peerID = peer.peerID := (mem_of_find? hfind).2
    have hfound : circle'.peers.find? found.peerID = some found := by rw [hID, hfind]
    constructor
    · have hkept := h.setPeer hfound
        (@sameKey_applicationVerify der dates _ keys found (some userkey))
      rw [hID] at hkept
      exact hkept
    · rw [h.find? _ hnew] at hfind
      simp [SOSCircle.HasValid, hfind]

theorem checkPeerStatus_spec {circle circle' : SOSCircle} {ids : List CFString}
    (h : circle.Checked ids circle') {peer : SOSPeerInfo} (hnew : peer.peerID ∉ ids)
    (userkey : κ) :
    circle.Checked (peer.peerID :: ids) (CheckPeerStatus der dates keys circle' peer userkey).2 ∧
      ((CheckPeerStatus der dates keys circle' peer userkey).1 = .trusted ↔
        circle.HasSigner der dates keys userkey peer) := by
  rw [CheckPeerStatus, SOSCircle.HasSigner]
  cases hkey : SOSPeerInfoCopyPubKey keys peer with
  | none => exact ⟨h.mono (List.subset_cons_self _ _), by simp⟩
  | some pubKey =>
    obtain ⟨hchecked, hvalid⟩ := @hasActiveValidPeer_spec der dates _ keys _ _ _ h _ hnew
      userkey
    simp only
    cases hstatus : (SOSCircleHasActiveValidPeer der dates keys circle' peer userkey).1 with
    | false =>
      have hnot : ¬ circle.HasValid der dates keys peer.peerID userkey := by
        rw [← hvalid, hstatus]
        exact Bool.false_ne_true
      refine ⟨hchecked, ?_⟩
      simp [hnot]
    | true =>
      have hhas := hvalid.mp hstatus
      simp only [Bool.not_true, Bool.false_eq_true, if_false]
      split
      case isTrue hnone =>
        refine ⟨hchecked, ?_⟩
        have hnot : ¬ SOSCircleVerify keys circle pubKey = true := by
          intro hverify
          rw [← hchecked.verify_eq] at hverify
          rw [verifySignatureExists_of_verify hverify] at hnone
          cases hnone
        simp [hnot]
      case isFalse =>
        split
        case isTrue hbad =>
          rw [hchecked.verify_eq, Bool.not_eq_true'] at hbad
          exact ⟨hchecked, by simp [hbad]⟩
        case isFalse hgood =>
          rw [hchecked.verify_eq, Bool.not_eq_true', Bool.not_eq_false] at hgood
          exact ⟨hchecked, by simp [hgood, hhas]⟩

theorem combineStatus_eq_trusted_iff {status1 status2 : SOSConcordanceStatus} :
    CombineStatus status1 status2 = .trusted ↔ status1 = .trusted ∨ status2 = .trusted := by
  rw [CombineStatus]
  split_ifs with htrusted
  · exact iff_of_true rfl htrusted
  · exact iff_of_false (by decide) htrusted
  · exact iff_of_false (by decide) htrusted
  · exact iff_of_false (fun h => htrusted (Or.inl h)) htrusted

theorem addSignerStatus_spec {circle : SOSCircle} {ids : List CFString}
    {state : SOSConcordanceStatus × SOSCircle} (h : circle.Checked ids state.2)
    {peer : SOSPeerInfo} (hnew : peer.peerID ∉ ids) (userkey : κ) (excluded_id : Option CFString) :
    circle.Checked (peer.peerID :: ids)
        (addSignerStatus der dates keys userkey excluded_id state peer).2 ∧
      ((addSignerStatus der dates keys userkey excluded_id state peer).1 = .trusted ↔
        state.1 = .trusted ∨ circle.HasSigner der dates keys userkey peer) := by
  obtain ⟨hchecked, hstatus⟩ := @checkPeerStatus_spec der dates _ keys _ _ _ h _ hnew userkey
  refine ⟨hchecked, ?_⟩
  rw [addSignerStatus, combineStatus_eq_trusted_iff, ← hstatus]
  split
  case isTrue hexcluded => simp [hexcluded.1]
  case isFalse => rfl

theorem foldl_addSignerStatus (userkey : κ) (excluded_id : Option CFString)
    {peers : List SOSPeerInfo} :
    ∀ {ids : List CFString} {state : SOSConcordanceStatus × SOSCircle},
      circle.Checked ids state.2 → (peers.map SOSPeerInfo.peerID).Nodup →
      (∀ peer ∈ peers, peer.peerID ∉ ids) →
      ((peers.foldl (addSignerStatus der dates keys userkey excluded_id) state).1 = .trusted ↔
        state.1 = .trusted ∨ ∃ peer ∈ peers, circle.HasSigner der dates keys userkey peer) := by
  induction peers with
  | nil => simp
  | cons peer peers ih =>
    intro ids state h hnodup hnew
    rw [List.map_cons, List.nodup_cons] at hnodup
    obtain ⟨hchecked, hstatus⟩ := @addSignerStatus_spec der dates _ keys _ _ _ h _
      (hnew peer List.mem_cons_self) userkey excluded_id
    have hrest : ∀ other ∈ peers, other.peerID ∉ peer.peerID :: ids := by
      intro other hother
      rw [List.mem_cons, not_or]
      constructor
      · intro heq
        exact hnodup.1 (heq ▸ List.mem_map_of_mem hother)
      · exact hnew other (List.mem_cons_of_mem _ hother)
    rw [List.foldl_cons, ih hchecked hnodup.2 hrest, hstatus, or_assoc]
    simp only [List.mem_cons, exists_eq_or_imp]

theorem getSignersStatus_iff (signers_circle status_circle : SOSCircle) (userkey : κ)
    (exclude : Option SOSPeerInfo) :
    (GetSignersStatus der dates keys signers_circle status_circle userkey exclude).1 = .trusted ↔
      ∃ peer ∈ signers_circle.peers.members,
        status_circle.HasSigner der dates keys userkey peer := by
  rw [GetSignersStatus,
    foldl_addSignerStatus userkey _ (.refl status_circle []) signers_circle.peers.distinct (by simp)]
  simp

theorem getOfferingStatus_iff (hoffering : SOSCircleIsOffering circle = true) (userkey : κ) :
    (GetOfferingStatus der dates keys circle userkey).1 = .trusted ↔
      ∃ peer ∈ circle.visiblePeers, circle.HasSigner der dates keys userkey peer := by
  rw [SOSCircleIsOffering, Bool.and_eq_true, SOSCircleCountPeers, decide_eq_true_eq,
    decide_eq_true_eq, List.length_eq_one_iff] at hoffering
  obtain ⟨-, peer, hvisible⟩ := hoffering
  have hstatus := (@checkPeerStatus_spec der dates _ keys _ _ _ (SOSCircle.Checked.refl circle [])
    peer List.not_mem_nil userkey).2
  rw [GetOfferingStatus, hvisible, List.foldl_cons, List.foldl_nil]
  simp only [List.mem_singleton, exists_eq_left]
  rw [← hstatus]
  split
  case isTrue hnot => simp [hnot]
  case isFalse => rfl

/-- The peers that the signature of one of them is asked of. -/
def signersFor (known proposed : SOSCircle) : List SOSPeerInfo :=
  if SOSCircleIsEmpty known ||
      SOSCircleHasDegenerateGeneration proposed && SOSCircleIsOffering proposed then
    proposed.peers.members
  else if SOSCircleIsOffering proposed then proposed.visiblePeers
  else known.peers.members

/-- When a circle is trusted that is not a reset. -/
structure SOSCircle.Concurs (der : Primitives) (dates : DateSystem) (keys : SecKeys κ)
    (known proposed : SOSCircle) (userkey : κ) : Prop where
  userSigned : SOSCircleVerify keys proposed userkey = true
  notOlder : SOSCircleIsEmpty known = false →
    (SOSCircleHasDegenerateGeneration proposed && SOSCircleIsOffering proposed) = false →
    SOSCircleIsOlderGeneration proposed known = false
  peerSigned : ∃ peer ∈ signersFor known proposed,
    proposed.HasSigner der dates keys userkey peer

theorem concurs_iff {known proposed : SOSCircle} {userkey : κ}
    (hverify : SOSCircleVerify keys proposed userkey = true)
    (holder : SOSCircleIsEmpty known = false →
      (SOSCircleHasDegenerateGeneration proposed && SOSCircleIsOffering proposed) = false →
      SOSCircleIsOlderGeneration proposed known = false) :
    known.Concurs der dates keys proposed userkey ↔
      ∃ peer ∈ signersFor known proposed, proposed.HasSigner der dates keys userkey peer :=
  ⟨fun h => h.peerSigned, fun h => ⟨hverify, holder, h⟩⟩

theorem concordanceTrust_iff (known proposed : SOSCircle) (userkey : κ) (me : Option SOSPeerInfo) :
    (SOSCircleConcordanceTrust der dates keys known proposed (some userkey) me).1 = .trusted ↔
      SOSCircleIsDegenerateReset proposed = true ∨ SOSCircleIsValidReset known proposed = true ∨
        known.Concurs der dates keys proposed userkey := by
  rw [SOSCircleConcordanceTrust]
  by_cases hdegenerate : SOSCircleIsDegenerateReset proposed = true
  · simp [hdegenerate]
  by_cases hreset : SOSCircleIsValidReset known proposed = true
  · simp [hreset]
  simp only [hdegenerate, hreset, Bool.false_eq_true, if_false, false_or]
  by_cases hverify : SOSCircleVerify keys proposed userkey = true
  · simp only [hverify, verifySignatureExists_of_verify hverify, Bool.not_true, Bool.false_eq_true,
      if_false]
    split_ifs with hempty hrenewed holder hoffering
    · rw [concurs_iff hverify (by simp [hempty]), signersFor, if_pos (by simp [hempty]),
        getSignersStatus_iff]
    · rw [concurs_iff hverify (by simp [hrenewed]), signersFor, if_pos (by simp [hrenewed]),
        getSignersStatus_iff]
    · have hnot : ¬ known.Concurs der dates keys proposed userkey := by
        intro h
        rw [h.notOlder (Bool.eq_false_of_not_eq_true hempty)
          (Bool.eq_false_of_not_eq_true hrenewed)] at holder
        cases holder
      simp [hnot]
    · rw [concurs_iff hverify fun _ _ => Bool.eq_false_of_not_eq_true holder, signersFor,
        if_neg (by simp [hempty, hrenewed]), if_pos hoffering, getOfferingStatus_iff hoffering]
    · rw [concurs_iff hverify fun _ _ => Bool.eq_false_of_not_eq_true holder, signersFor,
        if_neg (by simp [hempty, hrenewed]), if_neg hoffering, getSignersStatus_iff]
  · have hnot : ¬ known.Concurs der dates keys proposed userkey := fun h => hverify h.userSigned
    split
    case isTrue => simp [hnot]
    case isFalse => simp [hnot, hverify]

def SOSPeerInfo.HasKeyID (keys : SecKeys κ) (peer : SOSPeerInfo) : Prop :=
  ∃ pubKey, SOSPeerInfoCopyPubKey keys peer = some pubKey ∧
    SOSCopyIDOfKey keys pubKey = some peer.peerID

def SecKeys.DistinctIDs (keys : SecKeys κ) : Prop :=
  ∀ ⦃data data' : List UInt8⦄ ⦃key key' : κ⦄, keys.createFromPublicData data = some key →
    keys.createFromPublicData data' = some key' → (SOSCopyIDOfKey keys key).isSome →
    SOSCopyIDOfKey keys key = SOSCopyIDOfKey keys key' → key = key'

theorem copyPubKey_eq (hdistinct : keys.DistinctIDs) {peer peer' : SOSPeerInfo}
    (hpeer : peer.HasKeyID keys) (hpeer' : peer'.HasKeyID keys)
    (hID : peer.peerID = peer'.peerID) :
    SOSPeerInfoCopyPubKey keys peer = SOSPeerInfoCopyPubKey keys peer' := by
  obtain ⟨key, hkey, hkeyID⟩ := hpeer
  obtain ⟨key', hkey', hkeyID'⟩ := hpeer'
  rw [hkey, hkey', Option.some_inj]
  obtain ⟨data, -, hdata⟩ := Option.bind_eq_some_iff.mp hkey
  obtain ⟨data', -, hdata'⟩ := Option.bind_eq_some_iff.mp hkey'
  apply hdistinct hdata hdata'
  · rw [hkeyID, Option.isSome_some]
  · rw [hkeyID, hkeyID', hID]

def SOSCircle.CarriesSignature (keys : SecKeys κ) (circle : SOSCircle) (pubKey : κ) : Prop :=
  ∃ signature, SOSCircleGetSignature keys circle pubKey = some signature ∧
    keys.rawVerify pubKey (SOSCircleHash keys circle) signature = true

theorem verify_iff {pubKey : κ} :
    SOSCircleVerify keys circle pubKey = true ↔ circle.CarriesSignature keys pubKey := by
  rw [SOSCircleVerify, SOSCircle.CarriesSignature]
  cases SOSCircleGetSignature keys circle pubKey <;> simp

/-- An active peer of the circle that is valid under the user key and has signed the circle. -/
structure SOSCircle.Signer (der : Primitives) (dates : DateSystem) (keys : SecKeys κ)
    (circle : SOSCircle) (userkey : κ) (peer : SOSPeerInfo) : Prop where
  active : peer ∈ circle.peers.members
  valid : (SOSPeerInfoApplicationVerify der dates keys peer (some userkey)).1 = true
  signed : ∃ pubKey, SOSPeerInfoCopyPubKey keys peer = some pubKey ∧
    circle.CarriesSignature keys pubKey

/-- An empty circle of generation zero, or of one that is not older. -/
def SOSCircle.Resets (known proposed : SOSCircle) : Prop :=
  SOSCircleIsEmpty proposed = true ∧
    (proposed.generation = 0 ∨ SOSCircleIsOlderGeneration proposed known = false)

theorem exists_signer (hdistinct : keys.DistinctIDs) {userkey : κ}
    (hpeers : ∀ peer ∈ circle.peers.members, peer.HasKeyID keys) {peer : SOSPeerInfo}
    (hpeer : peer.HasKeyID keys) (hsigner : circle.HasSigner der dates keys userkey peer) :
    ∃ signer, circle.Signer der dates keys userkey signer ∧ signer.peerID = peer.peerID := by
  obtain ⟨pubKey, hkey, ⟨found, hfind, hvalid⟩, hverify⟩ := hsigner
  obtain ⟨hmem, hID⟩ := mem_of_find? hfind
  refine ⟨found, ⟨hmem, hvalid, pubKey, ?_, verify_iff.mp hverify⟩, hID⟩
  rw [copyPubKey_eq hdistinct (hpeers found hmem) hpeer hID, hkey]

theorem not_older_of_older {older newer : SOSCircle}
    (holder : SOSCircleIsOlderGeneration older newer = true) :
    SOSCircleIsOlderGeneration newer older = false := by
  rw [SOSCircleIsOlderGeneration, SOSGenerationIsOlder, BitVec.slt_iff_toInt_lt] at holder
  rw [SOSCircleIsOlderGeneration, SOSGenerationIsOlder, ← Bool.not_eq_true,
    BitVec.slt_iff_toInt_lt]
  omega

/-- Only a reset, or a circle that the user and a peer have signed, is trusted. The peer is one of
the circle that is known and this one is not newer, unless it is empty or an offering is proposed. -/
theorem concordanceTrust_sound (hdistinct : keys.DistinctIDs) {known proposed : SOSCircle}
    (hknown : ∀ peer ∈ known.peers.members, peer.HasKeyID keys)
    (hproposed : ∀ peer ∈ proposed.peers.members, peer.HasKeyID keys)
    {user_pubkey : Option κ} {me : Option SOSPeerInfo}
    (htrusted : (SOSCircleConcordanceTrust der dates keys known proposed user_pubkey me).1 =
      .trusted) :
    known.Resets proposed ∨
      ∃ userkey signer, user_pubkey = some userkey ∧ proposed.CarriesSignature keys userkey ∧
        proposed.Signer der dates keys userkey signer ∧
        (SOSCircleIsEmpty known = false →
          (SOSCircleHasDegenerateGeneration proposed && SOSCircleIsOffering proposed) = false →
          SOSCircleIsOlderGeneration proposed known = false ∧
            (SOSCircleIsOffering proposed = false → signer.peerID ∈ known.peers.keys)) := by
  cases user_pubkey with
  | none => cases htrusted
  | some userkey =>
    rw [concordanceTrust_iff] at htrusted
    rcases htrusted with hreset | hreset | hconcurs
    · rw [SOSCircleIsDegenerateReset, Bool.and_eq_true, SOSCircleHasDegenerateGeneration,
        decide_eq_true_eq] at hreset
      exact Or.inl ⟨hreset.2, Or.inl hreset.1⟩
    · rw [SOSCircleIsValidReset, Bool.and_eq_true] at hreset
      exact Or.inl ⟨hreset.1, Or.inr (not_older_of_older hreset.2)⟩
    · right
      obtain ⟨peer, hpeer, hsigner⟩ := hconcurs.peerSigned
      have hkeyID : peer.HasKeyID keys := by
        rw [signersFor] at hpeer
        split_ifs at hpeer
        · exact hproposed peer hpeer
        · exact hproposed peer (List.mem_of_mem_filter hpeer)
        · exact hknown peer hpeer
      obtain ⟨signer, hfound, hID⟩ := exists_signer hdistinct hproposed hkeyID hsigner
      refine ⟨userkey, signer, rfl, verify_iff.mp hconcurs.userSigned, hfound, ?_⟩
      intro hempty hrenewed
      refine ⟨hconcurs.notOlder hempty hrenewed, ?_⟩
      intro hoffering
      rw [signersFor, hempty, hrenewed, hoffering] at hpeer
      rw [hID]
      exact List.mem_map_of_mem hpeer
end

/-- Keys that are their own octets. A signature is the key and what it signs. -/
def plainKeys : SecKeys (List UInt8) where
  createFromPublicData := some
  createPublicFromPrivate := some
  copyPublicBytes := some
  rawSign key hash := some (key ++ hash)
  rawVerify key hash signature := signature = key ++ hash
  sha256 := id
  idOfDataBuffer := List.map UInt8.toUInt16

theorem plainKeys_distinctIDs : plainKeys.DistinctIDs := by
  intro _ _ key key' _ _ _ hID
  have hmap : key.map UInt8.toUInt16 = key'.map UInt8.toUInt16 := Option.some.inj hID
  have hinjective : Function.Injective UInt8.toUInt16 := by
    intro a b hab
    rw [← UInt8.toUInt8_toUInt16 a, hab, UInt8.toUInt8_toUInt16]
  exact hinjective.list_map hmap

def plainUser : List UInt8 := [0]

def plainPeer (key : List UInt8) : SOSPeerInfo where
  description := [(.string sPublicKeyKey, .data key)]
  signature := []
  peerID := key.map UInt8.toUInt16
  version := 0
  verifiedAppKeyID := some (plainUser.map UInt8.toUInt16)
  verifiedResult := true
  v2Dictionary := none

def plainOffering (generation : SOSGenCount) (key : List UInt8) : SOSCircle where
  name := []
  generation := generation
  peers := ⟨[plainPeer key], List.nodup_singleton _⟩
  applicants := .empty _
  rejected_applicants := .empty _
  signatures := []

def signedOffering (generation : SOSGenCount) (key : List UInt8) : SOSCircle :=
  let hash := SOSCircleHash plainKeys (plainOffering generation key)
  { plainOffering generation key with
    signatures :=
      [(.string (plainUser.map UInt8.toUInt16), .data (plainUser ++ hash)),
        (.string (key.map UInt8.toUInt16), .data (key ++ hash))] }

theorem hasKeyID_signedOffering (generation : SOSGenCount) (key : List UInt8) :
    ∀ peer ∈ (signedOffering generation key).peers.members, peer.HasKeyID plainKeys := by
  intro peer hpeer
  rw [List.mem_singleton.mp hpeer]
  exact ⟨key, rfl, rfl⟩

/-- The peer of an offering need not be one of the circle that is known. -/
theorem signedOffering_trusted {key : List UInt8} (hkey : key = [1] ∨ key = [2]) :
    (SOSCircleConcordanceTrust Standard.primitives firstMonth plainKeys (signedOffering 1 [1])
      (signedOffering 2 key) (some plainUser) none).1 = .trusted := by
  rw [concordanceTrust_iff]
  refine Or.inr (Or.inr ⟨verify_iff.mpr ⟨_, rfl, decide_eq_true rfl⟩, fun _ _ => rfl, ?_⟩)
  refine ⟨plainPeer key, ?_, key, rfl, ⟨plainPeer key, ?_, rfl⟩, ?_⟩
  · rcases hkey with rfl | rfl <;> exact List.mem_singleton_self _
  · exact find?_key (List.mem_singleton_self _)
  · rw [verify_iff]
    rcases hkey with rfl | rfl <;> exact ⟨_, rfl, decide_eq_true rfl⟩

theorem concordanceTrust_sound_sample :
    (signedOffering 1 [1]).Resets (signedOffering 2 [1]) ∨
      ∃ userkey signer, some plainUser = some userkey ∧
        (signedOffering 2 [1]).CarriesSignature plainKeys userkey ∧
        (signedOffering 2 [1]).Signer Standard.primitives firstMonth plainKeys userkey signer ∧
        (SOSCircleIsEmpty (signedOffering 1 [1]) = false →
          (SOSCircleHasDegenerateGeneration (signedOffering 2 [1]) &&
            SOSCircleIsOffering (signedOffering 2 [1])) = false →
          SOSCircleIsOlderGeneration (signedOffering 2 [1]) (signedOffering 1 [1]) = false ∧
            (SOSCircleIsOffering (signedOffering 2 [1]) = false →
              signer.peerID ∈ (signedOffering 1 [1]).peers.keys)) :=
  concordanceTrust_sound plainKeys_distinctIDs (hasKeyID_signedOffering 1 [1])
    (hasKeyID_signedOffering 2 [1]) (signedOffering_trusted (Or.inl rfl))

theorem signedOffering_from_outside :
    (SOSCircleConcordanceTrust Standard.primitives firstMonth plainKeys (signedOffering 1 [1])
        (signedOffering 2 [2]) (some plainUser) none).1 = .trusted ∧
      SOSCircleIsEmpty (signedOffering 1 [1]) = false ∧
      SOSCircleIsEmpty (signedOffering 2 [2]) = false ∧
      SOSCircleHasDegenerateGeneration (signedOffering 2 [2]) = false ∧
      ∀ id ∈ (signedOffering 2 [2]).peers.keys, id ∉ (signedOffering 1 [1]).peers.keys :=
  ⟨signedOffering_trusted (Or.inr rfl), rfl, rfl, rfl, by decide⟩
end SecurityFramework
