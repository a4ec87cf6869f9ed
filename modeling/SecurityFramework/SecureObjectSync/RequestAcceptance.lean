import SecurityFramework.SecureObjectSync.ConcordanceCompleteness

/-! # Accepted applicants -/

namespace SecurityFramework
open DER KeyedSet

section
variable {der : Primitives} {dates : DateSystem} {κ : Type} {keys : SecKeys κ}

theorem verifiedAppKeyID_verify (pi : SOSPeerInfo) :
    (SOSPeerInfoVerify der dates keys pi).2.verifiedAppKeyID = pi.verifiedAppKeyID := by
  rw [SOSPeerInfoVerify]
  split
  case h_1 => rfl
  case h_2 =>
    simp only [SOSDescriptionHash, SOSPeerInfoPackV2Data]
    split
    · split <;> rfl
    · rfl

variable {pi : SOSPeerInfo} {circle circle' : SOSCircle} {fpi : SOSFullPeerInfo κ}
  {now : ClockReading}

/-- An application that was found to be valid is found to be valid again. -/
theorem applicationVerify_again {userkey : Option κ}
    (hvalid : (SOSPeerInfoApplicationVerify der dates keys pi userkey).1 = true) :
    SOSPeerInfoApplicationVerify der dates keys
        (SOSPeerInfoApplicationVerify der dates keys pi userkey).2 userkey =
      (true, (SOSPeerInfoApplicationVerify der dates keys pi userkey).2) := by
  cases userkey with
  | none => cases hvalid
  | some userkey =>
    generalize hresult : SOSPeerInfoApplicationVerify der dates keys pi (some userkey) = result
      at hvalid
    have hremembered : SOSCopyIDOfKey keys userkey = result.2.verifiedAppKeyID ∧
        result.2.verifiedResult = true := by
      rw [SOSPeerInfoApplicationVerify] at hresult
      split at hresult
      case isTrue hknown =>
        cases hresult
        exact ⟨hknown, hvalid⟩
      case isFalse =>
        split at hresult
        case isTrue =>
          cases hresult
          rw [verifiedAppKeyID_verify, verifiedResult_verify]
          exact ⟨rfl, rfl⟩
        case isFalse =>
          cases hresult
          cases hvalid
    rw [SOSPeerInfoApplicationVerify, if_pos hremembered.1, hremembered.2]

theorem value_copyAsApplication {original : SOSPeerInfo} {userkey peerkey : κ}
    {creationDate : List UInt8}
    (hcopy : SOSPeerInfoCopyAsApplication der dates keys original userkey peerkey creationDate =
      some pi) {key : CFString} (hv2 : sV2DictionaryKey ≠ key) (hdate : sApplicationDate ≠ key)
    (husig : sApplicationUsig ≠ key) : pi.value key = original.value key := by
  simp only [SOSPeerInfoCopyAsApplication, SOSPeerInfoSign, SOSDescriptionHash,
    Option.bind_eq_bind, Option.bind_eq_some_iff, Option.some.injEq] at hcopy
  obtain ⟨hbuf, -, usersig, -, digest, -, newSignature, -, rfl⟩ := hcopy
  refine (@value_packV2Data der dates _ key hv2).trans ?_
  refine (cfDictionaryGetValue_setValue_of_ne _ _ husig).trans ?_
  refine (cfDictionaryGetValue_setValue_of_ne _ _ hdate).trans ?_
  exact (@sameContent_createCopy der dates original).value_eq hv2

/-- A peer info that signs its application again is as hidden as before. -/
theorem isHiddenPeer_copyAsApplication {original : SOSPeerInfo} {userkey peerkey : κ}
    {creationDate : List UInt8}
    (hcopy : SOSPeerInfoCopyAsApplication der dates keys original userkey peerkey creationDate =
      some pi) : isHiddenPeer pi = isHiddenPeer original := by
  rw [isHiddenPeer, isHiddenPeer, SOSPeerInfoIsRetirementTicket, SOSPeerInfoIsRetirementTicket,
    SOSPeerInfoIsCloudIdentity, SOSPeerInfoIsCloudIdentity,
    value_copyAsApplication hcopy (by decide) (by decide) (by decide),
    value_copyAsApplication hcopy (by decide) (by decide) (by decide)]

variable (der dates keys) in
/-- What the signer makes of its own peer info. -/
def upgradedPeerInfo (user_approver : κ) (peerinfo : SOSFullPeerInfo κ) (now : ClockReading)
    (pi : SOSPeerInfo) : SOSPeerInfo :=
  let userPubKey := keys.createPublicFromPrivate user_approver
  let (valid, pi) := SOSPeerInfoApplicationVerify der dates keys pi userPubKey
  if valid then pi
  else
    match peerinfo.deviceKey.bind fun device_key =>
        SOSPeerInfoCopyAsApplication der dates keys pi user_approver device_key now.date with
    | some new_pi => if SOSPeerInfoCompare pi new_pi then pi else new_pi
    | none => pi

variable (der dates keys) in
def signedEntry (user_approver : κ) (fpi : SOSFullPeerInfo κ) (now : ClockReading)
    (pi : SOSPeerInfo) : SOSPeerInfo :=
  if pi.peerID = fpi.peerInfo.peerID then upgradedPeerInfo der dates keys user_approver fpi now pi
  else pi

theorem isHiddenPeer_applicationVerify (pi : SOSPeerInfo) (userkey : Option κ) :
    isHiddenPeer (SOSPeerInfoApplicationVerify der dates keys pi userkey).2 = isHiddenPeer pi :=
  (sameContent_applicationVerify pi userkey).isHiddenPeer_eq

theorem isHiddenPeer_signedEntry (user_approver : κ) (fpi : SOSFullPeerInfo κ)
    (now : ClockReading) (pi : SOSPeerInfo) :
    isHiddenPeer (signedEntry der dates keys user_approver fpi now pi) = isHiddenPeer pi := by
  rw [signedEntry]
  split
  case isFalse => rfl
  case isTrue =>
    simp only [upgradedPeerInfo]
    split
    case isTrue => exact isHiddenPeer_applicationVerify _ _
    case isFalse =>
      split
      case h_2 => exact isHiddenPeer_applicationVerify _ _
      case h_1 new_pi hcopy =>
        obtain ⟨device_key, -, hcopy⟩ := Option.bind_eq_some_iff.mp hcopy
        split
        · exact isHiddenPeer_applicationVerify _ _
        · exact (isHiddenPeer_copyAsApplication hcopy).trans (isHiddenPeer_applicationVerify _ _)

/-- The applicant that was just found to be valid is not upgraded. -/
theorem signedEntry_applicationVerify {user_approver : κ}
    (hvalid : (SOSPeerInfoApplicationVerify der dates keys pi
      (keys.createPublicFromPrivate user_approver)).1 = true) (fpi : SOSFullPeerInfo κ)
    (now : ClockReading) :
    signedEntry der dates keys user_approver fpi now (SOSPeerInfoApplicationVerify der dates keys pi
        (keys.createPublicFromPrivate user_approver)).2 =
      (SOSPeerInfoApplicationVerify der dates keys pi
        (keys.createPublicFromPrivate user_approver)).2 := by
  rw [signedEntry]
  split
  case isFalse => rfl
  case isTrue => simp only [upgradedPeerInfo, applicationVerify_again hvalid, if_true]

theorem peers_rejectNonValidApplicant (pubkey : Option κ) (circle : SOSCircle) (pi : SOSPeerInfo) :
    (rejectNonValidApplicant der dates keys pubkey circle pi).peers = circle.peers := by
  simp only [rejectNonValidApplicant]
  split <;> rfl

theorem applicants_rejectNonValidApplicant (pubkey : Option κ) (circle : SOSCircle)
    (pi : SOSPeerInfo) :
    (rejectNonValidApplicant der dates keys pubkey circle pi).applicants.keys ⊆
      circle.applicants.keys := by
  simp only [rejectNonValidApplicant]
  split
  · rw [keys_replace]
    exact List.Subset.refl _
  · intro id hid
    have hkept := (mem_keys_remove.mp hid).1
    rwa [keys_replace] at hkept

theorem foldl_rejectNonValidApplicant (pubkey : Option κ) (applicants : List SOSPeerInfo)
    (circle : SOSCircle) :
    (applicants.foldl (rejectNonValidApplicant der dates keys pubkey) circle).peers =
        circle.peers ∧
      (applicants.foldl (rejectNonValidApplicant der dates keys pubkey) circle).applicants.keys ⊆
        circle.applicants.keys := by
  induction applicants generalizing circle with
  | nil => exact ⟨rfl, List.Subset.refl _⟩
  | cons pi applicants ih =>
    obtain ⟨hpeers, happlicants⟩ :=
      ih (rejectNonValidApplicant der dates keys pubkey circle pi)
    exact ⟨hpeers.trans (peers_rejectNonValidApplicant pubkey circle pi),
      List.Subset.trans happlicants (applicants_rejectNonValidApplicant pubkey circle pi)⟩

theorem find?_preGenerationSign (circle : SOSCircle) (pubkey : Option κ) (id : CFString) :
    (SOSCirclePreGenerationSign der dates keys circle pubkey).peers.find? id =
      (circle.peers.find? id).filter fun peer => !SOSPeerInfoIsRetirementTicket peer := by
  rw [← find?_filter]
  exact congrArg (KeyedSet.find? · id) (foldl_rejectNonValidApplicant pubkey _ _).1

theorem applicants_preGenerationSign (circle : SOSCircle) (pubkey : Option κ) :
    (SOSCirclePreGenerationSign der dates keys circle pubkey).applicants.keys ⊆
      circle.applicants.keys :=
  (foldl_rejectNonValidApplicant pubkey _ _).2

theorem peers_sign {privKey : κ} (hdone : SOSCircleSign keys circle privKey = .ok circle') :
    circle'.peers = circle.peers := by
  rw [SOSCircleSign] at hdone
  split at hdone
  case h_2 => cases hdone
  case h_1 =>
    rw [SOSCircleSetSignature] at hdone
    split at hdone
    case h_2 => cases hdone
    case h_1 =>
      cases hdone
      rfl

structure SOSCircle.Upgrades (circle : SOSCircle) (id : CFString) (pi : SOSPeerInfo)
    (circle' : SOSCircle) : Prop where
  found : circle'.peers.find? id = some pi
  others : ∀ other ≠ id, circle'.peers.find? other = circle.peers.find? other

theorem upgrades_setPeer {id : CFString} (hID : pi.peerID = id) (hmem : id ∈ circle.peers.keys) :
    circle.Upgrades id pi (circle.setPeer pi) := by
  subst hID
  exact ⟨find?_replace hmem, fun _ hne => find?_replace_of_ne hne⟩

theorem upgrades_updatePeerInfo {id : CFString} {new_pi : SOSPeerInfo}
    (hfind : circle.peers.find? id = some pi) (hID : new_pi.peerID = id)
    (hdone : SOSCircleUpdatePeerInfo circle new_pi = .ok circle') :
    circle.Upgrades id (if SOSPeerInfoCompare pi new_pi then pi else new_pi) circle' := by
  have hset : sosCircleUpdatePeerInfoSet circle.peers new_pi =
      if SOSPeerInfoCompare pi new_pi then none else some (circle.peers.replace new_pi) := by
    rw [sosCircleUpdatePeerInfoSet, hID, hfind]
    rfl
  rw [SOSCircleUpdatePeerInfo, hset] at hdone
  by_cases hcompare : SOSPeerInfoCompare pi new_pi = true
  case pos =>
    rw [if_pos hcompare] at hdone ⊢
    have hpeers : circle'.peers = circle.peers := by
      simp only at hdone
      split at hdone
      · cases hdone
        rfl
      · split at hdone
        · cases hdone
          rfl
        · cases hdone
    exact ⟨by rw [hpeers, hfind], fun id _ => by rw [hpeers]⟩
  case neg =>
    rw [if_neg hcompare] at hdone ⊢
    cases hdone
    obtain ⟨hmem, hpi⟩ := mem_of_find? hfind
    exact upgrades_setPeer hID (List.mem_map.mpr ⟨pi, hmem, hpi⟩)

theorem upgrades_upgradePeerInfo {user_approver : κ}
    (hdone : SOSCircleUpgradePeerInfo der dates keys circle user_approver fpi now = .ok circle') :
    ∃ pi, circle.peers.find? fpi.peerInfo.peerID = some pi ∧
      circle.Upgrades fpi.peerInfo.peerID (upgradedPeerInfo der dates keys user_approver fpi now pi)
        circle' := by
  rw [SOSCircleUpgradePeerInfo, SOSCircleCopyPeerInfo] at hdone
  split at hdone
  case h_1 => cases hdone
  case h_2 pi hfind =>
    refine ⟨pi, hfind, ?_⟩
    obtain ⟨hmem, hpi⟩ := mem_of_find? hfind
    have hID := (@peerID_applicationVerify der dates _ keys pi
      (keys.createPublicFromPrivate user_approver)).trans hpi
    simp only [upgradedPeerInfo] at hdone ⊢
    generalize SOSPeerInfoApplicationVerify der dates keys pi
      (keys.createPublicFromPrivate user_approver) = result at hdone hID ⊢
    have hset := upgrades_setPeer hID (List.mem_map.mpr ⟨pi, hmem, hpi⟩)
    split at hdone
    case isTrue hvalid =>
      cases hdone
      rw [if_pos hvalid]
      exact hset
    case isFalse hvalid =>
      rw [if_neg hvalid]
      rw [resignPeerInfo] at hdone
      split at hdone
      case h_1 => cases hdone
      case h_2 device_key hdevice =>
        split at hdone
        case h_1 => cases hdone
        case h_2 new_pi hcopy =>
          have hbind : (fpi.deviceKey.bind fun device_key => SOSPeerInfoCopyAsApplication der dates
              keys result.2 user_approver device_key now.date) = some new_pi := by
            rw [hdevice]
            exact hcopy
          rw [hbind]
          have hnew := (peerID_copyAsApplication hcopy).trans hID
          have hupdate := upgrades_updatePeerInfo hset.found hnew hdone
          exact ⟨hupdate.found, fun id hne => (hupdate.others id hne).trans (hset.others id hne)⟩

theorem find?_generationSignInternal {userKey : κ} (hcount : SOSCircleCountPeers circle ≠ 0)
    (hdone : SOSCircleGenerationSign_Internal der dates keys circle userKey fpi now = .ok circle')
    (id : CFString) :
    circle'.peers.find? id =
      (circle.peers.find? id).map (signedEntry der dates keys userKey fpi now) := by
  rw [SOSCircleGenerationSign_Internal, if_neg hcount] at hdone
  split at hdone
  case h_1 => cases hdone
  case h_2 =>
    obtain ⟨upgraded, hupgrade, hdone⟩ := circle_bind_eq_ok hdone
    obtain ⟨signed, husersign, hoursign⟩ := circle_bind_eq_ok hdone
    rw [peers_sign hoursign, peers_sign husersign]
    obtain ⟨pi, hfind, hupgrades⟩ := upgrades_upgradePeerInfo hupgrade
    have hpi := (mem_of_find? hfind).2
    by_cases hid : id = fpi.peerInfo.peerID
    case pos =>
      rw [hid, hupgrades.found, hfind, Option.map_some, signedEntry, if_pos hpi]
    case neg =>
      rw [hupgrades.others id hid]
      cases hother : circle.peers.find? id with
      | none => rfl
      | some other =>
        have hne : ¬other.peerID = fpi.peerInfo.peerID := by
          rw [(mem_of_find? hother).2]
          exact hid
        rw [Option.map_some, signedEntry, if_neg hne]

structure SOSCircle.HasAccepted (circle : SOSCircle) (peerInfo : SOSPeerInfo) : Prop where
  peer : circle.peers.find? peerInfo.peerID = some peerInfo
  hasPeer : SOSCircleHasPeer circle peerInfo = true
  notApplicant : SOSCircleHasApplicant circle peerInfo = false

theorem applicants_generationSign {userKey : κ}
    (hdone : SOSCircleGenerationSign der dates keys circle userKey fpi now = .ok circle') :
    circle'.applicants.keys ⊆ circle.applicants.keys := by
  rw [SOSCircleGenerationSign] at hdone
  have hsigned := (sameIDs_generationSignInternal der dates keys (SOSCircleGenerationIncrement
    (SOSCirclePreGenerationSign der dates keys circle (keys.createPublicFromPrivate userKey)) now)
    userKey fpi now).applicants
  rw [hdone] at hsigned
  rw [circleAfter] at hsigned
  rw [hsigned]
  exact applicants_preGenerationSign circle _

theorem isHiddenPeer_of_countPeers (hcount : SOSCircleCountPeers circle = 0) {peer : SOSPeerInfo}
    (hpeer : peer ∈ circle.peers.members) : isHiddenPeer peer = true := by
  have hnone := List.filter_eq_nil_iff.mp (List.length_eq_zero_iff.mp hcount) peer hpeer
  simpa using hnone

theorem find?_generationSign {userKey : κ}
    (hdone : SOSCircleGenerationSign der dates keys circle userKey fpi now = .ok circle')
    {id : CFString} {entry : SOSPeerInfo} (hentry : circle.peers.find? id = some entry) :
    if isHiddenPeer entry then ∀ peer, circle'.peers.find? id = some peer → isHiddenPeer peer = true
    else circle'.peers.find? id = some (signedEntry der dates keys userKey fpi now entry) := by
  rw [SOSCircleGenerationSign] at hdone
  have hpruned := @find?_preGenerationSign der dates _ keys circle
    (keys.createPublicFromPrivate userKey) id
  rw [hentry] at hpruned
  obtain ⟨next, hfind, hdone⟩ : ∃ next : SOSCircle,
      next.peers.find? id = (some entry).filter (fun peer => !SOSPeerInfoIsRetirementTicket peer) ∧
      SOSCircleGenerationSign_Internal der dates keys next userKey fpi now = .ok circle' :=
    ⟨SOSCircleGenerationIncrement (SOSCirclePreGenerationSign der dates keys circle
      (keys.createPublicFromPrivate userKey)) now, hpruned, hdone⟩
  by_cases hcount : SOSCircleCountPeers next = 0
  case pos =>
    -- no peer is visible, and nothing is signed
    have hsame : next = circle' := by
      rw [SOSCircleGenerationSign_Internal, if_pos hcount] at hdone
      cases hdone
      rfl
    rw [← hsame]
    have hhidden : ∀ peer, next.peers.find? id = some peer → isHiddenPeer peer = true :=
      fun peer hpeer => isHiddenPeer_of_countPeers hcount (mem_of_find? hpeer).1
    split
    case isTrue => exact hhidden
    case isFalse hvisible =>
      have hticket : SOSPeerInfoIsRetirementTicket entry = false := by
        simp [isHiddenPeer] at hvisible
        exact hvisible.1
      have hfound : next.peers.find? id = some entry := by
        rw [hfind]
        simp [hticket]
      exact absurd (hhidden entry hfound) hvisible
  case neg =>
    rw [find?_generationSignInternal hcount hdone, hfind]
    split
    case isTrue hhidden =>
      intro peer hpeer
      obtain ⟨kept, hkept, rfl⟩ := Option.map_eq_some_iff.mp hpeer
      cases (Option.filter_eq_some_iff.mp hkept).1
      rwa [isHiddenPeer_signedEntry]
    case isFalse hvisible =>
      have hticket : SOSPeerInfoIsRetirementTicket entry = false := by
        simp [isHiddenPeer] at hvisible
        exact hvisible.1
      simp [hticket]

theorem hasPeer_of_find? {peerInfo found : SOSPeerInfo}
    (hfind : circle.peers.find? peerInfo.peerID = some found) :
    SOSCircleHasPeer circle peerInfo = !isHiddenPeer found := by
  rw [SOSCircleHasPeer, SOSCircleHasPeerWithID, hfind]

/-- An applicant that is verified and put into the peers, and what was in its place. -/
theorem hasAccepted_iff {user_privkey : κ} {device_approver : SOSFullPeerInfo κ}
    {verified entry : SOSPeerInfo} (hentry : circle.peers.find? verified.peerID = some entry)
    (happlicant : verified.peerID ∉ circle.applicants.keys)
    (hdone : SOSCircleGenerationSign der dates keys circle user_privkey device_approver now =
      .ok circle') :
    circle'.HasAccepted verified ↔ isHiddenPeer entry = false ∧
      signedEntry der dates keys user_privkey device_approver now entry = verified := by
  have hfound := find?_generationSign hdone hentry
  constructor
  · rintro ⟨hpeer, hvisible, -⟩
    rw [hasPeer_of_find? hpeer, Bool.not_eq_true'] at hvisible
    split at hfound
    case isTrue =>
      rw [hfound verified hpeer] at hvisible
      cases hvisible
    case isFalse hshown =>
      rw [hpeer] at hfound
      cases hfound
      exact ⟨by simpa using hshown, rfl⟩
  · rintro ⟨hvisible, hsigned⟩
    rw [hvisible, hsigned] at hfound
    have hpeer : circle'.peers.find? verified.peerID = some verified := hfound
    refine ⟨hpeer, ?_, ?_⟩
    · rw [hasPeer_of_find? hpeer, ← hsigned, isHiddenPeer_signedEntry, hvisible]
      rfl
    · rw [SOSCircleHasApplicant, ← Bool.not_eq_true, contains_iff]
      exact fun hmem => happlicant (applicants_generationSign hdone hmem)

/-- A request that is accepted makes the applicant a peer, as it was verified, just where neither
it nor a peer that had its ID is hidden and such a peer comes to be the same. -/
theorem acceptRequest_iff {circle circle' : SOSCircle} {user_privkey : κ}
    {device_approver : SOSFullPeerInfo κ} {peerInfo : SOSPeerInfo} {now : ClockReading}
    (haccept : SOSCircleAcceptRequest der dates keys circle user_privkey device_approver peerInfo
      now = .ok circle') :
    circle'.HasAccepted (SOSPeerInfoApplicationVerify der dates keys peerInfo
        (keys.createPublicFromPrivate user_privkey)).2 ↔
      isHiddenPeer peerInfo = false ∧
        ∀ peer, circle.peers.find? peerInfo.peerID = some peer → isHiddenPeer peer = false ∧
          signedEntry der dates keys user_privkey device_approver now peer =
            (SOSPeerInfoApplicationVerify der dates keys peerInfo
              (keys.createPublicFromPrivate user_privkey)).2 := by
  simp only [SOSCircleAcceptRequest] at haccept
  split at haccept
  case isFalse => cases haccept
  case isTrue =>
    split at haccept
    case isFalse => cases haccept
    case isTrue hvalid =>
      have hID := @peerID_applicationVerify der dates _ keys peerInfo
        (keys.createPublicFromPrivate user_privkey)
      have hhidden := @isHiddenPeer_applicationVerify der dates _ keys peerInfo
        (keys.createPublicFromPrivate user_privkey)
      have hsame := signedEntry_applicationVerify hvalid device_approver now
      generalize (SOSPeerInfoApplicationVerify der dates keys peerInfo
        (keys.createPublicFromPrivate user_privkey)).2 = verified at haccept hID hhidden hsame ⊢
      have hout : verified.peerID ∉ (circle.applicants.remove verified.peerID).keys :=
        fun hmem => (mem_keys_remove.mp hmem).2 rfl
      rw [hasAccepted_iff find?_add hout haccept, ← hhidden, ← hID]
      cases circle.peers.find? verified.peerID with
      | none => simp [hsame]
      | some peer =>
        simp only [Option.getD_some, Option.some.injEq, forall_eq']
        constructor
        · rintro ⟨hvisible, hsigned⟩
          refine ⟨?_, hvisible, hsigned⟩
          rw [← hsigned, isHiddenPeer_signedEntry, hvisible]
        · exact And.right
end

def retirementTicket : SOSPeerInfo :=
  applicantWith [(.string sRetirementDate, .data [])]

def ticketCircle : SOSCircle where
  name := []
  generation := 1
  peers := ⟨[retirementTicket], List.nodup_singleton _⟩
  applicants := ⟨[applicantWith []], List.nodup_singleton _⟩
  rejected_applicants := .empty _
  signatures := []

theorem acceptRequest_iff_sample :
    ∃ circle', SOSCircleAcceptRequest Standard.primitives firstMonth oneKey
        { ticketCircle with peers := .empty _ } () ⟨applicantWith [], some ()⟩ (applicantWith [])
        epoch = .ok circle' ∧ circle'.HasAccepted (applicantWith []) := by
  have haccept : SOSCircleAcceptRequest Standard.primitives firstMonth oneKey
      { ticketCircle with peers := .empty _ } () ⟨applicantWith [], some ()⟩ (applicantWith [])
      epoch = .ok _ := rfl
  exact ⟨_, haccept, (acceptRequest_iff haccept).mpr ⟨by decide, fun peer hpeer => nomatch hpeer⟩⟩

/-- The request is made while the ticket is in the circle, and is accepted, and no peer is left. -/
theorem accepted_behind_ticket :
    (∃ circle : SOSCircle, circle.peers.members = [retirementTicket] ∧
      SOSCircleRequestReadmission Standard.primitives firstMonth oneKey circle (some ())
        (applicantWith []) = .ok ticketCircle) ∧
    ∃ circle', SOSCircleAcceptRequest Standard.primitives firstMonth oneKey ticketCircle ()
        ⟨applicantWith [], some ()⟩ (applicantWith []) epoch = .ok circle' ∧
      circle'.peers.members = [] ∧ ¬circle'.HasAccepted (applicantWith []) := by
  refine ⟨⟨{ ticketCircle with applicants := .empty _ }, rfl, rfl⟩, _, rfl, rfl, ?_⟩
  intro haccepted
  exact nomatch haccepted.peer
end SecurityFramework
