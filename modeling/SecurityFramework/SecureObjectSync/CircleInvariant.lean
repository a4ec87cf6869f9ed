import SecurityFramework.Library.Run
import SecurityFramework.SecureObjectSync.Circle

/-! # The sets of a circle stay apart -/

namespace SecurityFramework
open DER KeyedSet

/-- No ID is in more than one of the three sets. -/
structure SOSCircle.Separated (circle : SOSCircle) : Prop where
  peers_applicants : ∀ id ∈ circle.peers.keys, id ∉ circle.applicants.keys
  peers_rejected : ∀ id ∈ circle.peers.keys, id ∉ circle.rejected_applicants.keys
  applicants_rejected : ∀ id ∈ circle.applicants.keys, id ∉ circle.rejected_applicants.keys

structure SOSCircle.SameIDs (circle circle' : SOSCircle) : Prop where
  peers : circle'.peers.keys = circle.peers.keys
  applicants : circle'.applicants.keys = circle.applicants.keys
  rejected : circle'.rejected_applicants.keys = circle.rejected_applicants.keys

namespace SOSCircle
theorem SameIDs.refl (circle : SOSCircle) : circle.SameIDs circle := ⟨rfl, rfl, rfl⟩

theorem SameIDs.trans {first second third : SOSCircle} (h : first.SameIDs second)
    (h' : second.SameIDs third) : first.SameIDs third :=
  ⟨h'.peers.trans h.peers, h'.applicants.trans h.applicants, h'.rejected.trans h.rejected⟩

theorem SameIDs.separated {circle circle' : SOSCircle} (h : circle.SameIDs circle')
    (hcircle : circle.Separated) : circle'.Separated := by
  constructor
  · rw [h.peers, h.applicants]
    exact hcircle.peers_applicants
  · rw [h.peers, h.rejected]
    exact hcircle.peers_rejected
  · rw [h.applicants, h.rejected]
    exact hcircle.applicants_rejected
end SOSCircle

theorem circle_bind {P : SOSCircle → Prop} {x : CircleOutcome} {f : SOSCircle → CircleOutcome}
    (hx : P (circleAfter x)) (hf : ∀ circle, P circle → P (circleAfter (f circle))) :
    P (circleAfter (x >>= f)) := by
  cases x with
  | ok circle => exact hf circle hx
  | error circle => exact hx

section
variable {der : Primitives} {dates : DateSystem} {κ : Type} {keys : SecKeys κ}

@[simp] theorem peerID_packV2Data (pi : SOSPeerInfo) :
    (SOSPeerInfoPackV2Data der dates pi).peerID = pi.peerID := by
  rw [SOSPeerInfoPackV2Data]
  split
  · split <;> rfl
  · rfl

@[simp] theorem peerID_verify (pi : SOSPeerInfo) :
    (SOSPeerInfoVerify der dates keys pi).2.peerID = pi.peerID := by
  rw [SOSPeerInfoVerify]
  split
  · rfl
  · exact peerID_packV2Data pi

@[simp] theorem peerID_applicationVerify (pi : SOSPeerInfo) (userkey : Option κ) :
    (SOSPeerInfoApplicationVerify der dates keys pi userkey).2.peerID = pi.peerID := by
  cases userkey with
  | none => rfl
  | some userkey =>
    simp only [SOSPeerInfoApplicationVerify]
    split
    · rfl
    · split
      · rw [peerID_verify]
      · rfl

@[simp] theorem peerID_setValue (pi : SOSPeerInfo) (key : CFString) (value : Plist) :
    (pi.setValue key value).peerID = pi.peerID := rfl

theorem peerID_sign {privKey : κ} {peer signed : SOSPeerInfo}
    (hsign : SOSPeerInfoSign der dates keys privKey peer = some signed) :
    signed.peerID = peer.peerID := by
  simp only [SOSPeerInfoSign, SOSDescriptionHash, Option.bind_eq_bind, Option.bind_eq_some_iff,
    Option.some.injEq] at hsign
  obtain ⟨hbuf, -, newSignature, -, rfl⟩ := hsign
  exact peerID_packV2Data peer

theorem peerID_copyAsApplication {original pi : SOSPeerInfo} {userkey peerkey : κ}
    {creationDate : List UInt8}
    (hcopy : SOSPeerInfoCopyAsApplication der dates keys original userkey peerkey creationDate =
      some pi) : pi.peerID = original.peerID := by
  simp only [SOSPeerInfoCopyAsApplication, Option.bind_eq_bind, Option.bind_eq_some_iff] at hcopy
  obtain ⟨hbuf, -, usersig, -, hsign⟩ := hcopy
  rw [peerID_sign hsign]
  exact peerID_packV2Data original

variable {now : ClockReading} {circle circle' : SOSCircle}

theorem peerID_promoteToApplication {fpi promoted : SOSFullPeerInfo κ} {user_key : κ}
    (hpromote : SOSFullPeerInfoPromoteToApplication der dates keys fpi user_key now =
      some promoted) : promoted.peerInfo.peerID = fpi.peerInfo.peerID := by
  simp only [SOSFullPeerInfoPromoteToApplication, Option.bind_eq_bind, Option.bind_eq_some_iff,
    Option.some.injEq] at hpromote
  obtain ⟨device_key, -, peerInfo, hcopy, rfl⟩ := hpromote
  exact peerID_copyAsApplication hcopy

theorem sameIDs_setSignature (circle : SOSCircle) (pubkey : κ) (signature : List UInt8) :
    circle.SameIDs (circleAfter (SOSCircleSetSignature keys circle pubkey signature)) := by
  rw [SOSCircleSetSignature]
  split <;> exact ⟨rfl, rfl, rfl⟩

theorem sameIDs_sign (circle : SOSCircle) (privKey : κ) :
    circle.SameIDs (circleAfter (SOSCircleSign keys circle privKey)) := by
  rw [SOSCircleSign]
  split
  · exact sameIDs_setSignature _ _ _
  · exact .refl circle

theorem keys_updatePeerInfoSet {theSet updated : SOSPeerInfoSet} {replacement : SOSPeerInfo}
    (hupdate : sosCircleUpdatePeerInfoSet theSet replacement = some updated) :
    updated.keys = theSet.keys := by
  simp only [sosCircleUpdatePeerInfoSet, Option.bind_eq_bind, Option.bind_eq_some_iff] at hupdate
  obtain ⟨old, -, hupdate⟩ := hupdate
  split at hupdate
  case isTrue => cases hupdate
  case isFalse =>
    cases hupdate
    exact keys_replace _ _

theorem sameIDs_updatePeerInfo (circle : SOSCircle) (replacement : SOSPeerInfo) :
    circle.SameIDs (circleAfter (SOSCircleUpdatePeerInfo circle replacement)) := by
  rw [SOSCircleUpdatePeerInfo]
  split
  case h_1 hupdate => exact ⟨keys_updatePeerInfoSet hupdate, rfl, rfl⟩
  case h_2 =>
    split
    case h_1 hupdate => exact ⟨rfl, keys_updatePeerInfoSet hupdate, rfl⟩
    case h_2 =>
      split
      case h_1 hupdate => exact ⟨rfl, rfl, keys_updatePeerInfoSet hupdate⟩
      case h_2 => exact .refl circle

theorem sameIDs_setPeer (circle : SOSCircle) (peer : SOSPeerInfo) :
    circle.SameIDs (circle.setPeer peer) :=
  ⟨keys_replace _ _, rfl, rfl⟩

theorem sameIDs_resignPeerInfo (circle : SOSCircle) (user_approver : κ)
    (peerinfo : SOSFullPeerInfo κ) (pi : SOSPeerInfo) (now : ClockReading) :
    circle.SameIDs
      (circleAfter (resignPeerInfo der dates keys circle user_approver peerinfo pi now)) := by
  rw [resignPeerInfo]
  split
  · exact .refl circle
  · split
    · exact .refl circle
    · exact sameIDs_updatePeerInfo _ _

theorem sameIDs_upgradePeerInfo (circle : SOSCircle) (user_approver : κ)
    (peerinfo : SOSFullPeerInfo κ) (now : ClockReading) :
    circle.SameIDs
      (circleAfter (SOSCircleUpgradePeerInfo der dates keys circle user_approver peerinfo now)) := by
  rw [SOSCircleUpgradePeerInfo]
  split
  case h_1 => exact .refl circle
  case h_2 pi _ =>
    simp only
    split
    · exact sameIDs_setPeer _ _
    · exact (sameIDs_setPeer _ _).trans (sameIDs_resignPeerInfo _ _ _ _ _)

variable (der dates keys) in
theorem sameIDs_generationSignInternal (circle : SOSCircle) (userKey : κ)
    (fpi : SOSFullPeerInfo κ) (now : ClockReading) :
    circle.SameIDs
      (circleAfter (SOSCircleGenerationSign_Internal der dates keys circle userKey fpi now)) := by
  rw [SOSCircleGenerationSign_Internal]
  split
  · exact .refl circle
  · split
    · exact .refl circle
    · apply circle_bind
      · exact sameIDs_upgradePeerInfo _ _ _ _
      · intro upgraded hupgraded
        apply circle_bind
        · exact hupgraded.trans (sameIDs_sign _ _)
        · intro signed hsigned
          exact hsigned.trans (sameIDs_sign _ _)

/-- An applicant that no peer has the ID of is rejected without its ID getting into two sets. -/
theorem separated_transferToRejected (hcircle : circle.Separated) {pi : SOSPeerInfo}
    (hpeers : pi.peerID ∉ circle.peers.keys) :
    (circle.transferToRejected pi).Separated := by
  constructor
  · intro id hid happlicant
    exact hcircle.peers_applicants id hid (mem_keys_remove.mp happlicant).1
  · intro id hid hrejected
    rcases mem_keys_add.mp hrejected with hrejected | rfl
    · exact hcircle.peers_rejected id hid hrejected
    · exact hpeers hid
  · intro id happlicant hrejected
    obtain ⟨happlicant, hne⟩ := mem_keys_remove.mp happlicant
    rcases mem_keys_add.mp hrejected with hrejected | heq
    · exact hcircle.applicants_rejected id happlicant hrejected
    · exact hne heq

theorem sameIDs_replaceApplicant (circle : SOSCircle) (pi : SOSPeerInfo) :
    circle.SameIDs { circle with applicants := circle.applicants.replace pi } :=
  ⟨rfl, keys_replace _ _, rfl⟩

theorem separated_foldl {operation : SOSCircle → SOSPeerInfo → SOSCircle}
    (hpeers : ∀ circle pi, (operation circle pi).peers = circle.peers)
    (hseparated : ∀ circle pi, circle.Separated → pi.peerID ∉ circle.peers.keys →
      (operation circle pi).Separated) (applicants : List SOSPeerInfo)
    (happlicants : ∀ pi ∈ applicants, pi.peerID ∉ circle.peers.keys) (hcircle : circle.Separated) :
    (applicants.foldl operation circle).Separated := by
  induction applicants generalizing circle with
  | nil => exact hcircle
  | cons pi applicants ih =>
    apply ih
    · intro other hother
      rw [hpeers]
      exact happlicants other (List.mem_cons_of_mem _ hother)
    · exact hseparated circle pi hcircle (happlicants pi List.mem_cons_self)

theorem SOSCircle.Separated.applicant_not_peer (hcircle : circle.Separated) {pi : SOSPeerInfo}
    (hpi : pi ∈ circle.applicants.members) : pi.peerID ∉ circle.peers.keys := by
  intro hpeer
  exact hcircle.peers_applicants _ hpeer (List.mem_map_of_mem hpi)

variable (der dates keys) in
theorem separated_rejectNonValidApplicants (hcircle : circle.Separated) (pubkey : Option κ) :
    (SOSCircleRejectNonValidApplicants der dates keys circle pubkey).Separated := by
  apply separated_foldl
  · intro circle pi
    simp only [rejectNonValidApplicant]
    split <;> rfl
  · intro circle pi hcircle hpi
    have hreplaced := (sameIDs_replaceApplicant circle
      (SOSPeerInfoApplicationVerify der dates keys pi pubkey).2).separated hcircle
    simp only [rejectNonValidApplicant]
    split
    · exact hreplaced
    · apply separated_transferToRejected hreplaced
      rw [peerID_applicationVerify]
      exact hpi
  · intro pi hpi
    exact hcircle.applicant_not_peer hpi
  · exact hcircle

variable (der dates keys) in
/-- Retired peers and rejected applicants are dropped, so that it is enough that no other peer is an
applicant. -/
theorem separated_preGenerationSign {circle : SOSCircle} (userPubKey : Option κ)
    (hcircle : ∀ peer ∈ circle.peers.members, SOSPeerInfoIsRetirementTicket peer = false →
      peer.peerID ∉ circle.applicants.keys) :
    (SOSCirclePreGenerationSign der dates keys circle userPubKey).Separated := by
  have hpruned : SOSCircle.Separated { SOSCircleRemoveRetired circle with
      rejected_applicants := .empty _ } := by
    constructor
    · intro id hid
      obtain ⟨peer, hpeer, rfl⟩ := List.mem_map.mp hid
      obtain ⟨hmem, hretired⟩ := mem_members_filter.mp hpeer
      exact hcircle peer hmem (by simpa using hretired)
    · intro id _ hrejected
      simp at hrejected
    · intro id _ hrejected
      simp at hrejected
  obtain ⟨happlicants, hrejected, hboth⟩ := separated_rejectNonValidApplicants der dates keys
    hpruned userPubKey
  exact ⟨happlicants, hrejected, hboth⟩

theorem separated_generationSign (userKey : κ) (fpi : SOSFullPeerInfo κ) (now : ClockReading)
    (hcircle : ∀ peer ∈ circle.peers.members, SOSPeerInfoIsRetirementTicket peer = false →
      peer.peerID ∉ circle.applicants.keys) :
    (circleAfter (SOSCircleGenerationSign der dates keys circle userKey fpi now)).Separated := by
  have hpre := separated_preGenerationSign der dates keys
    (keys.createPublicFromPrivate userKey) hcircle
  apply (sameIDs_generationSignInternal _ _ _ _ _ _ _).separated
  exact ⟨hpre.peers_applicants, hpre.peers_rejected, hpre.applicants_rejected⟩

theorem SOSCircle.Separated.ready (hcircle : circle.Separated) :
    ∀ peer ∈ circle.peers.members, SOSPeerInfoIsRetirementTicket peer = false →
      peer.peerID ∉ circle.applicants.keys := by
  intro peer hpeer _
  exact hcircle.peers_applicants _ (List.mem_map_of_mem hpeer)

def SOSCircle.NotHidden (circle : SOSCircle) (peerID : CFString) : Prop :=
  ∀ peer, circle.peers.find? peerID = some peer → isHiddenPeer peer = false

theorem separated_recordAdmissionRequest {circle : SOSCircle} (hcircle : circle.Separated)
    {requestor : SOSPeerInfo} (hrequestor : circle.NotHidden requestor.peerID) :
    (circleAfter (SOSCircleRecordAdmissionRequest circle requestor)).Separated := by
  rw [SOSCircleRecordAdmissionRequest]
  split
  case isTrue => exact hcircle
  case isFalse hpeer =>
    have hnew : requestor.peerID ∉ circle.peers.keys := by
      rw [← find?_eq_none_iff]
      cases hfind : circle.peers.find? requestor.peerID with
      | none => rfl
      | some found =>
        have hvisible := hrequestor found hfind
        simp [SOSCircleHasPeer, SOSCircleHasPeerWithID, hfind, hvisible] at hpeer
    constructor
    · intro id hid happlicant
      rcases mem_keys_add.mp happlicant with happlicant | rfl
      · exact hcircle.peers_applicants id hid happlicant
      · exact hnew hid
    · intro id hid hrejected
      exact hcircle.peers_rejected id hid (mem_keys_remove.mp hrejected).1
    · intro id happlicant hrejected
      obtain ⟨hrejected, hne⟩ := mem_keys_remove.mp hrejected
      rcases mem_keys_add.mp happlicant with happlicant | heq
      · exact hcircle.applicants_rejected id happlicant hrejected
      · exact hne heq

theorem separated_requestReadmission (hcircle : circle.Separated) (user_pubkey : Option κ)
    {peer : SOSPeerInfo} (hpeer : circle.NotHidden peer.peerID) :
    (circleAfter (SOSCircleRequestReadmission der dates keys circle user_pubkey peer)).Separated := by
  simp only [SOSCircleRequestReadmission]
  split
  · apply separated_recordAdmissionRequest hcircle
    rw [peerID_applicationVerify]
    exact hpeer
  · exact hcircle

theorem separated_requestAdmission (hcircle : circle.Separated) {user_privkey : κ}
    {requestor requestor' : SOSFullPeerInfo κ}
    (hrequestor : circle.NotHidden requestor.peerInfo.peerID)
    (hrequest : SOSCircleRequestAdmission der dates keys circle user_privkey requestor now =
      .ok (circle', requestor')) : circle'.Separated := by
  rw [SOSCircleRequestAdmission] at hrequest
  split at hrequest
  case h_1 => cases hrequest
  case h_2 =>
    split at hrequest
    case h_1 => cases hrequest
    case h_2 promoted hpromote =>
      have hrecorded := @separated_recordAdmissionRequest _ hcircle promoted.peerInfo (by
          rw [peerID_promoteToApplication hpromote]
          exact hrequestor)
      cases hrecord : SOSCircleRecordAdmissionRequest circle promoted.peerInfo with
      | error circle =>
        rw [hrecord] at hrequest
        cases hrequest
      | ok circle =>
        rw [hrecord] at hrequest hrecorded
        cases hrequest
        exact hrecorded

variable (der dates keys) in
theorem separated_acceptRequest (hcircle : circle.Separated) (user_privkey : κ)
    (device_approver : SOSFullPeerInfo κ) (peerInfo : SOSPeerInfo) (now : ClockReading) :
    (circleAfter (SOSCircleAcceptRequest der dates keys circle user_privkey device_approver
      peerInfo now)).Separated := by
  rw [SOSCircleAcceptRequest]
  split
  case isFalse => exact hcircle
  case isTrue =>
    simp only
    split
    case isFalse => exact hcircle
    case isTrue =>
      apply separated_generationSign
      intro peer hpeer _ happlicant
      obtain ⟨happlicant, hne⟩ := mem_keys_remove.mp happlicant
      rcases mem_members_add.mp hpeer with hpeer | ⟨rfl, -⟩
      · exact hcircle.peers_applicants _ (List.mem_map_of_mem hpeer) happlicant
      · exact hne rfl

theorem separated_acceptRequests (hcircle : circle.Separated) (user_privkey : κ)
    (device_approver : SOSFullPeerInfo κ) (now : CFString → ClockReading) (last : ClockReading) :
    (circleAfter (SOSCircleAcceptRequests der dates keys circle user_privkey device_approver now
      last)).Separated := by
  have hfold : ∀ (applicants : List SOSPeerInfo) (state : Bool × SOSCircle), state.2.Separated →
      (applicants.foldl (acceptApplicant der dates keys user_privkey device_approver now)
        state).2.Separated := by
    intro applicants
    induction applicants with
    | nil => exact fun _ hstate => hstate
    | cons peer applicants ih =>
      intro state hstate
      apply ih
      have haccept := separated_acceptRequest der dates keys hstate
        user_privkey device_approver peer (now peer.peerID)
      rw [acceptApplicant]
      split
      all_goals
        rename_i haccepted
        rw [haccepted] at haccept
        exact haccept
  have hall := hfold circle.applicants.members (false, circle) hcircle
  rw [SOSCircleAcceptRequests]
  split
  all_goals
    rename_i hfolded
    rw [hfolded] at hall
  · exact separated_generationSign _ _ _ hall.ready
  · exact hall

theorem separated_withdrawRequest (hcircle : circle.Separated) (peerInfo : SOSPeerInfo) :
    (SOSCircleWithdrawRequest circle peerInfo).Separated := by
  constructor
  · intro id hid happlicant
    exact hcircle.peers_applicants id hid (mem_keys_remove.mp happlicant).1
  · exact hcircle.peers_rejected
  · intro id happlicant
    exact hcircle.applicants_rejected id (mem_keys_remove.mp happlicant).1

theorem separated_rejectRequest (hcircle : circle.Separated) (device_rejector : SOSFullPeerInfo κ)
    (peerInfo : SOSPeerInfo) :
    (circleAfter (SOSCircleRejectRequest circle device_rejector peerInfo)).Separated := by
  rw [SOSCircleRejectRequest]
  split
  case isTrue => exact separated_withdrawRequest hcircle peerInfo
  case isFalse =>
    split
    case isFalse => exact hcircle
    case isTrue happlicant =>
      apply separated_transferToRejected hcircle
      intro hpeer
      exact hcircle.peers_applicants _ hpeer (contains_iff.mp happlicant)

theorem separated_removePeer (hcircle : circle.Separated) (peerID : CFString) :
    SOSCircle.Separated { circle with peers := circle.peers.remove peerID } := by
  constructor
  · intro id hid
    exact hcircle.peers_applicants id (mem_keys_remove.mp hid).1
  · intro id hid
    exact hcircle.peers_rejected id (mem_keys_remove.mp hid).1
  · exact hcircle.applicants_rejected

theorem separated_removePeerInternal (hcircle : circle.Separated) (requestor : SOSFullPeerInfo κ)
    (peer_to_remove : SOSPeerInfo) :
    (circleAfter (SOSCircleRemovePeerInternal circle requestor peer_to_remove)).Separated := by
  rw [SOSCircleRemovePeerInternal]
  split
  case isTrue => exact hcircle
  case isFalse =>
    obtain ⟨removed, hremoved⟩ : ∃ removed, removed =
        if SOSCircleHasPeer circle peer_to_remove then
          { circle with peers := circle.peers.remove peer_to_remove.peerID }
        else circle := ⟨_, rfl⟩
    have hseparated : removed.Separated := by
      rw [hremoved]
      split
      · exact separated_removePeer hcircle _
      · exact hcircle
    simp only [← hremoved]
    split
    · exact separated_rejectRequest hseparated requestor peer_to_remove
    · exact hseparated

theorem separated_forEachItem {α : Type} {operation : SOSCircle → α → CircleOutcome}
    (hoperation : ∀ circle item, circle.Separated → (circleAfter (operation circle item)).Separated)
    (items : List α) (hcircle : circle.Separated) :
    (circleAfter (forEachItem operation items circle)).Separated := by
  induction items generalizing circle with
  | nil => exact hcircle
  | cons item items ih =>
    have hitem := hoperation circle item hcircle
    rw [forEachItem]
    split
    case h_1 hdone =>
      rw [hdone] at hitem
      exact ih hitem
    case h_2 failed hdone =>
      rw [hdone] at hitem
      have hrest : (circleAfter (forEachItem operation items failed)).Separated := ih hitem
      split
      all_goals
        rename_i hlater
        rw [hlater] at hrest
        exact hrest

theorem separated_removePeers (hcircle : circle.Separated) (user_privkey : κ)
    (requestor : SOSFullPeerInfo κ) (peersToRemove : List SOSPeerInfo) (now : ClockReading) :
    (circleAfter (SOSCircleRemovePeers der dates keys circle user_privkey requestor peersToRemove
      now)).Separated := by
  apply circle_bind
  · exact separated_forEachItem
      (fun circle peerInfo hcircle => separated_removePeerInternal hcircle requestor peerInfo)
      peersToRemove hcircle
  · intro removed hremoved
    exact separated_generationSign _ _ _ hremoved.ready

theorem separated_removePeersByID (hcircle : circle.Separated) (user_privkey : κ)
    (requestor : SOSFullPeerInfo κ) (peersToRemove : List CFString) (now : ClockReading) :
    (circleAfter (SOSCircleRemovePeersByID der dates keys circle user_privkey requestor
      peersToRemove now)).Separated := by
  apply circle_bind
  · apply separated_forEachItem _ peersToRemove hcircle
    intro circle peerID hcircle
    rw [removePeerByID]
    split
    · exact separated_removePeerInternal hcircle requestor _
    · exact hcircle
  · intro removed hremoved
    exact separated_generationSign _ _ _ hremoved.ready

theorem separated_resetToEmpty (circle : SOSCircle) (now again : ClockReading) :
    (SOSCircleResetToEmpty circle now again).Separated := by
  constructor <;>
  · intro id hid
    simp [SOSCircleResetToEmpty] at hid

theorem separated_resetToOffering {user_privkey : κ} {requestor : SOSFullPeerInfo κ}
    {again later : ClockReading}
    (hreset : SOSCircleResetToOffering der dates keys circle user_privkey requestor now again later =
      .ok circle') : circle'.Separated := by
  simp only [SOSCircleResetToOffering] at hreset
  cases hrequest : SOSCircleRequestAdmission der dates keys (SOSCircleResetToEmpty circle now again)
      user_privkey requestor now with
  | error failed =>
    rw [hrequest] at hreset
    cases hreset
  | ok result =>
    obtain ⟨requested, promoted⟩ := result
    rw [hrequest] at hreset
    have hrequested := separated_requestAdmission (separated_resetToEmpty circle now again)
      (fun peer hpeer => by cases hpeer) hrequest
    have haccepted := separated_acceptRequest der dates keys
      hrequested user_privkey promoted promoted.peerInfo later
    have hdone : SOSCircleAcceptRequest der dates keys requested user_privkey promoted
        promoted.peerInfo later = .ok circle' := hreset
    rw [hdone] at haccepted
    exact haccepted

theorem separated_peerSigUpdate (hcircle : circle.Separated) (userPrivKey : κ)
    (fpi : SOSFullPeerInfo κ) (now : ClockReading) :
    (circleAfter (SOSCirclePeerSigUpdate der dates keys circle userPrivKey fpi now)).Separated := by
  apply circle_bind
  · apply (sameIDs_updatePeerInfo _ _).separated
    apply separated_foldl
    · intro circle pi
      simp only [rejectMismatchedApplicant]
      split
      · rfl
      · rw [SOSCircleRejectRequest]
        split
        · rfl
        · split <;> rfl
    · intro circle pi hcircle _
      have hreplaced := (sameIDs_replaceApplicant circle (SOSPeerInfoApplicationVerify der dates
        keys pi (keys.createPublicFromPrivate userPrivKey)).2).separated hcircle
      simp only [rejectMismatchedApplicant]
      split
      · exact hreplaced
      · exact separated_rejectRequest hreplaced fpi _
    · intro pi hpi
      exact hcircle.applicant_not_peer hpi
    · exact hcircle
  · intro updated hupdated
    exact separated_generationSign _ _ _ hupdated.ready

/-- The peer that comes in is not an applicant, unless it is pruned again as retired. -/
theorem separated_acceptPeerFromHSA2 (hcircle : circle.Separated) {userKey pPubKey : κ}
    {gencount : SOSGenCount} {signature : List UInt8} {fpi : SOSFullPeerInfo κ}
    (hnew : fpi.peerInfo.peerID ∈ circle.applicants.keys →
      SOSPeerInfoIsRetirementTicket fpi.peerInfo = true)
    (haccept : SOSCircleAcceptPeerFromHSA2 der dates keys circle userKey gencount pPubKey signature
      fpi now = .ok circle') : circle'.Separated := by
  simp only [SOSCircleAcceptPeerFromHSA2, SOSCircleGenerationSignWithGenCount] at haccept
  split at haccept
  case isFalse => cases haccept
  case isTrue =>
    have hpre := @separated_preGenerationSign der dates _ keys
      { circle with peers := circle.peers.add fpi.peerInfo } (some userKey) (by
        intro peer hpeer hretired happlicant
        rcases mem_members_add.mp hpeer with hpeer | ⟨rfl, -⟩
        · exact hcircle.peers_applicants _ (List.mem_map_of_mem hpeer) happlicant
        · rw [hnew happlicant] at hretired
          cases hretired)
    have hsigned := circle_bind (P := SOSCircle.Separated)
      ((sameIDs_generationSignInternal der dates keys
        { SOSCirclePreGenerationSign der dates keys
            { circle with peers := circle.peers.add fpi.peerInfo } (some userKey) with
          generation := gencount } userKey fpi now).separated
        ⟨hpre.peers_applicants, hpre.peers_rejected, hpre.applicants_rejected⟩)
      (f := fun circle => do
        let circle ← SOSCircleSetSignature keys circle pPubKey signature
        if SOSCircleVerify keys circle pPubKey then .ok circle else .error circle)
      (by
        intro signed hseparated
        apply circle_bind
        · exact (sameIDs_setSignature _ _ _).separated hseparated
        · intro counted hcounted
          split <;> exact hcounted)
    rw [haccept] at hsigned
    exact hsigned

inductive CircleStep (κ : Type) where
  | requestAdmission (user_privkey : κ) (requestor : SOSFullPeerInfo κ) (now : ClockReading)
  | requestReadmission (user_pubkey : Option κ) (peer : SOSPeerInfo)
  | acceptRequest (user_privkey : κ) (device_approver : SOSFullPeerInfo κ)
      (peerInfo : SOSPeerInfo) (now : ClockReading)
  | acceptRequests (user_privkey : κ) (device_approver : SOSFullPeerInfo κ)
      (now : CFString → ClockReading) (last : ClockReading)
  | rejectRequest (device_rejector : SOSFullPeerInfo κ) (peerInfo : SOSPeerInfo)
  | withdrawRequest (peerInfo : SOSPeerInfo)
  | removePeers (user_privkey : κ) (requestor : SOSFullPeerInfo κ)
      (peersToRemove : List SOSPeerInfo) (now : ClockReading)
  | removePeersByID (user_privkey : κ) (requestor : SOSFullPeerInfo κ)
      (peersToRemove : List CFString) (now : ClockReading)
  | resetToOffering (user_privkey : κ) (requestor : SOSFullPeerInfo κ)
      (now again later : ClockReading)
  | acceptPeerFromHSA2 (userKey : κ) (gencount : SOSGenCount) (pPubKey : κ)
      (signature : List UInt8) (fpi : SOSFullPeerInfo κ) (now : ClockReading)
  | peerSigUpdate (userPrivKey : κ) (fpi : SOSFullPeerInfo κ) (now : ClockReading)

def succeeded : CircleOutcome → Option SOSCircle
  | .ok circle => some circle
  | .error _ => none

variable (der dates keys) in
def CircleStep.perform (circle : SOSCircle) : CircleStep κ → Option SOSCircle
  | .requestAdmission user_privkey requestor now =>
    match SOSCircleRequestAdmission der dates keys circle user_privkey requestor now with
    | .ok (circle, _) => some circle
    | .error _ => none
  | .requestReadmission user_pubkey peer =>
    succeeded (SOSCircleRequestReadmission der dates keys circle user_pubkey peer)
  | .acceptRequest user_privkey device_approver peerInfo now =>
    succeeded
      (SOSCircleAcceptRequest der dates keys circle user_privkey device_approver peerInfo now)
  | .acceptRequests user_privkey device_approver now last =>
    succeeded (SOSCircleAcceptRequests der dates keys circle user_privkey device_approver now last)
  | .rejectRequest device_rejector peerInfo =>
    succeeded (SOSCircleRejectRequest circle device_rejector peerInfo)
  | .withdrawRequest peerInfo => some (SOSCircleWithdrawRequest circle peerInfo)
  | .removePeers user_privkey requestor peersToRemove now =>
    succeeded (SOSCircleRemovePeers der dates keys circle user_privkey requestor peersToRemove now)
  | .removePeersByID user_privkey requestor peersToRemove now =>
    succeeded
      (SOSCircleRemovePeersByID der dates keys circle user_privkey requestor peersToRemove now)
  | .resetToOffering user_privkey requestor now again later =>
    succeeded
      (SOSCircleResetToOffering der dates keys circle user_privkey requestor now again later)
  | .acceptPeerFromHSA2 userKey gencount pPubKey signature fpi now =>
    succeeded
      (SOSCircleAcceptPeerFromHSA2 der dates keys circle userKey gencount pPubKey signature fpi now)
  | .peerSigUpdate userPrivKey fpi now =>
    succeeded (SOSCirclePeerSigUpdate der dates keys circle userPrivKey fpi now)

/-- No request comes from a hidden peer of the circle, and no applicant that would stay a peer comes
in past its request. -/
def CircleStep.Admissible (circle : SOSCircle) : CircleStep κ → Prop
  | .requestAdmission _ requestor _ => circle.NotHidden requestor.peerInfo.peerID
  | .requestReadmission _ peer => circle.NotHidden peer.peerID
  | .acceptPeerFromHSA2 _ _ _ _ fpi _ =>
    fpi.peerInfo.peerID ∈ circle.applicants.keys →
      SOSPeerInfoIsRetirementTicket fpi.peerInfo = true
  | _ => True

theorem separated_of_succeeded {outcome : CircleOutcome}
    (houtcome : (circleAfter outcome).Separated) (hdone : succeeded outcome = some circle) :
    circle.Separated := by
  cases outcome with
  | error _ => cases hdone
  | ok _ =>
    cases hdone
    exact houtcome

theorem eq_ok_of_succeeded {outcome : CircleOutcome} (hdone : succeeded outcome = some circle) :
    outcome = .ok circle := by
  cases outcome with
  | error _ => cases hdone
  | ok _ =>
    cases hdone
    rfl

theorem separated_perform {step : CircleStep κ} (hcircle : circle.Separated)
    (hstep : step.Admissible circle)
    (hperform : step.perform der dates keys circle = some circle') : circle'.Separated := by
  cases step with
  | requestAdmission user_privkey requestor now =>
    rw [CircleStep.perform] at hperform
    split at hperform
    case h_1 hrequest =>
      cases hperform
      exact separated_requestAdmission hcircle hstep hrequest
    case h_2 => cases hperform
  | requestReadmission user_pubkey peer =>
    exact separated_of_succeeded (separated_requestReadmission hcircle _ hstep) hperform
  | acceptRequest user_privkey device_approver peerInfo now =>
    exact separated_of_succeeded (separated_acceptRequest _ _ _ hcircle _ _ _ _) hperform
  | acceptRequests user_privkey device_approver now last =>
    exact separated_of_succeeded (separated_acceptRequests hcircle _ _ _ _) hperform
  | rejectRequest device_rejector peerInfo =>
    exact separated_of_succeeded (separated_rejectRequest hcircle _ _) hperform
  | withdrawRequest peerInfo =>
    cases hperform
    exact separated_withdrawRequest hcircle peerInfo
  | removePeers user_privkey requestor peersToRemove now =>
    exact separated_of_succeeded (separated_removePeers hcircle _ _ _ _) hperform
  | removePeersByID user_privkey requestor peersToRemove now =>
    exact separated_of_succeeded (separated_removePeersByID hcircle _ _ _ _) hperform
  | resetToOffering user_privkey requestor now again later =>
    exact separated_resetToOffering (eq_ok_of_succeeded hperform)
  | acceptPeerFromHSA2 userKey gencount pPubKey signature fpi now =>
    exact separated_acceptPeerFromHSA2 hcircle hstep (eq_ok_of_succeeded hperform)
  | peerSigUpdate userPrivKey fpi now =>
    exact separated_of_succeeded (separated_peerSigUpdate hcircle _ _ _) hperform

structure SOSCircle.NoMembers (circle : SOSCircle) : Prop where
  peers : circle.peers.keys = []
  applicants : circle.applicants.keys = []
  rejected : circle.rejected_applicants.keys = []

/-- In a run of admissible steps from an empty circle no ID gets into two sets. -/
theorem separated_of_run {start circle : SOSCircle} (hstart : start.NoMembers)
    {steps : List (CircleStep κ)}
    (hrun : Run (CircleStep.perform der dates keys) CircleStep.Admissible start steps circle) :
    circle.Separated := by
  apply hrun.invariant SOSCircle.Separated
  · intro circle step circle' hcircle hstep hperform
    exact separated_perform hcircle hstep hperform
  · constructor
    · simp [hstart.peers]
    · simp [hstart.peers]
    · simp [hstart.applicants]
end

def oneKey : SecKeys Unit where
  createFromPublicData _ := some ()
  createPublicFromPrivate := some
  copyPublicBytes _ := some []
  rawSign _ _ := some []
  rawVerify _ _ _ := true
  sha256 _ := []
  idOfDataBuffer _ := []

def applicantWith (description : List (Plist × Plist)) : SOSPeerInfo where
  description := description
  signature := []
  peerID := cfstr "A"
  version := 0
  verifiedAppKeyID := some []
  verifiedResult := true
  v2Dictionary := none

def cloudIdentity : SOSPeerInfo :=
  applicantWith [(.string sCloudIdentityKey, .boolean true)]

def epoch : ClockReading := ⟨0, []⟩

def askTwice (peer : SOSPeerInfo) : List (CircleStep Unit) :=
  [.requestReadmission (some ()) peer, .acceptRequest () ⟨peer, some ()⟩ peer epoch,
    .requestReadmission (some ()) peer]

theorem separated_of_run_sample :
    ∃ circle, Run (CircleStep.perform Standard.primitives firstMonth oneKey) CircleStep.Admissible
      (SOSCircleCreate [] epoch) ((askTwice cloudIdentity).take 2) circle ∧ circle.Separated := by
  have hnew : ∀ peer, (SOSCircleCreate [] epoch).peers.find? cloudIdentity.peerID ≠ some peer := by
    intro peer hpeer
    cases hpeer
  have hrun : Run (CircleStep.perform Standard.primitives firstMonth oneKey)
      CircleStep.Admissible (SOSCircleCreate [] epoch) ((askTwice cloudIdentity).take 2) _ :=
    .cons (fun peer hpeer => absurd hpeer (hnew peer)) rfl (.cons trivial rfl (.nil _))
  exact ⟨_, hrun, separated_of_run ⟨rfl, rfl, rfl⟩ hrun⟩

theorem cloudIdentity_in_two_sets :
    ∃ circle, Run (CircleStep.perform Standard.primitives firstMonth oneKey) (fun _ _ => True)
      (SOSCircleCreate [] epoch) (askTwice cloudIdentity) circle ∧ ¬circle.Separated := by
  refine ⟨_, .cons trivial rfl (.cons trivial rfl (.cons trivial rfl (.nil _))), ?_⟩
  intro hseparated
  exact hseparated.peers_applicants (cfstr "A") (by decide) (by decide)
end SecurityFramework
