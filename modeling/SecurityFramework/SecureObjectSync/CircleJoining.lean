import SecurityFramework.SecureObjectSync.GenerationOrder
import SecurityFramework.SecureObjectSync.RequestAcceptance

/-! # Joining a circle with the signature of a sponsor -/

namespace SecurityFramework
open DER KeyedSet

inductive SOSCCStatus where
  | kSOSCCInCircle
  | kSOSCCNotInCircle
  | kSOSCCRequestPending
  | kSOSCCCircleAbsent
  deriving DecidableEq

def thisDeviceStatusInCircle (circle : SOSCircle) (this_peer : SOSPeerInfo) : SOSCCStatus :=
  if SOSCircleCountPeers circle = 0 then .kSOSCCCircleAbsent
  else if SOSPeerInfoIsRetirementTicket this_peer then .kSOSCCNotInCircle
  else if SOSCircleHasPeer circle this_peer then .kSOSCCInCircle
  else if SOSCircleHasApplicant circle this_peer then .kSOSCCRequestPending
  else .kSOSCCNotInCircle

structure JoiningBlob (κ : Type) where
  gencount : SOSGenCount
  ourKey : κ
  signature : List UInt8

section
variable (der : Primitives) (dates : DateSystem) {κ : Type} (keys : SecKeys κ)

def SOSCircleHashNextGenWithAdditionalPeer (circle : SOSCircle) (additionalPeer : SOSPeerInfo)
    (now : ClockReading) : List UInt8 :=
  let peers := circle.peers.add additionalPeer
  let nextGen := SOSGenerationIncrementAndCreate circle.generation now.seconds
  SOSCircleHashGenAndPeers keys nextGen peers

def SOSCircleCopyNextGenSignatureWithPeerAdded (circle : SOSCircle) (peer : SOSPeerInfo)
    (privKey : κ) (now : ClockReading) : Option (List UInt8) :=
  keys.rawSign privKey (SOSCircleHashNextGenWithAdditionalPeer keys circle peer now)

def SOSAccountCopyCircleJoiningBlob (currentCircle : SOSCircle) (fpi : SOSFullPeerInfo κ)
    (userKey : κ) (applicant : SOSPeerInfo) (now again : ClockReading) : Option (JoiningBlob κ) :=
  if thisDeviceStatusInCircle currentCircle fpi.peerInfo = .kSOSCCInCircle then
    let (valid, applicant) := SOSPeerInfoApplicationVerify der dates keys applicant (some userKey)
    if valid then do
      let ourKey ← fpi.deviceKey
      let prunedCircle := SOSCirclePreGenerationSign der dates keys
        (SOSCircleCopyCircle der dates currentCircle) (some userKey)
      let gencount := SOSGenerationIncrementAndCreate prunedCircle.generation now.seconds
      let signature ←
        SOSCircleCopyNextGenSignatureWithPeerAdded keys prunedCircle applicant ourKey again
      some { gencount, ourKey, signature }
    else none
  else none

def sponsoredCircle (currentCircle : SOSCircle) (userKey : κ) (applicant : SOSPeerInfo)
    (again : ClockReading) : SOSCircle :=
  let applicant := (SOSPeerInfoApplicationVerify der dates keys applicant (some userKey)).2
  let prunedCircle := SOSCirclePreGenerationSign der dates keys
    (SOSCircleCopyCircle der dates currentCircle) (some userKey)
  { SOSCircleGenerationIncrement prunedCircle again with
    peers := prunedCircle.peers.add applicant }

/-- The circle of which the joiner verifies the digest, whether it could sign it itself or not. -/
def joinedCircle (currentCircle : SOSCircle) (userKey : κ) (gencount : SOSGenCount)
    (fpi : SOSFullPeerInfo κ) (now : ClockReading) : SOSCircle :=
  let circle := SOSCircleCopyCircle der dates currentCircle
  let circle := { circle with peers := circle.peers.add fpi.peerInfo }
  circleAfter (SOSCircleGenerationSignWithGenCount der dates keys circle userKey fpi gencount now)
end

theorem littleEndianOctets_injective {value value' : LongLong}
    (heq : littleEndianOctets value = littleEndianOctets value') : value = value' := by
  rw [littleEndianOctets, littleEndianOctets, List.map_inj_left] at heq
  apply BitVec.eq_of_getLsbD_eq
  intro i hi
  have hoctet := heq (i / 8) (List.mem_range.mpr (by omega))
  have hbits : (value >>> (8 * (i / 8))).setWidth 8 = (value' >>> (8 * (i / 8))).setWidth 8 :=
    congrArg UInt8.toBitVec hoctet
  have hbit := congrArg (BitVec.getLsbD · (i % 8)) hbits
  simp only [BitVec.getLsbD_setWidth, BitVec.getLsbD_ushiftRight] at hbit
  have hindex : 8 * (i / 8) + i % 8 = i := Nat.div_add_mod i 8
  rw [hindex] at hbit
  simpa [Nat.mod_lt] using hbit

/-- The time that is put in decides on the next generation, and only of a count that has none. -/
theorem incrementAndCreate_inj {gen : SOSGenCount} {seconds seconds' : BitVec 32} :
    SOSGenerationIncrementAndCreate gen seconds = SOSGenerationIncrementAndCreate gen seconds' ↔
      (gen.sshiftRight 32 = 0 → seconds >>> 1 = seconds' >>> 1) := by
  rw [incrementAndCreate_eq, incrementAndCreate_eq, BitVec.add_left_inj, generationBase,
    generationBase]
  split
  case isFalse htime => exact ⟨fun _ hnone => absurd hnone htime, fun _ => rfl⟩
  case isTrue hnone =>
    have hlow := toNat_lt_of_sshiftRight hnone
    have hvalue := toNat_sosGenerationSetHighBits hlow seconds
    have hvalue' := toNat_sosGenerationSetHighBits hlow seconds'
    rw [toNat_highBits] at hvalue hvalue'
    constructor
    · intro heq _
      rw [heq, hvalue'] at hvalue
      apply BitVec.eq_of_toNat_eq
      rw [BitVec.toNat_ushiftRight, BitVec.toNat_ushiftRight, Nat.shiftRight_eq_div_pow,
        Nat.shiftRight_eq_div_pow]
      omega
    · intro hsame
      rw [hsame hnone]

theorem incrementAndCreate_ne (gen : SOSGenCount) (seconds : BitVec 32) :
    SOSGenerationIncrementAndCreate gen seconds ≠ gen := by
  intro hsame
  by_cases hfull : GenerationFull gen seconds
  case pos =>
    have hbase : generationBase gen seconds = BitVec.intMax 64 :=
      BitVec.eq_of_toInt_eq ((generationBase_full_iff gen seconds).mpr hfull)
    have hnext : (BitVec.intMax 64 + 1).toInt = -2 ^ 63 := by decide
    rw [incrementAndCreate_eq, hbase] at hsame
    rw [hsame] at hnext
    rw [GenerationFull] at hfull
    omega
  case neg =>
    have holder := (isOlder_incrementAndCreate_iff gen seconds).mpr hfull
    rw [hsame, SOSGenerationIsOlder, BitVec.slt_iff_toInt_lt] at holder
    exact lt_irrefl _ holder

/-- Two circles from which the same digest is made. -/
structure SOSCircle.SameInput (circle circle' : SOSCircle) : Prop where
  generation : littleEndianOctets circle.generation = littleEndianOctets circle'.generation
  keys : peerKeyOctets circle.peers = peerKeyOctets circle'.peers

theorem SOSCircle.SameInput.hash_eq {κ : Type} {keys : SecKeys κ} {circle circle' : SOSCircle}
    (h : circle.SameInput circle') : SOSCircleHash keys circle = SOSCircleHash keys circle' := by
  rw [SOSCircleHash, SOSCircleHash, SOSCircleHashGenAndPeers, SOSCircleHashGenAndPeers,
    digestSet_eq, digestSet_eq, h.generation, h.keys]

theorem peerInfoLe_antisymm {left right : SOSPeerInfo} (hle : peerInfoLe left right = true)
    (hge : peerInfoLe right left = true) : left.peerID = right.peerID := by
  rw [peerInfoLe, decide_eq_true_eq] at hle hge
  have hinjective : Function.Injective UInt16.toNat := fun _ _ heq => UInt16.toNat_inj.mp heq
  exact hinjective.list_map (le_antisymm hle hge)

theorem pairwise_sortedPeers (members : List SOSPeerInfo) :
    (members.mergeSort peerInfoLe).Pairwise fun left right => peerInfoLe left right = true := by
  apply List.pairwise_mergeSort
  · intro first second third hle hle'
    rw [peerInfoLe, decide_eq_true_eq] at hle hle' ⊢
    exact hle.trans hle'
  · intro left right
    simp only [peerInfoLe, Bool.or_eq_true, decide_eq_true_eq]
    exact le_total _ _

theorem flatMap_filter_of_nil {α β : Type} {f : α → List β} {test : α → Bool} {l : List α}
    (hnil : ∀ a ∈ l, test a = false → f a = []) : (l.filter test).flatMap f = l.flatMap f := by
  induction l with
  | nil => rfl
  | cons a l ih =>
    have hrest := ih fun b hb => hnil b (List.mem_cons_of_mem _ hb)
    cases htest : test a with
    | true => simp [htest, hrest]
    | false => simp [htest, hrest, hnil a List.mem_cons_self htest]

/-- A member without a key does not matter to the digest, and one with a key does. -/
theorem peerKeyOctets_append {peers peers' : SOSPeerInfoSet} {peer : SOSPeerInfo}
    (hadded : peers'.members = peers.members ++ [peer]) :
    peerKeyOctets peers' = peerKeyOctets peers ↔ (peer.data sPublicKeyKey).getD [] = [] := by
  rw [peerKeyOctets, peerKeyOctets, hadded]
  generalize hkey : (fun peer : SOSPeerInfo => (peer.data sPublicKeyKey).getD []) = key
  have hpeer : (peer.data sPublicKeyKey).getD [] = key peer := congrFun hkey peer
  rw [hpeer]
  have hsorted := List.mergeSort_perm (peers.members ++ [peer]) peerInfoLe
  constructor
  · intro heq
    have hlength := congrArg List.length heq
    rw [(hsorted.flatMap_right key).length_eq,
      ((List.mergeSort_perm peers.members peerInfoLe).flatMap_right key).length_eq,
      List.flatMap_append, List.length_append] at hlength
    simpa using hlength
  · intro hnone
    have hother : ∀ other ∈ peers.members, other.peerID ≠ peer.peerID := by
      have hdistinct := peers'.distinct
      rw [hadded, List.map_append, List.nodup_append] at hdistinct
      intro other hmem
      exact hdistinct.2.2 _ (List.mem_map_of_mem hmem) _ List.mem_cons_self
    -- the sorted members without the new one are the old ones, sorted
    have hkept : ((peers.members ++ [peer]).mergeSort peerInfoLe).filter
        (fun other => other.peerID ≠ peer.peerID) = peers.members.mergeSort peerInfoLe := by
      have hfilter : (peers.members ++ [peer]).filter (fun other => other.peerID ≠ peer.peerID) =
          peers.members := by
        rw [List.filter_append, List.filter_eq_self.mpr fun other hmem => by
          simpa using hother other hmem]
        simp
      have hperm := (hsorted.filter fun other => other.peerID ≠ peer.peerID).trans
        ((List.Perm.of_eq hfilter).trans (List.mergeSort_perm peers.members peerInfoLe).symm)
      refine hperm.eq_of_pairwise ?_ ((pairwise_sortedPeers _).filter _) (pairwise_sortedPeers _)
      intro left right hleft hright hle hge
      have hleft' := (List.mergeSort_perm _ _).mem_iff.mp (hperm.mem_iff.mp hleft)
      have hright' := (List.mergeSort_perm _ _).mem_iff.mp hright
      exact List.inj_on_of_nodup_map peers.distinct hleft' hright' (peerInfoLe_antisymm hle hge)
    rw [← hkept]
    symm
    apply flatMap_filter_of_nil
    intro other hmem hsame
    have hsame : other.peerID = peer.peerID := by simpa using hsame
    rcases List.mem_append.mp (hsorted.mem_iff.mp hmem) with hmem | hmem
    · exact absurd hsame (hother other hmem)
    · rw [List.mem_singleton.mp hmem, hnone]

section
variable {der : Primitives} {dates : DateSystem} {κ : Type} {keys : SecKeys κ}

theorem data_copyAsApplication {original pi : SOSPeerInfo} {userkey peerkey : κ}
    {creationDate : List UInt8}
    (hcopy : SOSPeerInfoCopyAsApplication der dates keys original userkey peerkey creationDate =
      some pi) : original.SameKey pi := by
  refine ⟨peerID_copyAsApplication hcopy, ?_⟩
  rw [SOSPeerInfo.data, SOSPeerInfo.data,
    value_copyAsApplication hcopy (by decide) (by decide) (by decide)]

variable {circle : SOSCircle}

theorem peerKeys_setPeer {found pi : SOSPeerInfo}
    (hfind : circle.peers.find? found.peerID = some found) (hsame : found.SameKey pi) :
    (circle.setPeer pi).peerKeys = circle.peerKeys := by
  rw [← hsame.peerID] at hfind
  apply map_members_replace _ hfind
  rw [hsame.peerID, hsame.publicKey]

theorem peerKeys_updatePeerInfo {found pi : SOSPeerInfo}
    (hfind : circle.peers.find? found.peerID = some found) (hsame : found.SameKey pi) :
    (circleAfter (SOSCircleUpdatePeerInfo circle pi)).peerKeys = circle.peerKeys := by
  rw [SOSCircleUpdatePeerInfo]
  split
  case h_1 peers hupdate =>
    simp only [sosCircleUpdatePeerInfoSet, Option.bind_eq_bind, Option.bind_eq_some_iff] at hupdate
    obtain ⟨old, -, hupdate⟩ := hupdate
    split at hupdate
    case isTrue => cases hupdate
    case isFalse =>
      cases hupdate
      exact peerKeys_setPeer hfind hsame
  case h_2 =>
    split
    · rfl
    · split <;> rfl

theorem peerKeys_upgradePeerInfo (circle : SOSCircle) (user_approver : κ)
    (peerinfo : SOSFullPeerInfo κ) (now : ClockReading) :
    (circleAfter (SOSCircleUpgradePeerInfo der dates keys circle user_approver peerinfo
      now)).peerKeys = circle.peerKeys := by
  rw [SOSCircleUpgradePeerInfo, SOSCircleCopyPeerInfo]
  split
  case h_1 => rfl
  case h_2 pi hfind =>
    obtain ⟨hmem, hID⟩ := mem_of_find? hfind
    rw [← hID] at hfind
    have hsame := @sameKey_applicationVerify der dates _ keys pi
      (keys.createPublicFromPrivate user_approver)
    simp only
    generalize (SOSPeerInfoApplicationVerify der dates keys pi
      (keys.createPublicFromPrivate user_approver)) = result at hsame ⊢
    have hset := peerKeys_setPeer hfind hsame
    split
    case isTrue => exact hset
    case isFalse =>
      rw [resignPeerInfo]
      split
      case h_1 => exact hset
      case h_2 =>
        split
        case h_1 => exact hset
        case h_2 new_pi hcopy =>
          have hfound : (circle.setPeer result.2).peers.find? result.2.peerID = some result.2 := by
            apply find?_replace
            rw [hsame.peerID]
            exact List.mem_map_of_mem hmem
          exact (peerKeys_updatePeerInfo hfound (data_copyAsApplication hcopy)).trans hset

theorem peerKeys_sign (circle : SOSCircle) (privKey : κ) :
    (circleAfter (SOSCircleSign keys circle privKey)).peerKeys = circle.peerKeys := by
  rw [SOSCircleSign]
  split
  case h_2 => rfl
  case h_1 =>
    rw [SOSCircleSetSignature]
    split <;> rfl

theorem peerKeys_signInternal (circle : SOSCircle) (userKey : κ) (fpi : SOSFullPeerInfo κ)
    (now : ClockReading) :
    (circleAfter (SOSCircleGenerationSign_Internal der dates keys circle userKey fpi
      now)).peerKeys = circle.peerKeys := by
  rw [SOSCircleGenerationSign_Internal]
  split
  · rfl
  · split
    · rfl
    · refine circle_bind (P := fun next => next.peerKeys = circle.peerKeys)
        (peerKeys_upgradePeerInfo _ _ _ _) fun upgraded hupgraded => ?_
      refine circle_bind (P := fun next => next.peerKeys = circle.peerKeys)
        ((peerKeys_sign _ _).trans hupgraded) fun signed hsigned => ?_
      exact (peerKeys_sign _ _).trans hsigned

theorem peers_preGenerationSign (circle : SOSCircle) (pubkey : Option κ) :
    (SOSCirclePreGenerationSign der dates keys circle pubkey).peers =
      circle.peers.filter fun peer => !SOSPeerInfoIsRetirementTicket peer :=
  (foldl_rejectNonValidApplicant pubkey _ _).1

theorem find?_copyCircle (circle : SOSCircle) (id : CFString) :
    (SOSCircleCopyCircle der dates circle).peers.find? id =
      (circle.peers.find? id).map (SOSPeerInfoCreateCopy der dates) := by
  have hID : ∀ peer, (SOSPeerInfoCreateCopy der dates peer).peerID = peer.peerID :=
    fun peer => (@sameContent_createCopy der dates peer).peerID
  rw [KeyedSet.find?, KeyedSet.find?, SOSCircleCopyCircle, copyPeerInfos, List.find?_map]
  simp only [Function.comp_def, hID]

theorem ticket_find?_copyCircle (circle : SOSCircle) (applicant : SOSPeerInfo) :
    SOSPeerInfoIsRetirementTicket
        (((SOSCircleCopyCircle der dates circle).peers.find? applicant.peerID).getD applicant) =
      SOSPeerInfoIsRetirementTicket
        ((circle.peers.find? applicant.peerID).getD applicant) := by
  rw [find?_copyCircle]
  cases circle.peers.find? applicant.peerID with
  | none => rfl
  | some peer => exact (sameContent_createCopy peer).isRetirementTicket_eq

/-- What the joiner signs, where the generation count is newer than that of the circle. -/
theorem joinedCircle_of_older {circle : SOSCircle} {user_privkey : κ} {gencount : SOSGenCount}
    (holder : SOSGenerationIsOlder circle.generation gencount = true) (fpi : SOSFullPeerInfo κ)
    (now : ClockReading) :
    (joinedCircle der dates keys circle user_privkey gencount fpi now).generation = gencount ∧
      (joinedCircle der dates keys circle user_privkey gencount fpi now).peerKeys =
        (((SOSCircleCopyCircle der dates circle).peers.add fpi.peerInfo).filter
          fun peer => !SOSPeerInfoIsRetirementTicket peer).members.map peerKey := by
  have holder' : SOSGenerationIsOlder (SOSCircleCopyCircle der dates circle).generation gencount =
      true := holder
  rw [joinedCircle, SOSCircleGenerationSignWithGenCount, if_pos holder']
  constructor
  · exact generation_signInternal _ _ _ _
  · refine (peerKeys_signInternal _ _ _ _).trans ?_
    rw [SOSCircle.peerKeys, peers_preGenerationSign]
    rfl

/-- The circle and the clock let the sponsor and the applicant sign the same. -/
structure SOSCircle.ReadyFor (circle : SOSCircle) (applicant : SOSPeerInfo)
    (now again : ClockReading) : Prop where
  room : ¬GenerationFull circle.generation now.seconds
  sameTime : circle.generation.sshiftRight 32 = 0 → again.seconds >>> 1 = now.seconds >>> 1
  shown : SOSPeerInfoIsRetirementTicket
      ((circle.peers.find? applicant.peerID).getD applicant) = false ∨
    (applicant.data sPublicKeyKey).getD [] = []

/-- The applicant is pruned before it is added, or after. -/
theorem peerKeyOctets_filter_add {peers : SOSPeerInfoSet} {applicant applicant' : SOSPeerInfo}
    (hsame : applicant.SameKey applicant') :
    peerKeyOctets ((peers.filter fun peer => !SOSPeerInfoIsRetirementTicket peer).add applicant') =
        peerKeyOctets
          ((peers.add applicant).filter fun peer => !SOSPeerInfoIsRetirementTicket peer) ↔
      SOSPeerInfoIsRetirementTicket ((peers.find? applicant.peerID).getD applicant) = false ∨
        (applicant.data sPublicKeyKey).getD [] = [] := by
  rw [← hsame.publicKey]
  cases hticket : SOSPeerInfoIsRetirementTicket ((peers.find? applicant.peerID).getD applicant) with
  | false =>
    have hkey : peerKey applicant' = peerKey applicant := by
      rw [peerKey, peerKey, hsame.peerID, hsame.publicKey]
    have hpairs := @map_members_filter_add _ _ _ _ _ peers
      (fun peer => !SOSPeerInfoIsRetirementTicket peer) _ _ hsame.peerID peerKey hkey
      (by simp [hticket])
    simp [peerKeyOctets_congr hpairs]
  | true =>
    have hadded := @members_filter_add _ _ _ _ peers
      (fun peer => !SOSPeerInfoIsRetirementTicket peer) _ _ hsame.peerID (by simp [hticket])
    simp [peerKeyOctets_append hadded]

theorem sameInput_iff (circle : SOSCircle) (user_privkey userkey : κ) (fpi : SOSFullPeerInfo κ)
    (now again later : ClockReading) :
    (sponsoredCircle der dates keys circle userkey fpi.peerInfo again).SameInput
        (joinedCircle der dates keys circle user_privkey
          (SOSGenerationIncrementAndCreate circle.generation now.seconds) fpi later) ↔
      circle.ReadyFor fpi.peerInfo now again := by
  have hsame := @sameKey_applicationVerify der dates _ keys fpi.peerInfo (some userkey)
  have hgeneration : (sponsoredCircle der dates keys circle userkey fpi.peerInfo again).generation =
      SOSGenerationIncrementAndCreate circle.generation again.seconds := by
    rw [sponsoredCircle, SOSCircleGenerationIncrement, generation_preGenerationSign]
    rfl
  have hpeers : (sponsoredCircle der dates keys circle userkey fpi.peerInfo again).peers =
      ((SOSCircleCopyCircle der dates circle).peers.filter fun peer =>
        !SOSPeerInfoIsRetirementTicket peer).add
          (SOSPeerInfoApplicationVerify der dates keys fpi.peerInfo (some userkey)).2 := by
    rw [← peers_preGenerationSign]
    rfl
  by_cases hfull : GenerationFull circle.generation now.seconds
  case pos =>
    -- the generation count is not newer, and nothing is signed
    refine ⟨fun hinput => ?_, fun hready => absurd hfull hready.room⟩
    have hkept : (joinedCircle der dates keys circle user_privkey
        (SOSGenerationIncrementAndCreate circle.generation now.seconds) fpi later).generation =
        circle.generation := by
      have hold : ¬SOSGenerationIsOlder (SOSCircleCopyCircle der dates circle).generation
          (SOSGenerationIncrementAndCreate circle.generation now.seconds) = true :=
        fun holder => (isOlder_incrementAndCreate_iff _ _).mp holder hfull
      rw [joinedCircle, SOSCircleGenerationSignWithGenCount, if_neg hold]
      rfl
    have hoctets := littleEndianOctets_injective hinput.generation
    rw [hgeneration, hkept] at hoctets
    exact absurd hoctets (incrementAndCreate_ne _ _)
  case neg =>
    have holder := (isOlder_incrementAndCreate_iff _ _).mpr hfull
    obtain ⟨hjoined, hjoinedKeys⟩ :=
      @joinedCircle_of_older der dates _ keys _ user_privkey _ holder fpi later
    have hoctets : littleEndianOctets
          (SOSGenerationIncrementAndCreate circle.generation again.seconds) =
        littleEndianOctets (SOSGenerationIncrementAndCreate circle.generation now.seconds) ↔
        (circle.generation.sshiftRight 32 = 0 → again.seconds >>> 1 = now.seconds >>> 1) := by
      rw [← incrementAndCreate_inj]
      exact ⟨littleEndianOctets_injective, congrArg littleEndianOctets⟩
    have hshown := @peerKeyOctets_filter_add (SOSCircleCopyCircle der dates circle).peers _ _ hsame
    rw [← peerKeyOctets_congr hjoinedKeys, ← hpeers, ticket_find?_copyCircle] at hshown
    constructor
    · intro hinput
      have hsameGeneration := hinput.generation
      rw [hgeneration, hjoined] at hsameGeneration
      exact ⟨hfull, hoctets.mp hsameGeneration, hshown.mp hinput.keys⟩
    · intro hready
      refine ⟨?_, hshown.mpr hready.shown⟩
      rw [hgeneration, hjoined]
      exact hoctets.mpr hready.sameTime

/-- A valid peer stays in a circle that another peer signs with the user. -/
theorem signInternal_spec (hkeys : keys.Correct) {circle' : SOSCircle} {peer : SOSPeerInfo}
    {user_privkey userkey : κ} (huser : keys.createPublicFromPrivate user_privkey = some userkey)
    (hvalid : peer.ValidUnder der dates keys userkey)
    (hentry : circle.HasEntry der dates keys peer userkey) (hcount : SOSCircleCountPeers circle ≠ 0)
    {fpi : SOSFullPeerInfo κ} {signer : SOSPeerInfo} (hfpi : fpi.IsOf keys signer)
    {now : ClockReading}
    (hdone : SOSCircleGenerationSign_Internal der dates keys circle user_privkey fpi now =
      .ok circle') :
    circle'.HasEntry der dates keys peer userkey ∧ circle'.CarriesSignature keys userkey := by
  constructor
  · obtain ⟨entry, hfind, hsame, hnot⟩ := hentry.find?
    have hfound := find?_generationSignInternal hcount hdone peer.peerID
    rw [hfind, Option.map_some] at hfound
    refine ⟨_, (mem_of_find? hfound).1, ?_⟩
    rw [signedEntry]
    split
    case isFalse => exact ⟨hsame, hnot⟩
    case isTrue =>
      obtain ⟨hverified, hnot'⟩ := applicationVerify_of_valid hvalid hsame hnot
      simp only [upgradedPeerInfo, huser, hverified, if_true]
      exact ⟨hsame.trans (sameContent_applicationVerify entry _), hnot'⟩
  · rw [SOSCircleGenerationSign_Internal, if_neg hcount] at hdone
    split at hdone
    case h_1 => cases hdone
    case h_2 ourKey hourKey =>
      obtain ⟨pubKey, hpublic, -⟩ := hfpi.deviceKey ourKey hourKey
      obtain ⟨upgraded, -, hdone⟩ := circle_bind_eq_ok hdone
      obtain ⟨signed, husersign, hoursign⟩ := circle_bind_eq_ok hdone
      have hsigned := sign_spec hkeys huser husersign
      exact (sign_spec hkeys hpublic hoursign).keeps hkeys hpublic huser hsigned.carries

theorem joiningBlob_spec {fpi : SOSFullPeerInfo κ} {userkey : κ} {applicant : SOSPeerInfo}
    {now again : ClockReading} {blob : JoiningBlob κ}
    (hblob : SOSAccountCopyCircleJoiningBlob der dates keys circle fpi userkey applicant now again =
      some blob) :
    SOSCircleHasPeer circle fpi.peerInfo = true ∧ fpi.deviceKey = some blob.ourKey ∧
      blob.gencount = SOSGenerationIncrementAndCreate circle.generation now.seconds ∧
      keys.rawSign blob.ourKey (SOSCircleHash keys
        (sponsoredCircle der dates keys circle userkey applicant again)) = some blob.signature := by
  simp only [SOSAccountCopyCircleJoiningBlob] at hblob
  split at hblob
  case isFalse => cases hblob
  case isTrue hstatus =>
    split at hblob
    case isFalse => cases hblob
    case isTrue =>
      simp only [Option.bind_eq_bind, Option.bind_eq_some_iff, Option.some.injEq] at hblob
      obtain ⟨ourKey, hourKey, signature, hsignature, rfl⟩ := hblob
      refine ⟨?_, hourKey, ?_, hsignature⟩
      · simp only [thisDeviceStatusInCircle] at hstatus
        split_ifs at hstatus with _ _ hpeer
        exact hpeer
      · rw [generation_preGenerationSign]
        rfl

theorem isHiddenPeer_sponsor {peer : SOSPeerInfo} (hpeer : peer ∈ circle.peers.members)
    {sponsor : SOSFullPeerInfo κ} (hsponsor : sponsor.IsOf keys peer)
    (hshown : SOSCircleHasPeer circle sponsor.peerInfo = true) : isHiddenPeer peer = false := by
  have hfind : circle.peers.find? sponsor.peerInfo.peerID = some peer := by
    rw [hsponsor.peerID]
    exact find?_key hpeer
  rw [hasPeer_of_find? hfind, Bool.not_eq_true'] at hshown
  exact hshown

theorem signedByJoiner_spec (hkeys : keys.Correct) {signed : SOSCircle} {peer : SOSPeerInfo}
    {user_privkey userkey : κ} (huser : keys.createPublicFromPrivate user_privkey = some userkey)
    (hpeer : circle.HasApprover der dates keys userkey peer) (hvisible : isHiddenPeer peer = false)
    {joiner : SOSFullPeerInfo κ} (hjoiner : joiner.IsOf keys joiner.peerInfo)
    {gencount : SOSGenCount} {later : ClockReading}
    (hsigned : SOSCircleGenerationSignWithGenCount der dates keys
      { SOSCircleCopyCircle der dates circle with
        peers := (SOSCircleCopyCircle der dates circle).peers.add joiner.peerInfo }
      user_privkey joiner gencount later = .ok signed) :
    signed.generation = gencount ∧ signed.HasEntry der dates keys peer userkey ∧
      signed.CarriesSignature keys userkey := by
  rw [SOSCircleGenerationSignWithGenCount] at hsigned
  split at hsigned
  case isFalse => cases hsigned
  case isTrue =>
    have hcopy : (SOSCircleCopyCircle der dates circle).HasEntry der dates keys peer userkey :=
      .copyCircle (hkeys.hasID huser) ⟨peer, hpeer.active, .refl peer⟩
    have hadded : SOSCircle.Kept der dates keys peer userkey (SOSCircleCopyCircle der dates circle)
        { SOSCircleCopyCircle der dates circle with
          peers := (SOSCircleCopyCircle der dates circle).peers.add joiner.peerInfo } :=
      SOSCircle.Kept.of_subset ⟨rfl, hcopy⟩ rfl fun _ hentry _ =>
        mem_members_add.mpr (Or.inl hentry)
    have hpruned := (hadded.preGenerationSign hpeer.notRetired (some user_privkey)).entry
    obtain ⟨next, hgeneration, hentry, hsigned⟩ : ∃ next : SOSCircle,
        next.generation = gencount ∧ next.HasEntry der dates keys peer userkey ∧
        SOSCircleGenerationSign_Internal der dates keys next user_privkey joiner later =
          .ok signed :=
      ⟨{ SOSCirclePreGenerationSign der dates keys
          { SOSCircleCopyCircle der dates circle with
            peers := (SOSCircleCopyCircle der dates circle).peers.add joiner.peerInfo }
          (some user_privkey) with generation := gencount }, rfl, hpruned, hsigned⟩
    have hcount : SOSCircleCountPeers next ≠ 0 := by
      intro hnone
      obtain ⟨entry, hmem, hsame, -⟩ := hentry
      have hhidden := isHiddenPeer_of_countPeers hnone hmem
      rw [hsame.isHiddenPeer_eq, hvisible] at hhidden
      cases hhidden
    have hafter := @generation_signInternal der dates _ keys next user_privkey joiner later
    rw [hsigned] at hafter
    exact ⟨hafter.trans hgeneration,
      signInternal_spec hkeys huser hpeer.valid hentry hcount hjoiner hsigned⟩

/-- The sponsor and the applicant sign the same just where the circle is ready for the applicant;
then the signature of the sponsor is accepted, and the circle is trusted by all who hold the old
one, also as they receive it. -/
theorem joining_agreement (hkeys : keys.Correct) {circle : SOSCircle} {peer : SOSPeerInfo}
    {user_privkey userkey : κ} (huser : keys.createPublicFromPrivate user_privkey = some userkey)
    (hpeer : circle.HasApprover der dates keys userkey peer) {sponsor : SOSFullPeerInfo κ}
    (hsponsor : sponsor.IsOf keys peer) {joiner : SOSFullPeerInfo κ}
    (hjoiner : joiner.IsOf keys joiner.peerInfo) {now again : ClockReading} {blob : JoiningBlob κ}
    (hblob : SOSAccountCopyCircleJoiningBlob der dates keys circle sponsor userkey joiner.peerInfo
      now again = some blob) (later : ClockReading) :
    ((sponsoredCircle der dates keys circle userkey joiner.peerInfo again).SameInput
        (joinedCircle der dates keys circle user_privkey blob.gencount joiner later) ↔
      circle.ReadyFor joiner.peerInfo now again) ∧
    (circle.ReadyFor joiner.peerInfo now again →
      ∀ signed, SOSCircleGenerationSignWithGenCount der dates keys
          { SOSCircleCopyCircle der dates circle with
            peers := (SOSCircleCopyCircle der dates circle).peers.add joiner.peerInfo }
          user_privkey joiner blob.gencount later = .ok signed →
        ∀ pPubKey, keys.createPublicFromPrivate blob.ourKey = some pPubKey →
          ∃ circle', SOSCircleAcceptPeerFromHSA2 der dates keys
              (SOSCircleCopyCircle der dates circle) user_privkey blob.gencount pPubKey
              blob.signature joiner later = .ok circle' ∧ ∀ me,
            (SOSCircleConcordanceTrust der dates keys circle circle' (some userkey) me).1 =
                .trusted ∧
              (SOSCircleConcordanceTrust der dates keys circle
                (SOSCircleCopyCircle der dates circle') (some userkey) me).1 = .trusted) := by
  obtain ⟨hshown, hourKey, hgencount, hsignature⟩ := joiningBlob_spec hblob
  rw [hgencount]
  have hiff := @sameInput_iff der dates _ keys circle user_privkey userkey joiner now again later
  refine ⟨hiff, ?_⟩
  intro hready signed hsigned pPubKey hpPubKey
  have hvisible := isHiddenPeer_sponsor hpeer.active hsponsor hshown
  obtain ⟨hgeneration, hentry, hcarriesUser⟩ :=
    signedByJoiner_spec hkeys huser hpeer hvisible hjoiner hsigned
  have hinput := hiff.mpr hready
  rw [joinedCircle, hsigned, circleAfter] at hinput
  have hverify : keys.rawVerify pPubKey (SOSCircleHash keys signed) blob.signature = true := by
    rw [← hinput.hash_eq]
    exact hkeys.verify hpPubKey hsignature
  obtain ⟨circle', hset⟩ : ∃ circle',
      SOSCircleSetSignature keys signed pPubKey blob.signature = .ok circle' := by
    obtain ⟨id, hID⟩ := Option.isSome_iff_exists.mp (hkeys.hasID hpPubKey)
    rw [SOSCircleSetSignature, hID]
    exact ⟨_, rfl⟩
  have hput := setSignature_spec rfl hverify hset
  refine ⟨circle', ?_, ?_⟩
  · have hverified : SOSCircleVerify keys circle' pPubKey = true := verify_iff.mpr hput.carries
    rw [SOSCircleAcceptPeerFromHSA2]
    change (SOSCircleGenerationSignWithGenCount der dates keys _ user_privkey joiner _ later >>=
      _) = _
    rw [hsigned]
    change (SOSCircleSetSignature keys signed pPubKey blob.signature >>= _) = _
    rw [hset]
    change (if SOSCircleVerify keys circle' pPubKey = true then _ else _) = _
    rw [if_pos hverified]
  · have hnext : circle.SignedNext der dates keys peer userkey now circle' := by
      obtain ⟨pubKey, hpublic, hpubKey⟩ := hsponsor.deviceKey _ hourKey
      cases hpublic.symm.trans hpPubKey
      refine ⟨?_, ?_, Or.inr ⟨pPubKey, hpubKey, ?_, hput.carries⟩⟩
      · rw [hput.eq]
        exact hgeneration
      · rw [hput.eq]
        exact hentry
      · exact hput.keeps hkeys hpPubKey huser hcarriesUser
    have hroom : (generationBase circle.generation now.seconds).toInt < 2 ^ 63 - 1 := by
      have hlast := (generationBase_full_iff circle.generation now.seconds).not.mpr hready.room
      have hupper := BitVec.toInt_lt (x := generationBase circle.generation now.seconds)
      omega
    intro me
    exact ⟨hnext.trusted hpeer.valid hpeer.active (Or.inl hvisible) hroom me,
      (hnext.copyCircle (hkeys.hasID huser)).trusted hpeer.valid hpeer.active (Or.inl hvisible)
        hroom me⟩
end

def sampleJoiner : SOSFullPeerInfo (List UInt8) := ⟨plainApprover [] [3], some [3]⟩

theorem sampleJoiner_isOf : sampleJoiner.IsOf plainKeys sampleJoiner.peerInfo := by
  refine ⟨rfl, ?_⟩
  intro deviceKey hdeviceKey
  cases hdeviceKey
  exact ⟨[3], rfl, rfl⟩

theorem joiningBlob_sample {circle : SOSCircle}
    (hstatus : thisDeviceStatusInCircle circle (plainApprover [] [1]) = .kSOSCCInCircle) :
    ∃ blob, SOSAccountCopyCircleJoiningBlob Standard.primitives firstMonthDoubles plainKeys circle
      (sampleApprover []) plainUser sampleJoiner.peerInfo epoch epoch = some blob := by
  have hverify := (applicationVerify_of_valid (plainApprover_valid (Or.inl rfl) [3])
    (.refl _) fun h => nomatch h).1
  simp only [SOSAccountCopyCircleJoiningBlob, sampleApprover, sampleJoiner, hstatus, hverify,
    if_true]
  exact ⟨_, rfl⟩

theorem joining_agreement_sample :
    (sponsoredCircle Standard.primitives firstMonthDoubles plainKeys
        (signedByBoth (sampleCircle 0x100000001 [])) plainUser sampleJoiner.peerInfo
        epoch).SameInput
      (joinedCircle Standard.primitives firstMonthDoubles plainKeys
        (signedByBoth (sampleCircle 0x100000001 [])) plainUser 0x100000002 sampleJoiner epoch) := by
  obtain ⟨blob, hblob⟩ := @joiningBlob_sample (signedByBoth (sampleCircle 0x100000001 [])) rfl
  have hgencount : blob.gencount = 0x100000002 := (joiningBlob_spec hblob).2.2.1.trans (by decide)
  rw [← hgencount]
  exact (joining_agreement plainKeys_correct rfl (hasApprover_sample 0x100000001 (Or.inl rfl))
    (sampleApprover_isOf []) sampleJoiner_isOf hblob epoch).1.mpr ⟨by decide, fun _ => rfl, Or.inl rfl⟩

def ticketSample : SOSCircle :=
  { sampleCircle 0x100000001 [] with
    peers := ⟨[plainApprover [] [1], plainApprover [(.string sRetirementDate, .data [])] [3]], by
      change [[(1 : UInt16)], [3]].Nodup
      decide⟩ }

/-- The sponsor prunes the ticket before it adds the joiner, and the joiner after. -/
theorem joining_behind_ticket :
    ∃ blob, SOSAccountCopyCircleJoiningBlob Standard.primitives firstMonthDoubles plainKeys
        ticketSample (sampleApprover []) plainUser sampleJoiner.peerInfo epoch epoch = some blob ∧
      ¬(sponsoredCircle Standard.primitives firstMonthDoubles plainKeys ticketSample plainUser
          sampleJoiner.peerInfo epoch).SameInput
        (joinedCircle Standard.primitives firstMonthDoubles plainKeys ticketSample plainUser
          blob.gencount sampleJoiner epoch) ∧
      ∀ pPubKey circle', SOSCircleAcceptPeerFromHSA2 Standard.primitives firstMonthDoubles plainKeys
        (SOSCircleCopyCircle Standard.primitives firstMonthDoubles ticketSample) plainUser
        blob.gencount pPubKey blob.signature sampleJoiner epoch ≠ .ok circle' := by
  obtain ⟨blob, hblob⟩ := @joiningBlob_sample ticketSample rfl
  have hgencount : blob.gencount = 0x100000002 := (joiningBlob_spec hblob).2.2.1.trans (by decide)
  refine ⟨blob, hblob, ?_, ?_⟩
  · rw [(joiningBlob_spec hblob).2.2.1, sameInput_iff]
    intro hready
    rcases hready.shown with hticket | hnoKey
    · cases hticket
    · cases hnoKey
  · intro pPubKey circle' haccept
    rw [hgencount] at haccept
    obtain ⟨signed, hsigned, -⟩ := circle_bind_eq_ok haccept
    cases hsigned
end SecurityFramework
