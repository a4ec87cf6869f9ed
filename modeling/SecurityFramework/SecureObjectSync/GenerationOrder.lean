import SecurityFramework.SecureObjectSync.CircleInvariant
import SecurityFramework.SecureObjectSync.Ring

/-! # Generations do not go back -/

namespace SecurityFramework
open DER

/-- There is no newer number, or the count is full and the time put in is the last one. -/
def GenerationFull (gen : SOSGenCount) (seconds : BitVec 32) : Prop :=
  gen.toInt = 2 ^ 63 - 1 ∨ gen.toInt = 2 ^ 32 - 1 ∧ 2 ^ 32 - 2 ≤ seconds.toNat

instance (gen : SOSGenCount) (seconds : BitVec 32) : Decidable (GenerationFull gen seconds) :=
  inferInstanceAs (Decidable (_ ∨ _))

theorem sshiftRight_eq_zero {gen : SOSGenCount} (hlow : gen.toNat < 2 ^ 32) :
    gen.sshiftRight 32 = 0 := by
  apply BitVec.eq_of_toInt_eq
  rw [BitVec.toInt_sshiftRight, Int.shiftRight_eq_div_pow,
    BitVec.toInt_eq_toNat_of_lt (by omega)]
  have hzero : ((gen.toNat : Int) / ((2 ^ 32 : Nat) : Int)) = 0 := by omega
  rw [hzero]
  rfl

theorem generationBase_full_iff (gen : SOSGenCount) (seconds : BitVec 32) :
    (generationBase gen seconds).toInt = 2 ^ 63 - 1 ↔ GenerationFull gen seconds := by
  have hseconds := seconds.isLt
  rw [generationBase]
  split
  case isTrue hnone =>
    have hlow := toNat_lt_of_sshiftRight hnone
    have hvalue := toNat_sosGenerationSetHighBits hlow seconds
    rw [toNat_highBits] at hvalue
    have hgen : gen.toInt = gen.toNat := BitVec.toInt_eq_toNat_of_lt (by omega)
    rw [BitVec.toInt_eq_toNat_of_lt (by omega), GenerationFull, hgen, hvalue]
    omega
  case isFalse htime =>
    have hhigh : ¬gen.toInt = 2 ^ 32 - 1 := by
      intro hgen
      have hcond := BitVec.toInt_eq_toNat_cond gen
      have hlt := gen.isLt
      exact htime (sshiftRight_eq_zero (by split at hcond <;> omega))
    rw [GenerationFull]
    tauto

theorem isOlder_incrementAndCreate_iff (gen : SOSGenCount) (seconds : BitVec 32) :
    SOSGenerationIsOlder gen (SOSGenerationIncrementAndCreate gen seconds) = true ↔
      ¬GenerationFull gen seconds := by
  rw [← generationBase_full_iff]
  have hupper := BitVec.toInt_lt (x := generationBase gen seconds)
  constructor
  · intro holder hfull
    have hbase : generationBase gen seconds = BitVec.intMax 64 := BitVec.eq_of_toInt_eq hfull
    rw [SOSGenerationIsOlder, incrementAndCreate_eq, hbase, BitVec.slt_iff_toInt_lt] at holder
    have hlow := BitVec.le_toInt gen
    have hnext : (BitVec.intMax 64 + 1).toInt = -2 ^ 63 := by decide
    rw [hnext] at holder
    omega
  · intro hroom
    exact isOlder_incrementAndCreate (by omega)

theorem createWithBaseline_older_iff (reference : SOSGenCount) (seconds again : BitVec 32) :
    SOSGenerationIsOlder reference
        (SOSGenerationCreateWithBaseline reference seconds again) = true ↔
      (SOSGenerationIsOlderOrEqual (SOSGenerationCreate seconds) reference = true →
        ¬GenerationFull reference again) := by
  simp only [SOSGenerationCreateWithBaseline]
  split
  case isTrue hle =>
    rw [isOlder_incrementAndCreate_iff]
    exact ⟨fun h _ => h, fun h => h hle⟩
  case isFalse hgt =>
    refine ⟨fun _ h => absurd h hgt, fun _ => ?_⟩
    rw [SOSGenerationIsOlderOrEqual, BitVec.sle_iff_toInt_le] at hgt
    rw [SOSGenerationIsOlder, BitVec.slt_iff_toInt_lt]
    omega

theorem isOlder_le {older newer : SOSGenCount} (h : SOSGenerationIsOlder older newer = true) :
    older.toInt ≤ newer.toInt := by
  rw [SOSGenerationIsOlder, BitVec.slt_iff_toInt_lt] at h
  exact h.le

def nextGenerations (gen : SOSGenCount) (readings : List (BitVec 32)) : SOSGenCount :=
  readings.foldl SOSGenerationIncrementAndCreate gen

def GenerationFits : SOSGenCount → List (BitVec 32) → Prop
  | _, [] => True
  | gen, seconds :: readings =>
    ¬GenerationFull gen seconds ∧
      GenerationFits (SOSGenerationIncrementAndCreate gen seconds) readings

theorem le_nextGenerations {gen : SOSGenCount} {readings : List (BitVec 32)}
    (hfits : GenerationFits gen readings) : gen.toInt ≤ (nextGenerations gen readings).toInt := by
  induction readings generalizing gen with
  | nil => exact Int.le_refl _
  | cons seconds readings ih =>
    exact (isOlder_le ((isOlder_incrementAndCreate_iff gen seconds).mpr hfits.1)).trans (ih hfits.2)

section Circles

variable {der : Primitives} {dates : DateSystem} {κ : Type} {keys : SecKeys κ}

theorem generation_foldl {operation : SOSCircle → SOSPeerInfo → SOSCircle}
    (hoperation : ∀ circle pi, (operation circle pi).generation = circle.generation)
    (applicants : List SOSPeerInfo) (circle : SOSCircle) :
    (applicants.foldl operation circle).generation = circle.generation := by
  induction applicants generalizing circle with
  | nil => rfl
  | cons pi applicants ih => exact (ih _).trans (hoperation circle pi)

theorem generation_rejectNonValidApplicant (pubkey : Option κ) (circle : SOSCircle)
    (pi : SOSPeerInfo) :
    (rejectNonValidApplicant der dates keys pubkey circle pi).generation = circle.generation := by
  simp only [rejectNonValidApplicant]
  split <;> rfl

theorem generation_preGenerationSign (circle : SOSCircle) (userPubKey : Option κ) :
    (SOSCirclePreGenerationSign der dates keys circle userPubKey).generation =
      circle.generation :=
  generation_foldl (generation_rejectNonValidApplicant userPubKey) _ _

theorem generation_setSignature (circle : SOSCircle) (pubkey : κ) (signature : List UInt8) :
    (circleAfter (SOSCircleSetSignature keys circle pubkey signature)).generation =
      circle.generation := by
  rw [SOSCircleSetSignature]
  split <;> rfl

theorem generation_sign (circle : SOSCircle) (privKey : κ) :
    (circleAfter (SOSCircleSign keys circle privKey)).generation = circle.generation := by
  rw [SOSCircleSign]
  split
  · exact generation_setSignature _ _ _
  · rfl

theorem generation_updatePeerInfo (circle : SOSCircle) (replacement : SOSPeerInfo) :
    (circleAfter (SOSCircleUpdatePeerInfo circle replacement)).generation = circle.generation := by
  rw [SOSCircleUpdatePeerInfo]
  split
  · rfl
  · split
    · rfl
    · split <;> rfl

theorem generation_upgradePeerInfo (circle : SOSCircle) (user_approver : κ)
    (peerinfo : SOSFullPeerInfo κ) (now : ClockReading) :
    (circleAfter
      (SOSCircleUpgradePeerInfo der dates keys circle user_approver peerinfo now)).generation =
      circle.generation := by
  rw [SOSCircleUpgradePeerInfo]
  split
  case h_1 => rfl
  case h_2 =>
    simp only
    split
    · rfl
    · rw [resignPeerInfo]
      split
      · rfl
      · split
        · rfl
        · exact generation_updatePeerInfo _ _

theorem generation_signInternal (circle : SOSCircle) (userKey : κ) (fpi : SOSFullPeerInfo κ)
    (now : ClockReading) :
    (circleAfter
      (SOSCircleGenerationSign_Internal der dates keys circle userKey fpi now)).generation =
      circle.generation := by
  rw [SOSCircleGenerationSign_Internal]
  split
  · rfl
  · split
    · rfl
    · refine circle_bind (P := fun next => next.generation = circle.generation)
        (generation_upgradePeerInfo _ _ _ _) fun upgraded hupgraded => ?_
      refine circle_bind (P := fun next => next.generation = circle.generation)
        ((generation_sign _ _).trans hupgraded) fun signed hsigned => ?_
      exact (generation_sign _ _).trans hsigned

theorem generation_generationSign (circle : SOSCircle) (userKey : κ) (fpi : SOSFullPeerInfo κ)
    (now : ClockReading) :
    (circleAfter (SOSCircleGenerationSign der dates keys circle userKey fpi now)).generation =
      SOSGenerationIncrementAndCreate circle.generation now.seconds := by
  refine (generation_signInternal _ _ _ _).trans ?_
  rw [SOSCircleGenerationIncrement, generation_preGenerationSign]

/-- The generation of the circle is still the given one, or the next. -/
def CountsOnce (gen : SOSGenCount) (seconds : BitVec 32) (circle : SOSCircle) : Prop :=
  circle.generation = gen ∨ circle.generation = SOSGenerationIncrementAndCreate gen seconds

theorem CountsOnce.le {gen : SOSGenCount} {seconds : BitVec 32} {circle : SOSCircle}
    (h : CountsOnce gen seconds circle) (hroom : ¬GenerationFull gen seconds) :
    gen.toInt ≤ circle.generation.toInt := by
  rcases h with hkept | hcounted
  · rw [hkept]
  · rw [hcounted]
    exact isOlder_le ((isOlder_incrementAndCreate_iff gen seconds).mpr hroom)

theorem generation_acceptRequest (circle : SOSCircle) (user_privkey : κ)
    (device_approver : SOSFullPeerInfo κ) (peerInfo : SOSPeerInfo) (now : ClockReading) :
    CountsOnce circle.generation now.seconds
      (circleAfter (SOSCircleAcceptRequest der dates keys circle user_privkey device_approver
        peerInfo now)) := by
  simp only [SOSCircleAcceptRequest]
  split
  · split
    · exact .inr (generation_generationSign _ _ _ _)
    · exact .inl rfl
  · exact .inl rfl

theorem circleAfter_acceptApplicant (user_privkey : κ) (device_approver : SOSFullPeerInfo κ)
    (now : CFString → ClockReading) (state : Bool × SOSCircle) (peer : SOSPeerInfo) :
    (acceptApplicant der dates keys user_privkey device_approver now state peer).2 =
      circleAfter (SOSCircleAcceptRequest der dates keys state.2 user_privkey device_approver peer
        (now peer.peerID)) := by
  rw [acceptApplicant]
  split
  case h_1 haccept => rw [haccept]; rfl
  case h_2 haccept => rw [haccept]; rfl

theorem generation_acceptApplicants (user_privkey : κ) (device_approver : SOSFullPeerInfo κ)
    (now : CFString → ClockReading) (applicants : List SOSPeerInfo) (state : Bool × SOSCircle) :
    ∃ readings, readings.Sublist (applicants.map fun peer => (now peer.peerID).seconds) ∧
      (applicants.foldl (acceptApplicant der dates keys user_privkey device_approver now)
        state).2.generation = nextGenerations state.2.generation readings := by
  induction applicants generalizing state with
  | nil => exact ⟨[], .slnil, rfl⟩
  | cons peer applicants ih =>
    obtain ⟨readings, hreadings, hgeneration⟩ :=
      ih (acceptApplicant der dates keys user_privkey device_approver now state peer)
    rw [circleAfter_acceptApplicant] at hgeneration
    rcases generation_acceptRequest state.2 user_privkey device_approver peer
        (now peer.peerID) with hkept | hcounted
    · rw [hkept] at hgeneration
      exact ⟨readings, hreadings.cons _, hgeneration⟩
    · rw [hcounted] at hgeneration
      exact ⟨_ :: readings, hreadings.cons_cons _, hgeneration⟩

theorem generation_rejectRequest (circle : SOSCircle) (device_rejector : SOSFullPeerInfo κ)
    (peerInfo : SOSPeerInfo) :
    (circleAfter (SOSCircleRejectRequest circle device_rejector peerInfo)).generation =
      circle.generation := by
  rw [SOSCircleRejectRequest]
  split
  · rfl
  · split <;> rfl

theorem generation_removePeerInternal (circle : SOSCircle) (requestor : SOSFullPeerInfo κ)
    (removed : SOSPeerInfo) :
    (circleAfter (SOSCircleRemovePeerInternal circle requestor removed)).generation =
      circle.generation := by
  have hremoved : (if SOSCircleHasPeer circle removed then
      { circle with peers := circle.peers.remove removed.peerID } else circle).generation =
      circle.generation := by split <;> rfl
  simp only [SOSCircleRemovePeerInternal]
  split
  · rfl
  · generalize (if SOSCircleHasPeer circle removed then
      { circle with peers := circle.peers.remove removed.peerID } else circle) = next at hremoved ⊢
    split
    · exact (generation_rejectRequest _ _ _).trans hremoved
    · exact hremoved

theorem generation_forEachItem {α : Type} {operation : SOSCircle → α → CircleOutcome}
    (hoperation : ∀ circle item,
      (circleAfter (operation circle item)).generation = circle.generation)
    (items : List α) (circle : SOSCircle) :
    (circleAfter (forEachItem operation items circle)).generation = circle.generation := by
  induction items generalizing circle with
  | nil => rfl
  | cons item items ih =>
    have hitem := hoperation circle item
    rw [forEachItem]
    split
    case h_1 next hdone =>
      rw [hdone] at hitem
      exact (ih next).trans hitem
    case h_2 next hdone =>
      rw [hdone] at hitem
      have hrest := (ih next).trans hitem
      split
      all_goals
        rename_i hlater
        rw [hlater] at hrest
        exact hrest

variable {circle : SOSCircle}

theorem generation_bind_generationSign {outcome : CircleOutcome}
    (houtcome : (circleAfter outcome).generation = circle.generation) (userKey : κ)
    (fpi : SOSFullPeerInfo κ) (now : ClockReading) :
    CountsOnce circle.generation now.seconds (circleAfter (outcome >>= fun next =>
      SOSCircleGenerationSign der dates keys next userKey fpi now)) := by
  cases outcome with
  | error next => exact .inl houtcome
  | ok next =>
    refine .inr ?_
    rw [← houtcome]
    exact generation_generationSign _ _ _ _

theorem generation_removePeers (circle : SOSCircle) (user_privkey : κ)
    (requestor : SOSFullPeerInfo κ) (peersToRemove : List SOSPeerInfo) (now : ClockReading) :
    CountsOnce circle.generation now.seconds
      (circleAfter (SOSCircleRemovePeers der dates keys circle user_privkey requestor peersToRemove
        now)) :=
  generation_bind_generationSign (generation_forEachItem
    (fun circle peerInfo => generation_removePeerInternal circle requestor peerInfo) _ _) _ _ _

theorem generation_removePeersByID (circle : SOSCircle) (user_privkey : κ)
    (requestor : SOSFullPeerInfo κ) (peersToRemove : List CFString) (now : ClockReading) :
    CountsOnce circle.generation now.seconds
      (circleAfter (SOSCircleRemovePeersByID der dates keys circle user_privkey requestor
        peersToRemove now)) := by
  apply generation_bind_generationSign
  apply generation_forEachItem
  intro circle peerID
  rw [removePeerByID]
  split
  · exact generation_removePeerInternal _ _ _
  · rfl

theorem generation_recordAdmissionRequest (circle : SOSCircle) (requestor : SOSPeerInfo) :
    (circleAfter (SOSCircleRecordAdmissionRequest circle requestor)).generation =
      circle.generation := by
  rw [SOSCircleRecordAdmissionRequest]
  split <;> rfl

theorem generation_requestReadmission (circle : SOSCircle) (user_pubkey : Option κ)
    (peer : SOSPeerInfo) :
    (circleAfter (SOSCircleRequestReadmission der dates keys circle user_pubkey peer)).generation =
      circle.generation := by
  simp only [SOSCircleRequestReadmission]
  split
  · exact generation_recordAdmissionRequest _ _
  · rfl

def circleRequested {α : Type} : Except SOSCircle (SOSCircle × α) → SOSCircle
  | .ok (circle, _) => circle
  | .error circle => circle

theorem generation_requestAdmission (circle : SOSCircle) (user_privkey : κ)
    (requestor : SOSFullPeerInfo κ) (now : ClockReading) :
    (circleRequested
      (SOSCircleRequestAdmission der dates keys circle user_privkey requestor now)).generation =
      circle.generation := by
  rw [SOSCircleRequestAdmission]
  split
  case h_1 => rfl
  case h_2 =>
    split
    case h_1 => rfl
    case h_2 promoted _ =>
      have hrecord := generation_recordAdmissionRequest circle promoted.peerInfo
      cases hdone : SOSCircleRecordAdmissionRequest circle promoted.peerInfo <;>
      · rw [hdone] at hrecord
        exact hrecord

theorem generation_resetToOffering (circle : SOSCircle) (user_privkey : κ)
    (requestor : SOSFullPeerInfo κ) (now again later : ClockReading) :
    CountsOnce (SOSCircleResetToEmpty circle now again).generation later.seconds
      (circleAfter (SOSCircleResetToOffering der dates keys circle user_privkey requestor now again
        later)) := by
  have hrequest := @generation_requestAdmission der dates κ keys
    (SOSCircleResetToEmpty circle now again) user_privkey requestor now
  simp only [SOSCircleResetToOffering]
  cases hdone : SOSCircleRequestAdmission der dates keys (SOSCircleResetToEmpty circle now again)
      user_privkey requestor now with
  | error next =>
    rw [hdone] at hrequest
    exact .inl hrequest
  | ok result =>
    obtain ⟨next, promoted⟩ := result
    rw [hdone] at hrequest
    rw [← show next.generation = _ from hrequest]
    exact generation_acceptRequest next user_privkey promoted promoted.peerInfo later

theorem generation_peerSigUpdate (circle : SOSCircle) (userPrivKey : κ)
    (fpi : SOSFullPeerInfo κ) (now : ClockReading) :
    CountsOnce circle.generation now.seconds
      (circleAfter (SOSCirclePeerSigUpdate der dates keys circle userPrivKey fpi now)) := by
  have hrejected : (circle.applicants.members.foldl (rejectMismatchedApplicant der dates keys
      (keys.createPublicFromPrivate userPrivKey) fpi) circle).generation = circle.generation := by
    apply generation_foldl
    intro circle pi
    simp only [rejectMismatchedApplicant]
    split
    · rfl
    · exact generation_rejectRequest _ _ _
  simp only [SOSCirclePeerSigUpdate]
  generalize circle.applicants.members.foldl (rejectMismatchedApplicant der dates keys
    (keys.createPublicFromPrivate userPrivKey) fpi) circle = rejected at hrejected ⊢
  have hupdate := (generation_updatePeerInfo rejected fpi.peerInfo).trans hrejected
  cases hdone : SOSCircleUpdatePeerInfo rejected fpi.peerInfo with
  | error next =>
    rw [hdone] at hupdate
    exact .inl hupdate
  | ok next =>
    rw [hdone] at hupdate
    refine .inr ?_
    rw [← show next.generation = _ from hupdate]
    exact generation_generationSign next userPrivKey fpi now

theorem le_generationSignWithGenCount (circle : SOSCircle) (userKey : κ)
    (fpi : SOSFullPeerInfo κ) (gencount : SOSGenCount) (now : ClockReading) :
    circle.generation.toInt ≤ (circleAfter (SOSCircleGenerationSignWithGenCount der dates keys
      circle userKey fpi gencount now)).generation.toInt := by
  simp only [SOSCircleGenerationSignWithGenCount]
  split
  case isTrue holder =>
    rw [generation_signInternal]
    exact isOlder_le holder
  case isFalse => exact Int.le_refl _

theorem generation_acceptPeerFromHSA2 (circle : SOSCircle) (userKey : κ) (gencount : SOSGenCount)
    (pPubKey : κ) (signature : List UInt8) (fpi : SOSFullPeerInfo κ) (now : ClockReading) :
    circle.generation.toInt ≤ (circleAfter (SOSCircleAcceptPeerFromHSA2 der dates keys circle
      userKey gencount pPubKey signature fpi now)).generation.toInt := by
  refine circle_bind
    (P := fun next : SOSCircle => circle.generation.toInt ≤ next.generation.toInt) ?_
    fun signed hsigned => ?_
  · exact le_generationSignWithGenCount { circle with peers := circle.peers.add fpi.peerInfo }
      userKey fpi gencount now
  · refine circle_bind
      (P := fun next : SOSCircle => circle.generation.toInt ≤ next.generation.toInt) ?_
      fun counted hcounted => ?_
    · rw [generation_setSignature]
      exact hsigned
    · split <;> exact hcounted

variable (der dates keys) in
def CircleStep.after (circle : SOSCircle) : CircleStep κ → SOSCircle
  | .requestAdmission user_privkey requestor now =>
    circleRequested
      (SOSCircleRequestAdmission der dates keys circle user_privkey requestor now)
  | .requestReadmission user_pubkey peer =>
    circleAfter (SOSCircleRequestReadmission der dates keys circle user_pubkey peer)
  | .acceptRequest user_privkey device_approver peerInfo now =>
    circleAfter
      (SOSCircleAcceptRequest der dates keys circle user_privkey device_approver peerInfo now)
  | .acceptRequests user_privkey device_approver now last =>
    circleAfter
      (SOSCircleAcceptRequests der dates keys circle user_privkey device_approver now last)
  | .rejectRequest device_rejector peerInfo =>
    circleAfter (SOSCircleRejectRequest circle device_rejector peerInfo)
  | .withdrawRequest peerInfo => SOSCircleWithdrawRequest circle peerInfo
  | .removePeers user_privkey requestor peersToRemove now =>
    circleAfter
      (SOSCircleRemovePeers der dates keys circle user_privkey requestor peersToRemove now)
  | .removePeersByID user_privkey requestor peersToRemove now =>
    circleAfter
      (SOSCircleRemovePeersByID der dates keys circle user_privkey requestor peersToRemove now)
  | .resetToOffering user_privkey requestor now again later =>
    circleAfter
      (SOSCircleResetToOffering der dates keys circle user_privkey requestor now again later)
  | .acceptPeerFromHSA2 userKey gencount pPubKey signature fpi now =>
    circleAfter
      (SOSCircleAcceptPeerFromHSA2 der dates keys circle userKey gencount pPubKey signature fpi now)
  | .peerSigUpdate userPrivKey fpi now =>
    circleAfter (SOSCirclePeerSigUpdate der dates keys circle userPrivKey fpi now)

inductive CircleCall (κ : Type) where
  | operation (step : CircleStep κ)
  | generationSign (userKey : κ) (fpi : SOSFullPeerInfo κ) (now : ClockReading)
  | generationSignWithGenCount (userKey : κ) (fpi : SOSFullPeerInfo κ) (gencount : SOSGenCount)
      (now : ClockReading)
  | resetToEmpty (now again : ClockReading)

variable (der dates keys) in
def CircleCall.after (circle : SOSCircle) : CircleCall κ → SOSCircle
  | .operation step => step.after der dates keys circle
  | .generationSign userKey fpi now =>
    circleAfter (SOSCircleGenerationSign der dates keys circle userKey fpi now)
  | .generationSignWithGenCount userKey fpi gencount now =>
    circleAfter
      (SOSCircleGenerationSignWithGenCount der dates keys circle userKey fpi gencount now)
  | .resetToEmpty now again => SOSCircleResetToEmpty circle now again

def BaselineFits (gen : SOSGenCount) (seconds again : BitVec 32) : Prop :=
  SOSGenerationIsOlderOrEqual (SOSGenerationCreate seconds) gen = true →
    ¬GenerationFull gen again

/-- No count that the operation may make finds the generation full, whichever of the applicants are
accepted. -/
def CircleStep.Fits (circle : SOSCircle) : CircleStep κ → Prop
  | .acceptRequest _ _ _ now => ¬GenerationFull circle.generation now.seconds
  | .acceptRequests _ _ now last =>
    ∀ readings : List (BitVec 32),
      readings.Sublist
        (circle.applicants.members.map fun peer => (now peer.peerID).seconds) →
      GenerationFits circle.generation (readings ++ [last.seconds])
  | .removePeers _ _ _ now => ¬GenerationFull circle.generation now.seconds
  | .removePeersByID _ _ _ now => ¬GenerationFull circle.generation now.seconds
  | .resetToOffering _ _ now again later =>
    BaselineFits circle.generation now.seconds again.seconds ∧
      ¬GenerationFull
        (SOSGenerationCreateWithBaseline circle.generation now.seconds again.seconds)
        later.seconds
  | .peerSigUpdate _ _ now => ¬GenerationFull circle.generation now.seconds
  | _ => True

def CircleCall.Fits (circle : SOSCircle) : CircleCall κ → Prop
  | .operation step => step.Fits circle
  | .generationSign _ _ now => ¬GenerationFull circle.generation now.seconds
  | .generationSignWithGenCount _ _ _ _ => True
  | .resetToEmpty now again => BaselineFits circle.generation now.seconds again.seconds

theorem le_resetToEmpty {now again : ClockReading}
    (hfits : BaselineFits circle.generation now.seconds again.seconds) :
    circle.generation.toInt ≤ (SOSCircleResetToEmpty circle now again).generation.toInt :=
  isOlder_le ((createWithBaseline_older_iff _ _ _).mpr hfits)

theorem GenerationFits.of_append {gen : SOSGenCount} {readings more : List (BitVec 32)}
    (h : GenerationFits gen (readings ++ more)) : GenerationFits gen readings := by
  induction readings generalizing gen with
  | nil => trivial
  | cons seconds readings ih => exact ⟨h.1, ih h.2⟩

theorem le_acceptRequests {now : CFString → ClockReading} {last : ClockReading}
    (hfits : ∀ readings : List (BitVec 32),
      readings.Sublist (circle.applicants.members.map fun peer => (now peer.peerID).seconds) →
      GenerationFits circle.generation (readings ++ [last.seconds])) (user_privkey : κ)
    (device_approver : SOSFullPeerInfo κ) :
    circle.generation.toInt ≤ (circleAfter (SOSCircleAcceptRequests der dates keys circle
      user_privkey device_approver now last)).generation.toInt := by
  obtain ⟨readings, hreadings, hgeneration⟩ := @generation_acceptApplicants der dates κ
    keys user_privkey device_approver now circle.applicants.members (false, circle)
  have hall := hfits readings hreadings
  rw [SOSCircleAcceptRequests]
  split
  case h_1 next hdone =>
    rw [hdone] at hgeneration
    refine (le_nextGenerations hall).trans (le_of_eq (congrArg _ ?_))
    refine Eq.trans ?_ (generation_generationSign next user_privkey device_approver last).symm
    rw [hgeneration, nextGenerations, List.foldl_append]
    rfl
  case h_2 next hdone =>
    rw [hdone] at hgeneration
    exact (le_nextGenerations hall.of_append).trans (le_of_eq (congrArg _ hgeneration.symm))

theorem CircleStep.le_after {step : CircleStep κ} (hfits : step.Fits circle) :
    circle.generation.toInt ≤ (step.after der dates keys circle).generation.toInt := by
  cases step with
  | requestAdmission user_privkey requestor now =>
    exact (congrArg _ (generation_requestAdmission _ _ _ _)).ge
  | requestReadmission user_pubkey peer =>
    exact (congrArg _ (generation_requestReadmission _ _ _)).ge
  | acceptRequest user_privkey device_approver peerInfo now =>
    exact (generation_acceptRequest _ _ _ _ _).le hfits
  | acceptRequests user_privkey device_approver now last => exact le_acceptRequests hfits _ _
  | rejectRequest device_rejector peerInfo =>
    exact (congrArg _ (generation_rejectRequest _ _ _)).ge
  | withdrawRequest peerInfo => exact Int.le_refl _
  | removePeers user_privkey requestor peersToRemove now =>
    exact (generation_removePeers _ _ _ _ _).le hfits
  | removePeersByID user_privkey requestor peersToRemove now =>
    exact (generation_removePeersByID _ _ _ _ _).le hfits
  | resetToOffering user_privkey requestor now again later =>
    exact (le_resetToEmpty hfits.1).trans ((generation_resetToOffering _ _ _ _ _ _).le hfits.2)
  | acceptPeerFromHSA2 userKey gencount pPubKey signature fpi now =>
    exact generation_acceptPeerFromHSA2 _ _ _ _ _ _ _
  | peerSigUpdate userPrivKey fpi now => exact (generation_peerSigUpdate _ _ _ _).le hfits

theorem CircleCall.le_after {call : CircleCall κ} (hfits : call.Fits circle) :
    circle.generation.toInt ≤ (call.after der dates keys circle).generation.toInt := by
  cases call with
  | operation step => exact step.le_after hfits
  | generationSign userKey fpi now =>
    have hcounted : CountsOnce circle.generation now.seconds
        (circleAfter (SOSCircleGenerationSign der dates keys circle userKey fpi now)) :=
      .inr (generation_generationSign circle userKey fpi now)
    exact hcounted.le hfits
  | generationSignWithGenCount userKey fpi gencount now =>
    exact le_generationSignWithGenCount _ _ _ _ _
  | resetToEmpty now again => exact le_resetToEmpty hfits
end Circles

/-- A generation of the first ring is not newer than that of the second. -/
def SOSRing.NotLater (ring ring' : SOSRing) : Prop :=
  ∀ gen, SOSRingGetGeneration ring = some gen →
    ∃ gen', SOSRingGetGeneration ring' = some gen' ∧ gen.toInt ≤ gen'.toInt

theorem SOSRing.NotLater.trans {first second third : SOSRing} (h : first.NotLater second)
    (h' : second.NotLater third) : first.NotLater third := by
  intro gen hgen
  obtain ⟨gen', hgen', hle⟩ := h gen hgen
  obtain ⟨gen'', hgen'', hle'⟩ := h' gen' hgen'
  exact ⟨gen'', hgen'', hle.trans hle'⟩

theorem SOSRing.NotLater.of_eq {ring ring' : SOSRing}
    (h : SOSRingGetGeneration ring' = SOSRingGetGeneration ring) : ring.NotLater ring' :=
  fun gen hgen => ⟨gen, h.trans hgen, Int.le_refl _⟩

variable (ring : SOSRing)

@[simp] theorem getGeneration_setGeneration (gen : SOSGenCount) :
    SOSRingGetGeneration (SOSRingSetGeneration ring gen) = some gen := by
  rw [SOSRingGetGeneration, SOSRingSetGeneration, cfDictionaryGetValue_setValue]
  rfl

theorem getGeneration_setValue {key : CFString} (value : Plist) (hkey : key ≠ sGenerationKey) :
    SOSRingGetGeneration
        { ring with
          signedInformation := cfDictionarySetValue ring.signedInformation key value } =
      SOSRingGetGeneration ring := by
  rw [SOSRingGetGeneration, cfDictionaryGetValue_setValue_of_ne _ _ hkey]
  rfl

@[simp] theorem getGeneration_changeUnsigned (key : CFString) (change : List Plist → List Plist) :
    SOSRingGetGeneration (ring.changeUnsigned key change) = SOSRingGetGeneration ring := rfl

theorem getGeneration_changeSigned {key : CFString} (change : List Plist → List Plist)
    (hkey : key ≠ sGenerationKey) :
    SOSRingGetGeneration (ring.changeSigned key change) = SOSRingGetGeneration ring := by
  rw [SOSRing.changeSigned, changeSet]
  split
  · exact getGeneration_setValue ring _ hkey
  · rfl

@[simp] theorem getGeneration_addPeerID (peerid : CFString) :
    SOSRingGetGeneration (SOSRingAddPeerID ring peerid) = SOSRingGetGeneration ring :=
  getGeneration_changeSigned ring _ (by decide)

@[simp] theorem getGeneration_setLastModifier (peerID : CFString) :
    SOSRingGetGeneration (SOSRingSetLastModifier ring peerID) = SOSRingGetGeneration ring := rfl

@[simp] theorem getGeneration_setPayload (payload : List UInt8) :
    SOSRingGetGeneration (SOSRingSetPayload_Internal ring payload) = SOSRingGetGeneration ring :=
  getGeneration_setValue ring _ (by decide)

@[simp] theorem getGeneration_setBackupViewset (viewSet : List Plist) :
    SOSRingGetGeneration (SOSRingSetBackupViewset_Internal ring viewSet) =
      SOSRingGetGeneration ring :=
  getGeneration_setValue ring _ (by decide)

@[simp] theorem getGeneration_resetToEmpty (seconds : BitVec 32) :
    SOSRingGetGeneration (SOSRingResetToEmpty_Internal ring seconds) =
      some (SOSGenerationCreate seconds) :=
  getGeneration_setGeneration _ _

theorem getGeneration_withdrawID {ring ring' : SOSRing} {myPeerID : CFString}
    (hwithdraw : withdrawID ring myPeerID = some ring') :
    SOSRingGetGeneration ring' = SOSRingGetGeneration ring := by
  rw [withdrawID] at hwithdraw
  split_ifs at hwithdraw
  · cases hwithdraw
    exact getGeneration_changeSigned ring _ (by decide)
  · cases hwithdraw
    rfl
  · cases hwithdraw
    rfl

def SOSRing.Fits (ring : SOSRing) (seconds : BitVec 32) : Prop :=
  ∀ gen, SOSRingGetGeneration ring = some gen → ¬GenerationFull gen seconds

theorem notLater_generationIncrement {ring : SOSRing} {seconds : BitVec 32}
    (hfits : ring.Fits seconds) : ring.NotLater (SOSRingGenerationIncrement ring seconds) := by
  intro gen hgen
  refine ⟨_, getGeneration_setGeneration _ _, ?_⟩
  rw [hgen]
  exact isOlder_le ((isOlder_incrementAndCreate_iff gen seconds).mpr (hfits gen hgen))

section Rings

variable {der : Primitives} {dates : DateSystem} {κ : Type} {keys : SecKeys κ}

theorem getGeneration_setSignature (ring : SOSRing) (privKey : κ) (signature : List UInt8) :
    SOSRingGetGeneration (SOSRingSetSignature keys ring privKey signature) =
      SOSRingGetGeneration ring := by
  rw [SOSRingSetSignature]
  split <;> rfl

variable {ring ring' : SOSRing} {now : ClockReading} {outcome : Bool × SOSRing}
  {user_privkey : Option κ} {requestor : SOSFullPeerInfo κ}

theorem getGeneration_sign {privKey : κ}
    (hsign : SOSRingSign der dates keys ring privKey = some ring') :
    SOSRingGetGeneration ring' = SOSRingGetGeneration ring := by
  simp only [SOSRingSign, Option.bind_eq_bind, Option.bind_eq_some_iff,
    Option.some.injEq] at hsign
  obtain ⟨hash, -, signature, -, rfl⟩ := hsign
  exact getGeneration_setSignature _ _ _

theorem notLater_generationSign {privKey : Option κ}
    (hfits : privKey.isSome = true → ring.Fits now.seconds)
    (hdone : SOSRingGenerationSign_Internal der dates keys ring privKey now = some outcome) :
    ring.NotLater outcome.2 := by
  cases privKey with
  | none =>
    cases hdone
    exact .of_eq rfl
  | some privKey =>
    obtain ⟨signed, hsign, rfl⟩ := Option.map_eq_some_iff.mp hdone
    have hkept := getGeneration_sign hsign
    exact (notLater_generationIncrement (hfits rfl)).trans (.of_eq hkept)

theorem getGeneration_concordanceSignUser {outcome' : Bool × SOSRing}
    (hdone : concordanceSignUser der dates keys user_privkey outcome = some outcome') :
    SOSRingGetGeneration outcome'.2 = SOSRingGetGeneration outcome.2 := by
  cases user_privkey with
  | none =>
    cases hdone
    rfl
  | some user_privkey =>
    obtain ⟨signed, hsign, rfl⟩ := Option.map_eq_some_iff.mp hdone
    exact getGeneration_sign hsign

theorem notLater_changeAndSign {change : SOSRing → SOSRing}
    (hchange : SOSRingGetGeneration (change ring) = SOSRingGetGeneration ring)
    (hfits : requestor.deviceKey.isSome = true → ring.Fits now.seconds)
    (hdone : changeAndSign der dates keys ring requestor change now = some outcome) :
    ring.NotLater outcome.2 := by
  rw [changeAndSign] at hdone
  split at hdone
  case h_1 =>
    cases hdone
    exact .of_eq rfl
  case h_2 priv hpriv =>
    refine (SOSRing.NotLater.of_eq hchange).trans (notLater_generationSign ?_ hdone)
    intro _ gen hgen
    exact hfits (by rw [hpriv]; rfl) gen (hchange ▸ hgen)

theorem getGeneration_resetAndSign {later : ClockReading}
    (hdone : changeAndSign der dates keys ring requestor (fun ring =>
      SOSRingSetLastModifier (SOSRingAddPeerID (SOSRingResetToEmpty_Internal ring now.seconds)
        requestor.peerInfo.peerID) requestor.peerInfo.peerID) later = some outcome) :
    SOSRingGetGeneration outcome.2 = SOSRingGetGeneration ring ∨
      requestor.deviceKey.isSome = true ∧ SOSRingGetGeneration outcome.2 =
        some (SOSGenerationIncrementAndCreate (SOSGenerationCreate now.seconds) later.seconds) := by
  rw [changeAndSign] at hdone
  split at hdone
  case h_1 =>
    cases hdone
    exact .inl rfl
  case h_2 priv hpriv =>
    obtain ⟨signed, hsign, rfl⟩ := Option.map_eq_some_iff.mp hdone
    have hkept : SOSRingGetGeneration signed = SOSRingGetGeneration (SOSRingGenerationIncrement _
        later.seconds) := getGeneration_sign hsign
    rw [SOSRingGenerationIncrement, getGeneration_setGeneration, getGeneration_setLastModifier,
      getGeneration_addPeerID, getGeneration_resetToEmpty] at hkept
    exact .inr ⟨by rw [hpriv]; rfl, hkept⟩

/-- What changes a ring. `replace` puts a new ring in its place. -/
inductive RingCall (κ : Type) where
  | resetToEmpty (myPeerID : CFString) (now : ClockReading)
  | resetToOffering (user_privkey : Option κ) (requestor : SOSFullPeerInfo κ)
      (now later : ClockReading)
  | apply (requestor : SOSFullPeerInfo κ) (now : ClockReading)
  | withdraw (user_privkey : Option κ) (requestor : SOSFullPeerInfo κ) (now : ClockReading)
  | generationSign (user_privkey : Option κ) (requestor : SOSFullPeerInfo κ) (now : ClockReading)
  | concordanceSign (requestor : SOSFullPeerInfo κ)
  | setPayload (user_privkey : Option κ) (payload : List UInt8) (requestor : SOSFullPeerInfo κ)
      (now : ClockReading)
  | setViews (requestor : SOSFullPeerInfo κ) (viewSet : List Plist) (now : ClockReading)
  | replace (newring : SOSRing) (now again : ClockReading)

variable (der dates keys) in
def RingCall.perform (ring : SOSRing) : RingCall κ → Option SOSRing
  | .resetToEmpty myPeerID now => some (SOSRingResetToEmpty_Basic ring myPeerID now)
  | .resetToOffering user_privkey requestor now later =>
    (SOSRingResetToOffering_Basic der dates keys ring user_privkey requestor now later).map
      Prod.snd
  | .apply requestor now => (SOSRingApply_Basic der dates keys ring requestor now).map Prod.snd
  | .withdraw user_privkey requestor now =>
    (SOSRingWithdraw_Basic der dates keys ring user_privkey requestor now).map Prod.snd
  | .generationSign user_privkey requestor now =>
    (SOSRingGenerationSign_Basic der dates keys ring user_privkey requestor now).map Prod.snd
  | .concordanceSign requestor =>
    (SOSRingConcordanceSign_Basic der dates keys ring requestor).map Prod.snd
  | .setPayload user_privkey payload requestor now =>
    (SOSRingSetPayload_Basic der dates keys ring user_privkey payload requestor now).map Prod.snd
  | .setViews requestor viewSet now =>
    (SOSBackupRingSetViews der dates keys ring requestor viewSet now).map Prod.snd
  | .replace newring now again =>
    SOSRingGenerationCreateWithBaseline newring ring now.seconds again.seconds

/-- No generation to count on from is full, and a ring is only reset when what the clock gives is
not older than its generation. -/
def RingCall.Fits (ring : SOSRing) : RingCall κ → Prop
  | .resetToEmpty _ now =>
    ∀ gen, SOSRingGetGeneration ring = some gen →
      gen.toInt ≤ (SOSGenerationCreate now.seconds).toInt
  | .resetToOffering _ requestor now later =>
    requestor.deviceKey.isSome = true → ∀ gen, SOSRingGetGeneration ring = some gen →
      gen.toInt ≤ (SOSGenerationIncrementAndCreate (SOSGenerationCreate now.seconds)
        later.seconds).toInt
  | .apply requestor now => requestor.deviceKey.isSome = true → ring.Fits now.seconds
  | .withdraw _ requestor now => requestor.deviceKey.isSome = true → ring.Fits now.seconds
  | .generationSign _ requestor now => requestor.deviceKey.isSome = true → ring.Fits now.seconds
  | .concordanceSign _ => True
  | .setPayload _ _ requestor now => requestor.deviceKey.isSome = true → ring.Fits now.seconds
  | .setViews requestor _ now => requestor.deviceKey.isSome = true → ring.Fits now.seconds
  | .replace _ now again =>
    ∀ gen, SOSRingGetGeneration ring = some gen → BaselineFits gen now.seconds again.seconds

theorem notLater_bind_concordanceSignUser {signing : RingOutcome}
    (hsigning : ∀ outcome, signing = some outcome → ring.NotLater outcome.2)
    (hdone : (signing >>= concordanceSignUser der dates keys user_privkey).map Prod.snd =
      some ring') : ring.NotLater ring' := by
  obtain ⟨outcome', hbind, rfl⟩ := Option.map_eq_some_iff.mp hdone
  obtain ⟨outcome, hsigned, huser⟩ := Option.bind_eq_some_iff.mp hbind
  exact (hsigning outcome hsigned).trans (.of_eq (getGeneration_concordanceSignUser huser))

theorem notLater_withdraw (hfits : requestor.deviceKey.isSome = true → ring.Fits now.seconds)
    (hdone : (SOSRingWithdraw_Basic der dates keys ring user_privkey requestor now).map Prod.snd =
      some ring') : ring.NotLater ring' := by
  simp only [SOSRingWithdraw_Basic] at hdone
  split at hdone
  case h_1 =>
    cases hdone
    exact .of_eq rfl
  case h_2 withdrawn hwithdraw =>
    have hkept := getGeneration_withdrawID hwithdraw
    obtain ⟨outcome', hbind, rfl⟩ := Option.map_eq_some_iff.mp hdone
    obtain ⟨outcome, hsigned, huser⟩ := Option.bind_eq_some_iff.mp hbind
    have hlater : (SOSRingSetLastModifier withdrawn requestor.peerInfo.peerID).NotLater outcome.2 :=
      notLater_generationSign (fun hkey gen hgen => hfits hkey gen (hkept ▸ hgen)) hsigned
    have hsame := getGeneration_concordanceSignUser huser
    exact ((SOSRing.NotLater.of_eq hkept).trans hlater).trans (.of_eq hsame)

theorem RingCall.notLater_perform {call : RingCall κ} (hfits : call.Fits ring)
    (hdone : call.perform der dates keys ring = some ring') :
    ring.NotLater ring' := by
  cases call with
  | resetToEmpty myPeerID now =>
    cases hdone
    intro gen hgen
    exact ⟨_, getGeneration_resetToEmpty _ _, hfits gen hgen⟩
  | resetToOffering user_privkey requestor now later =>
    apply notLater_bind_concordanceSignUser _ hdone
    intro outcome hreset
    rcases getGeneration_resetAndSign hreset with hkept | ⟨hkey, hnext⟩
    · exact .of_eq hkept
    · exact fun gen hgen => ⟨_, hnext, hfits hkey gen hgen⟩
  | apply requestor now =>
    obtain ⟨outcome, happly, rfl⟩ := Option.map_eq_some_iff.mp hdone
    simp only [SOSRingApply_Basic] at happly
    split at happly
    case isTrue =>
      cases happly
      exact .of_eq rfl
    case isFalse => exact notLater_changeAndSign (by simp) hfits happly
  | withdraw user_privkey requestor now => exact notLater_withdraw hfits hdone
  | generationSign user_privkey requestor now =>
    apply notLater_bind_concordanceSignUser _ hdone
    exact fun outcome hsigned => notLater_changeAndSign (by simp) hfits hsigned
  | concordanceSign requestor =>
    obtain ⟨outcome, hsigned, rfl⟩ := Option.map_eq_some_iff.mp hdone
    rw [SOSRingConcordanceSign_Basic] at hsigned
    split at hsigned
    case h_1 =>
      cases hsigned
      exact .of_eq rfl
    case h_2 =>
      obtain ⟨signed, hsign, rfl⟩ := Option.map_eq_some_iff.mp hsigned
      have hkept := getGeneration_sign hsign
      exact .of_eq hkept
  | setPayload user_privkey payload requestor now =>
    apply notLater_bind_concordanceSignUser _ hdone
    exact fun outcome hsigned => notLater_changeAndSign (by simp) hfits hsigned
  | setViews requestor viewSet now =>
    obtain ⟨outcome, hsigned, rfl⟩ := Option.map_eq_some_iff.mp hdone
    exact notLater_changeAndSign (by simp) hfits hsigned
  | replace newring now again =>
    obtain ⟨gen, hgen, rfl⟩ := Option.map_eq_some_iff.mp hdone
    intro gen' hgen'
    cases hgen.symm.trans hgen'
    exact ⟨_, getGeneration_setGeneration _ _,
      isOlder_le ((createWithBaseline_older_iff _ _ _).mpr (hfits gen hgen))⟩

/-- An increment, or a generation made from a baseline, is newer just where the count is not full.
In runs that meet no full count, and that reset no ring when the clock is behind its generation, no
generation goes back. -/
theorem generation_never_back {start circle : SOSCircle} {calls : List (CircleCall κ)}
    (hcircle : Run (fun next (call : CircleCall κ) => some (call.after der dates keys next))
      CircleCall.Fits start calls circle)
    {ring ring' : SOSRing} {ringCalls : List (RingCall κ)}
    (hring : Run (RingCall.perform der dates keys) RingCall.Fits ring ringCalls ring') :
    (∀ gen seconds,
      SOSGenerationIsOlder gen (SOSGenerationIncrementAndCreate gen seconds) = true ↔
        ¬GenerationFull gen seconds) ∧
    (∀ gen seconds again,
      SOSGenerationIsOlder gen (SOSGenerationCreateWithBaseline gen seconds again) = true ↔
        BaselineFits gen seconds again) ∧
    start.generation.toInt ≤ circle.generation.toInt ∧ ring.NotLater ring' := by
  refine ⟨isOlder_incrementAndCreate_iff, createWithBaseline_older_iff, ?_, ?_⟩
  · apply hcircle.invariant (fun next : SOSCircle => start.generation.toInt ≤ next.generation.toInt)
    · intro circle call circle' hle hfits hstep
      cases hstep
      exact hle.trans (call.le_after hfits)
    · exact Int.le_refl _
  · apply hring.invariant ring.NotLater
    · intro ring call ring' hle hfits hstep
      exact hle.trans (call.notLater_perform hfits hstep)
    · exact .of_eq rfl
end Rings

def ringOf (gen : SOSGenCount) : SOSRing :=
  SOSRingSetGeneration ⟨[], [], []⟩ gen

theorem generation_never_back_sample :
    ∃ (circle : SOSCircle) (ring' : SOSRing),
      (SOSCircleCreate [] epoch).generation.toInt ≤ circle.generation.toInt ∧
        (ringOf 5).NotLater ring' := by
  refine ⟨_, _, (@generation_never_back Standard.primitives firstMonth Unit oneKey _ _
    [.resetToEmpty epoch epoch] (.cons ?_ rfl (.nil _)) (ringOf 5) _
    [.resetToEmpty (cfstr "A") ⟨2, []⟩] (.cons ?_ rfl (.nil _))).2.2⟩
  · intro _
    decide
  · intro gen hgen
    rw [ringOf, getGeneration_setGeneration] at hgen
    cases hgen
    decide

/-- The clock is behind when the ring is reset; and the time that is put in takes a count past the
largest number. -/
theorem ring_goes_back :
    ¬(ringOf 0x100000005).NotLater (SOSRingResetToEmpty_Basic (ringOf 0x100000005) (cfstr "A") epoch) ∧
      SOSGenerationIsOlder 0xFFFFFFFF (SOSGenerationIncrementAndCreate 0xFFFFFFFF 0xFFFFFFFE) =
        false := by
  refine ⟨fun hlater => ?_, by decide⟩
  obtain ⟨gen', hgen', hle⟩ := hlater _ (getGeneration_setGeneration _ _)
  have hreset : SOSRingGetGeneration (SOSRingResetToEmpty_Basic (ringOf 0x100000005) (cfstr "A")
      epoch) = some (SOSGenerationCreate 0) :=
    getGeneration_resetToEmpty (ringOf 0x100000005) epoch.seconds
  cases hreset.symm.trans hgen'
  exact absurd hle (by decide)
end SecurityFramework
