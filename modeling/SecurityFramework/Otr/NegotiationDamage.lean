import SecurityFramework.Otr.SessionAKE

/-! # What a negotiation packet can damage -/

namespace SecurityFramework.Otr
open Memory

variable {P : Primitives}

structure KeyState (P : Primitives) where
  myKey : Option P.FullKey
  myNextKey : Option P.FullKey
  keyID : UInt32
  theirKey : Option P.PublicKey
  theirPreviousKey : Option P.PublicKey
  theirKeyID : UInt32
  r : List UInt8
  keyCache : KeyCache
  state : SecOTRAuthState

def SecOTRSession.keyState (session : SecOTRSession P) : KeyState P where
  myKey := session.myKey
  myNextKey := session.myNextKey
  keyID := session.keyID
  theirKey := session.theirKey
  theirPreviousKey := session.theirPreviousKey
  theirKeyID := session.theirKeyID
  r := session.r
  keyCache := session.keyCache
  state := session.state

/-- The packets a state ignores: those it has no use for, and a DH key message other than the
one already answered. -/
def AKEHandler.Ignores (handler : AKEHandler) (session : SecOTRSession P) (packet : List UInt8) :
    Prop :=
  match handler with
  | .dh => False
  | .dhKey =>
    session.state ≠ .kAwaitingDHKey ∧
      (session.state = .kAwaitingSignature → session.receivedDHKeyMessage ≠ some packet)
  | .revealSignature => session.state ≠ .kAwaitingRevealSignature
  | .signature => session.state ≠ .kAwaitingSignature

/-- A packet that is refused or ignored leaves the keys and counters as they are. -/
def Handled.Undamaged (handled : Handled P) (handler : AKEHandler) (session : SecOTRSession P)
    (packet : List UInt8) : Prop :=
  handled.result ≠ .errSecSuccess ∨ handler.Ignores session packet →
    handled.session.keyState = session.keyState

def SecOTRSession.HoldsOnly (session : SecOTRSession P) (key : P.PublicKey) (keyID : UInt32) :
    Prop :=
  session.theirKey = some key ∧ session.theirPreviousKey = none ∧ session.keyCache = .zero ∧
    session.theirKeyID = keyID

/-- A reveal signature message whose `r` and signature stand at `r` and `c`: it is genuine, or
the session holds already what it brings. -/
def RevealHeld (session : SecOTRSession P) (dhMessage : Packet) (r : List UInt8) (c : Cursor) :
    Prop :=
  match openCommitment (P := P) dhMessage r with
  | .error _ => session.r = r
  | .ok key => ∀ myKey, session.myKey = some myKey →
    match judgeSignature session.them myKey key false c with
    | .unread _ => session.r = r ∧ session.HoldsOnly key 1
    | .read keyID result =>
      result = .errSecSuccess ∨ (session.r = r ∧ session.HoldsOnly key keyID)

/-- The packets that do no damage: those that bring nothing, those that are used, and those whose
contents the session holds already. -/
def AKEHandler.Harmless (handler : AKEHandler) (session : SecOTRSession P)
    (supplies : Supplies P) (packet : List UInt8) : Prop :=
  match handler with
  | .dh => True
  | .dhKey => ∀ key, findTheirPublicDHKey ⟨packet, supplies.beyond⟩ = .ok key →
    AKEHandler.dhKey.Ignores session packet → session.HoldsOnly key 1
  | .revealSignature => session.state = .kAwaitingRevealSignature →
    ∀ dhMessage, session.receivedDHMessage = some dhMessage →
    ∀ r c, readR (Packet.cursor ⟨packet, supplies.beyond⟩) = .ok (r, c) →
      RevealHeld session ⟨dhMessage, supplies.behindDH⟩ r c
  | .signature => session.state = .kAwaitingSignature →
    ∀ c, ReadHeader (Packet.cursor ⟨packet, supplies.beyond⟩) =
      .ok (OTRMessageType.kSignatureMessage.byte, c) →
    ∀ myKey theirKey, session.myKey = some myKey → session.theirKey = some theirKey →
      match judgeSignature session.them myKey theirKey true c with
      | .unread _ => True
      | .read keyID result => result = .errSecSuccess ∨ session.theirKeyID = keyID

variable {c : Cursor} {result : OSStatus} {r : List UInt8} {incoming : Packet} {key : P.PublicKey}
  {behindDH : Nat → UInt8}

theorem ReadLong_ne_success (h : ReadLong c = .error result) :
    result ≠ .errSecSuccess := by
  rintro rfl
  rw [ReadLong] at h
  split at h <;> cases h

theorem ReadShort_ne_success (h : ReadShort c = .error result) :
    result ≠ .errSecSuccess := by
  rintro rfl
  rw [ReadShort] at h
  split at h <;> cases h

theorem ReadHeader_ne_success (h : ReadHeader c = .error result) :
    result ≠ .errSecSuccess := by
  rintro rfl
  rw [ReadHeader] at h
  split at h
  · next hshort =>
    cases h
    exact ReadShort_ne_success hshort rfl
  · split at h
    · rw [ReadByte] at h
      split at h <;> cases h
    · cases h

theorem readR_ne_success (h : readR c = .error result) :
    result ≠ .errSecSuccess := by
  rintro rfl
  rw [readR] at h
  split at h
  · cases h
  · split at h
    · split at h
      · cases h
      · split at h <;> cases h
    · cases h

theorem openCommitment_ne_success {dhPacket : Packet}
    (h : openCommitment (P := P) dhPacket r = .error result) : result ≠ .errSecSuccess := by
  rintro rfl
  rw [openCommitment] at h
  split at h
  · next hfind =>
    cases h
    rw [FindEncGYInDHPacket] at hfind
    split at hfind
    · next hheader =>
      cases hfind
      exact ReadHeader_ne_success hheader rfl
    · split at hfind
      · split at hfind
        · next hlong =>
          cases hfind
          exact ReadLong_ne_success hlong rfl
        · split at hfind <;> cases hfind
      · cases hfind
  · split at h <;> cases h

theorem openSignature_ne_success {keys : SignatureKeys}
    (h : openSignature (P := P) keys c = .error result) : result ≠ .errSecSuccess := by
  rintro rfl
  rw [openSignature] at h
  split at h
  · next hlong =>
    cases h
    exact ReadLong_ne_success hlong rfl
  · split at h
    · split at h <;> cases h
    · cases h

theorem readSigner_ne_success {them : P.PublicIdentity} {xb : List UInt8}
    (h : readSigner them xb = .error result) : result ≠ .errSecSuccess := by
  rintro rfl
  rw [readSigner] at h
  split at h
  · next hshort =>
    cases h
    exact ReadShort_ne_success hshort rfl
  · split at h
    · split at h
      · next hlong =>
        cases h
        exact ReadLong_ne_success hlong rfl
      · split at h
        · split at h <;> cases h
        · cases h
    · cases h

theorem judgeSignature_ne_success {them : P.PublicIdentity} {myKey : P.FullKey}
    {theirKey : P.PublicKey} {usePrimes : Bool}
    (h : judgeSignature them myKey theirKey usePrimes c = .unread result) :
    result ≠ .errSecSuccess := by
  rw [judgeSignature] at h
  split at h
  · next hopen =>
    cases h
    exact openSignature_ne_success hopen
  · split at h
    · next hsigner =>
      cases h
      exact readSigner_ne_success hsigner
    · split at h
      · next hlong =>
        cases h
        exact ReadLong_ne_success hlong
      · cases h

variable {session : SecOTRSession P} {supplies : Supplies P} {packet : List UInt8}
  {handled : Handled P}

theorem result_of_sendDHKey (h : sendDHKey session incoming = some handled) :
    handled.result = .errSecSuccess := by
  rw [sendDHKey, Option.map_eq_some_iff] at h
  rcases h with ⟨response, _, rfl⟩
  rfl

theorem result_of_processDHMessage {new : NewKeys P}
    (h : SecOTRSProcessDHMessage session new incoming = some handled) :
    handled.result = .errSecSuccess := by
  rw [SecOTRSProcessDHMessage] at h
  split at h
  · split at h
    · cases h
    · rw [Option.map_eq_some_iff] at h
      rcases h with ⟨response, _, rfl⟩
      rfl
    · exact result_of_sendDHKey h
  · exact result_of_sendDHKey h
  · exact result_of_sendDHKey h
  · exact result_of_sendDHKey h
  · exact result_of_sendDHKey h

theorem undamaged_dh_iff (h : AKEHandler.dh.process session supplies packet = some handled) :
    handled.Undamaged .dh session packet ↔ AKEHandler.dh.Harmless session supplies packet := by
  have hresult := result_of_processDHMessage h
  constructor
  · intro _
    trivial
  · rintro _ (hrefused | hignored)
    · exact absurd hresult hrefused
    · exact hignored.elim

theorem keyState_setup_iff :
    (SecOTRSetupInitialRemoteKey session key).keyState = session.keyState ↔
      session.HoldsOnly key 1 := by
  simp only [SecOTRSession.keyState, SecOTRSetupInitialRemoteKey, SecOTRSession.HoldsOnly,
    KeyState.mk.injEq, true_and, and_true]
  constructor
  · rintro ⟨hkey, hprevious, hID, hcache⟩
    exact ⟨hkey.symm, hprevious.symm, hcache.symm, hID.symm⟩
  · rintro ⟨hkey, hprevious, hcache, hID⟩
    exact ⟨hkey.symm, hprevious.symm, hID.symm, hcache.symm⟩

@[simp] theorem state_setup (key : P.PublicKey) :
    (SecOTRSetupInitialRemoteKey session key).state = session.state := rfl

theorem findTheirPublicDHKey_ne_success
    (h : findTheirPublicDHKey (P := P) incoming = .error result) : result ≠ .errSecSuccess := by
  rintro rfl
  rw [findTheirPublicDHKey] at h
  split at h
  · cases h
  · split at h
    · split at h <;> cases h
    · cases h

theorem processDHKeyMessage_of_error
    (hkey : findTheirPublicDHKey (P := P) incoming = .error result) :
    SecOTRSProcessDHKeyMessage session incoming = some ⟨result, session, []⟩ := by
  have hne := findTheirPublicDHKey_ne_success hkey
  simp only [SecOTRSProcessDHKeyMessage, SecOTRSExtractTheirPublicDHKey, hkey, if_neg hne]

theorem processDHKeyMessage_of_key (hkey : findTheirPublicDHKey incoming = .ok key)
    (h : SecOTRSProcessDHKeyMessage session incoming = some handled) :
    handled.result = .errSecSuccess ∧
      (AKEHandler.dhKey.Ignores session incoming.bytes →
        handled.session = SecOTRSetupInitialRemoteKey session key) := by
  simp only [SecOTRSProcessDHKeyMessage, SecOTRSExtractTheirPublicDHKey, hkey, if_true] at h
  cases hstate : session.state <;> simp only [state_setup, hstate] at h
  case kAwaitingDHKey =>
    rw [Option.map_eq_some_iff] at h
    rcases h with ⟨response, _, rfl⟩
    exact ⟨rfl, fun hignored => absurd hstate hignored.1⟩
  case kAwaitingSignature =>
    by_cases hsame : (SecOTRSetupInitialRemoteKey session key).receivedDHKeyMessage =
        some incoming.bytes
    · rw [if_pos hsame, Option.map_eq_some_iff] at h
      rcases h with ⟨response, _, rfl⟩
      exact ⟨rfl, fun hignored => absurd hsame (hignored.2 hstate)⟩
    · rw [if_neg hsame] at h
      cases h
      exact ⟨rfl, fun _ => rfl⟩
  all_goals
    cases h
    exact ⟨rfl, fun _ => rfl⟩

theorem undamaged_dhKey_iff
    (h : AKEHandler.dhKey.process session supplies packet = some handled) :
    handled.Undamaged .dhKey session packet ↔
      AKEHandler.dhKey.Harmless session supplies packet := by
  simp only [AKEHandler.Harmless, Handled.Undamaged]
  rw [AKEHandler.process] at h
  cases hkey : findTheirPublicDHKey (P := P) ⟨packet, supplies.beyond⟩ with
  | error result =>
    rw [processDHKeyMessage_of_error hkey] at h
    cases h
    simp
  | ok key =>
    rcases processDHKeyMessage_of_key hkey h with ⟨hresult, hignored⟩
    constructor
    · rintro hundamaged key' hkey' hignores
      cases hkey'
      rw [← keyState_setup_iff, ← hignored hignores]
      exact hundamaged (Or.inr hignores)
    · rintro hharmless (hrefused | hignores)
      · exact absurd hresult hrefused
      · rw [hignored hignores]
        exact keyState_setup_iff.mpr (hharmless key rfl hignores)

/-- What is left where a reveal signature message was read as far as the key ID. -/
theorem keyState_revealed_iff {keyID : UInt32} :
    ((SecOTRSetupInitialRemoteKey (session.setR r) key).setTheirKeyID keyID).keyState =
        session.keyState ↔
      session.r = r ∧ session.HoldsOnly key keyID := by
  simp only [SecOTRSession.keyState, SecOTRSetupInitialRemoteKey, SecOTRSession.HoldsOnly,
    SecOTRSession.setR, SecOTRSession.setTheirKeyID, KeyState.mk.injEq, true_and, and_true]
  constructor
  · rintro ⟨hkey, hprevious, hID, hr, hcache⟩
    exact ⟨hr.symm, hkey.symm, hprevious.symm, hcache.symm, hID.symm⟩
  · rintro ⟨hr, hkey, hprevious, hcache, hID⟩
    exact ⟨hkey.symm, hprevious.symm, hID.symm, hr.symm, hcache.symm⟩

theorem keyState_setR_iff :
    (session.setR r).keyState = session.keyState ↔ session.r = r := by
  simp only [SecOTRSession.keyState, SecOTRSession.setR, KeyState.mk.injEq, true_and, and_true]
  exact eq_comm

theorem keyState_setTheirKeyID_iff {keyID : UInt32} :
    (session.setTheirKeyID keyID).keyState = session.keyState ↔ session.theirKeyID = keyID := by
  simp only [SecOTRSession.keyState, SecOTRSession.setTheirKeyID, KeyState.mk.injEq, true_and,
    and_true]
  exact eq_comm

/-- A packet that is refused does damage exactly if it changes something. -/
theorem undamaged_iff_of_refused {handler : AKEHandler}
    (hresult : handled.result ≠ .errSecSuccess) :
    handled.Undamaged handler session packet ↔
      handled.session.keyState = session.keyState := by
  simp [Handled.Undamaged, hresult]

theorem undamaged_of_unchanged {handler : AKEHandler} (hsession : handled.session = session) :
    handled.Undamaged handler session packet := by
  intro _
  rw [hsession]

theorem undamaged_of_used {handler : AKEHandler} (hresult : handled.result = .errSecSuccess)
    (hused : ¬ handler.Ignores session packet) : handled.Undamaged handler session packet := by
  rintro (hrefused | hignored)
  · exact absurd hresult hrefused
  · exact absurd hignored hused

/-- After `r` and the key are taken, the verdict on the signature decides. -/
theorem processRevealSignature_of_key {dhMessage : List UInt8}
    (hstate : session.state = .kAwaitingRevealSignature)
    (hdh : session.receivedDHMessage = some dhMessage) (hr : readR incoming.cursor = .ok (r, c))
    (hopen : openCommitment (P := P) ⟨dhMessage, behindDH⟩ r = .ok key)
    (h : SecOTRSProcessRevealSignatureMessage session behindDH incoming = some handled) :
    ∃ myKey, session.myKey = some myKey ∧
      handled.result = ((judgeSignature session.them myKey key false c).settle
        (SecOTRSetupInitialRemoteKey (session.setR r) key)).1 ∧
      (handled.result ≠ .errSecSuccess → handled.session =
        ((judgeSignature session.them myKey key false c).settle
          (SecOTRSetupInitialRemoteKey (session.setR r) key)).2) := by
  simp only [SecOTRSProcessRevealSignatureMessage, if_pos hstate, SecOTRSExtractRAndTheirDHKey,
    hdh, hr, hopen, if_true] at h
  cases hmy : session.myKey with
  | none =>
    simp only [SecVerifySignatureAndMac, SecOTRSetupInitialRemoteKey, SecOTRSession.setR, hmy] at h
    cases h
  | some myKey =>
    have hverify : SecVerifySignatureAndMac (SecOTRSetupInitialRemoteKey (session.setR r) key)
        false c = some ((judgeSignature session.them myKey key false c).settle
          (SecOTRSetupInitialRemoteKey (session.setR r) key)) := by
      simp only [SecVerifySignatureAndMac, SecOTRSetupInitialRemoteKey, SecOTRSession.setR, hmy]
    rw [hverify] at h
    refine ⟨myKey, rfl, ?_⟩
    rcases hsettle : (judgeSignature session.them myKey key false c).settle
      (SecOTRSetupInitialRemoteKey (session.setR r) key) with ⟨result, settled⟩
    simp only [hsettle] at h
    by_cases hresult : result = .errSecSuccess
    · rw [if_pos hresult, Option.map_eq_some_iff] at h
      rcases h with ⟨response, _, rfl⟩
      exact ⟨hresult.symm, fun hne => absurd rfl hne⟩
    · rw [if_neg hresult] at h
      cases h
      exact ⟨rfl, fun _ => rfl⟩

/-- Without a commitment that can be opened, nothing but `r` is written. -/
theorem processRevealSignature_of_error {dhMessage : List UInt8}
    (hstate : session.state = .kAwaitingRevealSignature)
    (hdh : session.receivedDHMessage = some dhMessage) (hr : readR incoming.cursor = .ok (r, c))
    (hopen : openCommitment (P := P) ⟨dhMessage, behindDH⟩ r = .error result) :
    SecOTRSProcessRevealSignatureMessage session behindDH incoming =
      some ⟨result, session.setR r, []⟩ := by
  simp only [SecOTRSProcessRevealSignatureMessage, if_pos hstate, SecOTRSExtractRAndTheirDHKey,
    hdh, hr, hopen, if_neg (openCommitment_ne_success hopen)]

theorem processRevealSignature_unread (hunread : session.state = .kAwaitingRevealSignature →
      session.receivedDHMessage = none ∨ ∃ result, readR incoming.cursor = .error result)
    (h : SecOTRSProcessRevealSignatureMessage session behindDH incoming = some handled) :
    handled.session = session := by
  rw [SecOTRSProcessRevealSignatureMessage] at h
  by_cases hstate : session.state = .kAwaitingRevealSignature
  · rw [if_pos hstate] at h
    rcases hunread hstate with hdh | ⟨result, hr⟩
    · simp only [SecOTRSExtractRAndTheirDHKey, hdh, reduceCtorEq, if_false] at h
      cases h
      rfl
    · cases hdh : session.receivedDHMessage with
      | none =>
        simp only [SecOTRSExtractRAndTheirDHKey, hdh, reduceCtorEq, if_false] at h
        cases h
        rfl
      | some dhMessage =>
        simp only [SecOTRSExtractRAndTheirDHKey, hdh, hr, if_neg (readR_ne_success hr)] at h
        cases h
        rfl
  · rw [if_neg hstate] at h
    cases h
    rfl

theorem undamaged_revealSignature_iff
    (h : AKEHandler.revealSignature.process session supplies packet = some handled) :
    handled.Undamaged .revealSignature session packet ↔
      AKEHandler.revealSignature.Harmless session supplies packet := by
  rw [AKEHandler.process] at h
  by_cases hunread : session.state = .kAwaitingRevealSignature →
      session.receivedDHMessage = none ∨
        ∃ result, readR (Packet.cursor ⟨packet, supplies.beyond⟩) = .error result
  · have hunchanged := processRevealSignature_unread hunread h
    refine iff_of_true (undamaged_of_unchanged hunchanged) ?_
    intro hstate dhMessage hdh r c hr
    rcases hunread hstate with hnone | ⟨result, herror⟩
    · rw [hnone] at hdh
      cases hdh
    · rw [herror] at hr
      cases hr
  · rw [Classical.not_imp, not_or, not_exists] at hunread
    rcases hunread with ⟨hstate, hdh, hr⟩
    rcases Option.ne_none_iff_exists'.mp hdh with ⟨dhMessage, hdh⟩
    cases hr' : readR (Packet.cursor ⟨packet, supplies.beyond⟩) with
    | error result => exact absurd hr' (hr result)
    | ok read =>
      rcases read with ⟨r, c⟩
      have hharmless : AKEHandler.revealSignature.Harmless session supplies packet ↔
          RevealHeld session ⟨dhMessage, supplies.behindDH⟩ r c := by
        constructor
        · intro hall
          exact hall hstate dhMessage hdh r c hr'
        · intro hheld _ dhMessage' hdh' r' c' hr''
          rw [hdh] at hdh'
          rw [hr'] at hr''
          cases hdh'
          cases hr''
          exact hheld
      rw [hharmless, RevealHeld]
      cases hopen : openCommitment (P := P) ⟨dhMessage, supplies.behindDH⟩ r with
      | error result =>
        have hhandled := processRevealSignature_of_error hstate hdh hr' hopen
        rw [hhandled] at h
        cases h
        rw [undamaged_iff_of_refused (openCommitment_ne_success hopen)]
        exact keyState_setR_iff
      | ok key =>
        rcases processRevealSignature_of_key hstate hdh hr' hopen h with
          ⟨myKey, hmy, hresult, hsession⟩
        simp only [hmy, Option.some.injEq, forall_eq']
        cases hjudge : judgeSignature session.them myKey key false c with
        | unread result =>
          rw [hjudge] at hresult hsession
          have hne : handled.result ≠ .errSecSuccess := by
            rw [hresult]
            exact judgeSignature_ne_success hjudge
          rw [undamaged_iff_of_refused hne, hsession hne]
          change ((SecOTRSetupInitialRemoteKey (session.setR r) key).setTheirKeyID 1).keyState =
            session.keyState ↔ session.r = r ∧ session.HoldsOnly key 1
          exact keyState_revealed_iff
        | read keyID result =>
          rw [hjudge] at hresult hsession
          by_cases hsuccess : result = .errSecSuccess
          · refine iff_of_true (undamaged_of_used (hresult.trans hsuccess) ?_) (Or.inl hsuccess)
            exact fun hignored => hignored hstate
          · have hne : handled.result ≠ .errSecSuccess := by
              rw [hresult]
              exact hsuccess
            rw [undamaged_iff_of_refused hne, hsession hne]
            simp only [hsuccess, false_or]
            exact keyState_revealed_iff

theorem processSignature_unread (hunread : session.state = .kAwaitingSignature →
      ∀ c, ReadHeader incoming.cursor ≠ .ok (OTRMessageType.kSignatureMessage.byte, c))
    (h : SecOTRSProcessSignatureMessage session incoming = some handled) :
    handled.session = session := by
  rw [SecOTRSProcessSignatureMessage] at h
  by_cases hstate : session.state = .kAwaitingSignature
  · rw [if_pos hstate] at h
    split at h
    · cases h
      rfl
    · next messageType c hheader =>
      have hother : messageType ≠ OTRMessageType.kSignatureMessage.byte := by
        rintro rfl
        exact hunread hstate c hheader
      rw [if_neg hother] at h
      cases h
      rfl
  · rw [if_neg hstate] at h
    cases h
    rfl

theorem processSignature_of_header (hstate : session.state = .kAwaitingSignature)
    (hheader : ReadHeader incoming.cursor = .ok (OTRMessageType.kSignatureMessage.byte, c))
    (h : SecOTRSProcessSignatureMessage session incoming = some handled) :
    ∃ myKey theirKey, session.myKey = some myKey ∧ session.theirKey = some theirKey ∧
      handled.result =
        ((judgeSignature session.them myKey theirKey true c).settle session).1 ∧
      (handled.result ≠ .errSecSuccess → handled.session =
        ((judgeSignature session.them myKey theirKey true c).settle session).2) := by
  rw [SecOTRSProcessSignatureMessage, if_pos hstate, hheader] at h
  simp only [if_true, SecVerifySignatureAndMac] at h
  cases hmy : session.myKey with
  | none =>
    rw [hmy] at h
    cases h
  | some myKey =>
    cases htheir : session.theirKey with
    | none =>
      rw [hmy, htheir] at h
      cases h
    | some theirKey =>
      rw [hmy, htheir] at h
      refine ⟨myKey, theirKey, rfl, rfl, ?_⟩
      rcases hsettle : (judgeSignature session.them myKey theirKey true c).settle session with
        ⟨result, settled⟩
      simp only [hsettle] at h
      by_cases hresult : result = .errSecSuccess
      · rw [if_pos hresult] at h
        cases h
        exact ⟨hresult.symm, fun hne => absurd rfl hne⟩
      · rw [if_neg hresult] at h
        cases h
        exact ⟨rfl, fun _ => rfl⟩

theorem undamaged_signature_iff
    (h : AKEHandler.signature.process session supplies packet = some handled) :
    handled.Undamaged .signature session packet ↔
      AKEHandler.signature.Harmless session supplies packet := by
  rw [AKEHandler.process] at h
  by_cases hunread : session.state = .kAwaitingSignature →
      ∀ c, ReadHeader (Packet.cursor ⟨packet, supplies.beyond⟩) ≠
        .ok (OTRMessageType.kSignatureMessage.byte, c)
  · refine iff_of_true (undamaged_of_unchanged (processSignature_unread hunread h)) ?_
    intro hstate c hheader
    exact absurd hheader (hunread hstate c)
  · rw [Classical.not_imp] at hunread
    rcases hunread with ⟨hstate, hheader⟩
    push Not at hheader
    rcases hheader with ⟨c, hheader⟩
    rcases processSignature_of_header hstate hheader h with
      ⟨myKey, theirKey, hmy, htheir, hresult, hsession⟩
    have hharmless : AKEHandler.signature.Harmless session supplies packet ↔
        match judgeSignature session.them myKey theirKey true c with
        | .unread _ => True
        | .read keyID result => result = .errSecSuccess ∨ session.theirKeyID = keyID := by
      constructor
      · intro hall
        exact hall hstate c hheader myKey theirKey hmy htheir
      · intro hheld _ c' hheader' myKey' theirKey' hmy' htheir'
        rw [hheader] at hheader'
        rw [hmy] at hmy'
        rw [htheir] at htheir'
        cases hheader'
        cases hmy'
        cases htheir'
        exact hheld
    rw [hharmless]
    cases hjudge : judgeSignature session.them myKey theirKey true c with
    | unread result =>
      rw [hjudge] at hresult hsession
      have hne : handled.result ≠ .errSecSuccess := by
        rw [hresult]
        exact judgeSignature_ne_success hjudge
      exact iff_of_true (undamaged_of_unchanged (hsession hne)) trivial
    | read keyID result =>
      rw [hjudge] at hresult hsession
      by_cases hsuccess : result = .errSecSuccess
      · refine iff_of_true (undamaged_of_used (hresult.trans hsuccess) ?_) (Or.inl hsuccess)
        exact fun hignored => hignored hstate
      · have hne : handled.result ≠ .errSecSuccess := by
          rw [hresult]
          exact hsuccess
        rw [undamaged_iff_of_refused hne, hsession hne]
        simp only [hsuccess, false_or]
        exact keyState_setTheirKeyID_iff

/-- A packet that is refused or ignored leaves keys, counters and state alone exactly if it
brings nothing that the session does not hold already. -/
theorem undamaged_iff_harmless (handler : AKEHandler)
    (h : handler.process session supplies packet = some handled) :
    handled.Undamaged handler session packet ↔ handler.Harmless session supplies packet := by
  cases handler with
  | dh => exact undamaged_dh_iff h
  | dhKey => exact undamaged_dhKey_iff h
  | revealSignature => exact undamaged_revealSignature_iff h
  | signature => exact undamaged_signature_iff h

def doneSession : SecOTRSession .sample where
  __ := SecOTRSessionCreateFromIDAndFlags (P := .sample) 7 9 (List.replicate 16 1)
    false false false 0
  state := .kDone
  keyID := 1
  myKey := some 3
  myNextKey := some 5
  theirKeyID := 1
  theirKey := some 6
  keyCache := Function.update KeyCache.zero 0 { SecOTRCacheElement.zero with
    fullKeyHash := SecFDHKGetHash (P := .sample) (3 : UInt8)
    publicKeyHash := SecPDHKGetHash (P := .sample) (6 : UInt8)
    counter := 1 }

def strayDHKeyMessage : List UInt8 :=
  AppendHeader .kDHKeyMessage ++ SecPDHKAppendSerialization (P := .sample) (0x42 : UInt8)

def sampleSupplies : Supplies .sample where
  new := ⟨0x11, 0x13⟩
  beyond := fun _ => 0
  behindDH := fun _ => 0

theorem undamaged_iff_harmless_sample :
    ∃ handled, AKEHandler.dhKey.process doneSession sampleSupplies strayDHKeyMessage =
        some handled ∧
      (handled.Undamaged .dhKey doneSession strayDHKeyMessage ↔
        AKEHandler.dhKey.Harmless doneSession sampleSupplies strayDHKeyMessage) :=
  ⟨⟨.errSecSuccess, SecOTRSetupInitialRemoteKey doneSession (0x42 : UInt8), []⟩,
    by rfl, undamaged_iff_harmless .dhKey (by rfl)⟩

/-- A finished session ignores the message, but takes its key and forgets its counters. -/
theorem strayDHKeyMessage_damages :
    ∃ handled, AKEHandler.dhKey.process doneSession sampleSupplies strayDHKeyMessage =
        some handled ∧
      handled.result = .errSecSuccess ∧
      AKEHandler.dhKey.Ignores doneSession strayDHKeyMessage ∧
      doneSession.theirKey = some (6 : UInt8) ∧
      handled.session.theirKey = some (0x42 : UInt8) ∧
      handled.session.keyCache = .zero ∧ doneSession.keyCache ≠ .zero ∧
      ¬ handled.Undamaged .dhKey doneSession strayDHKeyMessage := by
  have hignores : AKEHandler.dhKey.Ignores doneSession strayDHKeyMessage :=
    ⟨by decide, fun h => absurd h (by decide)⟩
  refine ⟨⟨.errSecSuccess, SecOTRSetupInitialRemoteKey doneSession (0x42 : UInt8), []⟩,
    by rfl, rfl, hignores, rfl, rfl, rfl, by decide +kernel, ?_⟩
  intro hundamaged
  have hkey := congrArg KeyState.theirKey (hundamaged (Or.inr hignores))
  exact absurd hkey (by decide)
end SecurityFramework.Otr
