import SecurityFramework.Library.Run
import SecurityFramework.Otr.NegotiationDamage

/-!
# Who a session is negotiated with

A session is done with its negotiation only after a packet in which the identity that it was made
for signs both keys of the exchange, whatever packets come and in whatever order.
-/

namespace SecurityFramework.Otr
open Memory

variable {P : Primitives}

/-- The negotiation begins again with the keys that are there. -/
def SecOTRSAppendRestartPacket (session : SecOTRSession P) : Option (Handled P) :=
  if session.myKey.isNone then some ⟨.errSecDecode, session, []⟩
  else
    let session := { session with
      state := .kAwaitingDHKey
      receivedDHMessage := none
      receivedDHKeyMessage := none }
    (SecOTRAppendDHMessage session).map fun dhMessage => ⟨.errSecSuccess, session,
      if session.textOutput then SecOTRPrepareOutgoingBytes (P := P) dhMessage else dhMessage⟩

inductive NegotiationCall (P : Primitives)
  | start (new : NewKeys P) (r : List UInt8)
  | restart
  | packet (supplies : Supplies P) (incomingPacket : List UInt8)

def SecOTRSession.negotiate (session : SecOTRSession P) :
    NegotiationCall P → Option (SecOTRSession P)
  | .start new r => (SecOTRSAppendStartPacket session new r).map Prod.fst
  | .restart => (SecOTRSAppendRestartPacket session).map Handled.session
  | .packet supplies incomingPacket =>
    (SecOTRSProcessPacket session supplies incomingPacket).map Handled.session

/-- Their identity has signed both keys of the session, with the secret that these share. -/
def SecOTRSession.Vouched (session : SecOTRSession P) : Prop :=
  ∃ myKey theirKey usePrimes identity signature,
    session.myKey = some myKey ∧ session.theirKey = some theirKey ∧
      P.verifySignature session.them
        (signedHash (DeriveSignatureKeys (P := P) usePrimes (P.ccec_compute_key myKey theirKey))
          theirKey (P.ccec_ctx_pub myKey) identity) signature = true

structure Continues (session session' : SecOTRSession P) : Prop where
  them : session'.them = session.them
  done : session'.state = .kDone → session.state = .kDone ∨ session'.Vouched

variable {session session' : SecOTRSession P} {handled : Handled P} {incoming : Packet}
  {usePrimes : Bool} {c : Cursor} {result : OSStatus}

theorem judgeSignature_success {them : P.PublicIdentity} {myKey : P.FullKey}
    {theirKey : P.PublicKey} {keyID : UInt32}
    (h : judgeSignature them myKey theirKey usePrimes c = .read keyID .errSecSuccess) :
    ∃ identity signature, P.verifySignature them
      (signedHash (DeriveSignatureKeys (P := P) usePrimes (P.ccec_compute_key myKey theirKey))
        theirKey (P.ccec_ctx_pub myKey) identity) signature = true := by
  have hcheck : ∀ mb c, checkSignature them mb c = .errSecSuccess →
      ∃ signature, P.verifySignature them mb signature = true := by
    intro mb c hsuccess
    rw [checkSignature] at hsuccess
    grind [ReadLong_ne_success]
  simp only [judgeSignature] at h
  grind

theorem verifySignatureAndMac_spec
    (h : SecVerifySignatureAndMac session usePrimes c = some (result, session')) :
    session'.them = session.them ∧ session'.state = session.state ∧
      (result = .errSecSuccess → session'.Vouched) := by
  rw [SecVerifySignatureAndMac] at h
  split at h
  · next myKey theirKey hmy htheir =>
    cases hjudge : judgeSignature session.them myKey theirKey usePrimes c with
    | unread verdict =>
      rw [hjudge] at h
      cases h
      exact ⟨rfl, rfl, fun hsuccess => absurd hsuccess (judgeSignature_ne_success hjudge)⟩
    | read keyID verdict =>
      rw [hjudge] at h
      cases h
      refine ⟨rfl, rfl, ?_⟩
      rintro rfl
      rcases judgeSignature_success hjudge with ⟨identity, signature, hverified⟩
      exact ⟨myKey, theirKey, usePrimes, identity, signature, hmy, htheir, hverified⟩
  · cases h

/-- A handler ends a negotiation only with a signature that it has verified. -/
theorem process_done {handler : AKEHandler} {supplies : Supplies P} {packet : List UInt8}
    (h : handler.process session supplies packet = some handled) :
    handled.session.them = session.them ∧
      (handled.session.state = .kDone → session.state = .kDone ∨ ∃ before usePrimes c verified,
        SecVerifySignatureAndMac before usePrimes c = some (.errSecSuccess, verified) ∧
          handled.session.them = verified.them ∧ handled.session.myKey = verified.myKey ∧
          handled.session.theirKey = verified.theirKey) := by
  cases handler with
  | dh =>
    simp only [AKEHandler.process, SecOTRSProcessDHMessage, sendDHKey, SecOTRInitMyDHKeys] at h
    grind [Option.map_eq_some_iff]
  | dhKey =>
    have hextracted : (SecOTRSExtractTheirPublicDHKey session ⟨packet, supplies.beyond⟩).2.them =
          session.them ∧
        (SecOTRSExtractTheirPublicDHKey session ⟨packet, supplies.beyond⟩).2.state =
          session.state := by
      simp only [SecOTRSExtractTheirPublicDHKey, SecOTRSetupInitialRemoteKey]
      grind
    simp only [AKEHandler.process, SecOTRSProcessDHKeyMessage] at h
    grind [Option.map_eq_some_iff]
  | revealSignature =>
    have hextracted : (SecOTRSExtractRAndTheirDHKey session supplies.behindDH
          (Packet.cursor ⟨packet, supplies.beyond⟩)).2.1.them = session.them ∧
        (SecOTRSExtractRAndTheirDHKey session supplies.behindDH
          (Packet.cursor ⟨packet, supplies.beyond⟩)).2.1.state = session.state := by
      simp only [SecOTRSExtractRAndTheirDHKey, SecOTRSetupInitialRemoteKey, SecOTRSession.setR]
      grind
    simp only [AKEHandler.process, SecOTRSProcessRevealSignatureMessage] at h
    grind [verifySignatureAndMac_spec, Option.map_eq_some_iff]
  | signature =>
    simp only [AKEHandler.process, SecOTRSProcessSignatureMessage] at h
    grind [verifySignatureAndMac_spec]

theorem continues_negotiate {call : NegotiationCall P}
    (h : session.negotiate call = some session') : Continues session session' := by
  cases call with
  | start new r =>
    simp only [SecOTRSession.negotiate, SecOTRSAppendStartPacket, SecOTRInitMyDHKeys,
      SecOTRSession.setR] at h
    constructor <;> grind [Option.map_eq_some_iff]
  | restart =>
    simp only [SecOTRSession.negotiate, SecOTRSAppendRestartPacket] at h
    constructor <;> grind [Option.map_eq_some_iff]
  | packet supplies incomingPacket =>
    have hprocess : session' = session ∨ ∃ handler packet handled,
        AKEHandler.process handler session supplies packet = some handled ∧
          handled.session = session' := by
      simp only [SecOTRSession.negotiate, SecOTRSProcessPacket] at h
      grind [Option.map_eq_some_iff]
    rcases hprocess with rfl | ⟨handler, packet, handled, hhandled, rfl⟩
    · exact ⟨rfl, Or.inl⟩
    · rcases process_done hhandled with ⟨hthem, hdone⟩
      refine ⟨hthem, fun hfinished => (hdone hfinished).imp_right ?_⟩
      rintro ⟨before, usePrimes, c, verified, hverify, hthem', hmy, htheir⟩
      have hvouched := (verifySignatureAndMac_spec hverify).2.2 rfl
      unfold SecOTRSession.Vouched at hvouched ⊢
      rw [hthem', hmy, htheir]
      exact hvouched

/-- The signature message of the other side, which has the keys the other way round. -/
def signatureCall : NegotiationCall .sample :=
  .packet sampleSupplies ((SecOTRAppendSignatureMessage { doneSession with
    me := (9 : UInt8), them := (7 : UInt8), myKey := some (6 : UInt8),
    theirKey := some (3 : UInt8) }).getD [])

end SecurityFramework.Otr
