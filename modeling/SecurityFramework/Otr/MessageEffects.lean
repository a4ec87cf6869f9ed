import SecurityFramework.Otr.KeyView

/-! # What messages do to the keys of a session -/

namespace SecurityFramework.Otr
open Memory

variable {P : Primitives}

section Protecting

variable {session : SecOTRSession P} {view : KeyView P}

theorem theirKeyToUse_mem (hshows : session.Shows view) :
    some (theirKeyToUse session view.theirKey).1 = some view.theirKey ∨
      view.theirPreviousKey = some (theirKeyToUse session view.theirKey).1 := by
  rw [theirKeyToUse]
  split
  · next hprevious => exact Or.inr (by rw [← hshows.theirPreviousKey, hprevious])
  · exact Or.inl rfl

theorem protectWith_spec (hshows : session.Shows view) (hsound : view.Sound)
    (sourceMessage : List UInt8) :
    ∃ theirKey, theirKey = (theirKeyToUse session view.theirKey).1 ∧
      (protectWith session view.myKey view.myNextKey view.theirKey sourceMessage).sent =
        some ⟨view.myKey, theirKey, (view.counters (pairOf view.myKey theirKey)).2 + 1⟩ ∧
      (protectWith session view.myKey view.myNextKey view.theirKey
        sourceMessage).session.Shows (view.count view.myKey theirKey fun old => (old.1, old.2 + 1)) := by
  have hmem := theirKeyToUse_mem hshows
  rcases huse : theirKeyToUse session view.theirKey with ⟨theirKey, theirKeyID⟩
  rw [huse] at hmem
  have hcount := hshows.count view.myKey theirKey fun old => (old.1, old.2 + 1)
  have hcounter := hsound.counters_slot (KeyView.pairOf_mem_nameable (Or.inl rfl) hmem)
  rcases hshows.find view.myKey theirKey with ⟨hfound, hslot⟩
  rw [← hslot, ← hfound.keyCache] at hcounter
  refine ⟨theirKey, rfl, ?_, ?_⟩
  · rw [← hcounter, protectWith, huse]
    rfl
  · rw [protectWith, huse]
    exact hcount.congr rfl rfl rfl rfl rfl rfl

theorem protectMessage_cases {now : ℚ} {newKey : P.FullKey} {sourceMessage : List UInt8}
    {out : Protected P} (hshows : session.Shows view)
    (hprotect : SecOTRSSignAndProtectMessage session now newKey sourceMessage = some out) :
    (out.sent = none ∧ out.session = session) ∨
      ∃ rolled view', SecOTRSRollIfTime session now newKey = some rolled ∧ rolled.Shows view' ∧
        (view' = view ∨ view' = view.generate newKey) ∧
        out = protectWith rolled view'.myKey view'.myNextKey view'.theirKey sourceMessage := by
  rw [SecOTRSSignAndProtectMessage] at hprotect
  split at hprotect
  · rcases hshows.rollIfTime now newKey with ⟨rolled, hroll, hrolled⟩
    have hview : ∃ view', rolled.Shows view' ∧ (view' = view ∨ view' = view.generate newKey) := by
      rcases hrolled with hrolled | hrolled
      · exact ⟨view, hrolled, Or.inl rfl⟩
      · exact ⟨_, hrolled, Or.inr rfl⟩
    rcases hview with ⟨view', hshows', hview⟩
    simp only [hroll, hshows'.myKey, hshows'.myNextKey, hshows'.theirKey,
      Option.some.injEq] at hprotect
    exact Or.inr ⟨rolled, view', hroll, hshows', hview, hprotect.symm⟩
  · cases hprotect
    exact Or.inl ⟨rfl, rfl⟩
end Protecting

/-- What a message says under the keys it names, if its MAC is right. -/
def openedWith (session : SecOTRSession P) (named : Named P)
    (openWith : SecOTRCacheElement → Except OSStatus (Opened P)) : Option (Opened P) :=
  match named.myKey, named.theirKey with
  | some myKey, some theirKey =>
    let found := SecOTRSFindKeysForMessage session myKey theirKey
    (openWith (found.1.keyCache found.2)).toOption
  | _, _ => none

/-- The next key of a message that names the current key of theirs. -/
def offerOf (session : SecOTRSession P) (named : Named P)
    (openWith : SecOTRCacheElement → Except OSStatus (Opened P)) : Option P.PublicKey :=
  if named.fromCurrent then (openedWith session named openWith).bind Opened.newKey else none

def SecOTRSession.offer (session : SecOTRSession P) (beyond : Nat → UInt8)
    (incomingMessage : List UInt8) : Option P.PublicKey := do
  let decodedBytes ← SecOTRCopyIncomingBytes (P := P) incomingMessage
  let decodedAgain ← SecOTRCopyIncomingBytes (P := P) decodedBytes
  let start := Cursor.ofBytes decodedBytes beyond
  let messageType ← SecOTRSGetMessageType (.ofBytes decodedAgain beyond)
  if messageType = .kDataMessage then
    let named ← (nameRaw session start).toOption
    offerOf session named fun element => openRaw start element named.rest
  else
    let named ← (nameCompact session start).toOption
    offerOf session named.1 fun element =>
      openCompact start element named.2.1 named.2.2 named.1.rest

section Exposing

variable {session : SecOTRSession P} {c start : Cursor} {element : SecOTRCacheElement}
  {opened : Opened P}

structure Named.Within (named : Named P) (session : SecOTRSession P) : Prop where
  myKey : named.myKey = session.myKey ∨ named.myKey = session.myNextKey
  theirKey : named.theirKey = session.theirKey ∨ named.theirKey = session.theirPreviousKey

theorem nameRaw_within {named : Named P} (hname : nameRaw session c = .ok named) :
    named.Within session := by
  rw [nameRaw] at hname
  repeat' split at hname
  all_goals cases hname
  all_goals constructor
  all_goals first
    | exact Or.inl rfl
    | exact Or.inr rfl

theorem nameCompact_within {named : Named P × P.PublicKey × Bool}
    (hname : nameCompact session c = .ok named) : named.1.Within session := by
  rw [nameCompact] at hname
  dsimp only at hname
  repeat' split at hname
  all_goals cases hname
  all_goals constructor
  all_goals first
    | exact Or.inl rfl
    | exact Or.inr rfl

theorem openRaw_counter (hopen : openRaw start element c = .ok opened) :
    element.theirCounter < opened.counter := by
  rw [openRaw] at hopen
  repeat' split at hopen
  all_goals cases hopen
  next hlt _ _ _ _ _ _ => exact hlt

theorem openCompact_counter {theirProposal : P.PublicKey} {sentHashes : Bool}
    (hopen : openCompact start element theirProposal sentHashes c = .ok opened) :
    element.theirCounter < opened.counter := by
  rw [openCompact] at hopen
  dsimp only at hopen
  repeat' split at hopen
  all_goals cases hopen
  all_goals next hlt _ _ _ => exact hlt

inductive Ends (session : SecOTRSession P) (supplies : DataSupplies P)
    (offer : Option P.PublicKey) (exposed : Exposed P) : Prop
  | unread (haccepted : exposed.accepted = none) (hsession : exposed.session = session)
  | refused (myKey : P.FullKey) (theirKey : P.PublicKey)
      (hmy : session.myKey = some myKey ∨ session.myNextKey = some myKey)
      (htheir : session.theirKey = some theirKey ∨ session.theirPreviousKey = some theirKey)
      (haccepted : exposed.accepted = none)
      (hsession : exposed.session = (SecOTRSFindKeysForMessage session myKey theirKey).1)
  | accepted (myKey : P.FullKey) (theirKey : P.PublicKey)
      (hmy : session.myKey = some myKey ∨ session.myNextKey = some myKey)
      (htheir : session.theirKey = some theirKey ∨ session.theirPreviousKey = some theirKey)
      (counter : UInt64) (acknowledges : Bool)
      (hcounter : ((SecOTRSFindKeysForMessage session myKey theirKey).1.keyCache
        (SecOTRSFindKeysForMessage session myKey theirKey).2).theirCounter < counter)
      (haccepted : exposed.accepted = some (pairOf myKey theirKey, counter))
      (haccept : acceptMessage (SecOTRSFindKeysForMessage session myKey theirKey).1
        (SecOTRSFindKeysForMessage session myKey theirKey).2 counter offer acknowledges supplies =
          some exposed.session)

variable {supplies : DataSupplies P}

theorem exposeNamed_ends {named : Named P} {exposed : Exposed P}
    {openWith : SecOTRCacheElement → Except OSStatus (Opened P)} (hwithin : named.Within session)
    (hopen : ∀ element opened, openWith element = .ok opened →
      element.theirCounter < opened.counter)
    (hexpose : exposeNamed session named supplies openWith = some exposed) :
    Ends session supplies (offerOf session named openWith) exposed := by
  rw [exposeNamed] at hexpose
  split at hexpose
  · next myKey theirKey hmy htheir =>
    have hmy' : session.myKey = some myKey ∨ session.myNextKey = some myKey := by
      rw [← hmy]
      exact hwithin.myKey.imp Eq.symm Eq.symm
    have htheir' : session.theirKey = some theirKey ∨ session.theirPreviousKey = some theirKey := by
      rw [← htheir]
      exact hwithin.theirKey.imp Eq.symm Eq.symm
    dsimp only at hexpose
    split at hexpose
    · cases hexpose
      exact .refused myKey theirKey hmy' htheir' rfl rfl
    · next opened hopened =>
      have hoffer : offerOf session named openWith =
          if named.fromCurrent then opened.newKey else none := by
        simp only [offerOf, openedWith, hmy, htheir, hopened, Except.toOption, Option.bind_some]
      rcases Option.map_eq_some_iff.mp hexpose with ⟨session', haccept, rfl⟩
      rw [← hoffer] at haccept
      exact .accepted myKey theirKey hmy' htheir' opened.counter named.acknowledges
        (hopen _ _ hopened) rfl haccept
  · cases hexpose

theorem exposeMessage_ends {incomingMessage : List UInt8} {exposed : Exposed P}
    (hexpose : SecOTRSVerifyAndExposeMessage session supplies incomingMessage = some exposed) :
    Ends session supplies (session.offer supplies.beyond incomingMessage) exposed := by
  rw [SecOTRSVerifyAndExposeMessage] at hexpose
  split at hexpose
  case isFalse =>
    cases hexpose
    exact .unread rfl rfl
  split at hexpose
  · cases hexpose
  next decodedBytes hdecoded =>
  split at hexpose
  · cases hexpose
  next decodedAgain hagain =>
  dsimp only at hexpose
  have hoffer : session.offer supplies.beyond incomingMessage =
      ((SecOTRSGetMessageType (.ofBytes decodedAgain supplies.beyond)).bind fun messageType =>
        if messageType = .kDataMessage then
          ((nameRaw session (.ofBytes decodedBytes supplies.beyond)).toOption.bind fun named =>
            offerOf session named fun element =>
              openRaw (.ofBytes decodedBytes supplies.beyond) element named.rest)
        else
          ((nameCompact session (.ofBytes decodedBytes supplies.beyond)).toOption.bind fun named =>
            offerOf session named.1 fun element =>
              openCompact (.ofBytes decodedBytes supplies.beyond) element named.2.1 named.2.2
                named.1.rest)) := by
    rw [SecOTRSession.offer]
    simp only [Option.bind_eq_bind, hdecoded, hagain, Option.bind_some]
  rw [hoffer]
  split at hexpose
  · next htype =>
    rw [htype, Option.bind_some, if_pos rfl]
    rw [SecOTRVerifyAndExposeRaw_locked] at hexpose
    split at hexpose
    · cases hexpose
      exact .unread rfl rfl
    · next named hname =>
      rw [hname]
      exact exposeNamed_ends (nameRaw_within hname) (fun _ _ => openRaw_counter) hexpose
  · next messageType hne htype =>
    rw [htype, Option.bind_some, if_neg (by simpa using hne)]
    rw [SecOTRVerifyAndExposeRawCompact_locked] at hexpose
    split at hexpose
    · cases hexpose
      exact .unread rfl rfl
    · next named theirProposal sentHashes hname =>
      rw [hname]
      exact exposeNamed_ends (nameCompact_within hname) (fun _ _ => openCompact_counter) hexpose
  · cases hexpose
    exact .unread rfl rfl

def takeOffer (session : SecOTRSession P) (offer : Option P.PublicKey) (now : ℚ) :
    SecOTRSession P :=
  match offer with
  | some newKey => SecOTRAcceptNewRemoteKey session newKey now
  | none => session

theorem acceptMessage_eq (i : Fin kOTRKeyCacheSize) (counter : UInt64)
    (offer : Option P.PublicKey) (acknowledges : Bool) :
    acceptMessage session i counter offer acknowledges supplies =
      match (if acknowledges then
        SecOTRSHandleProposalAcknowledge (takeOffer (session.setElement i
          ((session.keyCache i).setCounters (counter, (session.keyCache i).counters.2)))
            offer supplies.acceptTime) supplies.acknowledgeTime supplies.acknowledgeKey
      else some (takeOffer (session.setElement i
          ((session.keyCache i).setCounters (counter, (session.keyCache i).counters.2)))
            offer supplies.acceptTime)) with
      | none => none
      | some session =>
        (SecOTRSRollIfTime session supplies.rollTime supplies.rollKey).map
          SecOTRSPrecalculateNextKeysInternal := rfl

theorem acceptMessage_eq_some {i : Fin kOTRKeyCacheSize} {counter : UInt64}
    {offer : Option P.PublicKey} {acknowledges : Bool} {session' : SecOTRSession P}
    (haccept : acceptMessage session i counter offer acknowledges supplies = some session') :
    ∃ taken acknowledged rolled,
      taken = takeOffer (session.setElement i
        ((session.keyCache i).setCounters (counter, (session.keyCache i).counters.2)))
          offer supplies.acceptTime ∧
      (if acknowledges then
        SecOTRSHandleProposalAcknowledge taken supplies.acknowledgeTime supplies.acknowledgeKey
      else some taken) = some acknowledged ∧
      SecOTRSRollIfTime acknowledged supplies.rollTime supplies.rollKey = some rolled ∧
      session' = SecOTRSPrecalculateNextKeysInternal rolled := by
  rw [acceptMessage_eq] at haccept
  split at haccept
  · cases haccept
  · next acknowledged hacknowledge =>
    rcases Option.map_eq_some_iff.mp haccept with ⟨rolled, hrolled, heq⟩
    exact ⟨_, acknowledged, rolled, rfl, hacknowledge, hrolled, heq.symm⟩
end Exposing
end SecurityFramework.Otr
