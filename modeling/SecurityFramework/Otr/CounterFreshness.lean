import SecurityFramework.Library.Run
import SecurityFramework.Otr.MessageLedgers

/-! # Freshness of counters -/

namespace SecurityFramework.Otr
open CounterLedger

variable {P : Primitives}

inductive Call (P : Primitives)
  | send (now : ℚ) (newKey : P.FullKey) (sourceMessage : List UInt8)
  | receive (supplies : DataSupplies P) (incomingMessage : List UInt8)
  | roll (newKey : P.FullKey)
  | kickTimeToRoll (now : ℚ)
  | precalculate
  | restore (beyond : Nat → UInt8)

structure Tracked (P : Primitives) where
  session : SecOTRSession P
  history : History P

def SecOTRSession.myHashes (session : SecOTRSession P) : List (List UInt8) :=
  (session.myKey.toList ++ session.myNextKey.toList).map SecFDHKGetHash

def SecOTRSession.theirHashes (session : SecOTRSession P) : List (List UInt8) :=
  (session.theirKey.toList ++ session.theirPreviousKey.toList).map SecPDHKGetHash

def History.after (history : History P) (session : SecOTRSession P) (sent : Option (Sent P))
    (accepted : Option (KeyPair × UInt64)) : History P where
  mine := session.myHashes ++ history.mine
  theirs := session.theirHashes ++ history.theirs
  sent := sent.toList ++ history.sent
  accepted := accepted.toList ++ history.accepted

def Tracked.start (session : SecOTRSession P) : Tracked P where
  session := session
  history := History.after ⟨[], [], [], []⟩ session none none

def Tracked.after (tracked : Tracked P) (session : SecOTRSession P) (sent : Option (Sent P))
    (accepted : Option (KeyPair × UInt64)) : Tracked P where
  session := session
  history := tracked.history.after session sent accepted

/-- A call that cannot go on, or a session that cannot be read back, has no next state. -/
def Tracked.step (codec : Codec P) (tracked : Tracked P) : Call P → Option (Tracked P)
  | .send now newKey sourceMessage =>
    (SecOTRSSignAndProtectMessage tracked.session now newKey sourceMessage).map fun out =>
      tracked.after out.session out.sent none
  | .receive supplies incomingMessage =>
    (SecOTRSVerifyAndExposeMessage tracked.session supplies incomingMessage).map fun exposed =>
      tracked.after exposed.session none exposed.accepted
  | .roll newKey =>
    (SOSOTRSRoll tracked.session newKey).map fun session => tracked.after session none none
  | .kickTimeToRoll now =>
    some (tracked.after (SecOTRSKickTimeToRoll tracked.session now) none none)
  | .precalculate =>
    some (tracked.after (SecOTRSPrecalculateKeysInternal tracked.session) none none)
  | .restore beyond =>
    ((SecOTRSAppendSerialization codec tracked.session).bind fun data =>
      SecOTRSessionCreateFromData codec data beyond).map fun session =>
        tracked.after session none none

def Call.KeysNew (tracked : Tracked P) : Call P → Prop
  | .send _ newKey _ => tracked.history.New newKey
  | .receive supplies _ =>
    tracked.history.New supplies.acknowledgeKey ∧ tracked.history.New supplies.rollKey ∧
      SecFDHKGetHash supplies.rollKey ≠ SecFDHKGetHash supplies.acknowledgeKey
  | .roll newKey => tracked.history.New newKey
  | _ => True

def SecOTRSession.CounterLeft (session : SecOTRSession P) : Prop :=
  ∀ myKey theirKey, session.myKey = some myKey → session.theirKey = some theirKey →
    ∀ i, (session.keyCache i).pair = pairOf myKey (theirKeyToUse session theirKey).1 →
      (session.keyCache i).counter < (session.keyCache i).counter + 1

def Call.CounterLeft (tracked : Tracked P) : Call P → Prop
  | .send now newKey _ => ∀ rolled, SecOTRSRollIfTime tracked.session now newKey = some rolled →
    rolled.CounterLeft
  | _ => True

/-- The key that an authentic message offers is new. -/
def Call.OfferNew (tracked : Tracked P) : Call P → Prop
  | .receive supplies incomingMessage =>
    ∀ key, tracked.session.offer supplies.beyond incomingMessage = some key →
      SecPDHKGetHash key ∉ tracked.history.theirs
  | _ => True

structure Call.Harmless (tracked : Tracked P) (call : Call P) : Prop where
  keysNew : call.KeysNew tracked
  counterLeft : call.CounterLeft tracked
  offerNew : call.OfferNew tracked

namespace Ledgers
variable {history : History P} {session : SecOTRSession P} {view : KeyView P}

theorem extend (h : Ledgers history view) {history' : History P}
    (hmine : ∀ hash ∈ history.mine, hash ∈ history'.mine)
    (htheirs : ∀ hash ∈ history.theirs, hash ∈ history'.theirs)
    (hsent : history'.sent = history.sent) (haccepted : history'.accepted = history.accepted) :
    Ledgers history' view where
  storable := h.storable
  sound := h.sound
  previous_ne := h.previous_ne
  sent := by
    rw [hsent]
    exact h.sent.mono (fun pair hseen => ⟨hmine _ hseen.1, htheirs _ hseen.2⟩)
      fun pair _ hnamed => ⟨hnamed, le_rfl⟩
  accepted := by
    rw [haccepted]
    exact h.accepted.mono (fun pair hseen => ⟨hmine _ hseen.1, htheirs _ hseen.2⟩)
      fun pair _ hnamed => ⟨hnamed, le_rfl⟩

theorem precalculate (h : Ledgers history view) (hshows : session.Shows view)
    {myKey? : Option P.FullKey} {theirKey? : Option P.PublicKey}
    (hmy : myKey? = session.myKey ∨ myKey? = session.myNextKey)
    (htheir : theirKey? = session.theirKey ∨ theirKey? = session.theirPreviousKey) :
    ∃ view', (SecOTRSPrecalculateForPair session myKey? theirKey?).Shows view' ∧
      Ledgers history view' := by
  rw [hshows.myKey, hshows.myNextKey] at hmy
  rw [hshows.theirKey, hshows.theirPreviousKey] at htheir
  cases myKey? with
  | none => exact absurd hmy (by simp)
  | some myKey =>
    cases theirKey? with
    | none => exact ⟨view, hshows, h⟩
    | some theirKey =>
      have hpair : pairOf myKey theirKey ∈ view.nameable :=
        KeyView.pairOf_mem_nameable (hmy.imp Option.some.inj Option.some.inj)
          (htheir.imp_right Eq.symm)
      have hpair' : pairOf myKey theirKey ∈ (view.find myKey theirKey).1.nameable := by
        rwa [KeyView.nameable_find]
      exact ⟨_, ((hshows.find myKey theirKey).1.find myKey theirKey).1, (h.find hpair).find hpair'⟩

theorem precalculateKeys (h : Ledgers history view) (hshows : session.Shows view) :
    ∃ view', (SecOTRSPrecalculateKeysInternal session).Shows view' ∧ Ledgers history view' := by
  rcases h.precalculate hshows (Or.inl rfl) (Or.inl rfl) with ⟨view₁, hshows₁, h₁⟩
  rcases h₁.precalculate hshows₁ (Or.inr rfl) (Or.inl rfl) with ⟨view₂, hshows₂, h₂⟩
  rcases h₂.precalculate hshows₂ (Or.inl rfl) (Or.inr rfl) with ⟨view₃, hshows₃, h₃⟩
  exact h₃.precalculate hshows₃ (Or.inr rfl) (Or.inr rfl)

theorem generated (h : Ledgers history view) {newKey : P.FullKey} (hnew : history.New newKey)
    (hne : SecFDHKGetHash newKey ≠ SecFDHKGetHash view.myNextKey)
    (hshows : session.Shows view ∨ session.Shows (view.generate newKey)) :
    ∃ view', session.Shows view' ∧ Ledgers history view' ∧
      (view'.myNextKey = view.myNextKey ∨ view'.myNextKey = newKey) := by
  rcases hshows with hshows | hshows
  · exact ⟨view, hshows, h, Or.inl rfl⟩
  · exact ⟨_, hshows, h.generate hnew hne, Or.inr rfl⟩

theorem keys_count (view : KeyView P) (myKey : P.FullKey) (theirKey : P.PublicKey)
    (f : UInt64 × UInt64 → UInt64 × UInt64) :
    (view.count myKey theirKey f).myNextKey = view.myNextKey ∧
      (view.count myKey theirKey f).theirKey = view.theirKey := by
  rw [KeyView.count, KeyView.find]
  split <;> exact ⟨rfl, rfl⟩

theorem accepts (h : Ledgers history view) (hshows : session.Shows view)
    (hmine : SecFDHKGetHash view.myNextKey ∈ history.mine)
    (htheirs : SecPDHKGetHash view.theirKey ∈ history.theirs)
    {myKey : P.FullKey} {theirKey : P.PublicKey} {counter : UInt64} {offer : Option P.PublicKey}
    {acknowledges : Bool} {supplies : DataSupplies P} {session' : SecOTRSession P}
    (hpair : pairOf myKey theirKey ∈ view.nameable) (hseen : history.Seen (pairOf myKey theirKey))
    (hlt : (view.counters (pairOf myKey theirKey)).1 < counter)
    (hoffer : ∀ key, offer = some key → SecPDHKGetHash key ∉ history.theirs)
    (hack : history.New supplies.acknowledgeKey) (hroll : history.New supplies.rollKey)
    (hne : SecFDHKGetHash supplies.rollKey ≠ SecFDHKGetHash supplies.acknowledgeKey)
    (haccept : acceptMessage (SecOTRSFindKeysForMessage session myKey theirKey).1
      (SecOTRSFindKeysForMessage session myKey theirKey).2 counter offer acknowledges supplies =
        some session') :
    ∃ view', session'.Shows view' ∧
      Ledgers { history with accepted := (pairOf myKey theirKey, counter) :: history.accepted }
        view' := by
  have hcounted := h.receive hpair hseen hlt
  have hcount := hshows.count myKey theirKey fun old => (counter, old.2)
  rcases keys_count view myKey theirKey fun old => (counter, old.2) with ⟨hnext, htheir⟩
  rcases acceptMessage_eq_some haccept with
    ⟨taken, acknowledged, rolled, htake, hacknowledge, hrolled, rfl⟩
  have htaken : ∃ view₁, taken.Shows view₁ ∧
      Ledgers { history with accepted := (pairOf myKey theirKey, counter) :: history.accepted }
        view₁ ∧ view₁.myNextKey = view.myNextKey := by
    rw [htake]
    cases offer with
    | none => exact ⟨_, hcount, hcounted, hnext⟩
    | some key =>
      refine ⟨_, hcount.accept key _, hcounted.accept (hoffer key rfl) ?_, hnext⟩
      rw [htheir]
      exact htheirs
  rcases htaken with ⟨view₁, hshows₁, h₁, hnext₁⟩
  have hacknowledged : ∃ view₂, acknowledged.Shows view₂ ∧
      Ledgers { history with accepted := (pairOf myKey theirKey, counter) :: history.accepted }
        view₂ ∧ (view₂.myNextKey = view₁.myNextKey ∨
          view₂.myNextKey = supplies.acknowledgeKey) := by
    split at hacknowledge
    · rcases hshows₁.acknowledge supplies.acknowledgeTime supplies.acknowledgeKey with
        ⟨session₂, heq, hshows₂⟩
      rw [heq, Option.some.injEq] at hacknowledge
      subst hacknowledge
      apply h₁.generated ⟨hack.not_mem, hack.ne_zeroHash⟩ _ hshows₂
      rw [hnext₁]
      exact fun heq => hack.not_mem (heq ▸ hmine)
    · rw [Option.some.injEq] at hacknowledge
      subst hacknowledge
      exact ⟨view₁, hshows₁, h₁, Or.inl rfl⟩
  rcases hacknowledged with ⟨view₂, hshows₂, h₂, hnext₂⟩
  have hne₂ : SecFDHKGetHash supplies.rollKey ≠ SecFDHKGetHash view₂.myNextKey := by
    rcases hnext₂ with hnext₂ | hnext₂
    · rw [hnext₂, hnext₁]
      exact fun heq => hroll.not_mem (heq ▸ hmine)
    · rwa [hnext₂]
  rcases hshows₂.rollIfTime supplies.rollTime supplies.rollKey with ⟨session₃, heq, hshows₃⟩
  rw [heq, Option.some.injEq] at hrolled
  subst hrolled
  rcases h₂.generated ⟨hroll.not_mem, hroll.ne_zeroHash⟩ hne₂ hshows₃ with
    ⟨view₃, hshows₃, h₃, _⟩
  exact h₃.precalculate hshows₃ (Or.inl rfl) (Or.inl rfl)
end Ledgers

/-- The session has its keys, all of them are in the history, and the ledgers are kept. -/
structure Tracked.Alive (tracked : Tracked P) (view : KeyView P) : Prop where
  shows_view : tracked.session.Shows view
  mine : ∀ hash ∈ view.fullHashes, hash ∈ tracked.history.mine
  theirs : ∀ hash ∈ view.publicHashes, hash ∈ tracked.history.theirs
  ledgers : Ledgers tracked.history view

structure History.Fresh (history : History P) : Prop where
  sent : (history.sent.map Sent.entry).Pairwise fun later earlier =>
    later.1 = earlier.1 → earlier.2 < later.2
  accepted : (history.accepted.map acceptedEntry).Pairwise fun later earlier =>
    later.1 = earlier.1 → earlier.2 < later.2

/-- The session was read back with key ID zero, and has no keys of its own any more. -/
structure Tracked.Keyless (tracked : Tracked P) : Prop where
  keyID : tracked.session.keyID = 0
  myKey : tracked.session.myKey = none
  myNextKey : tracked.session.myNextKey = none
  storable : tracked.session.settings.Storable
  fresh : tracked.history.Fresh

variable {session : SecOTRSession P} {view : KeyView P} {tracked : Tracked P}

theorem SecOTRSession.Shows.myHashes (h : session.Shows view) :
    session.myHashes = view.fullHashes := by
  rw [SecOTRSession.myHashes, h.myKey, h.myNextKey]
  rfl

theorem SecOTRSession.Shows.theirHashes (h : session.Shows view) :
    session.theirHashes = view.publicHashes := by
  rw [SecOTRSession.theirHashes, h.theirKey, h.theirPreviousKey, KeyView.publicHashes]
  cases view.theirPreviousKey <;> rfl

theorem Tracked.alive_after (hshows : session.Shows view) (sent : Option (Sent P))
    (accepted : Option (KeyPair × UInt64)) (h : Ledgers { tracked.history with
      sent := sent.toList ++ tracked.history.sent
      accepted := accepted.toList ++ tracked.history.accepted } view) :
    (tracked.after session sent accepted).Alive view where
  shows_view := hshows
  mine := by
    intro hash hhash
    rw [← hshows.myHashes] at hhash
    exact List.mem_append_left _ hhash
  theirs := by
    intro hash hhash
    rw [← hshows.theirHashes] at hhash
    exact List.mem_append_left _ hhash
  ledgers := h.extend (fun _ => List.mem_append_right _) (fun _ => List.mem_append_right _) rfl rfl

theorem SecOTRSession.CounterLeft.lt (h : session.CounterLeft) (hshows : session.Shows view) :
    (view.counters (pairOf view.myKey (theirKeyToUse session view.theirKey).1)).2 <
      (view.counters (pairOf view.myKey (theirKeyToUse session view.theirKey).1)).2 + 1 := by
  rw [KeyView.counters]
  cases hentry : view.entry (pairOf view.myKey (theirKeyToUse session view.theirKey).1) with
  | none => decide
  | some element =>
    rw [KeyView.entry, SlotTable.entry?, Option.map_eq_some_iff] at hentry
    rcases hentry with ⟨i, hfind, rfl⟩
    have hkey := SlotTable.key_of_find? hfind
    have hleft := h _ _ hshows.myKey hshows.theirKey i
    rw [hshows.keyCache] at hleft
    exact hleft hkey

namespace Tracked.Alive
variable {tracked tracked' : Tracked P} {view : KeyView P} (h : tracked.Alive view)

include h

theorem seen {myKey : P.FullKey} {theirKey : P.PublicKey}
    (hmy : myKey = view.myKey ∨ myKey = view.myNextKey)
    (htheir : some theirKey = some view.theirKey ∨ view.theirPreviousKey = some theirKey) :
    tracked.history.Seen (pairOf myKey theirKey) := by
  have hpair := KeyView.mem_nameable.mp (KeyView.pairOf_mem_nameable hmy htheir)
  exact ⟨h.mine _ hpair.1, h.theirs _ hpair.2⟩

variable {codec : Codec P}

theorem send {now : ℚ} {newKey : P.FullKey} {sourceMessage : List UInt8}
    (hok : (Call.send now newKey sourceMessage).Harmless tracked)
    (hstep : tracked.step codec (.send now newKey sourceMessage) = some tracked') :
    ∃ view', tracked'.Alive view' := by
  rcases Option.map_eq_some_iff.mp hstep with ⟨out, hprotect, rfl⟩
  rcases protectMessage_cases h.shows_view hprotect with
    ⟨hsent, hsession⟩ | ⟨rolled, view', hroll, hshows', hview, rfl⟩
  · rw [hsent, hsession]
    exact ⟨view, alive_after h.shows_view _ _ h.ledgers⟩
  · have hnew : tracked.history.New newKey := hok.keysNew
    have hledgers : Ledgers tracked.history view' := by
      rcases hview with rfl | rfl
      · exact h.ledgers
      · apply h.ledgers.generate hnew
        intro heq
        exact hnew.not_mem (heq ▸ h.mine _ (by simp [KeyView.fullHashes]))
    have hlt := (hok.counterLeft rolled hroll).lt hshows'
    rcases protectWith_spec hshows' hledgers.sound sourceMessage with
      ⟨theirKey, htheirKey, hsent, hshows⟩
    have hmem := theirKeyToUse_mem hshows'
    rw [← htheirKey] at hmem hlt
    have hmem' : some theirKey = some view.theirKey ∨ view.theirPreviousKey = some theirKey := by
      rcases hview with rfl | rfl <;> exact hmem
    have hmy : view'.myKey = view.myKey ∨ view'.myKey = view.myNextKey := by
      rcases hview with rfl | rfl
      · exact Or.inl rfl
      · exact Or.inr rfl
    have hpair : _ ∈ view'.nameable := KeyView.pairOf_mem_nameable (Or.inl rfl) hmem
    rw [hsent]
    exact ⟨_, alive_after hshows _ _ (hledgers.send hpair (h.seen hmy hmem') hlt)⟩

theorem receive {supplies : DataSupplies P} {incomingMessage : List UInt8}
    (hok : (Call.receive supplies incomingMessage).Harmless tracked)
    (hstep : tracked.step codec (.receive supplies incomingMessage) = some tracked') :
    ∃ view', tracked'.Alive view' := by
  rcases Option.map_eq_some_iff.mp hstep with ⟨exposed, hexpose, rfl⟩
  rcases exposeMessage_ends hexpose with
    ⟨haccepted, hsession⟩ | ⟨myKey, theirKey, hmy, htheir, haccepted, hsession⟩ |
    ⟨myKey, theirKey, hmy, htheir, counter, acknowledges, hcounter, haccepted, haccept⟩
  · rw [haccepted, hsession]
    exact ⟨view, alive_after h.shows_view _ _ h.ledgers⟩
  all_goals
    rw [h.shows_view.myKey, h.shows_view.myNextKey, Option.some.injEq, Option.some.injEq] at hmy
    rw [h.shows_view.theirKey, h.shows_view.theirPreviousKey] at htheir
    have hmy' : myKey = view.myKey ∨ myKey = view.myNextKey := hmy.imp Eq.symm Eq.symm
    have htheir' : some theirKey = some view.theirKey ∨ view.theirPreviousKey = some theirKey :=
      htheir.imp_left Eq.symm
    have hpair := KeyView.pairOf_mem_nameable hmy' htheir'
  · rw [haccepted, hsession]
    exact ⟨_, alive_after (h.shows_view.find myKey theirKey).1 _ _ (h.ledgers.find hpair)⟩
  · rcases hok.keysNew with ⟨hack, hroll, hne⟩
    rcases h.shows_view.find myKey theirKey with ⟨hfound, hslot⟩
    have hcounters := h.ledgers.sound.counters_slot hpair
    rw [← hslot, ← hfound.keyCache] at hcounters
    have hlt : (view.counters (pairOf myKey theirKey)).1 < counter := by
      rw [← hcounters]
      exact hcounter
    have hmine : SecFDHKGetHash view.myNextKey ∈ tracked.history.mine :=
      h.mine _ (by simp [KeyView.fullHashes])
    have htheirs : SecPDHKGetHash view.theirKey ∈ tracked.history.theirs :=
      h.theirs _ (by simp [KeyView.publicHashes])
    rcases h.ledgers.accepts h.shows_view hmine htheirs hpair (h.seen hmy' htheir') hlt
      hok.offerNew hack hroll hne haccept with ⟨view', hshows', hledgers'⟩
    rw [haccepted]
    exact ⟨view', alive_after hshows' _ _ hledgers'⟩

theorem roll {newKey : P.FullKey} (hok : (Call.roll newKey).Harmless tracked)
    (hstep : tracked.step codec (.roll newKey) = some tracked') :
    ∃ view', tracked'.Alive view' := by
  rcases Option.map_eq_some_iff.mp hstep with ⟨session, hroll, rfl⟩
  rcases h.shows_view.roll newKey with ⟨session', heq, hshows⟩
  rw [heq, Option.some.injEq] at hroll
  subst hroll
  have hnew : tracked.history.New newKey := hok.keysNew
  rcases h.ledgers.generated hnew (fun heq => hnew.not_mem (heq ▸ h.mine _ (by
    simp [KeyView.fullHashes]))) hshows with ⟨view', hshows', hledgers', _⟩
  exact ⟨view', alive_after hshows' _ _ hledgers'⟩

theorem restore (hcodec : codec.Lawful) {beyond : Nat → UInt8}
    (hstep : tracked.step codec (.restore beyond) = some tracked') :
    (∃ view', tracked'.Alive view') ∨ tracked'.Keyless := by
  rcases Option.map_eq_some_iff.mp hstep with ⟨session, hbind, rfl⟩
  rcases Option.bind_eq_some_iff.mp hbind with ⟨data, hdata, hcreate⟩
  have hstorable : tracked.session.settings.Storable := by
    rw [h.shows_view.settings]
    exact h.ledgers.storable
  by_cases hid : tracked.session.keyID = 0
  · right
    rcases createFromData_keyless hcodec hid hstorable hdata hcreate with
      ⟨hstorable', hid', hmy, hnext⟩
    exact ⟨hid', hmy, hnext, hstorable', h.ledgers.sent.increasing,
      h.ledgers.accepted.increasing⟩
  · left
    rcases createFromData_shows hcodec h.shows_view h.ledgers.sound hid hstorable hdata hcreate with
      ⟨hstorable', _, view', hshows', hagrees⟩
    refine ⟨view', alive_after hshows' _ _ ?_⟩
    apply h.ledgers.of_counters hagrees.sound (hshows'.settings ▸ hstorable')
    · rw [hagrees.theirPreviousKey, hagrees.theirKey]
      exact h.ledgers.previous_ne
    · intro pair _ hnamed
      have hmem : pair ∈ view.nameable := by rwa [← hagrees.nameable]
      exact ⟨hmem, hagrees.counters pair (h.ledgers.sound.ne_vacant hmem) hmem⟩
end Tracked.Alive

theorem Tracked.Keyless.step {tracked' : Tracked P} (h : tracked.Keyless) {codec : Codec P}
    (hcodec : codec.Lawful) {call : Call P} (hstep : tracked.step codec call = some tracked') :
    tracked'.Keyless := by
  cases call with
  | send now newKey sourceMessage =>
    rcases Option.map_eq_some_iff.mp hstep with ⟨out, hprotect, rfl⟩
    rw [SecOTRSSignAndProtectMessage, h.myKey, if_neg (by simp)] at hprotect
    cases hprotect
    exact ⟨h.keyID, h.myKey, h.myNextKey, h.storable, h.fresh.sent, h.fresh.accepted⟩
  | receive supplies incomingMessage =>
    rcases Option.map_eq_some_iff.mp hstep with ⟨exposed, hexpose, rfl⟩
    rcases exposeMessage_ends hexpose with
      ⟨haccepted, hsession⟩ | ⟨myKey, _, hmy, _⟩ | ⟨myKey, _, hmy, _⟩
    · rw [haccepted, hsession]
      exact ⟨h.keyID, h.myKey, h.myNextKey, h.storable, h.fresh.sent, h.fresh.accepted⟩
    all_goals
      rw [h.myKey, h.myNextKey] at hmy
      simp at hmy
  | roll newKey =>
    rcases Option.map_eq_some_iff.mp hstep with ⟨session, hroll, rfl⟩
    rw [SOSOTRSRoll] at hroll
    dsimp only at hroll
    split at hroll
    · rw [SecOTRGenerateNewProposedKey] at hroll
      dsimp only at hroll
      rw [h.myKey] at hroll
      cases hroll
    · cases hroll
      exact ⟨h.keyID, h.myKey, h.myNextKey, h.storable, h.fresh.sent, h.fresh.accepted⟩
  | kickTimeToRoll now =>
    cases hstep
    exact ⟨h.keyID, h.myKey, h.myNextKey, h.storable, h.fresh.sent, h.fresh.accepted⟩
  | precalculate =>
    have hsession : SecOTRSPrecalculateKeysInternal tracked.session = tracked.session := by
      simp only [SecOTRSPrecalculateKeysInternal, h.myKey, h.myNextKey, SecOTRSPrecalculateForPair]
    cases hstep
    rw [hsession]
    exact ⟨h.keyID, h.myKey, h.myNextKey, h.storable, h.fresh.sent, h.fresh.accepted⟩
  | restore beyond =>
    rcases Option.map_eq_some_iff.mp hstep with ⟨session, hbind, rfl⟩
    rcases Option.bind_eq_some_iff.mp hbind with ⟨data, hdata, hcreate⟩
    rcases createFromData_keyless hcodec h.keyID h.storable hdata hcreate with
      ⟨hstorable', hid', hmy, hnext⟩
    exact ⟨hid', hmy, hnext, hstorable', h.fresh.sent, h.fresh.accepted⟩

def Tracked.Kept (tracked : Tracked P) : Prop :=
  (∃ view, tracked.Alive view) ∨ tracked.Keyless

theorem Tracked.Kept.fresh (h : tracked.Kept) : tracked.history.Fresh := by
  rcases h with ⟨_, h⟩ | h
  · exact ⟨h.ledgers.sent.increasing, h.ledgers.accepted.increasing⟩
  · exact h.fresh

theorem Tracked.Kept.step {tracked' : Tracked P} (h : tracked.Kept) {codec : Codec P}
    (hcodec : codec.Lawful) {call : Call P} (hok : call.Harmless tracked)
    (hstep : tracked.step codec call = some tracked') : tracked'.Kept := by
  rcases h with ⟨view, h⟩ | h
  · cases call with
    | send now newKey sourceMessage => exact Or.inl (h.send hok hstep)
    | receive supplies incomingMessage => exact Or.inl (h.receive hok hstep)
    | roll newKey => exact Or.inl (h.roll hok hstep)
    | kickTimeToRoll now =>
      have hshows : (SecOTRSKickTimeToRoll tracked.session now).Shows view :=
        h.shows_view.congr rfl rfl rfl rfl rfl rfl
      cases hstep
      exact Or.inl ⟨view, Tracked.alive_after hshows _ _ h.ledgers⟩
    | precalculate =>
      cases hstep
      rcases h.ledgers.precalculateKeys h.shows_view with ⟨view', hshows', hledgers'⟩
      exact Or.inl ⟨view', Tracked.alive_after hshows' _ _ hledgers'⟩
    | restore beyond => exact h.restore hcodec hstep
  · exact Or.inr (h.step hcodec hstep)

structure SecOTRSession.Established (session : SecOTRSession P) : Prop where
  done : session.state = .kDone
  keys : ∃ view, session.Shows view ∧ view.Sound ∧ view.settings.Storable ∧
    view.theirPreviousKey.map SecPDHKGetHash ≠ some (SecPDHKGetHash view.theirKey)

theorem Tracked.start_kept (h : session.Established) :
    (Tracked.start session).Kept := by
  rcases h.keys with ⟨view, hshows, hsound, hstorable, hprevious⟩
  left
  refine ⟨view, hshows, ?_, ?_, hstorable, hsound, hprevious, keeps_nil, keeps_nil⟩
  · intro hash hhash
    rw [← hshows.myHashes] at hhash
    exact List.mem_append_left _ hhash
  · intro hash hhash
    rw [← hshows.theirHashes] at hhash
    exact List.mem_append_left _ hhash

/-- In a run of harmless calls no two sends share keys and counter, and the counters accepted for
a pair increase. -/
theorem counters_fresh {codec : Codec P} (hcodec : codec.Lawful) {session : SecOTRSession P}
    (hestablished : session.Established) {calls : List (Call P)} {tracked : Tracked P}
    (hrun : Run (Tracked.step codec) (fun tracked call => call.Harmless tracked)
      (Tracked.start session) calls tracked) :
    tracked.history.sent.Nodup ∧
      tracked.history.accepted.Pairwise fun later earlier =>
        later.1 = earlier.1 → earlier.2 < later.2 := by
  have hkept := hrun.invariant Tracked.Kept
    (fun _ _ _ hinv hok hstep => hinv.step hcodec hok hstep) (Tracked.start_kept hestablished)
  rcases hkept.fresh with ⟨hsent, haccepted⟩
  constructor
  · rw [List.pairwise_map] at hsent
    refine hsent.imp ?_
    rintro later earlier hlt rfl
    exact absurd (hlt rfl) (lt_irrefl _)
  · rw [List.pairwise_map] at haccepted
    refine haccepted.imp ?_
    intro later earlier hlt heq
    exact UInt64.lt_iff_toNat_lt.mpr (hlt heq)

@[reducible] def Codec.sample : Codec .sample where
  appendFullIdentity id := some [id]
  appendPublicIdentity id := some [id]
  readFullIdentity c := (ReadByte c).toOption
  readPublicIdentity c := (ReadByte c).toOption
  ccec_ctx_k key := [key]
  fullKey _ k := k.headD 0

theorem Codec.sample_lawful : Codec.sample.Lawful where
  readFullIdentity := by
    rintro id _ rest beyond ⟨⟩
    simp only [List.singleton_append, ReadByte_cons]
    rfl
  readPublicIdentity := by
    rintro id _ rest beyond ⟨⟩
    simp only [List.singleton_append, ReadByte_cons]
    rfl
  import_export := fun _ => rfl
  length_export := fun key => by
    rw [show (Primitives.sample.ccec_export_pub key).length = 65 from rfl]
    omega
  length_k := fun key => by
    rw [show (Codec.sample.ccec_ctx_k key).length = 1 from rfl]
    omega
  fullKey := fun _ => rfl

def freshSession : SecOTRSession .sample where
  __ := SecOTRSessionCreateFromIDAndFlags (P := .sample) 7 9 (List.replicate 16 1)
    false false false 0
  state := .kDone
  keyID := 1
  myKey := some 3
  myNextKey := some 5
  theirKeyID := 1
  theirKey := some 6

theorem freshSession_established : freshSession.Established where
  done := rfl
  keys := by
    refine ⟨⟨freshSession.settings, (3 : UInt8), (5 : UInt8), (6 : UInt8), none, .zero⟩,
      ⟨rfl, rfl, rfl, rfl, rfl, rfl⟩, ⟨by decide, by decide, SlotTable.sound_of_vacant fun _ => rfl⟩,
      ⟨rfl, ?_, ?_⟩, by decide⟩
    · intro data hdata
      cases hdata
    · intro data hdata
      cases hdata

def peerSession (keyID : UInt32) : SecOTRSession .sample where
  __ := SecOTRSessionCreateFromIDAndFlags (P := .sample) 9 7 (List.replicate 16 1)
    false false false 0
  state := .kDone
  keyID := keyID

def offeringMessage (keyID : UInt32) (nextKey : UInt8) (counter : UInt64) : List UInt8 :=
  SecOTRSSignAndProtectRaw_locked (peerSession keyID) nextKey 1
    (newCacheElement (P := .sample) (6 : UInt8) (3 : UInt8)) counter [0x68]

def sampleDataSupplies : DataSupplies .sample where
  acceptTime := 1
  acknowledgeTime := 1
  acknowledgeKey := (9 : UInt8)
  rollTime := 1
  rollKey := (11 : UInt8)
  beyond := fun _ => 0

theorem counterLeft_of_all {rolled? : Option (SecOTRSession P)}
    (hall : rolled?.all (fun rolled => decide (∀ i, (rolled.keyCache i).counter <
      (rolled.keyCache i).counter + 1)) = true) :
    ∀ rolled, rolled? = some rolled → rolled.CounterLeft := by
  rintro rolled rfl myKey theirKey _ _ i _
  rw [Option.all_some, decide_eq_true_iff] at hall
  exact hall i

theorem counters_fresh_sample :
    ∃ tracked, Run (Tracked.step Codec.sample) (fun tracked call => call.Harmless tracked)
        (Tracked.start freshSession)
        [.receive sampleDataSupplies (offeringMessage 1 7 1), .send 1 (9 : UInt8) [0x61]] tracked ∧
      tracked.history.sent.Nodup ∧
      tracked.history.accepted.Pairwise fun later earlier =>
        later.1 = earlier.1 → earlier.2 < later.2 := by
  have hrun : ∃ tracked, Run (Tracked.step Codec.sample)
      (fun tracked call => call.Harmless tracked) (Tracked.start freshSession)
      [.receive sampleDataSupplies (offeringMessage 1 7 1), .send 1 (9 : UInt8) [0x61]]
        tracked := by
    apply Exists.intro
    refine Run.cons_get ⟨⟨⟨by decide +kernel, by decide +kernel⟩,
        ⟨by decide +kernel, by decide +kernel⟩, by decide +kernel⟩, trivial, ?_⟩
      (by decide +kernel) <|
      Run.cons_get ⟨⟨by decide +kernel, by decide +kernel⟩, ?_, trivial⟩
        (by decide +kernel) (Run.nil _)
    · intro key hkey
      have hoffer : freshSession.offer (fun _ => 0) (offeringMessage 1 7 1) = some (7 : UInt8) := by
        decide +kernel
      cases hoffer.symm.trans hkey
      decide +kernel
    · exact counterLeft_of_all (by decide +kernel)
  rcases hrun with ⟨tracked, hrun⟩
  exact ⟨tracked, hrun, counters_fresh Codec.sample_lawful freshSession_established hrun⟩

instance : DecidableEq (Sent .sample) := fun first second =>
  decidable_of_iff (first.myKey = second.myKey ∧ first.theirKey = second.theirKey ∧
    first.counter = second.counter) (by cases first; cases second; simp)

/-- The peer offers its current key as the next one. Once its next offer is taken, the session
counts from zero under the pair that it is still using. -/
theorem counters_reused :
    ∃ tracked, Run (Tracked.step Codec.sample) (fun tracked call => call.KeysNew tracked)
        (Tracked.start freshSession)
        [.receive sampleDataSupplies (offeringMessage 1 6 1), .send 1 (9 : UInt8) [0x61],
          .receive sampleDataSupplies (offeringMessage 2 7 2), .send 1 (9 : UInt8) [0x62],
          .receive sampleDataSupplies (offeringMessage 2 7 2)] tracked ∧
      ¬ tracked.history.sent.Nodup ∧
      ¬ tracked.history.accepted.Pairwise fun later earlier =>
        later.1 = earlier.1 → earlier.2 < later.2 := by
  apply Exists.intro
  refine ⟨Run.cons_get ?_ (by decide +kernel) <| Run.cons_get ?_ (by decide +kernel) <|
    Run.cons_get ?_ (by decide +kernel) <| Run.cons_get ?_ (by decide +kernel) <|
    Run.cons_get ?_ (by decide +kernel) (Run.nil _), ?_, ?_⟩
  · exact ⟨⟨by decide +kernel, by decide +kernel⟩, ⟨by decide +kernel, by decide +kernel⟩,
      by decide +kernel⟩
  · exact ⟨by decide +kernel, by decide +kernel⟩
  · exact ⟨⟨by decide +kernel, by decide +kernel⟩, ⟨by decide +kernel, by decide +kernel⟩,
      by decide +kernel⟩
  · exact ⟨by decide +kernel, by decide +kernel⟩
  · exact ⟨⟨by decide +kernel, by decide +kernel⟩, ⟨by decide +kernel, by decide +kernel⟩,
      by decide +kernel⟩
  · decide +kernel
  · decide +kernel
end SecurityFramework.Otr
