import SecurityFramework.Otr.MessageProtection

/-! # Keys and cache of a session -/

namespace SecurityFramework.Otr
variable {P : Primitives}

structure Settings (P : Primitives) where
  state : SecOTRAuthState
  me : P.FullIdentity
  them : P.PublicIdentity
  r : List UInt8
  receivedDHMessage : Option (List UInt8)
  receivedDHKeyMessage : Option (List UInt8)
  textOutput : Bool
  compactAppleMessages : Bool
  includeHashes : Bool
  stallSeconds : UInt64

def SecOTRSession.settings (session : SecOTRSession P) : Settings P where
  state := session.state
  me := session.me
  them := session.them
  r := session.r
  receivedDHMessage := session.receivedDHMessage
  receivedDHKeyMessage := session.receivedDHKeyMessage
  textOutput := session.textOutput
  compactAppleMessages := session.compactAppleMessages
  includeHashes := session.includeHashes
  stallSeconds := session.stallSeconds

structure KeyView (P : Primitives) where
  settings : Settings P
  myKey : P.FullKey
  myNextKey : P.FullKey
  theirKey : P.PublicKey
  theirPreviousKey : Option P.PublicKey
  keyCache : KeyCache

structure SecOTRSession.Shows (session : SecOTRSession P) (view : KeyView P) : Prop where
  settings : session.settings = view.settings
  myKey : session.myKey = some view.myKey
  myNextKey : session.myNextKey = some view.myNextKey
  theirKey : session.theirKey = some view.theirKey
  theirPreviousKey : session.theirPreviousKey = view.theirPreviousKey
  keyCache : session.keyCache = view.keyCache

namespace KeyView
def fullHashes (view : KeyView P) : List (List UInt8) :=
  [SecFDHKGetHash view.myKey, SecFDHKGetHash view.myNextKey]

def publicHashes (view : KeyView P) : List (List UInt8) :=
  SecPDHKGetHash view.theirKey :: (view.theirPreviousKey.map SecPDHKGetHash).toList

def nameable (view : KeyView P) : List KeyPair := view.fullHashes ×ˢ view.publicHashes

def entry (view : KeyView P) (pair : KeyPair) : Option SecOTRCacheElement :=
  SlotTable.entry? SecOTRCacheElement.pair view.keyCache pair

def generate (view : KeyView P) (newKey : P.FullKey) : KeyView P where
  settings := view.settings
  myKey := view.myNextKey
  myNextKey := newKey
  theirKey := view.theirKey
  theirPreviousKey := view.theirPreviousKey
  keyCache := SlotTable.clear SecOTRCacheElement.pair .zero
    (fun pair => pair.1 = SecFDHKGetHash view.myKey) view.keyCache

def accept (view : KeyView P) (newKey : P.PublicKey) : KeyView P where
  settings := view.settings
  myKey := view.myKey
  myNextKey := view.myNextKey
  theirKey := newKey
  theirPreviousKey := some view.theirKey
  keyCache := SlotTable.clear SecOTRCacheElement.pair .zero
    (fun pair => view.theirPreviousKey.map SecPDHKGetHash = some pair.2) view.keyCache

def find (view : KeyView P) (myKey : P.FullKey) (theirKey : P.PublicKey) :
    KeyView P × Fin kOTRKeyCacheSize :=
  match SlotTable.find? SecOTRCacheElement.pair view.keyCache (pairOf myKey theirKey) with
  | some i => (view, i)
  | none =>
    let i := (SlotTable.find? SecOTRCacheElement.pair view.keyCache vacantPair).getD 0
    ({ view with keyCache := Function.update view.keyCache i (newCacheElement myKey theirKey) }, i)

def setElement (view : KeyView P) (i : Fin kOTRKeyCacheSize) (element : SecOTRCacheElement) :
    KeyView P :=
  { view with keyCache := Function.update view.keyCache i element }

/-- The keys of ours differ and their hashes are none of an empty element, and the cache holds
pairs that can be named, each once. -/
structure Sound (view : KeyView P) : Prop where
  myKey_ne : SecFDHKGetHash view.myKey ≠ SecFDHKGetHash view.myNextKey
  ne_zeroHash : ∀ hash ∈ view.fullHashes, hash ≠ zeroHash
  cache : SlotTable.Sound SecOTRCacheElement.pair vacantPair view.nameable view.keyCache

variable {view : KeyView P} {pair : KeyPair}

theorem mem_nameable :
    pair ∈ view.nameable ↔ pair.1 ∈ view.fullHashes ∧ pair.2 ∈ view.publicHashes := by
  rcases pair with ⟨full, other⟩
  exact List.pair_mem_product

theorem pairOf_mem_nameable {myKey : P.FullKey} {theirKey : P.PublicKey}
    (hmy : myKey = view.myKey ∨ myKey = view.myNextKey)
    (htheir : some theirKey = some view.theirKey ∨ view.theirPreviousKey = some theirKey) :
    pairOf myKey theirKey ∈ view.nameable := by
  rw [mem_nameable]
  constructor
  · rcases hmy with rfl | rfl <;> simp [pairOf, fullHashes]
  · rcases htheir with htheir | htheir
    · rw [Option.some.injEq] at htheir
      simp [pairOf, publicHashes, htheir]
    · simp [pairOf, publicHashes, htheir]

theorem length_nameable_le (view : KeyView P) : view.nameable.length ≤ kOTRKeyCacheSize := by
  rw [nameable, List.length_product, fullHashes, publicHashes]
  cases view.theirPreviousKey <;> simp [kOTRKeyCacheSize]

theorem Sound.ne_vacant (hsound : view.Sound) (hpair : pair ∈ view.nameable) :
    pair ≠ vacantPair := by
  rintro rfl
  exact hsound.ne_zeroHash _ (mem_nameable.mp hpair).1 rfl

theorem pair_newCacheElement (myKey : P.FullKey) (theirKey : P.PublicKey) :
    (newCacheElement myKey theirKey).pair = pairOf myKey theirKey := rfl

theorem pair_zero : SecOTRCacheElement.zero.pair = vacantPair := rfl

theorem keyCache_generate (newKey : P.FullKey) : (view.generate newKey).keyCache =
    SlotTable.clear SecOTRCacheElement.pair .zero
      (fun pair => pair.1 = SecFDHKGetHash view.myKey) view.keyCache := rfl

theorem keyCache_accept (newKey : P.PublicKey) : (view.accept newKey).keyCache =
    SlotTable.clear SecOTRCacheElement.pair .zero
      (fun pair => view.theirPreviousKey.map SecPDHKGetHash = some pair.2) view.keyCache := rfl

theorem setElement_self (i : Fin kOTRKeyCacheSize) (element : SecOTRCacheElement) :
    (view.setElement i element).keyCache i = element := Function.update_self ..

theorem mem_nameable_generate {newKey : P.FullKey} (hpair : pair ∈ (view.generate newKey).nameable) :
    pair.1 = SecFDHKGetHash newKey ∨
      (pair ∈ view.nameable ∧ pair.1 = SecFDHKGetHash view.myNextKey) := by
  rw [mem_nameable] at hpair
  rcases hpair with ⟨hfull, hother⟩
  simp only [fullHashes, generate, List.mem_cons, List.not_mem_nil, or_false] at hfull
  rcases hfull with hfull | hfull
  · right
    refine ⟨mem_nameable.mpr ⟨?_, hother⟩, hfull⟩
    simp [fullHashes, hfull]
  · exact Or.inl hfull

theorem Sound.generate (hsound : view.Sound) {newKey : P.FullKey}
    (hne : SecFDHKGetHash newKey ≠ SecFDHKGetHash view.myNextKey)
    (hzero : SecFDHKGetHash newKey ≠ zeroHash) : (view.generate newKey).Sound where
  myKey_ne := hne.symm
  ne_zeroHash := by
    intro hash hhash
    simp only [fullHashes, KeyView.generate, List.mem_cons, List.not_mem_nil, or_false] at hhash
    rcases hhash with rfl | rfl
    · exact hsound.ne_zeroHash _ (by simp [fullHashes])
    · exact hzero
  cache := by
    rw [keyCache_generate]
    apply hsound.cache.clear pair_zero
    intro pair hpair hstays
    rw [mem_nameable] at hpair ⊢
    refine ⟨?_, hpair.2⟩
    have hfull := hpair.1
    simp only [fullHashes, List.mem_cons, List.not_mem_nil, or_false, hstays, false_or] at hfull
    simp [fullHashes, KeyView.generate, hfull]

theorem Sound.entry_generate (hsound : view.Sound) {newKey : P.FullKey} (hpair : pair ≠ vacantPair) :
    (view.generate newKey).entry pair =
      if pair.1 = SecFDHKGetHash view.myKey then none else view.entry pair :=
  hsound.cache.entry?_clear pair_zero hpair

theorem mem_nameable_accept {newKey : P.PublicKey} (hpair : pair ∈ (view.accept newKey).nameable) :
    pair.2 = SecPDHKGetHash newKey ∨
      (pair ∈ view.nameable ∧ pair.2 = SecPDHKGetHash view.theirKey) := by
  rw [mem_nameable] at hpair
  rcases hpair with ⟨hfull, hother⟩
  simp only [publicHashes, accept, Option.map_some, Option.toList_some, List.mem_cons,
    List.not_mem_nil, or_false] at hother
  rcases hother with hother | hother
  · exact Or.inl hother
  · right
    refine ⟨mem_nameable.mpr ⟨hfull, ?_⟩, hother⟩
    simp [publicHashes, hother]

theorem Sound.accept (hsound : view.Sound) (newKey : P.PublicKey) : (view.accept newKey).Sound where
  myKey_ne := hsound.myKey_ne
  ne_zeroHash := hsound.ne_zeroHash
  cache := by
    rw [keyCache_accept]
    apply hsound.cache.clear pair_zero
    intro pair hpair hstays
    rw [mem_nameable] at hpair ⊢
    refine ⟨hpair.1, ?_⟩
    have hother := hpair.2
    simp only [publicHashes, List.mem_cons, Option.mem_toList] at hother
    rcases hother with hother | hother
    · simp [publicHashes, KeyView.accept, hother]
    · exact absurd hother hstays

theorem Sound.entry_accept (hsound : view.Sound) {newKey : P.PublicKey} (hpair : pair ≠ vacantPair) :
    (view.accept newKey).entry pair =
      if view.theirPreviousKey.map SecPDHKGetHash = some pair.2 then none else view.entry pair :=
  hsound.cache.entry?_clear pair_zero hpair

variable {myKey : P.FullKey} {theirKey : P.PublicKey}

theorem Sound.slot_find (hsound : view.Sound) (hpair : pairOf myKey theirKey ∈ view.nameable) :
    SlotTable.find? SecOTRCacheElement.pair view.keyCache (pairOf myKey theirKey) =
        some (view.find myKey theirKey).2 ∧ (view.find myKey theirKey).1 = view ∨
      SlotTable.find? SecOTRCacheElement.pair view.keyCache (pairOf myKey theirKey) = none ∧
        (view.keyCache (view.find myKey theirKey).2).pair = vacantPair ∧
        (view.find myKey theirKey).1 =
          view.setElement (view.find myKey theirKey).2 (newCacheElement myKey theirKey) := by
  rw [find]
  cases hfind : SlotTable.find? SecOTRCacheElement.pair view.keyCache (pairOf myKey theirKey) with
  | some i => exact Or.inl ⟨rfl, rfl⟩
  | none =>
    rcases hsound.cache.exists_vacant (length_nameable_le view) hpair hfind with ⟨i, hvacant⟩
    right
    simp only [hvacant, Option.getD_some]
    exact ⟨trivial, SlotTable.key_of_find? hvacant, rfl⟩

theorem nameable_find : (view.find myKey theirKey).1.nameable = view.nameable := by
  rw [find]
  split <;> rfl

theorem Sound.find (hsound : view.Sound) (hpair : pairOf myKey theirKey ∈ view.nameable) :
    (view.find myKey theirKey).1.Sound := by
  rcases hsound.slot_find hpair with ⟨_, hview⟩ | ⟨hnone, _, hview⟩
  · rw [hview]
    exact hsound
  · rw [hview]
    exact ⟨hsound.myKey_ne, hsound.ne_zeroHash, hsound.cache.update (hsound.ne_vacant hpair) hpair
      (pair_newCacheElement myKey theirKey) (Or.inr hnone)⟩

theorem Sound.entry_slot (hsound : view.Sound) (hpair : pairOf myKey theirKey ∈ view.nameable) :
    (view.find myKey theirKey).1.keyCache (view.find myKey theirKey).2 =
      (view.entry (pairOf myKey theirKey)).getD (newCacheElement myKey theirKey) := by
  rcases hsound.slot_find hpair with ⟨hfind, hview⟩ | ⟨hnone, _, hview⟩
  · rw [hview, entry, SlotTable.entry?, hfind]
    rfl
  · rw [hview, entry, SlotTable.entry?, hnone, setElement_self]
    rfl

theorem Sound.entry_find (hsound : view.Sound) (hpair : pairOf myKey theirKey ∈ view.nameable)
    (hne : pair ≠ vacantPair) :
    (view.find myKey theirKey).1.entry pair =
      if pair = pairOf myKey theirKey then
        some ((view.entry pair).getD (newCacheElement myKey theirKey))
      else view.entry pair := by
  rcases hsound.slot_find hpair with ⟨hfind, hview⟩ | ⟨hnone, hvacant, hview⟩
  · rw [hview]
    split
    · next heq =>
      rw [heq, entry, SlotTable.entry?, hfind]
      rfl
    · rfl
  · have hupdate := hsound.cache.entry?_update (hsound.ne_vacant hpair) hpair hne
      (pair_newCacheElement myKey theirKey) (Or.inr ⟨hnone, hvacant⟩)
    rw [hview]
    refine hupdate.trans ?_
    split
    · next heq =>
      rw [heq, entry, SlotTable.entry?, hnone]
      rfl
    · rfl

theorem Sound.find?_slot (hsound : view.Sound) (hpair : pairOf myKey theirKey ∈ view.nameable) :
    SlotTable.find? SecOTRCacheElement.pair (view.find myKey theirKey).1.keyCache
      (pairOf myKey theirKey) = some (view.find myKey theirKey).2 := by
  rw [(hsound.find hpair).cache.find?_eq_some_iff (hsound.ne_vacant hpair)]
  rcases hsound.slot_find hpair with ⟨hfind, hview⟩ | ⟨_, _, hview⟩
  · rw [hview]
    exact SlotTable.key_of_find? hfind
  · rw [hview]
    rw [setElement_self, pair_newCacheElement]

theorem Sound.setElement (hsound : view.Sound) (hpair : pair ∈ view.nameable)
    {i : Fin kOTRKeyCacheSize} {element : SecOTRCacheElement} (hkey : element.pair = pair)
    (hslot : SlotTable.find? SecOTRCacheElement.pair view.keyCache pair = some i) :
    (view.setElement i element).Sound :=
  ⟨hsound.myKey_ne, hsound.ne_zeroHash,
    hsound.cache.update (hsound.ne_vacant hpair) hpair hkey (Or.inl hslot)⟩

theorem Sound.entry_setElement (hsound : view.Sound) (hpair : pair ∈ view.nameable)
    {i : Fin kOTRKeyCacheSize} {element : SecOTRCacheElement} (hkey : element.pair = pair)
    (hslot : SlotTable.find? SecOTRCacheElement.pair view.keyCache pair = some i) {pair' : KeyPair}
    (hne : pair' ≠ vacantPair) :
    (view.setElement i element).entry pair' =
      if pair' = pair then some element else view.entry pair' :=
  hsound.cache.entry?_update (hsound.ne_vacant hpair) hpair hne hkey (Or.inl hslot)
end KeyView

namespace SecOTRSession.Shows
variable {session : SecOTRSession P} {view : KeyView P} (h : session.Shows view)

include h

theorem find (myKey : P.FullKey) (theirKey : P.PublicKey) :
    (SecOTRSFindKeysForMessage session myKey theirKey).1.Shows (view.find myKey theirKey).1 ∧
      (SecOTRSFindKeysForMessage session myKey theirKey).2 = (view.find myKey theirKey).2 := by
  rw [SecOTRSFindKeysForMessage, KeyView.find, h.keyCache]
  cases SlotTable.find? SecOTRCacheElement.pair view.keyCache (pairOf myKey theirKey) with
  | some i => exact ⟨h, rfl⟩
  | none => exact ⟨⟨h.settings, h.myKey, h.myNextKey, h.theirKey, h.theirPreviousKey, rfl⟩, rfl⟩

theorem setElement (i : Fin kOTRKeyCacheSize) (element : SecOTRCacheElement) :
    (session.setElement i element).Shows (view.setElement i element) :=
  ⟨h.settings, h.myKey, h.myNextKey, h.theirKey, h.theirPreviousKey, by
    rw [SecOTRSession.setElement, h.keyCache]
    rfl⟩

theorem congr {session' : SecOTRSession P} (hsettings : session'.settings = session.settings)
    (hmy : session'.myKey = session.myKey)
    (hnext : session'.myNextKey = session.myNextKey) (htheir : session'.theirKey = session.theirKey)
    (hprevious : session'.theirPreviousKey = session.theirPreviousKey)
    (hcache : session'.keyCache = session.keyCache) : session'.Shows view :=
  ⟨hsettings.trans h.settings, hmy.trans h.myKey, hnext.trans h.myNextKey, htheir.trans h.theirKey,
    hprevious.trans h.theirPreviousKey, hcache.trans h.keyCache⟩

theorem enableTimeToRoll (now : ℚ) : (SecOTRSEnableTimeToRoll session now).Shows view := by
  rw [SecOTRSEnableTimeToRoll]
  split
  · exact h.congr rfl rfl rfl rfl rfl rfl
  · exact h

theorem generate (newKey : P.FullKey) :
    ∃ session', SecOTRGenerateNewProposedKey session newKey = some session' ∧
      session'.Shows (view.generate newKey) := by
  rw [SecOTRGenerateNewProposedKey, h.myKey, Option.map_some]
  refine ⟨_, rfl, h.settings, h.myNextKey, rfl, h.theirKey, h.theirPreviousKey, ?_⟩
  rw [KeyView.keyCache_generate, ← h.keyCache]
  rfl

theorem accept (newKey : P.PublicKey) (now : ℚ) :
    (SecOTRAcceptNewRemoteKey session newKey now).Shows (view.accept newKey) := by
  rw [SecOTRAcceptNewRemoteKey]
  apply enableTimeToRoll
  cases hprevious : session.theirPreviousKey with
  | none =>
    refine ⟨h.settings, h.myKey, h.myNextKey, rfl, h.theirKey, ?_⟩
    have hnone : view.theirPreviousKey = none := by rw [← h.theirPreviousKey, hprevious]
    rw [KeyView.keyCache_accept, hnone]
    rw [Option.map_none, h.keyCache]
    funext i
    exact (if_neg (by simp)).symm
  | some theirPreviousKey =>
    refine ⟨h.settings, h.myKey, h.myNextKey, rfl, h.theirKey, ?_⟩
    have hsome : view.theirPreviousKey = some theirPreviousKey := by
      rw [← h.theirPreviousKey, hprevious]
    rw [KeyView.keyCache_accept, hsome]
    simp only [SecOTRSExpireCachedKeysForPublicKey, expireCachedKeys, h.keyCache, Option.map_some]
    funext i
    simp only [SlotTable.clear, Option.some.injEq, eq_comm]

theorem roll (newKey : P.FullKey) :
    ∃ session', SOSOTRSRoll session newKey = some session' ∧
      (session'.Shows view ∨ session'.Shows (view.generate newKey)) := by
  have hstall : ({ session with stallingTheirRoll := false } : SecOTRSession P).Shows view :=
    h.congr rfl rfl rfl rfl rfl rfl
  rw [SOSOTRSRoll]
  dsimp only
  split
  · rcases hstall.generate newKey with ⟨session', hgenerate, hshows⟩
    rw [hgenerate]
    exact ⟨_, rfl, Or.inr (hshows.congr rfl rfl rfl rfl rfl rfl)⟩
  · exact ⟨_, rfl, Or.inl (hstall.congr rfl rfl rfl rfl rfl rfl)⟩

theorem rollIfTime (now : ℚ) (newKey : P.FullKey) :
    ∃ session', SecOTRSRollIfTime session now newKey = some session' ∧
      (session'.Shows view ∨ session'.Shows (view.generate newKey)) := by
  rw [SecOTRSRollIfTime]
  split
  · rcases h.roll newKey with ⟨session', hroll, hshows⟩
    rw [hroll]
    exact ⟨_, rfl, hshows.imp (·.congr rfl rfl rfl rfl rfl rfl) (·.congr rfl rfl rfl rfl rfl rfl)⟩
  · exact ⟨_, rfl, Or.inl h⟩

theorem acknowledge (now : ℚ) (newKey : P.FullKey) :
    ∃ session', SecOTRSHandleProposalAcknowledge session now newKey = some session' ∧
      (session'.Shows view ∨ session'.Shows (view.generate newKey)) := by
  rw [SecOTRSHandleProposalAcknowledge]
  split
  · rcases h.generate newKey with ⟨session', hgenerate, hshows⟩
    rw [hgenerate]
    exact ⟨_, rfl, Or.inr (hshows.congr rfl rfl rfl rfl rfl rfl)⟩
  · refine ⟨_, rfl, Or.inl (enableTimeToRoll ?_ now)⟩
    exact h.congr rfl rfl rfl rfl rfl rfl
end SecOTRSession.Shows
end SecurityFramework.Otr

namespace SecurityFramework.Otr
variable {P : Primitives}

def SecOTRCacheElement.counters (element : SecOTRCacheElement) : UInt64 × UInt64 :=
  (element.theirCounter, element.counter)

def SecOTRCacheElement.setCounters (element : SecOTRCacheElement) (counters : UInt64 × UInt64) :
    SecOTRCacheElement :=
  { element with theirCounter := counters.1, counter := counters.2 }

theorem SecOTRCacheElement.pair_setCounters (element : SecOTRCacheElement)
    (counters : UInt64 × UInt64) : (element.setCounters counters).pair = element.pair := rfl

namespace KeyView
def counters (view : KeyView P) (pair : KeyPair) : UInt64 × UInt64 :=
  ((view.entry pair).map SecOTRCacheElement.counters).getD (0, 0)

def count (view : KeyView P) (myKey : P.FullKey) (theirKey : P.PublicKey)
    (f : UInt64 × UInt64 → UInt64 × UInt64) : KeyView P :=
  let found := view.find myKey theirKey
  let element := found.1.keyCache found.2
  found.1.setElement found.2 (element.setCounters (f element.counters))

variable {view : KeyView P} {pair : KeyPair} {myKey : P.FullKey} {theirKey : P.PublicKey}

theorem Sound.counters_generate (hsound : view.Sound) {newKey : P.FullKey}
    (hne : pair ≠ vacantPair) :
    (view.generate newKey).counters pair =
      if pair.1 = SecFDHKGetHash view.myKey then (0, 0) else view.counters pair := by
  rw [counters, hsound.entry_generate hne]
  split <;> rfl

theorem Sound.counters_accept (hsound : view.Sound) {newKey : P.PublicKey}
    (hne : pair ≠ vacantPair) :
    (view.accept newKey).counters pair =
      if view.theirPreviousKey.map SecPDHKGetHash = some pair.2 then (0, 0)
      else view.counters pair := by
  rw [counters, hsound.entry_accept hne]
  split <;> rfl

theorem Sound.counters_find (hsound : view.Sound) (hpair : pairOf myKey theirKey ∈ view.nameable)
    (hne : pair ≠ vacantPair) : (view.find myKey theirKey).1.counters pair = view.counters pair := by
  rw [counters, counters, hsound.entry_find hpair hne]
  split
  · cases view.entry pair <;> rfl
  · rfl

theorem Sound.counters_slot (hsound : view.Sound) (hpair : pairOf myKey theirKey ∈ view.nameable) :
    ((view.find myKey theirKey).1.keyCache (view.find myKey theirKey).2).counters =
      view.counters (pairOf myKey theirKey) := by
  rw [hsound.entry_slot hpair, counters]
  cases view.entry (pairOf myKey theirKey) <;> rfl

theorem Sound.pair_slot (hsound : view.Sound) (hpair : pairOf myKey theirKey ∈ view.nameable) :
    ((view.find myKey theirKey).1.keyCache (view.find myKey theirKey).2).pair =
      pairOf myKey theirKey :=
  SlotTable.key_of_find? (hsound.find?_slot hpair)

variable {f : UInt64 × UInt64 → UInt64 × UInt64}

theorem nameable_count : (view.count myKey theirKey f).nameable = view.nameable :=
  nameable_find

theorem Sound.count (hsound : view.Sound) (hpair : pairOf myKey theirKey ∈ view.nameable) :
    (view.count myKey theirKey f).Sound := by
  have hpair' : pairOf myKey theirKey ∈ (view.find myKey theirKey).1.nameable := by
    rwa [nameable_find]
  exact (hsound.find hpair).setElement hpair' (hsound.pair_slot hpair) (hsound.find?_slot hpair)

theorem Sound.counters_count (hsound : view.Sound)
    (hpair : pairOf myKey theirKey ∈ view.nameable) (hne : pair ≠ vacantPair) :
    (view.count myKey theirKey f).counters pair =
      if pair = pairOf myKey theirKey then f (view.counters pair) else view.counters pair := by
  have hpair' : pairOf myKey theirKey ∈ (view.find myKey theirKey).1.nameable := by
    rwa [nameable_find]
  have hkey := (SecOTRCacheElement.pair_setCounters
    ((view.find myKey theirKey).1.keyCache (view.find myKey theirKey).2)
    (f ((view.find myKey theirKey).1.keyCache (view.find myKey theirKey).2).counters)).trans
      (hsound.pair_slot hpair)
  have hentry := (hsound.find hpair).entry_setElement hpair' hkey (hsound.find?_slot hpair) hne
  rw [counters, KeyView.count, hentry]
  split
  · next heq =>
    rw [heq, ← hsound.counters_slot hpair]
    rfl
  · exact hsound.counters_find hpair hne
end KeyView

theorem SecOTRSession.Shows.count {session : SecOTRSession P} {view : KeyView P}
    (h : session.Shows view) (myKey : P.FullKey) (theirKey : P.PublicKey)
    (f : UInt64 × UInt64 → UInt64 × UInt64) :
    ((SecOTRSFindKeysForMessage session myKey theirKey).1.setElement
      (SecOTRSFindKeysForMessage session myKey theirKey).2
      (((SecOTRSFindKeysForMessage session myKey theirKey).1.keyCache
        (SecOTRSFindKeysForMessage session myKey theirKey).2).setCounters
          (f ((SecOTRSFindKeysForMessage session myKey theirKey).1.keyCache
            (SecOTRSFindKeysForMessage session myKey theirKey).2).counters))).Shows
      (view.count myKey theirKey f) := by
  rcases h.find myKey theirKey with ⟨hshows, hslot⟩
  rw [hslot, hshows.keyCache]
  exact hshows.setElement _ _
end SecurityFramework.Otr
