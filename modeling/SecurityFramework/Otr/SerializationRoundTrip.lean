import SecurityFramework.Otr.KeyView
import SecurityFramework.Otr.SessionSerialization

/-! # Reading a serialized OTR session -/

namespace SecurityFramework.Otr
open Memory

variable {P : Primitives}

/-- What the serialization relies on: identities and keys are read as they were written. -/
structure Codec.Lawful (codec : Codec P) : Prop where
  readFullIdentity : ∀ id bytes rest beyond, codec.appendFullIdentity id = some bytes →
    codec.readFullIdentity (.ofBytes (bytes ++ rest) beyond) = some (id, .ofBytes rest beyond)
  readPublicIdentity : ∀ id bytes rest beyond, codec.appendPublicIdentity id = some bytes →
    codec.readPublicIdentity (.ofBytes (bytes ++ rest) beyond) = some (id, .ofBytes rest beyond)
  import_export : ∀ key, P.ccec_import_pub (P.ccec_export_pub key) = some key
  length_export : ∀ key, (P.ccec_export_pub key).length < 2 ^ 32
  length_k : ∀ key, (codec.ccec_ctx_k key).length < 2 ^ 32
  fullKey : ∀ key, codec.fullKey (P.ccec_ctx_pub key) (codec.ccec_ctx_k key) = key

variable (rest : List UInt8) (beyond : Nat → UInt8)

theorem CFDataCreateMutableFromOTRDATA_append {data : List UInt8} (hlen : data.length < 2 ^ 32) :
    CFDataCreateMutableFromOTRDATA (.ofBytes (AppendDATA data ++ rest) beyond) =
      (some data, .ofBytes rest beyond) := by
  have hsize : (UInt32.ofNat data.length).toNat = data.length :=
    UInt32.toNat_ofNat_of_lt' (by rw [UInt32.size]; omega)
  rw [CFDataCreateMutableFromOTRDATA, AppendDATA, List.append_assoc, ReadLong_append]
  simp only [hsize, Cursor.size_ofBytes, List.length_append, Nat.le_add_right, if_true,
    Cursor.peek_ofBytes_append, Cursor.skip_ofBytes_append]

theorem readMessage_append {message : Option (List UInt8)}
    (hlen : ∀ data, message = some data → data.length < 2 ^ 32) :
    readMessage (.ofBytes (appendMessage message ++ rest) beyond) =
      (message, .ofBytes rest beyond) := by
  rw [readMessage]
  cases message with
  | none =>
    rw [appendMessage, List.singleton_append, ReadByte_cons]
    rfl
  | some data =>
    rw [appendMessage, List.cons_append, ReadByte_cons]
    exact CFDataCreateMutableFromOTRDATA_append rest beyond (hlen data rfl)

theorem readCounters_append (counters : UInt64 × UInt64) :
    readCounters (.ofBytes (appendCounters counters ++ rest) beyond) =
      some (counters, .ofBytes rest beyond) := by
  rw [readCounters, appendCounters, List.append_assoc, ReadLongLong_append]
  dsimp only
  rw [ReadLongLong_append]

theorem ofNumber_number (state : SecOTRAuthState) :
    SecOTRAuthState.ofNumber state.number = some state := by
  cases state <;> rfl

variable {codec : Codec P} (hcodec : codec.Lawful)

include hcodec

theorem createFullKey_append (key : P.FullKey) (hrest : rest ≠ []) :
    SecOTRFullDHKCreateFromBytes codec
        (.ofBytes (SecFDHKAppendSerialization codec key ++ rest) beyond) =
      some (key, .ofBytes rest beyond) := by
  have hpub := hcodec.length_export (P.ccec_ctx_pub key)
  have hk := hcodec.length_k key
  have hpubsize : (UInt32.ofNat (P.ccec_export_pub (P.ccec_ctx_pub key)).length).toNat =
      (P.ccec_export_pub (P.ccec_ctx_pub key)).length :=
    UInt32.toNat_ofNat_of_lt' (by rw [UInt32.size]; omega)
  have hksize : (UInt32.ofNat (codec.ccec_ctx_k key).length).toNat =
      (codec.ccec_ctx_k key).length :=
    UInt32.toNat_ofNat_of_lt' (by rw [UInt32.size]; omega)
  have hpos : 0 < rest.length := List.length_pos_iff.mpr hrest
  have hmpi : ReadMPI (.ofBytes (AppendDATA (codec.ccec_ctx_k key) ++ rest) beyond) =
      some (codec.ccec_ctx_k key, .ofBytes rest beyond) := by
    have hsize : 5 ≤ (Cursor.ofBytes (AppendDATA (codec.ccec_ctx_k key) ++ rest) beyond).size := by
      simp only [Cursor.size_ofBytes, List.length_append, AppendDATA, AppendLong, length_toBE]
      omega
    rw [ReadMPI, if_pos hsize, AppendDATA, List.append_assoc, ReadLong_append]
    simp only [hksize, Cursor.size_ofBytes, List.length_append, Nat.le_add_right, if_true,
      Cursor.peek_ofBytes_append, Cursor.skip_ofBytes_append]
  have happend : SecFDHKAppendSerialization codec key ++ rest =
      AppendLong (UInt32.ofNat (P.ccec_export_pub (P.ccec_ctx_pub key)).length) ++
        (P.ccec_export_pub (P.ccec_ctx_pub key) ++
          (AppendDATA (codec.ccec_ctx_k key) ++ rest)) := by
    simp only [SecFDHKAppendSerialization, AppendDATA, List.append_assoc]
  rw [happend, SecOTRFullDHKCreateFromBytes, ReadLong_append]
  simp only [hpubsize, Cursor.size_ofBytes, List.length_append, Nat.le_add_right, if_true,
    Cursor.peek_ofBytes_append, Cursor.skip_ofBytes_append, hcodec.import_export, hmpi,
    Option.map_some, hcodec.fullKey]

theorem readPublicKey_append (key : P.PublicKey) :
    readPublicKey (.ofBytes (SecPDHKAppendSerialization key ++ rest) beyond) =
      some (key, .ofBytes rest beyond) := by
  have hsize : (UInt32.ofNat (P.ccec_export_pub key).length).toNat =
      (P.ccec_export_pub key).length :=
    UInt32.toNat_ofNat_of_lt' (by
      have hlen := hcodec.length_export key
      rw [UInt32.size]
      omega)
  rw [readPublicKey, SecPDHKAppendSerialization, AppendDATA, List.append_assoc, ReadLong_append]
  simp only [hsize, Cursor.size_ofBytes, List.length_append, Nat.le_add_right, if_true,
    Cursor.peek_ofBytes_append, Cursor.skip_ofBytes_append, hcodec.import_export, Option.map_some]

theorem readPublicKeys_append (session : SecOTRSession P) (theirKeyID : UInt32)
    {theirKey : P.PublicKey} (htheir : session.theirKey = some theirKey) :
    readPublicKeys 6 (numberOfKeys session) theirKeyID
        (.ofBytes (appendPublicKey session.theirPreviousKey ++
          (appendPublicKey session.theirKey ++ rest)) beyond) =
      some ((session.theirPreviousKey, session.theirKey), .ofBytes rest beyond) := by
  rw [readPublicKeys, numberOfKeys, htheir]
  cases session.theirPreviousKey with
  | none =>
    simp only [appendPublicKey, List.nil_append]
    rw [readPublicKey_append rest beyond hcodec]
    rfl
  | some theirPreviousKey =>
    simp only [appendPublicKey]
    rw [readPublicKey_append _ beyond hcodec]
    dsimp only
    rw [readPublicKey_append rest beyond hcodec]
    rfl

omit hcodec

/-- A view of the same keys, with the same counters for some pairs. -/
structure KeyView.Agrees (target view : KeyView P) (on : KeyPair → Prop) : Prop where
  sound : view.Sound
  myKey : view.myKey = target.myKey
  myNextKey : view.myNextKey = target.myNextKey
  theirKey : view.theirKey = target.theirKey
  theirPreviousKey : view.theirPreviousKey = target.theirPreviousKey
  counters : ∀ pair, pair ≠ vacantPair → on pair → view.counters pair = target.counters pair

def KeyView.countersOf (view : KeyView P) (myKey : P.FullKey) (theirKey? : Option P.PublicKey) :
    UInt64 × UInt64 :=
  match theirKey? with
  | some theirKey => view.counters (pairOf myKey theirKey)
  | none => (0, 0)

namespace KeyView.Agrees
variable {target view : KeyView P} {on : KeyPair → Prop} (h : target.Agrees view on)

include h

theorem nameable : view.nameable = target.nameable := by
  rw [KeyView.nameable, KeyView.fullHashes, KeyView.publicHashes, h.myKey, h.myNextKey, h.theirKey,
    h.theirPreviousKey]
  rfl

theorem of_cache {view' : KeyView P} {on' : KeyPair → Prop} {keyCache : KeyCache}
    (hview : view' = { view with keyCache := keyCache }) (hsound : view'.Sound)
    (hcounters : ∀ pair, pair ≠ vacantPair → on' pair →
      view'.counters pair = target.counters pair) : target.Agrees view' on' := by
  subst hview
  exact ⟨hsound, h.myKey, h.myNextKey, h.theirKey, h.theirPreviousKey, hcounters⟩

theorem find {myKey : P.FullKey} {theirKey : P.PublicKey}
    (hpair : pairOf myKey theirKey ∈ target.nameable) :
    target.Agrees (view.find myKey theirKey).1 on := by
  rw [← h.nameable] at hpair
  have hview : (view.find myKey theirKey).1 =
      { view with keyCache := (view.find myKey theirKey).1.keyCache } := by
    rw [KeyView.find]
    split <;> rfl
  apply h.of_cache hview (h.sound.find hpair)
  intro pair hne hon
  rw [h.sound.counters_find hpair hne]
  exact h.counters pair hne hon

theorem count {myKey : P.FullKey} {theirKey : P.PublicKey}
    (hpair : pairOf myKey theirKey ∈ target.nameable) :
    target.Agrees
      (view.count myKey theirKey fun _ => target.counters (pairOf myKey theirKey))
      fun pair => pair = pairOf myKey theirKey ∨ on pair := by
  rw [← h.nameable] at hpair
  have hview : (view.count myKey theirKey fun _ => target.counters (pairOf myKey theirKey)) =
      { view with keyCache := (view.count myKey theirKey fun _ =>
          target.counters (pairOf myKey theirKey)).keyCache } := by
    rw [KeyView.count, KeyView.find]
    split <;> rfl
  apply h.of_cache hview (h.sound.count hpair)
  intro pair hne hon
  rw [h.sound.counters_count hpair hne]
  split
  · next heq => rw [heq]
  · next hother => exact h.counters pair hne (hon.resolve_left hother)

theorem mono {on' : KeyPair → Prop} (himp : ∀ pair, on' pair → on pair) : target.Agrees view on' :=
  { h with counters := fun pair hne hon => h.counters pair hne (himp pair hon) }

theorem pairCounters {session : SecOTRSession P} (hshows : session.Shows view)
    (hall : ∀ pair, on pair) {myKey : P.FullKey} {theirKey? : Option P.PublicKey}
    (hpair : ∀ theirKey, theirKey? = some theirKey → pairOf myKey theirKey ∈ target.nameable) :
    (Otr.pairCounters session (some myKey) theirKey?).2 = target.countersOf myKey theirKey? ∧
      ∃ view', (Otr.pairCounters session (some myKey) theirKey?).1.Shows view' ∧
        target.Agrees view' on := by
  cases theirKey? with
  | none => exact ⟨rfl, view, hshows, h⟩
  | some theirKey =>
    have hpair := hpair theirKey rfl
    have hpair' : pairOf myKey theirKey ∈ view.nameable := by rwa [h.nameable]
    rcases hshows.find myKey theirKey with ⟨hfound, hslot⟩
    refine ⟨?_, _, hfound, h.find hpair⟩
    have hcounters := h.sound.counters_slot hpair'
    rw [h.counters _ (h.sound.ne_vacant hpair') (hall _)] at hcounters
    rw [KeyView.countersOf, ← hcounters, ← hslot, ← hfound.keyCache]
    rfl

theorem setCounters {session : SecOTRSession P} (hshows : session.Shows view)
    {myKey : P.FullKey} {theirKey? : Option P.PublicKey}
    (hpair : ∀ theirKey, theirKey? = some theirKey → pairOf myKey theirKey ∈ target.nameable) :
    ∃ view', (Otr.setCounters session (some myKey) theirKey?
        (target.countersOf myKey theirKey?)).Shows view' ∧
      target.Agrees view' fun pair => theirKey?.map (pairOf myKey) = some pair ∨ on pair := by
  cases theirKey? with
  | none => exact ⟨view, hshows, h.mono fun pair hon => hon.resolve_left (by simp)⟩
  | some theirKey =>
    refine ⟨_, hshows.count myKey theirKey fun _ => target.counters (pairOf myKey theirKey),
      (h.count (hpair theirKey rfl)).mono ?_⟩
    rintro pair (hpair | hon)
    · rw [Option.map_some, Option.some.injEq] at hpair
      exact Or.inl hpair.symm
    · exact Or.inr hon
end KeyView.Agrees

namespace KeyView
variable {view : KeyView P}

theorem Sound.agrees (hsound : view.Sound) : view.Agrees view fun _ => True :=
  ⟨hsound, rfl, rfl, rfl, rfl, fun _ _ _ => rfl⟩
end KeyView

variable {view : KeyView P}

theorem appendAllCounters_eq {session : SecOTRSession P} (hshows : session.Shows view)
    (hsound : view.Sound) :
    appendAllCounters session =
      appendCounters (view.countersOf view.myKey (some view.theirKey)) ++
        appendCounters (view.countersOf view.myKey view.theirPreviousKey) ++
        appendCounters (view.countersOf view.myNextKey (some view.theirKey)) ++
        appendCounters (view.countersOf view.myNextKey view.theirPreviousKey) := by
  have hcurrent : ∀ myKey, myKey = view.myKey ∨ myKey = view.myNextKey → ∀ theirKey,
      some view.theirKey = some theirKey → pairOf myKey theirKey ∈ view.nameable :=
    fun myKey hmy theirKey htheir => KeyView.pairOf_mem_nameable hmy (Or.inl htheir.symm)
  have hprevious : ∀ myKey, myKey = view.myKey ∨ myKey = view.myNextKey → ∀ theirKey,
      view.theirPreviousKey = some theirKey → pairOf myKey theirKey ∈ view.nameable :=
    fun myKey hmy theirKey htheir => KeyView.pairOf_mem_nameable hmy (Or.inr htheir)
  rcases hsound.agrees.pairCounters hshows (fun _ => trivial) (hcurrent _ (Or.inl rfl)) with
    ⟨hfirst, view₁, hshows₁, hagrees₁⟩
  rcases hagrees₁.pairCounters hshows₁ (fun _ => trivial) (hprevious _ (Or.inl rfl)) with
    ⟨hsecond, view₂, hshows₂, hagrees₂⟩
  rcases hagrees₂.pairCounters hshows₂ (fun _ => trivial) (hcurrent _ (Or.inr rfl)) with
    ⟨hthird, view₃, hshows₃, hagrees₃⟩
  rcases hagrees₃.pairCounters hshows₃ (fun _ => trivial) (hprevious _ (Or.inr rfl)) with
    ⟨hfourth, _⟩
  rw [appendAllCounters, hshows.myKey, hshows.myNextKey, hshows.theirKey, hshows.theirPreviousKey]
  simp only [hfirst, hsecond, hthird, hfourth]

theorem readAllCounters_append {session : SecOTRSession P} {target : KeyView P}
    (hshows : session.Shows view) (hagrees : target.Agrees view fun _ => False) :
    ∃ session' view', readAllCounters session
        (.ofBytes (appendCounters (target.countersOf target.myKey (some target.theirKey)) ++
          (appendCounters (target.countersOf target.myKey target.theirPreviousKey) ++
          (appendCounters (target.countersOf target.myNextKey (some target.theirKey)) ++
          (appendCounters (target.countersOf target.myNextKey target.theirPreviousKey) ++
            rest)))) beyond) = some (session', .ofBytes rest beyond) ∧
      session'.Shows view' ∧ target.Agrees view' fun pair => pair ∈ target.nameable := by
  have hcurrent : ∀ myKey, myKey = target.myKey ∨ myKey = target.myNextKey → ∀ theirKey,
      some target.theirKey = some theirKey → pairOf myKey theirKey ∈ target.nameable :=
    fun myKey hmy theirKey htheir => KeyView.pairOf_mem_nameable hmy (Or.inl htheir.symm)
  have hprevious : ∀ myKey, myKey = target.myKey ∨ myKey = target.myNextKey → ∀ theirKey,
      target.theirPreviousKey = some theirKey → pairOf myKey theirKey ∈ target.nameable :=
    fun myKey hmy theirKey htheir => KeyView.pairOf_mem_nameable hmy (Or.inr htheir)
  rcases hagrees.setCounters hshows (hcurrent _ (Or.inl rfl)) with ⟨view₁, hshows₁, hagrees₁⟩
  rcases hagrees₁.setCounters hshows₁ (hprevious _ (Or.inl rfl)) with ⟨view₂, hshows₂, hagrees₂⟩
  rcases hagrees₂.setCounters hshows₂ (hcurrent _ (Or.inr rfl)) with ⟨view₃, hshows₃, hagrees₃⟩
  rcases hagrees₃.setCounters hshows₃ (hprevious _ (Or.inr rfl)) with ⟨view₄, hshows₄, hagrees₄⟩
  refine ⟨_, view₄, ?_, hshows₄, hagrees₄.mono ?_⟩
  · rw [readAllCounters, readCounters_append]
    dsimp only
    rw [readCounters_append]
    dsimp only
    rw [readCounters_append]
    dsimp only
    rw [readCounters_append, hshows.myKey, hshows.myNextKey, hshows.theirKey,
      hshows.theirPreviousKey, hagrees.myKey, hagrees.myNextKey, hagrees.theirKey,
      hagrees.theirPreviousKey]
    rfl
  · intro pair hpair
    rw [KeyView.mem_nameable] at hpair
    rcases hpair with ⟨hfull, hother⟩
    simp only [KeyView.fullHashes, KeyView.publicHashes, List.mem_cons, List.not_mem_nil, or_false,
      Option.mem_toList, Option.map_eq_some_iff] at hfull hother
    simp only [Option.map_some, Option.some.injEq, Option.map_eq_some_iff, pairOf, Prod.ext_iff]
    rcases hfull with hfull | hfull <;> rcases hother with hother | ⟨key, hkey, hother⟩
    · exact Or.inr (Or.inr (Or.inr (Or.inl ⟨hfull.symm, hother.symm⟩)))
    · exact Or.inr (Or.inr (Or.inl ⟨key, hkey, hfull.symm, hother⟩))
    · exact Or.inr (Or.inl ⟨hfull.symm, hother.symm⟩)
    · exact Or.inl ⟨key, hkey, hfull.symm, hother⟩

/-- The fields that reading the settings leaves alone. -/
structure SecOTRSession.SameKeys (session session' : SecOTRSession P) : Prop where
  r : session'.r = session.r
  receivedDHMessage : session'.receivedDHMessage = session.receivedDHMessage
  receivedDHKeyMessage : session'.receivedDHKeyMessage = session.receivedDHKeyMessage
  keyID : session'.keyID = session.keyID
  myKey : session'.myKey = session.myKey
  myNextKey : session'.myNextKey = session.myNextKey
  theirPreviousKey : session'.theirPreviousKey = session.theirPreviousKey
  theirKey : session'.theirKey = session.theirKey
  keyCache : session'.keyCache = session.keyCache

theorem readSettings_sameKeys {version : UInt8} {session session' : SecOTRSession P} {c : Cursor}
    (hread : readSettings version session c = some session') : session.SameKeys session' := by
  rw [readSettings] at hread
  simp only [Option.bind_eq_bind, Option.bind_eq_some_iff] at hread
  rcases hread with ⟨_, _, _, _, hread⟩
  split at hread
  · cases hread
    exact ⟨rfl, rfl, rfl, rfl, rfl, rfl, rfl, rfl, rfl⟩
  simp only [Option.bind_eq_some_iff] at hread
  rcases hread with ⟨_, _, hread⟩
  split at hread
  · cases hread
    exact ⟨rfl, rfl, rfl, rfl, rfl, rfl, rfl, rfl, rfl⟩
  simp only [Option.bind_eq_some_iff] at hread
  rcases hread with ⟨_, _, hread⟩
  split at hread
  · cases hread
    exact ⟨rfl, rfl, rfl, rfl, rfl, rfl, rfl, rfl, rfl⟩
  simp only [Option.bind_eq_some_iff] at hread
  rcases hread with ⟨_, _, _, _, _, _, _, _, _, _, hread⟩
  cases hread
  exact ⟨rfl, rfl, rfl, rfl, rfl, rfl, rfl, rfl, rfl⟩

theorem exists_find_eq (session : SecOTRSession P) (myKey : P.FullKey) (theirKey : P.PublicKey) :
    ∃ keyCache, (SecOTRSFindKeysForMessage session myKey theirKey).1 =
      session.setKeyCache keyCache := by
  rw [SecOTRSFindKeysForMessage]
  split
  · exact ⟨session.keyCache, rfl⟩
  · exact ⟨_, rfl⟩

theorem exists_setCounters_eq (session : SecOTRSession P) (myKey? : Option P.FullKey)
    (theirKey? : Option P.PublicKey) (counters : UInt64 × UInt64) :
    ∃ keyCache, setCounters session myKey? theirKey? counters = session.setKeyCache keyCache := by
  cases myKey? with
  | none => exact ⟨session.keyCache, rfl⟩
  | some myKey =>
    cases theirKey? with
    | none => exact ⟨session.keyCache, rfl⟩
    | some theirKey =>
      rcases exists_find_eq session myKey theirKey with ⟨keyCache, hfind⟩
      rw [setCounters]
      dsimp only
      rw [hfind]
      exact ⟨_, rfl⟩

theorem readAllCounters_eq {session session' : SecOTRSession P} {c c' : Cursor}
    (hread : readAllCounters session c = some (session', c')) :
    ∃ keyCache, session' = session.setKeyCache keyCache := by
  rw [readAllCounters] at hread
  split at hread
  · cases hread
  split at hread
  · cases hread
  split at hread
  · cases hread
  next first _ _ _ second _ _ _ third _ _ =>
  rcases Option.map_eq_some_iff.mp hread with ⟨fourth, _, hread⟩
  have hsession := congrArg Prod.fst hread
  dsimp only at hsession
  rw [← hsession]
  rcases exists_setCounters_eq session session.myKey session.theirKey first with ⟨cache₁, h₁⟩
  rcases exists_setCounters_eq (session.setKeyCache cache₁) session.myKey
    session.theirPreviousKey second with ⟨cache₂, h₂⟩
  rcases exists_setCounters_eq ((session.setKeyCache cache₁).setKeyCache cache₂) session.myNextKey
    session.theirKey third with ⟨cache₃, h₃⟩
  rcases exists_setCounters_eq (((session.setKeyCache cache₁).setKeyCache cache₂).setKeyCache
    cache₃) session.myNextKey session.theirPreviousKey fourth.1 with ⟨cache₄, h₄⟩
  rw [h₁, h₂, h₃, h₄]
  exact ⟨cache₄, rfl⟩

/-- What is written with its size fixed, or with its length in 32 bits. -/
structure Settings.Storable (settings : Settings P) : Prop where
  r : settings.r.length = kOTRAuthKeyBytes
  dhMessage : ∀ data, settings.receivedDHMessage = some data → data.length < 2 ^ 32
  dhKeyMessage : ∀ data, settings.receivedDHKeyMessage = some data → data.length < 2 ^ 32

theorem Settings.Storable.congr {settings settings' : Settings P} (h : settings.Storable)
    (hr : settings'.r = settings.r)
    (hmessage : settings'.receivedDHMessage = settings.receivedDHMessage)
    (hkeyMessage : settings'.receivedDHKeyMessage = settings.receivedDHKeyMessage) :
    settings'.Storable :=
  ⟨by rw [hr]; exact h.r, by rw [hmessage]; exact h.dhMessage,
    by rw [hkeyMessage]; exact h.dhKeyMessage⟩

def keysSerialization (session : SecOTRSession P) (fullKeys : List UInt8) : List UInt8 :=
  AppendLong session.keyID ++ fullKeys ++ [numberOfKeys session] ++
    AppendLong session.theirKeyID ++ appendPublicKey session.theirPreviousKey ++
    appendPublicKey session.theirKey ++ appendAllCounters session

include hcodec

/-- Reading gets as far as the keys, and has the messages that were written. -/
theorem createFromData_eq {session : SecOTRSession P} {data : List UInt8}
    (hstorable : session.settings.Storable)
    (hdata : SecOTRSAppendSerialization codec session = some data) :
    ∃ fullKeys fresh, appendFullKeys codec session = some fullKeys ∧
      fresh.r = session.r ∧ fresh.receivedDHMessage = session.receivedDHMessage ∧
      fresh.receivedDHKeyMessage = session.receivedDHKeyMessage ∧ fresh.keyCache = KeyCache.zero ∧
      SecOTRSessionCreateFromData codec data beyond =
        (readKeys codec 6 fresh (.ofBytes (keysSerialization session fullKeys ++
          appendSettings session) beyond)).bind fun keys => readSettings 6 keys.1 keys.2 := by
  rw [SecOTRSAppendSerialization] at hdata
  split at hdata
  · next me them fullKeys hme hthem hkeys =>
    cases hdata
    refine ⟨fullKeys, { SecOTRSessionCreateFromIDAndFlags (P := P) session.me session.them
          session.r false false false 0 with
        state := session.state
        receivedDHMessage := session.receivedDHMessage
        receivedDHKeyMessage := session.receivedDHKeyMessage },
      hkeys, rfl, rfl, rfl, rfl, ?_⟩
    have hdh : ∀ data, session.receivedDHMessage = some data → data.length < 2 ^ 32 :=
      hstorable.dhMessage
    have hdhKey : ∀ data, session.receivedDHKeyMessage = some data → data.length < 2 ^ 32 :=
      hstorable.dhKeyMessage
    have hlen : session.r.length = kOTRAuthKeyBytes := hstorable.r
    have hsize : ∀ rest : List UInt8, session.r.length <
        (Cursor.ofBytes (session.r ++ (appendMessage session.receivedDHMessage ++ rest))
          beyond).size := by
      intro rest
      have hpos : 0 < (appendMessage session.receivedDHMessage).length := by
        cases session.receivedDHMessage <;> simp [appendMessage]
      simp only [Cursor.size_ofBytes, List.length_append]
      omega
    simp only [keysSerialization, List.append_assoc, List.cons_append, List.nil_append]
    rw [SecOTRSessionCreateFromData, ReadByte_cons]
    simp only [Except.toOption, Option.bind_eq_bind, Option.bind_some, UInt8.le_refl, if_true,
      ReadLong_append, ofNumber_number, hcodec.readFullIdentity _ _ _ _ hme,
      hcodec.readPublicIdentity _ _ _ _ hthem]
    rw [← hlen, if_pos (hsize _)]
    simp only [Cursor.skip_ofBytes_append, Cursor.peek_ofBytes_append, readReady,
      if_neg (by decide : ¬ (6 : UInt8) < 3), if_pos (by decide : (2 : UInt8) ≤ 6),
      readMessage_append _ _ hdh, readMessage_append _ _ hdhKey,
      Option.bind_some]
  · exact absurd hdata (by simp)

theorem readKeys_append {session fresh : SecOTRSession P} {fullKeys : List UInt8}
    (hshows : session.Shows view) (hsound : view.Sound) (hid : session.keyID ≠ 0)
    (hkeys : appendFullKeys codec session = some fullKeys)
    (hcache : fresh.keyCache = KeyCache.zero) :
    ∃ session' view', readKeys codec 6 fresh
        (.ofBytes (keysSerialization session fullKeys ++ rest) beyond) =
          some (session', .ofBytes rest beyond) ∧
      session'.Shows view' ∧ (view.Agrees view' fun pair => pair ∈ view.nameable) ∧
      session'.r = fresh.r ∧ session'.receivedDHMessage = fresh.receivedDHMessage ∧
      session'.receivedDHKeyMessage = fresh.receivedDHKeyMessage ∧
      session'.keyID = session.keyID := by
  have hpos : 0 < session.keyID := UInt32.pos_iff_ne_zero.mpr hid
  rw [appendFullKeys, if_pos hpos, hshows.myKey, hshows.myNextKey] at hkeys
  cases hkeys
  have hstart : view.Agrees { view with settings := fresh.settings, keyCache := .zero }
      fun _ => False :=
    ⟨⟨hsound.myKey_ne, hsound.ne_zeroHash, SlotTable.sound_of_vacant fun _ => rfl⟩,
      rfl, rfl, rfl, rfl, fun _ _ hon => hon.elim⟩
  have hfresh : ({ fresh with
      keyID := session.keyID
      myKey := some view.myKey
      myNextKey := some view.myNextKey
      theirKeyID := session.theirKeyID
      theirPreviousKey := session.theirPreviousKey
      theirKey := session.theirKey } : SecOTRSession P).Shows
        { view with settings := fresh.settings, keyCache := .zero } :=
    ⟨rfl, rfl, rfl, hshows.theirKey, hshows.theirPreviousKey, hcache⟩
  rcases readAllCounters_append rest beyond hfresh hstart with
    ⟨session', view', hread, hshows', hagrees⟩
  rcases readAllCounters_eq hread with ⟨keyCache, hsession'⟩
  refine ⟨session', view', ?_, hshows', hagrees, ?_⟩
  · simp only [keysSerialization, appendAllCounters_eq hshows hsound, List.append_assoc,
      List.cons_append, List.nil_append]
    rw [readKeys, ReadLong_append]
    simp only [Except.toOption, Option.bind_eq_bind, Option.bind_some, readFullKeys, if_pos hpos]
    rw [createFullKey_append _ _ hcodec _ (by simp [SecFDHKAppendSerialization])]
    dsimp only
    rw [createFullKey_append _ _ hcodec _ (by simp)]
    simp only [Option.map_some, Option.bind_some, ReadByte_cons, ReadLong_append]
    rw [readPublicKeys_append _ beyond hcodec session _ hshows.theirKey]
    exact hread
  · rw [hsession']
    exact ⟨rfl, rfl, rfl, rfl⟩

omit hcodec in
theorem readKeys_keyless {session fresh session' : SecOTRSession P} {fullKeys : List UInt8}
    {c : Cursor} (hid : session.keyID = 0)
    (hread : readKeys codec 6 fresh
      (.ofBytes (keysSerialization session fullKeys ++ rest) beyond) = some (session', c)) :
    session'.r = fresh.r ∧ session'.receivedDHMessage = fresh.receivedDHMessage ∧
      session'.receivedDHKeyMessage = fresh.receivedDHKeyMessage ∧ session'.keyID = 0 ∧
      session'.myKey = none ∧ session'.myNextKey = none := by
  simp only [keysSerialization, List.append_assoc] at hread
  rw [readKeys, ReadLong_append] at hread
  simp only [Except.toOption, Option.bind_eq_bind, Option.bind_some, readFullKeys, hid,
    if_neg (by decide : ¬ (0 : UInt32) < 0), Option.bind_eq_some_iff] at hread
  rcases hread with ⟨_, _, _, _, _, _, hread⟩
  rcases readAllCounters_eq hread with ⟨keyCache, rfl⟩
  exact ⟨rfl, rfl, rfl, rfl, rfl, rfl⟩

variable {beyond} {session session' : SecOTRSession P} {data : List UInt8}

theorem createFromData_shows (hshows : session.Shows view) (hsound : view.Sound)
    (hid : session.keyID ≠ 0) (hstorable : session.settings.Storable)
    (hdata : SecOTRSAppendSerialization codec session = some data)
    (hcreate : SecOTRSessionCreateFromData codec data beyond = some session') :
    session'.settings.Storable ∧ session'.keyID = session.keyID ∧ ∃ view', session'.Shows view' ∧
      view.Agrees view' fun pair => pair ∈ view.nameable := by
  rcases createFromData_eq beyond hcodec hstorable hdata with
    ⟨fullKeys, fresh, hkeys, hr, hmessage, hkeyMessage, hcache, heq⟩
  rcases readKeys_append (appendSettings session) beyond hcodec hshows hsound hid hkeys hcache with
    ⟨read, view', hread, hshows', hagrees, hr', hmessage', hkeyMessage', hid'⟩
  rw [heq, hread, Option.bind_some] at hcreate
  have hsame := readSettings_sameKeys hcreate
  refine ⟨hstorable.congr ((hsame.r.trans hr').trans hr)
    ((hsame.receivedDHMessage.trans hmessage').trans hmessage)
    ((hsame.receivedDHKeyMessage.trans hkeyMessage').trans hkeyMessage),
    hsame.keyID.trans hid', { view' with settings := session'.settings }, ?_, ?_⟩
  · exact ⟨rfl, hsame.myKey.trans hshows'.myKey, hsame.myNextKey.trans hshows'.myNextKey,
      hsame.theirKey.trans hshows'.theirKey,
      hsame.theirPreviousKey.trans hshows'.theirPreviousKey,
      hsame.keyCache.trans hshows'.keyCache⟩
  · exact ⟨⟨hagrees.sound.myKey_ne, hagrees.sound.ne_zeroHash, hagrees.sound.cache⟩,
      hagrees.myKey, hagrees.myNextKey, hagrees.theirKey, hagrees.theirPreviousKey,
      hagrees.counters⟩

theorem createFromData_keyless (hid : session.keyID = 0) (hstorable : session.settings.Storable)
    (hdata : SecOTRSAppendSerialization codec session = some data)
    (hcreate : SecOTRSessionCreateFromData codec data beyond = some session') :
    session'.settings.Storable ∧ session'.keyID = 0 ∧ session'.myKey = none ∧ session'.myNextKey = none := by
  rcases createFromData_eq beyond hcodec hstorable hdata with
    ⟨fullKeys, fresh, hkeys, hr, hmessage, hkeyMessage, hcache, heq⟩
  rw [heq, Option.bind_eq_some_iff] at hcreate
  rcases hcreate with ⟨⟨read, c⟩, hread, hsettings⟩
  rcases readKeys_keyless (appendSettings session) beyond hid hread with
    ⟨hr', hmessage', hkeyMessage', hid', hmy, hnext⟩
  have hsame := readSettings_sameKeys hsettings
  refine ⟨hstorable.congr ((hsame.r.trans hr').trans hr)
    ((hsame.receivedDHMessage.trans hmessage').trans hmessage)
    ((hsame.receivedDHKeyMessage.trans hkeyMessage').trans hkeyMessage),
    hsame.keyID.trans hid', hsame.myKey.trans hmy, hsame.myNextKey.trans hnext⟩
end SecurityFramework.Otr
