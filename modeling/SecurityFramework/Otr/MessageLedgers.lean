import SecurityFramework.Library.CounterLedger
import SecurityFramework.Otr.MessageEffects
import SecurityFramework.Otr.SerializationRoundTrip

/-! # Ledgers of messages -/

namespace SecurityFramework.Otr
open CounterLedger

variable {P : Primitives}

/-- Hashes of the keys that the session has had, and the messages sent and accepted, the latest
first. -/
structure History (P : Primitives) where
  mine : List (List UInt8)
  theirs : List (List UInt8)
  sent : List (Sent P)
  accepted : List (KeyPair × UInt64)

def Sent.entry (sent : Sent P) : KeyPair × Nat :=
  (pairOf sent.myKey sent.theirKey, sent.counter.toNat)

def acceptedEntry (accepted : KeyPair × UInt64) : KeyPair × Nat :=
  (accepted.1, accepted.2.toNat)

def History.Seen (history : History P) (pair : KeyPair) : Prop :=
  pair.1 ∈ history.mine ∧ pair.2 ∈ history.theirs

/-- A key that the session has not had before, whose hash is not the one of an empty element. -/
structure History.New (history : History P) (newKey : P.FullKey) : Prop where
  not_mem : SecFDHKGetHash newKey ∉ history.mine
  ne_zeroHash : SecFDHKGetHash newKey ≠ zeroHash

/-- The counters of the cache are those of the ledgers, for all pairs that can be named. -/
structure Ledgers (history : History P) (view : KeyView P) : Prop where
  storable : view.settings.Storable
  sound : view.Sound
  previous_ne : view.theirPreviousKey.map SecPDHKGetHash ≠ some (SecPDHKGetHash view.theirKey)
  sent : Keeps (· ∈ view.nameable) history.Seen (fun pair => (view.counters pair).2.toNat)
    (history.sent.map Sent.entry)
  accepted : Keeps (· ∈ view.nameable) history.Seen (fun pair => (view.counters pair).1.toNat)
    (history.accepted.map acceptedEntry)

namespace Ledgers
variable {history : History P} {view view' : KeyView P} (h : Ledgers history view)

include h

/-- Both ledgers are kept to when the pairs seen before that can still be named keep their
counters. -/
theorem of_counters (hsound : view'.Sound) (hstorable : view'.settings.Storable)
    (hprevious : view'.theirPreviousKey.map SecPDHKGetHash ≠ some (SecPDHKGetHash view'.theirKey))
    (hkept : ∀ pair, history.Seen pair → pair ∈ view'.nameable →
      pair ∈ view.nameable ∧ view'.counters pair = view.counters pair) : Ledgers history view' where
  storable := hstorable
  sound := hsound
  previous_ne := hprevious
  sent := h.sent.mono (fun _ => id) fun pair hseen hnamed => by
    rcases hkept pair hseen hnamed with ⟨hmem, hcounters⟩
    exact ⟨hmem, by rw [hcounters]⟩
  accepted := h.accepted.mono (fun _ => id) fun pair hseen hnamed => by
    rcases hkept pair hseen hnamed with ⟨hmem, hcounters⟩
    exact ⟨hmem, by rw [hcounters]⟩

theorem generate {newKey : P.FullKey} (hnew : history.New newKey)
    (hne : SecFDHKGetHash newKey ≠ SecFDHKGetHash view.myNextKey) :
    Ledgers history (view.generate newKey) := by
  have hsound := h.sound.generate hne hnew.ne_zeroHash
  apply h.of_counters hsound h.storable h.previous_ne
  intro pair hseen hnamed
  rcases KeyView.mem_nameable_generate hnamed with hpair | ⟨hmem, hpair⟩
  · exact absurd (hpair ▸ hseen.1) hnew.not_mem
  · refine ⟨hmem, ?_⟩
    rw [h.sound.counters_generate (hsound.ne_vacant hnamed), if_neg]
    rw [hpair]
    exact h.sound.myKey_ne.symm

theorem accept {newKey : P.PublicKey} (hnew : SecPDHKGetHash newKey ∉ history.theirs)
    (htheir : SecPDHKGetHash view.theirKey ∈ history.theirs) :
    Ledgers history (view.accept newKey) := by
  have hsound := h.sound.accept newKey
  apply h.of_counters hsound h.storable
  · intro heq
    rw [KeyView.accept] at heq
    rw [Option.map_some, Option.some.injEq] at heq
    exact hnew (heq ▸ htheir)
  intro pair hseen hnamed
  rcases KeyView.mem_nameable_accept hnamed with hpair | ⟨hmem, hpair⟩
  · exact absurd (hpair ▸ hseen.2) hnew
  · refine ⟨hmem, ?_⟩
    rw [h.sound.counters_accept (hsound.ne_vacant hnamed), if_neg]
    rw [hpair]
    exact h.previous_ne

theorem find {myKey : P.FullKey} {theirKey : P.PublicKey}
    (hpair : pairOf myKey theirKey ∈ view.nameable) :
    Ledgers history (view.find myKey theirKey).1 := by
  have hsound := h.sound.find hpair
  apply h.of_counters hsound
  · rw [KeyView.find]
    split <;> exact h.storable
  · rw [KeyView.find]
    split <;> exact h.previous_ne
  intro pair _ hnamed
  rw [KeyView.nameable_find] at hnamed
  exact ⟨hnamed, h.sound.counters_find hpair (h.sound.ne_vacant hnamed)⟩

variable {f : UInt64 × UInt64 → UInt64 × UInt64} {myKey : P.FullKey} {theirKey : P.PublicKey}

theorem counters_count (hpair : pairOf myKey theirKey ∈ view.nameable) :
    (view.count myKey theirKey f).counters (pairOf myKey theirKey) =
        f (view.counters (pairOf myKey theirKey)) ∧
      ∀ pair, pair ∈ view.nameable → pair ≠ pairOf myKey theirKey →
        (view.count myKey theirKey f).counters pair = view.counters pair := by
  constructor
  · rw [h.sound.counters_count hpair (h.sound.ne_vacant hpair), if_pos rfl]
  · intro pair hmem hne
    rw [h.sound.counters_count hpair (h.sound.ne_vacant hmem), if_neg hne]

theorem previous_ne_count :
    (view.count myKey theirKey f).theirPreviousKey.map SecPDHKGetHash ≠
      some (SecPDHKGetHash (view.count myKey theirKey f).theirKey) := by
  rw [KeyView.count, KeyView.find]
  split <;> exact h.previous_ne

theorem storable_count :
    (view.count myKey theirKey f).settings.Storable := by
  rw [KeyView.count, KeyView.find]
  split <;> exact h.storable

theorem send (hpair : pairOf myKey theirKey ∈ view.nameable)
    (hseen : history.Seen (pairOf myKey theirKey))
    (hlt : (view.counters (pairOf myKey theirKey)).2 <
      (view.counters (pairOf myKey theirKey)).2 + 1) :
    Ledgers { history with
        sent := ⟨myKey, theirKey, (view.counters (pairOf myKey theirKey)).2 + 1⟩ :: history.sent }
      (view.count myKey theirKey fun old => (old.1, old.2 + 1)) := by
  rcases h.counters_count (f := fun old => (old.1, old.2 + 1)) hpair with ⟨hself, hother⟩
  refine ⟨h.storable_count, h.sound.count hpair, h.previous_ne_count, ?_, ?_⟩
  · rw [KeyView.nameable_count]
    apply h.sent.record hpair hseen (UInt64.lt_iff_toNat_lt.mp hlt)
    · rw [hself]
    · intro pair _ hnamed hne
      rw [hother pair hnamed hne]
  · rw [KeyView.nameable_count]
    apply h.accepted.mono fun _ => id
    intro pair _ hnamed
    refine ⟨hnamed, le_of_eq ?_⟩
    by_cases heq : pair = pairOf myKey theirKey
    · rw [heq, hself]
    · rw [hother pair hnamed heq]

theorem receive {counter : UInt64} (hpair : pairOf myKey theirKey ∈ view.nameable)
    (hseen : history.Seen (pairOf myKey theirKey))
    (hlt : (view.counters (pairOf myKey theirKey)).1 < counter) :
    Ledgers { history with accepted := (pairOf myKey theirKey, counter) :: history.accepted }
      (view.count myKey theirKey fun old => (counter, old.2)) := by
  rcases h.counters_count (f := fun old => (counter, old.2)) hpair with ⟨hself, hother⟩
  refine ⟨h.storable_count, h.sound.count hpair, h.previous_ne_count, ?_, ?_⟩
  · rw [KeyView.nameable_count]
    apply h.sent.mono fun _ => id
    intro pair _ hnamed
    refine ⟨hnamed, le_of_eq ?_⟩
    by_cases heq : pair = pairOf myKey theirKey
    · rw [heq, hself]
    · rw [hother pair hnamed heq]
  · rw [KeyView.nameable_count]
    apply h.accepted.record hpair hseen (UInt64.lt_iff_toNat_lt.mp hlt)
    · rw [hself]
    · intro pair _ hnamed hne
      rw [hother pair hnamed hne]
end Ledgers
end SecurityFramework.Otr
