import SecurityFramework.SecureObjectSync.Engine

/-! # Manifests as they are received -/

namespace SecurityFramework
open DER ByteOrder

section
variable (der : Primitives) (dates : DateSystem)

def deltaOctets (octets : List UInt8) : List (List UInt8) :=
  match derDecodeImplicitData der ccderOctetString octets with
  | none => []
  | some (removals, rest) =>
    match derDecodeImplicitData der ccderOctetString rest with
    | none => []
    | some (additions, _) => [removals, additions]

def v0ManifestOctets (octets : List UInt8) : List (List UInt8) :=
  match ccderDecodeUint64 der octets with
  | none => []
  | some (messageType, rest) =>
    if messageType = SOSMessageType.manifest.value then
      ((derDecodeImplicitData der ccderOctetString rest).map Prod.fst).toList
    else if messageType = SOSMessageType.manifestDeltaAndObjects.value then
      match decodeConstructedTl der ccderConstructedSequence rest with
      | none => []
      | some (body, _) =>
        match derDecodeImplicitData der ccderOctetString body with
        | none => []
        | some (_, rest) => deltaOctets der rest
    else []

def v2ManifestOctets (octets : List UInt8) : List (List UInt8) :=
  match derDecodeMessageHeader der dates SOSMessageAllocate octets with
  | none => []
  | some (_, rest) =>
    match decodeConstructedTl der (ccderConstructedContext 0) rest with
    | none => []
    | some (deltas, _) => deltaOctets der deltas

def manifestOctets (derData : List UInt8) : List (List UInt8) :=
  match der.decodeTag derData with
  | none => []
  | some (_, rest) =>
    match ccberDecodeLen der rest with
    | none => []
    | some (bodyLen, rest) =>
      let body := rest.take (if bodyLen.getD 0 = 0 then rest.length else bodyLen.getD 0)
      match der.decodeTag body with
      | none => []
      | some (tag, _) =>
        if tag = ccderInteger then v0ManifestOctets der body
        else if tag = ccderConstructedSequence then v2ManifestOctets der dates body
        else []
end

/-- Blocks of a digest's size, each less than those after it. -/
def AscendingDigests (octets : List UInt8) : Prop :=
  ∃ blocks : List (List UInt8), octets = blocks.flatten ∧
    (∀ block ∈ blocks, block.length = SOSDigestSize) ∧
    blocks.Pairwise fun a b => memcmp a b < 0

def SOSMessage.manifests (message : SOSMessage) : List SOSManifest :=
  message.removals.toList ++ message.additions.toList

section
variable {der : Primitives} {dates : DateSystem} {message message' : SOSMessage}
  {octets rest : List UInt8}

theorem derDecodeDeltasBody_manifests
    (hread : derDecodeDeltasBody der message octets = some (message', rest)) :
    message'.manifests.map SOSManifest.digestVector = deltaOctets der octets := by
  simp only [derDecodeDeltasBody, Option.bind_eq_bind, Option.bind_eq_some_iff, Option.some.injEq,
    Prod.mk.injEq] at hread
  obtain ⟨⟨removals, afterRemovals⟩, hremovals, ⟨additions, after⟩, hadditions, rfl, rfl⟩ := hread
  simp only at hadditions
  simp only [deltaOctets, hremovals, hadditions]
  rfl

theorem deltaOctets_eq_nil (hread : derDecodeDeltasBody der message octets = none) :
    deltaOctets der octets = [] := by
  rw [deltaOctets]
  cases hremovals : derDecodeImplicitData der ccderOctetString octets with
  | none => rfl
  | some result =>
    obtain ⟨removals, afterRemovals⟩ := result
    cases hadditions : derDecodeImplicitData der ccderOctetString afterRemovals with
    | none => simp only [hadditions]
    | some result => simp [derDecodeDeltasBody, hremovals, hadditions] at hread

theorem derDecodeV0MessageBody_manifests (hnone : message.manifests = [])
    (hread : derDecodeV0MessageBody der message octets = some (message', rest)) :
    message'.manifests.map SOSManifest.digestVector = v0ManifestOctets der octets := by
  simp only [derDecodeV0MessageBody, Option.bind_eq_bind, Option.bind_eq_some_iff] at hread
  obtain ⟨⟨messageType, afterType⟩, htype, hread⟩ := hread
  rw [v0ManifestOctets, htype]
  simp only
  split at hread
  case isTrue hdigest =>
    simp only [Option.bind_eq_some_iff, Option.some.injEq, Prod.mk.injEq] at hread
    obtain ⟨⟨senderDigest, after⟩, -, rfl, rfl⟩ := hread
    simp only at hdigest
    rw [hdigest, if_neg (by decide), if_neg (by decide)]
    exact congrArg _ hnone
  case isFalse hdigest =>
    split at hread
    case isTrue hmanifest =>
      simp only [Option.bind_eq_some_iff, Option.some.injEq, Prod.mk.injEq] at hread
      obtain ⟨⟨manifestBody, after⟩, hbody, rfl, rfl⟩ := hread
      have hremovals : message.removals = none := by
        simpa [SOSMessage.manifests] using (List.append_eq_nil_iff.mp hnone).1
      rw [if_pos hmanifest, hbody]
      simp [SOSMessage.manifests, hremovals, SOSManifestCreateWithData]
    case isFalse hmanifest =>
      rw [if_neg hmanifest]
      split at hread
      case isTrue hdeltas =>
        rw [if_pos hdeltas]
        simp only [derDecodeManifestAndObjectsMessage, Option.bind_eq_bind,
          Option.bind_eq_some_iff] at hread
        obtain ⟨⟨body, after⟩, hbody, hread⟩ := hread
        split at hread
        case isFalse => cases hread
        case isTrue =>
          simp only [Option.bind_eq_some_iff, Option.some.injEq, Prod.mk.injEq] at hread
          obtain ⟨⟨baseDigest, afterBase⟩, hbase, ⟨decoded, afterDeltas⟩, hdecoded, _, _, rfl, -⟩ :=
            hread
          have hmanifests := derDecodeDeltasBody_manifests hdecoded
          rw [hbody]
          simp only [hbase]
          exact hmanifests
      case isFalse hdeltas =>
        cases hread
        rw [if_neg hdeltas, hnone]
        rfl

/-- The header has no manifests, and where it ends does not depend on the message it goes to. -/
theorem derDecodeMessageHeader_position
    (hread : derDecodeMessageHeader der dates message octets = some (message', rest)) :
    message'.manifests = message.manifests ∧ ∀ other, ∃ other',
      derDecodeMessageHeader der dates other octets = some (other', rest) := by
  simp only [derDecodeMessageHeader, Option.bind_eq_bind, Option.bind_eq_some_iff,
    Option.some.injEq, Prod.mk.injEq] at hread
  obtain ⟨⟨body, after⟩, hbody, ⟨flags, afterFlags⟩, hflags, ⟨digest, afterDigest⟩, hdigest,
    rfl, rfl⟩ := hread
  refine ⟨rfl, ?_⟩
  intro other
  simp only [derDecodeMessageHeader, Option.bind_eq_bind, hbody, Option.bind_some, hflags, hdigest]
  exact ⟨_, rfl⟩

/-- Deltas that are left out, or cannot be read, leave the message as it is. -/
theorem decodeOptional_deltas_manifests (hnone : message.manifests = []) (octets : List UInt8) :
    (((decodeOptional (derDecodeDeltas der message) octets).1.getD message).manifests.map
      SOSManifest.digestVector) =
        match decodeConstructedTl der (ccderConstructedContext 0) octets with
        | none => []
        | some (deltas, _) => deltaOctets der deltas := by
  cases htl : decodeConstructedTl der (ccderConstructedContext 0) octets with
  | none => simp [decodeOptional, derDecodeDeltas, htl, hnone]
  | some result =>
    obtain ⟨deltas, after⟩ := result
    cases hbody : derDecodeDeltasBody der message deltas with
    | none =>
      simp [decodeOptional, derDecodeDeltas, htl, hbody, hnone, deltaOctets_eq_nil hbody]
    | some result =>
      obtain ⟨decoded, rest⟩ := result
      simp [decodeOptional, derDecodeDeltas, htl, hbody, ← derDecodeDeltasBody_manifests hbody]

theorem decodeOptional_objects_manifests (message : SOSMessage) (octets : List UInt8) :
    ((decodeOptional (derDecodeObjects der message) octets).1.getD message).manifests =
      message.manifests := by
  cases hread : derDecodeObjects der message octets with
  | none => simp [decodeOptional, hread]
  | some result =>
    obtain ⟨decoded, rest⟩ := result
    simp only [decodeOptional, hread, Option.getD_some]
    simp only [derDecodeObjects, Option.bind_eq_bind, Option.bind_eq_some_iff] at hread
    obtain ⟨⟨tag, afterTag⟩, -, hread⟩ := hread
    split at hread
    case isFalse => cases hread
    case isTrue =>
      simp only [Option.bind_eq_some_iff] at hread
      obtain ⟨⟨objectsLen, afterLen⟩, -, hread⟩ := hread
      cases objectsLen with
      | none | some len =>
        cases hread
        rfl

theorem derDecodeV2MessageBody_manifests (hnone : message.manifests = [])
    (hread : derDecodeV2MessageBody der dates message octets = some (message', rest)) :
    message'.manifests.map SOSManifest.digestVector = v2ManifestOctets der dates octets := by
  simp only [derDecodeV2MessageBody, Option.bind_eq_bind, Option.bind_eq_some_iff,
    Option.some.injEq, Prod.mk.injEq] at hread
  obtain ⟨⟨withHeader, afterHeader⟩, hheader, rfl, -⟩ := hread
  obtain ⟨hkept, hposition⟩ := derDecodeMessageHeader_position hheader
  obtain ⟨other, hother⟩ := hposition SOSMessageAllocate
  rw [decodeOptional_objects_manifests, decodeOptional_deltas_manifests (hkept.trans hnone),
    v2ManifestOctets, hother]

/-- The manifests of an accepted message are its octet strings, neither sorted nor checked. -/
theorem SOSMessageCreateWithData_manifests {derData : List UInt8}
    (haccepted : SOSMessageCreateWithData der dates derData = some message) :
    message.manifests.map SOSManifest.digestVector = manifestOctets der dates derData := by
  obtain ⟨empty, hempty⟩ : ∃ message : SOSMessage,
      message = { SOSMessageAllocate with der := derData } := ⟨_, rfl⟩
  have hnone : empty.manifests = [] := by
    rw [hempty]
    rfl
  rw [SOSMessageCreateWithData, ← hempty] at haccepted
  simp only [Option.bind_eq_bind, Option.bind_eq_some_iff] at haccepted
  obtain ⟨⟨decoded, position⟩, hdecoded, haccepted⟩ := haccepted
  split at haccepted
  case isFalse => cases haccepted
  case isTrue =>
    cases haccepted
    simp only [derDecodeMessage, Option.bind_eq_bind, Option.bind_eq_some_iff] at hdecoded
    obtain ⟨⟨tag, afterTag⟩, htag, hdecoded⟩ := hdecoded
    split at hdecoded
    case isFalse => cases hdecoded
    case isTrue =>
      simp only [Option.bind_eq_some_iff, Option.some.injEq, Prod.mk.injEq] at hdecoded
      obtain ⟨⟨bodyLen, afterLen⟩, hlen, ⟨inBody, bodyPosition⟩, hbody, rfl, -⟩ := hdecoded
      simp only at hlen hbody
      rw [derDecodeMessageBody] at hbody
      split at hbody
      case h_1 hbodyTag =>
        cases hbody
        simp only [manifestOctets, htag, hlen, hbodyTag, hnone]
        rfl
      case h_2 bodyTag _ hbodyTag =>
        simp only [manifestOctets, htag, hlen, hbodyTag]
        split at hbody
        case isTrue hinteger =>
          rw [if_pos hinteger]
          split at hbody
          case isTrue => cases hbody
          case isFalse => exact derDecodeV0MessageBody_manifests hnone hbody
        case isFalse hinteger =>
          rw [if_neg hinteger]
          split at hbody
          case isTrue hsequence =>
            rw [if_pos hsequence]
            exact derDecodeV2MessageBody_manifests hnone hbody
          case isFalse hsequence =>
            cases hbody
            rw [if_neg hsequence, hnone]
            rfl
end

theorem exists_digests {blocks : List (List UInt8)}
    (hblocks : ∀ block ∈ blocks, block.length = SOSDigestSize) :
    ∃ ds : List Digest, ds.map Digest.bytes = blocks := by
  induction blocks with
  | nil => exact ⟨[], rfl⟩
  | cons block blocks ih =>
    obtain ⟨ds, hds⟩ := ih fun other hother => hblocks other (List.mem_cons_of_mem _ hother)
    exact ⟨⟨block, hblocks block List.mem_cons_self⟩ :: ds, by rw [List.map_cons, hds]⟩

theorem ascendingDigests_iff (octets : List UInt8) :
    AscendingDigests octets ↔ ManifestStrict (some ⟨octets⟩) ∧ ManifestWhole (some ⟨octets⟩) := by
  constructor
  · intro hascending
    obtain ⟨blocks, hoctets, hblocks, hpairwise⟩ := hascending
    obtain ⟨ds, rfl⟩ := exists_digests hblocks
    have hbytes : octets = bytesOfDigests ds := by
      rw [hoctets, bytesOfDigests, List.flatMap_def]
    rw [List.pairwise_map] at hpairwise
    have hstrict : ds.Pairwise (· < ·) :=
      hpairwise.imp fun hless => (SOSDigestCompare_neg_iff _ _).mp hless
    subst hbytes
    refine ⟨?_, ?_⟩
    · change (manifestDigests (manifestOf ds)).Pairwise (· < ·)
      rwa [manifestDigests_manifestOf]
    · rw [ManifestWhole, SOSManifestGetSize, bytesOfDigests_length, Nat.mul_mod_right]
  · intro hmanifest
    obtain ⟨hstrict, hwhole⟩ := hmanifest
    refine ⟨(digestsOfBytes octets).map Digest.bytes, ?_, ?_, ?_⟩
    · rw [← List.flatMap_def]
      exact (bytesOfDigests_digestsOfBytes octets hwhole).symm
    · intro block hblock
      obtain ⟨d, -, rfl⟩ := List.mem_map.mp hblock
      exact d.size_eq
    · rw [List.pairwise_map]
      exact List.Pairwise.imp (fun hless => (SOSDigestCompare_neg_iff _ _).mpr hless) hstrict

/-- The manifests of an accepted message are strictly sorted and of whole digests, and handling it
hits no failed assertion, exactly if its octet strings are ascending digests. -/
theorem receivedManifests_sorted_iff (der : Primitives) (dates : DateSystem)
    {derData : List UInt8} {message : SOSMessage}
    (haccepted : SOSMessageCreateWithData der dates derData = some message) :
    ((∀ m ∈ message.manifests, ManifestStrict (some m) ∧ ManifestWhole (some m)) ∧
      ∀ (sha1 : List UInt8 → List UInt8) (peer : SOSPeer)
        (receivedObjects unwantedObjects : List Digest) (localManifest : SOSManifestRef),
        peer.AllSorted → ManifestStrict localManifest →
          SOSEngineHandleMessage_locked sha1 peer message receivedObjects unwantedObjects
            localManifest ≠ none) ↔
      ∀ octets ∈ manifestOctets der dates derData, AscendingDigests octets := by
  have hmanifests := SOSMessageCreateWithData_manifests haccepted
  have hoctets : (∀ octets ∈ manifestOctets der dates derData, AscendingDigests octets) ↔
      ∀ m ∈ message.manifests, ManifestStrict (some m) ∧ ManifestWhole (some m) := by
    rw [← hmanifests, List.forall_mem_map]
    simp only [ascendingDigests_iff]
  rw [hoctets]
  constructor
  · intro hboth
    exact hboth.1
  · intro hsorted
    refine ⟨hsorted, ?_⟩
    intro sha1 peer receivedObjects unwantedObjects localManifest hpeer hlocal
    have hremovals : ManifestStrict message.removals := by
      cases hcase : message.removals with
      | none => exact manifestStrict_none
      | some m => exact (hsorted m (by simp [SOSMessage.manifests, hcase])).1
    have hadditions : ManifestStrict message.additions := by
      cases hcase : message.additions with
      | none => exact manifestStrict_none
      | some m => exact (hsorted m (by simp [SOSMessage.manifests, hcase])).1
    obtain ⟨peer', hpeer', -⟩ := SOSEngineHandleMessage_locked_sorted sha1 hpeer hremovals
      hadditions receivedObjects unwantedObjects hlocal
    rw [hpeer']
    exact Option.some_ne_none peer'

def manifestMessageData (first second : Digest) : List UInt8 :=
  [0x30, 0x2D, 2, 1, 2, 4, 0x28] ++ bytesOfDigests [first, second]

def manifestMessage (first second : Digest) : SOSMessage :=
  { SOSMessageAllocate with
    der := manifestMessageData first second
    additions := some ⟨bytesOfDigests [first, second]⟩ }

theorem receivedManifests_sorted_iff_sample :
    ((∀ m ∈ (manifestMessage (sampleDigest 5) (sampleDigest 7)).manifests,
        ManifestStrict (some m) ∧ ManifestWhole (some m)) ∧
      ∀ (sha1 : List UInt8 → List UInt8) (peer : SOSPeer)
        (receivedObjects unwantedObjects : List Digest) (localManifest : SOSManifestRef),
        peer.AllSorted → ManifestStrict localManifest →
          SOSEngineHandleMessage_locked sha1 peer
            (manifestMessage (sampleDigest 5) (sampleDigest 7)) receivedObjects unwantedObjects
            localManifest ≠ none) ↔
      ∀ octets ∈ manifestOctets Standard.primitives firstMonth
        (manifestMessageData (sampleDigest 5) (sampleDigest 7)), AscendingDigests octets :=
  receivedManifests_sorted_iff Standard.primitives firstMonth (by decide)

/-- A message with descending digests is accepted, and no peer can handle it. -/
theorem receivedManifests_unsorted :
    SOSMessageCreateWithData Standard.primitives firstMonth
        (manifestMessageData (sampleDigest 7) (sampleDigest 5)) =
      some (manifestMessage (sampleDigest 7) (sampleDigest 5)) ∧
    ¬ ManifestStrict (manifestMessage (sampleDigest 7) (sampleDigest 5)).additions ∧
    ∀ (sha1 : List UInt8 → List UInt8) (peer : SOSPeer) (localManifest : SOSManifestRef),
      SOSEngineHandleMessage_locked sha1 peer (manifestMessage (sampleDigest 7) (sampleDigest 5))
        [] [] localManifest = none := by
  have hdigests : (SOSManifestGetDigestVector
      (manifestMessage (sampleDigest 7) (sampleDigest 5)).additions).digest =
        [sampleDigest 7, sampleDigest 5] :=
    manifestDigests_manifestOf [sampleDigest 7, sampleDigest 5]
  refine ⟨by decide, ?_, ?_⟩
  · intro hstrict
    rw [ManifestStrict, manifestDigests, hdigests] at hstrict
    exact absurd ((List.pairwise_cons.mp hstrict).1 _ List.mem_cons_self) (by decide)
  · intro sha1 peer localManifest
    have hdescends : 0 < SOSDigestCompare (sampleDigest 7) (sampleDigest 5) := by decide
    have hsort : SOSDigestVectorSort (appendDigests []) = some SOSDigestVectorInit := rfl
    have hunion : SOSDigestVectorUnionSorted (SOSManifestGetDigestVector
        (manifestMessage (sampleDigest 7) (sampleDigest 5)).additions) SOSDigestVectorInit
          SOSDigestVectorInit = none := by
      rw [SOSDigestVectorUnionSorted, hdigests]
      simp [SOSDigestVectorInit, SOSDigestVector.count, unionLoop,
        SOSDigestVectorAppendMultipleOrdered, SOSIncrementAndSkipDupes, hdescends]
    simp only [SOSEngineHandleMessage_locked, allAdditions, hsort, hunion, Option.bind_eq_bind,
      Option.bind_some, Option.bind_none]
end SecurityFramework
