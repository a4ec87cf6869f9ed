import SecurityFramework.SecureObjectSync.DigestVectorSort
import SecurityFramework.SecureObjectSync.MessageCoding
import SecurityFramework.SecureObjectSync.Peer

/-!
# Handling a message

The engine rebuilds the manifest that the sender of a message proposes from the manifest the
message is based on, its deltas, and the digests of the objects that came with it.
-/

namespace SecurityFramework
open SortedSet

def appendDigests (ds : List Digest) : SOSDigestVector :=
  ds.foldl SOSDigestVectorAppend SOSDigestVectorInit

def allAdditions (message : SOSMessage) (receivedObjects : List Digest) :
    Asserting SOSManifestRef := do
  let receivedObjects ← SOSDigestVectorSort (appendDigests receivedObjects)
  let dvunion ← SOSDigestVectorUnionSorted (SOSManifestGetDigestVector message.additions)
    receivedObjects SOSDigestVectorInit
  SOSManifestCreateWithDigestVector dvunion

/-- The `confirmed` of `SOSEngineHandleMessage_locked`, from the manifests that the sender and the
base digest of the message are found to stand for. -/
def confirmedManifest (fromSender base : SOSManifestRef) (message : SOSMessage)
    (allAdditions : SOSManifestRef) : Asserting SOSManifestRef :=
  if fromSender.isSome then some fromSender
  else if SOSManifestGetCount message.removals ≠ 0 ∨ SOSManifestGetCount allAdditions ≠ 0 then
    if base.isSome || message.baseDigest.isNone then
      SOSManifestCreateWithPatch base message.removals allAdditions
    else some none
  else if message.baseDigest.isSome then some base
  else some none

def confirmedChanges (peer : SOSPeer) (message : SOSMessage) (confirmed : SOSManifestRef)
    (allAdditions : SOSManifestRef) : Asserting (SOSManifestRef × SOSManifestRef) :=
  if confirmed.isSome then do
    let (confirmedRemovals, confirmedAdditions) ←
      SOSManifestDiff peer.confirmedManifest confirmed
    if SOSManifestGetCount message.removals ≠ 0 then
      let confirmedRemovals ← SOSManifestCreateUnion confirmedRemovals message.removals
      some (confirmedRemovals, confirmedAdditions)
    else some (confirmedRemovals, confirmedAdditions)
  else if SOSManifestGetCount message.removals ≠ 0 ∨ SOSManifestGetCount allAdditions ≠ 0 then
    some (message.removals, allAdditions)
  else some (none, none)

def SOSPeerCopyManifestForDigest (sha1 : List UInt8 → List UInt8) (peer : SOSPeer)
    (digest : Option (List UInt8)) : SOSManifestRef :=
  match digest with
  | none => none
  | some digest =>
    (peer.proposedManifests ++ peer.localManifests ++ peer.confirmedManifest.toList).find? fun m =>
      sha1 m.digestVector = digest

/-- The manifests of a peer after a message, once its objects are merged: `receivedObjects` are the
digests of all of them, `unwantedObjects` of those that lost to a local object. -/
def SOSEngineHandleMessage_locked (sha1 : List UInt8 → List UInt8) (peer : SOSPeer)
    (message : SOSMessage) (receivedObjects unwantedObjects : List Digest)
    (localManifest : SOSManifestRef) : Asserting SOSPeer := do
  let allAdditions ← allAdditions message receivedObjects
  let unwanted ← SOSManifestCreateWithDigestVector (appendDigests unwantedObjects)
  let base := SOSPeerCopyManifestForDigest sha1 peer message.baseDigest
  let fromSender := SOSPeerCopyManifestForDigest sha1 peer message.senderDigest
  let confirmed ← confirmedManifest fromSender base message allAdditions
  let (confirmedRemovals, confirmedAdditions) ←
    confirmedChanges peer message confirmed allAdditions
  let peer ←
    if SOSManifestGetCount confirmedRemovals ≠ 0 ∨ SOSManifestGetCount confirmedAdditions ≠ 0 ∨
        SOSManifestGetCount unwanted ≠ 0 then
      SOSPeerDidReceiveRemovalsAndAdditions peer confirmedRemovals confirmedAdditions unwanted
        localManifest
    else some peer
  some (SOSPeerSetConfirmedManifest peer confirmed)
end SecurityFramework

namespace SecurityFramework
open SortedSet

theorem sort_appendDigests (ds : List Digest) :
    ∃ dv, SOSDigestVectorSort (appendDigests ds) = some dv ∧
      dv.digest = (ds.take kMaxDVCapacity).toFinset.sort := by
  by_cases hds : ds = []
  · subst hds
    refine ⟨SOSDigestVectorInit, rfl, ?_⟩
    rw [List.take_nil, List.toFinset_nil, Finset.sort_empty]
    rfl
  · have happend := foldl_append_eq SOSDigestVectorInit ds hds
    obtain ⟨dv, hdv, hdigest⟩ := sort_spec (appendDigests ds) (by rw [appendDigests, happend])
    refine ⟨dv, hdv, ?_⟩
    rw [hdigest, appendDigests, happend]
    change (SOSDigestVectorInit.appendAll ds).digest.toFinset.sort = _
    rw [appendAll_init_digest]

theorem allAdditions_eq (message : SOSMessage) (s : Finset Digest) (ds : List Digest)
    (hadd : ManifestOfSet message.additions s) :
    allAdditions message ds =
      some (manifestOf (firstDigests (s ∪ (ds.take kMaxDVCapacity).toFinset)).sort) := by
  obtain ⟨dv, hdv, hdigest⟩ := sort_appendDigests ds
  have hsorted : SortedDigests dv.digest := by
    rw [hdigest]
    exact (sort_pairwise_lt _).imp le_of_lt
  have hset : (SOSManifestGetDigestVector message.additions).digest.toFinset = s := hadd.set_eq
  rw [allAdditions, hdv, Option.bind_eq_bind, Option.bind_some,
    unionSorted_spec hadd.strict.sorted hsorted, Option.bind_some,
    createWithDigestVector_appendAll, sort_firstDigests, hset, hdigest, Finset.sort_toFinset]

theorem createWithDigestVector_appendDigests (ds : List Digest) :
    ∃ m, SOSManifestCreateWithDigestVector (appendDigests ds) = some m ∧ ManifestStrict m := by
  obtain ⟨dv, hdv, hdigest⟩ := sort_appendDigests ds
  by_cases hds : ds = []
  · subst hds
    exact ⟨manifestOf [], rfl, by rw [ManifestStrict, manifestDigests_manifestOf]; exact .nil⟩
  · have hunsorted : (appendDigests ds).unsorted = true := by
      rw [appendDigests, foldl_append_eq SOSDigestVectorInit ds hds]
    refine ⟨manifestOf dv.digest, ?_, ?_⟩
    · simp only [SOSManifestCreateWithDigestVector, hunsorted, if_true, hdv, Option.bind_eq_bind,
        Option.bind_some]
      rfl
    · rw [hdigest]
      exact manifestOf_strict _

structure SOSPeer.AllSorted (peer : SOSPeer) : Prop extends peer.Sorted where
  proposed : ∀ m ∈ peer.proposedManifests, ManifestStrict (some m)
  locals : ∀ m ∈ peer.localManifests, ManifestStrict (some m)

theorem manifestStrict_none : ManifestStrict none := List.Pairwise.nil

section
variable {peer : SOSPeer} {message : SOSMessage}

theorem copyManifestForDigest_strict (sha1 : List UInt8 → List UInt8) (hpeer : peer.AllSorted)
    (digest : Option (List UInt8)) :
    ManifestStrict (SOSPeerCopyManifestForDigest sha1 peer digest) := by
  cases hfound : SOSPeerCopyManifestForDigest sha1 peer digest with
  | none => exact manifestStrict_none
  | some m =>
    cases digest with
    | none => cases hfound
    | some digest =>
      have hmem := List.mem_of_find?_eq_some hfound
      simp only [List.mem_append, Option.mem_toList] at hmem
      cases hmem with
      | inl hkept =>
        cases hkept with
        | inl hproposed => exact hpeer.proposed m hproposed
        | inr hlocal => exact hpeer.locals m hlocal
      | inr hconfirmed =>
        rw [← hconfirmed]
        exact hpeer.confirmed

/-- The patches of the objects pending and unwanted lose some digests, perhaps, but no order. -/
theorem didReceive_sorted {absent additions unwanted localManifest : SOSManifestRef}
    (hpeer : peer.AllSorted) (habsent : ManifestStrict absent)
    (hadditions : ManifestStrict additions) (hunwanted : ManifestStrict unwanted)
    (hlocal : ManifestStrict localManifest) :
    ∃ peer', SOSPeerDidReceiveRemovalsAndAdditions peer absent additions unwanted localManifest =
      some peer' ∧ peer'.AllSorted := by
  obtain ⟨remoteMissing, hmissing, hmissingSet⟩ :=
    (ManifestOfSet.of_strict habsent).intersection (ManifestOfSet.of_strict hlocal)
  obtain ⟨sharedRemovals, hremovals, hremovalsSet⟩ :=
    hmissingSet.complement (ManifestOfSet.of_strict habsent)
  obtain ⟨sharedAdditions, hshared, hsharedSet⟩ :=
    (ManifestOfSet.of_strict hadditions).intersection (ManifestOfSet.of_strict hlocal)
  obtain ⟨pending, hpending, hpendingSet⟩ :=
    (ManifestOfSet.of_strict hpeer.pending).patch hsharedSet hmissingSet
  obtain ⟨unwantedPatch, hpatch, hpatchSet⟩ :=
    (ManifestOfSet.of_strict hpeer.unwanted).patch hremovalsSet (ManifestOfSet.of_strict hunwanted)
  simp only [SOSPeerDidReceiveRemovalsAndAdditions, hmissing, hremovals, hshared, hpending, hpatch,
    Option.bind_eq_bind, Option.bind_some]
  exact ⟨_, rfl, ⟨hpendingSet.strict, hpatchSet.strict, hpeer.confirmed⟩, hpeer.proposed,
    hpeer.locals⟩

theorem confirmedManifest_strict {fromSender base additions : SOSManifestRef}
    (hfromSender : ManifestStrict fromSender) (hbase : ManifestStrict base)
    (hremovals : ManifestStrict message.removals) (hadditions : ManifestStrict additions) :
    ∃ confirmed, confirmedManifest fromSender base message additions = some confirmed ∧
      ManifestStrict confirmed := by
  obtain ⟨patched, hpatched, hpatchedSet⟩ := (ManifestOfSet.of_strict hbase).patch
    (ManifestOfSet.of_strict hremovals) (ManifestOfSet.of_strict hadditions)
  rw [confirmedManifest]
  split_ifs
  · exact ⟨fromSender, rfl, hfromSender⟩
  · exact ⟨patched, hpatched, hpatchedSet.strict⟩
  · exact ⟨none, rfl, manifestStrict_none⟩
  · exact ⟨base, rfl, hbase⟩
  · exact ⟨none, rfl, manifestStrict_none⟩

theorem createUnion_strict {m1 m2 : SOSManifestRef} (h1 : ManifestStrict m1)
    (h2 : ManifestStrict m2) :
    ∃ m, SOSManifestCreateUnion m1 m2 = some m ∧ ManifestStrict m := by
  by_cases hempty1 : manifestSet m1 = ∅
  · rw [SOSManifestCreateUnion, if_pos ((getCount_eq_zero_iff m1).mpr hempty1)]
    exact ⟨_, rfl, (ManifestOfSet.of_strict h2).orEmpty.strict⟩
  · by_cases hempty2 : manifestSet m2 = ∅
    · rw [SOSManifestCreateUnion, if_neg (by rwa [getCount_eq_zero_iff]),
        if_pos ((getCount_eq_zero_iff m2).mpr hempty2)]
      exact ⟨_, rfl, (ManifestOfSet.of_strict h1).orEmpty.strict⟩
    · have hunion := createUnion_spec h1.sorted h2.sorted hempty1 hempty2
      rw [← sort_firstDigests] at hunion
      exact ⟨_, hunion, manifestOf_strict _⟩

theorem confirmedChanges_strict {confirmed additions : SOSManifestRef} (hpeer : peer.AllSorted)
    (hconfirmed : ManifestStrict confirmed) (hremovals : ManifestStrict message.removals)
    (hadditions : ManifestStrict additions) :
    ∃ confirmedRemovals confirmedAdditions,
      confirmedChanges peer message confirmed additions =
        some (confirmedRemovals, confirmedAdditions) ∧
      ManifestStrict confirmedRemovals ∧ ManifestStrict confirmedAdditions := by
  obtain ⟨lost, gained, hdiff, hlost, hgained⟩ :=
    (ManifestOfSet.of_strict hpeer.confirmed).diff (ManifestOfSet.of_strict hconfirmed)
  obtain ⟨union, hunion, hunionStrict⟩ := createUnion_strict hlost.strict hremovals
  rw [confirmedChanges]
  split_ifs
  · simp only [hdiff, hunion, Option.bind_eq_bind, Option.bind_some]
    exact ⟨_, _, rfl, hunionStrict, hgained.strict⟩
  · simp only [hdiff, Option.bind_eq_bind, Option.bind_some]
    exact ⟨_, _, rfl, hlost.strict, hgained.strict⟩
  · exact ⟨_, _, rfl, hremovals, hadditions⟩
  · exact ⟨_, _, rfl, manifestStrict_none, manifestStrict_none⟩

/-- Handling a message with strictly sorted manifests hits no failed assertion. -/
theorem SOSEngineHandleMessage_locked_sorted (sha1 : List UInt8 → List UInt8)
    (hpeer : peer.AllSorted) (hremovals : ManifestStrict message.removals)
    (hadditions : ManifestStrict message.additions) (receivedObjects unwantedObjects : List Digest)
    {localManifest : SOSManifestRef} (hlocal : ManifestStrict localManifest) :
    ∃ peer', SOSEngineHandleMessage_locked sha1 peer message receivedObjects unwantedObjects
      localManifest = some peer' ∧ peer'.AllSorted := by
  obtain ⟨all, hall, hallStrict⟩ : ∃ all, allAdditions message receivedObjects = some all ∧
      ManifestStrict all :=
    ⟨_, allAdditions_eq message _ receivedObjects (ManifestOfSet.of_strict hadditions),
      manifestOf_strict _⟩
  obtain ⟨unwanted, hunwanted, hunwantedStrict⟩ :=
    createWithDigestVector_appendDigests unwantedObjects
  obtain ⟨confirmed, hconfirmed, hconfirmedStrict⟩ := confirmedManifest_strict
    (copyManifestForDigest_strict sha1 hpeer message.senderDigest)
    (copyManifestForDigest_strict sha1 hpeer message.baseDigest) hremovals hallStrict
  obtain ⟨removals, additions, hchanges, hremovalsStrict, hadditionsStrict⟩ :=
    confirmedChanges_strict hpeer hconfirmedStrict hremovals hallStrict
  obtain ⟨patched, hpatched, hpatchedSorted⟩ := didReceive_sorted hpeer hremovalsStrict
    hadditionsStrict hunwantedStrict hlocal
  simp only [SOSEngineHandleMessage_locked, hall, hunwanted, hconfirmed, hchanges, hpatched,
    Option.bind_eq_bind, Option.bind_some]
  split_ifs
  · exact ⟨_, rfl, ⟨hpatchedSorted.pending, hpatchedSorted.unwanted, hconfirmedStrict⟩,
      hpatchedSorted.proposed, hpatchedSorted.locals⟩
  · exact ⟨_, rfl, ⟨hpeer.pending, hpeer.unwanted, hconfirmedStrict⟩, hpeer.proposed,
      hpeer.locals⟩
end
end SecurityFramework
