import SecurityFramework.Library.Run
import SecurityFramework.SecureObjectSync.PatchExactness

/-!
# Pending objects of a peer

What is still to be sent to a peer is kept as a manifest that local commits and received messages
patch.
-/

namespace SecurityFramework
open SortedSet

inductive SOSDataSourceTransactionSource
  | kSOSDataSourceSOSTransaction
  | kSOSDataSourceCKKSTransaction
  | kSOSDataSourceAPITransaction
  deriving DecidableEq

structure SOSPeer where
  pendingObjects : SOSManifestRef
  unwantedManifest : SOSManifestRef
  confirmedManifest : SOSManifestRef
  proposedManifests : List SOSManifest
  localManifests : List SOSManifest
  deriving DecidableEq

def SOSPeerSetConfirmedManifest (peer : SOSPeer) (confirmed : SOSManifestRef) : SOSPeer :=
  { peer with confirmedManifest := confirmed }

def SOSPeerDidReceiveRemovalsAndAdditions (peer : SOSPeer)
    (absentFromRemote additionsFromRemote unwantedFromRemote localManifest : SOSManifestRef) :
    Asserting SOSPeer := do
  let remoteMissing ← SOSManifestCreateIntersection absentFromRemote localManifest
  let sharedRemovals ← SOSManifestCreateComplement remoteMissing absentFromRemote
  let sharedAdditions ← SOSManifestCreateIntersection additionsFromRemote localManifest
  let pendingObjectsManifest ←
    SOSManifestCreateWithPatch peer.pendingObjects sharedAdditions remoteMissing
  let unwantedManifest ←
    SOSManifestCreateWithPatch peer.unwantedManifest sharedRemovals unwantedFromRemote
  some { peer with
    pendingObjects := pendingObjectsManifest
    unwantedManifest := unwantedManifest }

/-- The additions of a local transaction that the remote peer doesn't have yet. -/
def unconfirmedAdditions (peer : SOSPeer) (source : SOSDataSourceTransactionSource)
    (additions : SOSManifestRef) : Asserting SOSManifestRef :=
  let isAPITransaction := source = .kSOSDataSourceAPITransaction
  let isCKKSTransaction := source = .kSOSDataSourceCKKSTransaction
  if (isAPITransaction ∨ isCKKSTransaction) ∧ SOSManifestGetCount additions ≠ 0 then
    SOSManifestCreateComplement peer.confirmedManifest additions
  else some none

def SOSPeerDataSourceWillCommit (peer : SOSPeer) (source : SOSDataSourceTransactionSource)
    (removals additions : SOSManifestRef) : Asserting SOSPeer := do
  let unconfirmedAdditions ← unconfirmedAdditions peer source additions
  if SOSManifestGetCount removals ≠ 0 ∨ SOSManifestGetCount unconfirmedAdditions ≠ 0 then
    let pendingObjectsManifest ←
      SOSManifestCreateWithPatch peer.pendingObjects removals unconfirmedAdditions
    let _ ← SOSManifestDiff peer.pendingObjects pendingObjectsManifest
    some { peer with pendingObjects := pendingObjectsManifest }
  else some peer

inductive SOSPeerStep
  | willCommit (source : SOSDataSourceTransactionSource) (removals additions : SOSManifestRef)
  | didReceive (absentFromRemote additionsFromRemote unwantedFromRemote
      localManifest : SOSManifestRef)
  | setConfirmed (confirmed : SOSManifestRef)

def SOSPeerStep.perform (peer : SOSPeer) : SOSPeerStep → Asserting SOSPeer
  | .willCommit source removals additions =>
    SOSPeerDataSourceWillCommit peer source removals additions
  | .didReceive absentFromRemote additionsFromRemote unwantedFromRemote localManifest =>
    SOSPeerDidReceiveRemovalsAndAdditions peer absentFromRemote additionsFromRemote
      unwantedFromRemote localManifest
  | .setConfirmed confirmed => some (SOSPeerSetConfirmedManifest peer confirmed)

structure SOSPeer.Sorted (peer : SOSPeer) : Prop where
  pending : ManifestStrict peer.pendingObjects
  unwanted : ManifestStrict peer.unwantedManifest
  confirmed : ManifestStrict peer.confirmedManifest

def unconfirmedSet (peer : SOSPeer) (source : SOSDataSourceTransactionSource)
    (additions : SOSManifestRef) : Finset Digest :=
  if source = .kSOSDataSourceAPITransaction ∨ source = .kSOSDataSourceCKKSTransaction then
    manifestSet additions \ manifestSet peer.confirmedManifest
  else ∅

structure ExactPatch (base additions removals : Finset Digest) : Prop where
  keeps : ¬ PatchLoses base additions removals
  additions_fit : additions.card ≤ kMaxDVCapacity
  result_fits : ((base ∪ additions) \ removals).card ≤ kMaxDVCapacity

/-- The inputs of a step are sorted, its patch of the pending objects is exact, and a commit does
not remove what it adds. -/
def SOSPeerStep.Exact (peer : SOSPeer) : SOSPeerStep → Prop
  | .willCommit source removals additions =>
    ManifestStrict removals ∧ ManifestStrict additions ∧
      ExactPatch (manifestSet peer.pendingObjects) (unconfirmedSet peer source additions)
        (manifestSet removals) ∧
      Disjoint (unconfirmedSet peer source additions) (manifestSet removals)
  | .didReceive absentFromRemote additionsFromRemote unwantedFromRemote localManifest =>
    ManifestStrict absentFromRemote ∧ ManifestStrict additionsFromRemote ∧
      ManifestStrict unwantedFromRemote ∧ ManifestStrict localManifest ∧
      (manifestSet additionsFromRemote ∩ manifestSet localManifest).card ≤ kMaxDVCapacity ∧
      ExactPatch (manifestSet peer.pendingObjects)
        (manifestSet absentFromRemote ∩ manifestSet localManifest)
        (manifestSet additionsFromRemote ∩ manifestSet localManifest)
  | .setConfirmed confirmed => ManifestStrict confirmed

/-- The step lists the digest as removed, or reports that the remote peer has it. -/
def SOSPeerStep.Settles (d : Digest) : SOSPeerStep → Prop
  | .willCommit _ removals _ => d ∈ manifestSet removals
  | .didReceive _ additionsFromRemote _ _ => d ∈ manifestSet additionsFromRemote
  | .setConfirmed _ => False

private theorem patch_exact {base removals additions : SOSManifestRef}
    {sBase sRemovals sAdditions : Finset Digest} (hb : ManifestOfSet base sBase)
    (hr : ManifestOfSet removals sRemovals) (ha : ManifestOfSet additions sAdditions)
    (hexact : ExactPatch sBase sAdditions sRemovals) :
    ∃ m, SOSManifestCreateWithPatch base removals additions = some m ∧
      ManifestOfSet m ((sBase ∪ sAdditions) \ sRemovals) := by
  have hset := (patchedSet_eq_iff sBase sAdditions sRemovals).mpr hexact.keeps
  obtain ⟨m, hm, hmSet⟩ := hb.patch hr ha
  rw [hset, firstDigests_eq hexact.result_fits] at hmSet
  exact ⟨m, hm, hmSet⟩

private theorem unconfirmedAdditions_spec (peer : SOSPeer) (source : SOSDataSourceTransactionSource)
    (additions : SOSManifestRef) (hpeer : peer.Sorted) (hadd : ManifestStrict additions)
    (hfit : (unconfirmedSet peer source additions).card ≤ kMaxDVCapacity) :
    ∃ m, unconfirmedAdditions peer source additions = some m ∧
      ManifestOfSet m (unconfirmedSet peer source additions) := by
  rw [unconfirmedAdditions]
  by_cases hsource : source = .kSOSDataSourceAPITransaction ∨
      source = .kSOSDataSourceCKKSTransaction
  · by_cases hcount : SOSManifestGetCount additions = 0
    · have hempty := (getCount_eq_zero_iff additions).mp hcount
      rw [if_neg fun h => h.2 hcount, unconfirmedSet, if_pos hsource, hempty,
        Finset.empty_sdiff]
      exact ⟨none, rfl, ManifestOfSet.none_empty⟩
    · rw [unconfirmedSet, if_pos hsource] at hfit ⊢
      rw [if_pos ⟨hsource, hcount⟩]
      obtain ⟨m, hm, hmSet⟩ := (ManifestOfSet.of_strict hpeer.confirmed).complement
        (ManifestOfSet.of_strict hadd)
      refine ⟨m, hm, ?_⟩
      rwa [listedDiff_eq hfit] at hmSet
  · rw [if_neg fun h => hsource h.1, unconfirmedSet, if_neg hsource]
    exact ⟨none, rfl, ManifestOfSet.none_empty⟩

/-- A commit moves the pending objects by its unconfirmed additions and its removals. -/
theorem willCommit_spec (peer : SOSPeer) (source : SOSDataSourceTransactionSource)
    (removals additions : SOSManifestRef) (hpeer : peer.Sorted)
    (hexact : (SOSPeerStep.willCommit source removals additions).Exact peer) :
    ∃ peer', SOSPeerDataSourceWillCommit peer source removals additions = some peer' ∧
      peer'.Sorted ∧ manifestSet peer'.pendingObjects =
        (manifestSet peer.pendingObjects ∪ unconfirmedSet peer source additions) \
          manifestSet removals := by
  obtain ⟨hr, ha, hpatch, -⟩ := hexact
  obtain ⟨unconfirmed, hun, hunSet⟩ :=
    unconfirmedAdditions_spec peer source additions hpeer ha hpatch.additions_fit
  rw [SOSPeerDataSourceWillCommit, hun, Option.bind_eq_bind, Option.bind_some]
  by_cases hchange : SOSManifestGetCount removals ≠ 0 ∨ SOSManifestGetCount unconfirmed ≠ 0
  · obtain ⟨m, hm, hmSet⟩ := patch_exact (ManifestOfSet.of_strict hpeer.pending)
      (ManifestOfSet.of_strict hr) hunSet hpatch
    obtain ⟨diff, hdiff⟩ := manifestDiff_total hpeer.pending.sorted hmSet.strict.sorted
    rw [if_pos hchange, hm, Option.bind_some, hdiff]
    exact ⟨_, rfl, ⟨hmSet.strict, hpeer.unwanted, hpeer.confirmed⟩, hmSet.set_eq⟩
  · rw [if_neg hchange]
    push Not at hchange
    have hrEmpty := (getCount_eq_zero_iff removals).mp hchange.1
    have hunEmpty := (getCount_eq_zero_iff unconfirmed).mp hchange.2
    refine ⟨peer, rfl, hpeer, ?_⟩
    rw [← hunSet.set_eq, hrEmpty, hunEmpty, Finset.union_empty, Finset.sdiff_empty]

/-- A received message moves the pending objects by what the remote peer lacks and has. -/
theorem didReceive_spec (peer : SOSPeer)
    (absentFromRemote additionsFromRemote unwantedFromRemote localManifest : SOSManifestRef)
    (hpeer : peer.Sorted)
    (hexact : (SOSPeerStep.didReceive absentFromRemote additionsFromRemote unwantedFromRemote
      localManifest).Exact peer) :
    ∃ peer', SOSPeerDidReceiveRemovalsAndAdditions peer absentFromRemote additionsFromRemote
        unwantedFromRemote localManifest = some peer' ∧
      (peer'.Sorted ∧ manifestSet peer'.pendingObjects =
        (manifestSet peer.pendingObjects ∪
            (manifestSet absentFromRemote ∩ manifestSet localManifest)) \
          (manifestSet additionsFromRemote ∩ manifestSet localManifest)) := by
  obtain ⟨habsent, hadd, hunwanted, hlocal, hfit, hpatch⟩ := hexact
  obtain ⟨remoteMissing, hmissing, hmissingSet⟩ :=
    (ManifestOfSet.of_strict habsent).intersection (ManifestOfSet.of_strict hlocal)
  obtain ⟨sharedRemovals, hremovals, hremovalsSet⟩ :=
    hmissingSet.complement (ManifestOfSet.of_strict habsent)
  obtain ⟨sharedAdditions, hshared, hsharedSet⟩ :=
    (ManifestOfSet.of_strict hadd).intersection (ManifestOfSet.of_strict hlocal)
  rw [firstDigests_eq hpatch.additions_fit] at hmissingSet
  rw [firstDigests_eq hfit] at hsharedSet
  obtain ⟨pending, hpending, hpendingSet⟩ :=
    patch_exact (ManifestOfSet.of_strict hpeer.pending) hsharedSet hmissingSet hpatch
  obtain ⟨unwanted, hunwantedPatch, hunwantedSet⟩ :=
    (ManifestOfSet.of_strict hpeer.unwanted).patch hremovalsSet (ManifestOfSet.of_strict hunwanted)
  rw [SOSPeerDidReceiveRemovalsAndAdditions, hmissing, Option.bind_eq_bind, Option.bind_some,
    hremovals, Option.bind_some, hshared, Option.bind_some, hpending, Option.bind_some,
    hunwantedPatch]
  exact ⟨_, rfl, ⟨hpendingSet.strict, hunwantedSet.strict, hpeer.confirmed⟩,
    hpendingSet.set_eq⟩

theorem perform_sorted (peer : SOSPeer) (step : SOSPeerStep) (peer' : SOSPeer)
    (hpeer : peer.Sorted) (hexact : step.Exact peer)
    (hstep : SOSPeerStep.perform peer step = some peer') : peer'.Sorted := by
  cases step with
  | willCommit source removals additions =>
    obtain ⟨p, hp, hsorted, -⟩ := willCommit_spec peer source removals additions hpeer hexact
    obtain rfl : p = peer' := Option.some.inj (hp.symm.trans hstep)
    exact hsorted
  | didReceive absent additions unwanted localManifest =>
    obtain ⟨p, hp, hsorted, -⟩ :=
      didReceive_spec peer absent additions unwanted localManifest hpeer hexact
    obtain rfl : p = peer' := Option.some.inj (hp.symm.trans hstep)
    exact hsorted
  | setConfirmed confirmed =>
    obtain rfl : SOSPeerSetConfirmedManifest peer confirmed = peer' := Option.some.inj hstep
    exact ⟨hpeer.pending, hpeer.unwanted, hexact⟩

theorem perform_keeps_pending (d : Digest) (peer : SOSPeer) (step : SOSPeerStep)
    (peer' : SOSPeer) (hpeer : peer.Sorted) (hexact : step.Exact peer)
    (hsettles : ¬ step.Settles d) (hstep : SOSPeerStep.perform peer step = some peer')
    (hd : d ∈ manifestSet peer.pendingObjects) : d ∈ manifestSet peer'.pendingObjects := by
  cases step with
  | willCommit source removals additions =>
    obtain ⟨p, hp, -, hset⟩ := willCommit_spec peer source removals additions hpeer hexact
    obtain rfl : p = peer' := Option.some.inj (hp.symm.trans hstep)
    rw [hset]
    exact Finset.mem_sdiff.mpr ⟨Finset.mem_union_left _ hd, hsettles⟩
  | didReceive absent additions unwanted localManifest =>
    obtain ⟨p, hp, -, hset⟩ :=
      didReceive_spec peer absent additions unwanted localManifest hpeer hexact
    obtain rfl : p = peer' := Option.some.inj (hp.symm.trans hstep)
    rw [hset]
    exact Finset.mem_sdiff.mpr ⟨Finset.mem_union_left _ hd,
      fun h => hsettles (Finset.mem_inter.mp h).1⟩
  | setConfirmed confirmed =>
    obtain rfl : SOSPeerSetConfirmedManifest peer confirmed = peer' := Option.some.inj hstep
    exact hd

theorem willCommit_makes_pending (d : Digest) (peer : SOSPeer)
    (source : SOSDataSourceTransactionSource) (removals additions : SOSManifestRef)
    (peer' : SOSPeer) (hpeer : peer.Sorted)
    (hexact : (SOSPeerStep.willCommit source removals additions).Exact peer)
    (hd : d ∈ unconfirmedSet peer source additions)
    (hstep : SOSPeerDataSourceWillCommit peer source removals additions = some peer') :
    d ∈ manifestSet peer'.pendingObjects := by
  obtain ⟨p, hp, -, hset⟩ := willCommit_spec peer source removals additions hpeer hexact
  obtain rfl : p = peer' := Option.some.inj (hp.symm.trans hstep)
  rw [hset]
  exact Finset.mem_sdiff.mpr ⟨Finset.mem_union_right _ hd,
    fun h => Finset.disjoint_left.mp hexact.2.2.2 hd h⟩

/-- Over every run of exact steps, a digest that a local commit adds while it is not confirmed is
pending until a step settles it. -/
theorem pendingObjects_not_lost (d : Digest) (source : SOSDataSourceTransactionSource)
    (removals additions : SOSManifestRef) (before after : List SOSPeerStep)
    (peer peerBefore peerAdded peerAfter : SOSPeer) (hpeer : peer.Sorted)
    (hbefore : Run SOSPeerStep.perform (fun p s => s.Exact p) peer before peerBefore)
    (hcommit : (SOSPeerStep.willCommit source removals additions).Exact peerBefore)
    (hadded : SOSPeerDataSourceWillCommit peerBefore source removals additions = some peerAdded)
    (hlocal : source = .kSOSDataSourceAPITransaction ∨ source = .kSOSDataSourceCKKSTransaction)
    (hd : d ∈ manifestSet additions) (hconfirmed : d ∉ manifestSet peerBefore.confirmedManifest)
    (hafter : Run SOSPeerStep.perform (fun p s => s.Exact p) peerAdded after peerAfter)
    (hunsettled : ∀ step ∈ after, ¬ step.Settles d) :
    d ∈ manifestSet peerAfter.pendingObjects := by
  have hsortedBefore : peerBefore.Sorted := hbefore.invariant _ perform_sorted hpeer
  have hsortedAdded : peerAdded.Sorted :=
    perform_sorted peerBefore (.willCommit source removals additions) peerAdded hsortedBefore
      hcommit hadded
  have hpending : d ∈ manifestSet peerAdded.pendingObjects := by
    refine willCommit_makes_pending d peerBefore source removals additions peerAdded
      hsortedBefore hcommit ?_ hadded
    rw [unconfirmedSet, if_pos hlocal]
    exact Finset.mem_sdiff.mpr ⟨hd, hconfirmed⟩
  refine (hafter.invariant_of_inputs
    (fun p => p.Sorted ∧ d ∈ manifestSet p.pendingObjects) ?_ hunsettled
    ⟨hsortedAdded, hpending⟩).2
  rintro p step p' ⟨hp, hdp⟩ hexact hsettles hstep
  exact ⟨perform_sorted p step p' hp hexact hstep,
    perform_keeps_pending d p step p' hp hexact hsettles hstep hdp⟩

def samplePeer : SOSPeer := ⟨none, none, none, [], []⟩

def sampleManifest (octet : UInt8) : SOSManifestRef := manifestOf [sampleDigest octet]

theorem sampleManifest_strict (octet : UInt8) : ManifestStrict (sampleManifest octet) := by
  rw [ManifestStrict, sampleManifest, manifestDigests_manifestOf]
  exact List.pairwise_singleton _ _

private theorem manifestSet_sample (octet : UInt8) :
    manifestSet (sampleManifest octet) = {sampleDigest octet} := by
  rw [manifestSet, sampleManifest, manifestDigests_manifestOf]
  rfl

private theorem samplePeer_sorted : samplePeer.Sorted :=
  ⟨List.Pairwise.nil, List.Pairwise.nil, List.Pairwise.nil⟩

private theorem sampleCommit_exact :
    (SOSPeerStep.willCommit .kSOSDataSourceAPITransaction none (sampleManifest 7)).Exact
      samplePeer := by
  have hun : unconfirmedSet samplePeer .kSOSDataSourceAPITransaction (sampleManifest 7) =
      {sampleDigest 7} := by
    rw [unconfirmedSet, if_pos (Or.inl rfl), manifestSet_sample]
    exact Finset.sdiff_empty
  refine ⟨List.Pairwise.nil, sampleManifest_strict 7, ?_, ?_⟩
  · rw [hun]
    exact ⟨by decide, by decide, by decide⟩
  · rw [hun]
    exact Finset.disjoint_empty_right _

theorem pendingObjects_not_lost_sample :
    ∃ peerAdded, SOSPeerDataSourceWillCommit samplePeer .kSOSDataSourceAPITransaction none
        (sampleManifest 7) = some peerAdded ∧
      sampleDigest 7 ∈ manifestSet (SOSPeerSetConfirmedManifest peerAdded none).pendingObjects := by
  obtain ⟨peerAdded, hadded, -, -⟩ := willCommit_spec samplePeer .kSOSDataSourceAPITransaction none
    (sampleManifest 7) samplePeer_sorted sampleCommit_exact
  refine ⟨peerAdded, hadded, ?_⟩
  exact pendingObjects_not_lost (sampleDigest 7) .kSOSDataSourceAPITransaction none
    (sampleManifest 7) [] [.setConfirmed none] samplePeer samplePeer peerAdded _ samplePeer_sorted
    (Run.nil _) sampleCommit_exact hadded (Or.inl rfl)
    (by rw [manifestSet_sample]; exact Finset.mem_singleton_self _) (Finset.notMem_empty _)
    (Run.cons List.Pairwise.nil rfl (Run.nil _)) (by simp [SOSPeerStep.Settles])

/-- Two local commits: the second adds one digest and removes a digest that is not pending, and
the pending addition of the first is lost. -/
theorem pendingObjects_loses_sample :
    ∃ peerAdded peerAfter,
      SOSPeerDataSourceWillCommit samplePeer .kSOSDataSourceAPITransaction none
          (sampleManifest 5) = some peerAdded ∧
        sampleDigest 5 ∈ manifestSet peerAdded.pendingObjects ∧
        SOSPeerDataSourceWillCommit peerAdded .kSOSDataSourceAPITransaction (sampleManifest 1)
          (sampleManifest 7) = some peerAfter ∧
        sampleDigest 5 ∉ manifestSet (sampleManifest 1) ∧
        sampleDigest 5 ∉ manifestSet peerAfter.pendingObjects := by
  have hcount : ∀ octet, SOSManifestGetCount (sampleManifest octet) ≠ 0 := by
    intro octet
    rw [Ne, getCount_eq_zero_iff, manifestSet_sample]
    exact Finset.singleton_ne_empty _
  have hun : ∀ (peer : SOSPeer) (octet : UInt8), peer.confirmedManifest = none →
      unconfirmedAdditions peer .kSOSDataSourceAPITransaction (sampleManifest octet) =
        some (sampleManifest octet) := by
    intro peer octet hnone
    rw [unconfirmedAdditions, if_pos ⟨Or.inl rfl, hcount octet⟩, hnone]
    rfl
  have hnil : ManifestSorted none := List.Pairwise.nil
  have hfirst : patchedSet ∅ {sampleDigest 5} ∅ = {sampleDigest 5} := by decide
  have hsecond : patchedSet {sampleDigest 5} {sampleDigest 7} {sampleDigest 1} =
      {sampleDigest 7} := by decide
  have hpatch1 : SOSManifestCreateWithPatch none none (sampleManifest 5) =
      some (sampleManifest 5) := by
    rw [createWithPatch_spec hnil hnil (sampleManifest_strict 5).sorted, manifestSet_sample]
    change some (manifestOf ((patchedSet ∅ {sampleDigest 5} ∅).sort.take _)) = _
    rw [hfirst, Finset.sort_singleton]
    rfl
  have hpatch2 : SOSManifestCreateWithPatch (sampleManifest 5) (sampleManifest 1)
      (sampleManifest 7) = some (sampleManifest 7) := by
    rw [createWithPatch_spec (sampleManifest_strict 5).sorted (sampleManifest_strict 1).sorted
      (sampleManifest_strict 7).sorted, manifestSet_sample, manifestSet_sample,
      manifestSet_sample, hsecond, Finset.sort_singleton]
    rfl
  obtain ⟨diff1, hdiff1⟩ := manifestDiff_total hnil (sampleManifest_strict 5).sorted
  obtain ⟨diff2, hdiff2⟩ :=
    manifestDiff_total (sampleManifest_strict 5).sorted (sampleManifest_strict 7).sorted
  refine ⟨{ samplePeer with pendingObjects := sampleManifest 5 },
    { samplePeer with pendingObjects := sampleManifest 7 }, ?_, ?_, ?_, ?_, ?_⟩
  · rw [SOSPeerDataSourceWillCommit, hun _ _ rfl, Option.bind_eq_bind, Option.bind_some,
      if_pos (Or.inr (hcount 5))]
    change (SOSManifestCreateWithPatch none none _).bind _ = _
    rw [hpatch1, Option.bind_some]
    change (SOSManifestDiff none _).bind _ = _
    rw [hdiff1]
    rfl
  · rw [manifestSet_sample]
    exact Finset.mem_singleton_self _
  · rw [SOSPeerDataSourceWillCommit, hun _ _ rfl, Option.bind_eq_bind, Option.bind_some,
      if_pos (Or.inl (hcount 1)), hpatch2, Option.bind_some, hdiff2]
    rfl
  · rw [manifestSet_sample]
    decide
  · rw [manifestSet_sample]
    decide
end SecurityFramework
