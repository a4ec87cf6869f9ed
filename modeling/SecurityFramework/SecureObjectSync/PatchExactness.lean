import SecurityFramework.SecureObjectSync.Manifest

/-! # When a patch is exact -/

namespace SecurityFramework
open SortedSet

def SOSDigestVector.SortedUnique (dv : SOSDigestVector) : Prop :=
  dv.unsorted = false ∧ dv.digest.Pairwise (· < ·)

theorem SOSDigestVector.SortedUnique.sorted {dv : SOSDigestVector} (h : dv.SortedUnique) :
    SortedDigests dv.digest := h.2.imp le_of_lt

def exactPatch (base removals additions : List Digest) : List Digest :=
  ((base.toFinset ∪ additions.toFinset) \ removals.toFinset).sort

private theorem lostByPatch_nonempty {base additions removals : Finset Digest}
    (h : PatchLoses base additions removals) :
    (lostByPatch base additions removals).Nonempty := by
  obtain ⟨r, hr, hmax, -, -, ⟨b, hb, hrb⟩, -⟩ := id h
  let candidates := (base ∪ additions).filter fun x => ∀ y ∈ removals, y < x
  have hne : candidates.Nonempty :=
    ⟨b, Finset.mem_filter.mpr ⟨Finset.mem_union_left _ hb, fun y hy => (hmax y hy).trans_lt hrb⟩⟩
  have hmin := Finset.mem_filter.mp (candidates.min'_mem hne)
  refine ⟨candidates.min' hne, Finset.mem_filter.mpr ⟨hmin.1, h, hmin.2, fun x hx hxr => ?_⟩⟩
  exact candidates.min'_le x (Finset.mem_filter.mpr ⟨hx, hxr⟩)

theorem lostByPatch_subset (base additions removals : Finset Digest) :
    lostByPatch base additions removals ⊆ (base ∪ additions) \ removals := by
  intro c hc
  obtain ⟨hmem, -, hpast, -⟩ := Finset.mem_filter.mp hc
  exact Finset.mem_sdiff.mpr ⟨hmem, fun h => lt_irrefl c (hpast c h)⟩

theorem patchedSet_eq_iff (base additions removals : Finset Digest) :
    patchedSet base additions removals = (base ∪ additions) \ removals ↔
      ¬ PatchLoses base additions removals := by
  constructor
  · intro heq hloses
    obtain ⟨c, hc⟩ := lostByPatch_nonempty hloses
    have hin := lostByPatch_subset base additions removals hc
    rw [← heq, patchedSet] at hin
    exact (Finset.mem_sdiff.mp hin).2 hc
  · intro hexact
    rw [patchedSet, lostByPatch_of_not hexact, Finset.sdiff_empty]

theorem patchedSet_card_le (base additions removals : Finset Digest) :
    (patchedSet base additions removals).card ≤ base.card + additions.card :=
  (Finset.card_le_card (Finset.sdiff_subset.trans Finset.sdiff_subset)).trans
    (Finset.card_union_le base additions)

private theorem take_patchedSet (base additions removals : List Digest)
    (hsize : base.length + additions.length ≤ kMaxDVCapacity) :
    (patchedSet base.toFinset additions.toFinset removals.toFinset).sort.take kMaxDVCapacity =
      (patchedSet base.toFinset additions.toFinset removals.toFinset).sort := by
  apply List.take_of_length_le
  rw [Finset.length_sort]
  have hb := List.toFinset_card_le base
  have ha := List.toFinset_card_le additions
  have hcard := patchedSet_card_le base.toFinset additions.toFinset removals.toFinset
  omega

private theorem take_patchedSet_eq_exactPatch_iff (base removals additions : List Digest)
    (hsize : base.length + additions.length ≤ kMaxDVCapacity) :
    (patchedSet base.toFinset additions.toFinset removals.toFinset).sort.take kMaxDVCapacity =
        exactPatch base removals additions ↔
      ¬ PatchLoses base.toFinset additions.toFinset removals.toFinset := by
  rw [take_patchedSet _ _ _ hsize, ← patchedSet_eq_iff]
  exact ⟨sort_injective, fun h => congrArg Finset.sort h⟩

theorem patchSorted_digest_iff (base removals additions : SOSDigestVector)
    (hb : base.SortedUnique) (hr : removals.SortedUnique) (ha : additions.SortedUnique)
    (hsize : base.count + removals.count + additions.count ≤ kMaxDVCapacity) :
    (∃ dv, SOSDigestVectorPatchSorted base removals additions SOSDigestVectorInit = some dv ∧
        dv.digest = exactPatch base.digest removals.digest additions.digest) ↔
      ¬ PatchLoses base.digest.toFinset additions.digest.toFinset removals.digest.toFinset := by
  have hlen : base.digest.length + additions.digest.length ≤ kMaxDVCapacity := by
    simp only [SOSDigestVector.count] at hsize
    omega
  rw [patchSorted_spec hb.1 hr.1 ha.1 hb.sorted hr.sorted ha.sorted]
  simp only [Option.some.injEq, exists_eq_left', appendAll_init_digest]
  exact take_patchedSet_eq_exactPatch_iff _ _ _ hlen

theorem createWithPatch_eq_iff (base removals additions : SOSManifestRef)
    (hb : ManifestStrict base) (hr : ManifestStrict removals) (ha : ManifestStrict additions)
    (hsize : SOSManifestGetCount base + SOSManifestGetCount removals +
      SOSManifestGetCount additions ≤ kMaxDVCapacity) :
    SOSManifestCreateWithPatch base removals additions =
        some (manifestOf (exactPatch (manifestDigests base) (manifestDigests removals)
          (manifestDigests additions))) ↔
      ¬ PatchLoses (manifestSet base) (manifestSet additions) (manifestSet removals) := by
  have hlen : (manifestDigests base).length + (manifestDigests additions).length ≤
      kMaxDVCapacity := by
    simp only [getCount_eq] at hsize
    omega
  rw [createWithPatch_spec hb.sorted hr.sorted ha.sorted, Option.some.injEq,
    manifestOf_injective.eq_iff]
  exact take_patchedSet_eq_exactPatch_iff _ _ _ hlen

/-- On sorted, duplicate-free inputs within the capacity limit, the patch of digest vectors, and
of manifests that list the same digests, is exact just where the largest removal is in the base
or in the additions, or is not below some digest of both. -/
theorem patchSorted_exact_iff (base removals additions : SOSDigestVector)
    (hb : base.SortedUnique) (hr : removals.SortedUnique) (ha : additions.SortedUnique)
    (hsize : base.count + removals.count + additions.count ≤ kMaxDVCapacity)
    (baseManifest removalsManifest additionsManifest : SOSManifestRef)
    (hbase : manifestDigests baseManifest = base.digest)
    (hremovals : manifestDigests removalsManifest = removals.digest)
    (hadditions : manifestDigests additionsManifest = additions.digest) :
    ((∃ dv, SOSDigestVectorPatchSorted base removals additions SOSDigestVectorInit = some dv ∧
        dv.digest = exactPatch base.digest removals.digest additions.digest) ↔
      ¬ PatchLoses base.digest.toFinset additions.digest.toFinset removals.digest.toFinset) ∧
    (SOSManifestCreateWithPatch baseManifest removalsManifest additionsManifest =
        some (manifestOf (exactPatch base.digest removals.digest additions.digest)) ↔
      ¬ PatchLoses base.digest.toFinset additions.digest.toFinset removals.digest.toFinset) := by
  refine ⟨patchSorted_digest_iff base removals additions hb hr ha hsize, ?_⟩
  have hbStrict : ManifestStrict baseManifest := by rw [ManifestStrict, hbase]; exact hb.2
  have hrStrict : ManifestStrict removalsManifest := by
    rw [ManifestStrict, hremovals]
    exact hr.2
  have haStrict : ManifestStrict additionsManifest := by
    rw [ManifestStrict, hadditions]
    exact ha.2
  simp only [SOSDigestVector.count, ← hbase, ← hremovals, ← hadditions, ← getCount_eq] at hsize ⊢
  exact createWithPatch_eq_iff baseManifest removalsManifest additionsManifest hbStrict hrStrict
    haStrict hsize

def sampleDigest (octet : UInt8) : Digest := ⟨octet :: List.replicate 19 0, rfl⟩

def sampleVector (octet : UInt8) : SOSDigestVector := ⟨[sampleDigest octet], 1, false, le_rfl⟩

theorem patchSorted_exact_iff_sample :
    SOSManifestCreateWithPatch (manifestOf [sampleDigest 5]) (manifestOf [sampleDigest 5])
        (manifestOf [sampleDigest 7]) =
        some (manifestOf (exactPatch [sampleDigest 5] [sampleDigest 5] [sampleDigest 7])) ↔
      ¬ PatchLoses {sampleDigest 5} {sampleDigest 7} {sampleDigest 5} :=
  (patchSorted_exact_iff (sampleVector 5) (sampleVector 5) (sampleVector 7)
    ⟨rfl, List.pairwise_singleton _ _⟩ ⟨rfl, List.pairwise_singleton _ _⟩
    ⟨rfl, List.pairwise_singleton _ _⟩ (by decide) _ _ _ (manifestDigests_manifestOf _)
    (manifestDigests_manifestOf _) (manifestDigests_manifestOf _)).2

/-- Removing a digest below all others loses the least digest of the base. -/
theorem patchSorted_loses_base :
    ∃ dv, SOSDigestVectorPatchSorted (sampleVector 5) (sampleVector 1) (sampleVector 7)
        SOSDigestVectorInit = some dv ∧ dv.digest = [sampleDigest 7] ∧
      exactPatch [sampleDigest 5] [sampleDigest 1] [sampleDigest 7] ≠ [sampleDigest 7] := by
  have hset : patchedSet {sampleDigest 5} {sampleDigest 7} {sampleDigest 1} =
      {sampleDigest 7} := by decide
  refine ⟨_, patchSorted_spec rfl rfl rfl (List.pairwise_singleton _ _)
    (List.pairwise_singleton _ _) (List.pairwise_singleton _ _), ?_, ?_⟩
  · rw [appendAll_init_digest]
    change (patchedSet {sampleDigest 5} {sampleDigest 7} {sampleDigest 1}).sort.take _ = _
    rw [hset, Finset.sort_singleton]
    rfl
  · intro h
    have hmem : sampleDigest 5 ∈ exactPatch [sampleDigest 5] [sampleDigest 1] [sampleDigest 7] := by
      rw [exactPatch, Finset.mem_sort]
      decide
    rw [h] at hmem
    exact absurd hmem (by decide)
end SecurityFramework
