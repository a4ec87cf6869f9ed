import SecurityFramework.SecureObjectSync.ManifestDelta

/-! # What the capacity of a digest vector costs -/

namespace SecurityFramework
open SortedSet

/-- The vector lists exactly the digests of a set, in strictly ascending order. -/
structure SOSDigestVector.Lists (dv : SOSDigestVector) (s : Finset Digest) : Prop where
  strict : dv.digest.Pairwise (· < ·)
  set_eq : dv.digest.toFinset = s

theorem sortedDigests_sort (s : Finset Digest) : SortedDigests s.sort :=
  (sort_pairwise_lt s).imp le_of_lt

/-- Sorting and then removing duplicates enumerates the set of a vector, unless the vector is marked
as sorted and is not. -/
theorem sort_unique_spec (dv : SOSDigestVector)
    (hdv : dv.unsorted = true ∨ SortedDigests dv.digest) :
    ∃ sorted unique, SOSDigestVectorSort dv = some sorted ∧
      SOSDigestVectorUnique sorted = some unique ∧ unique.Lists dv.digest.toFinset ∧
      (dv.unsorted = true → sorted.digest = unique.digest) := by
  cases hmark : dv.unsorted with
  | true =>
    obtain ⟨sorted, hsort, hdigest⟩ := sort_spec dv hmark
    obtain ⟨unique, hunique, hdigest', -, -⟩ :=
      unique_spec sorted (hdigest ▸ sortedDigests_sort _)
    rw [hdigest, Finset.sort_toFinset] at hdigest'
    refine ⟨sorted, unique, hsort, hunique, ⟨?_, ?_⟩, fun _ => hdigest.trans hdigest'.symm⟩
    · rw [hdigest']
      exact sort_pairwise_lt _
    · rw [hdigest', Finset.sort_toFinset]
  | false =>
    have hsorted : SortedDigests dv.digest := hdv.resolve_left (by simp [hmark])
    obtain ⟨unique, hunique, hdigest, -, -⟩ := unique_spec dv hsorted
    refine ⟨dv, unique, by simp [SOSDigestVectorSort, hmark], hunique, ⟨?_, ?_⟩, by simp⟩
    · rw [hdigest]
      exact sort_pairwise_lt _
    · rw [hdigest, Finset.sort_toFinset]

theorem sort_unique_spec_sample :
    ∃ sorted unique,
      SOSDigestVectorSort ⟨[sampleDigest 7, sampleDigest 5, sampleDigest 7], 103, true, by decide⟩ =
        some sorted ∧ SOSDigestVectorUnique sorted = some unique ∧
      unique.Lists [sampleDigest 7, sampleDigest 5, sampleDigest 7].toFinset ∧
      (true = true → sorted.digest = unique.digest) :=
  sort_unique_spec ⟨[sampleDigest 7, sampleDigest 5, sampleDigest 7], 103, true, by decide⟩
    (.inl rfl)

private theorem unique_descending {dv : SOSDigestVector}
    (hdv : dv.digest = [sampleDigest 7, sampleDigest 5]) : SOSDigestVectorUnique dv = none := by
  have hcount : dv.count = 2 := by rw [SOSDigestVector.count, hdv]; rfl
  have hpos : sampleDigest 5 < sampleDigest 7 := by decide
  have hge : ¬sampleDigest 7 < sampleDigest 5 := not_lt_of_gt hpos
  rw [SOSDigestVectorUnique, if_neg (by omega), uniqueLoop, if_pos (by omega)]
  simp [hdv, hge, hpos]

/-- The digest vector of a manifest is marked as sorted, whatever the manifest lists. -/
theorem sort_skips_manifest :
    ¬∀ dv, ∃ sorted unique, SOSDigestVectorSort dv = some sorted ∧
      SOSDigestVectorUnique sorted = some unique ∧ unique.Lists dv.digest.toFinset := by
  intro h
  obtain ⟨sorted, unique, hsort, hunique, -⟩ :=
    h (SOSManifestGetDigestVector (manifestOf [sampleDigest 7, sampleDigest 5]))
  have hskip : SOSDigestVectorSort
      (SOSManifestGetDigestVector (manifestOf [sampleDigest 7, sampleDigest 5])) =
      some (SOSManifestGetDigestVector (manifestOf [sampleDigest 7, sampleDigest 5])) := rfl
  cases hskip.symm.trans hsort
  rw [unique_descending (manifestDigests_manifestOf _)] at hunique
  cases hunique

/-- Whether the vector an operation appends to in the end lists the set it should. -/
def Computes (result : Asserting SOSDigestVector) (s : Finset Digest) : Prop :=
  ∃ dv, result = some dv ∧ dv.Lists s

theorem appendAll_lists_iff (s : Finset Digest) :
    (SOSDigestVectorInit.appendAll s.sort).Lists s ↔ s.card ≤ kMaxDVCapacity := by
  have hdigest := appendAll_init_digest s.sort
  have hset : (SOSDigestVectorInit.appendAll s.sort).digest.toFinset = firstDigests s := by
    rw [hdigest, firstDigests]
  constructor
  · intro h
    have hcard := firstDigests_card s
    rw [← hset, h.set_eq] at hcard
    omega
  · intro hcard
    refine ⟨?_, by rw [hset, firstDigests_eq hcard]⟩
    rw [hdigest]
    exact (sort_pairwise_lt s).sublist (List.take_sublist _ _)

theorem computes_appendAll_iff (s : Finset Digest) :
    Computes (some (SOSDigestVectorInit.appendAll s.sort)) s ↔ s.card ≤ kMaxDVCapacity := by
  rw [← appendAll_lists_iff]
  constructor
  · rintro ⟨dv, heq, hlists⟩
    cases heq
    exact hlists
  · intro hlists
    exact ⟨_, rfl, hlists⟩

/-- A shortcut returns the set that the loop it passes over would. -/
def ShortcutAgrees (shortcut : Asserting SOSManifestRef) (loop : Asserting SOSDigestVector) : Prop :=
  ∃ m dv, shortcut = some m ∧ loop = some dv ∧ manifestSet m = dv.digest.toFinset

theorem shortcutAgrees_iff (m : SOSManifestRef) :
    ShortcutAgrees (some (if m.isSome then m else SOSManifestCreateWithBytes []))
        (some (SOSDigestVectorInit.appendAll (manifestSet m).sort)) ↔
      (manifestSet m).card ≤ kMaxDVCapacity := by
  have hkeep : manifestSet (if m.isSome then m else SOSManifestCreateWithBytes []) =
      manifestSet m := by
    cases m with
    | none => simp [ManifestOfSet.empty.set_eq, ManifestOfSet.none_empty.set_eq]
    | some m => rfl
  have hfirst : (SOSDigestVectorInit.appendAll (manifestSet m).sort).digest.toFinset =
      firstDigests (manifestSet m) := by
    rw [appendAll_init_digest, firstDigests]
  constructor
  · rintro ⟨m', dv, hshortcut, hloop, hset⟩
    cases hshortcut
    cases hloop
    rw [hkeep, hfirst] at hset
    have hcard := firstDigests_card (manifestSet m)
    rw [← hset] at hcard
    omega
  · intro hcard
    refine ⟨_, _, rfl, rfl, ?_⟩
    rw [hkeep, hfirst, firstDigests_eq hcard]

/-- Marked sorted, and in ascending order, duplicates allowed. -/
structure SOSDigestVector.Sorted (dv : SOSDigestVector) : Prop where
  marked : dv.unsorted = false
  sorted : SortedDigests dv.digest

section Operations

variable {dv1 dv2 : SOSDigestVector} {m1 m2 : SOSManifestRef}

theorem computes_diffSorted_iff (h1 : dv1.Sorted) (h2 : dv2.Sorted) :
    (∃ dv1_2 dv2_1, SOSDigestVectorDiffSorted dv1 dv2 SOSDigestVectorInit SOSDigestVectorInit =
        some (dv1_2, dv2_1) ∧ dv1_2.Lists (dv1.digest.toFinset \ dv2.digest.toFinset) ∧
        dv2_1.Lists (dv2.digest.toFinset \ dv1.digest.toFinset)) ↔
      (dv1.digest.toFinset \ dv2.digest.toFinset).card ≤ kMaxDVCapacity ∧
        (dv2.digest.toFinset \ dv1.digest.toFinset).card ≤ kMaxDVCapacity := by
  rw [diffSorted_spec h1.sorted h2.sorted, ← appendAll_lists_iff, ← appendAll_lists_iff]
  constructor
  · rintro ⟨dv1_2, dv2_1, heq, hlists1, hlists2⟩
    cases heq
    exact ⟨hlists1, hlists2⟩
  · rintro ⟨hlists1, hlists2⟩
    exact ⟨_, _, rfl, hlists1, hlists2⟩

theorem toFinset_getDigestVector (m : SOSManifestRef) :
    (SOSManifestGetDigestVector m).digest.toFinset = manifestSet m := rfl

theorem union_shortcut_left_iff (hm1 : ManifestSorted m1) (hm2 : ManifestSorted m2)
    (hempty : SOSManifestGetCount m1 = 0) :
    ShortcutAgrees (SOSManifestCreateUnion m1 m2)
        (SOSDigestVectorUnionSorted (SOSManifestGetDigestVector m1)
          (SOSManifestGetDigestVector m2) SOSDigestVectorInit) ↔
      (manifestSet m2).card ≤ kMaxDVCapacity := by
  have hset := (getCount_eq_zero_iff m1).mp hempty
  rw [SOSManifestCreateUnion, if_pos hempty, unionSorted_spec hm1 hm2, toFinset_getDigestVector,
    toFinset_getDigestVector, hset, Finset.empty_union]
  exact shortcutAgrees_iff m2

theorem union_shortcut_right_iff (hm1 : ManifestSorted m1) (hm2 : ManifestSorted m2)
    (hempty : SOSManifestGetCount m2 = 0) :
    ShortcutAgrees (SOSManifestCreateUnion m1 m2)
        (SOSDigestVectorUnionSorted (SOSManifestGetDigestVector m1)
          (SOSManifestGetDigestVector m2) SOSDigestVectorInit) ↔
      (manifestSet m1).card ≤ kMaxDVCapacity := by
  have hset := (getCount_eq_zero_iff m2).mp hempty
  by_cases hfirst : SOSManifestGetCount m1 = 0
  · rw [union_shortcut_left_iff hm1 hm2 hfirst, hset, (getCount_eq_zero_iff m1).mp hfirst]
  · rw [SOSManifestCreateUnion, if_neg hfirst, if_pos hempty, unionSorted_spec hm1 hm2,
      toFinset_getDigestVector, toFinset_getDigestVector, hset, Finset.union_empty]
    exact shortcutAgrees_iff m1

theorem complement_shortcut_iff (hm1 : ManifestSorted m1) (hm2 : ManifestSorted m2)
    (hempty : SOSManifestGetCount m1 = 0) :
    ShortcutAgrees (SOSManifestCreateComplement m1 m2)
        (SOSDigestVectorComplementSorted (SOSManifestGetDigestVector m1)
          (SOSManifestGetDigestVector m2) SOSDigestVectorInit) ↔
      (manifestSet m2).card ≤ kMaxDVCapacity := by
  have hset := (getCount_eq_zero_iff m1).mp hempty
  rw [SOSManifestCreateComplement, if_pos hempty,
    complementSorted_spec (getDigestVector_unsorted m1) (getDigestVector_unsorted m2) hm1 hm2,
    toFinset_getDigestVector, toFinset_getDigestVector, hset, Finset.sdiff_empty]
  exact shortcutAgrees_iff m2
end Operations

/-- On sorted vectors each operation lists its set, in strictly ascending order, just where that set
fits a digest vector, and so does a shortcut agree with the loop it passes over. -/
theorem mergeLoops_exact_iff (dv1 dv2 : SOSDigestVector) (h1 : dv1.Sorted) (h2 : dv2.Sorted)
    (m1 m2 : SOSManifestRef) (hm1 : ManifestSorted m1) (hm2 : ManifestSorted m2) :
    (Computes (SOSDigestVectorUnionSorted dv1 dv2 SOSDigestVectorInit)
        (dv1.digest.toFinset ∪ dv2.digest.toFinset) ↔
      (dv1.digest.toFinset ∪ dv2.digest.toFinset).card ≤ kMaxDVCapacity) ∧
    (Computes (SOSDigestVectorIntersectSorted dv1 dv2 SOSDigestVectorInit)
        (dv1.digest.toFinset ∩ dv2.digest.toFinset) ↔
      (dv1.digest.toFinset ∩ dv2.digest.toFinset).card ≤ kMaxDVCapacity) ∧
    ((∃ dv1_2 dv2_1, SOSDigestVectorDiffSorted dv1 dv2 SOSDigestVectorInit SOSDigestVectorInit =
        some (dv1_2, dv2_1) ∧ dv1_2.Lists (dv1.digest.toFinset \ dv2.digest.toFinset) ∧
        dv2_1.Lists (dv2.digest.toFinset \ dv1.digest.toFinset)) ↔
      (dv1.digest.toFinset \ dv2.digest.toFinset).card ≤ kMaxDVCapacity ∧
        (dv2.digest.toFinset \ dv1.digest.toFinset).card ≤ kMaxDVCapacity) ∧
    (Computes (SOSDigestVectorComplementSorted dv1 dv2 SOSDigestVectorInit)
        (dv2.digest.toFinset \ dv1.digest.toFinset) ↔
      (dv2.digest.toFinset \ dv1.digest.toFinset).card ≤ kMaxDVCapacity) ∧
    (SOSManifestGetCount m1 = 0 →
      (ShortcutAgrees (SOSManifestCreateUnion m1 m2)
          (SOSDigestVectorUnionSorted (SOSManifestGetDigestVector m1)
            (SOSManifestGetDigestVector m2) SOSDigestVectorInit) ↔
        (manifestSet m2).card ≤ kMaxDVCapacity) ∧
      (ShortcutAgrees (SOSManifestCreateComplement m1 m2)
          (SOSDigestVectorComplementSorted (SOSManifestGetDigestVector m1)
            (SOSManifestGetDigestVector m2) SOSDigestVectorInit) ↔
        (manifestSet m2).card ≤ kMaxDVCapacity)) ∧
    (SOSManifestGetCount m2 = 0 →
      (ShortcutAgrees (SOSManifestCreateUnion m1 m2)
          (SOSDigestVectorUnionSorted (SOSManifestGetDigestVector m1)
            (SOSManifestGetDigestVector m2) SOSDigestVectorInit) ↔
        (manifestSet m1).card ≤ kMaxDVCapacity)) := by
  refine ⟨?_, ?_, computes_diffSorted_iff h1 h2, ?_, fun hempty => ⟨?_, ?_⟩, fun hempty => ?_⟩
  · rw [unionSorted_spec h1.sorted h2.sorted]
    exact computes_appendAll_iff _
  · rw [intersectSorted_spec h1.sorted h2.sorted]
    exact computes_appendAll_iff _
  · rw [complementSorted_spec h1.marked h2.marked h1.sorted h2.sorted]
    exact computes_appendAll_iff _
  · exact union_shortcut_left_iff hm1 hm2 hempty
  · exact complement_shortcut_iff hm1 hm2 hempty
  · exact union_shortcut_right_iff hm1 hm2 hempty

theorem sampleVector_sorted (octet : UInt8) : (sampleVector octet).Sorted :=
  ⟨rfl, List.pairwise_singleton _ _⟩

theorem mergeLoops_exact_iff_sample :
    Computes (SOSDigestVectorUnionSorted (sampleVector 5) (sampleVector 7) SOSDigestVectorInit)
        ({sampleDigest 5} ∪ {sampleDigest 7}) ↔
      (({sampleDigest 5} ∪ {sampleDigest 7} : Finset Digest)).card ≤ kMaxDVCapacity :=
  (mergeLoops_exact_iff (sampleVector 5) (sampleVector 7) (sampleVector_sorted 5)
    (sampleVector_sorted 7) none none .nil .nil).1

theorem oversize_sorted : ManifestSorted (manifestOf oversizeSet.sort) :=
  (manifestOf_strict oversizeSet).sorted

/-- The union of nothing and a large vector lacks some of its digests. -/
theorem union_loses_oversize :
    ¬Computes (SOSDigestVectorUnionSorted SOSDigestVectorInit
        (SOSManifestGetDigestVector (manifestOf oversizeSet.sort)) SOSDigestVectorInit)
      (SOSDigestVectorInit.digest.toFinset ∪
        (SOSManifestGetDigestVector (manifestOf oversizeSet.sort)).digest.toFinset) := by
  rw [@unionSorted_spec SOSDigestVectorInit _ .nil oversize_sorted, computes_appendAll_iff,
    toFinset_getDigestVector, manifestSet_manifestOf_sort]
  intro hcard
  have hlarge := oversizeSet_card
  have hsub := Finset.card_le_card
    (@Finset.subset_union_right _ _ SOSDigestVectorInit.digest.toFinset oversizeSet)
  omega

/-- Where its exact result does not fit a digest vector, a constructor returns `NULL`. -/
def FailsWhenTooLarge (exact : Finset Digest) (result : Asserting SOSManifestRef) : Prop :=
  kMaxDVCapacity < exact.card → result = some none

/-- A manifest is returned, and lacks some digests. -/
def Truncates (exact : Finset Digest) (result : Asserting SOSManifestRef) : Prop :=
  ∃ m, result = some (some m) ∧ manifestSet (some m) ⊂ exact

theorem failsWhenTooLarge_iff {exact : Finset Digest} {result : Asserting SOSManifestRef}
    (hresult : result ≠ some none) :
    FailsWhenTooLarge exact result ↔ exact.card ≤ kMaxDVCapacity := by
  constructor
  · intro hfails
    by_contra hlarge
    exact hresult (hfails (by omega))
  · intro hcard hlarge
    omega

theorem createWithDigestVector_ne_null (dv : SOSDigestVector) :
    SOSManifestCreateWithDigestVector dv ≠ some none := by
  rw [SOSManifestCreateWithDigestVector]
  split
  · cases SOSDigestVectorSort dv <;> simp [SOSManifestCreateWithBytes, SOSManifestCreateWithData]
  · simp [SOSManifestCreateWithBytes, SOSManifestCreateWithData]

/-- No constructor has a way to fail after its loop. -/
theorem bind_createWithDigestVector_ne_null (loop : Asserting SOSDigestVector) :
    (loop >>= SOSManifestCreateWithDigestVector) ≠ some none := by
  cases loop with
  | none => simp
  | some dv => exact createWithDigestVector_ne_null dv

theorem orEmpty_ne_null (m : SOSManifestRef) :
    (some (if m.isSome then m else SOSManifestCreateWithBytes []) : Asserting SOSManifestRef) ≠
      some none := by
  cases m <;> simp [SOSManifestCreateWithBytes, SOSManifestCreateWithData]

theorem createUnion_ne_null (m1 m2 : SOSManifestRef) :
    SOSManifestCreateUnion m1 m2 ≠ some none := by
  rw [SOSManifestCreateUnion]
  split
  · exact orEmpty_ne_null m2
  · split
    · exact orEmpty_ne_null m1
    · exact bind_createWithDigestVector_ne_null _

theorem createComplement_ne_null (m1 m2 : SOSManifestRef) :
    SOSManifestCreateComplement m1 m2 ≠ some none := by
  rw [SOSManifestCreateComplement]
  split
  · exact orEmpty_ne_null m2
  · exact bind_createWithDigestVector_ne_null _

theorem truncates_of_subset {exact found : Finset Digest} (hfound : found ⊆ exact)
    (hlarge : kMaxDVCapacity < exact.card) :
    Truncates exact (some (manifestOf (found.sort.take kMaxDVCapacity))) := by
  have hset : manifestSet (manifestOf (found.sort.take kMaxDVCapacity)) = firstDigests found := by
    rw [manifestSet, manifestDigests_manifestOf, firstDigests]
  generalize hlist : found.sort.take kMaxDVCapacity = ds at hset ⊢
  refine ⟨⟨bytesOfDigests ds⟩, rfl, ?_⟩
  rw [← manifestOf, hset, Finset.ssubset_iff_subset_ne]
  refine ⟨(firstDigests_subset found).trans hfound, fun heq => ?_⟩
  have hcard := firstDigests_card found
  rw [heq] at hcard
  omega

/-- A constructor never fails, so that it does as it should just where its exact result fits a digest
vector. A larger result of its loop is returned without some of its digests. -/
theorem constructors_truncate (base removals additions m1 m2 : SOSManifestRef) :
    (FailsWhenTooLarge (manifestSet m1 ∪ manifestSet m2) (SOSManifestCreateUnion m1 m2) ↔
      (manifestSet m1 ∪ manifestSet m2).card ≤ kMaxDVCapacity) ∧
    (FailsWhenTooLarge ((manifestSet base ∪ manifestSet additions) \ manifestSet removals)
        (SOSManifestCreateWithPatch base removals additions) ↔
      ((manifestSet base ∪ manifestSet additions) \ manifestSet removals).card ≤
        kMaxDVCapacity) ∧
    (FailsWhenTooLarge (manifestSet m1 ∩ manifestSet m2) (SOSManifestCreateIntersection m1 m2) ↔
      (manifestSet m1 ∩ manifestSet m2).card ≤ kMaxDVCapacity) ∧
    (FailsWhenTooLarge (manifestSet m2 \ manifestSet m1) (SOSManifestCreateComplement m1 m2) ↔
      (manifestSet m2 \ manifestSet m1).card ≤ kMaxDVCapacity) ∧
    (ManifestSorted m1 → ManifestSorted m2 → SOSManifestGetCount m1 ≠ 0 →
      (SOSManifestGetCount m2 ≠ 0 → kMaxDVCapacity < (manifestSet m1 ∪ manifestSet m2).card →
        Truncates (manifestSet m1 ∪ manifestSet m2) (SOSManifestCreateUnion m1 m2)) ∧
      (kMaxDVCapacity < (manifestSet m2 \ manifestSet m1).card →
        Truncates (manifestSet m2 \ manifestSet m1) (SOSManifestCreateComplement m1 m2))) ∧
    (ManifestSorted m1 → ManifestSorted m2 →
      kMaxDVCapacity < (manifestSet m1 ∩ manifestSet m2).card →
      Truncates (manifestSet m1 ∩ manifestSet m2) (SOSManifestCreateIntersection m1 m2)) ∧
    (ManifestSorted base → ManifestSorted removals → ManifestSorted additions →
      kMaxDVCapacity < ((manifestSet base ∪ manifestSet additions) \ manifestSet removals).card →
      Truncates ((manifestSet base ∪ manifestSet additions) \ manifestSet removals)
        (SOSManifestCreateWithPatch base removals additions)) := by
  refine ⟨failsWhenTooLarge_iff (createUnion_ne_null m1 m2),
    failsWhenTooLarge_iff (bind_createWithDigestVector_ne_null _),
    failsWhenTooLarge_iff (bind_createWithDigestVector_ne_null _),
    failsWhenTooLarge_iff (createComplement_ne_null m1 m2), ?_, ?_, ?_⟩
  · intro h1 h2 hne1
    rw [Ne, getCount_eq_zero_iff] at hne1
    refine ⟨fun hne2 hlarge => ?_, fun hlarge => ?_⟩
    · rw [Ne, getCount_eq_zero_iff] at hne2
      rw [createUnion_spec h1 h2 hne1 hne2]
      exact truncates_of_subset Finset.Subset.rfl hlarge
    · rw [createComplement_spec h1 h2 hne1]
      exact truncates_of_subset Finset.Subset.rfl hlarge
  · intro h1 h2 hlarge
    rw [createIntersection_spec h1 h2]
    exact truncates_of_subset Finset.Subset.rfl hlarge
  · intro hb hr ha hlarge
    rw [createWithPatch_spec hb hr ha]
    exact truncates_of_subset Finset.sdiff_subset hlarge

/-- The intersection of a large manifest with itself is returned without some of its digests. -/
theorem intersection_truncates_oversize :
    ¬FailsWhenTooLarge
        (manifestSet (manifestOf oversizeSet.sort) ∩ manifestSet (manifestOf oversizeSet.sort))
        (SOSManifestCreateIntersection (manifestOf oversizeSet.sort)
          (manifestOf oversizeSet.sort)) ∧
      Truncates
        (manifestSet (manifestOf oversizeSet.sort) ∩ manifestSet (manifestOf oversizeSet.sort))
        (SOSManifestCreateIntersection (manifestOf oversizeSet.sort)
          (manifestOf oversizeSet.sort)) := by
  have hlarge := oversizeSet_card
  refine ⟨fun hfails => ?_, ?_⟩
  · have hcard := (failsWhenTooLarge_iff (bind_createWithDigestVector_ne_null _)).mp hfails
    rw [Finset.inter_self, manifestSet_manifestOf_sort] at hcard
    omega
  · rw [createIntersection_spec oversize_sorted oversize_sorted, Finset.inter_self,
      manifestSet_manifestOf_sort]
    exact truncates_of_subset Finset.Subset.rfl hlarge
end SecurityFramework
