import SecurityFramework.SecureObjectSync.Engine

/-! # Deltas rebuild the proposed manifest -/

namespace SecurityFramework
open SortedSet

/-- The second manifest fits a digest vector. Unless it is empty, it is moreover full and wholly
below any digest of the first that it lacks and that the removals have no room for. -/
def DeltaFits (a b : Finset Digest) : Prop :=
  b.card ≤ kMaxDVCapacity ∧ (b = ∅ ∨ ∀ y ∈ (a \ b) \ firstDigests (a \ b),
    b.card = kMaxDVCapacity ∧ ∀ x ∈ b, x < y)

variable {additions a b : Finset Digest}

private theorem not_patchLoses_of_subset {base removals : Finset Digest} (hsub : removals ⊆ base) :
    ¬ PatchLoses base additions removals := by
  rintro ⟨r, hr, -, hout, -⟩
  exact hout (hsub hr)

/-- Any additions between what the second set adds and the second set itself will do. -/
private theorem patch_set_eq (hlower : b \ a ⊆ additions) (hupper : additions ⊆ b) :
    (a ∪ additions) \ listedDiff a b = b ∪ (a \ b) \ listedDiff a b := by
  have hsub := listedDiff_subset a b
  ext x
  simp only [Finset.mem_sdiff, Finset.mem_union]
  constructor
  · rintro ⟨hx | hx, hrem⟩
    · by_cases hxb : x ∈ b
      · exact Or.inl hxb
      · exact Or.inr ⟨⟨hx, hxb⟩, hrem⟩
    · exact Or.inl (hupper hx)
  · rintro (hx | ⟨⟨hx, -⟩, hrem⟩)
    · refine ⟨?_, fun h => (Finset.mem_sdiff.mp (hsub h)).2 hx⟩
      by_cases hxa : x ∈ a
      · exact Or.inl hxa
      · exact Or.inr (hlower (Finset.mem_sdiff.mpr ⟨hx, hxa⟩))
    · exact ⟨Or.inl hx, hrem⟩

/-- A set keeps its place in front of larger digests. -/
private theorem firstDigests_union_eq {rest : Finset Digest} (hfull : b.card = kMaxDVCapacity)
    (hlt : ∀ x ∈ b, ∀ y ∈ rest, x < y) : firstDigests (b ∪ rest) = b := by
  have hsorted : (b ∪ rest).sort = b.sort ++ rest.sort := by
    refine eq_of_mem_iff (sort_pairwise_lt _) ?_ fun x => by simp
    rw [List.pairwise_append]
    refine ⟨sort_pairwise_lt _, sort_pairwise_lt _, fun x hx y hy => ?_⟩
    exact hlt x ((Finset.mem_sort _).mp hx) y ((Finset.mem_sort _).mp hy)
  apply sort_injective
  rw [sort_firstDigests, hsorted, List.take_left' (by rw [Finset.length_sort, hfull])]

/-- What the receiver keeps is the second set just where the deltas fit. -/
private theorem firstDigests_patch_eq_iff (hlower : b.card ≤ kMaxDVCapacity → b \ a ⊆ additions)
    (hupper : additions ⊆ b) :
    firstDigests ((a ∪ additions) \ listedDiff a b) = b ↔ DeltaFits a b := by
  constructor
  · intro heq
    have hcard : b.card ≤ kMaxDVCapacity := by
      rw [← heq, firstDigests_card]
      exact Nat.min_le_left _ _
    refine ⟨hcard, ?_⟩
    by_cases hb : b = ∅
    · exact Or.inl hb
    · refine Or.inr fun y hy => ?_
      have hset := patch_set_eq (hlower hcard) hupper
      rw [listedDiff, if_neg hb] at hset heq
      rw [hset] at heq
      have hyIn : y ∈ b ∪ (a \ b) \ firstDigests (a \ b) := Finset.mem_union_right _ hy
      have hyOut : y ∉ b := (Finset.mem_sdiff.mp (Finset.mem_sdiff.mp hy).1).2
      refine ⟨?_, fun x hx => ?_⟩
      · by_contra hne
        have hroom : (b ∪ (a \ b) \ firstDigests (a \ b)).card ≤ kMaxDVCapacity := by
          have hmin := firstDigests_card (b ∪ (a \ b) \ firstDigests (a \ b))
          rw [heq] at hmin
          omega
        rw [firstDigests_eq hroom] at heq
        exact hyOut (heq ▸ hyIn)
      · exact firstDigests_lt (heq.symm ▸ hx) hyIn (heq.symm ▸ hyOut)
  · rintro ⟨hcard, hfits⟩
    rw [patch_set_eq (hlower hcard) hupper]
    by_cases hb : b = ∅
    · rw [listedDiff, if_pos hb, hb, Finset.sdiff_empty, Finset.sdiff_self,
        Finset.union_empty]
      exact firstDigests_eq (Nat.zero_le _)
    · have hfits := hfits.resolve_left hb
      rw [listedDiff, if_neg hb]
      by_cases hrest : (a \ b) \ firstDigests (a \ b) = ∅
      · rw [hrest, Finset.union_empty, firstDigests_eq hcard]
      · obtain ⟨y, hy⟩ := Finset.nonempty_iff_ne_empty.mpr hrest
        exact firstDigests_union_eq (hfits y hy).1 fun x hx y hy => (hfits y hy).2 x hx

private theorem listedDiff_lower (hcard : b.card ≤ kMaxDVCapacity) :
    b \ a ⊆ listedDiff b a :=
  (listedDiff_eq ((Finset.card_le_card Finset.sdiff_subset).trans hcard)).symm.subset

private theorem listedDiff_upper (a b : Finset Digest) : listedDiff b a ⊆ b :=
  (listedDiff_subset b a).trans Finset.sdiff_subset

private theorem createWithData_getData (b : SOSManifestRef) (hb : ManifestStrict b)
    (hwhole : ManifestWhole b) :
    SOSManifestCreateWithData (SOSManifestGetData b) = manifestOf (manifestSet b).sort := by
  rw [hb.sort_eq]
  cases b with
  | none => rfl
  | some m =>
    have hbytes := bytesOfDigests_digestsOfBytes m.digestVector hwhole
    change some m = some ⟨bytesOfDigests (digestsOfBytes m.digestVector)⟩
    rw [hbytes]

private theorem diff_patch_eq_iff (a b : SOSManifestRef) (ha : ManifestStrict a) (hb : ManifestStrict b)
    (hwhole : ManifestWhole b) :
    (do
      let (a_minus_b, b_minus_a) ← SOSManifestDiff a b
      SOSManifestCreateWithPatch a a_minus_b b_minus_a) =
        some (SOSManifestCreateWithData (SOSManifestGetData b)) ↔
      DeltaFits (manifestSet a) (manifestSet b) := by
  obtain ⟨a_minus_b, b_minus_a, hdiff, hremovals, hadditions⟩ :=
    (ManifestOfSet.of_strict ha).diff (ManifestOfSet.of_strict hb)
  have hsub : listedDiff (manifestSet a) (manifestSet b) ⊆ manifestSet a :=
    (listedDiff_subset _ _).trans Finset.sdiff_subset
  have hpatch := (ManifestOfSet.of_strict ha).patch_eq hremovals hadditions
  rw [(patchedSet_eq_iff _ _ _).mpr (not_patchLoses_of_subset hsub)] at hpatch
  rw [hdiff, Option.bind_eq_bind, Option.bind_some]
  change SOSManifestCreateWithPatch a a_minus_b b_minus_a = _ ↔ _
  rw [hpatch, createWithData_getData b hb hwhole, Option.some.injEq, manifestOf_injective.eq_iff,
    ← firstDigests_patch_eq_iff listedDiff_lower (listedDiff_upper _ _)]
  exact ⟨sort_injective, fun h => congrArg Finset.sort h⟩

/-- What the receiver holding `base` takes the proposed manifest to be, on a message from a sender
whose own manifest it does not know, when the objects with the given digests came with it. -/
def rebuiltDigests (sha1 : List UInt8 → List UInt8) (version : UInt64)
    (sender base proposed objectsSent : SOSManifestRef) (receivedObjects : List Digest) :
    Asserting (List Digest) := do
  let message ← SOSMessageSetManifests sha1 (SOSMessageCreate version) sender base proposed true
    objectsSent
  let additions ← allAdditions message receivedObjects
  let confirmed ← confirmedManifest none base message additions
  some (manifestDigests confirmed)

private theorem setManifests_spec (sha1 : List UInt8 → List UInt8) (version : UInt64)
    (sender base proposed objectsSent : SOSManifestRef) (hbase : ManifestStrict base)
    (hproposed : ManifestStrict proposed) (hsent : ManifestStrict objectsSent) :
    ∃ message additions, SOSMessageSetManifests sha1 (SOSMessageCreate version) sender base
        proposed true objectsSent = some message ∧
      message.baseDigest = SOSManifestGetDigest sha1 base ∧
      ManifestOfSet message.removals (listedDiff (manifestSet base) (manifestSet proposed)) ∧
      ManifestOfSet message.additions additions ∧
      (additions = listedDiff (manifestSet proposed) (manifestSet base) ∨
        additions = listedDiff (listedDiff (manifestSet proposed) (manifestSet base))
          (manifestSet objectsSent)) := by
  obtain ⟨removals, additions, hdiff, hremovals, hadditions⟩ :=
    (ManifestOfSet.of_strict hbase).diff (ManifestOfSet.of_strict hproposed)
  obtain ⟨rest, hrest, hrestSet⟩ := (ManifestOfSet.of_strict hsent).complement hadditions
  simp only [SOSMessageSetManifests, if_true, hdiff, Option.bind_eq_bind, Option.bind_some]
  by_cases hversion : (SOSMessageCreate version).version = 0
  · rw [if_pos hversion]
    exact ⟨_, _, rfl, rfl, hremovals, hadditions, Or.inl rfl⟩
  · rw [if_neg hversion, hrest]
    exact ⟨_, _, rfl, rfl, hremovals, hrestSet, Or.inr rfl⟩

/-- What the receiver adds lies between what the proposed manifest adds and that manifest. -/
private theorem allAdditions_bounds {sent : Finset Digest} {received : List Digest}
    (hadditions : additions = listedDiff b a ∨ additions = listedDiff (listedDiff b a) sent)
    (hnodup : received.Nodup) (hreceived : ∀ d ∈ received, d ∈ b)
    (hsent : sent ⊆ received.toFinset) :
    (b.card ≤ kMaxDVCapacity →
      b \ a ⊆ firstDigests (additions ∪ (received.take kMaxDVCapacity).toFinset)) ∧
    firstDigests (additions ∪ (received.take kMaxDVCapacity).toFinset) ⊆ b := by
  have hupper : additions ⊆ b := by
    rcases hadditions with rfl | rfl
    · exact listedDiff_upper a b
    · exact (listedDiff_upper sent _).trans (listedDiff_upper a b)
  have hall : additions ∪ (received.take kMaxDVCapacity).toFinset ⊆ b :=
    Finset.union_subset hupper fun d hd =>
      hreceived d (List.mem_of_mem_take (List.mem_toFinset.mp hd))
  refine ⟨fun hcard => ?_, (firstDigests_subset _).trans hall⟩
  have hlen : received.length ≤ kMaxDVCapacity := by
    rw [← List.toFinset_card_of_nodup hnodup]
    exact (Finset.card_le_card fun d hd => hreceived d (List.mem_toFinset.mp hd)).trans hcard
  rw [firstDigests_eq ((Finset.card_le_card hall).trans hcard), List.take_of_length_le hlen]
  rcases hadditions with rfl | rfl
  · exact (listedDiff_lower hcard).trans Finset.subset_union_left
  · intro d hd
    have hfit : (listedDiff b a \ sent).card ≤ kMaxDVCapacity :=
      (Finset.card_le_card (Finset.sdiff_subset.trans (listedDiff_upper a b))).trans hcard
    rw [listedDiff_eq hfit]
    by_cases hds : d ∈ sent
    · exact Finset.mem_union_right _ (hsent hds)
    · exact Finset.mem_union_left _ (Finset.mem_sdiff.mpr ⟨listedDiff_lower hcard hd, hds⟩)

private theorem firstDigests_eq_empty_iff (s : Finset Digest) : firstDigests s = ∅ ↔ s = ∅ := by
  rw [← Finset.card_eq_zero, firstDigests_card, ← Finset.card_eq_zero (s := s)]
  have hpos : kMaxDVCapacity ≠ 0 := by decide
  omega

/-- Where nothing is removed, the first set lies in the second. -/
private theorem subset_of_listedDiff_empty (h : listedDiff a b = ∅) :
    a ⊆ b := by
  rw [listedDiff] at h
  split_ifs at h with hb
  · rw [h]
    exact Finset.empty_subset b
  · exact Finset.sdiff_eq_empty_iff_subset.mp ((firstDigests_eq_empty_iff _).mp h)

private theorem rebuiltDigests_eq_iff (sha1 : List UInt8 → List UInt8) (version : UInt64)
    (sender base proposed objectsSent : SOSManifestRef) (received : List Digest)
    (hbase : ManifestStrict base) (hproposed : ManifestStrict proposed)
    (hsentStrict : ManifestStrict objectsSent) (hnodup : received.Nodup)
    (hreceived : ∀ d ∈ received, d ∈ manifestSet proposed)
    (hsent : manifestSet objectsSent ⊆ received.toFinset) :
    rebuiltDigests sha1 version sender base proposed objectsSent received =
        some (manifestDigests proposed) ↔
      DeltaFits (manifestSet base) (manifestSet proposed) ∨
        (manifestSet base = manifestSet proposed ∧ received = []) := by
  obtain ⟨message, additions, hmessage, hdigest, hremovals, hadditions, hform⟩ :=
    setManifests_spec sha1 version sender base proposed objectsSent hbase hproposed hsentStrict
  obtain ⟨hlower, hupper⟩ := allAdditions_bounds hform hnodup hreceived hsent
  have hallEq := allAdditions_eq message additions received hadditions
  have hallSet := ManifestOfSet.sort
    (firstDigests (additions ∪ (received.take kMaxDVCapacity).toFinset))
  have hiff := firstDigests_patch_eq_iff hlower hupper
  generalize hN : firstDigests (additions ∪ (received.take kMaxDVCapacity).toFinset) = added
    at hallEq hallSet hiff hupper
  have hempty : manifestSet base = manifestSet proposed ∧ received = [] →
      listedDiff (manifestSet base) (manifestSet proposed) = ∅ ∧ added = ∅ := by
    rintro ⟨heq, rfl⟩
    have hnil : listedDiff (manifestSet proposed) (manifestSet proposed) = ∅ := by
      have hsub := listedDiff_subset (manifestSet proposed) (manifestSet proposed)
      rwa [Finset.sdiff_self, Finset.subset_empty] at hsub
    rw [heq] at hform ⊢
    refine ⟨hnil, ?_⟩
    have hadd : additions = ∅ := by
      rcases hform with rfl | rfl
      · exact hnil
      · rw [hnil, ← Finset.subset_empty]
        exact (listedDiff_subset _ _).trans Finset.sdiff_subset
    rw [← hN, hadd, List.take_nil, List.toFinset_nil, Finset.union_empty,
      firstDigests_eq_empty_iff]
  simp only [rebuiltDigests, hmessage, hallEq, Option.bind_eq_bind, Option.bind_some]
  have hnone : ¬ (none : SOSManifestRef).isSome = true := by decide
  by_cases hchange : SOSManifestGetCount message.removals ≠ 0 ∨
      SOSManifestGetCount (manifestOf added.sort) ≠ 0
  · have hbaseDigest : base.isSome || message.baseDigest.isNone := by
      rw [hdigest]
      cases base <;> rfl
    have hsub : listedDiff (manifestSet base) (manifestSet proposed) ⊆ manifestSet base :=
      (listedDiff_subset _ _).trans Finset.sdiff_subset
    have hpatch := (ManifestOfSet.of_strict hbase).patch_eq hremovals hallSet
    rw [(patchedSet_eq_iff _ _ _).mpr (not_patchLoses_of_subset hsub)] at hpatch
    rw [confirmedManifest, if_neg hnone, if_pos hchange, if_pos hbaseDigest, hpatch,
      Option.bind_some, manifestDigests_manifestOf, ← hproposed.sort_eq, Option.some.injEq]
    rw [hremovals.count_eq_zero_iff.ne, hallSet.count_eq_zero_iff.ne] at hchange
    constructor
    · exact fun h => Or.inl (hiff.mp (sort_injective h))
    · rintro (h | h)
      · exact congrArg Finset.sort (hiff.mpr h)
      · obtain ⟨hr, ha⟩ := hempty h
        exact absurd hchange (by simp [hr, ha])
  · have hconfirmed : (confirmedManifest none base message (manifestOf added.sort)).bind
        (fun confirmed => some (manifestDigests confirmed)) = some (manifestDigests base) := by
      rw [confirmedManifest, if_neg hnone, if_neg hchange, hdigest]
      cases base <;> rfl
    push Not at hchange
    have hr := hremovals.count_eq_zero_iff.mp hchange.1
    have ha := hallSet.count_eq_zero_iff.mp hchange.2
    have hle := subset_of_listedDiff_empty hr
    rw [hconfirmed, Option.some.injEq, ← hbase.sort_eq, ← hproposed.sort_eq]
    constructor
    · intro h
      refine Or.inr ⟨sort_injective h, ?_⟩
      rw [ha, firstDigests_eq_empty_iff, Finset.union_eq_empty, List.toFinset_eq_empty_iff,
        List.take_eq_nil_iff] at hN
      exact hN.2.resolve_left (by decide)
    · rintro (h | h)
      · have hfirst := hiff.mpr h
        rw [hr, ha, Finset.union_empty, Finset.sdiff_empty] at hfirst
        have hge : manifestSet proposed ⊆ manifestSet base := by
          rw [← hfirst]
          exact firstDigests_subset _
        rw [Finset.Subset.antisymm hle hge]
      · rw [h.1]

/-- The patch of a manifest by its difference to another rebuilds the other just where the deltas
fit. So does the receiver of a message with these deltas, which besides keeps a manifest that is
proposed unchanged, and without objects, whatever its size. -/
theorem delta_rebuilds_iff (a b : SOSManifestRef) (ha : ManifestStrict a) (hb : ManifestStrict b)
    (hwhole : ManifestWhole b) :
    ((do
      let (a_minus_b, b_minus_a) ← SOSManifestDiff a b
      SOSManifestCreateWithPatch a a_minus_b b_minus_a) =
        some (SOSManifestCreateWithData (SOSManifestGetData b)) ↔
      DeltaFits (manifestSet a) (manifestSet b)) ∧
    ∀ (sha1 : List UInt8 → List UInt8) (version : UInt64) (sender objectsSent : SOSManifestRef)
      (received : List Digest), ManifestStrict objectsSent → received.Nodup →
      (∀ d ∈ received, d ∈ manifestSet b) → manifestSet objectsSent ⊆ received.toFinset →
      (rebuiltDigests sha1 version sender a b objectsSent received =
          some (manifestDigests b) ↔
        DeltaFits (manifestSet a) (manifestSet b) ∨
          (manifestSet a = manifestSet b ∧ received = [])) := by
  refine ⟨diff_patch_eq_iff a b ha hb hwhole, ?_⟩
  intro sha1 version sender objectsSent received hsentStrict hnodup hreceived hsent
  exact rebuiltDigests_eq_iff sha1 version sender a b objectsSent received ha hb hsentStrict
    hnodup hreceived hsent

theorem delta_rebuilds_iff_sample :
    (do
      let (a_minus_b, b_minus_a) ← SOSManifestDiff none (sampleManifest 7)
      SOSManifestCreateWithPatch none a_minus_b b_minus_a) =
        some (SOSManifestCreateWithData (SOSManifestGetData (sampleManifest 7))) ↔
      DeltaFits (manifestSet none) (manifestSet (sampleManifest 7)) :=
  (delta_rebuilds_iff none (sampleManifest 7) List.Pairwise.nil (sampleManifest_strict 7) rfl).1

def numberedDigest (n : Nat) : Digest :=
  ⟨List.replicate 17 0 ++
    [UInt8.ofNat (n / 65536), UInt8.ofNat (n / 256), UInt8.ofNat n], rfl⟩

def oversizeSet : Finset Digest := (Finset.range (kMaxDVCapacity + 1)).image numberedDigest

private theorem numberedDigest_inj {m n : Nat} (hm : m < 16777216) (hn : n < 16777216)
    (h : numberedDigest m = numberedDigest n) : m = n := by
  have hbytes := List.append_cancel_left (congrArg Digest.bytes h)
  simp only [List.cons.injEq, and_true] at hbytes
  have h1 := congrArg UInt8.toNat hbytes.1
  have h2 := congrArg UInt8.toNat hbytes.2.1
  have h3 := congrArg UInt8.toNat hbytes.2.2
  simp only [UInt8.toNat_ofNat'] at h1 h2 h3
  omega

theorem oversizeSet_card : kMaxDVCapacity < oversizeSet.card := by
  have hlimit : kMaxDVCapacity < 16777216 := by decide
  rw [oversizeSet, Finset.card_image_of_injOn, Finset.card_range]
  · exact Nat.lt_succ_self _
  · intro m hm n hn h
    rw [Finset.coe_range, Set.mem_Iio] at hm hn
    exact numberedDigest_inj (by omega) (by omega) h

private theorem diff_patch_ne (s : Finset Digest) (hs : kMaxDVCapacity < s.card) :
    ManifestStrict (manifestOf s.sort) ∧ ManifestWhole (manifestOf s.sort) ∧
      (do
        let (a_minus_b, b_minus_a) ← SOSManifestDiff none (manifestOf s.sort)
        SOSManifestCreateWithPatch none a_minus_b b_minus_a) ≠
          some (SOSManifestCreateWithData (SOSManifestGetData (manifestOf s.sort))) := by
  have hstrict := manifestOf_strict s
  have hwhole : ManifestWhole (manifestOf s.sort) := by
    rw [ManifestWhole, manifestOf, SOSManifestGetSize, bytesOfDigests_length]
    exact Nat.mul_mod_right _ _
  refine ⟨hstrict, hwhole, fun h => ?_⟩
  have hfits := ((diff_patch_eq_iff none _ List.Pairwise.nil hstrict hwhole).mp h).1
  rw [manifestSet_manifestOf_sort] at hfits
  omega

/-- A manifest that is too large is not rebuilt from nothing. -/
theorem delta_truncates_oversize :
    ManifestStrict (manifestOf oversizeSet.sort) ∧ ManifestWhole (manifestOf oversizeSet.sort) ∧
      (do
        let (a_minus_b, b_minus_a) ← SOSManifestDiff none (manifestOf oversizeSet.sort)
        SOSManifestCreateWithPatch none a_minus_b b_minus_a) ≠
          some (SOSManifestCreateWithData (SOSManifestGetData (manifestOf oversizeSet.sort))) :=
  diff_patch_ne oversizeSet oversizeSet_card
end SecurityFramework
