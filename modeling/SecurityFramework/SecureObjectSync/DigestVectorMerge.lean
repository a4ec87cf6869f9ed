import SecurityFramework.Library.SortedSet
import SecurityFramework.SecureObjectSync.DigestVector

/-! # Merge loops as set operations -/

namespace SecurityFramework
open SortedSet

/-- Ascending order, duplicates allowed. -/
abbrev SortedDigests (ds : List Digest) : Prop := ds.Pairwise (· ≤ ·)

def SOSDigestVector.appendAll (dv : SOSDigestVector) (ds : List Digest) : SOSDigestVector :=
  ds.foldl SOSDigestVectorAppendOrdered dv

namespace SOSDigestVector
@[simp] theorem appendAll_nil (dv : SOSDigestVector) : dv.appendAll [] = dv := rfl

@[simp] theorem appendAll_cons (dv : SOSDigestVector) (d : Digest) (ds : List Digest) :
    dv.appendAll (d :: ds) = (SOSDigestVectorAppendOrdered dv d).appendAll ds := rfl
end SOSDigestVector

variable (dv : SOSDigestVector) (ds : List Digest)

private theorem appendOrdered_fits (d : Digest) (hcap : dv.capacity ≤ kMaxDVCapacity) :
    (SOSDigestVectorAppendOrdered dv d).digest = (dv.digest ++ [d]).take kMaxDVCapacity ∧
      (SOSDigestVectorAppendOrdered dv d).capacity ≤ kMaxDVCapacity := by
  have hcount := dv.count_le_capacity
  unfold SOSDigestVectorAppendOrdered SOSDigestVectorEnsureCapacity SOSDigestVector.count
  split_ifs with hfits hbig
  · refine ⟨(List.take_of_length_le ?_).symm, hcap⟩
    simp only [List.length_append, List.length_singleton]
    omega
  · refine ⟨?_, hcap⟩
    have hfull : dv.digest.length = kMaxDVCapacity := by omega
    change dv.digest = _
    rw [List.take_left' hfull]
  · refine ⟨(List.take_of_length_le ?_).symm, Nat.min_le_right _ _⟩
    simp only [List.length_append, List.length_singleton]
    omega

@[simp] theorem appendOrdered_unsorted (d : Digest) :
    (SOSDigestVectorAppendOrdered dv d).unsorted = dv.unsorted := by
  unfold SOSDigestVectorAppendOrdered SOSDigestVectorEnsureCapacity
  split_ifs <;> rfl

@[simp] theorem appendAll_unsorted :
    (dv.appendAll ds).unsorted = dv.unsorted := by
  induction ds generalizing dv with
  | nil => rfl
  | cons d ds ih => simp [ih]

private theorem appendOrdered_setUnsorted (d : Digest) :
    SOSDigestVectorAppendOrdered { dv with unsorted := true } d =
      { SOSDigestVectorAppendOrdered dv d with unsorted := true } := by
  unfold SOSDigestVectorAppendOrdered SOSDigestVectorEnsureCapacity SOSDigestVector.count
  split_ifs <;> rfl

private theorem appendAll_setUnsorted :
    { SOSDigestVector.appendAll { dv with unsorted := true } ds with unsorted := true } =
      { dv.appendAll ds with unsorted := true } := by
  induction ds generalizing dv with
  | nil => rfl
  | cons d ds ih =>
    rw [SOSDigestVector.appendAll_cons, SOSDigestVector.appendAll_cons,
      appendOrdered_setUnsorted]
    exact ih _

private theorem take_take_append (ds' : List Digest) :
    (ds.take kMaxDVCapacity ++ ds').take kMaxDVCapacity = (ds ++ ds').take kMaxDVCapacity := by
  rw [List.take_append, List.take_append, List.take_take, List.length_take, Nat.min_self]
  congr 2
  omega

theorem appendAll_digest (hcap : dv.capacity ≤ kMaxDVCapacity) :
    (dv.appendAll ds).digest = (dv.digest ++ ds).take kMaxDVCapacity := by
  induction ds generalizing dv with
  | nil =>
    have hcount := dv.count_le_capacity
    rw [List.append_nil, List.take_of_length_le (hcount.trans hcap)]
    rfl
  | cons d ds ih =>
    obtain ⟨hdigest, hcap'⟩ := appendOrdered_fits dv d hcap
    rw [SOSDigestVector.appendAll_cons, ih _ hcap', hdigest, List.append_cons dv.digest d ds]
    exact take_take_append _ ds

@[simp] theorem appendAll_init_digest :
    (SOSDigestVectorInit.appendAll ds).digest = ds.take kMaxDVCapacity := by
  rw [appendAll_digest _ _ (Nat.zero_le _)]
  rfl

theorem foldl_append_eq (hds : ds ≠ []) :
    ds.foldl SOSDigestVectorAppend dv = { dv.appendAll ds with unsorted := true } := by
  induction ds generalizing dv with
  | nil => exact absurd rfl hds
  | cons d ds ih =>
    cases ds with
    | nil => rfl
    | cons e ds =>
      rw [List.foldl_cons, ih _ (List.cons_ne_nil e ds), SOSDigestVector.appendAll_cons]
      exact appendAll_setUnsorted _ (e :: ds)

theorem skipDupes_spec (d : Digest) (ds : List Digest) (hs : SortedDigests (d :: ds)) :
    ∃ next, SOSIncrementAndSkipDupes d ds = some next ∧ NextRun d ds next.1 := by
  induction ds with
  | nil => exact ⟨⟨[], le_rfl⟩, rfl, NextRun.nil d⟩
  | cons e ds ih =>
    obtain ⟨hd, htail⟩ := List.pairwise_cons.mp hs
    have hde : d ≤ e := hd e (by simp)
    have hnpos : ¬ 0 < SOSDigestCompare d e := by simpa using hde
    by_cases heq : d = e
    · subst heq
      obtain ⟨next, hnext, hrun⟩ := ih htail
      refine ⟨⟨next.1, next.2.trans (by simp)⟩, ?_, hrun.cons_self⟩
      simp [SOSIncrementAndSkipDupes, hnext]
    · have hlt : d < e := lt_of_le_of_ne hde heq
      refine ⟨⟨e :: ds, le_rfl⟩, ?_, NextRun.of_lt htail hlt⟩
      simp [SOSIncrementAndSkipDupes, heq, hde]

theorem appendMultipleOrdered_spec (hs : SortedDigests ds) :
    SOSDigestVectorAppendMultipleOrdered dv ds = some (dv.appendAll ds.toFinset.sort) := by
  induction dv, ds using SOSDigestVectorAppendMultipleOrdered.induct with
  | case1 dv => simp [SOSDigestVectorAppendMultipleOrdered]
  | case2 dv d ds ih =>
    obtain ⟨next, hnext, hrun⟩ := skipDupes_spec d ds hs
    rw [SOSDigestVectorAppendMultipleOrdered, hnext, hrun.sort_toFinset]
    exact ih next hrun.sorted

private theorem above_sorted {d e : Digest} {ds : List Digest} (hde : d < e)
    (hs : SortedDigests (e :: ds)) : ∀ z ∈ e :: ds, d < z :=
  (NextRun.of_lt hs hde).lt

theorem intersectLoop_spec (ds1 ds2 : List Digest) (dv : SOSDigestVector)
    (h1 : SortedDigests ds1) (h2 : SortedDigests ds2) :
    intersectLoop ds1 ds2 dv = some (dv.appendAll (ds1.toFinset ∩ ds2.toFinset).sort) := by
  induction ds1, ds2, dv using intersectLoop.induct with
  | case1 d1 ds1 d2 ds2 dv heq ih =>
    obtain rfl : d1 = d2 := by simpa using heq
    obtain ⟨next1, hnext1, hrun1⟩ := skipDupes_spec d1 ds1 h1
    obtain ⟨next2, hnext2, hrun2⟩ := skipDupes_spec d1 ds2 h2
    rw [intersectLoop, if_pos heq, hnext1, hnext2, hrun1.sort_inter_both hrun2]
    exact ih next1 next2 hrun1.sorted hrun2.sorted
  | case2 d1 ds1 d2 ds2 dv hne hneg ih =>
    have hlt : d1 < d2 := by simpa using hneg
    obtain ⟨next1, hnext1, hrun1⟩ := skipDupes_spec d1 ds1 h1
    rw [intersectLoop, if_neg hne, if_pos hneg, hnext1, hrun1.inter_left (above_sorted hlt h2)]
    exact ih next1 hrun1.sorted h2
  | case3 d1 ds1 d2 ds2 dv hne hneg ih =>
    have hlt : d2 < d1 := lt_of_le_of_ne (by simpa using hneg) fun h => hne (by simp [h])
    obtain ⟨next2, hnext2, hrun2⟩ := skipDupes_spec d2 ds2 h2
    rw [intersectLoop, if_neg hne, if_neg hneg, hnext2, Finset.inter_comm,
      hrun2.inter_left (above_sorted hlt h1), Finset.inter_comm]
    exact ih next2 h1 hrun2.sorted
  | case4 ds1 ds2 dv hend =>
    cases ds1 with
    | nil => simp [intersectLoop]
    | cons d1 ds1 =>
      cases ds2 with
      | nil => simp [intersectLoop]
      | cons d2 ds2 => exact absurd rfl (hend d1 ds1 d2 ds2 rfl)

theorem unionLoop_spec (ds1 ds2 : List Digest) (dv : SOSDigestVector)
    (h1 : SortedDigests ds1) (h2 : SortedDigests ds2) :
    unionLoop ds1 ds2 dv = some (dv.appendAll (ds1.toFinset ∪ ds2.toFinset).sort) := by
  induction ds1, ds2, dv using unionLoop.induct with
  | case1 d1 ds1 d2 ds2 dv heq ih =>
    obtain rfl : d1 = d2 := by simpa using heq
    obtain ⟨next1, hnext1, hrun1⟩ := skipDupes_spec d1 ds1 h1
    obtain ⟨next2, hnext2, hrun2⟩ := skipDupes_spec d1 ds2 h2
    rw [unionLoop, if_pos heq, hnext1, hnext2, hrun1.sort_union_both hrun2]
    exact ih next1 next2 hrun1.sorted hrun2.sorted
  | case2 d1 ds1 d2 ds2 dv hne hneg ih =>
    have hlt : d1 < d2 := by simpa using hneg
    obtain ⟨next1, hnext1, hrun1⟩ := skipDupes_spec d1 ds1 h1
    rw [unionLoop, if_neg hne, if_pos hneg, hnext1,
      hrun1.sort_union_left (above_sorted hlt h2)]
    exact ih next1 hrun1.sorted h2
  | case3 d1 ds1 d2 ds2 dv hne hneg ih =>
    have hlt : d2 < d1 := lt_of_le_of_ne (by simpa using hneg) fun h => hne (by simp [h])
    obtain ⟨next2, hnext2, hrun2⟩ := skipDupes_spec d2 ds2 h2
    rw [unionLoop, if_neg hne, if_neg hneg, hnext2, Finset.union_comm,
      hrun2.sort_union_left (above_sorted hlt h1), Finset.union_comm]
    exact ih next2 h1 hrun2.sorted
  | case4 ds1 ds2 dv hend =>
    cases ds1 with
    | nil =>
      rw [unionLoop, SOSDigestVectorAppendMultipleOrdered, List.toFinset_nil,
        Finset.empty_union]
      · exact appendMultipleOrdered_spec dv ds2 h2
      · simp
    | cons d1 ds1 =>
      cases ds2 with
      | nil =>
        rw [unionLoop, appendMultipleOrdered_spec dv _ h1, List.toFinset_nil,
          Finset.union_empty]
        · simp [SOSDigestVectorAppendMultipleOrdered]
        · simp
      | cons d2 ds2 => exact absurd rfl (hend d1 ds1 d2 ds2 rfl)

theorem diffLoop_spec (ds1 ds2 : List Digest) (dv1_2 dv2_1 : SOSDigestVector)
    (h1 : SortedDigests ds1) (h2 : SortedDigests ds2) :
    diffLoop ds1 ds2 dv1_2 dv2_1 =
      some (dv1_2.appendAll (ds1.toFinset \ ds2.toFinset).sort,
        dv2_1.appendAll (ds2.toFinset \ ds1.toFinset).sort) := by
  induction ds1, ds2, dv1_2, dv2_1 using diffLoop.induct with
  | case1 d1 ds1 d2 ds2 dv1_2 dv2_1 heq ih =>
    obtain rfl : d1 = d2 := by simpa using heq
    obtain ⟨next1, hnext1, hrun1⟩ := skipDupes_spec d1 ds1 h1
    obtain ⟨next2, hnext2, hrun2⟩ := skipDupes_spec d1 ds2 h2
    rw [diffLoop, if_pos heq, hnext1, hnext2, hrun1.sdiff_both hrun2, hrun2.sdiff_both hrun1]
    exact ih next1 next2 hrun1.sorted hrun2.sorted
  | case2 d1 ds1 d2 ds2 dv1_2 dv2_1 hne hneg ih =>
    have hlt : d1 < d2 := by simpa using hneg
    obtain ⟨next1, hnext1, hrun1⟩ := skipDupes_spec d1 ds1 h1
    have habove := above_sorted hlt h2
    rw [diffLoop, if_neg hne, if_pos hneg, hnext1, hrun1.sort_sdiff_left habove,
      hrun1.sdiff_right habove]
    exact ih next1 hrun1.sorted h2
  | case3 d1 ds1 d2 ds2 dv1_2 dv2_1 hne hneg ih =>
    have hlt : d2 < d1 := lt_of_le_of_ne (by simpa using hneg) fun h => hne (by simp [h])
    obtain ⟨next2, hnext2, hrun2⟩ := skipDupes_spec d2 ds2 h2
    have habove := above_sorted hlt h1
    rw [diffLoop, if_neg hne, if_neg hneg, hnext2, hrun2.sort_sdiff_left habove,
      hrun2.sdiff_right habove]
    exact ih next2 h1 hrun2.sorted
  | case4 ds1 ds2 dv1_2 dv2_1 hend =>
    cases ds1 with
    | nil =>
      rw [diffLoop, appendMultipleOrdered_spec dv2_1 ds2 h2]
      · simp [SOSDigestVectorAppendMultipleOrdered]
      · simp
    | cons d1 ds1 =>
      cases ds2 with
      | nil =>
        rw [diffLoop, appendMultipleOrdered_spec dv1_2 _ h1]
        · simp [SOSDigestVectorAppendMultipleOrdered]
        · simp
      | cons d2 ds2 => exact absurd rfl (hend d1 ds1 d2 ds2 rfl)

theorem appendComplementAtIndex_spec (dsA dsB : List Digest) (dv : SOSDigestVector)
    (hA : SortedDigests dsA) (hB : SortedDigests dsB) :
    SOSDigestVectorAppendComplementAtIndex dsA dsB dv =
      some (dv.appendAll (dsB.toFinset \ dsA.toFinset).sort) := by
  induction dsA, dsB, dv using SOSDigestVectorAppendComplementAtIndex.induct with
  | case1 da dsA db dsB dv heq ih =>
    obtain rfl : da = db := by simpa using heq
    obtain ⟨nextA, hnextA, hrunA⟩ := skipDupes_spec da dsA hA
    obtain ⟨nextB, hnextB, hrunB⟩ := skipDupes_spec da dsB hB
    rw [SOSDigestVectorAppendComplementAtIndex, if_pos heq, hnextA, hnextB,
      hrunB.sdiff_both hrunA]
    exact ih nextA nextB hrunA.sorted hrunB.sorted
  | case2 da dsA db dsB dv hne hneg ih =>
    have hlt : da < db := by simpa using hneg
    obtain ⟨nextA, hnextA, hrunA⟩ := skipDupes_spec da dsA hA
    rw [SOSDigestVectorAppendComplementAtIndex, if_neg hne, if_pos hneg, hnextA,
      hrunA.sdiff_right (above_sorted hlt hB)]
    exact ih nextA hrunA.sorted hB
  | case3 da dsA db dsB dv hne hneg ih =>
    have hlt : db < da := lt_of_le_of_ne (by simpa using hneg) fun h => hne (by simp [h])
    obtain ⟨nextB, hnextB, hrunB⟩ := skipDupes_spec db dsB hB
    rw [SOSDigestVectorAppendComplementAtIndex, if_neg hne, if_neg hneg, hnextB,
      hrunB.sort_sdiff_left (above_sorted hlt hA)]
    exact ih nextB hA hrunB.sorted
  | case4 dsA dsB dv hend =>
    cases dsB with
    | nil => simp [SOSDigestVectorAppendComplementAtIndex, SOSDigestVectorAppendMultipleOrdered]
    | cons db dsB =>
      cases dsA with
      | nil =>
        rw [SOSDigestVectorAppendComplementAtIndex, appendMultipleOrdered_spec dv _ hB]
        · simp
        · simp
      | cons da dsA => exact absurd rfl (hend da dsA db dsB rfl)

section Vectors

variable {dv1 dv2 : SOSDigestVector}

private theorem init_count : SOSDigestVectorInit.count = 0 := rfl

theorem intersectSorted_spec (h1 : SortedDigests dv1.digest) (h2 : SortedDigests dv2.digest) :
    SOSDigestVectorIntersectSorted dv1 dv2 SOSDigestVectorInit =
      some (SOSDigestVectorInit.appendAll (dv1.digest.toFinset ∩ dv2.digest.toFinset).sort) := by
  simp [SOSDigestVectorIntersectSorted, init_count, intersectLoop_spec _ _ _ h1 h2]

theorem unionSorted_spec (h1 : SortedDigests dv1.digest) (h2 : SortedDigests dv2.digest) :
    SOSDigestVectorUnionSorted dv1 dv2 SOSDigestVectorInit =
      some (SOSDigestVectorInit.appendAll (dv1.digest.toFinset ∪ dv2.digest.toFinset).sort) := by
  simp [SOSDigestVectorUnionSorted, init_count, unionLoop_spec _ _ _ h1 h2]

theorem diffSorted_spec (h1 : SortedDigests dv1.digest) (h2 : SortedDigests dv2.digest) :
    SOSDigestVectorDiffSorted dv1 dv2 SOSDigestVectorInit SOSDigestVectorInit =
      some (SOSDigestVectorInit.appendAll (dv1.digest.toFinset \ dv2.digest.toFinset).sort,
        SOSDigestVectorInit.appendAll (dv2.digest.toFinset \ dv1.digest.toFinset).sort) := by
  simp [SOSDigestVectorDiffSorted, init_count, diffLoop_spec _ _ _ _ h1 h2]

theorem complementSorted_spec (hA : dv1.unsorted = false) (hB : dv2.unsorted = false)
    (h1 : SortedDigests dv1.digest) (h2 : SortedDigests dv2.digest) :
    SOSDigestVectorComplementSorted dv1 dv2 SOSDigestVectorInit =
      some (SOSDigestVectorInit.appendAll (dv2.digest.toFinset \ dv1.digest.toFinset).sort) := by
  simp [SOSDigestVectorComplementSorted, init_count, hA, hB,
    appendComplementAtIndex_spec _ _ _ h1 h2]
end Vectors
end SecurityFramework
