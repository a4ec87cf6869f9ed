import SecurityFramework.SecureObjectSync.DigestVectorPatch

/-!
# Manifests

A manifest is the octet string of its digests.
-/

namespace SecurityFramework
open SortedSet

structure SOSManifest where
  digestVector : List UInt8
  deriving DecidableEq

abbrev SOSManifestRef := Option SOSManifest

def SOSManifestCreateWithData (data : Option (List UInt8)) : SOSManifestRef :=
  match data with
  | some data => some ⟨data⟩
  | none => some ⟨[]⟩

def SOSManifestCreateWithBytes (bytes : List UInt8) : SOSManifestRef :=
  SOSManifestCreateWithData (some bytes)

def SOSManifestGetData : SOSManifestRef → Option (List UInt8)
  | some m => some m.digestVector
  | none => none

def SOSManifestGetSize : SOSManifestRef → Nat
  | some m => m.digestVector.length
  | none => 0

def SOSManifestGetCount (m : SOSManifestRef) : Nat := SOSManifestGetSize m / SOSDigestSize

def digestsOfBytes (bytes : List UInt8) : List Digest :=
  if h : SOSDigestSize ≤ bytes.length then
    ⟨bytes.take SOSDigestSize, List.length_take_of_le h⟩ ::
      digestsOfBytes (bytes.drop SOSDigestSize)
  else []
  termination_by bytes.length
  decreasing_by
    have hpos : 0 < SOSDigestSize := by decide
    rw [List.length_drop]
    omega

def bytesOfDigests (ds : List Digest) : List UInt8 := ds.flatMap Digest.bytes

private theorem digestsOfBytes_digest (d : Digest) (bytes : List UInt8) :
    digestsOfBytes (d.bytes ++ bytes) = d :: digestsOfBytes bytes := by
  have hsize := d.size_eq
  rw [digestsOfBytes, dif_pos (by rw [List.length_append]; omega)]
  have htake : (d.bytes ++ bytes).take SOSDigestSize = d.bytes := List.take_left' hsize
  have hdrop : (d.bytes ++ bytes).drop SOSDigestSize = bytes := List.drop_left' hsize
  simp only [htake, hdrop]

@[simp] theorem digestsOfBytes_bytesOfDigests (ds : List Digest) :
    digestsOfBytes (bytesOfDigests ds) = ds := by
  induction ds with
  | nil =>
    rw [bytesOfDigests, List.flatMap_nil, digestsOfBytes, dif_neg (by decide)]
  | cons d ds ih =>
    rw [bytesOfDigests, List.flatMap_cons, digestsOfBytes_digest]
    exact congrArg _ ih

@[simp] theorem bytesOfDigests_length (ds : List Digest) :
    (bytesOfDigests ds).length = SOSDigestSize * ds.length := by
  induction ds with
  | nil => rfl
  | cons d ds ih =>
    rw [bytesOfDigests, List.flatMap_cons, List.length_append, d.size_eq, List.length_cons,
      Nat.mul_succ, Nat.add_comm]
    exact congrArg (· + SOSDigestSize) ih

theorem digestsOfBytes_length (bytes : List UInt8) :
    (digestsOfBytes bytes).length = bytes.length / SOSDigestSize := by
  induction bytes using digestsOfBytes.induct with
  | case1 bytes hfits ih =>
    have hpos : 0 < SOSDigestSize := by decide
    rw [digestsOfBytes, dif_pos hfits, List.length_cons, ih, List.length_drop,
      ← Nat.div_eq_sub_div hpos hfits]
  | case2 bytes hshort =>
    rw [digestsOfBytes, dif_neg hshort, Nat.div_eq_of_lt (not_le.mp hshort)]
    rfl

theorem bytesOfDigests_digestsOfBytes (bytes : List UInt8)
    (hmod : bytes.length % SOSDigestSize = 0) : bytesOfDigests (digestsOfBytes bytes) = bytes := by
  induction bytes using digestsOfBytes.induct with
  | case1 bytes hfits ih =>
    have htail := ih (by rw [List.length_drop, ← Nat.mod_eq_sub_mod hfits, hmod])
    rw [digestsOfBytes, dif_pos hfits, bytesOfDigests, List.flatMap_cons]
    change bytes.take SOSDigestSize ++ bytesOfDigests _ = bytes
    rw [htail, List.take_append_drop]
  | case2 bytes hshort =>
    have hnil : bytes = [] := by
      rw [Nat.mod_eq_of_lt (not_le.mp hshort)] at hmod
      exact List.length_eq_zero_iff.mp hmod
    subst hnil
    rw [digestsOfBytes, dif_neg hshort]
    rfl

def SOSManifestGetDigestVector : SOSManifestRef → SOSDigestVector
  | none => SOSDigestVectorInit
  | some m =>
    { digest := digestsOfBytes m.digestVector
      capacity := SOSManifestGetCount (some m)
      unsorted := false
      count_le_capacity := (digestsOfBytes_length m.digestVector).le }

def SOSManifestCreateWithDigestVector (dv : SOSDigestVector) : Asserting SOSManifestRef := do
  let dv ← if dv.unsorted then SOSDigestVectorSort dv else some dv
  some (SOSManifestCreateWithBytes (bytesOfDigests dv.digest))

def SOSManifestDiff (a b : SOSManifestRef) : Asserting (SOSManifestRef × SOSManifestRef) :=
  if SOSManifestGetCount a = 0 then
    let empty := SOSManifestCreateWithBytes []
    some (empty, if b.isSome then b else empty)
  else if SOSManifestGetCount b = 0 then
    let empty := SOSManifestCreateWithBytes []
    some (if a.isSome then a else empty, empty)
  else do
    let (dvab, dvba) ← SOSDigestVectorDiffSorted (SOSManifestGetDigestVector a)
      (SOSManifestGetDigestVector b) SOSDigestVectorInit SOSDigestVectorInit
    let a_minus_b ← SOSManifestCreateWithDigestVector dvab
    let b_minus_a ← SOSManifestCreateWithDigestVector dvba
    some (a_minus_b, b_minus_a)

def SOSManifestCreateWithPatch (base removals additions : SOSManifestRef) :
    Asserting SOSManifestRef := do
  let dvresult ← SOSDigestVectorPatchSorted (SOSManifestGetDigestVector base)
    (SOSManifestGetDigestVector removals) (SOSManifestGetDigestVector additions)
    SOSDigestVectorInit
  SOSManifestCreateWithDigestVector dvresult

def SOSManifestCreateComplement (m1 m2 : SOSManifestRef) : Asserting SOSManifestRef :=
  if SOSManifestGetCount m1 = 0 then
    some (if m2.isSome then m2 else SOSManifestCreateWithBytes [])
  else do
    let dvresult ← SOSDigestVectorComplementSorted (SOSManifestGetDigestVector m1)
      (SOSManifestGetDigestVector m2) SOSDigestVectorInit
    SOSManifestCreateWithDigestVector dvresult

def SOSManifestCreateIntersection (m1 m2 : SOSManifestRef) : Asserting SOSManifestRef := do
  let dvresult ← SOSDigestVectorIntersectSorted (SOSManifestGetDigestVector m1)
    (SOSManifestGetDigestVector m2) SOSDigestVectorInit
  SOSManifestCreateWithDigestVector dvresult

def SOSManifestCreateUnion (m1 m2 : SOSManifestRef) : Asserting SOSManifestRef :=
  if SOSManifestGetCount m1 = 0 then
    some (if m2.isSome then m2 else SOSManifestCreateWithBytes [])
  else if SOSManifestGetCount m2 = 0 then
    some (if m1.isSome then m1 else SOSManifestCreateWithBytes [])
  else do
    let dvresult ← SOSDigestVectorUnionSorted (SOSManifestGetDigestVector m1)
      (SOSManifestGetDigestVector m2) SOSDigestVectorInit
    SOSManifestCreateWithDigestVector dvresult
end SecurityFramework

namespace SecurityFramework
open SortedSet

def manifestDigests (m : SOSManifestRef) : List Digest := (SOSManifestGetDigestVector m).digest

def manifestSet (m : SOSManifestRef) : Finset Digest := (manifestDigests m).toFinset

def manifestOf (ds : List Digest) : SOSManifestRef := some ⟨bytesOfDigests ds⟩

/-- Digests in ascending order, duplicates allowed. -/
def ManifestSorted (m : SOSManifestRef) : Prop := SortedDigests (manifestDigests m)

def ManifestStrict (m : SOSManifestRef) : Prop := (manifestDigests m).Pairwise (· < ·)

def ManifestWhole (m : SOSManifestRef) : Prop := SOSManifestGetSize m % SOSDigestSize = 0

theorem ManifestStrict.sorted {m : SOSManifestRef} (h : ManifestStrict m) : ManifestSorted m :=
  h.imp le_of_lt

theorem ManifestStrict.sort_eq {m : SOSManifestRef} (h : ManifestStrict m) :
    (manifestSet m).sort = manifestDigests m := sort_toFinset h

@[simp] theorem manifestDigests_none : manifestDigests none = [] := rfl

@[simp] theorem manifestDigests_manifestOf (ds : List Digest) :
    manifestDigests (manifestOf ds) = ds := digestsOfBytes_bytesOfDigests ds

theorem manifestOf_injective : Function.Injective manifestOf := fun ds ds' h => by
  rw [← manifestDigests_manifestOf ds, h, manifestDigests_manifestOf]

variable (s : Finset Digest)

@[simp] theorem manifestSet_manifestOf_sort :
    manifestSet (manifestOf s.sort) = s := by
  rw [manifestSet, manifestDigests_manifestOf]
  exact Finset.sort_toFinset _ _

theorem manifestOf_strict : ManifestStrict (manifestOf s.sort) := by
  rw [ManifestStrict, manifestDigests_manifestOf]
  exact sort_pairwise_lt s

@[simp] theorem getDigestVector_unsorted (m : SOSManifestRef) :
    (SOSManifestGetDigestVector m).unsorted = false := by
  cases m <;> rfl

theorem getCount_eq (m : SOSManifestRef) :
    SOSManifestGetCount m = (manifestDigests m).length := by
  cases m with
  | none => rfl
  | some m => exact (digestsOfBytes_length m.digestVector).symm

theorem getCount_eq_zero_iff (m : SOSManifestRef) :
    SOSManifestGetCount m = 0 ↔ manifestSet m = ∅ := by
  rw [getCount_eq, List.length_eq_zero_iff, manifestSet, List.toFinset_eq_empty_iff]

private theorem createWithDigestVector_sorted (dv : SOSDigestVector) (h : dv.unsorted = false) :
    SOSManifestCreateWithDigestVector dv = some (manifestOf dv.digest) := by
  simp [SOSManifestCreateWithDigestVector, h, SOSManifestCreateWithBytes,
    SOSManifestCreateWithData, manifestOf]

theorem createWithDigestVector_appendAll (ds : List Digest) :
    SOSManifestCreateWithDigestVector (SOSDigestVectorInit.appendAll ds) =
      some (manifestOf (ds.take kMaxDVCapacity)) := by
  rw [createWithDigestVector_sorted _ (by simp [SOSDigestVectorInit]), appendAll_init_digest]

section Constructors

variable {m1 m2 base removals additions : SOSManifestRef}

theorem createWithPatch_spec (hb : ManifestSorted base) (hr : ManifestSorted removals)
    (ha : ManifestSorted additions) :
    SOSManifestCreateWithPatch base removals additions =
      some (manifestOf ((patchedSet (manifestSet base) (manifestSet additions)
        (manifestSet removals)).sort.take kMaxDVCapacity)) := by
  rw [SOSManifestCreateWithPatch, patchSorted_spec (getDigestVector_unsorted _)
    (getDigestVector_unsorted _) (getDigestVector_unsorted _) hb hr ha]
  exact createWithDigestVector_appendAll _

theorem manifestDiff_spec (h1 : ManifestSorted m1) (h2 : ManifestSorted m2)
    (hne1 : manifestSet m1 ≠ ∅) (hne2 : manifestSet m2 ≠ ∅) :
    SOSManifestDiff m1 m2 =
      some (manifestOf ((manifestSet m1 \ manifestSet m2).sort.take kMaxDVCapacity),
        manifestOf ((manifestSet m2 \ manifestSet m1).sort.take kMaxDVCapacity)) := by
  rw [SOSManifestDiff, if_neg (by rwa [getCount_eq_zero_iff]),
    if_neg (by rwa [getCount_eq_zero_iff]), diffSorted_spec h1 h2]
  simp only [Option.bind_eq_bind, Option.bind_some, createWithDigestVector_appendAll]
  rfl

theorem createComplement_spec (h1 : ManifestSorted m1) (h2 : ManifestSorted m2)
    (hne1 : manifestSet m1 ≠ ∅) :
    SOSManifestCreateComplement m1 m2 =
      some (manifestOf ((manifestSet m2 \ manifestSet m1).sort.take kMaxDVCapacity)) := by
  rw [SOSManifestCreateComplement, if_neg (by rwa [getCount_eq_zero_iff]),
    complementSorted_spec (getDigestVector_unsorted _) (getDigestVector_unsorted _) h1 h2]
  exact createWithDigestVector_appendAll _

theorem createIntersection_spec (h1 : ManifestSorted m1) (h2 : ManifestSorted m2) :
    SOSManifestCreateIntersection m1 m2 =
      some (manifestOf ((manifestSet m1 ∩ manifestSet m2).sort.take kMaxDVCapacity)) := by
  rw [SOSManifestCreateIntersection, intersectSorted_spec h1 h2]
  exact createWithDigestVector_appendAll _

theorem createUnion_spec (h1 : ManifestSorted m1) (h2 : ManifestSorted m2)
    (hne1 : manifestSet m1 ≠ ∅) (hne2 : manifestSet m2 ≠ ∅) :
    SOSManifestCreateUnion m1 m2 =
      some (manifestOf ((manifestSet m1 ∪ manifestSet m2).sort.take kMaxDVCapacity)) := by
  rw [SOSManifestCreateUnion, if_neg (by rwa [getCount_eq_zero_iff]),
    if_neg (by rwa [getCount_eq_zero_iff]), unionSorted_spec h1 h2]
  exact createWithDigestVector_appendAll _
end Constructors

def firstDigests (s : Finset Digest) : Finset Digest := (s.sort.take kMaxDVCapacity).toFinset

theorem sort_firstDigests :
    (firstDigests s).sort = s.sort.take kMaxDVCapacity :=
  sort_toFinset ((sort_pairwise_lt s).sublist (List.take_sublist _ _))

theorem firstDigests_subset : firstDigests s ⊆ s := fun _ hd =>
  (Finset.mem_sort _).mp (List.mem_of_mem_take (List.mem_toFinset.mp hd))

theorem firstDigests_card :
    (firstDigests s).card = min kMaxDVCapacity s.card := by
  rw [← Finset.length_sort (· ≤ ·), sort_firstDigests, List.length_take, Finset.length_sort]

@[simp] theorem firstDigests_eq {s : Finset Digest} (hcard : s.card ≤ kMaxDVCapacity) :
    firstDigests s = s := by
  apply sort_injective
  rw [sort_firstDigests, List.take_of_length_le (by rwa [Finset.length_sort])]

theorem firstDigests_lt {s : Finset Digest} {d e : Digest} (hd : d ∈ firstDigests s)
    (he : e ∈ s) (hne : e ∉ firstDigests s) : d < e := by
  have hsplit := sort_pairwise_lt s
  rw [← List.take_append_drop kMaxDVCapacity (s.sort (· ≤ ·)), List.pairwise_append] at hsplit
  have hmem : e ∈ s.sort.take kMaxDVCapacity ++ s.sort.drop kMaxDVCapacity := by
    rw [List.take_append_drop]
    exact (Finset.mem_sort _).mpr he
  rcases List.mem_append.mp hmem with h | h
  · exact absurd (List.mem_toFinset.mpr h) hne
  · exact hsplit.2.2 d (List.mem_toFinset.mp hd) e h

/-- What is listed of a difference: nothing is cut off where nothing is taken away. -/
def listedDiff (s t : Finset Digest) : Finset Digest :=
  if t = ∅ then s else firstDigests (s \ t)

theorem listedDiff_subset (t : Finset Digest) : listedDiff s t ⊆ s \ t := by
  rw [listedDiff]
  split_ifs with ht
  · rw [ht, Finset.sdiff_empty]
  · exact firstDigests_subset _

theorem listedDiff_eq {s t : Finset Digest} (hcard : (s \ t).card ≤ kMaxDVCapacity) :
    listedDiff s t = s \ t := by
  rw [listedDiff]
  split_ifs with ht
  · rw [ht, Finset.sdiff_empty]
  · exact firstDigests_eq hcard

theorem manifestDiff_total {m1 m2 : SOSManifestRef} (h1 : ManifestSorted m1)
    (h2 : ManifestSorted m2) : ∃ pair, SOSManifestDiff m1 m2 = some pair := by
  by_cases hempty1 : manifestSet m1 = ∅
  · exact ⟨_, by rw [SOSManifestDiff, if_pos ((getCount_eq_zero_iff m1).mpr hempty1)]⟩
  · by_cases hempty2 : manifestSet m2 = ∅
    · rw [SOSManifestDiff, if_neg (by rwa [getCount_eq_zero_iff]),
        if_pos ((getCount_eq_zero_iff m2).mpr hempty2)]
      exact ⟨_, rfl⟩
    · exact ⟨_, manifestDiff_spec h1 h2 hempty1 hempty2⟩

/-- The manifest lists exactly the given set, in order. -/
structure ManifestOfSet (m : SOSManifestRef) (s : Finset Digest) : Prop where
  strict : ManifestStrict m
  set_eq : manifestSet m = s

namespace ManifestOfSet
variable {m m1 m2 base removals additions : SOSManifestRef}
  {s s1 s2 sBase sRemovals sAdditions : Finset Digest}

theorem of_strict (h : ManifestStrict m) : ManifestOfSet m (manifestSet m) := ⟨h, rfl⟩

theorem sort (s : Finset Digest) : ManifestOfSet (manifestOf s.sort) s :=
  ⟨manifestOf_strict s, manifestSet_manifestOf_sort s⟩

private theorem first (s : Finset Digest) :
    ManifestOfSet (manifestOf (s.sort.take kMaxDVCapacity)) (firstDigests s) := by
  rw [← sort_firstDigests]
  exact sort _

theorem none_empty : ManifestOfSet none ∅ := ⟨List.Pairwise.nil, rfl⟩

theorem empty : ManifestOfSet (SOSManifestCreateWithBytes []) ∅ := by
  have h := sort ∅
  rwa [Finset.sort_empty] at h

theorem orEmpty (h : ManifestOfSet m s) :
    ManifestOfSet (if m.isSome then m else SOSManifestCreateWithBytes []) s := by
  cases m with
  | none =>
    have hs : s = ∅ := h.set_eq.symm
    rw [hs]
    exact empty
  | some m => exact h

theorem count_eq_zero_iff (h : ManifestOfSet m s) : SOSManifestGetCount m = 0 ↔ s = ∅ := by
  rw [getCount_eq_zero_iff, h.set_eq]

theorem patch_eq (hb : ManifestOfSet base sBase) (hr : ManifestOfSet removals sRemovals)
    (ha : ManifestOfSet additions sAdditions) :
    SOSManifestCreateWithPatch base removals additions =
      some (manifestOf (firstDigests (patchedSet sBase sAdditions sRemovals)).sort) := by
  rw [createWithPatch_spec hb.strict.sorted hr.strict.sorted ha.strict.sorted, hb.set_eq,
    hr.set_eq, ha.set_eq, sort_firstDigests]

theorem patch (hb : ManifestOfSet base sBase) (hr : ManifestOfSet removals sRemovals)
    (ha : ManifestOfSet additions sAdditions) :
    ∃ m, SOSManifestCreateWithPatch base removals additions = some m ∧
      ManifestOfSet m (firstDigests (patchedSet sBase sAdditions sRemovals)) :=
  ⟨_, patch_eq hb hr ha, sort _⟩

theorem complement (h1 : ManifestOfSet m1 s1) (h2 : ManifestOfSet m2 s2) :
    ∃ m, SOSManifestCreateComplement m1 m2 = some m ∧
      ManifestOfSet m (listedDiff s2 s1) := by
  by_cases hempty : s1 = ∅
  · rw [SOSManifestCreateComplement, if_pos (h1.count_eq_zero_iff.mpr hempty), listedDiff,
      if_pos hempty]
    exact ⟨_, rfl, h2.orEmpty⟩
  · have hspec := createComplement_spec h1.strict.sorted h2.strict.sorted
      (by rwa [h1.set_eq])
    rw [h1.set_eq, h2.set_eq] at hspec
    rw [listedDiff, if_neg hempty]
    exact ⟨_, hspec, first _⟩

theorem intersection (h1 : ManifestOfSet m1 s1) (h2 : ManifestOfSet m2 s2) :
    ∃ m, SOSManifestCreateIntersection m1 m2 = some m ∧
      ManifestOfSet m (firstDigests (s1 ∩ s2)) := by
  have hspec := createIntersection_spec h1.strict.sorted h2.strict.sorted
  rw [h1.set_eq, h2.set_eq] at hspec
  exact ⟨_, hspec, first _⟩

theorem diff (h1 : ManifestOfSet m1 s1) (h2 : ManifestOfSet m2 s2) :
    ∃ m1_2 m2_1, SOSManifestDiff m1 m2 = some (m1_2, m2_1) ∧
      ManifestOfSet m1_2 (listedDiff s1 s2) ∧ ManifestOfSet m2_1 (listedDiff s2 s1) := by
  by_cases hempty1 : s1 = ∅
  · rw [SOSManifestDiff, if_pos (h1.count_eq_zero_iff.mpr hempty1), listedDiff, listedDiff,
      if_pos hempty1, hempty1, Finset.empty_sdiff, firstDigests_eq (Nat.zero_le _), ite_self]
    exact ⟨_, _, rfl, empty, h2.orEmpty⟩
  · by_cases hempty2 : s2 = ∅
    · rw [SOSManifestDiff, if_neg (by rwa [h1.count_eq_zero_iff]),
        if_pos (h2.count_eq_zero_iff.mpr hempty2), listedDiff, listedDiff, if_pos hempty2, hempty2,
        Finset.empty_sdiff, firstDigests_eq (Nat.zero_le _), ite_self]
      exact ⟨_, _, rfl, h1.orEmpty, empty⟩
    · have hspec := manifestDiff_spec h1.strict.sorted h2.strict.sorted (by rwa [h1.set_eq])
        (by rwa [h2.set_eq])
      rw [h1.set_eq, h2.set_eq] at hspec
      rw [listedDiff, listedDiff, if_neg hempty1, if_neg hempty2]
      exact ⟨_, _, hspec, first _, first _⟩
end ManifestOfSet
end SecurityFramework
