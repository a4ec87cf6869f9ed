import SecurityFramework.Library.Tiling
import SecurityFramework.SecurityUtilities.SuperBlobCopies

/-! # Super-blobs whose sub-blobs tile them -/

namespace SecurityFramework
open Memory Tiling

namespace SuperBlobCore
def subBlob (blobs : List UInt8) (n : Nat) : Option SBRange := do
  let base ← offset blobs n
  if base = 0 then
    none
  let length ← BlobCore.length (BlobCore.at blobs base)
  return ⟨base, base + length⟩

def subBlobs (blobs : List UInt8) (count : Nat) : List SBRange :=
  (List.range' 0 count).filterMap (subBlob blobs)

/-- Each octet behind the index lies in exactly one sub-blob, and none reaches outside. -/
def SubBlobsTile (blobs : List UInt8) : Prop :=
  ∃ n length, count blobs = some n ∧ BlobCore.length blobs = some length ∧
    Tiles SBRange.base SBRange.end (size + n * indexSize) length (subBlobs blobs n)

variable {blobs : List UInt8}

variable {n : Nat} {magic : UInt32}

theorem subBlob_eq {base len : Nat} (hoffset : offset blobs n = some base) (hne : base ≠ 0)
    (hlen : BlobCore.length (BlobCore.at blobs base) = some len) :
    subBlob blobs n = some ⟨base, base + len⟩ := by
  simp [subBlob, hoffset, hne, hlen]

theorem validateEntry_spec {ixLimit len : Nat} (hlen : BlobCore.length blobs = some len)
    (h : validateEntry blobs ixLimit n = some true) :
    ∃ base, offset blobs n = some base ∧ (base ≠ 0 → base + BlobCore.size ≤ len ∧
      ∃ blobLen, BlobCore.length (BlobCore.at blobs base) = some blobLen) := by
  simp only [validateEntry, Option.bind_eq_bind, Option.bind_eq_some_iff] at h
  obtain ⟨base, hoffset, h⟩ := h
  refine ⟨base, hoffset, fun hne => ?_⟩
  simp only [if_neg hne, hlen, Option.bind_some] at h
  by_cases hlimit : base < ixLimit
  · simp [hlimit] at h
  · by_cases hheader : base + BlobCore.size > len
    · simp [hlimit, hheader] at h
    · simp only [if_neg hlimit, if_neg hheader, Option.bind_eq_some_iff] at h
      obtain ⟨blobLen, hblobLen, -⟩ := h
      exact ⟨Nat.not_lt.mp hheader, blobLen, hblobLen⟩

theorem ranges_eq_subBlobs {count ix : Nat}
    (hentries : ∀ n, ix ≤ n → n < ix + count → ∃ base len, offset blobs n = some base ∧ base ≠ 0 ∧
      BlobCore.length (BlobCore.at blobs base) = some len) :
    ranges blobs count ix = some ((List.range' ix count).filterMap (subBlob blobs)) := by
  induction count generalizing ix with
  | zero => rfl
  | succ count ih =>
    obtain ⟨base, len, hoffset, hne, hlen⟩ := hentries ix (Nat.le_refl _) (by omega)
    have hrest := @ih (ix + 1) fun n hle hlt => hentries n (by omega) (by omega)
    rw [List.range'_succ, List.filterMap_cons_some (subBlob_eq hoffset hne hlen)]
    simp [ranges, blob, hoffset, hne, hlen, hrest]

theorem ranges_null {count ix : Nat} (hle : ix ≤ n) (hlt : n < ix + count)
    (hnull : offset blobs n = some 0) : ranges blobs count ix = none := by
  induction count generalizing ix with
  | zero => omega
  | succ count ih =>
    by_cases hn : n = ix
    · rw [hn] at hnull
      simp [ranges, blob, hnull]
    · have hrest := @ih (ix + 1) (by omega) (by omega)
      simp [ranges, hrest]

theorem adjacent_iff (start finish : Nat) (list : List SBRange) :
    adjacent start finish list = true ↔
      Adjacent SBRange.base SBRange.end start finish list := by
  induction list generalizing start with
  | nil => simp [adjacent, Adjacent]
  | cons range rest ih => simp [adjacent, Adjacent, ih]

/-- Entries with the same offset name the same sub-blob, and a sub-blob has room for its header. -/
theorem placed_subBlobs {ixLimit len : Nat} (hlen : BlobCore.length blobs = some len)
    (hentries : ∀ k, k < n → validateEntry blobs ixLimit k = some true) :
    Placed SBRange.base SBRange.end len (subBlobs blobs n) := by
  have hrange : ∀ range ∈ subBlobs blobs n, ∃ blobLen, range.base + BlobCore.size ≤ len ∧
      BlobCore.length (BlobCore.at blobs range.base) = some blobLen ∧
        range.end = range.base + blobLen := by
    intro range hmem
    obtain ⟨k, hk, hsub⟩ := List.mem_filterMap.mp hmem
    have hlt : k < n := by
      have hmem' := List.mem_range'_1.mp hk
      omega
    obtain ⟨base, hoffset, hinside⟩ := validateEntry_spec hlen (hentries k hlt)
    by_cases hne : base = 0
    · simp [subBlob, hoffset, hne] at hsub
    · obtain ⟨hheader, blobLen, hblobLen⟩ := hinside hne
      rw [subBlob_eq hoffset hne hblobLen] at hsub
      cases hsub
      exact ⟨blobLen, hheader, hblobLen, rfl⟩
  refine ⟨?_, ?_, ?_⟩
  · intro range hmem
    obtain ⟨blobLen, -, -, hend⟩ := hrange range hmem
    omega
  · intro range hmem
    obtain ⟨blobLen, hheader, -⟩ := hrange range hmem
    simp only [BlobCore.size] at hheader
    omega
  · intro a ha b hb hsame
    obtain ⟨lenA, -, hlenA, hendA⟩ := hrange a ha
    obtain ⟨lenB, -, hlenB, hendB⟩ := hrange b hb
    rw [hsame, hlenB] at hlenA
    cases hlenA
    omega

theorem adjacent_sorted_iff {start len : Nat} {list : List SBRange}
    (hplaced : Placed SBRange.base SBRange.end len list) (hle : start ≤ len) :
    adjacent start len (list.insertionSort fun a b => a.base ≤ b.base) = true ↔
      Tiles SBRange.base SBRange.end start len list := by
  have hperm := List.perm_insertionSort (fun a b : SBRange => a.base ≤ b.base) list
  have htotal : Std.Total fun a b : SBRange => a.base ≤ b.base := ⟨fun a b => Nat.le_total _ _⟩
  have htrans : IsTrans SBRange fun a b => a.base ≤ b.base := ⟨fun a b c => Nat.le_trans⟩
  have hsorted := List.pairwise_insertionSort (fun a b : SBRange => a.base ≤ b.base) list
  rw [adjacent_iff, adjacent_iff_tiles (hplaced.perm hperm.symm) hsorted hle,
    tiles_perm_iff hperm]

/-- A super-blob that the first check accepts has its index inside of its length, and every entry
was looked at. -/
theorem validateBlob_spec {maxSize : Nat} (haccept : validateBlob magic blobs maxSize = some true) :
    ∃ n len, count blobs = some n ∧ BlobCore.length blobs = some len ∧
      size + n * indexSize ≤ len ∧
        ∀ k, k < n → validateEntry blobs (size + n * indexSize) k = some true := by
  obtain ⟨n, hcount, haccept⟩ := Option.bind_eq_some_iff.mp haccept
  obtain ⟨ok, hframe, hindex⟩ := Option.bind_eq_some_iff.mp haccept
  cases ok with
  | false => simp at hindex
  | true =>
    obtain ⟨len, hlen, -⟩ := Option.bind_eq_some_iff.mp hframe
    have hmin : size + n * indexSize ≠ 0 := by simp [size]
    have hle := BlobCore.le_extent_of_validateBlob hframe hmin
    rw [BlobCore.extent, hlen, Option.getD_some] at hle
    refine ⟨n, len, hcount, hlen, hle, fun k hk => ?_⟩
    exact validateEntry_of_validateIndex (by simpa using hindex) hk

theorem strictValidateBlob_eq_of_ranges {maxSize len : Nat}
    (haccept : validateBlob magic blobs maxSize = some true) (hcount : count blobs = some n)
    (hlen : BlobCore.length blobs = some len) (hn : n ≠ 0) :
    strictValidateBlob magic blobs maxSize =
      (ranges blobs n 0).map fun ranges =>
        adjacent (size + n * indexSize) len (ranges.insertionSort fun a b => a.base ≤ b.base) := by
  simp only [strictValidateBlob, haccept, hcount, hlen, if_neg hn, Option.bind_eq_bind,
    Option.bind_some, Option.map_eq_bind]
  rfl

theorem strictValidateBlob_null {maxSize k : Nat}
    (haccept : validateBlob magic blobs maxSize = some true) (hcount : count blobs = some n)
    (hk : k < n) (hnull : offset blobs k = some 0) :
    strictValidateBlob magic blobs maxSize = none := by
  obtain ⟨n', len, hcount', hlen, -, -⟩ := validateBlob_spec haccept
  have hn : n ≠ 0 := by omega
  rw [strictValidateBlob_eq_of_ranges haccept hcount hlen hn,
    ranges_null (Nat.zero_le k) (by omega) hnull]
  rfl

theorem strictValidateBlob_tiling {maxSize : Nat}
    (haccept : validateBlob magic blobs maxSize = some true) (hnull : NoNullEntry blobs) :
    ∃ answer, strictValidateBlob magic blobs maxSize = some answer ∧
      (answer = true ↔ SubBlobsTile blobs) := by
  obtain ⟨n, len, hcount, hlen, hle, hentries⟩ := validateBlob_spec haccept
  have hplaced := placed_subBlobs hlen hentries
  have htile : SubBlobsTile blobs ↔
      Tiles SBRange.base SBRange.end (size + n * indexSize) len (subBlobs blobs n) := by
    constructor
    · intro ⟨n', len', hcount', hlen', htiles⟩
      rw [hcount] at hcount'
      rw [hlen] at hlen'
      cases hcount'
      cases hlen'
      exact htiles
    · intro htiles
      exact ⟨n, len, hcount, hlen, htiles⟩
  have hranges : ranges blobs n 0 = some (subBlobs blobs n) := by
    apply ranges_eq_subBlobs
    intro k _ hk
    obtain ⟨base, hoffset, hinside⟩ := validateEntry_spec hlen (hentries k (by omega))
    have hne : base ≠ 0 := by
      intro hzero
      rw [hzero] at hoffset
      exact hnull n k hcount (by omega) hoffset
    obtain ⟨-, blobLen, hblobLen⟩ := hinside hne
    exact ⟨base, blobLen, hoffset, hne, hblobLen⟩
  rw [htile, ← adjacent_sorted_iff hplaced hle]
  by_cases hn : n = 0
  · subst hn
    refine ⟨decide (len = size), ?_, ?_⟩
    · simp [strictValidateBlob, haccept, hcount, hlen]
    · simp [subBlobs, adjacent, eq_comm]
  · rw [strictValidateBlob_eq_of_ranges haccept hcount hlen hn, hranges]
    exact ⟨_, rfl, Iff.rfl⟩

/-- The strict check answers, and accepts the sub-blobs that tile the octets behind the index,
when no entry is null. -/
theorem strictValidateBlob_iff {magic : UInt32} {maxSize : Nat}
    (haccept : validateBlob magic blobs maxSize = some true) :
    (∃ answer, strictValidateBlob magic blobs maxSize = some answer ∧
      (answer = true ↔ SubBlobsTile blobs)) ↔ NoNullEntry blobs := by
  constructor
  · intro ⟨answer, hanswer, _⟩ n k hcount hk hnull
    rw [strictValidateBlob_null haccept hcount hk hnull] at hanswer
    cases hanswer
  · exact strictValidateBlob_tiling haccept

def oneHeader : List UInt8 :=
  [0, 0, 0, 1, 0, 0, 0, 28, 0, 0, 0, 1, 0, 0, 0, 0, 0, 0, 0, 20, 0, 0, 0, 2, 0, 0, 0, 8]

theorem strictValidateBlob_iff_sample :
    (∃ answer, strictValidateBlob 1 oneHeader 28 = some answer ∧
      (answer = true ↔ SubBlobsTile oneHeader)) ↔ NoNullEntry oneHeader :=
  strictValidateBlob_iff (by decide)

/-- A super-blob whose only entry is null. -/
theorem strictValidateBlob_follows_null :
    validateBlob 1 [0, 0, 0, 1, 0, 0, 0, 20, 0, 0, 0, 1, 0, 0, 0, 0, 0, 0, 0, 0] 20 = some true ∧
      strictValidateBlob 1 [0, 0, 0, 1, 0, 0, 0, 20, 0, 0, 0, 1, 0, 0, 0, 0, 0, 0, 0, 0] 20 =
        none := by
  decide
end SuperBlobCore
end SecurityFramework
