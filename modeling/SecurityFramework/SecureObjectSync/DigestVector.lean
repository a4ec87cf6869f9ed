import Mathlib.Data.Option.Basic
import Mathlib.Order.Lattice
import SecurityFramework.Library.ByteOrder

/-!
# Digest vectors

The growable vectors of 20-octet digests under the sync manifests.
-/

namespace SecurityFramework
/-- The result of code that asserts: `none` is a failed `assert`. -/
abbrev Asserting := Option

/-- `CCSHA1_OUTPUT_SIZE`. -/
def SOSDigestSize : Nat := 20

def kMaxDVCapacity : Nat := 1024 * 1024

structure Digest where
  bytes : List UInt8
  size_eq : bytes.length = SOSDigestSize

namespace Digest
theorem octets_injective :
    Function.Injective fun d : Digest => ByteOrder.octets d.bytes := by
  rintro ⟨bytes, hbytes⟩ ⟨bytes', hbytes'⟩ h
  have heq : bytes = bytes' := ByteOrder.octets_injective h
  subst heq
  rfl

instance : LinearOrder Digest :=
  LinearOrder.lift' (fun d => ByteOrder.octets d.bytes) octets_injective

instance isTrans_le : IsTrans Digest (· ≤ ·) := inferInstance

instance antisymm_le : Std.Antisymm (α := Digest) (· ≤ ·) := inferInstance
end Digest

def SOSDigestCompare (a b : Digest) : Int := ByteOrder.memcmp a.bytes b.bytes

private theorem digest_length_eq (a b : Digest) : a.bytes.length = b.bytes.length :=
  a.size_eq.trans b.size_eq.symm

@[simp] theorem SOSDigestCompare_neg_iff (a b : Digest) : SOSDigestCompare a b < 0 ↔ a < b :=
  ByteOrder.memcmp_neg_iff a.bytes b.bytes (digest_length_eq a b)

@[simp] theorem SOSDigestCompare_eq_zero_iff (a b : Digest) :
    SOSDigestCompare a b = 0 ↔ a = b := by
  have hzero := ByteOrder.memcmp_eq_zero_iff a.bytes b.bytes (digest_length_eq a b)
  rw [SOSDigestCompare, hzero]
  exact ⟨fun h => Digest.octets_injective (congrArg ByteOrder.octets h), congrArg _⟩

@[simp] theorem SOSDigestCompare_pos_iff (a b : Digest) : 0 < SOSDigestCompare a b ↔ b < a := by
  have hneg := SOSDigestCompare_neg_iff a b
  have hzero := SOSDigestCompare_eq_zero_iff a b
  constructor
  · intro hpos
    refine lt_of_le_of_ne (not_lt.mp fun h => ?_) fun h => ?_
    · have := hneg.mpr h
      omega
    · have := hzero.mpr h.symm
      omega
  · intro hlt
    have hnneg : ¬ SOSDigestCompare a b < 0 := fun h => lt_asymm hlt (hneg.mp h)
    have hnzero : SOSDigestCompare a b ≠ 0 := fun h => ne_of_gt hlt (hzero.mp h)
    omega

structure SOSDigestVector where
  digest : List Digest
  capacity : Nat
  unsorted : Bool
  count_le_capacity : digest.length ≤ capacity

def SOSDigestVector.count (dv : SOSDigestVector) : Nat := dv.digest.length

def SOSDigestVectorInit : SOSDigestVector where
  digest := []
  capacity := 0
  unsorted := false
  count_le_capacity := by simp

def SOSDigestVectorEnsureCapacity (dv : SOSDigestVector) (count : Nat) :
    Option { grown : SOSDigestVector // grown.digest = dv.digest ∧ count ≤ grown.capacity } :=
  if hfits : count ≤ dv.capacity then some ⟨dv, rfl, hfits⟩
  else if hbig : kMaxDVCapacity < count then none
  else
    have hcap : count ≤ min (count + 100) kMaxDVCapacity := by omega
    have hcount := dv.count_le_capacity
    some ⟨{ dv with
      capacity := min (count + 100) kMaxDVCapacity
      count_le_capacity := by omega }, rfl, hcap⟩

/-- Nothing is appended, and nothing reported, where no room can be made. -/
def SOSDigestVectorAppendOrdered (dv : SOSDigestVector) (digest : Digest) : SOSDigestVector :=
  match SOSDigestVectorEnsureCapacity dv (dv.count + 1) with
  | some ⟨grown, hgrown⟩ =>
    { grown with
      digest := grown.digest ++ [digest]
      count_le_capacity := by
        have hcap := hgrown.2
        simpa [hgrown.1, SOSDigestVector.count] using hcap }
  | none => dv

def SOSDigestVectorAppend (dv : SOSDigestVector) (digest : Digest) : SOSDigestVector :=
  { SOSDigestVectorAppendOrdered dv digest with unsorted := true }

/-- The position after `digest` and the entries equal to it, in a vector sorted so far. -/
def SOSIncrementAndSkipDupes (digest : Digest) :
    (rest : List Digest) → Asserting { next : List Digest // next.length ≤ rest.length }
  | [] => some ⟨[], le_rfl⟩
  | d :: ds =>
    if 0 < SOSDigestCompare digest d then none
    else if SOSDigestCompare digest d ≠ 0 then some ⟨d :: ds, le_rfl⟩
    else do
      let next ← SOSIncrementAndSkipDupes digest ds
      some ⟨next.1, next.2.trans (by simp)⟩

def SOSDigestVectorAppendMultipleOrdered (dv : SOSDigestVector) :
    List Digest → Asserting SOSDigestVector
  | [] => some dv
  | d :: ds => do
    let next ← SOSIncrementAndSkipDupes d ds
    SOSDigestVectorAppendMultipleOrdered (SOSDigestVectorAppendOrdered dv d) next.1
  termination_by digests => digests.length
  decreasing_by exact Nat.lt_succ_of_le next.2

def moveDigests (digest : List Digest) (dest source n : Nat) : List Digest :=
  digest.mapIdx fun ix d =>
    if dest ≤ ix ∧ ix < dest + n then digest.getD (source + (ix - dest)) d else d

structure UniqueState (stop : Nat) where
  digest : List Digest
  prev : Nat
  dest : Nat
  source : Nat
  length_eq : digest.length = stop

def UniqueState.finishRegion {stop : Nat} (s : UniqueState stop) : UniqueState stop :=
  let prev := s.prev + 1
  { digest :=
      if s.dest ≠ s.source then moveDigests s.digest s.dest s.source (prev - s.source)
      else s.digest
    prev := prev
    dest := s.dest + (prev - s.source)
    source := s.source
    length_eq := by
      split_ifs
      · rw [moveDigests, List.length_mapIdx, s.length_eq]
      · exact s.length_eq }

def uniqueSkip {stop : Nat} (s : UniqueState stop) (cur : Nat) :
    Asserting { next : Nat // cur ≤ next } :=
  if cur < stop then do
    let p ← s.digest[s.prev]?
    let c ← s.digest[cur]?
    guard (SOSDigestCompare p c ≤ 0)
    if SOSDigestCompare p c ≠ 0 then some ⟨cur, le_rfl⟩
    else
      let next ← uniqueSkip s (cur + 1)
      some ⟨next.1, (Nat.le_succ cur).trans next.2⟩
  else some ⟨cur, le_rfl⟩
  termination_by stop - cur

def uniqueLoop {stop : Nat} (s : UniqueState stop) (cur : Nat) :
    Asserting (UniqueState stop) :=
  if cur < stop then do
    let p ← s.digest[s.prev]?
    let c ← s.digest[cur]?
    if SOSDigestCompare p c < 0 then uniqueLoop { s with prev := cur } (cur + 1)
    else if 0 < SOSDigestCompare p c then none
    else
      let next ← uniqueSkip s.finishRegion (cur + 1)
      uniqueLoop { s.finishRegion with prev := next.1, source := next.1 } (next.1 + 1)
  else some s
  termination_by stop - cur
  decreasing_by
    · omega
    · have := next.2
      omega

def SOSDigestVectorUnique (dv : SOSDigestVector) : Asserting SOSDigestVector :=
  if dv.count < 2 then some dv
  else do
    let s ← uniqueLoop (⟨dv.digest, 0, 1, 1, rfl⟩ : UniqueState dv.count) 1
    let s := if s.source < dv.count then s.finishRegion else s
    some { dv with
      digest := s.digest.take s.dest
      count_le_capacity :=
        (List.length_take_le' _ _).trans (s.length_eq.le.trans dv.count_le_capacity) }

def SOSDigestVectorSort (dv : SOSDigestVector) : Asserting SOSDigestVector :=
  if dv.unsorted && dv.capacity != 0 then
    SOSDigestVectorUnique { dv with
      digest := dv.digest.mergeSort fun a b => SOSDigestCompare a b ≤ 0
      unsorted := false
      count_le_capacity := by
        rw [List.length_mergeSort]
        exact dv.count_le_capacity }
  else some dv

private theorem length_lt_of_left {d : Digest} {ds next other : List Digest}
    (hnext : next.length ≤ ds.length) :
    next.length + other.length < (d :: ds).length + other.length := by
  simp only [List.length_cons]
  omega

private theorem length_lt_of_right {d : Digest} {ds next other : List Digest}
    (hnext : next.length ≤ ds.length) :
    other.length + next.length < other.length + (d :: ds).length := by
  simp only [List.length_cons]
  omega

private theorem length_lt_of_both {d1 d2 : Digest} {ds1 ds2 next1 next2 : List Digest}
    (hnext1 : next1.length ≤ ds1.length) (hnext2 : next2.length ≤ ds2.length) :
    next1.length + next2.length < (d1 :: ds1).length + (d2 :: ds2).length := by
  simp only [List.length_cons]
  omega

def intersectLoop : List Digest → List Digest → SOSDigestVector → Asserting SOSDigestVector
  | d1 :: ds1, d2 :: ds2, dvintersect =>
    if SOSDigestCompare d1 d2 = 0 then do
      let i1 ← SOSIncrementAndSkipDupes d1 ds1
      let i2 ← SOSIncrementAndSkipDupes d2 ds2
      intersectLoop i1.1 i2.1 (SOSDigestVectorAppendOrdered dvintersect d1)
    else if SOSDigestCompare d1 d2 < 0 then do
      let i1 ← SOSIncrementAndSkipDupes d1 ds1
      intersectLoop i1.1 (d2 :: ds2) dvintersect
    else do
      let i2 ← SOSIncrementAndSkipDupes d2 ds2
      intersectLoop (d1 :: ds1) i2.1 dvintersect
  | _, _, dvintersect => some dvintersect
  termination_by i1 i2 => i1.length + i2.length
  decreasing_by
    · exact length_lt_of_both i1.2 i2.2
    · exact length_lt_of_left i1.2
    · exact length_lt_of_right i2.2

def SOSDigestVectorIntersectSorted (dv1 dv2 dvintersect : SOSDigestVector) :
    Asserting SOSDigestVector := do
  guard (dvintersect.count = 0)
  intersectLoop dv1.digest dv2.digest dvintersect

def unionLoop : List Digest → List Digest → SOSDigestVector → Asserting SOSDigestVector
  | d1 :: ds1, d2 :: ds2, dvunion =>
    if SOSDigestCompare d1 d2 = 0 then do
      let i1 ← SOSIncrementAndSkipDupes d1 ds1
      let i2 ← SOSIncrementAndSkipDupes d2 ds2
      unionLoop i1.1 i2.1 (SOSDigestVectorAppendOrdered dvunion d1)
    else if SOSDigestCompare d1 d2 < 0 then do
      let i1 ← SOSIncrementAndSkipDupes d1 ds1
      unionLoop i1.1 (d2 :: ds2) (SOSDigestVectorAppendOrdered dvunion d1)
    else do
      let i2 ← SOSIncrementAndSkipDupes d2 ds2
      unionLoop (d1 :: ds1) i2.1 (SOSDigestVectorAppendOrdered dvunion d2)
  | i1, i2, dvunion => do
    let dvunion ← SOSDigestVectorAppendMultipleOrdered dvunion i1
    SOSDigestVectorAppendMultipleOrdered dvunion i2
  termination_by i1 i2 => i1.length + i2.length
  decreasing_by
    · exact length_lt_of_both i1.2 i2.2
    · exact length_lt_of_left i1.2
    · exact length_lt_of_right i2.2

def SOSDigestVectorUnionSorted (dv1 dv2 dvunion : SOSDigestVector) :
    Asserting SOSDigestVector := do
  guard (dvunion.count = 0)
  unionLoop dv1.digest dv2.digest dvunion

def diffLoop : List Digest → List Digest → SOSDigestVector → SOSDigestVector →
    Asserting (SOSDigestVector × SOSDigestVector)
  | d1 :: ds1, d2 :: ds2, dv1_2, dv2_1 =>
    if SOSDigestCompare d1 d2 = 0 then do
      let i1 ← SOSIncrementAndSkipDupes d1 ds1
      let i2 ← SOSIncrementAndSkipDupes d2 ds2
      diffLoop i1.1 i2.1 dv1_2 dv2_1
    else if SOSDigestCompare d1 d2 < 0 then do
      let i1 ← SOSIncrementAndSkipDupes d1 ds1
      diffLoop i1.1 (d2 :: ds2) (SOSDigestVectorAppendOrdered dv1_2 d1) dv2_1
    else do
      let i2 ← SOSIncrementAndSkipDupes d2 ds2
      diffLoop (d1 :: ds1) i2.1 dv1_2 (SOSDigestVectorAppendOrdered dv2_1 d2)
  | i1, i2, dv1_2, dv2_1 => do
    let dv1_2 ← SOSDigestVectorAppendMultipleOrdered dv1_2 i1
    let dv2_1 ← SOSDigestVectorAppendMultipleOrdered dv2_1 i2
    some (dv1_2, dv2_1)
  termination_by i1 i2 => i1.length + i2.length
  decreasing_by
    · exact length_lt_of_both i1.2 i2.2
    · exact length_lt_of_left i1.2
    · exact length_lt_of_right i2.2

def SOSDigestVectorDiffSorted (dv1 dv2 dv1_2 dv2_1 : SOSDigestVector) :
    Asserting (SOSDigestVector × SOSDigestVector) := do
  guard (dv1_2.count = 0)
  guard (dv2_1.count = 0)
  diffLoop dv1.digest dv2.digest dv1_2 dv2_1

def SOSDigestVectorAppendComplementAtIndex :
    List Digest → List Digest → SOSDigestVector → Asserting SOSDigestVector
  | da :: dsA, db :: dsB, dvcomplement =>
    if SOSDigestCompare da db = 0 then do
      let a_ix ← SOSIncrementAndSkipDupes da dsA
      let b_ix ← SOSIncrementAndSkipDupes db dsB
      SOSDigestVectorAppendComplementAtIndex a_ix.1 b_ix.1 dvcomplement
    else if SOSDigestCompare da db < 0 then do
      let a_ix ← SOSIncrementAndSkipDupes da dsA
      SOSDigestVectorAppendComplementAtIndex a_ix.1 (db :: dsB) dvcomplement
    else do
      let b_ix ← SOSIncrementAndSkipDupes db dsB
      SOSDigestVectorAppendComplementAtIndex (da :: dsA) b_ix.1
        (SOSDigestVectorAppendOrdered dvcomplement db)
  | _, b_ix, dvcomplement => SOSDigestVectorAppendMultipleOrdered dvcomplement b_ix
  termination_by a_ix b_ix => a_ix.length + b_ix.length
  decreasing_by
    · exact length_lt_of_both a_ix.2 b_ix.2
    · exact length_lt_of_left a_ix.2
    · exact length_lt_of_right b_ix.2

def SOSDigestVectorComplementSorted (dvA dvB dvcomplement : SOSDigestVector) :
    Asserting SOSDigestVector := do
  guard (dvcomplement.count = 0)
  guard (!dvA.unsorted)
  guard (!dvB.unsorted)
  SOSDigestVectorAppendComplementAtIndex dvA.digest dvB.digest dvcomplement

def passRemovals (candidate : Digest) (ddelta : Int) :
    (removals : List Digest) → Asserting (Int × { i3 : List Digest // i3.length ≤ removals.length })
  | [] => some (ddelta, ⟨[], le_rfl⟩)
  | r :: rs =>
    if SOSDigestCompare r candidate < 0 then do
      let next ← SOSIncrementAndSkipDupes r rs
      let (ddelta, i3) ← passRemovals candidate (SOSDigestCompare r candidate) next.1
      some (ddelta, ⟨i3.1, i3.2.trans (Nat.le_succ_of_le next.2)⟩)
    else if SOSDigestCompare r candidate = 0 then do
      let next ← SOSIncrementAndSkipDupes r rs
      some (SOSDigestCompare r candidate, ⟨next.1, Nat.le_succ_of_le next.2⟩)
    else some (SOSDigestCompare r candidate, ⟨r :: rs, le_rfl⟩)
  termination_by removals => removals.length
  decreasing_by exact Nat.lt_succ_of_le next.2

def patchLoop : List Digest → List Digest → List Digest → SOSDigestVector →
    Asserting SOSDigestVector
  | b :: bs, a :: as, i3, dv => do
    let udelta := SOSDigestCompare b a
    let candidate := if udelta < 0 then b else a
    let (ddelta, i3) ← passRemovals candidate 1 i3
    let dv := if 0 < ddelta then SOSDigestVectorAppendOrdered dv candidate else dv
    if udelta = 0 then
      let i1 ← SOSIncrementAndSkipDupes b bs
      let i2 ← SOSIncrementAndSkipDupes a as
      patchLoop i1.1 i2.1 i3.1 dv
    else if udelta < 0 then
      let i1 ← SOSIncrementAndSkipDupes b bs
      patchLoop i1.1 (a :: as) i3.1 dv
    else
      let i2 ← SOSIncrementAndSkipDupes a as
      patchLoop (b :: bs) i2.1 i3.1 dv
  | i1, i2, i3, dv => do
    let dv ← SOSDigestVectorAppendComplementAtIndex i3 i1 dv
    SOSDigestVectorAppendComplementAtIndex i3 i2 dv
  termination_by i1 i2 => i1.length + i2.length
  decreasing_by
    · exact length_lt_of_both i1.2 i2.2
    · exact length_lt_of_left i1.2
    · exact length_lt_of_right i2.2

def SOSDigestVectorPatchSorted (base removals additions dv : SOSDigestVector) :
    Asserting SOSDigestVector := do
  guard (dv.count = 0)
  guard (!base.unsorted)
  guard (!removals.unsorted)
  guard (!additions.unsorted)
  patchLoop base.digest additions.digest removals.digest dv
end SecurityFramework
