import Mathlib.Data.List.Sort
import Std.Data.TreeMap.Lemmas
import SecurityFramework.Library.Memory

/-!
# Blobs

The frame of every binary blob: a magic number and the overall length, both in network byte order.
-/

namespace SecurityFramework
open Memory

namespace BlobCore
def size : Nat := 8

def magic (blob : List UInt8) : Option Nat := loadBE blob 0 4

def length (blob : List UInt8) : Option Nat := loadBE blob 4 4

def initializeHeader (blob : List UInt8) (magic length : Nat) : Option (List UInt8) := do
  let blob ← storeBE blob 0 4 magic
  storeBE blob 4 4 length

def validateBlob (blob : List UInt8) (magic minSize maxSize : Nat) : Option Bool := do
  let length ← BlobCore.length blob
  let mMagic ← BlobCore.magic blob
  if magic ≠ 0 ∧ magic ≠ mMagic then
    return false
  if (if minSize ≠ 0 then length < minSize else length < size) then
    return false
  if maxSize ≠ 0 ∧ length > maxSize then
    return false
  return true

def «at» (blob : List UInt8) (offset : Nat) : List UInt8 := blob.drop offset

def contains (blob : List UInt8) (offset size : Int) : Option Bool := do
  let length ← length blob
  return offset ≥ 0 ∧ offset ≥ BlobCore.size ∧ offset + size ≤ length

/-- The string at `offset`, `NULL` unless a NUL ends it before the blob ends. -/
def stringAt (blob : List UInt8) (offset : Nat) : Option (Option (List UInt8)) := do
  let length ← length blob
  if offset < length then
    let string ← load (BlobCore.at blob offset) 0 (length - offset)
    return if 0 ∈ string then some string else none
  else
    return none

/-- The octets `memcpy(…, blob, blob->length())` copies. -/
def bytes (blob : List UInt8) : Option (List UInt8) := do
  load blob 0 (← length blob)

def clone (blob : List UInt8) : Option (List UInt8) := bytes blob

/-- The length field of a blob, and zero where there is none. -/
def extent (blob : List UInt8) : Nat := (length blob).getD 0

theorem extent_lt_two_pow (blob : List UInt8) : extent blob < 2 ^ 32 := by
  unfold extent
  cases hlength : length blob with
  | none => decide
  | some len => exact loadBE_lt hlength

structure Valid (blob : List UInt8) : Prop where
  header : size ≤ extent blob
  extent_le : extent blob ≤ blob.length

namespace Valid
variable {blob : List UInt8}

theorem length_eq (h : Valid blob) : length blob = some (extent blob) := by
  have hsize := h.header
  unfold extent at *
  cases hlength : length blob with
  | none => simp [hlength, size] at hsize
  | some len => rfl

theorem bytes_eq (h : Valid blob) : bytes blob = some (blob.take (extent blob)) := by
  have hle := h.extent_le
  simp [bytes, h.length_eq, load, hle]
end Valid

variable {blob copy : List UInt8}

theorem le_extent_of_validateBlob {magic minSize maxSize : Nat}
    (h : validateBlob blob magic minSize maxSize = some true) (hmin : minSize ≠ 0) :
    minSize ≤ extent blob := by
  obtain ⟨len, hlength, h⟩ := Option.bind_eq_some_iff.mp h
  obtain ⟨mMagic, hmagic, h⟩ := Option.bind_eq_some_iff.mp h
  rw [extent, hlength, Option.getD_some]
  by_contra hlt
  have hsmall : if minSize ≠ 0 then len < minSize else len < size := by
    rw [if_pos hmin]
    omega
  by_cases hwrong : magic ≠ 0 ∧ magic ≠ mMagic
  · simp [hwrong] at h
  · rw [if_neg hwrong, if_pos hsmall] at h
    simp at h

theorem contains_eq_true {offset size : Int} (h : contains blob offset size = some true) :
    BlobCore.size ≤ offset ∧ offset + size ≤ extent blob := by
  obtain ⟨len, hlength, hinside⟩ := Option.bind_eq_some_iff.mp h
  simp only [Option.pure_def, Option.some.injEq, decide_eq_true_eq] at hinside
  rw [extent, hlength, Option.getD_some]
  exact hinside.2

theorem nul_of_stringAt {string : List UInt8} {offset : Nat}
    (h : stringAt blob offset = some (some string)) :
    ∃ n, offset + n < extent blob ∧ blob[offset + n]? = some 0 := by
  obtain ⟨len, hlength, hfound⟩ := Option.bind_eq_some_iff.mp h
  rw [extent, hlength, Option.getD_some]
  by_cases hoffset : offset < len
  · rw [if_pos hoffset] at hfound
    obtain ⟨scanned, hload, hfound⟩ := Option.bind_eq_some_iff.mp hfound
    have hnul : 0 ∈ scanned := by
      by_contra hnot
      simp [hnot] at hfound
    obtain ⟨n, hn, hget⟩ := List.mem_iff_getElem.mp hnul
    have hlen := length_of_load hload
    obtain ⟨hle, rfl⟩ := load_eq_some_iff.mp hload
    refine ⟨n, by omega, ?_⟩
    simp only [BlobCore.at, List.drop_zero, List.getElem_take, List.getElem_drop] at hget
    rw [List.getElem?_eq_some_iff]
    exact ⟨_, hget⟩
  · simp [if_neg hoffset] at hfound

theorem length_of_bytes (h : bytes blob = some copy) :
    length blob = some copy.length := by
  obtain ⟨len, hlength, hload⟩ := Option.bind_eq_some_iff.mp h
  rw [hlength, length_of_load hload]

theorem length_copy (h : bytes blob = some copy) (hsize : size ≤ copy.length) :
    length copy = some copy.length := by
  have hlength := length_of_bytes h
  obtain ⟨len, hlen, hload⟩ := Option.bind_eq_some_iff.mp h
  have hcopy := length_of_load hload
  have hwithin : 4 + 4 ≤ len := by
    rw [← hcopy]
    exact hsize
  rw [length, loadBE_of_load hload hwithin, Nat.zero_add]
  exact hlength

theorem extent_copy (h : bytes blob = some copy) (hsize : size ≤ copy.length) :
    extent copy = copy.length := by
  rw [extent, length_copy h hsize, Option.getD_some]

theorem valid_copy (h : bytes blob = some copy) (hsize : size ≤ copy.length) : Valid copy where
  header := by rwa [extent_copy h hsize]
  extent_le := (extent_copy h hsize).le

theorem bytes_copy (h : bytes blob = some copy) (hsize : size ≤ copy.length) :
    bytes copy = some copy := by
  rw [(valid_copy h hsize).bytes_eq, extent_copy h hsize, List.take_length]
end BlobCore
end SecurityFramework

namespace SecurityFramework
open Memory

namespace SuperBlobCore
/-- `sizeof(SuperBlobCore)` -/
def size : Nat := 12

def indexSize : Nat := 8

def setup (magic : UInt32) (blobs : List UInt8) (size count : Nat) : Option (List UInt8) := do
  let blobs ← BlobCore.initializeHeader blobs magic.toNat size
  storeBE blobs 8 4 count

def count (blobs : List UInt8) : Option Nat := loadBE blobs 8 4

def type (blobs : List UInt8) (n : Nat) : Option UInt32 :=
  (loadBE blobs (size + n * indexSize) 4).map UInt32.ofNat

def offset (blobs : List UInt8) (n : Nat) : Option Nat :=
  loadBE blobs (size + n * indexSize + 4) 4

def blob (blobs : List UInt8) (n : Nat) : Option (Option (List UInt8)) := do
  let offset ← offset blobs n
  return if offset ≠ 0 then some (BlobCore.at blobs offset) else none

def validateEntry (blobs : List UInt8) (ixLimit n : Nat) : Option Bool := do
  let offset ← offset blobs n
  if offset = 0 then
    return true
  let length ← BlobCore.length blobs
  if offset < ixLimit then
    return false
  if offset + BlobCore.size > length then
    return false
  let blobLength ← BlobCore.length (BlobCore.at blobs offset)
  return offset + blobLength ≤ length

def validateIndex (blobs : List UInt8) (ixLimit : Nat) : Nat → Option Bool
  | 0 => some true
  | n + 1 => do
    if ← validateEntry blobs ixLimit n then
      validateIndex blobs ixLimit n
    else
      return false

def validateBlob (magic : UInt32) (blobs : List UInt8) (maxSize : Nat) : Option Bool := do
  let count ← count blobs
  let ixLimit := size + count * indexSize
  if ← BlobCore.validateBlob blobs magic.toNat ixLimit maxSize then
    validateIndex blobs ixLimit count
  else
    return false

structure SBRange where
  base : Nat
  «end» : Nat

def ranges (blobs : List UInt8) : Nat → Nat → Option (List SBRange)
  | 0, _ => some []
  | count + 1, ix => do
    let base ← offset blobs ix
    -- `this->blob(ix)->length()` with no check for a null entry
    let blob ← (← blob blobs ix)
    let length ← BlobCore.length blob
    return ⟨base, base + length⟩ :: (← ranges blobs count (ix + 1))

def adjacent : Nat → Nat → List SBRange → Bool
  | start, finish, [] => start = finish
  | start, finish, range :: rest => range.base = start && adjacent range.end finish rest

def strictValidateBlob (magic : UInt32) (blobs : List UInt8) (maxSize : Nat) : Option Bool := do
  if !(← validateBlob magic blobs maxSize) then
    return false
  let count ← count blobs
  let length ← BlobCore.length blobs
  if count = 0 then
    return length = size
  let ranges ← ranges blobs count 0
  let ranges := ranges.insertionSort (fun a b => a.base ≤ b.base)
  return adjacent (size + count * indexSize) length ranges

def findSlot (blobs : List UInt8) (type : UInt32) : Nat → Nat → Option (Option (List UInt8))
  | 0, _ => some none
  | count + 1, slot => do
    if (← SuperBlobCore.type blobs slot) = type then
      blob blobs slot
    else
      findSlot blobs type count (slot + 1)

def find (blobs : List UInt8) (type : UInt32) : Option (Option (List UInt8)) := do
  findSlot blobs type (← count blobs) 0

abbrev Maker := Std.TreeMap UInt32 (List UInt8)

namespace Maker
/-- Ownership of `blob` passes to the maker; a blob of the same type is replaced. -/
def add (mPieces : Maker) (type : UInt32) (blob : List UInt8) : Maker :=
  mPieces.insert type blob

def addEntries (blobs : List UInt8) : Nat → Nat → Maker → Option Maker
  | 0, _, mPieces => some mPieces
  | count + 1, ix, mPieces => do
    let type ← SuperBlobCore.type blobs ix
    -- `blobs->blob(ix)->clone()` with no check for a null entry
    let blob ← (← blob blobs ix)
    let copy ← BlobCore.clone blob
    addEntries blobs count (ix + 1) (mPieces.add type copy)

def addBlobs (mPieces : Maker) (blobs : List UInt8) : Option Maker := do
  addEntries blobs (← count blobs) 0 mPieces

/-- `Maker(const Maker &src)`. The loop walks `mPieces`, the new maker's own map, which is
empty, and never looks at the maker it is given. -/
def copy (_src : Maker) : Option Maker :=
  let mPieces : Maker := ∅
  mPieces.toList.foldlM (fun copied piece => do
    return copied.insertIfNew piece.1 (← BlobCore.clone piece.2)) mPieces

def size (mPieces : Maker) (sizes : List Nat) : Option Nat := do
  let lengths ← mPieces.toList.mapM fun piece => BlobCore.length piece.2
  let count := Std.TreeMap.size mPieces + sizes.length
  let total := lengths.sum + sizes.sum
  return (SuperBlobCore.size + count * indexSize + total) % 2 ^ 64

def makeEntry (type : UInt32) (blob : List UInt8) (n pc : Nat) (result : List UInt8) :
    Option (List UInt8) := do
  let result ← storeBE result (SuperBlobCore.size + n * indexSize) 4 type.toNat
  let result ← storeBE result (SuperBlobCore.size + n * indexSize + 4) 4 pc
  store result pc (← BlobCore.bytes blob)

def makeEntries : List (UInt32 × List UInt8) → Nat → Nat → List UInt8 → Option (List UInt8)
  | [], _, _, result => some result
  | (type, blob) :: pieces, n, pc, result => do
    let result ← makeEntry type blob n pc result
    makeEntries pieces (n + 1) ((pc + (← BlobCore.length blob)) % 2 ^ 32) result

def make (heap : Heap) (magic : UInt32) (mPieces : Maker) : Option (List UInt8) := do
  let pc := (SuperBlobCore.size + Std.TreeMap.size mPieces * indexSize) % 2 ^ 32
  let total := (← size mPieces []) % 2 ^ 32
  let result := heap.malloc total
  let result ← setup magic result total (Std.TreeMap.size mPieces % 2 ^ 32)
  makeEntries mPieces.toList 0 pc result
end Maker
end SuperBlobCore
end SecurityFramework
