import SecurityFramework.CodeSigning.CodeDirectory

/-!
# Building code directories

The builder picks a version, computes the size the directory takes in it, and fills the header, the
flexible fields and the hashes of an allocation of that size.
-/

namespace SecurityFramework
open Memory

namespace CodeDirectory
def UINT32_MAX : Nat := 2 ^ 32 - 1

/-- The hash types that `hashFor` knows; the builder's constructor throws for others. -/
inductive HashAlgorithm where
  | kSecCodeSignatureHashSHA1
  | kSecCodeSignatureHashSHA256
  | kSecCodeSignatureHashSHA256Truncated
  | kSecCodeSignatureHashSHA384
deriving DecidableEq

namespace HashAlgorithm
def toNat : HashAlgorithm → Nat
  | kSecCodeSignatureHashSHA1 => 1
  | kSecCodeSignatureHashSHA256 => 2
  | kSecCodeSignatureHashSHA256Truncated => 3
  | kSecCodeSignatureHashSHA384 => 4

def digestLength : HashAlgorithm → Nat
  | kSecCodeSignatureHashSHA1 => 20
  | kSecCodeSignatureHashSHA256 => 32
  | kSecCodeSignatureHashSHA256Truncated => 20
  | kSecCodeSignatureHashSHA384 => 48
end HashAlgorithm

structure Hashing where
  digest : HashAlgorithm → List UInt8 → List UInt8
  length_digest : ∀ hashType data, (digest hashType data).length = hashType.digestLength

structure Scatter where
  count : UInt32
  base : UInt32
  targetOffset : UInt64
  spare : UInt64

namespace Scatter
def octets (scatter : Scatter) : List UInt8 :=
  toBE 4 scatter.count.toNat ++ toBE 4 scatter.base.toNat ++
    toBE 8 scatter.targetOffset.toNat ++ toBE 8 scatter.spare.toNat

/-- The sentinel that `scatter(count)` allocates behind the elements. -/
def sentinel : Scatter := ⟨0, 0, 0, 0⟩
end Scatter

def cdSlotMax : Nat := 11

/-- A builder with everything set. What it holds is in memory, so that the sizes of its strings
and of its scatter vector sum to far less than a `size_t` can say. -/
structure Builder where
  mFlags : UInt32
  mHashType : HashAlgorithm
  mPlatform : UInt8
  /-- The digest of each special slot, zero where the slot was not filled. -/
  mSpecial : Nat → List UInt8
  mSpecialSlots : Nat
  mCodeSlots : Nat
  mScatter : Option (List Scatter)
  mExec : List UInt8
  mExecOffset : UInt64
  mExecLength : UInt64
  mPageSize : UInt64
  mIdentifier : List UInt8
  mTeamID : List UInt8
  mExecSegOffset : UInt64
  mExecSegLimit : UInt64
  mExecSegFlags : UInt64
  mGeneratePreEncryptHashes : Bool
  mPreservedPreEncryptHashMap : List (Nat × List UInt8)
  mRuntimeVersion : UInt32
  length_special : ∀ slot, (mSpecial slot).length = mHashType.digestLength
  specialSlots_le : mSpecialSlots ≤ cdSlotMax
  in_memory : mIdentifier.length + mTeamID.length + 24 * (mScatter.getD []).length < 2 ^ 62

namespace Builder
def mDigestLength (builder : Builder) : Nat := builder.mHashType.digestLength

def scatterOctets (builder : Builder) : List UInt8 :=
  match builder.mScatter with
  | none => []
  | some scatter => (scatter ++ [Scatter.sentinel]).flatMap Scatter.octets

def mScatterSize (builder : Builder) : Nat := builder.scatterOctets.length

def hasPreEncryptHashes (builder : Builder) : Bool :=
  builder.mGeneratePreEncryptHashes || !builder.mPreservedPreEncryptHashMap.isEmpty

def fixedSize (version : Nat) : Nat :=
  let cdSize := CodeDirectory.size
  let cdSize := if version < supportsPreEncrypt then cdSize - (4 + 4) else cdSize
  let cdSize := if version < supportsExecSegment then cdSize - (8 + 8 + 8) else cdSize
  let cdSize := if version < supportsCodeLimit64 then cdSize - (4 + 8) else cdSize
  if version < supportsTeamID then cdSize - 4 else cdSize

/-- The length `size` settles on: the rest of the file where none was given. -/
def execLength (builder : Builder) : Nat :=
  if builder.mExecLength = 0 then
    (builder.mExec.length + 2 ^ 64 - builder.mExecOffset.toNat) % 2 ^ 64
  else
    builder.mExecLength.toNat

def codeSlots (builder : Builder) : Nat :=
  if builder.execLength = 0 then
    0
  else if builder.mPageSize = 0 then
    1
  else
    (builder.execLength - 1) / builder.mPageSize.toNat + 1

def sizeSum (builder : Builder) (version : Nat) : Nat :=
  fixedSize version + builder.mScatterSize + (builder.mIdentifier.length + 1) +
    (if builder.mTeamID ≠ [] then builder.mTeamID.length + 1 else 0) +
    (builder.codeSlots + builder.mSpecialSlots) * builder.mDigestLength +
    (if builder.hasPreEncryptHashes then builder.codeSlots * builder.mDigestLength else 0)

def size (builder : Builder) (version : Nat) : Except CSError Nat :=
  let offset := builder.sizeSum version % 2 ^ 64
  if offset ≤ fixedSize version then .error .ENOEXEC else .ok offset

/-- The version `build` picks, before `size` may take the length from the file. -/
def version (builder : Builder) : Nat :=
  if builder.hasPreEncryptHashes ∨ builder.mRuntimeVersion ≠ 0 then
    currentVersion
  else if builder.mExecSegLimit > 0 then
    supportsExecSegment
  else if builder.mExecLength.toNat > UINT32_MAX then
    supportsCodeLimit64
  else if builder.mTeamID ≠ [] then
    supportsTeamID
  else
    supportsScatter

def headerWrites (builder : Builder) (total version : Nat) : List Write :=
  [(0, toBE 4 typeMagic), (4, toBE 4 total), (8, toBE 4 version),
    (12, toBE 4 builder.mFlags.toNat), (24, toBE 4 builder.mSpecialSlots),
    (28, toBE 4 builder.codeSlots)] ++
  (if builder.execLength > UINT32_MAX then
    [(32, toBE 4 UINT32_MAX), (56, toBE 8 builder.execLength)]
  else
    [(32, toBE 4 builder.execLength)]) ++
  [(37, toBE 1 builder.mHashType.toNat), (38, [builder.mPlatform]),
    (36, toBE 1 builder.mDigestLength),
    -- `pglog - 1` for a power of two
    (39, toBE 1 (if builder.mPageSize = 0 then 0 else builder.mPageSize.toNat.log2)),
    (64, toBE 8 builder.mExecSegOffset.toNat), (72, toBE 8 builder.mExecSegLimit.toNat),
    (80, toBE 8 builder.mExecSegFlags.toNat), (88, toBE 4 builder.mRuntimeVersion.toNat)]

section Layout

variable (builder : Builder) (version : Nat)

def scatterOffset : Nat := fixedSize version

def identOffset : Nat := scatterOffset version + builder.mScatterSize

def teamIDOffset : Nat := builder.identOffset version + (builder.mIdentifier.length + 1)

def preEncryptOffset : Nat :=
  builder.teamIDOffset version +
    if builder.mTeamID ≠ [] then builder.mTeamID.length + 1 else 0

def hashesOffset : Nat :=
  builder.preEncryptOffset version +
    if builder.hasPreEncryptHashes then builder.codeSlots * builder.mDigestLength else 0

def hashOffset : Nat :=
  builder.hashesOffset version + builder.mSpecialSlots * builder.mDigestLength

def endOffset : Nat :=
  builder.hashesOffset version +
    (builder.mSpecialSlots + builder.codeSlots) * builder.mDigestLength
end Layout

/-- The assignments to the flexible fields and the data they name. The data goes to where the
field just written points, of which it holds 32 bits; a null `teamID()` fails. -/
def flexWrites (builder : Builder) (version : Nat) : Option (List Write) :=
  let scatter : List Write := match builder.mScatter with
    | none => []
    | some _ =>
      [(44, toBE 4 (scatterOffset version)),
        (scatterOffset version % 2 ^ 32, builder.scatterOctets)]
  let ident : List Write :=
    [(20, toBE 4 (builder.identOffset version)),
      (builder.identOffset version % 2 ^ 32, builder.mIdentifier ++ [0])]
  let team : List Write := if builder.mTeamID ≠ [] then
      [(48, toBE 4 (builder.teamIDOffset version)),
        (builder.teamIDOffset version % 2 ^ 32, builder.mTeamID ++ [0])]
    else []
  let preEncrypt : List Write := if builder.hasPreEncryptHashes then
      [(92, toBE 4 (builder.preEncryptOffset version))]
    else []
  let hash : List Write := [(16, toBE 4 (builder.hashOffset version))]
  if builder.mTeamID ≠ [] ∧ builder.teamIDOffset version % 2 ^ 32 = 0 then
    none
  else
    some (scatter ++ ident ++ team ++ preEncrypt ++ hash)

/-- The offset of the pre-encrypt hashes; a null pointer fails. -/
def preEncryptBase (mDir : List UInt8) : Option Nat := do
  let version ← loadBE mDir 8 4
  if version < supportsPreEncrypt then
    none
  else
    let preEncryptOffset ← loadBE mDir 92 4
    if preEncryptOffset = 0 then none else some preEncryptOffset

/-- `getSlotMutable` on the directory in the making, for a slot that is not before it. -/
def getSlotMutable (mDir : List UInt8) (slot : Int) (preEncrypt : Bool) : Option Nat := do
  let hashSize ← loadBE mDir 36 1
  let base ← if preEncrypt then preEncryptBase mDir else loadBE mDir 16 4
  let start ← (← slotAt base hashSize (toSlot slot))
  if start < 0 then none else some start.toNat

def specialSlot (hashing : Hashing) (builder : Builder) (slot : Nat) (hslot : slot ≤ cdSlotMax)
    (data : List UInt8) : Builder :=
  { builder with
    mSpecial := Function.update builder.mSpecial slot (hashing.digest builder.mHashType data)
    mSpecialSlots := max builder.mSpecialSlots slot
    length_special := by
      intro other
      by_cases hother : other = slot
      · rw [hother, Function.update_self, hashing.length_digest]
      · rw [Function.update_of_ne hother, builder.length_special]
    specialSlots_le := max_le builder.specialSlots_le hslot }

def fillSpecial (builder : Builder) : Nat → List UInt8 → Option (List UInt8)
  | 0, mDir => some mDir
  | count + 1, mDir => do
    let mDir ← fillSpecial builder count mDir
    store mDir (← getSlotMutable mDir (-(count + 1)) false) (builder.mSpecial (count + 1))

/-- What `generateHash` reads of a file at `exec`: at most `limit` octets, and everything for a
limit of zero. -/
def readLimit (exec : List UInt8) (limit : Nat) : List UInt8 :=
  if limit = 0 then exec else exec.take limit

def thisPage (builder : Builder) (remaining : Nat) : Nat :=
  if builder.mPageSize ≠ 0 then min remaining builder.mPageSize.toNat else remaining

def fillSlot (builder : Builder) (slot : Nat) (digest mDir : List UInt8) :
    Option (List UInt8) := do
  let mDir ← store mDir (← getSlotMutable mDir slot false) digest
  if builder.mGeneratePreEncryptHashes ∧ builder.mPreservedPreEncryptHashMap.isEmpty then
    let hashSize ← loadBE mDir 36 1
    let main ← load mDir (← getSlotMutable mDir slot false) hashSize
    store mDir (← getSlotMutable mDir slot true) main
  else
    return mDir

def fillCode (hashing : Hashing) (builder : Builder) :
    Nat → Nat → List UInt8 → Nat → List UInt8 → Option (List UInt8)
  | 0, _, _, _, mDir => some mDir
  | count + 1, slot, exec, remaining, mDir => do
    let page := readLimit exec (builder.thisPage remaining)
    let mDir ← builder.fillSlot slot (hashing.digest builder.mHashType page) mDir
    fillCode hashing builder count (slot + 1) (exec.drop page.length)
      (remaining - builder.thisPage remaining) mDir

def fillPreserved (builder : Builder) (mDir : List UInt8) : Option (List UInt8) :=
  match builder.mPreservedPreEncryptHashMap.lookup builder.mHashType.toNat with
  | none => some mDir
  | some preEncrypt => do
    let hashes ← load preEncrypt 0 (builder.codeSlots * builder.mDigestLength)
    store mDir (← getSlotMutable mDir 0 true) hashes

def build (hashing : Hashing) (builder : Builder) : Option (Except CSError (List UInt8)) := do
  let version := builder.version
  if builder.mCodeSlots > UINT32_MAX then
    return .error .errSecCSTooBig
  match builder.size version with
  | .error error => return .error error
  | .ok total =>
    -- `calloc` zeroes
    let mDir ← storeAll (List.replicate total 0) (builder.headerWrites total version)
    let mDir ← storeAll mDir (← builder.flexWrites version)
    let special ← getSlotMutable mDir (-builder.mSpecialSlots) false
    let mDir ← store mDir special
      (List.replicate (builder.mDigestLength * builder.mSpecialSlots) 0)
    let mDir ← builder.fillSpecial builder.mSpecialSlots mDir
    -- the slot of the loop is a 32-bit number, so that it never reaches 2³² slots
    if builder.codeSlots > UINT32_MAX then
      none
    let exec := builder.mExec.drop builder.mExecOffset.toNat
    let mDir ← fillCode hashing builder builder.codeSlots 0 exec builder.execLength mDir
    return .ok (← builder.fillPreserved mDir)
end Builder
end CodeDirectory
end SecurityFramework
