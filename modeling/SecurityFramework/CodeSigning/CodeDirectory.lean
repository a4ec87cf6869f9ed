import SecurityFramework.SecurityUtilities.SuperBlob

/-!
# Code directories

The fixed header of a code directory names, by offset, the identifier, the team identifier, the
scatter vector and the arrays of page hashes behind it.
-/

namespace SecurityFramework
open Memory

inductive CSError where
  | errSecCSSignatureInvalid
  | errSecCSSignatureUnsupported
  | errSecCSSignatureFailed
  | errSecCSTooBig
  | ENOEXEC
deriving DecidableEq

namespace CodeDirectory
def size : Nat := 96

def typeMagic : Nat := 0xfade0c02

def currentVersion : Nat := 0x20500

def compatibilityLimit : Nat := 0x2F000

def earliestVersion : Nat := 0x20001

def supportsScatter : Nat := 0x20100

def supportsTeamID : Nat := 0x20200

def supportsCodeLimit64 : Nat := 0x20300

def supportsExecSegment : Nat := 0x20400

def supportsPreEncrypt : Nat := 0x20500

structure Header where
  version : Nat
  flags : Nat
  hashOffset : Nat
  identOffset : Nat
  nSpecialSlots : Nat
  nCodeSlots : Nat
  codeLimit : Nat
  hashSize : Nat
  hashType : Nat
  pageSize : Nat
  scatterOffset : Nat
  teamIDOffset : Nat
  codeLimit64 : Nat
  preEncryptOffset : Nat
deriving DecidableEq

def header (cd : List UInt8) : Option Header := do
  let version ← loadBE cd 8 4
  let flags ← loadBE cd 12 4
  let hashOffset ← loadBE cd 16 4
  let identOffset ← loadBE cd 20 4
  let nSpecialSlots ← loadBE cd 24 4
  let nCodeSlots ← loadBE cd 28 4
  let codeLimit ← loadBE cd 32 4
  let hashSize ← loadBE cd 36 1
  let hashType ← loadBE cd 37 1
  let pageSize ← loadBE cd 39 1
  let scatterOffset ← loadBE cd 44 4
  let teamIDOffset ← loadBE cd 48 4
  let codeLimit64 ← loadBE cd 56 8
  let preEncryptOffset ← loadBE cd 92 4
  return { version, flags, hashOffset, identOffset, nSpecialSlots, nCodeSlots, codeLimit,
           hashSize, hashType, pageSize, scatterOffset, teamIDOffset, codeLimit64,
           preEncryptOffset }

/-- A product of two C `int`s; there is none when it overflows. -/
def mulInt (a b : Int) : Option Int :=
  if -2 ^ 31 ≤ a * b ∧ a * b < 2 ^ 31 then some (a * b) else none

/-- Conversion to `Slot`, which is `int`. -/
def toSlot (n : Int) : Int := (n + 2 ^ 31) % 2 ^ 32 - 2 ^ 31

def slotAt (base hashSize : Nat) (slot : Int) : Option (Option Int) :=
  (mulInt hashSize slot).map fun distance => some (base + distance)

namespace Header
def signingLimit (h : Header) : Nat :=
  if h.version ≥ supportsCodeLimit64 ∧ h.codeLimit64 ≠ 0 then h.codeLimit64 else h.codeLimit

def hasPreEncryptHashes (h : Header) : Bool :=
  h.version ≥ supportsPreEncrypt ∧ h.preEncryptOffset ≠ 0

/-- The offset of a hash slot, `NULL` for a pre-encrypt slot that the directory lacks. -/
def getSlot (h : Header) (slot : Int) (preEncrypt : Bool) : Option (Option Int) :=
  if preEncrypt then
    if h.hasPreEncryptHashes then
      slotAt h.preEncryptOffset h.hashSize slot
    else
      some none
  else
    slotAt h.hashOffset h.hashSize slot

def scatterVector (h : Header) : Option Nat :=
  if h.version ≥ supportsScatter ∧ h.scatterOffset ≠ 0 then some h.scatterOffset else none

def teamID (h : Header) : Option Nat :=
  if h.version ≥ supportsTeamID ∧ h.teamIDOffset ≠ 0 then some h.teamIDOffset else none
end Header

/-- `contains` for a pointer, which a null pointer does not survive. -/
def containsSlot (cd : List UInt8) (h : Header) (slot : Int) (preEncrypt : Bool) : Option Bool := do
  let start ← (← h.getSlot slot preEncrypt)
  BlobCore.contains cd start h.hashSize

/-- The walk over the scatter vector up to its sentinel, from the element at `scatter` on. An
element takes `sizeof(Scatter)` octets, so a walk that stays inside ends before its fuel does. -/
def scatterPages (cd : List UInt8) : Nat → Nat → Nat → Option (Except CSError Nat)
  | 0, _, _ => none
  | fuel + 1, scatter, pagesConsumed => do
    if !(← BlobCore.contains cd scatter 24) then
      return .error .errSecCSSignatureFailed
    let count ← loadBE cd scatter 4
    if count = 0 then
      return .ok pagesConsumed
    scatterPages cd fuel (scatter + 24) ((pagesConsumed + count) % 2 ^ 32)

def checkScatter (cd : List UInt8) (h : Header) : Option Bool :=
  match h.scatterVector with
  | none => some true
  | some scatter => do
    match ← scatterPages cd cd.length scatter 0 with
    | .error _ => return false
    | .ok pagesConsumed =>
      -- `pagesConsumed - 1` is unsigned, and passed as a `Slot`
      let slot := toSlot (pagesConsumed - 1)
      if !(← containsSlot cd h slot false) then
        return false
      if h.hasPreEncryptHashes then
        containsSlot cd h slot true
      else
        return true

def checkTeamID (cd : List UInt8) (h : Header) : Option Bool :=
  match h.teamID with
  | none => some true
  | some teamID => do return (← BlobCore.stringAt cd teamID).isSome

def checkOffsets (cd : List UInt8) (h : Header) : Option Bool := do
  if !(← BlobCore.stringAt cd h.identOffset).isSome then
    return false
  if !(← checkTeamID cd h) then
    return false
  if !(← BlobCore.contains cd (h.hashOffset - h.hashSize * h.nSpecialSlots)
      (h.hashSize * (h.nSpecialSlots + h.nCodeSlots))) then
    return false
  if h.hasPreEncryptHashes then
    BlobCore.contains cd h.preEncryptOffset (h.hashSize * h.nCodeSlots)
  else
    return true

/-- The check on the fields that say what pages the hashes cover. The shift of a 64-bit number
takes the distance modulo 64. -/
def checkCoverage (h : Header) : Bool :=
  let limit := h.signingLimit
  if h.pageSize ≠ 0 then
    limit ≠ 0 ∧ (limit - 1) >>> (h.pageSize % 64) + 1 = h.nCodeSlots
  else
    h.nCodeSlots = if limit > 0 then 1 else 0

def checkIntegrity (cd : List UInt8) : Option (Except CSError Unit) := do
  if !(← BlobCore.validateBlob cd typeMagic size 0) then
    return .error .errSecCSSignatureInvalid
  let h ← header cd
  if h.version > compatibilityLimit then
    return .error .errSecCSSignatureUnsupported
  if h.version < earliestVersion then
    return .error .errSecCSSignatureUnsupported
  if !(← checkOffsets cd h) then
    return .error .errSecCSSignatureFailed
  if !(← checkScatter cd h) then
    return .error .errSecCSSignatureFailed
  if !checkCoverage h then
    return .error .errSecCSSignatureFailed
  return .ok ()

def digestLength : Nat → Option Nat
  | 1 => some 20
  | 2 => some 32
  | 3 => some 20
  | 4 => some 48
  | _ => none
end CodeDirectory
end SecurityFramework
