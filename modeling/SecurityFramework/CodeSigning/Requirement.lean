import SecurityFramework.CodeSigning.CodeDirectory
import SecurityFramework.Library.Scanner
import SecurityFramework.Utilities.DerPlist

/-!
# Requirements

A requirement is a blob that holds a program in prefix form.
-/

namespace SecurityFramework
open Memory Scanner

abbrev OSStatus := Int

def errSecCSReqInvalid : OSStatus := -67052

def errSecCSReqUnsupported : OSStatus := -67051

def errSecCSUnimplemented : OSStatus := -67072

namespace Requirement
def ascii (s : String) : List UInt8 := s.toList.map fun c => UInt8.ofNat c.toNat

def size : Nat := 12

def typeMagic : Nat := 0xfade0c00

def exprForm : Nat := 1

def baseAlignment : Nat := 4

def leafCert : Int := 0

def anchorCert : Int := -1

def opFlagMask : Nat := 0xff000000

def opGenericFalse : Nat := 0x80000000

def opGenericSkip : Nat := 0x40000000

inductive ExprOp where
  | opFalse
  | opTrue
  | opIdent
  | opAppleAnchor
  | opAnchorHash
  | opInfoKeyValue
  | opAnd
  | opOr
  | opCDHash
  | opNot
  | opInfoKeyField
  | opCertField
  | opTrustedCert
  | opTrustedCerts
  | opCertGeneric
  | opAppleGenericAnchor
  | opEntitlementField
  | opCertPolicy
  | opNamedAnchor
  | opNamedCode
  | opPlatform
  | opNotarized
  | opCertFieldDate
  | opLegacyDevID
deriving DecidableEq

namespace ExprOp
def values : List ExprOp :=
  [opFalse, opTrue, opIdent, opAppleAnchor, opAnchorHash, opInfoKeyValue, opAnd, opOr, opCDHash,
    opNot, opInfoKeyField, opCertField, opTrustedCert, opTrustedCerts, opCertGeneric,
    opAppleGenericAnchor, opEntitlementField, opCertPolicy, opNamedAnchor, opNamedCode, opPlatform,
    opNotarized, opCertFieldDate, opLegacyDevID]

/-- The opcode of an operator word, whose high byte holds flags. -/
def ofWord (op : Nat) : Option ExprOp := values[op &&& (2 ^ 32 - 1 - opFlagMask)]?
end ExprOp

inductive MatchOperation where
  | matchExists
  | matchEqual
  | matchContains
  | matchBeginsWith
  | matchEndsWith
  | matchLessThan
  | matchGreaterThan
  | matchLessEqual
  | matchGreaterEqual
  | matchOn
  | matchBefore
  | matchAfter
  | matchOnOrBefore
  | matchOnOrAfter
  | matchAbsent
deriving DecidableEq

namespace MatchOperation
def values : List MatchOperation :=
  [matchExists, matchEqual, matchContains, matchBeginsWith, matchEndsWith, matchLessThan,
    matchGreaterThan, matchLessEqual, matchGreaterEqual, matchOn, matchBefore, matchAfter,
    matchOnOrBefore, matchOnOrAfter, matchAbsent]

def ofWord (op : Nat) : Option MatchOperation := values[op]?
end MatchOperation

def kind (req : List UInt8) : Option Nat := loadBE req 8 4

def alignUp (size alignment : Nat) : Nat :=
  ((size + (2 ^ 64 - 1)) % 2 ^ 64 / alignment * alignment + alignment) % 2 ^ 64

namespace Reader
variable (req : List UInt8)

/-- `mPC + length` is a `size_t`, which does not wrap. -/
def checkSize (length : Nat) : Scan OSStatus Unit := do
  let mPC ← MonadState.get
  let reqLength ← defined (BlobCore.length req)
  if mPC + length > reqLength then
    throw errSecCSReqInvalid

def get (width : Nat) : Scan OSStatus Nat := do
  checkSize req width
  let mPC ← MonadState.get
  let value ← defined (loadBE req mPC width)
  set ((mPC + width) % 2 ^ 32)
  return value

def getInt32 : Scan OSStatus Int := do
  let value ← get req 4
  return CodeDirectory.toSlot value

def getInt64 : Scan OSStatus Int := do
  let value ← get req 8
  return ((value : Int) + 2 ^ 63) % 2 ^ 64 - 2 ^ 63

def getData : Scan OSStatus (List UInt8) := do
  let length ← get req 4
  checkSize req length
  let mPC ← MonadState.get
  let data ← defined (load req mPC length)
  set ((mPC + alignUp length baseAlignment) % 2 ^ 32)
  return data

def getString : Scan OSStatus (List UInt8) := getData req

def getHash : Scan OSStatus (List UInt8) := getData req

def getSHA1 : Scan OSStatus (List UInt8) := do
  let digest ← getData req
  if digest.length ≠ 20 then
    throw errSecCSReqInvalid
  return digest

def skip (length : Nat) : Scan OSStatus Unit := do
  checkSize req length
  let mPC ← MonadState.get
  set ((mPC + length) % 2 ^ 32)
end Reader

section Operands

variable (req : List UInt8)

def NumberAt (width start value stop : Nat) : Prop :=
  loadBE req start width = some value ∧ stop = start + width ∧ stop ≤ BlobCore.extent req

structure DataAt (start : Nat) (data : List UInt8) (stop : Nat) : Prop where
  count : NumberAt req 4 start data.length (start + 4)
  octets : load req (start + 4) data.length = some data
  inside : start + 4 + data.length ≤ BlobCore.extent req
  stop_eq : stop = start + 4 + (data.length + 3) / 4 * 4
  stop_lt : stop < 2 ^ 32

structure SizedAt (start length stop : Nat) : Prop where
  count : NumberAt req 4 start length (start + 4)
  stop_eq : stop = start + 4 + length
  inside : stop ≤ BlobCore.extent req
end Operands

theorem alignUp_baseAlignment {size : Nat} (hlt : size < 2 ^ 32) :
    alignUp size baseAlignment = (size + 3) / 4 * 4 := by
  unfold alignUp baseAlignment
  omega

section Spec

variable {req : List UInt8} {width start stop value : Nat}

theorem NumberAt.length_eq (h : NumberAt req width start value stop) (hwidth : 0 < width) :
    BlobCore.length req = some (BlobCore.extent req) := by
  obtain ⟨-, hstop, hinside⟩ := h
  cases hlength : BlobCore.length req with
  | none =>
    simp only [BlobCore.extent, hlength, Option.getD_none] at hinside
    omega
  | some len => simp [BlobCore.extent, hlength]

theorem reads_checkSize {length : Nat} (hlength : BlobCore.length req = some (BlobCore.extent req))
    (hinside : start + length ≤ BlobCore.extent req) :
    Reads (Reader.checkSize req length) start () start := by
  apply (reads_position start).followed
  apply (reads_defined start hlength).followed
  rw [if_neg (by omega)]
  rfl

theorem reads_get (h : NumberAt req width start value stop) (hwidth : 0 < width) :
    Reads (Reader.get req width) start value stop := by
  have hlength := h.length_eq hwidth
  obtain ⟨hload, rfl, hinside⟩ := h
  have hlt := BlobCore.extent_lt_two_pow req
  apply (reads_checkSize hlength hinside).followed
  apply (reads_position start).followed
  apply (reads_defined start hload).followed
  rw [Nat.mod_eq_of_lt (by omega)]
  exact (reads_seek start (start + width)).followed rfl

theorem reads_getInt32 (h : NumberAt req 4 start value stop) :
    Reads (Reader.getInt32 req) start (CodeDirectory.toSlot value) stop :=
  (reads_get h (by decide)).followed rfl

theorem reads_getInt64 (h : NumberAt req 8 start value stop) :
    Reads (Reader.getInt64 req) start (((value : Int) + 2 ^ 63) % 2 ^ 64 - 2 ^ 63) stop :=
  (reads_get h (by decide)).followed rfl

theorem reads_getData {data : List UInt8} (h : DataAt req start data stop) :
    Reads (Reader.getData req) start data stop := by
  have hlength := h.count.length_eq (by decide)
  have hlt := BlobCore.extent_lt_two_pow req
  have hinside := h.inside
  have hstop := h.stop_eq
  have hstopLt := h.stop_lt
  apply (reads_get h.count (by decide)).followed
  apply (reads_checkSize hlength hinside).followed
  apply (reads_position (start + 4)).followed
  apply (reads_defined (start + 4) h.octets).followed
  rw [alignUp_baseAlignment (by omega), ← hstop, Nat.mod_eq_of_lt hstopLt]
  exact (reads_seek (start + 4) stop).followed rfl

theorem reads_getSHA1 {digest : List UInt8} (h : DataAt req start digest stop)
    (hdigest : digest.length = 20) : Reads (Reader.getSHA1 req) start digest stop := by
  apply (reads_getData h).followed
  rw [if_neg (by simpa using hdigest)]
  rfl

theorem reads_skip {length : Nat} (hlength : BlobCore.length req = some (BlobCore.extent req))
    (hinside : start + length ≤ BlobCore.extent req) :
    Reads (Reader.skip req length) start () (start + length) := by
  have hlt := BlobCore.extent_lt_two_pow req
  apply (reads_checkSize hlength hinside).followed
  apply (reads_position start).followed
  rw [Nat.mod_eq_of_lt (by omega)]
  exact reads_seek start (start + length)

theorem DataAt.lt {data : List UInt8} (h : DataAt req start data stop) : start + 4 ≤ stop := by
  have hstop := h.stop_eq
  omega
end Spec
end Requirement
end SecurityFramework
