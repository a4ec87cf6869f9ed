import SecurityFramework.Library.Memory
import SecurityFramework.Trustd.SecCertificate

/-!
# Normalised names

A name is copied element by element into a buffer of its size.
-/

namespace SecurityFramework.Trustd
open DER

def ASN1_OBJECT_ID : Tag := ⟨.universal, false, 6⟩

def ASN1_PRINTABLE_STRING : Tag := ⟨.universal, false, 19⟩

inductive Abort
  | null | outside
  deriving DecidableEq, Repr

namespace Abort
def require (condition : Bool) : Except Abort Unit :=
  if condition then .ok () else .error .null

def noErr {α : Type} : Except DERFailure α → Except Abort α
  | .ok value => .ok value
  | .error _ => .error .null

def access {α : Type} : Option α → Except Abort α
  | some value => .ok value
  | none => .error .outside
end Abort

open Abort

def isblank (ch : UInt8) : Bool := ch = 0x20 || ch = 0x09

def upperCase (ch : UInt8) : UInt8 := if 0x61 ≤ ch ∧ ch ≤ 0x7A then ch + 0x41 - 0x61 else ch

structure ValueCopy where
  base : List UInt8
  valueCurrentLocation : Nat
  lastWasBlank : Bool

def ValueCopy.put (copy : ValueCopy) (ch : UInt8) (isBlank : Bool) : Except Abort ValueCopy := do
  let base ← access (Memory.store copy.base copy.valueCurrentLocation [ch])
  pure ⟨base, copy.valueCurrentLocation + 1, isBlank⟩

def copyOctet (valueLocation : Nat) (copy : ValueCopy) (ch : UInt8) : Except Abort ValueCopy :=
  if isblank ch then
    if copy.lastWasBlank then pure copy
    else if copy.valueCurrentLocation > valueLocation then copy.put 0x20 true
    else pure { copy with lastWasBlank := true }
  else copy.put (upperCase ch) false

def copyValue (base : List UInt8) (valueLocation : Nat) (content : DERItem) :
    Except Abort (List UInt8 × Nat) := do
  let copy ← content.foldlM (copyOctet valueLocation) ⟨base, valueLocation, false⟩
  let valueCurrentLocation :=
    if copy.lastWasBlank ∧ copy.valueCurrentLocation > valueLocation then
      copy.valueCurrentLocation - 1
    else copy.valueCurrentLocation
  pure (copy.base, valueCurrentLocation - valueLocation)

def memmove (base : List UInt8) (dst src len : Nat) : Except Abort (List UInt8) := do
  let octets ← access (Memory.load base src len)
  access (Memory.store base dst octets)

variable (der : LibDER)

def DEREncodeLength (length room : Nat) : Except DERFailure DERItem := do
  let octets ← der.encodeLength length
  if octets.length ≤ room then pure octets else throw ⟨.DR_BufOverflow, by decide⟩

/-- One of the three steps that fix up a length: that of the item at the tag's location, whose tag
and length took so many octets. The result has how many they take now. -/
def fixUpLength (base : List UInt8) (tagLocation tlLength contentLength : Nat) :
    Except Abort (List UInt8 × Nat) := do
  let octets ← noErr (DEREncodeLength der contentLength (tlLength - 1))
  let base ← access (Memory.store base (tagLocation + 1) octets)
  let newTLLength := octets.length + 1
  if tlLength - newTLLength ≠ 0 then
    let base ← memmove base (tagLocation + newTLLength) (tagLocation + tlLength) contentLength
    pure (base, newTLLength)
  else pure (base, tlLength)

structure RDNCopy where
  base : List UInt8
  rdnTLLength : Nat
  rdnContentLength : Nat
  atvTagLocation : Nat

def shortenATV (rdnTagLocation atvTLLength atvContentLength valueTagLocation valueTLLength
    valueContentLength lengthDiff : Nat) (copy : RDNCopy) : Except Abort RDNCopy := do
  let (base, newValueTLLength) ←
    fixUpLength der copy.base valueTagLocation valueTLLength valueContentLength
  let lengthDiff := lengthDiff + (valueTLLength - newValueTLLength)
  let atvContentLength := atvContentLength - lengthDiff
  let (base, newATVTLLength) ←
    fixUpLength der base copy.atvTagLocation atvTLLength atvContentLength
  let lengthDiff := lengthDiff + (atvTLLength - newATVTLLength)
  let rdnContentLength := copy.rdnContentLength - lengthDiff
  let (base, newRDNTLLength) ←
    fixUpLength der base rdnTagLocation copy.rdnTLLength rdnContentLength
  let atvTagLocation := copy.atvTagLocation - (copy.rdnTLLength - newRDNTLLength)
  pure ⟨base, newRDNTLLength, rdnContentLength,
    atvTagLocation + (newATVTLLength + atvContentLength)⟩

def normalizeATV (rdnTagLocation atvTLLength atvContentLength : Nat) (atvValue : DERItem)
    (value : DERDecodedInfo) (copy : RDNCopy) : Except Abort RDNCopy :=
  let atvTagLocation := copy.atvTagLocation + (atvTLLength + atvContentLength)
  if value.tag = ASN1_PRINTABLE_STRING then do
    let valueTagLocation := copy.atvTagLocation + (atvTLLength + (atvContentLength - atvValue.length))
    require (0 < valueTagLocation)
    let valueTLLength := atvValue.length - value.content.length - value.rest.length
    require (0 < valueTLLength)
    let (base, valueContentLength) ←
      copyValue copy.base (valueTagLocation + valueTLLength) value.content
    let lengthDiff := value.content.length - valueContentLength
    if lengthDiff = 0 then pure { copy with base, atvTagLocation }
    else
      shortenATV der rdnTagLocation atvTLLength atvContentLength valueTagLocation valueTLLength
        valueContentLength lengthDiff { copy with base }
  else pure { copy with atvTagLocation }

def copyATV (rdnTagLocation : Nat) (atvTag : DERItem) (atv : DERDecodedInfo) (copy : RDNCopy) :
    Except Abort RDNCopy := do
  require (atv.tag = ASN1_CONSTR_SEQUENCE)
  let atvTLLength := atvTag.length - atv.content.length - atv.rest.length
  require (0 < atvTLLength)
  let base ← access <|
    Memory.store copy.base copy.atvTagLocation (atvTag.take (atvTLLength + atv.content.length))
  let atvPair ← noErr (der.parseAttributeTypeAndValue atv.content)
  require (atvPair.type.length ≠ 0)
  let value ← noErr (der.decodeItem atvPair.value)
  normalizeATV der rdnTagLocation atvTLLength atv.content.length atvPair.value value
    { copy with base }

def copyATVs (rdnTagLocation : Nat) :
    DERItem → List DERDecodedInfo → RDNCopy → Except Abort RDNCopy
  | _, [], copy => pure copy
  | atvTag, atv :: atvs, copy => do
    let copy ← copyATV der rdnTagLocation atvTag atv copy
    copyATVs rdnTagLocation atv.rest atvs copy

def copyRDN (rdnTag : DERItem) (rdn : DERDecodedInfo) (base : List UInt8) (rdnTagLocation : Nat) :
    Except Abort (List UInt8 × Nat) := do
  require (rdn.tag = ASN1_CONSTR_SET)
  require (rdn.content.length ≠ 0)
  let rdnTLLength := rdnTag.length - rdn.content.length - rdn.rest.length
  require (0 < rdnTLLength)
  let base ← access (Memory.store base rdnTagLocation (rdnTag.take rdnTLLength))
  let atvSeq ← noErr (der.decodeSeqContent rdn.content)
  let copy ← copyATVs der rdnTagLocation rdn.content atvSeq.items
    ⟨base, rdnTLLength, rdn.content.length, rdnTagLocation + rdnTLLength⟩
  require (atvSeq.drtn = .DR_EndOfSequence)
  pure (copy.base, rdnTagLocation + (copy.rdnTLLength + copy.rdnContentLength))

def copyRDNs : DERItem → List DERDecodedInfo → List UInt8 → Nat → Except Abort (List UInt8 × Nat)
  | _, [], base, rdnTagLocation => pure (base, rdnTagLocation)
  | rdnTag, rdn :: rdns, base, rdnTagLocation => do
    let (base, rdnTagLocation) ← copyRDN der rdnTag rdn base rdnTagLocation
    copyRDNs rdn.rest rdns base rdnTagLocation

def createNormalizedX501Name (x501name : DERItem) : Except Abort DERItem := do
  require (x501name.length ≤ LONG_MAX)
  let rdnSeq ← noErr (der.decodeSeqContent x501name)
  let (base, rdnTagLocation) ←
    copyRDNs der x501name rdnSeq.items (List.replicate x501name.length 0) 0
  require (rdnSeq.drtn = .DR_EndOfSequence)
  require (rdnTagLocation < LONG_MAX)
  pure (base.take rdnTagLocation)

def SecDistinguishedNameCopyNormalizedContent (distinguished_name : DERItem) :
    Except Abort DERItem := do
  let content ← noErr (der.decodeItem distinguished_name)
  require (content.tag = ASN1_CONSTR_SEQUENCE)
  createNormalizedX501Name der content.content

def SecDistinguishedNameCopyNormalizedSequence (distinguished_name : DERItem) :
    Except Abort DERItem := do
  let normalizedContent ← SecDistinguishedNameCopyNormalizedContent der distinguished_name
  match SecDERItemCopySequence der normalizedContent with
  | some sequence => pure sequence
  | none => throw .null
end SecurityFramework.Trustd
