import SecurityFramework.Library.DerStandard

/-!
# The DER decoder

The decoder lies outside of the sources. This is what its callers see of it: the tag and the
contents of an item, the items of a sequence with the status that ends them, and the fields that
the tables of item specifications pick out.
-/

namespace SecurityFramework.Trustd
open DER

inductive DERReturn
  | DR_Success | DR_EndOfSequence | DR_UnexpectedTag | DR_DecodeError | DR_Unimplemented
  | DR_IncompleteSeq | DR_ParamErr | DR_BufOverflow
  deriving DecidableEq, Repr

def LONG_MAX : Nat := 2 ^ 63 - 1

abbrev DERFailure := { drtn : DERReturn // drtn ≠ .DR_Success }

abbrev DERItem := List UInt8

structure DERDecodedInfo where
  tag : Tag
  content : DERItem
  rest : DERItem
  deriving DecidableEq

/-- What `DERDecodeSeqNext` yields until its status is no longer `DR_Success`. -/
structure DERSequence where
  items : List DERDecodedInfo
  drtn : DERReturn
  drtn_ne : drtn ≠ .DR_Success

structure DERNameConstraints where
  permittedSubtrees : DERItem
  excludedSubtrees : DERItem
  deriving DecidableEq

/-- An optional field is `none` when it is absent; its item then has no octets. -/
structure DERGeneralSubtree where
  generalName : DERItem
  minimum : Option DERItem
  maximum : Option DERItem
  deriving DecidableEq

structure DERAttributeTypeAndValue where
  type : DERItem
  value : DERItem

structure LibDER where
  decodeItem : DERItem → Except DERFailure DERDecodedInfo
  decodeSeqContent : DERItem → Except DERFailure DERSequence
  parseNameConstraints : DERItem → Except DERFailure DERNameConstraints
  parseGeneralSubtree : DERItem → Except DERFailure DERGeneralSubtree
  parseAttributeTypeAndValue : DERItem → Except DERFailure DERAttributeTypeAndValue
  parseInteger : DERItem → Except DERFailure UInt32
  encodeLength : Nat → Except DERFailure DERItem
  oidEmailAddress : DERItem

def ASN1_CONSTR_SEQUENCE : Tag := ⟨.universal, true, 16⟩

def ASN1_CONSTR_SET : Tag := ⟨.universal, true, 17⟩

def ASN1_IA5_STRING : Tag := ⟨.universal, false, 22⟩

def ASN1_CONTEXT_SPECIFIC (n : Nat) : Tag := ⟨.contextSpecific, false, n⟩

def ASN1_CONTEXT_CONSTRUCTED (n : Nat) : Tag := ⟨.contextSpecific, true, n⟩

namespace LibDER
def decodeError : DERFailure := ⟨.DR_DecodeError, by decide⟩

def readItem (octets : DERItem) : Option DERDecodedInfo :=
  (Standard.decodeTag octets).bind fun tagged =>
    (Standard.decodeLen tagged.2).map fun sized =>
      ⟨tagged.1, sized.2.take sized.1, sized.2.drop sized.1⟩

def toFallible {α : Type} : Option α → Except DERFailure α
  | some value => .ok value
  | none => .error decodeError

/-- The items at the head of the octets, and whether they use up all of them. Every item takes an
octet at least, so there are no more items than octets. -/
def readItems : Nat → DERItem → List DERDecodedInfo × Bool
  | _, [] => ([], true)
  | 0, _ :: _ => ([], false)
  | fuel + 1, octet :: octets =>
    match readItem (octet :: octets) with
    | none => ([], false)
    | some item => ((item :: (readItems fuel item.rest).1), (readItems fuel item.rest).2)

def readSequence (octets : DERItem) : DERSequence where
  items := (readItems octets.length octets).1
  drtn := if (readItems octets.length octets).2 then .DR_EndOfSequence else .DR_DecodeError
  drtn_ne := by split <;> decide

def readWhole (octets : DERItem) : Option (List DERDecodedInfo) :=
  if (readItems octets.length octets).2 then some (readItems octets.length octets).1 else none

def field (tag : Tag) (items : List DERDecodedInfo) : Option DERItem :=
  (items.find? fun item => item.tag = tag).map DERDecodedInfo.content

def readNameConstraints (octets : DERItem) : Option DERNameConstraints :=
  (readItem octets).bind fun item =>
    (readWhole item.content).map fun items =>
      ⟨(field (ASN1_CONTEXT_CONSTRUCTED 0) items).getD [],
        (field (ASN1_CONTEXT_CONSTRUCTED 1) items).getD []⟩

/-- The base is the whole first item. No memory holds `LONG_MAX` octets. -/
def readGeneralSubtree (octets : DERItem) : Option DERGeneralSubtree :=
  if LONG_MAX ≤ octets.length then none
  else
    match readWhole octets with
    | some (base :: items) =>
      some ⟨octets.take (octets.length - base.rest.length),
        field (ASN1_CONTEXT_SPECIFIC 0) items, field (ASN1_CONTEXT_SPECIFIC 1) items⟩
    | _ => none

def readAttributeTypeAndValue (octets : DERItem) : Option DERAttributeTypeAndValue :=
  match readWhole octets with
  | some [type, _] => some ⟨type.content, type.rest⟩
  | _ => none

def readInteger (octets : DERItem) : Option UInt32 :=
  if 0 < octets.length ∧ octets.length ≤ 4 then some (UInt32.ofNat (Standard.ofBigEndian octets))
  else none

def sample : LibDER where
  decodeItem octets := toFallible (readItem octets)
  decodeSeqContent octets := .ok (readSequence octets)
  parseNameConstraints octets := toFallible (readNameConstraints octets)
  parseGeneralSubtree octets := toFallible (readGeneralSubtree octets)
  parseAttributeTypeAndValue octets := toFallible (readAttributeTypeAndValue octets)
  parseInteger octets := toFallible (readInteger octets)
  encodeLength len := .ok (Standard.encodeLen len)
  oidEmailAddress := [0x2A, 0x86, 0x48, 0x86, 0xF7, 0x0D, 0x01, 0x09, 0x01]

theorem rest_readItem {octets : DERItem} {item : DERDecodedInfo} (h : readItem octets = some item) :
    item.rest.length < octets.length := by
  rcases Option.bind_eq_some_iff.mp h with ⟨⟨tag, afterTag⟩, htag, h⟩
  rcases Option.map_eq_some_iff.mp h with ⟨⟨len, afterLen⟩, hlen, rfl⟩
  rcases Standard.primitives_correct.decodeTag_reads octets tag afterTag htag with
    ⟨head, hhead, rfl, -⟩
  rcases (Standard.primitives_correct.decodeLen_reads afterTag len afterLen hlen).2 with
    ⟨head', -, rfl, -⟩
  have hpos := List.length_pos_iff.mpr hhead
  simp only [List.length_drop, List.length_append]
  omega

theorem readItems_cons {fuel : Nat} {octets : DERItem} {item : DERDecodedInfo}
    {items : List DERDecodedInfo} (h : (readItems fuel octets).1 = item :: items) :
    readItem octets = some item := by
  cases octets with
  | nil => simp [readItems] at h
  | cons octet octets =>
    cases fuel with
    | zero => simp [readItems] at h
    | succ fuel =>
      rw [readItems] at h
      cases hread : readItem (octet :: octets) with
      | none => simp [hread] at h
      | some first =>
        simp only [hread, List.cons.injEq] at h
        rw [h.1]
end LibDER
end SecurityFramework.Trustd
