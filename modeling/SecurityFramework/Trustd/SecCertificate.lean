import SecurityFramework.Trustd.LibDER
import SecurityFramework.Utilities.DerString

/-! # Names and name constraints of certificates -/

namespace SecurityFramework.Trustd
open DER

abbrev OSStatus := Int

def errSecSuccess : OSStatus := 0

def errSecInvalidCertificate : OSStatus := -26275

inductive SecCEGeneralNameType
  | GNT_OtherName | GNT_RFC822Name | GNT_DNSName | GNT_X400Address | GNT_DirectoryName
  | GNT_EdiPartyName | GNT_URI | GNT_IPAddress | GNT_RegisteredID
  deriving DecidableEq, Repr

open SecCEGeneralNameType

/-- `extnValue` of the subject alternative name and the subtrees of the name constraints are kept
apart from the other extensions; the subject is the contents of its sequence. -/
structure SecCertificate where
  subject : DERItem
  subjectAltName : Option DERItem
  permittedSubtrees : Option (List DERItem)
  excludedSubtrees : Option (List DERItem)

/-- The contents of a DER value as a string, `copyDERThingContentDescription` without
`printableOnly`. -/
abbrev ContentDescription := Tag → DERItem → Option CFString

section
variable (der : LibDER)

def whileSuccess {σ : Type} (handle : DERDecodedInfo → σ → OSStatus × σ) :
    List DERDecodedInfo → σ → OSStatus × σ
  | [], context => (errSecSuccess, context)
  | item :: items, context =>
    if (handle item context).1 = errSecSuccess then
      whileSuccess handle items (handle item context).2
    else handle item context

def walkSequence {σ : Type} (handle : DERDecodedInfo → σ → OSStatus × σ) (content : DERItem)
    (context : σ) : OSStatus × σ :=
  match der.decodeSeqContent content with
  | .error _ => (errSecInvalidCertificate, context)
  | .ok derSeq =>
    if (whileSuccess handle derSeq.items context).1 = errSecSuccess then
      if derSeq.drtn = .DR_EndOfSequence then whileSuccess handle derSeq.items context
      else (errSecInvalidCertificate, (whileSuccess handle derSeq.items context).2)
    else whileSuccess handle derSeq.items context

abbrev ParseGeneralNameCallback (σ : Type) :=
  SecCEGeneralNameType → DERItem → σ → OSStatus × σ

def SecCertificateParseGeneralNameContentProperty {σ : Type} (tag : Tag)
    (generalNameContent : DERItem) (context : σ) (callback : ParseGeneralNameCallback σ) :
    OSStatus × σ :=
  if tag = ASN1_CONTEXT_CONSTRUCTED 0 then callback GNT_OtherName generalNameContent context
  else if tag = ASN1_CONTEXT_SPECIFIC 1 then callback GNT_RFC822Name generalNameContent context
  else if tag = ASN1_CONTEXT_SPECIFIC 2 then callback GNT_DNSName generalNameContent context
  else if tag = ASN1_CONTEXT_CONSTRUCTED 3 then callback GNT_X400Address generalNameContent context
  else if tag = ASN1_CONTEXT_CONSTRUCTED 4 then
    callback GNT_DirectoryName generalNameContent context
  else if tag = ASN1_CONTEXT_CONSTRUCTED 5 then
    callback GNT_EdiPartyName generalNameContent context
  else if tag = ASN1_CONTEXT_CONSTRUCTED 6 then
    match der.decodeItem generalNameContent with
    | .error _ => (errSecInvalidCertificate, context)
    | .ok uriContent =>
      if uriContent.tag = ASN1_IA5_STRING then callback GNT_URI uriContent.content context
      else (errSecInvalidCertificate, context)
  else if tag = ASN1_CONTEXT_SPECIFIC 6 then callback GNT_URI generalNameContent context
  else if tag = ASN1_CONTEXT_SPECIFIC 7 then callback GNT_IPAddress generalNameContent context
  else if tag = ASN1_CONTEXT_SPECIFIC 8 then callback GNT_RegisteredID generalNameContent context
  else (errSecInvalidCertificate, context)

def parseGeneralNamesContent {σ : Type} (generalNamesContent : DERItem) (context : σ)
    (callback : ParseGeneralNameCallback σ) : OSStatus × σ :=
  walkSequence der (fun item context =>
    SecCertificateParseGeneralNameContentProperty der item.tag item.content context callback)
    generalNamesContent context

def SecCertificateParseGeneralNames {σ : Type} (generalNames : DERItem) (context : σ)
    (callback : ParseGeneralNameCallback σ) : OSStatus × σ :=
  match der.decodeItem generalNames with
  | .error _ => (errSecInvalidCertificate, context)
  | .ok generalNamesContent =>
    if generalNamesContent.tag = ASN1_CONSTR_SEQUENCE ∧ 0 < generalNamesContent.content.length then
      parseGeneralNamesContent der generalNamesContent.content context callback
    else (errSecInvalidCertificate, context)

def MAX_ATTRIBUTE_TYPE_AND_VALUES : Nat := 1024

abbrev ParseX501NameCallback (σ : Type) := DERItem → DERItem → σ → OSStatus × σ

def parseRDNContent {σ : Type} (rdnSetContent : DERItem) (context : σ)
    (callback : ParseX501NameCallback σ) : OSStatus × σ :=
  walkSequence der (fun atvContent context =>
    if atvContent.tag = ASN1_CONSTR_SEQUENCE then
      match der.parseAttributeTypeAndValue atvContent.content with
      | .error _ => (errSecInvalidCertificate, context)
      | .ok atv =>
        if atv.type.length ≠ 0 then callback atv.type atv.value context
        else (errSecInvalidCertificate, context)
    else (errSecInvalidCertificate, context)) rdnSetContent context

def parseRDN {σ : Type} (callback : ParseX501NameCallback σ) (currDecoded : DERDecodedInfo)
    (context : Nat × σ) : OSStatus × (Nat × σ) :=
  if currDecoded.tag = ASN1_CONSTR_SET ∧ 0 < currDecoded.content.length then
    if (parseRDNContent der currDecoded.content context.2 callback).1 = errSecSuccess then
      (if context.1 + 1 < MAX_ATTRIBUTE_TYPE_AND_VALUES then errSecSuccess
        else errSecInvalidCertificate,
        context.1 + 1, (parseRDNContent der currDecoded.content context.2 callback).2)
    else
      ((parseRDNContent der currDecoded.content context.2 callback).1,
        context.1, (parseRDNContent der currDecoded.content context.2 callback).2)
  else (errSecInvalidCertificate, context)

def parseX501NameContent {σ : Type} (x501NameContent : DERItem) (context : σ)
    (callback : ParseX501NameCallback σ) : OSStatus × σ :=
  ((walkSequence der (parseRDN der callback) x501NameContent (0, context)).1,
    (walkSequence der (parseRDN der callback) x501NameContent (0, context)).2.2)

def copyDERThingDescription (describe : ContentDescription) (derThing : DERItem) :
    Option CFString :=
  match der.decodeItem derThing with
  | .error _ => none
  | .ok decoded => describe decoded.tag decoded.content

def appendRFC822NamesFromX501Name (describe : ContentDescription) (type value : DERItem)
    (rfc822Names : List CFString) : OSStatus × List CFString :=
  if type = der.oidEmailAddress then
    match copyDERThingDescription der describe value with
    | none => (errSecInvalidCertificate, rfc822Names)
    | some string => (errSecSuccess, rfc822Names ++ [string])
  else (errSecSuccess, rfc822Names)

def SecCertificateCopyRFC822NamesFromSubject (describe : ContentDescription)
    (certificate : SecCertificate) : Option (List CFString) :=
  let parsed := parseX501NameContent der certificate.subject []
    (appendRFC822NamesFromX501Name der describe)
  if parsed.1 ≠ errSecSuccess ∨ parsed.2.length = 0 then none else some parsed.2

def SecDERItemCopySequence (content : DERItem) : Option DERItem :=
  match der.encodeLength content.length with
  | .error _ => none
  | .ok len =>
    if LONG_MAX < 1 + len.length + content.length then none else some (0x30 :: (len ++ content))

def SecCertificateCopySubjectSequence (certificate : SecCertificate) : Option DERItem :=
  SecDERItemCopySequence der certificate.subject

def itemOctets (item : Option DERItem) : DERItem := item.getD []

/-- One round of the loop over the subtrees: the base that is kept, or the status with which the
loop leaves through `badDER`, which a failed `require_quiet` has not touched. -/
def parseGeneralSubtree (gsContent : DERDecodedInfo) : Except DERReturn DERItem :=
  if gsContent.tag = ASN1_CONSTR_SEQUENCE then
    match der.parseGeneralSubtree gsContent.content with
    | .error drtn => .error drtn
    | .ok derGS =>
      if (itemOctets derGS.minimum).length ≠ 0 ∧
          der.parseInteger (itemOctets derGS.minimum) ≠ .ok 0 then .error .DR_Success
      else if (itemOctets derGS.maximum).length ≠ 0 then .error .DR_Success
      else if derGS.generalName.length ≠ 0 ∧ derGS.generalName.length < LONG_MAX then
        .ok derGS.generalName
      else .error .DR_Success
  else .error .DR_Success

def parseGeneralSubtrees (derSubtrees : DERItem) (generalSubtrees : Option (List DERItem)) :
    DERReturn × Option (List DERItem) :=
  match der.decodeSeqContent derSubtrees with
  | .error drtn => (drtn, generalSubtrees)
  | .ok gsSeq =>
    match gsSeq.items.mapM (parseGeneralSubtree der) with
    | .error drtn => (drtn, generalSubtrees)
    | .ok gs =>
      if gsSeq.drtn = .DR_EndOfSequence then (.DR_Success, some gs)
      else (gsSeq.drtn, generalSubtrees)

def parsePresentSubtrees (derSubtrees : DERItem) (generalSubtrees : Option (List DERItem)) :
    DERReturn × Option (List DERItem) :=
  if derSubtrees.length ≠ 0 then parseGeneralSubtrees der derSubtrees generalSubtrees
  else (.DR_Success, generalSubtrees)

def SecCEPNameConstraints (certificate : SecCertificate) (extnValue : DERItem) :
    Bool × SecCertificate :=
  match der.parseNameConstraints extnValue with
  | .error _ => (false, certificate)
  | .ok nc =>
    let permitted := parsePresentSubtrees der nc.permittedSubtrees certificate.permittedSubtrees
    let certificate := { certificate with permittedSubtrees := permitted.2 }
    if permitted.1 ≠ .DR_Success then (false, certificate)
    else
      let excluded := parsePresentSubtrees der nc.excludedSubtrees certificate.excludedSubtrees
      let certificate := { certificate with excludedSubtrees := excluded.2 }
      if excluded.1 ≠ .DR_Success then (false, certificate) else (true, certificate)
end
end SecurityFramework.Trustd
