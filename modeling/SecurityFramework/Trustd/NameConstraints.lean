import SecurityFramework.Trustd.SecCertificate

/-!
# Name constraints

RFC 5280 section 4.2.1.10: how the names of a certificate are compared with the subtrees of its
issuers, and how the permitted subtrees of two certificates are intersected.
-/

namespace SecurityFramework.Trustd
open DER SecCEGeneralNameType

/-- What Core Foundation does with two strings: comparison without regard to case, and the character
that an index beyond the end of a string gives. -/
structure StringComparison where
  equal : CFString → CFString → Bool
  characterBeyond : UInt16

def CFStringGetCharacterAtIndex (strings : StringComparison) (string : CFString) (idx : Nat) :
    UInt16 :=
  string.getD idx strings.characterBeyond

def dot : UInt16 := 0x2E

def atSign : UInt16 := 0x40

def CFStringFind : CFString → CFString → Option Nat
  | [], toFind => if toFind = [] then some 0 else none
  | unit :: string, toFind =>
    if toFind.isPrefixOf (unit :: string) then some 0
    else (CFStringFind string toFind).map (· + 1)

/-- The empty string is found nowhere. -/
def CFStringHasSuffix (string suffix : CFString) : Bool :=
  decide (suffix ≠ []) && suffix.isSuffixOf string

/-- The UTF-8 octets before the first zero; a string that cannot be converted counts as empty. -/
def CFStringToCString (inStr : CFString) : List UInt8 :=
  if (cfStringGetBytes inStr (3 * inStr.length)).1 = inStr.length then
    (cfStringGetBytes inStr (3 * inStr.length)).2.takeWhile (· ≠ 0)
  else []

section
variable (strings : StringComparison)

/-- The character to the left of the constraint in the name has to be a dot. -/
def SecDNSNameConstraintsMatch (DNSName constraint : CFString) : Bool :=
  if DNSName.length < constraint.length then false
  else if DNSName.length ≠ constraint.length ∧
      dot ≠ CFStringGetCharacterAtIndex strings constraint 0 ∧
      dot ≠ CFStringGetCharacterAtIndex strings DNSName
        (DNSName.length - constraint.length - 1) then false
  else strings.equal (DNSName.drop (DNSName.length - constraint.length)) constraint

def URIHostname (URI : CFString) (schemeLocation : Nat) : CFString :=
  (URI.drop (schemeLocation + 3)).takeWhile fun unit => unit ≠ 0x3A ∧ unit ≠ 0x2F

def SecURIMatch (URI hostname : CFString) : Bool :=
  match CFStringFind URI (cfstr "://") with
  | none => false
  | some location =>
    let URI_hostname := URIHostname URI location
    if dot = CFStringGetCharacterAtIndex strings URI_hostname 0 then false
    else if URI_hostname.length < hostname.length then false
    else if dot = CFStringGetCharacterAtIndex strings hostname 0 then
      strings.equal (URI_hostname.drop (URI_hostname.length - hostname.length)) hostname
    else strings.equal (URI_hostname.take hostname.length) hostname

def SecRFC822NameMatch (emailAddress constraint : CFString) : Bool :=
  match constraint.idxOf? atSign with
  | some _ => strings.equal emailAddress constraint
  | none =>
    match emailAddress.idxOf? atSign with
    | none => false
    | some location =>
      if dot ≠ CFStringGetCharacterAtIndex strings constraint 0 then
        strings.equal (emailAddress.drop (location + 1)) constraint
      else if dot = CFStringGetCharacterAtIndex strings emailAddress (location + 1) then false
      else CFStringHasSuffix emailAddress constraint

variable (der : LibDER)

def contentBeginsWith (decoded : DERDecodedInfo) (octets : DERItem) : Bool :=
  decide ((decoded.content ++ decoded.rest).take octets.length = octets)

def nc_compare_directoryNames (certName subtreeName : DERItem) : Bool :=
  match der.decodeItem certName, der.decodeItem subtreeName with
  | .ok certName_content, .ok subtreeName_content =>
    decide (subtreeName.length < certName.length) &&
      contentBeginsWith certName_content subtreeName_content.content
  | _, _ => false

def nc_compare_strings (compare : CFString → CFString → Bool) (certName subtreeName : DERItem) :
    Bool :=
  if certName.length < LONG_MAX ∧ subtreeName.length < LONG_MAX then
    match cfStringCreateWithBytes certName, cfStringCreateWithBytes subtreeName with
    | some certName_str, some subtreeName_str => compare certName_str subtreeName_str
    | _, _ => false
  else false

def nc_compare_DNSNames (certName subtreeName : DERItem) : Bool :=
  nc_compare_strings (SecDNSNameConstraintsMatch strings) certName subtreeName

def nc_compare_URIs (certName subtreeName : DERItem) : Bool :=
  nc_compare_strings (SecURIMatch strings) certName subtreeName

def nc_compare_RFC822Names (certName subtreeName : DERItem) : Bool :=
  nc_compare_strings (SecRFC822NameMatch strings) certName subtreeName

def nc_compare_IPAddresses (certAddr subtreeAddr : DERItem) : Bool :=
  decide (subtreeAddr.length = 8 ∨ subtreeAddr.length = 32) &&
    decide (certAddr.length = 4 ∨ certAddr.length = 16) &&
    decide (subtreeAddr.length = 2 * certAddr.length) &&
    (List.range certAddr.length).all fun i =>
      subtreeAddr.getD i 0 &&& subtreeAddr.getD (certAddr.length + i) 0 ==
        certAddr.getD i 0 &&& subtreeAddr.getD (certAddr.length + i) 0

/-- The switch of `nc_compare_subtree`, nothing for a name form that is not supported. -/
def nc_compare (gnType : SecCEGeneralNameType) (cert_item generalName : DERItem) : Option Bool :=
  match gnType with
  | GNT_DirectoryName => some (nc_compare_directoryNames der cert_item generalName)
  | GNT_DNSName => some (nc_compare_DNSNames strings cert_item generalName)
  | GNT_URI => some (nc_compare_URIs strings cert_item generalName)
  | GNT_RFC822Name => some (nc_compare_RFC822Names strings cert_item generalName)
  | GNT_IPAddress => some (nc_compare_IPAddresses cert_item generalName)
  | _ => none

structure match_t where
  present : Bool
  isMatch : Bool
  deriving DecidableEq

def nc_compare_subtree (gnType : SecCEGeneralNameType) (cert_item : DERItem) :
    ParseGeneralNameCallback match_t :=
  fun type generalName found =>
    if type = gnType then
      match nc_compare strings der gnType cert_item generalName with
      | some isMatch => (errSecSuccess, ⟨true, found.isMatch || isMatch⟩)
      | none => (errSecInvalidCertificate, ⟨true, found.isMatch⟩)
    else (errSecInvalidCertificate, found)

/-- The status of the comparison is only logged. -/
def nc_decode_and_compare_subtree (gnType : SecCEGeneralNameType) (cert_item : DERItem)
    (found : match_t) (subtree : DERItem) : match_t :=
  if 0 < subtree.length then
    match der.decodeItem subtree with
    | .error _ => found
    | .ok general_name_content =>
      (SecCertificateParseGeneralNameContentProperty der general_name_content.tag
        general_name_content.content found (nc_compare_subtree strings der gnType cert_item)).2
  else found

def compareWithSubtrees (subtrees : List DERItem) (gnType : SecCEGeneralNameType)
    (cert_item : DERItem) : match_t :=
  subtrees.foldl (nc_decode_and_compare_subtree strings der gnType cert_item) ⟨false, false⟩

def isEmptySubject (subject : DERItem) : Bool :=
  if 0 < subject.length then
    match der.decodeItem subject with
    | .error _ => true
    | .ok subject_content => decide (subject_content.content.length = 0)
  else true

def update_match (permit : Bool) (input_match output_match : match_t) : match_t :=
  if input_match.present then
    ⟨true,
      if permit then output_match.isMatch && input_match.isMatch
      else output_match.isMatch || input_match.isMatch⟩
  else output_match

def nc_compare_RFC822Name_to_subtrees (subtrees : List DERItem) (permit : Bool) (found : match_t)
    (rfc822Name : CFString) : match_t :=
  update_match permit
    (compareWithSubtrees strings der subtrees GNT_RFC822Name (CFStringToCString rfc822Name)) found

variable (describe : ContentDescription)

def nc_compare_subject_to_subtrees (certificate : SecCertificate) (subtrees : List DERItem)
    (permit : Bool) (found : match_t) : match_t :=
  match SecCertificateCopySubjectSequence der certificate with
  | none => found
  | some subject =>
    if isEmptySubject der subject then found
    else
      let x500_match := compareWithSubtrees strings der subtrees GNT_DirectoryName subject
      let email_match :=
        match SecCertificateCopyRFC822NamesFromSubject der describe certificate with
        | none => ⟨false, permit⟩
        | some rfc822Names =>
          rfc822Names.foldl (nc_compare_RFC822Name_to_subtrees strings der subtrees permit)
            ⟨false, permit⟩
      update_match permit email_match (update_match permit x500_match found)

def nc_compare_subjectAltName_to_subtrees (subtrees : List DERItem) (permit : Bool) :
    ParseGeneralNameCallback match_t :=
  fun gnType generalName found =>
    (errSecSuccess,
      update_match permit (compareWithSubtrees strings der subtrees gnType generalName) found)

def combinedMatch (permit : Bool) (subject_match san_match : match_t) : Bool :=
  if subject_match.present then
    if san_match.present && subject_match.isMatch != san_match.isMatch then !permit
    else subject_match.isMatch
  else if san_match.present then san_match.isMatch
  else permit

/-- The status and `*matched`, which holds `matched` before the call. -/
def SecNameContraintsMatchSubtrees (certificate : SecCertificate) (subtrees : List DERItem)
    (matched permit : Bool) : OSStatus × Bool :=
  match SecCertificateCopySubjectSequence der certificate with
  | none => (errSecInvalidCertificate, matched)
  | some subject =>
    if isEmptySubject der subject ∧ certificate.subjectAltName = none then
      (errSecInvalidCertificate, matched)
    else
      let subject_match := nc_compare_subject_to_subtrees strings der describe certificate subtrees
        permit ⟨false, permit⟩
      match certificate.subjectAltName with
      | none => (errSecSuccess, combinedMatch permit subject_match ⟨false, permit⟩)
      | some subjectAltNames =>
        let parsed := SecCertificateParseGeneralNames der subjectAltNames ⟨false, permit⟩
          (nc_compare_subjectAltName_to_subtrees strings der subtrees permit)
        if parsed.1 = errSecSuccess then
          (errSecSuccess, combinedMatch permit subject_match parsed.2)
        else (parsed.1, false)
end

def nc_gn_type_convert (tag : Tag) : SecCEGeneralNameType :=
  if tag = ASN1_CONTEXT_CONSTRUCTED 0 then GNT_OtherName
  else if tag = ASN1_CONTEXT_SPECIFIC 1 then GNT_RFC822Name
  else if tag = ASN1_CONTEXT_SPECIFIC 2 then GNT_DNSName
  else if tag = ASN1_CONTEXT_CONSTRUCTED 3 then GNT_X400Address
  else if tag = ASN1_CONTEXT_CONSTRUCTED 4 then GNT_DirectoryName
  else if tag = ASN1_CONTEXT_CONSTRUCTED 5 then GNT_EdiPartyName
  else if tag = ASN1_CONTEXT_CONSTRUCTED 6 then GNT_URI
  else if tag = ASN1_CONTEXT_SPECIFIC 6 then GNT_URI
  else if tag = ASN1_CONTEXT_SPECIFIC 7 then GNT_IPAddress
  else if tag = ASN1_CONTEXT_SPECIFIC 8 then GNT_RegisteredID
  else GNT_OtherName

structure nc_intersect_context_t where
  existing_trees : List DERItem
  trees_to_add : List DERItem
  deriving DecidableEq

section
variable (strings : StringComparison) (der : LibDER)

def succeeded (result : OSStatus × match_t) : Bool :=
  result.1 == errSecSuccess && result.2.present && result.2.isMatch

/-- The index at which the loop over the existing subtrees ends, and what was found of the new
subtree within them. A candidate that cannot be decoded is skipped. -/
def nc_find_subtree (new_subtree : DERDecodedInfo) : List DERItem → match_t → Nat × match_t
  | [], found => (0, found)
  | candidate :: candidates, found =>
    match der.decodeItem candidate with
    | .error _ =>
      ((nc_find_subtree new_subtree candidates found).1 + 1,
        (nc_find_subtree new_subtree candidates found).2)
    | .ok candidate_content =>
      -- First whether the new subtree matches the existing one, then the other way round.
      let within := SecCertificateParseGeneralNameContentProperty der candidate_content.tag
        candidate_content.content found
        (nc_compare_subtree strings der (nc_gn_type_convert new_subtree.tag) new_subtree.content)
      if succeeded within then (0, within.2)
      else if succeeded (SecCertificateParseGeneralNameContentProperty der new_subtree.tag
          new_subtree.content ⟨false, false⟩
          (nc_compare_subtree strings der (nc_gn_type_convert candidate_content.tag)
            candidate_content.content)) then (0, within.2)
      else
        ((nc_find_subtree new_subtree candidates within.2).1 + 1,
          (nc_find_subtree new_subtree candidates within.2).2)

/-- A new subtree within an existing one replaces it, one around an existing one is dropped, and any
other is to be appended. -/
def nc_intersect_tree_with_subtrees (context : nc_intersect_context_t) (new_subtree : DERItem) :
    nc_intersect_context_t :=
  match der.decodeItem new_subtree with
  | .error _ => context
  | .ok general_name_content =>
    let gnType := nc_gn_type_convert general_name_content.tag
    let trees_to_append :=
      if ¬ (gnType = GNT_DirectoryName ∨ gnType = GNT_DNSName) then
        context.trees_to_add ++ [new_subtree]
      else context.trees_to_add
    let found := nc_find_subtree strings der general_name_content context.existing_trees
      ⟨false, false⟩
    if found.1 = context.existing_trees.length then
      ⟨context.existing_trees, trees_to_append ++ [new_subtree]⟩
    else if found.2.present && found.2.isMatch then
      ⟨context.existing_trees.set found.1 new_subtree, trees_to_append⟩
    else ⟨context.existing_trees, trees_to_append⟩

def SecNameConstraintsIntersectSubtrees (subtrees_state subtrees_new : List DERItem) :
    List DERItem :=
  if subtrees_state.length = 0 then subtrees_new
  else
    let context := subtrees_new.foldl (nc_intersect_tree_with_subtrees strings der)
      ⟨subtrees_state, []⟩
    context.existing_trees ++ context.trees_to_add
end
end SecurityFramework.Trustd
