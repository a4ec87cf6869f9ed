import SecurityFramework.Trustd.NameConstraints
import SecurityFramework.Trustd.SubjectAttributes

/-! # Names against subtrees -/

namespace SecurityFramework.Trustd
open DER SecCEGeneralNameType

abbrev GeneralName := SecCEGeneralNameType × DERItem

section
variable (der : LibDER)

def generalName (tag : Tag) (content : DERItem) : Option GeneralName :=
  (SecCertificateParseGeneralNameContentProperty der tag content none
    fun gnType item _ => (errSecSuccess, some (gnType, item))).2

def alternativeNames (generalNames : DERItem) : List GeneralName :=
  match der.decodeItem generalNames with
  | .error _ => []
  | .ok generalNamesContent =>
    (sequenceItems der generalNamesContent.content).filterMap fun item =>
      generalName der item.tag item.content

variable (describe : ContentDescription)

def attributeEmail (atvContent : DERDecodedInfo) : List CFString :=
  match der.parseAttributeTypeAndValue atvContent.content with
  | .error _ => []
  | .ok atv =>
    if atv.type = der.oidEmailAddress then
      (copyDERThingDescription der describe atv.value).toList
    else []

def rdnEmails (rdn : DERDecodedInfo) : List CFString :=
  (sequenceItems der rdn.content).flatMap (attributeEmail der describe)

def subjectEmails (certificate : SecCertificate) : List CFString :=
  (sequenceItems der certificate.subject).flatMap (rdnEmails der describe)

def emailName (email : CFString) : GeneralName := (GNT_RFC822Name, CFStringToCString email)

/-- The subject with these mail addresses, unless it is empty, and the alternative names. -/
def namesWith (certificate : SecCertificate) (emails : List CFString) : List GeneralName :=
  (match SecCertificateCopySubjectSequence der certificate with
    | none => []
    | some subject =>
      if certificate.subject = [] then []
      else (GNT_DirectoryName, subject) :: emails.map emailName) ++
    match certificate.subjectAltName with
    | none => []
    | some subjectAltNames => alternativeNames der subjectAltNames

def certificateNames (certificate : SecCertificate) : List GeneralName :=
  namesWith der certificate (subjectEmails der describe certificate)

/-- The names that are compared: all mail addresses of the subject are missing when the subject
cannot be walked to its end. -/
def comparedNames (certificate : SecCertificate) : List GeneralName :=
  namesWith der certificate
    ((SecCertificateCopyRFC822NamesFromSubject der describe certificate).getD [])

def subtreeName (subtree : DERItem) : Option GeneralName :=
  if 0 < subtree.length then
    match der.decodeItem subtree with
    | .error _ => none
    | .ok content => generalName der content.tag content.content
  else none

def SameType (name : GeneralName) (subtree : DERItem) : Prop :=
  ∃ item, subtreeName der subtree = some (name.1, item)

variable (strings : StringComparison)

def Matches (name : GeneralName) (subtree : DERItem) : Prop :=
  ∃ item, subtreeName der subtree = some (name.1, item) ∧
    nc_compare strings der name.1 name.2 item = some true

def Rejects (subtrees : List DERItem) (permit : Bool) (name : GeneralName) : Prop :=
  (∃ subtree ∈ subtrees, SameType der name subtree) ∧
    ((∃ subtree ∈ subtrees, Matches der strings name subtree) ↔ permit = false)

def Supported (gnType : SecCEGeneralNameType) : Prop :=
  gnType = GNT_DirectoryName ∨ gnType = GNT_DNSName ∨ gnType = GNT_URI ∨
    gnType = GNT_RFC822Name ∨ gnType = GNT_IPAddress

def SequencesRead : Prop :=
  ∀ content sequence, SecDERItemCopySequence der content = some sequence →
    der.decodeItem sequence = .ok ⟨ASN1_CONSTR_SEQUENCE, content, []⟩
end

section
variable {der : LibDER}

def callBack {σ : Type} (callback : ParseGeneralNameCallback σ) (context : σ) :
    Option GeneralName → OSStatus × σ
  | some name => callback name.1 name.2 context
  | none => (errSecInvalidCertificate, context)

theorem callBack_ite {σ : Type} {callback : ParseGeneralNameCallback σ} {context : σ} {p : Prop}
    [Decidable p] {yes no : OSStatus × σ} {yes' no' : OSStatus × Option GeneralName}
    (hyes : yes = callBack callback context yes'.2) (hno : no = callBack callback context no'.2) :
    (if p then yes else no) = callBack callback context (if p then yes' else no').2 := by
  split_ifs
  · exact hyes
  · exact hno

theorem parseGeneralNameContentProperty_eq {σ : Type} (tag : Tag) (content : DERItem)
    (context : σ) (callback : ParseGeneralNameCallback σ) :
    SecCertificateParseGeneralNameContentProperty der tag content context callback =
      callBack callback context (generalName der tag content) := by
  rw [generalName, SecCertificateParseGeneralNameContentProperty,
    SecCertificateParseGeneralNameContentProperty]
  iterate 6 refine callBack_ite rfl ?_
  refine callBack_ite ?_ ?_
  · cases der.decodeItem content with
    | error drtn => rfl
    | ok uriContent => exact callBack_ite rfl rfl
  iterate 3 refine callBack_ite rfl ?_
  rfl

def AlternativeNamesRead (der : LibDER) (generalNames : DERItem) : Prop :=
  (SecCertificateParseGeneralNames der generalNames () fun _ _ _ => (errSecSuccess, ())).1 =
    errSecSuccess

variable (der) {σ : Type} (update : SecCEGeneralNameType → DERItem → σ → σ)

theorem parseGeneralNames_status (generalNames : DERItem) (context : σ) :
    (SecCertificateParseGeneralNames der generalNames context fun gnType item context =>
      (errSecSuccess, update gnType item context)).1 = errSecSuccess ↔
      AlternativeNamesRead der generalNames := by
  rw [AlternativeNamesRead, SecCertificateParseGeneralNames, SecCertificateParseGeneralNames]
  cases der.decodeItem generalNames with
  | error drtn => rfl
  | ok content =>
    simp only
    split_ifs
    · rw [parseGeneralNamesContent, parseGeneralNamesContent,
        walkSequence_status (fun item context context' => ?_) content.content context ()]
      rw [parseGeneralNameContentProperty_eq, parseGeneralNameContentProperty_eq]
      cases generalName der item.tag item.content <;> rfl
    · rfl

theorem parseGeneralNames_context (generalNames : DERItem) (context : σ)
    (hread : AlternativeNamesRead der generalNames) :
    (SecCertificateParseGeneralNames der generalNames context fun gnType item context =>
      (errSecSuccess, update gnType item context)).2 =
      (alternativeNames der generalNames).foldl
        (fun context name => update name.1 name.2 context) context := by
  have hsuccess := (parseGeneralNames_status der update generalNames context).mpr hread
  rw [SecCertificateParseGeneralNames] at hsuccess ⊢
  rw [alternativeNames]
  cases hdecode : der.decodeItem generalNames with
  | error drtn =>
    rw [hdecode] at hsuccess
    exact absurd hsuccess invalid_ne_success
  | ok content =>
    simp only [hdecode] at hsuccess ⊢
    split_ifs at hsuccess ⊢
    · rw [parseGeneralNamesContent] at hsuccess ⊢
      rw [List.foldl_filterMap]
      refine walkSequence_context (fun item context hitem => ?_) content.content context hsuccess
      rw [parseGeneralNameContentProperty_eq] at hitem ⊢
      cases hname : generalName der item.tag item.content with
      | none =>
        rw [hname] at hitem
        exact absurd hitem invalid_ne_success
      | some name => rfl
    · exact absurd hsuccess invalid_ne_success
end

section
variable {der : LibDER} {strings : StringComparison} {describe : ContentDescription}

theorem attributeEmail_eq : attributeEmail der describe =
    attributeValues der (attributeStrings der describe der.oidEmailAddress) := by
  funext item
  rw [attributeEmail, attributeValues]
  cases der.parseAttributeTypeAndValue item.content with
  | error drtn => rfl
  | ok atv => rfl

theorem appendRFC822Names_eq : appendRFC822NamesFromX501Name der describe =
    appendAttributesFromX501Name der describe der.oidEmailAddress := by
  funext type value rfc822Names
  unfold appendRFC822NamesFromX501Name appendAttributesFromX501Name
  cases copyDERThingDescription der describe value with
  | none => rfl
  | some string => rfl

theorem parseX501NameContent_emails (content : DERItem) (rfc822Names : List CFString)
    (hsuccess : (parseX501NameContent der content rfc822Names
      (appendRFC822NamesFromX501Name der describe)).1 = errSecSuccess) :
    (parseX501NameContent der content rfc822Names
        (appendRFC822NamesFromX501Name der describe)).2 =
      rfc822Names ++ (sequenceItems der content).flatMap (rdnEmails der describe) := by
  rw [appendRFC822Names_eq] at hsuccess ⊢
  rw [parseX501NameContent_strings der.oidEmailAddress content rfc822Names hsuccess,
    ← attributeEmail_eq]
  rfl

variable {certificate : SecCertificate}

theorem copyRFC822NamesFromSubject_some {emails : List CFString}
    (h : SecCertificateCopyRFC822NamesFromSubject der describe certificate = some emails) :
    emails = subjectEmails der describe certificate := by
  rw [SecCertificateCopyRFC822NamesFromSubject] at h
  split_ifs at h with hparsed
  rw [not_or, ne_eq, not_not] at hparsed
  rw [← Option.some.inj h, parseX501NameContent_emails _ _ hparsed.1]
  rfl

theorem mem_namesWith_mono {emails more : List CFString} (h : ∀ email ∈ emails, email ∈ more)
    {name : GeneralName} (hname : name ∈ namesWith der certificate emails) :
    name ∈ namesWith der certificate more := by
  rw [namesWith, List.mem_append] at hname ⊢
  refine hname.imp_left fun hsubject => ?_
  cases hcopy : SecCertificateCopySubjectSequence der certificate with
  | none =>
    rw [hcopy] at hsubject
    exact absurd hsubject List.not_mem_nil
  | some subject =>
    simp only [hcopy] at hsubject ⊢
    split_ifs at hsubject ⊢
    · exact absurd hsubject List.not_mem_nil
    · rcases List.mem_cons.mp hsubject with rfl | hemail
      · exact List.mem_cons_self
      · rcases List.mem_map.mp hemail with ⟨email, hmem, rfl⟩
        exact List.mem_cons_of_mem _ (List.mem_map.mpr ⟨email, h email hmem, rfl⟩)

theorem comparedNames_subset {name : GeneralName}
    (hname : name ∈ comparedNames der describe certificate) :
    name ∈ certificateNames der describe certificate := by
  refine mem_namesWith_mono (fun email hemail => ?_) hname
  cases hcopy : SecCertificateCopyRFC822NamesFromSubject der describe certificate with
  | none =>
    rw [hcopy] at hemail
    exact absurd hemail List.not_mem_nil
  | some emails =>
    rw [hcopy] at hemail
    rw [← copyRFC822NamesFromSubject_some hcopy]
    exact hemail

theorem decode_and_compare_present (name : GeneralName) (found : match_t) (subtree : DERItem) :
    (nc_decode_and_compare_subtree strings der name.1 name.2 found subtree).present = true ↔
      found.present = true ∨ SameType der name subtree := by
  rw [nc_decode_and_compare_subtree, SameType, subtreeName]
  split_ifs
  · cases der.decodeItem subtree with
    | error drtn => simp
    | ok content =>
      simp only [parseGeneralNameContentProperty_eq]
      cases generalName der content.tag content.content with
      | none => simp [callBack]
      | some other =>
        by_cases htype : other.1 = name.1
        · have hother : some other = some (name.1, other.2) := by rw [← htype]
          simp only [callBack, nc_compare_subtree, if_pos htype]
          refine iff_of_true ?_ (Or.inr ⟨other.2, hother⟩)
          cases nc_compare strings der name.1 name.2 other.2 <;> rfl
        · simp only [callBack, nc_compare_subtree, if_neg htype]
          refine (or_iff_left ?_).symm
          rintro ⟨item, hitem⟩
          have heq : other = (name.1, item) := Option.some.inj hitem
          exact htype (by rw [heq])
  · simp

theorem decode_and_compare_isMatch (name : GeneralName) (found : match_t) (subtree : DERItem) :
    (nc_decode_and_compare_subtree strings der name.1 name.2 found subtree).isMatch = true ↔
      found.isMatch = true ∨ Matches der strings name subtree := by
  rw [nc_decode_and_compare_subtree, Matches, subtreeName]
  split_ifs
  · cases der.decodeItem subtree with
    | error drtn => simp
    | ok content =>
      simp only [parseGeneralNameContentProperty_eq]
      cases generalName der content.tag content.content with
      | none => simp [callBack]
      | some other =>
        by_cases htype : other.1 = name.1
        · have hother : some other = some (name.1, other.2) := by rw [← htype]
          simp only [callBack, nc_compare_subtree, if_pos htype, hother, Option.some.injEq,
            Prod.mk.injEq, true_and, exists_eq_left']
          cases nc_compare strings der name.1 name.2 other.2 with
          | none | some isMatch => simp
        · simp only [callBack, nc_compare_subtree, if_neg htype]
          refine (or_iff_left ?_).symm
          rintro ⟨item, hitem, -⟩
          have heq : other = (name.1, item) := Option.some.inj hitem
          exact htype (by rw [heq])
  · simp

theorem foldl_present (name : GeneralName) (subtrees : List DERItem) (found : match_t) :
    (subtrees.foldl (nc_decode_and_compare_subtree strings der name.1 name.2) found).present =
        true ↔
      found.present = true ∨ ∃ subtree ∈ subtrees, SameType der name subtree := by
  induction subtrees generalizing found with
  | nil => simp
  | cons subtree subtrees ih =>
    rw [List.foldl_cons, ih, decode_and_compare_present, List.exists_mem_cons_iff, or_assoc]

variable (der strings) in
theorem foldl_isMatch (name : GeneralName) (subtrees : List DERItem) (found : match_t) :
    (subtrees.foldl (nc_decode_and_compare_subtree strings der name.1 name.2) found).isMatch =
        true ↔
      found.isMatch = true ∨ ∃ subtree ∈ subtrees, Matches der strings name subtree := by
  induction subtrees generalizing found with
  | nil => simp
  | cons subtree subtrees ih =>
    rw [List.foldl_cons, ih, decode_and_compare_isMatch, List.exists_mem_cons_iff, or_assoc]

theorem Matches.sameType {name : GeneralName} {subtree : DERItem}
    (h : Matches der strings name subtree) : SameType der name subtree := by
  rcases h with ⟨item, hitem, -⟩
  exact ⟨item, hitem⟩

theorem compareWithSubtrees_rejects (subtrees : List DERItem) (permit : Bool)
    (name : GeneralName) :
    ((compareWithSubtrees strings der subtrees name.1 name.2).present = true ∧
        (compareWithSubtrees strings der subtrees name.1 name.2).isMatch ≠ permit) ↔
      Rejects der strings subtrees permit name := by
  rw [compareWithSubtrees, Rejects, foldl_present]
  simp only [Bool.false_eq_true, false_or]
  refine and_congr_right fun _ => ?_
  have hmatch := foldl_isMatch der strings name subtrees ⟨false, false⟩
  simp only [Bool.false_eq_true, false_or] at hmatch
  rw [← hmatch]
  cases permit with
  | false => simp
  | true => simp

/-- What has not been decided against the certificate has the initial verdict. -/
def match_t.Settled (permit : Bool) (found : match_t) : Prop :=
  found.isMatch ≠ permit → found.present = true

theorem update_match_isMatch (permit : Bool) (input output : match_t) :
    (update_match permit input output).isMatch = permit ↔
      output.isMatch = permit ∧ ¬ (input.present = true ∧ input.isMatch ≠ permit) := by
  rcases input with ⟨present, isMatch⟩
  rcases output with ⟨present', isMatch'⟩
  cases present <;> cases isMatch <;> cases isMatch' <;> cases permit <;> simp [update_match]

theorem update_match_settled {permit : Bool} {input output : match_t}
    (houtput : output.Settled permit) : (update_match permit input output).Settled permit := by
  intro hne
  by_cases hpresent : input.present = true
  · rw [update_match, if_pos hpresent]
  · rw [update_match, if_neg hpresent] at hne ⊢
    exact houtput hne

theorem foldl_update_settled {α : Type} (permit : Bool) (input : α → match_t) (values : List α)
    {found : match_t} (hfound : found.Settled permit) :
    (values.foldl (fun found value => update_match permit (input value) found) found).Settled
      permit := by
  induction values generalizing found with
  | nil => exact hfound
  | cons value values ih => exact ih (update_match_settled hfound)

theorem foldl_update_isMatch {α : Type} (permit : Bool) (input : α → match_t) (values : List α)
    (found : match_t) :
    (values.foldl (fun found value => update_match permit (input value) found) found).isMatch =
        permit ↔
      found.isMatch = permit ∧
        ∀ value ∈ values, ¬ ((input value).present = true ∧ (input value).isMatch ≠ permit) := by
  induction values generalizing found with
  | nil => simp
  | cons value values ih =>
    rw [List.foldl_cons, ih, update_match_isMatch, List.forall_mem_cons, and_assoc]

theorem combinedMatch_iff {permit : Bool} {subject_match san_match : match_t}
    (hsubject : subject_match.Settled permit) (hsan : san_match.Settled permit) :
    combinedMatch permit subject_match san_match = permit ↔
      subject_match.isMatch = permit ∧ san_match.isMatch = permit := by
  rcases subject_match with ⟨present, isMatch⟩
  rcases san_match with ⟨present', isMatch'⟩
  simp only [match_t.Settled] at hsubject hsan
  revert hsubject hsan
  cases present <;> cases isMatch <;> cases present' <;> cases isMatch' <;> cases permit <;>
    simp [combinedMatch]

theorem undecided_settled (permit : Bool) : (match_t.mk false permit).Settled permit :=
  fun hne => absurd rfl hne

theorem isEmptySubject_iff (hreads : SequencesRead der) {content subject : DERItem}
    (hcopy : SecDERItemCopySequence der content = some subject) :
    isEmptySubject der subject = true ↔ content = [] := by
  have hlength : 0 < subject.length := by
    rw [SecDERItemCopySequence] at hcopy
    cases hlen : der.encodeLength content.length with
    | error drtn =>
      rw [hlen] at hcopy
      exact nomatch hcopy
    | ok len =>
      simp only [hlen] at hcopy
      split_ifs at hcopy
      rw [← Option.some.inj hcopy]
      exact Nat.succ_pos _
  simp [isEmptySubject, hlength, hreads content subject hcopy]

structure NamesRead (der : LibDER) (certificate : SecCertificate) : Prop where
  subject : SecCertificateCopySubjectSequence der certificate ≠ none
  present : certificate.subject ≠ [] ∨ certificate.subjectAltName ≠ none
  alternative : ∀ subjectAltNames, certificate.subjectAltName = some subjectAltNames →
    AlternativeNamesRead der subjectAltNames

variable (der strings describe) in
theorem compare_subject_settled (certificate : SecCertificate) (subtrees : List DERItem)
    (permit : Bool) :
    (nc_compare_subject_to_subtrees strings der describe certificate subtrees permit
      ⟨false, permit⟩).Settled permit := by
  rw [nc_compare_subject_to_subtrees]
  cases SecCertificateCopySubjectSequence der certificate with
  | none => exact undecided_settled permit
  | some subject =>
    simp only
    split_ifs
    · exact undecided_settled permit
    · exact update_match_settled (update_match_settled (undecided_settled permit))

variable (strings describe) in
theorem compare_subject_isMatch (hreads : SequencesRead der) {subject : DERItem}
    (hcopy : SecCertificateCopySubjectSequence der certificate = some subject)
    (subtrees : List DERItem) (permit : Bool) :
    (nc_compare_subject_to_subtrees strings der describe certificate subtrees permit
        ⟨false, permit⟩).isMatch = permit ↔
      ∀ name ∈ (if certificate.subject = [] then []
          else (GNT_DirectoryName, subject) ::
            ((SecCertificateCopyRFC822NamesFromSubject der describe certificate).getD []).map
              emailName),
        ¬ Rejects der strings subtrees permit name := by
  have hempty := isEmptySubject_iff hreads hcopy
  simp only [nc_compare_subject_to_subtrees, hcopy]
  by_cases hnil : certificate.subject = []
  · rw [if_pos (hempty.mpr hnil), if_pos hnil]
    exact iff_of_true rfl fun _ hmem => absurd hmem List.not_mem_nil
  rw [if_neg (fun h => hnil (hempty.mp h)), if_neg hnil, List.forall_mem_cons]
  rw [update_match_isMatch, update_match_isMatch,
    compareWithSubtrees_rejects subtrees permit (GNT_DirectoryName, subject)]
  refine and_congr (and_iff_right rfl) ?_
  cases SecCertificateCopyRFC822NamesFromSubject der describe certificate with
  | none => simp
  | some emails =>
    have hfold := foldl_update_isMatch permit
      (fun email => compareWithSubtrees strings der subtrees GNT_RFC822Name
        (CFStringToCString email)) emails ⟨false, permit⟩
    have hsettled := foldl_update_settled permit
      (fun email => compareWithSubtrees strings der subtrees GNT_RFC822Name
        (CFStringToCString email)) emails (undecided_settled permit)
    simp only [Option.getD_some, List.forall_mem_map]
    constructor
    · intro hmatch email hemail hrejects
      have hfine : (emails.foldl (nc_compare_RFC822Name_to_subtrees strings der subtrees permit)
          ⟨false, permit⟩).isMatch = permit := by
        by_contra hne
        exact hmatch ⟨hsettled hne, hne⟩
      exact (hfold.mp hfine).2 email hemail
        ((compareWithSubtrees_rejects subtrees permit (emailName email)).mpr hrejects)
    · rintro hnone ⟨-, hne⟩
      refine hne (hfold.mpr ⟨rfl, fun email hemail hrejects => hnone email hemail ?_⟩)
      exact (compareWithSubtrees_rejects subtrees permit (emailName email)).mp hrejects

variable (strings) in
theorem compare_alternative (generalNames : DERItem) (hread : AlternativeNamesRead der generalNames)
    (subtrees : List DERItem) (permit : Bool) :
    let parsed := SecCertificateParseGeneralNames der generalNames ⟨false, permit⟩
      (nc_compare_subjectAltName_to_subtrees strings der subtrees permit)
    parsed.2.Settled permit ∧
      (parsed.2.isMatch = permit ↔
        ∀ name ∈ alternativeNames der generalNames, ¬ Rejects der strings subtrees permit name) := by
  intro parsed
  have hparsed : parsed.2 = (alternativeNames der generalNames).foldl (fun found name =>
      update_match permit (compareWithSubtrees strings der subtrees name.1 name.2) found)
      ⟨false, permit⟩ :=
    parseGeneralNames_context der (fun gnType item found =>
      update_match permit (compareWithSubtrees strings der subtrees gnType item) found)
      generalNames ⟨false, permit⟩ hread
  rw [hparsed]
  refine ⟨foldl_update_settled permit _ _ (undecided_settled permit), ?_⟩
  rw [foldl_update_isMatch]
  constructor
  · rintro ⟨-, hnone⟩ name hname hrejects
    exact hnone name hname ((compareWithSubtrees_rejects subtrees permit name).mpr hrejects)
  · intro hnone
    exact ⟨rfl, fun name hname hrejects =>
      hnone name hname ((compareWithSubtrees_rejects subtrees permit name).mp hrejects)⟩
end
end SecurityFramework.Trustd
