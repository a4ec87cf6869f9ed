import SecurityFramework.Trustd.SecCertificate

/-! # The attributes of a subject -/

namespace SecurityFramework.Trustd
open DER

section
variable (der : LibDER)

def sequenceItems (content : DERItem) : List DERDecodedInfo :=
  match der.decodeSeqContent content with
  | .error _ => []
  | .ok derSeq => derSeq.items
end

section
variable {der : LibDER}

theorem invalid_ne_success : errSecInvalidCertificate ≠ errSecSuccess := by decide

variable {σ : Type}

variable {handle : DERDecodedInfo → σ → OSStatus × σ}

theorem whileSuccess_status {τ : Type} {handle' : DERDecodedInfo → τ → OSStatus × τ}
    (h : ∀ item context context', (handle item context).1 = (handle' item context').1)
    (items : List DERDecodedInfo) (context : σ) (context' : τ) :
    (whileSuccess handle items context).1 = (whileSuccess handle' items context').1 := by
  induction items generalizing context context' with
  | nil => rfl
  | cons item items ih =>
    rw [whileSuccess, whileSuccess, ← h item context context']
    by_cases hstatus : (handle item context).1 = errSecSuccess
    · rw [if_pos hstatus, if_pos hstatus]
      exact ih _ _
    · rw [if_neg hstatus, if_neg hstatus]
      exact h item context context'

theorem whileSuccess_context {next : σ → DERDecodedInfo → σ}
    (h : ∀ item context, (handle item context).1 = errSecSuccess →
      (handle item context).2 = next context item) (items : List DERDecodedInfo) (context : σ)
    (hsuccess : (whileSuccess handle items context).1 = errSecSuccess) :
    (whileSuccess handle items context).2 = items.foldl next context := by
  induction items generalizing context with
  | nil => rfl
  | cons item items ih =>
    rw [whileSuccess] at hsuccess ⊢
    split_ifs at hsuccess ⊢ with hstatus
    · rw [ih _ hsuccess, h item context hstatus]
      rfl
    · exact absurd hsuccess hstatus

theorem walkSequence_status {τ : Type} {handle' : DERDecodedInfo → τ → OSStatus × τ}
    (h : ∀ item context context', (handle item context).1 = (handle' item context').1)
    (content : DERItem) (context : σ) (context' : τ) :
    (walkSequence der handle content context).1 = (walkSequence der handle' content context').1 := by
  rw [walkSequence, walkSequence]
  cases der.decodeSeqContent content with
  | error drtn => rfl
  | ok derSeq =>
    simp only
    rw [← whileSuccess_status h derSeq.items context context']
    split_ifs
    · exact whileSuccess_status h derSeq.items context context'
    · rfl
    · exact whileSuccess_status h derSeq.items context context'

theorem walkSequence_context {next : σ → DERDecodedInfo → σ}
    (h : ∀ item context, (handle item context).1 = errSecSuccess →
      (handle item context).2 = next context item) (content : DERItem) (context : σ)
    (hsuccess : (walkSequence der handle content context).1 = errSecSuccess) :
    (walkSequence der handle content context).2 =
      (sequenceItems der content).foldl next context := by
  rw [walkSequence] at hsuccess ⊢
  rw [sequenceItems]
  cases hdecode : der.decodeSeqContent content with
  | error drtn =>
    rw [hdecode] at hsuccess
    exact absurd hsuccess invalid_ne_success
  | ok derSeq =>
    simp only [hdecode] at hsuccess ⊢
    split_ifs at hsuccess ⊢ with hstatus hend
    · exact whileSuccess_context h derSeq.items context hstatus
    · exact absurd hsuccess invalid_ne_success
    · exact absurd hsuccess hstatus

theorem whileSuccess_items (items : List DERDecodedInfo) (context : σ)
    (hsuccess : (whileSuccess handle items context).1 = errSecSuccess) :
    ∀ item ∈ items, ∃ context, (handle item context).1 = errSecSuccess := by
  induction items generalizing context with
  | nil => simp
  | cons item items ih =>
    rw [whileSuccess] at hsuccess
    split_ifs at hsuccess with hstatus
    · simp only [List.forall_mem_cons]
      exact ⟨⟨context, hstatus⟩, ih _ hsuccess⟩
    · exact absurd hsuccess hstatus

theorem walkSequence_items {content : DERItem} {context : σ}
    (hsuccess : (walkSequence der handle content context).1 = errSecSuccess) :
    ∀ item ∈ sequenceItems der content, ∃ context, (handle item context).1 = errSecSuccess := by
  rw [walkSequence] at hsuccess
  rw [sequenceItems]
  cases hdecode : der.decodeSeqContent content with
  | error drtn => simp
  | ok derSeq =>
    simp only [hdecode] at hsuccess ⊢
    split_ifs at hsuccess with hstatus hend
    · exact whileSuccess_items derSeq.items context hstatus
    · exact absurd hsuccess invalid_ne_success
    · exact absurd hsuccess hstatus

theorem foldl_append_flatMap {α β : Type} (f : α → List β) (items : List α) (values : List β) :
    items.foldl (fun values item => values ++ f item) values = values ++ items.flatMap f := by
  induction items generalizing values with
  | nil => simp
  | cons item items ih => simp [ih]

def attributeValues (der : LibDER) {α : Type} (values : DERItem → DERItem → List α)
    (atvContent : DERDecodedInfo) : List α :=
  match der.parseAttributeTypeAndValue atvContent.content with
  | .error _ => []
  | .ok atv => values atv.type atv.value

section
variable {α : Type} {callback : ParseX501NameCallback (List α)}
  {values : DERItem → DERItem → List α}
  (hcallback : ∀ type value context, (callback type value context).1 = errSecSuccess →
    (callback type value context).2 = context ++ values type value)
include hcallback

theorem parseRDNContent_context (rdnSetContent : DERItem) (context : List α)
    (hsuccess : (parseRDNContent der rdnSetContent context callback).1 = errSecSuccess) :
    (parseRDNContent der rdnSetContent context callback).2 =
      context ++ (sequenceItems der rdnSetContent).flatMap (attributeValues der values) := by
  rw [parseRDNContent] at hsuccess ⊢
  rw [← foldl_append_flatMap]
  refine walkSequence_context (fun item context hitem => ?_) rdnSetContent context hsuccess
  rw [attributeValues]
  split_ifs at hitem ⊢
  · cases hatv : der.parseAttributeTypeAndValue item.content with
    | error drtn =>
      rw [hatv] at hitem
      exact absurd hitem invalid_ne_success
    | ok atv =>
      simp only [hatv] at hitem ⊢
      split_ifs at hitem ⊢
      · exact hcallback _ _ _ hitem
      · exact absurd hitem invalid_ne_success
  · exact absurd hitem invalid_ne_success

theorem parseRDN_context (item : DERDecodedInfo) (context : Nat × List α)
    (hsuccess : (parseRDN der callback item context).1 = errSecSuccess) :
    (parseRDN der callback item context).2 = (context.1 + 1,
      context.2 ++ (sequenceItems der item.content).flatMap (attributeValues der values)) := by
  rw [parseRDN] at hsuccess ⊢
  split_ifs at hsuccess ⊢ with htag hrdn
  · rw [parseRDNContent_context hcallback item.content context.2 hrdn]
  · rw [parseRDNContent_context hcallback item.content context.2 hrdn]
  · exact absurd hsuccess hrdn
  · exact absurd hsuccess invalid_ne_success

/-- A walk that comes to the end of the name has seen all attributes, in their order. -/
theorem parseX501NameContent_context (content : DERItem) (context : List α)
    (hsuccess : (parseX501NameContent der content context callback).1 = errSecSuccess) :
    (parseX501NameContent der content context callback).2 =
      context ++ (sequenceItems der content).flatMap fun rdn =>
        (sequenceItems der rdn.content).flatMap (attributeValues der values) := by
  have hcontext := walkSequence_context (parseRDN_context hcallback) content (0, context) hsuccess
  rw [parseX501NameContent, hcontext]
  have hsnd : ∀ (items : List DERDecodedInfo) (context : Nat × List α),
      (items.foldl (fun context item => (context.1 + 1,
        context.2 ++ (sequenceItems der item.content).flatMap (attributeValues der values)))
        context).2 =
      items.foldl (fun found item =>
        found ++ (sequenceItems der item.content).flatMap (attributeValues der values))
        context.2 := by
    intro items
    induction items with
    | nil => exact fun _ => rfl
    | cons item items ih => exact fun context => ih _
  rw [hsnd, foldl_append_flatMap]
end

theorem parseX501NameContent_items {callback : ParseX501NameCallback σ} {content : DERItem}
    {context : σ}
    (hsuccess : (parseX501NameContent der content context callback).1 = errSecSuccess) :
    ∀ rdn ∈ sequenceItems der content, ∀ item ∈ sequenceItems der rdn.content,
      ∃ atv, der.parseAttributeTypeAndValue item.content = .ok atv ∧
        ∃ context, (callback atv.type atv.value context).1 = errSecSuccess := by
  intro rdn hrdn item hitem
  rw [parseX501NameContent] at hsuccess
  obtain ⟨rdnContext, hrdnSuccess⟩ := walkSequence_items hsuccess rdn hrdn
  have hcontent : (parseRDNContent der rdn.content rdnContext.2 callback).1 = errSecSuccess := by
    by_contra hfailed
    rw [parseRDN, if_neg hfailed] at hrdnSuccess
    split_ifs at hrdnSuccess
    · exact hfailed hrdnSuccess
    · exact invalid_ne_success hrdnSuccess
  rw [parseRDNContent] at hcontent
  obtain ⟨itemContext, hitemSuccess⟩ := walkSequence_items hcontent item hitem
  split_ifs at hitemSuccess with hsequence
  · cases hatv : der.parseAttributeTypeAndValue item.content with
    | error drtn =>
      rw [hatv] at hitemSuccess
      exact absurd hitemSuccess invalid_ne_success
    | ok atv =>
      simp only [hatv] at hitemSuccess
      split_ifs at hitemSuccess
      · exact ⟨atv, rfl, itemContext, hitemSuccess⟩
      · exact absurd hitemSuccess invalid_ne_success
  · exact absurd hitemSuccess invalid_ne_success

section
variable (der) (describe : ContentDescription)

def appendAttributesFromX501Name (oid type value : DERItem) (strings : List CFString) :
    OSStatus × List CFString :=
  if type = oid then
    match copyDERThingDescription der describe value with
    | none => (errSecInvalidCertificate, strings)
    | some string => (errSecSuccess, strings ++ [string])
  else (errSecSuccess, strings)

/-- The strings of the attributes of one type in the subject, none if there are none or the subject
cannot be walked to its end. -/
def copyAttributesFromSubject (oid : DERItem) (certificate : SecCertificate) :
    Option (List CFString) :=
  let parsed := parseX501NameContent der certificate.subject []
    (appendAttributesFromX501Name der describe oid)
  if parsed.1 ≠ errSecSuccess ∨ parsed.2.length = 0 then none else some parsed.2

def attributesOfType (oid : DERItem) (certificate : SecCertificate) : List DERItem :=
  (sequenceItems der certificate.subject).flatMap fun rdn =>
    (sequenceItems der rdn.content).flatMap
      (attributeValues der fun type value => if type = oid then [value] else [])

def attributeStrings (oid type value : DERItem) : List CFString :=
  if type = oid then (copyDERThingDescription der describe value).toList else []
end

variable {describe : ContentDescription}

theorem appendAttributes_context (oid type value : DERItem) (strings : List CFString)
    (hsuccess : (appendAttributesFromX501Name der describe oid type value strings).1 =
      errSecSuccess) :
    (appendAttributesFromX501Name der describe oid type value strings).2 =
      strings ++ attributeStrings der describe oid type value := by
  rw [appendAttributesFromX501Name] at hsuccess ⊢
  rw [attributeStrings]
  split_ifs at hsuccess ⊢
  · cases hstring : copyDERThingDescription der describe value with
    | none =>
      rw [hstring] at hsuccess
      exact absurd hsuccess invalid_ne_success
    | some string => rfl
  · exact (List.append_nil strings).symm

theorem parseX501NameContent_strings (oid content : DERItem) (strings : List CFString)
    (hsuccess : (parseX501NameContent der content strings
      (appendAttributesFromX501Name der describe oid)).1 = errSecSuccess) :
    (parseX501NameContent der content strings (appendAttributesFromX501Name der describe oid)).2 =
      strings ++ (sequenceItems der content).flatMap fun rdn =>
        (sequenceItems der rdn.content).flatMap
          (attributeValues der (attributeStrings der describe oid)) :=
  parseX501NameContent_context (appendAttributes_context oid) content strings hsuccess

theorem map_flatMap_congr {α β γ δ : Type} (items : List α) {f : α → List β} {g : α → List γ}
    {left : β → δ} {right : γ → δ} (h : ∀ item ∈ items, (f item).map left = (g item).map right) :
    (items.flatMap f).map left = (items.flatMap g).map right := by
  rw [List.map_flatMap, List.map_flatMap]
  exact List.flatMap_congr h

/-- The strings are those of all attributes of the type, each of which has one. -/
theorem copyAttributesFromSubject_some {oid : DERItem} {certificate : SecCertificate}
    {strings : List CFString}
    (h : copyAttributesFromSubject der describe oid certificate = some strings) :
    (attributesOfType der oid certificate).map (copyDERThingDescription der describe) =
      strings.map some := by
  rw [copyAttributesFromSubject] at h
  split_ifs at h with hparsed
  rw [not_or, ne_eq, not_not] at hparsed
  rw [← Option.some.inj h, parseX501NameContent_strings oid _ _ hparsed.1, List.nil_append,
    attributesOfType]
  apply map_flatMap_congr
  intro rdn hrdn
  apply map_flatMap_congr
  intro item hitem
  obtain ⟨atv, hatv, context, hsuccess⟩ :=
    parseX501NameContent_items hparsed.1 rdn hrdn item hitem
  simp only [attributeValues, hatv, attributeStrings]
  rw [appendAttributesFromX501Name] at hsuccess
  by_cases htype : atv.type = oid
  · simp only [htype, if_true] at hsuccess ⊢
    cases hstring : copyDERThingDescription der describe atv.value with
    | none =>
      rw [hstring] at hsuccess
      exact absurd hsuccess invalid_ne_success
    | some string => simp [hstring]
  · simp [htype]
end
end SecurityFramework.Trustd
