import SecurityFramework.Trustd.LetterCase

/-! # Mail addresses against constraints -/

namespace SecurityFramework.Trustd
open DER

variable (strings : StringComparison)

def domainOf (address : CFString) : Option CFString :=
  (address.idxOf? atSign).map fun location => address.drop (location + 1)

def ProperSuffix (string suffix : CFString) : Prop :=
  ∃ front back, string = front ++ back ∧ front ≠ [] ∧ back.length = suffix.length ∧
    strings.equal back suffix = true

/-- The constraint is the mailbox, the host of the address or a domain that the host is in. -/
def MailboxMatches (address constraint : CFString) : Prop :=
  if atSign ∈ constraint then strings.equal address constraint = true
  else
    ∃ domain, domainOf address = some domain ∧
      if constraint.head? = some dot then ProperSuffix strings domain constraint
      else strings.equal domain constraint = true

/-- The matcher decides as described, and the same in any case. -/
structure MatchesAsMailbox (address constraint : CFString) : Prop where
  sameInAnyCase : ∀ address' constraint', SameLetters address' address →
    SameLetters constraint' constraint →
      SecRFC822NameMatch strings address' constraint' = SecRFC822NameMatch strings address constraint
  matches_iff : SecRFC822NameMatch strings address constraint = true ↔
    MailboxMatches strings address constraint

/-- The constraint is a domain that the address is in, as it is written too, and has no letters. -/
def WrittenAlike (domain constraint : CFString) : Prop :=
  domain.head? ≠ some dot ∧ constraint <:+ domain ∧ ∀ unit ∈ constraint, isLetter unit = false

variable {strings} {address address' constraint constraint' domain : CFString}

theorem mem_iff_idxOf? {string : CFString} {unit : UInt16} :
    unit ∈ string ↔ string.idxOf? unit ≠ none := by
  rw [Ne, List.idxOf?_eq_none_iff, not_not]

theorem SameLetters.mem_atSign (h : SameLetters constraint' constraint) :
    atSign ∈ constraint' ↔ atSign ∈ constraint := by
  rw [mem_iff_idxOf?, mem_iff_idxOf?, h.idxOf?_eq (by decide)]

theorem domainOf_sameLetters (h : SameLetters address' address)
    (hdomain : domainOf address = some domain) :
    ∃ domain', domainOf address' = some domain' ∧ SameLetters domain' domain := by
  rcases Option.map_eq_some_iff.mp hdomain with ⟨location, hlocation, rfl⟩
  rw [domainOf, h.idxOf?_eq (by decide), hlocation]
  exact ⟨_, rfl, h.drop _⟩

theorem domainOf_sameLetters_none (h : SameLetters address' address)
    (hdomain : domainOf address = none) : domainOf address' = none := by
  rw [domainOf, Option.map_eq_none_iff] at hdomain ⊢
  rw [h.idxOf?_eq (by decide), hdomain]

theorem exists_of_domainOf (hdomain : domainOf address = some domain) :
    ∃ localPart, address = localPart ++ atSign :: domain := by
  rcases Option.map_eq_some_iff.mp hdomain with ⟨location, hlocation, rfl⟩
  rcases List.findIdx?_eq_some_iff_getElem.mp hlocation with ⟨hlt, hat, -⟩
  refine ⟨address.take location, ?_⟩
  rw [← eq_of_beq hat, ← List.drop_eq_getElem_cons hlt, List.take_append_drop]

theorem suffix_address_iff (hdomain : domainOf address = some domain)
    (hat : atSign ∉ constraint) : constraint <:+ address ↔ constraint <:+ domain := by
  rcases exists_of_domainOf hdomain with ⟨localPart, rfl⟩
  have hend : domain <:+ localPart ++ atSign :: domain :=
    (List.suffix_cons _ _).trans (List.suffix_append _ _)
  constructor
  · intro hsuffix
    rcases Nat.lt_or_ge domain.length constraint.length with hlt | hge
    · have hlong : atSign :: domain <:+ constraint :=
        List.suffix_of_suffix_length_le (List.suffix_append _ _) hsuffix (by rw [List.length_cons]; omega)
      exact absurd (hlong.subset List.mem_cons_self) hat
    · exact List.suffix_of_suffix_length_le hsuffix hend hge
  · intro hsuffix
    exact hsuffix.trans hend

theorem head?_eq_some_iff {string : CFString} {unit : UInt16} :
    string.head? = some unit ↔ ∃ units, string = unit :: units := by
  cases string with
  | nil => simp
  | cons first units => simp [eq_comm]

namespace ProperSuffix
variable {string string' suffix suffix' : CFString}

theorem sameLetters (hstrings : strings.CaseInsensitive) (hstring : SameLetters string' string)
    (hsuffix : SameLetters suffix' suffix) (h : ProperSuffix strings string' suffix') :
    ProperSuffix strings string suffix := by
  rcases h with ⟨front, back, rfl, hfront, hlength, hequal⟩
  have htake := hstring.take front.length
  have hdrop := hstring.drop front.length
  rw [List.take_left] at htake
  rw [List.drop_left] at hdrop
  refine ⟨string.take front.length, string.drop front.length, (List.take_append_drop _ _).symm,
    ?_, ?_, ?_⟩
  · rwa [Ne, ← htake.nil_iff]
  · rw [← hdrop.length_eq, hlength, hsuffix.length_eq]
  · rw [← hstrings.letters _ _ _ _ hdrop hsuffix, hequal]

/-- A string that does not begin with the period of its suffix goes on before it. -/
theorem of_suffix (hstrings : strings.CaseInsensitive) (h : suffix <:+ string)
    (hdot : suffix.head? = some dot) (hstring : string.head? ≠ some dot) :
    ProperSuffix strings string suffix := by
  rcases h with ⟨front, rfl⟩
  refine ⟨front, suffix, rfl, ?_, rfl, hstrings.refl suffix⟩
  rintro rfl
  exact hstring hdot
end ProperSuffix

theorem nameMatch_mailbox (hat : atSign ∈ constraint) :
    SecRFC822NameMatch strings address constraint = strings.equal address constraint := by
  rcases Option.ne_none_iff_exists'.mp (mem_iff_idxOf?.mp hat) with ⟨location, hlocation⟩
  rw [SecRFC822NameMatch, hlocation]

theorem nameMatch_of_domainOf_none (hat : atSign ∉ constraint) (hdomain : domainOf address = none) :
    SecRFC822NameMatch strings address constraint = false := by
  rw [mem_iff_idxOf?, not_not] at hat
  rw [domainOf, Option.map_eq_none_iff] at hdomain
  rw [SecRFC822NameMatch, hat, hdomain]

theorem nameMatch_eq (hat : atSign ∉ constraint) (hdomain : domainOf address = some domain) :
    SecRFC822NameMatch strings address constraint =
      if dot ≠ CFStringGetCharacterAtIndex strings constraint 0 then
        strings.equal domain constraint
      else if dot = CFStringGetCharacterAtIndex strings domain 0 then false
      else CFStringHasSuffix address constraint := by
  rw [mem_iff_idxOf?, not_not] at hat
  rcases Option.map_eq_some_iff.mp hdomain with ⟨location, hlocation, rfl⟩
  have hfirst : CFStringGetCharacterAtIndex strings (address.drop (location + 1)) 0 =
      CFStringGetCharacterAtIndex strings address (location + 1) := by
    rw [CFStringGetCharacterAtIndex, CFStringGetCharacterAtIndex, List.getD_eq_getElem?_getD,
      List.getD_eq_getElem?_getD, List.getElem?_drop, Nat.add_zero]
  rw [SecRFC822NameMatch, hat, hlocation, hfirst]

theorem nameMatch_host (hat : atSign ∉ constraint) (hdomain : domainOf address = some domain)
    (hnil : constraint ≠ []) (hdot : constraint.head? ≠ some dot) :
    SecRFC822NameMatch strings address constraint = strings.equal domain constraint := by
  rw [nameMatch_eq hat hdomain]
  cases constraint with
  | nil => exact absurd rfl hnil
  | cons unit units =>
    refine if_pos fun heq => hdot ?_
    rw [heq]
    rfl

theorem nameMatch_domain (hat : atSign ∉ constraint) (hdomain : domainOf address = some domain)
    (hdot : constraint.head? = some dot) :
    SecRFC822NameMatch strings address constraint = true ↔
      domain.head? ≠ some dot ∧ constraint <:+ domain := by
  rw [nameMatch_eq hat hdomain, ← suffix_address_iff hdomain hat]
  rcases head?_eq_some_iff.mp hdot with ⟨units, rfl⟩
  have hfirst : dot = CFStringGetCharacterAtIndex strings (dot :: units) 0 := rfl
  rw [if_neg (not_not_intro hfirst), CFStringHasSuffix]
  cases domain with
  | nil =>
    have hsuffix : ¬ dot :: units <:+ address := by
      rw [suffix_address_iff hdomain hat]
      simp
    split_ifs <;> simp [hsuffix, List.isSuffixOf_iff_suffix]
  | cons unit domain =>
    change (if dot = unit then _ else _) = true ↔ some unit ≠ some dot ∧ _
    split_ifs with hunit
    · simp [hunit]
    · simp [Ne.symm hunit, List.isSuffixOf_iff_suffix]

theorem nameMatch_nil (hstrings : strings.CaseInsensitive) (hdomain : domainOf address = some domain) :
    SecRFC822NameMatch strings address [] = true ↔
      strings.characterBeyond ≠ dot ∧ domain = [] := by
  have hbeyond : CFStringGetCharacterAtIndex strings [] 0 = strings.characterBeyond := rfl
  have hsuffix : CFStringHasSuffix address [] = false := rfl
  have hequal : strings.equal domain [] = true ↔ domain = [] :=
    ⟨hstrings.nil domain, fun hnil => by rw [hnil]; exact hstrings.refl []⟩
  rw [nameMatch_eq List.not_mem_nil hdomain, hbeyond, hsuffix, ite_self]
  by_cases hdot : dot = strings.characterBeyond
  · simp [← hdot]
  · rw [if_pos hdot, hequal]
    exact (and_iff_right (Ne.symm hdot)).symm

/-- The matcher goes wrong about a domain, unless it is written alike and has no letters, and about
the empty constraint where something like a period is read at its start. -/
def MatchesAsWritten (strings : StringComparison) (address constraint : CFString) : Prop :=
  ∀ domain, domainOf address = some domain → atSign ∉ constraint →
    (constraint.head? = some dot → ProperSuffix strings domain constraint →
      WrittenAlike domain constraint) ∧
    ¬ (constraint = [] ∧ domain = [] ∧ strings.characterBeyond = dot)

section
variable (hstrings : strings.CaseInsensitive)
include hstrings

theorem matchesAsMailbox_of_mailbox (hat : atSign ∈ constraint) :
    MatchesAsMailbox strings address constraint := by
  constructor
  · intro address' constraint' haddress hconstraint
    rw [nameMatch_mailbox hat, nameMatch_mailbox (hconstraint.mem_atSign.mpr hat)]
    exact hstrings.letters _ _ _ _ haddress hconstraint
  · rw [nameMatch_mailbox hat, MailboxMatches, if_pos hat]

omit hstrings in
theorem matchesAsMailbox_of_domainOf_none (hat : atSign ∉ constraint)
    (hdomain : domainOf address = none) : MatchesAsMailbox strings address constraint := by
  constructor
  · intro address' constraint' haddress hconstraint
    have hat' := mt hconstraint.mem_atSign.mp hat
    rw [nameMatch_of_domainOf_none hat hdomain,
      nameMatch_of_domainOf_none hat' (domainOf_sameLetters_none haddress hdomain)]
  · rw [nameMatch_of_domainOf_none hat hdomain, MailboxMatches, if_neg hat, hdomain]
    simp

omit hstrings in
theorem mailboxMatches_iff (hat : atSign ∉ constraint) (hdomain : domainOf address = some domain) :
    MailboxMatches strings address constraint ↔
      if constraint.head? = some dot then ProperSuffix strings domain constraint
      else strings.equal domain constraint = true := by
  rw [MailboxMatches, if_neg hat, hdomain]
  simp

theorem matchesAsMailbox_of_host (hat : atSign ∉ constraint)
    (hdomain : domainOf address = some domain) (hnil : constraint ≠ [])
    (hdot : constraint.head? ≠ some dot) : MatchesAsMailbox strings address constraint := by
  constructor
  · intro address' constraint' haddress hconstraint
    rcases domainOf_sameLetters haddress hdomain with ⟨domain', hdomain', hsame⟩
    rw [nameMatch_host hat hdomain hnil hdot,
      nameMatch_host (mt hconstraint.mem_atSign.mp hat) hdomain' (mt hconstraint.nil_iff.mp hnil)
        (mt (hconstraint.head?_iff (by decide)).mp hdot)]
    exact hstrings.letters _ _ _ _ hsame hconstraint
  · rw [nameMatch_host hat hdomain hnil hdot, mailboxMatches_iff hat hdomain, if_neg hdot]

theorem matchesAsMailbox_nil_iff (hdomain : domainOf address = some domain) :
    MatchesAsMailbox strings address [] ↔ ¬ (domain = [] ∧ strings.characterBeyond = dot) := by
  have hmatches : MailboxMatches strings address [] ↔ domain = [] := by
    rw [mailboxMatches_iff List.not_mem_nil hdomain, if_neg (by simp)]
    exact ⟨hstrings.nil domain, fun hnil => by rw [hnil]; exact hstrings.refl []⟩
  constructor
  · rintro h ⟨rfl, hbeyond⟩
    have hmatch := h.matches_iff.mpr (hmatches.mpr rfl)
    exact ((nameMatch_nil hstrings hdomain).mp hmatch).1 hbeyond
  · intro hnot
    constructor
    · intro address' constraint' haddress hconstraint
      have hnil := hconstraint.nil_iff.mpr rfl
      subst hnil
      rcases domainOf_sameLetters haddress hdomain with ⟨domain', hdomain', hsame⟩
      rw [Bool.eq_iff_iff, nameMatch_nil hstrings hdomain, nameMatch_nil hstrings hdomain',
        hsame.nil_iff]
    · rw [hmatches, nameMatch_nil hstrings hdomain]
      exact ⟨fun h => h.2, fun hnil => ⟨fun hbeyond => hnot ⟨hnil, hbeyond⟩, hnil⟩⟩

omit hstrings in
/-- An address in a domain that is written alike without letters is matched in any case. -/
theorem WrittenAlike.sameLetters {domain' : CFString} (h : WrittenAlike domain constraint)
    (hdomain : SameLetters domain' domain) (hconstraint : SameLetters constraint' constraint) :
    domain'.head? ≠ some dot ∧ constraint' <:+ domain' := by
  rcases h with ⟨hhead, ⟨front, rfl⟩, hletters⟩
  refine ⟨mt (hdomain.head?_iff (by decide)).mp hhead, ?_⟩
  have hback := hdomain.drop front.length
  rw [List.drop_left] at hback
  rw [hconstraint.eq_of_no_letters hletters, ← hback.eq_of_no_letters hletters]
  exact List.drop_suffix _ _

theorem matchesAsMailbox_domain_iff (hat : atSign ∉ constraint)
    (hdomain : domainOf address = some domain) (hdot : constraint.head? = some dot) :
    MatchesAsMailbox strings address constraint ↔
      (ProperSuffix strings domain constraint → WrittenAlike domain constraint) := by
  have hmatches : MailboxMatches strings address constraint ↔
      ProperSuffix strings domain constraint := by
    rw [mailboxMatches_iff hat hdomain, if_pos hdot]
  have hmatch : SecRFC822NameMatch strings address constraint = true ↔
      domain.head? ≠ some dot ∧ constraint <:+ domain := nameMatch_domain hat hdomain hdot
  constructor
  · intro h hsuffix
    have haccepted := h.matches_iff.mpr (hmatches.mpr hsuffix)
    have hwritten := hmatch.mp haccepted
    refine ⟨hwritten.1, hwritten.2, fun unit hunit => ?_⟩
    by_contra hletter
    rw [Bool.not_eq_false] at hletter
    -- The constraint in its other case is no suffix any more.
    have hswap := sameLetters_swapcase constraint
    have hsame := h.sameInAnyCase address (constraint.map swapcase) rfl hswap
    rw [haccepted, nameMatch_domain (mt hswap.mem_atSign.mp hat) hdomain
      ((hswap.head?_iff (by decide)).mpr hdot)] at hsame
    have heq := List.suffix_of_suffix_length_le hsame.2 hwritten.2 (by simp)
    exact map_swapcase_ne hunit hletter (heq.eq_of_length (by simp))
  · intro hwritten
    have haccepts : ProperSuffix strings domain constraint →
        domain.head? ≠ some dot ∧ constraint <:+ domain := fun hsuffix =>
      ⟨(hwritten hsuffix).1, (hwritten hsuffix).2.1⟩
    constructor
    · intro address' constraint' haddress hconstraint
      rcases domainOf_sameLetters haddress hdomain with ⟨domain', hdomain', hsame⟩
      have hdot' := (hconstraint.head?_iff (by decide)).mpr hdot
      rw [Bool.eq_iff_iff, hmatch,
        nameMatch_domain (mt hconstraint.mem_atSign.mp hat) hdomain' hdot']
      constructor
      · rintro ⟨hhead, hsuffix⟩
        exact haccepts ((ProperSuffix.of_suffix hstrings hsuffix hdot' hhead).sameLetters hstrings
          hsame hconstraint)
      · rintro ⟨hhead, hsuffix⟩
        exact (hwritten (.of_suffix hstrings hsuffix hdot hhead)).sameLetters hsame
          hconstraint
    · rw [hmatch, hmatches]
      exact ⟨fun h => .of_suffix hstrings h.2 hdot h.1, haccepts⟩

/-- Mail addresses are matched as described, except in domains that are not written alike. -/
theorem matchesAsMailbox_iff (address constraint : CFString) :
    MatchesAsMailbox strings address constraint ↔
      MatchesAsWritten strings address constraint := by
  by_cases hat : atSign ∈ constraint
  · exact iff_of_true (matchesAsMailbox_of_mailbox hstrings hat)
      fun domain _ hnone => absurd hat hnone
  cases hdomain : domainOf address with
  | none =>
    refine iff_of_true (matchesAsMailbox_of_domainOf_none hat hdomain) fun domain h => ?_
    exact nomatch hdomain.symm.trans h
  | some domain =>
    have hwritten : MatchesAsWritten strings address constraint ↔
        (constraint.head? = some dot → ProperSuffix strings domain constraint →
          WrittenAlike domain constraint) ∧
        ¬ (constraint = [] ∧ domain = [] ∧ strings.characterBeyond = dot) := by
      simp [MatchesAsWritten, hdomain, hat]
    rw [hwritten]
    by_cases hnil : constraint = []
    · subst hnil
      rw [matchesAsMailbox_nil_iff hstrings hdomain]
      simp
    by_cases hdot : constraint.head? = some dot
    · rw [matchesAsMailbox_domain_iff hstrings hat hdomain hdot]
      simp [hdot, hnil]
    · simp [hdot, hnil, matchesAsMailbox_of_host hstrings hat hdomain hnil hdot]
end

theorem ascii_caseInsensitive : StringComparison.ascii.CaseInsensitive where
  refl string := beq_self_eq_true _
  letters string string' other other' h h' := by
    change (string.map lowercase == other.map lowercase) = _
    rw [h, h']
    rfl
  nil string h := by
    have hmap : string.map lowercase = [] := eq_of_beq h
    exact List.map_eq_nil_iff.mp hmap
  period string other h := by
    have hsame : SameLetters string other := eq_of_beq h
    exact hsame.head?_iff (by decide)

/-- `a@b.example` and the host `B.EXAMPLE`. -/
theorem matchesAsMailbox_host :
    MatchesAsMailbox StringComparison.ascii (cfstr "a@b.example") (cfstr "B.EXAMPLE") := by
  refine (matchesAsMailbox_iff ascii_caseInsensitive _ _).mpr fun domain hdomain _ => ⟨?_, ?_⟩
  · intro hdot
    exact absurd hdot (by decide)
  · rintro ⟨hnil, -⟩
    exact absurd hnil (by decide)

/-- `a@b.example` and the domain `.EXAMPLE`. -/
theorem domain_inOtherCase :
    ¬ MatchesAsMailbox StringComparison.ascii (cfstr "a@b.example") (cfstr ".EXAMPLE") := by
  intro h
  have hwritten := (matchesAsMailbox_domain_iff ascii_caseInsensitive (by decide)
    (show domainOf (cfstr "a@b.example") = some (cfstr "b.example") by decide) (by decide)).mp h
  have hsuffix : ProperSuffix StringComparison.ascii (cfstr "b.example") (cfstr ".EXAMPLE") :=
    ⟨cfstr "b", cfstr ".example", by decide, by decide, by decide, by decide⟩
  exact absurd (hwritten hsuffix).2.1 (by decide)
end SecurityFramework.Trustd
