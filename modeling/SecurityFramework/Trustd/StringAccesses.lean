import SecurityFramework.Trustd.NameConstraintsVerdict
import Mathlib.Data.List.GetD
import Mathlib.Data.List.TakeWhile

/-!
# Indices and ranges in the matching of names

The three matchers once more, with an error for each character and each range outside of its string.
-/

namespace SecurityFramework.Trustd
open DER

inductive StringFault
  | character (length idx : Int)
  | range (length location count : Int)
  deriving DecidableEq

structure CFRange where
  location : Int
  length : Int

def characterAt (string : CFString) (idx : Int) : Except StringFault UInt16 :=
  if 0 ≤ idx ∧ idx < string.length then .ok (string.getD idx.toNat 0)
  else .error (.character string.length idx)

def substring (string : CFString) (range : CFRange) : Except StringFault CFString :=
  if 0 ≤ range.location ∧ 0 ≤ range.length ∧ range.location + range.length ≤ string.length then
    .ok ((string.drop range.location.toNat).take range.length.toNat)
  else .error (.range string.length range.location range.length)

def findCharacterFromSet (string : CFString) (set : UInt16 → Bool) (range : CFRange) :
    Except StringFault (Option Int) :=
  (substring string range).map fun part =>
    (part.findIdx? set).map fun idx : Nat => range.location + idx

def isPortOrPathSeparator (unit : UInt16) : Bool := decide (unit = 0x3A ∨ unit = 0x2F)

variable (strings : StringComparison)

def compareWithOptions (string other : CFString) (range : CFRange) : Except StringFault Bool :=
  (substring string range).map fun part => strings.equal part other

def checkedDNSNameConstraintsMatch (DNSName constraint : CFString) : Except StringFault Bool :=
  let clength : Int := constraint.length
  let dlength : Int := DNSName.length
  let compare := compareWithOptions strings DNSName constraint ⟨dlength - clength, clength⟩
  if dlength < clength then .ok false
  else if dlength ≠ clength then
    (characterAt constraint 0).bind fun first =>
      if dot = first then compare
      else
        (characterAt DNSName (dlength - clength - 1)).bind fun left =>
          if dot = left then compare else .ok false
  else compare

def checkedHostnameMatch (URI_hostname hostname : CFString) : Except StringFault Bool :=
  (characterAt URI_hostname 0).bind fun first =>
    if dot = first then .ok false
    else if (URI_hostname.length : Int) < hostname.length then .ok false
    else
      (characterAt hostname 0).bind fun first =>
        compareWithOptions strings URI_hostname hostname
          ⟨if dot = first then URI_hostname.length - hostname.length else 0, hostname.length⟩

def checkedURIMatch (URI hostname : CFString) : Except StringFault Bool :=
  match CFStringFind URI (cfstr "://") with
  | none => .ok false
  | some location =>
    let range : CFRange := ⟨location + 3, URI.length - location - 3⟩
    (findCharacterFromSet URI isPortOrPathSeparator range).bind fun separator =>
    let length := match separator with
      | none => range.length
      | some separator => range.length - (URI.length - separator)
    (substring URI ⟨range.location, length⟩).bind fun URI_hostname =>
    checkedHostnameMatch strings URI_hostname hostname

def checkedRFC822NameMatch (emailAddress constraint : CFString) : Except StringFault Bool :=
  match constraint.idxOf? atSign with
  | some _ => .ok (strings.equal emailAddress constraint)
  | none =>
    match emailAddress.idxOf? atSign with
    | none => .ok false
    | some location =>
      (characterAt constraint 0).bind fun first =>
        if dot ≠ first then
          compareWithOptions strings emailAddress constraint
            ⟨location + 1, emailAddress.length - location - 1⟩
        else
          (characterAt emailAddress (location + 1)).bind fun first =>
            if dot = first then .ok false else .ok (CFStringHasSuffix emailAddress constraint)

variable {strings}

variable {string : CFString} {location : Nat}

variable (strings) in
theorem characterAt_ok {idx : Nat} (h : idx < string.length) :
    characterAt string idx = .ok (CFStringGetCharacterAtIndex strings string idx) := by
  have hbounds : (0 : Int) ≤ idx ∧ (idx : Int) < string.length := by omega
  rw [characterAt, if_pos hbounds, CFStringGetCharacterAtIndex, Int.toNat_natCast,
    List.getD_eq_getElem _ _ h, List.getD_eq_getElem _ _ h]

theorem characterAt_nil (idx : Int) : characterAt [] idx = .error (.character 0 idx) := by
  rw [characterAt, if_neg]
  · rfl
  · rw [List.length_nil]
    omega

theorem substring_ok {length : Nat} (h : location + length ≤ string.length) :
    substring string ⟨location, length⟩ = .ok ((string.drop location).take length) := by
  have hbounds : (0 : Int) ≤ location ∧ (0 : Int) ≤ length ∧
      (location : Int) + length ≤ string.length := by omega
  rw [substring, if_pos hbounds]
  simp only [Int.toNat_natCast]

theorem compareWithOptions_ok {other : CFString} {length : Nat}
    (h : location + length ≤ string.length) :
    compareWithOptions strings string other ⟨location, length⟩ =
      .ok (strings.equal ((string.drop location).take length) other) := by
  rw [compareWithOptions, substring_ok h]
  rfl

theorem CFStringFind_le {toFind : CFString} (h : CFStringFind string toFind = some location) :
    location + toFind.length ≤ string.length := by
  induction string generalizing location with
  | nil =>
    rw [CFStringFind] at h
    split_ifs at h with hnil
    cases h
    simp [hnil]
  | cons unit string ih =>
    rw [CFStringFind] at h
    split_ifs at h with hprefix
    · cases h
      have hle := (List.isPrefixOf_iff_prefix.mp hprefix).length_le
      omega
    · rcases Option.map_eq_some_iff.mp h with ⟨before, hbefore, rfl⟩
      have hle := ih hbefore
      rw [List.length_cons]
      omega

theorem idxOf?_lt {unit : UInt16} (h : string.idxOf? unit = some location) :
    location < string.length := by
  rcases List.findIdx?_eq_some_iff_getElem.mp h with ⟨hlt, -⟩
  exact hlt

variable (strings)

/-- The strings with which a matcher asks for what is not there. -/
def DegenerateDNSName (DNSName constraint : CFString) : Prop := constraint = [] ∧ DNSName ≠ []

def DegenerateURI (URI hostname : CFString) : Prop :=
  ∃ location, CFStringFind URI (cfstr "://") = some location ∧
    (URIHostname URI location = [] ∨
      hostname = [] ∧ (URIHostname URI location).head? ≠ some dot)

def DegenerateRFC822Name (emailAddress constraint : CFString) : Prop :=
  constraint.idxOf? atSign = none ∧
    ∃ location, emailAddress.idxOf? atSign = some location ∧
      (constraint = [] ∨ constraint.head? = some dot ∧ location + 1 = emailAddress.length)

/-- The checked matcher stops just at these strings, and gives the result of the other one
elsewhere. -/
def ChecksAs (checked : Except StringFault Bool) (result : Bool) (degenerate : Prop) : Prop :=
  (degenerate → ∃ fault, checked = .error fault) ∧ (¬ degenerate → checked = .ok result)

theorem checkedDNSName (DNSName constraint : CFString) :
    ChecksAs (checkedDNSNameConstraintsMatch strings DNSName constraint)
      (SecDNSNameConstraintsMatch strings DNSName constraint)
      (DegenerateDNSName DNSName constraint) := by
  constructor
  · rintro ⟨rfl, hname⟩
    have hlength := List.length_pos_iff.mpr hname
    refine ⟨.character 0 0, ?_⟩
    simp only [checkedDNSNameConstraintsMatch, List.length_nil]
    rw [if_neg (by omega), if_pos (by omega), characterAt_nil]
    rfl
  · intro hfine
    rw [checkedDNSNameConstraintsMatch, SecDNSNameConstraintsMatch]
    by_cases hlt : DNSName.length < constraint.length
    · rw [if_pos hlt]
      exact if_pos (by omega)
    have hsub : (DNSName.length : Int) - constraint.length =
        ((DNSName.length - constraint.length : Nat) : Int) := by omega
    have hcompare : compareWithOptions strings DNSName constraint
        ⟨DNSName.length - constraint.length, constraint.length⟩ =
          .ok (strings.equal (DNSName.drop (DNSName.length - constraint.length)) constraint) := by
      rw [hsub, compareWithOptions_ok (by omega), List.take_of_length_le]
      rw [List.length_drop]
      omega
    simp only [hcompare]
    rw [if_neg hlt, if_neg (by omega)]
    by_cases heq : DNSName.length = constraint.length
    · rw [if_neg (by omega), if_neg (by simp [heq])]
    · have hconstraint : 0 < constraint.length := by
        rw [List.length_pos_iff]
        rintro rfl
        exact hfine ⟨rfl, fun hnil => heq (by rw [hnil])⟩
      have hleft : (DNSName.length : Int) - constraint.length - 1 =
          ((DNSName.length - constraint.length - 1 : Nat) : Int) := by omega
      have hfirst := characterAt_ok strings hconstraint
      rw [Nat.cast_zero] at hfirst
      rw [if_pos (by omega), hfirst, hleft, characterAt_ok strings (by omega)]
      simp only [Except.bind]
      split_ifs <;> simp_all

theorem take_findIdx? (string : CFString) :
    string.take ((string.findIdx? isPortOrPathSeparator).getD string.length) =
      string.takeWhile fun unit => unit ≠ 0x3A ∧ unit ≠ 0x2F := by
  induction string with
  | nil => rfl
  | cons unit string ih =>
    by_cases hseparator : unit = 0x3A ∨ unit = 0x2F
    · have hset : isPortOrPathSeparator unit = true := decide_eq_true hseparator
      rw [List.findIdx?_cons, if_pos hset, List.takeWhile_cons_of_neg]
      · rfl
      · simpa [or_iff_not_imp_left] using hseparator
    · have hset : isPortOrPathSeparator unit = false := decide_eq_false hseparator
      rw [List.findIdx?_cons, hset, if_neg (by simp), List.takeWhile_cons_of_pos, ← ih]
      · cases string.findIdx? isPortOrPathSeparator <;> rfl
      · simpa [not_or] using hseparator

theorem checkedHostname (URI_hostname hostname : CFString) :
    ChecksAs (checkedHostnameMatch strings URI_hostname hostname)
      (if dot = CFStringGetCharacterAtIndex strings URI_hostname 0 then false
        else if URI_hostname.length < hostname.length then false
        else if dot = CFStringGetCharacterAtIndex strings hostname 0 then
          strings.equal (URI_hostname.drop (URI_hostname.length - hostname.length)) hostname
        else strings.equal (URI_hostname.take hostname.length) hostname)
      (URI_hostname = [] ∨ hostname = [] ∧ URI_hostname.head? ≠ some dot) := by
  rw [checkedHostnameMatch]
  cases URI_hostname with
  | nil => exact ⟨fun _ => ⟨_, by rw [characterAt_nil]; rfl⟩, fun hfine => absurd (Or.inl rfl) hfine⟩
  | cons unit units =>
    have hunit : characterAt (unit :: units) 0 =
        .ok (CFStringGetCharacterAtIndex strings (unit :: units) 0) :=
      characterAt_ok strings (Nat.succ_pos _)
    have hhead : CFStringGetCharacterAtIndex strings (unit :: units) 0 = unit := rfl
    rw [hunit, hhead]
    by_cases hdot : dot = unit
    · simp [ChecksAs, hdot, Except.bind]
    cases hostname with
    | nil =>
      refine ⟨fun _ => ⟨.character 0 0, ?_⟩, fun hfine => absurd (Or.inr ⟨rfl, ?_⟩) hfine⟩
      · dsimp only [Except.bind]
        rw [if_neg hdot, if_neg (by simp; omega), characterAt_nil]
      · simpa using Ne.symm hdot
    | cons unit' units' =>
      refine ⟨by simp, fun _ => ?_⟩
      have hunit' : characterAt (unit' :: units') 0 =
          .ok (CFStringGetCharacterAtIndex strings (unit' :: units') 0) :=
        characterAt_ok strings (Nat.succ_pos _)
      dsimp only [Except.bind]
      rw [if_neg hdot, if_neg hdot, hunit']
      generalize CFStringGetCharacterAtIndex strings (unit' :: units') 0 = first
      generalize unit :: units = URI_hostname
      generalize unit' :: units' = hostname
      by_cases hlt : URI_hostname.length < hostname.length
      · rw [if_pos (by omega), if_pos hlt]
      have hsub : (URI_hostname.length : Int) - hostname.length =
          ((URI_hostname.length - hostname.length : Nat) : Int) := by omega
      rw [if_neg (by omega), if_neg hlt]
      dsimp only
      by_cases hfirst : dot = first
      · rw [if_pos hfirst, if_pos hfirst, hsub, compareWithOptions_ok (by omega),
          List.take_of_length_le]
        rw [List.length_drop]
        omega
      · rw [if_neg hfirst, if_neg hfirst]
        have hwhole : 0 + hostname.length ≤ URI_hostname.length := by omega
        exact compareWithOptions_ok hwhole

theorem checkedURI (URI hostname : CFString) :
    ChecksAs (checkedURIMatch strings URI hostname) (SecURIMatch strings URI hostname)
      (DegenerateURI URI hostname) := by
  rw [checkedURIMatch, SecURIMatch, DegenerateURI]
  cases hfind : CFStringFind URI (cfstr "://") with
  | none =>
    refine ⟨?_, fun _ => rfl⟩
    rintro ⟨location, hlocation, -⟩
    exact nomatch hlocation
  | some location =>
    have hle : location + 3 ≤ URI.length := CFStringFind_le hfind
    have hlocation : (location : Int) + 3 = ((location + 3 : Nat) : Int) := by omega
    have hlength : (URI.length : Int) - location - 3 = ((URI.length - (location + 3) : Nat) : Int) := by
      omega
    have hfound : findCharacterFromSet URI isPortOrPathSeparator
        ⟨location + 3, URI.length - location - 3⟩ =
          .ok (((URI.drop (location + 3)).findIdx? isPortOrPathSeparator).map fun idx : Nat =>
            (location : Int) + 3 + idx) := by
      rw [findCharacterFromSet, hlocation, hlength, substring_ok (by omega),
        List.take_of_length_le (by simp)]
      rfl
    have hcut : substring URI ⟨location + 3,
        match ((URI.drop (location + 3)).findIdx? isPortOrPathSeparator).map fun idx : Nat =>
            (location : Int) + 3 + idx with
        | none => URI.length - location - 3
        | some separator => URI.length - location - 3 - (URI.length - separator)⟩ =
        .ok (URIHostname URI location) := by
      rw [URIHostname, ← take_findIdx?]
      cases hidx : (URI.drop (location + 3)).findIdx? isPortOrPathSeparator with
      | none =>
        rw [Option.map_none, hlocation]
        dsimp only
        rw [hlength, substring_ok (by omega), Option.getD_none, List.length_drop]
      | some idx =>
        have hlt := (List.findIdx?_eq_some_iff_getElem.mp hidx).choose
        rw [List.length_drop] at hlt
        have hidx' : (URI.length : Int) - location - 3 - (URI.length - (location + 3 + idx)) =
            (idx : Nat) := by omega
        rw [Option.map_some]
        dsimp only
        rw [hidx', hlocation, substring_ok (by omega), Option.getD_some]
    have hdegenerate : (∃ location', some location = some location' ∧
        (URIHostname URI location' = [] ∨
          hostname = [] ∧ (URIHostname URI location').head? ≠ some dot)) ↔
        (URIHostname URI location = [] ∨
          hostname = [] ∧ (URIHostname URI location).head? ≠ some dot) := by simp
    rw [hdegenerate]
    simp only [hfound, Except.bind, hcut]
    generalize URIHostname URI location = URI_hostname
    exact checkedHostname strings URI_hostname hostname

theorem checkedRFC822Name (emailAddress constraint : CFString) :
    ChecksAs (checkedRFC822NameMatch strings emailAddress constraint)
      (SecRFC822NameMatch strings emailAddress constraint)
      (DegenerateRFC822Name emailAddress constraint) := by
  rw [checkedRFC822NameMatch, SecRFC822NameMatch, DegenerateRFC822Name]
  cases hmailbox : constraint.idxOf? atSign with
  | some idx =>
    refine ⟨?_, fun _ => rfl⟩
    rintro ⟨hnone, -⟩
    exact nomatch hnone
  | none =>
    cases hat : emailAddress.idxOf? atSign with
    | none =>
      refine ⟨?_, fun _ => rfl⟩
      rintro ⟨-, location, hlocation, -⟩
      exact nomatch hlocation
    | some location =>
      have hlt := idxOf?_lt hat
      have hdegenerate : ((none : Option Nat) = none ∧ ∃ location', some location = some location' ∧
          (constraint = [] ∨ constraint.head? = some dot ∧ location' + 1 = emailAddress.length)) ↔
          (constraint = [] ∨ constraint.head? = some dot ∧ location + 1 = emailAddress.length) := by
        simp
      rw [hdegenerate]
      have hlocation : (location : Int) + 1 = ((location + 1 : Nat) : Int) := by omega
      have hlength : (emailAddress.length : Int) - location - 1 =
          ((emailAddress.length - (location + 1) : Nat) : Int) := by omega
      have hcompare : compareWithOptions strings emailAddress constraint
          ⟨location + 1, emailAddress.length - location - 1⟩ =
          .ok (strings.equal (emailAddress.drop (location + 1)) constraint) := by
        rw [hlocation, hlength, compareWithOptions_ok (by omega), List.take_of_length_le (by simp)]
      cases constraint with
      | nil =>
        refine ⟨fun _ => ⟨.character 0 0, ?_⟩, fun hfine => absurd (Or.inl rfl) hfine⟩
        dsimp only
        rw [characterAt_nil]
        rfl
      | cons unit units =>
        have hunit : characterAt (unit :: units) 0 =
            .ok (CFStringGetCharacterAtIndex strings (unit :: units) 0) :=
          characterAt_ok strings (Nat.succ_pos _)
        have hhead : CFStringGetCharacterAtIndex strings (unit :: units) 0 = unit := rfl
        dsimp only
        rw [hunit, hhead, hcompare]
        dsimp only [Except.bind]
        by_cases hdot : dot = unit
        · rw [if_neg (not_not_intro hdot), if_neg (not_not_intro hdot)]
          rcases Nat.lt_or_ge (location + 1) emailAddress.length with hend | hend
          · refine ⟨by simp; omega, fun _ => ?_⟩
            rw [hlocation, characterAt_ok strings hend]
            dsimp only
            split_ifs <;> rfl
          · refine ⟨fun _ => ⟨.character emailAddress.length (location + 1), ?_⟩, fun hfine =>
              absurd (Or.inr ⟨by simp [hdot], by omega⟩) hfine⟩
            rw [characterAt, if_neg (by omega)]
        · rw [if_pos hdot, if_pos hdot]
          refine ⟨?_, fun _ => rfl⟩
          rintro (hnil | ⟨hfirst, -⟩)
          · exact nomatch hnil
          · exact absurd (Option.some.inj hfirst).symm hdot

inductive NameMatcher
  | SecDNSNameConstraintsMatch | SecURIMatch | SecRFC822NameMatch

namespace NameMatcher
def checked : NameMatcher → CFString → CFString → Except StringFault Bool
  | SecDNSNameConstraintsMatch => checkedDNSNameConstraintsMatch strings
  | SecURIMatch => checkedURIMatch strings
  | SecRFC822NameMatch => checkedRFC822NameMatch strings

def result : NameMatcher → CFString → CFString → Bool
  | SecDNSNameConstraintsMatch => Trustd.SecDNSNameConstraintsMatch strings
  | SecURIMatch => Trustd.SecURIMatch strings
  | SecRFC822NameMatch => Trustd.SecRFC822NameMatch strings

def Degenerate : NameMatcher → CFString → CFString → Prop
  | SecDNSNameConstraintsMatch => DegenerateDNSName
  | SecURIMatch => DegenerateURI
  | SecRFC822NameMatch => DegenerateRFC822Name

theorem checksAs (matcher : NameMatcher) (name constraint : CFString) :
    ChecksAs (matcher.checked strings name constraint) (matcher.result strings name constraint)
      (matcher.Degenerate name constraint) := by
  cases matcher with
  | SecDNSNameConstraintsMatch => exact checkedDNSName strings name constraint
  | SecURIMatch => exact checkedURI strings name constraint
  | SecRFC822NameMatch => exact checkedRFC822Name strings name constraint

/-- No character and no range is outside of its string. -/
def StaysInBounds (matcher : NameMatcher) (name constraint : CFString) : Prop :=
  ∃ result, matcher.checked strings name constraint = .ok result

/-- Only degenerate strings lead outside. -/
theorem staysInBounds_iff (matcher : NameMatcher) (name constraint : CFString) :
    matcher.StaysInBounds strings name constraint ↔ ¬ matcher.Degenerate name constraint := by
  have hchecks := matcher.checksAs strings name constraint
  constructor
  · rintro ⟨result, hresult⟩ hdegenerate
    rcases hchecks.1 hdegenerate with ⟨fault, hfault⟩
    exact nomatch hresult.symm.trans hfault
  · intro hfine
    exact ⟨_, hchecks.2 hfine⟩

/-- Any DNS name against an empty constraint. -/
theorem emptyConstraint_outOfBounds :
    ¬ SecDNSNameConstraintsMatch.StaysInBounds StringComparison.ascii (cfstr "a.example") [] := by
  rintro ⟨result, hresult⟩
  rcases (checkedDNSName StringComparison.ascii (cfstr "a.example") []).1 ⟨rfl, by decide⟩ with
    ⟨fault, hfault⟩
  exact nomatch hresult.symm.trans hfault
end NameMatcher
end SecurityFramework.Trustd
