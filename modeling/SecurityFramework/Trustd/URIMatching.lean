import SecurityFramework.Trustd.MailboxMatching

/-! # URIs against constraints -/

namespace SecurityFramework.Trustd
open DER

def endsScheme (unit : UInt16) : Bool :=
  decide (unit = 0x3A ∨ unit = 0x2F ∨ unit = 0x3F ∨ unit = 0x23)

def endsAuthority (unit : UInt16) : Bool := decide (unit = 0x2F ∨ unit = 0x3F ∨ unit = 0x23)

def schemeOf (URI : CFString) : CFString := URI.takeWhile fun unit => !endsScheme unit

/-- What follows a scheme and `://`, up to the path, the query or the fragment. -/
def authorityOf (URI : CFString) : Option CFString :=
  if schemeOf URI ≠ [] ∧ (cfstr "://").isPrefixOf (URI.drop (schemeOf URI).length) then
    some ((URI.drop ((schemeOf URI).length + 3)).takeWhile fun unit => !endsAuthority unit)
  else none

def withoutUserinfo (authority : CFString) : CFString :=
  match authority.idxOf? atSign with
  | none => authority
  | some location => authority.drop (location + 1)

/-- A literal address stands in brackets; everything else ends before the port. -/
def withoutPort (hostAndPort : CFString) : CFString :=
  if hostAndPort.head? = some 0x5B then
    hostAndPort.take ((hostAndPort.takeWhile fun unit => unit ≠ 0x5D).length + 1)
  else hostAndPort.takeWhile fun unit => unit ≠ 0x3A

def hostOf (URI : CFString) : Option CFString :=
  (authorityOf URI).map fun authority => withoutPort (withoutUserinfo authority)

def cutHost (URI : CFString) : Option CFString :=
  (CFStringFind URI (cfstr "://")).map (URIHostname URI)

variable (strings : StringComparison)

/-- The host equals the constraint or, when that begins with a period, goes on before it, with a label
at its start. -/
def HostMatches (host constraint : CFString) : Prop :=
  if constraint.head? = some dot then
    host.head? ≠ some dot ∧ ProperSuffix strings host constraint
  else strings.equal host constraint = true

/-- The URI matches just when its host does. -/
def MatchesAsHost (URI constraint : CFString) : Prop :=
  SecURIMatch strings URI constraint = true ↔
    ∃ host, hostOf URI = some host ∧ HostMatches strings host constraint

/-- The first characters, as many as the prefix has, equal it in any case. -/
def BeginsWith (string pre : CFString) : Prop :=
  pre.length ≤ string.length ∧ strings.equal (string.take pre.length) pre = true

/-- The cut part begins with the constraint or, when that begins with a period, goes on before it. -/
def CutMatches (cut constraint : CFString) : Prop :=
  cut.head? ≠ some dot ∧
    if constraint.head? = some dot then ProperSuffix strings cut constraint
    else (cut = [] → strings.characterBeyond ≠ dot) ∧ BeginsWith strings cut constraint

variable {strings} {URI constraint cut : CFString}

theorem equal_drop_iff (hstrings : strings.CaseInsensitive)
    (hcut : cut.head? ≠ some dot) (hdot : constraint.head? = some dot) :
    constraint.length ≤ cut.length ∧
        strings.equal (cut.drop (cut.length - constraint.length)) constraint = true ↔
      ProperSuffix strings cut constraint := by
  constructor
  · rintro ⟨hle, hequal⟩
    refine ⟨cut.take (cut.length - constraint.length), _, (List.take_append_drop _ _).symm, ?_, ?_,
      hequal⟩
    · intro hnil
      have hwhole := (hstrings.period _ _ hequal).mpr hdot
      have hsplit := List.take_append_drop (cut.length - constraint.length) cut
      rw [hnil, List.nil_append] at hsplit
      rw [hsplit] at hwhole
      exact hcut hwhole
    · rw [List.length_drop]
      omega
  · rintro ⟨front, back, rfl, -, hlength, hequal⟩
    have hsub : (front ++ back).length - constraint.length = front.length := by
      rw [List.length_append]
      omega
    rw [hsub, List.drop_left]
    exact ⟨by rw [List.length_append]; omega, hequal⟩

theorem first_eq_dot {string : CFString} (h : string ≠ []) :
    dot = CFStringGetCharacterAtIndex strings string 0 ↔ string.head? = some dot := by
  cases string with
  | nil => exact absurd rfl h
  | cons unit units =>
    change dot = unit ↔ some unit = some dot
    rw [Option.some.injEq, eq_comm]

theorem uriMatch_iff (hstrings : strings.CaseInsensitive) :
    SecURIMatch strings URI constraint = true ↔
      ∃ cut, cutHost URI = some cut ∧ CutMatches strings cut constraint := by
  rw [SecURIMatch, cutHost]
  cases CFStringFind URI (cfstr "://") with
  | none => simp
  | some location =>
    simp only [Option.map_some, Option.some.injEq, exists_eq_left']
    generalize URIHostname URI location = cut
    rw [CutMatches]
    by_cases hdot : constraint.head? = some dot
    · have hnil : constraint ≠ [] := by
        rintro rfl
        exact nomatch hdot
      rw [if_pos hdot, if_pos ((first_eq_dot hnil).mpr hdot)]
      by_cases hcut : cut = []
      · subst hcut
        have hlt : ([] : CFString).length < constraint.length := List.length_pos_iff.mpr hnil
        have hnone : ¬ ProperSuffix strings [] constraint := by
          rintro ⟨front, back, hsplit, hfront, -⟩
          exact hfront (List.append_eq_nil_iff.mp hsplit.symm).1
        simp [hnil, hnone]
      · by_cases hhead : cut.head? = some dot
        · rw [if_pos ((first_eq_dot hcut).mpr hhead)]
          simp [hhead]
        · rw [if_neg (mt (first_eq_dot hcut).mp hhead), ← equal_drop_iff hstrings hhead hdot]
          split_ifs with hlt
          · simp [hlt]
          · simp [hhead, not_lt.mp hlt]
    · have hstart : dot = CFStringGetCharacterAtIndex strings cut 0 ↔
          cut.head? = some dot ∨ cut = [] ∧ strings.characterBeyond = dot := by
        by_cases hcut : cut = []
        · subst hcut
          simp [CFStringGetCharacterAtIndex, eq_comm]
        · simp [first_eq_dot hcut, hcut]
      have hcompare : (if dot = CFStringGetCharacterAtIndex strings constraint 0 then
            strings.equal (cut.drop (cut.length - constraint.length)) constraint
          else strings.equal (cut.take constraint.length) constraint) =
            strings.equal (cut.take constraint.length) constraint := by
        by_cases hnil : constraint = []
        · subst hnil
          simp
        · rw [if_neg (mt (first_eq_dot hnil).mp hdot)]
      rw [if_neg hdot, hcompare, BeginsWith]
      by_cases hfirst : dot = CFStringGetCharacterAtIndex strings cut 0
      · rw [if_pos hfirst]
        rcases hstart.mp hfirst with hhead | ⟨hnil, hbeyond⟩
        · simp [hhead]
        · simp [hnil, hbeyond]
      · rw [if_neg hfirst]
        rw [hstart, not_or, not_and] at hfirst
        split_ifs with hlt
        · simp [hlt]
        · rw [and_iff_right hfirst.1, and_iff_right hfirst.2, and_iff_right (not_lt.mp hlt)]

/-- A constraint that is a host begins a longer one just when it equals that host. -/
def NotMerelyBegun (strings : StringComparison) (host constraint : CFString) : Prop :=
  (host.head? ≠ some dot ∧ constraint.length < host.length ∧
      strings.equal (host.take constraint.length) constraint = true ↔
    constraint.length ≠ host.length ∧ strings.equal host constraint = true) ∧
  ¬ (host = [] ∧ constraint = [] ∧ strings.characterBeyond = dot)

/-- The part that is cut out is the host, and a constraint without a period at its start does not
merely begin it; or the constraint does not tell the two parts apart. -/
def CutAsHost (strings : StringComparison) (URI constraint : CFString) : Prop :=
  if cutHost URI = hostOf URI then
    ∀ host, hostOf URI = some host → constraint.head? ≠ some dot →
      NotMerelyBegun strings host constraint
  else
    (∃ cut, cutHost URI = some cut ∧ CutMatches strings cut constraint) ↔
      ∃ host, hostOf URI = some host ∧ HostMatches strings host constraint

/-- Where the right part is cut out, only its beginning may be taken for the whole. -/
theorem cutMatches_iff (hstrings : strings.CaseInsensitive) (host : CFString) :
    (CutMatches strings host constraint ↔ HostMatches strings host constraint) ↔
      (constraint.head? ≠ some dot → NotMerelyBegun strings host constraint) := by
  rw [CutMatches, HostMatches]
  by_cases hdot : constraint.head? = some dot
  · simp [hdot]
  rw [if_neg hdot, if_neg hdot, NotMerelyBegun, BeginsWith, forall_prop_of_true hdot]
  rcases lt_trichotomy constraint.length host.length with hlt | heq | hgt
  · have hnil : host ≠ [] := by
      rintro rfl
      exact absurd hlt (Nat.not_lt_zero _)
    simp [hnil, hlt, hlt.le, hlt.ne]
  · have htake : host.take constraint.length = host := List.take_of_length_le heq.ge
    have hhead : strings.equal host constraint = true → host.head? ≠ some dot := fun hequal =>
      mt (hstrings.period _ _ hequal).mp hdot
    rw [htake]
    by_cases hnil : host = []
    · subst hnil
      have hconstraint : constraint = [] := List.length_eq_zero_iff.mp heq
      subst hconstraint
      simp [hstrings.refl]
    · simp only [hnil, false_implies, true_and, false_and, not_false_eq_true, and_true, heq,
        le_refl, lt_self_iff_false, ne_eq, not_true_eq_false, and_false, iff_self, iff_true]
      exact ⟨fun h => h.2, fun h => ⟨hhead h, h⟩⟩
  · have hconstraint : constraint ≠ [] := by
      rintro rfl
      exact absurd hgt (Nat.not_lt_zero _)
    simp [hconstraint, not_le.mpr hgt, not_lt.mpr hgt.le, hgt.ne']

/-- URIs are matched by their host where that is cut out and not merely begun. -/
theorem matchesAsHost_iff (hstrings : strings.CaseInsensitive) (URI constraint : CFString) :
    MatchesAsHost strings URI constraint ↔ CutAsHost strings URI constraint := by
  rw [MatchesAsHost, uriMatch_iff hstrings, CutAsHost]
  split_ifs with hcut
  · rw [hcut]
    cases hostOf URI with
    | none => simp
    | some host => simpa using cutMatches_iff hstrings host
  · exact Iff.rfl

/-- `http://www.example.com/` and the constraint `.EXAMPLE.COM`. -/
theorem matchesAsHost_www :
    MatchesAsHost StringComparison.ascii (cfstr "http://www.example.com/")
      (cfstr ".EXAMPLE.COM") := by
  refine (matchesAsHost_iff ascii_caseInsensitive _ _).mpr ?_
  rw [CutAsHost, if_pos (by decide +kernel)]
  exact fun host _ hnot => absurd (by decide) hnot

/-- `http://example.com.test/` and the constraint `example.com`. -/
theorem host_merelyBegun :
    ¬ MatchesAsHost StringComparison.ascii (cfstr "http://example.com.test/")
      (cfstr "example.com") := by
  intro h
  have haccepted : SecURIMatch StringComparison.ascii (cfstr "http://example.com.test/")
      (cfstr "example.com") = true := by decide +kernel
  have hhost : hostOf (cfstr "http://example.com.test/") = some (cfstr "example.com.test") := by
    decide +kernel
  rcases h.mp haccepted with ⟨host, hof, hmatches⟩
  cases hhost.symm.trans hof
  rw [HostMatches, if_neg (by decide)] at hmatches
  exact absurd hmatches (by decide +kernel)
end SecurityFramework.Trustd
