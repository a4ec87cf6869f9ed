import SecurityFramework.Trustd.SubjectAttributes
import SecurityFramework.Utilities.DerPlist

/-!
# The subject of a leaf

Six checks of a policy compare an attribute of the leaf's subject, which has to be the only one of
its type, with the value of the policy's option.
-/

namespace SecurityFramework.Trustd
open DER

structure AttributeTypes where
  oidCommonName : DERItem
  oidOrganizationName : DERItem
  oidOrganizationalUnitName : DERItem
  oidCountryName : DERItem

section
variable (der : LibDER) (describe : ContentDescription) (types : AttributeTypes)
  (CFStringHasPrefix : CFString → CFString → Bool)

def SecCertificateCopyCommonNames (certificate : SecCertificate) : Option (List CFString) :=
  copyAttributesFromSubject der describe types.oidCommonName certificate

def SecCertificateCopyOrganization (certificate : SecCertificate) : Option (List CFString) :=
  copyAttributesFromSubject der describe types.oidOrganizationName certificate

def SecCertificateCopyOrganizationalUnit (certificate : SecCertificate) : Option (List CFString) :=
  copyAttributesFromSubject der describe types.oidOrganizationalUnitName certificate

def SecCertificateCopyCountry (certificate : SecCertificate) : Option (List CFString) :=
  copyAttributesFromSubject der describe types.oidCountryName certificate

def checkOnlyString (pvcValue : Plist) (strings : Option (List CFString))
    (mismatch : CFString → CFString → Bool) : Option Bool :=
  match pvcValue with
  | .string value =>
    match strings with
    | some [string] => some (!mismatch value string)
    | _ => some false
  | _ => some false

def SecPolicyCheckCertSubjectCommonNamePrefix (cert : SecCertificate) (pvcValue : Plist) :
    Option Bool :=
  checkOnlyString pvcValue (SecCertificateCopyCommonNames der describe types cert)
    fun commonNamePrefix commonName => !CFStringHasPrefix commonName commonNamePrefix

def SecPolicyCheckCertSubjectCommonName (cert : SecCertificate) (pvcValue : Plist) : Option Bool :=
  checkOnlyString pvcValue (SecCertificateCopyCommonNames der describe types cert)
    fun common_name commonName => common_name ≠ commonName

def testCommonName (common_name : CFString) : CFString :=
  cfstr "TEST " ++ common_name ++ cfstr " TEST"

/-- The name is compared when it is not the only one, and then with the first one. -/
def SecPolicyCheckCertSubjectCommonNameTEST (cert : SecCertificate) (pvcValue : Plist) :
    Option Bool :=
  match pvcValue with
  | .string common_name =>
    match SecCertificateCopyCommonNames der describe types cert with
    | none => none
    | some [] => none
    | some [_] => some true
    | some (cert_common_name :: _ :: _) =>
      some (common_name = cert_common_name || testCommonName common_name = cert_common_name)
  | _ => some false

def SecPolicyCheckCertSubjectOrganization (cert : SecCertificate) (pvcValue : Plist) :
    Option Bool :=
  checkOnlyString pvcValue (SecCertificateCopyOrganization der describe types cert)
    fun org organization => org ≠ organization

def SecPolicyCheckCertSubjectOrganizationalUnit (cert : SecCertificate) (pvcValue : Plist) :
    Option Bool :=
  checkOnlyString pvcValue (SecCertificateCopyOrganizationalUnit der describe types cert)
    fun orgUnit organizationalUnit => orgUnit ≠ organizationalUnit

def SecPolicyCheckCertSubjectCountry (cert : SecCertificate) (pvcValue : Plist) : Option Bool :=
  checkOnlyString pvcValue (SecCertificateCopyCountry der describe types cert)
    fun country certCountry => country ≠ certCountry

/-- Whether the path is left without a failure. An option that is no string is not checked. -/
def SecPolicyCheckSubjectCommonNameTEST (cert : SecCertificate) (option : Option Plist) :
    Option Bool :=
  match option with
  | some (.string common_name) =>
    SecPolicyCheckCertSubjectCommonNameTEST der describe types cert (.string common_name)
  | _ => some true

inductive SubjectCheck
  | commonNamePrefix | commonName | commonNameTEST | organization | organizationalUnit | country
  deriving DecidableEq

namespace SubjectCheck
def run : SubjectCheck → SecCertificate → Plist → Option Bool
  | commonNamePrefix =>
    SecPolicyCheckCertSubjectCommonNamePrefix der describe types CFStringHasPrefix
  | commonName => SecPolicyCheckCertSubjectCommonName der describe types
  | commonNameTEST => SecPolicyCheckCertSubjectCommonNameTEST der describe types
  | organization => SecPolicyCheckCertSubjectOrganization der describe types
  | organizationalUnit => SecPolicyCheckCertSubjectOrganizationalUnit der describe types
  | country => SecPolicyCheckCertSubjectCountry der describe types

def attributeType : SubjectCheck → DERItem
  | commonNamePrefix | commonName | commonNameTEST => types.oidCommonName
  | organization => types.oidOrganizationName
  | organizationalUnit => types.oidOrganizationalUnitName
  | country => types.oidCountryName

def compares : SubjectCheck → CFString → CFString → Prop
  | commonNamePrefix => fun value string => CFStringHasPrefix string value = true
  | commonNameTEST => fun value string => string = value ∨ string = testCommonName value
  | _ => fun value string => string = value

/-- The subject has one attribute of the type, and its string compares with the value. -/
def Satisfied (check : SubjectCheck) (cert : SecCertificate) (value : CFString) : Prop :=
  ∃ found string, attributesOfType der (check.attributeType types) cert = [found] ∧
    copyDERThingDescription der describe found = some string ∧
      check.compares CFStringHasPrefix value string

/-- The check accepts only certificates that satisfy it. -/
def Sound (check : SubjectCheck) (cert : SecCertificate) (value : CFString) : Prop :=
  check.run der describe types CFStringHasPrefix cert (.string value) = some true →
    check.Satisfied der describe types CFStringHasPrefix cert value
end SubjectCheck
end

section
variable {der : LibDER} {describe : ContentDescription} {types : AttributeTypes}
  {CFStringHasPrefix : CFString → CFString → Bool} {cert : SecCertificate} {value : CFString}

theorem checkOnlyString_true {strings : Option (List CFString)}
    {mismatch : CFString → CFString → Bool}
    (h : checkOnlyString (.string value) strings mismatch = some true) :
    ∃ string, strings = some [string] ∧ mismatch value string = false := by
  cases strings with
  | none => cases h
  | some strings =>
    cases strings with
    | nil => cases h
    | cons string others =>
      cases others with
      | nil => exact ⟨string, rfl, by simpa [checkOnlyString] using h⟩
      | cons second others => cases h

theorem attribute_of_copyAttributes {oid : DERItem} {string : CFString}
    (h : copyAttributesFromSubject der describe oid cert = some [string]) :
    ∃ found, attributesOfType der oid cert = [found] ∧
      copyDERThingDescription der describe found = some string := by
  have hstrings := copyAttributesFromSubject_some h
  obtain ⟨found, hfound, hstring⟩ := List.map_eq_singleton_iff.mp hstrings
  exact ⟨found, hfound, hstring⟩

theorem sound_of_only {check : SubjectCheck} (mismatch : CFString → CFString → Bool)
    (hrun : check.run der describe types CFStringHasPrefix cert (.string value) =
      checkOnlyString (.string value)
        (copyAttributesFromSubject der describe (check.attributeType types) cert) mismatch)
    (hcompares : ∀ string, mismatch value string = false →
      check.compares CFStringHasPrefix value string) :
    check.Sound der describe types CFStringHasPrefix cert value := by
  intro haccepted
  rw [hrun] at haccepted
  obtain ⟨string, hstring, hmatch⟩ := checkOnlyString_true haccepted
  obtain ⟨found, hfound, hdescribed⟩ := attribute_of_copyAttributes hstring
  exact ⟨found, string, hfound, hdescribed, hcompares string hmatch⟩

theorem sound_of_ne_TEST {check : SubjectCheck} (hcheck : check ≠ .commonNameTEST) :
    check.Sound der describe types CFStringHasPrefix cert value := by
  cases check with
  | commonNamePrefix =>
    refine sound_of_only (fun value string => !CFStringHasPrefix string value) rfl
      fun string hmatch => ?_
    simpa [SubjectCheck.compares] using hmatch
  | commonName =>
    refine sound_of_only (fun value string => value ≠ string) rfl fun string hmatch => ?_
    exact (not_not.mp (of_decide_eq_false hmatch)).symm
  | commonNameTEST => exact absurd rfl hcheck
  | organization | organizationalUnit | country =>
    refine sound_of_only (fun value string => value ≠ string) rfl fun string hmatch => ?_
    exact (not_not.mp (of_decide_eq_false hmatch)).symm

def MatchesTEST (value string : CFString) : Prop := string = value ∨ string = testCommonName value

/-- Where the guard does no harm: a single common name matches, and the first of several does
not. -/
def TESTGuardHarmless (commonNames : Option (List CFString)) (value : CFString) : Prop :=
  match commonNames with
  | none => True
  | some [] => True
  | some [name] => MatchesTEST value name
  | some (first :: _ :: _) => ¬MatchesTEST value first

theorem sound_TEST_iff :
    SubjectCheck.commonNameTEST.Sound der describe types CFStringHasPrefix cert value ↔
      TESTGuardHarmless (SecCertificateCopyCommonNames der describe types cert) value := by
  rw [SubjectCheck.Sound, SubjectCheck.run, SecPolicyCheckCertSubjectCommonNameTEST]
  cases hnames : SecCertificateCopyCommonNames der describe types cert with
  | none => simp [TESTGuardHarmless]
  | some names =>
    have hstrings := copyAttributesFromSubject_some hnames
    cases names with
    | nil => simp [TESTGuardHarmless]
    | cons first others =>
      cases others with
      | nil =>
        obtain ⟨found, hfound, hstring⟩ := attribute_of_copyAttributes hnames
        simp only [TESTGuardHarmless, true_implies]
        constructor
        · intro hsatisfied
          obtain ⟨found', string, hfound', hstring', hcompares⟩ := hsatisfied
          rw [SubjectCheck.attributeType, hfound, List.singleton_inj] at hfound'
          rw [← hfound', hstring, Option.some_inj] at hstring'
          rw [hstring']
          exact hcompares
        · intro hmatches
          exact ⟨found, first, hfound, hstring, hmatches⟩
      | cons second others =>
        have hnone : ¬SubjectCheck.commonNameTEST.Satisfied der describe types CFStringHasPrefix
            cert value := by
          intro hsatisfied
          obtain ⟨found, string, hfound, -, -⟩ := hsatisfied
          rw [SubjectCheck.attributeType] at hfound
          rw [hfound] at hstrings
          simp at hstrings
        have haccepts : (some (value = first || testCommonName value = first) : Option Bool) =
            some true ↔ MatchesTEST value first := by
          rw [Option.some_inj, Bool.or_eq_true, decide_eq_true_eq, decide_eq_true_eq, MatchesTEST,
            @eq_comm _ value, @eq_comm _ (testCommonName value)]
        simp only [TESTGuardHarmless, haccepts]
        exact ⟨fun hsound hmatches => hnone (hsound hmatches),
          fun hharmless hmatches => absurd hmatches hharmless⟩
end

/-- All six checks accept only certificates that satisfy them exactly where the guard of the TEST
variant does no harm. -/
theorem subjectChecks_sound_iff (der : LibDER) (describe : ContentDescription)
    (types : AttributeTypes) (CFStringHasPrefix : CFString → CFString → Bool)
    (cert : SecCertificate) (value : CFString) :
    (∀ check : SubjectCheck, check.Sound der describe types CFStringHasPrefix cert value) ↔
      TESTGuardHarmless (SecCertificateCopyCommonNames der describe types cert) value := by
  constructor
  · intro hsound
    exact sound_TEST_iff.mp (hsound .commonNameTEST)
  · intro hharmless check
    by_cases hcheck : check = .commonNameTEST
    · rw [hcheck]
      exact sound_TEST_iff.mpr hharmless
    · exact sound_of_ne_TEST hcheck

def x520Types : AttributeTypes where
  oidCommonName := [0x55, 0x04, 0x03]
  oidOrganizationName := [0x55, 0x04, 0x0A]
  oidOrganizationalUnitName := [0x55, 0x04, 0x0B]
  oidCountryName := [0x55, 0x04, 0x06]

def describePrintable : ContentDescription := fun _ content => some (content.map UInt8.toUInt16)

def certificateOfB : SecCertificate where
  subject := [0x31, 0x0A, 0x30, 0x08, 0x06, 0x03, 0x55, 0x04, 0x03, 0x13, 0x01, 0x62]
  subjectAltName := none
  permittedSubtrees := none
  excludedSubtrees := none

/-- The certificate of `b` is accepted as that of `a`. -/
theorem certificateOfB_accepted :
    SecPolicyCheckSubjectCommonNameTEST LibDER.sample describePrintable x520Types certificateOfB
        (some (.string (cfstr "a"))) = some true ∧
      ¬∀ check : SubjectCheck, check.Sound LibDER.sample describePrintable x520Types
        (fun string commonNamePrefix => commonNamePrefix.isPrefixOf string) certificateOfB
        (cfstr "a") := by
  refine ⟨rfl, ?_⟩
  intro hsound
  obtain ⟨found, string, hfound, hstring, hcompares⟩ := hsound .commonNameTEST rfl
  have hvalue : attributesOfType LibDER.sample x520Types.oidCommonName certificateOfB =
      [[0x13, 0x01, 0x62]] := rfl
  have hname : copyDERThingDescription LibDER.sample describePrintable [0x13, 0x01, 0x62] =
      some (cfstr "b") := rfl
  rw [SubjectCheck.attributeType, hvalue, List.singleton_inj] at hfound
  rw [← hfound, hname, Option.some_inj] at hstring
  rw [← hstring] at hcompares
  rcases hcompares with hequal | hequal
  · exact absurd hequal (by decide)
  · exact absurd hequal (by decide)
end SecurityFramework.Trustd
