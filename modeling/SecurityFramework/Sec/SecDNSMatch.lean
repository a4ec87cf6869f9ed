import Mathlib.Data.List.Forall2
import Mathlib.Data.List.GetD
import SecurityFramework.Trustd.LetterCase

/-!
# Host names against certificates

A host name is compared label by label with the names that a server's certificate presents.
-/

namespace SecurityFramework.Sec
open Trustd

def asterisk : UInt16 := 0x2A

def CFStringCreateArrayBySeparatingStrings (string : CFString) : List CFString :=
  string.splitOn dot

/-- The comparison of strings, and CFNetwork's function that knows the top-level domains, if that
could be loaded. -/
structure HostnameServices where
  strings : StringComparison
  CFNIsDomainTopLevelFunctionPtr : Option (CFString → Bool)

variable (services : HostnameServices)

/-- Of a wildcard's labels, those after it. -/
def SecDNSIsTLD (reference : CFString) : Bool :=
  match services.CFNIsDomainTopLevelFunctionPtr with
  | none => false
  | some isDomainTopLevel =>
    if reference.length > 2 then isDomainTopLevel (reference.drop 2) else true

def referenceLabels (reference : CFString) : List CFString :=
  if reference.getLast? = some dot then CFStringCreateArrayBySeparatingStrings reference.dropLast
  else CFStringCreateArrayBySeparatingStrings reference

def labelMatches (presented : CFString) (count ix : Nat) (rlabel plabel : CFString) : Bool :=
  if plabel = [asterisk] then
    decide (ix = 0) && decide (count > 2 ∧ ix ≠ count - 2) && !SecDNSIsTLD services presented
  else decide (asterisk ∉ plabel) && services.strings.equal rlabel plabel

def SecDNSMatch (reference presented : CFString) : Bool :=
  if reference.length = 0 then false
  else
    let rlabels := referenceLabels reference
    let plabels := CFStringCreateArrayBySeparatingStrings presented
    if rlabels.length ≠ plabels.length then false
    else
      (List.range rlabels.length).reverse.all fun ix =>
        labelMatches services presented rlabels.length ix (rlabels.getD ix []) (plabels.getD ix [])

/-- The names and addresses in a certificate, each `none` where there are none. -/
structure PresentedNames where
  dnsNames : Option (List CFString)
  ipAddresses : Option (List (List UInt8))

/-- What is not a string is no host name. The host name may also be an address. -/
def SecPolicyCheckCertSSLHostname (copyIPAddressData : CFString → Option (List UInt8))
    (names : PresentedNames) (pvcValue : Option CFString) : Bool :=
  match pvcValue with
  | none => false
  | some hostName =>
    if (names.dnsNames.getD []).any (SecDNSMatch services hostName) then true
    else
      match copyIPAddressData hostName with
      | none => false
      | some hostIPData => (names.ipAddresses.getD []).contains hostIPData

/-- Each label equals the other one in any case, and is no wildcard. -/
def LabelsEqual (rlabels plabels : List CFString) : Prop :=
  List.Forall₂ (fun rlabel plabel => asterisk ∉ plabel ∧ services.strings.equal rlabel plabel = true)
    rlabels plabels

/-- The labels are equal, but for a wildcard in front of at least two others that are not known as a
top-level domain. It stands for one of the allowed labels. -/
def LabelsMatch (allowed : CFString → Prop) (rlabels plabels : List CFString)
    (presented : CFString) : Prop :=
  LabelsEqual services rlabels plabels ∨
    ∃ rlabel rlabels' plabels', rlabels = rlabel :: rlabels' ∧ plabels = [asterisk] :: plabels' ∧
      allowed rlabel ∧ 2 ≤ plabels'.length ∧
      (∀ isDomainTopLevel, services.CFNIsDomainTopLevelFunctionPtr = some isDomainTopLevel →
        isDomainTopLevel (presented.drop 2) = false) ∧
      LabelsEqual services rlabels' plabels'

/-- A wildcard stands for one label that is not empty. -/
def MatchesNonemptyLabel (reference presented : CFString) : Prop :=
  LabelsMatch services (fun rlabel => rlabel ≠ []) (referenceLabels reference)
    (CFStringCreateArrayBySeparatingStrings presented) presented

/-- A wildcard stands for one label, and the empty name matches nothing. -/
def MatchesAnyLabel (reference presented : CFString) : Prop :=
  reference ≠ [] ∧ LabelsMatch services (fun _ => True) (referenceLabels reference)
    (CFStringCreateArrayBySeparatingStrings presented) presented

variable {services} {reference presented : CFString}

theorem dnsMatch_iff_rounds :
    SecDNSMatch services reference presented = true ↔
      reference ≠ [] ∧
        (referenceLabels reference).length =
          (CFStringCreateArrayBySeparatingStrings presented).length ∧
        ∀ ix, ix < (referenceLabels reference).length →
          labelMatches services presented (referenceLabels reference).length ix
            ((referenceLabels reference).getD ix [])
            ((CFStringCreateArrayBySeparatingStrings presented).getD ix []) = true := by
  rw [SecDNSMatch]
  by_cases hnil : reference = []
  · simp [hnil]
  · rw [if_neg (mt List.length_eq_zero_iff.mp hnil)]
    dsimp only
    by_cases hlength : (referenceLabels reference).length =
        (CFStringCreateArrayBySeparatingStrings presented).length
    · rw [if_neg (not_not_intro hlength), List.all_reverse]
      simp [hnil, hlength]
    · simp [hlength]

theorem forall₂_iff_getD {rlabels plabels : List CFString} {matched : CFString → CFString → Prop} :
    List.Forall₂ matched rlabels plabels ↔
      rlabels.length = plabels.length ∧
        ∀ ix, ix < rlabels.length → matched (rlabels.getD ix []) (plabels.getD ix []) := by
  rw [List.forall₂_iff_get]
  refine and_congr_right fun hlength => forall_congr' fun ix => ?_
  constructor
  · intro h hix
    have hix' : ix < plabels.length := hlength ▸ hix
    rw [List.getD_eq_getElem _ _ hix, List.getD_eq_getElem _ _ hix']
    exact h hix hix'
  · intro h hix hix'
    have hmatched := h hix
    rw [List.getD_eq_getElem _ _ hix, List.getD_eq_getElem _ _ hix'] at hmatched
    exact hmatched

theorem labelMatches_succ {count ix : Nat} {rlabel plabel : CFString} :
    labelMatches services presented count (ix + 1) rlabel plabel = true ↔
      asterisk ∉ plabel ∧ services.strings.equal rlabel plabel = true := by
  rw [labelMatches]
  split_ifs with hwildcard
  · simp [hwildcard]
  · simp

theorem labelMatches_zero {count : Nat} {rlabel plabel : CFString} :
    labelMatches services presented count 0 rlabel plabel = true ↔
      (asterisk ∉ plabel ∧ services.strings.equal rlabel plabel = true) ∨
        (plabel = [asterisk] ∧ 2 < count ∧ SecDNSIsTLD services presented = false) := by
  rw [labelMatches]
  split_ifs with hwildcard
  · subst hwildcard
    have hcount : 2 < count ∧ 0 ≠ count - 2 ↔ 2 < count := by omega
    simp [hcount]
  · simp [hwildcard]

/-- With two labels after the wildcard there are characters after its dot. -/
theorem isTLD_eq_false_iff {plabels : List CFString}
    (hlabels : CFStringCreateArrayBySeparatingStrings presented = [asterisk] :: plabels)
    (hlength : 2 ≤ plabels.length) :
    SecDNSIsTLD services presented = false ↔
      ∀ isDomainTopLevel, services.CFNIsDomainTopLevelFunctionPtr = some isDomainTopLevel →
        isDomainTopLevel (presented.drop 2) = false := by
  have hlong : presented.length > 2 := by
    have hjoin : List.intercalate [dot] (CFStringCreateArrayBySeparatingStrings presented) =
        presented := List.intercalate_splitOn dot
    match plabels, hlength with
    | second :: third :: rest, _ =>
      rw [hlabels, List.intercalate_cons_cons, List.intercalate_cons_cons] at hjoin
      rw [← hjoin]
      simp only [List.length_append, List.length_cons, List.length_nil]
      omega
  rw [SecDNSIsTLD]
  cases services.CFNIsDomainTopLevelFunctionPtr with
  | none => simp
  | some isDomainTopLevel => simp [hlong]

/-- The matcher compares the labels as described, but allows any label in the place of a wildcard and
no empty reference. -/
theorem dnsMatch_iff (reference presented : CFString) :
    SecDNSMatch services reference presented = true ↔
      MatchesAnyLabel services reference presented := by
  rw [dnsMatch_iff_rounds, MatchesAnyLabel, LabelsMatch]
  refine and_congr_right fun _ => ?_
  generalize referenceLabels reference = rlabels
  cases hplabels : CFStringCreateArrayBySeparatingStrings presented with
  | nil => exact absurd hplabels (List.splitOn_ne_nil _ _)
  | cons plabel plabels =>
    cases rlabels with
    | nil =>
      have hnone : ¬ LabelsEqual services [] (plabel :: plabels) := fun h => nomatch h
      simp [hnone]
    | cons rlabel rlabels =>
      have hrounds : (∀ ix, ix < (rlabel :: rlabels).length →
            labelMatches services presented (rlabel :: rlabels).length ix
              ((rlabel :: rlabels).getD ix []) ((plabel :: plabels).getD ix []) = true) ↔
          labelMatches services presented (rlabels.length + 1) 0 rlabel plabel = true ∧
            ∀ ix, ix < rlabels.length →
              asterisk ∉ plabels.getD ix [] ∧
                services.strings.equal (rlabels.getD ix []) (plabels.getD ix []) = true := by
        constructor
        · intro h
          refine ⟨h 0 (Nat.succ_pos _), fun ix hix => ?_⟩
          exact labelMatches_succ.mp (h (ix + 1) (Nat.succ_lt_succ hix))
        · rintro ⟨hfirst, hrest⟩ (_ | ix) hix
          · exact hfirst
          · exact labelMatches_succ.mpr (hrest ix (Nat.lt_of_succ_lt_succ hix))
      have hrest : LabelsEqual services rlabels plabels ↔
          rlabels.length = plabels.length ∧ ∀ ix, ix < rlabels.length →
            asterisk ∉ plabels.getD ix [] ∧
              services.strings.equal (rlabels.getD ix []) (plabels.getD ix []) = true :=
        forall₂_iff_getD
      rw [hrounds, labelMatches_zero, LabelsEqual, List.forall₂_cons]
      change _ ↔ _ ∧ LabelsEqual services rlabels plabels ∨ _
      simp only [List.length_cons, Nat.succ_inj, List.cons.injEq, hrest]
      constructor
      · rintro ⟨hlength, hequal | ⟨rfl, hcount, htld⟩, hall⟩
        · exact Or.inl ⟨hequal, hlength, hall⟩
        · have htwo : 2 ≤ plabels.length := by omega
          exact Or.inr ⟨rlabel, rlabels, plabels, ⟨rfl, rfl⟩, ⟨rfl, rfl⟩, trivial, htwo,
            (isTLD_eq_false_iff hplabels htwo).mp htld, hrest.mpr ⟨hlength, hall⟩⟩
      · rintro (⟨hequal, hlength, hall⟩ |
          ⟨_, _, _, ⟨rfl, rfl⟩, ⟨rfl, rfl⟩, -, htwo, htld, hequal⟩)
        · exact ⟨hlength, Or.inl hequal, hall⟩
        · have hall := hrest.mp hequal
          exact ⟨hall.1, Or.inr ⟨rfl, by omega, (isTLD_eq_false_iff hplabels htwo).mpr htld⟩,
            hall.2⟩

def asciiServices : HostnameServices where
  strings := StringComparison.ascii
  CFNIsDomainTopLevelFunctionPtr := none

/-- An empty label is matched by a wildcard, and the empty name is not matched by itself. -/
theorem emptyLabel_matched :
    (SecDNSMatch asciiServices (cfstr ".example.com") (cfstr "*.example.com") = true ∧
      ¬ MatchesNonemptyLabel asciiServices (cfstr ".example.com") (cfstr "*.example.com")) ∧
    SecDNSMatch asciiServices [] [] = false ∧ MatchesNonemptyLabel asciiServices [] [] := by
  refine ⟨⟨by decide +kernel, ?_⟩, rfl, Or.inl ?_⟩
  · have hlabels : referenceLabels (cfstr ".example.com") = [[], cfstr "example", cfstr "com"] := by
      decide +kernel
    have hwildcard : ¬ LabelsEqual asciiServices (referenceLabels (cfstr ".example.com"))
        (CFStringCreateArrayBySeparatingStrings (cfstr "*.example.com")) := by
      rw [LabelsEqual, hlabels]
      rintro (_ | ⟨hequal, -⟩)
      exact absurd hequal.1 (by decide +kernel)
    rintro (hequal | ⟨rlabel, rlabels', -, hsplit, -, hnonempty, -⟩)
    · exact hwildcard hequal
    · rw [hlabels] at hsplit
      exact hnonempty (List.cons_eq_cons.mp hsplit).1.symm
  · exact List.Forall₂.cons ⟨by decide, by decide⟩ List.Forall₂.nil
end SecurityFramework.Sec
