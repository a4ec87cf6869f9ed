import SecurityFramework.Utilities.DerPlistCoding
import Mathlib.Data.List.Perm.Subperm

/-! # Equal property lists are written alike -/

namespace SecurityFramework
open DER

inductive Plist.SameKind : Plist → Plist → Prop where
  | null : SameKind .null .null
  | boolean (a b : Bool) : SameKind (.boolean a) (.boolean b)
  | data (a b : List UInt8) : SameKind (.data a) (.data b)
  | date (a b : CFAbsoluteTime) : SameKind (.date a) (.date b)
  | string (a b : CFString) : SameKind (.string a) (.string b)
  | number (a b : LongLong) : SameKind (.number a) (.number b)
  | array (as bs : List Plist) : SameKind (.array as) (.array bs)
  | set (as bs : List Plist) : SameKind (.set as) (.set bs)
  | dictionary (as bs : List (Plist × Plist)) : SameKind (.dictionary as) (.dictionary bs)

theorem sameKind_of_plistTag {p q : Plist} (htag : plistTag p = plistTag q) :
    Plist.SameKind p q := by
  cases p <;> cases q <;>
    simp [plistTag, ccderNull, ccderBoolean, ccderOctetString, ccderGeneralizedTime,
      ccderUtf8String, ccderInteger, ccderConstructedSequence, ccderConstructedCfset,
      ccderConstructedSet] at htag <;>
    constructor

theorem sameKind_of_cfEqual {p q : Plist} (heq : cfEqual p q = true) : Plist.SameKind p q := by
  cases p <;> cases q <;> simp [cfEqual] at heq <;> constructor

theorem cfSetContainsAll_iff (as bs : List Plist) :
    cfSetContainsAll as bs = true ↔ ∀ a ∈ as, ∃ b ∈ bs, cfEqual a b = true := by
  induction as with
  | nil => simp [cfSetContainsAll]
  | cons a as ih => simp [cfSetContainsAll, ih, List.any_eq_true]

theorem cfDictionaryContainsAll_iff (as bs : List (Plist × Plist)) :
    cfDictionaryContainsAll as bs = true ↔
      ∀ a ∈ as, ∃ b ∈ bs, cfEqual a.1 b.1 = true ∧ cfEqual a.2 b.2 = true := by
  induction as with
  | nil => simp [cfDictionaryContainsAll]
  | cons a as ih =>
    simp only [cfDictionaryContainsAll, Bool.and_eq_true, ih, List.any_eq_true,
      List.forall_mem_cons]

/-- A list without repetitions that another of its length contains is a rearrangement of it. -/
theorem perm_of_contained {α : Type} {as bs : List α} (hnodup : as.Nodup)
    (hlength : as.length = bs.length) (hcontained : ∀ a ∈ as, a ∈ bs) : as.Perm bs :=
  (hnodup.subperm hcontained).perm_of_length_le hlength.ge

/-- Members that are equal exactly if their codings are make containers equal exactly if these
codings are the same up to order. -/
theorem containsAll_iff_perm {α : Type} (coding : α → List UInt8) (equal : α → α → Prop)
    {as bs : List α} (hequal : ∀ a ∈ as, ∀ b ∈ bs, (equal a b ↔ coding a = coding b))
    (hnodup : (as.map coding).Nodup) :
    (as.length = bs.length ∧ ∀ a ∈ as, ∃ b ∈ bs, equal a b) ↔
      (as.map coding).Perm (bs.map coding) := by
  constructor
  · intro hcontains
    apply perm_of_contained hnodup
    · simpa using hcontains.1
    · intro c hc
      obtain ⟨a, ha, rfl⟩ := List.mem_map.mp hc
      obtain ⟨b, hb, hab⟩ := hcontains.2 a ha
      rw [(hequal a ha b hb).mp hab]
      exact List.mem_map_of_mem hb
  · intro hperm
    constructor
    · simpa using hperm.length_eq
    · intro a ha
      obtain ⟨b, hb, hab⟩ := List.mem_map.mp (hperm.mem_iff.mp (List.mem_map_of_mem ha))
      exact ⟨b, hb, (hequal a ha b hb).mpr hab.symm⟩

section
variable {der : Primitives} (hder : der.Correct) {dates : DateSystem}
  {good : CFAbsoluteTime → Prop} (hgood : ∀ time time', good time → good time' →
    dateContent dates time = dateContent dates time' → time = time')

include hder in
theorem plistCoding_eq_iff (p q : Plist) :
    plistCoding der dates p = plistCoding der dates q ↔
      plistTag p = plistTag q ∧ plistContent der dates p = plistContent der dates q := by
  constructor
  · intro heq
    exact element_inj hder (plistTag_low p) (plistTag_low q) heq
  · intro hsame
    rw [plistCoding, plistCoding, hsame.1, hsame.2]

include hder in
theorem plistCoding_append_inj {p q : Plist} {rest rest' : List UInt8}
    (heq : plistCoding der dates p ++ rest = plistCoding der dates q ++ rest') :
    plistCoding der dates p = plistCoding der dates q ∧ rest = rest' := by
  obtain ⟨htag, hcontent, hrest⟩ :=
    element_append_inj hder (plistTag_low p) (plistTag_low q) heq
  exact ⟨(plistCoding_eq_iff hder p q).mpr ⟨htag, hcontent⟩, hrest⟩

include hder in
theorem entryCoding_eq_iff (entry entry' : Plist × Plist) :
    entryCoding der dates entry = entryCoding der dates entry' ↔
      plistCoding der dates entry.1 = plistCoding der dates entry'.1 ∧
        plistCoding der dates entry.2 = plistCoding der dates entry'.2 := by
  constructor
  · intro heq
    have hcontent := (element_inj hder (by decide) (by decide) heq).2
    exact plistCoding_append_inj hder hcontent
  · intro hsame
    rw [entryCoding, entryCoding, hsame.1, hsame.2]

include hder in
theorem flatten_sorted_eq_iff {codings codings' : List (List UInt8)}
    (hcodings : ∀ coding ∈ codings, IsElement der coding)
    (hcodings' : ∀ coding ∈ codings', IsElement der coding) :
    (codings.mergeSort cfDataCompareDERDataLe).flatten =
      (codings'.mergeSort cfDataCompareDERDataLe).flatten ↔ codings.Perm codings' := by
  constructor
  · intro heq
    have hsorted := flatten_elements_inj hder
      (fun coding hcoding => hcodings coding (List.mem_mergeSort.mp hcoding))
      (fun coding hcoding => hcodings' coding (List.mem_mergeSort.mp hcoding)) heq
    have hperm := List.mergeSort_perm codings cfDataCompareDERDataLe
    rw [hsorted] at hperm
    exact hperm.symm.trans (List.mergeSort_perm codings' cfDataCompareDERDataLe)
  · intro hperm
    rw [mergeSort_eq_of_perm hperm]

theorem isElement_of_mem_map {members : List Plist} :
    ∀ coding ∈ members.map (plistCoding der dates), IsElement der coding := by
  intro coding hcoding
  obtain ⟨value, -, rfl⟩ := List.mem_map.mp hcoding
  exact isElement_plistCoding der dates value

theorem isElement_of_mem_map_entry {entries : List (Plist × Plist)} :
    ∀ coding ∈ entries.map (entryCoding der dates), IsElement der coding := by
  intro coding hcoding
  obtain ⟨entry, -, rfl⟩ := List.mem_map.mp hcoding
  exact isElement_entryCoding der dates entry

theorem cfArrayEqual_iff {as : List Plist} :
    ∀ {bs : List Plist}, (∀ a ∈ as, ∀ b ∈ bs,
      (cfEqual a b = true ↔ plistCoding der dates a = plistCoding der dates b)) →
      (cfArrayEqual as bs = true ↔
        as.map (plistCoding der dates) = bs.map (plistCoding der dates)) := by
  induction as with
  | nil =>
    intro bs _
    cases bs <;> simp [cfArrayEqual]
  | cons a as ih =>
    intro bs hequal
    cases bs with
    | nil => simp [cfArrayEqual]
    | cons b bs =>
      have hhead := hequal a List.mem_cons_self b List.mem_cons_self
      have htail := @ih bs fun a' ha' b' hb' =>
        hequal a' (List.mem_cons_of_mem _ ha') b' (List.mem_cons_of_mem _ hb')
      simp only [cfArrayEqual, Bool.and_eq_true, hhead, htail, List.map_cons, List.cons.injEq]

include hder hgood in
/-- Trees are equal exactly if they are written alike, where dates are. -/
theorem Plist.Over.cfEqual_iff {p : Plist} (hp : p.Over good) :
    ∀ {q : Plist}, q.Over good →
      (cfEqual p q = true ↔ plistCoding der dates p = plistCoding der dates q) := by
  induction hp with
  | null =>
    intro q hq
    constructor
    · intro heq
      cases sameKind_of_cfEqual heq
      rfl
    · intro hcoding
      cases sameKind_of_plistTag ((plistCoding_eq_iff hder _ _).mp hcoding).1
      rfl
  | boolean a =>
    intro q hq
    constructor
    · intro heq
      cases sameKind_of_cfEqual heq with
      | boolean _ b =>
        have hab : a = b := by simpa [cfEqual] using heq
        rw [hab]
    · intro hcoding
      obtain ⟨htag, hcontent⟩ := (plistCoding_eq_iff hder _ _).mp hcoding
      cases sameKind_of_plistTag htag with
      | boolean _ b => cases a <;> cases b <;> simp_all [plistContent, cfEqual]
  | data a =>
    intro q hq
    constructor
    · intro heq
      cases sameKind_of_cfEqual heq with
      | data _ b =>
        have hab : a = b := by simpa [cfEqual] using heq
        rw [hab]
    · intro hcoding
      obtain ⟨htag, hcontent⟩ := (plistCoding_eq_iff hder _ _).mp hcoding
      cases sameKind_of_plistTag htag with
      | data _ b => simpa [cfEqual, plistContent] using hcontent
  | date a ha =>
    intro q hq
    constructor
    · intro heq
      cases sameKind_of_cfEqual heq with
      | date _ b =>
        have hab : a = b := by simpa [cfEqual] using heq
        rw [hab]
    · intro hcoding
      obtain ⟨htag, hcontent⟩ := (plistCoding_eq_iff hder _ _).mp hcoding
      cases sameKind_of_plistTag htag with
      | date _ b =>
        cases hq with
        | date _ hb =>
          have hab := hgood a b ha hb hcontent
          simpa [cfEqual] using hab
  | string a ha =>
    intro q hq
    constructor
    · intro heq
      cases sameKind_of_cfEqual heq with
      | string _ b =>
        have hab : a = b := by simpa [cfEqual] using heq
        rw [hab]
    · intro hcoding
      obtain ⟨htag, hcontent⟩ := (plistCoding_eq_iff hder _ _).mp hcoding
      cases sameKind_of_plistTag htag with
      | string _ b =>
        cases hq with
        | string _ hb =>
          have hreada := cfStringCreateWithBytes_stringContent ha
          have hreadb := cfStringCreateWithBytes_stringContent hb
          simp only [plistContent] at hcontent
          rw [hcontent, hreadb] at hreada
          simpa [cfEqual] using hreada.symm
  | number a =>
    intro q hq
    constructor
    · intro heq
      cases sameKind_of_cfEqual heq with
      | number _ b =>
        have hab : a = b := by simpa [cfEqual] using heq
        rw [hab]
    · intro hcoding
      obtain ⟨htag, hcontent⟩ := (plistCoding_eq_iff hder _ _).mp hcoding
      cases sameKind_of_plistTag htag with
      | number _ b =>
        have hab : numberOfOctets (numberContent a) = numberOfOctets (numberContent b) :=
          congrArg numberOfOctets hcontent
        rw [numberOfOctets_numberContent, numberOfOctets_numberContent] at hab
        simpa [cfEqual] using hab
  | array as has ih =>
    intro q hq
    constructor
    · intro heq
      cases sameKind_of_cfEqual heq with
      | array _ bs =>
        cases hq with
        | array _ hbs =>
          have hcodings := (cfArrayEqual_iff fun a ha b hb => ih a ha (hbs b hb)).mp
            (by simpa only [cfEqual] using heq)
          rw [plistCoding_eq_iff hder, plistContent, plistContent, elementCodings_eq,
            elementCodings_eq, hcodings]
          exact ⟨rfl, rfl⟩
    · intro hcoding
      obtain ⟨htag, hcontent⟩ := (plistCoding_eq_iff hder _ _).mp hcoding
      cases sameKind_of_plistTag htag with
      | array _ bs =>
        cases hq with
        | array _ hbs =>
          rw [plistContent, plistContent, elementCodings_eq, elementCodings_eq] at hcontent
          have hcodings :=
            flatten_elements_inj hder isElement_of_mem_map isElement_of_mem_map hcontent
          have hequal := (cfArrayEqual_iff fun a ha b hb => ih a ha (hbs b hb)).mpr hcodings
          simpa only [cfEqual] using hequal
  | set as has hdistinct ih =>
    intro q hq
    have hnodup : (as.map (plistCoding der dates)).Nodup := by
      rw [List.Nodup, List.pairwise_map]
      apply hdistinct.imp_of_mem
      intro a b ha hb hab hcoding
      rw [← ih a ha (has b hb), hab] at hcoding
      cases hcoding
    have hmembers : ∀ bs : List Plist, (∀ b ∈ bs, b.Over good) →
        (cfEqual (.set as) (.set bs) = true ↔
          plistContent der dates (.set as) = plistContent der dates (.set bs)) := by
      intro bs hbs
      have hperm := containsAll_iff_perm (plistCoding der dates) (fun a b => cfEqual a b = true)
        (fun a ha b hb => ih a ha (hbs b hb)) hnodup
      rw [cfEqual, Bool.and_eq_true, decide_eq_true_eq, cfSetContainsAll_iff, hperm, plistContent,
        plistContent, elementCodings_eq, elementCodings_eq,
        flatten_sorted_eq_iff hder isElement_of_mem_map isElement_of_mem_map]
    constructor
    · intro heq
      cases sameKind_of_cfEqual heq with
      | set _ bs =>
        cases hq with
        | set _ hbs _ => exact (plistCoding_eq_iff hder _ _).mpr ⟨rfl, (hmembers bs hbs).mp heq⟩
    · intro hcoding
      obtain ⟨htag, hcontent⟩ := (plistCoding_eq_iff hder _ _).mp hcoding
      cases sameKind_of_plistTag htag with
      | set _ bs =>
        cases hq with
        | set _ hbs _ => exact (hmembers bs hbs).mpr hcontent
  | dictionary as hkeys hvalues hdistinct ihkeys ihvalues =>
    intro q hq
    have hnodup : (as.map (entryCoding der dates)).Nodup := by
      rw [List.Nodup, List.pairwise_map]
      apply hdistinct.imp_of_mem
      intro a b ha hb hab hcoding
      have hkey := ((entryCoding_eq_iff hder a b).mp hcoding).1
      rw [← ihkeys a ha (hkeys b hb), hab] at hkey
      cases hkey
    have hmembers : ∀ bs : List (Plist × Plist), (∀ b ∈ bs, b.1.Over good) →
        (∀ b ∈ bs, b.2.Over good) →
        (cfEqual (.dictionary as) (.dictionary bs) = true ↔
          plistContent der dates (.dictionary as) = plistContent der dates (.dictionary bs)) := by
      intro bs hbkeys hbvalues
      have hperm := containsAll_iff_perm (entryCoding der dates)
        (fun a b => cfEqual a.1 b.1 = true ∧ cfEqual a.2 b.2 = true)
        (fun a ha b hb => by
          rw [entryCoding_eq_iff hder, ihkeys a ha (hbkeys b hb), ihvalues a ha (hbvalues b hb)])
        hnodup
      rw [cfEqual, Bool.and_eq_true, decide_eq_true_eq, cfDictionaryContainsAll_iff, hperm,
        plistContent, plistContent, entryCodings_eq, entryCodings_eq,
        flatten_sorted_eq_iff hder isElement_of_mem_map_entry isElement_of_mem_map_entry]
    constructor
    · intro heq
      cases sameKind_of_cfEqual heq with
      | dictionary _ bs =>
        cases hq with
        | dictionary _ hbkeys hbvalues _ =>
          exact (plistCoding_eq_iff hder _ _).mpr ⟨rfl, (hmembers bs hbkeys hbvalues).mp heq⟩
    · intro hcoding
      obtain ⟨htag, hcontent⟩ := (plistCoding_eq_iff hder _ _).mp hcoding
      cases sameKind_of_plistTag htag with
      | dictionary _ bs =>
        cases hq with
        | dictionary _ hbkeys hbvalues _ => exact (hmembers bs hbkeys hbvalues).mpr hcontent

include hder in
theorem cfEqual_iff_plistCoding (hdates : dates.Correct) {p q : Plist} (hp : p.Encodable dates)
    (hq : q.Encodable dates) :
    cfEqual p q = true ↔ plistCoding der dates p = plistCoding der dates q := by
  refine hp.over.cfEqual_iff hder ?_ hq.over
  intro time time' htime htime' hcontent
  have hread := derDecodeGeneralizedtimeBody_dateContent hdates htime
  rw [hcontent, derDecodeGeneralizedtimeBody_dateContent hdates htime'] at hread
  exact (Option.some.inj hread).symm
end
end SecurityFramework
