import SecurityFramework.Utilities.DerPlistEquality

/-! # Round trip -/

namespace SecurityFramework
open DER

theorem decodeMembers_codings {α : Type} {decodeMember : Reader α}
    (addValue : List α → α → List α) {coding : α → List UInt8} (keep : List α → Prop)
    (hadd : ∀ members value later, keep (members ++ value :: later) →
      addValue members value = members ++ [value])
    (values : List α) (hvalues : ∀ value ∈ values, coding value ≠ [] ∧
      ∀ rest, decodeMember (coding value ++ rest) = some (value, rest)) :
    ∀ (fuel : Nat) (members : List α), (values.map coding).flatten.length ≤ fuel →
      keep (members ++ values) →
        decodeMembers decodeMember addValue fuel members (values.map coding).flatten =
          some (members ++ values) := by
  induction values with
  | nil =>
    intro fuel members _ _
    cases fuel <;> simp [decodeMembers]
  | cons value values ih =>
    intro fuel members hfuel hkeep
    obtain ⟨hne, hread⟩ := hvalues value List.mem_cons_self
    have hadded := hadd members value values hkeep
    have hkeep' : keep (members ++ [value] ++ values) := by simpa using hkeep
    have hstep := hread (values.map coding).flatten
    rw [List.map_cons, List.flatten_cons] at hfuel ⊢
    rw [List.length_append] at hfuel
    cases hcoding : coding value with
    | nil => exact absurd hcoding hne
    | cons octet octets =>
      rw [hcoding, List.length_cons] at hfuel
      rw [hcoding, List.cons_append] at hstep
      cases fuel with
      | zero => omega
      | succ fuel =>
        have htail := ih (fun other hother => hvalues other (List.mem_cons_of_mem _ hother)) fuel
          (members ++ [value]) (by omega) hkeep'
        rw [List.cons_append, decodeMembers, hstep]
        simp only [Option.bind_eq_bind, Option.bind_some, hadded, htail, List.append_assoc,
          List.cons_append, List.nil_append]

theorem cfSetAddValue_fresh {theSet later : List Plist} {value : Plist}
    (hdistinct : (theSet ++ value :: later).Pairwise fun a b => cfEqual a b = false) :
    cfSetAddValue theSet value = theSet ++ [value] := by
  have hfresh : (theSet.any fun member => cfEqual member value) = false := by
    rw [List.any_eq_false]
    intro member hmember
    rw [(List.pairwise_append.mp hdistinct).2.2 member hmember value List.mem_cons_self]
    exact Bool.false_ne_true
  rw [cfSetAddValue, hfresh]
  rfl

theorem cfDictionaryAddValue_fresh {dict later : List (Plist × Plist)} {added : Plist × Plist}
    (hdistinct : (dict ++ added :: later).Pairwise fun a b => cfEqual a.1 b.1 = false) :
    cfDictionaryAddValue dict added = dict ++ [added] := by
  have hfresh : (dict.any fun member => cfEqual member.1 added.1) = false := by
    rw [List.any_eq_false]
    intro member hmember
    rw [(List.pairwise_append.mp hdistinct).2.2 member hmember added List.mem_cons_self]
    exact Bool.false_ne_true
  rw [cfDictionaryAddValue, hfresh]
  rfl

theorem exists_members {α β : Type} (good : α → Prop) (image : α → β) (members : List α)
    (hmembers : ∀ member ∈ members, ∃ other, good other ∧ image other = image member) :
    ∃ others : List α, (∀ other ∈ others, good other) ∧
      others.map image = members.map image := by
  induction members with
  | nil => exact ⟨[], by simp, rfl⟩
  | cons member members ih =>
    obtain ⟨other, hother, himage⟩ := hmembers member List.mem_cons_self
    obtain ⟨others, hothers, himages⟩ :=
      ih fun later hlater => hmembers later (List.mem_cons_of_mem _ hlater)
    refine ⟨other :: others, ?_, by rw [List.map_cons, List.map_cons, himage, himages]⟩
    intro later hlater
    cases List.mem_cons.mp hlater with
    | inl hhead =>
      rw [hhead]
      exact hother
    | inr htail => exact hothers later htail

def sortByCoding {α : Type} (coding : α → List UInt8) (members : List α) : List α :=
  members.mergeSort fun a b => cfDataCompareDERDataLe (coding a) (coding b)

theorem sortByCoding_perm {α : Type} (coding : α → List UInt8) (members : List α) :
    (sortByCoding coding members).Perm members :=
  List.mergeSort_perm members _

theorem map_sortByCoding {α : Type} (coding : α → List UInt8) (members : List α) :
    (sortByCoding coding members).map coding =
      (members.map coding).mergeSort cfDataCompareDERDataLe := by
  rw [sortByCoding]
  apply List.map_mergeSort
  intro a _ b _
  rfl

theorem mergeSort_sortByCoding {α : Type} (coding : α → List UInt8) (members : List α) :
    ((sortByCoding coding members).map coding).mergeSort cfDataCompareDERDataLe =
      (sortByCoding coding members).map coding := by
  rw [mergeSort_eq_of_perm ((sortByCoding_perm coding members).map coding), map_sortByCoding]

theorem length_le_of_mem_items {items : List (List UInt8)} {item : List UInt8}
    (hitem : item ∈ items) : item.length ≤ items.flatten.length :=
  (List.sublist_flatten_of_mem hitem).length_le

section
variable {der : Primitives} (hder : der.Correct) {dates : DateSystem} (hdates : dates.Correct)

/-- A tree that is read back as it is, by a reader that nests deeply enough. -/
structure Readable (der : Primitives) (dates : DateSystem) (pl : Plist) : Prop where
  encodable : pl.Encodable dates
  read : ∀ depth rest, (plistCoding der dates pl).length ≤ depth →
    decodePlistNested der dates depth (plistCoding der dates pl ++ rest) = some (pl, rest)

include hder

theorem decodePlistNested_element (tag : Tag) (ht : tag.number < 31) (depth : Nat)
    (content rest : List UInt8) :
    decodePlistNested der dates (depth + 1) (element der tag content ++ rest) =
      decodeTagged der dates (decodePlistNested der dates depth) tag
        (element der tag content ++ rest) := by
  rw [decodePlistNested, decodeTag_element hder tag ht]
  rfl

theorem content_length_lt (tag : Tag) (ht : tag.number < 31) (content : List UInt8) :
    content.length < (element der tag content).length := by
  have htag := List.length_pos_iff.mpr (encodeTag_ne_nil hder tag ht)
  rw [length_element, sizeof]
  omega

theorem readable_of_tagged {pl : Plist} (hpl : pl.Encodable dates)
    (hread : ∀ depth rest, (plistContent der dates pl).length ≤ depth →
      decodeTagged der dates (decodePlistNested der dates depth) (plistTag pl)
        (element der (plistTag pl) (plistContent der dates pl) ++ rest) = some (pl, rest)) :
    Readable der dates pl := by
  refine ⟨hpl, ?_⟩
  intro depth rest hdepth
  have hlt := content_length_lt hder (plistTag pl) (plistTag_low pl) (plistContent der dates pl)
  rw [plistCoding] at hdepth ⊢
  cases depth with
  | zero => omega
  | succ depth =>
    rw [decodePlistNested_element hder _ (plistTag_low pl)]
    exact hread depth rest (by omega)

theorem read_members {values : List Plist} (hvalues : ∀ value ∈ values, Readable der dates value)
    {depth : Nat} (hdepth : (values.map (plistCoding der dates)).flatten.length ≤ depth) :
    ∀ value ∈ values, plistCoding der dates value ≠ [] ∧ ∀ rest,
      decodePlistNested der dates depth (plistCoding der dates value ++ rest) =
        some (value, rest) := by
  intro value hvalue
  refine ⟨plistCoding_ne_nil hder value, ?_⟩
  intro rest
  have hlength := length_le_of_mem_items (List.mem_map_of_mem (f := plistCoding der dates) hvalue)
  exact (hvalues value hvalue).read depth rest (by omega)

theorem read_entries {entries : List (Plist × Plist)}
    (hkeys : ∀ entry ∈ entries, Readable der dates entry.1)
    (hvalues : ∀ entry ∈ entries, Readable der dates entry.2) {depth : Nat}
    (hdepth : (entries.map (entryCoding der dates)).flatten.length ≤ depth) :
    ∀ entry ∈ entries, entryCoding der dates entry ≠ [] ∧ ∀ rest,
      derDecodeKeyValue der (decodePlistNested der dates depth)
        (entryCoding der dates entry ++ rest) = some (entry, rest) := by
  intro entry hentry
  have hlength := length_le_of_mem_items (List.mem_map_of_mem (f := entryCoding der dates) hentry)
  have hlt := content_length_lt hder ccderConstructedSequence (by decide)
    (plistCoding der dates entry.1 ++ plistCoding der dates entry.2)
  rw [← entryCoding, List.length_append] at hlt
  refine ⟨?_, ?_⟩
  · intro hnil
    rw [hnil, List.length_nil] at hlt
    omega
  · intro rest
    have hreadKey := (hkeys entry hentry).read depth (plistCoding der dates entry.2) (by omega)
    have hreadValue := (hvalues entry hentry).read depth [] (by omega)
    rw [List.append_nil] at hreadValue
    rw [derDecodeKeyValue, entryCoding, decodeConstructedTl_element hder _ (by decide)]
    simp only [Option.bind_eq_bind, Option.bind_some, hreadKey, hreadValue, List.nil_append]

include hdates in
/-- Members are distinct by a part of theirs exactly if no two of these parts are written alike. -/
theorem distinct_iff_nodup {α : Type} (part : α → Plist) {members : List α}
    (hmembers : ∀ member ∈ members, (part member).Encodable dates) :
    (members.Pairwise fun a b => cfEqual (part a) (part b) = false) ↔
      (members.map fun member => plistCoding der dates (part member)).Nodup := by
  rw [List.Nodup, List.pairwise_map]
  have hiff : ∀ a ∈ members, ∀ b ∈ members, (cfEqual (part a) (part b) = false ↔
      plistCoding der dates (part a) ≠ plistCoding der dates (part b)) := by
    intro a ha b hb
    rw [← Bool.not_eq_true, cfEqual_iff_plistCoding hder hdates (hmembers a ha) (hmembers b hb)]
  constructor
  · intro hdistinct
    apply hdistinct.imp_of_mem
    intro a b ha hb
    exact (hiff a ha b hb).mp
  · intro hnodup
    apply hnodup.imp_of_mem
    intro a b ha hb
    exact (hiff a ha b hb).mpr

include hdates in
/-- Neither another order nor members that are written alike make distinct members collide. -/
theorem distinct_of_perm {α : Type} (part : α → Plist) {members others : List α}
    (hmembers : ∀ member ∈ members, (part member).Encodable dates)
    (hothers : ∀ other ∈ others, (part other).Encodable dates)
    (hdistinct : members.Pairwise fun a b => cfEqual (part a) (part b) = false)
    (hperm : (others.map fun other => plistCoding der dates (part other)).Perm
      (members.map fun member => plistCoding der dates (part member))) :
    others.Pairwise fun a b => cfEqual (part a) (part b) = false := by
  rw [distinct_iff_nodup hder hdates part hothers, hperm.nodup_iff,
    ← distinct_iff_nodup hder hdates part hmembers]
  exact hdistinct

theorem readable_array {elements : List Plist}
    (helements : ∀ value ∈ elements, Readable der dates value) :
    Readable der dates (.array elements) := by
  have hcontent : plistContent der dates (.array elements) =
      (elements.map (plistCoding der dates)).flatten := by
    rw [plistContent, elementCodings_eq]
  apply readable_of_tagged hder (.array elements fun value hvalue =>
    (helements value hvalue).encodable)
  intro depth rest hdepth
  rw [hcontent] at hdepth ⊢
  have hread := decodeMembers_codings (fun array element => array ++ [element])
    (fun _ => True) (fun _ _ _ _ => rfl) elements
    (read_members hder helements hdepth) _ [] le_rfl trivial
  have hdispatch : decodeTagged der dates (decodePlistNested der dates depth)
      (plistTag (.array elements)) = derDecodeArray der (decodePlistNested der dates depth) := rfl
  rw [hdispatch, derDecodeArray, plistTag, decodeConstructedTl_element hder _ (by decide)]
  simp only [Option.bind_eq_bind, Option.bind_some, hread, List.nil_append]

include hdates in
theorem readable_set {elements : List Plist}
    (helements : ∀ value ∈ elements, Readable der dates value)
    (hdistinct : elements.Pairwise fun a b => cfEqual a b = false) :
    Readable der dates (.set (sortByCoding (plistCoding der dates) elements)) := by
  have hperm := sortByCoding_perm (plistCoding der dates) elements
  have hcontent : plistContent der dates (.set (sortByCoding (plistCoding der dates) elements)) =
      ((sortByCoding (plistCoding der dates) elements).map (plistCoding der dates)).flatten := by
    rw [plistContent, elementCodings_eq, mergeSort_sortByCoding]
  generalize sortByCoding (plistCoding der dates) elements = sorted at hperm hcontent ⊢
  have hsorted : ∀ value ∈ sorted, Readable der dates value := fun value hvalue =>
    helements value (hperm.mem_iff.mp hvalue)
  have hencodable : ∀ value ∈ sorted, value.Encodable dates := fun value hvalue =>
    (hsorted value hvalue).encodable
  have hdistinct' := distinct_of_perm hder hdates (fun value => value)
    (fun value hvalue => (helements value hvalue).encodable) hencodable hdistinct (hperm.map _)
  apply readable_of_tagged hder (.set sorted hencodable hdistinct')
  intro depth rest hdepth
  rw [hcontent] at hdepth ⊢
  have hread := decodeMembers_codings
    cfSetAddValue (fun members => members.Pairwise fun a b => cfEqual a b = false)
    (fun _ _ _ => cfSetAddValue_fresh) sorted
    (read_members hder hsorted hdepth) _ [] le_rfl hdistinct'
  have hdispatch : decodeTagged der dates (decodePlistNested der dates depth)
      (plistTag (.set sorted)) = derDecodeSet der (decodePlistNested der dates depth) := rfl
  rw [hdispatch, derDecodeSet, plistTag, decodeConstructedTl_element hder _ (by decide)]
  simp only [Option.bind_eq_bind, Option.bind_some, hread, List.nil_append]

include hdates in
theorem readable_dictionary {entries : List (Plist × Plist)}
    (hkeys : ∀ entry ∈ entries, Readable der dates entry.1)
    (hvalues : ∀ entry ∈ entries, Readable der dates entry.2)
    (hdistinct : entries.Pairwise fun a b => cfEqual a.1 b.1 = false) :
    Readable der dates (.dictionary (sortByCoding (entryCoding der dates) entries)) := by
  have hperm := sortByCoding_perm (entryCoding der dates) entries
  have hcontent : plistContent der dates
      (.dictionary (sortByCoding (entryCoding der dates) entries)) =
      ((sortByCoding (entryCoding der dates) entries).map (entryCoding der dates)).flatten := by
    rw [plistContent, entryCodings_eq, mergeSort_sortByCoding]
  generalize sortByCoding (entryCoding der dates) entries = sorted at hperm hcontent ⊢
  have hsortedKeys : ∀ entry ∈ sorted, Readable der dates entry.1 := fun entry hentry =>
    hkeys entry (hperm.mem_iff.mp hentry)
  have hsortedValues : ∀ entry ∈ sorted, Readable der dates entry.2 := fun entry hentry =>
    hvalues entry (hperm.mem_iff.mp hentry)
  have hencodable : ∀ entry ∈ sorted, entry.1.Encodable dates := fun entry hentry =>
    (hsortedKeys entry hentry).encodable
  have hdistinct' := distinct_of_perm hder hdates Prod.fst
    (fun entry hentry => (hkeys entry hentry).encodable) hencodable hdistinct (hperm.map _)
  apply readable_of_tagged hder (.dictionary sorted hencodable
    (fun entry hentry => (hsortedValues entry hentry).encodable) hdistinct')
  intro depth rest hdepth
  rw [hcontent] at hdepth ⊢
  have hread := decodeMembers_codings
    cfDictionaryAddValue (fun members => members.Pairwise fun a b => cfEqual a.1 b.1 = false)
    (fun _ _ _ => cfDictionaryAddValue_fresh) sorted
    (read_entries hder hsortedKeys hsortedValues hdepth) _ [] le_rfl hdistinct'
  have hdispatch : decodeTagged der dates (decodePlistNested der dates depth)
      (plistTag (.dictionary sorted)) =
        derDecodeDictionary der (decodePlistNested der dates depth) := rfl
  rw [hdispatch, derDecodeDictionary, plistTag, decodeConstructedTl_element hder _ (by decide)]
  simp only [Option.bind_eq_bind, Option.bind_some, hread, List.nil_append]

theorem readable_leaf {pl : Plist} (hpl : pl.Encodable dates) (reader : Reader Plist)
    (hdispatch : ∀ depth, decodeTagged der dates (decodePlistNested der dates depth)
      (plistTag pl) = reader)
    (hread : ∀ rest, reader (element der (plistTag pl) (plistContent der dates pl) ++ rest) =
      some (pl, rest)) :
    Readable der dates pl := by
  apply readable_of_tagged hder hpl
  intro depth rest _
  rw [hdispatch]
  exact hread rest

include hdates in
/-- Every encodable tree is written like a readable one. -/
theorem exists_readable {pl : Plist} (hpl : pl.Encodable dates) :
    ∃ q, Readable der dates q ∧ plistCoding der dates q = plistCoding der dates pl := by
  induction hpl with
  | null =>
    refine ⟨_, readable_leaf hder .null (derDecodeNull der) (fun _ => rfl) ?_, rfl⟩
    intro rest
    rw [derDecodeNull, plistTag, decodeTl_element hder _ (by decide)]
    simp [plistContent]
  | boolean value =>
    refine ⟨_, readable_leaf hder (.boolean value) (derDecodeBoolean der) (fun _ => rfl) ?_, rfl⟩
    intro rest
    rw [derDecodeBoolean, plistTag, decodeTl_element hder _ (by decide)]
    cases value <;> simp [plistContent]
  | data octets =>
    refine ⟨_, readable_leaf hder (.data octets) (derDecodeData der) (fun _ => rfl) ?_, rfl⟩
    intro rest
    rw [derDecodeData, plistTag, decodeTl_element hder _ (by decide)]
    simp [plistContent]
  | date time htime =>
    refine ⟨_, readable_leaf hder (.date time htime)
      (fun octets => (derDecodeDate der dates octets).map fun read => (.date read.1, read.2))
      (fun _ => rfl) ?_, rfl⟩
    intro rest
    simp only [plistTag, plistContent, derDecodeDate_element hdates hder htime, Option.map_some]
  | string units hunits =>
    refine ⟨_, readable_leaf hder (.string units hunits)
      (fun octets => (derDecodeString der octets).map fun read => (.string read.1, read.2))
      (fun _ => rfl) ?_, rfl⟩
    intro rest
    simp only [plistTag, plistContent, derDecodeString_element hder hunits, Option.map_some]
  | number value =>
    refine ⟨_, readable_leaf hder (.number value)
      (fun octets => (derDecodeNumber der octets).map fun read => (.number read.1, read.2))
      (fun _ => rfl) ?_, rfl⟩
    intro rest
    simp only [plistTag, plistContent, derDecodeNumber_element hder, Option.map_some]
  | array elements helements ih =>
    obtain ⟨others, hothers, hcodings⟩ :=
      exists_members (Readable der dates) (plistCoding der dates) elements ih
    refine ⟨_, readable_array hder hothers, ?_⟩
    rw [plistCoding_eq_iff hder, plistContent, plistContent, elementCodings_eq, elementCodings_eq,
      hcodings]
    exact ⟨rfl, rfl⟩
  | set elements helements hdistinct ih =>
    obtain ⟨others, hothers, hcodings⟩ :=
      exists_members (Readable der dates) (plistCoding der dates) elements ih
    have hdistinct' := distinct_of_perm hder hdates (fun value => value) helements
      (fun other hother => (hothers other hother).encodable) hdistinct (.of_eq hcodings)
    refine ⟨_, readable_set hder hdates hothers hdistinct', ?_⟩
    rw [plistCoding_eq_iff hder, plistContent, plistContent, elementCodings_eq, elementCodings_eq,
      mergeSort_sortByCoding, map_sortByCoding, hcodings]
    exact ⟨rfl, rfl⟩
  | dictionary entries hkeys hvalues hdistinct ihkeys ihvalues =>
    obtain ⟨others, hothers, hpairs⟩ := exists_members
      (fun entry => Readable der dates entry.1 ∧ Readable der dates entry.2)
      (fun entry => (plistCoding der dates entry.1, plistCoding der dates entry.2)) entries (by
        intro entry hentry
        obtain ⟨key, hkey, hkeyCoding⟩ := ihkeys entry hentry
        obtain ⟨value, hvalue, hvalueCoding⟩ := ihvalues entry hentry
        exact ⟨(key, value), ⟨hkey, hvalue⟩, by rw [hkeyCoding, hvalueCoding]⟩)
    have hkeyCodings : others.map (fun entry => plistCoding der dates entry.1) =
        entries.map fun entry => plistCoding der dates entry.1 := by
      have hfirst := congrArg (List.map Prod.fst) hpairs
      rw [List.map_map, List.map_map] at hfirst
      exact hfirst
    have hcodings : others.map (entryCoding der dates) = entries.map (entryCoding der dates) := by
      have hwhole := congrArg (List.map fun pair : List UInt8 × List UInt8 =>
        element der ccderConstructedSequence (pair.1 ++ pair.2)) hpairs
      rw [List.map_map, List.map_map] at hwhole
      exact hwhole
    have hdistinct' := distinct_of_perm hder hdates Prod.fst hkeys
      (fun other hother => (hothers other hother).1.encodable) hdistinct (.of_eq hkeyCodings)
    refine ⟨_, readable_dictionary hder hdates (fun other hother => (hothers other hother).1)
      (fun other hother => (hothers other hother).2) hdistinct', ?_⟩
    rw [plistCoding_eq_iff hder, plistContent, plistContent, entryCodings_eq, entryCodings_eq,
      mergeSort_sortByCoding, map_sortByCoding, hcodings]
    exact ⟨rfl, rfl⟩
end

section
variable {der : Primitives} (hder : der.Correct) {dates : DateSystem} (hdates : dates.Correct)
  {pl : Plist} (hpl : pl.Encodable dates)
include hder hdates hpl

/-- An encodable tree is read back as an equal tree that is written alike. -/
theorem exists_received :
    ∃ q, q.Encodable dates ∧ plistCoding der dates q = plistCoding der dates pl ∧
      cfEqual pl q = true ∧
      ∀ rest, derDecodePlist der dates (plistCoding der dates pl ++ rest) = some (q, rest) := by
  obtain ⟨q, hq, hcoding⟩ := exists_readable hder hdates hpl
  refine ⟨q, hq.encodable, hcoding,
    (cfEqual_iff_plistCoding hder hdates hpl hq.encodable).mpr hcoding.symm, ?_⟩
  intro rest
  have hread := hq.read ((plistCoding der dates pl ++ rest).length + 1) rest (by
    rw [hcoding, List.length_append]
    omega)
  rw [hcoding] at hread
  exact hread

theorem derSizeofPlist_of_encodable :
    derSizeofPlist der dates pl = (plistCoding der dates pl).length :=
  derSizeofPlist_eq hder (fun _ htime => writable_of_encodable hdates htime) hpl.over

theorem writes_derEncodePlist :
    Writes (derEncodePlist der dates pl) (plistCoding der dates pl) :=
  writes_derEncodePlistRepair hder (fun _ htime => writable_of_encodable hdates htime) hpl.over
    false

theorem CFPropertyListCreateDERData_of_encodable :
    CFPropertyListCreateDERData der dates pl = some (plistCoding der dates pl) := by
  have hfills := (writes_derEncodePlist hder hdates hpl).fills
  rw [CFPropertyListCreateDERData, derSizeofPlist_of_encodable hder hdates hpl, hfills]
  rfl
end

/-- Wherever it is written, an encodable tree takes the octets of its size, and these are read back
as an equal tree. -/
theorem derEncodePlist_derDecodePlist {der : Primitives} (hder : der.Correct)
    {dates : DateSystem} (hdates : dates.Correct) {pl : Plist} (hpl : pl.Encodable dates)
    (room : Nat) (written rest : List UInt8) :
    ∃ octets q,
      derEncodePlist der dates pl (.ok ⟨room + derSizeofPlist der dates pl, written⟩) =
        .ok ⟨room, octets ++ written⟩ ∧
      octets.length = derSizeofPlist der dates pl ∧
      derDecodePlist der dates (octets ++ rest) = some (q, rest) ∧ cfEqual pl q = true := by
  obtain ⟨q, -, -, hequal, hread⟩ := exists_received hder hdates hpl
  have hsize := derSizeofPlist_of_encodable hder hdates hpl
  have hwrites := writes_derEncodePlist hder hdates hpl room written
  refine ⟨plistCoding der dates pl, q, ?_, hsize.symm, hread rest, hequal⟩
  rw [hsize, hwrites]

def samplePlist : Plist :=
  .dictionary
    [(.string [0x61], .set [.number 128, .boolean true]),
      (.string [0x62, 0xD83D, 0xDE00], .array [.null, .data [1, 2], .date 100])]

theorem samplePlist_encodable : samplePlist.Encodable firstMonth := by
  refine .dictionary _ ?_ ?_ (by decide)
  · simp only [List.forall_mem_cons, List.not_mem_nil, false_implies, implies_true, and_true]
    exact ⟨.string _ ⟨['a'], by decide⟩, .string _ ⟨['b', '😀'], by decide⟩⟩
  · simp only [List.forall_mem_cons, List.not_mem_nil, false_implies, implies_true, and_true]
    refine ⟨.set _ ?_ (by decide), .array _ ?_⟩
    · simp only [List.forall_mem_cons, List.not_mem_nil, false_implies, implies_true, and_true]
      exact ⟨.number 128, .boolean true⟩
    · simp only [List.forall_mem_cons, List.not_mem_nil, false_implies, implies_true, and_true]
      exact ⟨.null, .data [1, 2], .date 100 ⟨rfl, ⟨2001, 1, 1, 0, 1, 40⟩, by decide, by decide,
        by decide⟩⟩

theorem derEncodePlist_derDecodePlist_sample :
    ∃ octets q,
      derEncodePlist Standard.primitives firstMonth samplePlist
        (.ok ⟨5 + derSizeofPlist Standard.primitives firstMonth samplePlist, [1]⟩) =
          .ok ⟨5, octets ++ [1]⟩ ∧
      octets.length = derSizeofPlist Standard.primitives firstMonth samplePlist ∧
      derDecodePlist Standard.primitives firstMonth (octets ++ [2]) = some (q, [2]) ∧
      cfEqual samplePlist q = true :=
  derEncodePlist_derDecodePlist Standard.primitives_correct firstMonth_correct
    samplePlist_encodable 5 [1] [2]
end SecurityFramework
