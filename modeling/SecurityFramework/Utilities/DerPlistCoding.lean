import SecurityFramework.Utilities.DerPlist

/-! # What a property list is written as -/

namespace SecurityFramework
open DER

theorem cfDataCompareDERDataLe_iff (left right : List UInt8) :
    cfDataCompareDERDataLe left right = true ↔
      ByteOrder.octets left ≤ ByteOrder.octets right := by
  simp only [cfDataCompareDERDataLe, decide_eq_true_eq]
  rw [ByteOrder.memcmp_take_pos_iff, not_lt]

theorem mergeSort_eq_of_perm {codings codings' : List (List UInt8)}
    (hperm : codings.Perm codings') :
    codings.mergeSort cfDataCompareDERDataLe = codings'.mergeSort cfDataCompareDERDataLe := by
  have htrans : ∀ a b c, cfDataCompareDERDataLe a b = true → cfDataCompareDERDataLe b c = true →
      cfDataCompareDERDataLe a c = true := by
    intro a b c hab hbc
    rw [cfDataCompareDERDataLe_iff] at hab hbc ⊢
    exact le_trans hab hbc
  have htotal : ∀ a b, (cfDataCompareDERDataLe a b || cfDataCompareDERDataLe b a) = true := by
    intro a b
    rw [Bool.or_eq_true, cfDataCompareDERDataLe_iff, cfDataCompareDERDataLe_iff]
    exact le_total _ _
  have hsame := ((List.mergeSort_perm codings cfDataCompareDERDataLe).trans hperm).trans
    (List.mergeSort_perm codings' cfDataCompareDERDataLe).symm
  refine List.Perm.eq_of_pairwise ?_ (List.pairwise_mergeSort htrans htotal codings)
    (List.pairwise_mergeSort htrans htotal codings') hsame
  intro a b _ _ hab hba
  rw [cfDataCompareDERDataLe_iff] at hab hba
  exact ByteOrder.octets_injective (le_antisymm hab hba)

def plistTag : Plist → Tag
  | .null => ccderNull
  | .boolean _ => ccderBoolean
  | .data _ => ccderOctetString
  | .date _ => ccderGeneralizedTime
  | .string _ => ccderUtf8String
  | .number _ => ccderInteger
  | .array _ => ccderConstructedSequence
  | .set _ => ccderConstructedCfset
  | .dictionary _ => ccderConstructedSet

section
variable (der : Primitives) (dates : DateSystem)

mutual

def plistContent : Plist → List UInt8
  | .null => []
  | .boolean value => [if value then 1 else 0]
  | .data octets => octets
  | .date time => dateContent dates time
  | .string units => stringContent units
  | .number value => numberContent value
  | .array elements => (elementCodings elements).flatten
  | .set elements => ((elementCodings elements).mergeSort cfDataCompareDERDataLe).flatten
  | .dictionary entries => ((entryCodings entries).mergeSort cfDataCompareDERDataLe).flatten

def elementCodings : List Plist → List (List UInt8)
  | [] => []
  | value :: elements => element der (plistTag value) (plistContent value) :: elementCodings elements

def entryCodings : List (Plist × Plist) → List (List UInt8)
  | [] => []
  | (key, value) :: entries =>
    element der ccderConstructedSequence (element der (plistTag key) (plistContent key) ++
      element der (plistTag value) (plistContent value)) :: entryCodings entries
end

def plistCoding (pl : Plist) : List UInt8 :=
  element der (plistTag pl) (plistContent der dates pl)

def entryCoding (entry : Plist × Plist) : List UInt8 :=
  element der ccderConstructedSequence
    (plistCoding der dates entry.1 ++ plistCoding der dates entry.2)

theorem elementCodings_eq (elements : List Plist) :
    elementCodings der dates elements = elements.map (plistCoding der dates) := by
  induction elements with
  | nil => rfl
  | cons value elements ih => rw [elementCodings, ih, List.map_cons, plistCoding]

theorem entryCodings_eq (entries : List (Plist × Plist)) :
    entryCodings der dates entries = entries.map (entryCoding der dates) := by
  induction entries with
  | nil => rfl
  | cons entry entries ih =>
    rw [entryCodings, ih, List.map_cons, entryCoding, plistCoding, plistCoding]

theorem elementSizes_eq (elements : List Plist) :
    elementSizes der dates elements = elements.map (derSizeofPlist der dates) := by
  induction elements with
  | nil => rfl
  | cons value elements ih => rw [elementSizes, ih, List.map_cons]

theorem entrySizes_eq (entries : List (Plist × Plist)) :
    entrySizes der dates entries = entries.map fun entry =>
      (derSizeofPlist der dates entry.1, derSizeofPlist der dates entry.2) := by
  induction entries with
  | nil => rfl
  | cons entry entries ih => rw [entrySizes, ih, List.map_cons]

theorem elementWriters_eq (repair : Bool) (elements : List Plist) :
    elementWriters der dates repair elements =
      elements.map (derEncodePlistRepair der dates repair) := by
  induction elements with
  | nil => rfl
  | cons value elements ih => rw [elementWriters, ih, List.map_cons]

theorem entryWriters_eq (repair : Bool) (entries : List (Plist × Plist)) :
    entryWriters der dates repair entries = entries.map fun entry =>
      (derEncodePlistRepair der dates repair entry.1,
        derEncodePlistRepair der dates repair entry.2) := by
  induction entries with
  | nil => rfl
  | cons entry entries ih => rw [entryWriters, ih, List.map_cons]

/-- A tree of which every string and date has an encoding, and whose sets and dictionaries hold
distinct members. -/
inductive Plist.Encodable : Plist → Prop where
  | null : Encodable .null
  | boolean (value : Bool) : Encodable (.boolean value)
  | data (octets : List UInt8) : Encodable (.data octets)
  | date (time : CFAbsoluteTime) (htime : dates.Encodable time) : Encodable (.date time)
  | string (units : CFString) (hunits : units.Encodable) : Encodable (.string units)
  | number (value : LongLong) : Encodable (.number value)
  | array (elements : List Plist) (helements : ∀ value ∈ elements, Encodable value) :
    Encodable (.array elements)
  | set (elements : List Plist) (helements : ∀ value ∈ elements, Encodable value)
    (hdistinct : elements.Pairwise fun a b => cfEqual a b = false) : Encodable (.set elements)
  | dictionary (entries : List (Plist × Plist)) (hkeys : ∀ entry ∈ entries, Encodable entry.1)
    (hvalues : ∀ entry ∈ entries, Encodable entry.2)
    (hdistinct : entries.Pairwise fun a b => cfEqual a.1 b.1 = false) :
    Encodable (.dictionary entries)
end

/-- A tree of which every string has an encoding and every date is a good one, and whose sets and
dictionaries hold distinct members. -/
inductive Plist.Over (good : CFAbsoluteTime → Prop) : Plist → Prop where
  | null : Over good .null
  | boolean (value : Bool) : Over good (.boolean value)
  | data (octets : List UInt8) : Over good (.data octets)
  | date (time : CFAbsoluteTime) (htime : good time) : Over good (.date time)
  | string (units : CFString) (hunits : units.Encodable) : Over good (.string units)
  | number (value : LongLong) : Over good (.number value)
  | array (elements : List Plist) (helements : ∀ value ∈ elements, Over good value) :
    Over good (.array elements)
  | set (elements : List Plist) (helements : ∀ value ∈ elements, Over good value)
    (hdistinct : elements.Pairwise fun a b => cfEqual a b = false) : Over good (.set elements)
  | dictionary (entries : List (Plist × Plist)) (hkeys : ∀ entry ∈ entries, Over good entry.1)
    (hvalues : ∀ entry ∈ entries, Over good entry.2)
    (hdistinct : entries.Pairwise fun a b => cfEqual a.1 b.1 = false) :
    Over good (.dictionary entries)

theorem Plist.Encodable.over {dates : DateSystem} {pl : Plist} (hpl : pl.Encodable dates) :
    pl.Over dates.Encodable := by
  induction hpl with
  | null => exact .null
  | boolean value => exact .boolean value
  | data octets => exact .data octets
  | date time htime => exact .date time htime
  | string units hunits => exact .string units hunits
  | number value => exact .number value
  | array elements _ ih => exact .array elements ih
  | set elements _ hdistinct ih => exact .set elements ih hdistinct
  | dictionary entries _ _ hdistinct ihkeys ihvalues =>
    exact .dictionary entries ihkeys ihvalues hdistinct

theorem plistTag_low (pl : Plist) : (plistTag pl).number < 31 := by
  cases pl <;> simp only [plistTag] <;> decide

theorem isElement_plistCoding (der : Primitives) (dates : DateSystem) (pl : Plist) :
    IsElement der (plistCoding der dates pl) :=
  ⟨plistTag pl, plistContent der dates pl, plistTag_low pl, rfl⟩

theorem isElement_entryCoding (der : Primitives) (dates : DateSystem) (entry : Plist × Plist) :
    IsElement der (entryCoding der dates entry) :=
  ⟨ccderConstructedSequence, _, by decide, rfl⟩

section Writing

variable {der : Primitives} (hder : der.Correct) {dates : DateSystem}
  {good : CFAbsoluteTime → Prop} (hgood : ∀ time, good time → dates.Writable time)

theorem foldl_addValueSize (sizes : List Nat) (total : Nat) (hsizes : ∀ size ∈ sizes, size ≠ 0) :
    sizes.foldl addValueSize (some total) = some (total + sizes.sum) := by
  induction sizes generalizing total with
  | nil => rfl
  | cons size sizes ih =>
    have hsize := hsizes size List.mem_cons_self
    have htail := ih (total + size) fun other hother => hsizes other (List.mem_cons_of_mem _ hother)
    simp only [List.foldl_cons, addValueSize, Option.bind_some, hsize, if_false, htail,
      List.sum_cons, Nat.add_assoc]

theorem foldr_size_eq_sum (sizes : List Nat) :
    sizes.foldr (fun size bodySize => bodySize + size) 0 = sizes.sum := by
  induction sizes with
  | nil => rfl
  | cons size sizes ih => rw [List.foldr_cons, ih, List.sum_cons, Nat.add_comm]

theorem length_flatten_mergeSort (codings : List (List UInt8)) :
    (codings.mergeSort cfDataCompareDERDataLe).flatten.length =
      (codings.map List.length).sum := by
  have hperm := (List.mergeSort_perm codings cfDataCompareDERDataLe).flatten
  rw [hperm.length_eq, List.length_flatten]

include hder in
theorem plistCoding_ne_nil (pl : Plist) : plistCoding der dates pl ≠ [] := by
  have htag := encodeTag_ne_nil hder (plistTag pl) (plistTag_low pl)
  simp [plistCoding, element, htag]

include hder in
theorem length_plistCoding_ne_zero (pl : Plist) : (plistCoding der dates pl).length ≠ 0 := by
  intro hzero
  exact plistCoding_ne_nil hder pl (List.length_eq_zero_iff.mp hzero)

include hder in
theorem length_entryCoding_ne_zero (entry : Plist × Plist) :
    (entryCoding der dates entry).length ≠ 0 := by
  have htag := encodeTag_ne_nil hder ccderConstructedSequence (by decide)
  simp [entryCoding, element, htag]

include hder in
theorem derSizeofKeyValue_eq (entry : Plist × Plist)
    (hkey : derSizeofPlist der dates entry.1 = (plistCoding der dates entry.1).length)
    (hvalue : derSizeofPlist der dates entry.2 = (plistCoding der dates entry.2).length) :
    derSizeofKeyValue der (derSizeofPlist der dates entry.1, derSizeofPlist der dates entry.2) =
      (entryCoding der dates entry).length := by
  simp only [derSizeofKeyValue, hkey, hvalue, length_plistCoding_ne_zero hder, if_false,
    entryCoding, length_element, List.length_append]

include hder hgood in
theorem derSizeofPlist_eq {pl : Plist} (hpl : pl.Over good) :
    derSizeofPlist der dates pl = (plistCoding der dates pl).length := by
  rw [plistCoding, length_element]
  induction hpl with
  | null => rfl
  | boolean value => rfl
  | data octets => rfl
  | date time htime =>
    rw [derSizeofPlist, derSizeofDate, derSizeofGeneralizedtime_eq (hgood time htime) der,
      length_element]
    rfl
  | string units hunits =>
    rw [derSizeofPlist, derSizeofString_eq der hunits, length_element]
    rfl
  | number value =>
    rw [derSizeofPlist, derSizeofNumber, plistContent, length_numberContent]
    rfl
  | array elements helements ih =>
    have hsizes : elements.map (derSizeofPlist der dates) =
        (elements.map (plistCoding der dates)).map List.length := by
      rw [List.map_map]
      apply List.map_congr_left
      intro value hvalue
      simp [ih value hvalue, plistCoding]
    rw [derSizeofPlist, derSizeofArray, elementSizes_eq, foldr_size_eq_sum, hsizes, plistContent,
      elementCodings_eq, List.length_flatten]
    rfl
  | set elements helements hdistinct ih =>
    have hsizes : elements.map (derSizeofPlist der dates) =
        (elements.map (plistCoding der dates)).map List.length := by
      rw [List.map_map]
      apply List.map_congr_left
      intro value hvalue
      simp [ih value hvalue, plistCoding]
    have hnonzero : ∀ size ∈ (elements.map (plistCoding der dates)).map List.length,
        size ≠ 0 := by
      intro size hsize
      obtain ⟨coding, hcoding, rfl⟩ := List.mem_map.mp hsize
      obtain ⟨value, -, rfl⟩ := List.mem_map.mp hcoding
      exact length_plistCoding_ne_zero hder value
    rw [derSizeofPlist, derSizeofSet, elementSizes_eq, hsizes, foldl_addValueSize _ _ hnonzero,
      plistContent, elementCodings_eq, length_flatten_mergeSort, Nat.zero_add]
    rfl
  | dictionary entries hkeys hvalues hdistinct ihkeys ihvalues =>
    have hsizes : (entries.map fun entry =>
        (derSizeofPlist der dates entry.1, derSizeofPlist der dates entry.2)).map
          (derSizeofKeyValue der) = (entries.map (entryCoding der dates)).map List.length := by
      rw [List.map_map, List.map_map]
      apply List.map_congr_left
      intro entry hentry
      apply derSizeofKeyValue_eq hder entry
      · rw [ihkeys entry hentry, plistCoding, length_element]
      · rw [ihvalues entry hentry, plistCoding, length_element]
    have hnonzero : ∀ size ∈ (entries.map (entryCoding der dates)).map List.length, size ≠ 0 := by
      intro size hsize
      obtain ⟨coding, hcoding, rfl⟩ := List.mem_map.mp hsize
      obtain ⟨entry, -, rfl⟩ := List.mem_map.mp hcoding
      exact length_entryCoding_ne_zero hder entry
    rw [derSizeofPlist, derSizeofDictionary, entrySizes_eq, hsizes,
      foldl_addValueSize _ _ hnonzero, plistContent, entryCodings_eq, length_flatten_mergeSort,
      Nat.zero_add]
    rfl

theorem foldl_addSequenceToArray {α : Type} (members : List α) (size : α → Nat)
    (writer : α → Writer) (coding : α → List UInt8) (list : List (List UInt8))
    (hsize : ∀ value ∈ members, size value = (coding value).length)
    (hnonempty : ∀ value ∈ members, (coding value).length ≠ 0)
    (hwrites : ∀ value ∈ members, Writes (writer value) (coding value)) :
    (members.map fun value => (size value, writer value)).foldl addSequenceToArray (some list) =
      some (list ++ members.map coding) := by
  induction members generalizing list with
  | nil => simp
  | cons value members ih =>
    have hfills := (hwrites value List.mem_cons_self).fills
    have hlength := hsize value List.mem_cons_self
    have hne := hnonempty value List.mem_cons_self
    have htail := ih (list ++ [coding value])
      (fun other hother => hsize other (List.mem_cons_of_mem _ hother))
      (fun other hother => hnonempty other (List.mem_cons_of_mem _ hother))
      (fun other hother => hwrites other (List.mem_cons_of_mem _ hother))
    simp only [List.map_cons, List.foldl_cons, addSequenceToArray, Option.bind_eq_bind,
      Option.bind_some, hlength, hne, if_false, hfills, htail, List.append_assoc,
      List.cons_append, List.nil_append]

theorem writes_derEncodeSorted (der : Primitives) (tag : Tag) {members : List (Nat × Writer)}
    {codings : List (List UInt8)}
    (hmembers : members.foldl addSequenceToArray (some []) = some codings) :
    Writes (derEncodeSorted der tag members)
      (element der tag (codings.mergeSort cfDataCompareDERDataLe).flatten) := by
  have hwrites :=
    Writes.constructed der tag (Writes.bodies (codings.mergeSort cfDataCompareDERDataLe))
  intro room written
  have hwritten := hwrites room written
  rw [derEncodeSorted, hmembers]
  exact hwritten

theorem writes_elementWriters {elements : List Plist} (repair : Bool)
    (helements : ∀ value ∈ elements,
      Writes (derEncodePlistRepair der dates repair value) (plistCoding der dates value)) :
    Writes (fun buffer => (elements.map (derEncodePlistRepair der dates repair)).foldr
      (fun writer buffer => writer buffer) buffer)
      (elements.map (plistCoding der dates)).flatten := by
  have hloop := Writes.loop elements helements
  intro room written
  have hwritten := hloop room written
  simp only [List.foldr_map]
  rwa [List.flatMap_def] at hwritten

include hder hgood in
theorem writes_derEncodePlistRepair {pl : Plist} (hpl : pl.Over good) (repair : Bool) :
    Writes (derEncodePlistRepair der dates repair pl) (plistCoding der dates pl) := by
  induction hpl with
  | null =>
    have hwrites := Writes.octets der ccderNull []
    intro room written
    have hwritten := hwrites room written
    simp only [encodeOctets, encodeBody] at hwritten
    simpa [derEncodePlistRepair, derEncodeNull, plistCoding, plistTag, plistContent] using hwritten
  | boolean value => exact Writes.octets der ccderBoolean [if value then 1 else 0]
  | data octets => exact Writes.octets der ccderOctetString octets
  | date time htime => exact writes_derEncodeDateRepair (hgood time htime) der repair
  | string units hunits => exact writes_derEncodeString der hunits
  | number value => exact writes_derEncodeNumber der value
  | array elements helements ih =>
    have hwrites := Writes.constructed der ccderConstructedSequence
      (writes_elementWriters repair ih)
    rw [derEncodePlistRepair, elementWriters_eq, plistCoding, plistContent, elementCodings_eq]
    exact hwrites
  | set elements helements hdistinct ih =>
    have hmembers := foldl_addSequenceToArray elements (derSizeofPlist der dates)
      (derEncodePlistRepair der dates repair) (plistCoding der dates) []
      (fun value hvalue => derSizeofPlist_eq hder hgood (helements value hvalue))
      (fun value _ => length_plistCoding_ne_zero hder value) ih
    have hwrites := writes_derEncodeSorted der ccderConstructedCfset hmembers
    rw [derEncodePlistRepair, elementSizes_eq, elementWriters_eq, List.zip_map', plistCoding,
      plistContent, elementCodings_eq]
    exact hwrites
  | dictionary entries hkeys hvalues hdistinct ihkeys ihvalues =>
    have hmembers := foldl_addSequenceToArray entries
      (fun entry => derSizeofKeyValue der
        (derSizeofPlist der dates entry.1, derSizeofPlist der dates entry.2))
      (fun entry => derEncodeKeyValue der (derEncodePlistRepair der dates repair entry.1)
        (derEncodePlistRepair der dates repair entry.2))
      (entryCoding der dates) []
      (fun entry hentry => derSizeofKeyValue_eq hder entry
        (derSizeofPlist_eq hder hgood (hkeys entry hentry))
        (derSizeofPlist_eq hder hgood (hvalues entry hentry)))
      (fun entry _ => length_entryCoding_ne_zero hder entry)
      (fun entry hentry => Writes.constructed der ccderConstructedSequence
        ((ihkeys entry hentry).comp (ihvalues entry hentry)))
    have hwrites := writes_derEncodeSorted der ccderConstructedSet hmembers
    rw [derEncodePlistRepair, entrySizes_eq, entryWriters_eq, List.zip_map', plistCoding,
      plistContent, entryCodings_eq]
    intro room written
    have hwritten := hwrites room written
    rw [derEncodeDictionaryRepair, List.map_map]
    exact hwritten
end Writing
end SecurityFramework
