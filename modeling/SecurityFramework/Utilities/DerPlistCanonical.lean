import SecurityFramework.Utilities.DerDateFraction
import SecurityFramework.Utilities.DerPlistEquality

/-! # Property lists are written canonically -/

namespace SecurityFramework
open DER

theorem ofNat_toNat_of_valid {n : Nat} (hvalid : n.isValidChar) : (Char.ofNat n).toNat = n := by
  rw [Char.ofNat, dif_pos hvalid]
  rfl

theorem utf16Units_unit {unit : UInt16} (hplain : unit.toNat < 0xD800 ∨ 0xE000 ≤ unit.toNat) :
    utf16Units (Char.ofNat unit.toNat) = [unit] := by
  have hlt := unit.toNat_lt
  have hvalid : unit.toNat.isValidChar := by
    cases hplain with
    | inl hlow => exact .inl hlow
    | inr hhigh => exact .inr ⟨by omega, by omega⟩
  rw [utf16Units, ofNat_toNat_of_valid hvalid, if_pos (by omega), UInt16.ofNat_toNat]

theorem utf16Units_surrogatePair {high low : UInt16} (hhigh : 0xD800 ≤ high.toNat)
    (hhigh' : high.toNat < 0xDC00) (hlow : 0xDC00 ≤ low.toNat) (hlow' : low.toNat < 0xE000) :
    utf16Units (surrogatePair high low) = [high, low] := by
  have hvalid : (0x10000 + (high.toNat - 0xD800) * 0x400 + (low.toNat - 0xDC00)).isValidChar :=
    .inr ⟨by omega, by omega⟩
  have hfirst : 0xD800 + (0x10000 + (high.toNat - 0xD800) * 0x400 + (low.toNat - 0xDC00) -
      0x10000) / 0x400 = high.toNat := by omega
  have hsecond : 0xDC00 + (0x10000 + (high.toNat - 0xD800) * 0x400 + (low.toNat - 0xDC00) -
      0x10000) % 0x400 = low.toNat := by omega
  rw [utf16Units, surrogatePair, ofNat_toNat_of_valid hvalid, if_neg (by omega), hfirst, hsecond,
    UInt16.ofNat_toNat, UInt16.ofNat_toNat]

/-- If all units of a string are converted, they are those of characters. -/
theorem encodable_of_cfStringGetBytes (string : CFString) (room : Nat)
    (hall : (cfStringGetBytes string room).1 = string.length) : string.Encodable := by
  fun_induction cfStringGetBytes string room with
  | case1 => exact ⟨[], rfl⟩
  | case2 unit rest _ hplain octets hfits ih =>
    simp only [convertUnits, List.length_cons] at hall
    obtain ⟨chars, hchars⟩ := ih (by omega)
    exact ⟨Char.ofNat unit.toNat :: chars, by
      rw [List.flatMap_cons, utf16Units_unit hplain, hchars]
      rfl⟩
  | case3 => cases hall
  | case4 => cases hall
  | case5 unit _ hplain next rest octets hpair ih =>
    simp only [convertUnits, List.length_cons] at hall
    obtain ⟨chars, hchars⟩ := ih (by omega)
    exact ⟨surrogatePair unit next :: chars, by
      rw [List.flatMap_cons, utf16Units_surrogatePair (by omega) hpair.1 hpair.2.1 hpair.2.2.1,
        hchars]
      rfl⟩
  | case6 => cases hall

variable {buffer : Buffer} {output : Output} {der : Primitives} {dates : DateSystem}
  {members : List (Nat × Writer)}

theorem ok_of_encodeBody {octets : List UInt8} (hok : encodeBody octets output = .ok buffer) :
    ∃ before, output = .ok before := by
  cases output with
  | ok before => exact ⟨before, rfl⟩
  | error before => cases hok

theorem ok_of_encodeTl {tag : Tag} {len : Nat} (hok : encodeTl der tag len output = .ok buffer) :
    ∃ before, output = .ok before := by
  obtain ⟨before, hbefore⟩ := ok_of_encodeBody hok
  exact ok_of_encodeBody hbefore

theorem ok_of_encodeConstructedTl {tag : Tag} {bodyEnd body : Output}
    (hok : encodeConstructedTl der tag bodyEnd body = .ok buffer) :
    ∃ before, body = .ok before := by
  cases body with
  | ok before => exact ⟨before, rfl⟩
  | error before => cases bodyEnd <;> cases hok

theorem ok_of_ccderEncodeDecimalPair {v : Int}
    (hok : ccderEncodeDecimalPair v output = .ok buffer) :
    v < 100 ∧ ∃ before, output = .ok before := by
  rw [ccderEncodeDecimalPair] at hok
  split at hok
  case isTrue hv => exact ⟨hv, ok_of_encodeBody hok⟩
  case isFalse => cases output <;> cases hok

theorem ok_of_ccderEncodeNanoseconds {date : CFAbsoluteTime}
    (hok : ccderEncodeNanoseconds dates date output = .ok buffer) :
    ∃ before, output = .ok before := by
  have hbodies : ∀ str : List UInt8, ∀ pad : List UInt8,
      (if (str.length : Int) > (dates.dtoa date).2 then
        encodeBody [0x2E] (if (dates.dtoa date).2 < 0 then encodeBody pad (encodeBody str output)
          else encodeBody (str.drop (dates.dtoa date).2.toNat) output) else output) = .ok buffer →
      ∃ before, output = .ok before := by
    intro str pad hok
    split at hok
    case isTrue =>
      obtain ⟨before, hbefore⟩ := ok_of_encodeBody hok
      split at hbefore
      · obtain ⟨before, hbefore⟩ := ok_of_encodeBody hbefore
        exact ok_of_encodeBody hbefore
      · exact ok_of_encodeBody hbefore
    case isFalse => exact ⟨buffer, hok⟩
  exact hbodies _ _ hok

theorem ok_of_derEncodeDateRepair {date : CFAbsoluteTime}
    (hok : derEncodeDateRepair der dates date false output = .ok buffer) :
    (∃ components, dates.calendarDecomposeAbsoluteTime date = some components ∧
      components.year.tdiv 100 < 100) ∧ ∃ before, output = .ok before := by
  obtain ⟨body, hbody⟩ := ok_of_encodeConstructedTl hok
  rw [derEncodeGeneralizedtimeBodyRepair] at hbody
  split at hbody
  case h_1 => cases output <;> cases hbody
  case h_2 components hdecompose =>
    simp only [Bool.false_eq_true, and_false, if_false, ccderEncodeDecimalQuad] at hbody
    obtain ⟨hcentury, before, hbefore⟩ := ok_of_ccderEncodeDecimalPair hbody
    obtain ⟨-, before, hbefore⟩ := ok_of_ccderEncodeDecimalPair hbefore
    obtain ⟨-, before, hbefore⟩ := ok_of_ccderEncodeDecimalPair hbefore
    obtain ⟨-, before, hbefore⟩ := ok_of_ccderEncodeDecimalPair hbefore
    obtain ⟨-, before, hbefore⟩ := ok_of_ccderEncodeDecimalPair hbefore
    obtain ⟨-, before, hbefore⟩ := ok_of_ccderEncodeDecimalPair hbefore
    obtain ⟨-, before, hbefore⟩ := ok_of_ccderEncodeDecimalPair hbefore
    obtain ⟨before, hbefore⟩ := ok_of_ccderEncodeNanoseconds hbefore
    exact ⟨⟨components, hdecompose, hcentury⟩, ok_of_encodeBody hbefore⟩

theorem ok_of_derEncodeString {string : CFString}
    (hok : derEncodeString der string output = .ok buffer) :
    string.Encodable ∧ ∃ before, output = .ok before := by
  cases output with
  | error before => cases hok
  | ok before =>
    simp only [derEncodeString] at hok
    split at hok
    case isTrue => cases hok
    case isFalse hall =>
      exact ⟨encodable_of_cfStringGetBytes string before.room (not_not.mp hall), before, rfl⟩

theorem ok_of_writers {α : Type} {writer : α → Writer} {members : List α}
    (hmembers : ∀ member ∈ members, ∀ output buffer, writer member output = .ok buffer →
      ∃ before, output = .ok before)
    (hok : (members.map writer).foldr (fun writer buffer => writer buffer) output = .ok buffer) :
    (∀ member ∈ members, ∃ output buffer, writer member output = .ok buffer) ∧
      ∃ before, output = .ok before := by
  induction members generalizing buffer with
  | nil => exact ⟨fun member hmember => absurd hmember List.not_mem_nil, buffer, hok⟩
  | cons member members ih =>
    rw [List.map_cons, List.foldr_cons] at hok
    obtain ⟨between, hbetween⟩ := hmembers member List.mem_cons_self _ _ hok
    obtain ⟨hrest, hbefore⟩ := ih
      (fun other hother => hmembers other (List.mem_cons_of_mem _ hother)) hbetween
    refine ⟨?_, hbefore⟩
    intro other hother
    cases List.mem_cons.mp hother with
    | inl heq => exact ⟨_, buffer, heq ▸ hok⟩
    | inr hmem => exact hrest other hmem

theorem foldl_addSequenceToArray_none (members : List (Nat × Writer)) :
    members.foldl addSequenceToArray none = none := by
  induction members with
  | nil => rfl
  | cons member members ih => exact ih

theorem ok_of_addSequenceToArray {list codings : List (List UInt8)}
    (hall : members.foldl addSequenceToArray (some list) = some codings) :
    ∀ member ∈ members, ∃ output buffer, member.2 output = .ok buffer := by
  induction members generalizing list with
  | nil => exact fun member hmember => absurd hmember List.not_mem_nil
  | cons head members ih =>
    rw [List.foldl_cons] at hall
    cases hhead : addSequenceToArray (some list) head with
    | none =>
      rw [hhead, foldl_addSequenceToArray_none] at hall
      cases hall
    | some list' =>
      rw [hhead] at hall
      intro member hmember
      cases List.mem_cons.mp hmember with
      | inr hmem => exact ih hall member hmem
      | inl heq =>
        simp only [addSequenceToArray, Option.bind_eq_bind, Option.bind_some] at hhead
        split at hhead
        · cases hhead
        · split at hhead
          case h_1 buffer hok => exact ⟨_, buffer, heq ▸ hok⟩
          case h_2 => cases hhead

theorem ok_of_encodeBodies {codings : List (List UInt8)}
    (hok : codings.foldr encodeBody output = .ok buffer) : ∃ before, output = .ok before := by
  induction codings generalizing buffer with
  | nil => exact ⟨buffer, hok⟩
  | cons coding codings ih =>
    obtain ⟨between, hbetween⟩ := ok_of_encodeBody hok
    exact ih hbetween

theorem ok_of_derEncodeSorted {tag : Tag}
    (hok : derEncodeSorted der tag members output = .ok buffer) :
    (∀ member ∈ members, ∃ output buffer, member.2 output = .ok buffer) ∧
      ∃ before, output = .ok before := by
  rw [derEncodeSorted] at hok
  split at hok
  case h_1 => cases output <;> cases hok
  case h_2 codings hall =>
    obtain ⟨between, hbetween⟩ := ok_of_encodeConstructedTl hok
    exact ⟨ok_of_addSequenceToArray hall, ok_of_encodeBodies hbetween⟩

/-- Sets and dictionaries hold distinct members, and dates are doubles after the year 0. -/
inductive Plist.WellFormed (dates : DateSystem) : Plist → Prop where
  | null : WellFormed dates .null
  | boolean (value : Bool) : WellFormed dates (.boolean value)
  | data (octets : List UInt8) : WellFormed dates (.data octets)
  | date (time : CFAbsoluteTime) (hdouble : IsDouble time)
    (hyear : ∀ components, dates.calendarDecomposeAbsoluteTime time = some components →
      0 ≤ components.year) : WellFormed dates (.date time)
  | string (units : CFString) : WellFormed dates (.string units)
  | number (value : LongLong) : WellFormed dates (.number value)
  | array (elements : List Plist) (helements : ∀ value ∈ elements, WellFormed dates value) :
    WellFormed dates (.array elements)
  | set (elements : List Plist) (helements : ∀ value ∈ elements, WellFormed dates value)
    (hdistinct : elements.Pairwise fun a b => cfEqual a b = false) :
    WellFormed dates (.set elements)
  | dictionary (entries : List (Plist × Plist))
    (hkeys : ∀ entry ∈ entries, WellFormed dates entry.1)
    (hvalues : ∀ entry ∈ entries, WellFormed dates entry.2)
    (hdistinct : entries.Pairwise fun a b => cfEqual a.1 b.1 = false) :
    WellFormed dates (.dictionary entries)

theorem over_of_derEncodePlist {pl : Plist} (hpl : pl.WellFormed dates) :
    ∀ {output : Output} {buffer : Buffer},
      derEncodePlistRepair der dates false pl output = .ok buffer →
        pl.Over dates.Representable ∧ ∃ before, output = .ok before := by
  induction hpl with
  | null =>
    intro output buffer hok
    exact ⟨.null, ok_of_encodeTl hok⟩
  | boolean value =>
    intro output buffer hok
    obtain ⟨between, hbetween⟩ := ok_of_encodeTl hok
    exact ⟨.boolean value, ok_of_encodeBody hbetween⟩
  | data octets =>
    intro output buffer hok
    obtain ⟨between, hbetween⟩ := ok_of_encodeTl hok
    exact ⟨.data octets, ok_of_encodeBody hbetween⟩
  | date time hdouble hyear =>
    intro output buffer hok
    obtain ⟨⟨components, hdecompose, hcentury⟩, hbefore⟩ := ok_of_derEncodeDateRepair hok
    have hnonneg := hyear components hdecompose
    have hdiv := Int.tdiv_eq_ediv_of_nonneg (b := 100) hnonneg
    exact ⟨.date time ⟨hdouble, components, hdecompose, hnonneg, by omega⟩, hbefore⟩
  | string units =>
    intro output buffer hok
    obtain ⟨hunits, hbefore⟩ := ok_of_derEncodeString hok
    exact ⟨.string units hunits, hbefore⟩
  | number value =>
    intro output buffer hok
    obtain ⟨between, hbetween⟩ := ok_of_encodeTl hok
    exact ⟨.number value, ok_of_encodeBody hbetween⟩
  | array elements _ ih =>
    intro output buffer hok
    obtain ⟨between, hbetween⟩ := ok_of_encodeConstructedTl hok
    rw [elementWriters_eq] at hbetween
    obtain ⟨hwritten, hbefore⟩ := ok_of_writers
      (fun value hvalue output buffer hok => (ih value hvalue hok).2) hbetween
    refine ⟨.array elements ?_, hbefore⟩
    intro value hvalue
    obtain ⟨output, buffer, hok⟩ := hwritten value hvalue
    exact (ih value hvalue hok).1
  | set elements _ hdistinct ih =>
    intro output buffer hok
    rw [derEncodePlistRepair, elementSizes_eq, elementWriters_eq, List.zip_map'] at hok
    obtain ⟨hwritten, hbefore⟩ := ok_of_derEncodeSorted hok
    refine ⟨.set elements ?_ hdistinct, hbefore⟩
    intro value hvalue
    obtain ⟨output, buffer, hok⟩ := hwritten _ (List.mem_map_of_mem hvalue)
    exact (ih value hvalue hok).1
  | dictionary entries _ _ hdistinct ihkeys ihvalues =>
    intro output buffer hok
    rw [derEncodePlistRepair, entrySizes_eq, entryWriters_eq, List.zip_map',
      derEncodeDictionaryRepair, List.map_map] at hok
    obtain ⟨hwritten, hbefore⟩ := ok_of_derEncodeSorted hok
    have hentries : ∀ entry ∈ entries,
        entry.1.Over dates.Representable ∧ entry.2.Over dates.Representable := by
      intro entry hentry
      obtain ⟨output, buffer, hok⟩ := hwritten _ (List.mem_map_of_mem hentry)
      obtain ⟨between, hkey⟩ := ok_of_encodeConstructedTl hok
      obtain ⟨hkeyOver, between, hvalue⟩ := ihkeys entry hentry hkey
      exact ⟨hkeyOver, (ihvalues entry hentry hvalue).1⟩
    exact ⟨.dictionary entries (fun entry hentry => (hentries entry hentry).1)
      (fun entry hentry => (hentries entry hentry).2) hdistinct, hbefore⟩

theorem addValueSize_comm (context : Option Nat) (size size' : Nat) :
    addValueSize (addValueSize context size) size' =
      addValueSize (addValueSize context size') size := by
  cases context with
  | none => rfl
  | some total =>
    by_cases hsize : size = 0 <;> by_cases hsize' : size' = 0 <;>
      simp [addValueSize, hsize, hsize', Nat.add_right_comm]

theorem foldl_addValueSize_perm {sizes sizes' : List Nat} (hperm : sizes.Perm sizes') :
    sizes.foldl addValueSize (some 0) = sizes'.foldl addValueSize (some 0) :=
  hperm.foldl_eq' (fun size _ size' _ context => addValueSize_comm context size size') _

def memberCoding (member : Nat × Writer) : Option (List UInt8) :=
  if member.1 = 0 then none
  else
    match member.2 (.ok ⟨member.1, []⟩) with
    | .ok buffer => some buffer.written
    | .error _ => none

theorem addSequenceToArray_some (list : List (List UInt8)) (member : Nat × Writer) :
    addSequenceToArray (some list) member =
      (memberCoding member).map fun coding => list ++ [coding] := by
  simp only [addSequenceToArray, memberCoding, Option.bind_eq_bind, Option.bind_some]
  split
  · rfl
  · cases member.2 (.ok ⟨member.1, []⟩) <;> rfl

theorem foldl_addSequenceToArray_eq (members : List (Nat × Writer)) (list : List (List UInt8)) :
    members.foldl addSequenceToArray (some list) =
      if members.all fun member => (memberCoding member).isSome then
        some (list ++ members.filterMap memberCoding)
      else none := by
  induction members generalizing list with
  | nil => simp
  | cons member members ih =>
    rw [List.foldl_cons, addSequenceToArray_some]
    cases hmember : memberCoding member with
    | none => simp [hmember, foldl_addSequenceToArray_none]
    | some coding => simp only [Option.map_some, ih, List.all_cons, hmember, Option.isSome_some,
        Bool.true_and, List.filterMap_cons, List.append_assoc, List.cons_append, List.nil_append]

/-- Members in any order are written alike. -/
theorem derEncodeSorted_perm (der : Primitives) (tag : Tag) {members' : List (Nat × Writer)}
    (hperm : members.Perm members') :
    derEncodeSorted der tag members = derEncodeSorted der tag members' := by
  have hall : (members.all fun member => (memberCoding member).isSome) =
      members'.all fun member => (memberCoding member).isSome := hperm.all_eq
  have hsorted := mergeSort_eq_of_perm (hperm.filterMap memberCoding)
  funext buffer
  rw [derEncodeSorted, derEncodeSorted, foldl_addSequenceToArray_eq, foldl_addSequenceToArray_eq,
    hall]
  cases members'.all fun member => (memberCoding member).isSome with
  | false => rfl
  | true => simp only [if_true, List.nil_append, hsorted]

section
variable (der : Primitives) (dates : DateSystem)

theorem CFPropertyListCreateDERData_set_perm {elements elements' : List Plist}
    (hperm : elements.Perm elements') :
    CFPropertyListCreateDERData der dates (.set elements) =
      CFPropertyListCreateDERData der dates (.set elements') := by
  have hsize : derSizeofPlist der dates (.set elements) =
      derSizeofPlist der dates (.set elements') := by
    rw [derSizeofPlist, derSizeofPlist, derSizeofSet, derSizeofSet, elementSizes_eq,
      elementSizes_eq, foldl_addValueSize_perm (hperm.map _)]
  have hwriter : derEncodePlist der dates (.set elements) =
      derEncodePlist der dates (.set elements') := by
    funext buffer
    rw [derEncodePlist, derEncodePlist, derEncodePlistRepair, derEncodePlistRepair,
      elementSizes_eq, elementSizes_eq, elementWriters_eq, elementWriters_eq, List.zip_map',
      List.zip_map', derEncodeSetRepair, derEncodeSetRepair, derEncodeSorted_perm _ _ (hperm.map _)]
  rw [CFPropertyListCreateDERData, CFPropertyListCreateDERData, hsize, hwriter]

theorem CFPropertyListCreateDERData_dictionary_perm {entries entries' : List (Plist × Plist)}
    (hperm : entries.Perm entries') :
    CFPropertyListCreateDERData der dates (.dictionary entries) =
      CFPropertyListCreateDERData der dates (.dictionary entries') := by
  have hsize : derSizeofPlist der dates (.dictionary entries) =
      derSizeofPlist der dates (.dictionary entries') := by
    rw [derSizeofPlist, derSizeofPlist, derSizeofDictionary, derSizeofDictionary, entrySizes_eq,
      entrySizes_eq, foldl_addValueSize_perm ((hperm.map _).map _)]
  have hwriter : derEncodePlist der dates (.dictionary entries) =
      derEncodePlist der dates (.dictionary entries') := by
    funext buffer
    rw [derEncodePlist, derEncodePlist, derEncodePlistRepair, derEncodePlistRepair,
      entrySizes_eq, entrySizes_eq, entryWriters_eq, entryWriters_eq, List.zip_map',
      List.zip_map', derEncodeDictionaryRepair, derEncodeDictionaryRepair,
      derEncodeSorted_perm _ _ ((hperm.map _).map _)]
  rw [CFPropertyListCreateDERData, CFPropertyListCreateDERData, hsize, hwriter]
end

section
variable {der : Primitives} (hder : der.Correct) {dates : DateSystem} (hdates : dates.Correct)
  (hfractions : dates.FractionsCorrect)
include hder hdates hfractions

theorem CFPropertyListCreateDERData_some {pl : Plist} (hpl : pl.WellFormed dates)
    {octets : List UInt8} (hoctets : CFPropertyListCreateDERData der dates pl = some octets) :
    pl.Over dates.Representable ∧ octets = plistCoding der dates pl := by
  rw [CFPropertyListCreateDERData] at hoctets
  split at hoctets
  case h_2 => cases hoctets
  case h_1 buffer hok =>
    obtain ⟨hover, -⟩ := over_of_derEncodePlist hpl hok
    have hwritable := fun time => @writable_of_representable dates hdates hfractions time
    have hfills := (writes_derEncodePlistRepair hder hwritable hover false).fills
    rw [← derSizeofPlist_eq hder hwritable hover] at hfills
    rw [derEncodePlist, hfills] at hok
    obtain rfl := Except.ok.inj hok
    simp only [if_true, Option.some.injEq] at hoctets
    exact ⟨hover, hoctets.symm⟩

theorem CFPropertyListCreateDERData_eq {pl : Plist} (hpl : pl.Over dates.Representable) :
    CFPropertyListCreateDERData der dates pl = some (plistCoding der dates pl) := by
  have hwritable := fun time => @writable_of_representable dates hdates hfractions time
  have hfills := (writes_derEncodePlistRepair hder hwritable hpl false).fills
  rw [CFPropertyListCreateDERData, derSizeofPlist_eq hder hwritable hpl, derEncodePlist, hfills]
  rfl
end

theorem two_ne_zero_nat : 2 ≠ 0 := by decide

def sampleTime : CFAbsoluteTime := ⟨1, 2, two_ne_zero_nat, by decide⟩

def sampleEntries : List (Plist × Plist) :=
  [(.string [0x61], .date sampleTime), (.string [0x62], .set [.number 128, .boolean true])]

theorem sampleTime_components :
    firstMonthDoubles.calendarDecomposeAbsoluteTime sampleTime = some ⟨2001, 1, 1, 0, 0, 0⟩ := by
  rfl

theorem sampleEntries_over (entries : List (Plist × Plist)) (hmem : ∀ e ∈ entries, e ∈ sampleEntries)
    (hdistinct : entries.Pairwise fun a b => cfEqual a.1 b.1 = false) :
    (Plist.dictionary entries).Over firstMonthDoubles.Representable := by
  have hsample : ∀ entry ∈ sampleEntries, entry.1.Over firstMonthDoubles.Representable ∧
      entry.2.Over firstMonthDoubles.Representable := by
    simp only [sampleEntries, List.forall_mem_cons, List.not_mem_nil, false_implies, implies_true,
      and_true]
    refine ⟨⟨.string _ ⟨['a'], by decide⟩, .date _ ⟨⟨1, rfl⟩, _, sampleTime_components, by decide,
      by decide⟩⟩, .string _ ⟨['b'], by decide⟩, .set _ ?_ (by decide)⟩
    simp only [List.forall_mem_cons, List.not_mem_nil, false_implies, implies_true, and_true]
    exact ⟨.number 128, .boolean true⟩
  exact .dictionary entries (fun entry hentry => (hsample entry (hmem entry hentry)).1)
    (fun entry hentry => (hsample entry (hmem entry hentry)).2) hdistinct

theorem Plist.Over.wellFormed {pl : Plist} (hpl : pl.Over dates.Representable) :
    pl.WellFormed dates := by
  induction hpl with
  | null => exact .null
  | boolean value => exact .boolean value
  | data octets => exact .data octets
  | date time htime =>
    obtain ⟨hdouble, components, hdecompose, hyear, -⟩ := htime
    refine .date time hdouble ?_
    intro other hother
    rw [hdecompose] at hother
    rwa [← Option.some.inj hother]
  | string units hunits => exact .string units
  | number value => exact .number value
  | array elements _ ih => exact .array elements ih
  | set elements _ hdistinct ih => exact .set elements ih hdistinct
  | dictionary entries _ _ hdistinct ihkeys ihvalues =>
    exact .dictionary entries ihkeys ihvalues hdistinct

end SecurityFramework
