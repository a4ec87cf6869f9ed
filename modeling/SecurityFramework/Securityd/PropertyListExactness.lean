import Mathlib.Data.List.TakeWhile
import SecurityFramework.Securityd.ItemPropertyList

/-!
# Property lists that lose nothing

Each of the three walks over the attributes of a class ends in front of the first attribute that
SOS cannot sync, so the order of the attributes decides what a list has; and of the walks that meet
an attribute that cannot be read only one is looked at.
-/

namespace SecurityFramework.PropertyList
variable {value value' : CFType}

theorem copyString_copyString (h : copyString value = some value') :
    copyString value' = some value' ∧ value' ≠ .null := by
  cases value with
  | string s =>
    cases h
    exact ⟨rfl, CFType.noConfusion⟩
  | data octets =>
    obtain ⟨s, -, rfl⟩ := Option.map_eq_some_iff.mp h
    exact ⟨rfl, CFType.noConfusion⟩
  | null => cases h
  | boolean b => cases h
  | number n => cases h

theorem copyBlob_copyBlob (h : copyBlob value = some value') :
    copyBlob value' = some value' ∧ value' ≠ .null := by
  cases value <;> cases h <;> exact ⟨rfl, CFType.noConfusion⟩

theorem copyNumber_copyNumber (h : copyNumber value = some value') :
    copyNumber value' = some value' ∧ value' ≠ .null := by
  cases value with
  | string s =>
    have hkept : value' = .number (cfStringGetIntValue s) ∨
        value' = .string s ∧ cfstr (toString (cfStringGetIntValue s)) ≠ s := by
      have hvalue := Option.some.inj h
      split at hvalue
      case isTrue => exact .inl hvalue.symm
      case isFalse hne => exact .inr ⟨hvalue.symm, hne⟩
    rcases hkept with rfl | ⟨rfl, hne⟩
    · exact ⟨rfl, CFType.noConfusion⟩
    · exact ⟨congrArg some (if_neg hne), CFType.noConfusion⟩
  | number n | boolean b =>
    cases h
    exact ⟨rfl, CFType.noConfusion⟩
  | null => cases h
  | data octets => cases h

theorem copyUUID_copyUUID (h : copyUUID value = some value') :
    copyUUID value' = some value' ∧ value' ≠ .null := by
  cases value with
  | data octets =>
    have h' := h
    rw [copyUUID] at h'
    split at h'
    · cases h'
    · cases h'
      exact ⟨h, CFType.noConfusion⟩
  | null =>
    cases h
    exact ⟨rfl, CFType.noConfusion⟩
  | boolean b => cases h
  | number n => cases h
  | string s => cases h

/-- What an attribute was set to is not null, and is converted to itself. -/
theorem SecDbAttrKind.convert_convert {kind : SecDbAttrKind} {value value' : CFObject}
    (h : kind.convert value = some value') :
    kind.convert value' = some value' ∧ value' ≠ .null := by
  have hplain : ∀ {copy : CFType → Option CFType} {v : CFType},
      (∀ {a b : CFType}, copy a = some b → copy b = some b ∧ b ≠ .null) →
      (copy v).map CFObject.plain = some value' →
      ∃ b, value' = .plain b ∧ (copy b).map CFObject.plain = some value' ∧ b ≠ .null := by
    intro copy v hcopy hmap
    obtain ⟨b, hb, rfl⟩ := Option.map_eq_some_iff.mp hmap
    obtain ⟨hagain, hne⟩ := hcopy hb
    exact ⟨b, rfl, by rw [hagain, Option.map_some], hne⟩
  cases value with
  | plain v =>
    cases kind
    case primaryKey | data | encryptedData =>
      obtain ⟨octets, -, rfl⟩ := Option.map_eq_some_iff.mp h
      exact ⟨rfl, by simp [CFObject.null]⟩
    case blob | accessControl =>
      obtain ⟨b, rfl, hagain, hne⟩ := hplain copyBlob_copyBlob h
      exact ⟨hagain, by simpa [CFObject.null] using hne⟩
    case number | sync | tomb | rowId =>
      obtain ⟨b, rfl, hagain, hne⟩ := hplain copyNumber_copyNumber h
      exact ⟨hagain, by simpa [CFObject.null] using hne⟩
    case access | string =>
      obtain ⟨b, rfl, hagain, hne⟩ := hplain copyString_copyString h
      exact ⟨hagain, by simpa [CFObject.null] using hne⟩
    case uuid =>
      obtain ⟨b, rfl, hagain, hne⟩ := hplain copyUUID_copyUUID h
      exact ⟨hagain, by simpa [CFObject.null] using hne⟩
    case sha1 =>
      cases v
      case data octets =>
        have h' : (if octets.length = 20 then some (CFObject.plain (.data octets)) else none) =
          some value' := h
        split at h'
        · cases h'
          exact ⟨h, by simp [CFObject.null]⟩
        · cases h'
      all_goals cases h
    case utomb =>
      cases v
      case boolean b =>
        cases h
        exact ⟨rfl, by simp [CFObject.null]⟩
      all_goals cases h
    all_goals cases h
  | date time =>
    cases kind <;> cases h <;> exact ⟨rfl, by simp [CFObject.null]⟩
  | uuid octets =>
    cases kind
    case access | string =>
      cases h
      exact ⟨rfl, by simp [CFObject.null]⟩
    case uuid =>
      cases h
      refine ⟨?_, by simp [CFObject.null]⟩
      simp [convert, copyUUID, octets.2]
    all_goals cases h

namespace SecDbItem
variable {item : SecDbItem} {now : ℚ}

def WellKept (item : SecDbItem) : Prop :=
  ∀ attr ∈ item.cls.attrs, ∀ value, item.attributes attr.name = some value →
    attr.kind.convert value = some value

theorem wellKept_of_all (h : ∀ attr ∈ item.cls.attrs, (item.attributes attr.name).all fun value =>
    attr.kind.convert value = some value) : item.WellKept := by
  intro attr hattr value hvalue
  have hall := h attr hattr
  rw [hvalue] at hall
  exact of_decide_eq_true hall

/-- An attribute can be read, and is not null where it must not be. -/
def Readable (item : SecDbItem) (now : ℚ) (attr : SecDbAttr) : Prop :=
  ∃ value, item.SecDbItemGetValue now attr = some value ∧
    (value = .null → .notNull ∉ attr.flags)

instance (attr : SecDbAttr) : Decidable (item.Readable now attr) :=
  decidable_of_iff (((item.SecDbItemGetValue now attr).any fun value =>
    value = .null → .notNull ∉ attr.flags) = true) (by
      rw [Option.any_eq_true]
      simp only [decide_eq_true_eq]
      rfl)

def entry (item : SecDbItem) (now : ℚ) (attr : SecDbAttr) : Option CFObject :=
  (item.SecDbItemGetValue now attr).filter fun value => value ≠ .null

variable {attr : SecDbAttr} {attrs : List SecDbAttr} {flagsToSkip : List SecDbFlag}
  {mask : SecDbFlag}

theorem getValue_eq_null (hkept : item.WellKept) (hattr : attr ∈ item.cls.attrs)
    (h : item.SecDbItemGetValue now attr = some .null) :
    item.attributes attr.name = none ∧ SecDbItemCopyValue now attr = some .null := by
  rw [SecDbItemGetValue] at h
  split at h
  · cases h
  · cases hset : item.attributes attr.name with
    | some value =>
      rw [hset] at h
      cases h
      exact absurd rfl (SecDbAttrKind.convert_convert (hkept attr hattr _ hset)).2
    | none =>
      rw [hset] at h
      cases hcopy : SecDbItemCopyValue now attr with
      | none =>
        rw [hcopy] at h
        cases h
      | some value =>
        rw [hcopy] at h
        dsimp only at h
        split_ifs at h with hnull
        · rw [hnull]
          exact ⟨rfl, rfl⟩
        · exact absurd rfl (SecDbAttrKind.convert_convert h).2

theorem convert_entry (hkept : item.WellKept) (hattr : attr ∈ item.cls.attrs) {value : CFObject}
    (h : item.entry now attr = some value) :
    attr.kind.convert value = some value := by
  obtain ⟨hvalue, hne⟩ := Option.filter_eq_some_iff.mp h
  rw [SecDbItemGetValue] at hvalue
  split at hvalue
  · cases hvalue
  · cases hset : item.attributes attr.name with
    | some value' =>
      rw [hset] at hvalue
      cases hvalue
      exact hkept attr hattr _ hset
    | none =>
      rw [hset] at hvalue
      cases hcopy : SecDbItemCopyValue now attr with
      | none =>
        rw [hcopy] at hvalue
        cases hvalue
      | some value' =>
        rw [hcopy] at hvalue
        dsimp only at hvalue
        split_ifs at hvalue
        · cases hvalue
          exact absurd hne (by decide)
        · exact (SecDbAttrKind.convert_convert hvalue).1

def ahead (mask : SecDbFlag) (flagsToSkip : List SecDbFlag) (attrs : List SecDbAttr) :
    List SecDbAttr :=
  (attrs.filter fun attr => mask ∈ attr.flags).takeWhile fun attr =>
    ¬∃ flag ∈ flagsToSkip, flag ∈ attr.flags

def withEntries (item : SecDbItem) (now : ℚ) (dict : CFDictionary) (attrs : List SecDbAttr) :
    CFDictionary :=
  attrs.foldl
    (fun dict attr =>
      match item.entry now attr with
      | none => dict
      | some value => Function.update dict attr.name (some value))
    dict

theorem withEntries_of_notMem {dict : CFDictionary} {name : String}
    (hname : ∀ attr ∈ attrs, attr.name ≠ name) :
    item.withEntries now dict attrs name = dict name := by
  induction attrs generalizing dict with
  | nil => rfl
  | cons attr attrs ih =>
    rw [List.forall_mem_cons] at hname
    rw [withEntries, List.foldl_cons, ← withEntries, ih hname.2]
    cases item.entry now attr with
    | none => rfl
    | some value => exact Function.update_of_ne hname.1.symm _ _

theorem withEntries_of_mem {dict : CFDictionary} (hdistinct : (attrs.map SecDbAttr.name).Nodup)
    (hattr : attr ∈ attrs) :
    item.withEntries now dict attrs attr.name = (item.entry now attr).or (dict attr.name) := by
  induction attrs generalizing dict with
  | nil => cases hattr
  | cons first attrs ih =>
    rw [List.map_cons, List.nodup_cons] at hdistinct
    rw [withEntries, List.foldl_cons, ← withEntries]
    rcases List.mem_cons.mp hattr with rfl | hattr
    · have hother : ∀ attr' ∈ attrs, attr'.name ≠ attr.name := by
        intro attr' hattr' heq
        rw [← heq] at hdistinct
        exact hdistinct.1 (List.mem_map_of_mem hattr')
      rw [withEntries_of_notMem hother]
      cases item.entry now attr with
      | none => rfl
      | some value => exact Function.update_self _ _ _
    · rw [ih hdistinct.2 hattr]
      have hne : attr.name ≠ first.name := fun heq =>
        hdistinct.1 (heq ▸ List.mem_map_of_mem hattr)
      cases item.entry now first with
      | none => rfl
      | some value =>
        dsimp only
        rw [Function.update_of_ne hne]

/-- A walk has what the attributes have that it comes to, where it can read them all. -/
theorem walk_of_readable (dict : CFDictionary)
    (hread : ∀ attr ∈ ahead mask flagsToSkip attrs, item.Readable now attr) :
    item.SecDbItemCopyPListWithFlagAndSkip now mask flagsToSkip attrs dict =
      .ok (item.withEntries now dict (ahead mask flagsToSkip attrs)) := by
  induction attrs generalizing dict with
  | nil => rfl
  | cons desc attrs ih =>
    rw [SecDbItemCopyPListWithFlagAndSkip]
    rw [ahead, List.filter_cons] at hread ⊢
    by_cases hmask : mask ∈ desc.flags
    · rw [if_neg (not_not.mpr hmask)]
      rw [if_pos (decide_eq_true hmask), List.takeWhile_cons] at hread ⊢
      by_cases hskip : ∃ flag ∈ flagsToSkip, flag ∈ desc.flags
      · rw [if_pos hskip, if_neg (by simpa using hskip)]
        rfl
      · rw [if_neg hskip]
        rw [if_pos (decide_eq_true hskip)] at hread ⊢
        rw [List.forall_mem_cons] at hread
        obtain ⟨⟨value, hvalue, hnull⟩, hread⟩ := hread
        rw [hvalue]
        dsimp only
        have hentry : item.entry now desc = if value = .null then none else some value := by
          rw [entry, hvalue, Option.filter_some]
          by_cases hne : value = .null
          · simp [hne]
          · simp [hne]
        rw [withEntries, List.foldl_cons, hentry]
        by_cases hne : value = .null
        · rw [if_neg (not_not.mpr hne), if_neg (hnull hne), if_pos hne]
          exact ih dict hread
        · rw [if_pos hne, if_neg hne]
          exact ih _ hread
    · rw [if_pos hmask]
      rw [if_neg (by simpa using hmask)] at hread ⊢
      exact ih dict hread

theorem walk_of_not_readable (dict : CFDictionary)
    (hread : ∃ attr ∈ ahead mask flagsToSkip attrs, ¬item.Readable now attr) :
    ∃ error, item.SecDbItemCopyPListWithFlagAndSkip now mask flagsToSkip attrs dict =
      .error error := by
  induction attrs generalizing dict with
  | nil =>
    obtain ⟨attr, hattr, -⟩ := hread
    cases hattr
  | cons desc attrs ih =>
    rw [SecDbItemCopyPListWithFlagAndSkip]
    rw [ahead, List.filter_cons] at hread
    by_cases hmask : mask ∈ desc.flags
    · rw [if_neg (not_not.mpr hmask)]
      rw [if_pos (decide_eq_true hmask), List.takeWhile_cons] at hread
      by_cases hskip : ∃ flag ∈ flagsToSkip, flag ∈ desc.flags
      · rw [if_neg (by simpa using hskip)] at hread
        obtain ⟨attr, hattr, -⟩ := hread
        cases hattr
      · rw [if_neg hskip]
        rw [if_pos (decide_eq_true hskip)] at hread
        cases hvalue : item.SecDbItemGetValue now desc with
        | none => exact ⟨_, rfl⟩
        | some value =>
          dsimp only
          have hrest (hgood : value = .null → .notNull ∉ desc.flags) :
              ∃ attr ∈ ahead mask flagsToSkip attrs, ¬item.Readable now attr := by
            obtain ⟨attr, hattr, hnot⟩ := hread
            rcases List.mem_cons.mp hattr with rfl | hattr
            · exact absurd ⟨value, hvalue, hgood⟩ hnot
            · exact ⟨attr, hattr, hnot⟩
          split_ifs with hne hnull
          · exact ih _ (hrest fun heq => absurd heq hne)
          · exact ⟨_, rfl⟩
          · exact ih dict (hrest fun _ => hnull)
    · rw [if_pos hmask]
      rw [if_neg (by simpa using hmask)] at hread
      exact ih dict hread

theorem walk_congr {item' : SecDbItem} (dict : CFDictionary)
    (hsame : ∀ attr ∈ attrs, mask ∈ attr.flags →
      item'.SecDbItemGetValue now attr = item.SecDbItemGetValue now attr) :
    item'.SecDbItemCopyPListWithFlagAndSkip now mask flagsToSkip attrs dict =
      item.SecDbItemCopyPListWithFlagAndSkip now mask flagsToSkip attrs dict := by
  induction attrs generalizing dict with
  | nil => rfl
  | cons desc attrs ih =>
    rw [List.forall_mem_cons] at hsame
    rw [SecDbItemCopyPListWithFlagAndSkip, SecDbItemCopyPListWithFlagAndSkip]
    split
    case isTrue => exact ih dict hsame.2
    case isFalse hmask =>
      rw [hsame.1 (not_not.mp hmask)]
      split
      · rfl
      · cases item.SecDbItemGetValue now desc with
        | none => rfl
        | some value =>
          dsimp only
          rw [ih _ hsame.2, ih _ hsame.2]

def Visited (cls : SecDbClass) (attr : SecDbAttr) : Prop :=
  ∃ mask ∈ [SecDbFlag.returnData, .inCryptoData, .inAuthenticatedData],
    attr ∈ ahead mask [.syncSOSCannotSync] cls.attrs

instance (cls : SecDbClass) (attr : SecDbAttr) : Decidable (Visited cls attr) :=
  inferInstanceAs (Decidable (∃ mask ∈ _, _))

theorem mem_of_mem_ahead (h : attr ∈ ahead mask flagsToSkip attrs) :
    attr ∈ attrs ∧ mask ∈ attr.flags ∧ ¬∃ flag ∈ flagsToSkip, flag ∈ attr.flags := by
  have hfilter := List.mem_filter.mp ((List.takeWhile_sublist _).subset h)
  have hskip := List.mem_takeWhile_imp h
  exact ⟨hfilter.1, of_decide_eq_true hfilter.2, of_decide_eq_true hskip⟩

theorem wanted_of_visited {cls : SecDbClass} (h : Visited cls attr) :
    attr ∈ cls.attrs ∧ attr.Wanted := by
  obtain ⟨mask, hmask, h⟩ := h
  obtain ⟨hattr, hflag, hskip⟩ := mem_of_mem_ahead h
  refine ⟨hattr, ?_, fun hsync => hskip ⟨_, List.mem_singleton_self _, hsync⟩⟩
  rw [SecDbAttr.Listed]
  simp only [List.mem_cons, List.not_mem_nil, or_false] at hmask
  rcases hmask with rfl | rfl | rfl
  · exact .inl hflag
  · exact .inr (.inl hflag)
  · exact .inr (.inr hflag)

theorem name_injective {cls : SecDbClass} {attr' : SecDbAttr} (hattr : attr ∈ cls.attrs)
    (hattr' : attr' ∈ cls.attrs) (hname : attr.name = attr'.name) : attr = attr' :=
  List.inj_on_of_nodup_map cls.distinct hattr hattr' hname

theorem setEach_ok (dict dict' : CFDictionary) (key : String) :
    setEach dict (.ok dict') key = (dict' key).or (dict key) := rfl

def walked (item : SecDbItem) (now : ℚ) (mask : SecDbFlag) : CFDictionary :=
  item.withEntries now (fun _ => none) (ahead mask [.syncSOSCannotSync] item.cls.attrs)

theorem walked_of_mem (hmem : attr ∈ ahead mask [.syncSOSCannotSync] item.cls.attrs) :
    item.walked now mask attr.name = item.entry now attr := by
  rw [walked, withEntries_of_mem _ hmem, Option.or_none]
  exact item.cls.distinct.sublist (((List.takeWhile_sublist _).trans List.filter_sublist).map _)

theorem walked_of_notMem (hattr : attr ∈ item.cls.attrs)
    (hmem : attr ∉ ahead mask [.syncSOSCannotSync] item.cls.attrs) :
    item.walked now mask attr.name = none := by
  apply withEntries_of_notMem
  intro attr' hattr' heq
  rw [name_injective (mem_of_mem_ahead hattr').1 hattr heq] at hattr'
  exact hmem hattr'

/-- A walk has for an attribute of the class what the item has, or nothing. -/
theorem walked_eq_or (hattr : attr ∈ item.cls.attrs) :
    item.walked now mask attr.name = item.entry now attr ∨
      item.walked now mask attr.name = none := by
  by_cases hmem : attr ∈ ahead mask [.syncSOSCannotSync] item.cls.attrs
  · exact .inl (walked_of_mem hmem)
  · exact .inr (walked_of_notMem hattr hmem)

theorem or_or_eq {a b c entry : Option CFObject} (ha : a = entry ∨ a = none)
    (hb : b = entry ∨ b = none) (hc : c = entry ∨ c = none) (h : a = entry ∨ b = entry ∨ c = entry) :
    a.or (b.or c) = entry := by
  cases entry with
  | none =>
    rw [or_self] at ha hb hc
    rw [ha, hb, hc]
    rfl
  | some value =>
    rcases ha with rfl | rfl <;> rcases hb with rfl | rfl <;> rcases hc with rfl | rfl <;>
      first | rfl | simp at h

theorem objectCopyPropertyList_of_readable
    (hread : ∀ attr ∈ item.cls.attrs, attr.Wanted → item.Readable now attr) :
    ∃ plist, item.objectCopyPropertyList now = .ok plist ∧
      plist kSecClass = some (.plain (.string item.cls.name)) ∧
      (∀ attr, Visited item.cls attr → plist attr.name = item.entry now attr) ∧
      ∀ attr ∈ item.cls.attrs, ¬Visited item.cls attr → plist attr.name = none := by
  have hwalk : ∀ mask ∈ [SecDbFlag.returnData, .inCryptoData, .inAuthenticatedData],
      item.copyPList now mask [.syncSOSCannotSync] = .ok (item.walked now mask) := by
    intro mask hmask
    apply walk_of_readable
    intro attr hattr
    obtain ⟨hattr', hwanted⟩ := wanted_of_visited ⟨mask, hmask, hattr⟩
    exact hread attr hattr' hwanted
  have hnone : ∀ mask, item.walked now mask kSecClass = none := by
    intro mask
    apply withEntries_of_notMem
    intro attr hattr
    exact item.cls.unnamed attr (mem_of_mem_ahead hattr).1
  have hclass : setEach (setEach (item.walked now .inCryptoData)
      (.ok (item.walked now .inAuthenticatedData))) (.ok (item.walked now .returnData)) kSecClass =
        none := by
    rw [setEach_ok, setEach_ok, hnone, hnone, hnone]
    rfl
  rw [objectCopyPropertyList]
  dsimp only
  rw [hwalk _ (by decide), hwalk _ (by decide), hwalk _ (by decide)]
  refine ⟨_, congrArg Except.ok (if_neg (by rw [hclass]; decide)), Function.update_self _ _ _,
    ?_, ?_⟩
  · intro attr hvisited
    have hattr := (wanted_of_visited hvisited).1
    rw [Function.update_of_ne (item.cls.unnamed attr hattr), setEach_ok, setEach_ok]
    obtain ⟨mask, hmask, hmem⟩ := hvisited
    -- whichever walk it is, the others have the same or nothing
    refine or_or_eq (walked_eq_or hattr) (walked_eq_or hattr) (walked_eq_or hattr) ?_
    simp only [List.mem_cons, List.not_mem_nil, or_false] at hmask
    rcases hmask with rfl | rfl | rfl
    · exact .inl (walked_of_mem hmem)
    · exact .inr (.inr (walked_of_mem hmem))
    · exact .inr (.inl (walked_of_mem hmem))
  · intro attr hattr hvisited
    have hnot : ∀ mask ∈ [SecDbFlag.returnData, .inCryptoData, .inAuthenticatedData],
        item.walked now mask attr.name = none := fun mask hmask =>
      walked_of_notMem hattr fun hmem => hvisited ⟨mask, hmask, hmem⟩
    rw [Function.update_of_ne (item.cls.unnamed attr hattr), setEach_ok, setEach_ok,
      hnot _ (by decide), hnot _ (by decide), hnot _ (by decide)]
    rfl

/-- A list is refused only by the walk over the encrypted attributes. -/
theorem objectCopyPropertyList_error_iff :
    (∃ error, item.objectCopyPropertyList now = .error error) ↔
      ∃ attr ∈ ahead .inCryptoData [.syncSOSCannotSync] item.cls.attrs, ¬item.Readable now attr := by
  rw [objectCopyPropertyList]
  dsimp only
  constructor
  · rintro ⟨error, h⟩
    by_contra hread
    push Not at hread
    have hcrypto : item.copyPList now .inCryptoData [.syncSOSCannotSync] = .ok _ :=
      walk_of_readable _ hread
    rw [hcrypto] at h
    cases h
  · intro hread
    obtain ⟨error, herror⟩ := walk_of_not_readable (fun _ => none) hread
    have hcrypto : item.copyPList now .inCryptoData [.syncSOSCannotSync] = .error error := herror
    exact ⟨error, by rw [hcrypto]; rfl⟩

structure SameListed (item item' : SecDbItem) : Prop where
  cls : item'.cls = item.cls
  metadata : item'.metadata = item.metadata
  secretData : item'.secretData = item.secretData
  attributes : ∀ attr ∈ item.cls.attrs, attr.Listed →
    item'.attributes attr.name = item.attributes attr.name

theorem SameListed.trans {item' item'' : SecDbItem} (h : item.SameListed item')
    (h' : item'.SameListed item'') : item.SameListed item'' where
  cls := h'.cls.trans h.cls
  metadata := h'.metadata.trans h.metadata
  secretData := h'.secretData.trans h.secretData
  attributes attr hattr hlisted :=
    (h'.attributes attr (h.cls.symm ▸ hattr) hlisted).trans (h.attributes attr hattr hlisted)

theorem sameListed_forget (item : SecDbItem) (p : Prop) [Decidable p] {kind : SecDbAttrKind}
    (hkind : kind = .sha1 ∨ kind = .primaryKey) :
    item.SameListed (if p then item.forget kind else item) := by
  split
  case isFalse => exact ⟨rfl, rfl, rfl, fun _ _ _ => rfl⟩
  case isTrue =>
    rw [forget]
    cases hlast : item.cls.attrWithKind kind with
    | none => exact ⟨rfl, rfl, rfl, fun _ _ _ => rfl⟩
    | some computed =>
      have hmem := List.mem_filter.mp (List.mem_of_getLast? hlast)
      have hkind' : computed.kind = kind := of_decide_eq_true hmem.2
      refine ⟨rfl, rfl, rfl, fun attr hattr hlisted => ?_⟩
      apply Function.update_of_ne
      intro heq
      rw [name_injective hattr hmem.1 heq] at hlisted
      rw [← hkind'] at hkind
      exact item.cls.computed computed hmem.1 hkind hlisted

theorem setValue_of_converted {value : CFObject} (hmetadata : item.metadata = true)
    (hsecret : item.secretData = true) (hconvert : attr.kind.convert value = some value) :
    ∃ item', item.SecDbItemSetValue attr value = .ok item' ∧
      (item.put attr.name (some value)).SameListed item' := by
  have hplain : item.SecDbItemEnsureDecrypted true = true := by
    rw [SecDbItemEnsureDecrypted, hmetadata, hsecret]
    rfl
  rw [SecDbItemSetValue, if_neg (fun h => h.2 hplain)]
  dsimp only
  rw [hconvert, if_neg (fun h => nomatch h.1)]
  exact ⟨_, rfl, (sameListed_forget _ _ (.inl rfl)).trans (sameListed_forget _ _ (.inr rfl))⟩

theorem setValues_of_converted {values : CFDictionary} {attrs : List SecDbAttr}
    (hdistinct : (attrs.map SecDbAttr.name).Nodup) (hmetadata : item.metadata = true)
    (hsecret : item.secretData = true)
    (hconvert : ∀ attr ∈ attrs, ∀ value, values attr.name = some value →
      attr.kind.convert value = some value) :
    ∃ item', SecDbItemSetValues values attrs item = .ok item' ∧ item'.cls = item.cls ∧
      item'.metadata = true ∧ item'.secretData = true ∧
      ∀ attr' ∈ item.cls.attrs, attr'.Listed → item'.attributes attr'.name =
        if attr'.name ∈ attrs.map SecDbAttr.name then
          (values attr'.name).or (item.attributes attr'.name)
        else item.attributes attr'.name := by
  induction attrs generalizing item with
  | nil => exact ⟨item, rfl, rfl, hmetadata, hsecret, fun _ _ _ => rfl⟩
  | cons attr attrs ih =>
    rw [List.map_cons, List.nodup_cons] at hdistinct
    rw [List.forall_mem_cons] at hconvert
    rw [SecDbItemSetValues]
    cases hvalue : values attr.name with
    | none =>
      obtain ⟨item', hset, hcls, hmetadata', hsecret', hsame⟩ :=
        ih hdistinct.2 hmetadata hsecret hconvert.2
      refine ⟨item', hset, hcls, hmetadata', hsecret', ?_⟩
      intro attr' hattr' hlisted
      rw [hsame attr' hattr' hlisted, List.map_cons]
      by_cases heq : attr'.name = attr.name
      · rw [heq, if_neg hdistinct.1, if_pos List.mem_cons_self, hvalue, Option.none_or]
      · simp only [List.mem_cons, heq, false_or]
    | some value =>
      obtain ⟨item', hset, hput⟩ :=
        setValue_of_converted hmetadata hsecret (hconvert.1 value hvalue)
      obtain ⟨item'', hsets, hcls', hmetadata'', hsecret'', hsame'⟩ :=
        ih hdistinct.2 (hput.metadata.trans hmetadata) (hput.secretData.trans hsecret) hconvert.2
      refine ⟨item'', ?_, hcls'.trans hput.cls, hmetadata'', hsecret'', ?_⟩
      · dsimp only
        rw [hset]
        exact hsets
      · intro attr' hattr' hlisted
        rw [hsame' attr' (by rw [hput.cls]; exact hattr') hlisted,
          hput.attributes attr' hattr' hlisted, put, List.map_cons]
        by_cases heq : attr'.name = attr.name
        · rw [heq, if_neg hdistinct.1, if_pos List.mem_cons_self, hvalue, Option.some_or]
          exact Function.update_self _ _ _
        · dsimp only
          rw [Function.update_of_ne heq]
          simp only [List.mem_cons, heq, false_or]

/-- Made of a list that lacks nothing, an item is what the first one is. -/
theorem objectCreateWithPropertyList_of_entries {classes : CFString → Option SecDbClass}
    (hkept : item.WellKept) (hclass : classes item.cls.name = some item.cls)
    (hread : ∀ attr ∈ item.cls.attrs, attr.Wanted → item.Readable now attr) {plist : CFDictionary}
    (hname : plist kSecClass = some (.plain (.string item.cls.name)))
    (hwanted : ∀ attr ∈ item.cls.attrs, plist attr.name =
      if attr.Wanted then item.entry now attr else none) :
    ∃ item', objectCreateWithPropertyList classes plist = .ok item' ∧ item'.cls = item.cls ∧
      (∀ attr ∈ item.cls.attrs, attr.Wanted →
        item'.SecDbItemGetValue now attr = item.SecDbItemGetValue now attr) ∧
      ∀ digest, item'.SecDbKeychainItemCopyPrimaryKey digest now =
        item.SecDbKeychainItemCopyPrimaryKey digest now := by
  have hconvert : ∀ attr ∈ item.cls.attrs, ∀ value, plist attr.name = some value →
      attr.kind.convert value = some value := by
    intro attr hattr value hvalue
    rw [hwanted attr hattr] at hvalue
    split at hvalue
    · exact convert_entry hkept hattr hvalue
    · cases hvalue
  obtain ⟨item', hset, hcls, hmetadata, hsecret, hsame⟩ :=
    @setValues_of_converted (SecDbItemCreate item.cls) _ _ item.cls.distinct rfl rfl hconvert
  have hvalues : ∀ attr ∈ item.cls.attrs, attr.Wanted →
      item'.SecDbItemGetValue now attr = item.SecDbItemGetValue now attr := by
    intro attr hattr hwant
    have hattribute := hsame attr hattr hwant.1
    rw [if_pos (List.mem_map_of_mem hattr), hwanted attr hattr, if_pos hwant] at hattribute
    have hplain : ∀ secret, item'.SecDbItemEnsureDecrypted secret = true := by
      intro secret
      rw [SecDbItemEnsureDecrypted, hmetadata, hsecret]
      cases secret <;> rfl
    obtain ⟨value, hvalue, -⟩ := hread attr hattr hwant
    rw [hvalue, SecDbItemGetValue, if_neg fun h => h.2 (hplain _), hattribute, entry, hvalue]
    by_cases hnull : value = .null
    · rw [hnull] at hvalue ⊢
      obtain ⟨-, hcopy⟩ := getValue_eq_null hkept hattr hvalue
      rw [hcopy]
      rfl
    · rw [Option.filter_some, if_pos (decide_eq_true hnull)]
      rfl
  refine ⟨item', ?_, hcls, hvalues, ?_⟩
  · rw [objectCreateWithPropertyList, hname]
    dsimp only
    rw [hclass]
    exact hset
  · intro digest
    rw [SecDbKeychainItemCopyPrimaryKey, SecDbKeychainItemCopyPrimaryKey]
    refine congrArg (Except.map digest) ?_
    rw [copyPList, copyPList, hcls]
    apply walk_congr
    intro attr hattr hflag
    exact hvalues attr hattr (item.cls.keyed attr hattr hflag)

/-- The list of an item has all that is wanted and makes the item again, or is an error where an
attribute cannot be read. -/
def LosesNothing (classes : CFString → Option SecDbClass) (item : SecDbItem) (now : ℚ) : Prop :=
  ((∀ attr ∈ item.cls.attrs, attr.Wanted → item.Readable now attr) →
    ∃ plist, item.objectCopyPropertyList now = .ok plist ∧
      (∀ attr ∈ item.cls.attrs, plist attr.name =
        if attr.Wanted then item.entry now attr else none) ∧
      ∃ item', objectCreateWithPropertyList classes plist = .ok item' ∧ item'.cls = item.cls ∧
        (∀ attr ∈ item.cls.attrs, attr.Wanted →
          item'.SecDbItemGetValue now attr = item.SecDbItemGetValue now attr) ∧
        ∀ digest, item'.SecDbKeychainItemCopyPrimaryKey digest now =
          item.SecDbKeychainItemCopyPrimaryKey digest now) ∧
  ((∃ attr ∈ item.cls.attrs, attr.Wanted ∧ ¬item.Readable now attr) →
    ∃ error, item.objectCopyPropertyList now = .error error)

/-- Nothing is lost exactly where each attribute that is not null comes in front of the first one
that SOS cannot sync in one of the walks, or where the walk over the encrypted attributes comes to
one that cannot be read. -/
theorem losesNothing_iff (classes : CFString → Option SecDbClass) (item : SecDbItem) (now : ℚ)
    (hkept : item.WellKept) (hclass : classes item.cls.name = some item.cls) :
    item.LosesNothing classes now ↔
      ((∀ attr ∈ item.cls.attrs, attr.Wanted →
          item.Readable now attr ∧ (item.entry now attr ≠ none → Visited item.cls attr)) ∨
        ∃ attr ∈ ahead .inCryptoData [.syncSOSCannotSync] item.cls.attrs,
          ¬item.Readable now attr) := by
  constructor
  · rintro ⟨hwhole, herror⟩
    by_cases hread : ∀ attr ∈ item.cls.attrs, attr.Wanted → item.Readable now attr
    · left
      intro attr hattr hwant
      refine ⟨hread attr hattr hwant, ?_⟩
      intro hentry
      by_contra hvisited
      obtain ⟨plist, hplist, hwanted, -⟩ := hwhole hread
      obtain ⟨plist', hplist', -, -, hnone⟩ := objectCopyPropertyList_of_readable hread
      rw [hplist] at hplist'
      cases hplist'
      have hlacks := hnone attr hattr hvisited
      rw [hwanted attr hattr, if_pos hwant] at hlacks
      exact hentry hlacks
    · push Not at hread
      exact .inr (objectCopyPropertyList_error_iff.mp (herror hread))
  · rintro (hgood | hbad)
    · have hread : ∀ attr ∈ item.cls.attrs, attr.Wanted → item.Readable now attr :=
        fun attr hattr hwant => (hgood attr hattr hwant).1
      refine ⟨fun _ => ?_, ?_⟩
      · obtain ⟨plist, hplist, hname, hvisited, hnone⟩ := objectCopyPropertyList_of_readable hread
        have hwanted : ∀ attr ∈ item.cls.attrs, plist attr.name =
            if attr.Wanted then item.entry now attr else none := by
          intro attr hattr
          by_cases hvisit : Visited item.cls attr
          · rw [hvisited attr hvisit, if_pos (wanted_of_visited hvisit).2]
          · rw [hnone attr hattr hvisit]
            split
            case isTrue hwant =>
              by_contra hentry
              exact hvisit ((hgood attr hattr hwant).2 (Ne.symm hentry))
            case isFalse => rfl
        exact ⟨plist, hplist, hwanted,
          objectCreateWithPropertyList_of_entries hkept hclass hread hname hwanted⟩
      · rintro ⟨attr, hattr, hwant, hnot⟩
        exact absurd (hread attr hattr hwant) hnot
    · refine ⟨fun hread => ?_, fun _ => objectCopyPropertyList_error_iff.mpr hbad⟩
      obtain ⟨attr, hattr, hnot⟩ := hbad
      obtain ⟨hattr', hwant⟩ := wanted_of_visited ⟨_, by decide, hattr⟩
      exact absurd (hread attr hattr' hwant) hnot

def secretOfServer (attributes : CFDictionary) : SecDbItem :=
  ⟨v12_inet_class, Function.update (Function.update attributes "srvr"
    (some (.plain (.string (cfstr "s"))))) "v_Data" (some (.plain (.data [1]))), true, true⟩

def classesOfServers (name : CFString) : Option SecDbClass :=
  if name = v12_inet_class.name then some v12_inet_class else none

theorem losesNothing_iff_sample :
    (secretOfServer (Function.update (fun _ => none) "agrp"
      (some (.plain (.string (cfstr "a")))))).LosesNothing classesOfServers 0 := by
  refine (losesNothing_iff classesOfServers _ 0 ?_ rfl).mpr (.inl ?_)
  · exact wellKept_of_all (by decide +kernel)
  · decide +kernel

/-- Without an access group the authenticated attributes are left out, and there is no error. -/
theorem losesNothing_false :
    (secretOfServer fun _ => none).WellKept ∧
      classesOfServers (secretOfServer fun _ => none).cls.name =
        some (secretOfServer fun _ => none).cls ∧
      ¬(secretOfServer fun _ => none).LosesNothing classesOfServers 0 := by
  refine ⟨wellKept_of_all (by decide +kernel), rfl, ?_⟩
  rintro ⟨-, herror⟩
  obtain ⟨error, h⟩ := herror (by decide +kernel)
  have hok : ((secretOfServer fun _ => none).objectCopyPropertyList 0).isOk = true := by
    decide +kernel
  rw [h] at hok
  cases hok
end SecDbItem
end SecurityFramework.PropertyList
