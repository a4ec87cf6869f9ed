import SecurityFramework.Ckks.CKKSItem

/-! # Items in records and rows -/

namespace SecurityFramework
namespace CKKSItem
open Dictionary

variable {δ ρ ω : Type} (platform : ItemPlatform δ ρ ω)

theorem unsignedLongLongValue_numberWithInteger (unsignedReal : ρ → UInt64) (value : UInt64) :
    (numberWithInteger value).unsignedLongLongValue unsignedReal = value := by
  rw [numberWithInteger, NSNumber.unsignedLongLongValue, Int64.ofInt_toInt]
  rfl

theorem nodup_assignments (item : CKKSItem δ ρ ω) (parentKey : CKRecordID) :
    ((item.assignments platform parentKey).map Prod.fst).Nodup := by
  simp only [assignments, List.map_cons, List.map_nil]
  decide

theorem dataField_map (value : Option (List UInt8)) :
    dataField (value.map CKRecordValue.data : Option (CKRecordValue δ ρ ω)) = .ok value := by
  cases value <;> rfl

theorem numberField_map (value : Option (NSNumber ρ)) :
    numberField (value.map CKRecordValue.number : Option (CKRecordValue δ ρ ω)) = .ok value := by
  cases value <;> rfl

theorem numberField_number (value : NSNumber ρ) :
    numberField (some (.number value) : Option (CKRecordValue δ ρ ω)) = .ok (some value) := rfl

theorem unsignedField_numberWithInteger (value : UInt64) :
    unsignedField platform (some (numberWithInteger value)) = value :=
  unsignedLongLongValue_numberWithInteger platform.unsignedReal value

structure Updated (item : CKKSItem δ ρ ω) (parentKey : CKRecordID)
    (fields : Dictionary String (CKRecordValue δ ρ ω)) : Prop where
  parentkeyref : fields.lookup "parentkeyref" = some (.reference parentKey)
  data : fields.lookup "data" = item.encitem.map .data
  wrappedkey : fields.lookup "wrappedkey" =
    item.wrappedkey.map fun key => .string key.base64WrappedKey
  gen : fields.lookup "gen" = some (.number (numberWithInteger item.generationCount))
  encver : fields.lookup "encver" = some (.number (numberWithInteger item.encver))
  pcsservice : fields.lookup "pcsservice" = item.plaintextPCSServiceIdentifier.map .number
  pcspublickey : fields.lookup "pcspublickey" = item.plaintextPCSPublicKey.map .data
  pcspublicidentity : fields.lookup "pcspublicidentity" = item.plaintextPCSPublicIdentity.map .data

theorem updated_assignAll (item : CKKSItem δ ρ ω) (parentKey : CKRecordID)
    (fields : Dictionary String (CKRecordValue δ ρ ω)) :
    item.Updated parentKey (assignAll (item.assignments platform parentKey) fields) := by
  have hassigned (key : String) (value : Option (CKRecordValue δ ρ ω))
      (hmem : (key, value) ∈ item.assignments platform parentKey) :=
    lookup_assignAll (nodup_assignments platform item parentKey) hmem fields
  constructor
  · exact hassigned "parentkeyref" _ (by simp only [assignments, List.mem_cons, true_or, or_true])
  · exact hassigned "data" _ (by simp only [assignments, List.mem_cons, true_or, or_true])
  · exact hassigned "wrappedkey" _ (by simp only [assignments, List.mem_cons, true_or, or_true])
  · exact hassigned "gen" _ (by simp only [assignments, List.mem_cons, true_or, or_true])
  · exact hassigned "encver" _ (by simp only [assignments, List.mem_cons, true_or, or_true])
  · exact hassigned "pcsservice" _ (by simp only [assignments, List.mem_cons, true_or, or_true])
  · exact hassigned "pcspublickey" _ (by simp only [assignments, List.mem_cons, true_or, or_true])
  · exact hassigned "pcspublicidentity" _ (by simp only [assignments, List.mem_cons, true_or, or_true])

variable {item : CKKSItem δ ρ ω} {record updated : CKRecord δ ρ ω} {zoneID : CKRecordZoneID}

theorem initWithCKRecord_updateCKRecord {wrappedkey : CKKSWrappedAESSIVKey}
    (hkey : item.wrappedkey = some wrappedkey)
    (h : item.updateCKRecord platform record zoneID = .ok updated) (contextID : Option String) :
    initWithCKRecord platform updated contextID =
      .ok (({ item with contextID := contextID, uuid := record.recordID.recordName } :
        CKKSItem δ ρ ω).setStoredCKRecord platform updated) := by
  rw [updateCKRecord] at h
  split at h
  case isTrue => cases h
  case isFalse htype =>
    rw [not_not] at htype
    split at h
    case h_1 => cases h
    case h_2 parentKeyUUID hparent =>
      cases h
      have hfields := item.updated_assignAll platform ⟨parentKeyUUID, zoneID⟩ record.fields
      rw [initWithCKRecord, if_neg (by simp [htype])]
      simp only [hfields.parentkeyref, hfields.data, hfields.wrappedkey, hfields.gen,
        hfields.encver, hfields.pcsservice, hfields.pcspublickey, hfields.pcspublicidentity,
        hkey, hparent, Option.map_some, referenceName, dataField_map, wrappedKeyField, numberField_map,
        numberField_number, CKKSWrappedAESSIVKey.initWithBase64_base64WrappedKey]
      change Except.ok _ = _
      simp only [unsignedField_numberWithInteger, setStoredCKRecord]

theorem unknownField_of_mem_knownKeys {key : String} (h : key ∈ knownKeys)
    (value : CKRecordValue δ ρ ω) : unknownField platform key value = none :=
  if_pos (Or.inl h)

theorem bind_unknownField_of_mem_knownKeys {key : String} (h : key ∈ knownKeys)
    (value : Option (CKRecordValue δ ρ ω)) : value.bind (unknownField platform key) = none := by
  cases value with
  | none => rfl
  | some value => exact unknownField_of_mem_knownKeys platform h value

theorem unknownField_reference (key : String) (recordID : CKRecordID) :
    unknownField platform key (.reference recordID : CKRecordValue δ ρ ω) = none := by
  rw [unknownField]
  split <;> rfl

structure IsItemRecord (record : CKRecord δ ρ ω) : Prop where
  recordType : record.recordType = SecCKRecordItemType
  parentkeyref : ∀ value, record.fields.lookup "parentkeyref" = some value →
    ∃ recordID, value = .reference recordID

theorem bind_unknownField_parentkeyref (h : IsItemRecord record) :
    (record.fields.lookup "parentkeyref").bind (unknownField platform "parentkeyref") = none := by
  cases hvalue : record.fields.lookup "parentkeyref" with
  | none => rfl
  | some value =>
    obtain ⟨recordID, rfl⟩ := h.parentkeyref value hvalue
    exact unknownField_reference platform _ recordID

/-- The keys that are assigned are known, but for the one of the parent key. -/
theorem mem_knownKeys_of_mem_assignments {parentKey : CKRecordID}
    {assignment : String × Option (CKRecordValue δ ρ ω)}
    (h : assignment ∈ item.assignments platform parentKey) :
    assignment.1 ∈ knownKeys ∨ assignment = ("parentkeyref", some (.reference parentKey)) := by
  rcases List.mem_cons.mp h with rfl | hmem
  · exact Or.inr rfl
  · have hkey := List.mem_map_of_mem (f := Prod.fst) hmem
    simp only [List.map_cons, List.map_nil] at hkey
    exact Or.inl (List.mem_cons_of_mem "UUID" hkey)

theorem unknownFields_updateCKRecord (hrecord : IsItemRecord record)
    (h : item.updateCKRecord platform record zoneID = .ok updated) :
    unknownFields platform (some updated) = unknownFields platform (some record) := by
  rw [updateCKRecord, if_neg (not_not.mpr hrecord.recordType)] at h
  split at h
  case h_1 => cases h
  case h_2 parentKeyUUID hparent =>
    cases h
    refine Dictionary.filterMap_assignAll (fun assignment hmem => ?_) fun assignment hmem => ?_
    · rcases mem_knownKeys_of_mem_assignments platform hmem with hknown | rfl
      · exact bind_unknownField_of_mem_knownKeys platform hknown _
      · exact bind_unknownField_parentkeyref platform hrecord
    · rcases mem_knownKeys_of_mem_assignments platform hmem with hknown | rfl
      · exact bind_unknownField_of_mem_knownKeys platform hknown _
      · exact unknownField_reference platform _ ⟨parentKeyUUID, zoneID⟩

theorem isItemRecord_updateCKRecord (h : item.updateCKRecord platform record zoneID = .ok updated) :
    IsItemRecord updated ∧ updated.recordID = record.recordID := by
  rw [updateCKRecord] at h
  split at h
  case isTrue => cases h
  case isFalse htype =>
    split at h
    case h_1 => cases h
    case h_2 parentKeyUUID hparent =>
      cases h
      have hfields := item.updated_assignAll platform ⟨parentKeyUUID, zoneID⟩ record.fields
      refine ⟨⟨not_not.mp htype, fun value hvalue => ⟨⟨parentKeyUUID, zoneID⟩, ?_⟩⟩, rfl⟩
      exact Option.some_inj.mp (hvalue.symm.trans hfields.parentkeyref)

theorem exists_updateCKRecord {parentKeyUUID : String}
    (htype : record.recordType = SecCKRecordItemType)
    (hparent : item.parentKeyUUID = some parentKeyUUID) (zoneID : CKRecordZoneID) :
    ∃ updated, item.updateCKRecord platform record zoneID = .ok updated := by
  rw [updateCKRecord, if_neg (not_not.mpr htype), hparent]
  exact ⟨_, rfl⟩

theorem decodedData_map (octets : Option (List UInt8)) :
    decodedData (octets.map base64Text) = octets := by
  cases octets with
  | none => rfl
  | some octets =>
    simp only [Option.map_some, decodedData, base64Text, Option.bind_some, String.toList_ofList,
      Base64.decode_encode]

theorem integerValue_repr {value : Int} (hlow : -2 ^ 63 ≤ value) (hhigh : value < 2 ^ 63) :
    integerValue value.repr = value :=
  CText.strtol_repr hlow hhigh

theorem unsignedColumn_repr (value : UInt64) :
    unsignedColumn (some value.toInt64.toInt.repr) = value := by
  have hlow := Int64.le_toInt value.toInt64
  have hhigh := Int64.toInt_lt value.toInt64
  rw [unsignedColumn, Option.map_some, Option.getD_some, integerValue_repr hlow hhigh,
    Int64.ofInt_toInt]
  rfl

def columnNumber (number : Option (NSNumber ρ)) : Option (Option (NSNumber ρ)) :=
  match number with
  | none => some none
  | some number =>
    (columnText platform number).map fun text => some (.integer (integerValue text))

theorem wrappedKeyColumn_base64WrappedKey (key : CKKSWrappedAESSIVKey) :
    wrappedKeyColumn (some key.base64WrappedKey) = .ok (some key) :=
  CKKSWrappedAESSIVKey.initWithBase64_base64WrappedKey key

theorem savedRow_of_columnText {row : CKKSItemRow (NSNumber ρ)} {number : NSNumber ρ}
    {text : String} (hpcss : row.pcss = some number) (htext : columnText platform number = some text) :
    savedRow platform row = some { row with pcss := some text } := by
  rw [savedRow, hpcss]
  simp only [htext, Option.map_some]

theorem fromDatabaseRow_savedRow {parentKeyUUID : String} {encitem : List UInt8}
    {wrappedkey : CKKSWrappedAESSIVKey} (hparent : item.parentKeyUUID = some parentKeyUUID)
    (hencitem : item.encitem = some encitem) (hkey : item.wrappedkey = some wrappedkey)
    {read : Option (NSNumber ρ)}
    (hnumber : columnNumber platform item.plaintextPCSServiceIdentifier = some read) :
    ∃ values row, item.sqlValues = .ok values ∧ savedRow platform values = some row ∧
      fromDatabaseRow row = .ok
        ({ item with
          zoneID := ⟨item.zoneID.zoneName, defaultOwnerName⟩
          ckRecordType := SecCKRecordItemType
          readCKRecord := none
          plaintextPCSServiceIdentifier := read } : CKKSItem δ ρ ω) := by
  have hdata : decodedData (some (base64Text encitem)) = some encitem :=
    decodedData_map (some encitem)
  cases hpcs : item.plaintextPCSServiceIdentifier with
  | none =>
    rw [hpcs] at hnumber
    cases hnumber
    rw [sqlValues, hparent, hencitem, hkey, hpcs]
    refine ⟨_, _, rfl, rfl, ?_⟩
    simp only [fromDatabaseRow, wrappedKeyColumn_base64WrappedKey, decodedData_map, hdata,
      unsignedColumn_repr, Option.map_none]
    rfl
  | some number =>
    rw [hpcs] at hnumber
    obtain ⟨text, htext, rfl⟩ := Option.map_eq_some_iff.mp hnumber
    rw [sqlValues, hparent, hencitem, hkey, hpcs]
    refine ⟨_, _, rfl, savedRow_of_columnText platform rfl htext, ?_⟩
    simp only [fromDatabaseRow, wrappedKeyColumn_base64WrappedKey, decodedData_map, hdata,
      unsignedColumn_repr, Option.map_some]
    rfl
end CKKSItem
end SecurityFramework

namespace SecurityFramework
namespace CKKSItem
open Dictionary

variable {δ ρ ω : Type} (platform : ItemPlatform δ ρ ω)

@[simp] theorem utf8Octets_inj {a b : String} : utf8Octets a = utf8Octets b ↔ a = b := by
  refine ⟨fun h => ?_, fun h => h ▸ rfl⟩
  have hlist : a.toList = b.toList := by
    have hread := congrArg Cbor.ofUtf8 h
    rwa [utf8Octets, utf8Octets, Cbor.ofUtf8_utf8, Cbor.ofUtf8_utf8, Option.some_inj] at hread
  exact String.toList_inj.mp hlist

@[simp] theorem littleEndian64_inj {a b : UInt64} : littleEndian64 a = littleEndian64 b ↔ a = b := by
  refine ⟨fun h => ?_, fun h => h ▸ rfl⟩
  have hread := congrArg DER.Standard.ofBigEndian (List.reverse_inj.mp h)
  rw [DER.Standard.ofBigEndian_bigEndian, DER.Standard.ofBigEndian_bigEndian] at hread
  have ha := a.toNat_lt
  have hb := b.toNat_lt
  exact UInt64.toNat_inj.mp (by omega)

variable {key : String}

variable (item : CKKSItem δ ρ ω) (record : Option (CKRecord δ ρ ω))

theorem lookup_encVer1_of_notMem (h : key ∉ ["UUID", "wrappedkey", "gen", "encver"]) :
    item.makeAuthenticatedDataDictionaryEncVer1.lookup key = none :=
  (lookup_assignAll_of_notMem h ∅).trans (Finmap.lookup_empty key)

theorem lookup_unknownFields_of_mem_knownKeys (h : key ∈ knownKeys) :
    (unknownFields platform record).lookup key = none := by
  cases record with
  | none => exact Finmap.lookup_empty key
  | some record =>
    rw [unknownFields, lookup_filterMap, bind_unknownField_of_mem_knownKeys platform h]

theorem lookup_encVer2_of_mem_knownKeys (h : key ∈ knownKeys) :
    (item.makeAuthenticatedDataDictionaryEncVer2 platform record).lookup key =
      (item.knownFields platform).lookup key :=
  lookup_overlay_of_none (lookup_unknownFields_of_mem_knownKeys platform record h) _

theorem lookup_knownFields_of_notMem (h : key ∉ knownKeys) :
    (item.knownFields platform).lookup key = none := by
  simp only [knownKeys, List.mem_cons, List.not_mem_nil, or_false, not_or] at h
  have hpcs : key ∉ ["pcsservice", "pcspublickey", "pcspublicidentity"] := by
    simp [h]
  have hown : key ∉ ["UUID", "wrappedkey", "gen", "encver"] := by
    simp [h]
  exact (lookup_assignAll_of_notMem hpcs _).trans (lookup_encVer1_of_notMem item hown)

theorem lookup_encVer2_of_notMem_knownKeys (h : key ∉ knownKeys) :
    (item.makeAuthenticatedDataDictionaryEncVer2 platform record).lookup key =
      (unknownFields platform record).lookup key := by
  rw [makeAuthenticatedDataDictionaryEncVer2, lookup_overlay,
    lookup_knownFields_of_notMem platform item h, Option.or_none]

structure KnownFields (item : CKKSItem δ ρ ω) (fields : Dictionary String (List UInt8)) : Prop where
  uuid : fields.lookup "UUID" = some (utf8Octets item.uuid)
  parentKeyUUID : fields.lookup "wrappedkey" = item.parentKeyUUID.map utf8Octets
  gen : fields.lookup "gen" = some (littleEndian64 item.generationCount)
  encver : fields.lookup "encver" = some (littleEndian64 item.encver)
  pcsservice : fields.lookup "pcsservice" =
    item.plaintextPCSServiceIdentifier.map fun number =>
      littleEndian64 (number.unsignedLongLongValue platform.unsignedReal)
  pcspublickey : fields.lookup "pcspublickey" = item.plaintextPCSPublicKey
  pcspublicidentity : fields.lookup "pcspublicidentity" = item.plaintextPCSPublicIdentity

theorem lookup_encVer1 (key : String) (value : Option (List UInt8))
    (h : (key, value) ∈ item.ownAssignments) :
    item.makeAuthenticatedDataDictionaryEncVer1.lookup key = value := by
  have hnodup : (item.ownAssignments.map Prod.fst).Nodup := by
    simp only [ownAssignments, List.map_cons, List.map_nil]
    decide
  exact lookup_assignAll hnodup h ∅

theorem lookup_knownFields_own (key : String) (value : Option (List UInt8))
    (h : (key, value) ∈ item.ownAssignments)
    (hkey : key ∉ ["pcsservice", "pcspublickey", "pcspublicidentity"]) :
    (item.knownFields platform).lookup key = value := by
  have hstays : (item.knownFields platform).lookup key =
      item.makeAuthenticatedDataDictionaryEncVer1.lookup key :=
    lookup_assignAll_of_notMem hkey item.makeAuthenticatedDataDictionaryEncVer1
  exact hstays.trans (lookup_encVer1 item key value h)

theorem lookup_knownFields_pcs (key : String) (value : Option (List UInt8))
    (h : (key, value) ∈ item.pcsAssignments platform) :
    (item.knownFields platform).lookup key = value := by
  have hnodup : ((item.pcsAssignments platform).map Prod.fst).Nodup := by
    simp only [pcsAssignments, List.map_cons, List.map_nil]
    decide
  exact lookup_assignAll hnodup h item.makeAuthenticatedDataDictionaryEncVer1

theorem knownFields_spec :
    item.KnownFields platform (item.knownFields platform) := by
  constructor
  · exact lookup_knownFields_own platform item "UUID" _
      (by simp only [ownAssignments, List.mem_cons, true_or]) (by decide)
  · exact lookup_knownFields_own platform item "wrappedkey" _
      (by simp only [ownAssignments, List.mem_cons, true_or, or_true]) (by decide)
  · exact lookup_knownFields_own platform item "gen" _
      (by simp only [ownAssignments, List.mem_cons, true_or, or_true]) (by decide)
  · exact lookup_knownFields_own platform item "encver" _
      (by simp only [ownAssignments, List.mem_cons, true_or, or_true]) (by decide)
  · exact lookup_knownFields_pcs platform item "pcsservice" _
      (by simp only [pcsAssignments, List.mem_cons, true_or])
  · exact lookup_knownFields_pcs platform item "pcspublickey" _
      (by simp only [pcsAssignments, List.mem_cons, true_or, or_true])
  · exact lookup_knownFields_pcs platform item "pcspublicidentity" _
      (by simp only [pcsAssignments, List.mem_cons, true_or, or_true])

def serviceNumber (item : CKKSItem δ ρ ω) : Option UInt64 :=
  item.plaintextPCSServiceIdentifier.map (NSNumber.unsignedLongLongValue platform.unsignedReal)

theorem pcsAssignments_eq :
    item.pcsAssignments platform =
      [("pcsservice", (item.serviceNumber platform).map littleEndian64),
        ("pcspublickey", item.plaintextPCSPublicKey),
        ("pcspublicidentity", item.plaintextPCSPublicIdentity)] := by
  rw [pcsAssignments, serviceNumber, Option.map_map]
  rfl

/-- What of an item with a record the second version authenticates. -/
structure SameFields (item : CKKSItem δ ρ ω) (record : Option (CKRecord δ ρ ω))
    (other : CKKSItem δ ρ ω) (otherRecord : Option (CKRecord δ ρ ω)) : Prop where
  uuid : item.uuid = other.uuid
  parentKeyUUID : item.parentKeyUUID = other.parentKeyUUID
  generationCount : item.generationCount = other.generationCount
  encver : item.encver = other.encver
  serviceNumber : item.serviceNumber platform = other.serviceNumber platform
  publicKey : item.plaintextPCSPublicKey = other.plaintextPCSPublicKey
  publicIdentity : item.plaintextPCSPublicIdentity = other.plaintextPCSPublicIdentity
  unknown : unknownFields platform record = unknownFields platform otherRecord

/-- The authenticated data are equal exactly when all that is authenticated is. -/
theorem encVer2_eq_iff {item other : CKKSItem δ ρ ω} {record otherRecord : Option (CKRecord δ ρ ω)} :
    item.makeAuthenticatedDataDictionaryEncVer2 platform record =
        other.makeAuthenticatedDataDictionaryEncVer2 platform otherRecord ↔
      SameFields platform item record other otherRecord := by
  have hitem := item.knownFields_spec platform
  have hother := other.knownFields_spec platform
  constructor
  · intro heq
    have hlookup (key : String) := congrArg (fun fields => Finmap.lookup key fields) heq
    have hknown (key : String) (hkey : key ∈ knownKeys) :
        (item.knownFields platform).lookup key = (other.knownFields platform).lookup key := by
      rw [← lookup_encVer2_of_mem_knownKeys platform item record hkey,
        ← lookup_encVer2_of_mem_knownKeys platform other otherRecord hkey]
      exact hlookup key
    constructor
    · have huuid := hknown "UUID" (by decide)
      rwa [hitem.uuid, hother.uuid, Option.some_inj, utf8Octets_inj] at huuid
    · have hparent := hknown "wrappedkey" (by decide)
      rw [hitem.parentKeyUUID, hother.parentKeyUUID] at hparent
      exact Option.map_injective (fun _ _ => utf8Octets_inj.mp) hparent
    · have hgen := hknown "gen" (by decide)
      rwa [hitem.gen, hother.gen, Option.some_inj, littleEndian64_inj] at hgen
    · have hencver := hknown "encver" (by decide)
      rwa [hitem.encver, hother.encver, Option.some_inj, littleEndian64_inj] at hencver
    · have hnumber := hknown "pcsservice" (by decide)
      rw [hitem.pcsservice, hother.pcsservice] at hnumber
      refine Option.map_injective (f := littleEndian64) (fun _ _ => littleEndian64_inj.mp) ?_
      rwa [serviceNumber, serviceNumber, Option.map_map, Option.map_map]
    · have hkey := hknown "pcspublickey" (by decide)
      rwa [hitem.pcspublickey, hother.pcspublickey] at hkey
    · have hidentity := hknown "pcspublicidentity" (by decide)
      rwa [hitem.pcspublicidentity, hother.pcspublicidentity] at hidentity
    · refine Finmap.ext_lookup fun key => ?_
      by_cases hkey : key ∈ knownKeys
      · rw [lookup_unknownFields_of_mem_knownKeys platform record hkey,
          lookup_unknownFields_of_mem_knownKeys platform otherRecord hkey]
      · rw [← lookup_encVer2_of_notMem_knownKeys platform item record hkey,
          ← lookup_encVer2_of_notMem_knownKeys platform other otherRecord hkey]
        exact hlookup key
  · intro hsame
    have hown : item.ownAssignments = other.ownAssignments := by
      rw [ownAssignments, ownAssignments, hsame.uuid, hsame.parentKeyUUID, hsame.generationCount,
        hsame.encver]
    have hpcs : item.pcsAssignments platform = other.pcsAssignments platform := by
      rw [pcsAssignments_eq, pcsAssignments_eq, hsame.serviceNumber, hsame.publicKey,
        hsame.publicIdentity]
    rw [makeAuthenticatedDataDictionaryEncVer2, makeAuthenticatedDataDictionaryEncVer2,
      hsame.unknown, knownFields, knownFields, hpcs, makeAuthenticatedDataDictionaryEncVer1,
      makeAuthenticatedDataDictionaryEncVer1, hown]

theorem keys_encVer1_subset {other : CKKSItem δ ρ ω} (hparent : other.parentKeyUUID.isSome)
    (record : Option (CKRecord δ ρ ω)) :
    item.makeAuthenticatedDataDictionaryEncVer1.keys ⊆
      (other.makeAuthenticatedDataDictionaryEncVer2 platform record).keys := by
  intro key hmem
  have hown : key ∈ ["UUID", "wrappedkey", "gen", "encver"] := by
    by_contra hnot
    exact Finmap.lookup_eq_none.mp (lookup_encVer1_of_notMem item hnot) (Finmap.mem_keys.mp hmem)
  have hknown : key ∈ knownKeys := by
    simp only [List.mem_cons, List.not_mem_nil, or_false] at hown
    rcases hown with rfl | rfl | rfl | rfl <;> decide
  have hother := other.knownFields_spec platform
  refine Finmap.mem_keys.mpr (Finmap.lookup_isSome.mp ?_)
  rw [lookup_encVer2_of_mem_knownKeys platform other record hknown]
  simp only [List.mem_cons, List.not_mem_nil, or_false] at hown
  rcases hown with rfl | rfl | rfl | rfl
  · rw [hother.uuid, Option.isSome_some]
  · rw [hother.parentKeyUUID, Option.isSome_map, hparent]
  · rw [hother.gen, Option.isSome_some]
  · rw [hother.encver, Option.isSome_some]
end CKKSItem
end SecurityFramework
