import Mathlib.Data.Countable.Basic
import Mathlib.Logic.Equiv.List
import SecurityFramework.Ckks.ItemForms

/-! # Items that are encrypted and decrypted -/

namespace SecurityFramework
namespace CKKSItemEncrypter
open CKKSItem

section
variable {δ ρ ω ω' : Type} {siv : CcSiv} {plists : PropertyListSerialization ω'}
  {platform : ItemPlatform δ ρ ω} {keyCache : CKKSMemoryKeyCache}

structure Sealed (siv : CcSiv) (plists : PropertyListSerialization ω') (item : CKKSItem δ ρ ω)
    (ad : Dictionary String (List UInt8)) (parentkey : CKKSKey) (dict : ItemDictionary ω') :
    Prop where
  unwraps : ∃ keycore itemkey wrappedkey, parentkey.keycore = some keycore ∧
    item.wrappedkey = some wrappedkey ∧ keycore.unwrapAESKey siv wrappedkey = some itemkey ∧
    ∃ nonce plaintext encitem, itemkey.encryptData siv nonce plaintext ad = some encitem ∧
      item.encitem = some encitem ∧
      (removePaddingFromData plaintext).bind plists.propertyListWithData = some dict

variable {dict merged : ItemDictionary ω'} {item read baseitem : CKKSItem δ ρ ω}
  {parentkey : CKKSKey} {nonce : Vector UInt8 CKKSAESSIVKey.nonceLength}
  {olditem : Option (CKKSItem δ ρ ω)} {wrappedkey : CKKSWrappedAESSIVKey}

theorem Sealed.decrypts (hsiv : siv.Exact) {ad : Dictionary String (List UInt8)}
    (h : Sealed siv plists item ad parentkey dict) (hkey : read.wrappedkey = item.wrappedkey)
    (hencitem : read.encitem = item.encitem) (hencver : read.encver = CKKSItemEncryptionVersion2)
    (had : read.makeAuthenticatedDataDictionaryEncVer2 platform (read.storedCKRecord platform) = ad)
    (hload : keyCache read.parentKeyUUID read.contextID read.zoneID = some parentkey) :
    decryptItemToDictionary siv plists platform keyCache read = .ok (some dict) := by
  obtain ⟨keycore, itemkey, wrappedkey, hcore, hwrapped, hunwrap, nonce, plaintext, encitem,
    hencrypt, hitem, hread⟩ := h.unwraps
  have hitemkey : unwrapItemKey siv parentkey read.wrappedkey = .ok (some itemkey) := by
    simp only [unwrapItemKey, hcore, hkey, hwrapped, hunwrap]
  have hdata : read.makeAuthenticatedDataDictionary platform (read.storedCKRecord platform)
      CKKSItemEncryptionVersion2 = .ok ad := by
    rw [makeAuthenticatedDataDictionary, if_neg (by decide), if_pos rfl, had]
  have hdict : decryptDictionary siv plists encitem itemkey ad = some dict := by
    rw [decryptDictionary, CKKSAESSIVKey.decryptData_encryptData hsiv hencrypt]
    exact hread
  rw [decryptItemToDictionary, if_pos (Or.inr hencver), decryptItemToDictionaryVersion1or2, hload]
  simp only [hitemkey, hencver, hencitem, hitem]
  change (do
    let ad ← read.makeAuthenticatedDataDictionary platform (read.storedCKRecord platform)
      CKKSItemEncryptionVersion2
    .ok (decryptDictionary siv plists encitem itemkey ad)) = _
  rw [hdata]
  exact congrArg Except.ok hdict

theorem Sealed.refuses (hsiv : siv.Exact) {ad ad' : Dictionary String (List UInt8)}
    (h : Sealed siv plists item ad parentkey dict) (hencitem : read.encitem = item.encitem)
    (had : read.makeAuthenticatedDataDictionary platform (read.storedCKRecord platform)
      read.encver = .ok ad') (hne : ad'.sortedValues ≠ ad.sortedValues)
    (found : ItemDictionary ω') :
    decryptItemToDictionary siv plists platform keyCache read ≠ .ok (some found) := by
  obtain ⟨keycore, itemkey, wrappedkey, hcore, hwrapped, hunwrap, nonce, plaintext, encitem,
    hencrypt, hitem, hread⟩ := h.unwraps
  have hnone (other : CKKSAESSIVKey) : decryptDictionary siv plists encitem other ad' = none := by
    rw [decryptDictionary, CKKSAESSIVKey.decryptData_eq_none hsiv hencrypt hne other]
    rfl
  rw [decryptItemToDictionary]
  split
  case isFalse => nofun
  case isTrue =>
    rw [decryptItemToDictionaryVersion1or2]
    split
    · nofun
    · cases hunwrapped : unwrapItemKey siv _ read.wrappedkey with
      | error e => nofun
      | ok unwrapped =>
        cases unwrapped with
        | none => nofun
        | some other =>
          simp only [had, hencitem, hitem, Option.getD_some]
          change Except.ok (decryptDictionary siv plists encitem other ad') ≠ _
          rw [hnone other]
          nofun

structure Made (siv : CcSiv) (plists : PropertyListSerialization ω')
    (platform : ItemPlatform δ ρ ω) (baseitem : CKKSItem δ ρ ω)
    (olditem : Option (CKKSItem δ ρ ω)) (parentkey : CKKSKey) (merged : ItemDictionary ω')
    (item : CKKSItem δ ρ ω) : Prop where
  prepared : ∃ wrappedkey encryptedItem encitem,
    withOldRecord platform (preparedItem baseitem olditem parentkey wrappedkey)
      (oldRecord platform olditem) = .ok encryptedItem ∧
    item = { encryptedItem with encitem := some encitem }
  closed : Sealed siv plists item
    (item.makeAuthenticatedDataDictionaryEncVer2 platform (oldRecord platform olditem)) parentkey
    merged

theorem encryptionVersion_eq (olditem : Option (CKKSItem δ ρ ω)) :
    encryptionVersion olditem = CKKSItemEncryptionVersion2 := by
  rw [encryptionVersion]
  split <;> rfl

theorem withOldRecord_cases {made : CKKSItem δ ρ ω} {record : Option (CKRecord δ ρ ω)}
    (h : withOldRecord platform item record = .ok made) :
    record = none ∧ made = item ∨
    ∃ old updated, record = some old ∧
      item.updateCKRecord platform old old.recordID.zoneID = .ok updated ∧
      made = item.setStoredCKRecord platform updated := by
  cases record with
  | none =>
    cases h
    exact Or.inl ⟨rfl, rfl⟩
  | some old =>
    rw [withOldRecord] at h
    cases hupdate : item.updateCKRecord platform old old.recordID.zoneID with
    | error e =>
      rw [hupdate] at h
      cases h
    | ok updated =>
      rw [hupdate] at h
      cases h
      exact Or.inr ⟨old, updated, rfl, hupdate, rfl⟩

structure Kept (item made : CKKSItem δ ρ ω) : Prop where
  contextID : made.contextID = item.contextID
  uuid : made.uuid = item.uuid
  parentKeyUUID : made.parentKeyUUID = item.parentKeyUUID
  wrappedkey : made.wrappedkey = item.wrappedkey
  generationCount : made.generationCount = item.generationCount
  encver : made.encver = item.encver
  plaintextPCSServiceIdentifier :
    made.plaintextPCSServiceIdentifier = item.plaintextPCSServiceIdentifier
  plaintextPCSPublicKey : made.plaintextPCSPublicKey = item.plaintextPCSPublicKey
  plaintextPCSPublicIdentity : made.plaintextPCSPublicIdentity = item.plaintextPCSPublicIdentity

theorem kept_withOldRecord {made : CKKSItem δ ρ ω} {record : Option (CKRecord δ ρ ω)}
    (h : withOldRecord platform item record = .ok made) : Kept item made := by
  rcases withOldRecord_cases h with ⟨-, rfl⟩ | ⟨old, updated, -, -, rfl⟩
  · exact ⟨rfl, rfl, rfl, rfl, rfl, rfl, rfl, rfl, rfl⟩
  · exact ⟨rfl, rfl, rfl, rfl, rfl, rfl, rfl, rfl, rfl⟩

theorem sealed_of_encryptWithKey (hsiv : siv.Exact) (hplists : plists.Lawful)
    {keycore itemkey : CKKSAESSIVKey} (hcore : parentkey.keycore = some keycore)
    (hwrap : keycore.wrapAESKey siv itemkey = some wrappedkey)
    (h : encryptWithKey siv plists platform baseitem merged olditem parentkey itemkey wrappedkey
      nonce = .ok (some item)) :
    Made siv plists platform baseitem olditem parentkey merged item := by
  rw [encryptWithKey] at h
  cases hold : withOldRecord platform (preparedItem baseitem olditem parentkey wrappedkey)
      (oldRecord platform olditem) with
  | error e =>
    rw [hold] at h
    cases h
  | ok encryptedItem =>
    have hkept := kept_withOldRecord hold
    have hencver : encryptedItem.encver = CKKSItemEncryptionVersion2 :=
      hkept.encver.trans (encryptionVersion_eq olditem)
    have had : encryptedItem.makeAuthenticatedDataDictionary platform (oldRecord platform olditem)
        encryptedItem.encver = .ok (encryptedItem.makeAuthenticatedDataDictionaryEncVer2 platform
          (oldRecord platform olditem)) := by
      rw [hencver, makeAuthenticatedDataDictionary, if_neg (by decide), if_pos rfl]
    rw [hold] at h
    dsimp only [bind, Except.bind] at h
    rw [had] at h
    dsimp only [encryptDictionary] at h
    cases hplist : plists.dataWithPropertyList merged with
    | none =>
      simp only [hplist, Option.map_none] at h
      cases h
    | some data =>
      simp only [hplist] at h
      cases hlength : lengthOfValue (merged.lookup "v_Data") with
      | error e =>
        simp only [hlength, bind, Except.bind] at h
        cases h
      | ok length =>
        simp only [hlength, bind, Except.bind, Except.ok.injEq] at h
        obtain ⟨encitem, hencrypt, rfl⟩ := Option.map_eq_some_iff.mp h
        refine ⟨⟨wrappedkey, encryptedItem, encitem, hold, rfl⟩, ⟨keycore, itemkey, wrappedkey,
          hcore, hkept.wrappedkey, CKKSAESSIVKey.unwrapAESKey_wrapAESKey hsiv hwrap, nonce, _,
          encitem, hencrypt, rfl, ?_⟩⟩
        rw [removePaddingFromData_padData]
        exact hplists.read_back hplist

theorem made_of_encryptCKKSItem (hsiv : siv.Exact) (hplists : plists.Lawful)
    {randomKey : Option CKKSAESSIVKey}
    (h : encryptCKKSItem siv plists platform keyCache baseitem dict olditem parentkey randomKey
      nonce = .ok (some item)) :
    ∃ merged, updatedDictionary siv plists platform keyCache dict olditem = .ok (some merged) ∧
      Made siv plists platform baseitem olditem parentkey merged item := by
  rw [encryptCKKSItem] at h
  cases hupdate : updatedDictionary siv plists platform keyCache dict olditem with
  | error e =>
    rw [hupdate] at h
    cases h
  | ok updated =>
    rw [hupdate] at h
    dsimp only [bind, Except.bind] at h
    cases updated with
    | none => cases h
    | some merged =>
      refine ⟨merged, rfl, ?_⟩
      dsimp only at h
      split at h
      · cases h
      case h_2 itemkey wrappedkey hwrapped =>
        obtain ⟨keycore, hcore, hrest⟩ := Option.bind_eq_some_iff.mp hwrapped
        obtain ⟨key, hrandom, hrest⟩ := Option.bind_eq_some_iff.mp hrest
        obtain ⟨wrapped, hwrap, hpair⟩ := Option.bind_eq_some_iff.mp hrest
        cases hpair
        exact sealed_of_encryptWithKey hsiv hplists hcore hwrap h

/-- Nothing but a missing key, a dictionary that is no property list, a password without a length
and a record of another type keeps an item from being made. -/
theorem exists_encryptCKKSItem {keycore itemkey : CKKSAESSIVKey} {data : List UInt8} {length : Nat}
    (hmerged : updatedDictionary siv plists platform keyCache dict olditem = .ok (some merged))
    (hcore : parentkey.keycore = some keycore)
    (hwrap : keycore.wrapAESKey siv itemkey = some wrappedkey)
    (hplist : plists.dataWithPropertyList merged = some data)
    (hlength : lengthOfValue (merged.lookup "v_Data") = .ok length)
    (hencrypt : ∀ plaintext ad, (itemkey.encryptData siv nonce plaintext ad).isSome)
    (hrecord : ∀ record, oldRecord platform olditem = some record →
      record.recordType = SecCKRecordItemType) :
    ∃ item, encryptCKKSItem siv plists platform keyCache baseitem dict olditem parentkey
      (some itemkey) nonce = .ok (some item) := by
  obtain ⟨encryptedItem, hold⟩ : ∃ encryptedItem, withOldRecord platform
      (preparedItem baseitem olditem parentkey wrappedkey) (oldRecord platform olditem) =
        .ok encryptedItem := by
    cases hfound : oldRecord platform olditem with
    | none => exact ⟨_, rfl⟩
    | some record =>
      have hparent : (preparedItem baseitem olditem parentkey wrappedkey).parentKeyUUID =
          some parentkey.uuid := rfl
      obtain ⟨updated, hupdate⟩ := exists_updateCKRecord platform (hrecord record hfound) hparent
        record.recordID.zoneID
      rw [withOldRecord, hupdate]
      exact ⟨_, rfl⟩
  have hencver : encryptedItem.encver = CKKSItemEncryptionVersion2 :=
    (kept_withOldRecord hold).encver.trans (encryptionVersion_eq olditem)
  obtain ⟨encitem, hencitem⟩ := Option.isSome_iff_exists.mp (hencrypt
    (padData data SecCKKSItemPaddingBlockSize (length < SecCKKSItemPaddingBlockSize))
    (encryptedItem.makeAuthenticatedDataDictionaryEncVer2 platform (oldRecord platform olditem)))
  refine ⟨{ encryptedItem with encitem := some encitem }, ?_⟩
  simp only [encryptCKKSItem, hmerged, hcore, hwrap, encryptWithKey, hold, hencver,
    makeAuthenticatedDataDictionary, encryptDictionary, hplist, hlength, bind, Except.bind,
    Option.bind]
  simp [hencitem, CKKSItemEncryptionVersion2, CKKSItemEncryptionVersion1]

/-- The record that is updated is the one of the item. A base item that brings a record along when
the old one has none brings one without unknown fields. -/
structure Updatable (platform : ItemPlatform δ ρ ω) (baseitem : CKKSItem δ ρ ω)
    (olditem : Option (CKKSItem δ ρ ω)) : Prop where
  ckRecordType : baseitem.ckRecordType = SecCKRecordItemType
  old_record : ∀ record, oldRecord platform olditem = some record →
    IsItemRecord record ∧ record.recordID.recordName = baseitem.uuid
  own_record : oldRecord platform olditem = none → baseitem.encodedCKRecord = none ∨
    ∃ record, baseitem.encodedCKRecord.bind platform.decodeRecord = some record ∧
      IsItemRecord record ∧ record.recordID.recordName = baseitem.uuid ∧
      unknownFields platform (some record) = ∅

/-- The item has no record or one of its own, with the unknown fields of the old record. -/
structure Stored (platform : ItemPlatform δ ρ ω) (item : CKKSItem δ ρ ω)
    (old : Option (CKRecord δ ρ ω)) : Prop where
  archived : item.encodedCKRecord.bind platform.decodeRecord = item.storedCKRecord platform
  unknown : unknownFields platform (item.storedCKRecord platform) = unknownFields platform old
  record : item.encodedCKRecord = none ∧ item.ckRecordType = SecCKRecordItemType ∨
    ∃ octets record, item.encodedCKRecord = some octets ∧
      item.storedCKRecord platform = some record ∧ IsItemRecord record ∧
      record.recordID.recordName = item.uuid

theorem Made.stored (hplatform : platform.Lawful) (hup : Updatable platform baseitem olditem)
    (h : Made siv plists platform baseitem olditem parentkey merged item) :
    Stored platform item (oldRecord platform olditem) := by
  obtain ⟨wrappedkey, encryptedItem, encitem, hold, rfl⟩ := h.prepared
  rcases withOldRecord_cases hold with ⟨hnone, rfl⟩ | ⟨old, updated, hsome, hupdate, rfl⟩
  · have hstored : ({ preparedItem baseitem olditem parentkey wrappedkey with
        encitem := some encitem } : CKKSItem δ ρ ω).storedCKRecord platform =
        baseitem.encodedCKRecord.bind platform.decodeRecord := rfl
    rw [hnone]
    rcases hup.own_record hnone with hencoded | ⟨record, hrecord, hitem, hname, hunknown⟩
    · refine ⟨hstored.symm, ?_, Or.inl ⟨hencoded, hup.ckRecordType⟩⟩
      rw [hstored, hencoded, Option.bind_none]
    · obtain ⟨octets, hoctets, -⟩ := Option.bind_eq_some_iff.mp hrecord
      refine ⟨hstored.symm, ?_, Or.inr ⟨octets, record, hoctets, ?_, hitem, hname⟩⟩
      · rw [hstored, hrecord, hunknown]
        rfl
      · rw [hstored, hrecord]
  · obtain ⟨hitem, hname⟩ := hup.old_record old hsome
    obtain ⟨hupdated, hid⟩ := isItemRecord_updateCKRecord platform hupdate
    refine ⟨hplatform.decode_encode updated, ?_, Or.inr ⟨_, updated, rfl, rfl, hupdated, ?_⟩⟩
    · rw [hsome]
      exact unknownFields_updateCKRecord platform hitem hupdate
    · rw [hid, hname]
      rfl

theorem Made.fields (h : Made siv plists platform baseitem olditem parentkey merged item) :
    item.encver = CKKSItemEncryptionVersion2 ∧ item.parentKeyUUID = some parentkey.uuid ∧
      item.plaintextPCSServiceIdentifier = baseitem.plaintextPCSServiceIdentifier ∧
      ∃ wrappedkey encitem, item.wrappedkey = some wrappedkey ∧ item.encitem = some encitem := by
  obtain ⟨wrappedkey, encryptedItem, encitem, hold, rfl⟩ := h.prepared
  have hkept := kept_withOldRecord hold
  exact ⟨hkept.encver.trans (encryptionVersion_eq olditem), hkept.parentKeyUUID,
    hkept.plaintextPCSServiceIdentifier, wrappedkey, encitem, hkept.wrappedkey, rfl⟩

/-- A device that holds the parent key decrypts the item to the dictionary. -/
def DecryptsTo (siv : CcSiv) (plists : PropertyListSerialization ω')
    (platform : ItemPlatform δ ρ ω) (parentkey : CKKSKey) (item : CKKSItem δ ρ ω)
    (dict : ItemDictionary ω') : Prop :=
  ∀ keyCache : CKKSMemoryKeyCache,
    keyCache (some parentkey.uuid) item.contextID item.zoneID = some parentkey →
      decryptItemToDictionary siv plists platform keyCache item = .ok (some dict)

theorem Made.decryptsTo (hsiv : siv.Exact)
    (h : Made siv plists platform baseitem olditem parentkey merged item)
    (hkey : read.wrappedkey = item.wrappedkey) (hencitem : read.encitem = item.encitem)
    (hsame : SameFields platform read (read.storedCKRecord platform) item
      (oldRecord platform olditem)) :
    DecryptsTo siv plists platform parentkey read merged := by
  intro keyCache hload
  obtain ⟨hencver, hparent, -⟩ := h.fields
  refine h.closed.decrypts hsiv hkey hencitem (hsame.encver.trans hencver)
    ((encVer2_eq_iff platform).mpr hsame) ?_
  rw [hsame.parentKeyUUID, hparent, hload]

theorem Stored.exists_record [DecidableEq (CKRecord δ ρ ω)] {old : Option (CKRecord δ ρ ω)}
    (h : Stored platform item old) {parentKeyUUID : String}
    (hparent : item.parentKeyUUID = some parentKeyUUID) (hkey : item.wrappedkey = some wrappedkey)
    (zoneID : CKRecordZoneID) (contextID : Option String) :
    ∃ record kept read, item.CKRecordWithZoneID platform zoneID = .ok (record, kept) ∧
      initWithCKRecord platform record contextID = .ok read ∧
      read.wrappedkey = item.wrappedkey ∧ read.encitem = item.encitem ∧
      SameFields platform read (read.storedCKRecord platform) item old := by
  obtain ⟨found, hfound, hitem, hname, hunknown⟩ : ∃ found : CKRecord δ ρ ω,
      item.originalRecord platform zoneID = some found ∧ IsItemRecord found ∧
      found.recordID.recordName = item.uuid ∧
      unknownFields platform (some found) = unknownFields platform old := by
    rcases h.record with ⟨hencoded, htype⟩ | ⟨octets, record, hencoded, hstored, hitem, hname⟩
    · have hnone : item.storedCKRecord platform = none := by
        rw [← h.archived, hencoded, Option.bind_none]
      refine ⟨⟨item.ckRecordType, ⟨item.uuid, zoneID⟩, ∅⟩, ?_, ⟨htype, nofun⟩, rfl, ?_⟩
      · rw [originalRecord, hencoded]
      · rw [← h.unknown, hnone]
        exact Dictionary.filterMap_empty _
    · refine ⟨record, ?_, hitem, hname, ?_⟩
      · rw [originalRecord, hencoded]
        exact hstored
      · rw [← h.unknown, hstored]
  obtain ⟨updated, hupdate⟩ := exists_updateCKRecord platform hitem.recordType hparent zoneID
  have hread := initWithCKRecord_updateCKRecord platform hkey hupdate contextID
  obtain ⟨kept, hwritten⟩ : ∃ kept,
      item.CKRecordWithZoneID platform zoneID = .ok (updated, kept) := by
    simp only [CKRecordWithZoneID, hfound, hupdate]
    by_cases hequal : updated = found
    · exact ⟨item, if_pos hequal⟩
    · exact ⟨item.setStoredCKRecord platform updated, if_neg hequal⟩
  refine ⟨updated, kept, _, hwritten, hread, rfl, rfl, ⟨hname, rfl, rfl, rfl, rfl, rfl, rfl, ?_⟩⟩
  exact (unknownFields_updateCKRecord platform hitem hupdate).trans hunknown

theorem Stored.exists_row {old : Option (CKRecord δ ρ ω)} (h : Stored platform item old)
    {parentKeyUUID : String} {encitem : List UInt8}
    (hparent : item.parentKeyUUID = some parentKeyUUID) (hencitem : item.encitem = some encitem)
    (hkey : item.wrappedkey = some wrappedkey) {number : Option (NSNumber ρ)}
    (hnumber : columnNumber platform item.plaintextPCSServiceIdentifier = some number)
    (hvalue : number.map (NSNumber.unsignedLongLongValue platform.unsignedReal) =
      item.serviceNumber platform) :
    ∃ values row, ∃ read : CKKSItem δ ρ ω, item.sqlValues = .ok values ∧
      savedRow platform values = some row ∧ fromDatabaseRow row = .ok read ∧
      read.wrappedkey = item.wrappedkey ∧ read.encitem = item.encitem ∧
      SameFields platform read (read.storedCKRecord platform) item old := by
  obtain ⟨values, row, hvalues, hrow, hread⟩ :=
    fromDatabaseRow_savedRow platform hparent hencitem hkey hnumber
  refine ⟨values, row, _, hvalues, hrow, hread, rfl, rfl,
    ⟨rfl, rfl, rfl, rfl, hvalue, rfl, rfl, ?_⟩⟩
  exact (congrArg (unknownFields platform) h.archived).trans h.unknown

/-- Something that is authenticated was changed, and no field was exchanged for another one. -/
structure Changed (platform : ItemPlatform δ ρ ω) (item other : CKKSItem δ ρ ω) : Prop where
  differs : ¬SameFields platform other (other.storedCKRecord platform) item
    (item.storedCKRecord platform)
  not_exchanged :
    (other.makeAuthenticatedDataDictionaryEncVer2 platform (other.storedCKRecord platform)).keys ⊆
        (item.makeAuthenticatedDataDictionaryEncVer2 platform (item.storedCKRecord platform)).keys ∨
      (item.makeAuthenticatedDataDictionaryEncVer2 platform (item.storedCKRecord platform)).keys ⊆
        (other.makeAuthenticatedDataDictionaryEncVer2 platform (other.storedCKRecord platform)).keys

theorem encVer1_ne_encVer2 {other : CKKSItem δ ρ ω} (hne : other.encver ≠ item.encver)
    (record : Option (CKRecord δ ρ ω)) :
    other.makeAuthenticatedDataDictionaryEncVer1 ≠
      item.makeAuthenticatedDataDictionaryEncVer2 platform record := by
  intro heq
  have hencver := congrArg (Finmap.lookup "encver") heq
  rw [lookup_encVer1 other "encver" (some (littleEndian64 other.encver))
      (by simp only [ownAssignments, List.mem_cons, true_or, or_true]),
    lookup_encVer2_of_mem_knownKeys platform item record (by decide),
    (item.knownFields_spec platform).encver, Option.some_inj, littleEndian64_inj] at hencver
  exact hne hencver

theorem Made.refuses (hplatform : platform.Lawful) (hsiv : siv.Exact) {other : CKKSItem δ ρ ω}
    (hup : Updatable platform baseitem olditem)
    (h : Made siv plists platform baseitem olditem parentkey merged item)
    (hencitem : other.encitem = item.encitem) (hchanged : Changed platform item other)
    (found : ItemDictionary ω') :
    decryptItemToDictionary siv plists platform keyCache other ≠ .ok (some found) := by
  obtain ⟨hencver, hparent, -⟩ := h.fields
  have hstored := h.stored hplatform hup
  have hsame : item.makeAuthenticatedDataDictionaryEncVer2 platform (item.storedCKRecord platform) =
      item.makeAuthenticatedDataDictionaryEncVer2 platform (oldRecord platform olditem) :=
    (encVer2_eq_iff platform).mpr ⟨rfl, rfl, rfl, rfl, rfl, rfl, rfl, hstored.unknown⟩
  by_cases hother : other.encver = CKKSItemEncryptionVersion2
  · have had : other.makeAuthenticatedDataDictionary platform (other.storedCKRecord platform)
        other.encver = .ok (other.makeAuthenticatedDataDictionaryEncVer2 platform
          (other.storedCKRecord platform)) := by
      rw [hother, makeAuthenticatedDataDictionary, if_neg (by decide), if_pos rfl]
    refine h.closed.refuses hsiv hencitem had (fun hvalues => ?_) found
    rw [← hsame] at hvalues
    exact hchanged.differs ((encVer2_eq_iff platform).mp
      (Dictionary.eq_of_sortedValues_eq hchanged.not_exchanged hvalues))
  · by_cases hfirst : other.encver = CKKSItemEncryptionVersion1
    · have had : other.makeAuthenticatedDataDictionary platform (other.storedCKRecord platform)
          other.encver = .ok other.makeAuthenticatedDataDictionaryEncVer1 := by
        rw [hfirst, makeAuthenticatedDataDictionary, if_pos rfl]
      refine h.closed.refuses hsiv hencitem had (fun hvalues => ?_) found
      have hne : other.encver ≠ item.encver := hencver ▸ hother
      refine encVer1_ne_encVer2 hne _ (Dictionary.eq_of_sortedValues_eq (Or.inl ?_) hvalues)
      exact keys_encVer1_subset platform other (by rw [hparent, Option.isSome_some]) _
    · rw [decryptItemToDictionary, if_neg (not_or.mpr ⟨hfirst, hother⟩)]
      nofun

def RowKeepsNumber (platform : ItemPlatform δ ρ ω) (item : CKKSItem δ ρ ω) : Prop :=
  ∃ number, columnNumber platform item.plaintextPCSServiceIdentifier = some number ∧
    number.map (NSNumber.unsignedLongLongValue platform.unsignedReal) = item.serviceNumber platform

/-- An encrypted item that is written to a record or to a row and read back is decrypted to the old
dictionary overlaid with the new one, and not after a change. -/
theorem decryptItemToDictionary_encryptCKKSItem [DecidableEq (CKRecord δ ρ ω)]
    (hplatform : platform.Lawful) (hsiv : siv.Exact) (hplists : plists.Lawful)
    {baseitem item : CKKSItem δ ρ ω} {dict : ItemDictionary ω'}
    {olditem : Option (CKKSItem δ ρ ω)} {parentkey : CKKSKey} {randomKey : Option CKKSAESSIVKey}
    {nonce : Vector UInt8 CKKSAESSIVKey.nonceLength} (hup : Updatable platform baseitem olditem)
    (h : encryptCKKSItem siv plists platform keyCache baseitem dict olditem parentkey randomKey
      nonce = .ok (some item)) :
    ∃ merged, updatedDictionary siv plists platform keyCache dict olditem = .ok (some merged) ∧
      (∀ zoneID contextID, ∃ record kept read,
        item.CKRecordWithZoneID platform zoneID = .ok (record, kept) ∧
        initWithCKRecord platform record contextID = .ok read ∧
        DecryptsTo siv plists platform parentkey read merged) ∧
      (RowKeepsNumber platform baseitem → ∃ values row, ∃ read : CKKSItem δ ρ ω,
        item.sqlValues = .ok values ∧ savedRow platform values = some row ∧
        fromDatabaseRow row = .ok read ∧
        DecryptsTo siv plists platform parentkey read merged) ∧
      ∀ (reader : CKKSMemoryKeyCache) (other : CKKSItem δ ρ ω), other.encitem = item.encitem →
        Changed platform item other → ∀ found : ItemDictionary ω',
        decryptItemToDictionary siv plists platform reader other ≠ .ok (some found) := by
  obtain ⟨merged, hmerged, hmade⟩ := made_of_encryptCKKSItem hsiv hplists h
  have hstored := hmade.stored hplatform hup
  obtain ⟨-, hparent, hpcs, wrappedkey, encitem, hkey, hencitem⟩ := hmade.fields
  refine ⟨merged, hmerged, fun zoneID contextID => ?_, ?_, fun reader other hdata hchanged =>
    hmade.refuses hplatform hsiv hup hdata hchanged⟩
  · obtain ⟨record, kept, read, hwritten, hread, hreadKey, hreadData, hsame⟩ :=
      hstored.exists_record hparent hkey zoneID contextID
    exact ⟨record, kept, read, hwritten, hread, hmade.decryptsTo hsiv hreadKey hreadData hsame⟩
  · rintro ⟨number, hnumber, hvalue⟩
    rw [← hpcs] at hnumber
    rw [serviceNumber, ← hpcs] at hvalue
    obtain ⟨values, row, read, hvalues, hrow, hread, hreadKey, hreadData, hsame⟩ :=
      hstored.exists_row hparent hencitem hkey hnumber hvalue
    exact ⟨values, row, read, hvalues, hrow, hread,
      hmade.decryptsTo hsiv hreadKey hreadData hsame⟩
end

instance countable_uInt8 : Countable UInt8 := Function.Injective.countable fun _ _ => UInt8.toNat_inj.mp

instance countable_string : Countable String :=
  Function.Injective.countable (f := fun text => text.toList.map Char.toNat) fun _ _ h =>
    String.toList_inj.mp (List.map_injective_iff.mpr (fun _ _ => Char.toNat_inj.mp) h)

instance : Countable CKRecordID :=
  Function.Injective.countable
    (f := fun recordID : CKRecordID =>
      (recordID.recordName, recordID.zoneID.zoneName, recordID.zoneID.ownerName))
    fun ⟨_, _, _⟩ ⟨_, _, _⟩ h => by cases h; rfl

def plainValue :
    String ⊕ List UInt8 ⊕ Int ⊕ CKRecordID → CKRecordValue Empty Empty Empty
  | .inl text => .string text
  | .inr (.inl octets) => .data octets
  | .inr (.inr (.inl value)) => .number (.integer value)
  | .inr (.inr (.inr recordID)) => .reference recordID

instance : Countable (CKRecordValue Empty Empty Empty) :=
  Function.Surjective.countable (f := plainValue) fun value => by
    match value with
    | .string text => exact ⟨.inl text, rfl⟩
    | .data octets => exact ⟨.inr (.inl octets), rfl⟩
    | .number (.integer value) => exact ⟨.inr (.inr (.inl value)), rfl⟩
    | .reference recordID => exact ⟨.inr (.inr (.inr recordID)), rfl⟩

instance : Countable (PropertyListValue Empty) :=
  Function.Surjective.countable
    (f := fun value : String ⊕ List UInt8 => (value.elim .string .data : PropertyListValue Empty))
    fun value => by
      match value with
      | .string text => exact ⟨.inl text, rfl⟩
      | .data octets => exact ⟨.inr octets, rfl⟩

instance {κ ν : Type} [Countable κ] [Countable ν] : Countable (Dictionary κ ν) :=
  Function.Injective.countable (f := fun entries : Dictionary κ ν => entries.entries)
    fun _ _ => Finmap.ext

instance : Countable (CKRecord Empty Empty Empty) :=
  Function.Injective.countable
    (f := fun record : CKRecord Empty Empty Empty =>
      (record.recordType, record.recordID, record.fields))
    fun ⟨_, _, _⟩ ⟨_, _, _⟩ h => by cases h; rfl

section
variable {α : Type} [Countable α]

noncomputable def number (a : α) : Nat := (exists_injective_nat α).choose a

theorem number_injective : Function.Injective (number : α → Nat) :=
  (exists_injective_nat α).choose_spec

noncomputable def octetsOf (a : α) : List UInt8 := List.replicate (number a + 1) 0

open Classical in
noncomputable def valueOf (octets : List UInt8) : Option α :=
  if h : ∃ a : α, octetsOf a = octets then some h.choose else none

theorem octetsOf_injective : Function.Injective (octetsOf : α → List UInt8) := fun a b h =>
  number_injective (Nat.succ.inj (by simpa [octetsOf] using congrArg List.length h))

theorem valueOf_octetsOf (a : α) : valueOf (octetsOf a) = some a := by
  have h : ∃ b : α, octetsOf b = octetsOf a := ⟨a, rfl⟩
  rw [valueOf, dif_pos h, octetsOf_injective h.choose_spec]
end

noncomputable def samplePlatform : ItemPlatform Empty Empty Empty where
  encodeRecord := octetsOf
  decodeRecord := valueOf
  stringForDate := nofun
  unsignedReal := nofun
  columnReal := nofun
  hostOSVersion := ""

noncomputable def samplePlists : PropertyListSerialization Empty where
  dataWithPropertyList dict := some (octetsOf dict)
  propertyListWithData := valueOf

noncomputable def sampleSiv : CcSiv where
  encrypt _ nonce ad plaintext :=
    match nonce, ad with
    | none, [] => some (List.replicate 16 0 ++ plaintext)
    | none, _ => none
    | some _, ad => some (octetsOf (ad, plaintext))
  decrypt _ nonce ad ciphertext :=
    match nonce, ad with
    | none, [] => some (ciphertext.drop 16)
    | none, _ => none
    | some _, ad =>
      (valueOf ciphertext).bind fun found : List (List UInt8) × List UInt8 =>
        if found.1 = ad then some found.2 else none

theorem lawful_samplePlatform : samplePlatform.Lawful := ⟨valueOf_octetsOf⟩

theorem lawful_samplePlists : samplePlists.Lawful := by
  constructor
  rintro dict octets h
  cases h
  exact valueOf_octetsOf dict

theorem exact_sampleSiv : sampleSiv.Exact := by
  constructor
  · intro key nonce ad plaintext ciphertext h
    match nonce, ad with
    | none, [] =>
      cases h
      exact ⟨by simp, rfl⟩
    | some nonce, ad =>
      cases h
      refine ⟨by simp [octetsOf], ?_⟩
      change (valueOf (octetsOf (ad, plaintext))).bind _ = _
      rw [valueOf_octetsOf, Option.bind_some, if_pos rfl]
  · intro key nonce ad plaintext ciphertext h other ad' hne
    match nonce, ad with
    | none, [] =>
      match ad' with
      | [] => exact absurd rfl hne
      | _ :: _ => rfl
    | some nonce, ad =>
      cases h
      change (valueOf (octetsOf (ad, plaintext))).bind _ = _
      rw [valueOf_octetsOf, Option.bind_some, if_neg hne.symm]

def sampleKey : CKKSAESSIVKey := ⟨List.replicate CKKSKeySize 0, by simp⟩

def sampleParent : CKKSKey := ⟨"parent", some sampleKey⟩

def sampleNonce : Vector UInt8 CKKSAESSIVKey.nonceLength := Vector.replicate _ 0

def sampleItem : CKKSItem Empty Empty Empty where
  contextID := none
  zoneID := ⟨"zone", defaultOwnerName⟩
  ckRecordType := SecCKRecordItemType
  encodedCKRecord := none
  readCKRecord := none
  uuid := "item"
  parentKeyUUID := none
  encitem := none
  wrappedkey := none
  generationCount := 0
  encver := 0
  plaintextPCSServiceIdentifier := some (.integer 7)
  plaintextPCSPublicKey := none
  plaintextPCSPublicIdentity := none

theorem updatable_sampleItem : Updatable samplePlatform sampleItem none :=
  ⟨rfl, nofun, fun _ => Or.inl rfl⟩

theorem exists_encrypt_sampleItem : ∃ item, encryptCKKSItem sampleSiv samplePlists samplePlatform
    (fun _ _ _ => some sampleParent) sampleItem ∅ none sampleParent (some sampleKey) sampleNonce =
      .ok (some item) := by
  have hwrap : sampleKey.wrapAESKey sampleSiv sampleKey =
      some ⟨List.replicate 16 0 ++ sampleKey.key, by simp [sampleKey, CKKSKeySize,
        CKKSWrappedKeySize]⟩ := by
    simp [CKKSAESSIVKey.wrapAESKey, sampleSiv, sampleKey, CKKSKeySize, CKKSWrappedKeySize]
  exact exists_encryptCKKSItem rfl rfl hwrap rfl
    (by rw [Finmap.lookup_empty]; rfl) (fun _ _ => rfl) fun _ h => (Option.some_ne_none _ h.symm).elim

theorem decryptItemToDictionary_encryptCKKSItem_sample : ∃ item merged,
    encryptCKKSItem sampleSiv samplePlists samplePlatform (fun _ _ _ => some sampleParent)
      sampleItem ∅ none sampleParent (some sampleKey) sampleNonce = .ok (some item) ∧
    updatedDictionary sampleSiv samplePlists samplePlatform (fun _ _ _ => some sampleParent) ∅
      (none : Option (CKKSItem Empty Empty Empty)) = .ok (some merged) ∧
    ∀ zoneID contextID, ∃ record kept read,
      item.CKRecordWithZoneID samplePlatform zoneID = .ok (record, kept) ∧
      initWithCKRecord samplePlatform record contextID = .ok read ∧
      DecryptsTo sampleSiv samplePlists samplePlatform sampleParent read merged := by
  obtain ⟨item, hitem⟩ := exists_encrypt_sampleItem
  obtain ⟨merged, hmerged, hrecord, -⟩ := decryptItemToDictionary_encryptCKKSItem
    lawful_samplePlatform exact_sampleSiv lawful_samplePlists updatable_sampleItem hitem
  exact ⟨item, merged, hitem, hmerged, hrecord⟩

def referring : CKRecord Empty Empty Empty where
  recordType := SecCKRecordItemType
  recordID := ⟨"item", ⟨"zone", defaultOwnerName⟩⟩
  fields := Dictionary.assign "link" (some (.reference ⟨"other", ⟨"zone", defaultOwnerName⟩⟩)) ∅

theorem unknownFields_referring : unknownFields samplePlatform (some referring) = ∅ := by
  have hnone : (some (.reference ⟨"other", ⟨"zone", defaultOwnerName⟩⟩) :
      Option (CKRecordValue Empty Empty Empty)).bind (unknownField samplePlatform "link") = none :=
    unknownField_reference samplePlatform "link" ⟨"other", ⟨"zone", defaultOwnerName⟩⟩
  have hempty : ((∅ : Dictionary String (CKRecordValue Empty Empty Empty)).lookup "link").bind
      (unknownField samplePlatform "link") = none := by
    rw [Finmap.lookup_empty, Option.bind_none]
  exact (Dictionary.filterMap_assign hempty hnone).trans (Dictionary.filterMap_empty _)

/-- A field with an unknown key can be added and not be noticed. -/
theorem unknown_reference_unnoticed : ¬∀ (platform : ItemPlatform Empty Empty Empty)
    (siv : CcSiv) (plists : PropertyListSerialization Empty)
    (keyCache reader : CKKSMemoryKeyCache) (baseitem item other : CKKSItem Empty Empty Empty)
    (dict found : ItemDictionary Empty) (olditem : Option (CKKSItem Empty Empty Empty))
    (parentkey : CKKSKey) (randomKey : Option CKKSAESSIVKey)
    (nonce : Vector UInt8 CKKSAESSIVKey.nonceLength) (key : String),
    platform.Lawful → siv.Exact → plists.Lawful → Updatable platform baseitem olditem →
    encryptCKKSItem siv plists platform keyCache baseitem dict olditem parentkey randomKey nonce =
      .ok (some item) →
    other.encitem = item.encitem → key ∉ knownKeys →
    ((other.storedCKRecord platform).bind fun record => record.fields.lookup key) ≠
      ((item.storedCKRecord platform).bind fun record => record.fields.lookup key) →
    decryptItemToDictionary siv plists platform reader other ≠ .ok (some found) := by
  intro hall
  obtain ⟨item, hitem⟩ := exists_encrypt_sampleItem
  obtain ⟨merged, -, hmade⟩ := made_of_encryptCKKSItem exact_sampleSiv lawful_samplePlists hitem
  obtain ⟨wrappedkey, encryptedItem, encitem, hold, rfl⟩ := hmade.prepared
  cases hold
  refine hall samplePlatform sampleSiv samplePlists (fun _ _ _ => some sampleParent)
    (fun _ _ _ => some sampleParent) sampleItem _
    { preparedItem sampleItem none sampleParent wrappedkey with
      encitem := some encitem, readCKRecord := some referring }
    ∅ merged none sampleParent (some sampleKey) sampleNonce "link" lawful_samplePlatform
    exact_sampleSiv lawful_samplePlists updatable_sampleItem hitem rfl (by decide) ?_ ?_
  · intro heq
    have hlink : referring.fields.lookup "link" = none := heq
    rw [referring, Dictionary.lookup_assign] at hlink
    cases hlink
  · refine hmade.decryptsTo exact_sampleSiv rfl rfl ⟨rfl, rfl, rfl, rfl, rfl, rfl, rfl, ?_⟩
      (fun _ _ _ => some sampleParent) rfl
    exact unknownFields_referring
end CKKSItemEncrypter
end SecurityFramework
