import SecurityFramework.Ckks.CKKSSIV
import SecurityFramework.Library.CText
import SecurityFramework.Library.DerStandard
import SecurityFramework.Sec.SecCbor

/-!
# Items of a keychain view

An item can be written to a CloudKit record, new or stored, and to a row of a table.
-/

namespace SecurityFramework
structure CKRecordZoneID where
  zoneName : String
  ownerName : String
  deriving DecidableEq

structure CKRecordID where
  recordName : String
  zoneID : CKRecordZoneID
  deriving DecidableEq

/-- A number that is an integer, or one of the numbers `ρ` that are not. -/
inductive NSNumber (ρ : Type)
  | integer (value : Int)
  | real (value : ρ)
  deriving DecidableEq

/-- A field of a record. What is none of these is an array, a location or an asset. -/
inductive CKRecordValue (δ ρ ω : Type)
  | string (value : String)
  | data (value : List UInt8)
  | date (value : δ)
  | number (value : NSNumber ρ)
  | reference (recordID : CKRecordID)
  | other (value : ω)
  deriving DecidableEq

structure CKRecord (δ ρ ω : Type) where
  recordType : String
  recordID : CKRecordID
  fields : Dictionary String (CKRecordValue δ ρ ω)
  deriving DecidableEq

/-- The archive of a record, the text of a date, and numbers that are not integers, as they are
converted and as they are read back from a row. -/
structure ItemPlatform (δ ρ ω : Type) where
  encodeRecord : CKRecord δ ρ ω → List UInt8
  decodeRecord : List UInt8 → Option (CKRecord δ ρ ω)
  stringForDate : δ → String
  unsignedReal : ρ → UInt64
  columnReal : ρ → String
  hostOSVersion : String

structure ItemPlatform.Lawful {δ ρ ω : Type} (platform : ItemPlatform δ ρ ω) : Prop where
  decode_encode (record : CKRecord δ ρ ω) :
    platform.decodeRecord (platform.encodeRecord record) = some record

def utf8Octets (text : String) : List UInt8 := Cbor.utf8 text.toList

def littleEndian64 (value : UInt64) : List UInt8 :=
  (DER.Standard.bigEndian 8 value.toNat).reverse

/-- `unsignedLongLongValue`, which `unsignedLongValue` and `unsignedIntegerValue` are too. -/
def NSNumber.unsignedLongLongValue {ρ : Type} (unsignedReal : ρ → UInt64) : NSNumber ρ → UInt64
  | .integer value => (Int64.ofInt value).toUInt64
  | .real value => unsignedReal value

def numberWithInteger {ρ : Type} (value : UInt64) : NSNumber ρ := .integer value.toInt64.toInt

def CKKSItemEncryptionVersion1 : UInt64 := 1

def CKKSItemEncryptionVersion2 : UInt64 := 2

def currentCKKSItemEncryptionVersion : UInt64 := CKKSItemEncryptionVersion2

def SecCKRecordItemType : String := "item"

structure CKKSItem (δ ρ ω : Type) where
  contextID : Option String
  zoneID : CKRecordZoneID
  ckRecordType : String
  encodedCKRecord : Option (List UInt8)
  /-- `_storedCKRecord`, nil until the archive is read. -/
  readCKRecord : Option (CKRecord δ ρ ω)
  uuid : String
  parentKeyUUID : Option String
  encitem : Option (List UInt8)
  wrappedkey : Option CKKSWrappedAESSIVKey
  generationCount : UInt64
  encver : UInt64
  plaintextPCSServiceIdentifier : Option (NSNumber ρ)
  plaintextPCSPublicKey : Option (List UInt8)
  plaintextPCSPublicIdentity : Option (List UInt8)

namespace CKKSItem
variable {δ ρ ω : Type} (platform : ItemPlatform δ ρ ω)

def initCopyingCKKSItem (item : CKKSItem δ ρ ω) : CKKSItem δ ρ ω :=
  { item with readCKRecord := none }

def storedCKRecord (item : CKKSItem δ ρ ω) : Option (CKRecord δ ρ ω) :=
  item.readCKRecord.or (item.encodedCKRecord.bind platform.decodeRecord)

def setStoredCKRecord (item : CKKSItem δ ρ ω) (record : CKRecord δ ρ ω) : CKKSItem δ ρ ω :=
  { item with
    zoneID := record.recordID.zoneID
    ckRecordType := record.recordType
    encodedCKRecord := some (platform.encodeRecord record)
    readCKRecord := some record }

def assignments (item : CKKSItem δ ρ ω) (parentKey : CKRecordID) :
    List (String × Option (CKRecordValue δ ρ ω)) :=
  [("parentkeyref", some (.reference parentKey)),
    ("uploadver", some (.string platform.hostOSVersion)),
    ("data", item.encitem.map .data),
    ("wrappedkey", item.wrappedkey.map fun key => .string key.base64WrappedKey),
    ("gen", some (.number (numberWithInteger item.generationCount))),
    ("encver", some (.number (numberWithInteger item.encver))),
    ("pcsservice", item.plaintextPCSServiceIdentifier.map .number),
    ("pcspublickey", item.plaintextPCSPublicKey.map .data),
    ("pcspublicidentity", item.plaintextPCSPublicIdentity.map .data)]

/-- `updateCKRecord:zoneID:`. A record ID without a name cannot be made. -/
def updateCKRecord (item : CKKSItem δ ρ ω) (record : CKRecord δ ρ ω) (zoneID : CKRecordZoneID) :
    Except NSException (CKRecord δ ρ ω) :=
  if record.recordType ≠ SecCKRecordItemType then .error .wrongCKRecordType
  else
    match item.parentKeyUUID with
    | none => .error .invalidArgument
    | some parentKeyUUID =>
      let assignments := item.assignments platform ⟨parentKeyUUID, zoneID⟩
      .ok { record with fields := Dictionary.assignAll assignments record.fields }

def originalRecord (item : CKKSItem δ ρ ω) (zoneID : CKRecordZoneID) : Option (CKRecord δ ρ ω) :=
  match item.encodedCKRecord with
  | none => some ⟨item.ckRecordType, ⟨item.uuid, zoneID⟩, ∅⟩
  | some _ => item.storedCKRecord platform

def CKRecordWithZoneID [DecidableEq (CKRecord δ ρ ω)] (item : CKKSItem δ ρ ω)
    (zoneID : CKRecordZoneID) : Except NSException (CKRecord δ ρ ω × CKKSItem δ ρ ω) :=
  match item.originalRecord platform zoneID with
  | none => .error .wrongCKRecordType
  | some originalRecord => do
    let record ← item.updateCKRecord platform originalRecord zoneID
    if record = originalRecord then .ok (record, item)
    else .ok (record, item.setStoredCKRecord platform record)

def referenceName : Option (CKRecordValue δ ρ ω) → Except NSException (Option String)
  | none => .ok none
  | some (.reference recordID) => .ok (some recordID.recordName)
  | some _ => .error .unrecognizedSelector

def dataField : Option (CKRecordValue δ ρ ω) → Except NSException (Option (List UInt8))
  | none => .ok none
  | some (.data value) => .ok (some value)
  | some _ => .error .unrecognizedSelector

def numberField : Option (CKRecordValue δ ρ ω) → Except NSException (Option (NSNumber ρ))
  | none => .ok none
  | some (.number value) => .ok (some value)
  | some _ => .error .unrecognizedSelector

/-- A record without a wrapped key is bad, and is read with a key of zeroes. -/
def wrappedKeyField :
    Option (CKRecordValue δ ρ ω) → Except NSException (Option CKKSWrappedAESSIVKey)
  | none => .ok (some CKKSWrappedAESSIVKey.zeroedKey)
  | some (.string text) => CKKSWrappedAESSIVKey.initWithBase64 text
  | some _ => .error .unrecognizedSelector

def unsignedField (value : Option (NSNumber ρ)) : UInt64 :=
  (value.map (NSNumber.unsignedLongLongValue platform.unsignedReal)).getD 0

def initWithCKRecord (record : CKRecord δ ρ ω) (contextID : Option String) :
    Except NSException (CKKSItem δ ρ ω) :=
  if record.recordType ≠ SecCKRecordItemType then .error .wrongCKRecordType
  else do
    let parentKeyUUID ← referenceName (record.fields.lookup "parentkeyref")
    let encitem ← dataField (record.fields.lookup "data")
    let wrappedkey ← wrappedKeyField (record.fields.lookup "wrappedkey")
    let generationCount ← numberField (record.fields.lookup "gen")
    let encver ← numberField (record.fields.lookup "encver")
    let pcsServiceIdentifier ← numberField (record.fields.lookup "pcsservice")
    let pcsPublicKey ← dataField (record.fields.lookup "pcspublickey")
    let pcsPublicIdentity ← dataField (record.fields.lookup "pcspublicidentity")
    .ok {
      contextID := contextID
      zoneID := record.recordID.zoneID
      ckRecordType := record.recordType
      encodedCKRecord := some (platform.encodeRecord record)
      readCKRecord := some record
      uuid := record.recordID.recordName
      parentKeyUUID := parentKeyUUID
      encitem := encitem
      wrappedkey := wrappedkey
      generationCount := unsignedField platform generationCount
      encver := unsignedField platform encver
      plaintextPCSServiceIdentifier := pcsServiceIdentifier
      plaintextPCSPublicKey := pcsPublicKey
      plaintextPCSPublicIdentity := pcsPublicIdentity }

def knownKeys : List String :=
  ["UUID", "uploadver", "data", "wrappedkey", "gen", "encver", "pcsservice", "pcspublickey",
    "pcspublicidentity"]

/-- What of a field with an unknown key is authenticated. References, arrays, locations and assets
are skipped. -/
def unknownField (key : String) (value : CKRecordValue δ ρ ω) : Option (List UInt8) :=
  if key ∈ knownKeys ∨ "server_".toList.isPrefixOf key.toList then none
  else
    match value with
    | .string text => some (utf8Octets text)
    | .data octets => some octets
    | .date date => some (utf8Octets (platform.stringForDate date))
    | .number number => some (littleEndian64 (number.unsignedLongLongValue platform.unsignedReal))
    | .reference _ | .other _ => none

def unknownFields (record : Option (CKRecord δ ρ ω)) : Dictionary String (List UInt8) :=
  match record with
  | none => ∅
  | some record => Dictionary.filterMap (unknownField platform) record.fields

def ownAssignments (item : CKKSItem δ ρ ω) : List (String × Option (List UInt8)) :=
  [("UUID", some (utf8Octets item.uuid)), ("wrappedkey", item.parentKeyUUID.map utf8Octets),
    ("gen", some (littleEndian64 item.generationCount)),
    ("encver", some (littleEndian64 item.encver))]

/-- What the second version assigns besides: it authenticates the PCS fields too. -/
def pcsAssignments (item : CKKSItem δ ρ ω) : List (String × Option (List UInt8)) :=
  [("pcsservice", item.plaintextPCSServiceIdentifier.map fun number =>
      littleEndian64 (number.unsignedLongLongValue platform.unsignedReal)),
    ("pcspublickey", item.plaintextPCSPublicKey),
    ("pcspublicidentity", item.plaintextPCSPublicIdentity)]

def makeAuthenticatedDataDictionaryEncVer1 (item : CKKSItem δ ρ ω) :
    Dictionary String (List UInt8) :=
  Dictionary.assignAll item.ownAssignments ∅

def knownFields (item : CKKSItem δ ρ ω) : Dictionary String (List UInt8) :=
  Dictionary.assignAll (item.pcsAssignments platform) item.makeAuthenticatedDataDictionaryEncVer1

/-- `makeAuthenticatedDataDictionaryUpdatingCKKSItemEncVer2:`, with the stored record of the old
item. No unknown field has a key that was assigned before. -/
def makeAuthenticatedDataDictionaryEncVer2 (item : CKKSItem δ ρ ω)
    (oldRecord : Option (CKRecord δ ρ ω)) : Dictionary String (List UInt8) :=
  Dictionary.overlay (unknownFields platform oldRecord) (item.knownFields platform)

def makeAuthenticatedDataDictionary (item : CKKSItem δ ρ ω) (oldRecord : Option (CKRecord δ ρ ω))
    (encver : UInt64) : Except NSException (Dictionary String (List UInt8)) :=
  if encver = CKKSItemEncryptionVersion1 then .ok item.makeAuthenticatedDataDictionaryEncVer1
  else if encver = CKKSItemEncryptionVersion2 then
    .ok (item.makeAuthenticatedDataDictionaryEncVer2 platform oldRecord)
  else .error .wrongEncryptionVersion
end CKKSItem

/-- A row, by the texts of its columns. The identifier of the service is a number when the row is
written. -/
structure CKKSItemRow (π : Type) where
  contextID : Option String
  UUID : String
  parentKeyUUID : Option String
  ckzone : String
  encitem : Option String
  wrappedkey : Option String
  gencount : Option String
  encver : Option String
  ckrecord : Option String
  pcss : Option π
  pcsk : Option String
  pcsi : Option String

namespace CKKSItem
variable {δ ρ ω : Type} (platform : ItemPlatform δ ρ ω)

def base64Text (octets : List UInt8) : String := String.ofList (Base64.encode octets)

/-- `sqlValues`. A dictionary cannot be made with nil. -/
def sqlValues (item : CKKSItem δ ρ ω) : Except NSException (CKKSItemRow (NSNumber ρ)) :=
  match item.parentKeyUUID, item.encitem, item.wrappedkey with
  | some parentKeyUUID, some encitem, some wrappedkey =>
    .ok {
      contextID := item.contextID
      UUID := item.uuid
      parentKeyUUID := some parentKeyUUID
      ckzone := item.zoneID.zoneName
      encitem := some (base64Text encitem)
      wrappedkey := some wrappedkey.base64WrappedKey
      gencount := some item.generationCount.toInt64.toInt.repr
      encver := some item.encver.toInt64.toInt.repr
      ckrecord := item.encodedCKRecord.map base64Text
      pcss := item.plaintextPCSServiceIdentifier
      pcsk := item.plaintextPCSPublicKey.map base64Text
      pcsi := item.plaintextPCSPublicIdentity.map base64Text }
  | _, _, _ => .error .invalidArgument

/-- `SecDbBindObject` of a number, and the text of the column. An integer that has no 64 bits with
sign is not bound. -/
def columnText : NSNumber ρ → Option String
  | .integer value =>
    if -2 ^ 63 ≤ value ∧ value < 2 ^ 63 then some value.repr else none
  | .real value => some (platform.columnReal value)

def savedRow (row : CKKSItemRow (NSNumber ρ)) : Option (CKKSItemRow String) :=
  match row.pcss with
  | none => some { row with pcss := none }
  | some number => (columnText platform number).map fun text => { row with pcss := some text }

def decodedData (column : Option String) : Option (List UInt8) :=
  column.bind fun text => Base64.decode text.toList

def integerValue (text : String) : Int := CText.strtol text.toList

def unsignedColumn (column : Option String) : UInt64 :=
  (Int64.ofInt ((column.map integerValue).getD 0)).toUInt64

def wrappedKeyColumn (column : Option String) :
    Except NSException (Option CKKSWrappedAESSIVKey) :=
  match column with
  | none => .ok none
  | some text => CKKSWrappedAESSIVKey.initWithBase64 text

def defaultOwnerName : String := "__defaultOwner__"

def fromDatabaseRow (row : CKKSItemRow String) : Except NSException (CKKSItem δ ρ ω) := do
  let wrappedkey ← wrappedKeyColumn row.wrappedkey
  .ok {
    contextID := row.contextID
    zoneID := ⟨row.ckzone, defaultOwnerName⟩
    ckRecordType := SecCKRecordItemType
    encodedCKRecord := decodedData row.ckrecord
    readCKRecord := none
    uuid := row.UUID
    parentKeyUUID := row.parentKeyUUID
    encitem := decodedData row.encitem
    wrappedkey := wrappedkey
    generationCount := unsignedColumn row.gencount
    encver := unsignedColumn row.encver
    plaintextPCSServiceIdentifier := row.pcss.map fun text => .integer (integerValue text)
    plaintextPCSPublicKey := decodedData row.pcsk
    plaintextPCSPublicIdentity := decodedData row.pcsi }
end CKKSItem
end SecurityFramework

namespace SecurityFramework
/-- A value of a property list. What is neither a string nor data is of `ω`. -/
inductive PropertyListValue (ω : Type)
  | string (value : String)
  | data (value : List UInt8)
  | other (value : ω)

abbrev ItemDictionary (ω : Type) := Dictionary String (PropertyListValue ω)

structure PropertyListSerialization (ω : Type) where
  dataWithPropertyList : ItemDictionary ω → Option (List UInt8)
  propertyListWithData : List UInt8 → Option (ItemDictionary ω)

structure PropertyListSerialization.Lawful {ω : Type} (plists : PropertyListSerialization ω) :
    Prop where
  read_back {dict octets} : plists.dataWithPropertyList dict = some octets →
    plists.propertyListWithData octets = some dict

/-- A key of the hierarchy. Its core is nil where it cannot be loaded from the keychain. -/
structure CKKSKey where
  uuid : String
  keycore : Option CKKSAESSIVKey

abbrev CKKSMemoryKeyCache :=
  Option String → Option String → CKRecordZoneID → Option CKKSKey

namespace CKKSItemEncrypter
def SecCKKSItemPaddingBlockSize : Nat := 20

def CKKS_PADDING_MARK_BYTE : UInt8 := 0x80

def padData (input : List UInt8) (blockSize : Nat) (extra : Bool) : List UInt8 :=
  let blockSize := if blockSize = 0 then 1 else blockSize
  let paddingLength := blockSize - input.length % blockSize
  let paddingLength := if extra then paddingLength + blockSize else paddingLength
  input ++ CKKS_PADDING_MARK_BYTE :: List.replicate (paddingLength - 1) 0

def removePadding : List UInt8 → Option (List UInt8)
  | [] => none
  | octet :: before =>
    if octet = 0 then removePadding before
    else if octet = CKKS_PADDING_MARK_BYTE then some before.reverse
    else none

def removePaddingFromData (input : List UInt8) : Option (List UInt8) := removePadding input.reverse

theorem removePadding_replicate (count : Nat) (before : List UInt8) :
    removePadding (List.replicate count 0 ++ before) = removePadding before := by
  induction count with
  | zero => rfl
  | succ count ih => rw [List.replicate_succ, List.cons_append, removePadding, if_pos rfl, ih]

theorem removePaddingFromData_padData (input : List UInt8) (blockSize : Nat) (extra : Bool) :
    removePaddingFromData (padData input blockSize extra) = some input := by
  have hmark : CKKS_PADDING_MARK_BYTE ≠ 0 := by decide
  rw [removePaddingFromData, padData, List.reverse_append, List.reverse_cons,
    List.reverse_replicate, List.append_assoc, removePadding_replicate, List.singleton_append,
    removePadding, if_neg hmark, if_pos rfl, List.reverse_reverse]

section
variable {ω : Type} (siv : CcSiv) (plists : PropertyListSerialization ω)

/-- `length`, which data and strings answer and nil does too. -/
def lengthOfValue : Option (PropertyListValue ω) → Except NSException Nat
  | none => .ok 0
  | some (.string value) => .ok (utf16Length value.toList)
  | some (.data value) => .ok value.length
  | some (.other _) => .error .unrecognizedSelector

def encryptDictionary (dict : ItemDictionary ω) (key : CKKSAESSIVKey)
    (nonce : Vector UInt8 CKKSAESSIVKey.nonceLength) (ad : Dictionary String (List UInt8)) :
    Except NSException (Option (List UInt8)) :=
  match plists.dataWithPropertyList dict with
  | none => .ok none
  | some data => do
    let length ← lengthOfValue (dict.lookup "v_Data")
    let padded := padData data SecCKKSItemPaddingBlockSize (length < SecCKKSItemPaddingBlockSize)
    .ok (key.encryptData siv nonce padded ad)

def decryptDictionary (encitem : List UInt8) (key : CKKSAESSIVKey)
    (ad : Dictionary String (List UInt8)) : Option (ItemDictionary ω) := do
  let plaintext ← key.decryptData siv encitem ad
  let plaintext ← removePaddingFromData plaintext
  plists.propertyListWithData plaintext
end

section
variable {δ ρ ω ω' : Type} (siv : CcSiv) (plists : PropertyListSerialization ω')
  (platform : ItemPlatform δ ρ ω) (keyCache : CKKSMemoryKeyCache)

/-- `unwrapAESKey:` of a key. A wrapped key that is nil is dereferenced. -/
def unwrapItemKey (key : CKKSKey) (wrappedkey : Option CKKSWrappedAESSIVKey) :
    Except NSException (Option CKKSAESSIVKey) :=
  match key.keycore with
  | none => .ok none
  | some keycore =>
    match wrappedkey with
    | none => .error .nullDereference
    | some wrappedkey => .ok (keycore.unwrapAESKey siv wrappedkey)

/-- `decryptItemToDictionaryVersion1or2:`. The item is passed as the futureproofed object. Data
that are nil are too short. -/
def decryptItemToDictionaryVersion1or2 (item : CKKSItem δ ρ ω) :
    Except NSException (Option (ItemDictionary ω')) :=
  match keyCache item.parentKeyUUID item.contextID item.zoneID with
  | none => .ok none
  | some key => do
    match ← unwrapItemKey siv key item.wrappedkey with
    | none => .ok none
    | some itemkey =>
      let ad ← item.makeAuthenticatedDataDictionary platform (item.storedCKRecord platform)
        item.encver
      .ok (decryptDictionary siv plists (item.encitem.getD []) itemkey ad)

def decryptItemToDictionary (item : CKKSItem δ ρ ω) :
    Except NSException (Option (ItemDictionary ω')) :=
  if item.encver = CKKSItemEncryptionVersion1 ∨ item.encver = CKKSItemEncryptionVersion2 then
    decryptItemToDictionaryVersion1or2 siv plists platform keyCache item
  else .ok none

def updatedDictionary (dict : ItemDictionary ω') (olditem : Option (CKKSItem δ ρ ω)) :
    Except NSException (Option (ItemDictionary ω')) :=
  match olditem with
  | none => .ok (some dict)
  | some olditem => do
    let oldDictionary ← decryptItemToDictionary siv plists platform keyCache olditem
    .ok (oldDictionary.map fun oldDictionary => dict.overlay oldDictionary)

def encryptionVersion (olditem : Option (CKKSItem δ ρ ω)) : UInt64 :=
  if olditem.map (·.encver) = some CKKSItemEncryptionVersion2 ∧
      CKKSItemEncryptionVersion2 ≥ currentCKKSItemEncryptionVersion then
    CKKSItemEncryptionVersion2
  else currentCKKSItemEncryptionVersion

def withOldRecord (encryptedItem : CKKSItem δ ρ ω) (oldRecord : Option (CKRecord δ ρ ω)) :
    Except NSException (CKKSItem δ ρ ω) :=
  match oldRecord with
  | none => .ok encryptedItem
  | some oldRecord => do
    let record ← encryptedItem.updateCKRecord platform oldRecord oldRecord.recordID.zoneID
    .ok (encryptedItem.setStoredCKRecord platform record)

def oldRecord (olditem : Option (CKKSItem δ ρ ω)) : Option (CKRecord δ ρ ω) :=
  olditem.bind fun olditem => olditem.storedCKRecord platform

def preparedItem (baseitem : CKKSItem δ ρ ω) (olditem : Option (CKKSItem δ ρ ω))
    (parentkey : CKKSKey) (wrappedkey : CKKSWrappedAESSIVKey) : CKKSItem δ ρ ω :=
  { baseitem.initCopyingCKKSItem with
    parentKeyUUID := some parentkey.uuid
    wrappedkey := some wrappedkey
    encver := encryptionVersion olditem }

def encryptWithKey (baseitem : CKKSItem δ ρ ω) (dict : ItemDictionary ω')
    (olditem : Option (CKKSItem δ ρ ω)) (parentkey : CKKSKey) (itemkey : CKKSAESSIVKey)
    (wrappedkey : CKKSWrappedAESSIVKey) (nonce : Vector UInt8 CKKSAESSIVKey.nonceLength) :
    Except NSException (Option (CKKSItem δ ρ ω)) := do
  let encryptedItem ← withOldRecord platform (preparedItem baseitem olditem parentkey wrappedkey)
    (oldRecord platform olditem)
  let ad ← encryptedItem.makeAuthenticatedDataDictionary platform (oldRecord platform olditem)
    encryptedItem.encver
  let encitem ← encryptDictionary siv plists dict itemkey nonce ad
  .ok (encitem.map fun encitem => { encryptedItem with encitem := some encitem })

/-- `encryptCKKSItem:dataDictionary:updatingCKKSItem:parentkey:keyCache:`, with the key and the
nonce that are generated. -/
def encryptCKKSItem (baseitem : CKKSItem δ ρ ω) (dict : ItemDictionary ω')
    (olditem : Option (CKKSItem δ ρ ω)) (parentkey : CKKSKey) (randomKey : Option CKKSAESSIVKey)
    (nonce : Vector UInt8 CKKSAESSIVKey.nonceLength) :
    Except NSException (Option (CKKSItem δ ρ ω)) := do
  match ← updatedDictionary siv plists platform keyCache dict olditem with
  | none => .ok none
  | some dict =>
    let wrapped := do
      let parentBackedKey ← parentkey.keycore
      let itemkey ← randomKey
      let wrappedkey ← parentBackedKey.wrapAESKey siv itemkey
      some (itemkey, wrappedkey)
    match wrapped with
    | none => .ok none
    | some (itemkey, wrappedkey) =>
      encryptWithKey siv plists platform baseitem dict olditem parentkey itemkey wrappedkey nonce
end
end CKKSItemEncrypter
end SecurityFramework
