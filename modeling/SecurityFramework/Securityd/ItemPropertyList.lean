import Mathlib.Algebra.Group.Int.Defs
import Mathlib.Data.List.Nodup
import Mathlib.Data.Rat.Defs
import SecurityFramework.Securityd.SecDbItem

/-!
# Property lists of items

An item has values for attributes of its class, in the order of the class.
-/

namespace SecurityFramework.PropertyList
inductive CFObject where
  | plain (value : CFType)
  | date (time : ℚ)
  | uuid (octets : { octets : List UInt8 // octets.length = 16 })
  deriving DecidableEq

def CFObject.null : CFObject := .plain .null

def cfUUIDCreateString (octets : List UInt8) : CFString :=
  let digits := octets.flatMap fun octet =>
    [octet.toNat / 16, octet.toNat % 16].map fun digit => (Nat.digitChar digit).toUpper
  cfstr (String.ofList (digits.take 8 ++ '-' :: (digits.drop 8).take 4 ++
    '-' :: (digits.drop 12).take 4 ++ '-' :: (digits.drop 16).take 4 ++ '-' :: digits.drop 20))

/-- `CFStringGetIntValue`: the number a string begins with, as far as 32 bits go. -/
def cfStringGetIntValue (string : CFString) : Int :=
  let string := string.dropWhile fun unit => unit = 0x20
  let negative := string.head? = some 0x2D
  let digits := (if negative then string.tail else string).takeWhile fun unit =>
    0x30 ≤ unit && unit ≤ 0x39
  let value : Int := digits.foldl (fun value unit => 10 * value + (unit.toNat - 0x30)) 0
  if negative then max (-value) (-2 ^ 31) else min value (2 ^ 31 - 1)

/-- A string that is not how its number is written is kept. -/
def copyNumber : CFType → Option CFType
  | .string s =>
    let value := cfStringGetIntValue s
    some (if cfstr (toString value) = s then .number value else .string s)
  | value => SecurityFramework.copyNumber value

inductive SecDbAttrKind where
  | blob
  | data
  | string
  | number
  | date
  | creationDate
  | modificationDate
  | sha1
  | rowId
  | encryptedData
  | primaryKey
  | sync
  | tomb
  | utomb
  | access
  | accessControl
  | uuid
  deriving DecidableEq

def SecDbAttrKind.convert : SecDbAttrKind → CFObject → Option CFObject
  | .primaryKey, .plain value | .data, .plain value | .encryptedData, .plain value =>
    (copyData value).map fun octets => .plain (.data octets)
  | .blob, .plain value | .accessControl, .plain value => (copyBlob value).map .plain
  | .date, .date time | .creationDate, .date time | .modificationDate, .date time =>
    some (.date time)
  | .number, .plain value | .sync, .plain value | .tomb, .plain value | .rowId, .plain value =>
    (copyNumber value).map .plain
  | .access, .plain value | .string, .plain value => (copyString value).map .plain
  | .access, .uuid octets | .string, .uuid octets =>
    some (.plain (.string (cfUUIDCreateString octets)))
  | .sha1, .plain (.data octets) =>
    if octets.length = 20 then some (.plain (.data octets)) else none
  | .utomb, .plain (.boolean b) => some (.plain (.boolean b))
  | .uuid, .plain value => (copyUUID value).map .plain
  | .uuid, .uuid octets => some (.plain (.data octets))
  | _, _ => none

inductive SecDbFlag where
  | primaryKey
  | returnData
  | inCryptoData
  | inHash
  | default0
  | defaultEmpty
  | notNull
  | inAuthenticatedData
  | syncSOSCannotSync
  deriving DecidableEq

/-- An attribute whose value may be the current date. Of the attributes that are computed from
others nothing is said, as they are in no list. -/
structure SecDbAttr where
  name : String
  kind : SecDbAttrKind
  flags : List SecDbFlag
  copiesCurrentDate : Bool
  deriving DecidableEq

def SecDbAttr.Listed (attr : SecDbAttr) : Prop :=
  .returnData ∈ attr.flags ∨ .inCryptoData ∈ attr.flags ∨ .inAuthenticatedData ∈ attr.flags

instance (attr : SecDbAttr) : Decidable attr.Listed :=
  inferInstanceAs (Decidable (_ ∨ _ ∨ _))

def SecDbAttr.Wanted (attr : SecDbAttr) : Prop :=
  attr.Listed ∧ .syncSOSCannotSync ∉ attr.flags

instance (attr : SecDbAttr) : Decidable attr.Wanted :=
  inferInstanceAs (Decidable (_ ∧ _))

def kSecClass : String := "class"

/-- A class of items: the attributes have names of their own, those that are computed are not
listed, and those of the primary key are wanted. -/
structure SecDbClass where
  name : CFString
  attrs : List SecDbAttr
  distinct : (attrs.map SecDbAttr.name).Nodup
  unnamed : ∀ attr ∈ attrs, attr.name ≠ kSecClass
  computed : ∀ attr ∈ attrs, attr.kind = .sha1 ∨ attr.kind = .primaryKey → ¬attr.Listed
  keyed : ∀ attr ∈ attrs, .primaryKey ∈ attr.flags → attr.Wanted

/-- `SecDbClassAttrWithKind`: the last one. -/
def SecDbClass.attrWithKind (cls : SecDbClass) (kind : SecDbAttrKind) : Option SecDbAttr :=
  (cls.attrs.filter fun attr => attr.kind = kind).getLast?

abbrev CFDictionary := String → Option CFObject

/-- An item with the attributes that it has, also those that are still encrypted, and whether what
is encrypted with the metadata key and with the class key can be decrypted. -/
structure SecDbItem where
  cls : SecDbClass
  attributes : CFDictionary
  metadata : Bool
  secretData : Bool

inductive PropertyListError where
  | classMissing
  | noSuchClass (name : CFObject)
  | invalidValue (attr : String)
  | nullValue (attr : String)
  | notRead (attr : String)
  deriving DecidableEq

namespace SecDbItem
section
variable (item : SecDbItem)

def SecDbItemEnsureDecrypted (decryptSecretData : Bool) : Bool :=
  item.metadata && (!decryptSecretData || item.secretData)

def SecDbItemCopyValue (now : ℚ) (attr : SecDbAttr) : Option CFObject :=
  let dataDefault :=
    if .notNull ∈ attr.flags ∧ .defaultEmpty ∈ attr.flags then .plain (.data []) else .null
  if attr.copiesCurrentDate then
    match attr.kind with
    | .date => some (.date 0)
    | .creationDate | .modificationDate => some (.date now)
    | _ => none
  else
    match attr.kind with
    | .sha1 | .encryptedData | .primaryKey => none
    | .access | .string | .blob | .accessControl =>
      if .notNull ∈ attr.flags ∧ .default0 ∈ attr.flags then some (.plain (.string (cfstr "0")))
      else if .notNull ∈ attr.flags ∧ attr.kind ≠ .blob ∧ .defaultEmpty ∈ attr.flags then
        some (.plain (.string (cfstr "")))
      else some dataDefault
    | .data => some dataDefault
    | .uuid => some (.plain (.data []))
    | .number | .sync | .tomb =>
      some (if .notNull ∈ attr.flags then .plain (.number 0) else .null)
    | .date =>
      some (if .notNull ∈ attr.flags ∧ .default0 ∈ attr.flags then .date 0 else .null)
    | .rowId | .utomb => some .null
    | .creationDate | .modificationDate => some (.date now)

/-- What an attribute is. A value that is not null is set, which takes that all of the item is
decrypted, and is found there the next time. -/
def SecDbItemGetValue (now : ℚ) (desc : SecDbAttr) : Option CFObject :=
  if desc.Listed ∧ ¬item.SecDbItemEnsureDecrypted (.returnData ∈ desc.flags) then none
  else
    match item.attributes desc.name with
    | some value => some value
    | none =>
      match SecDbItemCopyValue now desc with
      | none => none
      | some value =>
        if value = .null then some .null
        else if (.inCryptoData ∈ desc.flags ∨ .inAuthenticatedData ∈ desc.flags) ∧
            ¬item.SecDbItemEnsureDecrypted true then none
        else desc.kind.convert value

def put (name : String) (value : Option CFObject) : SecDbItem :=
  { item with attributes := Function.update item.attributes name value }

def forget (kind : SecDbAttrKind) : SecDbItem :=
  match item.cls.attrWithKind kind with
  | none => item
  | some attr => item.put attr.name none

def SecDbItemSetValue (desc : SecDbAttr) (value : CFObject) : Except PropertyListError SecDbItem :=
  if (.inCryptoData ∈ desc.flags ∨ .inAuthenticatedData ∈ desc.flags) ∧
      ¬item.SecDbItemEnsureDecrypted true then
    .error (.notRead desc.name)
  else
    let converted := desc.kind.convert value
    if converted = none ∧ value ≠ .null then .error (.invalidValue desc.name)
    else
      let changed := item.attributes desc.name ≠ converted
      let item := item.put desc.name converted
      let item := if changed ∧ .inHash ∈ desc.flags then item.forget .sha1 else item
      .ok (if changed ∧ .primaryKey ∈ desc.flags then item.forget .primaryKey else item)

def SecDbItemSetValues (values : CFDictionary) :
    List SecDbAttr → SecDbItem → Except PropertyListError SecDbItem
  | [], item => .ok item
  | attr :: attrs, item =>
    match values attr.name with
    | none => SecDbItemSetValues values attrs item
    | some value =>
      match item.SecDbItemSetValue attr value with
      | .error error => .error error
      | .ok item => SecDbItemSetValues values attrs item

/-- `SecDbItemCopyPListWithFlagAndSkip`, for these attributes and what is in the list already. An
attribute with a flag to skip ends the loop. -/
def SecDbItemCopyPListWithFlagAndSkip (now : ℚ) (mask : SecDbFlag) (flagsToSkip : List SecDbFlag) :
    List SecDbAttr → CFDictionary → Except PropertyListError CFDictionary
  | [], dict => .ok dict
  | desc :: attrs, dict =>
    if mask ∉ desc.flags then SecDbItemCopyPListWithFlagAndSkip now mask flagsToSkip attrs dict
    else if ∃ flag ∈ flagsToSkip, flag ∈ desc.flags then .ok dict
    else
      match item.SecDbItemGetValue now desc with
      | none => .error (.notRead desc.name)
      | some value =>
        if value ≠ .null then
          SecDbItemCopyPListWithFlagAndSkip now mask flagsToSkip attrs
            (Function.update dict desc.name (some value))
        else if .notNull ∈ desc.flags then .error (.nullValue desc.name)
        else SecDbItemCopyPListWithFlagAndSkip now mask flagsToSkip attrs dict

def copyPList (now : ℚ) (mask : SecDbFlag) (flagsToSkip : List SecDbFlag) :
    Except PropertyListError CFDictionary :=
  item.SecDbItemCopyPListWithFlagAndSkip now mask flagsToSkip item.cls.attrs fun _ => none

def SecDbKeychainItemCopyPrimaryKey (digest : CFDictionary → List UInt8) (now : ℚ) :
    Except PropertyListError (List UInt8) :=
  (item.copyPList now .primaryKey []).map digest

/-- Each key of the second dictionary is set in the first, where there is a second one. -/
def setEach (dict : CFDictionary) : Except PropertyListError CFDictionary → CFDictionary
  | .error _ => dict
  | .ok dict' => fun key => (dict' key).or (dict key)

def objectCopyPropertyList (now : ℚ) : Except PropertyListError CFDictionary :=
  let secretDataDict := item.copyPList now .returnData [.syncSOSCannotSync]
  let cryptoDataDict := item.copyPList now .inCryptoData [.syncSOSCannotSync]
  let authDataDict := item.copyPList now .inAuthenticatedData [.syncSOSCannotSync]
  cryptoDataDict.map fun dict =>
    let dict := setEach (setEach dict authDataDict) secretDataDict
    if (dict kSecClass).isSome then dict
    else Function.update dict kSecClass (some (.plain (.string item.cls.name)))
end

def SecDbItemCreate (cls : SecDbClass) : SecDbItem := ⟨cls, fun _ => none, true, true⟩

def SecDbItemCreateWithAttributes (cls : SecDbClass) (attributes : CFDictionary) :
    Except PropertyListError SecDbItem :=
  SecDbItemSetValues attributes cls.attrs (SecDbItemCreate cls)

def objectCreateWithPropertyList (classes : CFString → Option SecDbClass) (plist : CFDictionary) :
    Except PropertyListError SecDbItem :=
  match plist kSecClass with
  | none => .error .classMissing
  | some (.plain (.string name)) =>
    match classes name with
    | none => .error (.noSuchClass (.plain (.string name)))
    | some cls => SecDbItemCreateWithAttributes cls plist
  | some cname => .error (.noSuchClass cname)
end SecDbItem

def v12_inet_attrs : List SecDbAttr :=
  [⟨"rowid", .rowId, [], false⟩,
   ⟨"cdat", .creationDate, [.inCryptoData, .inHash], true⟩,
   ⟨"mdat", .modificationDate, [.inCryptoData, .inHash], true⟩,
   ⟨"desc", .blob, [.inCryptoData, .inHash], false⟩,
   ⟨"icmt", .blob, [.inCryptoData, .inHash], false⟩,
   ⟨"crtr", .number, [.inCryptoData, .inHash], false⟩,
   ⟨"type", .number, [.inCryptoData, .inHash], false⟩,
   ⟨"scrp", .number, [.inCryptoData, .inHash], false⟩,
   ⟨"labl", .blob, [.inCryptoData, .inHash], false⟩,
   ⟨"alis", .blob, [.inCryptoData, .inHash], false⟩,
   ⟨"invi", .number, [.inCryptoData, .inHash], false⟩,
   ⟨"nega", .number, [.inCryptoData, .inHash], false⟩,
   ⟨"cusi", .number, [.inCryptoData, .inHash], false⟩,
   ⟨"prot", .blob, [.inCryptoData, .inHash], false⟩,
   ⟨"acct", .blob, [.primaryKey, .inCryptoData, .inHash, .defaultEmpty, .notNull], false⟩,
   ⟨"sdmn", .blob, [.primaryKey, .inCryptoData, .inHash, .defaultEmpty, .notNull], false⟩,
   ⟨"srvr", .blob, [.primaryKey, .inCryptoData, .inHash, .defaultEmpty, .notNull], false⟩,
   ⟨"ptcl", .number, [.primaryKey, .inCryptoData, .inHash, .default0, .notNull], false⟩,
   ⟨"atyp", .blob, [.primaryKey, .inCryptoData, .inHash, .defaultEmpty, .notNull], false⟩,
   ⟨"port", .number, [.primaryKey, .inCryptoData, .inHash, .default0, .notNull], false⟩,
   ⟨"path", .blob, [.primaryKey, .inCryptoData, .inHash, .defaultEmpty, .notNull], false⟩,
   ⟨"data", .encryptedData, [], false⟩,
   ⟨"agrp", .string, [.primaryKey, .inHash, .notNull, .inAuthenticatedData], false⟩,
   ⟨"pdmn", .access, [.inCryptoData, .inHash], false⟩,
   ⟨"sync", .sync, [.primaryKey, .inHash, .default0, .notNull, .inAuthenticatedData], false⟩,
   ⟨"tomb", .tomb, [.inHash, .default0, .notNull, .inAuthenticatedData], false⟩,
   ⟨"sha1", .sha1, [], false⟩,
   ⟨"vwht", .string, [.primaryKey, .inHash, .inAuthenticatedData], false⟩,
   ⟨"tkid", .string, [.primaryKey, .inHash, .inAuthenticatedData], false⟩,
   ⟨"v_Data", .data, [.returnData, .inCryptoData, .inHash], false⟩,
   ⟨"v_pk", .primaryKey, [], false⟩,
   ⟨"accc", .accessControl, [], false⟩,
   ⟨"u_Tomb", .utomb, [], false⟩,
   ⟨"musr", .uuid, [.primaryKey, .notNull, .inAuthenticatedData], false⟩,
   ⟨"UUID", .string, [.inAuthenticatedData], false⟩,
   ⟨"sysb", .number, [.inCryptoData, .inHash, .default0], false⟩,
   ⟨"pcss", .number, [.inCryptoData, .inHash], false⟩,
   ⟨"pcsk", .blob, [.inCryptoData, .inHash], false⟩,
   ⟨"pcsi", .blob, [.inCryptoData, .inHash], false⟩,
   ⟨"persistref", .uuid, [.notNull, .inAuthenticatedData], false⟩,
   ⟨"clip", .number, [.default0, .notNull], false⟩,
   ⟨"binn", .data, [.returnData, .inCryptoData, .syncSOSCannotSync], false⟩,
   ⟨"bini", .data, [.returnData, .inCryptoData, .syncSOSCannotSync], false⟩,
   ⟨"bin0", .data, [.returnData, .inCryptoData, .syncSOSCannotSync], false⟩,
   ⟨"bin1", .data, [.returnData, .inCryptoData, .syncSOSCannotSync], false⟩,
   ⟨"bin2", .data, [.returnData, .inCryptoData, .syncSOSCannotSync], false⟩,
   ⟨"bin3", .data, [.returnData, .inCryptoData, .syncSOSCannotSync], false⟩,
   ⟨"ggrp", .string, [.primaryKey, .inHash, .inAuthenticatedData], false⟩]

def v12_inet_class : SecDbClass where
  name := cfstr "inet"
  attrs := v12_inet_attrs
  distinct := by decide +kernel
  unnamed := by decide +kernel
  computed := by decide +kernel
  keyed := by decide +kernel
end SecurityFramework.PropertyList
