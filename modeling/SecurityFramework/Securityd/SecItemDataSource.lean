import SecurityFramework.SecureObjectSync.Views

/-!
# Keychain queries

A query is a class and a dictionary of what the attributes are to be: one value, one of several, or
none of several.
-/

namespace SecurityFramework
inductive QueryValue where
  | value (value : CFType)
  /-- One of the values; or, behind a null, none of them. -/
  | array (values : List CFType)
  deriving DecidableEq

structure Query where
  qClass : SecDbClass
  qItem : SecDbAttr → Option QueryValue

def Query.set (q : Query) (attr : SecDbAttr) (value : QueryValue) : Query :=
  { q with qItem := fun other => if other = attr then some value else q.qItem other }

def queryCreate (qclass : SecDbClass) : Query := ⟨qclass, fun _ => none⟩

def convertForKind : SecDbAttrKind → CFType → Option CFType
  | .blob, value => copyBlob value
  | .sync, value | .tomb, value => copyNumber value
  | .access, value | .string, value => copyString value
  | .uuid, value => copyUUID value

def kSecAttrSynchronizableAny : CFType := .string (cfstr "syna")

def queryAddAttributeWithDesc (desc : SecDbAttr) (value : CFType) (q : Query) : Query :=
  if desc = .v6sync ∧ value = kSecAttrSynchronizableAny then q
  else
    match convertForKind desc.kind value with
    | none => q
    | some attr => q.set desc (.value attr)

def queryAddAttribute (key : SecDbAttr) (value : CFType) (q : Query) : Query :=
  if key ∈ q.qClass.attrs then queryAddAttributeWithDesc key value q else q

def addToArray (key : SecDbAttr) (array : List CFType) (value : CFType) (q : Query) : Query :=
  match convertForKind key.kind value with
  | none => q
  | some newValue => q.set key (.array (array ++ [newValue]))

def queryAddOrAttribute (key : SecDbAttr) (value : CFType) (q : Query) : Query :=
  if key ∈ q.qClass.attrs then
    match q.qItem key with
    | some (.array array) => addToArray key array value q
    | some (.value oldValue) => addToArray key [oldValue] value q
    | none => addToArray key [] value q
  else q

def queryAddNotAttribute (key : SecDbAttr) (value : CFType) (q : Query) : Query :=
  if key ∈ q.qClass.attrs then
    match q.qItem key with
    | some (.array array) => addToArray key array value q
    | some (.value oldValue) => addToArray key [.null, oldValue] value q
    | none => addToArray key [.null] value q
  else q

def sqlEquals (a b : CFType) : Bool := a ≠ .null ∧ b ≠ .null ∧ a = b

def sqlNotEquals (a b : CFType) : Bool := a ≠ .null ∧ b ≠ .null ∧ a ≠ b

def whereClause (sha1 : List UInt8 → List UInt8) (attr : SecDbAttr) (column : CFType) :
    Option QueryValue → Bool
  | none => true
  | some (.value value) => (SecDbAttrCopyValueForDb sha1 attr value).any (sqlEquals column)
  | some (.array []) => true
  | some (.array (.null :: values)) =>
    (values.mapM (SecDbAttrCopyValueForDb sha1 attr)).any fun bound =>
      bound.all (sqlNotEquals column)
  | some (.array values) =>
    (values.mapM (SecDbAttrCopyValueForDb sha1 attr)).any fun bound =>
      bound.any (sqlEquals column)

def SecDbItemSelect (sha1 : List UInt8 → List UInt8) (q : Query) (item : SecDbItem) : Bool :=
  item.cls = q.qClass ∧ ∀ attr ∈ q.qClass.attrs,
    (SecDbItemCopyValueForDb sha1 item attr).any fun column =>
      whereClause sha1 attr column (q.qItem attr)
end SecurityFramework

namespace SecurityFramework
def kSecAttrAccessibleWhenUnlocked : CFString := cfstr "ak"

def kSecAttrAccessibleAfterFirstUnlock : CFString := cfstr "ck"

def kSecAttrAccessibleAlwaysPrivate : CFString := cfstr "dk"

def kSecAttrAccessibleWhenUnlockedThisDeviceOnly : CFString := cfstr "aku"

def kSecAttrAccessibleAfterFirstUnlockThisDeviceOnly : CFString := cfstr "cku"

def kSecAttrAccessibleAlwaysThisDeviceOnlyPrivate : CFString := cfstr "dku"

def syncableAccessibilities : List CFString :=
  [kSecAttrAccessibleWhenUnlocked, kSecAttrAccessibleAfterFirstUnlock,
    kSecAttrAccessibleAlwaysPrivate, kSecAttrAccessibleWhenUnlockedThisDeviceOnly,
    kSecAttrAccessibleAfterFirstUnlockThisDeviceOnly,
    kSecAttrAccessibleAlwaysThisDeviceOnlyPrivate]

def dsSyncedClassesV0 : List SecDbClass := [.genp, .inet, .keys]

def dsSyncedClasses : List SecDbClass := [.genp, .inet, .keys, .cert]

def SecItemDataSourceAppendQuery (qclass : SecDbClass) (noTombstones : Bool) : Query :=
  let q := queryAddAttribute .v6sync (.boolean true) (queryCreate qclass)
  let q := syncableAccessibilities.foldl
    (fun q accessible => queryAddOrAttribute .v6pdmn (.string accessible) q) q
  if noTombstones then queryAddAttribute .v6tomb (.boolean false) q else q

/-- The view hint, and the token unless any is allowed, are those of old items, which had neither,
but for a given view hint. -/
def SecItemDataSourceAppendQueryWithClassAndViewHint (qclass : SecDbClass)
    (noTombstones allowTkid : Bool) (viewHint : Option CFString) : Query :=
  qclass.attrs.foldl
    (fun q attr =>
      if attr = .v7tkid ∨ attr = .v7vwht then
        if ¬ allowTkid ∨ attr ≠ .v7tkid then
          match viewHint with
          | some viewHint =>
            if attr = .v7vwht then queryAddAttributeWithDesc attr (.string viewHint) q
            else queryAddAttributeWithDesc attr (SecDbAttrCopyDefaultValue attr) q
          | none => queryAddAttributeWithDesc attr (SecDbAttrCopyDefaultValue attr) q
        else q
      else q)
    (SecItemDataSourceAppendQuery qclass noTombstones)

def SecItemDataSourceAppendQueryWithClass (qclass : SecDbClass) (noTombstones allowTkid : Bool) :
    Query :=
  SecItemDataSourceAppendQueryWithClassAndViewHint qclass noTombstones allowTkid none

def SecItemDataSourceAppendQueryWithClassAndAgrp (qclass : SecDbClass)
    (noTombstones allowTkid : Bool) (agrp : CFString) : Query :=
  queryAddAttribute .v6agrp (.string agrp)
    (SecItemDataSourceAppendQueryWithClass qclass noTombstones allowTkid)

def queriesForView (viewName : CFString) (noTombstones : Bool) : List Query :=
  let noTKID := false
  let allowTKID := true
  let withClass := fun qclass =>
    SecItemDataSourceAppendQueryWithClass qclass noTombstones allowTKID
  let withAgrp := fun qclass agrp =>
    SecItemDataSourceAppendQueryWithClassAndAgrp qclass noTombstones allowTKID (cfstr agrp)
  if viewName = kSOSViewKeychainV0 then
    dsSyncedClassesV0.map fun qclass =>
      SecItemDataSourceAppendQueryWithClass qclass noTombstones noTKID
  else if viewName = kSOSViewWiFi then
    [queryAddAttribute .v6svce (.string (cfstr "AirPort")) (withAgrp .genp "apple")]
  else if viewName = kSOSViewAutofillPasswords then [withAgrp .inet "com.apple.cfnetwork"]
  else if viewName = kSOSViewSafariCreditCards then
    [withAgrp .genp "com.apple.safari.credit-cards"]
  else if viewName = kSOSViewiCloudIdentity then [withAgrp .keys "com.apple.security.sos"]
  else if viewName = kSOSViewBackupBagV0 then [withAgrp .genp "com.apple.sbd"]
  else if viewName = kSOSViewOtherSyncable then
    [withClass .cert,
      queryAddNotAttribute .v6svce (.string (cfstr "AirPort")) (withAgrp .genp "apple"),
      queryAddNotAttribute .v6agrp (.string (cfstr "com.apple.sbd"))
        (queryAddNotAttribute .v6agrp (.string (cfstr "com.apple.safari.credit-cards"))
          (queryAddNotAttribute .v6agrp (.string (cfstr "apple")) (withClass .genp))),
      queryAddNotAttribute .v6agrp (.string (cfstr "com.apple.cfnetwork")) (withClass .inet),
      queryAddNotAttribute .v6agrp (.string (cfstr "com.apple.security.sos"))
        (withClass .keys)]
  else
    dsSyncedClasses.map fun qclass =>
      SecItemDataSourceAppendQueryWithClassAndViewHint qclass noTombstones allowTKID
        (some viewName)

def SecItemDataSourceAppendQueriesForViewName (compositeViewName : CFString) : List Query :=
  let noTombstones : Bool := cfstr "-tomb" <:+ compositeViewName
  let viewName :=
    if noTombstones then compositeViewName.take (compositeViewName.length - 5)
    else compositeViewName
  if SOSViewInSOSSystem viewName then queriesForView viewName noTombstones else []
end SecurityFramework
