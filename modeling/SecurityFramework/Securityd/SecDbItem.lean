import SecurityFramework.Utilities.DerString

/-!
# Keychain items

An item has a class and values for some of the attributes of its class; the others have defaults.
-/

namespace SecurityFramework
inductive CFType where
  | null
  | boolean (b : Bool)
  | number (n : Int)
  | string (s : CFString)
  | data (octets : List UInt8)
  deriving DecidableEq

/-- `CFStringCreateExternalRepresentation` to UTF-8: all of the string, or null. -/
def cfStringCreateExternalRepresentation (s : CFString) : Option (List UInt8) :=
  let (units, octets) := cfStringGetBytes s (4 * s.length)
  if units = s.length then some octets else none

def copyData : CFType → Option (List UInt8)
  | .data octets => some octets
  | .string s => cfStringCreateExternalRepresentation s
  | .number n =>
    let value := (BitVec.ofInt 32 n).toNat
    some ([0, 8, 16, 24].map fun shift => UInt8.ofNat (value >>> shift))
  | _ => none

def copyString : CFType → Option CFType
  | .string s => some (.string s)
  | .data octets => (cfStringCreateWithBytes octets).map .string
  | _ => none

def copyBlob : CFType → Option CFType
  | .data octets => some (.data octets)
  | .string s => some (.string s)
  | .number n => some (.number n)
  | _ => none

def copyNumber : CFType → Option CFType
  | .number n => some (.number n)
  | .boolean b => some (.number (if b then 1 else 0))
  | _ => none

def copyUUID : CFType → Option CFType
  | .data octets => if octets.length ≠ 0 ∧ octets.length ≠ 16 then none else some (.data octets)
  | .null => some (.data [])
  | _ => none

inductive SecDbAttrKind where
  | blob
  | access
  | string
  | sync
  | tomb
  | uuid
  deriving DecidableEq

inductive SecDbAttr where
  | v6agrp
  | v6pdmn
  | v6sync
  | v6tomb
  | v7vwht
  | v7tkid
  | v8musr
  | v6svce
  deriving DecidableEq

inductive SecDbClass where
  | genp
  | inet
  | cert
  | keys
  | identity
  deriving DecidableEq

structure SecDbFlags where
  primaryKey : Bool
  sha1ValueIn : Bool
  default0 : Bool
  defaultEmpty : Bool
  notNull : Bool

namespace SecDbAttr
def kind : SecDbAttr → SecDbAttrKind
  | v6agrp => .string
  | v6pdmn => .access
  | v6sync => .sync
  | v6tomb => .tomb
  | v7vwht => .string
  | v7tkid => .string
  | v8musr => .uuid
  | v6svce => .blob

def flags : SecDbAttr → SecDbFlags
  | v6agrp => ⟨true, false, false, false, true⟩
  | v6pdmn => ⟨false, false, false, false, false⟩
  | v6sync => ⟨true, false, true, false, true⟩
  | v6tomb => ⟨false, false, true, false, true⟩
  | v7vwht => ⟨true, false, false, false, false⟩
  | v7tkid => ⟨true, false, false, false, false⟩
  | v8musr => ⟨true, false, false, false, true⟩
  | v6svce => ⟨true, true, false, true, true⟩
end SecDbAttr

def SecDbClass.attrs : SecDbClass → List SecDbAttr
  | .genp => [.v6svce, .v6agrp, .v6pdmn, .v6sync, .v6tomb, .v7vwht, .v7tkid, .v8musr]
  | .inet => [.v6agrp, .v6pdmn, .v6sync, .v6tomb, .v7vwht, .v7tkid, .v8musr]
  | .cert => [.v6agrp, .v6pdmn, .v6sync, .v6tomb, .v7vwht, .v7tkid, .v8musr]
  | .keys => [.v6agrp, .v6pdmn, .v6sync, .v6tomb, .v7vwht, .v7tkid, .v8musr]
  | .identity => []

def SecDbAttrKind.Holds : SecDbAttrKind → CFType → Prop
  | .string, value | .access, value => value = .null ∨ ∃ s, value = .string s
  | .blob, value => value = .null ∨ (copyData value).isSome
  | .sync, value | .tomb, value => ∃ n, value = .number n
  | .uuid, value => ∃ octets, value = .data octets

def SecDbAttrCopyDefaultValue (attr : SecDbAttr) : CFType :=
  match attr.kind with
  | .access | .string => .string (cfstr "")
  | .blob | .uuid => .data []
  | .sync | .tomb => .number 0

/-- The value as it is stored and looked up: never null for a part of the primary key, and hashed
where the attribute is. -/
def SecDbAttrCopyValueForDb (sha1 : List UInt8 → List UInt8) (attr : SecDbAttr) (value : CFType) :
    Option CFType :=
  let result :=
    if value = .null ∧ attr.flags.primaryKey then SecDbAttrCopyDefaultValue attr else value
  if attr.flags.sha1ValueIn ∧ result ≠ .null then
    (copyData result).map fun data => .data (sha1 data)
  else some result

structure SecDbItem where
  cls : SecDbClass
  attributes : SecDbAttr → Option CFType
  holds : ∀ attr value, attributes attr = some value → attr.kind.Holds value

def SecDbItemCopyValue (attr : SecDbAttr) : CFType :=
  let dataDefault :=
    if attr.flags.notNull ∧ attr.flags.defaultEmpty then CFType.data [] else .null
  match attr.kind with
  | .access | .string | .blob =>
    if attr.flags.notNull ∧ attr.flags.default0 then .string (cfstr "0")
    else if attr.flags.notNull ∧ attr.kind ≠ .blob ∧ attr.flags.defaultEmpty then
      .string (cfstr "")
    else dataDefault
  | .uuid => .data []
  | .sync | .tomb => if attr.flags.notNull then .number 0 else .null

def SecDbItemGetValue (item : SecDbItem) (attr : SecDbAttr) : CFType :=
  (item.attributes attr).getD (SecDbItemCopyValue attr)

/-- `NULL` only for an attribute that the class of the item does not have. -/
def SecDbItemGetCachedValueWithName (item : SecDbItem) (attr : SecDbAttr) : Option CFType :=
  match item.attributes attr with
  | some value => some value
  | none => if attr ∈ item.cls.attrs then some (SecDbItemGetValue item attr) else none

def SecDbItemCopyValueForDb (sha1 : List UInt8 → List UInt8) (item : SecDbItem)
    (attr : SecDbAttr) : Option CFType :=
  SecDbAttrCopyValueForDb sha1 attr (SecDbItemGetValue item attr)

def SecDbItemIsSyncableOrCorrupted (item : SecDbItem) : Bool :=
  SecDbItemGetValue item .v6sync = .number 1

def SecMUSRGetSingleUserKeychainUUID : CFType := .data []

def SecDbItemIsPrimaryUserItem (item : SecDbItem) : Bool :=
  SecDbItemGetValue item .v8musr = SecMUSRGetSingleUserKeychainUUID

theorem getValue_holds (item : SecDbItem) (attr : SecDbAttr) :
    attr.kind.Holds (SecDbItemGetValue item attr) := by
  rw [SecDbItemGetValue]
  cases hcached : item.attributes attr with
  | some value => exact item.holds attr value hcached
  | none =>
    cases attr <;>
      simp [SecDbItemCopyValue, SecDbAttr.kind, SecDbAttr.flags, SecDbAttrKind.Holds, copyData]

/-- Of an attribute of its class, an item has the value that it has by name. -/
theorem getCachedValueWithName_eq {item : SecDbItem} {attr : SecDbAttr}
    (hattr : attr ∈ item.cls.attrs) :
    SecDbItemGetCachedValueWithName item attr = some (SecDbItemGetValue item attr) := by
  rw [SecDbItemGetCachedValueWithName]
  cases hcached : item.attributes attr with
  | some value => simp [SecDbItemGetValue, hcached]
  | none => simp [hattr]

theorem copyValueForDb_isSome (sha1 : List UInt8 → List UInt8) (item : SecDbItem)
    (attr : SecDbAttr) : (SecDbItemCopyValueForDb sha1 item attr).isSome := by
  have hholds := getValue_holds item attr
  rw [SecDbItemCopyValueForDb, SecDbAttrCopyValueForDb]
  cases attr with
  | v6svce =>
    cases hholds with
    | inl hnull => simp [hnull, SecDbAttr.flags, SecDbAttrCopyDefaultValue, SecDbAttr.kind, copyData]
    | inr hdata =>
      have hne : SecDbItemGetValue item .v6svce ≠ .null := by
        intro hnull
        simp [hnull, copyData] at hdata
      simp [hne, SecDbAttr.flags, hdata]
  | _ => simp [SecDbAttr.flags]
end SecurityFramework
