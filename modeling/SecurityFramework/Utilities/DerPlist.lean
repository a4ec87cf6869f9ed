import SecurityFramework.Library.ByteOrder
import SecurityFramework.Utilities.DerDate
import SecurityFramework.Utilities.DerNumber
import SecurityFramework.Utilities.DerString

/-!
# Property lists

Each container is written from what its elements are written as; a set and a dictionary put theirs
in the order of the encodings.
-/

namespace SecurityFramework
open DER

/-- Sets and dictionaries list their members in the order in which they are applied to. -/
inductive Plist where
  | null
  | boolean (value : Bool)
  | data (octets : List UInt8)
  | date (time : CFAbsoluteTime)
  | string (units : CFString)
  | number (value : LongLong)
  | array (elements : List Plist)
  | set (elements : List Plist)
  | dictionary (entries : List (Plist × Plist))

def ccderEol : Tag := ⟨.universal, false, 0x00⟩

def ccderBoolean : Tag := ⟨.universal, false, 0x01⟩

def ccderOctetString : Tag := ⟨.universal, false, 0x04⟩

def ccderNull : Tag := ⟨.universal, false, 0x05⟩

def ccderConstructedSequence : Tag := ⟨.universal, true, 0x10⟩

def ccderConstructedSet : Tag := ⟨.universal, true, 0x11⟩

def ccderConstructedCfset : Tag := ⟨.privateUse, false, 0x11⟩

def ccderEntitlements : Tag := ⟨.application, true, 0x10⟩

mutual

/-- `CFEqual`. Containers that are not ordered are equal when they have as many members and each
member of one is in the other. -/
def cfEqual : Plist → Plist → Bool
  | .null, .null => true
  | .boolean a, .boolean b => a = b
  | .data a, .data b => a = b
  | .date a, .date b => a = b
  | .string a, .string b => a = b
  | .number a, .number b => a = b
  | .array as, .array bs => cfArrayEqual as bs
  | .set as, .set bs => as.length = bs.length && cfSetContainsAll as bs
  | .dictionary as, .dictionary bs => as.length = bs.length && cfDictionaryContainsAll as bs
  | _, _ => false
termination_by structural a => a

def cfArrayEqual : List Plist → List Plist → Bool
  | [], [] => true
  | a :: as, b :: bs => cfEqual a b && cfArrayEqual as bs
  | _, _ => false
termination_by structural as => as

def cfSetContainsAll : List Plist → List Plist → Bool
  | [], _ => true
  | a :: as, bs => (bs.any fun b => cfEqual a b) && cfSetContainsAll as bs
termination_by structural as => as

def cfDictionaryContainsAll : List (Plist × Plist) → List (Plist × Plist) → Bool
  | [], _ => true
  | (key, value) :: as, bs =>
    (bs.any fun b => cfEqual key b.1 && cfEqual value b.2) && cfDictionaryContainsAll as bs
termination_by structural as => as
end

/-- `CFSetAddValue`, which leaves a set that has the value alone. -/
def cfSetAddValue (theSet : List Plist) (value : Plist) : List Plist :=
  if theSet.any fun member => cfEqual member value then theSet else theSet ++ [value]

/-- `CFDictionaryAddValue`, which leaves a dictionary that has the key alone. -/
def cfDictionaryAddValue (dict : List (Plist × Plist)) (added : Plist × Plist) :
    List (Plist × Plist) :=
  if dict.any fun entry => cfEqual entry.1 added.1 then dict else dict ++ [added]

section
variable (der : Primitives) (dates : DateSystem)

def derSizeofNull : Nat := sizeof der ccderNull 0

def derSizeofBoolean : Nat := sizeof der ccderBoolean 1

def derSizeofData (octets : List UInt8) : Nat := sizeof der ccderOctetString octets.length

def derSizeofDate (time : CFAbsoluteTime) : Nat := derSizeofGeneralizedtime der dates time

def derSizeofArray (sizes : List Nat) : Nat :=
  sizeof der ccderConstructedSequence (sizes.foldr (fun size bodySize => bodySize + size) 0)

def addValueSize (context : Option Nat) (size : Nat) : Option Nat :=
  context.bind fun total => if size = 0 then none else some (total + size)

def derSizeofSet (sizes : List Nat) : Nat :=
  match sizes.foldl addValueSize (some 0) with
  | none => 0
  | some size => sizeof der ccderConstructedCfset size

def derSizeofKeyValue (size : Nat × Nat) : Nat :=
  if size.1 = 0 then 0
  else if size.2 = 0 then 0
  else sizeof der ccderConstructedSequence (size.1 + size.2)

def derSizeofDictionary (sizes : List (Nat × Nat)) : Nat :=
  match (sizes.map (derSizeofKeyValue der)).foldl addValueSize (some 0) with
  | none => 0
  | some size => sizeof der ccderConstructedSet size

mutual

def derSizeofPlist : Plist → Nat
  | .null => derSizeofNull der
  | .boolean _ => derSizeofBoolean der
  | .data octets => derSizeofData der octets
  | .date time => derSizeofDate der dates time
  | .string units => derSizeofString der units
  | .number value => derSizeofNumber der value
  | .array elements => derSizeofArray der (elementSizes elements)
  | .set elements => derSizeofSet der (elementSizes elements)
  | .dictionary entries => derSizeofDictionary der (entrySizes entries)

def elementSizes : List Plist → List Nat
  | [] => []
  | element :: elements => derSizeofPlist element :: elementSizes elements

def entrySizes : List (Plist × Plist) → List (Nat × Nat)
  | [] => []
  | (key, value) :: entries => (derSizeofPlist key, derSizeofPlist value) :: entrySizes entries
end

def derEncodeNull (buffer : Output) : Output := encodeTl der ccderNull 0 buffer

def derEncodeBoolean (boolean : Bool) (buffer : Output) : Output :=
  encodeTl der ccderBoolean 1 (encodeBody [if boolean then 1 else 0] buffer)

def derEncodeData (octets : List UInt8) (buffer : Output) : Output :=
  encodeTl der ccderOctetString octets.length (encodeBody octets buffer)

def derEncodeArrayRepair (writers : List Writer) (buffer : Output) : Output :=
  encodeConstructedTl der ccderConstructedSequence buffer
    (writers.foldr (fun writer buffer => writer buffer) buffer)

/-- The encoding of a member in a buffer of its size, less what it left free. -/
def addSequenceToArray (context : Option (List (List UInt8))) (member : Nat × Writer) :
    Option (List (List UInt8)) := do
  let list ← context
  if member.1 = 0 then none
  else
    match member.2 (.ok ⟨member.1, []⟩) with
    | .ok buffer => some (list ++ [buffer.written])
    | .error _ => none

/-- `CFDataCompareDERData` does not put the left octets after the right. -/
def cfDataCompareDERDataLe (left right : List UInt8) : Bool :=
  let shortest := min left.length right.length
  let comparison := ByteOrder.memcmp (left.take shortest) (right.take shortest)
  ¬ (comparison > 0 ∨ (comparison = 0 ∧ left.length > right.length))

def derEncodeSorted (tag : Tag) (members : List (Nat × Writer)) (buffer : Output) : Output :=
  match members.foldl addSequenceToArray (some []) with
  | none => fail buffer
  | some elements =>
    let elements := elements.mergeSort cfDataCompareDERDataLe
    encodeConstructedTl der tag buffer (elements.foldr encodeBody buffer)

def derEncodeSetRepair (members : List (Nat × Writer)) (buffer : Output) : Output :=
  derEncodeSorted der ccderConstructedCfset members buffer

def derEncodeKeyValue (key value : Writer) (buffer : Output) : Output :=
  encodeConstructedTl der ccderConstructedSequence buffer (key (value buffer))

def derEncodeDictionaryRepair (entries : List ((Nat × Nat) × Writer × Writer))
    (buffer : Output) : Output :=
  derEncodeSorted der ccderConstructedSet
    (entries.map fun entry =>
      (derSizeofKeyValue der entry.1, derEncodeKeyValue der entry.2.1 entry.2.2)) buffer

mutual

def derEncodePlistRepair (repair : Bool) : Plist → Writer
  | .null => derEncodeNull der
  | .boolean value => derEncodeBoolean der value
  | .data octets => derEncodeData der octets
  | .date time => derEncodeDateRepair der dates time repair
  | .string units => derEncodeString der units
  | .number value => derEncodeNumber der value
  | .array elements => derEncodeArrayRepair der (elementWriters repair elements)
  | .set elements =>
    derEncodeSetRepair der
      ((elementSizes der dates elements).zip (elementWriters repair elements))
  | .dictionary entries =>
    derEncodeDictionaryRepair der
      ((entrySizes der dates entries).zip (entryWriters repair entries))

def elementWriters (repair : Bool) : List Plist → List Writer
  | [] => []
  | element :: elements => derEncodePlistRepair repair element :: elementWriters repair elements

def entryWriters (repair : Bool) : List (Plist × Plist) → List (Writer × Writer)
  | [] => []
  | (key, value) :: entries =>
    (derEncodePlistRepair repair key, derEncodePlistRepair repair value) ::
      entryWriters repair entries
end

def derEncodePlist (pl : Plist) (buffer : Output) : Output :=
  derEncodePlistRepair der dates false pl buffer

def CFPropertyListCreateDERData (plist : Plist) : Option (List UInt8) :=
  let len := derSizeofPlist der dates plist
  match derEncodePlist der dates plist (.ok ⟨len, []⟩) with
  -- the source asserts that nothing is left free
  | .ok buffer => if buffer.room = 0 then some buffer.written else none
  | .error _ => none

/-- What one read yields, and the position after it. -/
abbrev Reader (α : Type) := List UInt8 → Option (α × List UInt8)

def derDecodeNull : Reader Plist := fun octets => do
  let (payloadSize, payload) ← decodeTl der ccderNull octets
  if payloadSize ≠ 0 then none else some (.null, payload)

def derDecodeBoolean : Reader Plist := fun octets => do
  let (payloadSize, payload) ← decodeTl der ccderBoolean octets
  if payloadSize ≠ 1 then none
  else some (.boolean (payload.headD 0 ≠ 0), payload.drop payloadSize)

def derDecodeData : Reader Plist := fun octets => do
  let (payloadSize, payload) ← decodeTl der ccderOctetString octets
  some (.data (payload.take payloadSize), payload.drop payloadSize)

/-- The data is the whole element, with its tag and length. -/
def derDecodeCoreEntitlementsData : Reader Plist := fun octets => do
  let (payloadSize, payload) ← decodeTl der ccderEntitlements octets
  let rest := payload.drop payloadSize
  some (.data (octets.take (octets.length - rest.length)), rest)

/-- Members to the end of the payload. The fuel bounds their number, which is at most that of the
octets. -/
def decodeMembers {α : Type} (decodeMember : Reader α) (addValue : List α → α → List α) :
    Nat → List α → List UInt8 → Option (List α)
  | _, members, [] => some members
  | 0, _, _ :: _ => none
  | fuel + 1, members, octet :: octets => do
    let (value, payload) ← decodeMember (octet :: octets)
    decodeMembers decodeMember addValue fuel (addValue members value) payload

def derDecodeArray (decodePlist : Reader Plist) : Reader Plist := fun octets => do
  let (payload, rest) ← decodeConstructedTl der ccderConstructedSequence octets
  let array ← decodeMembers decodePlist (fun array element => array ++ [element])
    payload.length [] payload
  some (.array array, rest)

def derDecodeSet (decodePlist : Reader Plist) : Reader Plist := fun octets => do
  let (payload, rest) ← decodeConstructedTl der ccderConstructedCfset octets
  let theSet ← decodeMembers decodePlist cfSetAddValue payload.length [] payload
  some (.set theSet, rest)

/-- The position after the value, which may lie before the end of the pair. -/
def derDecodeKeyValue (decodePlist : Reader Plist) : Reader (Plist × Plist) := fun octets => do
  let (payload, rest) ← decodeConstructedTl der ccderConstructedSequence octets
  let (key, payload) ← decodePlist payload
  let (value, payload) ← decodePlist payload
  some ((key, value), payload ++ rest)

def derDecodeDictionary (decodePlist : Reader Plist) : Reader Plist := fun octets => do
  let (payload, rest) ← decodeConstructedTl der ccderConstructedSet octets
  let dict ← decodeMembers (derDecodeKeyValue der decodePlist) cfDictionaryAddValue
    payload.length [] payload
  some (.dictionary dict, rest)

def decodeTagged (decodePlist : Reader Plist) (tag : Tag) : Reader Plist := fun octets =>
  if tag = ccderNull then derDecodeNull der octets
  else if tag = ccderBoolean then derDecodeBoolean der octets
  else if tag = ccderOctetString then derDecodeData der octets
  else if tag = ccderEntitlements then derDecodeCoreEntitlementsData der octets
  else if tag = ccderGeneralizedTime then
    (derDecodeDate der dates octets).map fun (time, rest) => (.date time, rest)
  else if tag = ccderUtcTime then
    (derDecodeUtcTime der dates octets).map fun (time, rest) => (.date time, rest)
  else if tag = ccderConstructedSequence then derDecodeArray der decodePlist octets
  else if tag = ccderNumericString then
    (derDecodeNumericString der octets).map fun (string, rest) => (.string string, rest)
  else if tag = ccderUtf8String then
    (derDecodeString der octets).map fun (string, rest) => (.string string, rest)
  else if tag = ccderInteger then
    (derDecodeNumber der octets).map fun (number, rest) => (.number number, rest)
  else if tag = ccderConstructedSet then derDecodeDictionary der decodePlist octets
  else if tag = ccderConstructedCfset then derDecodeSet der decodePlist octets
  else none

/-- The fuel bounds how deeply containers nest. -/
def decodePlistNested : Nat → Reader Plist
  | 0, _ => none
  | depth + 1, octets => do
    let (tag, _) ← der.decodeTag octets
    decodeTagged der dates (decodePlistNested depth) tag octets

/-- Every nesting takes octets, so there are octets enough for the depth. -/
def derDecodePlist : Reader Plist := fun octets =>
  decodePlistNested der dates (octets.length + 1) octets

def CFPropertyListCreateWithDERData (data : List UInt8) : Option Plist := do
  let (plist, rest) ← derDecodePlist der dates data
  if rest = [] then some plist else none
end
end SecurityFramework
