import SecurityFramework.SecureObjectSync.Manifest
import SecurityFramework.Utilities.DerPlist

/-!
# Messages

A message carries the digests of three manifests, and, as deltas, what the proposed manifest lacks
and adds against the base.
-/

namespace SecurityFramework
structure SOSMessage where
  /-- What a received message was decoded from, where its objects start and how long they are. -/
  der : List UInt8
  objectsDer : Option (List UInt8)
  objectsLen : Option Nat
  senderDigest : Option (List UInt8)
  baseDigest : Option (List UInt8)
  proposedDigest : Option (List UInt8)
  removals : SOSManifestRef
  additions : SOSManifestRef
  objects : Option (List (List UInt8))
  flags : UInt64
  sequenceNumber : UInt64
  creationTime : CFAbsoluteTime
  version : UInt64
  deriving DecidableEq

def SOSMessageAllocate : SOSMessage where
  der := []
  objectsDer := none
  objectsLen := some 0
  senderDigest := none
  baseDigest := none
  proposedDigest := none
  removals := none
  additions := none
  objects := none
  flags := 0
  sequenceNumber := 0
  creationTime := 0
  version := 0

def SOSMessageCreate (version : UInt64) : SOSMessage :=
  { SOSMessageAllocate with version := version }

/-- The SHA-1 digest of the manifest's octets, cached by the source. -/
def SOSManifestGetDigest (sha1 : List UInt8 → List UInt8) (m : SOSManifestRef) :
    Option (List UInt8) :=
  m.map fun m => sha1 m.digestVector

def SOSMessageSetManifests (sha1 : List UInt8 → List UInt8) (message : SOSMessage)
    (sender base proposed : SOSManifestRef) (includeManifestDeltas : Bool)
    (objectsSent : SOSManifestRef) : Asserting SOSMessage := do
  let message : SOSMessage := { message with
    baseDigest := SOSManifestGetDigest sha1 base
    proposedDigest := SOSManifestGetDigest sha1 proposed
    senderDigest := SOSManifestGetDigest sha1 sender }
  if includeManifestDeltas then
    let (removals, additions) ← SOSManifestDiff base proposed
    if message.version = 0 then
      some { message with removals := removals, additions := additions }
    else
      let additions ← SOSManifestCreateComplement objectsSent additions
      some { message with removals := removals, additions := additions }
  else some message

def SOSMessageSetFlags (message : SOSMessage) (flags : UInt64) : SOSMessage :=
  { message with flags := flags }

/-- `CFEqualSafe` of two manifests: their digests agree. -/
def SOSManifestCompare (sha1 : List UInt8 → List UInt8) (m1 m2 : SOSManifestRef) : Bool :=
  match m1, m2 with
  | some m1, some m2 =>
    SOSManifestGetDigest sha1 (some m1) = SOSManifestGetDigest sha1 (some m2)
  | none, none => true
  | _, _ => false

/-- The objects are not compared. -/
def SOSMessageCompare (sha1 : List UInt8 → List UInt8) (M P : SOSMessage) : Bool :=
  M.flags == P.flags && M.sequenceNumber == P.sequenceNumber &&
    M.creationTime == P.creationTime && M.senderDigest == P.senderDigest &&
    M.baseDigest == P.baseDigest && M.proposedDigest == P.proposedDigest &&
    SOSManifestCompare sha1 M.removals P.removals &&
    SOSManifestCompare sha1 M.additions P.additions

open DER

def ccderBitString : Tag := ⟨.universal, false, 0x03⟩

def ccderContext (number : Nat) : Tag := ⟨.contextSpecific, false, number⟩

def ccderConstructedContext (number : Nat) : Tag := ⟨.contextSpecific, true, number⟩

inductive SOSMessageType where
  | invalid
  | manifestDigest
  | manifest
  | manifestDeltaAndObjects
  deriving DecidableEq

def SOSMessageType.value : SOSMessageType → UInt64
  | .invalid => 0
  | .manifestDigest => 1
  | .manifest => 2
  | .manifestDeltaAndObjects => 3

section
variable (der : Primitives) (dates : DateSystem)

/-- An object is one element: a tag, a length, and as many octets as it says. -/
def SecMessageIsObjectValid (object : List UInt8) : Bool :=
  match der.decodeTag object with
  | none => false
  | some (tag, rest) =>
    if tag = ccderEol then false
    else
      match der.decodeLen rest with
      | none => false
      | some (len, rest) => rest.drop len = []

def SOSMessageAppendObject (message : SOSMessage) (object : List UInt8) : Option SOSMessage :=
  if SecMessageIsObjectValid der object then
    some { message with objects := some (message.objects.getD [] ++ [object]) }
  else none

/-- The objects that are visited, and the position after them, if there is one. A length that is
not given is indefinite; the fuel bounds the number of objects. -/
def derForeachObjects (length : Option Nat) :
    Nat → List UInt8 → List (List UInt8) × Option (List UInt8)
  | fuel, octets =>
    let finish := if length.isNone then (decodeTl der ccderEol octets).map Prod.snd else some octets
    match der.decodeTag octets with
    | none => ([], finish)
    | some (tag, _) =>
      if tag = ccderEol then ([], finish)
      else
        match decodeConstructedTl der tag octets, fuel with
        | some (_, rest), fuel + 1 =>
          let (objects, result) := derForeachObjects length fuel rest
          (octets.take (octets.length - rest.length) :: objects, result)
        | _, _ => ([], none)

def SOSMessageWithObjects (message : SOSMessage) : List (List UInt8) × Bool :=
  match message.objects with
  | some objects => (objects, true)
  | none =>
    match message.objectsDer with
    | none => ([], true)
    | some objectsDer =>
      let (objects, result) :=
        derForeachObjects der message.objectsLen objectsDer.length objectsDer
      (objects, result.isSome)

def SOSMessageCountObjects (message : SOSMessage) : Nat :=
  (SOSMessageWithObjects der message).1.length

def ccnSizeof (bits : Nat) : Nat := (bits + 63) / 64 * 8

def ccderSizeofUint64 (n : UInt64) : Nat :=
  sizeof der ccderInteger (der.encodeUnsigned n).length

def ccderEncodeUint64 (n : UInt64) (buffer : Output) : Output :=
  encodeOctets der ccderInteger (der.encodeUnsigned n) buffer

def ccderSizeofBitString (s : UInt64) : Nat :=
  sizeof der ccderBitString (ccnSizeof (der.bitLength s) + 1)

def ccderEncodeBitString (s : UInt64) (buffer : Output) : Output :=
  let outSize := ccnSizeof (der.bitLength s) + 1
  encodeTl der ccderBitString outSize (encodeBody (der.writePadded s outSize) buffer)

def derSizeofImplicitData (tag : Tag) (data : Option (List UInt8)) : Nat :=
  match data with
  | none => 0
  | some data => sizeof der tag data.length

def derEncodeImplicitData (tag : Tag) (data : Option (List UInt8)) (buffer : Output) : Output :=
  match data with
  | none => buffer
  | some data => encodeOctets der tag data buffer

def derSizeofMessageHeader (message : SOSMessage) : Nat :=
  if message.senderDigest.isNone then 0
  else
    sizeof der ccderConstructedSequence
      (derSizeofGeneralizedtime der dates message.creationTime +
        ccderSizeofUint64 der message.sequenceNumber +
        ccderSizeofBitString der message.flags +
        derSizeofImplicitData der ccderOctetString message.senderDigest +
        derSizeofImplicitData der (ccderContext 0) message.baseDigest +
        derSizeofImplicitData der (ccderContext 1) message.proposedDigest)

def derEncodeMessageHeader (message : SOSMessage) (buffer : Output) : Output :=
  if message.senderDigest.isNone then fail buffer
  else
    encodeConstructedTl der ccderConstructedSequence buffer
      (derEncodeGeneralizedtime der dates message.creationTime
        (ccderEncodeUint64 der message.sequenceNumber
          (ccderEncodeBitString der message.flags
            (derEncodeImplicitData der ccderOctetString message.senderDigest
              (derEncodeImplicitData der (ccderContext 0) message.baseDigest
                (derEncodeImplicitData der (ccderContext 1) message.proposedDigest buffer))))))

def derSizeofDeltas (message : SOSMessage) : Nat :=
  if message.additions.isNone ∧ message.removals.isNone then 0
  else
    let size := sizeof der ccderOctetString (SOSManifestGetSize message.removals) +
      sizeof der ccderOctetString (SOSManifestGetSize message.additions)
    if message.version = 0 then size else sizeof der (ccderConstructedContext 0) size

def derEncodeDeltas (message : SOSMessage) (buffer : Output) : Output :=
  if message.additions.isNone ∧ message.removals.isNone then buffer
  else
    let body :=
      derEncodeImplicitData der ccderOctetString (SOSManifestGetData message.removals)
        (derEncodeImplicitData der ccderOctetString (SOSManifestGetData message.additions) buffer)
    if message.version = 0 then body
    else encodeConstructedTl der (ccderConstructedContext 0) buffer body

def derSizeofObjects (message : SOSMessage) : Nat :=
  if message.objects.isNone ∧ message.version ≠ 0 then 0
  else
    let len := (message.objects.getD []).foldl (fun len data => len + data.length) 0
    sizeof der (ccderConstructedContext 2) len

def derEncodeObjects (message : SOSMessage) (buffer : Output) : Output :=
  if message.objects.isNone ∧ message.version ≠ 0 then buffer
  else
    let otag :=
      if message.version = 0 then ccderConstructedSequence else ccderConstructedContext 2
    encodeConstructedTl der otag buffer ((message.objects.getD []).foldr encodeBody buffer)

def derSizeofV2Message (message : SOSMessage) : Nat :=
  sizeof der ccderConstructedSequence
    (derSizeofMessageHeader der dates message + derSizeofDeltas der message +
      derSizeofObjects der message)

def derEncodeV2Message (message : SOSMessage) (buffer : Output) : Output :=
  encodeConstructedTl der ccderConstructedSequence buffer
    (derEncodeMessageHeader der dates message
      (derEncodeDeltas der message (derEncodeObjects der message buffer)))

def hasDigestSize (digest : Option (List UInt8)) : Bool :=
  digest.map List.length = some SOSDigestSize

def derSizeofManifestDigestMessage (message : SOSMessage) : Nat :=
  if hasDigestSize message.senderDigest then
    sizeof der ccderConstructedSequence
      (ccderSizeofUint64 der SOSMessageType.manifestDigest.value +
        sizeof der ccderOctetString SOSDigestSize)
  else 0

/-- So many octets of a digest. That of a message which has none is not there to be read. -/
def encodeDigest (digest : Option (List UInt8)) (buffer : Output) : Output :=
  match digest with
  | none => fail buffer
  | some digest => encodeOctets der ccderOctetString (digest.take SOSDigestSize) buffer

def derEncodeManifestDigestMessage (message : SOSMessage) (buffer : Output) : Output :=
  encodeConstructedTl der ccderConstructedSequence buffer
    (ccderEncodeUint64 der SOSMessageType.manifestDigest.value
      (encodeDigest der message.senderDigest buffer))

def derSizeofManifestMessage (message : SOSMessage) : Nat :=
  if message.additions.isNone then 0
  else
    sizeof der ccderConstructedSequence
      (ccderSizeofUint64 der SOSMessageType.manifest.value +
        derSizeofImplicitData der ccderOctetString (SOSManifestGetData message.additions))

def derEncodeManifestMessage (message : SOSMessage) (buffer : Output) : Output :=
  encodeConstructedTl der ccderConstructedSequence buffer
    (ccderEncodeUint64 der SOSMessageType.manifest.value
      (derEncodeImplicitData der ccderOctetString (SOSManifestGetData message.additions) buffer))

def derSizeofManifestAndObjectsMessage (message : SOSMessage) : Nat :=
  if hasDigestSize message.baseDigest then
    sizeof der ccderConstructedSequence
      (ccderSizeofUint64 der SOSMessageType.manifestDeltaAndObjects.value +
        sizeof der ccderConstructedSequence
          (sizeof der ccderOctetString SOSDigestSize +
            derSizeofImplicitData der ccderOctetString (SOSManifestGetData message.removals) +
            derSizeofImplicitData der ccderOctetString (SOSManifestGetData message.additions) +
            derSizeofObjects der message))
  else 0

def derEncodeManifestAndObjectsMessage (message : SOSMessage) (buffer : Output) : Output :=
  encodeConstructedTl der ccderConstructedSequence buffer
    (ccderEncodeUint64 der SOSMessageType.manifestDeltaAndObjects.value
      (encodeConstructedTl der ccderConstructedSequence buffer
        (encodeDigest der message.baseDigest
          (derEncodeImplicitData der ccderOctetString (SOSManifestGetData message.removals)
            (derEncodeImplicitData der ccderOctetString (SOSManifestGetData message.additions)
              (derEncodeObjects der message buffer))))))

def SOSMessageInferType (message : SOSMessage) : SOSMessageType :=
  if message.baseDigest.isSome then
    if SOSManifestGetCount message.removals ≠ 0 ∨ SOSManifestGetCount message.additions ≠ 0 ∨
        SOSMessageCountObjects der message ≠ 0 then .manifestDeltaAndObjects
    else .manifestDigest
  else if message.additions.isSome then .manifest
  else if message.senderDigest.isSome then .manifestDigest
  else .invalid

def derSizeofMessage (message : SOSMessage) (messageType : SOSMessageType) : Nat :=
  match messageType with
  | .invalid => derSizeofV2Message der dates message
  | .manifestDigest => derSizeofManifestDigestMessage der message
  | .manifest => derSizeofManifestMessage der message
  | .manifestDeltaAndObjects => derSizeofManifestAndObjectsMessage der message

def derEncodeMessage (message : SOSMessage) (messageType : SOSMessageType) (buffer : Output) :
    Output :=
  match messageType with
  | .invalid => derEncodeV2Message der dates message buffer
  | .manifestDigest => derEncodeManifestDigestMessage der message buffer
  | .manifest => derEncodeManifestMessage der message buffer
  | .manifestDeltaAndObjects => derEncodeManifestAndObjectsMessage der message buffer

def bufferOctets : Output → List UInt8
  | .ok buffer => List.replicate buffer.room 0 ++ buffer.written
  | .error buffer => List.replicate buffer.room 0 ++ buffer.written

def SOSMessageCreateData (now : CFAbsoluteTime) (message : SOSMessage) (sequenceNumber : UInt64) :
    Option (SOSMessage × List UInt8) :=
  let message : SOSMessage := { message with sequenceNumber := sequenceNumber }
  let messageType :=
    if message.version = 0 then SOSMessageInferType der message else SOSMessageType.invalid
  if message.version = 0 ∧ messageType = .invalid then none
  else
    let message : SOSMessage :=
      if message.version = 0 then message else { message with creationTime := (now.floor : Rat) }
    let size := derSizeofMessage der dates message messageType
    some (message,
      bufferOctets (derEncodeMessage der dates message messageType (.ok ⟨size, []⟩)))

/-- A length, or none if it is indefinite. Nothing is read where nothing is left. -/
def ccberDecodeLen (octets : List UInt8) : Option (Option Nat × List UInt8) :=
  match octets with
  | [] => some (some 0, [])
  | first :: rest =>
    if first = 0x80 then some (none, rest)
    else (der.decodeLen octets).map fun (len, rest) => (some len, rest)

def decodeOptional {α : Type} (read : Reader α) (octets : List UInt8) :
    Option α × List UInt8 :=
  match read octets with
  | some (value, rest) => (some value, rest)
  | none => (none, octets)

def ccderDecodeImplicitUint64 (expectedTag : Tag) : Reader UInt64 := fun octets => do
  let (body, rest) ← decodeConstructedTl der expectedTag octets
  if body ≠ [] ∧ body.headD 0 &&& 0x80 ≠ 0x80 then
    let r ← der.readUnsigned body
    some (r, rest)
  else none

def ccderDecodeUint64 : Reader UInt64 := ccderDecodeImplicitUint64 der ccderInteger

def ccderDecodeDigestTypes : Reader Unit := fun octets => do
  let (_, rest) ← decodeConstructedTl der ccderConstructedSequence octets
  some ((), rest)

/-- The number after the first octet, zero if it does not fit. -/
def ccderDecodeBitString : Reader UInt64 := fun octets => do
  let (body, rest) ← decodeConstructedTl der ccderBitString octets
  if body = [] then none else some ((der.readUnsigned body.tail).getD 0, rest)

def derDecodeImplicitData (expectedTag : Tag) : Reader (List UInt8) :=
  decodeConstructedTl der expectedTag

def derDecodeMessageHeader (message : SOSMessage) : Reader SOSMessage := fun octets => do
  let (body, after) ← decodeConstructedTl der ccderConstructedSequence octets
  let (version, body) := decodeOptional (ccderDecodeImplicitUint64 der (ccderContext 0)) body
  let (creationTime, body) := decodeOptional (derDecodeDate der dates) body
  let (sequenceNumber, body) := decodeOptional (ccderDecodeUint64 der) body
  let (_, body) := decodeOptional (ccderDecodeDigestTypes der) body
  let (flags, body) ← ccderDecodeBitString der body
  let (senderDigest, body) ← derDecodeImplicitData der ccderOctetString body
  let (baseDigest, body) := decodeOptional (derDecodeImplicitData der (ccderContext 0)) body
  let (proposedDigest, body) := decodeOptional (derDecodeImplicitData der (ccderContext 1)) body
  let message : SOSMessage := { message with
    version := version.getD 2
    creationTime := creationTime.getD message.creationTime
    sequenceNumber := sequenceNumber.getD message.sequenceNumber
    flags := flags
    senderDigest := some senderDigest
    baseDigest := baseDigest.or message.baseDigest
    proposedDigest := proposedDigest.or message.proposedDigest }
  some (message, body ++ after)

def derDecodeDeltasBody (message : SOSMessage) : Reader SOSMessage := fun octets => do
  let (removals, rest) ← derDecodeImplicitData der ccderOctetString octets
  let (additions, rest) ← derDecodeImplicitData der ccderOctetString rest
  let message : SOSMessage := { message with
    removals := SOSManifestCreateWithData (some removals)
    additions := SOSManifestCreateWithData (some additions) }
  some (message, rest)

def derDecodeDeltas (message : SOSMessage) : Reader SOSMessage := fun octets => do
  let (body, after) ← decodeConstructedTl der (ccderConstructedContext 0) octets
  let (message, rest) ← derDecodeDeltasBody der message body
  some (message, rest ++ after)

def derDecodeExtensions : Reader Unit := fun octets => do
  let (_, rest) ← decodeConstructedTl der (ccderConstructedContext 1) octets
  some ((), rest)

/-- Objects of an indefinite length have the largest one, past which the position wraps around to
the octet before them. -/
def derDecodeObjects (message : SOSMessage) : Reader SOSMessage := fun octets => do
  let (tag, rest) ← der.decodeTag octets
  if tag = ccderConstructedContext 2 then
    let (objectsLen, rest) ← ccberDecodeLen der rest
    let message : SOSMessage :=
      { message with objectsDer := some rest, objectsLen := objectsLen }
    match objectsLen with
    | some len => some (message, rest.drop len)
    | none => some (message, 0x80 :: rest)
  else none

def derDecodeManifestAndObjectsMessage (message : SOSMessage) : Reader SOSMessage :=
  fun octets => do
    let (body, after) ← decodeConstructedTl der ccderConstructedSequence octets
    if after = [] then
      let (baseDigest, rest) ← derDecodeImplicitData der ccderOctetString body
      let (message, rest) ←
        derDecodeDeltasBody der { message with baseDigest := some baseDigest } rest
      let (objectsLen, objectsDer) ← decodeTl der ccderConstructedSequence rest
      let message : SOSMessage :=
        { message with objectsDer := some objectsDer, objectsLen := some objectsLen }
      some (message, objectsDer.drop objectsLen)
    else none

def derDecodeV0MessageBody (message : SOSMessage) : Reader SOSMessage := fun octets => do
  let (messageType, rest) ← ccderDecodeUint64 der octets
  if messageType = SOSMessageType.manifestDigest.value then
    let (senderDigest, rest) ← derDecodeImplicitData der ccderOctetString rest
    some ({ message with senderDigest := some senderDigest }, rest)
  else if messageType = SOSMessageType.manifest.value then
    let (manifestBody, rest) ← derDecodeImplicitData der ccderOctetString rest
    some ({ message with additions := SOSManifestCreateWithData (some manifestBody) }, rest)
  else if messageType = SOSMessageType.manifestDeltaAndObjects.value then
    derDecodeManifestAndObjectsMessage der message rest
  else
    -- an error, but the position is kept
    some (message, rest)

def derDecodeV2MessageBody (message : SOSMessage) : Reader SOSMessage := fun octets => do
  let (message, rest) ← derDecodeMessageHeader der dates message octets
  let (deltas, rest) := decodeOptional (derDecodeDeltas der message) rest
  let message := deltas.getD message
  let (_, rest) := decodeOptional (derDecodeExtensions der) rest
  let (objects, rest) := decodeOptional (derDecodeObjects der message) rest
  some (objects.getD message, rest)

def derDecodeMessageBody (message : SOSMessage) (indefinite : Bool) : Reader SOSMessage :=
  fun octets =>
    match der.decodeTag octets with
    | none => some (message, octets)
    | some (tag, _) =>
      if tag = ccderInteger then
        if indefinite then none else derDecodeV0MessageBody der message octets
      else if tag = ccderConstructedSequence then derDecodeV2MessageBody der dates message octets
      else some (message, octets)

def derDecodeMessage (message : SOSMessage) : Reader SOSMessage := fun octets => do
  let (tag, rest) ← der.decodeTag octets
  if tag = ccderConstructedSequence then
    let (bodyLen, rest) ← ccberDecodeLen der rest
    -- a body shorter than what is left ends where its length says
    let size := if bodyLen.getD 0 = 0 then rest.length else bodyLen.getD 0
    let (message, position) ←
      derDecodeMessageBody der dates message bodyLen.isNone (rest.take size)
    some (message, position ++ rest.drop size)
  else none

def SOSMessageCreateWithData (derData : List UInt8) : Option SOSMessage := do
  let (message, rest) ←
    derDecodeMessage der dates { SOSMessageAllocate with der := derData } derData
  if rest = [] then some message else none
end
end SecurityFramework

namespace SecurityFramework
open DER

section
variable (der : Primitives) (dates : DateSystem)

def optionalCoding (tag : Tag) (data : Option (List UInt8)) : List UInt8 :=
  (data.map (element der tag)).getD []

def uint64Coding (n : UInt64) : List UInt8 :=
  element der ccderInteger (der.encodeUnsigned n)

def bitStringCoding (s : UInt64) : List UInt8 :=
  element der ccderBitString (der.writePadded s (ccnSizeof (der.bitLength s) + 1))

def headerContent (message : SOSMessage) : List UInt8 :=
  element der ccderGeneralizedTime (dateContent dates message.creationTime) ++
    (uint64Coding der message.sequenceNumber ++ (bitStringCoding der message.flags ++
      (optionalCoding der ccderOctetString message.senderDigest ++
        (optionalCoding der (ccderContext 0) message.baseDigest ++
          optionalCoding der (ccderContext 1) message.proposedDigest))))

def deltasCoding (message : SOSMessage) : List UInt8 :=
  match message.removals, message.additions with
  | some removals, some additions =>
    element der (ccderConstructedContext 0)
      (element der ccderOctetString removals.digestVector ++
        element der ccderOctetString additions.digestVector)
  | _, _ => []

def objectsCoding (message : SOSMessage) : List UInt8 :=
  match message.objects with
  | some objects => element der (ccderConstructedContext 2) objects.flatten
  | none => []

def v2Content (message : SOSMessage) : List UInt8 :=
  element der ccderConstructedSequence (headerContent der dates message) ++
    (deltasCoding der message ++ objectsCoding der message)

def v2Coding (message : SOSMessage) : List UInt8 :=
  element der ccderConstructedSequence (v2Content der dates message)

/-- A message that can be written: it has a version, both manifests of its deltas or neither, a
sender digest and a date. -/
structure SOSMessage.Writable (message : SOSMessage) : Prop where
  version_ne_zero : message.version ≠ 0
  deltas : message.removals.isSome = message.additions.isSome
  sender : message.senderDigest.isNone = false
  date : dates.Encodable message.creationTime
end

section
variable {der : Primitives} {dates : DateSystem} (hdates : dates.Correct)

theorem writes_derEncodeImplicitData (der : Primitives) (tag : Tag) (data : Option (List UInt8)) :
    Writes (derEncodeImplicitData der tag data) (optionalCoding der tag data) := by
  cases data with
  | none => exact Writes.nothing
  | some data => exact Writes.octets der tag data

theorem length_optionalCoding (tag : Tag) (data : Option (List UInt8)) :
    (optionalCoding der tag data).length = derSizeofImplicitData der tag data := by
  cases data with
  | none => rfl
  | some data => exact length_element der tag data

theorem writes_ccderEncodeBitString (hder : der.Correct) (s : UInt64) :
    Writes (ccderEncodeBitString der s) (bitStringCoding der s) := by
  intro room written
  have hwrites := Writes.octets der ccderBitString
    (der.writePadded s (ccnSizeof (der.bitLength s) + 1)) room written
  rwa [encodeOctets, hder.writePadded_length] at hwrites

theorem length_bitStringCoding (hder : der.Correct) (s : UInt64) :
    (bitStringCoding der s).length = ccderSizeofBitString der s := by
  rw [bitStringCoding, length_element, hder.writePadded_length, ccderSizeofBitString]

variable {message : SOSMessage}

include hdates in
theorem writes_derEncodeMessageHeader (hder : der.Correct) (hmessage : message.Writable dates) :
    Writes (derEncodeMessageHeader der dates message)
      (element der ccderConstructedSequence (headerContent der dates message)) := by
  have hproposed := writes_derEncodeImplicitData der (ccderContext 1) message.proposedDigest
  have hbase :=
    (writes_derEncodeImplicitData der (ccderContext 0) message.baseDigest).comp hproposed
  have hsender :=
    (writes_derEncodeImplicitData der ccderOctetString message.senderDigest).comp hbase
  have hflags := (writes_ccderEncodeBitString hder message.flags).comp hsender
  have hnumber := (Writes.octets der ccderInteger
    (der.encodeUnsigned message.sequenceNumber)).comp hflags
  have hdate :=
    (writes_derEncodeDateRepair (writable_of_encodable hdates hmessage.date) der false).comp hnumber
  have hheader := Writes.constructed der ccderConstructedSequence hdate
  have hsome : ¬ message.senderDigest.isNone = true := Bool.eq_false_iff.mp hmessage.sender
  intro room written
  have hwritten := hheader room written
  rw [derEncodeMessageHeader, if_neg hsome]
  exact hwritten

include hdates in
theorem derSizeofMessageHeader_eq (hder : der.Correct) (hmessage : message.Writable dates) :
    derSizeofMessageHeader der dates message =
      (element der ccderConstructedSequence (headerContent der dates message)).length := by
  have hsome : ¬ message.senderDigest.isNone = true := Bool.eq_false_iff.mp hmessage.sender
  rw [derSizeofMessageHeader, if_neg hsome, length_element, headerContent,
    derSizeofGeneralizedtime_eq (writable_of_encodable hdates hmessage.date) der]
  simp only [List.length_append, length_optionalCoding, length_bitStringCoding hder, uint64Coding,
    length_element, ccderSizeofUint64, Nat.add_assoc]

theorem writes_derEncodeDeltas (der : Primitives) (hmessage : message.Writable dates) :
    Writes (derEncodeDeltas der message) (deltasCoding der message) := by
  have hversion := hmessage.version_ne_zero
  have hdeltas := hmessage.deltas
  intro room written
  cases hremovals : message.removals with
  | none =>
    cases hadditions : message.additions with
    | none => simp [derEncodeDeltas, deltasCoding, hremovals, hadditions]
    | some additions => simp [hremovals, hadditions] at hdeltas
  | some removals =>
    cases hadditions : message.additions with
    | none => simp [hremovals, hadditions] at hdeltas
    | some additions =>
      have hbody := (Writes.octets der ccderOctetString removals.digestVector).comp
        (Writes.octets der ccderOctetString additions.digestVector)
      have hwritten := Writes.constructed der (ccderConstructedContext 0) hbody room written
      simp only [derEncodeDeltas, deltasCoding, hremovals, hadditions, hversion, if_false,
        Option.isNone_some, Bool.false_eq_true, and_self, SOSManifestGetData,
        derEncodeImplicitData]
      exact hwritten

theorem derSizeofDeltas_eq (hmessage : message.Writable dates) :
    derSizeofDeltas der message = (deltasCoding der message).length := by
  have hversion := hmessage.version_ne_zero
  have hdeltas := hmessage.deltas
  cases hremovals : message.removals with
  | none =>
    cases hadditions : message.additions with
    | none => simp [derSizeofDeltas, deltasCoding, hremovals, hadditions]
    | some additions => simp [hremovals, hadditions] at hdeltas
  | some removals =>
    cases hadditions : message.additions with
    | none => simp [hremovals, hadditions] at hdeltas
    | some additions =>
      simp [derSizeofDeltas, deltasCoding, hremovals, hadditions, hversion, SOSManifestGetSize]

theorem writes_derEncodeObjects (der : Primitives) (hversion : message.version ≠ 0) :
    Writes (derEncodeObjects der message) (objectsCoding der message) := by
  intro room written
  cases hobjects : message.objects with
  | none => simp [derEncodeObjects, objectsCoding, hobjects, hversion]
  | some objects =>
    have hwritten :=
      Writes.constructed der (ccderConstructedContext 2) (Writes.bodies objects) room written
    simp only [derEncodeObjects, objectsCoding, hobjects, hversion, if_false, Option.isNone_some,
      Bool.false_eq_true, false_and, Option.getD_some]
    exact hwritten

theorem derSizeofObjects_eq (hversion : message.version ≠ 0) :
    derSizeofObjects der message = (objectsCoding der message).length := by
  have hsum : ∀ (objects : List (List UInt8)) (len : Nat),
      objects.foldl (fun len data => len + data.length) len = len + objects.flatten.length := by
    intro objects
    induction objects with
    | nil => intro len; rfl
    | cons object objects ih =>
      intro len
      rw [List.foldl_cons, ih, List.flatten_cons, List.length_append, Nat.add_assoc]
  cases hobjects : message.objects with
  | none => simp [derSizeofObjects, objectsCoding, hobjects, hversion]
  | some objects =>
    simp only [derSizeofObjects, objectsCoding, hobjects, Option.isNone_some,
      Bool.false_eq_true, false_and, if_false, Option.getD_some, hsum, length_element, Nat.zero_add]

include hdates in
theorem writes_derEncodeV2Message (hder : der.Correct) (hmessage : message.Writable dates) :
    Writes (derEncodeV2Message der dates message) (v2Coding der dates message) := by
  have hobjects := writes_derEncodeObjects der hmessage.version_ne_zero
  have hdeltas := (writes_derEncodeDeltas der hmessage).comp hobjects
  have hheader := (writes_derEncodeMessageHeader hdates hder hmessage).comp hdeltas
  exact Writes.constructed der ccderConstructedSequence hheader

include hdates in
theorem derSizeofV2Message_eq (hder : der.Correct) (hmessage : message.Writable dates) :
    derSizeofV2Message der dates message = (v2Coding der dates message).length := by
  rw [derSizeofV2Message, derSizeofMessageHeader_eq hdates hder hmessage,
    derSizeofDeltas_eq hmessage, derSizeofObjects_eq hmessage.version_ne_zero, v2Coding, v2Content]
  simp only [length_element, List.length_append, Nat.add_assoc]
end
end SecurityFramework
