import SecurityFramework.Otr.MessageKeys

/-!
# Serialized OTR sessions

A session is written with its keys and with the counters of the pairs of its keys; the cache is
made anew when it is read.
-/

namespace SecurityFramework.Otr
open Memory

variable {P : Primitives}

structure Codec (P : Primitives) where
  appendFullIdentity : P.FullIdentity → Option (List UInt8)
  appendPublicIdentity : P.PublicIdentity → Option (List UInt8)
  readFullIdentity : Cursor → Option (P.FullIdentity × Cursor)
  readPublicIdentity : Cursor → Option (P.PublicIdentity × Cursor)
  /-- The octets of the secret number of a key. -/
  ccec_ctx_k : P.FullKey → List UInt8
  /-- The key with a given public half and secret number. -/
  fullKey : P.PublicKey → List UInt8 → P.FullKey

def SecOTRAuthState.number : SecOTRAuthState → UInt32
  | kIdle => 0
  | kAwaitingDHKey => 1
  | kAwaitingRevealSignature => 2
  | kAwaitingSignature => 3
  | kDone => 4

/-- Other numbers are read, too, but no session has them. -/
def SecOTRAuthState.ofNumber (number : UInt32) : Option SecOTRAuthState :=
  [kIdle, kAwaitingDHKey, kAwaitingRevealSignature, kAwaitingSignature, kDone].find?
    fun state => state.number = number

def appendMessage : Option (List UInt8) → List UInt8
  | none => [0]
  | some message => 1 :: AppendDATA message

def SecFDHKAppendSerialization (codec : Codec P) (key : P.FullKey) : List UInt8 :=
  AppendDATA (P.ccec_export_pub (P.ccec_ctx_pub key)) ++ AppendDATA (codec.ccec_ctx_k key)

/-- Their counter and ours; a pair that lacks a key counts zero. -/
def pairCounters (session : SecOTRSession P) (myKey? : Option P.FullKey)
    (theirKey? : Option P.PublicKey) : SecOTRSession P × UInt64 × UInt64 :=
  match myKey?, theirKey? with
  | some myKey, some theirKey =>
    let (session, i) := SecOTRSFindKeysForMessage session myKey theirKey
    (session, (session.keyCache i).theirCounter, (session.keyCache i).counter)
  | _, _ => (session, 0, 0)

def appendCounters (counters : UInt64 × UInt64) : List UInt8 :=
  AppendLongLong counters.1 ++ AppendLongLong counters.2

def appendFullKeys (codec : Codec P) (session : SecOTRSession P) : Option (List UInt8) :=
  if 0 < session.keyID then
    match session.myKey, session.myNextKey with
    | some myKey, some myNextKey =>
      some (SecFDHKAppendSerialization codec myKey ++ SecFDHKAppendSerialization codec myNextKey)
    | _, _ => none
  else some []

def appendPublicKey : Option P.PublicKey → List UInt8
  | none => []
  | some key => SecPDHKAppendSerialization key

def numberOfKeys (session : SecOTRSession P) : UInt8 :=
  (if session.theirPreviousKey.isSome then 1 else 0) + if session.theirKey.isSome then 1 else 0

def appendAllCounters (session : SecOTRSession P) : List UInt8 :=
  let first := pairCounters session session.myKey session.theirKey
  let second := pairCounters first.1 session.myKey session.theirPreviousKey
  let third := pairCounters second.1 session.myNextKey session.theirKey
  let fourth := pairCounters third.1 session.myNextKey session.theirPreviousKey
  appendCounters first.2 ++ appendCounters second.2 ++ appendCounters third.2 ++
    appendCounters fourth.2

def appendBool (value : Bool) : List UInt8 := [if value then 1 else 0]

/-- The time to roll is cut to whole seconds. -/
def appendSettings (session : SecOTRSession P) : List UInt8 :=
  AppendDATA session.macKeysToExpose ++ appendBool session.textOutput ++
    appendBool session.compactAppleMessages ++ appendBool session.includeHashes ++
    AppendLongLong session.stallSeconds ++ appendBool session.stallingTheirRoll ++
    AppendLongLong (UInt64.ofNat session.timeToRoll.floor.toNat) ++
    appendBool session.missedAck ++ appendBool session.receivedAck

def SecOTRSAppendSerialization (codec : Codec P) (session : SecOTRSession P) :
    Option (List UInt8) :=
  match codec.appendFullIdentity session.me, codec.appendPublicIdentity session.them,
    appendFullKeys codec session with
  | some me, some them, some fullKeys =>
    some ([6] ++ AppendLong session.state.number ++ me ++ them ++ session.r ++
      appendMessage session.receivedDHMessage ++ appendMessage session.receivedDHKeyMessage ++
      AppendLong session.keyID ++ fullKeys ++ [numberOfKeys session] ++
      AppendLong session.theirKeyID ++ appendPublicKey session.theirPreviousKey ++
      appendPublicKey session.theirKey ++ appendAllCounters session ++ appendSettings session)
  | _, _, _ => none

def CFDataCreateMutableFromOTRDATA (c : Cursor) : Option (List UInt8) × Cursor :=
  match ReadLong c with
  | .error _ => (none, c)
  | .ok (sizeInStream, c) =>
    if sizeInStream.toNat ≤ c.size then
      (some (c.peek sizeInStream.toNat), c.skip sizeInStream.toNat)
    else (none, c)

def readMessage (c : Cursor) : Option (List UInt8) × Cursor :=
  match ReadByte c with
  | .error _ => (none, c)
  | .ok (hasMessage, c) =>
    if hasMessage ≠ 0 then CFDataCreateMutableFromOTRDATA c else (none, c)

def readReady (version : UInt8) (state : SecOTRAuthState) (c : Cursor) :
    Option (SecOTRAuthState × Cursor) :=
  if version < 3 then
    match ReadByte c with
    | .error _ => none
    | .ok (ready, c) => some (if ready ≠ 0 ∧ state = .kIdle then .kDone else state, c)
  else some (state, c)

def ReadMPI (c : Cursor) : Option (List UInt8 × Cursor) :=
  if 5 ≤ c.size then
    match ReadLong c with
    | .error _ => none
    | .ok (mpiLength, c) =>
      if mpiLength.toNat ≤ c.size then some (c.peek mpiLength.toNat, c.skip mpiLength.toNat)
      else none
  else none

def SecOTRFullDHKCreateFromBytes (codec : Codec P) (c : Cursor) : Option (P.FullKey × Cursor) :=
  match ReadLong c with
  | .error _ => none
  | .ok (publicKeySize, c) =>
    if publicKeySize.toNat ≤ c.size then
      match P.ccec_import_pub (c.peek publicKeySize.toNat) with
      | none => none
      | some publicKey =>
        (ReadMPI (c.skip publicKeySize.toNat)).map fun (k, c) => (codec.fullKey publicKey k, c)
    else none

def readFullKeys (codec : Codec P) (keyID : UInt32) (c : Cursor) :
    Option ((Option P.FullKey × Option P.FullKey) × Cursor) :=
  if 0 < keyID then
    match SecOTRFullDHKCreateFromBytes codec c with
    | none => none
    | some (myKey, c) =>
      (SecOTRFullDHKCreateFromBytes codec c).map fun (myNextKey, c) =>
        ((some myKey, some myNextKey), c)
  else some ((none, none), c)

def readPublicKey (c : Cursor) : Option (P.PublicKey × Cursor) :=
  match ReadLong c with
  | .error _ => none
  | .ok (publicKeySize, rest) =>
    if publicKeySize.toNat ≤ rest.size then
      (P.ccec_import_pub (rest.peek publicKeySize.toNat)).map fun key =>
        (key, rest.skip publicKeySize.toNat)
    else none

/-- Their keys, the previous one first. Before version 5 the key ID told their number. -/
def readPublicKeys (version numberOfKeys : UInt8) (theirKeyID : UInt32) (c : Cursor) :
    Option ((Option P.PublicKey × Option P.PublicKey) × Cursor) :=
  let count := if version < 5 then theirKeyID.toNat else numberOfKeys.toNat
  if count = 0 then some ((none, none), c)
  else if count = 1 then (readPublicKey c).map fun (theirKey, c) => ((none, some theirKey), c)
  else
    match readPublicKey c with
    | none => none
    | some (theirPreviousKey, c) =>
      (readPublicKey c).map fun (theirKey, c) => ((some theirPreviousKey, some theirKey), c)

/-- Set the counters of a pair; those of a pair that lacks a key are dropped. -/
def setCounters (session : SecOTRSession P) (myKey? : Option P.FullKey)
    (theirKey? : Option P.PublicKey) (counters : UInt64 × UInt64) : SecOTRSession P :=
  match myKey?, theirKey? with
  | some myKey, some theirKey =>
    let (session, i) := SecOTRSFindKeysForMessage session myKey theirKey
    session.setKeyCache (Function.update session.keyCache i
      { session.keyCache i with theirCounter := counters.1, counter := counters.2 })
  | _, _ => session

def readCounters (c : Cursor) : Option ((UInt64 × UInt64) × Cursor) :=
  match ReadLongLong c with
  | .error _ => none
  | .ok (theirCounter, c) =>
    match ReadLongLong c with
    | .error _ => none
    | .ok (counter, c) => some ((theirCounter, counter), c)

def readAllCounters (session : SecOTRSession P) (c : Cursor) : Option (SecOTRSession P × Cursor) :=
  match readCounters c with
  | none => none
  | some (first, c) =>
    match readCounters c with
    | none => none
    | some (second, c) =>
      match readCounters c with
      | none => none
      | some (third, c) =>
        (readCounters c).map fun (fourth, c) =>
          let session' := setCounters session session.myKey session.theirKey first
          let session' := setCounters session' session.myKey session.theirPreviousKey second
          let session' := setCounters session' session.myNextKey session.theirKey third
          (setCounters session' session.myNextKey session.theirPreviousKey fourth, c)

def ReadByteAsBool (c : Cursor) : Option (Bool × Cursor) :=
  match ReadByte c with
  | .error _ => none
  | .ok (byte, c) => some (decide (byte ≠ 0), c)

def readSettings (version : UInt8) (session : SecOTRSession P) (c : Cursor) :
    Option (SecOTRSession P) := do
  let macKeys := CFDataCreateMutableFromOTRDATA c
  let macKeysToExpose ← macKeys.1
  let textOutput ← ReadByteAsBool macKeys.2
  let session := { session with
    macKeysToExpose := macKeysToExpose
    textOutput := textOutput.1 }
  if version < 4 then some session
  else
    let compact ← ReadByteAsBool textOutput.2
    let session := { session with compactAppleMessages := compact.1 }
    if version < 5 then some session
    else
      let hashes ← ReadByteAsBool compact.2
      let session := { session with includeHashes := hashes.1 }
      if version < 6 then some session
      else
        let stallSeconds ← (ReadLongLong hashes.2).toOption
        let stalling ← ReadByteAsBool stallSeconds.2
        let timeToRoll ← (ReadLongLong stalling.2).toOption
        let missedAck ← ReadByteAsBool timeToRoll.2
        let receivedAck ← ReadByteAsBool missedAck.2
        some { session with
          stallSeconds := stallSeconds.1
          stallingTheirRoll := stalling.1
          timeToRoll := timeToRoll.1.toNat
          missedAck := missedAck.1
          receivedAck := receivedAck.1 }

def readKeys (codec : Codec P) (version : UInt8) (session : SecOTRSession P) (c : Cursor) :
    Option (SecOTRSession P × Cursor) := do
  let keyID ← (ReadLong c).toOption
  let fullKeys ← readFullKeys codec keyID.1 keyID.2
  let numberOfKeys ← (ReadByte fullKeys.2).toOption
  let theirKeyID ← (ReadLong numberOfKeys.2).toOption
  let publicKeys ← readPublicKeys version numberOfKeys.1 theirKeyID.1 theirKeyID.2
  readAllCounters { session with
    keyID := keyID.1
    myKey := fullKeys.1.1
    myNextKey := fullKeys.1.2
    theirKeyID := theirKeyID.1
    theirPreviousKey := publicKeys.1.1
    theirKey := publicKeys.1.2 } publicKeys.2

/-- `beyond` is the memory behind the data. -/
def SecOTRSessionCreateFromData (codec : Codec P) (data : List UInt8) (beyond : Nat → UInt8) :
    Option (SecOTRSession P) := do
  let version ← (ReadByte (.ofBytes data beyond)).toOption
  if version.1 ≤ 6 then
    let number ← (ReadLong version.2).toOption
    let state ← SecOTRAuthState.ofNumber number.1
    let me ← codec.readFullIdentity number.2
    let them ← codec.readPublicIdentity me.2
    if kOTRAuthKeyBytes < them.2.size then
      let dhMessage := readMessage (them.2.skip kOTRAuthKeyBytes)
      let dhKeyMessage :=
        if 2 ≤ version.1 then readMessage dhMessage.2 else (none, dhMessage.2)
      let ready ← readReady version.1 state dhKeyMessage.2
      let session := { SecOTRSessionCreateFromIDAndFlags (P := P) me.1 them.1
          (them.2.peek kOTRAuthKeyBytes) false false false 0 with
        state := ready.1
        receivedDHMessage := dhMessage.1
        receivedDHKeyMessage := dhKeyMessage.1 }
      let keys ← readKeys codec version.1 session ready.2
      readSettings version.1 keys.1 keys.2
    else none
  else none
end SecurityFramework.Otr
