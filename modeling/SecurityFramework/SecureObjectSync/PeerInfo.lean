import SecurityFramework.Utilities.DerPlist

/-!
# Peer infos

A peer describes itself in a dictionary that it signs.
-/

namespace SecurityFramework
open DER

def cfDictionaryGetValue (dict : List (Plist × Plist)) (key : CFString) : Option Plist :=
  (dict.find? fun entry => cfEqual entry.1 (.string key)).map Prod.snd

def cfDictionarySetValue (dict : List (Plist × Plist)) (key : CFString) (value : Plist) :
    List (Plist × Plist) :=
  if dict.any fun entry => cfEqual entry.1 (.string key) then
    dict.map fun entry => if cfEqual entry.1 (.string key) then (entry.1, value) else entry
  else dict ++ [(.string key, value)]

theorem cfEqual_string_iff {p : Plist} {units : CFString} :
    cfEqual p (.string units) = true ↔ p = .string units := by
  cases p <;> simp [cfEqual]

variable (dict : List (Plist × Plist))

theorem cfDictionaryGetValue_setValue (key : CFString) (value : Plist) :
    cfDictionaryGetValue (cfDictionarySetValue dict key value) key = some value := by
  rw [cfDictionaryGetValue, cfDictionarySetValue]
  split
  case isTrue hany =>
    obtain ⟨entry, hentry, hkey⟩ := List.any_eq_true.mp hany
    cases hfind : (dict.map fun entry =>
        if cfEqual entry.1 (.string key) then (entry.1, value) else entry).find?
        (fun entry => cfEqual entry.1 (.string key)) with
    | none =>
      rw [List.find?_eq_none] at hfind
      have hmem := List.mem_map_of_mem (f := fun entry : Plist × Plist =>
        if cfEqual entry.1 (.string key) then (entry.1, value) else entry) hentry
      simp only [hkey, if_true] at hmem
      exact absurd hkey (hfind (entry.1, value) hmem)
    | some found =>
      have hfound := List.find?_some hfind
      obtain ⟨old, -, hold⟩ := List.mem_map.mp (List.mem_of_find?_eq_some hfind)
      split at hold
      case isTrue =>
        rw [Option.map_some, ← hold]
      case isFalse hne =>
        rw [← hold] at hfound
        exact absurd hfound hne
  case isFalse hany =>
    rw [Bool.not_eq_true, List.any_eq_false] at hany
    have hnone : (dict.find? fun entry => cfEqual entry.1 (.string key)) = none :=
      List.find?_eq_none.mpr hany
    rw [List.find?_append, hnone]
    simp [cfEqual]

theorem cfDictionaryGetValue_setValue_of_ne {key key' : CFString} (value : Plist)
    (hne : key ≠ key') :
    cfDictionaryGetValue (cfDictionarySetValue dict key value) key' =
      cfDictionaryGetValue dict key' := by
  rw [cfDictionaryGetValue, cfDictionarySetValue, cfDictionaryGetValue]
  split
  case isTrue =>
    have hkept : ∀ entry : Plist × Plist,
        (if cfEqual entry.1 (.string key) then (entry.1, value) else entry).1 = entry.1 := by
      intro entry
      split <;> rfl
    rw [List.find?_map]
    simp only [Function.comp_def, hkept, Option.map_map]
    cases hfind : dict.find? (fun entry => cfEqual entry.1 (.string key')) with
    | none => rfl
    | some found =>
      have hfound : found.1 = .string key' := by
        have hequal := List.find?_some hfind
        exact cfEqual_string_iff.mp hequal
      have hother : ¬ cfEqual found.1 (.string key) = true := by
        rw [hfound, cfEqual_string_iff, Plist.string.injEq]
        exact hne.symm
      simp only [Option.map_some, if_neg hother]
  case isFalse =>
    have hother : ¬ cfEqual (.string key) (.string key') = true := by
      rw [cfEqual_string_iff, Plist.string.injEq]
      exact hne
    rw [List.find?_append, List.find?_singleton, if_neg hother, Option.or_none]

theorem cfDictionarySetValue_setValue (key : CFString) (value : Plist) :
    cfDictionarySetValue (cfDictionarySetValue dict key value) key value =
      cfDictionarySetValue dict key value := by
  have hkept : ∀ entry : Plist × Plist,
      (if cfEqual entry.1 (.string key) then (entry.1, value) else entry).1 = entry.1 := by
    intro entry
    split <;> rfl
  by_cases hany : (dict.any fun entry => cfEqual entry.1 (.string key)) = true
  · rw [cfDictionarySetValue, cfDictionarySetValue, if_pos hany, if_pos, List.map_map]
    · apply List.map_congr_left
      intro entry _
      rw [Function.comp_apply, hkept]
      split <;> rfl
    · rw [List.any_map]
      simp only [Function.comp_def, hkept]
      exact hany
  · have hself : cfEqual (.string key) (.string key) = true := cfEqual_string_iff.mpr rfl
    rw [cfDictionarySetValue, cfDictionarySetValue, if_neg hany, if_pos]
    · rw [List.map_append, List.map_singleton, if_pos hself, List.append_left_inj]
      rw [Bool.not_eq_true, List.any_eq_false] at hany
      have hothers : ∀ entry ∈ dict,
          (if cfEqual entry.1 (.string key) then (entry.1, value) else entry) = entry :=
        fun entry hentry => if_neg (hany entry hentry)
      rw [List.map_congr_left hothers, List.map_id']
    · rw [List.any_append, List.any_cons, hself, Bool.true_or, Bool.or_true]

def asData : Plist → Option (List UInt8)
  | .data octets => some octets
  | _ => none

/-- The functions of keys and digests that peer infos and circles are signed and told apart by. -/
structure SecKeys (κ : Type) where
  /-- `SecKeyCreateFromPublicData`. -/
  createFromPublicData : List UInt8 → Option κ
  /-- `SecKeyCreatePublicFromPrivate`. -/
  createPublicFromPrivate : κ → Option κ
  /-- `SecKeyCopyPublicBytes`. -/
  copyPublicBytes : κ → Option (List UInt8)
  /-- `SecKeyRawSign`. -/
  rawSign : κ → List UInt8 → Option (List UInt8)
  /-- `SecKeyRawVerify`. -/
  rawVerify : κ → List UInt8 → List UInt8 → Bool
  sha256 : List UInt8 → List UInt8
  /-- `SOSCopyIDOfDataBuffer`. -/
  idOfDataBuffer : List UInt8 → CFString

def sPublicKeyKey : CFString := cfstr "PublicSigningKey"

def sGestaltKey : CFString := cfstr "DeviceGestalt"

def sVersionKey : CFString := cfstr "ConflictVersion"

def sCloudIdentityKey : CFString := cfstr "CloudIdentity"

def sApplicationDate : CFString := cfstr "ApplicationDate"

def sApplicationUsig : CFString := cfstr "ApplicationUsig"

def sRetirementDate : CFString := cfstr "RetirementDate"

def sV2DictionaryKey : CFString := cfstr "V2DictionaryData"

structure SOSPeerInfo where
  description : List (Plist × Plist)
  signature : List UInt8
  peerID : CFString
  version : Int
  /-- The key that `verifiedResult` was found for. -/
  verifiedAppKeyID : Option CFString
  verifiedResult : Bool
  /-- What the description's V2 data is expanded to. -/
  v2Dictionary : Option (List (Plist × Plist))

namespace SOSPeerInfo
def value (pi : SOSPeerInfo) (key : CFString) : Option Plist :=
  cfDictionaryGetValue pi.description key

def data (pi : SOSPeerInfo) (key : CFString) : Option (List UInt8) :=
  (pi.value key).bind asData

def setValue (pi : SOSPeerInfo) (key : CFString) (value : Plist) : SOSPeerInfo :=
  { pi with description := cfDictionarySetValue pi.description key value }
end SOSPeerInfo

/-- Equality looks at the description and at the signature. -/
def SOSPeerInfoCompare (lhs rhs : SOSPeerInfo) : Bool :=
  cfEqual (.dictionary lhs.description) (.dictionary rhs.description) &&
    lhs.signature = rhs.signature

def SOSPeerInfoIsRetirementTicket (pi : SOSPeerInfo) : Bool := (pi.value sRetirementDate).isSome

def SOSPeerInfoIsCloudIdentity (pi : SOSPeerInfo) : Bool :=
  match pi.value sCloudIdentityKey with
  | some value => cfEqual value (.boolean true)
  | none => false

def kSOSPeerV2BaseVersion : Int := 2

def SOSPeerInfoVersionHasV2Data (pi : SOSPeerInfo) : Bool := kSOSPeerV2BaseVersion ≤ pi.version

section
variable (der : Primitives) (dates : DateSystem) {κ : Type} (keys : SecKeys κ)

def SOSCopyIDOfKey (key : κ) : Option CFString :=
  (keys.copyPublicBytes key).map keys.idOfDataBuffer

def SOSPeerInfoCopyPubKey (peer : SOSPeerInfo) : Option κ :=
  (peer.data sPublicKeyKey).bind keys.createFromPublicData

def SOSPeerInfoPackV2Data (pi : SOSPeerInfo) : SOSPeerInfo :=
  if SOSPeerInfoVersionHasV2Data pi then
    match pi.v2Dictionary.bind fun dict =>
      CFPropertyListCreateDERData der dates (.dictionary dict) with
    | some v2der => pi.setValue sV2DictionaryKey (.data v2der)
    | none => pi
  else pi

def SOSDescriptionHash (peer : SOSPeerInfo) : Option (List UInt8) × SOSPeerInfo :=
  let peer := SOSPeerInfoPackV2Data der dates peer
  ((CFPropertyListCreateDERData der dates (.dictionary peer.description)).map keys.sha256, peer)

def SOSPeerInfoSign (privKey : κ) (peer : SOSPeerInfo) : Option SOSPeerInfo := do
  let (hbuf, peer) := SOSDescriptionHash der dates keys peer
  let newSignature ← keys.rawSign privKey (← hbuf)
  some { peer with signature := newSignature }

def SOSPeerInfoVerify (peer : SOSPeerInfo) : Bool × SOSPeerInfo :=
  match SOSPeerInfoCopyPubKey keys peer with
  | none => (false, peer)
  | some pubKey =>
    let (hbuf, peer) := SOSDescriptionHash der dates keys peer
    (hbuf.any fun hbuf => keys.rawVerify pubKey hbuf peer.signature, peer)

def sospeer_application_hash (pi : SOSPeerInfo) : Option (List UInt8) := do
  let appdate ← pi.data sApplicationDate
  let pubKeyBytes ← pi.data sPublicKeyKey
  some (keys.sha256 (appdate ++ pubKeyBytes))

/-- A copy keeps the description, packed, and forgets what was found about its application. -/
def SOSPeerInfoCreateCopy (toCopy : SOSPeerInfo) : SOSPeerInfo :=
  { SOSPeerInfoPackV2Data der dates toCopy with
    verifiedAppKeyID := none
    verifiedResult := false
    v2Dictionary := none }

def SOSPeerInfoCopyAsApplication (original : SOSPeerInfo) (userkey peerkey : κ)
    (creationDate : List UInt8) : Option SOSPeerInfo := do
  let pi := SOSPeerInfoCreateCopy der dates original
  let pi := pi.setValue sApplicationDate (.data creationDate)
  let hbuf ← sospeer_application_hash keys pi
  let usersig ← keys.rawSign userkey hbuf
  let pi := pi.setValue sApplicationUsig (.data usersig)
  let userKeyID := SOSCopyIDOfKey keys userkey
  SOSPeerInfoSign der dates keys peerkey
    { pi with verifiedAppKeyID := userKeyID, verifiedResult := userKeyID.isSome }

def applicationSigned (pi : SOSPeerInfo) (userkey : κ) : Bool :=
  match pi.data sApplicationUsig, sospeer_application_hash keys pi with
  | some usig, some hbuf => keys.rawVerify userkey hbuf usig
  | _, _ => false

/-- Whether the peer info is an application under the user key. What was found about the user
signature is kept, whatever is then found about the peer's own. -/
def SOSPeerInfoApplicationVerify (pi : SOSPeerInfo) (userkey : Option κ) : Bool × SOSPeerInfo :=
  match userkey with
  | none => (false, pi)
  | some userkey =>
    let userKeyID := SOSCopyIDOfKey keys userkey
    if userKeyID = pi.verifiedAppKeyID then (pi.verifiedResult, pi)
    else if applicationSigned keys pi userkey then
      SOSPeerInfoVerify der dates keys
        { pi with verifiedAppKeyID := userKeyID, verifiedResult := true }
    else (false, { pi with verifiedAppKeyID := none, verifiedResult := false })
end

/-- A peer info and the private key of its device, if the key can be found. -/
structure SOSFullPeerInfo (κ : Type) where
  peerInfo : SOSPeerInfo
  deviceKey : Option κ

structure ClockReading where
  seconds : BitVec 32
  date : List UInt8

def SOSFullPeerInfoPromoteToApplication (der : Primitives) (dates : DateSystem) {κ : Type}
    (keys : SecKeys κ) (fpi : SOSFullPeerInfo κ) (user_key : κ) (now : ClockReading) :
    Option (SOSFullPeerInfo κ) := do
  let device_key ← fpi.deviceKey
  let peerInfo ←
    SOSPeerInfoCopyAsApplication der dates keys fpi.peerInfo user_key device_key now.date
  some { fpi with peerInfo }
end SecurityFramework
