import SecurityFramework.CodeSigning.RequirementMatch

/-!
# The requirement interpreter

`eval` decodes a program while it evaluates it. Both operands of a connective are evaluated
whatever the first one says.
-/

namespace SecurityFramework
open Scanner

namespace Requirement
inductive SecTrustSettingsResult where
  | kSecTrustSettingsResultInvalid
  | kSecTrustSettingsResultTrustRoot
  | kSecTrustSettingsResultTrustAsRoot
  | kSecTrustSettingsResultDeny
  | kSecTrustSettingsResultUnspecified
deriving DecidableEq

inductive SubjectAttribute where
  | oidCountryName
  | oidCommonName
  | oidDescription
  | oidLocalityName
  | oidOrganizationName
  | oidCollectiveOrganizationName
  | oidOrganizationalUnitName
  | oidCollectiveOrganizationalUnitName
  | oidStateOrProvinceName
  | oidCollectiveStateOrProvinceName
  | oidStreetAddress
  | oidCollectiveStreetAddress
  | oidUserId
deriving DecidableEq

structure Directory where
  identifier : List UInt8
  cdhash : Except OSStatus (List UInt8)
  platform : Nat
  hashType : Nat

structure Context (Certificate : Type) where
  certs : Option (List Certificate)
  info : Option (List (Plist × Plist))
  entitlements : Option (List (Plist × Plist))
  directory : Option Directory
  packageChecksum : Option (List UInt8)
  packageAlgorithm : Nat
  forcePlatform : Bool
  secureTimestamp : Option CFAbsoluteTime
  teamIdentifier : Option (List UInt8)

structure Services (Certificate : Type) extends CoreFoundation where
  octets : Certificate → List UInt8
  sha1 : List UInt8 → List UInt8
  sha256Digest : Option Certificate → Option (List UInt8)
  subjectAttribute : Certificate → SubjectAttribute → Option CFString
  emailAddresses : Certificate → Option (List CFString)
  hasField : Certificate → List UInt8 → Bool
  fieldDate : Certificate → List UInt8 → Option CFAbsoluteTime
  hasPolicy : Certificate → List UInt8 → Bool
  isAppleCA : Certificate → Bool
  cdhashInTrustcache : List UInt8 → Bool
  csrAllowAppleInternal : Bool
  additionalTrustedAnchors : Option (List (List UInt8))
  /-- The setting found for the uppercase hex form of a hash, if any. -/
  trustSettingsEvaluate : List UInt8 → Bool → Except OSStatus (Option SecTrustSettingsResult)
  /-- The value of the requirement in the named fragment of a type, false if there is none. -/
  fragment : List UInt8 → List UInt8 → Context Certificate → Except OSStatus Bool
  ticketLookup : List UInt8 → Nat → Bool
  /-- The date of a developer's certificate, or the code of the error. -/
  developerIDDate : Option Certificate → Except Int CFAbsoluteTime
  accountCreationCutOff : CFAbsoluteTime
  secureTimestampCutOff : CFAbsoluteTime
  legacyCheck : List UInt8 → Nat → Option (List UInt8) → Bool

def errSecMissingRequiredExtension : Int := -67880

def kSecCodeSignatureNoHash : Nat := 0

def stackLimit : Nat := 1000

namespace Context
variable {Certificate : Type} (ctx : Context Certificate)

def certCount : Nat := (ctx.certs.getD []).length

/-- `cert(ix)`: no certificate from the end of the chain on, and undefined for a negative slot
that leads to before the leaf. -/
def cert (ix : Int) : Outcome OSStatus (Option Certificate) :=
  match ctx.certs with
  | none => pure none
  | some certs =>
    let ix := if ix < 0 then ix + ctx.certCount else ix
    if ix ≥ certs.length then
      pure none
    else if ix < 0 then
      fault
    else
      pure certs[ix.toNat]?
end Context

section Tests

variable {Certificate : Type} (services : Services Certificate) (ctx : Context Certificate)

def dictionaryGetValue (dict : List (Plist × Plist)) (key : CFString) : Option Plist :=
  (dict.find? fun entry => cfEqual entry.1 (.string key)).map (·.2)

def dictionaryValue (dict : Option (List (Plist × Plist))) (key : List UInt8) (m : Match) :
    Except OSStatus Bool :=
  match dict with
  | none => return m.apply services.toCoreFoundation .null
  | some dict => do
    let key ← services.makeCFString key
    match dictionaryGetValue dict key with
    | some value => return m.apply services.toCoreFoundation value
    | none => return m.apply services.toCoreFoundation .null

def infoKeyValue (key : List UInt8) (m : Match) : Except OSStatus Bool :=
  dictionaryValue services ctx.info key m

def entitlementValue (key : List UInt8) (m : Match) : Except OSStatus Bool :=
  dictionaryValue services ctx.entitlements key m

def certFields : List (String × SubjectAttribute) :=
  [("subject.C", .oidCountryName), ("subject.CN", .oidCommonName),
    ("subject.D", .oidDescription), ("subject.L", .oidLocalityName),
    ("subject.O", .oidOrganizationName), ("subject.C-O", .oidCollectiveOrganizationName),
    ("subject.OU", .oidOrganizationalUnitName),
    ("subject.C-OU", .oidCollectiveOrganizationalUnitName),
    ("subject.ST", .oidStateOrProvinceName),
    ("subject.C-ST", .oidCollectiveStateOrProvinceName),
    ("subject.STREET", .oidStreetAddress),
    ("subject.C-STREET", .oidCollectiveStreetAddress), ("subject.UID", .oidUserId)]

def certFieldValue (key : List UInt8) (m : Match) (cert : Option Certificate) : Bool :=
  match cert with
  | none => false
  | some cert =>
    match certFields.find? fun field => ascii field.1 = key with
    | some field =>
      match services.subjectAttribute cert field.2 with
      | some value => m.apply services.toCoreFoundation (.string value)
      | none => false
    | none =>
      if key = ascii "email" then
        match services.emailAddresses cert with
        | some addresses => m.apply services.toCoreFoundation (.array (addresses.map .string))
        | none => false
      else
        false

def matchPresence (m : Match) (present : Bool) : Bool :=
  m.apply services.toCoreFoundation (if present then .boolean true else .null)

def certFieldGeneric (oid : List UInt8) (m : Match) (cert : Option Certificate) : Bool :=
  cert.any fun cert => matchPresence services m (services.hasField cert oid)

def certFieldDate (oid : List UInt8) (m : Match) (cert : Option Certificate) : Bool :=
  match cert.bind fun cert => services.fieldDate cert oid with
  | some date => m.apply services.toCoreFoundation (.date date)
  | none => m.apply services.toCoreFoundation .null

def certFieldPolicy (oid : List UInt8) (m : Match) (cert : Option Certificate) : Bool :=
  cert.any fun cert => matchPresence services m (services.hasPolicy cert oid)

def verifyAnchor (cert : Option Certificate) (digest : List UInt8) : Bool :=
  cert.any fun cert => services.sha1 (services.octets cert) = digest

def trustSetting (cert : Certificate) (isAnchor : Bool) : Except OSStatus SecTrustSettingsResult :=
  do
    match ← services.trustSettingsEvaluate (services.sha1 (services.octets cert)) isAnchor with
    | some result => return result
    | none => return .kSecTrustSettingsResultUnspecified

def trustedChain : List Certificate → Except OSStatus Bool
  | [] => return false
  | cert :: certs => do
    match ← trustSetting services cert certs.isEmpty with
    | .kSecTrustSettingsResultTrustRoot | .kSecTrustSettingsResultTrustAsRoot => return true
    | .kSecTrustSettingsResultDeny => return false
    | .kSecTrustSettingsResultUnspecified => trustedChain certs
    | .kSecTrustSettingsResultInvalid => return false

def trustedCerts : Except OSStatus Bool := trustedChain services (ctx.certs.getD [])

def trustedCert (cert : Option Certificate) (slot : Int) : Except OSStatus Bool :=
  match cert with
  | none => return false
  | some cert => do
    match ← trustSetting services cert (slot = anchorCert ∨ slot = (ctx.certCount : Int) - 1) with
    | .kSecTrustSettingsResultTrustRoot | .kSecTrustSettingsResultTrustAsRoot => return true
    | _ => return false

def appleAnchored (anchor : Option Certificate) : Bool := anchor.any services.isAppleCA

attribute [local instance] DER.lawfulBEq_octets in
def appleLocalAnchored (leaf : Option Certificate) : Bool :=
  if services.csrAllowAppleInternal then
    false
  else if ctx.forcePlatform then
    true
  else
    match services.additionalTrustedAnchors with
    | none => false
    | some anchors =>
      match services.sha256Digest leaf with
      | none => false
      | some hash => hash ∈ anchors

def AMFI_INTF_CD_HASH_LEN : Nat := 20

def inTrustCache (directory : Directory) : Except OSStatus Bool := do
  let cdhash ← directory.cdhash
  return cdhash.length = AMFI_INTF_CD_HASH_LEN ∧ services.cdhashInTrustcache cdhash

def appleIntermediateCN : CFString :=
  "Apple Code Signing Certification Authority".toList.map fun c => UInt16.ofNat c.toNat

def appleIntermediateO : CFString := "Apple Inc.".toList.map fun c => UInt16.ofNat c.toNat

def appleIntermediate (intermed : Option Certificate) : Bool :=
  certFieldValue services (ascii "subject.CN")
      (.ofString appleIntermediateCN .matchEqual) intermed &&
    certFieldValue services (ascii "subject.O")
      (.ofString appleIntermediateO .matchEqual) intermed

/-- `appleSigned` reads the directory, which may be null. -/
def appleSigned : Outcome OSStatus Bool := do
  match ctx.directory with
  | none => fault
  | some directory =>
    if ← liftExcept (inTrustCache services directory) then
      return true
    else if appleAnchored services (← ctx.cert anchorCert) then
      return appleIntermediate services (← ctx.cert (-2))
    else
      return appleLocalAnchored services ctx (← ctx.cert leafCert)

def ticketHash : Except OSStatus (Option (List UInt8) × Nat) :=
  match ctx.directory with
  | some directory => do return (some (← directory.cdhash), directory.hashType)
  | none =>
    match ctx.packageChecksum with
    | some packageChecksum => return (some packageChecksum, ctx.packageAlgorithm)
    | none => return (none, kSecCodeSignatureNoHash)

def isNotarized : Except OSStatus Bool := do
  match ← ticketHash ctx with
  | (some cd, hashType) => return services.ticketLookup cd hashType
  | (none, _) => return false

def onLegacyList : Except OSStatus Bool := do
  match ← ticketHash ctx with
  | (some cd, hashType) => return services.legacyCheck cd hashType ctx.teamIdentifier
  | (none, _) => return false

def meetsDeveloperIDLegacyAllowedPolicy (cert : Option Certificate) : Except OSStatus Bool :=
  match services.developerIDDate cert with
  | .ok accountCreationTime =>
    if accountCreationTime ≥ services.accountCreationCutOff then return false else timestamp
  | .error errorCode => if errorCode ≠ errSecMissingRequiredExtension then return false else timestamp
where
  timestamp : Except OSStatus Bool :=
    match ctx.secureTimestamp with
    | some secureTimestamp =>
      if secureTimestamp ≥ services.secureTimestampCutOff then onLegacyList services ctx
      else return true
    | none => onLegacyList services ctx
end Tests

section Eval

variable {Certificate : Type} (services : Services Certificate) (req : List UInt8)
  (ctx : Context Certificate)

def evalField (test : List UInt8 → Match → Except OSStatus Bool) : Scan OSStatus Bool := do
  let key ← Reader.getString req
  let m ← Match.read services.toCoreFoundation req
  liftExcept (test key m)

def evalCertField (test : List UInt8 → Match → Option Certificate → Bool) :
    Scan OSStatus Bool := do
  let cert ← ctx.cert (← Reader.getInt32 req)
  let key ← Reader.getString req
  let m ← Match.read services.toCoreFoundation req
  return test key m cert

def evalTest (op : ExprOp) : Scan OSStatus Bool := do
  match op with
  | .opFalse => return false
  | .opTrue => return true
  | .opIdent =>
    match ctx.directory with
    | none => return false
    | some directory => return (← Reader.getString req) = directory.identifier
  | .opAppleAnchor => appleSigned services ctx
  | .opAppleGenericAnchor => return appleAnchored services (← ctx.cert anchorCert)
  | .opAnchorHash =>
    let cert ← ctx.cert (← Reader.getInt32 req)
    return verifyAnchor services cert (← Reader.getSHA1 req)
  | .opInfoKeyValue =>
    let key ← Reader.getString req
    let value ← liftExcept (services.makeCFString (← Reader.getString req))
    liftExcept (infoKeyValue services ctx key (.ofString value .matchEqual))
  | .opCDHash =>
    match ctx.directory with
    | none => return false
    | some directory =>
      let cdhash ← liftExcept directory.cdhash
      let required ← Reader.getHash req
      return cdhash = required
  | .opInfoKeyField => evalField services req (infoKeyValue services ctx)
  | .opEntitlementField => evalField services req (entitlementValue services ctx)
  | .opCertField => evalCertField services req ctx (certFieldValue services)
  | .opCertGeneric => evalCertField services req ctx (certFieldGeneric services)
  | .opCertFieldDate => evalCertField services req ctx (certFieldDate services)
  | .opCertPolicy => evalCertField services req ctx (certFieldPolicy services)
  | .opTrustedCert =>
    let slot ← Reader.getInt32 req
    let cert ← ctx.cert slot
    liftExcept (trustedCert services ctx cert slot)
  | .opTrustedCerts => liftExcept (trustedCerts services ctx)
  | .opNamedAnchor =>
    let name ← Reader.getString req
    liftExcept (services.fragment (ascii "anchorreq") name ctx)
  | .opNamedCode =>
    let name ← Reader.getString req
    liftExcept (services.fragment (ascii "subreq") name ctx)
  | .opPlatform =>
    let targetPlatform ← Reader.getInt32 req
    return ctx.directory.any fun directory => (directory.platform : Int) = targetPlatform
  | .opNotarized => liftExcept (isNotarized services ctx)
  | .opLegacyDevID =>
    let cert ← ctx.cert leafCert
    liftExcept (meetsDeveloperIDLegacyAllowedPolicy services ctx cert)
  -- the connectives, which `eval` handles
  | .opAnd | .opOr | .opNot => throw errSecCSUnimplemented

def evalOp (nested : Scan OSStatus Bool) (op : Nat) : Scan OSStatus Bool :=
  match ExprOp.ofWord op with
  | some .opAnd => do
    let left ← nested
    let right ← nested
    return left && right
  | some .opOr => do
    let left ← nested
    let right ← nested
    return left || right
  | some .opNot => do
    let value ← nested
    return !value
  | some test => evalTest services req ctx test
  | none =>
    -- an unknown operator has a size field if a flag says so
    if op &&& opGenericFalse ≠ 0 then do
      Reader.get req 4 >>= Reader.skip req
      return false
    else if op &&& opGenericSkip ≠ 0 then do
      Reader.get req 4 >>= Reader.skip req
      nested
    else
      throw errSecCSUnimplemented

def eval : Nat → Scan OSStatus Bool
  | 0 => throw errSecCSReqInvalid
  | depth + 1 =>
    if depth = 0 then
      throw errSecCSReqInvalid
    else do
      let op ← Reader.get req 4
      evalOp services req ctx (eval depth) op

def evaluate : Scan OSStatus Bool := eval services req ctx stackLimit

def validates : Outcome OSStatus Bool := do
  match kind req with
  | none => fault
  | some kind =>
    if kind = exprForm then
      let (value, _) ← evaluate services req ctx size
      return value
    else
      throw errSecCSReqUnsupported
end Eval
end Requirement
end SecurityFramework
