import SecurityFramework.CodeSigning.RequirementInterpreter

/-! # Requirement expressions -/

namespace SecurityFramework
open Scanner

namespace Requirement
inductive CertField where
  | opCertField
  | opCertGeneric
  | opCertFieldDate
  | opCertPolicy
deriving DecidableEq

def CertField.op : CertField → ExprOp
  | opCertField => .opCertField
  | opCertGeneric => .opCertGeneric
  | opCertFieldDate => .opCertFieldDate
  | opCertPolicy => .opCertPolicy

inductive Test where
  | opFalse
  | opTrue
  | opIdent (identifier : List UInt8)
  | opAppleAnchor
  | opAppleGenericAnchor
  | opAnchorHash (slot : Int) (digest : List UInt8)
  | opInfoKeyValue (key value : List UInt8)
  | opCDHash (hash : List UInt8)
  | opInfoKeyField (key : List UInt8) (suffix : Suffix)
  | opEntitlementField (key : List UInt8) (suffix : Suffix)
  | certField (field : CertField) (slot : Int) (key : List UInt8) (suffix : Suffix)
  | opTrustedCert (slot : Int)
  | opTrustedCerts
  | opNamedAnchor (name : List UInt8)
  | opNamedCode (name : List UInt8)
  | opPlatform (platform : Int)
  | opNotarized
  | opLegacyDevID

/-- An expression. The generic operators are those of unknown meaning that tell their size. -/
inductive Expr where
  | test (test : Test)
  | opAnd (left right : Expr)
  | opOr (left right : Expr)
  | opNot (operand : Expr)
  | genericFalse (op length : Nat)
  | genericSkip (op length : Nat) (rest : Expr)

namespace Test
def op : Test → ExprOp
  | opFalse => .opFalse
  | opTrue => .opTrue
  | opIdent _ => .opIdent
  | opAppleAnchor => .opAppleAnchor
  | opAppleGenericAnchor => .opAppleGenericAnchor
  | opAnchorHash _ _ => .opAnchorHash
  | opInfoKeyValue _ _ => .opInfoKeyValue
  | opCDHash _ => .opCDHash
  | opInfoKeyField _ _ => .opInfoKeyField
  | opEntitlementField _ _ => .opEntitlementField
  | certField field _ _ _ => field.op
  | opTrustedCert _ => .opTrustedCert
  | opTrustedCerts => .opTrustedCerts
  | opNamedAnchor _ => .opNamedAnchor
  | opNamedCode _ => .opNamedCode
  | opPlatform _ => .opPlatform
  | opNotarized => .opNotarized
  | opLegacyDevID => .opLegacyDevID
end Test

def Int32At (req : List UInt8) (start : Nat) (value : Int) (stop : Nat) : Prop :=
  ∃ word, NumberAt req 4 start word stop ∧ value = CodeDirectory.toSlot word

def Test.OperandsAt (req : List UInt8) : Test → Nat → Nat → Prop
  | opIdent identifier, start, stop => DataAt req start identifier stop
  | opAnchorHash slot digest, start, stop =>
    ∃ mid, Int32At req start slot mid ∧ DataAt req mid digest stop ∧ digest.length = 20
  | opInfoKeyValue key value, start, stop =>
    ∃ mid, DataAt req start key mid ∧ DataAt req mid value stop
  | opCDHash hash, start, stop => DataAt req start hash stop
  | opInfoKeyField key suffix, start, stop =>
    ∃ mid, DataAt req start key mid ∧ suffix.At req mid stop
  | opEntitlementField key suffix, start, stop =>
    ∃ mid, DataAt req start key mid ∧ suffix.At req mid stop
  | certField _ slot key suffix, start, stop =>
    ∃ mid mid', Int32At req start slot mid ∧ DataAt req mid key mid' ∧ suffix.At req mid' stop
  | opTrustedCert slot, start, stop => Int32At req start slot stop
  | opNamedAnchor name, start, stop => DataAt req start name stop
  | opNamedCode name, start, stop => DataAt req start name stop
  | opPlatform platform, start, stop => Int32At req start platform stop
  | opFalse, start, stop | opTrue, start, stop | opAppleAnchor, start, stop
  | opAppleGenericAnchor, start, stop | opTrustedCerts, start, stop | opNotarized, start, stop
  | opLegacyDevID, start, stop => stop = start

/-- The expression stands at `start`. An operator that is known may carry any flags. -/
inductive Expr.At (req : List UInt8) : Expr → Nat → Nat → Prop where
  | test {word start mid stop : Nat} {test : Test} (hword : NumberAt req 4 start word mid)
      (hop : ExprOp.ofWord word = some test.op) (hoperands : test.OperandsAt req mid stop) :
      At req (.test test) start stop
  | opAnd {word start first second stop : Nat} {left right : Expr}
      (hword : NumberAt req 4 start word first) (hop : ExprOp.ofWord word = some .opAnd)
      (hleft : At req left first second) (hright : At req right second stop) :
      At req (.opAnd left right) start stop
  | opOr {word start first second stop : Nat} {left right : Expr}
      (hword : NumberAt req 4 start word first) (hop : ExprOp.ofWord word = some .opOr)
      (hleft : At req left first second) (hright : At req right second stop) :
      At req (.opOr left right) start stop
  | opNot {word start first stop : Nat} {operand : Expr}
      (hword : NumberAt req 4 start word first) (hop : ExprOp.ofWord word = some .opNot)
      (hoperand : At req operand first stop) : At req (.opNot operand) start stop
  | genericFalse {word length start first stop : Nat} (hword : NumberAt req 4 start word first)
      (hop : ExprOp.ofWord word = none) (hflag : word &&& opGenericFalse ≠ 0)
      (hsized : SizedAt req first length stop) : At req (.genericFalse word length) start stop
  | genericSkip {word length start first second stop : Nat} {rest : Expr}
      (hword : NumberAt req 4 start word first) (hop : ExprOp.ofWord word = none)
      (hfalse : word &&& opGenericFalse = 0) (hflag : word &&& opGenericSkip ≠ 0)
      (hsized : SizedAt req first length second) (hrest : At req rest second stop) :
      At req (.genericSkip word length rest) start stop

def Expr.height : Expr → Nat
  | test _ => 1
  | opAnd left right => max left.height right.height + 1
  | opOr left right => max left.height right.height + 1
  | opNot operand => operand.height + 1
  | genericFalse _ _ => 1
  | genericSkip _ _ rest => rest.height + 1

def Expr.tests : Expr → List Test
  | test t => [t]
  | opAnd left right => left.tests ++ right.tests
  | opOr left right => left.tests ++ right.tests
  | opNot operand => operand.tests
  | genericFalse _ _ => []
  | genericSkip _ _ rest => rest.tests

section Denote

variable {Certificate : Type} (services : Services Certificate) (ctx : Context Certificate)

/-- The certificate of a slot, counted from the end of the chain where it is negative. -/
def Context.certAt (ix : Int) : Option Certificate :=
  match ctx.certs with
  | none => none
  | some certs =>
    if ix < 0 then
      if ix + certs.length < 0 then none else certs[(ix + certs.length).toNat]?
    else
      certs[ix.toNat]?

/-- Signed by Apple as its product: in the trust cache, under an Apple anchor with Apple's
intermediate, or under a local anchor. -/
def appleProduct : Except OSStatus Bool := do
  let cached ← match ctx.directory with
    | none => .ok false
    | some directory => inTrustCache services directory
  if cached then
    return true
  else if appleAnchored services (ctx.certAt anchorCert) then
    return appleIntermediate services (ctx.certAt (-2))
  else
    return appleLocalAnchored services ctx (ctx.certAt leafCert)

def CertField.value (field : CertField) (key : List UInt8) (m : Match)
    (cert : Option Certificate) : Bool :=
  match field with
  | opCertField => certFieldValue services key m cert
  | opCertGeneric => certFieldGeneric services key m cert
  | opCertFieldDate => certFieldDate services key m cert
  | opCertPolicy => certFieldPolicy services key m cert

def Test.denote : Test → Except OSStatus Bool
  | opFalse => .ok false
  | opTrue => .ok true
  | opIdent identifier => .ok (ctx.directory.any fun directory => identifier = directory.identifier)
  | opAppleAnchor => appleProduct services ctx
  | opAppleGenericAnchor => .ok (appleAnchored services (ctx.certAt anchorCert))
  | opAnchorHash slot digest => .ok (verifyAnchor services (ctx.certAt slot) digest)
  | opInfoKeyValue key value => do
    infoKeyValue services ctx key (.ofString (← services.makeCFString value) .matchEqual)
  | opCDHash hash =>
    match ctx.directory with
    | none => .ok false
    | some directory => do return (← directory.cdhash) = hash
  | opInfoKeyField key suffix => do
    infoKeyValue services ctx key (← suffix.denote services.toCoreFoundation)
  | opEntitlementField key suffix => do
    entitlementValue services ctx key (← suffix.denote services.toCoreFoundation)
  | certField field slot key suffix => do
    return field.value services key (← suffix.denote services.toCoreFoundation) (ctx.certAt slot)
  | opTrustedCert slot => trustedCert services ctx (ctx.certAt slot) slot
  | opTrustedCerts => trustedCerts services ctx
  | opNamedAnchor name => services.fragment (ascii "anchorreq") name ctx
  | opNamedCode name => services.fragment (ascii "subreq") name ctx
  | opPlatform platform =>
    .ok (ctx.directory.any fun directory => (directory.platform : Int) = platform)
  | opNotarized => isNotarized services ctx
  | opLegacyDevID => meetsDeveloperIDLegacyAllowedPolicy services ctx (ctx.certAt leafCert)

def Expr.denote : Expr → Except OSStatus Bool
  | test t => t.denote services ctx
  | opAnd left right => do return (← left.denote) && (← right.denote)
  | opOr left right => do return (← left.denote) || (← right.denote)
  | opNot operand => do return !(← operand.denote)
  | genericFalse _ _ => .ok false
  | genericSkip _ _ rest => rest.denote
end Denote
end Requirement
end SecurityFramework
