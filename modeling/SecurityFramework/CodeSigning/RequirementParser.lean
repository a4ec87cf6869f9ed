import SecurityFramework.CdsaUtilities.OidText
import SecurityFramework.CodeSigning.RequirementLexer

/-!
# Making requirements

A maker puts the program of a requirement together, word after word, and shifts operators in
before what it has already put.
-/

namespace SecurityFramework
open Memory

namespace Requirement
def ExprOp.toWord (op : ExprOp) : Nat := ExprOp.values.idxOf op

def MatchOperation.toWord (op : MatchOperation) : Nat := MatchOperation.values.idxOf op

structure Maker where
  program : List UInt8
  deriving DecidableEq

namespace Maker
def empty : Maker := ⟨[]⟩

def alloc (maker : Maker) (octets : List UInt8) : Maker :=
  ⟨maker.program ++ octets ++ List.replicate ((4 - octets.length % 4) % 4) 0⟩

def putInt (maker : Maker) (width : Nat) (value : Int) : Maker :=
  maker.alloc (toBE width (value % 256 ^ width).toNat)

def putInt32 (maker : Maker) (value : Int) : Maker := maker.putInt 4 value

def putInt64 (maker : Maker) (value : Int) : Maker := maker.putInt 8 value

def putOp (maker : Maker) (op : ExprOp) : Maker := maker.putInt32 op.toWord

def putMatch (maker : Maker) (op : MatchOperation) : Maker := maker.putInt32 op.toWord

def putData (maker : Maker) (octets : List UInt8) : Maker :=
  (maker.putInt32 octets.length).alloc octets

def anchor (maker : Maker) (slot : Int) (digest : List UInt8) : Maker :=
  ((maker.putOp .opAnchorHash).putInt32 slot).putData digest

def trustedAnchors (maker : Maker) : Maker := maker.putOp .opTrustedCerts

def trustedAnchor (maker : Maker) (slot : Int) : Maker :=
  (maker.putOp .opTrustedCert).putInt32 slot

def ident (maker : Maker) (identifier : List UInt8) : Maker :=
  (maker.putOp .opIdent).putData identifier

def cdhash (maker : Maker) (digest : List UInt8) : Maker :=
  (maker.putOp .opCDHash).putData digest

def platform (maker : Maker) (platformIdentifier : Int) : Maker :=
  (maker.putOp .opPlatform).putInt32 platformIdentifier

def label (maker : Maker) : Nat := maker.program.length

/-- What is behind the label is shifted, and the operator comes before it. -/
def insert (maker : Maker) (label : Nat) (op : ExprOp) : Maker :=
  ⟨maker.program.take label ++ toBE 4 op.toWord ++ maker.program.drop label⟩

def make (maker : Maker) : List UInt8 :=
  toBE 4 typeMagic ++ toBE 4 (size + maker.program.length) ++ toBE 4 exprForm ++ maker.program
end Maker
end Requirement
end SecurityFramework

namespace SecurityFramework
namespace RequirementParser
open RequirementLexer Requirement

/-- A C string ends at its first null. -/
def cString (text : List UInt8) : List Char :=
  (text.takeWhile (· != 0)).map fun ch => Char.ofNat ch.toNat

/-- `atol` of digits, which stops at the largest `long`. -/
def atol (text : List Char) : Nat :=
  match CText.scanDecimal text with
  | none => 0
  | some (_, magnitude, _) => min magnitude (2 ^ 63 - 1)

def hexDigit (ch : UInt8) : Nat :=
  if isdigit ch then ch.toNat - 0x30
  else if ch ≤ 0x46 then ch.toNat - 0x41 + 10
  else ch.toNat - 0x61 + 10

/-- `sscanf` with `%2hhx`: two digits at most. -/
def scanHex (text : List UInt8) : UInt8 :=
  UInt8.ofNat (((text.take 2).takeWhile isHex).foldl (fun value ch => value * 16 + hexDigit ch) 0)

def hexPairs : List UInt8 → List UInt8
  | first :: second :: text => scanHex (first :: second :: text) :: hexPairs text
  | _ => []

def hexString (text : List UInt8) : Option (List UInt8) :=
  if text.length % 2 ≠ 0 then none else some (hexPairs text)

/-- How the literals of a text are read. A number that a rule hands on is one of 32 bits. -/
structure LiteralReading where
  Number : Type
  integer : Digits → Number
  neg : Number → Number
  toInt32 : Number → Option Int
  toUInt32 : Number → Option UInt32
  hex : HexDigits → Option (List UInt8)
  timestamp : List UInt8 → Option Int

/-- The parser's own: `int32_t(atol(..))`, and the time that comes without its error. -/
def LiteralReading.parser : LiteralReading where
  Number := BitVec 32
  integer digits := BitVec.ofNat 32 (atol (cString digits.text))
  neg slot := -slot
  toInt32 slot := some slot.toInt
  toUInt32 type := some (UInt32.ofBitVec type)
  hex digits := hexString digits.text
  timestamp text := some (SecAbsoluteTimeFromDateContentWithError ASN1_GENERALIZED_TIME text).1

abbrev Parse := StateT (List Token) Option

def LA (k : Nat) : Parse (Option Token) := fun tokens => some (tokens[k - 1]?, tokens)

def consume : Parse Unit := fun tokens => some ((), tokens.tail)

def reject {α : Type} : Parse α := fun _ => none

def expect (token : Token) : Parse Unit := do
  if (← LA 1) = some token then consume else reject

def word (literal : Literal) : Token := .LITERAL literal

structure Host where
  certificateDigest : List UInt8 → Option (List UInt8)

variable (reading : LiteralReading) (host : Host)

def eql : Parse Unit := do
  match ← LA 1 with
  | some .EQL | some .EQQL => consume
  | some (.HASHCONSTANT _) | some (.DOTKEY _) | some (.STRING _) | some (.PATHNAME _)
  | some (.INTEGER _) => pure ()
  | _ => reject

def integer : Parse reading.Number := do
  match ← LA 1 with
  | some (.INTEGER digits) =>
    consume
    pure (reading.integer digits)
  | _ => reject

def stringvalue : Parse (List UInt8) := do
  match ← LA 1 with
  | some (.DOTKEY text) | some (.STRING text) =>
    consume
    pure text
  | _ => reject

def identifierString : Parse (List UInt8) := stringvalue

def pathstring : Parse (List UInt8) := do
  match ← LA 1 with
  | some (.DOTKEY text) | some (.STRING text) | some (.PATHNAME text) =>
    consume
    pure text
  | _ => reject

/-- `hashString` wants the digits of a whole digest. -/
def hash : Parse (List UInt8) := do
  match ← LA 1 with
  | some (.HASHCONSTANT hex) =>
    consume
    if hex.text.length ≠ 2 * 20 then reject else StateT.lift (reading.hex hex)
  | _ => reject

def certificateDigest : Parse (List UInt8) := do
  match ← LA 1 with
  | some (.HASHCONSTANT _) => hash reading
  | some (.DOTKEY _) | some (.STRING _) | some (.PATHNAME _) =>
    let path ← pathstring
    StateT.lift (host.certificateDigest path)
  | _ => reject

def datavalue : Parse (List UInt8) := do
  match ← LA 1 with
  | some (.DOTKEY _) | some (.STRING _) => stringvalue
  | some (.HEXCONSTANT hex) =>
    consume
    StateT.lift (reading.hex hex)
  | _ => reject

def timestamp : Parse Int := do
  expect (word .timestamp)
  match ← LA 1 with
  | some (.STRING text) =>
    consume
    StateT.lift (reading.timestamp text)
  | _ => reject

def bracketKey : Parse (List UInt8) := do
  expect .LBRACK
  let key ← stringvalue
  expect .RBRACK
  pure key

def certSlot : Parse Int := do
  match ← LA 1 with
  | some (.INTEGER _) =>
    let slot ← integer reading
    StateT.lift (reading.toInt32 slot)
  | some .NEG =>
    consume
    let slot ← integer reading
    StateT.lift (reading.toInt32 (reading.neg slot))
  | some (.LITERAL .leaf) =>
    consume
    pure leafCert
  | some (.LITERAL .root) =>
    consume
    pure anchorCert
  | _ => reject

def follows : Option Token → Bool
  | none | some (.LITERAL .guest) | some (.LITERAL .host) | some (.LITERAL .designated)
  | some (.LITERAL .library) | some (.LITERAL .plugin) | some (.LITERAL .or)
  | some (.LITERAL .and) | some .RPAREN | some (.INTEGER _) | some .SEMI => true
  | _ => false

def isData : Option Token → Bool
  | some (.HEXCONSTANT _) | some (.DOTKEY _) | some (.STRING _) => true
  | _ => false

def comparisons : Token → Option (MatchOperation × MatchOperation)
  | .LESS => some (.matchLessThan, .matchBefore)
  | .GT => some (.matchGreaterThan, .matchAfter)
  | .LE => some (.matchLessEqual, .matchOnOrBefore)
  | .GE => some (.matchGreaterEqual, .matchOnOrAfter)
  | _ => none

def star : Parse Bool := do
  if (← LA 1) = some .STAR then
    consume
    pure true
  else pure false

def starAfter (mop : MatchOperation) : Parse MatchOperation := do
  if ← star then
    pure (if mop = .matchEndsWith then .matchContains else .matchBeginsWith)
  else if follows (← LA 1) then pure mop
  else reject

def equalSuffix (maker : Maker) : Parse Maker := do
  let before ← star
  let value ← datavalue reading
  let mop ← starAfter (if before then .matchEndsWith else .matchEqual)
  pure ((maker.putMatch mop).putData value)

def dataSuffix (maker : Maker) (mop : MatchOperation) : Parse Maker := do
  let value ← datavalue reading
  pure ((maker.putMatch mop).putData value)

def timestampSuffix (maker : Maker) (mop : MatchOperation) : Parse Maker := do
  let value ← timestamp reading
  pure ((maker.putMatch mop).putInt64 value)

def match_suffix (maker : Maker) : Parse Maker := do
  let first ← LA 1
  let second ← LA 2
  match first with
  | some (.LITERAL .exists) =>
    consume
    pure (maker.putMatch .matchExists)
  | some (.LITERAL .absent) =>
    consume
    pure (maker.putMatch .matchAbsent)
  | some .SUBS =>
    consume
    dataSuffix reading maker .matchContains
  | some .EQL | some .EQQL =>
    if second = some .STAR ∨ isData second then
      consume
      equalSuffix reading maker
    else if second = some (word .timestamp) then
      consume
      timestampSuffix reading maker .matchOn
    else reject
  | some token =>
    match comparisons token with
    | some (onData, onDate) =>
      if isData second then
        consume
        dataSuffix reading maker onData
      else if second = some (word .timestamp) then
        consume
        timestampSuffix reading maker onDate
      else reject
    | none => if follows first then pure (maker.putMatch .matchExists) else reject
  | none => pure (maker.putMatch .matchExists)

def matchPrefix (key start : List UInt8) : Option (List UInt8) :=
  if key.take start.length = start then some (key.drop start.length) else none

def oidKeys : List (List UInt8 × ExprOp) :=
  [(ascii "timestamp.", .opCertFieldDate), (ascii "field.", .opCertGeneric),
    (ascii "extension.", .opCertGeneric), (ascii "policy.", .opCertPolicy)]

def certMatchOperation (maker : Maker) (slot : Int) (key : List UInt8) : Option Maker :=
  match oidKeys.findSome? fun kind => (matchPrefix key kind.1).map fun oids => (kind.2, oids) with
  | some (op, oids) =>
    some (((maker.putOp op).putInt32 slot).putData (CssmData.fromOid (cString oids)))
  | none =>
    (matchPrefix key (ascii "subject.")).map fun _ =>
      ((maker.putOp .opCertField).putInt32 slot).putData key

def certslotspec (maker : Maker) (slot : Int) : Parse Maker := do
  match ← LA 1 with
  | some .EQL | some .EQQL | some (.HASHCONSTANT _) | some (.DOTKEY _) | some (.STRING _)
  | some (.PATHNAME _) =>
    eql
    let digest ← certificateDigest reading host
    pure (maker.anchor slot digest)
  | some .LBRACK =>
    let key ← bracketKey
    let maker ← StateT.lift (certMatchOperation maker slot key)
    match_suffix reading maker
  | _ => reject

def appleanchor (maker : Maker) : Parse Maker := do
  match ← LA 1 with
  | some (.LITERAL .generic) =>
    consume
    pure (maker.putOp .opAppleGenericAnchor)
  | some (.DOTKEY _) | some (.STRING _) =>
    let name ← identifierString
    pure ((maker.putOp .opNamedAnchor).putData name)
  | next => if follows next then pure (maker.putOp .opAppleAnchor) else reject

def certificatespec (maker : Maker) : Parse Maker := do
  match ← LA 1 with
  | some (.LITERAL .trusted) =>
    consume
    pure maker.trustedAnchors
  | _ =>
    let slot ← certSlot reading
    if (← LA 1) = some (word .trusted) then
      consume
      pure (maker.trustedAnchor slot)
    else certslotspec reading host maker slot

def anchorspec (maker : Maker) : Parse Maker := do
  match ← LA 1 with
  | some (.LITERAL .apple) =>
    consume
    appleanchor maker
  | some (.LITERAL .generic) =>
    consume
    expect (word .apple)
    pure (maker.putOp .opAppleGenericAnchor)
  | some (.LITERAL .trusted) =>
    consume
    pure maker.trustedAnchors
  | _ => certslotspec reading host maker anchorCert

def primaryWord (maker : Maker) : Literal → Parse Maker
  | .always | .true => pure (maker.putOp .opTrue)
  | .never | .false => pure (maker.putOp .opFalse)
  | .certificate | .cert => certificatespec reading host maker
  | .anchor => anchorspec reading host maker
  | .info => do
    let key ← bracketKey
    match_suffix reading ((maker.putOp .opInfoKeyField).putData key)
  | .entitlement => do
    let key ← bracketKey
    match_suffix reading ((maker.putOp .opEntitlementField).putData key)
  | .identifier => do
    eql
    let code ← identifierString
    pure (maker.ident code)
  | .cdhash => do
    eql
    let digest ← hash reading
    pure (maker.cdhash digest)
  | .platform => do
    eql
    let ident ← integer reading
    let ident ← StateT.lift (reading.toInt32 ident)
    pure (maker.platform ident)
  | .notarized => pure (maker.putOp .opNotarized)
  | .legacy => pure (maker.putOp .opLegacyDevID)
  | _ => reject

def beginsExpr : Option Token → Bool
  | some .LPAREN | some .NOT | some (.LITERAL .always) | some (.LITERAL .true)
  | some (.LITERAL .never) | some (.LITERAL .false) | some (.LITERAL .identifier)
  | some (.LITERAL .cdhash) | some (.LITERAL .platform) | some (.LITERAL .notarized)
  | some (.LITERAL .legacy) | some (.LITERAL .anchor) | some (.LITERAL .certificate)
  | some (.LITERAL .cert) | some (.LITERAL .info) | some (.LITERAL .entitlement) => true
  | _ => false

mutual

def expr : (fuel : Nat) → Maker → Parse Maker
  | 0, _ => reject
  | fuel + 1, maker => do
    let label := maker.label
    let maker ← term fuel maker
    orTerms fuel label maker

def orTerms : (fuel : Nat) → (label : Nat) → Maker → Parse Maker
  | 0, _, _ => reject
  | fuel + 1, label, maker => do
    if (← LA 1) = some (word .or) then
      consume
      let maker ← term fuel (maker.insert label .opOr)
      orTerms fuel label maker
    else pure maker

def term : (fuel : Nat) → Maker → Parse Maker
  | 0, _ => reject
  | fuel + 1, maker => do
    let label := maker.label
    let maker ← primary fuel maker
    andPrimaries fuel label maker

def andPrimaries : (fuel : Nat) → (label : Nat) → Maker → Parse Maker
  | 0, _, _ => reject
  | fuel + 1, label, maker => do
    if (← LA 1) = some (word .and) then
      consume
      let maker ← primary fuel (maker.insert label .opAnd)
      andPrimaries fuel label maker
    else pure maker

def primary : (fuel : Nat) → Maker → Parse Maker
  | 0, _ => reject
  | fuel + 1, maker => do
    match ← LA 1 with
    | some .NOT =>
      consume
      primary fuel (maker.putOp .opNot)
    | some (.LITERAL literal) =>
      consume
      primaryWord reading host maker literal
    | some .LPAREN =>
      if beginsExpr (← LA 2) then
        consume
        let maker ← expr fuel maker
        expect .RPAREN
        pure maker
      else
        consume
        let name ← identifierString
        expect .RPAREN
        pure ((maker.putOp .opNamedCode).putData name)
    | _ => reject
end

def fluff : Parse Unit := fun tokens => some ((), tokens.dropWhile (· = .SEMI))

def requirementElement (fuel : Nat) : Parse (List UInt8) := do
  let maker ← expr reading host fuel .empty
  fluff
  pure maker.make

def endOfText : Parse Unit := fun tokens => if tokens = [] then some ((), []) else none

def requirement (fuel : Nat) : Parse (List UInt8) := do
  let result ← requirementElement reading host fuel
  endOfText
  pure result

def kSecHostRequirementType : UInt32 := 1

def kSecGuestRequirementType : UInt32 := 2

def kSecDesignatedRequirementType : UInt32 := 3

def kSecLibraryRequirementType : UInt32 := 4

def kSecPluginRequirementType : UInt32 := 5

def requirementType : Parse UInt32 := do
  match ← LA 1 with
  | some (.LITERAL .guest) =>
    consume
    pure kSecGuestRequirementType
  | some (.LITERAL .host) =>
    consume
    pure kSecHostRequirementType
  | some (.LITERAL .designated) =>
    consume
    pure kSecDesignatedRequirementType
  | some (.LITERAL .library) =>
    consume
    pure kSecLibraryRequirementType
  | some (.LITERAL .plugin) =>
    consume
    pure kSecPluginRequirementType
  | some (.INTEGER _) =>
    let type ← integer reading
    StateT.lift (reading.toUInt32 type)
  | _ => reject

def beginsElement : Option Token → Bool
  | some (.LITERAL .guest) | some (.LITERAL .host) | some (.LITERAL .designated)
  | some (.LITERAL .library) | some (.LITERAL .plugin) | some (.INTEGER _) => true
  | _ => false

def elements : (fuel : Nat) → SuperBlobCore.Maker → Parse SuperBlobCore.Maker
  | 0, _ => reject
  | fuel + 1, maker => do
    let type ← requirementType reading
    expect .ARROW
    let req ← requirementElement reading host fuel
    let maker := maker.add type req
    if beginsElement (← LA 1) then elements fuel maker else pure maker

def requirementSet (fuel : Nat) : Parse SuperBlobCore.Maker := do
  let maker ← elements reading host fuel ∅
  endOfText
  pure maker

/-- A single requirement, or the blobs of a set by their types. -/
inductive Result
  | requirement (blob : List UInt8)
  | requirements (blobs : List (UInt32 × List UInt8))
  deriving DecidableEq

def autosense (fuel : Nat) : Parse Result := do
  let first ← LA 1
  if beginsExpr first then
    let blob ← requirement reading host fuel
    pure (.requirement blob)
  else if beginsElement first then
    let maker ← requirementSet reading host fuel
    pure (.requirements maker.toList)
  else reject

inductive Rule
  | requirement | requirementSet | autosense

def rule (fuel : Nat) : Rule → Parse Result
  | .requirement => do
    let blob ← requirement reading host fuel
    pure (.requirement blob)
  | .requirementSet => do
    let maker ← requirementSet reading host fuel
    pure (.requirements maker.toList)
  | .autosense => autosense reading host fuel

def Accepts (start : Rule) (text : List UInt8) (result : Result) : Prop :=
  ∃ tokens, lex text = some tokens ∧
    ∃ fuel, (rule reading host fuel start).run tokens = some (result, [])
end RequirementParser
end SecurityFramework
