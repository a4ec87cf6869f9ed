import SecurityFramework.CodeSigning.RequirementInterpreter

/-!
# The requirement dumper

The dumper decodes the same programs a second time, and prints them as source text.
-/

namespace SecurityFramework
open Scanner

namespace Requirement
namespace Dumper
/-- What a call of `print` appends: a buffer holds 255 characters, and is appended up to its
first NUL. -/
def print (output : List UInt8) : List UInt8 := (output.take 255).takeWhile (· ≠ 0)

def decimal (n : Nat) : List UInt8 := (Nat.toDigits 10 n).map fun c => UInt8.ofNat c.toNat

def signedDecimal (n : Int) : List UInt8 :=
  if n < 0 then ascii "-" ++ decimal n.natAbs else decimal n.natAbs

def hexadecimal (n : Nat) : List UInt8 := (Nat.toDigits 16 n).map fun c => UInt8.ofNat c.toNat

def hexByte (octet : UInt8) : List UInt8 :=
  if octet < 16 then ascii "0" ++ hexadecimal octet.toNat else hexadecimal octet.toNat

def printBytes (data : List UInt8) : List UInt8 := data.flatMap fun octet => print (hexByte octet)

/-- `getOid`: the next number, with the octet behind the data where the last one announces
another. -/
def getOid (behind : UInt8) : Nat → List UInt8 → Nat × List UInt8
  | q, [] => ((q * 128 + behind.toNat % 128) % 2 ^ 64, [])
  | q, octet :: data =>
    let q := (q * 128 + octet.toNat % 128) % 2 ^ 64
    if octet ≥ 0x80 then getOid behind q data else (q, data)

def oidNumbers (behind : UInt8) : Nat → List UInt8 → List UInt8
  | 0, _ => []
  | _, [] => []
  | fuel + 1, data =>
    let (n, rest) := getOid behind 0 data
    (ascii "." ++ decimal n).take 19 ++ oidNumbers behind fuel rest

def toOid (behind : UInt8) (data : List UInt8) : List UInt8 :=
  if data = [] then
    []
  else
    let (oid1, rest) := getOid behind 0 data
    let q1 := min (oid1 / 40) 2
    -- the first two numbers share a buffer of 10 characters
    (decimal q1 ++ ascii "." ++ decimal (oid1 - q1 * 40)).take 9 ++
      oidNumbers behind data.length rest

def keywords : List (List UInt8) :=
  ["guest", "host", "designated", "library", "plugin", "or", "and", "always", "true", "never",
    "false", "identifier", "cdhash", "platform", "notarized", "legacy", "anchor", "apple",
    "generic", "certificate", "cert", "trusted", "info", "entitlement", "exists", "absent", "leaf",
    "root", "timestamp", ""].map ascii

inductive PrintMode where
  | isSimple
  | isPrintable
  | isBinary
deriving DecidableEq

def isdigit (c : UInt8) : Bool := 0x30 ≤ c ∧ c ≤ 0x39

def isalnum (c : UInt8) : Bool := isdigit c ∨ (0x41 ≤ c ∧ c ≤ 0x5a) ∨ (0x61 ≤ c ∧ c ≤ 0x7a)

def isgraph (c : UInt8) : Bool := 0x21 ≤ c ∧ c ≤ 0x7e

def isspace (c : UInt8) : Bool := c = 0x20 ∨ (0x09 ≤ c ∧ c ≤ 0x0d)

def scanMode (dotOkay : Bool) : Nat → PrintMode → List UInt8 → PrintMode
  | _, bestMode, [] => bestMode
  | n, bestMode, c :: data =>
    if isalnum c ∨ (c = 0x2e ∧ dotOkay) then
      scanMode dotOkay (n + 1) (if n = 0 ∧ isdigit c then .isPrintable else bestMode) data
    else if isgraph c ∨ isspace c then
      scanMode dotOkay (n + 1) (if bestMode = .isSimple then .isPrintable else bestMode) data
    else
      .isBinary

attribute [local instance] DER.lawfulBEq_octets in
def dataMode (data : List UInt8) (bestMode : PrintMode) (dotOkay : Bool) : PrintMode :=
  let mode := scanMode dotOkay 0 bestMode data
  if mode = .isSimple ∧ data ∈ keywords then .isPrintable else mode

def printQuoted (data : List UInt8) : List UInt8 :=
  print (ascii "\"") ++ (data.flatMap fun c =>
    if c = 0x5c ∨ c = 0x22 then print [0x5c, c] else print [c]) ++ print (ascii "\"")

def printData (data : List UInt8) (bestMode : PrintMode) (dotOkay : Bool) : List UInt8 :=
  match dataMode data bestMode dotOkay with
  | .isSimple => print data
  | .isPrintable => printQuoted data
  | .isBinary => print (ascii "0x") ++ printBytes data

section Elements

variable (req : List UInt8) (dateDescription : Int → List UInt8)

def data (bestMode : PrintMode) (dotOkay : Bool) : Scan OSStatus (List UInt8) := do
  let data ← Reader.getData req
  return printData data bestMode dotOkay

def dotString : Scan OSStatus (List UInt8) := data req .isSimple true

def hashData : Scan OSStatus (List UInt8) := do
  let data ← Reader.getData req
  return print (ascii "H\"") ++ printBytes data ++ print (ascii "\"")

def certSlot : Scan OSStatus (List UInt8) := do
  let slot ← Reader.getInt32 req
  if slot = anchorCert then
    return print (ascii " root")
  else if slot = leafCert then
    return print (ascii " leaf")
  else
    return print (ascii " " ++ signedDecimal slot)

def timestamp : Scan OSStatus (List UInt8) := do
  let at' ← Reader.getInt64 req
  return print (ascii "<" ++ dateDescription at' ++ ascii ">")

def matchText : MatchOperation → List UInt8 × List UInt8
  | .matchExists => (ascii " /* exists */", [])
  | .matchAbsent => (ascii " absent ", [])
  | .matchEqual => (ascii " = ", [])
  | .matchContains => (ascii " ~ ", [])
  | .matchBeginsWith => (ascii " = ", ascii "*")
  | .matchEndsWith => (ascii " = *", [])
  | .matchLessThan => (ascii " < ", [])
  | .matchGreaterEqual => (ascii " >= ", [])
  | .matchLessEqual => (ascii " <= ", [])
  | .matchGreaterThan => (ascii " > ", [])
  | .matchOn => (ascii " = ", [])
  | .matchBefore => (ascii " < ", [])
  | .matchAfter => (ascii " > ", [])
  | .matchOnOrBefore => (ascii " <= ", [])
  | .matchOnOrAfter => (ascii " >= ", [])

def «match» : Scan OSStatus (List UInt8) := do
  let op ← Reader.get req 4
  match MatchOperation.ofWord op with
  | some op =>
    let (before, after) := matchText op
    match op.operand with
    | .nothing => return print before
    | .string => return print before ++ (← data req .isSimple false) ++ print after
    | .timestamp => return print before ++ (← timestamp req dateDescription)
  | none =>
    return print (ascii "MATCH OPCODE " ++ signedDecimal (CodeDirectory.toSlot op) ++
      ascii " NOT UNDERSTOOD")

def oid (label : List UInt8) : Scan OSStatus (List UInt8) := do
  let start ← MonadState.get
  let data ← Reader.getData req
  let behind := req.getD (start + 4 + data.length) 0
  return print (label ++ toOid behind data)

def certField (key : Scan OSStatus (List UInt8)) : Scan OSStatus (List UInt8) := do
  let slot ← certSlot req
  let key ← key
  let suffix ← «match» req dateDescription
  return print (ascii "certificate") ++ slot ++ print (ascii "[") ++ key ++ print (ascii "]") ++
    suffix

def dictionaryField (label : List UInt8) : Scan OSStatus (List UInt8) := do
  let key ← dotString req
  let suffix ← «match» req dateDescription
  return print label ++ key ++ print (ascii "]") ++ suffix
end Elements

inductive SyntaxLevel where
  | slPrimary
  | slAnd
  | slOr
  | slTop
deriving DecidableEq

def SyntaxLevel.toNat : SyntaxLevel → Nat
  | slPrimary => 0
  | slAnd => 1
  | slOr => 2
  | slTop => 3

section Expressions

variable (req : List UInt8) (dateDescription : Int → List UInt8) (mDebug : Bool)

def exprTest (op : ExprOp) : Scan OSStatus (List UInt8) := do
  match op with
  | .opFalse => return print (ascii "never")
  | .opTrue => return print (ascii "always")
  | .opIdent => return print (ascii "identifier ") ++ (← data req .isSimple false)
  | .opAppleAnchor => return print (ascii "anchor apple")
  | .opAppleGenericAnchor => return print (ascii "anchor apple generic")
  | .opAnchorHash =>
    let slot ← certSlot req
    let hash ← hashData req
    return print (ascii "certificate") ++ slot ++ print (ascii " = ") ++ hash
  | .opInfoKeyValue =>
    let key ← dotString req
    let value ← data req .isSimple false
    return (if mDebug then print (ascii "/*legacy*/") else []) ++ print (ascii "info[") ++ key ++
      print (ascii "] = ") ++ value
  | .opCDHash => return print (ascii "cdhash ") ++ (← hashData req)
  | .opInfoKeyField => dictionaryField req dateDescription (ascii "info[")
  | .opEntitlementField => dictionaryField req dateDescription (ascii "entitlement[")
  | .opCertField => certField req dateDescription (dotString req)
  | .opCertFieldDate => certField req dateDescription (oid req (ascii "timestamp."))
  | .opCertGeneric => certField req dateDescription (oid req (ascii "field."))
  | .opCertPolicy => certField req dateDescription (oid req (ascii "policy."))
  | .opTrustedCert =>
    return print (ascii "certificate") ++ (← certSlot req) ++ print (ascii "trusted")
  | .opTrustedCerts => return print (ascii "anchor trusted")
  | .opNamedAnchor => return print (ascii "anchor apple ") ++ (← data req .isSimple false)
  | .opNamedCode =>
    return print (ascii "(") ++ (← data req .isSimple false) ++ print (ascii ")")
  | .opPlatform =>
    return print (ascii "platform = " ++ signedDecimal (← Reader.getInt32 req))
  | .opNotarized => return print (ascii "notarized")
  | .opLegacyDevID => return print (ascii "legacy")
  -- the connectives, which `expr` handles
  | .opAnd | .opOr | .opNot => return []

def connective (level own : SyntaxLevel) (label : List UInt8) (nested : Scan OSStatus (List UInt8)) :
    Scan OSStatus (List UInt8) := do
  let left ← nested
  let right ← nested
  let inner := left ++ print label ++ right
  return if level.toNat < own.toNat then print (ascii "(") ++ inner ++ print (ascii ")") else inner

def exprOp (nested : SyntaxLevel → Scan OSStatus (List UInt8)) (level : SyntaxLevel) (op : Nat) :
    Scan OSStatus (List UInt8) :=
  match ExprOp.ofWord op with
  | some .opAnd => connective level .slAnd (ascii " and ") (nested .slAnd)
  | some .opOr => connective level .slOr (ascii " or ") (nested .slOr)
  | some .opNot => do return print (ascii "! ") ++ (← nested .slPrimary)
  | some test => exprTest req dateDescription mDebug test
  | none =>
    -- neither the size field nor what follows a skipped operator is read
    if op &&& opGenericFalse ≠ 0 then
      return print (ascii " false /* opcode " ++ decimal (op % 2 ^ 24) ++ ascii " */")
    else if op &&& opGenericSkip ≠ 0 then
      return print (ascii " /* opcode " ++ decimal (op % 2 ^ 24) ++ ascii " */")
    else
      return print (ascii "OPCODE " ++ signedDecimal (CodeDirectory.toSlot op) ++
        ascii " NOT UNDERSTOOD (ending print)")

/-- `expr(level)`, to a depth of nested calls that programs do not exhaust. -/
def expr : Nat → SyntaxLevel → Scan OSStatus (List UInt8)
  | 0, _ => liftM (fault : Outcome OSStatus (List UInt8))
  | fuel + 1, level => do
    let pc ← MonadState.get
    let op ← Reader.get req 4
    let output ← exprOp req dateDescription mDebug (expr fuel) level op
    return (if mDebug then print (ascii "/*@0x" ++ hexadecimal pc ++ ascii "*/") else []) ++ output
end Expressions
end Dumper
end Requirement
end SecurityFramework
