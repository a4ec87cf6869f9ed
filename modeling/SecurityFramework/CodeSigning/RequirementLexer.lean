import SecurityFramework.CodeSigning.Requirement
import SecurityFramework.Sec.DateContent
import Mathlib.Data.List.TakeWhile

/-!
# The lexer of the requirement language

Text is cut into tokens with at most two characters of lookahead.
-/

namespace SecurityFramework
namespace RequirementLexer
def isLetter (ch : UInt8) : Bool :=
  decide (0x41 ≤ ch ∧ ch ≤ 0x5A) || decide (0x61 ≤ ch ∧ ch ≤ 0x7A)

def isHex (ch : UInt8) : Bool :=
  isdigit ch || decide (0x41 ≤ ch ∧ ch ≤ 0x46) || decide (0x61 ≤ ch ∧ ch ≤ 0x66)

def isIdent (ch : UInt8) : Bool := isLetter ch || isdigit ch

def isCharacter (ch : UInt8) : Bool :=
  decide (ch ≤ 0xBF) || decide (0xC2 ≤ ch ∧ ch ≤ 0xF4)

inductive Literal
  | guest | host | designated | library | plugin | or | and | always | true | never | false
  | identifier | cdhash | platform | notarized | legacy | anchor | apple | generic | certificate
  | cert | trusted | info | entitlement | exists | absent | leaf | root | timestamp
  deriving DecidableEq

structure Run (kind : UInt8 → Bool) where
  text : List UInt8
  text_ne : text ≠ []
  all_kind : ∀ ch ∈ text, kind ch = true
  deriving DecidableEq

abbrev Digits := Run isdigit

abbrev HexDigits := Run isHex

inductive Token
  | ARROW | SEMI | LPAREN | RPAREN | LBRACK | RBRACK | LESS | GT | LE | GE | COMMA | EQL | EQQL
  | SUBS | NEG | NOT | STAR
  | LITERAL (word : Literal)
  | HASHCONSTANT (hex : HexDigits)
  | HEXCONSTANT (hex : HexDigits)
  | DOTKEY (text : List UInt8)
  | STRING (text : List UInt8)
  | PATHNAME (text : List UInt8)
  | INTEGER (digits : Digits)
  deriving DecidableEq

open Requirement (ascii)

def literals : List (List UInt8 × Literal) :=
  [(ascii "certificate", .certificate), (ascii "always", .always), (ascii "host", .host),
    (ascii "guest", .guest), (ascii "cdhash", .cdhash), (ascii "entitlement", .entitlement),
    (ascii "library", .library), (ascii "timestamp", .timestamp), (ascii "legacy", .legacy),
    (ascii "never", .never), (ascii "cert", .cert), (ascii "plugin", .plugin),
    (ascii "absent", .absent), (ascii "or", .or), (ascii "leaf", .leaf), (ascii "info", .info),
    (ascii "designated", .designated), (ascii "apple", .apple), (ascii "trusted", .trusted),
    (ascii "true", .true), (ascii "notarized", .notarized), (ascii "and", .and),
    (ascii "root", .root), (ascii "platform", .platform), (ascii "anchor", .anchor),
    (ascii "false", .false), (ascii "generic", .generic), (ascii "identifier", .identifier),
    (ascii "exists", .exists)]

def testLiteralsTable (text : List UInt8) : Token :=
  match literals.lookup text with
  | some word => .LITERAL word
  | none => .DOTKEY text

abbrev Rule := List UInt8 → Option (Option Token × List UInt8)

def run (kind : UInt8 → Bool) (text : List UInt8) : Option (Run kind × List UInt8) :=
  if h : text.takeWhile kind ≠ [] then
    some (⟨text.takeWhile kind, h, fun _ hch => List.mem_takeWhile_imp hch⟩,
      text.dropWhile kind)
  else none

def mINTEGER : Rule := fun text =>
  (run isdigit text).map fun (digits, rest) => (some (.INTEGER digits), rest)

def mIDENT : List UInt8 → Option (List UInt8 × List UInt8)
  | [] => none
  | ch :: text =>
    if isLetter ch then some (ch :: text.takeWhile isIdent, text.dropWhile isIdent) else none

/-- The loop of `mDOTKEY`, with what was read so far. Each turn takes a point. -/
def mDOTKEYLoop : (turns : Nat) → List UInt8 → List UInt8 → Option (List UInt8 × List UInt8)
  | turns + 1, read, 0x2E :: ch :: text =>
    if isLetter ch then
      (mIDENT (ch :: text)).bind fun (ident, rest) => mDOTKEYLoop turns (read ++ 0x2E :: ident) rest
    else
      (run isdigit (ch :: text)).bind fun (digits, rest) =>
        mDOTKEYLoop turns (read ++ 0x2E :: digits.text) rest
  | _, _, [0x2E] => none
  | _, read, rest => some (read, rest)

def mDOTKEY : Rule := fun text =>
  (mIDENT text).bind fun (ident, rest) =>
    (mDOTKEYLoop text.length ident rest).map fun (read, rest) =>
      (some (testLiteralsTable read), rest)

def mPATHNAMELoop : (turns : Nat) → List UInt8 → List UInt8 → Option (List UInt8 × List UInt8)
  | turns + 1, read, 0x2F :: text =>
    (mIDENT text).bind fun (ident, rest) => mPATHNAMELoop turns (read ++ 0x2F :: ident) rest
  | _, read, rest => some (read, rest)

def mPATHNAME : Rule
  | 0x2F :: text =>
    (mIDENT text).bind fun (ident, rest) =>
      if rest.head? = some 0x2F then
        (mPATHNAMELoop rest.length (0x2F :: ident) rest).map fun (read, rest) =>
          (some (.PATHNAME read), rest)
      else none
  | _ => none

def mHASHCONSTANT : Rule
  | 0x48 :: 0x22 :: text =>
    (run isHex text).bind fun (hex, rest) =>
      match rest with
      | 0x22 :: rest => some (some (.HASHCONSTANT hex), rest)
      | _ => none
  | _ => none

def mHEXCONSTANT : Rule
  | 0x30 :: 0x78 :: text =>
    (run isHex text).map fun (hex, rest) => (some (.HEXCONSTANT hex), rest)
  | _ => none

/-- What is between the quotes. A backslash goes before a quote only. -/
def mSTRINGLoop : List UInt8 → List UInt8 → Option (Option Token × List UInt8)
  | read, 0x5C :: 0x22 :: text => mSTRINGLoop (read ++ [0x22]) text
  | read, 0x22 :: rest => some (some (.STRING read), rest)
  | read, ch :: text =>
    if isCharacter ch ∧ ch ≠ 0x5C then mSTRINGLoop (read ++ [ch]) text else none
  | _, [] => none

def mSTRING : Rule
  | 0x22 :: text => mSTRINGLoop [] text
  | _ => none

def isWhiteSpace (ch : UInt8) : Bool := decide (ch = 0x20 ∨ ch = 0x0A ∨ ch = 0x09)

def mWS : Rule := fun text => some (none, text.dropWhile isWhiteSpace)

def toEndOfLine (text : List UInt8) : List UInt8 :=
  text.dropWhile fun ch => isCharacter ch && ch != 0x0A

def mSHELLCOMMENT : Rule := fun text => some (none, toEndOfLine text.tail)

def mCPP_COMMENT : Rule := fun text => some (none, toEndOfLine (text.drop 2))

/-- A star goes together with what is after it, even when that is a star. -/
def mC_COMMENTLoop : List UInt8 → Option (Option Token × List UInt8)
  | 0x2A :: 0x2F :: rest => some (none, rest)
  | 0x2A :: ch :: text => if isCharacter ch then mC_COMMENTLoop text else none
  | ch :: text => if isCharacter ch ∧ ch ≠ 0x2A then mC_COMMENTLoop text else none
  | [] => none

def mC_COMMENT : Rule := fun text => mC_COMMENTLoop (text.drop 2)

def operator (token : Token) (length : Nat) : Rule :=
  fun text => some (some token, text.drop length)

def ruleFor (first : UInt8) (second : Option UInt8) : Option Rule :=
  if first = 0x22 then some mSTRING
  else if first = 0x3B then some (operator .SEMI 1)
  else if first = 0x28 then some (operator .LPAREN 1)
  else if first = 0x29 then some (operator .RPAREN 1)
  else if first = 0x5B then some (operator .LBRACK 1)
  else if first = 0x5D then some (operator .RBRACK 1)
  else if first = 0x2C then some (operator .COMMA 1)
  else if first = 0x7E then some (operator .SUBS 1)
  else if first = 0x2D then some (operator .NEG 1)
  else if first = 0x21 then some (operator .NOT 1)
  else if first = 0x2A then some (operator .STAR 1)
  else if isWhiteSpace first then some mWS
  else if first = 0x23 then some mSHELLCOMMENT
  else if first = 0x2F ∧ second.any isLetter then some mPATHNAME
  else if first = 0x48 ∧ second = some 0x22 then some mHASHCONSTANT
  else if first = 0x30 ∧ second = some 0x78 then some mHEXCONSTANT
  else if first = 0x3D ∧ second = some 0x3E then some (operator .ARROW 2)
  else if first = 0x3C ∧ second = some 0x3D then some (operator .LE 2)
  else if first = 0x3E ∧ second = some 0x3D then some (operator .GE 2)
  else if first = 0x3D ∧ second = some 0x3D then some (operator .EQQL 2)
  else if first = 0x2F ∧ second = some 0x2A then some mC_COMMENT
  else if first = 0x2F ∧ second = some 0x2F then some mCPP_COMMENT
  else if isLetter first then some mDOTKEY
  else if isdigit first then some mINTEGER
  else if first = 0x3C then some (operator .LESS 1)
  else if first = 0x3E then some (operator .GT 1)
  else if first = 0x3D then some (operator .EQL 1)
  else none

/-- All tokens up to the end of the text. Each turn takes a character at least. -/
def tokens : (turns : Nat) → List UInt8 → Option (List Token)
  | _, [] => some []
  | 0, _ :: _ => none
  | turns + 1, first :: text => do
    let rule ← ruleFor first text.head?
    let (token, rest) ← rule (first :: text)
    let later ← tokens turns rest
    pure (token.toList ++ later)

def lex (text : List UInt8) : Option (List Token) := tokens text.length text
end RequirementLexer
end SecurityFramework
