import SecurityFramework.CodeSigning.Requirement

/-!
# Match suffixes

A match suffix is an operation and, for most operations, a value.
-/

namespace SecurityFramework
open Scanner

/-- The functions on strings and dates that matching rests on: `makeCFString`, which throws for
octets in neither encoding, `CFStringFindWithOptions` in a range of the first string, comparison
with `kCFCompareNumerically`, and the conversion of a number of seconds to a date. -/
structure CoreFoundation where
  makeCFString : List UInt8 → Except OSStatus CFString
  stringFind : CFString → CFString → Nat → Nat → Bool
  compareNumerically : CFString → CFString → Ordering
  dateCreate : Int → CFAbsoluteTime

namespace Requirement
open MatchOperation

/-- What follows a match operation in the program. -/
inductive Operand where
  | nothing
  | string
  | timestamp
deriving DecidableEq

def MatchOperation.operand : MatchOperation → Operand
  | matchAbsent | matchExists => .nothing
  | matchEqual | matchContains | matchBeginsWith | matchEndsWith | matchLessThan
  | matchGreaterThan | matchLessEqual | matchGreaterEqual => .string
  | matchOn | matchBefore | matchAfter | matchOnOrBefore | matchOnOrAfter => .timestamp

structure Match where
  mOp : Option MatchOperation
  mValue : Option Plist

namespace Match
def ofString (value : CFString) (op : MatchOperation) : Match := ⟨some op, some (.string value)⟩

def cfStringValue (m : Match) : Option CFString :=
  match m.mValue with
  | some (.string value) => some value
  | _ => none

def cfDateValue (m : Match) : Option CFAbsoluteTime :=
  match m.mValue with
  | some (.date value) => some value
  | _ => none

variable (cf : CoreFoundation) (m : Match)

def inequality (candidate : Plist) (outcome : Ordering) (negate : Bool) : Bool :=
  match candidate, m.cfStringValue with
  | .string value, some string => (cf.compareNumerically value string = outcome) = negate
  | _, _ => false

def finds (candidate : Plist) (range : Nat → Nat → Option (Nat × Nat)) : Bool :=
  match candidate, m.cfStringValue with
  | .string value, some string =>
    match range value.length string.length with
    | some (location, length) => cf.stringFind value string location length
    | none => false
  | _, _ => false

def compares (candidate : Plist) (accepts : Ordering → Bool) : Bool :=
  match candidate, m.cfDateValue with
  | .date value, some date => accepts (compare value date)
  | _, _ => false

def operate (candidate : Plist) : Bool :=
  match m.mOp with
  | some matchAbsent => false
  | some matchExists => !cfEqual candidate (.boolean false)
  | some matchEqual => m.mValue.any fun value => cfEqual candidate value
  | some matchContains => m.finds cf candidate fun value _ => some (0, value)
  | some matchBeginsWith => m.finds cf candidate fun _ string => some (0, string)
  | some matchEndsWith => m.finds cf candidate fun value string =>
      if string ≤ value then some (value - string, string) else none
  | some matchLessThan => m.inequality cf candidate .lt true
  | some matchGreaterThan => m.inequality cf candidate .gt true
  | some matchLessEqual => m.inequality cf candidate .gt false
  | some matchGreaterEqual => m.inequality cf candidate .lt false
  | some matchOn => m.compares candidate (· == .eq)
  | some matchBefore => m.compares candidate (· == .lt)
  | some matchAfter => m.compares candidate (· == .gt)
  | some matchOnOrBefore => m.compares candidate (· != .gt)
  | some matchOnOrAfter => m.compares candidate (· != .lt)
  | none => false

mutual

/-- `operator ()` for a candidate, of which `CFNull` stands for none. -/
def apply : Plist → Bool
  | .null => m.mOp = some matchAbsent
  | .array elements => applyAny elements || m.operate cf (.array elements)
  | candidate => m.operate cf candidate
termination_by structural candidate => candidate

def applyAny : List Plist → Bool
  | [] => false
  | element :: elements => apply element || applyAny elements
termination_by structural elements => elements
end

def read (req : List UInt8) : Scan OSStatus Match := do
  let op ← Reader.get req 4
  match ofWord op with
  | some mOp =>
    match mOp.operand with
    | .nothing => return ⟨some mOp, none⟩
    | .string =>
      let string ← Reader.getString req
      let value ← liftExcept (cf.makeCFString string)
      return ⟨some mOp, some (.string value)⟩
    | .timestamp =>
      let seconds ← Reader.getInt64 req
      return ⟨some mOp, some (.date (cf.dateCreate seconds))⟩
  | none =>
    -- an unknown operation is taken to have one counted operand, which is discarded
    let _ ← Reader.getString req
    return ⟨none, none⟩
end Match

inductive Suffix where
  | bare (op : MatchOperation)
  | string (op : MatchOperation) (value : List UInt8)
  | timestamp (op : MatchOperation) (seconds : Int)
  | unknown (op : Nat) (operand : List UInt8)

namespace Suffix
inductive At (req : List UInt8) : Suffix → Nat → Nat → Prop where
  | bare {word start stop : Nat} {op : MatchOperation} (hword : NumberAt req 4 start word stop)
      (hop : ofWord word = some op) (hoperand : op.operand = .nothing) :
      At req (.bare op) start stop
  | string {word start mid stop : Nat} {op : MatchOperation} {value : List UInt8}
      (hword : NumberAt req 4 start word mid) (hop : ofWord word = some op)
      (hoperand : op.operand = .string) (hvalue : DataAt req mid value stop) :
      At req (.string op value) start stop
  | timestamp {word start mid stop bits : Nat} {op : MatchOperation}
      (hword : NumberAt req 4 start word mid) (hop : ofWord word = some op)
      (hoperand : op.operand = .timestamp) (hbits : NumberAt req 8 mid bits stop) :
      At req (.timestamp op (((bits : Int) + 2 ^ 63) % 2 ^ 64 - 2 ^ 63)) start stop
  | unknown {word start mid stop : Nat} {operand : List UInt8}
      (hword : NumberAt req 4 start word mid) (hop : ofWord word = none)
      (hoperand : DataAt req mid operand stop) :
      At req (.unknown word operand) start stop

def denote (cf : CoreFoundation) : Suffix → Except OSStatus Match
  | bare op => .ok ⟨some op, none⟩
  | string op value => (cf.makeCFString value).map fun value => ⟨some op, some (.string value)⟩
  | timestamp op seconds => .ok ⟨some op, some (.date (cf.dateCreate seconds))⟩
  | unknown _ _ => .ok ⟨none, none⟩
end Suffix

theorem yields_liftExcept {α : Type} (result : Except OSStatus α) (start : Nat) :
    Yields (liftExcept result) start result start := by
  cases result <;> rfl

theorem yields_read {cf : CoreFoundation} {req : List UInt8} {suffix : Suffix} {start stop : Nat}
    (h : suffix.At req start stop) :
    Yields (Match.read cf req) start (suffix.denote cf) stop := by
  cases h with
  | bare hword hop hoperand =>
    apply (reads_get hword (by decide)).bind
    simp only [hop, hoperand]
    rfl
  | string hword hop hoperand hvalue =>
    apply (reads_get hword (by decide)).bind
    simp only [hop, hoperand]
    apply (reads_getData hvalue).bind
    exact (yields_liftExcept _ _).bind fun value => yields_pure _ _
  | timestamp hword hop hoperand hbits =>
    apply (reads_get hword (by decide)).bind
    simp only [hop, hoperand]
    apply (reads_getInt64 hbits).bind
    rfl
  | unknown hword hop hoperand =>
    apply (reads_get hword (by decide)).bind
    simp only [hop]
    apply (reads_getData hoperand).bind
    rfl
end Requirement
end SecurityFramework
