import SecurityFramework.Filedb.DbValue
import SecurityFramework.Library.Memory
import SecurityFramework.Library.Traced

/-!
# How values are compared

The evaluators take the lengths of the values as 32-bit numbers and walk over the octets with
pointers.
-/

namespace SecurityFramework.Filedb
inductive Operand where
  | first
  | second
  deriving DecidableEq

structure ValueRead where
  operand : Operand
  offset : Nat
  len : Nat
  deriving DecidableEq

abbrev Evaluation := Traced ValueRead (Except CssmError Bool)

def toUInt32 (length : Nat) : Nat := length % 2 ^ 32

def memcmpAt (data1 : List UInt8) (offset1 : Nat) (data2 : List UInt8) (offset2 len : Nat) :
    Traced ValueRead Ordering := do
  Traced.emit ⟨.first, offset1, len⟩
  Traced.emit ⟨.second, offset2, len⟩
  match Memory.load data1 offset1 len, Memory.load data2 offset2 len with
  | some octets1, some octets2 => pure (memcmp octets1 octets2)
  | _, _ => Traced.stop

def searchFrom (compare : Nat → Traced ValueRead Ordering) (places place : Nat) :
    Traced ValueRead Bool :=
  match places with
  | 0 => pure false
  | places + 1 => do
    let result ← compare place
    if result = .eq then pure true else searchFrom compare places (place + 1)

namespace BlobValue
/-- The case `DB_EQUAL`, with the second value from an offset on. -/
def equalAt (data1 data2 : List UInt8) (offset length1 length2 : Nat) : Evaluation :=
  if length1 ≠ length2 then pure (.ok false)
  else if length1 = 0 then pure (.ok true)
  else do
    let result ← memcmpAt data1 0 data2 offset length1
    pure (.ok (result = .eq))

def compareShorter (data1 data2 : List UInt8) (length1 length2 : Nat) :
    Traced ValueRead Ordering :=
  let length := min length1 length2
  if length = 0 then pure .eq else memcmpAt data1 0 data2 0 length

def evaluateAt (data1 data2 : List UInt8) (op : DbOperator) : Evaluation :=
  let length1 := toUInt32 data1.length
  let length2 := toUInt32 data2.length
  match op with
  | .containsInitialSubstring =>
    if length1 > length2 then pure (.ok false) else equalAt data1 data2 0 length1 length1
  | .containsFinalSubstring =>
    if length1 > length2 then pure (.ok false)
    else equalAt data1 data2 (length2 - length1) length1 length1
  | .equal => equalAt data1 data2 0 length1 length2
  | .notEqual =>
    if length1 ≠ length2 then pure (.ok true)
    else if length1 = 0 then pure (.ok false)
    else do
      let result ← memcmpAt data1 0 data2 0 length1
      pure (.ok (result ≠ .eq))
  | .lessThan | .greaterThan => do
    let result ← compareShorter data1 data2 length1 length2
    if result = .lt ∨ (result = .eq ∧ length1 < length2) then pure (.ok (op = .lessThan))
    else if result = .gt ∨ (result = .eq ∧ length1 > length2) then pure (.ok (op = .greaterThan))
    else pure (.ok false)
  | .contains =>
    if length1 > length2 then pure (.ok false)
    else if length1 = 0 then pure (.ok true)
    else do
      let found ← searchFrom (fun place => memcmpAt data1 0 data2 place length1)
        (length2 - length1 + 1) 0
      pure (.ok found)
end BlobValue

/-- The comparator of `StringValue` is cut down to that of `BlobValue` when it is passed on. -/
def StringValue.evaluateAt : List UInt8 → List UInt8 → DbOperator → Evaluation :=
  BlobValue.evaluateAt

namespace BigNumValue
def kSignBit : UInt8 := 0x80

def octetAt (operand : Operand) (data : List UInt8) (i : Nat) : Traced ValueRead UInt8 := do
  Traced.emit ⟨operand, i, 1⟩
  match data[i]? with
  | some octet => pure octet
  | none => Traced.stop

/-- From the octet at `i` down. The lowest one comes without the sign. -/
def compareFrom (a b : List UInt8) : Nat → Traced ValueRead Int
  | 0 => do
    let x ← octetAt .first a 0
    let y ← octetAt .second b 0
    pure ((x &&& ~~~kSignBit).toNat - (y &&& ~~~kSignBit).toNat)
  | i + 1 => do
    let x ← octetAt .first a (i + 1)
    let y ← octetAt .second b (i + 1)
    let diff : Int := (x.toNat : Int) - y.toNat
    if diff ≠ 0 then pure diff else compareFrom a b i

def compareAt (a b : List UInt8) (length : Nat) : Traced ValueRead Int :=
  compareFrom a b ((BitVec.ofNat 32 length).toInt - 1).toNat

def signAt (operand : Operand) (data : List UInt8) (length : Nat) : Traced ValueRead Bool :=
  if length = 0 then pure false
  else do
    let octet ← octetAt operand data 0
    pure (octet &&& kSignBit ≠ 0)

def evaluateAt (data1 data2 : List UInt8) (op : DbOperator) : Evaluation := do
  let length1 := toUInt32 data1.length
  let length2 := toUInt32 data2.length
  let sign1 ← signAt .first data1 length1
  let sign2 ← signAt .second data2 length2
  match op with
  | .equal => BlobValue.evaluateAt data1 data2 .equal
  | .notEqual => BlobValue.evaluateAt data1 data2 .notEqual
  | .lessThan =>
    if sign1 ≠ sign2 then pure (.ok sign1)
    else if length1 ≠ length2 then
      pure (.ok (if sign1 then decide (length1 > length2) else decide (length1 < length2)))
    else do
      let c ← compareAt data1 data2 length1
      pure (.ok (if sign1 then decide (c > 0) else decide (c < 0)))
  | .greaterThan =>
    if sign1 ≠ sign2 then pure (.ok sign2)
    else if length1 ≠ length2 then
      pure (.ok (if sign1 then decide (length1 < length2) else decide (length1 > length2)))
    else do
      let c ← compareAt data1 data2 length1
      pure (.ok (if sign1 then decide (c < 0) else decide (c > 0)))
  | _ => pure (.error .unsupportedQuery)
end BigNumValue

namespace MultiUInt32Value
def uint32cmp (values1 values2 : List UInt32) (start length : Nat) : Traced ValueRead Ordering :=
  memcmpAt (octets values1) 0 (octets values2) (4 * start) (4 * length)

def evaluateAt (values1 values2 : List UInt32) (op : DbOperator) : Evaluation :=
  let length1 := values1.length
  let length2 := values2.length
  match op with
  | .equal =>
    if length1 = length2 then do
      let result ← uint32cmp values1 values2 0 length1
      pure (.ok (result = .eq))
    else pure (.ok false)
  | .notEqual =>
    if length1 ≠ length2 then pure (.ok true)
    else do
      let result ← uint32cmp values1 values2 0 length1
      pure (.ok (result ≠ .eq))
  | .containsInitialSubstring =>
    if length1 ≤ length2 then do
      let result ← uint32cmp values1 values2 0 length1
      pure (.ok (result = .eq))
    else pure (.ok false)
  | .containsFinalSubstring =>
    if length1 ≤ length2 then do
      let result ← uint32cmp values1 values2 (length2 - length1) length1
      pure (.ok (result = .eq))
    else pure (.ok false)
  | .contains =>
    if length1 ≤ length2 then
      if length1 = 0 then pure (.ok true)
      else do
        -- the loop ends before the last place
        let found ← searchFrom (fun place => uint32cmp values1 values2 place length1)
          (length2 - length1) 0
        pure (.ok found)
    else pure (.ok false)
  | .lessThan =>
    if length1 < length2 then pure (.ok true)
    else if length1 = length2 then do
      let result ← uint32cmp values1 values2 0 length1
      pure (.ok (result = .lt))
    else pure (.ok false)
  | .greaterThan => pure (.error .unsupportedQuery)
end MultiUInt32Value
end SecurityFramework.Filedb
