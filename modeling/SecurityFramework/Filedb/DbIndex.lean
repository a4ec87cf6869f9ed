import SecurityFramework.Filedb.DbValue

/-!
# Indexes

An index has an entry for each record and each combination of the values of its attributes.
-/

namespace SecurityFramework.Filedb
def lessThan (a b : DbValue) : Bool := a.evaluate b .lessThan = .ok true

/-- The first attribute in which two keys differ says which one is less. -/
def DbIndexKey.lessThan : List DbValue → List DbValue → Bool
  | a :: as, b :: bs =>
    if Filedb.lessThan a b then true
    else if Filedb.lessThan b a then false
    else DbIndexKey.lessThan as bs
  | _, _ => false

structure DbIndex where
  indexId : UInt32
  isUniqueIndex : Bool
  attributes : List Nat

/-- The entries are keys with record numbers, in the order of the keys. -/
structure DbMutableIndex extends DbIndex where
  map : List (List DbValue × UInt32)

namespace DbMutableIndex
def contains (index : DbMutableIndex) (key : List DbValue) : Bool :=
  index.map.any fun entry =>
    !DbIndexKey.lessThan entry.1 key && !DbIndexKey.lessThan key entry.1

def insert (index : DbMutableIndex) (key : List DbValue) (recordNumber : UInt32) :
    DbMutableIndex :=
  { index with
    map := index.map.orderedInsert (fun a b => DbIndexKey.lessThan a.1 b.1) (key, recordNumber) }

def removeRecord (index : DbMutableIndex) (recordNumber : UInt32) : DbMutableIndex :=
  { index with map := index.map.filter fun entry => entry.2 ≠ recordNumber }

/-- The last steps of `insertRecordSingle` and `insertRecordMulti`. An index is left as it is when
something is thrown. -/
def insertKey (recordNumber : UInt32) (key : List DbValue) (index : DbMutableIndex) :
    DbMutableIndex × Option CssmError :=
  if index.isUniqueIndex && index.contains key then (index, some .invalidUniqueIndexData)
  else (index.insert key recordNumber, none)

def forEachValue (f : DbValue → DbMutableIndex → DbMutableIndex × Option CssmError) :
    List DbValue → DbMutableIndex → DbMutableIndex × Option CssmError
  | [], index => (index, none)
  | value :: values, index =>
    match f value index with
    | (index, some error) => (index, some error)
    | (index, none) => forEachValue f values index

/-- The values are those of the attributes that are left. -/
def insertRecordMulti (recordNumber : UInt32) :
    List (List DbValue) → List DbValue → DbMutableIndex → DbMutableIndex × Option CssmError
  | [], key, index => insertKey recordNumber key index
  | values :: rest, key, index =>
    forEachValue (fun value => insertRecordMulti recordNumber rest (key ++ [value])) values index

inductive ValueCounts where
  | allSingleValued
  | multiValued
  | missing

/-- The loop ends at the first attribute that does not have a single value. -/
def valueCounts : List (List DbValue) → ValueCounts
  | [] => .allSingleValued
  | [] :: _ => .missing
  | [_] :: rest => valueCounts rest
  | (_ :: _ :: _) :: _ => .multiValued

def insertRecord (recordNumber : UInt32) (values : List (List DbValue)) (index : DbMutableIndex) :
    DbMutableIndex × Option CssmError :=
  match valueCounts values with
  | .missing => (index, if index.isUniqueIndex then some .missingValue else none)
  | .allSingleValued => insertKey recordNumber values.flatten index
  | .multiValued => insertRecordMulti recordNumber values [] index
end DbMutableIndex

def combinations : List (List DbValue) → List (List DbValue)
  | [] => [[]]
  | values :: rest => values.flatMap fun value => (combinations rest).map (value :: ·)

namespace DbMutableIndex
def insertKeys (recordNumber : UInt32) :
    List (List DbValue) → DbMutableIndex → DbMutableIndex × Option CssmError
  | [], index => (index, none)
  | key :: keys, index =>
    match insertKey recordNumber key index with
    | (index, some error) => (index, some error)
    | (index, none) => insertKeys recordNumber keys index

variable {recordNumber : UInt32}

theorem insertKeys_append (keys keys' : List (List DbValue)) (index : DbMutableIndex) :
    insertKeys recordNumber (keys ++ keys') index =
      match insertKeys recordNumber keys index with
      | (index, some error) => (index, some error)
      | (index, none) => insertKeys recordNumber keys' index := by
  induction keys generalizing index with
  | nil => rfl
  | cons key keys ih =>
    rw [List.cons_append, insertKeys, insertKeys]
    split
    case h_1 => rfl
    case h_2 => exact ih _

theorem insertRecordMulti_eq (values : List (List DbValue)) (key : List DbValue)
    (index : DbMutableIndex) :
    insertRecordMulti recordNumber values key index =
      insertKeys recordNumber ((combinations values).map (key ++ ·)) index := by
  induction values generalizing key index with
  | nil =>
    rw [insertRecordMulti, combinations, List.map_singleton, List.append_nil, insertKeys]
    split
    case h_1 heq => rw [heq]
    case h_2 heq => rw [heq, insertKeys]
  | cons values rest ih =>
    rw [insertRecordMulti, combinations]
    induction values generalizing index with
    | nil => rfl
    | cons value values ihValues =>
      rw [forEachValue, ih, List.flatMap_cons, List.map_append, insertKeys_append, List.map_map]
      have hkeys : (fun rest => key ++ (value :: rest)) = fun rest => key ++ [value] ++ rest := by
        funext rest
        simp
      rw [show ((fun x => key ++ x) ∘ fun x => value :: x) = fun x => key ++ [value] ++ x from hkeys]
      split
      case h_1 => rfl
      case h_2 => exact ihValues _

theorem combinations_of_allSingleValued {values : List (List DbValue)}
    (hcounts : valueCounts values = .allSingleValued) :
    combinations values = [values.flatten] := by
  induction values using valueCounts.induct with
  | case1 => rfl
  | case2 => cases hcounts
  | case3 value rest ih =>
    rw [combinations, ih hcounts]
    rfl
  | case4 => cases hcounts

theorem combinations_of_missing {values : List (List DbValue)}
    (hcounts : valueCounts values = .missing) : combinations values = [] := by
  induction values using valueCounts.induct with
  | case1 => cases hcounts
  | case2 => rfl
  | case3 value rest ih =>
    rw [combinations, ih hcounts]
    rfl
  | case4 => cases hcounts

theorem insertRecord_eq (values : List (List DbValue)) (index : DbMutableIndex)
    (hmissing : valueCounts values = .missing → index.isUniqueIndex = false) :
    insertRecord recordNumber values index =
      insertKeys recordNumber (combinations values) index := by
  rw [insertRecord]
  split
  case h_1 hcounts =>
    rw [combinations_of_missing hcounts, hmissing hcounts]
    rfl
  case h_2 hcounts =>
    rw [combinations_of_allSingleValued hcounts, insertKeys]
    split
    case h_1 heq => rw [heq]
    case h_2 heq => rw [heq, insertKeys]
  case h_3 =>
    rw [insertRecordMulti_eq]
    simp
end DbMutableIndex
end SecurityFramework.Filedb
