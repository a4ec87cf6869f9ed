import SecurityFramework.Filedb.Table

/-!
# Modified tables

A table is not changed in place.
-/

namespace SecurityFramework.Filedb
structure RecordBody where
  octets : List UInt8
  aligned : octets.length % 4 = 0
  length_lt : 16 + octets.length < 2 ^ 32

theorem RecordBody.size_spec (body : RecordBody) (recordId : RecordId) :
    PackedRecord.size ⟨recordId, body.octets⟩ % 4 = 0 ∧
      PackedRecord.size ⟨recordId, body.octets⟩ < 2 ^ 32 := by
  have haligned := body.aligned
  have hlt := body.length_lt
  simp only [PackedRecord.size]
  omega

/-- What a table knows of its records. Records are packed from `Attributes` and data, and updated
with `Changes`. -/
structure MetaRecord (Attributes Changes : Type*) where
  format : Nat → AttributeFormat
  values : Nat → List UInt8 → List DbValue
  format_eq : ∀ index body, ∀ value ∈ values index body, value.format = format index
  packRecord : Attributes → Except CssmError RecordBody
  updateRecord : List UInt8 → Changes → Except CssmError RecordBody

structure ModifiedTable where
  table : Option Table
  deletedSet : Std.ExtTreeSet UInt32
  insertedMap : Std.ExtTreeMap UInt32 PackedRecord
  recordNumberCount : UInt32
  freeListHead : Nat
  isModified : Bool
  indexMap : List DbMutableIndex

def DbMutableIndex.ofConstIndex (index : DbConstIndex) : DbMutableIndex :=
  index.entries.foldl (fun result entry => result.insert entry.1 entry.2)
    { index with map := [] }

def MetaRecord.indexValues {Attributes Changes : Type*} (metaRecord : MetaRecord Attributes Changes)
    (index : DbIndex) (body : List UInt8) : List (List DbValue) :=
  index.attributes.map fun attributeIndex => metaRecord.values attributeIndex body

namespace ModifiedTable
def ofTable (table : Table) : ModifiedTable where
  table := some table
  deletedSet := ∅
  insertedMap := ∅
  recordNumberCount := table.recordNumberCount
  freeListHead := table.freeListHead
  isModified := false
  indexMap := []

def ofIndexes (indexes : List DbIndex) : ModifiedTable where
  table := none
  deletedSet := ∅
  insertedMap := ∅
  recordNumberCount := 0
  freeListHead := 0
  isModified := true
  indexMap := indexes.map fun index => { index with map := [] }

def createMutableIndexes (table : Option Table) : List DbMutableIndex :=
  match table with
  | none => []
  | some table => table.indexes.map DbMutableIndex.ofConstIndex

def modifyTable (m : ModifiedTable) : ModifiedTable :=
  if m.isModified then m
  else { m with indexMap := createMutableIndexes m.table, isModified := true }

def nextRecordNumber (m : ModifiedTable) : Except CssmError (UInt32 × ModifiedTable) :=
  if m.freeListHead ≠ 0 then
    match m.table with
    | none => .error .undefined
    | some table =>
      match table.popFreeList m.freeListHead with
      | .error error => .error error
      | .ok (recordNumber, rest) => .ok (recordNumber, { m with freeListHead := rest })
  else .ok (m.recordNumberCount, { m with recordNumberCount := m.recordNumberCount + 1 })

variable {Attributes Changes : Type*} (metaRecord : MetaRecord Attributes Changes)

def insertIntoIndexes (recordNumber : UInt32) (body : List UInt8) :
    List DbMutableIndex → List DbMutableIndex × Option CssmError
  | [] => ([], none)
  | index :: indexes =>
    match index.insertRecord recordNumber (metaRecord.indexValues index.toDbIndex body) with
    | (index, some error) => (index :: indexes, some error)
    | (index, none) =>
      let rest := insertIntoIndexes recordNumber body indexes
      (index :: rest.1, rest.2)

def removeFromIndexes (recordNumber : UInt32) (indexes : List DbMutableIndex) :
    List DbMutableIndex :=
  indexes.map fun index => index.removeRecord recordNumber

abbrev Outcome (α : Type*) := Except CssmError α × ModifiedTable

def removeRecord (recordNumber : UInt32) (m : ModifiedTable) : ModifiedTable :=
  { m with indexMap := removeFromIndexes recordNumber m.indexMap }

def scheduleDeletion (recordId : RecordId) (m : ModifiedTable) : Outcome Unit :=
  match m.insertedMap[recordId.recordNumber]? with
  | none =>
    match m.table with
    -- without an old table there cannot be such a record yet
    | none => (.error .recordNotFound, m)
    | some _ =>
      if recordId.recordNumber ∈ m.deletedSet then (.error .recordNotFound, m)
      else (.ok (), { m with deletedSet := m.deletedSet.insert recordId.recordNumber })
  | some record =>
    if record.recordId.createVersion ≠ recordId.createVersion then (.error .recordNotFound, m)
    else (.ok (), { m with insertedMap := m.insertedMap.erase recordId.recordNumber })

def deleteRecord (recordId : RecordId) (m : ModifiedTable) : Outcome Unit :=
  scheduleDeletion recordId (m.modifyTable.removeRecord recordId.recordNumber)

def scheduleInsertion (record : PackedRecord) (m : ModifiedTable) : Outcome RecordId :=
  match insertIntoIndexes metaRecord record.number record.body m.indexMap with
  | (indexMap, some error) => (.error error, { m with indexMap := indexMap })
  | (indexMap, none) =>
    (.ok record.recordId,
      { m with
        indexMap := indexMap
        insertedMap := m.insertedMap.insertIfNew record.number record })

def insertRecord (versionId : UInt32) (attributes : Attributes) (m : ModifiedTable) :
    Outcome RecordId :=
  match metaRecord.packRecord attributes with
  | .error error => (.error error, m.modifyTable)
  | .ok body =>
    match m.modifyTable.nextRecordNumber with
    | .error error => (.error error, m.modifyTable)
    | .ok (recordNumber, m) =>
      scheduleInsertion metaRecord ⟨⟨recordNumber, versionId, 0⟩, body.octets⟩ m

def recordToUpdate (recordId : RecordId) (m : ModifiedTable) : Except CssmError PackedRecord := do
  let record ←
    match m.insertedMap[recordId.recordNumber]?, m.table with
    | some record, _ => .ok record
    | none, none => .error .recordNotFound
    | none, some table => table.getRecordSection recordId.recordNumber
  if record.recordId.createVersion ≠ recordId.createVersion then .error .recordNotFound
  else .ok record

def replaceRecord (oldRecord newRecord : PackedRecord) (m : ModifiedTable) : Outcome RecordId :=
  let isReUpdate := m.insertedMap.contains newRecord.number
  if !isReUpdate && m.deletedSet.contains newRecord.number then (.error .recordNotFound, m)
  else
    let m := m.removeRecord newRecord.number
    match insertIntoIndexes metaRecord newRecord.number newRecord.body m.indexMap with
    | (indexMap, none) =>
      (.ok newRecord.recordId,
        { m with
          deletedSet :=
            if isReUpdate then m.deletedSet else m.deletedSet.insert newRecord.number
          insertedMap := m.insertedMap.insert newRecord.number newRecord
          indexMap := indexMap })
    | (indexMap, some error) =>
      -- the original record is added back to all indexes
      let restored := insertIntoIndexes metaRecord newRecord.number oldRecord.body
        (removeFromIndexes newRecord.number indexMap)
      (.error (restored.2.getD error), { m with indexMap := restored.1 })

def updateRecord (recordId : RecordId) (changes : Changes) (m : ModifiedTable) :
    Outcome RecordId :=
  match m.modifyTable.recordToUpdate recordId with
  | .error error => (.error error, m.modifyTable)
  | .ok oldRecord =>
    match metaRecord.updateRecord oldRecord.body changes with
    | .error error => (.error error, m.modifyTable)
    | .ok body =>
      let newRecordId := { recordId with recordVersion := recordId.recordVersion + 1 }
      replaceRecord metaRecord oldRecord ⟨newRecordId, body.octets⟩ m.modifyTable

def getRecord (recordId : RecordId) (m : ModifiedTable) : Except CssmError PackedRecord :=
  let fromTable :=
    match m.table with
    | none => .error .recordNotFound
    | some table => table.getRecord recordId
  if m.isModified then
    match m.insertedMap[recordId.recordNumber]? with
    | some record =>
      if record.recordId.recordNumber ≠ recordId.recordNumber then .error .databaseCorrupt
      else if record.recordId.createVersion ≠ recordId.createVersion then .error .invalidRecordUid
      else .ok record
    | none => if recordId.recordNumber ∈ m.deletedSet then .error .recordNotFound else fromTable
  else fromTable
end ModifiedTable
end SecurityFramework.Filedb
