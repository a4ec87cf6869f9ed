import SecurityFramework.Filedb.ModifiedTableRecords
import SecurityFramework.Filedb.TableSection
import SecurityFramework.Library.FileImage

/-!
# Writing a table

The records of the old table that are not deleted are copied in blocks, each as long as there is no
deleted record in between.
-/

namespace SecurityFramework.Filedb
open Memory

/-- The highest number of the old table, less the numbers at the end that are deleted. The numbers
are those in the deleted set, from the highest one on. -/
def trimOldMax (insertedMax : UInt32) : List UInt32 → UInt32 → UInt32
  | [], oldMax => oldMax
  | recordNumber :: rest, oldMax =>
    if recordNumber ≠ oldMax ∨ oldMax ≤ insertedMax then oldMax
    else trimOldMax insertedMax rest (oldMax - 1)

namespace ModifiedTable
def insertedMax (m : ModifiedTable) : UInt32 :=
  match m.insertedMap.toList.getLast? with
  | none => 0
  | some last => last.1

def maxRecordNumber (m : ModifiedTable) : UInt32 :=
  let oldMax :=
    match m.table with
    | none => 0
    | some table => table.recordNumberCount - 1
  max (trimOldMax m.insertedMax m.deletedSet.toList.reverse oldMax) m.insertedMax

def newRecordNumberCount (m : ModifiedTable) : UInt32 := m.maxRecordNumber + 1
end ModifiedTable

structure TableWriter where
  tableSection : List UInt8
  file : FileImage
  offset : Nat
  recordsCount : Nat

structure RecordCopier extends TableWriter where
  readOffset : Nat
  writeOffset : Nat
  blockStart : Nat
  blockSize : Nat

def wrap32 (value : Nat) : Nat := value % 2 ^ 32

namespace RecordCopier
variable (recordsSection : List UInt8)

def writeBlock (copier : RecordCopier) : Except CssmError TableWriter :=
  if 0 < copier.blockSize then do
    let block ← ReadSection.range recordsSection copier.blockStart copier.blockSize
    return { copier.toTableWriter with
      file := copier.file.write copier.offset block
      offset := wrap32 (copier.offset + copier.blockSize) }
  else .ok copier.toTableWriter

variable (deletedSet : Std.ExtTreeSet UInt32)

def copyRecord (copier : RecordCopier) : Except CssmError RecordCopier := do
  let record ← PackedRecord.readSection recordsSection copier.readOffset
  let readOffset := wrap32 (copier.readOffset + record.size)
  if deletedSet.contains record.number then
    let writer ← copier.writeBlock recordsSection
    return ⟨writer, readOffset, copier.writeOffset, readOffset, 0⟩
  else
    let tableSection ← WriteSection.put copier.tableSection (Table.slotOffset record.number)
      copier.writeOffset
    return { copier with
      tableSection := tableSection
      recordsCount := wrap32 (copier.recordsCount + 1)
      readOffset := readOffset
      writeOffset := wrap32 (copier.writeOffset + record.size)
      blockSize := wrap32 (copier.blockSize + record.size) }

def copyRecords : Nat → RecordCopier → Except CssmError RecordCopier
  | 0, copier => .ok copier
  | count + 1, copier => do
    copyRecords count (← copier.copyRecord recordsSection deletedSet)
end RecordCopier

namespace TableWriter
def copyTable (table : Table) (deletedSet : Std.ExtTreeSet UInt32) (recordsOffset : Nat)
    (writer : TableWriter) : Except CssmError TableWriter := do
  let recordsSection ← table.getRecordsSection
  let copier ← RecordCopier.copyRecords recordsSection deletedSet table.recordsCount
    ⟨writer, 0, recordsOffset, 0, 0⟩
  copier.writeBlock recordsSection

def writeInserted (inSectionOffset : Nat) :
    List (UInt32 × PackedRecord) → TableWriter → Except CssmError TableWriter
  | [], writer => .ok writer
  | (recordNumber, record) :: rest, writer => do
    let tableSection ← WriteSection.put writer.tableSection (Table.slotOffset recordNumber)
      (wrap32 (writer.offset + 2 ^ 32 - inSectionOffset))
    writeInserted inSectionOffset rest
      { tableSection := tableSection
        file := writer.file.write writer.offset record.octets
        offset := wrap32 (writer.offset + record.size)
        recordsCount := wrap32 (writer.recordsCount + 1) }
end TableWriter

namespace ModifiedTable
abbrev IndexWriter := List DbMutableIndex → Nat → Nat → Except CssmError (List UInt8)

variable (writeIndexes : IndexWriter) (tableId : UInt32)

def finishTable (indexMap : List DbMutableIndex) (inSectionOffset recordsOffset freeListHead : Nat)
    (writer : TableWriter) : Except CssmError (FileImage × Nat) := do
  let tableSection ← WriteSection.put writer.tableSection 20 freeListHead
  let indexOffset := wrap32 (writer.offset + 2 ^ 32 - inSectionOffset)
  let tableSection ← WriteSection.put tableSection 16 indexOffset
  let indexes ← writeIndexes indexMap recordsOffset indexOffset
  let tableSection ← WriteSection.putOctets tableSection indexOffset indexes
  let file := writer.file.write (wrap32 (inSectionOffset + indexOffset)) indexes
  let size := wrap32 (indexOffset + indexes.length)
  let tableSection ← WriteSection.put tableSection 0 size
  let tableSection ← WriteSection.put tableSection 8 writer.recordsCount
  return (file.write inSectionOffset (tableSection.take recordsOffset),
    wrap32 (size + inSectionOffset))

/-- Nothing is copied for a new table. -/
def copyOldTable (m : ModifiedTable) (recordsOffset : Nat) (writer : TableWriter) :
    Except CssmError TableWriter :=
  match m.table with
  | none => .ok writer
  | some table => writer.copyTable table m.deletedSet recordsOffset

/-- `writeTable` for a table that is new or has been modified. -/
def writeModifiedTable (m : ModifiedTable) (file : FileImage) (inSectionOffset : Nat) :
    Except CssmError (FileImage × Nat) := do
  let count := m.newRecordNumberCount.toNat
  let recordsOffset := wrap32 (Table.offsetRecordNumbers + 4 * count)
  let tableSection := List.replicate recordsOffset 0
  let tableSection ← WriteSection.put tableSection 4 tableId.toNat
  let tableSection ← WriteSection.put tableSection 12 recordsOffset
  let tableSection ← WriteSection.put tableSection 24 count
  let writer : TableWriter := ⟨tableSection, file, wrap32 (inSectionOffset + recordsOffset), 0⟩
  let writer ← m.copyOldTable recordsOffset writer
  let writer ← TableWriter.writeInserted inSectionOffset m.insertedMap.toList writer
  let (tableSection, freeListHead) ← buildFreeList count 0 writer.tableSection 0
  finishTable writeIndexes m.indexMap inSectionOffset recordsOffset freeListHead
    { writer with tableSection := tableSection }

/-- The file with the table, and the offset after the table. -/
def writeTable (m : ModifiedTable) (file : FileImage) (inSectionOffset : Nat) :
    Except CssmError (FileImage × Nat) :=
  match m.table, m.isModified with
  | some table, false => do
    -- the old section is taken as it is
    let size ← ReadSection.at table.tableSection 0
    let octets ← ReadSection.range table.tableSection 0 size
    return (file.write inSectionOffset octets, wrap32 (inSectionOffset + size))
  | _, _ => m.writeModifiedTable writeIndexes tableId file inSectionOffset
end ModifiedTable
end SecurityFramework.Filedb
