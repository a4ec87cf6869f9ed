import SecurityFramework.Filedb.DbIndex
import SecurityFramework.Library.Memory

/-!
# Tables in a database file

The section of a table has an array with the offset of each record.
-/

namespace SecurityFramework.Filedb
open Memory

namespace ReadSection
def «at» (region : List UInt8) (offset : Nat) : Except CssmError Nat :=
  if 2 ^ 32 ≤ offset + 4 then .error .databaseCorrupt
  else
    match loadBE region offset 4 with
    | some value => .ok value
    | none => .error .databaseCorrupt

def subsection (region : List UInt8) (offset : Nat) : Except CssmError (List UInt8) :=
  if region.length < offset then .error .databaseCorrupt else .ok (region.drop offset)

def range (region : List UInt8) (offset size : Nat) : Except CssmError (List UInt8) :=
  if 2 ^ 32 ≤ offset + size then .error .databaseCorrupt
  else
    match load region offset size with
    | some octets => .ok octets
    | none => .error .databaseCorrupt

theorem at_eq_ok {region : List UInt8} {offset value : Nat} (hlt : offset + 4 < 2 ^ 32)
    (hload : loadBE region offset 4 = some value) : ReadSection.at region offset = .ok value := by
  rw [ReadSection.at, if_neg (by omega), hload]

theorem range_eq_ok {region octets : List UInt8} {offset size : Nat} (hlt : offset + size < 2 ^ 32)
    (hload : load region offset size = some octets) : range region offset size = .ok octets := by
  rw [range, if_neg (by omega), hload]
end ReadSection

structure RecordId where
  recordNumber : UInt32
  createVersion : UInt32
  recordVersion : UInt32
  deriving DecidableEq

/-- A record as it is packed. What comes after the identifier is made by the table's
`MetaRecord`. -/
structure PackedRecord where
  recordId : RecordId
  body : List UInt8
  deriving DecidableEq

namespace PackedRecord
def size (record : PackedRecord) : Nat := 16 + record.body.length

def octets (record : PackedRecord) : List UInt8 :=
  toBE 4 record.size ++ (toBE 4 record.recordId.recordNumber.toNat ++
    (toBE 4 record.recordId.createVersion.toNat ++
      (toBE 4 record.recordId.recordVersion.toNat ++ record.body)))

def unpack (region : List UInt8) : Except CssmError PackedRecord := do
  let recordNumber ← ReadSection.at region 4
  let createVersion ← ReadSection.at region 8
  let recordVersion ← ReadSection.at region 12
  return ⟨⟨.ofNat recordNumber, .ofNat createVersion, .ofNat recordVersion⟩, region.drop 16⟩

def readSection (region : List UInt8) (offset : Nat) : Except CssmError PackedRecord := do
  let size ← ReadSection.at region offset
  unpack (← ReadSection.range region offset size)

@[simp] theorem length_octets (record : PackedRecord) : record.octets.length = record.size := by
  simp only [octets, List.length_append, length_toBE, size]
  omega

theorem load_octets (record : PackedRecord) :
    loadBE record.octets 0 4 = some (record.size % 2 ^ 32) ∧
      loadBE record.octets 4 4 = some record.recordId.recordNumber.toNat ∧
      loadBE record.octets 8 4 = some record.recordId.createVersion.toNat ∧
      loadBE record.octets 12 4 = some record.recordId.recordVersion.toNat ∧
      record.octets.drop 16 = record.body := by
  have hall := load_all record.octets
  rw [octets] at hall
  obtain ⟨hsize, hrest⟩ := load_append hall
  obtain ⟨hnumber, hrest⟩ := load_append hrest
  obtain ⟨hcreate, hrest⟩ := load_append hrest
  obtain ⟨hversion, hbody⟩ := load_append hrest
  simp only [length_toBE] at hsize hnumber hcreate hversion hbody
  have hmod : ∀ value : UInt32, value.toNat % 256 ^ 4 = value.toNat :=
    fun value => Nat.mod_eq_of_lt value.toNat_lt
  refine ⟨loadBE_of_load_toBE hsize, ?_, ?_, ?_, ?_⟩
  · have hvalue := loadBE_of_load_toBE hnumber
    rwa [hmod] at hvalue
  · have hvalue := loadBE_of_load_toBE hcreate
    rwa [hmod] at hvalue
  · have hvalue := loadBE_of_load_toBE hversion
    rwa [hmod] at hvalue
  · simp only [octets, ← List.append_assoc]
    exact List.drop_left' (by simp only [List.length_append, length_toBE])

theorem unpack_octets (record : PackedRecord) : unpack record.octets = .ok record := by
  obtain ⟨-, hnumber, hcreate, hversion, hbody⟩ := record.load_octets
  rw [unpack, ReadSection.at_eq_ok (by decide) hnumber, ReadSection.at_eq_ok (by decide) hcreate,
    ReadSection.at_eq_ok (by decide) hversion, hbody]
  simp only [bind, Except.bind, UInt32.ofNat_toNat]
  rfl

theorem readSection_eq_ok {record : PackedRecord} {region : List UInt8} {offset : Nat}
    (hlt : offset + record.size < 2 ^ 32)
    (hload : load region offset record.size = some record.octets) :
    readSection region offset = .ok record := by
  have hpos : 16 ≤ record.size := Nat.le_add_right _ _
  have hsize : loadBE region offset 4 = some record.size := by
    have hvalue := record.load_octets.1
    rw [loadBE_of_load hload (by omega), Nat.add_zero, Nat.mod_eq_of_lt (by omega)] at hvalue
    exact hvalue
  rw [readSection, ReadSection.at_eq_ok (by omega) hsize]
  simp only [bind, Except.bind]
  rw [ReadSection.range_eq_ok hlt hload]
  exact unpack_octets record
end PackedRecord

structure DbConstIndex extends DbIndex where
  entries : List (List DbValue × UInt32)

structure Table where
  tableSection : List UInt8
  recordsCount : Nat
  freeListHead : Nat
  recordNumberCount : UInt32
  indexes : List DbConstIndex

namespace Table
def offsetRecordNumbers : Nat := 28

def slotOffset (recordNumber : UInt32) : Nat :=
  (offsetRecordNumbers + 4 * recordNumber.toNat) % 2 ^ 32

def ofSection (tableSection : List UInt8) (indexes : List DbConstIndex) :
    Except CssmError Table := do
  let recordsCount ← ReadSection.at tableSection 8
  let freeListHead ← ReadSection.at tableSection 20
  let recordNumbersCount ← ReadSection.at tableSection 24
  return ⟨tableSection, recordsCount, freeListHead, .ofNat recordNumbersCount, indexes⟩

def getRecordSection (table : Table) (recordNumber : UInt32) : Except CssmError PackedRecord :=
  if table.recordNumberCount ≤ recordNumber then .error .invalidRecordUid
  else do
    let offset ← ReadSection.at table.tableSection (slotOffset recordNumber)
    -- the record number has been deleted
    if offset % 2 = 1 ∨ offset = 0 then .error .recordNotFound
    else PackedRecord.readSection table.tableSection offset

def getRecord (table : Table) (recordId : RecordId) : Except CssmError PackedRecord := do
  let record ← table.getRecordSection recordId.recordNumber
  if record.recordId.recordNumber ≠ recordId.recordNumber then .error .databaseCorrupt
  else if record.recordId.createVersion ≠ recordId.createVersion then .error .invalidRecordUid
  else .ok record

def popFreeList (table : Table) (freeListHead : Nat) : Except CssmError (UInt32 × Nat) := do
  let offset := freeListHead ^^^ 1
  let rest ← ReadSection.at table.tableSection offset
  return (.ofNat ((offset + 2 ^ 32 - offsetRecordNumbers) % 2 ^ 32 / 4), rest)

def getRecordsSection (table : Table) : Except CssmError (List UInt8) := do
  ReadSection.subsection table.tableSection (← ReadSection.at table.tableSection 12)
end Table

namespace PackedRecord
def number (record : PackedRecord) : UInt32 := record.recordId.recordNumber

def totalSize (records : List PackedRecord) : Nat := (records.map size).sum

@[simp] theorem totalSize_nil : totalSize [] = 0 := rfl

@[simp] theorem totalSize_cons (record : PackedRecord) (records : List PackedRecord) :
    totalSize (record :: records) = record.size + totalSize records := rfl

@[simp] theorem totalSize_append (records records' : List PackedRecord) :
    totalSize (records ++ records') = totalSize records + totalSize records' := by
  simp [totalSize]
end PackedRecord

/-- The records of a table as they come in the section, and the numbers that are not used as they
come in the list. -/
structure TableContents where
  records : List PackedRecord
  free : List UInt32
  recordNumberCount : Nat

def freeLink (recordNumber : UInt32) : Nat :=
  Table.offsetRecordNumbers + 4 * recordNumber.toNat + 1

def FreeList (region : List UInt8) : Nat → List UInt32 → Prop
  | head, [] => head = 0
  | head, recordNumber :: rest =>
    head = freeLink recordNumber ∧
      ∃ next, loadBE region (Table.slotOffset recordNumber) 4 = some next ∧
        FreeList region next rest

/-- The records are one after another, and where each one is stands in the array. -/
def RecordsAt (region : List UInt8) : Nat → List PackedRecord → Prop
  | _, [] => True
  | offset, record :: rest =>
    load region offset record.size = some record.octets ∧
      loadBE region (Table.slotOffset record.number) 4 = some offset ∧
      RecordsAt region (offset + record.size) rest

namespace TableContents
def recordsOffset (contents : TableContents) : Nat :=
  Table.offsetRecordNumbers + 4 * contents.recordNumberCount

def recordsEnd (contents : TableContents) : Nat :=
  contents.recordsOffset + PackedRecord.totalSize contents.records

structure Valid (contents : TableContents) : Prop where
  count_pos : 0 < contents.recordNumberCount
  nodup : (contents.records.map PackedRecord.number ++ contents.free).Nodup
  mem_iff : ∀ recordNumber : UInt32,
    recordNumber ∈ contents.records.map PackedRecord.number ++ contents.free ↔
      recordNumber.toNat < contents.recordNumberCount
  aligned : ∀ record ∈ contents.records, record.size % 4 = 0
  recordsEnd_lt : contents.recordsEnd < 2 ^ 32
end TableContents

structure Represents (region : List UInt8) (contents : TableContents) : Prop where
  size : ∃ size, loadBE region 0 4 = some size ∧ contents.recordsEnd ≤ size ∧ size ≤ region.length
  recordsCount : loadBE region 8 4 = some contents.records.length
  offsetRecords : loadBE region 12 4 = some contents.recordsOffset
  freeList : ∃ head, loadBE region 20 4 = some head ∧ FreeList region head contents.free
  recordNumbersCount : loadBE region 24 4 = some contents.recordNumberCount
  records : RecordsAt region contents.recordsOffset contents.records

structure Table.Represents (table : Table) (contents : TableContents) : Prop where
  valid : contents.Valid
  region : Filedb.Represents table.tableSection contents
  ofSection : Table.ofSection table.tableSection table.indexes = .ok table

namespace RecordsAt
variable {region : List UInt8} {offset : Nat} {records records' : List PackedRecord}

theorem append_iff :
    RecordsAt region offset (records ++ records') ↔
      RecordsAt region offset records ∧
        RecordsAt region (offset + PackedRecord.totalSize records) records' := by
  induction records generalizing offset with
  | nil => simp [RecordsAt]
  | cons record records ih =>
    simp only [List.cons_append, RecordsAt, ih, PackedRecord.totalSize_cons, ← Nat.add_assoc,
      and_assoc]

theorem exists_offset {record : PackedRecord} (hrecords : RecordsAt region offset records)
    (hmem : record ∈ records) :
    ∃ before, before + record.size ≤ PackedRecord.totalSize records ∧
      (∃ front, front ⊆ records ∧ before = PackedRecord.totalSize front) ∧
      load region (offset + before) record.size = some record.octets ∧
      loadBE region (Table.slotOffset record.number) 4 = some (offset + before) := by
  obtain ⟨front, back, rfl⟩ := List.append_of_mem hmem
  obtain ⟨-, hload, hslot, -⟩ := append_iff.mp hrecords
  refine ⟨PackedRecord.totalSize front, ?_, ⟨front, List.subset_append_left _ _, rfl⟩, hload, hslot⟩
  rw [PackedRecord.totalSize_append, PackedRecord.totalSize_cons]
  omega
end RecordsAt

theorem totalSize_mod_four {records : List PackedRecord}
    (haligned : ∀ record ∈ records, record.size % 4 = 0) :
    PackedRecord.totalSize records % 4 = 0 := by
  induction records with
  | nil => rfl
  | cons record records ih =>
    have hhead := haligned record List.mem_cons_self
    have htail := ih fun other hother => haligned other (List.mem_cons_of_mem _ hother)
    rw [PackedRecord.totalSize_cons]
    omega

theorem slotOffset_eq {recordNumber : UInt32} {count : Nat} (hlt : recordNumber.toNat < count)
    (hcount : Table.offsetRecordNumbers + 4 * count < 2 ^ 32) :
    Table.slotOffset recordNumber = Table.offsetRecordNumbers + 4 * recordNumber.toNat := by
  rw [Table.slotOffset]
  exact Nat.mod_eq_of_lt (by omega)

theorem freeLink_xor_one (recordNumber : UInt32) :
    freeLink recordNumber ^^^ 1 = Table.offsetRecordNumbers + 4 * recordNumber.toNat := by
  have hxor : ∀ n : Nat, (2 * n + 1) ^^^ 1 = 2 * n := by
    intro n
    apply Nat.eq_of_testBit_eq
    intro i
    rw [Nat.testBit_xor]
    cases i with
    | zero => simp
    | succ i => simp [Nat.testBit_succ, Nat.mul_add_div]
  have hlink : freeLink recordNumber = 2 * (14 + 2 * recordNumber.toNat) + 1 := by
    rw [freeLink, Table.offsetRecordNumbers]
    omega
  rw [hlink, hxor, Table.offsetRecordNumbers]
  omega

namespace TableContents.Valid
variable {contents : TableContents}

theorem slots_lt (hcontents : contents.Valid) :
    Table.offsetRecordNumbers + 4 * contents.recordNumberCount < 2 ^ 32 :=
  Nat.lt_of_le_of_lt (Nat.le_add_right _ _) hcontents.recordsEnd_lt

theorem number_lt (hcontents : contents.Valid) {record : PackedRecord}
    (hmem : record ∈ contents.records) : record.number.toNat < contents.recordNumberCount :=
  (hcontents.mem_iff _).mp (List.mem_append_left _ (List.mem_map_of_mem hmem))

theorem free_lt (hcontents : contents.Valid) {recordNumber : UInt32}
    (hmem : recordNumber ∈ contents.free) : recordNumber.toNat < contents.recordNumberCount :=
  (hcontents.mem_iff _).mp (List.mem_append_right _ hmem)
end TableContents.Valid

namespace Table.Represents
variable {table : Table} {contents : TableContents}

theorem header (htable : table.Represents contents) :
    table.recordsCount = contents.records.length ∧
      FreeList table.tableSection table.freeListHead contents.free ∧
      table.recordNumberCount.toNat = contents.recordNumberCount := by
  obtain ⟨head, hhead, hfree⟩ := htable.region.freeList
  have hsection := htable.ofSection
  rw [Table.ofSection, ReadSection.at_eq_ok (by decide) htable.region.recordsCount,
    ReadSection.at_eq_ok (by decide) hhead,
    ReadSection.at_eq_ok (by decide) htable.region.recordNumbersCount] at hsection
  simp only [bind, Except.bind, pure, Except.pure, Except.ok.injEq] at hsection
  have hlt := htable.valid.slots_lt
  rw [← hsection]
  refine ⟨rfl, hfree, ?_⟩
  exact UInt32.toNat_ofNat_of_lt' (by rw [UInt32.size]; omega)

theorem recordNumberCount_le_iff (htable : table.Represents contents) (recordNumber : UInt32) :
    table.recordNumberCount ≤ recordNumber ↔
      contents.recordNumberCount ≤ recordNumber.toNat := by
  rw [UInt32.le_iff_toNat_le, htable.header.2.2]

theorem getRecordSection_of_mem (htable : table.Represents contents) {record : PackedRecord}
    (hmem : record ∈ contents.records) : table.getRecordSection record.number = .ok record := by
  have hlt := htable.valid.number_lt hmem
  have hslots := htable.valid.slots_lt
  have hend := htable.valid.recordsEnd_lt
  obtain ⟨before, hbefore, ⟨front, hfront, rfl⟩, hload, hslot⟩ :=
    htable.region.records.exists_offset hmem
  have haligned := totalSize_mod_four fun other hother => htable.valid.aligned other (hfront hother)
  rw [TableContents.recordsEnd] at hend
  rw [Table.getRecordSection, if_neg]
  · rw [ReadSection.at_eq_ok _ hslot]
    · simp only [bind, Except.bind]
      rw [if_neg]
      · exact PackedRecord.readSection_eq_ok (by omega) hload
      · rw [TableContents.recordsOffset, Table.offsetRecordNumbers]
        omega
    · rw [slotOffset_eq hlt hslots]
      omega
  · rw [htable.recordNumberCount_le_iff]
    omega

variable {recordNumber : UInt32}

theorem getRecordSection_of_freeList {head : Nat} {free : List UInt32}
    (htable : table.Represents contents) (hfree : FreeList table.tableSection head free)
    (hlt : ∀ recordNumber ∈ free, recordNumber.toNat < contents.recordNumberCount)
    (hmem : recordNumber ∈ free) :
    table.getRecordSection recordNumber = .error .recordNotFound := by
  induction free generalizing head with
  | nil => cases hmem
  | cons first rest ih =>
    obtain ⟨-, next, hnext, hrest⟩ := hfree
    cases List.mem_cons.mp hmem with
    | inr hmem => exact ih hrest (fun n hn => hlt n (List.mem_cons_of_mem _ hn)) hmem
    | inl heq =>
      have hfirst := hlt first List.mem_cons_self
      have hslots := htable.valid.slots_lt
      have hlink : next % 2 = 1 ∨ next = 0 := by
        cases rest with
        | nil => exact Or.inr hrest
        | cons second rest =>
          left
          rw [hrest.1, freeLink, Table.offsetRecordNumbers]
          omega
      rw [heq, Table.getRecordSection, if_neg]
      · rw [ReadSection.at_eq_ok _ hnext]
        · simp only [bind, Except.bind]
          rw [if_pos hlink]
        · rw [slotOffset_eq hfirst hslots]
          omega
      · rw [htable.recordNumberCount_le_iff]
        omega

theorem getRecordSection_of_mem_free (htable : table.Represents contents)
    (hmem : recordNumber ∈ contents.free) :
    table.getRecordSection recordNumber = .error .recordNotFound :=
  htable.getRecordSection_of_freeList htable.header.2.1 (fun _ => htable.valid.free_lt) hmem

theorem getRecordSection_of_le (htable : table.Represents contents)
    (hle : contents.recordNumberCount ≤ recordNumber.toNat) :
    table.getRecordSection recordNumber = .error .invalidRecordUid := by
  rw [Table.getRecordSection, if_pos ((htable.recordNumberCount_le_iff _).mpr hle)]

theorem getRecordSection_eq_ok_iff (htable : table.Represents contents) {record : PackedRecord} :
    table.getRecordSection recordNumber = .ok record ↔
      record ∈ contents.records ∧ record.number = recordNumber := by
  constructor
  · intro hok
    by_cases hlt : recordNumber.toNat < contents.recordNumberCount
    · cases List.mem_append.mp ((htable.valid.mem_iff recordNumber).mpr hlt) with
      | inl hused =>
        obtain ⟨other, hother, rfl⟩ := List.mem_map.mp hused
        rw [htable.getRecordSection_of_mem hother] at hok
        cases hok
        exact ⟨hother, rfl⟩
      | inr hfree =>
        rw [htable.getRecordSection_of_mem_free hfree] at hok
        cases hok
    · rw [htable.getRecordSection_of_le (by omega)] at hok
      cases hok
  · intro hmem
    rw [← hmem.2]
    exact htable.getRecordSection_of_mem hmem.1

theorem popFreeList_eq_ok (htable : table.Represents contents) {head : Nat} {rest : List UInt32}
    (hfree : FreeList table.tableSection head (recordNumber :: rest))
    (hlt : recordNumber.toNat < contents.recordNumberCount) :
    ∃ next, table.popFreeList head = .ok (recordNumber, next) ∧
      FreeList table.tableSection next rest := by
  obtain ⟨rfl, next, hnext, hrest⟩ := hfree
  have hslots := htable.valid.slots_lt
  rw [slotOffset_eq hlt hslots] at hnext
  refine ⟨next, ?_, hrest⟩
  rw [Table.popFreeList, freeLink_xor_one, ReadSection.at_eq_ok (by omega) hnext]
  have hnumber : (Table.offsetRecordNumbers + 4 * recordNumber.toNat + 2 ^ 32 -
      Table.offsetRecordNumbers) % 2 ^ 32 / 4 = recordNumber.toNat := by omega
  simp only [bind, Except.bind, hnumber, UInt32.ofNat_toNat]
  rfl
end Table.Represents
end SecurityFramework.Filedb
