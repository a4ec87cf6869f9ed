import Mathlib.Data.Set.Card
import SecurityFramework.Filedb.WrittenTable
import SecurityFramework.Library.Run

/-!
# Commits of a table

The calls on a modified table say what records there have to be.
-/

namespace SecurityFramework.Filedb
open Memory

inductive TableCall (Attributes Changes : Type*) where
  | insertRecord (versionId : UInt32) (attributes : Attributes)
  | updateRecord (recordId : RecordId) (changes : Changes)
  | deleteRecord (recordId : RecordId)

abbrev LatestRecords := UInt32 → Option PackedRecord

section
variable {Attributes Changes : Type*} (metaRecord : MetaRecord Attributes Changes)

namespace TableCall
/-- What the call returns or throws. A deletion has no result, and gives the identifier back. -/
def run (m : ModifiedTable) : TableCall Attributes Changes → ModifiedTable.Outcome RecordId
  | insertRecord versionId attributes => m.insertRecord metaRecord versionId attributes
  | updateRecord recordId changes => m.updateRecord metaRecord recordId changes
  | deleteRecord recordId => ((m.deleteRecord recordId).1.map fun _ => recordId,
      (m.deleteRecord recordId).2)

/-- The records there have to be after a call that has returned an identifier. -/
def latest (records : LatestRecords) (recordId : RecordId) :
    TableCall Attributes Changes → LatestRecords
  | insertRecord _ attributes =>
    Function.update records recordId.recordNumber
      ((metaRecord.packRecord attributes).toOption.map fun body => ⟨recordId, body.octets⟩)
  | updateRecord _ changes =>
    Function.update records recordId.recordNumber
      ((records recordId.recordNumber).bind fun record =>
        (metaRecord.updateRecord record.body changes).toOption.map fun body =>
          ⟨recordId, body.octets⟩)
  | deleteRecord _ => Function.update records recordId.recordNumber none
end TableCall

structure RecordedTable where
  records : LatestRecords
  table : ModifiedTable

def callStep (s : RecordedTable) (call : TableCall Attributes Changes) : Option RecordedTable :=
  match call.run metaRecord s.table with
  | (.ok recordId, m) => some ⟨call.latest metaRecord s.records recordId, m⟩
  | (.error _, _) => none

def HasNumber (s : RecordedTable) : TableCall Attributes Changes → Prop
  | .insertRecord _ _ => s.table.HasNextNumber
  | _ => True
end

inductive RecordedTable.Starts : RecordedTable → Prop
  | ofTable {table : Table} {contents : TableContents} (htable : table.Represents contents) :
    Starts ⟨fun recordNumber => (table.getRecordSection recordNumber).toOption, .ofTable table⟩
  | ofIndexes (indexes : List DbIndex) : Starts ⟨fun _ => none, .ofIndexes indexes⟩

/-- The table has these records and no others, and the numbers of no record are free. -/
structure Table.HasExactly (table : Table) (records : LatestRecords) : Prop where
  wellFormed : ∃ contents, table.Represents contents
  getRecordSection : ∀ recordNumber,
    match records recordNumber with
    | some record => table.getRecordSection recordNumber = .ok record
    | none => ∃ error, table.getRecordSection recordNumber = .error error
  recordsCount : table.recordsCount = {recordNumber | (records recordNumber).isSome}.ncard
  freeList : ∃ free, FreeList table.tableSection table.freeListHead free ∧ free.Nodup ∧
    ∀ recordNumber, recordNumber ∈ free ↔
      recordNumber < table.recordNumberCount ∧ records recordNumber = none

def RecordedTable.CommitsExactly (s : RecordedTable) (writeIndexes : ModifiedTable.IndexWriter)
    (tableId : UInt32) (file : FileImage) (start : Nat) : Prop :=
  ∃ file' sectionEnd, s.table.writeTable writeIndexes tableId file start = .ok (file', sectionEnd) ∧
    ∀ rest indexes, ∃ table,
      Table.ofSection (file'.read start (sectionEnd - start) ++ rest) indexes = .ok table ∧
        table.HasExactly s.records

variable {contents : TableContents}

theorem Represents.exists_ofSection {region : List UInt8} (hrepresents : Represents region contents)
    (hcontents : contents.Valid) (indexes : List DbConstIndex) :
    ∃ table, Table.ofSection region indexes = .ok table ∧ table.Represents contents := by
  obtain ⟨head, hhead, hfree⟩ := hrepresents.freeList
  have hsection : Table.ofSection region indexes = .ok
      ⟨region, contents.records.length, head, .ofNat contents.recordNumberCount, indexes⟩ := by
    rw [Table.ofSection, ReadSection.at_eq_ok (by decide) hrepresents.recordsCount,
      ReadSection.at_eq_ok (by decide) hhead,
      ReadSection.at_eq_ok (by decide) hrepresents.recordNumbersCount]
    rfl
  exact ⟨_, hsection, hcontents, hrepresents, hsection⟩

theorem Table.Represents.hasExactly {table : Table} {records : LatestRecords}
    (htable : table.Represents contents)
    (hmem : ∀ record, record ∈ contents.records ↔ records record.number = some record)
    (hnumber : ∀ n record, records n = some record → record.number = n) :
    table.HasExactly records := by
  have hnone : ∀ n, records n = none ↔ n ∉ contents.records.map PackedRecord.number := by
    intro n
    constructor
    · intro hn hused
      obtain ⟨record, hrecord, rfl⟩ := List.mem_map.mp hused
      rw [(hmem record).mp hrecord] at hn
      cases hn
    · intro hunused
      cases hn : records n with
      | none => rfl
      | some record =>
        have heq := hnumber n record hn
        subst heq
        exact absurd (List.mem_map_of_mem ((hmem record).mpr hn)) hunused
  constructor
  · exact ⟨contents, htable⟩
  · intro n
    cases hn : records n with
    | some record =>
      have heq := hnumber n record hn
      subst heq
      exact htable.getRecordSection_of_mem ((hmem record).mpr hn)
    | none =>
      by_cases hlt : n.toNat < contents.recordNumberCount
      · have hused := (htable.valid.mem_iff n).mpr hlt
        have hfree := (List.mem_append.mp hused).resolve_left ((hnone n).mp hn)
        exact ⟨_, htable.getRecordSection_of_mem_free hfree⟩
      · exact ⟨_, htable.getRecordSection_of_le (Nat.le_of_not_lt hlt)⟩
  · have hset : {n | (records n).isSome} =
        ((contents.records.map PackedRecord.number).toFinset : Set UInt32) := by
      ext n
      rw [Set.mem_ofPred_eq, Finset.mem_coe, List.mem_toFinset, ← Option.ne_none_iff_isSome,
        ne_eq, hnone, not_not]
    rw [htable.header.1, hset, Set.ncard_coe_finset, List.toFinset_card_of_nodup, List.length_map]
    exact (List.nodup_append.mp htable.valid.nodup).1
  · refine ⟨contents.free, htable.header.2.1, (List.nodup_append.mp htable.valid.nodup).2.1, ?_⟩
    intro n
    rw [hnone, UInt32.lt_iff_toNat_lt, htable.header.2.2, ← htable.valid.mem_iff, List.mem_append]
    constructor
    · intro hfree
      refine ⟨Or.inr hfree, ?_⟩
      intro hused
      exact (List.nodup_append.mp htable.valid.nodup).2.2 _ hused _ hfree rfl
    · intro hboth
      exact hboth.1.resolve_left hboth.2

structure RecordedTable.Valid (s : RecordedTable) : Prop where
  table : s.table.Valid
  records : ∀ recordNumber, s.table.visible recordNumber = s.records recordNumber
  untouched : s.table.Untouched

theorem ModifiedTable.valid_ofTable {table : Table} (htable : table.Represents contents) :
    (ModifiedTable.ofTable table).Valid := by
  have hfresh : ∀ n, n ∉ contents.records.map PackedRecord.number →
      (ModifiedTable.ofTable table).Fresh n := by
    intro n hunused
    refine ⟨?_, Std.ExtTreeMap.getElem?_empty⟩
    show (table.getRecordSection n).toOption = none
    cases hget : table.getRecordSection n with
    | error error => rfl
    | ok record =>
      obtain ⟨hmem, rfl⟩ := htable.getRecordSection_eq_ok_iff.mp hget
      exact absurd (List.mem_map_of_mem hmem) hunused
  constructor
  · intro other hother
    cases hother
    exact ⟨contents, htable, Nat.le_of_eq htable.header.2.2.symm⟩
  · intro n record hinserted
    rw [ofTable, Std.ExtTreeMap.getElem?_empty] at hinserted
    cases hinserted
  · intro n hn
    exact absurd hn Std.ExtTreeMap.not_mem_empty
  · refine ⟨contents.free, ?_⟩
    constructor
    · exact (List.nodup_append.mp htable.valid.nodup).2.1
    · intro n hn
      apply hfresh
      intro hused
      exact (List.nodup_append.mp htable.valid.nodup).2.2 _ hused _ hn rfl
    · intro hnone
      cases hnone
    · intro other hother
      cases hother
      exact htable.header.2.1
    · intro other otherContents hother hrepresents n hn
      cases hother
      rw [← hrepresents.header.2.2, htable.header.2.2]
      exact htable.valid.free_lt hn
  · intro n hle
    apply hfresh
    intro hused
    obtain ⟨record, hmem, rfl⟩ := List.mem_map.mp hused
    have hlt := htable.valid.number_lt hmem
    rw [← htable.header.2.2] at hlt
    exact absurd (UInt32.le_iff_toNat_le.mp hle) (Nat.not_le_of_lt hlt)

theorem ModifiedTable.valid_ofIndexes (indexes : List DbIndex) :
    (ModifiedTable.ofIndexes indexes).Valid := by
  have hfresh : ∀ n, (ModifiedTable.ofIndexes indexes).Fresh n :=
    fun n => ⟨rfl, Std.ExtTreeMap.getElem?_empty⟩
  constructor
  · intro table hnone
    cases hnone
  · intro n record hinserted
    rw [ofIndexes, Std.ExtTreeMap.getElem?_empty] at hinserted
    cases hinserted
  · intro n hn
    exact absurd hn Std.ExtTreeMap.not_mem_empty
  · refine ⟨[], List.nodup_nil, fun n _ => hfresh n, fun _ => ⟨rfl, rfl⟩, ?_, ?_⟩
    · intro table hnone
      cases hnone
    · intro table _ hnone
      cases hnone
  · exact fun n _ => hfresh n

theorem RecordedTable.Starts.valid {s : RecordedTable} (hstart : s.Starts) : s.Valid := by
  cases hstart with
  | ofTable htable =>
    refine ⟨ModifiedTable.valid_ofTable htable, ?_, ?_⟩
    · intro n
      simp [ModifiedTable.visible, ModifiedTable.ofTable, ModifiedTable.base]
    · intro _ n
      simp [ModifiedTable.visible, ModifiedTable.ofTable]
  | ofIndexes indexes =>
    refine ⟨ModifiedTable.valid_ofIndexes indexes, ?_, ?_⟩
    · intro n
      simp [ModifiedTable.visible, ModifiedTable.ofIndexes, ModifiedTable.base]
    · intro hmodified
      cases hmodified

namespace RecordedTable.Valid
variable {Attributes Changes : Type*} {metaRecord : MetaRecord Attributes Changes}
  {s s' : RecordedTable}

theorem changed (hs : s.Valid) {m : ModifiedTable} {recordNumber : UInt32}
    {record : Option PackedRecord} (hchanged : ModifiedTable.Changed s.table m recordNumber record) :
    RecordedTable.Valid ⟨Function.update s.records recordNumber record, m⟩ where
  table := hchanged.valid
  records := by
    intro n
    rw [hchanged.visible, hs.records]
    exact (Function.update_apply s.records recordNumber record n).symm
  untouched := by
    intro hmodified
    rw [hchanged.isModified] at hmodified
    cases hmodified

theorem step (hs : s.Valid) {call : TableCall Attributes Changes} (hnumber : HasNumber s call)
    (hstep : callStep metaRecord s call = some s') : s'.Valid := by
  rw [callStep] at hstep
  cases call with
  | insertRecord versionId attributes =>
    have hspec := ModifiedTable.insertRecord_spec metaRecord hs.table hnumber
      versionId attributes
    rw [TableCall.run] at hstep
    generalize s.table.insertRecord metaRecord versionId attributes = outcome at hspec hstep
    obtain ⟨result, m⟩ := outcome
    cases result with
    | error error => cases hstep
    | ok recordId =>
      obtain ⟨body, hbody, -, -, -, hchanged⟩ := hspec
      cases hstep
      have hvalid := hs.changed hchanged
      rw [TableCall.latest, hbody]
      exact hvalid
  | updateRecord recordId changes =>
    have hspec := ModifiedTable.updateRecord_spec metaRecord hs.table recordId
      changes
    rw [TableCall.run] at hstep
    generalize s.table.updateRecord metaRecord recordId changes = outcome at hspec hstep
    obtain ⟨result, m⟩ := outcome
    cases result with
    | error error => cases hstep
    | ok newRecordId =>
      obtain ⟨oldRecord, body, hvisible, -, hbody, rfl, hchanged⟩ := hspec
      cases hstep
      have hvalid := hs.changed hchanged
      rw [hs.records] at hvisible
      simp only [TableCall.latest, hvisible, Option.bind_some, hbody]
      exact hvalid
  | deleteRecord recordId =>
    have hspec := ModifiedTable.deleteRecord_spec hs.table recordId
    rw [TableCall.run] at hstep
    generalize s.table.deleteRecord recordId = outcome at hspec hstep
    obtain ⟨result, m⟩ := outcome
    cases result with
    | error error => cases hstep
    | ok =>
      cases hstep
      exact hs.changed hspec

theorem of_run {start : RecordedTable} {calls : List (TableCall Attributes Changes)}
    (hstart : start.Starts) (hrun : Run (callStep metaRecord) HasNumber start calls s) : s.Valid :=
  Run.invariant RecordedTable.Valid (fun _ _ _ hs hnumber hstep => hs.step hnumber hstep) hrun
    hstart.valid

theorem commitsExactly (hs : s.Valid) {writeIndexes : ModifiedTable.IndexWriter} {start : Nat}
    (hfits : s.table.Fits writeIndexes start) (tableId : UInt32) (file : FileImage) :
    s.CommitsExactly writeIndexes tableId file start := by
  obtain ⟨file', sectionEnd, contents, hwrite, hwritten⟩ :=
    ModifiedTable.writeTable_spec hs.table hs.untouched tableId file hfits
  refine ⟨file', sectionEnd, hwrite, ?_⟩
  intro rest indexes
  obtain ⟨table, hsection, htable⟩ :=
    (hwritten.represents.append hwritten.valid rest).exists_ofSection hwritten.valid indexes
  refine ⟨table, hsection, htable.hasExactly ?_ ?_⟩
  · intro record
    rw [hwritten.mem_iff, hs.records]
  · intro n record hrecord
    rw [← hs.records] at hrecord
    exact ModifiedTable.visible_number hs.table hrecord

theorem records_of_insertRecord (hs : s.Valid) (hnext : s.table.HasNextNumber)
    {versionId : UInt32} {attributes : Attributes} {recordId : RecordId} {m : ModifiedTable}
    (hinsert : s.table.insertRecord metaRecord versionId attributes = (.ok recordId, m)) :
    s.records recordId.recordNumber = none := by
  have hspec := ModifiedTable.insertRecord_spec metaRecord hs.table hnext versionId
    attributes
  rw [hinsert] at hspec
  obtain ⟨-, -, -, havailable, -, -⟩ := hspec
  rw [← hs.records]
  exact (hs.table.fresh_of_available havailable).visible
end RecordedTable.Valid

/-- After any calls on a table, a new record gets a number that no record has, and what fits is
written exactly. -/
theorem commitsExactly_of_run {Attributes Changes : Type*}
    {metaRecord : MetaRecord Attributes Changes} {start s : RecordedTable}
    {calls : List (TableCall Attributes Changes)} (hstart : start.Starts)
    (hrun : Run (callStep metaRecord) HasNumber start calls s) :
    (∀ versionId attributes recordId m, s.table.HasNextNumber →
      s.table.insertRecord metaRecord versionId attributes = (.ok recordId, m) →
        s.records recordId.recordNumber = none) ∧
      ∀ writeIndexes tableId file offset, s.table.Fits writeIndexes offset →
        s.CommitsExactly writeIndexes tableId file offset := by
  have hs := RecordedTable.Valid.of_run hstart hrun
  constructor
  · intro versionId attributes recordId m hnext hinsert
    exact hs.records_of_insertRecord hnext hinsert
  · intro writeIndexes tableId file offset hfits
    exact hs.commitsExactly hfits tableId file

def zeroRecords : MetaRecord Nat Unit where
  format _ := .string
  values _ _ := []
  format_eq := fun _ _ _ hvalue => by cases hvalue
  packRecord words :=
    if hlt : 16 + 4 * words < 2 ^ 32 then
      .ok ⟨List.replicate (4 * words) 0, by simp, by simpa using hlt⟩
    else .error .databaseCorrupt
  updateRecord _ _ := .error .databaseCorrupt

def writeNoIndexes : ModifiedTable.IndexWriter := fun _ _ _ => .ok []

/-- A record is inserted into a new table, deleted, and another one gets the next number. -/
theorem commitsExactly_of_run_sample : ∃ s : RecordedTable,
    s.records 1 = some ⟨⟨1, 5, 0⟩, [0, 0, 0, 0]⟩ ∧
      s.CommitsExactly writeNoIndexes 0 (fun _ => 0) 24 := by
  have hrun : ∃ s, Run (callStep zeroRecords) HasNumber ⟨fun _ => none, .ofIndexes []⟩
      [.insertRecord 5 2, .insertRecord 5 1, .deleteRecord ⟨0, 5, 0⟩] s ∧
      s.records 1 = some ⟨⟨1, 5, 0⟩, [0, 0, 0, 0]⟩ ∧ s.table.Fits writeNoIndexes 24 := by
    apply Exists.intro
    apply And.intro
    · apply Run.cons (fun _ => by decide) rfl
      apply Run.cons (fun _ => by decide) rfl
      apply Run.cons trivial rfl
      exact .nil _
    · exact ⟨rfl, [], rfl, by decide⟩
  obtain ⟨s, hrun, hrecord, hfits⟩ := hrun
  exact ⟨s, hrecord, (commitsExactly_of_run (.ofIndexes []) hrun).2 _ _ _ _ hfits⟩

/-- The offset of the third record wraps around to 0. -/
theorem exists_wrapped_offset {m : ModifiedTable} {record₀ record₁ record₂ : PackedRecord}
    (htable : m.table = none) (hmaxRecordNumber : m.maxRecordNumber = 2)
    (hinserted : m.insertedMap.toList = [(0, record₀), (1, record₁), (2, record₂)])
    (hsize₀ : record₀.size = 2147483628) (hsize₁ : record₁.size = 2147483628)
    (hsize₂ : record₂.size = 100) (tableId : UInt32) (file : FileImage) :
    ∃ file' header atoms, m.writeModifiedTable writeNoIndexes tableId file 24 = .ok (file', 124) ∧
      header.length = 40 ∧ file'.Holds 24 header ∧ IsAtoms header 10 atoms ∧ atoms 6 = 3 ∧
      atoms 9 = 0 := by
  obtain ⟨section₁, section₂, section₃, atoms, hput₁, hput₂, hput₃, hatoms, -, hatoms₆, hzero⟩ :=
    ModifiedTable.exists_initialSection tableId (show 4 * slot 3 < 2 ^ 32 by decide)
  obtain ⟨section₄, hput₄, hatoms₄⟩ := hatoms.put_eq_ok 7 40
    (by decide) (by decide) (by decide)
  obtain ⟨section₅, hput₅, hatoms₅⟩ := hatoms₄.put_eq_ok 8 2147483668
    (by decide) (by decide) (by decide)
  obtain ⟨section₆, hput₆, hatoms₆'⟩ := hatoms₅.put_eq_ok 9 0
    (by decide) (by decide) (by decide)
  obtain ⟨section₇, head, atoms', hbuild, hhead, hatoms', hsame, hlinked⟩ :=
    buildFreeList_spec 3 0 hatoms₆' (by decide) rfl (show 0 < 2 ^ 32 by decide)
  have hunused : unused (Function.update (Function.update (Function.update atoms 7 40) 8 2147483668)
      9 0) 0 3 = [2] := by
    simp [unused, List.range', slot, Function.update]
  rw [hunused] at hlinked
  have hatom₉ : atoms' 9 = 0 := hlinked.2
  have hatom₆ : atoms' 6 = 3 := by
    rw [hsame 6 (Or.inl (by decide)), Function.update_of_ne (by decide),
      Function.update_of_ne (by decide), Function.update_of_ne (by decide), hatoms₆]
  obtain ⟨file', header, atoms'', hfinish, hlength, hheader, hholds, -, -, -, -, hothers⟩ :=
    ModifiedTable.finishTable_spec
      ⟨section₇, ((file.write 64 record₀.octets).write 2147483692 record₁.octets).write 24
        record₂.octets, 124, 3⟩ m.indexMap hatoms'
      (show FileImage.Holds _ (24 + 4 * slot 3) [] from FileImage.holds_nil) (by decide)
      (show 124 = 24 + 100 from rfl) (show 3 < 2 ^ 32 by decide) hhead
      (show writeNoIndexes m.indexMap (4 * slot 3) 100 = .ok [] from rfl) (by decide)
  refine ⟨file', header, atoms'', ?_, hlength, hholds, hheader, ?_, ?_⟩
  · have hcount : m.newRecordNumberCount.toNat = 3 := by
      rw [ModifiedTable.newRecordNumberCount, hmaxRecordNumber]
      rfl
    have hcopy : ∀ writer, m.copyOldTable 40 writer = .ok writer := by
      intro writer
      rw [ModifiedTable.copyOldTable, htable]
    have hoffset : wrap32 (Table.offsetRecordNumbers + 4 * 3) = 40 := by decide
    have hstart : wrap32 (24 + 40) = 64 := by decide
    have hslot₀ : Table.slotOffset 0 = 28 := by decide
    have hslot₁ : Table.slotOffset 1 = 32 := by decide
    have hslot₂ : Table.slotOffset 2 = 36 := by decide
    have hwriter : TableWriter.writeInserted 24 m.insertedMap.toList ⟨section₃, file, 64, 0⟩ =
        .ok ⟨section₆, ((file.write 64 record₀.octets).write 2147483692 record₁.octets).write 24
          record₂.octets, 124, 3⟩ := by
      rw [hinserted]
      simp only [TableWriter.writeInserted, bind, Except.bind, hslot₀, hslot₁, hslot₂, hsize₀,
        hsize₁, hsize₂, wrap32, Nat.reduceAdd, Nat.reducePow, Nat.reduceSub, Nat.reduceMod,
        Nat.reduceMul] at hput₄ hput₅ hput₆ ⊢
      simp only [hput₄, hput₅, hput₆]
    rw [ModifiedTable.writeModifiedTable, hcount, hoffset, hstart]
    have hput₁ : WriteSection.put (List.replicate 40 0) 4 tableId.toNat = .ok section₁ := hput₁
    have hput₂ : WriteSection.put section₁ 12 40 = .ok section₂ := hput₂
    have hbuild : buildFreeList 3 0 section₆ 0 = .ok (section₇, head) := hbuild
    simp only [bind, Except.bind, hput₁, hput₂, hput₃, hcopy, hwriter, hbuild]
    exact hfinish
  · rw [hothers 6 (by decide), hatom₆]
  · rw [hothers 9 (by decide), hatom₉]

/-- Two records that take almost 2^31 octets each, and a third one. -/
def overflowCalls : List (TableCall Nat Unit) :=
  [.insertRecord 1 536870903, .insertRecord 1 536870903, .insertRecord 1 21]

def zeroRecord (recordNumber : UInt32) (words : Nat) : PackedRecord :=
  ⟨⟨recordNumber, 1, 0⟩, List.replicate (4 * words) 0⟩

theorem toList_insertIfNew (record₀ record₁ record₂ : PackedRecord) :
    ((((∅ : Std.ExtTreeMap UInt32 PackedRecord).insertIfNew 0 record₀).insertIfNew 1
      record₁).insertIfNew 2 record₂).toList = [(0, record₀), (1, record₁), (2, record₂)] :=
  rfl

/-- The third record is taken for a free number. -/
theorem not_commitsExactly_of_overflow : ∃ s : RecordedTable,
    Run (callStep zeroRecords) HasNumber ⟨fun _ => none, .ofIndexes []⟩ overflowCalls s ∧
      ¬s.CommitsExactly writeNoIndexes 0 (fun _ => 0) 24 := by
  have hrun : ∃ s, Run (callStep zeroRecords) HasNumber ⟨fun _ => none, .ofIndexes []⟩
      overflowCalls s ∧ s.records 2 = some (zeroRecord 2 21) ∧
      s.table.table = none ∧ s.table.isModified = true ∧ s.table.deletedSet = ∅ ∧
      s.table.insertedMap = (((∅ : Std.ExtTreeMap UInt32 PackedRecord).insertIfNew 0
        (zeroRecord 0 536870903)).insertIfNew 1 (zeroRecord 1 536870903)).insertIfNew 2
        (zeroRecord 2 21) := by
    apply Exists.intro
    apply And.intro
    · apply Run.cons (fun _ => by decide) rfl
      apply Run.cons (fun _ => by decide) rfl
      apply Run.cons (fun _ => by decide) rfl
      exact .nil _
    · exact ⟨rfl, rfl, rfl, rfl, rfl⟩
  obtain ⟨s, hrun, hrecord, htable, hmodified, hdeleted, hinserted⟩ := hrun
  refine ⟨s, hrun, ?_⟩
  intro hcommits
  obtain ⟨file', sectionEnd, hwrite, hopens⟩ := hcommits
  have htoList := toList_insertIfNew (zeroRecord 0 536870903) (zeroRecord 1 536870903)
    (zeroRecord 2 21)
  rw [← hinserted] at htoList
  have hmaxRecordNumber : s.table.maxRecordNumber = 2 := by
    rw [ModifiedTable.maxRecordNumber, ModifiedTable.insertedMax, htable, hdeleted, htoList]
    rfl
  have hsize : ∀ n words, (zeroRecord n words).size = 16 + 4 * words := by
    intro n words
    rw [zeroRecord, PackedRecord.size, List.length_replicate]
  obtain ⟨file'', header, atoms, hwritten, hlength, hholds, hheader, hatom₆, hatom₉⟩ :=
    exists_wrapped_offset htable hmaxRecordNumber htoList (hsize _ _) (hsize _ _) (hsize _ _) 0
      (fun _ => 0)
  rw [ModifiedTable.writeTable, htable] at hwrite
  simp only [hwritten] at hwrite
  cases hwrite
  obtain ⟨table, hsection, hexact⟩ := hopens [] []
  have hload : load (file'.read 24 100) 0 40 = some header := by
    rw [← hlength]
    exact FileImage.load_read_zero hholds (by rw [hlength]; decide)
  have hatom : ∀ i < 10, ReadSection.at (file'.read 24 100 ++ []) (4 * i) = .ok (atoms i) := by
    intro i hi
    rw [List.append_nil]
    apply ReadSection.at_eq_ok (by omega)
    rw [← hheader.loadBE_eq i hi, loadBE_of_load hload (by omega), Nat.zero_add]
  rw [Table.ofSection, hatom 2 (by decide), hatom 5 (by decide), hatom 6 (by decide),
    hatom₆] at hsection
  cases hsection
  have hget := hexact.getRecordSection 2
  rw [hrecord] at hget
  have hslot := hatom 9 (by decide)
  rw [hatom₉] at hslot
  rw [Table.getRecordSection, if_neg (show ¬UInt32.ofNat 3 ≤ 2 by decide)] at hget
  simp only [show Table.slotOffset 2 = 4 * 9 by decide, hslot, bind, Except.bind] at hget
  cases hget
end SecurityFramework.Filedb
