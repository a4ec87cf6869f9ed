import SecurityFramework.Filedb.TableCommit

/-! # Identifiers of records that are gone -/

namespace SecurityFramework.Filedb
open Memory

/-- A table over transactions, with the identifiers that have been deleted and the numbers that
have been used. What there was when the transaction began comes back when it is rolled back. -/
structure TableHistory where
  versionId : UInt32
  table : ModifiedTable
  deleted : Set (UInt32 × UInt32)
  used : Set UInt32
  begun : ModifiedTable × Set (UInt32 × UInt32) × Set UInt32

namespace TableHistory
def initial (versionId : UInt32) (indexes : List DbIndex) : TableHistory :=
  ⟨versionId, .ofIndexes indexes, ∅, ∅, .ofIndexes indexes, ∅, ∅⟩

def begin (s : TableHistory) (versionId : UInt32) (table : Table) : TableHistory :=
  ⟨versionId, .ofTable table, s.deleted, s.used, .ofTable table, s.deleted, s.used⟩

def rollback (s : TableHistory) : TableHistory :=
  { s with table := s.begun.1, deleted := s.begun.2.1, used := s.begun.2.2 }

def nextVersionId (s : TableHistory) : UInt32 :=
  if s.versionId + 1 = 0 then 1 else s.versionId + 1
end TableHistory

structure CommitTarget where
  writeIndexes : ModifiedTable.IndexWriter
  tableId : UInt32
  file : FileImage
  start : Nat
  rest : List UInt8
  indexes : List DbConstIndex

inductive HistoryCall (Attributes Changes : Type*) where
  | insertRecord (attributes : Attributes)
  | updateRecord (recordId : RecordId) (changes : Changes)
  | deleteRecord (recordId : RecordId)
  | commit (target : CommitTarget)
  | rollback

section
variable {Attributes Changes : Type*} (metaRecord : MetaRecord Attributes Changes)

namespace TableHistory
def insertRecord (s : TableHistory) (attributes : Attributes) : TableHistory :=
  match s.table.insertRecord metaRecord s.versionId attributes with
  | (.ok recordId, m) => { s with table := m, used := s.used ∪ {recordId.recordNumber} }
  | (.error _, m) => { s with table := m }

def updateRecord (s : TableHistory) (recordId : RecordId) (changes : Changes) : TableHistory :=
  { s with table := (s.table.updateRecord metaRecord recordId changes).2 }

def identifiers (s : TableHistory) (recordNumber : UInt32) : Set (UInt32 × UInt32) :=
  {id | ∃ record, s.table.visible recordNumber = some record ∧
    id = (recordNumber, record.recordId.createVersion)}

def deleteRecord (s : TableHistory) (recordId : RecordId) : TableHistory :=
  match s.table.deleteRecord recordId with
  | (.ok (), m) =>
    { s with table := m, deleted := s.deleted ∪ s.identifiers recordId.recordNumber }
  | (.error _, m) => { s with table := m }

/-- A commit that throws is rolled back. -/
def commit (s : TableHistory) (target : CommitTarget) : Option TableHistory :=
  match s.table.writeTable target.writeIndexes target.tableId target.file target.start with
  | .error _ => some s.rollback
  | .ok (file, sectionEnd) =>
    match Table.ofSection (file.read target.start (sectionEnd - target.start) ++ target.rest)
      target.indexes with
    | .error _ => none
    | .ok table => some (s.begin s.nextVersionId table)
end TableHistory

def historyStep (s : TableHistory) : HistoryCall Attributes Changes → Option TableHistory
  | .insertRecord attributes => some (s.insertRecord metaRecord attributes)
  | .updateRecord recordId changes => some (s.updateRecord metaRecord recordId changes)
  | .deleteRecord recordId => some (s.deleteRecord recordId)
  | .commit target => s.commit target
  | .rollback => some s.rollback

/-- Record numbers, offsets and versions do not wrap around. -/
def NoWrap (s : TableHistory) : HistoryCall Attributes Changes → Prop
  | .insertRecord _ => s.table.HasNextNumber
  | .commit target => s.table.Fits target.writeIndexes target.start ∧ s.versionId + 1 ≠ 0
  | _ => True
end

/-- The identifier is that of a deleted record, or its number has never been used. -/
def TableHistory.Stale (s : TableHistory) (recordId : RecordId) : Prop :=
  (recordId.recordNumber, recordId.createVersion) ∈ s.deleted ∨ recordId.recordNumber ∉ s.used

def ModifiedTable.ThrowsOnly {α : Type*} (m : ModifiedTable) (outcome : Outcome α) : Prop :=
  (∃ error, outcome.1 = .error error) ∧
    ∀ recordNumber, outcome.2.visible recordNumber = m.visible recordNumber

structure ModifiedTable.Harmless {Attributes Changes : Type*}
    (metaRecord : MetaRecord Attributes Changes) (m : ModifiedTable) (recordId : RecordId) :
    Prop where
  getRecord : ∃ error, m.getRecord recordId = .error error
  updateRecord : ∀ changes, m.ThrowsOnly (m.updateRecord metaRecord recordId changes)
  deleteRecord : m.ThrowsOnly (m.deleteRecord recordId)

namespace TableHistory
structure Identified (m : ModifiedTable) (versionId : UInt32) (deleted : Set (UInt32 × UInt32))
    (used : Set UInt32) : Prop where
  valid : m.Valid
  untouched : m.Untouched
  visible : ∀ n record, m.visible n = some record →
    n ∈ used ∧ record.recordId.createVersion ≤ versionId ∧
      (n, record.recordId.createVersion) ∉ deleted
  deleted_le : ∀ id ∈ deleted, id.2 ≤ versionId
  available : ∀ n version, m.Available n → (n, version) ∈ deleted → version < versionId

structure Valid (s : TableHistory) : Prop where
  now : Identified s.table s.versionId s.deleted s.used
  begun : Identified s.begun.1 s.versionId s.begun.2.1 s.begun.2.2

namespace Identified
variable {m m' : ModifiedTable} {versionId : UInt32} {deleted : Set (UInt32 × UInt32)}
  {used : Set UInt32}

theorem of_unchanged (hm : Identified m versionId deleted used)
    (hunchanged : ModifiedTable.Unchanged m m') : Identified m' versionId deleted used where
  valid := hunchanged.valid
  untouched := by
    intro hmodified
    rw [hunchanged.isModified] at hmodified
    cases hmodified
  visible := by
    intro n record hvisible
    rw [hunchanged.visible] at hvisible
    exact hm.visible n record hvisible
  deleted_le := hm.deleted_le
  available := fun n version havailable => hm.available n version (hunchanged.of_available n havailable)

theorem inserted (hm : Identified m versionId deleted used) {record : PackedRecord} {n : UInt32}
    (hversion : record.recordId.createVersion = versionId) (havailable : m.Available n)
    (hchanged : ModifiedTable.Changed m m' n (some record)) :
    Identified m' versionId deleted (used ∪ {n}) where
  valid := hchanged.valid
  untouched := by
    intro hmodified
    rw [hchanged.isModified] at hmodified
    cases hmodified
  visible := by
    intro k other hvisible
    rw [hchanged.visible] at hvisible
    split at hvisible
    case isTrue heq =>
      cases hvisible
      refine ⟨Or.inr heq, UInt32.le_of_eq hversion, ?_⟩
      intro hdeleted
      rw [heq, hversion] at hdeleted
      exact UInt32.lt_irrefl _ (hm.available n versionId havailable hdeleted)
    case isFalse =>
      obtain ⟨hused, hle, hnot⟩ := hm.visible k other hvisible
      exact ⟨Or.inl hused, hle, hnot⟩
  deleted_le := hm.deleted_le
  available := fun k version hk => hm.available k version (hchanged.of_available k hk)

theorem updated (hm : Identified m versionId deleted used) {record record' : PackedRecord}
    {n : UInt32} (hvisible : m.visible n = some record)
    (hversion : record'.recordId.createVersion = record.recordId.createVersion)
    (hchanged : ModifiedTable.Changed m m' n (some record')) :
    Identified m' versionId deleted used where
  valid := hchanged.valid
  untouched := by
    intro hmodified
    rw [hchanged.isModified] at hmodified
    cases hmodified
  visible := by
    intro k other hother
    rw [hchanged.visible] at hother
    split at hother
    case isTrue heq =>
      cases hother
      rw [heq, hversion]
      exact hm.visible n record hvisible
    case isFalse => exact hm.visible k other hother
  deleted_le := hm.deleted_le
  available := fun k version hk => hm.available k version (hchanged.of_available k hk)

theorem removed (hm : Identified m versionId deleted used) {n : UInt32}
    (hchanged : ModifiedTable.Changed m m' n none) :
    Identified m' versionId
      (deleted ∪ {id | ∃ record, m.visible n = some record ∧
        id = (n, record.recordId.createVersion)}) used where
  valid := hchanged.valid
  untouched := by
    intro hmodified
    rw [hchanged.isModified] at hmodified
    cases hmodified
  visible := by
    intro k other hother
    rw [hchanged.visible] at hother
    split at hother
    case isTrue => cases hother
    case isFalse hne =>
      obtain ⟨hused, hle, hnot⟩ := hm.visible k other hother
      refine ⟨hused, hle, ?_⟩
      intro hmem
      cases hmem with
      | inl hdeleted => exact hnot hdeleted
      | inr hremoved =>
        obtain ⟨record, -, heq⟩ := hremoved
        exact hne (congrArg Prod.fst heq)
  deleted_le := by
    intro id hid
    cases hid with
    | inl hdeleted => exact hm.deleted_le id hdeleted
    | inr hremoved =>
      obtain ⟨record, hvisible, rfl⟩ := hremoved
      exact (hm.visible n record hvisible).2.1
  available := by
    intro k version hk hid
    have hk := hchanged.of_available k hk
    cases hid with
    | inl hdeleted => exact hm.available k version hk hdeleted
    | inr hremoved =>
      obtain ⟨record, hvisible, heq⟩ := hremoved
      cases heq
      exact absurd hk (hm.valid.not_available_of_visible hvisible)

theorem committed (hm : Identified m versionId deleted used) (hwrap : versionId + 1 ≠ 0)
    {table : Table} (htable : table.HasExactly m.visible) :
    Identified (.ofTable table) (versionId + 1) deleted used := by
  obtain ⟨contents, hcontents⟩ := htable.wellFormed
  have hlt : versionId < versionId + 1 := by
    have hne : (versionId + 1).toNat ≠ 0 := fun h => hwrap (UInt32.toNat_inj.mp h)
    have hsum := UInt32.toNat_add versionId 1
    have hbound := versionId.toNat_lt
    rw [UInt32.toNat_one] at hsum
    rw [UInt32.lt_iff_toNat_lt]
    omega
  have hbase : ∀ n, (ModifiedTable.ofTable table).visible n = m.visible n := by
    intro n
    have hget := htable.getRecordSection n
    have hvisible : (ModifiedTable.ofTable table).visible n =
        (table.getRecordSection n).toOption := by
      simp [ModifiedTable.visible, ModifiedTable.ofTable, ModifiedTable.base]
    rw [hvisible]
    cases hn : m.visible n with
    | some record =>
      rw [hn] at hget
      rw [hget]
      rfl
    | none =>
      rw [hn] at hget
      obtain ⟨error, herror⟩ := hget
      rw [herror]
      rfl
  exact
    { valid := ModifiedTable.valid_ofTable hcontents
      untouched := (RecordedTable.Starts.ofTable hcontents).valid.untouched
      visible := by
        intro n record hvisible
        rw [hbase] at hvisible
        obtain ⟨hused, hle, hnot⟩ := hm.visible n record hvisible
        exact ⟨hused, UInt32.le_of_lt (UInt32.lt_of_le_of_lt hle hlt), hnot⟩
      deleted_le := fun id hid =>
        UInt32.le_of_lt (UInt32.lt_of_le_of_lt (hm.deleted_le id hid) hlt)
      available := fun n version _ hid => UInt32.lt_of_le_of_lt (hm.deleted_le _ hid) hlt }
end Identified

namespace Valid
variable {s s' : TableHistory} {Attributes Changes : Type*}
  {metaRecord : MetaRecord Attributes Changes}

theorem initial (versionId : UInt32) (indexes : List DbIndex) :
    (initial versionId indexes).Valid := by
  have hstart := (RecordedTable.Starts.ofIndexes indexes).valid
  have hidentified : Identified (.ofIndexes indexes) versionId ∅ ∅ :=
    { valid := hstart.table
      untouched := hstart.untouched
      visible := by
        intro n record hvisible
        rw [hstart.records] at hvisible
        cases hvisible
      deleted_le := fun _ hid => hid.elim
      available := fun _ _ _ hid => hid.elim }
  exact ⟨hidentified, hidentified⟩

theorem insertRecord (hs : s.Valid) (hnext : s.table.HasNextNumber) (attributes : Attributes) :
    (s.insertRecord metaRecord attributes).Valid := by
  have hspec := ModifiedTable.insertRecord_spec metaRecord hs.now.valid hnext
    s.versionId attributes
  rw [TableHistory.insertRecord]
  generalize s.table.insertRecord metaRecord s.versionId attributes = outcome at hspec ⊢
  obtain ⟨result, m⟩ := outcome
  cases result with
  | error error => exact ⟨hs.now.of_unchanged hspec, hs.begun⟩
  | ok recordId =>
    obtain ⟨body, -, hrecordId, havailable, -, hchanged⟩ := hspec
    have hversion : recordId.createVersion = s.versionId := by rw [hrecordId]
    exact ⟨hs.now.inserted hversion havailable hchanged, hs.begun⟩

theorem updateRecord (hs : s.Valid) (recordId : RecordId) (changes : Changes) :
    (s.updateRecord metaRecord recordId changes).Valid := by
  have hspec := ModifiedTable.updateRecord_spec metaRecord hs.now.valid recordId
    changes
  rw [TableHistory.updateRecord]
  generalize s.table.updateRecord metaRecord recordId changes = outcome at hspec ⊢
  obtain ⟨result, m⟩ := outcome
  cases result with
  | error error => exact ⟨hs.now.of_unchanged hspec, hs.begun⟩
  | ok newRecordId =>
    obtain ⟨oldRecord, body, hvisible, hversion, -, rfl, hchanged⟩ := hspec
    exact ⟨hs.now.updated hvisible hversion.symm hchanged, hs.begun⟩

theorem deleteRecord (hs : s.Valid) (recordId : RecordId) : (s.deleteRecord recordId).Valid := by
  have hspec := ModifiedTable.deleteRecord_spec hs.now.valid recordId
  rw [TableHistory.deleteRecord]
  generalize s.table.deleteRecord recordId = outcome at hspec ⊢
  obtain ⟨result, m⟩ := outcome
  cases result with
  | error error => exact ⟨hs.now.of_unchanged hspec, hs.begun⟩
  | ok => exact ⟨hs.now.removed hspec, hs.begun⟩

theorem rollback (hs : s.Valid) : s.rollback.Valid := ⟨hs.begun, hs.begun⟩

theorem commit (hs : s.Valid) {target : CommitTarget}
    (hfits : s.table.Fits target.writeIndexes target.start) (hwrap : s.versionId + 1 ≠ 0)
    (hcommit : s.commit target = some s') : s'.Valid := by
  have hrecorded : RecordedTable.Valid ⟨s.table.visible, s.table⟩ :=
    ⟨hs.now.valid, fun _ => rfl, hs.now.untouched⟩
  obtain ⟨file', sectionEnd, hwrite, hopens⟩ :=
    hrecorded.commitsExactly hfits target.tableId target.file
  obtain ⟨table, hsection, hexactly⟩ := hopens target.rest target.indexes
  simp only [TableHistory.commit, hwrite, hsection, Option.some.injEq] at hcommit
  have hidentified := hs.now.committed hwrap hexactly
  rw [← hcommit, begin, nextVersionId, if_neg hwrap]
  exact ⟨hidentified, hidentified⟩

theorem step (hs : s.Valid) {call : HistoryCall Attributes Changes} (hnoWrap : NoWrap s call)
    (hstep : historyStep metaRecord s call = some s') : s'.Valid := by
  cases call with
  | insertRecord attributes =>
    cases hstep
    exact hs.insertRecord hnoWrap attributes
  | updateRecord recordId changes =>
    cases hstep
    exact hs.updateRecord recordId changes
  | deleteRecord recordId =>
    cases hstep
    exact hs.deleteRecord recordId
  | commit target => exact hs.commit hnoWrap.1 hnoWrap.2 hstep
  | rollback =>
    cases hstep
    exact hs.rollback

theorem of_run {versionId : UInt32} {indexes : List DbIndex}
    {calls : List (HistoryCall Attributes Changes)}
    (hrun : Run (historyStep metaRecord) NoWrap (.initial versionId indexes) calls s) : s.Valid :=
  Run.invariant TableHistory.Valid (fun _ _ _ hs hnoWrap hstep => hs.step hnoWrap hstep) hrun
    (TableHistory.Valid.initial versionId indexes)

theorem createVersion_ne (hs : s.Valid) {recordId : RecordId} (hstale : s.Stale recordId)
    {record : PackedRecord} (hvisible : s.table.visible recordId.recordNumber = some record) :
    record.recordId.createVersion ≠ recordId.createVersion := by
  intro heq
  obtain ⟨hused, -, hnot⟩ := hs.now.visible _ record hvisible
  cases hstale with
  | inl hdeleted =>
    rw [heq] at hnot
    exact hnot hdeleted
  | inr hunused => exact hunused hused
end Valid
end TableHistory

namespace ModifiedTable
variable {m : ModifiedTable}

theorem eq_of_checks {recordId : RecordId} {found record : PackedRecord}
    (hok : (if found.recordId.recordNumber ≠ recordId.recordNumber then
        Except.error CssmError.databaseCorrupt
      else if found.recordId.createVersion ≠ recordId.createVersion then .error .invalidRecordUid
      else .ok found) = .ok record) :
    found = record ∧ record.recordId.createVersion = recordId.createVersion := by
  split at hok
  case isTrue => cases hok
  case isFalse =>
    split at hok
    case isTrue => cases hok
    case isFalse heq =>
      cases hok
      exact ⟨rfl, not_not.mp heq⟩

theorem base_of_fromTable {recordId : RecordId} {record : PackedRecord}
    (hok : (match m.table with
      | none => Except.error CssmError.recordNotFound
      | some table => table.getRecord recordId) = .ok record) :
    m.base recordId.recordNumber = some record ∧
      record.recordId.createVersion = recordId.createVersion := by
  cases htable : m.table with
  | none =>
    rw [htable] at hok
    cases hok
  | some table =>
    rw [htable] at hok
    simp only [Table.getRecord, bind, Except.bind] at hok
    split at hok
    case h_1 => cases hok
    case h_2 found hfound =>
      obtain ⟨rfl, hversion⟩ := eq_of_checks hok
      refine ⟨?_, hversion⟩
      simp only [base, htable, Option.bind_some, hfound]
      rfl

theorem visible_of_getRecord (huntouched : m.Untouched) {recordId : RecordId}
    {record : PackedRecord} (hget : m.getRecord recordId = .ok record) :
    m.visible recordId.recordNumber = some record ∧
      record.recordId.createVersion = recordId.createVersion := by
  rw [getRecord] at hget
  split at hget
  case isTrue =>
    rw [visible]
    cases hinserted : m.insertedMap[recordId.recordNumber]? with
    | some found =>
      rw [hinserted] at hget
      obtain ⟨rfl, hversion⟩ := eq_of_checks hget
      exact ⟨rfl, hversion⟩
    | none =>
      rw [hinserted] at hget
      simp only at hget ⊢
      split at hget
      case isTrue => cases hget
      case isFalse hdeleted =>
        rw [if_neg hdeleted]
        exact base_of_fromTable hget
  case isFalse hmodified =>
    rw [huntouched (Bool.eq_false_iff.mpr hmodified)]
    exact base_of_fromTable hget

theorem scheduleDeletion_throws_iff (recordId : RecordId) :
    (∃ error, (scheduleDeletion recordId m).1 = .error error) ↔
      match m.insertedMap[recordId.recordNumber]? with
      | none => m.table = none ∨ recordId.recordNumber ∈ m.deletedSet
      | some record => record.recordId.createVersion ≠ recordId.createVersion := by
  rw [scheduleDeletion]
  cases hinserted : m.insertedMap[recordId.recordNumber]? with
  | none =>
    cases htable : m.table with
    | none => simp
    | some table => by_cases hdeleted : recordId.recordNumber ∈ m.deletedSet <;> simp [hdeleted]
  | some record =>
    by_cases hversion : record.recordId.createVersion = recordId.createVersion <;> simp [hversion]

/-- A deletion with a stale identifier throws only if the table is new, or the number is that of a
record that is not yet committed, or was deleted by the same transaction. -/
theorem deleteRecord_throwsOnly_iff (hm : m.Valid) {recordId : RecordId}
    (hstale : ∀ record, m.visible recordId.recordNumber = some record →
      record.recordId.createVersion ≠ recordId.createVersion) :
    m.ThrowsOnly (m.deleteRecord recordId) ↔
      m.table = none ∨ recordId.recordNumber ∈ m.insertedMap ∨
        recordId.recordNumber ∈ m.deletedSet := by
  have hsame := sameRecords_modifyTable m
  have hthrows : (∃ error, (m.deleteRecord recordId).1 = .error error) ↔
      m.table = none ∨ recordId.recordNumber ∈ m.insertedMap ∨
        recordId.recordNumber ∈ m.deletedSet := by
    rw [deleteRecord, removeRecord, scheduleDeletion_throws_iff]
    simp only [hsame.insertedMap, hsame.table, hsame.deletedSet]
    cases hinserted : m.insertedMap[recordId.recordNumber]? with
    | none =>
      have hnotMem : recordId.recordNumber ∉ m.insertedMap := by
        rw [Std.ExtTreeMap.mem_iff_isSome_getElem?, hinserted]
        exact Bool.false_ne_true
      simp [hnotMem]
    | some record =>
      have hmem : recordId.recordNumber ∈ m.insertedMap := by
        rw [Std.ExtTreeMap.mem_iff_isSome_getElem?, hinserted]
        rfl
      have hne := hstale record (by rw [visible, hinserted])
      simp [hmem, hne]
  rw [ThrowsOnly, hthrows, and_iff_left_iff_imp, ← hthrows]
  intro hthrown
  obtain ⟨error, herror⟩ := hthrown
  have hspec := deleteRecord_spec hm recordId
  generalize m.deleteRecord recordId = outcome at hspec herror ⊢
  obtain ⟨result, m'⟩ := outcome
  cases result with
  | ok => cases herror
  | error => exact hspec.visible
end ModifiedTable

namespace TableHistory.Valid
variable {s : TableHistory} {Attributes Changes : Type*} {metaRecord : MetaRecord Attributes Changes}

theorem getRecord_throws (hs : s.Valid) {recordId : RecordId} (hstale : s.Stale recordId) :
    ∃ error, s.table.getRecord recordId = .error error := by
  cases hget : s.table.getRecord recordId with
  | error error => exact ⟨error, rfl⟩
  | ok record =>
    obtain ⟨hvisible, hversion⟩ := ModifiedTable.visible_of_getRecord hs.now.untouched hget
    exact absurd hversion (hs.createVersion_ne hstale hvisible)

theorem updateRecord_throwsOnly (hs : s.Valid) {recordId : RecordId} (hstale : s.Stale recordId)
    (changes : Changes) :
    s.table.ThrowsOnly (s.table.updateRecord metaRecord recordId changes) := by
  have hspec := ModifiedTable.updateRecord_spec metaRecord hs.now.valid recordId
    changes
  generalize s.table.updateRecord metaRecord recordId changes = outcome at hspec ⊢
  obtain ⟨result, m⟩ := outcome
  cases result with
  | ok newRecordId =>
    obtain ⟨record, body, hvisible, hversion, -⟩ := hspec
    exact absurd hversion (hs.createVersion_ne hstale hvisible)
  | error error => exact ⟨⟨error, rfl⟩, hspec.visible⟩
end TableHistory.Valid

/-- Over all transactions, an identifier that is stale does no harm just when `deleteRecord` finds
no committed record under the number to delete. -/
theorem harmless_iff_of_run {Attributes Changes : Type*} {metaRecord : MetaRecord Attributes Changes}
    {versionId : UInt32} {indexes : List DbIndex} {calls : List (HistoryCall Attributes Changes)}
    {s : TableHistory} {recordId : RecordId}
    (hrun : Run (historyStep metaRecord) NoWrap (.initial versionId indexes) calls s)
    (hstale : s.Stale recordId) :
    s.table.Harmless metaRecord recordId ↔
      s.table.table = none ∨ recordId.recordNumber ∈ s.table.insertedMap ∨
        recordId.recordNumber ∈ s.table.deletedSet := by
  have hs := TableHistory.Valid.of_run hrun
  have hdelete := ModifiedTable.deleteRecord_throwsOnly_iff hs.now.valid
    fun record hvisible => hs.createVersion_ne hstale hvisible
  rw [← hdelete]
  constructor
  · intro hharmless
    exact hharmless.deleteRecord
  · intro hthrows
    exact
      { getRecord := hs.getRecord_throws hstale
        updateRecord := fun changes => hs.updateRecord_throwsOnly hstale changes
        deleteRecord := hthrows }

def zeroTarget : CommitTarget := ⟨writeNoIndexes, 0, fun _ => 0, 24, [], []⟩

/-- A record is deleted by the transaction after the one that inserted it. -/
theorem harmless_iff_of_run_sample : ∃ s : TableHistory, s.Stale ⟨0, 1, 0⟩ ∧
    s.table.Harmless zeroRecords ⟨0, 1, 0⟩ := by
  have hrun : ∃ s, Run (historyStep zeroRecords) NoWrap (.initial 1 [])
      [.insertRecord 1, .commit zeroTarget, .deleteRecord ⟨0, 1, 0⟩] s ∧
      s.Stale ⟨0, 1, 0⟩ ∧ 0 ∈ s.table.deletedSet := by
    apply Exists.intro
    apply And.intro
    · apply Run.cons (fun _ => by decide) rfl
      apply Run.cons ⟨⟨[], rfl, by decide⟩, by decide⟩ rfl
      apply Run.cons trivial rfl
      exact .nil _
    · refine ⟨Or.inl (Or.inr ⟨_, rfl, rfl⟩), by decide⟩
  obtain ⟨s, hrun, hstale, hdeleted⟩ := hrun
  exact ⟨s, hstale, (harmless_iff_of_run hrun hstale).mpr (Or.inr (Or.inr hdeleted))⟩

def reusedNumber : List (HistoryCall Nat Unit) :=
  [.insertRecord 1, .commit zeroTarget, .deleteRecord ⟨0, 1, 0⟩, .commit zeroTarget,
    .insertRecord 2, .commit zeroTarget]

set_option maxRecDepth 4000 in
/-- The stale identifier removes the record of the third transaction. -/
theorem deleteRecord_removes_reused : ∃ s : TableHistory,
    Run (historyStep zeroRecords) NoWrap (.initial 1 []) reusedNumber s ∧ s.Stale ⟨0, 1, 0⟩ ∧
      s.table.visible 0 = some ⟨⟨0, 3, 0⟩, List.replicate 8 0⟩ ∧
      (s.table.deleteRecord ⟨0, 1, 0⟩).1 = .ok () ∧
      (s.table.deleteRecord ⟨0, 1, 0⟩).2.visible 0 = none := by
  apply Exists.intro
  apply And.intro
  · apply Run.cons (fun _ => by decide) rfl
    apply Run.cons ⟨⟨[], rfl, by decide +kernel⟩, by decide +kernel⟩ rfl
    apply Run.cons trivial rfl
    apply Run.cons ⟨⟨[], rfl, by decide +kernel⟩, by decide +kernel⟩ rfl
    apply Run.cons (fun hfree => absurd hfree (by decide)) rfl
    apply Run.cons ⟨⟨[], rfl, by decide +kernel⟩, by decide +kernel⟩ rfl
    exact .nil _
  · refine ⟨Or.inl (Or.inr ⟨_, rfl, rfl⟩), ?_, ?_, ?_⟩
    · decide +kernel
    · decide +kernel
    · decide +kernel
end SecurityFramework.Filedb
