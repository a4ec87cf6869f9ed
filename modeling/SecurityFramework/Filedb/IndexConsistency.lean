import SecurityFramework.Filedb.IndexEntries

/-! # Indexes over calls -/

namespace SecurityFramework.Filedb
open DbMutableIndex

section
variable {Attributes Changes : Type*} {metaRecord : MetaRecord Attributes Changes}

namespace ModifiedTable
def currentIndexes (m : ModifiedTable) : List DbMutableIndex := m.modifyTable.indexMap

def SameIndexes (m m' : ModifiedTable) : Prop := List.Forall₂ SameEntries m.currentIndexes m'.currentIndexes

/-- All indexes are those of the live records. -/
def IndexesExact (metaRecord : MetaRecord Attributes Changes) (m : ModifiedTable) : Prop :=
  ∀ index ∈ m.currentIndexes, index.Exact metaRecord m.visible

def Keyed (metaRecord : MetaRecord Attributes Changes) (indexes : List DbMutableIndex)
    (body : List UInt8) : Prop :=
  ∀ index ∈ indexes, index.isUniqueIndex = true → metaRecord.keys index.toDbIndex body ≠ []

def Taken (metaRecord : MetaRecord Attributes Changes) (indexes : List DbMutableIndex)
    (body : List UInt8) : Prop :=
  ∀ index ∈ indexes, index.Takes (metaRecord.indexValues index.toDbIndex body)
end ModifiedTable

/-- The call throws before it has changed an index, or puts everything back, and a record that is
taken has a key in each unique index. -/
def AllOrNone (metaRecord : MetaRecord Attributes Changes) (m : ModifiedTable) : TableCall Attributes Changes → Prop
  | .insertRecord _ attributes => m.HasNextNumber ∧
    ∀ body, metaRecord.packRecord attributes = .ok body →
      ModifiedTable.Taken metaRecord m.currentIndexes body.octets ∧
          ModifiedTable.Keyed metaRecord m.currentIndexes body.octets ∨
        ModifiedTable.RefusedAtOnce metaRecord m.currentIndexes body.octets
  | .updateRecord recordId changes => ∀ record body,
    m.visible recordId.recordNumber = some record →
    metaRecord.updateRecord record.body changes = .ok body →
    ModifiedTable.Taken metaRecord
        (ModifiedTable.removeFromIndexes recordId.recordNumber m.currentIndexes) body.octets →
      ModifiedTable.Keyed metaRecord m.currentIndexes body.octets
  | .deleteRecord recordId => ∀ record : PackedRecord,
    m.insertedMap[recordId.recordNumber]? = some record →
    record.recordId.createVersion ≠ recordId.createVersion →
      ∀ index ∈ m.currentIndexes, metaRecord.keys index.toDbIndex record.body = []

theorem forall₂_comp {α β γ : Type*} {R : α → β → Prop} {S : β → γ → Prop} {as : List α}
    {bs : List β} {cs : List γ} (hR : List.Forall₂ R as bs) (hS : List.Forall₂ S bs cs) :
    List.Forall₂ (fun a c => ∃ b, R a b ∧ S b c) as cs := by
  induction hR generalizing cs with
  | nil =>
    cases hS
    exact .nil
  | cons hab _ ih =>
    cases hS with
    | cons hbc hrest => exact .cons ⟨_, hab, hbc⟩ (ih hrest)

namespace ModifiedTable
variable {m m' : ModifiedTable}

theorem currentIndexes_of_isModified (hmodified : m.isModified = true) :
    m.currentIndexes = m.indexMap := by
  rw [currentIndexes, modifyTable, if_pos hmodified]

theorem currentIndexes_modifyTable (m : ModifiedTable) :
    m.modifyTable.currentIndexes = m.currentIndexes := by
  rw [currentIndexes_of_isModified m.isModified_modifyTable, currentIndexes]

structure Keeps {α : Type*} (metaRecord : MetaRecord Attributes Changes) (m : ModifiedTable)
    (outcome : Outcome α) : Prop where
  indexesExact : outcome.2.IndexesExact metaRecord
  unchanged : ∀ error, outcome.1 = .error error →
    (∀ n, outcome.2.visible n = m.visible n) ∧ SameIndexes m outcome.2

theorem Keeps.of_sameIndexes {α : Type*} {outcome : Outcome α}
    (hexact : m.IndexesExact metaRecord) (hvisible : ∀ n, outcome.2.visible n = m.visible n)
    (hsame : SameIndexes m outcome.2) : Keeps metaRecord m outcome where
  indexesExact := by
    rw [IndexesExact, show outcome.2.visible = m.visible from funext hvisible]
    exact forall_of_forall₂ hsame fun index hindex _ hentries =>
      (hexact index hindex).sameEntries hentries
  unchanged := fun _ _ => ⟨hvisible, hsame⟩

theorem Keeps.of_modifyTable {α : Type*} {result : Except CssmError α}
    (hexact : m.IndexesExact metaRecord) : Keeps metaRecord m (result, m.modifyTable) := by
  apply Keeps.of_sameIndexes hexact
  · exact (sameRecords_modifyTable m).visible_eq
  · rw [SameIndexes, currentIndexes_modifyTable]
    exact List.forall₂_same.mpr fun index _ => .refl index

theorem Keeps.of_changed {α : Type*} {value : α} {recordNumber : UInt32}
    {record : Option PackedRecord} (hchanged : Changed m m' recordNumber record)
    (hexact : ∀ index ∈ m'.indexMap,
      index.Exact metaRecord (Function.update m.visible recordNumber record)) :
    Keeps metaRecord m (.ok value, m') where
  indexesExact := by
    have hvisible : m'.visible = Function.update m.visible recordNumber record := by
      funext n
      rw [hchanged.visible, Function.update_apply]
    rw [IndexesExact, currentIndexes_of_isModified hchanged.isModified, hvisible]
    exact hexact
  unchanged := by
    intro error herror
    cases herror

theorem scheduleDeletion_indexMap (recordId : RecordId) (m : ModifiedTable) :
    (scheduleDeletion recordId m).2.indexMap = m.indexMap := by
  rw [scheduleDeletion]
  cases m.insertedMap[recordId.recordNumber]? with
  | none =>
    cases m.table with
    | none => rfl
    | some table => by_cases hdeleted : recordId.recordNumber ∈ m.deletedSet <;> simp [hdeleted]
  | some record =>
    by_cases hversion : record.recordId.createVersion = recordId.createVersion <;> simp [hversion]

theorem scheduleDeletion_error {recordId : RecordId} {error : CssmError}
    (herror : (scheduleDeletion recordId m).1 = .error error) :
    m.visible recordId.recordNumber = none ∨ ∃ record : PackedRecord,
      m.insertedMap[recordId.recordNumber]? = some record ∧
        record.recordId.createVersion ≠ recordId.createVersion := by
  rw [scheduleDeletion] at herror
  cases hinserted : m.insertedMap[recordId.recordNumber]? with
  | none =>
    left
    rw [hinserted] at herror
    rw [visible, hinserted]
    cases htable : m.table with
    | none =>
      simp only [base, htable, Option.bind_none, ite_self]
    | some table =>
      rw [htable] at herror
      simp only at herror ⊢
      split at herror
      case isTrue hdeleted => rw [if_pos hdeleted]
      case isFalse => cases herror
  | some record =>
    right
    rw [hinserted] at herror
    simp only at herror
    split at herror
    case isTrue hversion => exact ⟨record, rfl, hversion⟩
    case isFalse => cases herror

theorem deleteRecord_keeps (hm : m.Valid) (hexact : m.IndexesExact metaRecord)
    {recordId : RecordId}
    (hkept : AllOrNone metaRecord m (.deleteRecord recordId : TableCall Attributes Changes)) :
    Keeps metaRecord m (m.deleteRecord recordId) := by
  have hspec := deleteRecord_spec hm recordId
  have hindexMap : (m.deleteRecord recordId).2.indexMap =
      removeFromIndexes recordId.recordNumber m.currentIndexes := by
    rw [deleteRecord, scheduleDeletion_indexMap]
    rfl
  have herror : ∀ error, (m.deleteRecord recordId).1 = .error error →
      m.visible recordId.recordNumber = none ∨ ∃ record : PackedRecord,
        m.insertedMap[recordId.recordNumber]? = some record ∧
          record.recordId.createVersion ≠ recordId.createVersion := by
    intro error hthrown
    rw [deleteRecord] at hthrown
    have hsame : SameRecords m (removeRecord recordId.recordNumber m.modifyTable) :=
      (sameRecords_modifyTable m).indexMap _
    have hcases := scheduleDeletion_error hthrown
    rwa [hsame.visible_eq, hsame.insertedMap] at hcases
  generalize m.deleteRecord recordId = outcome at hspec hindexMap herror ⊢
  obtain ⟨result, m'⟩ := outcome
  cases result with
  | ok =>
    apply Keeps.of_changed hspec
    rw [show m'.indexMap = _ from hindexMap, removeFromIndexes]
    intro index hindex
    obtain ⟨other, hother, rfl⟩ := List.mem_map.mp hindex
    exact (hexact other hother).remove recordId.recordNumber
  | error error =>
    apply Keeps.of_sameIndexes hexact hspec.visible
    rw [SameIndexes, currentIndexes_of_isModified hspec.isModified,
      show m'.indexMap = _ from hindexMap, removeFromIndexes, List.forall₂_map_right_iff,
      List.forall₂_same]
    intro index hindex
    rw [(hexact index hindex).removeRecord_of_no_keys]
    · exact .refl index
    · intro record hvisible
      cases herror error rfl with
      | inl hnone =>
        rw [hnone] at hvisible
        cases hvisible
      | inr hinserted =>
        obtain ⟨other, hinserted, hversion⟩ := hinserted
        have heq : m.visible recordId.recordNumber = some other := by rw [visible, hinserted]
        rw [heq] at hvisible
        cases hvisible
        exact hkept record hinserted hversion index hindex

theorem exact_of_entered {indexes indexes' : List DbMutableIndex} {records : LatestRecords}
    (record : PackedRecord) (hexact : ∀ index ∈ indexes, index.Exact metaRecord records)
    (hnone : records record.number = none) (htaken : Taken metaRecord indexes record.body)
    (hkeyed : Keyed metaRecord indexes record.body)
    (hentered : List.Forall₂ (fun index index' =>
      Entered record.number (metaRecord.keys index.toDbIndex record.body) index index')
      indexes indexes') :
    ∀ index ∈ indexes',
      index.Exact metaRecord (Function.update records record.number (some record)) := by
  exact forall_of_forall₂ hentered fun index hindex index' hkeys =>
    (hexact index hindex).enter hnone (htaken index hindex) (hkeyed index hindex) hkeys

theorem insertRecord_keeps (hm : m.Valid) (hexact : m.IndexesExact metaRecord)
    {versionId : UInt32} {attributes : Attributes}
    (hkept : AllOrNone metaRecord m (.insertRecord versionId attributes)) :
    Keeps metaRecord m (m.insertRecord metaRecord versionId attributes) := by
  obtain ⟨hnext, hindexes⟩ := hkept
  have hspec := insertRecord_spec metaRecord hm hnext versionId attributes
  have hsame := sameRecords_modifyTable m
  cases hpack : metaRecord.packRecord attributes with
  | error error =>
    have hrun : m.insertRecord metaRecord versionId attributes = (.error error, m.modifyTable) := by
      rw [insertRecord, hpack]
    rw [hrun]
    exact Keeps.of_modifyTable hexact
  | ok body =>
    have hnext' : m.modifyTable.HasNextNumber := by
      rw [HasNextNumber, hsame.freeListHead, hsame.recordNumberCount]
      exact hnext
    obtain ⟨n, next, hnumber, hnextNumber⟩ := nextRecordNumber_spec (hsame.valid hm) hnext'
    have hindexMap : next.indexMap = m.currentIndexes := by
      rw [hnextNumber.eq]
      rfl
    have hrun : m.insertRecord metaRecord versionId attributes =
        scheduleInsertion metaRecord ⟨⟨n, versionId, 0⟩, body.octets⟩ next := by
      rw [insertRecord, hpack]
      simp only [hnumber]
    rw [hrun, scheduleInsertion, hindexMap] at hspec ⊢
    cases hindexes body hpack with
    | inl htaken =>
      have hinserted : ∃ indexes', insertIntoIndexes metaRecord
          (PackedRecord.number ⟨⟨n, versionId, 0⟩, body.octets⟩) body.octets m.currentIndexes =
            (indexes', none) ∧ _ := insertIntoIndexes_of_takes htaken.1
      obtain ⟨indexes', hinsert, hentered⟩ := hinserted
      simp only [hinsert] at hspec ⊢
      obtain ⟨packed, hpacked, -, havailable, -, hchanged⟩ := hspec
      rw [hpack] at hpacked
      cases hpacked
      have hnone : m.visible n = none := (hm.fresh_of_available havailable).visible
      have hindexes' := exact_of_entered ⟨⟨n, versionId, 0⟩, body.octets⟩ hexact hnone
        htaken.1 htaken.2 hentered
      exact Keeps.of_changed hchanged hindexes'
    | inr hrefused =>
      have hinserted : ∃ indexes' error, insertIntoIndexes metaRecord
          (PackedRecord.number ⟨⟨n, versionId, 0⟩, body.octets⟩) body.octets m.currentIndexes =
            (indexes', some error) ∧ _ := insertIntoIndexes_of_refusedAtOnce hrefused
      obtain ⟨indexes', error, hinsert, hsameEntries⟩ := hinserted
      simp only [hinsert] at hspec ⊢
      apply Keeps.of_sameIndexes hexact hspec.visible
      rw [SameIndexes, currentIndexes_of_isModified hspec.isModified]
      exact hsameEntries

/-- After a failed update every index has the entries of the old record again. -/
theorem insertIntoIndexes_restores {indexes indexes' : List DbMutableIndex}
    {records : LatestRecords} {record : PackedRecord} {recordNumber : UInt32}
    (hexact : ∀ index ∈ indexes, index.Exact metaRecord records)
    (hrecord : records recordNumber = some record)
    (hentered : List.Forall₂ (fun index index' => ∃ added, Entered recordNumber added index index')
      (removeFromIndexes recordNumber indexes) indexes') :
    ∃ restored, insertIntoIndexes metaRecord recordNumber record.body
        (removeFromIndexes recordNumber indexes') = (restored, none) ∧
      List.Forall₂ SameEntries indexes restored := by
  have hremoved : List.Forall₂ (fun index index' =>
      index.Exact metaRecord records ∧ SameEntries (index.removeRecord recordNumber) index')
      indexes (removeFromIndexes recordNumber indexes') := by
    rw [removeFromIndexes, List.forall₂_map_left_iff] at hentered
    rw [removeFromIndexes, List.forall₂_map_right_iff]
    clear * - hexact hentered
    induction hentered with
    | nil => exact .nil
    | @cons index index' rest rest' hindex _ ih =>
      obtain ⟨added, hindex⟩ := hindex
      have hsame := hindex.removeRecord
      have htwice : (index.removeRecord recordNumber).removeRecord recordNumber =
          index.removeRecord recordNumber := by
        simp only [DbMutableIndex.removeRecord, List.filter_filter, Bool.and_self]
      rw [htwice] at hsame
      exact .cons ⟨hexact index List.mem_cons_self, hsame⟩
        (ih fun other hother => hexact other (List.mem_cons_of_mem _ hother))
  have htakes : ∀ index ∈ removeFromIndexes recordNumber indexes',
      index.Takes (metaRecord.indexValues index.toDbIndex record.body) := by
    refine forall_of_forall₂ hremoved fun index _ index' hindex => ?_
    have htoDbIndex : index'.toDbIndex = index.toDbIndex := hindex.2.toDbIndex
    rw [htoDbIndex]
    exact hindex.2.takes (hindex.1.takes_removed hrecord)
  obtain ⟨restored, hinsert, hrestored⟩ := insertIntoIndexes_of_takes htakes
  refine ⟨restored, hinsert, ?_⟩
  apply (forall₂_comp hremoved hrestored).imp
  intro index index'' hboth
  obtain ⟨index', hindex, hkeys⟩ := hboth
  have htoDbIndex : index'.toDbIndex = index.toDbIndex := hindex.2.toDbIndex
  rw [htoDbIndex] at hkeys
  exact hindex.1.restored hrecord hindex.2 hkeys

theorem replaceRecord_keeps {oldRecord : PackedRecord} (newRecord : PackedRecord)
    (hexact : m.IndexesExact metaRecord)
    (hold : m.insertedMap[newRecord.number]? = some oldRecord ∨
      m.insertedMap[newRecord.number]? = none ∧ m.base newRecord.number = some oldRecord)
    (hkept : m.visible newRecord.number = some oldRecord →
      Taken metaRecord (removeFromIndexes newRecord.number m.currentIndexes) newRecord.body →
      Keyed metaRecord m.currentIndexes newRecord.body)
    (hspec : match replaceRecord metaRecord oldRecord newRecord m.modifyTable with
      | (.ok recordId, m') =>
        recordId = newRecord.recordId ∧ m.visible newRecord.number = some oldRecord ∧
          Changed m m' newRecord.number (some newRecord)
      | (.error _, m') => Unchanged m m') :
    Keeps metaRecord m (replaceRecord metaRecord oldRecord newRecord m.modifyTable) := by
  have hsame := sameRecords_modifyTable m
  simp only [replaceRecord, ModifiedTable.removeRecord] at hspec ⊢
  by_cases hskip : (!m.modifyTable.insertedMap.contains newRecord.number &&
      m.modifyTable.deletedSet.contains newRecord.number) = true
  · rw [if_pos hskip]
    exact Keeps.of_modifyTable hexact
  · rw [if_neg hskip] at hspec ⊢
    have hvisible : m.visible newRecord.number = some oldRecord := by
      rw [hsame.insertedMap, hsame.deletedSet] at hskip
      exact visible_of_not_deleted hold hskip
    have hindexMap : m.modifyTable.indexMap = m.currentIndexes := rfl
    rw [hindexMap] at hspec ⊢
    by_cases htaken : Taken metaRecord (removeFromIndexes newRecord.number m.currentIndexes)
        newRecord.body
    · obtain ⟨indexes', hinsert, hentered⟩ := insertIntoIndexes_of_takes htaken
      have hinsert : insertIntoIndexes metaRecord newRecord.number newRecord.body
          (removeFromIndexes newRecord.number m.currentIndexes) = (indexes', none) := hinsert
      simp only [hinsert] at hspec ⊢
      apply Keeps.of_changed hspec.2.2
      have hidem : Function.update (Function.update m.visible newRecord.number none)
          newRecord.number (some newRecord) =
            Function.update m.visible newRecord.number (some newRecord) :=
        Function.update_idem _ _ _
      rw [← hidem]
      apply exact_of_entered newRecord _ (Function.update_self _ _ _) htaken _ hentered
      · intro index hindex
        obtain ⟨other, hother, rfl⟩ := List.mem_map.mp hindex
        exact (hexact other hother).remove newRecord.number
      · intro index hindex
        obtain ⟨other, hother, rfl⟩ := List.mem_map.mp hindex
        exact hkept hvisible htaken other hother
    · obtain ⟨indexes', error, hinsert, hentered⟩ := insertIntoIndexes_of_not_takes htaken
      have hinsert : insertIntoIndexes metaRecord newRecord.number newRecord.body
          (removeFromIndexes newRecord.number m.currentIndexes) = (indexes', some error) := hinsert
      obtain ⟨restored, hrestore, hsameEntries⟩ :=
        insertIntoIndexes_restores hexact hvisible hentered
      simp only [hinsert, hrestore, Option.getD_none] at hspec ⊢
      apply Keeps.of_sameIndexes hexact hspec.visible
      rw [SameIndexes, currentIndexes_of_isModified hspec.isModified]
      exact hsameEntries

theorem updateRecord_keeps (hm : m.Valid) (hexact : m.IndexesExact metaRecord)
    {recordId : RecordId} {changes : Changes}
    (hkept : AllOrNone metaRecord m
      (.updateRecord recordId changes : TableCall Attributes Changes)) :
    Keeps metaRecord m (m.updateRecord metaRecord recordId changes) := by
  have hsame := sameRecords_modifyTable m
  rw [updateRecord]
  cases hold : m.modifyTable.recordToUpdate recordId with
  | error error => exact Keeps.of_modifyTable hexact
  | ok oldRecord =>
    cases hbody : metaRecord.updateRecord oldRecord.body changes with
    | error error =>
      simp only [hbody]
      exact Keeps.of_modifyTable hexact
    | ok body =>
      obtain ⟨-, hfound⟩ := recordToUpdate_eq_ok_iff.mp hold
      have hspec := replaceRecord_spec metaRecord (hsame.valid hm) m.isModified_modifyTable
        (body.size_spec { recordId with recordVersion := recordId.recordVersion + 1 }) hfound
      rw [hsame.insertedMap, hsame.base_eq] at hfound
      simp only [hbody]
      apply replaceRecord_keeps
        ⟨{ recordId with recordVersion := recordId.recordVersion + 1 }, body.octets⟩ hexact hfound
      · intro hvisible
        exact hkept oldRecord body hvisible hbody
      · generalize replaceRecord metaRecord oldRecord _ m.modifyTable = outcome at hspec ⊢
        obtain ⟨result, m'⟩ := outcome
        cases result with
        | ok newRecordId =>
          rw [hsame.visible_eq] at hspec
          exact ⟨hspec.1, hspec.2.1, hsame.changed hspec.2.2⟩
        | error => exact .of_sameRecords hsame hspec
end ModifiedTable

def tableStep (metaRecord : MetaRecord Attributes Changes) (m : ModifiedTable)
    (call : TableCall Attributes Changes) : Option ModifiedTable :=
  some (call.run metaRecord m).2

structure ModifiedTable.Consistent (metaRecord : MetaRecord Attributes Changes)
    (m : ModifiedTable) : Prop where
  valid : m.Valid
  indexesExact : m.IndexesExact metaRecord

namespace ModifiedTable.Consistent
variable {m : ModifiedTable}

variable {call : TableCall Attributes Changes}

theorem keeps (hm : m.Consistent metaRecord) (hkept : AllOrNone metaRecord m call) :
    Keeps metaRecord m (call.run metaRecord m) := by
  cases call with
  | insertRecord versionId attributes => exact insertRecord_keeps hm.valid hm.indexesExact hkept
  | updateRecord recordId changes => exact updateRecord_keeps hm.valid hm.indexesExact hkept
  | deleteRecord recordId =>
    have hdelete := deleteRecord_keeps hm.valid hm.indexesExact hkept
    refine ⟨hdelete.indexesExact, fun error herror => ?_⟩
    apply hdelete.unchanged error
    rw [TableCall.run] at herror
    generalize m.deleteRecord recordId = outcome at herror ⊢
    obtain ⟨result, m'⟩ := outcome
    cases result with
    | ok => cases herror
    | error => exact congrArg _ (Except.error.inj herror)

theorem valid_run (hm : m.Valid) (hkept : AllOrNone metaRecord m call) :
    (call.run metaRecord m).2.Valid := by
  cases call with
  | insertRecord versionId attributes =>
    have hspec := insertRecord_spec metaRecord hm hkept.1 versionId attributes
    rw [TableCall.run]
    generalize m.insertRecord metaRecord versionId attributes = outcome at hspec ⊢
    obtain ⟨result, m'⟩ := outcome
    cases result with
    | ok =>
      obtain ⟨_, -, -, -, -, hchanged⟩ := hspec
      exact hchanged.valid
    | error => exact hspec.valid
  | updateRecord recordId changes =>
    have hspec := updateRecord_spec metaRecord hm recordId changes
    rw [TableCall.run]
    generalize m.updateRecord metaRecord recordId changes = outcome at hspec ⊢
    obtain ⟨result, m'⟩ := outcome
    cases result with
    | ok =>
      obtain ⟨_, _, -, -, -, -, hchanged⟩ := hspec
      exact hchanged.valid
    | error => exact hspec.valid
  | deleteRecord recordId =>
    have hspec := deleteRecord_spec hm recordId
    rw [TableCall.run]
    generalize m.deleteRecord recordId = outcome at hspec ⊢
    obtain ⟨result, m'⟩ := outcome
    cases result with
    | ok | error => exact hspec.valid

theorem step (hm : m.Consistent metaRecord) (hkept : AllOrNone metaRecord m call) :
    (call.run metaRecord m).2.Consistent metaRecord :=
  ⟨valid_run hm.valid hkept, (hm.keeps hkept).indexesExact⟩

theorem of_run (hm : m.Consistent metaRecord) {calls : List (TableCall Attributes Changes)}
    {m' : ModifiedTable} (hrun : Run (tableStep metaRecord) (AllOrNone metaRecord) m calls m') :
    m'.Consistent metaRecord := by
  apply hrun.invariant (ModifiedTable.Consistent metaRecord) _ hm
  intro s call s' hs hkept hstep
  cases hstep
  exact hs.step hkept

theorem ofIndexes (metaRecord : MetaRecord Attributes Changes) (indexes : List DbIndex) :
    (ModifiedTable.ofIndexes indexes).Consistent metaRecord where
  valid := ModifiedTable.valid_ofIndexes indexes
  indexesExact := by
    intro index hindex
    obtain ⟨other, -, rfl⟩ := List.mem_map.mp hindex
    have hvisible : (ModifiedTable.ofIndexes indexes).visible = fun _ => none := by
      funext n
      simp [ModifiedTable.visible, ModifiedTable.ofIndexes, ModifiedTable.base]
    rw [hvisible]
    exact
      { entries := fun n => .refl _
        distinct := fun _ => .nil
        keyed := fun _ n record hrecord => by cases hrecord }
end ModifiedTable.Consistent

/-- Calls that change all indexes or none keep the indexes those of the live records, and change
nothing when they throw. -/
theorem indexesExact_of_run {m m' : ModifiedTable} {calls : List (TableCall Attributes Changes)}
    (hm : m.Consistent metaRecord)
    (hrun : Run (tableStep metaRecord) (AllOrNone metaRecord) m calls m') :
    m'.IndexesExact metaRecord ∧ ∀ call error, AllOrNone metaRecord m' call →
      (call.run metaRecord m').1 = .error error →
        (∀ n, (call.run metaRecord m').2.visible n = m'.visible n) ∧
          ModifiedTable.SameIndexes m' (call.run metaRecord m').2 := by
  have hm' := hm.of_run hrun
  exact ⟨hm'.indexesExact, fun call error hkept herror => (hm'.keeps hkept).unchanged error herror⟩

def octetRecords : MetaRecord UInt8 UInt8 where
  format _ := .uint32
  values _ body := (body.take 1).map fun octet => .uint32 octet.toUInt32
  format_eq := fun _ _ _ hvalue => by
    obtain ⟨_, -, rfl⟩ := List.mem_map.mp hvalue
    rfl
  packRecord octet := .ok ⟨[octet, 0, 0, 0], by simp, by simp⟩
  updateRecord _ octet := .ok ⟨[octet, 0, 0, 0], by simp, by simp⟩
end

def numberIndex : DbIndex := ⟨0, true, [0]⟩

/-- The second call throws, as there is such a record. -/
theorem indexesExact_of_run_sample : ∃ m : ModifiedTable,
    Run (tableStep octetRecords) (AllOrNone octetRecords) (.ofIndexes [numberIndex])
      [.insertRecord 1 7, .insertRecord 1 7, .updateRecord ⟨0, 1, 0⟩ 8] m ∧
      m.IndexesExact octetRecords := by
  have hrun : ∃ m : ModifiedTable,
      Run (tableStep octetRecords) (AllOrNone octetRecords) (.ofIndexes [numberIndex])
        [.insertRecord 1 7, .insertRecord 1 7, .updateRecord ⟨0, 1, 0⟩ 8] m := by
    apply Exists.intro
    refine Run.cons ?_ rfl (Run.cons ?_ rfl (Run.cons ?_ rfl (.nil _)))
    · refine ⟨fun _ => by decide, fun body hbody => Or.inl ⟨?_, ?_⟩⟩
      · intro index hindex _
        cases hbody
        cases List.mem_singleton.mp hindex
        exact ⟨fun hmissing => (by cases hmissing), fun _ _ => rfl, List.pairwise_singleton _ _⟩
      · intro index hindex _
        cases hbody
        cases List.mem_singleton.mp hindex
        decide
    · refine ⟨fun _ => by decide, fun body hbody => Or.inr ?_⟩
      cases hbody
      exact ⟨[], _, [], rfl, fun _ hmem => (by cases hmem), rfl, Or.inr ⟨_, _, rfl, rfl⟩⟩
    · intro record body hrecord hbody _ index hindex _
      cases hbody
      cases List.mem_singleton.mp hindex
      decide +kernel
  obtain ⟨m, hrun⟩ := hrun
  exact ⟨m, hrun, (indexesExact_of_run (.ofIndexes _ _) hrun).1⟩

/-- A deletion that throws has removed the entry of the record. -/
theorem deleteRecord_loses_entry : ∃ m : ModifiedTable,
    Run (tableStep octetRecords) (fun _ _ => True) (.ofIndexes [numberIndex])
      [.insertRecord 1 7] m ∧
      (m.deleteRecord ⟨0, 2, 0⟩).1 = .error .recordNotFound ∧
      ¬ModifiedTable.SameIndexes m (m.deleteRecord ⟨0, 2, 0⟩).2 ∧
      ¬(m.deleteRecord ⟨0, 2, 0⟩).2.IndexesExact octetRecords := by
  apply Exists.intro
  apply And.intro
  · exact .cons trivial rfl (.nil _)
  · refine ⟨by decide +kernel, ?_, ?_⟩
    · intro hsame
      cases hsame with
      | cons hindex _ =>
        have hlength := hindex.perm.length_eq
        exact absurd hlength (by decide +kernel)
    · intro hexact
      have hlength := ((hexact _ List.mem_cons_self).entries 0).length_eq
      exact absurd hlength (by decide +kernel)
end SecurityFramework.Filedb
