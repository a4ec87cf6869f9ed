import SecurityFramework.Filedb.WriteTable

/-! # What is written of a table -/

namespace SecurityFramework.Filedb
open Memory

def keptRecords (deletedSet : Std.ExtTreeSet UInt32) (old : List PackedRecord) :
    List PackedRecord :=
  old.filter fun record => record.number ∉ deletedSet

theorem trimOldMax_spec (insertedMax : UInt32) (deleted : List UInt32) (oldMax : UInt32) :
    trimOldMax insertedMax deleted oldMax ≤ oldMax ∧
      ∀ n, trimOldMax insertedMax deleted oldMax < n → n ≤ oldMax → n ∈ deleted := by
  induction deleted generalizing oldMax with
  | nil =>
    refine ⟨UInt32.le_refl _, ?_⟩
    intro n hlt hle
    exact absurd hlt (UInt32.not_lt.mpr hle)
  | cons recordNumber rest ih =>
    rw [trimOldMax]
    split
    case isTrue =>
      refine ⟨UInt32.le_refl _, ?_⟩
      intro n hlt hle
      exact absurd hlt (UInt32.not_lt.mpr hle)
    case isFalse hcontinue =>
      obtain ⟨hnumber, hinserted⟩ := not_or.mp hcontinue
      have hpos : insertedMax.toNat < oldMax.toNat := by
        have hlt := UInt32.not_le.mp hinserted
        rwa [UInt32.lt_iff_toNat_lt] at hlt
      have hpred : (oldMax - 1).toNat = oldMax.toNat - 1 := by
        apply UInt32.toNat_sub_of_le
        rw [UInt32.le_iff_toNat_le]
        exact Nat.succ_le_of_lt (Nat.lt_of_le_of_lt (Nat.zero_le _) hpos)
      obtain ⟨hle, hdeleted⟩ := ih (oldMax - 1)
      refine ⟨?_, ?_⟩
      · rw [UInt32.le_iff_toNat_le] at hle ⊢
        omega
      · intro n hlt hn
        by_cases heq : n = oldMax
        · rw [heq, not_not.mp hnumber]
          exact List.mem_cons_self
        · apply List.mem_cons_of_mem
          apply hdeleted n hlt
          rw [UInt32.le_iff_toNat_le] at hn ⊢
          have hne : n.toNat ≠ oldMax.toNat := fun h => heq (UInt32.toNat_inj.mp h)
          omega

namespace ModifiedTable
variable {m : ModifiedTable}

variable {recordNumber : UInt32} {record : PackedRecord}

theorem le_insertedMax (hmem : recordNumber ∈ m.insertedMap) :
    recordNumber ≤ m.insertedMax := by
  have hkey : recordNumber ∈ m.insertedMap.toList.map Prod.fst := by
    rw [Std.ExtTreeMap.map_fst_toList_eq_keys]
    exact Std.ExtTreeMap.mem_keys.mpr hmem
  obtain ⟨entry, hentry, rfl⟩ := List.mem_map.mp hkey
  have hne : m.insertedMap.toList ≠ [] := List.ne_nil_of_mem hentry
  have hlast := List.dropLast_append_getLast hne
  have hordered : m.insertedMap.toList.Pairwise fun a b => compare a.1 b.1 = .lt :=
    Std.ExtTreeMap.ordered_keys_toList
  rw [insertedMax, List.getLast?_eq_getLast_of_ne_nil hne]
  rw [← hlast] at hentry hordered
  cases List.mem_append.mp hentry with
  | inl hfront =>
    have hlt := (List.pairwise_append.mp hordered).2.2 _ hfront _ List.mem_cons_self
    exact UInt32.le_of_lt (Std.compare_eq_lt.mp hlt)
  | inr hself =>
    rw [List.mem_singleton.mp hself]
    exact UInt32.le_refl _

theorem visible_le_maxRecordNumber (hm : m.Valid)
    (hvisible : m.visible recordNumber = some record) : recordNumber ≤ m.maxRecordNumber := by
  rw [maxRecordNumber, UInt32.le_iff_toNat_le, UInt32.toNat_max, le_max_iff,
    ← UInt32.le_iff_toNat_le, ← UInt32.le_iff_toNat_le]
  by_cases hinserted : recordNumber ∈ m.insertedMap
  · exact Or.inr (le_insertedMax hinserted)
  · have hnone : m.insertedMap[recordNumber]? = none := by simpa using hinserted
    simp only [visible, hnone] at hvisible
    split at hvisible
    case isTrue => cases hvisible
    case isFalse hdeleted =>
      cases htable : m.table with
      | none =>
        rw [base, htable] at hvisible
        cases hvisible
      | some table =>
        obtain ⟨contents, hcontents, -⟩ := hm.table table htable
        simp only [base, htable, Option.bind_some] at hvisible
        have hlt : recordNumber.toNat < contents.recordNumberCount := by
          by_contra hle
          rw [hcontents.getRecordSection_of_le (Nat.le_of_not_lt hle)] at hvisible
          cases hvisible
        have holdMax : recordNumber ≤ table.recordNumberCount - 1 := by
          have hcount := hcontents.header.2.2
          rw [UInt32.le_iff_toNat_le, UInt32.toNat_sub_of_le]
          · rw [hcount]
            exact Nat.le_sub_one_of_lt hlt
          · rw [UInt32.le_iff_toNat_le, hcount]
            exact hcontents.valid.count_pos
        left
        by_contra hgt
        apply hdeleted
        rw [← Std.ExtTreeSet.mem_toList, ← List.mem_reverse]
        exact (trimOldMax_spec m.insertedMax _ _).2 _ (UInt32.not_le.mp hgt) holdMax

def liveRecords (m : ModifiedTable) : List PackedRecord :=
  ((List.range m.recordNumberCount.toNat).map UInt32.ofNat).filterMap m.visible

theorem base_number (hm : m.Valid) (hbase : m.base recordNumber = some record) :
    record.number = recordNumber := by
  cases htable : m.table with
  | none =>
    rw [base, htable] at hbase
    cases hbase
  | some table =>
    obtain ⟨contents, hcontents, -⟩ := hm.table table htable
    simp only [base, htable, Option.bind_some, Except.toOption] at hbase
    split at hbase
    case h_1 value hok =>
      cases hbase
      exact (hcontents.getRecordSection_eq_ok_iff.mp hok).2
    case h_2 => cases hbase

theorem visible_number (hm : m.Valid) (hvisible : m.visible recordNumber = some record) :
    record.number = recordNumber := by
  rw [visible] at hvisible
  split at hvisible
  case h_1 other hinserted =>
    cases hvisible
    exact (hm.inserted recordNumber record hinserted).1
  case h_2 =>
    split at hvisible
    case isTrue => cases hvisible
    case isFalse => exact base_number hm hvisible

theorem visible_lt (hm : m.Valid) (hvisible : m.visible recordNumber = some record) :
    recordNumber.toNat < m.recordNumberCount.toNat := by
  by_contra hle
  have hfresh := hm.fresh_of_le recordNumber (UInt32.le_iff_toNat_le.mpr (Nat.le_of_not_lt hle))
  rw [hfresh.visible] at hvisible
  cases hvisible

theorem mem_liveRecords (hm : m.Valid) :
    record ∈ m.liveRecords ↔ m.visible record.number = some record := by
  rw [liveRecords, List.mem_filterMap]
  constructor
  · intro hmem
    obtain ⟨n, -, hvisible⟩ := hmem
    rwa [visible_number hm hvisible]
  · intro hvisible
    refine ⟨record.number, ?_, hvisible⟩
    rw [List.mem_map]
    exact ⟨_, List.mem_range.mpr (visible_lt hm hvisible), UInt32.ofNat_toNat⟩

theorem nodup_liveRecords (hm : m.Valid) : m.liveRecords.Nodup := by
  apply List.Nodup.filterMap
  · intro n n' record hn hn'
    rw [← visible_number hm hn, ← visible_number hm hn']
  · apply List.Nodup.map_on _ List.nodup_range
    intro i hi j hj heq
    have hlt := m.recordNumberCount.toNat_lt
    have hi := List.mem_range.mp hi
    have hj := List.mem_range.mp hj
    have htoNat := congrArg UInt32.toNat heq
    rwa [UInt32.toNat_ofNat_of_lt' (by rw [UInt32.size]; omega),
      UInt32.toNat_ofNat_of_lt' (by rw [UInt32.size]; omega)] at htoNat

structure OldRecords (m : ModifiedTable) (old : List PackedRecord) : Prop where
  nodup : (old.map PackedRecord.number).Nodup
  mem_iff : ∀ record, record ∈ old ↔ m.base record.number = some record
  aligned : ∀ record ∈ old, record.size % 4 = 0

def insertedRecords (m : ModifiedTable) : List PackedRecord := m.insertedMap.toList.map Prod.snd

theorem mem_insertedRecords (hm : m.Valid) :
    record ∈ m.insertedRecords ↔ m.insertedMap[record.number]? = some record := by
  rw [insertedRecords, List.mem_map]
  constructor
  · intro hmem
    obtain ⟨⟨n, record'⟩, hentry, rfl⟩ := hmem
    have hinserted := Std.ExtTreeMap.mem_toList_iff_getElem?_eq_some.mp hentry
    rwa [(hm.inserted n record' hinserted).1]
  · intro hinserted
    exact ⟨⟨record.number, record⟩, Std.ExtTreeMap.mem_toList_iff_getElem?_eq_some.mpr hinserted, rfl⟩

theorem map_number_insertedRecords (hm : m.Valid) :
    m.insertedRecords.map PackedRecord.number = m.insertedMap.keys := by
  rw [insertedRecords, List.map_map, ← Std.ExtTreeMap.map_fst_toList_eq_keys]
  apply List.map_congr_left
  intro entry hentry
  exact (hm.inserted entry.1 entry.2 (Std.ExtTreeMap.mem_toList_iff_getElem?_eq_some.mp hentry)).1

theorem nodup_number (hm : m.Valid) {old : List PackedRecord} (hold : m.OldRecords old) :
    ((keptRecords m.deletedSet old ++ m.insertedRecords).map PackedRecord.number).Nodup := by
  rw [List.map_append, map_number_insertedRecords hm, List.nodup_append]
  refine ⟨?_, ?_, ?_⟩
  · exact hold.nodup.sublist (List.filter_sublist.map PackedRecord.number)
  · apply Std.ExtTreeMap.distinct_keys.imp
    intro a b hne heq
    rw [heq, Std.compare_self] at hne
    exact hne rfl
  · intro n hn n' hn' heq
    obtain ⟨record, hmem, rfl⟩ := List.mem_map.mp hn
    rw [keptRecords, List.mem_filter, hold.mem_iff] at hmem
    rw [← heq, Std.ExtTreeMap.mem_keys] at hn'
    cases hm.replaced record.number hn' with
    | inl hdeleted => exact of_decide_eq_true hmem.2 hdeleted
    | inr hnone =>
      rw [hnone] at hmem
      cases hmem.1

theorem perm_liveRecords (hm : m.Valid) {old : List PackedRecord} (hold : m.OldRecords old) :
    (keptRecords m.deletedSet old ++ m.insertedRecords).Perm m.liveRecords := by
  apply (List.perm_ext_iff_of_nodup (nodup_number hm hold).of_map (nodup_liveRecords hm)).mpr
  intro record
  rw [List.mem_append, keptRecords, List.mem_filter, hold.mem_iff, mem_insertedRecords hm,
    mem_liveRecords hm, visible, decide_eq_true_iff]
  cases hinserted : m.insertedMap[record.number]? with
  | none =>
    by_cases hdeleted : record.number ∈ m.deletedSet
    · simp [hdeleted]
    · simp [hdeleted]
  | some other =>
    simp only [or_iff_right_iff_imp]
    intro hkept
    have hmem : record.number ∈ m.insertedMap :=
      Std.ExtTreeMap.mem_iff_isSome_getElem?.mpr (by rw [hinserted]; rfl)
    cases hm.replaced record.number hmem with
    | inl hdeleted => exact absurd hdeleted hkept.2
    | inr hnone =>
      rw [hnone] at hkept
      cases hkept.1
end ModifiedTable

theorem wrap32_of_lt {value : Nat} (hlt : value < 2 ^ 32) : wrap32 value = value :=
  Nat.mod_eq_of_lt hlt

namespace PackedRecord
theorem totalSize_concat (records : List PackedRecord) (record : PackedRecord) :
    totalSize (records ++ [record]) = totalSize records + record.size := by
  rw [totalSize_append, totalSize_cons, totalSize_nil, Nat.add_zero]

theorem length_le_totalSize (records : List PackedRecord) :
    records.length ≤ totalSize records := by
  induction records with
  | nil => exact Nat.le_refl _
  | cons record records ih =>
    have hsize : 16 ≤ record.size := Nat.le_add_right _ _
    rw [List.length_cons, totalSize_cons]
    omega

theorem eq_nil_of_totalSize {records : List PackedRecord} (hzero : ¬0 < totalSize records) :
    records = [] := by
  have hlength := length_le_totalSize records
  exact List.length_eq_zero_iff.mp (by omega)
end PackedRecord

theorem load_octetsOf {region : List UInt8} {offset : Nat} {front middle back : List PackedRecord}
    (hload : load region offset (PackedRecord.totalSize (front ++ (middle ++ back))) =
      some (octetsOf (front ++ (middle ++ back)))) :
    load region (offset + PackedRecord.totalSize front) (PackedRecord.totalSize middle) =
      some (octetsOf middle) := by
  rw [octetsOf_append, octetsOf_append] at hload
  obtain ⟨-, hrest⟩ := load_append hload
  rw [length_octetsOf] at hrest
  obtain ⟨hmiddle, -⟩ := load_append hrest
  rwa [length_octetsOf] at hmiddle

theorem RecordsAt.load_octetsOf {region : List UInt8} {offset : Nat} {records : List PackedRecord}
    (hrecords : RecordsAt region offset records) (hle : offset ≤ region.length) :
    load region offset (PackedRecord.totalSize records) = some (octetsOf records) := by
  induction records generalizing offset with
  | nil =>
    rw [PackedRecord.totalSize_nil, load, if_pos (by omega), List.take_zero]
    rfl
  | cons record rest ih =>
    obtain ⟨hhead, -, htail⟩ := hrecords
    exact load_concat hhead (ih htail (load_eq_some_iff.mp hhead).1)

structure TableWriter.Wrote (writer : TableWriter) (atoms : Nat → Nat) (start count : Nat)
    (written placed : List PackedRecord) : Prop where
  atoms : IsAtoms writer.tableSection (slot count)
    (placeRecords atoms (4 * slot count) placed)
  file : writer.file.Holds (start + 4 * slot count) (octetsOf written)
  offset : writer.offset = start + 4 * slot count + PackedRecord.totalSize written
  recordsCount : writer.recordsCount = placed.length

namespace TableWriter.Wrote
variable {writer : TableWriter} {atoms : Nat → Nat} {start count : Nat}
  {written placed : List PackedRecord}

theorem write (hwrote : writer.Wrote atoms start count written placed)
    {records : List PackedRecord}
    (hlt : start + 4 * slot count + PackedRecord.totalSize (written ++ records) < 2 ^ 32) :
    TableWriter.Wrote
      { writer with
        file := writer.file.write writer.offset (octetsOf records)
        offset := wrap32 (writer.offset + PackedRecord.totalSize records) }
      atoms start count (written ++ records) placed where
  atoms := hwrote.atoms
  file := by
    rw [octetsOf_append, FileImage.holds_append, length_octetsOf, hwrote.offset]
    refine ⟨?_, FileImage.holds_write⟩
    apply hwrote.file.write_of_disjoint
    left
    rw [length_octetsOf]
  offset := by
    rw [PackedRecord.totalSize_append, ← Nat.add_assoc] at hlt ⊢
    rw [← hwrote.offset] at hlt ⊢
    exact wrap32_of_lt hlt
  recordsCount := hwrote.recordsCount

theorem place (hwrote : writer.Wrote atoms start count written placed) {record : PackedRecord}
    (hnumber : record.number.toNat < count)
    (hlt : start + 4 * slot count + PackedRecord.totalSize (placed ++ [record]) < 2 ^ 32) :
    ∃ tableSection,
      WriteSection.put writer.tableSection (Table.slotOffset record.number)
        (4 * slot count + PackedRecord.totalSize placed) = .ok tableSection ∧
      TableWriter.Wrote
        { writer with
          tableSection := tableSection
          recordsCount := wrap32 (writer.recordsCount + 1) }
        atoms start count written (placed ++ [record]) := by
  have hslots : Table.offsetRecordNumbers + 4 * count < 2 ^ 32 := by
    rw [← four_mul_slot]
    omega
  rw [PackedRecord.totalSize_append] at hlt
  obtain ⟨tableSection, hput, hatoms⟩ := hwrote.atoms.put_eq_ok
    (slot record.number.toNat) (4 * slot count + PackedRecord.totalSize placed)
    (by rw [slot, slot]; omega) (by omega) (by omega)
  have hlength := PackedRecord.length_le_totalSize placed
  refine ⟨tableSection, ?_, ?_⟩
  · rw [slotOffset_eq hnumber hslots, ← four_mul_slot]
    exact hput
  · exact
      { atoms := by
          rw [placeRecords_append]
          exact hatoms
        file := hwrote.file
        offset := hwrote.offset
        recordsCount := by
          rw [hwrote.recordsCount, List.length_append, List.length_singleton]
          apply wrap32_of_lt
          rw [PackedRecord.totalSize_cons] at hlt
          have hsize : 16 ≤ record.size := Nat.le_add_right _ _
          omega }
end TableWriter.Wrote

namespace RecordCopier
/-- The old records can be read, and there is space for those that are kept. -/
structure Copyable (recordsSection : List UInt8) (deletedSet : Std.ExtTreeSet UInt32)
    (start count : Nat) (old : List PackedRecord) : Prop where
  load_eq : load recordsSection 0 (PackedRecord.totalSize old) = some (octetsOf old)
  old_lt : PackedRecord.totalSize old < 2 ^ 32
  number_lt : ∀ record ∈ keptRecords deletedSet old, record.number.toNat < count
  kept_lt : start + 4 * slot count +
    PackedRecord.totalSize (keptRecords deletedSet old) < 2 ^ 32

/-- The records in front of the block have been copied, and those in the block are to be. -/
structure Copied (copier : RecordCopier) (deletedSet : Std.ExtTreeSet UInt32)
    (atoms : Nat → Nat) (start count : Nat) (front block : List PackedRecord) : Prop where
  block_kept : keptRecords deletedSet block = block
  wrote : copier.toTableWriter.Wrote atoms start count (keptRecords deletedSet front)
    (keptRecords deletedSet front ++ block)
  readOffset : copier.readOffset = PackedRecord.totalSize (front ++ block)
  writeOffset : copier.writeOffset =
    4 * slot count + PackedRecord.totalSize (keptRecords deletedSet front ++ block)
  blockStart : copier.blockStart = PackedRecord.totalSize front
  blockSize : copier.blockSize = PackedRecord.totalSize block

variable {recordsSection : List UInt8} {deletedSet : Std.ExtTreeSet UInt32} {atoms : Nat → Nat}
  {start count : Nat} {old front block back : List PackedRecord} {copier : RecordCopier}

theorem keptRecords_append (records records' : List PackedRecord) :
    keptRecords deletedSet (records ++ records') =
      keptRecords deletedSet records ++ keptRecords deletedSet records' :=
  List.filter_append _ _

/-- The part of the old records that has been read takes less space than there is. -/
theorem Copyable.front_lt (hcopyable : Copyable recordsSection deletedSet start count old)
    (hold : old = front ++ back) :
    PackedRecord.totalSize front < 2 ^ 32 ∧
      start + 4 * slot count + PackedRecord.totalSize (keptRecords deletedSet front) < 2 ^ 32 := by
  have hlt := hcopyable.old_lt
  have hkept := hcopyable.kept_lt
  rw [hold, PackedRecord.totalSize_append] at hlt
  rw [hold, keptRecords_append, PackedRecord.totalSize_append] at hkept
  omega

theorem writeBlock_spec (hcopyable : Copyable recordsSection deletedSet start count old)
    (hold : old = front ++ (block ++ back))
    (hcopied : copier.Copied deletedSet atoms start count front block) :
    ∃ writer, copier.writeBlock recordsSection = .ok writer ∧
      writer.Wrote atoms start count (keptRecords deletedSet (front ++ block))
        (keptRecords deletedSet (front ++ block)) := by
  obtain ⟨hread, hwritten⟩ := hcopyable.front_lt (show old = (front ++ block) ++ back by simp [hold])
  rw [keptRecords_append, hcopied.block_kept] at hwritten ⊢
  rw [PackedRecord.totalSize_append] at hread
  rw [writeBlock, hcopied.blockSize, hcopied.blockStart]
  by_cases hpos : 0 < PackedRecord.totalSize block
  · have hload := hcopyable.load_eq
    rw [hold] at hload
    have hblock := load_octetsOf hload
    rw [Nat.zero_add] at hblock
    rw [if_pos hpos, ReadSection.range_eq_ok hread hblock]
    exact ⟨_, rfl, hcopied.wrote.write hwritten⟩
  · have hwrote := hcopied.wrote
    rw [if_neg hpos]
    rw [PackedRecord.eq_nil_of_totalSize hpos, List.append_nil] at hwrote ⊢
    exact ⟨_, rfl, hwrote⟩

theorem copyRecord_spec (hcopyable : Copyable recordsSection deletedSet start count old)
    {record : PackedRecord} (hold : old = front ++ (block ++ record :: back))
    (hcopied : copier.Copied deletedSet atoms start count front block) :
    ∃ copier' front' block', copier.copyRecord recordsSection deletedSet = .ok copier' ∧
      copier'.Copied deletedSet atoms start count front' block' ∧
      front' ++ block' = front ++ block ++ [record] := by
  have hold' : old = (front ++ block) ++ ([record] ++ back) := by simp [hold]
  have hold'' : old = (front ++ block ++ [record]) ++ back := by simp [hold]
  obtain ⟨hread, hwritten⟩ := hcopyable.front_lt hold''
  rw [PackedRecord.totalSize_concat] at hread
  have hload := hcopyable.load_eq
  rw [hold'] at hload
  have hrecord := load_octetsOf hload
  rw [Nat.zero_add, PackedRecord.totalSize_cons, PackedRecord.totalSize_nil, Nat.add_zero,
    octetsOf, List.flatMap_singleton] at hrecord
  have hreadOffset : wrap32 (PackedRecord.totalSize (front ++ block) + record.size) =
      PackedRecord.totalSize (front ++ block ++ [record]) := by
    rw [wrap32_of_lt hread, PackedRecord.totalSize_concat]
  rw [copyRecord, hcopied.readOffset, PackedRecord.readSection_eq_ok hread hrecord]
  simp only [bind, Except.bind, hreadOffset]
  by_cases hdeleted : record.number ∈ deletedSet
  · have hskip : keptRecords deletedSet [record] = [] := by simp [keptRecords, hdeleted]
    obtain ⟨writer, hwriteBlock, hwrote⟩ := writeBlock_spec hcopyable hold hcopied
    rw [if_pos (Std.ExtTreeSet.contains_iff_mem.mpr hdeleted), hwriteBlock]
    refine ⟨_, front ++ block ++ [record], [], rfl, ?_, List.append_nil _⟩
    exact
      { block_kept := rfl
        wrote := by
          rw [keptRecords_append, hskip, List.append_nil, List.append_nil]
          exact hwrote
        readOffset := by rw [List.append_nil]
        writeOffset := by
          rw [keptRecords_append, hskip, List.append_nil, List.append_nil, keptRecords_append,
            hcopied.block_kept]
          exact hcopied.writeOffset
        blockStart := rfl
        blockSize := rfl }
  · have hkeep : keptRecords deletedSet [record] = [record] := by simp [keptRecords, hdeleted]
    have hmem : record ∈ keptRecords deletedSet old := by
      rw [hold', keptRecords_append, keptRecords_append [record], hkeep]
      simp
    rw [keptRecords_append, keptRecords_append, hcopied.block_kept, hkeep] at hwritten
    obtain ⟨tableSection, hput, hwrote⟩ :=
      hcopied.wrote.place (hcopyable.number_lt record hmem) hwritten
    rw [if_neg (fun h => hdeleted (Std.ExtTreeSet.contains_iff_mem.mp h)), hcopied.writeOffset,
      hput]
    refine ⟨_, front, block ++ [record], rfl, ?_, (List.append_assoc _ _ _).symm⟩
    rw [PackedRecord.totalSize_concat, ← Nat.add_assoc] at hwritten
    rw [PackedRecord.totalSize_append] at hread
    have hblockSize : wrap32 (copier.blockSize + record.size) =
        PackedRecord.totalSize (block ++ [record]) := by
      rw [PackedRecord.totalSize_concat, hcopied.blockSize]
      exact wrap32_of_lt (by omega)
    exact
      { block_kept := by rw [keptRecords_append, hcopied.block_kept, hkeep]
        wrote := by
          rw [← List.append_assoc]
          exact hwrote
        readOffset := by rw [← List.append_assoc]
        writeOffset := by
          rw [← List.append_assoc,
            PackedRecord.totalSize_concat (keptRecords deletedSet front ++ block), ← Nat.add_assoc]
          exact wrap32_of_lt (by omega)
        blockStart := hcopied.blockStart
        blockSize := hblockSize }

theorem copyRecords_spec (hcopyable : Copyable recordsSection deletedSet start count old)
    (hold : old = front ++ (block ++ back))
    (hcopied : copier.Copied deletedSet atoms start count front block) :
    ∃ copier' front' block',
      copyRecords recordsSection deletedSet back.length copier = .ok copier' ∧
      copier'.Copied deletedSet atoms start count front' block' ∧ old = front' ++ block' := by
  induction back generalizing copier front block with
  | nil =>
    rw [List.append_nil] at hold
    exact ⟨copier, front, block, rfl, hcopied, hold⟩
  | cons record back ih =>
    obtain ⟨next, front', block', hcopy, hnext, heq⟩ := copyRecord_spec hcopyable hold hcopied
    have hold' : old = front' ++ (block' ++ back) := by
      rw [← List.append_assoc, heq, hold]
      simp
    obtain ⟨copier', front'', block'', hrest, hcopied', hold''⟩ := ih hold' hnext
    refine ⟨copier', front'', block'', ?_, hcopied', hold''⟩
    rw [List.length_cons, copyRecords, hcopy]
    exact hrest
end RecordCopier

theorem Table.Represents.getRecordsSection_eq_ok {table : Table} {contents : TableContents}
    (htable : table.Represents contents) :
    ∃ recordsSection, table.getRecordsSection = .ok recordsSection ∧
      load recordsSection 0 (PackedRecord.totalSize contents.records) =
        some (octetsOf contents.records) := by
  obtain ⟨size, -, hend, hsize⟩ := htable.region.size
  have hle : contents.recordsOffset ≤ table.tableSection.length := by
    rw [TableContents.recordsEnd] at hend
    omega
  refine ⟨table.tableSection.drop contents.recordsOffset, ?_, ?_⟩
  · rw [Table.getRecordsSection, ReadSection.at_eq_ok (by decide) htable.region.offsetRecords]
    simp only [bind, Except.bind, ReadSection.subsection]
    rw [if_neg (by omega)]
  · rw [load_drop _ _ _ _ hle, Nat.add_zero]
    exact htable.region.records.load_octetsOf hle

namespace TableWriter
variable {writer : TableWriter} {atoms : Nat → Nat} {start count : Nat}

theorem copyTable_spec {table : Table} {contents : TableContents}
    {deletedSet : Std.ExtTreeSet UInt32} (htable : table.Represents contents)
    (hnumber : ∀ record ∈ keptRecords deletedSet contents.records, record.number.toNat < count)
    (hlt : start + 4 * slot count +
      PackedRecord.totalSize (keptRecords deletedSet contents.records) < 2 ^ 32)
    (hwrote : writer.Wrote atoms start count [] []) :
    ∃ writer', writer.copyTable table deletedSet (4 * slot count) = .ok writer' ∧
      writer'.Wrote atoms start count (keptRecords deletedSet contents.records)
        (keptRecords deletedSet contents.records) := by
  obtain ⟨recordsSection, hsection, hload⟩ := htable.getRecordsSection_eq_ok
  have hend := htable.valid.recordsEnd_lt
  rw [TableContents.recordsEnd] at hend
  have hcopyable : RecordCopier.Copyable recordsSection deletedSet start count contents.records :=
    { load_eq := hload
      old_lt := by omega
      number_lt := hnumber
      kept_lt := hlt }
  have hcopied : RecordCopier.Copied ⟨writer, 0, 4 * slot count, 0, 0⟩ deletedSet atoms start count
      [] [] :=
    { block_kept := rfl
      wrote := hwrote
      readOffset := rfl
      writeOffset := rfl
      blockStart := rfl
      blockSize := rfl }
  obtain ⟨copier, front, block, hcopy, hcopied, hold⟩ :=
    RecordCopier.copyRecords_spec hcopyable
      (show contents.records = [] ++ ([] ++ contents.records) from rfl) hcopied
  obtain ⟨writer', hblock, hwrote'⟩ :=
    RecordCopier.writeBlock_spec hcopyable
      (show contents.records = front ++ (block ++ []) by rw [List.append_nil, hold]) hcopied
  refine ⟨writer', ?_, ?_⟩
  · rw [copyTable, hsection, htable.header.1]
    simp only [bind, Except.bind, hcopy]
    exact hblock
  · rw [hold]
    exact hwrote'

theorem writeInserted_spec (entries : List (UInt32 × PackedRecord)) {written : List PackedRecord}
    (hnumber : ∀ entry ∈ entries, entry.2.number = entry.1 ∧ entry.1.toNat < count)
    (hlt : start + 4 * slot count +
      PackedRecord.totalSize (written ++ entries.map Prod.snd) < 2 ^ 32)
    (hwrote : writer.Wrote atoms start count written written) :
    ∃ writer', writer.writeInserted start entries = .ok writer' ∧
      writer'.Wrote atoms start count (written ++ entries.map Prod.snd)
        (written ++ entries.map Prod.snd) := by
  induction entries generalizing writer written with
  | nil =>
    rw [List.map_nil, List.append_nil]
    exact ⟨writer, rfl, hwrote⟩
  | cons entry rest ih =>
    obtain ⟨recordNumber, record⟩ := entry
    obtain ⟨heq, hcount⟩ := hnumber _ List.mem_cons_self
    simp only [List.map_cons] at hlt ⊢
    rw [List.append_cons] at hlt ⊢
    have hrecord : start + 4 * slot count +
        PackedRecord.totalSize (written ++ [record]) < 2 ^ 32 := by
      rw [PackedRecord.totalSize_append _ (rest.map Prod.snd)] at hlt
      omega
    obtain ⟨tableSection, hput, hplaced⟩ := hwrote.place (heq ▸ hcount) hrecord
    have hnext := hplaced.write hrecord
    have hoffset : wrap32 (writer.offset + 2 ^ 32 - start) =
        4 * slot count + PackedRecord.totalSize written := by
      rw [PackedRecord.totalSize_concat] at hrecord
      rw [wrap32, hwrote.offset]
      omega
    obtain ⟨writer', hrest, hwrote'⟩ :=
      ih (fun other hother => hnumber other (List.mem_cons_of_mem _ hother)) hlt hnext
    refine ⟨writer', ?_, hwrote'⟩
    rw [writeInserted, hoffset, ← show record.number = recordNumber from heq, hput]
    simp only [octetsOf, List.flatMap_singleton, PackedRecord.totalSize_cons,
      PackedRecord.totalSize_nil, Nat.add_zero] at hrest
    exact hrest
end TableWriter
end SecurityFramework.Filedb
