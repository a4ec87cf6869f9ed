import SecurityFramework.Filedb.ModifiedTable

/-! # The records of a modified table -/

namespace SecurityFramework.Filedb
namespace ModifiedTable
def base (m : ModifiedTable) (recordNumber : UInt32) : Option PackedRecord :=
  m.table.bind fun table => (table.getRecordSection recordNumber).toOption

def visible (m : ModifiedTable) (recordNumber : UInt32) : Option PackedRecord :=
  match m.insertedMap[recordNumber]? with
  | some record => some record
  | none => if recordNumber ∈ m.deletedSet then none else m.base recordNumber

/-- No record has the number, and none has had it since the last commit. -/
structure Fresh (m : ModifiedTable) (recordNumber : UInt32) : Prop where
  base : m.base recordNumber = none
  inserted : m.insertedMap[recordNumber]? = none

structure Free (m : ModifiedTable) (free : List UInt32) : Prop where
  nodup : free.Nodup
  fresh : ∀ recordNumber ∈ free, m.Fresh recordNumber
  head : m.table = none → m.freeListHead = 0 ∧ free = []
  list : ∀ table, m.table = some table → FreeList table.tableSection m.freeListHead free
  lt : ∀ table contents, m.table = some table → table.Represents contents →
    ∀ recordNumber ∈ free, recordNumber.toNat < contents.recordNumberCount

structure Valid (m : ModifiedTable) : Prop where
  table : ∀ table, m.table = some table →
    ∃ contents, table.Represents contents ∧
      contents.recordNumberCount ≤ m.recordNumberCount.toNat
  inserted : ∀ recordNumber (record : PackedRecord), m.insertedMap[recordNumber]? = some record →
    record.number = recordNumber ∧ record.size % 4 = 0 ∧ record.size < 2 ^ 32
  replaced : ∀ recordNumber ∈ m.insertedMap,
    recordNumber ∈ m.deletedSet ∨ m.base recordNumber = none
  free : ∃ free, m.Free free
  fresh_of_le : ∀ recordNumber, m.recordNumberCount ≤ recordNumber → m.Fresh recordNumber

def Available (m : ModifiedTable) (recordNumber : UInt32) : Prop :=
  (∃ free, m.Free free ∧ recordNumber ∈ free) ∨ m.recordNumberCount ≤ recordNumber
end ModifiedTable

theorem FreeList.eq_nil {region : List UInt8} {head : Nat} {free : List UInt32}
    (hfree : FreeList region head free) (hhead : head = 0) : free = [] := by
  cases free with
  | nil => rfl
  | cons recordNumber rest =>
    have hzero : freeLink recordNumber = 0 := hfree.1.symm.trans hhead
    exact absurd hzero (Nat.succ_ne_zero _)

theorem FreeList.unique {region : List UInt8} {head : Nat} {free free' : List UInt32}
    (hfree : FreeList region head free) (hfree' : FreeList region head free') : free = free' := by
  induction free generalizing head free' with
  | nil => exact (hfree'.eq_nil hfree).symm
  | cons recordNumber rest ih =>
    obtain ⟨hhead, next, hnext, hrest⟩ := hfree
    cases free' with
    | nil =>
      have hzero : freeLink recordNumber = 0 := hhead.symm.trans hfree'
      exact absurd hzero (Nat.succ_ne_zero _)
    | cons recordNumber' rest' =>
      obtain ⟨hhead', next', hnext', hrest'⟩ := hfree'
      have hlink := hhead.symm.trans hhead'
      rw [freeLink, freeLink] at hlink
      have hnumber : recordNumber = recordNumber' := UInt32.toNat_inj.mp (by omega)
      subst hnumber
      rw [hnext] at hnext'
      cases hnext'
      rw [ih hrest hrest']

namespace ModifiedTable
variable {m : ModifiedTable}

theorem Free.unique {free free' : List UInt32} (hfree : m.Free free) (hfree' : m.Free free') :
    free = free' := by
  cases htable : m.table with
  | none => rw [(hfree.head htable).2, (hfree'.head htable).2]
  | some table => exact (hfree.list table htable).unique (hfree'.list table htable)

theorem Free.available_iff {free : List UInt32} (hfree : m.Free free) (recordNumber : UInt32) :
    m.Available recordNumber ↔ recordNumber ∈ free ∨ m.recordNumberCount ≤ recordNumber := by
  constructor
  · intro havailable
    cases havailable with
    | inl hmem =>
      obtain ⟨other, hother, hmem⟩ := hmem
      rw [hother.unique hfree] at hmem
      exact Or.inl hmem
    | inr hle => exact Or.inr hle
  · intro havailable
    cases havailable with
    | inl hmem => exact Or.inl ⟨free, hfree, hmem⟩
    | inr hle => exact Or.inr hle

theorem Free.eq_nil {free : List UInt32} (hfree : m.Free free) (hhead : m.freeListHead = 0) :
    free = [] := by
  cases htable : m.table with
  | none => exact (hfree.head htable).2
  | some table => exact (hfree.list table htable).eq_nil hhead

variable {recordNumber : UInt32} {record : PackedRecord}

theorem Valid.fresh_of_available (hm : m.Valid) (havailable : m.Available recordNumber) :
    m.Fresh recordNumber := by
  cases havailable with
  | inl hmem =>
    obtain ⟨free, hfree, hmem⟩ := hmem
    exact hfree.fresh recordNumber hmem
  | inr hle => exact hm.fresh_of_le recordNumber hle

theorem Fresh.visible (hfresh : m.Fresh recordNumber) :
    m.visible recordNumber = none := by
  rw [ModifiedTable.visible, hfresh.inserted]
  simp only [hfresh.base, ite_self]

structure SameRecords (m m' : ModifiedTable) : Prop where
  table : m'.table = m.table
  deletedSet : m'.deletedSet = m.deletedSet
  insertedMap : m'.insertedMap = m.insertedMap
  recordNumberCount : m'.recordNumberCount = m.recordNumberCount
  freeListHead : m'.freeListHead = m.freeListHead

theorem SameRecords.refl (m : ModifiedTable) : SameRecords m m := ⟨rfl, rfl, rfl, rfl, rfl⟩

theorem sameRecords_modifyTable (m : ModifiedTable) : SameRecords m m.modifyTable := by
  rw [modifyTable]
  split
  case isTrue => exact .refl m
  case isFalse => exact ⟨rfl, rfl, rfl, rfl, rfl⟩

namespace SameRecords
variable {m' : ModifiedTable}

theorem indexMap (hsame : SameRecords m m') (indexMap : List DbMutableIndex) :
    SameRecords m { m' with indexMap := indexMap } :=
  ⟨hsame.table, hsame.deletedSet, hsame.insertedMap, hsame.recordNumberCount, hsame.freeListHead⟩

theorem base_eq (hsame : SameRecords m m') (recordNumber : UInt32) :
    m'.base recordNumber = m.base recordNumber := by
  rw [base, base, hsame.table]

theorem visible_eq (hsame : SameRecords m m') (recordNumber : UInt32) :
    m'.visible recordNumber = m.visible recordNumber := by
  rw [visible, visible, hsame.insertedMap, hsame.deletedSet, hsame.base_eq]

theorem fresh_iff (hsame : SameRecords m m') (recordNumber : UInt32) :
    m'.Fresh recordNumber ↔ m.Fresh recordNumber := by
  constructor
  · intro hfresh
    exact ⟨hsame.base_eq recordNumber ▸ hfresh.base, hsame.insertedMap ▸ hfresh.inserted⟩
  · intro hfresh
    exact ⟨(hsame.base_eq recordNumber).trans hfresh.base, by
      rw [hsame.insertedMap]
      exact hfresh.inserted⟩

theorem free_iff (hsame : SameRecords m m') (free : List UInt32) : m'.Free free ↔ m.Free free := by
  constructor
  · intro hfree
    exact ⟨hfree.nodup, fun n hn => (hsame.fresh_iff n).mp (hfree.fresh n hn),
      hsame.table ▸ hsame.freeListHead ▸ hfree.head, hsame.table ▸ hsame.freeListHead ▸ hfree.list,
      hsame.table ▸ hfree.lt⟩
  · intro hfree
    exact ⟨hfree.nodup, fun n hn => (hsame.fresh_iff n).mpr (hfree.fresh n hn),
      by rw [hsame.table, hsame.freeListHead]; exact hfree.head,
      by rw [hsame.table, hsame.freeListHead]; exact hfree.list,
      by rw [hsame.table]; exact hfree.lt⟩

theorem valid (hsame : SameRecords m m') (hm : m.Valid) : m'.Valid where
  table := by
    rw [hsame.table, hsame.recordNumberCount]
    exact hm.table
  inserted := by
    rw [hsame.insertedMap]
    exact hm.inserted
  replaced := by
    rw [hsame.insertedMap, hsame.deletedSet]
    intro n hn
    rw [hsame.base_eq]
    exact hm.replaced n hn
  free := by
    obtain ⟨free, hfree⟩ := hm.free
    exact ⟨free, (hsame.free_iff free).mpr hfree⟩
  fresh_of_le := by
    rw [hsame.recordNumberCount]
    exact fun n hle => (hsame.fresh_iff n).mpr (hm.fresh_of_le n hle)

theorem available_iff (hsame : SameRecords m m') (recordNumber : UInt32) :
    m'.Available recordNumber ↔ m.Available recordNumber := by
  simp only [Available, hsame.free_iff, hsame.recordNumberCount]
end SameRecords

structure NextNumber (m m' : ModifiedTable) (recordNumber : UInt32) : Prop where
  eq : m' = { m with
    recordNumberCount := m'.recordNumberCount, freeListHead := m'.freeListHead }
  valid : m'.Valid
  available : m.Available recordNumber
  notAvailable : ¬m'.Available recordNumber
  of_available : ∀ other, m'.Available other → m.Available other

def HasNextNumber (m : ModifiedTable) : Prop :=
  m.freeListHead = 0 → m.recordNumberCount + 1 ≠ 0

theorem nextRecordNumber_of_free (hm : m.Valid) (hhead : m.freeListHead ≠ 0) :
    ∃ recordNumber m', m.nextRecordNumber = .ok (recordNumber, m') ∧
      NextNumber m m' recordNumber := by
  obtain ⟨free, hfree⟩ := hm.free
  cases htable : m.table with
  | none => exact absurd (hfree.head htable).1 hhead
  | some table =>
    obtain ⟨contents, hcontents, hcount⟩ := hm.table table htable
    have hlist := hfree.list table htable
    cases free with
    | nil => exact absurd hlist hhead
    | cons recordNumber rest =>
      have hlt := hfree.lt table contents htable hcontents
      obtain ⟨next, hpop, hrest⟩ := hcontents.popFreeList_eq_ok hlist (hlt _ List.mem_cons_self)
      have hnodup := List.nodup_cons.mp hfree.nodup
      let m' := { m with freeListHead := next }
      have hfresh : ∀ n, m'.Fresh n ↔ m.Fresh n := fun n => ⟨fun h => ⟨h.1, h.2⟩, fun h => ⟨h.1, h.2⟩⟩
      have hfree' : m'.Free rest :=
        { nodup := hnodup.2
          fresh := fun n hn => (hfresh n).mpr (hfree.fresh n (List.mem_cons_of_mem _ hn))
          head := fun hnone => by
            rw [htable] at hnone
            cases hnone
          list := fun other hother => by
            rw [htable] at hother
            cases hother
            exact hrest
          lt := fun other otherContents hother hrepresents n hn =>
            hfree.lt other otherContents hother hrepresents n (List.mem_cons_of_mem _ hn) }
      refine ⟨recordNumber, m', ?_, ?_⟩
      · rw [nextRecordNumber, if_pos hhead, htable]
        simp only [hpop, m', htable]
      · exact
          { eq := rfl
            valid :=
              { table := hm.table
                inserted := hm.inserted
                replaced := hm.replaced
                free := ⟨rest, hfree'⟩
                fresh_of_le := fun n hle => (hfresh n).mpr (hm.fresh_of_le n hle) }
            available := Or.inl ⟨_, hfree, List.mem_cons_self⟩
            notAvailable := by
              rw [hfree'.available_iff]
              intro havailable
              cases havailable with
              | inl hmem => exact hnodup.1 hmem
              | inr hle =>
                have hle : m.recordNumberCount.toNat ≤ recordNumber.toNat :=
                  UInt32.le_iff_toNat_le.mp hle
                have hrecord := hlt _ List.mem_cons_self
                omega
            of_available := fun n => by
              rw [hfree'.available_iff, hfree.available_iff]
              exact Or.imp_left (List.mem_cons_of_mem _) }

theorem nextRecordNumber_of_not_free (hm : m.Valid) (hhead : m.freeListHead = 0)
    (hcount : m.recordNumberCount + 1 ≠ 0) :
    ∃ recordNumber m', m.nextRecordNumber = .ok (recordNumber, m') ∧
      NextNumber m m' recordNumber := by
  obtain ⟨free, hfree⟩ := hm.free
  obtain rfl := hfree.eq_nil hhead
  let m' := { m with recordNumberCount := m.recordNumberCount + 1 }
  have hsucc : (m.recordNumberCount + 1).toNat = m.recordNumberCount.toNat + 1 := by
    have hsum : (m.recordNumberCount + 1).toNat =
        (m.recordNumberCount.toNat + 1) % 4294967296 := by simp
    have hlt := m.recordNumberCount.toNat_lt
    have hne : (m.recordNumberCount + 1).toNat ≠ 0 := by
      intro hzero
      exact hcount (UInt32.toNat_inj.mp hzero)
    omega
  have hle : ∀ n, m.recordNumberCount + 1 ≤ n → m.recordNumberCount ≤ n := by
    intro n hn
    have hn : (m.recordNumberCount + 1).toNat ≤ n.toNat := UInt32.le_iff_toNat_le.mp hn
    exact UInt32.le_iff_toNat_le.mpr (by omega)
  have hfresh : ∀ n, m'.Fresh n ↔ m.Fresh n := fun n => ⟨fun h => ⟨h.1, h.2⟩, fun h => ⟨h.1, h.2⟩⟩
  have hfree' : m'.Free [] := ⟨hfree.nodup, fun _ hn => (by cases hn), hfree.head, hfree.list,
    hfree.lt⟩
  refine ⟨m.recordNumberCount, m', ?_, ?_⟩
  · rw [nextRecordNumber, if_neg (not_not.mpr hhead)]
  · exact
      { eq := rfl
        valid :=
          { table := fun table htable => by
              obtain ⟨contents, hcontents, hcountLe⟩ := hm.table table htable
              refine ⟨contents, hcontents, ?_⟩
              show contents.recordNumberCount ≤ (m.recordNumberCount + 1).toNat
              omega
            inserted := hm.inserted
            replaced := hm.replaced
            free := ⟨[], hfree'⟩
            fresh_of_le := fun n hn => (hfresh n).mpr (hm.fresh_of_le n (hle n hn)) }
        available := Or.inr (UInt32.le_refl _)
        notAvailable := by
          rw [hfree'.available_iff]
          intro havailable
          cases havailable with
          | inl hmem => cases hmem
          | inr hlast =>
            have hlast : (m.recordNumberCount + 1).toNat ≤ m.recordNumberCount.toNat :=
              UInt32.le_iff_toNat_le.mp hlast
            omega
        of_available := fun n => by
          rw [hfree'.available_iff, hfree.available_iff]
          exact Or.imp_right (hle n) }

theorem nextRecordNumber_spec (hm : m.Valid) (hnext : m.HasNextNumber) :
    ∃ recordNumber m', m.nextRecordNumber = .ok (recordNumber, m') ∧
      NextNumber m m' recordNumber := by
  by_cases hhead : m.freeListHead = 0
  · exact nextRecordNumber_of_not_free hm hhead (hnext hhead)
  · exact nextRecordNumber_of_free hm hhead

section
variable {deletedSet : Std.ExtTreeSet UInt32} {insertedMap : Std.ExtTreeMap UInt32 PackedRecord}

variable (deletedSet) in
theorem Free.of_maps {free : List UInt32} (hfree : m.Free free)
    (havailable : ∀ n ∈ free, insertedMap[n]? = none) :
    Free { m with deletedSet := deletedSet, insertedMap := insertedMap } free where
  nodup := hfree.nodup
  fresh := fun n hn => ⟨(hfree.fresh n hn).base, havailable n hn⟩
  head := hfree.head
  list := hfree.list
  lt := hfree.lt

theorem Valid.of_maps (hm : m.Valid)
    (hinserted : ∀ n (record : PackedRecord), insertedMap[n]? = some record →
      record.number = n ∧ record.size % 4 = 0 ∧ record.size < 2 ^ 32)
    (hreplaced : ∀ n ∈ insertedMap, n ∈ deletedSet ∨ m.base n = none)
    (havailable : ∀ n, m.Available n → insertedMap[n]? = none) :
    Valid { m with deletedSet := deletedSet, insertedMap := insertedMap } where
  table := hm.table
  inserted := hinserted
  replaced := hreplaced
  free := by
    obtain ⟨free, hfree⟩ := hm.free
    exact ⟨free, hfree.of_maps _ fun n hn => havailable n (Or.inl ⟨free, hfree, hn⟩)⟩
  fresh_of_le := fun n hle =>
    ⟨(hm.fresh_of_le n hle).base, havailable n (Or.inr hle)⟩

theorem Valid.available_of_maps (hm : m.Valid)
    (havailable : ∀ n, m.Available n → insertedMap[n]? = none) {recordNumber : UInt32}
    (hmaps : Available { m with deletedSet := deletedSet, insertedMap := insertedMap }
      recordNumber) : m.Available recordNumber := by
  cases hmaps with
  | inl hmem =>
    obtain ⟨free', hfree', hmem⟩ := hmem
    obtain ⟨free, hfree⟩ := hm.free
    have hsame := hfree.of_maps deletedSet
      fun n hn => havailable n (Or.inl ⟨free, hfree, hn⟩)
    rw [hfree'.unique hsame] at hmem
    exact Or.inl ⟨free, hfree, hmem⟩
  | inr hle => exact Or.inr hle
end

structure Changed (m m' : ModifiedTable) (recordNumber : UInt32) (record : Option PackedRecord) :
    Prop where
  valid : m'.Valid
  table : m'.table = m.table
  isModified : m'.isModified = true
  visible : ∀ n, m'.visible n = if n = recordNumber then record else m.visible n
  of_available : ∀ n, m'.Available n → m.Available n

structure Unchanged (m m' : ModifiedTable) : Prop where
  valid : m'.Valid
  table : m'.table = m.table
  isModified : m'.isModified = true
  visible : ∀ n, m'.visible n = m.visible n
  of_available : ∀ n, m'.Available n → m.Available n

theorem isModified_modifyTable (m : ModifiedTable) : m.modifyTable.isModified = true := by
  rw [modifyTable]
  split
  case isTrue hmodified => exact hmodified
  case isFalse => rfl

theorem SameRecords.unchanged {m' : ModifiedTable} (hsame : SameRecords m m') (hm : m.Valid)
    (hmodified : m'.isModified = true) : Unchanged m m' where
  valid := hsame.valid hm
  table := hsame.table
  isModified := hmodified
  visible := hsame.visible_eq
  of_available := fun n => (hsame.available_iff n).mp

theorem SameRecords.changed {m' m'' : ModifiedTable} {record : Option PackedRecord}
    (hsame : SameRecords m m') (hchanged : Changed m' m'' recordNumber record) :
    Changed m m'' recordNumber record where
  valid := hchanged.valid
  table := hchanged.table.trans hsame.table
  isModified := hchanged.isModified
  visible := fun n => by rw [hchanged.visible, hsame.visible_eq]
  of_available := fun n hn => (hsame.available_iff n).mp (hchanged.of_available n hn)

theorem changed_insert_deletedSet (hm : m.Valid) (hmodified : m.isModified = true)
    (hnone : m.insertedMap[recordNumber]? = none) :
    Changed m { m with deletedSet := m.deletedSet.insert recordNumber } recordNumber none := by
  have havailable : ∀ n, m.Available n → m.insertedMap[n]? = none :=
    fun n hn => (hm.fresh_of_available hn).inserted
  exact
    { valid := hm.of_maps hm.inserted
        (fun n hn => (hm.replaced n hn).imp_left fun hdeleted =>
          Std.ExtTreeSet.mem_insert.mpr (Or.inr hdeleted)) havailable
      table := rfl
      isModified := hmodified
      visible := fun n => by
        simp only [ModifiedTable.visible]
        by_cases hn : n = recordNumber
        · rw [hn, hnone, if_pos rfl]
          simp only [Std.ExtTreeSet.mem_insert_self, if_true]
        · have hmem : n ∈ m.deletedSet.insert recordNumber ↔ n ∈ m.deletedSet := by
            simp [Std.ExtTreeSet.mem_insert, Ne.symm hn]
          rw [if_neg hn]
          simp only [hmem]
          rfl
      of_available := fun n hn => hm.available_of_maps havailable hn }

theorem changed_erase_insertedMap (hm : m.Valid) (hmodified : m.isModified = true)
    (hmem : recordNumber ∈ m.insertedMap) :
    Changed m { m with insertedMap := m.insertedMap.erase recordNumber } recordNumber none := by
  have herase : ∀ (n : UInt32) (record : PackedRecord),
      (m.insertedMap.erase recordNumber)[n]? = some record →
      m.insertedMap[n]? = some record := by
    intro n record hsome
    rw [Std.ExtTreeMap.getElem?_erase] at hsome
    split at hsome
    case isTrue => cases hsome
    case isFalse => exact hsome
  have havailable : ∀ n, m.Available n → (m.insertedMap.erase recordNumber)[n]? = none := by
    intro n hn
    rw [Std.ExtTreeMap.getElem?_erase, (hm.fresh_of_available hn).inserted, ite_self]
  exact
    { valid := hm.of_maps
        (fun n (record : PackedRecord) hsome => hm.inserted n record (herase n record hsome))
        (fun n hn => hm.replaced n (Std.ExtTreeMap.mem_erase.mp hn).2) havailable
      table := rfl
      isModified := hmodified
      visible := fun n => by
        simp only [ModifiedTable.visible, Std.ExtTreeMap.getElem?_erase]
        by_cases hn : n = recordNumber
        · have hbase := hm.replaced recordNumber hmem
          rw [hn]
          simp only [Std.compare_self, if_true]
          by_cases hdeleted : recordNumber ∈ m.deletedSet
          · rw [if_pos hdeleted]
          · rw [if_neg hdeleted]
            exact hbase.resolve_left hdeleted
        · have hne : compare recordNumber n ≠ .eq := by
            simp [Ne.symm hn]
          rw [if_neg hne, if_neg hn]
          rfl
      of_available := fun n hn => hm.available_of_maps havailable hn }

theorem changed_insert_insertedMap (hm : m.Valid) (hmodified : m.isModified = true)
    {deletedSet : Std.ExtTreeSet UInt32} (hsize : record.size % 4 = 0 ∧ record.size < 2 ^ 32)
    (hdeleted : ∀ n, n ∈ m.deletedSet → n ∈ deletedSet)
    (hothers : ∀ n, n ≠ record.number → n ∈ deletedSet → n ∈ m.deletedSet)
    (hreplaced : record.number ∈ deletedSet ∨ m.base record.number = none)
    (hnotAvailable : ¬m.Available record.number) :
    Changed m { m with
      deletedSet := deletedSet
      insertedMap := m.insertedMap.insert record.number record } record.number (some record) := by
  have havailable : ∀ n, m.Available n →
      (m.insertedMap.insert record.number record)[n]? = none := by
    intro n hn
    have hne : record.number ≠ n := fun heq => hnotAvailable (heq ▸ hn)
    rw [Std.ExtTreeMap.getElem?_insert, if_neg (by simpa using hne)]
    exact (hm.fresh_of_available hn).inserted
  exact
    { valid := hm.of_maps
        (fun n (other : PackedRecord) hsome => by
          rw [Std.ExtTreeMap.getElem?_insert] at hsome
          split at hsome
          case isTrue heq =>
            cases hsome
            exact ⟨by simpa using heq, hsize⟩
          case isFalse => exact hm.inserted n other hsome)
        (fun n hn => by
          by_cases heq : n = record.number
          · rw [heq]
            exact hreplaced
          · have hmem : n ∈ m.insertedMap := by simpa [Ne.symm heq] using hn
            exact (hm.replaced n hmem).imp_left (hdeleted n))
        havailable
      table := rfl
      isModified := hmodified
      visible := fun n => by
        simp only [ModifiedTable.visible, Std.ExtTreeMap.getElem?_insert]
        by_cases hn : n = record.number
        · rw [hn]
          simp only [Std.compare_self, if_true]
        · have hmem : n ∈ deletedSet ↔ n ∈ m.deletedSet := ⟨hothers n hn, hdeleted n⟩
          rw [if_neg (by simpa using Ne.symm hn), if_neg hn]
          simp only [hmem]
          rfl
      of_available := fun n hn => hm.available_of_maps havailable hn }

/-- A record that there is does not have a number that may still be given. -/
theorem Valid.not_available_of_visible (hm : m.Valid)
    (hvisible : m.visible recordNumber = some record) :
    ¬m.Available recordNumber := by
  intro havailable
  rw [(hm.fresh_of_available havailable).visible] at hvisible
  cases hvisible

variable {Attributes Changes : Type*} {metaRecord : MetaRecord Attributes Changes}

theorem scheduleDeletion_spec (hm : m.Valid) (hmodified : m.isModified = true)
    (recordId : RecordId) :
    match scheduleDeletion recordId m with
    | (.ok (), m') => Changed m m' recordId.recordNumber none
    | (.error _, m') => Unchanged m m' := by
  have hunchanged := (SameRecords.refl m).unchanged hm hmodified
  rw [scheduleDeletion]
  cases hinserted : m.insertedMap[recordId.recordNumber]? with
  | none =>
    have hchanged := changed_insert_deletedSet hm hmodified hinserted
    cases htable : m.table with
    | none => exact hunchanged
    | some table =>
      rw [htable] at hchanged
      by_cases hdeleted : recordId.recordNumber ∈ m.deletedSet
      · simp only [if_pos hdeleted]
        exact hunchanged
      · simp only [if_neg hdeleted]
        exact hchanged
  | some record =>
    by_cases hversion : record.recordId.createVersion = recordId.createVersion
    · simp only [if_neg (not_not.mpr hversion)]
      apply changed_erase_insertedMap hm hmodified
      exact Std.ExtTreeMap.mem_iff_isSome_getElem?.mpr (by rw [hinserted]; rfl)
    · simp only [if_pos hversion]
      exact hunchanged

theorem Unchanged.of_sameRecords {m' m'' : ModifiedTable} (hsame : SameRecords m m')
    (hunchanged : Unchanged m' m'') : Unchanged m m'' where
  valid := hunchanged.valid
  table := hunchanged.table.trans hsame.table
  isModified := hunchanged.isModified
  visible := fun n => by rw [hunchanged.visible, hsame.visible_eq]
  of_available := fun n hn => (hsame.available_iff n).mp (hunchanged.of_available n hn)

theorem deleteRecord_spec (hm : m.Valid) (recordId : RecordId) :
    match deleteRecord recordId m with
    | (.ok (), m') => Changed m m' recordId.recordNumber none
    | (.error _, m') => Unchanged m m' := by
  have hsame := (sameRecords_modifyTable m).indexMap
    (removeFromIndexes recordId.recordNumber m.modifyTable.indexMap)
  have hspec := scheduleDeletion_spec (hsame.valid hm) m.isModified_modifyTable recordId
  rw [deleteRecord, removeRecord]
  generalize scheduleDeletion recordId _ = outcome at hspec ⊢
  obtain ⟨result, m'⟩ := outcome
  cases result with
  | ok => exact hsame.changed hspec
  | error => exact .of_sameRecords hsame hspec

variable (metaRecord) in
theorem scheduleInsertion_spec (hm : m.Valid) (hmodified : m.isModified = true)
    (hsize : record.size % 4 = 0 ∧ record.size < 2 ^ 32) (hfresh : m.Fresh record.number)
    (hnotAvailable : ¬m.Available record.number) :
    match scheduleInsertion metaRecord record m with
    | (.ok recordId, m') =>
      recordId = record.recordId ∧ Changed m m' record.number (some record)
    | (.error _, m') => Unchanged m m' := by
  rw [scheduleInsertion]
  generalize insertIntoIndexes metaRecord record.number record.body m.indexMap = inserted
  obtain ⟨indexMap, error⟩ := inserted
  have hsame := (SameRecords.refl m).indexMap indexMap
  cases error with
  | some error => exact hsame.unchanged hm hmodified
  | none =>
    refine ⟨rfl, ?_⟩
    have hinsert : m.insertedMap.insertIfNew record.number record =
        m.insertedMap.insert record.number record := by
      apply Std.ExtTreeMap.ext_getElem?
      intro n
      have hnotMem : record.number ∉ m.insertedMap := by
        rw [Std.ExtTreeMap.mem_iff_isSome_getElem?, hfresh.inserted]
        exact Bool.false_ne_true
      rw [Std.ExtTreeMap.getElem?_insertIfNew, Std.ExtTreeMap.getElem?_insert]
      simp only [hnotMem, not_false_eq_true, and_true]
    rw [hinsert]
    apply hsame.changed
    apply changed_insert_insertedMap (hsame.valid hm) hmodified hsize
    · exact fun _ hn => hn
    · exact fun _ _ hn => hn
    · exact Or.inr hfresh.base
    · rw [hsame.available_iff]
      exact hnotAvailable

variable (metaRecord) in
theorem insertRecord_spec (hm : m.Valid) (hnext : m.HasNextNumber) (versionId : UInt32)
    (attributes : Attributes) :
    match insertRecord metaRecord versionId attributes m with
    | (.ok recordId, m') =>
      ∃ body, metaRecord.packRecord attributes = .ok body ∧
        recordId = ⟨recordId.recordNumber, versionId, 0⟩ ∧
        m.Available recordId.recordNumber ∧ ¬m'.Available recordId.recordNumber ∧
        Changed m m' recordId.recordNumber (some ⟨recordId, body.octets⟩)
    | (.error _, m') => Unchanged m m' := by
  have hsame := sameRecords_modifyTable m
  have hmodified := m.isModified_modifyTable
  rw [insertRecord]
  cases hpack : metaRecord.packRecord attributes with
  | error error => exact hsame.unchanged hm hmodified
  | ok body =>
    have hnext' : m.modifyTable.HasNextNumber := by
      rw [HasNextNumber, hsame.freeListHead, hsame.recordNumberCount]
      exact hnext
    obtain ⟨n, next, hnumber, hspec⟩ := nextRecordNumber_spec (hsame.valid hm) hnext'
    have heq := hspec.eq
    have hfresh := (hsame.valid hm).fresh_of_available hspec.available
    have hbase : ∀ k, next.base k = m.modifyTable.base k := fun k => by rw [heq]; rfl
    have hvisible : ∀ k, next.visible k = m.modifyTable.visible k := fun k => by rw [heq]; rfl
    have hfresh' : next.Fresh n :=
      ⟨(hbase n).trans hfresh.base, by rw [heq]; exact hfresh.inserted⟩
    have htable : next.table = m.table := by
      rw [heq]
      exact hsame.table
    have hisModified : next.isModified = true := by
      rw [heq]
      exact hmodified
    have havailable : ∀ k, next.Available k → m.Available k :=
      fun k hk => (hsame.available_iff k).mp (hspec.of_available k hk)
    simp only [hnumber]
    have hrecord := scheduleInsertion_spec metaRecord hspec.valid hisModified
      (body.size_spec ⟨n, versionId, 0⟩) hfresh' hspec.notAvailable
    generalize scheduleInsertion metaRecord _ next = outcome at hrecord ⊢
    obtain ⟨result, m'⟩ := outcome
    cases result with
    | ok recordId =>
      obtain ⟨rfl, hchanged⟩ := hrecord
      refine ⟨body, rfl, rfl, (hsame.available_iff n).mp hspec.available, ?_, ?_⟩
      · exact fun hn => hspec.notAvailable (hchanged.of_available n hn)
      · exact
          { valid := hchanged.valid
            table := hchanged.table.trans htable
            isModified := hchanged.isModified
            visible := fun k => by rw [hchanged.visible, hvisible, hsame.visible_eq]; rfl
            of_available := fun k hk => havailable k (hchanged.of_available k hk) }
    | error =>
      exact
        { valid := hrecord.valid
          table := hrecord.table.trans htable
          isModified := hrecord.isModified
          visible := fun k => by rw [hrecord.visible, hvisible, hsame.visible_eq]
          of_available := fun k hk => havailable k (hrecord.of_available k hk) }

theorem recordToUpdate_eq_ok_iff {recordId : RecordId} :
    m.recordToUpdate recordId = .ok record ↔
      record.recordId.createVersion = recordId.createVersion ∧
        (m.insertedMap[recordId.recordNumber]? = some record ∨
          m.insertedMap[recordId.recordNumber]? = none ∧
            m.base recordId.recordNumber = some record) := by
  have hcheck : ∀ found : PackedRecord,
      (if found.recordId.createVersion ≠ recordId.createVersion then
        Except.error CssmError.recordNotFound else .ok found) = .ok record ↔
      found = record ∧ record.recordId.createVersion = recordId.createVersion := by
    intro found
    split
    case isTrue hne =>
      constructor
      · intro hok
        cases hok
      · intro hboth
        rw [hboth.1] at hne
        exact absurd hboth.2 hne
    case isFalse heq =>
      constructor
      · intro hok
        cases hok
        exact ⟨rfl, not_not.mp heq⟩
      · intro hboth
        rw [hboth.1]
  rw [recordToUpdate, base]
  cases hinserted : m.insertedMap[recordId.recordNumber]? with
  | some found =>
    simp only [bind, Except.bind, hcheck]
    simp [and_comm]
  | none =>
    cases htable : m.table with
    | none => simp [bind, Except.bind]
    | some table =>
      cases hsection : table.getRecordSection recordId.recordNumber with
      | error error => simp [bind, Except.bind, hsection, Except.toOption]
      | ok found =>
        simp only [bind, Except.bind, hsection, hcheck]
        simp [hsection, Except.toOption, and_comm]

theorem visible_of_not_deleted (hfound : m.insertedMap[recordNumber]? = some record ∨
      m.insertedMap[recordNumber]? = none ∧ m.base recordNumber = some record)
    (hkept : ¬(!m.insertedMap.contains recordNumber &&
      m.deletedSet.contains recordNumber) = true) :
    m.visible recordNumber = some record := by
  rw [visible]
  cases hfound with
  | inl hinserted => rw [hinserted]
  | inr hbase =>
    rw [hbase.1]
    simp only [Bool.and_eq_true, Bool.not_eq_true', Std.ExtTreeMap.contains_eq_isSome_getElem?,
      hbase.1, Option.isSome_none, true_and, Std.ExtTreeSet.contains_iff_mem] at hkept
    rw [if_neg hkept]
    exact hbase.2

variable (metaRecord) in
theorem replaceRecord_spec (hm : m.Valid) (hmodified : m.isModified = true)
    {oldRecord newRecord : PackedRecord}
    (hsize : newRecord.size % 4 = 0 ∧ newRecord.size < 2 ^ 32)
    (hold : m.insertedMap[newRecord.number]? = some oldRecord ∨
      m.insertedMap[newRecord.number]? = none ∧ m.base newRecord.number = some oldRecord) :
    match replaceRecord metaRecord oldRecord newRecord m with
    | (.ok recordId, m') =>
      recordId = newRecord.recordId ∧ m.visible newRecord.number = some oldRecord ∧
        Changed m m' newRecord.number (some newRecord)
    | (.error _, m') => Unchanged m m' := by
  have hsame := SameRecords.refl m
  simp only [replaceRecord, removeRecord]
  by_cases hskip : (!m.insertedMap.contains newRecord.number &&
      m.deletedSet.contains newRecord.number) = true
  · rw [if_pos hskip]
    exact hsame.unchanged hm hmodified
  · rw [if_neg hskip]
    generalize insertIntoIndexes metaRecord newRecord.number newRecord.body _ = inserted
    obtain ⟨indexMap, error⟩ := inserted
    cases error with
    | some error => exact (hsame.indexMap _).unchanged hm hmodified
    | none =>
      have hindex := hsame.indexMap indexMap
      have hvisible := visible_of_not_deleted hold hskip
      refine ⟨rfl, hvisible, ?_⟩
      apply hindex.changed
      apply changed_insert_insertedMap (hindex.valid hm) hmodified hsize
      · intro n hn
        split
        case isTrue => exact hn
        case isFalse => exact Std.ExtTreeSet.mem_insert.mpr (Or.inr hn)
      · intro n hne hn
        split at hn
        case isTrue => exact hn
        case isFalse => simpa [Std.ExtTreeSet.mem_insert, Ne.symm hne] using hn
      · cases hold with
        | inl hinserted =>
          have hcontains : newRecord.number ∈ m.insertedMap := by
            rw [Std.ExtTreeMap.mem_iff_isSome_getElem?, hinserted]
            rfl
          rw [if_pos (Std.ExtTreeMap.contains_iff_mem.mpr hcontains), hindex.base_eq]
          exact hm.replaced _ hcontains
        | inr hbase =>
          left
          rw [Std.ExtTreeMap.contains_eq_isSome_getElem?, hbase.1]
          simp
      · rw [hindex.available_iff]
        exact hm.not_available_of_visible hvisible

variable (metaRecord) in
theorem updateRecord_spec (hm : m.Valid) (recordId : RecordId) (changes : Changes) :
    match updateRecord metaRecord recordId changes m with
    | (.ok newRecordId, m') =>
      ∃ oldRecord body, m.visible recordId.recordNumber = some oldRecord ∧
        oldRecord.recordId.createVersion = recordId.createVersion ∧
        metaRecord.updateRecord oldRecord.body changes = .ok body ∧
        newRecordId = { recordId with recordVersion := recordId.recordVersion + 1 } ∧
        Changed m m' recordId.recordNumber (some ⟨newRecordId, body.octets⟩)
    | (.error _, m') => Unchanged m m' := by
  have hsame := sameRecords_modifyTable m
  have hmodified := m.isModified_modifyTable
  have hunchanged := hsame.unchanged hm hmodified
  rw [updateRecord]
  cases hold : m.modifyTable.recordToUpdate recordId with
  | error error => exact hunchanged
  | ok oldRecord =>
    simp only
    cases hbody : metaRecord.updateRecord oldRecord.body changes with
    | error error => exact hunchanged
    | ok body =>
      obtain ⟨hversion, hfound⟩ := recordToUpdate_eq_ok_iff.mp hold
      have hspec := replaceRecord_spec metaRecord (hsame.valid hm) hmodified
        (body.size_spec { recordId with recordVersion := recordId.recordVersion + 1 }) hfound
      simp only
      generalize replaceRecord metaRecord oldRecord _ m.modifyTable = outcome at hspec ⊢
      obtain ⟨result, m'⟩ := outcome
      cases result with
      | ok newRecordId =>
        obtain ⟨rfl, hvisible, hchanged⟩ := hspec
        refine ⟨oldRecord, body, ?_, hversion, hbody, rfl, hsame.changed hchanged⟩
        rw [← hsame.visible_eq]
        exact hvisible
      | error => exact .of_sameRecords hsame hspec
end ModifiedTable
end SecurityFramework.Filedb
