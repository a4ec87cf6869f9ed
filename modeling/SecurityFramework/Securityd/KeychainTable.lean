import Mathlib.Data.List.Nodup
import Mathlib.Tactic.NormNum

/-!
# Items of the keychain

An item has its primary key, the date when it was changed last, the other attributes that its
digest covers, and attributes that are of this device only: the row, the UUID, the persistent
reference, and the binary attributes that are not sent to peers.
-/

namespace SecurityFramework
def persistentRefUUIDBytesLength : Nat := 16

/-- Date attributes are read as the current date where they have no value, the persistent reference
as empty data. -/
structure KeychainItem (κ α : Type*) where
  rowid : Option Int
  primaryKey : κ
  modificationDate : Option ℚ
  tomb : Bool
  contents : α
  itemuuid : Option (List UInt8)
  itempersistentref : List UInt8
  cannotSync : List (Option (List UInt8))
  utomb : Option Bool
  deriving DecidableEq

/-- What depends on a class of items: the digest, the UUID made from a primary key, and the
attributes that a tombstone copies. -/
structure KeychainClass (κ α : Type*) where
  digest : κ → ℚ → Bool → α → List UInt8
  uuidFromPrimaryKey : κ → List UInt8
  tombstoneContents : α → α

structure KeychainEnvironment where
  now : ℚ
  staticPersistentRefsEnabled : Bool
  ckksEnabled : Bool
  createUUID : List UInt8
  createPersistentRef : List UInt8

namespace KeychainItem
variable {κ α : Type*} (env : KeychainEnvironment) (item : KeychainItem κ α)

def setRowid (rowid : Option Int) : KeychainItem κ α := { item with rowid := rowid }

def setModificationDate (date : ℚ) : KeychainItem κ α :=
  { item with modificationDate := some date }

def setItemuuid (uuid : List UInt8) : KeychainItem κ α := { item with itemuuid := some uuid }

def setPersistentRef (ref : List UInt8) : KeychainItem κ α :=
  { item with itempersistentref := ref }

def getModificationDate : ℚ := item.modificationDate.getD env.now

def dated : KeychainItem κ α := item.setModificationDate (item.getModificationDate env)

def getSHA1 (cls : KeychainClass κ α) : List UInt8 :=
  cls.digest item.primaryKey (item.getModificationDate env) item.tomb item.contents

def makeYounger (newItem oldItem : KeychainItem κ α) : KeychainItem κ α :=
  if newItem.getModificationDate env > oldItem.getModificationDate env then newItem.dated env
  else newItem.setModificationDate (oldItem.getModificationDate env + 1 / 1000)

def preserveItemuuid (target source : KeychainItem κ α) : KeychainItem κ α :=
  { target with itemuuid := source.itemuuid <|> target.itemuuid }

def preservePersistentRef (target source : KeychainItem κ α) : KeychainItem κ α :=
  { target with itempersistentref := source.itempersistentref }

def preserveCannotSync (target source : KeychainItem κ α) : KeychainItem κ α :=
  { target with
    cannotSync := List.zipWith (fun value local? => local? <|> value) target.cannotSync
      source.cannotSync }

def copyTombstone (cls : KeychainClass κ α) (makeTombStone : Option Bool)
    (tombstoneTimeFromItem : Bool) : KeychainItem κ α :=
  let tombstone : KeychainItem κ α :=
    { rowid := item.rowid
      primaryKey := item.primaryKey
      modificationDate := if tombstoneTimeFromItem then item.modificationDate else none
      tomb := true
      contents := cls.tombstoneContents item.contents
      itemuuid := item.itemuuid
      itempersistentref := []
      cannotSync := item.cannotSync.map fun _ => none
      utomb := makeTombStone }
  tombstone.makeYounger env item

@[simp] theorem getModificationDate_setModificationDate (date : ℚ) :
    (item.setModificationDate date).getModificationDate env = date :=
  rfl

variable (newItem oldItem : KeychainItem κ α)

theorem lt_makeYounger :
    oldItem.getModificationDate env < (newItem.makeYounger env oldItem).getModificationDate env := by
  unfold makeYounger
  split_ifs with hlater
  · exact hlater
  · rw [getModificationDate_setModificationDate]
    exact lt_add_of_pos_right _ (by norm_num)

theorem makeYounger_eq :
    newItem.makeYounger env oldItem =
      newItem.setModificationDate ((newItem.makeYounger env oldItem).getModificationDate env) := by
  unfold makeYounger
  split_ifs <;> rfl

theorem makeYounger_rowid :
    (newItem.makeYounger env oldItem).rowid = newItem.rowid := by
  rw [makeYounger_eq]
  rfl

section
variable (cls : KeychainClass κ α) (makeTombStone : Option Bool) (tombstoneTimeFromItem : Bool)

theorem lt_copyTombstone :
    item.getModificationDate env <
      (item.copyTombstone env cls makeTombStone tombstoneTimeFromItem).getModificationDate env :=
  lt_makeYounger env _ item

theorem copyTombstone_rowid :
    (item.copyTombstone env cls makeTombStone tombstoneTimeFromItem).rowid = item.rowid :=
  makeYounger_rowid env _ item

theorem copyTombstone_primaryKey :
    (item.copyTombstone env cls makeTombStone tombstoneTimeFromItem).primaryKey =
      item.primaryKey := by
  unfold copyTombstone
  dsimp only
  rw [makeYounger_eq]
  rfl

theorem copyTombstone_tomb :
    (item.copyTombstone env cls makeTombStone tombstoneTimeFromItem).tomb = true := by
  unfold copyTombstone
  dsimp only
  rw [makeYounger_eq]
  rfl

theorem copyTombstone_itemuuid :
    (item.copyTombstone env cls makeTombStone tombstoneTimeFromItem).itemuuid = item.itemuuid := by
  unfold copyTombstone
  dsimp only
  rw [makeYounger_eq]
  rfl
end
end KeychainItem
end SecurityFramework

namespace SecurityFramework
inductive RowState where
  | readable
  | corrupt
  | undecided
  deriving DecidableEq

structure KeychainRow (κ α : Type*) where
  item : KeychainItem κ α
  state : RowState
  deriving DecidableEq

structure KeychainChange (κ α : Type*) where
  deleted : Option (KeychainItem κ α)
  inserted : Option (KeychainItem κ α)
  deriving DecidableEq

structure KeychainTable (κ α : Type*) where
  rows : List (KeychainRow κ α)
  lastRowid : Int
  changes : List (KeychainChange κ α)
  deriving DecidableEq

/-- What the block for a duplicate chooses: the row stays, the new item replaces it, or the item of
the row replaces itself. The block may have changed either. -/
inductive KeychainReplacement (κ α : Type*) where
  | keep
  | newItem (item : KeychainItem κ α)
  | oldItem (item : KeychainItem κ α)
  deriving DecidableEq

namespace KeychainTable
section
variable {κ α : Type*} [DecidableEq κ] (env : KeychainEnvironment) (table : KeychainTable κ α)

inductive Outcome (κ α : Type*) where
  | done (table : KeychainTable κ α)
  | constraint
  | failed

def recordUpdate (deleted inserted : Option (KeychainItem κ α)) : KeychainTable κ α :=
  { table with changes := table.changes ++ [⟨deleted, inserted⟩] }

def find (primaryKey : κ) : Option (KeychainRow κ α) :=
  table.rows.find? fun row => row.item.primaryKey = primaryKey

def conflicts (rows : List (KeychainRow κ α)) (item : KeychainItem κ α) : Bool :=
  rows.any fun row => decide (row.item.primaryKey = item.primaryKey) ||
    (item.rowid.isSome && decide (row.item.rowid = item.rowid))

def withRowid (item : KeychainItem κ α) : KeychainItem κ α :=
  item.setRowid (some (item.rowid.getD (table.lastRowid + 1)))

def addRow (item : KeychainItem κ α) : KeychainTable κ α :=
  { table with
    rows := table.rows ++ [⟨item, .readable⟩]
    lastRowid := max table.lastRowid (item.rowid.getD 0) }

def doInsert (item : KeychainItem κ α) : Outcome κ α :=
  if conflicts table.rows item then .constraint
  else
    let item := table.withRowid item
    .done ((table.addRow item).recordUpdate none (some item))

def withPersistentRef (oldItem newItem : KeychainItem κ α) : KeychainItem κ α :=
  if oldItem.itempersistentref.length ≠ persistentRefUUIDBytesLength then
    newItem.setPersistentRef env.createPersistentRef
  else newItem

def written (oldItem newItem : KeychainItem κ α) : KeychainItem κ α :=
  (withPersistentRef env oldItem newItem).dated env

def replaceRow (rowid : Option Int) (item : KeychainItem κ α) : KeychainTable κ α :=
  { table with
    rows := table.rows.map fun row =>
      if row.item.rowid = rowid then ⟨item, .readable⟩ else row }

/-- `SecDbItemDoUpdate` where the row id is that of the old item. A row id cannot be null. -/
def doUpdate (oldItem newItem : KeychainItem κ α) : Outcome κ α :=
  let newItem := written env oldItem newItem
  if newItem.rowid.isNone then .failed
  else if conflicts (table.rows.filter fun row => row.item.rowid ≠ oldItem.rowid) newItem then
    .constraint
  else .done ((table.replaceRow oldItem.rowid newItem).recordUpdate (some oldItem) (some newItem))

def doDelete (item : KeychainItem κ α) : KeychainTable κ α :=
  { table with rows := table.rows.filter fun row => row.item.rowid ≠ item.rowid }.recordUpdate
    (some item) none

def replaceDuplicate (oldItem : KeychainItem κ α) (isCorrupt : Bool)
    (replacement : KeychainReplacement κ α) : Option (KeychainTable κ α) :=
  match replacement with
  | .keep => none
  | .newItem item =>
    let item := item.setRowid oldItem.rowid
    let item := if isCorrupt then item else item.makeYounger env oldItem
    match table.doUpdate env oldItem item with
    | .done table => some table
    | _ => none
  | .oldItem item =>
    -- the old item is its own replacement, and what is set in one is set in both
    let item := item.makeYounger env item
    let item := withPersistentRef env item item
    match table.doUpdate env item item with
    | .done table => some table
    | _ => none

def insertOrReplace (item : KeychainItem κ α)
    (duplicate : KeychainItem κ α → KeychainItem κ α → KeychainReplacement κ α) :
    Option (KeychainTable κ α) :=
  let item := item.dated env
  match table.doInsert item with
  | .done table => some table
  | .failed => none
  | .constraint =>
    match table.find item.primaryKey with
    | none => none
    | some row =>
      match row.state with
      | .corrupt => table.replaceDuplicate env row.item true (.newItem item)
      | .readable => table.replaceDuplicate env row.item false (duplicate item row.item)
      | .undecided => none
end

section
variable {κ α : Type*} (env : KeychainEnvironment) (table : KeychainTable κ α)

/-- The rows have row ids and dates, and their primary keys and row ids are apart. -/
structure Valid : Prop where
  rowid : ∀ row ∈ table.rows, row.item.rowid.isSome
  date : ∀ row ∈ table.rows, row.item.modificationDate.isSome
  primaryKeys : (table.rows.map fun row => row.item.primaryKey).Nodup
  rowids : (table.rows.map fun row => row.item.rowid).Nodup
  lastRowid : ∀ row ∈ table.rows, ∀ r ∈ row.item.rowid, r ≤ table.lastRowid

/-- The rows have row ids, and their primary keys and row ids are apart. -/
structure Keyed : Prop where
  rowid : ∀ row ∈ table.rows, row.item.rowid.isSome
  primaryKeys : (table.rows.map fun row => row.item.primaryKey).Nodup
  rowids : (table.rows.map fun row => row.item.rowid).Nodup
  lastRowid : ∀ row ∈ table.rows, ∀ r ∈ row.item.rowid, r ≤ table.lastRowid

variable {table}

theorem Valid.keyed (h : table.Valid) : table.Keyed :=
  ⟨h.rowid, h.primaryKeys, h.rowids, h.lastRowid⟩

variable {row : KeychainRow κ α} {item : KeychainItem κ α}

theorem Keyed.eq_of_primaryKey (h : table.Keyed) {row' : KeychainRow κ α} (hrow : row ∈ table.rows)
    (hrow' : row' ∈ table.rows) (heq : row.item.primaryKey = row'.item.primaryKey) : row = row' :=
  List.inj_on_of_nodup_map h.primaryKeys hrow hrow' heq

theorem Keyed.eq_of_rowid (h : table.Keyed) {row' : KeychainRow κ α} (hrow : row ∈ table.rows)
    (hrow' : row' ∈ table.rows) (heq : row.item.rowid = row'.item.rowid) : row = row' :=
  List.inj_on_of_nodup_map h.rowids hrow hrow' heq

variable (oldItem newItem : KeychainItem κ α)

theorem withPersistentRef_eq :
    withPersistentRef env oldItem newItem = newItem.setPersistentRef
      (withPersistentRef env oldItem newItem).itempersistentref := by
  unfold withPersistentRef
  split_ifs <;> rfl

@[simp] theorem written_rowid :
    (written env oldItem newItem).rowid = newItem.rowid := by
  rw [written, withPersistentRef_eq]
  rfl

@[simp] theorem written_primaryKey :
    (written env oldItem newItem).primaryKey = newItem.primaryKey := by
  rw [written, withPersistentRef_eq]
  rfl

@[simp] theorem written_modificationDate :
    (written env oldItem newItem).modificationDate = some (newItem.getModificationDate env) := by
  rw [written, withPersistentRef_eq]
  rfl

theorem mem_replaceRow {rowid : Option Int} :
    row ∈ (table.replaceRow rowid item).rows ↔
      (∃ old ∈ table.rows, old.item.rowid = rowid ∧ row = ⟨item, .readable⟩) ∨
        row ∈ table.rows ∧ row.item.rowid ≠ rowid := by
  unfold replaceRow
  rw [List.mem_map]
  constructor
  · rintro ⟨old, hold, heq⟩
    split_ifs at heq with hrowid
    · exact Or.inl ⟨old, hold, hrowid, heq.symm⟩
    · exact Or.inr ⟨heq ▸ hold, heq ▸ hrowid⟩
  · rintro (⟨old, hold, hrowid, heq⟩ | ⟨hrow, hne⟩)
    · exact ⟨old, hold, by rw [if_pos hrowid, heq]⟩
    · exact ⟨row, hrow, if_neg hne⟩

def Beside (rowid : Option Int) (item : KeychainItem κ α) (table : KeychainTable κ α) : Prop :=
  ∀ row ∈ table.rows, row.item.rowid ≠ rowid →
    row.item.primaryKey ≠ item.primaryKey ∧ row.item.rowid ≠ item.rowid

theorem Keyed.beside (h : table.Keyed) (hrow : row ∈ table.rows)
    (hkey : item.primaryKey = row.item.primaryKey) (hrowid : item.rowid = row.item.rowid) :
    table.Beside row.item.rowid item := by
  intro row' hrow' hne
  refine ⟨fun heq => ?_, fun heq => hne (heq.trans hrowid)⟩
  rw [hkey] at heq
  exact hne (congrArg (fun row => row.item.rowid) (h.eq_of_primaryKey hrow' hrow heq))

theorem Keyed.nodup_replaceRow {β : Type*} (h : table.Keyed) (hrow : row ∈ table.rows)
    {f : KeychainItem κ α → β} (hf : (table.rows.map fun row => f row.item).Nodup)
    (hfree : ∀ row' ∈ table.rows, row'.item.rowid ≠ row.item.rowid → f row'.item ≠ f item) :
    ((table.replaceRow row.item.rowid item).rows.map fun row => f row.item).Nodup := by
  unfold KeychainTable.replaceRow
  rw [List.map_map]
  apply List.Nodup.map_on _ (List.Nodup.of_map _ hf)
  intro left hleft right hright heq
  rw [Function.comp_apply, Function.comp_apply] at heq
  split_ifs at heq with hl hr hr
  · exact h.eq_of_rowid hleft hright (hl.trans hr.symm)
  · exact absurd heq.symm (hfree right hright hr)
  · exact absurd heq (hfree left hleft hl)
  · exact List.inj_on_of_nodup_map hf hleft hright heq

theorem Keyed.replaceRow (h : table.Keyed) (hrow : row ∈ table.rows)
    (hbeside : table.Beside row.item.rowid item) (hsome : item.rowid.isSome)
    (hlast : ∀ r ∈ item.rowid, r ≤ table.lastRowid) :
    (table.replaceRow row.item.rowid item).Keyed := by
  constructor
  · intro row' hrow'
    rcases mem_replaceRow.1 hrow' with ⟨_, _, _, rfl⟩ | ⟨hmem, -⟩
    · exact hsome
    · exact h.rowid row' hmem
  · exact h.nodup_replaceRow hrow h.primaryKeys fun row' hrow' hne => (hbeside row' hrow' hne).1
  · exact h.nodup_replaceRow hrow h.rowids fun row' hrow' hne => (hbeside row' hrow' hne).2
  · intro row' hrow' r hr
    rcases mem_replaceRow.1 hrow' with ⟨_, _, _, rfl⟩ | ⟨hmem, -⟩
    · exact hlast r hr
    · exact h.lastRowid row' hmem r hr

theorem Keyed.deleteRow (h : table.Keyed) (rowid : Option Int) :
    ({ table with rows := table.rows.filter fun row => row.item.rowid ≠ rowid } :
      KeychainTable κ α).Keyed := by
  have hsub : (table.rows.filter fun row => row.item.rowid ≠ rowid).Sublist table.rows :=
    List.filter_sublist
  exact ⟨fun row hrow => h.rowid row (hsub.mem hrow), h.primaryKeys.sublist (hsub.map _),
    h.rowids.sublist (hsub.map _), fun row hrow => h.lastRowid row (hsub.mem hrow)⟩

theorem Valid.replaceRow (h : table.Valid) (hrow : row ∈ table.rows)
    (hkey : item.primaryKey = row.item.primaryKey) (hrowid : item.rowid = row.item.rowid)
    (hdate : item.modificationDate.isSome) :
    (table.replaceRow row.item.rowid item).Valid := by
  have hkeyed := h.keyed.replaceRow hrow (h.keyed.beside hrow hkey hrowid)
    (hrowid ▸ h.rowid row hrow) (hrowid ▸ h.lastRowid row hrow)
  refine ⟨hkeyed.rowid, ?_, hkeyed.primaryKeys, hkeyed.rowids, hkeyed.lastRowid⟩
  intro row' hrow'
  rcases mem_replaceRow.1 hrow' with ⟨_, _, _, rfl⟩ | ⟨hmem, -⟩
  · exact hdate
  · exact h.date row' hmem

theorem Valid.recordUpdate (h : table.Valid)
    (deleted inserted : Option (KeychainItem κ α)) :
    (table.recordUpdate deleted inserted).Valid :=
  ⟨h.rowid, h.date, h.primaryKeys, h.rowids, h.lastRowid⟩
end

section
variable {κ α : Type*} [DecidableEq κ] (env : KeychainEnvironment) {table : KeychainTable κ α}

variable {row : KeychainRow κ α} {item : KeychainItem κ α}

theorem find_eq_some {primaryKey : κ} (hfind : table.find primaryKey = some row) :
    row ∈ table.rows ∧ row.item.primaryKey = primaryKey := by
  constructor
  · exact List.mem_of_find?_eq_some hfind
  · have hkey := List.find?_some hfind
    exact of_decide_eq_true hkey

theorem Keyed.find_of_mem (h : table.Keyed) (hrow : row ∈ table.rows) :
    table.find row.item.primaryKey = some row := by
  cases hfind : table.find row.item.primaryKey with
  | none =>
    have hne := List.find?_eq_none.1 hfind row hrow
    exact absurd (decide_eq_true rfl) hne
  | some row' =>
    rcases find_eq_some hfind with ⟨hrow', heq⟩
    rw [h.eq_of_primaryKey hrow' hrow heq]

theorem Keyed.find_eq_some_iff (h : table.Keyed) {primaryKey : κ} :
    table.find primaryKey = some row ↔ row ∈ table.rows ∧ row.item.primaryKey = primaryKey := by
  constructor
  · exact find_eq_some
  · rintro ⟨hrow, rfl⟩
    exact h.find_of_mem hrow

theorem conflicts_eq_true {rows : List (KeychainRow κ α)} :
    conflicts rows item = true ↔ ∃ row ∈ rows, row.item.primaryKey = item.primaryKey ∨
      item.rowid.isSome ∧ row.item.rowid = item.rowid := by
  simp only [conflicts, List.any_eq_true, Bool.or_eq_true, Bool.and_eq_true, decide_eq_true_eq]

theorem conflicts_of_find (hfind : table.find item.primaryKey = some row) :
    conflicts table.rows item = true := by
  rcases find_eq_some hfind with ⟨hrow, heq⟩
  exact conflicts_eq_true.2 ⟨row, hrow, Or.inl heq⟩

/-- A statement that meets no constraint leaves the other rows beside the item. -/
theorem beside_of_not_conflicts {rowid : Option Int} (hsome : item.rowid.isSome)
    (hfree : ¬conflicts (table.rows.filter fun row => row.item.rowid ≠ rowid) item = true) :
    table.Beside rowid item := by
  intro row hrow hne
  have hmem : row ∈ table.rows.filter fun row => row.item.rowid ≠ rowid :=
    List.mem_filter.2 ⟨hrow, decide_eq_true hne⟩
  constructor
  · exact fun heq => hfree (conflicts_eq_true.2 ⟨row, hmem, Or.inl heq⟩)
  · exact fun heq => hfree (conflicts_eq_true.2 ⟨row, hmem, Or.inr ⟨hsome, heq⟩⟩)

theorem not_conflicts_of_beside {rowid : Option Int} (hbeside : table.Beside rowid item) :
    conflicts (table.rows.filter fun row => row.item.rowid ≠ rowid) item = false := by
  rw [Bool.eq_false_iff]
  intro hconflicts
  rcases conflicts_eq_true.1 hconflicts with ⟨row, hrow, hsame⟩
  rcases List.mem_filter.1 hrow with ⟨hmem, hne⟩
  rcases hbeside row hmem (of_decide_eq_true hne) with ⟨hkey, hrowid⟩
  rcases hsame with hsame | ⟨-, hsame⟩
  · exact hkey hsame
  · exact hrowid hsame

theorem Keyed.doUpdate_of_same (h : table.Keyed) (hrow : row ∈ table.rows)
    (hkey : item.primaryKey = row.item.primaryKey) (hrowid : item.rowid = row.item.rowid) :
    table.doUpdate env row.item item =
      .done ((table.replaceRow row.item.rowid (written env row.item item)).recordUpdate
        (some row.item) (some (written env row.item item))) := by
  have hsome : (written env row.item item).rowid.isNone = false := by
    rw [written_rowid, hrowid, Option.isNone_eq_false_iff]
    exact h.rowid row hrow
  have hconflicts : conflicts (table.rows.filter fun row' => row'.item.rowid ≠ row.item.rowid)
      (written env row.item item) = false :=
    not_conflicts_of_beside (h.beside hrow ((written_primaryKey env row.item item).trans hkey)
      ((written_rowid env row.item item).trans hrowid))
  change (if (written env row.item item).rowid.isNone then _ else _) = _
  rw [hsome, if_neg Bool.false_ne_true, hconflicts, if_neg Bool.false_ne_true]

theorem insertOrReplace_of_find (hfind : table.find item.primaryKey = some row)
    (hstate : row.state = .readable)
    (duplicate : KeychainItem κ α → KeychainItem κ α → KeychainReplacement κ α) :
    table.insertOrReplace env item duplicate =
      table.replaceDuplicate env row.item false (duplicate (item.dated env) row.item) := by
  have hinsert : table.doInsert (item.dated env) = .constraint := if_pos (conflicts_of_find hfind)
  have hfind' : table.find (item.dated env).primaryKey = some row := hfind
  unfold insertOrReplace
  simp only [hinsert, hfind', hstate]

/-- The new item as it takes the place of a duplicate. -/
def replacing (oldItem : KeychainItem κ α) (isCorrupt : Bool) (item : KeychainItem κ α) :
    KeychainItem κ α :=
  written env oldItem
    (if isCorrupt then item.setRowid oldItem.rowid
    else (item.setRowid oldItem.rowid).makeYounger env oldItem)

omit [DecidableEq κ] in
theorem replacing_eq (oldItem : KeychainItem κ α) (isCorrupt : Bool) (item : KeychainItem κ α) :
    ∃ ref date, replacing env oldItem isCorrupt item =
      { item with
        rowid := oldItem.rowid, itempersistentref := ref, modificationDate := some date } := by
  unfold replacing written
  rw [withPersistentRef_eq]
  cases isCorrupt with
  | true => exact ⟨_, _, rfl⟩
  | false =>
    rw [if_neg Bool.false_ne_true, KeychainItem.makeYounger_eq]
    exact ⟨_, _, rfl⟩

omit [DecidableEq κ] in
theorem replacing_modificationDate (oldItem item : KeychainItem κ α) :
    (replacing env oldItem false item).modificationDate =
      some (if oldItem.getModificationDate env < item.getModificationDate env
        then item.getModificationDate env else oldItem.getModificationDate env + 1 / 1000) := by
  have hdate : (item.setRowid oldItem.rowid).getModificationDate env =
      item.getModificationDate env := rfl
  unfold replacing
  rw [if_neg Bool.false_ne_true, written_modificationDate]
  unfold KeychainItem.makeYounger
  rw [hdate]
  split_ifs <;> rfl

theorem Valid.find_replaceRow (h : table.Valid) (hrow : row ∈ table.rows)
    (hkey : item.primaryKey = row.item.primaryKey) (hrowid : item.rowid = row.item.rowid)
    (hdate : item.modificationDate.isSome) :
    (table.replaceRow row.item.rowid item).find row.item.primaryKey = some ⟨item, .readable⟩ := by
  have hmem : (⟨item, .readable⟩ : KeychainRow κ α) ∈
      (table.replaceRow row.item.rowid item).rows :=
    mem_replaceRow.2 (Or.inl ⟨row, hrow, rfl, rfl⟩)
  have hfind := (h.replaceRow hrow hkey hrowid hdate).keyed.find_of_mem hmem
  rw [← hkey]
  exact hfind

theorem Keyed.replaceDuplicate_newItem (h : table.Keyed) (hrow : row ∈ table.rows)
    (hkey : item.primaryKey = row.item.primaryKey) (isCorrupt : Bool) :
    table.replaceDuplicate env row.item isCorrupt (.newItem item) =
      some ((table.replaceRow row.item.rowid (replacing env row.item isCorrupt item)).recordUpdate
        (some row.item) (some (replacing env row.item isCorrupt item))) := by
  have hkey' : (if isCorrupt then item.setRowid row.item.rowid
      else (item.setRowid row.item.rowid).makeYounger env row.item).primaryKey =
        row.item.primaryKey := by
    rw [KeychainItem.makeYounger_eq]
    split_ifs <;> exact hkey
  have hrowid : (if isCorrupt then item.setRowid row.item.rowid
      else (item.setRowid row.item.rowid).makeYounger env row.item).rowid = row.item.rowid := by
    rw [KeychainItem.makeYounger_eq]
    split_ifs <;> rfl
  unfold replaceDuplicate
  simp only [h.doUpdate_of_same env hrow hkey' hrowid]
  rfl
end
end KeychainTable
end SecurityFramework
