import SecurityFramework.Securityd.ObjectMerge
import SecurityFramework.Securityd.KeychainChanges

/-! # What a call leaves in the table -/

namespace SecurityFramework
variable {κ α : Type*}

/-- A block gives a new item with the primary key of the duplicate, or the duplicate, of which it
may have set the persistent reference. -/
def KeychainReplacement.Meets (item oldItem : KeychainItem κ α) : KeychainReplacement κ α → Prop
  | .keep => True
  | .newItem chosen => chosen.primaryKey = item.primaryKey
  | .oldItem chosen => ∃ ref, chosen = oldItem.setPersistentRef ref

namespace KeychainCall
/-- An old item comes from the table, and a new one has the row id of the item that it replaces. -/
def Meets (env : KeychainEnvironment) (table : KeychainTable κ α) : KeychainCall κ α → Prop
  | .insert _ _ _ => True
  | .insertOrReplace item duplicate =>
    ∀ oldItem, (duplicate (item.dated env) oldItem).Meets item oldItem
  | .update old newItem _ _ => old ∈ table.rows ∧ newItem.rowid = old.item.rowid
  | .updateItself old => old ∈ table.rows
  | .delete old _ _ => old ∈ table.rows

def keys : KeychainCall κ α → List κ
  | .insert item _ _ => [item.primaryKey]
  | .insertOrReplace item _ => [item.primaryKey]
  | .update old newItem _ _ => [old.item.primaryKey, newItem.primaryKey]
  | .updateItself old => [old.item.primaryKey]
  | .delete old _ _ => [old.item.primaryKey]

variable [DecidableEq κ]

/-- The block for a duplicate chooses the old item as its own replacement. -/
def ChoosesOld (env : KeychainEnvironment) (table : KeychainTable κ α) (item : KeychainItem κ α)
    (duplicate : KeychainItem κ α → KeychainItem κ α → KeychainReplacement κ α) : Prop :=
  ∃ row, table.find item.primaryKey = some row ∧
    ∃ chosen, duplicate (item.dated env) row.item = .oldItem chosen

def ReplacesItself (env : KeychainEnvironment) (cls : KeychainClass κ α)
    (table : KeychainTable κ α) : KeychainCall κ α → Prop
  | .insert item useUUID useRef => ChoosesOld env table item (insertDuplicate env cls useUUID useRef)
  | .insertOrReplace item duplicate => ChoosesOld env table item duplicate
  | .updateItself _ => True
  | .update _ _ _ _ | .delete _ _ _ => False
end KeychainCall

namespace KeychainItem
variable (env : KeychainEnvironment) {item item' item'' : KeychainItem κ α}

def StoredAs (item item' : KeychainItem κ α) : Prop :=
  ∃ rowid ref date, item' =
    { item with rowid := rowid, itempersistentref := ref, modificationDate := date }

theorem StoredAs.trans (h : item.StoredAs item') (h' : item'.StoredAs item'') :
    item.StoredAs item'' := by
  rcases h with ⟨_, _, _, rfl⟩
  rcases h' with ⟨_, _, _, rfl⟩
  exact ⟨_, _, _, rfl⟩

theorem StoredAs.primaryKey (h : item.StoredAs item') : item'.primaryKey = item.primaryKey := by
  rcases h with ⟨_, _, _, rfl⟩
  rfl

theorem storedAs_makeYounger (oldItem : KeychainItem κ α) :
    item.StoredAs (item.makeYounger env oldItem) := by
  rw [makeYounger_eq]
  exact ⟨_, _, _, rfl⟩
end KeychainItem

namespace KeychainTable
open KeychainItem

section
variable (env : KeychainEnvironment)

theorem storedAs_written (oldItem item : KeychainItem κ α) :
    item.StoredAs (written env oldItem item) := by
  unfold written
  rw [withPersistentRef_eq]
  exact ⟨_, _, _, rfl⟩

@[simp] theorem written_getModificationDate (oldItem item : KeychainItem κ α) :
    (written env oldItem item).getModificationDate env = item.getModificationDate env := by
  unfold getModificationDate
  rw [written_modificationDate]
  rfl
end

variable [DecidableEq κ] (env : KeychainEnvironment) (cls : KeychainClass κ α)
  {table table' : KeychainTable κ α}

structure Keeps (env : KeychainEnvironment) (keys : List κ) (table table' : KeychainTable κ α) :
    Prop where
  keyed : table'.Keyed
  others : ∀ k ∉ keys, table'.find k = table.find k
  later : ∀ k row row', table.find k = some row → row.state = .readable →
    table'.find k = some row' → row' = row ∨
      row.item.getModificationDate env < row'.item.getModificationDate env

variable {item oldItem newItem : KeychainItem κ α} {row old : KeychainRow κ α}
  {makeTombstone : Option Bool} {uuidFromPrimaryKey : Bool} {c : KeychainCall κ α}

/-- An item is written under its primary key, later than the readable one before it. -/
theorem Keeps.write (hkeyed : table'.Keyed) (hfind : ∀ k, table'.find k =
      if item.primaryKey = k then some ⟨item, .readable⟩ else table.find k)
    (hlater : ∀ row, table.find item.primaryKey = some row → row.state = .readable →
      row.item.getModificationDate env < item.getModificationDate env) :
    Keeps env [item.primaryKey] table table' := by
  refine ⟨hkeyed, ?_, ?_⟩
  · intro k hk
    rw [hfind, if_neg]
    exact fun heq => hk (List.mem_singleton.2 heq.symm)
  · intro k row row' hrow hreadable hrow'
    rw [hfind] at hrow'
    split_ifs at hrow' with hk
    · subst hk
      cases hrow'
      exact Or.inr (hlater row hrow hreadable)
    · rw [hrow] at hrow'
      exact Or.inl (Option.some.inj hrow').symm

theorem find_of_replace {rows rows' : κ → Option (KeychainRow κ α)} {deleted : KeychainItem κ α}
    (hkey : item.primaryKey = deleted.primaryKey)
    (hrows : rows' = KeychainChange.apply ⟨some deleted, some item⟩ rows) (k : κ) :
    rows' k = if item.primaryKey = k then some ⟨item, .readable⟩ else rows k := by
  rw [hrows, KeychainChange.apply_inserted, KeychainChange.apply_deleted, hkey]
  split_ifs <;> rfl

theorem Keyed.doUpdate_keeps (h : table.Keyed) (hrow : row ∈ table.rows)
    (hold : oldItem.rowid = row.item.rowid) (hkey : item.primaryKey = row.item.primaryKey)
    (hrowid : item.rowid = row.item.rowid) (hlater : row.state = .readable →
      row.item.getModificationDate env < item.getModificationDate env)
    (hdone : table.doUpdate env oldItem item = .done table') :
    Keeps env [row.item.primaryKey] table table' := by
  have hkey' : (written env oldItem item).primaryKey = row.item.primaryKey :=
    (written_primaryKey env oldItem item).trans hkey
  have hrowid' : (written env oldItem item).rowid = row.item.rowid :=
    (written_rowid env oldItem item).trans hrowid
  have hrecorded := h.replaceRow_recorded hrow (h.beside hrow hkey' hrowid')
    (hrowid' ▸ h.rowid row hrow) (hrowid' ▸ h.lastRowid row hrow)
  have heq : table' = (table.replaceRow row.item.rowid (written env oldItem item)).recordUpdate
      (some oldItem) (some (written env oldItem item)) := by
    unfold doUpdate at hdone
    dsimp only at hdone
    split_ifs at hdone
    cases hdone
    rw [hold]
  rw [← hkey', heq]
  have hkeyed := hrecorded.keyed
  refine Keeps.write env
    ⟨hkeyed.rowid, hkeyed.primaryKeys, hkeyed.rowids, hkeyed.lastRowid⟩ ?_ ?_
  · exact find_of_replace hkey' hrecorded.find_eq
  · intro row' hrow' hreadable
    rw [hkey', h.find_of_mem hrow] at hrow'
    cases hrow'
    rw [written_getModificationDate]
    exact hlater hreadable

theorem Keyed.doUpdate_keeps_recorded (h : table.Keyed) (hrow : row ∈ table.rows)
    (hkey : item.primaryKey = row.item.primaryKey) (hrowid : item.rowid = row.item.rowid)
    (hlater : row.state = .readable →
      row.item.getModificationDate env < item.getModificationDate env)
    (hdone : table.doUpdate env row.item item = .done table') :
    Keeps env [row.item.primaryKey] table table' ∧ ∃ changes, table.Recorded changes table' :=
  ⟨h.doUpdate_keeps env hrow rfl hkey hrowid hlater hdone, _,
    h.doUpdate_recorded env hrow (hrowid ▸ h.lastRowid row hrow) hdone⟩

/-- An item that replaces itself is later, whatever persistent reference it was given. -/
theorem Keyed.replaceItself_keeps (h : table.Keyed) (hrow : row ∈ table.rows) {ref : List UInt8}
    (hitem : item = row.item.setPersistentRef ref)
    (hdone : table.replaceDuplicate env row.item false (.oldItem item) = some table') :
    Keeps env [row.item.primaryKey] table table' := by
  have hstored : row.item.StoredAs (item.makeYounger env item) := by
    rw [hitem]
    exact StoredAs.trans ⟨_, _, _, rfl⟩ (storedAs_makeYounger env _)
  have hrowid : (item.makeYounger env item).rowid = row.item.rowid := by
    rw [makeYounger_rowid, hitem]
    rfl
  have hdate : row.item.getModificationDate env = item.getModificationDate env := by
    rw [hitem]
    rfl
  unfold replaceDuplicate at hdone
  dsimp only at hdone
  rw [withPersistentRef_eq] at hdone
  split at hdone
  · rename_i hupdate
    cases hdone
    apply h.doUpdate_keeps env hrow _ _ _ _ hupdate
    · exact hrowid
    · exact hstored.primaryKey
    · exact hrowid
    · intro _
      rw [hdate]
      exact lt_makeYounger env item item
  · cases hdone

theorem Keyed.replaceDuplicate_keeps (h : table.Keyed) (hrow : row ∈ table.rows)
    (hkey : item.primaryKey = row.item.primaryKey) {isCorrupt : Bool}
    (hstate : row.state = .readable → isCorrupt = false)
    (hdone : table.replaceDuplicate env row.item isCorrupt (.newItem item) = some table') :
    Keeps env [row.item.primaryKey] table table' ∧ ∃ changes, table.Recorded changes table' := by
  unfold replaceDuplicate at hdone
  dsimp only at hdone
  split at hdone
  · rename_i hupdate
    cases hdone
    cases isCorrupt with
    | true =>
      have hsame : (item.setRowid row.item.rowid).primaryKey = row.item.primaryKey := hkey
      apply h.doUpdate_keeps_recorded env hrow hsame rfl _ hupdate
      exact fun hreadable => absurd (hstate hreadable) Bool.noConfusion
    | false =>
      have hsame : ((item.setRowid row.item.rowid).makeYounger env row.item).primaryKey =
          row.item.primaryKey := (storedAs_makeYounger env row.item).primaryKey.trans hkey
      apply h.doUpdate_keeps_recorded env hrow hsame (makeYounger_rowid env _ row.item) _ hupdate
      exact fun _ => lt_makeYounger env _ row.item
  · cases hdone

theorem Keyed.doInsert_keeps (h : table.Keyed) (hdone : table.doInsert item = .done table') :
    Keeps env [item.primaryKey] table table' := by
  have hrecorded := h.doInsert_recorded hdone
  have hfind (k : κ) : table'.find k =
      if item.primaryKey = k then some ⟨table.withRowid item, .readable⟩ else table.find k := by
    rw [hrecorded.find_eq]
    exact KeychainChange.apply_inserted
  have hkeeps : Keeps env [(table.withRowid item).primaryKey] table table' := by
    refine Keeps.write env hrecorded.keyed hfind ?_
    intro row hrow _
    have hconflicts : conflicts table.rows item = true := conflicts_of_find hrow
    unfold doInsert at hdone
    rw [if_pos hconflicts] at hdone
    cases hdone
  exact hkeeps

/-- What `SecDbItemInsertOrReplace` does: it inserts the item, or replaces a row by it. -/
theorem Keyed.insertOrReplace_keeps (h : table.Keyed)
    {duplicate : KeychainItem κ α → KeychainItem κ α → KeychainReplacement κ α}
    (hmeets : ∀ oldItem, (duplicate (item.dated env) oldItem).Meets item oldItem)
    (hdone : table.insertOrReplace env item duplicate = some table') :
    Keeps env [item.primaryKey] table table' ∧
      (¬KeychainCall.ChoosesOld env table item duplicate →
        ∃ changes, table.Recorded changes table') := by
  unfold insertOrReplace at hdone
  dsimp only at hdone
  cases hinsert : table.doInsert (item.dated env) with
  | failed => rw [hinsert] at hdone; cases hdone
  | done inserted =>
    rw [hinsert] at hdone
    cases hdone
    exact ⟨(h.doInsert_keeps env hinsert :), fun _ => ⟨_, h.doInsert_recorded hinsert⟩⟩
  | constraint =>
    rw [hinsert] at hdone
    dsimp only at hdone
    split at hdone
    · cases hdone
    · rename_i row hfind
      rcases find_eq_some hfind with ⟨hrow, hkey⟩
      have hkey : row.item.primaryKey = item.primaryKey := hkey
      rw [← hkey]
      split at hdone
      · rename_i hcorrupt
        have hdated : (item.dated env).primaryKey = row.item.primaryKey := hkey.symm
        have hkept := h.replaceDuplicate_keeps env hrow hdated
          (fun hreadable => absurd (hcorrupt.symm.trans hreadable) RowState.noConfusion) hdone
        exact ⟨hkept.1, fun _ => hkept.2⟩
      · have hmeets := hmeets row.item
        cases hchoice : duplicate (item.dated env) row.item with
        | keep =>
          rw [hchoice] at hdone
          cases hdone
        | newItem chosen =>
          rw [hchoice] at hdone hmeets
          have hkept := h.replaceDuplicate_keeps env hrow (hmeets.trans hkey.symm)
            (fun _ => rfl) hdone
          exact ⟨hkept.1, fun _ => hkept.2⟩
        | oldItem chosen =>
          rw [hchoice] at hdone hmeets
          rcases hmeets with ⟨ref, hchosen⟩
          refine ⟨h.replaceItself_keeps env hrow hchosen hdone, fun hnot => ?_⟩
          exact absurd ⟨row, hfind, chosen, hchoice⟩ hnot
      · cases hdone

structure Relocates (old : KeychainRow κ α) (item : KeychainItem κ α)
    (table table' : KeychainTable κ α) : Prop where
  keyed : table'.Keyed
  recorded : ∃ changes, table.Recorded changes table'
  stored : ∃ item', item.StoredAs item' ∧
    (∀ row, table.find item.primaryKey = some row → row.state = .readable →
      row.item.getModificationDate env < item'.getModificationDate env) ∧
    ∀ k, table'.find k =
      if item.primaryKey = k then some ⟨item', .readable⟩
      else if old.item.primaryKey = k then none else table.find k

theorem Keyed.doUpdate_relocates (h : table.Keyed) (hold : old ∈ table.rows)
    (hne : old.item.primaryKey ≠ item.primaryKey) (hrowid : item.rowid = old.item.rowid)
    (hdone : table.doUpdate env old.item item = .done table') :
    Relocates env old item table table' := by
  have hrecorded := h.doUpdate_recorded env hold (hrowid ▸ h.lastRowid old hold) hdone
  have hstored := storedAs_written env old.item item
  have hfind (k : κ) : table'.find k =
      if item.primaryKey = k then some ⟨written env old.item item, .readable⟩
      else if old.item.primaryKey = k then none else table.find k := by
    rw [hrecorded.find_eq, ← hstored.primaryKey]
    exact KeychainChange.apply_inserted.trans (by rw [KeychainChange.apply_deleted])
  refine ⟨hrecorded.keyed, ⟨_, hrecorded⟩, _, hstored, ?_, hfind⟩
  intro row hrow
  have hkey : (written env old.item item).primaryKey = item.primaryKey := hstored.primaryKey
  rcases hrecorded.replays.applicable.2 _ rfl with hnone | ⟨deleted, hdeleted, hsame⟩
  · rw [hkey, hrow] at hnone
    cases hnone
  · cases hdeleted
    exact absurd (hsame.trans hkey) hne

theorem Keyed.overwrite_relocates (h : table.Keyed) (hold : old ∈ table.rows)
    {item' : KeychainItem κ α} (hne : old.item.primaryKey ≠ item.primaryKey)
    {duplicate : KeychainRow κ α} (hfind : table.find item.primaryKey = some duplicate)
    (hstored : item.StoredAs item') (hrowid : item'.rowid = old.item.rowid)
    (hlater : duplicate.state = .readable →
      duplicate.item.getModificationDate env < item'.getModificationDate env)
    (hdone : (table.doDelete old.item).doUpdate env duplicate.item item' = .done table') :
    Relocates env old item table table' := by
  have hdeleted := h.doDelete_recorded hold
  rcases find_eq_some hfind with ⟨hduplicate, hkey⟩
  have hmem : duplicate ∈ (table.doDelete old.item).rows := by
    refine List.mem_filter.2 ⟨hduplicate, decide_eq_true fun heq => ?_⟩
    rw [h.eq_of_rowid hduplicate hold heq] at hkey
    exact hne hkey
  have hupdated := hdeleted.keyed.doUpdate_recorded env hmem
    (hrowid ▸ h.lastRowid old hold) hdone
  have hwritten := hstored.trans (storedAs_written env duplicate.item item')
  refine ⟨hupdated.keyed, ⟨_, hdeleted.append hupdated⟩, _, hwritten, ?_, ?_⟩
  · intro row hrow hreadable
    rw [hfind] at hrow
    cases hrow
    rw [written_getModificationDate]
    exact hlater hreadable
  · intro k
    rw [find_of_replace (hwritten.primaryKey.trans hkey.symm) hupdated.find_eq,
      hwritten.primaryKey, hdeleted.find_eq]
    exact congrArg _ KeychainChange.apply_deleted

theorem Keyed.updateRow_relocates (h : table.Keyed) (hold : old ∈ table.rows)
    (hne : old.item.primaryKey ≠ item.primaryKey) (hrowid : item.rowid = old.item.rowid)
    (hdone : table.updateRow env old.item item = some table') :
    Relocates env old item table table' := by
  unfold updateRow at hdone
  split at hdone
  · rename_i hupdate
    cases hdone
    exact h.doUpdate_relocates env hold hne hrowid hupdate
  · cases hdone
  · have hstored := storedAs_written env old.item item
    have hrowid' : (written env old.item item).rowid = old.item.rowid :=
      (written_rowid env old.item item).trans hrowid
    unfold updateDuplicate at hdone
    rw [hstored.primaryKey] at hdone
    split at hdone
    · cases hdone
    · rename_i duplicate hfind
      split at hdone
      · cases hdone
      · rename_i hcorrupt
        split at hdone
        · rename_i hupdate
          cases hdone
          apply h.overwrite_relocates env hold hne hfind hstored hrowid' _ hupdate
          exact fun hreadable => absurd (hcorrupt.symm.trans hreadable) RowState.noConfusion
        · cases hdone
      · split_ifs at hdone
        split at hdone
        · rename_i hupdate
          cases hdone
          apply h.overwrite_relocates env hold hne hfind
            (hstored.trans (storedAs_makeYounger env duplicate.item))
            ((makeYounger_rowid env _ duplicate.item).trans hrowid') _ hupdate
          exact fun _ => lt_makeYounger env _ duplicate.item
        · cases hdone

theorem Keyed.insertTombstone_recorded (h : table.Keyed)
    (hdone : table.insertTombstone env cls oldItem makeTombstone = some table') :
    ∃ tombstone : KeychainItem κ α, tombstone.primaryKey = oldItem.primaryKey ∧
      tombstone.tomb = true ∧ tombstone.itemuuid = oldItem.itemuuid ∧
      oldItem.getModificationDate env < tombstone.getModificationDate env ∧
      table.Recorded [⟨none, some tombstone⟩] table' := by
  unfold insertTombstone at hdone
  dsimp only at hdone
  split at hdone
  · rename_i hinsert
    cases hdone
    refine ⟨_, ?_, ?_, ?_, ?_, h.doInsert_recorded hinsert⟩
    · exact copyTombstone_primaryKey env oldItem cls makeTombstone false
    · exact copyTombstone_tomb env oldItem cls makeTombstone false
    · exact copyTombstone_itemuuid env oldItem cls makeTombstone false
    · exact lt_copyTombstone env oldItem cls makeTombstone false
  · cases hdone

/-- A change of the primary key leaves a tombstone with the old UUID, and the item. Where the item
gets a new UUID, another row has it only if one had it before. -/
structure Moves (cls : KeychainClass κ α) (old : KeychainRow κ α) (newItem : KeychainItem κ α)
    (uuidFromPrimaryKey : Bool) (table table' : KeychainTable κ α) : Prop where
  tombstone : ∃ row, table'.find old.item.primaryKey = some row ∧ row.item.tomb = true ∧
    row.item.itemuuid = old.item.itemuuid
  item : ∃ row, table'.find newItem.primaryKey = some row ∧
    (if env.ckksEnabled then s3dlItemMakeNewUUID env cls uuidFromPrimaryKey newItem
      else newItem).StoredAs row.item
  uuid : env.ckksEnabled → ∀ row ∈ table'.rows,
    row.item.itemuuid = (s3dlItemMakeNewUUID env cls uuidFromPrimaryKey newItem).itemuuid →
      row.item.primaryKey = newItem.primaryKey ∨
        ∃ row' ∈ table.rows, row'.item.itemuuid = row.item.itemuuid

theorem Relocates.keeps (h : Relocates env old item table table') :
    Keeps env [old.item.primaryKey, item.primaryKey] table table' := by
  rcases h.stored with ⟨item', hstored, hlater, hfind⟩
  refine ⟨h.keyed, ?_, ?_⟩
  · intro k hk
    rw [hfind, if_neg, if_neg]
    · exact fun heq => hk (heq ▸ List.mem_cons_self)
    · exact fun heq => hk (heq ▸ List.mem_cons_of_mem _ List.mem_cons_self)
  · intro k row row' hrow hreadable hrow'
    rw [hfind] at hrow'
    split_ifs at hrow' with hnew
    · subst hnew
      cases hrow'
      exact Or.inr (hlater row hrow hreadable)
    · rw [hrow] at hrow'
      exact Or.inl (Option.some.inj hrow').symm

theorem Relocates.tombstone_keeps {tombstone : KeychainItem κ α} {table'' : KeychainTable κ α}
    (h : Relocates env old item table table') (hold : table.find old.item.primaryKey = some old)
    (hkey : tombstone.primaryKey = old.item.primaryKey)
    (hlater : old.item.getModificationDate env < tombstone.getModificationDate env)
    (hrecorded : table'.Recorded [⟨none, some tombstone⟩] table'') :
    Keeps env [old.item.primaryKey, item.primaryKey] table table'' := by
  have hfind (k : κ) : table''.find k =
      if tombstone.primaryKey = k then some ⟨tombstone, .readable⟩ else table'.find k := by
    rw [hrecorded.find_eq]
    exact KeychainChange.apply_inserted
  have hkept := h.keeps
  refine ⟨hrecorded.keyed, ?_, ?_⟩
  · intro k hk
    rw [hfind, if_neg, hkept.others k hk]
    exact fun heq => hk (heq ▸ hkey ▸ List.mem_cons_self)
  · intro k row row' hrow hreadable hrow'
    rw [hfind] at hrow'
    split_ifs at hrow' with htombstone
    · cases hrow'
      rw [← htombstone, hkey, hold] at hrow
      cases hrow
      exact Or.inr hlater
    · exact hkept.later k row row' hrow hreadable hrow'

theorem prepareUpdate_of_ne (hne : oldItem.primaryKey ≠ newItem.primaryKey) :
    prepareUpdate env cls oldItem newItem makeTombstone uuidFromPrimaryKey =
      if makeTombstone ≠ some false ∧ env.ckksEnabled then
        s3dlItemMakeNewUUID env cls uuidFromPrimaryKey newItem
      else newItem :=
  if_neg hne

/-- The keys of an item are those of the caller, whether it gets a new UUID or not. -/
theorem prepareUpdate_keys (hne : oldItem.primaryKey ≠ newItem.primaryKey) :
    (prepareUpdate env cls oldItem newItem makeTombstone uuidFromPrimaryKey).primaryKey =
        newItem.primaryKey ∧
      (prepareUpdate env cls oldItem newItem makeTombstone uuidFromPrimaryKey).rowid =
        newItem.rowid := by
  rw [prepareUpdate_of_ne env cls hne]
  split_ifs
  · exact ⟨rfl, rfl⟩
  · exact ⟨rfl, rfl⟩

theorem Keeps.mono {keys keys' : List κ} (h : Keeps env keys table table')
    (hsub : ∀ k ∈ keys, k ∈ keys') : Keeps env keys' table table' :=
  ⟨h.keyed, fun k hk => h.others k fun hmem => hk (hsub k hmem), h.later⟩

theorem Relocates.moves {tombstone : KeychainItem κ α} {table'' : KeychainTable κ α}
    (hold : old ∈ table.rows) (hne : old.item.primaryKey ≠ newItem.primaryKey)
    (hitem : item = if env.ckksEnabled then s3dlItemMakeNewUUID env cls uuidFromPrimaryKey newItem
      else newItem) (h : Relocates env old item table table')
    (hkey : tombstone.primaryKey = old.item.primaryKey) (htomb : tombstone.tomb = true)
    (huuid : tombstone.itemuuid = old.item.itemuuid)
    (hrecorded : table'.Recorded [⟨none, some tombstone⟩] table'') :
    Moves env cls old newItem uuidFromPrimaryKey table table'' := by
  rcases h.stored with ⟨item', hstored, -, hfind'⟩
  have hitemKey : item.primaryKey = newItem.primaryKey := by
    rw [hitem]
    split_ifs <;> rfl
  have hfind (k : κ) : table''.find k =
      if old.item.primaryKey = k then some ⟨tombstone, .readable⟩
      else if newItem.primaryKey = k then some ⟨item', .readable⟩ else table.find k := by
    rw [hrecorded.find_eq, ← hkey, ← hitemKey]
    refine KeychainChange.apply_inserted.trans ?_
    rw [hkey]
    split_ifs with hk hk'
    · rfl
    · exact (hfind' k).trans (if_pos hk')
    · exact ((hfind' k).trans (if_neg hk')).trans (if_neg hk)
  refine ⟨⟨_, (hfind _).trans (if_pos rfl), htomb, huuid⟩, ⟨⟨item', .readable⟩, ?_, ?_⟩, ?_⟩
  · rw [hfind, if_neg hne, if_pos rfl]
  · rw [← hitem]
    exact hstored
  · intro _ row hrow _
    have hrow := hrecorded.keyed.find_of_mem hrow
    rw [hfind] at hrow
    split_ifs at hrow with hk hk'
    · cases hrow
      exact Or.inr ⟨old, hold, huuid.symm⟩
    · exact Or.inl hk'.symm
    · exact Or.inr ⟨row, (find_eq_some hrow).1, rfl⟩

theorem Keyed.update_keeps (h : table.Keyed) (hold : old ∈ table.rows)
    (hrowid : newItem.rowid = old.item.rowid)
    (hdone : table.update env cls old newItem makeTombstone uuidFromPrimaryKey = some table') :
    Keeps env [old.item.primaryKey, newItem.primaryKey] table table' ∧
      (∃ changes, table.Recorded changes table') ∧
      (old.item.primaryKey ≠ newItem.primaryKey → makeTombstone ≠ some false →
        Moves env cls old newItem uuidFromPrimaryKey table table') := by
  unfold update at hdone
  dsimp only at hdone
  split_ifs at hdone with hstate hmove
  · rcases prepareUpdate_keys env cls hmove.1 with ⟨hkey, hrowid'⟩
    have hne := hmove.1
    rw [← hkey] at hne
    rcases Option.bind_eq_some_iff.1 hdone with ⟨moved, hmoved, htombstone⟩
    have hrelocates := h.updateRow_relocates env hold hne (hrowid'.trans hrowid) hmoved
    rcases hrelocates.keyed.insertTombstone_recorded env cls htombstone with
      ⟨tombstone, hkeyT, htomb, huuid, hlater, hrecorded⟩
    rcases hrelocates.recorded with ⟨changes, hchanges⟩
    refine ⟨?_, ⟨_, hchanges.append hrecorded⟩, fun hne _ => ?_⟩
    · rw [← hkey]
      exact hrelocates.tombstone_keeps env (h.find_of_mem hold) hkeyT hlater hrecorded
    · apply hrelocates.moves env cls hold hne _ hkeyT htomb huuid hrecorded
      rw [prepareUpdate_of_ne env cls hne]
      exact if_congr (and_iff_right hmove.2) rfl rfl
  · by_cases hkeys : old.item.primaryKey = newItem.primaryKey
    · have hprepare : prepareUpdate env cls old.item newItem makeTombstone uuidFromPrimaryKey =
          newItem.makeYounger env old.item := if_pos hkeys
      have hkey : (newItem.makeYounger env old.item).primaryKey = old.item.primaryKey :=
        (storedAs_makeYounger env old.item).primaryKey.trans hkeys.symm
      have hrowid' : (newItem.makeYounger env old.item).rowid = old.item.rowid :=
        (makeYounger_rowid env newItem old.item).trans hrowid
      have hupdate := h.doUpdate_of_same env hold hkey hrowid'
      have hkept := h.doUpdate_keeps_recorded env hold hkey hrowid'
        (fun _ => lt_makeYounger env newItem old.item) hupdate
      unfold updateRow at hdone
      rw [hprepare, hupdate] at hdone
      cases hdone
      refine ⟨hkept.1.mono env fun k hk => ?_, hkept.2, fun hne => absurd hkeys hne⟩
      rw [List.mem_singleton.1 hk]
      exact List.mem_cons_self
    · rcases prepareUpdate_keys env cls hkeys with ⟨hkey, hrowid'⟩
      have hne := hkeys
      rw [← hkey] at hne
      have hrelocates := h.updateRow_relocates env hold hne (hrowid'.trans hrowid) hdone
      refine ⟨?_, hrelocates.recorded, fun hne hmake => absurd ⟨hne, hmake⟩ hmove⟩
      rw [← hkey]
      exact hrelocates.keeps env

theorem Keyed.delete_keeps (h : table.Keyed) (hold : old ∈ table.rows)
    {tombstoneTimeFromItem : Bool}
    (hdone : table.delete env cls old makeTombstone tombstoneTimeFromItem = some table') :
    Keeps env [old.item.primaryKey] table table' ∧ ∃ changes, table.Recorded changes table' := by
  unfold delete at hdone
  split_ifs at hdone with hmake
  · split at hdone
    · rename_i hupdate
      cases hdone
      apply h.doUpdate_keeps_recorded env hold _ _ _ hupdate
      · exact copyTombstone_primaryKey env old.item cls makeTombstone tombstoneTimeFromItem
      · exact copyTombstone_rowid env old.item cls makeTombstone tombstoneTimeFromItem
      · exact fun _ => lt_copyTombstone env old.item cls makeTombstone tombstoneTimeFromItem
    · cases hdone
  · cases hdone
    have hrecorded := h.doDelete_recorded hold
    have hfind (k : κ) : (table.doDelete old.item).find k =
        if old.item.primaryKey = k then none else table.find k := by
      rw [hrecorded.find_eq]
      exact KeychainChange.apply_deleted
    refine ⟨⟨hrecorded.keyed, ?_, ?_⟩, _, hrecorded⟩
    · intro k hk
      rw [hfind, if_neg]
      exact fun heq => hk (List.mem_singleton.2 heq.symm)
    · intro k row row' hrow _ hrow'
      rw [hfind] at hrow'
      split_ifs at hrow'
      rw [hrow] at hrow'
      exact Or.inl (Option.some.inj hrow').symm

omit [DecidableEq κ] in
theorem insertDuplicate_meets (useUUID useRef : Bool) (item oldItem : KeychainItem κ α) :
    (insertDuplicate env cls useUUID useRef (item.dated env) oldItem).Meets item oldItem := by
  unfold insertDuplicate
  dsimp only
  split_ifs
  · rfl
  · rfl
  · rfl
  · unfold secDbItemCopyMergedItem
    split_ifs
    · rfl
    · exact ⟨_, rfl⟩
    · exact ⟨_, rfl⟩
  · trivial

structure CallKeeps (cls : KeychainClass κ α) (c : KeychainCall κ α)
    (table table' : KeychainTable κ α) : Prop where
  keeps : Keeps env c.keys table table'
  recorded : ¬c.ReplacesItself env cls table → ∃ changes, table.Recorded changes table'
  moves : ∀ old newItem makeTombstone uuidFromPrimaryKey,
    c = .update old newItem makeTombstone uuidFromPrimaryKey →
      old.item.primaryKey ≠ newItem.primaryKey → makeTombstone ≠ some false →
        Moves env cls old newItem uuidFromPrimaryKey table table'

theorem Keyed.call_keeps (h : table.Keyed) (hmeets : c.Meets env table)
    (hdone : table.call env cls c = some table') : CallKeeps env cls c table table' := by
  cases c with
  | insert item useUUID useRef =>
    rcases h.insertOrReplace_keeps env (insertDuplicate_meets env cls useUUID useRef item) hdone with
      ⟨hkeeps, hrecorded⟩
    exact ⟨hkeeps, hrecorded, fun _ _ _ _ heq => nomatch heq⟩
  | insertOrReplace item duplicate =>
    rcases h.insertOrReplace_keeps env hmeets hdone with ⟨hkeeps, hrecorded⟩
    exact ⟨hkeeps, hrecorded, fun _ _ _ _ heq => nomatch heq⟩
  | update old newItem makeTombstone uuidFromPrimaryKey =>
    rcases h.update_keeps env cls hmeets.1 hmeets.2 hdone with ⟨hkeeps, hrecorded, hmoves⟩
    refine ⟨hkeeps, fun _ => hrecorded, ?_⟩
    rintro _ _ _ _ ⟨⟩
    exact hmoves
  | updateItself old =>
    refine ⟨?_, fun hnot => absurd trivial hnot, fun _ _ _ _ heq => nomatch heq⟩
    have hdone : table.updateItself env old = some table' := hdone
    unfold updateItself at hdone
    split_ifs at hdone
    have hself : old.item = old.item.setPersistentRef old.item.itempersistentref := rfl
    exact h.replaceItself_keeps env hmeets hself hdone
  | delete old makeTombstone tombstoneTimeFromItem =>
    rcases h.delete_keeps env cls hmeets hdone with ⟨hkeeps, hrecorded⟩
    exact ⟨hkeeps, fun _ => hrecorded, fun _ _ _ _ heq => nomatch heq⟩

/-- What the transaction of a call leaves. Its changes are those that the table shows. -/
structure TransactionKeeps (cls : KeychainClass κ α) (c : KeychainCall κ α)
    (table table' : KeychainTable κ α) : Prop where
  keeps : Keeps env c.keys table table'
  replays : ¬c.ReplacesItself env cls table → Replays table.find table'.changes table'.find
  moves : ∀ old newItem makeTombstone uuidFromPrimaryKey,
    c = .update old newItem makeTombstone uuidFromPrimaryKey →
      old.item.primaryKey ≠ newItem.primaryKey → makeTombstone ≠ some false →
        (table.begin.call env cls c).isSome →
          Moves env cls old newItem uuidFromPrimaryKey table table'
  fails : table.begin.call env cls c = none → table'.rows = table.rows

omit [DecidableEq κ] in
theorem meets_begin (h : c.Meets env table) : c.Meets env table.begin := by
  cases c <;> exact h

theorem replacesItself_begin (h : ¬c.ReplacesItself env cls table) :
    ¬c.ReplacesItself env cls table.begin := by
  cases c <;> exact h

theorem Keyed.transact_keeps (h : table.Keyed) {c : KeychainEnvironment × KeychainCall κ α}
    (hmeets : c.2.Meets c.1 table) :
    TransactionKeeps c.1 cls c.2 table (table.transact cls c) := by
  have hbegin : table.begin.Keyed := ⟨h.rowid, h.primaryKeys, h.rowids, h.lastRowid⟩
  unfold transact
  cases hcall : table.begin.call c.1 cls c.2 with
  | none =>
    rw [Option.getD_none]
    refine ⟨⟨hbegin, fun _ _ => rfl, ?_⟩, fun _ => Run.nil _, ?_, fun _ => rfl⟩
    · intro k row row' hrow _ hrow'
      have hrow' : table.find k = some row' := hrow'
      rw [hrow] at hrow'
      exact Or.inl (Option.some.inj hrow').symm
    · intro _ _ _ _ _ _ _ hsome
      rw [hcall] at hsome
      cases hsome
  | some table' =>
    rw [Option.getD_some]
    have hkept := hbegin.call_keeps c.1 cls (meets_begin c.1 hmeets) hcall
    refine ⟨⟨hkept.keeps.keyed, hkept.keeps.others, hkept.keeps.later⟩, fun hnot => ?_, ?_,
      fun hnone => ?_⟩
    · rcases hkept.recorded (replacesItself_begin c.1 cls hnot) with ⟨changes, hrecorded⟩
      have hchanges : table'.changes = changes := hrecorded.recorded
      rw [hchanges]
      exact hrecorded.replays
    · intro old newItem _ _ hc hne hmake _
      have hmoves := hkept.moves old newItem _ _ hc hne hmake
      exact ⟨hmoves.tombstone, hmoves.item, hmoves.uuid⟩
    · rw [hcall] at hnone
      cases hnone

def Calls (cls : KeychainClass κ α) : KeychainTable κ α →
    List (KeychainEnvironment × KeychainCall κ α) → KeychainTable κ α → Prop :=
  Run (fun table c => some (table.transact cls c)) fun table c => c.2.Meets c.1 table

theorem Keyed.calls (h : table.Keyed) {calls : List (KeychainEnvironment × KeychainCall κ α)}
    (hcalls : Calls cls table calls table') : table'.Keyed := by
  refine Run.invariant Keyed ?_ hcalls h
  intro table c _ hkeyed hmeets hstep
  cases hstep
  exact (hkeyed.transact_keeps cls hmeets).keeps.keyed

end KeychainTable

section
open KeychainTable

def loginClass : KeychainClass Nat Nat where
  digest key _ _ contents := [key.toUInt8, contents.toUInt8]
  uuidFromPrimaryKey key := [key.toUInt8]
  tombstoneContents _ := 0

def login (account : Nat) : KeychainItem Nat Nat where
  rowid := some 1
  primaryKey := account
  modificationDate := some 10
  tomb := false
  contents := 7
  itemuuid := some [1]
  itempersistentref := List.replicate 16 0
  cannotSync := []
  utomb := none

def loginTable : KeychainTable Nat Nat where
  rows := [⟨login 0, .readable⟩]
  lastRowid := 1
  changes := []

def loginEnvironment (ckksEnabled : Bool) : KeychainEnvironment where
  now := 20
  staticPersistentRefsEnabled := false
  ckksEnabled := ckksEnabled
  createUUID := [2]
  createPersistentRef := List.replicate 16 1

def rename (ckksEnabled : Bool) : KeychainEnvironment × KeychainCall Nat Nat :=
  (loginEnvironment ckksEnabled, .update ⟨login 0, .readable⟩ (login 1) none false)

theorem loginTable_keyed : loginTable.Keyed where
  rowid := by decide
  primaryKeys := by decide
  rowids := by decide
  lastRowid := by decide

theorem rename_meets (ckksEnabled : Bool) :
    (rename ckksEnabled).2.Meets (rename ckksEnabled).1 loginTable :=
  ⟨List.mem_singleton_self _, rfl⟩

end
end SecurityFramework
