import SecurityFramework.Library.Run
import SecurityFramework.Securityd.KeychainTable

/-! # Changes and the rows they describe -/

namespace SecurityFramework
variable {κ α : Type*} [DecidableEq κ]

namespace KeychainChange
variable (change : KeychainChange κ α) (rows : κ → Option (KeychainRow κ α))

def apply (k : κ) : Option (KeychainRow κ α) :=
  if change.inserted.any fun item => item.primaryKey = k then
    change.inserted.map fun item => ⟨item, .readable⟩
  else if change.deleted.any fun item => item.primaryKey = k then none
  else rows k

def Applicable : Prop :=
  (∀ item ∈ change.deleted, ∃ row, rows item.primaryKey = some row ∧ row.item = item) ∧
    ∀ item ∈ change.inserted, rows item.primaryKey = none ∨
      ∃ deleted ∈ change.deleted, deleted.primaryKey = item.primaryKey

variable {rows}

theorem apply_inserted {deleted? : Option (KeychainItem κ α)} {item : KeychainItem κ α} {k : κ} :
    apply ⟨deleted?, some item⟩ rows k =
      if item.primaryKey = k then some ⟨item, .readable⟩ else apply ⟨deleted?, none⟩ rows k := by
  simp only [apply, Option.any_some, decide_eq_true_eq, Option.map_some, Option.any_none,
    Bool.false_eq_true, if_false]

theorem apply_deleted {item : KeychainItem κ α} {k : κ} :
    apply ⟨some item, none⟩ rows k = if item.primaryKey = k then none else rows k := by
  simp only [apply, Option.any_some, decide_eq_true_eq, Option.any_none, Bool.false_eq_true,
    if_false]

theorem apply_none {k : κ} : apply ⟨none, none⟩ rows k = rows k :=
  rfl
end KeychainChange

def Replays (rows : κ → Option (KeychainRow κ α)) (changes : List (KeychainChange κ α))
    (rows' : κ → Option (KeychainRow κ α)) : Prop :=
  Run (fun rows change => some (change.apply rows)) (fun rows change => change.Applicable rows)
    rows changes rows'

variable {rows : κ → Option (KeychainRow κ α)}

theorem Replays.one {change : KeychainChange κ α} (happ : change.Applicable rows) :
    Replays rows [change] (change.apply rows) :=
  Run.cons happ rfl (Run.nil _)

theorem Replays.applicable {rows' : κ → Option (KeychainRow κ α)} {change : KeychainChange κ α}
    {changes : List (KeychainChange κ α)} (h : Replays rows (change :: changes) rows') :
    change.Applicable rows := by
  cases h with
  | cons happ _ _ => exact happ

/-- What changes lead to depends on the rows and the changes only. -/
theorem Replays.eq_foldl {rows' : κ → Option (KeychainRow κ α)}
    {changes : List (KeychainChange κ α)} (h : Replays rows changes rows') :
    rows' = changes.foldl (fun rows change => change.apply rows) rows := by
  induction h with
  | nil rows => rfl
  | cons _ hstep _ ih =>
    cases hstep
    exact ih

namespace KeychainTable
variable (env : KeychainEnvironment) {table table' table'' : KeychainTable κ α}

structure Recorded (table : KeychainTable κ α) (changes : List (KeychainChange κ α))
    (table' : KeychainTable κ α) : Prop where
  keyed : table'.Keyed
  recorded : table'.changes = table.changes ++ changes
  replays : Replays table.find changes table'.find

theorem Recorded.append {changes changes' : List (KeychainChange κ α)}
    (h : table.Recorded changes table') (h' : table'.Recorded changes' table'') :
    table.Recorded (changes ++ changes') table'' where
  keyed := h'.keyed
  recorded := by rw [h'.recorded, h.recorded, List.append_assoc]
  replays := h.replays.append h'.replays

theorem Recorded.find_eq {changes : List (KeychainChange κ α)}
    (h : table.Recorded changes table') :
    table'.find = changes.foldl (fun rows change => change.apply rows) table.find :=
  h.replays.eq_foldl

theorem Recorded.recordUpdate {deleted inserted : Option (KeychainItem κ α)}
    (hkeyed : table'.Keyed) (hsame : table'.changes = table.changes)
    (happ : KeychainChange.Applicable ⟨deleted, inserted⟩ table.find)
    (hfind : table'.find = KeychainChange.apply ⟨deleted, inserted⟩ table.find) :
    table.Recorded [⟨deleted, inserted⟩] (table'.recordUpdate deleted inserted) := by
  refine ⟨⟨hkeyed.rowid, hkeyed.primaryKeys, hkeyed.rowids, hkeyed.lastRowid⟩, ?_, ?_⟩
  · rw [← hsame]
    rfl
  · have hreplays := Replays.one happ
    rw [← hfind] at hreplays
    exact hreplays

theorem find_eq_of_rows {rows : κ → Option (KeychainRow κ α)} (h : table.Keyed)
    (hrows : ∀ k row, rows k = some row ↔ row ∈ table.rows ∧ row.item.primaryKey = k) :
    table.find = rows := by
  funext k
  apply Option.ext
  intro row
  rw [h.find_eq_some_iff, hrows]

variable {item : KeychainItem κ α} {row : KeychainRow κ α}

theorem find_eq_none_of_beside (h : ∀ row ∈ table.rows, row.item.primaryKey ≠ item.primaryKey) :
    table.find item.primaryKey = none := by
  apply List.find?_eq_none.2
  intro row hrow
  rw [decide_eq_true_eq]
  exact h row hrow

omit [DecidableEq κ] in
theorem nodup_addRow {β : Type*} {f : KeychainItem κ α → β}
    (hf : (table.rows.map fun row => f row.item).Nodup)
    (hfree : ∀ row ∈ table.rows, f row.item ≠ f item) :
    ((table.addRow item).rows.map fun row => f row.item).Nodup := by
  unfold KeychainTable.addRow
  rw [List.map_append, List.nodup_append]
  refine ⟨hf, List.nodup_singleton _, ?_⟩
  intro left hleft right hright
  rcases List.mem_map.1 hleft with ⟨row, hrow, rfl⟩
  rw [List.map_singleton, List.mem_singleton] at hright
  rw [hright]
  exact hfree row hrow

theorem Keyed.addRow (h : table.Keyed) (hsome : item.rowid.isSome) (hfree : ∀ row ∈ table.rows,
      row.item.primaryKey ≠ item.primaryKey ∧ row.item.rowid ≠ item.rowid) :
    (table.addRow item).Keyed := by
  have hmem {row : KeychainRow κ α} (hrow : row ∈ (table.addRow item).rows) :
      row ∈ table.rows ∨ row = ⟨item, .readable⟩ := by
    rcases List.mem_append.1 hrow with hrow | hrow
    · exact Or.inl hrow
    · exact Or.inr (List.mem_singleton.1 hrow)
  constructor
  · intro row hrow
    rcases hmem hrow with hrow | rfl
    · exact h.rowid row hrow
    · exact hsome
  · exact nodup_addRow h.primaryKeys fun row hrow => (hfree row hrow).1
  · exact nodup_addRow h.rowids fun row hrow => (hfree row hrow).2
  · intro row hrow r hr
    rcases hmem hrow with hrow | rfl
    · exact (h.lastRowid row hrow r hr).trans (le_max_left _ _)
    · have hr : item.rowid = some r := hr
      change r ≤ max table.lastRowid (item.rowid.getD 0)
      rw [hr]
      exact le_max_right _ _

theorem Keyed.withRowid_free (h : table.Keyed) (hfree : ¬conflicts table.rows item = true)
    (hrow : row ∈ table.rows) :
    row.item.primaryKey ≠ (table.withRowid item).primaryKey ∧
      row.item.rowid ≠ (table.withRowid item).rowid := by
  constructor
  · exact fun heq => hfree (conflicts_eq_true.2 ⟨row, hrow, Or.inl heq⟩)
  · intro heq
    change row.item.rowid = some (item.rowid.getD (table.lastRowid + 1)) at heq
    cases hrowid : item.rowid with
    | some r =>
      rw [hrowid, Option.getD_some, ← hrowid] at heq
      exact hfree (conflicts_eq_true.2 ⟨row, hrow, Or.inr ⟨hrowid ▸ rfl, heq⟩⟩)
    | none =>
      rw [hrowid, Option.getD_none] at heq
      have hle := h.lastRowid row hrow _ heq
      omega

theorem Keyed.doInsert_recorded (h : table.Keyed) (hdone : table.doInsert item = .done table') :
    table.Recorded [⟨none, some (table.withRowid item)⟩] table' := by
  unfold doInsert at hdone
  split_ifs at hdone with hfree
  cases hdone
  have hkeyed : (table.addRow (table.withRowid item)).Keyed :=
    h.addRow rfl fun row hrow => h.withRowid_free hfree hrow
  have hnone : table.find (table.withRowid item).primaryKey = none :=
    find_eq_none_of_beside fun row hrow => (h.withRowid_free hfree hrow).1
  refine Recorded.recordUpdate hkeyed rfl ?_ ?_
  · exact ⟨fun _ hd => absurd hd (Option.not_mem_none _),
      fun _ hi => Or.inl (Option.mem_some.1 hi ▸ hnone)⟩
  · apply find_eq_of_rows hkeyed
    intro k row
    rw [KeychainChange.apply_inserted, KeychainChange.apply_none]
    change _ ↔ row ∈ table.rows ++ [_] ∧ _
    rw [List.mem_append, List.mem_singleton]
    split_ifs with hk
    · subst hk
      constructor
      · intro heq
        cases heq
        exact ⟨Or.inr rfl, rfl⟩
      · rintro ⟨hrow | rfl, hkey⟩
        · exact absurd hkey (h.withRowid_free hfree hrow).1
        · rfl
    · rw [h.find_eq_some_iff]
      constructor
      · exact fun hrow => ⟨Or.inl hrow.1, hrow.2⟩
      · rintro ⟨hrow | rfl, hkey⟩
        · exact ⟨hrow, hkey⟩
        · exact absurd hkey hk

theorem Keyed.replaceRow_recorded (h : table.Keyed) (hrow : row ∈ table.rows)
    (hbeside : table.Beside row.item.rowid item) (hsome : item.rowid.isSome)
    (hlast : ∀ r ∈ item.rowid, r ≤ table.lastRowid) :
    table.Recorded [⟨some row.item, some item⟩]
      ((table.replaceRow row.item.rowid item).recordUpdate (some row.item) (some item)) := by
  have hkeyed := h.replaceRow hrow hbeside hsome hlast
  refine Recorded.recordUpdate hkeyed rfl ?_ ?_
  · constructor
    · intro deleted hd
      cases hd
      exact ⟨row, h.find_of_mem hrow, rfl⟩
    · intro inserted hi
      cases hi
      by_cases hkey : row.item.primaryKey = item.primaryKey
      · exact Or.inr ⟨row.item, rfl, hkey⟩
      · apply Or.inl
        apply find_eq_none_of_beside
        intro row' hrow'
        by_cases hsame : row'.item.rowid = row.item.rowid
        · rw [h.eq_of_rowid hrow' hrow hsame]
          exact hkey
        · exact (hbeside row' hrow' hsame).1
  · apply find_eq_of_rows hkeyed
    intro k row'
    rw [KeychainChange.apply_inserted, KeychainChange.apply_deleted, mem_replaceRow]
    split_ifs with hnew hold
    · subst hnew
      constructor
      · intro heq
        cases heq
        exact ⟨Or.inl ⟨row, hrow, rfl, rfl⟩, rfl⟩
      · rintro ⟨⟨_, _, _, rfl⟩ | ⟨hmem, hne⟩, hkey⟩
        · rfl
        · exact absurd hkey (hbeside row' hmem hne).1
    · constructor
      · exact fun heq => nomatch heq
      · rintro ⟨⟨_, _, _, rfl⟩ | ⟨hmem, hne⟩, hkey⟩
        · exact absurd hkey hnew
        · exact absurd (congrArg (fun row => row.item.rowid)
            (h.eq_of_primaryKey hmem hrow (hkey.trans hold.symm))) hne
    · rw [h.find_eq_some_iff]
      constructor
      · rintro ⟨hmem, hkey⟩
        refine ⟨Or.inr ⟨hmem, fun heq => hold ?_⟩, hkey⟩
        rw [← h.eq_of_rowid hmem hrow heq]
        exact hkey
      · rintro ⟨⟨_, _, _, rfl⟩ | ⟨hmem, hne⟩, hkey⟩
        · exact absurd hkey hnew
        · exact ⟨hmem, hkey⟩

theorem Keyed.doUpdate_recorded (h : table.Keyed) (hrow : row ∈ table.rows)
    (hlast : ∀ r ∈ item.rowid, r ≤ table.lastRowid)
    (hdone : table.doUpdate env row.item item = .done table') :
    table.Recorded [⟨some row.item, some (written env row.item item)⟩] table' := by
  unfold doUpdate at hdone
  dsimp only at hdone
  split_ifs at hdone with hnone hfree
  cases hdone
  have hsome : (written env row.item item).rowid.isSome := by
    rw [← Option.not_isNone, Bool.not_eq_true']
    exact Bool.not_eq_true _ ▸ hnone
  apply h.replaceRow_recorded hrow (beside_of_not_conflicts hsome hfree) hsome
  rw [written_rowid]
  exact hlast

theorem Keyed.doDelete_recorded (h : table.Keyed) (hrow : row ∈ table.rows) :
    table.Recorded [⟨some row.item, none⟩] (table.doDelete row.item) := by
  have hmem {row' : KeychainRow κ α} :
      row' ∈ table.rows.filter (fun row' => row'.item.rowid ≠ row.item.rowid) ↔
        row' ∈ table.rows ∧ row'.item.rowid ≠ row.item.rowid := by
    rw [List.mem_filter, decide_eq_true_eq]
  refine Recorded.recordUpdate (h.deleteRow row.item.rowid) rfl ?_ ?_
  · constructor
    · intro deleted hd
      cases hd
      exact ⟨row, h.find_of_mem hrow, rfl⟩
    · exact fun _ hi => absurd hi (Option.not_mem_none _)
  · apply find_eq_of_rows (h.deleteRow row.item.rowid)
    intro k row'
    rw [KeychainChange.apply_deleted, hmem]
    split_ifs with hk
    · constructor
      · exact fun heq => nomatch heq
      · rintro ⟨⟨hrow', hne⟩, hkey⟩
        exact absurd (congrArg (fun row => row.item.rowid)
          (h.eq_of_primaryKey hrow' hrow (hkey.trans hk.symm))) hne
    · rw [h.find_eq_some_iff]
      constructor
      · rintro ⟨hrow', hkey⟩
        refine ⟨⟨hrow', fun heq => hk ?_⟩, hkey⟩
        rw [← h.eq_of_rowid hrow' hrow heq]
        exact hkey
      · rintro ⟨⟨hrow', -⟩, hkey⟩
        exact ⟨hrow', hkey⟩
end KeychainTable
end SecurityFramework
