import SecurityFramework.Library.LikePattern

/-!
# The identifiers of issuer groups

An update adds and deletes serial numbers or hashes of certificates.
-/

namespace SecurityFramework.Trustd
open LikePattern

inductive SecValidInfoFormat where
  | unknown
  | serial
  | sha256
  | nto1
deriving DecidableEq

structure IdentifierRow where
  groupid : Int
  identifier : List UInt8
deriving DecidableEq

/-- The tables that are looked at here. A group without a record has an unknown format. -/
structure RevocationTables where
  format : Int → SecValidInfoFormat
  serials : List IdentifierRow
  hashes : List IdentifierRow

def hexDigits : List Char :=
  ['0', '1', '2', '3', '4', '5', '6', '7', '8', '9', 'A', 'B', 'C', 'D', 'E', 'F']

/-- Two digits for each octet, which `hex` has as well. -/
def hexText (data : List UInt8) : List Char :=
  data.flatMap fun b => [hexDigits.getD (b.toNat / 16) '0', hexDigits.getD (b.toNat % 16) '0']

def cfToHexData (data : List UInt8) (prependWildcard : Bool) : List Char :=
  (if prependWildcard then ['%'] else []) ++ hexText data

/-- `deleteSerialRecordSQL` and `deleteSha256RecordSQL`: the rows of the group for which
`hex(identifier) LIKE ?`. -/
def deleteRecord (groupid : Int) (pattern : List Char) (rows : List IdentifierRow) :
    List IdentifierRow :=
  rows.filter fun row => !(row.groupid = groupid && like pattern (hexText row.identifier))

def insertRecord (groupid : Int) (identifier : List UInt8) (rows : List IdentifierRow) :
    List IdentifierRow :=
  rows.filter (· ≠ ⟨groupid, identifier⟩) ++ [⟨groupid, identifier⟩]

namespace RevocationTables
def rows (tables : RevocationTables) : SecValidInfoFormat → List IdentifierRow
  | .serial => tables.serials
  | .sha256 => tables.hashes
  | _ => []

def execute (statement : List IdentifierRow → List IdentifierRow) (format : SecValidInfoFormat)
    (tables : RevocationTables) : RevocationTables :=
  match format with
  | .serial => { tables with serials := statement tables.serials }
  | .sha256 => { tables with hashes := statement tables.hashes }
  | _ => tables
end RevocationTables

def groupFormatForData (tables : RevocationTables) (groupId : Int) (data : List UInt8) :
    SecValidInfoFormat :=
  if tables.format groupId ≠ .unknown then tables.format groupId
  else if data.length = 32 then .sha256
  else if data.length ≤ 37 then .serial
  else .nto1

structure IssuerData where
  delete : Option (List (List UInt8))
  add : Option (List (List UInt8))

/-- One loop over an array: the format is found out until it is known. -/
def forIdentifiers (groupId : Int)
    (statement : List UInt8 → List IdentifierRow → List IdentifierRow) :
    SecValidInfoFormat → List (List UInt8) → RevocationTables → RevocationTables
  | _, [], tables => tables
  | format, identifier :: identifiers, tables =>
    let known := if format = .unknown then groupFormatForData tables groupId identifier else format
    forIdentifiers groupId statement known identifiers
      (tables.execute (statement identifier) known)

def updateIssuerData (groupId : Int) (dict : IssuerData) (tables : RevocationTables) :
    Bool × RevocationTables :=
  if groupId < 0 then (false, tables)
  else
    let deleted := forIdentifiers groupId
      (fun identifier => deleteRecord groupId (cfToHexData identifier true))
      .unknown (dict.delete.getD []) tables
    (true, forIdentifiers groupId (insertRecord groupId) .unknown (dict.add.getD []) deleted)

def recordInGroup (rows : List IdentifierRow) (identifier : List UInt8) (groupId : Int) : Bool :=
  decide (0 < identifier.length) && rows.any fun row => row = ⟨groupId, identifier⟩

def serialInGroup (tables : RevocationTables) (serial : List UInt8) (groupId : Int) : Bool :=
  recordInGroup tables.serials serial groupId

def certHashInGroup (tables : RevocationTables) (certHash : List UInt8) (groupId : Int) : Bool :=
  recordInGroup tables.hashes certHash groupId
end SecurityFramework.Trustd

namespace SecurityFramework.Trustd
open LikePattern

theorem hexDigits_upper : ∀ n < 16, ∀ m < 16,
    (hexDigits.getD n '0').toLower = (hexDigits.getD m '0').toLower → n = m := by decide

theorem hexDigits_literal : ∀ n < 16,
    hexDigits.getD n '0' ≠ '%' ∧ hexDigits.getD n '0' ≠ '_' := by decide

theorem hexText_literal (data : List UInt8) : IsLiteral (hexText data) := by
  intro ch hch
  rw [hexText, List.mem_flatMap] at hch
  obtain ⟨b, -, hmem⟩ := hch
  have hb := b.toNat_lt
  rw [List.mem_cons, List.mem_singleton] at hmem
  rcases hmem with rfl | rfl
  · exact hexDigits_literal _ (by omega)
  · exact hexDigits_literal _ (by omega)

theorem length_hexText (data : List UInt8) : (hexText data).length = 2 * data.length := by
  induction data with
  | nil => rfl
  | cons b data ih =>
    rw [hexText, List.flatMap_cons, List.length_append, ← hexText, ih]
    simp only [List.length_cons, List.length_nil]
    omega

theorem hexText_append (front rest : List UInt8) :
    hexText (front ++ rest) = hexText front ++ hexText rest := List.flatMap_append

theorem hexText_injective {data data' : List UInt8}
    (h : (hexText data).map Char.toLower = (hexText data').map Char.toLower) : data = data' := by
  induction data generalizing data' with
  | nil =>
    cases data' with
    | nil => rfl
    | cons b data' => cases h
  | cons b data ih =>
    cases data' with
    | nil => cases h
    | cons b' data' =>
      have hb := b.toNat_lt
      have hb' := b'.toNat_lt
      simp only [hexText, List.flatMap_cons, List.map_cons, List.cons_append, List.nil_append,
        List.cons.injEq] at h
      obtain ⟨hhigh, hlow, hrest⟩ := h
      have hquotient := hexDigits_upper _ (by omega) _ (by omega) hhigh
      have hremainder := hexDigits_upper _ (by omega) _ (by omega) hlow
      have hbyte : b = b' := UInt8.toNat_inj.mp (by omega)
      rw [hbyte, ih hrest]

/-- The pattern of a deletion matches the identifiers that end in the deleted one. -/
theorem like_cfToHexData (identifier data : List UInt8) :
    like (cfToHexData identifier true) (hexText data) = true ↔ identifier <:+ data := by
  have hpattern : cfToHexData identifier true = '%' :: hexText identifier := rfl
  rw [hpattern, like_percent]
  constructor
  · intro h
    obtain ⟨rest, hsuffix, hlike⟩ := h
    rw [like_literal (hexText_literal identifier)] at hlike
    have hlength : rest.length = 2 * identifier.length := by
      have hlengths := congrArg List.length hlike
      rw [List.length_map, List.length_map, length_hexText] at hlengths
      exact hlengths.symm
    have hle : identifier.length ≤ data.length := by
      have hlengths := hsuffix.length_le
      rw [hlength, length_hexText] at hlengths
      omega
    have hsplit := List.take_append_drop (data.length - identifier.length) data
    -- the digits that the pattern matched are those of as many octets at the end
    have hrest : rest = hexText (data.drop (data.length - identifier.length)) := by
      have hend : hexText (data.drop (data.length - identifier.length)) <:+ hexText data := by
        rw [← hsplit, hexText_append, hsplit]
        exact List.suffix_append _ _
      apply List.IsSuffix.eq_of_length (List.suffix_of_suffix_length_le hsuffix hend _)
      · rw [hlength, length_hexText, List.length_drop]
        omega
      · rw [hlength, length_hexText, List.length_drop]
        omega
    rw [hrest] at hlike
    rw [hexText_injective hlike]
    exact List.drop_suffix _ _
  · intro h
    obtain ⟨front, rfl⟩ := h
    refine ⟨hexText identifier, ?_, (like_literal (hexText_literal identifier) _).mpr rfl⟩
    rw [hexText_append]
    exact List.suffix_append _ _

/-- The identifiers of a group are serial numbers or hashes. -/
def HasIdentifiers (tables : RevocationTables) (groupId : Int) : Prop :=
  tables.format groupId = .serial ∨ tables.format groupId = .sha256

def InGroup (tables : RevocationTables) (groupId : Int) (identifier : List UInt8) : Prop :=
  ⟨groupId, identifier⟩ ∈ tables.rows (tables.format groupId)

def lookup (tables : RevocationTables) (groupId : Int) (identifier : List UInt8) : Bool :=
  match tables.format groupId with
  | .serial => serialInGroup tables identifier groupId
  | .sha256 => certHashInGroup tables identifier groupId
  | _ => false

namespace IssuerData
def Deletes (dict : IssuerData) (identifier : List UInt8) : Prop :=
  identifier ∈ dict.delete.getD []

def Adds (dict : IssuerData) (identifier : List UInt8) : Prop := identifier ∈ dict.add.getD []

def Target (dict : IssuerData) (tables : RevocationTables) (groupId : Int)
    (identifier : List UInt8) : Prop :=
  InGroup tables groupId identifier ∧ ¬ dict.Deletes identifier ∨ dict.Adds identifier
end IssuerData

/-- The update leaves just the identifiers that it should in the group, and these are the ones that
lookups find. -/
def UpdatesExactly (tables : RevocationTables) (groupId : Int) (dict : IssuerData) : Prop :=
  ∀ identifier,
    (InGroup (updateIssuerData groupId dict tables).2 groupId identifier ↔
      dict.Target tables groupId identifier) ∧
    (lookup (updateIssuerData groupId dict tables).2 groupId identifier = true ↔
      dict.Target tables groupId identifier)

section
variable {tables : RevocationTables} {groupId : Int} {format : SecValidInfoFormat}

theorem format_execute (statement : List IdentifierRow → List IdentifierRow) :
    (tables.execute statement format).format = tables.format := by
  cases format <;> rfl

theorem rows_execute (hformat : format = .serial ∨ format = .sha256)
    (statement : List IdentifierRow → List IdentifierRow) :
    (tables.execute statement format).rows format = statement (tables.rows format) := by
  rcases hformat with rfl | rfl
  · rfl
  · rfl

theorem lookup_iff (hgroup : HasIdentifiers tables groupId) (identifier : List UInt8) :
    lookup tables groupId identifier = true ↔
      identifier ≠ [] ∧ InGroup tables groupId identifier := by
  have hrecord : ∀ rows, recordInGroup rows identifier groupId = true ↔
      identifier ≠ [] ∧ ⟨groupId, identifier⟩ ∈ rows := by
    intro rows
    simp [recordInGroup, List.length_pos_iff]
  rw [lookup, InGroup]
  rcases hgroup with h | h
  · rw [h]
    exact hrecord _
  · rw [h]
    exact hrecord _

theorem groupFormatForData_eq (hgroup : HasIdentifiers tables groupId) (data : List UInt8) :
    groupFormatForData tables groupId data = tables.format groupId := by
  rw [groupFormatForData, if_pos]
  rcases hgroup with h | h
  · rw [h]
    decide
  · rw [h]
    decide

theorem format_forIdentifiers
    (statement : List UInt8 → List IdentifierRow → List IdentifierRow)
    (identifiers : List (List UInt8)) :
    (forIdentifiers groupId statement format identifiers tables).format = tables.format := by
  induction identifiers generalizing format tables with
  | nil => rfl
  | cons identifier identifiers ih =>
    rw [forIdentifiers, ih, format_execute]

theorem rows_forIdentifiers (hgroup : HasIdentifiers tables groupId)
    (hformat : format = .unknown ∨ format = tables.format groupId)
    (statement : List UInt8 → List IdentifierRow → List IdentifierRow)
    (identifiers : List (List UInt8)) :
    (forIdentifiers groupId statement format identifiers tables).rows (tables.format groupId) =
      identifiers.foldl (fun rows identifier => statement identifier rows)
        (tables.rows (tables.format groupId)) := by
  induction identifiers generalizing format tables with
  | nil => rfl
  | cons identifier identifiers ih =>
    have hknown : (if format = .unknown then groupFormatForData tables groupId identifier
        else format) = tables.format groupId := by
      split
      case isTrue => exact groupFormatForData_eq hgroup identifier
      case isFalse hne => exact hformat.resolve_left hne
    rw [forIdentifiers, hknown, List.foldl_cons, ← rows_execute hgroup (statement identifier)]
    have hsame := @format_execute tables (tables.format groupId) (statement identifier)
    have hrest := @ih (tables.execute (statement identifier) (tables.format groupId))
      (tables.format groupId) (by rw [HasIdentifiers, hsame]; exact hgroup)
      (.inr (by rw [hsame]))
    rw [hsame] at hrest
    exact hrest

theorem mem_deleteAll (identifiers : List (List UInt8)) (rows : List IdentifierRow)
    (identifier : List UInt8) :
    ⟨groupId, identifier⟩ ∈ identifiers.foldl
        (fun rows deleted => deleteRecord groupId (cfToHexData deleted true) rows) rows ↔
      ⟨groupId, identifier⟩ ∈ rows ∧ ∀ deleted ∈ identifiers, ¬ deleted <:+ identifier := by
  induction identifiers generalizing rows with
  | nil => simp
  | cons deleted identifiers ih =>
    rw [List.foldl_cons, ih, deleteRecord, List.mem_filter, List.forall_mem_cons, and_assoc]
    have hlike := like_cfToHexData deleted identifier
    simp only [decide_true, Bool.true_and, Bool.not_eq_true', ← hlike, Bool.not_eq_true]

theorem mem_insertAll (identifiers : List (List UInt8)) (rows : List IdentifierRow)
    (identifier : List UInt8) :
    ⟨groupId, identifier⟩ ∈ identifiers.foldl
        (fun rows added => insertRecord groupId added rows) rows ↔
      ⟨groupId, identifier⟩ ∈ rows ∨ identifier ∈ identifiers := by
  induction identifiers generalizing rows with
  | nil => simp
  | cons added identifiers ih =>
    rw [List.foldl_cons, ih, insertRecord, List.mem_append, List.mem_filter, List.mem_singleton,
      List.mem_cons]
    by_cases hsame : identifier = added
    · simp [hsame]
    · simp [hsame]

theorem inGroup_updateIssuerData (hid : 0 ≤ groupId) (hgroup : HasIdentifiers tables groupId)
    (dict : IssuerData) (identifier : List UInt8) :
    InGroup (updateIssuerData groupId dict tables).2 groupId identifier ↔
      (InGroup tables groupId identifier ∧
        ∀ deleted, dict.Deletes deleted → ¬ deleted <:+ identifier) ∨ dict.Adds identifier := by
  have hformat := @format_forIdentifiers tables groupId .unknown
    (fun identifier => deleteRecord groupId (cfToHexData identifier true)) (dict.delete.getD [])
  have hgroup' := hgroup
  rw [HasIdentifiers, ← hformat] at hgroup'
  rw [updateIssuerData, if_neg (by omega), InGroup, format_forIdentifiers,
    rows_forIdentifiers hgroup' (.inl rfl), mem_insertAll, hformat,
    rows_forIdentifiers hgroup (.inl rfl), mem_deleteAll]
  rfl

theorem hasIdentifiers_updateIssuerData (hid : 0 ≤ groupId)
    (hgroup : HasIdentifiers tables groupId) (dict : IssuerData) :
    HasIdentifiers (updateIssuerData groupId dict tables).2 groupId := by
  rw [HasIdentifiers, updateIssuerData, if_neg (by omega), format_forIdentifiers,
    format_forIdentifiers]
  exact hgroup

/-- An update has the effect that it says just when no identifier that should stay ends in a
deleted one, and none that should be there is empty. -/
theorem updatesExactly_iff (hid : 0 ≤ groupId) (hgroup : HasIdentifiers tables groupId)
    (dict : IssuerData) :
    UpdatesExactly tables groupId dict ↔
      (∀ identifier, InGroup tables groupId identifier → ¬ dict.Deletes identifier →
        ¬ dict.Adds identifier → ∀ deleted, dict.Deletes deleted → ¬ deleted <:+ identifier) ∧
      ¬ dict.Target tables groupId [] := by
  have hafter := inGroup_updateIssuerData hid hgroup dict
  have hlookup := lookup_iff (hasIdentifiers_updateIssuerData hid hgroup dict)
  constructor
  · intro hexact
    constructor
    · intro identifier hin hkept hnew deleted hdeletes hsuffix
      have hstays := (hexact identifier).1.mpr (.inl ⟨hin, hkept⟩)
      rcases (hafter identifier).mp hstays with hstays | hadds
      · exact hstays.2 deleted hdeletes hsuffix
      · exact hnew hadds
    · intro hempty
      exact ((hlookup []).mp ((hexact []).2.mpr hempty)).1 rfl
  · intro hcondition identifier
    obtain ⟨hsuffixes, hempty⟩ := hcondition
    have hin : InGroup (updateIssuerData groupId dict tables).2 groupId identifier ↔
        dict.Target tables groupId identifier := by
      rw [hafter identifier]
      constructor
      · intro h
        rcases h with h | hadds
        · exact .inl ⟨h.1, fun hdeletes => h.2 identifier hdeletes List.suffix_rfl⟩
        · exact .inr hadds
      · intro h
        rcases h with h | hadds
        · by_cases hadds : dict.Adds identifier
          · exact .inr hadds
          · exact .inl ⟨h.1, hsuffixes identifier h.1 h.2 hadds⟩
        · exact .inr hadds
    refine ⟨hin, ?_⟩
    rw [hlookup identifier, hin]
    constructor
    · intro h
      exact h.2
    · intro h
      refine ⟨?_, h⟩
      rintro rfl
      exact hempty h
end

def sampleTables : RevocationTables where
  format := fun _ => .serial
  serials := [⟨1, [1, 2]⟩, ⟨1, [2]⟩]
  hashes := []

theorem updatesExactly_sample :
    UpdatesExactly sampleTables 1 ⟨some [[1, 2]], some [[3]]⟩ ↔
      (∀ identifier, InGroup sampleTables 1 identifier →
        ¬ IssuerData.Deletes ⟨some [[1, 2]], some [[3]]⟩ identifier →
        ¬ IssuerData.Adds ⟨some [[1, 2]], some [[3]]⟩ identifier →
        ∀ deleted, IssuerData.Deletes ⟨some [[1, 2]], some [[3]]⟩ deleted →
          ¬ deleted <:+ identifier) ∧
      ¬ IssuerData.Target ⟨some [[1, 2]], some [[3]]⟩ sampleTables 1 [] :=
  updatesExactly_iff (by decide) (.inl rfl) _

/-- With the serial number 02, the serial number 0102 is deleted too. -/
theorem other_serial_deleted :
    InGroup sampleTables 1 [1, 2] ∧ lookup sampleTables 1 [1, 2] = true ∧
      lookup (updateIssuerData 1 ⟨some [[2]], none⟩ sampleTables).2 1 [1, 2] = false ∧
      ¬ UpdatesExactly sampleTables 1 ⟨some [[2]], none⟩ := by
  have hin : InGroup sampleTables 1 [1, 2] := by
    rw [InGroup]
    decide
  have hgone : lookup (updateIssuerData 1 ⟨some [[2]], none⟩ sampleTables).2 1 [1, 2] = false := by
    decide
  refine ⟨hin, by decide, hgone, ?_⟩
  intro hexact
  have hkept : ¬ IssuerData.Deletes ⟨some [[2]], none⟩ [1, 2] := by
    rw [IssuerData.Deletes]
    decide
  have hfound := (hexact [1, 2]).2.mpr (.inl ⟨hin, hkept⟩)
  rw [hgone] at hfound
  cases hfound
end SecurityFramework.Trustd
