import SecurityFramework.Filedb.TableCommit

/-! # The entries of indexes -/

namespace SecurityFramework.Filedb
def equivalent (a b : List DbValue) : Bool :=
  !DbIndexKey.lessThan a b && !DbIndexKey.lessThan b a

theorem equivalent_comm (a b : List DbValue) : equivalent a b = equivalent b a :=
  Bool.and_comm _ _

def Distinct (entries : List (List DbValue × UInt32)) : Prop :=
  entries.Pairwise fun a b => equivalent a.1 b.1 = false

theorem Distinct.of_perm {entries entries' : List (List DbValue × UInt32)}
    (hdistinct : Distinct entries) (hperm : entries.Perm entries') : Distinct entries' := by
  apply hdistinct.perm hperm
  intro a b hab
  rw [equivalent_comm]
  exact hab

namespace DbMutableIndex
variable {index index' index'' : DbMutableIndex} {recordNumber : UInt32}
  {values : List (List DbValue)} {keys added : List (List DbValue)}

theorem contains_eq_false_iff {key : List DbValue} :
    index.contains key = false ↔ ∀ entry ∈ index.map, equivalent key entry.1 = false := by
  rw [contains, List.any_eq_false]
  simp only [Bool.not_eq_true]
  constructor
  · intro hnone entry hmem
    rw [equivalent_comm]
    exact hnone entry hmem
  · intro hnone entry hmem
    rw [← hnone entry hmem, equivalent_comm]
    rfl

structure Entered (recordNumber : UInt32) (keys : List (List DbValue))
    (index index' : DbMutableIndex) : Prop where
  toDbIndex : index'.toDbIndex = index.toDbIndex
  perm : index'.map.Perm (keys.map (·, recordNumber) ++ index.map)

theorem Entered.refl (recordNumber : UInt32) (index : DbMutableIndex) :
    Entered recordNumber [] index index := ⟨rfl, .refl _⟩

theorem Entered.trans (hentered : Entered recordNumber keys index index')
    (hentered' : Entered recordNumber added index' index'') :
    Entered recordNumber (keys ++ added) index index'' where
  toDbIndex := hentered'.toDbIndex.trans hentered.toDbIndex
  perm := by
    apply hentered'.perm.trans
    rw [List.map_append, List.append_assoc]
    apply (hentered.perm.append_left _).trans
    rw [← List.append_assoc, ← List.append_assoc]
    exact List.perm_append_comm.append_right _

theorem entered_insert (index : DbMutableIndex) (key : List DbValue) (recordNumber : UInt32) :
    Entered recordNumber [key] index (index.insert key recordNumber) :=
  ⟨rfl, List.perm_orderedInsert _ _ _⟩

structure Accepts (index : DbMutableIndex) (values : List (List DbValue)) : Prop where
  notMissing : valueCounts values ≠ .missing
  absent : ∀ key ∈ combinations values, index.contains key = false
  distinct : (combinations values).Pairwise fun a b => equivalent a b = false

def Takes (index : DbMutableIndex) (values : List (List DbValue)) : Prop :=
  index.isUniqueIndex = true → index.Accepts values

def RefusesAtOnce (index : DbMutableIndex) (values : List (List DbValue)) : Prop :=
  index.isUniqueIndex = true ∧ (valueCounts values = .missing ∨
    ∃ key rest, combinations values = key :: rest ∧ index.contains key = true)

theorem insertKeys_of_not_unique (hunique : index.isUniqueIndex = false) :
    ∃ index', insertKeys recordNumber keys index = (index', none) ∧
      Entered recordNumber keys index index' := by
  induction keys generalizing index with
  | nil => exact ⟨index, rfl, .refl _ _⟩
  | cons key rest ih =>
    have hentered := entered_insert index key recordNumber
    obtain ⟨index', hinsert, hrest⟩ := @ih (index.insert key recordNumber) hunique
    refine ⟨index', ?_, hentered.trans hrest⟩
    rw [insertKeys, insertKey, hunique]
    exact hinsert

theorem insertKeys_of_absent (habsent : ∀ key ∈ keys, index.contains key = false)
    (hdistinct : keys.Pairwise fun a b => equivalent a b = false) :
    ∃ index', insertKeys recordNumber keys index = (index', none) ∧
      Entered recordNumber keys index index' := by
  induction keys generalizing index with
  | nil => exact ⟨index, rfl, .refl _ _⟩
  | cons key rest ih =>
    have hentered := entered_insert index key recordNumber
    obtain ⟨hhead, htail⟩ := List.pairwise_cons.mp hdistinct
    have habsent' : ∀ other ∈ rest, (index.insert key recordNumber).contains other = false := by
      intro other hother
      rw [contains_eq_false_iff]
      intro entry hentry
      have hmem := hentered.perm.mem_iff.mp hentry
      cases List.mem_cons.mp hmem with
      | inl heq =>
        rw [heq, equivalent_comm]
        exact hhead other hother
      | inr hold =>
        exact contains_eq_false_iff.mp (habsent other (List.mem_cons_of_mem _ hother)) entry hold
    obtain ⟨index', hinsert, hrest⟩ := ih habsent' htail
    refine ⟨index', ?_, hentered.trans hrest⟩
    rw [insertKeys, insertKey, habsent key List.mem_cons_self, Bool.and_false]
    exact hinsert

theorem insertKeys_of_refused (hunique : index.isUniqueIndex = true)
    (hrefused : ¬((∀ key ∈ keys, index.contains key = false) ∧
      keys.Pairwise fun a b => equivalent a b = false)) :
    ∃ index' error added, insertKeys recordNumber keys index = (index', some error) ∧
      Entered recordNumber added index index' := by
  induction keys generalizing index with
  | nil => exact absurd ⟨fun _ hmem => (by cases hmem), .nil⟩ hrefused
  | cons key rest ih =>
    cases hcontains : index.contains key with
    | true =>
      refine ⟨index, .invalidUniqueIndexData, [], ?_, .refl _ _⟩
      rw [insertKeys, insertKey, hunique, hcontains]
      rfl
    | false =>
      have hentered := entered_insert index key recordNumber
      have hrest : ¬((∀ other ∈ rest, (index.insert key recordNumber).contains other = false) ∧
          rest.Pairwise fun a b => equivalent a b = false) := by
        intro hboth
        have hnone : ∀ other ∈ rest, ∀ entry ∈ (key, recordNumber) :: index.map,
            equivalent other entry.1 = false := by
          intro other hother entry hentry
          exact contains_eq_false_iff.mp (hboth.1 other hother) entry
            (hentered.perm.mem_iff.mpr hentry)
        apply hrefused
        refine ⟨?_, List.pairwise_cons.mpr ⟨?_, hboth.2⟩⟩
        · intro other hother
          cases List.mem_cons.mp hother with
          | inl heq => rw [heq, hcontains]
          | inr hother =>
            rw [contains_eq_false_iff]
            exact fun entry hentry => hnone other hother entry (List.mem_cons_of_mem _ hentry)
        · intro other hother
          rw [equivalent_comm]
          exact hnone other hother _ List.mem_cons_self
      obtain ⟨index', error, added, hinsert, hadded⟩ :=
        @ih (index.insert key recordNumber) hunique hrest
      refine ⟨index', error, [key] ++ added, ?_, hentered.trans hadded⟩
      rw [insertKeys, insertKey, hcontains, Bool.and_false]
      exact hinsert

variable (recordNumber) in
theorem insertRecord_of_takes (htakes : index.Takes values) :
    ∃ index', insertRecord recordNumber values index = (index', none) ∧
      Entered recordNumber (combinations values) index index' := by
  cases hunique : index.isUniqueIndex with
  | false =>
    rw [insertRecord_eq _ _ fun _ => hunique]
    exact insertKeys_of_not_unique hunique
  | true =>
    have haccepts := htakes hunique
    rw [insertRecord_eq _ _ fun hmissing => absurd hmissing haccepts.notMissing]
    exact insertKeys_of_absent haccepts.absent haccepts.distinct

variable (recordNumber) in
theorem insertRecord_of_not_takes (htakes : ¬index.Takes values) :
    ∃ index' error added, insertRecord recordNumber values index = (index', some error) ∧
      Entered recordNumber added index index' := by
  obtain ⟨hunique, hrefused⟩ := Classical.not_imp.mp htakes
  by_cases hmissing : valueCounts values = .missing
  · refine ⟨index, .missingValue, [], ?_, .refl _ _⟩
    rw [insertRecord, hmissing]
    simp only [hunique, if_true]
  · rw [insertRecord_eq _ _ fun h => absurd h hmissing]
    apply insertKeys_of_refused hunique
    intro hboth
    exact hrefused ⟨hmissing, hboth.1, hboth.2⟩

variable (recordNumber) in
theorem insertRecord_of_refusesAtOnce (hrefuses : index.RefusesAtOnce values) :
    ∃ error, insertRecord recordNumber values index = (index, some error) := by
  obtain ⟨hunique, hrefuses⟩ := hrefuses
  by_cases hmissing : valueCounts values = .missing
  · refine ⟨.missingValue, ?_⟩
    rw [insertRecord, hmissing]
    simp only [hunique, if_true]
  · obtain ⟨key, rest, hkeys, hcontains⟩ := hrefuses.resolve_left hmissing
    refine ⟨.invalidUniqueIndexData, ?_⟩
    rw [insertRecord_eq _ _ fun h => absurd h hmissing, hkeys, insertKeys, insertKey, hunique,
      hcontains]
    rfl

structure SameEntries (index index' : DbMutableIndex) : Prop where
  toDbIndex : index'.toDbIndex = index.toDbIndex
  perm : index'.map.Perm index.map

theorem SameEntries.refl (index : DbMutableIndex) : SameEntries index index := ⟨rfl, .refl _⟩

theorem Entered.removeRecord (hentered : Entered recordNumber added index index') :
    SameEntries (index.removeRecord recordNumber) (index'.removeRecord recordNumber) where
  toDbIndex := hentered.toDbIndex
  perm := by
    apply (hentered.perm.filter _).trans
    rw [List.filter_append]
    have hnil : (added.map (·, recordNumber)).filter (fun entry => entry.2 ≠ recordNumber) = [] := by
      rw [List.filter_eq_nil_iff]
      intro entry hentry
      obtain ⟨key, -, rfl⟩ := List.mem_map.mp hentry
      simp
    rw [hnil]
    exact .refl _

theorem Entered.sameEntries (hentered : Entered recordNumber [] index index') :
    SameEntries index index' := ⟨hentered.toDbIndex, hentered.perm⟩

theorem SameEntries.contains_eq (hsame : SameEntries index index') (key : List DbValue) :
    index'.contains key = index.contains key := by
  rw [contains, contains, Bool.eq_iff_iff, List.any_eq_true, List.any_eq_true]
  simp only [hsame.perm.mem_iff]

theorem SameEntries.takes (hsame : SameEntries index index') (htakes : index.Takes values) :
    index'.Takes values := by
  intro hunique
  rw [hsame.toDbIndex] at hunique
  have haccepts := htakes hunique
  refine ⟨haccepts.notMissing, ?_, haccepts.distinct⟩
  intro key hkey
  rw [hsame.contains_eq]
  exact haccepts.absent key hkey
end DbMutableIndex

section
variable {Attributes Changes : Type*} (metaRecord : MetaRecord Attributes Changes)

def MetaRecord.keys (index : DbIndex) (body : List UInt8) : List (List DbValue) :=
  combinations (metaRecord.indexValues index body)

structure DbMutableIndex.Exact (records : LatestRecords) (index : DbMutableIndex) : Prop where
  entries : ∀ n, ((index.map.filter fun entry => entry.2 = n).map Prod.fst).Perm
    (match records n with
      | none => []
      | some record => metaRecord.keys index.toDbIndex record.body)
  distinct : index.isUniqueIndex = true → Distinct index.map
  keyed : index.isUniqueIndex = true → ∀ n record, records n = some record →
    metaRecord.keys index.toDbIndex record.body ≠ []

namespace DbMutableIndex.Exact
variable {metaRecord} {records : LatestRecords} {index index' index'' : DbMutableIndex}
  {recordNumber : UInt32} {record : PackedRecord}

theorem sameEntries (hexact : index.Exact metaRecord records) (hsame : SameEntries index index') :
    index'.Exact metaRecord records where
  entries := by
    intro n
    rw [hsame.toDbIndex]
    exact ((hsame.perm.filter _).map _).trans (hexact.entries n)
  distinct := by
    rw [hsame.toDbIndex]
    exact fun hunique => (hexact.distinct hunique).of_perm hsame.perm.symm
  keyed := by
    rw [hsame.toDbIndex]
    exact hexact.keyed

theorem entries_of_none (hexact : index.Exact metaRecord records)
    (hnone : records recordNumber = none) : ∀ entry ∈ index.map, entry.2 ≠ recordNumber := by
  intro entry hmem heq
  have hentries := hexact.entries recordNumber
  rw [hnone] at hentries
  have hfiltered : entry.1 ∈ (index.map.filter fun entry => entry.2 = recordNumber).map Prod.fst := by
    apply List.mem_map_of_mem
    rw [List.mem_filter]
    exact ⟨hmem, by simpa using heq⟩
  have hnil := hentries.mem_iff.mp hfiltered
  cases hnil

theorem removeRecord_of_no_keys (hexact : index.Exact metaRecord records)
    (hkeys : ∀ record, records recordNumber = some record →
      metaRecord.keys index.toDbIndex record.body = []) :
    index.removeRecord recordNumber = index := by
  have hall : ∀ entry ∈ index.map, entry.2 ≠ recordNumber := by
    cases hrecord : records recordNumber with
    | none => exact hexact.entries_of_none hrecord
    | some record =>
      intro entry hmem heq
      have hentries := hexact.entries recordNumber
      rw [hrecord] at hentries
      simp only [hkeys record hrecord] at hentries
      have hnil := hentries.eq_nil
      rw [List.map_eq_nil_iff, List.filter_eq_nil_iff] at hnil
      exact hnil entry hmem (by simpa using heq)
  have hmap : index.map.filter (fun entry => entry.2 ≠ recordNumber) = index.map := by
    rw [List.filter_eq_self]
    intro entry hmem
    simpa using hall entry hmem
  rw [removeRecord, hmap]

theorem remove (hexact : index.Exact metaRecord records) (recordNumber : UInt32) :
    (index.removeRecord recordNumber).Exact metaRecord
      (Function.update records recordNumber none) where
  entries := by
    intro n
    rw [removeRecord, List.filter_filter]
    by_cases heq : n = recordNumber
    · rw [heq, Function.update_self]
      have hnil : index.map.filter (fun entry => decide (entry.2 = recordNumber) &&
          decide (entry.2 ≠ recordNumber)) = [] := by
        rw [List.filter_eq_nil_iff]
        intro entry _
        simp
      rw [hnil]
      exact .refl _
    · rw [Function.update_of_ne heq]
      have hfilter : index.map.filter (fun entry => decide (entry.2 = n) &&
          decide (entry.2 ≠ recordNumber)) = index.map.filter fun entry => entry.2 = n := by
        apply List.filter_congr
        intro entry _
        by_cases hn : entry.2 = n
        · simp [hn, heq]
        · simp [hn]
      rw [hfilter]
      exact hexact.entries n
  distinct := by
    intro hunique
    exact (hexact.distinct hunique).filter _
  keyed := by
    intro hunique n record hrecord
    by_cases heq : n = recordNumber
    · rw [heq, Function.update_self] at hrecord
      cases hrecord
    · rw [Function.update_of_ne heq] at hrecord
      exact hexact.keyed hunique n record hrecord

theorem enter (hexact : index.Exact metaRecord records) (hnone : records recordNumber = none)
    (htakes : index.Takes (metaRecord.indexValues index.toDbIndex record.body))
    (hkeys : index.isUniqueIndex = true → metaRecord.keys index.toDbIndex record.body ≠ [])
    (hentered : Entered recordNumber (metaRecord.keys index.toDbIndex record.body) index index') :
    index'.Exact metaRecord (Function.update records recordNumber (some record)) where
  entries := by
    intro n
    rw [hentered.toDbIndex]
    apply ((hentered.perm.filter _).map _).trans
    rw [List.filter_append, List.map_append]
    by_cases heq : n = recordNumber
    · have hold : index.map.filter (fun entry => entry.2 = n) = [] := by
        rw [List.filter_eq_nil_iff]
        intro entry hmem
        rw [heq]
        simpa using hexact.entries_of_none hnone entry hmem
      have hnew : ((metaRecord.keys index.toDbIndex record.body).map (·, recordNumber)).filter
          (fun entry => entry.2 = n) =
            (metaRecord.keys index.toDbIndex record.body).map (·, recordNumber) := by
        rw [List.filter_eq_self]
        intro entry hmem
        obtain ⟨key, -, rfl⟩ := List.mem_map.mp hmem
        simpa using heq.symm
      rw [hold, hnew, List.map_nil, List.append_nil, List.map_map, heq, Function.update_self]
      exact List.Perm.of_eq (List.map_id _)
    · have hnew : ((metaRecord.keys index.toDbIndex record.body).map (·, recordNumber)).filter
          (fun entry => entry.2 = n) = [] := by
        rw [List.filter_eq_nil_iff]
        intro entry hmem
        obtain ⟨key, -, rfl⟩ := List.mem_map.mp hmem
        simpa using Ne.symm heq
      rw [hnew, Function.update_of_ne heq]
      exact hexact.entries n
  distinct := by
    rw [hentered.toDbIndex]
    intro hunique
    have haccepts := htakes hunique
    apply Distinct.of_perm _ hentered.perm.symm
    apply List.pairwise_append.mpr
    refine ⟨?_, hexact.distinct hunique, ?_⟩
    · rw [List.pairwise_map]
      exact haccepts.distinct
    · intro entry hentry other hother
      obtain ⟨key, hkey, rfl⟩ := List.mem_map.mp hentry
      exact contains_eq_false_iff.mp (haccepts.absent key hkey) other hother
  keyed := by
    rw [hentered.toDbIndex]
    intro hunique n other hother
    by_cases heq : n = recordNumber
    · rw [heq, Function.update_self] at hother
      cases hother
      exact hkeys hunique
    · rw [Function.update_of_ne heq] at hother
      exact hexact.keyed hunique n other hother

theorem perm_removeRecord (hexact : index.Exact metaRecord records)
    (hrecord : records recordNumber = some record) :
    index.map.Perm ((metaRecord.keys index.toDbIndex record.body).map (·, recordNumber) ++
      (index.removeRecord recordNumber).map) := by
  have hentries := hexact.entries recordNumber
  rw [hrecord] at hentries
  have hmine : (index.map.filter fun entry => entry.2 = recordNumber).Perm
      ((metaRecord.keys index.toDbIndex record.body).map (·, recordNumber)) := by
    have hpairs := hentries.map (·, recordNumber)
    rw [List.map_map] at hpairs
    have hself : (index.map.filter fun entry => entry.2 = recordNumber).map
        ((·, recordNumber) ∘ Prod.fst) = index.map.filter fun entry => entry.2 = recordNumber := by
      conv_rhs => rw [← List.map_id (index.map.filter fun entry => entry.2 = recordNumber)]
      apply List.map_congr_left
      intro entry hmem
      have heq : entry.2 = recordNumber := by simpa using (List.mem_filter.mp hmem).2
      rw [← heq]
      rfl
    rwa [hself] at hpairs
  have hsplit := (List.filter_append_perm (fun entry => decide (entry.2 = recordNumber))
    index.map).symm
  apply hsplit.trans
  apply List.Perm.append hmine
  apply List.Perm.of_eq
  rw [removeRecord]
  apply List.filter_congr
  intro entry _
  simp

theorem takes_removed (hexact : index.Exact metaRecord records)
    (hrecord : records recordNumber = some record) :
    (index.removeRecord recordNumber).Takes (metaRecord.indexValues index.toDbIndex record.body) := by
  intro hunique
  have hperm := hexact.perm_removeRecord hrecord
  have hdistinct := (hexact.distinct hunique).of_perm hperm
  obtain ⟨hkeys, -, habsent⟩ := List.pairwise_append.mp hdistinct
  rw [List.pairwise_map] at hkeys
  refine ⟨?_, ?_, hkeys⟩
  · intro hmissing
    exact hexact.keyed hunique recordNumber record hrecord (combinations_of_missing hmissing)
  · intro key hkey
    rw [contains_eq_false_iff]
    exact habsent (key, recordNumber) (List.mem_map_of_mem hkey)

theorem restored (hexact : index.Exact metaRecord records)
    (hrecord : records recordNumber = some record)
    (hremoved : SameEntries (index.removeRecord recordNumber) index')
    (hentered : Entered recordNumber (metaRecord.keys index.toDbIndex record.body) index' index'') :
    SameEntries index index'' where
  toDbIndex := hentered.toDbIndex.trans hremoved.toDbIndex
  perm := by
    apply hentered.perm.trans
    apply (hremoved.perm.append_left _).trans
    exact (hexact.perm_removeRecord hrecord).symm
end DbMutableIndex.Exact

variable {metaRecord}

theorem forall_of_forall₂ {α β : Type*} {R : α → β → Prop} {P : β → Prop} {as : List α}
    {bs : List β} (hrelated : List.Forall₂ R as bs) (himp : ∀ a ∈ as, ∀ b, R a b → P b) :
    ∀ b ∈ bs, P b := by
  induction hrelated with
  | nil =>
    intro b hb
    cases hb
  | cons hab _ ih =>
    intro b hb
    cases List.mem_cons.mp hb with
    | inl heq =>
      rw [heq]
      exact himp _ List.mem_cons_self _ hab
    | inr hmem => exact ih (fun a ha => himp a (List.mem_cons_of_mem _ ha)) b hmem

namespace ModifiedTable
open DbMutableIndex

variable {indexes indexes' : List DbMutableIndex} {recordNumber : UInt32} {body : List UInt8}

theorem insertIntoIndexes_of_takes
    (htakes : ∀ index ∈ indexes, index.Takes (metaRecord.indexValues index.toDbIndex body)) :
    ∃ indexes', insertIntoIndexes metaRecord recordNumber body indexes = (indexes', none) ∧
      List.Forall₂ (fun index index' =>
        Entered recordNumber (metaRecord.keys index.toDbIndex body) index index')
        indexes indexes' := by
  induction indexes with
  | nil => exact ⟨[], rfl, .nil⟩
  | cons index rest ih =>
    obtain ⟨index', hinsert, hentered⟩ :=
      insertRecord_of_takes recordNumber (htakes index List.mem_cons_self)
    obtain ⟨rest', hrest, hrelated⟩ := ih fun other hother => htakes other (List.mem_cons_of_mem _ hother)
    refine ⟨index' :: rest', ?_, .cons hentered hrelated⟩
    rw [insertIntoIndexes, hinsert]
    simp only [hrest]

theorem insertIntoIndexes_of_not_takes
    (htakes : ¬∀ index ∈ indexes, index.Takes (metaRecord.indexValues index.toDbIndex body)) :
    ∃ indexes' error, insertIntoIndexes metaRecord recordNumber body indexes =
        (indexes', some error) ∧
      List.Forall₂ (fun index index' => ∃ added, Entered recordNumber added index index')
        indexes indexes' := by
  have hrefl : ∀ rest : List DbMutableIndex,
      List.Forall₂ (fun index index' => ∃ added, Entered recordNumber added index index') rest rest :=
    fun rest => List.forall₂_same.mpr fun index _ => ⟨[], .refl _ _⟩
  induction indexes with
  | nil => exact absurd (fun _ hmem => by cases hmem) htakes
  | cons index rest ih =>
    by_cases hindex : index.Takes (metaRecord.indexValues index.toDbIndex body)
    · obtain ⟨index', hinsert, hentered⟩ :=
        insertRecord_of_takes recordNumber hindex
      have hrest : ¬∀ other ∈ rest, other.Takes (metaRecord.indexValues other.toDbIndex body) := by
        intro hall
        apply htakes
        intro other hother
        cases List.mem_cons.mp hother with
        | inl heq =>
          rw [heq]
          exact hindex
        | inr hmem => exact hall other hmem
      obtain ⟨rest', error, hinsertRest, hrelated⟩ := ih hrest
      refine ⟨index' :: rest', error, ?_, .cons ⟨_, hentered⟩ hrelated⟩
      rw [insertIntoIndexes, hinsert]
      simp only [hinsertRest]
    · obtain ⟨index', error, added, hinsert, hentered⟩ :=
        insertRecord_of_not_takes recordNumber hindex
      refine ⟨index' :: rest, error, ?_, .cons ⟨added, hentered⟩ (hrefl rest)⟩
      rw [insertIntoIndexes, hinsert]

def RefusedAtOnce (metaRecord : MetaRecord Attributes Changes) (indexes : List DbMutableIndex)
    (body : List UInt8) : Prop :=
  ∃ before index after, indexes = before ++ index :: after ∧
    (∀ other ∈ before, other.Takes (metaRecord.indexValues other.toDbIndex body) ∧
      metaRecord.keys other.toDbIndex body = []) ∧
    index.RefusesAtOnce (metaRecord.indexValues index.toDbIndex body)

theorem insertIntoIndexes_of_refusedAtOnce (hrefused : RefusedAtOnce metaRecord indexes body) :
    ∃ indexes' error, insertIntoIndexes metaRecord recordNumber body indexes =
        (indexes', some error) ∧
      List.Forall₂ SameEntries indexes indexes' := by
  obtain ⟨before, index, after, rfl, hbefore, hindex⟩ := hrefused
  induction before with
  | nil =>
    obtain ⟨error, hinsert⟩ := insertRecord_of_refusesAtOnce recordNumber hindex
    refine ⟨index :: after, error, ?_, List.forall₂_same.mpr fun _ _ => .refl _⟩
    rw [List.nil_append, insertIntoIndexes, hinsert]
  | cons other before ih =>
    obtain ⟨htakes, hkeys⟩ := hbefore other List.mem_cons_self
    obtain ⟨other', hinsert, hentered⟩ :=
      insertRecord_of_takes recordNumber htakes
    obtain ⟨indexes', error, hrest, hrelated⟩ :=
      ih fun next hnext => hbefore next (List.mem_cons_of_mem _ hnext)
    have hentered : Entered recordNumber (metaRecord.keys other.toDbIndex body) other other' :=
      hentered
    rw [hkeys] at hentered
    refine ⟨other' :: indexes', error, ?_, .cons hentered.sameEntries hrelated⟩
    rw [List.cons_append, insertIntoIndexes, hinsert]
    simp only [hrest]
end ModifiedTable
end
end SecurityFramework.Filedb
