import SecurityFramework.Authd.RuleDatabase
import SecurityFramework.Library.Extrema
import SecurityFramework.Library.Run

/-! # Looking rules up -/

namespace SecurityFramework.Authd
open Relation

def Delegates (db : AuthDatabase) (a b : Nat) : Prop :=
  ∃ row ∈ db.delegatesMap, row.rId = a ∧ row.dId = b

section
variable {α β : Type*} {f : α → Option β} {l : List α}

theorem isSome_mapM (hf : ∀ a ∈ l, (f a).isSome) : (l.mapM f).isSome := by
  induction l with
  | nil => rfl
  | cons a l ih =>
    obtain ⟨b, hb⟩ := Option.isSome_iff_exists.mp (hf a List.mem_cons_self)
    obtain ⟨bs, hbs⟩ :=
      Option.isSome_iff_exists.mp (ih fun a ha => hf a (List.mem_cons_of_mem _ ha))
    simp [List.mapM_cons, hb, hbs]

theorem exists_of_mem_mapM {bs : List β} (hbs : l.mapM f = some bs) :
    ∀ b ∈ bs, ∃ a ∈ l, f a = some b := by
  induction l generalizing bs with
  | nil =>
    cases hbs
    simp
  | cons a l ih =>
    simp only [List.mapM_cons, Option.bind_eq_bind, Option.bind_eq_some_iff, Option.pure_def,
      Option.some.injEq] at hbs
    obtain ⟨b, hb, bs, hrest, rfl⟩ := hbs
    intro b' hb'
    rcases List.mem_cons.mp hb' with rfl | hb'
    · exact ⟨a, List.mem_cons_self, hb⟩
    · obtain ⟨a', ha', hfa⟩ := ih hrest b' hb'
      exact ⟨a', List.mem_cons_of_mem _ ha', hfa⟩
end

section
variable {db : AuthDatabase}

theorem mem_delegatesOf {id : Nat} {delegate : RuleItems} (hmem : delegate ∈ db.delegatesOf id) :
    delegate ∈ db.rules ∧ Delegates db id delegate.id := by
  simp only [AuthDatabase.delegatesOf, List.mem_flatMap, List.mem_insertionSort, List.mem_filter,
    decide_eq_true_eq] at hmem
  obtain ⟨row, ⟨hrow, hid⟩, hdelegate, heq⟩ := hmem
  exact ⟨hdelegate, row, hrow, hid, heq.symm⟩

theorem isSome_getSqlDelegates {rank : Nat → Nat}
    (hrank : ∀ a b, Delegates db a b → rank b < rank a) (fuel : Nat) (rule : RuleItems)
    (hfuel : rank rule.id < fuel) : (getSqlDelegates db fuel rule).isSome := by
  induction fuel generalizing rule with
  | zero => omega
  | succ fuel ih =>
    rw [getSqlDelegates]
    apply isSome_mapM
    intro delegate hdelegate
    have hless := hrank _ _ (mem_delegatesOf hdelegate).2
    split
    · rw [Option.isSome_map]
      exact ih delegate (by omega)
    · rfl

theorem isSome_ruleSqlFetch {rank : Nat → Nat}
    (hrank : ∀ a b, Delegates db a b → rank b < rank a) (fuel : Nat) (rule : RuleObject)
    (hfuel : rank ((db.ruleWithName rule.items.name).getD rule.items).id < fuel) :
    (ruleSqlFetch fuel db rule).isSome := by
  rw [ruleSqlFetch]
  split
  · obtain ⟨delegations, hdelegations⟩ :=
      Option.isSome_iff_exists.mp (isSome_getSqlDelegates hrank fuel _ hfuel)
    simp [hdelegations]
  · rfl

theorem mem_rules_of_getSqlDelegates {fuel : Nat} {rule : RuleItems}
    {delegations : List RuleObject} (hget : getSqlDelegates db fuel rule = some delegations) :
    ∀ delegate ∈ delegations, delegate.items ∈ db.rules := by
  cases fuel with
  | zero => cases hget
  | succ fuel =>
    rw [getSqlDelegates] at hget
    intro delegate hdelegate
    obtain ⟨row, hrow, heq⟩ := exists_of_mem_mapM hget delegate hdelegate
    have hrules := (mem_delegatesOf hrow).1
    split at heq
    · obtain ⟨delegations, -, rfl⟩ := Option.map_eq_some_iff.mp heq
      exact hrules
    · cases heq
      exact hrules

/-- A fetched rule has the items in the database, if there are any. Its delegates are those it had or
have theirs from the database too. -/
theorem ruleSqlFetch_spec {fuel : Nat} {rule fetched : RuleObject} {found : Bool}
    (hfetch : ruleSqlFetch fuel db rule = some (found, fetched)) :
    fetched.items = (db.ruleWithName rule.items.name).getD rule.items ∧
      ∀ delegate ∈ fetched.delegations,
        delegate ∈ rule.delegations ∨ delegate.items ∈ db.rules := by
  rw [ruleSqlFetch] at hfetch
  split at hfetch
  · simp only [Option.bind_eq_bind, Option.bind_eq_some_iff, Option.some.injEq] at hfetch
    obtain ⟨delegations, hget, heq⟩ := hfetch
    cases heq
    exact ⟨rfl, fun delegate hdelegate =>
      .inr (mem_rules_of_getSqlDelegates hget delegate hdelegate)⟩
  · cases hfetch
    exact ⟨rfl, fun delegate hdelegate => .inl hdelegate⟩
end

def delegateId (db : AuthDatabase) (delegate : RuleObject) : Nat :=
  if delegate.items.id = 0 then ((db.ruleWithName delegate.items.name).map (·.id)).getD 0
  else delegate.items.id

section
variable {db db' : AuthDatabase}

theorem fetchUnknown_spec {fuel : Nat} {rule fetched : RuleObject}
    (hfetch : fetchUnknown fuel db rule = some fetched) :
    fetched.items.id = delegateId db rule ∧
      ∀ delegate ∈ fetched.delegations,
        delegate ∈ rule.delegations ∨ delegate.items ∈ db.rules := by
  rw [fetchUnknown] at hfetch
  split at hfetch
  case isTrue hnew =>
    obtain ⟨⟨found, fetched⟩, hsql, rfl⟩ := Option.map_eq_some_iff.mp hfetch
    obtain ⟨hitems, hdelegations⟩ := ruleSqlFetch_spec hsql
    refine ⟨?_, hdelegations⟩
    rw [hitems, delegateId, if_pos hnew]
    cases db.ruleWithName rule.items.name with
    | none => exact hnew
    | some row => rfl
  case isFalse hknown =>
    cases hfetch
    rw [delegateId, if_neg hknown]
    exact ⟨rfl, fun delegate hdelegate => .inl hdelegate⟩

theorem validateDelegates_spec {fuel : Nat} {delegates validated : List RuleObject} {valid : Bool}
    (hvalidate : validateDelegates fuel db delegates = some (valid, validated)) :
    ∀ delegate ∈ validated, delegate.items.id ≠ 0 →
      ∃ before ∈ delegates, delegate.items.id = delegateId db before := by
  induction delegates generalizing valid validated with
  | nil =>
    cases hvalidate
    simp
  | cons before delegates ih =>
    simp only [validateDelegates, Option.bind_eq_bind, Option.bind_eq_some_iff] at hvalidate
    obtain ⟨first, hfirst, hrest⟩ := hvalidate
    have hid := (fetchUnknown_spec hfirst).1
    intro delegate hdelegate hne
    split at hrest
    · cases hrest
      rcases List.mem_cons.mp hdelegate with rfl | hdelegate
      · exact ⟨before, List.mem_cons_self, hid⟩
      · exact ⟨delegate, List.mem_cons_of_mem _ hdelegate, by rw [delegateId, if_neg hne]⟩
    · simp only [Option.bind_eq_some_iff, Option.some.injEq] at hrest
      obtain ⟨⟨valid, others⟩, hothers, heq⟩ := hrest
      cases heq
      rcases List.mem_cons.mp hdelegate with rfl | hdelegate
      · exact ⟨before, List.mem_cons_self, hid⟩
      · obtain ⟨other, hother, heq⟩ := ih hothers delegate hdelegate hne
        exact ⟨other, List.mem_cons_of_mem _ hother, heq⟩

/-- The rows of a rule are written for its delegates, each of which is in the database. -/
theorem insertDelegates_spec {id ord : Nat} {delegates : List RuleObject}
    (hinsert : insertDelegates id delegates ord db = (true, db')) :
    db'.rules = db.rules ∧ db'.lastId = db.lastId ∧
      ∀ row ∈ db'.delegatesMap, row ∈ db.delegatesMap ∨
        row.rId = id ∧ ∃ delegate ∈ delegates, row.dId = delegate.items.id ∧
          (∃ rule ∈ db.rules, rule.id = row.rId) ∧ ∃ rule ∈ db.rules, rule.id = row.dId := by
  induction delegates generalizing ord db with
  | nil =>
    cases hinsert
    exact ⟨rfl, rfl, fun row hrow => .inl hrow⟩
  | cons delegate delegates ih =>
    rw [insertDelegates, AuthDatabase.insertDelegate] at hinsert
    split at hinsert
    case h_2 => cases hinsert
    case h_1 heq =>
      split at heq
      case isFalse => cases heq
      case isTrue hboth =>
        cases heq
        simp only [Bool.and_eq_true, List.any_eq_true, decide_eq_true_eq] at hboth
        obtain ⟨hrules, hlast, hrows⟩ := ih hinsert
        refine ⟨hrules, hlast, ?_⟩
        intro row hrow
        rcases hrows row hrow with hold | ⟨hid, other, hother, hrest⟩
        · rcases List.mem_append.mp hold with hold | hnew
          · exact .inl hold
          · rw [List.mem_singleton] at hnew
            subst hnew
            exact .inr ⟨rfl, delegate, List.mem_cons_self, rfl, hboth⟩
        · exact .inr ⟨hid, other, List.mem_cons_of_mem _ hother, hrest⟩

theorem update_spec {items : RuleItems} (hupdate : (db.update items).1 = true) :
    (db.update items).2.delegatesMap = db.delegatesMap ∧
      (db.update items).2.lastId = db.lastId ∧
      ∀ row ∈ (db.update items).2.rules, ∃ row' ∈ db.rules, row'.id = row.id := by
  rw [AuthDatabase.update] at hupdate ⊢
  split at hupdate
  case isTrue => cases hupdate
  case isFalse hfree =>
    rw [if_neg hfree]
    refine ⟨rfl, rfl, ?_⟩
    intro row hrow
    obtain ⟨row', hrow', rfl⟩ := List.mem_map.mp hrow
    refine ⟨row', hrow', ?_⟩
    split
    case isTrue heq => exact heq
    case isFalse => rfl

theorem insert_spec {items : RuleItems} (hinsert : (db.insert items).1 = true) :
    (db.insert items).2.delegatesMap = db.delegatesMap ∧
      (db.insert items).2.lastId = db.lastId + 1 ∧
      (((db.insert items).2.ruleWithName items.name).map (·.id)).getD 0 = db.lastId + 1 ∧
      ∀ row ∈ (db.insert items).2.rules, row ∈ db.rules ∨ row.id = db.lastId + 1 := by
  rw [AuthDatabase.insert] at hinsert ⊢
  split at hinsert
  case isTrue => cases hinsert
  case isFalse hfree =>
    have hnone : db.rules.find? (fun row => row.name = items.name) = none := by
      simpa using hfree
    rw [if_neg hfree]
    refine ⟨rfl, rfl, ?_, ?_⟩
    · simp [AuthDatabase.ruleWithName, hnone, AuthDatabase.bind]
    · intro row hrow
      rcases List.mem_append.mp hrow with hold | hadded
      · exact .inl hold
      · rw [List.mem_singleton] at hadded
        subst hadded
        exact .inr rfl
end

structure AuthState where
  db : AuthDatabase
  rules : List RuleObject

def AuthState.initial : AuthState := ⟨.empty, []⟩

inductive AuthCall where
  | createWithString (name : String)
  | createWithPlist (type : RuleType) (name : String) (plist : RulePlist)
  | commit (index : Nat)
  | remove (index : Nat)

def authStep (s : AuthState) : Nat × AuthCall → Option AuthState
  | (fuel, .createWithString name) => do
    let rule ← ruleCreateWithString fuel s.db name
    some { s with rules := s.rules ++ [rule] }
  | (fuel, .createWithPlist type name plist) => do
    let rule ← ruleCreateWithPlist fuel s.db type name plist
    some { s with rules := s.rules ++ [rule] }
  | (fuel, .commit index) => do
    let rule ← s.rules[index]?
    let (_, db, rule) ← ruleSqlCommit fuel s.db rule
    some ⟨db, s.rules.set index rule⟩
  | (fuel, .remove index) => do
    let rule ← s.rules[index]?
    let (_, db, rule) ← ruleSqlRemove fuel s.db rule
    some ⟨db, s.rules.set index rule⟩

/-- A delegate of the rule is the rule, or leads back to it. -/
def LeadsBack (db : AuthDatabase) (rule : RuleObject) : Prop :=
  ∃ delegate ∈ rule.delegations,
    ReflTransGen (Delegates db) (delegateId db delegate) rule.items.id

/-- A rule that is in the database is not committed with a delegate that leads back to it. -/
def CommitsNoCycle (s : AuthState) : Nat × AuthCall → Prop
  | (_, .commit index) =>
    ∀ rule, s.rules[index]? = some rule → rule.items.id ≠ 0 → ¬LeadsBack s.db rule
  | _ => True

structure AuthDatabase.Valid (db : AuthDatabase) : Prop where
  ranked : Ranked (Delegates db)
  rules_le : ∀ row ∈ db.rules, 0 < row.id ∧ row.id ≤ db.lastId
  map_le : ∀ row ∈ db.delegatesMap, row.rId ≤ db.lastId ∧ row.dId ≤ db.lastId

structure AuthState.Valid (s : AuthState) : Prop where
  db_valid : s.db.Valid
  delegations_le : ∀ rule ∈ s.rules, ∀ delegate ∈ rule.delegations,
    delegate.items.id ≤ s.db.lastId

theorem AuthState.Valid.initial : AuthState.initial.Valid where
  db_valid :=
    { ranked := .of_isEmpty fun _ _ ⟨_, hrow, _⟩ => absurd hrow List.not_mem_nil
      rules_le := fun _ hrow => absurd hrow List.not_mem_nil
      map_le := fun _ hrow => absurd hrow List.not_mem_nil }
  delegations_le _ hrule := absurd hrule List.not_mem_nil

section
variable {db db' : AuthDatabase}

theorem AuthDatabase.Valid.id_le_of_name (hdb : db.Valid) (name : String) :
    ((db.ruleWithName name).map (·.id)).getD 0 ≤ db.lastId := by
  cases hfound : db.ruleWithName name with
  | none => exact Nat.zero_le _
  | some row => exact (hdb.rules_le row (List.mem_of_find?_eq_some hfound)).2

theorem AuthDatabase.Valid.delegateId_le (hdb : db.Valid) {delegate : RuleObject}
    (hdelegate : delegate.items.id ≤ db.lastId) : delegateId db delegate ≤ db.lastId := by
  rw [delegateId]
  split
  · exact hdb.id_le_of_name _
  · exact hdelegate

variable {delegations : List RuleObject} {fuel : Nat} {rule : RuleObject}

theorem AuthDatabase.Valid.redirect (hdb : db.Valid) {id : Nat} (hlast : db.lastId ≤ db'.lastId)
    (hrules : ∀ row ∈ db'.rules, 0 < row.id ∧ row.id ≤ db'.lastId)
    (hrows : ∀ row ∈ db'.delegatesMap, row ∈ db.delegatesMap ∨
      row.rId = id ∧ ∃ delegate ∈ delegations, row.dId = delegate.items.id ∧
        (∃ rule ∈ db'.rules, rule.id = row.rId) ∧ ∃ rule ∈ db'.rules, rule.id = row.dId)
    (haway : ∀ delegate ∈ delegations, delegate.items.id ≠ 0 →
      ¬ReflTransGen (Delegates db) delegate.items.id id) : db'.Valid where
  ranked := by
    apply hdb.ranked.redirect id ((delegations.map (·.items.id)).filter (· ≠ 0))
    · rintro a b ⟨row, hrow, rfl, rfl⟩
      rcases hrows row hrow with hold | ⟨hid, delegate, hdelegate, heq, -, rule, hrule, hd⟩
      · exact .inl ⟨row, hold, rfl, rfl⟩
      · have hpos := (hrules rule hrule).1
        have hmem : row.dId ∈ delegations.map (·.items.id) :=
          List.mem_map.mpr ⟨delegate, hdelegate, heq.symm⟩
        refine .inr ⟨hid, List.mem_filter.mpr ⟨hmem, ?_⟩⟩
        simp only [ne_eq, decide_not, Bool.not_eq_eq_eq_not, Bool.not_true, decide_eq_false_iff_not]
        omega
    · intro b hb
      obtain ⟨hmem, hne⟩ := List.mem_filter.mp hb
      obtain ⟨delegate, hdelegate, rfl⟩ := List.mem_map.mp hmem
      exact haway delegate hdelegate (by simpa using hne)
  rules_le := hrules
  map_le row hrow := by
    rcases hrows row hrow with hold | ⟨-, delegate, -, -, ⟨rule, hrule, hr⟩, rule', hrule', hd⟩
    · have hle := hdb.map_le row hold
      exact ⟨by omega, by omega⟩
    · rw [← hr, ← hd]
      exact ⟨(hrules rule hrule).2, (hrules rule' hrule').2⟩

theorem AuthDatabase.Valid.not_leads_to_next (hdb : db.Valid) {id : Nat} (hid : id ≤ db.lastId) :
    ¬ReflTransGen (Delegates db) id (db.lastId + 1) := by
  intro hpath
  rcases ReflTransGen.cases_tail hpath with heq | ⟨_, -, row, hrow, -, heq⟩
  · omega
  · have hle := (hdb.map_le row hrow).2
    omega

theorem AuthDatabase.Valid.of_sqlCommitDelegatesMap {id : Nat} {written : AuthDatabase}
    (hdb : db.Valid) (hlast : db.lastId ≤ written.lastId)
    (hmap : written.delegatesMap = db.delegatesMap)
    (hrules : ∀ row ∈ written.rules, 0 < row.id ∧ row.id ≤ written.lastId)
    (haway : ∀ delegate ∈ delegations, delegate.items.id ≠ 0 →
      ¬ReflTransGen (Delegates db) delegate.items.id id)
    (hcommit : (sqlCommitDelegatesMap written id delegations).1 = true) :
    (sqlCommitDelegatesMap written id delegations).2.Valid ∧
      (sqlCommitDelegatesMap written id delegations).2.lastId = written.lastId := by
  obtain ⟨hsame, hgiven, hrows⟩ := insertDelegates_spec (Prod.ext hcommit rfl)
  rw [sqlCommitDelegatesMap] at hcommit ⊢
  refine ⟨hdb.redirect (by rw [hgiven]; exact hlast) (by rwa [hsame, hgiven]) ?_ haway, hgiven⟩
  intro row hrow
  rw [hsame]
  rcases hrows row hrow with hold | hnew
  · rw [AuthDatabase.deleteDelegates, hmap] at hold
    exact .inl (List.mem_of_mem_filter hold)
  · exact .inr hnew

theorem AuthDatabase.Valid.of_commitTransaction (hdb : db.Valid) {items : RuleItems}
    (hle : ∀ delegate ∈ delegations, delegate.items.id ≤ db.lastId)
    (haway : items.id ≠ 0 → ∀ delegate ∈ delegations, delegate.items.id ≠ 0 →
      ¬ReflTransGen (Delegates db) delegate.items.id items.id) :
    (commitTransaction db items delegations).2.1.Valid ∧
      db.lastId ≤ (commitTransaction db items delegations).2.1.lastId := by
  rw [commitTransaction]
  split
  case isFalse => exact ⟨hdb, Nat.le_refl _⟩
  case isTrue hboth =>
    obtain ⟨hwritten, hcommitted⟩ := Bool.and_eq_true_iff.mp hboth
    rw [writeRule] at hwritten hcommitted ⊢
    split
    case isTrue hknown =>
      rw [if_pos hknown] at hwritten hcommitted
      obtain ⟨hmap, hlast, hids⟩ := update_spec hwritten
      obtain ⟨hvalid, hlast'⟩ := hdb.of_sqlCommitDelegatesMap (Nat.le_of_eq hlast.symm) hmap (by
        intro row hrow
        obtain ⟨row', hrow', heq⟩ := hids row hrow
        rw [hlast, ← heq]
        exact hdb.rules_le row' hrow') (haway hknown) hcommitted
      exact ⟨hvalid, by rw [hlast', hlast]⟩
    case isFalse hnew =>
      rw [if_neg hnew] at hwritten hcommitted
      obtain ⟨hmap, hlast, hid, hids⟩ := insert_spec hwritten
      simp only [hid] at hcommitted ⊢
      obtain ⟨hvalid, hlast'⟩ := hdb.of_sqlCommitDelegatesMap (by omega) hmap (by
        intro row hrow
        rcases hids row hrow with hold | hadded
        · have hle := hdb.rules_le row hold
          omega
        · omega)
        (fun delegate hdelegate _ => hdb.not_leads_to_next (hle delegate hdelegate)) hcommitted
      exact ⟨hvalid, by omega⟩

theorem AuthDatabase.Valid.of_deleteRule (hdb : db.Valid) (id : Nat) : (db.deleteRule id).Valid where
  ranked := by
    apply hdb.ranked.mono
    rintro a b ⟨row, hrow, heq⟩
    exact ⟨row, List.mem_of_mem_filter hrow, heq⟩
  rules_le row hrow := hdb.rules_le row (List.mem_of_mem_filter hrow)
  map_le row hrow := hdb.map_le row (List.mem_of_mem_filter hrow)

theorem validatedDelegations_spec {valid : Bool}
    (hvalidated : validatedDelegations fuel db rule = some (valid, delegations)) :
    ∀ delegate ∈ delegations, delegate.items.id ≠ 0 →
      ∃ before ∈ rule.delegations, delegate.items.id = delegateId db before := by
  rw [validatedDelegations] at hvalidated
  split at hvalidated
  · exact validateDelegates_spec hvalidated
  · cases hvalidated
    intro delegate hdelegate hne
    exact ⟨delegate, hdelegate, by rw [delegateId, if_neg hne]⟩

theorem AuthDatabase.Valid.of_ruleSqlCommit (hdb : db.Valid) {rule' : RuleObject} {result : Bool}
    (hle : ∀ delegate ∈ rule.delegations, delegate.items.id ≤ db.lastId)
    (haway : rule.items.id ≠ 0 → ¬LeadsBack db rule)
    (hcommit : ruleSqlCommit fuel db rule = some (result, db', rule')) :
    db'.Valid ∧ db.lastId ≤ db'.lastId ∧
      ∀ delegate ∈ rule'.delegations, delegate.items.id ≤ db.lastId := by
  rw [ruleSqlCommit] at hcommit
  split at hcommit
  · cases hcommit
    exact ⟨hdb, Nat.le_refl _, hle⟩
  · simp only [Option.bind_eq_bind, Option.bind_eq_some_iff] at hcommit
    obtain ⟨⟨valid, delegations⟩, hvalidated, hrest⟩ := hcommit
    have hfrom := validatedDelegations_spec hvalidated
    have hle' : ∀ delegate ∈ delegations, delegate.items.id ≤ db.lastId := by
      intro delegate hdelegate
      by_cases hzero : delegate.items.id = 0
      · omega
      · obtain ⟨before, hbefore, heq⟩ := hfrom delegate hdelegate hzero
        rw [heq]
        exact hdb.delegateId_le (hle before hbefore)
    split at hrest
    · cases hrest
      have haway' : rule.items.id ≠ 0 → ∀ delegate ∈ delegations, delegate.items.id ≠ 0 →
          ¬ReflTransGen (Delegates db) delegate.items.id rule.items.id := by
        intro hknown delegate hdelegate hne hpath
        obtain ⟨before, hbefore, heq⟩ := hfrom delegate hdelegate hne
        rw [heq] at hpath
        exact haway hknown ⟨before, hbefore, hpath⟩
      obtain ⟨hvalid, hlast⟩ := hdb.of_commitTransaction hle' haway'
      exact ⟨hvalid, hlast, hle'⟩
    · cases hrest
      exact ⟨hdb, Nat.le_refl _, hle'⟩

theorem AuthDatabase.Valid.of_ruleSqlRemove (hdb : db.Valid) {rule' : RuleObject} {result : Bool}
    (hle : ∀ delegate ∈ rule.delegations, delegate.items.id ≤ db.lastId)
    (hremove : ruleSqlRemove fuel db rule = some (result, db', rule')) :
    db'.Valid ∧ db.lastId ≤ db'.lastId ∧
      ∀ delegate ∈ rule'.delegations, delegate.items.id ≤ db.lastId := by
  simp only [ruleSqlRemove, Option.bind_eq_bind, Option.bind_eq_some_iff] at hremove
  obtain ⟨fetched, hfetch, hrest⟩ := hremove
  have hle' : ∀ delegate ∈ fetched.delegations, delegate.items.id ≤ db.lastId := by
    intro delegate hdelegate
    rcases (fetchUnknown_spec hfetch).2 delegate hdelegate with hold | hrow
    · exact hle delegate hold
    · exact (hdb.rules_le _ hrow).2
  split at hrest
  · cases hrest
    exact ⟨hdb, Nat.le_refl _, hle'⟩
  · cases hrest
    exact ⟨hdb.of_deleteRule _, Nat.le_refl _, hle'⟩

theorem AuthDatabase.Valid.of_ruleCreateWithString (hdb : db.Valid) {name : String}
    (hcreate : ruleCreateWithString fuel db name = some rule) :
    rule.items.id ≤ db.lastId ∧ ∀ delegate ∈ rule.delegations, delegate.items.id ≤ db.lastId := by
  obtain ⟨⟨found, fetched⟩, hfetch, rfl⟩ := Option.map_eq_some_iff.mp hcreate
  obtain ⟨hitems, hdelegations⟩ := ruleSqlFetch_spec hfetch
  constructor
  · have hle := hdb.id_le_of_name name
    rw [hitems]
    show ((db.ruleWithName name).getD (namedItems name)).id ≤ db.lastId
    cases hfound : db.ruleWithName name with
    | none => exact Nat.zero_le _
    | some row =>
      rw [hfound] at hle
      exact hle
  · intro delegate hdelegate
    rcases hdelegations delegate hdelegate with hnone | hrow
    · exact absurd hnone List.not_mem_nil
    · exact (hdb.rules_le _ hrow).2

theorem AuthDatabase.Valid.of_ruleCreateWithPlist (hdb : db.Valid) {type : RuleType} {name : String}
    {plist : RulePlist} (hcreate : ruleCreateWithPlist fuel db type name plist = some rule) :
    ∀ delegate ∈ rule.delegations, delegate.items.id ≤ db.lastId := by
  rw [ruleCreateWithPlist] at hcreate
  split at hcreate
  · simp only [Option.bind_eq_bind, Option.bind_eq_some_iff] at hcreate
    obtain ⟨delegations, hdelegations, heq⟩ := hcreate
    cases heq
    intro delegate hdelegate
    obtain ⟨_, -, hnamed⟩ := exists_of_mem_mapM hdelegations delegate hdelegate
    exact (hdb.of_ruleCreateWithString hnamed).1
  · cases hcreate
    intro delegate hdelegate
    exact absurd hdelegate List.not_mem_nil
end

section
variable {s s' : AuthState}

theorem AuthState.Valid.add (hs : s.Valid) {rule : RuleObject}
    (hrule : ∀ delegate ∈ rule.delegations, delegate.items.id ≤ s.db.lastId) :
    AuthState.Valid { s with rules := s.rules ++ [rule] } where
  db_valid := hs.db_valid
  delegations_le other hother := by
    rcases List.mem_append.mp hother with hold | hnew
    · exact hs.delegations_le other hold
    · rw [List.mem_singleton] at hnew
      subst hnew
      exact hrule

theorem AuthState.Valid.set (hs : s.Valid) {db : AuthDatabase} {rule : RuleObject} {index : Nat}
    (hdb : db.Valid) (hlast : s.db.lastId ≤ db.lastId)
    (hrule : ∀ delegate ∈ rule.delegations, delegate.items.id ≤ s.db.lastId) :
    AuthState.Valid ⟨db, s.rules.set index rule⟩ where
  db_valid := hdb
  delegations_le other hother delegate hdelegate := by
    apply le_trans _ hlast
    rcases List.mem_or_eq_of_mem_set hother with hold | rfl
    · exact hs.delegations_le other hold delegate hdelegate
    · exact hrule delegate hdelegate

theorem AuthState.Valid.step (hs : s.Valid) {call : Nat × AuthCall} (hok : CommitsNoCycle s call)
    (hstep : authStep s call = some s') : s'.Valid := by
  obtain ⟨fuel, call⟩ := call
  cases call with
  | createWithString name =>
    simp only [authStep, Option.bind_eq_bind, Option.bind_eq_some_iff, Option.some.injEq] at hstep
    obtain ⟨rule, hcreate, rfl⟩ := hstep
    exact hs.add (hs.db_valid.of_ruleCreateWithString hcreate).2
  | createWithPlist type name plist =>
    simp only [authStep, Option.bind_eq_bind, Option.bind_eq_some_iff, Option.some.injEq] at hstep
    obtain ⟨rule, hcreate, rfl⟩ := hstep
    exact hs.add (hs.db_valid.of_ruleCreateWithPlist hcreate)
  | commit index =>
    simp only [authStep, Option.bind_eq_bind, Option.bind_eq_some_iff, Option.some.injEq] at hstep
    obtain ⟨rule, hrule, ⟨result, db, rule'⟩, hcommit, rfl⟩ := hstep
    obtain ⟨hdb, hlast, hle⟩ := hs.db_valid.of_ruleSqlCommit
      (hs.delegations_le rule (List.mem_of_getElem? hrule)) (hok rule hrule) hcommit
    exact hs.set hdb hlast hle
  | remove index =>
    simp only [authStep, Option.bind_eq_bind, Option.bind_eq_some_iff, Option.some.injEq] at hstep
    obtain ⟨rule, hrule, ⟨result, db, rule'⟩, hremove, rfl⟩ := hstep
    obtain ⟨hdb, hlast, hle⟩ := hs.db_valid.of_ruleSqlRemove
      (hs.delegations_le rule (List.mem_of_getElem? hrule)) hremove
    exact hs.set hdb hlast hle
end

def evaluateFetched (fuel : Nat) (db : AuthDatabase) (outcome : RuleItems → OSStatus)
    (engine : Engine) (rule : RuleObject) (savePwd : Bool) : Option (OSStatus × Bool) :=
  (ruleSqlFetch fuel db rule).map fun fetched =>
    evaluateRule engine (fetched.2.toRule outcome) savePwd

def preevaluateFetched (fuel : Nat) (db : AuthDatabase) (rule : RuleObject)
    (found : Preevaluation) : Option (Bool × Preevaluation) :=
  (ruleSqlFetch fuel db rule).map fun fetched => preevaluateRule fetched.2 found

/-- With some fuel, and then with more, a rule is fetched and what was fetched evaluated. -/
def LookupTerminates (db : AuthDatabase) (rule : RuleObject) : Prop :=
  ∃ least, ∀ fuel ≥ least, (ruleSqlFetch fuel db rule).isSome ∧
    (∀ outcome engine savePwd, (evaluateFetched fuel db outcome engine rule savePwd).isSome) ∧
    ∀ found, (preevaluateFetched fuel db rule found).isSome

theorem AuthDatabase.Valid.lookupTerminates {db : AuthDatabase} (hdb : db.Valid)
    (rule : RuleObject) : LookupTerminates db rule := by
  obtain ⟨rank, hrank⟩ := hdb.ranked
  refine ⟨rank ((db.ruleWithName rule.items.name).getD rule.items).id + 1, ?_⟩
  intro fuel hfuel
  have hfetch := isSome_ruleSqlFetch hrank fuel rule (by omega)
  simp [evaluateFetched, preevaluateFetched, hfetch]

theorem lookupTerminates_of_run {calls : List (Nat × AuthCall)} {s : AuthState}
    (hrun : Run authStep CommitsNoCycle .initial calls s) :
    (∀ id, ¬TransGen (Delegates s.db) id id) ∧ ∀ rule, LookupTerminates s.db rule := by
  have hs := hrun.invariant AuthState.Valid
    (fun _ _ _ hs hok hstep => hs.step hok hstep) .initial
  exact ⟨hs.db_valid.ranked.not_transGen_self, hs.db_valid.lookupTerminates⟩

def plainFlags : StoredFlags := ⟨noFlags, false, false, false⟩

def allowPlist : RulePlist := ⟨.allow, none, 0, [], plainFlags⟩

def delegatingPlist (names : List String) : RulePlist := ⟨.rule, none, 0, names, plainFlags⟩

def plainRow (id : Nat) (name : String) (cls : RuleClass) : RuleItems :=
  ⟨id, name, some .right, some cls, none, 0, plainFlags⟩

def delegatingCalls : List (Nat × AuthCall) :=
  [(1, .createWithPlist .right "A" allowPlist), (1, .commit 0),
    (1, .createWithPlist .right "B" (delegatingPlist ["A"])), (1, .commit 1)]

def delegatingDatabase : AuthDatabase :=
  ⟨[plainRow 1 "A" .allow, plainRow 2 "B" .rule], [⟨2, 1, 0⟩], 2⟩

theorem run_delegatingCalls : Run authStep CommitsNoCycle .initial delegatingCalls
    ⟨delegatingDatabase, [.mk (plainRow 1 "A" .allow) [],
      .mk (plainRow 2 "B" .rule) [.mk (plainRow 1 "A" .allow) []]]⟩ := by
  have hnew : ∀ {s : AuthState} {index : Nat} {rule : RuleObject}, s.rules[index]? = some rule →
      rule.items.id = 0 → CommitsNoCycle s (1, .commit index) := by
    intro s index rule hrule hzero other hother hknown
    rw [hrule] at hother
    cases hother
    exact absurd hzero hknown
  apply Run.cons trivial rfl
  apply Run.cons (hnew rfl rfl) rfl
  apply Run.cons trivial rfl
  apply Run.cons (hnew rfl rfl) rfl
  exact .nil _

theorem lookupTerminates_of_run_sample :
    (∀ id, ¬TransGen (Delegates delegatingDatabase) id id) ∧
      ∀ rule, LookupTerminates delegatingDatabase rule :=
  lookupTerminates_of_run run_delegatingCalls

def selfDelegatingCalls : List (Nat × AuthCall) :=
  [(1, .createWithPlist .right "A" allowPlist), (1, .commit 0),
    (1, .createWithPlist .right "A" (delegatingPlist ["A"])), (1, .commit 1)]

def selfDelegatingDatabase : AuthDatabase := ⟨[plainRow 1 "A" .rule], [⟨1, 1, 0⟩], 1⟩

theorem getSqlDelegates_selfDelegating (fuel : Nat) :
    getSqlDelegates selfDelegatingDatabase fuel (plainRow 1 "A" .rule) = none := by
  induction fuel with
  | zero => rfl
  | succ fuel ih =>
    have hrows : selfDelegatingDatabase.delegatesOf 1 = [plainRow 1 "A" .rule] := rfl
    have hcls : (plainRow 1 "A" .rule).cls = some .rule := rfl
    rw [getSqlDelegates]
    show (selfDelegatingDatabase.delegatesOf 1).mapM _ = none
    simp [hrows, ih, hcls]

theorem selfDelegating_never_fetched :
    (∃ rules, Run authStep (fun _ _ => True) .initial selfDelegatingCalls
      ⟨selfDelegatingDatabase, rules⟩) ∧
    TransGen (Delegates selfDelegatingDatabase) 1 1 ∧
    ∀ fuel, ruleSqlFetch fuel selfDelegatingDatabase (.mk (namedItems "A") []) = none := by
  refine ⟨⟨[.mk (plainRow 1 "A" .allow) [],
    .mk (plainRow 1 "A" .rule) [.mk (plainRow 1 "A" .allow) []]], ?_⟩,
    .single ⟨⟨1, 1, 0⟩, List.mem_singleton_self _, rfl, rfl⟩, ?_⟩
  · apply Run.cons trivial rfl
    apply Run.cons trivial rfl
    apply Run.cons trivial rfl
    apply Run.cons trivial rfl
    exact .nil _
  · intro fuel
    have hfound : selfDelegatingDatabase.ruleWithName "A" = some (plainRow 1 "A" .rule) := rfl
    have hid : (plainRow 1 "A" .rule).id = 1 := rfl
    have hcls : (plainRow 1 "A" .rule).cls = some .rule := rfl
    simp [ruleSqlFetch, namedItems, hfound, hid, hcls, getSqlDelegates_selfDelegating]
end SecurityFramework.Authd
