import SecurityFramework.Authd.RuleEvaluation
import Mathlib.Data.List.Sort

/-!
# The rules of the authorization database

A rule is fetched from the database with the rules that it delegates to, and these with theirs.
-/

namespace SecurityFramework.Authd
inductive RuleType where
  | right
  | rule
deriving DecidableEq

inductive RuleClass where
  | user
  | rule
  | mechanism
  | allow
  | deny
deriving DecidableEq

structure StoredFlags extends RuleFlags where
  sessionOwner : Bool
  passwordOnly : Bool
  secureTokenOnly : Bool

/-- The items of a rule. A rule that is not in the database has id 0, and one of which only the name
is known neither type nor class. -/
structure RuleItems where
  id : Nat
  name : String
  type : Option RuleType
  cls : Option RuleClass
  group : Option String
  kofn : Int
  flags : StoredFlags

inductive RuleObject where
  | mk (items : RuleItems) (delegations : List RuleObject)

namespace RuleObject
def items : RuleObject → RuleItems
  | mk items _ => items

def delegations : RuleObject → List RuleObject
  | mk _ delegations => delegations

@[simp] theorem items_mk (items : RuleItems) (delegations : List RuleObject) :
    (mk items delegations).items = items := rfl

@[simp] theorem delegations_mk (items : RuleItems) (delegations : List RuleObject) :
    (mk items delegations).delegations = delegations := rfl
end RuleObject

structure DelegatesMapRow where
  rId : Nat
  dId : Nat
  ord : Nat

/-- The tables `rules` and `delegates_map`. Ids count up and are not given twice. -/
structure AuthDatabase where
  rules : List RuleItems
  delegatesMap : List DelegatesMapRow
  lastId : Nat

namespace AuthDatabase
def empty : AuthDatabase := ⟨[], [], 0⟩

/-- `SELECT * FROM rules WHERE name = ? LIMIT 1` -/
def ruleWithName (db : AuthDatabase) (name : String) : Option RuleItems :=
  db.rules.find? (·.name = name)

/-- `SELECT rules.* FROM rules JOIN delegates_map ON rules.id = delegates_map.d_id WHERE
delegates_map.r_id = ? ORDER BY delegates_map.ord ASC` -/
def delegatesOf (db : AuthDatabase) (id : Nat) : List RuleItems :=
  let rows := db.delegatesMap.filter fun row => row.rId = id
  (rows.insertionSort fun row row' => row.ord ≤ row'.ord).flatMap fun row =>
    db.rules.filter fun rule => rule.id = row.dId

def bind (rule : RuleItems) : RuleItems :=
  { rule with
    group := if rule.cls = some .user then rule.group else none
    kofn := if rule.cls = some .rule then rule.kofn else 0 }

/-- `_sql_update`, which fails when another rule has the name. -/
def update (db : AuthDatabase) (rule : RuleItems) : Bool × AuthDatabase :=
  if db.rules.any (fun row => row.name = rule.name && row.id ≠ rule.id) &&
      db.rules.any (fun row => row.id = rule.id) then
    (false, db)
  else
    (true, { db with
      rules := db.rules.map fun row => if row.id = rule.id then bind rule else row })

/-- `_sql_insert`, which fails when a rule has the name. -/
def insert (db : AuthDatabase) (rule : RuleItems) : Bool × AuthDatabase :=
  if db.rules.any (fun row => row.name = rule.name) then (false, db)
  else
    (true, { db with
      rules := db.rules ++ [{ bind rule with id := db.lastId + 1 }]
      lastId := db.lastId + 1 })

/-- `INSERT INTO delegates_map VALUES (?,?,?)`, where both ids are to be those of rules. -/
def insertDelegate (db : AuthDatabase) (row : DelegatesMapRow) : Bool × AuthDatabase :=
  if db.rules.any (fun rule => rule.id = row.rId) && db.rules.any (fun rule => rule.id = row.dId)
  then (true, { db with delegatesMap := db.delegatesMap ++ [row] })
  else (false, db)

def deleteDelegates (db : AuthDatabase) (id : Nat) : AuthDatabase :=
  { db with delegatesMap := db.delegatesMap.filter (·.rId ≠ id) }

/-- `DELETE FROM rules WHERE id = ?`, which takes along the rows that refer to the rule. -/
def deleteRule (db : AuthDatabase) (id : Nat) : AuthDatabase :=
  { db with
    rules := db.rules.filter (·.id ≠ id)
    delegatesMap := db.delegatesMap.filter fun row => row.rId ≠ id ∧ row.dId ≠ id }
end AuthDatabase

/-- `_get_sql_delegates`. Whether a delegate's own delegates are fetched depends on the class of the
rule that delegates to it. -/
def getSqlDelegates (db : AuthDatabase) : Nat → RuleItems → Option (List RuleObject)
  | 0, _ => none
  | fuel + 1, rule =>
    (db.delegatesOf rule.id).mapM fun delegate =>
      if rule.cls = some .rule then (getSqlDelegates db fuel delegate).map (.mk delegate)
      else some (.mk delegate [])

def ruleSqlFetch (fuel : Nat) (db : AuthDatabase) (rule : RuleObject) :
    Option (Bool × RuleObject) := do
  let found := db.ruleWithName rule.items.name
  let items := found.getD rule.items
  if items.id ≠ 0 ∧ items.cls = some .rule then
    let delegations ← getSqlDelegates db fuel items
    some (found.isSome, .mk items delegations)
  else some (found.isSome, .mk items rule.delegations)

def namedItems (name : String) : RuleItems where
  id := 0
  name := name
  type := none
  cls := none
  group := none
  kofn := 0
  flags := ⟨⟨false, false, false⟩, false, false, false⟩

def ruleCreateWithString (fuel : Nat) (db : AuthDatabase) (name : String) : Option RuleObject :=
  (ruleSqlFetch fuel db (.mk (namedItems name) [])).map (·.2)

structure RulePlist where
  cls : RuleClass
  group : Option String
  kofn : Int
  /-- The names under the key for rules. -/
  rule : List String
  flags : StoredFlags

def copyCfRuleDelegations (fuel : Nat) (db : AuthDatabase) (names : List String) :
    Option (List RuleObject) :=
  names.mapM (ruleCreateWithString fuel db)

def plistFlags (plist : RulePlist) : StoredFlags where
  entitled := plist.flags.entitled
  requireAppleSigned := plist.flags.requireAppleSigned
  extractPassword :=
    (plist.cls = .user ∨ plist.cls = .mechanism) && plist.flags.extractPassword
  sessionOwner := plist.cls = .user && plist.flags.sessionOwner
  passwordOnly := plist.cls = .user && plist.flags.passwordOnly
  secureTokenOnly := plist.cls = .user && plist.flags.secureTokenOnly

def ruleCreateWithPlist (fuel : Nat) (db : AuthDatabase) (type : RuleType) (name : String)
    (plist : RulePlist) : Option RuleObject := do
  let items : RuleItems :=
    { id := ((db.ruleWithName name).map (·.id)).getD 0
      name := name
      type := some type
      cls := some plist.cls
      group := if plist.cls = .user then plist.group else none
      kofn := if plist.cls = .rule then plist.kofn else 0
      flags := plistFlags plist }
  if plist.cls = .rule then
    let delegations ← copyCfRuleDelegations fuel db plist.rule
    some (.mk items delegations)
  else some (.mk items [])

def fetchUnknown (fuel : Nat) (db : AuthDatabase) (rule : RuleObject) : Option RuleObject :=
  if rule.items.id = 0 then (ruleSqlFetch fuel db rule).map (·.2) else some rule

def validateDelegates (fuel : Nat) (db : AuthDatabase) :
    List RuleObject → Option (Bool × List RuleObject)
  | [] => some (true, [])
  | delegate :: delegates => do
    let delegate ← fetchUnknown fuel db delegate
    if delegate.items.id = 0 then some (false, delegate :: delegates)
    else
      let (valid, delegates) ← validateDelegates fuel db delegates
      some (valid, delegate :: delegates)

def insertDelegates (id : Nat) : List RuleObject → Nat → AuthDatabase → Bool × AuthDatabase
  | [], _, db => (true, db)
  | delegate :: delegates, ord, db =>
    match db.insertDelegate ⟨id, delegate.items.id, ord⟩ with
    | (true, db) => insertDelegates id delegates (ord + 1) db
    | (false, db) => (false, db)

def sqlCommitDelegatesMap (db : AuthDatabase) (id : Nat) (delegations : List RuleObject) :
    Bool × AuthDatabase :=
  insertDelegates id delegations 0 (db.deleteDelegates id)

/-- The id of the rule after its row was written: `_sql_get_id` gets it after an insertion. -/
def writeRule (db : AuthDatabase) (items : RuleItems) : Bool × AuthDatabase × RuleItems :=
  if items.id ≠ 0 then ((db.update items).1, (db.update items).2, items)
  else
    let inserted := (db.insert items).2
    ((db.insert items).1, inserted,
      { items with id := ((inserted.ruleWithName items.name).map (·.id)).getD 0 })

/-- The transaction of `rule_sql_commit`, which is rolled back when it does not succeed. -/
def commitTransaction (db : AuthDatabase) (items : RuleItems) (delegations : List RuleObject) :
    Bool × AuthDatabase × RuleItems :=
  let written := writeRule db items
  let committed := sqlCommitDelegatesMap written.2.1 written.2.2.id delegations
  if written.1 && committed.1 then (true, committed.2, written.2.2)
  else (false, db, written.2.2)

/-- Only the delegates of a rule of class rule are validated. -/
def validatedDelegations (fuel : Nat) (db : AuthDatabase) (rule : RuleObject) :
    Option (Bool × List RuleObject) :=
  if rule.items.cls = some .rule then validateDelegates fuel db rule.delegations
  else some (true, rule.delegations)

def ruleSqlCommit (fuel : Nat) (db : AuthDatabase) (rule : RuleObject) :
    Option (Bool × AuthDatabase × RuleObject) := do
  if rule.items.type = none ∨ rule.items.cls = none then some (false, db, rule)
  else
    let (valid, delegations) ← validatedDelegations fuel db rule
    if valid then
      let committed := commitTransaction db rule.items delegations
      some (committed.1, committed.2.1, .mk committed.2.2 delegations)
    else some (false, db, .mk rule.items delegations)

def ruleSqlRemove (fuel : Nat) (db : AuthDatabase) (rule : RuleObject) :
    Option (Bool × AuthDatabase × RuleObject) := do
  let rule ← fetchUnknown fuel db rule
  if rule.items.id = 0 then some (false, db, rule)
  else some (true, db.deleteRule rule.items.id, rule)

def RuleObject.toRule (outcome : RuleItems → OSStatus) : RuleObject → Rule
  | .mk items delegations =>
    match items.cls with
    | some .allow => .leaf items.flags.toRuleFlags .allow
    | some .deny => .leaf items.flags.toRuleFlags .deny
    | some .user => .leaf items.flags.toRuleFlags (.user (outcome items))
    | some .mechanism => .leaf items.flags.toRuleFlags (.mechanism (outcome items))
    | some .rule => .rule items.flags.toRuleFlags items.kofn (delegations.map (toRule outcome))
    | none => .leaf items.flags.toRuleFlags .invalid

structure Preevaluation where
  group : Option String
  sessionOwner : Bool
  secureToken : Bool

mutual

def preevaluateRule : RuleObject → Preevaluation → Bool × Preevaluation
  | .mk items delegations, found =>
    match items.cls with
    | some .user =>
      (items.flags.passwordOnly,
        { group := found.group.or items.group
          sessionOwner := items.flags.sessionOwner
          secureToken := items.flags.secureTokenOnly })
    | some .rule => preevaluateClassRule delegations false found
    | _ => (false, found)
termination_by structural rule => rule

def preevaluateClassRule :
    List RuleObject → Bool → Preevaluation → Bool × Preevaluation
  | [], passwordOnly, found => (passwordOnly, found)
  | delegate :: delegates, passwordOnly, found =>
    let (only, found) := preevaluateRule delegate found
    preevaluateClassRule delegates (passwordOnly || only) found
termination_by structural delegates => delegates
end
end SecurityFramework.Authd
