import SecurityFramework.Securityd.KeychainTable

/-!
# Merging objects from peers

An object that comes from a peer is inserted, or merged with the item that has its primary key: the
later one of the two wins, and of two with one date the one with the smaller digest.
-/

namespace SecurityFramework
inductive SOSMergeResult where
  | failure
  | localObject
  | peersObject
  deriving DecidableEq

def cfDataCompareDERData : List UInt8 → List UInt8 → Ordering
  | [], [] => .eq
  | [], _ :: _ => .lt
  | _ :: _, [] => .gt
  | left :: lefts, right :: rights =>
    if left < right then .lt else if right < left then .gt
    else cfDataCompareDERData lefts rights

section
variable {κ α : Type*} (env : KeychainEnvironment) (cls : KeychainClass κ α)

/-- What a peer sends of an item: the attributes that are encrypted or authenticated. -/
def objectCopyPropertyList (item : KeychainItem κ α) : KeychainItem κ α :=
  { item with
    rowid := none
    itempersistentref := []
    cannotSync := item.cannotSync.map fun _ => none
    utomb := none }

def preserveLocalAttributes (item1 item2 : KeychainItem κ α) : KeychainItem κ α :=
  let result := item1.preserveItemuuid item2
  let result := if env.staticPersistentRefsEnabled then result.preservePersistentRef item2
    else result
  result.preserveCannotSync item2

def choosesFirst (item1 item2 : KeychainItem κ α) : Bool :=
  let m1 := item1.getModificationDate env
  let m2 := item2.getModificationDate env
  if m1 > m2 then true
  else if m1 < m2 then false
  else
    match cfDataCompareDERData (item1.getSHA1 env cls) (item2.getSHA1 env cls) with
    | .gt | .eq => false
    | .lt => true

def secItemDataSourceCopyMergedItem (item1 item2 : KeychainItem κ α) : KeychainReplacement κ α :=
  if choosesFirst env cls item1 item2 then .newItem (preserveLocalAttributes env item1 item2)
  else .oldItem item2

/-- The block that `dsMergeObject` gives for a duplicate. Items are equal when their digests are. -/
def mergeDuplicate (peersItem myItem : KeychainItem κ α) : KeychainReplacement κ α :=
  match secItemDataSourceCopyMergedItem env cls peersItem myItem with
  | .newItem mergedItem =>
    if mergedItem.getSHA1 env cls = myItem.getSHA1 env cls then .keep else .newItem mergedItem
  | _ => .keep

def prepareObject (peersObject : KeychainItem κ α) : KeychainItem κ α :=
  if env.staticPersistentRefsEnabled then peersObject.setPersistentRef env.createPersistentRef
  else peersObject

variable [DecidableEq κ]

def attemptedMerge (table : KeychainTable κ α) (peersItem : KeychainItem κ α) :
    Option (KeychainReplacement κ α) :=
  if KeychainTable.conflicts table.rows peersItem then
    match table.find peersItem.primaryKey with
    | some row =>
      match row.state with
      | .readable => some (mergeDuplicate env cls peersItem row.item)
      | _ => none
    | none => none
  else none

def dsMergeObject (table : KeychainTable κ α) (peersObject : KeychainItem κ α) :
    SOSMergeResult × KeychainTable κ α :=
  let peersItem := prepareObject env peersObject
  let merged := table.insertOrReplace env peersItem (mergeDuplicate env cls)
  let result :=
    match attemptedMerge env cls table (peersItem.dated env) with
    | some .keep => .localObject
    | some _ => .peersObject
    | none => if merged.isSome then .peersObject else .failure
  (result, merged.getD table)
end
end SecurityFramework

namespace SecurityFramework
variable {κ α : Type*} (env : KeychainEnvironment) (cls : KeychainClass κ α)

/-- `SecDbItemCopyMergedItem`: the choice is that of `SecItemDataSourceCopyMergedItem`, and the
persistent reference is that of the first item. -/
def secDbItemCopyMergedItem (item1 item2 : KeychainItem κ α) : KeychainReplacement κ α :=
  if choosesFirst env cls item1 item2 then .newItem item1
  else
    .oldItem (if env.staticPersistentRefsEnabled then item2.preservePersistentRef item1 else item2)

/-- The block of `SecDbItemInsert`: an item replaces a tombstone, and with the persistent reference
of a backup the merged item replaces the old one. -/
def insertDuplicate (alwaysUseUUIDFromNewItem alwaysUsePersistentRefFromBackup : Bool)
    (item oldItem : KeychainItem κ α) : KeychainReplacement κ α :=
  if oldItem.tomb then
    if alwaysUseUUIDFromNewItem then .newItem item
    else
      let item := item.preserveItemuuid oldItem
      .newItem (if env.staticPersistentRefsEnabled then item.preservePersistentRef oldItem
        else item)
  else if env.staticPersistentRefsEnabled && alwaysUsePersistentRefFromBackup then
    secDbItemCopyMergedItem env cls item oldItem
  else .keep

def s3dlItemMakeNewUUID (uuidFromPrimaryKey : Bool) (item : KeychainItem κ α) : KeychainItem κ α :=
  item.setItemuuid
    (if uuidFromPrimaryKey then cls.uuidFromPrimaryKey item.primaryKey else env.createUUID)

/-- The old item of an update is that of a row; the new one is another item, or the old one. -/
inductive KeychainCall (κ α : Type*) where
  | insert (item : KeychainItem κ α)
      (alwaysUseUUIDFromNewItem alwaysUsePersistentRefFromBackup : Bool)
  | insertOrReplace (item : KeychainItem κ α)
      (duplicate : KeychainItem κ α → KeychainItem κ α → KeychainReplacement κ α)
  | update (old : KeychainRow κ α) (newItem : KeychainItem κ α) (makeTombstone : Option Bool)
      (uuidFromPrimaryKey : Bool)
  | updateItself (old : KeychainRow κ α)
  | delete (old : KeychainRow κ α) (makeTombstone : Option Bool) (tombstoneTimeFromItem : Bool)

namespace KeychainTable
variable [DecidableEq κ] (table : KeychainTable κ α)

def insert (item : KeychainItem κ α)
    (alwaysUseUUIDFromNewItem alwaysUsePersistentRefFromBackup : Bool) :
    Option (KeychainTable κ α) :=
  table.insertOrReplace env item
    (insertDuplicate env cls alwaysUseUUIDFromNewItem alwaysUsePersistentRefFromBackup)

def prepareUpdate (oldItem newItem : KeychainItem κ α) (makeTombstone : Option Bool)
    (uuidFromPrimaryKey : Bool) : KeychainItem κ α :=
  if oldItem.primaryKey = newItem.primaryKey then newItem.makeYounger env oldItem
  else if makeTombstone ≠ some false ∧ env.ckksEnabled then
    s3dlItemMakeNewUUID env cls uuidFromPrimaryKey newItem
  else newItem

/-- The update failed because there is a row with the new primary key: a tombstone or a corrupt item
is replaced, and the old row is deleted. -/
def updateDuplicate (oldItem newItem : KeychainItem κ α) : Option (KeychainTable κ α) :=
  match table.find newItem.primaryKey with
  | none => none
  | some duplicate =>
    match duplicate.state with
    | .undecided => none
    | .corrupt =>
      match (table.doDelete oldItem).doUpdate env duplicate.item newItem with
      | .done table => some table
      | _ => none
    | .readable =>
      if duplicate.item.tomb then
        match (table.doDelete oldItem).doUpdate env duplicate.item
            (newItem.makeYounger env duplicate.item) with
        | .done table => some table
        | _ => none
      else none

def updateRow (oldItem newItem : KeychainItem κ α) : Option (KeychainTable κ α) :=
  match table.doUpdate env oldItem newItem with
  | .done table => some table
  | .failed => none
  | .constraint => table.updateDuplicate env oldItem (written env oldItem newItem)

def insertTombstone (oldItem : KeychainItem κ α) (makeTombstone : Option Bool) :
    Option (KeychainTable κ α) :=
  let tombstone := ((oldItem.copyTombstone env cls makeTombstone false).setPersistentRef
    env.createPersistentRef).setRowid none
  match table.doInsert tombstone with
  | .done table => some table
  | _ => none

def update (old : KeychainRow κ α) (newItem : KeychainItem κ α) (makeTombstone : Option Bool)
    (uuidFromPrimaryKey : Bool) : Option (KeychainTable κ α) :=
  if old.state ≠ .readable then none
  else
    let item := prepareUpdate env cls old.item newItem makeTombstone uuidFromPrimaryKey
    let updated := table.updateRow env old.item item
    if old.item.primaryKey ≠ newItem.primaryKey ∧ makeTombstone ≠ some false then
      updated.bind fun table => table.insertTombstone env cls old.item makeTombstone
    else updated

def updateItself (old : KeychainRow κ α) : Option (KeychainTable κ α) :=
  if old.state ≠ .readable then none
  else table.replaceDuplicate env old.item false (.oldItem old.item)

def delete (old : KeychainRow κ α) (makeTombstone : Option Bool) (tombstoneTimeFromItem : Bool) :
    Option (KeychainTable κ α) :=
  if makeTombstone ≠ some false then
    if old.state ≠ .readable then none
    else
      match table.doUpdate env old.item
          (old.item.copyTombstone env cls makeTombstone tombstoneTimeFromItem) with
      | .done table => some table
      | _ => none
  else some (table.doDelete old.item)

def call : KeychainCall κ α → Option (KeychainTable κ α)
  | .insert item useUUID useRef => table.insert env cls item useUUID useRef
  | .insertOrReplace item duplicate => table.insertOrReplace env item duplicate
  | .update old newItem makeTombstone uuidFromPrimaryKey =>
    table.update env cls old newItem makeTombstone uuidFromPrimaryKey
  | .updateItself old => table.updateItself env old
  | .delete old makeTombstone tombstoneTimeFromItem =>
    table.delete env cls old makeTombstone tombstoneTimeFromItem

def begin : KeychainTable κ α := { table with changes := [] }

/-- The table after the transaction of a call: where the call fails it is as it was, and nothing is
recorded. -/
def transact (c : KeychainEnvironment × KeychainCall κ α) : KeychainTable κ α :=
  (table.begin.call c.1 cls c.2).getD table.begin
end KeychainTable
end SecurityFramework
