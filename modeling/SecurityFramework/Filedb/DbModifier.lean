import Mathlib.Algebra.Group.Nat.Defs
import Mathlib.Logic.Function.Basic
import SecurityFramework.Library.Run

/-!
# Transactions on one database file

Several instances keep what they have last read of a database file.
-/

namespace SecurityFramework.Filedb
/-- What was read of a file. Not in the code are `file`, the number of the file among all that were
created under the name, and `commits`, which counts how often it had been written. -/
structure DbVersion (Contents : Type*) where
  contents : Contents
  versionId : UInt32
  file : Nat
  commits : Nat

/-- A file is empty from its creation to the first commit. -/
inductive DbFile (Contents : Type*) where
  | empty (file : Nat)
  | written (version : DbVersion Contents)

/-- An open `AtomicTempFile`, with the stamp that it is going to have. What is created has no
version that it is based on. -/
structure Transaction (Contents : Type*) where
  base : Option (DbVersion Contents)
  versionId : UInt32

structure DbModifier (Contents : Type*) where
  dbVersion : Option (DbVersion Contents)
  atomicTempFile : Option (Transaction Contents)
  modifiedTables : Bool

/-- The file and its lock are there for all instances. Not in the code is `created`, which counts
the files that were created under the name. -/
structure DbSystem (Contents : Type*) where
  file : Option (DbFile Contents)
  lock : Option Nat
  modifiers : Nat → DbModifier Contents
  created : Nat

namespace DbSystem
variable {Contents : Type*}

def initial : DbSystem Contents where
  file := none
  lock := none
  modifiers := fun _ => ⟨none, none, false⟩
  created := 0

def set (s : DbSystem Contents) (i : Nat) (modifier : DbModifier Contents) : DbSystem Contents :=
  { s with modifiers := Function.update s.modifiers i modifier }
end DbSystem

/-- The stamp after another one. It is never 0. -/
def nextVersionId (versionId : UInt32) : UInt32 :=
  if versionId + 1 = 0 then 1 else versionId + 1

section
variable {Contents : Type*}

def getDbVersion (file : Option (DbFile Contents)) (cached : Option (DbVersion Contents)) :
    Option (DbVersion Contents) :=
  match file, cached with
  | some (.written version), some cached =>
    -- the stamp has not changed
    if version.versionId = cached.versionId then some cached else some version
  | some (.written version), none => some version
  | some (.empty _), _ => none
  | none, _ => none

/-- `rollback`. What was being created is unlinked. -/
def rollback (s : DbSystem Contents) (i : Nat) : DbSystem Contents :=
  match (s.modifiers i).atomicTempFile with
  | none => s
  | some transaction =>
    { s.set i { s.modifiers i with atomicTempFile := none } with
      lock := none
      file := if transaction.base.isNone then none else s.file }

/-- The calls of an instance. Its other calls neither look at the file nor change it. -/
inductive DbCall (Contents : Type*) where
  | openDatabase
  | modifyDatabase
  | commit (contents : Contents)
  | rollback
  | createDatabase
  | deleteDatabase
  | closeDatabase

def dbStep (s : DbSystem Contents) : Nat × DbCall Contents → Option (DbSystem Contents)
  | (i, .openDatabase) =>
    match (s.modifiers i).atomicTempFile with
    | some _ => some s
    | none =>
      match getDbVersion s.file (s.modifiers i).dbVersion with
      | none => some s
      | some version => some (s.set i { s.modifiers i with dbVersion := some version })
  | (i, .modifyDatabase) =>
    match (s.modifiers i).atomicTempFile, s.lock with
    | some _, _ => some s
    | none, some _ => none
    | none, none =>
      match getDbVersion s.file (s.modifiers i).dbVersion with
      | none => some (s.set i { s.modifiers i with modifiedTables := false })
      | some version =>
        some { s.set i
          { dbVersion := some version
            atomicTempFile := some ⟨some version, nextVersionId version.versionId⟩
            modifiedTables := true } with lock := some i }
  | (i, .commit contents) =>
    match (s.modifiers i).atomicTempFile, s.file with
    | none, _ => some s
    | some transaction, some (.empty file) =>
      some { s.set i { s.modifiers i with atomicTempFile := none } with
        lock := none
        file := some (.written ⟨contents, transaction.versionId, file, 1⟩) }
    | some transaction, some (.written version) =>
      some { s.set i { s.modifiers i with atomicTempFile := none } with
        lock := none
        file := some (.written
          ⟨contents, transaction.versionId, version.file, version.commits + 1⟩) }
    | some _, none => none
  | (i, .rollback) => some (rollback s i)
  | (i, .createDatabase) =>
    match (s.modifiers i).atomicTempFile, (s.modifiers i).modifiedTables, s.lock with
    | some _, _, _ => some s
    | none, true, _ => some s
    | none, false, some _ => none
    | none, false, none =>
      match s.file with
      | some _ => some s
      | none =>
        some { s.set i
          { s.modifiers i with
            atomicTempFile := some ⟨none, 1⟩
            modifiedTables := true } with
          lock := some i
          file := some (.empty (s.created + 1))
          created := s.created + 1 }
  | (i, .deleteDatabase) =>
    let isDirty := (s.modifiers i).atomicTempFile.isSome
    let rolled := rollback s i
    let modifier := { rolled.modifiers i with modifiedTables := false }
    if !isDirty || modifier.dbVersion.isSome then
      match rolled.lock with
      | some _ => none
      | none => some { rolled.set i { modifier with dbVersion := none } with file := none }
    else some (rolled.set i modifier)
  | (i, .closeDatabase) =>
    match (s.modifiers i).atomicTempFile with
    | some _ => none
    | none => some (s.set i { s.modifiers i with dbVersion := none })

def stampCount : Nat := 2 ^ 32 - 1

/-- When an instance looks at the stamp of the file and it is the one it knows, the file is the one
that it has read, and has not gone through all stamps since. -/
def StampsTell (s : DbSystem Contents) : Nat × DbCall Contents → Prop
  | (i, .openDatabase) | (i, .modifyDatabase) =>
    ∀ cached version, (s.modifiers i).dbVersion = some cached →
      s.file = some (.written version) → version.versionId = cached.versionId →
        version.file = cached.file ∧ version.commits < cached.commits + stampCount
  | _ => True

def IsStamp (versionId : UInt32) (commits : Nat) : Prop :=
  1 ≤ commits ∧ versionId.toNat = (commits - 1) % stampCount + 1

theorem isStamp_first : IsStamp 1 1 := ⟨Nat.le_refl _, rfl⟩

theorem IsStamp.next {versionId : UInt32} {commits : Nat} (hstamp : IsStamp versionId commits) :
    IsStamp (nextVersionId versionId) (commits + 1) := by
  obtain ⟨hpos, heq⟩ := hstamp
  have hsum : (versionId + 1).toNat = (versionId.toNat + 1) % 4294967296 := by simp
  rw [stampCount] at heq
  refine ⟨by omega, ?_⟩
  rw [nextVersionId, stampCount]
  split
  case isTrue hzero =>
    rw [hzero] at hsum
    have hone : (1 : UInt32).toNat = 1 := rfl
    have hnone : (0 : UInt32).toNat = 0 := rfl
    omega
  case isFalse hne =>
    have hpositive : (versionId + 1).toNat ≠ 0 := by
      intro hzero
      exact hne (UInt32.toNat_inj.mp hzero)
    omega

/-- Before all stamps have been gone through, each tells how often a file has been written. -/
theorem IsStamp.commits_eq {versionId : UInt32} {commits commits' : Nat}
    (hstamp : IsStamp versionId commits) (hstamp' : IsStamp versionId commits')
    (hle : commits ≤ commits') (hlt : commits' < commits + stampCount) : commits = commits' := by
  obtain ⟨hpos, heq⟩ := hstamp
  obtain ⟨-, heq'⟩ := hstamp'
  rw [stampCount] at heq heq' hlt
  omega

/-- The version was read of a file that has been created. If it is the one there is, that has been
written since, or is as it was read. -/
structure Known (s : DbSystem Contents) (version : DbVersion Contents) : Prop where
  stamp : IsStamp version.versionId version.commits
  file_le : version.file ≤ s.created
  current : ∀ current, s.file = some (.written current) → current.file = version.file →
    version.commits ≤ current.commits ∧ (version.commits = current.commits → version = current)
  created : ∀ file, s.file = some (.empty file) → version.file < file

/-- An open transaction is based on the file as it is. -/
def TransactionValid (file : Option (DbFile Contents)) (transaction : Transaction Contents) : Prop :=
  match transaction.base with
  | none => transaction.versionId = 1 ∧ ∃ n, file = some (.empty n)
  | some base => transaction.versionId = nextVersionId base.versionId ∧ file = some (.written base)

/-- The instance that holds the lock has an open transaction, and no other instance has one. -/
structure DbSystem.Valid (s : DbSystem Contents) : Prop where
  written : ∀ version, s.file = some (.written version) → Known s version
  empty : ∀ file, s.file = some (.empty file) → file = s.created ∧ s.lock ≠ none
  cached : ∀ i version, (s.modifiers i).dbVersion = some version → Known s version
  locked : ∀ i, (s.modifiers i).atomicTempFile.isSome ↔ s.lock = some i
  transaction : ∀ i transaction, (s.modifiers i).atomicTempFile = some transaction →
    TransactionValid s.file transaction

variable {s s' : DbSystem Contents} {i : Nat}

theorem DbSystem.Valid.initial : (DbSystem.initial : DbSystem Contents).Valid where
  written _ hfile := by cases hfile
  empty _ hfile := by cases hfile
  cached _ _ hversion := by cases hversion
  locked _ := ⟨fun hopen => (by cases hopen), fun hlock => (by cases hlock)⟩
  transaction _ _ hopen := by cases hopen

variable {version : DbVersion Contents}

/-- When no stamp is mistaken for another, the file is read as it is. -/
theorem DbSystem.Valid.getDbVersion_eq (hs : s.Valid)
    (htell : ∀ cached version, (s.modifiers i).dbVersion = some cached →
      s.file = some (.written version) → version.versionId = cached.versionId →
        version.file = cached.file ∧ version.commits < cached.commits + stampCount)
    (hread : getDbVersion s.file (s.modifiers i).dbVersion = some version) :
    s.file = some (.written version) := by
  unfold getDbVersion at hread
  split at hread
  case h_1 current cached hfile hcached =>
    split at hread
    case isTrue hsame =>
      cases hread
      obtain ⟨hnumber, hlt⟩ := htell version current hcached hfile hsame
      have hknown := hs.cached i version hcached
      obtain ⟨hle, hequal⟩ := hknown.current current hfile hnumber
      have hstamp := (hs.written current hfile).stamp
      rw [hsame] at hstamp
      rw [hfile, hequal (hknown.stamp.commits_eq hstamp hle hlt)]
    case isFalse =>
      cases hread
      exact hfile
  case h_2 hfile _ =>
    cases hread
    exact hfile
  case h_3 => cases hread
  case h_4 => cases hread

/-- Without a file there is nothing that may be out of date. -/
theorem Known.of_none (hversion : Known s version) (hcreated : s'.created = s.created)
    (hfile : s'.file = none) : Known s' version where
  stamp := hversion.stamp
  file_le := by
    rw [hcreated]
    exact hversion.file_le
  current _ hcurrent := by
    rw [hfile] at hcurrent
    cases hcurrent
  created _ hempty := by
    rw [hfile] at hempty
    cases hempty

theorem Known.of_same (hversion : Known s version) (hcreated : s'.created = s.created)
    (hfile : s'.file = s.file) : Known s' version where
  stamp := hversion.stamp
  file_le := by
    rw [hcreated]
    exact hversion.file_le
  current current hcurrent := hversion.current current (hfile ▸ hcurrent)
  created file hempty := hversion.created file (hfile ▸ hempty)

theorem Known.of_written {next : DbVersion Contents} (hversion : Known s version)
    (hcreated : s'.created = s.created) (hfile : s'.file = some (.written next))
    (hbefore : version.file = next.file → version.commits < next.commits) :
    Known s' version where
  stamp := hversion.stamp
  file_le := by
    rw [hcreated]
    exact hversion.file_le
  current current hcurrent hsame := by
    rw [hfile] at hcurrent
    cases hcurrent
    have hlt := hbefore hsame.symm
    exact ⟨by omega, fun heq => by omega⟩
  created _ hempty := by
    rw [hfile] at hempty
    cases hempty

theorem Known.of_created (hversion : Known s version) (hcreated : s'.created = s.created + 1)
    (hfile : s'.file = some (.empty (s.created + 1))) :
    Known s' version where
  stamp := hversion.stamp
  file_le := by
    have hle := hversion.file_le
    omega
  current _ hcurrent := by
    rw [hfile] at hcurrent
    cases hcurrent
  created _ hempty := by
    rw [hfile] at hempty
    cases hempty
    have hle := hversion.file_le
    omega

/-- What one instance does with the file and the lock. It does not take the lock from another one,
and leaves the file alone while another one holds it. -/
theorem DbSystem.Valid.update (hs : s.Valid) {modifier : DbModifier Contents}
    (hmodifiers : s'.modifiers = Function.update s.modifiers i modifier)
    (hknown : ∀ version, Known s version → Known s' version)
    (hwritten : ∀ version, s'.file = some (.written version) → Known s' version)
    (hempty : ∀ file, s'.file = some (.empty file) → file = s'.created ∧ s'.lock ≠ none)
    (hcached : ∀ version, modifier.dbVersion = some version → Known s' version)
    (hlocked : modifier.atomicTempFile.isSome ↔ s'.lock = some i)
    (htransaction : ∀ transaction, modifier.atomicTempFile = some transaction →
      TransactionValid s'.file transaction)
    (hothers : ∀ j, j ≠ i → (s'.lock = some j ↔ s.lock = some j))
    (hfile : ∀ j, j ≠ i → s.lock = some j → s'.file = s.file) : s'.Valid where
  written := hwritten
  empty := hempty
  cached j version := by
    rw [hmodifiers]
    by_cases hj : j = i
    · subst hj
      rw [Function.update_self]
      exact hcached version
    · rw [Function.update_of_ne hj]
      exact fun hversion => hknown version (hs.cached j version hversion)
  locked j := by
    rw [hmodifiers]
    by_cases hj : j = i
    · subst hj
      rw [Function.update_self]
      exact hlocked
    · rw [Function.update_of_ne hj, hothers j hj]
      exact hs.locked j
  transaction j transaction := by
    rw [hmodifiers]
    by_cases hj : j = i
    · subst hj
      rw [Function.update_self]
      exact htransaction transaction
    · rw [Function.update_of_ne hj]
      intro hopen
      have hlock := (hs.locked j).mp (Option.isSome_of_eq_some hopen)
      rw [hfile j hj hlock]
      exact hs.transaction j transaction hopen

theorem DbSystem.Valid.set (hs : s.Valid) {modifier : DbModifier Contents}
    (hcached : ∀ version, modifier.dbVersion = some version → Known s version)
    (hopen : modifier.atomicTempFile = (s.modifiers i).atomicTempFile) :
    (s.set i modifier).Valid := by
  have hknown : ∀ version, Known s version → Known (s.set i modifier) version :=
    fun _ hversion => hversion.of_same rfl rfl
  apply hs.update rfl hknown (fun version hversion => hknown version (hs.written version hversion))
    hs.empty (fun version hversion => hknown version (hcached version hversion))
  · rw [hopen]
    exact hs.locked i
  · intro transaction htransaction
    rw [hopen] at htransaction
    exact hs.transaction i transaction htransaction
  · exact fun _ _ => Iff.rfl
  · exact fun _ _ _ => rfl

theorem DbSystem.Valid.rollback (hs : s.Valid) (i : Nat) : (rollback s i).Valid := by
  unfold Filedb.rollback
  split
  case h_1 => exact hs
  case h_2 transaction hopen =>
    have hlock := (hs.locked i).mp (Option.isSome_of_eq_some hopen)
    have htransaction := hs.transaction i transaction hopen
    have hfree : ∀ j, j ≠ i → s.lock ≠ some j := by
      intro j hj hother
      rw [hlock] at hother
      exact hj (Option.some.inj hother).symm
    cases hbase : transaction.base with
    | none =>
      have hknown : ∀ version, Known s version → Known
          { s.set i { s.modifiers i with atomicTempFile := none } with
            lock := none, file := none } version := fun _ hversion => hversion.of_none rfl rfl
      apply hs.update rfl hknown
      · exact fun _ hfile => by cases hfile
      · exact fun _ hfile => by cases hfile
      · exact fun version hversion => hknown version (hs.cached i version hversion)
      · exact ⟨fun hopen => (by cases hopen), fun hlock => (by cases hlock)⟩
      · exact fun _ hopen => by cases hopen
      · exact fun j hj => ⟨fun hlock => (by cases hlock), fun hlock => absurd hlock (hfree j hj)⟩
      · exact fun j hj hlock => absurd hlock (hfree j hj)
    | some base =>
      rw [TransactionValid, hbase] at htransaction
      have hknown : ∀ version, Known s version → Known
          { s.set i { s.modifiers i with atomicTempFile := none } with
            lock := none, file := s.file } version := fun _ hversion => hversion.of_same rfl rfl
      apply hs.update rfl hknown
      · exact fun version hfile => hknown version (hs.written version hfile)
      · intro file hfile
        have hsome : s.file = some (.empty file) := hfile
        rw [htransaction.2] at hsome
        cases hsome
      · exact fun version hversion => hknown version (hs.cached i version hversion)
      · exact ⟨fun hopen => (by cases hopen), fun hlock => (by cases hlock)⟩
      · exact fun _ hopen => by cases hopen
      · exact fun j hj => ⟨fun hlock => (by cases hlock), fun hlock => absurd hlock (hfree j hj)⟩
      · exact fun j hj hlock => absurd hlock (hfree j hj)

/-- The lock is taken by an instance that has no open transaction while no other has it. -/
theorem DbSystem.Valid.others_iff {lock : Option Nat} (hs : s.Valid)
    (hfree : s.lock = none ∨ (s.modifiers i).atomicTempFile.isSome)
    (hlock : lock = none ∨ lock = some i) (j : Nat) (hj : j ≠ i) :
    lock = some j ↔ s.lock = some j := by
  have hnot : s.lock ≠ some j := by
    intro hother
    cases hfree with
    | inl hnone =>
      rw [hnone] at hother
      cases hother
    | inr hopen =>
      rw [(hs.locked i).mp hopen] at hother
      exact hj (Option.some.inj hother).symm
  constructor
  · intro hother
    cases hlock with
    | inl hnone =>
      rw [hnone] at hother
      cases hother
    | inr hsome =>
      rw [hsome] at hother
      exact absurd (Option.some.inj hother).symm hj
  · exact fun hother => absurd hother hnot

theorem DbSystem.Valid.openDatabase (hs : s.Valid) (htell : StampsTell s (i, .openDatabase))
    (hstep : dbStep s (i, .openDatabase) = some s') : s'.Valid := by
  rw [dbStep] at hstep
  split at hstep
  case h_1 =>
    cases hstep
    exact hs
  case h_2 hnone =>
    split at hstep
    case h_1 =>
      cases hstep
      exact hs
    case h_2 version hread =>
      cases hstep
      have hfile := hs.getDbVersion_eq htell hread
      apply hs.set
      · intro version hversion
        cases hversion
        exact hs.written version hfile
      · rfl

theorem DbSystem.Valid.modifyDatabase (hs : s.Valid) (htell : StampsTell s (i, .modifyDatabase))
    (hstep : dbStep s (i, .modifyDatabase) = some s') : s'.Valid := by
  rw [dbStep] at hstep
  split at hstep
  case h_1 =>
    cases hstep
    exact hs
  case h_2 => cases hstep
  case h_3 hnone hfree =>
    split at hstep
    case h_1 =>
      cases hstep
      exact hs.set (fun version hversion => hs.cached i version hversion) rfl
    case h_2 version hread =>
      cases hstep
      have hfile := hs.getDbVersion_eq htell hread
      have hknown : ∀ known, Known s known → Known
          { s.set i
            { dbVersion := some version
              atomicTempFile := some ⟨some version, nextVersionId version.versionId⟩
              modifiedTables := true } with lock := some i } known :=
        fun _ hknown => hknown.of_same rfl rfl
      apply hs.update rfl hknown
      · exact fun written hwritten => hknown written (hs.written written hwritten)
      · intro file hempty
        exact ⟨(hs.empty file hempty).1, fun hlock => by cases hlock⟩
      · intro read hversion
        cases hversion
        exact hknown version (hs.written version hfile)
      · exact ⟨fun _ => rfl, fun _ => rfl⟩
      · intro transaction hopen
        cases hopen
        exact ⟨rfl, hfile⟩
      · exact hs.others_iff (Or.inl hfree) (Or.inr rfl)
      · exact fun _ _ _ => rfl

theorem DbSystem.Valid.written_of_known (hs : s.Valid) {next : DbVersion Contents}
    (hopen : (s.modifiers i).atomicTempFile.isSome) (hstamp : IsStamp next.versionId next.commits)
    (hle : next.file ≤ s.created)
    (hbefore : ∀ version, Known s version → version.file = next.file →
      version.commits < next.commits) :
    DbSystem.Valid { s.set i { s.modifiers i with atomicTempFile := none } with
      lock := none, file := some (.written next) } := by
  have hknown : ∀ version, Known s version → Known
      { s.set i { s.modifiers i with atomicTempFile := none } with
        lock := none, file := some (.written next) } version :=
    fun version hversion => hversion.of_written rfl rfl (hbefore version hversion)
  apply hs.update rfl hknown
  · intro version hversion
    cases hversion
    exact
      { stamp := hstamp
        file_le := hle
        current := fun current hcurrent _ => by
          cases hcurrent
          exact ⟨Nat.le_refl _, fun _ => rfl⟩
        created := fun _ hempty => by cases hempty }
  · exact fun _ hempty => by cases hempty
  · exact fun version hversion => hknown version (hs.cached i version hversion)
  · exact ⟨fun hsome => (by cases hsome), fun hlock => (by cases hlock)⟩
  · exact fun _ hsome => by cases hsome
  · exact hs.others_iff (Or.inr hopen) (Or.inl rfl)
  · intro j hj hlock
    rw [(hs.locked i).mp hopen] at hlock
    exact absurd (Option.some.inj hlock).symm hj

theorem DbSystem.Valid.commit {contents : Contents} (hs : s.Valid)
    (hstep : dbStep s (i, .commit contents) = some s') : s'.Valid := by
  rw [dbStep] at hstep
  split at hstep
  case h_1 =>
    cases hstep
    exact hs
  case h_2 transaction file hopen hfile =>
    cases hstep
    have htransaction := hs.transaction i transaction hopen
    have hfirst : transaction.versionId = 1 := by
      rw [TransactionValid] at htransaction
      split at htransaction
      case h_1 => exact htransaction.1
      case h_2 base _ =>
        rw [hfile] at htransaction
        cases htransaction.2
    rw [hfirst]
    apply hs.written_of_known (Option.isSome_of_eq_some hopen) isStamp_first
    · exact Nat.le_of_eq (hs.empty file hfile).1
    · intro version hversion hsame
      exact absurd hsame (Nat.ne_of_lt (hversion.created file hfile))
  case h_3 transaction version hopen hfile =>
    cases hstep
    have htransaction := hs.transaction i transaction hopen
    have hnext : transaction.versionId = nextVersionId version.versionId := by
      rw [TransactionValid] at htransaction
      split at htransaction
      case h_1 =>
        obtain ⟨-, n, hempty⟩ := htransaction
        rw [hfile] at hempty
        cases hempty
      case h_2 base _ =>
        rw [hfile] at htransaction
        cases htransaction.2
        exact htransaction.1
    have hversion := hs.written version hfile
    rw [hnext]
    apply hs.written_of_known (Option.isSome_of_eq_some hopen) hversion.stamp.next
    · exact hversion.file_le
    · intro known hknown hsame
      exact Nat.lt_succ_of_le (hknown.current version hfile hsame.symm).1
  case h_4 => cases hstep

theorem DbSystem.Valid.createDatabase (hs : s.Valid)
    (hstep : dbStep s (i, .createDatabase) = some s') : s'.Valid := by
  rw [dbStep] at hstep
  split at hstep
  case h_1 =>
    cases hstep
    exact hs
  case h_2 =>
    cases hstep
    exact hs
  case h_3 => cases hstep
  case h_4 hnone _ hfree =>
    split at hstep
    case h_1 =>
      cases hstep
      exact hs
    case h_2 hfile =>
      cases hstep
      have hknown : ∀ version, Known s version → Known
          { s.set i
            { s.modifiers i with
              atomicTempFile := some ⟨none, 1⟩
              modifiedTables := true } with
            lock := some i
            file := some (.empty (s.created + 1))
            created := s.created + 1 } version :=
        fun _ hversion => hversion.of_created rfl rfl
      apply hs.update rfl hknown
      · exact fun _ hwritten => by cases hwritten
      · intro file hempty
        cases hempty
        exact ⟨rfl, fun hlock => by cases hlock⟩
      · exact fun version hversion => hknown version (hs.cached i version hversion)
      · exact ⟨fun _ => rfl, fun _ => rfl⟩
      · intro transaction hopen
        cases hopen
        exact ⟨rfl, s.created + 1, rfl⟩
      · exact hs.others_iff (Or.inl hfree) (Or.inr rfl)
      · intro j _ hlock
        rw [hfree] at hlock
        cases hlock

theorem DbSystem.Valid.unlinked (hs : s.Valid) (hfree : s.lock = none) {modifiedTables : Bool} :
    DbSystem.Valid { s.set i ⟨none, (s.modifiers i).atomicTempFile, modifiedTables⟩ with
      file := none } := by
  have hclosed : (s.modifiers i).atomicTempFile = none := by
    cases hopen : (s.modifiers i).atomicTempFile with
    | none => rfl
    | some transaction =>
      have hlock := (hs.locked i).mp (Option.isSome_of_eq_some hopen)
      rw [hfree] at hlock
      cases hlock
  apply hs.update rfl
  · exact fun version hversion => hversion.of_none rfl rfl
  · exact fun _ hwritten => by cases hwritten
  · exact fun _ hempty => by cases hempty
  · exact fun _ hversion => by cases hversion
  · exact hs.locked i
  · intro transaction hopen
    rw [hclosed] at hopen
    cases hopen
  · exact fun _ _ => Iff.rfl
  · intro j _ hlock
    rw [hfree] at hlock
    cases hlock

theorem DbSystem.Valid.deleteDatabase (hs : s.Valid)
    (hstep : dbStep s (i, .deleteDatabase) = some s') : s'.Valid := by
  simp only [dbStep] at hstep
  have hrolled := hs.rollback i
  split at hstep
  case isTrue =>
    split at hstep
    case h_1 => cases hstep
    case h_2 hfree =>
      cases hstep
      exact hrolled.unlinked hfree
  case isFalse =>
    cases hstep
    exact hrolled.set (fun version hversion => hrolled.cached i version hversion) rfl

theorem DbSystem.Valid.closeDatabase (hs : s.Valid)
    (hstep : dbStep s (i, .closeDatabase) = some s') : s'.Valid := by
  rw [dbStep] at hstep
  split at hstep
  case h_1 => cases hstep
  case h_2 hnone =>
    cases hstep
    apply hs.set
    · exact fun _ hversion => by cases hversion
    · rfl

theorem DbSystem.Valid.step {call : Nat × DbCall Contents} (hs : s.Valid)
    (htell : StampsTell s call) (hstep : dbStep s call = some s') : s'.Valid := by
  obtain ⟨i, call⟩ := call
  cases call with
  | openDatabase => exact hs.openDatabase htell hstep
  | modifyDatabase => exact hs.modifyDatabase htell hstep
  | commit contents => exact hs.commit hstep
  | rollback =>
    rw [dbStep] at hstep
    cases hstep
    exact hs.rollback i
  | createDatabase => exact hs.createDatabase hstep
  | deleteDatabase => exact hs.deleteDatabase hstep
  | closeDatabase => exact hs.closeDatabase hstep

theorem DbSystem.Valid.of_run {calls : List (Nat × DbCall Contents)}
    (hrun : Run dbStep StampsTell DbSystem.initial calls s) : s.Valid :=
  Run.invariant DbSystem.Valid (fun _ _ _ hs htell hstep => hs.step htell hstep) hrun
    DbSystem.Valid.initial

/-- Where a stamp is taken for another's only when nothing has changed, every transaction is based
on the file as it is when the transaction begins and until it ends. -/
theorem base_eq_file_of_run {calls : List (Nat × DbCall Contents)}
    {transaction : Transaction Contents} {base : DbVersion Contents}
    (hrun : Run dbStep StampsTell DbSystem.initial calls s)
    (hopen : (s.modifiers i).atomicTempFile = some transaction)
    (hbase : transaction.base = some base) :
    s.lock = some i ∧ s.file = some (.written base) := by
  have hs := DbSystem.Valid.of_run hrun
  have htransaction := hs.transaction i transaction hopen
  rw [TransactionValid, hbase] at htransaction
  exact ⟨(hs.locked i).mp (Option.isSome_of_eq_some hopen), htransaction.2⟩
end

section
def twoWriters : List (Nat × DbCall Nat) :=
  [(0, .createDatabase), (0, .commit 7), (1, .openDatabase), (0, .modifyDatabase), (0, .commit 8),
    (1, .modifyDatabase)]

theorem run_twoWriters : ∃ s : DbSystem Nat, Run dbStep StampsTell .initial twoWriters s ∧
    (s.modifiers 1).atomicTempFile = some ⟨some ⟨8, 2, 1, 2⟩, 3⟩ := by
  apply Exists.intro
  apply And.intro
  · iterate 2 apply Run.cons trivial rfl
    apply Run.cons (fun _ _ hcached => by cases hcached) rfl
    apply Run.cons (fun _ _ hcached => by cases hcached) rfl
    apply Run.cons trivial rfl
    refine Run.cons (fun cached version hcached hfile hstamp => ?_) rfl (.nil _)
    cases hcached
    cases hfile
    cases hstamp
  · rfl

theorem base_eq_file_of_run_sample : ∃ s : DbSystem Nat,
    s.lock = some 1 ∧ s.file = some (.written ⟨8, 2, 1, 2⟩) := by
  obtain ⟨s, hrun, hopen⟩ := run_twoWriters
  exact ⟨s, base_eq_file_of_run hrun hopen rfl⟩

/-- The second instance replaces the file that the first one has read. The stamp of the new file
is that of the old one. -/
def recreated : List (Nat × DbCall Nat) :=
  [(0, .createDatabase), (0, .commit 7), (0, .openDatabase), (1, .deleteDatabase),
    (1, .createDatabase), (1, .commit 8), (0, .modifyDatabase)]

theorem stale_base_after_recreation : ∃ s : DbSystem Nat,
    Run dbStep (fun _ _ => True) .initial recreated s ∧
      (s.modifiers 0).atomicTempFile = some ⟨some ⟨7, 1, 1, 1⟩, 2⟩ ∧
      s.file = some (.written ⟨8, 1, 2, 1⟩) := by
  apply Exists.intro
  apply And.intro
  · iterate 7 apply Run.cons trivial rfl
    exact .nil _
  · exact ⟨rfl, rfl⟩
end
end SecurityFramework.Filedb
