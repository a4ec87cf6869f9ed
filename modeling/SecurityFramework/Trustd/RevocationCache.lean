import Mathlib.Logic.Function.Basic
import SecurityFramework.Library.Run

/-! # The cache of the revocation database -/

namespace SecurityFramework.Trustd
/-- Information about a certificate of an issuer. `version` is not in the code: it counts the
updates that had been committed to the database the information is from. -/
structure SecValidInfo (Hash Verdict : Type*) where
  certHash : Hash
  issuerHash : Hash
  verdict : Verdict
  version : Nat

def kSecRevocationDbCacheSize : Nat := 100

/-- `info_cache_list`, in which the key that was used last is last, and `info_cache`. -/
structure InfoCache (Digest Hash Verdict : Type*) where
  infoCacheList : List Digest
  infoCache : Digest → Option (SecValidInfo Hash Verdict)

namespace InfoCache
variable {Digest Hash Verdict : Type*} [DecidableEq Digest]

def empty : InfoCache Digest Hash Verdict := ⟨[], fun _ => none⟩

def moveToEnd (cache : InfoCache Digest Hash Verdict) (key : Digest) :
    InfoCache Digest Hash Verdict :=
  { cache with infoCacheList := cache.infoCacheList.erase key ++ [key] }

def remove (cache : InfoCache Digest Hash Verdict) (key : Digest) :
    InfoCache Digest Hash Verdict where
  infoCacheList := cache.infoCacheList.erase key
  infoCache := Function.update cache.infoCache key none

/-- An entry that the dictionary has is kept. -/
def add (cache : InfoCache Digest Hash Verdict) (key : Digest)
    (info : SecValidInfo Hash Verdict) : InfoCache Digest Hash Verdict where
  infoCacheList := cache.infoCacheList ++ [key]
  infoCache := Function.update cache.infoCache key ((cache.infoCache key).or (some info))

def makeRoom (cache : InfoCache Digest Hash Verdict) : InfoCache Digest Hash Verdict :=
  match cache.infoCacheList with
  | [] => cache
  | oldest :: _ =>
    if kSecRevocationDbCacheSize ≤ cache.infoCacheList.length then cache.remove oldest else cache
end InfoCache

structure Query (Hash : Type*) where
  certHash : Hash
  issuerHash : Hash

section
variable {Digest Hash Verdict : Type*} [DecidableEq Digest] [DecidableEq Hash]
  (createCacheKey : Hash → Hash → Digest)

/-- `SecRevocationDbCacheRead`. An entry of other hashes is removed, but returned too. -/
def secRevocationDbCacheRead (cache : InfoCache Digest Hash Verdict) (query : Query Hash) :
    Option (SecValidInfo Hash Verdict) × InfoCache Digest Hash Verdict :=
  let cacheKey := createCacheKey query.certHash query.issuerHash
  if cacheKey ∈ cache.infoCacheList then
    match cache.infoCache cacheKey with
    | some result =>
      if result.certHash = query.certHash ∧ result.issuerHash = query.issuerHash then
        (some result, cache.moveToEnd cacheKey)
      else (some result, cache.remove cacheKey)
    | none => (none, cache)
  else (none, cache)

/-- `SecRevocationDbCacheWrite`. Room is made for a key that is not in the list, so that it does not
matter that the source adds to the dictionary before. -/
def secRevocationDbCacheWrite (cache : InfoCache Digest Hash Verdict) :
    Option (SecValidInfo Hash Verdict) → InfoCache Digest Hash Verdict
  | none => cache
  | some validInfo =>
    let cacheKey := createCacheKey validInfo.certHash validInfo.issuerHash
    if cacheKey ∈ cache.infoCacheList then cache else cache.makeRoom.add cacheKey validInfo
end

/-- How far a call has come. `since` counts the updates that had been committed when it began. -/
inductive Call (Hash Verdict : Type*) where
  | idle
  | started (query : Query Hash) (since : Nat)
  | missed (query : Query Hash) (since : Nat)
  | read (since : Nat) (result : Option (SecValidInfo Hash Verdict))
  | returned (since : Nat) (result : Option (SecValidInfo Hash Verdict))

inductive UpdatePhase where
  | begun
  | applying
  | purged
  | cleared

/-- `committed` are the states of the database, the first at the front; `writer` is what the open
transaction has made of the last one. -/
structure RevocationState (Db Digest Hash Verdict : Type*) where
  committed : List Db
  current : Db
  updateInProgress : Bool
  cache : InfoCache Digest Hash Verdict
  writer : Option (UpdatePhase × Db)
  calls : Nat → Call Hash Verdict

namespace RevocationState
variable {Db Digest Hash Verdict : Type*}

def version (s : RevocationState Db Digest Hash Verdict) : Nat := s.committed.length

def initial (db : Db) : RevocationState Db Digest Hash Verdict where
  committed := []
  current := db
  updateInProgress := false
  cache := .empty
  writer := none
  calls := fun _ => .idle

def dbAt (s : RevocationState Db Digest Hash Verdict) (version : Nat) : Option Db :=
  (s.committed ++ [s.current])[version]?
end RevocationState

/-- The atomic steps of calls, each of which has a number, and of updates. -/
inductive RevocationStep (Db Hash : Type*) where
  | start (call : Nat) (query : Query Hash)
  | lookup (call : Nat)
  | snapshot (call : Nat)
  | insert (call : Nat)
  | beginTransaction
  | setInProgress
  | apply (f : Db → Db)
  | purge
  | clearInProgress
  | commit
  | rollback

section
variable {Db Digest Hash Verdict : Type*} [DecidableEq Digest] [DecidableEq Hash]
  (createCacheKey : Hash → Hash → Digest)
  (validInfoForCertificate : Db → Query Hash → Option Verdict)

def readInfo (s : RevocationState Db Digest Hash Verdict) (query : Query Hash) :
    Option (SecValidInfo Hash Verdict) :=
  (validInfoForCertificate s.current query).map fun verdict =>
    ⟨query.certHash, query.issuerHash, verdict, s.version⟩

def stepCall (s : RevocationState Db Digest Hash Verdict) (call : Nat)
    (state : Call Hash Verdict) : RevocationState Db Digest Hash Verdict :=
  { s with calls := Function.update s.calls call state }

/-- The next state. An update is applied in one or more rounds, and nothing is purged between the
end of a round and the commit. -/
def revocationStep (s : RevocationState Db Digest Hash Verdict) :
    RevocationStep Db Hash → Option (RevocationState Db Digest Hash Verdict)
  | .start call query =>
    match s.calls call with
    | .idle | .returned _ _ =>
      -- `SecRevocationDbWith` returns at once while an update is in progress
      if s.updateInProgress then some (stepCall s call (.returned s.version none))
      else some (stepCall s call (.started query s.version))
    | _ => none
  | .lookup call =>
    match s.calls call with
    | .started query since =>
      let (result, cache) := secRevocationDbCacheRead createCacheKey s.cache query
      match result with
      | some info => some (stepCall { s with cache := cache } call (.returned since (some info)))
      | none => some (stepCall { s with cache := cache } call (.missed query since))
    | _ => none
  | .snapshot call =>
    match s.calls call with
    | .missed query since =>
      some (stepCall s call (.read since (readInfo validInfoForCertificate s query)))
    | _ => none
  | .insert call =>
    match s.calls call with
    | .read since result =>
      some (stepCall
        { s with cache := secRevocationDbCacheWrite createCacheKey s.cache result } call
        (.returned since result))
    | _ => none
  | .beginTransaction =>
    match s.writer with
    | none => some { s with writer := some (.begun, s.current) }
    | some _ => none
  | .setInProgress =>
    match s.writer with
    | some (.begun, db) | some (.cleared, db) =>
      some { s with writer := some (.applying, db), updateInProgress := true }
    | _ => none
  | .apply f =>
    match s.writer with
    | some (.begun, db) => some { s with writer := some (.begun, f db) }
    | some (.applying, db) => some { s with writer := some (.applying, f db) }
    | _ => none
  | .purge =>
    match s.writer with
    | some (.applying, db) =>
      some { s with writer := some (.purged, db), cache := .empty }
    | _ => none
  | .clearInProgress =>
    match s.writer with
    | some (.purged, db) =>
      some { s with writer := some (.cleared, db), updateInProgress := false }
    | _ => none
  | .commit =>
    match s.writer with
    | some (.cleared, db) =>
      some { s with committed := s.committed ++ [s.current], current := db, writer := none }
    | _ => none
  | .rollback =>
    match s.writer with
    | some (.begun, _) | some (.cleared, _) => some { s with writer := none }
    | _ => none

/-- Nothing is added to the cache between the purge and the commit, and what a call has read is not
added to it after a commit. -/
def NoRace (s : RevocationState Db Digest Hash Verdict) : RevocationStep Db Hash → Prop
  | .commit => s.cache.infoCacheList = []
  | .insert call => ∀ since info, s.calls call = .read since (some info) → info.version = s.version
  | _ => True
end

namespace InfoCache
variable {Digest Hash Verdict : Type*} {cache : InfoCache Digest Hash Verdict}

def Listed (cache : InfoCache Digest Hash Verdict) : Prop :=
  ∀ key info, cache.infoCache key = some info → key ∈ cache.infoCacheList

theorem Listed.empty : (empty : InfoCache Digest Hash Verdict).Listed :=
  fun _ _ hinfo => by cases hinfo

theorem Listed.infoCache_ne_some (hlisted : cache.Listed) (hnil : cache.infoCacheList = [])
    (key : Digest) (info : SecValidInfo Hash Verdict) : cache.infoCache key ≠ some info := by
  intro hinfo
  have hmem := hlisted key info hinfo
  rw [hnil] at hmem
  exact absurd hmem List.not_mem_nil

variable [DecidableEq Digest] {key other : Digest} {info added : SecValidInfo Hash Verdict}

theorem infoCache_of_remove (hinfo : (cache.remove key).infoCache other = some info) :
    other ≠ key ∧ cache.infoCache other = some info := by
  rw [remove] at hinfo
  by_cases hsame : other = key
  · simp [hsame] at hinfo
  · exact ⟨hsame, by simpa [Function.update_of_ne hsame] using hinfo⟩

theorem infoCache_of_add (hinfo : (cache.add key added).infoCache other = some info) :
    cache.infoCache other = some info ∨ other = key ∧ added = info := by
  rw [add] at hinfo
  by_cases hsame : other = key
  · subst hsame
    simp only [Function.update_self, Option.or_eq_some_iff, Option.some.injEq] at hinfo
    exact hinfo.imp_right fun h => ⟨rfl, h.2⟩
  · exact .inl (by simpa [Function.update_of_ne hsame] using hinfo)

theorem Listed.moveToEnd (hlisted : cache.Listed) (key : Digest) :
    (cache.moveToEnd key).Listed := by
  intro other info hinfo
  have hold := hlisted other info hinfo
  by_cases hsame : other = key
  · simp [InfoCache.moveToEnd, hsame]
  · exact List.mem_append_left _ ((List.mem_erase_of_ne hsame).mpr hold)

theorem Listed.remove (hlisted : cache.Listed) (key : Digest) : (cache.remove key).Listed := by
  intro other info hinfo
  obtain ⟨hne, hold⟩ := infoCache_of_remove hinfo
  exact (List.mem_erase_of_ne hne).mpr (hlisted other info hold)

theorem Listed.add (hlisted : cache.Listed) (key : Digest) (added : SecValidInfo Hash Verdict) :
    (cache.add key added).Listed := by
  intro other info hinfo
  rcases infoCache_of_add hinfo with hold | ⟨rfl, -⟩
  · exact List.mem_append_left _ (hlisted other info hold)
  · simp [InfoCache.add]

theorem Listed.makeRoom (hlisted : cache.Listed) : cache.makeRoom.Listed := by
  rw [InfoCache.makeRoom]
  split
  · exact hlisted
  · split
    · exact hlisted.remove _
    · exact hlisted

theorem infoCache_of_makeRoom (hinfo : cache.makeRoom.infoCache other = some info) :
    cache.infoCache other = some info := by
  rw [makeRoom] at hinfo
  split at hinfo
  · exact hinfo
  · split at hinfo
    · exact (infoCache_of_remove hinfo).2
    · exact hinfo
end InfoCache

section
variable {Digest Hash Verdict : Type*} [DecidableEq Digest] [DecidableEq Hash]
  (createCacheKey : Hash → Hash → Digest) {cache : InfoCache Digest Hash Verdict}

/-- What is returned was in the cache, and so was what is left in it. -/
theorem secRevocationDbCacheRead_spec (hlisted : cache.Listed) (query : Query Hash) :
    (secRevocationDbCacheRead createCacheKey cache query).2.Listed ∧
      (∀ key info,
        (secRevocationDbCacheRead createCacheKey cache query).2.infoCache key = some info →
          cache.infoCache key = some info) ∧
      ∀ info, (secRevocationDbCacheRead createCacheKey cache query).1 = some info →
        ∃ key, cache.infoCache key = some info := by
  rw [secRevocationDbCacheRead]
  split
  case isFalse => exact ⟨hlisted, fun _ _ hinfo => hinfo, fun _ hinfo => by cases hinfo⟩
  case isTrue =>
    split
    case h_2 => exact ⟨hlisted, fun _ _ hinfo => hinfo, fun _ hinfo => by cases hinfo⟩
    case h_1 found hfound =>
      split
      case isTrue =>
        exact ⟨hlisted.moveToEnd _, fun _ _ hinfo => hinfo,
          fun _ hinfo => ⟨_, hfound.trans hinfo⟩⟩
      case isFalse =>
        exact ⟨hlisted.remove _, fun _ _ hinfo => (InfoCache.infoCache_of_remove hinfo).2,
          fun _ hinfo => ⟨_, hfound.trans hinfo⟩⟩

omit [DecidableEq Hash] in
/-- What is in the cache was in it, or is what is added. -/
theorem secRevocationDbCacheWrite_spec (hlisted : cache.Listed)
    (result : Option (SecValidInfo Hash Verdict)) :
    (secRevocationDbCacheWrite createCacheKey cache result).Listed ∧
      ∀ key info,
        (secRevocationDbCacheWrite createCacheKey cache result).infoCache key = some info →
          cache.infoCache key = some info ∨ result = some info := by
  cases result with
  | none => exact ⟨hlisted, fun _ _ hinfo => .inl hinfo⟩
  | some validInfo =>
    rw [secRevocationDbCacheWrite]
    split
    case isTrue => exact ⟨hlisted, fun _ _ hinfo => .inl hinfo⟩
    case isFalse =>
      refine ⟨hlisted.makeRoom.add _ _, ?_⟩
      intro key info hinfo
      rcases InfoCache.infoCache_of_add hinfo with hold | ⟨-, hnew⟩
      · exact .inl (InfoCache.infoCache_of_makeRoom hold)
      · exact .inr (congrArg some hnew)
end

section
variable {Db Digest Hash Verdict : Type*}
  (validInfoForCertificate : Db → Query Hash → Option Verdict)

/-- The information is from the database as it was after so many updates as its version says. -/
def FromVersion (s : RevocationState Db Digest Hash Verdict) (info : SecValidInfo Hash Verdict) :
    Prop :=
  ∃ db, s.dbAt info.version = some db ∧
    validInfoForCertificate db ⟨info.certHash, info.issuerHash⟩ = some info.verdict

/-- No call returns information from before an update that had been committed when it began. -/
def Coherent (s : RevocationState Db Digest Hash Verdict) : Prop :=
  ∀ call since info, s.calls call = .returned since (some info) →
    since ≤ info.version ∧ FromVersion validInfoForCertificate s info

/-- What a call has read or returned is not from before it began. -/
def CallValid (s : RevocationState Db Digest Hash Verdict) : Call Hash Verdict → Prop
  | .idle => True
  | .started _ since => since ≤ s.version
  | .missed _ since => since ≤ s.version
  | .read since result => ∀ info, result = some info →
    since ≤ info.version ∧ FromVersion validInfoForCertificate s info
  | .returned since result => ∀ info, result = some info →
    since ≤ info.version ∧ FromVersion validInfoForCertificate s info

/-- What is in the cache is from the committed database. -/
structure RevocationState.Valid (s : RevocationState Db Digest Hash Verdict) : Prop where
  listed : s.cache.Listed
  fresh : ∀ key info, s.cache.infoCache key = some info →
    info.version = s.version ∧ FromVersion validInfoForCertificate s info
  calls : ∀ call, CallValid validInfoForCertificate s (s.calls call)

variable {validInfoForCertificate} {s s' : RevocationState Db Digest Hash Verdict}

theorem RevocationState.Valid.coherent (hs : s.Valid validInfoForCertificate) :
    Coherent validInfoForCertificate s := by
  intro call since info hcall
  have hvalid := hs.calls call
  rw [hcall] at hvalid
  exact hvalid info rfl

theorem RevocationState.Valid.initial (db : Db) :
    (RevocationState.initial db : RevocationState Db Digest Hash Verdict).Valid
      validInfoForCertificate where
  listed := .empty
  fresh _ _ hinfo := by cases hinfo
  calls _ := trivial

theorem CallValid.of_same {call : Call Hash Verdict}
    (hcall : CallValid validInfoForCertificate s call) (hcommitted : s'.committed = s.committed)
    (hcurrent : s'.current = s.current) : CallValid validInfoForCertificate s' call := by
  cases call with
  | idle => trivial
  | started query since | missed query since =>
    simpa [CallValid, RevocationState.version, hcommitted] using hcall
  | read since result | returned since result =>
    simpa [CallValid, FromVersion, RevocationState.dbAt, hcommitted, hcurrent] using hcall

theorem RevocationState.Valid.stepCall (hs : s.Valid validInfoForCertificate) (call : Nat)
    {state : Call Hash Verdict} (hstate : CallValid validInfoForCertificate s state) :
    (stepCall s call state).Valid validInfoForCertificate where
  listed := hs.listed
  fresh := hs.fresh
  calls other := by
    show CallValid validInfoForCertificate _ (Function.update s.calls call state other)
    by_cases hsame : other = call
    · subst hsame
      rw [Function.update_self]
      exact hstate.of_same rfl rfl
    · rw [Function.update_of_ne hsame]
      exact (hs.calls other).of_same rfl rfl

theorem RevocationState.Valid.setCache (hs : s.Valid validInfoForCertificate)
    {cache : InfoCache Digest Hash Verdict} (hlisted : cache.Listed)
    (hfresh : ∀ key info, cache.infoCache key = some info →
      info.version = s.version ∧ FromVersion validInfoForCertificate s info) :
    ({ s with cache := cache } : RevocationState Db Digest Hash Verdict).Valid
      validInfoForCertificate where
  listed := hlisted
  fresh := hfresh
  calls call := (hs.calls call).of_same rfl rfl

theorem RevocationState.Valid.setWriter (hs : s.Valid validInfoForCertificate)
    (writer : Option (UpdatePhase × Db)) (updateInProgress : Bool) :
    ({ s with writer := writer, updateInProgress := updateInProgress } :
      RevocationState Db Digest Hash Verdict).Valid validInfoForCertificate where
  listed := hs.listed
  fresh := hs.fresh
  calls call := (hs.calls call).of_same rfl rfl

theorem fromVersion_readInfo {query : Query Hash} {info : SecValidInfo Hash Verdict}
    (hread : readInfo validInfoForCertificate s query = some info) :
    info.version = s.version ∧ FromVersion validInfoForCertificate s info := by
  obtain ⟨verdict, hverdict, rfl⟩ := Option.map_eq_some_iff.mp hread
  refine ⟨rfl, s.current, ?_, hverdict⟩
  simp [RevocationState.dbAt, RevocationState.version]

theorem FromVersion.commit {info : SecValidInfo Hash Verdict}
    (hinfo : FromVersion validInfoForCertificate s info) (db : Db)
    (writer : Option (UpdatePhase × Db)) :
    FromVersion validInfoForCertificate
      { s with committed := s.committed ++ [s.current], current := db, writer := writer } info := by
  obtain ⟨old, hold, hverdict⟩ := hinfo
  refine ⟨old, ?_, hverdict⟩
  have hlt : info.version < (s.committed ++ [s.current]).length :=
    (List.getElem?_eq_some_iff.mp hold).1
  rw [RevocationState.dbAt, List.getElem?_append_left hlt]
  exact hold

theorem RevocationState.Valid.commit (hs : s.Valid validInfoForCertificate)
    (hempty : s.cache.infoCacheList = []) (db : Db) :
    ({ s with committed := s.committed ++ [s.current], current := db, writer := none } :
      RevocationState Db Digest Hash Verdict).Valid validInfoForCertificate where
  listed := hs.listed
  fresh key info hinfo := absurd hinfo (hs.listed.infoCache_ne_some hempty key info)
  calls call := by
    have hvalid := hs.calls call
    show CallValid validInfoForCertificate _ (s.calls call)
    cases hcall : s.calls call with
    | idle => trivial
    | started query since | missed query since =>
      rw [hcall] at hvalid
      have hle : since ≤ s.committed.length := hvalid
      show since ≤ (s.committed ++ [s.current]).length
      rw [List.length_append]
      omega
    | read since result | returned since result =>
      rw [hcall] at hvalid
      intro info hinfo
      exact ⟨(hvalid info hinfo).1, (hvalid info hinfo).2.commit db none⟩

variable [DecidableEq Digest] [DecidableEq Hash] {createCacheKey : Hash → Hash → Digest}

theorem RevocationState.Valid.step (hs : s.Valid validInfoForCertificate)
    {step : RevocationStep Db Hash} (hok : NoRace s step)
    (hstep : revocationStep createCacheKey validInfoForCertificate s step = some s') :
    s'.Valid validInfoForCertificate := by
  cases step with
  | start call query =>
    simp only [revocationStep] at hstep
    split at hstep
    case h_3 => cases hstep
    all_goals
      split at hstep
      · cases hstep
        exact hs.stepCall call fun _ hinfo => by cases hinfo
      · cases hstep
        exact hs.stepCall call (Nat.le_refl _)
  | lookup call =>
    simp only [revocationStep] at hstep
    split at hstep
    case h_2 => cases hstep
    case h_1 query since hcall =>
      have hsince := hs.calls call
      rw [hcall] at hsince
      obtain ⟨hlisted, hold, hfound⟩ :=
        secRevocationDbCacheRead_spec createCacheKey hs.listed query
      have hcache := hs.setCache hlisted fun key info hinfo =>
        hs.fresh key info (hold key info hinfo)
      split at hstep
      case h_1 info hinfo =>
        cases hstep
        apply hcache.stepCall call
        intro info' heq
        cases heq
        obtain ⟨key, hkey⟩ := hfound info hinfo
        obtain ⟨hversion, hfrom⟩ := hs.fresh key info hkey
        exact ⟨by rw [hversion]; exact hsince, hfrom⟩
      case h_2 =>
        cases hstep
        exact hcache.stepCall call hsince
  | snapshot call =>
    simp only [revocationStep] at hstep
    split at hstep
    case h_2 => cases hstep
    case h_1 query since hcall =>
      have hsince := hs.calls call
      rw [hcall] at hsince
      cases hstep
      apply hs.stepCall call
      intro info hinfo
      obtain ⟨hversion, hfrom⟩ := fromVersion_readInfo hinfo
      exact ⟨by rw [hversion]; exact hsince, hfrom⟩
  | insert call =>
    simp only [revocationStep] at hstep
    split at hstep
    case h_2 => cases hstep
    case h_1 since result hcall =>
      have hread := hs.calls call
      rw [hcall] at hread
      obtain ⟨hlisted, hadded⟩ := secRevocationDbCacheWrite_spec createCacheKey hs.listed result
      cases hstep
      have hcache := hs.setCache hlisted fun key info hinfo => by
        rcases hadded key info hinfo with hold | rfl
        · exact hs.fresh key info hold
        · exact ⟨hok since info hcall, (hread info rfl).2⟩
      have hreturned : CallValid validInfoForCertificate s (.returned since result) := hread
      exact hcache.stepCall call (hreturned.of_same rfl rfl)
  | beginTransaction =>
    simp only [revocationStep] at hstep
    split at hstep
    · cases hstep
      exact hs.setWriter _ _
    · cases hstep
  | setInProgress | apply f =>
    simp only [revocationStep] at hstep
    split at hstep
    · cases hstep
      exact hs.setWriter _ _
    · cases hstep
      exact hs.setWriter _ _
    · cases hstep
  | purge =>
    simp only [revocationStep] at hstep
    split at hstep
    · cases hstep
      exact (hs.setCache .empty fun _ _ hinfo => by cases hinfo).setWriter _ _
    · cases hstep
  | clearInProgress =>
    simp only [revocationStep] at hstep
    split at hstep
    · cases hstep
      exact hs.setWriter _ _
    · cases hstep
  | commit =>
    simp only [revocationStep] at hstep
    split at hstep
    · cases hstep
      exact hs.commit hok _
    · cases hstep
  | rollback =>
    simp only [revocationStep] at hstep
    split at hstep
    · cases hstep
      exact hs.setWriter _ _
    · cases hstep
      exact hs.setWriter _ _
    · cases hstep

theorem coherent_of_run (createCacheKey : Hash → Hash → Digest)
    (validInfoForCertificate : Db → Query Hash → Option Verdict) (db : Db)
    {steps : List (RevocationStep Db Hash)} {s : RevocationState Db Digest Hash Verdict}
    (hrun : Run (revocationStep createCacheKey validInfoForCertificate) NoRace (.initial db)
      steps s) : Coherent validInfoForCertificate s :=
  (hrun.invariant (RevocationState.Valid validInfoForCertificate)
    (fun _ _ _ hs hok hstep => hs.step hok hstep) (.initial db)).coherent
end

section
def isRevoked (revoked : Bool) (_ : Query Unit) : Option Bool := some revoked

def onlyKey (_ _ : Unit) : Unit := ()

def onlyQuery : Query Unit := ⟨(), ()⟩

def updateSteps : List (RevocationStep Bool Unit) :=
  [.beginTransaction, .setInProgress, .apply fun _ => true, .purge, .clearInProgress, .commit]

def quietSteps : List (RevocationStep Bool Unit) :=
  [.start 0 onlyQuery, .lookup 0, .snapshot 0, .insert 0] ++ updateSteps ++
    [.start 1 onlyQuery, .lookup 1, .snapshot 1, .insert 1]

theorem run_quietSteps : ∃ s : RevocationState Bool Unit Unit Bool,
    Run (revocationStep onlyKey isRevoked) NoRace (.initial false) quietSteps s ∧
      s.calls 1 = .returned 1 (some ⟨(), (), true, 1⟩) := by
  have hpurged : ∀ {s : RevocationState Bool Unit Unit Bool}, s.cache.infoCacheList = [] →
      NoRace s (RevocationStep.commit : RevocationStep Bool Unit) := fun hnil => hnil
  apply Exists.intro
  apply And.intro
  · iterate 3 apply Run.cons trivial rfl
    apply Run.cons (fun since info hcall => by cases hcall; rfl) rfl
    iterate 5 apply Run.cons trivial rfl
    apply Run.cons (hpurged rfl) rfl
    iterate 3 apply Run.cons trivial rfl
    apply Run.cons (fun since info hcall => by cases hcall; rfl) rfl
    exact .nil _
  · rfl

theorem coherent_of_run_sample : ∃ s : RevocationState Bool Unit Unit Bool,
    s.calls 1 = .returned 1 (some ⟨(), (), true, 1⟩) ∧ Coherent isRevoked s := by
  obtain ⟨s, hrun, hcall⟩ := run_quietSteps
  exact ⟨s, hcall, coherent_of_run onlyKey isRevoked false hrun⟩

/-- The first call adds what it has read to the cache after the update. -/
def racingSteps : List (RevocationStep Bool Unit) :=
  [.start 0 onlyQuery, .lookup 0, .snapshot 0] ++ updateSteps ++
    [.insert 0, .start 1 onlyQuery, .lookup 1]

theorem stale_information_after_update : ∃ s : RevocationState Bool Unit Unit Bool,
    Run (revocationStep onlyKey isRevoked) (fun _ _ => True) (.initial false) racingSteps s ∧
      s.calls 1 = .returned 1 (some ⟨(), (), false, 0⟩) ∧ ¬Coherent isRevoked s := by
  have hrun : ∃ s : RevocationState Bool Unit Unit Bool,
      Run (revocationStep onlyKey isRevoked) (fun _ _ => True) (.initial false) racingSteps s ∧
        s.calls 1 = .returned 1 (some ⟨(), (), false, 0⟩) := by
    apply Exists.intro
    apply And.intro
    · iterate 12 apply Run.cons trivial rfl
      exact .nil _
    · rfl
  obtain ⟨s, hrun, hcall⟩ := hrun
  refine ⟨s, hrun, hcall, ?_⟩
  intro hcoherent
  have hle : 1 ≤ 0 := (hcoherent 1 1 ⟨(), (), false, 0⟩ hcall).1
  omega
end

section
variable {Digest Hash Verdict : Type*} [DecidableEq Digest]

/-- The list has the keys of the dictionary, each once and not too many, and an entry has the key
of its hashes. -/
structure InfoCache.Sound (createCacheKey : Hash → Hash → Digest)
    (cache : InfoCache Digest Hash Verdict) : Prop where
  nodup : cache.infoCacheList.Nodup
  length_le : cache.infoCacheList.length ≤ kSecRevocationDbCacheSize
  mem_iff : ∀ key, key ∈ cache.infoCacheList ↔ (cache.infoCache key).isSome
  key_eq : ∀ key info, cache.infoCache key = some info →
    createCacheKey info.certHash info.issuerHash = key

namespace InfoCache
variable {createCacheKey : Hash → Hash → Digest} {cache : InfoCache Digest Hash Verdict}
  {key : Digest}

omit [DecidableEq Digest] in
theorem Sound.empty : (empty : InfoCache Digest Hash Verdict).Sound createCacheKey where
  nodup := .nil
  length_le := Nat.zero_le _
  mem_iff key := by simp [InfoCache.empty]
  key_eq _ _ hinfo := by cases hinfo

theorem Sound.moveToEnd (hsound : cache.Sound createCacheKey)
    (hmem : key ∈ cache.infoCacheList) : (cache.moveToEnd key).Sound createCacheKey := by
  have hperm : (cache.moveToEnd key).infoCacheList.Perm cache.infoCacheList :=
    (List.perm_append_singleton _ _).trans (List.perm_cons_erase hmem).symm
  exact ⟨hperm.nodup_iff.mpr hsound.nodup, hperm.length_eq ▸ hsound.length_le,
    fun other => hperm.mem_iff.trans (hsound.mem_iff other), hsound.key_eq⟩

theorem Sound.remove (hsound : cache.Sound createCacheKey) (key : Digest) :
    (cache.remove key).Sound createCacheKey where
  nodup := hsound.nodup.erase key
  length_le := Nat.le_trans List.length_erase_le hsound.length_le
  mem_iff other := by
    rw [InfoCache.remove, hsound.nodup.mem_erase_iff, hsound.mem_iff]
    by_cases hsame : other = key
    · simp [hsame]
    · simp [hsame]
  key_eq other info hinfo := hsound.key_eq other info (infoCache_of_remove hinfo).2

/-- The least recently used key goes when the cache is full. -/
theorem Sound.makeRoom (hsound : cache.Sound createCacheKey) :
    cache.makeRoom.Sound createCacheKey ∧
      cache.makeRoom.infoCacheList.length < kSecRevocationDbCacheSize := by
  rw [InfoCache.makeRoom]
  split
  case h_1 hnil => exact ⟨hsound, by rw [hnil]; exact Nat.succ_pos 99⟩
  case h_2 oldest later hcons =>
    have hle := hsound.length_le
    split
    case isTrue =>
      refine ⟨hsound.remove oldest, ?_⟩
      rw [hcons, List.length_cons] at hle
      rw [InfoCache.remove, hcons, List.erase_cons_head]
      exact hle
    case isFalse hroom => exact ⟨hsound, Nat.lt_of_not_le hroom⟩

theorem Sound.add (hsound : cache.Sound createCacheKey)
    (hroom : cache.infoCacheList.length < kSecRevocationDbCacheSize)
    {info : SecValidInfo Hash Verdict} (hkey : createCacheKey info.certHash info.issuerHash = key)
    (hnew : key ∉ cache.infoCacheList) : (cache.add key info).Sound createCacheKey where
  nodup := (List.perm_append_singleton key _).nodup_iff.mpr
    (List.nodup_cons.mpr ⟨hnew, hsound.nodup⟩)
  length_le := by
    rw [InfoCache.add, List.length_append]
    exact hroom
  mem_iff other := by
    rw [InfoCache.add, List.mem_append, hsound.mem_iff]
    by_cases hsame : other = key
    · simp [hsame]
    · simp [hsame]
  key_eq other found hfound := by
    rcases infoCache_of_add hfound with hold | ⟨rfl, rfl⟩
    · exact hsound.key_eq other found hold
    · exact hkey
end InfoCache

variable [DecidableEq Hash] {createCacheKey : Hash → Hash → Digest}
  {cache : InfoCache Digest Hash Verdict}

theorem InfoCache.Sound.read (hsound : cache.Sound createCacheKey) (query : Query Hash) :
    (secRevocationDbCacheRead createCacheKey cache query).2.Sound createCacheKey := by
  rw [secRevocationDbCacheRead]
  split
  case isFalse => exact hsound
  case isTrue hmem =>
    split
    case h_2 => exact hsound
    case h_1 =>
      split
      · exact hsound.moveToEnd hmem
      · exact hsound.remove _

theorem InfoCache.Sound.key_of_read (hsound : cache.Sound createCacheKey) {query : Query Hash}
    {info : SecValidInfo Hash Verdict}
    (hread : (secRevocationDbCacheRead createCacheKey cache query).1 = some info) :
    createCacheKey info.certHash info.issuerHash =
      createCacheKey query.certHash query.issuerHash := by
  rw [secRevocationDbCacheRead] at hread
  split at hread
  case isFalse => cases hread
  case isTrue =>
    split at hread
    case h_2 => cases hread
    case h_1 found hfound =>
      have hsame : found = info := by split at hread <;> exact Option.some.inj hread
      exact hsame ▸ hsound.key_eq _ found hfound

omit [DecidableEq Hash] in
theorem InfoCache.Sound.write (hsound : cache.Sound createCacheKey)
    (result : Option (SecValidInfo Hash Verdict)) :
    (secRevocationDbCacheWrite createCacheKey cache result).Sound createCacheKey := by
  cases result with
  | none => exact hsound
  | some validInfo =>
    rw [secRevocationDbCacheWrite]
    split
    case isTrue => exact hsound
    case isFalse hnew =>
      obtain ⟨hmade, hroom⟩ := hsound.makeRoom
      refine hmade.add hroom rfl ?_
      rw [hmade.mem_iff, Option.isSome_iff_exists]
      rintro ⟨info, hinfo⟩
      apply hnew
      rw [hsound.mem_iff, InfoCache.infoCache_of_makeRoom hinfo]
      rfl

variable {Db : Type*} {validInfoForCertificate : Db → Query Hash → Option Verdict}
  {s s' : RevocationState Db Digest Hash Verdict}

/-- Only lookups, insertions and purges touch the cache. -/
theorem InfoCache.Sound.step (hsound : s.cache.Sound createCacheKey)
    {step : RevocationStep Db Hash}
    (hstep : revocationStep createCacheKey validInfoForCertificate s step = some s') :
    s'.cache.Sound createCacheKey := by
  cases step with
  | lookup call =>
    simp only [revocationStep] at hstep
    split at hstep
    case h_2 => cases hstep
    case h_1 query since hcall =>
      split at hstep <;> cases hstep <;> exact hsound.read query
  | insert call =>
    simp only [revocationStep] at hstep
    split at hstep
    case h_2 => cases hstep
    case h_1 since result hcall =>
      cases hstep
      exact hsound.write result
  | purge =>
    simp only [revocationStep] at hstep
    split at hstep
    · cases hstep
      exact .empty
    · cases hstep
  | _ =>
    simp only [revocationStep] at hstep
    (repeat' split at hstep) <;> cases hstep <;> exact hsound

theorem cache_sound_of_run (createCacheKey : Hash → Hash → Digest)
    (validInfoForCertificate : Db → Query Hash → Option Verdict) (db : Db)
    {steps : List (RevocationStep Db Hash)} {s : RevocationState Db Digest Hash Verdict}
    (hrun : Run (revocationStep createCacheKey validInfoForCertificate) (fun _ _ => True)
      (.initial db) steps s) :
    s.cache.Sound createCacheKey ∧ ∀ query info,
      (secRevocationDbCacheRead createCacheKey s.cache query).1 = some info →
        createCacheKey info.certHash info.issuerHash =
          createCacheKey query.certHash query.issuerHash := by
  have hsound : s.cache.Sound createCacheKey :=
    hrun.invariant (fun s => s.cache.Sound createCacheKey)
      (fun _ _ _ hs _ hstep => hs.step hstep) .empty
  exact ⟨hsound, fun _ _ hread => hsound.key_of_read hread⟩

theorem cache_sound_of_run_sample : ∃ s : RevocationState Bool Unit Unit Bool,
    s.calls 1 = .returned 1 (some ⟨(), (), true, 1⟩) ∧ s.cache.Sound onlyKey := by
  obtain ⟨s, hrun, hcall⟩ := run_quietSteps
  exact ⟨s, hcall,
    (cache_sound_of_run onlyKey isRevoked false (hrun.mono fun _ _ _ => trivial)).1⟩
end
end SecurityFramework.Trustd
