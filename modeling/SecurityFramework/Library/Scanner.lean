import Mathlib.Control.Basic

/-!
# Scanners

A scanner reads from a position on: it yields a value and the position behind what it read, or an
exception, or it runs into undefined behaviour.
-/

namespace Scanner
/-- The outcome of a computation that may throw, and that may be undefined. -/
abbrev Outcome (ε : Type) := ExceptT ε Option

abbrev Scan (ε : Type) := StateT Nat (Outcome ε)

variable {ε α β : Type}

def fault : Outcome ε α := (none : Option (Except ε α))

/-- A step that does not read, and is undefined where it has no value. -/
def defined (value? : Option α) : Scan ε α := fun start =>
  (value?.map fun value => .ok (value, start) : Option (Except ε (α × Nat)))

def Yields (scan : Scan ε α) (start : Nat) (result : Except ε α) (stop : Nat) : Prop :=
  scan start = some (result.map fun value => (value, stop))

def Reads (scan : Scan ε α) (start : Nat) (value : α) (stop : Nat) : Prop :=
  scan start = some (.ok (value, stop))

def Takes (scan : Scan ε α) (start stop : Nat) : Prop :=
  ∃ value, Reads scan start value stop

variable {scan : Scan ε α} {start stop : Nat} {value : α} {next : α → Scan ε β}

theorem yields_ok_iff :
    Yields scan start (.ok value) stop ↔ Reads scan start value stop := Iff.rfl

theorem yields_pure (value : α) (start : Nat) :
    Yields (pure value : Scan ε α) start (.ok value) start := rfl

theorem yields_lift {outcome : Outcome ε α} {result : Except ε α}
    (h : outcome = (some result : Option (Except ε α))) :
    Yields (liftM outcome : Scan ε α) start result start := by
  subst h
  cases result <;> rfl

theorem bind_of_reads (h : Reads scan start value stop) :
    (scan >>= next) start = next value stop := by
  rw [Reads] at h
  simp only [bind, StateT.bind, ExceptT.bind, ExceptT.mk, h]
  rfl

theorem bind_of_throws {error : ε} (h : scan start = some (.error error)) :
    (scan >>= next) start = some (.error error) := by
  simp only [bind, StateT.bind, ExceptT.bind, ExceptT.mk, h]
  rfl

theorem bind_of_fault (h : scan start = none) : (scan >>= next) start = none := by
  simp only [bind, StateT.bind, ExceptT.bind, ExceptT.mk, h]
  rfl

theorem Reads.bind {mid : Nat} {result : Except ε β} (h : Reads scan start value mid)
    (hnext : Yields (next value) mid result stop) :
    Yields (scan >>= next) start result stop := by
  rw [Yields, bind_of_reads h]
  exact hnext

theorem Yields.bind {mid : Nat} {first : Except ε α} {result : α → Except ε β}
    (h : Yields scan start first mid)
    (hnext : ∀ value, Yields (next value) mid (result value) stop) :
    Yields (scan >>= next) start (first >>= result) stop := by
  cases first with
  | error error => exact bind_of_throws h
  | ok value => exact Reads.bind h (hnext value)

theorem reads_position (start : Nat) : Reads (MonadState.get : Scan ε Nat) start start start := rfl

theorem reads_seek (start stop : Nat) : Reads (set stop : Scan ε Unit) start () stop := rfl

theorem reads_defined {value? : Option α} (start : Nat) (h : value? = some value) :
    Reads (defined value? : Scan ε α) start value start := by
  subst h
  rfl

/-- What a scanner that ran through read in turn. -/
theorem reads_bind_iff {value : β} :
    Reads (scan >>= next) start value stop ↔
      ∃ first mid, Reads scan start first mid ∧ Reads (next first) mid value stop := by
  constructor
  · intro h
    cases hscan : scan start with
    | none =>
      rw [Reads, bind_of_fault hscan] at h
      cases h
    | some outcome =>
      cases outcome with
      | error error =>
        rw [Reads, bind_of_throws hscan] at h
        cases h
      | ok first =>
        refine ⟨first.1, first.2, hscan, ?_⟩
        rwa [Reads, bind_of_reads hscan] at h
  · intro h
    obtain ⟨first, mid, hscan, hnext⟩ := h
    rw [Reads, bind_of_reads hscan]
    exact hnext

theorem reads_pure_iff {result : α} :
    Reads (pure result : Scan ε α) start value stop ↔ value = result ∧ stop = start := by
  constructor
  · intro h
    cases h
    exact ⟨rfl, rfl⟩
  · intro h
    obtain ⟨rfl, rfl⟩ := h
    rfl

theorem reads_position_iff {value : Nat} :
    Reads (MonadState.get : Scan ε Nat) start value stop ↔ value = start ∧ stop = start := by
  constructor
  · intro h
    cases h
    exact ⟨rfl, rfl⟩
  · intro h
    obtain ⟨rfl, rfl⟩ := h
    rfl

theorem reads_seek_iff {position : Nat} {value : PUnit} :
    Reads (set position : Scan ε PUnit) start value stop ↔ stop = position := by
  constructor
  · intro h
    cases h
    rfl
  · intro h
    subst h
    rfl

theorem reads_defined_iff {value? : Option α} :
    Reads (defined value? : Scan ε α) start value stop ↔ value? = some value ∧ stop = start := by
  constructor
  · intro h
    cases value? with
    | none => cases h
    | some found =>
      cases h
      exact ⟨rfl, rfl⟩
  · intro h
    obtain ⟨rfl, rfl⟩ := h
    rfl

theorem not_reads_throw {error : ε} :
    ¬Reads (throw error : Scan ε α) start value stop := by
  intro h
  cases h

theorem stop_of_lift {outcome : Outcome ε α}
    (h : Reads (liftM outcome : Scan ε α) start value stop) : stop = start := by
  cases hrun : (outcome : Option (Except ε α)) with
  | none =>
    rw [show outcome = (none : Option (Except ε α)) from hrun] at h
    cases h
  | some result =>
    rw [show outcome = (some result : Option (Except ε α)) from hrun] at h
    cases result with
    | error error => cases h
    | ok found =>
      cases h
      rfl

theorem stop_of_liftExcept {result : Except ε α}
    (h : Reads (liftExcept result : Scan ε α) start value stop) : stop = start := by
  cases result with
  | error error => cases h
  | ok found =>
    cases h
    rfl

theorem Reads.followed {mid : Nat} {first : α} {value : β} (h : Reads scan start first mid)
    (hnext : Reads (next first) mid value stop) :
    Reads (scan >>= next) start value stop :=
  reads_bind_iff.mpr ⟨first, mid, h, hnext⟩

theorem takes_pure (value : α) (start : Nat) : Takes (pure value : Scan ε α) start start :=
  ⟨value, rfl⟩

theorem Reads.takes {mid : Nat} (h : Reads scan start value mid)
    (hnext : Takes (next value) mid stop) :
    Takes (scan >>= next) start stop := by
  obtain ⟨result, hresult⟩ := hnext
  exact ⟨result, h.followed hresult⟩

theorem Takes.bind {mid : Nat} (h : Takes scan start mid)
    (hnext : ∀ value, Takes (next value) mid stop) :
    Takes (scan >>= next) start stop := by
  obtain ⟨value, hvalue⟩ := h
  exact hvalue.takes (hnext value)

theorem takes_bind_iff :
    Takes (scan >>= next) start stop ↔
      ∃ value mid, Reads scan start value mid ∧ Takes (next value) mid stop := by
  constructor
  · intro h
    obtain ⟨result, hresult⟩ := h
    obtain ⟨value, mid, hvalue, hnext⟩ := reads_bind_iff.mp hresult
    exact ⟨value, mid, hvalue, result, hnext⟩
  · intro h
    obtain ⟨value, mid, hvalue, hnext⟩ := h
    exact hvalue.takes hnext

theorem stop_of_takes_pure (h : Takes (pure value : Scan ε α) start stop) : stop = start := by
  obtain ⟨result, hresult⟩ := h
  exact (reads_pure_iff.mp hresult).2

theorem Reads.unique {stop' : Nat} {value' : α} (h : Reads scan start value stop)
    (h' : Reads scan start value' stop') :
    value = value' ∧ stop = stop' := by
  rw [Reads] at h h'
  cases h.symm.trans h'
  exact ⟨rfl, rfl⟩

theorem takes_unique {stop' : Nat} (h : Takes scan start stop) (h' : Takes scan start stop') :
    stop = stop' := by
  obtain ⟨value, hvalue⟩ := h
  obtain ⟨value', hvalue'⟩ := h'
  exact (hvalue.unique hvalue').2

def ran (scan : Scan ε α) (start : Nat) : Option (α × Nat) :=
  match (scan start : Option (Except ε (α × Nat))) with
  | some (.ok result) => some result
  | _ => none

theorem ran_eq_some_iff :
    ran scan start = some (value, stop) ↔ Reads scan start value stop := by
  rw [Reads, ran]
  constructor
  · intro h
    split at h
    next result heq =>
      cases h
      exact heq
    next => cases h
  · intro h
    rw [h]
end Scanner
