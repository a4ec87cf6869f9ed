import SecurityFramework.CodeSigning.RequirementInterpreter

/-! # The bounds of a requirement reader -/

namespace SecurityFramework
open Memory Scanner

namespace Requirement
namespace Reader
inductive Operation
  | get (width : Nat)
  | getData
  | getString
  | getHash
  | getSHA1
  | skip (length : Nat)

def Operation.perform (req : List UInt8) : Operation → Scan OSStatus Unit
  | get width => do let _ ← Reader.get req width
  | getData => do let _ ← Reader.getData req
  | getString => do let _ ← Reader.getString req
  | getHash => do let _ ← Reader.getHash req
  | getSHA1 => do let _ ← Reader.getSHA1 req
  | skip length => Reader.skip req length

def performAll (req : List UInt8) : List Operation → Scan OSStatus Unit
  | [] => pure ()
  | operation :: operations => do
    operation.perform req
    performAll req operations
end Reader

section Calls

variable {Certificate : Type} (services : Services Certificate) (req : List UInt8)
  (ctx : Context Certificate)

def callsBehind {α : Type} (calls : Nat → Nat) : Option (α × Nat) → Nat
  | some (_, mid) => calls mid
  | none => 0

def opCalls (depth : Nat) (calls : Nat → Nat) (op start : Nat) : Nat :=
  match ExprOp.ofWord op with
  | some .opAnd | some .opOr =>
    calls start + callsBehind calls (ran (eval services req ctx depth) start)
  | some .opNot => calls start
  | some _ => 0
  | none =>
    if op &&& opGenericFalse ≠ 0 then 0
    else if op &&& opGenericSkip ≠ 0 then
      callsBehind calls (ran (Reader.get req 4 >>= Reader.skip req) start)
    else 0

def evalCalls : (depth start : Nat) → Nat
  | 0, _ => 1
  | depth + 1, start =>
    if depth = 0 then 1
    else
      match ran (Reader.get req 4) start with
      | some (op, mid) => 1 + opCalls services req ctx depth (evalCalls depth) op mid
      | none => 1
end Calls

variable {req : List UInt8}

variable {α : Type} {scan : Scan OSStatus Bool}

theorem ne_fault_bind {β : Type} {scan : Scan OSStatus α} {next : α → Scan OSStatus β} {start : Nat}
    (hscan : scan start ≠ none) (hnext : ∀ value mid, next value mid ≠ none) :
    (scan >>= next) start ≠ none := by
  cases hrun : scan start with
  | none => exact absurd hrun hscan
  | some outcome =>
    cases outcome with
    | error error =>
      rw [bind_of_throws hrun]
      simp
    | ok result =>
      rw [bind_of_reads (show Reads scan start result.1 result.2 from hrun)]
      exact hnext _ _

section Bounds

variable (hlength : BlobCore.length req = some req.length)
include hlength

theorem length_lt_two_pow : req.length < 2 ^ 32 := loadBE_lt hlength

theorem checkSize_cases (length start : Nat) :
    (start + length ≤ req.length ∧ Reads (Reader.checkSize req length) start () start) ∨
      (req.length < start + length ∧
        Reader.checkSize req length start = some (.error errSecCSReqInvalid)) := by
  have hcheck : Reader.checkSize req length start =
      (if start + length > req.length then throw errSecCSReqInvalid else pure () :
        Scan OSStatus Unit) start := by
    rw [Reader.checkSize, bind_of_reads (reads_position start),
      bind_of_reads (reads_defined start hlength)]
  by_cases hinside : start + length ≤ req.length
  · refine Or.inl ⟨hinside, ?_⟩
    rw [Reads, hcheck, if_neg (Nat.not_lt.mpr hinside)]
    rfl
  · refine Or.inr ⟨Nat.not_le.mp hinside, ?_⟩
    rw [hcheck, if_pos (Nat.not_le.mp hinside)]
    rfl

theorem checkSize_ne_fault (length start : Nat) : Reader.checkSize req length start ≠ none := by
  rcases checkSize_cases hlength length start with ⟨-, hreads⟩ | ⟨-, hthrows⟩
  · rw [Reads] at hreads
    rw [hreads]
    simp
  · rw [hthrows]
    simp

theorem inside_of_checkSize {length start stop : Nat} {value : Unit}
    (h : Reads (Reader.checkSize req length) start value stop) :
    start + length ≤ req.length ∧ stop = start := by
  rcases checkSize_cases hlength length start with ⟨hinside, hreads⟩ | ⟨-, hthrows⟩
  · exact ⟨hinside, (h.unique hreads).2⟩
  · rw [Reads, hthrows] at h
    cases h

theorem get_ne_fault (width start : Nat) : Reader.get req width start ≠ none := by
  rw [Reader.get]
  rcases checkSize_cases hlength width start with ⟨hinside, hreads⟩ | ⟨-, hthrows⟩
  · obtain ⟨value, hvalue⟩ := exists_loadBE hinside
    rw [bind_of_reads hreads, bind_of_reads (reads_position start),
      bind_of_reads (reads_defined start hvalue), bind_of_reads (reads_seek start _)]
    exact Option.some_ne_none _
  · rw [bind_of_throws hthrows]
    simp

theorem getData_ne_fault (start : Nat) : Reader.getData req start ≠ none := by
  rw [Reader.getData]
  refine ne_fault_bind (get_ne_fault hlength 4 start) fun length mid => ?_
  rcases checkSize_cases hlength length mid with ⟨hinside, hreads⟩ | ⟨-, hthrows⟩
  · obtain ⟨data, hdata⟩ := Option.isSome_iff_exists.mp (load_isSome_iff.mpr hinside)
    rw [bind_of_reads hreads, bind_of_reads (reads_position mid),
      bind_of_reads (reads_defined mid hdata), bind_of_reads (reads_seek mid _)]
    exact Option.some_ne_none _
  · rw [bind_of_throws hthrows]
    simp

theorem getSHA1_ne_fault (start : Nat) : Reader.getSHA1 req start ≠ none := by
  rw [Reader.getSHA1]
  refine ne_fault_bind (getData_ne_fault hlength start) fun digest mid => ?_
  by_cases hdigest : digest.length ≠ 20
  · rw [if_pos hdigest]
    exact Option.some_ne_none _
  · rw [if_neg hdigest]
    exact Option.some_ne_none _

theorem skip_ne_fault (length start : Nat) : Reader.skip req length start ≠ none := by
  rw [Reader.skip]
  refine ne_fault_bind (checkSize_ne_fault hlength length start) fun _ mid => ?_
  exact Option.some_ne_none _

/-- No operation of the reader reads outside of the requirement, from wherever it starts. -/
theorem perform_ne_fault (operation : Reader.Operation) (start : Nat) :
    operation.perform req start ≠ none := by
  cases operation with
  | get width =>
    exact ne_fault_bind (get_ne_fault hlength width start) fun _ _ => Option.some_ne_none _
  | getData | getString | getHash =>
    exact ne_fault_bind (getData_ne_fault hlength start) fun _ _ => Option.some_ne_none _
  | getSHA1 =>
    exact ne_fault_bind (getSHA1_ne_fault hlength start) fun _ _ => Option.some_ne_none _
  | skip length => exact skip_ne_fault hlength length start

theorem performAll_ne_fault (operations : List Reader.Operation) (start : Nat) :
    Reader.performAll req operations start ≠ none := by
  induction operations generalizing start with
  | nil => exact Option.some_ne_none _
  | cons operation operations ih =>
    exact ne_fault_bind (perform_ne_fault hlength operation start) fun _ mid => ih mid

theorem bounds_of_get {width start stop value : Nat}
    (h : Reads (Reader.get req width) start value stop) :
    start + width ≤ req.length ∧ loadBE req start width = some value ∧ stop = start + width := by
  have hlt := length_lt_two_pow hlength
  obtain ⟨_, mid, hcheck, hrest⟩ := reads_bind_iff.mp h
  obtain ⟨hinside, hmid⟩ := inside_of_checkSize hlength hcheck
  rw [hmid] at hrest
  obtain ⟨position, mid', hposition, hload⟩ := reads_bind_iff.mp hrest
  obtain ⟨rfl, rfl⟩ := reads_position_iff.mp hposition
  obtain ⟨value', mid', hvalue, hset⟩ := reads_bind_iff.mp hload
  obtain ⟨hloaded, rfl⟩ := reads_defined_iff.mp hvalue
  obtain ⟨_, mid', hseek, hpure⟩ := reads_bind_iff.mp hset
  obtain rfl := reads_seek_iff.mp hseek
  obtain ⟨rfl, rfl⟩ := reads_pure_iff.mp hpure
  exact ⟨hinside, hloaded, Nat.mod_eq_of_lt (by omega)⟩

theorem bounds_of_getData {start stop : Nat} {data : List UInt8}
    (h : Reads (Reader.getData req) start data stop) :
    ∃ length, loadBE req start 4 = some length ∧ start + 4 + length ≤ req.length ∧
      stop = (start + 4 + (length + 3) / 4 * 4) % 2 ^ 32 := by
  have hlt := length_lt_two_pow hlength
  obtain ⟨length, mid, hget, hrest⟩ := reads_bind_iff.mp h
  obtain ⟨hcount, hload, rfl⟩ := bounds_of_get hlength hget
  obtain ⟨_, mid, hcheck, hrest⟩ := reads_bind_iff.mp hrest
  obtain ⟨hinside, hmid⟩ := inside_of_checkSize hlength hcheck
  rw [hmid] at hrest
  obtain ⟨position, mid', hposition, hdata⟩ := reads_bind_iff.mp hrest
  obtain ⟨rfl, rfl⟩ := reads_position_iff.mp hposition
  obtain ⟨data', mid', hloaded, hset⟩ := reads_bind_iff.mp hdata
  obtain ⟨-, rfl⟩ := reads_defined_iff.mp hloaded
  obtain ⟨_, mid', hseek, hpure⟩ := reads_bind_iff.mp hset
  obtain rfl := reads_seek_iff.mp hseek
  obtain ⟨rfl, rfl⟩ := reads_pure_iff.mp hpure
  exact ⟨length, hload, hinside, by rw [alignUp_baseAlignment (by omega)]⟩

theorem bounds_of_skip {length start stop : Nat} {value : Unit}
    (h : Reads (Reader.skip req length) start value stop) :
    start + length ≤ req.length ∧ stop = start + length := by
  have hlt := length_lt_two_pow hlength
  obtain ⟨_, mid, hcheck, hrest⟩ := reads_bind_iff.mp h
  obtain ⟨hinside, hmid⟩ := inside_of_checkSize hlength hcheck
  rw [hmid] at hrest
  obtain ⟨position, mid', hposition, hset⟩ := reads_bind_iff.mp hrest
  obtain ⟨rfl, rfl⟩ := reads_position_iff.mp hposition
  have hseek := reads_seek_iff.mp hset
  exact ⟨hinside, by rw [hseek, Nat.mod_eq_of_lt (by omega)]⟩
end Bounds

/-- The padding of the counted octets somewhere in the program reaches the end of the 32-bit
positions. -/
def PaddingWraps (req : List UInt8) : Prop :=
  ∃ start length, size ≤ start ∧ loadBE req start 4 = some length ∧
    start + 4 + length ≤ req.length ∧ 2 ^ 32 ≤ start + 4 + (length + 3) / 4 * 4

def Ahead {α : Type} (req : List UInt8) (scan : Scan OSStatus α) : Prop :=
  ∀ start value stop, size ≤ start → Reads scan start value stop →
    start ≤ stop ∧ stop ≤ max start (req.length + 3)

theorem Ahead.bind {β : Type} {scan : Scan OSStatus α} {next : α → Scan OSStatus β}
    (hscan : Ahead req scan) (hnext : ∀ value, Ahead req (next value)) :
    Ahead req (scan >>= next) := by
  intro start value stop hstart h
  obtain ⟨first, mid, hfirst, h⟩ := reads_bind_iff.mp h
  obtain ⟨hmid, hmidLe⟩ := hscan start first mid hstart hfirst
  obtain ⟨hstop, hstopLe⟩ := hnext first mid value stop (by omega) h
  exact ⟨by omega, by omega⟩

theorem ahead_of_stop {scan : Scan OSStatus α}
    (h : ∀ start value stop, Reads scan start value stop → stop = start) : Ahead req scan := by
  intro start value stop _ hreads
  rw [h start value stop hreads]
  exact ⟨Nat.le_refl _, Nat.le_max_left _ _⟩

theorem ahead_pure (value : α) : Ahead req (pure value : Scan OSStatus α) :=
  ahead_of_stop fun _ _ _ h => (reads_pure_iff.mp h).2

theorem ahead_throw (error : OSStatus) : Ahead req (throw error : Scan OSStatus α) :=
  ahead_of_stop fun _ _ _ h => absurd h not_reads_throw

theorem ahead_liftExcept (result : Except OSStatus α) :
    Ahead req (liftExcept result : Scan OSStatus α) :=
  ahead_of_stop fun _ _ _ => stop_of_liftExcept

theorem ahead_lift (outcome : Outcome OSStatus α) :
    Ahead req (liftM outcome : Scan OSStatus α) :=
  ahead_of_stop fun _ _ _ => stop_of_lift

section Program

variable (hlength : BlobCore.length req = some req.length)
include hlength

theorem ahead_get (width : Nat) : Ahead req (Reader.get req width) := by
  intro start value stop _ h
  obtain ⟨hinside, -, rfl⟩ := bounds_of_get hlength h
  exact ⟨by omega, by omega⟩

theorem ahead_skip (length : Nat) : Ahead req (Reader.skip req length) := by
  intro start value stop _ h
  obtain ⟨hinside, rfl⟩ := bounds_of_skip hlength h
  exact ⟨by omega, by omega⟩

variable (hfits : ¬PaddingWraps req)
include hfits

theorem ahead_getData : Ahead req (Reader.getData req) := by
  intro start value stop hstart h
  obtain ⟨length, hload, hinside, rfl⟩ := bounds_of_getData hlength h
  have hlt : start + 4 + (length + 3) / 4 * 4 < 2 ^ 32 := by
    by_contra hnot
    exact hfits ⟨start, length, hstart, hload, hinside, Nat.not_lt.mp hnot⟩
  rw [Nat.mod_eq_of_lt hlt]
  exact ⟨by omega, by omega⟩

theorem ahead_getSHA1 : Ahead req (Reader.getSHA1 req) := by
  refine (ahead_getData hlength hfits).bind fun digest => ?_
  split
  · exact ahead_throw _
  · exact ahead_pure _

theorem ahead_perform (operation : Reader.Operation) : Ahead req (operation.perform req) := by
  cases operation with
  | get width => exact (ahead_get hlength width).bind fun _ => ahead_pure _
  | getData | getString | getHash =>
    exact (ahead_getData hlength hfits).bind fun _ => ahead_pure _
  | getSHA1 => exact (ahead_getSHA1 hlength hfits).bind fun _ => ahead_pure _
  | skip length => exact ahead_skip hlength length

theorem ahead_performAll (operations : List Reader.Operation) :
    Ahead req (Reader.performAll req operations) := by
  induction operations with
  | nil => exact ahead_pure _
  | cons operation operations ih =>
    exact (ahead_perform hlength hfits operation).bind fun _ => ih

theorem ahead_read (cf : CoreFoundation) : Ahead req (Match.read cf req) := by
  refine (ahead_get hlength 4).bind fun op => ?_
  have hdata := ahead_getData hlength hfits
  cases MatchOperation.ofWord op with
  | none => exact hdata.bind fun _ => ahead_pure _
  | some mOp =>
    dsimp only
    cases mOp.operand with
    | nothing => exact ahead_pure _
    | string =>
      refine hdata.bind fun string => ?_
      exact (ahead_liftExcept _).bind fun _ => ahead_pure _
    | timestamp =>
      refine Ahead.bind ?_ fun seconds => ahead_pure _
      exact (ahead_get hlength 8).bind fun _ => ahead_pure _

variable {Certificate : Type} (services : Services Certificate) (ctx : Context Certificate)

theorem ahead_evalField (test : List UInt8 → Match → Except OSStatus Bool) :
    Ahead req (evalField services req test) := by
  refine (ahead_getData hlength hfits).bind fun key => ?_
  exact (ahead_read hlength hfits _).bind fun m => ahead_liftExcept _

omit hfits in
theorem ahead_getInt32 : Ahead req (Reader.getInt32 req) :=
  (ahead_get hlength 4).bind fun _ => ahead_pure _

theorem ahead_evalCertField (test : List UInt8 → Match → Option Certificate → Bool) :
    Ahead req (evalCertField services req ctx test) := by
  refine (ahead_getInt32 hlength).bind fun slot => ?_
  refine (ahead_lift _).bind fun cert => ?_
  refine (ahead_getData hlength hfits).bind fun key => ?_
  exact (ahead_read hlength hfits _).bind fun m => ahead_pure _

theorem ahead_evalTest (op : ExprOp) : Ahead req (evalTest services req ctx op) := by
  have hdata := ahead_getData hlength hfits
  have hint := ahead_getInt32 hlength
  cases op with
  | opFalse | opTrue => exact ahead_pure _
  | opIdent =>
    rw [evalTest]
    cases ctx.directory with
    | none => exact ahead_pure _
    | some directory => exact hdata.bind fun _ => ahead_pure _
  | opAppleAnchor => exact ahead_lift _
  | opAppleGenericAnchor => exact (ahead_lift _).bind fun _ => ahead_pure _
  | opAnchorHash =>
    refine hint.bind fun slot => ?_
    refine (ahead_lift _).bind fun cert => ?_
    exact (ahead_getSHA1 hlength hfits).bind fun _ => ahead_pure _
  | opInfoKeyValue =>
    refine hdata.bind fun key => hdata.bind fun value => ?_
    exact (ahead_liftExcept _).bind fun _ => ahead_liftExcept _
  | opCDHash =>
    rw [evalTest]
    cases ctx.directory with
    | none => exact ahead_pure _
    | some directory =>
      exact (ahead_liftExcept _).bind fun _ => hdata.bind fun _ => ahead_pure _
  | opInfoKeyField | opEntitlementField => exact ahead_evalField hlength hfits services _
  | opCertField | opCertGeneric | opCertFieldDate | opCertPolicy =>
    exact ahead_evalCertField hlength hfits services ctx _
  | opTrustedCert =>
    refine hint.bind fun slot => ?_
    exact (ahead_lift _).bind fun cert => ahead_liftExcept _
  | opNamedAnchor | opNamedCode => exact hdata.bind fun _ => ahead_liftExcept _
  | opPlatform => exact hint.bind fun _ => ahead_pure _
  | opTrustedCerts | opNotarized => exact ahead_liftExcept _
  | opLegacyDevID => exact (ahead_lift _).bind fun _ => ahead_liftExcept _
  | opAnd | opOr | opNot => exact ahead_throw _
end Program

/-- Each call of `eval` takes an operator, but for the last one when it fails. The padding at the
end of the requirement counts as if it was there. -/
def CallsFit (req : List UInt8) (scan : Scan OSStatus Bool) (calls : Nat → Nat) : Prop :=
  ∀ start, size ≤ start → start ≤ req.length + 3 →
    start + 4 * calls start ≤ req.length + 7 ∧
      ∀ value stop, Reads scan start value stop →
        start + 4 * calls start ≤ stop ∧ stop ≤ req.length + 3

theorem callsFit_of_ahead (h : Ahead req scan) :
    CallsFit req scan fun _ => 0 := by
  intro start hstart hle
  beta_reduce
  refine ⟨by omega, fun value stop hreads => ?_⟩
  obtain ⟨hforward, hstop⟩ := h start value stop hstart hreads
  exact ⟨hforward, by omega⟩

theorem CallsFit.seq {calls : Nat → Nat} (h : CallsFit req scan calls) (both : Bool → Bool → Bool) :
    CallsFit req (do return both (← scan) (← scan)) fun start =>
      calls start + callsBehind calls (ran scan start) := by
  intro start hstart hle
  obtain ⟨hfirst, hran⟩ := h start hstart hle
  beta_reduce
  cases hscan : ran scan start with
  | none =>
    refine ⟨by simp only [callsBehind]; omega, fun value stop hreads => ?_⟩
    obtain ⟨left, mid, hleft, -⟩ := reads_bind_iff.mp hreads
    rw [ran_eq_some_iff.mpr hleft] at hscan
    cases hscan
  | some result =>
    obtain ⟨left, mid⟩ := result
    obtain ⟨hmid, hmidLe⟩ := hran left mid (ran_eq_some_iff.mp hscan)
    obtain ⟨hsecond, hran'⟩ := h mid (by omega) hmidLe
    simp only [callsBehind]
    refine ⟨by omega, fun value stop hreads => ?_⟩
    obtain ⟨left', mid', hleft, hrest⟩ := reads_bind_iff.mp hreads
    obtain ⟨-, rfl⟩ := (ran_eq_some_iff.mp hscan).unique hleft
    obtain ⟨right, stop', hright, hpure⟩ := reads_bind_iff.mp hrest
    obtain ⟨-, rfl⟩ := reads_pure_iff.mp hpure
    obtain ⟨hstop, hstopLe⟩ := hran' right stop hright
    exact ⟨by omega, hstopLe⟩

theorem CallsFit.behind {calls : Nat → Nat} (h : CallsFit req scan calls) {first : Scan OSStatus α}
    (hfirst : Ahead req first) :
    CallsFit req (first >>= fun _ => scan) fun start => callsBehind calls (ran first start) := by
  intro start hstart hle
  beta_reduce
  cases hscan : ran first start with
  | none =>
    refine ⟨by simp only [callsBehind]; omega, fun value stop hreads => ?_⟩
    obtain ⟨left, mid, hleft, -⟩ := reads_bind_iff.mp hreads
    rw [ran_eq_some_iff.mpr hleft] at hscan
    cases hscan
  | some result =>
    obtain ⟨left, mid⟩ := result
    obtain ⟨hmid, hmidLe⟩ := hfirst start left mid hstart (ran_eq_some_iff.mp hscan)
    obtain ⟨hcalls, hran⟩ := h mid (by omega) (by omega)
    simp only [callsBehind]
    refine ⟨by omega, fun value stop hreads => ?_⟩
    obtain ⟨left', mid', hleft, hrest⟩ := reads_bind_iff.mp hreads
    obtain ⟨-, rfl⟩ := (ran_eq_some_iff.mp hscan).unique hleft
    obtain ⟨hstop, hstopLe⟩ := hran value stop hrest
    exact ⟨by omega, hstopLe⟩

theorem CallsFit.map {scan : Scan OSStatus Bool} {calls : Nat → Nat} (h : CallsFit req scan calls)
    (change : Bool → Bool) : CallsFit req (do return change (← scan)) calls := by
  intro start hstart hle
  obtain ⟨hcalls, hran⟩ := h start hstart hle
  refine ⟨hcalls, fun value stop hreads => ?_⟩
  obtain ⟨result, mid, hresult, hpure⟩ := reads_bind_iff.mp hreads
  obtain ⟨-, rfl⟩ := reads_pure_iff.mp hpure
  exact hran result stop hresult

section Evaluation

variable (hlength : BlobCore.length req = some req.length) (hfits : ¬PaddingWraps req)
  {Certificate : Type} (services : Services Certificate) (ctx : Context Certificate)
include hlength hfits

theorem callsFit_evalOp {depth : Nat} {calls : Nat → Nat}
    (h : CallsFit req (eval services req ctx depth) calls) (op : Nat) :
    CallsFit req (evalOp services req ctx (eval services req ctx depth) op)
      (opCalls services req ctx depth calls op) := by
  have hskip : Ahead req (Reader.get req 4 >>= Reader.skip req) :=
    (ahead_get hlength 4).bind fun length => ahead_skip hlength length
  cases hop : ExprOp.ofWord op with
  | none =>
    by_cases hfalse : op &&& opGenericFalse ≠ 0
    · simp only [evalOp, CallsFit, opCalls, hop, if_pos hfalse]
      exact callsFit_of_ahead (hskip.bind fun _ => ahead_pure false)
    · by_cases hgeneric : op &&& opGenericSkip ≠ 0
      · simp only [evalOp, CallsFit, opCalls, hop, if_neg hfalse, if_pos hgeneric]
        exact h.behind hskip
      · simp only [evalOp, CallsFit, opCalls, hop, if_neg hfalse, if_neg hgeneric]
        exact callsFit_of_ahead (ahead_throw errSecCSUnimplemented)
  | some test =>
    have htest := callsFit_of_ahead (ahead_evalTest hlength hfits services ctx test)
    cases test with
    | opAnd =>
      simp only [evalOp, CallsFit, opCalls, hop]
      exact h.seq (· && ·)
    | opOr =>
      simp only [evalOp, CallsFit, opCalls, hop]
      exact h.seq (· || ·)
    | opNot =>
      simp only [evalOp, CallsFit, opCalls, hop]
      exact h.map (!·)
    | _ =>
      simp only [evalOp, CallsFit, opCalls, hop]
      exact htest

theorem callsFit_eval (depth : Nat) :
    CallsFit req (eval services req ctx depth) (evalCalls services req ctx depth) := by
  induction depth with
  | zero =>
    intro start hstart hle
    refine ⟨by simp only [evalCalls]; omega, fun value stop hreads => ?_⟩
    exact absurd hreads not_reads_throw
  | succ depth ih =>
    intro start hstart hle
    by_cases hdepth : depth = 0
    · simp only [eval, evalCalls, if_pos hdepth]
      refine ⟨by omega, fun value stop hreads => ?_⟩
      exact absurd hreads not_reads_throw
    · simp only [eval, evalCalls, if_neg hdepth]
      cases hget : ran (Reader.get req 4) start with
      | none =>
        refine ⟨by dsimp only; omega, fun value stop hreads => ?_⟩
        obtain ⟨op, mid, hop, -⟩ := reads_bind_iff.mp hreads
        rw [ran_eq_some_iff.mpr hop] at hget
        cases hget
      | some result =>
        obtain ⟨op, mid⟩ := result
        have hreadsOp := ran_eq_some_iff.mp hget
        obtain ⟨hinside, -, hmid⟩ := bounds_of_get hlength hreadsOp
        obtain ⟨hcalls, hran⟩ := callsFit_evalOp hlength hfits services ctx ih op mid (by omega)
          (by omega)
        refine ⟨by dsimp only; omega, fun value stop hreads => ?_⟩
        obtain ⟨op', mid', hop, hrest⟩ := reads_bind_iff.mp hreads
        obtain ⟨rfl, rfl⟩ := hreadsOp.unique hop
        obtain ⟨hstop, hstopLe⟩ := hran value stop hrest
        exact ⟨by dsimp only; omega, hstopLe⟩

theorem evalCalls_le (depth : Nat) :
    evalCalls services req ctx depth size ≤ req.length / 4 := by
  have hheader : 8 ≤ req.length := le_of_loadBE hlength
  by_cases hle : size ≤ req.length + 3
  · obtain ⟨hcalls, -⟩ := callsFit_eval hlength hfits services ctx depth size (Nat.le_refl _) hle
    simp only [size] at hcalls ⊢
    omega
  · -- a requirement without room for an operator
    have hone : evalCalls services req ctx depth size = 1 := by
      cases depth with
      | zero => rfl
      | succ depth =>
        rw [evalCalls]
        split
        · rfl
        · split
          next op mid hget =>
            obtain ⟨hinside, -⟩ := bounds_of_get hlength (ran_eq_some_iff.mp hget)
            omega
          next => rfl
    omega
end Evaluation

/-- Whatever is read in whatever order stays inside of the requirement, the position never wraps
around, and the evaluation takes no more calls than operators fit into the requirement. -/
structure ReaderSafe (req : List UInt8) : Prop where
  inside : ∀ operations, Reader.performAll req operations size ≠ none
  /-- A position that has wrapped around is before the one it was advanced from. -/
  ahead : ∀ operations (operation : Reader.Operation) mid stop,
    Takes (Reader.performAll req operations) size mid → Takes (operation.perform req) mid stop →
      mid ≤ stop
  calls : ∀ (Certificate : Type) (services : Services Certificate) (ctx : Context Certificate),
    evalCalls services req ctx stackLimit size ≤ req.length / 4

theorem takes_getData_wrapping {start length : Nat}
    (hlength : BlobCore.length req = some req.length) (hload : loadBE req start 4 = some length)
    (hinside : start + 4 + length ≤ req.length) :
    Takes (Reader.Operation.getData.perform req) start
      ((start + 4 + (length + 3) / 4 * 4) % 2 ^ 32) := by
  have hlt := length_lt_two_pow hlength
  have hextent : BlobCore.extent req = req.length := by rw [BlobCore.extent, hlength]; rfl
  have hcount : NumberAt req 4 start length (start + 4) := ⟨hload, rfl, by omega⟩
  obtain ⟨data, hdata⟩ := Option.isSome_iff_exists.mp (load_isSome_iff.mpr hinside)
  have hreads : Reads (Reader.getData req) start data
      ((start + 4 + (length + 3) / 4 * 4) % 2 ^ 32) := by
    apply (reads_get hcount (by decide)).followed
    apply (reads_checkSize (by rw [hextent, hlength]) (by omega)).followed
    apply (reads_position (start + 4)).followed
    apply (reads_defined (start + 4) hdata).followed
    rw [alignUp_baseAlignment (by omega)]
    exact (reads_seek (start + 4) _).followed rfl
  exact hreads.takes (takes_pure () _)

theorem not_readerSafe_of_wraps (hlength : BlobCore.length req = some req.length)
    (hwraps : PaddingWraps req) : ¬ReaderSafe req := by
  intro hsafe
  obtain ⟨start, length, hstart, hload, hinside, hwraps⟩ := hwraps
  have hlt := length_lt_two_pow hlength
  have hextent : BlobCore.extent req = req.length := by rw [BlobCore.extent, hlength]; rfl
  -- the position is reached by skipping what is before it
  have hskip : Takes (Reader.performAll req [.skip (start - size)]) size start := by
    have hreads : Reads (Reader.skip req (start - size)) size () (size + (start - size)) :=
      reads_skip (by rw [hextent, hlength]) (by omega)
    rw [Nat.add_sub_cancel' hstart] at hreads
    exact hreads.takes (takes_pure () start)
  have hle := hsafe.ahead [.skip (start - size)] .getData start _ hskip
    (takes_getData_wrapping hlength hload hinside)
  simp only [size] at hstart
  omega

/-- The reader is safe when no padding in the requirement reaches the end of the 32-bit
positions. -/
theorem readerSafe_iff (hlength : BlobCore.length req = some req.length) :
    ReaderSafe req ↔ ¬PaddingWraps req := by
  constructor
  · intro hsafe hwraps
    exact not_readerSafe_of_wraps hlength hwraps hsafe
  · intro hfits
    refine ⟨fun operations => performAll_ne_fault hlength operations size, ?_, ?_⟩
    · intro operations operation mid stop ⟨_, hmid⟩ ⟨_, hstop⟩
      have hforward := ahead_performAll hlength hfits operations size _ mid (Nat.le_refl _) hmid
      exact (ahead_perform hlength hfits operation mid _ stop hforward.1 hstop).1
    · intro Certificate services ctx
      exact evalCalls_le hlength hfits services ctx stackLimit

def alwaysTrue : List UInt8 := [0xfa, 0xde, 0x0c, 0, 0, 0, 0, 16, 0, 0, 0, 1, 0, 0, 0, 1]

theorem readerSafe_iff_sample : ReaderSafe alwaysTrue ↔ ¬PaddingWraps alwaysTrue :=
  readerSafe_iff (by decide)

/-- The header of a requirement of 2³² - 1 octets, and the count of all the octets behind it. -/
def wrappingHeader : List UInt8 :=
  [0xfa, 0xde, 0x0c, 0, 0xff, 0xff, 0xff, 0xff, 0, 0, 0, 1, 0xff, 0xff, 0xff, 0xef]

theorem wraps_of_length {fill : List UInt8} (hfill : fill.length = 2 ^ 32 - 17) :
    BlobCore.length (wrappingHeader ++ fill) = some (wrappingHeader ++ fill).length ∧
      PaddingWraps (wrappingHeader ++ fill) := by
  have hheader : wrappingHeader.length = 16 := rfl
  have hlen : (wrappingHeader ++ fill).length = 2 ^ 32 - 1 := by
    rw [List.length_append, hheader]
    omega
  have hload : ∀ start, start + 4 ≤ 16 →
      load (wrappingHeader ++ fill) start 4 = some ((wrappingHeader.drop start).take 4) := by
    intro start hstart
    rw [load, if_pos (by omega), List.drop_append_of_le_length (by omega),
      List.take_append_of_le_length (by rw [List.length_drop]; omega)]
  have hlength : BlobCore.length (wrappingHeader ++ fill) = some (2 ^ 32 - 1) := by
    rw [BlobCore.length, loadBE, hload 4 (by decide)]
    rfl
  have hcount : loadBE (wrappingHeader ++ fill) 12 4 = some (2 ^ 32 - 17) := by
    rw [loadBE, hload 12 (by decide)]
    rfl
  refine ⟨by rw [hlength, hlen], 12, 2 ^ 32 - 17, Nat.le_refl _, hcount, by omega, by omega⟩

/-- A requirement whose counted octets end at its end, one before 2³². -/
theorem wrappingRequirement_not_safe :
    ¬ReaderSafe (wrappingHeader ++ List.replicate (2 ^ 32 - 17) 0) :=
  have h := @wraps_of_length (List.replicate (2 ^ 32 - 17) 0) List.length_replicate
  not_readerSafe_of_wraps h.1 h.2
end Requirement
end SecurityFramework
