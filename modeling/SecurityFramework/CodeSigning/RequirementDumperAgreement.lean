import SecurityFramework.CodeSigning.RequirementAlignment
import SecurityFramework.CodeSigning.RequirementDumper

/-! # Dumper and interpreter read the same program -/

namespace SecurityFramework
open Scanner

namespace Requirement
section Reading

variable {req : List UInt8} {start stop : Nat}

theorem reads_checkSize_iff {length : Nat} {value : PUnit} :
    Reads (Reader.checkSize req length) start value stop ↔
      (∃ len, BlobCore.length req = some len ∧ start + length ≤ len) ∧ stop = start := by
  simp only [Reader.checkSize, reads_bind_iff, reads_position_iff, reads_defined_iff]
  constructor
  · intro h
    obtain ⟨_, _, ⟨rfl, rfl⟩, len, _, ⟨hlength, rfl⟩, h⟩ := h
    split_ifs at h with hbeyond
    · exact absurd h not_reads_throw
    · exact ⟨⟨len, hlength, by omega⟩, (reads_pure_iff.mp h).2⟩
  · intro h
    obtain ⟨⟨len, hlength, hinside⟩, rfl⟩ := h
    refine ⟨_, _, ⟨rfl, rfl⟩, len, _, ⟨hlength, rfl⟩, ?_⟩
    rw [if_neg (by omega)]
    rfl

theorem stop_of_get {width value : Nat} (h : Reads (Reader.get req width) start value stop) :
    stop = start + width := by
  simp only [Reader.get, reads_bind_iff, reads_checkSize_iff, reads_position_iff, reads_defined_iff,
    reads_seek_iff, reads_pure_iff] at h
  obtain ⟨_, _, ⟨⟨len, hlength, hinside⟩, rfl⟩, _, _, ⟨rfl, rfl⟩, number, _, ⟨hload, rfl⟩,
    _, _, rfl, -, rfl⟩ := h
  have hlt : len < 256 ^ 4 := Memory.loadBE_lt hlength
  exact Nat.mod_eq_of_lt (by omega)

theorem ne_of_getData {data : List UInt8} (hlow : 4 ≤ start)
    (h : Reads (Reader.getData req) start data stop) : stop ≠ start := by
  simp only [Reader.getData, reads_bind_iff, reads_checkSize_iff, reads_position_iff,
    reads_defined_iff, reads_seek_iff, reads_pure_iff] at h
  obtain ⟨length, _, hcount, _, _, ⟨⟨len, hlength, hinside⟩, rfl⟩, _, _, ⟨rfl, rfl⟩, octets, _,
    ⟨hload, rfl⟩, _, _, rfl, -, rfl⟩ := h
  obtain rfl := stop_of_get hcount
  have hlt : len < 256 ^ 4 := Memory.loadBE_lt hlength
  rw [alignUp_baseAlignment (by omega)]
  omega
end Reading

def UnknownSuffix (req : List UInt8) (start : Nat) : Prop :=
  ∃ word mid, Reads (Reader.get req 4) start word mid ∧ MatchOperation.ofWord word = none

/-- The operands of a test that the two do not read alike: the operand of an identifier or hash
test without a directory, and an unknown match suffix. -/
def DivergentTest {Certificate : Type} (req : List UInt8) (ctx : Context Certificate)
    (op : ExprOp) (start : Nat) : Prop :=
  match op with
  | .opIdent | .opCDHash => ctx.directory = none
  | .opInfoKeyField | .opEntitlementField =>
    ∃ key mid, Reads (Reader.getData req) start key mid ∧ UnknownSuffix req mid
  | .opCertField | .opCertGeneric | .opCertFieldDate | .opCertPolicy =>
    ∃ slot mid key mid', Reads (Reader.getInt32 req) start slot mid ∧
      Reads (Reader.getData req) mid key mid' ∧ UnknownSuffix req mid'
  | _ => False

/-- An expression that the two do not read alike: one with such operands, or an unknown operator
with a flag. -/
def Divergent {Certificate : Type} (req : List UInt8) (ctx : Context Certificate) (start : Nat) :
    Prop :=
  ∃ word mid, Reads (Reader.get req 4) start word mid ∧
    match ExprOp.ofWord word with
    | some op => DivergentTest req ctx op mid
    | none => word &&& opGenericFalse ≠ 0 ∨ word &&& opGenericSkip ≠ 0

section Tests

variable {Certificate : Type} {services : Services Certificate} {req : List UInt8}
  {ctx : Context Certificate} {dateDescription : Int → List UInt8} {mDebug : Bool}
  {start stop : Nat}

theorem takes_data {mode : Dumper.PrintMode} {dotOkay : Bool}
    (h : Takes (Reader.getData req) start stop) :
    Takes (Dumper.data req mode dotOkay) start stop := h.bind fun _ => takes_pure _ _

theorem takes_hashData (h : Takes (Reader.getData req) start stop) :
    Takes (Dumper.hashData req) start stop := h.bind fun _ => takes_pure _ _

theorem takes_certSlot (h : Takes (Reader.getInt32 req) start stop) :
    Takes (Dumper.certSlot req) start stop := by
  apply h.bind
  intro slot
  split_ifs <;> exact takes_pure _ _

variable {label : List UInt8}

theorem takes_oid (h : Takes (Reader.getData req) start stop) :
    Takes (Dumper.oid req label) start stop :=
  (reads_position start).takes (h.bind fun _ => takes_pure _ _)

theorem takes_timestamp (h : Takes (Reader.getInt64 req) start stop) :
    Takes (Dumper.timestamp req dateDescription) start stop := h.bind fun _ => takes_pure _ _

theorem takes_match {cf : CoreFoundation} (h : Takes (Match.read cf req) start stop)
    (hknown : ¬UnknownSuffix req start) :
    Takes (Dumper.match req dateDescription) start stop := by
  obtain ⟨word, mid, hword, h⟩ := takes_bind_iff.mp h
  apply hword.takes
  cases hop : MatchOperation.ofWord word with
  | none => exact absurd ⟨word, mid, hword, hop⟩ hknown
  | some op =>
    simp only [hop] at h ⊢
    cases hoperand : op.operand with
    | nothing =>
      simp only [hoperand] at h ⊢
      obtain rfl := stop_of_takes_pure h
      exact takes_pure _ _
    | string =>
      simp only [hoperand] at h ⊢
      obtain ⟨string, mid', hstring, hrest⟩ := takes_bind_iff.mp h
      obtain ⟨value, mid'', hvalue, hdone⟩ := takes_bind_iff.mp hrest
      rw [stop_of_takes_pure hdone, stop_of_liftExcept hvalue]
      exact (takes_data ⟨string, hstring⟩).bind fun _ => takes_pure _ _
    | timestamp =>
      simp only [hoperand] at h ⊢
      obtain ⟨seconds, mid', hseconds, hdone⟩ := takes_bind_iff.mp h
      obtain rfl := stop_of_takes_pure hdone
      exact (takes_timestamp ⟨seconds, hseconds⟩).bind fun _ => takes_pure _ _

theorem not_takes_match {cf : CoreFoundation} (h : Takes (Match.read cf req) start stop)
    (hunknown : UnknownSuffix req start) :
    ¬Takes (Dumper.match req dateDescription) start stop := by
  intro hprinted
  obtain ⟨word, mid, hword, hop⟩ := hunknown
  obtain ⟨word', mid', hword', h⟩ := takes_bind_iff.mp h
  obtain ⟨rfl, rfl⟩ := hword.unique hword'
  obtain ⟨word', mid', hword', hprinted⟩ := takes_bind_iff.mp hprinted
  obtain ⟨rfl, rfl⟩ := hword.unique hword'
  have hmid := stop_of_get hword
  simp only [hop] at h hprinted
  obtain ⟨string, mid', hstring, h⟩ := takes_bind_iff.mp h
  obtain rfl := stop_of_takes_pure h
  obtain rfl := stop_of_takes_pure hprinted
  exact ne_of_getData (by omega) hstring rfl

theorem takes_dictionaryField {test : List UInt8 → Match → Except OSStatus Bool}
    (h : Takes (evalField services req test) start stop)
    (hknown : ¬∃ key mid, Reads (Reader.getData req) start key mid ∧ UnknownSuffix req mid) :
    Takes (Dumper.dictionaryField req dateDescription label) start stop := by
  obtain ⟨key, mid, hkey, hrest⟩ := takes_bind_iff.mp h
  obtain ⟨m, mid', hmatch, value, hdone⟩ := takes_bind_iff.mp hrest
  rw [stop_of_liftExcept hdone]
  apply (takes_data ⟨key, hkey⟩).bind
  intro _
  exact (takes_match ⟨m, hmatch⟩ fun hunknown => hknown ⟨key, mid, hkey, hunknown⟩).bind
    fun _ => takes_pure _ _

theorem not_takes_dictionaryField {test : List UInt8 → Match → Except OSStatus Bool}
    (h : Takes (evalField services req test) start stop)
    (hunknown : ∃ key mid, Reads (Reader.getData req) start key mid ∧ UnknownSuffix req mid) :
    ¬Takes (Dumper.dictionaryField req dateDescription label) start stop := by
  intro hprinted
  obtain ⟨key, mid, hkey, hsuffix⟩ := hunknown
  obtain ⟨key', mid', hkey', hrest⟩ := takes_bind_iff.mp h
  obtain ⟨rfl, rfl⟩ := hkey.unique hkey'
  obtain ⟨m, mid₁, hmatch, value, hdone⟩ := takes_bind_iff.mp hrest
  obtain ⟨text, mid₂, htext, hrest'⟩ := takes_bind_iff.mp hprinted
  obtain rfl := takes_unique ⟨text, htext⟩ (takes_data ⟨key, hkey⟩)
  obtain ⟨suffix, mid₃, hprint, hdone'⟩ := takes_bind_iff.mp hrest'
  rw [← stop_of_takes_pure hdone', stop_of_liftExcept hdone] at hprint
  exact not_takes_match ⟨m, hmatch⟩ hsuffix ⟨suffix, hprint⟩

def PrintsKey (req : List UInt8) (key : Scan OSStatus (List UInt8)) : Prop :=
  ∀ start stop, Takes key start stop ↔ Takes (Reader.getData req) start stop

theorem printsKey_dotString : PrintsKey req (Dumper.dotString req) := by
  intro start stop
  constructor
  · intro h
    obtain ⟨octets, mid, hoctets, hdone⟩ := takes_bind_iff.mp h
    rw [stop_of_takes_pure hdone]
    exact ⟨octets, hoctets⟩
  · exact takes_data

theorem printsKey_oid : PrintsKey req (Dumper.oid req label) := by
  intro start stop
  constructor
  · intro h
    obtain ⟨position, mid, hposition, hrest⟩ := takes_bind_iff.mp h
    obtain ⟨octets, mid', hoctets, hdone⟩ := takes_bind_iff.mp hrest
    rw [(reads_position_iff.mp hposition).2] at hoctets
    rw [stop_of_takes_pure hdone]
    exact ⟨octets, hoctets⟩
  · exact takes_oid

theorem takes_certField {test : List UInt8 → Match → Option Certificate → Bool}
    {key : Scan OSStatus (List UInt8)} (hprints : PrintsKey req key)
    (h : Takes (evalCertField services req ctx test) start stop)
    (hknown : ¬∃ slot mid key mid', Reads (Reader.getInt32 req) start slot mid ∧
      Reads (Reader.getData req) mid key mid' ∧ UnknownSuffix req mid') :
    Takes (Dumper.certField req dateDescription key) start stop := by
  obtain ⟨slot, mid, hslot, hrest⟩ := takes_bind_iff.mp h
  obtain ⟨cert, mid₁, hcert, hrest'⟩ := takes_bind_iff.mp hrest
  rw [stop_of_lift hcert] at hrest'
  obtain ⟨octets, mid₂, hoctets, hrest''⟩ := takes_bind_iff.mp hrest'
  obtain ⟨m, mid₃, hmatch, hdone⟩ := takes_bind_iff.mp hrest''
  rw [stop_of_takes_pure hdone]
  apply (takes_certSlot ⟨slot, hslot⟩).bind
  intro _
  apply ((hprints _ _).mpr ⟨octets, hoctets⟩).bind
  intro _
  exact (takes_match ⟨m, hmatch⟩
    fun hunknown => hknown ⟨slot, _, octets, _, hslot, hoctets, hunknown⟩).bind
    fun _ => takes_pure _ _

theorem not_takes_certField {test : List UInt8 → Match → Option Certificate → Bool}
    {key : Scan OSStatus (List UInt8)} (hprints : PrintsKey req key)
    (h : Takes (evalCertField services req ctx test) start stop)
    (hunknown : ∃ slot mid key mid', Reads (Reader.getInt32 req) start slot mid ∧
      Reads (Reader.getData req) mid key mid' ∧ UnknownSuffix req mid') :
    ¬Takes (Dumper.certField req dateDescription key) start stop := by
  intro hprinted
  obtain ⟨slot, mid, octets, mid', hslot, hoctets, hsuffix⟩ := hunknown
  obtain ⟨slot', mid₁, hslot', hrest⟩ := takes_bind_iff.mp h
  obtain ⟨rfl, rfl⟩ := hslot.unique hslot'
  obtain ⟨cert, mid₂, hcert, hrest'⟩ := takes_bind_iff.mp hrest
  rw [stop_of_lift hcert] at hrest'
  obtain ⟨octets', mid₃, hoctets', hrest''⟩ := takes_bind_iff.mp hrest'
  obtain ⟨rfl, rfl⟩ := hoctets.unique hoctets'
  obtain ⟨m, mid₄, hmatch, hdone⟩ := takes_bind_iff.mp hrest''
  rw [← stop_of_takes_pure hdone] at hmatch
  obtain ⟨slotText, mid₅, hslotText, hrestD⟩ := takes_bind_iff.mp hprinted
  rw [takes_unique ⟨slotText, hslotText⟩ (takes_certSlot ⟨slot, hslot⟩)] at hrestD
  obtain ⟨keyText, mid₆, hkeyText, hrestK⟩ := takes_bind_iff.mp hrestD
  rw [takes_unique ((hprints _ _).mp ⟨keyText, hkeyText⟩) ⟨octets, hoctets⟩] at hrestK
  obtain ⟨suffixText, mid₇, hsuffixText, hdoneS⟩ := takes_bind_iff.mp hrestK
  rw [← stop_of_takes_pure hdoneS] at hsuffixText
  exact not_takes_match ⟨m, hmatch⟩ hsuffix ⟨suffixText, hsuffixText⟩

theorem takes_exprTest {op : ExprOp} (h : Takes (evalTest services req ctx op) start stop)
    (hsame : ¬DivergentTest req ctx op start) :
    Takes (Dumper.exprTest req dateDescription mDebug op) start stop := by
  cases op with
  | opFalse | opTrue =>
    rw [stop_of_takes_pure h]
    exact takes_pure _ _
  | opIdent =>
    obtain ⟨directory, hdirectory⟩ := Option.ne_none_iff_exists'.mp hsame
    simp only [evalTest, hdirectory] at h
    obtain ⟨string, mid, hstring, hdone⟩ := takes_bind_iff.mp h
    rw [stop_of_takes_pure hdone]
    exact (takes_data ⟨string, hstring⟩).bind fun _ => takes_pure _ _
  | opAppleAnchor =>
    obtain ⟨value, hvalue⟩ := h
    rw [stop_of_lift hvalue]
    exact takes_pure _ _
  | opAppleGenericAnchor =>
    obtain ⟨cert, mid, hcert, hdone⟩ := takes_bind_iff.mp h
    rw [stop_of_takes_pure hdone, stop_of_lift hcert]
    exact takes_pure _ _
  | opAnchorHash =>
    obtain ⟨slot, mid, hslot, hrest⟩ := takes_bind_iff.mp h
    obtain ⟨cert, mid', hcert, hrest'⟩ := takes_bind_iff.mp hrest
    rw [stop_of_lift hcert] at hrest'
    obtain ⟨digest, mid₁, hdigest, hdone⟩ := takes_bind_iff.mp hrest'
    rw [stop_of_takes_pure hdone]
    obtain ⟨octets, mid₂, hoctets, hcheck⟩ := reads_bind_iff.mp hdigest
    split_ifs at hcheck with hlength
    · exact absurd hcheck not_reads_throw
    · rw [(reads_pure_iff.mp hcheck).2]
      apply (takes_certSlot ⟨slot, hslot⟩).bind
      intro _
      exact (takes_hashData ⟨octets, hoctets⟩).bind fun _ => takes_pure _ _
  | opInfoKeyValue =>
    obtain ⟨key, mid, hkey, hrest⟩ := takes_bind_iff.mp h
    obtain ⟨value, mid', hvalue, hrest'⟩ := takes_bind_iff.mp hrest
    obtain ⟨string, mid'', hstring, result, hdone⟩ := takes_bind_iff.mp hrest'
    rw [stop_of_liftExcept hdone, stop_of_liftExcept hstring]
    apply (takes_data ⟨key, hkey⟩).bind
    intro _
    exact (takes_data ⟨value, hvalue⟩).bind fun _ => takes_pure _ _
  | opCDHash =>
    obtain ⟨directory, hdirectory⟩ := Option.ne_none_iff_exists'.mp hsame
    simp only [evalTest, hdirectory] at h
    obtain ⟨cdhash, mid, hcdhash, hrest⟩ := takes_bind_iff.mp h
    rw [stop_of_liftExcept hcdhash] at hrest
    obtain ⟨required, mid', hrequired, hdone⟩ := takes_bind_iff.mp hrest
    rw [stop_of_takes_pure hdone]
    exact (takes_hashData ⟨required, hrequired⟩).bind fun _ => takes_pure _ _
  | opInfoKeyField | opEntitlementField => exact takes_dictionaryField h hsame
  | opCertField => exact takes_certField printsKey_dotString h hsame
  | opCertGeneric | opCertFieldDate | opCertPolicy => exact takes_certField printsKey_oid h hsame
  | opTrustedCert =>
    obtain ⟨slot, mid, hslot, hrest⟩ := takes_bind_iff.mp h
    obtain ⟨cert, mid', hcert, value, hdone⟩ := takes_bind_iff.mp hrest
    rw [stop_of_liftExcept hdone, stop_of_lift hcert]
    exact (takes_certSlot ⟨slot, hslot⟩).bind fun _ => takes_pure _ _
  | opTrustedCerts | opNotarized =>
    obtain ⟨value, hvalue⟩ := h
    rw [stop_of_liftExcept hvalue]
    exact takes_pure _ _
  | opNamedAnchor | opNamedCode =>
    obtain ⟨name, mid, hname, value, hdone⟩ := takes_bind_iff.mp h
    rw [stop_of_liftExcept hdone]
    exact (takes_data ⟨name, hname⟩).bind fun _ => takes_pure _ _
  | opPlatform =>
    obtain ⟨platform, mid, hplatform, hdone⟩ := takes_bind_iff.mp h
    rw [stop_of_takes_pure hdone]
    exact hplatform.takes (takes_pure _ _)
  | opLegacyDevID =>
    obtain ⟨cert, mid, hcert, value, hdone⟩ := takes_bind_iff.mp h
    rw [stop_of_liftExcept hdone, stop_of_lift hcert]
    exact takes_pure _ _
  | opAnd | opOr | opNot =>
    obtain ⟨value, hvalue⟩ := h
    exact absurd hvalue not_reads_throw

theorem not_takes_print {print : Scan OSStatus (List UInt8)} {next : List UInt8 → List UInt8}
    (hlow : 4 ≤ start)
    (hprint : ∀ mid, Takes print start mid → Takes (Reader.getData req) start mid) :
    ¬Takes (do return next (← print)) start start := by
  intro hprinted
  obtain ⟨text, mid, htext, hdone⟩ := takes_bind_iff.mp hprinted
  obtain ⟨octets, hoctets⟩ := hprint mid ⟨text, htext⟩
  exact ne_of_getData hlow hoctets (stop_of_takes_pure hdone).symm

theorem not_takes_exprTest {op : ExprOp} (hlow : 4 ≤ start)
    (h : Takes (evalTest services req ctx op) start stop) (hsplit : DivergentTest req ctx op start) :
    ¬Takes (Dumper.exprTest req dateDescription mDebug op) start stop := by
  cases op with
  | opIdent | opCDHash =>
    simp only [evalTest, show ctx.directory = none from hsplit] at h
    rw [stop_of_takes_pure h]
    apply not_takes_print hlow
    intro mid htext
    obtain ⟨octets, mid', hoctets, hdone⟩ := takes_bind_iff.mp htext
    rw [stop_of_takes_pure hdone]
    exact ⟨octets, hoctets⟩
  | opInfoKeyField | opEntitlementField => exact not_takes_dictionaryField h hsplit
  | opCertField => exact not_takes_certField printsKey_dotString h hsplit
  | opCertGeneric | opCertFieldDate => exact not_takes_certField printsKey_oid h hsplit
  | opCertPolicy => exact not_takes_certField printsKey_oid h hsplit
  | opFalse | opTrue | opAppleAnchor | opAppleGenericAnchor | opAnchorHash | opInfoKeyValue
  | opTrustedCert | opTrustedCerts | opNamedAnchor | opNamedCode | opPlatform | opNotarized
  | opLegacyDevID | opAnd | opOr | opNot => exact hsplit.elim
end Tests

section Calls

variable {Certificate : Type} (services : Services Certificate) (req : List UInt8)
  (ctx : Context Certificate) (dateDescription : Int → List UInt8) (mDebug : Bool)

inductive Calls : Nat × Nat → Nat × Nat → Prop where
  | operand {n start word mid : Nat} {op : ExprOp} (hword : Reads (Reader.get req 4) start word mid)
      (hop : ExprOp.ofWord word = some op) (hconnective : op = .opAnd ∨ op = .opOr ∨ op = .opNot) :
      Calls (n + 2, start) (n + 1, mid)
  | right {n start word mid mid' : Nat} {op : ExprOp}
      (hword : Reads (Reader.get req 4) start word mid) (hop : ExprOp.ofWord word = some op)
      (hconnective : op = .opAnd ∨ op = .opOr)
      (hleft : Takes (eval services req ctx (n + 1)) mid mid') : Calls (n + 2, start) (n + 1, mid')
  | skip {n start word mid mid' : Nat} (hword : Reads (Reader.get req 4) start word mid)
      (hop : ExprOp.ofWord word = none) (hfalse : word &&& opGenericFalse = 0)
      (hflag : word &&& opGenericSkip ≠ 0)
      (hsized : Takes (Reader.get req 4 >>= Reader.skip req) mid mid') :
      Calls (n + 2, start) (n + 1, mid')

def DumpsTo (start stop : Nat) : Prop :=
  ∀ level, ∃ fuel, Takes (Dumper.expr req dateDescription mDebug fuel level) start stop

inductive DumperCalls : Nat → Nat → Prop where
  | operand {start word mid : Nat} {op : ExprOp} (hword : Reads (Reader.get req 4) start word mid)
      (hop : ExprOp.ofWord word = some op) (hconnective : op = .opAnd ∨ op = .opOr ∨ op = .opNot) :
      DumperCalls start mid
  | right {start word mid mid' : Nat} {op : ExprOp}
      (hword : Reads (Reader.get req 4) start word mid) (hop : ExprOp.ofWord word = some op)
      (hconnective : op = .opAnd ∨ op = .opOr)
      (hleft : DumpsTo req dateDescription mDebug mid mid') : DumperCalls start mid'

/-- The dumper takes the octets that the evaluation takes, and prints the operands that it
evaluates. -/
structure InStep (call : Nat × Nat) : Prop where
  stop : ∀ stop, Takes (eval services req ctx call.1) call.2 stop →
    DumpsTo req dateDescription mDebug call.2 stop
  nested : ∀ call', Calls services req ctx call call' →
    DumperCalls req dateDescription mDebug call.2 call'.2

variable {services req ctx dateDescription mDebug}

variable {start stop : Nat} {level : Dumper.SyntaxLevel} {call : Nat × Nat}

theorem takes_eval_iff {depth : Nat} :
    Takes (eval services req ctx depth) start stop ↔
      ∃ n word mid, depth = n + 2 ∧ Reads (Reader.get req 4) start word mid ∧
        Takes (evalOp services req ctx (eval services req ctx (n + 1)) word) mid stop := by
  constructor
  · intro h
    cases depth with
    | zero =>
      obtain ⟨value, hvalue⟩ := h
      exact absurd hvalue not_reads_throw
    | succ depth =>
      rw [eval] at h
      split_ifs at h with hzero
      · obtain ⟨value, hvalue⟩ := h
        exact absurd hvalue not_reads_throw
      · obtain ⟨word, mid, hword, hrest⟩ := takes_bind_iff.mp h
        obtain ⟨n, rfl⟩ := Nat.exists_eq_succ_of_ne_zero hzero
        exact ⟨n, word, mid, rfl, hword, hrest⟩
  · intro h
    obtain ⟨n, word, mid, rfl, hword, hrest⟩ := h
    rw [eval, if_neg (Nat.succ_ne_zero n)]
    exact hword.takes hrest

theorem evalOp_eq {nested : Scan OSStatus Bool} {word : Nat} {op : ExprOp}
    (hop : ExprOp.ofWord word = some op)
    (hconnective : ¬(op = .opAnd ∨ op = .opOr ∨ op = .opNot)) :
    evalOp services req ctx nested word = evalTest services req ctx op := by
  rw [evalOp, hop]
  cases op <;> first | rfl | simp at hconnective

theorem exprOp_eq {nested : Dumper.SyntaxLevel → Scan OSStatus (List UInt8)} {word : Nat}
    {op : ExprOp} (hop : ExprOp.ofWord word = some op)
    (hconnective : ¬(op = .opAnd ∨ op = .opOr ∨ op = .opNot)) :
    Dumper.exprOp req dateDescription mDebug nested level word =
      Dumper.exprTest req dateDescription mDebug op := by
  rw [Dumper.exprOp, hop]
  cases op <;> first | rfl | simp at hconnective

theorem not_connective_of_divergentTest {op : ExprOp} (h : DivergentTest req ctx op start) :
    ¬(op = .opAnd ∨ op = .opOr ∨ op = .opNot) := by
  intro hconnective
  rcases hconnective with rfl | rfl | rfl <;> exact h

theorem takes_expr_iff {fuel : Nat} :
    Takes (Dumper.expr req dateDescription mDebug (fuel + 1) level) start stop ↔
      ∃ word mid, Reads (Reader.get req 4) start word mid ∧
        Takes (Dumper.exprOp req dateDescription mDebug
          (Dumper.expr req dateDescription mDebug fuel) level word) mid stop := by
  constructor
  · intro h
    obtain ⟨pc, start', hposition, hrest⟩ := takes_bind_iff.mp h
    rw [(reads_position_iff.mp hposition).2] at hrest
    obtain ⟨word, mid, hword, hrest'⟩ := takes_bind_iff.mp hrest
    obtain ⟨output, mid', houtput, hdone⟩ := takes_bind_iff.mp hrest'
    rw [stop_of_takes_pure hdone]
    exact ⟨word, mid, hword, output, houtput⟩
  · intro h
    obtain ⟨word, mid, hword, hrest⟩ := h
    apply (reads_position start).takes
    exact hword.takes (hrest.bind fun _ => takes_pure _ _)

theorem takes_connective {own : Dumper.SyntaxLevel} {label : List UInt8}
    {nested : Scan OSStatus (List UInt8)} {mid : Nat} (hleft : Takes nested start mid)
    (hright : Takes nested mid stop) :
    Takes (Dumper.connective level own label nested) start stop := by
  apply hleft.bind
  intro left
  exact hright.bind fun right => takes_pure _ _

/-- Where no expression that is evaluated is read differently, the dumper needs no more depth than
the interpreter to take the same octets. -/
theorem takes_expr {depth : Nat} (h : Takes (eval services req ctx depth) start stop)
    (hsame : ∀ call, Relation.ReflTransGen (Calls services req ctx) (depth, start) call →
      ¬Divergent req ctx call.2) (level : Dumper.SyntaxLevel) :
    Takes (Dumper.expr req dateDescription mDebug depth level) start stop := by
  induction depth generalizing start stop level with
  | zero =>
    obtain ⟨value, hvalue⟩ := h
    exact absurd hvalue not_reads_throw
  | succ depth ih =>
    obtain ⟨n, word, mid, hdepth, hword, hrest⟩ := takes_eval_iff.mp h
    obtain rfl : depth = n + 1 := by omega
    have hhere := hsame _ .refl
    refine takes_expr_iff.mpr ⟨word, mid, hword, ?_⟩
    cases hop : ExprOp.ofWord word with
    | some op =>
      have hoperand (hconnective : op = .opAnd ∨ op = .opOr ∨ op = .opNot) {mid' : Nat}
          (hvalue : Takes (eval services req ctx (n + 1)) mid mid') (level : Dumper.SyntaxLevel) :
          Takes (Dumper.expr req dateDescription mDebug (n + 1) level) mid mid' :=
        ih hvalue (fun call hcall =>
          hsame call (.head (.operand hword hop hconnective) hcall)) level
      have hright (hconnective : op = .opAnd ∨ op = .opOr) {mid' : Nat}
          (hleft : Takes (eval services req ctx (n + 1)) mid mid')
          (hvalue : Takes (eval services req ctx (n + 1)) mid' stop)
          (level : Dumper.SyntaxLevel) :
          Takes (Dumper.expr req dateDescription mDebug (n + 1) level) mid' stop :=
        ih hvalue (fun call hcall =>
          hsame call (.head (.right hword hop hconnective hleft) hcall)) level
      by_cases hconnective : op = .opAnd ∨ op = .opOr ∨ op = .opNot
      · rw [Dumper.exprOp, hop]
        rw [evalOp, hop] at hrest
        rcases hconnective with rfl | rfl | rfl
        · obtain ⟨left, mid', hleft, hrest'⟩ := takes_bind_iff.mp hrest
          obtain ⟨right, mid'', hsecond, hdone⟩ := takes_bind_iff.mp hrest'
          rw [← stop_of_takes_pure hdone] at hsecond
          exact takes_connective (hoperand (by simp) ⟨left, hleft⟩ _)
            (hright (by simp) ⟨left, hleft⟩ ⟨right, hsecond⟩ _)
        · obtain ⟨left, mid', hleft, hrest'⟩ := takes_bind_iff.mp hrest
          obtain ⟨right, mid'', hsecond, hdone⟩ := takes_bind_iff.mp hrest'
          rw [← stop_of_takes_pure hdone] at hsecond
          exact takes_connective (hoperand (by simp) ⟨left, hleft⟩ _)
            (hright (by simp) ⟨left, hleft⟩ ⟨right, hsecond⟩ _)
        · obtain ⟨value, mid', hvalue, hdone⟩ := takes_bind_iff.mp hrest
          rw [← stop_of_takes_pure hdone] at hvalue
          exact (hoperand (by simp) ⟨value, hvalue⟩ _).bind fun _ => takes_pure _ _
      · rw [exprOp_eq hop hconnective]
        rw [evalOp_eq hop hconnective] at hrest
        apply takes_exprTest hrest
        intro hsplit
        apply hhere
        refine ⟨word, mid, hword, ?_⟩
        simpa only [hop] using hsplit
    | none =>
      rw [evalOp, hop] at hrest
      by_cases hflags : word &&& opGenericFalse ≠ 0 ∨ word &&& opGenericSkip ≠ 0
      · exact absurd ⟨word, mid, hword, by simpa only [hop] using hflags⟩ hhere
      · obtain ⟨hfalse, hskip⟩ := not_or.mp hflags
        simp only [if_neg hfalse, if_neg hskip] at hrest
        obtain ⟨value, hvalue⟩ := hrest
        exact absurd hvalue not_reads_throw

theorem returns_of_calls {call' : Nat × Nat} (h : Calls services req ctx call call')
    (hreturns : ∃ stop, Takes (eval services req ctx call.1) call.2 stop) :
    ∃ stop, Takes (eval services req ctx call'.1) call'.2 stop := by
  obtain ⟨stop, hstop⟩ := hreturns
  obtain ⟨n, word, mid, hdepth, hword, hrest⟩ := takes_eval_iff.mp hstop
  cases h with
  | operand hword' hop hconnective =>
    obtain ⟨rfl, rfl⟩ := hword.unique hword'
    obtain rfl := Nat.add_right_cancel hdepth
    rw [evalOp, hop] at hrest
    rcases hconnective with rfl | rfl | rfl
    all_goals
      obtain ⟨value, mid', hvalue, -⟩ := takes_bind_iff.mp hrest
      exact ⟨mid', value, hvalue⟩
  | right hword' hop hconnective hleft =>
    obtain ⟨rfl, rfl⟩ := hword.unique hword'
    obtain rfl := Nat.add_right_cancel hdepth
    rw [evalOp, hop] at hrest
    rcases hconnective with rfl | rfl
    all_goals
      obtain ⟨value, mid', hvalue, hrest'⟩ := takes_bind_iff.mp hrest
      obtain ⟨value', mid'', hvalue', -⟩ := takes_bind_iff.mp hrest'
      rw [takes_unique ⟨value, hvalue⟩ hleft] at hvalue'
      exact ⟨mid'', value', hvalue'⟩
  | skip hword' hop hfalse hflag hsized =>
    obtain ⟨rfl, rfl⟩ := hword.unique hword'
    obtain rfl := Nat.add_right_cancel hdepth
    rw [evalOp, hop] at hrest
    simp only [hfalse, ne_eq, not_true_eq_false, if_false, if_pos hflag] at hrest
    obtain ⟨_, mid', hvalue, hrest'⟩ := takes_bind_iff.mp hrest
    rw [takes_unique ⟨_, hvalue⟩ hsized] at hrest'
    exact ⟨stop, hrest'⟩

theorem returns_of_visits {call' : Nat × Nat}
    (h : Relation.ReflTransGen (Calls services req ctx) call call')
    (hreturns : ∃ stop, Takes (eval services req ctx call.1) call.2 stop) :
    ∃ stop, Takes (eval services req ctx call'.1) call'.2 stop := by
  induction h with
  | refl => exact hreturns
  | tail _ hcalls ih => exact returns_of_calls hcalls ih

theorem lt_of_sized {mid : Nat} (h : Takes (Reader.get req 4 >>= Reader.skip req) mid stop) :
    mid < stop := by
  obtain ⟨length, mid', hcount, hskip⟩ := takes_bind_iff.mp h
  obtain ⟨_, hskip⟩ := hskip
  simp only [Reader.skip, reads_bind_iff, reads_checkSize_iff, reads_position_iff,
    reads_seek_iff] at hskip
  obtain ⟨_, _, ⟨⟨len, hlength, hinside⟩, rfl⟩, _, _, ⟨rfl, rfl⟩, rfl⟩ := hskip
  have hlt : len < 256 ^ 4 := Memory.loadBE_lt hlength
  have hmid := stop_of_get hcount
  rw [Nat.mod_eq_of_lt (by omega)]
  omega

theorem not_divergent_of_inStep (h : InStep services req ctx dateDescription mDebug call)
    (hreturns : Takes (eval services req ctx call.1) call.2 stop) : ¬Divergent req ctx call.2 := by
  intro hdivergent
  obtain ⟨depth, start⟩ := call
  obtain ⟨n, word, mid, hdepth, hword, hrest⟩ := takes_eval_iff.mp hreturns
  obtain ⟨word', mid', hword', hsplit⟩ := hdivergent
  obtain ⟨rfl, rfl⟩ := hword.unique hword'
  have hmid := stop_of_get hword
  obtain ⟨fuel, hprinted⟩ := h.stop stop hreturns .slTop
  cases fuel with
  | zero =>
    obtain ⟨text, htext⟩ := hprinted
    cases htext
  | succ fuel =>
    obtain ⟨word', mid', hword', hprinted⟩ := takes_expr_iff.mp hprinted
    obtain ⟨rfl, rfl⟩ := hword.unique hword'
    cases hop : ExprOp.ofWord word with
    | some op =>
      simp only [hop] at hsplit
      have hconnective := not_connective_of_divergentTest hsplit
      rw [evalOp_eq hop hconnective] at hrest
      rw [exprOp_eq hop hconnective] at hprinted
      exact not_takes_exprTest (by omega) hrest hsplit hprinted
    | none =>
      simp only [hop] at hsplit
      rw [evalOp, hop] at hrest
      rw [Dumper.exprOp, hop] at hprinted
      by_cases hfalse : word &&& opGenericFalse = 0
      · have hflag : word &&& opGenericSkip ≠ 0 := by
          rcases hsplit with hother | hflag
          · exact absurd hfalse hother
          · exact hflag
        simp only [hfalse, ne_eq, not_true_eq_false, if_false, if_pos hflag] at hrest
        obtain ⟨_, mid', hsized, -⟩ := takes_bind_iff.mp hrest
        -- the expression behind a skipped operator is evaluated and not printed
        have hcalls : Calls services req ctx (depth, start) (n + 1, mid') := by
          rw [show depth = n + 2 from hdepth]
          exact .skip hword hop hfalse hflag ⟨_, hsized⟩
        cases h.nested _ hcalls with
        | operand hword' hop' _ =>
          obtain ⟨rfl, -⟩ := hword.unique hword'
          rw [hop] at hop'
          cases hop'
        | right hword' hop' _ _ =>
          obtain ⟨rfl, -⟩ := hword.unique hword'
          rw [hop] at hop'
          cases hop'
      · simp only [ne_eq, hfalse, not_false_eq_true, if_true] at hrest hprinted
        obtain ⟨_, mid', hsized, hdone⟩ := takes_bind_iff.mp hrest
        have hlt := lt_of_sized ⟨_, hsized⟩
        have hstop := stop_of_takes_pure hdone
        have hprintedStop := stop_of_takes_pure hprinted
        omega

theorem inStep_of_not_divergent (hreturns : Takes (eval services req ctx call.1) call.2 stop)
    (hsame : ∀ call', Relation.ReflTransGen (Calls services req ctx) call call' →
      ¬Divergent req ctx call'.2) : InStep services req ctx dateDescription mDebug call := by
  constructor
  · intro stop' hstop' level
    exact ⟨call.1, takes_expr hstop' hsame level⟩
  · intro call' hcalls
    have hhere := hsame call .refl
    cases hcalls with
    | operand hword hop hconnective => exact .operand hword hop hconnective
    | right hword hop hconnective hleft =>
      refine .right hword hop hconnective fun level => ⟨_, takes_expr hleft ?_ level⟩
      intro call' hvisits
      have hor : ∀ {op : ExprOp}, op = .opAnd ∨ op = .opOr → op = .opAnd ∨ op = .opOr ∨ op = .opNot :=
        fun h => h.imp_right Or.inl
      exact hsame call' (.head (.operand hword hop (hor hconnective)) hvisits)
    | skip hword hop hfalse hflag hsized =>
      exact absurd ⟨_, _, hword, by simpa only [hop] using Or.inr hflag⟩ hhere
end Calls

/-- Where an evaluation of a requirement returns, the dumper is in step with all of its calls
exactly if none of them is of an expression that the two read differently. -/
theorem inStep_iff {Certificate : Type} (services : Services Certificate) (req : List UInt8)
    (ctx : Context Certificate) (dateDescription : Int → List UInt8) (mDebug : Bool)
    (start stop : Nat) (hreturns : Takes (eval services req ctx stackLimit) start stop) :
    (∀ call, Relation.ReflTransGen (Calls services req ctx) (stackLimit, start) call →
      InStep services req ctx dateDescription mDebug call) ↔
    ∀ call, Relation.ReflTransGen (Calls services req ctx) (stackLimit, start) call →
      ¬Divergent req ctx call.2 := by
  constructor
  · intro hsteps call hvisits
    obtain ⟨stop', hstop'⟩ := returns_of_visits hvisits ⟨stop, hreturns⟩
    exact not_divergent_of_inStep (hsteps call hvisits) hstop'
  · intro hsame call hvisits
    obtain ⟨stop', hstop'⟩ := returns_of_visits hvisits ⟨stop, hreturns⟩
    exact inStep_of_not_divergent hstop' fun call' hvisits' =>
      hsame call' (hvisits.trans hvisits')

def twoWords (first second : Nat) : List UInt8 :=
  Memory.toBE 4 typeMagic ++ Memory.toBE 4 20 ++ Memory.toBE 4 exprForm ++ Memory.toBE 4 first ++
    Memory.toBE 4 second

theorem inStep_iff_sample :
    Takes (eval bareServices (twoWords 1 0) (bareContext none) stackLimit) size 16 ∧
      ∀ call, Relation.ReflTransGen
        (Calls bareServices (twoWords 1 0) (bareContext none)) (stackLimit, size) call →
        InStep bareServices (twoWords 1 0) (bareContext none) (fun _ => []) false call := by
  have hword : Reads (Reader.get (twoWords 1 0) 4) size 1 16 :=
    reads_get ⟨by decide, rfl, by decide⟩ (by decide)
  have hop : ExprOp.ofWord 1 = some .opTrue := rfl
  have heval : Takes (eval bareServices (twoWords 1 0) (bareContext none) stackLimit) size 16 :=
    takes_eval_iff.mpr ⟨998, 1, 16, rfl, hword, true, rfl⟩
  refine ⟨heval, ?_⟩
  apply (inStep_iff bareServices (twoWords 1 0) (bareContext none) (fun _ => []) false size 16
    heval).mpr
  intro call hvisits
  rcases hvisits.cases_head with rfl | ⟨call', hcalls, -⟩
  · intro hdivergent
    obtain ⟨word, mid, hword', hsplit⟩ := hdivergent
    obtain ⟨rfl, rfl⟩ := hword.unique hword'
    exact hsplit
  · cases hcalls with
    | operand hword' hop' hconnective | right hword' hop' hconnective _ =>
      obtain ⟨rfl, rfl⟩ := hword.unique hword'
      cases hop.symm.trans hop'
      simp at hconnective
    | skip hword' hop' _ _ _ =>
      obtain ⟨rfl, rfl⟩ := hword.unique hword'
      cases hop.symm.trans hop'

/-- The size field of an unknown operator is evaluated past, and not printed past. -/
theorem generic_out_of_step :
    Takes (eval bareServices (twoWords 0x80000018 0) (bareContext none) stackLimit) size 20 ∧
      ¬InStep bareServices (twoWords 0x80000018 0) (bareContext none) (fun _ => []) false
        (stackLimit, size) := by
  have hword : Reads (Reader.get (twoWords 0x80000018 0) 4) size 0x80000018 16 :=
    reads_get ⟨by decide, rfl, by decide⟩ (by decide)
  have hcount : NumberAt (twoWords 0x80000018 0) 4 16 0 20 := ⟨by decide, rfl, by decide⟩
  have hreturns : Takes (eval bareServices (twoWords 0x80000018 0) (bareContext none) stackLimit)
      size 20 := by
    refine takes_eval_iff.mpr ⟨998, _, 16, rfl, hword, ?_⟩
    have hsized := reads_sized ⟨hcount, rfl, hcount.2.2⟩
    exact hsized.takes (takes_pure _ _)
  refine ⟨hreturns, ?_⟩
  intro hstep
  exact not_divergent_of_inStep hstep hreturns ⟨_, 16, hword, Or.inl (by decide)⟩
end Requirement
end SecurityFramework
