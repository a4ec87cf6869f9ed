import Mathlib.Data.List.Infix
import SecurityFramework.CodeSigning.RequirementExpression

/-! # Alignment of the interpreter with its program -/

namespace SecurityFramework
open Scanner

namespace Requirement
variable {Certificate : Type}

/-- The slot does not lead to before the leaf. -/
def Context.SlotFits (ctx : Context Certificate) (ix : Int) : Prop :=
  ∀ certs, ctx.certs = some certs → -(certs.length : Int) ≤ ix

def Test.Supported (services : Services Certificate) (ctx : Context Certificate) : Test → Prop
  | opIdent _ => ctx.directory ≠ none
  | opCDHash _ => ctx.directory ≠ none
  | opAppleAnchor => ∃ directory, ctx.directory = some directory ∧
      (inTrustCache services directory = .ok false → ctx.SlotFits anchorCert ∧
        (appleAnchored services (ctx.certAt anchorCert) → ctx.SlotFits (-2)))
  | opAppleGenericAnchor => ctx.SlotFits anchorCert
  | opAnchorHash slot _ => ctx.SlotFits slot
  | certField _ slot _ _ => ctx.SlotFits slot
  | opTrustedCert slot => ctx.SlotFits slot
  | _ => True

variable {ctx : Context Certificate}

theorem cert_eq {ix : Int} (h : ctx.SlotFits ix) :
    ctx.cert ix = some (.ok (ctx.certAt ix)) := by
  unfold Context.cert Context.certAt Context.certCount
  cases hcerts : ctx.certs with
  | none => rfl
  | some certs =>
    have hfits := h certs hcerts
    simp only [Option.getD_some]
    by_cases hneg : ix < 0
    · rw [if_pos hneg, if_neg (by omega), if_neg (by omega), if_pos hneg, if_neg (by omega)]
      rfl
    · rw [if_neg hneg]
      by_cases hbeyond : ix ≥ certs.length
      · have hget : certs[ix.toNat]? = none := List.getElem?_eq_none (by omega)
        rw [if_pos hbeyond, if_neg hneg, hget]
        rfl
      · rw [if_neg hbeyond, if_neg hneg, if_neg hneg]
        rfl

theorem cert_eq_none {ix : Int} (h : ¬ctx.SlotFits ix) :
    ctx.cert ix = (none : Option (Except OSStatus (Option Certificate))) := by
  unfold Context.SlotFits at h
  push Not at h
  obtain ⟨certs, hcerts, hlt⟩ := h
  unfold Context.cert Context.certCount
  simp only [hcerts, Option.getD_some]
  rw [if_pos (show ix < 0 by omega), if_neg (by omega), if_pos (by omega)]
  rfl

theorem yields_cert {ix : Int} (h : ctx.SlotFits ix) (start : Nat) :
    Reads (liftM (ctx.cert ix) : Scan OSStatus _) start (ctx.certAt ix) start :=
  yields_lift (cert_eq h)

theorem slotFits_leaf (ctx : Context Certificate) : ctx.SlotFits leafCert := by
  intro certs _
  rw [leafCert]
  omega

section Tests

variable {services : Services Certificate} {req : List UInt8} {ctx : Context Certificate}
  {start stop : Nat}

theorem reads_int32 {value : Int} (h : Int32At req start value stop) :
    Reads (Reader.getInt32 req) start value stop := by
  obtain ⟨word, hword, hvalue⟩ := h
  rw [hvalue]
  exact reads_getInt32 hword

theorem yields_evalField {test : List UInt8 → Match → Except OSStatus Bool} {key : List UInt8}
    {suffix : Suffix} {mid : Nat} (hkey : DataAt req start key mid) (hsuffix : suffix.At req mid stop) :
    Yields (evalField services req test) start
      (suffix.denote services.toCoreFoundation >>= fun m => test key m) stop := by
  apply (reads_getData hkey).bind
  exact (yields_read hsuffix).bind fun m => yields_liftExcept _ _

theorem yields_evalCertField {test : List UInt8 → Match → Option Certificate → Bool} {slot : Int}
    {key : List UInt8} {suffix : Suffix} {mid mid' : Nat} (hslot : Int32At req start slot mid)
    (hkey : DataAt req mid key mid') (hsuffix : suffix.At req mid' stop)
    (hfits : ctx.SlotFits slot) :
    Yields (evalCertField services req ctx test) start
      (suffix.denote services.toCoreFoundation >>= fun m =>
        pure (test key m (ctx.certAt slot))) stop := by
  apply (reads_int32 hslot).bind
  apply (yields_cert hfits mid).bind
  apply (reads_getData hkey).bind
  exact (yields_read hsuffix).bind fun m => yields_pure _ _

theorem yields_appleSigned (h : Test.Supported services ctx .opAppleAnchor) :
    Yields (liftM (appleSigned services ctx) : Scan OSStatus Bool) start
      (appleProduct services ctx) start := by
  obtain ⟨directory, hdirectory, hslots⟩ := h
  apply yields_lift
  simp only [appleSigned, appleProduct, hdirectory]
  cases hcached : inTrustCache services directory with
  | error error => rfl
  | ok cached =>
    cases cached with
    | true => rfl
    | false =>
      obtain ⟨hanchor, hintermed⟩ := hslots hcached
      have hcert := cert_eq hanchor
      by_cases hanchored : appleAnchored services (ctx.certAt anchorCert) = true
      · have hsecond := cert_eq (hintermed hanchored)
        simp only [liftExcept, bind, ExceptT.bind, ExceptT.mk, ExceptT.bindCont, hcert, hanchored,
          hsecond, Except.bind, pure, ExceptT.pure, Option.bind, Bool.false_eq_true, if_false, if_true]
        rfl
      · have hleaf := cert_eq (slotFits_leaf ctx)
        simp only [liftExcept, bind, ExceptT.bind, ExceptT.mk, ExceptT.bindCont, hcert, hanchored,
          hleaf, Except.bind, pure, ExceptT.pure, Option.bind, Bool.false_eq_true, if_false]
        rfl

theorem yields_evalTest {test : Test} (hoperands : test.OperandsAt req start stop)
    (hsupported : test.Supported services ctx) :
    Yields (evalTest services req ctx test.op) start (test.denote services ctx) stop := by
  cases test with
  | opFalse | opTrue =>
    obtain rfl : stop = start := hoperands
    exact yields_pure _ _
  | opIdent identifier =>
    obtain ⟨directory, hdirectory⟩ := Option.ne_none_iff_exists'.mp hsupported
    simp only [Test.op, evalTest, Test.denote, hdirectory]
    exact (reads_getData hoperands).bind (yields_pure _ _)
  | opAppleAnchor =>
    obtain rfl : stop = start := hoperands
    exact yields_appleSigned hsupported
  | opAppleGenericAnchor =>
    obtain rfl : stop = start := hoperands
    exact (yields_cert hsupported _).bind (yields_pure _ _)
  | opAnchorHash slot digest =>
    obtain ⟨mid, hslot, hdigest, hlength⟩ := hoperands
    apply (reads_int32 hslot).bind
    apply (yields_cert hsupported mid).bind
    exact (reads_getSHA1 hdigest hlength).bind (yields_pure _ _)
  | opInfoKeyValue key value =>
    obtain ⟨mid, hkey, hvalue⟩ := hoperands
    apply (reads_getData hkey).bind
    apply (reads_getData hvalue).bind
    exact (yields_liftExcept _ _).bind fun string => yields_liftExcept _ _
  | opCDHash hash =>
    obtain ⟨directory, hdirectory⟩ := Option.ne_none_iff_exists'.mp hsupported
    simp only [Test.op, evalTest, Test.denote, hdirectory]
    exact (yields_liftExcept _ _).bind fun cdhash =>
      (reads_getData hoperands).bind (yields_pure _ _)
  | opInfoKeyField key suffix | opEntitlementField key suffix =>
    obtain ⟨mid, hkey, hsuffix⟩ := hoperands
    exact yields_evalField hkey hsuffix
  | certField field slot key suffix =>
    obtain ⟨mid, mid', hslot, hkey, hsuffix⟩ := hoperands
    cases field <;> exact yields_evalCertField hslot hkey hsuffix hsupported
  | opTrustedCert slot =>
    apply (reads_int32 hoperands).bind
    exact (yields_cert hsupported _).bind (yields_liftExcept _ _)
  | opTrustedCerts | opNotarized =>
    obtain rfl : stop = start := hoperands
    exact yields_liftExcept _ _
  | opNamedAnchor name | opNamedCode name =>
    exact (reads_getData hoperands).bind (yields_liftExcept _ _)
  | opPlatform platform =>
    exact (reads_int32 hoperands).bind (yields_pure _ _)
  | opLegacyDevID =>
    obtain rfl : stop = start := hoperands
    exact (yields_cert (slotFits_leaf ctx) _).bind (yields_liftExcept _ _)

theorem not_yields_cert {β : Type} {next : Option Certificate → Scan OSStatus β} {ix : Int}
    {result : Except OSStatus β} (h : ¬ctx.SlotFits ix) :
    ¬Yields ((liftM (ctx.cert ix) : Scan OSStatus _) >>= next) start result stop := by
  intro hyields
  rw [Yields, bind_of_fault] at hyields
  · cases hyields
  · rw [cert_eq_none h]
    rfl

theorem not_yields_slot {β : Type} {next : Option Certificate → Scan OSStatus β} {slot : Int}
    {mid : Nat} {result : Except OSStatus β} (hslot : Int32At req start slot mid)
    (h : ¬ctx.SlotFits slot) :
    ¬Yields (Reader.getInt32 req >>= fun slot =>
      (liftM (ctx.cert slot) : Scan OSStatus _) >>= next) start result stop := by
  intro hyields
  rw [Yields, bind_of_reads (reads_int32 hslot)] at hyields
  exact not_yields_cert h hyields

theorem supported_of_appleSigned
    (h : Yields (liftM (appleSigned services ctx) : Scan OSStatus Bool) start
      (appleProduct services ctx) start) : Test.Supported services ctx .opAppleAnchor := by
  cases hdirectory : ctx.directory with
  | none =>
    simp only [Yields, appleSigned, hdirectory] at h
    cases h
  | some directory =>
    refine ⟨directory, hdirectory, ?_⟩
    intro hcached
    have hanchor : ctx.SlotFits anchorCert := by
      by_contra hnot
      simp only [Yields, appleSigned, hdirectory, hcached, bind, ExceptT.bind, ExceptT.mk,
        ExceptT.bindCont, cert_eq_none hnot] at h
      cases h
    refine ⟨hanchor, ?_⟩
    intro hanchored
    by_contra hnot
    simp only [Yields, appleSigned, hdirectory, hcached, bind, ExceptT.bind, ExceptT.mk,
      ExceptT.bindCont, liftExcept, pure, ExceptT.pure, Option.bind, cert_eq hanchor, hanchored,
      cert_eq_none hnot, Bool.false_eq_true, if_false, if_true] at h
    cases h

theorem supported_of_yields {test : Test} (hoperands : test.OperandsAt req start stop)
    (h : Yields (evalTest services req ctx test.op) start (test.denote services ctx) stop) :
    test.Supported services ctx := by
  by_contra hnot
  cases test with
  | opIdent identifier | opCDHash hash =>
    have hnone : ctx.directory = none := not_not.mp hnot
    have hlt := DataAt.lt hoperands
    simp only [Test.op, evalTest, Test.denote, hnone] at h
    have hread := (yields_ok_iff.mp h).unique (yields_ok_iff.mp (yields_pure false start))
    omega
  | opAppleAnchor =>
    obtain rfl : stop = start := hoperands
    exact hnot (supported_of_appleSigned h)
  | opAppleGenericAnchor => exact not_yields_cert hnot h
  | opAnchorHash slot digest =>
    obtain ⟨mid, hslot, -, -⟩ := hoperands
    exact not_yields_slot hslot hnot h
  | certField field slot key suffix =>
    obtain ⟨mid, mid', hslot, -, -⟩ := hoperands
    cases field <;> exact not_yields_slot hslot hnot h
  | opTrustedCert slot =>
    obtain ⟨word, hword, hvalue⟩ := hoperands
    rw [Test.op, evalTest, Yields, bind_of_reads (reads_int32 ⟨word, hword, hvalue⟩)] at h
    exact not_yields_cert hnot h
  | opFalse | opTrue | opInfoKeyValue | opInfoKeyField | opEntitlementField | opTrustedCerts
  | opNamedAnchor | opNamedCode | opPlatform | opNotarized | opLegacyDevID =>
    exact hnot trivial
end Tests

inductive Occurs (req : List UInt8) (expr : Expr) (start stop : Nat) :
    Nat → Expr → Nat → Nat → Prop where
  | root : Occurs req expr start stop 0 expr start stop
  | andLeft {level p mid q : Nat} {left right : Expr}
      (h : Occurs req expr start stop level (.opAnd left right) p q)
      (hleft : left.At req (p + 4) mid) (hright : right.At req mid q) :
      Occurs req expr start stop (level + 1) left (p + 4) mid
  | andRight {level p mid q : Nat} {left right : Expr}
      (h : Occurs req expr start stop level (.opAnd left right) p q)
      (hleft : left.At req (p + 4) mid) (hright : right.At req mid q) :
      Occurs req expr start stop (level + 1) right mid q
  | orLeft {level p mid q : Nat} {left right : Expr}
      (h : Occurs req expr start stop level (.opOr left right) p q)
      (hleft : left.At req (p + 4) mid) (hright : right.At req mid q) :
      Occurs req expr start stop (level + 1) left (p + 4) mid
  | orRight {level p mid q : Nat} {left right : Expr}
      (h : Occurs req expr start stop level (.opOr left right) p q)
      (hleft : left.At req (p + 4) mid) (hright : right.At req mid q) :
      Occurs req expr start stop (level + 1) right mid q
  | not {level p q : Nat} {operand : Expr}
      (h : Occurs req expr start stop level (.opNot operand) p q) :
      Occurs req expr start stop (level + 1) operand (p + 4) q
  | skip {level p q op length : Nat} {rest : Expr}
      (h : Occurs req expr start stop level (.genericSkip op length rest) p q) :
      Occurs req expr start stop (level + 1) rest (p + 4 + 4 + length) q

section Expressions

variable {services : Services Certificate} {req : List UInt8} {ctx : Context Certificate}

variable {start : Nat}

/-- An occurrence stands where it says, and is as much shallower as it is deeper inside. -/
theorem Occurs.stands {expr sub : Expr} {stop level p q : Nat} (hat : expr.At req start stop)
    (h : Occurs req expr start stop level sub p q) :
    sub.At req p q ∧ sub.height + level ≤ expr.height ∧ ∀ test ∈ sub.tests, test ∈ expr.tests := by
  induction h with
  | root => exact ⟨hat, le_rfl, fun test htest => htest⟩
  | andLeft _ hleft hright ih | orLeft _ hleft hright ih =>
    obtain ⟨-, hheight, htests⟩ := ih
    rw [Expr.height] at hheight
    exact ⟨hleft, by omega, fun test htest => htests test (List.mem_append_left _ htest)⟩
  | andRight _ hleft hright ih | orRight _ hleft hright ih =>
    obtain ⟨-, hheight, htests⟩ := ih
    rw [Expr.height] at hheight
    exact ⟨hright, by omega, fun test htest => htests test (List.mem_append_right _ htest)⟩
  | not _ ih =>
    obtain ⟨hstands, hheight, htests⟩ := ih
    rw [Expr.height] at hheight
    cases hstands with
    | opNot hword hop hoperand =>
      obtain ⟨-, rfl, -⟩ := hword
      exact ⟨hoperand, by omega, htests⟩
  | skip _ ih =>
    obtain ⟨hstands, hheight, htests⟩ := ih
    rw [Expr.height] at hheight
    cases hstands with
    | genericSkip hword hop hfalse hflag hsized hrest =>
      obtain ⟨-, rfl, -⟩ := hword
      rw [hsized.stop_eq] at hrest
      exact ⟨hrest, by omega, htests⟩

theorem exists_occurs {expr sub : Expr} {stop level p q : Nat} (hat : sub.At req p q)
    (h : Occurs req expr start stop level sub p q) {test : Test} (htest : test ∈ sub.tests) :
    ∃ level' p' q', Occurs req expr start stop level' (.test test) p' q' := by
  induction hat generalizing level with
  | test hword hop hoperands =>
    obtain rfl := List.mem_singleton.mp htest
    exact ⟨_, _, _, h⟩
  | opAnd hword hop hleft hright ihleft ihright =>
    obtain ⟨-, rfl, -⟩ := hword
    cases List.mem_append.mp htest with
    | inl hmem => exact ihleft (h.andLeft hleft hright) hmem
    | inr hmem => exact ihright (h.andRight hleft hright) hmem
  | opOr hword hop hleft hright ihleft ihright =>
    obtain ⟨-, rfl, -⟩ := hword
    cases List.mem_append.mp htest with
    | inl hmem => exact ihleft (h.orLeft hleft hright) hmem
    | inr hmem => exact ihright (h.orRight hleft hright) hmem
  | opNot hword hop hoperand ih =>
    obtain ⟨-, rfl, -⟩ := hword
    exact ih h.not htest
  | genericFalse hword hop hflag hsized => cases htest
  | genericSkip hword hop hfalse hflag hsized hrest ih =>
    obtain ⟨-, rfl, -⟩ := hword
    have hstop := hsized.stop_eq
    subst hstop
    exact ih h.skip htest

theorem reads_sized {length stop : Nat} (h : SizedAt req start length stop) :
    Reads (Reader.get req 4 >>= Reader.skip req) start () stop := by
  apply (reads_get h.count (by decide)).followed
  have hinside := h.inside
  rw [h.stop_eq] at hinside ⊢
  exact reads_skip (h.count.length_eq (by decide)) hinside

theorem eval_eq {word mid depth : Nat} (hword : NumberAt req 4 start word mid) :
    eval services req ctx (depth + 2) start =
      evalOp services req ctx (eval services req ctx (depth + 1)) word mid := by
  rw [eval, if_neg (Nat.succ_ne_zero depth)]
  exact bind_of_reads (reads_get hword (by decide))

theorem evalOp_test {nested : Scan OSStatus Bool} {word : Nat} {test : Test}
    (hop : ExprOp.ofWord word = some test.op) :
    evalOp services req ctx nested word = evalTest services req ctx test.op := by
  rw [evalOp, hop]
  cases test with
  | certField field => cases field <;> rfl
  | _ => rfl

/-- Where every test is supported, the interpreter is aligned at any depth that suffices. -/
theorem yields_eval {expr : Expr} {stop depth : Nat} (hat : expr.At req start stop)
    (hdepth : expr.height < depth) (hsupported : ∀ test ∈ expr.tests, test.Supported services ctx) :
    Yields (eval services req ctx depth) start (expr.denote services ctx) stop := by
  induction hat generalizing depth with
  | test hword hop hoperands =>
    obtain ⟨depth, rfl⟩ : ∃ n, depth = n + 2 := ⟨depth - 2, by rw [Expr.height] at hdepth; omega⟩
    rw [Yields, eval_eq hword, evalOp_test hop]
    exact yields_evalTest hoperands (hsupported _ (List.mem_singleton_self _))
  | opAnd hword hop hleft hright ihleft ihright | opOr hword hop hleft hright ihleft ihright =>
    rw [Expr.height] at hdepth
    obtain ⟨depth, rfl⟩ : ∃ n, depth = n + 2 := ⟨depth - 2, by omega⟩
    have hfirst := @ihleft (depth + 1) (by omega)
      fun test htest => hsupported test (List.mem_append_left _ htest)
    have hsecond := @ihright (depth + 1) (by omega)
      fun test htest => hsupported test (List.mem_append_right _ htest)
    rw [Yields, eval_eq hword, evalOp, hop]
    exact hfirst.bind fun _ => hsecond.bind fun _ => yields_pure _ _
  | opNot hword hop hoperand ih =>
    rw [Expr.height] at hdepth
    obtain ⟨depth, rfl⟩ : ∃ n, depth = n + 2 := ⟨depth - 2, by omega⟩
    rw [Yields, eval_eq hword, evalOp, hop]
    exact (@ih (depth + 1) (by omega) hsupported).bind fun _ => yields_pure _ _
  | genericFalse hword hop hflag hsized =>
    rw [Expr.height] at hdepth
    obtain ⟨depth, rfl⟩ : ∃ n, depth = n + 2 := ⟨depth - 2, by omega⟩
    rw [Yields, eval_eq hword, evalOp, hop]
    simp only [if_pos hflag]
    exact (reads_sized hsized).bind (yields_pure _ _)
  | genericSkip hword hop hfalse hflag hsized hrest ih =>
    rw [Expr.height] at hdepth
    obtain ⟨depth, rfl⟩ : ∃ n, depth = n + 2 := ⟨depth - 2, by omega⟩
    rw [Yields, eval_eq hword, evalOp, hop]
    simp only [hfalse, ne_eq, not_true_eq_false, if_false, if_pos hflag]
    exact (reads_sized hsized).bind (@ih (depth + 1) (by omega) hsupported)
end Expressions

/-- Every evaluation of an expression inside of the program, at the depth that it is made at,
takes exactly the octets of that expression and comes to what it means, and so does the whole. -/
structure Aligned (services : Services Certificate) (req : List UInt8) (ctx : Context Certificate)
    (expr : Expr) (stop : Nat) : Prop where
  consumes : ∀ level sub p q, Occurs req expr size stop level sub p q →
    Yields (eval services req ctx (stackLimit - level)) p (sub.denote services ctx) q
  validates : Requirement.validates services req ctx =
    (some (expr.denote services ctx) : Option (Except OSStatus Bool))

theorem validates_eq {services : Services Certificate} {req : List UInt8}
    {ctx : Context Certificate} {result : Except OSStatus Bool} {stop : Nat}
    (hkind : kind req = some exprForm)
    (h : Yields (eval services req ctx stackLimit) size result stop) :
    validates services req ctx = (some result : Option (Except OSStatus Bool)) := by
  rw [Yields] at h
  simp only [validates, hkind, if_true, evaluate, h, bind, ExceptT.bind, ExceptT.mk,
    ExceptT.bindCont, Option.bind]
  cases result <;> rfl

/-- A requirement of an expression that is not nested too deeply is evaluated in step with its
program exactly in the contexts that have what its tests take for granted. -/
theorem aligned_iff (services : Services Certificate) (req : List UInt8)
    (ctx : Context Certificate) (expr : Expr) (stop : Nat) (hkind : kind req = some exprForm)
    (hat : expr.At req size stop) (hdepth : expr.height < stackLimit) :
    Aligned services req ctx expr stop ↔ ∀ test ∈ expr.tests, test.Supported services ctx := by
  constructor
  · intro haligned test htest
    obtain ⟨level, p, q, hoccurs⟩ := exists_occurs hat .root htest
    obtain ⟨hstands, hheight, -⟩ := hoccurs.stands hat
    have hyields := haligned.consumes level _ p q hoccurs
    cases hstands with
    | test hword hop hoperands =>
      have hlevel : level < expr.height := by
        rw [Expr.height] at hheight
        omega
      obtain ⟨depth, hdepthEq⟩ : ∃ n, stackLimit - level = n + 2 :=
        ⟨stackLimit - level - 2, by omega⟩
      rw [Yields, hdepthEq, eval_eq hword, evalOp_test hop] at hyields
      exact supported_of_yields hoperands hyields
  · intro hsupported
    have hconsumes : ∀ level sub p q, Occurs req expr size stop level sub p q →
        Yields (eval services req ctx (stackLimit - level)) p (sub.denote services ctx) q := by
      intro level sub p q hoccurs
      obtain ⟨hstands, hheight, htests⟩ := hoccurs.stands hat
      exact yields_eval hstands (by omega) fun test htest => hsupported test (htests test htest)
    exact ⟨hconsumes, validates_eq hkind (hconsumes 0 expr size stop .root)⟩

def bareServices : Services Unit where
  makeCFString octets := .ok (octets.map fun octet => UInt16.ofNat octet.toNat)
  stringFind value string location length := decide (string <:+: (value.drop location).take length)
  compareNumerically _ _ := .eq
  dateCreate seconds := seconds
  octets _ := []
  sha1 _ := List.replicate 20 0
  sha256Digest _ := none
  subjectAttribute _ _ := none
  emailAddresses _ := none
  hasField _ _ := false
  fieldDate _ _ := none
  hasPolicy _ _ := false
  isAppleCA _ := false
  cdhashInTrustcache _ := false
  csrAllowAppleInternal := false
  additionalTrustedAnchors := none
  trustSettingsEvaluate _ _ := .ok none
  fragment _ _ _ := .ok false
  ticketLookup _ _ := false
  developerIDDate _ := .error errSecMissingRequiredExtension
  accountCreationCutOff := 0
  secureTimestampCutOff := 0
  legacyCheck _ _ _ := false

def bareContext (directory : Option Directory) : Context Unit where
  certs := none
  info := none
  entitlements := none
  directory := directory
  packageChecksum := none
  packageAlgorithm := 0
  forcePlatform := false
  secureTimestamp := none
  teamIdentifier := none

def identOrNever : List UInt8 :=
  Memory.toBE 4 typeMagic ++ Memory.toBE 4 32 ++ Memory.toBE 4 exprForm ++ Memory.toBE 4 7 ++
    Memory.toBE 4 2 ++ Memory.toBE 4 1 ++ [97, 0, 0, 0] ++ Memory.toBE 4 0

theorem identOrNever_number (start value : Nat)
    (h : Memory.loadBE identOrNever start 4 = some value ∧
      start + 4 ≤ BlobCore.extent identOrNever) :
    NumberAt identOrNever 4 start value (start + 4) := ⟨h.1, rfl, h.2⟩

theorem identOrNever_at : Expr.At identOrNever
    (.opOr (.test (.opIdent [97])) (.test .opFalse)) size 32 := by
  refine .opOr (identOrNever_number 12 7 (by decide)) rfl
    (.test (identOrNever_number 16 2 (by decide)) rfl (?_ : DataAt identOrNever 20 [97] 28))
    (.test (identOrNever_number 28 0 (by decide)) rfl rfl)
  exact ⟨identOrNever_number 20 1 (by decide), by decide, by decide, rfl, by decide⟩

theorem aligned_iff_sample : Aligned bareServices identOrNever
    (bareContext (some ⟨[98], .ok [], 0, 1⟩))
    (.opOr (.test (.opIdent [97])) (.test .opFalse)) 32 := by
  apply (aligned_iff _ _ _ _ _ (by decide) identOrNever_at (by decide)).mpr
  intro test htest
  cases htest with
  | head => simp [Test.Supported, bareContext]
  | tail _ htest =>
    obtain rfl := List.mem_singleton.mp htest
    trivial

/-- Without a directory the length of the identifier is taken for an operator, and a requirement
that means false is met. -/
theorem ident_misaligned :
    kind identOrNever = some exprForm ∧
      Expr.At identOrNever (.opOr (.test (.opIdent [97])) (.test .opFalse)) size 32 ∧
      validates bareServices identOrNever (bareContext none) =
        (some (.ok true) : Option (Except OSStatus Bool)) ∧
      Expr.denote bareServices (bareContext none)
        (.opOr (.test (.opIdent [97])) (.test .opFalse)) = .ok false ∧
      ¬Aligned bareServices identOrNever (bareContext none)
        (.opOr (.test (.opIdent [97])) (.test .opFalse)) 32 := by
  have hvalidates : validates bareServices identOrNever (bareContext none) =
      (some (.ok true) : Option (Except OSStatus Bool)) := by
    have hleft : Reads (eval bareServices identOrNever (bareContext none) 999) 16 false 20 := by
      rw [Reads, eval_eq (identOrNever_number 16 2 (by decide))]
      rfl
    have hright : Reads (eval bareServices identOrNever (bareContext none) 999) 20 true 24 := by
      rw [Reads, eval_eq (identOrNever_number 20 1 (by decide))]
      rfl
    apply @validates_eq _ _ _ _ (.ok true) 24 (by decide)
    rw [Yields, stackLimit, size, eval_eq (identOrNever_number 12 7 (by decide))]
    exact hleft.followed (hright.followed rfl)
  have hdenote : Expr.denote bareServices (bareContext none)
      (.opOr (.test (.opIdent [97])) (.test .opFalse)) = .ok false := rfl
  refine ⟨by decide, identOrNever_at, hvalidates, hdenote, ?_⟩
  intro haligned
  have hresult := haligned.validates
  rw [hvalidates, hdenote] at hresult
  cases hresult
end Requirement
end SecurityFramework
