import SecurityFramework.CodeSigning.LiteralDenotation

/-! # Two readings of a text -/

namespace SecurityFramework
namespace RequirementParser
open RequirementLexer Requirement

/-- The second parser accepts only what the first does. It accepts what the first accepts just when
the literals between are fine. -/
def Agree {α : Type} (first last : Expected) (code exact : Parse α) (tokens : List Token) : Prop :=
  ∀ value rest, (exact tokens = some (value, rest) → code tokens = some (value, rest)) ∧
    (code tokens = some (value, rest) →
      (LiteralsFine first tokens ↔ exact tokens = some (value, rest) ∧ LiteralsFine last rest))

section Agreement

variable {α β : Type} {first mid last : Expected} {tokens : List Token}

theorem Agree.pure (value : α) : Agree first first (pure value) (pure value) tokens := by
  intro value' rest
  refine ⟨id, ?_⟩
  intro hcode
  obtain ⟨rfl, rfl⟩ := Prod.mk.inj (Option.some.inj hcode)
  exact ⟨fun hfine => ⟨rfl, hfine⟩, fun h => h.2⟩

theorem Agree.reject : Agree first last (reject : Parse α) reject tokens := by
  intro value rest
  constructor
  · intro h
    cases h
  · intro h
    cases h

theorem bind_eq_some {p : Parse α} {f : α → Parse β} {value : β} {rest : List Token} :
    (p >>= f) tokens = some (value, rest) ↔
      ∃ middle after, p tokens = some (middle, after) ∧ f middle after = some (value, rest) := by
  change Option.bind (p tokens) (fun x => f x.1 x.2) = _ ↔ _
  rw [Option.bind_eq_some_iff]
  constructor
  · rintro ⟨⟨middle, after⟩, hp, hf⟩
    exact ⟨middle, after, hp, hf⟩
  · rintro ⟨middle, after, hp, hf⟩
    exact ⟨⟨middle, after⟩, hp, hf⟩

theorem Agree.bind {code exact : Parse α} {codeNext exactNext : α → Parse β}
    (h : Agree first mid code exact tokens)
    (hnext : ∀ value rest, Agree mid last (codeNext value) (exactNext value) rest) :
    Agree first last (code >>= codeNext) (exact >>= exactNext) tokens := by
  intro value rest
  constructor
  · intro hexact
    obtain ⟨middle, after, hfirst, hlast⟩ := bind_eq_some.mp hexact
    exact bind_eq_some.mpr ⟨middle, after, (h middle after).1 hfirst,
      (hnext middle after value rest).1 hlast⟩
  · intro hcode
    obtain ⟨middle, after, hfirst, hlast⟩ := bind_eq_some.mp hcode
    rw [(h middle after).2 hfirst, (hnext middle after value rest).2 hlast]
    constructor
    · rintro ⟨hexact, hexactNext, hfine⟩
      exact ⟨bind_eq_some.mpr ⟨middle, after, hexact, hexactNext⟩, hfine⟩
    · rintro ⟨hexact, hfine⟩
      obtain ⟨middle', after', hexact', hexactNext⟩ := bind_eq_some.mp hexact
      -- what the exact parser accepted, the other one accepted too
      have hsame := hfirst.symm.trans ((h middle' after').1 hexact')
      obtain ⟨rfl, rfl⟩ := Prod.mk.inj (Option.some.inj hsame)
      exact ⟨hexact', hexactNext, hfine⟩

theorem Agree.look (k : Nat) {codeNext exactNext : Option Token → Parse α}
    (h : Agree first last (codeNext tokens[k - 1]?) (exactNext tokens[k - 1]?) tokens) :
    Agree first last (LA k >>= codeNext) (LA k >>= exactNext) tokens := h

theorem Agree.consumed {token : Token} (h : tokens[0]? = some token) (hfine : first.Fine token)
    (hnext : first.next token = last) : Agree first last consume consume tokens := by
  obtain ⟨later, rfl⟩ : ∃ later, tokens = token :: later := by
    cases tokens with
    | nil => cases h
    | cons other later => exact ⟨later, congrArg (· :: later) (Option.some.inj h)⟩
  intro value rest
  refine ⟨id, ?_⟩
  intro hcode
  obtain ⟨-, rfl⟩ := Prod.mk.inj (Option.some.inj hcode)
  rw [LiteralsFine, hnext]
  exact ⟨fun h => ⟨rfl, h.2⟩, fun h => ⟨hfine, h.2⟩⟩

theorem Agree.plain {token : Token} (h : tokens[0]? = some token)
    (hfine : Expected.requirementType.Fine token)
    (hnext : Expected.requirementType.next token = .requirementType) :
    Agree .requirementType .requirementType consume consume tokens :=
  Agree.consumed h hfine hnext

theorem lift_eq (value : Option α) :
    (StateT.lift value : Parse α) tokens = value.map fun value => (value, tokens) := by
  cases value <;> rfl

theorem Agree.lift (value : Option α) :
    Agree first first (StateT.lift value : Parse α) (StateT.lift value) tokens := by
  cases value with
  | none => exact Agree.reject
  | some value => exact Agree.pure value

theorem Agree.literal {code exact : Parse α} {token : Token} {later : List Token} {value : α}
    {denoted : Option α} (hcode : code (token :: later) = some (value, later))
    (hexact : exact (token :: later) = denoted.map fun value => (value, later))
    (hfine : first.Fine token ↔ denoted = some value) (honly : ∀ v ∈ denoted, v = value)
    (hnext : first.next token = last) : Agree first last code exact (token :: later) := by
  intro value' rest
  rw [hcode, hexact]
  constructor
  · intro hsome
    obtain ⟨v, hv, hpair⟩ := Option.map_eq_some_iff.mp hsome
    obtain rfl := honly v hv
    rw [hpair]
  · intro hsome
    obtain ⟨rfl, rfl⟩ := Prod.mk.inj (Option.some.inj hsome)
    rw [LiteralsFine, hfine, hnext]
    constructor
    · intro h
      exact ⟨by rw [h.1]; rfl, h.2⟩
    · intro h
      obtain ⟨v, hv, -⟩ := Option.map_eq_some_iff.mp h.1
      obtain rfl := honly v hv
      exact ⟨hv, h.2⟩
end Agreement

section Rules

variable {first : Expected} {tokens : List Token}

theorem agree_expect (token : Token) (hfine : Expected.requirementType.Fine token) :
    Agree .requirementType (Expected.requirementType.next token) (expect token) (expect token)
      tokens := by
  refine Agree.look 1 ?_
  split
  case isTrue h => exact Agree.consumed h hfine rfl
  case isFalse => exact Agree.reject

theorem agree_eql (h : first.next .EQL = first) (h' : first.next .EQQL = first) :
    Agree first first eql eql tokens := by
  have hfine : first.Fine .EQL ∧ first.Fine .EQQL := by cases first <;> exact ⟨trivial, trivial⟩
  refine Agree.look 1 ?_
  split
  case h_1 hla => exact Agree.consumed hla hfine.1 h
  case h_2 hla => exact Agree.consumed hla hfine.2 h'
  case h_8 => exact Agree.reject
  all_goals exact Agree.pure ()

theorem agree_stringvalue :
    Agree .requirementType .requirementType stringvalue stringvalue tokens := by
  refine Agree.look 1 ?_
  split
  case h_1 hla => exact (Agree.plain hla trivial rfl).bind fun _ _ => Agree.pure _
  case h_2 hla => exact (Agree.plain hla trivial rfl).bind fun _ _ => Agree.pure _
  case h_3 => exact Agree.reject

theorem agree_pathstring :
    Agree .requirementType .requirementType pathstring pathstring tokens := by
  refine Agree.look 1 ?_
  split
  case h_1 hla => exact (Agree.plain hla trivial rfl).bind fun _ _ => Agree.pure _
  case h_2 hla => exact (Agree.plain hla trivial rfl).bind fun _ _ => Agree.pure _
  case h_3 hla => exact (Agree.plain hla trivial rfl).bind fun _ _ => Agree.pure _
  case h_4 => exact Agree.reject

theorem agree_bracketKey :
    Agree .requirementType .requirementType bracketKey bracketKey tokens :=
  (agree_expect .LBRACK trivial).bind fun _ _ => agree_stringvalue.bind fun _ _ =>
    (agree_expect .RBRACK trivial).bind fun _ _ => Agree.pure _

theorem agree_hash :
    Agree .requirementType .requirementType (hash .parser) (hash .denoted) tokens := by
  refine Agree.look 1 ?_
  split
  case h_1 hla =>
    refine (Agree.plain hla trivial rfl).bind fun _ _ => ?_
    rw [parser_hex]
    split
    case isTrue => exact Agree.reject
    case isFalse => exact Agree.lift _
  case h_2 => exact Agree.reject

theorem agree_certificateDigest (host : Host) :
    Agree .requirementType .requirementType (certificateDigest .parser host)
      (certificateDigest .denoted host) tokens := by
  refine Agree.look 1 ?_
  split
  case h_1 => exact agree_hash
  case h_5 => exact Agree.reject
  all_goals exact agree_pathstring.bind fun _ _ => Agree.lift _

theorem agree_datavalue :
    Agree .requirementType .requirementType (datavalue .parser) (datavalue .denoted) tokens := by
  refine Agree.look 1 ?_
  split
  case h_3 hla =>
    refine (Agree.plain hla trivial rfl).bind fun _ _ => ?_
    rw [parser_hex]
    exact Agree.lift _
  case h_4 => exact Agree.reject
  all_goals exact agree_stringvalue

theorem agree_timestamp :
    Agree .requirementType .requirementType (timestamp .parser) (timestamp .denoted) tokens := by
  refine (agree_expect (word .timestamp) trivial).bind fun _ later => ?_
  cases later with
  | nil => exact Agree.reject
  | cons token later =>
    cases token with
    | STRING text =>
      have hdenoted : ∀ seconds, denotedTime text = some seconds →
          seconds = (SecAbsoluteTimeFromDateContentWithError ASN1_GENERALIZED_TIME text).1 :=
        fun seconds h => (denotedTime_eq_some_iff.mp h).2.symm
      refine Agree.literal rfl (lift_eq (denotedTime text)) ?_ hdenoted rfl
      rw [denotedTime_eq_some_iff]
      exact (and_iff_left rfl).symm
    | _ => exact Agree.reject

/-- A number as it is and as it denotes, where the range is that of its place. -/
theorem agree_number {α : Type} {expected : Expected} {code : BitVec 32 → Option α}
    {exact : Int → Option α} {value : Digits → α}
    (hcode : ∀ digits, code (LiteralReading.parser.integer digits) = some (value digits))
    (honly : ∀ digits, ∀ v ∈ exact (decimal digits), v = value digits)
    (hfine : ∀ digits, expected.Fine (.INTEGER digits) ↔
      exact (decimal digits) = some (value digits))
    (hnext : ∀ digits, expected.next (.INTEGER digits) = .requirementType) :
    Agree expected .requirementType
      (integer .parser >>= fun number => StateT.lift (code number))
      (integer .denoted >>= fun number => StateT.lift (exact number)) tokens := by
  cases tokens with
  | nil => exact Agree.reject
  | cons token later =>
    cases token with
    | INTEGER digits =>
      refine Agree.literal ?_ (lift_eq (exact (decimal digits))) (hfine digits) (honly digits)
        (hnext digits)
      change (StateT.lift (code (LiteralReading.parser.integer digits)) : Parse α) later = _
      rw [hcode, lift_eq]
      rfl
    | _ => exact Agree.reject

theorem parser_integer (digits : Digits) : LiteralReading.parser.integer digits =
    BitVec.ofNat 32 (min (decimal digits) (2 ^ 63 - 1)) := by
  change BitVec.ofNat 32 (atol (cString digits.text)) = _
  rw [atol_eq]

theorem toInt32_denoted {number v : Int} : LiteralReading.denoted.toInt32 number = some v ↔
    (-2 ^ 31 ≤ number ∧ number < 2 ^ 31) ∧ number = v := by
  have hdef : LiteralReading.denoted.toInt32 number =
      if -2 ^ 31 ≤ number ∧ number < 2 ^ 31 then some number else none := rfl
  rw [hdef, Option.ite_none_right_eq_some, Option.some.injEq]

theorem toUInt32_denoted {number : Int} {v : UInt32} :
    LiteralReading.denoted.toUInt32 number = some v ↔
      (0 ≤ number ∧ number < 2 ^ 32) ∧ UInt32.ofNat number.toNat = v := by
  have hdef : LiteralReading.denoted.toUInt32 number =
      if 0 ≤ number ∧ number < 2 ^ 32 then some (UInt32.ofNat number.toNat) else none := rfl
  rw [hdef, Option.ite_none_right_eq_some, Option.some.injEq]

theorem agree_slot :
    Agree .slotOrPlatform .requirementType
      (integer .parser >>= fun slot => StateT.lift (LiteralReading.parser.toInt32 slot))
      (integer .denoted >>= fun slot => StateT.lift (LiteralReading.denoted.toInt32 slot))
      tokens := by
  have hparser : ∀ digits, decimal digits < 2 ^ 31 →
      BitVec.toInt (LiteralReading.parser.integer digits) = decimal digits := by
    intro digits hlt
    rw [parser_integer, toInt_ofNat_min hlt]
  refine agree_number (fun _ => rfl) ?_ ?_ fun _ => rfl
  · intro digits v hv
    obtain ⟨hrange, rfl⟩ := toInt32_denoted.mp hv
    exact (hparser digits (by omega)).symm
  · intro digits
    rw [toInt32_denoted]
    constructor
    · intro hlt
      have hlt' : decimal digits < 2 ^ 31 := hlt
      exact ⟨by omega, (hparser digits hlt').symm⟩
    · intro h
      change decimal digits < 2 ^ 31
      omega

theorem agree_negatedSlot :
    Agree .negatedSlot .requirementType
      (integer .parser >>= fun slot =>
        StateT.lift (LiteralReading.parser.toInt32 (LiteralReading.parser.neg slot)))
      (integer .denoted >>= fun slot =>
        StateT.lift (LiteralReading.denoted.toInt32 (LiteralReading.denoted.neg slot)))
      tokens := by
  have hparser : ∀ digits, decimal digits ≤ 2 ^ 31 →
      BitVec.toInt (LiteralReading.parser.neg (LiteralReading.parser.integer digits)) =
        -decimal digits := by
    intro digits hle
    rw [parser_integer]
    exact toInt_neg_ofNat_min hle
  refine agree_number (fun _ => rfl) ?_ ?_ fun _ => rfl
  · intro digits v hv
    change LiteralReading.denoted.toInt32 (-(decimal digits : Int)) = some v at hv
    obtain ⟨hrange, rfl⟩ := toInt32_denoted.mp hv
    exact (hparser digits (by omega)).symm
  · intro digits
    change _ ↔ LiteralReading.denoted.toInt32 (-(decimal digits : Int)) = _
    rw [toInt32_denoted]
    constructor
    · intro hle
      have hle' : decimal digits ≤ 2 ^ 31 := hle
      exact ⟨by omega, (hparser digits hle').symm⟩
    · intro h
      change decimal digits ≤ 2 ^ 31
      omega

theorem agree_requirementNumber :
    Agree .requirementType .requirementType
      (integer .parser >>= fun type => StateT.lift (LiteralReading.parser.toUInt32 type))
      (integer .denoted >>= fun type => StateT.lift (LiteralReading.denoted.toUInt32 type))
      tokens := by
  have hparser : ∀ digits, decimal digits < 2 ^ 32 →
      UInt32.ofBitVec (LiteralReading.parser.integer digits) = UInt32.ofNat (decimal digits) := by
    intro digits hlt
    rw [parser_integer]
    exact toUInt32_ofNat_min hlt
  refine agree_number (fun _ => rfl) ?_ ?_ fun _ => rfl
  · intro digits v hv
    obtain ⟨hrange, rfl⟩ := toUInt32_denoted.mp hv
    rw [Int.toNat_natCast]
    exact (hparser digits (by omega)).symm
  · intro digits
    rw [toUInt32_denoted, Int.toNat_natCast]
    constructor
    · intro hlt
      have hlt' : decimal digits < 2 ^ 32 := hlt
      exact ⟨by omega, (hparser digits hlt').symm⟩
    · intro h
      change decimal digits < 2 ^ 32
      omega

theorem agree_certSlot :
    Agree .slotOrPlatform .requirementType (certSlot .parser) (certSlot .denoted) tokens := by
  have hneg : Expected.slotOrPlatform.Fine .NEG := trivial
  have hword : ∀ literal, Expected.slotOrPlatform.Fine (.LITERAL literal) := fun _ => trivial
  refine Agree.look 1 ?_
  split
  case h_1 => exact agree_slot
  case h_2 hla => exact (Agree.consumed hla hneg rfl).bind fun _ _ => agree_negatedSlot
  case h_3 hla => exact (Agree.consumed hla (hword _) rfl).bind fun _ _ => Agree.pure _
  case h_4 hla => exact (Agree.consumed hla (hword _) rfl).bind fun _ _ => Agree.pure _
  case h_5 => exact Agree.reject

theorem agree_star : Agree .requirementType .requirementType star star tokens := by
  refine Agree.look 1 ?_
  split
  case isTrue hla => exact (Agree.plain hla trivial rfl).bind fun _ _ => Agree.pure _
  case isFalse => exact Agree.pure _

theorem agree_dataSuffix (maker : Maker) (mop : MatchOperation) :
    Agree .requirementType .requirementType (dataSuffix .parser maker mop)
      (dataSuffix .denoted maker mop) tokens :=
  agree_datavalue.bind fun _ _ => Agree.pure _

theorem agree_timestampSuffix (maker : Maker) (mop : MatchOperation) :
    Agree .requirementType .requirementType (timestampSuffix .parser maker mop)
      (timestampSuffix .denoted maker mop) tokens :=
  agree_timestamp.bind fun _ _ => Agree.pure _

theorem agree_starAfter (mop : MatchOperation) :
    Agree .requirementType .requirementType (starAfter mop) (starAfter mop) tokens := by
  refine agree_star.bind fun after _ => ?_
  split
  case isTrue => exact Agree.pure _
  case isFalse =>
    refine Agree.look 1 ?_
    split
    case isTrue => exact Agree.pure _
    case isFalse => exact Agree.reject

theorem agree_equalSuffix (maker : Maker) :
    Agree .requirementType .requirementType (equalSuffix .parser maker)
      (equalSuffix .denoted maker) tokens :=
  agree_star.bind fun _ _ => agree_datavalue.bind fun _ _ =>
    (agree_starAfter _).bind fun _ _ => Agree.pure _

theorem agree_equal (maker : Maker) {token : Token} (hla : tokens[0]? = some token)
    (hfine : Expected.requirementType.Fine token)
    (hnext : Expected.requirementType.next token = .requirementType) (second : Option Token) :
    Agree .requirementType .requirementType
      (if second = some .STAR ∨ isData second then do
        consume
        equalSuffix .parser maker
      else if second = some (word .timestamp) then do
        consume
        timestampSuffix .parser maker .matchOn
      else reject)
      (if second = some .STAR ∨ isData second then do
        consume
        equalSuffix .denoted maker
      else if second = some (word .timestamp) then do
        consume
        timestampSuffix .denoted maker .matchOn
      else reject) tokens := by
  have hconsume := Agree.plain hla hfine hnext
  split
  case isTrue => exact hconsume.bind fun _ _ => agree_equalSuffix maker
  case isFalse =>
    split
    case isTrue => exact hconsume.bind fun _ _ => agree_timestampSuffix maker .matchOn
    case isFalse => exact Agree.reject

theorem comparisons_plain {token : Token} {ops : MatchOperation × MatchOperation}
    (h : comparisons token = some ops) : Expected.requirementType.Fine token ∧
      Expected.requirementType.next token = .requirementType := by
  cases token with
  | LESS | GT | LE | GE => exact ⟨trivial, rfl⟩
  | _ => cases h

theorem agree_match_suffix (maker : Maker) :
    Agree .requirementType .requirementType (match_suffix .parser maker)
      (match_suffix .denoted maker) tokens := by
  refine Agree.look 1 ?_
  refine Agree.look 2 ?_
  split
  case h_1 hla => exact (Agree.plain hla trivial rfl).bind fun _ _ => Agree.pure _
  case h_2 hla => exact (Agree.plain hla trivial rfl).bind fun _ _ => Agree.pure _
  case h_3 hla => exact (Agree.plain hla trivial rfl).bind fun _ _ => agree_dataSuffix _ _
  case h_4 hla => exact agree_equal maker hla trivial rfl _
  case h_5 hla => exact agree_equal maker hla trivial rfl _
  case h_6 token _ _ _ _ _ hla =>
    split
    case h_1 hops =>
      have hconsume := Agree.plain hla (comparisons_plain hops).1 (comparisons_plain hops).2
      split
      case isTrue => exact hconsume.bind fun _ _ => agree_dataSuffix _ _
      case isFalse =>
        split
        case isTrue => exact hconsume.bind fun _ _ => agree_timestampSuffix _ _
        case isFalse => exact Agree.reject
    case h_2 =>
      split
      case isTrue => exact Agree.pure _
      case isFalse => exact Agree.reject
  case h_7 => exact Agree.pure _

variable (host : Host)

theorem agree_certslotspec (maker : Maker) (slot : Int) :
    Agree .requirementType .requirementType (certslotspec .parser host maker slot)
      (certslotspec .denoted host maker slot) tokens := by
  refine Agree.look 1 ?_
  split
  case h_7 =>
    exact agree_bracketKey.bind fun _ _ => (Agree.lift _).bind fun _ _ => agree_match_suffix _
  case h_8 => exact Agree.reject
  all_goals exact (agree_eql rfl rfl).bind fun _ _ =>
    (agree_certificateDigest host).bind fun _ _ => Agree.pure _

theorem agree_appleanchor (maker : Maker) :
    Agree .requirementType .requirementType (appleanchor maker) (appleanchor maker) tokens := by
  refine Agree.look 1 ?_
  split
  case h_1 hla => exact (Agree.plain hla trivial rfl).bind fun _ _ => Agree.pure _
  case h_2 => exact agree_stringvalue.bind fun _ _ => Agree.pure _
  case h_3 => exact agree_stringvalue.bind fun _ _ => Agree.pure _
  case h_4 =>
    split
    case isTrue => exact Agree.pure _
    case isFalse => exact Agree.reject

theorem agree_certificatespec (maker : Maker) :
    Agree .slotOrPlatform .requirementType (certificatespec .parser host maker)
      (certificatespec .denoted host maker) tokens := by
  have hword : Expected.slotOrPlatform.Fine (.LITERAL .trusted) := trivial
  refine Agree.look 1 ?_
  split
  case h_1 hla => exact (Agree.consumed hla hword rfl).bind fun _ _ => Agree.pure _
  case h_2 =>
    refine agree_certSlot.bind fun slot _ => ?_
    refine Agree.look 1 ?_
    split
    case isTrue hla => exact (Agree.plain hla trivial rfl).bind fun _ _ => Agree.pure _
    case isFalse => exact agree_certslotspec host maker slot

theorem agree_anchorspec (maker : Maker) :
    Agree .requirementType .requirementType (anchorspec .parser host maker)
      (anchorspec .denoted host maker) tokens := by
  refine Agree.look 1 ?_
  split
  case h_1 hla => exact (Agree.plain hla trivial rfl).bind fun _ _ => agree_appleanchor maker
  case h_2 hla =>
    exact (Agree.plain hla trivial rfl).bind fun _ _ =>
      (agree_expect (word .apple) trivial).bind fun _ _ => Agree.pure _
  case h_3 hla => exact (Agree.plain hla trivial rfl).bind fun _ _ => Agree.pure _
  case h_4 => exact agree_certslotspec host maker anchorCert

theorem agree_primaryWord (maker : Maker) (literal : Literal) :
    Agree (Expected.requirementType.next (.LITERAL literal)) .requirementType
      (primaryWord .parser host maker literal) (primaryWord .denoted host maker literal)
      tokens := by
  cases literal with
  | always | true | never | false | notarized | legacy => exact Agree.pure _
  | certificate | cert => exact agree_certificatespec host maker
  | anchor => exact agree_anchorspec host maker
  | info | entitlement => exact agree_bracketKey.bind fun _ _ => agree_match_suffix _
  | identifier =>
    exact (agree_eql rfl rfl).bind fun _ _ => agree_stringvalue.bind fun _ _ => Agree.pure _
  | cdhash => exact (agree_eql rfl rfl).bind fun _ _ => agree_hash.bind fun _ _ => Agree.pure _
  | platform =>
    refine (agree_eql rfl rfl).bind fun _ _ => ?_
    simp only [← bind_assoc]
    exact agree_slot.bind fun _ _ => Agree.pure _
  | _ => exact Agree.reject

theorem agree_expressions (fuel : Nat) : ∀ (maker : Maker) (label : Nat) (tokens : List Token),
    Agree .requirementType .requirementType (expr .parser host fuel maker)
      (expr .denoted host fuel maker) tokens ∧
    Agree .requirementType .requirementType (orTerms .parser host fuel label maker)
      (orTerms .denoted host fuel label maker) tokens ∧
    Agree .requirementType .requirementType (term .parser host fuel maker)
      (term .denoted host fuel maker) tokens ∧
    Agree .requirementType .requirementType (andPrimaries .parser host fuel label maker)
      (andPrimaries .denoted host fuel label maker) tokens ∧
    Agree .requirementType .requirementType (primary .parser host fuel maker)
      (primary .denoted host fuel maker) tokens := by
  induction fuel with
  | zero =>
    intro maker label tokens
    exact ⟨Agree.reject, Agree.reject, Agree.reject, Agree.reject, Agree.reject⟩
  | succ fuel ih =>
    intro maker label tokens
    have hexpr := fun maker tokens => (ih maker 0 tokens).1
    have horTerms := fun maker label tokens => (ih maker label tokens).2.1
    have hterm := fun maker tokens => (ih maker 0 tokens).2.2.1
    have handPrimaries := fun maker label tokens => (ih maker label tokens).2.2.2.1
    have hprimary := fun maker tokens => (ih maker 0 tokens).2.2.2.2
    refine ⟨?_, ?_, ?_, ?_, ?_⟩
    · exact (hterm maker tokens).bind fun _ _ => horTerms _ _ _
    · refine Agree.look 1 ?_
      split
      case isTrue hla =>
        exact (Agree.plain hla trivial rfl).bind fun _ _ =>
          (hterm _ _).bind fun _ _ => horTerms _ _ _
      case isFalse => exact Agree.pure _
    · exact (hprimary maker tokens).bind fun _ _ => handPrimaries _ _ _
    · refine Agree.look 1 ?_
      split
      case isTrue hla =>
        exact (Agree.plain hla trivial rfl).bind fun _ _ =>
          (hprimary _ _).bind fun _ _ => handPrimaries _ _ _
      case isFalse => exact Agree.pure _
    · refine Agree.look 1 ?_
      split
      case h_1 hla => exact (Agree.plain hla trivial rfl).bind fun _ _ => hprimary _ _
      case h_2 literal hla =>
        have hfine : Expected.requirementType.Fine (.LITERAL literal) := trivial
        exact (Agree.consumed hla hfine rfl).bind fun _ _ => agree_primaryWord host maker literal
      case h_3 hla =>
        have hconsume := Agree.plain hla trivial rfl
        refine Agree.look 2 ?_
        split
        case isTrue =>
          exact hconsume.bind fun _ _ => (hexpr _ _).bind fun _ _ =>
            (agree_expect .RPAREN trivial).bind fun _ _ => Agree.pure _
        case isFalse =>
          exact hconsume.bind fun _ _ => agree_stringvalue.bind fun _ _ =>
            (agree_expect .RPAREN trivial).bind fun _ _ => Agree.pure _
      case h_4 => exact Agree.reject

theorem literalsFine_dropWhile (tokens : List Token) :
    LiteralsFine .requirementType tokens ↔
      LiteralsFine .requirementType (tokens.dropWhile (· = .SEMI)) := by
  induction tokens with
  | nil => exact Iff.rfl
  | cons token tokens ih =>
    by_cases hsemi : token = .SEMI
    · subst hsemi
      rw [List.dropWhile_cons_of_pos (by decide), ← ih]
      exact ⟨fun h => h.2, fun h => ⟨trivial, h⟩⟩
    · rw [List.dropWhile_cons_of_neg (by simpa using hsemi)]

theorem agree_fluff : Agree .requirementType .requirementType fluff fluff tokens := by
  intro value rest
  refine ⟨id, ?_⟩
  intro hcode
  obtain ⟨-, rfl⟩ := Prod.mk.inj (Option.some.inj hcode)
  rw [← literalsFine_dropWhile]
  exact ⟨fun h => ⟨rfl, h⟩, fun h => h.2⟩

theorem agree_requirementElement (fuel : Nat) :
    Agree .requirementType .requirementType (requirementElement .parser host fuel)
      (requirementElement .denoted host fuel) tokens :=
  (agree_expressions host fuel .empty 0 tokens).1.bind fun _ _ =>
    agree_fluff.bind fun _ _ => Agree.pure _

theorem agree_endOfText :
    Agree .requirementType .requirementType endOfText endOfText tokens := by
  intro value rest
  refine ⟨id, ?_⟩
  intro hcode
  cases tokens with
  | nil =>
    obtain ⟨-, rfl⟩ := Prod.mk.inj (Option.some.inj hcode)
    exact ⟨fun h => ⟨rfl, h⟩, fun h => h.2⟩
  | cons token tokens => cases hcode

theorem agree_requirement (fuel : Nat) :
    Agree .requirementType .requirementType (requirement .parser host fuel)
      (requirement .denoted host fuel) tokens :=
  (agree_requirementElement host fuel).bind fun _ _ =>
    agree_endOfText.bind fun _ _ => Agree.pure _

theorem agree_requirementType :
    Agree .requirementType .requirementType (requirementType .parser) (requirementType .denoted)
      tokens := by
  refine Agree.look 1 ?_
  split
  case h_6 => exact agree_requirementNumber
  case h_7 => exact Agree.reject
  all_goals
    rename_i hla
    exact (Agree.plain hla trivial rfl).bind fun _ _ => Agree.pure _

theorem agree_elements (fuel : Nat) : ∀ (maker : SuperBlobCore.Maker) (tokens : List Token),
    Agree .requirementType .requirementType (elements .parser host fuel maker)
      (elements .denoted host fuel maker) tokens := by
  induction fuel with
  | zero => exact fun _ _ => Agree.reject
  | succ fuel ih =>
    intro maker tokens
    refine agree_requirementType.bind fun type _ => ?_
    refine (agree_expect .ARROW trivial).bind fun _ _ => ?_
    refine (agree_requirementElement host fuel).bind fun req _ => ?_
    refine Agree.look 1 ?_
    split
    case isTrue => exact ih _ _
    case isFalse => exact Agree.pure _

theorem agree_requirementSet (fuel : Nat) :
    Agree .requirementType .requirementType (requirementSet .parser host fuel)
      (requirementSet .denoted host fuel) tokens :=
  (agree_elements host fuel ∅ tokens).bind fun _ _ =>
    agree_endOfText.bind fun _ _ => Agree.pure _

theorem agree_autosense (fuel : Nat) :
    Agree .requirementType .requirementType (autosense .parser host fuel)
      (autosense .denoted host fuel) tokens := by
  refine Agree.look 1 ?_
  split
  case isTrue => exact (agree_requirement host fuel).bind fun _ _ => Agree.pure _
  case isFalse =>
    split
    case isTrue => exact (agree_requirementSet host fuel).bind fun _ _ => Agree.pure _
    case isFalse => exact Agree.reject

theorem agree_rule (fuel : Nat) (start : Rule) :
    Agree .requirementType .requirementType (rule .parser host fuel start)
      (rule .denoted host fuel start) tokens := by
  cases start with
  | requirement => exact (agree_requirement host fuel).bind fun _ _ => Agree.pure _
  | requirementSet => exact (agree_requirementSet host fuel).bind fun _ _ => Agree.pure _
  | autosense => exact agree_autosense host fuel
end Rules
end RequirementParser
end SecurityFramework
