import SecurityFramework.CodeSigning.LiteralAgreement

/-! # Literals are compiled to what they denote -/

namespace SecurityFramework
namespace RequirementParser
open RequirementLexer Requirement

/-- What the parser makes of a text is what the literals denote. -/
def CompiledAsDenoted (host : Host) (start : Rule) (text : List UInt8) : Prop :=
  ∀ result, Accepts .parser host start text result → Accepts .denoted host start text result

/-- Every number of the text is in its range, and every date is one. -/
def TextFine (text : List UInt8) : Prop :=
  ∀ tokens ∈ lex text, LiteralsFine .requirementType tokens

section Texts

variable {host : Host} {start : Rule} {text : List UInt8} {result : Result}

theorem Accepts.textFine (h : Accepts .denoted host start text result) : TextFine text := by
  obtain ⟨tokens, hlex, fuel, hrun⟩ := h
  intro tokens' hlex'
  obtain rfl := Option.some.inj (hlex.symm.trans hlex')
  have hrule : Agree .requirementType .requirementType (rule .parser host fuel start)
      (rule .denoted host fuel start) tokens := agree_rule host fuel start
  have hagree := hrule result []
  exact (hagree.2 (hagree.1 hrun)).mpr ⟨hrun, trivial⟩

theorem Accepts.denoted (h : Accepts .parser host start text result) (hfine : TextFine text) :
    Accepts .denoted host start text result := by
  obtain ⟨tokens, hlex, fuel, hrun⟩ := h
  have hrule : Agree .requirementType .requirementType (rule .parser host fuel start)
      (rule .denoted host fuel start) tokens := agree_rule host fuel start
  have hagree := hrule result []
  exact ⟨tokens, hlex, fuel, ((hagree.2 hrun).mp (hfine tokens hlex)).1⟩

/-- Of an accepted text the literals are compiled to what they denote just when they are fine. -/
theorem compiledAsDenoted_iff (h : Accepts .parser host start text result) :
    CompiledAsDenoted host start text ↔ TextFine text := by
  constructor
  · intro hcompiled
    exact (hcompiled result h).textFine
  · intro hfine result' h'
    exact h'.denoted hfine
end Texts

def Host.withoutFiles : Host := ⟨fun _ => none⟩

def sampleText : List UInt8 :=
  ascii "host => certificate -1 trusted; 7 => info[a] > timestamp \"20200101000000Z\""

def sampleResult : Result :=
  .requirements
    [(1, [250, 222, 12, 0, 0, 0, 0, 20, 0, 0, 0, 1, 0, 0, 0, 12, 255, 255, 255, 255]),
      (7, [250, 222, 12, 0, 0, 0, 0, 36, 0, 0, 0, 1, 0, 0, 0, 10, 0, 0, 0, 1, 97, 0, 0, 0,
        0, 0, 0, 11, 0, 0, 0, 0, 35, 188, 24, 128])]

theorem accepts_sampleText :
    Accepts .parser .withoutFiles .requirementSet sampleText sampleResult := by
  refine ⟨[.LITERAL .host, .ARROW, .LITERAL .certificate, .NEG,
    .INTEGER ⟨ascii "1", by decide, by decide +kernel⟩, .LITERAL .trusted, .SEMI,
    .INTEGER ⟨ascii "7", by decide, by decide +kernel⟩, .ARROW, .LITERAL .info, .LBRACK,
    .DOTKEY (ascii "a"), .RBRACK, .GT, .LITERAL .timestamp,
    .STRING (ascii "20200101000000Z")], ?_, 6, ?_⟩
  · decide +kernel
  · decide +kernel

theorem compiledAsDenoted_sampleText :
    CompiledAsDenoted .withoutFiles .requirementSet sampleText ↔ TextFine sampleText :=
  compiledAsDenoted_iff accepts_sampleText

theorem never_denotes_no_time : ¬ DenotesTime ASN1_GENERALIZED_TIME (ascii "never") := by
  intro h
  obtain ⟨time, zone, hdenotes, hvalid⟩ := h
  have hfails :
      (SecAbsoluteTimeFromDateContentWithError ASN1_GENERALIZED_TIME (ascii "never")).2 = true := by
    decide
  rw [hdenotes.dateContent hvalid] at hfails
  cases hfails

/-- A slot of 2 ^ 32 becomes slot 0, and a text that is no time the start of 2001. -/
theorem wrapped_slot_and_no_time :
    (Accepts .parser .withoutFiles .requirement (ascii "certificate 4294967296 trusted")
        (.requirement
          [250, 222, 12, 0, 0, 0, 0, 20, 0, 0, 0, 1, 0, 0, 0, 12, 0, 0, 0, 0]) ∧
      ¬ CompiledAsDenoted .withoutFiles .requirement (ascii "certificate 4294967296 trusted")) ∧
    Accepts .parser .withoutFiles .requirement (ascii "info[a] = timestamp \"never\"")
        (.requirement [250, 222, 12, 0, 0, 0, 0, 36, 0, 0, 0, 1, 0, 0, 0, 10, 0, 0, 0, 1, 97, 0,
          0, 0, 0, 0, 0, 9, 0, 0, 0, 0, 0, 0, 0, 0]) ∧
      ¬ CompiledAsDenoted .withoutFiles .requirement (ascii "info[a] = timestamp \"never\"") := by
  have hslot : lex (ascii "certificate 4294967296 trusted") =
      some [.LITERAL .certificate, .INTEGER ⟨ascii "4294967296", by decide, by decide +kernel⟩,
        .LITERAL .trusted] := by decide +kernel
  have hdate : lex (ascii "info[a] = timestamp \"never\"") =
      some [.LITERAL .info, .LBRACK, .DOTKEY (ascii "a"), .RBRACK, .EQL, .LITERAL .timestamp,
        .STRING (ascii "never")] := by decide +kernel
  have haccepts : Accepts .parser .withoutFiles .requirement (ascii "certificate 4294967296 trusted")
      (.requirement [250, 222, 12, 0, 0, 0, 0, 20, 0, 0, 0, 1, 0, 0, 0, 12, 0, 0, 0, 0]) :=
    ⟨_, hslot, 4, by decide +kernel⟩
  have haccepts' : Accepts .parser .withoutFiles .requirement
      (ascii "info[a] = timestamp \"never\"")
      (.requirement [250, 222, 12, 0, 0, 0, 0, 36, 0, 0, 0, 1, 0, 0, 0, 10, 0, 0, 0, 1, 97, 0,
        0, 0, 0, 0, 0, 9, 0, 0, 0, 0, 0, 0, 0, 0]) :=
    ⟨_, hdate, 4, by decide +kernel⟩
  refine ⟨⟨haccepts, fun hcompiled => ?_⟩, haccepts', fun hcompiled => ?_⟩
  · have hfine : decimal ⟨ascii "4294967296", _, _⟩ < 2 ^ 31 :=
      ((hcompiled _ haccepts).textFine _ hslot).2.1
    exact absurd hfine (by decide +kernel)
  · exact never_denotes_no_time
      ((hcompiled _ haccepts').textFine _ hdate).2.2.2.2.2.2.1
end RequirementParser
end SecurityFramework
