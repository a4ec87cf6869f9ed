import SecurityFramework.CodeSigning.ResourceRules
import SecurityFramework.Library.Extrema

/-! # The order of resource rules -/

namespace SecurityFramework
open FirstMaximum

namespace ResourceBuilder
variable {ρ : Type} {regcomp : String → Option ρ} {regexec : ρ → String → Option Bool}

theorem flags_of_create {pattern : String} {weight flags : UInt32} {rule : Rule ρ}
    (h : Rule.create regcomp pattern weight flags = .ok rule) : rule.flags = flags := by
  rw [Rule.create] at h
  cases hregex : regcomp pattern with
  | none =>
    rw [hregex] at h
    cases h
  | some regex =>
    rw [hregex] at h
    cases h
    rfl

theorem getFlag_cases {attributes : List (String × RuleAttribute)} {key : String}
    {flag got : UInt32} (h : getFlag attributes key flag = .ok got) : got = 0 ∨ got = flag := by
  rw [getFlag] at h
  split at h
  case h_1 =>
    cases h
    exact Or.inl rfl
  case h_2 value _ =>
    cases h
    cases value
    · exact Or.inl rfl
    · exact Or.inr rfl
  case h_3 => cases h

theorem bind_eq_ok {ε α β : Type} {x : Except ε α} {f : α → Except ε β} {b : β}
    (h : (x >>= f) = .ok b) : ∃ a, x = .ok a ∧ f a = .ok b := by
  cases x with
  | error e => cases h
  | ok a => exact ⟨a, rfl, h⟩

theorem addRule_not_exclusion {pattern : String} {value : RuleValue} {rule : Rule ρ}
    (h : addRule regcomp pattern value = .ok rule) : rule.flags &&& exclusion = 0 := by
  cases value with
  | boolean value =>
    rw [flags_of_create h]
    cases value <;> rfl
  | dictionary attributes =>
    obtain ⟨weight, -, h⟩ := bind_eq_ok h
    obtain ⟨omitFlag, homit, h⟩ := bind_eq_ok h
    obtain ⟨optFlag, hopt, h⟩ := bind_eq_ok h
    obtain ⟨nestFlag, hnest, h⟩ := bind_eq_ok h
    rw [flags_of_create h]
    rcases getFlag_cases homit with rfl | rfl <;> rcases getFlag_cases hopt with rfl | rfl <;>
      rcases getFlag_cases hnest with rfl | rfl <;> rfl
  | other => cases h

variable {entries rulesDict : List (String × RuleValue)} {rules front : List (Rule ρ)}
  {exclusions : List (String × UInt32)}

theorem addRules_iff :
    addRules regcomp entries = .ok rules ↔
      List.Forall₂ (fun entry rule => addRule regcomp entry.1 entry.2 = .ok rule) entries rules := by
  induction entries generalizing rules with
  | nil =>
    rw [addRules, List.forall₂_nil_left_iff, Except.ok.injEq]
    exact eq_comm
  | cons entry entries ih =>
    rw [List.forall₂_cons_left_iff]
    constructor
    · intro h
      obtain ⟨rule, hrule, h⟩ := bind_eq_ok h
      obtain ⟨rest, hrest, h⟩ := bind_eq_ok h
      cases h
      exact ⟨rule, rest, hrule, ih.mp hrest, rfl⟩
    · intro ⟨rule, rest, hrule, hrest, heq⟩
      rw [addRules, hrule, heq]
      simp only [Except.bind, bind, ih.mpr hrest]
      rfl

theorem addRules_not_exclusion (h : addRules regcomp entries = .ok rules) :
    ∀ rule ∈ rules, rule.flags &&& exclusion = 0 := by
  have hall := addRules_iff.mp h
  clear h
  induction hall with
  | nil => simp
  | cons hrule _ ih =>
    rw [List.forall_mem_cons]
    exact ⟨addRule_not_exclusion hrule, ih⟩

theorem addRules_perm {order : List (String × RuleValue)} (hperm : order.Perm entries)
    (h : addRules regcomp entries = .ok rules) :
    ∃ rules', addRules regcomp order = .ok rules' ∧ rules'.Perm rules := by
  obtain ⟨rules', hall, hrules⟩ := List.perm_comp_forall₂ hperm (addRules_iff.mp h)
  exact ⟨rules', addRules_iff.mpr hall, hrules⟩

theorem exists_order_of_rules {rules' : List (Rule ρ)} (h : addRules regcomp entries = .ok rules)
    (hperm : rules'.Perm rules) :
    ∃ order : List (String × RuleValue), order.Perm entries ∧
      addRules regcomp order = .ok rules' := by
  obtain ⟨order, hall, horder⟩ := List.perm_comp_forall₂ hperm (addRules_iff.mp h).flip
  exact ⟨order, horder, addRules_iff.mpr hall.flip⟩

def exclusionRules (regcomp : String → Option ρ) (exclusions : List (String × UInt32)) :
    Except ResourceError (List (Rule ρ)) :=
  exclusions.foldlM (fun mRules added => addExclusion regcomp mRules added.1 added.2) []

theorem foldlM_addExclusion (exclusions : List (String × UInt32)) (front mRules : List (Rule ρ)) :
    exclusions.foldlM (fun mRules added => addExclusion regcomp mRules added.1 added.2)
        (front ++ mRules) =
      (exclusions.foldlM (fun mRules added => addExclusion regcomp mRules added.1 added.2)
        front).map (· ++ mRules) := by
  induction exclusions generalizing front with
  | nil => rfl
  | cons added exclusions ih =>
    rw [List.foldlM_cons, List.foldlM_cons, addExclusion, addExclusion]
    cases Rule.create regcomp added.1 0 (exclusion ||| added.2) with
    | error e => rfl
    | ok rule => exact ih (rule :: front)

theorem build_eq (entries : List (String × RuleValue)) (exclusions : List (String × UInt32)) :
    build regcomp entries exclusions = do
      let rules ← addRules regcomp entries
      let front ← exclusionRules regcomp exclusions
      return front ++ rules := by
  rw [build]
  cases addRules regcomp entries with
  | error e => rfl
  | ok rules =>
    have hfold := @foldlM_addExclusion ρ regcomp exclusions [] rules
    exact hfold

theorem exclusion_or (flags : UInt32) : (exclusion ||| flags) &&& exclusion ≠ 0 := by
  have habsorb : (exclusion ||| flags) &&& exclusion = exclusion := by
    apply UInt32.toBitVec_inj.mp
    rw [UInt32.toBitVec_and, UInt32.toBitVec_or]
    apply BitVec.eq_of_getLsbD_eq
    intro i _
    rw [BitVec.getLsbD_and, BitVec.getLsbD_or]
    cases exclusion.toBitVec.getLsbD i <;> simp
  rw [habsorb]
  decide

theorem exclusionRules_exclusion (h : exclusionRules regcomp exclusions = .ok front) :
    ∀ rule ∈ front, rule.flags &&& exclusion ≠ 0 := by
  have hfold : ∀ (exclusions : List (String × UInt32)) (start front : List (Rule ρ)),
      exclusions.foldlM (fun mRules added => addExclusion regcomp mRules added.1 added.2) start =
        .ok front → (∀ rule ∈ start, rule.flags &&& exclusion ≠ 0) →
          ∀ rule ∈ front, rule.flags &&& exclusion ≠ 0 := by
    intro exclusions
    induction exclusions with
    | nil =>
      intro start front h hstart
      cases h
      exact hstart
    | cons added exclusions ih =>
      intro start front h hstart
      rw [List.foldlM_cons] at h
      obtain ⟨next, hnext, h⟩ := bind_eq_ok h
      obtain ⟨rule, hrule, hnext⟩ := bind_eq_ok hnext
      cases hnext
      refine ih _ front h ?_
      rw [List.forall_mem_cons, flags_of_create hrule]
      exact ⟨exclusion_or added.2, hstart⟩
  exact hfold exclusions [] front h (by simp)

variable (regexec)

def Matches (path : String) (rule : Rule ρ) : Prop := regexec rule.regex path = some true

instance (path : String) : DecidablePred (Matches regexec path) :=
  fun rule => inferInstanceAs (Decidable (regexec rule.regex path = some true))

variable {regexec} {path : String}

theorem findRuleFrom_settled (hfront : ∀ rule ∈ front, rule.flags &&& exclusion ≠ 0)
    (hsettled : ∃ rule ∈ front, regexec rule.regex path ≠ some false) (rules : List (Rule ρ))
    (best : Option (Rule ρ)) :
    findRuleFrom regexec path (front ++ rules) best = findRuleFrom regexec path front best := by
  induction front with
  | nil =>
    obtain ⟨rule, hmem, -⟩ := hsettled
    cases hmem
  | cons first front ih =>
    rw [List.forall_mem_cons] at hfront
    rw [List.cons_append, findRuleFrom, findRuleFrom, Rule.match]
    cases hfirst : regexec first.regex path with
    | none => rfl
    | some found =>
      cases found with
      | true =>
        simp only [bind, Except.bind, if_true, if_pos hfront.1]
      | false =>
        apply ih hfront.2
        obtain ⟨rule, hmem, hrule⟩ := hsettled
        rcases List.mem_cons.mp hmem with rfl | hmem
        · exact absurd hfirst hrule
        · exact ⟨rule, hmem, hrule⟩

theorem findRuleFrom_passed (hpassed : ∀ rule ∈ front, regexec rule.regex path = some false)
    (rules : List (Rule ρ)) (best : Option (Rule ρ)) :
    findRuleFrom regexec path (front ++ rules) best = findRuleFrom regexec path rules best := by
  induction front with
  | nil => rfl
  | cons first front ih =>
    rw [List.forall_mem_cons] at hpassed
    rw [List.cons_append, findRuleFrom, Rule.match, hpassed.1]
    exact ih hpassed.2

theorem findRuleFrom_fails (hrules : ∀ rule ∈ rules, rule.flags &&& exclusion = 0)
    (hfails : ∃ rule ∈ rules, regexec rule.regex path = none) (best : Option (Rule ρ)) :
    (findRuleFrom regexec path rules best).toOption = none := by
  induction rules generalizing best with
  | nil =>
    obtain ⟨rule, hmem, -⟩ := hfails
    cases hmem
  | cons first rules ih =>
    rw [List.forall_mem_cons] at hrules
    rw [findRuleFrom, Rule.match]
    cases hfirst : regexec first.regex path with
    | none => rfl
    | some found =>
      have hrest : ∃ rule ∈ rules, regexec rule.regex path = none := by
        obtain ⟨rule, hmem, hrule⟩ := hfails
        rcases List.mem_cons.mp hmem with rfl | hmem
        · rw [hrule] at hfirst
          cases hfirst
        · exact ⟨rule, hmem, hrule⟩
      have hgo := ih hrules.2 hrest
      cases found with
      | false => exact hgo best
      | true =>
        have hplain : ¬first.flags &&& exclusion ≠ 0 := not_not_intro hrules.1
        simp only [bind, Except.bind, if_true, if_neg hplain]
        exact hgo (heavier best first)

theorem heavier_eq (best : Option (Rule ρ)) (rule : Rule ρ) :
    heavier best rule =
      List.argAux (fun b c : Rule ρ => c.weight.toNat < b.weight.toNat) best rule := by
  cases best with
  | none => rfl
  | some best => simp only [heavier, List.argAux, gt_iff_lt, UInt32.lt_iff_toNat_lt]

/-- Otherwise the first of the heaviest rules that match is found. -/
theorem findRuleFrom_plain (hrules : ∀ rule ∈ rules, rule.flags &&& exclusion = 0)
    (hruns : ∀ rule ∈ rules, regexec rule.regex path ≠ none) (best : Option (Rule ρ)) :
    findRuleFrom regexec path rules best =
      .ok ((rules.filter (Matches regexec path)).foldl
        (List.argAux fun b c => c.weight.toNat < b.weight.toNat) best) := by
  induction rules generalizing best with
  | nil => rfl
  | cons first rules ih =>
    rw [List.forall_mem_cons] at hrules hruns
    have hgo := ih hrules.2 hruns.2
    rw [findRuleFrom, Rule.match]
    cases hfirst : regexec first.regex path with
    | none => exact absurd hfirst hruns.1
    | some found =>
      cases found with
      | false =>
        have hskip : ¬Matches regexec path first := by
          rw [Matches, hfirst]
          decide
        rw [List.filter_cons_of_neg (by simpa using hskip)]
        exact hgo best
      | true =>
        have htake : Matches regexec path first := hfirst
        have hplain : ¬first.flags &&& exclusion ≠ 0 := not_not_intro hrules.1
        rw [List.filter_cons_of_pos (by simpa using htake), List.foldl_cons]
        rw [← heavier_eq]
        simp only [bind, Except.bind, if_true, if_neg hplain]
        exact hgo (heavier best first)

theorem findRule_plain (hrules : ∀ rule ∈ rules, rule.flags &&& exclusion = 0)
    (hruns : ∀ rule ∈ rules, regexec rule.regex path ≠ none) :
    findRule regexec rules path =
      .ok ((rules.filter (Matches regexec path)).argmax fun rule => rule.weight.toNat) :=
  findRuleFrom_plain hrules hruns none

/-- The flags of the rule that is found, if a rule set is built and searched without an error. -/
def foundFlags (regcomp : String → Option ρ) (regexec : ρ → String → Option Bool)
    (rulesDict : List (String × RuleValue)) (exclusions : List (String × UInt32)) (path : String) :
    Option (Option UInt32) := do
  let mRules ← (build regcomp rulesDict exclusions).toOption
  let rule ← (findRule regexec mRules path).toOption
  return rule.map Rule.flags

variable (regcomp regexec)

/-- The heaviest rules that match have the same flags. -/
def Agree (rules : List (Rule ρ)) (path : String) : Prop :=
  ∀ a ∈ rules, ∀ b ∈ rules, Matches regexec path a → Matches regexec path b →
    (∀ c ∈ rules, Matches regexec path c → c.weight ≤ a.weight ∧ c.weight ≤ b.weight) →
      a.flags = b.flags

/-- An exclusion is met first, no rule is found because of an error, or the heaviest rules that
match have the same flags. -/
def Unambiguous (rulesDict : List (String × RuleValue)) (exclusions : List (String × UInt32))
    (path : String) : Prop :=
  ∀ rules front, addRules regcomp rulesDict = .ok rules →
    exclusionRules regcomp exclusions = .ok front →
      (∃ rule ∈ front, regexec rule.regex path ≠ some false) ∨
      (∃ rule ∈ rules, regexec rule.regex path = none) ∨ Agree regexec rules path

variable {regcomp regexec}

theorem agree_iff (rules : List (Rule ρ)) :
    Agree regexec rules path ↔
      ∀ a b, Largest (fun rule => rule.weight.toNat) (rules.filter (Matches regexec path)) a →
        Largest (fun rule => rule.weight.toNat) (rules.filter (Matches regexec path)) b →
          a.flags = b.flags := by
  simp only [Agree, Largest, List.mem_filter, decide_eq_true_eq, UInt32.le_iff_toNat_le]
  constructor
  · intro h a b ⟨⟨ha, hma⟩, halarge⟩ ⟨⟨hb, hmb⟩, hblarge⟩
    exact h a ha b hb hma hmb fun c hc hmc => ⟨halarge c ⟨hc, hmc⟩, hblarge c ⟨hc, hmc⟩⟩
  · intro h a ha b hb hma hmb hlarge
    exact h a b ⟨⟨ha, hma⟩, fun c hc => (hlarge c hc.1 hc.2).1⟩
      ⟨⟨hb, hmb⟩, fun c hc => (hlarge c hc.1 hc.2).2⟩

theorem build_ok_iff {mRules : List (Rule ρ)} :
    build regcomp rulesDict exclusions = .ok mRules ↔
      ∃ rules front, addRules regcomp rulesDict = .ok rules ∧
        exclusionRules regcomp exclusions = .ok front ∧ mRules = front ++ rules := by
  rw [build_eq]
  constructor
  · intro h
    obtain ⟨rules, hrules, h⟩ := bind_eq_ok h
    obtain ⟨front, hfront, h⟩ := bind_eq_ok h
    cases h
    exact ⟨rules, front, hrules, hfront, rfl⟩
  · intro ⟨rules, front, hrules, hfront, heq⟩
    rw [hrules, heq]
    simp only [bind, Except.bind, hfront]
    rfl

theorem foundFlags_eq (hrules : addRules regcomp rulesDict = .ok rules)
    (hfront : exclusionRules regcomp exclusions = .ok front) :
    foundFlags regcomp regexec rulesDict exclusions path =
      (findRule regexec (front ++ rules) path).toOption.map (Option.map Rule.flags) := by
  rw [foundFlags, build_ok_iff.mpr ⟨rules, front, hrules, hfront, rfl⟩, Option.map_eq_bind]
  rfl

theorem foundFlags_error (herror : ∀ mRules, build regcomp rulesDict exclusions ≠ .ok mRules) :
    foundFlags regcomp regexec rulesDict exclusions path = none := by
  rw [foundFlags]
  cases hbuild : build regcomp rulesDict exclusions with
  | error e => rfl
  | ok mRules => exact absurd hbuild (herror mRules)

theorem foundFlags_plain (hrules : addRules regcomp rulesDict = .ok rules)
    (hfront : exclusionRules regcomp exclusions = .ok front)
    (hpassed : ∀ rule ∈ front, regexec rule.regex path = some false)
    (hruns : ∀ rule ∈ rules, regexec rule.regex path ≠ none) :
    foundFlags regcomp regexec rulesDict exclusions path =
      some (((rules.filter (Matches regexec path)).argmax fun rule => rule.weight.toNat).map
        Rule.flags) := by
  have hfind := findRule_plain (addRules_not_exclusion hrules) hruns
  rw [findRule] at hfind
  rw [foundFlags_eq hrules hfront, findRule, findRuleFrom_passed hpassed, hfind]
  rfl

/-- Every order of the rules that match is met in some order of the dictionary. -/
theorem exists_order_of_filter {order : List (Rule ρ)}
    (hrules : addRules regcomp rulesDict = .ok rules)
    (horder : order.Perm (rules.filter (Matches regexec path))) :
    ∃ dict rules', dict.Perm rulesDict ∧ addRules regcomp dict = .ok rules' ∧
      rules'.Perm rules ∧ rules'.filter (Matches regexec path) = order := by
  have hall : (order ++ rules.filter fun rule => !decide (Matches regexec path rule)).Perm rules :=
    (horder.append_right _).trans (List.filter_append_perm _ rules)
  obtain ⟨dict, hdict, hadd⟩ := exists_order_of_rules hrules hall
  refine ⟨dict, _, hdict, hadd, hall, ?_⟩
  have htake : order.filter (Matches regexec path) = order := by
    rw [List.filter_eq_self]
    intro rule hrule
    exact (List.mem_filter.mp (horder.mem_iff.mp hrule)).2
  have hskip : (rules.filter fun rule => !decide (Matches regexec path rule)).filter
      (Matches regexec path) = [] := by
    rw [List.filter_eq_nil_iff]
    intro rule hrule hmatch
    have hnot := (List.mem_filter.mp hrule).2
    rw [hmatch] at hnot
    cases hnot
  rw [List.filter_append, htake, hskip, List.append_nil]

theorem unambiguous_of_order (hsame : ∀ order : List (String × RuleValue), order.Perm rulesDict →
      foundFlags regcomp regexec order exclusions path =
        foundFlags regcomp regexec rulesDict exclusions path) :
    Unambiguous regcomp regexec rulesDict exclusions path := by
  intro rules front hrules hfront
  by_cases hsettled : ∃ rule ∈ front, regexec rule.regex path ≠ some false
  · exact Or.inl hsettled
  · by_cases hfails : ∃ rule ∈ rules, regexec rule.regex path = none
    · exact Or.inr (Or.inl hfails)
    · refine Or.inr (Or.inr ?_)
      simp only [not_exists, not_and, not_not] at hsettled hfails
      rw [agree_iff, ← argmax_map_perm_iff]
      intro order horder
      obtain ⟨dict, rules', hdict, hadd, hperm, hfilter⟩ := exists_order_of_filter hrules horder
      have hruns : ∀ rule ∈ rules', regexec rule.regex path ≠ none :=
        fun rule hrule => hfails rule (hperm.mem_iff.mp hrule)
      have heq := hsame dict hdict
      rw [foundFlags_plain hrules hfront hsettled hfails,
        foundFlags_plain hadd hfront hsettled hruns, hfilter] at heq
      exact Option.some.inj heq

theorem foundFlags_settled (hrules : addRules regcomp rulesDict = .ok rules)
    (hfront : exclusionRules regcomp exclusions = .ok front)
    (hsettled : ∃ rule ∈ front, regexec rule.regex path ≠ some false) :
    foundFlags regcomp regexec rulesDict exclusions path =
      (findRule regexec front path).toOption.map (Option.map Rule.flags) := by
  rw [foundFlags_eq hrules hfront, findRule,
    findRuleFrom_settled (exclusionRules_exclusion hfront) hsettled]
  rfl

theorem foundFlags_fails (hrules : addRules regcomp rulesDict = .ok rules)
    (hfront : exclusionRules regcomp exclusions = .ok front)
    (hpassed : ∀ rule ∈ front, regexec rule.regex path = some false)
    (hfails : ∃ rule ∈ rules, regexec rule.regex path = none) :
    foundFlags regcomp regexec rulesDict exclusions path = none := by
  rw [foundFlags_eq hrules hfront, findRule, findRuleFrom_passed hpassed,
    findRuleFrom_fails (addRules_not_exclusion hrules) hfails]
  rfl

theorem order_of_unambiguous (h : Unambiguous regcomp regexec rulesDict exclusions path)
    {order : List (String × RuleValue)} (hperm : order.Perm rulesDict) :
    foundFlags regcomp regexec order exclusions path =
      foundFlags regcomp regexec rulesDict exclusions path := by
  by_cases hbuild : ∃ mRules, build regcomp rulesDict exclusions = .ok mRules
  · obtain ⟨mRules, hbuild⟩ := hbuild
    obtain ⟨rules, front, hrules, hfront, -⟩ := build_ok_iff.mp hbuild
    obtain ⟨rules', hrules', hperm'⟩ := addRules_perm hperm hrules
    by_cases hsettled : ∃ rule ∈ front, regexec rule.regex path ≠ some false
    · rw [foundFlags_settled hrules hfront hsettled, foundFlags_settled hrules' hfront hsettled]
    · have hpassed : ∀ rule ∈ front, regexec rule.regex path = some false := by
        simpa only [not_exists, not_and, not_not] using hsettled
      by_cases hfails : ∃ rule ∈ rules, regexec rule.regex path = none
      · have hfails' : ∃ rule ∈ rules', regexec rule.regex path = none := by
          obtain ⟨rule, hrule, hnone⟩ := hfails
          exact ⟨rule, hperm'.mem_iff.mpr hrule, hnone⟩
        rw [foundFlags_fails hrules hfront hpassed hfails,
          foundFlags_fails hrules' hfront hpassed hfails']
      · have hruns : ∀ rule ∈ rules, regexec rule.regex path ≠ none := by
          simpa only [not_exists, not_and] using hfails
        have hruns' : ∀ rule ∈ rules', regexec rule.regex path ≠ none :=
          fun rule hrule => hruns rule (hperm'.mem_iff.mp hrule)
        have hagree : Agree regexec rules path := by
          rcases h rules front hrules hfront with hcase | hcase | hcase
          · exact absurd hcase hsettled
          · exact absurd hcase hfails
          · exact hcase
        rw [agree_iff, ← argmax_map_perm_iff] at hagree
        rw [foundFlags_plain hrules hfront hpassed hruns,
          foundFlags_plain hrules' hfront hpassed hruns', hagree _ (hperm'.filter _)]
  · -- a dictionary of which no rules can be made in one order has none in another one
    have hbuild' : ∀ mRules, build regcomp order exclusions ≠ .ok mRules := by
      intro mRules hok
      obtain ⟨rules, front, hrules, hfront, -⟩ := build_ok_iff.mp hok
      obtain ⟨rules', hrules', -⟩ := addRules_perm hperm.symm hrules
      exact hbuild ⟨_, build_ok_iff.mpr ⟨rules', front, hrules', hfront, rfl⟩⟩
    rw [foundFlags_error hbuild', foundFlags_error (not_exists.mp hbuild)]

/-- The flags of the rule that is found for a path do not depend on the order of the rules
dictionary when the path is not ambiguous. -/
theorem foundFlags_order_iff (regcomp : String → Option ρ) (regexec : ρ → String → Option Bool)
    (rulesDict : List (String × RuleValue)) (exclusions : List (String × UInt32)) (path : String) :
    (∀ order : List (String × RuleValue), order.Perm rulesDict →
      foundFlags regcomp regexec order exclusions path =
        foundFlags regcomp regexec rulesDict exclusions path) ↔
      Unambiguous regcomp regexec rulesDict exclusions path :=
  ⟨unambiguous_of_order, fun h _ hperm => order_of_unambiguous h hperm⟩

def literalMatch (pattern path : String) : Option Bool :=
  some (decide (pattern.toList <:+: path.toList))

/-- The rules for `a` and for `b`, of one weight, in both orders. -/
theorem equalWeights_order :
    foundFlags some literalMatch [("a", .boolean true), ("b", .boolean false)] [] "ab" =
        some (some user_controlled) ∧
      foundFlags some literalMatch [("b", .boolean false), ("a", .boolean true)] [] "ab" =
        some (some (omitted ||| user_controlled)) := by
  decide
end ResourceBuilder
end SecurityFramework
