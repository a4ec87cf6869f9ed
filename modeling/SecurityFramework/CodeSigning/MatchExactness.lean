import Mathlib.Data.List.Infix
import SecurityFramework.CodeSigning.RequirementMatch
import SecurityFramework.Library.PartialSearch

/-!
# What a match suffix accepts

A match suffix is documented to accept a candidate by what it is and by how it compares. Searching
a string outside of its length is undefined: an evaluation that does so has no answer.
-/

namespace SecurityFramework
/-- What is documented of `CFStringFindWithOptions` in a range that lies in the string. The empty
string is not found. -/
structure CoreFoundation.Finds (cf : CoreFoundation) : Prop where
  found : ∀ value string : CFString, ∀ location length : Nat, string ≠ [] →
    location + length ≤ value.length →
      (cf.stringFind value string location length = true ↔
        string <:+: (value.drop location).take length)
  empty : ∀ value : CFString, ∀ location length : Nat, location + length ≤ value.length →
    cf.stringFind value [] location length = false

theorem Plist.arrayInduction {P : Plist → Prop}
    (array : ∀ elements, (∀ element ∈ elements, P element) → P (.array elements))
    (other : ∀ candidate, (∀ elements, candidate ≠ .array elements) → P candidate)
    (candidate : Plist) : P candidate := by
  by_cases harray : ∃ elements, candidate = .array elements
  · obtain ⟨elements, rfl⟩ := harray
    exact array elements fun element hmem =>
      have : sizeOf element < sizeOf (Plist.array elements) := by
        have hlt := List.sizeOf_lt_of_mem hmem
        simp only [Plist.array.sizeOf_spec]
        omega
      Plist.arrayInduction array other element
  · exact other candidate (not_exists.mp harray)
termination_by sizeOf candidate

namespace Requirement
open MatchOperation PartialSearch

namespace Match
variable (cf : CoreFoundation) (m : Match)

def findsWithin (candidate : Plist) (range : Nat → Nat → Option (Nat × Nat)) : Option Bool :=
  match candidate, m.cfStringValue with
  | .string value, some string =>
    match range value.length string.length with
    | some (location, length) =>
      if location + length ≤ value.length then some (cf.stringFind value string location length)
      else none
    | none => some false
  | _, _ => some false

/-- The switch over the operation. There is no answer where `mValue` is a null pointer that is
compared with. -/
def operateWithin (candidate : Plist) : Option Bool :=
  match m.mOp with
  | some matchEqual => m.mValue.map fun value => cfEqual candidate value
  | some matchContains => m.findsWithin cf candidate fun value _ => some (0, value)
  | some matchBeginsWith => m.findsWithin cf candidate fun _ string => some (0, string)
  | some matchEndsWith => m.findsWithin cf candidate fun value string =>
      if string ≤ value then some (value - string, string) else none
  | _ => some (m.operate cf candidate)

mutual

def applyWithin : Plist → Option Bool
  | .null => some (m.mOp = some matchAbsent)
  | .array elements => do
    if ← applyAnyWithin elements then return true
    operateWithin cf m (.array elements)
  | candidate => operateWithin cf m candidate
termination_by structural candidate => candidate

def applyAnyWithin : List Plist → Option Bool
  | [] => some false
  | element :: elements => do
    if ← applyWithin element then return true
    applyAnyWithin elements
termination_by structural elements => elements
end

def evaluate : Option Plist → Option Bool
  | none => some false
  | some candidate => m.applyWithin cf candidate

def Holds (candidate : Plist) : Prop :=
  match m.mOp with
  | some matchAbsent => False
  | some matchExists => cfEqual candidate (.boolean false) = false
  | some matchEqual => ∃ value, m.mValue = some value ∧ cfEqual candidate value = true
  | some matchContains => OnStrings candidate fun value string => string <:+: value
  | some matchBeginsWith => OnStrings candidate fun value string => string <+: value
  | some matchEndsWith => OnStrings candidate fun value string => string <:+ value
  | some matchLessThan => OnStrings candidate fun value string =>
      (cf.compareNumerically value string).isLT
  | some matchGreaterThan => OnStrings candidate fun value string =>
      (cf.compareNumerically value string).isGT
  | some matchLessEqual => OnStrings candidate fun value string =>
      (cf.compareNumerically value string).isLE
  | some matchGreaterEqual => OnStrings candidate fun value string =>
      (cf.compareNumerically value string).isGE
  | some matchOn => OnDates candidate fun value date => value = date
  | some matchBefore => OnDates candidate fun value date => value < date
  | some matchAfter => OnDates candidate fun value date => date < value
  | some matchOnOrBefore => OnDates candidate fun value date => value ≤ date
  | some matchOnOrAfter => OnDates candidate fun value date => date ≤ value
  | none => False
where
  OnStrings (candidate : Plist) (relation : CFString → CFString → Prop) : Prop :=
    ∃ value string, candidate = .string value ∧ m.mValue = some (.string string) ∧
      relation value string
  OnDates (candidate : Plist) (relation : CFAbsoluteTime → CFAbsoluteTime → Prop) : Prop :=
    ∃ value date, candidate = .date value ∧ m.mValue = some (.date date) ∧ relation value date

/-- The candidate is accepted: an array by itself or by one of its elements, and `CFNull` only
where nothing is wanted. -/
inductive Accepts : Plist → Prop
  | null (habsent : m.mOp = some matchAbsent) : Accepts .null
  | element {elements : List Plist} {element : Plist} (hmem : element ∈ elements)
      (haccepts : Accepts element) : Accepts (.array elements)
  | self {candidate : Plist} (hne : candidate ≠ .null) (hholds : m.Holds cf candidate) :
      Accepts candidate

mutual

def strings : Plist → List CFString
  | .string value => [value]
  | .array elements => stringsOfAll elements
  | _ => []
termination_by structural candidate => candidate

def stringsOfAll : List Plist → List CFString
  | [] => []
  | element :: elements => strings element ++ stringsOfAll elements
termination_by structural elements => elements
end

/-- The condition for a match by a part of a string: nothing is looked for in a string that has
nothing to be found in it, and a string that may begin with the operand is as long as it. -/
def Exact (candidate : Plist) : Prop :=
  match m.mOp, m.cfStringValue with
  | some matchContains, some string => string ≠ [] ∨ strings candidate = []
  | some matchEndsWith, some string => string ≠ [] ∨ strings candidate = []
  | some matchBeginsWith, some string =>
    (string ≠ [] ∨ strings candidate = []) ∧
      ∀ before value after, strings candidate = before ++ value :: after →
        (∀ earlier ∈ before, ¬string <+: earlier) → string.length ≤ value.length
  | _, _ => True

inductive Constructed : Match → Prop
  | bare (op : MatchOperation) (hoperand : op.operand = .nothing) : Constructed ⟨some op, none⟩
  | ofString (value : CFString) (op : MatchOperation) : Constructed (ofString value op)
  | timestamp (op : MatchOperation) (date : CFAbsoluteTime) (hoperand : op.operand = .timestamp) :
      Constructed ⟨some op, some (.date date)⟩
  | unknown : Constructed ⟨none, none⟩

theorem constructed_of_denote {req : List UInt8} {suffix : Suffix} {start stop : Nat} {m : Match}
    (hat : suffix.At req start stop) (hdenote : suffix.denote cf = .ok m) : Constructed m := by
  cases hat with
  | bare hword hop hoperand =>
    cases hdenote
    exact .bare _ hoperand
  | @string _ _ _ _ op value hword hop hoperand hvalue =>
    rw [Suffix.denote] at hdenote
    cases hmake : cf.makeCFString value with
    | error e =>
      rw [hmake] at hdenote
      cases hdenote
    | ok string =>
      rw [hmake] at hdenote
      cases hdenote
      exact .ofString string op
  | timestamp hword hop hoperand hbits =>
    cases hdenote
    exact .timestamp _ _ hoperand
  | unknown hword hop hoperand =>
    cases hdenote
    exact .unknown

variable {cf m}

variable (elements : List Plist)

theorem applyAnyWithin_eq :
    applyAnyWithin cf m elements = search (applyWithin cf m) elements := by
  induction elements with
  | nil => rfl
  | cons element elements ih =>
    rw [applyAnyWithin, search, ih]
    cases applyWithin cf m element with
    | none => rfl
    | some found => cases found <;> rfl

theorem applyWithin_array :
    applyWithin cf m (.array elements) =
      match search (applyWithin cf m) elements with
      | none => none
      | some true => some true
      | some false => operateWithin cf m (.array elements) := by
  rw [applyWithin, applyAnyWithin_eq]
  cases search (applyWithin cf m) elements with
  | none => rfl
  | some found => cases found <;> rfl

theorem stringsOfAll_eq : stringsOfAll elements = elements.flatMap strings := by
  induction elements with
  | nil => rfl
  | cons element elements ih => rw [stringsOfAll, List.flatMap_cons, ih]

theorem accepts_array_iff :
    Accepts cf m (.array elements) ↔
      (∃ element ∈ elements, Accepts cf m element) ∨ m.Holds cf (.array elements) := by
  constructor
  · intro h
    cases h with
    | element hmem haccepts => exact Or.inl ⟨_, hmem, haccepts⟩
    | self hne hholds => exact Or.inr hholds
  · intro h
    rcases h with ⟨element, hmem, haccepts⟩ | hholds
    · exact .element hmem haccepts
    · exact .self (by simp) hholds

theorem accepts_null_iff : Accepts cf m .null ↔ m.mOp = some matchAbsent := by
  constructor
  · intro h
    cases h with
    | null habsent => exact habsent
    | self hne hholds => exact absurd rfl hne
  · exact .null

variable {candidate : Plist}

theorem accepts_other_iff (harray : ∀ elements, candidate ≠ .array elements)
    (hnull : candidate ≠ .null) : Accepts cf m candidate ↔ m.Holds cf candidate := by
  constructor
  · intro h
    cases h with
    | null habsent => exact absurd rfl hnull
    | element hmem haccepts => exact absurd rfl (harray _)
    | self hne hholds => exact hholds
  · exact .self hnull

theorem applyWithin_other (harray : ∀ elements, candidate ≠ .array elements)
    (hnull : candidate ≠ .null) : applyWithin cf m candidate = operateWithin cf m candidate := by
  cases candidate with
  | null => exact absurd rfl hnull
  | array elements => exact absurd rfl (harray elements)
  | _ => rfl

theorem operate_of_operateWithin {answer : Bool} (h : operateWithin cf m candidate = some answer) :
    m.operate cf candidate = answer := by
  have hfinds : ∀ range, m.findsWithin cf candidate range = some answer →
      m.finds cf candidate range = answer := by
    intro range hwithin
    cases candidate with
    | string value =>
      cases hstring : m.cfStringValue with
      | none =>
        simp only [findsWithin, hstring] at hwithin
        simp only [finds, hstring]
        exact Option.some.inj hwithin
      | some string =>
        cases hrange : range value.length string.length with
        | none =>
          simp only [findsWithin, hstring, hrange] at hwithin
          simp only [finds, hstring, hrange]
          exact Option.some.inj hwithin
        | some within =>
          simp only [findsWithin, hstring, hrange] at hwithin
          simp only [finds, hstring, hrange]
          by_cases hlong : within.1 + within.2 ≤ value.length
          · rw [if_pos hlong] at hwithin
            exact Option.some.inj hwithin
          · rw [if_neg hlong] at hwithin
            cases hwithin
    | _ => exact Option.some.inj hwithin
  rw [operateWithin] at h
  split at h
  case h_1 hop =>
    obtain ⟨value, hvalue, hequal⟩ := Option.map_eq_some_iff.mp h
    simp only [operate, hop, hvalue, Option.any_some, hequal]
  case h_2 hop =>
    simp only [operate, hop]
    exact hfinds _ h
  case h_3 hop =>
    simp only [operate, hop]
    exact hfinds _ h
  case h_4 hop =>
    simp only [operate, hop]
    exact hfinds _ h
  case h_5 => exact Option.some.inj h

theorem applyAny_eq : applyAny cf m elements = elements.any (apply cf m) := by
  induction elements with
  | nil => rfl
  | cons element elements ih => rw [applyAny, List.any_cons, ih]

/-- Where there is an answer, it is the one of the evaluation that does not look at its ranges. -/
theorem apply_of_applyWithin {answer : Bool} (h : applyWithin cf m candidate = some answer) :
    m.apply cf candidate = answer := by
  induction candidate using Plist.arrayInduction generalizing answer with
  | array elements ih =>
    rw [applyWithin_array] at h
    rw [apply, applyAny_eq]
    cases hsearch : search (applyWithin cf m) elements with
    | none =>
      rw [hsearch] at h
      cases h
    | some found =>
      rw [hsearch] at h
      cases found with
      | true =>
        obtain ⟨element, hmem, htrue⟩ := search_true hsearch
        have hany : elements.any (apply cf m) = true :=
          List.any_eq_true.mpr ⟨element, hmem, ih element hmem htrue⟩
        rw [hany, Bool.true_or]
        exact Option.some.inj h
      | false =>
        have hany : elements.any (apply cf m) = false := by
          rw [List.any_eq_false]
          intro element hmem
          rw [ih element hmem (search_false hsearch element hmem)]
          simp
        rw [hany, Bool.false_or]
        exact operate_of_operateWithin h
  | other candidate harray =>
    by_cases hnull : candidate = .null
    · rw [hnull] at h ⊢
      exact Option.some.inj h
    · rw [applyWithin_other harray hnull] at h
      have heq : m.apply cf candidate = m.operate cf candidate := by
        cases candidate with
        | null => exact absurd rfl hnull
        | array elements => exact absurd rfl (harray elements)
        | _ => rfl
      rw [heq]
      exact operate_of_operateWithin h

/-- An operation that has an answer for every candidate, and the one it should have, has the right
answer for arrays of candidates too. -/
theorem applyWithin_of_total
    (htotal : ∀ candidate, ∃ answer, operateWithin cf m candidate = some answer ∧
      (answer = true ↔ m.Holds cf candidate)) (candidate : Plist) :
    ∃ answer, applyWithin cf m candidate = some answer ∧
      (answer = true ↔ Accepts cf m candidate) := by
  induction candidate using Plist.arrayInduction with
  | array elements ih =>
    have hsearch : search (applyWithin cf m) elements ≠ none := by
      apply search_total
      intro element hmem
      obtain ⟨answer, hanswer, -⟩ := ih element hmem
      rw [hanswer]
      simp
    obtain ⟨found, hfound⟩ := Option.ne_none_iff_exists'.mp hsearch
    have hany : found = true ↔ ∃ element ∈ elements, Accepts cf m element := by
      rw [search_answer hfound]
      constructor
      · intro ⟨element, hmem, htrue⟩
        obtain ⟨answer, hanswer, haccepts⟩ := ih element hmem
        rw [hanswer] at htrue
        exact ⟨element, hmem, haccepts.mp (Option.some.inj htrue)⟩
      · intro ⟨element, hmem, haccepted⟩
        obtain ⟨answer, hanswer, haccepts⟩ := ih element hmem
        rw [haccepts.mpr haccepted] at hanswer
        exact ⟨element, hmem, hanswer⟩
    rw [applyWithin_array, hfound, accepts_array_iff, ← hany]
    cases found with
    | true => exact ⟨true, rfl, by simp⟩
    | false =>
      obtain ⟨answer, hanswer, hholds⟩ := htotal (.array elements)
      exact ⟨answer, hanswer, by simpa using hholds⟩
  | other candidate harray =>
    by_cases hnull : candidate = .null
    · rw [hnull, accepts_null_iff]
      exact ⟨_, rfl, decide_eq_true_iff⟩
    · rw [applyWithin_other harray hnull, accepts_other_iff harray hnull]
      exact htotal candidate

theorem applyWithin_strings (habsent : m.mOp ≠ some matchAbsent)
    (hother : ∀ candidate, (∀ value, candidate ≠ .string value) →
      operateWithin cf m candidate = some false) (candidate : Plist) :
    applyWithin cf m candidate =
      search (fun value => operateWithin cf m (.string value)) (strings candidate) := by
  induction candidate using Plist.arrayInduction with
  | array elements ih =>
    rw [applyWithin_array, strings, stringsOfAll_eq, search_flatMap, search_congr ih,
      hother (.array elements) (by simp)]
    cases search (fun element => search _ (strings element)) elements with
    | none => rfl
    | some found => cases found <;> rfl
  | other candidate harray =>
    cases candidate with
    | null =>
      rw [applyWithin, decide_eq_false habsent]
      rfl
    | array elements => exact absurd rfl (harray elements)
    | string value =>
      rw [applyWithin_other harray (by simp), strings, search]
      cases operateWithin cf m (.string value) with
      | none => rfl
      | some found => cases found <;> rfl
    | _ =>
      rw [applyWithin_other harray (by simp), hother _ (by simp)]
      rfl

theorem accepts_strings (habsent : m.mOp ≠ some matchAbsent)
    (hother : ∀ candidate, (∀ value, candidate ≠ .string value) → ¬m.Holds cf candidate)
    (candidate : Plist) :
    Accepts cf m candidate ↔ ∃ value ∈ strings candidate, m.Holds cf (.string value) := by
  induction candidate using Plist.arrayInduction with
  | array elements ih =>
    rw [accepts_array_iff, strings, stringsOfAll_eq]
    constructor
    · intro h
      rcases h with ⟨element, hmem, haccepts⟩ | hholds
      · obtain ⟨value, hvalue, hholds⟩ := (ih element hmem).mp haccepts
        exact ⟨value, List.mem_flatMap.mpr ⟨element, hmem, hvalue⟩, hholds⟩
      · exact absurd hholds (hother _ (by simp))
    · intro ⟨value, hvalue, hholds⟩
      obtain ⟨element, hmem, hvalue⟩ := List.mem_flatMap.mp hvalue
      exact Or.inl ⟨element, hmem, (ih element hmem).mpr ⟨value, hvalue, hholds⟩⟩
  | other candidate harray =>
    by_cases hnull : candidate = .null
    · rw [hnull, accepts_null_iff]
      simp [habsent, strings]
    · rw [accepts_other_iff harray hnull]
      cases candidate with
      | array elements => exact absurd rfl (harray elements)
      | string value => simp [strings]
      | _ => simp [strings, hother]

theorem inequality_iff (candidate : Plist) (outcome : Ordering) (negate : Bool) :
    m.inequality cf candidate outcome negate = true ↔
      Holds.OnStrings m candidate fun value string =>
        (cf.compareNumerically value string = outcome) = negate := by
  simp only [inequality, Holds.OnStrings, cfStringValue]
  cases candidate with
  | string value =>
    cases m.mValue with
    | none => simp
    | some mValue => cases mValue <;> cases negate <;> simp
  | _ => simp

theorem compares_iff (candidate : Plist) (accepts : Ordering → Bool) :
    m.compares candidate accepts = true ↔
      Holds.OnDates m candidate fun value date => accepts (compare value date) = true := by
  simp only [compares, Holds.OnDates, cfDateValue]
  cases candidate with
  | date value =>
    cases m.mValue with
    | none => simp
    | some mValue => cases mValue <;> simp
  | _ => simp

theorem onStrings_congr {relation relation' : CFString → CFString → Prop}
    (h : ∀ value string, relation value string ↔ relation' value string) :
    Holds.OnStrings m candidate relation ↔ Holds.OnStrings m candidate relation' := by
  simp only [Holds.OnStrings, h]

theorem onDates_congr {relation relation' : CFAbsoluteTime → CFAbsoluteTime → Prop}
    (h : ∀ value date, relation value date ↔ relation' value date) :
    Holds.OnDates m candidate relation ↔ Holds.OnDates m candidate relation' := by
  simp only [Holds.OnDates, h]

def LooksForPart (m : Match) : Prop :=
  m.mOp = some matchContains ∨ m.mOp = some matchBeginsWith ∨ m.mOp = some matchEndsWith

theorem operateWithin_total (hm : Constructed m) (hop : ¬LooksForPart m) (candidate : Plist) :
    ∃ answer, operateWithin cf m candidate = some answer ∧
      (answer = true ↔ m.Holds cf candidate) := by
  have hvalue : m.mOp = some matchEqual → m.mValue ≠ none := by
    intro hequal
    cases hm with
    | bare op hoperand =>
      cases hequal
      cases hoperand
    | ofString value op => simp [ofString]
    | timestamp op date hoperand => simp
    | unknown => cases hequal
  rw [operateWithin, Holds]
  cases hmOp : m.mOp with
  | none => exact ⟨_, rfl, by simp [operate, hmOp]⟩
  | some op =>
    cases op with
    | matchEqual =>
      obtain ⟨value, hsome⟩ := Option.ne_none_iff_exists'.mp (hvalue hmOp)
      simp only [hsome]
      exact ⟨_, rfl, by simp⟩
    | matchContains => exact absurd (Or.inl hmOp) hop
    | matchBeginsWith => exact absurd (Or.inr (Or.inl hmOp)) hop
    | matchEndsWith => exact absurd (Or.inr (Or.inr hmOp)) hop
    | matchAbsent | matchExists => exact ⟨_, rfl, by simp [operate, hmOp]⟩
    | matchLessThan | matchGreaterThan | matchLessEqual | matchGreaterEqual =>
      refine ⟨_, rfl, ?_⟩
      simp only [operate, hmOp, inequality_iff]
      apply onStrings_congr
      intro value string
      cases cf.compareNumerically value string <;> simp
    | matchOn =>
      refine ⟨_, rfl, ?_⟩
      simp only [operate, hmOp, compares_iff]
      apply onDates_congr
      intro value date
      rw [beq_iff_eq, compare_eq_iff_eq]
    | matchBefore =>
      refine ⟨_, rfl, ?_⟩
      simp only [operate, hmOp, compares_iff]
      apply onDates_congr
      intro value date
      rw [beq_iff_eq, compare_lt_iff_lt]
    | matchAfter =>
      refine ⟨_, rfl, ?_⟩
      simp only [operate, hmOp, compares_iff]
      apply onDates_congr
      intro value date
      rw [beq_iff_eq, compare_gt_iff_gt]
    | matchOnOrBefore =>
      refine ⟨_, rfl, ?_⟩
      simp only [operate, hmOp, compares_iff]
      apply onDates_congr
      intro value date
      rw [bne_iff_ne, compare_le_iff_le]
    | matchOnOrAfter =>
      refine ⟨_, rfl, ?_⟩
      simp only [operate, hmOp, compares_iff]
      apply onDates_congr
      intro value date
      rw [bne_iff_ne, compare_ge_iff_ge]

theorem ofString_of_looksForPart (hm : Constructed m) (hop : LooksForPart m) :
    ∃ string op, m = ofString string op := by
  cases hm with
  | bare op hoperand =>
    rcases hop with hop | hop | hop <;>
      · cases hop
        cases hoperand
  | ofString value op => exact ⟨value, op, rfl⟩
  | timestamp op date hoperand =>
    rcases hop with hop | hop | hop <;>
      · cases hop
        cases hoperand
  | unknown => rcases hop with hop | hop | hop <;> cases hop

def IsPart : MatchOperation → CFString → CFString → Prop
  | matchBeginsWith, string, value => string <+: value
  | matchEndsWith, string, value => string <:+ value
  | _, string, value => string <:+: value

variable {string : CFString} {op : MatchOperation}

theorem holds_string_iff (hop : LooksForPart (ofString string op)) (value : CFString) :
    (ofString string op).Holds cf (.string value) ↔ IsPart op string value := by
  rcases hop with hop | hop | hop <;>
    · cases hop
      simp [Holds, Holds.OnStrings, ofString, IsPart]

theorem not_holds_other (hop : LooksForPart (ofString string op)) (candidate : Plist)
    (hne : ∀ value, candidate ≠ .string value) : ¬(ofString string op).Holds cf candidate := by
  rcases hop with hop | hop | hop <;>
    · cases hop
      simp [Holds, Holds.OnStrings, ofString, hne]

theorem operateWithin_other (hop : LooksForPart (ofString string op)) (candidate : Plist)
    (hne : ∀ value, candidate ≠ .string value) :
    operateWithin cf (ofString string op) candidate = some false := by
  rcases hop with hop | hop | hop <;>
    · cases hop
      cases candidate with
      | string value => exact absurd rfl (hne value)
      | _ => rfl

theorem operateWithin_empty (hcf : cf.Finds) (hop : LooksForPart (ofString [] op))
    (value : CFString) : operateWithin cf (ofString [] op) (.string value) = some false := by
  rcases hop with hop | hop | hop <;>
    · cases hop
      simp [operateWithin, findsWithin, ofString, cfStringValue, hcf.empty]

theorem operateWithin_part (hcf : cf.Finds) (hop : LooksForPart (ofString string op))
    (hstring : string ≠ []) (value : CFString) (found : Bool)
    (h : operateWithin cf (ofString string op) (.string value) = some found) :
    found = true ↔ IsPart op string value := by
  rcases hop with hop | hop | hop
  · cases hop
    have hfound := hcf.found value string 0 value.length hstring (by simp)
    simp only [operateWithin, findsWithin, ofString, cfStringValue, Nat.zero_add, Nat.le_refl,
      if_true, Option.some.injEq] at h
    rw [← h, hfound, List.drop_zero, List.take_length]
    rfl
  · cases hop
    simp only [operateWithin, findsWithin, ofString, cfStringValue, Nat.zero_add] at h
    by_cases hlong : string.length ≤ value.length
    · have hfound := hcf.found value string 0 string.length hstring (by omega)
      rw [if_pos hlong, Option.some.injEq] at h
      rw [← h, hfound, List.drop_zero]
      constructor
      · intro hinfix
        have heq := hinfix.eq_of_length (by simp [hlong])
        rw [heq]
        exact List.take_prefix _ _
      · intro hprefix
        simp only [← List.prefix_iff_eq_take.mp hprefix, List.infix_rfl]
    · rw [if_neg hlong] at h
      cases h
  · cases hop
    simp only [operateWithin, findsWithin, ofString, cfStringValue] at h
    by_cases hlong : string.length ≤ value.length
    · have hfound := hcf.found value string (value.length - string.length) string.length hstring
        (by omega)
      rw [if_pos hlong] at h
      simp only [Nat.sub_add_cancel hlong, Nat.le_refl, if_true, Option.some.injEq] at h
      have htake : (value.drop (value.length - string.length)).take string.length =
          value.drop (value.length - string.length) := by
        apply List.take_of_length_le
        rw [List.length_drop]
        omega
      rw [← h, hfound, htake]
      constructor
      · intro hinfix
        have heq := hinfix.eq_of_length (by rw [List.length_drop]; omega)
        rw [heq]
        exact List.drop_suffix _ _
      · intro hsuffix
        simp only [← List.suffix_iff_eq_drop.mp hsuffix, List.infix_rfl]
    · rw [if_neg hlong] at h
      cases h
      constructor
      · intro hfalse
        cases hfalse
      · intro hsuffix
        exact absurd hsuffix.length_le hlong

/-- There is no answer where a string that is shorter than the operand is asked how it begins. -/
theorem operateWithin_eq_none_iff (hop : LooksForPart (ofString string op)) (value : CFString) :
    operateWithin cf (ofString string op) (.string value) = none ↔
      op = matchBeginsWith ∧ value.length < string.length := by
  rcases hop with hop | hop | hop
  · cases hop
    simp [operateWithin, findsWithin, ofString, cfStringValue]
  · cases hop
    simp [operateWithin, findsWithin, ofString, cfStringValue]
  · cases hop
    by_cases hlong : string.length ≤ value.length
    · simp [operateWithin, findsWithin, ofString, cfStringValue, hlong]
    · simp [operateWithin, findsWithin, ofString, cfStringValue, hlong]

theorem exact_iff (hop : LooksForPart (ofString string op)) (candidate : Plist) :
    (ofString string op).Exact candidate ↔
      (string ≠ [] ∨ strings candidate = []) ∧
        (op = matchBeginsWith → ∀ before value after, strings candidate = before ++ value :: after →
          (∀ earlier ∈ before, ¬string <+: earlier) → string.length ≤ value.length) := by
  rcases hop with hop | hop | hop <;>
    · cases hop
      simp [Exact, ofString, cfStringValue]

theorem search_part_iff (hcf : cf.Finds) (hop : LooksForPart (ofString string op))
    (hstring : string ≠ []) (values : List CFString) :
    search (fun value => operateWithin cf (ofString string op) (.string value)) values ≠ none ↔
      (op = matchBeginsWith → ∀ before value after, values = before ++ value :: after →
        (∀ earlier ∈ before, ¬string <+: earlier) → string.length ≤ value.length) := by
  rw [ne_eq, search_eq_none_iff]
  simp only [operateWithin_eq_none_iff hop]
  constructor
  · intro hnone hbegins before value after heq hbefore
    by_contra hshort
    refine hnone ⟨before, value, after, heq, ?_, hbegins, Nat.not_le.mp hshort⟩
    intro earlier hmem htrue
    have hpart := (operateWithin_part hcf hop hstring earlier true htrue).mp rfl
    rw [hbegins] at hpart
    exact hbefore earlier hmem hpart
  · intro hlong ⟨before, value, after, heq, hbefore, hbegins, hshort⟩
    refine absurd (hlong hbegins before value after heq ?_) (Nat.not_le.mpr hshort)
    intro earlier hmem hprefix
    -- a string that begins with the operand is long enough to be asked, and says yes
    cases hask : operateWithin cf (ofString string op) (.string earlier) with
    | none =>
      have hless := ((operateWithin_eq_none_iff hop earlier).mp hask).2
      exact absurd hprefix.length_le (Nat.not_le.mpr hless)
    | some found =>
      have hpart := operateWithin_part hcf hop hstring earlier found hask
      rw [hbegins] at hpart
      rw [hpart.mpr hprefix] at hask
      exact hbefore earlier hmem hask

theorem applyWithin_part_iff (hcf : cf.Finds) (hop : LooksForPart (ofString string op))
    (candidate : Plist) :
    (∃ answer, applyWithin cf (ofString string op) candidate = some answer ∧
      (answer = true ↔ Accepts cf (ofString string op) candidate)) ↔
        (ofString string op).Exact candidate := by
  have habsent : (ofString string op).mOp ≠ some matchAbsent := by
    rcases hop with hop | hop | hop <;> simp [hop]
  rw [applyWithin_strings habsent (operateWithin_other hop),
    accepts_strings habsent (not_holds_other hop), exact_iff hop]
  simp only [holds_string_iff hop]
  by_cases hstring : string = []
  · subst hstring
    have hnone : ∀ values : List CFString,
        search (fun value => operateWithin cf (ofString [] op) (.string value)) values =
          some false := by
      intro values
      have htotal := @search_total _
        (fun value => operateWithin cf (ofString [] op) (.string value)) values
        fun value _ => by rw [operateWithin_empty hcf hop]; simp
      obtain ⟨answer, hanswer⟩ := Option.ne_none_iff_exists'.mp htotal
      cases answer with
      | false => exact hanswer
      | true =>
        obtain ⟨value, -, htrue⟩ := search_true hanswer
        rw [operateWithin_empty hcf hop] at htrue
        cases htrue
    have hpart : ∀ value : CFString, IsPart op [] value := by
      intro value
      rcases hop with hop | hop | hop <;>
        · cases hop
          simp [IsPart]
    rw [hnone]
    constructor
    · intro ⟨answer, hanswer, hany⟩
      cases hanswer
      have hnil : strings candidate = [] := by
        rw [List.eq_nil_iff_forall_not_mem]
        intro value hmem
        exact Bool.noConfusion (hany.mpr ⟨value, hmem, hpart value⟩)
      exact ⟨Or.inr hnil, by simp⟩
    · intro ⟨hnil, _⟩
      rcases hnil with hne | hnil
      · exact absurd rfl hne
      · exact ⟨false, rfl, by simp [hnil]⟩
  · rw [search_exact_iff (operateWithin_part hcf hop hstring), search_part_iff hcf hop hstring]
    exact ⟨fun h => ⟨Or.inl hstring, h⟩, fun h => h.2⟩

/-- A match searches within the candidate and answers as documented when it looks for no empty
operand, and for no beginning of a string that is shorter than the operand. -/
theorem evaluate_exact_iff (hcf : cf.Finds) (hm : Constructed m) (candidate : Option Plist) :
    (∃ answer, m.evaluate cf candidate = some answer ∧
      (answer = true ↔ ∃ value, candidate = some value ∧ Accepts cf m value)) ↔
        ∀ value ∈ candidate, m.Exact value := by
  cases candidate with
  | none => simp [evaluate]
  | some value =>
    simp only [evaluate, Option.some.injEq, exists_eq_left', Option.mem_def, forall_eq']
    by_cases hop : LooksForPart m
    · obtain ⟨string, op, rfl⟩ := ofString_of_looksForPart hm hop
      exact applyWithin_part_iff hcf hop value
    · have hexact : m.Exact value := by
        rw [Exact]
        split
        · exact absurd (Or.inl ‹_›) hop
        · exact absurd (Or.inr (Or.inr ‹_›)) hop
        · exact absurd (Or.inr (Or.inl ‹_›)) hop
        · trivial
      exact ⟨fun _ => hexact, fun _ => applyWithin_of_total (operateWithin_total hm hop) value⟩

def sampleFoundation : CoreFoundation where
  makeCFString octets := .ok (octets.map UInt8.toUInt16)
  stringFind value string location length :=
    string ≠ [] && decide (string <:+: (value.drop location).take length)
  compareNumerically value string := compare value.length string.length
  dateCreate seconds := seconds

theorem sampleFoundation_finds : sampleFoundation.Finds where
  found value string location length hstring _ := by simp [sampleFoundation, hstring]
  empty value location length _ := by simp [sampleFoundation]

theorem evaluate_exact_iff_sample :
    (∃ answer, (ofString [97] matchBeginsWith).evaluate sampleFoundation
        (some (.array [.string [97, 98]])) = some answer ∧
      (answer = true ↔ ∃ value, some (Plist.array [.string [97, 98]]) = some value ∧
        Accepts sampleFoundation (ofString [97] matchBeginsWith) value)) ↔
      ∀ value ∈ some (Plist.array [.string [97, 98]]), (ofString [97] matchBeginsWith).Exact value :=
  evaluate_exact_iff sampleFoundation_finds (.ofString [97] matchBeginsWith) _

/-- The candidate `a`, searched for the beginning `ab`. -/
theorem beginsWith_outside :
    (ofString [97, 98] matchBeginsWith).evaluate sampleFoundation (some (.string [97])) = none := by
  decide

/-- What the interpreter finds of a match that it has read from a requirement. -/
theorem apply_iff_accepts (hcf : cf.Finds) {req : List UInt8} {suffix : Suffix} {start stop : Nat}
    (hat : suffix.At req start stop) (hdenote : suffix.denote cf = .ok m)
    (hexact : m.Exact candidate) : m.apply cf candidate = true ↔ Accepts cf m candidate := by
  have hm := constructed_of_denote cf hat hdenote
  obtain ⟨answer, hanswer, haccepts⟩ : ∃ answer, applyWithin cf m candidate = some answer ∧
      (answer = true ↔ Accepts cf m candidate) := by
    by_cases hop : LooksForPart m
    · obtain ⟨string, op, rfl⟩ := ofString_of_looksForPart hm hop
      exact (applyWithin_part_iff hcf hop candidate).mpr hexact
    · exact applyWithin_of_total (operateWithin_total hm hop) candidate
  rw [apply_of_applyWithin hanswer]
  exact haccepts

theorem apply_iff_accepts_contains :
    (ofString [97] matchContains).apply sampleFoundation (.array [.string [98, 97]]) = true ↔
      Accepts sampleFoundation (ofString [97] matchContains) (.array [.string [98, 97]]) := by
  have hvalue : DataAt [0, 0, 0, 0, 0, 0, 0, 20, 0, 0, 0, 2, 0, 0, 0, 1, 97, 0, 0, 0] 12 [97] 20 :=
    ⟨⟨by decide, rfl, by decide⟩, by decide, by decide, rfl, by decide⟩
  exact apply_iff_accepts sampleFoundation_finds
    (.string (show NumberAt _ 4 8 2 12 from ⟨by decide, rfl, by decide⟩) rfl rfl hvalue) rfl
    (.inl (by decide))
end Match
end Requirement
end SecurityFramework
