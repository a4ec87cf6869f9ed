import SecurityFramework.Authd.RuleDatabase

/-!
# Which rule guards a right

A right is guarded by the rule of its name.
-/

namespace SecurityFramework.Authd
def AuthDatabase.hasRight (db : AuthDatabase) (name : List Char) : Bool :=
  db.rules.any fun row => row.name = String.ofList name && row.type = some .right

def lastDot : List Char → Option Nat
  | [] => none
  | ch :: buf =>
    match lastDot buf with
    | some dot => some (dot + 1)
    | none => if ch = '.' then some 0 else none

def removeDot (buf : List Char) (ptr : Nat) : List Char :=
  if buf[ptr]? = some '.' then buf.take ptr else buf

variable {buf name : List Char}

theorem lastDot_eq_none (h : lastDot buf = none) (ix : Nat) :
    buf[ix]? ≠ some '.' := by
  induction buf generalizing ix with
  | nil => simp
  | cons ch buf ih =>
    rw [lastDot] at h
    split at h
    case h_1 => cases h
    case h_2 hlast =>
      split at h
      case isTrue => cases h
      case isFalse hch =>
        cases ix with
        | zero => simpa using hch
        | succ ix => exact ih hlast ix

theorem lastDot_eq_some {dot : Nat} (h : lastDot buf = some dot) :
    buf[dot]? = some '.' ∧ ∀ ix, buf[ix]? = some '.' → ix ≤ dot := by
  induction buf generalizing dot with
  | nil => cases h
  | cons ch buf ih =>
    rw [lastDot] at h
    split at h
    case h_1 last hlast =>
      cases h
      obtain ⟨hdot, hlater⟩ := ih hlast
      refine ⟨hdot, ?_⟩
      intro ix hix
      cases ix with
      | zero => exact Nat.zero_le _
      | succ ix => exact Nat.succ_le_succ (hlater ix hix)
    case h_2 hlast =>
      split at h
      case isFalse => cases h
      case isTrue hch =>
        cases h
        refine ⟨by rw [hch]; rfl, ?_⟩
        intro ix hix
        cases ix with
        | zero => exact Nat.le_refl _
        | succ ix => exact absurd hix (lastDot_eq_none hlast ix)

/-- Either a dot goes, or `ptr` comes to be at one. -/
theorem search_decreases {ptr dot : Nat} (h : lastDot (removeDot buf ptr) = some dot) :
    2 * ((removeDot buf ptr).take (dot + 1)).length +
        (if ((removeDot buf ptr).take (dot + 1))[dot]? = some '.' then 0 else 1) <
      2 * buf.length + (if buf[ptr]? = some '.' then 0 else 1) := by
  have hdot := (lastDot_eq_some h).1
  have hlt : dot < (removeDot buf ptr).length := (List.getElem?_eq_some_iff.mp hdot).1
  rw [List.getElem?_take_of_lt (Nat.lt_succ_self dot), if_pos hdot, List.length_take]
  by_cases hptr : buf[ptr]? = some '.'
  · have hlength : ptr < buf.length := (List.getElem?_eq_some_iff.mp hptr).1
    have hremoved : (removeDot buf ptr).length = ptr := by
      rw [removeDot, if_pos hptr, List.length_take]
      omega
    rw [if_pos hptr]
    omega
  · have hremoved : removeDot buf ptr = buf := if_neg hptr
    rw [if_neg hptr, hremoved]
    omega

/-- The loop of `_find_rule`, to the name that it creates a rule with. -/
def findRuleName (hasRight : List Char → Bool) (exact_match : Bool) (buf : List Char)
    (ptr : Nat) : Option (List Char) :=
  if hasRight buf then some buf
  else if exact_match then none
  else
    match _h : lastDot (removeDot buf ptr) with
    | some dot =>
      findRuleName hasRight exact_match ((removeDot buf ptr).take (dot + 1)) dot
    | none => none
termination_by 2 * buf.length + (if buf[ptr]? = some '.' then 0 else 1)
decreasing_by exact search_decreases _h

def ruleCreateDefault : RuleObject :=
  .mk { namedItems "(default)" with type := some .right, cls := some .user, group := some "admin" } []

/-- `""` is the name of the default rule. -/
def defaultRule (fuel : Nat) (db : AuthDatabase) : Option RuleObject :=
  (ruleCreateWithString fuel db "").map fun rule =>
    if rule.items.id = 0 then ruleCreateDefault else rule

/-- `_find_rule`. The fuel is for fetching the rule. -/
def findRule (fuel : Nat) (db : AuthDatabase) (string : String) (exact_match : Bool) :
    Option (Option RuleObject) :=
  match findRuleName db.hasRight exact_match string.toList string.toList.length with
  | some name => (ruleCreateWithString fuel db (String.ofList name)).map some
  | none => if exact_match then some none else (defaultRule fuel db).map some

def IsWildcardFor (name right : List Char) : Prop :=
  name <+: right ∧ name ≠ right ∧ name.getLast? = some '.'

def IsLongestWildcard (hasRight : List Char → Bool) (right name : List Char) : Prop :=
  (IsWildcardFor name right ∧ hasRight name) ∧
    ∀ other, IsWildcardFor other right → hasRight other → other.length ≤ name.length

theorem getLast?_eq_dot (h : name.getLast? = some '.') :
    ∃ stem, name = stem ++ ['.'] := by
  obtain ⟨stem, rfl⟩ := List.getLast?_eq_some_iff.mp h
  exact ⟨stem, rfl⟩

/-- A wildcard that is a prefix stays one when the last dot is removed, and reaches to a dot. -/
theorem wildcard_of_removeDot {ptr : Nat} (hptr : buf[ptr]? = some '.' → ptr + 1 = buf.length)
    (hname : IsWildcardFor name buf) :
    name <+: removeDot buf ptr ∧ (removeDot buf ptr)[name.length - 1]? = some '.' := by
  obtain ⟨hstart, hne, hlast⟩ := hname
  have hshort : name.length < buf.length := by
    have hle := hstart.length_le
    have hlength : name.length ≠ buf.length := fun h => hne (hstart.eq_of_length h)
    omega
  have hremoved : name <+: removeDot buf ptr := by
    rw [removeDot]
    split
    case isTrue hdot =>
      have hlength := hptr hdot
      exact List.prefix_take_iff.mpr ⟨hstart, by omega⟩
    case isFalse => exact hstart
  refine ⟨hremoved, ?_⟩
  obtain ⟨stem, rfl⟩ := getLast?_eq_dot hlast
  obtain ⟨rest, hrest⟩ := hremoved
  rw [← hrest, List.length_append, List.length_singleton, Nat.add_sub_cancel]
  simp

theorem wildcard_le_lastDot {ptr dot : Nat} (hptr : buf[ptr]? = some '.' → ptr + 1 = buf.length)
    (hname : IsWildcardFor name buf) (hdot : lastDot (removeDot buf ptr) = some dot) :
    name <+: (removeDot buf ptr).take (dot + 1) := by
  obtain ⟨hstart, hat⟩ := wildcard_of_removeDot hptr hname
  have hle := (lastDot_eq_some hdot).2 _ hat
  exact List.prefix_take_iff.mpr ⟨hstart, by omega⟩

theorem next_isPrefix {ptr dot : Nat} (hdot : lastDot (removeDot buf ptr) = some dot) :
    (removeDot buf ptr).take (dot + 1) <+: buf ∧
      ((removeDot buf ptr).take (dot + 1)).getLast? = some '.' ∧
      dot + 1 = ((removeDot buf ptr).take (dot + 1)).length := by
  have hat := (lastDot_eq_some hdot).1
  have hlt : dot < (removeDot buf ptr).length := (List.getElem?_eq_some_iff.mp hat).1
  have hlength : ((removeDot buf ptr).take (dot + 1)).length = dot + 1 := by
    rw [List.length_take]
    omega
  have hremoved : removeDot buf ptr <+: buf := by
    rw [removeDot]
    split
    case isTrue => exact List.take_prefix _ _
    case isFalse => exact List.prefix_rfl
  refine ⟨(List.take_prefix _ _).trans hremoved, ?_, hlength.symm⟩
  rw [List.getLast?_eq_getElem?, hlength, Nat.add_sub_cancel,
    List.getElem?_take_of_lt (Nat.lt_succ_self dot), hat]

section
variable {hasRight : List Char → Bool} {buf : List Char} {ptr dot : Nat}

/-- With nothing at the name itself, the prefixes are those of where the search goes on, which is
one of them unless the name itself ends there. -/
theorem wildcard_next (hptr : buf[ptr]? = some '.' → ptr + 1 = buf.length)
    (hdot : lastDot (removeDot buf ptr) = some dot) (hnot : ¬ hasRight buf) (name : List Char) :
    IsWildcardFor name buf ∧ hasRight name ↔
      (name = (removeDot buf ptr).take (dot + 1) ∨
        IsWildcardFor name ((removeDot buf ptr).take (dot + 1))) ∧ hasRight name := by
  obtain ⟨hstart, hlast, -⟩ := next_isPrefix hdot
  constructor
  · intro h
    refine ⟨?_, h.2⟩
    by_cases hname : name = (removeDot buf ptr).take (dot + 1)
    · exact .inl hname
    · exact .inr ⟨wildcard_le_lastDot hptr h.1 hdot, hname, h.1.2.2⟩
  · intro h
    refine ⟨?_, h.2⟩
    have hne : name ≠ buf := by
      intro heq
      rw [heq] at h
      exact hnot h.2
    rcases h.1 with heq | hname
    · exact ⟨heq ▸ hstart, hne, heq ▸ hlast⟩
    · exact ⟨hname.1.trans hstart, hne, hname.2.2⟩

theorem no_wildcard (hptr : buf[ptr]? = some '.' → ptr + 1 = buf.length)
    (hdot : lastDot (removeDot buf ptr) = none) (name : List Char) : ¬ IsWildcardFor name buf := by
  intro hname
  exact lastDot_eq_none hdot _ (wildcard_of_removeDot hptr hname).2

theorem findRuleName_found (exact_match : Bool) (hhas : hasRight buf) :
    findRuleName hasRight exact_match buf ptr = some buf := by
  rw [findRuleName, if_pos hhas]

theorem findRuleName_next (hnot : ¬ hasRight buf) (hdot : lastDot (removeDot buf ptr) = some dot) :
    findRuleName hasRight false buf ptr =
      findRuleName hasRight false ((removeDot buf ptr).take (dot + 1)) dot := by
  rw [findRuleName, if_neg hnot, if_neg Bool.false_ne_true]
  split
  case h_1 other hother =>
    cases hdot.symm.trans hother
    rfl
  case h_2 hnone => cases hdot.symm.trans hnone

theorem findRuleName_end (hnot : ¬ hasRight buf) (hdot : lastDot (removeDot buf ptr) = none) :
    findRuleName hasRight false buf ptr = none := by
  rw [findRuleName, if_neg hnot, if_neg Bool.false_ne_true]
  split
  case h_1 other hother => cases hdot.symm.trans hother
  case h_2 => rfl

theorem findRuleName_spec (buf : List Char) (ptr : Nat)
    (hptr : buf[ptr]? = some '.' → ptr + 1 = buf.length) (hnot : ¬ hasRight buf) :
    (∀ name, findRuleName hasRight false buf ptr = some name →
      IsLongestWildcard hasRight buf name) ∧
    (findRuleName hasRight false buf ptr = none →
      ∀ name, IsWildcardFor name buf → ¬ hasRight name) := by
  induction buf, ptr using findRuleName.induct hasRight false with
  | case1 buf ptr hhas => exact absurd hhas hnot
  | case2 buf ptr _ hexact => cases hexact
  | case4 buf ptr _ _ hdot =>
    constructor
    · intro name hfound
      rw [findRuleName_end hnot hdot] at hfound
      cases hfound
    · intro _ name hname
      exact absurd hname (no_wildcard hptr hdot name)
  | case3 buf ptr _ _ dot hdot ih =>
    have hnext := fun name => wildcard_next hptr hdot hnot name
    have hend := (next_isPrefix hdot).2.2
    rw [findRuleName_next hnot hdot]
    by_cases hhas : hasRight ((removeDot buf ptr).take (dot + 1))
    · rw [findRuleName_found false hhas]
      constructor
      · intro name hfound
        cases hfound
        refine ⟨(hnext _).mpr ⟨.inl rfl, hhas⟩, ?_⟩
        intro other hother hright
        rcases ((hnext other).mp ⟨hother, hright⟩).1 with heq | hshorter
        · exact (congrArg List.length heq).le
        · exact hshorter.1.length_le
      · intro hnone
        cases hnone
    · obtain ⟨hfound, hnone⟩ := ih (fun _ => hend) hhas
      -- the name where the search goes on has no rule, so only its own prefixes are left
      have hrest : ∀ name, IsWildcardFor name buf ∧ hasRight name ↔
          IsWildcardFor name ((removeDot buf ptr).take (dot + 1)) ∧ hasRight name := by
        intro name
        rw [hnext name]
        constructor
        · intro h
          rcases h.1 with heq | hname
          · exact absurd (heq ▸ h.2) hhas
          · exact ⟨hname, h.2⟩
        · intro h
          exact ⟨.inr h.1, h.2⟩
      constructor
      · intro name hname
        obtain ⟨hwildcard, hlongest⟩ := hfound name hname
        refine ⟨(hrest name).mpr hwildcard, ?_⟩
        intro other hother hright
        obtain ⟨hother', hright'⟩ := (hrest other).mp ⟨hother, hright⟩
        exact hlongest other hother' hright'
      · intro hempty name hname hright
        obtain ⟨hname', hright'⟩ := (hrest name).mp ⟨hname, hright⟩
        exact hnone hempty name hname' hright'
end

theorem IsLongestWildcard.unique {hasRight : List Char → Bool} {right name' : List Char}
    (h : IsLongestWildcard hasRight right name) (h' : IsLongestWildcard hasRight right name') :
    name = name' := by
  have hle := h.2 name' h'.1.1 h'.1.2
  have hge := h'.2 name h.1.1 h.1.2
  obtain ⟨rest, hrest⟩ := List.prefix_of_prefix_length_le h.1.1.1 h'.1.1.1 hge
  have hlength := congrArg List.length hrest
  rw [List.length_append] at hlength
  have hnil : rest = [] := List.length_eq_zero_iff.mp (by omega)
  rw [← hrest, hnil, List.append_nil]

theorem start_at_end (right : List Char) :
    right[right.length]? = some '.' → right.length + 1 = right.length := by
  intro h
  rw [List.getElem?_eq_none (Nat.le_refl _)] at h
  cases h

end SecurityFramework.Authd
