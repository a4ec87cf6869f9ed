import Mathlib.Data.List.Nodup

/-!
# Sets by key

A finite set of values that are told apart by a key.
-/

structure KeyedSet {α κ : Type*} (key : α → κ) where
  members : List α
  distinct : (members.map key).Nodup

namespace KeyedSet
variable {α κ : Type*} {key : α → κ}

def empty (key : α → κ) : KeyedSet key := ⟨[], List.nodup_nil⟩

def keys (s : KeyedSet key) : List κ := s.members.map key

def filter (s : KeyedSet key) (test : α → Bool) : KeyedSet key where
  members := s.members.filter test
  distinct := s.distinct.sublist (List.filter_sublist.map key)

theorem map_key_replace (members : List α) (f : α → α) (hf : ∀ a ∈ members, key (f a) = key a) :
    (members.map f).map key = members.map key := by
  rw [List.map_map]
  exact List.map_congr_left hf

@[simp] theorem keys_empty : (empty key).keys = [] := rfl

theorem members_filter (s : KeyedSet key) (test : α → Bool) :
    (s.filter test).members = s.members.filter test := rfl

variable {a : α} {s : KeyedSet key} {k : κ}

theorem mem_members_filter {test : α → Bool} :
    a ∈ (s.filter test).members ↔ a ∈ s.members ∧ test a = true :=
  List.mem_filter

variable [DecidableEq κ]

def find? (s : KeyedSet key) (k : κ) : Option α := s.members.find? fun a => key a = k

def contains (s : KeyedSet key) (k : κ) : Bool := (s.find? k).isSome

theorem find?_eq_none_iff : s.find? k = none ↔ k ∉ s.keys := by
  rw [find?, List.find?_eq_none, keys, List.mem_map]
  constructor
  · rintro hnone ⟨a, ha, rfl⟩
    exact hnone a ha (decide_eq_true rfl)
  · intro hnone a ha heq
    exact hnone ⟨a, ha, of_decide_eq_true heq⟩

theorem contains_iff : s.contains k = true ↔ k ∈ s.keys := by
  rw [contains, Option.isSome_iff_ne_none, Ne, find?_eq_none_iff, not_not]

theorem mem_of_find? (h : s.find? k = some a) :
    a ∈ s.members ∧ key a = k := by
  have htest := List.find?_some (p := fun a => decide (key a = k)) h
  exact ⟨List.mem_of_find?_eq_some h, of_decide_eq_true htest⟩

theorem find?_key (ha : a ∈ s.members) : s.find? (key a) = some a := by
  cases hfind : s.find? (key a) with
  | none =>
    have hmem := List.mem_map_of_mem (f := key) ha
    exact absurd hmem (find?_eq_none_iff.mp hfind)
  | some b =>
    obtain ⟨hb, hkey⟩ := mem_of_find? hfind
    rw [List.inj_on_of_nodup_map s.distinct hb ha hkey]

theorem find?_eq_some_iff :
    s.find? k = some a ↔ a ∈ s.members ∧ key a = k := by
  constructor
  · exact mem_of_find?
  · rintro ⟨ha, rfl⟩
    exact find?_key ha

theorem find?_filter {test : α → Bool} :
    (s.filter test).find? k = (s.find? k).filter test := by
  ext a
  rw [find?_eq_some_iff, mem_members_filter, Option.filter_eq_some_iff, find?_eq_some_iff]
  tauto

/-- A set that has the key is left alone. -/
def add (s : KeyedSet key) (a : α) : KeyedSet key :=
  if h : key a ∈ s.keys then s
  else ⟨s.members ++ [a], by
    rw [List.map_append, List.nodup_append]
    refine ⟨s.distinct, List.nodup_singleton _, ?_⟩
    intro k hk k' hk' heq
    rw [List.map_singleton, List.mem_singleton] at hk'
    rw [heq, hk'] at hk
    exact h hk⟩

def remove (s : KeyedSet key) (k : κ) : KeyedSet key := s.filter fun a => key a ≠ k

/-- A set that does not have the key is left alone. -/
def replace (s : KeyedSet key) (a : α) : KeyedSet key where
  members := s.members.map fun b => if key b = key a then a else b
  distinct := by
    rw [map_key_replace]
    · exact s.distinct
    · intro b _
      split
      case isTrue heq => exact heq.symm
      case isFalse => rfl

/-- What has the key is replaced, and nothing else is. -/
def set (s : KeyedSet key) (a : α) : KeyedSet key := (s.replace a).add a

theorem add_of_mem (hmem : key a ∈ s.keys) : s.add a = s :=
  dif_pos hmem

theorem members_add_of_notMem (hmem : key a ∉ s.keys) :
    (s.add a).members = s.members ++ [a] := by
  rw [add, dif_neg hmem]

theorem mem_keys_add :
    k ∈ (s.add a).keys ↔ k ∈ s.keys ∨ k = key a := by
  rw [add]
  split
  case isTrue hmem =>
    constructor
    · exact Or.inl
    · rintro (hk | rfl)
      · exact hk
      · exact hmem
  case isFalse => simp [keys]

theorem mem_members_add {b : α} :
    b ∈ (s.add a).members ↔ b ∈ s.members ∨ (b = a ∧ key a ∉ s.keys) := by
  rw [add]
  split
  case isTrue hmem => simp [hmem]
  case isFalse hmem => simp [hmem]

theorem find?_add :
    (s.add a).find? (key a) = some ((s.find? (key a)).getD a) := by
  rw [find?_eq_some_iff, mem_members_add]
  cases hfind : s.find? (key a) with
  | none => exact ⟨Or.inr ⟨rfl, find?_eq_none_iff.mp hfind⟩, rfl⟩
  | some b => exact ⟨Or.inl (mem_of_find? hfind).1, (mem_of_find? hfind).2⟩

/-- What is put in before a test or after it is the same, if what is then found passes the test. -/
theorem map_members_filter_add {β : Type*} {s : KeyedSet key} {test : α → Bool} {a b : α}
    (hkey : key b = key a) (f : α → β) (hf : f b = f a)
    (hpass : test ((s.find? (key a)).getD a) = true) :
    ((s.filter test).add b).members.map f = ((s.add a).filter test).members.map f := by
  by_cases hmem : key a ∈ s.keys
  case pos =>
    obtain ⟨c, hc, hsame⟩ := List.mem_map.mp hmem
    rw [← hsame, find?_key hc] at hpass
    have hkept : key b ∈ (s.filter test).keys := by
      rw [hkey, ← hsame]
      exact List.mem_map_of_mem (mem_members_filter.mpr ⟨hc, hpass⟩)
    rw [add_of_mem hmem, add_of_mem hkept]
  case neg =>
    rw [find?_eq_none_iff.mpr hmem] at hpass
    have hnew : key b ∉ (s.filter test).keys := by
      rw [hkey]
      exact fun hmem' => hmem ((List.filter_sublist.map key).subset hmem')
    rw [members_add_of_notMem hnew, members_filter, members_filter, members_add_of_notMem hmem]
    have hpass' : test a = true := hpass
    simp [hpass', hf]

/-- What is put in after a test is there, where what was put in before fails it. -/
theorem members_filter_add {s : KeyedSet key} {test : α → Bool} {a b : α} (hkey : key b = key a)
    (hfail : test ((s.find? (key a)).getD a) = false) :
    ((s.filter test).add b).members = ((s.add a).filter test).members ++ [b] := by
  have hnew : key b ∉ (s.filter test).keys := by
    intro hmem
    obtain ⟨c, hc, hsame⟩ := List.mem_map.mp hmem
    obtain ⟨hc, hpass⟩ := mem_members_filter.mp hc
    rw [← hkey, ← hsame, find?_key hc, Option.getD_some, hpass] at hfail
    cases hfail
  rw [members_add_of_notMem hnew]
  by_cases hmem : key a ∈ s.keys
  case pos => rw [add_of_mem hmem]
  case neg =>
    rw [find?_eq_none_iff.mpr hmem] at hfail
    have hfail' : test a = false := hfail
    rw [members_filter, members_filter, members_add_of_notMem hmem]
    simp [hfail']

theorem mem_members_remove :
    a ∈ (s.remove k).members ↔ a ∈ s.members ∧ key a ≠ k := by
  rw [remove, mem_members_filter, decide_eq_true_eq]

theorem mem_keys_remove {k' : κ} :
    k' ∈ (s.remove k).keys ↔ k' ∈ s.keys ∧ k' ≠ k := by
  simp only [keys, List.mem_map, mem_members_remove]
  constructor
  · rintro ⟨a, ⟨ha, hne⟩, rfl⟩
    exact ⟨⟨a, ha, rfl⟩, hne⟩
  · rintro ⟨⟨a, ha, rfl⟩, hne⟩
    exact ⟨a, ⟨ha, hne⟩, rfl⟩

theorem find?_replace_of_ne (hne : k ≠ key a) :
    (s.replace a).find? k = s.find? k := by
  have hkept : ∀ b, key (if key b = key a then a else b) = key b := by
    intro b
    split
    case isTrue heq => exact heq.symm
    case isFalse => rfl
  rw [find?, replace, List.find?_map]
  simp only [Function.comp_def, hkept]
  change Option.map _ (s.find? k) = s.find? k
  cases hfind : s.find? k with
  | none => rfl
  | some b =>
    have hother : key b ≠ key a := by
      rw [(mem_of_find? hfind).2]
      exact hne
    rw [Option.map_some, if_neg hother]

theorem find?_replace (hmem : key a ∈ s.keys) :
    (s.replace a).find? (key a) = some a := by
  obtain ⟨b, hb, heq⟩ := List.mem_map.mp hmem
  rw [find?_eq_some_iff]
  refine ⟨List.mem_map.mpr ⟨b, hb, if_pos heq⟩, rfl⟩

/-- A member that is replaced by one with the same facts leaves the facts of the members alone. -/
theorem map_members_replace {β : Type*} {b : α} (f : α → β) (hfind : s.find? (key a) = some b)
    (hsame : f a = f b) :
    (s.replace a).members.map f = s.members.map f := by
  rw [replace, List.map_map]
  apply List.map_congr_left
  intro c hc
  simp only [Function.comp_apply]
  split
  case isTrue heq =>
    have hc' := find?_key hc
    rw [heq, hfind] at hc'
    cases hc'
    exact hsame
  case isFalse => rfl

@[simp] theorem keys_replace (s : KeyedSet key) (a : α) : (s.replace a).keys = s.keys := by
  apply map_key_replace
  intro b _
  split
  case isTrue heq => exact heq.symm
  case isFalse => rfl

theorem mem_members_replace {b : α} :
    b ∈ (s.replace a).members ↔
      (b ∈ s.members ∧ key b ≠ key a) ∨ (b = a ∧ key a ∈ s.keys) := by
  rw [replace, List.mem_map]
  constructor
  · rintro ⟨c, hc, rfl⟩
    split
    case isTrue heq =>
      right
      exact ⟨rfl, heq ▸ List.mem_map_of_mem hc⟩
    case isFalse hne => exact .inl ⟨hc, hne⟩
  · rintro (⟨hb, hne⟩ | ⟨rfl, hmem⟩)
    · exact ⟨b, hb, if_neg hne⟩
    · obtain ⟨c, hc, heq⟩ := List.mem_map.mp hmem
      exact ⟨c, hc, if_pos heq⟩

theorem mem_members_set {b : α} :
    b ∈ (s.set a).members ↔ b = a ∨ (b ∈ s.members ∧ key b ≠ key a) := by
  rw [set, mem_members_add, mem_members_replace, keys_replace]
  tauto
end KeyedSet
