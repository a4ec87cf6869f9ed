import Mathlib.Data.Finmap
import Mathlib.Data.Finset.Sort

/-!
# Dictionaries

A dictionary is a finite map.
-/

abbrev Dictionary (κ : Type*) (ν : Type*) := Finmap fun _ : κ => ν

namespace Dictionary
variable {κ ν μ : Type*}

section
variable [DecidableEq κ]

def assign (key : κ) : Option ν → Dictionary κ ν → Dictionary κ ν
  | some value, entries => entries.insert key value
  | none, entries => entries.erase key

def assignAll (assignments : List (κ × Option ν)) (entries : Dictionary κ ν) : Dictionary κ ν :=
  assignments.foldl (fun entries assignment => assign assignment.1 assignment.2 entries) entries

def filterMap (f : κ → ν → Option μ) (entries : Dictionary κ ν) : Dictionary κ μ :=
  Finmap.keysLookupEquiv.symm
    ⟨⟨entries.keys.filter fun key => ((entries.lookup key).bind (f key)).isSome,
      fun key => (entries.lookup key).bind (f key)⟩, by
      intro key
      rw [Finset.mem_filter]
      refine ⟨fun hsome => ⟨?_, hsome⟩, fun hmem => hmem.2⟩
      obtain ⟨value, hvalue⟩ := Option.isSome_iff_exists.mp hsome
      obtain ⟨old, hold, -⟩ := Option.bind_eq_some_iff.mp hvalue
      exact Finmap.mem_keys.mpr (Finmap.mem_of_lookup_eq_some hold)⟩

def overlay (entries old : Dictionary κ ν) : Dictionary κ ν := entries ∪ old

@[simp] theorem lookup_assign (key : κ) (value : Option ν) (entries : Dictionary κ ν) :
    (assign key value entries).lookup key = value := by
  cases value with
  | none => exact Finmap.lookup_erase key entries
  | some value => exact Finmap.lookup_insert entries

theorem lookup_assign_ne {key other : κ} (h : other ≠ key) (value : Option ν)
    (entries : Dictionary κ ν) : (assign key value entries).lookup other = entries.lookup other := by
  cases value with
  | none => exact Finmap.lookup_erase_ne h
  | some value => exact Finmap.lookup_insert_of_ne entries h

variable {assignments : List (κ × Option ν)} {entries : Dictionary κ ν} {f : κ → ν → Option μ}

theorem lookup_assignAll_of_notMem {key : κ} (h : key ∉ assignments.map Prod.fst)
    (entries : Dictionary κ ν) :
    (assignAll assignments entries).lookup key = entries.lookup key := by
  induction assignments generalizing entries with
  | nil => rfl
  | cons assignment assignments ih =>
    rw [List.map_cons, List.mem_cons, not_or] at h
    exact (ih h.2 _).trans (lookup_assign_ne h.1 _ _)

theorem lookup_assignAll (hnodup : (assignments.map Prod.fst).Nodup) {key : κ} {value : Option ν}
    (h : (key, value) ∈ assignments) (entries : Dictionary κ ν) :
    (assignAll assignments entries).lookup key = value := by
  induction assignments generalizing entries with
  | nil => cases h
  | cons assignment assignments ih =>
    rw [List.map_cons, List.nodup_cons] at hnodup
    rcases List.mem_cons.mp h with rfl | hmem
    · exact (lookup_assignAll_of_notMem hnodup.1 _).trans (lookup_assign _ _ _)
    · exact ih hnodup.2 hmem _

@[simp] theorem lookup_filterMap (f : κ → ν → Option μ) (entries : Dictionary κ ν) (key : κ) :
    (filterMap f entries).lookup key = (entries.lookup key).bind (f key) := by
  rw [filterMap, Finmap.keysLookupEquiv_symm_apply_lookup]

theorem card_keys_filterMap_le (f : κ → ν → Option μ) (entries : Dictionary κ ν) :
    (filterMap f entries).keys.card ≤ entries.keys.card := by
  apply Finset.card_le_card
  intro key hkey
  rw [Finmap.mem_keys, Finmap.mem_iff] at hkey ⊢
  obtain ⟨value, hvalue⟩ := hkey
  rw [lookup_filterMap] at hvalue
  obtain ⟨old, hold, -⟩ := Option.bind_eq_some_iff.mp hvalue
  exact ⟨old, hold⟩

@[simp] theorem lookup_overlay (entries old : Dictionary κ ν) (key : κ) :
    (overlay entries old).lookup key = (entries.lookup key).or (old.lookup key) := by
  rw [overlay]
  by_cases hkey : key ∈ entries
  · rw [Finmap.lookup_union_left hkey]
    obtain ⟨value, hvalue⟩ := Finmap.mem_iff.mp hkey
    rw [hvalue, Option.some_or]
  · rw [Finmap.lookup_union_right hkey, Finmap.lookup_eq_none.mpr hkey, Option.none_or]

theorem lookup_overlay_of_none {key : κ} (h : entries.lookup key = none) (old : Dictionary κ ν) :
    (overlay entries old).lookup key = old.lookup key := by
  rw [lookup_overlay, h, Option.none_or]

theorem filterMap_congr {others : Dictionary κ ν}
    (h : ∀ key, (entries.lookup key).bind (f key) = (others.lookup key).bind (f key)) :
    filterMap f entries = filterMap f others := by
  refine Finmap.ext_lookup fun key => ?_
  rw [lookup_filterMap, lookup_filterMap, h]

theorem filterMap_empty (f : κ → ν → Option μ) : filterMap f (∅ : Dictionary κ ν) = ∅ := by
  refine Finmap.ext_lookup fun key => ?_
  rw [lookup_filterMap, Finmap.lookup_empty, Finmap.lookup_empty, Option.bind_none]

/-- Assigning an entry that `f` leaves out, as it was and as it is, changes nothing of what is
made. -/
theorem filterMap_assign {key : κ} {value : Option ν}
    (hold : (entries.lookup key).bind (f key) = none) (hnew : value.bind (f key) = none) :
    filterMap f (assign key value entries) = filterMap f entries := by
  refine filterMap_congr fun other => ?_
  by_cases hkey : other = key
  · subst hkey
    rw [lookup_assign, hold, hnew]
  · rw [lookup_assign_ne hkey]

theorem filterMap_assignAll
    (hold : ∀ assignment ∈ assignments, (entries.lookup assignment.1).bind (f assignment.1) = none)
    (hnew : ∀ assignment ∈ assignments, assignment.2.bind (f assignment.1) = none) :
    filterMap f (assignAll assignments entries) = filterMap f entries := by
  induction assignments generalizing entries with
  | nil => rfl
  | cons assignment assignments ih =>
    rw [List.forall_mem_cons] at hold hnew
    have hnext : ∀ later ∈ assignments,
        ((assign assignment.1 assignment.2 entries).lookup later.1).bind (f later.1) = none := by
      intro later hlater
      by_cases hkey : later.1 = assignment.1
      · rw [hkey, lookup_assign, hnew.1]
      · rw [lookup_assign_ne hkey, hold.2 later hlater]
    exact (ih hnext hnew.2).trans (filterMap_assign hold.1 hnew.1)
end

theorem length_filterMap_of_isSome {f : κ → Option ν} {keys : List κ}
    (h : ∀ key ∈ keys, (f key).isSome) : (keys.filterMap f).length = keys.length := by
  induction keys with
  | nil => rfl
  | cons key keys ih =>
    rw [List.forall_mem_cons] at h
    obtain ⟨value, hvalue⟩ := Option.isSome_iff_exists.mp h.1
    rw [List.filterMap_cons_some hvalue, List.length_cons, List.length_cons, ih h.2]

theorem eq_of_filterMap_eq {f g : κ → Option ν} {keys : List κ}
    (hf : ∀ key ∈ keys, (f key).isSome) (hg : ∀ key ∈ keys, (g key).isSome)
    (h : keys.filterMap f = keys.filterMap g) : ∀ key ∈ keys, f key = g key := by
  induction keys with
  | nil => nofun
  | cons key keys ih =>
    rw [List.forall_mem_cons] at hf hg
    obtain ⟨value, hvalue⟩ := Option.isSome_iff_exists.mp hf.1
    obtain ⟨other, hother⟩ := Option.isSome_iff_exists.mp hg.1
    rw [List.filterMap_cons_some hvalue, List.filterMap_cons_some hother] at h
    obtain ⟨hhead, htail⟩ := List.cons.inj h
    refine List.forall_mem_cons.mpr ⟨?_, ih hf.2 hg.2 htail⟩
    rw [hvalue, hother, hhead]

section
variable [LinearOrder κ] [DecidableEq κ]

def sortedValues (entries : Dictionary κ ν) : List ν :=
  (entries.keys.sort (· ≤ ·)).filterMap entries.lookup

theorem isSome_lookup_of_mem_sort (entries : Dictionary κ ν) :
    ∀ key ∈ entries.keys.sort (· ≤ ·), (entries.lookup key).isSome := fun _ hkey =>
  Finmap.lookup_isSome.mpr (Finmap.mem_keys.mp ((Finset.mem_sort _).mp hkey))

theorem length_sortedValues (entries : Dictionary κ ν) :
    entries.sortedValues.length = entries.keys.card := by
  rw [sortedValues, length_filterMap_of_isSome entries.isSome_lookup_of_mem_sort,
    Finset.length_sort]

/-- Dictionaries of which one has all the keys of the other are told apart by their values. -/
theorem eq_of_sortedValues_eq {entries others : Dictionary κ ν}
    (hkeys : entries.keys ⊆ others.keys ∨ others.keys ⊆ entries.keys)
    (h : entries.sortedValues = others.sortedValues) : entries = others := by
  have hcard : entries.keys.card = others.keys.card := by
    rw [← length_sortedValues, ← length_sortedValues, h]
  have hsame : entries.keys = others.keys := by
    rcases hkeys with hsub | hsub
    · exact Finset.eq_of_subset_of_card_le hsub hcard.ge
    · exact (Finset.eq_of_subset_of_card_le hsub hcard.le).symm
  have hothers := others.isSome_lookup_of_mem_sort
  rw [sortedValues, sortedValues, ← hsame] at h
  rw [← hsame] at hothers
  have hlookup := eq_of_filterMap_eq entries.isSome_lookup_of_mem_sort hothers h
  refine Finmap.ext_lookup fun key => ?_
  by_cases hkey : key ∈ entries.keys
  · exact hlookup key ((Finset.mem_sort _).mpr hkey)
  · rw [Finmap.lookup_eq_none.mpr (mt Finmap.mem_keys.mpr hkey),
      Finmap.lookup_eq_none.mpr (mt Finmap.mem_keys.mpr (hsame ▸ hkey))]
end
end Dictionary
