import Mathlib.Data.Fintype.Card

/-!
# Tables of slots

A table has a fixed number of slots, each with an element.
-/

namespace SlotTable
variable {κ ε : Type*} [DecidableEq κ] {n : Nat}

def find? (key : ε → κ) (table : Fin n → ε) (k : κ) : Option (Fin n) :=
  (List.finRange n).find? fun i => key (table i) = k

def entry? (key : ε → κ) (table : Fin n → ε) (k : κ) : Option ε :=
  (find? key table k).map table

def clear (key : ε → κ) (empty : ε) (gone : κ → Prop) [DecidablePred gone] (table : Fin n → ε) :
    Fin n → ε := fun i => if gone (key (table i)) then empty else table i

/-- Only keys of a list are in use, and each in one slot at most. -/
structure Sound (key : ε → κ) (vacant : κ) (keys : List κ) (table : Fin n → ε) : Prop where
  mem : ∀ i, key (table i) ≠ vacant → key (table i) ∈ keys
  distinct : ∀ i j, key (table i) = key (table j) → key (table i) ≠ vacant → i = j

variable {key : ε → κ} {vacant : κ} {keys : List κ} {table : Fin n → ε} {k k' : κ} {i : Fin n}

theorem key_of_find? (h : find? key table k = some i) : key (table i) = k := by
  have hi := List.find?_some h
  simpa using hi

theorem find?_eq_none_iff : find? key table k = none ↔ ∀ i, key (table i) ≠ k := by
  simp [find?, List.find?_eq_none]

theorem entry?_eq_none_iff : entry? key table k = none ↔ ∀ i, key (table i) ≠ k := by
  unfold entry?
  rw [Option.map_eq_none_iff, find?_eq_none_iff]

theorem exists_find? (h : key (table i) = k) : ∃ j, find? key table k = some j := by
  cases hfind : find? key table k with
  | none => exact absurd h (find?_eq_none_iff.mp hfind i)
  | some j => exact ⟨j, rfl⟩

namespace Sound
variable (hsound : Sound key vacant keys table)

include hsound

theorem find?_eq_some_iff (hk : k ≠ vacant) : find? key table k = some i ↔ key (table i) = k := by
  constructor
  · exact key_of_find?
  · intro hkey
    rcases exists_find? hkey with ⟨j, hfind⟩
    have hj := key_of_find? hfind
    rw [hfind, hsound.distinct i j (hkey.trans hj.symm) (by rwa [hkey])]

theorem entry?_eq_some_iff (hk : k ≠ vacant) {e : ε} :
    entry? key table k = some e ↔ ∃ i, table i = e ∧ key e = k := by
  unfold entry?
  rw [Option.map_eq_some_iff]
  constructor
  · rintro ⟨i, hfind, rfl⟩
    exact ⟨i, rfl, key_of_find? hfind⟩
  · rintro ⟨i, rfl, hkey⟩
    exact ⟨i, (hsound.find?_eq_some_iff hk).mpr hkey, rfl⟩

theorem exists_vacant (hlen : keys.length ≤ n) (hmem : k ∈ keys)
    (hnone : find? key table k = none) : ∃ i, find? key table vacant = some i := by
  by_contra hvacant
  have hused : ∀ i, key (table i) ≠ vacant := fun i h =>
    hvacant (exists_find? h)
  have hinjective : Function.Injective fun i => key (table i) :=
    fun i j hij => hsound.distinct i j hij (hused i)
  have hsubset : (List.finRange n).map (fun i => key (table i)) ⊆ keys.erase k := by
    intro q hq
    rcases List.mem_map.mp hq with ⟨i, _, rfl⟩
    exact (List.mem_erase_of_ne (find?_eq_none_iff.mp hnone i)).mpr (hsound.mem i (hused i))
  have hnodup : ((List.finRange n).map fun i => key (table i)).Nodup :=
    (List.nodup_finRange n).map hinjective
  have hle := (List.subperm_of_subset hnodup hsubset).length_le
  rw [List.length_map, List.length_finRange, List.length_erase_of_mem hmem] at hle
  have hpos : 0 < keys.length := List.length_pos_of_mem hmem
  omega

theorem key_ne_of_ne (hk : k ≠ vacant)
    (hslot : find? key table k = some i ∨ find? key table k = none) {j : Fin n} (hj : j ≠ i) :
    key (table j) ≠ k := by
  intro hjk
  rcases hslot with hfind | hnone
  · have hi := key_of_find? hfind
    exact hj (hsound.distinct j i (hjk.trans hi.symm) (by rwa [hjk]))
  · exact find?_eq_none_iff.mp hnone j hjk

theorem update (hk : k ≠ vacant) (hmem : k ∈ keys) {e : ε} (hkey : key e = k)
    (hslot : find? key table k = some i ∨ find? key table k = none) :
    Sound key vacant keys (Function.update table i e) := by
  have hother : ∀ j, j ≠ i → key (table j) ≠ k := fun j => hsound.key_ne_of_ne hk hslot
  constructor
  · intro j hj
    by_cases hji : j = i
    · rw [hji, Function.update_self, hkey]
      exact hmem
    · rw [Function.update_of_ne hji] at hj ⊢
      exact hsound.mem j hj
  · intro j l hjl hj
    by_cases hji : j = i
    · by_cases hli : l = i
      · rw [hji, hli]
      · rw [hji, Function.update_self, Function.update_of_ne hli, hkey] at hjl
        exact absurd hjl.symm (hother l hli)
    · by_cases hli : l = i
      · rw [hli, Function.update_self, Function.update_of_ne hji, hkey] at hjl
        exact absurd hjl (hother j hji)
      · rw [Function.update_of_ne hji, Function.update_of_ne hli] at hjl
        rw [Function.update_of_ne hji] at hj
        exact hsound.distinct j l hjl hj

/-- Writing an element of key `k` to the slot of `k`, or to a vacant slot where there is none,
changes the map at `k` only. -/
theorem entry?_update (hk : k ≠ vacant) (hmem : k ∈ keys) (hk' : k' ≠ vacant) {e : ε}
    (hkey : key e = k)
    (hslot : find? key table k = some i ∨
      (find? key table k = none ∧ key (table i) = vacant)) :
    entry? key (Function.update table i e) k' =
      if k' = k then some e else entry? key table k' := by
  have hold : key (table i) = k ∨ key (table i) = vacant :=
    hslot.imp key_of_find? And.right
  have hsound' := hsound.update hk hmem hkey (hslot.imp_right And.left)
  by_cases hkk : k' = k
  · rw [if_pos hkk, hsound'.entry?_eq_some_iff hk']
    exact ⟨i, Function.update_self .., by rw [hkey, hkk]⟩
  · rw [if_neg hkk]
    cases hentry : entry? key table k' with
    | none =>
      rw [entry?_eq_none_iff] at hentry ⊢
      intro j
      by_cases hji : j = i
      · rw [hji, Function.update_self, hkey]
        exact fun h => hkk h.symm
      · rw [Function.update_of_ne hji]
        exact hentry j
    | some e' =>
      rw [hsound.entry?_eq_some_iff hk'] at hentry
      rcases hentry with ⟨j, rfl, hj⟩
      rw [hsound'.entry?_eq_some_iff hk']
      refine ⟨j, Function.update_of_ne ?_ _ _, hj⟩
      rintro rfl
      rcases hold with hold | hold
      · exact hkk (hj.symm.trans hold)
      · exact hk' (hj.symm.trans hold)

variable {empty : ε} (hempty : key empty = vacant) {gone : κ → Prop} [DecidablePred gone]

include hempty

omit [DecidableEq κ] in
theorem clear {keys' : List κ} (hkeys : ∀ k ∈ keys, ¬ gone k → k ∈ keys') :
    Sound key vacant keys' (SlotTable.clear key empty gone table) := by
  constructor
  · intro i hi
    rw [SlotTable.clear] at hi ⊢
    split at hi
    · exact absurd hempty hi
    · next hgone =>
      rw [if_neg hgone]
      exact hkeys _ (hsound.mem i hi) hgone
  · intro i j hij hi
    simp only [SlotTable.clear] at hij hi
    split at hi
    · exact absurd hempty hi
    · next hgone =>
      rw [if_neg hgone] at hij
      split at hij
      · rw [hempty] at hij
        exact absurd hij hi
      · exact hsound.distinct i j hij hi

theorem entry?_clear (hk : k ≠ vacant) :
    entry? key (SlotTable.clear key empty gone table) k =
      if gone k then none else entry? key table k := by
  have hsound' : Sound key vacant _ (SlotTable.clear key empty gone table) :=
    hsound.clear hempty fun k hk _ => hk
  split
  · next hgone =>
    rw [entry?_eq_none_iff]
    intro i hi
    rw [SlotTable.clear] at hi
    split at hi
    · exact hk (hi.symm.trans hempty)
    · next hstays => exact hstays (by rwa [hi])
  · next hstays =>
    cases hentry : entry? key table k with
    | none =>
      rw [entry?_eq_none_iff] at hentry ⊢
      intro i hi
      rw [SlotTable.clear] at hi
      split at hi
      · exact hk (hi.symm.trans hempty)
      · exact hentry i hi
    | some e =>
      rw [hsound.entry?_eq_some_iff hk] at hentry
      rcases hentry with ⟨i, rfl, hi⟩
      rw [hsound'.entry?_eq_some_iff hk]
      refine ⟨i, ?_, hi⟩
      rw [SlotTable.clear, if_neg (by rwa [hi])]
end Sound

omit [DecidableEq κ] in
omit [DecidableEq κ] in
theorem sound_of_vacant (hvacant : ∀ i, key (table i) = vacant) : Sound key vacant keys table :=
  ⟨fun i hi => absurd (hvacant i) hi, fun i _ _ hi => absurd (hvacant i) hi⟩
end SlotTable
