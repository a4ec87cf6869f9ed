import Mathlib.Data.Finset.Sort

/-!
# Insertion sort by a comparison that is no order

What insertion sort does with a comparison that is transitive or total only on the members of the
list.
-/

namespace List
variable {α : Type*} {r : α → α → Prop} [DecidableRel r] {R : α → α → Prop}

theorem pairwise_orderedInsert_of_decides (htrans : ∀ a b c, R a b → R b c → R a c) {a : α}
    {l : List α} (hl : l.Pairwise R) (ha : ∀ b ∈ l, (r a b → R a b) ∧ (¬r a b → R b a)) :
    (l.orderedInsert r a).Pairwise R := by
  induction l with
  | nil => exact pairwise_singleton _ _
  | cons b l ih =>
    obtain ⟨hb, hl⟩ := pairwise_cons.mp hl
    rw [orderedInsert_cons]
    split
    case isTrue hab =>
      have hlt := (ha b mem_cons_self).1 hab
      refine pairwise_cons.mpr ⟨?_, pairwise_cons.mpr ⟨hb, hl⟩⟩
      intro c hc
      cases mem_cons.mp hc with
      | inl heq => rwa [heq]
      | inr hmem => exact htrans a b c hlt (hb c hmem)
    case isFalse hab =>
      have hlt := (ha b mem_cons_self).2 hab
      refine pairwise_cons.mpr ⟨?_, ih hl fun c hc => ha c (mem_cons_of_mem _ hc)⟩
      intro c hc
      rw [mem_orderedInsert] at hc
      cases hc with
      | inl heq => rwa [heq]
      | inr hmem => exact hb c hmem

/-- Where the comparison decides a transitive relation between any two members, they are sorted
by it. -/
theorem pairwise_insertionSort_of_decides (htrans : ∀ a b c, R a b → R b c → R a c) {l : List α}
    (hl : l.Pairwise fun a b => (r a b → R a b) ∧ (¬r a b → R b a)) :
    (l.insertionSort r).Pairwise R := by
  induction l with
  | nil => exact .nil
  | cons a l ih =>
    obtain ⟨ha, hl⟩ := pairwise_cons.mp hl
    apply pairwise_orderedInsert_of_decides htrans (ih hl)
    intro b hb
    exact ha b ((mem_insertionSort r).mp hb)

theorem rel_of_pairwise_orderedInsert {a b : α} {l : List α}
    (hl : (l.orderedInsert r a).Pairwise R) (hb : b ∈ l) (hab : r a b) : R a b := by
  induction l with
  | nil => cases hb
  | cons c l ih =>
    rw [orderedInsert_cons] at hl
    split at hl
    case isTrue => exact (pairwise_cons.mp hl).1 b hb
    case isFalse hac =>
      cases mem_cons.mp hb with
      | inl heq =>
        rw [heq] at hab
        exact absurd hab hac
      | inr hmem => exact ih (pairwise_cons.mp hl).2 hmem

/-- Members that the comparison does not put the other way round stay in their order. -/
theorem pairwise_of_pairwise_insertionSort {l : List α} (hl : (l.insertionSort r).Pairwise R) :
    l.Pairwise fun a b => r a b → R a b := by
  induction l with
  | nil => exact .nil
  | cons a l ih =>
    rw [insertionSort_cons] at hl
    refine pairwise_cons.mpr ⟨?_, ih (hl.sublist (sublist_orderedInsert a _))⟩
    intro b hb hab
    exact rel_of_pairwise_orderedInsert hl ((mem_insertionSort r).mpr hb) hab

section
variable {κ : Type*} [LinearOrder κ] {key : α → κ} {l l' : List α}

theorem nodup_of_pairwise_key (hl : l.Pairwise fun a b => key a < key b) : l.Nodup := by
  apply hl.imp
  rintro a b hab rfl
  exact lt_irrefl _ hab

/-- Two lists with the same members that are sorted by a key are one. -/
theorem eq_of_pairwise_key (hl : l.Pairwise fun a b => key a < key b)
    (hl' : l'.Pairwise fun a b => key a < key b) (hmem : ∀ a, a ∈ l ↔ a ∈ l') : l = l' := by
  have hperm : l.Perm l' :=
    (perm_ext_iff_of_nodup (nodup_of_pairwise_key hl) (nodup_of_pairwise_key hl')).mpr hmem
  apply Perm.eq_of_pairwise _ hl hl' hperm
  intro a b _ _ hab hba
  exact absurd hba hab.asymm

theorem pairwise_insertionSort_key (hl : l.Pairwise fun a b => key a ≠ key b) :
    (l.insertionSort fun a b => key a ≤ key b).Pairwise fun a b => key a < key b := by
  apply pairwise_insertionSort_of_decides fun _ _ _ hab hbc => hab.trans hbc
  apply hl.imp
  intro a b hne
  exact ⟨fun hle => lt_of_le_of_ne hle hne, fun hle => lt_of_not_ge hle⟩

/-- What is behind the first members has the keys above the highest of theirs. -/
theorem mem_drop_iff_of_pairwise_key (hl : l.Pairwise fun a b => key a < key b) {n : Nat} {a : α}
    (hlast : a ∈ l.take n) (hhighest : ∀ b ∈ l.take n, key b ≤ key a) {b : α} :
    b ∈ l.drop n ↔ b ∈ l ∧ key a < key b := by
  rw [← take_append_drop n l, pairwise_append] at hl
  constructor
  · intro hb
    exact ⟨mem_of_mem_drop hb, hl.2.2 a hlast b hb⟩
  · rintro ⟨hb, hless⟩
    rw [← take_append_drop n l, mem_append] at hb
    exact hb.resolve_left fun hfirst => absurd hless (not_lt.mpr (hhighest b hfirst))
end
end List

namespace SortedSet
variable {α : Type*} [LinearOrder α]

theorem sort_insert_of_lt {x : α} {s : Finset α} (hlt : ∀ y ∈ s, x < y) :
    (insert x s).sort = x :: s.sort :=
  Finset.sort_insert _ (fun y hy => (hlt y hy).le) fun hx => lt_irrefl x (hlt x hx)

theorem sort_toFinset {l : List α} (hl : l.Pairwise (· < ·)) : l.toFinset.sort = l :=
  (List.toFinset_sort _ (hl.imp ne_of_lt)).mpr (hl.imp le_of_lt)

theorem sort_pairwise_lt (s : Finset α) : s.sort.Pairwise (· < ·) :=
  (Finset.sortedLT_sort s).pairwise

theorem sort_injective {s t : Finset α} (h : s.sort = t.sort) : s = t := by
  rw [← Finset.sort_toFinset s (· ≤ ·), h, Finset.sort_toFinset t (· ≤ ·)]

theorem eq_of_mem_iff {l l' : List α} (hl : l.Pairwise (· < ·)) (hl' : l'.Pairwise (· < ·))
    (hmem : ∀ x, x ∈ l ↔ x ∈ l') : l = l' := by
  rw [← sort_toFinset hl, ← sort_toFinset hl', List.toFinset_eq_iff_perm_dedup.mpr]
  exact (List.perm_ext_iff_of_nodup (List.nodup_dedup _) (List.nodup_dedup _)).mpr
    fun x => by simpa using hmem x

structure NextRun (x : α) (xs rest : List α) : Prop where
  sorted : rest.Pairwise (· ≤ ·)
  lt : ∀ y ∈ rest, x < y
  toFinset_eq : (x :: xs).toFinset = insert x rest.toFinset

namespace NextRun
theorem of_lt {x y : α} {xs : List α} (hs : (y :: xs).Pairwise (· ≤ ·)) (hxy : x < y) :
    NextRun x (y :: xs) (y :: xs) where
  sorted := hs
  lt := by
    intro z hz
    rcases List.mem_cons.mp hz with rfl | hz
    · exact hxy
    · exact hxy.trans_le ((List.pairwise_cons.mp hs).1 z hz)
  toFinset_eq := by simp

theorem nil (x : α) : NextRun x [] [] where
  sorted := List.Pairwise.nil
  lt := by simp
  toFinset_eq := by simp

theorem cons_self {x : α} {xs rest : List α} (h : NextRun x xs rest) :
    NextRun x (x :: xs) rest where
  sorted := h.sorted
  lt := h.lt
  toFinset_eq := by
    rw [List.toFinset_cons, h.toFinset_eq, Finset.insert_idem]

theorem mem_iff {x y : α} {xs rest : List α} (h : NextRun x xs rest) :
    y ∈ x :: xs ↔ y = x ∨ y ∈ rest := by
  have hset := congrArg (y ∈ ·) h.toFinset_eq
  simpa using hset

theorem not_mem {x : α} {xs rest : List α} (h : NextRun x xs rest) : x ∉ rest :=
  fun hx => lt_irrefl x (h.lt x hx)

section Step

variable {x : α} {xs rest ys rest' zs : List α}

theorem sort_toFinset (h : NextRun x xs rest) :
    (x :: xs).toFinset.sort = x :: rest.toFinset.sort := by
  rw [h.toFinset_eq, sort_insert_of_lt]
  simpa using h.lt

theorem sort_union_both (h : NextRun x xs rest) (h' : NextRun x ys rest') :
    ((x :: xs).toFinset ∪ (x :: ys).toFinset).sort =
      x :: (rest.toFinset ∪ rest'.toFinset).sort := by
  rw [h.toFinset_eq, h'.toFinset_eq, ← Finset.insert_union_distrib, sort_insert_of_lt]
  intro y hy
  rcases Finset.mem_union.mp hy with hy | hy
  · exact h.lt y (List.mem_toFinset.mp hy)
  · exact h'.lt y (List.mem_toFinset.mp hy)

theorem sort_union_left (h : NextRun x xs rest) (hzs : ∀ z ∈ zs, x < z) :
    ((x :: xs).toFinset ∪ zs.toFinset).sort = x :: (rest.toFinset ∪ zs.toFinset).sort := by
  rw [h.toFinset_eq, Finset.insert_union, sort_insert_of_lt]
  intro y hy
  rcases Finset.mem_union.mp hy with hy | hy
  · exact h.lt y (List.mem_toFinset.mp hy)
  · exact hzs y (List.mem_toFinset.mp hy)

theorem sort_inter_both (h : NextRun x xs rest) (h' : NextRun x ys rest') :
    ((x :: xs).toFinset ∩ (x :: ys).toFinset).sort =
      x :: (rest.toFinset ∩ rest'.toFinset).sort := by
  rw [h.toFinset_eq, h'.toFinset_eq, ← Finset.insert_inter_distrib, sort_insert_of_lt]
  intro y hy
  exact h.lt y (List.mem_toFinset.mp (Finset.mem_inter.mp hy).1)

theorem inter_left (h : NextRun x xs rest) (hzs : ∀ z ∈ zs, x < z) :
    (x :: xs).toFinset ∩ zs.toFinset = rest.toFinset ∩ zs.toFinset := by
  have hx : x ∉ zs.toFinset := fun hx => lt_irrefl x (hzs x (List.mem_toFinset.mp hx))
  rw [h.toFinset_eq, Finset.insert_inter_of_notMem hx]

theorem sdiff_both (h : NextRun x xs rest) (h' : NextRun x ys rest') :
    (x :: xs).toFinset \ (x :: ys).toFinset = rest.toFinset \ rest'.toFinset := by
  have hx : x ∉ rest.toFinset := fun hx => h.not_mem (List.mem_toFinset.mp hx)
  rw [h.toFinset_eq, h'.toFinset_eq, Finset.insert_sdiff_insert, Finset.sdiff_insert_of_notMem hx]

theorem sort_sdiff_left (h : NextRun x xs rest) (hzs : ∀ z ∈ zs, x < z) :
    ((x :: xs).toFinset \ zs.toFinset).sort = x :: (rest.toFinset \ zs.toFinset).sort := by
  have hx : x ∉ zs.toFinset := fun hx => lt_irrefl x (hzs x (List.mem_toFinset.mp hx))
  rw [h.toFinset_eq, Finset.insert_sdiff_of_notMem _ hx, sort_insert_of_lt]
  intro y hy
  exact h.lt y (List.mem_toFinset.mp (Finset.mem_sdiff.mp hy).1)

theorem sdiff_right (h : NextRun x xs rest) (hzs : ∀ z ∈ zs, x < z) :
    zs.toFinset \ (x :: xs).toFinset = zs.toFinset \ rest.toFinset := by
  have hx : x ∉ zs.toFinset := fun hx => lt_irrefl x (hzs x (List.mem_toFinset.mp hx))
  rw [h.toFinset_eq, Finset.sdiff_insert_of_notMem hx]
end Step
end NextRun
end SortedSet
