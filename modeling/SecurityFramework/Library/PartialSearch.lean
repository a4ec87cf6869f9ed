import Mathlib.Data.List.Basic

/-!
# Searches that can fail

A search asks its members in turn and ends at the first one that says yes.
-/

namespace PartialSearch
variable {α β : Type*}

def search (ask : α → Option Bool) : List α → Option Bool
  | [] => some false
  | a :: list =>
    match ask a with
    | none => none
    | some true => some true
    | some false => search ask list

variable {ask ask' : α → Option Bool}

variable {list : List α}

theorem search_cons (a : α) (list : List α) :
    search ask (a :: list) =
      match ask a with
      | none => none
      | some true => some true
      | some false => search ask list :=
  rfl

theorem search_congr (h : ∀ a ∈ list, ask a = ask' a) :
    search ask list = search ask' list := by
  induction list with
  | nil => rfl
  | cons a list ih =>
    rw [List.forall_mem_cons] at h
    rw [search_cons, search_cons, h.1, ih h.2]

theorem search_append (before after : List α) :
    search ask (before ++ after) =
      match search ask before with
      | none => none
      | some true => some true
      | some false => search ask after := by
  induction before with
  | nil => rfl
  | cons a before ih =>
    rw [List.cons_append, search_cons, search_cons]
    cases ask a with
    | none => rfl
    | some found =>
      cases found with
      | true => rfl
      | false => exact ih

theorem search_flatMap (members : β → List α) (list : List β) :
    search ask (list.flatMap members) = search (fun b => search ask (members b)) list := by
  induction list with
  | nil => rfl
  | cons b list ih =>
    rw [List.flatMap_cons, search_append, search_cons]
    cases search ask (members b) with
    | none => rfl
    | some found =>
      cases found with
      | true => rfl
      | false => exact ih

theorem search_true (h : search ask list = some true) :
    ∃ a ∈ list, ask a = some true := by
  induction list with
  | nil => cases h
  | cons a list ih =>
    rw [search_cons] at h
    cases hask : ask a with
    | none =>
      rw [hask] at h
      cases h
    | some found =>
      cases found with
      | true => exact ⟨a, List.mem_cons_self, hask⟩
      | false =>
        rw [hask] at h
        obtain ⟨b, hmem, hb⟩ := ih h
        exact ⟨b, List.mem_cons_of_mem _ hmem, hb⟩

theorem search_false (h : search ask list = some false) :
    ∀ a ∈ list, ask a = some false := by
  induction list with
  | nil => simp
  | cons a list ih =>
    rw [search_cons] at h
    cases hask : ask a with
    | none =>
      rw [hask] at h
      cases h
    | some found =>
      cases found with
      | true =>
        rw [hask] at h
        cases h
      | false =>
        rw [hask] at h
        rw [List.forall_mem_cons]
        exact ⟨hask, ih h⟩

/-- A search fails at a member that has no answer when none before it says yes. -/
theorem search_eq_none_iff :
    search ask list = none ↔
      ∃ before a after, list = before ++ a :: after ∧ (∀ b ∈ before, ask b ≠ some true) ∧
        ask a = none := by
  induction list with
  | nil => simp [search]
  | cons first list ih =>
    rw [search_cons]
    constructor
    · intro h
      cases hask : ask first with
      | none => exact ⟨[], first, list, rfl, by simp, hask⟩
      | some found =>
        cases found with
        | true =>
          rw [hask] at h
          cases h
        | false =>
          rw [hask] at h
          obtain ⟨before, a, after, rfl, hbefore, ha⟩ := ih.mp h
          refine ⟨first :: before, a, after, rfl, ?_, ha⟩
          rw [List.forall_mem_cons, hask]
          exact ⟨by simp, hbefore⟩
    · intro ⟨before, a, after, heq, hbefore, ha⟩
      cases before with
      | nil =>
        cases heq
        rw [ha]
      | cons b before =>
        cases heq
        rw [List.forall_mem_cons] at hbefore
        cases hask : ask first with
        | none => rfl
        | some found =>
          cases found with
          | true => exact absurd hask hbefore.1
          | false => exact ih.mpr ⟨before, a, after, rfl, hbefore.2, ha⟩

theorem search_total {list : List α} (h : ∀ a ∈ list, ask a ≠ none) : search ask list ≠ none := by
  intro hnone
  obtain ⟨before, a, after, rfl, -, ha⟩ := search_eq_none_iff.mp hnone
  exact h a (by simp) ha

theorem search_answer {answer : Bool} (h : search ask list = some answer) :
    answer = true ↔ ∃ a ∈ list, ask a = some true := by
  cases answer with
  | true => exact ⟨fun _ => search_true h, fun _ => rfl⟩
  | false =>
    constructor
    · intro hfalse
      cases hfalse
    · intro ⟨a, hmem, ha⟩
      rw [search_false h a hmem] at ha
      cases ha

/-- A search whose members answer by a relation answers by it, unless it fails. -/
theorem search_exact_iff {relation : α → Prop}
    (hask : ∀ a found, ask a = some found → (found = true ↔ relation a)) :
    (∃ answer, search ask list = some answer ∧ (answer = true ↔ ∃ a ∈ list, relation a)) ↔
      search ask list ≠ none := by
  constructor
  · intro ⟨answer, hanswer, _⟩
    rw [hanswer]
    simp
  · intro hsome
    obtain ⟨answer, hanswer⟩ := Option.ne_none_iff_exists'.mp hsome
    refine ⟨answer, hanswer, ?_⟩
    cases answer with
    | true =>
      obtain ⟨a, hmem, ha⟩ := search_true hanswer
      exact ⟨fun _ => ⟨a, hmem, (hask a true ha).mp rfl⟩, fun _ => rfl⟩
    | false =>
      constructor
      · intro hfalse
        cases hfalse
      · intro ⟨a, hmem, hrelation⟩
        exact (hask a false (search_false hanswer a hmem)).mpr hrelation
end PartialSearch
