import Mathlib.Data.List.Basic

/-!
# Words between blanks

The words of a text are the runs of it without a blank.
-/

namespace Words
variable {α : Type*} (blank : α → Bool) (separator : α) (copy : α → α)

def words (text : List α) : List (List α) := (text.splitOnP blank).filter fun word => !word.isEmpty

def spaced (words : List (List α)) : List α := words.flatMap (separator :: ·)

def tidy (text : List α) : List α :=
  List.intercalate [separator] ((words blank text).map (List.map copy))

@[simp] theorem words_nil : words blank [] = [] := by
  simp [words]

variable {blank}

variable {text : List α}

theorem words_of_ne_nil (htext : text ≠ []) (hall : ∀ c ∈ text, blank c = false) :
    words blank text = [text] := by
  rw [words, List.splitOnP_eq_singleton hall]
  simp [htext]

theorem words_append_cons (front rest : List α) {c : α} (hc : blank c = true) :
    words blank (front ++ c :: rest) = words blank front ++ words blank rest := by
  rw [words, List.splitOnP_append_cons front rest hc, List.filter_append]
  rfl

theorem words_cons_blank (rest : List α) {c : α} (hc : blank c = true) :
    words blank (c :: rest) = words blank rest := by
  have hsplit := words_append_cons [] rest hc
  rwa [words_nil, List.nil_append, List.nil_append] at hsplit

theorem of_mem_splitOnP {word : List α} {c : α} (hword : word ∈ text.splitOnP blank)
    (hc : c ∈ word) : c ∈ text ∧ blank c = false := by
  induction text generalizing word with
  | nil =>
    rw [List.splitOnP_nil, List.mem_singleton] at hword
    rw [hword] at hc
    exact absurd hc List.not_mem_nil
  | cons first text ih =>
    rw [List.splitOnP_cons_eq_if_modifyHead] at hword
    split at hword
    case isTrue hblank =>
      rcases List.mem_cons.mp hword with rfl | hword
      · exact absurd hc List.not_mem_nil
      · exact ⟨List.mem_cons_of_mem _ (ih hword hc).1, (ih hword hc).2⟩
    case isFalse hblank =>
      obtain ⟨run, later, hsplit⟩ :=
        List.exists_cons_of_ne_nil (List.splitOnP_ne_nil blank text)
      rw [hsplit] at hword ih
      rcases List.mem_cons.mp hword with rfl | hword
      · rcases List.mem_cons.mp hc with rfl | hc
        · exact ⟨List.mem_cons_self, Bool.eq_false_iff.mpr hblank⟩
        · have hrun := ih List.mem_cons_self hc
          exact ⟨List.mem_cons_of_mem _ hrun.1, hrun.2⟩
      · have hlater := ih (List.mem_cons_of_mem _ hword) hc
        exact ⟨List.mem_cons_of_mem _ hlater.1, hlater.2⟩

theorem of_mem_words {word : List α} {c : α} (hword : word ∈ words blank text) (hc : c ∈ word) :
    c ∈ text ∧ blank c = false :=
  of_mem_splitOnP (List.mem_filter.mp hword).1 hc

theorem ne_nil_of_mem_words {word : List α} (hword : word ∈ words blank text) :
    word ≠ [] := by
  have hne := (List.mem_filter.mp hword).2
  rintro rfl
  simp at hne

variable {separator copy}

@[simp] theorem spaced_nil : spaced separator [] = [] := rfl

@[simp] theorem spaced_cons (word : List α) (later : List (List α)) :
    spaced separator (word :: later) = separator :: (word ++ spaced separator later) := by
  simp [spaced]

theorem intercalate_cons (word : List α) (later : List (List α)) :
    List.intercalate [separator] (word :: later) = word ++ spaced separator later := by
  induction later generalizing word with
  | nil => simp
  | cons next later ih =>
    rw [List.intercalate_cons_cons, ih, spaced_cons]
    simp

theorem intercalate_eq_tail (later : List (List α)) :
    List.intercalate [separator] later = (spaced separator later).tail := by
  cases later with
  | nil => rfl
  | cons word later =>
    rw [intercalate_cons, spaced_cons]
    rfl

theorem words_intercalate (hsep : blank separator = true) {later : List (List α)}
    (hne : ∀ word ∈ later, word ≠ [])
    (hall : ∀ word ∈ later, ∀ c ∈ word, blank c = false) :
    words blank (List.intercalate [separator] later) = later := by
  induction later with
  | nil => simp
  | cons word later ih =>
    have hword := words_of_ne_nil (hne word List.mem_cons_self) (hall word List.mem_cons_self)
    have hlater := ih (fun w hw => hne w (List.mem_cons_of_mem _ hw))
      fun w hw => hall w (List.mem_cons_of_mem _ hw)
    cases later with
    | nil => rw [List.intercalate_singleton, hword]
    | cons next later =>
      rw [List.intercalate_cons_cons, List.append_assoc, List.singleton_append,
        words_append_cons _ _ hsep, hword, hlater]
      rfl

/-- A tidy text stays as it is, when blanks are told from the rest of a copy as in the text. -/
theorem tidy_tidy (hsep : blank separator = true) (hblank : ∀ c, blank (copy c) = blank c)
    (hcopy : ∀ c, copy (copy c) = copy c) (text : List α) :
    tidy blank separator copy (tidy blank separator copy text) =
      tidy blank separator copy text := by
  have hne : ∀ word ∈ (words blank text).map (List.map copy), word ≠ [] := by
    intro word hword
    obtain ⟨word', hword', rfl⟩ := List.mem_map.mp hword
    simpa using ne_nil_of_mem_words hword'
  have hall : ∀ word ∈ (words blank text).map (List.map copy), ∀ c ∈ word, blank c = false := by
    intro word hword c hc
    obtain ⟨word', hword', rfl⟩ := List.mem_map.mp hword
    obtain ⟨c', hc', rfl⟩ := List.mem_map.mp hc
    rw [hblank]
    exact (of_mem_words hword' hc').2
  have hwords := words_intercalate hsep hne hall
  rw [tidy, tidy, hwords, List.map_map]
  congr 2
  funext word
  simp [hcopy]

theorem length_spaced_splitOnP (text : List α) :
    (spaced separator (text.splitOnP blank)).length = text.length + 1 := by
  induction text with
  | nil => simp
  | cons c text ih =>
    rw [List.splitOnP_cons_eq_if_modifyHead]
    split
    case isTrue => simp [ih]
    case isFalse =>
      obtain ⟨run, later, hsplit⟩ :=
        List.exists_cons_of_ne_nil (List.splitOnP_ne_nil blank text)
      rw [hsplit, spaced_cons, List.length_cons] at ih
      rw [hsplit, List.modifyHead_cons, spaced_cons, List.length_cons, List.cons_append,
        List.length_cons, ih, List.length_cons]

theorem length_spaced_le_of_sublist {some all : List (List α)} (h : some.Sublist all) :
    (spaced separator some).length ≤ (spaced separator all).length := by
  induction h with
  | slnil => exact Nat.le_refl _
  | cons word _ ih =>
    rw [spaced_cons, List.length_cons, List.length_append]
    omega
  | cons_cons word _ ih =>
    rw [spaced_cons, spaced_cons, List.length_cons, List.length_append, List.length_cons,
      List.length_append]
    omega

theorem length_spaced_map (later : List (List α)) :
    (spaced separator (later.map (List.map copy))).length = (spaced separator later).length := by
  induction later with
  | nil => rfl
  | cons word later ih => simp [ih]

theorem length_tidy_le (text : List α) :
    (tidy blank separator copy text).length ≤ text.length := by
  have hle : (spaced separator (words blank text)).length ≤
      (spaced separator (text.splitOnP blank)).length :=
    length_spaced_le_of_sublist List.filter_sublist
  rw [length_spaced_splitOnP] at hle
  rw [tidy, intercalate_eq_tail, List.length_tail, length_spaced_map]
  exact Nat.sub_le_of_le_add hle

variable (blank separator copy)

structure Pass (α : Type*) where
  written : List α
  lastWasBlank : Bool

def Pass.step (pass : Pass α) (c : α) : Pass α :=
  if blank c then
    if pass.lastWasBlank then pass
    else ⟨if pass.written.isEmpty then [] else pass.written ++ [separator], true⟩
  else ⟨pass.written ++ [copy c], false⟩

def Pass.finish (pass : Pass α) : List α :=
  if pass.lastWasBlank && !pass.written.isEmpty then pass.written.dropLast else pass.written

variable {blank separator}

/-- Within a word the rest of its run is copied, then the words after it; after a separator the
words are, the first with that separator before it. -/
theorem finish_foldl_step (text : List α) :
    (∀ written run later, written ≠ [] → text.splitOnP blank = run :: later →
      (text.foldl (Pass.step blank separator copy) ⟨written, false⟩).finish =
        written ++ (run.map copy ++
          spaced separator ((later.filter fun w => !w.isEmpty).map (List.map copy)))) ∧
    ∀ written,
      (text.foldl (Pass.step blank separator copy) ⟨written ++ [separator], true⟩).finish =
        written ++ spaced separator ((words blank text).map (List.map copy)) := by
  induction text with
  | nil =>
    constructor
    · intro written run later hwritten hsplit
      obtain ⟨rfl, rfl⟩ := List.cons.inj hsplit.symm
      simp [Pass.finish]
    · intro written
      simp [Pass.finish]
  | cons c text ih =>
    obtain ⟨run, later, hsplit⟩ := List.exists_cons_of_ne_nil (List.splitOnP_ne_nil blank text)
    cases hc : blank c with
    | true =>
      have hwords := words_cons_blank text hc
      constructor
      · intro written run' later' hwritten hsplit'
        rw [List.splitOnP_cons_eq_if_modifyHead, if_pos hc] at hsplit'
        obtain ⟨rfl, rfl⟩ := List.cons.inj hsplit'.symm
        have hstep : Pass.step blank separator copy ⟨written, false⟩ c =
            ⟨written ++ [separator], true⟩ := by
          simp [Pass.step, hc, hwritten]
        rw [List.foldl_cons, hstep, ih.2, words]
        rfl
      · intro written
        have hstep : Pass.step blank separator copy ⟨written ++ [separator], true⟩ c =
            ⟨written ++ [separator], true⟩ := by
          simp [Pass.step, hc]
        rw [List.foldl_cons, hstep, ih.2, hwords]
    | false =>
      have hcons : (c :: text).splitOnP blank = (c :: run) :: later := by
        rw [List.splitOnP_cons_eq_if_modifyHead, if_neg (by simp [hc]), hsplit]
        rfl
      have hstep : ∀ pass : Pass α, Pass.step blank separator copy pass c =
          ⟨pass.written ++ [copy c], false⟩ := by
        intro pass
        simp [Pass.step, hc]
      constructor
      · intro written run' later' hwritten hsplit'
        obtain ⟨rfl, rfl⟩ := List.cons.inj (hcons.symm.trans hsplit')
        rw [List.foldl_cons, hstep, ih.1 _ run later (by simp) hsplit]
        simp
      · intro written
        rw [List.foldl_cons, hstep, ih.1 _ run later (by simp) hsplit, words, hcons]
        simp

theorem finish_pass (text : List α) (lastWasBlank : Bool) :
    (text.foldl (Pass.step blank separator copy) ⟨[], lastWasBlank⟩).finish =
      tidy blank separator copy text := by
  rw [tidy]
  induction text generalizing lastWasBlank with
  | nil => simp [Pass.finish]
  | cons c text ih =>
    cases hc : blank c with
    | true =>
      have hstep : Pass.step blank separator copy ⟨[], lastWasBlank⟩ c = ⟨[], true⟩ := by
        cases lastWasBlank <;> simp [Pass.step, hc]
      rw [List.foldl_cons, hstep, ih, words_cons_blank text hc]
    | false =>
      obtain ⟨run, later, hsplit⟩ :=
        List.exists_cons_of_ne_nil (List.splitOnP_ne_nil blank text)
      have hcons : (c :: text).splitOnP blank = (c :: run) :: later := by
        rw [List.splitOnP_cons_eq_if_modifyHead, if_neg (by simp [hc]), hsplit]
        rfl
      have hstep : Pass.step blank separator copy ⟨[], lastWasBlank⟩ c = ⟨[copy c], false⟩ := by
        simp [Pass.step, hc]
      rw [List.foldl_cons, hstep, (finish_foldl_step copy text).1 _ run later (by simp) hsplit,
        words, hcons, intercalate_eq_tail]
      simp

theorem length_step_le (pass : Pass α) (c : α) :
    (Pass.step blank separator copy pass c).written.length ≤ pass.written.length + 1 := by
  rw [Pass.step]
  split_ifs <;> simp
end Words
