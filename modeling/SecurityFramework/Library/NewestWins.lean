import Mathlib.Algebra.Order.Group.Defs
import Mathlib.Algebra.Module.NatInt
import Mathlib.Algebra.Order.BigOperators.Group.Finset
import Mathlib.Data.Finset.Max

/-!
# The newest wins, and ties are bumped

Some places hold a content with a date each. The content of one place is copied over that of
another when its date is later, or when the dates are the same and its rank is lower; then the copy
gets a date one step later. A bump leaves behind, at the old date, the content of the highest rank,
so the bumps of a content are fewer than the places.
-/

namespace NewestWins
section
variable {K γ R : Type*} [AddCommGroup K] [LinearOrder K] [IsOrderedAddMonoid K] [LinearOrder R]
variable (step : K) (rank : K → γ → R) (origins : Finset (K × γ))

/-- A content with the date of its origin, and how often it was bumped from there. -/
inductive Bumped : K → ℕ → γ → Prop
  | origin {date : K} {content : γ} (hmem : (date, content) ∈ origins) : Bumped date 0 content
  | bump {date date' : K} {bumps bumps' : ℕ} {content content' : γ}
      (hwinner : Bumped date bumps content) (hloser : Bumped date' bumps' content')
      (htie : date + bumps • step = date' + bumps' • step)
      (hrank : rank (date + bumps • step) content < rank (date + bumps • step) content') :
      Bumped date (bumps + 1) content

variable {step rank origins}

variable {bumps : ℕ} {content : γ} {date : K}

omit [LinearOrder K] [IsOrderedAddMonoid K] in
theorem Bumped.mem_origins (h : Bumped step rank origins date bumps content) :
    (date, content) ∈ origins := by
  induction h with
  | origin hmem => exact hmem
  | bump _ _ _ _ ih _ => exact ih

omit [LinearOrder K] [IsOrderedAddMonoid K] in
theorem Bumped.of_le {fewer : ℕ} (h : Bumped step rank origins date bumps content)
    (hle : fewer ≤ bumps) :
    Bumped step rank origins date fewer content := by
  induction h with
  | origin hmem =>
    rw [Nat.le_zero.1 hle]
    exact Bumped.origin hmem
  | bump hwinner hloser htie hrank ih _ =>
    rcases Nat.le_succ_iff.1 hle with hle | heq
    · exact ih hle
    · rw [heq]
      exact Bumped.bump hwinner hloser htie hrank

variable (step rank origins)

open Classical in
noncomputable def contentsAt (level : K) : Finset γ :=
  (origins.image Prod.snd).filter fun content =>
    ∃ date bumps, Bumped step rank origins date bumps content ∧ date + bumps • step = level

variable {step rank origins}

omit [LinearOrder K] [IsOrderedAddMonoid K] in
theorem mem_contentsAt {level : K} :
    content ∈ contentsAt step rank origins level ↔
      ∃ date bumps, Bumped step rank origins date bumps content ∧
        date + bumps • step = level := by
  classical
  unfold contentsAt
  rw [Finset.mem_filter, Finset.mem_image]
  constructor
  · exact fun h => h.2
  · rintro ⟨date, bumps, h, hlevel⟩
    exact ⟨⟨_, h.mem_origins, rfl⟩, date, bumps, h, hlevel⟩

open Classical in
theorem card_contentsAt_le (hstep : 0 < step) (level : K) :
    (contentsAt step rank origins level).card ≤ (origins.filter fun o => o.1 ≤ level).card := by
  have hsubset : contentsAt step rank origins level ⊆
      (origins.filter fun o => o.1 ≤ level).image Prod.snd := by
    intro content hcontent
    rcases mem_contentsAt.1 hcontent with ⟨date, bumps, h, hlevel⟩
    have hdate : date ≤ level := by
      rw [← hlevel]
      exact le_add_of_nonneg_right (nsmul_nonneg hstep.le bumps)
    exact Finset.mem_image.2 ⟨_, Finset.mem_filter.2 ⟨h.mem_origins, hdate⟩, rfl⟩
  exact (Finset.card_le_card hsubset).trans Finset.card_image_le

omit [IsOrderedAddMonoid K] in
open Classical in
/-- At a date where a content is bumped, the one of the highest rank stays. -/
theorem card_contentsAt_bump (h : Bumped step rank origins date (bumps + 1) content) :
    (contentsAt step rank origins (date + bumps • step + step)).card + 1 ≤
      (contentsAt step rank origins (date + bumps • step)).card +
        (origins.filter fun o => o.1 = date + bumps • step + step).card := by
  have hmem : content ∈ contentsAt step rank origins (date + bumps • step) :=
    mem_contentsAt.2 ⟨date, bumps, h.of_le (Nat.le_succ bumps), rfl⟩
  rcases Finset.exists_max_image _ (rank (date + bumps • step)) ⟨content, hmem⟩
    with ⟨highest, hhighest, hmax⟩
  have hsubset : contentsAt step rank origins (date + bumps • step + step) ⊆
      (contentsAt step rank origins (date + bumps • step)).erase highest ∪
        (origins.filter fun o => o.1 = date + bumps • step + step).image Prod.snd := by
    intro other hother
    rcases mem_contentsAt.1 hother with ⟨date', bumps', h', hlevel⟩
    cases h' with
    | origin horigin =>
      rw [zero_nsmul, add_zero] at hlevel
      exact Finset.mem_union_right _
        (Finset.mem_image.2 ⟨_, Finset.mem_filter.2 ⟨horigin, hlevel⟩, rfl⟩)
    | @bump _ _ bumps' _ _ loser hwinner hloser htie hrank =>
      rw [succ_nsmul, ← add_assoc] at hlevel
      have hlevel' := add_right_cancel hlevel
      rw [hlevel'] at hrank htie
      have hloserAt := mem_contentsAt.2 ⟨_, _, hloser, htie.symm⟩
      have hne : other ≠ highest := by
        intro heq
        rw [heq] at hrank
        exact absurd hrank (not_lt.2 (hmax _ hloserAt))
      exact Finset.mem_union_left _
        (Finset.mem_erase.2 ⟨hne, mem_contentsAt.2 ⟨_, _, hwinner, hlevel'⟩⟩)
  have hcard := (Finset.card_le_card hsubset).trans (Finset.card_union_le _ _)
  have herase := Finset.card_erase_add_one hhighest
  have himage := Finset.card_image_le
    (s := origins.filter fun o => o.1 = date + bumps • step + step) (f := Prod.snd)
  omega

variable (step origins) in
open Classical in
noncomputable def originsNear (date : K) (bumps : ℕ) : Finset (K × γ) :=
  origins.filter fun o => o.1 ≤ date ∨ ∃ i ≤ bumps, o.1 = date + i • step

theorem card_contentsAt_add_le (hstep : 0 < step)
    (h : Bumped step rank origins date bumps content) :
    (contentsAt step rank origins (date + bumps • step)).card + bumps ≤
      (originsNear step origins date bumps).card := by
  classical
  induction bumps with
  | zero =>
    refine (card_contentsAt_le hstep _).trans (Finset.card_le_card ?_)
    intro o ho
    rcases Finset.mem_filter.1 ho with ⟨hmem, hle⟩
    rw [zero_nsmul, add_zero] at hle
    exact Finset.mem_filter.2 ⟨hmem, Or.inl hle⟩
  | succ bumps ih =>
    have hbefore := ih (h.of_le (Nat.le_succ bumps))
    have hbump := card_contentsAt_bump h
    have hlevel : date + (bumps + 1) • step = date + bumps • step + step := by
      rw [succ_nsmul, add_assoc]
    have hdisjoint : Disjoint (originsNear step origins date bumps)
        (origins.filter fun o => o.1 = date + bumps • step + step) := by
      rw [originsNear, Finset.disjoint_filter]
      intro o _ hnear heq
      rw [heq] at hnear
      rcases hnear with hle | ⟨i, hi, heq⟩
      · have hlater : date < date + bumps • step + step :=
          lt_of_le_of_lt (le_add_of_nonneg_right (nsmul_nonneg hstep.le bumps))
            (lt_add_of_pos_right _ hstep)
        exact absurd hle (not_le.2 hlater)
      · rw [← hlevel] at heq
        have hlt : i • step < (bumps + 1) • step :=
          nsmul_lt_nsmul_left hstep (Nat.lt_succ_of_le hi)
        exact absurd (add_left_cancel heq) hlt.ne'
    have hsubset : originsNear step origins date bumps ∪
        (origins.filter fun o => o.1 = date + bumps • step + step) ⊆
          originsNear step origins date (bumps + 1) := by
      intro o ho
      rcases Finset.mem_union.1 ho with ho | ho
      · rcases Finset.mem_filter.1 ho with ⟨hmem, hle | ⟨i, hi, heq⟩⟩
        · exact Finset.mem_filter.2 ⟨hmem, Or.inl hle⟩
        · exact Finset.mem_filter.2 ⟨hmem, Or.inr ⟨i, hi.trans (Nat.le_succ _), heq⟩⟩
      · rcases Finset.mem_filter.1 ho with ⟨hmem, heq⟩
        exact Finset.mem_filter.2 ⟨hmem, Or.inr ⟨bumps + 1, Nat.le_refl _, heq.trans hlevel.symm⟩⟩
    have hcard := Finset.card_le_card hsubset
    rw [Finset.card_union_of_disjoint hdisjoint] at hcard
    rw [hlevel]
    omega

theorem Bumped.lt_card (hstep : 0 < step) (h : Bumped step rank origins date bumps content) :
    bumps < origins.card := by
  classical
  have hle := card_contentsAt_add_le hstep h
  have hpos : 0 < (contentsAt step rank origins (date + bumps • step)).card :=
    Finset.card_pos.2 ⟨content, mem_contentsAt.2 ⟨date, bumps, h, rfl⟩⟩
  have hnear : (originsNear step origins date bumps).card ≤ origins.card :=
    Finset.card_filter_le origins _
  omega

/-- A content that gets past a later origin of another content began near it. -/
theorem Bumped.le_of_origin (hstep : 0 < step) {date' : K} {content' : γ}
    (h : Bumped step rank origins date bumps content) (hmem : (date', content') ∈ origins)
    (hne : content' ≠ content) (hlater : date < date') (hle : date' ≤ date + bumps • step) :
    date' ≤ date + (origins.card - 2) • step := by
  classical
  have hcard := card_contentsAt_add_le hstep h
  have hcontent : content ∈ contentsAt step rank origins (date + bumps • step) :=
    mem_contentsAt.2 ⟨date, bumps, h, rfl⟩
  have hpos := Finset.card_pos.2 ⟨content, hcontent⟩
  have hwithin : ∀ i ≤ origins.card - 2, date + i • step ≤ date + (origins.card - 2) • step :=
    fun i hi => add_le_add_right (nsmul_le_nsmul_left hstep.le hi) date
  by_cases hnear : (date', content') ∈ originsNear step origins date bumps
  · have hnearCard : (originsNear step origins date bumps).card ≤ origins.card :=
      Finset.card_filter_le origins _
    rcases (Finset.mem_filter.1 hnear).2 with hbefore | ⟨i, hi, heq⟩
    · exact absurd hbefore (not_le.2 hlater)
    · have heq : date' = date + i • step := heq
      rcases Nat.lt_or_ge i bumps with hlt | hge
      · rw [heq]
        exact hwithin i (by omega)
      · have hlast : i = bumps := le_antisymm hi hge
        have horigin : content' ∈ contentsAt step rank origins (date + bumps • step) :=
          mem_contentsAt.2 ⟨date', 0, Bumped.origin hmem, by rw [zero_nsmul, add_zero, heq, hlast]⟩
        have htwo : 1 < (contentsAt step rank origins (date + bumps • step)).card :=
          Finset.one_lt_card.2 ⟨content', horigin, content, hcontent, hne⟩
        rw [heq]
        exact hwithin i (by omega)
  · have hfewer : (originsNear step origins date bumps).card < origins.card := by
      have hsubset : originsNear step origins date bumps ⊆ origins := Finset.filter_subset _ _
      apply Finset.card_lt_card
      exact (Finset.ssubset_iff_of_subset hsubset).2 ⟨_, hmem, hnear⟩
    exact hle.trans (hwithin bumps (by omega))
end

section
variable {D K γ R : Type*} [Fintype D] [DecidableEq D]
variable [AddCommGroup K] [LinearOrder K] [IsOrderedAddMonoid K] [LinearOrder R]
variable (step : K) (rank : K → γ → R)

/-- The first content replaces the second. -/
def Beats (p q : K × γ) : Prop :=
  q.1 < p.1 ∨ p.1 = q.1 ∧ rank p.1 p.2 < rank q.1 q.2

def overwrite (p q : K × γ) : K × γ :=
  (if q.1 < p.1 then p.1 else q.1 + step, p.2)

inductive Merge : (D → K × γ) → (D → K × γ) → Prop
  | copy {s : D → K × γ} {x y : D} (hbeats : Beats rank (s x) (s y)) :
      Merge s (Function.update s y (overwrite step (s x) (s y)))

open Classical in
noncomputable def startingAt (start : D → K × γ) : Finset (K × γ) :=
  Finset.univ.image start

structure Reaches (start s : D → K × γ) (y : D) : Prop where
  bumped : ∃ date bumps, Bumped step rank (startingAt start) date bumps (s y).2 ∧
    (s y).1 = date + bumps • step
  later : (start y).1 ≤ (s y).1

variable {step rank}

omit [DecidableEq D] [IsOrderedAddMonoid K] in
theorem reaches_start (start : D → K × γ) (y : D) : Reaches step rank start start y := by
  classical
  constructor
  · exact ⟨(start y).1, 0, Bumped.origin (Finset.mem_image_of_mem _ (Finset.mem_univ y)),
      by rw [zero_nsmul, add_zero]⟩
  · exact le_refl _

omit [Fintype D] [DecidableEq D] in
theorem lt_overwrite (hstep : 0 < step) {p q : K × γ} : q.1 < (overwrite step p q).1 := by
  unfold overwrite
  split_ifs with hlater
  · exact hlater
  · exact lt_add_of_pos_right _ hstep

omit [Fintype D] [DecidableEq D] in
theorem not_beats_overwrite (hstep : 0 < step) {p q : K × γ} :
    ¬Beats rank p (overwrite step p q) := by
  unfold Beats overwrite
  split_ifs with hlater
  · simp
  · have hlt : p.1 < q.1 + step := (not_lt.1 hlater).trans_lt (lt_add_of_pos_right _ hstep)
    simp [hlt.not_gt, hlt.ne]

omit [Fintype D] [DecidableEq D] [AddCommGroup K] [IsOrderedAddMonoid K] in
theorem not_beats_of_lt {p q q' : K × γ} (hnot : ¬Beats rank p q) (hlt : q.1 < q'.1) :
    ¬Beats rank p q' := by
  have hle : p.1 ≤ q.1 := not_lt.1 fun hlater => hnot (.inl hlater)
  have hbefore := hle.trans_lt hlt
  rintro (hlater | ⟨hsame, -⟩)
  · exact lt_asymm hlater hbefore
  · exact hbefore.ne hsame

variable {s start : D → K × γ}

theorem Merge.reaches (hstep : 0 < step) {s' : D → K × γ} (hmerge : Merge step rank s s')
    (h : ∀ y, Reaches step rank start s y) (z : D) : Reaches step rank start s' z := by
  cases hmerge with
  | @copy x y hbeats =>
    by_cases heq : z = y
    · rw [heq]
      constructor
      · rw [Function.update_self]
        rcases (h x).bumped with ⟨date, bumps, hwinner, hdate⟩
        rcases (h y).bumped with ⟨date', bumps', hloser, hdate'⟩
        unfold overwrite
        split_ifs with hlater
        · exact ⟨date, bumps, hwinner, hdate⟩
        · rcases hbeats.resolve_left hlater with ⟨htie, hrank⟩
          refine ⟨date, bumps + 1, ?_, ?_⟩
          · rw [← htie, hdate] at hrank
            exact Bumped.bump hwinner hloser (by rw [← hdate, ← hdate', htie]) hrank
          · rw [← htie, hdate, succ_nsmul, add_assoc]
      · rw [Function.update_self]
        exact (h y).later.trans (lt_overwrite hstep).le
    · constructor
      · rw [Function.update_of_ne heq]
        exact (h z).bumped
      · rw [Function.update_of_ne heq]
        exact (h z).later

omit [DecidableEq D] in
/-- What is as late as everything at the start began, where it was not the latest, fewer steps
before the latest than there are other places. -/
theorem Reaches.exists_origin (hstep : 0 < step) {y : D} (h : Reaches step rank start s y)
    (hlate : ∀ o, (start o).1 ≤ (s y).1) :
    ∃ o, (start o).2 = (s y).2 ∧
      ∀ o', (start o').1 ≤ (start o).1 + (Fintype.card D - 2) • step := by
  classical
  rcases h.bumped with ⟨date, bumps, hbumped, hdate⟩
  rcases Finset.mem_image.1 hbumped.mem_origins with ⟨o, _, horigin⟩
  rcases Finset.exists_max_image Finset.univ (fun o => (start o).1) ⟨y, Finset.mem_univ y⟩
    with ⟨latest, _, hlatest⟩
  have hnonneg : 0 ≤ (Fintype.card D - 2) • step := nsmul_nonneg hstep.le _
  by_cases hsame : (start latest).2 = (s y).2
  · refine ⟨latest, hsame, fun o' => ?_⟩
    exact (hlatest o' (Finset.mem_univ o')).trans (le_add_of_nonneg_right hnonneg)
  · refine ⟨o, by rw [horigin], fun o' => (hlatest o' (Finset.mem_univ o')).trans ?_⟩
    rw [horigin]
    by_cases hlater : date < (start latest).1
    · have hcard : (startingAt start).card - 2 ≤ Fintype.card D - 2 :=
        Nat.sub_le_sub_right (Finset.card_image_le.trans_eq Finset.card_univ) 2
      have hle := hbumped.le_of_origin hstep
        (Finset.mem_image_of_mem start (Finset.mem_univ latest)) hsame hlater
        (hdate ▸ hlate latest)
      exact hle.trans (add_le_add_right (nsmul_le_nsmul_left hstep.le hcard) date)
    · exact (not_lt.1 hlater).trans (le_add_of_nonneg_right hnonneg)

variable (step) in
open Classical in
noncomputable def dates (start : D → K × γ) : Finset K :=
  (Finset.univ ×ˢ Finset.range (Fintype.card D)).image fun o => (start o.1).1 + o.2 • step

variable (step) in
/-- How many later dates the places can still get. -/
noncomputable def remaining (start s : D → K × γ) : ℕ :=
  ∑ y, ((dates step start).filter fun date => (s y).1 < date).card

omit [DecidableEq D] in
theorem Reaches.mem_dates (hstep : 0 < step) {y : D} (h : Reaches step rank start s y) :
    (s y).1 ∈ dates step start := by
  classical
  rcases h.bumped with ⟨date, bumps, hbumped, hdate⟩
  rcases Finset.mem_image.1 hbumped.mem_origins with ⟨o, _, horigin⟩
  have hbumps : bumps < Fintype.card D :=
    (hbumped.lt_card hstep).trans_le (Finset.card_image_le.trans_eq Finset.card_univ)
  refine Finset.mem_image.2 ⟨(o, bumps), ?_, ?_⟩
  · exact Finset.mem_product.2 ⟨Finset.mem_univ o, Finset.mem_range.2 hbumps⟩
  · rw [hdate, horigin]

omit [DecidableEq D] [IsOrderedAddMonoid K] in
theorem remaining_le (start s : D → K × γ) :
    remaining step start s ≤ Fintype.card D * (Fintype.card D * Fintype.card D) := by
  classical
  have hdates : (dates step start).card ≤ Fintype.card D * Fintype.card D := by
    refine Finset.card_image_le.trans_eq ?_
    rw [Finset.card_product, Finset.card_univ, Finset.card_range]
  calc remaining step start s ≤ ∑ _y : D, Fintype.card D * Fintype.card D :=
        Finset.sum_le_sum fun y _ => (Finset.card_filter_le _ _).trans hdates
    _ = Fintype.card D * (Fintype.card D * Fintype.card D) := by
        rw [Finset.sum_const, Finset.card_univ, smul_eq_mul]

theorem Merge.remaining_lt (hstep : 0 < step) {s' : D → K × γ} (hmerge : Merge step rank s s')
    (h : ∀ y, Reaches step rank start s y) :
    remaining step start s' < remaining step start s := by
  have h' := hmerge.reaches hstep h
  cases hmerge with
  | @copy x y hbeats =>
    have hlater := lt_overwrite hstep (p := s x) (q := s y)
    apply Finset.sum_lt_sum
    · intro z _
      apply Finset.card_le_card
      by_cases heq : z = y
      · rw [heq, Function.update_self]
        intro date hdate
        rw [Finset.mem_filter] at hdate ⊢
        exact ⟨hdate.1, hlater.trans hdate.2⟩
      · rw [Function.update_of_ne heq]
    · refine ⟨y, Finset.mem_univ y, Finset.card_lt_card ?_⟩
      rw [Finset.ssubset_iff_of_subset]
      · have hmem := (h' y).mem_dates hstep
        rw [Function.update_self] at hmem ⊢
        refine ⟨(overwrite step (s x) (s y)).1, Finset.mem_filter.2 ⟨hmem, hlater⟩, ?_⟩
        intro hself
        exact absurd (Finset.mem_filter.1 hself).2 (lt_irrefl _)
      · rw [Function.update_self]
        intro date hdate
        rw [Finset.mem_filter] at hdate ⊢
        exact ⟨hdate.1, hlater.trans hdate.2⟩
end
end NewestWins
