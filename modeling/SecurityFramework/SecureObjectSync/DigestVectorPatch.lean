import SecurityFramework.SecureObjectSync.DigestVectorMerge

/-! # The three-way patch -/

namespace SecurityFramework
open SortedSet

/-- The largest removal is in neither set, and either set has a digest past it. -/
def PatchLoses (base additions removals : Finset Digest) : Prop :=
  ∃ r ∈ removals, (∀ x ∈ removals, x ≤ r) ∧ r ∉ base ∧ r ∉ additions ∧
    (∃ b ∈ base, r < b) ∧ ∃ a ∈ additions, r < a

instance (base additions removals : Finset Digest) :
    Decidable (PatchLoses base additions removals) :=
  inferInstanceAs (Decidable (∃ r ∈ removals, (∀ x ∈ removals, x ≤ r) ∧ r ∉ base ∧
    r ∉ additions ∧ (∃ b ∈ base, r < b) ∧ ∃ a ∈ additions, r < a))

def lostByPatch (base additions removals : Finset Digest) : Finset Digest :=
  (base ∪ additions).filter fun c => PatchLoses base additions removals ∧
    (∀ r ∈ removals, r < c) ∧ ∀ x ∈ base ∪ additions, (∀ r ∈ removals, r < x) → c ≤ x

def patchedSet (base additions removals : Finset Digest) : Finset Digest :=
  ((base ∪ additions) \ removals) \ lostByPatch base additions removals

def past (c : Digest) (s : Finset Digest) : Finset Digest := s.filter (c < ·)

@[simp] private theorem mem_past {c x : Digest} {s : Finset Digest} :
    x ∈ past c s ↔ x ∈ s ∧ c < x := Finset.mem_filter

private theorem past_run {c : Digest} {cs rest : List Digest} (h : NextRun c cs rest) :
    past c (c :: cs).toFinset = rest.toFinset := by
  ext x
  rw [mem_past, List.mem_toFinset, h.mem_iff, List.mem_toFinset]
  constructor
  · rintro ⟨rfl | hx, hlt⟩
    · exact absurd hlt (lt_irrefl _)
    · exact hx
  · exact fun hx => ⟨Or.inr hx, h.lt x hx⟩

private theorem past_of_above {c : Digest} {zs : List Digest} (hzs : ∀ z ∈ zs, c < z) :
    past c zs.toFinset = zs.toFinset :=
  Finset.filter_true_of_mem fun z hz => hzs z (List.mem_toFinset.mp hz)

private theorem not_patchLoses_empty (base additions : Finset Digest) :
    ¬ PatchLoses base additions ∅ := by
  rintro ⟨r, hr, -⟩
  simp at hr

@[simp] theorem lostByPatch_of_not {base additions removals : Finset Digest}
    (h : ¬ PatchLoses base additions removals) : lostByPatch base additions removals = ∅ := by
  simp [lostByPatch, h]

section Step

variable {base additions removals : Finset Digest} {c : Digest}

private theorem patchLoses_past_iff (hr : ∃ r ∈ removals, c < r) :
    PatchLoses (past c base) (past c additions) (past c removals) ↔
      PatchLoses base additions removals := by
  obtain ⟨r₀, hr₀, hc₀⟩ := hr
  constructor
  · rintro ⟨r, hr, hmax, hb, ha, ⟨b, hbm, hrb⟩, ⟨a, ham, hra⟩⟩
    simp only [mem_past] at hr hmax hb ha hbm ham
    refine ⟨r, hr.1, ?_, fun h => hb ⟨h, hr.2⟩, fun h => ha ⟨h, hr.2⟩, ⟨b, hbm.1, hrb⟩,
      ⟨a, ham.1, hra⟩⟩
    intro x hx
    rcases lt_or_ge c x with hcx | hcx
    · exact hmax x ⟨hx, hcx⟩
    · exact hcx.trans hr.2.le
  · rintro ⟨r, hr, hmax, hb, ha, ⟨b, hbm, hrb⟩, ⟨a, ham, hra⟩⟩
    have hcr : c < r := hc₀.trans_le (hmax r₀ hr₀)
    simp only [PatchLoses, mem_past]
    exact ⟨r, ⟨hr, hcr⟩, fun x hx => hmax x hx.1, fun h => hb h.1, fun h => ha h.1,
      ⟨b, ⟨hbm, hcr.trans hrb⟩, hrb⟩, ⟨a, ⟨ham, hcr.trans hra⟩, hra⟩⟩

private theorem not_patchLoses_of_last (hc : c ∈ base ∪ additions) (hcr : c ∈ removals)
    (hmax : ∀ r ∈ removals, r ≤ c) : ¬ PatchLoses base additions removals := by
  rintro ⟨r, hr, hrmax, hb, ha, -⟩
  obtain rfl : r = c := le_antisymm (hmax r hr) (hrmax c hcr)
  rcases Finset.mem_union.mp hc with h | h
  · exact hb h
  · exact ha h

private theorem lostByPatch_past (hc : c ∈ base ∪ additions)
    (hr : ∃ r ∈ removals, c ≤ r) :
    lostByPatch (past c base) (past c additions) (past c removals) =
      lostByPatch base additions removals := by
  by_cases hlt : ∃ r ∈ removals, c < r
  · obtain ⟨r₀, hr₀, hc₀⟩ := hlt
    have hiff := @patchLoses_past_iff base additions removals c ⟨r₀, hr₀, hc₀⟩
    have habove : ∀ x, (∀ r ∈ past c removals, r < x) ↔ ∀ r ∈ removals, r < x := by
      intro x
      simp only [mem_past]
      refine ⟨fun h r hr => ?_, fun h r hr => h r hr.1⟩
      rcases lt_or_ge c r with hcr | hcr
      · exact h r ⟨hr, hcr⟩
      · exact hcr.trans_lt (hc₀.trans (h r₀ ⟨hr₀, hc₀⟩))
    have hpast : ∀ x, (∀ r ∈ removals, r < x) →
        (x ∈ past c base ∪ past c additions ↔ x ∈ base ∪ additions) := by
      intro x hx
      have hcx : c < x := hc₀.trans (hx r₀ hr₀)
      simp [hcx]
    ext x
    simp only [lostByPatch, Finset.mem_filter, hiff, habove]
    constructor
    · rintro ⟨hx, hloses, hxr, hleast⟩
      exact ⟨(hpast x hxr).mp hx, hloses, hxr,
        fun y hy hyr => hleast y ((hpast y hyr).mpr hy) hyr⟩
    · rintro ⟨hx, hloses, hxr, hleast⟩
      exact ⟨(hpast x hxr).mpr hx, hloses, hxr,
        fun y hy hyr => hleast y ((hpast y hyr).mp hy) hyr⟩
  · push Not at hlt
    obtain ⟨r, hr, hcr⟩ := hr
    obtain rfl : r = c := le_antisymm (hlt r hr) hcr
    have hempty : past r removals = ∅ :=
      Finset.filter_eq_empty_iff.mpr fun x hx => not_lt.mpr (hlt x hx)
    rw [hempty, lostByPatch_of_not (not_patchLoses_empty _ _),
      lostByPatch_of_not (not_patchLoses_of_last hc hr hlt)]

private theorem mem_patchedSet {x : Digest} :
    x ∈ patchedSet base additions removals ↔
      x ∈ base ∪ additions ∧ x ∉ removals ∧ x ∉ lostByPatch base additions removals := by
  simp only [patchedSet, Finset.mem_sdiff, and_assoc]

private theorem mem_patchedSet_past {x : Digest} :
    x ∈ patchedSet (past c base) (past c additions) (past c removals) ↔
      (x ∈ base ∪ additions ∧ c < x) ∧ x ∉ removals ∧
        x ∉ lostByPatch (past c base) (past c additions) (past c removals) := by
  rw [mem_patchedSet]
  simp only [Finset.mem_union, mem_past]
  tauto

/-- A candidate that is kept heads what the rest of the loop leaves. -/
private theorem sort_patchedSet_keep (hc : c ∈ base ∪ additions)
    (hmin : ∀ x ∈ base ∪ additions, c ≤ x)
    (hkeep : removals = ∅ ∨ (c ∉ removals ∧ ∃ r ∈ removals, c < r)) :
    (patchedSet base additions removals).sort =
      c :: (patchedSet (past c base) (past c additions) (past c removals)).sort := by
  have hlost : lostByPatch (past c base) (past c additions) (past c removals) =
      lostByPatch base additions removals := by
    rcases hkeep with rfl | ⟨-, r, hr, hcr⟩
    · rw [lostByPatch_of_not (not_patchLoses_empty _ _)]
      exact lostByPatch_of_not (not_patchLoses_empty _ _)
    · exact lostByPatch_past hc ⟨r, hr, hcr.le⟩
  have hcRemovals : c ∉ removals := by
    rcases hkeep with rfl | h
    · simp
    · exact h.1
  have hcLost : c ∉ lostByPatch base additions removals := by
    rcases hkeep with rfl | ⟨-, r, hr, hcr⟩
    · simp [lostByPatch_of_not (not_patchLoses_empty base additions)]
    · intro h
      exact lt_asymm hcr ((Finset.mem_filter.mp h).2.2.1 r hr)
  rw [← sort_insert_of_lt]
  · congr 1
    ext x
    rw [Finset.mem_insert, mem_patchedSet, mem_patchedSet_past, hlost]
    constructor
    · rintro ⟨hx, hrest⟩
      rcases (hmin x hx).eq_or_lt with heq | hlt
      · exact Or.inl heq.symm
      · exact Or.inr ⟨⟨hx, hlt⟩, hrest⟩
    · rintro (rfl | ⟨⟨hx, -⟩, hrest⟩)
      · exact ⟨hc, hcRemovals, hcLost⟩
      · exact ⟨hx, hrest⟩
  · intro x hx
    exact (mem_patchedSet_past.mp hx).1.2

/-- A candidate that is removed, or lost, leaves no trace. -/
private theorem patchedSet_drop (hc : c ∈ base ∪ additions)
    (hmin : ∀ x ∈ base ∪ additions, c ≤ x) (hbase : base.Nonempty) (hadd : additions.Nonempty)
    (hdrop : c ∈ removals ∨ (removals.Nonempty ∧ ∀ r ∈ removals, r < c)) :
    patchedSet base additions removals =
      patchedSet (past c base) (past c additions) (past c removals) := by
  have hstep : ∀ x, c < x → (x ∈ lostByPatch base additions removals ↔
      x ∈ lostByPatch (past c base) (past c additions) (past c removals)) := by
    intro x hcx
    rcases hdrop with hcr | ⟨-, hall⟩
    · rw [lostByPatch_past hc ⟨c, hcr, le_rfl⟩]
    · have hempty : past c removals = ∅ :=
        Finset.filter_eq_empty_iff.mpr fun r hr => not_lt.mpr (hall r hr).le
      rw [hempty, lostByPatch_of_not (not_patchLoses_empty _ _)]
      have hx : x ∉ lostByPatch base additions removals := fun h =>
        not_le.mpr hcx ((Finset.mem_filter.mp h).2.2.2 c hc hall)
      simp [hx]
  have hcGone : c ∉ patchedSet base additions removals := by
    rw [mem_patchedSet]
    rintro ⟨-, hcr, hcl⟩
    rcases hdrop with h | ⟨hne, hall⟩
    · exact hcr h
    · obtain ⟨b, hb⟩ := hbase
      obtain ⟨a, ha⟩ := hadd
      have hcb := hmin b (Finset.mem_union_left _ hb)
      have hca := hmin a (Finset.mem_union_right _ ha)
      have hr := removals.max'_mem hne
      have hrc := hall _ hr
      have hout : ∀ x ∈ base ∪ additions, removals.max' hne ≠ x := fun x hx h =>
        not_le.mpr hrc (h ▸ hmin x hx)
      have hloses : PatchLoses base additions removals :=
        ⟨removals.max' hne, hr, fun x hx => removals.le_max' x hx,
          fun h => hout _ (Finset.mem_union_left _ h) rfl,
          fun h => hout _ (Finset.mem_union_right _ h) rfl,
          ⟨b, hb, hrc.trans_le hcb⟩, ⟨a, ha, hrc.trans_le hca⟩⟩
      exact hcl (Finset.mem_filter.mpr ⟨hc, hloses, hall, fun x hx _ => hmin x hx⟩)
  ext x
  rw [mem_patchedSet_past]
  constructor
  · intro hx
    obtain ⟨hxu, hxr, hxl⟩ := mem_patchedSet.mp hx
    have hcx : c < x := lt_of_le_of_ne (hmin x hxu) fun h => hcGone (h ▸ hx)
    exact ⟨⟨hxu, hcx⟩, hxr, fun h => hxl ((hstep x hcx).mpr h)⟩
  · rintro ⟨⟨hxu, hcx⟩, hxr, hxl⟩
    exact mem_patchedSet.mpr ⟨hxu, hxr, fun h => hxl ((hstep x hcx).mp h)⟩
end Step

private theorem passRemovals_spec (c : Digest) (ddelta : Int) (rs : List Digest)
    (hs : SortedDigests rs) :
    ∃ res, passRemovals c ddelta rs = some res ∧ SortedDigests res.2.1 ∧
      res.2.1.toFinset = past c rs.toFinset ∧
      (0 < res.1 ↔ (rs = [] ∧ 0 < ddelta) ∨ (c ∉ rs ∧ ∃ r ∈ rs, c < r)) := by
  induction ddelta, rs using passRemovals.induct c with
  | case1 ddelta => exact ⟨(ddelta, ⟨[], le_rfl⟩), by simp [passRemovals], hs, rfl, by simp⟩
  | case2 ddelta r rs hneg ih =>
    have hrc : r < c := by simpa using hneg
    obtain ⟨next, hnext, hrun⟩ := skipDupes_spec r rs hs
    obtain ⟨res, hres, hsorted, hset, hpos⟩ := ih next hrun.sorted
    refine ⟨_, by rw [passRemovals, if_pos hneg, hnext]; simp [hres]; rfl, hsorted, ?_, ?_⟩
    · rw [hset, hrun.toFinset_eq]
      ext x
      simp only [mem_past, Finset.mem_insert]
      constructor
      · exact fun h => ⟨Or.inr h.1, h.2⟩
      · rintro ⟨rfl | h, hcx⟩
        · exact absurd hcx hrc.asymm
        · exact ⟨h, hcx⟩
    · rw [hpos]
      have hmem : ∀ x, c ≤ x → (x ∈ next.1 ↔ x ∈ r :: rs) := by
        intro x hcx
        have hne : x ≠ r := ne_of_gt (hrc.trans_le hcx)
        rw [hrun.mem_iff]
        simp [hne]
      have hnot : ¬ 0 < SOSDigestCompare r c := by simpa using hrc.le
      simp only [hnot, and_false, false_or, hmem c le_rfl, reduceCtorEq, false_and]
      constructor
      · rintro ⟨hc, x, hx, hcx⟩
        exact ⟨hc, x, (hmem x hcx.le).mp hx, hcx⟩
      · rintro ⟨hc, x, hx, hcx⟩
        exact ⟨hc, x, (hmem x hcx.le).mpr hx, hcx⟩
  | case3 ddelta r rs hneg hzero =>
    obtain rfl : r = c := by simpa using hzero
    obtain ⟨next, hnext, hrun⟩ := skipDupes_spec r rs hs
    refine ⟨_, by rw [passRemovals, if_neg hneg, if_pos hzero, hnext]; rfl, hrun.sorted,
      (past_run hrun).symm, ?_⟩
    simp
  | case4 ddelta r rs hneg hzero =>
    have hcr : c < r := lt_of_le_of_ne (by simpa using hneg) fun h => hzero (by simp [h])
    have habove : ∀ z ∈ r :: rs, c < z := (NextRun.of_lt hs hcr).lt
    refine ⟨_, by rw [passRemovals, if_neg hneg, if_neg hzero], hs,
      (past_of_above habove).symm, ?_⟩
    have hc : c ∉ r :: rs := fun h => lt_irrefl c (habove c h)
    have hpos : 0 < SOSDigestCompare r c := by simpa using hcr
    simp only [hpos, true_iff]
    exact Or.inr ⟨hc, r, by simp, hcr⟩

private theorem appendAll_patchedSet_round {base additions : Finset Digest} {c : Digest}
    (removals : Finset Digest) (dv : SOSDigestVector) (ddelta : Int) (hc : c ∈ base ∪ additions)
    (hmin : ∀ x ∈ base ∪ additions, c ≤ x) (hbase : base.Nonempty) (hadd : additions.Nonempty)
    (hpos : 0 < ddelta ↔ removals = ∅ ∨ (c ∉ removals ∧ ∃ r ∈ removals, c < r)) :
    (if 0 < ddelta then SOSDigestVectorAppendOrdered dv c else dv).appendAll
        (patchedSet (past c base) (past c additions) (past c removals)).sort =
      dv.appendAll (patchedSet base additions removals).sort := by
  by_cases hkeep : 0 < ddelta
  · rw [if_pos hkeep, sort_patchedSet_keep hc hmin (hpos.mp hkeep),
      SOSDigestVector.appendAll_cons]
  · rw [if_neg hkeep, patchedSet_drop hc hmin hbase hadd]
    rw [hpos] at hkeep
    push Not at hkeep
    obtain ⟨hne, hall⟩ := hkeep
    by_cases hcr : c ∈ removals
    · exact Or.inl hcr
    · refine Or.inr ⟨hne, fun r hr => ?_⟩
      exact lt_of_le_of_ne (hall hcr r hr) fun h => hcr (h ▸ hr)

theorem patchLoop_spec (base additions removals : List Digest) (dv : SOSDigestVector)
    (hb : SortedDigests base) (ha : SortedDigests additions) (hr : SortedDigests removals) :
    patchLoop base additions removals dv =
      some (dv.appendAll
        (patchedSet base.toFinset additions.toFinset removals.toFinset).sort) := by
  induction base, additions, removals, dv using patchLoop.induct with
  | case1 b bs a as removals dv udelta candidate ihBoth ihBase ihAdd =>
    obtain ⟨⟨ddelta, i3⟩, hpass, hsorted, hset, hpos⟩ :=
      passRemovals_spec candidate 1 removals hr
    have hround : ∀ dv, candidate ∈ (b :: bs).toFinset ∪ (a :: as).toFinset →
        (∀ x ∈ (b :: bs).toFinset ∪ (a :: as).toFinset, candidate ≤ x) → _ :=
      fun dv hc hmin => appendAll_patchedSet_round removals.toFinset dv ddelta hc hmin
        (by simp) (by simp) (by simpa using hpos)
    obtain ⟨hbmin, -⟩ := List.pairwise_cons.mp hb
    obtain ⟨hamin, -⟩ := List.pairwise_cons.mp ha
    have hunion : ∀ c, c ≤ b → c ≤ a →
        ∀ x ∈ (b :: bs).toFinset ∪ (a :: as).toFinset, c ≤ x := by
      intro c hcb hca x hx
      simp only [Finset.mem_union, List.mem_toFinset, List.mem_cons] at hx
      rcases hx with (rfl | hx) | (rfl | hx)
      · exact hcb
      · exact hcb.trans (hbmin x hx)
      · exact hca
      · exact hca.trans (hamin x hx)
    obtain ⟨nextB, hnextB, hrunB⟩ := skipDupes_spec b bs hb
    obtain ⟨nextA, hnextA, hrunA⟩ := skipDupes_spec a as ha
    rw [patchLoop]
    rcases lt_trichotomy b a with hlt | rfl | hlt
    · have hneg : SOSDigestCompare b a < 0 := by simpa using hlt
      have hcand : candidate = b := if_pos hneg
      rw [hcand] at hpass hset hround
      simp only [hneg, if_true, hpass, hneg.ne, if_false, hnextB, Option.bind_eq_bind,
        Option.bind_some]
      rw [← hround dv (by simp) (hunion b le_rfl hlt.le), past_run hrunB,
        past_of_above (NextRun.of_lt ha hlt).lt, ← hset, ← hcand]
      exact ihBase ddelta i3 nextB hrunB.sorted ha hsorted
    · have hzero : SOSDigestCompare b b = 0 := by simp
      have hcand : candidate = b := if_neg (by simp [udelta])
      rw [hcand] at hpass hset hround
      simp only [hzero, lt_irrefl, if_true, hpass, if_false, hnextB, hnextA, Option.bind_eq_bind,
        Option.bind_some]
      rw [← hround dv (by simp) (hunion b le_rfl le_rfl), past_run hrunB, past_run hrunA,
        ← hset, ← hcand]
      exact ihBoth ddelta i3 nextB nextA hrunB.sorted hrunA.sorted hsorted
    · have hnneg : ¬ SOSDigestCompare b a < 0 := by simpa using hlt.le
      have hnzero : SOSDigestCompare b a ≠ 0 := by simpa using hlt.ne'
      have hcand : candidate = a := if_neg hnneg
      rw [hcand] at hpass hset hround
      simp only [hnneg, hnzero, hpass, if_false, hnextA, Option.bind_eq_bind, Option.bind_some]
      rw [← hround dv (by simp) (hunion a hlt.le le_rfl), past_run hrunA,
        past_of_above (NextRun.of_lt hb hlt).lt, ← hset, ← hcand]
      exact ihAdd ddelta i3 nextA hb hrunA.sorted hsorted
  | case2 base additions removals dv hend =>
    have hexact : ¬ PatchLoses base.toFinset additions.toFinset removals.toFinset := by
      rintro ⟨r, -, -, -, -, ⟨b, hb, -⟩, ⟨a, ha, -⟩⟩
      cases base with
      | nil => simp at hb
      | cons b bs =>
        cases additions with
        | nil => simp at ha
        | cons a as => exact hend b bs a as rfl rfl
    rw [patchLoop, appendComplementAtIndex_spec _ _ _ hr hb]
    · simp only [Option.bind_eq_bind, Option.bind_some, patchedSet, lostByPatch_of_not hexact,
        Finset.sdiff_empty]
      rw [appendComplementAtIndex_spec _ _ _ hr ha]
      cases base with
      | nil => simp
      | cons b bs =>
        cases additions with
        | nil => simp
        | cons a as => exact absurd rfl (hend b bs a as rfl)
    · exact hend

theorem patchSorted_spec {base removals additions : SOSDigestVector}
    (hb : base.unsorted = false) (hr : removals.unsorted = false)
    (ha : additions.unsorted = false) (hbs : SortedDigests base.digest)
    (hrs : SortedDigests removals.digest) (has : SortedDigests additions.digest) :
    SOSDigestVectorPatchSorted base removals additions SOSDigestVectorInit =
      some (SOSDigestVectorInit.appendAll (patchedSet base.digest.toFinset
        additions.digest.toFinset removals.digest.toFinset).sort) := by
  have hcount : SOSDigestVectorInit.count = 0 := rfl
  simp [SOSDigestVectorPatchSorted, hcount, hb, hr, ha, patchLoop_spec _ _ _ _ hbs has hrs]
end SecurityFramework
