import SecurityFramework.SecureObjectSync.DigestVectorMerge

/-! # Sorting in place -/

namespace SecurityFramework
open SortedSet

private theorem moveDigests_eq (ds : List Digest) (dest source n : Nat) (hle : dest ≤ source)
    (hn : source + n ≤ ds.length) :
    moveDigests ds dest source n =
      ds.take dest ++ (ds.drop source).take n ++ ds.drop (dest + n) := by
  apply List.ext_getElem?
  intro ix
  rw [moveDigests, List.getElem?_mapIdx]
  rcases Nat.lt_or_ge ix dest with hbefore | hbefore
  · rw [List.append_assoc, List.getElem?_append_left (by rw [List.length_take]; omega),
      List.getElem?_take_of_lt hbefore]
    simp [show ¬ dest ≤ ix by omega]
  · rw [List.append_assoc, List.getElem?_append_right (by rw [List.length_take]; omega),
      List.length_take, Nat.min_eq_left (by omega)]
    rcases Nat.lt_or_ge ix (dest + n) with hin | hafter
    · have hix : ix < ds.length := by omega
      have hsrc : source + (ix - dest) < ds.length := by omega
      rw [List.getElem?_append_left (by rw [List.length_take, List.length_drop]; omega),
        List.getElem?_take_of_lt (by omega), List.getElem?_drop]
      simp [hbefore, hin, hix, hsrc, List.getD_eq_getElem?_getD]
    · rw [List.getElem?_append_right (by rw [List.length_take, List.length_drop]; omega),
        List.length_take, List.length_drop, Nat.min_eq_left (by omega), List.getElem?_drop,
        show dest + n + (ix - dest - n) = ix by omega]
      simp [show ¬ ix < dest + n by omega]

/-- Finishing a region appends it to what is in place, and leaves the rest of the vector alone. -/
private theorem finishRegion_spec {stop : Nat} (s : UniqueState stop) (hds : s.dest ≤ s.source)
    (hsp : s.source ≤ s.prev + 1) (hstop : s.prev + 1 ≤ stop) :
    s.finishRegion.digest.take s.finishRegion.dest =
        s.digest.take s.dest ++ (s.digest.drop s.source).take (s.prev + 1 - s.source) ∧
      s.finishRegion.digest.drop (s.prev + 1) = s.digest.drop (s.prev + 1) := by
  have hlen := s.length_eq
  by_cases hmove : s.dest = s.source
  · simp only [UniqueState.finishRegion, hmove, ne_eq, not_true_eq_false, if_false, and_true]
    rw [List.take_add]
  · simp only [UniqueState.finishRegion, ne_eq, hmove, not_false_eq_true, if_true]
    rw [moveDigests_eq _ _ _ _ hds (by omega)]
    have hfront : (s.digest.take s.dest ++
        (s.digest.drop s.source).take (s.prev + 1 - s.source)).length =
        s.dest + (s.prev + 1 - s.source) := by
      rw [List.length_append, List.length_take, List.length_take, List.length_drop]
      omega
    refine ⟨List.take_left' hfront, ?_⟩
    rw [List.drop_append, List.drop_eq_nil_of_le (by omega), List.nil_append, List.drop_drop,
      hfront]
    congr 1
    omega

private theorem drop_eq_cons {ds : List Digest} {cur : Nat} {c : Digest} (h : ds[cur]? = some c) :
    ds.drop cur = c :: ds.drop (cur + 1) := by
  obtain ⟨hlt, rfl⟩ := List.getElem?_eq_some_iff.mp h
  exact List.drop_eq_getElem_cons hlt

private theorem uniqueSkip_spec {stop : Nat} (s : UniqueState stop) (p : Digest) (cur : Nat)
    (hp : s.digest[s.prev]? = some p) (hs : SortedDigests (p :: s.digest.drop cur))
    (hcur : cur ≤ stop) :
    ∃ next, uniqueSkip s cur = some next ∧ next.1 ≤ stop ∧
      NextRun p (s.digest.drop cur) (s.digest.drop next.1) := by
  induction cur using @uniqueSkip.induct stop with
  | case1 cur hlt ih =>
    obtain ⟨c, hc⟩ : ∃ c, s.digest[cur]? = some c :=
      ⟨_, List.getElem?_eq_getElem (by rw [s.length_eq]; exact hlt)⟩
    have hdrop := drop_eq_cons hc
    rw [hdrop] at hs ⊢
    obtain ⟨hmin, htail⟩ := List.pairwise_cons.mp hs
    have hpc : p ≤ c := hmin c (by simp)
    have hnpos : SOSDigestCompare p c ≤ 0 := by
      have hiff := SOSDigestCompare_pos_iff p c
      by_contra hpos
      exact not_lt.mpr hpc (hiff.mp (by omega))
    by_cases heq : p = c
    · subst heq
      obtain ⟨next, hnext, hle, hrun⟩ := ih (by simpa using htail) hlt
      refine ⟨⟨next.1, (Nat.le_succ cur).trans next.2⟩, ?_, hle, hrun.cons_self⟩
      rw [uniqueSkip]
      simp [hlt, hp, hc, hnext, hnpos, guard]
    · refine ⟨⟨cur, le_rfl⟩, ?_, hcur, ?_⟩
      · rw [uniqueSkip]
        simp [hlt, hp, hc, heq, hnpos]
      · rw [hdrop]
        exact NextRun.of_lt htail (lt_of_le_of_ne hpc heq)
  | case2 cur hge =>
    have hnil : s.digest.drop cur = [] := List.drop_eq_nil_of_le (by rw [s.length_eq]; omega)
    refine ⟨⟨cur, le_rfl⟩, by rw [uniqueSkip, if_neg hge], hcur, ?_⟩
    rw [hnil]
    exact NextRun.nil p

private def uniqueOut {stop : Nat} (s : UniqueState stop) : List Digest :=
  s.digest.take s.dest ++ (s.digest.drop s.source).take (s.prev + 1 - s.source)

private structure UniqueInv {stop : Nat} (ds : List Digest) (s : UniqueState stop) (p : Digest) :
    Prop where
  dest_le : s.dest ≤ s.source
  source_le : s.source ≤ s.prev + 1
  prev_lt : s.prev < stop
  prev_eq : s.digest[s.prev]? = some p
  sorted : SortedDigests (p :: s.digest.drop (s.prev + 1))
  out_strict : (uniqueOut s).Pairwise (· < ·)
  out_le : ∀ x ∈ uniqueOut s, x ≤ p
  out_mem : p ∈ uniqueOut s
  toFinset_eq : (uniqueOut s).toFinset ∪ (s.digest.drop (s.prev + 1)).toFinset = ds.toFinset

namespace UniqueInv
variable {stop : Nat} {ds : List Digest} {s : UniqueState stop} {p : Digest}

/-- Once the rest holds nothing new, the digests passed are the whole set. -/
private theorem out_eq (h : UniqueInv ds s p)
    (hrest : (s.digest.drop (s.prev + 1)).toFinset ⊆ {p}) :
    uniqueOut s = ds.toFinset.sort := by
  have hset : (uniqueOut s).toFinset = ds.toFinset := by
    rw [← h.toFinset_eq]
    refine (Finset.union_eq_left.mpr fun x hx => ?_).symm
    rw [List.mem_toFinset, Finset.mem_singleton.mp (hrest hx)]
    exact h.out_mem
  rw [← hset, sort_toFinset h.out_strict]

private theorem extend {c : Digest} {s' : UniqueState stop} (h : UniqueInv ds s p)
    (hdest : s'.dest ≤ s'.source) (hsource : s'.source ≤ s'.prev + 1) (hprev : s'.prev < stop)
    (hc : s'.digest[s'.prev]? = some c) (hpc : p < c)
    (hout : uniqueOut s' = uniqueOut s ++ [c])
    (hsorted : SortedDigests (c :: s'.digest.drop (s'.prev + 1)))
    (hset : insert p (c :: s'.digest.drop (s'.prev + 1)).toFinset =
      insert p (s.digest.drop (s.prev + 1)).toFinset) :
    UniqueInv ds s' c where
  dest_le := hdest
  source_le := hsource
  prev_lt := hprev
  prev_eq := hc
  sorted := hsorted
  out_strict := by
    rw [hout, List.pairwise_append]
    refine ⟨h.out_strict, List.pairwise_singleton _ _, fun x hx y hy => ?_⟩
    rw [List.mem_singleton.mp hy]
    exact (h.out_le x hx).trans_lt hpc
  out_le := by
    intro x hx
    rw [hout] at hx
    rcases List.mem_append.mp hx with hx | hx
    · exact (h.out_le x hx).trans hpc.le
    · exact (List.mem_singleton.mp hx).le
  out_mem := by
    rw [hout]
    simp
  toFinset_eq := by
    have hp : p ∈ (uniqueOut s).toFinset := List.mem_toFinset.mpr h.out_mem
    rw [hout, List.toFinset_append, Finset.union_assoc, ← h.toFinset_eq]
    have hcons : [c].toFinset ∪ (s'.digest.drop (s'.prev + 1)).toFinset =
        (c :: s'.digest.drop (s'.prev + 1)).toFinset := by simp
    rw [hcons, ← Finset.insert_eq_self.mpr hp, Finset.insert_union, ← Finset.union_insert, hset,
      Finset.union_insert, ← Finset.insert_union]
end UniqueInv

private def uniqueResult {stop : Nat} (s : UniqueState stop) : List Digest :=
  let s := if s.source < stop then s.finishRegion else s
  s.digest.take s.dest

private theorem uniqueLoop_spec {stop : Nat} (ds : List Digest) (s : UniqueState stop)
    (cur : Nat) (p : Digest) (hcur : cur = s.prev + 1) (h : UniqueInv ds s p) :
    ∃ s', uniqueLoop s cur = some s' ∧ uniqueResult s' = ds.toFinset.sort := by
  induction s, cur using @uniqueLoop.induct stop generalizing p with
  | case1 s cur hlt ihNew ihRun =>
    subst hcur
    obtain ⟨c, hc⟩ : ∃ c, s.digest[s.prev + 1]? = some c :=
      ⟨_, List.getElem?_eq_getElem (by rw [s.length_eq]; exact hlt)⟩
    have hdrop := drop_eq_cons hc
    have hsorted := h.sorted
    rw [hdrop] at hsorted
    obtain ⟨hmin, htail⟩ := List.pairwise_cons.mp hsorted
    rw [uniqueLoop, if_pos hlt, h.prev_eq, hc]
    simp only [Option.bind_eq_bind, Option.bind_some]
    rcases (hmin c (by simp)).lt_or_eq with hpc | rfl
    · rw [if_pos (by simpa using hpc)]
      refine ihNew c rfl (h.extend h.dest_le ?_ hlt hc hpc ?_ htail ?_)
      · exact h.source_le.trans (Nat.le_succ _)
      · have hsrc := h.source_le
        have htake : s.prev + 1 + 1 - s.source = s.prev + 1 - s.source + 1 := by omega
        have hget : (s.digest.drop s.source)[s.prev + 1 - s.source]? = some c := by
          rw [List.getElem?_drop, Nat.add_sub_cancel' hsrc, hc]
        simp only [uniqueOut]
        rw [htake, List.take_add_one, hget, ← List.append_assoc]
        rfl
      · rw [hdrop]
    · have hzero : ¬ SOSDigestCompare p p < 0 := by simp
      have hpos : ¬ 0 < SOSDigestCompare p p := by simp
      rw [if_neg hzero, if_neg hpos]
      obtain ⟨htake, hrest⟩ := finishRegion_spec s h.dest_le h.source_le hlt.le
      have hrest' : s.finishRegion.digest.drop (s.prev + 1 + 1) =
          s.digest.drop (s.prev + 1 + 1) := by
        rw [← List.drop_drop, hrest, List.drop_drop]
      have hprev : s.finishRegion.digest[s.prev + 1]? = some p := by
        have hget := congrArg (·[0]?) hrest
        simpa [List.getElem?_drop, hc] using hget
      obtain ⟨next, hnext, hle, hrun⟩ := uniqueSkip_spec s.finishRegion p (s.prev + 1 + 1) hprev
        (by rw [hrest']; exact htail) hlt
      rw [hrest'] at hrun
      rw [hnext]
      simp only [Option.bind_some]
      have hnextCur := next.2
      rcases hle.lt_or_eq with hnextLt | hnextEnd
      · obtain ⟨c', hc'⟩ : ∃ c', s.finishRegion.digest[next.1]? = some c' :=
          ⟨_, List.getElem?_eq_getElem (by rw [s.finishRegion.length_eq]; exact hnextLt)⟩
        have hdrop' := drop_eq_cons hc'
        rw [hdrop'] at hrun
        refine ihRun next c' rfl
          (h.extend ?_ (Nat.le_succ _) hnextLt hc' (hrun.lt c' (by simp)) ?_ hrun.sorted ?_)
        · have hds := h.dest_le
          have hsrc := h.source_le
          simp only [UniqueState.finishRegion]
          omega
        · simp only [uniqueOut]
          rw [htake, hdrop', Nat.add_sub_cancel_left]
          rfl
        · rw [hdrop, hrun.toFinset_eq, Finset.insert_idem]
      · have hdone : ¬ next.1 < stop := by omega
        rw [uniqueLoop, if_neg (by omega)]
        refine ⟨_, rfl, ?_⟩
        rw [← h.out_eq, uniqueResult, if_neg hdone]
        · exact htake
        · rw [hdrop, hrun.toFinset_eq, hnextEnd,
            List.drop_eq_nil_of_le (by rw [s.finishRegion.length_eq])]
          simp
  | case2 s cur hge =>
    subst hcur
    have hprev := h.prev_lt
    have hend : s.prev + 1 = stop := by omega
    refine ⟨s, by rw [uniqueLoop, if_neg hge], ?_⟩
    rw [← h.out_eq]
    · by_cases hopen : s.source < stop
      · rw [uniqueResult, if_pos hopen]
        exact (finishRegion_spec s h.dest_le h.source_le hend.le).1
      · rw [uniqueResult, if_neg hopen, uniqueOut, show s.prev + 1 - s.source = 0 by omega]
        simp
    · rw [List.drop_eq_nil_of_le (by rw [s.length_eq]; omega)]
      simp

theorem unique_spec (dv : SOSDigestVector) (hs : SortedDigests dv.digest) :
    ∃ dv', SOSDigestVectorUnique dv = some dv' ∧ dv'.digest = dv.digest.toFinset.sort ∧
      dv'.unsorted = dv.unsorted ∧ dv'.capacity = dv.capacity := by
  by_cases hsmall : dv.count < 2
  · refine ⟨dv, by rw [SOSDigestVectorUnique, if_pos hsmall], ?_, rfl, rfl⟩
    rw [sort_toFinset]
    rcases hdigest : dv.digest with _ | ⟨d, _ | ⟨e, ds⟩⟩
    · exact List.Pairwise.nil
    · exact List.pairwise_singleton _ _
    · simp only [SOSDigestVector.count, hdigest, List.length_cons] at hsmall
      omega
  · obtain ⟨d, e, ds, hdigest⟩ : ∃ d e ds, dv.digest = d :: e :: ds := by
      rcases hdigest : dv.digest with _ | ⟨d, _ | ⟨e, ds⟩⟩
      · exact absurd (by simp [SOSDigestVector.count, hdigest]) hsmall
      · exact absurd (by simp [SOSDigestVector.count, hdigest]) hsmall
      · exact ⟨d, e, ds, rfl⟩
    have hout : uniqueOut (⟨dv.digest, 0, 1, 1, rfl⟩ : UniqueState dv.count) = [d] := by
      simp [uniqueOut, hdigest]
    have hinv : UniqueInv dv.digest (⟨dv.digest, 0, 1, 1, rfl⟩ : UniqueState dv.count) d :=
      { dest_le := le_rfl
        source_le := le_rfl
        prev_lt := show 0 < dv.count by omega
        prev_eq := by simp [hdigest]
        sorted := by simpa [hdigest] using hs
        out_strict := by simp [hout]
        out_le := by simp [hout]
        out_mem := by simp [hout]
        toFinset_eq := by
          rw [hout]
          simp [hdigest, Finset.insert_comm e d] }
    obtain ⟨s, hloop, hresult⟩ := uniqueLoop_spec dv.digest _ 1 d rfl hinv
    rw [SOSDigestVectorUnique, if_neg hsmall, hloop]
    exact ⟨_, rfl, hresult, rfl, rfl⟩

theorem sort_spec (dv : SOSDigestVector) (hun : dv.unsorted = true) :
    ∃ dv', SOSDigestVectorSort dv = some dv' ∧ dv'.digest = dv.digest.toFinset.sort := by
  have hcount := dv.count_le_capacity
  by_cases hcap : dv.capacity = 0
  · have hnil : dv.digest = [] := List.length_eq_zero_iff.mp (by omega)
    refine ⟨dv, by simp [SOSDigestVectorSort, hcap], ?_⟩
    simp [hnil]
  · have hsorted : SortedDigests
        (dv.digest.mergeSort fun a b => decide (SOSDigestCompare a b ≤ 0)) := by
      have hle : ∀ a b : Digest, SOSDigestCompare a b ≤ 0 ↔ a ≤ b := by
        intro a b
        rw [← not_lt, SOSDigestCompare_pos_iff, not_lt]
      have hpair := @List.pairwise_mergeSort _ (fun a b => decide (SOSDigestCompare a b ≤ 0))
        (fun a b c => by simpa [hle] using le_trans)
        (fun a b => by simpa [hle] using le_total a b) dv.digest
      exact hpair.imp fun h => (hle _ _).mp (by simpa using h)
    obtain ⟨dv', hunique, hdigest, -, -⟩ := unique_spec
      { dv with
        digest := dv.digest.mergeSort fun a b => SOSDigestCompare a b ≤ 0
        unsorted := false
        count_le_capacity := by
          rw [List.length_mergeSort]
          exact hcount } hsorted
    refine ⟨dv', ?_, ?_⟩
    · rw [SOSDigestVectorSort, if_pos (by simp [hun, hcap])]
      exact hunique
    · rw [hdigest]
      congr 1
      ext x
      simp [List.mem_mergeSort]
end SecurityFramework
