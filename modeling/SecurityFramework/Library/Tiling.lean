import Mathlib.Data.List.Sort

/-!
# Tilings

Ranges tile an interval when each position of it lies in exactly one of them and none reaches
outside.
-/

namespace Tiling
variable {ρ : Type*} (base finish : ρ → Nat)

structure Tiles (start last : Nat) (ranges : List ρ) : Prop where
  inside : ∀ range ∈ ranges, start ≤ base range ∧ finish range ≤ last
  covered : ∀ pos, start ≤ pos → pos < last → ∃ range ∈ ranges, base range ≤ pos ∧ pos < finish range
  /-- A range without positions has a place of its own too. -/
  apart : ranges.Pairwise fun a b => finish a ≤ base b ∨ finish b ≤ base a

def Adjacent (start last : Nat) : List ρ → Prop
  | [] => start = last
  | range :: rest => base range = start ∧ Adjacent (finish range) last rest

variable {base finish} {start last : Nat}

variable {ranges : List ρ}

theorem Tiles.perm {ranges' : List ρ} (h : Tiles base finish start last ranges)
    (hperm : ranges.Perm ranges') : Tiles base finish start last ranges' := by
  refine ⟨fun range hr => h.inside range (hperm.mem_iff.mpr hr), ?_, ?_⟩
  · intro pos hstart hlast
    obtain ⟨range, hr, hin⟩ := h.covered pos hstart hlast
    exact ⟨range, hperm.mem_iff.mp hr, hin⟩
  · exact (hperm.pairwise_iff fun hab => hab.symm).mp h.apart

theorem tiles_perm_iff {ranges' : List ρ} (hperm : ranges.Perm ranges') :
    Tiles base finish start last ranges ↔ Tiles base finish start last ranges' :=
  ⟨fun h => h.perm hperm, fun h => h.perm hperm.symm⟩

theorem Adjacent.start_le (hlong : ∀ range ∈ ranges, base range ≤ finish range)
    (h : Adjacent base finish start last ranges) : start ≤ last := by
  induction ranges generalizing start with
  | nil => exact Nat.le_of_eq h
  | cons range rest ih =>
    have hrest := ih (fun r hr => hlong r (List.mem_cons_of_mem _ hr)) h.2
    have hrange := hlong range List.mem_cons_self
    rw [h.1] at hrange
    exact Nat.le_trans hrange hrest

theorem tiles_of_adjacent (hlong : ∀ range ∈ ranges, base range ≤ finish range)
    (h : Adjacent base finish start last ranges) : Tiles base finish start last ranges := by
  induction ranges generalizing start with
  | nil =>
    have heq : start = last := h
    exact ⟨by simp, fun pos hstart hlast => by omega, List.Pairwise.nil⟩
  | cons range rest ih =>
    have hrest := fun r hr => hlong r (List.mem_cons_of_mem range hr)
    have htiles := ih hrest h.2
    have hbase : base range = start := h.1
    have hfinish := hlong range List.mem_cons_self
    have hlast := h.2.start_le hrest
    refine ⟨?_, ?_, ?_⟩
    · intro r hr
      rcases List.mem_cons.mp hr with rfl | hr
      · exact ⟨Nat.le_of_eq hbase.symm, hlast⟩
      · have hinside := htiles.inside r hr
        exact ⟨by omega, hinside.2⟩
    · intro pos hstart hpos
      by_cases hin : pos < finish range
      · exact ⟨range, List.mem_cons_self, by omega, hin⟩
      · obtain ⟨r, hr, hcovers⟩ := htiles.covered pos (Nat.not_lt.mp hin) hpos
        exact ⟨r, List.mem_cons_of_mem _ hr, hcovers⟩
    · refine List.Pairwise.cons ?_ htiles.apart
      intro r hr
      exact Or.inl (htiles.inside r hr).1

/-- The ranges start within the interval, and those with one base are of one length. -/
structure Placed (base finish : ρ → Nat) (last : Nat) (ranges : List ρ) : Prop where
  long : ∀ range ∈ ranges, base range ≤ finish range
  starts : ∀ range ∈ ranges, base range < last
  same : ∀ a ∈ ranges, ∀ b ∈ ranges, base a = base b → finish a = finish b

theorem Placed.perm {ranges' : List ρ} (h : Placed base finish last ranges)
    (hperm : ranges.Perm ranges') : Placed base finish last ranges' where
  long r hr := h.long r (hperm.mem_iff.mpr hr)
  starts r hr := h.starts r (hperm.mem_iff.mpr hr)
  same a ha b hb := h.same a (hperm.mem_iff.mpr ha) b (hperm.mem_iff.mpr hb)

theorem Placed.tail {range : ρ} {rest : List ρ}
    (h : Placed base finish last (range :: rest)) : Placed base finish last rest where
  long r hr := h.long r (List.mem_cons_of_mem _ hr)
  starts r hr := h.starts r (List.mem_cons_of_mem _ hr)
  same a ha b hb := h.same a (List.mem_cons_of_mem _ ha) b (List.mem_cons_of_mem _ hb)

theorem adjacent_of_tiles (hplaced : Placed base finish last ranges)
    (hsorted : ranges.Pairwise fun a b => base a ≤ base b) (hle : start ≤ last)
    (h : Tiles base finish start last ranges) : Adjacent base finish start last ranges := by
  induction ranges generalizing start with
  | nil =>
    by_contra hne
    have hlt : start < last := Nat.lt_of_le_of_ne hle hne
    obtain ⟨range, hr, -⟩ := h.covered start (Nat.le_refl _) hlt
    cases hr
  | cons range rest ih =>
    have hrange := h.inside range List.mem_cons_self
    have hstarts := hplaced.starts range List.mem_cons_self
    -- the first position lies in a range that starts there, and so does the first range
    obtain ⟨cover, hcover, hbefore, hbehind⟩ := h.covered start (Nat.le_refl _) (by omega)
    have hcoverBase := (h.inside cover hcover).1
    have hfirst : base range ≤ base cover := by
      rcases List.mem_cons.mp hcover with rfl | hmem
      · exact Nat.le_refl _
      · exact List.rel_of_pairwise_cons hsorted hmem
    have hbase : base range = start := by omega
    have hfinish : finish range = finish cover :=
      hplaced.same range List.mem_cons_self cover hcover (by omega)
    refine ⟨hbase, ih hplaced.tail hsorted.of_cons hrange.2 ⟨?_, ?_, h.apart.of_cons⟩⟩
    · intro r hr
      refine ⟨?_, (h.inside r (List.mem_cons_of_mem _ hr)).2⟩
      rcases List.rel_of_pairwise_cons h.apart hr with hafter | hbefore'
      · exact hafter
      · have hlong := hplaced.long r (List.mem_cons_of_mem _ hr)
        have hin := (h.inside r (List.mem_cons_of_mem _ hr)).1
        have hsame := hplaced.same r (List.mem_cons_of_mem _ hr) range List.mem_cons_self (by omega)
        omega
    · intro pos hstart hlast
      obtain ⟨r, hr, hcovers⟩ := h.covered pos (by omega) hlast
      rcases List.mem_cons.mp hr with rfl | hr
      · omega
      · exact ⟨r, hr, hcovers⟩

/-- Ranges that are sorted by their bases tile an interval when each starts where the one before
it ends. -/
theorem adjacent_iff_tiles (hplaced : Placed base finish last ranges)
    (hsorted : ranges.Pairwise fun a b => base a ≤ base b) (hle : start ≤ last) :
    Adjacent base finish start last ranges ↔ Tiles base finish start last ranges :=
  ⟨tiles_of_adjacent hplaced.long, adjacent_of_tiles hplaced hsorted hle⟩
end Tiling
