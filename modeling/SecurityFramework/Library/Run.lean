import Mathlib.Logic.Relation

/-!
# Runs of a step function

A step function takes a state and an input, and may have no next state.
-/

/-- The runs of `step` whose steps all meet `ok`. -/
inductive Run {σ ι : Type*} (step : σ → ι → Option σ) (ok : σ → ι → Prop) :
    σ → List ι → σ → Prop
  | nil (s : σ) : Run step ok s [] s
  | cons {s s' s'' : σ} {i : ι} {is : List ι} (hok : ok s i) (hstep : step s i = some s')
      (hrest : Run step ok s' is s'') : Run step ok s (i :: is) s''

namespace Run
variable {σ ι : Type*} {step : σ → ι → Option σ} {ok ok' : σ → ι → Prop}

variable {is : List ι}

/-- What each step preserves, a run preserves. -/
theorem invariant (inv : σ → Prop) (hpres : ∀ s i s', inv s → ok s i → step s i = some s' → inv s')
    {s s' : σ} (hrun : Run step ok s is s') (hs : inv s) : inv s' := by
  induction hrun with
  | nil s => exact hs
  | cons hok hstep _ ih => exact ih (hpres _ _ _ hs hok hstep)

/-- What each step of some inputs preserves, a run of those inputs preserves. -/
theorem invariant_of_inputs (inv : σ → Prop) {allowed : ι → Prop}
    (hpres : ∀ s i s', inv s → ok s i → allowed i → step s i = some s' → inv s') {s s' : σ}
    (hrun : Run step ok s is s') (hall : ∀ i ∈ is, allowed i) (hs : inv s) : inv s' := by
  induction hrun with
  | nil s => exact hs
  | cons hok hstep _ ih =>
    exact ih (fun i hi => hall i (List.mem_cons_of_mem _ hi))
      (hpres _ _ _ hs hok (hall _ List.mem_cons_self) hstep)

theorem mono (himp : ∀ s i, ok s i → ok' s i) {s s' : σ} (hrun : Run step ok s is s') :
    Run step ok' s is s' := by
  induction hrun with
  | nil s => exact nil s
  | cons hok hstep _ ih => exact cons (himp _ _ hok) hstep ih

/-- Conditions that agree wherever an invariant holds allow the same runs. -/
theorem congr_of_invariant (inv : σ → Prop) (hpres : ∀ s i s', inv s → step s i = some s' → inv s')
    (hiff : ∀ s i, inv s → (ok s i ↔ ok' s i)) {s s' : σ} (hs : inv s) :
    Run step ok s is s' ↔ Run step ok' s is s' := by
  constructor
  · intro hrun
    induction hrun with
    | nil s => exact nil s
    | cons hok hstep _ ih => exact cons ((hiff _ _ hs).1 hok) hstep (ih (hpres _ _ _ hs hstep))
  · intro hrun
    induction hrun with
    | nil s => exact nil s
    | cons hok hstep _ ih => exact cons ((hiff _ _ hs).2 hok) hstep (ih (hpres _ _ _ hs hstep))

theorem append {s s' s'' : σ} {is' : List ι} (hrun : Run step ok s is s')
    (hrun' : Run step ok s' is' s'') : Run step ok s (is ++ is') s'' := by
  induction hrun with
  | nil s => exact hrun'
  | cons hok hstep _ ih => exact cons hok hstep (ih hrun')

theorem cons_get {s s'' : σ} {i : ι} (hok : ok s i) (hstep : (step s i).isSome)
    (hrest : Run step ok ((step s i).get hstep) is s'') : Run step ok s (i :: is) s'' :=
  cons hok (Option.some_get hstep).symm hrest
end Run

namespace Loop
variable {σ : Type*} (next : σ → Option σ)

def run : Nat → σ → Option σ
  | 0, _ => none
  | fuel + 1, s =>
    match next s with
    | none => some s
    | some s' => run fuel s'

variable {next}

theorem run_done {s : σ} (hdone : next s = none) (fuel : Nat) :
    run next (fuel + 1) s = some s := by
  rw [run, hdone]

theorem run_turn {s s' : σ} (hturn : next s = some s') (fuel : Nat) :
    run next (fuel + 1) s = run next fuel s' := by
  rw [run, hturn]

theorem run_mono {fuel more : Nat} {s t : σ} (hle : fuel ≤ more) (hrun : run next fuel s = some t) :
    run next more s = some t := by
  induction fuel generalizing more s with
  | zero => cases hrun
  | succ fuel ih =>
    obtain ⟨more, rfl⟩ : ∃ rest, more = rest + 1 := ⟨more - 1, by omega⟩
    cases hnext : next s with
    | none =>
      rw [run_done hnext] at hrun ⊢
      exact hrun
    | some s' =>
      rw [run_turn hnext] at hrun ⊢
      exact ih (Nat.le_of_succ_le_succ hle) hrun

/-- A loop that comes to a state with no next one ends there. -/
theorem exists_run_of_reaches {s t : σ}
    (hreaches : Relation.ReflTransGen (fun s s' => next s = some s') s t) (hdone : next t = none) :
    ∃ fuel, run next fuel s = some t := by
  induction hreaches using Relation.ReflTransGen.head_induction_on with
  | refl => exact ⟨1, run_done hdone 0⟩
  | head hturn _ ih =>
    obtain ⟨fuel, hrun⟩ := ih
    exact ⟨fuel + 1, by rw [run_turn hturn, hrun]⟩

theorem run_unique {fuel fuel' : Nat} {s t t' : σ} (hrun : run next fuel s = some t)
    (hrun' : run next fuel' s = some t') : t = t' := by
  have hmore := run_mono (Nat.le_max_left fuel fuel') hrun
  rw [run_mono (Nat.le_max_right fuel fuel') hrun'] at hmore
  exact (Option.some.inj hmore).symm

theorem invariant_of_run (inv : σ → Prop) (hturn : ∀ s s', inv s → next s = some s' → inv s')
    {fuel : Nat} {s t : σ} (hs : inv s) (hrun : run next fuel s = some t) :
    inv t ∧ next t = none := by
  induction fuel generalizing s with
  | zero => cases hrun
  | succ fuel ih =>
    cases hnext : next s with
    | none =>
      rw [run_done hnext] at hrun
      cases hrun
      exact ⟨hs, hnext⟩
    | some s' =>
      rw [run_turn hnext] at hrun
      exact ih (hturn s s' hs hnext) hrun

/-- A loop of which every turn makes a measure smaller ends. -/
theorem run_of_measure (measure : σ → Nat)
    (hturn : ∀ s s', next s = some s' → measure s' < measure s) (s : σ) :
    ∃ t, run next (measure s + 1) s = some t := by
  obtain ⟨bound, hbound⟩ : ∃ bound, bound = measure s := ⟨_, rfl⟩
  rw [← hbound]
  induction bound using Nat.strongRecOn generalizing s with
  | ind bound ih =>
    cases hnext : next s with
    | none => exact ⟨s, run_done hnext bound⟩
    | some s' =>
      have hless := hturn s s' hnext
      rw [← hbound] at hless
      obtain ⟨t, ht⟩ := ih (measure s') hless s' rfl
      refine ⟨t, ?_⟩
      rw [run_turn hnext]
      exact run_mono hless ht

theorem run_eq_none (inv : σ → Prop) (hturn : ∀ s, inv s → ∃ s', next s = some s' ∧ inv s')
    {s : σ} (hs : inv s) (fuel : Nat) : run next fuel s = none := by
  induction fuel generalizing s with
  | zero => rfl
  | succ fuel ih =>
    obtain ⟨s', hnext, hs'⟩ := hturn s hs
    rw [run_turn hnext]
    exact ih hs'

/-- A loop whose turns are those of another one under a map ends where the other one does. -/
theorem run_map {τ : Type*} {next' : τ → Option τ} (view : σ → τ)
    (hturn : ∀ s, next' (view s) = (next s).map view) (fuel : Nat) (s : σ) :
    run next' fuel (view s) = (run next fuel s).map view := by
  induction fuel generalizing s with
  | zero => rfl
  | succ fuel ih =>
    have hview := hturn s
    cases hnext : next s with
    | none =>
      rw [hnext] at hview
      rw [run_done hview, run_done hnext, Option.map_some]
    | some s' =>
      rw [hnext] at hview
      rw [run_turn hview, run_turn hnext, ih]
end Loop
