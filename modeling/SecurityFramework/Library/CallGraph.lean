import Mathlib.Data.Set.Finite.Basic

/-!
# Call graphs

A call makes finitely many other calls.
-/

namespace SecurityFramework.Library
open Relation

variable {α : Type*} (calls : α → List α)

/-- The call ends, and no more than so many calls are open at any time. -/
def HaltsWithin : Nat → α → Prop
  | 0, _ => False
  | depth + 1, call => ∀ called ∈ calls call, HaltsWithin depth called

def LeadsTo (call called : α) : Prop := called ∈ calls call

variable {calls} {call : α}

theorem HaltsWithin.mono {depth depth' : Nat} (hle : depth ≤ depth')
    (h : HaltsWithin calls depth call) : HaltsWithin calls depth' call := by
  induction depth generalizing depth' call with
  | zero => exact h.elim
  | succ depth ih =>
    cases depth' with
    | zero => exact absurd hle (Nat.not_succ_le_zero depth)
    | succ depth' => exact fun called hcalled => ih (Nat.le_of_succ_le_succ hle) (h called hcalled)

theorem exists_common_depth {called : List α}
    (h : ∀ call ∈ called, ∃ depth, HaltsWithin calls depth call) :
    ∃ depth, ∀ call ∈ called, HaltsWithin calls depth call := by
  induction called with
  | nil => exact ⟨0, fun _ hcall => absurd hcall List.not_mem_nil⟩
  | cons first rest ih =>
    rcases List.forall_mem_cons.mp h with ⟨⟨depth, hfirst⟩, hrest⟩
    rcases ih hrest with ⟨depth', hrest'⟩
    refine ⟨max depth depth', List.forall_mem_cons.mpr ⟨hfirst.mono (le_max_left _ _), ?_⟩⟩
    exact fun call hcall => (hrest' call hcall).mono (le_max_right _ _)

theorem exists_haltsWithin_iff_acc :
    (∃ depth, HaltsWithin calls depth call) ↔
      Acc (fun called call => LeadsTo calls call called) call := by
  constructor
  · rintro ⟨depth, h⟩
    induction depth generalizing call with
    | zero => exact h.elim
    | succ depth ih => exact Acc.intro call fun called hcalled => ih (h called hcalled)
  · intro h
    induction h with
    | intro call _ ih =>
      rcases exists_common_depth ih with ⟨depth, hdepth⟩
      exact ⟨depth + 1, hdepth⟩

theorem not_transGen_of_acc {called : α}
    (h : Acc (fun called call => LeadsTo calls call called) call)
    (hreach : ReflTransGen (LeadsTo calls) call called) :
    ¬ TransGen (LeadsTo calls) called called := by
  have hcalled : Acc (fun called call => LeadsTo calls call called) called := by
    induction hreach with
    | refl => exact h
    | tail _ hstep ih => exact ih.inv hstep
  intro hcycle
  have hswap : TransGen (fun called call => LeadsTo calls call called) called called :=
    transGen_swap.mpr hcycle
  have hirrefl : ∀ a, Acc (TransGen fun called call => LeadsTo calls call called) a →
      ¬ TransGen (fun called call => LeadsTo calls call called) a a := by
    intro a ha
    induction ha with
    | intro a _ ih => exact fun hself => ih a hself hself
  exact hirrefl called hcalled.transGen hswap

/-- Where only finitely many calls are reached a call ends unless it leads into a cycle. -/
theorem exists_haltsWithin_iff_acyclic
    (hfinite : {called | ReflTransGen (LeadsTo calls) call called}.Finite) :
    (∃ depth, HaltsWithin calls depth call) ↔
      ∀ called, ReflTransGen (LeadsTo calls) call called →
        ¬ TransGen (LeadsTo calls) called called := by
  rw [exists_haltsWithin_iff_acc]
  constructor
  · exact fun h called => not_transGen_of_acc h
  · intro hacyclic
    have := hfinite.to_subtype
    let below := fun called call : {called | ReflTransGen (LeadsTo calls) call called} =>
      TransGen (LeadsTo calls) call.1 called.1
    have : IsTrans _ below := ⟨fun _ _ _ h h' => h'.trans h⟩
    have : Std.Irrefl below := ⟨fun called => hacyclic called.1 called.2⟩
    have hacc := (Finite.wellFounded_of_trans_of_irrefl below).apply ⟨call, ReflTransGen.refl⟩
    generalize hstart : (⟨call, ReflTransGen.refl⟩ :
      {called | ReflTransGen (LeadsTo calls) call called}) = start at hacc
    have hresult : ∀ reached, Acc below reached →
        Acc (fun called call => LeadsTo calls call called) reached.1 := by
      intro reached hreached
      induction hreached with
      | intro reached _ ih =>
        refine Acc.intro _ fun called hcalled => ?_
        exact ih ⟨called, reached.2.tail hcalled⟩ (TransGen.single hcalled)
    have hcall := hresult start hacc
    rwa [← hstart] at hcall
end SecurityFramework.Library
