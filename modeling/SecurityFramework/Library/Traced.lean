import Mathlib.Init

/-!
# Computations that write down what they do

A traced computation has the list of what it did on the way and, unless it was stopped, a value.
-/

structure Traced (ε α : Type) where
  events : List ε
  value : Option α

namespace Traced
variable {ε α β : Type}

instance : Monad (Traced ε) where
  pure a := ⟨[], some a⟩
  bind t f := match t.value with
    | none => ⟨t.events, none⟩
    | some a => ⟨t.events ++ (f a).events, (f a).value⟩

def emit (e : ε) : Traced ε Unit := ⟨[e], some ()⟩

def stop : Traced ε α := ⟨[], none⟩

def Only (P : ε → Prop) (t : Traced ε α) : Prop := ∀ e ∈ t.events, P e

variable {P : ε → Prop}

@[simp] theorem value_pure (a : α) : (pure a : Traced ε α).value = some a := rfl

@[simp] theorem value_emit (e : ε) : (emit e).value = some () := rfl

@[simp] theorem value_stop : (stop : Traced ε α).value = none := rfl

@[simp] theorem only_pure (a : α) : Only P (pure a : Traced ε α) := by
  intro e he
  cases he

@[simp] theorem only_stop : Only P (stop : Traced ε α) := by
  intro e he
  cases he

@[simp] theorem only_emit {e : ε} : Only P (emit e) ↔ P e := List.forall_mem_singleton

theorem value_bind (t : Traced ε α) (f : α → Traced ε β) :
    (t >>= f).value = t.value.bind fun a => (f a).value := by
  change (match t.value with
    | none => (⟨t.events, none⟩ : Traced ε β)
    | some a => ⟨t.events ++ (f a).events, (f a).value⟩).value = _
  cases t.value <;> rfl

variable {f : α → Traced ε β}

theorem only_bind {t : Traced ε α} :
    Only P (t >>= f) ↔ Only P t ∧ ∀ a, t.value = some a → Only P (f a) := by
  change (∀ e ∈ (match t.value with
    | none => (⟨t.events, none⟩ : Traced ε β)
    | some a => ⟨t.events ++ (f a).events, (f a).value⟩).events, P e) ↔ _
  cases t.value with
  | none => simp [Only]
  | some a => simp [Only, or_imp, forall_and]

theorem only_emit_bind {e : ε} {f : Unit → Traced ε β} :
    Only P (emit e >>= f) ↔ P e ∧ Only P (f ()) := by
  rw [only_bind, only_emit]
  exact and_congr_right fun _ => ⟨fun h => h () rfl, fun h _ _ => h⟩

theorem only_pure_bind {a : α} :
    Only P ((pure a : Traced ε α) >>= f) ↔ Only P (f a) := by
  rw [only_bind]
  simp only [only_pure, true_and, value_pure, Option.some.injEq, forall_eq']

def Yields (P : ε → Prop) (t : Traced ε α) (a : α) : Prop := t.value = some a ∧ Only P t

theorem yields_pure (a : α) : Yields P (pure a : Traced ε α) a := ⟨rfl, only_pure a⟩

theorem yields_emit {e : ε} (he : P e) : Yields P (emit e) () := ⟨rfl, only_emit.mpr he⟩

theorem Yields.bind {t : Traced ε α} {a : α} {b : β} (ht : Yields P t a) (hf : Yields P (f a) b) :
    Yields P (t >>= f) b := by
  obtain ⟨hvalue, honly⟩ := ht
  constructor
  · rw [value_bind, hvalue]
    exact hf.1
  · rw [only_bind]
    refine ⟨honly, ?_⟩
    intro a' ha'
    cases hvalue.symm.trans ha'
    exact hf.2
end Traced
