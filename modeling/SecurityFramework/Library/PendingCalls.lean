import Mathlib.Data.List.Nodup
import Mathlib.Data.List.Pairwise

/-!
# Calls that wait

A register of calls that wait under a key.
-/

/-- A call that was made, with the number it was registered with. -/
structure MadeCall (κ : Type*) where
  key : κ
  number : Nat
  success : Bool
  deriving DecidableEq

structure PendingCalls (κ : Type*) where
  latest : Nat
  waiting : List (κ × Nat)
  made : List (MadeCall κ)
  le_latest : ∀ number ∈ waiting.map Prod.snd ++ made.map MadeCall.number, number ≤ latest
  once : (waiting.map Prod.snd ++ made.map MadeCall.number).Nodup

namespace PendingCalls
variable {κ : Type*}

def start (latest : Nat) : PendingCalls κ where
  latest := latest
  waiting := []
  made := []
  le_latest _ h := absurd h List.not_mem_nil
  once := List.nodup_nil

section
variable (calls : PendingCalls κ)

def advance : PendingCalls κ where
  latest := calls.latest + 1
  waiting := calls.waiting
  made := calls.made
  le_latest number h := Nat.le_succ_of_le (calls.le_latest number h)
  once := calls.once

def forget : PendingCalls κ where
  latest := calls.latest
  waiting := []
  made := calls.made
  le_latest number h := calls.le_latest number (List.mem_append_right _ h)
  once := (List.nodup_append.1 calls.once).2.1

theorem eq_of_waiting {left right : κ × Nat} (hleft : left ∈ calls.waiting)
    (hright : right ∈ calls.waiting) (h : left.2 = right.2) : left = right :=
  List.inj_on_of_nodup_map (List.nodup_append.1 calls.once).1 hleft hright h

theorem waiting_notMem_made {pair : κ × Nat} (h : pair ∈ calls.waiting) :
    pair.2 ∉ calls.made.map MadeCall.number := fun hmade =>
  (List.nodup_append.1 calls.once).2.2 _ (List.mem_map_of_mem h) _ hmade rfl

def callAll (success : Bool) : PendingCalls κ where
  latest := calls.latest
  waiting := []
  made := calls.made ++ calls.waiting.map fun pair => ⟨pair.1, pair.2, success⟩
  le_latest number h := by
    apply calls.le_latest number
    rw [List.map_nil, List.nil_append, List.map_append, List.map_map] at h
    exact List.mem_append.2 (List.mem_append.1 h).symm
  once := by
    rw [List.map_nil, List.nil_append, List.map_append, List.map_map]
    exact List.nodup_append_comm.1 calls.once

variable [DecidableEq κ] (key : κ)

def register : PendingCalls κ where
  latest := calls.latest + 1
  waiting := calls.waiting.filter (fun pair => pair.1 ≠ key) ++ [(key, calls.latest + 1)]
  made := calls.made
  le_latest number h := by
    rw [List.map_append, List.append_assoc, List.mem_append, List.mem_append] at h
    rcases h with h | h | h
    · have hmem := (List.filter_sublist.map Prod.snd).mem h
      exact Nat.le_succ_of_le (calls.le_latest number (List.mem_append_left _ hmem))
    · exact Nat.le_of_eq (List.mem_singleton.1 h)
    · exact Nat.le_succ_of_le (calls.le_latest number (List.mem_append_right _ h))
  once := by
    have hfresh : calls.latest + 1 ∉ (calls.waiting.filter (fun pair => pair.1 ≠ key)).map Prod.snd ++
        calls.made.map MadeCall.number := by
      intro hmem
      have hsub := ((List.filter_sublist.map Prod.snd).append_right
        (calls.made.map MadeCall.number)).mem hmem
      exact absurd (calls.le_latest _ hsub) (Nat.not_succ_le_self _)
    have hold := calls.once.sublist ((List.filter_sublist (p := fun pair => pair.1 ≠ key)
      (l := calls.waiting)).map Prod.snd |>.append_right (calls.made.map MadeCall.number))
    rw [List.map_append, List.append_assoc]
    exact List.nodup_middle.2 (List.nodup_cons.2 ⟨hfresh, hold⟩)

def find : Option (κ × Nat) := calls.waiting.find? fun pair => pair.1 = key

variable {calls key}

theorem mem_of_find {pair : κ × Nat} (h : calls.find key = some pair) :
    pair ∈ calls.waiting ∧ pair.1 = key := by
  unfold find at h
  have hkey := List.find?_some h
  exact ⟨List.mem_of_find?_eq_some h, of_decide_eq_true hkey⟩

theorem find_eq_none : calls.find key = none ↔ ∀ pair ∈ calls.waiting, pair.1 ≠ key := by
  rw [find, List.find?_eq_none]
  simp only [decide_eq_true_eq, ne_eq]

variable (calls key)

def call (success : Bool) : PendingCalls κ :=
  match h : calls.find key with
  | none => calls
  | some pair =>
    { latest := calls.latest
      waiting := calls.waiting.filter fun pair => pair.1 ≠ key
      made := calls.made ++ [⟨pair.1, pair.2, success⟩]
      le_latest := by
        intro number hnumber
        rw [List.map_append, ← List.append_assoc, List.mem_append] at hnumber
        rcases hnumber with hnumber | hnumber
        · exact calls.le_latest number (((List.filter_sublist.map Prod.snd).append_right _).mem
            hnumber)
        · have hpair := List.mem_map_of_mem (f := Prod.snd) (mem_of_find h).1
          rw [List.map_singleton, List.mem_singleton] at hnumber
          rw [hnumber]
          exact calls.le_latest pair.2 (List.mem_append_left _ hpair)
      once := by
        rcases mem_of_find h with ⟨hpair, rfl⟩
        have hold := calls.once.sublist ((List.filter_sublist (p := fun other => other.1 ≠ pair.1)
          (l := calls.waiting)).map Prod.snd |>.append_right (calls.made.map MadeCall.number))
        rw [List.map_append, ← List.append_assoc, List.map_singleton]
        refine List.nodup_append.2 ⟨hold, List.nodup_singleton _, ?_⟩
        intro number hnumber number' hnumber' heq
        rw [List.mem_singleton] at hnumber'
        rw [hnumber'] at heq
        rcases List.mem_append.1 hnumber with hwaits | hmade
        · rcases List.mem_map.1 hwaits with ⟨other, hother, hsame⟩
          rcases List.mem_filter.1 hother with ⟨hmem, hkey⟩
          have hpairs := calls.eq_of_waiting hmem hpair (hsame.trans heq)
          exact of_decide_eq_true hkey (congrArg Prod.fst hpairs)
        · rw [heq] at hmade
          exact calls.waiting_notMem_made hpair hmade }
end

section
variable [DecidableEq κ] {calls : PendingCalls κ} {key : κ} {success : Bool}

theorem mem_waiting_register {pair : κ × Nat} :
    pair ∈ (calls.register key).waiting ↔
      pair ∈ calls.waiting ∧ pair.1 ≠ key ∨ pair = (key, calls.latest + 1) := by
  change pair ∈ calls.waiting.filter (fun pair => pair.1 ≠ key) ++ [_] ↔ _
  rw [List.mem_append, List.mem_filter, List.mem_singleton, decide_eq_true_eq]

omit [DecidableEq κ] in
theorem mem_made_callAll {made : MadeCall κ} (h : made ∈ (calls.callAll success).made) :
    made ∈ calls.made ∨ made.success = success := by
  rcases List.mem_append.1 h with hmem | hmem
  · exact .inl hmem
  · rcases List.mem_map.1 hmem with ⟨pair, -, rfl⟩
    exact .inr rfl

theorem waiting_of_mem_call {pair : κ × Nat} (h : pair ∈ (calls.call key success).waiting) :
    pair ∈ calls.waiting ∧ pair.1 ≠ key := by
  unfold call at h
  split at h
  · rename_i hnone
    exact ⟨h, find_eq_none.1 hnone pair h⟩
  · rcases List.mem_filter.1 h with ⟨hmem, hkey⟩
    exact ⟨hmem, of_decide_eq_true hkey⟩

theorem mem_made_call {made : MadeCall κ} (h : made ∈ (calls.call key success).made) :
    made ∈ calls.made ∨
      made.key = key ∧ made.success = success ∧ (key, made.number) ∈ calls.waiting := by
  unfold call at h
  split at h
  · exact .inl h
  · rename_i pair hfind
    rcases mem_of_find hfind with ⟨hpair, rfl⟩
    rcases List.mem_append.1 h with hmem | hmem
    · exact .inl hmem
    · rw [List.mem_singleton] at hmem
      subst hmem
      exact .inr ⟨rfl, rfl, hpair⟩
end
end PendingCalls
