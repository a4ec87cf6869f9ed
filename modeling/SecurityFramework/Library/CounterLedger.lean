import Mathlib.Order.Basic

/-!
# Ledgers of counters

A counter is kept for every key that can be named, and is lost when the key can no longer be.
-/

namespace CounterLedger
variable {κ ν : Type*} [Preorder ν]

/-- What a ledger keeps to, for the keys that can be named, those seen so far, and the counters. -/
structure Keeps (named seen : κ → Prop) (count : κ → ν) (log : List (κ × ν)) : Prop where
  increasing : log.Pairwise fun later earlier => later.1 = earlier.1 → earlier.2 < later.2
  seen : ∀ entry ∈ log, seen entry.1
  counted : ∀ entry ∈ log, named entry.1 → entry.2 ≤ count entry.1

variable {named seen named' seen' : κ → Prop} {count count' : κ → ν} {log : List (κ × ν)}

theorem keeps_nil : Keeps named seen count [] :=
  ⟨.nil, by simp, by simp⟩

/-- Keys may be given up and new ones taken, if none that was seen gets lower counters. -/
theorem Keeps.mono (h : Keeps named seen count log) (hseen : ∀ k, seen k → seen' k)
    (hnamed : ∀ k, seen k → named' k → named k ∧ count k ≤ count' k) :
    Keeps named' seen' count' log where
  increasing := h.increasing
  seen entry hentry := hseen _ (h.seen entry hentry)
  counted := by
    intro entry hentry hname
    rcases hnamed _ (h.seen entry hentry) hname with ⟨hname', hle⟩
    exact (h.counted entry hentry hname').trans hle

theorem Keeps.record (h : Keeps named seen count log) {k : κ} {c : ν} (hk : named k)
    (hsees : seen k) (hlt : count k < c) (hself : count' k = c)
    (hother : ∀ k', seen k' → named k' → k' ≠ k → count' k' = count k') :
    Keeps named seen count' ((k, c) :: log) where
  increasing := by
    rw [List.pairwise_cons]
    refine ⟨?_, h.increasing⟩
    rintro entry hentry rfl
    exact lt_of_le_of_lt (h.counted entry hentry hk) hlt
  seen := by
    intro entry hentry
    rcases List.mem_cons.mp hentry with rfl | hentry
    · exact hsees
    · exact h.seen entry hentry
  counted := by
    intro entry hentry hname
    rcases List.mem_cons.mp hentry with rfl | hentry
    · exact hself.ge
    · have hle := h.counted entry hentry hname
      by_cases heq : entry.1 = k
      · rw [heq] at hle ⊢
        rw [hself]
        exact hle.trans hlt.le
      · rwa [hother _ (h.seen entry hentry) hname heq]
end CounterLedger
