import Mathlib.Data.List.GetD
import SecurityFramework.Library.Memory

/-!
# Files that are written in pieces

A file gives an octet for each position, whether it has been written or not.
-/

namespace Memory
abbrev FileImage := Nat → UInt8

namespace FileImage
def write (file : FileImage) (offset : Nat) (octets : List UInt8) : FileImage := fun i =>
  if offset ≤ i ∧ i < offset + octets.length then octets.getD (i - offset) 0 else file i

def read (file : FileImage) (offset len : Nat) : List UInt8 :=
  (List.range len).map fun i => file (offset + i)

def Holds (file : FileImage) (offset : Nat) (octets : List UInt8) : Prop :=
  ∀ i, i < octets.length → file (offset + i) = octets.getD i 0

variable {file : FileImage} {offset : Nat} {octets octets' : List UInt8}

@[simp] theorem length_read (file : FileImage) (offset len : Nat) :
    (file.read offset len).length = len := by
  simp [read]

theorem holds_nil : file.Holds offset [] := fun _ hi => absurd hi (Nat.not_lt_zero _)

theorem holds_write : (file.write offset octets).Holds offset octets := by
  intro i hi
  have hin : offset ≤ offset + i ∧ offset + i < offset + octets.length := by omega
  rw [write, if_pos hin, Nat.add_sub_cancel_left]

theorem Holds.write_of_disjoint (hholds : file.Holds offset octets) {offset' : Nat}
    (hdisjoint : offset + octets.length ≤ offset' ∨ offset' + octets'.length ≤ offset) :
    (file.write offset' octets').Holds offset octets := by
  intro i hi
  have hout : ¬(offset' ≤ offset + i ∧ offset + i < offset' + octets'.length) := by omega
  rw [write, if_neg hout]
  exact hholds i hi

theorem holds_append :
    file.Holds offset (octets ++ octets') ↔
      file.Holds offset octets ∧ file.Holds (offset + octets.length) octets' := by
  constructor
  · intro hholds
    constructor
    · intro i hi
      have hboth := hholds i (by rw [List.length_append]; omega)
      rwa [List.getD_append _ _ _ _ hi] at hboth
    · intro i hi
      have hboth := hholds (octets.length + i) (by rw [List.length_append]; omega)
      rw [List.getD_append_right _ _ _ _ (Nat.le_add_right _ _), Nat.add_sub_cancel_left,
        ← Nat.add_assoc] at hboth
      exact hboth
  · intro hboth i hi
    rw [List.length_append] at hi
    by_cases hlt : i < octets.length
    · rw [List.getD_append _ _ _ _ hlt]
      exact hboth.1 i hlt
    · rw [List.getD_append_right _ _ _ _ (by omega)]
      have hright := hboth.2 (i - octets.length) (by omega)
      rwa [show offset + octets.length + (i - octets.length) = offset + i by omega] at hright

theorem load_read {start len : Nat} (hholds : file.Holds (start + offset) octets)
    (hle : offset + octets.length ≤ len) :
    load (file.read start len) offset octets.length = some octets := by
  rw [load, if_pos (by rw [length_read]; exact hle)]
  congr 1
  apply List.ext_getElem
  · rw [List.length_take, List.length_drop, length_read]
    omega
  · intro i hi hi'
    have hvalue := hholds i hi'
    rw [List.getD_eq_getElem _ _ hi', Nat.add_assoc] at hvalue
    rw [List.getElem_take, List.getElem_drop, ← hvalue]
    simp [read]

theorem load_read_zero {start len : Nat} (hholds : file.Holds start octets)
    (hle : octets.length ≤ len) :
    load (file.read start len) 0 octets.length = some octets :=
  load_read hholds (by omega)
end FileImage
end Memory
