import Mathlib.Data.List.Basic
import Mathlib.Tactic.Ring

/-!
# Regions of octets

A region is the list of its octets, and a pointer into it is the region from there on. Loads and
stores that leave the region fail. Numbers are big-endian.
-/

namespace Memory
/-- The `width` big-endian octets of `value`; higher bits are dropped. -/
def toBE : Nat → Nat → List UInt8
  | 0, _ => []
  | width + 1, value => UInt8.ofNat (value / 256 ^ width) :: toBE width value

def ofBE (bytes : List UInt8) : Nat :=
  bytes.foldl (fun value b => value * 256 + b.toNat) 0

def load (region : List UInt8) (offset len : Nat) : Option (List UInt8) :=
  if offset + len ≤ region.length then some ((region.drop offset).take len) else none

def store (region : List UInt8) (offset : Nat) (bytes : List UInt8) : Option (List UInt8) :=
  if offset + bytes.length ≤ region.length then
    some (region.take offset ++ (bytes ++ region.drop (offset + bytes.length)))
  else
    none

def loadBE (region : List UInt8) (offset width : Nat) : Option Nat :=
  (load region offset width).map ofBE

def storeBE (region : List UInt8) (offset width value : Nat) : Option (List UInt8) :=
  store region offset (toBE width value)

/-- An allocator, which says nothing of what a new region holds. -/
structure Heap where
  malloc : Nat → List UInt8
  length_malloc : ∀ size, (malloc size).length = size

@[simp] theorem length_toBE (width value : Nat) : (toBE width value).length = width := by
  induction width with
  | zero => rfl
  | succ width ih => simp [toBE, ih]

private theorem foldl_toBE (width value start : Nat) :
    (toBE width value).foldl (fun value b => value * 256 + b.toNat) start =
      start * 256 ^ width + value % 256 ^ width := by
  induction width generalizing start with
  | zero => simp [toBE, Nat.mod_one]
  | succ width ih =>
    have hoctet : (UInt8.ofNat (value / 256 ^ width)).toNat = value / 256 ^ width % 256 := by
      simp
    have hmod := Nat.mod_mul (x := value) (a := 256 ^ width) (b := 256)
    rw [toBE, List.foldl_cons, ih, hoctet, pow_succ, hmod]
    ring

theorem ofBE_toBE (width value : Nat) : ofBE (toBE width value) = value % 256 ^ width := by
  rw [ofBE, foldl_toBE, Nat.zero_mul, Nat.zero_add]

variable {width len offset : Nat} {bytes region : List UInt8}

theorem ofBE_toBE_of_lt {value : Nat} (hlt : value < 256 ^ width) :
    ofBE (toBE width value) = value := by
  rw [ofBE_toBE, Nat.mod_eq_of_lt hlt]

private theorem foldl_lt (bytes : List UInt8) (start : Nat) :
    bytes.foldl (fun value b => value * 256 + b.toNat) start <
      (start + 1) * 256 ^ bytes.length := by
  induction bytes generalizing start with
  | nil => simp
  | cons b bytes ih =>
    have hb : b.toNat < 256 := b.toNat_lt
    have hpow : (start * 256 + b.toNat + 1) * 256 ^ bytes.length ≤
        ((start + 1) * 256) * 256 ^ bytes.length := Nat.mul_le_mul_right _ (by omega)
    have htail := ih (start * 256 + b.toNat)
    rw [List.foldl_cons, List.length_cons, pow_succ]
    calc _ < (start * 256 + b.toNat + 1) * 256 ^ bytes.length := htail
      _ ≤ ((start + 1) * 256) * 256 ^ bytes.length := hpow
      _ = (start + 1) * (256 ^ bytes.length * 256) := by ring

theorem ofBE_lt (bytes : List UInt8) : ofBE bytes < 256 ^ bytes.length := by
  simpa [ofBE] using foldl_lt bytes 0

theorem load_eq_some_iff :
    load region offset len = some bytes ↔
      offset + len ≤ region.length ∧ bytes = (region.drop offset).take len := by
  unfold load
  split
  · rename_i h
    simp [h, eq_comm]
  · rename_i h
    simp [h]

theorem load_isSome_iff :
    (load region offset len).isSome ↔ offset + len ≤ region.length := by
  unfold load
  split <;> simp_all

theorem length_of_load (h : load region offset len = some bytes) : bytes.length = len := by
  obtain ⟨hle, rfl⟩ := load_eq_some_iff.mp h
  simp only [List.length_take, List.length_drop]
  omega

theorem load_all (region : List UInt8) : load region 0 region.length = some region := by
  simp [load]

theorem load_drop (region : List UInt8) (start offset len : Nat)
    (hstart : start ≤ region.length) :
    load (region.drop start) offset len = load region (start + offset) len := by
  simp only [load, List.length_drop, List.drop_drop]
  congr 1
  rw [eq_iff_iff]
  omega

theorem load_of_load {offset' len' : Nat} (h : load region offset len = some bytes)
    (hle : offset' + len' ≤ len) :
    load bytes offset' len' = load region (offset + offset') len' := by
  have hlength := length_of_load h
  obtain ⟨hregion, rfl⟩ := load_eq_some_iff.mp h
  have hin : offset + offset' + len' ≤ region.length := by omega
  rw [load, if_pos (by omega), load, if_pos hin, List.drop_take, List.take_take,
    List.drop_drop, Nat.min_eq_left (by omega)]

theorem load_append {first rest : List UInt8} (h : load region offset len = some (first ++ rest)) :
    load region offset first.length = some first ∧
      load region (offset + first.length) rest.length = some rest := by
  have hlen := length_of_load h
  rw [List.length_append] at hlen
  have hfirst := load_of_load h (show 0 + first.length ≤ len by omega)
  have hrest := load_of_load h (show first.length + rest.length ≤ len by omega)
  rw [Nat.add_zero] at hfirst
  constructor
  · rw [← hfirst, load, if_pos (by simp), List.drop_zero, List.take_left]
  · rw [← hrest, load, if_pos (by simp), List.drop_left, List.take_length]

theorem load_concat {first rest : List UInt8} {len' : Nat}
    (hfirst : load region offset len = some first)
    (hrest : load region (offset + len) len' = some rest) :
    load region offset (len + len') = some (first ++ rest) := by
  obtain ⟨-, rfl⟩ := load_eq_some_iff.mp hfirst
  obtain ⟨hle, rfl⟩ := load_eq_some_iff.mp hrest
  rw [load, if_pos (by omega), List.take_add, List.drop_drop]

theorem loadBE_of_load_toBE {value : Nat} (h : load region offset width = some (toBE width value)) :
    loadBE region offset width = some (value % 256 ^ width) := by
  rw [loadBE, h, Option.map_some, ofBE_toBE]

theorem loadBE_isSome_iff :
    (loadBE region offset width).isSome ↔ offset + width ≤ region.length := by
  rw [loadBE, Option.isSome_map, load_isSome_iff]

theorem loadBE_lt {value : Nat} (h : loadBE region offset width = some value) :
    value < 256 ^ width := by
  obtain ⟨bytes, hload, rfl⟩ := Option.map_eq_some_iff.mp h
  have hlt := ofBE_lt bytes
  rwa [length_of_load hload] at hlt

theorem le_of_loadBE {value : Nat} (h : loadBE region offset width = some value) :
    offset + width ≤ region.length :=
  loadBE_isSome_iff.mp (by simp [h])

theorem exists_loadBE (h : offset + width ≤ region.length) :
    ∃ value, loadBE region offset width = some value :=
  Option.isSome_iff_exists.mp (loadBE_isSome_iff.mpr h)

theorem loadBE_drop (region : List UInt8) (start offset width : Nat)
    (hstart : start ≤ region.length) :
    loadBE (region.drop start) offset width = loadBE region (start + offset) width := by
  rw [loadBE, loadBE, load_drop region start offset width hstart]

theorem loadBE_of_load {offset' : Nat} (h : load region offset len = some bytes)
    (hle : offset' + width ≤ len) :
    loadBE bytes offset' width = loadBE region (offset + offset') width := by
  rw [loadBE, loadBE, load_of_load h hle]

theorem load_replicate {size : Nat} {octet : UInt8} (h : offset + len ≤ size) :
    load (List.replicate size octet) offset len = some (List.replicate len octet) := by
  rw [load, if_pos (by simpa using h), List.drop_replicate, List.take_replicate,
    Nat.min_eq_left (by omega)]

theorem ofBE_replicate_zero (width : Nat) : ofBE (List.replicate width 0) = 0 := by
  have hfold : ∀ value, (List.replicate width (0 : UInt8)).foldl
      (fun value b => value * 256 + b.toNat) value = value * 256 ^ width := by
    induction width with
    | zero => simp
    | succ width ih =>
      intro value
      rw [List.replicate_succ, List.foldl_cons, ih, pow_succ]
      simp [Nat.mul_assoc, Nat.mul_comm]
  rw [ofBE, hfold, Nat.zero_mul]

theorem loadBE_replicate_zero {size : Nat} (h : offset + width ≤ size) :
    loadBE (List.replicate size 0) offset width = some 0 := by
  rw [loadBE, load_replicate h, Option.map_some, ofBE_replicate_zero]

section Store

variable {region region' bytes : List UInt8} {offset : Nat}

theorem store_eq_some_iff :
    store region offset bytes = some region' ↔
      offset + bytes.length ≤ region.length ∧
        region' = region.take offset ++ (bytes ++ region.drop (offset + bytes.length)) := by
  unfold store
  split
  · rename_i h
    simp [h, eq_comm]
  · rename_i h
    simp [h]

theorem le_of_store (h : store region offset bytes = some region') :
    offset + bytes.length ≤ region.length := (store_eq_some_iff.mp h).1

theorem exists_store (region : List UInt8) (offset : Nat) (bytes : List UInt8)
    (h : offset + bytes.length ≤ region.length) :
    ∃ region', store region offset bytes = some region' :=
  ⟨_, store_eq_some_iff.mpr ⟨h, rfl⟩⟩

theorem length_of_store (h : store region offset bytes = some region') :
    region'.length = region.length := by
  obtain ⟨hle, rfl⟩ := store_eq_some_iff.mp h
  simp only [List.length_append, List.length_take, List.length_drop]
  omega

theorem store_append (front tail bytes : List UInt8) (h : bytes.length ≤ tail.length) :
    store (front ++ tail) front.length bytes =
      some (front ++ (bytes ++ tail.drop bytes.length)) := by
  have hle : front.length + bytes.length ≤ (front ++ tail).length := by
    rw [List.length_append]
    omega
  rw [store_eq_some_iff]
  refine ⟨hle, ?_⟩
  rw [List.take_left, ← List.drop_drop, List.drop_left]

theorem load_append_right (front tail : List UInt8) {len : Nat} (h : len ≤ tail.length) :
    load (front ++ tail) front.length len = some (tail.take len) := by
  have hle : front.length + len ≤ (front ++ tail).length := by
    rw [List.length_append]
    omega
  rw [load_eq_some_iff]
  refine ⟨hle, ?_⟩
  rw [List.drop_left]

theorem load_store_same (h : store region offset bytes = some region') :
    load region' offset bytes.length = some bytes := by
  have hlength := length_of_store h
  obtain ⟨hle, rfl⟩ := store_eq_some_iff.mp h
  have htake : (region.take offset).length = offset := by
    rw [List.length_take]
    omega
  rw [load, if_pos (by omega), List.drop_left' htake, List.take_left]

theorem load_store_of_disjoint {offset' len : Nat}
    (h : store region offset bytes = some region')
    (hdisjoint : offset' + len ≤ offset ∨ offset + bytes.length ≤ offset') :
    load region' offset' len = load region offset' len := by
  have hlength := length_of_store h
  obtain ⟨hle, heq⟩ := store_eq_some_iff.mp h
  have htake : (region.take offset).length = offset := by
    rw [List.length_take]
    omega
  rw [load, load, hlength]
  split
  · congr 1
    rcases hdisjoint with hbefore | hafter
    · rw [heq, List.drop_append_of_le_length (by omega),
        List.take_append_of_le_length (by rw [List.length_drop]; omega), List.drop_take,
        List.take_take, Nat.min_eq_left (by omega)]
    · obtain ⟨k, rfl⟩ := Nat.exists_eq_add_of_le hafter
      have hfront : (region.take offset ++ bytes).length = offset + bytes.length := by
        rw [List.length_append, htake]
      rw [heq, ← List.append_assoc, ← List.drop_drop, List.drop_left' hfront, List.drop_drop]
  · rfl

variable {width : Nat}

theorem loadBE_congr (h : load region' offset width = load region offset width) :
    loadBE region' offset width = loadBE region offset width := by
  rw [loadBE, loadBE, h]

theorem loadBE_storeBE_same {value : Nat} (h : storeBE region offset width value = some region') :
    loadBE region' offset width = some (value % 256 ^ width) := by
  have hload := load_store_same h
  rw [length_toBE] at hload
  rw [loadBE, hload, Option.map_some, ofBE_toBE]

theorem load_storeBE_of_disjoint {value offset' len : Nat}
    (h : storeBE region offset width value = some region')
    (hdisjoint : offset' + len ≤ offset ∨ offset + width ≤ offset') :
    load region' offset' len = load region offset' len :=
  load_store_of_disjoint h (by simpa using hdisjoint)

theorem le_of_storeBE {value : Nat} (h : storeBE region offset width value = some region') :
    offset + width ≤ region.length := by
  simpa using le_of_store h

theorem exists_storeBE (region : List UInt8) (offset width value : Nat)
    (h : offset + width ≤ region.length) :
    ∃ region', storeBE region offset width value = some region' :=
  exists_store region offset (toBE width value) (by simpa using h)

theorem length_of_storeBE {value : Nat} (h : storeBE region offset width value = some region') :
    region'.length = region.length := length_of_store h
end Store

abbrev Write := Nat × List UInt8

def storeAll : List UInt8 → List Write → Option (List UInt8)
  | region, [] => some region
  | region, write :: writes => do
    storeAll (← store region write.1 write.2) writes

def Write.Avoids (write : Write) (offset len : Nat) : Prop :=
  offset + len ≤ write.1 ∨ write.1 + write.2.length ≤ offset

def Write.Apart (write other : Write) : Prop :=
  write.1 + write.2.length ≤ other.1 ∨ other.1 + other.2.length ≤ write.1

section StoreAll

variable {region region' : List UInt8} {writes : List Write}

theorem exists_storeAll (region : List UInt8) (writes : List Write)
    (h : ∀ write ∈ writes, write.1 + write.2.length ≤ region.length) :
    ∃ region', storeAll region writes = some region' := by
  induction writes generalizing region with
  | nil => exact ⟨region, rfl⟩
  | cons write writes ih =>
    obtain ⟨next, hnext⟩ := exists_store region write.1 write.2 (h write (List.mem_cons_self ..))
    have hlen := length_of_store hnext
    obtain ⟨region', hrest⟩ := ih next fun write hwrite => by
      rw [hlen]
      exact h write (List.mem_cons_of_mem _ hwrite)
    refine ⟨region', ?_⟩
    rw [storeAll, hnext, Option.bind_eq_bind, Option.bind_some, hrest]

theorem storeAll_cons_eq_some {write : Write} (h : storeAll region (write :: writes) = some region') :
    ∃ next, store region write.1 write.2 = some next ∧ storeAll next writes = some region' :=
  Option.bind_eq_some_iff.mp h

theorem length_of_storeAll (h : storeAll region writes = some region') :
    region'.length = region.length := by
  induction writes generalizing region with
  | nil =>
    cases h
    rfl
  | cons write writes ih =>
    obtain ⟨next, hnext, hrest⟩ := storeAll_cons_eq_some h
    rw [ih hrest, length_of_store hnext]

theorem load_storeAll_of_avoids {offset len : Nat} (h : storeAll region writes = some region')
    (havoids : ∀ write ∈ writes, write.Avoids offset len) :
    load region' offset len = load region offset len := by
  induction writes generalizing region with
  | nil =>
    cases h
    rfl
  | cons write writes ih =>
    obtain ⟨next, hnext, hrest⟩ := storeAll_cons_eq_some h
    rw [ih hrest fun write hwrite => havoids write (List.mem_cons_of_mem _ hwrite),
      load_store_of_disjoint hnext (havoids write (List.mem_cons_self ..))]

theorem load_storeAll_of_mem {write : Write} (h : storeAll region writes = some region')
    (hapart : writes.Pairwise Write.Apart) (hmem : write ∈ writes) :
    load region' write.1 write.2.length = some write.2 := by
  induction writes generalizing region with
  | nil => simp at hmem
  | cons first writes ih =>
    obtain ⟨hfirst, hrest⟩ := List.pairwise_cons.mp hapart
    obtain ⟨next, hnext, hstores⟩ := storeAll_cons_eq_some h
    rcases List.mem_cons.mp hmem with rfl | hmem
    · rw [load_storeAll_of_avoids hstores, load_store_same hnext]
      intro other hother
      exact hfirst other hother
    · exact ih hstores hrest hmem

theorem loadBE_storeAll_of_mem {offset width value : Nat}
    (h : storeAll region writes = some region') (hapart : writes.Pairwise Write.Apart)
    (hmem : (offset, toBE width value) ∈ writes) :
    loadBE region' offset width = some (value % 256 ^ width) := by
  have hload := load_storeAll_of_mem h hapart hmem
  rw [length_toBE] at hload
  rw [loadBE, hload, Option.map_some, ofBE_toBE]
end StoreAll
end Memory

namespace Memory
structure Cursor where
  memory : Nat → UInt8
  size : Nat

namespace Cursor
/-- Pointer to the start of a buffer, with the memory that follows it. -/
def ofBytes (bytes : List UInt8) (beyond : Nat → UInt8) : Cursor where
  memory i := bytes[i]?.getD (beyond (i - bytes.length))
  size := bytes.length

def peek (c : Cursor) (n : Nat) : List UInt8 := (List.range n).map c.memory

def skip (c : Cursor) (n : Nat) : Cursor := ⟨fun i => c.memory (n + i), c.size - n⟩

/-- Advance without a check; a size of 64 bits wraps around. -/
def skipUnchecked (c : Cursor) (n : Nat) : Cursor :=
  ⟨fun i => c.memory (n + i), if n ≤ c.size then c.size - n else 2 ^ 64 + c.size - n⟩

def readBE (width : Nat) (c : Cursor) : Option (Nat × Cursor) :=
  if width ≤ c.size then some (ofBE (c.peek width), c.skip width) else none

@[simp] theorem size_ofBytes (bytes : List UInt8) (beyond : Nat → UInt8) :
    (ofBytes bytes beyond).size = bytes.length := rfl

@[simp] theorem size_skip (c : Cursor) (n : Nat) : (c.skip n).size = c.size - n := rfl

@[simp] theorem length_peek (c : Cursor) (n : Nat) : (c.peek n).length = n := by
  simp [peek]

theorem peek_ofBytes_append (first rest : List UInt8) (beyond : Nat → UInt8) :
    (ofBytes (first ++ rest) beyond).peek first.length = first := by
  apply List.ext_getElem
  · simp
  · intro i hi hfirst
    simp [peek, ofBytes, List.getElem?_append_left hfirst, List.getElem?_eq_getElem hfirst]

theorem skip_ofBytes_append (first rest : List UInt8) (beyond : Nat → UInt8) :
    (ofBytes (first ++ rest) beyond).skip first.length = ofBytes rest beyond := by
  simp only [skip, ofBytes, List.length_append, Nat.add_sub_cancel_left, mk.injEq, and_true]
  funext i
  rw [List.getElem?_append_right (Nat.le_add_right _ _), Nat.add_sub_cancel_left,
    Nat.add_sub_add_left]

theorem readBE_ofBytes_append {width value : Nat} (rest : List UInt8) (beyond : Nat → UInt8)
    (hlt : value < 256 ^ width) :
    readBE width (ofBytes (toBE width value ++ rest) beyond) =
      some (value, ofBytes rest beyond) := by
  have hpeek := peek_ofBytes_append (toBE width value) rest beyond
  have hskip := skip_ofBytes_append (toBE width value) rest beyond
  rw [length_toBE] at hpeek hskip
  rw [readBE, if_pos (by simp), hpeek, hskip, ofBE_toBE_of_lt hlt]
end Cursor
end Memory
