import SecurityFramework.Filedb.Table

/-! # Writing the section of a table -/

namespace SecurityFramework.Filedb
open Memory

def WriteSection.putOctets (region : List UInt8) (offset : Nat) (octets : List UInt8) :
    Except CssmError (List UInt8) :=
  if 2 ^ 32 ≤ offset + octets.length then .error .databaseCorrupt
  else
    let grown := region ++ List.replicate (offset + octets.length - region.length) 0
    match store grown offset octets with
    | some region => .ok region
    | none => .error .databaseCorrupt

def WriteSection.put (region : List UInt8) (offset value : Nat) : Except CssmError (List UInt8) :=
  WriteSection.putOctets region offset (toBE 4 value)

/-- The part of `writeTable` that makes the free list, for some numbers from one on. What is
returned is the section and the head of the list. -/
def buildFreeList : Nat → Nat → List UInt8 → Nat → Except CssmError (List UInt8 × Nat)
  | 0, _, region, freeListHead => .ok (region, freeListHead)
  | rest + 1, recordNumber, region, freeListHead => do
    let offset := (Table.offsetRecordNumbers + 4 * recordNumber) % 2 ^ 32
    -- the free list is made of all numbers with the offset 0
    if (← ReadSection.at region offset) = 0 then
      let region ← WriteSection.put region offset freeListHead
      buildFreeList rest (recordNumber + 1) region (offset ||| 1)
    else buildFreeList rest (recordNumber + 1) region freeListHead

structure IsAtoms (region : List UInt8) (count : Nat) (atoms : Nat → Nat) : Prop where
  length : 4 * count ≤ region.length
  loadBE_eq : ∀ i < count, loadBE region (4 * i) 4 = some (atoms i)

namespace IsAtoms
variable {region : List UInt8} {count : Nat} {atoms : Nat → Nat}

theorem zero (count : Nat) : IsAtoms (List.replicate (4 * count) 0) count fun _ => 0 where
  length := Nat.le_of_eq List.length_replicate.symm
  loadBE_eq := fun i hi => loadBE_replicate_zero (by omega)

theorem at_eq_ok (hatoms : IsAtoms region count atoms) {i : Nat} (hi : i < count)
    (hlt : 4 * count < 2 ^ 32) : ReadSection.at region (4 * i) = .ok (atoms i) :=
  ReadSection.at_eq_ok (by omega) (hatoms.loadBE_eq i hi)

theorem put_eq_ok (hatoms : IsAtoms region count atoms) (i value : Nat) (hi : i < count)
    (hlt : 4 * count < 2 ^ 32) (hvalue : value < 2 ^ 32) :
    ∃ region', WriteSection.put region (4 * i) value = .ok region' ∧
      IsAtoms region' count (Function.update atoms i value) := by
  have hle : 4 * i + 4 ≤ region.length := by
    have hlength := hatoms.length
    omega
  obtain ⟨region', hstore⟩ := exists_storeBE region (4 * i) 4 value hle
  refine ⟨region', ?_, ?_⟩
  · rw [WriteSection.put, WriteSection.putOctets, length_toBE, if_neg (by omega),
      Nat.sub_eq_zero_of_le hle]
    rw [storeBE] at hstore
    simp only [List.replicate_zero, List.append_nil, hstore]
  · constructor
    · rw [length_of_storeBE hstore]
      exact hatoms.length
    · intro j hj
      by_cases heq : j = i
      · subst heq
        rw [Function.update_self, loadBE_storeBE_same hstore]
        exact congrArg some (Nat.mod_eq_of_lt hvalue)
      · rw [Function.update_of_ne heq, loadBE_congr (load_storeBE_of_disjoint hstore (by omega))]
        exact hatoms.loadBE_eq j hj

theorem putOctets_eq_ok (hatoms : IsAtoms region count atoms) (offset : Nat) (octets : List UInt8)
    (hle : 4 * count ≤ offset) (hlt : offset + octets.length < 2 ^ 32) :
    ∃ region', WriteSection.putOctets region offset octets = .ok region' ∧
      IsAtoms region' count atoms := by
  have hlength := hatoms.length
  have hgrown : offset + octets.length ≤
      (region ++ List.replicate (offset + octets.length - region.length) 0).length := by
    rw [List.length_append, List.length_replicate]
    omega
  obtain ⟨region', hstore⟩ := exists_store _ offset octets hgrown
  refine ⟨region', ?_, ?_⟩
  · rw [WriteSection.putOctets, if_neg (by omega)]
    simp only [hstore]
  · constructor
    · rw [length_of_store hstore, List.length_append]
      omega
    · intro i hi
      have hload : load (region ++ List.replicate (offset + octets.length - region.length) 0)
          (4 * i) 4 = load region (4 * i) 4 := by
        rw [load, load, if_pos (by rw [List.length_append]; omega), if_pos (by omega),
          List.drop_append_of_le_length (by omega),
          List.take_append_of_le_length (by rw [List.length_drop]; omega)]
      rw [loadBE_congr ((load_store_of_disjoint hstore (by omega)).trans hload)]
      exact hatoms.loadBE_eq i hi
end IsAtoms

def slot (recordNumber : Nat) : Nat := 7 + recordNumber

theorem four_mul_slot (recordNumber : Nat) :
    4 * slot recordNumber = Table.offsetRecordNumbers + 4 * recordNumber := by
  rw [slot, Table.offsetRecordNumbers]
  omega

def link (recordNumber : Nat) : Nat := 4 * slot recordNumber + 1

theorem or_one (recordNumber : Nat) : 4 * slot recordNumber ||| 1 = link recordNumber := by
  have hor : ∀ n : Nat, 2 * n ||| 1 = 2 * n + 1 := by
    intro n
    apply Nat.eq_of_testBit_eq
    intro i
    rw [Nat.testBit_or]
    cases i with
    | zero => simp
    | succ i => simp [Nat.testBit_succ, Nat.mul_add_div]
  have heven : 4 * slot recordNumber = 2 * (2 * slot recordNumber) := by omega
  rw [link, heven, hor]

def Linked (atoms : Nat → Nat) : Nat → List Nat → Nat → Prop
  | head, [], last => head = last
  | head, recordNumber :: rest, last =>
    head = link recordNumber ∧ Linked atoms (atoms (slot recordNumber)) rest last

variable {atoms : Nat → Nat} {records : List PackedRecord}

theorem Linked.append {head middle last : Nat} {front back : List Nat}
    (hfront : Linked atoms head front middle) (hback : Linked atoms middle back last) :
    Linked atoms head (front ++ back) last := by
  induction front generalizing head with
  | nil =>
    rw [show head = middle from hfront]
    exact hback
  | cons recordNumber front ih => exact ⟨hfront.1, ih hfront.2⟩

/-- The elements of the array that are 0, from the last one to the first one. -/
def unused (atoms : Nat → Nat) (first rest : Nat) : List Nat :=
  ((List.range' first rest).filter fun recordNumber => atoms (slot recordNumber) = 0).reverse

theorem buildFreeList_spec (rest recordNumber : Nat) {region : List UInt8} {count : Nat}
    {head : Nat} (hatoms : IsAtoms region (slot count) atoms) (hlt : 4 * slot count < 2 ^ 32)
    (hcount : recordNumber + rest = count) (hhead : head < 2 ^ 32) :
    ∃ region' head' atoms', buildFreeList rest recordNumber region head = .ok (region', head') ∧
      head' < 2 ^ 32 ∧ IsAtoms region' (slot count) atoms' ∧
      (∀ i, (i < slot recordNumber ∨ atoms i ≠ 0) → atoms' i = atoms i) ∧
      Linked atoms' head' (unused atoms recordNumber rest) head := by
  induction rest generalizing recordNumber region atoms head with
  | zero => exact ⟨region, head, atoms, rfl, hhead, hatoms, fun _ _ => rfl, rfl⟩
  | succ rest ih =>
    have hi : slot recordNumber < slot count := by
      rw [slot, slot]
      omega
    have hoffset : (Table.offsetRecordNumbers + 4 * recordNumber) % 2 ^ 32 =
        4 * slot recordNumber := by
      rw [four_mul_slot]
      apply Nat.mod_eq_of_lt
      rw [← four_mul_slot]
      omega
    have hcons : List.range' recordNumber (rest + 1) =
        recordNumber :: List.range' (recordNumber + 1) rest := List.range'_succ
    by_cases hzero : atoms (slot recordNumber) = 0
    · obtain ⟨region₁, hput, hatoms₁⟩ := hatoms.put_eq_ok _ _ hi hlt hhead
      have hlink : link recordNumber < 2 ^ 32 := by
        rw [link]
        rw [slot] at hi ⊢
        omega
      obtain ⟨region', head', atoms', hbuild, hhead', hatoms', hsame, hlinked⟩ :=
        ih (recordNumber + 1) hatoms₁ (by omega) hlink
      have hunused : unused (Function.update atoms (slot recordNumber) head) (recordNumber + 1) rest =
          unused atoms (recordNumber + 1) rest := by
        rw [unused, unused]
        congr 1
        apply List.filter_congr
        intro n hn
        have hle := (List.mem_range'_1.mp hn).1
        have hne : slot n ≠ slot recordNumber := by
          rw [slot, slot]
          omega
        rw [Function.update_of_ne hne]
      refine ⟨region', head', atoms', ?_, hhead', hatoms', ?_, ?_⟩
      · rw [buildFreeList, hoffset, hatoms.at_eq_ok hi hlt]
        simp only [bind, Except.bind, hzero, if_true, hput, or_one]
        exact hbuild
      · intro i hi'
        have hne : i ≠ slot recordNumber := by
          intro heq
          subst heq
          cases hi' with
          | inl hself => exact absurd hself (Nat.lt_irrefl _)
          | inr hnonzero => exact hnonzero hzero
        rw [hsame i, Function.update_of_ne hne]
        rw [Function.update_of_ne hne]
        rw [slot] at hi' ⊢
        omega
      · rw [hunused] at hlinked
        rw [unused, hcons, List.filter_cons_of_pos (by simpa using hzero), List.reverse_cons]
        apply hlinked.append
        refine ⟨rfl, ?_⟩
        rw [hsame (slot recordNumber) (Or.inl (by rw [slot, slot]; omega)), Function.update_self]
        exact rfl
    · obtain ⟨region', head', atoms', hbuild, hhead', hatoms', hsame, hlinked⟩ :=
        ih (recordNumber + 1) hatoms (by omega) hhead
      refine ⟨region', head', atoms', ?_, hhead', hatoms', ?_, ?_⟩
      · rw [buildFreeList, hoffset, hatoms.at_eq_ok hi hlt]
        simp only [bind, Except.bind, hzero, if_false]
        exact hbuild
      · intro i hi'
        apply hsame i
        rw [slot] at hi' ⊢
        omega
      · rw [unused, hcons, List.filter_cons_of_neg (by simpa using hzero)]
        exact hlinked

theorem mem_unused {count recordNumber : Nat} :
    recordNumber ∈ unused atoms 0 count ↔ recordNumber < count ∧ atoms (slot recordNumber) = 0 := by
  rw [unused, List.mem_reverse, List.mem_filter, List.mem_range'_1]
  simp

theorem nodup_unused (atoms : Nat → Nat) (count : Nat) : (unused atoms 0 count).Nodup := by
  rw [unused, List.nodup_reverse]
  exact List.Nodup.filter _ List.nodup_range'

theorem freeList_of_linked {region : List UInt8} {count head : Nat} {free : List Nat}
    (hlinked : Linked atoms head free 0)
    (hload : ∀ n < count, loadBE region (4 * slot n) 4 = some (atoms (slot n)))
    (hlt : ∀ n ∈ free, n < count) (hcount : 4 * slot count < 2 ^ 32) :
    FreeList region head (free.map UInt32.ofNat) := by
  induction free generalizing head with
  | nil => exact hlinked
  | cons recordNumber rest ih =>
    have hn := hlt recordNumber List.mem_cons_self
    have htoNat : (UInt32.ofNat recordNumber).toNat = recordNumber := by
      apply UInt32.toNat_ofNat_of_lt'
      rw [slot] at hcount
      rw [UInt32.size]
      omega
    refine ⟨?_, atoms (slot recordNumber), ?_, ?_⟩
    · rw [hlinked.1, link, four_mul_slot, freeLink, htoNat]
    · rw [slotOffset_eq (by rw [htoNat]; exact hn) (by rw [← four_mul_slot]; exact hcount), htoNat,
        ← four_mul_slot]
      exact hload recordNumber hn
    · exact ih hlinked.2 fun n hmem => hlt n (List.mem_cons_of_mem _ hmem)

def placeRecords (atoms : Nat → Nat) (offset : Nat) : List PackedRecord → Nat → Nat
  | [] => atoms
  | record :: rest =>
    placeRecords (Function.update atoms (slot record.number.toNat) offset) (offset + record.size)
      rest

theorem placeRecords_append (atoms : Nat → Nat) (offset : Nat) (records records' : List PackedRecord) :
    placeRecords atoms offset (records ++ records') =
      placeRecords (placeRecords atoms offset records)
        (offset + PackedRecord.totalSize records) records' := by
  induction records generalizing atoms offset with
  | nil => rfl
  | cons record records ih =>
    rw [List.cons_append, placeRecords, placeRecords, ih, PackedRecord.totalSize_cons,
      Nat.add_assoc]

theorem placeRecords_of_notMem {offset i : Nat}
    (hnotMem : ∀ record ∈ records, i ≠ slot record.number.toNat) :
    placeRecords atoms offset records i = atoms i := by
  induction records generalizing atoms offset with
  | nil => rfl
  | cons record records ih =>
    rw [placeRecords, ih fun other hother => hnotMem other (List.mem_cons_of_mem _ hother),
      Function.update_of_ne (hnotMem record List.mem_cons_self)]

theorem slot_ne_of_number_ne {record other : PackedRecord} (hne : record.number ≠ other.number) :
    slot record.number.toNat ≠ slot other.number.toNat := by
  intro heq
  apply hne
  apply UInt32.toNat_inj.mp
  rw [slot, slot] at heq
  omega

theorem placeRecords_ne_zero {offset : Nat} (hpos : 0 < offset) {record : PackedRecord}
    (hmem : record ∈ records) :
    placeRecords atoms offset records (slot record.number.toNat) ≠ 0 := by
  have hgeneral : ∀ (records : List PackedRecord) (atoms : Nat → Nat) (offset : Nat), 0 < offset →
      ∀ i, (atoms i ≠ 0 ∨ ∃ record ∈ records, i = slot record.number.toNat) →
        placeRecords atoms offset records i ≠ 0 := by
    intro records
    induction records with
    | nil =>
      intro atoms offset _ i hi
      cases hi with
      | inl hne => exact hne
      | inr hmem =>
        obtain ⟨record, hmem, -⟩ := hmem
        cases hmem
    | cons head rest ih =>
      intro atoms offset hpos i hi
      rw [placeRecords]
      apply ih _ _ (by omega)
      by_cases heq : i = slot head.number.toNat
      · left
        rw [heq, Function.update_self]
        exact Nat.ne_of_gt hpos
      · rw [Function.update_of_ne heq]
        apply hi.imp_right
        intro hmem
        obtain ⟨record, hmem, hslot⟩ := hmem
        cases List.mem_cons.mp hmem with
        | inl hhead =>
          rw [hhead] at hslot
          exact absurd hslot heq
        | inr htail => exact ⟨record, htail, hslot⟩
  exact hgeneral records atoms offset hpos _ (Or.inr ⟨record, hmem, rfl⟩)

def octetsOf (records : List PackedRecord) : List UInt8 := records.flatMap PackedRecord.octets

@[simp] theorem octetsOf_append (records records' : List PackedRecord) :
    octetsOf (records ++ records') = octetsOf records ++ octetsOf records' :=
  List.flatMap_append

@[simp] theorem length_octetsOf (records : List PackedRecord) :
    (octetsOf records).length = PackedRecord.totalSize records := by
  induction records with
  | nil => rfl
  | cons record records ih =>
    rw [octetsOf] at ih ⊢
    rw [List.flatMap_cons, List.length_append, ih, PackedRecord.length_octets,
      PackedRecord.totalSize_cons]

theorem recordsAt_of_placeRecords {region : List UInt8} {count : Nat} {offset : Nat}
    (hload : load region offset (PackedRecord.totalSize records) = some (octetsOf records))
    (hslots : ∀ record ∈ records, loadBE region (4 * slot record.number.toNat) 4 =
      some (placeRecords atoms offset records (slot record.number.toNat)))
    (hnodup : (records.map PackedRecord.number).Nodup)
    (hlt : ∀ record ∈ records, record.number.toNat < count) (hcount : 4 * slot count < 2 ^ 32) :
    RecordsAt region offset records := by
  induction records generalizing atoms offset with
  | nil => trivial
  | cons record rest ih =>
    obtain ⟨hnotMem, hrest⟩ := List.nodup_cons.mp hnodup
    have happend : load region offset (PackedRecord.totalSize (record :: rest)) =
        some (record.octets ++ octetsOf rest) := hload
    obtain ⟨hhead, htail⟩ := load_append happend
    rw [PackedRecord.length_octets] at hhead htail
    rw [length_octetsOf] at htail
    have hne : ∀ other ∈ rest, slot record.number.toNat ≠ slot other.number.toNat := by
      intro other hother
      apply slot_ne_of_number_ne
      intro heq
      exact hnotMem (heq ▸ List.mem_map_of_mem hother)
    refine ⟨hhead, ?_, ?_⟩
    · rw [slotOffset_eq (hlt record List.mem_cons_self) (by rw [← four_mul_slot]; exact hcount),
        ← four_mul_slot, hslots record List.mem_cons_self, placeRecords,
        placeRecords_of_notMem hne, Function.update_self]
    · exact ih htail (fun other hother => hslots other (List.mem_cons_of_mem _ hother)) hrest
        fun other hother => hlt other (List.mem_cons_of_mem _ hother)
end SecurityFramework.Filedb
