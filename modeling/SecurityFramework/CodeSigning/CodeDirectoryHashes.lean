import SecurityFramework.CodeSigning.CodeDirectoryBuilding

/-! # The hashes that the builder writes -/

namespace SecurityFramework
open Memory

namespace CodeDirectory
namespace Builder
variable {hashing : Hashing} {builder : Builder} {mDir : List UInt8}

theorem Regular.codeSlots_small (h : builder.Regular) : builder.codeSlots < 2 ^ 30 := by
  have hmul := builder.codeSlots_mul_le builder.version
  have hdigest := builder.digestLength_bounds.1
  have hle : builder.codeSlots * 20 ≤ builder.codeSlots * builder.mDigestLength :=
    Nat.mul_le_mul_left _ hdigest
  have hlt := h.lt
  omega

theorem slotAt_of_fits {base start : Nat} {slot : Int} (hlow : -2 ^ 30 ≤ slot)
    (hhigh : slot < 2 ^ 30) (hint : -2 ^ 31 ≤ (builder.mDigestLength : Int) * slot)
    (hint' : (builder.mDigestLength : Int) * slot < 2 ^ 31)
    (hstart : (start : Int) = base + builder.mDigestLength * slot) :
    slotAt base builder.mDigestLength (toSlot slot) = some (some (start : Int)) := by
  rw [toSlot_eq (by omega) (by omega), slotAt, mulInt_eq_some_iff.mpr ⟨rfl, hint, hint'⟩,
    Option.map_some, hstart]

theorem getSlotMutable_main (h : builder.Prepared mDir) {slot : Int} {start : Nat}
    (hlow : -2 ^ 30 ≤ slot) (hhigh : slot < 2 ^ 30)
    (hint : -2 ^ 31 ≤ (builder.mDigestLength : Int) * slot)
    (hint' : (builder.mDigestLength : Int) * slot < 2 ^ 31)
    (hstart : (start : Int) = builder.hashOffset builder.version + builder.mDigestLength * slot) :
    getSlotMutable mDir slot false = some start := by
  have hslot := slotAt_of_fits hlow hhigh hint hint' hstart
  simp [getSlotMutable, h.hashSize, h.hashOffset, hslot]

theorem preEncryptBase_eq (h : builder.Prepared mDir) (hhas : builder.hasPreEncryptHashes) :
    preEncryptBase mDir = some (builder.preEncryptOffset builder.version) := by
  have hversion := builder.preEncrypt_version hhas
  have hsupports : supportsPreEncrypt ≤ builder.version := by
    rw [hversion]
    decide
  have hfield := h.preEncryptOffset hsupports
  rw [if_pos hhas] at hfield
  have hne : builder.preEncryptOffset builder.version ≠ 0 := by
    have hfixed := builder.fixedSize_facts.1
    have hle := builder.fixedSize_le_preEncryptOffset
    omega
  simp only [preEncryptBase, h.version, hfield, Option.bind_eq_bind, Option.bind_some]
  rw [if_neg (by omega), if_neg hne]

theorem getSlotMutable_preEncrypt (h : builder.Prepared mDir)
    (hhas : builder.hasPreEncryptHashes) {slot : Int} {start : Nat}
    (hlow : -2 ^ 30 ≤ slot) (hhigh : slot < 2 ^ 30)
    (hint : -2 ^ 31 ≤ (builder.mDigestLength : Int) * slot)
    (hint' : (builder.mDigestLength : Int) * slot < 2 ^ 31)
    (hstart : (start : Int) =
      builder.preEncryptOffset builder.version + builder.mDigestLength * slot) :
    getSlotMutable mDir slot true = some start := by
  have hslot := slotAt_of_fits hlow hhigh hint hint' hstart
  simp [getSlotMutable, h.hashSize, preEncryptBase_eq h hhas, hslot]

theorem int_of_getSlotMutable (h : builder.Prepared mDir) {slot : Int} {start : Nat}
    (hlow : -2 ^ 30 ≤ slot) (hhigh : slot < 2 ^ 30)
    (haddress : getSlotMutable mDir slot false = some start) :
    (builder.mDigestLength : Int) * slot < 2 ^ 31 := by
  by_contra hbig
  have hnone : slotAt (builder.hashOffset builder.version) builder.mDigestLength
      (toSlot slot) = none := by
    rw [toSlot_eq (by omega) (by omega), slotAt, mulInt, if_neg (by omega)]
    rfl
  simp [getSlotMutable, h.hashSize, h.hashOffset, hnone] at haddress

def Copies (builder : Builder) : Prop :=
  builder.mGeneratePreEncryptHashes ∧ builder.mPreservedPreEncryptHashMap.isEmpty

theorem Copies.hasPreEncryptHashes (h : builder.Copies) : builder.hasPreEncryptHashes := by
  simp [Builder.hasPreEncryptHashes, h.1]

def slotStart (builder : Builder) (slot : Nat) : Nat :=
  builder.hashOffset builder.version + slot * builder.mDigestLength

def preEncryptStart (builder : Builder) (slot : Nat) : Nat :=
  builder.preEncryptOffset builder.version + slot * builder.mDigestLength

variable {slot : Nat}

theorem slot_bounds (builder : Builder) (hslot : slot < builder.codeSlots) :
    builder.slotStart slot + builder.mDigestLength ≤ builder.sizeSum builder.version ∧
      builder.slotStart slot + builder.mDigestLength = builder.slotStart (slot + 1) ∧
      builder.preEncryptStart slot + builder.mDigestLength = builder.preEncryptStart (slot + 1) ∧
      (builder.hasPreEncryptHashes →
        builder.preEncryptStart (slot + 1) ≤ builder.hashesOffset builder.version) := by
  have hend := builder.endOffset_eq builder.version
  have hmul : (slot + 1) * builder.mDigestLength ≤ builder.codeSlots * builder.mDigestLength :=
    Nat.mul_le_mul_right _ hslot
  simp only [endOffset, Nat.add_mul] at hend
  simp only [slotStart, preEncryptStart, hashOffset, Nat.add_mul, Nat.one_mul] at *
  refine ⟨by omega, by omega, by omega, ?_⟩
  intro hhas
  simp only [hashesOffset, if_pos hhas]
  omega

theorem fillSlot_spec (h : builder.Prepared mDir) (hregular : builder.Regular)
    (hslot : slot < builder.codeSlots) (hint : builder.mDigestLength * slot < 2 ^ 31)
    {digest : List UInt8} (hdigest : digest.length = builder.mDigestLength) :
    ∃ mDir', builder.fillSlot slot digest mDir = some mDir' ∧ builder.Prepared mDir' ∧
      load mDir' (builder.slotStart slot) builder.mDigestLength = some digest ∧
      (builder.Copies →
        load mDir' (builder.preEncryptStart slot) builder.mDigestLength = some digest) ∧
      (∀ offset len, (offset + len ≤ builder.preEncryptStart slot ∨
        builder.preEncryptStart (slot + 1) ≤ offset ∧ offset + len ≤ builder.slotStart slot ∨
        builder.slotStart (slot + 1) ≤ offset) → load mDir' offset len = load mDir offset len) ∧
      (¬builder.Copies → ∀ offset len, offset + len ≤ builder.slotStart slot →
        load mDir' offset len = load mDir offset len) := by
  obtain ⟨hend, hnext, hpreNext, hpreLe⟩ := builder.slot_bounds hslot
  obtain ⟨-, -, -, hpre, hhashes, -⟩ := builder.offsets_le builder.version
  have hsmall := hregular.codeSlots_small
  have hlength := h.length
  have hpos := builder.digestLength_bounds.1
  have hpreSlot : builder.preEncryptOffset builder.version ≤ builder.preEncryptStart slot :=
    Nat.le_add_right _ _
  have hintLow : -2 ^ 31 ≤ (builder.mDigestLength : Int) * slot := by
    rw [← Int.natCast_mul]
    omega
  have hintHigh : (builder.mDigestLength : Int) * slot < 2 ^ 31 := by
    rw [← Int.natCast_mul]
    omega
  have haddress {mDir : List UInt8} (h : builder.Prepared mDir) :
      getSlotMutable mDir slot false = some (builder.slotStart slot) := by
    apply getSlotMutable_main h (by omega) (by omega) hintLow hintHigh
    rw [slotStart]
    push_cast
    ring
  obtain ⟨mDir₁, hmain⟩ := exists_store mDir (builder.slotStart slot) digest (by omega)
  have hlen₁ := length_of_store hmain
  have hsame := load_store_same hmain
  rw [hdigest] at hsame
  have hlow : builder.preEncryptStart slot ≤ builder.slotStart slot := by
    rw [preEncryptStart, slotStart]
    omega
  have hprepared₁ : builder.Prepared mDir₁ := h.of_frame hlen₁ fun offset len hle =>
    load_store_of_disjoint hmain (Or.inl (by omega))
  by_cases hcopies : builder.Copies
  · have hhas := hcopies.hasPreEncryptHashes
    have hpreEnd := hpreLe hhas
    have hpreAddress : getSlotMutable mDir₁ slot true = some (builder.preEncryptStart slot) := by
      apply getSlotMutable_preEncrypt hprepared₁ hhas (by omega) (by omega) hintLow hintHigh
      rw [preEncryptStart]
      push_cast
      ring
    have hhashStart : builder.hashesOffset builder.version ≤ builder.slotStart slot := by
      rw [slotStart]
      omega
    obtain ⟨mDir₂, hpreStore⟩ := exists_store mDir₁ (builder.preEncryptStart slot) digest
      (by omega)
    have hlen₂ := length_of_store hpreStore
    have hpreSame := load_store_same hpreStore
    rw [hdigest] at hpreSame
    refine ⟨mDir₂, ?_, ?_, ?_, fun _ => hpreSame, ?_, fun hnot => absurd hcopies hnot⟩
    · simp only [fillSlot, haddress h, hmain, Option.bind_eq_bind, Option.bind_some]
      have hcond : builder.mGeneratePreEncryptHashes = true ∧
        builder.mPreservedPreEncryptHashMap.isEmpty = true := hcopies
      rw [if_pos hcond, hprepared₁.hashSize, Option.bind_some, haddress hprepared₁,
        Option.bind_some, hsame, Option.bind_some, hpreAddress, Option.bind_some, hpreStore]
    · exact hprepared₁.of_frame hlen₂ fun offset len hle =>
        load_store_of_disjoint hpreStore (Or.inl (by omega))
    · rw [load_store_of_disjoint hpreStore (Or.inr (by omega)), hsame]
    · intro offset len hout
      rw [load_store_of_disjoint hpreStore (by omega), load_store_of_disjoint hmain (by omega)]
  · refine ⟨mDir₁, ?_, hprepared₁, hsame, fun hc => absurd hc hcopies, ?_, ?_⟩
    · simp only [fillSlot, haddress h, hmain, Option.bind_eq_bind, Option.bind_some]
      have hcond : ¬(builder.mGeneratePreEncryptHashes = true ∧
        builder.mPreservedPreEncryptHashMap.isEmpty = true) := hcopies
      rw [if_neg hcond]
      rfl
    · intro offset len hout
      exact load_store_of_disjoint hmain (by omega)
    · intro _ offset len hle
      exact load_store_of_disjoint hmain (Or.inl hle)

def pagesFrom (builder : Builder) : Nat → List UInt8 → Nat → List (List UInt8)
  | 0, _, _ => []
  | count + 1, exec, remaining =>
    let page := readLimit exec (builder.thisPage remaining)
    page :: builder.pagesFrom count (exec.drop page.length)
      (remaining - builder.thisPage remaining)

def fillSlots (builder : Builder) : List (List UInt8) → Nat → List UInt8 → Option (List UInt8)
  | [], _, mDir => some mDir
  | digest :: digests, slot, mDir => do
    builder.fillSlots digests (slot + 1) (← builder.fillSlot slot digest mDir)

theorem fillCode_eq (hashing : Hashing) (builder : Builder) (count slot : Nat)
    (exec : List UInt8) (remaining : Nat) (mDir : List UInt8) :
    fillCode hashing builder count slot exec remaining mDir =
      builder.fillSlots ((builder.pagesFrom count exec remaining).map
        (hashing.digest builder.mHashType)) slot mDir := by
  induction count generalizing slot exec remaining mDir with
  | zero => rfl
  | succ count ih => simp only [fillCode, ih, pagesFrom, List.map_cons, fillSlots]

structure Filled (builder : Builder) (digests : List (List UInt8)) (slot : Nat)
    (mDir mDir' : List UInt8) : Prop where
  prepared : builder.Prepared mDir'
  main : ∀ (j : Nat) (hj : j < digests.length),
    load mDir' (builder.slotStart (slot + j)) builder.mDigestLength = some digests[j]
  copies : builder.Copies → ∀ (j : Nat) (hj : j < digests.length),
    load mDir' (builder.preEncryptStart (slot + j)) builder.mDigestLength = some digests[j]
  frame : ∀ offset len, (offset + len ≤ builder.preEncryptStart slot ∨
    builder.hashesOffset builder.version ≤ offset ∧ offset + len ≤ builder.slotStart slot) →
      load mDir' offset len = load mDir offset len
  frame_of_not_copies : ¬builder.Copies → ∀ offset len, offset + len ≤ builder.slotStart slot →
    load mDir' offset len = load mDir offset len

theorem fillSlots_spec {digests : List (List UInt8)} {mDir : List UInt8} (h : builder.Prepared mDir)
    (hregular : builder.Regular) (hslots : slot + digests.length ≤ builder.codeSlots)
    (hint : ∀ j, j < digests.length → builder.mDigestLength * (slot + j) < 2 ^ 31)
    (hdigests : ∀ digest ∈ digests, digest.length = builder.mDigestLength) :
    ∃ mDir', builder.fillSlots digests slot mDir = some mDir' ∧
      builder.Filled digests slot mDir mDir' := by
  induction digests generalizing slot mDir with
  | nil =>
    refine ⟨mDir, rfl, h, ?_, ?_, fun _ _ _ => rfl, fun _ _ _ _ => rfl⟩
    · intro j hj
      exact absurd hj (Nat.not_lt_zero j)
    · intro _ j hj
      exact absurd hj (Nat.not_lt_zero j)
  | cons digest digests ih =>
    rw [List.length_cons] at hslots
    obtain ⟨hend, hnext, hpreNext, hpreLe⟩ := builder.slot_bounds (show slot < builder.codeSlots by omega)
    obtain ⟨mDir₁, hfill, hprepared, hmain, hcopy, hframe, hframeMain⟩ := fillSlot_spec h hregular
      (show slot < builder.codeSlots by omega) (hint 0 (Nat.succ_pos _))
      (hdigests digest (List.mem_cons_self ..))
    obtain ⟨mDir₂, hfills, hfilled⟩ := @ih (slot + 1) mDir₁ hprepared (by omega)
      (fun j hj => by
        rw [Nat.add_assoc, Nat.add_comm 1 j]
        exact hint (j + 1) (Nat.succ_lt_succ hj))
      (fun digest hdigest => hdigests digest (List.mem_cons_of_mem _ hdigest))
    have hhash : builder.hashesOffset builder.version ≤ builder.slotStart slot := by
      obtain ⟨-, -, -, -, hhashes, -⟩ := builder.offsets_le builder.version
      rw [slotStart]
      omega
    refine ⟨mDir₂, ?_, hfilled.prepared, ?_, ?_, ?_, ?_⟩
    · rw [fillSlots, hfill, Option.bind_eq_bind, Option.bind_some, hfills]
    · intro j hj
      cases j with
      | zero =>
        rw [Nat.add_zero, List.getElem_cons_zero,
          hfilled.frame _ _ (Or.inr ⟨hhash, hnext.le⟩), hmain]
      | succ j =>
        rw [List.getElem_cons_succ, ← hfilled.main j (Nat.lt_of_succ_lt_succ hj), Nat.add_assoc,
          Nat.add_comm 1 j]
    · intro hcopies j hj
      cases j with
      | zero =>
        rw [Nat.add_zero, List.getElem_cons_zero, hfilled.frame _ _ (Or.inl hpreNext.le),
          hcopy hcopies]
      | succ j =>
        rw [List.getElem_cons_succ, ← hfilled.copies hcopies j (Nat.lt_of_succ_lt_succ hj),
          Nat.add_assoc, Nat.add_comm 1 j]
    · intro offset len hout
      by_cases hcopies : builder.Copies
      · have hpre := hpreLe hcopies.hasPreEncryptHashes
        rw [hfilled.frame _ _ (by omega), hframe _ _ (by omega)]
      · have hlow : builder.preEncryptStart slot ≤ builder.slotStart slot := by
          obtain ⟨-, -, -, hpre, hhashes, -⟩ := builder.offsets_le builder.version
          rw [preEncryptStart, slotStart]
          omega
        rw [hfilled.frame_of_not_copies hcopies _ _ (by omega), hframeMain hcopies _ _ (by omega)]
    · intro hcopies offset len hle
      rw [hfilled.frame_of_not_copies hcopies _ _ (by omega), hframeMain hcopies _ _ hle]

theorem int_of_fillSlots {digests : List (List UInt8)} {mDir mDir' : List UInt8}
    (h : builder.Prepared mDir) (hregular : builder.Regular)
    (hslots : slot + digests.length ≤ builder.codeSlots)
    (hdigests : ∀ digest ∈ digests, digest.length = builder.mDigestLength)
    (hfill : builder.fillSlots digests slot mDir = some mDir') :
    ∀ j, j < digests.length → builder.mDigestLength * (slot + j) < 2 ^ 31 := by
  induction digests generalizing slot mDir with
  | nil =>
    intro j hj
    exact absurd hj (Nat.not_lt_zero j)
  | cons digest digests ih =>
    rw [List.length_cons] at hslots
    have hsmall := hregular.codeSlots_small
    obtain ⟨mDir₁, hslot, hrest⟩ := Option.bind_eq_some_iff.mp hfill
    obtain ⟨start, haddress, -⟩ := Option.bind_eq_some_iff.mp hslot
    have hint := int_of_getSlotMutable h (by omega) (by omega) haddress
    rw [← Int.natCast_mul] at hint
    have hint' : builder.mDigestLength * slot < 2 ^ 31 := by omega
    obtain ⟨mDir₂, hslot', hprepared, -⟩ := fillSlot_spec h hregular
      (show slot < builder.codeSlots by omega) hint' (hdigests digest (List.mem_cons_self ..))
    obtain rfl : mDir₁ = mDir₂ := Option.some.inj (hslot.symm.trans hslot')
    have hlater := @ih (slot + 1) mDir₁ hprepared (by omega)
      (fun digest hdigest => hdigests digest (List.mem_cons_of_mem _ hdigest)) hrest
    intro j hj
    cases j with
    | zero => exact hint'
    | succ j =>
      have hnext := hlater j (Nat.lt_of_succ_lt_succ hj)
      rwa [Nat.add_assoc, Nat.add_comm 1 j] at hnext

def specialStart (builder : Builder) (slot : Nat) : Nat :=
  builder.hashOffset builder.version - slot * builder.mDigestLength

theorem special_bounds (builder : Builder) (hslot : slot ≤ builder.mSpecialSlots) :
    builder.hashesOffset builder.version ≤ builder.specialStart slot ∧
      builder.specialStart slot + slot * builder.mDigestLength =
        builder.hashOffset builder.version := by
  have hmul : slot * builder.mDigestLength ≤ builder.mSpecialSlots * builder.mDigestLength :=
    Nat.mul_le_mul_right _ hslot
  rw [specialStart, hashOffset]
  omega

theorem getSlotMutable_special (h : builder.Prepared mDir) (hslot : slot ≤ builder.mSpecialSlots) :
    getSlotMutable mDir (-(slot : Int)) false = some (builder.specialStart slot) := by
  obtain ⟨-, hend⟩ := builder.special_bounds hslot
  have hspecial := builder.specialSlots_le
  rw [cdSlotMax] at hspecial
  have hdigest := builder.digestLength_bounds.2
  have hmul : slot * builder.mDigestLength ≤ 11 * 48 :=
    Nat.mul_le_mul (by omega) hdigest
  have hproduct : (builder.mDigestLength : Int) * -(slot : Int) =
      -((slot * builder.mDigestLength : Nat) : Int) := by
    push_cast
    ring
  apply getSlotMutable_main h (by omega) (by omega)
  · rw [hproduct]
    omega
  · rw [hproduct]
    omega
  · rw [hproduct]
    omega

theorem fillSpecial_spec (h : builder.Prepared mDir) {count : Nat}
    (hcount : count ≤ builder.mSpecialSlots) :
    ∃ mDir', builder.fillSpecial count mDir = some mDir' ∧ builder.Prepared mDir' ∧
      (∀ slot, 1 ≤ slot → slot ≤ count →
        load mDir' (builder.specialStart slot) builder.mDigestLength =
          some (builder.mSpecial slot)) ∧
      (∀ offset len, (offset + len ≤ builder.hashesOffset builder.version ∨
        builder.hashOffset builder.version ≤ offset) →
          load mDir' offset len = load mDir offset len) := by
  induction count with
  | zero =>
    refine ⟨mDir, rfl, h, ?_, fun _ _ _ => rfl⟩
    intro slot hlow hhigh
    omega
  | succ count ih =>
    obtain ⟨mDir₁, hfill, hprepared, hslots, hframe⟩ := ih (by omega)
    obtain ⟨hlow, hend⟩ := builder.special_bounds hcount
    obtain ⟨-, -, -, hpre, hhashes, hhash⟩ := builder.offsets_le builder.version
    have hlength := hprepared.length
    have hdigest := builder.length_special (count + 1)
    have hwidth : builder.mDigestLength = builder.mHashType.digestLength := rfl
    rw [Nat.add_mul, Nat.one_mul] at hend
    obtain ⟨mDir₂, hstore⟩ := exists_store mDir₁ (builder.specialStart (count + 1))
      (builder.mSpecial (count + 1)) (by omega)
    have haddress := getSlotMutable_special hprepared hcount
    refine ⟨mDir₂, ?_, ?_, ?_, ?_⟩
    · rw [Nat.cast_succ] at haddress
      simp only [fillSpecial, hfill, Option.bind_eq_bind, Option.bind_some, haddress, hstore]
    · exact hprepared.of_frame (length_of_store hstore) fun offset len hle =>
        load_store_of_disjoint hstore (Or.inl (by omega))
    · intro slot hone hslot
      by_cases hlast : slot = count + 1
      · have hsame := load_store_same hstore
        rw [hdigest] at hsame
        rw [hlast]
        exact hsame
      · obtain ⟨-, hslotEnd⟩ := builder.special_bounds (show slot ≤ builder.mSpecialSlots by omega)
        have hmul : slot * builder.mDigestLength ≤ count * builder.mDigestLength :=
          Nat.mul_le_mul_right _ (by omega)
        rw [load_store_of_disjoint hstore (Or.inr (by omega)), hslots slot hone (by omega)]
    · intro offset len hout
      rw [load_store_of_disjoint hstore (by omega), hframe _ _ hout]

def page (builder : Builder) (slot : Nat) : List UInt8 :=
  let exec := builder.mExec.drop builder.mExecOffset.toNat
  if builder.mPageSize = 0 then
    exec.take builder.execLength
  else
    (exec.drop (slot * builder.mPageSize.toNat)).take
      (min (builder.execLength - slot * builder.mPageSize.toNat) builder.mPageSize.toNat)

theorem drop_length_take (exec : List UInt8) (n : Nat) :
    exec.drop (exec.take n).length = exec.drop n := by
  rw [List.length_take]
  by_cases hle : n ≤ exec.length
  · rw [Nat.min_eq_left hle]
  · rw [Nat.min_eq_right (by omega), List.drop_length, List.drop_eq_nil_of_le (by omega)]

theorem pagesFrom_paged (hpage : builder.mPageSize ≠ 0) {count slot : Nat}
    (hcount : slot + count = builder.codeSlots) :
    builder.pagesFrom count
      ((builder.mExec.drop builder.mExecOffset.toNat).drop (slot * builder.mPageSize.toNat))
      (builder.execLength - slot * builder.mPageSize.toNat) =
        (List.range' slot count).map builder.page := by
  induction count generalizing slot with
  | zero => rfl
  | succ count ih =>
    have hpos : 0 < builder.mPageSize.toNat :=
      Nat.pos_of_ne_zero fun hzero => hpage (UInt64.toNat_inj.mp hzero)
    have hlen : builder.execLength ≠ 0 := by
      intro hzero
      rw [codeSlots, if_pos hzero] at hcount
      omega
    have hslots : (builder.execLength - 1) / builder.mPageSize.toNat + 1 = builder.codeSlots := by
      rw [codeSlots, if_neg hlen, if_neg hpage]
    have hremaining : 0 < builder.execLength - slot * builder.mPageSize.toNat := by
      have hle : slot ≤ (builder.execLength - 1) / builder.mPageSize.toNat := by omega
      have hmul := (Nat.le_div_iff_mul_le hpos).mp hle
      omega
    have hthis : builder.thisPage (builder.execLength - slot * builder.mPageSize.toNat) =
        min (builder.execLength - slot * builder.mPageSize.toNat) builder.mPageSize.toNat := by
      rw [thisPage, if_pos hpage]
    have hread : readLimit
        ((builder.mExec.drop builder.mExecOffset.toNat).drop (slot * builder.mPageSize.toNat))
        (builder.thisPage (builder.execLength - slot * builder.mPageSize.toNat)) =
          builder.page slot := by
      rw [hthis, readLimit, if_neg (by omega), page, if_neg hpage]
    rw [pagesFrom, List.range'_succ, List.map_cons]
    simp only [hread]
    congr 1
    cases count with
    | zero => rfl
    | succ count =>
      have hfull : builder.mPageSize.toNat ≤
          builder.execLength - slot * builder.mPageSize.toNat := by
        have hle : slot + 1 ≤ (builder.execLength - 1) / builder.mPageSize.toNat := by omega
        have hmul := (Nat.le_div_iff_mul_le hpos).mp hle
        rw [Nat.add_mul, Nat.one_mul] at hmul
        omega
      have hrest := @ih (slot + 1) (by omega)
      rw [← hrest, hthis, Nat.min_eq_right hfull, page, if_neg hpage, Nat.min_eq_right hfull,
        drop_length_take, List.drop_drop, Nat.add_mul, Nat.one_mul, Nat.sub_sub]

theorem pagesFrom_eq (builder : Builder) :
    builder.pagesFrom builder.codeSlots (builder.mExec.drop builder.mExecOffset.toNat)
      builder.execLength = (List.range builder.codeSlots).map builder.page := by
  by_cases hpage : builder.mPageSize = 0
  · by_cases hlen : builder.execLength = 0
    · have hnone : builder.codeSlots = 0 := by rw [codeSlots, if_pos hlen]
      rw [hnone]
      rfl
    · have hone : builder.codeSlots = 1 := by rw [codeSlots, if_neg hlen, if_pos hpage]
      have hread : readLimit (builder.mExec.drop builder.mExecOffset.toNat)
          (builder.thisPage builder.execLength) = builder.page 0 := by
        rw [thisPage, if_neg (by simpa using hpage), readLimit, if_neg hlen, page, if_pos hpage]
      rw [hone, pagesFrom, hread]
      rfl
  · have hpaged := @pagesFrom_paged builder hpage builder.codeSlots 0 (Nat.zero_add _)
    rw [Nat.zero_mul, List.drop_zero, Nat.sub_zero] at hpaged
    rw [hpaged, List.range_eq_range']
end Builder
end CodeDirectory
end SecurityFramework
