import SecurityFramework.CodeSigning.CodeDirectoryHashes

/-! # Built code directories read back -/

namespace SecurityFramework
open Memory

namespace CodeDirectory
namespace Builder
variable {hashing : Hashing} {builder : Builder} {mDir : List UInt8}

def codeDigests (hashing : Hashing) (builder : Builder) : List (List UInt8) :=
  (List.range builder.codeSlots).map fun slot =>
    hashing.digest builder.mHashType (builder.page slot)

/-- What a pre-encrypt slot is given: the digest of the page, the preserved hash, or nothing. -/
def preEncryptDigest (hashing : Hashing) (builder : Builder) (slot : Nat) : List UInt8 :=
  if builder.mGeneratePreEncryptHashes ∧ builder.mPreservedPreEncryptHashMap.isEmpty then
    hashing.digest builder.mHashType (builder.page slot)
  else
    match builder.mPreservedPreEncryptHashMap.lookup builder.mHashType.toNat with
    | none => List.replicate builder.mDigestLength 0
    | some preEncrypt =>
      (preEncrypt.drop (slot * builder.mDigestLength)).take builder.mDigestLength

/-- Preserved hashes of this hash type cover every code slot. -/
def PreservedFit (builder : Builder) : Prop :=
  ∀ preEncrypt, builder.mPreservedPreEncryptHashMap.lookup builder.mHashType.toNat =
    some preEncrypt → builder.codeSlots * builder.mDigestLength ≤ preEncrypt.length

theorem size_eq (h : builder.Regular) :
    builder.size builder.version = .ok (builder.sizeSum builder.version) := by
  have hlt := h.lt
  have hfixed : fixedSize builder.version < builder.sizeSum builder.version := by
    rw [sizeSum]
    omega
  rw [size, Nat.mod_eq_of_lt (by omega), if_neg (by omega)]

structure Opened (builder : Builder) (mDir : List UInt8) : Prop where
  prepared : builder.Prepared mDir
  special : ∀ slot, 1 ≤ slot → slot ≤ builder.mSpecialSlots →
    load mDir (builder.specialStart slot) builder.mDigestLength = some (builder.mSpecial slot)
  zero : builder.hasPreEncryptHashes → ∀ slot, slot < builder.codeSlots →
    load mDir (builder.preEncryptStart slot) builder.mDigestLength =
      some (List.replicate builder.mDigestLength 0)

theorem codeDigests_length : ∀ digest ∈ codeDigests hashing builder,
    digest.length = builder.mDigestLength := by
  intro digest hdigest
  obtain ⟨slot, -, rfl⟩ := List.mem_map.mp hdigest
  exact hashing.length_digest _ _

theorem build_regular (hashing : Hashing) (h : builder.Regular)
    (hstale : builder.mCodeSlots ≤ UINT32_MAX) :
    ∃ mDir, builder.Opened mDir ∧ build hashing builder =
      ((builder.fillSlots (codeDigests hashing builder) 0 mDir).bind
        builder.fillPreserved).map .ok := by
  have hsize := h.size_le
  rw [CodeDirectory.size] at hsize
  obtain ⟨hscatter, hident, hteam, hpre, hhashes, hhash⟩ := builder.offsets_le builder.version
  obtain ⟨mDir₁, hheader⟩ := exists_storeAll
    (List.replicate (builder.sizeSum builder.version) 0)
    (builder.headerWrites (builder.sizeSum builder.version) builder.version)
    (fun write hwrite => by
      have hle := builder.headerWrites_le _ _ write hwrite
      rw [List.length_replicate]
      omega)
  have hlen₁ := length_of_storeAll hheader
  rw [List.length_replicate] at hlen₁
  obtain ⟨mDir₂, hflex⟩ := exists_storeAll mDir₁ (builder.flexPlain builder.version)
    (fun write hwrite => by
      have hle := flexPlain_le write hwrite
      omega)
  have hprepared₂ := prepared_of_stores h hheader hflex
  obtain ⟨hlow, hend⟩ := builder.special_bounds le_rfl
  have hspecialAddress := getSlotMutable_special hprepared₂ (le_refl builder.mSpecialSlots)
  have hlen₂ := hprepared₂.length
  have hmul := Nat.mul_comm builder.mDigestLength builder.mSpecialSlots
  obtain ⟨mDir₃, hmemset⟩ := exists_store mDir₂ (builder.specialStart builder.mSpecialSlots)
    (List.replicate (builder.mDigestLength * builder.mSpecialSlots) 0)
    (by
      rw [List.length_replicate]
      omega)
  have hprepared₃ : builder.Prepared mDir₃ :=
    hprepared₂.of_frame (length_of_store hmemset) fun offset len hle =>
      load_store_of_disjoint hmemset (Or.inl (by omega))
  obtain ⟨mDir₄, hfill, hprepared₄, hslots, hframe⟩ := fillSpecial_spec hprepared₃ le_rfl
  have hcode : ¬builder.codeSlots > UINT32_MAX := by
    have hlt := codeSlots_lt h
    rw [UINT32_MAX]
    omega
  refine ⟨mDir₄, ⟨hprepared₄, hslots, ?_⟩, ?_⟩
  · -- the pre-encrypt hashes are still as `calloc` left them
    intro hhas slot hslot
    obtain ⟨-, -, hnext, hpreLe⟩ := builder.slot_bounds hslot
    have hpreEnd := hpreLe hhas
    have hfixed := builder.fixedSize_facts.2.2.2.2
      (by rw [builder.preEncrypt_version hhas]; decide)
    have hfirst : builder.preEncryptOffset builder.version ≤ builder.preEncryptStart slot :=
      Nat.le_add_right _ _
    have hle := builder.fixedSize_le_preEncryptOffset
    rw [hframe _ _ (Or.inl (by omega)), load_store_of_disjoint hmemset (Or.inl (by omega)),
      load_storeAll_of_avoids hflex, load_storeAll_of_avoids hheader,
      load_replicate (by omega)]
    · intro write hwrite
      have hle := builder.headerWrites_le _ _ write hwrite
      exact Or.inr (by omega)
    · intro write hwrite
      have hle := flexPlain_le write hwrite
      exact Or.inr (by omega)
  · simp only [build, size_eq h]
    rw [if_neg (by omega), hheader, flexWrites_eq h]
    simp only [Option.bind_eq_bind, Option.bind_some, hflex, hspecialAddress, hmemset, hfill]
    rw [if_neg hcode, fillCode_eq, pagesFrom_eq, List.map_map]
    simp only [codeDigests, Function.comp_def, Option.pure_def, Option.map_eq_bind]
    rw [Option.bind_assoc]

structure Built (hashing : Hashing) (builder : Builder) (cd : List UInt8) : Prop where
  prepared : builder.Prepared cd
  special : ∀ slot, 1 ≤ slot → slot ≤ builder.mSpecialSlots →
    load cd (builder.specialStart slot) builder.mDigestLength = some (builder.mSpecial slot)
  code : ∀ slot, slot < builder.codeSlots →
    load cd (builder.slotStart slot) builder.mDigestLength =
      some (hashing.digest builder.mHashType (builder.page slot))
  preEncrypt : builder.hasPreEncryptHashes → ∀ slot, slot < builder.codeSlots →
    load cd (builder.preEncryptStart slot) builder.mDigestLength =
      some (builder.preEncryptDigest hashing slot)

theorem built_of_filled {mDir' : List UInt8} (hopened : builder.Opened mDir)
    (hfilled : builder.Filled (codeDigests hashing builder) 0 mDir mDir') :
    (∀ slot, 1 ≤ slot → slot ≤ builder.mSpecialSlots →
      load mDir' (builder.specialStart slot) builder.mDigestLength =
        some (builder.mSpecial slot)) ∧
    (∀ slot, slot < builder.codeSlots →
      load mDir' (builder.slotStart slot) builder.mDigestLength =
        some (hashing.digest builder.mHashType (builder.page slot))) ∧
    (builder.Copies → ∀ slot, slot < builder.codeSlots →
      load mDir' (builder.preEncryptStart slot) builder.mDigestLength =
        some (hashing.digest builder.mHashType (builder.page slot))) ∧
    (builder.hasPreEncryptHashes → ¬builder.Copies → ∀ slot, slot < builder.codeSlots →
      load mDir' (builder.preEncryptStart slot) builder.mDigestLength =
        some (List.replicate builder.mDigestLength 0)) := by
  have hcount : (codeDigests hashing builder).length = builder.codeSlots := by
    rw [codeDigests, List.length_map, List.length_range]
  have hget (slot : Nat) (hslot : slot < (codeDigests hashing builder).length) :
      (codeDigests hashing builder)[slot] =
        hashing.digest builder.mHashType (builder.page slot) := by
    simp [codeDigests]
  refine ⟨?_, ?_, ?_, ?_⟩
  · intro slot hone hslot
    obtain ⟨hlow, hend⟩ := builder.special_bounds hslot
    have hmul : builder.mDigestLength ≤ slot * builder.mDigestLength :=
      Nat.le_mul_of_pos_left _ hone
    have hstart : builder.slotStart 0 = builder.hashOffset builder.version := by
      rw [slotStart, Nat.zero_mul, Nat.add_zero]
    rw [hfilled.frame _ _ (Or.inr ⟨hlow, by omega⟩), hopened.special slot hone hslot]
  · intro slot hslot
    have hmain := hfilled.main slot (by omega)
    rw [Nat.zero_add, hget] at hmain
    exact hmain
  · intro hcopies slot hslot
    have hcopy := hfilled.copies hcopies slot (by omega)
    rw [Nat.zero_add, hget] at hcopy
    exact hcopy
  · intro hhas hcopies slot hslot
    obtain ⟨-, -, hnext, hpreLe⟩ := builder.slot_bounds hslot
    have hpreEnd := hpreLe hhas
    obtain ⟨-, -, -, -, hhashes, -⟩ := builder.offsets_le builder.version
    have hstart : builder.slotStart 0 = builder.hashOffset builder.version := by
      rw [slotStart, Nat.zero_mul, Nat.add_zero]
    rw [hfilled.frame_of_not_copies hcopies _ _ (by omega), hopened.zero hhas slot hslot]

theorem load_slot_of_load {cd hashes : List UInt8} {start width count slot : Nat}
    (h : load cd start (count * width) = some hashes) (hslot : slot < count) :
    load cd (start + slot * width) width = some ((hashes.drop (slot * width)).take width) := by
  have hlen := length_of_load h
  have hmul : (slot + 1) * width ≤ count * width := Nat.mul_le_mul_right _ hslot
  rw [Nat.add_mul, Nat.one_mul] at hmul
  rw [← load_of_load h hmul, load, if_pos (by omega)]

theorem fillPreserved_spec {mDir' : List UInt8} (hopened : builder.Opened mDir)
    (hfilled : builder.Filled (codeDigests hashing builder) 0 mDir mDir')
    (hfit : builder.PreservedFit) :
    ∃ cd, builder.fillPreserved mDir' = some cd ∧ builder.Built hashing cd := by
  obtain ⟨hspecial, hcode, hcopies, hzero⟩ := built_of_filled hopened hfilled
  cases hlookup : builder.mPreservedPreEncryptHashMap.lookup builder.mHashType.toNat with
  | none =>
    refine ⟨mDir', ?_, hfilled.prepared, hspecial, hcode, ?_⟩
    · rw [fillPreserved, hlookup]
    · intro hhas slot hslot
      rw [preEncryptDigest]
      by_cases hcopy : builder.Copies
      · have hcond : builder.mGeneratePreEncryptHashes = true ∧
          builder.mPreservedPreEncryptHashMap.isEmpty = true := hcopy
        rw [if_pos hcond, hcopies hcopy slot hslot]
      · have hcond : ¬(builder.mGeneratePreEncryptHashes = true ∧
          builder.mPreservedPreEncryptHashMap.isEmpty = true) := hcopy
        rw [if_neg hcond, hlookup, hzero hhas hcopy slot hslot]
  | some preEncrypt =>
    have hle := hfit preEncrypt hlookup
    have hnonempty : builder.mPreservedPreEncryptHashMap ≠ [] := by
      intro hnil
      rw [hnil] at hlookup
      simp at hlookup
    have hhas : builder.hasPreEncryptHashes := by
      simp [Builder.hasPreEncryptHashes, hnonempty]
    have hcond : ¬(builder.mGeneratePreEncryptHashes = true ∧
        builder.mPreservedPreEncryptHashMap.isEmpty = true) := by
      simp [hnonempty]
    obtain ⟨hashes, hhashes⟩ := Option.isSome_iff_exists.mp
      (load_isSome_iff.mpr (show 0 + builder.codeSlots * builder.mDigestLength ≤
        preEncrypt.length by omega))
    have hlen := length_of_load hhashes
    obtain ⟨-, -, -, -, hhashStart, hhash⟩ := builder.offsets_le builder.version
    have hpreEnd : builder.hashesOffset builder.version =
        builder.preEncryptOffset builder.version +
          builder.codeSlots * builder.mDigestLength := by
      rw [hashesOffset, if_pos hhas]
    have haddress : getSlotMutable mDir' 0 true = some (builder.preEncryptOffset builder.version) := by
      apply getSlotMutable_preEncrypt hfilled.prepared hhas <;> simp
    have hlength := hfilled.prepared.length
    obtain ⟨cd, hstore⟩ := exists_store mDir' (builder.preEncryptOffset builder.version) hashes
      (by omega)
    have hsame := load_store_same hstore
    rw [hlen] at hsame
    refine ⟨cd, ?_, ?_, ?_, ?_, ?_⟩
    · simp only [fillPreserved, hlookup, hhashes, Option.bind_eq_bind, Option.bind_some,
        haddress, hstore]
    · exact hfilled.prepared.of_frame (length_of_store hstore) fun offset len hle =>
        load_store_of_disjoint hstore (Or.inl hle)
    · intro slot hone hslot
      obtain ⟨hlow, -⟩ := builder.special_bounds hslot
      rw [load_store_of_disjoint hstore (Or.inr (by omega)), hspecial slot hone hslot]
    · intro slot hslot
      have hstart : builder.hashOffset builder.version ≤ builder.slotStart slot :=
        Nat.le_add_right _ _
      rw [load_store_of_disjoint hstore (Or.inr (by omega)), hcode slot hslot]
    · intro _ slot hslot
      have hslotLoad := load_slot_of_load hsame hslot
      rw [preEncryptDigest, if_neg hcond, hlookup, preEncryptStart, hslotLoad]
      obtain ⟨-, hfront⟩ := load_eq_some_iff.mp hhashes
      have hmul : (slot + 1) * builder.mDigestLength ≤ builder.codeSlots * builder.mDigestLength :=
        Nat.mul_le_mul_right _ hslot
      rw [Nat.add_mul, Nat.one_mul] at hmul
      rw [hfront, List.drop_zero, List.drop_take, List.take_take, Nat.min_eq_left (by omega)]

theorem preservedFit_of_fillPreserved {mDir' cd : List UInt8}
    (h : builder.fillPreserved mDir' = some cd) : builder.PreservedFit := by
  intro preEncrypt hlookup
  simp only [fillPreserved, hlookup] at h
  obtain ⟨hashes, hhashes, -⟩ := Option.bind_eq_some_iff.mp h
  have hle := (load_eq_some_iff.mp hhashes).1
  omega

/-- A builder that runs through had addresses in the range of `int` and enough preserved
hashes. -/
theorem fits_of_build (h : builder.Regular) (hstale : builder.mCodeSlots ≤ UINT32_MAX)
    {cd : List UInt8} (hbuilt : build hashing builder = some (.ok cd)) :
    (∀ slot, slot < builder.codeSlots → builder.mDigestLength * slot < 2 ^ 31) ∧
      builder.PreservedFit := by
  obtain ⟨mDir, hopened, hbuild⟩ := build_regular hashing h hstale
  have hcount : (codeDigests hashing builder).length = builder.codeSlots := by
    rw [codeDigests, List.length_map, List.length_range]
  rw [hbuild] at hbuilt
  obtain ⟨cd', hrun, -⟩ := Option.map_eq_some_iff.mp hbuilt
  obtain ⟨mDir', hfill, hpreserved⟩ := Option.bind_eq_some_iff.mp hrun
  refine ⟨?_, preservedFit_of_fillPreserved hpreserved⟩
  intro slot hslot
  have hint := int_of_fillSlots hopened.prepared h (by omega) codeDigests_length hfill slot
    (by omega)
  rwa [Nat.zero_add] at hint

/-- Where it runs through, the builder leaves what it was given. -/
theorem exists_built (hashing : Hashing) (h : builder.Regular)
    (hstale : builder.mCodeSlots ≤ UINT32_MAX)
    (hint : ∀ slot, slot < builder.codeSlots → builder.mDigestLength * slot < 2 ^ 31)
    (hfit : builder.PreservedFit) :
    ∃ cd, build hashing builder = some (.ok cd) ∧ builder.Built hashing cd := by
  obtain ⟨mDir, hopened, hbuild⟩ := build_regular hashing h hstale
  have hcount : (codeDigests hashing builder).length = builder.codeSlots := by
    rw [codeDigests, List.length_map, List.length_range]
  obtain ⟨mDir', hfill, hfilled⟩ := fillSlots_spec hopened.prepared h
    (show 0 + (codeDigests hashing builder).length ≤ builder.codeSlots by omega)
    (fun j hj => by
      rw [Nat.zero_add]
      exact hint j (by omega)) codeDigests_length
  obtain ⟨cd, hpreserved, hbuilt⟩ := fillPreserved_spec hopened hfilled hfit
  refine ⟨cd, ?_, hbuilt⟩
  rw [hbuild, hfill, Option.bind_some, hpreserved]
  rfl
end Builder
end CodeDirectory
end SecurityFramework
