import SecurityFramework.CodeSigning.CodeDirectoryBuilder
import SecurityFramework.CodeSigning.CodeDirectoryIntegrity

/-! # The layout that the builder writes -/

namespace SecurityFramework
open Memory

namespace CodeDirectory
namespace Builder
variable (builder : Builder)

theorem version_cases :
    (builder.version = supportsScatter ∧ builder.hasPreEncryptHashes = false ∧
        builder.mTeamID = []) ∨
      (builder.version = supportsTeamID ∧ builder.hasPreEncryptHashes = false) ∨
      (builder.version = supportsCodeLimit64 ∧ builder.hasPreEncryptHashes = false) ∨
      (builder.version = supportsExecSegment ∧ builder.hasPreEncryptHashes = false) ∨
      builder.version = currentVersion := by
  unfold version
  by_cases hpre : builder.hasPreEncryptHashes ∨ builder.mRuntimeVersion ≠ 0
  · simp [hpre]
  · have hnone : builder.hasPreEncryptHashes = false := by
      simpa using (not_or.mp hpre).1
    rw [if_neg hpre]
    by_cases hexec : builder.mExecSegLimit > 0
    · simp [hexec, hnone]
    · rw [if_neg hexec]
      by_cases hlimit : builder.mExecLength.toNat > UINT32_MAX
      · simp [hlimit, hnone]
      · rw [if_neg hlimit]
        by_cases hteam : builder.mTeamID = []
        · simp [hteam, hnone]
        · simp [hteam, hnone]

theorem fixedSize_facts :
    48 ≤ fixedSize builder.version ∧ fixedSize builder.version ≤ 96 ∧
      (supportsTeamID ≤ builder.version → 52 ≤ fixedSize builder.version) ∧
      (supportsCodeLimit64 ≤ builder.version → 64 ≤ fixedSize builder.version) ∧
      (supportsPreEncrypt ≤ builder.version → 96 ≤ fixedSize builder.version) := by
  rcases builder.version_cases with ⟨h, -⟩ | ⟨h, -⟩ | ⟨h, -⟩ | ⟨h, -⟩ | h <;> rw [h] <;> decide

theorem teamID_version (h : builder.mTeamID ≠ []) : supportsTeamID ≤ builder.version := by
  rcases builder.version_cases with ⟨-, -, hteam⟩ | ⟨hv, -⟩ | ⟨hv, -⟩ | ⟨hv, -⟩ | hv
  · exact absurd hteam h
  · exact hv.ge
  · exact hv ▸ (by decide : supportsTeamID ≤ supportsCodeLimit64)
  · exact hv ▸ (by decide : supportsTeamID ≤ supportsExecSegment)
  · exact hv ▸ (by decide : supportsTeamID ≤ currentVersion)

theorem preEncrypt_version (h : builder.hasPreEncryptHashes) :
    builder.version = currentVersion := by
  rcases builder.version_cases with ⟨-, hpre, -⟩ | ⟨-, hpre⟩ | ⟨-, hpre⟩ | ⟨-, hpre⟩ | hv
  · simp [hpre] at h
  · simp [hpre] at h
  · simp [hpre] at h
  · simp [hpre] at h
  · exact hv

theorem version_bounds :
    supportsScatter ≤ builder.version ∧ builder.version ≤ currentVersion := by
  rcases builder.version_cases with ⟨h, -⟩ | ⟨h, -⟩ | ⟨h, -⟩ | ⟨h, -⟩ | h <;> rw [h] <;> decide

theorem endOffset_eq (version : Nat) : builder.endOffset version = builder.sizeSum version := by
  simp only [endOffset, hashesOffset, preEncryptOffset, teamIDOffset, identOffset, scatterOffset,
    sizeSum, Nat.add_mul]
  omega

theorem digestLength_bounds : 20 ≤ builder.mDigestLength ∧ builder.mDigestLength ≤ 48 := by
  unfold mDigestLength
  cases builder.mHashType <;> decide

structure Regular : Prop where
  size_le : CodeDirectory.size ≤ builder.sizeSum builder.version
  lt : builder.sizeSum builder.version < 2 ^ 32

theorem headerWrites_apart (total version : Nat) :
    (builder.headerWrites total version).Pairwise Write.Apart := by
  unfold headerWrites
  split <;> simp [Write.Apart]

theorem headerWrites_le (total version : Nat) :
    ∀ write ∈ builder.headerWrites total version, write.1 + write.2.length ≤ 92 := by
  unfold headerWrites
  split <;> simp

theorem headerWrites_avoid (total version : Nat) (offset len : Nat)
    (h : (40 ≤ offset ∧ offset + len ≤ 56) ∨ 92 ≤ offset) :
    ∀ write ∈ builder.headerWrites total version, write.Avoids offset len := by
  unfold headerWrites Write.Avoids
  split <;> simp <;> omega

/-- The flexible fields and data, where no offset leaves 32 bits. -/
def flexPlain (version : Nat) : List Write :=
  (match builder.mScatter with
    | none => []
    | some _ =>
      [(44, toBE 4 (scatterOffset version)), (scatterOffset version, builder.scatterOctets)]) ++
  [(20, toBE 4 (builder.identOffset version)),
    (builder.identOffset version, builder.mIdentifier ++ [0])] ++
  (if builder.mTeamID ≠ [] then
    [(48, toBE 4 (builder.teamIDOffset version)),
      (builder.teamIDOffset version, builder.mTeamID ++ [0])]
  else []) ++
  (if builder.hasPreEncryptHashes then
    [(92, toBE 4 (builder.preEncryptOffset version))]
  else []) ++
  [(16, toBE 4 (builder.hashOffset version))]

theorem offsets_le (version : Nat) :
    scatterOffset version ≤ builder.identOffset version ∧
      builder.identOffset version < builder.teamIDOffset version ∧
      builder.teamIDOffset version ≤ builder.preEncryptOffset version ∧
      builder.preEncryptOffset version ≤ builder.hashesOffset version ∧
      builder.hashesOffset version ≤ builder.hashOffset version ∧
      builder.hashOffset version ≤ builder.sizeSum version := by
  have hend := builder.endOffset_eq version
  simp only [endOffset, Nat.add_mul] at hend
  refine ⟨?_, ?_, ?_, ?_, ?_, ?_⟩
  · exact Nat.le_add_right _ _
  · exact Nat.lt_add_of_pos_right (Nat.succ_pos _)
  · exact Nat.le_add_right _ _
  · exact Nat.le_add_right _ _
  · exact Nat.le_add_right _ _
  · rw [hashOffset]
    omega

variable {builder}

theorem flexWrites_eq (h : builder.Regular) :
    builder.flexWrites builder.version = some (builder.flexPlain builder.version) := by
  obtain ⟨hscatter, hident, hteam, hpre, hhashes, hhash⟩ := builder.offsets_le builder.version
  have hfixed := builder.fixedSize_facts.1
  have hlt := h.lt
  have hfirst : fixedSize builder.version = scatterOffset builder.version := rfl
  have hnotNull : ¬(builder.mTeamID ≠ [] ∧ builder.teamIDOffset builder.version = 0) := by
    omega
  have hscatterOffset := Nat.mod_eq_of_lt (show scatterOffset builder.version < 2 ^ 32 by omega)
  have hidentOffset := Nat.mod_eq_of_lt (show builder.identOffset builder.version < 2 ^ 32 by omega)
  have hteamOffset := Nat.mod_eq_of_lt (show builder.teamIDOffset builder.version < 2 ^ 32 by omega)
  cases hcase : builder.mScatter <;>
    simp only [flexWrites, flexPlain, hcase, hscatterOffset, hidentOffset, hteamOffset,
      if_neg hnotNull]

/-- Where the flexible data stand, and the fixed parts that their offsets need. -/
theorem flex_layout (builder : Builder) :
    fixedSize builder.version = scatterOffset builder.version ∧
      builder.identOffset builder.version =
        scatterOffset builder.version + builder.scatterOctets.length ∧
      builder.teamIDOffset builder.version =
        builder.identOffset builder.version + (builder.mIdentifier.length + 1) ∧
      (builder.mTeamID ≠ [] → builder.preEncryptOffset builder.version =
        builder.teamIDOffset builder.version + (builder.mTeamID.length + 1)) ∧
      (builder.mTeamID ≠ [] → 52 ≤ fixedSize builder.version) ∧
      (builder.hasPreEncryptHashes → 96 ≤ fixedSize builder.version) := by
  obtain ⟨-, -, hteamFixed, -, hpreFixed⟩ := builder.fixedSize_facts
  refine ⟨rfl, rfl, rfl, fun hne => by rw [preEncryptOffset, if_pos hne],
    fun hne => hteamFixed (builder.teamID_version hne), fun hhas => hpreFixed ?_⟩
  rw [builder.preEncrypt_version hhas]
  decide

theorem flexPlain_apart : (builder.flexPlain builder.version).Pairwise Write.Apart := by
  obtain ⟨hscatter, hident, hteam, hpre, hhashes, hhash⟩ := builder.offsets_le builder.version
  obtain ⟨hfirst, hscatterEnd, hidentEnd, hteamEnd, hteamLow, hpreLow⟩ := builder.flex_layout
  have hfixed := builder.fixedSize_facts.1
  rw [hfirst] at hfixed hteamLow hpreLow
  unfold flexPlain
  cases hs : builder.mScatter <;> by_cases ht : builder.mTeamID = [] <;>
    cases hp : builder.hasPreEncryptHashes <;>
    simp only [ht, hp, ne_eq, not_true_eq_false, not_false_eq_true, false_implies,
      Bool.false_eq_true, forall_const] at hteamEnd hteamLow hpreLow <;>
    simp [ht, Write.Apart] <;> omega

/-- Every fixed field and every flexible one is in place, up to the hashes. The fields beyond
the fixed size of the version are part of the data. -/
structure Prepared (builder : Builder) (mDir : List UInt8) : Prop where
  length : mDir.length = builder.sizeSum builder.version
  magic : loadBE mDir 0 4 = some typeMagic
  size : loadBE mDir 4 4 = some (builder.sizeSum builder.version)
  version : loadBE mDir 8 4 = some builder.version
  flags : loadBE mDir 12 4 = some builder.mFlags.toNat
  hashOffset : loadBE mDir 16 4 = some (builder.hashOffset builder.version)
  identOffset : loadBE mDir 20 4 = some (builder.identOffset builder.version)
  nSpecialSlots : loadBE mDir 24 4 = some builder.mSpecialSlots
  nCodeSlots : loadBE mDir 28 4 = some builder.codeSlots
  codeLimit : loadBE mDir 32 4 = some (min builder.execLength UINT32_MAX)
  hashSize : loadBE mDir 36 1 = some builder.mDigestLength
  hashType : loadBE mDir 37 1 = some builder.mHashType.toNat
  pageSize : loadBE mDir 39 1 =
    some (if builder.mPageSize = 0 then 0 else builder.mPageSize.toNat.log2)
  scatterOffset : loadBE mDir 44 4 =
    some (if builder.mScatter = none then 0 else Builder.scatterOffset builder.version)
  teamIDOffset : supportsTeamID ≤ builder.version → loadBE mDir 48 4 =
    some (if builder.mTeamID ≠ [] then builder.teamIDOffset builder.version else 0)
  codeLimit64 : supportsCodeLimit64 ≤ builder.version → loadBE mDir 56 8 =
    some (if builder.execLength > UINT32_MAX then builder.execLength else 0)
  preEncryptOffset : supportsPreEncrypt ≤ builder.version → loadBE mDir 92 4 =
    some (if builder.hasPreEncryptHashes then builder.preEncryptOffset builder.version else 0)
  scatter : load mDir (Builder.scatterOffset builder.version) builder.mScatterSize =
    some builder.scatterOctets
  identifier : load mDir (builder.identOffset builder.version) (builder.mIdentifier.length + 1) =
    some (builder.mIdentifier ++ [0])
  teamID : builder.mTeamID ≠ [] →
    load mDir (builder.teamIDOffset builder.version) (builder.mTeamID.length + 1) =
      some (builder.mTeamID ++ [0])

theorem flexPlain_le :
    ∀ write ∈ builder.flexPlain builder.version,
      write.1 + write.2.length ≤ builder.preEncryptOffset builder.version := by
  obtain ⟨hscatter, hident, hteam, -, -, -⟩ := builder.offsets_le builder.version
  obtain ⟨hfirst, hscatterEnd, hidentEnd, hteamEnd, hteamLow, hpreLow⟩ := builder.flex_layout
  have hfixed := builder.fixedSize_facts.1
  intro write hwrite
  simp only [flexPlain, List.mem_append] at hwrite
  rcases hwrite with (((hwrite | hwrite) | hwrite) | hwrite) | hwrite
  · cases hs : builder.mScatter with
    | none => simp [hs] at hwrite
    | some scatter =>
      simp only [hs, List.mem_cons, List.not_mem_nil, or_false] at hwrite
      rcases hwrite with rfl | rfl <;> simp <;> omega
  · simp only [List.mem_cons, List.not_mem_nil, or_false] at hwrite
    rcases hwrite with rfl | rfl <;> simp <;> omega
  · by_cases hne : builder.mTeamID ≠ []
    · have hend := hteamEnd hne
      have hlow := hteamLow hne
      simp only [if_pos hne, List.mem_cons, List.not_mem_nil, or_false] at hwrite
      rcases hwrite with rfl | rfl <;> simp <;> omega
    · simp [hne] at hwrite
  · by_cases hhas : builder.hasPreEncryptHashes
    · have hlow := hpreLow hhas
      simp only [if_pos hhas, List.mem_singleton] at hwrite
      subst hwrite
      simp
      omega
    · simp [hhas] at hwrite
  · simp only [List.mem_singleton] at hwrite
    subst hwrite
    simp
    omega

theorem flexPlain_avoid {offset len : Nat} (hlow : offset + len ≤ fixedSize builder.version)
    (h16 : offset + len ≤ 16 ∨ 24 ≤ offset)
    (h44 : builder.mScatter = none ∨ offset + len ≤ 44 ∨ 48 ≤ offset)
    (h48 : builder.mTeamID = [] ∨ offset + len ≤ 48 ∨ 52 ≤ offset)
    (h92 : builder.hasPreEncryptHashes = false ∨ offset + len ≤ 92 ∨ 96 ≤ offset) :
    ∀ write ∈ builder.flexPlain builder.version, write.Avoids offset len := by
  obtain ⟨hscatter, hident, hteam, -, -, -⟩ := builder.offsets_le builder.version
  have hfirst : fixedSize builder.version = scatterOffset builder.version := rfl
  intro write hwrite
  simp only [flexPlain, List.mem_append] at hwrite
  rcases hwrite with (((hwrite | hwrite) | hwrite) | hwrite) | hwrite
  · cases hs : builder.mScatter with
    | none => simp [hs] at hwrite
    | some scatter =>
      simp only [hs, List.mem_cons, List.not_mem_nil, or_false, reduceCtorEq, false_or] at hwrite h44
      rcases hwrite with rfl | rfl <;> simp [Write.Avoids] <;> omega
  · simp only [List.mem_cons, List.not_mem_nil, or_false] at hwrite
    rcases hwrite with rfl | rfl <;> simp [Write.Avoids] <;> omega
  · by_cases hne : builder.mTeamID = []
    · simp [hne] at hwrite
    · simp only [ne_eq, hne, not_false_eq_true, if_true, List.mem_cons, List.not_mem_nil,
        or_false, false_or] at hwrite h48
      rcases hwrite with rfl | rfl <;> simp [Write.Avoids] <;> omega
  · by_cases hhas : builder.hasPreEncryptHashes = true
    · simp only [hhas, if_true, List.mem_singleton, Bool.true_eq_false, false_or] at hwrite h92
      subst hwrite
      simp [Write.Avoids]
      omega
    · simp [hhas] at hwrite
  · simp only [List.mem_singleton] at hwrite
    subst hwrite
    simp [Write.Avoids]
    omega

theorem execLength_lt (builder : Builder) : builder.execLength < 2 ^ 64 := by
  unfold execLength
  split
  · exact Nat.mod_lt _ (by decide)
  · exact builder.mExecLength.toNat_lt

theorem codeSlots_mul_le (builder : Builder) (version : Nat) :
    builder.codeSlots * builder.mDigestLength ≤ builder.sizeSum version := by
  have hend := builder.endOffset_eq version
  rw [endOffset, Nat.add_mul] at hend
  omega

theorem codeSlots_lt (h : builder.Regular) : builder.codeSlots < 2 ^ 32 := by
  have hmul := builder.codeSlots_mul_le builder.version
  have hdigest := builder.digestLength_bounds.1
  have hle : builder.codeSlots * 1 ≤ builder.codeSlots * builder.mDigestLength :=
    Nat.mul_le_mul_left _ (by omega)
  have hlt := h.lt
  omega

theorem pageLog_lt (builder : Builder) :
    (if builder.mPageSize = 0 then 0 else builder.mPageSize.toNat.log2) < 64 := by
  split
  · decide
  · rename_i hne
    have hnat : builder.mPageSize.toNat ≠ 0 := fun hzero => hne (UInt64.toNat_inj.mp hzero)
    exact (Nat.log2_lt hnat).mpr builder.mPageSize.toNat_lt

section Fill

variable {filled mDir : List UInt8}

theorem loadBE_header
    (hheader : storeAll (List.replicate (builder.sizeSum builder.version) 0)
      (builder.headerWrites (builder.sizeSum builder.version) builder.version) = some filled)
    (hflex : storeAll filled (builder.flexPlain builder.version) = some mDir)
    {offset width value : Nat}
    (hmem : (offset, toBE width value) ∈
      builder.headerWrites (builder.sizeSum builder.version) builder.version)
    (hlow : offset + width ≤ 44) (h16 : offset + width ≤ 16 ∨ 24 ≤ offset)
    (hvalue : value < 256 ^ width) : loadBE mDir offset width = some value := by
  have hfixed := builder.fixedSize_facts.1
  have havoid := @flexPlain_avoid builder offset width (by omega) h16 (by omega) (by omega)
    (by omega)
  rw [loadBE_congr (load_storeAll_of_avoids hflex havoid),
    loadBE_storeAll_of_mem hheader (builder.headerWrites_apart _ _) hmem, Nat.mod_eq_of_lt hvalue]

theorem loadBE_flex (hflex : storeAll filled (builder.flexPlain builder.version) = some mDir)
    {offset width value : Nat}
    (hmem : (offset, toBE width value) ∈ builder.flexPlain builder.version)
    (hvalue : value < 256 ^ width) : loadBE mDir offset width = some value := by
  rw [loadBE_storeAll_of_mem hflex flexPlain_apart hmem, Nat.mod_eq_of_lt hvalue]

theorem loadBE_untouched (h : builder.Regular)
    (hheader : storeAll (List.replicate (builder.sizeSum builder.version) 0)
      (builder.headerWrites (builder.sizeSum builder.version) builder.version) = some filled)
    (hflex : storeAll filled (builder.flexPlain builder.version) = some mDir)
    {offset width : Nat} (hin : offset + width ≤ 96)
    (hheaderAvoid : ∀ write ∈ builder.headerWrites (builder.sizeSum builder.version)
      builder.version, write.Avoids offset width)
    (hflexAvoid : ∀ write ∈ builder.flexPlain builder.version, write.Avoids offset width) :
    loadBE mDir offset width = some 0 := by
  have hsize := h.size_le
  rw [CodeDirectory.size] at hsize
  rw [loadBE_congr (load_storeAll_of_avoids hflex hflexAvoid),
    loadBE_congr (load_storeAll_of_avoids hheader hheaderAvoid),
    loadBE_replicate_zero (by omega)]

theorem prepared_of_stores (h : builder.Regular)
    (hheader : storeAll (List.replicate (builder.sizeSum builder.version) 0)
      (builder.headerWrites (builder.sizeSum builder.version) builder.version) = some filled)
    (hflex : storeAll filled (builder.flexPlain builder.version) = some mDir) :
    builder.Prepared mDir := by
  have hlt := h.lt
  have hcode := codeSlots_lt h
  have hspecial := builder.specialSlots_le
  have hdigest := builder.digestLength_bounds
  have hversion := builder.version_bounds
  have hlimit := builder.execLength_lt
  have hpageLog := builder.pageLog_lt
  obtain ⟨hfixed, hfixedLe, hteamFixed, hlimitFixed, hpreFixed⟩ := builder.fixedSize_facts
  obtain ⟨hscatter, hident, hteam, hpre, hhashes, hhash⟩ := builder.offsets_le builder.version
  rw [cdSlotMax] at hspecial
  rw [currentVersion] at hversion
  constructor
  · rw [length_of_storeAll hflex, length_of_storeAll hheader, List.length_replicate]
  · exact loadBE_header hheader hflex (by simp [headerWrites]) (by decide) (by decide) (by decide)
  · exact loadBE_header hheader hflex (by simp [headerWrites]) (by decide) (by decide) (by omega)
  · exact loadBE_header hheader hflex (by simp [headerWrites]) (by decide) (by decide) (by omega)
  · exact loadBE_header hheader hflex (by simp [headerWrites]) (by decide) (by decide)
      builder.mFlags.toNat_lt
  · exact loadBE_flex hflex (by simp [flexPlain]) (by omega)
  · exact loadBE_flex hflex (by simp [flexPlain]) (by omega)
  · exact loadBE_header hheader hflex (by simp [headerWrites]) (by decide) (by decide) (by omega)
  · exact loadBE_header hheader hflex (by simp [headerWrites]) (by decide) (by decide) (by omega)
  · by_cases hlong : builder.execLength > UINT32_MAX
    · rw [Nat.min_eq_right (by omega)]
      exact loadBE_header hheader hflex (by simp [headerWrites, hlong]) (by decide) (by decide)
        (by decide)
    · rw [Nat.min_eq_left (by omega)]
      have hshort : builder.execLength < 2 ^ 32 := by
        rw [UINT32_MAX] at hlong
        omega
      exact loadBE_header hheader hflex (by simp [headerWrites, hlong]) (by decide) (by decide)
        hshort
  · exact loadBE_header hheader hflex (by simp [headerWrites]) (by decide) (by decide) (by omega)
  · apply loadBE_header hheader hflex (by simp [headerWrites]) (by decide) (by decide)
    cases builder.mHashType <;> decide
  · exact loadBE_header hheader hflex (by simp [headerWrites]) (by decide) (by decide) (by omega)
  · cases hs : builder.mScatter with
    | none =>
      rw [if_pos rfl]
      apply loadBE_untouched h hheader hflex (by decide)
      · exact builder.headerWrites_avoid _ _ 44 4 (by decide)
      · exact flexPlain_avoid hfixed (by decide) (Or.inl hs) (by omega) (by omega)
    | some scatter =>
      rw [if_neg (by simp)]
      exact loadBE_flex hflex (by simp [flexPlain, hs]) (by omega)
  · intro hsupports
    by_cases hne : builder.mTeamID = []
    · rw [if_neg (by simpa using hne)]
      apply loadBE_untouched h hheader hflex (by decide)
      · exact builder.headerWrites_avoid _ _ 48 4 (by decide)
      · exact flexPlain_avoid (hteamFixed hsupports) (by decide) (by omega) (Or.inl hne) (by omega)
    · rw [if_pos hne]
      exact loadBE_flex hflex (by simp [flexPlain, hne]) (by omega)
  · intro hsupports
    have havoid := @flexPlain_avoid builder 56 8 (hlimitFixed hsupports) (by decide) (by omega)
      (by omega) (by omega)
    by_cases hlong : builder.execLength > UINT32_MAX
    · have hmem : (56, toBE 8 builder.execLength) ∈
          builder.headerWrites (builder.sizeSum builder.version) builder.version := by
        simp [headerWrites, hlong]
      rw [if_pos hlong, loadBE_congr (load_storeAll_of_avoids hflex havoid),
        loadBE_storeAll_of_mem hheader (builder.headerWrites_apart _ _) hmem,
        Nat.mod_eq_of_lt (by omega)]
    · rw [if_neg hlong]
      apply loadBE_untouched h hheader hflex (by decide) _ havoid
      simp [headerWrites, hlong, Write.Avoids]
  · intro hsupports
    by_cases hhas : builder.hasPreEncryptHashes = true
    · rw [if_pos hhas]
      exact loadBE_flex hflex (by simp [flexPlain, hhas]) (by omega)
    · rw [if_neg hhas]
      apply loadBE_untouched h hheader hflex (by decide)
      · exact builder.headerWrites_avoid _ _ 92 4 (by decide)
      · exact flexPlain_avoid (hpreFixed hsupports) (by decide) (by omega) (by omega)
          (Or.inl (by simpa using hhas))
  · cases hs : builder.mScatter with
    | none =>
      have hnone : builder.scatterOctets = [] := by simp [scatterOctets, hs]
      have hlength := (length_of_storeAll hflex).trans (length_of_storeAll hheader)
      rw [List.length_replicate] at hlength
      rw [mScatterSize, hnone, load_eq_some_iff]
      simp
      omega
    | some scatter =>
      exact @load_storeAll_of_mem _ _ _
        (scatterOffset builder.version, builder.scatterOctets) hflex flexPlain_apart
        (by simp [flexPlain, hs])
  · have hload := @load_storeAll_of_mem _ _ _
      (builder.identOffset builder.version, builder.mIdentifier ++ [0]) hflex flexPlain_apart
      (by simp [flexPlain])
    simpa using hload
  · intro hne
    have hload := @load_storeAll_of_mem _ _ _
      (builder.teamIDOffset builder.version, builder.mTeamID ++ [0]) hflex flexPlain_apart
      (by simp [flexPlain, hne])
    simpa using hload
end Fill

theorem fixedSize_le_preEncryptOffset (builder : Builder) :
    fixedSize builder.version ≤ builder.preEncryptOffset builder.version := by
  obtain ⟨hscatter, hident, hteam, -, -, -⟩ := builder.offsets_le builder.version
  have hfirst : fixedSize builder.version = scatterOffset builder.version := rfl
  omega

theorem Prepared.of_frame {mDir mDir' : List UInt8} (h : builder.Prepared mDir)
    (hlength : mDir'.length = mDir.length)
    (hframe : ∀ offset len, offset + len ≤ builder.preEncryptOffset builder.version →
      load mDir' offset len = load mDir offset len) : builder.Prepared mDir' := by
  obtain ⟨hfixed, -, hteamFixed, hlimitFixed, hpreFixed⟩ := builder.fixedSize_facts
  obtain ⟨hscatter, hident, hteam, -, -, -⟩ := builder.offsets_le builder.version
  have hle := builder.fixedSize_le_preEncryptOffset
  have hfield {offset width value : Nat} (hin : offset + width ≤ fixedSize builder.version)
      (hload : loadBE mDir offset width = some value) :
      loadBE mDir' offset width = some value := by
    rw [loadBE_congr (hframe offset width (by omega)), hload]
  constructor
  · rw [hlength, h.length]
  · exact hfield (by omega) h.magic
  · exact hfield (by omega) h.size
  · exact hfield (by omega) h.version
  · exact hfield (by omega) h.flags
  · exact hfield (by omega) h.hashOffset
  · exact hfield (by omega) h.identOffset
  · exact hfield (by omega) h.nSpecialSlots
  · exact hfield (by omega) h.nCodeSlots
  · exact hfield (by omega) h.codeLimit
  · exact hfield (by omega) h.hashSize
  · exact hfield (by omega) h.hashType
  · exact hfield (by omega) h.pageSize
  · exact hfield (by omega) h.scatterOffset
  · exact fun hsupports => hfield (hteamFixed hsupports) (h.teamIDOffset hsupports)
  · exact fun hsupports => hfield (hlimitFixed hsupports) (h.codeLimit64 hsupports)
  · exact fun hsupports => hfield (hpreFixed hsupports) (h.preEncryptOffset hsupports)
  · have hend : Builder.scatterOffset builder.version + builder.mScatterSize =
        builder.identOffset builder.version := rfl
    rw [hframe _ _ (by omega), h.scatter]
  · have hend : builder.identOffset builder.version + (builder.mIdentifier.length + 1) =
        builder.teamIDOffset builder.version := rfl
    rw [hframe _ _ (by omega), h.identifier]
  · intro hne
    have hend : builder.preEncryptOffset builder.version =
        builder.teamIDOffset builder.version + (builder.mTeamID.length + 1) := by
      rw [Builder.preEncryptOffset, if_pos hne]
    rw [hframe _ _ (by omega), h.teamID hne]
end Builder
end CodeDirectory
end SecurityFramework
