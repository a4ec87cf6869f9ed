import SecurityFramework.CodeSigning.CodeDirectoryRoundTrip

/-! # Agreement of builder and reader -/

namespace SecurityFramework
open Memory

namespace CodeDirectory
namespace Builder
variable {hashing : Hashing} {builder : Builder} {cd : List UInt8}

structure ReadsHeader (builder : Builder) (h : Header) : Prop where
  version : h.version = builder.version
  flags : h.flags = builder.mFlags.toNat
  hashOffset : h.hashOffset = builder.hashOffset builder.version
  identOffset : h.identOffset = builder.identOffset builder.version
  nSpecialSlots : h.nSpecialSlots = builder.mSpecialSlots
  nCodeSlots : h.nCodeSlots = builder.codeSlots
  hashSize : h.hashSize = builder.mDigestLength
  pageSize : h.pageSize = if builder.mPageSize = 0 then 0 else builder.mPageSize.toNat.log2
  signingLimit : h.signingLimit =
    if supportsCodeLimit64 ≤ builder.version then builder.execLength
    else min builder.execLength UINT32_MAX
  hasPreEncryptHashes : h.hasPreEncryptHashes = builder.hasPreEncryptHashes
  preEncryptOffset : builder.hasPreEncryptHashes →
    h.preEncryptOffset = builder.preEncryptOffset builder.version
  scatterVector : h.scatterVector =
    if builder.mScatter = none then none else some (Builder.scatterOffset builder.version)
  teamID : h.teamID =
    if builder.mTeamID ≠ [] then some (builder.teamIDOffset builder.version) else none

theorem exists_header (hregular : builder.Regular) (h : builder.Prepared cd) :
    ∃ hdr, header cd = some hdr ∧ builder.ReadsHeader hdr := by
  have hsize := hregular.size_le
  have hlength := h.length
  rw [CodeDirectory.size] at hsize
  obtain ⟨hfixed, -⟩ := builder.fixedSize_facts
  have hoffsets := builder.offsets_le builder.version
  have hfirst : fixedSize builder.version = Builder.scatterOffset builder.version := rfl
  obtain ⟨hscatterLow, -⟩ := builder.version_bounds
  obtain ⟨teamIDOffset, hteamField⟩ := exists_loadBE (show 48 + 4 ≤ cd.length by omega)
  obtain ⟨codeLimit64, hlimitField⟩ := exists_loadBE (show 56 + 8 ≤ cd.length by omega)
  obtain ⟨preEncryptOffset, hpreField⟩ := exists_loadBE (show 92 + 4 ≤ cd.length by omega)
  refine ⟨⟨builder.version, builder.mFlags.toNat, builder.hashOffset builder.version,
    builder.identOffset builder.version, builder.mSpecialSlots, builder.codeSlots,
    min builder.execLength UINT32_MAX, builder.mDigestLength, builder.mHashType.toNat,
    if builder.mPageSize = 0 then 0 else builder.mPageSize.toNat.log2,
    if builder.mScatter = none then 0 else Builder.scatterOffset builder.version,
    teamIDOffset, codeLimit64, preEncryptOffset⟩,
    header_eq_some_iff.mpr ⟨h.version, h.flags, h.hashOffset, h.identOffset,
    h.nSpecialSlots, h.nCodeSlots, h.codeLimit, h.hashSize, h.hashType, h.pageSize,
    h.scatterOffset, hteamField, hlimitField, hpreField⟩, ?_⟩
  constructor <;> try rfl
  · by_cases hsupports : supportsCodeLimit64 ≤ builder.version
    · have hfield := h.codeLimit64 hsupports
      rw [hlimitField, Option.some.injEq] at hfield
      by_cases hlong : builder.execLength > UINT32_MAX
      · rw [if_pos hlong] at hfield
        have hne : codeLimit64 ≠ 0 := by omega
        simp [Header.signingLimit, hsupports, hfield, show builder.execLength ≠ 0 by omega]
      · rw [if_neg hlong] at hfield
        simp [Header.signingLimit, hsupports, hfield, Nat.min_eq_left (Nat.le_of_not_lt hlong)]
    · simp [Header.signingLimit, hsupports]
  · by_cases hsupports : supportsPreEncrypt ≤ builder.version
    · have hfield := h.preEncryptOffset hsupports
      rw [hpreField, Option.some.injEq] at hfield
      by_cases hhas : builder.hasPreEncryptHashes = true
      · rw [if_pos hhas] at hfield
        have hle := builder.fixedSize_le_preEncryptOffset
        simp [Header.hasPreEncryptHashes, hsupports, hhas, hfield]
        omega
      · rw [if_neg hhas] at hfield
        simp [Header.hasPreEncryptHashes, hfield, hhas]
    · have hhas : ¬builder.hasPreEncryptHashes = true := by
        intro hhas
        apply hsupports
        rw [builder.preEncrypt_version hhas]
        decide
      simp [Header.hasPreEncryptHashes, hsupports, hhas]
  · intro hhas
    have hsupports : supportsPreEncrypt ≤ builder.version := by
      rw [builder.preEncrypt_version hhas]
      decide
    have hfield := h.preEncryptOffset hsupports
    rw [hpreField, Option.some.injEq, if_pos hhas] at hfield
    exact hfield
  · cases hs : builder.mScatter with
    | none => simp [Header.scatterVector]
    | some scatter =>
      simp [Header.scatterVector, hscatterLow]
      omega
  · by_cases hne : builder.mTeamID = []
    · by_cases hsupports : supportsTeamID ≤ builder.version
      · have hfield := h.teamIDOffset hsupports
        rw [hteamField, Option.some.injEq] at hfield
        simp [Header.teamID, hfield, hne]
      · simp [Header.teamID, hsupports, hne]
    · have hsupports := builder.teamID_version hne
      have hfield := h.teamIDOffset hsupports
      rw [hteamField, Option.some.injEq, if_pos hne] at hfield
      simp [Header.teamID, hfield, hne, hsupports]
      omega

def cString (cd : List UInt8) (offset : Nat) : Option (List UInt8) :=
  if 0 ∈ cd.drop offset then some ((cd.drop offset).takeWhile (· ≠ 0)) else none

theorem cString_of_load {offset : Nat} {string : List UInt8} (hnul : 0 ∉ string)
    (h : load cd offset (string.length + 1) = some (string ++ [0])) :
    cString cd offset = some string := by
  obtain ⟨hle, htake⟩ := load_eq_some_iff.mp h
  have hdrop : cd.drop offset = string ++ [0] ++ (cd.drop offset).drop (string.length + 1) := by
    rw [htake, List.take_append_drop]
  rw [cString, hdrop, if_pos (by simp)]
  rw [List.append_assoc, List.takeWhile_append_of_pos]
  · simp
  · intro octet hoctet
    simp only [ne_eq, decide_eq_true_eq]
    intro hzero
    exact hnul (hzero ▸ hoctet)

theorem stringAt_of_load {offset len : Nat} {string : List UInt8}
    (hlength : BlobCore.length cd = some len) (hlen : len ≤ cd.length)
    (hend : offset + (string.length + 1) ≤ len)
    (h : load cd offset (string.length + 1) = some (string ++ [0])) :
    ∃ found, BlobCore.stringAt cd offset = some (some found) := by
  have htail : load (BlobCore.at cd offset) 0 (len - offset) =
      some ((cd.drop offset).take (len - offset)) := by
    rw [BlobCore.at, load_drop _ _ _ _ (by omega), load, if_pos (by omega), Nat.add_zero]
  obtain ⟨-, htake⟩ := load_eq_some_iff.mp h
  have hnul : 0 ∈ (cd.drop offset).take (len - offset) := by
    have hmem : (0 : UInt8) ∈ (cd.drop offset).take (string.length + 1) := by
      rw [← htake]
      simp
    exact List.take_subset_take_left _ (by omega) hmem
  refine ⟨(cd.drop offset).take (len - offset), ?_⟩
  simp only [BlobCore.stringAt, hlength, Option.bind_eq_bind, Option.bind_some]
  rw [if_pos (by omega), htail, Option.bind_some, if_pos hnul]
  rfl

/-- The pages that the elements before the first empty one cover, as `checkIntegrity` sums. -/
def scatterSum (scatter : List Scatter) : Nat :=
  ((scatter.takeWhile fun element => element.count ≠ 0).map fun element =>
    element.count.toNat).sum % 2 ^ 32

theorem contains_iff {len : Nat} {offset width : Int} (hlength : BlobCore.length cd = some len) :
    BlobCore.contains cd offset width = some true ↔
      (BlobCore.size : Int) ≤ offset ∧ offset + width ≤ len := by
  have hheader : BlobCore.size = 8 := rfl
  simp only [BlobCore.contains, hlength, Option.bind_eq_bind, Option.bind_some, Option.pure_def,
    Option.some.injEq, decide_eq_true_eq]
  omega

theorem Scatter.length_octets (scatter : Scatter) : scatter.octets.length = 24 := by
  simp [Scatter.octets]

theorem length_flatMap_octets (scatter : List Scatter) :
    (scatter.flatMap Scatter.octets).length = 24 * scatter.length := by
  induction scatter with
  | nil => rfl
  | cons element scatter ih =>
    rw [List.flatMap_cons, List.length_append, ih, Scatter.length_octets, List.length_cons]
    omega

theorem count_of_load {start : Nat} {element : Scatter} {rest : List UInt8} {len : Nat}
    (h : load cd start len = some (element.octets ++ rest)) :
    loadBE cd start 4 = some element.count.toNat := by
  have hsplit := h
  rw [Scatter.octets, List.append_assoc, List.append_assoc, List.append_assoc] at hsplit
  have hcount := (load_append hsplit).1
  rw [length_toBE] at hcount
  have hlt := element.count.toNat_lt
  rw [loadBE_of_load_toBE hcount, Nat.mod_eq_of_lt (by omega)]

theorem scatterPages_eq {len fuel start pages : Nat} {scatter : List Scatter}
    (hlength : BlobCore.length cd = some len) (hlow : BlobCore.size ≤ start)
    (hend : start + 24 * (scatter.length + 1) ≤ len) (hfuel : scatter.length < fuel)
    (hpages : pages < 2 ^ 32)
    (h : load cd start (24 * (scatter.length + 1)) =
      some ((scatter ++ [Scatter.sentinel]).flatMap Scatter.octets)) :
    scatterPages cd fuel start pages = some (.ok
      ((pages + ((scatter.takeWhile fun element => element.count ≠ 0).map fun element =>
        element.count.toNat).sum) % 2 ^ 32)) := by
  induction scatter generalizing fuel start pages with
  | nil =>
    obtain ⟨fuel, rfl⟩ : ∃ n, fuel = n + 1 := ⟨fuel - 1, by omega⟩
    rw [List.length_nil] at hend
    have hcontains : BlobCore.contains cd start 24 = some true :=
      (contains_iff hlength).mpr (by omega)
    rw [List.nil_append, List.flatMap_cons, List.flatMap_nil] at h
    have hcount := count_of_load h
    simp only [scatterPages, Option.bind_eq_bind]
    rw [hcontains, Option.bind_some, hcount]
    simp [Scatter.sentinel]
    omega
  | cons element scatter ih =>
    obtain ⟨fuel, rfl⟩ : ∃ n, fuel = n + 1 := ⟨fuel - 1, by omega⟩
    rw [List.length_cons] at hend hfuel h
    have hcontains : BlobCore.contains cd start 24 = some true :=
      (contains_iff hlength).mpr (by omega)
    rw [List.cons_append, List.flatMap_cons] at h
    have hcount := count_of_load h
    simp only [scatterPages, Option.bind_eq_bind]
    rw [hcontains, Option.bind_some, hcount]
    by_cases hzero : element.count = 0
    · simp [hzero]
      omega
    · have hne : element.count.toNat ≠ 0 := fun heq => hzero (UInt32.toNat_inj.mp heq)
      have hrest := (load_append h).2
      rw [Scatter.length_octets, length_flatMap_octets, List.length_append,
        List.length_singleton] at hrest
      have hwalk := @ih fuel (start + 24) ((pages + element.count.toNat) % 2 ^ 32) (by omega)
        (by omega) (by omega) (Nat.mod_lt _ (by decide)) hrest
      simp only [Bool.not_true, Bool.false_eq_true, if_false, Option.bind_some]
      rw [if_neg hne, hwalk, List.takeWhile_cons_of_pos (by simpa using hzero), List.map_cons,
        List.sum_cons]
      congr 2
      omega

def scatterSlot (scatter : List Scatter) : Int := toSlot ((scatterSum scatter : Int) - 1)

structure ScatterFits (builder : Builder) (scatter : List Scatter) : Prop where
  lt : scatterSlot scatter < builder.codeSlots
  int : -2 ^ 31 ≤ (builder.mDigestLength : Int) * scatterSlot scatter
  inside : (BlobCore.size : Int) ≤
    builder.hashOffset builder.version + builder.mDigestLength * scatterSlot scatter
  insidePreEncrypt : builder.hasPreEncryptHashes → (BlobCore.size : Int) ≤
    builder.preEncryptOffset builder.version + builder.mDigestLength * scatterSlot scatter

theorem containsSlot_eq_true {h : Header} {slot : Int} {preEncrypt : Bool} {base len : Nat}
    (hlength : BlobCore.length cd = some len)
    (hslot : h.getSlot slot preEncrypt = slotAt base h.hashSize slot) :
    containsSlot cd h slot preEncrypt = some true ↔
      (-2 ^ 31 ≤ (h.hashSize : Int) * slot ∧ (h.hashSize : Int) * slot < 2 ^ 31) ∧
        (BlobCore.size : Int) ≤ base + h.hashSize * slot ∧
          base + h.hashSize * slot + h.hashSize ≤ (len : Int) := by
  rw [← contains_iff hlength, containsSlot, hslot, slotAt]
  by_cases hint : -2 ^ 31 ≤ (h.hashSize : Int) * slot ∧ (h.hashSize : Int) * slot < 2 ^ 31
  · rw [mulInt, if_pos hint]
    exact (and_iff_right hint).symm
  · rw [mulInt, if_neg hint]
    exact iff_of_false (by simp) fun h => hint h.1

section Accept

variable {hdr : Header}

theorem Prepared.length_eq (h : builder.Prepared cd) :
    BlobCore.length cd = some (builder.sizeSum builder.version) := h.size

theorem checkScatter_eq (h : builder.Prepared cd) (hhdr : builder.ReadsHeader hdr)
    {scatter : List Scatter} (hs : builder.mScatter = some scatter) :
    checkScatter cd hdr = some true ↔
      containsSlot cd hdr (scatterSlot scatter) false = some true ∧
        (builder.hasPreEncryptHashes →
          containsSlot cd hdr (scatterSlot scatter) true = some true) := by
  have hvector := hhdr.scatterVector
  rw [if_neg (by simp [hs])] at hvector
  have hoffsets := builder.offsets_le builder.version
  have hfirst : fixedSize builder.version = Builder.scatterOffset builder.version := rfl
  have hfixed := builder.fixedSize_facts.1
  have hheader : BlobCore.size = 8 := rfl
  have hoctets : builder.scatterOctets = (scatter ++ [Scatter.sentinel]).flatMap Scatter.octets := by
    rw [scatterOctets, hs]
  have hwidth : builder.mScatterSize = 24 * (scatter.length + 1) := by
    rw [mScatterSize, hoctets, length_flatMap_octets, List.length_append, List.length_singleton]
  have hend : builder.identOffset builder.version =
      Builder.scatterOffset builder.version + builder.mScatterSize := rfl
  have hload := h.scatter
  rw [hwidth, hoctets] at hload
  have hlength := h.length
  have hwalk := scatterPages_eq h.length_eq (by omega) (by omega)
    (show scatter.length < cd.length by omega) (show 0 < 2 ^ 32 by decide) hload
  rw [Nat.zero_add] at hwalk
  rw [checkScatter, hvector]
  simp only [Option.bind_eq_bind, Option.pure_def]
  rw [hwalk, Option.bind_some]
  simp only [hhdr.hasPreEncryptHashes]
  rw [reject_or, scatterSlot, scatterSum]
  by_cases hhas : builder.hasPreEncryptHashes = true <;> simp [hhas]

theorem checkScatter_iff (h : builder.Prepared cd)
    (hhdr : builder.ReadsHeader hdr)
    (hint : ∀ slot, slot < builder.codeSlots → builder.mDigestLength * slot < 2 ^ 31)
    {scatter : List Scatter} (hs : builder.mScatter = some scatter) :
    checkScatter cd hdr = some true ↔ builder.ScatterFits scatter := by
  have hmain := @containsSlot_eq_true cd hdr (scatterSlot scatter) false _ _ h.length_eq
    (getSlot_false hdr (scatterSlot scatter))
  rw [hhdr.hashOffset, hhdr.hashSize] at hmain
  have hpre (hhas : builder.hasPreEncryptHashes) :=
    @containsSlot_eq_true cd hdr (scatterSlot scatter) true _ _ h.length_eq
      (getSlot_true (hhdr.hasPreEncryptHashes.trans hhas) (scatterSlot scatter))
  have hpos := builder.digestLength_bounds.1
  have hend := builder.endOffset_eq builder.version
  have hhash : builder.hashOffset builder.version =
      builder.hashesOffset builder.version + builder.mSpecialSlots * builder.mDigestLength := rfl
  simp only [endOffset, Nat.add_mul] at hend
  have hoffsets := builder.offsets_le builder.version
  have hcommute : (builder.codeSlots : Int) * builder.mDigestLength =
      builder.mDigestLength * builder.codeSlots := mul_comm _ _
  have hcast : ((builder.codeSlots * builder.mDigestLength : Nat) : Int) =
      builder.mDigestLength * builder.codeSlots := by
    rw [Nat.cast_mul, hcommute]
  obtain ⟨slot, hslot⟩ : ∃ slot, slot = scatterSlot scatter := ⟨_, rfl⟩
  rw [checkScatter_eq h hhdr hs, hmain, ← hslot]
  constructor
  · intro hchecks
    obtain ⟨⟨⟨hlow, hhigh⟩, hinside, hlast⟩, hcheckPre⟩ := hchecks
    constructor
    · rw [← hslot]
      by_contra hnot
      have hmul : (builder.mDigestLength : Int) * builder.codeSlots ≤
          builder.mDigestLength * slot :=
        Int.mul_le_mul_of_nonneg_left (by omega) (Int.natCast_nonneg _)
      omega
    · rwa [← hslot]
    · rwa [← hslot]
    · intro hhas
      have hchecked := hcheckPre hhas
      rw [hslot, hpre hhas, hhdr.preEncryptOffset hhas, hhdr.hashSize] at hchecked
      exact hchecked.2.1
  · intro hfits
    have hlt := hfits.lt
    have hlow := hfits.int
    have hinside := hfits.inside
    rw [← hslot] at hlt hlow hinside
    have hhigh : (builder.mDigestLength : Int) * slot < 2 ^ 31 := by
      by_cases hneg : slot < 0
      · have hmul : (builder.mDigestLength : Int) * slot ≤ builder.mDigestLength * 0 :=
          Int.mul_le_mul_of_nonneg_left (by omega) (Int.natCast_nonneg _)
        omega
      · have hnat := hint slot.toNat (by omega)
        have hmul : ((builder.mDigestLength * slot.toNat : Nat) : Int) =
            builder.mDigestLength * slot := by
          rw [Nat.cast_mul, Int.toNat_of_nonneg (by omega)]
        omega
    have hlast : (builder.mDigestLength : Int) * slot + builder.mDigestLength ≤
        builder.mDigestLength * builder.codeSlots := by
      have hmul : (builder.mDigestLength : Int) * (slot + 1) ≤
          builder.mDigestLength * builder.codeSlots :=
        Int.mul_le_mul_of_nonneg_left (by omega) (Int.natCast_nonneg _)
      rwa [Int.mul_add, Int.mul_one] at hmul
    refine ⟨⟨⟨hlow, hhigh⟩, hinside, by omega⟩, ?_⟩
    intro hhas
    have hpreInside := hfits.insidePreEncrypt hhas
    rw [hslot, hpre hhas, hhdr.preEncryptOffset hhas, hhdr.hashSize, ← hslot]
    rw [← hslot] at hpreInside
    refine ⟨⟨hlow, hhigh⟩, hpreInside, ?_⟩
    have hpreEnd : builder.hashesOffset builder.version =
        builder.preEncryptOffset builder.version +
          builder.codeSlots * builder.mDigestLength := by
      rw [hashesOffset, if_pos hhas]
    omega

theorem checkCoverage_eq (hhdr : builder.ReadsHeader hdr)
    (hlimit : hdr.signingLimit = builder.execLength)
    (hpage : builder.mPageSize = 0 ∨ ∃ log, 1 ≤ log ∧ builder.mPageSize.toNat = 2 ^ log)
    (hpaged : builder.mPageSize ≠ 0 → builder.execLength ≠ 0) : checkCoverage hdr = true := by
  have hlog := builder.pageLog_lt
  rw [checkCoverage, hlimit, hhdr.pageSize, hhdr.nCodeSlots]
  rcases hpage with hzero | ⟨log, hone, hpower⟩
  · simp only [hzero, if_true, ne_eq, not_true_eq_false, if_false, decide_eq_true_eq]
    by_cases hlen : builder.execLength = 0
    · simp [codeSlots, hlen]
    · simp [codeSlots, hlen, hzero, Nat.pos_of_ne_zero hlen]
  · have hne : builder.mPageSize ≠ 0 := by
      intro hzero
      rw [hzero, UInt64.toNat_zero] at hpower
      have hpos := Nat.two_pow_pos log
      omega
    have hlen := hpaged hne
    rw [if_neg hne, hpower, Nat.log2_two_pow] at hlog
    simp only [if_neg hne, hpower, Nat.log2_two_pow, Nat.mod_eq_of_lt hlog,
      Nat.shiftRight_eq_div_pow]
    rw [if_pos (by omega), codeSlots, if_neg hlen, if_neg hne, hpower]
    simp [hlen]

theorem validate_eq (hregular : builder.Regular) (h : builder.Prepared cd) :
    BlobCore.validateBlob cd typeMagic CodeDirectory.size 0 = some true := by
  have hsize := hregular.size_le
  have hmagic : BlobCore.magic cd = some typeMagic := h.magic
  simp only [BlobCore.validateBlob, h.length_eq, hmagic, Option.bind_eq_bind, Option.bind_some]
  have hmin : ¬(if CodeDirectory.size ≠ 0 then
      builder.sizeSum builder.version < CodeDirectory.size
      else builder.sizeSum builder.version < BlobCore.size) := by
    rw [if_pos (by decide)]
    omega
  rw [if_neg (by simp), if_neg hmin, if_neg (by simp)]
  rfl

theorem integrity_iff (hregular : builder.Regular) (h : builder.Prepared cd)
    (hhdr : builder.ReadsHeader hdr) (hlimit : hdr.signingLimit = builder.execLength)
    (hpage : builder.mPageSize = 0 ∨ ∃ log, 1 ≤ log ∧ builder.mPageSize.toNat = 2 ^ log)
    (hpaged : builder.mPageSize ≠ 0 → builder.execLength ≠ 0) :
    Integrity cd hdr ↔ checkScatter cd hdr = some true := by
  have hlength := h.length
  have hoffsets := builder.offsets_le builder.version
  obtain ⟨hversionLow, hversionHigh⟩ := builder.version_bounds
  have hheader : BlobCore.size = 8 := rfl
  have hfixed := builder.fixedSize_facts.1
  have hfirst : fixedSize builder.version = Builder.scatterOffset builder.version := rfl
  have hend := builder.endOffset_eq builder.version
  have hhash : builder.hashOffset builder.version =
      builder.hashesOffset builder.version + builder.mSpecialSlots * builder.mDigestLength := rfl
  simp only [endOffset, Nat.add_mul] at hend
  have hspecialCast : ((builder.mSpecialSlots * builder.mDigestLength : Nat) : Int) =
      builder.mDigestLength * builder.mSpecialSlots := by
    rw [Nat.cast_mul, mul_comm]
  have hcodeCast : ((builder.codeSlots * builder.mDigestLength : Nat) : Int) =
      builder.mDigestLength * builder.codeSlots := by
    rw [Nat.cast_mul, mul_comm]
  constructor
  · intro hok
    exact hok.scatter
  · intro hscatter
    refine ⟨validate_eq hregular h, ?_, ?_, ?_, ?_, ?_, ?_, hscatter,
      checkCoverage_eq hhdr hlimit hpage hpaged⟩
    · rw [hhdr.version]
      exact hversionHigh.trans (by decide)
    · rw [hhdr.version]
      exact le_trans (by decide) hversionLow
    · have hidentEnd : builder.teamIDOffset builder.version =
          builder.identOffset builder.version + (builder.mIdentifier.length + 1) := rfl
      rw [hhdr.identOffset]
      exact stringAt_of_load h.length_eq hlength.ge (by omega) h.identifier
    · intro teamID hteam
      rw [hhdr.teamID] at hteam
      by_cases hne : builder.mTeamID ≠ []
      · rw [if_pos hne, Option.some.injEq] at hteam
        have hteamEnd : builder.preEncryptOffset builder.version =
            builder.teamIDOffset builder.version + (builder.mTeamID.length + 1) := by
          rw [Builder.preEncryptOffset, if_pos hne]
        rw [← hteam]
        exact stringAt_of_load h.length_eq hlength.ge (by omega) (h.teamID hne)
      · simp [hne] at hteam
    · rw [hhdr.hashOffset, hhdr.hashSize, hhdr.nSpecialSlots, hhdr.nCodeSlots,
        contains_iff h.length_eq, Int.mul_add]
      omega
    · intro hhas
      rw [hhdr.hasPreEncryptHashes] at hhas
      have hpreEnd : builder.hashesOffset builder.version =
          builder.preEncryptOffset builder.version +
            builder.codeSlots * builder.mDigestLength := by
        rw [hashesOffset, if_pos hhas]
      rw [hhdr.preEncryptOffset hhas, hhdr.hashSize, hhdr.nCodeSlots, contains_iff h.length_eq]
      omega
end Accept

def readSlot (cd : List UInt8) (h : Header) (slot : Int) (preEncrypt : Bool) :
    Option (List UInt8) := do
  let start ← (← h.getSlot slot preEncrypt)
  if start < 0 then none else load cd start.toNat h.hashSize

/-- The directory is as long as `size` computed and `build` wrote, `checkIntegrity` accepts it,
and its readers find what the builder was given. -/
structure ReadsBack (hashing : Hashing) (builder : Builder) (cd : List UInt8) (h : Header) :
    Prop where
  header : CodeDirectory.header cd = some h
  accepted : checkIntegrity cd = some (.ok ())
  size : builder.size builder.version = .ok cd.length
  length : BlobCore.length cd = some cd.length
  filled : builder.endOffset builder.version = cd.length
  identifier : cString cd h.identOffset = some builder.mIdentifier
  teamID : h.teamID.map (cString cd) =
    if builder.mTeamID ≠ [] then some (some builder.mTeamID) else none
  signingLimit : h.signingLimit = builder.execLength
  flags : h.flags = builder.mFlags.toNat
  nSpecialSlots : h.nSpecialSlots = builder.mSpecialSlots
  nCodeSlots : h.nCodeSlots = builder.codeSlots
  special : ∀ slot : Nat, 1 ≤ slot → slot ≤ builder.mSpecialSlots →
    readSlot cd h (-slot) false = some (builder.mSpecial slot)
  code : ∀ slot : Nat, slot < builder.codeSlots →
    readSlot cd h slot false = some (hashing.digest builder.mHashType (builder.page slot))
  preEncrypt : builder.hasPreEncryptHashes → ∀ slot : Nat, slot < builder.codeSlots →
    readSlot cd h slot true = some (builder.preEncryptDigest hashing slot)

def Agrees (hashing : Hashing) (builder : Builder) : Prop :=
  ∃ cd h, build hashing builder = some (.ok cd) ∧ builder.ReadsBack hashing cd h

structure Buildable (builder : Builder) : Prop where
  stale : builder.mCodeSlots ≤ UINT32_MAX
  size_le : CodeDirectory.size ≤ builder.sizeSum builder.version
  lt : builder.sizeSum builder.version < 2 ^ 32
  int : ∀ slot, slot < builder.codeSlots → builder.mDigestLength * slot < 2 ^ 31
  limit : builder.execLength ≤ UINT32_MAX ∨ supportsCodeLimit64 ≤ builder.version
  scatter : ∀ scatter, builder.mScatter = some scatter → builder.ScatterFits scatter
  preserved : builder.PreservedFit

theorem stale_of_build (h : build hashing builder = some (.ok cd)) :
    builder.mCodeSlots ≤ UINT32_MAX := by
  by_contra hstale
  simp [build, Nat.lt_of_not_le hstale] at h

/-- A directory that reads back has a size that covers the header and fits the length field. -/
theorem ReadsBack.regular {hdr : Header} (h : builder.ReadsBack hashing cd hdr) :
    builder.Regular := by
  have hfilled := h.filled
  rw [builder.endOffset_eq] at hfilled
  obtain ⟨_, -, hok⟩ := checkIntegrity_ok_iff.mp h.accepted
  have hmin := BlobCore.le_extent_of_validateBlob hok.validate (by decide)
  have hlt : cd.length < 256 ^ 4 := loadBE_lt h.length
  rw [BlobCore.extent, h.length, Option.getD_some] at hmin
  exact ⟨by omega, by omega⟩

theorem readSlot_eq {h : Header} {slot : Int} {preEncrypt : Bool} {base start width : Nat}
    (hslot : h.getSlot slot preEncrypt = slotAt base h.hashSize slot) (hwidth : h.hashSize = width)
    (hlow : -2 ^ 31 ≤ (width : Int) * slot) (hhigh : (width : Int) * slot < 2 ^ 31)
    (hstart : (base : Int) + width * slot = start) :
    readSlot cd h slot preEncrypt = load cd start width := by
  subst hwidth
  have hnonneg : ¬(start : Int) < 0 := by omega
  simp only [readSlot, hslot, slotAt, mulInt_eq_some_iff.mpr ⟨rfl, hlow, hhigh⟩, hstart,
    Option.map_some, Option.bind_eq_bind, Option.bind_some, if_neg hnonneg, Int.toNat_natCast]

section Read

variable {hdr : Header}

theorem readSlot_special (hhdr : builder.ReadsHeader hdr) {slot : Nat}
    (hslot : slot ≤ builder.mSpecialSlots) :
    readSlot cd hdr (-slot) false =
      load cd (builder.specialStart slot) builder.mDigestLength := by
  obtain ⟨-, hend⟩ := builder.special_bounds hslot
  have hspecial := builder.specialSlots_le
  rw [cdSlotMax] at hspecial
  have hmul : slot * builder.mDigestLength ≤ 11 * 48 :=
    Nat.mul_le_mul (by omega) builder.digestLength_bounds.2
  have hproduct : (builder.mDigestLength : Int) * -(slot : Int) =
      -((slot * builder.mDigestLength : Nat) : Int) := by
    push_cast
    ring
  apply readSlot_eq (getSlot_false hdr _) hhdr.hashSize
  · omega
  · omega
  · rw [hhdr.hashOffset]
    omega

theorem readSlot_code (hhdr : builder.ReadsHeader hdr) {slot : Nat}
    (hint : builder.mDigestLength * slot < 2 ^ 31) :
    readSlot cd hdr slot false = load cd (builder.slotStart slot) builder.mDigestLength := by
  have hproduct : (builder.mDigestLength : Int) * (slot : Int) =
      ((builder.mDigestLength * slot : Nat) : Int) := (Nat.cast_mul _ _).symm
  have hcommute := Nat.mul_comm builder.mDigestLength slot
  apply readSlot_eq (getSlot_false hdr _) hhdr.hashSize
  · omega
  · omega
  · rw [hhdr.hashOffset, slotStart]
    omega

theorem readSlot_preEncrypt (hhdr : builder.ReadsHeader hdr) (hhas : builder.hasPreEncryptHashes)
    {slot : Nat} (hint : builder.mDigestLength * slot < 2 ^ 31) :
    readSlot cd hdr slot true = load cd (builder.preEncryptStart slot) builder.mDigestLength := by
  have hproduct : (builder.mDigestLength : Int) * (slot : Int) =
      ((builder.mDigestLength * slot : Nat) : Int) := (Nat.cast_mul _ _).symm
  have hcommute := Nat.mul_comm builder.mDigestLength slot
  apply readSlot_eq (getSlot_true (hhdr.hasPreEncryptHashes.trans hhas) _) hhdr.hashSize
  · omega
  · omega
  · rw [hhdr.preEncryptOffset hhas, preEncryptStart]
    omega

theorem readsBack_of_built (h : builder.Buildable) (hbuilt : builder.Built hashing cd)
    (hhdr : builder.ReadsHeader hdr) (hheader : header cd = some hdr)
    (hident : 0 ∉ builder.mIdentifier) (hteam : 0 ∉ builder.mTeamID)
    (hpage : builder.mPageSize = 0 ∨ ∃ log, 1 ≤ log ∧ builder.mPageSize.toNat = 2 ^ log)
    (hpaged : builder.mPageSize ≠ 0 → builder.execLength ≠ 0) :
    builder.ReadsBack hashing cd hdr := by
  have hregular : builder.Regular := ⟨h.size_le, h.lt⟩
  have hprepared := hbuilt.prepared
  have hlength := hprepared.length
  have hlimit : hdr.signingLimit = builder.execLength := by
    rw [hhdr.signingLimit]
    rcases h.limit with hshort | hlong
    · rw [Nat.min_eq_left hshort, ite_self]
    · rw [if_pos hlong]
  have hscatter : checkScatter cd hdr = some true := by
    cases hs : builder.mScatter with
    | none =>
      have hvector := hhdr.scatterVector
      rw [if_pos hs] at hvector
      rw [checkScatter, hvector]
    | some scatter =>
      exact (checkScatter_iff hprepared hhdr h.int hs).mpr (h.scatter scatter hs)
  constructor
  · exact hheader
  · exact checkIntegrity_ok_iff.mpr ⟨hdr, hheader,
      (integrity_iff hregular hprepared hhdr hlimit hpage hpaged).mpr hscatter⟩
  · rw [size_eq hregular, hlength]
  · rw [hlength]
    exact hprepared.length_eq
  · rw [builder.endOffset_eq, hlength]
  · rw [hhdr.identOffset]
    exact cString_of_load hident hprepared.identifier
  · rw [hhdr.teamID]
    by_cases hne : builder.mTeamID ≠ []
    · rw [if_pos hne, if_pos hne, Option.map_some, cString_of_load hteam (hprepared.teamID hne)]
    · rw [if_neg hne, if_neg hne, Option.map_none]
  · exact hlimit
  · exact hhdr.flags
  · exact hhdr.nSpecialSlots
  · exact hhdr.nCodeSlots
  · intro slot hone hslot
    rw [readSlot_special hhdr hslot, hbuilt.special slot hone hslot]
  · intro slot hslot
    rw [readSlot_code hhdr (h.int slot hslot), hbuilt.code slot hslot]
  · intro hhas slot hslot
    rw [readSlot_preEncrypt hhdr hhas (h.int slot hslot), hbuilt.preEncrypt hhas slot hslot]

theorem limit_of_readsBack (hhdr : builder.ReadsHeader hdr)
    (h : hdr.signingLimit = builder.execLength) :
    builder.execLength ≤ UINT32_MAX ∨ supportsCodeLimit64 ≤ builder.version := by
  rw [hhdr.signingLimit] at h
  by_cases hsupports : supportsCodeLimit64 ≤ builder.version
  · exact Or.inr hsupports
  · rw [if_neg hsupports] at h
    exact Or.inl (by omega)
end Read

/-- Builder and readers agree exactly on the inputs whose directory covers the whole header and
fits the widths of the length, the limit and the distances between slots, whose scatter vector
ends inside of the slots and whose preserved hashes cover them. -/
theorem agrees_iff (hashing : Hashing) (builder : Builder) (hident : 0 ∉ builder.mIdentifier)
    (hteam : 0 ∉ builder.mTeamID)
    (hpage : builder.mPageSize = 0 ∨ ∃ log, 1 ≤ log ∧ builder.mPageSize.toNat = 2 ^ log)
    (hpaged : builder.mPageSize ≠ 0 → builder.execLength ≠ 0) :
    builder.Agrees hashing ↔ builder.Buildable := by
  constructor
  · intro hagrees
    obtain ⟨cd, hdr, hbuild, hreads⟩ := hagrees
    have hregular := hreads.regular
    have hstale := stale_of_build hbuild
    obtain ⟨hint, hfit⟩ := fits_of_build hregular hstale hbuild
    obtain ⟨cd', hbuild', hbuilt⟩ := exists_built hashing hregular hstale hint hfit
    obtain rfl : cd = cd' := by simpa [hbuild] using hbuild'
    obtain ⟨hdr', hheader', hhdr⟩ := exists_header hregular hbuilt.prepared
    obtain rfl := Option.some.inj (hreads.header.symm.trans hheader')
    obtain ⟨hdr', hheader', hok⟩ := checkIntegrity_ok_iff.mp hreads.accepted
    obtain rfl := Option.some.inj (hreads.header.symm.trans hheader')
    refine ⟨hstale, hregular.size_le, hregular.lt, hint,
      limit_of_readsBack hhdr hreads.signingLimit, ?_, hfit⟩
    intro scatter hs
    exact (checkScatter_iff hbuilt.prepared hhdr hint hs).mp hok.scatter
  · intro hbuildable
    have hregular : builder.Regular := ⟨hbuildable.size_le, hbuildable.lt⟩
    obtain ⟨cd, hbuild, hbuilt⟩ := exists_built hashing hregular hbuildable.stale
      hbuildable.int hbuildable.preserved
    obtain ⟨hdr, hheader, hhdr⟩ := exists_header hregular hbuilt.prepared
    exact ⟨cd, hdr, hbuild,
      readsBack_of_built hbuildable hbuilt hhdr hheader hident hteam hpage hpaged⟩

def zeroHashing : Hashing where
  digest hashType _ := List.replicate hashType.digestLength 0
  length_digest := by simp

def onePageBuilder (hashType : HashAlgorithm) (identifier exec : List UInt8)
    (hlen : identifier.length < 2 ^ 62) : Builder where
  mFlags := 2
  mHashType := hashType
  mPlatform := 0
  mSpecial _ := List.replicate hashType.digestLength 0
  mSpecialSlots := 2
  mCodeSlots := 0
  mScatter := none
  mExec := exec
  mExecOffset := 0
  mExecLength := 0
  mPageSize := 4096
  mIdentifier := identifier
  mTeamID := []
  mExecSegOffset := 0
  mExecSegLimit := 0
  mExecSegFlags := 0
  mGeneratePreEncryptHashes := false
  mPreservedPreEncryptHashMap := []
  mRuntimeVersion := 0
  length_special _ := List.length_replicate
  specialSlots_le := by decide
  in_memory := by simpa using hlen

theorem agrees_iff_sample : (onePageBuilder .kSecCodeSignatureHashSHA256 [97, 98, 99] [1, 2, 3]
    (by decide)).Agrees zeroHashing := by
  apply (agrees_iff zeroHashing _ (by decide) (by decide)
    (Or.inr ⟨12, by decide, by decide⟩) (by decide)).mpr
  constructor
  · decide
  · decide
  · decide
  · intro slot hslot
    obtain rfl : slot = 0 := Nat.lt_one_iff.mp hslot
    decide
  · exact Or.inl (by decide)
  · intro scatter hscatter
    simp [onePageBuilder] at hscatter
  · intro preEncrypt hlookup
    simp [onePageBuilder] at hlookup

/-- A directory of 90 octets has no room for the header that is written and read whole. -/
theorem small_directory_disagrees :
    ∃ builder : Builder, 0 ∉ builder.mIdentifier ∧ 0 ∉ builder.mTeamID ∧
      builder.mPageSize.toNat = 2 ^ 12 ∧ builder.execLength = 1 ∧
      builder.size builder.version = .ok 90 ∧ ¬builder.Agrees zeroHashing := by
  refine ⟨{ onePageBuilder .kSecCodeSignatureHashSHA1 [97] [1] (by decide) with
    mSpecialSlots := 1, specialSlots_le := by decide },
    by decide, by decide, by decide, by decide, by rfl, ?_⟩
  intro hagrees
  obtain ⟨cd, hdr, -, hreads⟩ := hagrees
  have hsize := hreads.regular.size_le
  revert hsize
  decide
end Builder
end CodeDirectory
end SecurityFramework
