import SecurityFramework.CodeSigning.CodeDirectory

/-! # What the integrity check promises -/

namespace SecurityFramework
open Memory

namespace CodeDirectory
theorem reject_or {check rest : Option Bool} :
    (check.bind fun ok => if !ok then some false else rest) = some true ↔
      check = some true ∧ rest = some true := by
  cases check with
  | none => simp
  | some ok => cases ok <;> simp

theorem throw_or {error : CSError} {check : Option Bool} {rest : Option (Except CSError Unit)} :
    (check.bind fun ok => if !ok then some (.error error) else rest) = some (.ok ()) ↔
      check = some true ∧ rest = some (.ok ()) := by
  cases check with
  | none => simp
  | some ok => cases ok <;> simp

structure Integrity (cd : List UInt8) (h : Header) : Prop where
  validate : BlobCore.validateBlob cd typeMagic size 0 = some true
  version_le : h.version ≤ compatibilityLimit
  le_version : earliestVersion ≤ h.version
  identifier : ∃ string, BlobCore.stringAt cd h.identOffset = some (some string)
  teamID : ∀ teamID, h.teamID = some teamID →
    ∃ string, BlobCore.stringAt cd teamID = some (some string)
  hashes : BlobCore.contains cd (h.hashOffset - h.hashSize * h.nSpecialSlots)
    (h.hashSize * (h.nSpecialSlots + h.nCodeSlots)) = some true
  preEncrypt : h.hasPreEncryptHashes →
    BlobCore.contains cd h.preEncryptOffset (h.hashSize * h.nCodeSlots) = some true
  scatter : checkScatter cd h = some true
  coverage : checkCoverage h = true

theorem isSome_or {found : Option (Option (List UInt8))} {rest : Option Bool} :
    (found.bind fun string => if !string.isSome then some false else rest) = some true ↔
      (∃ string, found = some (some string)) ∧ rest = some true := by
  cases found with
  | none => simp
  | some string => cases string <;> simp

variable {cd : List UInt8}

theorem checkOffsets_eq_true {h : Header} :
    checkOffsets cd h = some true ↔
      (∃ string, BlobCore.stringAt cd h.identOffset = some (some string)) ∧
      (∀ teamID, h.teamID = some teamID →
        ∃ string, BlobCore.stringAt cd teamID = some (some string)) ∧
      BlobCore.contains cd (h.hashOffset - h.hashSize * h.nSpecialSlots)
        (h.hashSize * (h.nSpecialSlots + h.nCodeSlots)) = some true ∧
      (h.hasPreEncryptHashes →
        BlobCore.contains cd h.preEncryptOffset (h.hashSize * h.nCodeSlots) = some true) := by
  have hteam : checkTeamID cd h = some true ↔ ∀ teamID, h.teamID = some teamID →
      ∃ string, BlobCore.stringAt cd teamID = some (some string) := by
    unfold checkTeamID
    cases h.teamID with
    | none => simp
    | some teamID => cases hfound : BlobCore.stringAt cd teamID with
      | none => simp [hfound]
      | some string => cases string <;> simp [hfound]
  have hpre : (if h.hasPreEncryptHashes = true then
      BlobCore.contains cd h.preEncryptOffset (h.hashSize * h.nCodeSlots) else some true) =
        some true ↔ (h.hasPreEncryptHashes →
          BlobCore.contains cd h.preEncryptOffset (h.hashSize * h.nCodeSlots) = some true) := by
    by_cases hhas : h.hasPreEncryptHashes = true <;> simp [hhas]
  simp only [checkOffsets, Option.bind_eq_bind, Option.pure_def]
  rw [isSome_or, reject_or, reject_or, hteam, hpre]

theorem checkIntegrity_ok_iff :
    checkIntegrity cd = some (.ok ()) ↔ ∃ h, header cd = some h ∧ Integrity cd h := by
  simp only [checkIntegrity, Option.bind_eq_bind, Option.pure_def]
  rw [throw_or, Option.bind_eq_some_iff]
  constructor
  · intro haccept
    obtain ⟨hvalidate, h, hheader, haccept⟩ := haccept
    by_cases hnew : h.version > compatibilityLimit
    · simp [hnew] at haccept
    by_cases hold : h.version < earliestVersion
    · simp [hnew, hold] at haccept
    rw [if_neg hnew, if_neg hold, throw_or, throw_or, checkOffsets_eq_true] at haccept
    obtain ⟨⟨hident, hteam, hhashes, hpre⟩, hscatter, hcoverage⟩ := haccept
    refine ⟨h, hheader, hvalidate, by omega, by omega, hident, hteam, hhashes, hpre, hscatter, ?_⟩
    by_contra hnot
    simp [hnot] at hcoverage
  · intro hintegrity
    obtain ⟨h, hheader, hok⟩ := hintegrity
    refine ⟨hok.validate, h, hheader, ?_⟩
    rw [if_neg (by have := hok.version_le; omega), if_neg (by have := hok.le_version; omega),
      throw_or, throw_or, checkOffsets_eq_true]
    refine ⟨⟨hok.identifier, hok.teamID, hok.hashes, hok.preEncrypt⟩, hok.scatter, ?_⟩
    simp [hok.coverage]

inductive ScatterCounts (cd : List UInt8) : Nat → List Nat → Prop where
  | sentinel {scatter : Nat} (h : loadBE cd scatter 4 = some 0) : ScatterCounts cd scatter []
  | element {scatter count : Nat} {counts : List Nat} (h : loadBE cd scatter 4 = some count)
      (hcount : count ≠ 0) (hrest : ScatterCounts cd (scatter + 24) counts) :
      ScatterCounts cd scatter (count :: counts)

def Inside (cd : List UInt8) (slot : Option (Option Int)) (length : Nat) : Prop :=
  ∃ start, slot = some (some start) ∧ 0 ≤ start ∧ start + length ≤ BlobCore.extent cd

structure AccessesInside (cd : List UInt8) (h : Header) : Prop where
  slots : ∀ digest, digestLength h.hashType = some digest →
    ∀ slot : Int, -h.nSpecialSlots ≤ slot → slot < h.nCodeSlots →
      Inside cd (h.getSlot (toSlot slot) false) digest
  preEncrypt : h.hasPreEncryptHashes → ∀ digest, digestLength h.hashType = some digest →
    ∀ slot : Int, 0 ≤ slot → slot < h.nCodeSlots →
      Inside cd (h.getSlot (toSlot slot) true) digest
  preEncryptHashes : h.hasPreEncryptHashes →
    h.preEncryptOffset + h.hashSize * h.nCodeSlots ≤ BlobCore.extent cd
  identifier : ∃ n, h.identOffset + n < BlobCore.extent cd ∧ cd[h.identOffset + n]? = some 0
  teamID : ∀ teamID, h.teamID = some teamID →
    ∃ n, teamID + n < BlobCore.extent cd ∧ cd[teamID + n]? = some 0
  limitShift : h.pageSize < 64
  pageShift : 2 ^ h.pageSize < 2 ^ 31
  scatter : ∀ scatter, h.scatterVector = some scatter → ∃ counts,
    ScatterCounts cd scatter counts ∧ scatterPages cd cd.length scatter 0 = some (.ok counts.sum)

/-- What an accepted directory must still satisfy: the last slot leaves room for a whole digest,
no distance between slots overflows an `int`, and pages and scatter counts fit their words. -/
structure SlotsFit (cd : List UInt8) (h : Header) : Prop where
  special : ∀ digest, digestLength h.hashType = some digest → 0 < h.nSpecialSlots + h.nCodeSlots →
    h.hashSize * h.nSpecialSlots ≤ 2 ^ 31
  code : ∀ digest, digestLength h.hashType = some digest → 0 < h.nSpecialSlots + h.nCodeSlots →
    (h.hashSize : Int) * (h.nCodeSlots - 1) < 2 ^ 31
  last : ∀ digest, digestLength h.hashType = some digest → 0 < h.nSpecialSlots + h.nCodeSlots →
    h.hashOffset + (h.hashSize : Int) * (h.nCodeSlots - 1) + digest ≤ BlobCore.extent cd
  lastPreEncrypt : ∀ digest, digestLength h.hashType = some digest → 0 < h.nCodeSlots →
    h.hasPreEncryptHashes →
    h.preEncryptOffset + (h.hashSize : Int) * (h.nCodeSlots - 1) + digest ≤ BlobCore.extent cd
  pages : h.pageSize < 31
  scatter : ∀ scatter, h.scatterVector = some scatter → ∀ counts,
    ScatterCounts cd scatter counts → counts.sum < 2 ^ 32

theorem toSlot_eq {slot : Int} (hle : -2 ^ 31 ≤ slot) (hlt : slot < 2 ^ 31) :
    toSlot slot = slot := by
  unfold toSlot
  omega

theorem mulInt_eq_some_iff {a b product : Int} :
    mulInt a b = some product ↔ product = a * b ∧ -2 ^ 31 ≤ a * b ∧ a * b < 2 ^ 31 := by
  unfold mulInt
  by_cases hfits : -2 ^ 31 ≤ a * b ∧ a * b < 2 ^ 31
  · rw [if_pos hfits, Option.some.injEq, eq_comm]
    exact (and_iff_left hfits).symm
  · rw [if_neg hfits]
    simp only [reduceCtorEq, false_iff]
    exact fun h => hfits h.2

theorem inside_iff {base hashSize length : Nat} {slot : Int} :
    Inside cd (slotAt base hashSize slot) length ↔
      -2 ^ 31 ≤ hashSize * slot ∧ hashSize * slot < 2 ^ 31 ∧ 0 ≤ base + hashSize * slot ∧
        base + hashSize * slot + length ≤ BlobCore.extent cd := by
  constructor
  · intro h
    obtain ⟨start, hslot, hle, hend⟩ := h
    obtain ⟨distance, hproduct, hstart⟩ := Option.map_eq_some_iff.mp hslot
    obtain ⟨rfl, hlow, hhigh⟩ := mulInt_eq_some_iff.mp hproduct
    obtain rfl := Option.some.inj hstart
    exact ⟨hlow, hhigh, hle, hend⟩
  · intro h
    obtain ⟨hlow, hhigh, hle, hend⟩ := h
    refine ⟨base + hashSize * slot, ?_, hle, hend⟩
    rw [slotAt, mulInt_eq_some_iff.mpr ⟨rfl, hlow, hhigh⟩]
    rfl

theorem getSlot_false (h : Header) (slot : Int) :
    h.getSlot slot false = slotAt h.hashOffset h.hashSize slot := by
  simp [Header.getSlot]

theorem getSlot_true {h : Header} (hhas : h.hasPreEncryptHashes) (slot : Int) :
    h.getSlot slot true = slotAt h.preEncryptOffset h.hashSize slot := by
  simp [Header.getSlot, hhas]

section Arrays

variable {cd : List UInt8} {base hashSize special code length : Nat}

/-- Where the first slot is behind the header and the last one fits, every slot does. -/
theorem inside_of_last (hlow : (BlobCore.size : Int) ≤ base - hashSize * special)
    (hspecial : hashSize * special ≤ 2 ^ 31) (hcode : (hashSize : Int) * (code - 1) < 2 ^ 31)
    (hlast : base + (hashSize : Int) * (code - 1) + length ≤ BlobCore.extent cd) {slot : Int}
    (hle : -special ≤ slot) (hlt : slot < code) :
    Inside cd (slotAt base hashSize (toSlot slot)) length := by
  rw [inside_iff]
  have hheader : BlobCore.size = 8 := rfl
  have hsize : (0 : Int) ≤ hashSize := Int.natCast_nonneg _
  by_cases hzero : hashSize = 0
  · subst hzero
    simp only [Nat.cast_zero, zero_mul] at *
    omega
  · have hpos : (1 : Int) ≤ hashSize := by omega
    have hfirst : (hashSize : Int) * (-special) ≤ hashSize * slot :=
      Int.mul_le_mul_of_nonneg_left hle hsize
    have hfinal : (hashSize : Int) * slot ≤ hashSize * (code - 1) :=
      Int.mul_le_mul_of_nonneg_left (by omega) hsize
    have hspecialInt : (hashSize : Int) * special ≤ 2 ^ 31 := by exact_mod_cast hspecial
    have hslotLow : -2 ^ 31 ≤ slot := by
      by_contra hnot
      have hmul : (hashSize : Int) * slot ≤ 1 * slot :=
        Int.mul_le_mul_of_nonpos_right hpos (by omega)
      rw [Int.mul_neg] at hfirst
      omega
    have hslotHigh : slot < 2 ^ 31 := by
      by_contra hnot
      have hmul : 1 * slot ≤ (hashSize : Int) * slot :=
        Int.mul_le_mul_of_nonneg_right hpos (by omega)
      omega
    rw [toSlot_eq hslotLow hslotHigh]
    rw [Int.mul_neg] at hfirst
    omega

/-- Slots that lie inside of the blob at both ends of the array tell the sizes. -/
theorem fit_of_inside (hlow : (BlobCore.size : Int) ≤ base - hashSize * special)
    (hhigh : base + (hashSize : Int) * code ≤ BlobCore.extent cd)
    (hextent : BlobCore.extent cd < 2 ^ 32) (hsome : 0 < special + code)
    (hspecial : special < 2 ^ 32) (hcode : code < 2 ^ 32)
    (hinside : ∀ slot : Int, -special ≤ slot → slot < code →
      Inside cd (slotAt base hashSize (toSlot slot)) length) :
    hashSize * special ≤ 2 ^ 31 ∧ (hashSize : Int) * (code - 1) < 2 ^ 31 ∧
      base + (hashSize : Int) * (code - 1) + length ≤ BlobCore.extent cd := by
  have hlastSlot := hinside (code - 1) (by omega) (by omega)
  rw [inside_iff] at hlastSlot
  by_cases hzero : hashSize = 0
  · subst hzero
    simp only [Nat.cast_zero, zero_mul] at *
    omega
  · have hpos : (1 : Int) ≤ hashSize := by omega
    have hheader : (BlobCore.size : Int) = 8 := rfl
    rw [Int.mul_sub, Int.mul_one]
    -- a slot that does not fit `int` would come out on the other side of the array
    have hcodeSlot : (code : Int) - 1 < 2 ^ 31 := by
      by_contra hnot
      have hconverted : toSlot (code - 1) = code - 1 - 2 ^ 32 := by
        unfold toSlot
        omega
      rw [hconverted, Int.mul_sub, Int.mul_sub] at hlastSlot
      omega
    rw [toSlot_eq (by omega) hcodeSlot, Int.mul_sub, Int.mul_one] at hlastSlot
    have hspecialSlot : special ≤ 2 ^ 31 := by
      by_contra hnot
      have hconverted : toSlot (-special) = 2 ^ 32 - special := by
        unfold toSlot
        omega
      have hfirst := hinside (-special) le_rfl (by omega)
      rw [inside_iff, hconverted, Int.mul_sub] at hfirst
      omega
    have hfirstLow : (hashSize : Int) * special ≤ 2 ^ 31 := by
      by_cases hnone : special = 0
      · simp [hnone]
      · have hfirst := hinside (-special) le_rfl (by omega)
        rw [inside_iff, toSlot_eq (by omega) (by omega), Int.mul_neg] at hfirst
        omega
    exact ⟨by exact_mod_cast hfirstLow, by omega, by omega⟩
end Arrays

theorem scatterCounts_of_scatterPages {fuel scatter pages total : Nat}
    (h : scatterPages cd fuel scatter pages = some (.ok total)) (hpages : pages < 2 ^ 32) :
    ∃ counts, ScatterCounts cd scatter counts ∧ total = (pages + counts.sum) % 2 ^ 32 := by
  induction fuel generalizing scatter pages with
  | zero => simp [scatterPages] at h
  | succ fuel ih =>
    obtain ⟨ok, hcontains, h⟩ := Option.bind_eq_some_iff.mp h
    cases ok with
    | false => simp at h
    | true =>
      simp only [Bool.not_true, Bool.false_eq_true, if_false, Option.bind_eq_bind] at h
      obtain ⟨count, hcount, h⟩ := Option.bind_eq_some_iff.mp h
      by_cases hzero : count = 0
      · subst hzero
        simp only [if_true, Option.pure_def, Option.some.injEq, Except.ok.injEq] at h
        refine ⟨[], .sentinel hcount, ?_⟩
        rw [List.sum_nil, Nat.add_zero, Nat.mod_eq_of_lt hpages, h]
      · rw [if_neg hzero] at h
        obtain ⟨counts, hcounts, htotal⟩ := ih h (Nat.mod_lt _ (by decide))
        refine ⟨count :: counts, .element hcount hzero hcounts, ?_⟩
        rw [htotal, List.sum_cons]
        omega

theorem ScatterCounts.unique {scatter : Nat} {counts counts' : List Nat}
    (h : ScatterCounts cd scatter counts) (h' : ScatterCounts cd scatter counts') :
    counts = counts' := by
  induction h generalizing counts' with
  | sentinel hzero =>
    cases h' with
    | sentinel => rfl
    | element hcount hne =>
      rw [hzero] at hcount
      exact absurd (Option.some.inj hcount).symm hne
  | element hcount hne hrest ih =>
    cases h' with
    | sentinel hzero =>
      rw [hzero] at hcount
      exact absurd (Option.some.inj hcount).symm hne
    | element hcount' hne' hrest' =>
      obtain rfl := Option.some.inj (hcount.symm.trans hcount')
      rw [ih hrest']

theorem scatterPages_of_checkScatter {h : Header} {scatter : Nat}
    (hcheck : checkScatter cd h = some true) (hscatter : h.scatterVector = some scatter) :
    ∃ counts, ScatterCounts cd scatter counts ∧
      scatterPages cd cd.length scatter 0 = some (.ok (counts.sum % 2 ^ 32)) := by
  rw [checkScatter, hscatter] at hcheck
  obtain ⟨walked, hwalk, hcheck⟩ := Option.bind_eq_some_iff.mp hcheck
  cases walked with
  | error error => simp at hcheck
  | ok pages =>
    obtain ⟨counts, hcounts, hpages⟩ := scatterCounts_of_scatterPages hwalk (by decide)
    rw [Nat.zero_add] at hpages
    exact ⟨counts, hcounts, by rw [hwalk, hpages]⟩

section Header

variable {cd : List UInt8} {h : Header}

structure HeaderAt (cd : List UInt8) (h : Header) : Prop where
  version : loadBE cd 8 4 = some h.version
  flags : loadBE cd 12 4 = some h.flags
  hashOffset : loadBE cd 16 4 = some h.hashOffset
  identOffset : loadBE cd 20 4 = some h.identOffset
  nSpecialSlots : loadBE cd 24 4 = some h.nSpecialSlots
  nCodeSlots : loadBE cd 28 4 = some h.nCodeSlots
  codeLimit : loadBE cd 32 4 = some h.codeLimit
  hashSize : loadBE cd 36 1 = some h.hashSize
  hashType : loadBE cd 37 1 = some h.hashType
  pageSize : loadBE cd 39 1 = some h.pageSize
  scatterOffset : loadBE cd 44 4 = some h.scatterOffset
  teamIDOffset : loadBE cd 48 4 = some h.teamIDOffset
  codeLimit64 : loadBE cd 56 8 = some h.codeLimit64
  preEncryptOffset : loadBE cd 92 4 = some h.preEncryptOffset

theorem header_eq_some_iff : header cd = some h ↔ HeaderAt cd h := by
  constructor
  · intro hheader
    obtain ⟨version, h0, hheader⟩ := Option.bind_eq_some_iff.mp hheader
    obtain ⟨flags, h1, hheader⟩ := Option.bind_eq_some_iff.mp hheader
    obtain ⟨hashOffset, h2, hheader⟩ := Option.bind_eq_some_iff.mp hheader
    obtain ⟨identOffset, h3, hheader⟩ := Option.bind_eq_some_iff.mp hheader
    obtain ⟨nSpecialSlots, h4, hheader⟩ := Option.bind_eq_some_iff.mp hheader
    obtain ⟨nCodeSlots, h5, hheader⟩ := Option.bind_eq_some_iff.mp hheader
    obtain ⟨codeLimit, h6, hheader⟩ := Option.bind_eq_some_iff.mp hheader
    obtain ⟨hashSize, h7, hheader⟩ := Option.bind_eq_some_iff.mp hheader
    obtain ⟨hashType, h8, hheader⟩ := Option.bind_eq_some_iff.mp hheader
    obtain ⟨pageSize, h9, hheader⟩ := Option.bind_eq_some_iff.mp hheader
    obtain ⟨scatterOffset, h10, hheader⟩ := Option.bind_eq_some_iff.mp hheader
    obtain ⟨teamIDOffset, h11, hheader⟩ := Option.bind_eq_some_iff.mp hheader
    obtain ⟨codeLimit64, h12, hheader⟩ := Option.bind_eq_some_iff.mp hheader
    obtain ⟨preEncryptOffset, h13, hheader⟩ := Option.bind_eq_some_iff.mp hheader
    obtain rfl := Option.some.inj hheader
    exact ⟨h0, h1, h2, h3, h4, h5, h6, h7, h8, h9, h10, h11, h12, h13⟩
  · intro hat
    simp only [header, hat.version, hat.flags, hat.hashOffset, hat.identOffset, hat.nSpecialSlots,
      hat.nCodeSlots, hat.codeLimit, hat.hashSize, hat.hashType, hat.pageSize, hat.scatterOffset,
      hat.teamIDOffset, hat.codeLimit64, hat.preEncryptOffset,
      Option.bind_eq_bind, Option.bind_some]
    rfl

/-- An accepted directory keeps its readers inside exactly when it also has the room and the
sizes of `SlotsFit`. -/
theorem accessesInside_iff (hheader : header cd = some h)
    (haccept : checkIntegrity cd = some (.ok ())) : AccessesInside cd h ↔ SlotsFit cd h := by
  obtain ⟨h', hheader', hok⟩ := checkIntegrity_ok_iff.mp haccept
  obtain rfl := Option.some.inj (hheader.symm.trans hheader')
  have hhashes := BlobCore.contains_eq_true hok.hashes
  have hat := header_eq_some_iff.mp hheader
  have hspecial : h.nSpecialSlots < 2 ^ 32 := loadBE_lt hat.nSpecialSlots
  have hcode : h.nCodeSlots < 2 ^ 32 := loadBE_lt hat.nCodeSlots
  have hextent := BlobCore.extent_lt_two_pow cd
  have hcovered : h.hashOffset + (h.hashSize : Int) * h.nCodeSlots ≤ BlobCore.extent cd := by
    rw [Int.mul_add] at hhashes
    omega
  constructor
  · intro hinside
    have hfit {digest : Nat} (hdigest : digestLength h.hashType = some digest)
        (hsome : 0 < h.nSpecialSlots + h.nCodeSlots) :=
      fit_of_inside hhashes.1 hcovered hextent hsome hspecial hcode
        fun slot hle hlt => getSlot_false h (toSlot slot) ▸ hinside.slots digest hdigest slot hle hlt
    constructor
    · intro digest hdigest hsome
      exact (hfit hdigest hsome).1
    · intro digest hdigest hsome
      exact (hfit hdigest hsome).2.1
    · intro digest hdigest hsome
      exact (hfit hdigest hsome).2.2
    · intro digest hdigest hsome hhas
      have hpre := BlobCore.contains_eq_true (hok.preEncrypt hhas)
      have hslots : 0 < 0 + h.nCodeSlots := by omega
      apply (fit_of_inside _ hpre.2 hextent hslots (by decide) hcode _).2.2
      · simpa using hpre.1
      · intro slot hle hlt
        rw [← getSlot_true hhas]
        exact hinside.preEncrypt hhas digest hdigest slot (by simpa using hle) hlt
    · have hpage := hinside.pageShift
      exact (Nat.pow_lt_pow_iff_right (by decide)).mp hpage
    · intro scatter hscatter counts hcounts
      obtain ⟨counts', hcounts', hwalk⟩ := hinside.scatter scatter hscatter
      obtain rfl := hcounts.unique hcounts'
      obtain ⟨counts', hcounts', hpages⟩ := scatterPages_of_checkScatter hok.scatter hscatter
      obtain rfl := hcounts.unique hcounts'
      rw [hwalk, Option.some.injEq, Except.ok.injEq] at hpages
      rw [hpages]
      exact Nat.mod_lt _ (by decide)
  · intro hfit
    constructor
    · intro digest hdigest slot hle hlt
      have hsome : 0 < h.nSpecialSlots + h.nCodeSlots := by omega
      rw [getSlot_false]
      exact inside_of_last hhashes.1 (hfit.special digest hdigest hsome)
        (hfit.code digest hdigest hsome) (hfit.last digest hdigest hsome) hle hlt
    · intro hhas digest hdigest slot hle hlt
      have hcodeSome : 0 < h.nCodeSlots := by omega
      have hpre := BlobCore.contains_eq_true (hok.preEncrypt hhas)
      rw [getSlot_true hhas]
      apply inside_of_last _ (show h.hashSize * 0 ≤ 2 ^ 31 by simp) (hfit.code digest hdigest (by omega))
        (hfit.lastPreEncrypt digest hdigest hcodeSome hhas) _ hlt
      · simpa using hpre.1
      · simpa using hle
    · intro hhas
      have hpre := BlobCore.contains_eq_true (hok.preEncrypt hhas)
      exact_mod_cast hpre.2
    · obtain ⟨string, hstring⟩ := hok.identifier
      exact BlobCore.nul_of_stringAt hstring
    · intro teamID hteam
      obtain ⟨string, hstring⟩ := hok.teamID teamID hteam
      exact BlobCore.nul_of_stringAt hstring
    · have hpages := hfit.pages
      omega
    · exact Nat.pow_lt_pow_right (by decide) hfit.pages
    · intro scatter hscatter
      obtain ⟨counts, hcounts, hwalk⟩ := scatterPages_of_checkScatter hok.scatter hscatter
      rw [Nat.mod_eq_of_lt (hfit.scatter scatter hscatter counts hcounts)] at hwalk
      exact ⟨counts, hcounts, hwalk⟩
end Header

def oneSlotDirectory (hashes : List UInt8) : List UInt8 :=
  toBE 4 typeMagic ++ toBE 4 (98 + hashes.length) ++ toBE 4 earliestVersion ++ toBE 4 0 ++
    toBE 4 98 ++ toBE 4 96 ++ toBE 4 0 ++ toBE 4 1 ++ toBE 4 1 ++ toBE 1 hashes.length ++
    toBE 1 1 ++ toBE 58 0 ++ [97, 0] ++ hashes

def oneSlotHeader (hashSize : Nat) : Header where
  version := earliestVersion
  flags := 0
  hashOffset := 98
  identOffset := 96
  nSpecialSlots := 0
  nCodeSlots := 1
  codeLimit := 1
  hashSize := hashSize
  hashType := 1
  pageSize := 0
  scatterOffset := 0
  teamIDOffset := 0
  codeLimit64 := 0
  preEncryptOffset := 0

theorem accessesInside_iff_sample :
    AccessesInside (oneSlotDirectory (List.replicate 20 0)) (oneSlotHeader 20) := by
  apply (accessesInside_iff (by decide +kernel) (by decide +kernel)).mpr
  constructor
  · intro digest hdigest _
    decide
  · intro digest hdigest _
    decide
  · intro digest hdigest _
    obtain rfl : 20 = digest := Option.some.inj hdigest
    decide +kernel
  · intro digest hdigest _ hhas
    simp [Header.hasPreEncryptHashes, oneSlotHeader] at hhas
  · decide
  · intro scatter hscatter
    simp [Header.scatterVector, oneSlotHeader] at hscatter

/-- A directory with one octet for a SHA-1 digest of twenty is accepted. -/
theorem accepted_reads_outside :
    checkIntegrity (oneSlotDirectory [0]) = some (.ok ()) ∧
      header (oneSlotDirectory [0]) = some (oneSlotHeader 1) ∧
      ¬AccessesInside (oneSlotDirectory [0]) (oneSlotHeader 1) := by
  refine ⟨by decide +kernel, by decide +kernel, ?_⟩
  intro hinside
  obtain ⟨start, hstart, -, hend⟩ := hinside.slots 20 rfl 0 (by decide) (by decide)
  obtain rfl : 98 = start := Option.some.inj (Option.some.inj hstart)
  revert hend
  decide +kernel
end CodeDirectory
end SecurityFramework
