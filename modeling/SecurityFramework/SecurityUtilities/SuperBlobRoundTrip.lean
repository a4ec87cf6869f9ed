import SecurityFramework.SecurityUtilities.SuperBlob

/-! # Super-blobs from makers -/

namespace SecurityFramework
open Memory

namespace SuperBlobCore
abbrev Piece := UInt32 × List UInt8

def span (pieces : List Piece) : Nat := (pieces.map fun piece => BlobCore.extent piece.2).sum

@[simp] theorem span_nil : span [] = 0 := rfl

@[simp] theorem span_cons (piece : Piece) (pieces : List Piece) :
    span (piece :: pieces) = BlobCore.extent piece.2 + span pieces := by
  simp [span]

structure EntryAt (blobs : List UInt8) (n pc : Nat) (piece : Piece) : Prop where
  type_eq : type blobs n = some piece.1
  offset_eq : offset blobs n = some pc
  load_eq : load blobs pc (BlobCore.extent piece.2) = BlobCore.bytes piece.2

def Packed (blobs : List UInt8) : List Piece → Nat → Nat → Prop
  | [], _, _ => True
  | piece :: pieces, n, pc =>
    EntryAt blobs n pc piece ∧ Packed blobs pieces (n + 1) (pc + BlobCore.extent piece.2)

namespace Maker
variable {type : UInt32} {blob result result' : List UInt8} {n pc : Nat}

theorem makeEntry_bounds (hblob : BlobCore.Valid blob)
    (h : makeEntry type blob n pc result = some result') :
    SuperBlobCore.size + (n + 1) * indexSize ≤ result.length ∧
      pc + BlobCore.extent blob ≤ result.length ∧ result'.length = result.length := by
  simp only [makeEntry, hblob.bytes_eq, Option.bind_eq_bind, Option.bind_some,
    Option.bind_eq_some_iff] at h
  obtain ⟨result₁, h₁, result₂, h₂, h₃⟩ := h
  have hextent : (blob.take (BlobCore.extent blob)).length = BlobCore.extent blob := by
    rw [List.length_take, Nat.min_eq_left hblob.extent_le]
  have hle₂ := le_of_storeBE h₂
  have hle₃ := le_of_store h₃
  have hlen₁ := length_of_storeBE h₁
  have hlen₂ := length_of_storeBE h₂
  have hlen₃ := length_of_store h₃
  simp only [SuperBlobCore.size, indexSize] at *
  omega

theorem makeEntry_spec (hblob : BlobCore.Valid blob) (hresult : result.length < 2 ^ 32)
    (hindex : SuperBlobCore.size + (n + 1) * indexSize ≤ pc)
    (hpc : pc + BlobCore.extent blob ≤ result.length) :
    ∃ result', makeEntry type blob n pc result = some result' ∧
      result'.length = result.length ∧ EntryAt result' n pc (type, blob) ∧
      ∀ start len, (start + len ≤ SuperBlobCore.size + n * indexSize ∨
        (SuperBlobCore.size + (n + 1) * indexSize ≤ start ∧ start + len ≤ pc)) →
        load result' start len = load result start len := by
  have hextent : (blob.take (BlobCore.extent blob)).length = BlobCore.extent blob := by
    rw [List.length_take, Nat.min_eq_left hblob.extent_le]
  simp only [SuperBlobCore.size, indexSize] at *
  obtain ⟨result₁, h₁⟩ := exists_storeBE result (12 + n * 8) 4 type.toNat (by omega)
  have hlen₁ := length_of_storeBE h₁
  obtain ⟨result₂, h₂⟩ := exists_storeBE result₁ (12 + n * 8 + 4) 4 pc (by omega)
  have hlen₂ := length_of_storeBE h₂
  obtain ⟨result₃, h₃⟩ := exists_store result₂ pc (blob.take (BlobCore.extent blob)) (by omega)
  have hlen₃ := length_of_store h₃
  have hload (start len : Nat) (hout : start + len ≤ pc) :
      load result₃ start len = load result₂ start len := load_store_of_disjoint h₃ (Or.inl hout)
  refine ⟨result₃, ?_, by omega, ⟨?_, ?_, ?_⟩, ?_⟩
  · simp only [makeEntry, hblob.bytes_eq, SuperBlobCore.size, indexSize, Option.bind_eq_bind,
      h₁, h₂, Option.bind_some]
    exact h₃
  · have hkept : load result₃ (12 + n * 8) 4 = load result₁ (12 + n * 8) 4 := by
      rw [hload _ _ (by omega), load_storeBE_of_disjoint h₂ (by omega)]
    have htype := type.toNat_lt
    rw [SuperBlobCore.type, SuperBlobCore.size, indexSize, loadBE_congr hkept,
      loadBE_storeBE_same h₁, Option.map_some, Nat.mod_eq_of_lt (by omega), UInt32.ofNat_toNat]
  · rw [offset, SuperBlobCore.size, indexSize, loadBE_congr (hload _ _ (by omega)),
      loadBE_storeBE_same h₂, Nat.mod_eq_of_lt (by omega)]
  · have hsame := load_store_same h₃
    rw [hextent] at hsame
    rw [hsame, hblob.bytes_eq]
  · intro start len hout
    rw [hload _ _ (by omega), load_storeBE_of_disjoint h₂ (by omega),
      load_storeBE_of_disjoint h₁ (by omega)]

theorem makeEntries_bounds {pieces : List Piece}
    (hpieces : ∀ piece ∈ pieces, BlobCore.Valid piece.2) (hresult : result.length < 2 ^ 32)
    (hne : pieces ≠ []) (h : makeEntries pieces n pc result = some result') :
    SuperBlobCore.size + (n + pieces.length) * indexSize ≤ result.length ∧
      pc + span pieces ≤ result.length := by
  induction pieces generalizing n pc result with
  | nil => exact absurd rfl hne
  | cons piece pieces ih =>
    have hblob := hpieces piece (List.mem_cons_self ..)
    simp only [makeEntries, hblob.length_eq, Option.bind_eq_bind, Option.bind_some,
      Option.bind_eq_some_iff] at h
    obtain ⟨result₁, hentry, hrest⟩ := h
    have hbounds := makeEntry_bounds hblob hentry
    simp only [SuperBlobCore.size, indexSize, List.length_cons, span_cons] at *
    cases pieces with
    | nil =>
      simp only [List.length_nil, span_nil]
      omega
    | cons next pieces =>
      rw [Nat.mod_eq_of_lt (by omega)] at hrest
      have htail := ih (fun piece hpiece => hpieces piece (List.mem_cons_of_mem _ hpiece))
        (by omega) (List.cons_ne_nil _ _) hrest
      omega

theorem makeEntries_spec {pieces : List Piece} {n pc : Nat} {result : List UInt8}
    (hpieces : ∀ piece ∈ pieces, BlobCore.Valid piece.2) (hresult : result.length < 2 ^ 32)
    (hindex : SuperBlobCore.size + (n + pieces.length) * indexSize ≤ pc)
    (hpc : pc + span pieces ≤ result.length) :
    ∃ result', makeEntries pieces n pc result = some result' ∧
      result'.length = result.length ∧ Packed result' pieces n pc ∧
      ∀ start len, (start + len ≤ SuperBlobCore.size + n * indexSize ∨
        (SuperBlobCore.size + (n + pieces.length) * indexSize ≤ start ∧ start + len ≤ pc)) →
        load result' start len = load result start len := by
  induction pieces generalizing n pc result with
  | nil =>
    refine ⟨result, rfl, rfl, trivial, ?_⟩
    intro start len hout
    rfl
  | cons piece pieces ih =>
    obtain ⟨type, blob⟩ := piece
    have hblob := hpieces (type, blob) (List.mem_cons_self ..)
    simp only [SuperBlobCore.size, indexSize, List.length_cons, span_cons] at *
    obtain ⟨result₁, hentry, hlen₁, hat, hframe₁⟩ := @makeEntry_spec type blob result n pc hblob hresult
      (by simp only [SuperBlobCore.size, indexSize]; omega) (by omega)
    obtain ⟨result₂, hrest, hlen₂, hpacked, hframe₂⟩ :=
      @ih (n + 1) (pc + BlobCore.extent blob) result₁
        (fun piece hpiece => hpieces piece (List.mem_cons_of_mem _ hpiece))
        (by omega) (by omega) (by omega)
    simp only [SuperBlobCore.size, indexSize] at hframe₁
    refine ⟨result₂, ?_, by omega, ⟨?_, hpacked⟩, ?_⟩
    · simp only [makeEntries, hblob.length_eq, Option.bind_eq_bind, Option.bind_some, hentry]
      rw [Nat.mod_eq_of_lt (by omega)]
      exact hrest
    · -- the rest of the loop writes behind entry `n` and behind its blob
      constructor
      · rw [← hat.type_eq, SuperBlobCore.type, SuperBlobCore.type, SuperBlobCore.size, indexSize,
          loadBE_congr (hframe₂ _ _ (by omega))]
      · rw [← hat.offset_eq, offset, offset, SuperBlobCore.size, indexSize,
          loadBE_congr (hframe₂ _ _ (by omega))]
      · have hkept := hframe₂ pc (BlobCore.extent blob) (by omega)
        exact hkept.trans hat.load_eq
    · intro start len hout
      rw [hframe₂ _ _ (by omega), hframe₁ _ _ (by omega)]

/-- The octets the super-blob of these pieces takes. -/
def total (pieces : List Piece) : Nat :=
  SuperBlobCore.size + pieces.length * indexSize + span pieces
end Maker

structure Assembled (magic : UInt32) (blobs : List UInt8) (pieces : List Piece) : Prop where
  magic_eq : BlobCore.magic blobs = some magic.toNat
  length_eq : BlobCore.length blobs = some (Maker.total pieces)
  count_eq : count blobs = some pieces.length
  extent_eq : blobs.length = Maker.total pieces
  packed : Packed blobs pieces 0 (size + pieces.length * indexSize)

namespace Maker
theorem mapM_length {pieces : List Piece} (hpieces : ∀ piece ∈ pieces, BlobCore.Valid piece.2) :
    pieces.mapM (fun piece => BlobCore.length piece.2) =
      some (pieces.map fun piece => BlobCore.extent piece.2) := by
  induction pieces with
  | nil => rfl
  | cons piece pieces ih =>
    have hblob := hpieces piece (List.mem_cons_self ..)
    have htail := ih fun piece hpiece => hpieces piece (List.mem_cons_of_mem _ hpiece)
    rw [List.mapM_cons, hblob.length_eq, htail]
    rfl

theorem size_eq {mPieces : Maker} (hpieces : ∀ piece ∈ mPieces.toList, BlobCore.Valid piece.2) :
    size mPieces [] = some (total mPieces.toList % 2 ^ 64) := by
  simp [size, mapM_length hpieces, total, span, Std.TreeMap.length_toList]

section Setup

variable {magic : UInt32} {blobs blobs' : List UInt8} {len count : Nat}

theorem size_le_of_setup (h : setup magic blobs len count = some blobs') :
    SuperBlobCore.size ≤ blobs.length ∧ blobs'.length = blobs.length := by
  simp only [setup, BlobCore.initializeHeader, Option.bind_eq_bind, Option.bind_eq_some_iff] at h
  obtain ⟨blobs₂, ⟨blobs₁, h₁, h₂⟩, h₃⟩ := h
  have hle := le_of_storeBE h₃
  have hlen₁ := length_of_storeBE h₁
  have hlen₂ := length_of_storeBE h₂
  have hlen₃ := length_of_storeBE h₃
  simp only [SuperBlobCore.size]
  omega

theorem setup_spec (hlen : len < 2 ^ 32) (hcount : count < 2 ^ 32)
    (hsize : SuperBlobCore.size ≤ blobs.length) :
    ∃ blobs', setup magic blobs len count = some blobs' ∧ blobs'.length = blobs.length ∧
      BlobCore.magic blobs' = some magic.toNat ∧ BlobCore.length blobs' = some len ∧
      SuperBlobCore.count blobs' = some count := by
  simp only [SuperBlobCore.size] at hsize
  have hmagic := magic.toNat_lt
  obtain ⟨blobs₁, h₁⟩ := exists_storeBE blobs 0 4 magic.toNat (by omega)
  have hlen₁ := length_of_storeBE h₁
  obtain ⟨blobs₂, h₂⟩ := exists_storeBE blobs₁ 4 4 len (by omega)
  have hlen₂ := length_of_storeBE h₂
  obtain ⟨blobs₃, h₃⟩ := exists_storeBE blobs₂ 8 4 count (by omega)
  have hlen₃ := length_of_storeBE h₃
  refine ⟨blobs₃, ?_, by omega, ?_, ?_, ?_⟩
  · simp only [setup, BlobCore.initializeHeader, Option.bind_eq_bind, h₁, h₂, Option.bind_some]
    exact h₃
  · have hkept : load blobs₃ 0 4 = load blobs₁ 0 4 := by
      rw [load_storeBE_of_disjoint h₃ (by omega), load_storeBE_of_disjoint h₂ (by omega)]
    rw [BlobCore.magic, loadBE_congr hkept, loadBE_storeBE_same h₁, Nat.mod_eq_of_lt (by omega)]
  · rw [BlobCore.length, loadBE_congr (load_storeBE_of_disjoint h₃ (by omega)),
      loadBE_storeBE_same h₂, Nat.mod_eq_of_lt (by omega)]
  · rw [SuperBlobCore.count, loadBE_storeBE_same h₃, Nat.mod_eq_of_lt (by omega)]
end Setup

variable {heap : Heap} {magic : UInt32} {mPieces : Maker}

/-- With a size of 2³² or more the allocation is too small for what is written to it. -/
theorem total_lt_of_make (hpieces : ∀ piece ∈ mPieces.toList, BlobCore.Valid piece.2)
    {blobs : List UInt8} (h : make heap magic mPieces = some blobs) :
    total mPieces.toList < 2 ^ 32 := by
  obtain ⟨pieces, hlist⟩ : ∃ pieces, pieces = mPieces.toList := ⟨_, rfl⟩
  simp only [make, size_eq hpieces, Option.bind_eq_bind, Option.bind_some,
    Option.bind_eq_some_iff, ← Std.TreeMap.length_toList] at h
  obtain ⟨result, hsetup, hentries⟩ := h
  rw [← hlist] at hpieces hsetup hentries ⊢
  have hmod : total pieces % 2 ^ 64 % 2 ^ 32 = total pieces % 2 ^ 32 :=
    Nat.mod_mod_of_dvd _ (by decide)
  have hresult := (size_le_of_setup hsetup).2
  rw [heap.length_malloc, hmod] at hresult
  by_cases hne : pieces = []
  · simp [hne, total, SuperBlobCore.size]
  · have hbounds := makeEntries_bounds hpieces (by omega) hne hentries
    rw [Nat.zero_add] at hbounds
    have hpc : SuperBlobCore.size + pieces.length * indexSize < 2 ^ 32 := by omega
    rw [Nat.mod_eq_of_lt hpc] at hbounds
    have hle : total pieces ≤ result.length := hbounds.2
    omega

theorem make_spec (hpieces : ∀ piece ∈ mPieces.toList, BlobCore.Valid piece.2)
    (htotal : total mPieces.toList < 2 ^ 32) :
    ∃ blobs, make heap magic mPieces = some blobs ∧ Assembled magic blobs mPieces.toList := by
  obtain ⟨pieces, hlist⟩ : ∃ pieces, pieces = mPieces.toList := ⟨_, rfl⟩
  simp only [make, size_eq hpieces, Option.bind_eq_bind, Option.bind_some,
    ← Std.TreeMap.length_toList]
  rw [← hlist] at hpieces htotal ⊢
  have hparts : total pieces = SuperBlobCore.size + pieces.length * indexSize + span pieces := rfl
  have hcount : pieces.length < 2 ^ 32 := by
    rw [indexSize] at hparts
    omega
  rw [Nat.mod_eq_of_lt (show total pieces < 2 ^ 64 by omega), Nat.mod_eq_of_lt htotal,
    Nat.mod_eq_of_lt hcount, Nat.mod_eq_of_lt (by omega)]
  have hmalloc := heap.length_malloc (total pieces)
  obtain ⟨result, hsetup, hlen, hmagic, hlength, hcountEq⟩ :=
    @setup_spec magic (heap.malloc (total pieces)) (total pieces) pieces.length htotal hcount
      (by omega)
  obtain ⟨blobs, hentries, hlen', hpacked, hframe⟩ :=
    @makeEntries_spec pieces 0 (SuperBlobCore.size + pieces.length * indexSize) result hpieces
      (by omega) (by rw [Nat.zero_add]) (by omega)
  simp only [SuperBlobCore.size] at hframe
  refine ⟨blobs, ?_, ?_, ?_, ?_, by omega, hpacked⟩
  · rw [hsetup, Option.bind_some, hentries]
  · rw [BlobCore.magic, loadBE_congr (hframe _ _ (by omega))]
    exact hmagic
  · rw [BlobCore.length, loadBE_congr (hframe _ _ (by omega))]
    exact hlength
  · rw [count, loadBE_congr (hframe _ _ (by omega))]
    exact hcountEq
end Maker

namespace EntryAt
variable {blobs : List UInt8} {n pc : Nat} {piece : Piece}

theorem length_at (h : EntryAt blobs n pc piece) (hblob : BlobCore.Valid piece.2) :
    BlobCore.length (BlobCore.at blobs pc) = some (BlobCore.extent piece.2) := by
  have hbytes := hblob.bytes_eq
  have hload := h.load_eq.trans hbytes
  have hcopy := length_of_load hload
  have hheader : BlobCore.size ≤ BlobCore.extent piece.2 := hblob.header
  have hlength := BlobCore.length_copy hbytes (by omega)
  have hpc := (load_eq_some_iff.mp hload).1
  rw [BlobCore.length, BlobCore.at, loadBE_drop _ _ _ _ (by omega),
    ← loadBE_of_load hload (by simpa [BlobCore.size] using hheader)]
  rw [BlobCore.length, hcopy] at hlength
  exact hlength

theorem bytes_at (h : EntryAt blobs n pc piece) (hblob : BlobCore.Valid piece.2) :
    BlobCore.bytes (BlobCore.at blobs pc) = BlobCore.bytes piece.2 := by
  have hload := h.load_eq.trans hblob.bytes_eq
  have hpc := (load_eq_some_iff.mp hload).1
  rw [BlobCore.bytes, h.length_at hblob, Option.bind_eq_bind, Option.bind_some, BlobCore.at,
    load_drop _ _ _ _ (by omega), Nat.add_zero, h.load_eq]

theorem blob_eq (h : EntryAt blobs n pc piece) (hpc : pc ≠ 0) :
    blob blobs n = some (some (BlobCore.at blobs pc)) := by
  simp [blob, h.offset_eq, hpc]
end EntryAt

namespace Packed
variable {blobs : List UInt8} {pieces : List Piece} {n pc : Nat}

theorem getElem {k : Nat} (h : Packed blobs pieces n pc) (hk : k < pieces.length) :
    ∃ pc', EntryAt blobs (n + k) pc' pieces[k] ∧ pc ≤ pc' ∧
      pc' + BlobCore.extent pieces[k].2 ≤ pc + span pieces := by
  induction pieces generalizing n pc k with
  | nil => simp at hk
  | cons piece pieces ih =>
    cases k with
    | zero =>
      refine ⟨pc, h.1, le_rfl, ?_⟩
      simp
    | succ k =>
      obtain ⟨pc', hat, hle, hend⟩ := ih h.2 (Nat.lt_of_succ_lt_succ hk)
      refine ⟨pc', ?_, by omega, ?_⟩
      · rw [show n + (k + 1) = n + 1 + k by omega]
        exact hat
      · simp only [List.getElem_cons_succ, span_cons]
        omega

def rangesOf : List Piece → Nat → List SBRange
  | [], _ => []
  | piece :: pieces, pc =>
    ⟨pc, pc + BlobCore.extent piece.2⟩ :: rangesOf pieces (pc + BlobCore.extent piece.2)

theorem ranges_eq (h : Packed blobs pieces n pc) (hpc : 0 < pc)
    (hpieces : ∀ piece ∈ pieces, BlobCore.Valid piece.2) :
    ranges blobs pieces.length n = some (rangesOf pieces pc) := by
  induction pieces generalizing n pc with
  | nil => rfl
  | cons piece pieces ih =>
    have hblob := hpieces piece (List.mem_cons_self ..)
    have htail := ih h.2 (by omega) fun piece hpiece => hpieces piece (List.mem_cons_of_mem _ hpiece)
    simp only [List.length_cons, ranges, h.1.offset_eq, h.1.blob_eq hpc.ne',
      h.1.length_at hblob, htail, Option.bind_eq_bind, Option.bind_some, rangesOf]
    rfl

theorem le_base_of_mem_rangesOf {range : SBRange} (hrange : range ∈ rangesOf pieces pc) :
    pc ≤ range.base := by
  induction pieces generalizing pc with
  | nil => simp [rangesOf] at hrange
  | cons piece pieces ih =>
    rcases List.mem_cons.mp hrange with rfl | hrange
    · exact le_rfl
    · exact (Nat.le_add_right ..).trans (ih hrange)

theorem insertionSort_rangesOf (pieces : List Piece) (pc : Nat) :
    (rangesOf pieces pc).insertionSort (fun a b => a.base ≤ b.base) = rangesOf pieces pc := by
  apply List.Pairwise.insertionSort_eq
  induction pieces generalizing pc with
  | nil => exact List.Pairwise.nil
  | cons piece pieces ih =>
    apply List.Pairwise.cons _ (ih _)
    intro range hrange
    exact (Nat.le_add_right ..).trans (le_base_of_mem_rangesOf hrange)

theorem adjacent_rangesOf (pieces : List Piece) (pc : Nat) :
    adjacent pc (pc + span pieces) (rangesOf pieces pc) = true := by
  induction pieces generalizing pc with
  | nil => simp [rangesOf, adjacent]
  | cons piece pieces ih =>
    have htail := ih (pc + BlobCore.extent piece.2)
    rw [Nat.add_assoc] at htail
    simp [rangesOf, adjacent, htail]
end Packed

def findBytes (blobs : List UInt8) (type : UInt32) : Option (Option (List UInt8)) := do
  match ← find blobs type with
  | none => some none
  | some blob => some (← BlobCore.bytes blob)

/-- Both validators accept the super-blob, under every maximum it does not exceed. -/
def Accepted (magic : UInt32) (blobs : List UInt8) : Prop :=
  ∀ maxSize, maxSize = 0 ∨ blobs.length ≤ maxSize →
    validateBlob magic blobs maxSize = some true ∧
      strictValidateBlob magic blobs maxSize = some true

namespace Assembled
variable {magic : UInt32} {blobs : List UInt8} {pieces : List Piece}

theorem validateEntry_eq (h : Assembled magic blobs pieces)
    (hpieces : ∀ piece ∈ pieces, BlobCore.Valid piece.2) {k : Nat} (hk : k < pieces.length) :
    validateEntry blobs (size + pieces.length * indexSize) k = some true := by
  obtain ⟨pc, hat, hle, hend⟩ := h.packed.getElem hk
  have hblob := hpieces pieces[k] (List.getElem_mem hk)
  have hheader : BlobCore.size ≤ BlobCore.extent pieces[k].2 := hblob.header
  have htotal : Maker.total pieces = size + pieces.length * indexSize + span pieces := rfl
  have hpc : pc ≠ 0 := by
    simp only [size] at hle
    omega
  rw [Nat.zero_add] at hat
  simp only [validateEntry, hat.offset_eq, h.length_eq, hat.length_at hblob, Option.bind_eq_bind,
    Option.bind_some]
  rw [if_neg hpc, if_neg (by omega), if_neg (by omega)]
  simp only [Option.pure_def, Option.some.injEq, decide_eq_true_eq]
  omega

theorem validateIndex_eq (h : Assembled magic blobs pieces)
    (hpieces : ∀ piece ∈ pieces, BlobCore.Valid piece.2) {count : Nat}
    (hcount : count ≤ pieces.length) :
    validateIndex blobs (size + pieces.length * indexSize) count = some true := by
  induction count with
  | zero => rfl
  | succ count ih =>
    simp [validateIndex, h.validateEntry_eq hpieces hcount, ih (Nat.le_of_succ_le hcount)]

theorem validateBlob_eq (h : Assembled magic blobs pieces)
    (hpieces : ∀ piece ∈ pieces, BlobCore.Valid piece.2) {maxSize : Nat}
    (hmax : maxSize = 0 ∨ blobs.length ≤ maxSize) :
    validateBlob magic blobs maxSize = some true := by
  have htotal : Maker.total pieces = size + pieces.length * indexSize + span pieces := rfl
  have hextent := h.extent_eq
  have hmin : size + pieces.length * indexSize ≠ 0 := by simp [size]
  have hsmall : ¬(if size + pieces.length * indexSize ≠ 0 then
      Maker.total pieces < size + pieces.length * indexSize
      else Maker.total pieces < BlobCore.size) := by
    rw [if_pos hmin]
    omega
  have hframe : BlobCore.validateBlob blobs magic.toNat (size + pieces.length * indexSize) maxSize =
      some true := by
    simp only [BlobCore.validateBlob, h.length_eq, h.magic_eq, Option.bind_eq_bind,
      Option.bind_some]
    rw [if_neg (by simp), if_neg hsmall, if_neg (by omega)]
    rfl
  simp [validateBlob, h.count_eq, hframe, h.validateIndex_eq hpieces le_rfl]

theorem strictValidateBlob_eq (h : Assembled magic blobs pieces)
    (hpieces : ∀ piece ∈ pieces, BlobCore.Valid piece.2) {maxSize : Nat}
    (hmax : maxSize = 0 ∨ blobs.length ≤ maxSize) :
    strictValidateBlob magic blobs maxSize = some true := by
  have hpc : 0 < size + pieces.length * indexSize := by simp [size]
  simp only [strictValidateBlob, h.validateBlob_eq hpieces hmax, h.count_eq, h.length_eq,
    h.packed.ranges_eq hpc hpieces, Packed.insertionSort_rangesOf, Option.bind_eq_bind,
    Option.bind_some]
  by_cases hcount : pieces.length = 0
  · have hnil := List.length_eq_zero_iff.mp hcount
    simp [hnil, Maker.total]
  · simpa [hcount, Maker.total] using Packed.adjacent_rangesOf pieces (size + pieces.length * indexSize)

theorem accepted (h : Assembled magic blobs pieces)
    (hpieces : ∀ piece ∈ pieces, BlobCore.Valid piece.2) : Accepted magic blobs := by
  intro maxSize hmax
  exact ⟨h.validateBlob_eq hpieces hmax, h.strictValidateBlob_eq hpieces hmax⟩
end Assembled

def firstBytes (pieces : List Piece) (type : UInt32) : Option (List UInt8) :=
  (pieces.lookup type).bind BlobCore.bytes

def pointerBytes : Option (List UInt8) → Option (Option (List UInt8))
  | none => some none
  | some blob => (BlobCore.bytes blob).map some

theorem findBytes_eq (blobs : List UInt8) (type : UInt32) :
    findBytes blobs type =
      (count blobs).bind fun n => (findSlot blobs type n 0).bind pointerBytes := by
  unfold findBytes find
  cases count blobs with
  | none => rfl
  | some n =>
    simp only [Option.bind_eq_bind, Option.bind_some]
    congr 1
    funext found
    cases found with
    | none => rfl
    | some blob => cases hbytes : BlobCore.bytes blob <;> simp [pointerBytes, hbytes]

theorem Packed.findSlot_eq {blobs : List UInt8} {pieces : List Piece} {n pc : Nat} (type : UInt32)
    (h : Packed blobs pieces n pc) (hpc : 0 < pc)
    (hpieces : ∀ piece ∈ pieces, BlobCore.Valid piece.2) :
    (findSlot blobs type pieces.length n).bind pointerBytes = some (firstBytes pieces type) := by
  induction pieces generalizing n pc with
  | nil => rfl
  | cons piece pieces ih =>
    have hblob := hpieces piece (List.mem_cons_self ..)
    have htail := ih h.2 (by omega) fun piece hpiece => hpieces piece (List.mem_cons_of_mem _ hpiece)
    obtain ⟨key, blob⟩ := piece
    by_cases htype : key = type
    · subst htype
      simp [findSlot, h.1.type_eq, h.1.blob_eq hpc.ne', pointerBytes, h.1.bytes_at hblob,
        firstBytes, hblob.bytes_eq]
    · have hkey : (type == key) = false := beq_false_of_ne fun heq => htype heq.symm
      simpa [findSlot, h.1.type_eq, htype, firstBytes, List.lookup_cons, hkey] using htail

theorem Assembled.findBytes_eq {magic : UInt32} {blobs : List UInt8} {pieces : List Piece}
    (h : Assembled magic blobs pieces) (hpieces : ∀ piece ∈ pieces, BlobCore.Valid piece.2)
    (type : UInt32) : findBytes blobs type = some (firstBytes pieces type) := by
  rw [SuperBlobCore.findBytes_eq, h.count_eq, Option.bind_some]
  apply h.packed.findSlot_eq type _ hpieces
  simp [size]
end SuperBlobCore
end SecurityFramework
