import SecurityFramework.SecurityUtilities.SuperBlobRoundTrip

/-! # Copies of super-blobs -/

namespace SecurityFramework
open Memory

namespace SuperBlobCore
def entriesFrom (blobs : List UInt8) : Nat → Nat → Option (List Piece)
  | 0, _ => some []
  | count + 1, ix => do
    let type ← type blobs ix
    let blob ← (← blob blobs ix)
    let copy ← BlobCore.bytes blob
    return (type, copy) :: (← entriesFrom blobs count (ix + 1))

def entries (blobs : List UInt8) : Option (List Piece) := do
  entriesFrom blobs (← count blobs) 0

def Maker.addAll (mPieces : Maker) (added : List Piece) : Maker :=
  added.foldl (fun mPieces piece => mPieces.add piece.1 piece.2) mPieces

theorem Maker.addEntries_eq (blobs : List UInt8) (count ix : Nat) (mPieces : Maker) :
    addEntries blobs count ix mPieces = (entriesFrom blobs count ix).map mPieces.addAll := by
  induction count generalizing ix mPieces with
  | zero => rfl
  | succ count ih =>
    simp only [addEntries, entriesFrom, Option.bind_eq_bind, BlobCore.clone]
    cases type blobs ix with
    | none => rfl
    | some type =>
      cases blob blobs ix with
      | none => rfl
      | some blob =>
        cases blob with
        | none => rfl
        | some blob =>
          simp only [Option.bind_some]
          cases BlobCore.bytes blob with
          | none => rfl
          | some copy =>
            simp only [Option.bind_some, ih]
            cases entriesFrom blobs count (ix + 1) <;> rfl

theorem Maker.addBlobs_eq (mPieces : Maker) (blobs : List UInt8) :
    mPieces.addBlobs blobs = (entries blobs).map mPieces.addAll := by
  unfold addBlobs entries
  cases count blobs with
  | none => rfl
  | some n => exact addEntries_eq blobs n 0 mPieces

variable {blobs : List UInt8} {ix : Nat} {pieces : List Piece} {magic : UInt32} {mPieces : Maker}

theorem findSlot_of_entriesFrom {n : Nat} (type : UInt32)
    (h : entriesFrom blobs n ix = some pieces) :
    (findSlot blobs type n ix).bind pointerBytes = some (pieces.lookup type) := by
  induction n generalizing ix pieces with
  | zero =>
    cases h
    rfl
  | succ n ih =>
    simp only [entriesFrom, Option.bind_eq_bind, Option.bind_eq_some_iff, Option.pure_def,
      Option.some.injEq] at h
    obtain ⟨key, hkey, pointer, hpointer, blob, rfl, copy, hcopy, rest, hrest, rfl⟩ := h
    by_cases htype : key = type
    · subst htype
      simp [findSlot, hkey, hpointer, pointerBytes, hcopy]
    · have hne : (type == key) = false := beq_false_of_ne fun heq => htype heq.symm
      simpa [findSlot, hkey, htype, List.lookup_cons, hne] using ih hrest

theorem findBytes_of_entries (type : UInt32) (h : entries blobs = some pieces) :
    findBytes blobs type = some (pieces.lookup type) := by
  obtain ⟨n, hcount, hentries⟩ := Option.bind_eq_some_iff.mp h
  rw [findBytes_eq, hcount, Option.bind_some, findSlot_of_entriesFrom type hentries]

def firstPieces : List Piece → List Piece
  | [] => []
  | piece :: pieces => piece :: (firstPieces pieces).filter fun later => later.1 ≠ piece.1

theorem mem_of_lookup {type : UInt32} {blob : List UInt8} (h : pieces.lookup type = some blob) :
    (type, blob) ∈ pieces := by
  induction pieces with
  | nil => simp at h
  | cons piece pieces ih =>
    obtain ⟨key, first⟩ := piece
    by_cases htype : type = key
    · subst htype
      simp at h
      simp [h]
    · have hne : (type == key) = false := beq_false_of_ne htype
      rw [List.lookup_cons, hne] at h
      exact List.mem_cons_of_mem _ (ih h)

theorem lookup_eq_some_iff {type : UInt32} {blob : List UInt8}
    (hdistinct : pieces.Pairwise fun a b => a.1 ≠ b.1) :
    pieces.lookup type = some blob ↔ (type, blob) ∈ pieces := by
  induction pieces with
  | nil => simp
  | cons piece pieces ih =>
    obtain ⟨hhead, htail⟩ := List.pairwise_cons.mp hdistinct
    obtain ⟨key, first⟩ := piece
    by_cases htype : type = key
    · subst htype
      have hnot : (type, blob) ∉ pieces := fun hmem => hhead _ hmem rfl
      simp [hnot, eq_comm]
    · have hne : (type == key) = false := beq_false_of_ne htype
      simp [List.lookup_cons, hne, htype, ih htail]

theorem lookup_filter_ne (pieces : List Piece) {type key : UInt32} (hne : type ≠ key) :
    (pieces.filter fun later => later.1 ≠ key).lookup type = pieces.lookup type := by
  induction pieces with
  | nil => rfl
  | cons piece pieces ih =>
    obtain ⟨first, blob⟩ := piece
    by_cases hfirst : first = key
    · have hskip : (type == first) = false := beq_false_of_ne fun heq => hne (heq.trans hfirst)
      rw [List.filter_cons_of_neg (by simpa using hfirst), ih, List.lookup_cons, hskip]
    · rw [List.filter_cons_of_pos (by simpa using hfirst), List.lookup_cons, List.lookup_cons, ih]

theorem lookup_firstPieces (pieces : List Piece) (type : UInt32) :
    (firstPieces pieces).lookup type = pieces.lookup type := by
  induction pieces with
  | nil => rfl
  | cons piece pieces ih =>
    obtain ⟨key, blob⟩ := piece
    by_cases htype : type = key
    · subst htype
      simp [firstPieces]
    · have hne : (type == key) = false := beq_false_of_ne htype
      rw [firstPieces, List.lookup_cons, List.lookup_cons, hne]
      exact (lookup_filter_ne _ htype).trans ih

theorem firstPieces_distinct (pieces : List Piece) :
    (firstPieces pieces).Pairwise fun a b => a.1 ≠ b.1 := by
  induction pieces with
  | nil => exact List.Pairwise.nil
  | cons piece pieces ih =>
    apply List.Pairwise.cons _ (ih.filter _)
    intro later hlater
    have hne := (List.mem_filter.mp hlater).2
    exact fun heq => (of_decide_eq_true hne) heq.symm

theorem perm_of_lookup_eq {pieces' : List Piece} (hdistinct : pieces.Pairwise fun a b => a.1 ≠ b.1)
    (hdistinct' : pieces'.Pairwise fun a b => a.1 ≠ b.1)
    (hlookup : ∀ type, pieces.lookup type = pieces'.lookup type) : pieces.Perm pieces' := by
  have hnodup : pieces.Nodup := hdistinct.imp fun hne heq => hne (by rw [heq])
  have hnodup' : pieces'.Nodup := hdistinct'.imp fun hne heq => hne (by rw [heq])
  apply (List.perm_ext_iff_of_nodup hnodup hnodup').mpr
  intro piece
  rw [← lookup_eq_some_iff hdistinct, ← lookup_eq_some_iff hdistinct', hlookup]

namespace Maker
theorem total_perm {pieces pieces' : List Piece} (h : pieces.Perm pieces') :
    total pieces = total pieces' := by
  rw [total, total, h.length_eq, span, span, (h.map _).sum_nat]

theorem toList_distinct (mPieces : Maker) : mPieces.toList.Pairwise fun a b => a.1 ≠ b.1 := by
  apply Std.TreeMap.distinct_keys_toList.imp
  intro a b hne heq
  exact hne (by simp [heq])

theorem lookup_toList (mPieces : Maker) (type : UInt32) :
    mPieces.toList.lookup type = mPieces[type]? := by
  apply Option.ext
  intro blob
  rw [lookup_eq_some_iff mPieces.toList_distinct, Std.TreeMap.mem_toList_iff_getElem?_eq_some]

/-- Of several pieces of one type the last one stays. -/
theorem getElem?_addAll (mPieces : Maker) (added : List Piece) (type : UInt32) :
    (mPieces.addAll added)[type]? = (added.reverse.lookup type).or mPieces[type]? := by
  induction added generalizing mPieces with
  | nil => rfl
  | cons piece added ih =>
    obtain ⟨key, blob⟩ := piece
    have htail := ih (mPieces.add key blob)
    rw [addAll, List.foldl_cons]
    rw [addAll] at htail
    rw [htail, add, Std.TreeMap.getElem?_insert, List.reverse_cons, List.lookup_append,
      Option.or_assoc]
    congr 1
    by_cases htype : type = key
    · subst htype
      simp
    · have hne : (type == key) = false := beq_false_of_ne htype
      have hcompare : ¬compare key type = .eq := fun heq =>
        htype (Std.LawfulEqOrd.eq_of_compare heq).symm
      simp [hcompare, List.lookup_cons, hne]
end Maker

/-- A super-blob that validates, in an allocation that holds its whole length. -/
structure Valid (magic : UInt32) (blobs : List UInt8) : Prop where
  validate : validateBlob magic blobs 0 = some true
  extent_le : BlobCore.extent blobs ≤ blobs.length

def NoNullEntry (blobs : List UInt8) : Prop :=
  ∀ n ix, count blobs = some n → ix < n → offset blobs ix ≠ some 0

theorem validateEntry_of_validateIndex {ixLimit n : Nat}
    (h : validateIndex blobs ixLimit n = some true) (hix : ix < n) :
    validateEntry blobs ixLimit ix = some true := by
  induction n with
  | zero => exact absurd hix (Nat.not_lt_zero ix)
  | succ n ih =>
    obtain ⟨ok, hentry, hrest⟩ := Option.bind_eq_some_iff.mp h
    cases ok with
    | false => simp at hrest
    | true =>
      rcases Nat.lt_succ_iff_lt_or_eq.mp hix with hlt | rfl
      · exact ih (by simpa using hrest) hlt
      · exact hentry

theorem exists_bytes_of_validateEntry {ixLimit start : Nat}
    (hextent : BlobCore.extent blobs ≤ blobs.length) (hoffset : offset blobs ix = some start)
    (hne : start ≠ 0) (h : validateEntry blobs ixLimit ix = some true) :
    ∃ copy, BlobCore.bytes (BlobCore.at blobs start) = some copy := by
  simp only [validateEntry, hoffset, Option.bind_eq_bind, Option.bind_some, if_neg hne,
    Option.bind_eq_some_iff] at h
  obtain ⟨len, hlength, h⟩ := h
  rw [BlobCore.extent, hlength, Option.getD_some] at hextent
  by_cases hlimit : start < ixLimit
  · simp [hlimit] at h
  · by_cases hheader : start + BlobCore.size > len
    · simp [hlimit, hheader] at h
    · simp only [if_neg hlimit, if_neg hheader, Option.bind_eq_some_iff, Option.pure_def,
        Option.some.injEq, decide_eq_true_eq] at h
      obtain ⟨blobLen, hblobLen, hle⟩ := h
      have hload := load_isSome_iff.mpr (show start + blobLen ≤ blobs.length by omega)
      obtain ⟨copy, hcopy⟩ := Option.isSome_iff_exists.mp hload
      refine ⟨copy, ?_⟩
      rw [BlobCore.bytes, hblobLen, Option.bind_eq_bind, Option.bind_some, BlobCore.at,
        load_drop _ _ _ _ (by omega), Nat.add_zero, hcopy]

theorem count_of_validateBlob (h : Valid magic blobs) :
    ∃ n, count blobs = some n ∧ size + n * indexSize ≤ blobs.length ∧
      validateIndex blobs (size + n * indexSize) n = some true := by
  obtain ⟨n, hcount, hvalidate⟩ := Option.bind_eq_some_iff.mp h.validate
  obtain ⟨ok, hframe, hindex⟩ := Option.bind_eq_some_iff.mp hvalidate
  cases ok with
  | false => simp at hindex
  | true =>
    have hmin : size + n * indexSize ≠ 0 := by simp [size]
    have hle := BlobCore.le_extent_of_validateBlob hframe hmin
    exact ⟨n, hcount, hle.trans h.extent_le, by simpa using hindex⟩

theorem exists_entriesFrom {n : Nat}
    (hindex : ∀ k, ix ≤ k → k < ix + n → ∃ type, SuperBlobCore.type blobs k = some type)
    (hblob : ∀ k, ix ≤ k → k < ix + n →
      ∃ start copy, offset blobs k = some start ∧ start ≠ 0 ∧
        BlobCore.bytes (BlobCore.at blobs start) = some copy) :
    ∃ pieces, entriesFrom blobs n ix = some pieces := by
  induction n generalizing ix with
  | zero => exact ⟨[], rfl⟩
  | succ n ih =>
    obtain ⟨type, htype⟩ := hindex ix le_rfl (by omega)
    obtain ⟨start, copy, hoffset, hne, hcopy⟩ := hblob ix le_rfl (by omega)
    obtain ⟨pieces, hrest⟩ := @ih (ix + 1) (fun k hle hlt => hindex k (by omega) (by omega))
      (fun k hle hlt => hblob k (by omega) (by omega))
    refine ⟨(type, copy) :: pieces, ?_⟩
    simp [entriesFrom, htype, blob, hoffset, hne, hcopy, hrest]

theorem ne_null_of_entriesFrom {n k : Nat} (h : entriesFrom blobs n ix = some pieces) (hle : ix ≤ k)
    (hlt : k < ix + n) :
    offset blobs k ≠ some 0 := by
  induction n generalizing ix pieces with
  | zero => omega
  | succ n ih =>
    simp only [entriesFrom, Option.bind_eq_bind, Option.bind_eq_some_iff, Option.pure_def,
      Option.some.injEq] at h
    obtain ⟨key, hkey, pointer, hpointer, start, rfl, copy, hcopy, rest, hrest, rfl⟩ := h
    by_cases hk : k = ix
    · subst hk
      intro hnull
      simp [blob, hnull] at hpointer
    · exact ih hrest (by omega) (by omega)

/-- A valid super-blob can be copied entry by entry unless an entry is null. -/
theorem exists_entries_iff (h : Valid magic blobs) :
    (∃ pieces, entries blobs = some pieces) ↔ NoNullEntry blobs := by
  obtain ⟨n, hcount, hsize, hvalidate⟩ := count_of_validateBlob h
  constructor
  · intro hentries n' ix hcount' hix
    obtain ⟨pieces, hentries⟩ := hentries
    rw [entries, hcount', Option.bind_eq_bind, Option.bind_some] at hentries
    exact ne_null_of_entriesFrom hentries (Nat.zero_le ix) (by omega)
  · intro hnull
    rw [entries, hcount, Option.bind_eq_bind, Option.bind_some]
    simp only [size, indexSize] at hsize
    apply exists_entriesFrom
    · intro ix _ hix
      obtain ⟨value, hvalue⟩ := exists_loadBE (show size + ix * indexSize + 4 ≤ blobs.length by
        simp only [size, indexSize]
        omega)
      exact ⟨UInt32.ofNat value, by rw [type, hvalue, Option.map_some]⟩
    · intro ix _ hix
      obtain ⟨start, hstart⟩ := exists_loadBE (show size + ix * indexSize + 4 + 4 ≤ blobs.length by
        simp only [size, indexSize]
        omega)
      have hne : start ≠ 0 := by
        intro hzero
        apply hnull n ix hcount (by omega)
        rw [offset, hstart, hzero]
      have hentry := validateEntry_of_validateIndex hvalidate (show ix < n by omega)
      obtain ⟨copy, hcopy⟩ := exists_bytes_of_validateEntry h.extent_le hstart hne hentry
      exact ⟨start, copy, hstart, hne, hcopy⟩

def MakeRoundTrip (heap : Heap) (magic : UInt32) (mPieces : Maker) : Prop :=
  ∃ blobs, Maker.make heap magic mPieces = some blobs ∧ Accepted magic blobs ∧
    ∀ type blob, mPieces[type]? = some blob → findBytes blobs type = some (BlobCore.bytes blob)

def AddPreserves (heap : Heap) (magic : UInt32) (blobs : List UInt8) : Prop :=
  ∃ mPieces made, Maker.addBlobs ∅ blobs = some mPieces ∧
    Maker.make heap magic mPieces = some made ∧
    ∀ type, findBytes made type = findBytes blobs type

def CopyPreserves (heap : Heap) (magic : UInt32) (src : Maker) : Prop :=
  ∃ mPieces made, Maker.copy src = some mPieces ∧
    Maker.make heap magic mPieces = some made ∧
    ∀ type, findBytes made type = some (src[type]?.bind BlobCore.bytes)

/-- What an index without null entries needs for a faithful copy: the first and the last entry
of a type name the same octets, each blob kept has a header, and the offsets of the new
super-blob fit 32 bits. -/
structure Copyable (pieces : List Piece) : Prop where
  last_eq_first : ∀ type, pieces.reverse.lookup type = pieces.lookup type
  header : ∀ type copy, pieces.lookup type = some copy → BlobCore.size ≤ copy.length
  total_lt : Maker.total (firstPieces pieces) < 2 ^ 32

def Maker.Valid (mPieces : Maker) : Prop :=
  ∀ (type : UInt32) (blob : List UInt8), mPieces[type]? = some blob → BlobCore.Valid blob

theorem valid_of_mem_toList (hpieces : mPieces.Valid) :
    ∀ piece ∈ mPieces.toList, BlobCore.Valid piece.2 := by
  intro piece hpiece
  exact hpieces piece.1 piece.2 (Std.TreeMap.mem_toList_iff_getElem?_eq_some.mp hpiece)

theorem findBytes_of_make {made : List UInt8} (hpieces : mPieces.Valid)
    (h : Assembled magic made mPieces.toList) (type : UInt32) :
    findBytes made type = some (mPieces[type]?.bind BlobCore.bytes) := by
  rw [h.findBytes_eq (valid_of_mem_toList hpieces), firstBytes, Maker.lookup_toList]

theorem makeRoundTrip_iff (heap : Heap) (magic : UInt32) (hpieces : mPieces.Valid) :
    MakeRoundTrip heap magic mPieces ↔ Maker.total mPieces.toList < 2 ^ 32 := by
  have hvalid := valid_of_mem_toList hpieces
  constructor
  · intro h
    obtain ⟨blobs, hmake, -, -⟩ := h
    exact Maker.total_lt_of_make hvalid hmake
  · intro htotal
    obtain ⟨blobs, hmake, hassembled⟩ := Maker.make_spec hvalid htotal
    refine ⟨blobs, hmake, hassembled.accepted hvalid, ?_⟩
    intro type blob hblob
    rw [findBytes_of_make hpieces hassembled, hblob, Option.bind_some]

theorem exists_of_mapM {lengths : List Nat}
    (h : pieces.mapM (fun piece => BlobCore.length piece.2) = some lengths) {piece : Piece}
    (hpiece : piece ∈ pieces) : ∃ len, BlobCore.length piece.2 = some len := by
  induction pieces generalizing lengths with
  | nil => simp at hpiece
  | cons first pieces ih =>
    rw [List.mapM_cons] at h
    obtain ⟨len, hlen, h⟩ := Option.bind_eq_some_iff.mp h
    obtain ⟨rest, hrest, -⟩ := Option.bind_eq_some_iff.mp h
    rcases List.mem_cons.mp hpiece with rfl | hmem
    · exact ⟨len, hlen⟩
    · exact ih hrest hmem

theorem size_le_of_make {heap : Heap} {made : List UInt8}
    (h : Maker.make heap magic mPieces = some made) {type : UInt32} {blob : List UInt8}
    (hblob : mPieces[type]? = some blob) : BlobCore.size ≤ blob.length := by
  obtain ⟨total, hsize, -⟩ := Option.bind_eq_some_iff.mp h
  obtain ⟨lengths, hlengths, -⟩ := Option.bind_eq_some_iff.mp hsize
  have hmem := Std.TreeMap.mem_toList_iff_getElem?_eq_some.mpr hblob
  obtain ⟨len, hlen⟩ := exists_of_mapM hlengths hmem
  exact le_of_loadBE hlen

theorem copy_of_mem_entriesFrom {n : Nat} (h : entriesFrom blobs n ix = some pieces) {piece : Piece}
    (hpiece : piece ∈ pieces) :
    ∃ blob, BlobCore.bytes blob = some piece.2 := by
  induction n generalizing ix pieces with
  | zero =>
    cases h
    simp at hpiece
  | succ n ih =>
    simp only [entriesFrom, Option.bind_eq_bind, Option.bind_eq_some_iff, Option.pure_def,
      Option.some.injEq] at h
    obtain ⟨key, hkey, pointer, hpointer, start, rfl, copy, hcopy, rest, hrest, rfl⟩ := h
    rcases List.mem_cons.mp hpiece with rfl | hmem
    · exact ⟨start, hcopy⟩
    · exact ih hrest hmem

section AddAll

variable {blobs : List UInt8} {pieces : List Piece}

theorem getElem?_addAll_empty (pieces : List Piece) (type : UInt32) :
    (Maker.addAll ∅ pieces)[type]? = pieces.reverse.lookup type := by
  rw [Maker.getElem?_addAll, Std.TreeMap.getElem?_emptyc, Option.or_none]

theorem copy_of_addAll (h : entries blobs = some pieces) {type : UInt32} {copy : List UInt8}
    (hcopy : (Maker.addAll ∅ pieces)[type]? = some copy) :
    ∃ blob, BlobCore.bytes blob = some copy := by
  obtain ⟨n, -, hentries⟩ := Option.bind_eq_some_iff.mp h
  rw [getElem?_addAll_empty] at hcopy
  have hmem : (type, copy) ∈ pieces.reverse := mem_of_lookup hcopy
  exact copy_of_mem_entriesFrom hentries (List.mem_reverse.mp hmem)

def Maker.HasHeaders (mPieces : Maker) : Prop :=
  ∀ (type : UInt32) (blob : List UInt8), mPieces[type]? = some blob → BlobCore.size ≤ blob.length

theorem valid_of_addAll (h : entries blobs = some pieces)
    (hheader : Maker.HasHeaders (Maker.addAll ∅ pieces)) :
    Maker.Valid (Maker.addAll ∅ pieces) := by
  intro type copy hcopy
  obtain ⟨blob, hblob⟩ := copy_of_addAll h hcopy
  exact BlobCore.valid_copy hblob (hheader type copy hcopy)

theorem findBytes_of_addAll {magic : UInt32} {made : List UInt8} (h : entries blobs = some pieces)
    (hheader : Maker.HasHeaders (Maker.addAll ∅ pieces))
    (hassembled : Assembled magic made (Maker.addAll ∅ pieces).toList) (type : UInt32) :
    findBytes made type = some (pieces.reverse.lookup type) := by
  rw [findBytes_of_make (valid_of_addAll h hheader) hassembled]
  cases hpiece : (Maker.addAll ∅ pieces)[type]? with
  | none => rw [← getElem?_addAll_empty, hpiece, Option.bind_none]
  | some copy =>
    obtain ⟨blob, hblob⟩ := copy_of_addAll h hpiece
    rw [Option.bind_some, BlobCore.bytes_copy hblob (hheader type copy hpiece),
      ← getElem?_addAll_empty, hpiece]

theorem toList_addAll_perm (hlast : ∀ type, pieces.reverse.lookup type = pieces.lookup type) :
    (Maker.addAll ∅ pieces).toList.Perm (firstPieces pieces) := by
  apply perm_of_lookup_eq (Maker.toList_distinct _) (firstPieces_distinct pieces)
  intro type
  rw [Maker.lookup_toList, getElem?_addAll_empty, hlast, lookup_firstPieces]
end AddAll

theorem addPreserves_iff (heap : Heap) (hblobs : Valid magic blobs) :
    AddPreserves heap magic blobs ↔
      NoNullEntry blobs ∧ ∀ pieces, entries blobs = some pieces → Copyable pieces := by
  constructor
  · intro h
    obtain ⟨mPieces, made, hadd, hmake, hfind⟩ := h
    rw [Maker.addBlobs_eq] at hadd
    obtain ⟨pieces, hentries, rfl⟩ := Option.map_eq_some_iff.mp hadd
    refine ⟨(exists_entries_iff hblobs).mp ⟨pieces, hentries⟩, ?_⟩
    intro pieces' hentries'
    obtain rfl : pieces = pieces' := Option.some.inj (hentries.symm.trans hentries')
    have hheader : Maker.HasHeaders (Maker.addAll ∅ pieces) :=
      fun type copy hcopy => size_le_of_make hmake hcopy
    have hvalid := valid_of_mem_toList (valid_of_addAll hentries hheader)
    have htotal := Maker.total_lt_of_make hvalid hmake
    obtain ⟨made', hmake', hassembled⟩ := Maker.make_spec hvalid htotal
    obtain rfl : made = made' := Option.some.inj (hmake.symm.trans hmake')
    have hlast : ∀ type, pieces.reverse.lookup type = pieces.lookup type := by
      intro type
      have hmade := findBytes_of_addAll hentries hheader hassembled type
      rw [hfind type, findBytes_of_entries type hentries] at hmade
      exact (Option.some.inj hmade).symm
    constructor
    · exact hlast
    · intro type copy hcopy
      apply hheader type copy
      rw [getElem?_addAll_empty, hlast, hcopy]
    · rwa [← Maker.total_perm (toList_addAll_perm hlast)]
  · intro h
    obtain ⟨hnull, hcopyable⟩ := h
    obtain ⟨pieces, hentries⟩ := (exists_entries_iff hblobs).mpr hnull
    have hpieces := hcopyable pieces hentries
    have hheader : Maker.HasHeaders (Maker.addAll ∅ pieces) := by
      intro type copy hcopy
      apply hpieces.header type copy
      rw [← hpieces.last_eq_first, ← getElem?_addAll_empty, hcopy]
    have hvalid := valid_of_mem_toList (valid_of_addAll hentries hheader)
    have htotal : Maker.total (Maker.addAll ∅ pieces).toList < 2 ^ 32 := by
      rw [Maker.total_perm (toList_addAll_perm hpieces.last_eq_first)]
      exact hpieces.total_lt
    obtain ⟨made, hmake, hassembled⟩ := Maker.make_spec hvalid htotal
    refine ⟨Maker.addAll ∅ pieces, made, ?_, hmake, ?_⟩
    · rw [Maker.addBlobs_eq, hentries, Option.map_some]
    · intro type
      rw [findBytes_of_addAll hentries hheader hassembled, findBytes_of_entries type hentries,
        hpieces.last_eq_first]

theorem copyPreserves_iff (heap : Heap) (magic : UInt32) {src : Maker}
    (hsrc : src.Valid) :
    CopyPreserves heap magic src ↔ src.isEmpty := by
  have hcopy : Maker.copy src = some ∅ := rfl
  have hnone : Maker.Valid ∅ := by
    intro type blob hblob
    simp at hblob
  have htotal : Maker.total (∅ : Maker).toList < 2 ^ 32 := by decide
  obtain ⟨made, hmake, hassembled⟩ := Maker.make_spec (valid_of_mem_toList hnone) htotal
  constructor
  · intro h
    obtain ⟨mPieces, made', hcopy', hmake', hfind⟩ := h
    obtain rfl : ∅ = mPieces := Option.some.inj (hcopy.symm.trans hcopy')
    obtain rfl : made = made' := Option.some.inj (hmake.symm.trans hmake')
    rw [Std.TreeMap.isEmpty_iff_forall_not_mem]
    intro type hmem
    obtain ⟨blob, hblob⟩ := Option.isSome_iff_exists.mp (Std.TreeMap.mem_iff_isSome_getElem?.mp hmem)
    have hmade := findBytes_of_make hnone hassembled type
    rw [hfind type, hblob, Option.bind_some, (hsrc type blob hblob).bytes_eq] at hmade
    simp at hmade
  · intro hempty
    refine ⟨∅, made, hcopy, hmake, ?_⟩
    intro type
    have hsrcNone : src[type]? = none := by
      rw [Std.TreeMap.getElem?_eq_none]
      exact Std.TreeMap.isEmpty_iff_forall_not_mem.mp hempty type
    rw [findBytes_of_make hnone hassembled type, hsrcNone]
    simp

/-- When a maker's super-blob, a super-blob added to an empty maker, and the copy of a maker
keep what `find` gives. -/
theorem maker_preserves_iff (heap : Heap) (magic : UInt32) (mPieces : Maker) (blobs : List UInt8)
    (hpieces : mPieces.Valid) (hblobs : Valid magic blobs) :
    (MakeRoundTrip heap magic mPieces ↔ Maker.total mPieces.toList < 2 ^ 32) ∧
      (AddPreserves heap magic blobs ↔
        NoNullEntry blobs ∧ ∀ pieces, entries blobs = some pieces → Copyable pieces) ∧
      (CopyPreserves heap magic mPieces ↔ mPieces.isEmpty) :=
  ⟨makeRoundTrip_iff heap magic hpieces, addPreserves_iff heap hblobs,
    copyPreserves_iff heap magic hpieces⟩

def zeroHeap : Heap where
  malloc size := List.replicate size 0
  length_malloc _ := List.length_replicate

def headerBlob : List UInt8 := [0xfa, 0xde, 0x0b, 0x01, 0, 0, 0, 8]

def headerMaker : Maker := (∅ : Maker).add 2 headerBlob

def headerSuperBlob : List UInt8 :=
  [0xfa, 0xde, 0x0c, 0xc0, 0, 0, 0, 28, 0, 0, 0, 1, 0, 0, 0, 2, 0, 0, 0, 20] ++ headerBlob

theorem headerMaker_valid : headerMaker.Valid := by
  intro type blob hblob
  have hmem := Std.TreeMap.mem_toList_iff_getElem?_eq_some.mpr hblob
  have hlist : headerMaker.toList = [(2, headerBlob)] := by decide
  rw [hlist, List.mem_singleton, Prod.mk.injEq] at hmem
  rw [hmem.2]
  exact ⟨by decide, by decide⟩

theorem maker_preserves_iff_sample :
    MakeRoundTrip zeroHeap 0xfade0cc0 headerMaker ∧
      AddPreserves zeroHeap 0xfade0cc0 headerSuperBlob ∧
      ¬CopyPreserves zeroHeap 0xfade0cc0 headerMaker := by
  have hvalid : Valid 0xfade0cc0 headerSuperBlob := ⟨by decide, by decide⟩
  obtain ⟨hmake, hadd, hcopy⟩ :=
    maker_preserves_iff zeroHeap 0xfade0cc0 headerMaker headerSuperBlob headerMaker_valid hvalid
  refine ⟨hmake.mpr (by decide), hadd.mpr ⟨?_, ?_⟩, ?_⟩
  · exact (exists_entries_iff hvalid).mp ⟨[(2, headerBlob)], by decide⟩
  · intro pieces hentries
    have hpieces : entries headerSuperBlob = some [(2, headerBlob)] := by decide
    obtain rfl : [(2, headerBlob)] = pieces := Option.some.inj (hpieces.symm.trans hentries)
    refine ⟨fun type => rfl, ?_, by decide⟩
    intro type copy hcopy
    have hmem := mem_of_lookup hcopy
    rw [List.mem_singleton, Prod.mk.injEq] at hmem
    rw [hmem.2]
    decide
  · rw [hcopy]
    decide

/-- The copy of a maker with one valid blob makes a super-blob without it. -/
theorem copy_drops_pieces :
    headerMaker.Valid ∧ ¬CopyPreserves zeroHeap 0xfade0cc0 headerMaker := by
  refine ⟨headerMaker_valid, ?_⟩
  rw [copyPreserves_iff zeroHeap 0xfade0cc0 headerMaker_valid]
  decide
end SuperBlobCore
end SecurityFramework
