import SecurityFramework.Trustd.X501Names

/-! # The copy of a name is its normal form -/

namespace SecurityFramework.Trustd
open DER Abort

namespace Abort
@[simp] theorem ok_bind {α β : Type} (value : α) (next : α → Except Abort β) :
    ((Except.ok value : Except Abort α) >>= next) = next value := rfl

@[simp] theorem pure_eq_ok {α : Type} (value : α) :
    (pure value : Except Abort α) = .ok value := rfl

theorem require_of {condition : Prop} [Decidable condition] (h : condition) :
    require (decide condition) = .ok () := by
  rw [decide_eq_true h]
  rfl

@[simp] theorem noErr_ok {α : Type} (value : α) :
    noErr (.ok value : Except DERFailure α) = .ok value := rfl

@[simp] theorem access_some {α : Type} (value : α) : access (some value) = .ok value := rfl
end Abort

structure ValueCopy.At (copy : ValueCopy) (front junk : DERItem) (pass : Words.Pass UInt8) :
    Prop where
  base_eq : copy.base = front ++ (pass.written ++ junk)
  location : copy.valueCurrentLocation = front.length + pass.written.length
  lastWasBlank : copy.lastWasBlank = pass.lastWasBlank

variable {junk atvs done : DERItem} {pass : Words.Pass UInt8} {copy : RDNCopy}

theorem ValueCopy.At.put {copy : ValueCopy} {front : DERItem} (h : copy.At front junk pass)
    (hroom : 0 < junk.length) (ch : UInt8) (isBlank : Bool) :
    ∃ copy', copy.put ch isBlank = .ok copy' ∧
      copy'.At front junk.tail ⟨pass.written ++ [ch], isBlank⟩ := by
  cases junk with
  | nil => exact absurd hroom (Nat.lt_irrefl 0)
  | cons old junk =>
    have hstore := Memory.store_append (front ++ pass.written) (old :: junk) [ch] (by simp)
    rw [List.length_append, List.append_assoc, ← h.base_eq, ← h.location] at hstore
    refine ⟨⟨front ++ pass.written ++ ([ch] ++ junk), copy.valueCurrentLocation + 1, isBlank⟩, ?_,
      ⟨?_, ?_, rfl⟩⟩
    · rw [ValueCopy.put, hstore]
      rfl
    · simp
    · simp [h.location, Nat.add_assoc]

theorem copyOctet_at {copy : ValueCopy} {front : DERItem} (h : copy.At front junk pass)
    (hroom : 0 < junk.length) (ch : UInt8) :
    ∃ copy' junk', copyOctet front.length copy ch = .ok copy' ∧
      copy'.At front junk' (Words.Pass.step isblank 0x20 upperCase pass ch) ∧
      (Words.Pass.step isblank 0x20 upperCase pass ch).written.length + junk'.length =
        pass.written.length + junk.length := by
  have hput : ∀ ch' isBlank, ∃ copy', copy.put ch' isBlank = .ok copy' ∧
      copy'.At front junk.tail ⟨pass.written ++ [ch'], isBlank⟩ := h.put hroom
  have htail : junk.tail.length + 1 = junk.length := by
    rw [List.length_tail]
    omega
  have hwritten : copy.valueCurrentLocation > front.length ↔ pass.written.isEmpty = false := by
    rw [h.location]
    cases pass.written <;> simp
  rw [copyOctet, Words.Pass.step, h.lastWasBlank]
  split
  case isFalse hother =>
    obtain ⟨copy', hok, hat⟩ := hput (upperCase ch) false
    refine ⟨copy', junk.tail, hok, hat, ?_⟩
    simp only [List.length_append, List.length_singleton]
    omega
  case isTrue hblank =>
    split
    case isTrue hlast => exact ⟨copy, junk, rfl, h, rfl⟩
    case isFalse hlast =>
      split
      case isTrue hlater =>
        obtain ⟨copy', hok, hat⟩ := hput 0x20 true
        rw [hwritten.mp hlater]
        refine ⟨copy', junk.tail, hok, hat, ?_⟩
        simp only [Bool.false_eq_true, if_false, List.length_append, List.length_singleton]
        omega
      case isFalse hfirst =>
        have hempty : pass.written = [] := by
          rw [hwritten, Bool.not_eq_false, List.isEmpty_iff] at hfirst
          exact hfirst
        refine ⟨{ copy with lastWasBlank := true }, junk, rfl, ⟨?_, ?_, rfl⟩, ?_⟩
        · simpa [hempty] using h.base_eq
        · simpa [hempty] using h.location
        · simp [hempty]

theorem foldlM_copyOctet {front : DERItem} (content : DERItem) {copy : ValueCopy}
    (h : copy.At front junk pass) (hroom : content.length ≤ junk.length) :
    ∃ copy' junk', content.foldlM (copyOctet front.length) copy = .ok copy' ∧
      copy'.At front junk' (content.foldl (Words.Pass.step isblank 0x20 upperCase) pass) ∧
      (content.foldl (Words.Pass.step isblank 0x20 upperCase) pass).written.length +
        junk'.length = pass.written.length + junk.length := by
  induction content generalizing copy junk pass with
  | nil => exact ⟨copy, junk, rfl, h, rfl⟩
  | cons ch content ih =>
    rw [List.length_cons] at hroom
    obtain ⟨next, junk', hnext, hat, hlength⟩ := copyOctet_at h (by omega) ch
    have hstep : (Words.Pass.step isblank 0x20 upperCase pass ch).written.length ≤
        pass.written.length + 1 := Words.length_step_le upperCase pass ch
    obtain ⟨copy', junk'', hcopy, hat', hlength'⟩ := ih hat (by omega)
    refine ⟨copy', junk'', ?_, hat', hlength'.trans hlength⟩
    rw [List.foldlM_cons, hnext, ok_bind, hcopy]

theorem copyValue_eq (front junk content : DERItem) (hroom : content.length ≤ junk.length) :
    ∃ junk', copyValue (front ++ junk) front.length content =
        .ok (front ++ (tidyPrintable content ++ junk'), (tidyPrintable content).length) ∧
      (tidyPrintable content).length + junk'.length = junk.length := by
  have hstart : ValueCopy.At ⟨front ++ junk, front.length, false⟩ front junk ⟨[], false⟩ :=
    ⟨rfl, rfl, rfl⟩
  obtain ⟨copy, junk', hcopy, hat, hlength⟩ := foldlM_copyOctet content hstart hroom
  have hfinish : (content.foldl (Words.Pass.step isblank 0x20 upperCase) ⟨[], false⟩).finish =
      tidyPrintable content := Words.finish_pass upperCase content false
  generalize content.foldl (Words.Pass.step isblank 0x20 upperCase) ⟨[], false⟩ = pass at *
  rw [List.length_nil, Nat.zero_add] at hlength
  rw [copyValue, hcopy, ok_bind, hat.lastWasBlank, hat.location, hat.base_eq, ← hfinish,
    Words.Pass.finish]
  cases hlast : pass.lastWasBlank && !pass.written.isEmpty with
  | false =>
    have hcond : ¬ (pass.lastWasBlank = true ∧ front.length + pass.written.length > front.length) := by
      rintro ⟨hblank, hlater⟩
      have hempty : pass.written = [] := by simpa [hblank] using hlast
      simp [hempty] at hlater
    refine ⟨junk', ?_, hlength⟩
    simp only [hcond, if_false, Bool.false_eq_true, pure_eq_ok, Nat.add_sub_cancel_left]
  | true =>
    obtain ⟨hblank, hne⟩ : pass.lastWasBlank = true ∧ pass.written ≠ [] := by simpa using hlast
    have hpos := List.length_pos_iff.mpr hne
    have hcond : pass.lastWasBlank = true ∧ front.length + pass.written.length > front.length :=
      ⟨hblank, by omega⟩
    refine ⟨pass.written.getLast hne :: junk', ?_, ?_⟩
    · have hback : pass.written.dropLast ++ pass.written.getLast hne :: junk' =
          pass.written ++ junk' := by
        rw [List.append_cons, List.dropLast_append_getLast hne]
      have hlen : front.length + pass.written.length - 1 - front.length =
          pass.written.length - 1 := by omega
      simp [hcond, hback, hlen]
    · simp only [if_true, List.length_dropLast, List.length_cons]
      omega

variable {der : LibDER}

theorem DEREncodeLength_eq (hder : der.DecodesElements) {length room : Nat}
    (hlength : length ≤ LONG_MAX) (hroom : (Standard.encodeLen length).length ≤ room) :
    DEREncodeLength der length room = .ok (Standard.encodeLen length) := by
  rw [DEREncodeLength, hder.encodeLength_eq length hlength]
  change (if _ then _ else _) = _
  rw [if_pos hroom]
  rfl

theorem memmove_eq (front gap tail : List UInt8) {len : Nat} (hlen : len ≤ tail.length) :
    memmove (front ++ (gap ++ tail)) front.length (front.length + gap.length) len =
      .ok (front ++ (tail.take len ++ (gap ++ tail).drop len)) := by
  have hload := Memory.load_append_right (front ++ gap) tail hlen
  rw [List.append_assoc, List.length_append] at hload
  have htake : (tail.take len).length = len := List.length_take_of_le hlen
  have hstore := Memory.store_append front (gap ++ tail) (tail.take len)
    (by rw [htake, List.length_append]; omega)
  rw [htake] at hstore
  rw [memmove, hload, access_some, ok_bind, hstore, access_some]

/-- The length after the tag is written anew, and so many octets after it are slid back to it. -/
theorem fixUpLength_eq (hder : der.DecodesElements) (front old tail : List UInt8) (tag : UInt8)
    {length : Nat} (hlength : length ≤ LONG_MAX)
    (hroom : (Standard.encodeLen length).length ≤ old.length) (htail : length ≤ tail.length) :
    ∃ junk, fixUpLength der (front ++ tag :: (old ++ tail)) front.length (1 + old.length) length =
        .ok (front ++ tag :: (Standard.encodeLen length ++ (tail.take length ++ junk)),
          1 + (Standard.encodeLen length).length) ∧
      (Standard.encodeLen length).length + length + junk.length = old.length + tail.length := by
  have hencode := DEREncodeLength_eq hder hlength hroom
  have hstore := Memory.store_append (front ++ [tag]) (old ++ tail) (Standard.encodeLen length)
    (by rw [List.length_append]; omega)
  rw [List.drop_append_of_le_length hroom] at hstore
  simp only [List.append_assoc, List.singleton_append, List.length_append,
    List.length_singleton] at hstore
  rw [fixUpLength, Nat.add_sub_cancel_left, hencode, noErr_ok, ok_bind, hstore, access_some,
    ok_bind]
  generalize hgap : old.drop (Standard.encodeLen length).length = gap
  have hgapLength : gap.length = old.length - (Standard.encodeLen length).length := by
    rw [← hgap, List.length_drop]
  refine ⟨(gap ++ tail).drop length, ?_, ?_⟩
  · have hmove := memmove_eq (front ++ tag :: Standard.encodeLen length) gap tail htail
    simp only [List.append_assoc, List.cons_append, List.length_append, List.length_cons] at hmove
    dsimp only
    split
    case isTrue hshorter =>
      have hsrc : front.length + (1 + old.length) =
          front.length + ((Standard.encodeLen length).length + 1) + gap.length := by omega
      rw [hsrc, hmove, ok_bind, pure_eq_ok, Nat.add_comm 1]
    case isFalse hsame =>
      have hnil : gap = [] := by
        rw [List.eq_nil_iff_length_eq_zero]
        omega
      have hold : 1 + old.length = 1 + (Standard.encodeLen length).length := by omega
      rw [hnil, List.nil_append, List.take_append_drop, pure_eq_ok, hold]
  · rw [List.length_drop, List.length_append]
    omega

theorem item_SEQUENCE (content : DERItem) :
    item ASN1_CONSTR_SEQUENCE content =
      0x30 :: (Standard.encodeLen content.length ++ content) := rfl

theorem item_PRINTABLE_STRING (content : DERItem) :
    item ASN1_PRINTABLE_STRING content =
      0x13 :: (Standard.encodeLen content.length ++ content) := rfl

structure RDNCopy.At (copy : RDNCopy) (done atvs junk : DERItem) (remaining : Nat) : Prop where
  base_eq : copy.base =
    done ++ 0x31 :: (Standard.encodeLen copy.rdnContentLength ++ (atvs ++ junk))
  rdnTLLength : copy.rdnTLLength = 1 + (Standard.encodeLen copy.rdnContentLength).length
  rdnContentLength : copy.rdnContentLength = atvs.length + remaining
  atvTagLocation : copy.atvTagLocation = done.length + copy.rdnTLLength + atvs.length
  remaining_le : remaining ≤ junk.length

theorem shortenATV_eq (hder : der.DecodesElements) {type value lenV lenA : DERItem}
    {valueLength remaining : Nat} (h : copy.At done atvs
      (0x30 :: (lenA ++ (type ++ 0x13 :: (lenV ++ (value ++ junk)))))
      (1 + lenA.length + (type.length + (1 + lenV.length + valueLength)) + remaining))
    (hmax : copy.rdnContentLength ≤ LONG_MAX) (hvalue : value.length ≤ valueLength)
    (hlenV : lenV = Standard.encodeLen valueLength)
    (hlenA : lenA = Standard.encodeLen (type.length + (1 + lenV.length + valueLength)))
    (hremaining : remaining ≤ junk.length) :
    ∃ copy' junk', shortenATV der done.length (1 + lenA.length)
        (type.length + (1 + lenV.length + valueLength))
        (copy.atvTagLocation + (1 + lenA.length + type.length)) (1 + lenV.length) value.length
        (valueLength - value.length) copy = .ok copy' ∧
      copy'.At done (atvs ++ item ASN1_CONSTR_SEQUENCE (type ++ item ASN1_PRINTABLE_STRING value))
        junk' remaining ∧ junk.length ≤ junk'.length := by
  obtain ⟨hbase, hTL, hcontent, hlocation, -⟩ := h
  generalize hlenR : Standard.encodeLen copy.rdnContentLength = lenR at *
  -- the value
  have hnewV := Standard.length_encodeLen_mono hvalue
  rw [← hlenV] at hnewV
  obtain ⟨junk₁, hfix₁, hjunk₁⟩ := fixUpLength_eq hder
    (done ++ 0x31 :: (lenR ++ (atvs ++ 0x30 :: (lenA ++ type)))) lenV (value ++ junk) 0x13
    (show value.length ≤ LONG_MAX by omega) hnewV (by rw [List.length_append]; omega)
  have hbase₁ : copy.base = done ++ 0x31 :: (lenR ++ (atvs ++ 0x30 :: (lenA ++ type))) ++
      0x13 :: (lenV ++ (value ++ junk)) := by simp [hbase]
  have hlocation₁ : copy.atvTagLocation + (1 + lenA.length + type.length) =
      (done ++ 0x31 :: (lenR ++ (atvs ++ 0x30 :: (lenA ++ type)))).length := by
    simp only [List.length_append, List.length_cons]
    omega
  rw [List.take_left] at hfix₁
  rw [List.length_append] at hjunk₁
  -- the attribute
  generalize hatv : type ++ item ASN1_PRINTABLE_STRING value = content
  have hcontentLength : content.length =
      type.length + (1 + (Standard.encodeLen value.length).length + value.length) := by
    rw [← hatv, List.length_append, length_item]
  have hnewA : (Standard.encodeLen content.length).length ≤ lenA.length := by
    rw [hlenA]
    exact Standard.length_encodeLen_mono (by omega)
  obtain ⟨junk₂, hfix₂, hjunk₂⟩ := fixUpLength_eq hder
    (done ++ 0x31 :: (lenR ++ atvs)) lenA (content ++ junk₁) 0x30
    (show content.length ≤ LONG_MAX by omega) hnewA (by rw [List.length_append]; omega)
  have hbase₂ : done ++ 0x31 :: (lenR ++ (atvs ++ 0x30 :: (lenA ++ type))) ++
      0x13 :: (Standard.encodeLen value.length ++ (value ++ junk₁)) =
      done ++ 0x31 :: (lenR ++ atvs) ++ 0x30 :: (lenA ++ (content ++ junk₁)) := by
    simp [← hatv, item_PRINTABLE_STRING]
  have hlocation₂ : copy.atvTagLocation = (done ++ 0x31 :: (lenR ++ atvs)).length := by
    simp only [List.length_append, List.length_cons]
    omega
  rw [List.take_left] at hfix₂
  rw [List.length_append] at hjunk₂
  -- the relative name
  generalize hrdn : atvs ++ item ASN1_CONSTR_SEQUENCE content = written
  have hwrittenLength : written.length =
      atvs.length + (1 + (Standard.encodeLen content.length).length + content.length) := by
    rw [← hrdn, List.length_append, length_item]
  have hnewR : (Standard.encodeLen (written.length + remaining)).length ≤ lenR.length := by
    rw [← hlenR]
    exact Standard.length_encodeLen_mono (by omega)
  obtain ⟨junk₃, hfix₃, hjunk₃⟩ := fixUpLength_eq hder
    done lenR (written ++ junk₂) 0x31
    (show written.length + remaining ≤ LONG_MAX by omega) hnewR
    (by rw [List.length_append]; omega)
  have hbase₃ : done ++ 0x31 :: (lenR ++ atvs) ++
      0x30 :: (Standard.encodeLen content.length ++ (content ++ junk₂)) =
      done ++ 0x31 :: (lenR ++ (written ++ junk₂)) := by
    simp [← hrdn, item_SEQUENCE]
  rw [List.take_append, List.take_of_length_le (Nat.le_add_right _ _),
    Nat.add_sub_cancel_left] at hfix₃
  rw [List.length_append] at hjunk₃
  have hnewAtv : type.length + (1 + lenV.length + valueLength) -
      (valueLength - value.length +
        (1 + lenV.length - (1 + (Standard.encodeLen value.length).length))) = content.length := by
    omega
  have hnewRdn : copy.rdnContentLength - (valueLength - value.length +
      (1 + lenV.length - (1 + (Standard.encodeLen value.length).length)) +
      (1 + lenA.length - (1 + (Standard.encodeLen content.length).length))) =
        written.length + remaining := by
    omega
  refine ⟨⟨done ++ 0x31 :: (Standard.encodeLen (written.length + remaining) ++
      (written ++ (junk₂.take remaining ++ junk₃))),
      1 + (Standard.encodeLen (written.length + remaining)).length, written.length + remaining,
      done.length + (1 + (Standard.encodeLen (written.length + remaining)).length) +
        written.length⟩, junk₂.take remaining ++ junk₃, ?_, ⟨rfl, rfl, rfl, rfl, ?_⟩, ?_⟩
  · rw [shortenATV, hlocation₁, hbase₁, hfix₁, ok_bind]
    dsimp only
    rw [hnewAtv, hbase₂, hlocation₂, hfix₂, ok_bind]
    dsimp only
    rw [hnewRdn, hbase₃, hTL, hfix₃, ok_bind]
    have hlength : (done ++ 0x31 :: (lenR ++ atvs)).length = done.length + (1 + lenR.length) +
        atvs.length := by
      simp only [List.length_append, List.length_cons]
      omega
    have hnewLocation : (done ++ 0x31 :: (lenR ++ atvs)).length -
        (1 + lenR.length - (1 + (Standard.encodeLen (written.length + remaining)).length)) +
        (1 + (Standard.encodeLen content.length).length + content.length) =
        done.length + (1 + (Standard.encodeLen (written.length + remaining)).length) +
          written.length := by omega
    simp only [pure_eq_ok, hnewLocation, List.append_assoc]
  · rw [List.length_append, List.length_take]
    omega
  · rw [List.length_append, List.length_take]
    omega

theorem length_TL (tag : Tag) (content rest : DERItem) :
    (item tag content ++ rest).length - content.length - rest.length =
      1 + (Standard.encodeLen content.length).length := by
  rw [List.length_append, length_item]
  omega

theorem RDNCopy.At.store {octets : DERItem} {remaining : Nat} (h : copy.At done atvs junk remaining)
    (hroom : octets.length ≤ junk.length) :
    Memory.store copy.base copy.atvTagLocation octets =
      some (done ++ 0x31 :: (Standard.encodeLen copy.rdnContentLength ++
        (atvs ++ (octets ++ junk.drop octets.length)))) := by
  have hstore := Memory.store_append
    (done ++ 0x31 :: (Standard.encodeLen copy.rdnContentLength ++ atvs)) junk octets hroom
  have hlocation : copy.atvTagLocation =
      (done ++ 0x31 :: (Standard.encodeLen copy.rdnContentLength ++ atvs)).length := by
    rw [h.atvTagLocation, h.rdnTLLength]
    simp only [List.length_append, List.length_cons]
    omega
  rw [← hlocation] at hstore
  simpa only [h.base_eq, List.append_assoc, List.cons_append] using hstore

theorem RDNCopy.At.unchanged {octets rest junk' : DERItem}
    (h : copy.At done atvs junk (octets.length + rest.length))
    (hrest : rest.length ≤ junk'.length) :
    RDNCopy.At
      ⟨done ++ 0x31 :: (Standard.encodeLen copy.rdnContentLength ++ (atvs ++ (octets ++ junk'))),
        copy.rdnTLLength, copy.rdnContentLength, copy.atvTagLocation + octets.length⟩
      done (atvs ++ octets) junk' rest.length where
  base_eq := by simp
  rdnTLLength := h.rdnTLLength
  rdnContentLength := by
    change copy.rdnContentLength = _
    rw [h.rdnContentLength, List.length_append, Nat.add_assoc]
  atvTagLocation := by
    change copy.atvTagLocation + octets.length = _
    rw [h.atvTagLocation, List.length_append, Nat.add_assoc]
  remaining_le := hrest

/-- The attribute is copied as it is before its value is looked at. -/
theorem copyATV_open (hder : der.DecodesElements) (atv : Attribute der) (rest : DERItem)
    {remaining : Nat} (h : copy.At done atvs junk remaining)
    (hroom : atv.octets.length ≤ junk.length) (hmax : atv.content.length ≤ LONG_MAX)
    (decoded : DERDecodedInfo) (hdecode : der.decodeItem atv.value.octets = .ok decoded)
    (hwhole : decoded.rest = []) :
    copyATV der done.length (atv.octets ++ rest) ⟨ASN1_CONSTR_SEQUENCE, atv.content, rest⟩ copy =
      normalizeATV der done.length (1 + (Standard.encodeLen atv.content.length).length)
        atv.content.length atv.value.octets decoded
        { copy with
          base := done ++ 0x31 :: (Standard.encodeLen copy.rdnContentLength ++
            (atvs ++ (atv.octets ++ junk.drop atv.octets.length))) } := by
  have hTL : (atv.octets ++ rest).length - atv.content.length - rest.length =
      1 + (Standard.encodeLen atv.content.length).length := length_TL _ _ _
  have htake : (atv.octets ++ rest).take
      (1 + (Standard.encodeLen atv.content.length).length + atv.content.length) = atv.octets := by
    have hoctets : atv.octets.length =
        1 + (Standard.encodeLen atv.content.length).length + atv.content.length := length_item _ _
    rw [← hoctets, List.take_left]
  have hparsed : der.parseAttributeTypeAndValue atv.content =
      .ok ⟨atv.type, atv.value.octets⟩ :=
    hder.parseAttributeTypeAndValue_item atv.type atv.value.octets decoded hdecode hwhole hmax
  have htype : atv.type.length ≠ 0 := by
    rw [ne_eq, List.length_eq_zero_iff]
    exact atv.type_ne
  rw [copyATV, require_of rfl, ok_bind]
  dsimp only
  rw [hTL, require_of (by omega), ok_bind, htake, h.store hroom, access_some, ok_bind, hparsed,
    noErr_ok, ok_bind, require_of htype, ok_bind, hdecode, noErr_ok, ok_bind]

theorem normalizeATV_printable (hder : der.DecodesElements) {type lenA content rest : DERItem}
    {later atvContentLength : Nat} (h : copy.At done atvs
      (0x30 :: (lenA ++ (type ++ (item ASN1_PRINTABLE_STRING content ++ junk))))
      (1 + lenA.length + atvContentLength + rest.length)) (hmax : copy.rdnContentLength ≤ LONG_MAX)
    (hlength : atvContentLength = type.length + (item ASN1_PRINTABLE_STRING content).length)
    (hlenA : lenA = Standard.encodeLen atvContentLength)
    (hlater : rest.length + later ≤ junk.length) :
    ∃ copy' junk', normalizeATV der done.length (1 + lenA.length) atvContentLength
        (item ASN1_PRINTABLE_STRING content) ⟨ASN1_PRINTABLE_STRING, content, []⟩ copy =
          .ok copy' ∧
      copy'.At done (atvs ++ item ASN1_CONSTR_SEQUENCE
        (type ++ item ASN1_PRINTABLE_STRING (tidyPrintable content))) junk' rest.length ∧
      rest.length + later ≤ junk'.length := by
  have hitem := length_item ASN1_PRINTABLE_STRING content
  generalize hlenV : Standard.encodeLen content.length = lenV at *
  have hvalueTL : (item ASN1_PRINTABLE_STRING content).length - content.length -
      ([] : DERItem).length = 1 + lenV.length := by
    rw [List.length_nil]
    omega
  have hoffset : atvContentLength - (item ASN1_PRINTABLE_STRING content).length = type.length := by
    omega
  -- the octets of the value
  obtain ⟨junk₁, hcopy, hjunk₁⟩ := copyValue_eq
    (done ++ 0x31 :: (Standard.encodeLen copy.rdnContentLength ++
      (atvs ++ 0x30 :: (lenA ++ (type ++ 0x13 :: lenV))))) (content ++ junk) content (by simp)
  have hbase : copy.base = done ++ 0x31 :: (Standard.encodeLen copy.rdnContentLength ++
      (atvs ++ 0x30 :: (lenA ++ (type ++ 0x13 :: lenV)))) ++ (content ++ junk) := by
    rw [h.base_eq, item_PRINTABLE_STRING, hlenV]
    simp
  have hlocation : copy.atvTagLocation + (1 + lenA.length + type.length) + (1 + lenV.length) =
      (done ++ 0x31 :: (Standard.encodeLen copy.rdnContentLength ++
        (atvs ++ 0x30 :: (lenA ++ (type ++ 0x13 :: lenV))))).length := by
    rw [h.atvTagLocation, h.rdnTLLength]
    simp only [List.length_append, List.length_cons]
    omega
  have hle := length_tidyPrintable_le content
  rw [List.length_append] at hjunk₁
  rw [normalizeATV, if_pos rfl]
  dsimp only
  rw [hoffset, require_of (by omega), ok_bind, hvalueTL, require_of (by omega), ok_bind, hlocation,
    hbase, hcopy, ok_bind]
  dsimp only
  split
  case isTrue hsame =>
    have htidy : (tidyPrintable content).length = content.length := by omega
    have hvalue : item ASN1_PRINTABLE_STRING (tidyPrintable content) =
        0x13 :: (lenV ++ tidyPrintable content) := by
      rw [item_PRINTABLE_STRING, htidy, hlenV]
    have hatv : item ASN1_CONSTR_SEQUENCE
        (type ++ item ASN1_PRINTABLE_STRING (tidyPrintable content)) =
          0x30 :: (lenA ++ (type ++ 0x13 :: (lenV ++ tidyPrintable content))) := by
      have hcontent : (type ++ 0x13 :: (lenV ++ tidyPrintable content)).length =
          atvContentLength := by
        simp only [List.length_append, List.length_cons]
        omega
      rw [item_SEQUENCE, hvalue, hcontent, hlenA]
    have hoctets : (0x30 :: (lenA ++ (type ++ 0x13 :: (lenV ++ tidyPrintable content)))).length =
        1 + lenA.length + atvContentLength := by
      simp only [List.length_append, List.length_cons]
      omega
    rw [hatv]
    rw [← hoctets] at h
    refine ⟨_, junk₁, ?_, h.unchanged (by omega), by omega⟩
    simp only [hoctets, pure_eq_ok, List.append_assoc, List.cons_append]
  case isFalse hshorter =>
    have hat : RDNCopy.At { copy with
          base := done ++ 0x31 :: (Standard.encodeLen copy.rdnContentLength ++
            (atvs ++ 0x30 :: (lenA ++ (type ++ 0x13 :: lenV)))) ++
              (tidyPrintable content ++ junk₁) } done atvs
        (0x30 :: (lenA ++ (type ++ 0x13 :: (lenV ++ (tidyPrintable content ++ junk₁)))))
        (1 + lenA.length + (type.length + (1 + lenV.length + content.length)) + rest.length) := by
      refine ⟨by simp, h.rdnTLLength, ?_, h.atvTagLocation, ?_⟩
      · have hcontent := h.rdnContentLength
        change copy.rdnContentLength = _
        omega
      · simp only [List.length_append, List.length_cons]
        omega
    have hatvLength : atvContentLength = type.length + (1 + lenV.length + content.length) := by
      omega
    rw [hatvLength] at hlenA ⊢
    obtain ⟨copy', junk', hok, hat', hjunk'⟩ := shortenATV_eq hder hat hmax hle hlenV.symm hlenA
      (by omega)
    refine ⟨copy', junk', ?_, hat', by omega⟩
    exact hok

theorem copyATV_eq (hder : der.DecodesElements) (atv : Attribute der) (rest : DERItem) {later : Nat}
    (h : copy.At done atvs junk (atv.octets.length + rest.length))
    (hlater : atv.octets.length + rest.length + later ≤ junk.length)
    (hmax : copy.rdnContentLength ≤ LONG_MAX) :
    ∃ copy' junk', copyATV der done.length (atv.octets ++ rest)
        ⟨ASN1_CONSTR_SEQUENCE, atv.content, rest⟩ copy = .ok copy' ∧
      copy'.At done (atvs ++ atv.normalize.octets) junk' rest.length ∧
      rest.length + later ≤ junk'.length := by
  have hoctets : atv.octets.length =
      1 + (Standard.encodeLen atv.content.length).length + atv.content.length := length_item _ _
  have hcontentMax : atv.content.length ≤ LONG_MAX := by
    have hcontent := h.rdnContentLength
    omega
  have hroom : atv.octets.length ≤ junk.length := by omega
  cases hvalue : atv.value with
  | other value =>
    have hnormal : atv.normalize.octets = atv.octets := by
      simp only [Attribute.octets, Attribute.content, Attribute.normalize, hvalue,
        AttributeValue.normalize]
    have hdecode : der.decodeItem atv.value.octets = .ok value.decoded := by
      rw [hvalue]
      exact value.decodes
    have hjunk : rest.length + later ≤ (junk.drop atv.octets.length).length := by
      rw [List.length_drop]
      omega
    rw [hnormal, copyATV_open hder atv rest h hroom hcontentMax value.decoded hdecode value.whole,
      normalizeATV, if_neg value.other]
    refine ⟨_, _, ?_, h.unchanged (by omega), hjunk⟩
    dsimp only
    rw [hoctets]
    rfl
  | printableString content =>
    have hnormal : atv.normalize.octets = item ASN1_CONSTR_SEQUENCE
        (item ASN1_OBJECT_ID atv.type ++ item ASN1_PRINTABLE_STRING (tidyPrintable content)) := by
      simp only [Attribute.octets, Attribute.content, Attribute.normalize, hvalue,
        AttributeValue.normalize, AttributeValue.octets]
    have hcontent : atv.content =
        item ASN1_OBJECT_ID atv.type ++ item ASN1_PRINTABLE_STRING content := by
      rw [Attribute.content, hvalue, AttributeValue.octets]
    have hdecode : der.decodeItem atv.value.octets = .ok ⟨ASN1_PRINTABLE_STRING, content, []⟩ := by
      rw [hvalue]
      refine hder.decodeItem_item _ _ (by decide) ?_
      rw [hcontent, List.length_append, length_item ASN1_PRINTABLE_STRING] at hcontentMax
      omega
    have hjunk : rest.length + later ≤ (junk.drop atv.octets.length).length := by
      rw [List.length_drop]
      omega
    have hlength : atv.content.length = (item ASN1_OBJECT_ID atv.type).length +
        (item ASN1_PRINTABLE_STRING content).length := by
      rw [hcontent, List.length_append]
    have hat : RDNCopy.At { copy with
          base := done ++ 0x31 :: (Standard.encodeLen copy.rdnContentLength ++
            (atvs ++ (atv.octets ++ junk.drop atv.octets.length))) } done atvs
        (0x30 :: (Standard.encodeLen atv.content.length ++ (item ASN1_OBJECT_ID atv.type ++
          (item ASN1_PRINTABLE_STRING content ++ junk.drop atv.octets.length))))
        (1 + (Standard.encodeLen atv.content.length).length + atv.content.length +
          rest.length) := by
      refine ⟨?_, h.rdnTLLength, ?_, h.atvTagLocation, ?_⟩
      · have hatv : atv.octets = 0x30 :: (Standard.encodeLen atv.content.length ++
            (item ASN1_OBJECT_ID atv.type ++ item ASN1_PRINTABLE_STRING content)) := by
          rw [← hcontent]
          rfl
        rw [hatv]
        simp
      · rw [← hoctets]
        exact h.rdnContentLength
      · simp only [List.length_append, List.length_cons]
        omega
    rw [hnormal, copyATV_open hder atv rest h hroom hcontentMax _ hdecode rfl, hvalue]
    exact normalizeATV_printable hder hat hmax hlength rfl hjunk

def atvElements (atvs : List (Attribute der)) : List (Tag × DERItem) :=
  atvs.map fun atv => (ASN1_CONSTR_SEQUENCE, atv.content)

def atvOctets (atvs : List (Attribute der)) : DERItem := (atvs.map Attribute.octets).flatten

theorem flatten_atvElements (atvs : List (Attribute der)) :
    ((atvElements atvs).map fun e => item e.1 e.2).flatten = atvOctets atvs := by
  rw [atvElements, List.map_map]
  rfl

theorem copyATVs_eq (hder : der.DecodesElements) (atvs : List (Attribute der)) {written : DERItem}
    {later : Nat} (h : copy.At done written junk (atvOctets atvs).length)
    (hlater : (atvOctets atvs).length + later ≤ junk.length)
    (hmax : copy.rdnContentLength ≤ LONG_MAX) :
    ∃ copy' junk', copyATVs der done.length (atvOctets atvs) (itemsOf (atvElements atvs)) copy =
        .ok copy' ∧
      copy'.At done (written ++ atvOctets (atvs.map Attribute.normalize)) junk' 0 ∧
      later ≤ junk'.length := by
  induction atvs generalizing copy written junk with
  | nil =>
    refine ⟨copy, junk, rfl, ?_, ?_⟩
    · rw [List.map_nil, atvOctets, List.map_nil, List.flatten_nil, List.append_nil]
      exact h
    · omega
  | cons atv atvs ih =>
    have hcons : atvOctets (atv :: atvs) = atv.octets ++ atvOctets atvs := rfl
    have hitems : itemsOf (atvElements (atv :: atvs)) =
        ⟨ASN1_CONSTR_SEQUENCE, atv.content, atvOctets atvs⟩ :: itemsOf (atvElements atvs) := by
      rw [← flatten_atvElements]
      rfl
    rw [hcons, List.length_append] at h hlater
    obtain ⟨next, junk', hnext, hat, hroom⟩ := copyATV_eq hder atv (atvOctets atvs) h hlater hmax
    have hshorter := atv.length_octets_normalize_le
    have hcontent := h.rdnContentLength
    have hnextMax : next.rdnContentLength ≤ LONG_MAX := by
      rw [hat.rdnContentLength, List.length_append]
      omega
    obtain ⟨copy', junk'', hcopy, hat', hlater'⟩ := ih hat hroom hnextMax
    refine ⟨copy', junk'', ?_, ?_, hlater'⟩
    · rw [hcons, hitems, copyATVs, hnext, ok_bind, hcopy]
    · rw [List.append_assoc] at hat'
      exact hat'

theorem copyRDN_eq (hder : der.DecodesElements) (done junk rest : DERItem) (rdn : RelativeName der)
    (hroom : (relativeDistinguishedName rdn.content).length + rest.length ≤ junk.length)
    (hmax : rdn.content.length ≤ LONG_MAX) :
    ∃ junk', copyRDN der (relativeDistinguishedName rdn.content ++ rest)
        ⟨ASN1_CONSTR_SET, rdn.content, rest⟩ (done ++ junk) done.length =
          .ok (done ++ relativeDistinguishedName rdn.normalize.content ++ junk',
            (done ++ relativeDistinguishedName rdn.normalize.content).length) ∧
      rest.length ≤ junk'.length := by
  have hset : relativeDistinguishedName rdn.content =
      0x31 :: (Standard.encodeLen rdn.content.length ++ rdn.content) := rfl
  have hTL : (relativeDistinguishedName rdn.content ++ rest).length - rdn.content.length -
      rest.length = 1 + (Standard.encodeLen rdn.content.length).length := length_TL _ _ _
  have htake : (relativeDistinguishedName rdn.content ++ rest).take
      (1 + (Standard.encodeLen rdn.content.length).length) =
        0x31 :: Standard.encodeLen rdn.content.length := by
    rw [hset, Nat.add_comm, List.cons_append, List.take_succ_cons, List.append_assoc,
      List.take_left]
  have hlength : (relativeDistinguishedName rdn.content).length =
      1 + (Standard.encodeLen rdn.content.length).length + rdn.content.length := length_item _ _
  have hstore := Memory.store_append done junk (0x31 :: Standard.encodeLen rdn.content.length)
    (by rw [List.length_cons]; omega)
  have hdecode : der.decodeSeqContent rdn.content =
      .ok ⟨itemsOf (atvElements rdn.attributes), .DR_EndOfSequence, by decide⟩ := by
    have hitems := hder.decodeSeqContent_items (atvElements rdn.attributes)
    rw [flatten_atvElements] at hitems
    refine hitems ?_ hmax
    intro e he
    obtain ⟨atv, -, rfl⟩ := List.mem_map.mp he
    change ASN1_CONSTR_SEQUENCE.number < 31
    decide
  have hne : rdn.content.length ≠ 0 := by
    obtain ⟨atv, atvs, hatvs⟩ := List.exists_cons_of_ne_nil rdn.attributes_ne
    rw [RelativeName.content, hatvs, List.map_cons, List.flatten_cons, List.length_append,
      Attribute.octets, length_item]
    omega
  generalize hjunk : junk.drop (0x31 :: Standard.encodeLen rdn.content.length).length = junk' at *
  have hjunkLength : junk'.length =
      junk.length - (1 + (Standard.encodeLen rdn.content.length).length) := by
    rw [← hjunk, List.length_drop, List.length_cons, Nat.add_comm 1]
  have hat : RDNCopy.At ⟨done ++ (0x31 :: Standard.encodeLen rdn.content.length ++ junk'),
      1 + (Standard.encodeLen rdn.content.length).length, rdn.content.length,
      done.length + (1 + (Standard.encodeLen rdn.content.length).length)⟩ done [] junk'
        (atvOctets rdn.attributes).length := by
    refine ⟨rfl, rfl, ?_, rfl, ?_⟩
    · rw [List.length_nil, Nat.zero_add]
      rfl
    · change rdn.content.length ≤ _
      omega
  obtain ⟨copy, junk'', hcopy, hat', hlater⟩ := copyATVs_eq hder rdn.attributes hat
    (show rdn.content.length + rest.length ≤ _ by omega) hmax
  have hcontent : copy.rdnContentLength = rdn.normalize.content.length :=
    hat'.rdnContentLength
  have hbase : copy.base = done ++ relativeDistinguishedName rdn.normalize.content ++ junk'' := by
    have hset' : relativeDistinguishedName rdn.normalize.content = 0x31 ::
      (Standard.encodeLen rdn.normalize.content.length ++ rdn.normalize.content) := rfl
    rw [hat'.base_eq, hcontent, hset']
    simp [RelativeName.content, RelativeName.normalize, atvOctets]
  refine ⟨junk'', ?_, hlater⟩
  rw [copyRDN, require_of rfl, ok_bind, require_of hne, ok_bind]
  dsimp only
  rw [hTL, require_of (by omega), ok_bind, htake, hstore, access_some, ok_bind, hdecode, noErr_ok,
    ok_bind]
  dsimp only
  have hcopy' : copyATVs der done.length rdn.content (itemsOf (atvElements rdn.attributes))
      ⟨done ++ (0x31 :: Standard.encodeLen rdn.content.length ++ junk'),
        1 + (Standard.encodeLen rdn.content.length).length, rdn.content.length,
        done.length + (1 + (Standard.encodeLen rdn.content.length).length)⟩ = .ok copy := hcopy
  have hfinish : (done ++ relativeDistinguishedName rdn.normalize.content).length =
      done.length + (copy.rdnTLLength + copy.rdnContentLength) := by
    rw [hat'.rdnTLLength, hcontent, List.length_append]
    exact congrArg (done.length + ·) (length_item _ _)
  rw [hcopy', ok_bind, require_of rfl, ok_bind, hbase, hfinish, pure_eq_ok]

def rdnElements (name : X501Name der) : List (Tag × DERItem) :=
  name.map fun rdn => (ASN1_CONSTR_SET, rdn.content)

theorem flatten_rdnElements (name : X501Name der) :
    ((rdnElements name).map fun e => item e.1 e.2).flatten = name.octets := by
  rw [rdnElements, List.map_map, X501Name.octets, RDNSequence, List.map_map]
  rfl

theorem copyRDNs_eq (hder : der.DecodesElements) (name : X501Name der) (done junk : DERItem)
    (hroom : name.octets.length ≤ junk.length) (hmax : name.octets.length ≤ LONG_MAX) :
    ∃ junk', copyRDNs der name.octets (itemsOf (rdnElements name)) (done ++ junk) done.length =
      .ok (done ++ name.normalize.octets ++ junk', (done ++ name.normalize.octets).length) := by
  induction name generalizing done junk with
  | nil => exact ⟨junk, by simp [X501Name.octets, X501Name.normalize, RDNSequence, rdnElements,
      itemsOf, copyRDNs]⟩
  | cons rdn name ih =>
    have hcons : X501Name.octets (rdn :: name) =
        relativeDistinguishedName rdn.content ++ X501Name.octets name := rfl
    have hitems : itemsOf (rdnElements (rdn :: name)) =
        ⟨ASN1_CONSTR_SET, rdn.content, X501Name.octets name⟩ :: itemsOf (rdnElements name) := by
      rw [← flatten_rdnElements]
      rfl
    have hnormal : X501Name.octets (X501Name.normalize (rdn :: name)) =
        relativeDistinguishedName rdn.normalize.content ++
          X501Name.octets (X501Name.normalize name) := rfl
    rw [hcons, List.length_append] at hroom hmax
    have hlength : (relativeDistinguishedName rdn.content).length =
        1 + (Standard.encodeLen rdn.content.length).length + rdn.content.length := length_item _ _
    obtain ⟨junk', hcopy, hjunk'⟩ := copyRDN_eq hder done junk (X501Name.octets name) rdn hroom (by omega)
    obtain ⟨junk'', hrest⟩ := ih (done ++ relativeDistinguishedName rdn.normalize.content) junk'
      hjunk' (by omega)
    refine ⟨junk'', ?_⟩
    rw [hcons, hitems, copyRDNs, hcopy, ok_bind]
    dsimp only
    rw [hrest, hnormal, List.append_assoc done]

theorem createNormalizedX501Name_eq (hder : der.DecodesElements) (name : X501Name der)
    (hmax : name.octets.length < LONG_MAX) :
    createNormalizedX501Name der name.octets = .ok name.normalize.octets := by
  have hdecode : der.decodeSeqContent name.octets =
      .ok ⟨itemsOf (rdnElements name), .DR_EndOfSequence, by decide⟩ := by
    have hitems := hder.decodeSeqContent_items (rdnElements name)
    rw [flatten_rdnElements] at hitems
    refine hitems ?_ hmax.le
    intro e he
    obtain ⟨rdn, -, rfl⟩ := List.mem_map.mp he
    change ASN1_CONSTR_SET.number < 31
    decide
  obtain ⟨junk, hcopy⟩ := copyRDNs_eq hder name [] (List.replicate name.octets.length 0)
    (by simp) hmax.le
  rw [List.nil_append, List.length_nil, List.nil_append] at hcopy
  have hshorter := name.length_octets_normalize_le
  rw [createNormalizedX501Name, require_of hmax.le, ok_bind, hdecode, noErr_ok, ok_bind]
  dsimp only
  rw [hcopy, ok_bind, require_of rfl, ok_bind]
  dsimp only
  rw [require_of (by omega), ok_bind, List.take_left, pure_eq_ok]
end SecurityFramework.Trustd
