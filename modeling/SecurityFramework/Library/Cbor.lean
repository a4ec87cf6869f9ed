import Mathlib.Algebra.Order.BigOperators.Group.List
import Mathlib.Data.List.Lex
import Mathlib.Data.UInt
import SecurityFramework.Library.Memory

/-!
# CBOR

Data items of RFC 8949 that are integers, strings, arrays and maps of definite length, their shortest
encoding, and a decoder that reads them with heads of any size. An item of canonical form has its map
keys in ascending order.
-/

namespace Cbor
open Memory

/-- The number of `negative argument` is `-1 - argument`. -/
inductive Item where
  | unsigned (argument : Nat)
  | negative (argument : Nat)
  | bytes (octets : List UInt8)
  | text (characters : List Char)
  | array (items : List Item)
  | map (entries : List (Item × Item))

def Item.major : Item → Nat
  | .unsigned _ => 0
  | .negative _ => 1
  | .bytes _ => 2
  | .text _ => 3
  | .array _ => 4
  | .map _ => 5

def utf8 (characters : List Char) : List UInt8 := characters.flatMap String.utf8EncodeChar

def ofUtf8 (octets : List UInt8) : Option (List Char) :=
  octets.toByteArray.utf8Decode?.map Array.toList

def initial (major info : Nat) : UInt8 := UInt8.ofNat (major * 32 + info)

def head (major argument : Nat) : List UInt8 :=
  if argument < 24 then [initial major argument]
  else if argument < 2 ^ 8 then initial major 24 :: toBE 1 argument
  else if argument < 2 ^ 16 then initial major 25 :: toBE 2 argument
  else if argument < 2 ^ 32 then initial major 26 :: toBE 4 argument
  else initial major 27 :: toBE 8 argument

mutual

def encode : Item → List UInt8
  | .unsigned argument => head 0 argument
  | .negative argument => head 1 argument
  | .bytes octets => head 2 octets.length ++ octets
  | .text characters => head 3 (utf8 characters).length ++ utf8 characters
  | .array items => head 4 items.length ++ encodeItems items
  | .map entries => head 5 entries.length ++ encodeEntries entries
termination_by structural item => item

def encodeItems : List Item → List UInt8
  | [] => []
  | item :: items => encode item ++ encodeItems items
termination_by structural items => items

def encodeEntries : List (Item × Item) → List UInt8
  | [] => []
  | (key, value) :: entries => (encode key ++ encode value) ++ encodeEntries entries
termination_by structural entries => entries
end

def readArgument (width : Nat) (octets : List UInt8) : Option (Nat × List UInt8) :=
  if width ≤ octets.length then some (ofBE (octets.take width), octets.drop width) else none

def readInfo (info : Nat) (octets : List UInt8) : Option (Nat × List UInt8) :=
  match info with
  | 24 => readArgument 1 octets
  | 25 => readArgument 2 octets
  | 26 => readArgument 4 octets
  | 27 => readArgument 8 octets
  | info => if info < 24 then some (info, octets) else none

def readHead : List UInt8 → Option (Nat × Nat × List UInt8)
  | [] => none
  | octet :: octets =>
    (readInfo (octet.toNat % 32) octets).map fun argument => (octet.toNat / 32, argument)

def readOctets (count : Nat) (octets : List UInt8) : Option (List UInt8 × List UInt8) :=
  if count ≤ octets.length then some (octets.take count, octets.drop count) else none

section
variable {α : Type*} (read : List UInt8 → Option (α × List UInt8))

def readMany : Nat → List UInt8 → Option (List α × List UInt8)
  | 0, octets => some ([], octets)
  | count + 1, octets =>
    match read octets with
    | none => none
    | some (a, rest) => (readMany count rest).map fun more => (a :: more.1, more.2)

def readBoth (octets : List UInt8) : Option ((α × α) × List UInt8) :=
  match read octets with
  | none => none
  | some (a, rest) => (read rest).map fun more => ((a, more.1), more.2)
end

/-- One item, that is nested no deeper than that. -/
def readItem : Nat → List UInt8 → Option (Item × List UInt8)
  | 0, _ => none
  | depth + 1, octets =>
    match readHead octets with
    | none => none
    | some (major, argument, rest) =>
      match major with
      | 0 => some (.unsigned argument, rest)
      | 1 => some (.negative argument, rest)
      | 2 => (readOctets argument rest).map fun read => (.bytes read.1, read.2)
      | 3 => (readOctets argument rest).bind fun read =>
          (ofUtf8 read.1).map fun characters => (.text characters, read.2)
      | 4 => (readMany (readItem depth) argument rest).map fun read => (.array read.1, read.2)
      | 5 => (readMany (readBoth (readItem depth)) argument rest).map fun read =>
          (.map read.1, read.2)
      | _ => none

/-- The first item. What it has of octets is as deep as it can be nested. -/
def decode (octets : List UInt8) : Option (Item × List UInt8) := readItem octets.length octets

/-- The order of map keys: by major type, by length, and then octet by octet. -/
def KeyLt (a b : Item) : Prop :=
  a.major < b.major ∨ a.major = b.major ∧
    ((encode a).length < (encode b).length ∨
      (encode a).length = (encode b).length ∧ encode a < encode b)

inductive Item.Sized : Item → Prop
  | unsigned {argument : Nat} (hargument : argument < 2 ^ 64) : Sized (.unsigned argument)
  | negative {argument : Nat} (hargument : argument < 2 ^ 64) : Sized (.negative argument)
  | bytes {octets : List UInt8} (hlength : octets.length < 2 ^ 64) : Sized (.bytes octets)
  | text {characters : List Char} (hlength : (utf8 characters).length < 2 ^ 64) :
    Sized (.text characters)
  | array {items : List Item} (hlength : items.length < 2 ^ 64) (hitems : ∀ item ∈ items, Sized item) :
    Sized (.array items)
  | map {entries : List (Item × Item)} (hlength : entries.length < 2 ^ 64)
    (hkeys : ∀ entry ∈ entries, Sized entry.1) (hvalues : ∀ entry ∈ entries, Sized entry.2) :
    Sized (.map entries)

/-- The keys of each map are in ascending order, so no two of them are equal. -/
inductive Item.Canonical : Item → Prop
  | unsigned (argument : Nat) : Canonical (.unsigned argument)
  | negative (argument : Nat) : Canonical (.negative argument)
  | bytes (octets : List UInt8) : Canonical (.bytes octets)
  | text (characters : List Char) : Canonical (.text characters)
  | array {items : List Item} (hitems : ∀ item ∈ items, Canonical item) : Canonical (.array items)
  | map {entries : List (Item × Item)} (hkeys : ∀ entry ∈ entries, Canonical entry.1)
    (hvalues : ∀ entry ∈ entries, Canonical entry.2)
    (hsorted : entries.Pairwise fun a b => KeyLt a.1 b.1) : Canonical (.map entries)

variable {major : Nat}

theorem initial_toNat {info : Nat} (hmajor : major < 8) (hinfo : info < 32) :
    (initial major info).toNat = major * 32 + info := by
  rw [initial, UInt8.toNat_ofNat', Nat.mod_eq_of_lt]
  omega

theorem readArgument_toBE {width argument : Nat} (hargument : argument < 256 ^ width)
    (rest : List UInt8) : readArgument width (toBE width argument ++ rest) = some (argument, rest) := by
  have hlength := length_toBE width argument
  have hle : width ≤ (toBE width argument ++ rest).length := by
    rw [List.length_append, hlength]
    exact Nat.le_add_right _ _
  rw [readArgument, if_pos hle, List.take_left' hlength, List.drop_left' hlength,
    ofBE_toBE_of_lt hargument]

theorem readHead_initial {info : Nat} (hmajor : major < 8) (hinfo : info < 32)
    (octets : List UInt8) : readHead (initial major info :: octets) =
      (readInfo info octets).map fun argument => (major, argument) := by
  have hmod : (initial major info).toNat % 32 = info := by
    rw [initial_toNat hmajor hinfo]
    omega
  have hdiv : (initial major info).toNat / 32 = major := by
    rw [initial_toNat hmajor hinfo]
    omega
  rw [readHead, hmod, hdiv]

theorem readInfo_of_lt {info : Nat} (hinfo : info < 24) (octets : List UInt8) :
    readInfo info octets = some (info, octets) := by
  rw [readInfo.eq_def]
  split
  case h_5 => rw [if_pos hinfo]
  all_goals omega

theorem readHead_head {argument : Nat} (hmajor : major < 8) (hargument : argument < 2 ^ 64)
    (rest : List UInt8) :
    readHead (head major argument ++ rest) = some (major, argument, rest) := by
  rw [head]
  split
  case isTrue hlt =>
    rw [List.singleton_append, readHead_initial hmajor (by omega), readInfo_of_lt hlt]
    rfl
  split
  case isTrue hlt =>
    rw [List.cons_append, readHead_initial hmajor (by decide), readInfo, readArgument_toBE hlt]
    rfl
  split
  case isTrue hlt =>
    rw [List.cons_append, readHead_initial hmajor (by decide), readInfo, readArgument_toBE hlt]
    rfl
  split
  case isTrue hlt =>
    rw [List.cons_append, readHead_initial hmajor (by decide), readInfo, readArgument_toBE hlt]
    rfl
  case isFalse =>
    rw [List.cons_append, readHead_initial hmajor (by decide), readInfo, readArgument_toBE hargument]
    rfl

theorem head_append_inj {major' argument argument' : Nat} {rest rest' : List UInt8}
    (hmajor : major < 8) (hmajor' : major' < 8) (hargument : argument < 2 ^ 64)
    (hargument' : argument' < 2 ^ 64)
    (heq : head major argument ++ rest = head major' argument' ++ rest') :
    major = major' ∧ argument = argument' ∧ rest = rest' := by
  have hread := readHead_head hmajor hargument rest
  rw [heq, readHead_head hmajor' hargument' rest'] at hread
  simp only [Option.some.injEq, Prod.mk.injEq] at hread
  exact ⟨hread.1.symm, hread.2.1.symm, hread.2.2.symm⟩

theorem length_head_pos (major argument : Nat) : 0 < (head major argument).length := by
  rw [head]
  split_ifs <;> simp

theorem ofUtf8_utf8 (characters : List Char) : ofUtf8 (utf8 characters) = some characters := by
  have hdecode := @List.utf8Decode?_utf8Encode characters
  rw [ofUtf8, utf8]
  rw [List.utf8Encode] at hdecode
  rw [hdecode]
  rfl

theorem readOctets_append (octets rest : List UInt8) :
    readOctets octets.length (octets ++ rest) = some (octets, rest) := by
  rw [readOctets, if_pos (by simp), List.take_left, List.drop_left]

section
variable {α : Type*} {read : List UInt8 → Option (α × List UInt8)} {code : α → List UInt8}

theorem readMany_flatMap {items : List α}
    (hread : ∀ item ∈ items, ∀ rest, read (code item ++ rest) = some (item, rest))
    (rest : List UInt8) :
    readMany read items.length (items.flatMap code ++ rest) = some (items, rest) := by
  induction items with
  | nil => rfl
  | cons item items ih =>
    rw [List.length_cons, readMany, List.flatMap_cons, List.append_assoc,
      hread item List.mem_cons_self]
    simp only [ih fun other hother => hread other (List.mem_cons_of_mem _ hother), Option.map_some]

theorem readBoth_append {a b : α} (rest : List UInt8)
    (ha : ∀ rest, read (code a ++ rest) = some (a, rest))
    (hb : ∀ rest, read (code b ++ rest) = some (b, rest)) :
    readBoth read ((code a ++ code b) ++ rest) = some ((a, b), rest) := by
  rw [readBoth, List.append_assoc, ha]
  simp only [hb, Option.map_some]
end

theorem encodeItems_eq (items : List Item) : encodeItems items = items.flatMap encode := by
  induction items with
  | nil => rfl
  | cons item items ih => rw [encodeItems, ih, List.flatMap_cons]

theorem encodeEntries_eq (entries : List (Item × Item)) :
    encodeEntries entries = entries.flatMap fun entry => encode entry.1 ++ encode entry.2 := by
  induction entries with
  | nil => rfl
  | cons entry entries ih => rw [encodeEntries, ih, List.flatMap_cons]

theorem length_le_length_flatMap {α β : Type*} {f : α → List β} {as : List α} {a : α}
    (hmem : a ∈ as) : (f a).length ≤ (as.flatMap f).length := by
  rw [List.length_flatMap]
  exact List.le_sum_of_mem (List.mem_map_of_mem hmem)

theorem Item.Sized.readItem_encode {item : Item} (hitem : item.Sized) {depth : Nat}
    (hdepth : (encode item).length ≤ depth) (rest : List UInt8) :
    readItem depth (encode item ++ rest) = some (item, rest) := by
  induction hitem generalizing depth rest with
  | unsigned hargument | negative hargument =>
    rw [encode] at hdepth ⊢
    obtain ⟨depth, rfl⟩ := Nat.exists_eq_add_of_lt ((length_head_pos _ _).trans_le hdepth)
    rw [Nat.zero_add, readItem, readHead_head (by decide) hargument]
    rfl
  | bytes hlength =>
    rw [encode, List.length_append] at hdepth
    obtain ⟨depth, rfl⟩ := Nat.exists_eq_add_of_lt
      ((length_head_pos _ _).trans_le ((Nat.le_add_right _ _).trans hdepth))
    rw [encode, List.append_assoc, Nat.zero_add, readItem, readHead_head (by decide) hlength]
    simp only [readOctets_append, Option.map_some]
  | text hlength =>
    rw [encode, List.length_append] at hdepth
    obtain ⟨depth, rfl⟩ := Nat.exists_eq_add_of_lt
      ((length_head_pos _ _).trans_le ((Nat.le_add_right _ _).trans hdepth))
    rw [encode, List.append_assoc, Nat.zero_add, readItem, readHead_head (by decide) hlength]
    simp only [readOctets_append, Option.bind_some, ofUtf8_utf8, Option.map_some]
  | @array items hlength _ ih =>
    rw [encode, List.length_append, encodeItems_eq] at hdepth
    have hhead := length_head_pos 4 items.length
    obtain ⟨depth, rfl⟩ := Nat.exists_eq_add_of_lt
      (hhead.trans_le ((Nat.le_add_right _ _).trans hdepth))
    have hread : ∀ item ∈ items, ∀ rest,
        readItem depth (encode item ++ rest) = some (item, rest) := by
      intro item hitem rest
      have hle := length_le_length_flatMap (f := encode) hitem
      exact ih item hitem (by omega) rest
    rw [encode, List.append_assoc, Nat.zero_add, readItem, readHead_head (by decide) hlength,
      encodeItems_eq]
    simp only [readMany_flatMap hread, Option.map_some]
  | @map entries hlength _ _ ihkeys ihvalues =>
    rw [encode, List.length_append, encodeEntries_eq] at hdepth
    have hhead := length_head_pos 5 entries.length
    obtain ⟨depth, rfl⟩ := Nat.exists_eq_add_of_lt
      (hhead.trans_le ((Nat.le_add_right _ _).trans hdepth))
    have hread : ∀ entry ∈ entries, ∀ rest,
        readBoth (readItem depth) ((encode entry.1 ++ encode entry.2) ++ rest) =
          some (entry, rest) := by
      intro entry hentry rest
      have hle := length_le_length_flatMap
        (f := fun entry : Item × Item => encode entry.1 ++ encode entry.2) hentry
      rw [List.length_append] at hle
      apply readBoth_append
      · exact ihkeys entry hentry (by omega)
      · exact ihvalues entry hentry (by omega)
    rw [encode, List.append_assoc, Nat.zero_add, readItem, readHead_head (by decide) hlength,
      encodeEntries_eq]
    simp only [readMany_flatMap hread, Option.map_some]

theorem Item.Sized.decode_encode {item : Item} (hitem : item.Sized) :
    decode (encode item) = some (item, []) := by
  have hread := hitem.readItem_encode (le_refl _) []
  rwa [List.append_nil] at hread

theorem KeyLt.irrefl (a : Item) : ¬KeyLt a a := by
  intro hlt
  obtain hmajor | ⟨-, hlength | ⟨-, hoctets⟩⟩ := hlt
  · exact lt_irrefl _ hmajor
  · exact lt_irrefl _ hlength
  · exact List.lt_irrefl _ hoctets

theorem KeyLt.trans {a b c : Item} (hab : KeyLt a b) (hbc : KeyLt b c) : KeyLt a c := by
  obtain hmajor | ⟨hmajor, hab⟩ := hab
  · obtain hmajor' | ⟨hmajor', -⟩ := hbc
    · exact Or.inl (hmajor.trans hmajor')
    · exact Or.inl (hmajor' ▸ hmajor)
  · obtain hmajor' | ⟨hmajor', hbc⟩ := hbc
    · exact Or.inl (hmajor ▸ hmajor')
    · refine Or.inr ⟨hmajor.trans hmajor', ?_⟩
      obtain hlength | ⟨hlength, hab⟩ := hab
      · obtain hlength' | ⟨hlength', -⟩ := hbc
        · exact Or.inl (hlength.trans hlength')
        · exact Or.inl (hlength' ▸ hlength)
      · obtain hlength' | ⟨hlength', hbc⟩ := hbc
        · exact Or.inl (hlength ▸ hlength')
        · exact Or.inr ⟨hlength.trans hlength', List.lt_trans hab hbc⟩

theorem KeyLt.asymm {a b : Item} (hab : KeyLt a b) : ¬KeyLt b a := fun hba =>
  KeyLt.irrefl a (hab.trans hba)

theorem toBE_lt {width a b : Nat} (hlt : a % 256 ^ width < b % 256 ^ width) :
    toBE width a < toBE width b := by
  induction width with
  | zero => simp [Nat.mod_one] at hlt
  | succ width ih =>
    rw [pow_succ, Nat.mod_mul, Nat.mod_mul] at hlt
    have ha := Nat.mod_lt a (Nat.pow_pos (n := width) (show 0 < 256 by decide))
    have hb := Nat.mod_lt b (Nat.pow_pos (n := width) (show 0 < 256 by decide))
    have hle : a / 256 ^ width % 256 ≤ b / 256 ^ width % 256 := by
      by_contra hgt
      have hmul := Nat.mul_le_mul_left (256 ^ width) (not_le.mp hgt)
      rw [Nat.mul_succ] at hmul
      omega
    rw [toBE, toBE, List.cons_lt_cons_iff]
    cases hle.lt_or_eq with
    | inl hdigit =>
      left
      rw [UInt8.lt_iff_toNat_lt, UInt8.toNat_ofNat', UInt8.toNat_ofNat']
      exact hdigit
    | inr hdigit =>
      right
      refine ⟨?_, ih ?_⟩
      · rw [← UInt8.toNat_inj, UInt8.toNat_ofNat', UInt8.toNat_ofNat']
        exact hdigit
      · rw [hdigit] at hlt
        omega

/-- The first octets of heads of one length are equal or those of small arguments. -/
theorem head_lt {a b : Nat} (hmajor : major < 8) (hb : b < 2 ^ 64) (hlt : a < b) :
    (head major a).length < (head major b).length ∨
      (head major a).length = (head major b).length ∧ head major a < head major b := by
  have hsmall : b < 24 → initial major a < initial major b := by
    intro hsmall
    rw [UInt8.lt_iff_toNat_lt, initial_toNat hmajor (by omega), initial_toNat hmajor (by omega)]
    omega
  have hlarge : ∀ width info, b < 256 ^ width →
      initial major info :: toBE width a < initial major info :: toBE width b := by
    intro width info hfits
    rw [List.cons_lt_cons_iff]
    right
    refine ⟨rfl, toBE_lt ?_⟩
    rw [Nat.mod_eq_of_lt (hlt.trans hfits), Nat.mod_eq_of_lt hfits]
    exact hlt
  rw [head, head]
  split_ifs
  case pos => exact Or.inr ⟨rfl, List.cons_lt_cons_iff.mpr (Or.inl (hsmall ‹_›))⟩
  all_goals first
    | omega
    | exact Or.inr ⟨rfl, hlarge _ _ (by omega)⟩
    | exact Or.inl (by simp)

theorem KeyLt.unsigned {a b : Nat} (hb : b < 2 ^ 64) (hlt : a < b) :
    KeyLt (.unsigned a) (.unsigned b) := by
  right
  rw [encode, encode]
  exact ⟨rfl, head_lt (by decide) hb hlt⟩

theorem KeyLt.negative {a b : Nat} (hb : b < 2 ^ 64) (hlt : a < b) :
    KeyLt (.negative a) (.negative b) := by
  right
  rw [encode, encode]
  exact ⟨rfl, head_lt (by decide) hb hlt⟩

theorem KeyLt.text {s t : List Char} (hlength : (utf8 t).length < 2 ^ 64)
    (hlt : (utf8 s).length < (utf8 t).length ∨
      (utf8 s).length = (utf8 t).length ∧ utf8 s < utf8 t) : KeyLt (.text s) (.text t) := by
  right
  rw [encode, encode, List.length_append, List.length_append]
  refine ⟨rfl, ?_⟩
  cases hlt with
  | inl hlt =>
    left
    have hhead : _ ∨ _ ∧ head 3 _ < _ := head_lt (by decide) hlength hlt
    cases hhead with
    | inl hhead => omega
    | inr hhead => omega
  | inr hlt =>
    right
    rw [hlt.1]
    exact ⟨rfl, List.append_left_lt hlt.2⟩
end Cbor
