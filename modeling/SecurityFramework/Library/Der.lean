import Mathlib.Data.List.Basic
import Mathlib.Tactic.Cases

/-!
# Tag-length-value coding

What a DER coder does with any content: it writes elements backwards into a buffer of known size,
and reads them forwards from a position that is the list of the octets still ahead.
-/

namespace DER
theorem lawfulBEq_octets : LawfulBEq (List UInt8) := inferInstance

inductive TagClass where
  | universal
  | application
  | contextSpecific
  | privateUse
  deriving DecidableEq

structure Tag where
  cls : TagClass
  constructed : Bool
  number : Nat
  deriving DecidableEq

/-- The coders of tags, lengths and unsigned integers. A reader returns what it read and the octets
after it, or nothing. -/
structure Primitives where
  encodeTag : Tag → List UInt8
  decodeTag : List UInt8 → Option (Tag × List UInt8)
  encodeLen : Nat → List UInt8
  decodeLen : List UInt8 → Option (Nat × List UInt8)
  /-- The contents of an INTEGER. -/
  encodeUnsigned : UInt64 → List UInt8
  /-- The number with these base 256 digits, most significant first, if it fits. -/
  readUnsigned : List UInt8 → Option UInt64
  bitLength : UInt64 → Nat
  /-- So many octets of the number, most significant first. -/
  writePadded : UInt64 → Nat → List UInt8

/-- The primitives read back what they write, read no further than the end of a tag or a length,
and accept only lengths that the octets ahead can hold. -/
structure Primitives.Correct (der : Primitives) : Prop where
  decodeTag_encodeTag : ∀ tag rest, tag.number < 31 →
    der.decodeTag (der.encodeTag tag ++ rest) = some (tag, rest)
  decodeTag_reads : ∀ octets tag rest, der.decodeTag octets = some (tag, rest) →
    ∃ head, head ≠ [] ∧ octets = head ++ rest ∧
      ∀ rest', der.decodeTag (head ++ rest') = some (tag, rest')
  decodeLen_encodeLen : ∀ len rest, len ≤ rest.length →
    der.decodeLen (der.encodeLen len ++ rest) = some (len, rest)
  decodeLen_reads : ∀ octets len rest, der.decodeLen octets = some (len, rest) →
    len ≤ rest.length ∧ ∃ head, head ≠ [] ∧ octets = head ++ rest ∧
      ∀ rest', len ≤ rest'.length → der.decodeLen (head ++ rest') = some (len, rest')
  encodeLen_definite : ∀ len, (der.encodeLen len).head? ≠ some 0x80
  encodeUnsigned_nonneg : ∀ value, ∃ first more,
    der.encodeUnsigned value = first :: more ∧ first < 0x80
  readUnsigned_encodeUnsigned : ∀ value,
    der.readUnsigned (der.encodeUnsigned value) = some value
  writePadded_length : ∀ value size, (der.writePadded value size).length = size
  readUnsigned_writePadded : ∀ value size, der.bitLength value ≤ 8 * size →
    der.readUnsigned (der.writePadded value (size + 1)).tail = some value

section
variable (der : Primitives)

def decodeTl (expected : Tag) (octets : List UInt8) : Option (Nat × List UInt8) := do
  let (tag, rest) ← der.decodeTag octets
  if tag = expected then der.decodeLen rest else none

def decodeConstructedTl (expected : Tag) (octets : List UInt8) :
    Option (List UInt8 × List UInt8) := do
  let (len, rest) ← decodeTl der expected octets
  some (rest.take len, rest.drop len)

/-- A position in a buffer that is filled from its end: the octets still free before it, and those
written after it. -/
structure Buffer where
  room : Nat
  written : List UInt8
  deriving DecidableEq

/-- Where a writer goes on, or the buffer as a writer that failed left it. -/
abbrev Output := Except Buffer Buffer

abbrev Writer := Output → Output

def fail : Writer
  | .ok buffer => .error buffer
  | .error buffer => .error buffer

def encodeBody (octets : List UInt8) : Writer
  | .ok buffer =>
    if octets.length ≤ buffer.room then
      .ok ⟨buffer.room - octets.length, octets ++ buffer.written⟩
    else .error buffer
  | .error buffer => .error buffer

def encodeTl (tag : Tag) (len : Nat) (output : Output) : Output :=
  encodeBody (der.encodeTag tag) (encodeBody (der.encodeLen len) output)

/-- Put a tag and the length of what was written since `bodyEnd`. -/
def encodeConstructedTl (tag : Tag) (bodyEnd body : Output) : Output :=
  match body, bodyEnd with
  | .ok body, .ok bodyEnd => encodeTl der tag (bodyEnd.room - body.room) (.ok body)
  | .ok body, .error _ => .error body
  | .error body, _ => .error body

def encodeOctets (tag : Tag) (octets : List UInt8) (buffer : Output) : Output :=
  encodeTl der tag octets.length (encodeBody octets buffer)

/-- The octets that an element with so long a content takes. -/
def sizeof (tag : Tag) (len : Nat) : Nat :=
  (der.encodeTag tag).length + (der.encodeLen len).length + len

def element (tag : Tag) (content : List UInt8) : List UInt8 :=
  der.encodeTag tag ++ (der.encodeLen content.length ++ content)

def IsElement (octets : List UInt8) : Prop :=
  ∃ tag content, tag.number < 31 ∧ octets = element der tag content

@[simp] theorem length_element (tag : Tag) (content : List UInt8) :
    (element der tag content).length = sizeof der tag content.length := by
  simp only [element, sizeof, List.length_append]
  omega
end

section Reading

variable {der : Primitives} (hder : der.Correct)
include hder

theorem encodeTag_ne_nil (tag : Tag) (ht : tag.number < 31) : der.encodeTag tag ≠ [] := by
  intro hnil
  have hread := hder.decodeTag_encodeTag tag [] ht
  obtain ⟨head, hhead, hsplit, -⟩ := hder.decodeTag_reads _ _ _ hread
  simp [hnil] at hsplit
  exact hhead hsplit

theorem decodeTag_element (tag : Tag) (ht : tag.number < 31) (content rest : List UInt8) :
    der.decodeTag (element der tag content ++ rest) =
      some (tag, der.encodeLen content.length ++ (content ++ rest)) := by
  simp only [element, List.append_assoc]
  exact hder.decodeTag_encodeTag tag _ ht

theorem decodeTl_element (tag : Tag) (ht : tag.number < 31) (content rest : List UInt8) :
    decodeTl der tag (element der tag content ++ rest) =
      some (content.length, content ++ rest) := by
  rw [decodeTl, decodeTag_element hder tag ht]
  have hlen : content.length ≤ (content ++ rest).length := by simp
  simp [hder.decodeLen_encodeLen _ _ hlen]

theorem decodeTl_element_of_ne (tag expected : Tag) (ht : tag.number < 31) (hne : tag ≠ expected)
    (content rest : List UInt8) :
    decodeTl der expected (element der tag content ++ rest) = none := by
  rw [decodeTl, decodeTag_element hder tag ht]
  simp [hne]

theorem decodeConstructedTl_element (tag : Tag) (ht : tag.number < 31)
    (content rest : List UInt8) :
    decodeConstructedTl der tag (element der tag content ++ rest) = some (content, rest) := by
  rw [decodeConstructedTl, decodeTl_element hder tag ht]
  simp

theorem decodeConstructedTl_element_of_ne (tag expected : Tag) (ht : tag.number < 31)
    (hne : tag ≠ expected) (content rest : List UInt8) :
    decodeConstructedTl der expected (element der tag content ++ rest) = none := by
  rw [decodeConstructedTl, decodeTl_element_of_ne hder tag expected ht hne]
  rfl

theorem decodeTl_reads {expected : Tag} {octets rest : List UInt8} {len : Nat}
    (hread : decodeTl der expected octets = some (len, rest)) :
    len ≤ rest.length ∧ ∃ head, head ≠ [] ∧ octets = head ++ rest := by
  simp only [decodeTl, Option.bind_eq_bind, Option.bind_eq_some_iff] at hread
  obtain ⟨⟨tag, more⟩, htag, hlen⟩ := hread
  obtain ⟨head, hhead, rfl, -⟩ := hder.decodeTag_reads _ _ _ htag
  dsimp only at hlen
  split at hlen
  case isFalse => cases hlen
  case isTrue =>
    obtain ⟨hle, digits, -, rfl, -⟩ := hder.decodeLen_reads _ _ _ hlen
    exact ⟨hle, head ++ digits, by simp [hhead], by simp⟩

theorem decodeConstructedTl_reads {expected : Tag} {octets content rest : List UInt8}
    (hread : decodeConstructedTl der expected octets = some (content, rest)) :
    ∃ head, head ≠ [] ∧ octets = head ++ (content ++ rest) := by
  simp only [decodeConstructedTl, Option.bind_eq_bind, Option.bind_eq_some_iff,
    Option.some.injEq, Prod.mk.injEq] at hread
  obtain ⟨⟨len, body⟩, htl, rfl, rfl⟩ := hread
  obtain ⟨-, head, hhead, rfl⟩ := decodeTl_reads hder htl
  exact ⟨head, hhead, by simp⟩

theorem decodeTag_nil : der.decodeTag [] = none := by
  cases hread : der.decodeTag [] with
  | none => rfl
  | some result =>
    obtain ⟨head, hhead, hsplit, -⟩ := hder.decodeTag_reads _ _ _ hread
    simp at hsplit
    exact absurd hsplit.1 hhead

theorem decodeTl_nil (expected : Tag) : decodeTl der expected [] = none := by
  simp [decodeTl, decodeTag_nil hder]

theorem element_append_inj {tag tag' : Tag} (ht : tag.number < 31) (ht' : tag'.number < 31)
    {content content' rest rest' : List UInt8}
    (heq : element der tag content ++ rest = element der tag' content' ++ rest') :
    tag = tag' ∧ content = content' ∧ rest = rest' := by
  have htag := decodeTag_element hder tag ht content rest
  rw [heq, decodeTag_element hder tag' ht'] at htag
  have hsame : tag' = tag := by
    simp only [Option.some.injEq, Prod.mk.injEq] at htag
    exact htag.1
  subst hsame
  have hbody := decodeConstructedTl_element hder tag' ht content rest
  rw [heq, decodeConstructedTl_element hder tag' ht] at hbody
  simp only [Option.some.injEq, Prod.mk.injEq] at hbody
  exact ⟨rfl, hbody.1.symm, hbody.2.symm⟩

theorem element_inj {tag tag' : Tag} (ht : tag.number < 31) (ht' : tag'.number < 31)
    {content content' : List UInt8} (heq : element der tag content = element der tag' content') :
    tag = tag' ∧ content = content' := by
  have hnil : element der tag content ++ [] = element der tag' content' ++ [] := by
    rw [heq]
  have hpair := element_append_inj hder ht ht' hnil
  exact ⟨hpair.1, hpair.2.1⟩

/-- A run of elements begins with another one only where its elements do. -/
theorem flatten_elements_prefix : ∀ {items items' : List (List UInt8)},
    (∀ item ∈ items, IsElement der item) → (∀ item ∈ items', IsElement der item) →
      items.flatten <+: items'.flatten → items <+: items'
  | [], _, _, _, _ => List.nil_prefix
  | item :: items, [], hitems, _, hprefix => by
    obtain ⟨tag, content, ht, rfl⟩ := hitems _ List.mem_cons_self
    have hnil := List.prefix_nil.mp hprefix
    simp [element, encodeTag_ne_nil hder tag ht] at hnil
  | item :: items, item' :: items', hitems, hitems', hprefix => by
    obtain ⟨tag, content, ht, rfl⟩ := hitems _ List.mem_cons_self
    obtain ⟨tag', content', ht', rfl⟩ := hitems' _ List.mem_cons_self
    obtain ⟨rest, hrest⟩ := hprefix
    rw [List.flatten_cons, List.flatten_cons, List.append_assoc] at hrest
    obtain ⟨rfl, rfl, hsame⟩ := element_append_inj hder ht ht' hrest
    have htail := flatten_elements_prefix
      (fun item hitem => hitems item (List.mem_cons_of_mem _ hitem))
      (fun item hitem => hitems' item (List.mem_cons_of_mem _ hitem)) ⟨rest, hsame⟩
    exact List.cons_prefix_cons.mpr ⟨rfl, htail⟩

theorem flatten_elements_inj {items items' : List (List UInt8)}
    (hitems : ∀ item ∈ items, IsElement der item) (hitems' : ∀ item ∈ items', IsElement der item)
    (heq : items.flatten = items'.flatten) : items = items' := by
  have hle := flatten_elements_prefix hder hitems hitems' (heq ▸ List.prefix_rfl)
  have hge := flatten_elements_prefix hder hitems' hitems (heq ▸ List.prefix_rfl)
  exact hle.eq_of_length_le hge.length_le
end Reading

def Consumes {α : Type} (read : List UInt8 → Option (α × List UInt8)) : Prop :=
  ∀ octets value rest, read octets = some (value, rest) →
    ∃ head, head ≠ [] ∧ octets = head ++ rest

namespace Consumes
variable {α β : Type} {read other : List UInt8 → Option (α × List UInt8)}

theorem suffix (hread : Consumes read) {octets rest : List UInt8} {value : α}
    (hsome : read octets = some (value, rest)) :
    rest <:+ octets ∧ rest.length < octets.length := by
  obtain ⟨head, hhead, rfl⟩ := hread octets value rest hsome
  refine ⟨List.suffix_append head rest, ?_⟩
  have hpos := List.length_pos_iff.mpr hhead
  rw [List.length_append]
  omega

theorem map (hread : Consumes read) (f : α → β) :
    Consumes fun octets => (read octets).map fun (value, rest) => (f value, rest) := by
  intro octets value rest hsome
  obtain ⟨⟨before, _⟩, hbefore, hpair⟩ := Option.map_eq_some_iff.mp hsome
  cases hpair
  exact hread octets before _ hbefore

theorem ite {c : Prop} [Decidable c] (hread : Consumes read) (hother : Consumes other) :
    Consumes fun octets => if c then read octets else other octets := by
  intro octets value rest hsome
  dsimp only at hsome
  split at hsome
  case isTrue => exact hread octets value rest hsome
  case isFalse => exact hother octets value rest hsome

section
variable {der : Primitives} (hder : der.Correct)
include hder

theorem tl (tag : Tag) {finish : List UInt8 → Nat × List UInt8 → Option (α × List UInt8)}
    (hfinish : ∀ octets size payload value rest,
      finish octets (size, payload) = some (value, rest) → rest <:+ payload) :
    Consumes fun octets => decodeTl der tag octets >>= finish octets := by
  intro octets value rest hread
  obtain ⟨⟨size, payload⟩, htl, hvalue⟩ := Option.bind_eq_some_iff.mp hread
  obtain ⟨before, hbefore⟩ := hfinish octets size payload value rest hvalue
  obtain ⟨-, head, hhead, rfl⟩ := decodeTl_reads hder htl
  exact ⟨head ++ before, by simp [hhead], by rw [List.append_assoc, hbefore]⟩

theorem constructed (tag : Tag)
    {finish : List UInt8 × List UInt8 → Option (α × List UInt8)}
    (hfinish : ∀ content behind value rest,
      finish (content, behind) = some (value, rest) → rest <:+ content ++ behind) :
    Consumes fun octets => decodeConstructedTl der tag octets >>= finish := by
  intro octets value rest hread
  obtain ⟨⟨content, behind⟩, htl, hvalue⟩ := Option.bind_eq_some_iff.mp hread
  obtain ⟨before, hbefore⟩ := hfinish content behind value rest hvalue
  obtain ⟨head, hhead, rfl⟩ := decodeConstructedTl_reads hder htl
  exact ⟨head ++ before, by simp [hhead], by rw [List.append_assoc, hbefore]⟩
end
end Consumes

/-- The writer puts these octets before whatever is written, wherever they have room. -/
def Writes (writer : Writer) (octets : List UInt8) : Prop :=
  ∀ room written,
    writer (.ok ⟨room + octets.length, written⟩) = .ok ⟨room, octets ++ written⟩

namespace Writes
theorem nothing : Writes (fun buffer => buffer) [] := by
  intro room written
  simp

theorem body (octets : List UInt8) : Writes (encodeBody octets) octets := by
  intro room written
  simp [encodeBody]

theorem comp {first last : Writer} {front back : List UInt8}
    (hlast : Writes last front) (hfirst : Writes first back) :
    Writes (fun buffer => last (first buffer)) (front ++ back) := by
  intro room written
  have hroom : room + (front ++ back).length = room + front.length + back.length := by
    simp [Nat.add_assoc]
  have hback := hfirst (room + front.length) written
  have hfront := hlast room (back ++ written)
  simp only [hroom, hback, hfront, List.append_assoc]

theorem tl (der : Primitives) (tag : Tag) (len : Nat) :
    Writes (encodeTl der tag len) (der.encodeTag tag ++ der.encodeLen len) := by
  have hwrites := comp (body (der.encodeTag tag)) (body (der.encodeLen len))
  exact hwrites

theorem octets (der : Primitives) (tag : Tag) (content : List UInt8) :
    Writes (encodeOctets der tag content) (element der tag content) := by
  have hwrites := comp (tl der tag content.length) (body content)
  rwa [List.append_assoc] at hwrites

theorem constructed (der : Primitives) (tag : Tag) {writer : Writer}
    {content : List UInt8} (hwriter : Writes writer content) :
    Writes (fun buffer => encodeConstructedTl der tag buffer (writer buffer))
      (element der tag content) := by
  intro room written
  let before := der.encodeTag tag ++ der.encodeLen content.length
  have hsplit : element der tag content = before ++ content := by
    simp [element, before]
  have hroom : room + (element der tag content).length =
      room + before.length + content.length := by
    simp [hsplit, Nat.add_assoc]
  have htl := tl der tag content.length room (content ++ written)
  simp only [encodeConstructedTl, hroom, hwriter _ _, Nat.add_sub_cancel_left]
  rw [hsplit, List.append_assoc]
  exact htl

theorem loop {α : Type} {writer : α → Writer} {coding : α → List UInt8} :
    ∀ items : List α, (∀ item ∈ items, Writes (writer item) (coding item)) →
      Writes (fun buffer => items.foldr writer buffer) (items.flatMap coding)
  | [], _ => nothing
  | item :: items, hitems => by
    have htail := loop items fun other hother => hitems other (List.mem_cons_of_mem _ hother)
    have hhead := hitems item List.mem_cons_self
    exact comp hhead htail

theorem bodies (contents : List (List UInt8)) :
    Writes (fun buffer => contents.foldr encodeBody buffer) contents.flatten := by
  have hloop := @loop _ encodeBody (fun octets => octets) contents fun octets _ => body octets
  rwa [List.flatMap_id'] at hloop

theorem fills {writer : Writer} {octets : List UInt8} (hwriter : Writes writer octets) :
    writer (.ok ⟨octets.length, []⟩) = .ok ⟨0, octets⟩ := by
  have hroom := hwriter 0 []
  simpa using hroom
end Writes
end DER
