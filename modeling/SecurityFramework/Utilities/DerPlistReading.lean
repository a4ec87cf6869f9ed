import SecurityFramework.Utilities.DerPlist

/-! # Reading property lists -/

namespace SecurityFramework
open DER

/-- Why a walk ends without a value. -/
inductive Halt where
  | refused
  | spent
  | outside
  deriving DecidableEq

/-- A reader that tells octets it refuses from fuel that ran out. -/
abbrev Walker (α : Type) := List UInt8 → Except Halt (α × List UInt8)

def orRefused {α : Type} : Option α → Except Halt α
  | some value => .ok value
  | none => .error .refused

def lengthFits (der : Primitives) (octets : List UInt8) : Bool :=
  match (der.decodeTag octets).bind fun (_, rest) => der.decodeLen rest with
  | some (len, content) => len ≤ content.length
  | none => true

/-- Ends a walk that does not take an octet, or that comes to a position that is not among the
octets. -/
def inside {α : Type} (der : Primitives) (walk : Walker α) : Walker α := fun octets => do
  let (value, rest) ← walk octets
  if lengthFits der octets ∧ rest <:+ octets ∧ rest.length < octets.length then
    .ok (value, rest)
  else .error .outside

def walkMembers {α : Type} (walkMember : Walker α) (addValue : List α → α → List α) :
    Nat → List α → List UInt8 → Except Halt (List α)
  | _, members, [] => .ok members
  | 0, _, _ :: _ => .error .spent
  | fuel + 1, members, octet :: octets => do
    let (value, payload) ← walkMember (octet :: octets)
    walkMembers walkMember addValue fuel (addValue members value) payload

section
variable (der : Primitives) (dates : DateSystem)

def walkContainer {α : Type} (tag : Tag) (walkMember : Walker α)
    (addValue : List α → α → List α) (wrap : List α → Plist) : Walker Plist := fun octets => do
  let (payload, rest) ← orRefused (decodeConstructedTl der tag octets)
  let members ← walkMembers walkMember addValue payload.length [] payload
  .ok (wrap members, rest)

def walkKeyValue (walkPlist : Walker Plist) : Walker (Plist × Plist) := fun octets => do
  let (payload, rest) ← orRefused (decodeConstructedTl der ccderConstructedSequence octets)
  let (key, payload) ← walkPlist payload
  let (value, payload) ← walkPlist payload
  .ok ((key, value), payload ++ rest)

def walkTagged (walkPlist : Walker Plist) (tag : Tag) : Walker Plist := fun octets =>
  if tag = ccderConstructedSequence then
    walkContainer der tag walkPlist (fun array element => array ++ [element]) .array octets
  else if tag = ccderConstructedSet then
    walkContainer der tag (inside der (walkKeyValue der walkPlist)) cfDictionaryAddValue
      .dictionary octets
  else if tag = ccderConstructedCfset then
    walkContainer der tag walkPlist cfSetAddValue .set octets
  else orRefused (decodeTagged der dates (fun _ => none) tag octets)

/-- `decodePlistNested` with every nested read watched. -/
def walkPlistNested : Nat → Walker Plist
  | 0, _ => .error .spent
  | depth + 1, octets => do
    let (tag, _) ← orRefused (der.decodeTag octets)
    walkTagged der dates (inside der (walkPlistNested depth)) tag octets

def dictionaryInsertions (payload : List UInt8) : Option (List (Plist × Plist)) :=
  decodeMembers (derDecodeKeyValue der (derDecodePlist der dates))
    (fun entries entry => entries ++ [entry]) payload.length [] payload

inductive SetElements : List UInt8 → List (Tag × List UInt8) → Prop where
  | nil : SetElements [] []
  | cons {octets content rest : List UInt8} {tag : Tag} {elements : List (Tag × List UInt8)} :
    decodeConstructedTl der tag octets = some (content, rest) → SetElements rest elements →
      SetElements octets ((tag, content) :: elements)

/-- A SEQUENCE of a key and a value, and of the octets behind them. -/
def IsPair (element : Tag × List UInt8) (entry : Plist × Plist) (trailing : List UInt8) : Prop :=
  element.1 = ccderConstructedSequence ∧
    ∃ valueOctets, derDecodePlist der dates element.2 = some (entry.1, valueOctets) ∧
      derDecodePlist der dates valueOctets = some (entry.2, trailing)

/-- If the octets are accepted, they are a SET whose elements hold exactly one key and one value
each, and as many pairs are put into the dictionary as there are elements. -/
def AcceptsExactPairs (octets : List UInt8) : Prop :=
  ∀ dict rest, derDecodeDictionary der (derDecodePlist der dates) octets = some (dict, rest) →
    ∃ payload elements insertions,
      decodeConstructedTl der ccderConstructedSet octets = some (payload, rest) ∧
      SetElements der payload elements ∧
      (∀ element ∈ elements, ∃ entry, IsPair der dates element entry []) ∧
      dictionaryInsertions der dates payload = some insertions ∧
      insertions.length = elements.length ∧
      dict = .dictionary (insertions.foldl cfDictionaryAddValue [])

/-- Pair upon pair; what a pair holds behind its value is read in front of what is behind it. -/
inductive LoosePairs : List UInt8 → List (Plist × Plist) → Prop where
  | nil : LoosePairs [] []
  | cons {octets content rest trailing : List UInt8} {entry : Plist × Plist}
      {entries : List (Plist × Plist)} :
    decodeConstructedTl der ccderConstructedSequence octets = some (content, rest) →
      IsPair der dates (ccderConstructedSequence, content) entry trailing →
      LoosePairs (trailing ++ rest) entries → LoosePairs octets (entry :: entries)

/-- Behind some exact pairs comes one that holds octets behind its value, and from these octets on
there is pair upon pair. -/
inductive TrailingPair : List UInt8 → Prop where
  | here {octets content rest trailing : List UInt8} {entry : Plist × Plist}
      {entries : List (Plist × Plist)} :
    decodeConstructedTl der ccderConstructedSequence octets = some (content, rest) →
      IsPair der dates (ccderConstructedSequence, content) entry trailing → trailing ≠ [] →
      LoosePairs der dates (trailing ++ rest) entries → TrailingPair octets
  | later {octets content rest : List UInt8} {entry : Plist × Plist} :
    decodeConstructedTl der ccderConstructedSequence octets = some (content, rest) →
      IsPair der dates (ccderConstructedSequence, content) entry [] →
      TrailingPair rest → TrailingPair octets
end

variable {der : Primitives} (hder : der.Correct) (dates : DateSystem)

section Consuming
include hder

theorem consumes_derDecodeNull : Consumes (derDecodeNull der) := by
  apply Consumes.tl hder ccderNull
  intro octets size payload value rest hread
  grind [List.suffix_refl]

theorem consumes_derDecodeBoolean : Consumes (derDecodeBoolean der) := by
  apply Consumes.tl hder ccderBoolean
  intro octets size payload value rest hread
  grind [List.drop_suffix]

theorem consumes_derDecodeData : Consumes (derDecodeData der) := by
  apply Consumes.tl hder ccderOctetString
  intro octets size payload value rest hread
  grind [List.drop_suffix]

theorem consumes_derDecodeCoreEntitlementsData : Consumes (derDecodeCoreEntitlementsData der) := by
  apply Consumes.tl hder ccderEntitlements
  intro octets size payload value rest hread
  grind [List.drop_suffix]

theorem consumes_derDecodeNumber : Consumes (derDecodeNumber der) := by
  apply Consumes.tl hder ccderInteger
  intro octets size payload value rest hread
  grind [List.drop_suffix]

theorem consumes_derDecodeStringTagged (tag : Tag) : Consumes (derDecodeStringTagged der tag) := by
  apply Consumes.tl hder tag
  intro octets size payload value rest hread
  obtain ⟨string, -, hpair⟩ := Option.bind_eq_some_iff.mp hread
  cases hpair
  exact List.drop_suffix _ _

/-- What is behind an element does not depend on what its content is read as. -/
theorem consumes_content {α β : Type} (tag : Tag) (finish : List UInt8 → Option β) (wrap : β → α) :
    Consumes fun octets => decodeConstructedTl der tag octets >>= fun (content, rest) =>
      finish content >>= fun value => some (wrap value, rest) := by
  apply Consumes.constructed hder tag
  intro content behind value rest hread
  obtain ⟨_, -, hpair⟩ := Option.bind_eq_some_iff.mp hread
  cases hpair
  exact List.suffix_append _ _

theorem consumes_derDecodeArray (decodePlist : Reader Plist) :
    Consumes (derDecodeArray der decodePlist) :=
  consumes_content hder ccderConstructedSequence
    (fun payload => decodeMembers decodePlist (fun array element => array ++ [element])
      payload.length [] payload) Plist.array

theorem consumes_derDecodeSet (decodePlist : Reader Plist) :
    Consumes (derDecodeSet der decodePlist) :=
  consumes_content hder ccderConstructedCfset
    (fun payload => decodeMembers decodePlist cfSetAddValue payload.length [] payload) Plist.set

theorem consumes_derDecodeDictionary (decodePlist : Reader Plist) :
    Consumes (derDecodeDictionary der decodePlist) :=
  consumes_content hder ccderConstructedSet
    (fun payload => decodeMembers (derDecodeKeyValue der decodePlist) cfDictionaryAddValue
      payload.length [] payload) Plist.dictionary

theorem consumes_decodeTagged (decodePlist : Reader Plist) (tag : Tag) :
    Consumes (decodeTagged der dates decodePlist tag) := by
  unfold decodeTagged
  refine .ite (consumes_derDecodeNull hder) <| .ite (consumes_derDecodeBoolean hder) <|
    .ite (consumes_derDecodeData hder) <|
    .ite (consumes_derDecodeCoreEntitlementsData hder) <|
    .ite ((consumes_content hder ccderGeneralizedTime _ _).map _) <|
    .ite ((consumes_content hder ccderUtcTime _ _).map _) <|
    .ite (consumes_derDecodeArray hder _) <|
    .ite ((consumes_derDecodeStringTagged hder _).map _) <|
    .ite ((consumes_derDecodeStringTagged hder _).map _) <|
    .ite ((consumes_derDecodeNumber hder).map _) <|
    .ite (consumes_derDecodeDictionary hder _) <|
    .ite (consumes_derDecodeSet hder _) ?_
  intro octets value rest hread
  cases hread

theorem consumes_decodePlistNested (depth : Nat) :
    Consumes (decodePlistNested der dates depth) := by
  intro octets value rest hread
  cases depth with
  | zero => cases hread
  | succ depth =>
    obtain ⟨⟨tag, _⟩, -, htagged⟩ := Option.bind_eq_some_iff.mp hread
    exact consumes_decodeTagged hder dates _ tag octets value rest htagged

theorem consumes_derDecodePlist : Consumes (derDecodePlist der dates) := by
  intro octets value rest hread
  exact consumes_decodePlistNested hder dates _ octets value rest hread

theorem consumes_derDecodeKeyValue {decodePlist : Reader Plist} (hread : Consumes decodePlist) :
    Consumes (derDecodeKeyValue der decodePlist) := by
  apply Consumes.constructed hder ccderConstructedSequence
  intro content behind pair rest hpair
  obtain ⟨⟨key, payload⟩, hkey, hmore⟩ := Option.bind_eq_some_iff.mp hpair
  obtain ⟨⟨value, payload'⟩, hvalue, hsome⟩ := Option.bind_eq_some_iff.mp hmore
  cases hsome
  obtain ⟨head, -, rfl⟩ := hread _ _ _ hkey
  obtain ⟨head', -, rfl⟩ := hread _ _ _ hvalue
  exact ⟨head ++ head', by simp⟩
end Consuming

section Watching
include hder

theorem lengthFits_eq (octets : List UInt8) : lengthFits der octets = true := by
  rw [lengthFits]
  split
  case h_1 len content hread =>
    obtain ⟨_, -, hlen⟩ := Option.bind_eq_some_iff.mp hread
    exact decide_eq_true (hder.decodeLen_reads _ _ _ hlen).1
  case h_2 => rfl

theorem inside_eq {α : Type} {walk : Walker α} {read : Reader α} (hread : Consumes read)
    {octets : List UInt8} (hwalk : walk octets = orRefused (read octets)) :
    inside der walk octets = orRefused (read octets) := by
  rw [inside, hwalk]
  cases hsome : read octets with
  | none => rfl
  | some found =>
    have hinside : lengthFits der octets ∧ found.2 <:+ octets ∧
        found.2.length < octets.length :=
      ⟨lengthFits_eq hder octets, hread.suffix hsome⟩
    exact if_pos hinside

omit hder in
/-- Every member takes an octet, so there are octets enough for the members. -/
theorem walkMembers_eq {α : Type} {walkMember : Walker α} {readMember : Reader α}
    (hread : Consumes readMember) (addValue : List α → α → List α) {bound : Nat}
    (hwalk : ∀ octets, octets.length ≤ bound →
      walkMember octets = orRefused (readMember octets)) (fuel : Nat) (members : List α)
    (octets : List UInt8) (hbound : octets.length ≤ bound) (hfuel : octets.length ≤ fuel) :
    walkMembers walkMember addValue fuel members octets =
      orRefused (decodeMembers readMember addValue fuel members octets) := by
  induction fuel generalizing members octets with
  | zero =>
    cases octets with
    | nil => rfl
    | cons octet octets => simp at hfuel
  | succ fuel ih =>
    cases octets with
    | nil => rfl
    | cons octet octets =>
      rw [walkMembers, decodeMembers, hwalk _ hbound]
      cases hsome : readMember (octet :: octets) with
      | none => rfl
      | some found =>
        have hshorter := (hread.suffix hsome).2
        exact ih _ found.2 (by omega) (by omega)

theorem walkContainer_eq {α : Type} (tag : Tag) {walkMember : Walker α} {readMember : Reader α}
    (hread : Consumes readMember) (addValue : List α → α → List α) (wrap : List α → Plist)
    {octets : List UInt8}
    (hwalk : ∀ content, content.length < octets.length →
      walkMember content = orRefused (readMember content)) :
    walkContainer der tag walkMember addValue wrap octets =
      orRefused (decodeConstructedTl der tag octets >>= fun (payload, rest) =>
        decodeMembers readMember addValue payload.length [] payload >>= fun members =>
          some (wrap members, rest)) := by
  rw [walkContainer]
  cases hcontent : decodeConstructedTl der tag octets with
  | none => rfl
  | some found =>
    obtain ⟨head, hhead, hsplit⟩ := decodeConstructedTl_reads hder hcontent
    have hpos := List.length_pos_iff.mpr hhead
    have hshorter : found.1.length < octets.length := by
      rw [hsplit, List.length_append, List.length_append]
      omega
    have hmembers := walkMembers_eq hread addValue
      (fun content hle => hwalk content (Nat.lt_of_le_of_lt hle hshorter)) found.1.length []
      found.1 le_rfl le_rfl
    change (walkMembers walkMember addValue found.1.length [] found.1 >>= fun members =>
      .ok (wrap members, found.2)) = _
    rw [hmembers]
    change _ = orRefused (decodeMembers readMember addValue found.1.length [] found.1 >>=
      fun members => some (wrap members, found.2))
    cases decodeMembers readMember addValue found.1.length [] found.1 <;> rfl

theorem walkKeyValue_eq {walkPlist : Walker Plist} {decodePlist : Reader Plist}
    (hread : Consumes decodePlist) {octets : List UInt8}
    (hwalk : ∀ content, content.length < octets.length →
      walkPlist content = orRefused (decodePlist content)) :
    walkKeyValue der walkPlist octets = orRefused (derDecodeKeyValue der decodePlist octets) := by
  rw [walkKeyValue, derDecodeKeyValue]
  cases hcontent : decodeConstructedTl der ccderConstructedSequence octets with
  | none => rfl
  | some found =>
    obtain ⟨head, hhead, hsplit⟩ := decodeConstructedTl_reads hder hcontent
    have hpos := List.length_pos_iff.mpr hhead
    have hshorter : found.1.length < octets.length := by
      rw [hsplit, List.length_append, List.length_append]
      omega
    change (walkPlist found.1 >>= fun (key, payload) => walkPlist payload >>=
      fun (value, payload) => .ok ((key, value), payload ++ found.2)) = orRefused
      (decodePlist found.1 >>= fun (key, payload) => decodePlist payload >>=
        fun (value, payload) => some ((key, value), payload ++ found.2))
    rw [hwalk _ hshorter]
    cases hkey : decodePlist found.1 with
    | none => rfl
    | some key =>
      have hless := (hread.suffix hkey).2
      change (walkPlist key.2 >>= fun (value, payload) =>
        .ok ((key.1, value), payload ++ found.2)) = orRefused
        (decodePlist key.2 >>= fun (value, payload) =>
          some ((key.1, value), payload ++ found.2))
      rw [hwalk _ (by omega)]
      cases decodePlist key.2 <;> rfl

theorem walkTagged_eq {walkPlist : Walker Plist} {decodePlist : Reader Plist}
    (hread : Consumes decodePlist) (tag : Tag) {octets : List UInt8}
    (hwalk : ∀ content, content.length < octets.length →
      walkPlist content = orRefused (decodePlist content)) :
    walkTagged der dates walkPlist tag octets =
      orRefused (decodeTagged der dates decodePlist tag octets) := by
  rw [walkTagged]
  split
  case isTrue harray =>
    subst harray
    exact walkContainer_eq hder _ hread _ _ hwalk
  case isFalse harray =>
    split
    case isTrue hdictionary =>
      subst hdictionary
      refine walkContainer_eq hder _ (consumes_derDecodeKeyValue hder hread) _ _ ?_
      intro content hcontent
      apply inside_eq hder (consumes_derDecodeKeyValue hder hread)
      exact walkKeyValue_eq hder hread fun inner hinner => hwalk inner (hinner.trans hcontent)
    case isFalse hdictionary =>
      split
      case isTrue hset =>
        subst hset
        exact walkContainer_eq hder _ hread _ _ hwalk
      case isFalse hset =>
        simp only [decodeTagged, if_neg harray, if_neg hdictionary, if_neg hset]

/-- With more depth than octets, a walk that watches every nested read finds what the decoder
finds, and neither runs out of fuel nor comes to a read that takes nothing or leaves its
container. -/
theorem walkPlistNested_eq (depth depth' : Nat) (octets : List UInt8)
    (hdepth : octets.length < depth) (hdepth' : octets.length < depth') :
    inside der (walkPlistNested der dates depth) octets =
      orRefused (decodePlistNested der dates depth' octets) := by
  induction depth generalizing depth' octets with
  | zero => omega
  | succ depth ih =>
    cases depth' with
    | zero => omega
    | succ depth' =>
      apply inside_eq hder (consumes_decodePlistNested hder dates _)
      rw [walkPlistNested, decodePlistNested]
      cases der.decodeTag octets with
      | none => rfl
      | some found =>
        refine walkTagged_eq hder dates (consumes_decodePlistNested hder dates depth') found.1 ?_
        intro content hcontent
        exact ih depth' content (by omega) (by omega)

/-- Reading a property list comes to an end. -/
theorem derDecodePlist_terminates (octets : List UInt8) :
    (∀ depth, octets.length < depth → inside der (walkPlistNested der dates depth) octets =
      orRefused (derDecodePlist der dates octets)) ∧
      ∀ pl rest, derDecodePlist der dates octets = some (pl, rest) →
        rest <:+ octets ∧ rest.length < octets.length := by
  constructor
  · intro depth hdepth
    exact walkPlistNested_eq hder dates depth _ octets hdepth (by omega)
  · intro pl rest hsome
    exact (consumes_derDecodePlist hder dates).suffix hsome
end Watching

theorem derDecodePlist_terminates_sample :
    inside Standard.primitives (walkPlistNested Standard.primitives firstMonth 8)
        [0x30, 0x05, 0x30, 0x07, 0x05, 0x00, 0x05] =
      orRefused (derDecodePlist Standard.primitives firstMonth
        [0x30, 0x05, 0x30, 0x07, 0x05, 0x00, 0x05]) :=
  (derDecodePlist_terminates Standard.primitives_correct firstMonth _).1 8 (by decide)

section Dictionary

variable {dates}

theorem derDecodeKeyValue_eq_some_iff {octets after : List UInt8} {entry : Plist × Plist} :
    derDecodeKeyValue der (derDecodePlist der dates) octets = some (entry, after) ↔
      ∃ content rest trailing,
        decodeConstructedTl der ccderConstructedSequence octets = some (content, rest) ∧
        IsPair der dates (ccderConstructedSequence, content) entry trailing ∧
        after = trailing ++ rest := by
  simp only [derDecodeKeyValue, IsPair, Option.bind_eq_bind, Option.bind_eq_some_iff,
    Option.some.injEq, Prod.mk.injEq, Prod.exists, true_and]
  constructor
  · rintro ⟨content, rest, hcontent, key, valueOctets, hkey, value, trailing, hvalue, rfl, rfl⟩
    exact ⟨content, rest, trailing, hcontent, ⟨valueOctets, hkey, hvalue⟩, rfl⟩
  · rintro ⟨content, rest, trailing, hcontent, ⟨valueOctets, hkey, hvalue⟩, rfl⟩
    exact ⟨content, rest, hcontent, entry.1, valueOctets, hkey, entry.2, trailing, hvalue, rfl,
      rfl⟩

theorem IsPair.unique {element : Tag × List UInt8} {entry entry' : Plist × Plist}
    {trailing trailing' : List UInt8} (hpair : IsPair der dates element entry trailing)
    (hpair' : IsPair der dates element entry' trailing') : trailing = trailing' := by
  obtain ⟨-, valueOctets, hkey, hvalue⟩ := hpair
  obtain ⟨-, valueOctets', hkey', hvalue'⟩ := hpair'
  rw [hkey, Option.some.injEq, Prod.mk.injEq] at hkey'
  rw [← hkey'.2, hvalue, Option.some.injEq, Prod.mk.injEq] at hvalue'
  exact hvalue'.2

theorem decodeMembers_eq_map {α : Type} (decodeMember : Reader α)
    (addValue : List α → α → List α) (start : List α) (fuel : Nat) (members : List α)
    (octets : List UInt8) :
    decodeMembers decodeMember addValue fuel (members.foldl addValue start) octets =
      (decodeMembers decodeMember (fun entries entry => entries ++ [entry]) fuel members
        octets).map fun entries => entries.foldl addValue start := by
  induction fuel generalizing members octets with
  | zero => cases octets <;> rfl
  | succ fuel ih =>
    cases octets with
    | nil => rfl
    | cons octet octets =>
      rw [decodeMembers, decodeMembers]
      cases decodeMember (octet :: octets) with
      | none => rfl
      | some found =>
        have hrest := ih (members ++ [found.1]) found.2
        rw [List.foldl_append] at hrest
        exact hrest

theorem derDecodeDictionary_eq_some_iff {octets rest : List UInt8} {dict : Plist} :
    derDecodeDictionary der (derDecodePlist der dates) octets = some (dict, rest) ↔
      ∃ payload insertions,
        decodeConstructedTl der ccderConstructedSet octets = some (payload, rest) ∧
        dictionaryInsertions der dates payload = some insertions ∧
        dict = .dictionary (insertions.foldl cfDictionaryAddValue []) := by
  have hmembers : ∀ payload : List UInt8,
      decodeMembers (derDecodeKeyValue der (derDecodePlist der dates)) cfDictionaryAddValue
        payload.length [] payload =
      (dictionaryInsertions der dates payload).map fun entries =>
        entries.foldl cfDictionaryAddValue [] :=
    fun payload => decodeMembers_eq_map _ cfDictionaryAddValue [] payload.length [] payload
  simp only [derDecodeDictionary, hmembers, Option.bind_eq_bind, Option.bind_eq_some_iff,
    Option.map_eq_some_iff, Option.some.injEq, Prod.mk.injEq, Prod.exists]
  constructor
  · rintro ⟨payload, behind, hpayload, _, ⟨insertions, hinsertions, rfl⟩, rfl, rfl⟩
    exact ⟨payload, insertions, hpayload, hinsertions, rfl⟩
  · rintro ⟨payload, insertions, hpayload, hinsertions, rfl⟩
    exact ⟨payload, rest, hpayload, _, ⟨insertions, hinsertions, rfl⟩, rfl, rfl⟩

section
include hder

theorem decodeConstructedTl_ne_nil {tag : Tag} {octets : List UInt8}
    {found : List UInt8 × List UInt8} (hread : decodeConstructedTl der tag octets = some found) :
    octets ≠ [] := by
  obtain ⟨head, hhead, rfl⟩ := decodeConstructedTl_reads hder hread
  simp [hhead]

theorem decodeMembers_eq_some_iff (fuel : Nat) (members all : List (Plist × Plist))
    (octets : List UInt8) (hfuel : octets.length ≤ fuel) :
    decodeMembers (derDecodeKeyValue der (derDecodePlist der dates))
        (fun entries entry => entries ++ [entry]) fuel members octets = some all ↔
      ∃ entries, LoosePairs der dates octets entries ∧ all = members ++ entries := by
  induction fuel generalizing members octets with
  | zero =>
    cases List.length_eq_zero_iff.mp (Nat.le_zero.mp hfuel)
    constructor
    · intro hall
      cases hall
      exact ⟨[], .nil, (List.append_nil _).symm⟩
    · rintro ⟨entries, hloose, rfl⟩
      cases hloose with
      | nil => simp [decodeMembers]
      | cons hcontent => exact absurd rfl (decodeConstructedTl_ne_nil hder hcontent)
  | succ fuel ih =>
    have hconsumes := consumes_derDecodeKeyValue hder (consumes_derDecodePlist hder dates)
    cases octets with
    | nil =>
      constructor
      · intro hall
        cases hall
        exact ⟨[], .nil, (List.append_nil _).symm⟩
      · rintro ⟨entries, hloose, rfl⟩
        cases hloose with
        | nil => simp [decodeMembers]
        | cons hcontent => exact absurd rfl (decodeConstructedTl_ne_nil hder hcontent)
    | cons octet octets =>
      rw [decodeMembers]
      constructor
      · intro hall
        obtain ⟨⟨entry, after⟩, hentry, hmore⟩ := Option.bind_eq_some_iff.mp hall
        have hshorter := (hconsumes.suffix hentry).2
        obtain ⟨entries, hentries, rfl⟩ := (ih _ after (by omega)).mp hmore
        obtain ⟨content, rest, trailing, hcontent, hpair, rfl⟩ :=
          derDecodeKeyValue_eq_some_iff.mp hentry
        exact ⟨entry :: entries, .cons hcontent hpair hentries, List.append_cons _ _ _ |>.symm⟩
      · rintro ⟨entries, hloose, rfl⟩
        cases hloose with
        | cons hcontent hpair hentries =>
          have hentry := derDecodeKeyValue_eq_some_iff.mpr ⟨_, _, _, hcontent, hpair, rfl⟩
          have hshorter := (hconsumes.suffix hentry).2
          refine Option.bind_eq_some_iff.mpr ⟨_, hentry, (ih _ _ (by omega)).mpr ?_⟩
          exact ⟨_, hentries, List.append_cons _ _ _⟩

theorem dictionaryInsertions_eq_some_iff {payload : List UInt8}
    {insertions : List (Plist × Plist)} :
    dictionaryInsertions der dates payload = some insertions ↔
      LoosePairs der dates payload insertions := by
  rw [dictionaryInsertions, decodeMembers_eq_some_iff hder _ _ _ _ le_rfl]
  simp

omit hder in
/-- Pair upon pair is exact, or goes on inside of a pair somewhere. -/
theorem LoosePairs.exact_or_trailing {octets : List UInt8} {entries : List (Plist × Plist)}
    (hloose : LoosePairs der dates octets entries) :
    TrailingPair der dates octets ∨
      ∃ elements, SetElements der octets elements ∧
        (∀ element ∈ elements, ∃ entry, IsPair der dates element entry []) ∧
        entries.length = elements.length := by
  induction hloose with
  | nil => exact .inr ⟨[], .nil, by simp, rfl⟩
  | @cons octets content rest trailing entry entries hcontent hpair hentries ih =>
    cases trailing with
    | cons octet trailing => exact .inl (.here hcontent hpair (by simp) hentries)
    | nil =>
      obtain htrailing | ⟨elements, helements, hpairs, hlength⟩ := ih
      · exact .inl (.later hcontent hpair htrailing)
      · refine .inr ⟨_, .cons hcontent helements, ?_, by simp [hlength]⟩
        rw [List.forall_mem_cons]
        exact ⟨⟨entry, hpair⟩, hpairs⟩

omit hder in
theorem TrailingPair.loosePairs {octets : List UInt8} (htrailing : TrailingPair der dates octets) :
    ∃ entries, LoosePairs der dates octets entries := by
  induction htrailing with
  | here hcontent hpair _ hentries => exact ⟨_, .cons hcontent hpair hentries⟩
  | later hcontent hpair _ ih =>
    obtain ⟨entries, hentries⟩ := ih
    exact ⟨_, .cons hcontent hpair hentries⟩

theorem TrailingPair.not_exact {octets : List UInt8} (htrailing : TrailingPair der dates octets)
    {elements : List (Tag × List UInt8)} (helements : SetElements der octets elements) :
    ¬ ∀ element ∈ elements, ∃ entry, IsPair der dates element entry [] := by
  intro hpairs
  induction htrailing generalizing elements with
  | here hcontent hpair hsome _ =>
    cases helements with
    | nil => exact absurd rfl (decodeConstructedTl_ne_nil hder hcontent)
    | @cons _ _ _ tag _ hcontent' _ =>
      obtain ⟨entry, hpair'⟩ := hpairs _ List.mem_cons_self
      have htag : tag = ccderConstructedSequence := hpair'.1
      rw [htag, hcontent] at hcontent'
      cases hcontent'
      rw [htag] at hpair'
      exact hsome (hpair.unique hpair')
  | later hcontent _ _ ih =>
    cases helements with
    | nil => exact absurd rfl (decodeConstructedTl_ne_nil hder hcontent)
    | @cons _ _ _ tag _ hcontent' helements =>
      obtain ⟨⟨entry, hpair'⟩, hmore⟩ := List.forall_mem_cons.mp hpairs
      have htag : tag = ccderConstructedSequence := hpair'.1
      rw [htag, hcontent] at hcontent'
      cases hcontent'
      exact ih helements hmore

theorem TrailingPair.not_accepts {octets payload rest : List UInt8}
    (hpayload : decodeConstructedTl der ccderConstructedSet octets = some (payload, rest))
    (htrailing : TrailingPair der dates payload) : ¬ AcceptsExactPairs der dates octets := by
  intro haccepts
  obtain ⟨entries, hentries⟩ := htrailing.loosePairs
  have hinsertions := (dictionaryInsertions_eq_some_iff hder).mpr hentries
  obtain ⟨payload', elements, _, hpayload', helements, hpairs, -⟩ := haccepts _ _
    (derDecodeDictionary_eq_some_iff.mpr ⟨payload, entries, hpayload, hinsertions, rfl⟩)
  rw [hpayload] at hpayload'
  cases hpayload'
  exact htrailing.not_exact hder helements hpairs
end

/-- A dictionary is read from exact pairs alone, unless octets behind the value of a pair are the
beginning of more pairs. -/
theorem acceptsExactPairs_iff {der : Primitives} (hder : der.Correct) (dates : DateSystem)
    (octets : List UInt8) :
    AcceptsExactPairs der dates octets ↔
      ∀ payload rest, decodeConstructedTl der ccderConstructedSet octets = some (payload, rest) →
        ¬ TrailingPair der dates payload := by
  constructor
  · intro haccepts payload rest hpayload htrailing
    exact htrailing.not_accepts hder hpayload haccepts
  · intro hclean dict rest hdict
    obtain ⟨payload, insertions, hpayload, hinsertions, rfl⟩ :=
      derDecodeDictionary_eq_some_iff.mp hdict
    have hloose := (dictionaryInsertions_eq_some_iff hder).mp hinsertions
    obtain htrailing | ⟨elements, helements, hpairs, hlength⟩ := hloose.exact_or_trailing
    · exact absurd htrailing (hclean payload rest hpayload)
    · exact ⟨payload, elements, insertions, hpayload, helements, hpairs, hinsertions, hlength,
        rfl⟩

/-- One pair, of the number 1 and null. -/
theorem acceptsExactPairs_iff_sample :
    AcceptsExactPairs Standard.primitives firstMonth
      [0x31, 0x07, 0x30, 0x05, 0x02, 0x01, 0x01, 0x05, 0x00] := by
  refine (acceptsExactPairs_iff Standard.primitives_correct firstMonth _).mpr ?_
  intro payload rest hpayload htrailing
  cases hpayload
  have helements : SetElements Standard.primitives
      [0x30, 0x05, 0x02, 0x01, 0x01, 0x05, 0x00]
      [(ccderConstructedSequence, [0x02, 0x01, 0x01, 0x05, 0x00])] := .cons rfl .nil
  refine htrailing.not_exact Standard.primitives_correct helements ?_
  rw [List.forall_mem_singleton]
  exact ⟨(.number 1, .null), rfl, [0x05, 0x00], rfl, rfl⟩

/-- The SET has one element, which holds a second pair behind its value: two values are put into
the dictionary. -/
theorem acceptsExactPairs_false :
    dictionaryInsertions Standard.primitives firstMonth
        [0x30, 0x0C, 0x02, 0x01, 0x01, 0x05, 0x00, 0x30, 0x05, 0x02, 0x01, 0x02, 0x05, 0x00] =
      some [(.number 1, .null), (.number 2, .null)] ∧
    ¬ AcceptsExactPairs Standard.primitives firstMonth
      [0x31, 0x0E, 0x30, 0x0C, 0x02, 0x01, 0x01, 0x05, 0x00, 0x30, 0x05, 0x02, 0x01, 0x02, 0x05,
        0x00] := by
  let inner : List UInt8 := [0x30, 0x05, 0x02, 0x01, 0x02, 0x05, 0x00]
  let content : List UInt8 := [0x02, 0x01, 0x01, 0x05, 0x00] ++ inner
  have hinner : decodeConstructedTl Standard.primitives ccderConstructedSequence inner =
      some ([0x02, 0x01, 0x02, 0x05, 0x00], []) := rfl
  have hinnerPair : IsPair Standard.primitives firstMonth
      (ccderConstructedSequence, [0x02, 0x01, 0x02, 0x05, 0x00]) (.number 2, .null) [] :=
    ⟨rfl, [0x05, 0x00], rfl, rfl⟩
  have houter : decodeConstructedTl Standard.primitives ccderConstructedSequence
      ([0x30, 0x0C] ++ content) = some (content, []) := rfl
  have houterPair : IsPair Standard.primitives firstMonth (ccderConstructedSequence, content)
      (.number 1, .null) inner :=
    ⟨rfl, [0x05, 0x00] ++ inner, rfl, rfl⟩
  have htrailing : TrailingPair Standard.primitives firstMonth ([0x30, 0x0C] ++ content) :=
    .here houter houterPair (by simp [inner]) (.cons hinner hinnerPair .nil)
  exact ⟨rfl, htrailing.not_accepts Standard.primitives_correct rfl⟩
end Dictionary
end SecurityFramework
