import SecurityFramework.CdsaUtilities.OidText

/-! # Object identifiers that come back -/

namespace SecurityFramework
open CText

namespace CssmData
variable {data : List UInt8}

/-- Behind every octet that is not the last one of a number there is another one. -/
def Closed (data : List UInt8) : Prop :=
  ∀ pos byte, data[pos]? = some byte → 128 ≤ byte.toNat → (pos + 1) % 2 ^ 32 < data.length

variable {pos fuel : Nat} {front : List UInt8}

theorem getOidLoop_within (hclosed : Closed data) (hpos : pos < data.length) (fuel q : Nat) :
    getOidLoop data fuel pos q ≠ .error .outside := by
  induction fuel generalizing pos q with
  | zero => simp [getOidLoop]
  | succ fuel ih =>
    have hbyte : data[pos]? = some data[pos] := List.getElem?_eq_getElem hpos
    by_cases hmore : 128 ≤ data[pos].toNat
    · rw [getOidLoop_more hbyte hmore]
      exact ih (hclosed pos _ hbyte hmore) _
    · rw [getOidLoop_end hbyte (Nat.not_le.mp hmore)]
      simp

theorem toOidRest_within (hclosed : Closed data) (fuel pos : Nat) (s : List Char) :
    toOidRest data fuel pos s ≠ .error .outside := by
  induction fuel generalizing pos s with
  | zero => simp [toOidRest]
  | succ fuel ih =>
    rw [toOidRest]
    split
    next hpos =>
      have hget := getOidLoop_within hclosed hpos fuel 0
      cases hres : getOid data fuel pos with
      | error stop =>
        intro hout
        have hstop : stop = .outside := Except.error.inj hout
        rw [hstop] at hres
        exact hget hres
      | ok res => exact ih res.2 _
    next => simp

theorem toOid_within (hclosed : Closed data) (fuel : Nat) : toOid fuel data ≠ .error .outside := by
  rw [toOid]
  split
  next => simp
  next hne =>
    have hget := getOidLoop_within hclosed (Nat.pos_of_ne_zero hne) fuel 0
    cases hres : getOid data fuel 0 with
    | error stop =>
      intro hout
      have hstop : stop = .outside := Except.error.inj hout
      rw [hstop] at hres
      exact hget hres
    | ok res => exact toOidRest_within hclosed fuel res.2 _

theorem closed_of_long (hlong : 2 ^ 32 ≤ data.length) : Closed data := by
  intro pos byte hbyte hmore
  exact Nat.lt_of_lt_of_le (Nat.mod_lt _ (by decide)) hlong

theorem closed_of_last {last : UInt8} (hlast : last.toNat < 128) :
    Closed (front ++ [last]) := by
  intro pos byte hbyte hmore
  have hpos : pos < (front ++ [last]).length := (List.getElem?_eq_some_iff.mp hbyte).1
  rw [List.length_append, List.length_singleton] at hpos ⊢
  have hne : pos ≠ front.length := by
    intro heq
    rw [heq, List.getElem?_concat_length, Option.some.injEq] at hbyte
    rw [← hbyte] at hmore
    omega
  have hle := Nat.mod_le (pos + 1) (2 ^ 32)
  omega

/-- A number at the end that is not ended is read past the end, whatever number it was read from. -/
theorem getOidLoop_open {last : UInt8} (hlast : 128 ≤ last.toNat)
    (hshort : (front ++ [last]).length < 2 ^ 32) (hpos : pos ≤ front.length)
    (hfuel : front.length + 2 ≤ fuel + pos) (q : Nat) :
    getOidLoop (front ++ [last]) fuel pos q = .error .outside ∨
      ∃ q' next, getOidLoop (front ++ [last]) fuel pos q = .ok (q', next) ∧ pos < next ∧
        next ≤ front.length := by
  rw [List.length_append, List.length_singleton] at hshort
  induction fuel generalizing pos q with
  | zero => omega
  | succ fuel ih =>
    have hinside : pos < (front ++ [last]).length := by
      rw [List.length_append, List.length_singleton]
      omega
    have hbyte : (front ++ [last])[pos]? = some (front ++ [last])[pos] :=
      List.getElem?_eq_getElem hinside
    have hnext : (pos + 1) % 2 ^ 32 = pos + 1 := Nat.mod_eq_of_lt (by omega)
    by_cases hmore : 128 ≤ (front ++ [last])[pos].toNat
    · rw [getOidLoop_more hbyte hmore, hnext]
      by_cases hend : pos = front.length
      · obtain ⟨fuel, rfl⟩ : ∃ less, fuel = less + 1 := ⟨fuel - 1, by omega⟩
        refine Or.inl (getOidLoop_outside ?_ fuel _)
        apply List.getElem?_eq_none
        rw [List.length_append, List.length_singleton]
        omega
      · have hpos' : pos + 1 ≤ front.length := by omega
        rcases ih hpos' (by omega) _ with hout | ⟨q', next, hok, hlt, hle⟩
        · exact Or.inl hout
        · exact Or.inr ⟨q', next, hok, by omega, hle⟩
    · rw [getOidLoop_end hbyte (Nat.not_le.mp hmore), hnext]
      have hne : pos ≠ front.length := by
        intro heq
        have hsame : (front ++ [last])[pos] = last := by
          simp [heq]
        rw [hsame] at hmore
        exact hmore hlast
      exact Or.inr ⟨_, pos + 1, rfl, by omega, by omega⟩

theorem toOidRest_open {last : UInt8} (hlast : 128 ≤ last.toNat)
    (hshort : (front ++ [last]).length < 2 ^ 32) (hpos : pos ≤ front.length)
    (hfuel : front.length + 3 ≤ fuel + pos) (s : List Char) :
    toOidRest (front ++ [last]) fuel pos s = .error .outside := by
  induction fuel generalizing pos s with
  | zero => omega
  | succ fuel ih =>
    have hinside : pos < (front ++ [last]).length := by
      rw [List.length_append, List.length_singleton]
      omega
    rw [toOidRest, if_pos hinside]
    by_cases hend : front.length + 2 ≤ fuel + pos
    · rcases getOidLoop_open hlast hshort hpos hend 0 with hout | ⟨q', next, hok, hlt, hle⟩
      · rw [getOid, hout]
        rfl
      · rw [getOid, hok]
        exact ih hle (by omega) _
    · omega

theorem toOid_open {last : UInt8} (hlast : 128 ≤ last.toNat)
    (hshort : (front ++ [last]).length < 2 ^ 32) :
    toOid (front.length + 3) (front ++ [last]) = .error .outside := by
  have hne : (front ++ [last]).length ≠ 0 := by simp
  rw [toOid, if_neg hne]
  rcases getOidLoop_open hlast hshort (Nat.zero_le _) (Nat.le_succ _) 0 with
    hout | ⟨q', next, hok, hlt, hle⟩
  · rw [getOid, hout]
    rfl
  · rw [getOid, hok]
    exact toOidRest_open hlast hshort hle (by omega) _

/-- The octets are read within the data: there are none, the last one ends a number, or there are
so many that the position wraps around before the end. -/
theorem toOid_within_iff (data : List UInt8) :
    (∀ fuel, toOid fuel data ≠ .error .outside) ↔
      (∀ last ∈ data.getLast?, last.toNat < 128) ∨ 2 ^ 32 ≤ data.length := by
  rcases List.eq_nil_or_concat' data with rfl | ⟨front, last, rfl⟩
  · simp [toOid]
  · rw [List.getLast?_concat]
    constructor
    · intro hwithin
      by_cases hshort : (front ++ [last]).length < 2 ^ 32
      · refine Or.inl fun octet hoctet => ?_
        cases hoctet
        by_contra hlast
        exact hwithin _ (toOid_open (Nat.not_lt.mp hlast) hshort)
      · exact Or.inr (Nat.not_lt.mp hshort)
    · rintro (hlast | hlong)
      · exact toOid_within (closed_of_last (hlast last rfl))
      · exact toOid_within (closed_of_long hlong)

theorem getOidLoop_mono {more q : Nat} (hle : fuel ≤ more) {res : Nat × Nat}
    (hok : getOidLoop data fuel pos q = .ok res) : getOidLoop data more pos q = .ok res := by
  induction fuel generalizing more pos q with
  | zero => cases hok
  | succ fuel ih =>
    obtain ⟨more, rfl⟩ : ∃ less, more = less + 1 := ⟨more - 1, by omega⟩
    cases hbyte : data[pos]? with
    | none =>
      rw [getOidLoop_outside hbyte] at hok
      cases hok
    | some byte =>
      by_cases hmore : 128 ≤ byte.toNat
      · rw [getOidLoop_more hbyte hmore] at hok ⊢
        exact ih (Nat.le_of_succ_le_succ hle) hok
      · rw [getOidLoop_end hbyte (Nat.not_le.mp hmore)] at hok ⊢
        exact hok

theorem toOidRest_mono {more : Nat} (hle : fuel ≤ more) {s t : List Char}
    (hok : toOidRest data fuel pos s = .ok t) : toOidRest data more pos s = .ok t := by
  induction fuel generalizing more pos s with
  | zero => cases hok
  | succ fuel ih =>
    obtain ⟨more, rfl⟩ : ∃ less, more = less + 1 := ⟨more - 1, by omega⟩
    have hless := Nat.le_of_succ_le_succ hle
    rw [toOidRest] at hok ⊢
    split
    next hpos =>
      rw [if_pos hpos] at hok
      cases hres : getOid data fuel pos with
      | error stop =>
        rw [hres] at hok
        cases hok
      | ok res =>
        rw [hres] at hok
        have hmore : getOid data more pos = .ok res := getOidLoop_mono hless hres
        rw [hmore]
        exact ih hless hok
    next hpos =>
      rw [if_neg hpos] at hok
      exact hok

theorem toOid_mono {more : Nat} (hle : fuel ≤ more) {t : List Char}
    (hok : toOid fuel data = .ok t) : toOid more data = .ok t := by
  rw [toOid] at hok ⊢
  split
  next hnil =>
    rw [if_pos hnil] at hok
    exact hok
  next hne =>
    rw [if_neg hne] at hok
    cases hres : getOid data fuel 0 with
    | error stop =>
      rw [hres] at hok
      cases hok
    | ok res =>
      rw [hres] at hok
      have hmore : getOid data more 0 = .ok res := getOidLoop_mono hle hres
      rw [hmore]
      exact toOidRest_mono hle hok

theorem getOidLoop_next_lt {q : Nat} {res : Nat × Nat}
    (hok : getOidLoop data fuel pos q = .ok res) : res.2 < 2 ^ 32 := by
  induction fuel generalizing pos q with
  | zero => cases hok
  | succ fuel ih =>
    cases hbyte : data[pos]? with
    | none =>
      rw [getOidLoop_outside hbyte] at hok
      cases hok
    | some byte =>
      by_cases hmore : 128 ≤ byte.toNat
      · rw [getOidLoop_more hbyte hmore] at hok
        exact ih hok
      · rw [getOidLoop_end hbyte (Nat.not_le.mp hmore)] at hok
        cases hok
        exact Nat.mod_lt _ (by decide)

theorem toOidRest_long (hlong : 2 ^ 32 ≤ data.length) (hpos : pos < 2 ^ 32) (s t : List Char) :
    toOidRest data fuel pos s ≠ .ok t := by
  induction fuel generalizing pos s with
  | zero => simp [toOidRest]
  | succ fuel ih =>
    rw [toOidRest, if_pos (Nat.lt_of_lt_of_le hpos hlong)]
    cases hres : getOid data fuel pos with
    | error stop => exact fun hok => nomatch hok
    | ok res => exact ih (getOidLoop_next_lt hres) _

theorem short_of_toOid {t : List Char} (hok : toOid fuel data = .ok t) :
    data.length < 2 ^ 32 := by
  by_contra hshort
  have hlong := Nat.not_lt.mp hshort
  have hne : data.length ≠ 0 := by omega
  rw [toOid, if_neg hne] at hok
  cases hres : getOid data fuel 0 with
  | error stop =>
    rw [hres] at hok
    cases hok
  | ok res =>
    rw [hres] at hok
    exact toOidRest_long hlong (getOidLoop_next_lt hres) _ t hok

theorem dottedArcs_head (arcs : List Nat) :
    ∀ c ∈ (Oid.dottedArcs arcs).head?, c.isDigit = false := by
  intro c hc
  cases arcs with
  | nil => cases hc
  | cons arc arcs =>
    cases hc
    decide

theorem fromOidRest_dottedArcs {arcs : List Nat} (harcs : ∀ arc ∈ arcs, arc < 2 ^ 64) {turns : Nat}
    (hturns : arcs.length ≤ turns) :
    fromOidRest turns (Oid.dottedArcs arcs) = arcs.flatMap putOid := by
  induction arcs generalizing turns with
  | nil => cases turns <;> rfl
  | cons arc arcs ih =>
    obtain ⟨turns, rfl⟩ : ∃ less, turns = less + 1 := ⟨turns - 1, by
      rw [List.length_cons] at hturns
      omega⟩
    have htext : Oid.dottedArcs (arc :: arcs) =
        '.' :: (Nat.toDigits 10 arc ++ Oid.dottedArcs arcs) := rfl
    have hrest := ih (fun a ha => harcs a (List.mem_cons_of_mem _ ha))
      (Nat.le_of_succ_le_succ hturns)
    rw [htext, fromOidRest, strtoul_decimal (harcs arc List.mem_cons_self) (dottedArcs_head arcs)]
    simp only [hrest, List.flatMap_cons]

theorem length_le_dottedArcs (arcs : List Nat) : arcs.length ≤ (Oid.dottedArcs arcs).length := by
  induction arcs with
  | nil => exact Nat.le_refl _
  | cons arc arcs ih =>
    have htext : Oid.dottedArcs (arc :: arcs) =
        '.' :: (Nat.toDigits 10 arc ++ Oid.dottedArcs arcs) := rfl
    rw [htext, List.length_cons, List.length_cons, List.length_append]
    omega

theorem fromOid_dotted (oid : Oid) :
    fromOid oid.dotted = putOid (oid.composite % 2 ^ 64) ++ oid.rest.flatMap putOid := by
  have hfirst : oid.first < 2 ^ 64 := Nat.lt_of_le_of_lt oid.first_le (by decide)
  have htext : Oid.dottedArcs (oid.second :: oid.rest) =
      '.' :: (Nat.toDigits 10 oid.second ++ Oid.dottedArcs oid.rest) := rfl
  rw [fromOid, Oid.dotted, strtoul_decimal hfirst (dottedArcs_head _), htext]
  simp only [strtoul_decimal oid.second_long (dottedArcs_head oid.rest),
    fromOidRest_dottedArcs oid.rest_long (length_le_dottedArcs oid.rest), Oid.composite]

/-- The text of some arcs, each cut to what its buffer takes. -/
def printedArcs (arcs : List Nat) : List Char :=
  arcs.flatMap fun arc => snprintf 20 ('.' :: Nat.toDigits 10 arc)

def printedHead (oid1 : Nat) : List Char :=
  snprintf 10 (Nat.toDigits 10 (min (oid1 / 40) 2) ++
    '.' :: Nat.toDigits 10 (oid1 - min (oid1 / 40) 2 * 40))

theorem toOidRest_putOid {arcs : List Nat} (harcs : ∀ arc ∈ arcs, arc < 2 ^ 64)
    {before : List UInt8} (hshort : (before ++ arcs.flatMap putOid).length < 2 ^ 32)
    (hfuel : (arcs.flatMap putOid).length < fuel) (s : List Char) :
    toOidRest (before ++ arcs.flatMap putOid) fuel before.length s = .ok (s ++ printedArcs arcs) := by
  induction arcs generalizing before fuel s with
  | nil =>
    obtain ⟨fuel, rfl⟩ : ∃ less, fuel = less + 1 := ⟨fuel - 1, by omega⟩
    simp [toOidRest, printedArcs]
  | cons arc arcs ih =>
    obtain ⟨fuel, rfl⟩ : ∃ less, fuel = less + 1 := ⟨fuel - 1, by omega⟩
    have harc := harcs arc List.mem_cons_self
    have hpos := putOid_ne_nil arc
    rw [List.flatMap_cons] at hshort hfuel ⊢
    have hinside : before.length < (before ++ (putOid arc ++ arcs.flatMap putOid)).length := by
      simp only [List.length_append]
      omega
    rw [List.length_append] at hfuel
    rw [toOidRest, if_pos hinside, getOid_putOid harc hshort (by omega)]
    rw [← List.append_assoc] at hshort ⊢
    have hless : (arcs.flatMap putOid).length < fuel := by omega
    have hrest := ih (fun a ha => harcs a (List.mem_cons_of_mem _ ha)) hshort hless
      (s ++ snprintf 20 ('.' :: Nat.toDigits 10 arc))
    rw [List.append_assoc s] at hrest
    exact hrest

theorem toOid_putOid {oid1 : Nat} (hoid1 : oid1 < 2 ^ 64) {arcs : List Nat}
    (harcs : ∀ arc ∈ arcs, arc < 2 ^ 64)
    (hshort : (putOid oid1 ++ arcs.flatMap putOid).length < 2 ^ 32) :
    toOid ((putOid oid1 ++ arcs.flatMap putOid).length + 1) (putOid oid1 ++ arcs.flatMap putOid) =
      .ok (printedHead oid1 ++ printedArcs arcs) := by
  have hpos := putOid_ne_nil oid1
  have hlen : (putOid oid1 ++ arcs.flatMap putOid).length =
      (putOid oid1).length + (arcs.flatMap putOid).length := List.length_append
  have hread : getOid ([] ++ (putOid oid1 ++ arcs.flatMap putOid))
      ((putOid oid1 ++ arcs.flatMap putOid).length + 1) ([] : List UInt8).length =
        .ok (oid1, ([] ++ putOid oid1).length) := getOid_putOid hoid1 hshort (by omega)
  rw [List.nil_append, List.nil_append, List.length_nil] at hread
  rw [toOid, if_neg (by omega), hread]
  exact toOidRest_putOid harcs hshort (by omega) _

theorem length_printedArcs_le (arcs : List Nat) :
    (printedArcs arcs).length ≤ (Oid.dottedArcs arcs).length := by
  induction arcs with
  | nil => exact Nat.le_refl _
  | cons arc arcs ih =>
    have hone := length_snprintf_le 20 ('.' :: Nat.toDigits 10 arc)
    have hprinted : printedArcs (arc :: arcs) =
        snprintf 20 ('.' :: Nat.toDigits 10 arc) ++ printedArcs arcs := rfl
    have hdotted : Oid.dottedArcs (arc :: arcs) =
        '.' :: Nat.toDigits 10 arc ++ Oid.dottedArcs arcs := rfl
    rw [hprinted, hdotted, List.length_append, List.length_append]
    exact Nat.add_le_add hone ih

theorem snprintf_eq_iff {size : Nat} (hsize : 0 < size) (text : List Char) :
    snprintf size text = text ↔ text.length < size := by
  rw [snprintf, List.take_eq_self_iff]
  omega

theorem length_decimal_lt_iff {n digits : Nat} (hdigits : 0 < digits) :
    (Nat.toDigits 10 n).length ≤ digits ↔ n < 10 ^ digits :=
  Nat.length_toDigits_le_iff (by decide) hdigits

theorem printedArcs_eq_iff (arcs : List Nat) :
    printedArcs arcs = Oid.dottedArcs arcs ↔ ∀ arc ∈ arcs, arc < 10 ^ 18 := by
  induction arcs with
  | nil => simp [printedArcs, Oid.dottedArcs]
  | cons arc arcs ih =>
    have hone := length_snprintf_le 20 ('.' :: Nat.toDigits 10 arc)
    have hrest := length_printedArcs_le arcs
    have hprinted : printedArcs (arc :: arcs) =
        snprintf 20 ('.' :: Nat.toDigits 10 arc) ++ printedArcs arcs := rfl
    have hdotted : Oid.dottedArcs (arc :: arcs) =
        '.' :: Nat.toDigits 10 arc ++ Oid.dottedArcs arcs := rfl
    have hfits : snprintf 20 ('.' :: Nat.toDigits 10 arc) = '.' :: Nat.toDigits 10 arc ↔
        arc < 10 ^ 18 := by
      rw [snprintf_eq_iff (by decide), ← length_decimal_lt_iff (by decide), List.length_cons]
      omega
    rw [hprinted, hdotted, List.forall_mem_cons, ← ih, ← hfits]
    constructor
    · intro heq
      -- neither part is longer than it should be, so both have their lengths
      have hlength := congrArg List.length heq
      rw [List.length_append, List.length_append] at hlength
      exact List.append_inj heq (by omega)
    · intro ⟨hhead, htail⟩
      rw [hhead, htail]

theorem length_digit_of_le_two {n : Nat} (hn : n ≤ 2) : (Nat.toDigits 10 n).length = 1 := by
  rw [Nat.toDigits_of_lt_base (by omega)]
  rfl

theorem printedHead_composite (oid : Oid) (hlt : oid.composite < 2 ^ 64) :
    printedHead (oid.composite % 2 ^ 64) =
      snprintf 10 (Nat.toDigits 10 oid.first ++ '.' :: Nat.toDigits 10 oid.second) := by
  have hfirst := oid.first_le
  have hsecond := oid.second_lt
  have hone : min (oid.composite / 40) 2 = oid.first := by
    rw [Oid.composite]
    omega
  have htwo : oid.composite - oid.first * 40 = oid.second := by
    rw [Oid.composite]
    omega
  rw [printedHead, Nat.mod_eq_of_lt hlt, hone, htwo]

/-- What is printed for an object identifier is its text when each arc fits into its buffer. -/
theorem printed_eq_dotted_iff (oid : Oid) :
    printedHead (oid.composite % 2 ^ 64) ++ printedArcs oid.rest = oid.dotted ↔
      oid.second < 10 ^ 7 ∧ ∀ arc ∈ oid.rest, arc < 10 ^ 18 := by
  have hdotted : oid.dotted =
      (Nat.toDigits 10 oid.first ++ '.' :: Nat.toDigits 10 oid.second) ++
        Oid.dottedArcs oid.rest := by
    rw [Oid.dotted, List.append_assoc]
    rfl
  have hrest := length_printedArcs_le oid.rest
  have hhead : (printedHead (oid.composite % 2 ^ 64)).length ≤ 9 := List.length_take_le 9 _
  have hfirst := length_digit_of_le_two oid.first_le
  rw [hdotted, ← printedArcs_eq_iff]
  have hlen : (Nat.toDigits 10 oid.first ++ '.' :: Nat.toDigits 10 oid.second).length =
      2 + (Nat.toDigits 10 oid.second).length := by
    rw [List.length_append, List.length_cons, hfirst]
    omega
  by_cases hsecond : oid.second < 10 ^ 7
  · have hcomposite : oid.composite < 2 ^ 64 := by
      have hle := oid.first_le
      rw [Oid.composite]
      omega
    have hdigits : (Nat.toDigits 10 oid.second).length ≤ 7 :=
      (length_decimal_lt_iff (by decide)).mpr hsecond
    have hfits : printedHead (oid.composite % 2 ^ 64) =
        Nat.toDigits 10 oid.first ++ '.' :: Nat.toDigits 10 oid.second := by
      rw [printedHead_composite oid hcomposite, snprintf_eq_iff (by decide)]
      omega
    rw [hfits, List.append_cancel_left_eq]
    exact ⟨fun heq => ⟨hsecond, heq⟩, fun heq => heq.2⟩
  · refine ⟨fun heq => absurd heq ?_, fun heq => absurd heq.1 hsecond⟩
    intro heq
    have hdigits : ¬(Nat.toDigits 10 oid.second).length ≤ 7 := by
      rwa [length_decimal_lt_iff (by decide)]
    have hlength := congrArg List.length heq
    rw [List.length_append, List.length_append, hlen] at hlength
    omega

theorem composite_mod_lt (oid : Oid) : oid.composite % 2 ^ 64 < 2 ^ 64 :=
  Nat.mod_lt _ (by decide)

/-- An object identifier comes back when each of its arcs fits into the buffer that it is printed
into and the position reaches the end of its octets. -/
theorem toOid_fromOid_iff (oid : Oid) :
    (∃ fuel, toOid fuel (fromOid oid.dotted) = .ok oid.dotted) ↔
      oid.second < 10 ^ 7 ∧ (∀ arc ∈ oid.rest, arc < 10 ^ 18) ∧
        (fromOid oid.dotted).length < 2 ^ 32 := by
  rw [← and_assoc, ← printed_eq_dotted_iff, fromOid_dotted]
  constructor
  · intro ⟨fuel, hback⟩
    have hshort := short_of_toOid hback
    have hread := toOid_putOid (composite_mod_lt oid) oid.rest_long hshort
    have hmore := toOid_mono (Nat.le_max_right fuel _) hread
    rw [toOid_mono (Nat.le_max_left fuel _) hback] at hmore
    exact ⟨(Except.ok.inj hmore).symm, hshort⟩
  · intro ⟨heq, hshort⟩
    have hread := toOid_putOid (composite_mod_lt oid) oid.rest_long hshort
    rw [heq] at hread
    exact ⟨_, hread⟩

/-- The conversion is lossless for the arcs that fit into its buffers, and stays within the data
unless the last octet of data that its position can reach says that there is another one. -/
theorem oidText_iff (oid : Oid) (data : List UInt8) :
    ((∃ fuel, toOid fuel (fromOid oid.dotted) = .ok oid.dotted) ↔
      oid.second < 10 ^ 7 ∧ (∀ arc ∈ oid.rest, arc < 10 ^ 18) ∧
        (fromOid oid.dotted).length < 2 ^ 32) ∧
    ((∀ fuel, toOid fuel data ≠ .error .outside) ↔
      (∀ last ∈ data.getLast?, last.toNat < 128) ∨ 2 ^ 32 ≤ data.length) :=
  ⟨toOid_fromOid_iff oid, toOid_within_iff data⟩

def longSecondArc : Oid where
  first := 2
  second := 10000000
  rest := []
  first_le := by decide
  second_lt := by decide
  second_long := by decide
  rest_long := by simp

theorem longSecondArc_cut :
    (toOid 5 (fromOid longSecondArc.dotted) = .ok "2.1000000".toList ∧
      longSecondArc.dotted = "2.10000000".toList) ∧
    toOid 3 [0x2A, 0x80] = .error .outside := by
  decide
end CssmData
end SecurityFramework
