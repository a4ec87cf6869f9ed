import SecurityFramework.SecureObjectSync.CircleRoundTrip

/-!
# Sizes of collections of peer infos

A collection of peer infos is sized in one walk and written in another.
-/

namespace SecurityFramework.PeerInfoCollection
open DER

structure PeerInfoCoding (π : Type) where
  getDEREncodedSize : π → Nat
  encodeToDER : π → Writer
  /-- `SOSPeerInfoCompareByID` does not put the left peer after the right. -/
  compareByIDLe : π → π → Bool

variable {π : Type} (der : Primitives) (coding : PeerInfoCoding π)

/-- The block of either walk, with `fail` and `array_size`. An element may be something else than a
peer info. -/
def addElementSize (state : Bool × Nat) : Option π → Bool × Nat
  | some pi =>
    let pi_size := coding.getDEREncodedSize pi
    (decide (pi_size = 0), state.2 + pi_size)
  | none => (true, state.2)

def SOSPeerInfoArrayGetDEREncodedSize (pia : List (Option π)) : Nat :=
  let (fail, array_size) := pia.foldl (addElementSize coding) (false, 0)
  if fail then 0 else sizeof der ccderConstructedSequence array_size

/-- The peer infos stand in the order that the walk through the set takes. -/
def SOSPeerInfoSetGetDEREncodedArraySize (pia : List π) : Nat :=
  let (fail, array_size) := (pia.map some).foldl (addElementSize coding) (false, 0)
  if fail then 0 else sizeof der ccderConstructedSequence array_size

/-- Nothing is written once `der_end` is null. -/
def encodeElement : Option π → Writer
  | some pi, .ok der_end => coding.encodeToDER pi (.ok der_end)
  | some _, .error der_end => .error der_end
  | none, der_end => fail der_end

def SOSPeerInfoArrayEncodeToDER (pia : List (Option π)) (buffer : Output) : Output :=
  encodeConstructedTl der ccderConstructedSequence buffer (pia.foldr (encodeElement coding) buffer)

def SOSPeerInfoSetEncodeToArrayDER (pis : List π) (buffer : Output) : Output :=
  SOSPeerInfoArrayEncodeToDER der coding ((pis.mergeSort coding.compareByIDLe).map some) buffer

def circlePeers (dates : DateSystem) : PeerInfoCoding SOSPeerInfo where
  getDEREncodedSize := SOSPeerInfoGetDEREncodedSize der dates
  encodeToDER := SOSPeerInfoEncodeToDER der dates
  compareByIDLe := peerInfoLe

theorem circlePeers_setSize (dates : DateSystem) (pia : SOSPeerInfoSet) :
    SecurityFramework.SOSPeerInfoSetGetDEREncodedArraySize der dates pia =
      SOSPeerInfoSetGetDEREncodedArraySize der (circlePeers der dates) pia.members := by
  rw [SOSPeerInfoSetGetDEREncodedArraySize, List.foldl_map]
  rfl

def Fails : Option π → Prop
  | some pi => coding.getDEREncodedSize pi = 0
  | none => True

/-- With so much room the writer takes so many octets. -/
def Takes (encode : Writer) (needed size : Nat) : Prop :=
  ∀ buffer : Buffer, needed ≤ buffer.room →
    ∃ der_end, encode (.ok buffer) = .ok der_end ∧ der_end.room + size = buffer.room

/-- The size is zero if an element cannot be sized, and otherwise what the writer takes. -/
structure SizesExactly (elements : List (Option π)) (size : Nat) (encode : Writer) : Prop where
  zero : (∃ element ∈ elements, Fails coding element) → size = 0
  exact : (∀ element ∈ elements, ¬ Fails coding element) → Takes encode size size

def elementSize : Option π → Nat
  | some pi => coding.getDEREncodedSize pi
  | none => 0

/-- If an element of the walk cannot be sized then its last one cannot. If all can, they take, one
written before the other, as many octets as their sizes add up to. -/
structure ToldByLast (walked written : List (Option π)) : Prop where
  last : (∃ element ∈ walked, Fails coding element) →
    ∃ element, walked.getLast? = some element ∧ Fails coding element
  sizes : (∀ element ∈ walked, ¬ Fails coding element) →
    Takes (fun buffer => written.foldr (encodeElement coding) buffer)
      (sizeof der ccderConstructedSequence (walked.map (elementSize coding)).sum)
      (walked.map (elementSize coding)).sum

section
theorem foldl_addElementSize (walked : List (Option π)) :
    ((walked.foldl (addElementSize coding) (false, 0)).1 = true ↔
        ∃ element, walked.getLast? = some element ∧ Fails coding element) ∧
      (walked.foldl (addElementSize coding) (false, 0)).2 =
        (walked.map (elementSize coding)).sum := by
  induction walked using List.reverseRecOn with
  | nil => simp
  | append_singleton walked element ih =>
    rw [List.foldl_append, List.foldl_cons, List.foldl_nil, List.map_append, List.sum_append]
    cases element with
    | none | some pi => simp [addElementSize, Fails, elementSize, ih.2]

variable {der coding} {tag : Tag} {len : Nat} {content der_end : Buffer}

theorem room_of_encodeTl (htl : encodeTl der tag len (.ok content) = .ok der_end) :
    der_end.room + sizeof der tag len = content.room + len := by
  by_cases hlen : (der.encodeLen len).length ≤ content.room
  case neg => simp [encodeTl, encodeBody, hlen] at htl
  by_cases htag : (der.encodeTag tag).length ≤ content.room - (der.encodeLen len).length
  case neg => simp [encodeTl, encodeBody, hlen, htag] at htl
  simp only [encodeTl, encodeBody, hlen, htag, if_true, Except.ok.injEq] at htl
  rw [← htl, sizeof]
  dsimp only
  omega

theorem encodeTl_of_room (hroom : sizeof der tag len ≤ content.room + len) :
    ∃ der_end, encodeTl der tag len (.ok content) = .ok der_end := by
  rw [sizeof] at hroom
  have hlen : (der.encodeLen len).length ≤ content.room := by omega
  have htag : (der.encodeTag tag).length ≤ content.room - (der.encodeLen len).length := by omega
  simp only [encodeTl, encodeBody, hlen, htag, if_true, Except.ok.injEq, exists_eq']

variable (hder : der.Correct) (hsizeof : StrictMono (sizeof der ccderConstructedSequence))
include hsizeof

theorem takes_constructed_iff {body : Writer} {size : Nat} :
    Takes (fun buffer => encodeConstructedTl der ccderConstructedSequence buffer (body buffer))
        (sizeof der ccderConstructedSequence size) (sizeof der ccderConstructedSequence size) ↔
      Takes body (sizeof der ccderConstructedSequence size) size := by
  constructor
  · intro htakes buffer hroom
    obtain ⟨der_end, hwritten, hsize⟩ := htakes buffer hroom
    dsimp only at hwritten
    cases hbody : body (.ok buffer) with
    | error stopped =>
      rw [hbody] at hwritten
      cases hwritten
    | ok content =>
      rw [hbody] at hwritten
      have htl := room_of_encodeTl hwritten
      -- A content that freed room would make the sequence shorter than an empty one.
      have hempty := hsizeof.monotone (Nat.zero_le size)
      have hlen : buffer.room - content.room = size := by
        apply hsizeof.injective
        by_cases hle : content.room ≤ buffer.room
        · omega
        · have hzero : buffer.room - content.room = 0 := by omega
          rw [hzero] at htl ⊢
          omega
      rw [hlen] at htl
      exact ⟨content, rfl, by omega⟩
  · intro htakes buffer hroom
    obtain ⟨content, hbody, hsize⟩ := htakes buffer hroom
    have hlen : buffer.room - content.room = size := by omega
    obtain ⟨der_end, htl⟩ := encodeTl_of_room (show
      sizeof der ccderConstructedSequence size ≤ content.room + size by omega)
    refine ⟨der_end, ?_, ?_⟩
    · simp only [hbody, encodeConstructedTl, hlen, htl]
    · have hleft := room_of_encodeTl htl
      omega

include hder

/-- The size that one walk gives, against what another writes. -/
theorem sizesExactly_iff (walked written : List (Option π)) :
    SizesExactly coding walked (SOSPeerInfoArrayGetDEREncodedSize der coding walked)
        (SOSPeerInfoArrayEncodeToDER der coding written) ↔
      ToldByLast der coding walked written := by
  obtain ⟨hfail, htotal⟩ := foldl_addElementSize coding walked
  have hsize : SOSPeerInfoArrayGetDEREncodedSize der coding walked =
      if (walked.foldl (addElementSize coding) (false, 0)).1 then 0
      else sizeof der ccderConstructedSequence (walked.map (elementSize coding)).sum := by
    rw [← htotal]
    rfl
  have hsized : (∀ element ∈ walked, ¬ Fails coding element) →
      ¬ (walked.foldl (addElementSize coding) (false, 0)).1 = true := by
    intro hnone htrue
    obtain ⟨element, hlast, hfails⟩ := hfail.mp htrue
    exact hnone element (List.mem_of_getLast? hlast) hfails
  have htag := List.length_pos_iff.mpr
    (encodeTag_ne_nil hder ccderConstructedSequence (by decide))
  constructor
  · intro hexactly
    constructor
    · intro hsome
      have hzero := hexactly.zero hsome
      by_contra hlast
      rw [hsize, if_neg (mt hfail.mp hlast), sizeof] at hzero
      omega
    · intro hnone
      have htakes := hexactly.exact hnone
      rw [hsize, if_neg (hsized hnone)] at htakes
      exact (takes_constructed_iff hsizeof).mp htakes
  · intro htold
    constructor
    · intro hsome
      rw [hsize, if_pos (hfail.mpr (htold.last hsome))]
    · intro hnone
      rw [hsize, if_neg (hsized hnone)]
      exact (takes_constructed_iff hsizeof).mpr (htold.sizes hnone)
end

theorem standard_sizeof_strictMono (tag : Tag) : StrictMono (sizeof Standard.primitives tag) := by
  intro len more hlt
  have hdigits : Standard.digitCount len ≤ Standard.digitCount more := by
    have hlog := Nat.log_mono_right (b := 2) hlt.le
    simp only [Standard.digitCount, Nat.log2_eq_log_two]
    omega
  have hlength (len : Nat) : (Standard.primitives.encodeLen len).length =
      if len < 128 then 1 else Standard.digitCount len / 127 + (Standard.digitCount len + 1) := by
    change (Standard.encodeLen len).length = _
    rw [Standard.encodeLen]
    split <;> simp
  rw [sizeof, sizeof, hlength, hlength]
  change 1 + _ + len < 1 + _ + more
  split <;> split <;> omega

theorem not_fails_of_roundTrips (hder : der.Correct) {dates : DateSystem} {κ : Type}
    {keys : SecKeys κ} {peer : SOSPeerInfo} (hpeer : peer.RoundTrips der dates keys) :
    ¬ Fails (circlePeers der dates) (some peer) :=
  hpeer.size_ne_zero hder

def mixedArray : List (Option SOSPeerInfo) := [none, some (gestaltPeer [1])]

end SecurityFramework.PeerInfoCollection
