import SecurityFramework.SecureObjectSync.ConcordanceTrust
import SecurityFramework.SecureObjectSync.MessageRoundTrip
import SecurityFramework.SecureObjectSync.PeerInfoRoundTrip

/-! # Circles are read as they were written -/

namespace SecurityFramework
open DER

theorem accumulateSizes_eq {sizes : List Nat} (hsizes : ∀ size ∈ sizes, size ≠ 0) :
    accumulateSizes sizes = some sizes.sum := by
  have hrun : ∀ total, sizes.foldl (fun accumulator size =>
      accumulator.bind fun total => if size = 0 then none else some (total + size)) (some total) =
        some (total + sizes.sum) := by
    induction sizes with
    | nil =>
      intro total
      rfl
    | cons size sizes ih =>
      intro total
      have hsize := hsizes size List.mem_cons_self
      rw [List.foldl_cons, Option.bind_some, if_neg hsize,
        ih (fun other hother => hsizes other (List.mem_cons_of_mem _ hother)), List.sum_cons,
        Nat.add_assoc]
  rw [accumulateSizes, hrun 0, Nat.zero_add]

section
variable {der : Primitives} (hder : der.Correct) {dates : DateSystem} (hdates : dates.Correct)
  {κ : Type} {keys : SecKeys κ}

include hder

theorem SOSPeerInfoCreateFromDER_nil :
    SOSPeerInfoCreateFromDER der dates keys [] = none := by
  rw [SOSPeerInfoCreateFromDER, decodeConstructedTl_nil hder]
  rfl

theorem SOSPeerInfo.RoundTrips.size_ne_zero {peer : SOSPeerInfo}
    (hpeer : peer.RoundTrips der dates keys) : SOSPeerInfoGetDEREncodedSize der dates peer ≠ 0 := by
  obtain ⟨octets, received, hsize, -, hread, -, -⟩ := hpeer
  intro hzero
  rw [hzero, List.length_eq_zero_iff] at hsize
  have hnil := hread []
  rw [hsize, List.append_nil, SOSPeerInfoCreateFromDER_nil hder] at hnil
  cases hnil

theorem exists_peerInfos (peers : List SOSPeerInfo)
    (hpeers : ∀ peer ∈ peers, peer.RoundTrips der dates keys) :
    ∃ octets received,
      Writes (fun buffer => peers.foldr (SOSPeerInfoEncodeToDER der dates) buffer) octets ∧
      octets.length = (peers.map (SOSPeerInfoGetDEREncodedSize der dates)).sum ∧
      (∀ fuel pia, octets.length ≤ fuel →
        decodeMembers (SOSPeerInfoCreateFromDER der dates keys) (fun pia pi => pia ++ [pi]) fuel pia
          octets = some (pia ++ received)) ∧
      received.map SOSPeerInfo.peerID = peers.map SOSPeerInfo.peerID ∧
      ∀ peer ∈ peers, ∃ copy ∈ received,
        SOSPeerInfoCompare (SOSPeerInfoPackV2Data der dates peer) copy = true ∧
          copy.peerID = peer.peerID := by
  induction peers with
  | nil =>
    refine ⟨[], [], Writes.nothing, rfl, ?_, rfl, by simp⟩
    intro fuel pia _
    cases fuel <;> simp [decodeMembers]
  | cons peer peers ih =>
    obtain ⟨octets, received, hwrites, hlength, hread, hids, hcopies⟩ :=
      ih fun other hother => hpeers other (List.mem_cons_of_mem _ hother)
    have hne := (hpeers peer List.mem_cons_self).size_ne_zero hder
    obtain ⟨front, copy, hsize, hfront, hreadFront, hequal, hid⟩ := hpeers peer List.mem_cons_self
    refine ⟨front ++ octets, copy :: received, hfront.comp hwrites, ?_, ?_, ?_, ?_⟩
    · rw [List.length_append, List.map_cons, List.sum_cons, hsize, hlength]
    · intro fuel pia hfuel
      have hstep := hreadFront octets
      rw [List.length_append] at hfuel
      cases front with
      | nil => exact absurd hsize.symm hne
      | cons octet front =>
        rw [List.length_cons] at hfuel
        cases fuel with
        | zero => omega
        | succ fuel =>
          have hrest := hread fuel (pia ++ [copy]) (by omega)
          rw [List.cons_append] at hstep ⊢
          rw [decodeMembers, hstep]
          simp only [Option.bind_eq_bind, Option.bind_some, hrest, List.append_assoc,
            List.cons_append, List.nil_append]
    · rw [List.map_cons, List.map_cons, hid, hids]
    · intro other hother
      cases List.mem_cons.mp hother with
      | inl hhead =>
        rw [hhead]
        exact ⟨copy, List.mem_cons_self, hequal, hid⟩
      | inr htail =>
        obtain ⟨found, hfound, hsame⟩ := hcopies other htail
        exact ⟨found, List.mem_cons_of_mem _ hfound, hsame⟩

omit hder in
theorem members_foldl_cfSetSetValue (peers : List SOSPeerInfo) :
    ∀ theSet : SOSPeerInfoSet,
      ((theSet.members ++ peers).map SOSPeerInfo.peerID).Nodup →
        (peers.foldl cfSetSetValue theSet).members = theSet.members ++ peers := by
  induction peers with
  | nil =>
    intro theSet _
    rw [List.foldl_nil, List.append_nil]
  | cons peer peers ih =>
    intro theSet hdistinct
    have hnew : peer.peerID ∉ theSet.keys := by
      rw [List.map_append, List.map_cons] at hdistinct
      intro hmem
      exact (List.nodup_append.mp hdistinct).2.2 _ hmem _ List.mem_cons_self rfl
    have hmissing : ¬ theSet.contains peer.peerID = true := by
      rwa [KeyedSet.contains_iff]
    have hadded : (cfSetSetValue theSet peer).members = theSet.members ++ [peer] := by
      rw [cfSetSetValue, if_neg hmissing, KeyedSet.add, dif_neg hnew]
    rw [List.foldl_cons, ih, hadded, List.append_assoc, List.singleton_append]
    rwa [hadded, List.append_assoc, List.singleton_append]

omit hder in
theorem SOSPeerInfoSetGetDEREncodedArraySize_eq (pia : SOSPeerInfoSet)
    (hsizes : ∀ pi ∈ pia.members, SOSPeerInfoGetDEREncodedSize der dates pi ≠ 0) :
    SOSPeerInfoSetGetDEREncodedArraySize der dates pia = sizeof der ccderConstructedSequence
      (pia.members.map (SOSPeerInfoGetDEREncodedSize der dates)).sum := by
  have hrun : ∀ (peers : List SOSPeerInfo) (array_size : Nat),
      (∀ pi ∈ peers, SOSPeerInfoGetDEREncodedSize der dates pi ≠ 0) →
        peers.foldl (fun state pi =>
          let pi_size := SOSPeerInfoGetDEREncodedSize der dates pi
          (decide (pi_size = 0), state.2 + pi_size)) (false, array_size) =
            (false, array_size + (peers.map (SOSPeerInfoGetDEREncodedSize der dates)).sum) := by
    intro peers
    induction peers with
    | nil =>
      intro array_size _
      rfl
    | cons peer peers ih =>
      intro array_size hpeers
      have hfirst := decide_eq_false (hpeers peer List.mem_cons_self)
      simp only [List.foldl_cons, hfirst]
      rw [ih _ (fun other hother => hpeers other (List.mem_cons_of_mem _ hother)), List.map_cons,
        List.sum_cons, Nat.add_assoc]
  rw [SOSPeerInfoSetGetDEREncodedArraySize, hrun _ 0 hsizes]
  simp only [Bool.false_eq_true, if_false, Nat.zero_add]

omit hder in
theorem SOSPeerInfoSetContainsIdenticalPeers_of {set1 set2 : SOSPeerInfoSet}
    (hlength : set1.members.length = set2.members.length)
    (hfound : ∀ peer1 ∈ set1.members, ∃ peer2 ∈ set2.members,
      SOSPeerInfoCompare peer1 peer2 = true ∧ peer2.peerID = peer1.peerID) :
    SOSPeerInfoSetContainsIdenticalPeers set1 set2 = true := by
  rw [SOSPeerInfoSetContainsIdenticalPeers, Bool.and_eq_true, decide_eq_true_eq, List.all_eq_true]
  refine ⟨hlength, ?_⟩
  intro peer1 hpeer1
  obtain ⟨peer2, hpeer2, hequal, hid⟩ := hfound peer1 hpeer1
  have hfind : set2.find? peer1.peerID = some peer2 :=
    KeyedSet.find?_eq_some_iff.mpr ⟨hpeer2, hid⟩
  simp only [hfind, hequal]

structure PeerInfoSetCoding (der : Primitives) (dates : DateSystem) (keys : SecKeys κ)
    (pis : SOSPeerInfoSet) (octets : List UInt8) (received : SOSPeerInfoSet) : Prop where
  writes : Writes (SOSPeerInfoSetEncodeToArrayDER der dates pis) octets
  length : octets.length = SOSPeerInfoSetGetDEREncodedArraySize der dates pis
  ne_zero : octets.length ≠ 0
  read : ∀ rest, SOSPeerInfoSetCreateFromArrayDER der dates keys (octets ++ rest) =
    some (received, rest)
  identical : SOSPeerInfoSetContainsIdenticalPeers (packPeerInfos der dates pis) received = true

theorem exists_peerInfoSetCoding (pis : SOSPeerInfoSet)
    (hpis : ∀ pi ∈ pis.members, pi.RoundTrips der dates keys) :
    ∃ octets received, PeerInfoSetCoding der dates keys pis octets received := by
  have hperm := List.mergeSort_perm pis.members peerInfoLe
  obtain ⟨sorted, hsorted⟩ : ∃ sorted, pis.members.mergeSort peerInfoLe = sorted := ⟨_, rfl⟩
  rw [hsorted] at hperm
  obtain ⟨content, peers, hwrites, hlength, hread, hids, hcopies⟩ :=
    exists_peerInfos hder sorted fun pi hpi => hpis pi (hperm.mem_iff.mp hpi)
  have hdistinct : (peers.map SOSPeerInfo.peerID).Nodup := by
    rw [hids]
    exact (hperm.map _).nodup_iff.mpr pis.distinct
  have hmembers := members_foldl_cfSetSetValue peers (.empty _) hdistinct
  refine ⟨element der ccderConstructedSequence content, peers.foldl cfSetSetValue (.empty _),
    ?_, ?_, ?_, ?_, ?_⟩
  · intro room written
    have hwritten := Writes.constructed der ccderConstructedSequence hwrites room written
    rw [SOSPeerInfoSetEncodeToArrayDER, SOSPeerInfoArrayEncodeToDER, hsorted]
    exact hwritten
  · have hsum := (hperm.map (SOSPeerInfoGetDEREncodedSize der dates)).sum_nat
    rw [length_element, hlength, hsum,
      SOSPeerInfoSetGetDEREncodedArraySize_eq pis fun pi hpi => (hpis pi hpi).size_ne_zero hder]
  · have hlt := content_length_lt hder ccderConstructedSequence (by decide) content
    omega
  · intro rest
    rw [SOSPeerInfoSetCreateFromArrayDER, SOSPeerInfoArrayCreateFromDER,
      decodeConstructedTl_element hder _ (by decide)]
    simp only [Option.bind_eq_bind, Option.bind_some, hread content.length [] le_rfl,
      List.nil_append]
  · apply SOSPeerInfoSetContainsIdenticalPeers_of
    · have hcount := congrArg List.length hids
      rw [List.length_map, List.length_map, hperm.length_eq] at hcount
      rw [hmembers, packPeerInfos, List.length_map]
      exact hcount.symm
    · intro peer1 hpeer1
      obtain ⟨pi, hpi, rfl⟩ := List.mem_map.mp hpeer1
      obtain ⟨copy, hcopy, hequal, hid⟩ := hcopies pi (hperm.mem_iff.mpr hpi)
      rw [hmembers]
      exact ⟨copy, hcopy, hequal, by rw [hid, peerID_packV2Data]⟩

include hdates in
theorem exists_dictionary {entries : List (Plist × Plist)}
    (hentries : (Plist.dictionary entries).Encodable dates) :
    ∃ received, (∀ rest, decodeDictionary der dates
        (plistCoding der dates (.dictionary entries) ++ rest) = some (received, rest)) ∧
      cfEqual (.dictionary entries) (.dictionary received) = true := by
  obtain ⟨q, -, -, hequal, hreadPlist⟩ := exists_received hder hdates hentries
  obtain ⟨received, rfl⟩ : ∃ received, q = .dictionary received := by
    cases q <;> simp [cfEqual] at hequal ⊢
  refine ⟨received, ?_, hequal⟩
  intro rest
  have hread := hreadPlist rest
  rw [derDecodePlist] at hread
  have htag := @decodePlistNested_element der hder dates (plistTag (.dictionary entries))
    (plistTag_low _) (plistCoding der dates (.dictionary entries) ++ rest).length
    (plistContent der dates (.dictionary entries)) rest
  have hdispatch : decodeTagged der dates (decodePlistNested der dates
      (plistCoding der dates (.dictionary entries) ++ rest).length)
      (plistTag (.dictionary entries)) = derDecodeDictionary der (decodePlistNested der dates
        (plistCoding der dates (.dictionary entries) ++ rest).length) := rfl
  rw [hdispatch, ← plistCoding, hread] at htag
  rw [decodeDictionary, ← htag]

def circleContent (der : Primitives) (dates : DateSystem) (cir : SOSCircle)
    (peers applicants rejected : List UInt8) : List UInt8 :=
  uint64Coding der kOnlyCompatibleVersion ++
    (element der ccderUtf8String (stringContent cir.name) ++
      (element der ccderInteger (numberContent cir.generation) ++
        (peers ++ (applicants ++ (rejected ++
          plistCoding der dates (.dictionary cir.signatures))))))

section
variable {cir : SOSCircle} (hname : cir.name.Encodable)
  (hsignatures : (Plist.dictionary cir.signatures).Encodable dates)
  {peersCoding applicantsCoding rejectedCoding : List UInt8}
  {peers applicants rejected : SOSPeerInfoSet}
  (hpeers : PeerInfoSetCoding der dates keys cir.peers peersCoding peers)
  (happlicants : PeerInfoSetCoding der dates keys cir.applicants applicantsCoding applicants)
  (hrejected : PeerInfoSetCoding der dates keys cir.rejected_applicants rejectedCoding rejected)
include hdates hname hsignatures hpeers happlicants hrejected

theorem writes_SOSCircleEncodeToDER :
    Writes (SOSCircleEncodeToDER der dates cir) (element der ccderConstructedSequence
      (circleContent der dates cir peersCoding applicantsCoding rejectedCoding)) := by
  have hwritable := fun time => @writable_of_encodable dates hdates time
  have hdictionary := writes_derEncodePlistRepair hder hwritable hsignatures.over false
  have hsets :=
    hpeers.writes.comp (happlicants.writes.comp (hrejected.writes.comp hdictionary))
  have hgeneration := (writes_derEncodeNumber der cir.generation).comp hsets
  have hstring := (writes_derEncodeString der hname).comp hgeneration
  have hversion := (Writes.octets der ccderInteger
    (der.encodeUnsigned kOnlyCompatibleVersion)).comp hstring
  exact Writes.constructed der ccderConstructedSequence hversion

theorem SOSCircleGetDEREncodedSize_eq :
    SOSCircleGetDEREncodedSize der dates cir = (element der ccderConstructedSequence
      (circleContent der dates cir peersCoding applicantsCoding rejectedCoding)).length := by
  have hwritable := fun time => @writable_of_encodable dates hdates time
  have hversion : (uint64Coding der kOnlyCompatibleVersion).length =
      ccderSizeofUint64 der kOnlyCompatibleVersion := length_element der _ _
  have hstring := derSizeofString_eq der hname
  have hnumber : (element der ccderInteger (numberContent cir.generation)).length =
      derSizeofNumber der cir.generation := by
    rw [length_element, length_numberContent]
    rfl
  have hdictionary := derSizeofPlist_eq hder hwritable hsignatures.over
  have hnonzero : ∀ tag : Tag, tag.number < 31 → ∀ content : List UInt8,
      (element der tag content).length ≠ 0 := by
    intro tag ht content
    have hlt := content_length_lt hder tag ht content
    omega
  have hsizes : accumulateSizes
      [ccderSizeofUint64 der kOnlyCompatibleVersion, derSizeofString der cir.name,
        derSizeofNumber der cir.generation,
        SOSPeerInfoSetGetDEREncodedArraySize der dates cir.peers,
        SOSPeerInfoSetGetDEREncodedArraySize der dates cir.applicants,
        SOSPeerInfoSetGetDEREncodedArraySize der dates cir.rejected_applicants,
        derSizeofPlist der dates (.dictionary cir.signatures)] =
      some (circleContent der dates cir peersCoding applicantsCoding rejectedCoding).length := by
    rw [← hversion, hstring, ← hnumber, ← hpeers.length, ← happlicants.length, ← hrejected.length,
      hdictionary, accumulateSizes_eq, circleContent]
    · simp only [List.sum_cons, List.sum_nil, List.length_append, Nat.add_zero]
    · simp only [List.forall_mem_cons, List.not_mem_nil, false_implies, implies_true, and_true]
      exact ⟨hnonzero _ (by decide) _, hnonzero _ (by decide) _, hnonzero _ (by decide) _,
        hpeers.ne_zero, happlicants.ne_zero, hrejected.ne_zero, length_plistCoding_ne_zero hder _⟩
  rw [SOSCircleGetDEREncodedSize, hsizes, length_element]

/-- What was written is read back, and the circle that is read is equal to what was written. -/
theorem SOSCircleCreateFromDER_element (rest : List UInt8) :
    ∃ received, SOSCircleCreateFromDER der dates keys (element der ccderConstructedSequence
        (circleContent der dates cir peersCoding applicantsCoding rejectedCoding) ++ rest) =
          some (received, rest) ∧
      SOSCircleCompare (packedCircle der dates cir) received = true := by
  obtain ⟨signatures, hread, hequal⟩ := exists_dictionary hder hdates hsignatures
  have hdictionary := hread []
  rw [List.append_nil] at hdictionary
  obtain ⟨payload, hpayload⟩ : ∃ payload, element der ccderUtf8String (stringContent cir.name) ++
      (element der ccderInteger (numberContent cir.generation) ++
        (peersCoding ++ (applicantsCoding ++ (rejectedCoding ++
          plistCoding der dates (.dictionary cir.signatures))))) = payload := ⟨_, rfl⟩
  refine ⟨⟨cir.name, cir.generation, peers, applicants, rejected, signatures⟩, ?_, ?_⟩
  · have hlong : ¬ (payload ++ rest).length < rest.length := by
      rw [List.length_append]
      omega
    have htake : (payload ++ rest).take ((payload ++ rest).length - rest.length) = payload := by
      rw [List.length_append, Nat.add_sub_cancel, List.take_left]
    rw [SOSCircleCreateFromDER, decodeConstructedTl_element hder _ (by decide), circleContent,
      hpayload]
    simp only [Option.bind_eq_bind, Option.bind_some, List.append_assoc,
      ccderDecodeUint64_coding hder, ne_eq, not_true_eq_false, if_false, hlong, htake]
    rw [← hpayload]
    simp only [derDecodeString_element hder hname, derDecodeNumber_element hder, Option.bind_some,
      hpeers.read, happlicants.read, hrejected.read, hdictionary]
    exact if_neg (not_not_intro trivial)
  · simp only [SOSCircleCompare, packedCircle, hpeers.identical, happlicants.identical,
      hrejected.identical, hequal, decide_true, Bool.and_self]
end
end

/-- A circle whose name and signatures can be written and whose peer infos are read back equal: its
size is the number of octets it is written as, and these are read back, up to their end, as a circle
that is equal to what was written. -/
theorem SOSCircle_roundTrip {der : Primitives} (hder : der.Correct) {dates : DateSystem}
    (hdates : dates.Correct) {κ : Type} {keys : SecKeys κ} {cir : SOSCircle}
    (hname : cir.name.Encodable) (hsignatures : (Plist.dictionary cir.signatures).Encodable dates)
    (hpeers : ∀ pi ∈ cir.peers.members, pi.RoundTrips der dates keys)
    (happlicants : ∀ pi ∈ cir.applicants.members, pi.RoundTrips der dates keys)
    (hrejected : ∀ pi ∈ cir.rejected_applicants.members, pi.RoundTrips der dates keys)
    (room : Nat) (written rest : List UInt8) :
    ∃ octets received,
      SOSCircleEncodeToDER der dates cir
        (.ok ⟨room + SOSCircleGetDEREncodedSize der dates cir, written⟩) =
          .ok ⟨room, octets ++ written⟩ ∧
      octets.length = SOSCircleGetDEREncodedSize der dates cir ∧
      SOSCircleCreateFromDER der dates keys (octets ++ rest) = some (received, rest) ∧
      SOSCircleCompare (packedCircle der dates cir) received = true := by
  obtain ⟨peersCoding, peers, hpeersCoding⟩ := exists_peerInfoSetCoding hder cir.peers hpeers
  obtain ⟨applicantsCoding, applicants, happlicantsCoding⟩ :=
    exists_peerInfoSetCoding hder cir.applicants happlicants
  obtain ⟨rejectedCoding, rejected, hrejectedCoding⟩ :=
    exists_peerInfoSetCoding hder cir.rejected_applicants hrejected
  have hsize := SOSCircleGetDEREncodedSize_eq hder hdates hname hsignatures hpeersCoding
    happlicantsCoding hrejectedCoding
  have hwrites := writes_SOSCircleEncodeToDER hder hdates hname hsignatures hpeersCoding
    happlicantsCoding hrejectedCoding room written
  obtain ⟨received, hread, hequal⟩ := SOSCircleCreateFromDER_element hder hdates hname hsignatures
    hpeersCoding happlicantsCoding hrejectedCoding rest
  exact ⟨_, received, by rw [hsize, hwrites], hsize.symm, hread, hequal⟩

def gestaltDescription (key : List UInt8) : List (Plist × Plist) :=
  [(.string sPublicKeyKey, .data key), (.string sGestaltKey, .dictionary [])]

theorem gestaltDescription_distinct (key : List UInt8) :
    (gestaltDescription key).Pairwise fun a b => cfEqual a.1 b.1 = false := by
  have hne : sPublicKeyKey ≠ sGestaltKey := by decide
  refine List.pairwise_pair.mpr ?_
  rw [cfEqual]
  exact decide_eq_false hne

def gestaltPeer (key : List UInt8) : SOSPeerInfo where
  description := gestaltDescription key
  signature := key ++
    plistCoding Standard.primitives firstMonth (.dictionary (gestaltDescription key))
  peerID := key.map UInt8.toUInt16
  version := 0
  verifiedAppKeyID := none
  verifiedResult := false
  v2Dictionary := none

theorem gestaltPeer_signed (key : List UInt8) :
    (gestaltPeer key).SignedV1 Standard.primitives firstMonth plainKeys where
  encodable := by
    refine .dictionary _ ?_ ?_ (gestaltDescription_distinct key)
    · simp only [gestaltPeer, gestaltDescription, List.forall_mem_cons, List.not_mem_nil,
        false_implies, implies_true, and_true]
      exact ⟨.string _ ⟨_, rfl⟩, .string _ ⟨_, rfl⟩⟩
    · simp only [gestaltPeer, gestaltDescription, List.forall_mem_cons, List.not_mem_nil,
        false_implies, implies_true, and_true]
      exact ⟨.data key, .dictionary [] (by simp) (by simp) .nil⟩
  version := rfl
  noV2Data := rfl
  gestalt := rfl
  signed := ⟨key, rfl, rfl, decide_eq_true rfl⟩

def gestaltCircle : SOSCircle where
  name := cfstr "ak"
  generation := 1
  peers := ⟨[gestaltPeer [1]], List.nodup_singleton _⟩
  applicants := ⟨[gestaltPeer [2]], List.nodup_singleton _⟩
  rejected_applicants := .empty _
  signatures := [(.string [1], .data [7])]

theorem SOSCircle_roundTrip_sample :
    ∃ octets received,
      SOSCircleEncodeToDER Standard.primitives firstMonth gestaltCircle
        (.ok ⟨0 + SOSCircleGetDEREncodedSize Standard.primitives firstMonth gestaltCircle, []⟩) =
          .ok ⟨0, octets ++ []⟩ ∧
      octets.length = SOSCircleGetDEREncodedSize Standard.primitives firstMonth gestaltCircle ∧
      SOSCircleCreateFromDER Standard.primitives firstMonth plainKeys (octets ++ []) =
        some (received, []) ∧
      SOSCircleCompare (packedCircle Standard.primitives firstMonth gestaltCircle) received =
        true := by
  have hpeer := fun key => (gestaltPeer_signed key).roundTrips Standard.primitives_correct
    firstMonth_correct
  refine SOSCircle_roundTrip Standard.primitives_correct firstMonth_correct ⟨_, rfl⟩ ?_ ?_ ?_ ?_ 0
    [] []
  · refine .dictionary _ ?_ ?_ (by decide)
    · simp only [gestaltCircle, List.forall_mem_singleton]
      exact .string _ ⟨[Char.ofNat 1], rfl⟩
    · simp only [gestaltCircle, List.forall_mem_singleton]
      exact .data [7]
  · intro pi hpi
    rw [List.mem_singleton.mp hpi]
    exact hpeer [1]
  · intro pi hpi
    rw [List.mem_singleton.mp hpi]
    exact hpeer [2]
  · intro pi hpi
    cases hpi

/-- A circle whose name is half of a surrogate pair. -/
def surrogateCircle : SOSCircle where
  name := [0xD800]
  generation := 1
  peers := .empty _
  applicants := .empty _
  rejected_applicants := .empty _
  signatures := []

/-- There is no octet for half of a pair, however much room there is. -/
theorem derEncodeString_surrogate (der : Primitives) (output : Output) :
    ∃ buffer, derEncodeString der [0xD800] output = .error buffer := by
  cases output with
  | error buffer | ok buffer => exact ⟨buffer, rfl⟩

theorem surrogateCircle_not_written :
    (∀ peer ∈ surrogateCircle.peers.members ++ surrogateCircle.applicants.members ++
        surrogateCircle.rejected_applicants.members,
        peer.RoundTrips Standard.primitives firstMonth plainKeys) ∧
      ∀ output buffer,
        SOSCircleEncodeToDER Standard.primitives firstMonth surrogateCircle output ≠ .ok buffer := by
  refine ⟨by simp [surrogateCircle, KeyedSet.empty], ?_⟩
  intro output buffer
  rw [SOSCircleEncodeToDER]
  obtain ⟨stopped, hstopped⟩ := derEncodeString_surrogate Standard.primitives
    (derEncodeNumber Standard.primitives surrogateCircle.generation
      (SOSPeerInfoSetEncodeToArrayDER Standard.primitives firstMonth surrogateCircle.peers
        (SOSPeerInfoSetEncodeToArrayDER Standard.primitives firstMonth surrogateCircle.applicants
          (SOSPeerInfoSetEncodeToArrayDER Standard.primitives firstMonth
            surrogateCircle.rejected_applicants
            (derEncodePlist Standard.primitives firstMonth
              (.dictionary surrogateCircle.signatures) output)))))
  have hname : surrogateCircle.name = [0xD800] := rfl
  rw [hname, hstopped]
  intro hok
  cases hok
end SecurityFramework
