import SecurityFramework.SecureObjectSync.CircleCoding
import SecurityFramework.Utilities.DerPlistRoundTrip

/-! # Peer infos are read as they were written -/

namespace SecurityFramework
open DER

variable {dict dict' : List (Plist × Plist)} {key : CFString}

theorem cfDictionaryGetValue_of_mem {value : Plist}
    (hdistinct : dict.Pairwise fun a b => cfEqual a.1 b.1 = false)
    (hmem : (.string key, value) ∈ dict) : cfDictionaryGetValue dict key = some value := by
  induction dict with
  | nil => cases hmem
  | cons entry dict ih =>
    rw [List.pairwise_cons] at hdistinct
    cases List.mem_cons.mp hmem with
    | inl hhead =>
      have hself : cfEqual (.string key) (.string key) = true := cfEqual_string_iff.mpr rfl
      simp only [← hhead, cfDictionaryGetValue, List.find?_cons, hself, Option.map_some]
    | inr htail =>
      have hother := hdistinct.1 _ htail
      have hrest := ih hdistinct.2 htail
      rw [cfDictionaryGetValue] at hrest ⊢
      simp only [List.find?_cons, hother, hrest]

theorem mem_of_cfDictionaryGetValue {value : Plist}
    (hvalue : cfDictionaryGetValue dict key = some value) : (.string key, value) ∈ dict := by
  obtain ⟨⟨entryKey, entryValue⟩, hfound, rfl⟩ := Option.map_eq_some_iff.mp hvalue
  have hequal := List.find?_some hfound
  rw [← cfEqual_string_iff.mp hequal]
  exact List.mem_of_find?_eq_some hfound

theorem cfDictionaryGetValue_of_cfEqual {value : Plist}
    (hdistinct' : dict'.Pairwise fun a b => cfEqual a.1 b.1 = false)
    (hequal : cfEqual (.dictionary dict) (.dictionary dict') = true)
    (hvalue : cfDictionaryGetValue dict key = some value) :
    ∃ value', cfDictionaryGetValue dict' key = some value' ∧ cfEqual value value' = true := by
  rw [cfEqual, Bool.and_eq_true, cfDictionaryContainsAll_iff] at hequal
  obtain ⟨⟨key', value'⟩, hmem, hkey, hsame⟩ :=
    hequal.2 _ (mem_of_cfDictionaryGetValue hvalue)
  have hstring : key' = .string key := by
    cases key' <;> simp [cfEqual] at hkey ⊢
    exact hkey.symm
  rw [hstring] at hmem
  exact ⟨value', cfDictionaryGetValue_of_mem hdistinct' hmem, hsame⟩

theorem descriptionVersion_of_cfEqual {version : Int}
    (hdistinct : dict.Pairwise fun a b => cfEqual a.1 b.1 = false)
    (hdistinct' : dict'.Pairwise fun a b => cfEqual a.1 b.1 = false)
    (hequal : cfEqual (.dictionary dict) (.dictionary dict') = true)
    (hequal' : cfEqual (.dictionary dict') (.dictionary dict) = true)
    (hversion : descriptionVersion dict = some version) :
    descriptionVersion dict' = some version := by
  rw [descriptionVersion] at hversion ⊢
  cases hvalue : cfDictionaryGetValue dict sVersionKey with
  | none =>
    cases hvalue' : cfDictionaryGetValue dict' sVersionKey with
    | none =>
      rw [hvalue] at hversion
      exact hversion
    | some value' =>
      obtain ⟨value, hfound, -⟩ := cfDictionaryGetValue_of_cfEqual hdistinct hequal' hvalue'
      rw [hvalue] at hfound
      cases hfound
  | some value =>
    obtain ⟨value', hfound, hsame⟩ := cfDictionaryGetValue_of_cfEqual hdistinct' hequal hvalue
    rw [hvalue] at hversion
    rw [hfound]
    cases value <;> cases value' <;> simp [cfEqual] at hversion hsame ⊢
    rw [← hsame]
    exact hversion

theorem hasGestalt_of_cfEqual (hdistinct' : dict'.Pairwise fun a b => cfEqual a.1 b.1 = false)
    (hequal : cfEqual (.dictionary dict) (.dictionary dict') = true)
    (hgestalt : hasGestalt dict = true) : hasGestalt dict' = true := by
  rw [hasGestalt] at hgestalt ⊢
  cases hvalue : cfDictionaryGetValue dict sGestaltKey with
  | none => simp [hvalue] at hgestalt
  | some value =>
    obtain ⟨value', hfound, hsame⟩ := cfDictionaryGetValue_of_cfEqual hdistinct' hequal hvalue
    rw [hvalue] at hgestalt
    rw [hfound]
    cases value <;> cases value' <;> simp [cfEqual] at hgestalt hsame ⊢

theorem data_of_cfEqual {octets : List UInt8}
    (hdistinct' : dict'.Pairwise fun a b => cfEqual a.1 b.1 = false)
    (hequal : cfEqual (.dictionary dict) (.dictionary dict') = true)
    (hdata : (cfDictionaryGetValue dict key).bind asData = some octets) :
    (cfDictionaryGetValue dict' key).bind asData = some octets := by
  obtain ⟨value, hvalue, hoctets⟩ := Option.bind_eq_some_iff.mp hdata
  obtain ⟨value', hfound, hsame⟩ := cfDictionaryGetValue_of_cfEqual hdistinct' hequal hvalue
  rw [hfound, Option.bind_some]
  cases value <;> cases value' <;> simp [cfEqual, asData] at hoctets hsame ⊢
  rw [← hsame]
  exact hoctets

section
variable {der : Primitives} (hder : der.Correct) {dates : DateSystem} (hdates : dates.Correct)
  {κ : Type} {keys : SecKeys κ}

/-- The size of the peer info is the number of octets it is written as, and these are read back as a
peer info with its ID that is equal to what was written. -/
def SOSPeerInfo.RoundTrips (der : Primitives) (dates : DateSystem) (keys : SecKeys κ)
    (peer : SOSPeerInfo) : Prop :=
  ∃ octets received, octets.length = SOSPeerInfoGetDEREncodedSize der dates peer ∧
    Writes (SOSPeerInfoEncodeToDER der dates peer) octets ∧
    (∀ rest, SOSPeerInfoCreateFromDER der dates keys (octets ++ rest) = some (received, rest)) ∧
    SOSPeerInfoCompare (SOSPeerInfoPackV2Data der dates peer) received = true ∧
    received.peerID = peer.peerID

theorem Plist.Encodable.distinct {entries : List (Plist × Plist)}
    (hentries : (Plist.dictionary entries).Encodable dates) :
    entries.Pairwise fun a b => cfEqual a.1 b.1 = false := by
  cases hentries with
  | dictionary _ _ _ hdistinct => exact hdistinct

/-- What a peer info has to be to be read back: it has no V2 data, its version is the one in its
description, it has a gestalt, its ID is that of the key in it and that key signed it. -/
structure SOSPeerInfo.SignedV1 (der : Primitives) (dates : DateSystem) (keys : SecKeys κ)
    (peer : SOSPeerInfo) : Prop where
  encodable : (Plist.dictionary peer.description).Encodable dates
  version : descriptionVersion peer.description = some peer.version
  noV2Data : SOSPeerInfoVersionHasV2Data peer = false
  gestalt : hasGestalt peer.description = true
  signed : ∃ pubKey, SOSPeerInfoCopyPubKey keys peer = some pubKey ∧
    SOSCopyIDOfKey keys pubKey = some peer.peerID ∧
    keys.rawVerify pubKey (keys.sha256 (plistCoding der dates (.dictionary peer.description)))
      peer.signature = true

variable {peer : SOSPeerInfo} (hpeer : peer.SignedV1 der dates keys)

include hpeer in
theorem SOSPeerInfo.SignedV1.packV2Data :
    SOSPeerInfoPackV2Data der dates peer = peer := by
  have hversion : ¬ SOSPeerInfoVersionHasV2Data peer = true := by
    rw [hpeer.noV2Data]
    exact Bool.false_ne_true
  rw [SOSPeerInfoPackV2Data, if_neg hversion]

def receivedPeerInfo (peer : SOSPeerInfo) (description : List (Plist × Plist)) : SOSPeerInfo :=
  { peer with
    description, verifiedAppKeyID := none, verifiedResult := false, v2Dictionary := none }

include hder hdates hpeer

theorem SOSPeerInfo.SignedV1.received {description : List (Plist × Plist)}
    (hdescription : (Plist.dictionary description).Encodable dates)
    (hcoding : plistCoding der dates (.dictionary description) =
      plistCoding der dates (.dictionary peer.description)) :
    (receivedPeerInfo peer description).SignedV1 der dates keys := by
  have hequal := (cfEqual_iff_plistCoding hder hdates hpeer.encodable hdescription).mpr hcoding.symm
  have hequal' := (cfEqual_iff_plistCoding hder hdates hdescription hpeer.encodable).mpr hcoding
  have hdistinct := hpeer.encodable.distinct
  have hdistinct' := hdescription.distinct
  obtain ⟨pubKey, hkey, hID, hverify⟩ := hpeer.signed
  obtain ⟨pubBytes, hdata, hcreate⟩ := Option.bind_eq_some_iff.mp hkey
  refine ⟨hdescription, ?_, hpeer.noV2Data, ?_, pubKey, ?_, hID, ?_⟩
  · exact descriptionVersion_of_cfEqual hdistinct hdistinct' hequal hequal' hpeer.version
  · exact hasGestalt_of_cfEqual hdistinct' hequal hpeer.gestalt
  · exact Option.bind_eq_some_iff.mpr ⟨pubBytes, data_of_cfEqual hdistinct' hequal hdata, hcreate⟩
  · rw [receivedPeerInfo, hcoding]
    exact hverify

theorem SOSPeerInfo.SignedV1.verifies :
    SOSPeerInfoVerify der dates keys peer = (true, peer) := by
  obtain ⟨pubKey, hkey, -, hverify⟩ := hpeer.signed
  rw [SOSPeerInfoVerify, hkey, SOSDescriptionHash, hpeer.packV2Data,
    CFPropertyListCreateDERData_of_encodable hder hdates hpeer.encodable]
  simp only [Option.map_some, Option.any_some, hverify]

/-- A signed peer info without V2 data is read back from what it is written as. -/
theorem SOSPeerInfo.SignedV1.roundTrips : peer.RoundTrips der dates keys := by
  obtain ⟨q, hq, hcoding, hequal, hread⟩ := exists_received hder hdates hpeer.encodable
  obtain ⟨description, rfl⟩ : ∃ description, q = .dictionary description := by
    cases q <;> simp [cfEqual] at hequal ⊢
  have hreceived := hpeer.received hder hdates hq hcoding
  have hwritesPlist := writes_derEncodePlist hder hdates hpeer.encodable
  have hsizePlist := derSizeofPlist_of_encodable hder hdates hpeer.encodable
  have hsignature := Writes.octets der ccderOctetString peer.signature
  have hwrites := Writes.constructed der ccderConstructedSequence (hwritesPlist.comp hsignature)
  refine ⟨element der ccderConstructedSequence
    (plistCoding der dates (.dictionary peer.description) ++
      element der ccderOctetString peer.signature), receivedPeerInfo peer description,
    ?_, ?_, ?_, ?_, rfl⟩
  · have hplist := @length_plistCoding_ne_zero der hder dates (.dictionary peer.description)
    have hdata := content_length_lt hder ccderOctetString (by decide) peer.signature
    have hsizeData : derSizeofData der peer.signature =
        (element der ccderOctetString peer.signature).length := (length_element der _ _).symm
    have hne : ¬ (element der ccderOctetString peer.signature).length = 0 := by omega
    rw [SOSPeerInfoGetDEREncodedSize, hsizePlist, hsizeData, length_element]
    simp only [hplist, hne, if_false, List.length_append]
  · intro room written
    have hwritten := hwrites room written
    rw [SOSPeerInfoEncodeToDER, hpeer.packV2Data]
    exact hwritten
  · intro rest
    obtain ⟨pubKey, hkey, hID, hverify⟩ := hreceived.signed
    have hdata := decodeConstructedTl_element hder ccderOctetString (by decide) peer.signature []
    rw [List.append_nil] at hdata
    rw [SOSPeerInfoCreateFromDER, decodeConstructedTl_element hder _ (by decide)]
    have hversion : descriptionVersion description = some peer.version := hreceived.version
    have hgestalt : hasGestalt description = true := hreceived.gestalt
    have hcopy : SOSPeerInfoCopyPubKey keys
        { receivedPeerInfo peer description with peerID := [] } = some pubKey := hkey
    have hexpand : SOSPeerInfoExpandV2Data der dates (receivedPeerInfo peer description) =
        receivedPeerInfo peer description := by
      rw [SOSPeerInfoExpandV2Data, hreceived.noV2Data]
      exact if_neg Bool.false_ne_true
    have hverified := hreceived.verifies hder hdates
    simp only [receivedPeerInfo] at hcopy hID hexpand hverified ⊢
    simp only [Option.bind_eq_bind, Option.bind_some, hread, derDecodeImplicitData, hdata,
      hversion, hgestalt, hcopy, hID, hexpand, hverified]
    rfl
  · rw [hpeer.packV2Data, SOSPeerInfoCompare, Bool.and_eq_true, decide_eq_true_eq]
    exact ⟨hequal, rfl⟩
end
end SecurityFramework
