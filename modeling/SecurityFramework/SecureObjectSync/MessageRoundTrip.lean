import SecurityFramework.Library.Run
import SecurityFramework.SecureObjectSync.MessageCoding

/-! # Messages arrive as they were sent -/

namespace SecurityFramework
open DER

section
variable {der : Primitives} (hder : der.Correct) {dates : DateSystem} (hdates : dates.Correct)
include hder

omit hder in
theorem decodeOptional_some {α : Type} {read : Reader α} {octets rest : List UInt8} {value : α}
    (hread : read octets = some (value, rest)) :
    decodeOptional read octets = (some value, rest) := by
  rw [decodeOptional, hread]

omit hder in
theorem decodeOptional_none {α : Type} {read : Reader α} {octets : List UInt8}
    (hread : read octets = none) : decodeOptional read octets = (none, octets) := by
  rw [decodeOptional, hread]

theorem decodeOptional_optionalCoding (tag : Tag) (ht : tag.number < 31)
    (data : Option (List UInt8)) {rest : List UInt8}
    (hrest : decodeConstructedTl der tag rest = none) :
    decodeOptional (derDecodeImplicitData der tag) (optionalCoding der tag data ++ rest) =
      (data, rest) := by
  cases data with
  | none => exact decodeOptional_none hrest
  | some data => exact decodeOptional_some (decodeConstructedTl_element hder tag ht data rest)

theorem decodeConstructedTl_nil (tag : Tag) : decodeConstructedTl der tag [] = none := by
  rw [decodeConstructedTl, decodeTl_nil hder]
  rfl

theorem decodeConstructedTl_optionalCoding_of_ne (tag expected : Tag) (ht : tag.number < 31)
    (hne : tag ≠ expected) (data : Option (List UInt8)) :
    decodeConstructedTl der expected (optionalCoding der tag data) = none := by
  cases data with
  | none => exact decodeConstructedTl_nil hder expected
  | some data =>
    have hread := decodeConstructedTl_element_of_ne hder tag expected ht hne data []
    rwa [List.append_nil] at hread

theorem ccderDecodeUint64_coding (n : UInt64) (rest : List UInt8) :
    ccderDecodeUint64 der (uint64Coding der n ++ rest) = some (n, rest) := by
  obtain ⟨first, more, hcontent, hfirst⟩ := hder.encodeUnsigned_nonneg n
  have hread := hder.readUnsigned_encodeUnsigned n
  have htop : first &&& 0x80 ≠ 0x80 := by
    intro hset
    have hbit := (topBit_set_iff first.toBitVec).mp hset
    have hlt : first.toBitVec.toNat < 128 := hfirst
    rw [BitVec.getLsbD, Nat.testBit_lt_two_pow hlt] at hbit
    cases hbit
  rw [ccderDecodeUint64, ccderDecodeImplicitUint64, uint64Coding,
    decodeConstructedTl_element hder _ (by decide)]
  rw [hcontent] at hread ⊢
  simp [htop, hread]

theorem ccderDecodeBitString_coding (s : UInt64) (rest : List UInt8) :
    ccderDecodeBitString der (bitStringCoding der s ++ rest) = some (s, rest) := by
  have hsize : der.bitLength s ≤ 8 * ccnSizeof (der.bitLength s) := by
    rw [ccnSizeof]
    omega
  have hread := hder.readUnsigned_writePadded s _ hsize
  have hlength := hder.writePadded_length s (ccnSizeof (der.bitLength s) + 1)
  have hne : der.writePadded s (ccnSizeof (der.bitLength s) + 1) ≠ [] := by
    intro hnil
    simp [hnil] at hlength
  rw [ccderDecodeBitString, bitStringCoding, decodeConstructedTl_element hder _ (by decide)]
  simp [hne, hread]

theorem ccberDecodeLen_encodeLen (len : Nat) (rest : List UInt8) (hfits : len ≤ rest.length) :
    ccberDecodeLen der (der.encodeLen len ++ rest) = some (some len, rest) := by
  have hread := hder.decodeLen_encodeLen len rest hfits
  cases hcoded : der.encodeLen len with
  | nil =>
    obtain ⟨-, head, hne, hsplit, -⟩ := hder.decodeLen_reads _ _ _ hread
    rw [hcoded, List.nil_append] at hsplit
    exact absurd (List.self_eq_append_left.mp hsplit) hne
  | cons first more =>
    have hdefinite := hder.encodeLen_definite len
    rw [hcoded] at hdefinite hread
    have hne : first ≠ 0x80 := by simpa using hdefinite
    rw [List.cons_append] at hread ⊢
    simp only [ccberDecodeLen, hne, if_false, hread, Option.map_some]

def withHeader (message sent : SOSMessage) : SOSMessage :=
  { message with
    version := 2
    creationTime := sent.creationTime
    sequenceNumber := sent.sequenceNumber
    flags := sent.flags
    senderDigest := sent.senderDigest
    baseDigest := sent.baseDigest.or message.baseDigest
    proposedDigest := sent.proposedDigest.or message.proposedDigest }

variable {sent : SOSMessage}

include hdates in
theorem derDecodeMessageHeader_coding (message : SOSMessage) (hsent : sent.Writable dates)
    (rest : List UInt8) :
    derDecodeMessageHeader der dates message
      (element der ccderConstructedSequence (headerContent der dates sent) ++ rest) =
      some (withHeader message sent, rest) := by
  obtain ⟨senderDigest, hsender⟩ : ∃ digest, sent.senderDigest = some digest :=
    Option.isSome_iff_exists.mp (Option.isNone_eq_false_iff.mp hsent.sender)
  obtain ⟨afterSender, hafterSender⟩ : ∃ octets, octets =
      optionalCoding der (ccderContext 0) sent.baseDigest ++
        optionalCoding der (ccderContext 1) sent.proposedDigest := ⟨_, rfl⟩
  obtain ⟨afterFlags, hafterFlags⟩ : ∃ octets, octets =
      optionalCoding der ccderOctetString sent.senderDigest ++ afterSender := ⟨_, rfl⟩
  obtain ⟨afterNumber, hafterNumber⟩ : ∃ octets, octets =
      bitStringCoding der sent.flags ++ afterFlags := ⟨_, rfl⟩
  obtain ⟨afterDate, hafterDate⟩ : ∃ octets, octets =
      uint64Coding der sent.sequenceNumber ++ afterNumber := ⟨_, rfl⟩
  have hcontent : headerContent der dates sent =
      element der ccderGeneralizedTime (dateContent dates sent.creationTime) ++ afterDate := by
    rw [headerContent, hafterDate, hafterNumber, hafterFlags, hafterSender]
  have hversion : decodeOptional (ccderDecodeImplicitUint64 der (ccderContext 0))
      (headerContent der dates sent) = (none, headerContent der dates sent) := by
    apply decodeOptional_none
    rw [ccderDecodeImplicitUint64, headerContent,
      decodeConstructedTl_element_of_ne hder _ _ (by decide) (by decide)]
    rfl
  have hdate : decodeOptional (derDecodeDate der dates) (headerContent der dates sent) =
      (some sent.creationTime, afterDate) := by
    rw [hcontent]
    exact decodeOptional_some (derDecodeDate_element hdates hder hsent.date afterDate)
  have hnumber : decodeOptional (ccderDecodeUint64 der) afterDate =
      (some sent.sequenceNumber, afterNumber) := by
    rw [hafterDate]
    exact decodeOptional_some (ccderDecodeUint64_coding hder sent.sequenceNumber afterNumber)
  have htypes : decodeOptional (ccderDecodeDigestTypes der) afterNumber = (none, afterNumber) := by
    apply decodeOptional_none
    rw [ccderDecodeDigestTypes, hafterNumber, bitStringCoding,
      decodeConstructedTl_element_of_ne hder _ _ (by decide) (by decide)]
    rfl
  have hflags : ccderDecodeBitString der afterNumber = some (sent.flags, afterFlags) := by
    rw [hafterNumber]
    exact ccderDecodeBitString_coding hder sent.flags afterFlags
  have hdigest : derDecodeImplicitData der ccderOctetString afterFlags =
      some (senderDigest, afterSender) := by
    rw [hafterFlags, hsender]
    exact decodeConstructedTl_element hder _ (by decide) senderDigest afterSender
  have hbase : decodeOptional (derDecodeImplicitData der (ccderContext 0)) afterSender =
      (sent.baseDigest, optionalCoding der (ccderContext 1) sent.proposedDigest) := by
    rw [hafterSender]
    exact decodeOptional_optionalCoding hder (ccderContext 0) (by decide) sent.baseDigest
      (decodeConstructedTl_optionalCoding_of_ne hder (ccderContext 1) (ccderContext 0) (by decide)
        (by decide) sent.proposedDigest)
  have hproposed := decodeOptional_optionalCoding hder (ccderContext 1) (by decide)
    sent.proposedDigest (decodeConstructedTl_nil hder (ccderContext 1))
  rw [List.append_nil] at hproposed
  rw [derDecodeMessageHeader, decodeConstructedTl_element hder _ (by decide)]
  simp only [Option.bind_eq_bind, Option.bind_some, hversion, hdate, hnumber, htypes, hflags,
    hdigest, hbase, hproposed, withHeader, hsender, Option.getD_none, Option.getD_some,
    List.nil_append]

theorem derDecodeDeltas_coding (message : SOSMessage) (hsent : sent.Writable dates)
    (hremovals : message.removals = none) (hadditions : message.additions = none) :
    ∃ deltas, decodeOptional (derDecodeDeltas der message)
        (deltasCoding der sent ++ objectsCoding der sent) = (deltas, objectsCoding der sent) ∧
      deltas.getD message =
        { message with removals := sent.removals, additions := sent.additions } := by
  have hdeltas := hsent.deltas
  cases hsentRemovals : sent.removals with
  | none =>
    have hsentAdditions : sent.additions = none := by
      simpa [hsentRemovals] using hdeltas
    have hread : derDecodeDeltas der message (objectsCoding der sent) = none := by
      rw [derDecodeDeltas, objectsCoding]
      cases sent.objects with
      | none => simp only [decodeConstructedTl_nil hder]; rfl
      | some objects =>
        have hother := decodeConstructedTl_element_of_ne hder (ccderConstructedContext 2)
          (ccderConstructedContext 0) (by decide) (by decide) objects.flatten []
        rw [List.append_nil] at hother
        simp only [hother]
        rfl
    refine ⟨none, ?_, ?_⟩
    · rw [deltasCoding, hsentRemovals, List.nil_append]
      exact decodeOptional_none hread
    · cases message
      simp only at hremovals hadditions
      rw [hsentAdditions, hremovals, hadditions]
      rfl
  | some removals =>
    obtain ⟨additions, hsentAdditions⟩ : ∃ additions, sent.additions = some additions := by
      simpa [hsentRemovals, Option.isSome_iff_exists] using hdeltas.symm
    have hbody := decodeConstructedTl_element hder ccderOctetString (by decide)
      additions.digestVector []
    rw [List.append_nil] at hbody
    refine ⟨some { message with removals := some removals, additions := some additions }, ?_, ?_⟩
    · apply decodeOptional_some
      rw [deltasCoding, hsentRemovals, hsentAdditions, derDecodeDeltas,
        decodeConstructedTl_element hder _ (by decide)]
      simp only [derDecodeDeltasBody, derDecodeImplicitData, Option.bind_eq_bind, Option.bind_some,
        decodeConstructedTl_element hder ccderOctetString (by decide), hbody,
        SOSManifestCreateWithData, List.nil_append]
    · rw [hsentAdditions]
      rfl

omit hder in
theorem derDecodeExtensions_objectsCoding (hder : der.Correct) (sent : SOSMessage) :
    decodeOptional (derDecodeExtensions der) (objectsCoding der sent) =
      (none, objectsCoding der sent) := by
  apply decodeOptional_none
  rw [derDecodeExtensions, objectsCoding]
  cases sent.objects with
  | none => simp only [decodeConstructedTl_nil hder]; rfl
  | some objects =>
    have hother := decodeConstructedTl_element_of_ne hder (ccderConstructedContext 2)
      (ccderConstructedContext 1) (by decide) (by decide) objects.flatten []
    rw [List.append_nil] at hother
    simp only [hother]
    rfl

theorem derDecodeObjects_coding (message sent : SOSMessage)
    (hobjectsDer : message.objectsDer = none) (hobjectsLen : message.objectsLen = some 0) :
    ∃ objects, decodeOptional (derDecodeObjects der message) (objectsCoding der sent) =
        (objects, []) ∧
      objects.getD message =
        { message with
          objectsDer := sent.objects.map List.flatten
          objectsLen := some (sent.objects.getD []).flatten.length } := by
  cases hobjects : sent.objects with
  | none =>
    refine ⟨none, ?_, ?_⟩
    · rw [objectsCoding, hobjects]
      apply decodeOptional_none
      rw [derDecodeObjects, decodeTag_nil hder]
      rfl
    · change message = { message with objectsDer := none, objectsLen := some 0 }
      rw [← hobjectsDer, ← hobjectsLen]
  | some objects =>
    have htag := decodeTag_element hder (ccderConstructedContext 2) (by decide) objects.flatten []
    rw [List.append_nil, List.append_nil] at htag
    have hlen := ccberDecodeLen_encodeLen hder objects.flatten.length objects.flatten le_rfl
    refine ⟨some { message with
      objectsDer := some objects.flatten, objectsLen := some objects.flatten.length }, ?_, rfl⟩
    rw [objectsCoding, hobjects]
    apply decodeOptional_some
    simp only [derDecodeObjects, htag, hlen, Option.bind_eq_bind, Option.bind_some, if_true,
      List.drop_length]

def receivedMessage (sent : SOSMessage) (data : List UInt8) : SOSMessage where
  der := data
  objectsDer := sent.objects.map List.flatten
  objectsLen := some (sent.objects.getD []).flatten.length
  senderDigest := sent.senderDigest
  baseDigest := sent.baseDigest
  proposedDigest := sent.proposedDigest
  removals := sent.removals
  additions := sent.additions
  objects := none
  flags := sent.flags
  sequenceNumber := sent.sequenceNumber
  creationTime := sent.creationTime
  version := 2

include hdates in
theorem derDecodeV2MessageBody_content (hsent : sent.Writable dates) (data : List UInt8) :
    derDecodeV2MessageBody der dates { SOSMessageAllocate with der := data }
      (v2Content der dates sent) = some (receivedMessage sent data, []) := by
  obtain ⟨empty, hempty⟩ : ∃ message : SOSMessage, message = { SOSMessageAllocate with der := data } :=
    ⟨_, rfl⟩
  have hheader := derDecodeMessageHeader_coding hder hdates empty hsent
    (deltasCoding der sent ++ objectsCoding der sent)
  obtain ⟨deltas, hdeltas, hafterDeltas⟩ := derDecodeDeltas_coding hder (withHeader empty sent)
    hsent (by rw [hempty]; rfl) (by rw [hempty]; rfl)
  have hextensions := derDecodeExtensions_objectsCoding hder sent
  obtain ⟨decoded, hdecoded⟩ : ∃ message, deltas.getD (withHeader empty sent) = message := ⟨_, rfl⟩
  rw [hdecoded] at hafterDeltas
  obtain ⟨objects, hobjects, hafterObjects⟩ := derDecodeObjects_coding hder decoded sent
    (by rw [hafterDeltas, hempty]; rfl) (by rw [hafterDeltas, hempty]; rfl)
  rw [← hempty, derDecodeV2MessageBody, v2Content, hheader]
  simp only [Option.bind_eq_bind, Option.bind_some, hdeltas, hdecoded, hextensions, hobjects,
    hafterObjects]
  simp [hafterDeltas, hempty, withHeader, receivedMessage, SOSMessageAllocate]

include hdates in
theorem SOSMessageCreateWithData_v2Coding (hsent : sent.Writable dates) :
    SOSMessageCreateWithData der dates (v2Coding der dates sent) =
      some (receivedMessage sent (v2Coding der dates sent)) := by
  have htag := decodeTag_element hder ccderConstructedSequence (by decide)
    (v2Content der dates sent) []
  rw [List.append_nil, List.append_nil] at htag
  have hlen := ccberDecodeLen_encodeLen hder (v2Content der dates sent).length
    (v2Content der dates sent) le_rfl
  have hsize : (if (v2Content der dates sent).length = 0 then (v2Content der dates sent).length
      else (v2Content der dates sent).length) = (v2Content der dates sent).length := ite_self _
  have hbodyTag : ∃ rest, der.decodeTag (v2Content der dates sent) =
      some (ccderConstructedSequence, rest) :=
    ⟨_, decodeTag_element hder ccderConstructedSequence (by decide) _ _⟩
  obtain ⟨rest, hbodyTag⟩ := hbodyTag
  have hother : ccderConstructedSequence ≠ ccderInteger := by decide
  have hbody := derDecodeV2MessageBody_content hder hdates hsent (v2Coding der dates sent)
  rw [SOSMessageCreateWithData, derDecodeMessage, v2Coding, htag]
  rw [v2Coding] at hbody
  simp only [Option.bind_eq_bind, Option.bind_some, if_true, hlen, Option.getD_some, hsize,
    List.take_length, List.drop_length, derDecodeMessageBody, hbodyTag, hother, if_false, hbody,
    List.append_nil]

theorem SecMessageIsObjectValid.reads {object : List UInt8}
    (hobject : SecMessageIsObjectValid der object = true) :
    ∃ tag content, tag ≠ ccderEol ∧ object ≠ [] ∧ ∀ rest,
      (∃ afterTag, der.decodeTag (object ++ rest) = some (tag, afterTag)) ∧
      decodeConstructedTl der tag (object ++ rest) = some (content, rest) := by
  rw [SecMessageIsObjectValid] at hobject
  cases htag : der.decodeTag object with
  | none => simp [htag] at hobject
  | some result =>
    obtain ⟨tag, afterTag⟩ := result
    obtain ⟨tagHead, hne, rfl, htagReads⟩ := hder.decodeTag_reads _ _ _ htag
    simp only [htag] at hobject
    split at hobject
    case isTrue => cases hobject
    case isFalse htagNe =>
      cases hlen : der.decodeLen afterTag with
      | none => simp [hlen] at hobject
      | some result =>
        obtain ⟨len, content⟩ := result
        obtain ⟨hfits, lenHead, -, rfl, hlenReads⟩ := hder.decodeLen_reads _ _ _ hlen
        have hlength : content.length = len := by
          simp only [hlen, decide_eq_true_eq, List.drop_eq_nil_iff] at hobject
          omega
        refine ⟨tag, content, htagNe, by simp [hne], ?_⟩
        intro rest
        have hread := hlenReads (content ++ rest) (by simp [hlength])
        simp only [List.append_assoc]
        refine ⟨⟨_, htagReads _⟩, ?_⟩
        rw [decodeConstructedTl, decodeTl, htagReads]
        simp only [Option.bind_eq_bind, Option.bind_some, if_true, hread,
          List.take_left' hlength, List.drop_left' hlength]

theorem derForeachObjects_flatten (len : Nat) :
    ∀ (objects : List (List UInt8)) (fuel : Nat),
      (∀ object ∈ objects, SecMessageIsObjectValid der object = true) →
      objects.flatten.length ≤ fuel →
        derForeachObjects der (some len) fuel objects.flatten = (objects, some []) := by
  intro objects
  induction objects with
  | nil =>
    intro fuel _ _
    rw [derForeachObjects]
    simp [decodeTag_nil hder]
  | cons object objects ih =>
    intro fuel hvalid hfuel
    obtain ⟨tag, content, htag, hne, hreads⟩ :=
      SecMessageIsObjectValid.reads hder (hvalid object List.mem_cons_self)
    obtain ⟨⟨afterTag, hdecodeTag⟩, hread⟩ := hreads objects.flatten
    have hpos := List.length_pos_iff.mpr hne
    rw [List.flatten_cons, List.length_append] at hfuel
    cases fuel with
    | zero => omega
    | succ fuel =>
      have hrest := ih fuel (fun other hother => hvalid other (List.mem_cons_of_mem _ hother))
        (by omega)
      have hlength : (object ++ objects.flatten).length - objects.flatten.length =
          object.length := by simp
      rw [List.flatten_cons, derForeachObjects]
      simp only [hdecodeTag, htag, if_false, hread, hrest, hlength, List.take_left]

theorem SOSMessageWithObjects_received
    (hvalid : ∀ object ∈ sent.objects.getD [], SecMessageIsObjectValid der object = true)
    (data : List UInt8) :
    SOSMessageWithObjects der (receivedMessage sent data) = (sent.objects.getD [], true) := by
  cases hobjects : sent.objects with
  | none => simp [SOSMessageWithObjects, receivedMessage, hobjects]
  | some objects =>
    rw [hobjects, Option.getD_some] at hvalid
    have hvisited := derForeachObjects_flatten hder objects.flatten.length objects
      objects.flatten.length hvalid le_rfl
    simp only [SOSMessageWithObjects, receivedMessage, hobjects, Option.map_some, Option.getD_some,
      hvisited, Option.isSome_some]
end

inductive MessageCall where
  | setManifests (sender base proposed : SOSManifestRef) (includeManifestDeltas : Bool)
      (objectsSent : SOSManifestRef)
  | setFlags (flags : UInt64)
  | appendObject (object : List UInt8)

def buildMessage (der : Primitives) (sha1 : List UInt8 → List UInt8) (message : SOSMessage) :
    MessageCall → Asserting SOSMessage
  | .setManifests sender base proposed includeManifestDeltas objectsSent =>
    SOSMessageSetManifests sha1 message sender base proposed includeManifestDeltas objectsSent
  | .setFlags flags => some (SOSMessageSetFlags message flags)
  | .appendObject object => some ((SOSMessageAppendObject der message object).getD message)

def Builds (der : Primitives) (sha1 : List UInt8 → List UInt8) (version : UInt64)
    (calls : List MessageCall) (message : SOSMessage) : Prop :=
  Run (buildMessage der sha1) (fun _ _ => True) (SOSMessageCreate version) calls message

structure SOSMessage.Built (der : Primitives) (version : UInt64) (message : SOSMessage) : Prop where
  version_eq : message.version = version
  deltas : message.removals.isSome = message.additions.isSome
  objects_valid : ∀ object ∈ message.objects.getD [], SecMessageIsObjectValid der object = true
  objectsDer_eq : message.objectsDer = none

section
variable {der : Primitives} {sha1 : List UInt8 → List UInt8} {version : UInt64}

theorem createWithDigestVector_isSome {dv : SOSDigestVector} {m : SOSManifestRef}
    (hm : SOSManifestCreateWithDigestVector dv = some m) : m.isSome = true := by
  rw [SOSManifestCreateWithDigestVector] at hm
  split at hm
  all_goals
    obtain ⟨sorted, -, hsorted⟩ := Option.bind_eq_some_iff.mp hm
    cases hsorted
    rfl

theorem manifestDiff_isSome {a b a_minus_b b_minus_a : SOSManifestRef}
    (hdiff : SOSManifestDiff a b = some (a_minus_b, b_minus_a)) :
    a_minus_b.isSome = true ∧ b_minus_a.isSome = true := by
  rw [SOSManifestDiff] at hdiff
  split at hdiff
  case isTrue =>
    cases hdiff
    cases b <;> exact ⟨rfl, rfl⟩
  case isFalse =>
    split at hdiff
    case isTrue =>
      cases hdiff
      cases a <;> exact ⟨rfl, rfl⟩
    case isFalse =>
      simp only [Option.bind_eq_bind, Option.bind_eq_some_iff, Option.some.injEq,
        Prod.mk.injEq] at hdiff
      obtain ⟨vectors, -, left, hleft, right, hright, rfl, rfl⟩ := hdiff
      exact ⟨createWithDigestVector_isSome hleft, createWithDigestVector_isSome hright⟩

theorem createComplement_isSome {m1 m2 m : SOSManifestRef}
    (hm : SOSManifestCreateComplement m1 m2 = some m) : m.isSome = true := by
  rw [SOSManifestCreateComplement] at hm
  split at hm
  case isTrue =>
    cases hm
    cases m2 <;> rfl
  case isFalse =>
    simp only [Option.bind_eq_bind, Option.bind_eq_some_iff] at hm
    obtain ⟨vector, -, hvector⟩ := hm
    exact createWithDigestVector_isSome hvector

theorem buildMessage_built {message message' : SOSMessage} (call : MessageCall)
    (hbuilt : message.Built der version) (hcall : buildMessage der sha1 message call = some message') :
    message'.Built der version := by
  obtain ⟨hversion, hdeltas, hvalid, hobjectsDer⟩ := hbuilt
  cases call with
  | setManifests sender base proposed includeManifestDeltas objectsSent =>
    simp only [buildMessage, SOSMessageSetManifests] at hcall
    split at hcall
    case isFalse =>
      cases hcall
      exact ⟨hversion, hdeltas, hvalid, hobjectsDer⟩
    case isTrue =>
      simp only [Option.bind_eq_bind, Option.bind_eq_some_iff] at hcall
      obtain ⟨⟨removals, additions⟩, hdiff, hcall⟩ := hcall
      obtain ⟨hremovals, hadditions⟩ := manifestDiff_isSome hdiff
      split at hcall
      case isTrue =>
        cases hcall
        exact ⟨hversion, hremovals.trans hadditions.symm, hvalid, hobjectsDer⟩
      case isFalse =>
        simp only [Option.bind_eq_some_iff] at hcall
        obtain ⟨complement, hcomplement, hcall⟩ := hcall
        cases hcall
        have hsome := createComplement_isSome hcomplement
        exact ⟨hversion, hremovals.trans hsome.symm, hvalid, hobjectsDer⟩
  | setFlags flags =>
    cases hcall
    exact ⟨hversion, hdeltas, hvalid, hobjectsDer⟩
  | appendObject object =>
    cases hcall
    rw [SOSMessageAppendObject]
    split
    case isFalse => exact ⟨hversion, hdeltas, hvalid, hobjectsDer⟩
    case isTrue hobject =>
      refine ⟨hversion, hdeltas, ?_, hobjectsDer⟩
      intro other hother
      simp only [Option.getD_some, List.mem_append, List.mem_singleton] at hother
      cases hother with
      | inl hbefore => exact hvalid other hbefore
      | inr hnew => rw [hnew]; exact hobject

theorem Builds.built {calls : List MessageCall} {message : SOSMessage}
    (hbuilds : Builds der sha1 version calls message) : message.Built der version := by
  apply Run.invariant (SOSMessage.Built der version) _ hbuilds
  · exact ⟨rfl, rfl, by simp [SOSMessageCreate, SOSMessageAllocate], rfl⟩
  · intro message call message' hbuilt _ hcall
    exact buildMessage_built call hbuilt hcall
end

theorem SOSManifestCompare_self (sha1 : List UInt8 → List UInt8) (m : SOSManifestRef) :
    SOSManifestCompare sha1 m m = true := by
  cases m with
  | none => rfl
  | some m => exact decide_eq_true rfl

/-- A message that was built with a sender manifest, and is sent while the year has four digits,
fills its data, and is received equal and with the same objects. -/
theorem SOSMessageCreateData_roundTrip {der : Primitives} (hder : der.Correct) {dates : DateSystem}
    (hdates : dates.Correct) (sha1 : List UInt8 → List UInt8) {version : UInt64}
    (hversion : version ≠ 0) {calls : List MessageCall} {message : SOSMessage}
    (hbuilds : Builds der sha1 version calls message) (hsender : message.senderDigest.isSome)
    {now : CFAbsoluteTime} (hnow : dates.Encodable (now.floor : Rat)) (sequenceNumber : UInt64) :
    ∃ sent data received,
      SOSMessageCreateData der dates now message sequenceNumber = some (sent, data) ∧
      sent = { message with
        sequenceNumber := sequenceNumber, creationTime := (now.floor : Rat) } ∧
      data.length = derSizeofMessage der dates sent .invalid ∧
      derEncodeMessage der dates sent .invalid
        (.ok ⟨derSizeofMessage der dates sent .invalid, []⟩) = .ok ⟨0, data⟩ ∧
      SOSMessageCreateWithData der dates data = some received ∧
      SOSMessageCompare sha1 sent received = true ∧
      SOSMessageWithObjects der received = SOSMessageWithObjects der message := by
  have hbuilt := hbuilds.built
  have hmessage : message.version ≠ 0 := by
    rw [hbuilt.version_eq]
    exact hversion
  obtain ⟨sent, hsent⟩ : ∃ sent : SOSMessage, sent = { message with
    sequenceNumber := sequenceNumber, creationTime := (now.floor : Rat) } := ⟨_, rfl⟩
  have hwritable : sent.Writable dates := by
    rw [hsent]
    exact ⟨hmessage, hbuilt.deltas, by simpa using hsender, hnow⟩
  have hsize : derSizeofMessage der dates sent .invalid = (v2Coding der dates sent).length :=
    derSizeofV2Message_eq hdates hder hwritable
  have hwritten : derEncodeMessage der dates sent .invalid
      (.ok ⟨derSizeofMessage der dates sent .invalid, []⟩) = .ok ⟨0, v2Coding der dates sent⟩ := by
    rw [hsize]
    exact (writes_derEncodeV2Message hdates hder hwritable).fills
  refine ⟨sent, v2Coding der dates sent, receivedMessage sent (v2Coding der dates sent),
    ?_, hsent, hsize.symm, hwritten, SOSMessageCreateWithData_v2Coding hder hdates hwritable,
    ?_, ?_⟩
  · simp only [SOSMessageCreateData, hmessage, if_false, false_and, ← hsent, hwritten]
    rfl
  · simp [SOSMessageCompare, receivedMessage, SOSManifestCompare_self]
  · have hobjects : sent.objects = message.objects := by rw [hsent]
    have hvisited := SOSMessageWithObjects_received hder
      (by rw [hobjects]; exact hbuilt.objects_valid) (v2Coding der dates sent)
    rw [hvisited, hobjects, SOSMessageWithObjects, hbuilt.objectsDer_eq]
    cases message.objects <;> rfl

def sampleSha1 (octets : List UInt8) : List UInt8 :=
  if octets = [] then
    [0xDA, 0x39, 0xA3, 0xEE, 0x5E, 0x6B, 0x4B, 0x0D, 0x32, 0x55, 0xBF, 0xEF, 0x95, 0x60,
    0x18, 0x90, 0xAF, 0xD8, 0x07, 0x09]
  else
    [0x5A, 0x90, 0xBF, 0xFA, 0xE5, 0x99, 0x6A, 0xFC, 0x9C, 0xA4, 0xC4, 0x2E, 0x0E, 0x31,
    0x69, 0xA6, 0x4C, 0x9C, 0x57, 0xF0]

def sampleProposed : SOSManifest := ⟨7 :: List.replicate 19 0⟩

def sampleCalls : List MessageCall :=
  [.setManifests (some sampleProposed) (some ⟨[]⟩) (some sampleProposed) true none, .setFlags 3,
    .appendObject [0x30, 0], .appendObject [0x30], .appendObject [4, 1, 9]]

def sampleMessage : SOSMessage :=
  { SOSMessageCreate 2 with
    senderDigest := some (sampleSha1 sampleProposed.digestVector)
    baseDigest := some (sampleSha1 [])
    proposedDigest := some (sampleSha1 sampleProposed.digestVector)
    removals := some ⟨[]⟩
    additions := some sampleProposed
    objects := some [[0x30, 0], [4, 1, 9]]
    flags := 3 }

def sampleClock : CFAbsoluteTime := ⟨201, 2, by decide, by decide⟩

theorem builds_sampleMessage :
    Builds Standard.primitives sampleSha1 2 sampleCalls sampleMessage := by
  apply Run.cons trivial rfl
  apply Run.cons trivial rfl
  apply Run.cons trivial rfl
  apply Run.cons trivial rfl
  apply Run.cons trivial rfl
  exact Run.nil _

theorem SOSMessageCreateData_roundTrip_sample :
    ∃ sent data received,
      SOSMessageCreateData Standard.primitives firstMonth sampleClock sampleMessage 5 =
        some (sent, data) ∧
      sent = { sampleMessage with
        sequenceNumber := 5, creationTime := (sampleClock.floor : Rat) } ∧
      data.length = derSizeofMessage Standard.primitives firstMonth sent .invalid ∧
      derEncodeMessage Standard.primitives firstMonth sent .invalid
        (.ok ⟨derSizeofMessage Standard.primitives firstMonth sent .invalid, []⟩) =
          .ok ⟨0, data⟩ ∧
      SOSMessageCreateWithData Standard.primitives firstMonth data = some received ∧
      SOSMessageCompare sampleSha1 sent received = true ∧
      SOSMessageWithObjects Standard.primitives received =
        SOSMessageWithObjects Standard.primitives sampleMessage :=
  SOSMessageCreateData_roundTrip Standard.primitives_correct firstMonth_correct sampleSha1
    (by decide) builds_sampleMessage rfl
    ⟨by decide, ⟨2001, 1, 1, 0, 1, 40⟩, by decide, by decide, by decide⟩ 5

def yearTenThousand : DateSystem where
  calendarComposeAbsoluteTime date :=
    if date = ⟨10000, 1, 1, 0, 0, 0⟩ then some 252423993600 else none
  calendarDecomposeAbsoluteTime time :=
    if time = 252423993600 then some ⟨10000, 1, 1, 0, 0, 0⟩ else none
  dtoa := firstMonth.dtoa

theorem yearTenThousand_correct : yearTenThousand.Correct where
  decompose_ranges time date _ hdate _ hyear := by
    simp only [yearTenThousand] at hdate
    split at hdate
    case isTrue =>
      cases hdate
      simp at hyear
    case isFalse => cases hdate
  compose_decompose time date _ hdate := by
    simp only [yearTenThousand] at hdate ⊢
    split at hdate
    case isTrue htime =>
      cases hdate
      rw [if_pos rfl, htime]
    case isFalse => cases hdate
  dtoa_whole := firstMonth_correct.dtoa_whole

/-- A message without a sender manifest, and one that is sent when the year has five digits, cannot
be read back. -/
theorem SOSMessageCreateData_unreadable :
    (∃ message sent data,
      Builds Standard.primitives sampleSha1 2 [.setManifests none none none true none] message ∧
      SOSMessageCreateData Standard.primitives firstMonth 100 message 1 = some (sent, data) ∧
      SOSMessageCreateWithData Standard.primitives firstMonth data = none) ∧
    yearTenThousand.Correct ∧
    ∃ sent data,
      Builds Standard.primitives sampleSha1 2 sampleCalls sampleMessage ∧
      SOSMessageCreateData Standard.primitives yearTenThousand 252423993600 sampleMessage 5 =
        some (sent, data) ∧
      SOSMessageCreateWithData Standard.primitives yearTenThousand data = none := by
  refine ⟨⟨_, _, _, Run.cons trivial rfl (Run.nil _), rfl, by decide⟩, yearTenThousand_correct,
    _, _, builds_sampleMessage, rfl, by decide⟩
end SecurityFramework
