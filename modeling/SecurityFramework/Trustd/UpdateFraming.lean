import SecurityFramework.Library.Memory
import SecurityFramework.Library.Traced

/-!
# Updates of the Valid database

An update is the length of the signed data, the signed data, the length of a CMS message and that
message.
-/

namespace SecurityFramework.Trustd
/-- Data has as many octets as a `CFIndex` can say. -/
structure CFData where
  bytes : List UInt8
  length_lt : bytes.length < 2 ^ 63

inductive UpdateEvent where
  | read (offset len : Nat)
  | subtract (minuend subtrahend : Nat)
  | ingest (offset len : Nat)
  deriving DecidableEq

def kSecValidUpdateFormatG2 : Int := 2

def INT_MAX : Nat := 2147483647

def readBytes (data : List UInt8) (p len : Nat) : Traced UpdateEvent (List UInt8) := do
  Traced.emit (.read p len)
  match Memory.load data p len with
  | some octets => pure octets
  | none => Traced.stop

def SecSwapInt32Ptr (data : List UInt8) (p : Nat) : Traced UpdateEvent UInt32 := do
  let octets ← readBytes data p 4
  pure (UInt32.ofNat (Memory.ofBE octets))

/-- The signature is over the signed data, of which `cmsVerify` says whether it is right. -/
def SecRevocationDbVerifyUpdate (cmsVerify : (signature content : List UInt8) → Bool)
    (update : CFData) : Traced UpdateEvent Bool :=
  let length := update.bytes.length
  if length ≤ 4 then pure false
  else do
    let plistLength ← SecSwapInt32Ptr update.bytes 0
    if plistLength.toNat + 8 > length then pure false
    else do
      let sigLength ← SecSwapInt32Ptr update.bytes (4 + plistLength.toNat)
      -- the two lengths are added as 32-bit numbers
      if (plistLength + sigLength).toNat + 8 ≠ length then pure false
      else
        let signature := (update.bytes.drop (8 + plistLength.toNat)).take sigLength.toNat
        let content := (update.bytes.drop 4).take plistLength.toNat
        pure (cmsVerify signature content)

structure UpdatePlist (κ : Type) where
  generation : Option Int
  version : Option Int
  contents : κ

structure DbConnection (σ : Type) where
  precommitVersion : Int
  database : σ

structure UpdateHost (κ σ : Type) where
  /-- `CFPropertyListCreateWithData`, where it yields a dictionary -/
  dictionary : List UInt8 → Option (UpdatePlist κ)
  expectedGeneration : Int
  applyUpdate : κ → (version generation : Int) → σ → σ × Bool
  setHashes : κ → σ → σ × Bool

variable {κ σ : Type}

def SecRevocationDbCheckGeneration (host : UpdateHost κ σ) (update : UpdatePlist κ) :
    Option Int :=
  match update.generation with
  | some recvGeneration =>
    if host.expectedGeneration = recvGeneration then some recvGeneration else none
  | none => none

/-- With it comes the version of the update, or -1 where the database has it. -/
def SecRevocationDbIngestUpdate (host : UpdateHost κ σ) (dbc : DbConnection σ)
    (update : UpdatePlist κ) (chunkVersion generation : Int) : DbConnection σ × Bool × Int :=
  let received := update.version.getD 0
  let version := if received = 0 then chunkVersion else received
  let curVersion := dbc.precommitVersion
  if version > curVersion ∨ chunkVersion > 0 then
    let (database, ok) := host.applyUpdate update.contents version generation dbc.database
    ({ dbc with database }, ok, version)
  else (dbc, true, -1)

structure UpdateProgress (σ : Type) where
  ok : Bool
  version : Int
  generation : Int
  result : Bool
  dbc : DbConnection σ

inductive ChunkOutcome (σ : Type) where
  | wrongGeneration
  | next (skipRest : Bool) (progress : UpdateProgress σ)

def ingestsChunk (host : UpdateHost κ σ) (plistProcessed : Nat) (update : UpdatePlist κ)
    (progress : UpdateProgress σ) : Bool :=
  progress.ok && (plistProcessed ≠ 1 || (SecRevocationDbCheckGeneration host update).isSome)

def processChunk (host : UpdateHost κ σ) (plistProcessed : Nat) (update : UpdatePlist κ)
    (progress : UpdateProgress σ) : ChunkOutcome σ :=
  if plistProcessed = 1 ∧ SecRevocationDbCheckGeneration host update = none then .wrongGeneration
  else
    let generation := if plistProcessed = 1 then
        (SecRevocationDbCheckGeneration host update).getD 0
      else progress.generation
    let (dbc, ok, curVersion) :=
      if progress.ok then
        SecRevocationDbIngestUpdate host progress.dbc update progress.version generation
      else (progress.dbc, false, -1)
    if plistProcessed = 1 then
      let (database, ok) := host.setHashes update.contents dbc.database
      let skipRest := ok && curVersion < 0
      .next skipRest
        { ok, version := curVersion, generation, result := progress.result || skipRest,
          dbc := { precommitVersion := curVersion, database } }
    else
      let skipRest := ok && curVersion < 0
      .next skipRest
        { progress with ok, generation, result := progress.result || skipRest, dbc }

def takeWord (data : List UInt8) (p : Nat) (bytesRemaining : UInt64) :
    Traced UpdateEvent (UInt32 × Nat × UInt64) := do
  let number ← SecSwapInt32Ptr data p
  Traced.emit (.subtract bytesRemaining.toNat 4)
  pure (number, p + 4, bytesRemaining - 4)

/-- A number that is in the update from the format G3 on. -/
def takeWordG3 (data : List UInt8) (format : Int) (otherwise : UInt32) (p : Nat)
    (bytesRemaining : UInt64) : Traced UpdateEvent (UInt32 × Nat × UInt64) :=
  if format > kSecValidUpdateFormatG2 then takeWord data p bytesRemaining
  else pure (otherwise, p, bytesRemaining)

def chunkDictionary (host : UpdateHost κ σ) (data : List UInt8) (p : Nat) (plistLength : UInt32)
    (bytesRemaining : UInt64) : Traced UpdateEvent (Option (UpdatePlist κ)) :=
  if plistLength.toNat ≤ bytesRemaining.toNat ∧ plistLength.toNat < INT_MAX then do
    let octets ← readBytes data p plistLength.toNat
    pure (host.dictionary octets)
  else pure none

def processChunks (host : UpdateHost κ σ) (data : List UInt8) (format : Int)
    (dataLength : UInt32) (plistCount plistProcessed p : Nat) (bytesRemaining : UInt64)
    (progress : UpdateProgress σ) : Traced UpdateEvent (Option (UpdateProgress σ)) :=
  match plistCount with
  | 0 => pure (some progress)
  | plistCount + 1 =>
    if bytesRemaining = 0 then pure (some progress)
    else do
      let (plistLength, p, bytesRemaining) ← takeWordG3 data format dataLength p bytesRemaining
      let plistProcessed := plistProcessed + 1
      let propertyList ← chunkDictionary host data p plistLength bytesRemaining
      match propertyList with
      | none => do
        Traced.emit (.subtract bytesRemaining.toNat plistLength.toNat)
        processChunks host data format dataLength plistCount plistProcessed
          (p + plistLength.toNat) (bytesRemaining - plistLength.toUInt64) progress
      | some update => do
        if ingestsChunk host plistProcessed update progress then
          Traced.emit (.ingest p plistLength.toNat)
        match processChunk host plistProcessed update progress with
        | .wrongGeneration => pure none
        | .next skipRest progress => do
          Traced.emit (.subtract bytesRemaining.toNat plistLength.toNat)
          if skipRest then pure (some progress)
          else
            processChunks host data format dataLength plistCount plistProcessed
              (p + plistLength.toNat) (bytesRemaining - plistLength.toUInt64) progress

def finishUpdate (outcome : Option (UpdateProgress σ)) : Bool :=
  match outcome with
  | none => true
  | some progress => progress.result || (progress.ok && progress.version > 0)

def SecValidUpdateProcessData (host : UpdateHost κ σ) (dbc : DbConnection σ) (format : Int)
    (updateData : CFData) : Traced UpdateEvent Bool :=
  let data := updateData.bytes
  if format < 2 then pure false
  else if data.length < 8 then pure false
  else do
    let (dataLength, p, bytesRemaining) ← takeWord data 0 (UInt64.ofNat data.length)
    let (plistCount, p, bytesRemaining) ← takeWordG3 data format 1 p bytesRemaining
    if dataLength.toNat > bytesRemaining.toNat then pure false
    else do
      let outcome ← processChunks host data format dataLength plistCount.toNat 0 p bytesRemaining
        { ok := true, version := 0, generation := 0, result := false, dbc }
      pure (finishUpdate outcome)
end SecurityFramework.Trustd

namespace SecurityFramework.Trustd
open Traced (Only)

variable {κ σ : Type}

def word (data : List UInt8) (p : Nat) : Nat := Memory.ofBE ((data.drop p).take 4)

/-- A read is within the update, no more is subtracted than there is, and what goes into the
database lies within the signed data. -/
def UpdateEvent.Sound (data : List UInt8) : UpdateEvent → Prop
  | .read offset len => offset + len ≤ data.length
  | .subtract minuend subtrahend => subtrahend ≤ minuend
  | .ingest offset len => 4 ≤ offset ∧ offset + len ≤ 4 + word data 0

theorem word_lt (data : List UInt8) (p : Nat) : word data p < 2 ^ 32 := by
  have hlt := Memory.ofBE_lt ((data.drop p).take 4)
  have hle := List.length_take_le 4 (data.drop p)
  have hpow : 256 ^ ((data.drop p).take 4).length ≤ 256 ^ 4 :=
    Nat.pow_le_pow_right (by decide) hle
  exact hlt.trans_le hpow

@[simp] theorem toNat_ofNat_word (data : List UInt8) (p : Nat) :
    (UInt32.ofNat (word data p)).toNat = word data p :=
  UInt32.toNat_ofNat_of_lt (word_lt data p)

section
variable {α : Type} {data : List UInt8} {p len : Nat}

theorem value_readBytes (h : p + len ≤ data.length) :
    (readBytes data p len).value = some ((data.drop p).take len) := by
  rw [readBytes, Traced.value_bind, Memory.load, if_pos h]
  rfl

theorem sound_readBytes :
    Only (UpdateEvent.Sound data) (readBytes data p len) ↔ p + len ≤ data.length := by
  rw [readBytes, Traced.only_emit_bind]
  constructor
  · exact And.left
  · intro h
    refine ⟨h, ?_⟩
    rw [Memory.load, if_pos h]
    exact Traced.only_pure _

theorem sound_readBytes_bind {f : List UInt8 → Traced UpdateEvent α} :
    Only (UpdateEvent.Sound data) (readBytes data p len >>= f) ↔
      p + len ≤ data.length ∧ Only (UpdateEvent.Sound data) (f ((data.drop p).take len)) := by
  rw [Traced.only_bind, sound_readBytes]
  refine and_congr_right fun h => ?_
  rw [value_readBytes h]
  exact ⟨fun hall => hall _ rfl, fun hone _ heq => Option.some.inj heq ▸ hone⟩

theorem value_SecSwapInt32Ptr (h : p + 4 ≤ data.length) :
    (SecSwapInt32Ptr data p).value = some (UInt32.ofNat (word data p)) := by
  rw [SecSwapInt32Ptr, Traced.value_bind, value_readBytes h]
  rfl

theorem sound_SecSwapInt32Ptr_bind {f : UInt32 → Traced UpdateEvent α} :
    Only (UpdateEvent.Sound data) (SecSwapInt32Ptr data p >>= f) ↔
      p + 4 ≤ data.length ∧
        Only (UpdateEvent.Sound data) (f (UInt32.ofNat (word data p))) := by
  have hread : Only (UpdateEvent.Sound data) (SecSwapInt32Ptr data p) ↔ p + 4 ≤ data.length := by
    rw [SecSwapInt32Ptr, sound_readBytes_bind]
    exact and_iff_left (Traced.only_pure _)
  rw [Traced.only_bind, hread]
  refine and_congr_right fun h => ?_
  rw [value_SecSwapInt32Ptr h]
  exact ⟨fun hall => hall _ rfl, fun hone _ heq => Option.some.inj heq ▸ hone⟩
end

theorem word_le_of_verifyUpdate {cmsVerify : List UInt8 → List UInt8 → Bool} {update : CFData}
    (h : (SecRevocationDbVerifyUpdate cmsVerify update).value = some true) :
    word update.bytes 0 + 8 ≤ update.bytes.length := by
  rw [SecRevocationDbVerifyUpdate] at h
  split at h
  case isTrue => cases h
  case isFalse hlong =>
    rw [Traced.value_bind, value_SecSwapInt32Ptr (by omega), Option.bind_some] at h
    split at h
    case isTrue => cases h
    case isFalse hle =>
      rw [toNat_ofNat_word] at hle
      omega

def plistAt (host : UpdateHost κ σ) (data : List UInt8) (p : Nat) : Option (UpdatePlist κ) :=
  if word data p < INT_MAX then host.dictionary ((data.drop (p + 4)).take (word data p)) else none

/-- Each property list that is come to ends within the update, and within the signed data if it
goes into the database. Nothing is come to at the very end of the update, behind a wrong
generation, and behind a version that the database has. -/
def ChunksFit (host : UpdateHost κ σ) (data : List UInt8) (plistCount plistProcessed p : Nat)
    (progress : UpdateProgress σ) : Prop :=
  match plistCount with
  | 0 => True
  | plistCount + 1 =>
    p = data.length ∨ p + 4 + word data p ≤ data.length ∧
      match plistAt host data p with
      | none =>
        ChunksFit host data plistCount (plistProcessed + 1) (p + 4 + word data p) progress
      | some update =>
        (ingestsChunk host (plistProcessed + 1) update progress = true →
          p + 4 + word data p ≤ 4 + word data 0) ∧
        match processChunk host (plistProcessed + 1) update progress with
        | .wrongGeneration => True
        | .next true _ => True
        | .next false progress =>
          ChunksFit host data plistCount (plistProcessed + 1) (p + 4 + word data p) progress

section
variable {host : UpdateHost κ σ} {data : List UInt8} {format : Int} {dataLength : UInt32}

theorem toNat_ofNat_sub (hlength : data.length < 2 ^ 63) (p : Nat) :
    (UInt64.ofNat (data.length - p)).toNat = data.length - p :=
  UInt64.toNat_ofNat_of_lt' (by
    change data.length - p < 2 ^ 64
    omega)

theorem ofNat_sub_sub (hlength : data.length < 2 ^ 63) {p n : Nat} (h : p + n ≤ data.length) :
    UInt64.ofNat (data.length - p) - UInt64.ofNat n = UInt64.ofNat (data.length - (p + n)) := by
  apply UInt64.toNat_inj.mp
  rw [toNat_ofNat_sub hlength, UInt64.toNat_sub, toNat_ofNat_sub hlength, UInt64.toNat_ofNat']
  omega

theorem ofNat_word_toUInt64 (p : Nat) :
    (UInt32.ofNat (word data p)).toUInt64 = UInt64.ofNat (word data p) := by
  apply UInt64.toNat_inj.mp
  have hlt := word_lt data p
  rw [UInt32.toNat_toUInt64, toNat_ofNat_word, UInt64.toNat_ofNat']
  omega

theorem sound_chunkDictionary_bind {α : Type} {p : Nat} {plistLength : UInt32}
    {f : Option (UpdatePlist κ) → Traced UpdateEvent α} {remaining : UInt64}
    (hremaining : p + remaining.toNat = data.length) (hfit : plistLength.toNat ≤ remaining.toNat) :
    Only (UpdateEvent.Sound data) (chunkDictionary host data p plistLength remaining >>= f) ↔
      Only (UpdateEvent.Sound data)
        (f (if plistLength.toNat < INT_MAX then
          host.dictionary ((data.drop p).take plistLength.toNat) else none)) := by
  by_cases hmax : plistLength.toNat < INT_MAX
  · rw [chunkDictionary, if_pos ⟨hfit, hmax⟩, if_pos hmax, Traced.only_bind, sound_readBytes_bind]
    rw [Traced.value_bind, value_readBytes (by omega)]
    constructor
    · rintro ⟨_, hall⟩
      exact hall _ rfl
    · intro hone
      refine ⟨⟨by omega, Traced.only_pure _⟩, ?_⟩
      intro a ha
      cases ha
      exact hone
  · rw [chunkDictionary, if_neg (fun h => hmax h.2), if_neg hmax, Traced.only_pure_bind]

theorem sound_takeWord_bind {α : Type} (hlength : data.length < 2 ^ 63) {p : Nat}
    {f : UInt32 × Nat × UInt64 → Traced UpdateEvent α} :
    Only (UpdateEvent.Sound data)
        (takeWord data p (UInt64.ofNat (data.length - p)) >>= f) ↔
      p + 4 ≤ data.length ∧ Only (UpdateEvent.Sound data)
        (f (UInt32.ofNat (word data p), p + 4, UInt64.ofNat (data.length - (p + 4)))) := by
  rw [takeWord, Traced.only_bind, sound_SecSwapInt32Ptr_bind, Traced.only_emit_bind]
  constructor
  · rintro ⟨⟨hp, _⟩, hall⟩
    refine ⟨hp, hall _ ?_⟩
    rw [Traced.value_bind, value_SecSwapInt32Ptr hp, ← ofNat_sub_sub hlength hp]
    rfl
  · rintro ⟨hp, hone⟩
    refine ⟨⟨hp, ?_, Traced.only_pure _⟩, ?_⟩
    · rw [toNat_ofNat_sub hlength]
      change 4 ≤ _
      omega
    · intro a ha
      rw [Traced.value_bind, value_SecSwapInt32Ptr hp] at ha
      cases ha
      rw [← ofNat_sub_sub hlength hp] at hone
      exact hone

theorem sound_processChunks_iff (hformat : format > kSecValidUpdateFormatG2)
    (hlength : data.length < 2 ^ 63) (plistCount : Nat) {plistProcessed p : Nat}
    (hp : p ≤ data.length) (progress : UpdateProgress σ) :
    Only (UpdateEvent.Sound data)
        (processChunks host data format dataLength plistCount plistProcessed p
          (UInt64.ofNat (data.length - p)) progress) ↔
      ChunksFit host data plistCount plistProcessed p progress := by
  induction plistCount generalizing plistProcessed p progress with
  | zero =>
    rw [processChunks, ChunksFit]
    exact iff_of_true (Traced.only_pure _) trivial
  | succ plistCount ih =>
    rw [processChunks, ChunksFit]
    by_cases hend : p = data.length
    · rw [if_pos (by rw [hend, Nat.sub_self]; rfl)]
      exact iff_of_true (Traced.only_pure _) (.inl hend)
    · have hmore : UInt64.ofNat (data.length - p) ≠ 0 := by
        intro hzero
        have hnat := congrArg UInt64.toNat hzero
        rw [toNat_ofNat_sub hlength] at hnat
        change data.length - p = 0 at hnat
        omega
      rw [if_neg hmore, or_iff_right hend, takeWordG3, if_pos hformat,
        sound_takeWord_bind hlength]
      dsimp only
      by_cases hfit : p + 4 + word data p ≤ data.length
      · have hremaining : p + 4 + (UInt64.ofNat (data.length - (p + 4))).toNat = data.length := by
          rw [toNat_ofNat_sub hlength]
          omega
        have hbound : word data p ≤ (UInt64.ofNat (data.length - (p + 4))).toNat := by
          rw [toNat_ofNat_sub hlength]
          omega
        rw [and_iff_right (by omega : p + 4 ≤ data.length), and_iff_right hfit,
          sound_chunkDictionary_bind hremaining (by rw [toNat_ofNat_word]; exact hbound)]
        simp only [toNat_ofNat_word, ofNat_word_toUInt64, ofNat_sub_sub hlength hfit]
        rw [plistAt]
        cases (if word data p < INT_MAX then
          host.dictionary ((data.drop (p + 4)).take (word data p)) else none) with
        | none =>
          dsimp only
          rw [Traced.only_emit_bind, ih hfit]
          exact and_iff_right hbound
        | some update =>
          have hingest : UpdateEvent.Sound data (.ingest (p + 4) (word data p)) ↔
              p + 4 + word data p ≤ 4 + word data 0 := and_iff_right (by omega)
          have hsubtract : UpdateEvent.Sound data
              (.subtract (UInt64.ofNat (data.length - (p + 4))).toNat (word data p)) := hbound
          generalize (UInt64.ofNat (data.length - (p + 4))).toNat = remaining at hsubtract
          dsimp only
          cases processChunk host (plistProcessed + 1) update progress with
          | wrongGeneration =>
            split
            case isTrue hingests => simp [Traced.only_emit_bind, hingest, hingests]
            case isFalse hingests => simp [hingests]
          | next skipRest progress' =>
            cases skipRest with
            | true =>
              split
              case isTrue hingests =>
                simp [Traced.only_emit_bind, hingest, hsubtract, hingests]
              case isFalse hingests => simp [Traced.only_emit_bind, hsubtract, hingests]
            | false =>
              split
              case isTrue hingests =>
                simp [Traced.only_emit_bind, hingest, hsubtract, hingests, ih hfit]
              case isFalse hingests =>
                simp [Traced.only_emit_bind, hsubtract, hingests, ih hfit]
      · refine iff_of_false ?_ (fun h => hfit h.1)
        rintro ⟨hheader, hrest⟩
        have hbound : ¬ word data p ≤ (UInt64.ofNat (data.length - (p + 4))).toNat := by
          rw [toNat_ofNat_sub hlength]
          omega
        rw [chunkDictionary, if_neg (fun h => hbound (by rw [toNat_ofNat_word] at h; exact h.1)),
          Traced.only_pure_bind, Traced.only_emit_bind, toNat_ofNat_word] at hrest
        exact hbound hrest.1

theorem sound_processChunks_single (hformat : ¬ format > kSecValidUpdateFormatG2)
    (hlength : data.length < 2 ^ 63) (hfit : 4 + word data 0 ≤ data.length)
    (progress : UpdateProgress σ) :
    Only (UpdateEvent.Sound data)
      (processChunks host data format (UInt32.ofNat (word data 0)) 1 0 4
        (UInt64.ofNat (data.length - 4)) progress) := by
  have hremaining : 4 + (UInt64.ofNat (data.length - 4)).toNat = data.length := by
    rw [toNat_ofNat_sub hlength]
    omega
  have hbound : word data 0 ≤ (UInt64.ofNat (data.length - 4)).toNat := by
    rw [toNat_ofNat_sub hlength]
    omega
  have hingest : UpdateEvent.Sound data (.ingest 4 (word data 0)) := ⟨le_rfl, le_rfl⟩
  have hsubtract : UpdateEvent.Sound data
      (.subtract (UInt64.ofNat (data.length - 4)).toNat (word data 0)) := hbound
  rw [processChunks]
  split
  case isTrue => exact Traced.only_pure _
  case isFalse =>
    rw [takeWordG3, if_neg hformat, Traced.only_pure_bind]
    dsimp only
    rw [sound_chunkDictionary_bind hremaining (by rw [toNat_ofNat_word]; exact hbound)]
    simp only [toNat_ofNat_word, processChunks]
    generalize (UInt64.ofNat (data.length - 4)).toNat = remaining at hsubtract
    cases (if word data 0 < INT_MAX then
      host.dictionary ((data.drop 4).take (word data 0)) else none) with
    | none =>
      dsimp only
      rw [Traced.only_emit_bind]
      exact ⟨hsubtract, Traced.only_pure _⟩
    | some update =>
      dsimp only
      cases processChunk host (0 + 1) update progress with
      | wrongGeneration =>
        split
        case isTrue => simp [Traced.only_emit_bind, hingest]
        case isFalse => exact Traced.only_pure _
      | next skipRest progress' =>
        split
        case isTrue => simp [Traced.only_emit_bind, hingest, hsubtract]
        case isFalse => simp [Traced.only_emit_bind, hsubtract]

/-- So many property lists, each behind its length, are within the signed data. -/
def Framed (data : List UInt8) : Nat → Nat → Prop
  | 0, p => p ≤ 4 + word data 0
  | plistCount + 1, p => Framed data plistCount (p + 4 + word data p)

theorem Framed.le {plistCount p : Nat} (h : Framed data plistCount p) : p ≤ 4 + word data 0 := by
  induction plistCount generalizing p with
  | zero => exact h
  | succ plistCount ih =>
    have hnext := ih h
    omega

theorem Framed.chunksFit (hsigned : 4 + word data 0 ≤ data.length) {plistCount p : Nat}
    (h : Framed data plistCount p) (plistProcessed : Nat) (progress : UpdateProgress σ) :
    ChunksFit host data plistCount plistProcessed p progress := by
  induction plistCount generalizing p plistProcessed progress with
  | zero => trivial
  | succ plistCount ih =>
    have hnext := @Framed.le data plistCount _ h
    rw [ChunksFit]
    refine .inr ⟨hnext.trans hsigned, ?_⟩
    split
    case h_1 => exact ih h _ _
    case h_2 =>
      refine ⟨fun _ => hnext, ?_⟩
      split
      case h_1 => trivial
      case h_2 => trivial
      case h_3 => exact ih h _ _
end

def UpdateProgress.start (dbc : DbConnection σ) : UpdateProgress σ :=
  { ok := true, version := 0, generation := 0, result := false, dbc }

/-- In a verified update the format G2 leaves nothing to go wrong, and from G3 on the property
lists have to fit. -/
theorem processData_sound_iff (host : UpdateHost κ σ) (dbc : DbConnection σ) (format : Int)
    (cmsVerify : List UInt8 → List UInt8 → Bool) (updateData : CFData)
    (h : (SecRevocationDbVerifyUpdate cmsVerify updateData).value = some true) :
    Only (UpdateEvent.Sound updateData.bytes)
        (SecValidUpdateProcessData host dbc format updateData) ↔
      format ≤ kSecValidUpdateFormatG2 ∨
        ChunksFit host updateData.bytes (word updateData.bytes 4) 0 8 (.start dbc) := by
  have hverified := word_le_of_verifyUpdate h
  have hlength := updateData.length_lt
  have hstart : takeWord updateData.bytes 0 (UInt64.ofNat updateData.bytes.length) =
      takeWord updateData.bytes 0 (UInt64.ofNat (updateData.bytes.length - 0)) := rfl
  have hdata := toNat_ofNat_word updateData.bytes 0
  rw [SecValidUpdateProcessData]
  dsimp only
  by_cases hold : format < 2
  · rw [if_pos hold]
    exact iff_of_true (Traced.only_pure _) (.inl (by rw [kSecValidUpdateFormatG2]; omega))
  rw [if_neg hold, if_neg (by omega), hstart, sound_takeWord_bind hlength,
    and_iff_right (by omega)]
  dsimp only
  by_cases hformat : format > kSecValidUpdateFormatG2
  · rw [takeWordG3, if_pos hformat, sound_takeWord_bind hlength, and_iff_right (by omega)]
    dsimp only
    rw [or_iff_right (not_le.mpr hformat), if_neg (by rw [hdata, toNat_ofNat_sub hlength]; omega),
      Traced.only_bind, and_iff_left (fun _ _ => Traced.only_pure _),
      sound_processChunks_iff hformat hlength _ (by omega), toNat_ofNat_word]
    rfl
  · rw [takeWordG3, if_neg hformat, Traced.only_pure_bind]
    dsimp only
    rw [if_neg (by rw [hdata, toNat_ofNat_sub hlength]; omega),
      Traced.only_bind, and_iff_left (fun _ _ => Traced.only_pure _)]
    exact iff_of_true (sound_processChunks_single hformat hlength (by omega) _)
      (.inl (not_lt.mp hformat))

def noPlists : UpdateHost Unit Unit where
  dictionary _ := none
  expectedGeneration := 1
  applyUpdate _ _ _ database := (database, true)
  setHashes _ database := (database, true)

/-- One property list is announced with nine octets, and six remain. -/
def overlongUpdate : CFData where
  bytes := [0, 0, 0, 8, 0, 0, 0, 1, 0, 0, 0, 9, 0, 0, 0, 2, 0x30, 0]
  length_lt := by decide

theorem overlong_wraps :
    (SecRevocationDbVerifyUpdate (fun _ _ => true) overlongUpdate).value = some true ∧
      ¬ Only (UpdateEvent.Sound overlongUpdate.bytes)
        (SecValidUpdateProcessData noPlists ⟨0, ()⟩ 3 overlongUpdate) := by
  constructor
  · decide +kernel
  · intro honly
    have hwraps : UpdateEvent.subtract 6 9 ∈
        (SecValidUpdateProcessData noPlists ⟨0, ()⟩ 3 overlongUpdate).events := by decide +kernel
    have hle : 9 ≤ 6 := honly _ hwraps
    exact absurd hle (by decide)

def framedUpdate : CFData where
  bytes := [0, 0, 0, 10, 0, 0, 0, 1, 0, 0, 0, 2, 0x62, 0x70, 0, 0, 0, 2, 0x30, 0]
  length_lt := by decide

theorem processData_sound_framed :
    Only (UpdateEvent.Sound framedUpdate.bytes)
      (SecValidUpdateProcessData noPlists ⟨0, ()⟩ 3 framedUpdate) := by
  apply (processData_sound_iff noPlists ⟨0, ()⟩ 3 (fun _ _ => true) framedUpdate
    (by decide +kernel)).mpr
  right
  apply Framed.chunksFit
  · decide +kernel
  · change _ ≤ _
    decide +kernel
end SecurityFramework.Trustd
