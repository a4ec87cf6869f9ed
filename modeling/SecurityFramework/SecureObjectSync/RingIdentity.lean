import SecurityFramework.SecureObjectSync.Ring

/-!
# The identity of rings

Two rings are meant to be the same when their names, types and identifiers are.
-/

namespace SecurityFramework
def sNameKey : CFString := cfstr "RingName"

def sTypeKey : CFString := cfstr "RingType"

def sIdentifierKey : CFString := cfstr "Identifier"

def sRingVersionKey : CFString := cfstr "RingVersion"

abbrev SOSRingType := BitVec 32

def kSOSRingBackup : SOSRingType := 1

def kSOSRingPeerKeyed : SOSRingType := 2

def kSOSRingTypeCount : SOSRingType := 6

def kSOSRingTypeError : SOSRingType := 0xfbad

def ringVersion : BitVec 32 := 1

def asString : Plist → Option CFString
  | .string units => some units
  | _ => none

def SOSRingGetName (ring : SOSRing) : Option CFString :=
  (cfDictionaryGetValue ring.signedInformation sNameKey).bind asString

/-- The low 32 bits of the number. -/
def SOSRingGetType (ring : SOSRing) : SOSRingType :=
  match (cfDictionaryGetValue ring.signedInformation sTypeKey).bind asNumber with
  | some ringtype => ringtype.setWidth 32
  | none => kSOSRingTypeError

/-- Whatever is there is taken for a number. -/
def SOSRingGetVersion (ring : SOSRing) : BitVec 32 :=
  match (cfDictionaryGetValue ring.signedInformation sRingVersionKey).bind asNumber with
  | some version => version.setWidth 32
  | none => 0

/-- Whatever is there is taken for a string. -/
def SOSRingGetIdentifier (ring : SOSRing) : Option Plist :=
  cfDictionaryGetValue ring.signedInformation sIdentifierKey

def SOSRingIsSame (ring1 ring2 : SOSRing) : Bool :=
  match SOSRingGetName ring1, SOSRingGetName ring2 with
  | some name1, some name2 =>
    if name1 ≠ name2 then false
    else
      let type1 := SOSRingGetType ring1
      -- the accessor is not the one of the line before
      let type2 := SOSRingGetVersion ring2
      if type1 = 0 ∨ type2 = 0 then false
      else if type1 ≠ type2 then false
      else
        match SOSRingGetIdentifier ring1, SOSRingGetIdentifier ring2 with
        | some identifier1, some identifier2 => cfEqual identifier1 identifier2
        | _, _ => false
  | _, _ => false

namespace SOSRing
def setSigned (ring : SOSRing) (key : CFString) (value : Plist) : SOSRing :=
  { ring with signedInformation := cfDictionarySetValue ring.signedInformation key value }

def setUnsigned (ring : SOSRing) (key : CFString) (value : Plist) : SOSRing :=
  { ring with unSignedInformation := cfDictionarySetValue ring.unSignedInformation key value }
end SOSRing

def SOSRingSetName (ring : SOSRing) (name : CFString) : SOSRing :=
  ring.setSigned sNameKey (.string name)

def SOSRingSetType (ring : SOSRing) (ringtype : SOSRingType) : SOSRing :=
  ring.setSigned sTypeKey (.number (ringtype.signExtend 64))

def SOSRingSetVersion (ring : SOSRing) : SOSRing :=
  ring.setSigned sRingVersionKey (.number (ringVersion.signExtend 64))

def SOSRingSetIdentifier (ring : SOSRing) (uuid : CFString) : SOSRing :=
  ring.setSigned sIdentifierKey (.string uuid)

def SOSRingCreate_Internal (name : Option CFString) (type : SOSRingType) (uuid : CFString)
    (seconds : BitVec 32) : Option SOSRing := do
  let name ← name
  if type < kSOSRingTypeCount then
    let ring := SOSRingSetName ⟨[], [], []⟩ name
    let ring := SOSRingSetType ring type
    let ring := SOSRingSetVersion ring
    let ring := SOSRingSetIdentifier ring uuid
    let ring := ring.setUnsigned sApplicantsKey (.set [])
    let ring := ring.setUnsigned sRejectionsKey (.set [])
    let ring := SOSRingSetGeneration ring (SOSGenerationCreate seconds)
    some (ring.setSigned sPeerIDsKey (.set []))
  else none

/-- What the accessors take for a number and for a string is one. -/
structure SOSRing.WellTyped (ring : SOSRing) : Prop where
  version : ∀ value, cfDictionaryGetValue ring.signedInformation sRingVersionKey = some value →
    ∃ number, value = .number number
  identifier : ∀ value, SOSRingGetIdentifier ring = some value → ∃ string, value = .string string

def SOSRing.Agree (ring1 ring2 : SOSRing) : Prop :=
  SOSRingGetName ring1 = SOSRingGetName ring2 ∧ SOSRingGetType ring1 = SOSRingGetType ring2 ∧
    SOSRingGetIdentifier ring1 = SOSRingGetIdentifier ring2

/-- Among these rings `SOSRingIsSame` is an equivalence relation, and says which rings agree. -/
def IdentifiesRings (rings : Set SOSRing) : Prop :=
  Equivalence (fun ring1 ring2 : rings => SOSRingIsSame ring1 ring2 = true) ∧
    ∀ ring1 ∈ rings, ∀ ring2 ∈ rings,
      SOSRingIsSame ring1 ring2 = true ↔ ring1.Agree ring2

/-- The ring has a name, an identifier and a type, and its version is its type. -/
structure SOSRing.VersionIsType (ring : SOSRing) : Prop where
  named : SOSRingGetName ring ≠ none
  identified : SOSRingGetIdentifier ring ≠ none
  typed : SOSRingGetType ring ≠ 0
  version : SOSRingGetVersion ring = SOSRingGetType ring

variable {ring ring1 ring2 : SOSRing}

theorem SOSRingIsSame_iff (htyped : ring1.WellTyped) :
    SOSRingIsSame ring1 ring2 = true ↔
      SOSRingGetName ring1 ≠ none ∧ SOSRingGetName ring1 = SOSRingGetName ring2 ∧
        SOSRingGetType ring1 ≠ 0 ∧ SOSRingGetType ring1 = SOSRingGetVersion ring2 ∧
        SOSRingGetIdentifier ring1 ≠ none ∧
        SOSRingGetIdentifier ring1 = SOSRingGetIdentifier ring2 := by
  have hidentifier := htyped.identifier
  rw [SOSRingIsSame]
  cases SOSRingGetName ring1 with
  | none => simp
  | some name1 =>
    cases SOSRingGetName ring2 with
    | none => simp
    | some name2 =>
      cases hfirst : SOSRingGetIdentifier ring1 with
      | none => simp
      | some identifier1 =>
        obtain ⟨string, rfl⟩ := hidentifier identifier1 hfirst
        cases SOSRingGetIdentifier ring2 with
        | none => simp
        | some identifier2 =>
          have hequal : cfEqual (.string string) identifier2 = true ↔
              (.string string : Plist) = identifier2 := by
            cases identifier2 <;> simp [cfEqual]
          by_cases htype : SOSRingGetType ring1 = SOSRingGetVersion ring2
          · simp [htype, hequal]
          · simp [htype]

/-- A ring is the same as itself where its version happens to be its type. -/
theorem SOSRingIsSame_self_iff (htyped : ring.WellTyped) :
    SOSRingIsSame ring ring = true ↔ ring.VersionIsType := by
  rw [SOSRingIsSame_iff htyped]
  constructor
  · rintro ⟨hname, -, htype, hversion, hidentifier, -⟩
    exact ⟨hname, hidentifier, htype, hversion.symm⟩
  · rintro ⟨hname, hidentifier, htype, hversion⟩
    exact ⟨hname, rfl, htype, hversion.symm, hidentifier, rfl⟩

theorem SOSRingIsSame_iff_agree (htyped : ring1.WellTyped) (hring1 : ring1.VersionIsType)
    (hring2 : ring2.VersionIsType) :
    SOSRingIsSame ring1 ring2 = true ↔ ring1.Agree ring2 := by
  rw [SOSRingIsSame_iff htyped, hring2.version]
  constructor
  · rintro ⟨-, hname, -, htype, -, hidentifier⟩
    exact ⟨hname, htype, hidentifier⟩
  · rintro ⟨hname, htype, hidentifier⟩
    exact ⟨hring1.named, hname, hring1.typed, htype, hring1.identified, hidentifier⟩

theorem SOSRing.agree_equivalence : Equivalence SOSRing.Agree where
  refl _ := ⟨rfl, rfl, rfl⟩
  symm h := ⟨h.1.symm, h.2.1.symm, h.2.2.symm⟩
  trans h₁ h₂ := ⟨h₁.1.trans h₂.1, h₁.2.1.trans h₂.2.1, h₁.2.2.trans h₂.2.2⟩

theorem identifiesRings_iff (rings : Set SOSRing) (htyped : ∀ ring ∈ rings, ring.WellTyped) :
    IdentifiesRings rings ↔ ∀ ring ∈ rings, ring.VersionIsType := by
  constructor
  · rintro ⟨hequivalence, -⟩ ring hring
    exact (SOSRingIsSame_self_iff (htyped ring hring)).mp (hequivalence.refl ⟨ring, hring⟩)
  · intro hall
    have hagree : ∀ ring1 ∈ rings, ∀ ring2 ∈ rings,
        (SOSRingIsSame ring1 ring2 = true ↔ ring1.Agree ring2) := by
      intro ring1 hring1 ring2 hring2
      exact SOSRingIsSame_iff_agree (htyped ring1 hring1) (hall ring1 hring1) (hall ring2 hring2)
    have hsame : (fun ring1 ring2 : rings => SOSRingIsSame ring1 ring2 = true) =
        fun ring1 ring2 : rings => SOSRing.Agree ring1 ring2 := by
      funext ring1 ring2
      exact propext (hagree ring1 ring1.property ring2 ring2.property)
    refine ⟨?_, hagree⟩
    rw [hsame]
    exact SOSRing.agree_equivalence.comap Subtype.val

/-- A new ring has the type that was asked for, and the one version there is. -/
theorem signedInformation_create {name uuid : CFString} {type : SOSRingType} {seconds : BitVec 32}
    (hcreate : SOSRingCreate_Internal (some name) type uuid seconds = some ring) :
    cfDictionaryGetValue ring.signedInformation sNameKey = some (.string name) ∧
      cfDictionaryGetValue ring.signedInformation sTypeKey =
        some (.number (type.signExtend 64)) ∧
      cfDictionaryGetValue ring.signedInformation sRingVersionKey =
        some (.number (ringVersion.signExtend 64)) ∧
      cfDictionaryGetValue ring.signedInformation sIdentifierKey = some (.string uuid) := by
  simp only [SOSRingCreate_Internal, Option.bind_eq_bind, Option.bind_some] at hcreate
  split at hcreate
  case isFalse => cases hcreate
  case isTrue =>
    cases hcreate
    simp only [SOSRing.setSigned, SOSRing.setUnsigned, SOSRingSetGeneration, SOSRingSetIdentifier,
      SOSRingSetVersion, SOSRingSetType, SOSRingSetName]
    refine ⟨?_, ?_, ?_, ?_⟩ <;>
      simp (disch := decide) only [cfDictionaryGetValue_setValue,
        cfDictionaryGetValue_setValue_of_ne]

theorem wellTyped_create {name uuid : CFString} {type : SOSRingType} {seconds : BitVec 32}
    (hcreate : SOSRingCreate_Internal (some name) type uuid seconds = some ring) :
    ring.WellTyped := by
  obtain ⟨-, -, hversion, hidentifier⟩ := signedInformation_create hcreate
  constructor
  · intro value hvalue
    exact ⟨_, Option.some.inj (hvalue.symm.trans hversion)⟩
  · intro value hvalue
    exact ⟨_, Option.some.inj (hvalue.symm.trans hidentifier)⟩

theorem versionIsType_create_iff {name uuid : CFString} {type : SOSRingType} {seconds : BitVec 32}
    (hcreate : SOSRingCreate_Internal (some name) type uuid seconds = some ring) :
    ring.VersionIsType ↔ type = kSOSRingBackup := by
  obtain ⟨hname, htype, hversion, hidentifier⟩ := signedInformation_create hcreate
  have hgetType : SOSRingGetType ring = type := by
    rw [SOSRingGetType, htype]
    apply BitVec.eq_of_getLsbD_eq
    intro i hi
    have hin : i < 64 := by omega
    simp [asNumber, BitVec.getElem_signExtend, hi, hin]
  have hgetVersion : SOSRingGetVersion ring = kSOSRingBackup := by
    rw [SOSRingGetVersion, hversion]
    rfl
  constructor
  · intro hring
    rw [← hgetType, ← hring.version, hgetVersion]
  · rintro rfl
    refine ⟨?_, ?_, ?_, ?_⟩
    · simp [SOSRingGetName, hname, asString]
    · simp [SOSRingGetIdentifier, hidentifier]
    · rw [hgetType]
      decide
    · rw [hgetType, hgetVersion]

def sampleUuid : CFString := cfstr "0F4E3E6B-0000-4000-8000-000000000000"

/-- A new ring of another type is not the same as itself. -/
theorem identifiesRings_false :
    ∃ ring, SOSRingCreate_Internal (some (cfstr "Wifi")) kSOSRingPeerKeyed sampleUuid 0 =
        some ring ∧ SOSRingIsSame ring ring = false ∧ ¬ IdentifiesRings {ring} := by
  have hsome : (SOSRingCreate_Internal (some (cfstr "Wifi")) kSOSRingPeerKeyed sampleUuid
      0).isSome = true := by decide +kernel
  obtain ⟨ring, hring⟩ := Option.isSome_iff_exists.mp hsome
  have hself : ¬ SOSRingIsSame ring ring = true := by
    rw [SOSRingIsSame_self_iff (wellTyped_create hring), versionIsType_create_iff hring]
    decide
  refine ⟨ring, hring, Bool.eq_false_iff.mpr hself, ?_⟩
  intro hidentifies
  exact hself (hidentifies.1.refl ⟨ring, rfl⟩)

theorem identifiesRings_iff_backup :
    ∃ ring, SOSRingCreate_Internal (some (cfstr "Wifi")) kSOSRingBackup sampleUuid 0 =
      some ring ∧ IdentifiesRings {ring} := by
  have hsome : (SOSRingCreate_Internal (some (cfstr "Wifi")) kSOSRingBackup sampleUuid
      0).isSome = true := by decide +kernel
  obtain ⟨ring, hring⟩ := Option.isSome_iff_exists.mp hsome
  refine ⟨ring, hring, (identifiesRings_iff {ring} ?_).mpr ?_⟩
  · rintro other rfl
    exact wellTyped_create hring
  · rintro other rfl
    exact (versionIsType_create_iff hring).mpr rfl
end SecurityFramework
