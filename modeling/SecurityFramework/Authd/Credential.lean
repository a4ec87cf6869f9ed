import SecurityFramework.Library.Crc
import SecurityFramework.Library.KeyedSet
import SecurityFramework.Library.Memory

/-!
# Credentials

A credential is for a user or, in least privileged mode, for a right.
-/

namespace SecurityFramework.Authd
def xorout : BitVec 64 := 0xffffffffffffffff

def crcTable64 : List (BitVec 64) :=
  [0x0000000000000000, 0x42f0e1eba9ea3693, 0x85e1c3d753d46d26, 0xc711223cfa3e5bb5,
    0x493366450e42ecdf, 0x0bc387aea7a8da4c, 0xccd2a5925d9681f9, 0x8e224479f47cb76a,
    0x9266cc8a1c85d9be, 0xd0962d61b56fef2d, 0x17870f5d4f51b498, 0x5577eeb6e6bb820b,
    0xdb55aacf12c73561, 0x99a54b24bb2d03f2, 0x5eb4691841135847, 0x1c4488f3e8f96ed4,
    0x663d78ff90e185ef, 0x24cd9914390bb37c, 0xe3dcbb28c335e8c9, 0xa12c5ac36adfde5a,
    0x2f0e1eba9ea36930, 0x6dfeff5137495fa3, 0xaaefdd6dcd770416, 0xe81f3c86649d3285,
    0xf45bb4758c645c51, 0xb6ab559e258e6ac2, 0x71ba77a2dfb03177, 0x334a9649765a07e4,
    0xbd68d2308226b08e, 0xff9833db2bcc861d, 0x388911e7d1f2dda8, 0x7a79f00c7818eb3b,
    0xcc7af1ff21c30bde, 0x8e8a101488293d4d, 0x499b3228721766f8, 0x0b6bd3c3dbfd506b,
    0x854997ba2f81e701, 0xc7b97651866bd192, 0x00a8546d7c558a27, 0x4258b586d5bfbcb4,
    0x5e1c3d753d46d260, 0x1cecdc9e94ace4f3, 0xdbfdfea26e92bf46, 0x990d1f49c77889d5,
    0x172f5b3033043ebf, 0x55dfbadb9aee082c, 0x92ce98e760d05399, 0xd03e790cc93a650a,
    0xaa478900b1228e31, 0xe8b768eb18c8b8a2, 0x2fa64ad7e2f6e317, 0x6d56ab3c4b1cd584,
    0xe374ef45bf6062ee, 0xa1840eae168a547d, 0x66952c92ecb40fc8, 0x2465cd79455e395b,
    0x3821458aada7578f, 0x7ad1a461044d611c, 0xbdc0865dfe733aa9, 0xff3067b657990c3a,
    0x711223cfa3e5bb50, 0x33e2c2240a0f8dc3, 0xf4f3e018f031d676, 0xb60301f359dbe0e5,
    0xda050215ea6c212f, 0x98f5e3fe438617bc, 0x5fe4c1c2b9b84c09, 0x1d14202910527a9a,
    0x93366450e42ecdf0, 0xd1c685bb4dc4fb63, 0x16d7a787b7faa0d6, 0x5427466c1e109645,
    0x4863ce9ff6e9f891, 0x0a932f745f03ce02, 0xcd820d48a53d95b7, 0x8f72eca30cd7a324,
    0x0150a8daf8ab144e, 0x43a04931514122dd, 0x84b16b0dab7f7968, 0xc6418ae602954ffb,
    0xbc387aea7a8da4c0, 0xfec89b01d3679253, 0x39d9b93d2959c9e6, 0x7b2958d680b3ff75,
    0xf50b1caf74cf481f, 0xb7fbfd44dd257e8c, 0x70eadf78271b2539, 0x321a3e938ef113aa,
    0x2e5eb66066087d7e, 0x6cae578bcfe24bed, 0xabbf75b735dc1058, 0xe94f945c9c3626cb,
    0x676dd025684a91a1, 0x259d31cec1a0a732, 0xe28c13f23b9efc87, 0xa07cf2199274ca14,
    0x167ff3eacbaf2af1, 0x548f120162451c62, 0x939e303d987b47d7, 0xd16ed1d631917144,
    0x5f4c95afc5edc62e, 0x1dbc74446c07f0bd, 0xdaad56789639ab08, 0x985db7933fd39d9b,
    0x84193f60d72af34f, 0xc6e9de8b7ec0c5dc, 0x01f8fcb784fe9e69, 0x43081d5c2d14a8fa,
    0xcd2a5925d9681f90, 0x8fdab8ce70822903, 0x48cb9af28abc72b6, 0x0a3b7b1923564425,
    0x70428b155b4eaf1e, 0x32b26afef2a4998d, 0xf5a348c2089ac238, 0xb753a929a170f4ab,
    0x3971ed50550c43c1, 0x7b810cbbfce67552, 0xbc902e8706d82ee7, 0xfe60cf6caf321874,
    0xe224479f47cb76a0, 0xa0d4a674ee214033, 0x67c58448141f1b86, 0x253565a3bdf52d15,
    0xab1721da49899a7f, 0xe9e7c031e063acec, 0x2ef6e20d1a5df759, 0x6c0603e6b3b7c1ca,
    0xf6fae5c07d3274cd, 0xb40a042bd4d8425e, 0x731b26172ee619eb, 0x31ebc7fc870c2f78,
    0xbfc9838573709812, 0xfd39626eda9aae81, 0x3a28405220a4f534, 0x78d8a1b9894ec3a7,
    0x649c294a61b7ad73, 0x266cc8a1c85d9be0, 0xe17dea9d3263c055, 0xa38d0b769b89f6c6,
    0x2daf4f0f6ff541ac, 0x6f5faee4c61f773f, 0xa84e8cd83c212c8a, 0xeabe6d3395cb1a19,
    0x90c79d3fedd3f122, 0xd2377cd44439c7b1, 0x15265ee8be079c04, 0x57d6bf0317edaa97,
    0xd9f4fb7ae3911dfd, 0x9b041a914a7b2b6e, 0x5c1538adb04570db, 0x1ee5d94619af4648,
    0x02a151b5f156289c, 0x4051b05e58bc1e0f, 0x87409262a28245ba, 0xc5b073890b687329,
    0x4b9237f0ff14c443, 0x0962d61b56fef2d0, 0xce73f427acc0a965, 0x8c8315cc052a9ff6,
    0x3a80143f5cf17f13, 0x7870f5d4f51b4980, 0xbf61d7e80f251235, 0xfd913603a6cf24a6,
    0x73b3727a52b393cc, 0x31439391fb59a55f, 0xf652b1ad0167feea, 0xb4a25046a88dc879,
    0xa8e6d8b54074a6ad, 0xea16395ee99e903e, 0x2d071b6213a0cb8b, 0x6ff7fa89ba4afd18,
    0xe1d5bef04e364a72, 0xa3255f1be7dc7ce1, 0x64347d271de22754, 0x26c49cccb40811c7,
    0x5cbd6cc0cc10fafc, 0x1e4d8d2b65facc6f, 0xd95caf179fc497da, 0x9bac4efc362ea149,
    0x158e0a85c2521623, 0x577eeb6e6bb820b0, 0x906fc95291867b05, 0xd29f28b9386c4d96,
    0xcedba04ad0952342, 0x8c2b41a1797f15d1, 0x4b3a639d83414e64, 0x09ca82762aab78f7,
    0x87e8c60fded7cf9d, 0xc51827e4773df90e, 0x020905d88d03a2bb, 0x40f9e43324e99428,
    0x2cffe7d5975e55e2, 0x6e0f063e3eb46371, 0xa91e2402c48a38c4, 0xebeec5e96d600e57,
    0x65cc8190991cb93d, 0x273c607b30f68fae, 0xe02d4247cac8d41b, 0xa2dda3ac6322e288,
    0xbe992b5f8bdb8c5c, 0xfc69cab42231bacf, 0x3b78e888d80fe17a, 0x7988096371e5d7e9,
    0xf7aa4d1a85996083, 0xb55aacf12c735610, 0x724b8ecdd64d0da5, 0x30bb6f267fa73b36,
    0x4ac29f2a07bfd00d, 0x08327ec1ae55e69e, 0xcf235cfd546bbd2b, 0x8dd3bd16fd818bb8,
    0x03f1f96f09fd3cd2, 0x41011884a0170a41, 0x86103ab85a2951f4, 0xc4e0db53f3c36767,
    0xd8a453a01b3a09b3, 0x9a54b24bb2d03f20, 0x5d45907748ee6495, 0x1fb5719ce1045206,
    0x919735e51578e56c, 0xd367d40ebc92d3ff, 0x1476f63246ac884a, 0x568617d9ef46bed9,
    0xe085162ab69d5e3c, 0xa275f7c11f7768af, 0x6564d5fde549331a, 0x279434164ca30589,
    0xa9b6706fb8dfb2e3, 0xeb46918411358470, 0x2c57b3b8eb0bdfc5, 0x6ea7525342e1e956,
    0x72e3daa0aa188782, 0x30133b4b03f2b111, 0xf7021977f9cceaa4, 0xb5f2f89c5026dc37,
    0x3bd0bce5a45a6b5d, 0x79205d0e0db05dce, 0xbe317f32f78e067b, 0xfcc19ed95e6430e8,
    0x86b86ed5267cdbd3, 0xc4488f3e8f96ed40, 0x0359ad0275a8b6f5, 0x41a94ce9dc428066,
    0xcf8b0890283e370c, 0x8d7be97b81d4019f, 0x4a6acb477bea5a2a, 0x089a2aacd2006cb9,
    0x14dea25f3af9026d, 0x562e43b4931334fe, 0x913f6188692d6f4b, 0xd3cf8063c0c759d8,
    0x5dedc41a34bbeeb2, 0x1f1d25f19d51d821, 0xd80c07cd676f8394, 0x9afce626ce85b507]

def crc64Init : BitVec 64 := xorout

def crc64Final (crc : BitVec 64) : BitVec 64 := crc ^^^ xorout

def crc64Update (crc : BitVec 64) (buf : List UInt8) : BitVec 64 :=
  buf.foldl (fun crc octet =>
    crcTable64.getD (((crc >>> 56) ^^^ octet.toBitVec.setWidth 64) &&& 0xff).toNat 0 ^^^ (crc <<< 8))
    crc

/-- The name is the octets of a C string, without the one that ends it. -/
structure Credential where
  right : Bool
  uid : UInt32
  name : List UInt8
  name_ne_zero : 0 ∉ name
  valid : Bool
  shared : Bool

def uidOctets (uid : UInt32) : List UInt8 := (Memory.toBE 4 uid.toNat).reverse

def credentialHash (cred : Credential) : BitVec 64 :=
  let crc := crc64Init
  let crc := if cred.right then crc64Update crc cred.name
    else crc64Update crc (uidOctets cred.uid)
  let crc := crc64Update crc [if cred.shared then 1 else 0]
  crc64Final crc

def credentialEqual (cred1 cred2 : Credential) : Bool :=
  credentialHash cred1 = credentialHash cred2

def credentialCreateWithCredential (srcCred : Credential) (shared : Bool) : Credential :=
  { srcCred with shared }

def credentialCreateWithRight (right : List UInt8) (h : 0 ∉ right) : Credential where
  right := true
  uid := -2
  name := right
  name_ne_zero := h
  valid := true
  shared := false

/-- A set asks for the hash and for equality, which is equality of the hashes. -/
abbrev CredentialSet := KeyedSet credentialHash

inductive Place where
  | session (index : Nat)
  | token (index : Nat)
  | credentials (engine : Nat)
  | effectiveCredentials (engine : Nat)
  deriving DecidableEq

abbrev CredentialSets := Place → CredentialSet

inductive SetCall where
  | create (place : Place)
  | setValue (place : Place) (cred : Credential)
  | addValue (place : Place) (cred : Credential)

def SetCall.perform : SetCall → CredentialSets → CredentialSets
  | .create place, sets => Function.update sets place (KeyedSet.empty credentialHash)
  | .setValue place cred, sets => Function.update sets place ((sets place).set cred)
  | .addValue place cred, sets => Function.update sets place ((sets place).add cred)

inductive CredentialOperation where
  | createEngine (engine token session : Nat)
  | setCredential (engine : Nat) (cred : Credential) (shared : Bool)
  | extend (engine token session : Nat) (leastPrivileged : Bool)

/-- No more than 128 credentials are gone through. -/
def credentialsIterate (set : CredentialSet) : List Credential := set.members.take 128

def engineCreate (engine token session : Nat) (sets : CredentialSets) : List SetCall :=
  [.create (.credentials engine), .create (.effectiveCredentials engine)] ++
    (credentialsIterate (sets (.session session))).map (.addValue (.effectiveCredentials engine)) ++
    ((credentialsIterate (sets (.token token))).filter fun cred => !cred.shared).map
      (.addValue (.credentials engine))

def engineSetCredential (engine : Nat) (cred : Credential) (shared : Bool) : List SetCall :=
  .setValue (.credentials engine) cred ::
    if shared then
      [.setValue (.credentials engine) (credentialCreateWithCredential cred true)]
    else []

def sessionSetCredential (session : Nat) (cred : Credential) : List SetCall :=
  if cred.valid then [.setValue (.session session) cred] else []

def extendRights (engine token session : Nat) (leastPrivileged : Bool) (sets : CredentialSets) :
    List SetCall :=
  (sets (.credentials engine)).members.flatMap fun cred =>
    if leastPrivileged && !cred.right then []
    else .setValue (.token token) cred ::
      if cred.shared then sessionSetCredential session cred else []

def CredentialOperation.calls : CredentialOperation → CredentialSets → List SetCall
  | .createEngine engine token session, sets => engineCreate engine token session sets
  | .setCredential engine cred shared, _ => engineSetCredential engine cred shared
  | .extend engine token session leastPrivileged, sets =>
    extendRights engine token session leastPrivileged sets

def performAll (calls : List SetCall) (sets : CredentialSets) : CredentialSets :=
  calls.foldl (fun sets call => call.perform sets) sets
end SecurityFramework.Authd

namespace SecurityFramework.Authd
/-- The terms of the generator of ECMA-182 below the leading one. -/
def generator64 : BitVec 64 := 0x42F0E1EBA9EA3693

def crcEntry64 (octet : BitVec 8) : BitVec 64 := crcTable64.getD octet.toNat 0

theorem isTable_crcEntry64 : Crc.IsTable generator64 crcEntry64 := by
  have hall : ∀ i : Fin (2 ^ 8), crcEntry64 (BitVec.ofFin i) =
      Crc.shifts generator64 8 ((BitVec.ofFin i).setWidth 64 <<< 56) := by decide +kernel
  intro octet
  exact hall octet.toFin

theorem toNat_and_ff (x : BitVec 64) (octet : BitVec 8) :
    ((x ^^^ octet.setWidth 64) &&& 0xff).toNat = (x.setWidth 8 ^^^ octet).toNat := by
  have hoctet := Nat.mod_eq_of_lt octet.isLt
  rw [BitVec.toNat_and, show (0xff : BitVec 64).toNat = 2 ^ 8 - 1 from rfl,
    Nat.and_two_pow_sub_one_eq_mod, BitVec.toNat_xor, BitVec.toNat_xor, Nat.xor_mod_two_pow,
    BitVec.toNat_setWidth, BitVec.toNat_setWidth,
    Nat.mod_mod_of_dvd octet.toNat (by decide : 2 ^ 8 ∣ 2 ^ 64), hoctet]

theorem crc64Update_eq (crc : BitVec 64) (buf : List UInt8) :
    crc64Update crc buf = Crc.updates crcEntry64 crc (buf.map UInt8.toBitVec) := by
  rw [crc64Update, Crc.updates, List.foldl_map]
  congr
  funext crc octet
  rw [Crc.update, crcEntry64, toNat_and_ff]

def hashedOctets (cred : Credential) : List UInt8 :=
  (if cred.right then cred.name else uidOctets cred.uid) ++ [if cred.shared then 1 else 0]

theorem credentialHash_eq (cred : Credential) :
    credentialHash cred = crc64Final
      (Crc.updates crcEntry64 crc64Init ((hashedOctets cred).map UInt8.toBitVec)) := by
  rw [credentialHash, ← crc64Update_eq, hashedOctets]
  cases cred.right
  · simp only [crc64Update, List.foldl_append, Bool.false_eq_true, if_false]
  · simp only [crc64Update, List.foldl_append, if_true]

noncomputable def hashedPoly (cred : Credential) : Polynomial (ZMod 2) :=
  Polynomial.X ^ (8 * (hashedOctets cred).length) * Crc.toPoly crc64Init +
    Polynomial.X ^ 64 * Crc.messagePoly ((hashedOctets cred).map UInt8.toBitVec)

def Collide (cred1 cred2 : Credential) : Prop :=
  Crc.generator generator64 ∣ hashedPoly cred1 - hashedPoly cred2

theorem crc64Final_injective : Function.Injective crc64Final := by
  intro x y h
  exact (BitVec.xor_left_inj xorout).mp h

theorem credentialEqual_iff (cred1 cred2 : Credential) :
    credentialEqual cred1 cred2 = true ↔ Collide cred1 cred2 := by
  rw [credentialEqual, decide_eq_true_eq, credentialHash_eq, credentialHash_eq,
    crc64Final_injective.eq_iff,
    Crc.updates_eq_iff (by decide) isTable_crcEntry64, List.length_map, List.length_map]
  rfl

def SameIdentity (cred1 cred2 : Credential) : Prop :=
  ((cred1.right = true ∧ cred2.right = true ∧ cred1.name = cred2.name) ∨
      (cred1.right = false ∧ cred2.right = false ∧ cred1.uid = cred2.uid)) ∧
    cred1.shared = cred2.shared

theorem SameIdentity.right_eq {cred1 cred2 : Credential} (h : SameIdentity cred1 cred2) :
    cred1.right = cred2.right := by
  obtain ⟨⟨hright, hright', _⟩ | ⟨hright, hright', _⟩, _⟩ := h
  · exact hright.trans hright'.symm
  · exact hright.trans hright'.symm

theorem SameIdentity.hashedOctets_eq {cred1 cred2 : Credential} (h : SameIdentity cred1 cred2) :
    hashedOctets cred1 = hashedOctets cred2 := by
  obtain ⟨⟨hright, hright', hname⟩ | ⟨hright, hright', huid⟩, hshared⟩ := h
  · rw [hashedOctets, hashedOctets, hright, hright', hname, hshared]
    simp only [if_true]
  · rw [hashedOctets, hashedOctets, hright, hright', huid, hshared]
    simp only [Bool.false_eq_true, if_false]

theorem SameIdentity.collide {cred1 cred2 : Credential} (h : SameIdentity cred1 cred2) :
    Collide cred1 cred2 := by
  rw [Collide, hashedPoly, hashedPoly, h.hashedOctets_eq, sub_self]
  exact dvd_zero _

/-- A call takes nothing out of a set, and keeps nothing out of it, but what is of the same
identity. -/
def SetCall.KeepsIdentities : SetCall → CredentialSets → Prop
  | .create _, _ => True
  | .setValue place cred, sets =>
    ∀ held ∈ (sets place).members, held ∉ ((sets place).set cred).members → SameIdentity held cred
  | .addValue place cred, sets =>
    cred ∉ ((sets place).add cred).members → ∃ held ∈ (sets place).members, SameIdentity held cred

def CallsKeepIdentities : List SetCall → CredentialSets → Prop
  | [], _ => True
  | call :: calls, sets =>
    call.KeepsIdentities sets ∧ CallsKeepIdentities calls (call.perform sets)

def RunKeepsIdentities : List CredentialOperation → CredentialSets → Prop
  | [], _ => True
  | operation :: operations, sets =>
    CallsKeepIdentities (operation.calls sets) sets ∧
      RunKeepsIdentities operations (performAll (operation.calls sets) sets)

def CredentialOperation.credentials : CredentialOperation → List Credential
  | .setCredential _ cred true => [cred, credentialCreateWithCredential cred true]
  | .setCredential _ cred false => [cred]
  | _ => []

def noCredentials : CredentialSets := fun _ => KeyedSet.empty credentialHash

section
variable {used : Set Credential} {sets : CredentialSets}

def HoldsOnly (used : Set Credential) (sets : CredentialSets) : Prop :=
  ∀ place, ∀ cred ∈ (sets place).members, cred ∈ used

def SetCall.OnlyOf (used : Set Credential) : SetCall → Prop
  | .create _ => True
  | .setValue _ cred => cred ∈ used
  | .addValue _ cred => cred ∈ used

theorem HoldsOnly.update (h : HoldsOnly used sets) {place : Place} {set : CredentialSet}
    (hset : ∀ cred ∈ set.members, cred ∈ used) : HoldsOnly used (Function.update sets place set) := by
  intro other cred hcred
  by_cases heq : other = place
  · subst heq
    rw [Function.update_self] at hcred
    exact hset cred hcred
  · rw [Function.update_of_ne heq] at hcred
    exact h other cred hcred

theorem HoldsOnly.perform (h : HoldsOnly used sets) {call : SetCall} (hcall : call.OnlyOf used) :
    HoldsOnly used (call.perform sets) := by
  cases call with
  | create place =>
    apply h.update
    intro cred hcred
    cases hcred
  | setValue place cred =>
    apply h.update
    intro held hheld
    obtain rfl | ⟨hheld, _⟩ := KeyedSet.mem_members_set.mp hheld
    · exact hcall
    · exact h place held hheld
  | addValue place cred =>
    apply h.update
    intro held hheld
    obtain hheld | ⟨rfl, _⟩ := KeyedSet.mem_members_add.mp hheld
    · exact h place held hheld
    · exact hcall

theorem SetCall.keepsIdentities
    (hused : ∀ cred1 ∈ used, ∀ cred2 ∈ used, Collide cred1 cred2 → SameIdentity cred1 cred2)
    (h : HoldsOnly used sets) {call : SetCall} (hcall : call.OnlyOf used) :
    call.KeepsIdentities sets := by
  cases call with
  | create place => trivial
  | setValue place cred =>
    intro held hheld hgone
    rw [KeyedSet.mem_members_set, not_or, not_and, not_not] at hgone
    apply hused held (h place held hheld) cred hcall
    rw [← credentialEqual_iff]
    exact decide_eq_true (hgone.2 hheld)
  | addValue place cred =>
    intro hhidden
    rw [KeyedSet.mem_members_add, not_or] at hhidden
    have hkey : credentialHash cred ∈ (sets place).keys := by
      by_contra hkey
      exact hhidden.2 ⟨rfl, hkey⟩
    obtain ⟨held, hheld, heq⟩ := List.mem_map.mp hkey
    refine ⟨held, hheld, hused held (h place held hheld) cred hcall ?_⟩
    rw [← credentialEqual_iff]
    exact decide_eq_true heq

theorem callsKeepIdentities
    (hused : ∀ cred1 ∈ used, ∀ cred2 ∈ used, Collide cred1 cred2 → SameIdentity cred1 cred2)
    {calls : List SetCall} (hcalls : ∀ call ∈ calls, call.OnlyOf used) (h : HoldsOnly used sets) :
    CallsKeepIdentities calls sets ∧ HoldsOnly used (performAll calls sets) := by
  induction calls generalizing sets with
  | nil => exact ⟨trivial, h⟩
  | cons call calls ih =>
    have hcall := hcalls call List.mem_cons_self
    obtain ⟨hkeeps, hholds⟩ := ih (fun other hother => hcalls other (List.mem_cons_of_mem _ hother))
      (h.perform hcall)
    exact ⟨⟨SetCall.keepsIdentities hused h hcall, hkeeps⟩, hholds⟩

theorem CredentialOperation.onlyOf_of_mem_calls {operation : CredentialOperation}
    (hoperation : ∀ cred ∈ operation.credentials, cred ∈ used) (h : HoldsOnly used sets) :
    ∀ call ∈ operation.calls sets, call.OnlyOf used := by
  intro call hcall
  cases operation with
  | createEngine engine token session =>
    simp only [calls, engineCreate, credentialsIterate, List.mem_append, List.mem_map,
      List.mem_filter, List.mem_cons, List.not_mem_nil, or_false] at hcall
    obtain (((rfl | rfl) | ⟨cred, hcred, rfl⟩) | ⟨cred, ⟨hcred, _⟩, rfl⟩) := hcall
    · trivial
    · trivial
    · exact h _ cred (List.mem_of_mem_take hcred)
    · exact h _ cred (List.mem_of_mem_take hcred)
  | setCredential engine cred shared =>
    cases shared with
    | false =>
      simp only [calls, engineSetCredential, Bool.false_eq_true, if_false, List.mem_singleton] at hcall
      subst hcall
      exact hoperation cred (by simp [credentials])
    | true =>
      simp only [calls, engineSetCredential, if_true, List.mem_cons, List.not_mem_nil,
        or_false] at hcall
      obtain rfl | rfl := hcall
      · exact hoperation cred (by simp [credentials])
      · exact hoperation (credentialCreateWithCredential cred true) (by simp [credentials])
  | extend engine token session leastPrivileged =>
    simp only [calls, extendRights, List.mem_flatMap] at hcall
    obtain ⟨cred, hcred, hcall⟩ := hcall
    have hheld := h _ cred hcred
    split at hcall
    case isTrue => cases hcall
    case isFalse =>
      rw [List.mem_cons] at hcall
      obtain rfl | hcall := hcall
      · exact hheld
      · simp only [sessionSetCredential] at hcall
        split at hcall
        case isFalse => cases hcall
        case isTrue =>
          split at hcall
          case isFalse => cases hcall
          case isTrue =>
            rw [List.mem_singleton.mp hcall]
            exact hheld

theorem runKeepsIdentities
    (hused : ∀ cred1 ∈ used, ∀ cred2 ∈ used, Collide cred1 cred2 → SameIdentity cred1 cred2)
    {operations : List CredentialOperation}
    (hoperations : ∀ cred ∈ operations.flatMap CredentialOperation.credentials, cred ∈ used)
    (h : HoldsOnly used sets) : RunKeepsIdentities operations sets := by
  induction operations generalizing sets with
  | nil => trivial
  | cons operation operations ih =>
    rw [List.flatMap_cons] at hoperations
    have hcalls := CredentialOperation.onlyOf_of_mem_calls
      (fun cred hcred => hoperations cred (List.mem_append_left _ hcred)) h
    obtain ⟨hkeeps, hholds⟩ := callsKeepIdentities hused hcalls h
    exact ⟨hkeeps, ih (fun cred hcred => hoperations cred (List.mem_append_right _ hcred)) hholds⟩
end

/-- Among the credentials of a run the hash tells identities apart, and no set of the run
confuses them, just when no two of different identities collide. -/
theorem identitiesKept_iff (operations : List CredentialOperation) :
    ((∀ cred1 ∈ operations.flatMap CredentialOperation.credentials,
        ∀ cred2 ∈ operations.flatMap CredentialOperation.credentials,
          (credentialEqual cred1 cred2 = true ↔ SameIdentity cred1 cred2)) ∧
      RunKeepsIdentities operations noCredentials) ↔
    ∀ cred1 ∈ operations.flatMap CredentialOperation.credentials,
      ∀ cred2 ∈ operations.flatMap CredentialOperation.credentials,
        SameIdentity cred1 cred2 ∨ ¬ Collide cred1 cred2 := by
  constructor
  · rintro ⟨hequal, _⟩ cred1 hcred1 cred2 hcred2
    by_cases hcollide : Collide cred1 cred2
    · exact .inl ((hequal cred1 hcred1 cred2 hcred2).mp ((credentialEqual_iff _ _).mpr hcollide))
    · exact .inr hcollide
  · intro hapart
    have hused : ∀ cred1 ∈ operations.flatMap CredentialOperation.credentials,
        ∀ cred2 ∈ operations.flatMap CredentialOperation.credentials,
          Collide cred1 cred2 → SameIdentity cred1 cred2 := by
      intro cred1 hcred1 cred2 hcred2 hcollide
      exact (hapart cred1 hcred1 cred2 hcred2).resolve_right (not_not_intro hcollide)
    constructor
    · intro cred1 hcred1 cred2 hcred2
      rw [credentialEqual_iff]
      exact ⟨hused cred1 hcred1 cred2 hcred2, SameIdentity.collide⟩
    · have hholds : HoldsOnly {cred | cred ∈ operations.flatMap CredentialOperation.credentials}
          noCredentials := by
        intro place cred hcred
        cases hcred
      exact runKeepsIdentities hused (fun _ hcred => hcred) hholds

def namedCredential : Credential :=
  credentialCreateWithRight [0x61, 0x62, 0x63, 0x64] (by decide)

def numberedCredential : Credential where
  right := false
  uid := 0x64636261
  name := []
  name_ne_zero := by decide
  valid := true
  shared := false

/-- The octets of a name are those of the number of a user, who is taken out of the set. -/
theorem right_replaces_user :
    credentialEqual namedCredential numberedCredential = true ∧
      ¬ SameIdentity namedCredential numberedCredential ∧
      ¬ RunKeepsIdentities [.setCredential 0 numberedCredential false,
        .setCredential 0 namedCredential false] noCredentials := by
  have hequal : credentialEqual namedCredential numberedCredential = true := by decide +kernel
  have hother : ¬ SameIdentity namedCredential numberedCredential := by
    intro hsame
    cases hsame.right_eq
  refine ⟨hequal, hother, ?_⟩
  rintro ⟨_, ⟨hkeeps, _⟩, _⟩
  have hsets : performAll (engineSetCredential 0 numberedCredential false) noCredentials =
      Function.update noCredentials (.credentials 0)
        ((noCredentials (.credentials 0)).set numberedCredential) := rfl
  have hheld : numberedCredential ∈
      (performAll (engineSetCredential 0 numberedCredential false) noCredentials
        (.credentials 0)).members := by
    rw [hsets, Function.update_self, KeyedSet.mem_members_set]
    exact .inl rfl
  have hgone : numberedCredential ∉
      ((performAll (engineSetCredential 0 numberedCredential false) noCredentials
        (.credentials 0)).set namedCredential).members := by
    rw [KeyedSet.mem_members_set]
    rintro (heq | ⟨_, hne⟩)
    · exact absurd (congrArg Credential.right heq) (by decide)
    · exact hne (of_decide_eq_true hequal).symm
  cases (hkeeps numberedCredential hheld hgone).right_eq
end SecurityFramework.Authd
