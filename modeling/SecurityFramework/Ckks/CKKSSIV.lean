import SecurityFramework.Library.Base64
import SecurityFramework.Library.Dictionary
import Mathlib.Data.String.Basic

/-!
# AES-SIV keys

A key wraps other keys, and encrypts data together with a dictionary of authenticated data, whose
values are added in the order of their keys.
-/

namespace SecurityFramework
inductive NSException
  | wrongCKRecordType | wrongEncryptionVersion | wrongKeySize | unrecognizedSelector
  | invalidArgument | nullDereference
  deriving DecidableEq

/-- AES-SIV of corecrypto: a key, a nonce or none, the authenticated data, and the text. -/
structure CcSiv where
  encrypt : List UInt8 → Option (List UInt8) → List (List UInt8) → List UInt8 →
    Option (List UInt8)
  decrypt : List UInt8 → Option (List UInt8) → List (List UInt8) → List UInt8 →
    Option (List UInt8)

/-- Decryption undoes encryption exactly when the authenticated data are equal. -/
structure CcSiv.Exact (siv : CcSiv) : Prop where
  undoes {key nonce ad plaintext ciphertext} :
    siv.encrypt key nonce ad plaintext = some ciphertext →
      ciphertext ≠ [] ∧ siv.decrypt key nonce ad ciphertext = some plaintext
  refuses {key nonce ad plaintext ciphertext} :
    siv.encrypt key nonce ad plaintext = some ciphertext →
      ∀ other ad', ad' ≠ ad → siv.decrypt other nonce ad' ciphertext = none

def CKKSWrappedKeySize : Nat := 80

def CKKSKeySize : Nat := 64

structure CKKSWrappedAESSIVKey where
  wrappedData : List UInt8
  length_wrappedData : wrappedData.length = CKKSWrappedKeySize
  deriving DecidableEq

namespace CKKSWrappedAESSIVKey
def base64WrappedKey (key : CKKSWrappedAESSIVKey) : String :=
  String.ofList (Base64.encode key.wrappedData)

def initWithBase64 (text : String) : Except NSException (Option CKKSWrappedAESSIVKey) :=
  match Base64.decode text.toList with
  | none => .ok none
  | some octets =>
    if h : octets.length = CKKSWrappedKeySize then .ok (some ⟨octets, h⟩) else .error .wrongKeySize

def zeroedKey : CKKSWrappedAESSIVKey := ⟨List.replicate CKKSWrappedKeySize 0, by simp⟩

@[simp] theorem initWithBase64_base64WrappedKey (key : CKKSWrappedAESSIVKey) :
    initWithBase64 key.base64WrappedKey = .ok (some key) := by
  simp only [initWithBase64, base64WrappedKey, String.toList_ofList, Base64.decode_encode,
    key.length_wrappedData, dif_pos]
end CKKSWrappedAESSIVKey

structure CKKSAESSIVKey where
  key : List UInt8
  length_key : key.length = CKKSKeySize
  deriving DecidableEq

namespace CKKSAESSIVKey
variable (siv : CcSiv)

def wrapAESKey (key keyToWrap : CKKSAESSIVKey) : Option CKKSWrappedAESSIVKey := do
  let octets ← siv.encrypt key.key none [] keyToWrap.key
  if h : octets.length = CKKSWrappedKeySize then some ⟨octets, h⟩ else none

def unwrapAESKey (key : CKKSAESSIVKey) (keyToUnwrap : CKKSWrappedAESSIVKey) :
    Option CKKSAESSIVKey := do
  let octets ← siv.decrypt key.key none [] keyToUnwrap.wrappedData
  if h : octets.length = CKKSKeySize then some ⟨octets, h⟩ else none

def nonceLength : Nat := 16

def encryptData (key : CKKSAESSIVKey) (nonce : Vector UInt8 nonceLength) (plaintext : List UInt8)
    (ad : Dictionary String (List UInt8)) : Option (List UInt8) :=
  (siv.encrypt key.key (some nonce.toList) ad.sortedValues plaintext).map (nonce.toList ++ ·)

def decryptData (key : CKKSAESSIVKey) (ciphertext : List UInt8)
    (ad : Dictionary String (List UInt8)) : Option (List UInt8) :=
  if ciphertext.length ≤ nonceLength then none
  else
    siv.decrypt key.key (some (ciphertext.take nonceLength)) ad.sortedValues
      (ciphertext.drop nonceLength)

variable {siv}

theorem unwrapAESKey_wrapAESKey (h : siv.Exact) {key keyToWrap : CKKSAESSIVKey}
    {wrapped : CKKSWrappedAESSIVKey} (hwrap : key.wrapAESKey siv keyToWrap = some wrapped) :
    key.unwrapAESKey siv wrapped = some keyToWrap := by
  obtain ⟨octets, hencrypt, hsize⟩ := Option.bind_eq_some_iff.mp hwrap
  split at hsize
  case isFalse => cases hsize
  case isTrue hlength =>
    cases hsize
    simp only [unwrapAESKey, (h.undoes hencrypt).2, Option.bind_eq_bind, Option.bind_some,
      keyToWrap.length_key, dif_pos]

theorem take_nonce (nonce : Vector UInt8 nonceLength) (octets : List UInt8) :
    (nonce.toList ++ octets).take nonceLength = nonce.toList :=
  List.take_left' nonce.length_toList

theorem drop_nonce (nonce : Vector UInt8 nonceLength) (octets : List UInt8) :
    (nonce.toList ++ octets).drop nonceLength = octets :=
  List.drop_left' nonce.length_toList

theorem decryptData_encryptData (h : siv.Exact) {key : CKKSAESSIVKey}
    {nonce : Vector UInt8 nonceLength} {plaintext ciphertext : List UInt8}
    {ad : Dictionary String (List UInt8)}
    (hencrypt : key.encryptData siv nonce plaintext ad = some ciphertext) :
    key.decryptData siv ciphertext ad = some plaintext := by
  obtain ⟨octets, hoctets, rfl⟩ := Option.map_eq_some_iff.mp hencrypt
  obtain ⟨hne, hundo⟩ := h.undoes hoctets
  have hlength : ¬(nonce.toList ++ octets).length ≤ nonceLength := by
    have hpos := List.length_pos_of_ne_nil hne
    rw [List.length_append, nonce.length_toList]
    omega
  rw [decryptData, if_neg hlength, take_nonce, drop_nonce, hundo]

/-- What was encrypted is not decrypted with other authenticated data, whatever the key. -/
theorem decryptData_eq_none (h : siv.Exact) {key : CKKSAESSIVKey}
    {nonce : Vector UInt8 nonceLength} {plaintext ciphertext : List UInt8}
    {ad ad' : Dictionary String (List UInt8)}
    (hencrypt : key.encryptData siv nonce plaintext ad = some ciphertext)
    (hne : ad'.sortedValues ≠ ad.sortedValues) (other : CKKSAESSIVKey) :
    other.decryptData siv ciphertext ad' = none := by
  obtain ⟨octets, hoctets, rfl⟩ := Option.map_eq_some_iff.mp hencrypt
  rw [decryptData]
  split
  · rfl
  · rw [take_nonce, drop_nonce, h.refuses hoctets _ _ hne]
end CKKSAESSIVKey
end SecurityFramework
