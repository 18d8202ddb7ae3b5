import PageVault.Descriptor.Namespaces
import PageVault.Error
import PageVault.Text.Base64

/-!
# The encryption descriptor

Agile files describe their encryption in a small document: how pages are
encrypted, and one or more key encryptors, each of which wraps the page key for
somebody who may open the file.  This module has the types of the description and
reads its attribute values: text, numbers and Base64, all without the white space
around them.
-/

namespace PageVault

/-- A digest, a cipher and a chaining mode by name, with their sizes and a salt. -/
structure CipherDescription where
  saltSize : UInt32
  blockSize : UInt32
  keyBits : UInt32
  hashSize : UInt32
  cipherName : String
  modeName : String
  hashName : String
  salt : Bytes
deriving DecidableEq

structure DataIntegrity where
  encryptedKey : Bytes
  encryptedValue : Bytes
deriving DecidableEq

structure PasswordEncryptor where
  suite : CipherDescription
  spinCount : UInt32
  encryptedVerifier : Bytes
  encryptedVerifierHash : Bytes
  encryptedKeyValue : Bytes
deriving DecidableEq

structure CertificateEncryptor where
  encryptedKeyValue : Bytes
  certificate : Bytes
  verifier : Bytes
deriving DecidableEq

inductive KeyEncryptor where
  | password (encryptor : PasswordEncryptor)
  | certificate (encryptor : CertificateEncryptor)
deriving DecidableEq

structure Descriptor where
  keyData : CipherDescription
  dataIntegrity : Option DataIntegrity
  keyEncryptors : List KeyEncryptor
deriving DecidableEq

namespace Descriptor

/-- The attribute values of an element; `element` names it in messages. -/
structure Entries where
  element : String
  values : List (String × String)
deriving DecidableEq

namespace Entries

/-- The value of an attribute, without the white space around it.  Of several with
the same name the first counts, and an empty one counts as missing. -/
def get? (e : Entries) (name : String) : Option String :=
  match e.values.lookup name with
  | some value => if (Text.trim value).isEmpty then none else some (Text.trim value)
  | none => none

def string (e : Entries) (name : String) : Except Error String :=
  match e.get? name with
  | some value => .ok value
  | none => .error (.configuration (.missingEntry name e.element))

def number (e : Entries) (name : String) : Except Error UInt32 := do
  let value ← e.string name
  match Text.word32? value with
  | some n => .ok n
  | none => .error (.configuration (.notANumber e.element name value))

/-- The bytes of an attribute that has to be Base64 text, which may be wrapped. -/
def bytes (e : Entries) (name : String) : Except Error Bytes := do
  let value ← e.string name
  match Text.Base64.decode (value.toList.filter fun c => !Text.isLayout c) with
  | some b => .ok b
  | none => .error (.configuration (.notBase64 e.element name))

def cipherDescription (e : Entries) : Except Error CipherDescription := do
  let saltSize ← e.number "saltSize"
  let blockSize ← e.number "blockSize"
  let keyBits ← e.number "keyBits"
  let hashSize ← e.number "hashSize"
  let cipherName ← e.string "cipherAlgorithm"
  let modeName ← e.string "cipherChaining"
  let hashName ← e.string "hashAlgorithm"
  let salt ← e.bytes "saltValue"
  return { saltSize, blockSize, keyBits, hashSize, cipherName, modeName, hashName, salt }

def dataIntegrity (e : Entries) : Except Error DataIntegrity := do
  let encryptedKey ← e.bytes "encryptedHmacKey"
  let encryptedValue ← e.bytes "encryptedHmacValue"
  return { encryptedKey, encryptedValue }

def passwordEncryptor (e : Entries) : Except Error PasswordEncryptor := do
  let suite ← e.cipherDescription
  let spinCount ← e.number "spinCount"
  let encryptedVerifier ← e.bytes "encryptedVerifierHashInput"
  let encryptedVerifierHash ← e.bytes "encryptedVerifierHashValue"
  let encryptedKeyValue ← e.bytes "encryptedKeyValue"
  return { suite, spinCount, encryptedVerifier, encryptedVerifierHash, encryptedKeyValue }

def certificateEncryptor (e : Entries) : Except Error CertificateEncryptor := do
  let encryptedKeyValue ← e.bytes "encryptedKeyValue"
  let certificate ← e.bytes "x509Certificate"
  let verifier ← e.bytes "certVerifier"
  return { encryptedKeyValue, certificate, verifier }

end Entries

end Descriptor

end PageVault
