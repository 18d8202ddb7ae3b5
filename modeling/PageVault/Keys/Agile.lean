import PageVault.Cipher.Spec
import PageVault.Cursor
import PageVault.Descriptor.Reading
import PageVault.Digest.Algorithm
import PageVault.Keys.Params

/-!
# Agile keys

A random page key is stored in the file, wrapped with a key made from the password.
The descriptor names two suites of digest, cipher and chaining mode, one for
wrapping and one for pages; they need not be the same.  Pages share the key and
differ in their initialisation vectors.
-/

namespace PageVault

/-- A digest and a cipher with a key size that the cipher takes. -/
structure Suite where
  hash : HashAlgorithm
  spec : CipherSpec
  keyLength : Nat
  takes_key : spec.cipher.supportsKeyLength keyLength = true
deriving DecidableEq

namespace Suite

/-- The byte that extends a digest which is too short for a key or vector. -/
def padding : UInt8 := 0x36

/-- The suite of a description; `element` names it in messages.  The key size is
rounded up to whole bytes, and the block size has to be that of the cipher. -/
def resolve (d : CipherDescription) (element : String) : Except Error Suite := do
  let hash ← HashAlgorithm.resolve d.hashName
  let spec ← CipherSpec.ofNames d.cipherName d.modeName
  let keyLength := (d.keyBits.toNat + 7) / 8
  if h : spec.cipher.supportsKeyLength keyLength = true then
    if d.blockSize.toNat = spec.blockSize then return ⟨hash, spec, keyLength, h⟩
    else throw (.configuration (.descriptorBlockSize element d.blockSize spec.cipher))
  else throw (.configuration (.descriptorKeyBits element d.keyBits spec.cipher))

/-- A digest cut or padded to the key length. -/
def keyOf (s : Suite) (m : Bytes) : Bytes :=
  Bytes.fit s.keyLength padding (s.hash.hash m)

/-- A digest cut or padded to the block size. -/
def vectorOf (s : Suite) (m : Bytes) : Bytes :=
  Bytes.fit s.spec.blockSize padding (s.hash.hash m)

/-- A string padded with zeros to whole blocks. -/
def padBlocks (s : Suite) (b : Bytes) : Bytes :=
  let n := s.spec.blockSize
  Bytes.fit ((b.length + (n - 1)) / n * n) 0 b

end Suite

/-- The keys of a file with agile encryption. -/
structure AgileKeys where
  encodingKey : Bytes
  keyValue : Bytes
  suite : Suite
  salt : Bytes
deriving DecidableEq

def AgileKeys.params (keys : AgileKeys) (page : UInt32) : PageParams where
  key := keys.keyValue
  iv := some (keys.suite.vectorOf (keys.salt ++ Bytes.withPageNumber 0 page keys.encodingKey))

/-- What a file with agile encryption says about its password. -/
structure AgileLock where
  encodingKey : Bytes
  encryptor : PasswordEncryptor
  passwordSuite : Suite
  pageSuite : Suite
  pageSalt : Bytes
deriving DecidableEq

namespace AgileLock

def reserved : UInt32 := 0x40

/-- What the key that unwraps the verifier is made from, beside the password. -/
def verifierBlock : Bytes := [0xFE, 0xA7, 0xD2, 0x76, 0x3B, 0x4B, 0x9E, 0x79]

/-- What the key that unwraps the digest of the verifier is made from. -/
def verifierHashBlock : Bytes := [0xD7, 0xAA, 0x0F, 0x6D, 0x30, 0x61, 0x34, 0x4E]

/-- What the key that unwraps the page key is made from. -/
def keyValueBlock : Bytes := [0x14, 0x6E, 0x0B, 0xE7, 0xAB, 0xAC, 0xD0, 0xD6]

/-- The password encryptor of a descriptor, if that is its only key encryptor. -/
def onlyEncryptor (d : Descriptor) : Except Error PasswordEncryptor :=
  match d.keyEncryptors with
  | [.password e] => .ok e
  | _ => .error (.unsupported .keyEncryptorChoice)

/-- The lock that a descriptor describes, for a caller that allows no more than
`spinLimit` rounds. -/
def ofDescriptor (encodingKey : Bytes) (spinLimit : UInt32) (d : Descriptor) :
    Except Error AgileLock := do
  let encryptor ← onlyEncryptor d
  if encryptor.spinCount > spinLimit then
    throw (.configuration (.spinCount encryptor.spinCount spinLimit))
  else
    let passwordSuite ← Suite.resolve encryptor.suite "encryptedKey"
    let pageSuite ← Suite.resolve d.keyData "keyData"
    return { encodingKey, encryptor, passwordSuite, pageSuite, pageSalt := d.keyData.salt }

/-- The lock at the cursor: a reserved word and a descriptor. -/
def read (encodingKey : Bytes) (spinLimit : UInt32) : Reading AgileLock := do
  let word ← Reading.word32 "Agile reserved value"
  if word ≠ reserved then
    Reading.fail (.format (.unexpectedReserved word))
  else
    let b ← Reading.rest
    Reading.lift (Descriptor.ofBytes b >>= ofDescriptor encodingKey spinLimit)

def stretched (lock : AgileLock) (password : Bytes) : Bytes :=
  let hash := lock.passwordSuite.hash
  hash.stretch (hash.hash (lock.encryptor.suite.salt ++ password)) lock.encryptor.spinCount.toNat

/-- A stored value, unwrapped with a key made from a stretched hash and a block. -/
def unwrap (lock : AgileLock) (stretched block stored : Bytes) : Except Error Bytes :=
  lock.passwordSuite.spec.decrypt (lock.passwordSuite.keyOf (stretched ++ block))
    (some lock.encryptor.suite.salt) stored

/-- Whether an unwrapped verifier and an unwrapped digest belong together. -/
def isConsistent (lock : AgileLock) (verifier hash : Bytes) : Bool :=
  hash == lock.passwordSuite.padBlocks (lock.passwordSuite.hash.hash verifier)

def unlock (lock : AgileLock) (password : Bytes) : Except Error AgileKeys := do
  let stretched := lock.stretched password
  let verifier ← lock.unwrap stretched verifierBlock lock.encryptor.encryptedVerifier
  let hash ← lock.unwrap stretched verifierHashBlock lock.encryptor.encryptedVerifierHash
  if lock.isConsistent verifier hash then
    let keyValue ← lock.unwrap stretched keyValueBlock lock.encryptor.encryptedKeyValue
    let needed := lock.pageSuite.keyLength
    if keyValue.length < needed then
      throw (.configuration (.shortKeyValue keyValue.length needed))
    else
      return { encodingKey := lock.encodingKey, keyValue := keyValue.take needed,
               suite := lock.pageSuite, salt := lock.pageSalt }
  else throw .wrongPassword

end AgileLock

end PageVault
