import PageVault.Cipher.Rc4
import PageVault.Cursor
import PageVault.Digest.Algorithm
import PageVault.Keys.Params

/-!
# Binary document keys

RC4 with keys from MD5, as in binary office documents.  Five bytes of the digest of
the password are repeated together with the salt, sixteen times, and hashed again;
five bytes of that are the base of all page keys.
-/

namespace PageVault

structure BinaryDocumentKeys where
  encodingKey : Bytes
  baseHash : Bytes
deriving DecidableEq

namespace BinaryDocumentKeys

def truncatedLength : Nat := 5

def derive (keys : BinaryDocumentKeys) (block : Bytes) : Bytes :=
  HashAlgorithm.md5.hashToLength 16 (keys.baseHash ++ block)

def params (keys : BinaryDocumentKeys) (page : UInt32) : PageParams :=
  .ofKey (keys.derive (Bytes.withPageNumber 0 page keys.encodingKey))

end BinaryDocumentKeys

/-- What a file with binary document encryption says about its password. -/
structure BinaryDocumentLock where
  encodingKey : Bytes
  salt : Bytes
  encryptedVerifier : Bytes
  encryptedHash : Bytes
deriving DecidableEq

namespace BinaryDocumentLock

def read (encodingKey : Bytes) : Reading BinaryDocumentLock := do
  let salt ← Reading.take 16 "RC4EncryptionHeader.salt"
  let encryptedVerifier ← Reading.take 16 "RC4EncryptionHeader.encryptedVerifier"
  let encryptedHash ← Reading.take 16 "RC4EncryptionHeader.encryptedVerifierHash"
  return { encodingKey, salt, encryptedVerifier, encryptedHash }

def keysOf (lock : BinaryDocumentLock) (password : Bytes) : BinaryDocumentKeys :=
  let part :=
    HashAlgorithm.md5.hashToLength BinaryDocumentKeys.truncatedLength password ++ lock.salt
  { encodingKey := lock.encodingKey
    baseHash :=
      HashAlgorithm.md5.hashToLength BinaryDocumentKeys.truncatedLength (Bytes.cycle part 336) }

/-- The keys that a password opens.  Verifier and digest are one stream. -/
def unlock (lock : BinaryDocumentLock) (password : Bytes) : Except Error BinaryDocumentKeys :=
  let keys := lock.keysOf password
  let (verifier, rc4) := (Rc4.ofKey (keys.derive (Bytes.le32 0))).apply lock.encryptedVerifier
  let hash := (rc4.apply lock.encryptedHash).1
  if hash = HashAlgorithm.md5.hash verifier then .ok keys else .error .wrongPassword

end BinaryDocumentLock

end PageVault
