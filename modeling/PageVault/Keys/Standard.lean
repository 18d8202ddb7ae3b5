import PageVault.Cipher.Spec
import PageVault.Keys.Header
import PageVault.Keys.Params

/-!
# Standard keys

AES on single blocks, with keys from SHA-1.  The password and a salt are stretched
in many rounds to a hash that is the same for all pages; a page key takes one more
step, which mixes in the encoding key and the page number.  Some files have the
same layout without any rounds of stretching.
-/

namespace PageVault

structure StandardKeys where
  encodingKey : Bytes
  stretched : Bytes
  keyLength : Nat
deriving DecidableEq

namespace StandardKeys

/-- 64 bytes of value `fill`, with a hash mixed into the first of them. -/
def filled (fill : UInt8) (hash : Bytes) : Bytes :=
  Bytes.xorAt 0 (hash.take 64) (List.replicate 64 fill)

/-- The key of `keyLength` bytes that follows from a stretched hash and a block. -/
def derive (stretched block : Bytes) (keyLength : Nat) : Bytes :=
  let last := HashAlgorithm.sha1.hash (stretched ++ block)
  Bytes.fit keyLength 0
    (HashAlgorithm.sha1.hash (filled 0x36 last) ++ HashAlgorithm.sha1.hash (filled 0x5C last))

def params (keys : StandardKeys) (page : UInt32) : PageParams :=
  .ofKey (derive keys.stretched (Bytes.withPageNumber 0 page keys.encodingKey) keys.keyLength)

end StandardKeys

/-- What a file with standard encryption says about its password. -/
structure StandardLock where
  encodingKey : Bytes
  verifier : EncryptionVerifier
  keyLength : Nat
  rounds : Nat
deriving DecidableEq

namespace StandardLock

def standardRounds : Nat := 50000

def read (encodingKey : Bytes) (rounds : Nat) : Reading StandardLock := do
  let header ← EncryptionHeader.read [.aes128, .aes192, .aes256] [.sha1]
  let verifier ← EncryptionVerifier.read header.cipher
  return { encodingKey, verifier, keyLength := header.keyLength, rounds }

def stretched (lock : StandardLock) (password : Bytes) : Bytes :=
  HashAlgorithm.sha1.stretch (HashAlgorithm.sha1.hash (lock.verifier.salt ++ password)) lock.rounds

def unlock (lock : StandardLock) (password : Bytes) : Except Error StandardKeys := do
  let stretched := lock.stretched password
  let key := StandardKeys.derive stretched (Bytes.le32 0) lock.keyLength
  let verifier ← CipherSpec.aesEcb.decrypt key none lock.verifier.encryptedVerifier
  let hash ← CipherSpec.aesEcb.decrypt key none lock.verifier.encryptedHash
  if lock.verifier.isConsistent verifier hash then
    return { encodingKey := lock.encodingKey, stretched, keyLength := lock.keyLength }
  else throw .wrongPassword

end StandardLock

end PageVault
