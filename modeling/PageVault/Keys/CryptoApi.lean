import PageVault.Cipher.Rc4
import PageVault.Keys.Header
import PageVault.Keys.Params

/-!
# Crypto API keys

RC4 with keys from SHA-1.  Keys may be longer than a digest, and are then extended
with zeros; keys of 40 bits are always extended to 16 bytes.
-/

namespace PageVault

structure CryptoApiKeys where
  encodingKey : Bytes
  baseHash : Bytes
  keyBits : UInt32
deriving DecidableEq

namespace CryptoApiKeys

def derive (keys : CryptoApiKeys) (block : Bytes) : Bytes :=
  let key := HashAlgorithm.sha1.hashToLength (keys.keyBits.toNat / 8) (keys.baseHash ++ block)
  if keys.keyBits = 40 then Bytes.fit 16 0 key else key

def params (keys : CryptoApiKeys) (page : UInt32) : PageParams :=
  .ofKey (keys.derive (Bytes.withPageNumber 0 page keys.encodingKey))

end CryptoApiKeys

/-- What a file with RC4 of the crypto API says about its password. -/
structure CryptoApiLock where
  encodingKey : Bytes
  verifier : EncryptionVerifier
  keyBits : UInt32
deriving DecidableEq

namespace CryptoApiLock

def read (encodingKey : Bytes) : Reading CryptoApiLock := do
  let header ← EncryptionHeader.read [.rc4] [.sha1]
  let verifier ← EncryptionVerifier.read header.cipher
  return { encodingKey, verifier, keyBits := header.keyBits }

def keysOf (lock : CryptoApiLock) (password : Bytes) : CryptoApiKeys where
  encodingKey := lock.encodingKey
  baseHash := HashAlgorithm.sha1.hash (lock.verifier.salt ++ password)
  keyBits := lock.keyBits

/-- The keys that a password opens.  Verifier and digest are one stream. -/
def unlock (lock : CryptoApiLock) (password : Bytes) : Except Error CryptoApiKeys :=
  let keys := lock.keysOf password
  let (verifier, rc4) :=
    (Rc4.ofKey (keys.derive (Bytes.le32 0))).apply lock.verifier.encryptedVerifier
  let hash := (rc4.apply lock.verifier.encryptedHash).1
  if lock.verifier.isConsistent verifier hash then .ok keys else .error .wrongPassword

end CryptoApiLock

end PageVault
