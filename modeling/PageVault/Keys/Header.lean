import PageVault.Cursor
import PageVault.Digest.Algorithm
import PageVault.Text.Blank
import PageVault.Text.Utf16

/-!
# The binary header and verifier

Two structures that follow one another in files with a cipher named by number.
The header says which cipher, digest and key size; its size is stored in front of
it, and whatever it holds, reading goes on behind that size.  The verifier is a
random value and its digest, both encrypted with a key made from the password, so
that a password can be checked.
-/

namespace PageVault

/-! ## Flags -/

/-- The flags of encryption info and headers. -/
abbrev HeaderFlags : Type := UInt32

namespace HeaderFlags

/-- The provider is one of the crypto API. -/
def cryptoApi (f : HeaderFlags) : Bool := f &&& 0x04 != 0

/-- The provider is outside the file. -/
def isExternal (f : HeaderFlags) : Bool := f &&& 0x10 != 0

/-- The cipher is AES. -/
def aes (f : HeaderFlags) : Bool := f &&& 0x20 != 0

end HeaderFlags

/-! ## Numbers of ciphers and digests -/

/-- The cipher with the given number; number zero leaves it to the flags. -/
def HeaderCipher.ofNumber (number : UInt32) (flags : HeaderFlags) : Except Error HeaderCipher :=
  if number = 0 ∧ flags.isExternal then .ok .external
  else if number = 0 ∧ flags.cryptoApi then .ok (if flags.aes then .aes128 else .rc4)
  else if number = 0x6801 then .ok .rc4
  else if number = 0x660E then .ok .aes128
  else if number = 0x660F then .ok .aes192
  else if number = 0x6610 then .ok .aes256
  else .error (.unsupported (.cipherNumber number flags))

/-- The digest with the given number; number zero leaves it to the flags. -/
def HeaderHash.ofNumber (number : UInt32) (flags : HeaderFlags) : Except Error HeaderHash :=
  if number = 0 ∧ flags.isExternal then .ok .external
  else if number = 0 ∨ number = 0x8004 then .ok .sha1
  else .error (.unsupported (.hashNumber number flags))

/-! ## The header -/

/-- The name of the provider: little-endian UTF-16 up to the first NUL. -/
def providerName (b : Bytes) : String :=
  String.ofList (Text.Utf16.decode ((Text.Utf16.ofBytes b).takeWhile (· != 0)))

/-- Whether `part` occurs in a text. -/
def occursIn (part : List Char) : List Char → Bool
  | [] => part.isEmpty
  | c :: cs => part.isPrefixOf (c :: cs) || occursIn part cs

/-- Whether a provider is a base provider: it has no name, or the word `base`
within it, in letters of any case.  Lower-casing ASCII decides this, because no
other character has one of these letters as its lower case. -/
def isBaseProvider (name : String) : Bool :=
  let cs := (Text.trimChars name.toList).map Char.toLower
  cs.isEmpty || occursIn " base ".toList cs

/-- The key size to use where the header has none: for RC4 it depends on the
provider, otherwise it is the least one of the cipher. -/
def defaultKeyBits (cipher : HeaderCipher) (provider : String) : UInt32 :=
  match cipher with
  | .rc4 => if isBaseProvider provider then 0x28 else 0x80
  | other => other.leastKeyBits

structure EncryptionHeader where
  flags : HeaderFlags
  sizeExtra : UInt32
  cipher : HeaderCipher
  hash : HeaderHash
  keyBits : UInt32
  providerType : UInt32
  provider : String
deriving DecidableEq

namespace EncryptionHeader

def keyLength (h : EncryptionHeader) : Nat :=
  h.keyBits.toNat / 8

def fields : Reading EncryptionHeader := do
  let flags ← Reading.word32 "EncryptionHeader.flags"
  let sizeExtra ← Reading.word32 "EncryptionHeader.sizeExtra"
  let cipherNumber ← Reading.word32 "EncryptionHeader.algId"
  let hashNumber ← Reading.word32 "EncryptionHeader.algIdHash"
  let storedBits ← Reading.word32 "EncryptionHeader.keySize"
  let providerType ← Reading.word32 "EncryptionHeader.providerType"
  let cipher ← Reading.lift (HeaderCipher.ofNumber cipherNumber flags)
  let hash ← Reading.lift (HeaderHash.ofNumber hashNumber flags)
  let _ ← Reading.word32 "EncryptionHeader.reserved1"
  let _ ← Reading.word32 "EncryptionHeader.reserved2"
  let provider := providerName (← Reading.rest)
  let keyBits := if storedBits = 0 then defaultKeyBits cipher provider else storedBits
  return { flags, sizeExtra, cipher, hash, keyBits, providerType, provider }

/-- The first thing that is wrong with a header, for a reader that accepts the given
ciphers and digests. -/
def check (ciphers : List HeaderCipher) (hashes : List HeaderHash) (h : EncryptionHeader) :
    Except Error Unit :=
  if h.cipher ∉ ciphers then
    if h.cipher = .external then .error (.unsupported (.externallyManaged h.flags))
    else .error (.configuration (.cipherRefused h.cipher ciphers))
  else if h.hash ∉ hashes then .error (.configuration (.hashRefused h.hash hashes))
  else if h.keyBits < h.cipher.leastKeyBits ∨ h.cipher.greatestKeyBits < h.keyBits then
    .error (.configuration (.keySizeRange h.keyBits h.cipher))
  else if h.keyBits % 8 ≠ 0 then .error (.configuration (.keySizeFraction h.keyBits))
  else .ok ()

/-- The header that a byte string holds. -/
def ofBytes (ciphers : List HeaderCipher) (hashes : List HeaderHash) (b : Bytes) :
    Except Error EncryptionHeader := do
  let h ← (fields (.start b)).1
  check ciphers hashes h
  return h

/-- The header at the cursor, behind its size. -/
def read (ciphers : List HeaderCipher) (hashes : List HeaderHash) : Reading EncryptionHeader := do
  let size ← Reading.word32 "EncryptionHeader.headerSize"
  let b ← Reading.take size.toNat "EncryptionHeader"
  Reading.lift (ofBytes ciphers hashes b)

end EncryptionHeader

/-! ## The verifier -/

/-- An encrypted random value and its encrypted digest. -/
structure EncryptionVerifier where
  salt : Bytes
  encryptedVerifier : Bytes
  /-- How many bytes of the digest count. -/
  hashSize : UInt32
  encryptedHash : Bytes
deriving DecidableEq

namespace EncryptionVerifier

/-- The verifier at the cursor; the length of its digest depends on the cipher. -/
def read (cipher : HeaderCipher) : Reading EncryptionVerifier := do
  let saltSize ← Reading.word32 "EncryptionVerifier.saltSize"
  if saltSize ≠ 16 then
    Reading.fail (.configuration (.saltSize saltSize))
  else
    let salt ← Reading.take 16 "EncryptionVerifier.salt"
    let encryptedVerifier ← Reading.take 16 "EncryptionVerifier.encryptedVerifier"
    let hashSize ← Reading.word32 "EncryptionVerifier.verifierHashSize"
    let encryptedHash ←
      Reading.take cipher.verifierHashLength "EncryptionVerifier.encryptedVerifierHash"
    return { salt, encryptedVerifier, hashSize, encryptedHash }

/-- Whether a decrypted verifier and a decrypted digest belong together.  As many
bytes count as the verifier says, but no more than are stored. -/
def isConsistent (v : EncryptionVerifier) (verifier hash : Bytes) : Bool :=
  let counted := min v.hashSize.toNat hash.length
  Bytes.fit counted 0 hash == Bytes.fit counted 0 (HashAlgorithm.sha1.hash verifier)

end EncryptionVerifier

end PageVault
