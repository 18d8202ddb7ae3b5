import PageVault.Proofs.Files.Header
import PageVault.Proofs.Keys.Derivation
import PageVault.Proofs.Keys.Unlocking
import PageVault.Proofs.Page.Coding

/-!
# Files with AES on single blocks

The cipher is AES, in two kinds of files that differ in their flags.  Where the flags say
AES, keys are stretched in 50000 rounds.  Where they do not, the file looks like one with
RC4; only the header says otherwise, so the reader for RC4 refuses it, the same bytes are
read again from where it began, and keys are not stretched at all.

A writer encrypts a verifier and its digest with the key of block zero (`Seals`).  Such a
file opens with the password (`openOffice_standard`), and its pages are coded with the
keys that the format describes.
-/

namespace PageVault

open Reading (Reads)

/-- A lock opens if its stored values decrypt to a verifier and a digest of it. -/
theorem StandardLock.unlock_of_decrypt {lock : StandardLock} {password verifier hash key : Bytes}
    (hk : StandardKeys.derive (lock.stretched password) (Bytes.le32 0) lock.keyLength = key)
    (hv : CipherSpec.aesEcb.decrypt key none lock.verifier.encryptedVerifier = .ok verifier)
    (hh : CipherSpec.aesEcb.decrypt key none lock.verifier.encryptedHash = .ok hash)
    (hc : lock.verifier.isConsistent verifier hash = true) :
    lock.unlock password = .ok (lock.keysOf password) := by
  unfold unlock
  dsimp only
  rw [hk]
  refine Outcome.bind_eq_ok.mpr ⟨verifier, hv, Outcome.bind_eq_ok.mpr ⟨hash, hh, ?_⟩⟩
  rw [if_pos hc]
  rfl

/-- The key of a block encrypts whole blocks. -/
theorem encrypt_standardKey {keyLength : Nat}
    (hk : CipherAlgorithm.aes.supportsKeyLength keyLength = true) (rounds : Nat)
    (salt password block : Bytes) {plain : Bytes} (hl : plain.length % 16 = 0) :
    CipherSpec.aesEcb.encrypt (standardKey rounds keyLength salt password block) none plain
      = .ok (Chaining.ecbEncrypt (Aes.cipher (standardKey rounds keyLength salt password block))
          plain) := by
  have hkey : (standardKey rounds keyLength salt password block).length = keyLength :=
    Bytes.length_fit _ _ _
  refine CipherSpec.transform_of_fits (Or.inr hl) ?_ .encrypt
  rw [hkey]
  exact hk

/-- The encryption info of a file with AES on single blocks. -/
abbrev StandardInfo : Type :=
  NumberedInfo [.aes128, .aes192, .aes256]

namespace StandardInfo

/-- How often keys are stretched. -/
def rounds (info : StandardInfo) : Nat :=
  if info.flags.aes then 50000 else 0

def scheme (info : StandardInfo) : Scheme :=
  if info.flags.aes then .officeStandard else .officeNonStandard

/-- The key of a block. -/
def key (info : StandardInfo) (password block : Bytes) : Bytes :=
  standardKey info.rounds info.header.keyLength info.verifier.salt password block

/-- The stored values are a verifier and its digest, with zeros up to whole blocks,
encrypted with the key of block zero.  How much of the digest is said to count does not
matter. -/
structure Seals (info : StandardInfo) (password verifier : Bytes) : Prop where
  length_eq : verifier.length = 16
  verifier_eq :
    CipherSpec.aesEcb.encrypt (info.key password (Bytes.le32 0)) none verifier
      = .ok info.verifier.encryptedVerifier
  hash_eq :
    CipherSpec.aesEcb.encrypt (info.key password (Bytes.le32 0)) none
        (HashAlgorithm.sha1.hash verifier ++ List.replicate 12 0)
      = .ok info.verifier.encryptedHash

/-- The lock that the info describes. -/
def lock (info : StandardInfo) (encodingKey : Bytes) : StandardLock where
  encodingKey := encodingKey
  verifier := info.verifier
  keyLength := info.header.keyLength
  rounds := info.rounds

variable {info : StandardInfo} {password verifier encodingKey : Bytes}

theorem keyLength_mem (info : StandardInfo) :
    info.header.keyLength = 16 ∨ info.header.keyLength = 24 ∨ info.header.keyLength = 32 := by
  have hk := (EncryptionHeader.supportsKeyLength_of_check info.accepted.check_eq).1
  simpa [CipherAlgorithm.supportsKeyLength, or_assoc] using hk

/-- The cipher is none that the reader for RC4 takes, and not an external one. -/
theorem cipher_not_mem (info : StandardInfo) :
    info.header.cipher ∉ [HeaderCipher.rc4] ∧ info.header.cipher ≠ .external := by
  have hmem := (EncryptionHeader.of_check info.accepted.check_eq).1
  simp only [List.mem_cons, List.not_mem_nil, or_false] at hmem ⊢
  rcases hmem with h | h | h <;> rw [h] <;> decide

/-- Header and verifier make up a lock, if the stored values have their lengths. -/
theorem reads_lock_of_length (info : StandardInfo)
    (hv : info.verifier.encryptedVerifier.length = 16)
    (hh : info.verifier.encryptedHash.length = 32) (encodingKey : Bytes) (rounds : Nat) :
    Reads (StandardLock.read encodingKey rounds) (info.headerBytes ++ info.verifier.bytes)
      ⟨encodingKey, info.verifier, info.header.keyLength, rounds⟩ := by
  have hlen := (EncryptionHeader.supportsKeyLength_of_check info.accepted.check_eq).2
  have hverifier := EncryptionVerifier.reads_bytes info.length_salt hv (hh.trans hlen.symm)
  have hlock := hverifier.map fun verifier =>
    (⟨encodingKey, verifier, info.header.keyLength, rounds⟩ : StandardLock)
  exact info.accepted.reads.bind hlock

namespace Seals

theorem length_encryptedVerifier (hs : info.Seals password verifier) :
    info.verifier.encryptedVerifier.length = 16 :=
  (CipherSpec.length_of_transform_eq_ok hs.verifier_eq).trans hs.length_eq

theorem length_encryptedHash (hs : info.Seals password verifier) :
    info.verifier.encryptedHash.length = 32 := by
  rw [CipherSpec.length_of_transform_eq_ok hs.hash_eq, List.length_append,
    HashAlgorithm.length_hash, List.length_replicate]
  rfl

/-- Header and verifier make up the lock, whoever reads them. -/
theorem reads_lock (hs : info.Seals password verifier) (encodingKey : Bytes) (rounds : Nat) :
    Reads (StandardLock.read encodingKey rounds) (info.headerBytes ++ info.verifier.bytes)
      ⟨encodingKey, info.verifier, info.header.keyLength, rounds⟩ :=
  info.reads_lock_of_length hs.length_encryptedVerifier hs.length_encryptedHash encodingKey rounds

/-- **The reader for RC4 refuses the header**, and what it has read is read again. -/
theorem reads_fallback (hs : info.Seals password verifier) (encodingKey : Bytes) :
    Reads (OfficeLock.readCryptoApi encodingKey) (info.headerBytes ++ info.verifier.bytes)
      (.standard .officeNonStandard
        ⟨encodingKey, info.verifier, info.header.keyLength, 0⟩) := by
  intro before after
  obtain ⟨hrc4, hexternal⟩ := info.cipher_not_mem
  obtain ⟨c, hc⟩ := info.accepted.read_of_not_mem hrc4 hexternal before
    (info.verifier.bytes ++ after)
  rw [← List.append_assoc] at hc
  have hrefused : CryptoApiLock.read encodingKey
      (.between before (info.headerBytes ++ info.verifier.bytes ++ after))
        = (.error (.configuration (.cipherRefused info.header.cipher [.rc4])), c) :=
    Reading.bind_of_error hc
  unfold OfficeLock.readCryptoApi
  rw [hrefused]
  dsimp only
  rw [hs.reads_lock encodingKey 0 before after]

/-- The lock is read, whichever kind of file it is. -/
theorem reads (hs : info.Seals password verifier) (encodingKey : Bytes) (spinLimit : UInt32) :
    Reads (OfficeLock.read encodingKey spinLimit info.major 2) info.provider
      (.standard info.scheme (info.lock encodingKey)) := by
  unfold lock scheme rounds
  cases ha : info.flags.aes with
  | true => exact info.reads_of_aes ha (hs.reads_lock encodingKey 50000)
  | false => exact info.reads_of_not_aes ha (hs.reads_fallback encodingKey)

/-- The lock opens: decrypting takes encrypting back, and of the digest only its zeros are
new. -/
theorem unlock_eq (hs : info.Seals password verifier) (encodingKey : Bytes) :
    (info.lock encodingKey).unlock password
      = .ok ((info.lock encodingKey).keysOf password) := by
  have hc : info.verifier.isConsistent verifier
      (HashAlgorithm.sha1.hash verifier ++ List.replicate 12 0) = true := by
    unfold EncryptionVerifier.isConsistent
    dsimp only
    rw [Bytes.fit_append_replicate]
    exact beq_self_eq_true _
  exact StandardLock.unlock_of_decrypt
    ((info.lock encodingKey).derive_stretched password (Bytes.le32 0))
    (CipherSpec.transform_opposite hs.verifier_eq) (CipherSpec.transform_opposite hs.hash_eq) hc

end Seals

/-- Pages are coded with the key that has the page number mixed into its encoding key. -/
theorem params_keysOf (hl : encodingKey.length = 4) (info : StandardInfo) (password : Bytes)
    (page : UInt32) :
    (PageKeys.standard ((info.lock encodingKey).keysOf password)).params page
      = .ofKey (info.key password (Bytes.xor encodingKey (Bytes.le32 page))) := by
  show PageParams.ofKey (StandardKeys.derive ((info.lock encodingKey).stretched password)
    (Bytes.withPageNumber 0 page encodingKey) (info.lock encodingKey).keyLength) = _
  rw [Bytes.withPageNumber_of_length_eq_four hl, StandardLock.derive_stretched]
  rfl

/-- **A file with AES on single blocks opens with its password**, whatever the size that
its verifier states.  Where the flags say AES its scheme is the standard one, and where
they do not the non-standard one.  In every state that its handler can reach, the pages
behind the first are transformed with the keys of the format. -/
theorem openOffice_standard {layout : Layout} {header : Bytes} (source : PasswordSource)
    (spinLimit : UInt32) (info : StandardInfo)
    (hs : info.Seals (officePassword source.get.1) verifier)
    (hi : HoldsInfo layout header encodingKey info.bytes) :
    (info.header.keyLength = 16 ∨ info.header.keyLength = 24 ∨ info.header.keyLength = 32)
    ∧ ∃ h, (openOffice source header layout spinLimit).outcome = .ok h
      ∧ h.Codes info.scheme 0xFFFFFFFF fun page direction data =>
        CipherSpec.aesEcb.transform direction
          (info.key (officePassword source.get.1) (Bytes.xor encodingKey (Bytes.le32 page))) none
          data := by
  rw [← passwordBytes_eq_officePassword] at hs ⊢
  refine ⟨info.keyLength_mem, _, hi.openOffice_eq (hs.reads encodingKey spinLimit)
    (Outcome.map_eq_ok.mpr ⟨_, hs.unlock_eq encodingKey, rfl⟩), ?_⟩
  refine (Handler.codes_fresh info.scheme _ (.block .aesEcb) lastOfficePage).congr ?_
  intro page
  funext direction data
  rw [params_keysOf hi.length_encodingKey]
  rfl

/-- The info with a verifier and its digest sealed for a password. -/
def sealed (info : StandardInfo) (password verifier : Bytes) : StandardInfo :=
  let aes := Aes.cipher (info.key password (Bytes.le32 0))
  { info with
    verifier :=
      { info.verifier with
        encryptedVerifier := Chaining.ecbEncrypt aes verifier
        encryptedHash :=
          Chaining.ecbEncrypt aes (HashAlgorithm.sha1.hash verifier ++ List.replicate 12 0) } }

theorem encrypt_key (info : StandardInfo) (password block : Bytes) {plain : Bytes}
    (hl : plain.length % 16 = 0) :
    CipherSpec.aesEcb.encrypt (info.key password block) none plain
      = .ok (Chaining.ecbEncrypt (Aes.cipher (info.key password block)) plain) :=
  encrypt_standardKey (EncryptionHeader.supportsKeyLength_of_check info.accepted.check_eq).1
    info.rounds info.verifier.salt password block hl

/-- Any verifier can be sealed for any password. -/
theorem seals_sealed (info : StandardInfo) (password : Bytes) (hl : verifier.length = 16) :
    (info.sealed password verifier).Seals password verifier := by
  refine ⟨hl, info.encrypt_key password _ (by rw [hl]), info.encrypt_key password _ ?_⟩
  rw [List.length_append, HashAlgorithm.length_hash, List.length_replicate]
  rfl

/-- A header that names AES with a key of 128 bits. -/
def sampleHeader : Bytes :=
  [32, 0x24, 0, 0x660E, 0x8004, 128, 0, 0, 0].flatMap Bytes.le32

/-- The info of a file with that header, nothing sealed yet. -/
def sample (flags : HeaderFlags) (hc : flags.cryptoApi = true) (he : flags.isExternal = false) :
    StandardInfo where
  major := 3
  flags := flags
  headerBytes := sampleHeader
  header := ⟨0x24, 0, .aes128, .sha1, 128, 0, ""⟩
  verifier := ⟨List.replicate 16 7, [], 0, []⟩
  major_mem := by decide
  cryptoApi := hc
  not_external := he
  accepted := ⟨_, rfl, rfl⟩
  length_salt := rfl

section Samples

variable (flags : HeaderFlags) (hc : flags.cryptoApi = true) (he : flags.isExternal = false)

/-- The sample with a verifier sealed for the password `a`. -/
def sealedSample : StandardInfo :=
  (sample flags hc he).sealed [0x61, 0x00] (List.replicate 16 8)

theorem seals_sealedSample :
    (sealedSample flags hc he).Seals (officePassword (some "a")) (List.replicate 16 8) :=
  (sample flags hc he).seals_sealed [0x61, 0x00] rfl

/-- The sample as a file holds it that was made for the password `a`, with keys that are not
stretched. -/
def plainSample : StandardInfo :=
  { sample flags hc he with
    verifier :=
      { salt := List.replicate 16 7
        encryptedVerifier := [
          0x1A, 0x93, 0x22, 0x65, 0x88, 0x44, 0xD8, 0xF5,
          0x50, 0xEC, 0xCF, 0x59, 0xDB, 0x5C, 0x46, 0x15]
        hashSize := 20
        encryptedHash := [
          0x0C, 0xBD, 0x78, 0x0D, 0x9A, 0x7D, 0xB0, 0x99,
          0x05, 0xB9, 0x95, 0x27, 0x2B, 0xE7, 0xDC, 0x16,
          0xCC, 0xEB, 0x8D, 0x19, 0x70, 0x47, 0xCD, 0xF5,
          0x9D, 0x31, 0xA4, 0x9D, 0xDC, 0xCC, 0x6F, 0xC3] }
    length_salt := rfl }

end Samples

theorem key_plainSample :
    (plainSample 0x04 rfl rfl).key [0x61, 0x00] (Bytes.le32 0)
      = [0x33, 0x96, 0x42, 0xC6, 0xF1, 0x43, 0x30, 0x70,
        0x34, 0xB7, 0x4C, 0xCD, 0x56, 0x2E, 0x42, 0xD3] := by
  decide +kernel

theorem seals_plainSample :
    (plainSample 0x04 rfl rfl).Seals (officePassword (some "a")) (List.replicate 16 8) := by
  have hpassword : officePassword (some "a") = [0x61, 0x00] := rfl
  refine ⟨rfl, ?_, ?_⟩
  · rw [hpassword, key_plainSample]
    decide +kernel
  · rw [hpassword, key_plainSample]
    decide +kernel

/-- A page with the header of the samples holds its info. -/
theorem holdsInfo_sample {info : StandardInfo} (hs : info.Seals password verifier)
    (hh : info.headerBytes = sampleHeader) :
    HoldsInfo .accdb (headerPage .accdb [1, 2, 3, 4] info.bytes) [1, 2, 3, 4] info.bytes := by
  refine holdsInfo_headerPage (by decide) rfl rfl ?_
  rw [NumberedInfo.length_bytes, hs.length_encryptedVerifier, hs.length_encryptedHash, hh]
  decide

/-- A file of each kind. -/
theorem openOffice_standard_samples :
    (∃ h, (openOffice (.known "a")
        (headerPage .accdb [1, 2, 3, 4] (sealedSample 0x24 rfl rfl).bytes) .accdb 0).outcome = .ok h
      ∧ h.scheme = .officeStandard ∧ h.isEncoded 1 = true)
    ∧ ∃ h, (openOffice (.known "a")
        (headerPage .accdb [1, 2, 3, 4] (plainSample 0x04 rfl rfl).bytes) .accdb 0).outcome = .ok h
      ∧ h.scheme = .officeNonStandard ∧ h.isEncoded 1 = true := by
  constructor
  · have hs := seals_sealedSample 0x24 rfl rfl
    obtain ⟨-, h, ho, hc⟩ := openOffice_standard (.known "a") 0 _ hs (holdsInfo_sample hs rfl)
    exact ⟨h, ho, hc.scheme_eq, (hc.isEncoded_iff 1).mpr (by decide)⟩
  · have hs := seals_plainSample
    obtain ⟨-, h, ho, hc⟩ := openOffice_standard (.known "a") 0 _ hs (holdsInfo_sample hs rfl)
    exact ⟨h, ho, hc.scheme_eq, (hc.isEncoded_iff 1).mpr (by decide)⟩

end StandardInfo

end PageVault
