import PageVault.Proofs.Files.Header
import PageVault.Proofs.Keys.Derivation
import PageVault.Proofs.Page.Coding

/-!
# Files with RC4

Two providers use RC4.  They share nothing but the way in which a password is checked: a
verifier and its digest are encrypted as one stream with the key of block zero, and stored
one behind the other (`SealsStream`).  Keys are made in different ways, from SHA-1 with
the crypto API and from MD5 in binary documents.  Either way the file opens with the
password, and each page is combined with the keystream of its own key
(`openOffice_stream`).

§1 one stream in two fields · §2 crypto API · §3 binary documents · §4 both.
-/

namespace PageVault

open Reading (Reads)

/-! ## §1  One stream in two fields -/

/-- The stored values are a verifier and its digest, encrypted as one stream. -/
structure SealsStream (hash : Bytes → Bytes) (key verifier : Bytes)
    (encryptedVerifier encryptedHash : Bytes) : Prop where
  length_eq : verifier.length = 16
  length_encryptedVerifier : encryptedVerifier.length = 16
  stream_eq : encryptedVerifier ++ encryptedHash = Rc4.crypt key (verifier ++ hash verifier)

namespace SealsStream

variable {hash : Bytes → Bytes} {key verifier encryptedVerifier encryptedHash : Bytes}

theorem length_encryptedHash
    (hs : SealsStream hash key verifier encryptedVerifier encryptedHash) :
    encryptedHash.length = (hash verifier).length := by
  have hl := congrArg List.length hs.stream_eq
  rw [Rc4.length_crypt, List.length_append, List.length_append, hs.length_eq,
    hs.length_encryptedVerifier] at hl
  exact Nat.add_left_cancel hl

/-- Applied to one field after the other, the state goes on where it stopped. -/
theorem apply_eq (hs : SealsStream hash key verifier encryptedVerifier encryptedHash) :
    ((Rc4.ofKey key).apply encryptedVerifier).1 = verifier
      ∧ (((Rc4.ofKey key).apply encryptedVerifier).2.apply encryptedHash).1 = hash verifier := by
  have hback : Rc4.crypt key (encryptedVerifier ++ encryptedHash) = verifier ++ hash verifier := by
    rw [hs.stream_eq, Rc4.crypt_crypt]
  rw [Rc4.crypt, Rc4.apply_append] at hback
  refine List.append_inj hback ?_
  rw [hs.length_eq, ← hs.length_encryptedVerifier]
  exact Rc4.length_crypt key encryptedVerifier

/-- Any verifier can be sealed: one stream, parted behind sixteen bytes. -/
theorem of_crypt (hash : Bytes → Bytes) (key : Bytes) (hl : verifier.length = 16) :
    SealsStream hash key verifier ((Rc4.crypt key (verifier ++ hash verifier)).take 16)
      ((Rc4.crypt key (verifier ++ hash verifier)).drop 16) := by
  refine ⟨hl, ?_, List.take_append_drop 16 _⟩
  rw [List.length_take, Rc4.length_crypt, List.length_append, hl]
  exact Nat.min_eq_left (Nat.le_add_right 16 _)

end SealsStream

/-- A lock opens with a password that its values were sealed for. -/
theorem CryptoApiLock.unlock_of_seals {lock : CryptoApiLock} {password verifier key : Bytes}
    (hk : (lock.keysOf password).derive (Bytes.le32 0) = key)
    (hs : SealsStream HashAlgorithm.sha1.hash key verifier lock.verifier.encryptedVerifier
      lock.verifier.encryptedHash) :
    lock.unlock password = .ok (lock.keysOf password) := by
  obtain ⟨hv, hh⟩ := hs.apply_eq
  unfold unlock
  dsimp only
  rw [hk, hv, hh]
  exact if_pos (beq_self_eq_true _)

@[inherit_doc CryptoApiLock.unlock_of_seals]
theorem BinaryDocumentLock.unlock_of_seals {lock : BinaryDocumentLock}
    {password verifier key : Bytes}
    (hk : (lock.keysOf password).derive (Bytes.le32 0) = key)
    (hs : SealsStream HashAlgorithm.md5.hash key verifier lock.encryptedVerifier
      lock.encryptedHash) :
    lock.unlock password = .ok (lock.keysOf password) := by
  obtain ⟨hv, hh⟩ := hs.apply_eq
  unfold unlock
  dsimp only
  rw [hk, hv, hh]
  exact if_pos rfl

/-! ## §2  Crypto API -/

/-- The encryption info of a file with RC4 of the crypto API. -/
abbrev CryptoApiInfo : Type :=
  NumberedInfo [.rc4]

namespace CryptoApiInfo

/-- The key of a block; its size is stated by the header or follows from its provider. -/
def key (info : CryptoApiInfo) (password block : Bytes) : Bytes :=
  cryptoApiKey info.header.keyBits info.verifier.salt password block

/-- The stored values are sealed with the key of block zero. -/
def Seals (info : CryptoApiInfo) (password verifier : Bytes) : Prop :=
  SealsStream HashAlgorithm.sha1.hash (info.key password (Bytes.le32 0)) verifier
    info.verifier.encryptedVerifier info.verifier.encryptedHash

/-- The lock that the info describes. -/
def lock (info : CryptoApiInfo) (encodingKey : Bytes) : CryptoApiLock where
  encodingKey := encodingKey
  verifier := info.verifier
  keyBits := info.header.keyBits

variable {info : CryptoApiInfo} {password verifier encodingKey : Bytes}

theorem cipher_eq (info : CryptoApiInfo) : info.header.cipher = .rc4 :=
  List.mem_singleton.mp (EncryptionHeader.of_check info.accepted.check_eq).1

/-- Keys have at least 40 and at most 512 bits, and consist of whole bytes. -/
theorem keyBits_mem (info : CryptoApiInfo) :
    40 ≤ info.header.keyBits ∧ info.header.keyBits ≤ 512 ∧ info.header.keyBits % 8 = 0 := by
  obtain ⟨-, hleast, hgreatest⟩ := EncryptionHeader.of_check info.accepted.check_eq
  rw [info.cipher_eq] at hleast hgreatest
  exact ⟨hleast, hgreatest, EncryptionHeader.keyBits_mod_of_check info.accepted.check_eq⟩

theorem derive_eq (info : CryptoApiInfo) (password block : Bytes) :
    ((info.lock encodingKey).keysOf password).derive block = info.key password block := by
  have hleast : 40 ≤ info.header.keyBits.toNat := UInt32.le_iff_toNat_le.mp info.keyBits_mem.1
  exact CryptoApiLock.derive_keysOf (Nat.le_trans (by decide) hleast) password block

/-- Header and verifier make up the lock, if the stored values have their lengths. -/
theorem reads_lock_of_length (info : CryptoApiInfo)
    (hv : info.verifier.encryptedVerifier.length = 16)
    (hh : info.verifier.encryptedHash.length = 20) (encodingKey : Bytes) :
    Reads (CryptoApiLock.read encodingKey) (info.headerBytes ++ info.verifier.bytes)
      (info.lock encodingKey) := by
  have hlen : info.verifier.encryptedHash.length = info.header.cipher.verifierHashLength := by
    rw [hh, info.cipher_eq]
    rfl
  have hverifier := EncryptionVerifier.reads_bytes info.length_salt hv hlen
  have hlock := hverifier.map fun verifier =>
    (⟨encodingKey, verifier, info.header.keyBits⟩ : CryptoApiLock)
  exact info.accepted.reads.bind hlock

namespace Seals

theorem reads_lock (hs : info.Seals password verifier) (encodingKey : Bytes) :
    Reads (CryptoApiLock.read encodingKey) (info.headerBytes ++ info.verifier.bytes)
      (info.lock encodingKey) := by
  refine info.reads_lock_of_length hs.length_encryptedVerifier ?_ encodingKey
  rw [hs.length_encryptedHash, HashAlgorithm.length_hash]
  rfl

theorem reads (hs : info.Seals password verifier) (ha : info.flags.aes = false)
    (encodingKey : Bytes) (spinLimit : UInt32) :
    Reads (OfficeLock.read encodingKey spinLimit info.major 2) info.provider
      (.cryptoApi (info.lock encodingKey)) := by
  refine info.reads_of_not_aes ha ?_
  intro before after
  unfold OfficeLock.readCryptoApi
  rw [hs.reads_lock encodingKey before after]

theorem unlock_eq (hs : info.Seals password verifier) (encodingKey : Bytes) :
    (info.lock encodingKey).unlock password
      = .ok ((info.lock encodingKey).keysOf password) :=
  CryptoApiLock.unlock_of_seals (info.derive_eq password (Bytes.le32 0)) hs

end Seals

theorem params_keysOf (hl : encodingKey.length = 4) (info : CryptoApiInfo) (password : Bytes)
    (page : UInt32) :
    ((PageKeys.cryptoApi ((info.lock encodingKey).keysOf password)).params page).key
      = info.key password (Bytes.xor encodingKey (Bytes.le32 page)) := by
  show ((info.lock encodingKey).keysOf password).derive
    (Bytes.withPageNumber 0 page encodingKey) = _
  rw [Bytes.withPageNumber_of_length_eq_four hl, derive_eq]

/-- The info of a file whose header states no key size and names no provider, so that keys
have 40 bits; it was made for the password `a`. -/
def sample : CryptoApiInfo where
  major := 2
  flags := 0x04
  headerBytes := [32, 0x04, 0, 0x6801, 0x8004, 0, 0, 0, 0].flatMap Bytes.le32
  header := ⟨0x04, 0, .rc4, .sha1, 40, 0, ""⟩
  verifier :=
    { salt := List.replicate 16 7
      encryptedVerifier := [
        0x55, 0xCF, 0xD5, 0xB5, 0x4C, 0x9E, 0xE9, 0x14,
        0xD3, 0x1A, 0x3D, 0xA2, 0x2A, 0x84, 0xF5, 0x11]
      hashSize := 20
      encryptedHash := [
        0x17, 0xD9, 0x16, 0x90, 0x90, 0x89, 0x56, 0xFC, 0xA8, 0x68,
        0x79, 0x1D, 0xAC, 0x07, 0xA3, 0xC2, 0xBC, 0x47, 0xF0, 0x71] }
  major_mem := by decide
  cryptoApi := rfl
  not_external := rfl
  accepted := ⟨_, rfl, rfl⟩
  length_salt := rfl

/-- Five bytes of a digest, and eleven of zeros. -/
theorem key_sample :
    sample.key [0x61, 0x00] (Bytes.le32 0)
      = [0xA6, 0xDE, 0x21, 0x88, 0xD6, 0, 0, 0, 0, 0, 0, 0, 0, 0, 0, 0] := by
  decide +kernel

theorem seals_sample : sample.Seals (officePassword (some "a")) (List.replicate 16 8) := by
  have hpassword : officePassword (some "a") = [0x61, 0x00] := rfl
  refine ⟨rfl, rfl, ?_⟩
  rw [hpassword, key_sample, Rc4.crypt_eq_numbers (List.cons_ne_nil _ _)]
  decide +kernel

end CryptoApiInfo

/-! ## §3  Binary documents -/

/-- The encryption info of a binary document. -/
structure BinaryDocumentInfo where
  salt : Bytes
  encryptedVerifier : Bytes
  encryptedHash : Bytes
  length_salt : salt.length = 16

namespace BinaryDocumentInfo

/-- What follows the version. -/
def provider (info : BinaryDocumentInfo) : Bytes :=
  info.salt ++ (info.encryptedVerifier ++ info.encryptedHash)

def bytes (info : BinaryDocumentInfo) : Bytes :=
  versioned 1 1 info.provider

theorem length_bytes (info : BinaryDocumentInfo) :
    info.bytes.length = 20 + info.encryptedVerifier.length + info.encryptedHash.length := by
  simp only [bytes, versioned, provider, List.length_append, Bytes.length_le16, info.length_salt]
  omega

/-- The key of a block. -/
def key (info : BinaryDocumentInfo) (password block : Bytes) : Bytes :=
  binaryDocumentKey info.salt password block

/-- The stored values are sealed with the key of block zero. -/
def Seals (info : BinaryDocumentInfo) (password verifier : Bytes) : Prop :=
  SealsStream HashAlgorithm.md5.hash (info.key password (Bytes.le32 0)) verifier
    info.encryptedVerifier info.encryptedHash

/-- The lock that the info describes. -/
def lock (info : BinaryDocumentInfo) (encodingKey : Bytes) : BinaryDocumentLock where
  encodingKey := encodingKey
  salt := info.salt
  encryptedVerifier := info.encryptedVerifier
  encryptedHash := info.encryptedHash

variable {info : BinaryDocumentInfo} {password verifier encodingKey : Bytes}

theorem derive_eq (info : BinaryDocumentInfo) (password block : Bytes) :
    ((info.lock encodingKey).keysOf password).derive block = info.key password block :=
  BinaryDocumentLock.derive_keysOf info.length_salt password block

namespace Seals

theorem reads_lock (hs : info.Seals password verifier) (encodingKey : Bytes) :
    Reads (BinaryDocumentLock.read encodingKey) info.provider (info.lock encodingKey) := by
  have hlen : info.encryptedHash.length = 16 := by
    rw [hs.length_encryptedHash, HashAlgorithm.length_hash]
    rfl
  have hsalt := Reading.reads_take info.length_salt "RC4EncryptionHeader.salt"
  have hverifier := Reading.reads_take hs.length_encryptedVerifier
    "RC4EncryptionHeader.encryptedVerifier"
  have hhash := (Reading.reads_take hlen "RC4EncryptionHeader.encryptedVerifierHash").map
    fun hash => (⟨encodingKey, info.salt, info.encryptedVerifier, hash⟩ : BinaryDocumentLock)
  exact hsalt.bind (hverifier.bind hhash)

theorem reads (hs : info.Seals password verifier) (encodingKey : Bytes) (spinLimit : UInt32) :
    Reads (OfficeLock.read encodingKey spinLimit 1 1) info.provider
      (.binaryDocument (info.lock encodingKey)) :=
  (hs.reads_lock encodingKey).map OfficeLock.binaryDocument

theorem unlock_eq (hs : info.Seals password verifier) (encodingKey : Bytes) :
    (info.lock encodingKey).unlock password
      = .ok ((info.lock encodingKey).keysOf password) :=
  BinaryDocumentLock.unlock_of_seals (info.derive_eq password (Bytes.le32 0)) hs

end Seals

theorem params_keysOf (hl : encodingKey.length = 4) (info : BinaryDocumentInfo)
    (password : Bytes) (page : UInt32) :
    ((PageKeys.binaryDocument ((info.lock encodingKey).keysOf password)).params page).key
      = info.key password (Bytes.xor encodingKey (Bytes.le32 page)) := by
  show ((info.lock encodingKey).keysOf password).derive
    (Bytes.withPageNumber 0 page encodingKey) = _
  rw [Bytes.withPageNumber_of_length_eq_four hl, derive_eq]

/-- The info of a file that was made without a password. -/
def sample : BinaryDocumentInfo where
  salt := List.replicate 16 7
  encryptedVerifier := [
    0x36, 0x58, 0x82, 0x7A, 0xE5, 0x53, 0x24, 0xAB, 0xA1, 0xDE, 0xF8, 0x9D, 0xC8, 0x6D, 0x1F, 0xBE]
  encryptedHash := [
    0xEB, 0x15, 0x39, 0x79, 0x36, 0xB4, 0xF9, 0x0D, 0x7B, 0xE4, 0x51, 0x48, 0xBE, 0xD8, 0x7B, 0x90]
  length_salt := rfl

theorem key_sample :
    sample.key [] (Bytes.le32 0)
      = [0x6E, 0x7D, 0x08, 0xF9, 0x1C, 0x42, 0x99, 0x04,
        0x96, 0x49, 0xB6, 0xA4, 0x37, 0xCB, 0xAD, 0xD3] := by
  decide +kernel

theorem seals_sample : sample.Seals (officePassword none) (List.replicate 16 8) := by
  have hpassword : officePassword none = [] := rfl
  refine ⟨rfl, rfl, ?_⟩
  rw [hpassword, key_sample, Rc4.crypt_eq_numbers (List.cons_ne_nil _ _)]
  decide +kernel

end BinaryDocumentInfo

/-! ## §4  Both -/

/-- **A file with RC4 opens with its password.**  With the crypto API this holds for every
header that is accepted and whatever the size that the verifier states; keys have 40 to
512 bits.  In every state that the handler can reach, a page behind the first is combined
with the keystream of the key that has its number mixed into the encoding key. -/
theorem openOffice_stream {layout : Layout} {header encodingKey : Bytes}
    (source : PasswordSource) (spinLimit : UInt32) :
    (∀ (info : CryptoApiInfo) (verifier : Bytes), info.flags.aes = false →
      info.Seals (officePassword source.get.1) verifier →
      HoldsInfo layout header encodingKey info.bytes →
      (40 ≤ info.header.keyBits ∧ info.header.keyBits ≤ 512 ∧ info.header.keyBits % 8 = 0)
      ∧ ∃ h, (openOffice source header layout spinLimit).outcome = .ok h
        ∧ h.Codes .officeRc4CryptoApi 0xFFFFFFFF fun page =>
          Rc4.code (info.key (officePassword source.get.1)
            (Bytes.xor encodingKey (Bytes.le32 page))))
    ∧ ∀ (info : BinaryDocumentInfo) (verifier : Bytes),
      info.Seals (officePassword source.get.1) verifier →
      HoldsInfo layout header encodingKey info.bytes →
      ∃ h, (openOffice source header layout spinLimit).outcome = .ok h
        ∧ h.Codes .officeBinaryRc4 0xFFFFFFFF fun page =>
          Rc4.code (info.key (officePassword source.get.1)
            (Bytes.xor encodingKey (Bytes.le32 page))) := by
  rw [← passwordBytes_eq_officePassword]
  constructor
  · intro info verifier ha hs hi
    refine ⟨info.keyBits_mem, _, hi.openOffice_eq (hs.reads ha encodingKey spinLimit)
      (Outcome.map_eq_ok.mpr ⟨_, hs.unlock_eq encodingKey, rfl⟩), ?_⟩
    refine (Handler.codes_stream .officeRc4CryptoApi _ lastOfficePage).congr ?_
    intro page
    rw [CryptoApiInfo.params_keysOf hi.length_encodingKey]
  · intro info verifier hs hi
    refine ⟨_, hi.openOffice_eq (hs.reads encodingKey spinLimit)
      (Outcome.map_eq_ok.mpr ⟨_, hs.unlock_eq encodingKey, rfl⟩), ?_⟩
    refine (Handler.codes_stream .officeBinaryRc4 _ lastOfficePage).congr ?_
    intro page
    rw [BinaryDocumentInfo.params_keysOf hi.length_encodingKey]

/-- A file of each kind, with a password and without one. -/
theorem openOffice_stream_samples :
    (∃ h, (openOffice (.known "a")
        (headerPage .accdb [1, 2, 3, 4] CryptoApiInfo.sample.bytes) .accdb 0).outcome = .ok h
      ∧ h.scheme = .officeRc4CryptoApi ∧ h.isEncoded 1 = true)
    ∧ ∃ h, (openOffice .absent
        (headerPage .accdb [1, 2, 3, 4] BinaryDocumentInfo.sample.bytes) .accdb 0).outcome = .ok h
      ∧ h.scheme = .officeBinaryRc4 ∧ h.isEncoded 1 = true := by
  constructor
  · have hi : HoldsInfo .accdb (headerPage .accdb [1, 2, 3, 4] CryptoApiInfo.sample.bytes)
        [1, 2, 3, 4] CryptoApiInfo.sample.bytes := by
      refine holdsInfo_headerPage (by decide) rfl rfl ?_
      rw [NumberedInfo.length_bytes]
      decide
    obtain ⟨-, h, ho, hc⟩ := (openOffice_stream (.known "a") 0).1 CryptoApiInfo.sample _ rfl
      CryptoApiInfo.seals_sample hi
    exact ⟨h, ho, hc.scheme_eq, (hc.isEncoded_iff 1).mpr (by decide)⟩
  · have hi : HoldsInfo .accdb (headerPage .accdb [1, 2, 3, 4] BinaryDocumentInfo.sample.bytes)
        [1, 2, 3, 4] BinaryDocumentInfo.sample.bytes := by
      refine holdsInfo_headerPage (by decide) rfl rfl ?_
      rw [BinaryDocumentInfo.length_bytes]
      decide
    obtain ⟨h, ho, hc⟩ := (openOffice_stream .absent 0).2 BinaryDocumentInfo.sample _
      BinaryDocumentInfo.seals_sample hi
    exact ⟨h, ho, hc.scheme_eq, (hc.isEncoded_iff 1).mpr (by decide)⟩

end PageVault
