import PageVault.Proofs.Opened
import PageVault.Proofs.Reading

/-!
# Office files put together

How an office file is laid out, from the header page down to the fields that the
providers take: the page holds an encoding key and, at a fixed place, the encryption info
behind its length (`HoldsInfo`); the info begins with a version; and where the cipher has
a number, flags, a header and a verifier follow (`NumberedInfo`).  For each part there is
what the readers make of it.

§1 header pages · §2 headers · §3 verifiers · §4 info with a numbered cipher.
-/

namespace PageVault

open Reading (Reads)

/-! ## §1  Header pages -/

/-- The header page holds the encoding key, which is not blank, and the encryption info
behind its length, which is a 16-bit number and not negative. -/
structure HoldsInfo (layout : Layout) (header encodingKey info : Bytes) : Prop where
  encodingKey_eq : Bytes.slice? layout.encodingKeyOffset.toNat 4 header = some encodingKey
  not_blank : Bytes.isBlank encodingKey = false
  length_le : info.length ≤ 0x7FFF
  length_eq : Bytes.slice? 0x299 2 header = some (Bytes.le16 (UInt16.ofNat info.length))
  info_eq : Bytes.slice? 0x29B info.length header = some info

theorem Bytes.field_of_slice? {offset len : Nat} {b s : Bytes} (h : slice? offset len b = some s)
    (name : String) : field offset len name b = .ok s := by
  rw [field, h]

/-- Version numbers and what follows them. -/
def versioned (major minor : UInt16) (rest : Bytes) : Bytes :=
  Bytes.le16 major ++ Bytes.le16 minor ++ rest

theorem reads_infoVersion (major minor : UInt16) :
    Reads infoVersion (Bytes.le16 major ++ Bytes.le16 minor) (major, minor) := by
  have hmajor := Reading.reads_word16 major "EncryptionVersionInfo.major"
  have hminor := Reading.reads_word16 minor "EncryptionVersionInfo.minor"
  exact hmajor.bind (hminor.map fun minor => (major, minor))

namespace HoldsInfo

variable {layout : Layout} {header encodingKey info rest : Bytes} {major minor : UInt16}

theorem length_encodingKey (h : HoldsInfo layout header encodingKey info) :
    encodingKey.length = 4 :=
  Bytes.length_of_slice?_eq_some h.encodingKey_eq

theorem encryptionInfo_eq (h : HoldsInfo layout header encodingKey info) :
    encryptionInfo header = .ok info := by
  have hle := h.length_le
  have hn : Bytes.toNatLE (Bytes.le16 (UInt16.ofNat info.length)) = info.length := by
    rw [Bytes.toNatLE_le16]
    exact UInt16.toNat_ofNat_of_lt' (Nat.lt_of_le_of_lt hle (by decide))
  unfold encryptionInfo
  refine Outcome.bind_eq_ok.mpr ⟨_, Bytes.field_of_slice? h.length_eq _, ?_⟩
  rw [hn]
  exact (if_pos (Nat.lt_succ_of_le hle)).trans (Bytes.field_of_slice? h.info_eq _)

/-- What is read of a page, up to where the provider begins. -/
theorem readOfficeInfo_eq (h : HoldsInfo layout header encodingKey (versioned major minor rest)) :
    readOfficeInfo header layout
      = .ok (some ⟨encodingKey, major, minor,
          .between (Bytes.le16 major ++ Bytes.le16 minor) rest⟩) := by
  have hversion : infoVersion (.start (versioned major minor rest))
      = (.ok (major, minor), .between (Bytes.le16 major ++ Bytes.le16 minor) rest) :=
    reads_infoVersion major minor [] rest
  unfold readOfficeInfo
  refine Outcome.bind_eq_ok.mpr ⟨encodingKey, Bytes.field_of_slice? h.encodingKey_eq _, ?_⟩
  rw [h.not_blank]
  refine Outcome.bind_eq_ok.mpr ⟨_, h.encryptionInfo_eq, ?_⟩
  rw [hversion]
  rfl

/-- **A file opens if its provider can be read and its lock opens.** -/
theorem openOffice_eq {source : PasswordSource} {spinLimit : UInt32} {lock : OfficeLock}
    {codec : Codec} (h : HoldsInfo layout header encodingKey (versioned major minor rest))
    (hr : Reads (OfficeLock.read encodingKey spinLimit major minor) rest lock)
    (hu : lock.unlock (passwordBytes source.get.1) = .ok codec) :
    (openOffice source header layout spinLimit).outcome = .ok (.coded codec) := by
  have hlock := hr (Bytes.le16 major ++ Bytes.le16 minor) []
  rw [List.append_nil] at hlock
  exact openOffice_of_unlock h.readOfficeInfo_eq (congrArg Prod.fst hlock) hu

end HoldsInfo

/-- A header page with an encoding key where the layout has it, and encryption info. -/
def headerPage (layout : Layout) (encodingKey info : Bytes) : Bytes :=
  Bytes.fit 0x299 0 (List.replicate layout.encodingKeyOffset.toNat 0 ++ encodingKey)
    ++ Bytes.le16 (UInt16.ofNat info.length) ++ info

/-- The page holds what it was made from, if the key ends where the info begins. -/
theorem holdsInfo_headerPage {layout : Layout} {encodingKey info : Bytes}
    (ho : layout.encodingKeyOffset.toNat + 4 ≤ 0x299) (hk : encodingKey.length = 4)
    (hb : Bytes.isBlank encodingKey = false) (hl : info.length ≤ 0x7FFF) :
    HoldsInfo layout (headerPage layout encodingKey info) encodingKey info := by
  have hfront : (List.replicate layout.encodingKeyOffset.toNat 0 ++ encodingKey).length ≤ 0x299 := by
    rw [List.length_append, List.length_replicate, hk]
    exact ho
  have hkey : (Bytes.fit 0x299 0
      (List.replicate layout.encodingKeyOffset.toNat 0 ++ encodingKey)).length = 0x299 :=
    Bytes.length_fit _ _ _
  have hlength : (Bytes.fit 0x299 0
      (List.replicate layout.encodingKeyOffset.toNat 0 ++ encodingKey)
        ++ Bytes.le16 (UInt16.ofNat info.length)).length = 0x29B := by
    rw [List.length_append, hkey, Bytes.length_le16]
  refine ⟨?_, hb, hl, ?_, ?_⟩
  · unfold headerPage
    rw [Bytes.fit_of_length_le hfront]
    simp only [List.append_assoc]
    exact Bytes.slice?_append (List.length_replicate) hk _
  · unfold headerPage
    rw [List.append_assoc]
    exact Bytes.slice?_append hkey (Bytes.length_le16 _) info
  · have h := Bytes.slice?_append hlength (rfl : info.length = info.length) []
    rwa [List.append_nil] at h

/-! ## §2  Headers -/

namespace EncryptionHeader

variable {ciphers others : List HeaderCipher} {hashes : List HeaderHash} {bytes body : Bytes}
  {size : UInt32} {h : EncryptionHeader}

/-- The reader for the given ciphers accepts the bytes, all of them. -/
def Accepts (ciphers : List HeaderCipher) (bytes : Bytes) (h : EncryptionHeader) : Prop :=
  ∃ c, read ciphers [.sha1] (.start bytes) = (.ok h, c) ∧ c.remaining = []

/-- Bytes that are accepted are a size and a body of that size. -/
theorem Accepts.exists_body (ha : Accepts ciphers bytes h) :
    ∃ size body, bytes = Bytes.le32 size ++ body ∧ body.length = size.toNat
      ∧ ofBytes ciphers [.sha1] body = .ok h := by
  obtain ⟨c, hread, hend⟩ := ha
  obtain ⟨size, body, c₁, hsize, hbody, hh⟩ := exists_body_of_read hread
  refine ⟨size, body, ?_, Reading.length_of_take_eq_ok hbody, hh⟩
  have hall := Reading.remaining_of_word32_eq_ok hsize
  rwa [Reading.remaining_of_take_eq_ok hbody, hend, List.append_nil] at hall

/-- What is made of a size and a body depends on the body only. -/
theorem read_between (hl : body.length = size.toNat) (ciphers : List HeaderCipher)
    (hashes : List HeaderHash) (before after : Bytes) :
    read ciphers hashes (.between before (Bytes.le32 size ++ body ++ after))
      = (ofBytes ciphers hashes body, .between (before ++ (Bytes.le32 size ++ body)) after) := by
  have hs := Reading.reads_word32 size "EncryptionHeader.headerSize" before (body ++ after)
  have hb := Reading.reads_take hl "EncryptionHeader" (before ++ Bytes.le32 size) after
  unfold read
  rw [List.append_assoc, Reading.bind_of_ok hs, Reading.bind_of_ok hb, List.append_assoc]
  rfl

/-- Bytes that are accepted are read wherever they stand. -/
theorem Accepts.reads (ha : Accepts ciphers bytes h) : Reads (read ciphers [.sha1]) bytes h := by
  obtain ⟨size, body, rfl, hl, hh⟩ := ha.exists_body
  intro before after
  rw [read_between hl, hh]

theorem Accepts.check_eq (ha : Accepts ciphers bytes h) : check ciphers [.sha1] h = .ok () := by
  obtain ⟨c, hread, -⟩ := ha
  exact check_of_read hread

/-- The key size of a header that was checked consists of whole bytes. -/
theorem keyBits_mod_of_check (hc : check ciphers hashes h = .ok ()) : h.keyBits % 8 = 0 :=
  (mod_eq_zero_iff_keyLength h).mpr (check_eq_ok_iff.mp hc).whole_bytes

/-- Bytes that are accepted for some ciphers are refused by a reader for others, because
of the cipher. -/
theorem Accepts.read_of_not_mem (ha : Accepts ciphers bytes h) (hc : h.cipher ∉ others)
    (he : h.cipher ≠ .external) (before after : Bytes) :
    ∃ c, read others [.sha1] (.between before (bytes ++ after))
      = (.error (.configuration (.cipherRefused h.cipher others)), c) :=
  ⟨_, EncryptionHeader.read_of_not_mem (ha.reads before after) hc he⟩

end EncryptionHeader

/-! ## §3  Verifiers -/

namespace EncryptionVerifier

/-- A verifier as it is stored: the size of the salt, the salt, the encrypted verifier, the
size of the digest and the encrypted digest. -/
def bytes (v : EncryptionVerifier) : Bytes :=
  Bytes.le32 16 ++ (v.salt ++ (v.encryptedVerifier ++ (Bytes.le32 v.hashSize ++ v.encryptedHash)))

theorem reads_bytes {v : EncryptionVerifier} {cipher : HeaderCipher} (hs : v.salt.length = 16)
    (hv : v.encryptedVerifier.length = 16)
    (hh : v.encryptedHash.length = cipher.verifierHashLength) : Reads (read cipher) v.bytes v := by
  have hsaltSize := Reading.reads_word32 16 "EncryptionVerifier.saltSize"
  have hsalt := Reading.reads_take hs "EncryptionVerifier.salt"
  have hverifier := Reading.reads_take hv "EncryptionVerifier.encryptedVerifier"
  have hhashSize := Reading.reads_word32 v.hashSize "EncryptionVerifier.verifierHashSize"
  have hhash := (Reading.reads_take hh "EncryptionVerifier.encryptedVerifierHash").map
    fun hash => (⟨v.salt, v.encryptedVerifier, v.hashSize, hash⟩ : EncryptionVerifier)
  exact hsaltSize.bind (hsalt.bind (hverifier.bind (hhashSize.bind hhash)))

end EncryptionVerifier

/-! ## §4  Info with a numbered cipher -/

/-- The encryption info of a file whose cipher has a number: a version with minor number
two, flags, a header that is accepted for one of the given ciphers, and a verifier. -/
structure NumberedInfo (ciphers : List HeaderCipher) where
  major : UInt16
  flags : HeaderFlags
  headerBytes : Bytes
  header : EncryptionHeader
  verifier : EncryptionVerifier
  major_mem : 2 ≤ major ∧ major ≤ 4
  cryptoApi : flags.cryptoApi = true
  not_external : flags.isExternal = false
  accepted : EncryptionHeader.Accepts ciphers headerBytes header
  length_salt : verifier.salt.length = 16

namespace NumberedInfo

variable {ciphers : List HeaderCipher} {encodingKey : Bytes} {spinLimit : UInt32}

/-- What follows the version. -/
def provider (info : NumberedInfo ciphers) : Bytes :=
  Bytes.le32 info.flags ++ (info.headerBytes ++ info.verifier.bytes)

def bytes (info : NumberedInfo ciphers) : Bytes :=
  versioned info.major 2 info.provider

theorem length_bytes (info : NumberedInfo ciphers) :
    info.bytes.length = 32 + info.headerBytes.length + info.verifier.encryptedVerifier.length
      + info.verifier.encryptedHash.length := by
  simp only [bytes, versioned, provider, EncryptionVerifier.bytes, List.length_append,
    Bytes.length_le16, Bytes.length_le32, info.length_salt]
  omega

theorem read_eq_readFlagged (info : NumberedInfo ciphers) :
    OfficeLock.read encodingKey spinLimit info.major 2
      = OfficeLock.readFlagged encodingKey info.major 2 := by
  unfold OfficeLock.read
  rw [if_neg, if_neg, if_neg, if_pos ⟨info.major_mem, rfl⟩]
  · rintro ⟨-, h⟩
    exact absurd h (by decide)
  · rintro ⟨-, h⟩
    exact absurd h (by decide)
  · rintro ⟨-, h⟩
    exact absurd h (by decide)

/-- Flags for AES lead to a standard lock with stretching. -/
theorem reads_of_aes (info : NumberedInfo ciphers) (ha : info.flags.aes = true)
    {lock : StandardLock}
    (hr : Reads (StandardLock.read encodingKey StandardLock.standardRounds)
      (info.headerBytes ++ info.verifier.bytes) lock) :
    Reads (OfficeLock.read encodingKey spinLimit info.major 2) info.provider
      (.standard .officeStandard lock) := by
  rw [info.read_eq_readFlagged]
  refine (Reading.reads_word32 info.flags "EncryptionInfo.flags").bind ?_
  rw [info.cryptoApi, info.not_external, ha]
  exact hr.map (OfficeLock.standard .officeStandard)

/-- Without them the reader for RC4 comes first. -/
theorem reads_of_not_aes (info : NumberedInfo ciphers) (ha : info.flags.aes = false)
    {lock : OfficeLock}
    (hr : Reads (OfficeLock.readCryptoApi encodingKey)
      (info.headerBytes ++ info.verifier.bytes) lock) :
    Reads (OfficeLock.read encodingKey spinLimit info.major 2) info.provider lock := by
  rw [info.read_eq_readFlagged]
  refine (Reading.reads_word32 info.flags "EncryptionInfo.flags").bind ?_
  rw [info.cryptoApi, info.not_external, ha]
  exact hr

end NumberedInfo

end PageVault
