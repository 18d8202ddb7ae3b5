import PageVault.Proofs.Header.Declared
import PageVault.Proofs.Header.Provider

/-!
# Headers and verifiers that were written are read

A writer stores a header behind its size, with the name of the provider, a NUL, and room that
it does not use, and behind the header a verifier.  Wherever these bytes stand, the readers
give back what was written (`reads_written`): the cipher and the digest that the numbers stand
for, the name as a text, and the key size.  A key size of zero is replaced by the default of
the cipher, which passes the check that it is put to (`takesKeyBits_default`).

§1 key sizes · §2 headers · §3 headers and verifiers.
-/

namespace PageVault

open Reading (Reads)

/-! ## §1  Key sizes -/

/-- A key size that the cipher can have. -/
def HeaderCipher.TakesKeyBits (cipher : HeaderCipher) (bits : UInt32) : Prop :=
  cipher.leastKeyBits ≤ bits ∧ bits ≤ cipher.greatestKeyBits ∧ bits % 8 = 0

/-- **Every default passes its own check.** -/
theorem HeaderCipher.takesKeyBits_default (cipher : HeaderCipher) (provider : String) :
    cipher.TakesKeyBits (defaultKeyBits cipher provider) := by
  unfold TakesKeyBits defaultKeyBits
  cases cipher with
  | external | aes128 | aes192 | aes256 =>
      dsimp only
      decide
  | rc4 =>
      dsimp only
      split
      · decide
      · decide

/-- The key size of a header that stores one, or zero; a provider of the given name goes with
it. -/
def KeyBitsOf (cipher : HeaderCipher) (name : String) (stored bits : UInt32) : Prop :=
  (stored ≠ 0 → bits = stored)
    ∧ (stored = 0 →
      match cipher with
      | .external => bits = 0
      | .aes128 => bits = 128
      | .aes192 => bits = 192
      | .aes256 => bits = 256
      | .rc4 => ∀ lowered, LowerCase (Text.trimChars name.toList) lowered →
          (lowered = [] ∨ " base ".toList <:+: lowered → bits = 40)
            ∧ (¬ (lowered = [] ∨ " base ".toList <:+: lowered) → bits = 128))

theorem keyBitsOf_header (s : StoredHeader) (cipher : HeaderCipher) (hash : HeaderHash) :
    KeyBitsOf cipher (providerName s.name) s.keyBits (s.header cipher hash).keyBits := by
  unfold StoredHeader.header
  constructor
  · intro hstored
    exact if_neg hstored
  · intro hstored
    dsimp only
    rw [if_pos hstored]
    cases cipher with
    | external | aes128 | aes192 | aes256 => rfl
    | rc4 =>
        intro lowered hlower
        rw [← isBaseProvider_iff hlower]
        exact ⟨fun hbase => if_pos hbase, fun hbase => if_neg hbase⟩

/-! ## §2  Headers -/

/-- A header behind its size. -/
def StoredHeader.written (s : StoredHeader) : Bytes :=
  Bytes.le32 (UInt32.ofNat s.bytes.length) ++ s.bytes

variable {ciphers : List HeaderCipher} {hashes : List HeaderHash} {cipher : HeaderCipher}
  {hash : HeaderHash}

/-- Its numbers stand for this cipher and this digest, which are accepted, and it has a key size
of the cipher or none. -/
structure StoredHeader.Names (s : StoredHeader) (ciphers : List HeaderCipher)
    (hashes : List HeaderHash) (cipher : HeaderCipher) (hash : HeaderHash) : Prop where
  cipher_eq : HeaderCipher.ofNumber s.cipherNumber s.flags = .ok cipher
  cipher_mem : cipher ∈ ciphers
  hash_eq : HeaderHash.ofNumber s.hashNumber s.flags = .ok hash
  hash_mem : hash ∈ hashes
  keyBits_eq_or : s.keyBits = 0 ∨ cipher.TakesKeyBits s.keyBits

namespace StoredHeader.Names

variable {s : StoredHeader}

/-- A key size that is stored, or else the default, passes the check. -/
theorem valid_header (hs : s.Names ciphers hashes cipher hash) :
    (s.header cipher hash).Valid ciphers hashes := by
  have htakes : cipher.TakesKeyBits (s.header cipher hash).keyBits := by
    unfold header
    dsimp only
    split
    · exact cipher.takesKeyBits_default _
    · rename_i hstored
      exact hs.keyBits_eq_or.resolve_left hstored
  exact ⟨hs.cipher_mem, hs.hash_mem, htakes.1, htakes.2.1,
    (EncryptionHeader.mod_eq_zero_iff_keyLength _).mp htakes.2.2⟩

/-- **A header is read with the cipher and the digest that its numbers stand for.** -/
theorem reads_header (hs : s.Names ciphers hashes cipher hash)
    (hsize : s.bytes.length < 2 ^ 32) :
    Reads (EncryptionHeader.read ciphers hashes) s.written (s.header cipher hash) := by
  have hlength : s.bytes.length = (UInt32.ofNat s.bytes.length).toNat :=
    (UInt32.toNat_ofNat_of_lt' hsize).symm
  have hcheck : EncryptionHeader.check ciphers hashes (s.header cipher hash) = .ok () :=
    EncryptionHeader.check_eq_ok_iff.mpr hs.valid_header
  have hbody : EncryptionHeader.ofBytes ciphers hashes s.bytes = .ok (s.header cipher hash) := by
    rw [ofBytes_bytes, hs.cipher_eq, hs.hash_eq]
    exact Outcome.bind_eq_ok.mpr ⟨cipher, rfl, Outcome.bind_eq_ok.mpr ⟨hash, rfl,
      Outcome.bind_eq_ok.mpr ⟨(), hcheck, rfl⟩⟩⟩
  intro before after
  unfold written
  rw [EncryptionHeader.read_between hlength, hbody]

end StoredHeader.Names

/-! ## §3  Headers and verifiers -/

/-- The parts of a verifier have the lengths that a reader takes. -/
structure EncryptionVerifier.Fits (v : EncryptionVerifier) (cipher : HeaderCipher) : Prop where
  length_salt : v.salt.length = 16
  length_encryptedVerifier : v.encryptedVerifier.length = 16
  length_encryptedHash : v.encryptedHash.length = cipher.verifierHashLength

/-- A header, and the verifier behind it. -/
def readHeaderAndVerifier (ciphers : List HeaderCipher) (hashes : List HeaderHash) :
    Reading (EncryptionHeader × EncryptionVerifier) := do
  let header ← EncryptionHeader.read ciphers hashes
  let verifier ← EncryptionVerifier.read header.cipher
  return (header, verifier)

/-- **Reading undoes writing.**  A header with any flags and words, with numbers that stand for
an accepted cipher and an accepted digest, with a key size of this cipher or none, and with any
name that has no NUL in it, is written behind its size, the name in UTF-16 with a NUL and any
bytes behind it; any verifier follows whose parts have their lengths.  Wherever these bytes
stand, they are read as what was written, and no others are taken.  A key size of zero is read
as the default. -/
theorem reads_written {s : StoredHeader} {name : String} {padding : Bytes}
    {v : EncryptionVerifier} (hs : s.Names ciphers hashes cipher hash)
    (hname : '\x00' ∉ name.toList) (hstored : s.name = writtenName name padding)
    (hsize : s.bytes.length < 2 ^ 32) (hv : v.Fits cipher) :
    ∃ bits, KeyBitsOf cipher name s.keyBits bits
      ∧ Reads (readHeaderAndVerifier ciphers hashes) (s.written ++ v.bytes)
        (⟨s.flags, s.sizeExtra, cipher, hash, bits, s.providerType, name⟩, v) := by
  have hprovider : providerName s.name = name := by
    rw [hstored, providerName_written hname]
  have hheader : s.header cipher hash = ⟨s.flags, s.sizeExtra, cipher, hash,
      (s.header cipher hash).keyBits, s.providerType, name⟩ := by
    conv_rhs => rw [← hprovider]
    rfl
  refine ⟨(s.header cipher hash).keyBits, ?_, ?_⟩
  · rw [← hprovider]
    exact keyBitsOf_header s cipher hash
  · rw [← hheader]
    have hverifier := EncryptionVerifier.reads_bytes hv.length_salt
      hv.length_encryptedVerifier hv.length_encryptedHash
    exact (hs.reads_header hsize).bind (hverifier.map fun v => (s.header cipher hash, v))

/-- A header for RC4 without a key size, whose provider has characters of one, two and four
bytes in its name, and room behind it for an odd number of bytes. -/
def writtenSample : StoredHeader :=
  ⟨0x04, 7, 0, 0, 0, 1, 2, 3, writtenName " É Base 𝒸K" [5]⟩

def verifierSample : EncryptionVerifier :=
  ⟨List.replicate 16 7, List.replicate 16 8, 20, List.replicate 20 9⟩

theorem reads_written_sample :
    Reads (readHeaderAndVerifier [.rc4] [.sha1]) (writtenSample.written ++ verifierSample.bytes)
      (⟨0x04, 7, .rc4, .sha1, 40, 1, " É Base 𝒸K"⟩, verifierSample) := by
  have hs : writtenSample.Names [.rc4] [.sha1] .rc4 .sha1 :=
    ⟨rfl, by decide, rfl, by decide, Or.inl rfl⟩
  have hstored : writtenSample.name = writtenName " É Base 𝒸K" [5] := rfl
  have hv : verifierSample.Fits .rc4 := ⟨rfl, rfl, rfl⟩
  obtain ⟨bits, ⟨-, hdefault⟩, hreads⟩ := reads_written hs (by decide) hstored (by decide) hv
  have hbits : bits = 40 := ((hdefault rfl) _ (LowerCase.map_toLower _)).1 (by decide)
  rw [hbits] at hreads
  exact hreads

end PageVault
