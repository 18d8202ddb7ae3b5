import Mathlib.Data.List.GetD
import PageVault.Proofs.Files.Standard
import PageVault.Proofs.Files.Stream

/-!
# How much of a digest is checked

A verifier states how many bytes of its digest count.  The size is a word of the file that no
reader checks.  The format cuts both digests to that many bytes, or extends them with zeros
(`Agrees`).  A lock compares no more bytes than are stored, and comes to the same verdict:
where the stored digest has ended, the other one has too, and zeros agree
(`isConsistent_iff_agrees`).  So a password is accepted exactly if the format accepts it, for
every size.

What a size below that of a digest leaves out is never compared.  A lock checks whole digests
if the stated size is at least twenty; for every size below there are files that open with a
password although its digest differs.

§1 strings that are cut or extended · §2 the comparison · §3 locks with a stated size ·
§4 passwords are accepted as the format says · §5 what is left unchecked.
-/

namespace PageVault

open Reading (Reads)

/-! ## §1  Strings that are cut or extended -/

namespace Bytes

/-- Behind the longer string nothing is left to compare. -/
theorem fit_min_eq_fit_min_iff {n : Nat} {a b : Bytes} (h : b.length ≤ a.length) :
    fit (min n a.length) 0 a = fit (min n a.length) 0 b ↔ fit n 0 a = fit n 0 b := by
  rw [fit_eq_fit_iff, fit_eq_fit_iff]
  constructor
  · intro hmin i hi
    rcases Nat.lt_or_ge i a.length with hlt | hle
    · exact hmin i (Nat.lt_min.mpr ⟨hi, hlt⟩)
    · rw [List.getD_eq_default _ _ hle, List.getD_eq_default _ _ (Nat.le_trans h hle)]
  · intro hn i hi
    exact hn i (Nat.lt_of_lt_of_le hi (Nat.min_le_left _ _))

end Bytes

/-! ## §2  The comparison -/

namespace EncryptionVerifier

variable {v : EncryptionVerifier} {verifier hash : Bytes}

/-- What the format asks for: the decrypted digest and the digest of the decrypted verifier are
the same, both cut or extended with zeros to the stated size. -/
def Agrees (v : EncryptionVerifier) (verifier hash : Bytes) : Prop :=
  Bytes.fit v.hashSize.toNat 0 hash
    = Bytes.fit v.hashSize.toNat 0 (HashAlgorithm.sha1.hash verifier)

theorem agrees_iff : v.Agrees verifier hash
    ↔ ∀ i < v.hashSize.toNat, hash.getD i 0 = (HashAlgorithm.sha1.hash verifier).getD i 0 :=
  Bytes.fit_eq_fit_iff

/-- **Comparing what is stored is enough**, if whole digests are stored. -/
theorem isConsistent_iff_agrees (h : 20 ≤ hash.length) :
    v.isConsistent verifier hash = true ↔ v.Agrees verifier hash := by
  unfold isConsistent Agrees
  rw [beq_iff_eq]
  refine Bytes.fit_min_eq_fit_min_iff ?_
  rw [HashAlgorithm.length_hash]
  exact h

/-- A size that covers digests leaves none of their bytes out. -/
theorem Agrees.hash_eq (ha : v.Agrees verifier hash) (hl : 20 ≤ hash.length)
    (hn : 20 ≤ v.hashSize.toNat) : HashAlgorithm.sha1.hash verifier = hash.take 20 := by
  have hlen : (HashAlgorithm.sha1.hash verifier).length = 20 := HashAlgorithm.length_hash _ _
  apply List.ext_getElem
  · rw [hlen, List.length_take_of_le hl]
  · intro i hi hi'
    have hbyte := agrees_iff.mp ha i (by omega)
    rw [List.getD_eq_getElem _ _ (by omega), List.getD_eq_getElem _ _ hi] at hbyte
    rw [List.getElem_take]
    exact hbyte.symm

end EncryptionVerifier

/-! ## §3  Locks with a stated size -/

/-- Keys have at least 40 bits, and verifier and digest their lengths. -/
theorem CryptoApiLock.of_read {encodingKey : Bytes} {lock : CryptoApiLock} {c c' : Cursor}
    (h : read encodingKey c = (.ok lock, c')) :
    40 ≤ lock.keyBits.toNat ∧ lock.verifier.encryptedVerifier.length = 16
      ∧ lock.verifier.encryptedHash.length = 20 := by
  unfold read at h
  obtain ⟨header, c₁, hheader, h⟩ := Reading.bind_eq_ok.mp h
  obtain ⟨verifier, c₂, hverifier, h⟩ := Reading.bind_eq_ok.mp h
  obtain ⟨rfl, -⟩ := Reading.pure_eq_ok.mp h
  obtain ⟨hmem, hleast, -⟩ := EncryptionHeader.of_check (EncryptionHeader.check_of_read hheader)
  have hcipher : header.cipher = .rc4 := List.mem_singleton.mp hmem
  obtain ⟨hv, hh⟩ := EncryptionVerifier.length_of_read hverifier
  rw [hcipher] at hleast hh
  exact ⟨UInt32.le_iff_toNat_le.mp hleast, hv, hh⟩

namespace OfficeLock

variable {encodingKey password verifier hash : Bytes} {lock : OfficeLock} {v : EncryptionVerifier}

/-- A lock that was read, with its verifier: one for AES, with any number of rounds, or one for
RC4 of the crypto API. -/
inductive HoldsVerifier (encodingKey : Bytes) : OfficeLock → EncryptionVerifier → Prop
  | standard (scheme : Scheme) {rounds : Nat} {lock : StandardLock} {c c' : Cursor}
      (h : StandardLock.read encodingKey rounds c = (.ok lock, c')) :
      HoldsVerifier encodingKey (.standard scheme lock) lock.verifier
  | cryptoApi {lock : CryptoApiLock} {c c' : Cursor}
      (h : CryptoApiLock.read encodingKey c = (.ok lock, c')) :
      HoldsVerifier encodingKey (.cryptoApi lock) lock.verifier

/-- The verifier and the digest that a password decrypts, with the key that the format has for
block zero. -/
def Reveals (password : Bytes) : OfficeLock → Bytes → Bytes → Prop
  | standard _ lock, verifier, hash =>
      let key :=
        standardKey lock.rounds lock.keyLength lock.verifier.salt password (Bytes.le32 0)
      CipherSpec.aesEcb.decrypt key none lock.verifier.encryptedVerifier = .ok verifier
        ∧ CipherSpec.aesEcb.decrypt key none lock.verifier.encryptedHash = .ok hash
  | cryptoApi lock, verifier, hash =>
      let key := cryptoApiKey lock.keyBits lock.verifier.salt password (Bytes.le32 0)
      verifier.length = 16
        ∧ Rc4.crypt key (lock.verifier.encryptedVerifier ++ lock.verifier.encryptedHash)
          = verifier ++ hash
  | _, _, _ => False

theorem Reveals.unique {verifier' hash' : Bytes} (h : lock.Reveals password verifier hash)
    (h' : lock.Reveals password verifier' hash') : verifier' = verifier ∧ hash' = hash := by
  cases lock with
  | standard scheme lock =>
      obtain ⟨hv, hh⟩ := h
      obtain ⟨hv', hh'⟩ := h'
      rw [hv] at hv'
      rw [hh] at hh'
      exact ⟨(Except.ok.inj hv').symm, (Except.ok.inj hh').symm⟩
  | cryptoApi lock =>
      obtain ⟨hl, hs⟩ := h
      obtain ⟨hl', hs'⟩ := h'
      exact List.append_inj (hs'.symm.trans hs) (hl'.trans hl.symm)
  | binaryDocument lock => exact h.elim
  | agile lock => exact h.elim

/-- What the checks while reading decide: whatever the password, a verifier and a digest are
decrypted, the digest as long as it is stored, and nothing but the comparison of the two says
whether the lock opens. -/
theorem HoldsVerifier.exists_unlock_eq (h : HoldsVerifier encodingKey lock v) (password : Bytes) :
    ∃ verifier hash codec, lock.Reveals password verifier hash
      ∧ (hash.length = 32 ∨ hash.length = 20)
      ∧ lock.unlock password
        = if v.isConsistent verifier hash then .ok codec else .error .wrongPassword := by
  cases h with
  | standard scheme hread =>
      rename_i lock _ _
      have hl := StandardLock.wellFormed_of_read hread
      obtain ⟨verifier, hash, hv, hh, hu⟩ := StandardLock.exists_unlock_eq hl password
      rw [StandardLock.derive_stretched] at hv hh
      have hlen : hash.length = 32 := (CipherSpec.length_of_transform_eq_ok hh).trans hl.length_hash
      refine ⟨verifier, hash, .fresh scheme (.standard (lock.keysOf password)) (.block .aesEcb)
        lastOfficePage, ⟨hv, hh⟩, Or.inl hlen, ?_⟩
      show (lock.unlock password).map _ = _
      rw [hu]
      split <;> rfl
  | cryptoApi hread =>
      rename_i lock _ _
      obtain ⟨hbits, hv, hh⟩ := CryptoApiLock.of_read hread
      have hk := CryptoApiLock.derive_keysOf (Nat.le_trans (by decide) hbits) password
        (Bytes.le32 0)
      -- Decrypting the two one behind the other is decrypting them in one.
      have hstream := Rc4.apply_append
        (Rc4.ofKey (cryptoApiKey lock.keyBits lock.verifier.salt password (Bytes.le32 0)))
        lock.verifier.encryptedVerifier lock.verifier.encryptedHash
      refine ⟨_, _, .fresh .officeRc4CryptoApi (.cryptoApi (lock.keysOf password)) .stream
        lastOfficePage, ⟨?_, congrArg Prod.fst hstream⟩, Or.inr ?_, ?_⟩
      · rw [← hv]
        exact Rc4.length_crypt _ _
      · rw [← hh, Rc4.apply_eq]
        simp
      · show (lock.unlock password).map _ = _
        unfold CryptoApiLock.unlock
        dsimp only
        rw [hk]
        split <;> rfl

/-- The verifier that states a size, if the lock has one. -/
def verifier? : OfficeLock → Option EncryptionVerifier
  | standard _ lock => some lock.verifier
  | cryptoApi lock => some lock.verifier
  | binaryDocument _ => none
  | agile _ => none

theorem ReadAs.holdsVerifier (h : lock.ReadAs encodingKey) (hv : lock.verifier? = some v) :
    HoldsVerifier encodingKey lock v := by
  cases h with
  | standard hread =>
      cases hv
      exact .standard .officeStandard hread
  | nonStandard hread =>
      cases hv
      exact .standard .officeNonStandard hread
  | cryptoApi hread =>
      cases hv
      exact .cryptoApi hread
  | binaryDocument | agile => cases hv

/-! ## §4  Passwords are accepted as the format says -/

/-- The format accepts a password: the verifier and the digest that it decrypts agree, however
far the stated size goes. -/
def Accepts (lock : OfficeLock) (v : EncryptionVerifier) (password : Bytes) : Prop :=
  ∃ verifier hash, lock.Reveals password verifier hash ∧ v.Agrees verifier hash

/-- An attempt succeeds if the format accepts the password, and fails because of it if not. -/
def Follows {α : Type} (attempt : Except Error α) (accepted : Prop) : Prop :=
  (accepted → ∃ a, attempt = .ok a) ∧ (¬ accepted → attempt = .error .wrongPassword)

theorem HoldsVerifier.unlock_follows (h : HoldsVerifier encodingKey lock v) (password : Bytes) :
    Follows (lock.unlock password) (lock.Accepts v password) := by
  obtain ⟨verifier, hash, codec, hr, hlen, hu⟩ := h.exists_unlock_eq password
  have hiff : v.isConsistent verifier hash = true ↔ v.Agrees verifier hash :=
    EncryptionVerifier.isConsistent_iff_agrees (by omega)
  rw [hu]
  constructor
  · rintro ⟨verifier', hash', hr', ha⟩
    obtain ⟨rfl, rfl⟩ := hr.unique hr'
    exact ⟨codec, if_pos (hiff.mpr ha)⟩
  · intro hn
    exact if_neg fun hc => hn ⟨verifier, hash, hr, hiff.mp hc⟩

/-- What follows for a lock follows for its file: opening does nothing else that can fail. -/
theorem openFile_follows {source : PasswordSource} {header : Bytes} {layout : Layout}
    {spinLimit : UInt32} {info : OfficeInfo} (hf : layout.family = .office)
    (hi : readOfficeInfo header layout = .ok (some info))
    (hr : (read info.encodingKey spinLimit info.major info.minor info.cursor).1 = .ok lock)
    {accepted : Prop} (hu : Follows (lock.unlock (passwordBytes source.get.1)) accepted) :
    Follows (openFile source header layout spinLimit).outcome accepted := by
  have ho : (openFile source header layout spinLimit).outcome
      = (lock.unlock (passwordBytes source.get.1)).map Handler.coded := by
    rw [openFile_of_office hf, openOffice, hi]
    show info.unlock spinLimit source.get.1 = _
    rw [OfficeInfo.unlock, hr]
    show (lock.unlock (passwordBytes source.get.1) >>= fun codec => .ok (Handler.coded codec)) = _
    cases lock.unlock (passwordBytes source.get.1) <;> rfl
  rw [ho]
  constructor
  · intro ha
    obtain ⟨codec, hc⟩ := hu.1 ha
    exact ⟨.coded codec, by rw [hc]; rfl⟩
  · intro hn
    rw [hu.2 hn]
    rfl

/-- **The comparison is the one of the format**, for every stated size.  It is made on at most
as many bytes as are stored, and comes to the same verdict as on strings that are extended to
the whole size.  So for every header, password and number of rounds the passwords that open a
lock are those that the format accepts, and no other reason keeps a password from it.  The
same holds for the file with the lock. -/
theorem accepts_as_specified :
    (∀ (v : EncryptionVerifier) (verifier hash : Bytes), hash.length = 32 ∨ hash.length = 20 →
      (v.isConsistent verifier hash = true ↔ v.Agrees verifier hash)
      ∧ ∃ counted, counted ≤ v.hashSize.toNat ∧ counted ≤ hash.length
        ∧ v.isConsistent verifier hash
          = (Bytes.fit counted 0 hash == Bytes.fit counted 0 (HashAlgorithm.sha1.hash verifier)))
    ∧ (∀ (encodingKey : Bytes) (lock : OfficeLock) (v : EncryptionVerifier),
      HoldsVerifier encodingKey lock v →
      ∀ password, Follows (lock.unlock password) (lock.Accepts v password))
    ∧ ∀ (source : PasswordSource) (header : Bytes) (layout : Layout) (spinLimit : UInt32)
      (info : OfficeInfo) (lock : OfficeLock) (v : EncryptionVerifier),
      layout.family = .office → readOfficeInfo header layout = .ok (some info) →
      (read info.encodingKey spinLimit info.major info.minor info.cursor).1 = .ok lock →
      lock.verifier? = some v →
      Follows (openFile source header layout spinLimit).outcome
        (lock.Accepts v (passwordBytes source.get.1)) := by
  refine ⟨?_, fun _ _ _ h => h.unlock_follows, ?_⟩
  · intro v verifier hash hlen
    refine ⟨EncryptionVerifier.isConsistent_iff_agrees (by omega), ?_⟩
    exact ⟨_, Nat.min_le_left _ _, Nat.min_le_right _ _, rfl⟩
  · intro source header layout spinLimit info lock v hf hi hr hv
    have hread := readAs_of_read (Prod.ext hr rfl)
    exact openFile_follows hf hi hr ((hread.holdsVerifier hv).unlock_follows _)

/-- The sample for AES, its verifier sealed for the password `a`; the size that it states is
the greatest there is. -/
def greatestSize : StandardInfo :=
  let info := StandardInfo.sample 0x24 rfl rfl
  StandardInfo.sealed { info with verifier := { info.verifier with hashSize := 0xFFFFFFFF } }
    (passwordBytes (some "a")) (List.replicate 16 8)

/-- The file with it opens as it says. -/
theorem accepts_as_specified_greatestSize :
    let lock := OfficeLock.standard .officeStandard (greatestSize.lock [1, 2, 3, 4])
    let v := greatestSize.verifier
    let digest := HashAlgorithm.sha1.hash (List.replicate 16 8) ++ List.replicate 12 0
    v.hashSize = 0xFFFFFFFF
    ∧ v.isConsistent (List.replicate 16 8) digest = true
    ∧ lock.Accepts v (passwordBytes (some "a"))
    ∧ (∃ codec, lock.unlock (passwordBytes (some "a")) = .ok codec)
    ∧ ∃ h, (openFile (.known "a") (headerPage .accdb [1, 2, 3, 4] greatestSize.bytes) .accdb
        0).outcome = .ok h := by
  intro lock v digest
  obtain ⟨hcompare, hlock, hfile⟩ := accepts_as_specified
  have hs : greatestSize.Seals (passwordBytes (some "a")) (List.replicate 16 8) :=
    StandardInfo.seals_sealed _ _ rfl
  have hi : HoldsInfo .accdb (headerPage .accdb [1, 2, 3, 4] greatestSize.bytes) [1, 2, 3, 4]
      greatestSize.bytes := by
    refine holdsInfo_headerPage (by decide) rfl rfl ?_
    rw [NumberedInfo.length_bytes, hs.length_encryptedVerifier, hs.length_encryptedHash]
    show 32 + StandardInfo.sampleHeader.length + 16 + 32 ≤ 0x7FFF
    decide
  have hread := hs.reads_lock [1, 2, 3, 4] 50000
  have hholds : HoldsVerifier [1, 2, 3, 4] lock v := .standard .officeStandard hread.start
  have hagrees : v.Agrees (List.replicate 16 8) digest := Bytes.fit_append_replicate _ _ _ _
  have ha : lock.Accepts v (passwordBytes (some "a")) :=
    ⟨_, _, ⟨CipherSpec.transform_opposite hs.verifier_eq,
      CipherSpec.transform_opposite hs.hash_eq⟩, hagrees⟩
  have hlen : digest.length = 32 := by
    rw [List.length_append, HashAlgorithm.length_hash, List.length_replicate]
    rfl
  refine ⟨rfl, (hcompare v _ _ (Or.inl hlen)).1.mpr hagrees, ha, (hlock _ _ _ hholds _).1 ha, ?_⟩
  have hr := hs.reads [1, 2, 3, 4] 0 (Bytes.le16 3 ++ Bytes.le16 2) []
  rw [List.append_nil] at hr
  exact (hfile (.known "a") _ .accdb 0 _ lock v rfl hi.readOfficeInfo_eq (congrArg Prod.fst hr)
    rfl).1 ha

end OfficeLock

/-! ## §5  What is left unchecked -/

/-- A digest with all its bytes changed from a place on. -/
def Bytes.spoilt (n : Nat) (digest : Bytes) : Bytes :=
  digest.take n ++ (digest.drop n).map (· + 1)

namespace Bytes

variable {n : Nat} {digest : Bytes}

@[simp] theorem length_spoilt (n : Nat) (digest : Bytes) :
    (spoilt n digest).length = digest.length := by
  unfold spoilt
  rw [List.length_append, List.length_map, ← List.length_append, List.take_append_drop]

theorem fit_spoilt_append (h : n ≤ digest.length) (tail : Bytes) :
    fit n 0 (spoilt n digest ++ tail) = fit n 0 digest := by
  have hn : (digest.take n).length = n := List.length_take_of_le h
  rw [fit_eq_take, fit_eq_take, spoilt, List.append_assoc, List.append_assoc,
    List.take_append_of_le_length (Nat.le_of_eq hn.symm), List.take_take, Nat.min_self,
    List.take_append_of_le_length h]

theorem spoilt_ne (h : n < digest.length) : spoilt n digest ≠ digest := by
  intro heq
  have hbyte := congrArg (fun b => b[n]?) heq
  have hn : (digest.take n).length = n := List.length_take_of_le (Nat.le_of_lt h)
  simp only [spoilt, List.getElem?_append_right (Nat.le_of_eq hn), hn, Nat.sub_self,
    List.getElem?_map, List.getElem?_drop, Nat.add_zero, List.getElem?_eq_getElem h,
    Option.map_some, Option.some.injEq] at hbyte
  grind

end Bytes

namespace OfficeLock

variable {encodingKey password verifier tail : Bytes} {lock : OfficeLock} {v : EncryptionVerifier}

/-- The lock opens with a password although the digest that it decrypts is not the one of the
verifier. -/
def OpensUnchecked (lock : OfficeLock) (password : Bytes) : Prop :=
  ∃ verifier hash codec, lock.Reveals password verifier hash
    ∧ lock.unlock password = .ok codec
    ∧ HashAlgorithm.sha1.hash verifier ≠ hash.take 20

/-- A size that covers digests leaves nothing unchecked. -/
theorem HoldsVerifier.not_opensUnchecked (h : HoldsVerifier encodingKey lock v)
    (hn : 20 ≤ v.hashSize.toNat) (password : Bytes) : ¬ lock.OpensUnchecked password := by
  rintro ⟨verifier, hash, codec, hr, hu, hne⟩
  obtain ⟨verifier', hash', codec', hr', hlen, hu'⟩ := h.exists_unlock_eq password
  obtain ⟨rfl, rfl⟩ := hr'.unique hr
  rw [hu] at hu'
  split at hu'
  · rename_i hc
    have ha := (EncryptionVerifier.isConsistent_iff_agrees (by omega)).mp hc
    exact hne (ha.hash_eq (by omega) hn)
  · cases hu'

/-- A lock that decrypts a digest spoilt behind the stated size opens unchecked. -/
theorem HoldsVerifier.opensUnchecked (h : HoldsVerifier encodingKey lock v)
    (hn : v.hashSize.toNat < 20)
    (hr : lock.Reveals password verifier
      (Bytes.spoilt v.hashSize.toNat (HashAlgorithm.sha1.hash verifier) ++ tail)) :
    lock.OpensUnchecked password := by
  have hlen : (HashAlgorithm.sha1.hash verifier).length = 20 := HashAlgorithm.length_hash _ _
  have ha : lock.Accepts v password :=
    ⟨_, _, hr, Bytes.fit_spoilt_append (by omega) tail⟩
  obtain ⟨codec, hu⟩ := (h.unlock_follows password).1 ha
  refine ⟨_, _, codec, hr, hu, ?_⟩
  have hspoilt : (Bytes.spoilt v.hashSize.toNat (HashAlgorithm.sha1.hash verifier)).length = 20 :=
    (Bytes.length_spoilt _ _).trans hlen
  rw [List.take_append_of_le_length (Nat.le_of_eq hspoilt.symm),
    List.take_of_length_le (Nat.le_of_eq hspoilt)]
  exact (Bytes.spoilt_ne (by omega)).symm

end OfficeLock

/-- The info with other encrypted strings and another size. -/
def NumberedInfo.storing {ciphers : List HeaderCipher} (info : NumberedInfo ciphers)
    (encryptedVerifier encryptedHash : Bytes) (size : UInt32) : NumberedInfo ciphers :=
  { info with
    verifier :=
      { info.verifier with
        encryptedVerifier := encryptedVerifier
        hashSize := size
        encryptedHash := encryptedHash } }

/-- The info with a verifier for a password and a digest that is spoilt behind a size, in a file
whose keys are stretched in a number of rounds. -/
def StandardInfo.spoilt (info : StandardInfo) (rounds : Nat) (size : UInt32)
    (password verifier : Bytes) : StandardInfo :=
  let key :=
    standardKey rounds info.header.keyLength info.verifier.salt password (Bytes.le32 0)
  let digest := Bytes.spoilt size.toNat (HashAlgorithm.sha1.hash verifier)
  info.storing (Chaining.ecbEncrypt (Aes.cipher key) verifier)
    (Chaining.ecbEncrypt (Aes.cipher key) (digest ++ List.replicate 12 0)) size

/-- Such a file is read, and decrypts what it was made from. -/
theorem StandardInfo.reads_spoilt (info : StandardInfo) (scheme : Scheme) (rounds : Nat)
    (size : UInt32) (password : Bytes) {verifier : Bytes} (hl : verifier.length = 16)
    (encodingKey : Bytes) :
    let spoilt := info.spoilt rounds size password verifier
    let lock : StandardLock := ⟨encodingKey, spoilt.verifier, info.header.keyLength, rounds⟩
    Reads (StandardLock.read encodingKey rounds) (spoilt.headerBytes ++ spoilt.verifier.bytes) lock
      ∧ (OfficeLock.standard scheme lock).Reveals password verifier
        (Bytes.spoilt size.toNat (HashAlgorithm.sha1.hash verifier) ++ List.replicate 12 0) := by
  intro spoilt lock
  have hdigest : (Bytes.spoilt size.toNat (HashAlgorithm.sha1.hash verifier)
      ++ List.replicate 12 0).length = 32 := by
    rw [List.length_append, Bytes.length_spoilt, HashAlgorithm.length_hash, List.length_replicate]
    rfl
  have hk := (EncryptionHeader.supportsKeyLength_of_check info.accepted.check_eq).1
  have hv := encrypt_standardKey hk rounds info.verifier.salt password (Bytes.le32 0)
    (show verifier.length % 16 = 0 by rw [hl])
  have hh := encrypt_standardKey hk rounds info.verifier.salt password (Bytes.le32 0)
    (show _ % 16 = 0 by rw [hdigest])
  exact ⟨spoilt.reads_lock_of_length ((CipherSpec.length_of_transform_eq_ok hv).trans hl)
    ((CipherSpec.length_of_transform_eq_ok hh).trans hdigest) encodingKey rounds,
    CipherSpec.transform_opposite hv, CipherSpec.transform_opposite hh⟩

@[inherit_doc StandardInfo.spoilt]
def CryptoApiInfo.spoilt (info : CryptoApiInfo) (size : UInt32) (password verifier : Bytes) :
    CryptoApiInfo :=
  let digest := Bytes.spoilt size.toNat (HashAlgorithm.sha1.hash verifier)
  let stream := Rc4.crypt (info.key password (Bytes.le32 0)) (verifier ++ digest)
  info.storing (stream.take 16) (stream.drop 16) size

@[inherit_doc StandardInfo.reads_spoilt]
theorem CryptoApiInfo.reads_spoilt (info : CryptoApiInfo) (size : UInt32) (password : Bytes)
    {verifier : Bytes} (hl : verifier.length = 16) (encodingKey : Bytes) :
    let spoilt := info.spoilt size password verifier
    let lock := spoilt.lock encodingKey
    Reads (CryptoApiLock.read encodingKey) (spoilt.headerBytes ++ spoilt.verifier.bytes) lock
      ∧ (OfficeLock.cryptoApi lock).Reveals password verifier
        (Bytes.spoilt size.toNat (HashAlgorithm.sha1.hash verifier) ++ []) := by
  intro spoilt lock
  have hs : SealsStream (fun verifier => Bytes.spoilt size.toNat
      (HashAlgorithm.sha1.hash verifier)) (info.key password (Bytes.le32 0)) verifier
      spoilt.verifier.encryptedVerifier spoilt.verifier.encryptedHash :=
    SealsStream.of_crypt _ _ hl
  have hdigest : spoilt.verifier.encryptedHash.length = 20 :=
    hs.length_encryptedHash.trans ((Bytes.length_spoilt _ _).trans (HashAlgorithm.length_hash _ _))
  refine ⟨spoilt.reads_lock_of_length hs.length_encryptedVerifier hdigest encodingKey, hl, ?_⟩
  show Rc4.crypt _ (spoilt.verifier.encryptedVerifier ++ spoilt.verifier.encryptedHash) = _
  rw [hs.stream_eq, List.append_nil]
  exact Rc4.crypt_crypt _ _

namespace OfficeLock

/-- **A digest is checked as far as the file says.**  Which passwords open a lock is decided by
the bytes below the stated size.  From twenty on these are all, and no password opens a lock
with a wrong digest.  Below twenty there is, for every header, password and number of rounds, a
file that is read and opens with the password although its digest is wrong, with AES and with
RC4. -/
theorem checked_as_far_as_stated (size : UInt32) :
    (∀ (encodingKey : Bytes) (lock : OfficeLock) (v : EncryptionVerifier),
      HoldsVerifier encodingKey lock v → v.hashSize = size → ∀ password,
      (∃ verifier hash, lock.Reveals password verifier hash
        ∧ ((∃ codec, lock.unlock password = .ok codec)
          ↔ ∀ i < size.toNat, hash.getD i 0 = (HashAlgorithm.sha1.hash verifier).getD i 0))
      ∧ (20 ≤ size.toNat → ¬ lock.OpensUnchecked password))
    ∧ (size.toNat < 20 → ∀ encodingKey password : Bytes,
      (∀ (info : StandardInfo) (scheme : Scheme) (rounds : Nat),
        ∃ (lock : StandardLock) (bytes : Bytes),
          Reads (StandardLock.read encodingKey rounds) (info.headerBytes ++ bytes) lock
          ∧ lock.verifier.hashSize = size
          ∧ (OfficeLock.standard scheme lock).OpensUnchecked password)
      ∧ ∀ info : CryptoApiInfo, ∃ (lock : CryptoApiLock) (bytes : Bytes),
          Reads (CryptoApiLock.read encodingKey) (info.headerBytes ++ bytes) lock
          ∧ lock.verifier.hashSize = size
          ∧ (OfficeLock.cryptoApi lock).OpensUnchecked password) := by
  constructor
  · rintro encodingKey lock v h rfl password
    refine ⟨?_, fun hn => h.not_opensUnchecked hn password⟩
    obtain ⟨verifier, hash, codec, hr, hlen, hu⟩ := h.exists_unlock_eq password
    refine ⟨verifier, hash, hr, ?_⟩
    rw [hu, ← EncryptionVerifier.agrees_iff,
      ← EncryptionVerifier.isConsistent_iff_agrees (by omega)]
    cases v.isConsistent verifier hash <;> simp
  · intro hsize encodingKey password
    have hl : (List.replicate 16 (8 : UInt8)).length = 16 := rfl
    constructor
    · intro info scheme rounds
      obtain ⟨hread, hr⟩ := info.reads_spoilt scheme rounds size password hl encodingKey
      have hholds := HoldsVerifier.standard scheme hread.start
      exact ⟨_, _, hread, rfl, hholds.opensUnchecked hsize hr⟩
    · intro info
      obtain ⟨hread, hr⟩ := info.reads_spoilt size password hl encodingKey
      have hholds := HoldsVerifier.cryptoApi hread.start
      exact ⟨_, _, hread, rfl, hholds.opensUnchecked hsize hr⟩

/-- The file that states the greatest size is checked; files with either cipher that state
nineteen are not. -/
theorem checked_as_far_as_stated_samples :
    let password := passwordBytes (some "a")
    let greatest := greatestSize.lock [1, 2, 3, 4]
    ¬ (OfficeLock.standard .officeStandard greatest).OpensUnchecked password
    ∧ (∃ (lock : StandardLock) (bytes : Bytes),
      Reads (StandardLock.read [1, 2, 3, 4] StandardLock.standardRounds)
        (StandardInfo.sampleHeader ++ bytes) lock
      ∧ lock.verifier.hashSize = 19
      ∧ (OfficeLock.standard .officeStandard lock).OpensUnchecked password)
    ∧ ∃ (lock : CryptoApiLock) (bytes : Bytes),
      Reads (CryptoApiLock.read [1, 2, 3, 4]) (CryptoApiInfo.sample.headerBytes ++ bytes) lock
      ∧ lock.verifier.hashSize = 19
      ∧ (OfficeLock.cryptoApi lock).OpensUnchecked password := by
  intro password greatest
  have hs : greatestSize.Seals password (List.replicate 16 8) :=
    StandardInfo.seals_sealed _ _ rfl
  have hholds : HoldsVerifier [1, 2, 3, 4] (.standard .officeStandard greatest)
      greatestSize.verifier := .standard .officeStandard (hs.reads_lock _ 50000).start
  have hgreatest := (checked_as_far_as_stated 0xFFFFFFFF).1 _ _ _ hholds rfl password
  obtain ⟨hstandard, hcryptoApi⟩ :=
    (checked_as_far_as_stated 19).2 (by decide) [1, 2, 3, 4] password
  exact ⟨hgreatest.2 (by decide),
    hstandard (StandardInfo.sample 0x24 rfl rfl) .officeStandard StandardLock.standardRounds,
    hcryptoApi CryptoApiInfo.sample⟩

/-- The sample for AES, made for the password `a`.  Keys are not stretched, no byte of the
digest is said to count, and none of them is right.  The file is read, and opens with the
password. -/
theorem opensUnchecked_unstatedSize :
    let password := passwordBytes (some "a")
    let info := (StandardInfo.sample 0x04 rfl rfl).spoilt 0 0 password (List.replicate 16 8)
    ∃ (lock : StandardLock) (c : Cursor),
      StandardLock.read [1, 2, 3, 4] 0 (.start (info.headerBytes ++ info.verifier.bytes))
        = (.ok lock, c)
      ∧ (OfficeLock.standard .officeNonStandard lock).OpensUnchecked password := by
  intro password info
  obtain ⟨hread, hr⟩ := (StandardInfo.sample 0x04 rfl rfl).reads_spoilt .officeNonStandard 0 0
    password (rfl : (List.replicate 16 (8 : UInt8)).length = 16) [1, 2, 3, 4]
  have hholds := HoldsVerifier.standard .officeNonStandard hread.start
  exact ⟨_, _, hread.start, hholds.opensUnchecked (by decide) hr⟩

end OfficeLock

end PageVault
