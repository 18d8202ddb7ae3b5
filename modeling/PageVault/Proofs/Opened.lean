import PageVault.Opening
import PageVault.Proofs.Header.Checks

/-!
# Where open files come from

Every handler that `openFile` returns is either the plain one or the codec of one of
the providers (`Codec.Issued`).  For the office providers the locks they come from
were read from a file and were checked on the way: a standard lock has a key length
that AES takes, and verifiers of whole blocks (`StandardLock.WellFormed`).

§1 locks that were read · §2 codecs of opened files · §3 handlers of opened files.
-/

namespace PageVault

/-! ## §1  Locks that were read -/

namespace EncryptionHeader

variable {ciphers : List HeaderCipher} {hashes : List HeaderHash} {header : EncryptionHeader}

/-- What the checks say: the cipher is one of the accepted, and the key size is
within its range. -/
theorem of_check (h : check ciphers hashes header = .ok ()) :
    header.cipher ∈ ciphers ∧ header.cipher.leastKeyBits ≤ header.keyBits
      ∧ header.keyBits ≤ header.cipher.greatestKeyBits := by
  have hvalid := check_eq_ok_iff.mp h
  exact ⟨hvalid.cipher_mem, hvalid.least_le, hvalid.le_greatest⟩

/-- The key sizes of the AES ciphers leave no choice, and AES takes them. -/
theorem supportsKeyLength_of_check
    (h : check [.aes128, .aes192, .aes256] hashes header = .ok ()) :
    CipherAlgorithm.aes.supportsKeyLength header.keyLength = true
      ∧ header.cipher.verifierHashLength = 32 := by
  obtain ⟨hmem, hleast, hgreatest⟩ := of_check h
  unfold keyLength
  cases hc : header.cipher with
  | external => simp [hc] at hmem
  | rc4 => simp [hc] at hmem
  | aes128 | aes192 | aes256 =>
      -- The least and the greatest size are the same.
      rw [hc] at hleast hgreatest
      rw [UInt32.le_antisymm hgreatest hleast]
      exact ⟨rfl, rfl⟩

end EncryptionHeader

/-- The lengths in a verifier that was read. -/
theorem EncryptionVerifier.length_of_read {cipher : HeaderCipher} {v : EncryptionVerifier}
    {c c' : Cursor} (h : read cipher c = (.ok v, c')) :
    v.encryptedVerifier.length = 16 ∧ v.encryptedHash.length = cipher.verifierHashLength := by
  unfold read at h
  obtain ⟨saltSize, c₁, -, h⟩ := Reading.bind_eq_ok.mp h
  split at h
  · exact absurd h Reading.fail_ne_ok
  · obtain ⟨salt, c₂, -, h⟩ := Reading.bind_eq_ok.mp h
    obtain ⟨verifier, c₃, hverifier, h⟩ := Reading.bind_eq_ok.mp h
    obtain ⟨hashSize, c₄, -, h⟩ := Reading.bind_eq_ok.mp h
    obtain ⟨hash, c₅, hhash, h⟩ := Reading.bind_eq_ok.mp h
    obtain ⟨rfl, -⟩ := Reading.pure_eq_ok.mp h
    exact ⟨Reading.length_of_take_eq_ok hverifier, Reading.length_of_take_eq_ok hhash⟩

/-- A key length that AES takes, and a verifier and a digest of whole blocks. -/
structure StandardLock.WellFormed (lock : StandardLock) : Prop where
  takes_key : CipherAlgorithm.aes.supportsKeyLength lock.keyLength = true
  length_verifier : lock.verifier.encryptedVerifier.length = 16
  length_hash : lock.verifier.encryptedHash.length = 32

theorem StandardLock.wellFormed_of_read {encodingKey : Bytes} {rounds : Nat}
    {lock : StandardLock} {c c' : Cursor} (h : read encodingKey rounds c = (.ok lock, c')) :
    lock.WellFormed := by
  unfold read at h
  obtain ⟨header, c₁, hheader, h⟩ := Reading.bind_eq_ok.mp h
  obtain ⟨verifier, c₂, hverifier, h⟩ := Reading.bind_eq_ok.mp h
  obtain ⟨rfl, -⟩ := Reading.pure_eq_ok.mp h
  obtain ⟨hkey, hhash⟩ :=
    EncryptionHeader.supportsKeyLength_of_check (EncryptionHeader.check_of_read hheader)
  obtain ⟨hv, hh⟩ := EncryptionVerifier.length_of_read hverifier
  exact ⟨hkey, hv, hh.trans hhash⟩

namespace OfficeLock

/-- What a lock was read as, with the reading that it comes from. -/
inductive ReadAs (encodingKey : Bytes) : OfficeLock → Prop
  | standard {lock : StandardLock} {c c' : Cursor}
      (h : StandardLock.read encodingKey StandardLock.standardRounds c = (.ok lock, c')) :
      ReadAs encodingKey (.standard .officeStandard lock)
  | nonStandard {lock : StandardLock} {c c' : Cursor}
      (h : StandardLock.read encodingKey 0 c = (.ok lock, c')) :
      ReadAs encodingKey (.standard .officeNonStandard lock)
  | cryptoApi {lock : CryptoApiLock} {c c' : Cursor}
      (h : CryptoApiLock.read encodingKey c = (.ok lock, c')) :
      ReadAs encodingKey (.cryptoApi lock)
  | binaryDocument {lock : BinaryDocumentLock} {c c' : Cursor}
      (h : BinaryDocumentLock.read encodingKey c = (.ok lock, c')) :
      ReadAs encodingKey (.binaryDocument lock)
  | agile {lock : AgileLock} {spinLimit : UInt32} {c c' : Cursor}
      (h : AgileLock.read encodingKey spinLimit c = (.ok lock, c')) :
      ReadAs encodingKey (.agile lock)

theorem readAs_of_readCryptoApi {encodingKey : Bytes} {lock : OfficeLock} {c c' : Cursor}
    (h : readCryptoApi encodingKey c = (.ok lock, c')) : lock.ReadAs encodingKey := by
  unfold readCryptoApi at h
  split at h
  · rename_i hread
    cases h
    exact .cryptoApi hread
  · split at h
    · rename_i hread
      cases h
      exact .nonStandard hread
    · cases h
  · cases h

theorem readAs_of_readFlagged {encodingKey : Bytes} {major minor : UInt16}
    {lock : OfficeLock} {c c' : Cursor}
    (h : readFlagged encodingKey major minor c = (.ok lock, c')) : lock.ReadAs encodingKey := by
  unfold readFlagged at h
  obtain ⟨flags, c₁, -, h⟩ := Reading.bind_eq_ok.mp h
  split at h
  · exact absurd h Reading.fail_ne_ok
  · split at h
    · exact absurd h Reading.fail_ne_ok
    · split at h
      · obtain ⟨lock', c₂, hread, h⟩ := Reading.bind_eq_ok.mp h
        obtain ⟨rfl, -⟩ := Reading.pure_eq_ok.mp h
        exact .standard hread
      · exact readAs_of_readCryptoApi h

/-- **A lock that was read comes from the reading of its provider**, whatever the version. -/
theorem readAs_of_read {encodingKey : Bytes} {spinLimit : UInt32} {major minor : UInt16}
    {lock : OfficeLock} {c c' : Cursor}
    (h : read encodingKey spinLimit major minor c = (.ok lock, c')) : lock.ReadAs encodingKey := by
  unfold read at h
  split at h
  · obtain ⟨lock', c₁, hread, h⟩ := Reading.bind_eq_ok.mp h
    obtain ⟨rfl, -⟩ := Reading.pure_eq_ok.mp h
    exact .agile hread
  · split at h
    · obtain ⟨lock', c₁, hread, h⟩ := Reading.bind_eq_ok.mp h
      obtain ⟨rfl, -⟩ := Reading.pure_eq_ok.mp h
      exact .binaryDocument hread
    · split at h
      · exact absurd h Reading.fail_ne_ok
      · split at h
        · exact readAs_of_readFlagged h
        · exact absurd h Reading.fail_ne_ok

/-- What was checked while a lock was read: a standard one has one of its two schemes. -/
def WellFormed : OfficeLock → Prop
  | standard scheme lock =>
      (scheme = .officeStandard ∨ scheme = .officeNonStandard) ∧ lock.WellFormed
  | _ => True

/-- **A lock that was read is well-formed.** -/
theorem ReadAs.wellFormed {encodingKey : Bytes} {lock : OfficeLock}
    (h : lock.ReadAs encodingKey) : lock.WellFormed := by
  cases h with
  | standard hread => exact ⟨Or.inl rfl, StandardLock.wellFormed_of_read hread⟩
  | nonStandard hread => exact ⟨Or.inr rfl, StandardLock.wellFormed_of_read hread⟩
  | cryptoApi | binaryDocument | agile => trivial

end OfficeLock

/-! ## §2  Codecs of opened files -/

/-- The codecs that the providers make. -/
inductive Codec.Issued : Codec → Prop
  | jet (keys : JetKeys) : Issued (.fresh .jet (.jet keys) .stream lastJetPage)
  | msisamOld (keys : JetKeys) : Issued (.fresh .msisamOld (.jet keys) .stream lastMsisamPage)
  | msisamModern (keys : Msisam.Keys) :
      Issued (.fresh .msisamModern (.msisam keys) .stream lastMsisamPage)
  | standard {lock : StandardLock} {keys : StandardKeys} {scheme : Scheme}
      (hs : scheme = .officeStandard ∨ scheme = .officeNonStandard) (password : Bytes)
      (hl : lock.WellFormed) (hk : lock.unlock password = .ok keys) :
      Issued (.fresh scheme (.standard keys) (.block .aesEcb) lastOfficePage)
  | cryptoApi (keys : CryptoApiKeys) :
      Issued (.fresh .officeRc4CryptoApi (.cryptoApi keys) .stream lastOfficePage)
  | binaryDocument (keys : BinaryDocumentKeys) :
      Issued (.fresh .officeBinaryRc4 (.binaryDocument keys) .stream lastOfficePage)
  | agile {lock : AgileLock} {keys : AgileKeys} (password : Bytes)
      (hk : lock.unlock password = .ok keys) :
      Issued (.fresh .officeAgile (.agile keys) (.block lock.pageSuite.spec) lastOfficePage)

theorem OfficeLock.issued_of_unlock {lock : OfficeLock} {password : Bytes} {codec : Codec}
    (hl : lock.WellFormed) (h : lock.unlock password = .ok codec) : codec.Issued := by
  cases lock with
  | standard scheme lock =>
      obtain ⟨keys, hk, rfl⟩ := Outcome.map_eq_ok.mp h
      exact .standard hl.1 password hl.2 hk
  | cryptoApi lock =>
      obtain ⟨keys, -, rfl⟩ := Outcome.map_eq_ok.mp h
      exact .cryptoApi keys
  | binaryDocument lock =>
      obtain ⟨keys, -, rfl⟩ := Outcome.map_eq_ok.mp h
      exact .binaryDocument keys
  | agile lock =>
      obtain ⟨keys, hk, rfl⟩ := Outcome.map_eq_ok.mp h
      exact .agile password hk

/-- No page has been coded with the codec of a file that was just opened. -/
theorem Codec.Issued.eq_fresh {c : Codec} (h : c.Issued) :
    c = .fresh c.scheme c.keys c.transform c.lastPage := by
  cases h <;> rfl

/-! ## §3  Handlers of opened files -/

/-- The handler of a file that was opened: with some password or none, and with any
header, layout and limit. -/
def Handler.Opened (h : Handler) : Prop :=
  ∃ source header layout spinLimit, (openFile source header layout spinLimit).outcome = .ok h

section

variable {source : PasswordSource} {header : Bytes} {layout : Layout} {spinLimit : UInt32}
  {h : Handler}

theorem issued_of_openJet (ho : openJet header layout = .ok h) :
    h = .plain ∨ ∃ c, h = .coded c ∧ c.Issued := by
  unfold openJet at ho
  obtain ⟨key, -, ho⟩ := Outcome.bind_eq_ok.mp ho
  split at ho
  · cases ho
    exact Or.inl rfl
  · cases ho
    exact Or.inr ⟨_, rfl, .jet ⟨key⟩⟩

theorem issued_of_openMsisam (ho : (openMsisam source header layout).outcome = .ok h) :
    ∃ c, h = .coded c ∧ c.Issued := by
  unfold openMsisam at ho
  split at ho
  · cases ho
  · split at ho
    · split at ho
      · cases ho
      · obtain ⟨keys, -, rfl⟩ := Outcome.map_eq_ok.mp ho
        exact ⟨_, rfl, .msisamModern keys⟩
    · unfold openOldMsisam at ho
      obtain ⟨keys, -, ho⟩ := Outcome.bind_eq_ok.mp ho
      cases ho
      exact ⟨_, rfl, .msisamOld keys⟩

theorem issued_of_openOffice (ho : (openOffice source header layout spinLimit).outcome = .ok h) :
    h = .plain ∨ ∃ c, h = .coded c ∧ c.Issued := by
  unfold openOffice at ho
  split at ho
  · cases ho
  · cases ho
    exact Or.inl rfl
  · rename_i info _
    unfold OfficeInfo.unlock at ho
    obtain ⟨lock, hread, ho⟩ := Outcome.bind_eq_ok.mp ho
    obtain ⟨codec, hunlock, ho⟩ := Outcome.bind_eq_ok.mp ho
    cases ho
    have hl := (OfficeLock.readAs_of_read (Prod.ext hread rfl)).wellFormed
    exact Or.inr ⟨codec, rfl, OfficeLock.issued_of_unlock hl hunlock⟩

theorem openFile_of_office (hf : layout.family = .office) :
    openFile source header layout spinLimit = openOffice source header layout spinLimit := by
  unfold openFile
  rw [hf]

theorem openOffice_of_unlock {info : OfficeInfo} {lock : OfficeLock} {codec : Codec}
    (hi : readOfficeInfo header layout = .ok (some info))
    (hr : (OfficeLock.read info.encodingKey spinLimit info.major info.minor info.cursor).1
      = .ok lock)
    (hu : lock.unlock (passwordBytes source.get.1) = .ok codec) :
    (openOffice source header layout spinLimit).outcome = .ok (.coded codec) := by
  unfold openOffice
  rw [hi]
  exact Outcome.bind_eq_ok.mpr ⟨lock, hr, Outcome.bind_eq_ok.mpr ⟨codec, hu, rfl⟩⟩

end

namespace Handler

variable {h : Handler}

/-- **An open file is stored as it is, or one of the providers made its codec.** -/
theorem Opened.issued (ho : h.Opened) : h = plain ∨ ∃ c, h = coded c ∧ c.Issued := by
  obtain ⟨source, header, layout, spinLimit, ho⟩ := ho
  unfold openFile at ho
  split at ho
  · cases ho
    exact Or.inl rfl
  · exact issued_of_openJet ho
  · exact Or.inr (issued_of_openMsisam ho)
  · exact issued_of_openOffice ho

/-- A file whose format has no scheme opens with the handler a host starts with. -/
theorem opened_default : (default : Handler).Opened :=
  ⟨.absent, [], .unencrypted 0, 0, rfl⟩

/-- Any four bytes but zeros are the key of some Jet file. -/
theorem opened_jet {key : Bytes} (hl : key.length = 4) (hb : Bytes.isBlank key = false) :
    (coded (.fresh .jet (.jet ⟨key⟩) .stream lastJetPage)).Opened := by
  refine ⟨.absent, key, { Layout.jet4 with encodingKeyOffset := 0 }, 0, ?_⟩
  have hfield : Bytes.field 0 4 "Jet encoding key" key = .ok key := by
    rw [Bytes.field_eq_ok (by omega), List.drop_zero, ← hl, List.take_length]
  show openJet key _ = _
  unfold openJet
  refine Outcome.bind_eq_ok.mpr ⟨key, hfield, ?_⟩
  rw [hb]
  rfl

end Handler

end PageVault
