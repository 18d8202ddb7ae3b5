import PageVault.Proofs.Cipher.Transform
import PageVault.Proofs.Opened

/-!
# How locks open

What a lock does with a password, step by step, with everything that lengths decide
taken out of it.  A standard lock that was read never fails for any other reason than
the password: AES takes its keys, and its verifier consists of whole blocks.  An agile
lock may hold blobs that its own cipher refuses, but which of them it refuses, and why,
is the same for all passwords (`AgileLock.refusalOf`).

§1 standard locks · §2 a file that every password opens · §3 agile locks.
-/

namespace PageVault

/-! ## §1  Standard locks -/

@[simp] theorem StandardKeys.length_derive (stretched block : Bytes) (keyLength : Nat) :
    (derive stretched block keyLength).length = keyLength :=
  Bytes.length_fit _ _ _

namespace StandardLock

/-- The keys of a password, right or wrong. -/
def keysOf (lock : StandardLock) (password : Bytes) : StandardKeys where
  encodingKey := lock.encodingKey
  stretched := lock.stretched password
  keyLength := lock.keyLength

variable {lock : StandardLock}

/-- AES on whole blocks under a key of its length. -/
theorem exists_decrypt {key stored : Bytes}
    (hk : CipherAlgorithm.aes.supportsKeyLength key.length = true) (hs : stored.length % 16 = 0) :
    ∃ plain, CipherSpec.aesEcb.decrypt key none stored = .ok plain := by
  have hv : CipherSpec.aesEcb.HasVector none := by
    intro h
    cases h
  obtain ⟨plain, hplain, -⟩ := CipherSpec.transform_of_not_refused
    (CipherSpec.refusal_eq_none.mpr ⟨Or.inr hs, hk, hv⟩) .decrypt
  exact ⟨plain, hplain⟩

/-- The verifier and its digest can always be decrypted; whether they belong together
is all that counts. -/
theorem exists_unlock_eq (hl : lock.WellFormed) (password : Bytes) :
    ∃ verifier hash,
      CipherSpec.aesEcb.decrypt
          (StandardKeys.derive (lock.stretched password) (Bytes.le32 0) lock.keyLength) none
          lock.verifier.encryptedVerifier = .ok verifier
      ∧ CipherSpec.aesEcb.decrypt
          (StandardKeys.derive (lock.stretched password) (Bytes.le32 0) lock.keyLength) none
          lock.verifier.encryptedHash = .ok hash
      ∧ lock.unlock password
        = if lock.verifier.isConsistent verifier hash then .ok (lock.keysOf password)
          else .error .wrongPassword := by
  have hk : CipherAlgorithm.aes.supportsKeyLength
      (StandardKeys.derive (lock.stretched password) (Bytes.le32 0) lock.keyLength).length
        = true := by
    rw [StandardKeys.length_derive]
    exact hl.takes_key
  -- Both values are whole blocks, and single blocks need no vector.
  obtain ⟨verifier, hv⟩ := exists_decrypt hk (by rw [hl.length_verifier])
  obtain ⟨hash, hh⟩ := exists_decrypt hk (by rw [hl.length_hash])
  refine ⟨verifier, hash, hv, hh, ?_⟩
  simp only [unlock, hv, hh]
  rfl

/-- **A standard lock accepts a password or it does not**; nothing else can happen. -/
theorem unlock_of_wellFormed (hl : lock.WellFormed) (password : Bytes) :
    lock.unlock password = .ok (lock.keysOf password)
      ∨ lock.unlock password = .error .wrongPassword := by
  obtain ⟨verifier, hash, -, -, hu⟩ := exists_unlock_eq hl password
  rw [hu]
  cases lock.verifier.isConsistent verifier hash with
  | true => exact Or.inl rfl
  | false => exact Or.inr rfl

theorem eq_keysOf_of_unlock {password : Bytes} {keys : StandardKeys} (hl : lock.WellFormed)
    (h : lock.unlock password = .ok keys) : keys = lock.keysOf password := by
  rcases unlock_of_wellFormed hl password with hok | herror
  · rw [hok] at h
    cases h
    rfl
  · rw [herror] at h
    cases h

/-- A verifier that counts no bytes of its digest belongs to every digest, so the lock
opens with any password. -/
theorem unlock_of_hashSize_eq_zero (hl : lock.WellFormed) (h0 : lock.verifier.hashSize = 0)
    (password : Bytes) : lock.unlock password = .ok (lock.keysOf password) := by
  have hc : ∀ verifier hash, lock.verifier.isConsistent verifier hash = true := by
    intro verifier hash
    unfold EncryptionVerifier.isConsistent
    rw [h0]
    simp [Bytes.fit]
  obtain ⟨verifier, hash, -, -, hu⟩ := exists_unlock_eq hl password
  rw [hu, hc, if_pos rfl]

end StandardLock

/-! ## §2  A file that every password opens -/

/-- A standard lock whose verifier counts no bytes of its digest. -/
def uncheckedLock : StandardLock where
  encodingKey := [1, 2, 3, 4]
  verifier := ⟨List.replicate 16 7, List.replicate 16 8, 0, List.replicate 32 9⟩
  keyLength := 16
  rounds := StandardLock.standardRounds

/-- The encryption info of a file with that lock: the version, the flags, the header
behind its size, and the verifier. -/
def uncheckedInfo : Bytes :=
  [3, 0, 2, 0] ++ [0x24, 32, 0x24, 0, 0x660E, 0x8004, 128, 0, 0, 0, 16].flatMap Bytes.le32
    ++ uncheckedLock.verifier.salt ++ uncheckedLock.verifier.encryptedVerifier ++ Bytes.le32 0
    ++ uncheckedLock.verifier.encryptedHash

/-- The header page of a file with that lock. -/
def uncheckedHeader : Bytes :=
  Bytes.fit infoOffset 0 uncheckedLock.encodingKey
    ++ Bytes.le16 (UInt16.ofNat uncheckedInfo.length) ++ uncheckedInfo

/-- The layout of that header page. -/
def uncheckedLayout : Layout :=
  { Layout.accdb with encodingKeyOffset := 0 }

set_option maxRecDepth 20000 in
theorem read_uncheckedHeader :
    ∃ cursor,
      readOfficeInfo uncheckedHeader uncheckedLayout
          = .ok (some ⟨[1, 2, 3, 4], 3, 2, cursor⟩)
      ∧ ∀ limit, (OfficeLock.read [1, 2, 3, 4] limit 3 2 cursor).1
          = .ok (.standard .officeStandard uncheckedLock) :=
  ⟨⟨uncheckedInfo, 4, by decide⟩, rfl, fun _ => rfl⟩

theorem wellFormed_uncheckedLock : uncheckedLock.WellFormed :=
  ⟨rfl, rfl, rfl⟩

/-- The file opens with every password and without one. -/
theorem openFile_uncheckedHeader (source : PasswordSource) (limit : UInt32) :
    (openFile source uncheckedHeader uncheckedLayout limit).outcome
      = .ok (.coded (.fresh .officeStandard
          (.standard (uncheckedLock.keysOf (passwordBytes source.get.1)))
          (.block .aesEcb) lastOfficePage)) := by
  obtain ⟨cursor, hi, hr⟩ := read_uncheckedHeader
  have hu := StandardLock.unlock_of_hashSize_eq_zero wellFormed_uncheckedLock rfl
    (passwordBytes source.get.1)
  rw [openFile_of_office rfl]
  refine openOffice_of_unlock hi (hr limit) ?_
  show (uncheckedLock.unlock _).map _ = _
  rw [hu]
  rfl

/-! ## §3  Agile locks -/

@[simp] theorem Suite.length_keyOf (s : Suite) (m : Bytes) : (s.keyOf m).length = s.keyLength :=
  Bytes.length_fit _ _ _

@[simp] theorem Suite.length_vectorOf (s : Suite) (m : Bytes) :
    (s.vectorOf m).length = s.spec.blockSize :=
  Bytes.length_fit _ _ _

namespace AgileLock

/-- Why a stored value cannot be unwrapped, if it cannot. -/
def refusalOf (lock : AgileLock) (stored : Bytes) : Option Error :=
  lock.passwordSuite.spec.refusal lock.passwordSuite.keyLength (some lock.encryptor.suite.salt)
    stored.length

/-- The keys that a key value stands for, if it is long enough. -/
def keysOf (lock : AgileLock) (keyValue : Bytes) : AgileKeys where
  encodingKey := lock.encodingKey
  keyValue := keyValue.take lock.pageSuite.keyLength
  suite := lock.pageSuite
  salt := lock.pageSalt

variable {lock : AgileLock}

/-- A stored value that is refused is refused under every key. -/
theorem unwrap_of_refusalOf {stored : Bytes} {e : Error} (h : lock.refusalOf stored = some e)
    (stretched block : Bytes) : lock.unwrap stretched block stored = .error e := by
  refine CipherSpec.transform_of_refusal ?_ .decrypt
  rw [Suite.length_keyOf]
  exact h

/-- A stored value that is not refused is unwrapped under every key, to as many bytes. -/
theorem exists_unwrap {stored : Bytes} (h : lock.refusalOf stored = none)
    (stretched block : Bytes) :
    ∃ plain, lock.unwrap stretched block stored = .ok plain ∧ plain.length = stored.length := by
  have hr : lock.passwordSuite.spec.refusal
      (lock.passwordSuite.keyOf (stretched ++ block)).length (some lock.encryptor.suite.salt)
      stored.length = none := by
    rw [Suite.length_keyOf]
    exact h
  obtain ⟨plain, hplain, hlen, -⟩ := CipherSpec.transform_of_not_refused hr .decrypt
  exact ⟨plain, hplain, hlen⟩

/-- What is left to do once the verifier was found to be right. -/
def release (lock : AgileLock) (stretched : Bytes) : Except Error AgileKeys := do
  let keyValue ← lock.unwrap stretched keyValueBlock lock.encryptor.encryptedKeyValue
  if keyValue.length < lock.pageSuite.keyLength then
    throw (.configuration (.shortKeyValue keyValue.length lock.pageSuite.keyLength))
  else return lock.keysOf keyValue

theorem unlock_eq (lock : AgileLock) (password : Bytes) :
    lock.unlock password = (do
      let verifier ←
        lock.unwrap (lock.stretched password) verifierBlock lock.encryptor.encryptedVerifier
      let hash ←
        lock.unwrap (lock.stretched password) verifierHashBlock
          lock.encryptor.encryptedVerifierHash
      if lock.isConsistent verifier hash then lock.release (lock.stretched password)
      else throw .wrongPassword) := rfl

/-- What a lock goes through to open: the verifier and its digest are unwrapped and
belong together, and so is a key value that is long enough. -/
theorem unlock_eq_ok_iff {password : Bytes} {keys : AgileKeys} :
    lock.unlock password = .ok keys ↔ ∃ verifier hash keyValue,
      lock.unwrap (lock.stretched password) verifierBlock lock.encryptor.encryptedVerifier
          = .ok verifier
        ∧ lock.unwrap (lock.stretched password) verifierHashBlock
            lock.encryptor.encryptedVerifierHash = .ok hash
        ∧ lock.isConsistent verifier hash = true
        ∧ lock.unwrap (lock.stretched password) keyValueBlock lock.encryptor.encryptedKeyValue
          = .ok keyValue
        ∧ lock.pageSuite.keyLength ≤ keyValue.length ∧ keys = lock.keysOf keyValue := by
  rw [unlock_eq]
  constructor
  · intro h
    obtain ⟨verifier, hv, h⟩ := Outcome.bind_eq_ok.mp h
    obtain ⟨hash, hh, h⟩ := Outcome.bind_eq_ok.mp h
    split at h
    · rename_i hc
      obtain ⟨keyValue, hk, h⟩ := Outcome.bind_eq_ok.mp h
      split at h
      · cases h
      · rename_i hlen
        cases h
        exact ⟨verifier, hash, keyValue, hv, hh, hc, hk, Nat.not_lt.mp hlen, rfl⟩
    · cases h
  · rintro ⟨verifier, hash, keyValue, hv, hh, hc, hk, hlen, rfl⟩
    refine Outcome.bind_eq_ok.mpr ⟨verifier, hv, Outcome.bind_eq_ok.mpr ⟨hash, hh, ?_⟩⟩
    rw [if_pos hc]
    refine Outcome.bind_eq_ok.mpr ⟨keyValue, hk, ?_⟩
    exact if_neg (Nat.not_lt.mpr hlen)

/-- **The page key of an opened file is as long as its cipher wants it.** -/
theorem length_keyValue_of_unlock {password : Bytes} {keys : AgileKeys}
    (h : lock.unlock password = .ok keys) :
    keys.suite = lock.pageSuite ∧ keys.keyValue.length = lock.pageSuite.keyLength := by
  obtain ⟨verifier, hash, keyValue, -, -, -, -, hlen, rfl⟩ := unlock_eq_ok_iff.mp h
  refine ⟨rfl, ?_⟩
  show (keyValue.take lock.pageSuite.keyLength).length = _
  rw [List.length_take]
  exact Nat.min_eq_left hlen

end AgileLock

end PageVault
