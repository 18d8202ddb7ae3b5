import PageVault.Proofs.Descriptor.Document
import PageVault.Proofs.Keys.Derivation
import PageVault.Proofs.Keys.Unlocking
import PageVault.Proofs.Reading

/-!
# What an agile file wraps

A writer wraps three values with keys made from the password: a verifier, its digest and
the key of the pages.  A lock that was read opens with a password exactly if its stored
values were wrapped for that password (`AgileLock.unlock_eq_ok_iff_wraps`), and then it
gives back the key that was wrapped.  Wrapping follows the suite of the encryptor and
pages follow the suite of the key data; which is which was decided when the descriptor
was read (`Suite.Follows`), and the two may differ in everything.
-/

namespace PageVault

/-! ## Suites of a descriptor -/

/-- The suite is the one that a description names. -/
structure Suite.Follows (s : Suite) (d : CipherDescription) : Prop where
  hash_eq : HashAlgorithm.resolve d.hashName = .ok s.hash
  spec_eq : CipherSpec.ofNames d.cipherName d.modeName = .ok s.spec
  /-- The key size in bits, rounded up to whole bytes. -/
  keyLength_eq : s.keyLength = (d.keyBits.toNat + 7) / 8
  blockSize_eq : s.spec.blockSize = d.blockSize.toNat

theorem Suite.follows_of_resolve {s : Suite} {d : CipherDescription} {element : String}
    (h : resolve d element = .ok s) : s.Follows d := by
  unfold resolve at h
  obtain ⟨hash, hhash, h⟩ := Outcome.bind_eq_ok.mp h
  obtain ⟨spec, hspec, h⟩ := Outcome.bind_eq_ok.mp h
  dsimp only at h
  split at h
  · split at h
    · rename_i hblock
      cases h
      exact ⟨hhash, hspec, rfl, hblock.symm⟩
    · cases h
  · cases h

namespace AgileLock

/-- A lock that was read stood behind the reserved word, as a descriptor. -/
theorem exists_ofDescriptor_of_read {encodingKey : Bytes} {spinLimit : UInt32} {lock : AgileLock}
    {c c' : Cursor} (h : read encodingKey spinLimit c = (.ok lock, c')) :
    ∃ text d, c.remaining = Bytes.le32 reserved ++ text ∧ Descriptor.ofBytes text = .ok d
      ∧ ofDescriptor encodingKey spinLimit d = .ok lock := by
  unfold read at h
  obtain ⟨word, c₁, hword, h⟩ := Reading.bind_eq_ok.mp h
  split at h
  · exact absurd h Reading.fail_ne_ok
  · rename_i hreserved
    obtain rfl := Classical.not_not.mp hreserved
    obtain ⟨b, c₂, hrest, h⟩ := Reading.bind_eq_ok.mp h
    cases hrest
    obtain ⟨h, -⟩ := Reading.lift_eq_ok.mp h
    obtain ⟨d, hd, h⟩ := Outcome.bind_eq_ok.mp h
    exact ⟨c₁.remaining, d, Reading.remaining_of_word32_eq_ok hword, hd, h⟩

theorem keyEncryptors_of_onlyEncryptor {d : Descriptor} {e : PasswordEncryptor}
    (h : onlyEncryptor d = .ok e) : d.keyEncryptors = [.password e] := by
  unfold onlyEncryptor at h
  split at h
  · rename_i hkeys
    cases h
    exact hkeys
  · cases h

/-- Where the parts of a lock come from, and that its rounds are within the limit. -/
theorem parts_of_ofDescriptor {encodingKey : Bytes} {spinLimit : UInt32} {lock : AgileLock}
    {d : Descriptor} (h : ofDescriptor encodingKey spinLimit d = .ok lock) :
    d.keyEncryptors = [.password lock.encryptor] ∧ lock.encryptor.spinCount ≤ spinLimit
      ∧ lock.passwordSuite.Follows lock.encryptor.suite ∧ lock.pageSuite.Follows d.keyData
      ∧ lock.pageSalt = d.keyData.salt ∧ lock.encodingKey = encodingKey := by
  unfold ofDescriptor at h
  obtain ⟨encryptor, honly, h⟩ := Outcome.bind_eq_ok.mp h
  split at h
  · cases h
  · rename_i hspin
    obtain ⟨passwordSuite, hpassword, h⟩ := Outcome.bind_eq_ok.mp h
    obtain ⟨pageSuite, hpage, h⟩ := Outcome.bind_eq_ok.mp h
    cases h
    exact ⟨keyEncryptors_of_onlyEncryptor honly, UInt32.not_lt.mp hspin,
      Suite.follows_of_resolve hpassword, Suite.follows_of_resolve hpage, rfl, rfl⟩

/-- Where the parts of a lock that was read come from: the descriptor behind the reserved
word. -/
theorem exists_descriptor_of_read {encodingKey : Bytes} {spinLimit : UInt32} {lock : AgileLock}
    {c c' : Cursor} (h : read encodingKey spinLimit c = (.ok lock, c')) :
    ∃ d, Descriptor.ofBytes (c.remaining.drop 4) = .ok d
      ∧ d.keyEncryptors = [.password lock.encryptor]
      ∧ lock.passwordSuite.Follows lock.encryptor.suite ∧ lock.pageSuite.Follows d.keyData
      ∧ lock.pageSalt = d.keyData.salt ∧ lock.encodingKey = encodingKey := by
  obtain ⟨text, d, hbytes, hd, hlock⟩ := exists_ofDescriptor_of_read h
  obtain ⟨hkeys, -, hparts⟩ := parts_of_ofDescriptor hlock
  have hskip : c.remaining.drop 4 = text := by
    rw [hbytes]
    exact List.drop_left' (Bytes.length_le32 reserved)
  exact ⟨d, hskip ▸ hd, hkeys, hparts⟩

/-! ## Wrapping -/

/-- The key that a value is wrapped with, as the encryptor of the lock says. -/
def wrappingKey (lock : AgileLock) (password block : Bytes) : Bytes :=
  lock.passwordSuite.wrappingKey lock.encryptor.suite.salt lock.encryptor.spinCount.toNat
    password block

/-- A value wrapped for a password, with the salt as the vector. -/
def wrap (lock : AgileLock) (password block plain : Bytes) : Except Error Bytes :=
  lock.passwordSuite.spec.encrypt (lock.wrappingKey password block)
    (some lock.encryptor.suite.salt) plain

/-- The stored values are a verifier, its digest with zeros up to whole blocks, and a key
value that is long enough for the pages, wrapped for the password. -/
structure Wraps (lock : AgileLock) (password verifier keyValue : Bytes) : Prop where
  verifier_eq : lock.wrap password verifierBlock verifier = .ok lock.encryptor.encryptedVerifier
  hash_eq :
    lock.wrap password verifierHashBlock
        (lock.passwordSuite.zeroPadded (lock.passwordSuite.hash.hash verifier))
      = .ok lock.encryptor.encryptedVerifierHash
  keyValue_eq : lock.wrap password keyValueBlock keyValue = .ok lock.encryptor.encryptedKeyValue
  keyLength_le : lock.pageSuite.keyLength ≤ keyValue.length

variable {lock : AgileLock} {password verifier keyValue block plain stored : Bytes}

theorem unwrap_stretched (lock : AgileLock) (password block stored : Bytes) :
    lock.unwrap (lock.stretched password) block stored
      = lock.passwordSuite.spec.decrypt (lock.wrappingKey password block)
          (some lock.encryptor.suite.salt) stored := by
  unfold unwrap wrappingKey
  rw [keyOf_stretched]

/-- Unwrapping takes wrapping back, and the other way round. -/
theorem unwrap_eq_ok_iff_wrap :
    lock.unwrap (lock.stretched password) block stored = .ok plain
      ↔ lock.wrap password block plain = .ok stored := by
  rw [unwrap_stretched]
  exact ⟨CipherSpec.transform_opposite, CipherSpec.transform_opposite⟩

theorem isConsistent_iff {hash : Bytes} :
    lock.isConsistent verifier hash = true
      ↔ hash = lock.passwordSuite.zeroPadded (lock.passwordSuite.hash.hash verifier) := by
  unfold isConsistent
  rw [beq_iff_eq, Suite.padBlocks_eq_zeroPadded]

/-- **A lock opens with exactly the passwords that its values were wrapped for**, and
gives back what was wrapped. -/
theorem unlock_eq_ok_iff_wraps {keys : AgileKeys} :
    lock.unlock password = .ok keys
      ↔ ∃ verifier keyValue, lock.Wraps password verifier keyValue
        ∧ keys = lock.keysOf keyValue := by
  rw [unlock_eq_ok_iff]
  constructor
  · rintro ⟨verifier, hash, keyValue, hv, hh, hc, hk, hlen, rfl⟩
    rw [isConsistent_iff.mp hc] at hh
    exact ⟨verifier, keyValue, ⟨unwrap_eq_ok_iff_wrap.mp hv, unwrap_eq_ok_iff_wrap.mp hh,
      unwrap_eq_ok_iff_wrap.mp hk, hlen⟩, rfl⟩
  · rintro ⟨verifier, keyValue, hw, rfl⟩
    exact ⟨verifier, _, keyValue, unwrap_eq_ok_iff_wrap.mpr hw.verifier_eq,
      unwrap_eq_ok_iff_wrap.mpr hw.hash_eq, isConsistent_iff.mpr rfl,
      unwrap_eq_ok_iff_wrap.mpr hw.keyValue_eq, hw.keyLength_le, rfl⟩

theorem params_keysOf (lock : AgileLock) (keyValue : Bytes) (page : UInt32) :
    (lock.keysOf keyValue).params page
      = ⟨keyValue.take lock.pageSuite.keyLength,
          some (lock.pageSuite.pageVector lock.pageSalt lock.encodingKey page)⟩ :=
  AgileKeys.params_eq _ page

/-- **Unwrapping is complete and sound.**  Take a lock that was read.  Its two suites are
those that the encryptor and the key data of the descriptor name.  If its values were
wrapped for a password, the lock opens with it, and every page has the front of the
wrapped key and a vector made from the digest and the salt of the key data.  If the lock
opens with a password, the unwrapped digest is that of the unwrapped verifier with zeros
up to whole blocks, and nothing else. -/
theorem unlock_complete_and_sound {encodingKey : Bytes} {spinLimit : UInt32} {c c' : Cursor}
    (hread : read encodingKey spinLimit c = (.ok lock, c')) :
    ∃ d, Descriptor.ofBytes (c.remaining.drop 4) = .ok d
      ∧ d.keyEncryptors = [.password lock.encryptor]
      ∧ lock.passwordSuite.Follows lock.encryptor.suite ∧ lock.pageSuite.Follows d.keyData
      ∧ ∀ password : Bytes,
        (∀ verifier keyValue, lock.Wraps password verifier keyValue →
          ∃ keys, lock.unlock password = .ok keys ∧ ∀ page, keys.params page
            = ⟨keyValue.take lock.pageSuite.keyLength,
                some (lock.pageSuite.pageVector d.keyData.salt encodingKey page)⟩)
        ∧ ∀ keys, lock.unlock password = .ok keys →
          ∃ verifier hash,
            lock.passwordSuite.spec.decrypt (lock.wrappingKey password verifierBlock)
                (some lock.encryptor.suite.salt) lock.encryptor.encryptedVerifier = .ok verifier
              ∧ lock.passwordSuite.spec.decrypt (lock.wrappingKey password verifierHashBlock)
                  (some lock.encryptor.suite.salt) lock.encryptor.encryptedVerifierHash = .ok hash
              ∧ hash = lock.passwordSuite.zeroPadded (lock.passwordSuite.hash.hash verifier)
              ∧ ∃ keyValue, lock.Wraps password verifier keyValue := by
  obtain ⟨d, hd, hkeys, hpassword, hpage, hsalt, hkey⟩ := exists_descriptor_of_read hread
  refine ⟨d, hd, hkeys, hpassword, hpage, ?_⟩
  intro password
  constructor
  · intro verifier keyValue hw
    refine ⟨_, unlock_eq_ok_iff_wraps.mpr ⟨verifier, keyValue, hw, rfl⟩, ?_⟩
    intro page
    rw [params_keysOf, hsalt, hkey]
  · intro keys hok
    obtain ⟨verifier, keyValue, hw, -⟩ := unlock_eq_ok_iff_wraps.mp hok
    refine ⟨verifier, _, ?_, ?_, rfl, keyValue, hw⟩
    · rw [← unwrap_stretched]
      exact unwrap_eq_ok_iff_wrap.mpr hw.verifier_eq
    · rw [← unwrap_stretched]
      exact unwrap_eq_ok_iff_wrap.mpr hw.hash_eq

/-- The lock of a descriptor, read behind the reserved word. -/
theorem read_of_descriptor {b encodingKey : Bytes} {spinLimit : UInt32} {d : Descriptor}
    (hd : Descriptor.ofBytes b = .ok d) (hl : ofDescriptor encodingKey spinLimit d = .ok lock) :
    read encodingKey spinLimit (.start (Bytes.le32 reserved ++ b))
      = (.ok lock, .between (Bytes.le32 reserved) b) := by
  have hword := Reading.reads_word32 reserved "Agile reserved value" [] b
  have hrest : Reading.rest (.between (Bytes.le32 reserved) b)
      = (.ok b, .between (Bytes.le32 reserved) b) := by
    rw [Reading.rest, Cursor.remaining_between]
  have hlock : (Descriptor.ofBytes b >>= ofDescriptor encodingKey spinLimit) = .ok lock :=
    Outcome.bind_eq_ok.mpr ⟨d, hd, hl⟩
  refine Reading.bind_eq_ok.mpr ⟨reserved, _, hword, ?_⟩
  rw [if_neg (not_not.mpr rfl)]
  refine Reading.bind_eq_ok.mpr ⟨b, _, hrest, ?_⟩
  exact Reading.lift_eq_ok.mpr ⟨hlock, rfl⟩

end AgileLock

/-! ## A file with two suites -/

/-- Values wrapped with DES under keys from MD5, pages under AES with vectors from SHA-1. -/
def mixedLock : AgileLock where
  encodingKey := [1, 2, 3, 4]
  encryptor :=
    { suite := ⟨8, 8, 64, 16, "DES", "ChainingModeCBC", "MD5", [1, 2, 3, 4, 5, 6, 7, 8]⟩
      spinCount := 1
      encryptedVerifier := [19, 9, 131, 11, 98, 118, 166, 51]
      encryptedVerifierHash :=
        [9, 153, 89, 143, 140, 159, 112, 236, 84, 196, 104, 245, 117, 226, 41, 40]
      encryptedKeyValue :=
        [241, 91, 8, 41, 83, 76, 138, 187, 150, 97, 68, 155, 237, 254, 109, 193, 230, 223, 220, 97,
          92, 112, 77, 19] }
  passwordSuite := ⟨.md5, ⟨.des, .cbc, by decide, by decide⟩, 8, by decide⟩
  pageSuite := ⟨.sha1, ⟨.aes, .cfb, by decide, by decide⟩, 16, by decide⟩
  pageSalt := List.replicate 16 9

def mixedKeyData : CipherDescription :=
  ⟨16, 16, 128, 20, "AES", "ChainingModeCFB", "SHA1", mixedLock.pageSalt⟩

/-- The encryption info of a file with that lock, behind the version numbers. -/
def mixedInfo : Bytes :=
  Bytes.le32 AgileLock.reserved
    ++ Descriptor.utf8 (Descriptor.document mixedKeyData mixedLock.encryptor)

/-- What is kept of its document. -/
def mixedGathered : Descriptor.Gathered where
  sawRoot := true
  keyData := some ⟨"keyData", Descriptor.suiteValues mixedKeyData⟩
  dataIntegrity := none
  sawKeyEncryptors := true
  keyEncryptors :=
    [⟨some Descriptor.passwordNamespace,
      some ⟨"encryptedKey", Descriptor.encryptorValues mixedLock.encryptor⟩, none⟩]

theorem ofBytes_mixedDocument :
    Descriptor.ofBytes (Descriptor.utf8 (Descriptor.document mixedKeyData mixedLock.encryptor))
      = .ok ⟨mixedKeyData, none, [.password mixedLock.encryptor]⟩ := by
  have hwalk : Descriptor.Walk.start.run
      (Markup.events (Descriptor.document mixedKeyData mixedLock.encryptor)).items
        = .ok ⟨[], [], mixedGathered⟩ := by
    decide +kernel
  have hfault :
      (Markup.events (Descriptor.document mixedKeyData mixedLock.encryptor)).fault = none := by
    decide +kernel
  exact Descriptor.ofBytes_utf8 hwalk hfault (by decide +kernel)

theorem read_mixedInfo :
    AgileLock.read mixedLock.encodingKey 1 (.start mixedInfo)
      = (.ok mixedLock, .between (Bytes.le32 AgileLock.reserved)
          (Descriptor.utf8 (Descriptor.document mixedKeyData mixedLock.encryptor))) :=
  AgileLock.read_of_descriptor ofBytes_mixedDocument (by decide +kernel)

/-- What was wrapped, and the password. -/
theorem wraps_mixedLock :
    mixedLock.Wraps (passwordBytes (some "a")) (List.replicate 8 5) (List.replicate 24 6) := by
  constructor
  · decide +kernel
  · decide +kernel
  · decide +kernel
  · decide

/-- A file that opens with its password, and what its pages are coded with. -/
theorem AgileLock.unlock_complete_and_sound_mixed :
    ∃ keys, mixedLock.unlock (passwordBytes (some "a")) = .ok keys
      ∧ (∀ page, keys.params page
        = ⟨List.replicate 16 6,
            some (mixedLock.pageSuite.pageVector mixedKeyData.salt [1, 2, 3, 4] page)⟩)
      ∧ ∃ verifier hash,
        mixedLock.passwordSuite.spec.decrypt
            (mixedLock.wrappingKey (passwordBytes (some "a")) verifierBlock)
            (some mixedLock.encryptor.suite.salt) mixedLock.encryptor.encryptedVerifier
          = .ok verifier
        ∧ mixedLock.passwordSuite.spec.decrypt
            (mixedLock.wrappingKey (passwordBytes (some "a")) verifierHashBlock)
            (some mixedLock.encryptor.suite.salt) mixedLock.encryptor.encryptedVerifierHash
          = .ok hash
        ∧ hash = mixedLock.passwordSuite.zeroPadded
            (mixedLock.passwordSuite.hash.hash verifier) := by
  obtain ⟨d, hd, -, -, -, h⟩ := unlock_complete_and_sound read_mixedInfo
  -- The document is known, and with it the salt of the pages.
  have hdoc : d = ⟨mixedKeyData, none, [.password mixedLock.encryptor]⟩ := by
    have hrest : (Cursor.start mixedInfo).remaining.drop 4
        = Descriptor.utf8 (Descriptor.document mixedKeyData mixedLock.encryptor) :=
      List.drop_left' (Bytes.length_le32 reserved)
    rw [hrest, ofBytes_mixedDocument] at hd
    exact (Except.ok.inj hd).symm
  obtain ⟨keys, hok, hparams⟩ := (h _).1 _ _ wraps_mixedLock
  obtain ⟨verifier, hash, hv, hh, hc, -⟩ := (h _).2 keys hok
  refine ⟨keys, hok, ?_, verifier, hash, hv, hh, hc⟩
  intro page
  rw [hparams page, hdoc]
  rfl

end PageVault
