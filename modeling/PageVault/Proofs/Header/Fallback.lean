import PageVault.Proofs.Files.Standard
import PageVault.Proofs.Forward

/-!
# One provider for each header

Files that claim RC4 can hold a header for RC4 or one for AES, and only an attempt to read it
shows which.  The reader for RC4 comes first; if what it finds does not fit, the reader for
AES starts over from the same place.  No bytes suit both: the cipher of a header is fixed by
its words, and a header that the reader for AES accepts is refused by the one for RC4 because
of its cipher, which is just the kind of refusal that leads to the second attempt
(`CryptoApiLock.read_of_standard`).  So each provider is found exactly where its own reader
accepts, in whichever order they are tried (`readCryptoApi_unambiguous`).

§1 readers go forward · §2 the reader for RC4 at a header for AES · §3 two attempts ·
§4 other ways to make them.
-/

namespace PageVault

open Reading (Forward forward_lift forward_pure forward_take forward_word32)

/-! ## §1  Readers go forward -/

theorem EncryptionHeader.forward_read (ciphers : List HeaderCipher) (hashes : List HeaderHash) :
    Forward (read ciphers hashes) := by
  refine (forward_word32 _).bind ?_
  intro size
  refine (forward_take _ _).bind ?_
  intro b
  exact forward_lift _

theorem EncryptionVerifier.forward_read (cipher : HeaderCipher) : Forward (read cipher) := by
  refine (forward_word32 _).bind ?_
  intro saltSize
  split
  · exact forward_lift _
  · refine (forward_take _ _).bind ?_
    intro salt
    refine (forward_take _ _).bind ?_
    intro encryptedVerifier
    refine (forward_word32 _).bind ?_
    intro hashSize
    refine (forward_take _ _).bind ?_
    intro encryptedHash
    exact forward_pure _

theorem StandardLock.forward_read (encodingKey : Bytes) (rounds : Nat) :
    Forward (read encodingKey rounds) := by
  refine (EncryptionHeader.forward_read _ _).bind ?_
  intro header
  refine (EncryptionVerifier.forward_read _).bind ?_
  intro verifier
  exact forward_pure _

theorem CryptoApiLock.forward_read (encodingKey : Bytes) : Forward (read encodingKey) := by
  refine (EncryptionHeader.forward_read _ _).bind ?_
  intro header
  refine (EncryptionVerifier.forward_read _).bind ?_
  intro verifier
  exact forward_pure _

/-! ## §2  The reader for RC4 at a header for AES -/

/-- The reader for AES keeps the encoding key and the rounds that it is given. -/
theorem StandardLock.given_of_read {encodingKey : Bytes} {rounds : Nat} {lock : StandardLock}
    {c c' : Cursor} (h : read encodingKey rounds c = (.ok lock, c')) :
    lock.encodingKey = encodingKey ∧ lock.rounds = rounds := by
  obtain ⟨header, c₁, -, h⟩ := Reading.bind_eq_ok.mp h
  obtain ⟨verifier, c₂, -, h⟩ := Reading.bind_eq_ok.mp h
  obtain ⟨rfl, -⟩ := Reading.pure_eq_ok.mp h
  exact ⟨rfl, rfl⟩

/-- **What the reader for AES accepts, the reader for RC4 refuses because of the cipher.** -/
theorem CryptoApiLock.read_of_standard {encodingKey : Bytes} {rounds : Nat}
    {lock : StandardLock} {c c' : Cursor}
    (h : StandardLock.read encodingKey rounds c = (.ok lock, c')) :
    ∃ fault c₁, read encodingKey c = (.error (.configuration fault), c₁) := by
  unfold StandardLock.read at h
  obtain ⟨header, c₁, hheader, -⟩ := Reading.bind_eq_ok.mp h
  have hmem := (EncryptionHeader.of_check (EncryptionHeader.check_of_read hheader)).1
  have hother : header.cipher ∉ [HeaderCipher.rc4] ∧ header.cipher ≠ .external := by
    cases hc : header.cipher with
    | external | rc4 => simp [hc] at hmem
    | aes128 | aes192 | aes256 => decide
  exact ⟨_, c₁, Reading.bind_of_error
    (EncryptionHeader.read_of_not_mem hheader hother.1 hother.2)⟩

/-! ## §3  Two attempts -/

namespace OfficeLock

variable {encodingKey : Bytes} {c c' : Cursor}

theorem readCryptoApi_of_ok {lock : CryptoApiLock}
    (h : CryptoApiLock.read encodingKey c = (.ok lock, c')) :
    readCryptoApi encodingKey c = (.ok (.cryptoApi lock), c') := by
  unfold readCryptoApi
  rw [h]

theorem readCryptoApi_of_standard {lock : StandardLock}
    (h : StandardLock.read encodingKey 0 c = (.ok lock, c')) :
    readCryptoApi encodingKey c = (.ok (.standard .officeNonStandard lock), c') := by
  obtain ⟨fault, c₁, hrefused⟩ := CryptoApiLock.read_of_standard h
  unfold readCryptoApi
  rw [hrefused]
  dsimp only
  rw [h]

theorem readCryptoApi_of_error {e e' : Error} {c₁ c₂ : Cursor}
    (h : CryptoApiLock.read encodingKey c = (.error e, c₁))
    (h' : StandardLock.read encodingKey 0 c = (.error e', c₂)) :
    (readCryptoApi encodingKey c).1 = .error e := by
  unfold readCryptoApi
  rw [h]
  cases e with
  | configuration fault =>
      dsimp only
      rw [h']
  | format | unsupported | wrongPassword => rfl

/-- **At most one of the readers accepts**, and the other one then does not matter. -/
theorem readCryptoApi_cases (encodingKey : Bytes) (c : Cursor) :
    (∃ lock c₁ e c₂, CryptoApiLock.read encodingKey c = (.ok lock, c₁)
        ∧ StandardLock.read encodingKey 0 c = (.error e, c₂)
        ∧ readCryptoApi encodingKey c = (.ok (.cryptoApi lock), c₁))
      ∨ (∃ fault c₁ lock c₂, CryptoApiLock.read encodingKey c = (.error (.configuration fault), c₁)
        ∧ StandardLock.read encodingKey 0 c = (.ok lock, c₂)
        ∧ readCryptoApi encodingKey c = (.ok (.standard .officeNonStandard lock), c₂))
      ∨ ∃ e c₁ e' c₂, CryptoApiLock.read encodingKey c = (.error e, c₁)
        ∧ StandardLock.read encodingKey 0 c = (.error e', c₂)
        ∧ (readCryptoApi encodingKey c).1 = .error e := by
  rcases hs : StandardLock.read encodingKey 0 c with ⟨e' | lock, c₂⟩
  · rcases ha : CryptoApiLock.read encodingKey c with ⟨e | lock, c₁⟩
    · exact Or.inr (Or.inr ⟨e, c₁, e', c₂, rfl, rfl, readCryptoApi_of_error ha hs⟩)
    · exact Or.inl ⟨lock, c₁, e', c₂, rfl, rfl, readCryptoApi_of_ok ha⟩
  · obtain ⟨fault, c₁, ha⟩ := CryptoApiLock.read_of_standard hs
    exact Or.inr (Or.inl ⟨fault, c₁, lock, c₂, ha, rfl, readCryptoApi_of_standard hs⟩)

theorem readCryptoApi_eq_cryptoApi_iff {lock : CryptoApiLock} :
    readCryptoApi encodingKey c = (.ok (.cryptoApi lock), c')
      ↔ CryptoApiLock.read encodingKey c = (.ok lock, c') := by
  constructor
  · intro h
    rcases readCryptoApi_cases encodingKey c with ⟨lock', c₁, e, c₂, ha, -, hr⟩
      | ⟨fault, c₁, lock', c₂, -, -, hr⟩ | ⟨e, c₁, e', c₂, -, -, hr⟩
    · rw [h] at hr
      cases hr
      exact ha
    · rw [h] at hr
      cases hr
    · rw [h] at hr
      cases hr
  · exact readCryptoApi_of_ok

theorem readCryptoApi_eq_standard_iff {scheme : Scheme} {lock : StandardLock} :
    readCryptoApi encodingKey c = (.ok (.standard scheme lock), c')
      ↔ scheme = .officeNonStandard ∧ StandardLock.read encodingKey 0 c = (.ok lock, c') := by
  constructor
  · intro h
    rcases readCryptoApi_cases encodingKey c with ⟨lock', c₁, e, c₂, -, -, hr⟩
      | ⟨fault, c₁, lock', c₂, -, hs, hr⟩ | ⟨e, c₁, e', c₂, -, -, hr⟩
    · rw [h] at hr
      cases hr
    · rw [h] at hr
      cases hr
      exact ⟨rfl, hs⟩
    · rw [h] at hr
      cases hr
  · rintro ⟨rfl, h⟩
    exact readCryptoApi_of_standard h

theorem readCryptoApi_eq_error_iff {e : Error} :
    (readCryptoApi encodingKey c).1 = .error e
      ↔ (CryptoApiLock.read encodingKey c).1 = .error e
        ∧ ∃ e', (StandardLock.read encodingKey 0 c).1 = .error e' := by
  rcases readCryptoApi_cases encodingKey c with ⟨lock, c₁, e', c₂, ha, hs, hr⟩
    | ⟨fault, c₁, lock, c₂, ha, hs, hr⟩ | ⟨e₁, c₁, e', c₂, ha, hs, hr⟩
  · simp [ha, hr]
  · simp [hs, hr]
  · simp [ha, hs, hr]

/-! ## §4  Other ways to make them -/

/-- The two attempts in the other order. -/
def readStandardFirst (encodingKey : Bytes) : Reading OfficeLock := fun c =>
  match StandardLock.read encodingKey 0 c with
  | (.ok lock, c') => (.ok (.standard .officeNonStandard lock), c')
  | (.error _, _) =>
      match CryptoApiLock.read encodingKey c with
      | (.ok lock, c') => (.ok (.cryptoApi lock), c')
      | (.error e, c') => (.error e, c')

/-- Both attempts with one cursor, which is moved back between them from wherever the first
one left it. -/
def readRewinding (encodingKey : Bytes) : Reading OfficeLock := fun c =>
  match CryptoApiLock.read encodingKey c with
  | (.ok lock, c') => (.ok (.cryptoApi lock), c')
  | (.error (.configuration fault), c') =>
      match Reading.seek c.position c' with
      | (.error e, c'') => (.error e, c'')
      | (.ok (), c'') =>
          match StandardLock.read encodingKey 0 c'' with
          | (.ok lock, c₁) => (.ok (.standard .officeNonStandard lock), c₁)
          | (.error _, c₁) => (.error (.configuration fault), c₁)
  | (.error e, c') => (.error e, c')

theorem readRewinding_eq (encodingKey : Bytes) :
    readRewinding encodingKey = readCryptoApi encodingKey := by
  funext c
  have hback := (CryptoApiLock.forward_read encodingKey).seek_back c
  unfold readRewinding readCryptoApi
  rcases ha : CryptoApiLock.read encodingKey c with ⟨e | lock, c₁⟩
  · rw [ha] at hback
    cases e with
    | configuration fault =>
        dsimp only
        generalize Reading.seek c.position c₁ = moved at hback ⊢
        subst hback
        rfl
    | format | unsupported | wrongPassword => rfl
  · rfl

theorem readStandardFirst_fst (encodingKey : Bytes) (c : Cursor) :
    (readStandardFirst encodingKey c).1 = (readCryptoApi encodingKey c).1 := by
  unfold readStandardFirst
  rcases readCryptoApi_cases encodingKey c with ⟨lock, c₁, e, c₂, ha, hs, hr⟩
    | ⟨fault, c₁, lock, c₂, ha, hs, hr⟩ | ⟨e, c₁, e', c₂, ha, hs, hr⟩
  · rw [hs, ha, hr]
  · rw [hs, hr]
  · rw [hs, ha, hr]

/-- **The provider of a file that claims RC4 is not a matter of choice.**  From any place in any
bytes, the provider for RC4 is found exactly if its reader accepts, the one for AES without
stretching exactly if its reader does, and if neither does the reason is that of the reader for
RC4.  Where the reader for AES accepts, whatever the rounds, the one for RC4 finds that the
header does not fit.  The outcome is the same if the reader for AES comes first, nothing changes
if one cursor serves both and is moved back in between, and the reader for AES gives what it
gives at the start of the bytes that were ahead. -/
theorem readCryptoApi_unambiguous (encodingKey : Bytes) (c : Cursor) :
    (∀ lock c', readCryptoApi encodingKey c = (.ok (.cryptoApi lock), c')
        ↔ CryptoApiLock.read encodingKey c = (.ok lock, c'))
      ∧ (∀ scheme lock c', readCryptoApi encodingKey c = (.ok (.standard scheme lock), c')
        ↔ scheme = .officeNonStandard ∧ StandardLock.read encodingKey 0 c = (.ok lock, c'))
      ∧ (∀ scheme lock c', readCryptoApi encodingKey c = (.ok (.standard scheme lock), c') →
        lock.encodingKey = encodingKey ∧ lock.rounds = 0)
      ∧ (∀ e, (readCryptoApi encodingKey c).1 = .error e
        ↔ (CryptoApiLock.read encodingKey c).1 = .error e
          ∧ ∃ e', (StandardLock.read encodingKey 0 c).1 = .error e')
      ∧ (∀ rounds lock, (StandardLock.read encodingKey rounds c).1 = .ok lock →
        ∃ fault, (CryptoApiLock.read encodingKey c).1 = .error (.configuration fault))
      ∧ (readStandardFirst encodingKey c).1 = (readCryptoApi encodingKey c).1
      ∧ readRewinding encodingKey c = readCryptoApi encodingKey c
      ∧ (StandardLock.read encodingKey 0 c).1
        = (StandardLock.read encodingKey 0 (.start c.remaining)).1 := by
  refine ⟨fun _ _ => readCryptoApi_eq_cryptoApi_iff, fun _ _ _ => readCryptoApi_eq_standard_iff,
    ?_, fun _ => readCryptoApi_eq_error_iff, ?_, readStandardFirst_fst encodingKey c,
    congrFun (readRewinding_eq encodingKey) c, ?_⟩
  · intro scheme lock c' h
    exact StandardLock.given_of_read (readCryptoApi_eq_standard_iff.mp h).2
  · intro rounds lock h
    obtain ⟨fault, c₁, ha⟩ := CryptoApiLock.read_of_standard (Prod.ext h rfl)
    exact ⟨fault, congrArg Prod.fst ha⟩
  · exact ((StandardLock.forward_read encodingKey 0).ahead c (.start c.remaining) rfl).1

/-- A cursor in front of a header for AES and a verifier, with a byte on either side. -/
def aesSample : Cursor :=
  .between [0] (StandardInfo.sampleHeader
    ++ (EncryptionVerifier.bytes
      ⟨List.replicate 16 7, List.replicate 16 8, 20, List.replicate 32 9⟩ ++ [1]))

/-- There the reader for AES accepts, so the one for RC4 does not. -/
theorem readCryptoApi_unambiguous_aesSample :
    ∃ lock c', StandardLock.read [1, 2, 3, 4] 0 aesSample = (.ok lock, c')
      ∧ readCryptoApi [1, 2, 3, 4] aesSample = (.ok (.standard .officeNonStandard lock), c')
      ∧ lock.rounds = 0
      ∧ (∃ fault, (CryptoApiLock.read [1, 2, 3, 4] aesSample).1 = .error (.configuration fault))
      ∧ (readStandardFirst [1, 2, 3, 4] aesSample).1 = .ok (.standard .officeNonStandard lock)
      ∧ c'.remaining = [1] := by
  obtain ⟨-, hstandard, hgiven, -, hrefused, hfirst, -, -⟩ :=
    readCryptoApi_unambiguous [1, 2, 3, 4] aesSample
  have hread : ∃ lock c', StandardLock.read [1, 2, 3, 4] 0 aesSample = (.ok lock, c')
      ∧ c'.remaining = [1] := ⟨_, _, rfl, rfl⟩
  obtain ⟨lock, c', hread, hrest⟩ := hread
  have hfound := (hstandard _ _ _).mpr ⟨rfl, hread⟩
  refine ⟨lock, c', hread, hfound, (hgiven _ _ _ hfound).2,
    hrefused 0 lock (congrArg Prod.fst hread), ?_, hrest⟩
  rw [hfirst, hfound]

end OfficeLock

end PageVault
