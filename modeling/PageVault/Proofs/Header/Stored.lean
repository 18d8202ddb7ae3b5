import PageVault.Proofs.Files.Header

/-!
# Headers as they are stored

A header is eight words and the bytes of a name.  `StoredHeader` keeps the words as they
were written, with the ciphers and digests still numbers and the key size not yet filled
in.  Any 32 bytes or more are a stored header (`exists_eq_bytes`), and what a reader makes
of them takes two steps: the numbers stand for a cipher and a digest, or for none, and the
header they give is checked (`ofBytes_bytes`).

§1 words · §2 numbers that stand for nothing · §3 from words to a header.
-/

namespace PageVault

/-! ## §1  Words -/

/-- Four bytes are a word. -/
theorem Bytes.exists_eq_le32_append {b : Bytes} (h : 4 ≤ b.length) :
    ∃ n rest, b = le32 n ++ rest ∧ rest.length + 4 = b.length := by
  refine ⟨UInt32.ofNat (toNatLE (b.take 4)), b.drop 4, ?_, ?_⟩
  · rw [le32_ofNat_toNatLE (List.length_take_of_le h), List.take_append_drop]
  · rw [List.length_drop]
    omega

/-- A header as it is stored. -/
structure StoredHeader where
  flags : HeaderFlags
  sizeExtra : UInt32
  cipherNumber : UInt32
  hashNumber : UInt32
  /-- In bits; zero leaves the size to the cipher and the provider. -/
  keyBits : UInt32
  providerType : UInt32
  reserved₁ : UInt32
  reserved₂ : UInt32
  /-- All that follows the words. -/
  name : Bytes

namespace StoredHeader

def bytes (s : StoredHeader) : Bytes :=
  Bytes.le32 s.flags ++ (Bytes.le32 s.sizeExtra ++ (Bytes.le32 s.cipherNumber
    ++ (Bytes.le32 s.hashNumber ++ (Bytes.le32 s.keyBits ++ (Bytes.le32 s.providerType
      ++ (Bytes.le32 s.reserved₁ ++ (Bytes.le32 s.reserved₂ ++ s.name)))))))

/-- **Enough bytes are a stored header.** -/
theorem exists_eq_bytes {b : Bytes} (h : 32 ≤ b.length) : ∃ s : StoredHeader, b = s.bytes := by
  obtain ⟨flags, b₁, rfl, h₁⟩ := Bytes.exists_eq_le32_append (b := b) (by omega)
  obtain ⟨sizeExtra, b₂, rfl, h₂⟩ := Bytes.exists_eq_le32_append (b := b₁) (by omega)
  obtain ⟨cipherNumber, b₃, rfl, h₃⟩ := Bytes.exists_eq_le32_append (b := b₂) (by omega)
  obtain ⟨hashNumber, b₄, rfl, h₄⟩ := Bytes.exists_eq_le32_append (b := b₃) (by omega)
  obtain ⟨keyBits, b₅, rfl, h₅⟩ := Bytes.exists_eq_le32_append (b := b₄) (by omega)
  obtain ⟨providerType, b₆, rfl, h₆⟩ := Bytes.exists_eq_le32_append (b := b₅) (by omega)
  obtain ⟨reserved₁, b₇, rfl, h₇⟩ := Bytes.exists_eq_le32_append (b := b₆) (by omega)
  obtain ⟨reserved₂, name, rfl, -⟩ := Bytes.exists_eq_le32_append (b := b₇) (by omega)
  exact ⟨⟨flags, sizeExtra, cipherNumber, hashNumber, keyBits, providerType, reserved₁,
    reserved₂, name⟩, rfl⟩

end StoredHeader

/-! ## §2  Numbers that stand for nothing -/

/-- No cipher has the number, and if the number is zero the flags say nothing either. -/
def UnknownCipher (flags : HeaderFlags) (number : UInt32) : Prop :=
  number ∉ [0x6801, 0x660E, 0x660F, 0x6610]
    ∧ (number = 0 → flags &&& 0x10 = 0 ∧ flags &&& 0x04 = 0)

/-- The number is none of a digest, and not zero. -/
def UnknownHash (number : UInt32) : Prop :=
  number ∉ [0, 0x8004]

/-- The cipher is left to a provider outside the file. -/
def LeavesCipher (flags : HeaderFlags) (number : UInt32) : Prop :=
  number = 0 ∧ flags &&& 0x10 ≠ 0

/-- A cipher is found, and then the number is known, or it is not and the error says which
number under which flags. -/
theorem HeaderCipher.ofNumber_or_unknown (number : UInt32) (flags : HeaderFlags) :
    (∃ cipher, ofNumber number flags = .ok cipher ∧ ¬ UnknownCipher flags number
        ∧ (cipher = .external ↔ LeavesCipher flags number))
      ∨ ofNumber number flags = .error (.unsupported (.cipherNumber number flags))
        ∧ UnknownCipher flags number ∧ ¬ LeavesCipher flags number := by
  unfold ofNumber UnknownCipher LeavesCipher HeaderFlags.isExternal HeaderFlags.cryptoApi
  by_cases hzero : number = 0
  · subst hzero
    by_cases he : flags &&& 0x10 = 0
    · by_cases ha : flags &&& 0x04 = 0
      · right
        simp [he, ha]
      · left
        cases flags.aes <;> simp [he, ha]
    · left
      simp [he]
  · -- The flags do not matter, and the number is one of four or unknown.
    simp only [hzero, false_and, if_false, IsEmpty.forall_iff, and_true]
    by_cases h₁ : number = 0x6801
    · left
      simp [h₁]
    · by_cases h₂ : number = 0x660E
      · left
        simp [h₂]
      · by_cases h₃ : number = 0x660F
        · left
          simp [h₃]
        · by_cases h₄ : number = 0x6610
          · left
            simp [h₄]
          · right
            simp [h₁, h₂, h₃, h₄]

theorem HeaderHash.ofNumber_or_unknown (number : UInt32) (flags : HeaderFlags) :
    (∃ hash, ofNumber number flags = .ok hash ∧ ¬ UnknownHash number)
      ∨ ofNumber number flags = .error (.unsupported (.hashNumber number flags))
        ∧ UnknownHash number := by
  unfold ofNumber UnknownHash
  by_cases hk : number = 0 ∨ number = 0x8004
  · left
    have hmem : ¬ number ∉ [0, 0x8004] := not_not_intro (by simpa using hk)
    by_cases he : number = 0 ∧ flags.isExternal = true
    · exact ⟨.external, if_pos he, hmem⟩
    · exact ⟨.sha1, (if_neg he).trans (if_pos hk), hmem⟩
  · right
    have hmem : number ∉ [0, 0x8004] := by simpa using hk
    have he : ¬ (number = 0 ∧ flags.isExternal = true) := fun h => hk (Or.inl h.1)
    exact ⟨(if_neg he).trans (if_neg hk), hmem⟩

/-! ## §3  From words to a header -/

namespace StoredHeader

/-- The header with the given cipher and digest. -/
def header (s : StoredHeader) (cipher : HeaderCipher) (hash : HeaderHash) : EncryptionHeader where
  flags := s.flags
  sizeExtra := s.sizeExtra
  cipher := cipher
  hash := hash
  keyBits := if s.keyBits = 0 then defaultKeyBits cipher (providerName s.name) else s.keyBits
  providerType := s.providerType
  provider := providerName s.name

/-- What a reader takes from the words before it checks anything. -/
theorem fields_bytes (s : StoredHeader) :
    (EncryptionHeader.fields (.start s.bytes)).1
      = (do
          let cipher ← HeaderCipher.ofNumber s.cipherNumber s.flags
          let hash ← HeaderHash.ofNumber s.hashNumber s.flags
          return s.header cipher hash) := by
  have hstart : Cursor.start s.bytes = .between [] s.bytes := rfl
  unfold EncryptionHeader.fields
  rw [hstart, bytes]
  rw [Reading.bind_of_ok (Reading.reads_word32 s.flags _ _ _),
    Reading.bind_of_ok (Reading.reads_word32 s.sizeExtra _ _ _),
    Reading.bind_of_ok (Reading.reads_word32 s.cipherNumber _ _ _),
    Reading.bind_of_ok (Reading.reads_word32 s.hashNumber _ _ _),
    Reading.bind_of_ok (Reading.reads_word32 s.keyBits _ _ _),
    Reading.bind_of_ok (Reading.reads_word32 s.providerType _ _ _)]
  cases hc : HeaderCipher.ofNumber s.cipherNumber s.flags with
  | error e => rfl
  | ok cipher =>
      rw [Reading.bind_of_ok (Reading.lift_eq_ok.mpr ⟨rfl, rfl⟩)]
      cases hh : HeaderHash.ofNumber s.hashNumber s.flags with
      | error e => rfl
      | ok hash =>
          rw [Reading.bind_of_ok (Reading.lift_eq_ok.mpr ⟨rfl, rfl⟩),
            Reading.bind_of_ok (Reading.reads_word32 s.reserved₁ _ _ _),
            Reading.bind_of_ok (Reading.reads_word32 s.reserved₂ _ _ _)]
          have hrest : ∀ before,
              Reading.rest (.between before s.name) = (.ok s.name, .between before s.name) := by
            intro before
            unfold Reading.rest
            rw [Cursor.remaining_between]
          rw [Reading.bind_of_ok (hrest _)]
          rfl

/-- **A stored header is read in two steps**: its numbers have to stand for something, and the
header they give has to pass the checks. -/
theorem ofBytes_bytes (s : StoredHeader) (ciphers : List HeaderCipher)
    (hashes : List HeaderHash) :
    EncryptionHeader.ofBytes ciphers hashes s.bytes
      = (do
          let cipher ← HeaderCipher.ofNumber s.cipherNumber s.flags
          let hash ← HeaderHash.ofNumber s.hashNumber s.flags
          EncryptionHeader.check ciphers hashes (s.header cipher hash)
          return s.header cipher hash) := by
  unfold EncryptionHeader.ofBytes
  rw [fields_bytes]
  cases HeaderCipher.ofNumber s.cipherNumber s.flags with
  | error e => rfl
  | ok cipher =>
      cases HeaderHash.ofNumber s.hashNumber s.flags with
      | error e => rfl
      | ok hash => rfl

end StoredHeader

end PageVault
