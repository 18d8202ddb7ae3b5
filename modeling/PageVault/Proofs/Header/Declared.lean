import PageVault.Proofs.Forward
import PageVault.Proofs.Header.Stored

/-!
# Headers behind their size

The size of a header stands in front of it and decides where reading goes on, whatever
becomes of the header itself: behind the declared bytes if they are all there, and else
behind the last field that was.  What becomes of the header depends on the declared bytes
and nothing else, and where there are enough of them for all words, the words decide whether
it is refused as unsupported or because it does not fit (`read_by_declaration`).

§1 what is declared · §2 stored headers that are refused · §3 reading.
-/

namespace PageVault

namespace EncryptionHeader

/-! ## §1  What is declared -/

/-- The size that stands at the cursor. -/
def declaredSize (c : Cursor) : Nat :=
  Bytes.toNatLE (c.remaining.take 4)

/-- Behind the size, as many bytes as it says. -/
def declaredBytes (c : Cursor) : Bytes :=
  (c.remaining.drop 4).take (declaredSize c)

/-- The size is there, and all that it declares. -/
def IsComplete (c : Cursor) : Prop :=
  4 + declaredSize c ≤ c.remaining.length

variable {ciphers : List HeaderCipher} {hashes : List HeaderHash} {size : UInt32}
  {before body after more : Bytes} {h : EncryptionHeader}

section

variable (size : UInt32) (before more : Bytes)

theorem declaredSize_between :
    declaredSize (.between before (Bytes.le32 size ++ more)) = size.toNat := by
  unfold declaredSize
  rw [Cursor.remaining_between, List.take_left' (Bytes.length_le32 size), Bytes.toNatLE_le32]

theorem declaredBytes_between :
    declaredBytes (.between before (Bytes.le32 size ++ more)) = more.take size.toNat := by
  unfold declaredBytes
  rw [declaredSize_between, Cursor.remaining_between, List.drop_left' (Bytes.length_le32 size)]

theorem isComplete_between_iff :
    IsComplete (.between before (Bytes.le32 size ++ more)) ↔ size.toNat ≤ more.length := by
  unfold IsComplete
  rw [declaredSize_between, Cursor.remaining_between, List.length_append, Bytes.length_le32]
  omega

end

/-- A size and fewer bytes than it says. -/
theorem read_between_of_lt (hl : more.length < size.toNat) (ciphers : List HeaderCipher)
    (hashes : List HeaderHash) (before : Bytes) :
    read ciphers hashes (.between before (Bytes.le32 size ++ more))
      = (.error (.truncated "EncryptionHeader"), .between (before ++ Bytes.le32 size) more) := by
  unfold read
  rw [Reading.bind_of_ok (Reading.reads_word32 size _ before more)]
  exact Reading.bind_of_error (Reading.take_between_of_lt hl _)

/-- **The three places where reading can stop**: in front of the size, behind it, and behind
the bytes that it declares. -/
theorem read_cases (ciphers : List HeaderCipher) (hashes : List HeaderHash) (c : Cursor) :
    (c.remaining.length < 4
        ∧ read ciphers hashes c = (.error (.truncated "EncryptionHeader.headerSize"), c))
      ∨ (∃ before size more, c = .between before (Bytes.le32 size ++ more)
        ∧ more.length < size.toNat
        ∧ read ciphers hashes c
          = (.error (.truncated "EncryptionHeader"), .between (before ++ Bytes.le32 size) more))
      ∨ ∃ before size body after, c = .between before (Bytes.le32 size ++ (body ++ after))
        ∧ body.length = size.toNat
        ∧ read ciphers hashes c
          = (ofBytes ciphers hashes body,
              .between (before ++ (Bytes.le32 size ++ body)) after) := by
  obtain ⟨before, ahead, rfl⟩ := c.exists_eq_between
  rw [Cursor.remaining_between]
  rcases Nat.lt_or_ge ahead.length 4 with hshort | hlong
  · left
    exact ⟨hshort, Reading.bind_of_error (Reading.word32_between_of_lt hshort _)⟩
  · right
    obtain ⟨size, more, rfl, -⟩ := Bytes.exists_eq_le32_append hlong
    rcases Nat.lt_or_ge more.length size.toNat with hlt | hle
    · left
      exact ⟨before, size, more, rfl, hlt, read_between_of_lt hlt ciphers hashes before⟩
    · right
      have hbody : (more.take size.toNat).length = size.toNat := List.length_take_of_le hle
      refine ⟨before, size, more.take size.toNat, more.drop size.toNat, ?_, hbody, ?_⟩
      · rw [List.take_append_drop]
      · rw [← read_between hbody, List.append_assoc, List.take_append_drop]

/-- Where all declared bytes are, they are what is read. -/
theorem read_of_isComplete {c : Cursor} (hc : IsComplete c) (ciphers : List HeaderCipher)
    (hashes : List HeaderHash) :
    (read ciphers hashes c).1 = ofBytes ciphers hashes (declaredBytes c) := by
  rcases read_cases ciphers hashes c with ⟨hshort, -⟩ | ⟨before, size, more, rfl, hlt, -⟩
    | ⟨before, size, body, after, rfl, hbody, hread⟩
  · unfold IsComplete at hc
    omega
  · rw [isComplete_between_iff] at hc
    omega
  · rw [hread, declaredBytes_between, List.take_left' hbody]

end EncryptionHeader

/-! ## §2  Stored headers that are refused -/

/-- A number stands for nothing, or the cipher is left to the outside and that is not
accepted. -/
def StoredHeader.Unsupported (s : StoredHeader) (ciphers : List HeaderCipher) : Prop :=
  UnknownCipher s.flags s.cipherNumber ∨ UnknownHash s.hashNumber
    ∨ LeavesCipher s.flags s.cipherNumber ∧ .external ∉ ciphers

/-- **The words decide the kind of refusal.** -/
theorem StoredHeader.ofBytes_cases (s : StoredHeader) (ciphers : List HeaderCipher)
    (hashes : List HeaderHash) :
    (s.Unsupported ciphers
        ∧ ∃ fault, EncryptionHeader.ofBytes ciphers hashes s.bytes = .error (.unsupported fault))
      ∨ ¬ s.Unsupported ciphers
        ∧ ((∃ fault,
            EncryptionHeader.ofBytes ciphers hashes s.bytes = .error (.configuration fault))
          ∨ ∃ h, EncryptionHeader.ofBytes ciphers hashes s.bytes = .ok h) := by
  rw [ofBytes_bytes]
  rcases HeaderCipher.ofNumber_or_unknown s.cipherNumber s.flags with
    ⟨cipher, hcipher, hknown, hleft⟩ | ⟨hcipher, hunknown, -⟩
  · rcases HeaderHash.ofNumber_or_unknown s.hashNumber s.flags with
      ⟨hash, hhash, hknown'⟩ | ⟨hhash, hunknown⟩
    · -- Both numbers are known, so the checks decide.
      rw [hcipher, hhash]
      change (_ ∧ ∃ fault, EncryptionHeader.check _ _ _ >>= _ = _)
        ∨ _ ∧ ((∃ fault, EncryptionHeader.check _ _ _ >>= _ = _)
          ∨ ∃ h, EncryptionHeader.check _ _ _ >>= _ = _)
      have hunsupported : s.Unsupported ciphers
          ↔ cipher = .external ∧ .external ∉ ciphers := by
        unfold Unsupported
        rw [hleft]
        simp [hknown, hknown']
      rw [hunsupported]
      rcases EncryptionHeader.check_cases ciphers hashes (s.header cipher hash) with
        ⟨hexternal, fault, hcheck⟩ | ⟨hinside, ⟨fault, hcheck⟩ | hcheck⟩
      · rw [hcheck]
        exact Or.inl ⟨hexternal, fault, rfl⟩
      · rw [hcheck]
        exact Or.inr ⟨hinside, Or.inl ⟨fault, rfl⟩⟩
      · rw [hcheck]
        exact Or.inr ⟨hinside, Or.inr ⟨_, rfl⟩⟩
    · left
      rw [hcipher, hhash]
      exact ⟨Or.inr (Or.inl hunknown), _, rfl⟩
  · left
    rw [hcipher]
    exact ⟨Or.inl hunknown, _, rfl⟩

theorem StoredHeader.unsupported_iff (s : StoredHeader) (ciphers : List HeaderCipher)
    (hashes : List HeaderHash) :
    (∃ fault, EncryptionHeader.ofBytes ciphers hashes s.bytes = .error (.unsupported fault))
      ↔ s.Unsupported ciphers := by
  rcases s.ofBytes_cases ciphers hashes with ⟨hu, hf⟩ | ⟨hu, ⟨fault, hf⟩ | ⟨h, hok⟩⟩
  · exact iff_of_true hf hu
  · refine iff_of_false ?_ hu
    rintro ⟨fault', h'⟩
    rw [hf] at h'
    cases h'
  · refine iff_of_false ?_ hu
    rintro ⟨fault', h'⟩
    rw [hok] at h'
    cases h'

/-- Whatever else is wrong does not fit. -/
theorem StoredHeader.exists_configuration_of_error {s : StoredHeader}
    {ciphers : List HeaderCipher} {hashes : List HeaderHash} {e : Error}
    (he : EncryptionHeader.ofBytes ciphers hashes s.bytes = .error e)
    (hu : ¬ s.Unsupported ciphers) : ∃ fault, e = .configuration fault := by
  rcases s.ofBytes_cases ciphers hashes with ⟨hu', -⟩ | ⟨-, ⟨fault, hf⟩ | ⟨h, hok⟩⟩
  · exact absurd hu' hu
  · rw [he] at hf
    exact ⟨fault, Except.error.inj hf⟩
  · rw [he] at hok
    cases hok

/-! ## §3  Reading -/

namespace EncryptionHeader

/-- Where reading goes on. -/
theorem read_cursor (ciphers : List HeaderCipher) (hashes : List HeaderHash) (c : Cursor) :
    (read ciphers hashes c).2.data = c.data
      ∧ (read ciphers hashes c).2.position
        = if c.remaining.length < 4 then c.position
          else if c.remaining.length < 4 + declaredSize c then c.position + 4
          else c.position + 4 + declaredSize c := by
  rcases read_cases ciphers hashes c with ⟨hshort, hread⟩ | ⟨before, size, more, rfl, hlt, hread⟩
    | ⟨before, size, body, after, rfl, hbody, hread⟩
  · rw [hread, if_pos hshort]
    exact ⟨rfl, rfl⟩
  · rw [hread, declaredSize_between, Cursor.remaining_between, List.length_append,
      Bytes.length_le32, if_neg (by omega), if_pos (by omega)]
    constructor
    · exact List.append_assoc before (Bytes.le32 size) more
    · show (before ++ Bytes.le32 size).length = before.length + 4
      rw [List.length_append, Bytes.length_le32]
  · rw [hread, declaredSize_between, Cursor.remaining_between, List.length_append,
      List.length_append, Bytes.length_le32, if_neg (by omega), if_neg (by omega)]
    constructor
    · show before ++ (Bytes.le32 size ++ body) ++ after = before ++ _
      simp only [List.append_assoc]
    · show (before ++ (Bytes.le32 size ++ body)).length = before.length + 4 + size.toNat
      rw [List.length_append, List.length_append, Bytes.length_le32, hbody, Nat.add_assoc]

/-- A size that is cut off, or bytes that are fewer than it says. -/
theorem exists_format_of_lt {c : Cursor} (hlt : c.remaining.length < 4 + declaredSize c)
    (ciphers : List HeaderCipher) (hashes : List HeaderHash) :
    ∃ fault, (read ciphers hashes c).1 = .error (.format fault) := by
  rcases read_cases ciphers hashes c with ⟨-, hread⟩ | ⟨before, size, more, -, -, hread⟩
    | ⟨before, size, body, after, rfl, hbody, -⟩
  · exact ⟨_, congrArg Prod.fst hread⟩
  · exact ⟨_, congrArg Prod.fst hread⟩
  · rw [declaredSize_between, Cursor.remaining_between, List.length_append, List.length_append,
      Bytes.length_le32] at hlt
    omega

theorem length_declaredBytes {c : Cursor} (hc : IsComplete c) :
    (declaredBytes c).length = declaredSize c := by
  unfold IsComplete at hc
  unfold declaredBytes
  rw [List.length_take, List.length_drop]
  omega

/-- **The declared size decides where reading goes on, and the declared bytes decide what
becomes of the header.**  The cursor stays if there is no size, stops behind the size if less
is left than it says, and goes behind the declared bytes in all other cases, whether the header
is accepted or not.  An accepted header is valid; and one that has all its words is refused as
unsupported exactly if one of its numbers stands for nothing, or if it leaves the cipher to the
outside and that is not accepted, and in all other cases because it does not fit. -/
theorem read_by_declaration (ciphers : List HeaderCipher) (hashes : List HeaderHash)
    (c : Cursor) :
    let result := read ciphers hashes c
    (result.2.data = c.data
        ∧ result.2.position
          = if c.remaining.length < 4 then c.position
            else if c.remaining.length < 4 + declaredSize c then c.position + 4
            else c.position + 4 + declaredSize c)
      ∧ (c.remaining.length < 4 + declaredSize c → ∃ fault, result.1 = .error (.format fault))
      ∧ (∀ h, result.1 = .ok h →
        h.Valid ciphers hashes ∧ (h.cipher = .rc4 → 5 ≤ h.keyLength ∧ h.keyLength ≤ 64))
      ∧ (IsComplete c → ∀ c', IsComplete c' → declaredBytes c' = declaredBytes c →
        (read ciphers hashes c').1 = result.1)
      ∧ (IsComplete c → 32 ≤ declaredSize c → ∃ s : StoredHeader, declaredBytes c = s.bytes)
      ∧ (IsComplete c → ∀ s : StoredHeader, declaredBytes c = s.bytes →
        ((∃ fault, result.1 = .error (.unsupported fault)) ↔ s.Unsupported ciphers)
          ∧ ∀ e, result.1 = .error e → ¬ s.Unsupported ciphers →
            ∃ fault, e = .configuration fault) := by
  intro result
  refine ⟨read_cursor ciphers hashes c, ?_, ?_, ?_, ?_, ?_⟩
  · intro hlt
    exact exists_format_of_lt hlt ciphers hashes
  · intro h hok
    have hvalid : h.Valid ciphers hashes := check_eq_ok_iff.mp (check_of_read (Prod.ext hok rfl))
    exact ⟨hvalid, hvalid.keyLength_of_rc4⟩
  · intro hc c' hc' heq
    show _ = (read ciphers hashes c).1
    rw [read_of_isComplete hc, read_of_isComplete hc', heq]
  · intro hc hlong
    rw [← length_declaredBytes hc] at hlong
    exact StoredHeader.exists_eq_bytes hlong
  · intro hc s hs
    have hresult : result.1 = ofBytes ciphers hashes s.bytes := by
      rw [← hs]
      exact read_of_isComplete hc ciphers hashes
    rw [hresult]
    refine ⟨s.unsupported_iff ciphers hashes, ?_⟩
    intro e he hu
    exact StoredHeader.exists_configuration_of_error he hu

/-- A header that names AES with a key of 128 bits. -/
def storedSample : StoredHeader :=
  ⟨0x24, 0, 0x660E, 0x8004, 128, 0x18, 0, 0, []⟩

/-- A header behind its size, between other bytes. -/
def sampleCursor (s : StoredHeader) : Cursor :=
  .between [7] (Bytes.le32 32 ++ (s.bytes ++ [8, 9]))

/-- The sample is accepted where its cipher is, with another number it is unsupported, and in
both cases reading goes on behind it; behind a size that is one too large, reading stops. -/
theorem read_by_declaration_sample :
    ((read [.aes128] [.sha1] (sampleCursor storedSample)).2.position = 37
        ∧ ∃ h, (read [.aes128] [.sha1] (sampleCursor storedSample)).1 = .ok h
          ∧ h.Valid [.aes128] [.sha1])
      ∧ ((read [.aes128] [.sha1]
            (sampleCursor { storedSample with cipherNumber := 0x6602 })).2.position = 37
        ∧ ∃ fault, (read [.aes128] [.sha1]
            (sampleCursor { storedSample with cipherNumber := 0x6602 })).1
          = .error (.unsupported fault))
      ∧ (read [.aes128] [.sha1] (.start (Bytes.le32 33 ++ storedSample.bytes))).2.position = 4
        ∧ ∃ fault, (read [.aes128] [.sha1] (.start (Bytes.le32 33 ++ storedSample.bytes))).1
          = .error (.format fault) := by
  obtain ⟨⟨-, hposition⟩, -, hvalid, -, -, -⟩ :=
    read_by_declaration [.aes128] [.sha1] (sampleCursor storedSample)
  obtain ⟨⟨-, hposition'⟩, -, -, -, -, hwords⟩ :=
    read_by_declaration [.aes128] [.sha1]
      (sampleCursor { storedSample with cipherNumber := 0x6602 })
  obtain ⟨⟨-, hstopped⟩, hformat, -, -, -, -⟩ :=
    read_by_declaration [.aes128] [.sha1] (.start (Bytes.le32 33 ++ storedSample.bytes))
  refine ⟨⟨hposition, _, rfl, (hvalid _ rfl).1⟩, ⟨hposition', ?_⟩, hstopped,
    hformat (by decide)⟩
  have hunknown : UnknownCipher 0x24 0x6602 := by
    unfold UnknownCipher
    decide
  exact (hwords (by unfold IsComplete; decide) _ rfl).1.mpr (Or.inl hunknown)

end EncryptionHeader

end PageVault
