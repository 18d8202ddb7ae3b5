import PageVault.Keys.Header
import PageVault.Proofs.Reading

/-!
# Headers that pass the checks

A reader of headers is given the ciphers and digests that it accepts.  What is sure of a header
that passes its checks is `Valid`, and the checks pass nothing else (`check_eq_ok_iff`).  A
header that fails them is refused for one of two kinds of reasons (`check_cases`): as
unsupported if its cipher is left to the outside, and otherwise because it does not fit.  So
readers that accept different ciphers do not accept the same bytes (`read_of_not_mem`).

§1 valid headers · §2 headers that are refused · §3 headers that were read.
-/

namespace PageVault

namespace EncryptionHeader

variable {ciphers others : List HeaderCipher} {hashes hashes' : List HeaderHash} {body : Bytes}
  {h : EncryptionHeader}

/-! ## §1  Valid headers -/

/-- What is sure of a header that a reader for these ciphers and digests returns. -/
structure Valid (ciphers : List HeaderCipher) (hashes : List HeaderHash)
    (h : EncryptionHeader) : Prop where
  cipher_mem : h.cipher ∈ ciphers
  hash_mem : h.hash ∈ hashes
  least_le : h.cipher.leastKeyBits ≤ h.keyBits
  le_greatest : h.keyBits ≤ h.cipher.greatestKeyBits
  /-- The key consists of whole bytes. -/
  whole_bytes : h.keyLength * 8 = h.keyBits.toNat

theorem mod_eq_zero_iff_keyLength (h : EncryptionHeader) :
    h.keyBits % 8 = 0 ↔ h.keyLength * 8 = h.keyBits.toNat := by
  unfold keyLength
  rw [← UInt32.toNat_inj, UInt32.toNat_mod]
  show h.keyBits.toNat % 8 = 0 ↔ _
  omega

/-- The checks pass what is valid. -/
theorem check_eq_ok_iff : check ciphers hashes h = .ok () ↔ h.Valid ciphers hashes := by
  unfold check
  constructor
  · intro hc
    split at hc
    · split at hc <;> cases hc
    · rename_i hcipher
      split at hc
      · cases hc
      · rename_i hhash
        split at hc
        · cases hc
        · rename_i hrange
          split at hc
          · cases hc
          · rename_i hmod
            obtain ⟨hleast, hgreatest⟩ := not_or.mp hrange
            exact ⟨Classical.not_not.mp hcipher, Classical.not_not.mp hhash,
              UInt32.not_lt.mp hleast, UInt32.not_lt.mp hgreatest,
              (mod_eq_zero_iff_keyLength h).mp (Classical.not_not.mp hmod)⟩
  · intro hv
    have hrange : ¬ (h.keyBits < h.cipher.leastKeyBits ∨ h.cipher.greatestKeyBits < h.keyBits) :=
      not_or.mpr ⟨UInt32.not_lt.mpr hv.least_le, UInt32.not_lt.mpr hv.le_greatest⟩
    have hmod : h.keyBits % 8 = 0 := (mod_eq_zero_iff_keyLength h).mpr hv.whole_bytes
    rw [if_neg (not_not_intro hv.cipher_mem), if_neg (not_not_intro hv.hash_mem), if_neg hrange,
      if_neg (not_not_intro hmod)]

/-- RC4 keys have from 5 to 64 bytes. -/
theorem Valid.keyLength_of_rc4 (hv : h.Valid ciphers hashes) (hc : h.cipher = .rc4) :
    5 ≤ h.keyLength ∧ h.keyLength ≤ 64 := by
  have hleast := UInt32.le_iff_toNat_le.mp hv.least_le
  have hgreatest := UInt32.le_iff_toNat_le.mp hv.le_greatest
  have hwhole := hv.whole_bytes
  rw [hc] at hleast hgreatest
  change 0x28 ≤ h.keyBits.toNat at hleast
  change h.keyBits.toNat ≤ 0x200 at hgreatest
  omega

/-! ## §2  Headers that are refused -/

/-- A header that is refused is left to the outside where that is not accepted, or it does not
fit. -/
theorem check_cases (ciphers : List HeaderCipher) (hashes : List HeaderHash)
    (h : EncryptionHeader) :
    ((h.cipher = .external ∧ .external ∉ ciphers)
        ∧ ∃ fault, check ciphers hashes h = .error (.unsupported fault))
      ∨ ¬ (h.cipher = .external ∧ .external ∉ ciphers)
        ∧ ((∃ fault, check ciphers hashes h = .error (.configuration fault))
          ∨ check ciphers hashes h = .ok ()) := by
  unfold check
  by_cases hmem : h.cipher ∈ ciphers
  · right
    constructor
    · rintro ⟨he, hn⟩
      rw [he] at hmem
      exact hn hmem
    · rw [if_neg (not_not_intro hmem)]
      split
      · exact Or.inl ⟨_, rfl⟩
      · split
        · exact Or.inl ⟨_, rfl⟩
        · split
          · exact Or.inl ⟨_, rfl⟩
          · exact Or.inr rfl
  · rw [if_pos hmem]
    by_cases he : h.cipher = .external
    · left
      rw [he] at hmem
      exact ⟨⟨he, hmem⟩, _, if_pos he⟩
    · right
      exact ⟨fun h' => he h'.1, Or.inl ⟨_, if_neg he⟩⟩

theorem check_of_not_mem (hc : h.cipher ∉ others) (he : h.cipher ≠ .external) :
    check others hashes h = .error (.configuration (.cipherRefused h.cipher others)) := by
  rw [check, if_pos hc, if_neg he]

/-! ## §3  Headers that were read -/

/-- A body holds a header if its fields can be read and pass the checks. -/
theorem ofBytes_eq_ok_iff :
    ofBytes ciphers hashes body = .ok h
      ↔ (fields (.start body)).1 = .ok h ∧ check ciphers hashes h = .ok () := by
  constructor
  · intro hb
    obtain ⟨h', hfields, hb⟩ := Outcome.bind_eq_ok.mp hb
    obtain ⟨⟨⟩, hcheck, hb⟩ := Outcome.bind_eq_ok.mp hb
    cases hb
    exact ⟨hfields, hcheck⟩
  · rintro ⟨hfields, hcheck⟩
    exact Outcome.bind_eq_ok.mpr ⟨h, hfields, Outcome.bind_eq_ok.mpr ⟨(), hcheck, rfl⟩⟩

/-- A header that was read stood in a body behind its size. -/
theorem exists_body_of_read {c c' : Cursor} (hr : read ciphers hashes c = (.ok h, c')) :
    ∃ size body c₁, Reading.word32 "EncryptionHeader.headerSize" c = (.ok size, c₁)
      ∧ Reading.take size.toNat "EncryptionHeader" c₁ = (.ok body, c')
      ∧ ofBytes ciphers hashes body = .ok h := by
  obtain ⟨size, c₁, hsize, hr⟩ := Reading.bind_eq_ok.mp hr
  obtain ⟨body, c₂, hbody, hr⟩ := Reading.bind_eq_ok.mp hr
  obtain ⟨hh, rfl⟩ := Reading.lift_eq_ok.mp hr
  exact ⟨size, body, c₁, hsize, hbody, hh⟩

/-- A header that was read has passed the checks of its reader. -/
theorem check_of_read {c c' : Cursor} (hr : read ciphers hashes c = (.ok h, c')) :
    check ciphers hashes h = .ok () := by
  obtain ⟨size, body, c₁, -, -, hh⟩ := exists_body_of_read hr
  exact (ofBytes_eq_ok_iff.mp hh).2

/-- A body that holds a header of some ciphers is refused where others are accepted, because
of the cipher. -/
theorem ofBytes_of_not_mem (hh : ofBytes ciphers hashes body = .ok h)
    (hc : h.cipher ∉ others) (he : h.cipher ≠ .external) :
    ofBytes others hashes' body
      = .error (.configuration (.cipherRefused h.cipher others)) := by
  -- The fields are the same; the check comes next.
  refine Outcome.bind_eq_error.mpr (Or.inr ⟨h, (ofBytes_eq_ok_iff.mp hh).1, ?_⟩)
  exact Outcome.bind_eq_error.mpr (Or.inl (check_of_not_mem hc he))

/-- A header that was read is refused by a reader for other ciphers, which comes as far. -/
theorem read_of_not_mem {c c' : Cursor} (hr : read ciphers hashes c = (.ok h, c'))
    (hc : h.cipher ∉ others) (he : h.cipher ≠ .external) :
    read others hashes' c = (.error (.configuration (.cipherRefused h.cipher others)), c') := by
  obtain ⟨size, body, c₁, hsize, hbody, hh⟩ := exists_body_of_read hr
  unfold read
  rw [Reading.bind_of_ok hsize, Reading.bind_of_ok hbody]
  exact congrArg (·, c') (ofBytes_of_not_mem hh hc he)

end EncryptionHeader

end PageVault
