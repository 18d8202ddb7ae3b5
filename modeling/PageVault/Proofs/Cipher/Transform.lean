import PageVault.Cipher.Spec
import PageVault.Proofs.Cipher.Aes
import PageVault.Proofs.Cipher.Chaining
import PageVault.Proofs.Cipher.Des
import PageVault.Proofs.Cipher.Rc2

/-!
# What a transformation needs, and that it can be taken back

Whether a buffer can be transformed, and if not, why, is decided by lengths alone:
that of the buffer, of the key and of the initialisation vector.  `refusal` is that
decision.  A buffer that is not refused keeps its length and is restored by the
opposite direction under the same key and vector.

§1 pairs and ciphers under a key · §2 the decision · §3 modes · §4 the transformation.
-/

namespace PageVault

/-- The other direction. -/
def Direction.opposite : Direction → Direction
  | encrypt => decrypt
  | decrypt => encrypt

namespace CipherSpec

/-! ## §1  Pairs and ciphers under a key -/

/-- Every pair of the type is one that `ofPair` gives for its cipher and its mode. -/
theorem ofPair_eq_ok_iff {cipher : CipherAlgorithm} {mode : ChainingMode} {spec : CipherSpec} :
    ofPair cipher mode = .ok spec ↔ spec.cipher = cipher ∧ spec.mode = mode := by
  constructor
  · intro h
    unfold ofPair at h
    split at h
    · cases h
    · split at h
      · cases h
        exact ⟨rfl, rfl⟩
      · cases h
  · rintro ⟨rfl, rfl⟩
    have ha : ¬ (spec.mode = .ccm ∨ spec.mode = .gcm) :=
      not_or.mpr spec.not_authenticated
    rw [ofPair, dif_neg ha, dif_pos spec.not_chained_stream]

/-- **Every block cipher is lawful**, whatever the key. -/
theorem lawful_keyed (cipher : CipherAlgorithm) (key : Bytes) : (keyed cipher key).Lawful := by
  cases cipher with
  | aes => exact Aes.lawful_cipher key
  | rc2 => exact Rc2.lawful_cipher key
  | rc4 => exact Des.lawful_tripleCipher key
  | des => exact Des.lawful_cipher key
  | tripleDes => exact Des.lawful_tripleCipher key
  | tripleDes112 => exact Des.lawful_tripleCipher key

theorem size_keyed {cipher : CipherAlgorithm} (h : cipher ≠ .rc4) (key : Bytes) :
    (keyed cipher key).size = cipher.blockSize := by
  cases cipher with
  | rc4 => exact absurd rfl h
  | aes | rc2 | des | tripleDes | tripleDes112 => rfl

/-! ## §2  The decision -/

/-- A length that the pair can transform: whole blocks, unless any length will do. -/
def Fits (spec : CipherSpec) (length : Nat) : Prop :=
  spec.anyLength = true ∨ length % spec.blockSize = 0

instance (spec : CipherSpec) (length : Nat) : Decidable (spec.Fits length) :=
  inferInstanceAs (Decidable (_ ∨ _))

/-- A vector as long as a block, if the mode needs one. -/
def HasVector (spec : CipherSpec) (iv : Option Bytes) : Prop :=
  spec.mode.isChained = true → ∃ v, iv = some v ∧ v.length = spec.blockSize

/-- What is wrong with the initialisation vector of a mode that needs one. -/
def vectorRefusal (spec : CipherSpec) : Option Bytes → Option Error
  | some v =>
      if v.length = spec.blockSize then none
      else some (.configuration (.vectorLength spec.blockSize v.length))
  | none => some (.configuration .vectorMissing)

/-- Why a buffer is not transformed, if it is not. -/
def refusal (spec : CipherSpec) (keyLength : Nat) (iv : Option Bytes) (length : Nat) :
    Option Error :=
  if ¬ spec.Fits length then some (.format (.partialBlock length spec.cipher))
  else if spec.cipher.supportsKeyLength keyLength = false then
    some (.configuration (.keyLength spec.cipher keyLength))
  else if spec.mode.isChained then spec.vectorRefusal iv
  else none

theorem vectorRefusal_eq_none {spec : CipherSpec} {iv : Option Bytes} :
    spec.vectorRefusal iv = none ↔ ∃ v, iv = some v ∧ v.length = spec.blockSize := by
  cases iv with
  | none => simp [vectorRefusal]
  | some v => simp [vectorRefusal]

/-- A buffer is transformed exactly if all three lengths are right. -/
theorem refusal_eq_none {spec : CipherSpec} {keyLength length : Nat} {iv : Option Bytes} :
    spec.refusal keyLength iv length = none
      ↔ spec.Fits length ∧ spec.cipher.supportsKeyLength keyLength = true ∧ spec.HasVector iv := by
  unfold refusal
  by_cases hf : spec.Fits length
  · by_cases hk : spec.cipher.supportsKeyLength keyLength = true
    · by_cases hm : spec.mode.isChained = true
      · simp [hf, hk, hm, HasVector, vectorRefusal_eq_none]
      · simp [hf, hk, hm, HasVector]
    · simp [hf, hk]
  · simp [hf]

theorem refusal_of_not_fits {spec : CipherSpec} {keyLength length : Nat} {iv : Option Bytes}
    (h : ¬ spec.Fits length) :
    spec.refusal keyLength iv length = some (.format (.partialBlock length spec.cipher)) := by
  rw [refusal, if_pos h]

theorem requireVector_of_refusal {spec : CipherSpec} {iv : Option Bytes} {e : Error}
    (h : spec.vectorRefusal iv = some e) : spec.requireVector iv = .error e := by
  cases iv with
  | none =>
      cases h
      rfl
  | some v =>
      simp only [vectorRefusal] at h
      split at h
      · cases h
      · rename_i hv
        cases h
        exact if_neg hv

/-! ## §3  Modes -/

variable {spec : CipherSpec} {direction : Direction} {key : Bytes} {iv : Option Bytes}
  {buffer : Bytes}

/-- What a block cipher makes of a buffer in a mode that has all it needs. -/
theorem chain_of_hasVector {c : BlockCipher} (hc : c.Lawful) (hs : c.size = spec.blockSize)
    (hb : spec.mode = .cfb ∨ buffer.length % c.size = 0) (hv : spec.HasVector iv)
    (direction : Direction) :
    ∃ out, spec.chain direction c iv buffer = .ok out ∧ out.length = buffer.length
      ∧ spec.chain direction.opposite c iv out = .ok buffer := by
  unfold HasVector at hv
  unfold chain
  cases hm : spec.mode with
  | ecb =>
      have hb : buffer.length % c.size = 0 := by simpa [hm] using hb
      cases direction with
      | encrypt =>
          exact ⟨_, rfl, Chaining.length_ecbEncrypt hc hb,
            congrArg Except.ok (Chaining.ecbDecrypt_ecbEncrypt hc hb)⟩
      | decrypt =>
          exact ⟨_, rfl, Chaining.length_ecbDecrypt hc hb,
            congrArg Except.ok (Chaining.ecbEncrypt_ecbDecrypt hc hb)⟩
  | cbc =>
      have hb : buffer.length % c.size = 0 := by simpa [hm] using hb
      obtain ⟨v, rfl, hl⟩ := hv (by rw [hm]; rfl)
      have hr : spec.requireVector (some v) = .ok v := if_pos hl
      have hl : v.length = c.size := hl.trans hs.symm
      simp only [hr, Except.map]
      cases direction with
      | encrypt =>
          exact ⟨_, rfl, Chaining.length_cbcEncrypt hc hl hb,
            congrArg Except.ok (Chaining.cbcDecrypt_cbcEncrypt hc hl hb)⟩
      | decrypt =>
          exact ⟨_, rfl, Chaining.length_cbcDecrypt hc hl hb,
            congrArg Except.ok (Chaining.cbcEncrypt_cbcDecrypt hc hl hb)⟩
  | cfb =>
      obtain ⟨v, rfl, hl⟩ := hv (by rw [hm]; rfl)
      have hr : spec.requireVector (some v) = .ok v := if_pos hl
      simp only [hr, Except.map]
      cases direction with
      | encrypt =>
          exact ⟨_, rfl, Chaining.length_cfbEncrypt c v buffer,
            congrArg Except.ok (Chaining.cfbDecrypt_cfbEncrypt c v buffer)⟩
      | decrypt =>
          exact ⟨_, rfl, Chaining.length_cfbDecrypt c v buffer,
            congrArg Except.ok (Chaining.cfbEncrypt_cfbDecrypt c v buffer)⟩
  | ccm => exact absurd hm spec.not_authenticated.1
  | gcm => exact absurd hm spec.not_authenticated.2

/-- A mode that needs a vector and does not get it says what is wrong with it. -/
theorem chain_of_vectorRefusal {c : BlockCipher} {e : Error} (hm : spec.mode.isChained = true)
    (h : spec.vectorRefusal iv = some e) (direction : Direction) :
    spec.chain direction c iv buffer = .error e := by
  have hr := requireVector_of_refusal h
  unfold chain
  cases hm' : spec.mode with
  | ecb => rw [hm'] at hm; cases hm
  | cbc | cfb =>
      cases direction with
      | encrypt | decrypt => simp only [hr, Except.map]
  | ccm => exact absurd hm' spec.not_authenticated.1
  | gcm => exact absurd hm' spec.not_authenticated.2

/-! ## §4  The transformation -/

theorem fits_iff {length : Nat} :
    spec.Fits length ↔ spec.mode = .cfb ∨ spec.cipher = .rc4 ∨ length % spec.blockSize = 0 := by
  unfold Fits anyLength
  rw [Bool.or_eq_true, beq_iff_eq, beq_iff_eq, or_assoc]

/-- Where there are blocks, only cipher feedback does without whole ones. -/
theorem wholeBlocks_of_fits {length : Nat} (hc : spec.cipher ≠ .rc4) (h : spec.Fits length)
    (key : Bytes) : spec.mode = .cfb ∨ length % (keyed spec.cipher key).size = 0 := by
  rw [size_keyed hc]
  rcases fits_iff.mp h with hm | hrc4 | hb
  · exact Or.inl hm
  · exact absurd hrc4 hc
  · exact Or.inr hb

theorem transform_of_refusal {e : Error}
    (h : spec.refusal key.length iv buffer.length = some e) (direction : Direction) :
    spec.transform direction key iv buffer = .error e := by
  unfold refusal at h
  have hfits : (!spec.anyLength && buffer.length % spec.blockSize != 0) = true
      ↔ ¬ spec.Fits buffer.length := by
    simp [Fits]
  unfold transform
  -- The three tests in the order in which `transform` makes them.
  by_cases hf : spec.Fits buffer.length
  · rw [if_neg (not_not.mpr hf)] at h
    rw [if_neg (by rw [hfits]; exact not_not.mpr hf)]
    cases hk : spec.cipher.supportsKeyLength key.length with
    | false =>
        rw [hk, if_pos rfl] at h
        cases h
        rfl
    | true =>
        rw [hk, if_neg (by decide)] at h
        have hm : spec.mode.isChained = true := by
          by_contra hm
          rw [if_neg hm] at h
          cases h
        rw [if_pos hm] at h
        have hrc4 : spec.cipher ≠ .rc4 := by
          intro hc
          rw [spec.not_chained_stream hc] at hm
          cases hm
        rw [if_neg (by decide), if_neg hrc4]
        exact chain_of_vectorRefusal hm h direction
  · rw [if_pos hf] at h
    rw [if_pos (hfits.mpr hf)]
    cases h
    rfl

/-- What is left of a transformation when length and key are right. -/
theorem transform_of_fits {b : Bytes} (hf : spec.Fits b.length)
    (hk : spec.cipher.supportsKeyLength key.length = true) (direction : Direction) :
    spec.transform direction key iv b
      = if spec.cipher = .rc4 then .ok (Rc4.crypt key b)
        else spec.chain direction (keyed spec.cipher key) iv b := by
  have hfits : (!spec.anyLength && b.length % spec.blockSize != 0) = false := by
    rcases hf with hf | hf <;> simp [hf]
  simp [transform, hfits, hk]

/-- **A buffer that is not refused is transformed, keeps its length, and is restored by
the opposite direction.** -/
theorem transform_of_not_refused (h : spec.refusal key.length iv buffer.length = none)
    (direction : Direction) :
    ∃ out, spec.transform direction key iv buffer = .ok out ∧ out.length = buffer.length
      ∧ spec.transform direction.opposite key iv out = .ok buffer := by
  obtain ⟨hf, hk, hv⟩ := refusal_eq_none.mp h
  by_cases hrc4 : spec.cipher = .rc4
  · refine ⟨Rc4.crypt key buffer, ?_, Rc4.length_crypt key buffer, ?_⟩
    · rw [transform_of_fits hf hk, if_pos hrc4]
    · have hf' : spec.Fits (Rc4.crypt key buffer).length := by rwa [Rc4.length_crypt]
      rw [transform_of_fits hf' hk, if_pos hrc4, Rc4.crypt_crypt]
  · obtain ⟨out, hout, hlen, hback⟩ :=
      chain_of_hasVector (lawful_keyed spec.cipher key) (size_keyed hrc4 key)
        (wholeBlocks_of_fits hrc4 hf key) hv direction
    refine ⟨out, ?_, hlen, ?_⟩
    · rw [transform_of_fits hf hk, if_neg hrc4, hout]
    · rw [transform_of_fits (hlen.symm ▸ hf) hk, if_neg hrc4, hback]

theorem refusal_of_transform_eq_ok {out : Bytes}
    (h : spec.transform direction key iv buffer = .ok out) :
    spec.refusal key.length iv buffer.length = none := by
  cases hr : spec.refusal key.length iv buffer.length with
  | none => rfl
  | some e =>
      rw [transform_of_refusal hr] at h
      cases h

/-- A transformed buffer is as long as before. -/
theorem length_of_transform_eq_ok {out : Bytes}
    (h : spec.transform direction key iv buffer = .ok out) : out.length = buffer.length := by
  obtain ⟨out', hout, hlen, -⟩ :=
    transform_of_not_refused (refusal_of_transform_eq_ok h) direction
  rw [hout] at h
  cases h
  exact hlen

/-- The opposite direction takes a transformation back. -/
theorem transform_opposite {out : Bytes}
    (h : spec.transform direction key iv buffer = .ok out) :
    spec.transform direction.opposite key iv out = .ok buffer := by
  obtain ⟨out', hout, -, hback⟩ :=
    transform_of_not_refused (refusal_of_transform_eq_ok h) direction
  rw [hout] at h
  cases h
  exact hback

end CipherSpec

end PageVault
