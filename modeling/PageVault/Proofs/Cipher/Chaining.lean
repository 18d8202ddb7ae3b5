import PageVault.Cipher.Chaining

/-!
# Chaining modes undo themselves

Laws of the block-wise modes for any lawful block cipher, beside the ones of cipher
feedback.  All of them are inductions on the number of blocks: a buffer of
`n + 1` blocks is one block and a buffer of `n`, and so is what a mode makes of it.
-/

namespace PageVault.Chaining

/-- A buffer of one block more is a block and the rest. -/
theorem length_take_drop {n size : Nat} {b : Bytes} (hb : b.length = (n + 1) * size) :
    (b.take size).length = size ∧ (b.drop size).length = n * size := by
  rw [List.length_take, List.length_drop, hb, Nat.add_one_mul]
  omega

/-! ## Electronic codebook -/

section Codebook

variable {size : Nat} {f g : Bytes → Bytes}

theorem length_mapBlocks (hf : ∀ x : Bytes, x.length = size → (f x).length = size) :
    ∀ (n : Nat) (b : Bytes), b.length = n * size → (mapBlocks size f n b).length = b.length
  | 0, b, _ => rfl
  | n + 1, b, hb => by
      obtain ⟨hx, hr⟩ := length_take_drop hb
      rw [mapBlocks, List.length_append, hf _ hx, length_mapBlocks hf n _ hr, hr, hb,
        Nat.add_one_mul, Nat.add_comm]

/-- Undoing each block undoes the buffer. -/
theorem mapBlocks_mapBlocks (hf : ∀ x : Bytes, x.length = size → (f x).length = size)
    (hg : ∀ x : Bytes, x.length = size → g (f x) = x) :
    ∀ (n : Nat) (b : Bytes), b.length = n * size →
      mapBlocks size g n (mapBlocks size f n b) = b
  | 0, b, _ => rfl
  | n + 1, b, hb => by
      obtain ⟨hx, hr⟩ := length_take_drop hb
      rw [mapBlocks, mapBlocks, List.take_left' (hf _ hx), List.drop_left' (hf _ hx), hg _ hx,
        mapBlocks_mapBlocks hf hg n _ hr, List.take_append_drop]

end Codebook

variable {c : BlockCipher}

theorem eq_count_mul_of_mod_eq_zero {b : Bytes} (hb : b.length % c.size = 0) :
    b.length = b.length / c.size * c.size :=
  (Nat.div_mul_cancel (Nat.dvd_of_mod_eq_zero hb)).symm

theorem length_ecbEncrypt (hc : c.Lawful) {b : Bytes} (hb : b.length % c.size = 0) :
    (ecbEncrypt c b).length = b.length :=
  length_mapBlocks hc.length_encrypt _ b (eq_count_mul_of_mod_eq_zero hb)

theorem length_ecbDecrypt (hc : c.Lawful) {b : Bytes} (hb : b.length % c.size = 0) :
    (ecbDecrypt c b).length = b.length :=
  length_mapBlocks hc.length_decrypt _ b (eq_count_mul_of_mod_eq_zero hb)

theorem ecbDecrypt_ecbEncrypt (hc : c.Lawful) {b : Bytes} (hb : b.length % c.size = 0) :
    ecbDecrypt c (ecbEncrypt c b) = b := by
  rw [ecbDecrypt, length_ecbEncrypt hc hb]
  exact mapBlocks_mapBlocks hc.length_encrypt hc.decrypt_encrypt _ b
    (eq_count_mul_of_mod_eq_zero hb)

theorem ecbEncrypt_ecbDecrypt (hc : c.Lawful) {b : Bytes} (hb : b.length % c.size = 0) :
    ecbEncrypt c (ecbDecrypt c b) = b := by
  rw [ecbEncrypt, length_ecbDecrypt hc hb]
  exact mapBlocks_mapBlocks hc.length_decrypt hc.encrypt_decrypt _ b
    (eq_count_mul_of_mod_eq_zero hb)

/-! ## Cipher block chaining -/

section Chained

variable {before b : Bytes}

theorem length_cbcEncryptBlocks (hc : c.Lawful) (n : Nat) (hv : before.length = c.size)
    (hb : b.length = n * c.size) : (cbcEncryptBlocks c n before b).length = b.length := by
  induction n generalizing before b with
  | zero => rfl
  | succ n ih =>
      obtain ⟨hx, hr⟩ := length_take_drop hb
      have hm : (Bytes.xor (b.take c.size) before).length = c.size := by
        rw [Bytes.length_xor, hx, hv, Nat.min_self]
      have he := hc.length_encrypt _ hm
      rw [cbcEncryptBlocks, List.length_append, he, ih he hr, hr, hb, Nat.add_one_mul, Nat.add_comm]

theorem length_cbcDecryptBlocks (hc : c.Lawful) (n : Nat) (hv : before.length = c.size)
    (hb : b.length = n * c.size) : (cbcDecryptBlocks c n before b).length = b.length := by
  induction n generalizing before b with
  | zero => rfl
  | succ n ih =>
      obtain ⟨hx, hr⟩ := length_take_drop hb
      rw [cbcDecryptBlocks, List.length_append, Bytes.length_xor, hc.length_decrypt _ hx, hv,
        Nat.min_self, ih hx hr, hr, hb, Nat.add_one_mul, Nat.add_comm]

/-- Decryption meets the ciphertext that encryption has fed forward, so both work with
the same predecessor at every block. -/
theorem cbcDecryptBlocks_cbcEncryptBlocks (hc : c.Lawful) (n : Nat) (hv : before.length = c.size)
    (hb : b.length = n * c.size) :
    cbcDecryptBlocks c n before (cbcEncryptBlocks c n before b) = b := by
  induction n generalizing before b with
  | zero => rfl
  | succ n ih =>
      obtain ⟨hx, hr⟩ := length_take_drop hb
      have hm : (Bytes.xor (b.take c.size) before).length = c.size := by
        rw [Bytes.length_xor, hx, hv, Nat.min_self]
      have he := hc.length_encrypt _ hm
      rw [cbcEncryptBlocks, cbcDecryptBlocks, List.take_left' he, List.drop_left' he,
        hc.decrypt_encrypt _ hm, Bytes.xor_xor_cancel_right _ _ (Nat.le_of_eq (hx.trans hv.symm)),
        ih he hr, List.take_append_drop]

theorem cbcEncryptBlocks_cbcDecryptBlocks (hc : c.Lawful) (n : Nat) (hv : before.length = c.size)
    (hb : b.length = n * c.size) :
    cbcEncryptBlocks c n before (cbcDecryptBlocks c n before b) = b := by
  induction n generalizing before b with
  | zero => rfl
  | succ n ih =>
      obtain ⟨hx, hr⟩ := length_take_drop hb
      have hd := hc.length_decrypt _ hx
      have hm : (Bytes.xor (c.decrypt (b.take c.size)) before).length = c.size := by
        rw [Bytes.length_xor, hd, hv, Nat.min_self]
      rw [cbcDecryptBlocks, cbcEncryptBlocks, List.take_left' hm, List.drop_left' hm,
        Bytes.xor_xor_cancel_right _ _ (Nat.le_of_eq (hd.trans hv.symm)), hc.encrypt_decrypt _ hx,
        ih hx hr, List.take_append_drop]

end Chained

variable {iv b : Bytes}

theorem length_cbcEncrypt (hc : c.Lawful) (hv : iv.length = c.size) (hb : b.length % c.size = 0) :
    (cbcEncrypt c iv b).length = b.length :=
  length_cbcEncryptBlocks hc _ hv (eq_count_mul_of_mod_eq_zero hb)

theorem length_cbcDecrypt (hc : c.Lawful) (hv : iv.length = c.size) (hb : b.length % c.size = 0) :
    (cbcDecrypt c iv b).length = b.length :=
  length_cbcDecryptBlocks hc _ hv (eq_count_mul_of_mod_eq_zero hb)

theorem cbcDecrypt_cbcEncrypt (hc : c.Lawful) (hv : iv.length = c.size)
    (hb : b.length % c.size = 0) : cbcDecrypt c iv (cbcEncrypt c iv b) = b := by
  rw [cbcDecrypt, length_cbcEncrypt hc hv hb]
  exact cbcDecryptBlocks_cbcEncryptBlocks hc _ hv (eq_count_mul_of_mod_eq_zero hb)

theorem cbcEncrypt_cbcDecrypt (hc : c.Lawful) (hv : iv.length = c.size)
    (hb : b.length % c.size = 0) : cbcEncrypt c iv (cbcDecrypt c iv b) = b := by
  rw [cbcEncrypt, length_cbcDecrypt hc hv hb]
  exact cbcEncryptBlocks_cbcDecryptBlocks hc _ hv (eq_count_mul_of_mod_eq_zero hb)

end PageVault.Chaining
