import PageVault.Bytes

/-!
# Keyed block ciphers

A block cipher under a fixed key is a pair of functions on blocks of `size`
bytes.  It is *lawful* if both keep the size and each undoes the other; chaining
modes ask nothing else of it.
-/

namespace PageVault

/-- A block cipher under a fixed key. -/
structure BlockCipher where
  size : Nat
  encrypt : Bytes → Bytes
  decrypt : Bytes → Bytes

namespace BlockCipher

/-- Both directions keep the size of a block and undo each other. -/
structure Lawful (c : BlockCipher) : Prop where
  size_pos : 0 < c.size
  length_encrypt : ∀ b : Bytes, b.length = c.size → (c.encrypt b).length = c.size
  length_decrypt : ∀ b : Bytes, b.length = c.size → (c.decrypt b).length = c.size
  decrypt_encrypt : ∀ b : Bytes, b.length = c.size → c.decrypt (c.encrypt b) = b
  encrypt_decrypt : ∀ b : Bytes, b.length = c.size → c.encrypt (c.decrypt b) = b

/-- Three ciphers in a row, the middle one reversed. -/
def encryptDecryptEncrypt (c₁ c₂ c₃ : BlockCipher) : BlockCipher where
  size := c₁.size
  encrypt b := c₃.encrypt (c₂.decrypt (c₁.encrypt b))
  decrypt b := c₁.decrypt (c₂.encrypt (c₃.decrypt b))

theorem Lawful.encryptDecryptEncrypt {c₁ c₂ c₃ : BlockCipher} (h₁ : c₁.Lawful) (h₂ : c₂.Lawful)
    (h₃ : c₃.Lawful) (h₁₂ : c₂.size = c₁.size) (h₁₃ : c₃.size = c₁.size) :
    (c₁.encryptDecryptEncrypt c₂ c₃).Lawful where
  size_pos := h₁.size_pos
  length_encrypt b hb := by
    have e₁ := h₁.length_encrypt b hb
    have e₂ := h₂.length_decrypt (c₁.encrypt b) (by rw [e₁, h₁₂])
    have e₃ := h₃.length_encrypt (c₂.decrypt (c₁.encrypt b)) (by rw [e₂, h₁₂, h₁₃])
    exact e₃.trans h₁₃
  length_decrypt b hb := by
    have e₃ := h₃.length_decrypt b (hb.trans h₁₃.symm)
    have e₂ := h₂.length_encrypt (c₃.decrypt b) (by rw [e₃, h₁₂, h₁₃])
    exact h₁.length_decrypt (c₂.encrypt (c₃.decrypt b)) (by rw [e₂, h₁₂])
  decrypt_encrypt b hb := by
    have e₁ := h₁.length_encrypt b hb
    have e₂ := h₂.length_decrypt (c₁.encrypt b) (by rw [e₁, h₁₂])
    show c₁.decrypt (c₂.encrypt (c₃.decrypt (c₃.encrypt (c₂.decrypt (c₁.encrypt b))))) = b
    rw [h₃.decrypt_encrypt _ (by rw [e₂, h₁₂, h₁₃]), h₂.encrypt_decrypt _ (by rw [e₁, h₁₂]),
      h₁.decrypt_encrypt _ hb]
  encrypt_decrypt b hb := by
    have e₃ := h₃.length_decrypt b (hb.trans h₁₃.symm)
    have e₂ := h₂.length_encrypt (c₃.decrypt b) (by rw [e₃, h₁₂, h₁₃])
    show c₃.encrypt (c₂.decrypt (c₁.encrypt (c₁.decrypt (c₂.encrypt (c₃.decrypt b))))) = b
    rw [h₁.encrypt_decrypt _ (by rw [e₂, h₁₂]), h₂.decrypt_encrypt _ (by rw [e₃, h₁₂, h₁₃]),
      h₃.encrypt_decrypt _ (hb.trans h₁₃.symm)]

end BlockCipher

end PageVault
