import PageVault.Cipher.Block

/-!
# Chaining modes

How a block cipher is carried over a buffer.  *Electronic codebook* treats every
block alone; *cipher block chaining* mixes each block with the ciphertext before
it; *8-bit cipher feedback* encrypts a register that moves on by one byte of
ciphertext for every byte of data, and so works on buffers of any length.

The modes are written for an arbitrary block cipher, by recursion on the number
of blocks or on the bytes.  A rest shorter than a block stays as it is; callers
rule it out.
-/

namespace PageVault.Chaining

variable (c : BlockCipher)

/-! ## Electronic codebook -/

/-- `f` on each of the first `count` blocks. -/
def mapBlocks (size : Nat) (f : Bytes → Bytes) : (count : Nat) → Bytes → Bytes
  | 0, b => b
  | count + 1, b => f (b.take size) ++ mapBlocks size f count (b.drop size)

def ecbEncrypt (b : Bytes) : Bytes :=
  mapBlocks c.size c.encrypt (b.length / c.size) b

def ecbDecrypt (b : Bytes) : Bytes :=
  mapBlocks c.size c.decrypt (b.length / c.size) b

/-! ## Cipher block chaining -/

/-- Encrypts `count` blocks; `before` is the ciphertext before the first one. -/
def cbcEncryptBlocks : (count : Nat) → (before b : Bytes) → Bytes
  | 0, _, b => b
  | count + 1, before, b =>
      let x := c.encrypt (Bytes.xor (b.take c.size) before)
      x ++ cbcEncryptBlocks count x (b.drop c.size)

def cbcDecryptBlocks : (count : Nat) → (before b : Bytes) → Bytes
  | 0, _, b => b
  | count + 1, before, b =>
      let x := b.take c.size
      Bytes.xor (c.decrypt x) before ++ cbcDecryptBlocks count x (b.drop c.size)

/-- Encrypts with chaining; the initialisation vector stands before the first block. -/
def cbcEncrypt (iv b : Bytes) : Bytes :=
  cbcEncryptBlocks c (b.length / c.size) iv b

def cbcDecrypt (iv b : Bytes) : Bytes :=
  cbcDecryptBlocks c (b.length / c.size) iv b

/-! ## Cipher feedback -/

/-- The byte that the register adds to the next byte of data. -/
def mask (register : Bytes) : UInt8 :=
  (c.encrypt register).headD 0

/-- The register after one more byte of ciphertext. -/
def feed (register : Bytes) (x : UInt8) : Bytes :=
  register.drop 1 ++ [x]

/-- Encrypts byte by byte, from a register that starts as the initialisation vector. -/
def cfbEncrypt : (register : Bytes) → Bytes → Bytes
  | _, [] => []
  | register, p :: rest =>
      let x := p ^^^ mask c register
      x :: cfbEncrypt (feed register x) rest

def cfbDecrypt : (register : Bytes) → Bytes → Bytes
  | _, [] => []
  | register, x :: rest => (x ^^^ mask c register) :: cfbDecrypt (feed register x) rest

/-! ## Laws -/

/-- Cipher feedback keeps the length and is undone by its other direction, whatever
the block cipher: only its encryption is used. -/
theorem cfbDecrypt_cfbEncrypt (register b : Bytes) :
    cfbDecrypt c register (cfbEncrypt c register b) = b := by
  induction b generalizing register with
  | nil => rfl
  | cons p rest ih =>
      simp only [cfbEncrypt, cfbDecrypt, ih, UInt8.xor_assoc, UInt8.xor_self, UInt8.xor_zero]

theorem cfbEncrypt_cfbDecrypt (register b : Bytes) :
    cfbEncrypt c register (cfbDecrypt c register b) = b := by
  induction b generalizing register with
  | nil => rfl
  | cons x rest ih =>
      simp only [cfbEncrypt, cfbDecrypt, UInt8.xor_assoc, UInt8.xor_self, UInt8.xor_zero, ih]

@[simp] theorem length_cfbEncrypt (register b : Bytes) :
    (cfbEncrypt c register b).length = b.length := by
  induction b generalizing register with
  | nil => rfl
  | cons p rest ih => simp [cfbEncrypt, ih]

@[simp] theorem length_cfbDecrypt (register b : Bytes) :
    (cfbDecrypt c register b).length = b.length := by
  induction b generalizing register with
  | nil => rfl
  | cons x rest ih => simp [cfbDecrypt, ih]

end PageVault.Chaining
