import PageVault.Cipher.Aes
import PageVault.Cipher.Chaining
import PageVault.Cipher.Des
import PageVault.Cipher.Rc2
import PageVault.Cipher.Rc4
import PageVault.Error

/-!
# A cipher with a chaining mode

A `CipherSpec` is a pair that can transform a page without storing anything beside
it: no authenticated mode, which would need a tag, and no chaining of a stream
cipher.  The restriction is part of the type.

Transforming a buffer can fail in three ways, tested in this order: the buffer
does not consist of whole blocks, the cipher does not take the key, the mode does
not get the initialisation vector it needs.  A failed call has no other effect.
-/

namespace PageVault

/-- Whether a mode needs an initialisation vector. -/
def ChainingMode.isChained : ChainingMode → Bool
  | .ecb => false
  | _ => true

structure CipherSpec where
  cipher : CipherAlgorithm
  mode : ChainingMode
  not_authenticated : mode ≠ .ccm ∧ mode ≠ .gcm
  not_chained_stream : cipher = .rc4 → mode = .ecb
deriving DecidableEq

inductive Direction where
  | encrypt
  | decrypt
deriving DecidableEq

namespace CipherSpec

/-- The pair of a cipher and a mode, if it can transform pages. -/
def ofPair (cipher : CipherAlgorithm) (mode : ChainingMode) : Except Error CipherSpec :=
  if ha : mode = .ccm ∨ mode = .gcm then
    .error (.unsupported (.authenticatedMode mode))
  else if hs : cipher = .rc4 → mode = .ecb then
    .ok ⟨cipher, mode, ⟨fun h => ha (.inl h), fun h => ha (.inr h)⟩, hs⟩
  else .error (.unsupported (.chainedStream mode))

/-- The pair with the given descriptor names; the cipher is looked up first. -/
def ofNames (cipher mode : String) : Except Error CipherSpec := do
  let c ← CipherAlgorithm.resolve cipher
  let m ← ChainingMode.resolve mode
  ofPair c m

/-- AES on single blocks, without an initialisation vector. -/
def aesEcb : CipherSpec :=
  ⟨.aes, .ecb, by decide, by decide⟩

def blockSize (spec : CipherSpec) : Nat :=
  spec.cipher.blockSize

/-- Whether buffers of any length can be transformed: byte by byte with cipher
feedback, and with a keystream. -/
def anyLength (spec : CipherSpec) : Bool :=
  spec.mode == .cfb || spec.cipher == .rc4

def keyed (cipher : CipherAlgorithm) (key : Bytes) : BlockCipher :=
  match cipher with
  | .aes => Aes.cipher key
  | .rc2 => Rc2.cipher key
  | .des => Des.cipher key
  | _ => Des.tripleCipher key

/-- The initialisation vector, if it is there and as long as a block. -/
def requireVector (spec : CipherSpec) : Option Bytes → Except Error Bytes
  | some iv =>
      if iv.length = spec.blockSize then .ok iv
      else .error (.configuration (.vectorLength spec.blockSize iv.length))
  | none => .error (.configuration .vectorMissing)

/-- Carries a block cipher over a buffer in the mode of the pair.  Single blocks
ignore any initialisation vector. -/
def chain (spec : CipherSpec) (direction : Direction) (c : BlockCipher) (iv : Option Bytes)
    (buffer : Bytes) : Except Error Bytes :=
  match spec.mode, direction with
  | .ecb, .encrypt => .ok (Chaining.ecbEncrypt c buffer)
  | .ecb, .decrypt => .ok (Chaining.ecbDecrypt c buffer)
  | .cbc, .encrypt => (spec.requireVector iv).map fun v => Chaining.cbcEncrypt c v buffer
  | .cbc, .decrypt => (spec.requireVector iv).map fun v => Chaining.cbcDecrypt c v buffer
  | .cfb, .encrypt => (spec.requireVector iv).map fun v => Chaining.cfbEncrypt c v buffer
  | .cfb, .decrypt => (spec.requireVector iv).map fun v => Chaining.cfbDecrypt c v buffer
  | .ccm, _ => .error (.unsupported (.authenticatedMode .ccm))
  | .gcm, _ => .error (.unsupported (.authenticatedMode .gcm))

def transform (spec : CipherSpec) (direction : Direction) (key : Bytes) (iv : Option Bytes)
    (buffer : Bytes) : Except Error Bytes :=
  if !spec.anyLength && buffer.length % spec.blockSize != 0 then
    .error (.format (.partialBlock buffer.length spec.cipher))
  else if !spec.cipher.supportsKeyLength key.length then
    .error (.configuration (.keyLength spec.cipher key.length))
  else if spec.cipher = .rc4 then .ok (Rc4.crypt key buffer)
  else spec.chain direction (keyed spec.cipher key) iv buffer

def encrypt (spec : CipherSpec) (key : Bytes) (iv : Option Bytes) (buffer : Bytes) :
    Except Error Bytes :=
  spec.transform .encrypt key iv buffer

def decrypt (spec : CipherSpec) (key : Bytes) (iv : Option Bytes) (buffer : Bytes) :
    Except Error Bytes :=
  spec.transform .decrypt key iv buffer

end CipherSpec

/-! ## Calls in place -/

/-- What a call on a buffer leaves behind: its outcome, and the bytes that the
buffer holds afterwards. -/
structure InPlace where
  outcome : Except Error Unit
  buffer : Bytes

/-- A transformation of a buffer as a call in place: a call that fails leaves the
buffer as it was. -/
def InPlace.ofTransform (buffer : Bytes) : Except Error Bytes → InPlace
  | .ok b => ⟨.ok (), b⟩
  | .error e => ⟨.error e, buffer⟩

end PageVault
