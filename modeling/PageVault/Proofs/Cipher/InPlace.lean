import Mathlib.Data.Set.Function
import PageVault.Proofs.Cipher.Pass
import PageVault.Proofs.Cipher.Transform

/-!
# Transforming a buffer in place

`CipherSpec.transform` gives a new buffer.  A call in place has only the one that it is
given: it makes its tests, sets up the cipher and goes through the buffer, and nothing takes
back what it has written.  A call that failed half-way would leave a buffer that is half
transformed.

`CipherSpec.inPlace` is that call, with every test where it is made, also those that are
made twice.  Ciphers are set up by a constructor for each key size, and only those of RC2 and
RC4 ask `supportsKeyLength`.  The call leaves behind what `transform` gives or, if it fails,
the buffer as it was (`inPlace_eq`).

§1 steps on a buffer · §2 setting up a cipher · §3 the call · §4 all or nothing ·
§5 bijections.
-/

namespace PageVault

/-! ## §1  Steps on a buffer -/

/-- A step of a call in place.  It may fail, and what it has written stays written. -/
def OnBuffer (α : Type) : Type :=
  Bytes → Except Error α × Bytes

namespace OnBuffer

def pure {α : Type} (a : α) : OnBuffer α :=
  fun b => (.ok a, b)

/-- One step, then, if it succeeded, another one on what it left. -/
def bind {α β : Type} (m : OnBuffer α) (f : α → OnBuffer β) : OnBuffer β :=
  fun b =>
    match m b with
    | (.ok a, b') => f a b'
    | (.error e, b') => (.error e, b')

instance : Monad OnBuffer where
  pure := pure
  bind := bind

/-- A test, which only looks at the buffer. -/
def test {α : Type} (f : Bytes → Except Error α) : OnBuffer α :=
  fun b => (f b, b)

/-- A test that does not even look at the buffer. -/
def require {α : Type} (r : Except Error α) : OnBuffer α :=
  test fun _ => r

/-- A step that writes to the buffer. -/
def write (f : Bytes → Bytes) : OnBuffer Unit :=
  fun b => (.ok (), f b)

/-- What a call leaves behind. -/
def call (m : OnBuffer Unit) (b : Bytes) : InPlace :=
  ⟨(m b).1, (m b).2⟩

variable {α : Type} {f : Bytes → Except Error α} {r : Except Error α} {k : α → OnBuffer Unit}
  {a : α} {e : Error} {b : Bytes}

theorem call_test_bind_of_ok (h : f b = .ok a) : (test f >>= k).call b = (k a).call b := by
  have hbind : bind (test f) k b = k a b := by
    simp only [bind, test, h]
  show InPlace.mk (bind (test f) k b).1 (bind (test f) k b).2 = _
  rw [hbind]
  rfl

/-- A test that fails leaves the buffer as it met it. -/
theorem call_test_bind_of_error (h : f b = .error e) :
    (test f >>= k).call b = ⟨.error e, b⟩ := by
  have hbind : bind (test f) k b = (.error e, b) := by
    simp only [bind, test, h]
  show InPlace.mk (bind (test f) k b).1 (bind (test f) k b).2 = _
  rw [hbind]

theorem call_require_bind_of_ok (h : r = .ok a) : (require r >>= k).call b = (k a).call b :=
  call_test_bind_of_ok h

theorem call_require_bind_of_error (h : r = .error e) :
    (require r >>= k).call b = ⟨.error e, b⟩ :=
  call_test_bind_of_error h

theorem call_write (g : Bytes → Bytes) (b : Bytes) : (write g).call b = ⟨.ok (), g b⟩ := rfl

end OnBuffer

/-! ## §2  Setting up a cipher -/

/-- A cipher that has been set up with a key. -/
inductive KeyedCipher where
  | block (c : BlockCipher)
  | stream (s : Rc4)

/-- Triple DES with two keys, the first of which serves again as the third. -/
def Des.twoKeyCipher (key : Bytes) : BlockCipher :=
  (cipher (key.take 8)).encryptDecryptEncrypt (cipher ((key.drop 8).take 8))
    (cipher (key.take 8))

def Des.threeKeyCipher (key : Bytes) : BlockCipher :=
  (cipher (key.take 8)).encryptDecryptEncrypt (cipher ((key.drop 8).take 8))
    (cipher ((key.drop 16).take 8))

namespace CipherAlgorithm

def keyRefused (cipher : CipherAlgorithm) (key : Bytes) : Error :=
  .configuration (.keyLength cipher key.length)

/-- A constructor that takes keys of one size. -/
def ofKeySize (cipher : CipherAlgorithm) (size : Nat) (build : Bytes → BlockCipher)
    (key : Bytes) : Except Error KeyedCipher :=
  if key.length = size then .ok (.block (build key)) else .error (cipher.keyRefused key)

/-- The cipher under a key.  AES and triple DES choose a constructor by the length of the
key, and the constructor tests the length again; DES has nothing but that test. -/
def setUp (cipher : CipherAlgorithm) (key : Bytes) : Except Error KeyedCipher :=
  match cipher with
  | .aes =>
      match key.length with
      | 16 => ofKeySize .aes 16 Aes.cipher key
      | 24 => ofKeySize .aes 24 Aes.cipher key
      | 32 => ofKeySize .aes 32 Aes.cipher key
      | _ => .error (keyRefused .aes key)
  | .des => ofKeySize .des 8 Des.cipher key
  | .tripleDes | .tripleDes112 =>
      match key.length with
      | 16 => ofKeySize cipher 16 Des.twoKeyCipher key
      | 24 => ofKeySize cipher 24 Des.threeKeyCipher key
      | _ => .error (cipher.keyRefused key)
  | .rc2 =>
      if supportsKeyLength .rc2 key.length then .ok (.block (Rc2.cipher key))
      else .error (keyRefused .rc2 key)
  | .rc4 =>
      if supportsKeyLength .rc4 key.length then .ok (.stream (Rc4.ofKey key))
      else .error (keyRefused .rc4 key)

/-- What is set up when nothing is refused. -/
def underKey (cipher : CipherAlgorithm) (key : Bytes) : KeyedCipher :=
  if cipher = .rc4 then .stream (Rc4.ofKey key) else .block (CipherSpec.keyed cipher key)

theorem ofKeySize_of_eq {size : Nat} {key : Bytes} (h : key.length = size)
    (cipher : CipherAlgorithm) (build : Bytes → BlockCipher) :
    cipher.ofKeySize size build key = .ok (.block (build key)) :=
  if_pos h

theorem twoKeyCipher_eq {key : Bytes} (h : key.length = 16) :
    Des.twoKeyCipher key = Des.tripleCipher key := by
  unfold Des.twoKeyCipher Des.tripleCipher
  simp only [h, if_true]

theorem threeKeyCipher_eq {key : Bytes} (h : key.length = 24) :
    Des.threeKeyCipher key = Des.tripleCipher key := by
  unfold Des.threeKeyCipher Des.tripleCipher
  simp only [h]
  rfl

/-- Both names of triple DES have a constructor for each of the two key sizes. -/
theorem setUp_triple {cipher : CipherAlgorithm} (hc : cipher = .tripleDes ∨ cipher = .tripleDes112)
    (key : Bytes) :
    cipher.setUp key
      = if key.length = 16 ∨ key.length = 24 then .ok (.block (Des.tripleCipher key))
        else .error (cipher.keyRefused key) := by
  have hset : cipher.setUp key = match key.length with
      | 16 => ofKeySize cipher 16 Des.twoKeyCipher key
      | 24 => ofKeySize cipher 24 Des.threeKeyCipher key
      | _ => .error (cipher.keyRefused key) := by
    rcases hc with rfl | rfl <;> rfl
  rw [hset]
  split
  · rename_i h
    rw [ofKeySize_of_eq h, twoKeyCipher_eq h, if_pos (Or.inl h)]
  · rename_i h
    rw [ofKeySize_of_eq h, threeKeyCipher_eq h, if_pos (Or.inr h)]
  · rename_i h16 h24
    rw [if_neg (not_or.mpr ⟨h16, h24⟩)]

theorem setUp_aes (key : Bytes) :
    setUp .aes key
      = if key.length = 16 ∨ key.length = 24 ∨ key.length = 32 then .ok (.block (Aes.cipher key))
        else .error (keyRefused .aes key) := by
  unfold setUp
  dsimp only
  split
  · rename_i h
    rw [ofKeySize_of_eq h, if_pos (Or.inl h)]
  · rename_i h
    rw [ofKeySize_of_eq h, if_pos (Or.inr (Or.inl h))]
  · rename_i h
    rw [ofKeySize_of_eq h, if_pos (Or.inr (Or.inr h))]
  · rename_i h16 h24 h32
    rw [if_neg (not_or.mpr ⟨h16, not_or.mpr ⟨h24, h32⟩⟩)]

/-- **Constructors take the keys that `supportsKeyLength` says**, for every cipher, and give
the cipher that `keyed` gives. -/
theorem setUp_eq (cipher : CipherAlgorithm) (key : Bytes) :
    cipher.setUp key
      = if cipher.supportsKeyLength key.length then .ok (cipher.underKey key)
        else .error (cipher.keyRefused key) := by
  have htriple : (key.length == 16 || key.length == 24) = true
      ↔ key.length = 16 ∨ key.length = 24 := by
    simp
  have haes : (key.length == 16 || key.length == 24 || key.length == 32) = true
      ↔ key.length = 16 ∨ key.length = 24 ∨ key.length = 32 := by
    simp [or_assoc]
  have hdes : (key.length == 8) = true ↔ key.length = 8 := beq_iff_eq
  cases cipher with
  | rc2 | rc4 => rfl
  | aes =>
      rw [setUp_aes]
      exact if_congr haes.symm rfl rfl
  | des => exact if_congr hdes.symm rfl rfl
  | tripleDes =>
      rw [setUp_triple (Or.inl rfl)]
      exact if_congr htriple.symm rfl rfl
  | tripleDes112 =>
      rw [setUp_triple (Or.inr rfl)]
      exact if_congr htriple.symm rfl rfl

end CipherAlgorithm

/-! ## §3  The call -/

/-- The block function of a direction. -/
def BlockCipher.toward (c : BlockCipher) : Direction → Bytes → Bytes
  | .encrypt => c.encrypt
  | .decrypt => c.decrypt

/-- A vector as long as a block. -/
def blockVector (size : Nat) (v : Bytes) : Except Error Bytes :=
  if v.length = size then .ok v else .error (.configuration (.vectorLength size v.length))

def neededVector (size : Nat) : Option Bytes → Except Error Bytes
  | some v => blockVector size v
  | none => .error (.configuration .vectorMissing)

theorem Direction.opposite_opposite (direction : Direction) :
    direction.opposite.opposite = direction := by
  cases direction with
  | encrypt | decrypt => rfl

namespace CipherSpec

/-- A buffer of whole blocks. -/
def wholeBlocks (spec : CipherSpec) (size : Nat) (b : Bytes) : Except Error Unit :=
  if b.length % size = 0 then .ok () else .error (.format (.partialBlock b.length spec.cipher))

/-- Cipher block chaining tests once more that there is no rest behind the last block. -/
def cbcSteps (spec : CipherSpec) (direction : Direction) (c : BlockCipher)
    (iv : Option Bytes) : OnBuffer Unit := do
  let v ← .require (neededVector c.size iv)
  let register ← .require (blockVector c.size v)
  .test (spec.wholeBlocks c.size)
  match direction with
  | .encrypt => .write ((Pass.cbcEncryption c).sweep register)
  | .decrypt => .write ((Pass.cbcDecryption c).sweep register)

def cfbSteps (direction : Direction) (c : BlockCipher) (iv : Option Bytes) : OnBuffer Unit := do
  let v ← .require (neededVector c.size iv)
  let register ← .require (blockVector c.size v)
  match direction with
  | .encrypt => .write ((Pass.cfbEncryption c).sweep register)
  | .decrypt => .write ((Pass.cfbDecryption c).sweep register)

/-- A block cipher on the buffer. -/
def chainSteps (spec : CipherSpec) (direction : Direction) (c : BlockCipher)
    (iv : Option Bytes) : OnBuffer Unit :=
  match spec.mode with
  | .ecb => .write ((Pass.codebook c.size (c.toward direction)).sweep ())
  | .cbc => spec.cbcSteps direction c iv
  | .cfb => cfbSteps direction c iv
  | .ccm => .require (.error (.unsupported (.authenticatedMode .ccm)))
  | .gcm => .require (.error (.unsupported (.authenticatedMode .gcm)))

/-- The first test of a call: whole blocks, unless any length will do. -/
def fitTest (spec : CipherSpec) (b : Bytes) : Except Error Unit :=
  if spec.anyLength then .ok () else spec.wholeBlocks spec.blockSize b

/-- The steps of a call, in their order. -/
def steps (spec : CipherSpec) (direction : Direction) (key : Bytes) (iv : Option Bytes) :
    OnBuffer Unit := do
  .test spec.fitTest
  let cipher ← .require (spec.cipher.setUp key)
  match cipher with
  | .block c => spec.chainSteps direction c iv
  | .stream s => .write (Pass.keystream.sweep s)

/-- A call on a buffer, and what it leaves behind. -/
def inPlace (spec : CipherSpec) (direction : Direction) (key : Bytes) (iv : Option Bytes)
    (buffer : Bytes) : InPlace :=
  (spec.steps direction key iv).call buffer

variable {spec : CipherSpec} {direction : Direction} {key : Bytes} {iv : Option Bytes}
  {buffer : Bytes}

theorem neededVector_eq {c : BlockCipher} (hs : c.size = spec.blockSize) :
    neededVector c.size iv = spec.requireVector iv := by
  rw [hs]
  cases iv with
  | none => rfl
  | some v => rfl

/-- A vector that passed its test passes it again. -/
theorem blockVector_of_neededVector {size : Nat} {v : Bytes}
    (h : neededVector size iv = .ok v) : v.length = size ∧ blockVector size v = .ok v := by
  cases iv with
  | none => cases h
  | some v' =>
      by_cases hl : v'.length = size
      · have h' : neededVector size (some v') = .ok v' := if_pos hl
        rw [h'] at h
        cases h
        exact ⟨hl, h'⟩
      · have h' : neededVector size (some v')
            = .error (.configuration (.vectorLength size v'.length)) := if_neg hl
        rw [h'] at h
        cases h

/-- The second test for whole blocks does not fail either, and nothing that can fail comes
after the pass over the buffer. -/
theorem cbcSteps_call (spec : CipherSpec) {c : BlockCipher} (hc : c.Lawful)
    (hb : buffer.length % c.size = 0) {v : Bytes} (hv : neededVector c.size iv = .ok v) :
    (spec.cbcSteps .encrypt c iv).call buffer = ⟨.ok (), Chaining.cbcEncrypt c v buffer⟩
      ∧ (spec.cbcSteps .decrypt c iv).call buffer = ⟨.ok (), Chaining.cbcDecrypt c v buffer⟩ := by
  obtain ⟨hl, hv'⟩ := blockVector_of_neededVector hv
  have hw : spec.wholeBlocks c.size buffer = .ok () := if_pos hb
  unfold cbcSteps
  constructor
  · rw [OnBuffer.call_require_bind_of_ok hv, OnBuffer.call_require_bind_of_ok hv',
      OnBuffer.call_test_bind_of_ok hw, OnBuffer.call_write, Pass.sweep_cbcEncryption hc hl]
  · rw [OnBuffer.call_require_bind_of_ok hv, OnBuffer.call_require_bind_of_ok hv',
      OnBuffer.call_test_bind_of_ok hw, OnBuffer.call_write, Pass.sweep_cbcDecryption hc hl]

theorem cfbSteps_call {c : BlockCipher} {v : Bytes} (hv : neededVector c.size iv = .ok v)
    (buffer : Bytes) :
    (cfbSteps .encrypt c iv).call buffer = ⟨.ok (), Chaining.cfbEncrypt c v buffer⟩
      ∧ (cfbSteps .decrypt c iv).call buffer = ⟨.ok (), Chaining.cfbDecrypt c v buffer⟩ := by
  obtain ⟨-, hv'⟩ := blockVector_of_neededVector hv
  unfold cfbSteps
  constructor
  · rw [OnBuffer.call_require_bind_of_ok hv, OnBuffer.call_require_bind_of_ok hv',
      OnBuffer.call_write, Pass.sweep_cfbEncryption]
  · rw [OnBuffer.call_require_bind_of_ok hv, OnBuffer.call_require_bind_of_ok hv',
      OnBuffer.call_write, Pass.sweep_cfbDecryption]

/-- The steps of a mode leave what the mode gives, or fail before they write. -/
theorem chainSteps_call {c : BlockCipher} (hc : c.Lawful) (hs : c.size = spec.blockSize)
    (hb : spec.mode = .cfb ∨ buffer.length % c.size = 0) (direction : Direction)
    (iv : Option Bytes) :
    (spec.chainSteps direction c iv).call buffer
      = .ofTransform buffer (spec.chain direction c iv buffer) := by
  have hneed : neededVector c.size iv = spec.requireVector iv := neededVector_eq hs
  unfold chainSteps chain
  cases hm : spec.mode with
  | ecb =>
      cases direction with
      | encrypt =>
          exact congrArg (InPlace.mk (.ok ())) (Pass.sweep_codebook hc.length_encrypt buffer)
      | decrypt =>
          exact congrArg (InPlace.mk (.ok ())) (Pass.sweep_codebook hc.length_decrypt buffer)
  | cbc =>
      have hb : buffer.length % c.size = 0 := by simpa [hm] using hb
      cases hv : spec.requireVector iv with
      | error e =>
          have hfail : neededVector c.size iv = .error e := hneed.trans hv
          cases direction with
          | encrypt | decrypt => exact OnBuffer.call_require_bind_of_error hfail
      | ok v =>
          obtain ⟨henc, hdec⟩ := cbcSteps_call spec hc hb (hneed.trans hv)
          cases direction with
          | encrypt => exact henc
          | decrypt => exact hdec
  | cfb =>
      cases hv : spec.requireVector iv with
      | error e =>
          have hfail : neededVector c.size iv = .error e := hneed.trans hv
          cases direction with
          | encrypt | decrypt => exact OnBuffer.call_require_bind_of_error hfail
      | ok v =>
          obtain ⟨henc, hdec⟩ := cfbSteps_call (hneed.trans hv) buffer
          cases direction with
          | encrypt => exact henc
          | decrypt => exact hdec
  | ccm => exact absurd hm spec.not_authenticated.1
  | gcm => exact absurd hm spec.not_authenticated.2

theorem fitTest_of_fits (h : spec.Fits buffer.length) : spec.fitTest buffer = .ok () := by
  rcases h with h | h
  · exact if_pos h
  · rw [fitTest, wholeBlocks, if_pos h, ite_self]

theorem fitTest_of_not_fits (h : ¬ spec.Fits buffer.length) :
    spec.fitTest buffer = .error (.format (.partialBlock buffer.length spec.cipher)) := by
  obtain ⟨ha, hb⟩ := not_or.mp h
  rw [fitTest, if_neg ha, wholeBlocks, if_neg hb]

/-- **A call in place leaves what the transformation gives, or the buffer as it was.** -/
theorem inPlace_eq (spec : CipherSpec) (direction : Direction) (key : Bytes)
    (iv : Option Bytes) (buffer : Bytes) :
    spec.inPlace direction key iv buffer
      = .ofTransform buffer (spec.transform direction key iv buffer) := by
  have hset := CipherAlgorithm.setUp_eq spec.cipher key
  unfold inPlace steps
  -- Length, key, vector: both sides make these tests in this order, so that a call with
  -- several faults blames the same one.
  by_cases hf : spec.Fits buffer.length
  · rw [OnBuffer.call_test_bind_of_ok (fitTest_of_fits hf)]
    by_cases hk : spec.cipher.supportsKeyLength key.length = true
    · rw [if_pos hk] at hset
      rw [OnBuffer.call_require_bind_of_ok hset, transform_of_fits hf hk,
        CipherAlgorithm.underKey]
      by_cases hrc4 : spec.cipher = .rc4
      · rw [if_pos hrc4, if_pos hrc4]
        exact congrArg (InPlace.mk (.ok ())) (Pass.sweep_keystream _ buffer)
      · rw [if_neg hrc4, if_neg hrc4]
        exact chainSteps_call (lawful_keyed spec.cipher key) (size_keyed hrc4 key)
          (wholeBlocks_of_fits hrc4 hf key) direction iv
    · rw [if_neg hk] at hset
      have hr : spec.refusal key.length iv buffer.length
          = some (spec.cipher.keyRefused key) := by
        rw [refusal, if_neg (not_not.mpr hf), if_pos (Bool.not_eq_true _ ▸ hk)]
        rfl
      rw [OnBuffer.call_require_bind_of_error hset, transform_of_refusal hr]
      rfl
  · rw [OnBuffer.call_test_bind_of_error (fitTest_of_not_fits hf),
      transform_of_refusal (refusal_of_not_fits hf)]
    rfl

/-! ## §4  All or nothing -/

/-- The chained modes among those that a pair can have. -/
theorem hasVector_iff :
    spec.HasVector iv
      ↔ (spec.mode = .cbc ∨ spec.mode = .cfb → ∃ v, iv = some v ∧ v.length = spec.blockSize) := by
  have hm : spec.mode.isChained = true ↔ spec.mode = .cbc ∨ spec.mode = .cfb := by
    have hn := spec.not_authenticated
    cases hmode : spec.mode with
    | ecb => decide
    | cbc | cfb => simp [ChainingMode.isChained]
    | ccm => exact absurd hmode hn.1
    | gcm => exact absurd hmode hn.2
  unfold HasVector
  rw [hm]

theorem inPlace_of_refusal {e : Error}
    (h : spec.refusal key.length iv buffer.length = some e) (direction : Direction) :
    spec.inPlace direction key iv buffer = ⟨.error e, buffer⟩ := by
  rw [inPlace_eq, transform_of_refusal h]
  rfl

theorem inPlace_of_not_refused (h : spec.refusal key.length iv buffer.length = none)
    (direction : Direction) :
    ∃ out, spec.inPlace direction key iv buffer = ⟨.ok (), out⟩ ∧ out.length = buffer.length
      ∧ spec.inPlace direction.opposite key iv out = ⟨.ok (), buffer⟩ := by
  obtain ⟨out, hout, hlen, hback⟩ := transform_of_not_refused h direction
  refine ⟨out, ?_, hlen, ?_⟩
  · rw [inPlace_eq, hout]
    rfl
  · rw [inPlace_eq, hback]
    rfl

/-- The outcome is decided by the three lengths, whatever the direction. -/
theorem inPlace_outcome (spec : CipherSpec) (direction : Direction) (key : Bytes)
    (iv : Option Bytes) (buffer : Bytes) :
    (spec.inPlace direction key iv buffer).outcome
      = (spec.refusal key.length iv buffer.length).elim (.ok ()) .error := by
  cases hr : spec.refusal key.length iv buffer.length with
  | none =>
      obtain ⟨out, hout, -, -⟩ := inPlace_of_not_refused hr direction
      rw [hout]
      rfl
  | some e =>
      rw [inPlace_of_refusal hr]
      rfl

/-- What is refused in spite of its length is refused for its key or its vector. -/
theorem exists_configuration_of_refusal {e : Error} (hf : spec.Fits buffer.length)
    (h : spec.refusal key.length iv buffer.length = some e) :
    ∃ fault, e = .configuration fault := by
  unfold refusal at h
  rw [if_neg (not_not.mpr hf)] at h
  split at h
  · cases h
    exact ⟨_, rfl⟩
  · split at h
    · cases iv with
      | none =>
          cases h
          exact ⟨_, rfl⟩
      | some v =>
          simp only [vectorRefusal] at h
          split at h
          · cases h
          · cases h
            exact ⟨_, rfl⟩
    · cases h

/-- **All or nothing.**  A call in place succeeds exactly if the buffer consists of whole
blocks where it has to, the cipher takes the key, and a mode that needs a vector gets one as
long as a block.  Both directions have the same outcome.  A call that fails leaves its buffer
as it was; it blames the length of the buffer if that is wrong, whatever else is, and the key
or the vector if it is not.  And what a call leaves is what `transform` gives. -/
theorem inPlace_all_or_nothing (spec : CipherSpec) (key : Bytes) (iv : Option Bytes)
    (buffer : Bytes) :
    let aligned := spec.mode = .cfb ∨ spec.cipher = .rc4 ∨ buffer.length % spec.blockSize = 0
    let hasKey := spec.cipher.supportsKeyLength key.length = true
    let hasVector := spec.mode = .cbc ∨ spec.mode = .cfb →
      ∃ v, iv = some v ∧ v.length = spec.blockSize
    (∀ direction, (spec.inPlace direction key iv buffer).outcome = .ok ()
        ↔ aligned ∧ hasKey ∧ hasVector)
      ∧ (spec.inPlace .encrypt key iv buffer).outcome
          = (spec.inPlace .decrypt key iv buffer).outcome
      ∧ (∀ direction e, (spec.inPlace direction key iv buffer).outcome = .error e →
          (spec.inPlace direction key iv buffer).buffer = buffer
            ∧ (¬ aligned → e = .format (.partialBlock buffer.length spec.cipher))
            ∧ (aligned → ∃ fault, e = .configuration fault))
      ∧ ∀ direction, spec.inPlace direction key iv buffer
          = .ofTransform buffer (spec.transform direction key iv buffer) := by
  intro aligned hasKey hasVector
  have haligned : spec.Fits buffer.length ↔ aligned := fits_iff
  have houtcome := fun direction => inPlace_outcome spec direction key iv buffer
  refine ⟨?_, ?_, ?_, fun direction => inPlace_eq spec direction key iv buffer⟩
  · intro direction
    have hdecision : spec.refusal key.length iv buffer.length = none
        ↔ aligned ∧ hasKey ∧ hasVector := by
      rw [refusal_eq_none, haligned, hasVector_iff]
    rw [houtcome, ← hdecision]
    cases spec.refusal key.length iv buffer.length with
    | none => simp
    | some e => simp
  · rw [houtcome, houtcome]
  · intro direction e he
    have hr : spec.refusal key.length iv buffer.length = some e := by
      rw [houtcome] at he
      cases hr : spec.refusal key.length iv buffer.length with
      | none =>
          rw [hr] at he
          cases he
      | some e' =>
          rw [hr] at he
          cases he
          rfl
    refine ⟨?_, ?_, ?_⟩
    · rw [inPlace_of_refusal hr]
    · intro ha
      have hlength : spec.refusal key.length iv buffer.length
          = some (.format (.partialBlock buffer.length spec.cipher)) :=
        refusal_of_not_fits (mt haligned.mp ha)
      exact Option.some.inj (hr.symm.trans hlength)
    · intro ha
      exact exists_configuration_of_refusal (haligned.mpr ha) hr

/-- AES with chaining: sixteen bytes are transformed, and left alone if the key has fifteen;
fifteen bytes are refused before anyone asks for the vector that is not there. -/
theorem inPlace_all_or_nothing_cbc :
    let spec : CipherSpec := ⟨.aes, .cbc, by decide, by decide⟩
    let zeros : Nat → Bytes := fun n => List.replicate n 0
    (spec.inPlace .encrypt (zeros 16) (some (zeros 16)) (zeros 16)).outcome = .ok ()
      ∧ (spec.inPlace .encrypt (zeros 15) (some (zeros 16)) (zeros 16)).outcome ≠ .ok ()
      ∧ (spec.inPlace .encrypt (zeros 15) (some (zeros 16)) (zeros 16)).buffer = zeros 16
      ∧ (spec.inPlace .decrypt (zeros 16) none (zeros 15)).outcome
          = .error (.format (.partialBlock 15 .aes)) := by
  intro spec zeros
  obtain ⟨hfull, -, -, -⟩ :=
    spec.inPlace_all_or_nothing (zeros 16) (some (zeros 16)) (zeros 16)
  obtain ⟨hkey, -, hkept, -⟩ :=
    spec.inPlace_all_or_nothing (zeros 15) (some (zeros 16)) (zeros 16)
  obtain ⟨hshort, -, hblamed, -⟩ := spec.inPlace_all_or_nothing (zeros 16) none (zeros 15)
  have hrefused : (spec.inPlace .encrypt (zeros 15) (some (zeros 16)) (zeros 16)).outcome
      ≠ .ok () := by
    intro h
    exact absurd ((hkey .encrypt).mp h).2.1 (by decide)
  have hpartial : (spec.inPlace .decrypt (zeros 16) none (zeros 15)).outcome ≠ .ok () := by
    intro h
    exact absurd ((hshort .decrypt).mp h).1 (by decide)
  refine ⟨(hfull .encrypt).mpr ⟨by decide, by decide, fun _ => ⟨zeros 16, rfl, by decide⟩⟩,
    hrefused, ?_, ?_⟩
  · cases he : (spec.inPlace .encrypt (zeros 15) (some (zeros 16)) (zeros 16)).outcome with
    | ok u => exact absurd he hrefused
    | error e => exact (hkept .encrypt e he).1
  · cases he : (spec.inPlace .decrypt (zeros 16) none (zeros 15)).outcome with
    | ok u => exact absurd he hpartial
    | error e => exact congrArg Except.error ((hblamed .decrypt e he).2.1 (by decide))

/-! ## §5  Bijections -/

theorem length_inPlace (spec : CipherSpec) (direction : Direction) (key : Bytes)
    (iv : Option Bytes) (buffer : Bytes) :
    (spec.inPlace direction key iv buffer).buffer.length = buffer.length := by
  cases hr : spec.refusal key.length iv buffer.length with
  | none =>
      obtain ⟨out, hout, hlen, -⟩ := inPlace_of_not_refused hr direction
      rw [hout]
      exact hlen
  | some e => rw [inPlace_of_refusal hr]

/-- A call in the opposite direction brings back the buffer, also after a call that failed:
it fails as well. -/
theorem inPlace_opposite (spec : CipherSpec) (direction : Direction) (key : Bytes)
    (iv : Option Bytes) (buffer : Bytes) :
    spec.inPlace direction.opposite key iv (spec.inPlace direction key iv buffer).buffer
      = ⟨(spec.inPlace direction key iv buffer).outcome, buffer⟩ := by
  cases hr : spec.refusal key.length iv buffer.length with
  | none =>
      obtain ⟨out, hout, -, hback⟩ := inPlace_of_not_refused hr direction
      rw [hout]
      exact hback
  | some e => rw [inPlace_of_refusal hr, inPlace_of_refusal hr]

/-- **Every transformation is a bijection that keeps lengths.**  For every pair, key and
vector: one string is stored as another exactly if that one is read back as the first; a call
in place never changes the length of its buffer, and one that succeeded is taken back by a
call in the opposite direction.  So on the buffers of each length a call is a bijection, that
of its cipher or, where it fails, the one that changes nothing. -/
theorem transform_bijective (spec : CipherSpec) (key : Bytes) (iv : Option Bytes) :
    (∀ plain stored, spec.encrypt key iv plain = .ok stored
        ↔ spec.decrypt key iv stored = .ok plain)
      ∧ (∀ direction buffer,
          (spec.inPlace direction key iv buffer).buffer.length = buffer.length)
      ∧ (∀ direction buffer, (spec.inPlace direction key iv buffer).outcome = .ok () →
          spec.inPlace direction.opposite key iv (spec.inPlace direction key iv buffer).buffer
            = ⟨.ok (), buffer⟩)
      ∧ ∀ direction length,
          Set.BijOn (fun buffer => (spec.inPlace direction key iv buffer).buffer)
            {buffer | buffer.length = length} {buffer | buffer.length = length} := by
  refine ⟨?_, fun direction buffer => length_inPlace spec direction key iv buffer, ?_, ?_⟩
  · intro plain stored
    exact ⟨transform_opposite, transform_opposite⟩
  · intro direction buffer hok
    rw [inPlace_opposite, hok]
  · intro direction length
    have hkeeps : ∀ direction : Direction,
        Set.MapsTo (fun buffer => (spec.inPlace direction key iv buffer).buffer)
          {buffer | buffer.length = length} {buffer | buffer.length = length} := by
      intro direction buffer hb
      exact (length_inPlace spec direction key iv buffer).trans hb
    have hback : ∀ direction : Direction,
        Set.LeftInvOn (fun buffer => (spec.inPlace direction.opposite key iv buffer).buffer)
          (fun buffer => (spec.inPlace direction key iv buffer).buffer)
          {buffer | buffer.length = length} := by
      intro direction buffer _
      exact congrArg InPlace.buffer (inPlace_opposite spec direction key iv buffer)
    have hforth := hback direction.opposite
    rw [Direction.opposite_opposite] at hforth
    exact Set.InvOn.bijOn ⟨hback direction, hforth⟩ (hkeeps direction)
      (hkeeps direction.opposite)

/-- Five bytes with cipher feedback, which are no whole block of DES. -/
theorem transform_bijective_cfb :
    let spec : CipherSpec := ⟨.des, .cfb, by decide, by decide⟩
    let key : Bytes := [1, 2, 3, 4, 5, 6, 7, 8]
    ∃ stored, spec.encrypt key (some key) [9, 8, 7, 6, 5] = .ok stored
      ∧ spec.decrypt key (some key) stored = .ok [9, 8, 7, 6, 5]
      ∧ Set.BijOn (fun buffer => (spec.inPlace .encrypt key (some key) buffer).buffer)
          {buffer | buffer.length = 5} {buffer | buffer.length = 5} := by
  intro spec key
  obtain ⟨hiff, -, -, hbij⟩ := spec.transform_bijective key (some key)
  have henc : spec.encrypt key (some key) [9, 8, 7, 6, 5]
      = .ok (Chaining.cfbEncrypt (Des.cipher key) key [9, 8, 7, 6, 5]) := rfl
  exact ⟨_, henc, (hiff _ _).mp henc, hbij .encrypt 5⟩

end CipherSpec

end PageVault
