import PageVault.Proofs.Checked.Step
import PageVault.Proofs.Cipher.Transform

/-!
# Ciphers within bounds

RC4 takes a byte of its key for each entry of its table, counted modulo the length of the
key; block ciphers take keys and blocks of certain lengths, and chaining modes cut buffers
into such blocks.  What `CipherSpec.transform` tests before it starts is what makes all of
this go well: a transformation refines `CipherSpec.transform` for every key, vector and
buffer.

§1 RC4 · §2 blocks · §3 modes · §4 the transformation.
-/

namespace PageVault.Checked

/-! ## §1  RC4 -/

/-- The entry of a table at an index. -/
def entry (t : ByteTable UInt8) (i : Nat) : Checked UInt8 :=
  within (i < 256) .index (t.entry (UInt8.ofNat i))

/-- A table with the entries at two indices exchanged. -/
def swap (t : ByteTable UInt8) (i j : Nat) : Checked (ByteTable UInt8) :=
  within (i < 256 ∧ j < 256) .index (Rc4.swapped t (UInt8.ofNat i) (UInt8.ofNat j))

def rc4Step (key : Bytes) (s : ByteTable UInt8 × UInt8) (i : Nat) :
    Checked (ByteTable UInt8 × UInt8) := do
  let x ← entry s.1 i
  let k ← wrapped key i
  let j := s.2 + x + k
  let t ← swap s.1 i j.toNat
  return (t, j)

/-- The state that a key sets up.  Its entries are used with bytes as indices from then
on, so that the table has no end to run over. -/
def rc4 (key : Bytes) : Checked Rc4 :=
  if key.isEmpty then .ok ⟨Rc4.identity, 0, 0⟩
  else do
    let s ← (List.range 256).foldlM (rc4Step key) (Rc4.identity, 0)
    return ⟨s.1, 0, 0⟩

theorem rc4Step_eq {key : Bytes} (hk : key.length ≠ 0) {i : Nat} (hi : i < 256)
    (s : ByteTable UInt8 × UInt8) :
    rc4Step key s i = .ok (Rc4.keyStep s (UInt8.ofNat i) (key.getD (i % key.length) 0)) := by
  unfold rc4Step
  rw [entry, within_of hi, ok_bind, wrapped_eq hk, ok_bind]
  dsimp only
  rw [swap, within_of ⟨hi, UInt8.toNat_lt _⟩, ok_bind, UInt8.ofNat_toNat]
  rfl

theorem rc4_eq (key : Bytes) : rc4 key = .ok (Rc4.ofKey key) := by
  cases key with
  | nil => rfl
  | cons x key =>
      have hk : (x :: key).length ≠ 0 := Nat.succ_ne_zero _
      have hstep : ∀ s, ∀ i ∈ List.range 256,
          rc4Step (x :: key) s i = .ok (Rc4.keyStep s (UInt8.ofNat i)
            ((x :: key).getD (i % (x :: key).length) 0)) :=
        fun s i hi => rc4Step_eq hk (List.mem_range.mp hi) s
      unfold rc4 Rc4.ofKey
      rw [List.isEmpty_cons, if_neg Bool.false_ne_true, foldlM_eq_ok hstep, ok_bind]
      dsimp only
      rw [Bytes.zip_range_cycle, List.foldl_map]
      rfl

def rc4Crypt (key data : Bytes) : Checked Bytes := do
  let s ← rc4 key
  return (s.apply data).1

theorem rc4Crypt_eq (key data : Bytes) : rc4Crypt key data = .ok (Rc4.crypt key data) := by
  unfold rc4Crypt
  rw [rc4_eq, ok_bind]
  rfl

/-! ## §2  Blocks -/

/-- A cipher under a key in the range that it takes.  For RC2 the number of effective
bits, all bits of the key, has a limit of its own. -/
def keyed (cipher : CipherAlgorithm) (key : Bytes) : Checked BlockCipher := do
  let bits ← mul wordBits key.length 8
  within (cipher.supportsKeyLength key.length = true ∧ (cipher = .rc2 → bits ≤ 1024)) .key
    (CipherSpec.keyed cipher key)

theorem keyed_eq {cipher : CipherAlgorithm} {key : Bytes}
    (h : cipher.supportsKeyLength key.length = true) :
    keyed cipher key = .ok (CipherSpec.keyed cipher key) := by
  have hle : key.length ≤ 256 := by
    cases cipher <;> simp [CipherAlgorithm.supportsKeyLength] at h <;> omega
  have hbits : cipher = .rc2 → key.length * 8 ≤ 1024 := by
    rintro rfl
    simp [CipherAlgorithm.supportsKeyLength] at h
    omega
  have hword : key.length * 8 < 2 ^ 64 := by omega
  unfold keyed
  rw [mul_eq hword, ok_bind]
  exact within_of ⟨h, hbits⟩ _ _

/-- One block through a cipher. -/
def block (c : BlockCipher) (f : Bytes → Bytes) (b : Bytes) : Checked Bytes :=
  within (b.length = c.size) .block (f b)

/-- Two blocks combined. -/
def combineBlocks (b b' : Bytes) : Checked Bytes :=
  within (b.length = b'.length) .block (Bytes.xor b b')

theorem block_eq {c : BlockCipher} {b : Bytes} (h : b.length = c.size) (f : Bytes → Bytes) :
    block c f b = .ok (f b) :=
  within_of h _ _

theorem combineBlocks_eq {b b' : Bytes} (h : b.length = b'.length) :
    combineBlocks b b' = .ok (Bytes.xor b b') :=
  within_of h _ _

/-! ## §3  Modes -/

section

variable (c : BlockCipher)

/-- How many blocks there are in a buffer. -/
def blockCount (b : Bytes) : Checked Nat :=
  div b.length c.size

def mapBlocks (f : Bytes → Bytes) : (count : Nat) → Bytes → Checked Bytes
  | 0, b => .ok b
  | count + 1, b => do
      let x ← range b 0 c.size
      let tail ← range b c.size b.length
      let y ← block c f x
      let rest ← mapBlocks f count tail
      return y ++ rest

def cbcEncryptBlocks : (count : Nat) → (before b : Bytes) → Checked Bytes
  | 0, _, b => .ok b
  | count + 1, before, b => do
      let x ← range b 0 c.size
      let tail ← range b c.size b.length
      let mixed ← combineBlocks x before
      let y ← block c c.encrypt mixed
      let rest ← cbcEncryptBlocks count y tail
      return y ++ rest

def cbcDecryptBlocks : (count : Nat) → (before b : Bytes) → Checked Bytes
  | 0, _, b => .ok b
  | count + 1, before, b => do
      let x ← range b 0 c.size
      let tail ← range b c.size b.length
      let mixed ← block c c.decrypt x
      let y ← combineBlocks mixed before
      let rest ← cbcDecryptBlocks count x tail
      return y ++ rest

def ecb (f : Bytes → Bytes) (b : Bytes) : Checked Bytes := do
  let count ← blockCount c b
  mapBlocks c f count b

def cbcEncrypt (iv b : Bytes) : Checked Bytes := do
  let count ← blockCount c b
  cbcEncryptBlocks c count iv b

def cbcDecrypt (iv b : Bytes) : Checked Bytes := do
  let count ← blockCount c b
  cbcDecryptBlocks c count iv b

/-- The first byte of the encrypted register. -/
def mask (register : Bytes) : Checked UInt8 := do
  let b ← block c c.encrypt register
  byte b 0

def cfbEncrypt : (register : Bytes) → Bytes → Checked Bytes
  | _, [] => .ok []
  | register, p :: rest => do
      let m ← mask c register
      let x := p ^^^ m
      let xs ← cfbEncrypt (Chaining.feed register x) rest
      return x :: xs

def cfbDecrypt : (register : Bytes) → Bytes → Checked Bytes
  | _, [] => .ok []
  | register, x :: rest => do
      let m ← mask c register
      let ps ← cfbDecrypt (Chaining.feed register x) rest
      return (x ^^^ m) :: ps

end

section

variable {c : BlockCipher} {before register b : Bytes} {n : Nat}

theorem blockCount_eq (hc : c.Lawful) (b : Bytes) : blockCount c b = .ok (b.length / c.size) :=
  div_eq (Nat.ne_of_gt hc.size_pos)

/-- A buffer of one block more is a block and the rest, and both are in range. -/
theorem range_block (hb : b.length = (n + 1) * c.size) :
    range b 0 c.size = .ok (b.take c.size) ∧ range b c.size b.length = .ok (b.drop c.size) := by
  have hle : c.size ≤ b.length := by
    rw [hb, Nat.add_one_mul]
    omega
  exact ⟨range_zero hle, range_to_end hle⟩

theorem mapBlocks_eq (f : Bytes → Bytes) (hb : b.length = n * c.size) :
    mapBlocks c f n b = .ok (Chaining.mapBlocks c.size f n b) := by
  induction n generalizing b with
  | zero => rfl
  | succ n ih =>
      obtain ⟨hx, hr⟩ := Chaining.length_take_drop hb
      obtain ⟨hfront, htail⟩ := range_block hb
      rw [mapBlocks, hfront, ok_bind, htail, ok_bind, block_eq hx, ok_bind, ih hr, ok_bind]
      rfl

theorem cbcEncryptBlocks_eq (hc : c.Lawful) (hv : before.length = c.size)
    (hb : b.length = n * c.size) :
    cbcEncryptBlocks c n before b = .ok (Chaining.cbcEncryptBlocks c n before b) := by
  induction n generalizing before b with
  | zero => rfl
  | succ n ih =>
      obtain ⟨hx, hr⟩ := Chaining.length_take_drop hb
      obtain ⟨hfront, htail⟩ := range_block hb
      have hm : (Bytes.xor (b.take c.size) before).length = c.size := by
        rw [Bytes.length_xor, hx, hv, Nat.min_self]
      rw [cbcEncryptBlocks, hfront, ok_bind, htail, ok_bind, combineBlocks_eq (hx.trans hv.symm),
        ok_bind, block_eq hm, ok_bind, ih (hc.length_encrypt _ hm) hr, ok_bind]
      rfl

theorem cbcDecryptBlocks_eq (hc : c.Lawful) (hv : before.length = c.size)
    (hb : b.length = n * c.size) :
    cbcDecryptBlocks c n before b = .ok (Chaining.cbcDecryptBlocks c n before b) := by
  induction n generalizing before b with
  | zero => rfl
  | succ n ih =>
      obtain ⟨hx, hr⟩ := Chaining.length_take_drop hb
      obtain ⟨hfront, htail⟩ := range_block hb
      have hd : (c.decrypt (b.take c.size)).length = before.length :=
        (hc.length_decrypt _ hx).trans hv.symm
      rw [cbcDecryptBlocks, hfront, ok_bind, htail, ok_bind, block_eq hx, ok_bind,
        combineBlocks_eq hd, ok_bind, ih hx hr, ok_bind]
      rfl

theorem ecb_eq (hc : c.Lawful) (hb : b.length % c.size = 0) (f : Bytes → Bytes) :
    ecb c f b = .ok (Chaining.mapBlocks c.size f (b.length / c.size) b) := by
  unfold ecb
  rw [blockCount_eq hc, ok_bind]
  exact mapBlocks_eq f (Chaining.eq_count_mul_of_mod_eq_zero hb)

theorem cbcEncrypt_eq (hc : c.Lawful) (hv : before.length = c.size)
    (hb : b.length % c.size = 0) :
    cbcEncrypt c before b = .ok (Chaining.cbcEncrypt c before b) := by
  unfold cbcEncrypt
  rw [blockCount_eq hc, ok_bind]
  exact cbcEncryptBlocks_eq hc hv (Chaining.eq_count_mul_of_mod_eq_zero hb)

theorem cbcDecrypt_eq (hc : c.Lawful) (hv : before.length = c.size)
    (hb : b.length % c.size = 0) :
    cbcDecrypt c before b = .ok (Chaining.cbcDecrypt c before b) := by
  unfold cbcDecrypt
  rw [blockCount_eq hc, ok_bind]
  exact cbcDecryptBlocks_eq hc hv (Chaining.eq_count_mul_of_mod_eq_zero hb)

theorem mask_eq (hc : c.Lawful) (hv : register.length = c.size) :
    mask c register = .ok (Chaining.mask c register) := by
  have hpos : 0 < (c.encrypt register).length := by
    rw [hc.length_encrypt _ hv]
    exact hc.size_pos
  unfold mask
  rw [block_eq hv, ok_bind, byte_eq hpos, Chaining.mask, List.headD_eq_head?_getD,
    List.getD_eq_getElem?_getD, List.head?_eq_getElem?]

/-- The register keeps the length of a block. -/
theorem length_feed (hc : c.Lawful) (hv : register.length = c.size) (x : UInt8) :
    (Chaining.feed register x).length = c.size := by
  have hpos := hc.size_pos
  rw [Chaining.feed, List.length_append, List.length_drop, List.length_singleton, hv]
  omega

theorem cfbEncrypt_eq (hc : c.Lawful) (hv : register.length = c.size) (b : Bytes) :
    cfbEncrypt c register b = .ok (Chaining.cfbEncrypt c register b) := by
  induction b generalizing register with
  | nil => rfl
  | cons p rest ih =>
      rw [cfbEncrypt, mask_eq hc hv, ok_bind]
      dsimp only
      rw [ih (length_feed hc hv _), ok_bind]
      rfl

theorem cfbDecrypt_eq (hc : c.Lawful) (hv : register.length = c.size) (b : Bytes) :
    cfbDecrypt c register b = .ok (Chaining.cfbDecrypt c register b) := by
  induction b generalizing register with
  | nil => rfl
  | cons x rest ih =>
      rw [cfbDecrypt, mask_eq hc hv, ok_bind, ih (length_feed hc hv _), ok_bind]
      rfl

end

/-! ## §4  The transformation -/

/-- A cipher carried over a buffer in a mode that starts with a vector. -/
def chained (spec : CipherSpec) (iv : Option Bytes) (mode : Bytes → Checked Bytes) :
    Checked Bytes := do
  let v ← settled (spec.requireVector iv)
  mode v

def chain (spec : CipherSpec) (direction : Direction) (c : BlockCipher) (iv : Option Bytes)
    (buffer : Bytes) : Checked Bytes :=
  match spec.mode, direction with
  | .ecb, .encrypt => ecb c c.encrypt buffer
  | .ecb, .decrypt => ecb c c.decrypt buffer
  | .cbc, .encrypt => chained spec iv fun v => cbcEncrypt c v buffer
  | .cbc, .decrypt => chained spec iv fun v => cbcDecrypt c v buffer
  | .cfb, .encrypt => chained spec iv fun v => cfbEncrypt c v buffer
  | .cfb, .decrypt => chained spec iv fun v => cfbDecrypt c v buffer
  | .ccm, _ => refuse (.unsupported (.authenticatedMode .ccm))
  | .gcm, _ => refuse (.unsupported (.authenticatedMode .gcm))

/-- Whether a buffer of a block cipher ends within a block. -/
def endsWithinBlock (spec : CipherSpec) (buffer : Bytes) : Checked Bool :=
  if spec.anyLength then .ok false
  else do
    let rest ← mod buffer.length spec.blockSize
    return rest != 0

def transform (spec : CipherSpec) (direction : Direction) (key : Bytes) (iv : Option Bytes)
    (buffer : Bytes) : Checked Bytes := do
  if ← endsWithinBlock spec buffer then
    refuse (.format (.partialBlock buffer.length spec.cipher))
  else if !spec.cipher.supportsKeyLength key.length then
    refuse (.configuration (.keyLength spec.cipher key.length))
  else if spec.cipher = .rc4 then rc4Crypt key buffer
  else do
    let c ← keyed spec.cipher key
    chain spec direction c iv buffer

variable {spec : CipherSpec} {c : BlockCipher} {buffer : Bytes}

theorem length_of_requireVector {iv : Option Bytes} {v : Bytes}
    (h : spec.requireVector iv = .ok v) : v.length = spec.blockSize := by
  cases iv with
  | none => cases h
  | some v' =>
      simp only [CipherSpec.requireVector] at h
      split at h
      · rename_i hv
        cases h
        exact hv
      · cases h

theorem refines_chain (hc : c.Lawful) (hs : c.size = spec.blockSize)
    (hb : spec.mode = .cfb ∨ buffer.length % c.size = 0) (direction : Direction)
    (iv : Option Bytes) :
    Refines (chain spec direction c iv buffer) (spec.chain direction c iv buffer) := by
  have hvector : ∀ v, spec.requireVector iv = .ok v → v.length = c.size :=
    fun v hv => (length_of_requireVector hv).trans hs.symm
  unfold chain CipherSpec.chain
  cases hm : spec.mode with
  | ecb =>
      have hb : buffer.length % c.size = 0 := by simpa [hm] using hb
      cases direction with
      | encrypt => exact ecb_eq hc hb c.encrypt
      | decrypt => exact ecb_eq hc hb c.decrypt
  | cbc =>
      have hb : buffer.length % c.size = 0 := by simpa [hm] using hb
      cases direction with
      | encrypt =>
          exact (refines_settled _).map fun v hv => cbcEncrypt_eq hc (hvector v hv) hb
      | decrypt =>
          exact (refines_settled _).map fun v hv => cbcDecrypt_eq hc (hvector v hv) hb
  | cfb =>
      cases direction with
      | encrypt =>
          exact (refines_settled _).map fun v hv => cfbEncrypt_eq hc (hvector v hv) buffer
      | decrypt =>
          exact (refines_settled _).map fun v hv => cfbDecrypt_eq hc (hvector v hv) buffer
  | ccm | gcm => exact refines_refuse _

theorem endsWithinBlock_eq (spec : CipherSpec) (buffer : Bytes) :
    endsWithinBlock spec buffer
      = .ok (!spec.anyLength && buffer.length % spec.blockSize != 0) := by
  unfold endsWithinBlock
  cases hany : spec.anyLength with
  | true => rfl
  | false =>
      have hpos : 0 < spec.blockSize := spec.cipher.blockSize_pos
      rw [if_neg Bool.false_ne_true, mod_eq (Nat.ne_of_gt hpos), ok_bind]
      rfl

/-- **A transformation keeps within its bounds**, whatever the key, the vector and the
buffer. -/
theorem refines_transform (spec : CipherSpec) (direction : Direction) (key : Bytes)
    (iv : Option Bytes) (buffer : Bytes) :
    Refines (transform spec direction key iv buffer) (spec.transform direction key iv buffer) := by
  unfold transform CipherSpec.transform
  rw [endsWithinBlock_eq, ok_bind]
  refine Refines.ite (fun _ => refines_refuse _) ?_
  intro hfits
  refine Refines.ite (fun _ => refines_refuse _) ?_
  intro hkey
  refine Refines.ite (fun _ => rc4Crypt_eq key buffer) ?_
  intro hrc4
  have hkey : spec.cipher.supportsKeyLength key.length = true := by simpa using hkey
  have hsize : (CipherSpec.keyed spec.cipher key).size = spec.blockSize :=
    CipherSpec.size_keyed hrc4 key
  have hwhole : spec.mode = .cfb ∨ buffer.length % spec.blockSize = 0 := by
    simp only [CipherSpec.anyLength, Bool.and_eq_true, Bool.not_eq_true', Bool.or_eq_false_iff,
      beq_eq_false_iff_ne, bne_iff_ne, not_and, not_not] at hfits
    by_cases hm : spec.mode = .cfb
    · exact Or.inl hm
    · exact Or.inr (hfits ⟨hm, hrc4⟩)
  rw [keyed_eq hkey, ok_bind]
  exact refines_chain (CipherSpec.lawful_keyed spec.cipher key) hsize (by rwa [hsize]) direction iv

end PageVault.Checked
