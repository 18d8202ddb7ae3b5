import PageVault.Keys.Agile
import PageVault.Keys.BinaryDocument
import PageVault.Keys.CryptoApi
import PageVault.Keys.Msisam
import PageVault.Keys.Standard
import PageVault.Proofs.Bytes
import PageVault.Proofs.Keys.Passwords

/-!
# Keys as the formats describe them

What a key is, from the password to its last byte, said in one expression for each
provider: digests of strings that are put together whole, cut with `take` and padded
with bytes that are written out.  The locks come to the same keys in several steps, in
structures that are kept for all pages, and with operations that cut and pad in one.

§1 stretching · §2 agile keys · §3 standard keys · §4 crypto API keys ·
§5 binary document keys · §6 MSISAM keys.
-/

namespace PageVault

/-! ## §1  Stretching -/

namespace HashAlgorithm

variable {a : HashAlgorithm}

/-- A hash stretched in rounds.  Every round hashes its number, counted from zero, and
what the rounds before it gave. -/
def stretched (a : HashAlgorithm) (base : Bytes) : (rounds : Nat) → Bytes
  | 0 => base
  | n + 1 => a.hash (Bytes.ofNatLE 4 n ++ a.stretched base n)

theorem stretch_eq_stretched (base : Bytes) (rounds : Nat) :
    a.stretch base rounds = a.stretched base rounds := by
  induction rounds with
  | zero => rfl
  | succ n ih =>
      rw [stretch_succ, ih]
      rfl

/-- A digest that is long enough is cut. -/
theorem hashToLength_of_le {len : Nat} (h0 : len ≠ 0) (hl : len ≤ a.digestLength) (m : Bytes) :
    a.hashToLength len m = (a.hash m).take len := by
  rw [hashToLength, if_neg h0, Bytes.fit, length_hash, Nat.sub_eq_zero_of_le hl,
    List.replicate_zero, List.append_nil]

/-- A digest of the right length stays as it is. -/
theorem hashToLength_digestLength (m : Bytes) :
    a.hashToLength a.digestLength m = a.hash m := by
  rw [hashToLength_of_le (Nat.ne_of_gt a.digestLength_pos) (Nat.le_refl _), ← a.length_hash m,
    List.take_length]

end HashAlgorithm

/-! ## §2  Agile keys -/

/-- The key that a value is wrapped with: the stretched hash of salt and password and
the block of the value, hashed, and cut or padded to the key length. -/
def Suite.wrappingKey (s : Suite) (salt : Bytes) (spinCount : Nat) (password block : Bytes) :
    Bytes :=
  Bytes.fit s.keyLength 0x36
    (s.hash.hash (s.hash.stretched (s.hash.hash (salt ++ password)) spinCount ++ block))

/-- The vector of a page: the salt of the pages and the encoding key with the page
number mixed in, hashed, and cut or padded to a block. -/
def Suite.pageVector (s : Suite) (salt encodingKey : Bytes) (page : UInt32) : Bytes :=
  Bytes.fit s.spec.blockSize 0x36
    (s.hash.hash (salt ++ Bytes.xorExtended encodingKey (Bytes.le32 page)))

/-- A string with as many zeros behind it as are missing to whole blocks. -/
def Suite.zeroPadded (s : Suite) (b : Bytes) : Bytes :=
  b ++ List.replicate ((s.spec.blockSize - b.length % s.spec.blockSize) % s.spec.blockSize) 0

theorem AgileLock.keyOf_stretched (lock : AgileLock) (password block : Bytes) :
    lock.passwordSuite.keyOf (lock.stretched password ++ block)
      = lock.passwordSuite.wrappingKey lock.encryptor.suite.salt lock.encryptor.spinCount.toNat
          password block := by
  unfold stretched
  rw [HashAlgorithm.stretch_eq_stretched]
  rfl

theorem AgileKeys.params_eq (keys : AgileKeys) (page : UInt32) :
    keys.params page
      = ⟨keys.keyValue, some (keys.suite.pageVector keys.salt keys.encodingKey page)⟩ := by
  unfold params
  rw [Bytes.withPageNumber_zero]
  rfl

/-- The least multiple of `n` that is no less than `k`, in two ways. -/
theorem roundUp_eq {n k : Nat} (hn : 0 < n) : (k + (n - 1)) / n * n = k + (n - k % n) % n := by
  have hk := Nat.div_add_mod k n
  have hr := Nat.mod_lt k hn
  generalize hq : k / n = q at hk
  generalize k % n = r at hk hr
  subst hk
  rcases Nat.eq_zero_or_pos r with rfl | hpos
  · rw [Nat.sub_zero, Nat.mod_self, Nat.add_zero, Nat.mul_add_div hn,
      Nat.div_eq_of_lt (by omega), Nat.add_zero, Nat.mul_comm]
  · have hsum : n * q + r + (n - 1) = n * (q + 1) + (r - 1) := by
      rw [Nat.mul_add, Nat.mul_one]
      omega
    rw [Nat.mod_eq_of_lt (by omega : n - r < n), hsum, Nat.mul_add_div hn,
      Nat.div_eq_of_lt (by omega), Nat.add_zero, Nat.mul_comm, Nat.mul_add, Nat.mul_one]
    omega

theorem Suite.padBlocks_eq_zeroPadded (s : Suite) (b : Bytes) : s.padBlocks b = s.zeroPadded b := by
  unfold padBlocks zeroPadded
  have hn : 0 < s.spec.blockSize := s.spec.cipher.blockSize_pos
  dsimp only
  rw [roundUp_eq hn, Bytes.fit, List.take_of_length_le (Nat.le_add_right _ _),
    Nat.add_sub_cancel_left]

/-! ## §3  Standard keys -/

/-- The key of a block: the stretched hash of salt and password and the block, hashed;
then the digests of 64 bytes of two values, each with that hash mixed in, one behind the
other, as far as the key goes. -/
def standardKey (rounds keyLength : Nat) (salt password block : Bytes) : Bytes :=
  let hash := HashAlgorithm.sha1.hash
  let last := hash (HashAlgorithm.sha1.stretched (hash (salt ++ password)) rounds ++ block)
  Bytes.fit keyLength 0
    (hash (Bytes.xorExtended (List.replicate 64 0x36) last)
      ++ hash (Bytes.xorExtended (List.replicate 64 0x5C) last))

theorem StandardKeys.filled_eq {hash : Bytes} (h : hash.length ≤ 64) (fill : UInt8) :
    filled fill hash = Bytes.xorExtended (List.replicate 64 fill) hash := by
  rw [filled, Bytes.xorAt_zero, List.take_of_length_le h]

theorem StandardLock.derive_stretched (lock : StandardLock) (password block : Bytes) :
    StandardKeys.derive (lock.stretched password) block lock.keyLength
      = standardKey lock.rounds lock.keyLength lock.verifier.salt password block := by
  unfold StandardKeys.derive standardKey stretched
  rw [HashAlgorithm.stretch_eq_stretched]
  have hlen : ∀ m, (HashAlgorithm.sha1.hash m).length ≤ 64 := by
    intro m
    rw [HashAlgorithm.length_hash]
    decide
  dsimp only
  rw [StandardKeys.filled_eq (hlen _), StandardKeys.filled_eq (hlen _)]

/-! ## §4  Crypto API keys -/

/-- The key of a block, of the given number of bits: as much of a digest as it needs, and
zeros where it is longer than that.  A key of 40 bits gets eleven more bytes of zeros. -/
def cryptoApiKey (keyBits : UInt32) (salt password block : Bytes) : Bytes :=
  let hash := HashAlgorithm.sha1.hash
  let len := keyBits.toNat / 8
  let key := (hash (hash (salt ++ password) ++ block)).take len ++ List.replicate (len - 20) 0
  if keyBits = 40 then key ++ List.replicate 11 0 else key

theorem CryptoApiLock.derive_keysOf {lock : CryptoApiLock} (h : 8 ≤ lock.keyBits.toNat)
    (password block : Bytes) :
    (lock.keysOf password).derive block
      = cryptoApiKey lock.keyBits lock.verifier.salt password block := by
  have h0 : lock.keyBits.toNat / 8 ≠ 0 := by omega
  unfold CryptoApiKeys.derive cryptoApiKey keysOf HashAlgorithm.hashToLength
  simp only [if_neg h0]
  by_cases h40 : lock.keyBits = 40
  · -- Five bytes of the digest, padded to sixteen.
    rw [if_pos h40, if_pos h40, h40]
    have hcut : ∀ m, (Bytes.fit 5 0 (HashAlgorithm.sha1.hash m)).length = 5 := by
      intro m
      exact Bytes.length_fit _ _ _
    have hlong : ∀ m, Bytes.fit 5 0 (HashAlgorithm.sha1.hash m)
        = (HashAlgorithm.sha1.hash m).take 5 ++ List.replicate 0 0 := by
      intro m
      rw [Bytes.fit, HashAlgorithm.length_hash]
      rfl
    show Bytes.fit 16 0 (Bytes.fit 5 0 _) = _ ++ List.replicate 11 0
    rw [Bytes.fit, hcut, List.take_of_length_le (by rw [hcut]; decide), hlong]
    rfl
  · rw [if_neg h40, if_neg h40, Bytes.fit, HashAlgorithm.length_hash]
    rfl

/-! ## §5  Binary document keys -/

/-- The key of a block: five bytes of the digest of the password and the salt, sixteen
times, hashed; five bytes of that and the block, hashed. -/
def binaryDocumentKey (salt password block : Bytes) : Bytes :=
  let hash := HashAlgorithm.md5.hash
  let part := (hash password).take 5 ++ salt
  hash ((hash (List.replicate 16 part).flatten).take 5 ++ block)

theorem BinaryDocumentLock.derive_keysOf {lock : BinaryDocumentLock} (h : lock.salt.length = 16)
    (password block : Bytes) :
    (lock.keysOf password).derive block = binaryDocumentKey lock.salt password block := by
  have hcut : ∀ m, HashAlgorithm.md5.hashToLength BinaryDocumentKeys.truncatedLength m
      = (HashAlgorithm.md5.hash m).take 5 := by
    intro m
    exact HashAlgorithm.hashToLength_of_le (by decide) (by decide) m
  have hpart : ((HashAlgorithm.md5.hash password).take 5 ++ lock.salt).length = 21 := by
    rw [List.length_append, List.length_take, HashAlgorithm.length_hash, h]
    rfl
  -- Sixteen times twenty-one bytes fill the buffer exactly.
  have hfill : Bytes.cycle ((HashAlgorithm.md5.hash password).take 5 ++ lock.salt) 336
      = (List.replicate 16 ((HashAlgorithm.md5.hash password).take 5 ++ lock.salt)).flatten := by
    rw [← Bytes.cycle_mul_length, hpart]
  unfold BinaryDocumentKeys.derive binaryDocumentKey keysOf
  simp only [hcut, hfill]
  exact HashAlgorithm.hashToLength_digestLength _

/-! ## §6  MSISAM keys -/

namespace Msisam

/-- The digest of a password: sixteen bytes of the digest of the forty that count.  The flags
choose between two digests. -/
def digestOf (flags : UInt8) (encoding : TextEncoding) (password : Option String) : Bytes :=
  let hash := if flags &&& 0x20 ≠ 0 then HashAlgorithm.sha1.hash else HashAlgorithm.md5.hash
  (hash (effective encoding password)).take 16

theorem length_digestOf (flags : UInt8) (encoding : TextEncoding) (password : Option String) :
    (digestOf flags encoding password).length = 16 := by
  unfold digestOf
  split <;> simp [HashAlgorithm.digestLength]

theorem Lock.passwordDigest_eq {lock : Lock} {flags : UInt8}
    (h : lock.digest = if flags &&& 0x20 != 0 then .sha1 else .md5) (password : Option String) :
    lock.passwordDigest password = digestOf flags lock.textEncoding password := by
  unfold passwordDigest digestOf
  rw [passwordField_eq_effective, h]
  by_cases hf : flags &&& 0x20 = 0
  · simp only [hf, bne_self_eq_false, ne_eq, not_true_eq_false, if_false]
    exact HashAlgorithm.hashToLength_of_le (by decide) (by decide) _
  · have hb : (flags &&& 0x20 != 0) = true := bne_iff_ne.mpr hf
    rw [if_pos hb, if_pos hf]
    exact HashAlgorithm.hashToLength_of_le (by decide) (by decide) _

end Msisam

end PageVault
