import PageVault.Proofs.Checked.Cipher
import PageVault.Proofs.Opened

/-!
# Office keys within bounds

Sizes in the encryption info of an office file come from the file: the size of the header,
the size of a key in bits, the size of a block, the number of bytes of a digest that count.
Each is tested before something is cut, divided or multiplied by it, so reading a lock and
opening it with a password refine `OfficeLock.read` and `OfficeLock.unlock`.

§1 the binary header · §2 locks with a binary header · §3 binary documents · §4 the
descriptor · §5 agile locks · §6 all of them.
-/

namespace PageVault.Checked

/-! ## §1  The binary header -/

/-- The 16-bit unit of two bytes. -/
def unit (b : Bytes) : Checked UInt16 := do
  let low ← byte b 0
  let high ← byte b 1
  return UInt16.ofNat (Bytes.toNatLE [low, high])

/-- The units of a byte string that is cut in pieces of two bytes. -/
def units (b : Bytes) : Checked (List UInt16) :=
  (Bytes.wholeBlocks 2 b).mapM unit

def providerOf (b : Bytes) : Checked String := do
  let us ← units b
  return String.ofList (Text.Utf16.decode (us.takeWhile (· != 0)))

theorem units_eq (b : Bytes) : units b = .ok (Text.Utf16.ofBytes b) := by
  unfold units Bytes.wholeBlocks
  fun_induction Text.Utf16.ofBytes b with
  | case1 x y rest ih =>
      have hcount : (x :: y :: rest).length / 2 = rest.length / 2 + 1 :=
        Nat.add_div_right rest.length (by decide : 0 < 2)
      have hunit : unit [x, y] = .ok (UInt16.ofNat (Bytes.toNatLE [x, y])) := rfl
      rw [hcount, Bytes.blocks, List.mapM_cons]
      change unit [x, y] >>= _ = _
      rw [hunit, ok_bind]
      change (List.mapM unit (Bytes.blocks 2 (rest.length / 2) rest)) >>= _ = _
      rw [ih, ok_bind]
      rfl
  | case2 b hshort =>
      have hcount : b.length / 2 = 0 := by
        rcases b with _ | ⟨x, _ | ⟨y, rest⟩⟩
        · exact Nat.zero_div 2
        · exact Nat.div_eq_of_lt (by decide : 1 < 2)
        · exact (hshort x y rest rfl).elim
      rw [hcount]
      rfl

theorem providerOf_eq (b : Bytes) : providerOf b = .ok (providerName b) := by
  unfold providerOf
  rw [units_eq, ok_bind]
  rfl

def headerFields : Reader EncryptionHeader := do
  let flags ← Reader.word32 "EncryptionHeader.flags"
  let sizeExtra ← Reader.word32 "EncryptionHeader.sizeExtra"
  let cipherNumber ← Reader.word32 "EncryptionHeader.algId"
  let hashNumber ← Reader.word32 "EncryptionHeader.algIdHash"
  let storedBits ← Reader.word32 "EncryptionHeader.keySize"
  let providerType ← Reader.word32 "EncryptionHeader.providerType"
  let cipher ← Reader.lift (settled (HeaderCipher.ofNumber cipherNumber flags))
  let hash ← Reader.lift (settled (HeaderHash.ofNumber hashNumber flags))
  let _ ← Reader.word32 "EncryptionHeader.reserved1"
  let _ ← Reader.word32 "EncryptionHeader.reserved2"
  let name ← Reader.rest
  let provider ← Reader.lift (providerOf name)
  let keyBits := if storedBits = 0 then defaultKeyBits cipher provider else storedBits
  return { flags, sizeExtra, cipher, hash, keyBits, providerType, provider }

def headerOfBytes (ciphers : List HeaderCipher) (hashes : List HeaderHash) (b : Bytes) :
    Checked EncryptionHeader := do
  let h ← (headerFields (.start b)).1
  settled (EncryptionHeader.check ciphers hashes h)
  return h

def readHeader (ciphers : List HeaderCipher) (hashes : List HeaderHash) :
    Reader EncryptionHeader := do
  let size ← Reader.word32 "EncryptionHeader.headerSize"
  let b ← Reader.take size.toNat "EncryptionHeader"
  Reader.lift (headerOfBytes ciphers hashes b)

def readVerifier (cipher : HeaderCipher) : Reader EncryptionVerifier := do
  let saltSize ← Reader.word32 "EncryptionVerifier.saltSize"
  if saltSize ≠ 16 then
    Reader.lift (refuse (.configuration (.saltSize saltSize)))
  else
    let salt ← Reader.take 16 "EncryptionVerifier.salt"
    let encryptedVerifier ← Reader.take 16 "EncryptionVerifier.encryptedVerifier"
    let hashSize ← Reader.word32 "EncryptionVerifier.verifierHashSize"
    let encryptedHash ←
      Reader.take cipher.verifierHashLength "EncryptionVerifier.encryptedVerifierHash"
    return { salt, encryptedVerifier, hashSize, encryptedHash }

open Reader (Agrees agrees_pure agrees_lift agrees_take agrees_word32 agrees_rest)

theorem agrees_headerFields : Agrees headerFields EncryptionHeader.fields := by
  refine (agrees_word32 _).bind fun flags _ => ?_
  refine (agrees_word32 _).bind fun sizeExtra _ => ?_
  refine (agrees_word32 _).bind fun cipherNumber _ => ?_
  refine (agrees_word32 _).bind fun hashNumber _ => ?_
  refine (agrees_word32 _).bind fun storedBits _ => ?_
  refine (agrees_word32 _).bind fun providerType _ => ?_
  refine (agrees_lift (refines_settled _)).bind fun cipher _ => ?_
  refine (agrees_lift (refines_settled _)).bind fun hash _ => ?_
  refine (agrees_word32 _).bind fun _ _ => ?_
  refine (agrees_word32 _).bind fun _ _ => ?_
  refine agrees_rest.bind fun name _ => ?_
  rw [providerOf_eq]
  exact agrees_pure _

theorem refines_headerOfBytes {b : Bytes} (hb : b.length ≤ maxLength) (ciphers : List HeaderCipher)
    (hashes : List HeaderHash) :
    Refines (headerOfBytes ciphers hashes b) (EncryptionHeader.ofBytes ciphers hashes b) := by
  have hfields : Refines (headerFields (.start b)).1 (EncryptionHeader.fields (.start b)).1 :=
    congrArg Prod.fst (agrees_headerFields (.start b) hb).1
  refine hfields.bind fun h _ => ?_
  exact (refines_settled _).bind fun _ _ => refines_ok _

theorem agrees_readHeader (ciphers : List HeaderCipher) (hashes : List HeaderHash) :
    Agrees (readHeader ciphers hashes) (EncryptionHeader.read ciphers hashes) := by
  refine (agrees_word32 _).bind fun size _ => ?_
  refine (agrees_take _ _).bind fun b hb => ?_
  have hlen : b.length ≤ maxLength := by
    have hmax : maxLength = 2 ^ 63 - 1 := rfl
    have := size.toNat_lt
    rw [Reader.length_of_given_take hb]
    omega
  exact agrees_lift (refines_headerOfBytes hlen ciphers hashes)

theorem agrees_readVerifier (cipher : HeaderCipher) :
    Agrees (readVerifier cipher) (EncryptionVerifier.read cipher) := by
  refine (agrees_word32 _).bind fun saltSize _ => ?_
  refine Agrees.ite (fun _ => agrees_lift (refines_refuse _)) (fun _ => ?_)
  refine (agrees_take _ _).bind fun salt _ => ?_
  refine (agrees_take _ _).bind fun encryptedVerifier _ => ?_
  refine (agrees_word32 _).bind fun hashSize _ => ?_
  exact (agrees_take _ _).bind fun encryptedHash _ => agrees_pure _

/-! ## §2  Locks with a binary header -/

def readStandard (encodingKey : Bytes) (rounds : Nat) : Reader StandardLock := do
  let header ← readHeader [.aes128, .aes192, .aes256] [.sha1]
  let verifier ← readVerifier header.cipher
  return { encodingKey, verifier, keyLength := header.keyLength, rounds }

def readCryptoApi (encodingKey : Bytes) : Reader CryptoApiLock := do
  let header ← readHeader [.rc4] [.sha1]
  let verifier ← readVerifier header.cipher
  return { encodingKey, verifier, keyBits := header.keyBits }

def standardKey (stretched block : Bytes) (keyLength : Nat) : Checked Bytes := do
  let last := HashAlgorithm.sha1.hash (stretched ++ block)
  let joined ← concat (HashAlgorithm.sha1.hash (StandardKeys.filled 0x36 last))
    (HashAlgorithm.sha1.hash (StandardKeys.filled 0x5C last))
  return Bytes.fit keyLength 0 joined

def unlockStandard (lock : StandardLock) (password : Bytes) : Checked StandardKeys := do
  let stretched := lock.stretched password
  let key ← standardKey stretched (Bytes.le32 0) lock.keyLength
  let verifier ← transform .aesEcb .decrypt key none lock.verifier.encryptedVerifier
  let hash ← transform .aesEcb .decrypt key none lock.verifier.encryptedHash
  if lock.verifier.isConsistent verifier hash then
    return { encodingKey := lock.encodingKey, stretched, keyLength := lock.keyLength }
  else refuse .wrongPassword

def unlockCryptoApi (lock : CryptoApiLock) (password : Bytes) : Checked CryptoApiKeys := do
  let keys := lock.keysOf password
  let start ← rc4 (keys.derive (Bytes.le32 0))
  let (verifier, next) := start.apply lock.verifier.encryptedVerifier
  let hash := (next.apply lock.verifier.encryptedHash).1
  if lock.verifier.isConsistent verifier hash then return keys else refuse .wrongPassword

theorem agrees_readStandard (encodingKey : Bytes) (rounds : Nat) :
    Agrees (readStandard encodingKey rounds) (StandardLock.read encodingKey rounds) := by
  refine (agrees_readHeader _ _).bind fun header _ => ?_
  exact (agrees_readVerifier _).bind fun verifier _ => agrees_pure _

theorem agrees_readCryptoApi (encodingKey : Bytes) :
    Agrees (readCryptoApi encodingKey) (CryptoApiLock.read encodingKey) := by
  refine (agrees_readHeader _ _).bind fun header _ => ?_
  exact (agrees_readVerifier _).bind fun verifier _ => agrees_pure _

theorem standardKey_eq (stretched block : Bytes) (keyLength : Nat) :
    standardKey stretched block keyLength
      = .ok (StandardKeys.derive stretched block keyLength) := by
  have hjoin : ∀ m m' : Bytes,
      (HashAlgorithm.sha1.hash m).length + (HashAlgorithm.sha1.hash m').length < 2 ^ 64 := by
    intro m m'
    rw [HashAlgorithm.length_hash, HashAlgorithm.length_hash]
    decide
  unfold standardKey
  dsimp only
  rw [concat_eq (hjoin _ _), ok_bind]
  rfl

theorem refines_unlockStandard (lock : StandardLock) (password : Bytes) :
    Refines (unlockStandard lock password) (lock.unlock password) := by
  unfold unlockStandard StandardLock.unlock
  dsimp only
  rw [standardKey_eq, ok_bind]
  refine (refines_transform _ _ _ _ _).bind fun verifier _ => ?_
  refine (refines_transform _ _ _ _ _).bind fun hash _ => ?_
  exact Refines.ite (fun _ => refines_ok _) (fun _ => refines_refuse _)

theorem refines_unlockCryptoApi (lock : CryptoApiLock) (password : Bytes) :
    Refines (unlockCryptoApi lock password) (lock.unlock password) := by
  unfold unlockCryptoApi CryptoApiLock.unlock
  dsimp only
  rw [rc4_eq, ok_bind]
  exact Refines.ite (fun _ => refines_ok _) (fun _ => refines_refuse _)

/-! ## §3  Binary documents -/

def readBinaryDocument (encodingKey : Bytes) : Reader BinaryDocumentLock := do
  let salt ← Reader.take 16 "RC4EncryptionHeader.salt"
  let encryptedVerifier ← Reader.take 16 "RC4EncryptionHeader.encryptedVerifier"
  let encryptedHash ← Reader.take 16 "RC4EncryptionHeader.encryptedVerifierHash"
  return { encodingKey, salt, encryptedVerifier, encryptedHash }

/-- The `missing` bytes that a string repeated from its start adds to a buffer, as much of
the string at a time as there is room for.  The empty string adds nothing, for ever. -/
def repeated (pattern : Bytes) (missing : Nat) : Checked Bytes :=
  if missing = 0 then .ok []
  else if 0 < pattern.length then do
    let n := min pattern.length missing
    let part ← range pattern 0 n
    let rest ← repeated pattern (missing - n)
    return part ++ rest
  else .error (.trapped .endless)
termination_by missing
decreasing_by omega

def binaryDocumentKeys (lock : BinaryDocumentLock) (password : Bytes) :
    Checked BinaryDocumentKeys := do
  let truncated := HashAlgorithm.md5.hashToLength BinaryDocumentKeys.truncatedLength password
  let part ← concat truncated lock.salt
  let intermediate ← repeated part 336
  return { encodingKey := lock.encodingKey
           baseHash := HashAlgorithm.md5.hashToLength BinaryDocumentKeys.truncatedLength
             intermediate }

def unlockBinaryDocument (lock : BinaryDocumentLock) (password : Bytes) :
    Checked BinaryDocumentKeys := do
  let keys ← binaryDocumentKeys lock password
  let start ← rc4 (keys.derive (Bytes.le32 0))
  let (verifier, next) := start.apply lock.encryptedVerifier
  let hash := (next.apply lock.encryptedHash).1
  if hash = HashAlgorithm.md5.hash verifier then return keys else refuse .wrongPassword

theorem agrees_readBinaryDocument (encodingKey : Bytes) :
    Agrees (readBinaryDocument encodingKey) (BinaryDocumentLock.read encodingKey) := by
  refine (agrees_take _ _).bind fun salt _ => ?_
  refine (agrees_take _ _).bind fun encryptedVerifier _ => ?_
  exact (agrees_take _ _).bind fun encryptedHash _ => agrees_pure _

theorem length_salt_of_readBinaryDocument {encodingKey : Bytes} {lock : BinaryDocumentLock}
    {c c' : Cursor} (h : BinaryDocumentLock.read encodingKey c = (.ok lock, c')) :
    lock.salt.length = 16 := by
  unfold BinaryDocumentLock.read at h
  obtain ⟨salt, c₁, hsalt, h⟩ := Reading.bind_eq_ok.mp h
  obtain ⟨encryptedVerifier, c₂, -, h⟩ := Reading.bind_eq_ok.mp h
  obtain ⟨encryptedHash, c₃, -, h⟩ := Reading.bind_eq_ok.mp h
  obtain ⟨rfl, -⟩ := Reading.pure_eq_ok.mp h
  exact Reading.length_of_take_eq_ok hsalt

theorem repeated_eq {pattern : Bytes} (hp : 0 < pattern.length) (missing : Nat) :
    repeated pattern missing = .ok (Bytes.cycle pattern missing) := by
  induction missing using Nat.strongRecOn with
  | ind missing ih =>
      rw [repeated]
      rcases Nat.eq_zero_or_pos missing with rfl | hpos
      · rfl
      rw [if_neg (Nat.ne_of_gt hpos), if_pos hp]
      dsimp only
      rw [range_zero (Nat.min_le_left _ _), ok_bind, ih _ (by omega), ok_bind]
      rcases Nat.le_total pattern.length missing with hle | hle
      · -- A whole repetition, and the rest.
        have hsplit : missing = pattern.length + (missing - pattern.length) := by omega
        rw [Nat.min_eq_left hle, List.take_length]
        conv_rhs => rw [hsplit, Bytes.cycle_length_add]
        rfl
      · rw [Nat.min_eq_right hle, Nat.sub_self, Bytes.cycle_of_le_length hle]
        exact congrArg Except.ok (List.append_nil _)

variable {lock : BinaryDocumentLock}

theorem binaryDocumentKeys_eq (hs : lock.salt.length = 16) (password : Bytes) :
    binaryDocumentKeys lock password = .ok (lock.keysOf password) := by
  have htruncated : (HashAlgorithm.md5.hashToLength BinaryDocumentKeys.truncatedLength
      password).length = 5 := HashAlgorithm.length_hashToLength _ (by decide) _
  have hjoin : (HashAlgorithm.md5.hashToLength BinaryDocumentKeys.truncatedLength
      password).length + lock.salt.length < 2 ^ 64 := by omega
  unfold binaryDocumentKeys
  dsimp only
  rw [concat_eq hjoin, ok_bind, repeated_eq (by rw [List.length_append]; omega), ok_bind]
  rfl

theorem refines_unlockBinaryDocument (hs : lock.salt.length = 16) (password : Bytes) :
    Refines (unlockBinaryDocument lock password) (lock.unlock password) := by
  unfold unlockBinaryDocument BinaryDocumentLock.unlock
  rw [binaryDocumentKeys_eq hs, ok_bind]
  dsimp only
  rw [rc4_eq, ok_bind]
  exact Refines.ite (fun _ => refines_ok _) (fun _ => refines_refuse _)

/-! ## §4  The descriptor -/

/-- How many zeros there are at the end. -/
def trailingZeros (b : Bytes) : Nat :=
  (b.reverse.takeWhile (· == 0)).length

/-- The index of the last byte other than zero. -/
def lastNonzero? (b : Bytes) : Option Nat :=
  if trailingZeros b < b.length then some (b.length - 1 - trailingZeros b) else none

/-- A byte string up to its last byte other than zero. -/
def trimZeros (b : Bytes) : Checked Bytes := do
  let stop ←
    match lastNonzero? b with
    | some last => add wordBits last 1
    | none => .ok 0
  range b 0 stop

def byteOrderMark : Bytes := [0xEF, 0xBB, 0xBF]

/-- A byte string without a byte order mark in front. -/
def unmarked (b : Bytes) : Bytes :=
  if byteOrderMark <+: b then b.drop byteOrderMark.length else b

def descriptorText? (b : Bytes) : Checked (Option (List Char)) := do
  let trimmed ← trimZeros (unmarked b)
  return (String.fromUTF8? ⟨trimmed.toArray⟩).map String.toList

def readDescriptor (b : Bytes) : Checked Descriptor := do
  match ← descriptorText? b with
  | some cs => settled (Descriptor.ofSequence (Markup.events cs))
  | none => refuse (.format .descriptorNotText)

variable {b : Bytes}

theorem trimZeros_eq_take (b : Bytes) :
    Bytes.trimZeros b = b.take (b.length - trailingZeros b) := by
  have hsplit : b.reverse.takeWhile (· == 0) ++ b.reverse.dropWhile (· == 0) = b.reverse :=
    List.takeWhile_append_dropWhile
  have hdrop : b.reverse.dropWhile (· == 0) = b.reverse.drop (trailingZeros b) := by
    conv_rhs => rw [← hsplit]
    exact List.drop_left.symm
  rw [Bytes.trimZeros, hdrop, List.reverse_drop, List.reverse_reverse, List.length_reverse]

theorem trimZeros_eq (hb : b.length ≤ maxLength) : trimZeros b = .ok (Bytes.trimZeros b) := by
  rw [trimZeros_eq_take]
  unfold trimZeros lastNonzero?
  by_cases hz : trailingZeros b < b.length
  · have hmax : maxLength = 2 ^ 63 - 1 := rfl
    have hlast : b.length - 1 - trailingZeros b + 1 = b.length - trailingZeros b := by omega
    have hsum : b.length - 1 - trailingZeros b + 1 < 2 ^ 64 := by omega
    rw [if_pos hz]
    dsimp only
    rw [add_eq hsum, ok_bind, hlast]
    exact range_zero (Nat.sub_le _ _)
  · have hnone : b.length - trailingZeros b = 0 := by omega
    rw [if_neg hz, hnone]
    exact range_zero (Nat.zero_le _)

theorem length_unmarked_le (b : Bytes) : (unmarked b).length ≤ b.length := by
  unfold unmarked
  split
  · rw [List.length_drop]
    omega
  · exact Nat.le_refl _

theorem text?_eq_unmarked (b : Bytes) :
    Descriptor.text? b
      = (String.fromUTF8? ⟨(Bytes.trimZeros (unmarked b)).toArray⟩).map String.toList := by
  unfold unmarked
  by_cases hmark : byteOrderMark <+: b
  · obtain ⟨rest, rfl⟩ := hmark
    rw [if_pos (List.prefix_append _ _), List.drop_left]
    rfl
  · rw [if_neg hmark]
    unfold Descriptor.text?
    split
    · rename_i rest
      exact absurd ⟨rest, rfl⟩ hmark
    · rfl

theorem descriptorText?_eq (hb : b.length ≤ maxLength) :
    descriptorText? b = .ok (Descriptor.text? b) := by
  have hb : (unmarked b).length ≤ maxLength := Nat.le_trans (length_unmarked_le b) hb
  unfold descriptorText?
  rw [trimZeros_eq hb, ok_bind, text?_eq_unmarked]
  rfl

theorem refines_readDescriptor (hb : b.length ≤ maxLength) :
    Refines (readDescriptor b) (Descriptor.ofBytes b) := by
  unfold readDescriptor Descriptor.ofBytes
  rw [descriptorText?_eq hb, ok_bind]
  cases Descriptor.text? b with
  | none => exact refines_refuse _
  | some cs => exact refines_settled _

/-! ## §5  Agile locks -/

/-- The suite of a description.  The size of its key in bytes is a quotient of 32 bits. -/
def resolveSuite (d : CipherDescription) (element : String) : Checked Suite := do
  let hash ← settled (HashAlgorithm.resolve d.hashName)
  let spec ← settled (CipherSpec.ofNames d.cipherName d.modeName)
  let keyLength ← divCeil 32 d.keyBits.toNat 8
  if h : spec.cipher.supportsKeyLength keyLength = true then
    if d.blockSize.toNat = spec.blockSize then return ⟨hash, spec, keyLength, h⟩
    else refuse (.configuration (.descriptorBlockSize element d.blockSize spec.cipher))
  else refuse (.configuration (.descriptorKeyBits element d.keyBits spec.cipher))

/-- A string padded with zeros to whole blocks. -/
def padBlocks (s : Suite) (b : Bytes) : Checked Bytes := do
  let count ← divCeil wordBits b.length s.spec.blockSize
  let len ← mul wordBits count s.spec.blockSize
  return Bytes.fit len 0 b

def lockOfDescriptor (encodingKey : Bytes) (spinLimit : UInt32) (d : Descriptor) :
    Checked AgileLock := do
  let encryptor ← settled (AgileLock.onlyEncryptor d)
  if encryptor.spinCount > spinLimit then
    refuse (.configuration (.spinCount encryptor.spinCount spinLimit))
  else do
    let passwordSuite ← resolveSuite encryptor.suite "encryptedKey"
    let pageSuite ← resolveSuite d.keyData "keyData"
    return { encodingKey, encryptor, passwordSuite, pageSuite, pageSalt := d.keyData.salt }

def readAgile (encodingKey : Bytes) (spinLimit : UInt32) : Reader AgileLock := do
  let word ← Reader.word32 "Agile reserved value"
  if word ≠ AgileLock.reserved then
    Reader.lift (refuse (.format (.unexpectedReserved word)))
  else
    let b ← Reader.rest
    Reader.lift (readDescriptor b >>= lockOfDescriptor encodingKey spinLimit)

def unwrap (lock : AgileLock) (stretched block stored : Bytes) : Checked Bytes :=
  transform lock.passwordSuite.spec .decrypt (lock.passwordSuite.keyOf (stretched ++ block))
    (some lock.encryptor.suite.salt) stored

def unlockAgile (lock : AgileLock) (password : Bytes) : Checked AgileKeys := do
  let stretched := lock.stretched password
  let verifier ← unwrap lock stretched AgileLock.verifierBlock lock.encryptor.encryptedVerifier
  let hash ←
    unwrap lock stretched AgileLock.verifierHashBlock lock.encryptor.encryptedVerifierHash
  let expected ← padBlocks lock.passwordSuite (lock.passwordSuite.hash.hash verifier)
  if hash == expected then do
    let keyValue ← unwrap lock stretched AgileLock.keyValueBlock lock.encryptor.encryptedKeyValue
    let needed := lock.pageSuite.keyLength
    if keyValue.length < needed then
      refuse (.configuration (.shortKeyValue keyValue.length needed))
    else
      return { encodingKey := lock.encodingKey, keyValue := keyValue.take needed,
               suite := lock.pageSuite, salt := lock.pageSalt }
  else refuse .wrongPassword

theorem refines_resolveSuite (d : CipherDescription) (element : String) :
    Refines (resolveSuite d element) (Suite.resolve d element) := by
  refine (refines_settled _).bind fun hash _ => ?_
  refine (refines_settled _).bind fun spec _ => ?_
  rw [divCeil_eq d.keyBits.toNat_lt (by decide), ok_bind]
  dsimp only
  split
  · exact Refines.ite (fun _ => refines_ok _) (fun _ => refines_refuse _)
  · exact refines_refuse _

/-- Padding a string that is not too long to be one. -/
theorem padBlocks_eq (s : Suite) (hb : b.length ≤ maxLength) :
    padBlocks s b = .ok (s.padBlocks b) := by
  have hmax : maxLength = 2 ^ 63 - 1 := rfl
  have hpos : 0 < s.spec.blockSize := s.spec.cipher.blockSize_pos
  have hsize : s.spec.blockSize ≤ 16 := by
    unfold CipherSpec.blockSize
    cases s.spec.cipher <;> decide
  have hlen : b.length < 2 ^ 64 := by omega
  have hround : (b.length + (s.spec.blockSize - 1)) / s.spec.blockSize * s.spec.blockSize
      ≤ b.length + (s.spec.blockSize - 1) := Nat.div_mul_le_self _ _
  have hfits : (b.length + (s.spec.blockSize - 1)) / s.spec.blockSize * s.spec.blockSize
      < 2 ^ 64 := by omega
  unfold padBlocks
  rw [divCeil_eq hlen hpos, ok_bind, mul_eq hfits, ok_bind]
  rfl

theorem refines_lockOfDescriptor (encodingKey : Bytes) (spinLimit : UInt32) (d : Descriptor) :
    Refines (lockOfDescriptor encodingKey spinLimit d)
      (AgileLock.ofDescriptor encodingKey spinLimit d) := by
  refine (refines_settled _).bind fun encryptor _ => ?_
  refine Refines.ite (fun _ => refines_refuse _) (fun _ => ?_)
  refine (refines_resolveSuite _ _).bind fun passwordSuite _ => ?_
  exact (refines_resolveSuite _ _).bind fun pageSuite _ => refines_ok _

theorem agrees_readAgile (encodingKey : Bytes) (spinLimit : UInt32) :
    Agrees (readAgile encodingKey spinLimit) (AgileLock.read encodingKey spinLimit) := by
  refine (agrees_word32 _).bind fun word _ => ?_
  refine Agrees.ite (fun _ => agrees_lift (refines_refuse _)) (fun _ => ?_)
  refine agrees_rest.bind fun b hb => ?_
  refine agrees_lift ((refines_readDescriptor (Reader.length_of_given_rest hb)).bind ?_)
  exact fun d _ => refines_lockOfDescriptor encodingKey spinLimit d

theorem refines_unwrap (lock : AgileLock) (stretched block stored : Bytes) :
    Refines (unwrap lock stretched block stored) (lock.unwrap stretched block stored) :=
  refines_transform _ _ _ _ _

theorem refines_unlockAgile (lock : AgileLock) (password : Bytes) :
    Refines (unlockAgile lock password) (lock.unlock password) := by
  refine (refines_unwrap _ _ _ _).bind fun verifier _ => ?_
  refine (refines_unwrap _ _ _ _).bind fun hash _ => ?_
  have hdigest : (lock.passwordSuite.hash.hash verifier).length ≤ maxLength := by
    rw [HashAlgorithm.length_hash]
    cases lock.passwordSuite.hash <;> decide
  rw [padBlocks_eq _ hdigest, ok_bind]
  refine Refines.ite (fun _ => ?_) (fun _ => refines_refuse _)
  refine (refines_unwrap _ _ _ _).bind fun keyValue _ => ?_
  exact Refines.ite (fun _ => refines_refuse _) (fun _ => refines_ok _)

/-! ## §6  All of them -/

def unlockOffice (lock : OfficeLock) (password : Bytes) : Checked Codec :=
  match lock with
  | .standard scheme lock => do
      let keys ← unlockStandard lock password
      return .fresh scheme (.standard keys) (.block .aesEcb) lastOfficePage
  | .cryptoApi lock => do
      let keys ← unlockCryptoApi lock password
      return .fresh .officeRc4CryptoApi (.cryptoApi keys) .stream lastOfficePage
  | .binaryDocument lock => do
      let keys ← unlockBinaryDocument lock password
      return .fresh .officeBinaryRc4 (.binaryDocument keys) .stream lastOfficePage
  | .agile lock => do
      let keys ← unlockAgile lock password
      return .fresh .officeAgile (.agile keys) (.block lock.pageSuite.spec) lastOfficePage

theorem refines_unlockOffice {lock : OfficeLock} {encodingKey : Bytes}
    (h : lock.ReadAs encodingKey) (password : Bytes) :
    Refines (unlockOffice lock password) (lock.unlock password) := by
  cases h with
  | standard | nonStandard => exact (refines_unlockStandard _ _).map fun _ _ => rfl
  | cryptoApi => exact (refines_unlockCryptoApi _ _).map fun _ _ => rfl
  | binaryDocument h =>
      have hs := length_salt_of_readBinaryDocument h
      exact (refines_unlockBinaryDocument hs _).map fun _ _ => rfl
  | agile => exact (refines_unlockAgile _ _).map fun _ _ => rfl

/-- The lock of a file that claims RC4, or of one without stretching. -/
def readClaimedCryptoApi (encodingKey : Bytes) : Reader OfficeLock := fun c =>
  match readCryptoApi encodingKey c with
  | (.ok lock, c') => (.ok (.cryptoApi lock), c')
  | (.error (.refused (.configuration fault)), _) =>
      match readStandard encodingKey 0 c with
      | (.ok lock, c') => (.ok (.standard .officeNonStandard lock), c')
      | (.error (.refused _), c') => (refuse (.configuration fault), c')
      | (.error (.trapped trap), c') => (.error (.trapped trap), c')
  | (.error stop, c') => (.error stop, c')

def readFlagged (encodingKey : Bytes) (major minor : UInt16) : Reader OfficeLock := do
  let flags ← Reader.word32 "EncryptionInfo.flags"
  if !HeaderFlags.cryptoApi flags then Reader.lift (refuse (.unsupported (.version major minor)))
  else if HeaderFlags.isExternal flags then
    Reader.lift (refuse (.unsupported (.externallyManaged flags)))
  else if HeaderFlags.aes flags then
    return .standard .officeStandard (← readStandard encodingKey StandardLock.standardRounds)
  else readClaimedCryptoApi encodingKey

def readOffice (encodingKey : Bytes) (spinLimit : UInt32) (major minor : UInt16) :
    Reader OfficeLock :=
  if major = 4 ∧ minor = 4 then return .agile (← readAgile encodingKey spinLimit)
  else if major = 1 ∧ minor = 1 then
    return .binaryDocument (← readBinaryDocument encodingKey)
  else if (major = 3 ∨ major = 4) ∧ minor = 3 then
    Reader.lift (refuse (.unsupported .extensible))
  else if (2 ≤ major ∧ major ≤ 4) ∧ minor = 2 then readFlagged encodingKey major minor
  else Reader.lift (refuse (.unsupported (.version major minor)))

theorem agrees_readClaimedCryptoApi (encodingKey : Bytes) :
    Agrees (readClaimedCryptoApi encodingKey) (OfficeLock.readCryptoApi encodingKey) := by
  intro c hc
  obtain ⟨hfirst, hdata⟩ := agrees_readCryptoApi encodingKey c hc
  obtain ⟨hsecond, hdata'⟩ := agrees_readStandard encodingKey 0 c hc
  unfold readClaimedCryptoApi OfficeLock.readCryptoApi
  rw [hfirst]
  rcases hr : CryptoApiLock.read encodingKey c with ⟨e | lock, c'⟩
  · rw [hr] at hdata
    cases e with
    | configuration fault =>
        -- The header is read a second time, from where it begins.
        dsimp only [settled, Except.mapError]
        rw [hsecond]
        rcases hr' : StandardLock.read encodingKey 0 c with ⟨e | lock, c'⟩
        · rw [hr'] at hdata'
          exact ⟨rfl, hdata'⟩
        · rw [hr'] at hdata'
          exact ⟨rfl, hdata'⟩
    | format | unsupported | wrongPassword => exact ⟨rfl, hdata⟩
  · rw [hr] at hdata
    exact ⟨rfl, hdata⟩

theorem agrees_readFlagged (encodingKey : Bytes) (major minor : UInt16) :
    Agrees (readFlagged encodingKey major minor)
      (OfficeLock.readFlagged encodingKey major minor) := by
  refine (agrees_word32 _).bind fun flags _ => ?_
  refine Agrees.ite (fun _ => agrees_lift (refines_refuse _)) (fun _ => ?_)
  refine Agrees.ite (fun _ => agrees_lift (refines_refuse _)) (fun _ => ?_)
  refine Agrees.ite (fun _ => ?_) (fun _ => agrees_readClaimedCryptoApi encodingKey)
  exact (agrees_readStandard _ _).bind fun _ _ => agrees_pure _

/-- **A lock is read within bounds**, whatever the encryption info holds. -/
theorem agrees_readOffice (encodingKey : Bytes) (spinLimit : UInt32) (major minor : UInt16) :
    Agrees (readOffice encodingKey spinLimit major minor)
      (OfficeLock.read encodingKey spinLimit major minor) := by
  refine Agrees.ite (fun _ => ?_) (fun _ => ?_)
  · exact (agrees_readAgile encodingKey spinLimit).bind fun _ _ => agrees_pure _
  refine Agrees.ite (fun _ => ?_) (fun _ => ?_)
  · exact (agrees_readBinaryDocument encodingKey).bind fun _ _ => agrees_pure _
  refine Agrees.ite (fun _ => agrees_lift (refines_refuse _)) (fun _ => ?_)
  exact Agrees.ite (fun _ => agrees_readFlagged encodingKey major minor)
    (fun _ => agrees_lift (refines_refuse _))

end PageVault.Checked
