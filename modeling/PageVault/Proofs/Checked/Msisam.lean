import PageVault.Keys.Msisam
import PageVault.Proofs.Checked.Cipher

/-!
# MSISAM keys within bounds

Two offsets of an MSISAM header come from outside: the first byte of the salt says where
the check bytes are, and the format says where the old password field, the creation date
and the name of the engine are, with 64-bit numbers of any size.  A field past the end of
the header is refused, and so is a size whose double does not fit 64 bits; all that is cut,
masked and shifted afterwards has a length that was tested before.

§1 newer files · §2 masks · §3 older files.
-/

namespace PageVault.Checked

open Msisam (Lock Keys)

/-! ## §1  Newer files -/

def readMsisam (layout : Layout) (header : Bytes) : Checked Lock := do
  let flags ← settled (Msisam.flags header)
  let digest := if flags &&& 0x20 != 0 then HashAlgorithm.sha1 else HashAlgorithm.md5
  let salt ← field Msisam.saltOffset 8 "MSISAM salt" header
  let first ← byte salt 0
  let checkOffset ← add wordBits 0x2E9 first.toNat
  let checkBytes ← field checkOffset 4 "MSISAM password check bytes" header
  return { digest, textEncoding := layout.textEncoding, salt, checkBytes }

/-- A text in an encoding.  For UTF-16 a buffer of twice its length is asked for first. -/
def encodeText (encoding : TextEncoding) (text : String) : Checked Bytes :=
  match encoding with
  | .singleByte => .ok (TextEncoding.encode .singleByte text)
  | .utf16 => do
      let _ ← mul wordBits text.utf8ByteSize 2
      return TextEncoding.encode .utf16 text

def passwordField (lock : Lock) : Option String → Checked Bytes
  | none => .ok (List.replicate Msisam.passwordFieldLength 0)
  | some password => do
      let encoded ← encodeText lock.textEncoding (Text.upper password)
      let blank : Bytes := List.replicate Msisam.passwordFieldLength 0
      let n := min encoded.length Msisam.passwordFieldLength
      let target ← range blank 0 n
      let source ← range encoded 0 n
      let front ← copy target source
      return front ++ blank.drop n

/-- Whether a password digest fits the check bytes and the front of the salt. -/
def acceptsMsisam (lock : Lock) (digest baseSalt : Bytes) : Checked Bool :=
  if Bytes.isBlank lock.checkBytes then .ok true
  else do
    let key ← concat digest lock.salt
    let decrypted ← rc4Crypt key lock.checkBytes
    return decrypted == baseSalt

def unlockMsisam (lock : Lock) (password : Option String) : Checked Keys := do
  let field ← passwordField lock password
  let digest := lock.digest.hashToLength Msisam.passwordDigestLength field
  let baseSalt ← range lock.salt 0 Msisam.baseSaltLength
  let accepted ← acceptsMsisam lock digest baseSalt
  if accepted then do
    let baseHash ← concat digest baseSalt
    return ⟨baseHash⟩
  else refuse .wrongPassword

variable {header : Bytes} {lock : Lock} {password : Option String}

theorem refines_readMsisam (hh : header.length ≤ maxLength) (layout : Layout) :
    Refines (readMsisam layout header) (Lock.read layout header) := by
  refine (refines_settled _).bind fun flags _ => ?_
  refine (refines_field hh _ _ _).bind fun salt hsalt => ?_
  have hl := length_of_field_eq_ok hsalt
  obtain ⟨first, rest, rfl⟩ := List.exists_cons_of_length_pos (l := salt) (by omega)
  have hsum : 0x2E9 + first.toNat < 2 ^ 64 := by
    have := first.toNat_lt
    omega
  rw [byte_eq (by omega), ok_bind, List.getD_cons_zero, add_eq hsum, ok_bind]
  exact (refines_field hh _ _ _).bind fun _ _ => refines_ok _

theorem length_salt_of_read {layout : Layout} (h : Lock.read layout header = .ok lock) :
    lock.salt.length = 8 := by
  unfold Lock.read at h
  obtain ⟨flags, -, h⟩ := Outcome.bind_eq_ok.mp h
  obtain ⟨salt, hsalt, h⟩ := Outcome.bind_eq_ok.mp h
  obtain ⟨checkBytes, -, h⟩ := Outcome.bind_eq_ok.mp h
  cases h
  exact length_of_field_eq_ok hsalt

theorem encodeText_eq {text : String} (h : text.utf8ByteSize ≤ maxLength)
    (encoding : TextEncoding) : encodeText encoding text = .ok (encoding.encode text) := by
  cases encoding with
  | singleByte => rfl
  | utf16 =>
      have hdouble : text.utf8ByteSize * 2 < 2 ^ 64 := by
        have hmax : maxLength = 2 ^ 63 - 1 := rfl
        omega
      unfold encodeText
      dsimp only
      rw [mul_eq hdouble, ok_bind]
      rfl

theorem passwordField_eq
    (hp : ∀ text, password = some text → (Text.upper text).utf8ByteSize ≤ maxLength) :
    passwordField lock password = .ok (lock.passwordField password) := by
  cases password with
  | none => rfl
  | some text =>
      rw [passwordField, Lock.passwordField, encodeText_eq (hp text rfl), ok_bind]
      dsimp only
      generalize lock.textEncoding.encode (Text.upper text) = encoded
      have hblank : min encoded.length Msisam.passwordFieldLength
          ≤ (List.replicate Msisam.passwordFieldLength (0 : UInt8)).length := by
        rw [List.length_replicate]
        exact Nat.min_le_right _ _
      have hencoded : min encoded.length Msisam.passwordFieldLength ≤ encoded.length :=
        Nat.min_le_left _ _
      rw [range_zero hblank, ok_bind, range_zero hencoded, ok_bind, copy_eq, ok_bind, Bytes.fit,
        List.drop_replicate, Nat.min_comm, ← List.take_eq_take_min]
      · congr 3
        omega
      · rw [List.length_take_of_le hblank, List.length_take_of_le hencoded]

theorem acceptsMsisam_eq (hs : lock.salt.length = 8) {digest : Bytes} (hd : digest.length = 16) :
    acceptsMsisam lock digest lock.baseSalt = .ok (lock.accepts digest) := by
  unfold acceptsMsisam Lock.accepts
  cases hb : Bytes.isBlank lock.checkBytes with
  | true => rfl
  | false =>
      have hjoin : digest.length + lock.salt.length < 2 ^ 64 := by omega
      rw [if_neg Bool.false_ne_true, concat_eq hjoin, ok_bind, rc4Crypt_eq, ok_bind]
      rfl

/-- The keys that a password opens, for a lock that was read. -/
theorem refines_unlockMsisam (hs : lock.salt.length = 8)
    (hp : ∀ text, password = some text → (Text.upper text).utf8ByteSize ≤ maxLength) :
    Refines (unlockMsisam lock password) (lock.unlock password) := by
  have hfront : Msisam.baseSaltLength ≤ lock.salt.length := by
    rw [hs]
    decide
  have hd : (lock.passwordDigest password).length = 16 :=
    HashAlgorithm.length_hashToLength _ (by decide) _
  have hjoin : (lock.passwordDigest password).length + lock.baseSalt.length < 2 ^ 64 := by
    have : lock.baseSalt.length ≤ 4 := List.length_take_le _ _
    omega
  unfold unlockMsisam Lock.unlock
  rw [passwordField_eq hp, ok_bind]
  dsimp only
  rw [range_zero hfront, ok_bind]
  change Refines (acceptsMsisam lock (lock.passwordDigest password) lock.baseSalt >>= _) _
  rw [acceptsMsisam_eq hs hd, ok_bind]
  refine Refines.ite (fun _ => ?_) (fun _ => refines_refuse _)
  change Refines (concat (lock.passwordDigest password) lock.baseSalt >>= _) _
  rw [concat_eq hjoin, ok_bind]
  exact refines_ok _

/-! ## §2  Masks -/

/-- A string with a mask repeated over it. -/
def masked (mask b : Bytes) : Checked Bytes :=
  b.zipIdx.mapM fun x => do
    let m ← wrapped mask x.2
    return x.1 ^^^ m

theorem masked_eq {mask b : Bytes} (hm : mask.length ≠ 0) {n : Nat} (hn : b.length ≤ n) :
    masked mask b = .ok (Bytes.xor b (Bytes.cycle mask n)) := by
  have hstep : ∀ x ∈ b.zipIdx,
      (wrapped mask x.2 >>= fun m => pure (x.1 ^^^ m))
        = Except.ok (x.1 ^^^ mask.getD (x.2 % mask.length) 0) := by
    intro x _
    rw [wrapped_eq hm, ok_bind]
    rfl
  unfold masked
  rw [mapM_eq_ok hstep]
  congr 1
  apply List.ext_getElem
  · rw [List.length_map, List.length_zipIdx, Bytes.length_xor, Bytes.length_cycle,
      Nat.min_eq_left hn]
  · intro i hi hi'
    simp [Bytes.xor, Bytes.cycle]

def maskFront (mask : Bytes) (n : Nat) (b : Bytes) : Checked Bytes := do
  let front ← masked mask (b.take n)
  return front ++ b.drop n

/-- A string with a mask over its last `n` bytes, or over all of them if there are fewer. -/
def maskBack (mask : Bytes) (n : Nat) (b : Bytes) : Checked Bytes := do
  let start := b.length - n
  let tail ← range b start b.length
  let back ← masked mask tail
  return b.take start ++ back

def unmasked (size : Nat) (stored : Bytes) : Option Bytes → Checked Bytes
  | none => .ok stored
  | some mask => do
      let once ← maskFront mask size stored
      maskBack mask 20 once

theorem maskFront_eq {mask : Bytes} (hm : mask.length ≠ 0) (n : Nat) (b : Bytes) :
    maskFront mask n b = .ok (Msisam.maskFront mask n b) := by
  have hfront : (b.take n).length ≤ n := List.length_take_le _ _
  unfold maskFront
  rw [masked_eq hm hfront, ok_bind]
  rfl

theorem maskBack_eq {mask : Bytes} (hm : mask.length ≠ 0) (n : Nat) (b : Bytes) :
    maskBack mask n b = .ok (Msisam.maskBack mask n b) := by
  have hback : (b.drop (b.length - n)).length ≤ n := by
    rw [List.length_drop]
    omega
  unfold maskBack
  dsimp only
  rw [range_to_end (Nat.sub_le _ _), ok_bind, masked_eq hm hback, ok_bind]
  rfl

theorem unmasked_eq {mask : Option Bytes} (hm : ∀ m, mask = some m → m.length ≠ 0) (size : Nat)
    (stored : Bytes) : unmasked size stored mask = .ok (Msisam.unmasked size stored mask) := by
  cases mask with
  | none => rfl
  | some mask =>
      have hm := hm mask rfl
      rw [unmasked, maskFront_eq hm, ok_bind, maskBack_eq hm]
      rfl

/-! ## §3  Older files -/

/-- `key` combined with data, each byte shifted by less than a word. -/
def combine (key : UInt32) (data : Bytes) : Checked UInt32 :=
  data.zipIdx.foldlM (fun k b => do
    let shifted ← shiftLeft b.1.toUInt32 (b.2 % 24)
    return k ^^^ shifted) key

theorem combine_eq (key : UInt32) (data : Bytes) :
    combine key data = .ok (Msisam.combine key data) := by
  refine foldlM_eq_ok ?_ key
  intro k b _
  have hshift : b.2 % 24 < 32 := by omega
  rw [shiftLeft_eq hshift, ok_bind]
  rfl

def dateMask (layout : Layout) (header : Bytes) : Checked (Option Bytes) :=
  match layout.dateOffset with
  | none => .ok none
  | some offset => do
      let date ← field offset.toNat 8 "header date" header
      let bits ← copy (List.replicate 8 0) date
      return some (Bytes.ofNatLE 4 (Binary64.toWord32 (Bytes.toNatLE bits)))

def oldPasswordField (layout : Layout) (header : Bytes) : Checked Bytes :=
  let size := layout.passwordSize.toNat
  if size * 2 < UInt64.size then
    field layout.passwordOffset.toNat (size * 2) "MSISAM password field" header
  else refuse (.format (.passwordFieldOverflow size))

def oldKey (layout : Layout) (header : Bytes) : Checked JetKeys := do
  let salt ← field Msisam.saltOffset JetKeys.encodingKeyLength "MSISAM salt" header
  let b₀ ← byte salt 0
  let b₁ ← byte salt 1
  let b₂ ← byte salt 2
  let b₃ ← byte salt 3
  let stored ← oldPasswordField layout header
  let mask ← dateMask layout header
  let data ← unmasked layout.passwordSize.toNat stored mask
  let name ←
    field layout.engineNameOffset.toNat layout.engineNameLength.toNat "engine name" header
  let key ← combine (UInt32.ofNat (Bytes.toNatLE [b₀, b₁, b₂, b₃])) (Bytes.everySecond data)
  let key ← combine key name
  return ⟨Bytes.le32 key⟩

theorem refines_dateMask (hh : header.length ≤ maxLength) (layout : Layout) :
    Refines (dateMask layout header) (Msisam.dateMask layout header) := by
  unfold dateMask Msisam.dateMask
  cases layout.dateOffset with
  | none => exact refines_ok _
  | some offset =>
      refine (refines_field hh _ _ _).bind fun date hdate => ?_
      have hl : (List.replicate 8 (0 : UInt8)).length = date.length :=
        (length_of_field_eq_ok hdate).symm
      rw [copy_eq hl, ok_bind]
      exact refines_ok _

theorem length_of_dateMask {mask : Bytes} {layout : Layout}
    (h : Msisam.dateMask layout header = .ok (some mask)) : mask.length = 4 := by
  unfold Msisam.dateMask at h
  cases hd : layout.dateOffset with
  | none =>
      rw [hd] at h
      cases h
  | some offset =>
      rw [hd] at h
      obtain ⟨date, -, h⟩ := Outcome.bind_eq_ok.mp h
      cases h
      exact Bytes.length_ofNatLE _ _

theorem refines_oldPasswordField (hh : header.length ≤ maxLength) (layout : Layout) :
    Refines (oldPasswordField layout header) (Msisam.oldPasswordField layout header) := by
  unfold oldPasswordField Msisam.oldPasswordField
  exact Refines.ite (fun _ => refines_field hh _ _ _) (fun _ => refines_refuse _)

/-- **The key of an older file is made within bounds**, wherever the format places its
parts. -/
theorem refines_oldKey (hh : header.length ≤ maxLength) (layout : Layout) :
    Refines (oldKey layout header) (Msisam.oldKey layout header) := by
  refine (refines_field hh _ _ _).bind fun salt hsalt => ?_
  obtain ⟨b₀, b₁, b₂, b₃, rfl⟩ := List.length_eq_four.mp (length_of_field_eq_ok hsalt)
  refine (refines_oldPasswordField hh layout).bind fun stored _ => ?_
  refine (refines_dateMask hh layout).bind fun mask hmask => ?_
  have hm : ∀ m, mask = some m → m.length ≠ 0 := by
    rintro m rfl
    rw [length_of_dateMask hmask]
    decide
  rw [unmasked_eq hm, ok_bind]
  refine (refines_field hh _ _ _).bind fun name _ => ?_
  rw [combine_eq, ok_bind, combine_eq, ok_bind]
  exact refines_ok _

end PageVault.Checked
