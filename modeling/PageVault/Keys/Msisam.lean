import PageVault.Binary64
import PageVault.Cipher.Rc4
import PageVault.Digest.Algorithm
import PageVault.Keys.Jet
import PageVault.Text.Upper

/-!
# MSISAM keys

Newer files derive the key from a digest of the upper-case password and a salt,
and carry four check bytes to verify it.  Older files only scramble four bytes of
the header with other bytes of the header, so that anyone can read them; their key
then works like a Jet key.

§1 newer files · §2 older files.
-/

namespace PageVault.Msisam

def flagsOffset : Nat := 0x298

def saltOffset : Nat := 0x72

def flags (header : Bytes) : Except Error UInt8 :=
  Bytes.byteAt flagsOffset "MSISAM encryption flags" header

/-- Whether a file is of the newer kind. -/
def isNewer (flags : UInt8) : Bool :=
  flags &&& 0x06 != 0

/-! ## §1  Newer files -/

/-- Length of the field that a password is hashed in. -/
def passwordFieldLength : Nat := 0x28

def passwordDigestLength : Nat := 0x10

/-- How much of the salt goes into page keys. -/
def baseSaltLength : Nat := 4

structure Keys where
  /-- The password digest and the base salt. -/
  baseHash : Bytes
deriving DecidableEq

/-- The parameters of a page: its number goes into the salt part of the key. -/
def Keys.params (keys : Keys) (page : UInt32) : PageParams :=
  .ofKey (Bytes.withPageNumber passwordDigestLength page keys.baseHash)

/-- What the header of a newer file says about its password. -/
structure Lock where
  digest : HashAlgorithm
  textEncoding : TextEncoding
  salt : Bytes
  checkBytes : Bytes
deriving DecidableEq

namespace Lock

/-- The lock in a header.  The first byte of the salt says where the check bytes are. -/
def read (layout : Layout) (header : Bytes) : Except Error Lock := do
  let flags ← flags header
  let digest := if flags &&& 0x20 != 0 then HashAlgorithm.sha1 else HashAlgorithm.md5
  let salt ← Bytes.field saltOffset 8 "MSISAM salt" header
  let checkBytes ←
    Bytes.field (0x2E9 + (salt.headD 0).toNat) 4 "MSISAM password check bytes" header
  return { digest, textEncoding := layout.textEncoding, salt, checkBytes }

/-- The field that a password is hashed in: its upper case, in the text encoding of
the format, cut or padded with zeros.  No password fills it with zeros. -/
def passwordField (lock : Lock) : Option String → Bytes
  | some password =>
      Bytes.fit passwordFieldLength 0 (lock.textEncoding.encode (Text.upper password))
  | none => List.replicate passwordFieldLength 0

def passwordDigest (lock : Lock) (password : Option String) : Bytes :=
  lock.digest.hashToLength passwordDigestLength (lock.passwordField password)

def baseSalt (lock : Lock) : Bytes :=
  lock.salt.take baseSaltLength

/-- Whether a password digest fits.  Check bytes of zero fit every digest: the file
was saved without a password. -/
def accepts (lock : Lock) (digest : Bytes) : Bool :=
  Bytes.isBlank lock.checkBytes
    || Rc4.crypt (digest ++ lock.salt) lock.checkBytes == lock.baseSalt

def unlock (lock : Lock) (password : Option String) : Except Error Keys :=
  let digest := lock.passwordDigest password
  if lock.accepts digest then .ok ⟨digest ++ lock.baseSalt⟩ else .error .wrongPassword

end Lock

/-! ## §2  Older files -/

/-- `key` combined with data: byte `i` is shifted left by `i` modulo 24 bits first. -/
def combine (key : UInt32) (data : Bytes) : UInt32 :=
  data.zipIdx.foldl (fun k b => k ^^^ (b.1.toUInt32 <<< UInt32.ofNat (b.2 % 24))) key

/-- The four bytes that mask the old password field, if the format masks it: the
whole part of the creation date. -/
def dateMask (layout : Layout) (header : Bytes) : Except Error (Option Bytes) :=
  match layout.dateOffset with
  | none => .ok none
  | some offset => do
      let date ← Bytes.field offset.toNat 8 "header date" header
      return some (Bytes.ofNatLE 4 (Binary64.toWord32 (Bytes.toNatLE date)))

/-- A string with a mask repeated over its first `n` bytes. -/
def maskFront (mask : Bytes) (n : Nat) (b : Bytes) : Bytes :=
  Bytes.xor (b.take n) (Bytes.cycle mask n) ++ b.drop n

/-- A string with a mask repeated over its last `n` bytes. -/
def maskBack (mask : Bytes) (n : Nat) (b : Bytes) : Bytes :=
  let front := b.length - n
  b.take front ++ Bytes.xor (b.drop front) (Bytes.cycle mask n)

/-- The old password field without its masks: one over its first half, one over its
last twenty bytes. -/
def unmasked (size : Nat) (field : Bytes) : Option Bytes → Bytes
  | none => field
  | some mask => maskBack mask 20 (maskFront mask size field)

/-- The old password field of a header, as it is stored. -/
def oldPasswordField (layout : Layout) (header : Bytes) : Except Error Bytes :=
  let size := layout.passwordSize.toNat
  if size * 2 < UInt64.size then
    Bytes.field layout.passwordOffset.toNat (size * 2) "MSISAM password field" header
  else .error (.format (.passwordFieldOverflow size))

/-- The key of an older file: its salt, combined with every second byte of the old
password field and with the name of the engine. -/
def oldKey (layout : Layout) (header : Bytes) : Except Error JetKeys := do
  let salt ← Bytes.field saltOffset JetKeys.encodingKeyLength "MSISAM salt" header
  let field ← oldPasswordField layout header
  let mask ← dateMask layout header
  let name ←
    Bytes.field layout.engineNameOffset.toNat layout.engineNameLength.toNat "engine name" header
  let key := UInt32.ofNat (Bytes.toNatLE salt)
  let key := combine key (Bytes.everySecond (unmasked layout.passwordSize.toNat field mask))
  return ⟨Bytes.le32 (combine key name)⟩

end PageVault.Msisam
