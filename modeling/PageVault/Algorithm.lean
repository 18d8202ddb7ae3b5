import PageVault.Text.Blank
import PageVault.Text.Upper

/-!
# Algorithms

What a file may name: a digest, a cipher and a chaining mode in the descriptor
of an agile file, and a cipher and a digest in the binary header of the others.
Each is an enumeration; its sizes are functions on it, and `label` is the word
that messages use for it.

Descriptor names are matched up to letter case, hyphens, underscores and the
white space around them (`nameKey`), so `sha-256`, `SHA_256` and ` SHA256 ` are
one name.

§1 names · §2 digests · §3 ciphers · §4 chaining modes · §5 the binary header.
-/

namespace PageVault

/-! ## §1  Names -/

/-- What two spellings of a name have in common: the text without the white space
around it and without hyphens and underscores, in upper case, and with an
underscore in front if it would otherwise start with a digit. -/
def nameKey (name : List Char) : List Char :=
  let bare := (Text.trimChars name).filter fun c => !(c == '-' || c == '_')
  match Text.upperChars bare with
  | [] => []
  | c :: cs => if c.isDigit then '_' :: c :: cs else c :: cs

@[inherit_doc nameKey]
def normalizedName (name : String) : String :=
  String.ofList (nameKey name.toList)

/-! ## §2  Digests -/

inductive HashAlgorithm where
  | sha1
  | sha256
  | sha384
  | sha512
  | md5
  | md4
  | md2
  | ripemd128
  | ripemd160
  | whirlpool
deriving DecidableEq, Inhabited

namespace HashAlgorithm

def all : List HashAlgorithm :=
  [sha1, sha256, sha384, sha512, md5, md4, md2, ripemd128, ripemd160, whirlpool]

def label : HashAlgorithm → String
  | sha1 => "Sha1"
  | sha256 => "Sha256"
  | sha384 => "Sha384"
  | sha512 => "Sha512"
  | md5 => "Md5"
  | md4 => "Md4"
  | md2 => "Md2"
  | ripemd128 => "Ripemd128"
  | ripemd160 => "Ripemd160"
  | whirlpool => "Whirlpool"

def digestLength : HashAlgorithm → Nat
  | sha1 => 20
  | sha256 => 32
  | sha384 => 48
  | sha512 => 64
  | md5 => 16
  | md4 => 16
  | md2 => 16
  | ripemd128 => 16
  | ripemd160 => 20
  | whirlpool => 64

def key : HashAlgorithm → String
  | sha1 => "SHA1"
  | sha256 => "SHA256"
  | sha384 => "SHA384"
  | sha512 => "SHA512"
  | md5 => "MD5"
  | md4 => "MD4"
  | md2 => "MD2"
  | ripemd128 => "RIPEMD128"
  | ripemd160 => "RIPEMD160"
  | whirlpool => "WHIRLPOOL"

def named? (name : String) : Option HashAlgorithm :=
  all.find? fun a => a.key == normalizedName name

theorem mem_all (a : HashAlgorithm) : a ∈ all := by
  cases a <;> decide

theorem digestLength_pos (a : HashAlgorithm) : 0 < a.digestLength := by
  cases a <;> decide

end HashAlgorithm

/-! ## §3  Ciphers -/

/-- The ciphers a descriptor can name.  The two triple-DES names stand for the
same cipher, with two or with three independent keys. -/
inductive CipherAlgorithm where
  | aes
  | rc2
  | rc4
  | des
  | tripleDes
  | tripleDes112
deriving DecidableEq, Inhabited

namespace CipherAlgorithm

def all : List CipherAlgorithm :=
  [aes, rc2, rc4, des, tripleDes, tripleDes112]

def label : CipherAlgorithm → String
  | aes => "Aes"
  | rc2 => "Rc2"
  | rc4 => "Rc4"
  | des => "Des"
  | tripleDes => "TripleDes"
  | tripleDes112 => "TripleDes112"

def key : CipherAlgorithm → String
  | aes => "AES"
  | rc2 => "RC2"
  | rc4 => "RC4"
  | des => "DES"
  | tripleDes => "_3DES"
  | tripleDes112 => "_3DES112"

def named? (name : String) : Option CipherAlgorithm :=
  all.find? fun a => a.key == normalizedName name

/-- Block size in bytes.  RC4 has no blocks; its nominal size only sets the
length of initialisation vectors and of padding. -/
def blockSize : CipherAlgorithm → Nat
  | aes => 16
  | rc4 => 16
  | rc2 => 8
  | des => 8
  | tripleDes => 8
  | tripleDes112 => 8

def supportsKeyLength : CipherAlgorithm → (len : Nat) → Bool
  | aes, len => len == 16 || len == 24 || len == 32
  | des, len => len == 8
  | tripleDes, len => len == 16 || len == 24
  | tripleDes112, len => len == 16 || len == 24
  | rc2, len => 1 ≤ len && len ≤ 128
  | rc4, len => 1 ≤ len && len ≤ 256

theorem mem_all (a : CipherAlgorithm) : a ∈ all := by
  cases a <;> decide

theorem blockSize_pos (a : CipherAlgorithm) : 0 < a.blockSize := by
  cases a <;> decide

end CipherAlgorithm

/-! ## §4  Chaining modes -/

/-- The chaining modes a descriptor can name.  Cipher feedback is the 8-bit
variant. -/
inductive ChainingMode where
  | ecb
  | cbc
  | cfb
  | ccm
  | gcm
deriving DecidableEq, Inhabited

namespace ChainingMode

def all : List ChainingMode :=
  [ecb, cbc, cfb, ccm, gcm]

def label : ChainingMode → String
  | ecb => "Ecb"
  | cbc => "Cbc"
  | cfb => "Cfb"
  | ccm => "Ccm"
  | gcm => "Gcm"

def key : ChainingMode → String
  | ecb => "CHAININGMODEECB"
  | cbc => "CHAININGMODECBC"
  | cfb => "CHAININGMODECFB"
  | ccm => "CHAININGMODECCM"
  | gcm => "CHAININGMODEGCM"

def named? (name : String) : Option ChainingMode :=
  all.find? fun a => a.key == normalizedName name

theorem mem_all (a : ChainingMode) : a ∈ all := by
  cases a <;> decide

end ChainingMode

/-! ## §5  The binary header -/

/-- The cipher of a binary header; `external` leaves the choice to a provider
outside the file. -/
inductive HeaderCipher where
  | external
  | rc4
  | aes128
  | aes192
  | aes256
deriving DecidableEq, Inhabited

namespace HeaderCipher

def all : List HeaderCipher :=
  [external, rc4, aes128, aes192, aes256]

def label : HeaderCipher → String
  | external => "External"
  | rc4 => "Rc4"
  | aes128 => "Aes128"
  | aes192 => "Aes192"
  | aes256 => "Aes256"

/-- Length of the encrypted verifier hash that follows the verifier. -/
def verifierHashLength : HeaderCipher → Nat
  | external => 0
  | rc4 => 20
  | aes128 => 32
  | aes192 => 32
  | aes256 => 32

def leastKeyBits : HeaderCipher → UInt32
  | external => 0
  | rc4 => 0x28
  | aes128 => 0x80
  | aes192 => 0xC0
  | aes256 => 0x100

def greatestKeyBits : HeaderCipher → UInt32
  | external => 0
  | rc4 => 0x200
  | aes128 => 0x80
  | aes192 => 0xC0
  | aes256 => 0x100

end HeaderCipher

inductive HeaderHash where
  | external
  | sha1
deriving DecidableEq, Inhabited

namespace HeaderHash

def all : List HeaderHash :=
  [external, sha1]

def label : HeaderHash → String
  | external => "External"
  | sha1 => "Sha1"

end HeaderHash

end PageVault
