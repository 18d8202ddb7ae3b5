import PageVault.Algorithm
import PageVault.Text.Numeral
import PageVault.Text.Quoted

/-!
# Errors

Opening a file or coding a page fails for one of four reasons: the bytes are
truncated or malformed (`FormatFault`), they are well formed but name parameters
that do not fit together (`ConfigurationFault`), they name a scheme that is not
handled here (`UnsupportedFault`), or the password does not match.  Every cause
is a constructor with the data its text mentions; the wording is in one place,
`Error.message`.
-/

namespace PageVault

/-- The bytes are truncated or malformed, or a page call misuses its buffers. -/
inductive FormatFault where
  /-- A field reaches past the end of the bytes. -/
  | truncated (field : String)
  /-- A cursor is moved past the end of its bytes. -/
  | seekPastEnd (position size : Nat)
  /-- A buffer does not consist of whole blocks. -/
  | partialBlock (length : Nat) (cipher : CipherAlgorithm)
  /-- An output buffer is shorter than the page. -/
  | outputTooShort (output page : Nat)
  /-- The first modified byte lies past the end of the page. -/
  | offsetPastPage (offset page : Nat)
  /-- Twice the number of password characters does not fit 64 bits. -/
  | passwordFieldOverflow (characters : Nat)
  /-- The stored length of the encryption info is negative. -/
  | negativeInfoLength (length : Int)
  /-- The reserved word of an agile file has an unexpected value. -/
  | unexpectedReserved (value : UInt32)
  | descriptorNotText
  /-- The markup of the descriptor is malformed, as the reader of XML reports it. -/
  | descriptorMarkup
  /-- An attribute of the descriptor is malformed, as the reader of XML reports it. -/
  | descriptorAttribute
  | descriptorWithoutRoot
deriving DecidableEq

/-- Parameters that are unknown or do not fit together. -/
inductive ConfigurationFault where
  /-- A descriptor name that stands for no algorithm. -/
  | unknownName (name : String)
  /-- A key of a length the cipher does not take. -/
  | keyLength (cipher : CipherAlgorithm) (length : Nat)
  /-- An initialisation vector of the wrong length. -/
  | vectorLength (expected actual : Nat)
  /-- A mode that needs an initialisation vector got none. -/
  | vectorMissing
  /-- A header cipher that the provider does not take. -/
  | cipherRefused (found : HeaderCipher) (accepted : List HeaderCipher)
  /-- A header digest that the provider does not take. -/
  | hashRefused (found : HeaderHash) (accepted : List HeaderHash)
  /-- A key size outside the range of its cipher. -/
  | keySizeRange (bits : UInt32) (cipher : HeaderCipher)
  | keySizeFraction (bits : UInt32)
  | saltSize (size : UInt32)
  /-- The outermost element of a descriptor has the wrong name. -/
  | unexpectedRoot (name : String)
  /-- An element or attribute that has to be present is not. -/
  | missingEntry (entry parent : String)
  | notANumber (element entry value : String)
  | notBase64 (element entry : String)
  | spinCount (count limit : UInt32)
  /-- A descriptor key size that its cipher does not take. -/
  | descriptorKeyBits (element : String) (bits : UInt32) (cipher : CipherAlgorithm)
  /-- A descriptor block size that is not the one of its cipher. -/
  | descriptorBlockSize (element : String) (size : UInt32) (cipher : CipherAlgorithm)
  /-- The unwrapped key is shorter than pages need. -/
  | shortKeyValue (length needed : Nat)
deriving DecidableEq

/-- Schemes that are recognised but not handled. -/
inductive UnsupportedFault where
  /-- An authenticated mode, which would need a tag beside each page. -/
  | authenticatedMode (mode : ChainingMode)
  /-- A chaining mode asked of a stream cipher. -/
  | chainedStream (mode : ChainingMode)
  | extensible
  | externallyManaged (flags : UInt32)
  /-- A pair of version numbers that selects no provider. -/
  | version (major minor : UInt16)
  /-- A cipher number that means nothing under the given flags. -/
  | cipherNumber (number flags : UInt32)
  /-- A digest number that means nothing under the given flags. -/
  | hashNumber (number flags : UInt32)
  /-- A kind of key encryptor that is not known. -/
  | keyEncryptorKind (uri : String)
  /-- No key encryptor, several, or one that is not for a password. -/
  | keyEncryptorChoice
deriving DecidableEq

/-- Why a file could not be opened or a page could not be coded. -/
inductive Error where
  | format (fault : FormatFault)
  | configuration (fault : ConfigurationFault)
  | unsupported (fault : UnsupportedFault)
  | wrongPassword
deriving DecidableEq

/-- What a host can tell its user. -/
inductive ErrorKind where
  /-- The file is damaged, or its parameters are out of range. -/
  | structural
  /-- The file is sound, but its scheme is not handled. -/
  | unsupportedScheme
  /-- Another password may open the file. -/
  | invalidCredentials
deriving DecidableEq

open Text (decimal hex quoted signedDecimal)

/-- The wording of a fault.  The reader of XML ends its messages with a text of its own for what
is wrong; `descriptorMarkup` and `descriptorAttribute` drop that text and keep the words in front
of it. -/
def FormatFault.message : FormatFault → String
  | truncated field => "truncated data while reading " ++ field
  | seekPastEnd position size =>
      "position " ++ decimal position ++ " is past the end of a " ++ decimal size
        ++ "-byte buffer"
  | partialBlock length cipher =>
      decimal length ++ " byte buffer is not a multiple of the " ++ cipher.label
        ++ " block size (" ++ decimal cipher.blockSize ++ ")"
  | outputTooShort output page =>
      "output buffer of " ++ decimal output ++ " bytes cannot hold a " ++ decimal page
        ++ "-byte page"
  | offsetPastPage offset page =>
      "page offset " ++ decimal offset ++ " is past the end of a " ++ decimal page
        ++ "-byte page"
  | passwordFieldOverflow characters =>
      "MSISAM password field size " ++ decimal characters ++ " overflows"
  | negativeInfoLength length =>
      "negative encryption info length " ++ signedDecimal length
  | unexpectedReserved value => "unexpected Agile reserved value " ++ hex value.toNat
  | descriptorNotText => "encryption descriptor XML is not valid UTF-8"
  | descriptorMarkup => "encryption descriptor XML parse error"
  | descriptorAttribute => "invalid XML attribute"
  | descriptorWithoutRoot => "encryption descriptor has no root element"

/-- Labels in square brackets, separated by commas. -/
def bracketed (labels : List String) : String :=
  "[" ++ ", ".intercalate labels ++ "]"

/-- The text of a configuration fault.  A key that does not fit DES is reported
without the name of the cipher. -/
def ConfigurationFault.message : ConfigurationFault → String
  | unknownName name => "unsupported encryption parameter: " ++ name
  | keyLength .des length => "invalid key length: " ++ decimal length ++ " bytes"
  | keyLength cipher length =>
      "invalid " ++ cipher.label ++ " key length: " ++ decimal length ++ " bytes"
  | vectorLength expected actual =>
      "initialisation vector must be " ++ decimal expected ++ " bytes, got " ++ decimal actual
  | vectorMissing => "chaining mode requires an initialisation vector"
  | cipherRefused found accepted =>
      "crypto algorithm " ++ found.label ++ " must be one of "
        ++ bracketed (accepted.map HeaderCipher.label)
  | hashRefused found accepted =>
      "hash algorithm " ++ found.label ++ " must be one of "
        ++ bracketed (accepted.map HeaderHash.label)
  | keySizeRange bits cipher =>
      "key size " ++ decimal bits.toNat ++ " is outside the allowable range "
        ++ decimal cipher.leastKeyBits.toNat ++ "..=" ++ decimal cipher.greatestKeyBits.toNat
        ++ " for " ++ cipher.label
  | keySizeFraction bits => "key size " ++ decimal bits.toNat ++ " must be a multiple of 8"
  | saltSize size => "salt size " ++ decimal size.toNat ++ " must be 16"
  | unexpectedRoot name => "unexpected xml config root element " ++ name
  | missingEntry entry parent =>
      "could not find xml config " ++ entry ++ " under " ++ parent
  | notANumber element entry value =>
      element ++ "." ++ entry ++ " is not a valid number: " ++ quoted value
  | notBase64 element entry => element ++ "." ++ entry ++ " is not valid base64"
  | spinCount count limit =>
      "spinCount " ++ decimal count.toNat ++ " exceeds the limit of " ++ decimal limit.toNat
  | descriptorKeyBits element bits cipher =>
      element ++ ".keyBits " ++ decimal bits.toNat ++ " is not a valid " ++ cipher.label
        ++ " key size"
  | descriptorBlockSize element size cipher =>
      element ++ ".blockSize " ++ decimal size.toNat ++ " does not match the " ++ cipher.label
        ++ " block size " ++ decimal cipher.blockSize
  | shortKeyValue length needed =>
      "decrypted key value has " ++ decimal length ++ " bytes, keyData needs "
        ++ decimal needed

def UnsupportedFault.message : UnsupportedFault → String
  | authenticatedMode mode =>
      "authenticated chaining mode " ++ mode.label ++ " cannot transform pages without a tag"
  | chainedStream mode =>
      "stream cipher RC4 cannot be combined with " ++ mode.label ++ " chaining"
  | extensible => "Extensible encryption provider is not supported"
  | externallyManaged flags =>
      "externally managed encryption (flags " ++ hex flags.toNat ++ ") is not supported"
  | version major minor =>
      "Unsupported office encryption provider: vMajor " ++ decimal major.toNat
        ++ ", vMinor " ++ decimal minor.toNat
  | cipherNumber number flags =>
      "unsupported encryption algorithm " ++ hex number.toNat ++ " (flags "
        ++ hex flags.toNat ++ ")"
  | hashNumber number flags =>
      "unsupported hash algorithm " ++ hex number.toNat ++ " (flags " ++ hex flags.toNat ++ ")"
  | keyEncryptorKind uri => "unsupported keyEncryptor uri " ++ uri
  | keyEncryptorChoice => "missing or unexpected key encryptor"

namespace Error

/-- A field that reaches past the end of its bytes. -/
abbrev truncated (field : String) : Error := .format (.truncated field)

def message : Error → String
  | format fault => "invalid format: " ++ fault.message
  | configuration fault => "invalid crypto configuration: " ++ fault.message
  | unsupported fault => "unsupported encryption: " ++ fault.message
  | wrongPassword => "incorrect password provided"

/-- The coarse classification of an error. -/
def kind : Error → ErrorKind
  | format _ => .structural
  | configuration _ => .structural
  | unsupported _ => .unsupportedScheme
  | wrongPassword => .invalidCredentials

end Error

/-! ## Names that stand for an algorithm -/

/-- The digest with the given descriptor name, or the reason why there is none. -/
def HashAlgorithm.resolve (name : String) : Except Error HashAlgorithm :=
  match named? name with
  | some a => .ok a
  | none => .error (.configuration (.unknownName name))

/-- The cipher with the given descriptor name, or the reason why there is none. -/
def CipherAlgorithm.resolve (name : String) : Except Error CipherAlgorithm :=
  match named? name with
  | some a => .ok a
  | none => .error (.configuration (.unknownName name))

/-- The mode with the given descriptor name, or the reason why there is none. -/
def ChainingMode.resolve (name : String) : Except Error ChainingMode :=
  match named? name with
  | some a => .ok a
  | none => .error (.configuration (.unknownName name))

end PageVault
