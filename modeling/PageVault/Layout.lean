import PageVault.Bytes
import PageVault.Text.Utf16

/-!
# Header layouts

Where the header page of a database keeps the fields that decide how its pages
are stored.  The layouts of the formats in use are given as values; a host with
formats of its own fills in the fields itself, so they are arbitrary 64-bit
numbers.
-/

namespace PageVault

inductive CodecFamily where
  | none
  | jet
  | msisam
  | office
deriving DecidableEq, Inhabited

namespace CodecFamily

def all : List CodecFamily :=
  [none, jet, msisam, office]

def label : CodecFamily → String
  | none => "None"
  | jet => "Jet"
  | msisam => "Msisam"
  | office => "Office"

end CodecFamily

/-- How text is stored in a header. -/
inductive TextEncoding where
  /-- One byte a character; what has no byte is stored as a question mark. -/
  | singleByte
  /-- Two or four bytes a character. -/
  | utf16
deriving DecidableEq, Inhabited

namespace TextEncoding

def all : List TextEncoding :=
  [singleByte, utf16]

def label : TextEncoding → String
  | singleByte => "SingleByte"
  | utf16 => "Utf16Le"

/-- The byte of a character, as far as there is one. -/
def byteOf (c : Char) : UInt8 :=
  if c.toNat < 0x100 then UInt8.ofNat c.toNat else 0x3F

def encode : TextEncoding → String → Bytes
  | singleByte, s => s.toList.map byteOf
  | utf16, s => Text.Utf16.bytesOf s

end TextEncoding

/-- Offsets and sizes in the header page. -/
structure Layout where
  family : CodecFamily
  pageSize : UInt64
  encodingKeyOffset : UInt64
  passwordOffset : UInt64
  /-- Length of the old password field in characters. -/
  passwordSize : UInt64
  /-- Where the creation date is, if it masks the old password field. -/
  dateOffset : Option UInt64
  engineNameOffset : UInt64
  engineNameLength : UInt64
  textEncoding : TextEncoding
deriving DecidableEq

namespace Layout

def jet3 : Layout where
  family := .jet
  pageSize := 2048
  encodingKeyOffset := 0x3E
  passwordOffset := 0x42
  passwordSize := 20
  dateOffset := none
  engineNameOffset := 0x04
  engineNameLength := 0x0F
  textEncoding := .singleByte

def jet4 : Layout where
  family := .jet
  pageSize := 4096
  encodingKeyOffset := 0x3E
  passwordOffset := 0x42
  passwordSize := 40
  dateOffset := some 0x72
  engineNameOffset := 0x04
  engineNameLength := 0x0F
  textEncoding := .utf16

/-- MSISAM files, laid out like Jet 4. -/
def msisam : Layout :=
  { jet4 with family := .msisam }

/-- ACCDB files, laid out like Jet 4. -/
def accdb : Layout :=
  { jet4 with family := .office }

/-- Files whose pages are never encoded. -/
def unencrypted (pageSize : UInt64) : Layout :=
  { jet4 with family := .none, pageSize := pageSize }

end Layout

end PageVault
