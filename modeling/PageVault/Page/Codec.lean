import PageVault.Cipher.Spec
import PageVault.Keys.Agile
import PageVault.Keys.BinaryDocument
import PageVault.Keys.CryptoApi
import PageVault.Keys.Jet
import PageVault.Keys.Msisam
import PageVault.Keys.Standard
import PageVault.Page.KeyCache

/-!
# Coding pages

Once a file is open, a `Codec` turns stored pages into plain ones and back.  Page
zero, the header, is never encoded, and neither are pages past the last one that
the scheme encodes.  The parameters of the pages last used are remembered, and pages
are encoded in one buffer that is used again and again.

§1 schemes and keys · §2 the codec · §3 the handler of an open file.
-/

namespace PageVault

/-! ## §1  Schemes and keys -/

/-- What protects the pages of a file. -/
inductive Scheme where
  | plain
  /-- RC4 with a key in the header. -/
  | jet
  /-- RC4 with a password digest and a salt. -/
  | msisamModern
  /-- RC4 with a key made from the header. -/
  | msisamOld
  /-- AES on single blocks, after 50000 rounds of stretching. -/
  | officeStandard
  /-- AES on single blocks, without stretching. -/
  | officeNonStandard
  /-- RC4 with keys from SHA-1. -/
  | officeRc4CryptoApi
  /-- RC4 with keys from MD5. -/
  | officeBinaryRc4
  /-- A wrapped key and whatever cipher the descriptor names. -/
  | officeAgile
deriving DecidableEq

def Scheme.label : Scheme → String
  | plain => "Plain"
  | jet => "Jet"
  | msisamModern => "MsisamModern"
  | msisamOld => "MsisamOld"
  | officeStandard => "OfficeStandard"
  | officeNonStandard => "OfficeNonStandard"
  | officeRc4CryptoApi => "OfficeRc4CryptoApi"
  | officeBinaryRc4 => "OfficeBinaryRc4"
  | officeAgile => "OfficeAgile"

inductive PageKeys where
  | jet (keys : JetKeys)
  | msisam (keys : Msisam.Keys)
  | standard (keys : StandardKeys)
  | cryptoApi (keys : CryptoApiKeys)
  | binaryDocument (keys : BinaryDocumentKeys)
  | agile (keys : AgileKeys)
deriving DecidableEq

def PageKeys.params : PageKeys → UInt32 → PageParams
  | jet keys, page => keys.params page
  | msisam keys, page => keys.params page
  | standard keys, page => keys.params page
  | cryptoApi keys, page => keys.params page
  | binaryDocument keys, page => keys.params page
  | agile keys, page => keys.params page

/-- How a page is transformed with its parameters. -/
inductive PageTransform where
  /-- Combined with a keystream that starts with the page. -/
  | stream
  /-- As a whole, by a cipher with a chaining mode. -/
  | block (spec : CipherSpec)
deriving DecidableEq

def PageTransform.apply (t : PageTransform) (direction : Direction) (params : PageParams)
    (page : Bytes) : Except Error Bytes :=
  match t with
  | stream => .ok (Rc4.crypt params.key page)
  | block spec => spec.transform direction params.key params.iv page

/-! ## §2  The codec -/

def lastJetPage : UInt32 := 0x7FFFFFFF

def lastMsisamPage : UInt32 := 14

def lastOfficePage : UInt32 := 0xFFFFFFFF

/-- What is needed to code the pages of a file, and what is left of the pages coded
last. -/
structure Codec where
  scheme : Scheme
  keys : PageKeys
  transform : PageTransform
  lastPage : UInt32
  cache : KeyCache PageParams
  /-- The buffer that pages are encoded in. -/
  scratch : Bytes

namespace Codec

def fresh (scheme : Scheme) (keys : PageKeys) (transform : PageTransform) (lastPage : UInt32) :
    Codec :=
  ⟨scheme, keys, transform, lastPage, .empty, []⟩

def isEncoded (c : Codec) (page : UInt32) : Bool :=
  0 < page && page ≤ c.lastPage

/-- The transformed page, and the codec after it.  The parameters are remembered
even if the page cannot be transformed. -/
def apply (c : Codec) (direction : Direction) (page : UInt32) (data : Bytes) :
    Except Error Bytes × Codec :=
  let fetched := c.cache.getOrCompute page fun _ => c.keys.params page
  (c.transform.apply direction fetched.value data, { c with cache := fetched.cache })

/-- The page encoded in the scratch buffer, and the codec after it.  The buffer is
emptied, filled with the page and transformed in place; what it holds then is the
answer.  A page that cannot be encoded stays behind in the buffer. -/
def encodeInScratch (c : Codec) (page : UInt32) (data : Bytes) : Except Error Bytes × Codec :=
  let filled := c.scratch.take 0 ++ data
  let (result, c') := c.apply .encrypt page filled
  let written := InPlace.ofTransform filled result
  let c'' := { c' with scratch := written.buffer }
  (written.outcome.map fun _ => c''.scratch, c'')

end Codec

/-! ## §3  The handler of an open file -/

/-- What codes the pages of an open file. -/
inductive Handler where
  | plain
  | coded (codec : Codec)

namespace Handler

instance : Inhabited Handler := ⟨plain⟩

def scheme : Handler → Scheme
  | plain => .plain
  | coded c => c.scheme

def isEncoded : Handler → UInt32 → Bool
  | plain, _ => false
  | coded c, page => c.isEncoded page

/-- Whether pages are combined with a keystream, if with anything. -/
def isStream : Handler → Bool
  | plain => true
  | coded c => decide (c.transform = .stream)

/-- Whether a part of a page can be encoded without the rest. -/
def encodesPartialPages (h : Handler) : Bool :=
  h.isStream

/-- Whether pages are best decoded in the buffer they were read to. -/
def decodesInline (h : Handler) : Bool :=
  h.isStream

def describe (h : Handler) : String :=
  "CodecHandler \x7b scheme: " ++ h.scheme.label ++ ", .. \x7d"

/-- Decodes a page in its buffer.  A page that is not encoded stays as it is. -/
def decode (h : Handler) (page : UInt32) (buffer : Bytes) : InPlace × Handler :=
  match h with
  | plain => (⟨.ok (), buffer⟩, h)
  | coded c =>
      if c.isEncoded page then
        let (result, c') := c.apply .decrypt page buffer
        (.ofTransform buffer result, coded c')
      else (⟨.ok (), buffer⟩, h)

/-- Decodes a page to the front of another buffer, which has to have room for it.
The page is copied there first and decoded in place; the rest of the buffer is not
touched. -/
def decodeInto (h : Handler) (page : UInt32) (input output : Bytes) : InPlace × Handler :=
  if output.length < input.length then
    (⟨.error (.format (.outputTooShort output.length input.length)), output⟩, h)
  else
    let (decoded, h') := h.decode page input
    (⟨decoded.outcome, decoded.buffer ++ output.drop input.length⟩, h')

/-- The encoded form of a page, or of the front part of one.  `offset` is where the
first modified byte is; it only has to lie within what is given. -/
def encode (h : Handler) (page : UInt32) (data : Bytes) (offset : Nat) :
    Except Error Bytes × Handler :=
  match h with
  | plain => (.ok data, h)
  | coded c =>
      if c.isEncoded page then
        if data.length < offset then
          (.error (.format (.offsetPastPage offset data.length)), h)
        else
          let (result, c') := c.encodeInScratch page data
          (result, coded c')
      else (.ok data, h)

end Handler

end PageVault
