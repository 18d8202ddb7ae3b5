import PageVault.Page.Codec
import PageVault.Password

/-!
# Opening a file

The header page decides the scheme, and the password, where one is needed, decides
whether the file opens.  The password is asked for as late as possible: after the
scheme is known, and only if it uses one.  Every way of opening a file returns the
source of the password along with the outcome, so that it can be used again.

§1 Jet and MSISAM · §2 office files · §3 all of them.
-/

namespace PageVault

/-- What an attempt to open a file leaves behind: its outcome, and what is now
known about the password. -/
structure Attempt where
  outcome : Except Error Handler
  source : PasswordSource

/-! ## §1  Jet and MSISAM -/

def openJet (header : Bytes) (layout : Layout) : Except Error Handler := do
  let key ← layout.encodingKey "Jet encoding key" header
  if Bytes.isBlank key then return .plain
  else return .coded (.fresh .jet (.jet ⟨key⟩) .stream lastJetPage)

def openOldMsisam (header : Bytes) (layout : Layout) : Except Error Handler := do
  let keys ← Msisam.oldKey layout header
  return .coded (.fresh .msisamOld (.jet keys) .stream lastMsisamPage)

def modernMsisamHandler (keys : Msisam.Keys) : Handler :=
  .coded (.fresh .msisamModern (.msisam keys) .stream lastMsisamPage)

/-- Opens an MSISAM file.  Only newer files need the password. -/
def openMsisam (source : PasswordSource) (header : Bytes) (layout : Layout) : Attempt :=
  match Msisam.flags header with
  | .error e => ⟨.error e, source⟩
  | .ok flags =>
      if Msisam.isNewer flags then
        match Msisam.Lock.read layout header with
        | .error e => ⟨.error e, source⟩
        | .ok lock =>
            let (password, source') := source.get
            ⟨(lock.unlock password).map modernMsisamHandler, source'⟩
      else ⟨openOldMsisam header layout, source⟩

/-! ## §2  Office files -/

def infoOffset : Nat := 0x299

def passwordUnits : Nat := 255

/-- What is hashed of a password: its first units as bytes.  No password is the
empty one. -/
def passwordBytes : Option String → Bytes
  | some password => Text.Utf16.toBytes ((Text.Utf16.encode password.toList).take passwordUnits)
  | none => []

/-- The encryption info of a header; its length is a signed 16-bit number. -/
def encryptionInfo (header : Bytes) : Except Error Bytes := do
  let b ← Bytes.field infoOffset 2 "encryption info length" header
  let n := Bytes.toNatLE b
  if n < 0x8000 then Bytes.field (infoOffset + 2) n "encryption info" header
  else .error (.format (.negativeInfoLength ((n : Int) - 0x10000)))

/-- The version numbers in front of the encryption info. -/
def infoVersion : Reading (UInt16 × UInt16) := do
  let major ← Reading.word16 "EncryptionVersionInfo.major"
  let minor ← Reading.word16 "EncryptionVersionInfo.minor"
  return (major, minor)

/-- What an office file says about its password. -/
inductive OfficeLock where
  | standard (scheme : Scheme) (lock : StandardLock)
  | cryptoApi (lock : CryptoApiLock)
  | binaryDocument (lock : BinaryDocumentLock)
  | agile (lock : AgileLock)
deriving DecidableEq

namespace OfficeLock

def unlock (lock : OfficeLock) (password : Bytes) : Except Error Codec :=
  match lock with
  | standard scheme lock =>
      (lock.unlock password).map fun keys =>
        .fresh scheme (.standard keys) (.block .aesEcb) lastOfficePage
  | cryptoApi lock =>
      (lock.unlock password).map fun keys =>
        .fresh .officeRc4CryptoApi (.cryptoApi keys) .stream lastOfficePage
  | binaryDocument lock =>
      (lock.unlock password).map fun keys =>
        .fresh .officeBinaryRc4 (.binaryDocument keys) .stream lastOfficePage
  | agile lock =>
      (lock.unlock password).map fun keys =>
        .fresh .officeAgile (.agile keys) (.block lock.pageSuite.spec) lastOfficePage

/-- The lock of a file that claims RC4.  If its header is readable but does not fit
RC4, it is read again as a standard one without stretching; if it does not fit that
either, the first reason counts. -/
def readCryptoApi (encodingKey : Bytes) : Reading OfficeLock := fun c =>
  match CryptoApiLock.read encodingKey c with
  | (.ok lock, c') => (.ok (.cryptoApi lock), c')
  | (.error (.configuration fault), _) =>
      match StandardLock.read encodingKey 0 c with
      | (.ok lock, c') => (.ok (.standard .officeNonStandard lock), c')
      | (.error _, c') => (.error (.configuration fault), c')
  | (.error e, c') => (.error e, c')

/-- The lock behind a version with minor number two; its flags choose the provider. -/
def readFlagged (encodingKey : Bytes) (major minor : UInt16) : Reading OfficeLock := do
  let flags : HeaderFlags ← Reading.word32 "EncryptionInfo.flags"
  if !flags.cryptoApi then Reading.fail (.unsupported (.version major minor))
  else if flags.isExternal then Reading.fail (.unsupported (.externallyManaged flags))
  else if flags.aes then
    return .standard .officeStandard (← StandardLock.read encodingKey StandardLock.standardRounds)
  else readCryptoApi encodingKey

/-- The lock behind a version, which chooses the provider. -/
def read (encodingKey : Bytes) (spinLimit : UInt32) (major minor : UInt16) : Reading OfficeLock :=
  if major = 4 ∧ minor = 4 then return .agile (← AgileLock.read encodingKey spinLimit)
  else if major = 1 ∧ minor = 1 then return .binaryDocument (← BinaryDocumentLock.read encodingKey)
  else if (major = 3 ∨ major = 4) ∧ minor = 3 then Reading.fail (.unsupported .extensible)
  else if (2 ≤ major ∧ major ≤ 4) ∧ minor = 2 then readFlagged encodingKey major minor
  else Reading.fail (.unsupported (.version major minor))

end OfficeLock

/-- The encryption info of an office file, up to where its provider begins. -/
structure OfficeInfo where
  encodingKey : Bytes
  major : UInt16
  minor : UInt16
  /-- Behind the version numbers. -/
  cursor : Cursor

/-- The encryption info of a header; there is none if the encoding key is blank. -/
def readOfficeInfo (header : Bytes) (layout : Layout) : Except Error (Option OfficeInfo) := do
  let encodingKey ← layout.encodingKey "Office encoding key" header
  if Bytes.isBlank encodingKey then return none
  else
    let info ← encryptionInfo header
    match infoVersion (.start info) with
    | (.ok (major, minor), cursor) => return some { encodingKey, major, minor, cursor }
    | (.error e, _) => .error e

/-- Opens an office file whose provider has been found. -/
def OfficeInfo.unlock (info : OfficeInfo) (spinLimit : UInt32) (password : Option String) :
    Except Error Handler := do
  let lock ← (OfficeLock.read info.encodingKey spinLimit info.major info.minor info.cursor).1
  let codec ← lock.unlock (passwordBytes password)
  return .coded codec

/-- Opens an office file.  The password is asked for once the version is known. -/
def openOffice (source : PasswordSource) (header : Bytes) (layout : Layout)
    (spinLimit : UInt32) : Attempt :=
  match readOfficeInfo header layout with
  | .error e => ⟨.error e, source⟩
  | .ok none => ⟨.ok .plain, source⟩
  | .ok (some info) =>
      let (password, source') := source.get
      ⟨info.unlock spinLimit password, source'⟩

/-! ## §3  All of them -/

/-- How many rounds of stretching an agile file may ask for, if the caller does not say. -/
def defaultSpinLimit : UInt32 := 10000000

def openFile (source : PasswordSource) (header : Bytes) (layout : Layout)
    (spinLimit : UInt32) : Attempt :=
  match layout.family with
  | .none => ⟨.ok .plain, source⟩
  | .jet => ⟨openJet header layout, source⟩
  | .msisam => openMsisam source header layout
  | .office => openOffice source header layout spinLimit

end PageVault
