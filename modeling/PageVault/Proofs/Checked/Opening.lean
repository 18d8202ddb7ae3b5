import PageVault.Proofs.Checked.Calls
import PageVault.Proofs.Checked.Msisam
import PageVault.Proofs.Keys.Unlocking

/-!
# Files are opened and used within bounds

Whatever a header page holds, and wherever the format says that its fields are, no step of
opening the file or of a later page call is trapped: opening a file on a machine with bounds
comes to the attempt that `openFile` makes, and page calls in a row to the answers of
`Handler.run`.  All that is asked is that the machine can hold the header page, and the
password in the upper case that it is used in: neither is longer than `maxLength`.

§1 files without a password · §2 office files · §3 all of them.
-/

namespace PageVault

namespace Checked

/-! ## §1  Files without a password -/

def openJet (header : Bytes) (layout : Layout) : Checked Handler := do
  let key ← field layout.encodingKeyOffset.toNat JetKeys.encodingKeyLength "Jet encoding key"
    header
  if Bytes.isBlank key then return .plain
  else return .coded (.fresh .jet (.jet ⟨key⟩) .stream lastJetPage)

def openOldMsisam (header : Bytes) (layout : Layout) : Checked Handler := do
  let keys ← oldKey layout header
  return .coded (.fresh .msisamOld (.jet keys) .stream lastMsisamPage)

def openModernMsisam (lock : Msisam.Lock) (password : Option String) : Checked Handler := do
  let keys ← unlockMsisam lock password
  return modernMsisamHandler keys

def openMsisam (source : PasswordSource) (header : Bytes) (layout : Layout) :
    Checked Attempt :=
  match Msisam.flags header with
  | .error e => .ok ⟨.error e, source⟩
  | .ok flags => do
      if Msisam.isNewer flags then
        match ← outcome (readMsisam layout header) with
        | .error e => return ⟨.error e, source⟩
        | .ok lock =>
            let (password, source') := source.get
            let result ← outcome (openModernMsisam lock password)
            return ⟨result, source'⟩
      else
        let result ← outcome (openOldMsisam header layout)
        return ⟨result, source⟩

variable {header : Bytes}

theorem refines_openJet (hh : header.length ≤ maxLength) (layout : Layout) :
    Refines (openJet header layout) (PageVault.openJet header layout) := by
  refine (refines_field hh _ _ _).bind fun key _ => ?_
  exact Refines.ite (fun _ => refines_ok _) (fun _ => refines_ok _)

theorem refines_openOldMsisam (hh : header.length ≤ maxLength) (layout : Layout) :
    Refines (openOldMsisam header layout) (PageVault.openOldMsisam header layout) :=
  (refines_oldKey hh layout).bind fun _ _ => refines_ok _

theorem openMsisam_eq {source : PasswordSource} (hh : header.length ≤ maxLength)
    (hp : ∀ text, source.get.1 = some text → (Text.upper text).utf8ByteSize ≤ maxLength)
    (layout : Layout) :
    openMsisam source header layout = .ok (PageVault.openMsisam source header layout) := by
  unfold openMsisam PageVault.openMsisam
  cases Msisam.flags header with
  | error e => rfl
  | ok flags =>
      dsimp only
      by_cases hn : Msisam.isNewer flags = true
      · simp only [hn, if_true]
        rw [(refines_readMsisam hh layout).outcome_eq, ok_bind]
        cases hr : Msisam.Lock.read layout header with
        | error e => rfl
        | ok lock =>
            have hu : Refines (openModernMsisam lock source.get.1)
                ((lock.unlock source.get.1).map modernMsisamHandler) :=
              (refines_unlockMsisam (length_salt_of_read hr) hp).map fun _ _ => rfl
            dsimp only
            rw [hu.outcome_eq, ok_bind]
            rfl
      · simp only [hn]
        rw [(refines_openOldMsisam hh layout).outcome_eq, ok_bind]
        rfl

/-! ## §2  Office files -/

def encryptionInfo (header : Bytes) : Checked Bytes := do
  let b ← field infoOffset 2 "encryption info length" header
  let low ← byte b 0
  let high ← byte b 1
  let n := Bytes.toNatLE [low, high]
  if n < 0x8000 then do
    let start ← add wordBits infoOffset 2
    field start n "encryption info" header
  else refuse (.format (.negativeInfoLength ((n : Int) - 0x10000)))

def infoVersion : Reader (UInt16 × UInt16) := do
  let major ← Reader.word16 "EncryptionVersionInfo.major"
  let minor ← Reader.word16 "EncryptionVersionInfo.minor"
  return (major, minor)

def readOfficeInfo (header : Bytes) (layout : Layout) : Checked (Option OfficeInfo) := do
  let encodingKey ← field layout.encodingKeyOffset.toNat JetKeys.encodingKeyLength
    "Office encoding key" header
  if Bytes.isBlank encodingKey then return none
  else
    let info ← encryptionInfo header
    match infoVersion (.start info) with
    | (.ok (major, minor), cursor) => return some { encodingKey, major, minor, cursor }
    | (.error stop, _) => .error stop

def unlockInfo (info : OfficeInfo) (spinLimit : UInt32) (password : Option String) :
    Checked Handler := do
  let lock ← (readOffice info.encodingKey spinLimit info.major info.minor info.cursor).1
  let codec ← unlockOffice lock (passwordBytes password)
  return .coded codec

def openOffice (source : PasswordSource) (header : Bytes) (layout : Layout)
    (spinLimit : UInt32) : Checked Attempt := do
  match ← outcome (readOfficeInfo header layout) with
  | .error e => return ⟨.error e, source⟩
  | .ok none => return ⟨.ok .plain, source⟩
  | .ok (some info) =>
      let (password, source') := source.get
      let result ← outcome (unlockInfo info spinLimit password)
      return ⟨result, source'⟩

theorem refines_encryptionInfo (hh : header.length ≤ maxLength) :
    Refines (encryptionInfo header) (PageVault.encryptionInfo header) := by
  refine (refines_field hh _ _ _).bind fun b hb => ?_
  obtain ⟨low, high, rfl⟩ := List.length_eq_two.mp (length_of_field_eq_ok hb)
  exact Refines.ite (fun _ => refines_field hh _ _ _) (fun _ => refines_refuse _)

/-- The size of the encryption info is a signed number of 16 bits. -/
theorem length_of_encryptionInfo {info : Bytes}
    (h : PageVault.encryptionInfo header = .ok info) : info.length ≤ maxLength := by
  unfold PageVault.encryptionInfo at h
  obtain ⟨b, -, h⟩ := Outcome.bind_eq_ok.mp h
  dsimp only at h
  split at h
  · have hmax : maxLength = 2 ^ 63 - 1 := rfl
    rw [length_of_field_eq_ok h]
    omega
  · cases h

theorem agrees_infoVersion : Reader.Agrees infoVersion PageVault.infoVersion := by
  refine (Reader.agrees_word16 _).bind fun major _ => ?_
  exact (Reader.agrees_word16 _).bind fun minor _ => Reader.agrees_pure _

theorem refines_readOfficeInfo (hh : header.length ≤ maxLength) (layout : Layout) :
    Refines (readOfficeInfo header layout) (PageVault.readOfficeInfo header layout) := by
  refine (refines_field hh _ _ _).bind fun encodingKey _ => ?_
  refine Refines.ite (fun _ => refines_ok _) (fun _ => ?_)
  refine (refines_encryptionInfo hh).bind fun info hinfo => ?_
  obtain ⟨hversion, -⟩ := agrees_infoVersion (.start info) (length_of_encryptionInfo hinfo)
  rw [hversion]
  rcases PageVault.infoVersion (.start info) with ⟨e | ⟨major, minor⟩, cursor⟩
  · exact refines_refuse e
  · exact refines_ok _

theorem length_of_readOfficeInfo {layout : Layout} {info : OfficeInfo}
    (h : PageVault.readOfficeInfo header layout = .ok (some info)) :
    info.cursor.data.length ≤ maxLength := by
  unfold PageVault.readOfficeInfo at h
  obtain ⟨encodingKey, -, h⟩ := Outcome.bind_eq_ok.mp h
  split at h
  · cases h
  · obtain ⟨b, hb, h⟩ := Outcome.bind_eq_ok.mp h
    have hlen := length_of_encryptionInfo hb
    obtain ⟨-, hdata⟩ := agrees_infoVersion (.start b) hlen
    split at h
    · rename_i hversion
      rw [hversion] at hdata
      cases h
      exact Nat.le_trans (Nat.le_of_eq (congrArg List.length hdata)) hlen
    · cases h

theorem refines_unlockInfo {info : OfficeInfo} (hi : info.cursor.data.length ≤ maxLength)
    (spinLimit : UInt32) (password : Option String) :
    Refines (unlockInfo info spinLimit password) (info.unlock spinLimit password) := by
  obtain ⟨hread, -⟩ :=
    agrees_readOffice info.encodingKey spinLimit info.major info.minor info.cursor hi
  have hlock : Refines
      (readOffice info.encodingKey spinLimit info.major info.minor info.cursor).1
      (OfficeLock.read info.encodingKey spinLimit info.major info.minor info.cursor).1 :=
    congrArg Prod.fst hread
  refine hlock.bind fun lock hl => ?_
  have hread : lock.ReadAs info.encodingKey := OfficeLock.readAs_of_read (Prod.ext hl rfl)
  exact (refines_unlockOffice hread _).bind fun _ _ => refines_ok _

theorem openOffice_eq (source : PasswordSource) (hh : header.length ≤ maxLength)
    (layout : Layout) (spinLimit : UInt32) :
    openOffice source header layout spinLimit
      = .ok (PageVault.openOffice source header layout spinLimit) := by
  unfold openOffice PageVault.openOffice
  rw [(refines_readOfficeInfo hh layout).outcome_eq, ok_bind]
  cases hr : PageVault.readOfficeInfo header layout with
  | error e => rfl
  | ok info =>
      cases info with
      | none => rfl
      | some info =>
          have hi := length_of_readOfficeInfo hr
          dsimp only
          rw [(refines_unlockInfo hi spinLimit _).outcome_eq, ok_bind]
          rfl

/-! ## §3  All of them -/

def openFile (source : PasswordSource) (header : Bytes) (layout : Layout)
    (spinLimit : UInt32) : Checked Attempt :=
  match layout.family with
  | .none => .ok ⟨.ok .plain, source⟩
  | .jet => do
      let result ← outcome (openJet header layout)
      return ⟨result, source⟩
  | .msisam => openMsisam source header layout
  | .office => openOffice source header layout spinLimit

theorem openFile_eq {source : PasswordSource} (hh : header.length ≤ maxLength)
    (hp : ∀ text, source.get.1 = some text → (Text.upper text).utf8ByteSize ≤ maxLength)
    (layout : Layout) (spinLimit : UInt32) :
    openFile source header layout spinLimit
      = .ok (PageVault.openFile source header layout spinLimit) := by
  unfold openFile PageVault.openFile
  cases layout.family with
  | none => rfl
  | jet =>
      dsimp only
      rw [(refines_openJet hh layout).outcome_eq, ok_bind]
      rfl
  | msisam => exact openMsisam_eq hh hp layout
  | office => exact openOffice_eq source hh layout spinLimit

end Checked

open Checked (maxLength)

/-- **Opening a file and using it never goes out of bounds.**  For every header page, every
layout with any offsets and sizes, every source of a password and every limit, no step is
trapped: on a machine with bounds the attempt to open the file comes to what `openFile` says
of it.  If the file opens, no step of any page calls in a row is trapped either, and their
answers are those of `Handler.run`; if it does not, the reason is one of the four kinds of
error. -/
theorem openFile_within_bounds {source : PasswordSource} {header : Bytes}
    (hh : header.length ≤ maxLength)
    (hp : ∀ text, source.get.1 = some text → (Text.upper text).utf8ByteSize ≤ maxLength)
    (layout : Layout) (spinLimit : UInt32) :
    let attempt := openFile source header layout spinLimit
    Checked.openFile source header layout spinLimit = .ok attempt
    ∧ (∀ h, attempt.outcome = .ok h → ∀ calls, Checked.run h calls = .ok (h.run calls))
    ∧ ∀ e, attempt.outcome = .error e →
        (∃ fault, e = .format fault) ∨ (∃ fault, e = .configuration fault)
          ∨ (∃ fault, e = .unsupported fault) ∨ e = .wrongPassword := by
  intro attempt
  refine ⟨Checked.openFile_eq hh hp layout spinLimit, fun h _ => Checked.run_eq h, ?_⟩
  intro e _
  cases e with
  | format fault => exact Or.inl ⟨fault, rfl⟩
  | configuration fault => exact Or.inr (Or.inl ⟨fault, rfl⟩)
  | unsupported fault => exact Or.inr (Or.inr (Or.inl ⟨fault, rfl⟩))
  | wrongPassword => exact Or.inr (Or.inr (Or.inr rfl))

/-- A file that any password opens, and three calls that are misuses. -/
theorem openFile_within_bounds_unchecked :
    let attempt := openFile (.known "a") uncheckedHeader uncheckedLayout 0
    let calls := [Call.decode 1 [1, 2, 3], .decodeInto 2 [1, 2] [], .encode 3 [1] 7]
    Checked.openFile (.known "a") uncheckedHeader uncheckedLayout 0 = .ok attempt
      ∧ ∃ h, attempt.outcome = .ok h ∧ Checked.run h calls = .ok (h.run calls) := by
  intro attempt calls
  have hh : uncheckedHeader.length ≤ maxLength := by
    decide +kernel
  have hp : ∀ text, (PasswordSource.known "a").get.1 = some text →
      (Text.upper text).utf8ByteSize ≤ maxLength := by
    intro text htext
    cases htext
    decide +kernel
  obtain ⟨hopen, hrun, -⟩ := openFile_within_bounds hh hp uncheckedLayout 0
  have hoffered := openFile_uncheckedHeader (.known "a") 0
  exact ⟨hopen, _, hoffered, hrun _ hoffered calls⟩

end PageVault
