import PageVault.Proofs.Files.Scheme
import PageVault.Proofs.Keys.Passwords

/-!
# What of a password counts

A scheme that asks for a password does not use all of it.  Office files hash its first 255
units, wherever that cuts it, even inside a character.  Newer MSISAM files hash forty bytes of
its upper case, filled up with zeros, so that zeros at the end are as good as nothing.  Other
files do not use it.  Passwords that are the same in what counts have the same outcome
(`openFile_effective_password`), through verification and in every key of every page.

§1 units of a password · §2 characters of code zero · §3 the same password · §4 two attempts.
-/

namespace PageVault

/-! ## §1  Units of a password -/

/-- The units of a password that count for an office file.  No password is the empty one. -/
def officeUnits (password : Option String) : List UInt16 :=
  (Text.Utf16.encode (password.getD "").toList).take 255

theorem passwordBytes_eq_toBytes (password : Option String) :
    passwordBytes password = Text.Utf16.toBytes (officeUnits password) := by
  cases password with
  | none => rfl
  | some password => rfl

/-- What is hashed is the front of all bytes of the password. -/
theorem passwordBytes_some (password : String) :
    passwordBytes (some password)
      = (Text.Utf16.bytesOf password).take (min 510 (Text.Utf16.bytesOf password).length) := by
  rw [← List.take_take, List.take_length]
  exact Text.Utf16.toBytes_take _ 255

/-! ## §2  Characters of code zero -/

/-- How many bytes an encoding uses for a character of code zero. -/
def TextEncoding.zeroWidth : TextEncoding → Nat
  | singleByte => 1
  | utf16 => 2

/-- Characters of code zero are their own upper case and are stored as zeros. -/
theorem TextEncoding.stored_zeros (encoding : TextEncoding) (n : Nat) :
    ((List.replicate n '\x00').flatMap Text.capitals).flatMap encoding.stored
      = List.replicate (n * encoding.zeroWidth) 0 := by
  have hupper : Text.capitals '\x00' = List.replicate 1 '\x00' :=
    (Text.upperChar_eq_capitals '\x00').symm
  have hstored : encoding.stored '\x00' = List.replicate encoding.zeroWidth 0 := by
    cases encoding with
    | singleByte => rfl
    | utf16 => rfl
  rw [List.flatMap_replicate, hupper, List.flatten_replicate_replicate, Nat.mul_one,
    List.flatMap_replicate, hstored, List.flatten_replicate_replicate]

namespace Msisam

/-- **Characters of code zero at the end do not count.** -/
theorem effective_append_zeros (encoding : TextEncoding) (password : String) (n : Nat) :
    effective encoding (some (password ++ String.ofList (List.replicate n '\x00')))
      = effective encoding (some password) := by
  unfold effective
  rw [Option.getD_some, Option.getD_some, String.toList_append, String.toList_ofList,
    List.flatMap_append, List.flatMap_append, TextEncoding.stored_zeros, ← Bytes.fit_eq_take,
    ← Bytes.fit_eq_take, Bytes.fit_append_replicate]

/-- No password, the empty one, and any other of characters of code zero. -/
theorem effective_of_zeros (encoding : TextEncoding) {password : Option String}
    (h : ∀ c ∈ (password.getD "").toList, c = '\x00') :
    effective encoding password = List.replicate 40 0 := by
  rw [effective, List.eq_replicate_of_mem h, TextEncoding.stored_zeros,
    List.replicate_append_replicate, List.take_replicate, Nat.min_eq_left (Nat.le_add_left _ _)]

theorem effective_none (encoding : TextEncoding) : effective encoding none = List.replicate 40 0 :=
  effective_of_zeros encoding (by simp)

theorem Lock.unlock_congr {lock : Lock} {p q : Option String}
    (h : effective lock.textEncoding p = effective lock.textEncoding q) :
    lock.unlock p = lock.unlock q := by
  have hdigest : lock.passwordDigest p = lock.passwordDigest q := by
    rw [passwordDigest, passwordDigest, passwordField_eq_effective, passwordField_eq_effective, h]
  rw [unlock, unlock, hdigest]

/-- A lock keeps the text encoding of its format. -/
theorem Lock.textEncoding_of_read {layout : Layout} {header : Bytes} {lock : Lock}
    (h : Lock.read layout header = .ok lock) : lock.textEncoding = layout.textEncoding := by
  obtain ⟨flags, -, h⟩ := Outcome.bind_eq_ok.mp h
  obtain ⟨salt, -, h⟩ := Outcome.bind_eq_ok.mp h
  obtain ⟨checkBytes, -, h⟩ := Outcome.bind_eq_ok.mp h
  cases h
  rfl

end Msisam

/-! ## §3  The same password -/

/-- Two passwords that are the same as far as the scheme of a file goes. -/
inductive SamePassword (layout : Layout) (header : Bytes) (p q : Option String) : Prop where
  /-- Pages are never encoded. -/
  | unencrypted (hf : layout.family = .none)
  | jet (hf : layout.family = .jet)
  /-- The flags, if the page has any, are not those of a newer file. -/
  | olderMsisam (hf : layout.family = .msisam)
      (hflags : ∀ flags, header[0x298]? = some flags → flags &&& 0x06 = 0)
  | newerMsisam (hf : layout.family = .msisam)
      (hsame : Msisam.effective layout.textEncoding p = Msisam.effective layout.textEncoding q)
  | blankOffice (hf : layout.family = .office) (hb : HasBlankKey layout header)
  | office (hf : layout.family = .office) (hsame : officeUnits p = officeUnits q)

/-! ## §4  Two attempts -/

section

variable {layout : Layout} {header : Bytes} {source source' : PasswordSource}

/-- An older file is opened without its password. -/
theorem outcome_openMsisam_of_older
    (hflags : ∀ flags, header[0x298]? = some flags → flags &&& 0x06 = 0) :
    (openMsisam source header layout).outcome = (openMsisam source' header layout).outcome := by
  unfold openMsisam
  cases hf : Msisam.flags header with
  | error e => rfl
  | ok flags =>
      have hnewer : Msisam.isNewer flags = false := by
        rw [Msisam.isNewer, hflags flags (Bytes.byteAt_eq_ok_iff.mp hf)]
        rfl
      simp only [hnewer]
      rfl

theorem outcome_openMsisam_congr
    (h : Msisam.effective layout.textEncoding source.get.1
      = Msisam.effective layout.textEncoding source'.get.1) :
    (openMsisam source header layout).outcome = (openMsisam source' header layout).outcome := by
  unfold openMsisam
  cases Msisam.flags header with
  | error e => rfl
  | ok flags =>
      dsimp only
      split
      · cases hr : Msisam.Lock.read layout header with
        | error e => rfl
        | ok lock =>
            rw [← Msisam.Lock.textEncoding_of_read hr] at h
            exact congrArg (Except.map modernMsisamHandler) (Msisam.Lock.unlock_congr h)
      · rfl

/-- A blank key ends the search before the password is asked for. -/
theorem outcome_openOffice_of_blank (hb : HasBlankKey layout header) (spinLimit : UInt32) :
    (openOffice source header layout spinLimit).outcome = .ok .plain := by
  have hkey : layout.encodingKey "Office encoding key" header = .ok [0, 0, 0, 0] :=
    Bytes.field_eq_ok_iff.mpr hb
  have hinfo : readOfficeInfo header layout = .ok none := by
    refine Outcome.bind_eq_ok.mpr ⟨_, hkey, ?_⟩
    exact if_pos rfl
  unfold openOffice
  rw [hinfo]

theorem outcome_openOffice_congr (h : officeUnits source.get.1 = officeUnits source'.get.1)
    (spinLimit : UInt32) :
    (openOffice source header layout spinLimit).outcome
      = (openOffice source' header layout spinLimit).outcome := by
  unfold openOffice
  cases readOfficeInfo header layout with
  | error e => rfl
  | ok found =>
      cases found with
      | none => rfl
      | some info =>
          have hbytes : passwordBytes source.get.1 = passwordBytes source'.get.1 := by
            rw [passwordBytes_eq_toBytes, passwordBytes_eq_toBytes, h]
          show info.unlock spinLimit source.get.1 = info.unlock spinLimit source'.get.1
          unfold OfficeInfo.unlock
          rw [hbytes]

end

/-- **Only what counts of a password matters.**  Whatever the header page, the format and the
limit, two passwords that are the same as far as the scheme goes, from whatever sources, have
the same outcome: the same error, or handlers in the same state, which answer every call alike.
For newer MSISAM files no password and any password of characters of code zero are the same,
and such characters at the end of a password do not count.  For office files, what is hashed of
a password is the front of all its bytes, and of no password nothing. -/
theorem openFile_effective_password (layout : Layout) (header : Bytes) :
    (∀ source source' spinLimit, SamePassword layout header source.get.1 source'.get.1 →
        (openFile source header layout spinLimit).outcome
          = (openFile source' header layout spinLimit).outcome)
      ∧ (∀ encoding (password : Option String), (∀ c ∈ (password.getD "").toList, c = '\x00') →
        Msisam.effective encoding password = Msisam.effective encoding none)
      ∧ (∀ encoding password n,
        Msisam.effective encoding (some (password ++ String.ofList (List.replicate n '\x00')))
          = Msisam.effective encoding (some password))
      ∧ (∀ password, passwordBytes (some password)
        = (Text.Utf16.bytesOf password).take (min 510 (Text.Utf16.bytesOf password).length))
      ∧ passwordBytes none = [] := by
  refine ⟨?_, ?_, Msisam.effective_append_zeros, passwordBytes_some, rfl⟩
  · intro source source' spinLimit h
    unfold openFile
    cases h with
    | unencrypted hf => rw [hf]
    | jet hf => rw [hf]
    | olderMsisam hf hflags =>
        rw [hf]
        exact outcome_openMsisam_of_older hflags
    | newerMsisam hf hsame =>
        rw [hf]
        exact outcome_openMsisam_congr hsame
    | blankOffice hf hb =>
        rw [hf]
        exact (outcome_openOffice_of_blank hb spinLimit).trans
          (outcome_openOffice_of_blank hb spinLimit).symm
    | office hf hsame =>
        rw [hf]
        exact outcome_openOffice_congr hsame spinLimit
  · intro encoding password h
    rw [Msisam.effective_of_zeros encoding h, Msisam.effective_none]

/-- Passwords that are cut inside their last character, which differs; and one in lower case
against one in upper case with a character of code zero behind it. -/
theorem openFile_effective_password_cut :
    let long : Char → String := fun c => String.ofList (List.replicate 254 'a' ++ [c])
    let grin := long (.ofNat 0x1F600)
    let beam := long (.ofNat 0x1F601)
    let page := Msisam.sampleFront ++ Msisam.sampleCheck
    grin ≠ beam
      ∧ (openFile (.known grin) uncheckedHeader uncheckedLayout 0).outcome
        = (openFile (.known beam) uncheckedHeader uncheckedLayout 0).outcome
      ∧ (openFile (.known "a") page .msisam 0).outcome
        = (openFile (.known "A\x00") page .msisam 0).outcome
      ∧ Msisam.effective .utf16 (some "\x00") = Msisam.effective .utf16 none := by
  intro long grin beam page
  obtain ⟨hoffice, -⟩ := openFile_effective_password uncheckedLayout uncheckedHeader
  obtain ⟨hmsisam, hzeros, htrailing, -⟩ := openFile_effective_password .msisam page
  have hunits : officeUnits (some grin) = officeUnits (some beam) := by
    simp only [officeUnits, grin, beam, long, Option.getD_some, String.toList_ofList]
    decide +kernel
  have hupper : Msisam.effective .utf16 (some "a")
      = Msisam.effective .utf16 (some ("A" ++ String.ofList (List.replicate 1 '\x00'))) := by
    rw [htrailing .utf16 "A" 1]
    decide +kernel
  refine ⟨?_, ?_, ?_, ?_⟩
  · intro h
    have hlists := congrArg String.toList h
    simp only [grin, beam, long, String.toList_ofList] at hlists
    exact absurd (List.append_cancel_left hlists) (by decide)
  · exact hoffice (.known grin) (.known beam) 0 (.office rfl hunits)
  · exact hmsisam (.known "a") (.known "A\x00") 0 (.newerMsisam rfl hupper)
  · exact hzeros .utf16 (some "\x00") (List.forall_mem_singleton.mpr rfl)

end PageVault
