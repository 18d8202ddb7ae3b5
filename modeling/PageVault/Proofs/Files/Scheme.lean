import PageVault.Proofs.Asking
import PageVault.Proofs.Keys.Wrapping
import PageVault.Proofs.Page.Partial

/-!
# The scheme that a header page shows

A file that opens has one of nine schemes.  Which one is written in the header page, in the
words of the format: a blank key, two bits of a byte, a version, flags, and in some office
files a cipher with a number in a header of its own, with flags of its own.
`Scheme.ShownBy` says for each scheme what the page has to hold, without reference to the
order in which anything is tested.

The scheme of an opened file is the one that its page shows, and no page shows two
(`openFile_shows_scheme`).  It decides which pages are encoded; the others are handed over as
they are.

§1 what a page shows · §2 ciphers by number · §3 locks that were read · §4 opened files ·
§5 one scheme · §6 pages.
-/

namespace PageVault

/-! ## §1  What a page shows -/

/-- The encoding key consists of zeros. -/
def HasBlankKey (layout : Layout) (header : Bytes) : Prop :=
  Bytes.slice? layout.encodingKeyOffset.toNat 4 header = some [0, 0, 0, 0]

/-- A cipher by its number, or by flags if the number is zero: RC4. -/
def NamesRc4 (flags number : UInt32) : Prop :=
  number = 0x6801
    ∨ number = 0 ∧ flags &&& 0x10 = 0 ∧ flags &&& 0x04 ≠ 0 ∧ flags &&& 0x20 = 0

/-- AES with one of its three key sizes, or by flags. -/
def NamesAes (flags number : UInt32) : Prop :=
  number = 0x660E ∨ number = 0x660F ∨ number = 0x6610
    ∨ number = 0 ∧ flags &&& 0x10 = 0 ∧ flags &&& 0x04 ≠ 0 ∧ flags &&& 0x20 ≠ 0

/-- The bytes begin with a header behind its size, and its third word, the number of the
cipher, and its first, its flags, are such that `names` holds of them. -/
def HeaderNames (names : (flags number : UInt32) → Prop) (bytes : Bytes) : Prop :=
  ∃ size flags extra number tail more,
    bytes = Bytes.le32 size ++
        ((Bytes.le32 flags ++ (Bytes.le32 extra ++ (Bytes.le32 number ++ tail))) ++ more)
      ∧ 12 + tail.length = size.toNat ∧ names flags number

/-- A version with minor number two, and flags for a provider of the crypto API that is not
outside the file; `shows` says more of the flags and of what follows them. -/
def ShowsFlags (shows : (flags : UInt32) → Bytes → Prop) (major minor : UInt16)
    (bytes : Bytes) : Prop :=
  (2 ≤ major ∧ major ≤ 4) ∧ minor = 2
    ∧ ∃ flags more, bytes = Bytes.le32 flags ++ more
      ∧ flags &&& 0x04 ≠ 0 ∧ flags &&& 0x10 = 0 ∧ shows flags more

/-- A mode that is known and needs no tag. -/
def NamesPlainMode (name : String) : Prop :=
  ∃ mode, ChainingMode.resolve name = .ok mode ∧ mode ≠ .ccm ∧ mode ≠ .gcm

/-- A descriptor whose only key encryptor is one for a password, with no more rounds than
allowed, and with modes that need no tag in both suites. -/
def ShowsDescriptor (spinLimit : UInt32) (text : Bytes) : Prop :=
  ∃ d e, Descriptor.ofBytes text = .ok d ∧ d.keyEncryptors = [.password e]
    ∧ e.spinCount ≤ spinLimit ∧ NamesPlainMode e.suite.modeName
    ∧ NamesPlainMode d.keyData.modeName

/-- What encryption info shows, given by its version and by what follows that. -/
def Scheme.ShownByInfo (spinLimit : UInt32) (major minor : UInt16) (bytes : Bytes) :
    Scheme → Prop
  | officeAgile =>
      (major = 4 ∧ minor = 4)
        ∧ ∃ text, bytes = Bytes.le32 0x40 ++ text ∧ ShowsDescriptor spinLimit text
  | officeBinaryRc4 => major = 1 ∧ minor = 1
  | officeStandard =>
      ShowsFlags (fun flags more => flags &&& 0x20 ≠ 0 ∧ HeaderNames NamesAes more) major minor
        bytes
  | officeRc4CryptoApi =>
      ShowsFlags (fun flags more => flags &&& 0x20 = 0 ∧ HeaderNames NamesRc4 more) major minor
        bytes
  | officeNonStandard =>
      ShowsFlags (fun flags more => flags &&& 0x20 = 0 ∧ HeaderNames NamesAes more) major minor
        bytes
  | plain | jet | msisamModern | msisamOld => False

/-- What the header page of a file shows, read with a layout. -/
def Scheme.ShownBy (layout : Layout) (header : Bytes) (spinLimit : UInt32) : Scheme → Prop
  | plain =>
      layout.family = .none
        ∨ (layout.family = .jet ∨ layout.family = .office) ∧ HasBlankKey layout header
  | jet => layout.family = .jet ∧ ¬ HasBlankKey layout header
  | msisamModern =>
      layout.family = .msisam ∧ ∃ flags, header[0x298]? = some flags ∧ flags &&& 0x06 ≠ 0
  | msisamOld =>
      layout.family = .msisam ∧ ∃ flags, header[0x298]? = some flags ∧ flags &&& 0x06 = 0
  | scheme =>
      layout.family = .office
        ∧ ∃ encodingKey major minor bytes,
            HoldsInfo layout header encodingKey (versioned major minor bytes)
              ∧ scheme.ShownByInfo spinLimit major minor bytes

/-! ## §2  Ciphers by number -/

/-- A bit of flags that is not set. -/
theorem HeaderFlags.and_eq_zero {flags mask : UInt32} (h : ¬ (flags &&& mask != 0) = true) :
    flags &&& mask = 0 := by
  rwa [bne_iff_ne, ne_eq, Classical.not_not] at h

/-- The ways to a cipher: by flags that leave it to the outside, by other flags, or by one of
four numbers. -/
theorem HeaderCipher.ofNumber_cases {flags number : UInt32} {cipher : HeaderCipher}
    (h : ofNumber number flags = .ok cipher) :
    cipher = .external
      ∨ ((number = 0 ∧ flags &&& 0x10 = 0 ∧ flags &&& 0x04 ≠ 0)
        ∧ cipher = if flags &&& 0x20 ≠ 0 then .aes128 else .rc4)
      ∨ number = 0x6801 ∧ cipher = .rc4
      ∨ (number = 0x660E ∨ number = 0x660F ∨ number = 0x6610) ∧ cipher ≠ .rc4 := by
  unfold ofNumber at h
  split at h
  · left
    cases h
    rfl
  · rename_i hexternal
    split at h
    · rename_i hapi
      right; left
      have he : flags &&& 0x10 = 0 :=
        HeaderFlags.and_eq_zero fun he => hexternal ⟨hapi.1, he⟩
      refine ⟨⟨hapi.1, he, bne_iff_ne.mp hapi.2⟩, ?_⟩
      cases h
      exact if_congr bne_iff_ne rfl rfl
    · right; right
      split at h
      · rename_i hnumber
        cases h
        exact Or.inl ⟨hnumber, rfl⟩
      · right
        split at h
        · rename_i hnumber
          cases h
          exact ⟨Or.inl hnumber, nofun⟩
        · split at h
          · rename_i hnumber
            cases h
            exact ⟨Or.inr (Or.inl hnumber), nofun⟩
          · split at h
            · rename_i hnumber
              cases h
              exact ⟨Or.inr (Or.inr hnumber), nofun⟩
            · cases h

theorem namesRc4_of_ofNumber {flags number : UInt32} {cipher : HeaderCipher}
    (h : HeaderCipher.ofNumber number flags = .ok cipher) (hc : cipher ∈ [HeaderCipher.rc4]) :
    NamesRc4 flags number := by
  obtain rfl := List.mem_singleton.mp hc
  rcases HeaderCipher.ofNumber_cases h with hx | ⟨⟨hn, he, ha⟩, hx⟩ | ⟨hn, -⟩ | ⟨-, hx⟩
  · cases hx
  · by_cases hb : flags &&& 0x20 ≠ 0
    · rw [if_pos hb] at hx
      cases hx
    · exact Or.inr ⟨hn, he, ha, Classical.not_not.mp hb⟩
  · exact Or.inl hn
  · exact absurd rfl hx

theorem namesAes_of_ofNumber {flags number : UInt32} {cipher : HeaderCipher}
    (h : HeaderCipher.ofNumber number flags = .ok cipher)
    (hc : cipher ∈ [HeaderCipher.aes128, .aes192, .aes256]) : NamesAes flags number := by
  rcases HeaderCipher.ofNumber_cases h with rfl | ⟨⟨hn, he, ha⟩, hx⟩ | ⟨-, rfl⟩ | ⟨hn, -⟩
  · exact absurd hc (by decide)
  · by_cases hb : flags &&& 0x20 ≠ 0
    · exact Or.inr (Or.inr (Or.inr ⟨hn, he, ha, hb⟩))
    · rw [hx, if_neg hb] at hc
      exact absurd hc (by decide)
  · exact absurd hc (by decide)
  · rcases hn with hn | hn | hn
    · exact Or.inl hn
    · exact Or.inr (Or.inl hn)
    · exact Or.inr (Or.inr (Or.inl hn))

/-- No number and no flags name both. -/
theorem not_namesAes_of_namesRc4 {flags number : UInt32} (h : NamesRc4 flags number) :
    ¬ NamesAes flags number := by
  intro h'
  rcases h with rfl | ⟨rfl, -, -, hrc4⟩
  · rcases h' with h' | h' | h' | ⟨h', -⟩ <;> exact absurd h' (by decide)
  · rcases h' with h' | h' | h' | ⟨-, -, -, haes⟩
    · exact absurd h' (by decide)
    · exact absurd h' (by decide)
    · exact absurd h' (by decide)
    · exact haes hrc4

namespace EncryptionHeader

variable {ciphers : List HeaderCipher} {hashes : List HeaderHash} {header : EncryptionHeader}
  {c c' : Cursor}

/-- The cipher of a header that was read is the one that its third word names. -/
theorem exists_words_of_fields (h : fields c = (.ok header, c')) :
    ∃ flags extra number tail,
      c.remaining = Bytes.le32 flags ++ (Bytes.le32 extra ++ (Bytes.le32 number ++ tail))
        ∧ HeaderCipher.ofNumber number flags = .ok header.cipher := by
  unfold fields at h
  obtain ⟨flags, c₁, hflags, h⟩ := Reading.bind_eq_ok.mp h
  obtain ⟨extra, c₂, hextra, h⟩ := Reading.bind_eq_ok.mp h
  obtain ⟨number, c₃, hnumber, h⟩ := Reading.bind_eq_ok.mp h
  obtain ⟨hashNumber, c₄, -, h⟩ := Reading.bind_eq_ok.mp h
  obtain ⟨storedBits, c₅, -, h⟩ := Reading.bind_eq_ok.mp h
  obtain ⟨providerType, c₆, -, h⟩ := Reading.bind_eq_ok.mp h
  obtain ⟨cipher, c₇, hcipher, h⟩ := Reading.bind_eq_ok.mp h
  obtain ⟨hash, c₈, -, h⟩ := Reading.bind_eq_ok.mp h
  obtain ⟨reserved₁, c₉, -, h⟩ := Reading.bind_eq_ok.mp h
  obtain ⟨reserved₂, c₁₀, -, h⟩ := Reading.bind_eq_ok.mp h
  obtain ⟨provider, c₁₁, -, h⟩ := Reading.bind_eq_ok.mp h
  obtain ⟨rfl, -⟩ := Reading.pure_eq_ok.mp h
  refine ⟨flags, extra, number, c₃.remaining, ?_, (Reading.lift_eq_ok.mp hcipher).1⟩
  rw [Reading.remaining_of_word32_eq_ok hflags, Reading.remaining_of_word32_eq_ok hextra,
    Reading.remaining_of_word32_eq_ok hnumber]

/-- A header that was read stood behind its size, and names one of the accepted ciphers. -/
theorem headerNames_of_read {names : (flags number : UInt32) → Prop}
    (hnames : ∀ {flags number cipher}, HeaderCipher.ofNumber number flags = .ok cipher →
      cipher ∈ ciphers → names flags number)
    (h : read ciphers hashes c = (.ok header, c')) : HeaderNames names c.remaining := by
  have hmem := (of_check (check_of_read h)).1
  obtain ⟨size, b, c₁, hsize, htake, hbody⟩ := exists_body_of_read h
  obtain ⟨hfields, -⟩ := ofBytes_eq_ok_iff.mp hbody
  obtain ⟨flags, extra, number, tail, hb, hcipher⟩ :=
    exists_words_of_fields (Prod.ext hfields rfl)
  rw [Cursor.remaining_start] at hb
  refine ⟨size, flags, extra, number, tail, c'.remaining, ?_, ?_, hnames hcipher hmem⟩
  · rw [← hb, ← Reading.remaining_of_take_eq_ok htake, Reading.remaining_of_word32_eq_ok hsize]
  · rw [← Reading.length_of_take_eq_ok htake, hb]
    simp only [List.length_append, Bytes.length_le32]
    omega

end EncryptionHeader

/-! ## §3  Locks that were read -/

/-- The scheme that a lock stands for. -/
def OfficeLock.scheme : OfficeLock → Scheme
  | standard scheme _ => scheme
  | cryptoApi _ => .officeRc4CryptoApi
  | binaryDocument _ => .officeBinaryRc4
  | agile _ => .officeAgile

theorem OfficeLock.scheme_of_unlock {lock : OfficeLock} {password : Bytes} {codec : Codec}
    (h : lock.unlock password = .ok codec) : codec.scheme = lock.scheme := by
  cases lock with
  | standard | cryptoApi | binaryDocument | agile =>
      obtain ⟨keys, -, rfl⟩ := Outcome.map_eq_ok.mp h
      rfl

theorem namesPlainMode_of_follows {s : Suite} {d : CipherDescription} (h : s.Follows d) :
    NamesPlainMode d.modeName := by
  have hspec := h.spec_eq
  unfold CipherSpec.ofNames at hspec
  obtain ⟨cipher, -, hspec⟩ := Outcome.bind_eq_ok.mp hspec
  obtain ⟨mode, hmode, hspec⟩ := Outcome.bind_eq_ok.mp hspec
  obtain ⟨-, rfl⟩ := CipherSpec.ofPair_eq_ok_iff.mp hspec
  exact ⟨s.spec.mode, hmode, s.spec.not_authenticated.1, s.spec.not_authenticated.2⟩

theorem AgileLock.shows_of_read {encodingKey : Bytes} {spinLimit : UInt32} {lock : AgileLock}
    {c c' : Cursor} (h : read encodingKey spinLimit c = (.ok lock, c')) :
    ∃ text, c.remaining = Bytes.le32 0x40 ++ text ∧ ShowsDescriptor spinLimit text := by
  obtain ⟨text, d, hbytes, hd, hlock⟩ := exists_ofDescriptor_of_read h
  obtain ⟨hkeys, hspin, hpassword, hpage, -, -⟩ := parts_of_ofDescriptor hlock
  exact ⟨text, hbytes, d, lock.encryptor, hd, hkeys, hspin, namesPlainMode_of_follows hpassword,
    namesPlainMode_of_follows hpage⟩

theorem StandardLock.shows_of_read {encodingKey : Bytes} {rounds : Nat} {lock : StandardLock}
    {c c' : Cursor} (h : read encodingKey rounds c = (.ok lock, c')) :
    HeaderNames NamesAes c.remaining := by
  unfold read at h
  obtain ⟨header, c₁, hheader, -⟩ := Reading.bind_eq_ok.mp h
  exact EncryptionHeader.headerNames_of_read namesAes_of_ofNumber hheader

theorem CryptoApiLock.shows_of_read {encodingKey : Bytes} {lock : CryptoApiLock} {c c' : Cursor}
    (h : read encodingKey c = (.ok lock, c')) : HeaderNames NamesRc4 c.remaining := by
  unfold read at h
  obtain ⟨header, c₁, hheader, -⟩ := Reading.bind_eq_ok.mp h
  exact EncryptionHeader.headerNames_of_read namesRc4_of_ofNumber hheader

namespace OfficeLock

variable {encodingKey : Bytes} {spinLimit : UInt32} {major minor : UInt16} {lock : OfficeLock}
  {c c' : Cursor}

/-- The reader for RC4 and the one that is tried after it start at the same place. -/
theorem shows_of_readCryptoApi (h : readCryptoApi encodingKey c = (.ok lock, c')) :
    lock.scheme = .officeRc4CryptoApi ∧ HeaderNames NamesRc4 c.remaining
      ∨ lock.scheme = .officeNonStandard ∧ HeaderNames NamesAes c.remaining := by
  unfold readCryptoApi at h
  split at h
  · rename_i hread
    cases h
    exact Or.inl ⟨rfl, CryptoApiLock.shows_of_read hread⟩
  · split at h
    · rename_i hread
      cases h
      exact Or.inr ⟨rfl, StandardLock.shows_of_read hread⟩
    · cases h
  · cases h

theorem shows_of_readFlagged (hmajor : 2 ≤ major ∧ major ≤ 4) (spinLimit : UInt32)
    (h : readFlagged encodingKey major 2 c = (.ok lock, c')) :
    lock.scheme.ShownByInfo spinLimit major 2 c.remaining := by
  unfold readFlagged at h
  obtain ⟨flags, c₁, hflags, h⟩ := Reading.bind_eq_ok.mp h
  have hbytes := Reading.remaining_of_word32_eq_ok hflags
  split at h
  · exact absurd h Reading.fail_ne_ok
  · rename_i hapi
    have hapi : flags &&& 0x04 ≠ 0 := by
      simpa [HeaderFlags.cryptoApi] using hapi
    split at h
    · exact absurd h Reading.fail_ne_ok
    · rename_i hexternal
      have hexternal : flags &&& 0x10 = 0 := HeaderFlags.and_eq_zero hexternal
      -- What is left are the flag for AES and the header behind the flags.
      have hshows : ∀ shows : UInt32 → Bytes → Prop, shows flags c₁.remaining →
          ShowsFlags shows major 2 c.remaining := by
        intro shows hs
        exact ⟨hmajor, rfl, flags, c₁.remaining, hbytes, hapi, hexternal, hs⟩
      split at h
      · rename_i haes
        obtain ⟨lock', c₂, hread, h⟩ := Reading.bind_eq_ok.mp h
        obtain ⟨rfl, -⟩ := Reading.pure_eq_ok.mp h
        exact hshows _ ⟨bne_iff_ne.mp haes, StandardLock.shows_of_read hread⟩
      · rename_i haes
        have haes : flags &&& 0x20 = 0 := HeaderFlags.and_eq_zero haes
        rcases shows_of_readCryptoApi h with ⟨hs, hnames⟩ | ⟨hs, hnames⟩
        · rw [hs]
          exact hshows _ ⟨haes, hnames⟩
        · rw [hs]
          exact hshows _ ⟨haes, hnames⟩

/-- **A lock that was read has the scheme that the info shows.** -/
theorem shows_of_read (h : read encodingKey spinLimit major minor c = (.ok lock, c')) :
    lock.scheme.ShownByInfo spinLimit major minor c.remaining := by
  unfold read at h
  split at h
  · rename_i hversion
    obtain ⟨lock', c₁, hread, h⟩ := Reading.bind_eq_ok.mp h
    obtain ⟨rfl, -⟩ := Reading.pure_eq_ok.mp h
    exact ⟨hversion, AgileLock.shows_of_read hread⟩
  · split at h
    · rename_i hversion
      obtain ⟨lock', c₁, hread, h⟩ := Reading.bind_eq_ok.mp h
      obtain ⟨rfl, -⟩ := Reading.pure_eq_ok.mp h
      exact hversion
    · split at h
      · exact absurd h Reading.fail_ne_ok
      · split at h
        · rename_i hversion
          obtain ⟨hmajor, rfl⟩ := hversion
          exact shows_of_readFlagged hmajor spinLimit h
        · exact absurd h Reading.fail_ne_ok

end OfficeLock

/-! ## §4  Opened files -/

section

variable {source : PasswordSource} {header : Bytes} {layout : Layout} {spinLimit : UInt32}
  {h : Handler}

/-- The encoding key that was read is blank exactly if the page shows a blank one. -/
theorem hasBlankKey_iff {name : String} {key : Bytes}
    (h : layout.encodingKey name header = .ok key) :
    HasBlankKey layout header ↔ Bytes.isBlank key = true := by
  have hslice : Bytes.slice? layout.encodingKeyOffset.toNat 4 header = some key :=
    Bytes.field_eq_ok_iff.mp h
  have hlen : key.length = 4 := Bytes.length_of_slice?_eq_some hslice
  have hzeros : Bytes.isBlank key = true ↔ key = [0, 0, 0, 0] := by
    have hreplicate := List.eq_replicate_iff (a := (0 : UInt8)) (n := 4) (l := key)
    rw [show [0, 0, 0, 0] = List.replicate 4 (0 : UInt8) from rfl, hreplicate,
      and_iff_right hlen]
    simp [Bytes.isBlank]
  unfold HasBlankKey
  rw [hslice, hzeros, Option.some_inj]

theorem shownBy_of_openJet (hf : layout.family = .jet) (ho : openJet header layout = .ok h) :
    h.scheme.ShownBy layout header spinLimit := by
  unfold openJet at ho
  obtain ⟨key, hkey, ho⟩ := Outcome.bind_eq_ok.mp ho
  split at ho
  · rename_i hb
    cases ho
    exact Or.inr ⟨Or.inl hf, (hasBlankKey_iff hkey).mpr hb⟩
  · rename_i hb
    cases ho
    exact ⟨hf, mt (hasBlankKey_iff hkey).mp hb⟩

theorem shownBy_of_openMsisam (hf : layout.family = .msisam)
    (ho : (openMsisam source header layout).outcome = .ok h) :
    h.scheme.ShownBy layout header spinLimit := by
  unfold openMsisam at ho
  split at ho
  · cases ho
  · rename_i flags hread
    have hflags : header[0x298]? = some flags := Bytes.byteAt_eq_ok_iff.mp hread
    split at ho
    · rename_i hnewer
      split at ho
      · cases ho
      · obtain ⟨keys, -, rfl⟩ := Outcome.map_eq_ok.mp ho
        exact ⟨hf, flags, hflags, bne_iff_ne.mp hnewer⟩
    · rename_i hnewer
      unfold openOldMsisam at ho
      obtain ⟨keys, -, ho⟩ := Outcome.bind_eq_ok.mp ho
      cases ho
      refine ⟨hf, flags, hflags, ?_⟩
      rwa [Msisam.isNewer, bne_iff_ne, ne_eq, Classical.not_not] at hnewer

/-- What was read of an office file is what its page holds. -/
theorem holdsInfo_of_readOfficeInfo {info : OfficeInfo}
    (hr : readOfficeInfo header layout = .ok (some info)) :
    HoldsInfo layout header info.encodingKey
      (versioned info.major info.minor info.cursor.remaining) := by
  obtain ⟨encodingKey, bytes, hholds, hlen⟩ := exists_readOfficeInfo_iff.mp ⟨info, hr⟩
  obtain ⟨major, minor, rest, rfl⟩ := Bytes.exists_eq_versioned hlen
  rw [hholds.readOfficeInfo_eq] at hr
  cases hr
  rw [Cursor.remaining_between]
  exact hholds

/-- A scheme that the encryption info shows is shown by the page. -/
theorem Scheme.ShownByInfo.shownBy {scheme : Scheme} {encodingKey bytes : Bytes}
    {major minor : UInt16} (hs : scheme.ShownByInfo spinLimit major minor bytes)
    (hf : layout.family = .office)
    (hholds : HoldsInfo layout header encodingKey (versioned major minor bytes)) :
    scheme.ShownBy layout header spinLimit := by
  cases scheme with
  | plain | jet | msisamModern | msisamOld => exact hs.elim
  | officeStandard | officeNonStandard | officeRc4CryptoApi | officeBinaryRc4 | officeAgile =>
      exact ⟨hf, encodingKey, major, minor, bytes, hholds, hs⟩

theorem shownBy_of_openOffice (hf : layout.family = .office)
    (ho : (openOffice source header layout spinLimit).outcome = .ok h) :
    h.scheme.ShownBy layout header spinLimit := by
  unfold openOffice at ho
  split at ho
  · cases ho
  · rename_i hr
    cases ho
    unfold readOfficeInfo at hr
    obtain ⟨key, hkey, hr⟩ := Outcome.bind_eq_ok.mp hr
    split at hr
    · rename_i hb
      exact Or.inr ⟨Or.inr hf, (hasBlankKey_iff hkey).mpr hb⟩
    · -- A key that is not blank does not end in nothing.
      obtain ⟨info, -, hr⟩ := Outcome.bind_eq_ok.mp hr
      split at hr
      · cases hr
      · cases hr
  · rename_i info hr
    unfold OfficeInfo.unlock at ho
    obtain ⟨lock, hlock, ho⟩ := Outcome.bind_eq_ok.mp ho
    obtain ⟨codec, hunlock, ho⟩ := Outcome.bind_eq_ok.mp ho
    cases ho
    have hshown := OfficeLock.shows_of_read (Prod.ext hlock rfl)
    show codec.scheme.ShownBy layout header spinLimit
    rw [OfficeLock.scheme_of_unlock hunlock]
    exact hshown.shownBy hf (holdsInfo_of_readOfficeInfo hr)

/-- **The page shows the scheme of a file that opened.** -/
theorem shownBy_of_openFile (ho : (openFile source header layout spinLimit).outcome = .ok h) :
    h.scheme.ShownBy layout header spinLimit := by
  unfold openFile at ho
  cases hf : layout.family with
  | none =>
      rw [hf] at ho
      cases ho
      exact Or.inl hf
  | jet =>
      rw [hf] at ho
      exact shownBy_of_openJet hf ho
  | msisam =>
      rw [hf] at ho
      exact shownBy_of_openMsisam hf ho
  | office =>
      rw [hf] at ho
      exact shownBy_of_openOffice hf ho

end

/-! ## §5  One scheme -/

/-- The size says where the header ends, so its words are the same, however the bytes are
parted. -/
theorem HeaderNames.not_namesAes {bytes : Bytes} (h : HeaderNames NamesRc4 bytes) :
    ¬ HeaderNames NamesAes bytes := by
  rintro ⟨size', flags', extra', number', tail', more', hb', hl', haes⟩
  obtain ⟨size, flags, extra, number, tail, more, hb, hl, hrc4⟩ := h
  obtain ⟨rfl, hrest⟩ := Bytes.le32_append_inj (hb.symm.trans hb')
  have hlen : (Bytes.le32 flags ++ (Bytes.le32 extra ++ (Bytes.le32 number ++ tail))).length
      = (Bytes.le32 flags' ++ (Bytes.le32 extra' ++ (Bytes.le32 number' ++ tail'))).length := by
    simp only [List.length_append, Bytes.length_le32]
    omega
  obtain ⟨hbody, -⟩ := List.append_inj hrest hlen
  obtain ⟨rfl, hafter⟩ := Bytes.le32_append_inj hbody
  obtain ⟨-, hafter⟩ := Bytes.le32_append_inj hafter
  obtain ⟨hnumber, -⟩ := Bytes.le32_append_inj hafter
  rw [← hnumber] at haes
  exact not_namesAes_of_namesRc4 hrc4 haes

/-- What is shown of flags is shown of the same flags. -/
theorem ShowsFlags.and {p q : UInt32 → Bytes → Prop} {major minor : UInt16} {bytes : Bytes}
    (hp : ShowsFlags p major minor bytes) (hq : ShowsFlags q major minor bytes) :
    ∃ flags more, p flags more ∧ q flags more := by
  obtain ⟨-, -, flags, more, hb, -, -, hp⟩ := hp
  obtain ⟨-, -, flags', more', hb', -, -, hq⟩ := hq
  obtain ⟨rfl, rfl⟩ := Bytes.le32_append_inj (hb.symm.trans hb')
  exact ⟨flags, more, hp, hq⟩

namespace Scheme

variable {spinLimit : UInt32} {major minor : UInt16} {bytes : Bytes} {s s' : Scheme}

/-- The version that goes with a scheme, as far as it can be told apart from others. -/
def infoMinor : Scheme → UInt16
  | officeAgile => 4
  | officeBinaryRc4 => 1
  | _ => 2

theorem ShownByInfo.minor_eq (h : s.ShownByInfo spinLimit major minor bytes) :
    minor = s.infoMinor := by
  cases s with
  | plain | jet | msisamModern | msisamOld => exact h.elim
  | officeAgile => exact h.1.2
  | officeBinaryRc4 => exact h.2
  | officeStandard | officeNonStandard | officeRc4CryptoApi => exact h.2.1

/-- Encryption info shows one scheme: the versions tell the providers apart, the flags AES from
RC4, and the header the two that have no flag for AES. -/
theorem ShownByInfo.unique (h : s.ShownByInfo spinLimit major minor bytes)
    (h' : s'.ShownByInfo spinLimit major minor bytes) : s = s' := by
  have hminor : s.infoMinor = s'.infoMinor := h.minor_eq.symm.trans h'.minor_eq
  cases s with
  | plain | jet | msisamModern | msisamOld => exact h.elim
  | officeAgile =>
      cases s' with
      | officeAgile => rfl
      | _ => exact absurd hminor (by decide)
  | officeBinaryRc4 =>
      cases s' with
      | officeBinaryRc4 => rfl
      | _ => exact absurd hminor (by decide)
  | officeStandard =>
      cases s' with
      | plain | jet | msisamModern | msisamOld => exact h'.elim
      | officeAgile | officeBinaryRc4 => exact absurd hminor (by decide)
      | officeStandard => rfl
      | officeNonStandard | officeRc4CryptoApi =>
          obtain ⟨flags, more, hset, hclear⟩ := h.and h'
          exact absurd hclear.1 hset.1
  | officeNonStandard =>
      cases s' with
      | plain | jet | msisamModern | msisamOld => exact h'.elim
      | officeAgile | officeBinaryRc4 => exact absurd hminor (by decide)
      | officeStandard =>
          obtain ⟨flags, more, hclear, hset⟩ := h.and h'
          exact absurd hclear.1 hset.1
      | officeNonStandard => rfl
      | officeRc4CryptoApi =>
          obtain ⟨flags, more, haes, hrc4⟩ := h.and h'
          exact absurd haes.2 hrc4.2.not_namesAes
  | officeRc4CryptoApi =>
      cases s' with
      | plain | jet | msisamModern | msisamOld => exact h'.elim
      | officeAgile | officeBinaryRc4 => exact absurd hminor (by decide)
      | officeStandard =>
          obtain ⟨flags, more, hclear, hset⟩ := h.and h'
          exact absurd hclear.1 hset.1
      | officeNonStandard =>
          obtain ⟨flags, more, hrc4, haes⟩ := h.and h'
          exact absurd haes.2 hrc4.2.not_namesAes
      | officeRc4CryptoApi => rfl

variable {layout : Layout} {header : Bytes}

theorem ShownBy.of_none (h : s.ShownBy layout header spinLimit) (hf : layout.family = .none) :
    s = .plain := by
  cases s with
  | plain => rfl
  | _ => exact absurd (hf.symm.trans h.1) (by decide)

theorem ShownBy.of_jet (h : s.ShownBy layout header spinLimit) (hf : layout.family = .jet) :
    s = .plain ∧ HasBlankKey layout header ∨ s = .jet ∧ ¬ HasBlankKey layout header := by
  cases s with
  | plain =>
      rcases h with hn | ⟨-, hb⟩
      · exact absurd (hf.symm.trans hn) (by decide)
      · exact Or.inl ⟨rfl, hb⟩
  | jet => exact Or.inr ⟨rfl, h.2⟩
  | _ => exact absurd (hf.symm.trans h.1) (by decide)

theorem ShownBy.of_msisam (h : s.ShownBy layout header spinLimit) (hf : layout.family = .msisam) :
    ∃ flags, header[0x298]? = some flags
      ∧ s = if flags &&& 0x06 ≠ 0 then .msisamModern else .msisamOld := by
  cases s with
  | plain =>
      rcases h with hn | ⟨hn | hn, -⟩ <;> exact absurd (hf.symm.trans hn) (by decide)
  | msisamModern =>
      obtain ⟨-, flags, hflags, hset⟩ := h
      exact ⟨flags, hflags, (if_pos hset).symm⟩
  | msisamOld =>
      obtain ⟨-, flags, hflags, hclear⟩ := h
      exact ⟨flags, hflags, (if_neg (not_not_intro hclear)).symm⟩
  | _ => exact absurd (hf.symm.trans h.1) (by decide)

theorem ShownBy.of_office (h : s.ShownBy layout header spinLimit) (hf : layout.family = .office) :
    s = .plain ∧ HasBlankKey layout header
      ∨ ∃ encodingKey major minor bytes,
          HoldsInfo layout header encodingKey (versioned major minor bytes)
            ∧ s.ShownByInfo spinLimit major minor bytes := by
  cases s with
  | plain =>
      rcases h with hn | ⟨-, hb⟩
      · exact absurd (hf.symm.trans hn) (by decide)
      · exact Or.inl ⟨rfl, hb⟩
  | jet | msisamModern | msisamOld => exact absurd (hf.symm.trans h.1) (by decide)
  | officeStandard | officeNonStandard | officeRc4CryptoApi | officeBinaryRc4 | officeAgile =>
      exact Or.inr h.2

/-- A page that holds encryption info has a key that is not blank. -/
theorem not_hasBlankKey_of_holdsInfo {encodingKey info : Bytes}
    (h : HoldsInfo layout header encodingKey info) : ¬ HasBlankKey layout header := by
  intro hb
  have hkey : encodingKey = [0, 0, 0, 0] :=
    Option.some.inj (h.encodingKey_eq.symm.trans hb)
  have hblank := h.not_blank
  rw [hkey] at hblank
  exact absurd hblank (by decide)

/-- **A header page shows one scheme.** -/
theorem ShownBy.unique (h : s.ShownBy layout header spinLimit)
    (h' : s'.ShownBy layout header spinLimit) : s = s' := by
  cases hf : layout.family with
  | none => rw [h.of_none hf, h'.of_none hf]
  | jet =>
      rcases h.of_jet hf with ⟨rfl, hb⟩ | ⟨rfl, hb⟩
      · rcases h'.of_jet hf with ⟨rfl, -⟩ | ⟨-, hb'⟩
        · rfl
        · exact absurd hb hb'
      · rcases h'.of_jet hf with ⟨-, hb'⟩ | ⟨rfl, -⟩
        · exact absurd hb' hb
        · rfl
  | msisam =>
      obtain ⟨flags, hflags, hs⟩ := h.of_msisam hf
      obtain ⟨flags', hflags', hs'⟩ := h'.of_msisam hf
      obtain rfl := Option.some.inj (hflags.symm.trans hflags')
      exact hs.trans hs'.symm
  | office =>
      rcases h.of_office hf with ⟨rfl, hb⟩ | ⟨key, major, minor, bytes, hholds, hinfo⟩
      · rcases h'.of_office hf with ⟨rfl, -⟩ | ⟨key', major', minor', bytes', hholds', -⟩
        · rfl
        · exact absurd hb (not_hasBlankKey_of_holdsInfo hholds')
      · rcases h'.of_office hf with ⟨-, hb⟩ | ⟨key', major', minor', bytes', hholds', hinfo'⟩
        · exact absurd hb (not_hasBlankKey_of_holdsInfo hholds)
        · -- Both are what is read of the page.
          have hread := Option.some.inj (Except.ok.inj
            (hholds.readOfficeInfo_eq.symm.trans hholds'.readOfficeInfo_eq))
          have hmajor : major = major' := congrArg OfficeInfo.major hread
          have hminor : minor = minor' := congrArg OfficeInfo.minor hread
          have hbytes : bytes = bytes' := by
            have hcursor := congrArg (fun info => info.cursor.remaining) hread
            simpa only [Cursor.remaining_between] using hcursor
          rw [← hmajor, ← hminor, ← hbytes] at hinfo'
          exact hinfo.unique hinfo'

end Scheme

/-! ## §6  Pages -/

/-- The last page that a scheme encodes, if there is any. -/
def Scheme.lastPage : Scheme → UInt32
  | plain => 0
  | jet => 0x7FFFFFFF
  | msisamModern | msisamOld => 14
  | officeStandard | officeNonStandard | officeRc4CryptoApi | officeBinaryRc4 | officeAgile =>
      0xFFFFFFFF

theorem Codec.Issued.lastPage_eq {c : Codec} (h : c.Issued) : c.lastPage = c.scheme.lastPage := by
  cases h with
  | jet | msisamOld | msisamModern | cryptoApi | binaryDocument | agile => rfl
  | standard hs => rcases hs with rfl | rfl <;> rfl

namespace Handler

variable {h : Handler}

/-- No call changes which pages are encoded. -/
theorem isEncoded_after (h : Handler) (calls : List Call) :
    (h.after calls).isEncoded = h.isEncoded := by
  have hforget : ∀ g : Handler, g.forget.isEncoded = g.isEncoded := by
    intro g
    cases g <;> rfl
  rw [← hforget, forget_after, hforget]

/-- Page zero and the plain scheme apart, pages are encoded up to a limit that Jet and MSISAM
files have; office files have none. -/
theorem between_lastPage_iff (scheme : Scheme) (page : UInt32) :
    (0 < page ∧ page ≤ scheme.lastPage)
      ↔ scheme ≠ .plain ∧ 0 < page.toNat ∧ (scheme = .jet → page.toNat ≤ 2 ^ 31 - 1)
        ∧ (scheme = .msisamModern ∨ scheme = .msisamOld → page.toNat ≤ 14) := by
  have hlt : page.toNat < 2 ^ 32 := page.toNat_lt
  rw [UInt32.lt_iff_toNat_lt, UInt32.le_iff_toNat_le]
  cases scheme with
  | plain =>
      refine iff_of_false ?_ fun h => h.1 rfl
      rintro ⟨hpos, hle⟩
      exact absurd (Nat.lt_of_lt_of_le hpos hle) (Nat.lt_irrefl 0)
  | jet => simp [Scheme.lastPage]
  | msisamModern | msisamOld => simp [Scheme.lastPage]
  | officeStandard | officeNonStandard | officeRc4CryptoApi | officeBinaryRc4 | officeAgile =>
      simp [Scheme.lastPage]
      omega

theorem Opened.isEncoded_iff (ho : h.Opened) (page : UInt32) :
    h.isEncoded page = true ↔ 0 < page ∧ page ≤ h.scheme.lastPage := by
  rcases ho.issued with rfl | ⟨c, rfl, hc⟩
  · rw [between_lastPage_iff]
    simp [isEncoded, scheme]
  · show (decide (0 < page) && decide (page ≤ c.lastPage)) = true ↔ _
    rw [Bool.and_eq_true, decide_eq_true_eq, decide_eq_true_eq, hc.lastPage_eq]
    rfl

/-- A page that is not encoded is the same in both forms. -/
theorem transformed_of_not_isEncoded {page : UInt32} (he : h.isEncoded page = false)
    (direction : Direction) (data : Bytes) : h.transformed direction page data = .ok data := by
  cases h with
  | plain => rfl
  | coded c =>
      have he : c.isEncoded page = false := he
      rw [transformed_coded, he]
      rfl

/-- What calls to an open file make of a page that is not encoded: nothing. -/
theorem Opened.page_unchanged (ho : h.Opened) (calls : List Call) {page : UInt32}
    (he : (h.after calls).isEncoded page = false) (data : Bytes) :
    ((h.after calls).decode page data).1 = ⟨.ok (), data⟩
      ∧ (∀ output : Bytes, data.length ≤ output.length →
        ((h.after calls).decodeInto page data output).1
          = ⟨.ok (), data ++ output.drop data.length⟩)
      ∧ ∀ offset, ((h.after calls).encode page data offset).1 = .ok data := by
  rw [isEncoded_after] at he
  have hdecoded : h.decoded page data = ⟨.ok (), data⟩ := by
    rw [decoded, transformed_of_not_isEncoded he]
    rfl
  refine ⟨?_, ?_, ?_⟩
  · rw [decode_after ho.sound, hdecoded]
  · intro output hroom
    rw [decodeInto_after ho.sound, decodedInto, if_neg (Nat.not_lt.mpr hroom), hdecoded]
  · intro offset
    have hoff : ¬ (h.isEncoded page = true ∧ data.length < offset) := by
      rw [he]
      exact fun h => Bool.false_ne_true h.1
    rw [encode_after ho.sound, encoded, if_neg hoff, transformed_of_not_isEncoded he]

end Handler

/-- **The page shows the scheme, and the scheme decides which pages are encoded.**  A file that
opened, with whatever password, has a scheme exactly if its header page shows it, as
`Scheme.ShownBy` says.  In every state that its handler can reach the encoded pages are those
from one up to the limit of the scheme, which office files do not have, and none with the plain
scheme; every other page is decoded and encoded to what it is. -/
theorem openFile_shows_scheme {source : PasswordSource} {header : Bytes} {layout : Layout}
    {spinLimit : UInt32} {h : Handler}
    (ho : (openFile source header layout spinLimit).outcome = .ok h) :
    (∀ scheme : Scheme, h.scheme = scheme ↔ scheme.ShownBy layout header spinLimit)
      ∧ ∀ (calls : List Call) (page : UInt32),
        ((h.after calls).isEncoded page = true
            ↔ h.scheme ≠ .plain ∧ 0 < page.toNat ∧ (h.scheme = .jet → page.toNat ≤ 2 ^ 31 - 1)
              ∧ (h.scheme = .msisamModern ∨ h.scheme = .msisamOld → page.toNat ≤ 14))
          ∧ ((h.after calls).isEncoded page = false → ∀ data : Bytes,
            ((h.after calls).decode page data).1 = ⟨.ok (), data⟩
              ∧ (∀ output : Bytes, data.length ≤ output.length →
                ((h.after calls).decodeInto page data output).1
                  = ⟨.ok (), data ++ output.drop data.length⟩)
              ∧ ∀ offset, ((h.after calls).encode page data offset).1 = .ok data) := by
  have hshown := shownBy_of_openFile ho
  have hopened : h.Opened := ⟨source, header, layout, spinLimit, ho⟩
  constructor
  · intro scheme
    constructor
    · rintro rfl
      exact hshown
    · intro hs
      exact hshown.unique hs
  · intro calls page
    constructor
    · rw [Handler.isEncoded_after, hopened.isEncoded_iff, Handler.between_lastPage_iff]
    · intro he data
      exact hopened.page_unchanged calls he data

/-- A standard file: its page shows no other scheme, and its last page is as good as any. -/
theorem openFile_shows_scheme_unchecked :
    ∃ h : Handler, (openFile .absent uncheckedHeader uncheckedLayout 0).outcome = .ok h
      ∧ Scheme.officeStandard.ShownBy uncheckedLayout uncheckedHeader 0
      ∧ ¬ Scheme.officeNonStandard.ShownBy uncheckedLayout uncheckedHeader 0
      ∧ h.isEncoded 0xFFFFFFFF = true
      ∧ (h.decode 0 [1, 2, 3]).1 = ⟨.ok (), [1, 2, 3]⟩ := by
  have ho := openFile_uncheckedHeader .absent 0
  obtain ⟨hscheme, hpages⟩ := openFile_shows_scheme ho
  have hlast := (hpages [] 0xFFFFFFFF).1.mpr ⟨nofun, by decide, nofun, nofun⟩
  obtain ⟨hzero, -, -⟩ := (hpages [] 0).2 rfl [1, 2, 3]
  refine ⟨_, ho, (hscheme _).mp rfl, ?_, hlast, hzero⟩
  intro hs
  exact absurd ((hscheme _).mpr hs) (by decide)

end PageVault
