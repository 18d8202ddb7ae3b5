import PageVault.Opening
import PageVault.Proofs.Keys.Derivation
import PageVault.Proofs.Page.Coding

/-!
# Newer MSISAM files

The header page of a newer file says all there is to know: a salt, whose first byte says
where four check bytes are.  Check bytes of zeros fit every password; others fit the
passwords whose key turns them into the front of the salt.  Together this decides what
becomes of every attempt to open such a file, and what its pages are coded with
(`openFile_modern`).
-/

namespace PageVault.Msisam

/-! ## What the header page says -/

/-- The salt of a header page. -/
def saltOf (header : Bytes) : Bytes :=
  (header.drop 0x72).take 8

/-- Where the check bytes are: the first byte of the salt counts from a fixed place. -/
def checkOffset (header : Bytes) : Nat :=
  0x2E9 + ((saltOf header).headD 0).toNat

def checkBytesOf (header : Bytes) : Bytes :=
  (header.drop (checkOffset header)).take 4

/-- All check bytes lie within the header page. -/
def HasCheckBytes (header : Bytes) : Prop :=
  checkOffset header + 4 ≤ header.length

/-- The check bytes are all zero, or the key of a digest and the salt turns them into the
front of the salt. -/
def Fits (digest header : Bytes) : Prop :=
  (∀ b ∈ checkBytesOf header, b = 0)
    ∨ Rc4.crypt (digest ++ saltOf header) (checkBytesOf header) = (saltOf header).take 4

variable {header digest : Bytes} {layout : Layout} {flags : UInt8}

/-- The lock of a header page with the given flags. -/
def lockOf (flags : UInt8) (layout : Layout) (header : Bytes) : Lock where
  digest := if flags &&& 0x20 != 0 then .sha1 else .md5
  textEncoding := layout.textEncoding
  salt := saltOf header
  checkBytes := checkBytesOf header

theorem flags_eq (hf : header[0x298]? = some flags) : Msisam.flags header = .ok flags := by
  unfold Msisam.flags Bytes.byteAt flagsOffset
  rw [hf]

/-- A page that is long enough for its flags has a salt. -/
theorem field_salt (hf : header[0x298]? = some flags) :
    0x72 + 8 ≤ header.length
      ∧ Bytes.field saltOffset 8 "MSISAM salt" header = .ok (saltOf header) := by
  obtain ⟨hlen, -⟩ := List.getElem?_eq_some_iff.mp hf
  have hfit : 0x72 + 8 ≤ header.length := by omega
  exact ⟨hfit, Bytes.field_eq_ok hfit⟩

theorem length_saltOf (hf : header[0x298]? = some flags) : (saltOf header).length = 8 := by
  have hfit := (field_salt hf).1
  rw [saltOf, List.length_take, List.length_drop]
  omega

/-- **The lock can be read exactly if the check bytes are there.** -/
theorem read_eq_ok (hf : header[0x298]? = some flags) (hc : HasCheckBytes header) :
    Lock.read layout header = .ok (lockOf flags layout header) := by
  obtain ⟨-, hsalt⟩ := field_salt hf
  have hcheck : Bytes.field (checkOffset header) 4 "MSISAM password check bytes" header
      = .ok (checkBytesOf header) := Bytes.field_eq_ok hc
  refine Outcome.bind_eq_ok.mpr ⟨flags, flags_eq hf, ?_⟩
  refine Outcome.bind_eq_ok.mpr ⟨saltOf header, hsalt, ?_⟩
  exact Outcome.bind_eq_ok.mpr ⟨checkBytesOf header, hcheck, rfl⟩

theorem read_eq_error (hf : header[0x298]? = some flags) (hc : ¬ HasCheckBytes header) :
    Lock.read layout header = .error (.truncated "MSISAM password check bytes") := by
  obtain ⟨-, hsalt⟩ := field_salt hf
  have hcheck : Bytes.field (checkOffset header) 4 "MSISAM password check bytes" header
      = .error (.truncated "MSISAM password check bytes") :=
    Bytes.field_eq_error (Nat.not_le.mp hc)
  -- Flags and salt are read; the check bytes are the last field.
  refine Outcome.bind_eq_error.mpr (Or.inr ⟨flags, flags_eq hf, ?_⟩)
  refine Outcome.bind_eq_error.mpr (Or.inr ⟨saltOf header, hsalt, ?_⟩)
  exact Outcome.bind_eq_error.mpr (Or.inl hcheck)

/-! ## Opening -/

theorem accepts_iff : (lockOf flags layout header).accepts digest = true ↔ Fits digest header := by
  unfold Lock.accepts Fits
  rw [Bool.or_eq_true, beq_iff_eq]
  simp [Bytes.isBlank, lockOf, Lock.baseSalt, baseSaltLength]

theorem passwordDigest_lockOf (password : Option String) :
    (lockOf flags layout header).passwordDigest password
      = digestOf flags layout.textEncoding password :=
  Lock.passwordDigest_eq rfl password

/-- Keys with the page number mixed into the part from the salt. -/
theorem params_eq (hf : header[0x298]? = some flags) (hd : digest.length = 16) (page : UInt32) :
    (PageKeys.msisam ⟨digest ++ (saltOf header).take 4⟩).params page
      = .ofKey (digest ++ Bytes.xor ((saltOf header).take 4) (Bytes.le32 page)) := by
  have hsalt : ((saltOf header).take 4).length = 4 := by
    rw [List.length_take, length_saltOf hf]
    rfl
  show PageParams.ofKey (Bytes.withPageNumber passwordDigestLength page _) = _
  rw [← Bytes.withPageNumber_append hsalt digest page, hd]
  rfl

/-- The handler of a file that was opened with the password of a digest. -/
theorem codes_modern (hf : header[0x298]? = some flags) (hd : digest.length = 16) :
    (modernMsisamHandler ⟨digest ++ (saltOf header).take 4⟩).Codes .msisamModern 14 fun page =>
      Rc4.code (digest ++ Bytes.xor ((saltOf header).take 4) (Bytes.le32 page)) := by
  refine (Handler.codes_stream .msisamModern _ lastMsisamPage).congr ?_
  intro page
  rw [params_eq hf hd]
  rfl

/-- Check bytes that were made from the front of the salt fit. -/
theorem fits_of_eq_crypt
    (h : checkBytesOf header = Rc4.crypt (digest ++ saltOf header) ((saltOf header).take 4)) :
    Fits digest header := by
  right
  rw [h, Rc4.crypt_crypt]

theorem unlock_of_fits {password : Option String}
    (h : Fits (digestOf flags layout.textEncoding password) header) :
    (lockOf flags layout header).unlock password
      = .ok ⟨digestOf flags layout.textEncoding password ++ (saltOf header).take 4⟩ := by
  unfold Lock.unlock
  rw [passwordDigest_lockOf]
  exact if_pos (accepts_iff.mpr h)

theorem unlock_of_not_fits {password : Option String}
    (h : ¬ Fits (digestOf flags layout.textEncoding password) header) :
    (lockOf flags layout header).unlock password = .error .wrongPassword := by
  unfold Lock.unlock
  rw [passwordDigest_lockOf]
  exact if_neg (accepts_iff.not.mpr h)

/-- An attempt that ends in one of three ways, told apart by two conditions, says which of
them hold. -/
theorem decided_of_cases {present fits : Prop} {outcome : Except Error Handler} {h : Handler}
    (hcases : (present ∧ fits ∧ outcome = .ok h)
      ∨ (present ∧ ¬ fits ∧ outcome = .error .wrongPassword)
      ∨ (¬ present ∧ outcome = .error (.truncated "MSISAM password check bytes"))) :
    ((∃ h, outcome = .ok h) ↔ present ∧ fits)
    ∧ (outcome = .error .wrongPassword ↔ present ∧ ¬ fits)
    ∧ ((∃ fault, outcome = .error (.format fault)) ↔ ¬ present)
    ∧ ∀ h', outcome = .ok h' → h' = h := by
  rcases hcases with ⟨hp, hf, rfl⟩ | ⟨hp, hf, rfl⟩ | ⟨hp, rfl⟩
  · simp [hp, hf]
  · simp [hp, hf]
  · simp [hp]

/-- The three things that can become of an attempt. -/
theorem openFile_cases (source : PasswordSource) (spinLimit : UInt32)
    (hm : layout.family = .msisam) (hf : header[0x298]? = some flags)
    (hn : flags &&& 0x06 ≠ 0) :
    let digest := digestOf flags layout.textEncoding source.get.1
    let outcome := (openFile source header layout spinLimit).outcome
    (HasCheckBytes header ∧ Fits digest header
      ∧ outcome = .ok (modernMsisamHandler ⟨digest ++ (saltOf header).take 4⟩))
    ∨ (HasCheckBytes header ∧ ¬ Fits digest header ∧ outcome = .error .wrongPassword)
    ∨ (¬ HasCheckBytes header
      ∧ outcome = .error (.truncated "MSISAM password check bytes")) := by
  intro digest outcome
  have hnewer : isNewer flags = true := bne_iff_ne.mpr hn
  by_cases hc : HasCheckBytes header
  · have ho : outcome
        = ((lockOf flags layout header).unlock source.get.1).map modernMsisamHandler := by
      simp only [outcome, openFile, openMsisam, hm, flags_eq hf, hnewer, read_eq_ok hf hc, if_true]
    by_cases hfits : Fits digest header
    · rw [unlock_of_fits hfits] at ho
      exact Or.inl ⟨hc, hfits, ho⟩
    · rw [unlock_of_not_fits hfits] at ho
      exact Or.inr (Or.inl ⟨hc, hfits, ho⟩)
  · have ho : outcome = .error (.truncated "MSISAM password check bytes") := by
      simp only [outcome, openFile, openMsisam, hm, flags_eq hf, hnewer, read_eq_error hf hc,
        if_true]
    exact Or.inr (Or.inr ⟨hc, ho⟩)

/-- **What becomes of a newer MSISAM file.**  It opens exactly if its check bytes lie
within the header page and fit the password; it fails because of the password exactly if
they are there and do not fit, and because of its format exactly if they are not there.
If it opens, the first fourteen pages are combined with the keystream of the digest and
the front of the salt, with the page number mixed in.  Check bytes that were made for a
password fit it. -/
theorem openFile_modern (source : PasswordSource) (spinLimit : UInt32)
    (hm : layout.family = .msisam) (hf : header[0x298]? = some flags)
    (hn : flags &&& 0x06 ≠ 0) :
    let digest := digestOf flags layout.textEncoding source.get.1
    let outcome := (openFile source header layout spinLimit).outcome
    ((∃ h, outcome = .ok h) ↔ HasCheckBytes header ∧ Fits digest header)
    ∧ (outcome = .error .wrongPassword ↔ HasCheckBytes header ∧ ¬ Fits digest header)
    ∧ ((∃ fault, outcome = .error (.format fault)) ↔ ¬ HasCheckBytes header)
    ∧ (∀ h, outcome = .ok h → h.Codes .msisamModern 14 fun page =>
        Rc4.code (digest ++ Bytes.xor ((saltOf header).take 4) (Bytes.le32 page)))
    ∧ (HasCheckBytes header →
        checkBytesOf header = Rc4.crypt (digest ++ saltOf header) ((saltOf header).take 4) →
        ∃ h, outcome = .ok h) := by
  intro digest outcome
  obtain ⟨hok, hwrong, hformat, heq⟩ :=
    decided_of_cases (openFile_cases source spinLimit hm hf hn)
  refine ⟨hok, hwrong, hformat, ?_, ?_⟩
  · intro h hh
    rw [heq h hh]
    exact codes_modern hf (length_digestOf _ _ _)
  · intro hc hcrypt
    exact hok.mpr ⟨hc, fits_of_eq_crypt hcrypt⟩

/-- A page up to its check bytes: its salt begins with one, and its flags are those of a
newer file. -/
def sampleFront : Bytes :=
  Bytes.fit 0x298 0 (List.replicate 0x72 0 ++ [1, 2, 3, 4, 5, 6, 7, 8])
    ++ [0x02] ++ List.replicate 0x51 0

theorem length_sampleFront : sampleFront.length = 0x2EA := by
  decide +kernel

theorem getElem?_sampleFront (check : Bytes) : (sampleFront ++ check)[0x298]? = some 0x02 := by
  rw [List.getElem?_append_left (by rw [length_sampleFront]; decide)]
  decide +kernel

theorem saltOf_sampleFront (check : Bytes) :
    saltOf (sampleFront ++ check) = [1, 2, 3, 4, 5, 6, 7, 8] := by
  have hdrop : (sampleFront.drop 0x72).length = 0x278 := by
    rw [List.length_drop, length_sampleFront]
  rw [saltOf, List.drop_append_of_le_length (by rw [length_sampleFront]; decide),
    List.take_append_of_le_length (by rw [hdrop]; decide)]
  decide +kernel

theorem checkOffset_sampleFront (check : Bytes) : checkOffset (sampleFront ++ check) = 0x2EA := by
  rw [checkOffset, saltOf_sampleFront]
  rfl

theorem checkBytesOf_sampleFront {check : Bytes} (h : check.length = 4) :
    checkBytesOf (sampleFront ++ check) = check := by
  rw [checkBytesOf, checkOffset_sampleFront, List.drop_left' length_sampleFront, ← h,
    List.take_length]

/-- The digest of the password `a`: MD5 of `41 00` and zeros behind it. -/
def sampleDigest : Bytes :=
  [0x96, 0xBC, 0x98, 0x57, 0x49, 0x1D, 0x5B, 0x3C, 0x68, 0x14, 0x49, 0xE5, 0x72, 0x51, 0x32, 0x42]

theorem digestOf_sample : digestOf 0x02 .utf16 (some "a") = sampleDigest := by
  decide +kernel

/-- Check bytes made for that digest. -/
def sampleCheck : Bytes :=
  [0x65, 0xD4, 0xAB, 0x66]

theorem fits_sampleFront_iff (digest : Bytes) :
    Fits digest (sampleFront ++ sampleCheck)
      ↔ Bytes.xor sampleCheck ((Rc4.Numbers.ofKey (digest ++ [1, 2, 3, 4, 5, 6, 7, 8])).keystream 4)
        = [1, 2, 3, 4] := by
  have hblank : ¬ ∀ b ∈ sampleCheck, b = 0 := by decide
  have hkey : digest ++ [1, 2, 3, 4, 5, 6, 7, 8] ≠ [] := by simp
  unfold Fits
  rw [checkBytesOf_sampleFront rfl, saltOf_sampleFront, or_iff_right hblank,
    Rc4.crypt_eq_numbers hkey]
  rfl

/-- A page whose check bytes fit the password `a` and no other one that is tried; and a page that
ends in front of them. -/
theorem openFile_modern_sampleFront :
    (∃ h, (openFile (.known "a") (sampleFront ++ sampleCheck) .msisam 0).outcome = .ok h
      ∧ h.scheme = .msisamModern ∧ h.isEncoded 14 = true ∧ h.isEncoded 15 = false
      ∧ (h.encode 1 [0, 0, 0, 0] 0).1 = .ok [0x1E, 0x29, 0xD2, 0x7E])
    ∧ (openFile (.known "b") (sampleFront ++ sampleCheck) .msisam 0).outcome
        = .error .wrongPassword
    ∧ ∃ fault, (openFile (.known "a") (sampleFront ++ []) .msisam 0).outcome
        = .error (.format fault) := by
  have hm : Layout.msisam.family = .msisam := rfl
  have hhas : HasCheckBytes (sampleFront ++ sampleCheck) := by
    refine Nat.le_of_eq ?_
    rw [checkOffset_sampleFront, List.length_append, length_sampleFront]
    rfl
  refine ⟨?_, ?_, ?_⟩
  · obtain ⟨hok, -, -, hcodes, -⟩ :=
      openFile_modern (.known "a") 0 hm (getElem?_sampleFront sampleCheck) (by decide)
    have hdigest : digestOf 0x02 Layout.msisam.textEncoding (PasswordSource.known "a").get.1
        = sampleDigest := digestOf_sample
    rw [hdigest, saltOf_sampleFront] at hcodes
    rw [hdigest, fits_sampleFront_iff] at hok
    obtain ⟨h, ho⟩ := hok.mpr ⟨hhas, by decide +kernel⟩
    have hc := hcodes h ho
    refine ⟨h, ho, hc.scheme_eq, (hc.isEncoded_iff 14).mpr (by decide), ?_, ?_⟩
    · rw [Bool.eq_false_iff, ne_eq, hc.isEncoded_iff]
      decide
    · have hkey : sampleDigest ++ Bytes.xor [1, 2, 3, 4] (Bytes.le32 1) ≠ [] := by
        simp [sampleDigest]
      refine (hc.encode_eq 1 (by decide) (by decide) [] [0, 0, 0, 0] 0 (by decide)).trans ?_
      refine (Rc4.code_eq_numbers hkey .encrypt [0, 0, 0, 0]).trans ?_
      decide +kernel
  · obtain ⟨-, hwrong, -⟩ :=
      openFile_modern (.known "b") 0 hm (getElem?_sampleFront sampleCheck) (by decide)
    rw [fits_sampleFront_iff] at hwrong
    exact hwrong.mpr ⟨hhas, by decide +kernel⟩
  · obtain ⟨-, -, hformat, -⟩ :=
      openFile_modern (.known "a") 0 hm (getElem?_sampleFront []) (by decide)
    refine hformat.mpr ?_
    rw [HasCheckBytes, checkOffset_sampleFront, List.length_append, length_sampleFront]
    decide

end PageVault.Msisam
