import PageVault.Proofs.Keys.Unlocking

/-!
# What a password decides

A password decides whether a file opens, and nothing else.  For each file there is a
verdict on what becomes of it with the right password: the parts of the handler that
can be compared, or the error that remains.  Whatever the password, the attempt fails
because of it or ends with that verdict (`DecidedBy`).

For the agile provider this needs an argument, since some of its checks come after the
password was found to be right: they are about lengths, which no key changes
(`AgileLock.verdict`).

§1 verdicts · §2 locks · §3 the face of a handler · §4 files · §5 two attempts.
-/

namespace PageVault

/-! ## §1  Verdicts -/

variable {P Q α β γ : Type}

/-- Whatever the password, the attempt fails because of it or ends with the verdict;
of a success, `face` is what the verdict speaks about. -/
def DecidedBy (attempt : P → Except Error α) (face : α → β) (verdict : Except Error β) : Prop :=
  ∀ p, attempt p = .error .wrongPassword ∨ (attempt p).map face = verdict

theorem decidedBy_const (r : Except Error α) (face : α → β) :
    DecidedBy (fun _ : P => r) face (r.map face) := by
  intro p
  exact Or.inr rfl

/-- A password that is prepared first decides no more. -/
theorem DecidedBy.comp {attempt : P → Except Error α} {face : α → β} {verdict : Except Error β}
    (h : DecidedBy attempt face verdict) (prepare : Q → P) :
    DecidedBy (fun q => attempt (prepare q)) face verdict := by
  intro q
  exact h (prepare q)

/-- What is made of a success has the face that is made of it. -/
theorem DecidedBy.map {attempt : P → Except Error α} {verdict : Except Error γ} (f : α → β)
    (face : β → γ) (h : DecidedBy attempt (fun a => face (f a)) verdict) :
    DecidedBy (fun p => (attempt p).map f) face verdict := by
  intro p
  rcases h p with hp | hp
  · left
    show (attempt p).map f = _
    rw [hp]
    rfl
  · right
    show ((attempt p).map f).map face = _
    rw [← hp]
    cases attempt p with
    | error e => rfl
    | ok a => rfl

/-- If all successes have the same face, it is enough to decide whether there is one. -/
theorem DecidedBy.of_unit {attempt : P → Except Error α} {verdict : Except Error Unit}
    {face : α → β} {b : β} (h : DecidedBy attempt (fun _ => ()) verdict)
    (hf : ∀ a, face a = b) : DecidedBy attempt face (verdict.map fun _ => b) := by
  intro p
  rcases h p with hp | hp
  · exact Or.inl hp
  · right
    rw [← hp]
    cases attempt p with
    | error e => rfl
    | ok a => exact congrArg Except.ok (hf a)

/-! ## §2  Locks -/

/-- A check of the password, and nothing behind it that can fail. -/
theorem decided_of_check (accepted : Prop) [Decidable accepted] (a : α) :
    (if accepted then .ok a else .error .wrongPassword : Except Error α) = .error .wrongPassword
      ∨ (if accepted then .ok a else .error .wrongPassword : Except Error α).map (fun _ => ())
        = .ok () := by
  by_cases h : accepted
  · right
    rw [if_pos h]
    rfl
  · exact Or.inl (if_neg h)

theorem StandardLock.decidedBy_unlock {lock : StandardLock} (hl : lock.WellFormed) :
    DecidedBy lock.unlock (fun _ => ()) (.ok ()) := by
  intro password
  obtain ⟨verifier, hash, -, -, hu⟩ := exists_unlock_eq hl password
  rw [hu]
  exact decided_of_check _ _

theorem CryptoApiLock.decidedBy_unlock (lock : CryptoApiLock) :
    DecidedBy lock.unlock (fun _ => ()) (.ok ()) := by
  intro password
  unfold unlock
  exact decided_of_check _ _

theorem BinaryDocumentLock.decidedBy_unlock (lock : BinaryDocumentLock) :
    DecidedBy lock.unlock (fun _ => ()) (.ok ()) := by
  intro password
  unfold unlock
  exact decided_of_check _ _

theorem Msisam.Lock.decidedBy_unlock (lock : Msisam.Lock) :
    DecidedBy lock.unlock (fun _ => ()) (.ok ()) := by
  intro password
  exact decided_of_check _ _

namespace AgileLock

/-- What becomes of a lock with the right password: the first stored value that is
refused says why, and else the key value has to be long enough. -/
def verdict (lock : AgileLock) : Except Error Unit :=
  match lock.refusalOf lock.encryptor.encryptedVerifier,
    lock.refusalOf lock.encryptor.encryptedVerifierHash,
    lock.refusalOf lock.encryptor.encryptedKeyValue with
  | some e, _, _ => .error e
  | none, some e, _ => .error e
  | none, none, some e => .error e
  | none, none, none =>
      if lock.encryptor.encryptedKeyValue.length < lock.pageSuite.keyLength then
        .error (.configuration (.shortKeyValue lock.encryptor.encryptedKeyValue.length
          lock.pageSuite.keyLength))
      else .ok ()

variable {lock : AgileLock}

/-- Once the verifier was found to be right, lengths decide. -/
theorem map_release_eq_verdict (hv : lock.refusalOf lock.encryptor.encryptedVerifier = none)
    (hh : lock.refusalOf lock.encryptor.encryptedVerifierHash = none) (stretched : Bytes) :
    (lock.release stretched).map (fun _ => ()) = lock.verdict := by
  unfold verdict release
  rw [hv, hh]
  cases hk : lock.refusalOf lock.encryptor.encryptedKeyValue with
  | some e =>
      rw [unwrap_of_refusalOf hk]
      rfl
  | none =>
      -- Unwrapping keeps the length, so the key value is too short under every key or
      -- under none.
      obtain ⟨keyValue, hu, hlen⟩ := exists_unwrap hk stretched keyValueBlock
      rw [hu, ← hlen]
      show (if _ then _ else _ : Except Error AgileKeys).map _ = if _ then _ else _
      split
      · rfl
      · rfl

/-- **No check of an agile lock depends on the password**, but the one of the password
itself. -/
theorem decidedBy_unlock (lock : AgileLock) :
    DecidedBy lock.unlock (fun _ => ()) lock.verdict := by
  intro password
  rw [unlock_eq]
  -- In the order of the steps: a refusal before the check comes with every password, one
  -- behind it with every password that passes.
  cases hv : lock.refusalOf lock.encryptor.encryptedVerifier with
  | some e =>
      right
      unfold verdict
      rw [unwrap_of_refusalOf hv, hv]
      rfl
  | none =>
      obtain ⟨verifier, hu, -⟩ := exists_unwrap hv (lock.stretched password) verifierBlock
      rw [hu]
      cases hh : lock.refusalOf lock.encryptor.encryptedVerifierHash with
      | some e =>
          right
          unfold verdict
          rw [unwrap_of_refusalOf hh, hv, hh]
          rfl
      | none =>
          obtain ⟨hash, hu', -⟩ := exists_unwrap hh (lock.stretched password) verifierHashBlock
          rw [hu']
          show (if _ then _ else _ : Except Error AgileKeys) = _
            ∨ (if _ then _ else _ : Except Error AgileKeys).map _ = _
          split
          · exact Or.inr (map_release_eq_verdict hv hh (lock.stretched password))
          · exact Or.inl rfl

end AgileLock

/-! ## §3  The face of a handler -/

/-- What a host can ask the handler of an open file about without coding a page. -/
structure Face where
  scheme : Scheme
  encodesPartialPages : Bool
  decodesInline : Bool
  /-- Whether a page is stored encoded. -/
  isEncoded : UInt32 → Bool

/-- What a host sees of a handler. -/
def Handler.face (h : Handler) : Face :=
  ⟨h.scheme, h.encodesPartialPages, h.decodesInline, h.isEncoded⟩

/-- The face of a handler does not show its keys. -/
def Face.of (scheme : Scheme) (transform : PageTransform) (lastPage : UInt32) : Face where
  scheme := scheme
  encodesPartialPages := decide (transform = .stream)
  decodesInline := decide (transform = .stream)
  isEncoded page := 0 < page && page ≤ lastPage

theorem Handler.face_coded (c : Codec) :
    (coded c).face = .of c.scheme c.transform c.lastPage := rfl

/-- Of a codec that is made of the keys a password opens, the face is decided. -/
theorem DecidedBy.fresh {attempt : P → Except Error α} {verdict : Except Error Unit}
    (h : DecidedBy attempt (fun _ => ()) verdict) (scheme : Scheme) (keys : α → PageKeys)
    (transform : PageTransform) (lastPage : UInt32) :
    DecidedBy (fun p => (attempt p).map fun a => Codec.fresh scheme (keys a) transform lastPage)
      (fun c => (Handler.coded c).face)
      (verdict.map fun _ => Face.of scheme transform lastPage) := by
  refine DecidedBy.map _ _ (h.of_unit ?_)
  intro a
  exact Handler.face_coded (.fresh scheme (keys a) transform lastPage)

/-! ## §4  Files -/

/-- Of a lock that was read, the face of the handler behind it is decided. -/
theorem OfficeLock.exists_decidedBy_unlock {lock : OfficeLock} (hl : lock.WellFormed) :
    ∃ verdict, DecidedBy lock.unlock (fun c => (Handler.coded c).face) verdict := by
  cases lock with
  | standard scheme lock =>
      exact ⟨_, (StandardLock.decidedBy_unlock hl.2).fresh scheme .standard _ _⟩
  | cryptoApi lock => exact ⟨_, lock.decidedBy_unlock.fresh _ .cryptoApi _ _⟩
  | binaryDocument lock => exact ⟨_, lock.decidedBy_unlock.fresh _ .binaryDocument _ _⟩
  | agile lock => exact ⟨_, lock.decidedBy_unlock.fresh _ .agile _ _⟩

theorem OfficeInfo.exists_decidedBy_unlock (info : OfficeInfo) (spinLimit : UInt32) :
    ∃ verdict, DecidedBy (info.unlock spinLimit) Handler.face verdict := by
  unfold unlock
  cases hr : (OfficeLock.read info.encodingKey spinLimit info.major info.minor info.cursor).1 with
  | error e => exact ⟨_, decidedBy_const (.error e) Handler.face⟩
  | ok lock =>
      have hl : lock.WellFormed := (OfficeLock.readAs_of_read (Prod.ext hr rfl)).wellFormed
      obtain ⟨verdict, h⟩ := OfficeLock.exists_decidedBy_unlock hl
      exact ⟨verdict, (h.map Handler.coded Handler.face).comp passwordBytes⟩

/-- What opening an MSISAM file comes to with the right password. -/
theorem exists_decidedBy_openMsisam (header : Bytes) (layout : Layout) :
    ∃ verdict, DecidedBy (fun source => (openMsisam source header layout).outcome) Handler.face
      verdict := by
  unfold openMsisam
  cases Msisam.flags header with
  | error e => exact ⟨_, decidedBy_const (.error e) Handler.face⟩
  | ok flags =>
      dsimp only
      by_cases hn : Msisam.isNewer flags = true
      · simp only [if_pos hn]
        cases Msisam.Lock.read layout header with
        | error e => exact ⟨_, decidedBy_const (.error e) Handler.face⟩
        | ok lock =>
            have hface : ∀ keys, (modernMsisamHandler keys).face
                = .of .msisamModern .stream lastMsisamPage := by
              intro keys
              exact Handler.face_coded (.fresh .msisamModern (.msisam keys) .stream lastMsisamPage)
            have h := (lock.decidedBy_unlock.of_unit hface).map modernMsisamHandler Handler.face
            exact ⟨_, h.comp fun source : PasswordSource => source.get.1⟩
      · simp only [if_neg hn]
        exact ⟨_, decidedBy_const (openOldMsisam header layout) Handler.face⟩

theorem exists_decidedBy_openOffice (header : Bytes) (layout : Layout) (spinLimit : UInt32) :
    ∃ verdict, DecidedBy (fun source => (openOffice source header layout spinLimit).outcome)
      Handler.face verdict := by
  unfold openOffice
  cases readOfficeInfo header layout with
  | error e => exact ⟨_, decidedBy_const (.error e) Handler.face⟩
  | ok found =>
      cases found with
      | none => exact ⟨_, decidedBy_const (.ok .plain) Handler.face⟩
      | some info =>
          obtain ⟨verdict, h⟩ := info.exists_decidedBy_unlock spinLimit
          exact ⟨verdict, h.comp fun source : PasswordSource => source.get.1⟩

/-- **For each file there is a verdict** that every attempt to open it ends with, unless
it fails because of the password. -/
theorem exists_decidedBy_openFile (header : Bytes) (layout : Layout) (spinLimit : UInt32) :
    ∃ verdict, DecidedBy (fun source => (openFile source header layout spinLimit).outcome)
      Handler.face verdict := by
  unfold openFile
  cases layout.family with
  | none => exact ⟨_, decidedBy_const (.ok .plain) Handler.face⟩
  | jet => exact ⟨_, decidedBy_const (openJet header layout) Handler.face⟩
  | msisam => exact exists_decidedBy_openMsisam header layout
  | office => exact exists_decidedBy_openOffice header layout spinLimit

/-! ## §5  Two attempts -/

section

variable {attempt : P → Except Error α} {face : α → β} {verdict : Except Error β} {p q : P}

/-- After one success, any other attempt succeeds with the same face, unless it fails
because of the password. -/
theorem DecidedBy.of_ok {a : α} (h : DecidedBy attempt face verdict) (hp : attempt p = .ok a)
    (q : P) :
    attempt q = .error .wrongPassword ∨ ∃ b, attempt q = .ok b ∧ face b = face a := by
  have hv : verdict = .ok (face a) := by
    rcases h p with hw | hv
    · rw [hp] at hw
      cases hw
    · rw [hp] at hv
      exact hv.symm
  rcases h q with hw | hq
  · exact Or.inl hw
  · right
    rw [hv] at hq
    exact Outcome.map_eq_ok.mp hq

/-- Errors that do not come from the password are the same. -/
theorem DecidedBy.error_eq {e e' : Error} (h : DecidedBy attempt face verdict)
    (hp : attempt p = .error e) (hq : attempt q = .error e') (he : e ≠ .wrongPassword)
    (he' : e' ≠ .wrongPassword) : e = e' := by
  have hv : ∀ {p e}, attempt p = .error e → e ≠ .wrongPassword → verdict = .error e := by
    intro p e hp he
    rcases h p with hw | hv
    · rw [hp] at hw
      cases hw
      exact absurd rfl he
    · rw [hp] at hv
      exact hv.symm
  have h₂ := hv hq he'
  rw [hv hp he] at h₂
  cases h₂
  rfl

end

/-- **The password only decides between acceptance and a wrong password.**  Of two
attempts to open a file with different passwords: if one succeeds, the other succeeds
with the same scheme, the same capabilities and the same encoded pages, or it fails
because of the password, which is a matter of credentials and not of structure; and
if both fail for other reasons, they fail for the same one. -/
theorem openFile_decided_by_password (header : Bytes) (layout : Layout) (spinLimit : UInt32)
    (source₁ source₂ : PasswordSource) :
    let first := (openFile source₁ header layout spinLimit).outcome
    let second := (openFile source₂ header layout spinLimit).outcome
    (∀ h₁, first = .ok h₁ →
      second = .error .wrongPassword ∨ ∃ h₂, second = .ok h₂ ∧ h₂.scheme = h₁.scheme
        ∧ h₂.encodesPartialPages = h₁.encodesPartialPages ∧ h₂.decodesInline = h₁.decodesInline
        ∧ ∀ page, h₂.isEncoded page = h₁.isEncoded page)
    ∧ (∀ e₁ e₂, first = .error e₁ → second = .error e₂ → e₁ ≠ .wrongPassword →
      e₂ ≠ .wrongPassword → e₁ = e₂ ∧ e₁.message = e₂.message)
    ∧ ∀ h₁ e₂, first = .ok h₁ → second = .error e₂ → e₂.kind = .invalidCredentials := by
  obtain ⟨verdict, hd⟩ := exists_decidedBy_openFile header layout spinLimit
  refine ⟨?_, ?_, ?_⟩
  · intro h₁ hok
    rcases hd.of_ok hok source₂ with hw | ⟨h₂, h₂ok, hface⟩
    · exact Or.inl hw
    · refine Or.inr ⟨h₂, h₂ok, congrArg Face.scheme hface,
        congrArg Face.encodesPartialPages hface, congrArg Face.decodesInline hface, ?_⟩
      intro page
      exact congrFun (congrArg Face.isEncoded hface) page
  · intro e₁ e₂ he₁ he₂ hn₁ hn₂
    have he : e₁ = e₂ := hd.error_eq he₁ he₂ hn₁ hn₂
    exact ⟨he, congrArg Error.message he⟩
  · intro h₁ e₂ hok he₂
    rcases hd.of_ok hok source₂ with hw | ⟨h₂, h₂ok, -⟩
    · rw [he₂] at hw
      cases hw
      rfl
    · rw [he₂] at h₂ok
      cases h₂ok

/-- A file that opens with and without a password, and a page too short to be a header. -/
theorem openFile_decided_by_password_unchecked :
    (∃ h₁ h₂ : Handler,
      (openFile (.known "a") uncheckedHeader uncheckedLayout 0).outcome = .ok h₁
        ∧ (openFile .absent uncheckedHeader uncheckedLayout 0).outcome = .ok h₂
        ∧ h₂.scheme = h₁.scheme ∧ ∀ page, h₂.isEncoded page = h₁.isEncoded page)
    ∧ ∃ e, (openFile (.known "a") [0] .accdb 0).outcome = .error e
        ∧ (openFile .absent [0] .accdb 0).outcome = .error e ∧ e.kind = .structural := by
  constructor
  · have hopen :=
      openFile_decided_by_password uncheckedHeader uncheckedLayout 0 (.known "a") .absent
    have h₁ := openFile_uncheckedHeader (.known "a") 0
    rcases hopen.1 _ h₁ with hw | ⟨h₂, h₂ok, hscheme, -, -, hpages⟩
    · rw [openFile_uncheckedHeader] at hw
      cases hw
    · exact ⟨_, h₂, h₁, h₂ok, hscheme, hpages⟩
  · have hfail := openFile_decided_by_password [0] .accdb 0 (.known "a") .absent
    have he : (openFile (.known "a") [0] .accdb 0).outcome
        = .error (.truncated "Office encoding key") := rfl
    obtain ⟨heq, -⟩ := hfail.2.1 _ _ he rfl nofun nofun
    exact ⟨_, he, heq ▸ rfl, rfl⟩

end PageVault
