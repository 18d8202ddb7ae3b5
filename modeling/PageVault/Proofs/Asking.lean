import PageVault.Proofs.Files.Header
import PageVault.Proofs.Files.Msisam
import PageVault.Proofs.Keys.Unlocking

/-!
# When the password is asked for

The header page of a file says whether its password is needed: a newer MSISAM file needs
it once its check bytes are there, an office file once its version is there
(`FileRequest.NeedsPassword`).  An attempt to open such a file puts the question, and
depends on the source of the password through the answer alone; any other attempt does not
look at the source (`FileRequest.attempt_cases`).  So in a sequence of attempts with one
source the question is put once, by the first that needs the answer.

§1 attempts in a row · §2 files that need a password · §3 one attempt · §4 all of them.
-/

namespace PageVault

/-! ## §1  Attempts in a row -/

/-- A file that a host wants to open. -/
structure FileRequest where
  header : Bytes
  layout : Layout
  spinLimit : UInt32

def FileRequest.attempt (r : FileRequest) (source : PasswordSource) : Attempt :=
  openFile source r.header r.layout r.spinLimit

/-- Files opened one after another with one source, whether they open or not: the outcomes,
and what is known about the password afterwards. -/
def openAll (source : PasswordSource) :
    List FileRequest → List (Except Error Handler) × PasswordSource
  | [] => ([], source)
  | r :: rs =>
      let first := r.attempt source
      let (outcomes, source') := openAll first.source rs
      (first.outcome :: outcomes, source')

theorem openAll_cons (source : PasswordSource) (r : FileRequest) (rs : List FileRequest) :
    openAll source (r :: rs)
      = ((r.attempt source).outcome :: (openAll (r.attempt source).source rs).1,
          (openAll (r.attempt source).source rs).2) := rfl

/-! ## §2  Files that need a password -/

/-- What a header page has to hold for the password to be needed.  A file without a scheme
and a Jet file never need it, an MSISAM file only if it is of the newer kind, and an office
file only if its encoding key is not blank; pages that end too early do not get so far. -/
def FileRequest.NeedsPassword (r : FileRequest) : Prop :=
  match r.layout.family with
  | .none => False
  | .jet => False
  | .msisam =>
      ∃ flags, r.header[0x298]? = some flags ∧ flags &&& 0x06 ≠ 0 ∧ Msisam.HasCheckBytes r.header
  | .office => ∃ encodingKey info, HoldsInfo r.layout r.header encodingKey info ∧ 4 ≤ info.length

namespace Bytes

theorem field_eq_ok_iff {offset len : Nat} {name : String} {b s : Bytes} :
    field offset len name b = .ok s ↔ slice? offset len b = some s := by
  unfold field
  cases slice? offset len b with
  | none => simp
  | some s' => simp

theorem byteAt_eq_ok_iff {offset : Nat} {name : String} {b : Bytes} {x : UInt8} :
    byteAt offset name b = .ok x ↔ b[offset]? = some x := by
  unfold byteAt
  cases b[offset]? with
  | none => simp
  | some y => simp

/-- Four bytes or more begin with two version numbers. -/
theorem exists_eq_versioned {b : Bytes} (h : 4 ≤ b.length) :
    ∃ major minor rest, b = versioned major minor rest := by
  refine ⟨.ofNat (toNatLE (b.take 2)), .ofNat (toNatLE ((b.drop 2).take 2)), b.drop 4, ?_⟩
  unfold versioned
  rw [le16_ofNat_toNatLE (by rw [List.length_take]; omega),
    le16_ofNat_toNatLE (by rw [List.length_take, List.length_drop]; omega),
    ← List.take_add, List.take_append_drop]

end Bytes

/-- Versions that were read take four bytes. -/
theorem four_le_of_infoVersion {info : Bytes} {version : UInt16 × UInt16} {c : Cursor}
    (h : infoVersion (.start info) = (.ok version, c)) : 4 ≤ info.length := by
  unfold infoVersion Reading.word16 at h
  obtain ⟨major, c₁, hmajor, h⟩ := Reading.bind_eq_ok.mp h
  obtain ⟨minor, c₂, hminor, -⟩ := Reading.bind_eq_ok.mp h
  obtain ⟨b₁, c₁', htake₁, hmajor⟩ := Reading.bind_eq_ok.mp hmajor
  obtain ⟨b₂, c₂', htake₂, -⟩ := Reading.bind_eq_ok.mp hminor
  obtain ⟨-, rfl⟩ := Reading.pure_eq_ok.mp hmajor
  have hinfo : info = b₁ ++ (b₂ ++ c₂'.remaining) := by
    rw [← Reading.remaining_of_take_eq_ok htake₂, ← Reading.remaining_of_take_eq_ok htake₁,
      Cursor.remaining_start]
  rw [hinfo, List.length_append, List.length_append, Reading.length_of_take_eq_ok htake₁,
    Reading.length_of_take_eq_ok htake₂]
  omega

theorem holdsInfo_of_encryptionInfo {layout : Layout} {header encodingKey info : Bytes}
    (hk : layout.encodingKey "Office encoding key" header = .ok encodingKey)
    (hb : Bytes.isBlank encodingKey = false) (hi : encryptionInfo header = .ok info) :
    HoldsInfo layout header encodingKey info := by
  unfold encryptionInfo at hi
  obtain ⟨b, hlength, hi⟩ := Outcome.bind_eq_ok.mp hi
  have hb2 : b.length = 2 := Bytes.length_of_slice?_eq_some (Bytes.field_eq_ok_iff.mp hlength)
  by_cases hlt : Bytes.toNatLE b < 0x8000
  · have hinfo := Bytes.field_eq_ok_iff.mp ((if_pos hlt).symm.trans hi)
    have hn : info.length = Bytes.toNatLE b := Bytes.length_of_slice?_eq_some hinfo
    refine ⟨Bytes.field_eq_ok_iff.mp hk, hb, ?_, ?_, ?_⟩
    · omega
    · rw [hn, Bytes.le16_ofNat_toNatLE hb2]
      exact Bytes.field_eq_ok_iff.mp hlength
    · rw [hn]
      exact hinfo
  · cases (if_neg hlt).symm.trans hi

/-- **The version of an office file is read exactly if the header page holds it.** -/
theorem exists_readOfficeInfo_iff {header : Bytes} {layout : Layout} :
    (∃ info, readOfficeInfo header layout = .ok (some info))
      ↔ ∃ encodingKey info, HoldsInfo layout header encodingKey info ∧ 4 ≤ info.length := by
  constructor
  · rintro ⟨found, h⟩
    unfold readOfficeInfo at h
    obtain ⟨encodingKey, hk, h⟩ := Outcome.bind_eq_ok.mp h
    split at h
    · cases h
    · rename_i hb
      obtain ⟨info, hi, h⟩ := Outcome.bind_eq_ok.mp h
      split at h
      · rename_i hversion
        have hholds := holdsInfo_of_encryptionInfo hk (Bool.eq_false_iff.mpr hb) hi
        exact ⟨encodingKey, info, hholds, four_le_of_infoVersion hversion⟩
      · cases h
  · rintro ⟨encodingKey, info, h, hlen⟩
    obtain ⟨major, minor, rest, rfl⟩ := Bytes.exists_eq_versioned hlen
    exact ⟨_, h.readOfficeInfo_eq⟩

/-! ## §3  One attempt -/

/-- The attempt puts the question for the password, and all it makes of the source is the
answer. -/
def Asks (attempt : PasswordSource → Attempt) : Prop :=
  ∃ outcome : Option String → Except Error Handler,
    ∀ source, attempt source = ⟨outcome source.get.1, source.get.2⟩

/-- The attempt does not look at the source, and leaves it as it was. -/
def Ignores (attempt : PasswordSource → Attempt) : Prop :=
  ∃ outcome, ∀ source, attempt source = ⟨outcome, source⟩

theorem openMsisam_cases (header : Bytes) (layout : Layout) :
    ((∃ flags, header[0x298]? = some flags ∧ flags &&& 0x06 ≠ 0 ∧ Msisam.HasCheckBytes header)
        ∧ Asks fun source => openMsisam source header layout)
      ∨ ((¬ ∃ flags, header[0x298]? = some flags ∧ flags &&& 0x06 ≠ 0
          ∧ Msisam.HasCheckBytes header)
        ∧ Ignores fun source => openMsisam source header layout) := by
  unfold openMsisam
  cases hf : header[0x298]? with
  | none =>
      have he : Msisam.flags header = .error (.truncated "MSISAM encryption flags") := by
        unfold Msisam.flags Bytes.byteAt Msisam.flagsOffset
        rw [hf]
      rw [he]
      exact Or.inr ⟨nofun, _, fun _ => rfl⟩
  | some flags =>
      rw [Msisam.flags_eq hf]
      by_cases hn : flags &&& 0x06 ≠ 0
      · have hnewer : Msisam.isNewer flags = true := bne_iff_ne.mpr hn
        simp only [hnewer, if_true]
        by_cases hc : Msisam.HasCheckBytes header
        · rw [Msisam.read_eq_ok hf hc]
          exact Or.inl ⟨⟨flags, rfl, hn, hc⟩, fun password =>
            ((Msisam.lockOf flags layout header).unlock password).map modernMsisamHandler,
            fun _ => rfl⟩
        · rw [Msisam.read_eq_error hf hc]
          refine Or.inr ⟨?_, _, fun _ => rfl⟩
          rintro ⟨-, -, -, hc'⟩
          exact hc hc'
      · have hnewer : Msisam.isNewer flags = false := by
          rw [Bool.eq_false_iff]
          exact mt bne_iff_ne.mp hn
        simp only [hnewer]
        refine Or.inr ⟨?_, _, fun _ => rfl⟩
        rintro ⟨flags', h, hn', -⟩
        cases h
        exact hn hn'

theorem openOffice_cases (header : Bytes) (layout : Layout) (spinLimit : UInt32) :
    ((∃ encodingKey info, HoldsInfo layout header encodingKey info ∧ 4 ≤ info.length)
        ∧ Asks fun source => openOffice source header layout spinLimit)
      ∨ ((¬ ∃ encodingKey info, HoldsInfo layout header encodingKey info ∧ 4 ≤ info.length)
        ∧ Ignores fun source => openOffice source header layout spinLimit) := by
  rw [← exists_readOfficeInfo_iff]
  unfold openOffice
  cases hr : readOfficeInfo header layout with
  | error e => exact Or.inr ⟨nofun, _, fun _ => rfl⟩
  | ok found =>
      cases found with
      | none => exact Or.inr ⟨nofun, _, fun _ => rfl⟩
      | some info => exact Or.inl ⟨⟨info, rfl⟩, _, fun _ => rfl⟩

namespace FileRequest

/-- **An attempt asks for the password, or ignores its source**, and the header page
decides which. -/
theorem attempt_cases (r : FileRequest) :
    (r.NeedsPassword ∧ Asks r.attempt) ∨ (¬ r.NeedsPassword ∧ Ignores r.attempt) := by
  obtain ⟨header, layout, spinLimit⟩ := r
  unfold NeedsPassword attempt openFile
  cases layout.family with
  | none => exact Or.inr ⟨id, _, fun _ => rfl⟩
  | jet => exact Or.inr ⟨id, _, fun _ => rfl⟩
  | msisam => exact openMsisam_cases header layout
  | office => exact openOffice_cases header layout spinLimit

variable {r : FileRequest}

theorem ignores_of_not_needsPassword (h : ¬ r.NeedsPassword) : Ignores r.attempt := by
  rcases r.attempt_cases with ⟨hn, -⟩ | ⟨-, hi⟩
  · exact absurd hn h
  · exact hi

theorem source_attempt_of_needsPassword (h : r.NeedsPassword) (source : PasswordSource) :
    (r.attempt source).source = source.get.2 := by
  rcases r.attempt_cases with ⟨-, outcome, ho⟩ | ⟨hn, -⟩
  · rw [ho]
  · exact absurd h hn

theorem source_attempt_of_not_needsPassword (h : ¬ r.NeedsPassword) (source : PasswordSource) :
    (r.attempt source).source = source := by
  obtain ⟨outcome, ho⟩ := ignores_of_not_needsPassword h
  rw [ho]

/-- An attempt depends on its source through the answer alone. -/
theorem outcome_attempt_congr {source source' : PasswordSource}
    (h : source.get.1 = source'.get.1) :
    (r.attempt source).outcome = (r.attempt source').outcome := by
  rcases r.attempt_cases with ⟨-, outcome, ho⟩ | ⟨-, outcome, ho⟩
  · rw [ho, ho, h]
  · rw [ho, ho]

end FileRequest

/-! ## §4  All of them -/

/-- Once the question was answered, no attempt changes the source any more. -/
theorem openAll_of_settled {source : PasswordSource} (h : source.get = (source.get.1, source))
    (rs : List FileRequest) : (openAll source rs).2 = source := by
  induction rs with
  | nil => rfl
  | cons r rs ih =>
      have hsource : (r.attempt source).source = source := by
        by_cases hn : r.NeedsPassword
        · rw [FileRequest.source_attempt_of_needsPassword hn, h]
        · exact FileRequest.source_attempt_of_not_needsPassword hn source
      rw [openAll_cons, hsource]
      exact ih

/-- **The source after a sequence of attempts**: asked once if one of them needed the
password, and otherwise untouched. -/
theorem openAll_snd (source : PasswordSource) (rs : List FileRequest) :
    ((∃ r ∈ rs, r.NeedsPassword) ∧ (openAll source rs).2 = source.get.2)
      ∨ ((¬ ∃ r ∈ rs, r.NeedsPassword) ∧ (openAll source rs).2 = source) := by
  induction rs with
  | nil => exact Or.inr ⟨nofun, rfl⟩
  | cons r rs ih =>
      rw [openAll_cons]
      by_cases hn : r.NeedsPassword
      · -- The rest finds the question answered.
        have hsettled : source.get.2.get = (source.get.2.get.1, source.get.2) := by
          rw [PasswordSource.get_get]
        rw [FileRequest.source_attempt_of_needsPassword hn]
        exact Or.inl ⟨⟨r, List.mem_cons_self, hn⟩, openAll_of_settled hsettled rs⟩
      · rw [FileRequest.source_attempt_of_not_needsPassword hn]
        simp only [List.exists_mem_cons_iff, hn, false_or]
        exact ih

/-- Every attempt of a sequence sees the same answer. -/
theorem openAll_fst {source : PasswordSource} {answer : Option String}
    (h : source.get.1 = answer) (rs : List FileRequest) :
    (openAll source rs).1 = rs.map fun r => (r.attempt (.ofOption answer)).outcome := by
  induction rs generalizing source with
  | nil => rfl
  | cons r rs ih =>
      have hnext : (r.attempt source).source.get.1 = answer := by
        by_cases hn : r.NeedsPassword
        · rw [FileRequest.source_attempt_of_needsPassword hn, PasswordSource.get_get, h]
        · rw [FileRequest.source_attempt_of_not_needsPassword hn, h]
      have hfirst : (r.attempt source).outcome = (r.attempt (.ofOption answer)).outcome :=
        FileRequest.outcome_attempt_congr h
      rw [openAll_cons, List.map_cons]
      exact congrArg₂ List.cons hfirst (ih hnext)

/-- **The password is asked for once, and only if it is needed.**  Whatever files are opened
one after another with one question for their password, and whether they open or not: the
question is put at most once, and it was put exactly if one of the header pages calls for
it.  Every file is answered as if the one answer had been known from the start.  A file that
does not call for the password leaves the source as it was, and what becomes of it does not
depend on the source. -/
theorem openAll_asks_once (ask : Nat → Option String) (requests : List FileRequest) :
    (openAll (.asking ask) requests).2.asked ≤ 1
    ∧ ((openAll (.asking ask) requests).2.asked = 1 ↔ ∃ r ∈ requests, r.NeedsPassword)
    ∧ (openAll (.asking ask) requests).1
        = requests.map (fun r => (r.attempt (.ofOption (ask 0))).outcome)
    ∧ ∀ r : FileRequest, ¬ r.NeedsPassword → ∀ source source',
        (r.attempt source).source = source
          ∧ (r.attempt source).outcome = (r.attempt source').outcome := by
  refine ⟨?_, ?_, openAll_fst rfl requests, ?_⟩
  · rcases openAll_snd (.asking ask) requests with ⟨-, hs⟩ | ⟨-, hs⟩
    · rw [hs]
      exact Nat.le_refl 1
    · rw [hs]
      exact Nat.zero_le 1
  · rcases openAll_snd (.asking ask) requests with ⟨hn, hs⟩ | ⟨hn, hs⟩
    · rw [hs]
      exact iff_of_true rfl hn
    · rw [hs]
      exact iff_of_false Nat.zero_ne_one hn
  · intro r hn source source'
    obtain ⟨outcome, ho⟩ := FileRequest.ignores_of_not_needsPassword hn
    rw [ho, ho]
    exact ⟨rfl, rfl⟩

/-- A page that is too short, a file that needs the password, and the same file again. -/
theorem openAll_asks_once_unchecked (ask : Nat → Option String) :
    let short : FileRequest := ⟨[0], .accdb, 0⟩
    let file : FileRequest := ⟨uncheckedHeader, uncheckedLayout, 0⟩
    (openAll (.asking ask) [short, file, file]).2.asked = 1
      ∧ ∀ source, (short.attempt source).source = source := by
  intro short file
  obtain ⟨-, hasked, -, hignored⟩ := openAll_asks_once ask [short, file, file]
  constructor
  · have hoffset : uncheckedLayout.encodingKeyOffset.toNat + 4 ≤ 0x299 := by
      decide
    have hholds : HoldsInfo uncheckedLayout uncheckedHeader [1, 2, 3, 4] uncheckedInfo :=
      holdsInfo_headerPage hoffset rfl rfl (by decide)
    have hneeds : file.NeedsPassword := ⟨[1, 2, 3, 4], uncheckedInfo, hholds, by decide⟩
    exact hasked.mpr ⟨file, List.mem_cons_of_mem _ List.mem_cons_self, hneeds⟩
  · intro source
    refine (hignored short ?_ source source).1
    rintro ⟨encodingKey, info, h, -⟩
    have hnone : Bytes.slice? 0x3E 4 [0] = none := rfl
    exact absurd (hnone.symm.trans h.encodingKey_eq) nofun

end PageVault
