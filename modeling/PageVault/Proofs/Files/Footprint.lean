import PageVault.Proofs.Asking

/-!
# What opening a file reads of its header page

A header page is long, and most of it is about other things.  What opening a file depends on
are a few fields, its *footprint*.  Which fields they are depends on the format and on the
page itself: an MSISAM page says by its flags of which kind it is, and by the first byte of
its salt where the check bytes are; an office page says how long its encryption info is.

Two pages that have the same in the footprint of one of them are opened alike
(`openFile_footprint`).  So nothing behind a field is read by accident, and neither is
anything at a distance from the end of the page.

§1 fields · §2 footprints · §3 what is read · §4 opening.
-/

namespace PageVault

/-! ## §1  Fields -/

/-- A place in a header page. -/
structure HeaderField where
  offset : Nat
  length : Nat
deriving DecidableEq

namespace HeaderField

/-- The bytes of a field, if the page does not end before the field does. -/
def value (f : HeaderField) (page : Bytes) : Option Bytes :=
  Bytes.slice? f.offset f.length page

/-- The page contains the field.  Also a field without bytes has a place, and is not
contained in a page that ends before it. -/
def Within (f : HeaderField) (page : Bytes) : Prop :=
  f.offset + f.length ≤ page.length

instance (f : HeaderField) (page : Bytes) : Decidable (f.Within page) :=
  inferInstanceAs (Decidable (_ ≤ _))

/-- What follows a page does not change the fields in it. -/
theorem value_append {f : HeaderField} {page : Bytes} (h : f.Within page) (more : Bytes) :
    f.value (page ++ more) = f.value page := by
  unfold Within at h
  have hmore : f.offset + f.length ≤ (page ++ more).length := by
    rw [List.length_append]
    omega
  have hdrop : f.length ≤ (page.drop f.offset).length := by
    rw [List.length_drop]
    omega
  unfold value Bytes.slice?
  rw [if_pos h, if_pos hmore, List.drop_append_of_le_length (by omega),
    List.take_append_of_le_length hdrop]

end HeaderField

/-! ## §2  Footprints -/

/-- The fields of a newer MSISAM file, beside its flags. -/
def Msisam.newerFields (header : Bytes) : List HeaderField :=
  [⟨0x72, 8⟩, ⟨checkOffset header, 4⟩]

/-- The fields of an older MSISAM file, beside its flags: the salt, the old password field,
the creation date if there is one, and the name of the engine. -/
def Msisam.olderFields (layout : Layout) : List HeaderField :=
  [⟨0x72, 4⟩, ⟨layout.passwordOffset.toNat, layout.passwordSize.toNat * 2⟩]
    ++ (layout.dateOffset.toList.map fun offset => ⟨offset.toNat, 8⟩)
    ++ [⟨layout.engineNameOffset.toNat, layout.engineNameLength.toNat⟩]

/-- The fields of the encryption info.  A length that is negative is all that is read. -/
def infoFields (header : Bytes) : List HeaderField :=
  let n := Bytes.toNatLE ((header.drop 0x299).take 2)
  ⟨0x299, 2⟩ :: if n < 0x8000 then [⟨0x29B, n⟩] else []

namespace Layout

def encodingKeyField (layout : Layout) : HeaderField :=
  ⟨layout.encodingKeyOffset.toNat, 4⟩

/-- The fields that decide what becomes of a file with the given header page. -/
def footprint (layout : Layout) (header : Bytes) : List HeaderField :=
  match layout.family with
  | .none => []
  | .jet => [layout.encodingKeyField]
  | .msisam =>
      ⟨0x298, 1⟩ ::
        if Msisam.isNewer (header.getD 0x298 0) then Msisam.newerFields header
        else Msisam.olderFields layout
  | .office =>
      layout.encodingKeyField ::
        if Bytes.isBlank ((header.drop layout.encodingKeyOffset.toNat).take 4) then []
        else infoFields header

/-- The page contains its whole footprint. -/
def HasFootprint (layout : Layout) (header : Bytes) : Prop :=
  ∀ f ∈ layout.footprint header, f.Within header

/-- The other page has the same in every field of the footprint of the first; what the first
does not have, the other has not either. -/
def Agrees (layout : Layout) (header header' : Bytes) : Prop :=
  ∀ f ∈ layout.footprint header, f.value header' = f.value header

theorem agrees_append {layout : Layout} {header : Bytes} (h : layout.HasFootprint header)
    (more : Bytes) : layout.Agrees header (header ++ more) := by
  intro f hf
  exact HeaderField.value_append (h f hf) more

end Layout

/-! ## §3  What is read -/

section

variable {layout : Layout} {header header' : Bytes}

theorem Bytes.field_congr {offset len : Nat}
    (h : HeaderField.value ⟨offset, len⟩ header' = HeaderField.value ⟨offset, len⟩ header)
    (name : String) : field offset len name header' = field offset len name header := by
  have h : slice? offset len header' = slice? offset len header := h
  rw [field, field, h]

/-- A field that was read is the part of the page at its place. -/
theorem Bytes.eq_of_field_eq_ok {offset len : Nat} {name : String} {b s : Bytes}
    (h : field offset len name b = .ok s) : s = (b.drop offset).take len := by
  have hs := field_eq_ok_iff.mp h
  unfold slice? at hs
  split at hs
  · exact (Option.some.inj hs).symm
  · cases hs

/-- A field of one byte. -/
theorem Bytes.slice?_one (offset : Nat) (b : Bytes) :
    slice? offset 1 b = (b[offset]?).map fun x => [x] := by
  unfold slice?
  by_cases h : offset + 1 ≤ b.length
  · have hdrop := List.drop_eq_getElem_cons h
    rw [if_pos h, List.getElem?_eq_getElem h, hdrop]
    rfl
  · rw [if_neg h, List.getElem?_eq_none (Nat.not_lt.mp h)]
    rfl

theorem Bytes.byteAt_congr {offset : Nat}
    (h : HeaderField.value ⟨offset, 1⟩ header' = HeaderField.value ⟨offset, 1⟩ header)
    (name : String) : byteAt offset name header' = byteAt offset name header := by
  have hmap : (header'[offset]?).map (fun x => [x]) = (header[offset]?).map fun x => [x] := by
    rw [← slice?_one, ← slice?_one]
    exact h
  have hbyte : header'[offset]? = header[offset]? :=
    Option.map_injective (fun _ _ hx => (List.cons.inj hx).1) hmap
  rw [byteAt, byteAt, hbyte]

theorem openJet_congr
    (h : layout.encodingKeyField.value header' = layout.encodingKeyField.value header) :
    openJet header' layout = openJet header layout :=
  Outcome.bind_congr (Bytes.field_congr h _) fun _ _ => rfl

theorem Msisam.flags_congr
    (h : HeaderField.value ⟨0x298, 1⟩ header' = HeaderField.value ⟨0x298, 1⟩ header) :
    Msisam.flags header' = Msisam.flags header :=
  Bytes.byteAt_congr h _

/-- The lock of a newer file.  The place of the check bytes is the one that the page itself
gives, since the salt was read from it. -/
theorem Msisam.read_congr (hf : Msisam.flags header' = Msisam.flags header)
    (h : ∀ f ∈ newerFields header, f.value header' = f.value header) :
    Lock.read layout header' = Lock.read layout header := by
  have hsalt := h ⟨0x72, 8⟩ (by simp [newerFields])
  have hcheck := h ⟨checkOffset header, 4⟩ (by simp [newerFields])
  refine Outcome.bind_congr hf fun flags _ => ?_
  refine Outcome.bind_congr (Bytes.field_congr hsalt _) fun salt hs => ?_
  have hplace : 0x2E9 + (salt.headD 0).toNat = checkOffset header := by
    rw [Bytes.eq_of_field_eq_ok hs]
    rfl
  rw [hplace]
  exact Outcome.bind_congr (Bytes.field_congr hcheck _) fun _ _ => rfl

theorem Msisam.dateMask_congr (h : ∀ f ∈ olderFields layout, f.value header' = f.value header) :
    dateMask layout header' = dateMask layout header := by
  unfold dateMask
  cases hd : layout.dateOffset with
  | none => rfl
  | some offset =>
      have hdate := h ⟨offset.toNat, 8⟩ (by simp [olderFields, hd])
      exact Outcome.bind_congr (Bytes.field_congr hdate _) fun _ _ => rfl

/-- The key of an older file.  Whether the length of the password field overflows is a matter
of the layout. -/
theorem Msisam.oldKey_congr (h : ∀ f ∈ olderFields layout, f.value header' = f.value header) :
    oldKey layout header' = oldKey layout header := by
  have hsalt := h ⟨0x72, 4⟩ (by simp [olderFields])
  have hpassword := h ⟨layout.passwordOffset.toNat, layout.passwordSize.toNat * 2⟩
    (by simp [olderFields])
  have hname := h ⟨layout.engineNameOffset.toNat, layout.engineNameLength.toNat⟩
    (by simp [olderFields])
  have hfield : oldPasswordField layout header' = oldPasswordField layout header := by
    unfold oldPasswordField
    exact if_congr Iff.rfl (Bytes.field_congr hpassword _) rfl
  refine Outcome.bind_congr (Bytes.field_congr hsalt _) fun salt _ => ?_
  refine Outcome.bind_congr hfield fun field _ => ?_
  refine Outcome.bind_congr (dateMask_congr h) fun mask _ => ?_
  exact Outcome.bind_congr (Bytes.field_congr hname _) fun _ _ => rfl

theorem encryptionInfo_congr (h : ∀ f ∈ infoFields header, f.value header' = f.value header) :
    encryptionInfo header' = encryptionInfo header := by
  have hlength := h ⟨0x299, 2⟩ (by simp [infoFields])
  refine Outcome.bind_congr (Bytes.field_congr hlength _) fun b hb => ?_
  have hn := Bytes.eq_of_field_eq_ok hb
  by_cases hlt : Bytes.toNatLE b < 0x8000
  · have hinfo := h ⟨0x29B, Bytes.toNatLE b⟩ (by
      rw [hn] at hlt ⊢
      simp [infoFields, infoOffset] at hlt ⊢
      simp [hlt])
    exact if_congr Iff.rfl (Bytes.field_congr hinfo _) rfl
  · exact (if_neg hlt).trans (if_neg hlt).symm

/-! ## §4  Opening -/

theorem openMsisam_congr (hm : layout.family = .msisam) (h : layout.Agrees header header')
    (source : PasswordSource) :
    openMsisam source header' layout = openMsisam source header layout := by
  have hfootprint : layout.footprint header
      = ⟨0x298, 1⟩ :: if Msisam.isNewer (header.getD 0x298 0) then Msisam.newerFields header
          else Msisam.olderFields layout := by
    rw [Layout.footprint, hm]
  unfold Layout.Agrees at h
  rw [hfootprint, List.forall_mem_cons] at h
  obtain ⟨hflag, hrest⟩ := h
  have hflags := Msisam.flags_congr hflag
  unfold openMsisam
  rw [hflags]
  cases hf : Msisam.flags header with
  | error e => rfl
  | ok flags =>
      have hbyte : header.getD 0x298 0 = flags := by
        have hat : header[0x298]? = some flags := Bytes.byteAt_eq_ok_iff.mp hf
        rw [List.getD_eq_getElem?_getD, hat]
        rfl
      rw [hbyte] at hrest
      dsimp only
      by_cases hn : Msisam.isNewer flags = true
      · rw [if_pos hn] at hrest
        rw [if_pos hn, if_pos hn, Msisam.read_congr hflags hrest]
      · rw [if_neg hn] at hrest
        rw [if_neg hn, if_neg hn, openOldMsisam, openOldMsisam, Msisam.oldKey_congr hrest]

theorem readOfficeInfo_congr (ho : layout.family = .office) (h : layout.Agrees header header') :
    readOfficeInfo header' layout = readOfficeInfo header layout := by
  have hfootprint : layout.footprint header
      = layout.encodingKeyField ::
          if Bytes.isBlank ((header.drop layout.encodingKeyOffset.toNat).take 4) then []
          else infoFields header := by
    rw [Layout.footprint, ho]
  unfold Layout.Agrees at h
  rw [hfootprint, List.forall_mem_cons] at h
  obtain ⟨hkey, hrest⟩ := h
  refine Outcome.bind_congr (Bytes.field_congr hkey _) fun key hk => ?_
  have hpart : key = (header.drop layout.encodingKeyOffset.toNat).take 4 :=
    Bytes.eq_of_field_eq_ok hk
  rw [← hpart] at hrest
  by_cases hb : Bytes.isBlank key = true
  · rw [if_pos hb, if_pos hb]
  · rw [if_neg hb] at hrest
    rw [if_neg hb, if_neg hb]
    exact Outcome.bind_congr (encryptionInfo_congr hrest) fun _ _ => rfl

/-- Pages that agree on the footprint of one of them are opened alike. -/
theorem openFile_congr (h : layout.Agrees header header') (source : PasswordSource)
    (spinLimit : UInt32) :
    openFile source header' layout spinLimit = openFile source header layout spinLimit := by
  unfold openFile
  cases hf : layout.family with
  | none => rfl
  | jet =>
      have hkey : layout.encodingKeyField.value header' = layout.encodingKeyField.value header := by
        refine h _ ?_
        rw [Layout.footprint, hf]
        exact List.mem_singleton_self _
      dsimp only
      rw [openJet_congr hkey]
  | msisam => exact openMsisam_congr hf h source
  | office =>
      dsimp only
      rw [openOffice, openOffice, readOfficeInfo_congr hf h]

/-- **A file is opened by the footprint of its header page.**  Any other page, of whatever
length, that has the same in the footprint of a page is opened with the same outcome as that
page, whatever the format, the source of the password and the limit: with the same error, or
with handlers in the same state, which have the same scheme and answer every call alike; and
the same is known of the password afterwards.  A page that contains its footprint may also be
followed by anything. -/
theorem openFile_footprint (layout : Layout) (header : Bytes) :
    (∀ header', layout.Agrees header header' → ∀ source spinLimit,
        openFile source header' layout spinLimit = openFile source header layout spinLimit)
      ∧ (layout.HasFootprint header → ∀ more source spinLimit,
        openFile source (header ++ more) layout spinLimit
          = openFile source header layout spinLimit) := by
  constructor
  · intro header' h source spinLimit
    exact openFile_congr h source spinLimit
  · intro h more source spinLimit
    exact openFile_congr (Layout.agrees_append h more) source spinLimit

end

/-- Two newer MSISAM pages that are alike only in flags, salt and check bytes, the second one
also longer. -/
theorem openFile_footprint_msisam :
    let page : UInt8 → Bytes := fun filler =>
      List.replicate 0x72 filler ++ [3, 1, 4, 1, 5, 9, 2, 6] ++ List.replicate 0x21E filler ++ [6]
        ++ List.replicate 0x53 filler ++ [1, 2, 3, 4]
    Layout.msisam.HasFootprint (page 0)
      ∧ (∀ source spinLimit, openFile source (page 7 ++ [8, 9]) .msisam spinLimit
          = openFile source (page 0) .msisam spinLimit)
      ∧ ∀ source spinLimit, openFile source (page 0 ++ page 7) .msisam spinLimit
          = openFile source (page 0) .msisam spinLimit := by
  intro page
  obtain ⟨hagree, happend⟩ := openFile_footprint .msisam (page 0)
  have hfields : Layout.msisam.footprint (page 0) = [⟨0x298, 1⟩, ⟨0x72, 8⟩, ⟨0x2EC, 4⟩] := by
    decide +kernel
  have hhas : Layout.msisam.HasFootprint (page 0) := by
    unfold Layout.HasFootprint
    rw [hfields]
    decide +kernel
  have hsame : Layout.msisam.Agrees (page 0) (page 7 ++ [8, 9]) := by
    unfold Layout.Agrees
    rw [hfields]
    decide +kernel
  exact ⟨hhas, hagree _ hsame, happend hhas (page 7)⟩

end PageVault
