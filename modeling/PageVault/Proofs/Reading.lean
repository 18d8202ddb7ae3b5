import PageVault.Proofs.Bytes
import PageVault.Proofs.Outcome

/-!
# Bytes that stand where they are read

The laws of `Cursor` say what a reading does at a cursor.  Files are put together the
other way round, field after field, so here a reading is matched with the bytes that it
takes: `Reads m b a` says that wherever `b` stands, behind whatever was read before and
in front of whatever follows, `m` takes `b`, no more and no less, and gives `a`.
Readings in a row take their bytes in a row.  The other way round, a field that was read
stood at the cursor.
-/

namespace PageVault

/-- A cursor with some bytes behind it and others before it. -/
def Cursor.between (before after : Bytes) : Cursor :=
  ⟨before ++ after, before.length, by simp⟩

theorem Cursor.remaining_between (before after : Bytes) :
    (between before after).remaining = after :=
  List.drop_left

theorem Cursor.eq_between {c : Cursor} {before after : Bytes} (hd : c.data = before ++ after)
    (hp : c.position = before.length) : c = between before after := by
  cases c with
  | mk data position h =>
      cases hd
      cases hp
      rfl

namespace Reading

variable {α β : Type} {m : Reading α} {f : α → Reading β} {a : α} {b : β} {bytes bytes' : Bytes}

theorem bind_of_ok {c c' : Cursor} (h : m c = (.ok a, c')) : (m >>= f) c = f a c' := by
  show bind m f c = _
  unfold bind
  rw [h]

theorem bind_of_error {c c' : Cursor} {e : Error} (h : m c = (.error e, c')) :
    (m >>= f) c = (.error e, c') := by
  show bind m f c = _
  unfold bind
  rw [h]

/-- Wherever the bytes stand, the reading takes them and gives `a`. -/
def Reads (m : Reading α) (bytes : Bytes) (a : α) : Prop :=
  ∀ before after,
    m (.between before (bytes ++ after)) = (.ok a, .between (before ++ bytes) after)

theorem reads_pure (a : α) : Reads (Pure.pure a) [] a := by
  intro before after
  rw [List.append_nil]
  rfl

/-- **Readings in a row take their bytes in a row.** -/
theorem Reads.bind (hm : Reads m bytes a) (hf : Reads (f a) bytes' b) :
    Reads (m >>= f) (bytes ++ bytes') b := by
  intro before after
  rw [List.append_assoc, bind_of_ok (hm before (bytes' ++ after)), hf (before ++ bytes) after,
    List.append_assoc]

/-- A last step that only puts together what was read. -/
theorem Reads.map (hm : Reads m bytes a) (g : α → β) :
    Reads (m >>= fun a => Pure.pure (g a)) bytes (g a) := by
  have h := hm.bind (f := fun a => Pure.pure (g a)) (reads_pure (g a))
  rwa [List.append_nil] at h

/-- What a reading takes can be all there is. -/
theorem Reads.start (h : Reads m bytes a) : m (.start bytes) = (.ok a, .between bytes []) := by
  have hall := h [] []
  rw [List.append_nil] at hall
  exact hall

theorem reads_take {n : Nat} (h : bytes.length = n) (field : String) :
    Reads (take n field) bytes bytes := by
  intro before after
  have hfit : (Cursor.between before (bytes ++ after)).position + n
      ≤ (Cursor.between before (bytes ++ after)).data.length := by
    show before.length + n ≤ (before ++ (bytes ++ after)).length
    rw [List.length_append, List.length_append, h]
    omega
  rw [take_eq_ok hfit, Cursor.remaining_between, List.take_left' h]
  congr 1
  refine Cursor.eq_between ?_ ?_
  · exact (List.append_assoc before bytes after).symm
  · show before.length + n = (before ++ bytes).length
    rw [List.length_append, h]

theorem reads_word16 (n : UInt16) (field : String) : Reads (word16 field) (Bytes.le16 n) n := by
  have h := (reads_take (Bytes.length_le16 n) field).map fun b => UInt16.ofNat (Bytes.toNatLE b)
  rwa [Bytes.toNatLE_le16, UInt16.ofNat_toNat] at h

theorem reads_word32 (n : UInt32) (field : String) : Reads (word32 field) (Bytes.le32 n) n := by
  have h := (reads_take (Bytes.length_le32 n) field).map fun b => UInt32.ofNat (Bytes.toNatLE b)
  rwa [Bytes.toNatLE_le32, UInt32.ofNat_toNat] at h

/-- A field that was taken is what stood there. -/
theorem remaining_of_take_eq_ok {n : Nat} {field : String} {c c' : Cursor}
    (h : take n field c = (.ok bytes, c')) : c.remaining = bytes ++ c'.remaining := by
  rcases Nat.lt_or_ge c.data.length (c.position + n) with hlt | hle
  · rw [take_eq_error hlt] at h
    cases h
  · rw [take_eq_ok hle] at h
    cases h
    show c.remaining = c.remaining.take n ++ c.data.drop (c.position + n)
    rw [← List.drop_drop]
    exact (List.take_append_drop n c.remaining).symm

theorem remaining_of_word32_eq_ok {field : String} {c c' : Cursor} {n : UInt32}
    (h : word32 field c = (.ok n, c')) : c.remaining = Bytes.le32 n ++ c'.remaining := by
  unfold word32 at h
  obtain ⟨b, c₁, htake, h⟩ := bind_eq_ok.mp h
  obtain ⟨rfl, rfl⟩ := pure_eq_ok.mp h
  rw [Bytes.le32_ofNat_toNatLE (length_of_take_eq_ok htake), remaining_of_take_eq_ok htake]

end Reading

end PageVault
