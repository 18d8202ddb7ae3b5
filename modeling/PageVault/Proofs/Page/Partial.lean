import PageVault.Proofs.Keys.Unlocking
import PageVault.Proofs.Page.History

/-!
# Parts of pages

A host that writes the front of a page may encode that part alone if the handler says so.
This is safe because a keystream starts with the page: what a byte is combined with
depends on its place and not on the bytes behind it (`Rc4.crypt_take`).  A cipher with a
chaining mode does not have this property, so the capability has to be refused to every
scheme that uses one, also where the cipher behind it is RC4
(`Codec.Issued.transform_eq_stream_iff`).
-/

namespace PageVault

/-- **The front of an encrypted text is the encrypted front.** -/
theorem Rc4.crypt_take (key data : Bytes) (k : Nat) :
    crypt key (data.take k) = (crypt key data).take k := by
  by_cases hk : k ≤ data.length
  · have hsplit : crypt key data
        = crypt key (data.take k) ++ (((ofKey key).apply (data.take k)).2.apply (data.drop k)).1 := by
      have happend := apply_append (ofKey key) (data.take k) (data.drop k)
      rw [List.take_append_drop] at happend
      exact congrArg Prod.fst happend
    have hlen : (crypt key (data.take k)).length = k := by
      rw [length_crypt, List.length_take, Nat.min_eq_left hk]
    rw [hsplit, List.take_left' hlen]
  · have hle : data.length ≤ k := Nat.le_of_not_le hk
    rw [List.take_of_length_le hle, List.take_of_length_le (by rwa [length_crypt])]

/-- The schemes that combine pages with a keystream, or with nothing. -/
def Scheme.streams : List Scheme :=
  [.plain, .jet, .msisamModern, .msisamOld, .officeRc4CryptoApi, .officeBinaryRc4]

/-- **The scheme of a codec says whether it uses a keystream.** -/
theorem Codec.Issued.transform_eq_stream_iff {c : Codec} (h : c.Issued) :
    c.transform = .stream ↔ c.scheme ∈ Scheme.streams := by
  cases h with
  | jet | msisamOld | msisamModern | cryptoApi | binaryDocument =>
      exact iff_of_true rfl (by simp [fresh, Scheme.streams])
  | standard hs password hl hk =>
      rcases hs with rfl | rfl
      · exact iff_of_false nofun (by simp [fresh, Scheme.streams])
      · exact iff_of_false nofun (by simp [fresh, Scheme.streams])
  | agile password hk => exact iff_of_false nofun (by simp [fresh, Scheme.streams])

namespace Handler

variable {h : Handler}

/-! ## The capabilities -/

theorem Opened.isStream_iff (ho : h.Opened) : h.isStream = true ↔ h.scheme ∈ Scheme.streams := by
  rcases ho.issued with rfl | ⟨c, rfl, hc⟩
  · exact iff_of_true rfl (by decide)
  · show decide (c.transform = .stream) = true ↔ c.scheme ∈ Scheme.streams
    rw [decide_eq_true_eq]
    exact hc.transform_eq_stream_iff

/-- No call changes the scheme. -/
theorem scheme_after (h : Handler) (calls : List Call) : (h.after calls).scheme = h.scheme := by
  have hforget : ∀ g : Handler, g.forget.scheme = g.scheme := by
    intro g
    cases g <;> rfl
  rw [← hforget, forget_after, hforget]

/-- No call changes the capabilities. -/
theorem isStream_after (h : Handler) (calls : List Call) :
    (h.after calls).isStream = h.isStream := by
  have hforget : ∀ g : Handler, g.forget.isStream = g.isStream := by
    intro g
    cases g <;> rfl
  rw [← hforget, forget_after, hforget]

/-! ## Pages and their fronts -/

/-- With a keystream every page can be transformed, and its front alone with the same
result. -/
theorem exists_transformed_take (hst : h.isStream = true) (direction : Direction)
    (page : UInt32) :
    ∃ f : Bytes → Bytes, (∀ data, h.transformed direction page data = .ok (f data))
      ∧ ∀ data k, f (data.take k) = (f data).take k := by
  cases h with
  | plain => exact ⟨id, fun _ => rfl, fun _ _ => rfl⟩
  | coded c =>
      have ht : c.transform = .stream := of_decide_eq_true hst
      by_cases he : c.isEncoded page = true
      · refine ⟨Rc4.crypt (c.keys.params page).key, ?_, Rc4.crypt_take _⟩
        intro data
        rw [transformed_coded, if_pos he, Codec.transformed, ht]
        rfl
      · refine ⟨id, ?_, fun _ _ => rfl⟩
        intro data
        rw [transformed_coded, if_neg he]
        rfl

/-- What a host can rely on before it encodes a part of a page.  The two capabilities
are one, and the scheme decides it.  If a handler has them, the front of a page can be
encoded alone, wherever the first modified byte is, and also after other calls; it comes out
as it does with the whole page, so it is the same for all pages that begin with it. -/
structure EncodesParts (s : Handler) : Prop where
  same_capability : s.encodesPartialPages = s.decodesInline
  capable_iff : s.encodesPartialPages = true ↔ s.scheme ∈ Scheme.streams
  encode_take : s.encodesPartialPages = true → ∀ page data k offset, k ≤ data.length →
    offset ≤ k → ∃ whole, (s.encode page data 0).1 = .ok whole
      ∧ (s.encode page (data.take k) offset).1 = .ok (whole.take k)
      ∧ ∀ between, (((s.encode page data 0).2.after between).encode page (data.take k) offset).1
          = .ok (whole.take k)
  encode_of_same_front : s.encodesPartialPages = true → ∀ page data data' k,
    data.take k = data'.take k → ∃ whole whole', (s.encode page data 0).1 = .ok whole
      ∧ (s.encode page data' 0).1 = .ok whole' ∧ whole.take k = whole'.take k

/-- An offset within the page is not looked at. -/
theorem encoded_of_le {page : UInt32} {data : Bytes} {offset : Nat} (ho : offset ≤ data.length) :
    h.encoded page data offset = h.transformed .encrypt page data := by
  unfold encoded
  rw [if_neg]
  rintro ⟨-, hlt⟩
  exact Nat.not_lt.mpr ho hlt

/-- **The capability to encode parts of pages is truthful**, in every state that the
handler of an open file can reach, or the one that a host starts with. -/
theorem encodesParts_after (ho : h.Opened ∨ h = default) (calls : List Call) :
    (h.after calls).EncodesParts := by
  have ho : h.Opened := by
    rcases ho with ho | rfl
    · exact ho
    · exact opened_default
  have hs : (h.after calls).Sound := sound_after ho.sound calls
  refine ⟨rfl, ?_, ?_, ?_⟩
  · show (h.after calls).isStream = true ↔ _
    rw [isStream_after, scheme_after]
    exact ho.isStream_iff
  · intro hst page data k offset hk hoffset
    obtain ⟨f, hf, htake⟩ := exists_transformed_take hst .encrypt page
    have hfront : offset ≤ (data.take k).length := by
      rw [List.length_take, Nat.min_eq_left hk]
      exact hoffset
    have hpart : (h.after calls).encoded page (data.take k) offset = .ok ((f data).take k) := by
      rw [encoded_of_le hfront, hf, htake]
    refine ⟨f data, ?_, ?_, ?_⟩
    · rw [encode_fst hs, encoded_of_le (Nat.zero_le _), hf]
    · rw [encode_fst hs, hpart]
    · intro between
      -- The whole page and the calls in between lead to one more state of the same handler.
      have hstate := encode_after hs (.encode page data 0 :: between) page (data.take k) offset
      rw [hpart] at hstate
      exact hstate
  · intro hst page data data' k hfront
    obtain ⟨f, hf, htake⟩ := exists_transformed_take hst .encrypt page
    refine ⟨f data, f data', ?_, ?_, ?_⟩
    · rw [encode_fst hs, encoded_of_le (Nat.zero_le _), hf]
    · rw [encode_fst hs, encoded_of_le (Nat.zero_le _), hf]
    · rw [← htake, hfront, htake]

/-- A page of a Jet file and its first two bytes, after a call that failed; and a file with
standard encryption, which does not have the capability. -/
theorem encodesParts_after_jet :
    let jet := coded (.fresh .jet (.jet ⟨[1, 2, 3, 4]⟩) .stream lastJetPage)
    let s := jet.after [.encode 1 [8] 9]
    let whole := Rc4.crypt [0, 2, 3, 4] [5, 6, 7]
    let standard := coded (.fresh .officeStandard (.standard (uncheckedLock.keysOf []))
      (.block .aesEcb) lastOfficePage)
    jet.Opened ∧ (s.encode 1 [5, 6, 7] 0).1 = .ok whole
      ∧ (s.encode 1 [5, 6] 2).1 = .ok (whole.take 2)
      ∧ standard.Opened ∧ standard.encodesPartialPages = false := by
  intro jet s whole standard
  have hjet : jet.Opened := opened_jet rfl rfl
  have hstandard : standard.Opened := ⟨.absent, _, _, 0, openFile_uncheckedHeader .absent 0⟩
  obtain ⟨whole', hwhole, hpart, -⟩ :=
    (encodesParts_after (Or.inl hjet) [.encode 1 [8] 9]).encode_take rfl 1 [5, 6, 7] 2 2
      (by decide) (by decide)
  have hw : (s.encode 1 [5, 6, 7] 0).1 = .ok whole := rfl
  have heq : whole' = whole := Except.ok.inj (hwhole.symm.trans hw)
  refine ⟨hjet, hw, heq ▸ hpart, hstandard, ?_⟩
  have hcapable := (encodesParts_after (Or.inl hstandard) []).capable_iff
  rw [after_nil] at hcapable
  rw [Bool.eq_false_iff, ne_eq, hcapable]
  simp [standard, scheme, Codec.fresh, Scheme.streams]

end Handler

end PageVault
