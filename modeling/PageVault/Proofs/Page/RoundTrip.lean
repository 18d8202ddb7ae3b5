import PageVault.Proofs.Cipher.Transform
import PageVault.Proofs.Page.History

/-!
# Pages come back as they were

Decoding undoes encoding and encoding undoes decoding, page by page.  A keystream
combined twice cancels, and the ciphers with their modes were shown to be inverted by
the opposite direction; what is left is that both directions of a page use the same
parameters, whatever was done to the handler between them.
-/

namespace PageVault

/-- The opposite direction takes a page back, under the same parameters. -/
theorem PageTransform.apply_opposite {t : PageTransform} {direction : Direction}
    {params : PageParams} {page out : Bytes} (h : t.apply direction params page = .ok out) :
    t.apply direction.opposite params out = .ok page := by
  cases t with
  | stream =>
      cases h
      exact congrArg Except.ok (Rc4.crypt_crypt params.key page)
  | block spec => exact CipherSpec.transform_opposite h

namespace Handler

variable {h : Handler} {page : UInt32}

theorem transformed_opposite {direction : Direction} {data out : Bytes}
    (ht : h.transformed direction page data = .ok out) :
    h.transformed direction.opposite page out = .ok data := by
  cases h with
  | plain =>
      cases ht
      rfl
  | coded c =>
      rw [transformed_coded] at ht ⊢
      by_cases he : c.isEncoded page = true
      · rw [if_pos he] at ht ⊢
        exact PageTransform.apply_opposite ht
      · rw [if_neg he] at ht ⊢
        cases ht
        rfl

/-- A page decodes to `plain` exactly if it is transformed to it. -/
theorem decoded_eq_ok_iff {stored plain : Bytes} :
    h.decoded page stored = ⟨.ok (), plain⟩ ↔ h.transformed .decrypt page stored = .ok plain := by
  unfold decoded
  cases h.transformed .decrypt page stored with
  | error e => simp [InPlace.ofTransform]
  | ok b => simp [InPlace.ofTransform]

/-- A page encodes to `stored` exactly if it is transformed to it, and the offset lies
within it where that matters. -/
theorem encoded_eq_ok_iff {plain stored : Bytes} {offset : Nat} :
    h.encoded page plain offset = .ok stored
      ↔ (h.isEncoded page = true → offset ≤ plain.length)
        ∧ h.transformed .encrypt page plain = .ok stored := by
  unfold encoded
  by_cases he : h.isEncoded page = true ∧ plain.length < offset
  · rw [if_pos he]
    constructor
    · intro hc
      cases hc
    · rintro ⟨ho, -⟩
      exact absurd (ho he.1) (Nat.not_le.mpr he.2)
  · rw [if_neg he]
    have ho : h.isEncoded page = true → offset ≤ plain.length := by
      intro hp
      exact Nat.le_of_not_lt fun hlt => he ⟨hp, hlt⟩
    exact (and_iff_right ho).symm

/-- **Round trip.**  In every state that the handler of an opened file can reach: a
page that was encoded decodes to what it was, and a page that was decoded encodes to
what was stored, also after other calls in between. -/
theorem Opened.round_trip (ho : h.Opened) (before : List Call) (page : UInt32) :
    (∀ plain offset stored,
      ((h.after before).encode page plain offset).1 = .ok stored →
        ∀ between : List Call,
          ((((h.after before).encode page plain offset).2.after between).decode page stored).1
            = ⟨.ok (), plain⟩)
    ∧ ∀ stored plain,
      ((h.after before).decode page stored).1 = ⟨.ok (), plain⟩ →
        ∀ (between : List Call) (offset : Nat), offset ≤ plain.length →
          ((((h.after before).decode page stored).2.after between).encode page plain offset).1
            = .ok stored := by
  have hs := ho.sound
  constructor
  · intro plain offset stored henc between
    rw [encode_after hs] at henc
    -- The call and those in between lead to one more state that `h` can reach.
    have hstate : ((h.after before).encode page plain offset).2.after between
        = h.after (before ++ .encode page plain offset :: between) :=
      (after_append h before (.encode page plain offset :: between)).symm
    rw [hstate, decode_after hs, decoded_eq_ok_iff]
    exact transformed_opposite (encoded_eq_ok_iff.mp henc).2
  · intro stored plain hdec between offset hoff
    rw [decode_after hs, decoded_eq_ok_iff] at hdec
    have hstate : ((h.after before).decode page stored).2.after between
        = h.after (before ++ .decode page stored :: between) :=
      (after_append h before (.decode page stored :: between)).symm
    rw [hstate, encode_after hs, encoded_eq_ok_iff]
    exact ⟨fun _ => hoff, transformed_opposite hdec⟩

/-- Page one of a Jet file, after a call that failed, both ways round. -/
theorem Opened.round_trip_jet :
    let h := coded (.fresh .jet (.jet ⟨[1, 2, 3, 4]⟩) .stream lastJetPage)
    let s := h.after [.decode 2 [9], .encode 1 [8] 9]
    let stored := Rc4.crypt [0, 2, 3, 4] [5, 6, 7]
    let plain := Rc4.crypt [0, 2, 3, 4] [7, 6]
    h.Opened
      ∧ (s.encode 1 [5, 6, 7] 3).1 = .ok stored
      ∧ (((s.encode 1 [5, 6, 7] 3).2.after [.decode 4 []]).decode 1 stored).1
          = ⟨.ok (), [5, 6, 7]⟩
      ∧ (s.decode 1 [7, 6]).1 = ⟨.ok (), plain⟩
      ∧ (((s.decode 1 [7, 6]).2.after [.decode 4 []]).encode 1 plain 2).1 = .ok [7, 6] := by
  intro h s stored plain
  have ho : h.Opened := opened_jet rfl rfl
  have henc : (s.encode 1 [5, 6, 7] 3).1 = .ok stored := rfl
  have hdec : (s.decode 1 [7, 6]).1 = ⟨.ok (), plain⟩ := rfl
  have hoff : 2 ≤ plain.length := by
    rw [Rc4.length_crypt]
    decide
  obtain ⟨hde, hed⟩ :=
    ho.round_trip [.decode 2 [9], .encode 1 [8] 9] 1
  exact ⟨ho, henc, hde _ _ _ henc _, hdec, hed _ _ hdec _ _ hoff⟩

end Handler

end PageVault
