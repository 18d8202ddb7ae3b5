import PageVault.Proofs.Reading

/-!
# Readings that go forward

All readings but `seek` go forward: they leave the bytes as they are, never move the cursor
back, and what they give depends on the bytes ahead of the cursor, not on those behind it
(`Forward`).  Readings in a row go forward if each of them does, so it is enough to know this
of single fields.  A reading that went forward can be taken back: the cursor is moved to
where it was, and it is as if nothing had been read (`Forward.seek_back`).

§1 cursors between bytes · §2 forward · §3 back.
-/

namespace PageVault

/-! ## §1  Cursors between bytes -/

/-- There are bytes behind a cursor and bytes ahead of it. -/
theorem Cursor.exists_eq_between (c : Cursor) : ∃ before after, c = between before after :=
  ⟨c.data.take c.position, c.remaining, Cursor.eq_between
    (List.take_append_drop c.position c.data).symm (List.length_take_of_le c.position_le).symm⟩

namespace Reading

variable {α β : Type} {m : Reading α} {f : α → Reading β} {n : Nat} {before after : Bytes}

theorem take_between_of_le (h : n ≤ after.length) (field : String) :
    take n field (.between before after)
      = (.ok (after.take n), .between (before ++ after.take n) (after.drop n)) := by
  have htaken := reads_take (List.length_take_of_le h) field before (after.drop n)
  rwa [List.take_append_drop] at htaken

theorem take_between_of_lt (h : after.length < n) (field : String) :
    take n field (.between before after)
      = (.error (.truncated field), .between before after) := by
  refine take_eq_error ?_
  show (before ++ after).length < before.length + n
  rw [List.length_append]
  omega

theorem word32_between_of_lt (h : after.length < 4) (field : String) :
    word32 field (.between before after) = (.error (.truncated field), .between before after) :=
  bind_of_error (take_between_of_lt h field)

/-! ## §2  Forward -/

/-- The reading leaves the bytes as they are, does not move back, and looks at nothing but
what is ahead. -/
structure Forward (m : Reading α) : Prop where
  onward : ∀ c, (m c).2.data = c.data ∧ c.position ≤ (m c).2.position
  ahead : ∀ c c', c.remaining = c'.remaining →
    (m c).1 = (m c').1 ∧ (m c).2.remaining = (m c').2.remaining

theorem forward_lift (r : Except Error α) : Forward (lift r) := by
  constructor
  · intro c
    exact ⟨rfl, Nat.le_refl _⟩
  · intro c c' h
    exact ⟨rfl, h⟩

theorem forward_pure (a : α) : Forward (Pure.pure a) :=
  forward_lift (.ok a)

/-- **Readings in a row go forward if each of them does.** -/
theorem Forward.bind (hm : Forward m) (hf : ∀ a, Forward (f a)) : Forward (m >>= f) := by
  constructor
  · intro c
    obtain ⟨hdata, hle⟩ := hm.onward c
    rcases hc : m c with ⟨e | a, c₁⟩
    · rw [bind_of_error hc]
      rw [hc] at hdata hle
      exact ⟨hdata, hle⟩
    · rw [bind_of_ok hc]
      rw [hc] at hdata hle
      obtain ⟨hdata', hle'⟩ := (hf a).onward c₁
      exact ⟨hdata'.trans hdata, Nat.le_trans hle hle'⟩
  · intro c c' h
    obtain ⟨hfst, hahead⟩ := hm.ahead c c' h
    rcases hc : m c with ⟨e | a, c₁⟩
    · rcases hc' : m c' with ⟨e' | a', c₁'⟩
      · rw [bind_of_error hc, bind_of_error hc']
        rw [hc, hc'] at hfst hahead
        cases hfst
        exact ⟨rfl, hahead⟩
      · rw [hc, hc'] at hfst
        cases hfst
    · rcases hc' : m c' with ⟨e' | a', c₁'⟩
      · rw [hc, hc'] at hfst
        cases hfst
      · rw [bind_of_ok hc, bind_of_ok hc']
        rw [hc, hc'] at hfst hahead
        cases hfst
        exact (hf a).ahead c₁ c₁' hahead

theorem forward_take (n : Nat) (field : String) : Forward (take n field) := by
  constructor
  · intro c
    obtain ⟨before, after, rfl⟩ := c.exists_eq_between
    rcases Nat.lt_or_ge after.length n with hlt | hle
    · rw [take_between_of_lt hlt]
      exact ⟨rfl, Nat.le_refl _⟩
    · rw [take_between_of_le hle]
      constructor
      · show before ++ after.take n ++ after.drop n = before ++ after
        rw [List.append_assoc, List.take_append_drop]
      · show before.length ≤ (before ++ after.take n).length
        rw [List.length_append]
        omega
  · intro c c' h
    obtain ⟨before, after, rfl⟩ := c.exists_eq_between
    obtain ⟨before', after', rfl⟩ := c'.exists_eq_between
    rw [Cursor.remaining_between, Cursor.remaining_between] at h
    subst h
    rcases Nat.lt_or_ge after.length n with hlt | hle
    · rw [take_between_of_lt hlt, take_between_of_lt hlt]
      simp only [Cursor.remaining_between, and_self]
    · rw [take_between_of_le hle, take_between_of_le hle]
      simp only [Cursor.remaining_between, and_self]

theorem forward_word32 (field : String) : Forward (word32 field) :=
  (forward_take 4 field).bind fun _ => forward_pure _

/-! ## §3  Back -/

/-- **A reading that went forward is undone by moving back**, however far it came. -/
theorem Forward.seek_back (hm : Forward m) (c : Cursor) :
    seek c.position (m c).2 = (.ok (), c) := by
  obtain ⟨before, after, rfl⟩ := c.exists_eq_between
  have hdata := (hm.onward (.between before after)).1
  have hfit : (Cursor.between before after).position
      ≤ (m (.between before after)).2.data.length := by
    rw [hdata]
    exact Cursor.position_le _
  unfold seek
  rw [dif_pos hfit]
  exact congrArg (fun c => (Except.ok (), c)) (Cursor.eq_between hdata rfl)

end Reading

end PageVault
