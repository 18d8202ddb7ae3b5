import PageVault.Text.Upper

/-!
# Upper case from a table

Unicode has a table with one row for each character that has an upper case of its own; every
other character is its own upper case.  `capitals` reads an upper case from such a table.

The upper case of a text is not looked up in a table like that: ASCII is decided by arithmetic, and
most other characters are found in ranges, where the image is computed.  Both agree on every
character (`upperChar_eq_capitals`).
-/

namespace PageVault.Text

/-- The rows of a range: every `step`-th character from `first` to `last`, with its image. -/
def rangeRows : Nat × Nat × Nat × Nat → List (Nat × List Nat)
  | (first, last, step, image) =>
      (List.range' first ((last - first) / step + 1) step).map fun n => (n, [n - first + image])

/-- The characters with an upper case of their own: the small letters of ASCII, the characters
that turn into more than one, and all others. -/
def upperTable : List (Nat × List Nat) :=
  rangeRows (0x61, 0x7A, 1, 0x41) ++ (upperExpansions ++ upperRanges.flatMap rangeRows)

/-- The upper case of a character by the table. -/
def capitals (c : Char) : List Char :=
  match upperTable.lookup c.toNat with
  | some image => image.map Char.ofNat
  | none => [c]

/-- A property of the ASCII characters, checked one after another. -/
theorem forall_ascii {P : Char → Prop} (h : ∀ n < 128, P (Char.ofNat n)) {c : Char}
    (hc : c.toNat < 128) : P c := by
  have hn := h c.toNat hc
  rwa [Char.ofNat_toNat] at hn

variable {n : Nat}

/-- A table of a function. -/
theorem lookup_map_self {α : Type} (keys : List Nat) (f : Nat → α) :
    (keys.map fun k => (k, f k)).lookup n = if n ∈ keys then some (f n) else none := by
  induction keys with
  | nil => rfl
  | cons k keys ih =>
      rw [List.map_cons, List.lookup_cons]
      by_cases hn : n = k
      · simp [hn]
      · have hk : (n == k) = false := beq_false_of_ne hn
        simp [hk, hn, ih]

/-- A range has the characters that are reached from its first one in steps. -/
theorem mem_range'_iff {first last step : Nat} (hs : 0 < step) (hl : first ≤ last) :
    n ∈ List.range' first ((last - first) / step + 1) step
      ↔ first ≤ n ∧ n ≤ last ∧ (n - first) % step = 0 := by
  rw [List.mem_range']
  constructor
  · rintro ⟨k, hk, rfl⟩
    have hle : k * step ≤ last - first :=
      (Nat.le_div_iff_mul_le hs).mp (Nat.lt_succ_iff.mp hk)
    rw [Nat.mul_comm, Nat.add_sub_cancel_left, Nat.mul_mod_left]
    omega
  · rintro ⟨hfirst, hlast, hmod⟩
    obtain ⟨k, hk⟩ := Nat.dvd_of_mod_eq_zero hmod
    have hle : k * step ≤ last - first := by
      rw [Nat.mul_comm, ← hk]
      omega
    exact ⟨k, Nat.lt_succ_iff.mpr ((Nat.le_div_iff_mul_le hs).mpr hle), by omega⟩

theorem lookup_rangeRows {first last step image : Nat} (hs : 0 < step) (hl : first ≤ last) :
    (rangeRows (first, last, step, image)).lookup n
      = if first ≤ n ∧ n ≤ last ∧ (n - first) % step = 0 then some [n - first + image]
        else none := by
  rw [rangeRows, lookup_map_self]
  simp only [mem_range'_iff hs hl]

/-- In the rows of ranges, a character has the image that is computed in its range. -/
theorem lookup_flatMap_rangeRows {ranges : List (Nat × Nat × Nat × Nat)}
    (h : ∀ r ∈ ranges, 0 < r.2.2.1 ∧ r.1 ≤ r.2.1) :
    (ranges.flatMap rangeRows).lookup n
      = (ranges.find? fun r => r.1 ≤ n && n ≤ r.2.1 && (n - r.1) % r.2.2.1 == 0).map
          fun r => [n - r.1 + r.2.2.2] := by
  induction ranges with
  | nil => rfl
  | cons r ranges ih =>
      obtain ⟨first, last, step, image⟩ := r
      rw [List.forall_mem_cons] at h
      rw [List.flatMap_cons, List.lookup_append, lookup_rangeRows h.1.1 h.1.2, ih h.2,
        List.find?_cons]
      by_cases hn : first ≤ n ∧ n ≤ last ∧ (n - first) % step = 0
      · simp [hn]
      · have hcover : (first ≤ n && n ≤ last && (n - first) % step == 0) = false := by
          simpa [and_assoc] using hn
        simp [hn, hcover]

theorem upperRanges_steps : ∀ r ∈ upperRanges, 0 < r.2.2.1 ∧ r.1 ≤ r.2.1 := by
  decide +kernel

/-- Of ASCII only the small letters are in the table. -/
theorem lookup_upperTable_of_ascii (hn : n < 0x80) :
    upperTable.lookup n = if 0x61 ≤ n ∧ n ≤ 0x7A then some [n - 0x61 + 0x41] else none := by
  have hlong : upperExpansions.lookup n = none := by
    have hrows : ∀ row ∈ upperExpansions, 0x80 ≤ row.1 := by decide +kernel
    refine List.lookup_eq_none_iff.mpr fun row hrow => bne_iff_ne.mpr ?_
    exact Nat.ne_of_lt (Nat.lt_of_lt_of_le hn (hrows row hrow))
  have hranges : (upperRanges.flatMap rangeRows).lookup n = none := by
    have hrows : ∀ r ∈ upperRanges, 0x80 ≤ r.1 := by decide +kernel
    rw [lookup_flatMap_rangeRows upperRanges_steps, List.find?_eq_none.mpr, Option.map_none]
    intro r hr
    have hlt := Nat.lt_of_lt_of_le hn (hrows r hr)
    simp [Nat.not_le.mpr hlt]
  rw [upperTable, List.lookup_append, List.lookup_append, hlong, hranges,
    lookup_rangeRows Nat.one_pos (by decide), Option.or_none]
  simp [Nat.mod_one]

theorem lookup_upperTable_of_not_ascii (hn : 0x80 ≤ n) :
    upperTable.lookup n
      = (upperExpansions.lookup n).or ((upperRanges.find? fun r =>
          r.1 ≤ n && n ≤ r.2.1 && (n - r.1) % r.2.2.1 == 0).map fun r => [n - r.1 + r.2.2.2]) := by
  have hsmall : ¬ (0x61 ≤ n ∧ n ≤ 0x7A ∧ (n - 0x61) % 1 = 0) := by omega
  rw [upperTable, List.lookup_append, List.lookup_append,
    lookup_rangeRows Nat.one_pos (by decide), if_neg hsmall, Option.none_or,
    lookup_flatMap_rangeRows upperRanges_steps]

/-- **Unicode's upper case, character by character.** -/
theorem upperChar_eq_capitals (c : Char) : upperChar c = capitals c := by
  rcases Nat.lt_or_ge c.toNat 0x80 with hlt | hge
  · unfold capitals
    rw [upperChar_of_ascii hlt, lookup_upperTable_of_ascii hlt]
    exact forall_ascii (P := fun c => [c.toUpper]
      = match (if 0x61 ≤ c.toNat ∧ c.toNat ≤ 0x7A then some [c.toNat - 0x61 + 0x41] else none) with
        | some image => image.map Char.ofNat
        | none => [c]) (by decide) hlt
  · unfold upperChar capitals shiftUpper
    rw [if_neg (Nat.not_lt.mpr hge), lookup_upperTable_of_not_ascii hge]
    cases upperExpansions.lookup c.toNat with
    | some image => rfl
    | none =>
        rw [Option.none_or]
        cases upperRanges.find? _ with
        | some r => rfl
        | none => simp

end PageVault.Text
