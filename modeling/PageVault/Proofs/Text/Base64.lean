import PageVault.Text.Base64

/-!
# Base64 there and back

Two readers share the alphabet.  One wants the padding that is due and no other, the other
one refuses all padding; both refuse a last group whose unused bits are not zero.  Each of
them reads exactly what is written for it (`padded?_eq_some_iff`, `unpadded?_eq_some_iff`), so
a byte string has one text for each.  Decoding tries the first and then the second
(`decode_eq_or`), and reads the two written forms of a byte string and nothing else
(`decode_eq_some_iff`).

§1 symbols and values · §2 groups · §3 two readers · §4 written forms.
-/

namespace PageVault.Text.Base64

variable {a b c d : Char} {text : List Char} {bytes g : Bytes}

/-! ## §1  Symbols and values -/

theorem lt_and_eq_symbol_of_value? {n : Nat} (h : value? c = some n) :
    n < 64 ∧ c = symbol n := by
  have hc : Char.ofNat c.toNat = c := Char.ofNat_toNat c
  unfold value? at h
  dsimp only at h
  split at h
  · cases h
    refine ⟨by omega, ?_⟩
    rw [symbol, if_pos (by omega), Nat.sub_add_cancel (by omega), hc]
  · split at h
    · cases h
      refine ⟨by omega, ?_⟩
      rw [symbol, if_neg (by omega), if_pos (by omega), Nat.sub_add_cancel (by omega), hc]
    · split at h
      · cases h
        refine ⟨by omega, ?_⟩
        rw [symbol, if_neg (by omega), if_neg (by omega), if_pos (by omega), Nat.add_sub_cancel,
          hc]
      · split at h
        · cases h
          exact ⟨by decide, ‹_›⟩
        · split at h
          · cases h
            exact ⟨by decide, ‹_›⟩
          · cases h

/-- **A character has a value exactly if it is the symbol of that value.** -/
theorem value?_eq_some_iff {n : Nat} : value? c = some n ↔ n < 64 ∧ c = symbol n := by
  constructor
  · exact lt_and_eq_symbol_of_value?
  · rintro ⟨hn, rfl⟩
    exact value?_symbol n hn

theorem value?_padding : value? '=' = none := by
  decide

theorem symbol_ne_padding (n : Nat) : symbol n ≠ '=' := by
  intro h
  rcases Nat.lt_or_ge n 64 with hlt | hge
  · have hv := value?_symbol n hlt
    rw [h, value?_padding] at hv
    cases hv
  · rw [symbol, if_neg (by omega), if_neg (by omega), if_neg (by omega), if_neg (by omega)] at h
    exact absurd h (by decide)

/-! ## §2  Groups -/

/-- A last group of two symbols is read exactly if it was written for one byte.  Its second
symbol has bits that no byte fills, and they have to be zero. -/
theorem decodeOne_eq_some_iff :
    decodeOne a b = some g ↔ ∃ x, g = [x] ∧ [a, b] = encodeUnpadded [x] := by
  unfold decodeOne
  simp only [Option.bind_eq_bind, Option.bind_eq_some_iff, Option.ite_none_right_eq_some,
    value?_eq_some_iff]
  constructor
  · rintro ⟨p, ⟨hp, rfl⟩, q, ⟨hq, rfl⟩, hz, hg⟩
    have hx : (UInt8.ofNat (4 * p + q / 16)).toNat = 4 * p + q / 16 :=
      UInt8.toNat_ofNat_of_lt' (by show _ < 256; omega)
    have hfirst : (4 * p + q / 16) / 4 = p := by omega
    have hsecond : 16 * ((4 * p + q / 16) % 4) = q := by omega
    refine ⟨_, (Option.some.inj hg).symm, ?_⟩
    rw [encodeUnpadded, hx, hfirst, hsecond]
  · rintro ⟨x, rfl, h⟩
    have hx := x.toNat_lt
    have hback : 4 * (x.toNat / 4) + 16 * (x.toNat % 4) / 16 = x.toNat := by omega
    rw [encodeUnpadded] at h
    cases h
    refine ⟨_, ⟨by omega, rfl⟩, _, ⟨by omega, rfl⟩, by omega, ?_⟩
    rw [hback, UInt8.ofNat_toNat]

theorem decodeTwo_eq_some_iff :
    decodeTwo a b c = some g ↔ ∃ x y, g = [x, y] ∧ [a, b, c] = encodeUnpadded [x, y] := by
  unfold decodeTwo
  simp only [Option.bind_eq_bind, Option.bind_eq_some_iff, Option.ite_none_right_eq_some,
    value?_eq_some_iff]
  constructor
  · rintro ⟨p, ⟨hp, rfl⟩, q, ⟨hq, rfl⟩, r, ⟨hr, rfl⟩, hz, hg⟩
    have hx : (UInt8.ofNat (4 * p + q / 16)).toNat = 4 * p + q / 16 :=
      UInt8.toNat_ofNat_of_lt' (by show _ < 256; omega)
    have hy : (UInt8.ofNat (16 * (q % 16) + r / 4)).toNat = 16 * (q % 16) + r / 4 :=
      UInt8.toNat_ofNat_of_lt' (by show _ < 256; omega)
    have hfirst : (4 * p + q / 16) / 4 = p := by omega
    have hsecond : 16 * ((4 * p + q / 16) % 4) + (16 * (q % 16) + r / 4) / 16 = q := by omega
    have hthird : 4 * ((16 * (q % 16) + r / 4) % 16) = r := by omega
    refine ⟨_, _, (Option.some.inj hg).symm, ?_⟩
    rw [encodeUnpadded, hx, hy, hfirst, hsecond, hthird]
  · rintro ⟨x, y, rfl, h⟩
    have hx := x.toNat_lt
    have hy := y.toNat_lt
    have hfirst : 4 * (x.toNat / 4) + (16 * (x.toNat % 4) + y.toNat / 16) / 16 = x.toNat := by
      omega
    have hsecond : 16 * ((16 * (x.toNat % 4) + y.toNat / 16) % 16) + 4 * (y.toNat % 16) / 4
        = y.toNat := by
      omega
    rw [encodeUnpadded] at h
    cases h
    refine ⟨_, ⟨by omega, rfl⟩, _, ⟨by omega, rfl⟩, _, ⟨by omega, rfl⟩, by omega, ?_⟩
    rw [hfirst, hsecond, UInt8.ofNat_toNat, UInt8.ofNat_toNat]

/-- A group of four symbols has no bits to spare. -/
theorem decodeThree_eq_some_iff :
    decodeThree a b c d = some g
      ↔ ∃ x y z, g = [x, y, z] ∧ [a, b, c, d] = encodeUnpadded [x, y, z] := by
  unfold decodeThree
  simp only [Option.bind_eq_bind, Option.bind_eq_some_iff, value?_eq_some_iff]
  constructor
  · rintro ⟨p, ⟨hp, rfl⟩, q, ⟨hq, rfl⟩, r, ⟨hr, rfl⟩, s, ⟨hs, rfl⟩, hg⟩
    have hx : (UInt8.ofNat (4 * p + q / 16)).toNat = 4 * p + q / 16 :=
      UInt8.toNat_ofNat_of_lt' (by show _ < 256; omega)
    have hy : (UInt8.ofNat (16 * (q % 16) + r / 4)).toNat = 16 * (q % 16) + r / 4 :=
      UInt8.toNat_ofNat_of_lt' (by show _ < 256; omega)
    have hz : (UInt8.ofNat (64 * (r % 4) + s)).toNat = 64 * (r % 4) + s :=
      UInt8.toNat_ofNat_of_lt' (by show _ < 256; omega)
    have hfirst : (4 * p + q / 16) / 4 = p := by omega
    have hsecond : 16 * ((4 * p + q / 16) % 4) + (16 * (q % 16) + r / 4) / 16 = q := by omega
    have hthird : 4 * ((16 * (q % 16) + r / 4) % 16) + (64 * (r % 4) + s) / 64 = r := by omega
    have hfourth : (64 * (r % 4) + s) % 64 = s := by omega
    refine ⟨_, _, _, (Option.some.inj hg).symm, ?_⟩
    rw [encodeUnpadded, encodeUnpadded, hx, hy, hz, hfirst, hsecond, hthird, hfourth]
  · rintro ⟨x, y, z, rfl, h⟩
    have hx := x.toNat_lt
    have hy := y.toNat_lt
    have hz := z.toNat_lt
    have hfirst : 4 * (x.toNat / 4) + (16 * (x.toNat % 4) + y.toNat / 16) / 16 = x.toNat := by
      omega
    have hsecond : 16 * ((16 * (x.toNat % 4) + y.toNat / 16) % 16)
        + (4 * (y.toNat % 16) + z.toNat / 64) / 4 = y.toNat := by
      omega
    have hthird : 64 * ((4 * (y.toNat % 16) + z.toNat / 64) % 4) + z.toNat % 64 = z.toNat := by
      omega
    rw [encodeUnpadded, encodeUnpadded] at h
    cases h
    refine ⟨_, ⟨by omega, rfl⟩, _, ⟨by omega, rfl⟩, _, ⟨by omega, rfl⟩, _, ⟨by omega, rfl⟩, ?_⟩
    rw [hfirst, hsecond, hthird, UInt8.ofNat_toNat, UInt8.ofNat_toNat, UInt8.ofNat_toNat]

/-! ## §3  Two readers -/

/-- The bytes of a text that has all the padding that is due. -/
def padded? : List Char → Option Bytes
  | [] => some []
  | [a, b, '=', '='] => decodeOne a b
  | [a, b, c, '='] => decodeTwo a b c
  | a :: b :: c :: d :: rest => do
      let group ← decodeThree a b c d
      let tail ← padded? rest
      some (group ++ tail)
  | _ => none

/-- The bytes of a text that has no padding. -/
def unpadded? : List Char → Option Bytes
  | [] => some []
  | [a, b] => decodeOne a b
  | [a, b, c] => decodeTwo a b c
  | a :: b :: c :: d :: rest => do
      let group ← decodeThree a b c d
      let tail ← unpadded? rest
      some (group ++ tail)
  | _ => none

theorem encodeUnpadded_append_three (x y z : UInt8) (bytes : Bytes) :
    encodeUnpadded ([x, y, z] ++ bytes) = encodeUnpadded [x, y, z] ++ encodeUnpadded bytes := rfl

/-- Padding is due for the last group alone. -/
theorem encode_append_three (x y z : UInt8) (bytes : Bytes) :
    encode ([x, y, z] ++ bytes) = encodeUnpadded [x, y, z] ++ encode bytes := by
  have hlen : (encodeUnpadded [x, y, z] ++ encodeUnpadded bytes).length
      = (encodeUnpadded bytes).length + 4 := by
    rw [List.length_append, Nat.add_comm]
    rfl
  unfold encode
  dsimp only
  rw [encodeUnpadded_append_three, hlen, Nat.add_mod_right, List.append_assoc]

/-- A group of four in front of what is read. -/
theorem decodeThree_bind_eq_some_iff {tail : Option Bytes} :
    (do
      let group ← decodeThree a b c d
      let rest ← tail
      some (group ++ rest)) = some bytes
      ↔ ∃ x y z rest, bytes = [x, y, z] ++ rest ∧ [a, b, c, d] = encodeUnpadded [x, y, z]
        ∧ tail = some rest := by
  simp only [Option.bind_eq_bind, Option.bind_eq_some_iff, decodeThree_eq_some_iff]
  constructor
  · rintro ⟨group, ⟨x, y, z, rfl, hgroup⟩, rest, hrest, h⟩
    exact ⟨x, y, z, rest, (Option.some.inj h).symm, hgroup, hrest⟩
  · rintro ⟨x, y, z, rest, rfl, hgroup, hrest⟩
    exact ⟨_, ⟨x, y, z, rfl, hgroup⟩, rest, hrest, rfl⟩

/-- **The reader that refuses padding reads what is written without it**, and nothing else. -/
theorem unpadded?_eq_some_iff : unpadded? text = some bytes ↔ text = encodeUnpadded bytes := by
  constructor
  · intro h
    fun_induction unpadded? text generalizing bytes with
    | case1 =>
        cases h
        rfl
    | case2 a b =>
        obtain ⟨x, rfl, hgroup⟩ := decodeOne_eq_some_iff.mp h
        exact hgroup
    | case3 a b c =>
        obtain ⟨x, y, rfl, hgroup⟩ := decodeTwo_eq_some_iff.mp h
        exact hgroup
    | case4 a b c d rest ih =>
        obtain ⟨x, y, z, bytes, rfl, hgroup, hrest⟩ := decodeThree_bind_eq_some_iff.mp h
        rw [encodeUnpadded_append_three, ← hgroup, ← ih hrest]
        rfl
    | case5 => cases h
  · rintro rfl
    fun_induction encodeUnpadded bytes with
    | case1 => rfl
    | case2 x => exact decodeOne_eq_some_iff.mpr ⟨x, rfl, rfl⟩
    | case3 x y => exact decodeTwo_eq_some_iff.mpr ⟨x, y, rfl, rfl⟩
    | case4 x y z rest ih =>
        rw [unpadded?]
        exact decodeThree_bind_eq_some_iff.mpr ⟨x, y, z, rest, rfl, rfl, ih⟩

/-- Two bytes in front of one sign of padding, unless there is another one. -/
theorem padded?_two (h : c ≠ '=') : padded? [a, b, c, '='] = decodeTwo a b c := by
  rw [padded?]
  exact h

/-- Four characters in front of others, unless they end in padding. -/
theorem padded?_four (h : d ≠ '=') (rest : List Char) :
    padded? (a :: b :: c :: d :: rest) = (do
      let group ← decodeThree a b c d
      let tail ← padded? rest
      some (group ++ tail)) := by
  rw [padded?]
  · intro _ hd _
    exact h hd
  · intro hd _
    exact h hd

/-- **The reader that wants padding reads what is written with it**, and nothing else. -/
theorem padded?_eq_some_iff : padded? text = some bytes ↔ text = encode bytes := by
  constructor
  · intro h
    fun_induction padded? text generalizing bytes with
    | case1 =>
        cases h
        rfl
    | case2 a b =>
        obtain ⟨x, rfl, hgroup⟩ := decodeOne_eq_some_iff.mp h
        exact congrArg (· ++ ['=', '=']) hgroup
    | case3 a b c =>
        obtain ⟨x, y, rfl, hgroup⟩ := decodeTwo_eq_some_iff.mp h
        exact congrArg (· ++ ['=']) hgroup
    | case4 a b c d rest _ _ ih =>
        obtain ⟨x, y, z, bytes, rfl, hgroup, hrest⟩ := decodeThree_bind_eq_some_iff.mp h
        rw [encode_append_three, ← hgroup, ← ih hrest]
        rfl
    | case5 => cases h
  · rintro rfl
    fun_induction encodeUnpadded bytes with
    | case1 => rfl
    | case2 x => exact decodeOne_eq_some_iff.mpr ⟨x, rfl, rfl⟩
    | case3 x y =>
        exact (padded?_two (symbol_ne_padding _)).trans
          (decodeTwo_eq_some_iff.mpr ⟨x, y, rfl, rfl⟩)
    | case4 x y z rest ih =>
        show padded? (encode ([x, y, z] ++ rest)) = _
        rw [encode_append_three]
        exact (padded?_four (symbol_ne_padding _) (encode rest)).trans
          (decodeThree_bind_eq_some_iff.mpr ⟨x, y, z, rest, rfl, rfl, ih⟩)

/-- Padding is no symbol, so a group of four never ends in it. -/
theorem decodeThree_padding : decodeThree a b c '=' = none := by
  unfold decodeThree
  rw [value?_padding]
  simp only [Option.bind_eq_bind, Option.bind_none, Option.bind_fun_none]

/-- **Decoding tries one reader after the other.**  No text with padding is read without it. -/
theorem decode_eq_or (text : List Char) : decode text = (padded? text).or (unpadded? text) := by
  fun_induction decode text with
  | case1 => rfl
  | case2 a b => rfl
  | case3 a b =>
      have hnone : unpadded? [a, b, '=', '='] = none := by
        rw [unpadded?, decodeThree_padding]
        rfl
      rw [hnone, Option.or_none]
      rfl
  | case4 a b c =>
      have hnone : padded? [a, b, c] = none := by
        rw [padded?] <;> nofun
      rw [hnone, Option.none_or]
      rfl
  | case5 a b c hc =>
      have hnone : unpadded? [a, b, c, '='] = none := by
        rw [unpadded?, decodeThree_padding]
        rfl
      rw [hnone, Option.or_none, padded?_two hc]
  | case6 a b c d rest hone htwo ih =>
      rw [padded?, unpadded?, ih]
      · cases decodeThree a b c d with
        | none => rfl
        | some group =>
            cases padded? rest with
            | none => rfl
            | some tail => rfl
      · exact hone
      · exact htwo
  | case7 text hnil htwo _ hthree _ hfour =>
      -- What is left is a single symbol.
      match text with
      | [] => exact absurd rfl hnil
      | [a] => rfl
      | [a, b] => exact absurd rfl (htwo a b)
      | [a, b, c] => exact absurd rfl (hthree a b c)
      | a :: b :: c :: d :: rest => exact absurd rfl (hfour a b c d rest)

/-! ## §4  Written forms -/

/-- The text is the written form of the bytes, with all the padding that is due or without any. -/
def Writes (text : List Char) (bytes : Bytes) : Prop :=
  text = encode bytes ∨ text = encodeUnpadded bytes

theorem exists_symbol_of_mem (h : c ∈ encodeUnpadded bytes) : ∃ n, c = symbol n := by
  fun_induction encodeUnpadded bytes with
  | case1 => cases h
  | case2 x | case3 x y =>
      simp only [List.mem_cons, List.not_mem_nil, or_false] at h
      rcases h with rfl | rfl | rfl <;> exact ⟨_, rfl⟩
  | case4 x y z rest ih =>
      simp only [List.mem_cons] at h
      rcases h with rfl | rfl | rfl | rfl | h
      · exact ⟨_, rfl⟩
      · exact ⟨_, rfl⟩
      · exact ⟨_, rfl⟩
      · exact ⟨_, rfl⟩
      · exact ih h

theorem Writes.mem (hw : Writes text bytes) (h : c ∈ text) : c = '=' ∨ ∃ n, c = symbol n := by
  rcases hw with rfl | rfl
  · rcases List.mem_append.mp h with h | h
    · exact Or.inr (exists_symbol_of_mem h)
    · exact Or.inl (List.eq_of_mem_replicate h)
  · exact Or.inr (exists_symbol_of_mem h)

/-- A text that both readers read has no padding, and so they read the same. -/
theorem eq_of_encode_eq_encodeUnpadded {bytes' : Bytes} (h : encode bytes = encodeUnpadded bytes') :
    bytes = bytes' := by
  have hpad : '=' ∉ encodeUnpadded bytes' := by
    intro hm
    obtain ⟨n, hn⟩ := exists_symbol_of_mem hm
    exact symbol_ne_padding n hn.symm
  have hnone : encode bytes = encodeUnpadded bytes := by
    unfold encode at h ⊢
    dsimp only at h ⊢
    cases hk : (4 - (encodeUnpadded bytes).length % 4) % 4 with
    | zero => exact List.append_nil _
    | succ k =>
        rw [hk] at h
        exact absurd (h ▸ List.mem_append_right _ (List.mem_replicate.mpr ⟨nofun, rfl⟩)) hpad
  have hread : unpadded? (encodeUnpadded bytes) = some bytes' :=
    unpadded?_eq_some_iff.mpr (hnone.symm.trans h)
  exact Option.some.inj ((unpadded?_eq_some_iff.mpr rfl).symm.trans hread)

/-- **What is decoded is what was written**, with padding or without. -/
theorem decode_eq_some_iff : decode text = some bytes ↔ Writes text bytes := by
  rw [decode_eq_or, Option.or_eq_some_iff, padded?_eq_some_iff, unpadded?_eq_some_iff]
  constructor
  · rintro (h | ⟨-, h⟩)
    · exact Or.inl h
    · exact Or.inr h
  · rintro (h | h)
    · exact Or.inl h
    · -- The first reader fails, or reads the same.
      cases hp : padded? text with
      | none => exact Or.inr ⟨rfl, h⟩
      | some bytes' =>
          have hpad := padded?_eq_some_iff.mp hp
          left
          rw [hpad, eq_of_encode_eq_encodeUnpadded (hpad.symm.trans h)]

/-- **A text is the written form of one byte string at most.** -/
theorem Writes.unique {bytes' : Bytes} (h : Writes text bytes) (h' : Writes text bytes') :
    bytes = bytes' :=
  Option.some.inj ((decode_eq_some_iff.mpr h).symm.trans (decode_eq_some_iff.mpr h'))

theorem Writes.eq_nil_iff (h : Writes text bytes) : text = [] ↔ bytes = [] := by
  constructor
  · rintro rfl
    exact h.unique (Or.inl rfl)
  · rintro rfl
    rcases h with rfl | rfl
    · rfl
    · rfl

end PageVault.Text.Base64
