import Mathlib.Data.List.Infix
import PageVault.Keys.Header

/-!
# Names of providers

A provider is named in UTF-16 that ends at the first NUL.  Decoding is lossy, but what was
encoded from a text comes back, surrogate pairs included (`decode_encode`), so a name
without a NUL is read as it was written, whatever stands behind its end
(`providerName_written`).

The name decides about the key size of RC4 where the header leaves it open.  That takes the
lower case of the name, and the reader looks at ASCII only.  `LowerCase` says what a text
can have as its lower case: of the other characters just two have ASCII letters in theirs,
and neither letter is in the word that is searched for.  So the answer is that of the whole
lower case (`isBaseProvider_iff`).

§1 UTF-16 there and back · §2 names · §3 lower case.
-/

namespace PageVault

/-! ## §1  UTF-16 there and back -/

namespace Text.Utf16

theorem isHigh_iff (u : UInt16) : isHigh u = true ↔ 0xD800 ≤ u.toNat ∧ u.toNat ≤ 0xDBFF := by
  simp [isHigh, UInt16.le_iff_toNat_le]

theorem isLow_iff (u : UInt16) : isLow u = true ↔ 0xDC00 ≤ u.toNat ∧ u.toNat ≤ 0xDFFF := by
  simp [isLow, UInt16.le_iff_toNat_le]

/-- No character is a surrogate. -/
theorem not_surrogate (c : Char) :
    c.toNat < 0xD800 ∨ 0xDFFF < c.toNat ∧ c.toNat < 0x110000 :=
  c.valid

theorem decode_cons_of_not_isHigh {u : UInt16} (h : ¬ isHigh u = true) (units : List UInt16) :
    decode (u :: units) = single u :: decode units := by
  cases units with
  | nil => rfl
  | cons v rest => simp [decode, h]

theorem decode_cons_cons_of_isPair {u v : UInt16} (hu : isHigh u = true) (hv : isLow v = true)
    (units : List UInt16) : decode (u :: v :: units) = paired u v :: decode units := by
  simp [decode, hu, hv]

/-- The units of a character are read as this character, whatever follows. -/
theorem decode_unitsOf_append (c : Char) (units : List UInt16) :
    decode (unitsOf c ++ units) = c :: decode units := by
  have hvalid := not_surrogate c
  by_cases hbasic : c.toNat < 0x10000
  · have hu : (UInt16.ofNat c.toNat).toNat = c.toNat := UInt16.toNat_ofNat_of_lt' hbasic
    have hhigh : ¬ isHigh (UInt16.ofNat c.toNat) = true := by
      rw [isHigh_iff, hu]
      omega
    have hlow : ¬ isLow (UInt16.ofNat c.toNat) = true := by
      rw [isLow_iff, hu]
      omega
    have hsingle : single (UInt16.ofNat c.toNat) = c := by
      simp only [single, hhigh, hlow, hu, Char.ofNat_toNat, Bool.or_self, Bool.false_eq_true,
        if_false]
    rw [unitsOf, if_pos hbasic, List.singleton_append, decode_cons_of_not_isHigh hhigh, hsingle]
  · -- Twenty bits, ten in each unit.
    have hu : (UInt16.ofNat (0xD800 + (c.toNat - 0x10000) / 0x400)).toNat
        = 0xD800 + (c.toNat - 0x10000) / 0x400 := by
      refine UInt16.toNat_ofNat_of_lt' ?_
      show _ < 65536
      omega
    have hv : (UInt16.ofNat (0xDC00 + (c.toNat - 0x10000) % 0x400)).toNat
        = 0xDC00 + (c.toNat - 0x10000) % 0x400 := by
      refine UInt16.toNat_ofNat_of_lt' ?_
      show _ < 65536
      omega
    have hhigh : isHigh (UInt16.ofNat (0xD800 + (c.toNat - 0x10000) / 0x400)) = true := by
      rw [isHigh_iff, hu]
      omega
    have hlow : isLow (UInt16.ofNat (0xDC00 + (c.toNat - 0x10000) % 0x400)) = true := by
      rw [isLow_iff, hv]
      omega
    have hnumber : 0x10000 + 0x400 * (0xD800 + (c.toNat - 0x10000) / 0x400 - 0xD800)
        + (0xDC00 + (c.toNat - 0x10000) % 0x400 - 0xDC00) = c.toNat := by
      omega
    rw [unitsOf, if_neg hbasic, List.cons_append, List.singleton_append,
      decode_cons_cons_of_isPair hhigh hlow, paired, hu, hv, hnumber, Char.ofNat_toNat]

/-- **Decoding undoes encoding.** -/
theorem decode_encode (cs : List Char) : decode (encode cs) = cs := by
  induction cs with
  | nil => rfl
  | cons c cs ih =>
      show decode (unitsOf c ++ encode cs) = _
      rw [decode_unitsOf_append, ih]

/-- Only NUL has a zero among its units. -/
theorem ne_zero_of_mem_unitsOf {c : Char} (hc : c ≠ '\x00') {u : UInt16} (hu : u ∈ unitsOf c) :
    u ≠ 0 := by
  have hvalid := not_surrogate c
  have hpos : c.toNat ≠ 0 := fun h => hc (Char.toNat_inj.mp h)
  have hsize : ∀ n, n < 65536 → n ≠ 0 → UInt16.ofNat n ≠ 0 := by
    intro n hlt hn h
    have hnat := congrArg UInt16.toNat h
    rw [UInt16.toNat_ofNat_of_lt' hlt] at hnat
    exact hn hnat
  unfold unitsOf at hu
  split at hu
  · rw [List.mem_singleton] at hu
    subst hu
    exact hsize _ (by omega) hpos
  · simp only [List.mem_cons, List.not_mem_nil, or_false] at hu
    rcases hu with rfl | rfl
    · exact hsize _ (by omega) (by omega)
    · exact hsize _ (by omega) (by omega)

theorem ofBytes_toBytes_append (units : List UInt16) (b : Bytes) :
    ofBytes (toBytes units ++ b) = units ++ ofBytes b := by
  induction units with
  | nil => rfl
  | cons u units ih =>
      have hb := Bytes.toNatLE_le16 u
      have hc : toBytes (u :: units) = Bytes.le16 u ++ toBytes units := rfl
      rw [hc]
      simp only [Bytes.le16, Bytes.ofNatLE, List.cons_append, List.nil_append] at hb ⊢
      rw [ofBytes, hb, ih, UInt16.ofNat_toNat]

end Text.Utf16

/-! ## §2  Names -/

/-- A name as it is stored: the text, a NUL, and what is left of the room for it. -/
def writtenName (name : String) (padding : Bytes) : Bytes :=
  Text.Utf16.bytesOf name ++ (0 :: 0 :: padding)

/-- **A name is read as it was written**, if there is no NUL in it. -/
theorem providerName_written {name : String} (hn : '\x00' ∉ name.toList) (padding : Bytes) :
    providerName (writtenName name padding) = name := by
  have hunits : ∀ u ∈ Text.Utf16.encode name.toList, (u != 0) = true := by
    intro u hu
    obtain ⟨c, hc, hu⟩ := List.mem_flatMap.mp hu
    have hne : c ≠ '\x00' := by
      rintro rfl
      exact hn hc
    exact bne_iff_ne.mpr (Text.Utf16.ne_zero_of_mem_unitsOf hne hu)
  have hend : Text.Utf16.ofBytes (0 :: 0 :: padding) = 0 :: Text.Utf16.ofBytes padding := rfl
  unfold providerName writtenName Text.Utf16.bytesOf
  rw [Text.Utf16.ofBytes_toBytes_append, hend, List.takeWhile_append_of_pos hunits,
    List.takeWhile_cons_of_neg (by decide), List.append_nil, Text.Utf16.decode_encode,
    String.ofList_toList]

/-! ## §3  Lower case -/

/-- A text and its lower case.  Of ASCII the letters from `A` to `Z` have another one than
themselves.  What other characters have is left open, except that it is not empty, and that
the only ASCII letters in it are the `i` of `U+0130` and the `k` of `U+212A`. -/
inductive LowerCase : List Char → List Char → Prop
  | nil : LowerCase [] []
  | ascii {c : Char} {cs ds : List Char} (hc : c.toNat < 0x80) (h : LowerCase cs ds) :
      LowerCase (c :: cs) (c.toLower :: ds)
  | other {c : Char} {piece cs ds : List Char} (hc : 0x80 ≤ c.toNat) (hne : piece ≠ [])
      (hp : ∀ x ∈ piece, 0x80 ≤ x.toNat ∨ x = 'i' ∨ x = 'k') (h : LowerCase cs ds) :
      LowerCase (c :: cs) (piece ++ ds)

theorem occursIn_iff (part cs : List Char) : occursIn part cs = true ↔ part <:+: cs := by
  induction cs with
  | nil => simp [occursIn]
  | cons c cs ih => simp [occursIn, ih, List.infix_cons_iff]

/-- ASCII characters that only ASCII characters have in their lower case. -/
def Unmistakable (part : List Char) : Prop :=
  ∀ x ∈ part, x.toNat < 0x80 ∧ x ≠ 'i' ∧ x ≠ 'k'

theorem toLower_of_not_ascii {c : Char} (hc : 0x80 ≤ c.toNat) : c.toLower = c := by
  unfold Char.toLower
  refine dif_neg ?_
  rintro ⟨-, hle⟩
  have hle : c.toNat ≤ 0x5A := hle
  omega

theorem infix_append_iff_of_disjoint {part front cs : List Char} (hne : part ≠ [])
    (hd : ∀ x ∈ front, x ∉ part) : part <:+: front ++ cs ↔ part <:+: cs := by
  induction front with
  | nil => exact Iff.rfl
  | cons y front ih =>
      have hfirst : ¬ part <+: y :: (front ++ cs) := by
        intro h
        cases part with
        | nil => exact hne rfl
        | cons x part =>
            rw [List.cons_prefix_cons] at h
            exact hd y List.mem_cons_self (h.1 ▸ List.mem_cons_self)
      rw [List.cons_append, List.infix_cons_iff, ih fun x hx => hd x (List.mem_cons_of_mem y hx)]
      simp [hfirst]

namespace LowerCase

variable {cs ds part : List Char}

/-- A text in which only ASCII letters change. -/
theorem map_toLower (cs : List Char) : LowerCase cs (cs.map Char.toLower) := by
  induction cs with
  | nil => exact .nil
  | cons c cs ih =>
      rcases Nat.lt_or_ge c.toNat 0x80 with hc | hc
      · exact .ascii hc ih
      · rw [List.map_cons, toLower_of_not_ascii hc, ← List.singleton_append]
        refine .other hc (List.cons_ne_nil c []) ?_ ih
        intro x hx
        exact Or.inl (List.mem_singleton.mp hx ▸ hc)

/-- A text and its lower case are empty together. -/
theorem eq_nil_iff (h : LowerCase cs ds) : ds = [] ↔ cs = [] := by
  cases h with
  | nil => simp
  | ascii => simp
  | other hc hne => simp [hne]

/-- What a character beyond ASCII becomes has nothing to do with the part. -/
theorem not_mem_of_other {piece : List Char} (hpart : Unmistakable part)
    (hp : ∀ x ∈ piece, 0x80 ≤ x.toNat ∨ x = 'i' ∨ x = 'k') : ∀ x ∈ piece, x ∉ part := by
  intro x hx hmem
  obtain ⟨hascii, hi, hk⟩ := hpart x hmem
  rcases hp x hx with h | h | h
  · omega
  · exact hi h
  · exact hk h

theorem prefix_iff (h : LowerCase cs ds) (hpart : Unmistakable part) :
    part <+: ds ↔ part <+: cs.map Char.toLower := by
  induction h generalizing part with
  | nil => exact Iff.rfl
  | @ascii c cs ds hc h ih =>
      cases part with
      | nil => simp
      | cons x part =>
          rw [List.map_cons, List.cons_prefix_cons, List.cons_prefix_cons,
            ih fun y hy => hpart y (List.mem_cons_of_mem x hy)]
  | @other c piece cs ds hc hne hp h ih =>
      cases part with
      | nil => simp
      | cons x part =>
          obtain ⟨y, piece, rfl⟩ := List.exists_cons_of_ne_nil hne
          have hx := hpart x List.mem_cons_self
          have hy : x ≠ y := by
            rintro rfl
            exact not_mem_of_other hpart hp x List.mem_cons_self List.mem_cons_self
          have hc' : x ≠ c := by
            rintro rfl
            omega
          rw [List.map_cons, toLower_of_not_ascii hc, List.cons_append, List.cons_prefix_cons,
            List.cons_prefix_cons]
          simp [hy, hc']

/-- **Such a part occurs in the lower case of a text exactly if it occurs when only ASCII
letters are made small.** -/
theorem infix_iff (h : LowerCase cs ds) (hpart : Unmistakable part) (hne : part ≠ []) :
    part <:+: ds ↔ part <:+: cs.map Char.toLower := by
  induction h with
  | nil => exact Iff.rfl
  | @ascii c cs ds hc h ih =>
      have hfront := (LowerCase.ascii hc h).prefix_iff hpart
      rw [List.map_cons] at hfront
      rw [List.map_cons, List.infix_cons_iff, List.infix_cons_iff, hfront, ih]
  | @other c piece cs ds hc hpne hp h ih =>
      have hself : ∀ x ∈ [c], x ∉ part := by
        intro x hx hmem
        obtain rfl := List.mem_singleton.mp hx
        exact Nat.not_lt.mpr hc (hpart x hmem).1
      rw [List.map_cons, toLower_of_not_ascii hc, ← List.singleton_append,
        infix_append_iff_of_disjoint hne (not_mem_of_other hpart hp),
        infix_append_iff_of_disjoint hne hself, ih]

end LowerCase

/-- A base provider, by the whole lower case of its name. -/
theorem isBaseProvider_iff {name : String} {lowered : List Char}
    (h : LowerCase (Text.trimChars name.toList) lowered) :
    isBaseProvider name = true ↔ lowered = [] ∨ " base ".toList <:+: lowered := by
  have hpart : Unmistakable " base ".toList := by
    intro x hx
    change x ∈ [' ', 'b', 'a', 's', 'e', ' '] at hx
    simp only [List.mem_cons, List.not_mem_nil, or_false] at hx
    rcases hx with rfl | rfl | rfl | rfl | rfl | rfl <;> decide
  rw [h.infix_iff hpart (by decide), h.eq_nil_iff]
  simp [isBaseProvider, occursIn_iff]

end PageVault
